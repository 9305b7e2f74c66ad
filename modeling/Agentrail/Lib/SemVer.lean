import Mathlib.Data.List.Lex
import Mathlib.Order.Lattice

/-!
# Versions under semantic precedence

A version is a core of three numbers with the identifiers of its prerelease part; a build
part has no precedence and is left out.  Identifiers are numbers or texts of any linear
order.  Main results:

* `Version.trichotomy`, `Version.Precedes.trans`, `Version.not_precedes_self`:
  precedence is a strict total order;
* `Core.caret_iff`, `Core.tilde_iff`: the caret and tilde ranges as half-open intervals;
* `misordered_iff`: when identifiers that ascend as texts do not ascend in precedence.
-/

namespace SemVer

/-! ## Cores -/

structure Core where
  major : ℕ
  minor : ℕ
  patch : ℕ
  deriving DecidableEq, Repr

namespace Core

def Lt (a b : Core) : Prop :=
  a.major < b.major ∨ a.major = b.major ∧
    (a.minor < b.minor ∨ a.minor = b.minor ∧ a.patch < b.patch)

instance (a b : Core) : Decidable (a.Lt b) :=
  inferInstanceAs (Decidable (_ ∨ _ ∧ (_ ∨ _ ∧ _)))

/-- `a` is `b` or comes before it. -/
def Le (a b : Core) : Prop := ¬b.Lt a

instance (a b : Core) : Decidable (a.Le b) := inferInstanceAs (Decidable (¬_))

theorem not_lt_self (a : Core) : ¬a.Lt a := by
  unfold Lt
  omega

theorem Lt.trans {a b c : Core} (hab : a.Lt b) (hbc : b.Lt c) : a.Lt c := by
  unfold Lt at *
  omega

theorem trichotomy (a b : Core) : a.Lt b ∨ a = b ∨ b.Lt a := by
  obtain ⟨a₁, a₂, a₃⟩ := a
  obtain ⟨b₁, b₂, b₃⟩ := b
  simp only [Lt, Core.mk.injEq]
  omega

/-- The range `^lower`: nothing older, and the leftmost number that is not zero stays. -/
def Caret (lower v : Core) : Prop :=
  lower.Le v ∧
    if lower.major ≠ 0 then v.major = lower.major
    else if lower.minor ≠ 0 then v.major = 0 ∧ v.minor = lower.minor
    else v = lower

/-- The first core past `^lower`. -/
def caretUpper (lower : Core) : Core :=
  if lower.major > 0 then ⟨lower.major + 1, 0, 0⟩
  else if lower.minor > 0 then ⟨0, lower.minor + 1, 0⟩
  else ⟨0, 0, lower.patch + 1⟩

theorem caret_iff (lower v : Core) : Caret lower v ↔ lower.Le v ∧ v.Lt (caretUpper lower) := by
  obtain ⟨l₁, l₂, l₃⟩ := lower
  obtain ⟨v₁, v₂, v₃⟩ := v
  refine and_congr_right fun hle => ?_
  simp only [Le, Lt, caretUpper] at hle ⊢
  split_ifs <;> simp only [Core.mk.injEq] <;> omega

/-- The range `~lower`: only the last number may grow. -/
def Tilde (lower v : Core) : Prop :=
  v.major = lower.major ∧ v.minor = lower.minor ∧ lower.patch ≤ v.patch

/-- The first core past `~lower`. -/
def tildeUpper (lower : Core) : Core := ⟨lower.major, lower.minor + 1, 0⟩

theorem tilde_iff (lower v : Core) : Tilde lower v ↔ lower.Le v ∧ v.Lt (tildeUpper lower) := by
  simp only [Tilde, Le, Lt, tildeUpper]
  omega

end Core

/-! ## Prerelease identifiers -/

inductive Identifier (α : Type) where
  | numeric (n : ℕ)
  | textual (t : α)
  deriving DecidableEq, Repr

variable {α : Type} [LinearOrder α]

/-- Numbers compare as numbers and come before texts. -/
def Identifier.Lt : Identifier α → Identifier α → Prop
  | .numeric m, .numeric n => m < n
  | .numeric _, .textual _ => True
  | .textual _, .numeric _ => False
  | .textual s, .textual t => s < t

theorem Identifier.not_lt_self (x : Identifier α) : ¬x.Lt x := by
  cases x <;> simp [Identifier.Lt]

theorem Identifier.Lt.trans {x y z : Identifier α} (hxy : x.Lt y) (hyz : y.Lt z) : x.Lt z := by
  cases x <;> cases y <;> cases z <;> simp only [Identifier.Lt] at *
  · exact hxy.trans hyz
  · exact hxy.trans hyz

theorem Identifier.trichotomy (x y : Identifier α) : x.Lt y ∨ x = y ∨ y.Lt x := by
  cases x <;> cases y <;> simp [Identifier.Lt, lt_trichotomy]

/-- Identifiers are compared from the left; of two lists where one begins the other, the longer
comes later. -/
def PrereleaseLt : List (Identifier α) → List (Identifier α) → Prop
  | [], [] => False
  | [], _ :: _ => True
  | _ :: _, [] => False
  | x :: xs, y :: ys => x.Lt y ∨ x = y ∧ PrereleaseLt xs ys

theorem not_prereleaseLt_self (xs : List (Identifier α)) : ¬PrereleaseLt xs xs := by
  induction xs with
  | nil => exact id
  | cons x xs ih => simp [PrereleaseLt, ih, x.not_lt_self]

theorem PrereleaseLt.trans {xs ys zs : List (Identifier α)} (hxy : PrereleaseLt xs ys)
    (hyz : PrereleaseLt ys zs) : PrereleaseLt xs zs := by
  induction xs generalizing ys zs with
  | nil =>
    cases ys with
    | nil => exact hxy.elim
    | cons y ys =>
      cases zs with
      | nil => exact hyz.elim
      | cons z zs => trivial
  | cons x xs ih =>
    cases ys with
    | nil => exact hxy.elim
    | cons y ys =>
      cases zs with
      | nil => exact hyz.elim
      | cons z zs =>
        rcases hxy with hx | ⟨rfl, hxs⟩
        · rcases hyz with hy | ⟨rfl, _⟩
          · exact .inl (hx.trans hy)
          · exact .inl hx
        · rcases hyz with hy | ⟨rfl, hys⟩
          · exact .inl hy
          · exact .inr ⟨rfl, ih hxs hys⟩

theorem prereleaseLt_total (xs ys : List (Identifier α)) :
    PrereleaseLt xs ys ∨ xs = ys ∨ PrereleaseLt ys xs := by
  induction xs generalizing ys with
  | nil => cases ys <;> simp [PrereleaseLt]
  | cons x xs ih =>
    cases ys with
    | nil => exact .inr (.inr trivial)
    | cons y ys =>
      rcases x.trichotomy y with hlt | rfl | hlt
      · exact .inl (.inl hlt)
      · rcases ih ys with htail | rfl | htail
        · exact .inl (.inr ⟨rfl, htail⟩)
        · exact .inr (.inl rfl)
        · exact .inr (.inr (.inr ⟨rfl, htail⟩))
      · exact .inr (.inr (.inl hlt))

/-! ## Versions -/

structure Version (α : Type) where
  core : Core
  prerelease : List (Identifier α)
  deriving DecidableEq, Repr

namespace Version

/-- The version without a prerelease part. -/
def release (core : Core) : Version α := ⟨core, []⟩

/-- A version precedes one with a later core, and with the same core its own release and the
prereleases with later identifiers. -/
def Precedes (a b : Version α) : Prop :=
  a.core.Lt b.core ∨ a.core = b.core ∧ a.prerelease ≠ [] ∧
    (b.prerelease = [] ∨ PrereleaseLt a.prerelease b.prerelease)

theorem not_precedes_self (a : Version α) : ¬a.Precedes a := by
  simp only [Precedes, a.core.not_lt_self, not_prereleaseLt_self]
  tauto

theorem Precedes.trans {a b c : Version α} (hab : a.Precedes b) (hbc : b.Precedes c) :
    a.Precedes c := by
  obtain ⟨ca, pa⟩ := a
  obtain ⟨cb, pb⟩ := b
  obtain ⟨cc, pc⟩ := c
  simp only [Precedes] at hab hbc ⊢
  rcases hab with hab | ⟨rfl, hpa, hab⟩
  · rcases hbc with hbc | ⟨rfl, _, _⟩
    · exact .inl (hab.trans hbc)
    · exact .inl hab
  · rcases hbc with hbc | ⟨rfl, hpb, hbc⟩
    · exact .inl hbc
    · refine .inr ⟨rfl, hpa, ?_⟩
      rcases hbc with hbc | hbc
      · exact .inl hbc
      · exact .inr ((hab.resolve_left hpb).trans hbc)

theorem trichotomy (a b : Version α) : a.Precedes b ∨ a = b ∨ b.Precedes a := by
  obtain ⟨ca, pa⟩ := a
  obtain ⟨cb, pb⟩ := b
  simp only [Precedes, Version.mk.injEq]
  rcases ca.trichotomy cb with hlt | rfl | hlt
  · exact .inl (.inl hlt)
  · rcases prereleaseLt_total pa pb with hlt | rfl | hlt
    · by_cases hpa : pa = []
      · subst hpa
        by_cases hpb : pb = []
        · exact .inr (.inl ⟨rfl, hpb.symm⟩)
        · exact .inr (.inr (.inr ⟨rfl, hpb, .inl rfl⟩))
      · exact .inl (.inr ⟨rfl, hpa, .inr hlt⟩)
    · exact .inr (.inl ⟨rfl, rfl⟩)
    · by_cases hpb : pb = []
      · subst hpb
        by_cases hpa : pa = []
        · exact .inr (.inl ⟨rfl, hpa⟩)
        · exact .inl (.inr ⟨rfl, hpa, .inl rfl⟩)
      · exact .inr (.inr (.inr ⟨rfl, hpb, .inr hlt⟩))
  · exact .inr (.inr (.inl hlt))

end Version

/-! ## Identifiers that are compared as texts -/

/-- `xs` comes before `ys` as a list of texts although `read` makes no later identifiers of
`ys`: at the first difference a number meets a smaller one, or the same one and nothing behind
it helps, or a text meets a number. -/
def Misordered (read : α → Identifier α) : List α → List α → Prop
  | x :: xs, y :: ys =>
    if x = y then Misordered read xs ys
    else x < y ∧ match read x, read y with
      | .numeric m, .numeric n => n < m ∨ n = m ∧ ¬PrereleaseLt (xs.map read) (ys.map read)
      | .textual _, .numeric _ => True
      | _, _ => False
  | _, _ => False

/-- A reading of identifiers that keeps the texts it does not take for numbers. -/
def Keeps (read : α → Identifier α) : Prop := ∀ x t, read x = .textual t → t = x

theorem misordered_iff (read : α → Identifier α) (hread : Keeps read) (xs ys : List α) :
    Misordered read xs ys ↔ xs < ys ∧ ¬PrereleaseLt (xs.map read) (ys.map read) := by
  induction xs generalizing ys with
  | nil => cases ys <;> simp [Misordered, PrereleaseLt]
  | cons x xs ih =>
    cases ys with
    | nil => simp [Misordered]
    | cons y ys =>
      simp only [Misordered, List.map_cons, PrereleaseLt, List.cons_lt_cons_iff]
      by_cases hxy : x = y
      · subst hxy
        simp [ih, (read x).not_lt_self]
      · rw [if_neg hxy]
        simp only [hxy, false_and, or_false]
        refine and_congr_right fun hlt => ?_
        cases hx : read x with
        | numeric m =>
          cases hy : read y with
          | numeric n =>
            simp only [Identifier.Lt, Identifier.numeric.injEq]
            have hsplit : m < n ∨ m = n ∨ n < m := Nat.lt_trichotomy m n
            constructor
            · rintro (hnm | ⟨rfl, htail⟩)
              · omega
              · simp [htail]
            · intro hno
              rcases hsplit with hmn | rfl | hnm
              · exact absurd (.inl hmn) hno
              · exact .inr ⟨rfl, fun htail => hno (.inr ⟨rfl, htail⟩)⟩
              · exact .inl hnm
          | textual t => simp [Identifier.Lt]
        | textual s =>
          cases hy : read y with
          | numeric n => simp [Identifier.Lt]
          | textual t =>
            obtain rfl := hread x s hx
            obtain rfl := hread y t hy
            simp [Identifier.Lt, hlt]

end SemVer
