import Mathlib.Data.Set.Finite.Basic
import Mathlib.Data.Finset.Card
import Mathlib.Order.Interval.Finset.Nat

/-!
# Runs of a machine

`run next s as` takes the actions `as` one by one from the state `s`; it ends in
`none` where the machine refuses one.  `Always` is what holds at every state of a
run, `Throughout` what holds of every action where it is taken.  The rule for both
is `always_iff_throughout`: if from a good state an action leads to a good state
exactly when it meets a condition, a run stays good exactly when all its actions
meet the condition.

`spent_le` bounds a run without end: steps that spend a potential are outnumbered
by what it starts with and the steps that add to it.
-/

namespace Runs

section
variable {σ α : Type*} (next : σ → α → Option σ)

def run (s : σ) : List α → Option σ
  | [] => some s
  | a :: as => (next s a).bind fun t => run t as

/-- `P` holds in the first state, the last one and every one between. -/
def Always (P : σ → Prop) (s : σ) : List α → Prop
  | [] => P s
  | a :: as => P s ∧ ∀ t, next s a = some t → Always P t as

/-- Every action meets `C` in the state in which it is taken. -/
def Throughout (C : σ → α → Prop) (s : σ) : List α → Prop
  | [] => True
  | a :: as => C s a ∧ ∀ t, next s a = some t → Throughout C t as

variable {next}

theorem run_cons {s t : σ} {a : α} {as : List α} (h : run next s (a :: as) = some t) :
    ∃ u, next s a = some u ∧ run next u as = some t := by
  unfold run at h
  exact Option.bind_eq_some_iff.mp h

theorem run_append (s : σ) (as bs : List α) :
    run next s (as ++ bs) = (run next s as).bind fun t => run next t bs := by
  induction as generalizing s with
  | nil => rfl
  | cons a as ih =>
    show (next s a).bind _ = ((next s a).bind _).bind _
    rw [Option.bind_assoc]
    congr 1
    funext t
    exact ih t

/-- **Invariants.** What every step keeps holds at the end of every run. -/
theorem invariant {I : σ → Prop} (hstep : ∀ s a t, next s a = some t → I s → I t) {s t : σ}
    {as : List α} (h : run next s as = some t) (hs : I s) : I t := by
  induction as generalizing s with
  | nil =>
    cases h
    exact hs
  | cons a as ih =>
    obtain ⟨u, hu, hrun⟩ := run_cons h
    exact ih hrun (hstep s a u hu hs)

theorem Always.start {P : σ → Prop} {s : σ} {as : List α} (h : Always next P s as) : P s := by
  cases as with
  | nil => exact h
  | cons a as => exact h.1

theorem Always.finish {P : σ → Prop} {s t : σ} {as : List α} (h : Always next P s as)
    (hrun : run next s as = some t) : P t := by
  induction as generalizing s with
  | nil =>
    cases hrun
    exact h
  | cons a as ih =>
    obtain ⟨u, hu, hrun⟩ := run_cons hrun
    exact ih (h.2 u hu) hrun

theorem Always.mono {P P' : σ → Prop} (hP : ∀ s, P s → P' s) {s : σ} {as : List α}
    (h : Always next P s as) : Always next P' s as := by
  induction as generalizing s with
  | nil => exact hP s h
  | cons a as ih => exact ⟨hP s h.1, fun t ht => ih (h.2 t ht)⟩

/-- The same with the help of an invariant. -/
theorem Always.mono_invariant {P P' I : σ → Prop} {s : σ} {as : List α}
    (h : Always next P s as) (hstep : ∀ s a t, next s a = some t → I s → I t) (hs : I s)
    (hP : ∀ s, I s → P s → P' s) : Always next P' s as := by
  induction as generalizing s with
  | nil => exact hP s hs h
  | cons a as ih => exact ⟨hP s hs h.1, fun t ht => ih (h.2 t ht) (hstep s a t ht hs)⟩

/-- What every step keeps holds throughout every run. -/
theorem always_of_invariant {P : σ → Prop} (hstep : ∀ s a t, next s a = some t → P s → P t)
    {s : σ} (as : List α) (hs : P s) : Always next P s as := by
  induction as generalizing s with
  | nil => exact hs
  | cons a as ih => exact ⟨hs, fun t ht => ih (hstep s a t ht hs)⟩

/-- Where every action meets `C`, what such actions keep holds throughout the run. -/
theorem always_of_throughout {P : σ → Prop} {C : σ → α → Prop}
    (hstep : ∀ s a t, next s a = some t → P s → C s a → P t) {s : σ} {as : List α}
    (h : Throughout next C s as) (hs : P s) : Always next P s as := by
  induction as generalizing s with
  | nil => exact hs
  | cons a as ih => exact ⟨hs, fun t ht => ih (h.2 t ht) (hstep s a t ht hs h.1)⟩

/-- What an invariant makes of a condition. -/
theorem Throughout.mono_invariant {I : σ → Prop} {C C' : σ → α → Prop} {s : σ} {as : List α}
    (h : Throughout next C s as) (hstep : ∀ s a t, next s a = some t → I s → I t) (hs : I s)
    (hC : ∀ s a, I s → C s a → C' s a) : Throughout next C' s as := by
  induction as generalizing s with
  | nil => trivial
  | cons a as ih => exact ⟨hC s a hs h.1, fun t ht => ih (h.2 t ht) (hstep s a t ht hs)⟩

/-- **Versions.** Where every step keeps a value and its version or raises the version, the versions
of a run never decrease, and one version has one value. -/
theorem versioned {β : Type*} (version : σ → ℕ) (value : σ → β) {I : σ → Prop}
    (hI : ∀ s a t, next s a = some t → I s → I t)
    (hstep : ∀ s a t, next s a = some t → I s →
      version t = version s ∧ value t = value s ∨ version s < version t)
    {s t : σ} {as : List α} (hrun : run next s as = some t) (hs : I s) :
    version s ≤ version t ∧ (version s = version t → value s = value t) := by
  induction as generalizing s with
  | nil =>
    cases hrun
    exact ⟨le_rfl, fun _ => rfl⟩
  | cons a as ih =>
    obtain ⟨u, hu, hrun'⟩ := run_cons hrun
    obtain ⟨hle, hsame⟩ := ih hrun' (hI s a u hu hs)
    rcases hstep s a u hu hs with ⟨hversion, hvalue⟩ | hlt
    · rw [← hversion, ← hvalue]
      exact ⟨hle, hsame⟩
    · refine ⟨by omega, fun heq => ?_⟩
      omega

theorem Throughout.append {C : σ → α → Prop} {s t : σ} {as bs : List α}
    (h : Throughout next C s (as ++ bs)) (hrun : run next s as = some t) :
    Throughout next C s as ∧ Throughout next C t bs := by
  induction as generalizing s with
  | nil =>
    cases hrun
    exact ⟨trivial, h⟩
  | cons a as ih =>
    obtain ⟨u, hu, hrun'⟩ := run_cons hrun
    obtain ⟨has, hbs⟩ := ih (h.2 u hu) hrun'
    refine ⟨⟨h.1, ?_⟩, hbs⟩
    intro u' hu'
    obtain rfl : u = u' := Option.some.inj (hu.symm.trans hu')
    exact has

/-- A condition on the actions alone. -/
theorem Throughout.and_forall {C : σ → α → Prop} {D : α → Prop} {s : σ} {as : List α}
    (h : Throughout next C s as) (hD : ∀ a ∈ as, D a) :
    Throughout next (fun s a => C s a ∧ D a) s as := by
  induction as generalizing s with
  | nil => trivial
  | cons a as ih =>
    rw [List.forall_mem_cons] at hD
    exact ⟨⟨h.1, hD.1⟩, fun t ht => ih (h.2 t ht) hD.2⟩

instance decidableThroughout (C : σ → α → Prop) [∀ s a, Decidable (C s a)] (s : σ) :
    ∀ as : List α, Decidable (Throughout next C s as)
  | [] => isTrue trivial
  | a :: as =>
    match hnext : next s a with
    | none => decidable_of_iff (C s a)
        ⟨fun hC => ⟨hC, fun t ht => by rw [hnext] at ht; cases ht⟩, fun h => h.1⟩
    | some u =>
      have := decidableThroughout C u as
      decidable_of_iff (C s a ∧ Throughout next C u as)
        ⟨fun h => ⟨h.1, fun t ht => by rw [hnext] at ht; cases ht; exact h.2⟩,
          fun h => ⟨h.1, h.2 u hnext⟩⟩

/-- **Exact conditions.** If a step from a good state is good exactly when `C` holds, a run of
accepted actions is good exactly when `C` holds of all of them. -/
theorem always_iff_throughout {P : σ → Prop} {C : σ → α → Prop}
    (hstep : ∀ s a t, next s a = some t → P s → (P t ↔ C s a)) {s : σ} {as : List α}
    (hrun : (run next s as).isSome) (hs : P s) :
    Always next P s as ↔ Throughout next C s as := by
  constructor
  · intro h
    induction as generalizing s with
    | nil => trivial
    | cons a as ih =>
      obtain ⟨u, hu⟩ := Option.isSome_iff_exists.mp hrun
      obtain ⟨t, ht, hrun'⟩ := run_cons hu
      have hgood : P t := (h.2 t ht).start
      refine ⟨(hstep s a t ht hs).mp hgood, ?_⟩
      intro t' ht'
      obtain rfl : t = t' := Option.some.inj (ht.symm.trans ht')
      exact ih (Option.isSome_iff_exists.mpr ⟨u, hrun'⟩) hgood (h.2 t ht)
  · intro h
    exact always_of_throughout (fun s a t ht hP hC => (hstep s a t ht hP).mpr hC) h hs

/-- Two conditions that say the same where an invariant holds, which actions of a kind keep as long
as they meet the second, are the same over whole runs of such actions. -/
theorem throughout_iff {I : σ → Prop} {C C' : σ → α → Prop} {D : α → Prop}
    (hiff : ∀ s a, I s → D a → (C s a ↔ C' s a))
    (hstep : ∀ s a t, next s a = some t → I s → D a → C' s a → I t) {s : σ} {as : List α}
    (hD : ∀ a ∈ as, D a) (hs : I s) : Throughout next C s as ↔ Throughout next C' s as := by
  induction as generalizing s with
  | nil => exact Iff.rfl
  | cons a as ih =>
    rw [List.forall_mem_cons] at hD
    constructor
    · intro h
      have hC := (hiff s a hs hD.1).mp h.1
      exact ⟨hC, fun t ht => (ih hD.2 (hstep s a t ht hs hD.1 hC)).mp (h.2 t ht)⟩
    · intro h
      exact ⟨(hiff s a hs hD.1).mpr h.1,
        fun t ht => (ih hD.2 (hstep s a t ht hs hD.1 h.1)).mpr (h.2 t ht)⟩

end

/-! ## Runs without end -/

section
variable (potential : ℕ → ℕ) (spends adds : ℕ → Prop) [DecidablePred spends] [DecidablePred adds]

/-- Every step that spends lowers the potential, and only steps that add raise it, by one. -/
def Charged : Prop :=
  ∀ n, potential (n + 1) + (if spends n then 1 else 0) ≤ potential n + (if adds n then 1 else 0)

variable {potential spends adds}

theorem card_filter_range_succ (p : ℕ → Prop) [DecidablePred p] (n : ℕ) :
    ((Finset.range (n + 1)).filter p).card =
      ((Finset.range n).filter p).card + (if p n then 1 else 0) := by
  rw [Finset.range_add_one, Finset.filter_insert]
  by_cases hp : p n
  · rw [if_pos hp, if_pos hp, Finset.card_insert_of_notMem]
    simp
  · rw [if_neg hp, if_neg hp, Nat.add_zero]

/-- **The bound.** In the first `n` steps. -/
theorem spent_le (h : Charged potential spends adds) (n : ℕ) :
    ((Finset.range n).filter spends).card ≤
      potential 0 + ((Finset.range n).filter adds).card := by
  have hall : potential n + ((Finset.range n).filter spends).card ≤
      potential 0 + ((Finset.range n).filter adds).card := by
    induction n with
    | zero => simp
    | succ n ih =>
      rw [card_filter_range_succ, card_filter_range_succ]
      have hn := h n
      omega
  omega

/-- A run that adds finitely often spends finitely often. -/
theorem finite_spends (h : Charged potential spends adds) (hadds : {n | adds n}.Finite) :
    {n | spends n}.Finite := by
  rw [← Set.not_infinite]
  intro hinf
  obtain ⟨t, hsub, hcard⟩ := hinf.exists_subset_card_eq (potential 0 + hadds.toFinset.card + 1)
  have hrange : t ⊆ (Finset.range (t.sup id + 1)).filter spends := by
    intro n hn
    rw [Finset.mem_filter, Finset.mem_range]
    have hle : id n ≤ t.sup id := Finset.le_sup hn
    exact ⟨by simp only [id] at hle; omega, hsub hn⟩
  have hspent := spent_le h (t.sup id + 1)
  have hadded : ((Finset.range (t.sup id + 1)).filter adds).card ≤ hadds.toFinset.card := by
    refine Finset.card_le_card ?_
    intro n hn
    rw [Finset.mem_filter] at hn
    exact (hadds.mem_toFinset).mpr hn.2
  have ht := Finset.card_le_card hrange
  omega

end

end Runs
