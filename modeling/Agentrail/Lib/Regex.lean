import Mathlib.Data.List.Basic

/-!
# Backtracking regular expressions

Patterns as a syntax tree (`Re`) and the backtracking matcher that Perl-style
engines specify: `Re.run r s k` tries the ways `r` matches at `s` in priority
order and returns the first for which the continuation `k` succeeds.  Character
classes and zero-width assertions are predicates, so one tree type serves every
dialect.

`takeGreedy` and `takeLazy` are what a starred character class does, without
fuel; `takeGreedy_skip` says where the greedy one stops.
-/

namespace Regex

/-- A place in the subject (what was read, latest first, and what is left) and the groups
captured on the way, latest first. -/
structure State where
  before : List Char
  after : List Char
  groups : List (Nat × List Char) := []
  deriving DecidableEq

inductive Re where
  | empty
  /-- one character of a class -/
  | cls (p : Char → Bool)
  | seq (r s : Re)
  | alt (r s : Re)
  | opt (greedy : Bool) (r : Re)
  | star (greedy : Bool) (r : Re)
  | group (n : Nat) (r : Re)
  /-- a condition on what was read and on what is left -/
  | assert (p : List Char → List Char → Bool)
  /-- look-ahead for a match, and for none -/
  | look (r : Re)
  | notLook (r : Re)

section
variable {β : Type}

/-- Repetition of a matcher; a round that consumes nothing ends the loop. -/
def loop (greedy : Bool) (m : State → (State → Option β) → Option β) :
    Nat → State → (State → Option β) → Option β
  | 0, s, k => k s
  | n + 1, s, k =>
    let again := m s fun t => if t.after.length < s.after.length then loop greedy m n t k else none
    if greedy then again.or (k s) else (k s).or again

end

def Re.run : Re → {β : Type} → State → (State → Option β) → Option β
  | .empty, _, s, k => k s
  | .cls p, _, s, k =>
    match s.after with
    | [] => none
    | c :: rest => if p c then k { s with before := c :: s.before, after := rest } else none
  | .seq r r', _, s, k => r.run s fun t => r'.run t k
  | .alt r r', _, s, k => (r.run s k).or (r'.run s k)
  | .opt greedy r, _, s, k =>
    if greedy then (r.run s k).or (k s) else (k s).or (r.run s k)
  | .star greedy r, _, s, k => loop greedy r.run s.after.length s k
  | .group n r, _, s, k => r.run s fun t =>
    k { t with groups := (n, s.after.take (s.after.length - t.after.length)) :: t.groups }
  | .assert p, _, s, k => if p s.before s.after then k s else none
  | .look r, _, s, k => if (r.run s some).isSome then k s else none
  | .notLook r, _, s, k => if (r.run s some).isSome then none else k s

/-! ## Building patterns -/

namespace Re

/-- A sequence of patterns. -/
def cat : List Re → Re
  | [] => .empty
  | [r] => r
  | r :: rs => .seq r (cat rs)

/-- One of several patterns, in this order. -/
def any : List Re → Re
  | [] => .assert fun _ _ => false
  | [r] => r
  | r :: rs => .alt r (any rs)

/-- A literal text, each character as the dialect compares it. -/
def lit (same : Char → Char → Bool) (t : List Char) : Re := cat (t.map fun c => .cls (same c))

/-- At most `n` of `r`, as many as possible. -/
def upTo (r : Re) : Nat → Re
  | 0 => .empty
  | n + 1 => .opt true (.seq r (upTo r n))

/-- From `min` to `max` of `r`, as many as possible. -/
def rep (r : Re) (min max : Nat) : Re := .seq (cat (List.replicate min r)) (upTo r (max - min))

/-- One or more. -/
def plus (greedy : Bool) (r : Re) : Re := .seq r (.star greedy r)

end Re

/-! ## Searching -/

/-- The leftmost match from a place on: where it ended and what it captured. -/
def find (r : Re) (before : List Char) : List Char → Option State
  | [] => r.run ⟨before, [], []⟩ some
  | c :: rest => (r.run ⟨before, c :: rest, []⟩ some).or (find r (c :: before) rest)

/-- The successive matches from a place on, each from the end of the one before; the patterns
this is used for never match the empty text. -/
def findAllFrom (r : Re) : Nat → List Char → List Char → List State
  | 0, _, _ => []
  | n + 1, before, after =>
    match find r before after with
    | none => []
    | some s => s :: (if s.after.length < after.length then findAllFrom r n s.before s.after else [])

def findAll (r : Re) (t : List Char) : List State := findAllFrom r (t.length + 1) [] t

/-- Whether the pattern matches somewhere. -/
def test (r : Re) (t : List Char) : Bool := (find r [] t).isSome

/-- What group `n` captured, empty if it took no part. -/
def State.groupText (s : State) (n : Nat) : List Char := (s.groups.lookup n).getD []

/-! ## Rules of the matcher -/

section
variable {β : Type}

@[simp] theorem run_empty (s : State) (k : State → Option β) : Re.empty.run s k = k s := rfl

@[simp] theorem run_seq (r r' : Re) (s : State) (k : State → Option β) :
    (Re.seq r r').run s k = r.run s fun t => r'.run t k := rfl

@[simp] theorem run_cls_nil (p : Char → Bool) (before : List Char) (groups : List (Nat × List Char))
    (k : State → Option β) : (Re.cls p).run ⟨before, [], groups⟩ k = none := rfl

@[simp] theorem run_cls_cons (p : Char → Bool) (before : List Char) (c : Char) (rest : List Char)
    (groups : List (Nat × List Char)) (k : State → Option β) :
    (Re.cls p).run ⟨before, c :: rest, groups⟩ k =
      if p c then k ⟨c :: before, rest, groups⟩ else none := rfl

@[simp] theorem run_assert (p : List Char → List Char → Bool) (s : State)
    (k : State → Option β) :
    (Re.assert p).run s k = if p s.before s.after then k s else none := rfl

@[simp] theorem run_look (r : Re) (s : State) (k : State → Option β) :
    (Re.look r).run s k = if (r.run s some).isSome then k s else none := rfl

/-- A starred class as it runs over the text: the longest way first. -/
def takeGreedy (p : Char → Bool) (k : List Char → List Char → Option β) :
    List Char → List Char → Option β
  | before, [] => k before []
  | before, c :: rest =>
    if p c then (takeGreedy p k (c :: before) rest).or (k before (c :: rest))
    else k before (c :: rest)

/-- The same, the shortest way first. -/
def takeLazy (p : Char → Bool) (k : List Char → List Char → Option β) :
    List Char → List Char → Option β
  | before, [] => k before []
  | before, c :: rest =>
    (k before (c :: rest)).or (if p c then takeLazy p k (c :: before) rest else none)

theorem run_star_greedy (p : Char → Bool) (groups : List (Nat × List Char))
    (k : State → Option β) (after : List Char) : ∀ before,
    (Re.star true (Re.cls p)).run ⟨before, after, groups⟩ k =
      takeGreedy p (fun b a => k ⟨b, a, groups⟩) before after := by
  induction after with
  | nil => exact fun before => rfl
  | cons c rest ih =>
    intro before
    show ((Re.cls p).run ⟨before, c :: rest, groups⟩ _).or _ = _
    rw [run_cls_cons, takeGreedy]
    cases hp : p c with
    | false => rfl
    | true =>
      have h := ih (c :: before)
      change loop true _ rest.length _ k = _ at h
      simp only [if_true, List.length_cons, Nat.lt_succ_self, h]

theorem run_star_lazy (p : Char → Bool) (groups : List (Nat × List Char))
    (k : State → Option β) (after : List Char) : ∀ before,
    (Re.star false (Re.cls p)).run ⟨before, after, groups⟩ k =
      takeLazy p (fun b a => k ⟨b, a, groups⟩) before after := by
  induction after with
  | nil => exact fun before => rfl
  | cons c rest ih =>
    intro before
    show (k ⟨before, c :: rest, groups⟩).or ((Re.cls p).run ⟨before, c :: rest, groups⟩ _) = _
    rw [run_cls_cons, takeLazy]
    cases hp : p c with
    | false => rfl
    | true =>
      have h := ih (c :: before)
      change loop false _ rest.length _ k = _ at h
      simp only [if_true, List.length_cons, Nat.lt_succ_self, h]

/-- Where the continuation cannot start inside the class, a greedy run takes all of it. -/
theorem takeGreedy_skip (p : Char → Bool) (k : List Char → List Char → Option β)
    (after : List Char) : ∀ before,
    (∀ b c rest, p c → k b (c :: rest) = none) →
    takeGreedy p k before after =
      k ((after.takeWhile p).reverse ++ before) (after.dropWhile p) := by
  induction after with
  | nil => exact fun before _ => rfl
  | cons c rest ih =>
    intro before hk
    rw [takeGreedy, List.takeWhile_cons, List.dropWhile_cons]
    cases hp : p c with
    | false => rfl
    | true =>
      simp only [if_true]
      rw [ih (c :: before) hk, hk before c rest hp, Option.or_none]
      simp

end

end Regex
