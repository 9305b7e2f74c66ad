import Agentrail.Lib.Regex
import Mathlib.Data.List.Forall2

/-!
# Rules for whole patterns

`run_ind` is the invariant rule of the matcher: what every consumed character and
every captured group keeps holds where the match ends.  `Agree` relates two patterns
of one shape whose classes and assertions agree on a set of characters; over such
text they run alike, and so do the searches built on them.  `run_lit`, `run_upTo`
and `takeLazy_until` say what a literal, a bounded repetition and a lazy run do.
`run_reads`: a pattern without groups reads only characters of its classes.
-/

namespace Regex

/-! ## Sequences and literals -/

/-- Whether the text starts with the literal, as the dialect compares characters. -/
def startsWith (same : Char → Char → Bool) : List Char → List Char → Bool
  | [], _ => true
  | _ :: _, [] => false
  | l :: t, c :: a => same l c && startsWith same t a

section
variable {same same' : Char → Char → Bool}

theorem startsWith_head (l : Char) (word t : List Char) (h : startsWith same (l :: word) t) :
    ∃ c, t.head? = some c ∧ same l c := by
  cases t with
  | nil => cases h
  | cons c t => exact ⟨c, rfl, (Bool.and_eq_true_iff.mp h).1⟩

theorem length_le_of_startsWith (word : List Char) : ∀ t, startsWith same word t →
    word.length ≤ t.length := by
  induction word with
  | nil => exact fun _ _ => Nat.zero_le _
  | cons l word ih =>
    intro t h
    cases t with
    | nil => cases h
    | cons c t => exact Nat.succ_le_succ (ih t (Bool.and_eq_true_iff.mp h).2)

theorem startsWith_of_isPrefixOf (hself : ∀ c, same c c = true) {word t : List Char}
    (h : word <+: t) : startsWith same word t := by
  induction word generalizing t with
  | nil => rfl
  | cons c word ih =>
    obtain ⟨t, rfl⟩ := h
    exact Bool.and_eq_true_iff.mpr ⟨hself c, ih (List.prefix_append word t)⟩

/-- The word reads alike where its characters do. -/
theorem startsWith_of (word : List Char) : ∀ t, startsWith same word t →
    (∀ c ∈ t.take word.length, ∀ l ∈ word, same l c → same' l c) →
    startsWith same' word t := by
  induction word with
  | nil => exact fun _ _ _ => rfl
  | cons l word ih =>
    intro t h hsame
    cases t with
    | nil => cases h
    | cons c t =>
      obtain ⟨hfirst, hrest⟩ := Bool.and_eq_true_iff.mp h
      rw [List.length_cons, List.take_succ_cons] at hsame
      obtain ⟨hc, ht⟩ := List.forall_mem_cons.mp hsame
      refine Bool.and_eq_true_iff.mpr ⟨hc l List.mem_cons_self hfirst, ih t hrest ?_⟩
      exact fun d hd l' hl' => ht d hd l' (List.mem_cons_of_mem _ hl')

theorem startsWith_last (l : Char) (word : List Char) :
    ∀ t, startsWith same (word ++ [l]) t →
      ∃ t' c, t.take (word ++ [l]).length = t' ++ [c] ∧ same l c := by
  induction word with
  | nil =>
    intro t h
    cases t with
    | nil => cases h
    | cons c t => exact ⟨[], c, rfl, (Bool.and_eq_true_iff.mp h).1⟩
  | cons l' word ih =>
    intro t h
    cases t with
    | nil => cases h
    | cons c t =>
      obtain ⟨t', x, ht, hx⟩ := ih t (Bool.and_eq_true_iff.mp h).2
      refine ⟨c :: t', x, ?_, hx⟩
      show c :: t.take (word ++ [l]).length = _
      rw [ht, List.cons_append]

end

section
variable {β : Type}

theorem run_cat_cons (r : Re) (rs : List Re) (s : State) (k : State → Option β) :
    (Re.cat (r :: rs)).run s k = r.run s fun t => (Re.cat rs).run t k := by
  cases rs <;> rfl

theorem run_cat_append (rs rs' : List Re) : ∀ (s : State) (k : State → Option β),
    (Re.cat (rs ++ rs')).run s k = (Re.cat rs).run s fun t => (Re.cat rs').run t k := by
  induction rs with
  | nil => exact fun _ _ => rfl
  | cons r rs ih =>
    intro s k
    rw [List.cons_append, run_cat_cons, run_cat_cons]
    exact congrArg (r.run s) (funext fun t => ih t k)

theorem run_lit (same : Char → Char → Bool) (t : List Char) :
    ∀ (before after : List Char) (groups : List (Nat × List Char)) (k : State → Option β),
    (Re.lit same t).run ⟨before, after, groups⟩ k =
      if startsWith same t after then
        k ⟨(after.take t.length).reverse ++ before, after.drop t.length, groups⟩
      else none := by
  induction t with
  | nil => exact fun before after groups k => rfl
  | cons l t ih =>
    intro before after groups k
    have hcons : Re.lit same (l :: t) = Re.cat (.cls (same l) :: t.map fun c => .cls (same c)) := rfl
    rw [hcons, run_cat_cons]
    cases after with
    | nil => rfl
    | cons c a =>
      rw [run_cls_cons, startsWith]
      cases hc : same l c with
      | false => rfl
      | true =>
        have hrest := ih (c :: before) a groups k
        unfold Re.lit at hrest
        simp only [if_true, Bool.true_and, hrest, List.length_cons, List.take_succ_cons,
          List.drop_succ_cons, List.reverse_cons, List.append_assoc, List.singleton_append]

/-- Where the continuation cannot start inside the class, up to `n` characters are all of them. -/
theorem run_upTo (p : Char → Bool) (groups : List (Nat × List Char)) (k : State → Option β)
    (hk : ∀ before c rest, p c → k ⟨before, c :: rest, groups⟩ = none) (n : Nat) :
    ∀ before after : List Char,
    (Re.upTo (.cls p) n).run ⟨before, after, groups⟩ k =
      if (after.takeWhile p).length ≤ n then
        k ⟨(after.takeWhile p).reverse ++ before, after.dropWhile p, groups⟩
      else none := by
  induction n with
  | zero =>
    intro before after
    show k ⟨before, after, groups⟩ = _
    cases after with
    | nil => rfl
    | cons c rest =>
      rw [List.takeWhile_cons, List.dropWhile_cons]
      cases hp : p c with
      | false => rfl
      | true => exact hk before c rest hp
  | succ n ih =>
    intro before after
    show ((Re.cls p).run ⟨before, after, groups⟩ fun t => (Re.upTo (.cls p) n).run t k).or
      (k ⟨before, after, groups⟩) = _
    cases after with
    | nil => rfl
    | cons c rest =>
      rw [run_cls_cons, List.takeWhile_cons, List.dropWhile_cons]
      cases hp : p c with
      | false => rfl
      | true =>
        simp only [if_true]
        rw [ih (c :: before) rest, hk before c rest hp, Option.or_none]
        simp

/-- A lazy run goes to the first `stop`, where the continuation is known to succeed. -/
theorem takeLazy_until (p : Char → Bool) (stop : Char)
    (k : List Char → List Char → Option β) (hk : ∀ before rest, (k (stop :: before) rest).isSome)
    (k' : List Char → List Char → Option β) (hnil : ∀ before, k' before [] = none)
    (hcons : ∀ before c rest, k' before (c :: rest) =
      if c = stop then k (c :: before) rest else none) (after : List Char) :
    ∀ before : List Char, takeLazy p k' before after =
      if (after.takeWhile (· ≠ stop)).all p then
        match after.dropWhile (· ≠ stop) with
        | [] => none
        | _ :: rest => k (stop :: ((after.takeWhile (· ≠ stop)).reverse ++ before)) rest
      else none := by
  induction after with
  | nil =>
    intro before
    exact hnil before
  | cons c rest ih =>
    intro before
    rw [takeLazy, hcons, List.takeWhile_cons, List.dropWhile_cons]
    by_cases hc : c = stop
    · subst hc
      obtain ⟨x, hx⟩ := Option.isSome_iff_exists.mp (hk before rest)
      rw [if_pos rfl, hx, Option.some_or]
      simp [hx]
    · rw [if_neg hc]
      have hd : decide (c ≠ stop) = true := by simpa using hc
      simp only [hd, if_true, List.all_cons]
      cases hp : p c with
      | false => simp
      | true =>
        rw [if_pos rfl, ih (c :: before), Option.none_or]
        simp

end

/-! ## Runs of a class -/

theorem dropWhile_same {p q : Char → Bool} (t : List Char) (h : ∀ c ∈ t, p c = q c) :
    t.dropWhile p = t.dropWhile q := by
  induction t with
  | nil => rfl
  | cons c t ih =>
    obtain ⟨hc, ht⟩ := List.forall_mem_cons.mp h
    rw [List.dropWhile_cons, List.dropWhile_cons, hc, ih ht]

theorem takeWhile_wider {p q : Char → Bool} (hle : ∀ c, p c → q c) (t : List Char)
    (hend : ∀ c, (t.dropWhile p).head? = some c → q c = false) :
    t.takeWhile q = t.takeWhile p ∧ t.dropWhile q = t.dropWhile p := by
  induction t with
  | nil => exact ⟨rfl, rfl⟩
  | cons c t ih =>
    rw [List.dropWhile_cons] at hend
    rw [List.takeWhile_cons, List.takeWhile_cons, List.dropWhile_cons, List.dropWhile_cons]
    by_cases hp : p c
    · rw [if_pos hp] at hend
      obtain ⟨htake, hdrop⟩ := ih hend
      rw [if_pos hp, if_pos hp, if_pos (hle c hp), if_pos (hle c hp), htake, hdrop]
      exact ⟨rfl, rfl⟩
    · rw [if_neg hp] at hend
      have hq : q c = false := hend c rfl
      simp [hp, hq]

theorem takeWhile_narrower {p q : Char → Bool} (hle : ∀ c, p c → q c) (t : List Char)
    (hall : ∀ c ∈ t.takeWhile q, p c) :
    t.takeWhile p = t.takeWhile q ∧ t.dropWhile p = t.dropWhile q := by
  induction t with
  | nil => exact ⟨rfl, rfl⟩
  | cons c t ih =>
    rw [List.takeWhile_cons] at hall
    rw [List.takeWhile_cons, List.takeWhile_cons, List.dropWhile_cons, List.dropWhile_cons]
    by_cases hq : q c
    · rw [if_pos hq] at hall
      obtain ⟨hp, hrest⟩ := List.forall_mem_cons.mp hall
      obtain ⟨htake, hdrop⟩ := ih hrest
      rw [if_pos hq, if_pos hq, if_pos hp, if_pos hp, htake, hdrop]
      exact ⟨rfl, rfl⟩
    · have hp : ¬ p c := fun hp => hq (hle c hp)
      simp [hp, hq]

/-! ## Invariants of a run -/

/-- What is found on one of two ways, whichever is tried first. -/
theorem choice_some {β : Type} (greedy : Bool) {a b : Option β} {x : β}
    (h : (if greedy then a.or b else b.or a) = some x) : a = some x ∨ b = some x := by
  cases greedy with
  | true =>
    rcases Option.or_eq_some_iff.mp h with h | ⟨_, h⟩
    · exact Or.inl h
    · exact Or.inr h
  | false =>
    rcases Option.or_eq_some_iff.mp h with h | ⟨_, h⟩
    · exact Or.inr h
    · exact Or.inl h

theorem loop_ind {β : Type} (P : State → Prop) (greedy : Bool)
    (m : State → (State → Option β) → Option β) (k : State → Option β) (x : β)
    (hm : ∀ s k', P s → m s k' = some x → ∃ t, P t ∧ k' t = some x) (n : Nat) :
    ∀ s, P s → loop greedy m n s k = some x → ∃ t, P t ∧ k t = some x := by
  induction n with
  | zero => exact fun s hs hx => ⟨s, hs, hx⟩
  | succ n ih =>
    intro s hs hx
    rcases choice_some greedy hx with hround | hx
    · obtain ⟨t, ht, hagain⟩ := hm s _ hs hround
      split at hagain
      · exact ih t ht hagain
      · cases hagain
    · exact ⟨s, hs, hx⟩

section
variable {β : Type} (P : State → Prop)
  (hread : ∀ before c rest groups, P ⟨before, c :: rest, groups⟩ → P ⟨c :: before, rest, groups⟩)
  (hgroup : ∀ s t n, P s → P t →
    P { t with groups := (n, s.after.take (s.after.length - t.after.length)) :: t.groups })
include hread hgroup

/-- The invariant rule: a match ends in a state that has every property which reading a
character and closing a group keep. -/
theorem run_ind (r : Re) : ∀ {β : Type} (s : State) (k : State → Option β) (x : β),
    P s → r.run s k = some x → ∃ t, P t ∧ k t = some x := by
  induction r with
  | empty => exact fun s k x hs hx => ⟨s, hs, hx⟩
  | cls p =>
    intro β s k x hs hx
    obtain ⟨before, after, groups⟩ := s
    cases after with
    | nil => cases hx
    | cons c rest =>
      rw [run_cls_cons] at hx
      cases hp : p c with
      | false => rw [hp] at hx; cases hx
      | true =>
        rw [hp] at hx
        exact ⟨_, hread before c rest groups hs, hx⟩
  | seq r r' ih ih' =>
    intro β s k x hs hx
    obtain ⟨t, ht, hrest⟩ := ih s _ x hs hx
    exact ih' t k x ht hrest
  | alt r r' ih ih' =>
    intro β s k x hs hx
    rcases choice_some true hx with hx | hx
    · exact ih s k x hs hx
    · exact ih' s k x hs hx
  | opt greedy r ih =>
    intro β s k x hs hx
    rcases choice_some greedy hx with hx | hx
    · exact ih s k x hs hx
    · exact ⟨s, hs, hx⟩
  | star greedy r ih =>
    intro β s k x hs hx
    exact loop_ind P greedy r.run k x (fun s k' => ih s k' x) s.after.length s hs hx
  | group n r ih =>
    intro β s k x hs hx
    obtain ⟨t, ht, hclosed⟩ := ih s _ x hs hx
    exact ⟨_, hgroup s t n hs ht, hclosed⟩
  | assert p =>
    intro β s k x hs hx
    rw [run_assert] at hx
    split at hx
    · exact ⟨s, hs, hx⟩
    · cases hx
  | look r ih =>
    intro β s k x hs hx
    rw [run_look] at hx
    split at hx
    · exact ⟨s, hs, hx⟩
    · cases hx
  | notLook r ih =>
    intro β s k x hs hx
    change (if (r.run s some).isSome then none else k s) = some x at hx
    split at hx
    · cases hx
    · exact ⟨s, hs, hx⟩

theorem find_ind (r : Re) (after : List Char) : ∀ (before : List Char) (x : State),
    P ⟨before, after, []⟩ → find r before after = some x → P x := by
  have hrun : ∀ s x, P s → r.run s some = some x → P x := by
    intro s x hs hx
    obtain ⟨t, ht, he⟩ := run_ind P hread hgroup r s some x hs hx
    exact Option.some.inj he ▸ ht
  induction after with
  | nil => exact fun before x hs hx => hrun _ x hs hx
  | cons c rest ih =>
    intro before x hs hx
    rcases Option.or_eq_some_iff.mp hx with hx | ⟨_, hx⟩
    · exact hrun _ x hs hx
    · exact ih (c :: before) x (hread before c rest [] hs) hx

end

/-! ## Patterns that agree -/

/-- Two patterns of one shape whose classes and assertions agree on the characters of `P`. -/
inductive Agree (P : Char → Prop) : Re → Re → Prop
  | empty : Agree P .empty .empty
  | cls (p p' : Char → Bool) : (∀ c, P c → p c = p' c) → Agree P (.cls p) (.cls p')
  | seq {r r' s s'} : Agree P r r' → Agree P s s' → Agree P (.seq r s) (.seq r' s')
  | alt {r r' s s'} : Agree P r r' → Agree P s s' → Agree P (.alt r s) (.alt r' s')
  | opt {r r'} (greedy : Bool) : Agree P r r' → Agree P (.opt greedy r) (.opt greedy r')
  | star {r r'} (greedy : Bool) : Agree P r r' → Agree P (.star greedy r) (.star greedy r')
  | group {r r'} (n : Nat) : Agree P r r' → Agree P (.group n r) (.group n r')
  | assert (p p' : List Char → List Char → Bool) : (∀ before after, (∀ c ∈ before, P c) →
      (∀ c ∈ after, P c) → p before after = p' before after) → Agree P (.assert p) (.assert p')
  | look {r r'} : Agree P r r' → Agree P (.look r) (.look r')
  | notLook {r r'} : Agree P r r' → Agree P (.notLook r) (.notLook r')

/-- The text around a place and the captured groups hold only characters of `P`. -/
structure Over (P : Char → Prop) (s : State) : Prop where
  before : ∀ c ∈ s.before, P c
  after : ∀ c ∈ s.after, P c
  groups : ∀ g ∈ s.groups, ∀ c ∈ g.2, P c

section
variable {P : Char → Prop}

theorem Over.read (before : List Char) (c : Char) (rest : List Char)
    (groups : List (Nat × List Char)) (h : Over P ⟨before, c :: rest, groups⟩) :
    Over P ⟨c :: before, rest, groups⟩ :=
  ⟨List.forall_mem_cons.mpr ⟨h.after c List.mem_cons_self, h.before⟩,
    fun d hd => h.after d (List.mem_cons_of_mem _ hd), h.groups⟩

theorem Over.group (s t : State) (n : Nat) (hs : Over P s) (ht : Over P t) :
    Over P { t with groups := (n, s.after.take (s.after.length - t.after.length)) :: t.groups } :=
  ⟨ht.before, ht.after, List.forall_mem_cons.mpr
    ⟨fun c hc => hs.after c (List.mem_of_mem_take hc), ht.groups⟩⟩

theorem Over.groupText {s : State} (h : Over P s) (n : Nat) : ∀ c ∈ s.groupText n, P c := by
  intro c hc
  unfold State.groupText at hc
  cases hl : s.groups.lookup n with
  | none => rw [hl] at hc; cases hc
  | some t =>
    rw [hl] at hc
    obtain ⟨g, g', hg, _⟩ := List.lookup_eq_some_iff.mp hl
    exact h.groups (n, t) (hg ▸ List.mem_append_right g List.mem_cons_self) c hc

theorem loop_congr {β : Type} (Q : State → Prop) (greedy : Bool)
    (m m' : State → (State → Option β) → Option β) (k k' : State → Option β)
    (hm : ∀ s h h', Q s → (∀ t, Q t → h t = h' t) → m s h = m' s h') (hk : ∀ t, Q t → k t = k' t)
    (n : Nat) : ∀ s, Q s → loop greedy m n s k = loop greedy m' n s k' := by
  induction n with
  | zero => exact hk
  | succ n ih =>
    intro s hs
    have hround := hm s
      (fun t => if t.after.length < s.after.length then loop greedy m n t k else none)
      (fun t => if t.after.length < s.after.length then loop greedy m' n t k' else none)
      hs fun t ht => by rw [ih t ht]
    rw [loop, loop, hround, hk s hs]

/-- Patterns that agree run alike over such text. -/
theorem Agree.run {r r' : Re} (h : Agree P r r') : ∀ {β : Type} (s : State)
    (k k' : State → Option β), Over P s → (∀ t, Over P t → k t = k' t) →
    r.run s k = r'.run s k' := by
  induction h with
  | empty => exact fun s k k' hs hk => hk s hs
  | cls p p' hp =>
    intro β s k k' hs hk
    obtain ⟨before, after, groups⟩ := s
    cases after with
    | nil => rfl
    | cons c rest =>
      rw [run_cls_cons, run_cls_cons, hp c (hs.after c List.mem_cons_self),
        hk _ (Over.read before c rest groups hs)]
  | seq _ _ ih ih' =>
    exact fun s k k' hs hk => ih s _ _ hs fun t ht => ih' t k k' ht hk
  | alt _ _ ih ih' =>
    intro β s k k' hs hk
    exact congrArg₂ Option.or (ih s k k' hs hk) (ih' s k k' hs hk)
  | @opt r r' greedy _ ih =>
    intro β s k k' hs hk
    show (if greedy then (r.run s k).or (k s) else (k s).or (r.run s k)) =
      if greedy then (r'.run s k').or (k' s) else (k' s).or (r'.run s k')
    rw [ih s k k' hs hk, hk s hs]
  | star greedy _ ih =>
    intro β s k k' hs hk
    exact loop_congr (Over P) greedy _ _ k k' ih hk s.after.length s hs
  | group n _ ih =>
    exact fun s k k' hs hk => ih s _ _ hs fun t ht => hk _ (Over.group s t n hs ht)
  | assert p p' hp =>
    intro β s k k' hs hk
    rw [run_assert, run_assert, hp s.before s.after hs.before hs.after, hk s hs]
  | look _ ih =>
    intro β s k k' hs hk
    rw [run_look, run_look, ih s some some hs fun _ _ => rfl, hk s hs]
  | @notLook r r' _ ih =>
    intro β s k k' hs hk
    show (if (r.run s some).isSome then none else k s) =
      if (r'.run s some).isSome then none else k' s
    rw [ih s some some hs fun _ _ => rfl, hk s hs]

theorem Agree.find {r r' : Re} (h : Agree P r r') (after : List Char) :
    ∀ before : List Char, (∀ c ∈ before, P c) → (∀ c ∈ after, P c) →
    find r before after = find r' before after := by
  have hrun : ∀ s, Over P s → r.run s some = r'.run s some := fun s hs =>
    h.run s some some hs fun _ _ => rfl
  have hplace : ∀ before after, (∀ c ∈ before, P c) → (∀ c ∈ after, P c) →
      Over P ⟨before, after, []⟩ := fun before after hb ha =>
    ⟨hb, ha, fun _ hg => absurd hg List.not_mem_nil⟩
  induction after with
  | nil => exact fun before hb ha => hrun _ (hplace before [] hb ha)
  | cons c rest ih =>
    intro before hb ha
    have hafter := List.forall_mem_cons.mp ha
    exact congrArg₂ Option.or (hrun _ (hplace before (c :: rest) hb ha))
      (ih (c :: before) (List.forall_mem_cons.mpr ⟨hafter.1, hb⟩) hafter.2)

theorem find_over {r : Re} (before after : List Char) (x : State) (hb : ∀ c ∈ before, P c)
    (ha : ∀ c ∈ after, P c) (hx : find r before after = some x) : Over P x :=
  find_ind (Over P) Over.read Over.group r after before x
    ⟨hb, ha, fun _ hg => absurd hg List.not_mem_nil⟩ hx

theorem Agree.findAll {r r' : Re} (h : Agree P r r') (t : List Char) (ht : ∀ c ∈ t, P c) :
    findAll r t = findAll r' t ∧ ∀ x ∈ findAll r t, Over P x := by
  have hfrom : ∀ (n : Nat) (before after : List Char), (∀ c ∈ before, P c) →
      (∀ c ∈ after, P c) → findAllFrom r n before after = findAllFrom r' n before after ∧
        ∀ x ∈ findAllFrom r n before after, Over P x := by
    intro n
    induction n with
    | zero => exact fun _ _ _ _ => ⟨rfl, fun x hx => absurd hx List.not_mem_nil⟩
    | succ n ih =>
      intro before after hb ha
      rw [findAllFrom, findAllFrom, h.find after before hb ha]
      cases hfound : Regex.find r' before after with
      | none => exact ⟨rfl, fun x hx => absurd hx List.not_mem_nil⟩
      | some s =>
        have hs := find_over before after s hb ha hfound
        obtain ⟨heq, hall⟩ := ih s.before s.after hs.before hs.after
        by_cases hlt : s.after.length < after.length
        · dsimp only
          rw [if_pos hlt, if_pos hlt]
          exact ⟨congrArg (s :: ·) heq, List.forall_mem_cons.mpr ⟨hs, hall⟩⟩
        · dsimp only
          rw [if_neg hlt, if_neg hlt]
          exact ⟨rfl, fun x hx => List.mem_singleton.mp hx ▸ hs⟩
  exact hfrom _ [] t (fun c hc => absurd hc List.not_mem_nil) ht

/-! ## Agreement of the pattern pieces -/

theorem Agree.refl (r : Re) : Agree P r r := by
  induction r with
  | empty => exact .empty
  | cls p => exact .cls p p fun _ _ => rfl
  | seq _ _ ih ih' => exact .seq ih ih'
  | alt _ _ ih ih' => exact .alt ih ih'
  | opt greedy _ ih => exact .opt greedy ih
  | star greedy _ ih => exact .star greedy ih
  | group n _ ih => exact .group n ih
  | assert p => exact .assert p p fun _ _ _ _ => rfl
  | look _ ih => exact .look ih
  | notLook _ ih => exact .notLook ih

theorem Agree.plus {r r' : Re} (greedy : Bool) (h : Agree P r r') :
    Agree P (.plus greedy r) (.plus greedy r') := .seq h (.star greedy h)

theorem Agree.cat {rs rs' : List Re} (h : List.Forall₂ (Agree P) rs rs') :
    Agree P (.cat rs) (.cat rs') := by
  induction h with
  | nil => exact .empty
  | @cons r r' rs rs' hr hrs ih =>
    cases hrs with
    | nil => exact hr
    | cons hnext hrest => exact .seq hr ih

end

/-! ## What a pattern reads -/

/-- The pattern captures nothing and all its classes are inside `q`. -/
def Re.Reads (q : Char → Prop) : Re → Prop
  | .empty => True
  | .cls p => ∀ c, p c = true → q c
  | .seq r s => r.Reads q ∧ s.Reads q
  | .alt r s => r.Reads q ∧ s.Reads q
  | .opt _ r => r.Reads q
  | .star _ r => r.Reads q
  | .group _ _ => False
  | .assert _ => True
  | .look _ => True
  | .notLook _ => True

/-- The state `t` is reached from `s` over characters of `q`, with nothing captured. -/
def Read (q : Char → Prop) (s t : State) : Prop :=
  t.groups = s.groups ∧ ∃ w, s.after = w ++ t.after ∧ ∀ c ∈ w, q c

section
variable {q : Char → Prop}

theorem Read.refl (s : State) : Read q s s := ⟨rfl, [], rfl, by simp⟩

theorem Read.trans {s t u : State} (h : Read q s t) (h' : Read q t u) : Read q s u := by
  obtain ⟨hg, w, hw, hq⟩ := h
  obtain ⟨hg', w', hw', hq'⟩ := h'
  refine ⟨hg'.trans hg, w ++ w', by rw [hw, hw', List.append_assoc], fun c hc => ?_⟩
  rcases List.mem_append.mp hc with hc | hc
  · exact hq c hc
  · exact hq' c hc

/-- A pattern that reads only `q` gets from the start to where it ends over `q`. -/
theorem run_reads (r : Re) : r.Reads q → ∀ {β : Type} (s : State) (k : State → Option β) (x : β),
    r.run s k = some x → ∃ t, Read q s t ∧ k t = some x := by
  induction r with
  | empty => exact fun _ β s k x hx => ⟨s, Read.refl s, hx⟩
  | cls p =>
    intro hp β s k x hx
    obtain ⟨before, after, groups⟩ := s
    cases after with
    | nil => cases hx
    | cons c rest =>
      rw [run_cls_cons] at hx
      split at hx
      · next hc =>
        refine ⟨⟨c :: before, rest, groups⟩, ⟨rfl, [c], rfl, ?_⟩, hx⟩
        simpa using hp c hc
      · cases hx
  | seq r r' ih ih' =>
    intro hp β s k x hx
    obtain ⟨t, hst, hrest⟩ := ih hp.1 s _ x hx
    obtain ⟨u, htu, hu⟩ := ih' hp.2 t k x hrest
    exact ⟨u, hst.trans htu, hu⟩
  | alt r r' ih ih' =>
    intro hp β s k x hx
    rcases choice_some true hx with hx | hx
    · exact ih hp.1 s k x hx
    · exact ih' hp.2 s k x hx
  | opt greedy r ih =>
    intro hp β s k x hx
    rcases choice_some greedy hx with hx | hx
    · exact ih hp s k x hx
    · exact ⟨s, Read.refl s, hx⟩
  | star greedy r ih =>
    intro hp β s k x hx
    refine loop_ind (Read q s) greedy r.run k x ?_ s.after.length s (Read.refl s) hx
    intro t k' ht hround
    obtain ⟨u, htu, hu⟩ := ih hp t k' x hround
    exact ⟨u, ht.trans htu, hu⟩
  | group n r ih => exact fun hp => hp.elim
  | assert p =>
    intro _ β s k x hx
    rw [run_assert] at hx
    split at hx
    · exact ⟨s, Read.refl s, hx⟩
    · cases hx
  | look r ih =>
    intro _ β s k x hx
    rw [run_look] at hx
    split at hx
    · exact ⟨s, Read.refl s, hx⟩
    · cases hx
  | notLook r ih =>
    intro _ β s k x hx
    change (if (r.run s some).isSome then none else k s) = some x at hx
    split at hx
    · cases hx
    · exact ⟨s, Read.refl s, hx⟩

end

/-- A greedy run over a maximal stretch of the class succeeds where its continuation does. -/
theorem takeGreedy_some {β : Type} (p : Char → Bool) (k : List Char → List Char → Option β) (x : β)
    (after : List Char) (hafter : ∀ c, after.head? = some c → p c = false) (w : List Char) :
    ∀ before, (∀ c ∈ w, p c = true) → k (w.reverse ++ before) after = some x →
      takeGreedy p k before (w ++ after) = some x := by
  induction w with
  | nil =>
    intro before _ hk
    cases after with
    | nil => exact hk
    | cons c rest =>
      rw [List.nil_append, takeGreedy, hafter c rfl]
      exact hk
  | cons c w ih =>
    intro before hw hk
    have hrest := ih (c :: before) (fun d hd => hw d (List.mem_cons_of_mem c hd)) (by simpa using hk)
    rw [List.cons_append, takeGreedy, hw c List.mem_cons_self, hrest]
    rfl

end Regex
