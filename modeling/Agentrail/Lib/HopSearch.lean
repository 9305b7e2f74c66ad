import Agentrail.Py.Dict
import Mathlib.Algebra.Order.BigOperators.Group.Finset
import Mathlib.Data.Finset.Union

/-!
# Searching a graph by hops

`Walk R n a b` is a walk of `n` steps along `R`, `Within R S n` what is within `n` steps of
a set.  Two searches find what is within a number of steps:

* `levels` goes out level by level (`mem_levels`);
* `search` takes nodes from a queue, lowers the depths of their successors and queues those
  again.  Nothing is said about the order of the queue: when it is empty, the depths are the
  lengths of shortest walks (`search_spec`), and it gets empty, as each entry is paid for by
  a depth that went down (`cost`).
-/

namespace HopSearch

/-! ## Walks -/

section
variable {ν : Type} {R : ν → ν → Prop}

/-- A walk of `n` steps along `R`. -/
inductive Walk (R : ν → ν → Prop) : ℕ → ν → ν → Prop where
  | nil (a : ν) : Walk R 0 a a
  | snoc {n : ℕ} {a b c : ν} : Walk R n a b → R b c → Walk R (n + 1) a c

theorem Walk.cons {n : ℕ} {a b c : ν} (hab : R a b) (h : Walk R n b c) : Walk R (n + 1) a c := by
  induction h with
  | nil => exact .snoc (.nil a) hab
  | snoc _ hcd ih => exact .snoc (ih hab) hcd

/-- A walk the other way round. -/
theorem Walk.reverse {n : ℕ} {a b : ν} (h : Walk R n a b) : Walk (fun x y => R y x) n b a := by
  induction h with
  | nil a => exact .nil a
  | snoc _ hbc ih => exact .cons hbc ih

/-- Within `n` steps of a member of `S`. -/
def Within (R : ν → ν → Prop) (S : Set ν) (n : ℕ) (v : ν) : Prop :=
  ∃ m ≤ n, ∃ s ∈ S, Walk R m s v

variable {S : Set ν}

theorem within_zero {v : ν} : Within R S 0 v ↔ v ∈ S := by
  constructor
  · rintro ⟨m, hm, s, hs, hwalk⟩
    obtain rfl : m = 0 := by omega
    cases hwalk
    exact hs
  · intro hv
    exact ⟨0, Nat.le_refl _, v, hv, .nil v⟩

theorem within_succ {n : ℕ} {v : ν} :
    Within R S (n + 1) v ↔ Within R S n v ∨ ∃ u, Within R S n u ∧ R u v := by
  constructor
  · rintro ⟨m, hm, s, hs, hwalk⟩
    by_cases hle : m ≤ n
    · exact Or.inl ⟨m, hle, s, hs, hwalk⟩
    · obtain rfl : m = n + 1 := by omega
      cases hwalk with
      | snoc hbefore hstep => exact Or.inr ⟨_, ⟨n, Nat.le_refl _, s, hs, hbefore⟩, hstep⟩
  · rintro (⟨m, hm, s, hs, hwalk⟩ | ⟨u, ⟨m, hm, s, hs, hwalk⟩, hstep⟩)
    · exact ⟨m, by omega, s, hs, hwalk⟩
    · exact ⟨m + 1, by omega, s, hs, .snoc hwalk hstep⟩

/-- Where one more step reaches nothing new, no number of steps does. -/
theorem within_of_closed {i : ℕ} (h : ∀ u v, Within R S i u → R u v → Within R S i v) (j : ℕ)
    {v : ν} (hv : Within R S (i + j) v) : Within R S i v := by
  induction j generalizing v with
  | zero => exact hv
  | succ j ih =>
    rcases within_succ.mp hv with hv | ⟨u, hu, hstep⟩
    · exact ih hv
    · exact h u v (ih hu) hstep

end

/-! ## Level by level -/

section
variable {ν : Type} [DecidableEq ν] (next : ν → Finset ν) (starts : Finset ν)

/-- What a level reaches for the first time. -/
def nextLevel (visited frontier : Finset ν) : Finset ν :=
  (frontier.biUnion next).filter fun v => v ∉ visited ∧ v ∉ starts

/-- The nodes other than the starts that `n` more levels reach. -/
def levels : ℕ → Finset ν → Finset ν → Finset ν
  | 0, visited, _ => visited
  | n + 1, visited, frontier =>
    if nextLevel next starts visited frontier = ∅ then visited
    else levels n (visited ∪ nextLevel next starts visited frontier)
      (nextLevel next starts visited frontier)

/-- What holds after `i` levels. -/
structure Level (i : ℕ) (visited frontier : Finset ν) : Prop where
  seen : ∀ v, v ∈ visited ∨ v ∈ starts ↔ Within (fun a b => b ∈ next a) starts i v
  apart : ∀ v ∈ visited, v ∉ starts
  front : ∀ v ∈ frontier, Within (fun a b => b ∈ next a) starts i v
  inner : ∀ u v, Within (fun a b => b ∈ next a) starts i u → u ∉ frontier → v ∈ next u →
    Within (fun a b => b ∈ next a) starts i v

variable {next starts} {i : ℕ} {visited frontier : Finset ν}

theorem Level.mem_nextLevel (h : Level next starts i visited frontier) {v : ν} :
    v ∈ nextLevel next starts visited frontier ↔
      Within (fun a b => b ∈ next a) starts (i + 1) v ∧
        ¬ Within (fun a b => b ∈ next a) starts i v := by
  unfold nextLevel
  rw [Finset.mem_filter, Finset.mem_biUnion, ← not_or, h.seen]
  constructor
  · rintro ⟨⟨u, hu, hv⟩, hnew⟩
    exact ⟨within_succ.mpr (Or.inr ⟨u, h.front u hu, hv⟩), hnew⟩
  · rintro ⟨hv, hnew⟩
    obtain ⟨u, hu, huv⟩ := (within_succ.mp hv).resolve_left hnew
    refine ⟨⟨u, ?_, huv⟩, hnew⟩
    by_contra hout
    exact hnew (h.inner u v hu hout huv)

theorem Level.step (h : Level next starts i visited frontier) :
    Level next starts (i + 1) (visited ∪ nextLevel next starts visited frontier)
      (nextLevel next starts visited frontier) where
  seen v := by
    rw [Finset.mem_union, or_right_comm, h.seen, h.mem_nextLevel]
    constructor
    · rintro (hv | hv)
      · exact within_succ.mpr (Or.inl hv)
      · exact hv.1
    · intro hv
      by_cases hold : Within (fun a b => b ∈ next a) starts i v
      · exact Or.inl hold
      · exact Or.inr ⟨hv, hold⟩
  apart v hv := by
    rcases Finset.mem_union.mp hv with hv | hv
    · exact h.apart v hv
    · exact (Finset.mem_filter.mp hv).2.2
  front v hv := (h.mem_nextLevel.mp hv).1
  inner u v hu hout huv := by
    have hold : Within (fun a b => b ∈ next a) starts i u := by
      by_contra hnew
      exact hout (h.mem_nextLevel.mpr ⟨hu, hnew⟩)
    exact within_succ.mpr (Or.inr ⟨u, hold, huv⟩)

theorem Level.mem_levels (n : ℕ) (h : Level next starts i visited frontier) {v : ν} :
    v ∈ levels next starts n visited frontier ↔
      v ∉ starts ∧ Within (fun a b => b ∈ next a) starts (i + n) v := by
  have hvisited : ∀ {i visited frontier}, Level next starts i visited frontier →
      (v ∈ visited ↔ v ∉ starts ∧ Within (fun a b => b ∈ next a) starts i v) := by
    intro i visited frontier h
    rw [← h.seen]
    constructor
    · exact fun hv => ⟨h.apart v hv, Or.inl hv⟩
    · exact fun hv => hv.2.resolve_right hv.1
  induction n generalizing i visited frontier with
  | zero => exact hvisited h
  | succ n ih =>
    unfold levels
    by_cases hnone : nextLevel next starts visited frontier = ∅
    · have hclosed : ∀ u v, Within (fun a b => b ∈ next a) starts i u → v ∈ next u →
          Within (fun a b => b ∈ next a) starts i v := by
        intro u v hu huv
        by_contra hnew
        have hin := h.mem_nextLevel.mpr ⟨within_succ.mpr (Or.inr ⟨u, hu, huv⟩), hnew⟩
        rw [hnone] at hin
        exact Finset.notMem_empty _ hin
      rw [if_pos hnone, hvisited h, and_congr_right_iff]
      refine fun _ => ⟨?_, within_of_closed hclosed (n + 1)⟩
      rintro ⟨m, hm, hwalk⟩
      exact ⟨m, by omega, hwalk⟩
    · have hsame : i + 1 + n = i + (n + 1) := by omega
      rw [if_neg hnone, ← hsame]
      exact ih h.step

/-- **The levels are what is within as many steps**, but for the starts. -/
theorem mem_levels (n : ℕ) {v : ν} : v ∈ levels next starts n ∅ starts ↔
    v ∉ starts ∧ Within (fun a b => b ∈ next a) starts n v := by
  have hstart : Level next starts 0 ∅ starts :=
    { seen := fun v => by rw [within_zero]; simp
      apart := fun v hv => absurd hv (Finset.notMem_empty v)
      front := fun v hv => within_zero.mpr hv
      inner := fun u v hu hout _ => absurd (within_zero.mp hu) hout }
  rw [hstart.mem_levels n, Nat.zero_add]

end

/-! ## From a queue -/

section
variable {ν : Type} [DecidableEq ν]

/-- The depths found so far, and the queue. -/
abbrev State (ν : Type) := Py.Dict ν ℕ × List (ν × ℕ)

/-- Lower the depth of a node to `depth` and queue it, unless it is as low. -/
def relax (depth : ℕ) (s : State ν) (v : ν) : State ν :=
  if (s.1.get v).any (· ≤ depth) then s else (s.1.set v depth, s.2 ++ [(v, depth)])

section
variable (next : ν → List ν) (limit : ℕ)

/-- The loop over the queue; `none` where the fuel is used up. -/
def search : ℕ → State ν → Option (Py.Dict ν ℕ)
  | 0, _ => none
  | _ + 1, (best, []) => some best
  | fuel + 1, (best, (v, depth) :: queue) =>
    if limit ≤ depth then search fuel (best, queue)
    else search fuel ((next v).foldl (relax (depth + 1)) (best, queue))

end

/-- The starts, at depth 0. -/
def startState (starts : List ν) : State ν :=
  (Py.Dict.ofItems (starts.map fun s => (s, 0)), starts.map fun s => (s, 0))

/-- What lowering the depths of `targets` to `depth` does. -/
structure Relaxed (depth : ℕ) (targets : List ν) (s t : State ν) : Prop where
  lower : ∀ v k, s.1.get v = some k → ∃ m ≤ k, t.1.get v = some m
  low : ∀ v ∈ targets, ∃ m ≤ depth, t.1.get v = some m
  kept : ∀ e ∈ s.2, e ∈ t.2
  queued : ∀ v k, t.1.get v = some k → s.1.get v = some k ∨ (v, k) ∈ t.2
  fresh : ∀ v k, t.1.get v = some k → s.1.get v = some k ∨ (k = depth ∧ v ∈ targets)
  freshEntry : ∀ e ∈ t.2, e ∈ s.2 ∨ (e.2 = depth ∧ e.1 ∈ targets)

theorem Relaxed.refl (depth : ℕ) (s : State ν) : Relaxed depth [] s s where
  lower _ k h := ⟨k, Nat.le_refl _, h⟩
  low _ hv := absurd hv List.not_mem_nil
  kept _ he := he
  queued _ _ h := Or.inl h
  fresh _ _ h := Or.inl h
  freshEntry _ he := Or.inl he

theorem relaxed_relax (depth : ℕ) (s : State ν) (v : ν) :
    Relaxed depth [v] s (relax depth s v) := by
  unfold relax
  by_cases hlow : (s.1.get v).any (· ≤ depth)
  · rw [if_pos hlow]
    obtain ⟨m, hm, hle⟩ : ∃ m, s.1.get v = some m ∧ m ≤ depth := by
      cases hk : s.1.get v with
      | none => rw [hk] at hlow; cases hlow
      | some m => exact ⟨m, rfl, by rw [hk] at hlow; exact of_decide_eq_true hlow⟩
    exact { Relaxed.refl depth s with
      low := fun w hw => ⟨m, hle, List.mem_singleton.mp hw ▸ hm⟩
      fresh := fun w k h => Or.inl h
      freshEntry := fun e he => Or.inl he }
  · rw [if_neg hlow]
    have hget : ∀ w, (s.1.set v depth).get w = if v = w then some depth else s.1.get w :=
      fun w => Py.Dict.get_set s.1 v depth w
    constructor
    · intro w k hk
      rw [hget]
      by_cases he : v = w
      · subst he
        refine ⟨depth, ?_, if_pos rfl⟩
        rw [hk, Option.any_some, decide_eq_true_eq] at hlow
        omega
      · exact ⟨k, Nat.le_refl _, by rw [if_neg he, hk]⟩
    · intro w hw
      rw [List.mem_singleton.mp hw]
      exact ⟨depth, Nat.le_refl _, by rw [hget, if_pos rfl]⟩
    · exact fun e he => List.mem_append_left _ he
    · intro w k hk
      rw [hget] at hk
      by_cases he : v = w
      · subst he
        rw [if_pos rfl] at hk
        cases hk
        exact Or.inr (List.mem_append_right _ (List.mem_singleton_self _))
      · exact Or.inl (by rwa [if_neg he] at hk)
    · intro w k hk
      rw [hget] at hk
      by_cases he : v = w
      · subst he
        rw [if_pos rfl] at hk
        cases hk
        exact Or.inr ⟨rfl, List.mem_singleton_self _⟩
      · exact Or.inl (by rwa [if_neg he] at hk)
    · intro e he
      rcases List.mem_append.mp he with he | he
      · exact Or.inl he
      · rw [List.mem_singleton.mp he]
        exact Or.inr ⟨rfl, List.mem_singleton_self _⟩

theorem Relaxed.trans {depth : ℕ} {v : ν} {targets : List ν} {s t u : State ν}
    (h : Relaxed depth [v] s t) (h' : Relaxed depth targets t u) :
    Relaxed depth (v :: targets) s u where
  lower w k hk := by
    obtain ⟨m, hm, ht⟩ := h.lower w k hk
    obtain ⟨m', hm', hu⟩ := h'.lower w m ht
    exact ⟨m', hm'.trans hm, hu⟩
  low w hw := by
    rcases List.mem_cons.mp hw with rfl | hw
    · obtain ⟨m, hm, ht⟩ := h.low w (List.mem_singleton_self _)
      obtain ⟨m', hm', hu⟩ := h'.lower w m ht
      exact ⟨m', hm'.trans hm, hu⟩
    · exact h'.low w hw
  kept e he := h'.kept e (h.kept e he)
  queued w k hk := by
    rcases h'.queued w k hk with ht | hin
    · exact (h.queued w k ht).imp_right (h'.kept _)
    · exact Or.inr hin
  fresh w k hk := by
    rcases h'.fresh w k hk with ht | ⟨hd, hin⟩
    · exact (h.fresh w k ht).imp_right fun hnew =>
        ⟨hnew.1, List.mem_cons.mpr (Or.inl (List.mem_singleton.mp hnew.2))⟩
    · exact Or.inr ⟨hd, List.mem_cons_of_mem _ hin⟩
  freshEntry e he := by
    rcases h'.freshEntry e he with ht | ⟨hd, hin⟩
    · exact (h.freshEntry e ht).imp_right fun hnew =>
        ⟨hnew.1, List.mem_cons.mpr (Or.inl (List.mem_singleton.mp hnew.2))⟩
    · exact Or.inr ⟨hd, List.mem_cons_of_mem _ hin⟩

theorem relaxed_foldl (depth : ℕ) (targets : List ν) (s : State ν) :
    Relaxed depth targets s (targets.foldl (relax depth) s) := by
  induction targets generalizing s with
  | nil => exact .refl depth s
  | cons v targets ih => exact (relaxed_relax depth s v).trans (ih (relax depth s v))

/-! ### The search ends -/

/-- What is left to pay for: the entries of the queue, and the depths that may still go down. -/
def cost (limit : ℕ) (nodes : Finset ν) (s : State ν) : ℕ :=
  (nodes.sum fun v => (s.1.get v).getD (limit + 1)) + s.2.length

theorem cost_relax {limit depth : ℕ} (hdepth : depth ≤ limit) {nodes : Finset ν} {v : ν}
    (hv : v ∈ nodes) (s : State ν) : cost limit nodes (relax depth s v) ≤ cost limit nodes s := by
  unfold relax
  by_cases hlow : (s.1.get v).any (· ≤ depth)
  · rw [if_pos hlow]
  · rw [if_neg hlow]
    have hget : ∀ w, (s.1.set v depth).get w = if v = w then some depth else s.1.get w :=
      fun w => Py.Dict.get_set s.1 v depth w
    have hdown : (nodes.sum fun w => ((s.1.set v depth).get w).getD (limit + 1)) <
        nodes.sum fun w => (s.1.get w).getD (limit + 1) := by
      have hat : depth < (s.1.get v).getD (limit + 1) := by
        cases hk : s.1.get v with
        | none => exact Nat.lt_succ_of_le hdepth
        | some k =>
          rw [hk, Option.any_some, decide_eq_true_eq] at hlow
          exact Nat.lt_of_not_le hlow
      refine Finset.sum_lt_sum (fun w _ => ?_) ⟨v, hv, ?_⟩
      · rw [hget]
        by_cases he : v = w
        · subst he
          rw [if_pos rfl]
          exact Nat.le_of_lt hat
        · rw [if_neg he]
      · rw [hget, if_pos rfl]
        exact hat
    unfold cost
    rw [List.length_append, List.length_singleton]
    show (nodes.sum fun w => ((s.1.set v depth).get w).getD (limit + 1)) + (s.2.length + 1) ≤ _
    omega

theorem cost_foldl {limit depth : ℕ} (hdepth : depth ≤ limit) {nodes : Finset ν}
    (targets : List ν) (h : ∀ v ∈ targets, v ∈ nodes) (s : State ν) :
    cost limit nodes (targets.foldl (relax depth) s) ≤ cost limit nodes s := by
  induction targets generalizing s with
  | nil => exact Nat.le_refl _
  | cons v targets ih =>
    obtain ⟨hv, htargets⟩ := List.forall_mem_cons.mp h
    exact (ih htargets _).trans (cost_relax hdepth hv s)

/-! ### What the search finds -/

section
variable (next : ν → List ν) (limit : ℕ) (starts : List ν)

/-- The steps of the search. -/
def Next (a b : ν) : Prop := b ∈ next a

/-- What holds before every round. -/
structure Inv (s : State ν) : Prop where
  sound : ∀ v k, s.1.get v = some k → k ≤ limit ∧ ∃ a ∈ starts, Walk (Next next) k a v
  entries : ∀ e ∈ s.2, ∃ a ∈ starts, Walk (Next next) e.2 a e.1
  closed : ∀ v k, s.1.get v = some k → k < limit →
    (v, k) ∈ s.2 ∨ ∀ w ∈ next v, ∃ m ≤ k + 1, s.1.get w = some m
  start : ∀ a ∈ starts, s.1.get a = some 0

variable {next limit starts}

theorem inv_startState : Inv next limit starts (startState starts) := by
  have hzero : ∀ v k, (startState starts).1.get v = some k → k = 0 ∧ v ∈ starts := by
    intro v k hk
    obtain ⟨a, ha, he⟩ := List.mem_map.mp (Py.Dict.mem_of_get_ofItems _ v k hk)
    cases he
    exact ⟨rfl, ha⟩
  constructor
  · intro v k hk
    obtain ⟨rfl, hv⟩ := hzero v k hk
    exact ⟨Nat.zero_le _, v, hv, .nil v⟩
  · intro e he
    obtain ⟨a, ha, rfl⟩ := List.mem_map.mp he
    exact ⟨a, ha, .nil a⟩
  · intro v k hk _
    obtain ⟨rfl, hv⟩ := hzero v k hk
    exact Or.inl (List.mem_map_of_mem hv)
  · intro a ha
    have hkey : a ∈ (starts.map fun s => (s, 0)).map Prod.fst := by
      rw [List.map_map]
      exact List.mem_map.mpr ⟨a, ha, rfl⟩
    obtain ⟨k, hk⟩ := Py.Dict.exists_get_ofItems hkey
    show (Py.Dict.ofItems (starts.map fun s => (s, 0))).get a = some 0
    rw [hk, (hzero a k hk).1]

theorem Inv.skip {best : Py.Dict ν ℕ} {v : ν} {depth : ℕ} {queue : List (ν × ℕ)}
    (h : Inv next limit starts (best, (v, depth) :: queue)) (hdeep : limit ≤ depth) :
    Inv next limit starts (best, queue) where
  sound := h.sound
  entries e he := h.entries e (List.mem_cons_of_mem _ he)
  closed w k hk hlt := by
    refine (h.closed w k hk hlt).imp_left fun hin => ?_
    rcases List.mem_cons.mp hin with he | hin
    · cases he
      omega
    · exact hin
  start := h.start

/-- A round that lowers the depths of the successors. -/
theorem Inv.round {best : Py.Dict ν ℕ} {v : ν} {depth : ℕ} {queue : List (ν × ℕ)}
    (h : Inv next limit starts (best, (v, depth) :: queue)) (hlt : depth < limit) :
    Inv next limit starts ((next v).foldl (relax (depth + 1)) (best, queue)) := by
  have hrelaxed := relaxed_foldl (depth + 1) (next v) (best, queue)
  generalize (next v).foldl (relax (depth + 1)) (best, queue) = t at hrelaxed
  obtain ⟨a, ha, hwalk⟩ := h.entries (v, depth) List.mem_cons_self
  constructor
  · intro w k hk
    rcases hrelaxed.fresh w k hk with hold | ⟨rfl, hw⟩
    · exact h.sound w k hold
    · exact ⟨hlt, a, ha, .snoc hwalk hw⟩
  · intro e he
    rcases hrelaxed.freshEntry e he with hold | ⟨hd, hw⟩
    · exact h.entries e (List.mem_cons_of_mem _ hold)
    · rw [hd]
      exact ⟨a, ha, .snoc hwalk hw⟩
  · intro w k hk hklt
    rcases hrelaxed.queued w k hk with hold | hin
    · rcases h.closed w k hold hklt with hin | hclosed
      · rcases List.mem_cons.mp hin with he | hin
        · -- the entry taken in this round: its successors are as low as they have to be
          cases he
          exact Or.inr hrelaxed.low
        · exact Or.inl (hrelaxed.kept _ hin)
      · refine Or.inr fun x hx => ?_
        obtain ⟨m, hm, hbefore⟩ := hclosed x hx
        obtain ⟨m', hm', hafter⟩ := hrelaxed.lower x m hbefore
        exact ⟨m', hm'.trans hm, hafter⟩
    · exact Or.inl hin
  · intro b hb
    obtain ⟨m, hm, hafter⟩ := hrelaxed.lower b 0 (h.start b hb)
    rw [hafter, Nat.le_zero.mp hm]

/-- Nothing queued: every walk up to the limit is accounted for. -/
theorem Inv.le_of_walk {best : Py.Dict ν ℕ} (h : Inv next limit starts (best, [])) {n : ℕ}
    {a v : ν} (ha : a ∈ starts) (hwalk : Walk (Next next) n a v) (hn : n ≤ limit) :
    ∃ m ≤ n, best.get v = some m := by
  induction hwalk with
  | nil => exact ⟨0, Nat.le_refl _, h.start _ ha⟩
  | snoc _ hstep ih =>
    obtain ⟨m, hm, hb⟩ := ih ha (by omega)
    obtain hin | hclosed := h.closed _ m hb (by omega)
    · cases hin
    · obtain ⟨m', hm', hc⟩ := hclosed _ hstep
      exact ⟨m', by omega, hc⟩

/-- `k` is the length of a shortest walk from the starts. -/
def Distance (next : ν → List ν) (starts : List ν) (v : ν) (k : ℕ) : Prop :=
  (∃ a ∈ starts, Walk (Next next) k a v) ∧
    ∀ n, ∀ a ∈ starts, Walk (Next next) n a v → k ≤ n

omit [DecidableEq ν] in
/-- What a walk leads to is at some distance, and at no greater one. -/
theorem exists_distance_le {n : ℕ} {a v : ν} (ha : a ∈ starts) (hwalk : Walk (Next next) n a v) :
    ∃ k ≤ n, Distance next starts v k := by
  classical
  have hex : ∃ n, ∃ a ∈ starts, Walk (Next next) n a v := ⟨n, a, ha, hwalk⟩
  exact ⟨Nat.find hex, Nat.find_min' hex ⟨a, ha, hwalk⟩, Nat.find_spec hex,
    fun m b hb hm => Nat.find_min' hex ⟨b, hb, hm⟩⟩

theorem Inv.get_iff {best : Py.Dict ν ℕ} (h : Inv next limit starts (best, [])) (v : ν) (k : ℕ) :
    best.get v = some k ↔ k ≤ limit ∧ Distance next starts v k := by
  constructor
  · intro hk
    obtain ⟨hle, hwalk⟩ := h.sound v k hk
    refine ⟨hle, hwalk, fun n a ha hn => ?_⟩
    by_contra hlt
    obtain ⟨m, hm, hget⟩ := h.le_of_walk ha hn (by omega)
    have hsame : m = k := Option.some.inj (hget.symm.trans hk)
    omega
  · rintro ⟨hle, ⟨a, ha, hwalk⟩, hleast⟩
    obtain ⟨m, hm, hget⟩ := h.le_of_walk ha hwalk hle
    obtain ⟨b, hb, hwalk'⟩ := (h.sound v m hget).2
    rw [hget, Nat.le_antisymm hm (hleast m b hb hwalk')]

theorem Inv.search_spec {nodes : Finset ν} (hnodes : ∀ v, ∀ w ∈ next v, w ∈ nodes) (fuel : ℕ)
    (s : State ν) (h : Inv next limit starts s) (hfuel : cost limit nodes s < fuel) :
    ∃ best, search next limit fuel s = some best ∧ Inv next limit starts (best, []) := by
  induction fuel generalizing s with
  | zero => omega
  | succ fuel ih =>
    obtain ⟨best, queue⟩ := s
    cases queue with
    | nil => exact ⟨best, rfl, h⟩
    | cons e queue =>
      obtain ⟨v, depth⟩ := e
      have htail : cost limit nodes (best, queue) + 1 =
          cost limit nodes (best, (v, depth) :: queue) := rfl
      unfold search
      by_cases hdeep : limit ≤ depth
      · rw [if_pos hdeep]
        exact ih _ (h.skip hdeep) (by omega)
      · rw [if_neg hdeep]
        have hcost := cost_foldl (show depth + 1 ≤ limit by omega) (next v) (hnodes v)
          (best, queue)
        exact ih _ (h.round (by omega)) (by omega)

/-- **The search ends with the lengths of shortest walks**, up to the limit. -/
theorem search_spec {nodes : Finset ν} (hnodes : ∀ v, ∀ w ∈ next v, w ∈ nodes) {fuel : ℕ}
    (hfuel : nodes.card * (limit + 1) + starts.length < fuel) :
    ∃ best, search next limit fuel (startState starts) = some best ∧
      ∀ v k, best.get v = some k ↔ k ≤ limit ∧ Distance next starts v k := by
  have hstart : Inv next limit starts (startState starts) := inv_startState
  have hcost : cost limit nodes (startState starts) ≤
      nodes.card * (limit + 1) + starts.length := by
    have hsum : (nodes.sum fun v => ((startState starts).1.get v).getD (limit + 1)) ≤
        nodes.card * (limit + 1) := by
      refine Finset.sum_le_card_nsmul nodes _ (limit + 1) fun v _ => ?_
      cases hk : (startState starts).1.get v with
      | none => exact Nat.le_refl _
      | some k =>
        exact Nat.le_succ_of_le (hstart.sound v k hk).1
    have hqueue : (startState starts).2.length = starts.length := List.length_map _
    unfold cost
    omega
  obtain ⟨best, hrun, hinv⟩ := hstart.search_spec hnodes fuel _ (by omega)
  exact ⟨best, hrun, hinv.get_iff⟩

end

end

end HopSearch
