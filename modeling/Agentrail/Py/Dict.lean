import Mathlib.Data.List.Induction
import Mathlib.Data.List.Nodup

/-!
# Python's `dict`

A dict is the list of its items in the order in which their keys were first set,
together with a proof that no key occurs twice.  Setting a key that is there keeps
its place.
-/

namespace Py

section
variable {κ ν μ : Type} [DecidableEq κ]

/-! ## Items -/

/-- `d.get(k)` on the items of `d`. -/
def getItem (k : κ) : List (κ × ν) → Option ν
  | [] => none
  | item :: items => if item.1 = k then some item.2 else getItem k items

/-- `d[k] = v` on the items of `d`. -/
def setItem (k : κ) (v : ν) : List (κ × ν) → List (κ × ν)
  | [] => [(k, v)]
  | item :: items => if item.1 = k then (k, v) :: items else item :: setItem k v items

/-- `dict(items)`: later items win. -/
def dictItems (items : List (κ × ν)) : List (κ × ν) :=
  items.foldl (fun d item => setItem item.1 item.2 d) []

theorem keys_setItem (k : κ) (v : ν) (items : List (κ × ν)) :
    (setItem k v items).map Prod.fst =
      if k ∈ items.map Prod.fst then items.map Prod.fst else items.map Prod.fst ++ [k] := by
  induction items with
  | nil => rfl
  | cons item items ih =>
    unfold setItem
    by_cases hk : item.1 = k
    · rw [if_pos hk, if_pos (by simp [hk])]
      simp [hk]
    · rw [if_neg hk, List.map_cons, ih]
      have hmem : k ∈ (item :: items).map Prod.fst ↔ k ∈ items.map Prod.fst := by
        rw [List.map_cons, List.mem_cons]
        exact ⟨fun h => h.resolve_left fun he => hk he.symm, Or.inr⟩
      by_cases hin : k ∈ items.map Prod.fst
      · rw [if_pos hin, if_pos (hmem.mpr hin), List.map_cons]
      · rw [if_neg hin, if_neg fun h => hin (hmem.mp h), List.map_cons, List.cons_append]

theorem nodup_setItem (k : κ) (v : ν) (items : List (κ × ν)) (h : (items.map Prod.fst).Nodup) :
    ((setItem k v items).map Prod.fst).Nodup := by
  rw [keys_setItem]
  by_cases hin : k ∈ items.map Prod.fst
  · rw [if_pos hin]
    exact h
  · rw [if_neg hin]
    exact List.nodup_append_comm.mp (List.nodup_cons.mpr ⟨hin, h⟩)

/-- A new key goes to the end. -/
theorem setItem_new (k : κ) (v : ν) (items : List (κ × ν)) (h : k ∉ items.map Prod.fst) :
    setItem k v items = items ++ [(k, v)] := by
  induction items with
  | nil => rfl
  | cons item items ih =>
    rw [List.map_cons, List.mem_cons, not_or] at h
    unfold setItem
    rw [if_neg fun he => h.1 he.symm, ih h.2, List.cons_append]

theorem foldl_setItem (items d : List (κ × ν)) (h : ((d ++ items).map Prod.fst).Nodup) :
    items.foldl (fun d item => setItem item.1 item.2 d) d = d ++ items := by
  induction items generalizing d with
  | nil => exact (List.append_nil d).symm
  | cons item items ih =>
    have hsplit : d ++ item :: items = (d ++ [item]) ++ items := by simp
    have hnew : item.1 ∉ d.map Prod.fst := by
      rw [List.map_append, List.map_cons] at h
      exact fun hin => (List.nodup_append.mp h).2.2 _ hin _ List.mem_cons_self rfl
    rw [List.foldl_cons, setItem_new item.1 item.2 d hnew, hsplit]
    exact ih (d ++ [item]) (hsplit ▸ h)

/-- Items whose keys differ are the dict they make. -/
theorem dictItems_of_nodup (items : List (κ × ν)) (h : (items.map Prod.fst).Nodup) :
    dictItems items = items :=
  foldl_setItem items [] h

theorem mem_keys_dictItems (items : List (κ × ν)) {k : κ}
    (h : k ∈ (dictItems items).map Prod.fst) : k ∈ items.map Prod.fst := by
  have hfold : ∀ (items d : List (κ × ν)),
      k ∈ (items.foldl (fun d item => setItem item.1 item.2 d) d).map Prod.fst →
        k ∈ d.map Prod.fst ∨ k ∈ items.map Prod.fst := by
    intro items
    induction items with
    | nil => exact fun d h => .inl h
    | cons item items ih =>
      intro d h
      rw [List.map_cons, List.mem_cons]
      rcases ih _ h with hd | hitems
      · rw [keys_setItem] at hd
        split at hd
        · exact .inl hd
        · rcases List.mem_append.mp hd with hd | hnew
          · exact .inl hd
          · exact .inr (.inl (List.mem_singleton.mp hnew))
      · exact .inr (.inr hitems)
  exact (hfold items [] h).resolve_left nofun

theorem nodup_dictItems (items : List (κ × ν)) : ((dictItems items).map Prod.fst).Nodup := by
  have hfold : ∀ d : List (κ × ν), (d.map Prod.fst).Nodup →
      ((items.foldl (fun d item => setItem item.1 item.2 d) d).map Prod.fst).Nodup := by
    induction items with
    | nil => exact fun d h => h
    | cons item items ih => exact fun d h => ih _ (nodup_setItem item.1 item.2 d h)
  exact hfold [] List.nodup_nil

theorem getItem_setItem (k : κ) (v : ν) (items : List (κ × ν)) (k' : κ) :
    getItem k' (setItem k v items) = if k = k' then some v else getItem k' items := by
  induction items with
  | nil => rfl
  | cons item items ih =>
    unfold setItem
    by_cases hk : item.1 = k
    · rw [if_pos hk]
      simp only [getItem, hk]
      by_cases hk' : k = k' <;> simp [hk']
    · rw [if_neg hk]
      simp only [getItem, ih]
      by_cases hk' : item.1 = k'
      · rw [if_pos hk', if_neg fun h => hk (hk'.trans h.symm), if_pos hk']
      · rw [if_neg hk', if_neg hk']

theorem getItem_eq_some_iff (k : κ) (v : ν) (items : List (κ × ν))
    (h : (items.map Prod.fst).Nodup) : getItem k items = some v ↔ (k, v) ∈ items := by
  induction items with
  | nil => simp [getItem]
  | cons item items ih =>
    obtain ⟨k', v'⟩ := item
    rw [List.map_cons, List.nodup_cons] at h
    unfold getItem
    by_cases hk : k' = k
    · subst hk
      have hnot : (k', v) ∉ items := fun hm => h.1 (List.mem_map.mpr ⟨_, hm, rfl⟩)
      simp [hnot, eq_comm]
    · rw [if_neg hk, ih h.2]
      simp [Ne.symm hk]

theorem dictItems_concat (items : List (κ × ν)) (item : κ × ν) :
    dictItems (items ++ [item]) = setItem item.1 item.2 (dictItems items) := List.foldl_append

/-- `dict(items)` has the value of the last item with the key. -/
theorem getItem_dictItems (k : κ) (items : List (κ × ν)) :
    getItem k (dictItems items) = getItem k items.reverse := by
  induction items using List.reverseRecOn with
  | nil => rfl
  | append_singleton items item ih =>
    rw [dictItems_concat, getItem_setItem, ih, List.reverse_append]
    rfl

/-- Where the values of each key go up, `dict(items)` has the greatest one. -/
theorem getItem_dictItems_greatest (r : ν → ν → Prop) (hrefl : ∀ v, r v v) {items : List (κ × ν)}
    (h : items.Pairwise fun a b => a.1 = b.1 → r a.2 b.2) {k : κ} {v v' : ν}
    (hget : getItem k (dictItems items) = some v) (hmem : (k, v') ∈ items) : r v' v := by
  induction items using List.reverseRecOn with
  | nil => cases hmem
  | append_singleton items item ih =>
    obtain ⟨hitems, -, hlast⟩ := List.pairwise_append.mp h
    rw [dictItems_concat, getItem_setItem] at hget
    by_cases hk : item.1 = k
    · rw [if_pos hk] at hget
      cases hget
      rcases List.mem_append.mp hmem with hmem | hmem
      · exact hlast _ hmem _ (List.mem_singleton_self _) hk.symm
      · rw [← List.mem_singleton.mp hmem]
        exact hrefl v'
    · rw [if_neg hk] at hget
      rcases List.mem_append.mp hmem with hmem | hmem
      · exact ih hitems hget hmem
      · rw [← List.mem_singleton.mp hmem] at hk
        exact absurd rfl hk

theorem exists_getItem {k : κ} {items : List (κ × ν)} (h : k ∈ items.map Prod.fst) :
    ∃ v, getItem k items = some v := by
  induction items with
  | nil => cases h
  | cons item items ih =>
    unfold getItem
    by_cases hk : item.1 = k
    · exact ⟨item.2, if_pos hk⟩
    · rw [if_neg hk]
      exact ih ((List.mem_cons.mp h).resolve_left fun he => hk he.symm)

/-- The order of items whose keys differ does not matter to `get`. -/
theorem getItem_perm (k : κ) (items items' : List (κ × ν)) (hp : items.Perm items')
    (h : (items.map Prod.fst).Nodup) : getItem k items = getItem k items' := by
  have h' : (items'.map Prod.fst).Nodup := (hp.map Prod.fst).nodup_iff.mp h
  apply Option.ext
  intro v
  rw [getItem_eq_some_iff k v items h, getItem_eq_some_iff k v items' h', hp.mem_iff]

theorem getItem_mapValues (f : ν → μ) (k : κ) (items : List (κ × ν)) :
    getItem k (items.map fun item => (item.1, f item.2)) = (getItem k items).map f := by
  induction items with
  | nil => rfl
  | cons item items ih =>
    unfold getItem
    by_cases hk : item.1 = k
    · simp [hk]
    · simp [hk, ih]

end

/-! ## Dicts -/

structure Dict (κ ν : Type) where
  items : List (κ × ν)
  nodup : (items.map Prod.fst).Nodup

namespace Dict

variable {κ ν μ : Type}

def empty : Dict κ ν := ⟨[], List.nodup_nil⟩

theorem ext_items {d d' : Dict κ ν} (h : d.items = d'.items) : d = d' := by
  cases d
  cases d'
  cases h
  rfl

/-- `{k: f(v) for k, v in d.items()}`. -/
def mapValues (f : ν → μ) (d : Dict κ ν) : Dict κ μ where
  items := d.items.map fun item => (item.1, f item.2)
  nodup := by
    rw [List.map_map]
    exact d.nodup

variable [DecidableEq κ]

/-- `dict(items)`. -/
def ofItems (items : List (κ × ν)) : Dict κ ν := ⟨dictItems items, nodup_dictItems items⟩

theorem ofItems_items (d : Dict κ ν) : ofItems d.items = d :=
  ext_items (dictItems_of_nodup d.items d.nodup)

/-- `d.get(k)`. -/
def get (d : Dict κ ν) (k : κ) : Option ν := getItem k d.items

/-- `d[k] = v`. -/
def set (d : Dict κ ν) (k : κ) (v : ν) : Dict κ ν :=
  ⟨setItem k v d.items, nodup_setItem k v d.items d.nodup⟩

theorem get_mapValues (f : ν → μ) (d : Dict κ ν) (k : κ) :
    (d.mapValues f).get k = (d.get k).map f := getItem_mapValues f k d.items

theorem set_mapValues (f : ν → μ) (d : Dict κ ν) (k : κ) (v : ν) :
    (d.set k v).mapValues f = (d.mapValues f).set k (f v) := by
  apply ext_items
  show (setItem k v d.items).map _ = setItem k (f v) (d.items.map _)
  induction d.items with
  | nil => rfl
  | cons item items ih =>
    unfold setItem
    by_cases hk : item.1 = k
    · simp [hk]
    · simp [hk, ih]

/-- Setting the value that is there changes nothing. -/
theorem set_get (d : Dict κ ν) (k : κ) (v : ν) (h : d.get k = some v) : d.set k v = d := by
  have hitems : ∀ items : List (κ × ν), getItem k items = some v → setItem k v items = items := by
    intro items hget
    induction items with
    | nil => cases hget
    | cons item items ih =>
      unfold getItem at hget
      unfold setItem
      by_cases hk : item.1 = k
      · rw [if_pos hk] at hget ⊢
        cases hget
        rw [← hk]
      · rw [if_neg hk] at hget ⊢
        rw [ih hget]
  exact ext_items (hitems d.items h)

theorem get_set (d : Dict κ ν) (k : κ) (v : ν) (k' : κ) :
    (d.set k v).get k' = if k = k' then some v else d.get k' :=
  getItem_setItem k v d.items k'

theorem get_set_self (d : Dict κ ν) (k : κ) (v : ν) : (d.set k v).get k = some v := by
  rw [get_set, if_pos rfl]

theorem get_set_ne (d : Dict κ ν) (k : κ) (v : ν) (k' : κ) (h : k ≠ k') :
    (d.set k v).get k' = d.get k' := by
  rw [get_set, if_neg h]

/-- `del d[k]`. -/
def erase (d : Dict κ ν) (k : κ) : Dict κ ν where
  items := d.items.filter fun item => item.1 ≠ k
  nodup := d.nodup.sublist (List.filter_sublist.map _)

theorem get_erase (d : Dict κ ν) (k k' : κ) :
    (d.erase k).get k' = if k = k' then none else d.get k' := by
  show getItem k' (d.items.filter fun item => item.1 ≠ k) =
    if k = k' then none else getItem k' d.items
  induction d.items with
  | nil => simp [getItem]
  | cons item items ih =>
    by_cases hk : item.1 = k
    · rw [List.filter_cons_of_neg (by simpa using hk), ih, getItem, hk]
      by_cases hk' : k = k' <;> simp [hk']
    · rw [List.filter_cons_of_pos (by simpa using hk)]
      unfold getItem
      rw [ih]
      by_cases hk' : item.1 = k'
      · rw [if_pos hk', if_neg fun h => hk (hk'.trans h.symm), if_pos hk']
      · rw [if_neg hk', if_neg hk']

/-- The value of an item is what `get` finds for its key. -/
theorem mem_items_iff (d : Dict κ ν) (k : κ) (v : ν) : (k, v) ∈ d.items ↔ d.get k = some v :=
  (getItem_eq_some_iff k v d.items d.nodup).symm

/-- `dict(items)` has no other values. -/
theorem mem_of_get_ofItems (items : List (κ × ν)) (k : κ) (v : ν)
    (h : (ofItems items).get k = some v) : (k, v) ∈ items := by
  have hfold : ∀ (items d : List (κ × ν)),
      getItem k (items.foldl (fun d item => setItem item.1 item.2 d) d) = some v →
      (k, v) ∈ items ∨ getItem k d = some v := by
    intro items
    induction items with
    | nil => exact fun d h => Or.inr h
    | cons item items ih =>
      intro d hd
      rcases ih _ hd with hmem | hget
      · exact Or.inl (List.mem_cons_of_mem _ hmem)
      · rw [getItem_setItem] at hget
        by_cases hk : item.1 = k
        · rw [if_pos hk] at hget
          rw [← Option.some.inj hget, ← hk]
          exact Or.inl List.mem_cons_self
        · rw [if_neg hk] at hget
          exact Or.inr hget
  rcases hfold items [] h with hmem | hnil
  · exact hmem
  · cases hnil

/-- `dict(items)` has a value for each key. -/
theorem exists_get_ofItems {items : List (κ × ν)} {k : κ} (h : k ∈ items.map Prod.fst) :
    ∃ v, (ofItems items).get k = some v := by
  obtain ⟨v, hv⟩ := exists_getItem
    (show k ∈ items.reverse.map Prod.fst by rwa [List.map_reverse, List.mem_reverse])
  exact ⟨v, (getItem_dictItems k items).trans hv⟩

/-- `dict(items)` has the value of every item whose keys differ. -/
theorem get_ofItems_of_mem (items : List (κ × ν)) (k : κ) (v : ν)
    (h : (items.map Prod.fst).Nodup) (hmem : (k, v) ∈ items) : (ofItems items).get k = some v := by
  show getItem k (dictItems items) = some v
  rw [dictItems_of_nodup items h, getItem_eq_some_iff k v items h]
  exact hmem

/-! ### Lists as values -/

/-- `d.setdefault(k, []).append(v)`. -/
def append (d : Dict κ (List ν)) (k : κ) (v : ν) : Dict κ (List ν) :=
  d.set k ((d.get k).getD [] ++ [v])

theorem mem_append (d : Dict κ (List ν)) (k : κ) (v : ν) (k' : κ) (v' : ν) :
    v' ∈ ((d.append k v).get k').getD [] ↔ v' ∈ (d.get k').getD [] ∨ (k = k' ∧ v' = v) := by
  unfold append
  rw [get_set]
  by_cases hk : k = k'
  · subst hk
    rw [if_pos rfl, Option.getD_some, List.mem_append, List.mem_singleton]
    exact or_congr_right ⟨fun h => ⟨rfl, h⟩, fun h => h.2⟩
  · rw [if_neg hk]
    exact ⟨Or.inl, fun h => h.resolve_right fun hnew => hk hnew.1⟩

/-- What a list is grouped into, in the order of the list. -/
theorem get_foldl_append (key : ν → κ) (xs : List ν) (d : Dict κ (List ν)) (k : κ) :
    ((xs.foldl (fun d x => d.append (key x) x) d).get k).getD [] =
      (d.get k).getD [] ++ xs.filter fun x => key x = k := by
  induction xs generalizing d with
  | nil => rw [List.foldl_nil, List.filter_nil, List.append_nil]
  | cons x xs ih =>
    rw [List.foldl_cons, ih, append, get_set]
    by_cases h : key x = k
    · rw [if_pos h, h, Option.getD_some, List.filter_cons_of_pos (by simpa using h),
        List.append_assoc, List.singleton_append]
    · rw [if_neg h, List.filter_cons_of_neg (by simpa using h)]

theorem mem_keys_foldl_append (key : ν → κ) (xs : List ν) (d : Dict κ (List ν)) (k : κ) :
    k ∈ (xs.foldl (fun d x => d.append (key x) x) d).items.map Prod.fst ↔
      k ∈ d.items.map Prod.fst ∨ ∃ x ∈ xs, key x = k := by
  induction xs generalizing d with
  | nil => simp
  | cons x xs ih =>
    have hset : k ∈ (d.append (key x) x).items.map Prod.fst ↔
        k ∈ d.items.map Prod.fst ∨ key x = k := by
      show k ∈ (setItem _ _ d.items).map Prod.fst ↔ _
      rw [keys_setItem]
      by_cases hin : key x ∈ d.items.map Prod.fst
      · rw [if_pos hin]
        exact ⟨Or.inl, fun h => h.elim id fun he => he ▸ hin⟩
      · rw [if_neg hin, List.mem_append, List.mem_singleton, eq_comm]
    rw [List.foldl_cons, ih, hset, or_assoc]
    simp only [List.mem_cons, exists_eq_or_imp]

/-! ### Counting values -/

omit [DecidableEq κ] in
/-- `sum(1 for v in d.values() if p(v))`. -/
def count (p : ν → Bool) (d : Dict κ ν) : Nat := d.items.countP fun item => p item.2

theorem count_setItem (p : ν → Bool) (k : κ) (v : ν) (items : List (κ × ν)) :
    (setItem k v items).countP (fun item => p item.2) +
        ((getItem k items).filter p).toList.length =
      items.countP (fun item => p item.2) + (if p v then 1 else 0) := by
  induction items with
  | nil =>
    show List.countP _ [(k, v)] + 0 = 0 + _
    rw [List.countP_singleton]
    show (if p v then 1 else 0) + 0 = 0 + (if p v then 1 else 0)
    omega
  | cons item items ih =>
    unfold setItem getItem
    by_cases hk : item.1 = k
    · rw [if_pos hk, if_pos hk, List.countP_cons, List.countP_cons]
      by_cases hp : p item.2
      · simp [Option.filter, hp]
        omega
      · simp [Option.filter, hp]
    · rw [if_neg hk, if_neg hk, List.countP_cons, List.countP_cons]
      omega

/-- A value set in the place of another. -/
theorem count_set (p : ν → Bool) (d : Dict κ ν) (k : κ) (v w : ν) (h : d.get k = some v) :
    (d.set k w).count p + (if p v then 1 else 0) = d.count p + (if p w then 1 else 0) := by
  have hcount := count_setItem p k w d.items
  rw [show getItem k d.items = some v from h] at hcount
  have hold : ((some v).filter p).toList.length = if p v then 1 else 0 := by
    by_cases hp : p v
    · simp [Option.filter, hp]
    · simp [Option.filter, hp]
  rw [hold] at hcount
  exact hcount

/-- A value set for a new key. -/
theorem count_set_new (p : ν → Bool) (d : Dict κ ν) (k : κ) (w : ν) (h : d.get k = none) :
    (d.set k w).count p = d.count p + (if p w then 1 else 0) := by
  have hcount := count_setItem p k w d.items
  rw [show getItem k d.items = none from h] at hcount
  exact hcount

end Dict

end Py
