import Mathlib.Data.List.Count
import Mathlib.Data.List.Perm.Basic
import Agentrail.Py.Dict

/-!
# Inverted indexes

A document is an id with the counts of its terms.  `postings` turns documents into the
list of occurrences of every term; `byDocument` turns such lists back into counts.

`get_postings`: a term's list has the documents that hold it, in their order.
`get_byDocument`: with distinct ids, turning there and back keeps every count.
-/

namespace InvertedIndex

open Py

variable {τ ι : Type} [DecidableEq τ] [DecidableEq ι]

/-! ## Counting terms -/

/-- One more occurrence of the term. -/
def countTerm (counts : Dict τ Nat) (term : τ) : Dict τ Nat :=
  counts.set term ((counts.get term).getD 0 + 1)

/-- How often each term occurs. -/
def countTerms (terms : List τ) : Dict τ Nat := terms.foldl countTerm Dict.empty

omit [DecidableEq τ] in
/-- The sum of the counts. -/
def total (counts : Dict τ Nat) : Nat := (counts.items.map Prod.snd).foldl (· + ·) 0

theorem foldl_countTerm_pos (terms : List τ) : ∀ counts : Dict τ Nat,
    (∀ term n, counts.get term = some n → 0 < n) →
    ∀ term n, (terms.foldl countTerm counts).get term = some n → 0 < n := by
  induction terms with
  | nil => exact fun counts h => h
  | cons first terms ih =>
    intro counts h
    refine ih _ fun term n hget => ?_
    rw [countTerm, Dict.get_set] at hget
    by_cases hterm : first = term
    · rw [if_pos hterm] at hget
      have hn := Option.some.inj hget
      omega
    · rw [if_neg hterm] at hget
      exact h term n hget

/-- A count that is stored is not zero. -/
theorem countTerms_pos (terms : List τ) (term : τ) (n : Nat)
    (h : (countTerms terms).get term = some n) : 0 < n := by
  refine foldl_countTerm_pos terms Dict.empty (fun term n hget => ?_) term n h
  cases hget

theorem foldl_add (ns : List Nat) : ∀ start, ns.foldl (· + ·) start = start + ns.foldl (· + ·) 0 := by
  induction ns with
  | nil => exact fun start => rfl
  | cons n ns ih =>
    intro start
    rw [List.foldl_cons, List.foldl_cons, ih (start + n), ih (0 + n)]
    omega

theorem total_setItem (term : τ) (n : Nat) (items : List (τ × Nat)) :
    ((setItem term n items).map Prod.snd).foldl (· + ·) 0 + (getItem term items).getD 0 =
      (items.map Prod.snd).foldl (· + ·) 0 + n := by
  induction items with
  | nil =>
    show 0 + n + 0 = 0 + n
    omega
  | cons item items ih =>
    unfold setItem getItem
    by_cases h : item.1 = term
    · rw [if_pos h, if_pos h]
      simp only [List.map_cons, List.foldl_cons, Option.getD_some]
      rw [foldl_add _ (0 + n), foldl_add _ (0 + item.2)]
      omega
    · rw [if_neg h, if_neg h]
      simp only [List.map_cons, List.foldl_cons]
      rw [foldl_add _ (0 + item.2), foldl_add _ (0 + item.2)]
      omega

theorem total_countTerm (counts : Dict τ Nat) (term : τ) :
    total (countTerm counts term) = total counts + 1 := by
  have h := total_setItem term ((counts.get term).getD 0 + 1) counts.items
  show ((setItem term _ counts.items).map Prod.snd).foldl (· + ·) 0 = _
  unfold total
  have hget : getItem term counts.items = counts.get term := rfl
  rw [hget] at h
  omega

theorem total_countTerms (terms : List τ) : total (countTerms terms) = terms.length := by
  have hfold : ∀ counts : Dict τ Nat,
      total (terms.foldl countTerm counts) = total counts + terms.length := by
    induction terms with
    | nil => exact fun counts => rfl
    | cons first terms ih =>
      intro counts
      rw [List.foldl_cons, ih, total_countTerm, List.length_cons]
      omega
  rw [countTerms, hfold]
  exact Nat.zero_add _

/-- Counts with the same values have the same total. -/
theorem total_congr {a b : Dict τ Nat} (h : ∀ term, a.get term = b.get term) :
    total a = total b := by
  have hmem : ∀ item : τ × Nat, item ∈ a.items ↔ item ∈ b.items := by
    rintro ⟨term, n⟩
    rw [Dict.mem_items_iff, Dict.mem_items_iff, h]
  have hperm : a.items.Perm b.items :=
    (List.perm_ext_iff_of_nodup a.nodup.of_map b.nodup.of_map).mpr hmem
  exact (hperm.map Prod.snd).foldl_eq 0

/-! ## Occurrence lists -/

/-- An occurrence at the end of its term's list. -/
def post (id : ι) (p : Dict τ (List (ι × Nat))) (item : τ × Nat) : Dict τ (List (ι × Nat)) :=
  p.set item.1 ((p.get item.1).getD [] ++ [(id, item.2)])

/-- Every term with the documents that hold it. -/
def postings (docs : List (ι × Dict τ Nat)) : Dict τ (List (ι × Nat)) :=
  docs.foldl (fun p doc => doc.2.items.foldl (post doc.1) p) Dict.empty

omit [DecidableEq ι] in
theorem get_foldl_post (id : ι) (term : τ) (items : List (τ × Nat))
    (hitems : (items.map Prod.fst).Nodup) : ∀ p : Dict τ (List (ι × Nat)),
    ((items.foldl (post id) p).get term).getD [] =
      (p.get term).getD [] ++ ((getItem term items).map fun n => (id, n)).toList := by
  induction items with
  | nil => exact fun p => (List.append_nil _).symm
  | cons item items ih =>
    intro p
    rw [List.map_cons, List.nodup_cons] at hitems
    rw [List.foldl_cons, ih hitems.2, post, Dict.get_set, getItem]
    by_cases h : item.1 = term
    · have hnone : getItem term items = none := by
        rw [Option.eq_none_iff_forall_ne_some]
        intro n hn
        have hmem := (getItem_eq_some_iff term n items hitems.2).mp hn
        exact hitems.1 (List.mem_map.mpr ⟨_, hmem, h.symm⟩)
      rw [if_pos h, if_pos h, hnone, ← h]
      simp
    · rw [if_neg h, if_neg h]

omit [DecidableEq ι] in
/-- The list of a term. -/
theorem get_postings (docs : List (ι × Dict τ Nat)) (term : τ) :
    ((postings docs).get term).getD [] =
      docs.flatMap fun doc => ((doc.2.get term).map fun n => (doc.1, n)).toList := by
  have hfold : ∀ p : Dict τ (List (ι × Nat)),
      ((docs.foldl (fun p doc => doc.2.items.foldl (post doc.1) p) p).get term).getD [] =
        (p.get term).getD [] ++
          docs.flatMap fun doc => ((doc.2.get term).map fun n => (doc.1, n)).toList := by
    induction docs with
    | nil => exact fun p => (List.append_nil _).symm
    | cons doc docs ih =>
      intro p
      rw [List.foldl_cons, ih, get_foldl_post doc.1 term doc.2.items doc.2.nodup,
        List.flatMap_cons, List.append_assoc]
      rfl
  rw [postings, hfold]
  rfl

omit [DecidableEq ι] in
theorem mem_postings (docs : List (ι × Dict τ Nat)) (term : τ) (id : ι) (n : Nat) :
    (id, n) ∈ ((postings docs).get term).getD [] ↔
      ∃ doc ∈ docs, doc.1 = id ∧ doc.2.get term = some n := by
  rw [get_postings, List.mem_flatMap]
  refine exists_congr fun doc => and_congr_right fun _ => ?_
  rw [Option.mem_toList, Option.map_eq_some_iff]
  constructor
  · rintro ⟨m, hget, hpair⟩
    cases hpair
    exact ⟨rfl, hget⟩
  · rintro ⟨rfl, hget⟩
    exact ⟨n, hget, rfl⟩

omit [DecidableEq ι] in
/-- A term occurs in as many documents as its list is long. -/
theorem length_postings (docs : List (ι × Dict τ Nat)) (term : τ) :
    (((postings docs).get term).getD []).length =
      docs.countP fun doc => (doc.2.get term).isSome := by
  rw [get_postings]
  induction docs with
  | nil => rfl
  | cons doc docs ih =>
    rw [List.flatMap_cons, List.length_append, ih, List.countP_cons]
    cases doc.2.get term with
    | none => simp
    | some n => simp [Nat.add_comm]

/-! ## Back to documents -/

/-- The count of an occurrence is set in its document. -/
def file (term : τ) (b : Dict ι (Dict τ Nat)) (x : ι × Nat) : Dict ι (Dict τ Nat) :=
  b.set x.1 (((b.get x.1).getD Dict.empty).set term x.2)

/-- Every document with the counts of its terms. -/
def byDocument (p : Dict τ (List (ι × Nat))) : Dict ι (Dict τ Nat) :=
  p.items.foldl (fun b entry => entry.2.foldl (file entry.1) b) Dict.empty

/-- The count of a term in a document. -/
def lookup (b : Dict ι (Dict τ Nat)) (id : ι) (term : τ) : Option Nat :=
  ((b.get id).getD Dict.empty).get term

theorem lookup_file (t : τ) (b : Dict ι (Dict τ Nat)) (x : ι × Nat) (id : ι) (term : τ) :
    lookup (file t b x) id term = if x.1 = id ∧ t = term then some x.2 else lookup b id term := by
  unfold lookup file
  rw [Dict.get_set]
  by_cases hid : x.1 = id
  · rw [if_pos hid, Option.getD_some, Dict.get_set]
    by_cases hterm : t = term
    · rw [if_pos hterm, if_pos ⟨hid, hterm⟩]
    · rw [if_neg hterm, if_neg fun h => hterm h.2, hid]
  · rw [if_neg hid, if_neg fun h => hid h.1]

theorem lookup_foldl_file (t : τ) (id : ι) (term : τ) (xs : List (ι × Nat)) (v : Option Nat)
    (hxs : t = term → ∀ x ∈ xs, x.1 = id → some x.2 = v) : ∀ b : Dict ι (Dict τ Nat),
    lookup b id term = v ∨ (t = term ∧ ∃ x ∈ xs, x.1 = id) →
    lookup (xs.foldl (file t) b) id term = v := by
  induction xs with
  | nil =>
    rintro b (h | ⟨-, x, hx, -⟩)
    · exact h
    · cases hx
  | cons x xs ih =>
    intro b h
    rw [List.foldl_cons]
    refine ih (fun ht y hy => hxs ht y (List.mem_cons_of_mem _ hy)) _ ?_
    rw [lookup_file]
    by_cases hx : x.1 = id ∧ t = term
    · rw [if_pos hx]
      exact Or.inl (hxs hx.2 x List.mem_cons_self hx.1)
    · rw [if_neg hx]
      refine h.imp_right ?_
      rintro ⟨ht, y, hy, hid⟩
      refine ⟨ht, y, (List.mem_cons.mp hy).resolve_left ?_, hid⟩
      rintro rfl
      exact hx ⟨hid, ht⟩

/-- What occurrence lists say about a document, where they do not contradict one another. -/
theorem lookup_byDocument (p : Dict τ (List (ι × Nat))) (id : ι) (term : τ) (v : Option Nat)
    (hv : ∀ x ∈ (p.get term).getD [], x.1 = id → some x.2 = v)
    (hsome : v = none ∨ ∃ x ∈ (p.get term).getD [], x.1 = id) :
    lookup (byDocument p) id term = v := by
  have hitems : ∀ (entries : List (τ × List (ι × Nat))) (b : Dict ι (Dict τ Nat)),
      (∀ entry ∈ entries, entry.1 = term → ∀ x ∈ entry.2, x.1 = id → some x.2 = v) →
      (lookup b id term = v ∨ ∃ entry ∈ entries, entry.1 = term ∧ ∃ x ∈ entry.2, x.1 = id) →
      lookup (entries.foldl (fun b entry => entry.2.foldl (file entry.1) b) b) id term = v := by
    intro entries
    induction entries with
    | nil =>
      rintro b - (h | ⟨entry, he, -⟩)
      · exact h
      · cases he
    | cons entry entries ih =>
      intro b hall h
      rw [List.foldl_cons]
      have hthis : entry.1 = term → ∀ x ∈ entry.2, x.1 = id → some x.2 = v :=
        hall entry List.mem_cons_self
      refine ih _ (fun e he => hall e (List.mem_cons_of_mem _ he)) ?_
      rcases h with h | ⟨e, he, hterm, x, hx, hid⟩
      · exact Or.inl (lookup_foldl_file entry.1 id term entry.2 v hthis b (Or.inl h))
      · rcases List.mem_cons.mp he with rfl | he
        · exact Or.inl (lookup_foldl_file e.1 id term e.2 v hthis b (Or.inr ⟨hterm, x, hx, hid⟩))
        · exact Or.inr ⟨e, he, hterm, x, hx, hid⟩
  refine hitems p.items Dict.empty ?_ ?_
  · rintro ⟨t, xs⟩ he rfl x hx hid
    refine hv x ?_ hid
    rw [(Dict.mem_items_iff p t xs).mp he]
    exact hx
  · rcases hsome with h | ⟨x, hx, hid⟩
    · exact Or.inl h.symm
    · cases hget : p.get term with
      | none =>
        rw [hget] at hx
        cases hx
      | some xs =>
        rw [hget] at hx
        exact Or.inr ⟨(term, xs), (Dict.mem_items_iff p term xs).mpr hget, rfl, x, hx, hid⟩

/-- There and back: with distinct ids, every document has its counts again. -/
theorem get_byDocument (docs : List (ι × Dict τ Nat)) (hdocs : (docs.map Prod.fst).Nodup)
    (doc : ι × Dict τ Nat) (hdoc : doc ∈ docs) (term : τ) :
    lookup (byDocument (postings docs)) doc.1 term = doc.2.get term := by
  have hown : ∀ x ∈ ((postings docs).get term).getD [], x.1 = doc.1 →
      some x.2 = doc.2.get term := by
    rintro ⟨id, n⟩ hx hid
    obtain ⟨other, hother, hsame, hget⟩ := (mem_postings docs term id n).mp hx
    have heq : other = doc := List.inj_on_of_nodup_map hdocs hother hdoc (hsame.trans hid)
    rw [← heq, hget]
  refine lookup_byDocument _ _ _ _ hown ?_
  cases hget : doc.2.get term with
  | none => exact Or.inl rfl
  | some n => exact Or.inr ⟨(doc.1, n), (mem_postings docs term _ n).mpr ⟨doc, hdoc, rfl, hget⟩, rfl⟩

end InvertedIndex
