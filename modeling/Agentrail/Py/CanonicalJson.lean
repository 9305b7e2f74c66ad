import Agentrail.Py.Json
import Mathlib.Algebra.Ring.Nat
import Mathlib.Data.List.Sort

/-!
# Canonical JSON

`json.dumps(value, ensure_ascii=False, sort_keys=True, separators=(",", ":"))` escapes only
what a JSON string may not hold, and writes the keys of every dict in their order.

A `Portable` value, without floats and with ASCII keys, reads back with its keys sorted:

    loads (canonicalJson v) = some (sortKeys v)               (loads_canonicalJson)
-/

namespace Py

/-! ## Strings with `ensure_ascii=False` -/

/-- What a character becomes between the quotes. -/
def escapeControl (c : Char) : Text :=
  if c = '"' then ['\\', '"']
  else if c = '\\' then ['\\', '\\']
  else if c = '\n' then ['\\', 'n']
  else if c = '\r' then ['\\', 'r']
  else if c = '\t' then ['\\', 't']
  else if c = '\x0c' then ['\\', 'f']
  else if c = '\x08' then ['\\', 'b']
  else if c.toNat < 0x20 then escapeCode c.toNat
  else [c]

theorem readChar_escapeControl (c : Char) (rest : Text) :
    readChar (escapeControl c ++ rest) = some (c, rest) := by
  by_cases hprint : 0x20 ≤ c.toNat ∧ c.toNat ≤ 0x7e
  · have hsame : escapeControl c = escapeChar c := by
      unfold escapeControl escapeChar
      rw [if_pos hprint, if_neg (Nat.not_lt.mpr hprint.1)]
    rw [hsame, readChar_escapeChar]
  by_cases hlow : c.toNat < 0x20
  · have hsame : escapeControl c = escapeChar c := by
      have hbmp : c.toNat < 0x10000 := by omega
      unfold escapeControl escapeChar
      simp only [hprint, hlow, hbmp, if_false, if_true]
    rw [hsame, readChar_escapeChar]
  · have hne : ∀ d : Char, d.toNat ≤ 0x7e → c ≠ d := by
      rintro d hd rfl
      exact hprint ⟨by omega, hd⟩
    have hback : c ≠ '\\' := hne _ (by decide)
    have hsame : escapeControl c = [c] := by
      unfold escapeControl
      rw [if_neg (hne '"' (by decide)), if_neg hback, if_neg (hne '\n' (by decide)),
        if_neg (hne '\r' (by decide)), if_neg (hne '\t' (by decide)),
        if_neg (hne '\x0c' (by decide)), if_neg (hne '\x08' (by decide)), if_neg hlow]
    rw [hsame]
    show (if c = '\\' then _ else if c.toNat < 0x20 then none else some (c, rest)) = _
    rw [if_neg hback, if_neg hlow]

theorem head_escapeControl (c : Char) (rest : Text) :
    (escapeControl c ++ rest).head? ≠ some '"' := by
  have hslash : (some '\\' : Option Char) ≠ some '"' := by decide
  unfold escapeControl
  by_cases hquote : c = '"'
  · rw [if_pos hquote]
    exact hslash
  rw [if_neg hquote]
  repeat' split
  all_goals first | exact hslash | (intro h; exact hquote (Option.some.inj h))

/-- `ensure_ascii=False`. -/
def unicodeQuoting : Quoting where
  quote t := '"' :: (t.flatMap escapeControl ++ ['"'])
  opens _ := ⟨_, rfl⟩
  reads := readString_between readChar_escapeControl head_escapeControl

def canonicalJson (v : Json) : Text := write unicodeQuoting (sortKeys v)

/-! ## Values that every JSON reader takes alike -/

/-- The integers up to here are told apart by doubles. -/
def maxSafeInteger : Nat := 2 ^ 53 - 1

section
variable (R : Text → Text → Prop)

mutual

/-- No floats, no integer beyond a double, and ASCII keys, each of them `R` to every later one. -/
def Portable : Json → Prop
  | .int n => n.natAbs ≤ maxSafeInteger
  | .float _ => False
  | .list xs => PortableItems xs
  | .dict fields => (fields.map Prod.fst).Pairwise R ∧ PortableFields fields
  | _ => True

def PortableItems : List Json → Prop
  | [] => True
  | x :: xs => Portable x ∧ PortableItems xs

def PortableFields : List (Text × Json) → Prop
  | [] => True
  | (k, v) :: fields => isAscii k ∧ Portable v ∧ PortableFields fields

end

end

section
variable {R : Text → Text → Prop}

theorem portableFields_iff {fields : List (Text × Json)} :
    PortableFields R fields ↔ ∀ f ∈ fields, isAscii f.1 ∧ Portable R f.2 := by
  induction fields with
  | nil => simp [PortableFields]
  | cons f fields ih => rw [PortableFields, ih, List.forall_mem_cons, and_assoc]

mutual

theorem plain_of_portable (hR : ∀ a b, R a b → a ≠ b) (v : Json) (h : Portable R v) : Plain v := by
  cases v with
  | null | bool | int | str => trivial
  | float literal => exact h.elim
  | list xs => exact plainItems_of_portable hR xs h
  | dict fields => exact ⟨h.1.imp fun hab => hR _ _ hab, plainFields_of_portable hR fields h.2⟩

theorem plainItems_of_portable (hR : ∀ a b, R a b → a ≠ b) (xs : List Json)
    (h : PortableItems R xs) : PlainItems xs := by
  cases xs with
  | nil => trivial
  | cons x xs => exact ⟨plain_of_portable hR x h.1, plainItems_of_portable hR xs h.2⟩

theorem plainFields_of_portable (hR : ∀ a b, R a b → a ≠ b) (fields : List (Text × Json))
    (h : PortableFields R fields) : PlainFields fields := by
  cases fields with
  | nil => trivial
  | cons f fields =>
    obtain ⟨k, v⟩ := f
    exact ⟨plain_of_portable hR v h.2.1, plainFields_of_portable hR fields h.2.2⟩

end

end

/-! ## Sorted keys -/

theorem sortKeysFields_eq_map (fields : List (Text × Json)) :
    sortKeysFields fields = fields.map fun f => (f.1, sortKeys f.2) := by
  induction fields with
  | nil => rfl
  | cons f fields ih => rw [sortKeysFields, ih, List.map_cons]

theorem keys_sortKeysFields (fields : List (Text × Json)) :
    (sortKeysFields fields).map Prod.fst = fields.map Prod.fst := by
  rw [sortKeysFields_eq_map, List.map_map]
  rfl

/-- The fields of a dict after sorting. -/
def sortedFields (fields : List (Text × Json)) : List (Text × Json) :=
  (sortKeysFields fields).mergeSort fun f g => f.1 ≤ g.1

theorem sortKeys_dict (fields : List (Text × Json)) :
    sortKeys (.dict fields) = .dict (sortedFields fields) := by
  rw [sortKeys, sortedFields]

theorem sortedFields_perm (fields : List (Text × Json)) :
    (sortedFields fields).Perm (sortKeysFields fields) := List.mergeSort_perm _ _

theorem keys_sortedFields (fields : List (Text × Json)) :
    ((sortedFields fields).map Prod.fst).Perm (fields.map Prod.fst) := by
  rw [← keys_sortKeysFields fields]
  exact (sortedFields_perm fields).map Prod.fst

theorem nodup_sortedFields {fields : List (Text × Json)} (h : (fields.map Prod.fst).Nodup) :
    ((sortedFields fields).map Prod.fst).Nodup := (keys_sortedFields fields).nodup_iff.mpr h

/-- Keys that differ are strictly in order once they are in order. -/
theorem keys_lt_of_le {fields : List (Text × Json)} (h : (fields.map Prod.fst).Nodup)
    (hle : fields.Pairwise fun f g => f.1 ≤ g.1) : (fields.map Prod.fst).Pairwise (· < ·) :=
  List.pairwise_map.mpr
    ((hle.and (List.pairwise_map.mp h)).imp fun hfg => Std.lt_of_le_of_ne hfg.1 hfg.2)

theorem sortedFields_pairwise {fields : List (Text × Json)} (h : (fields.map Prod.fst).Nodup) :
    ((sortedFields fields).map Prod.fst).Pairwise (· < ·) := by
  refine keys_lt_of_le (nodup_sortedFields h) ?_
  have hsorted := @List.pairwise_mergeSort _ (fun f g : Text × Json => decide (f.1 ≤ g.1))
    (fun f g h hfg hgh => decide_eq_true
      (Std.le_trans (of_decide_eq_true hfg) (of_decide_eq_true hgh)))
    (fun f g => by
      rw [Bool.or_eq_true, decide_eq_true_eq, decide_eq_true_eq]
      exact Std.le_total) (sortKeysFields fields)
  exact hsorted.imp fun hfg => of_decide_eq_true hfg

/-- Fields in the order of their keys are in no other. -/
theorem fields_eq_of_perm {xs ys : List (Text × Json)} (hp : xs.Perm ys)
    (hx : (xs.map Prod.fst).Pairwise (· < ·)) (hy : (ys.map Prod.fst).Pairwise (· < ·)) : xs = ys :=
  List.Perm.eq_of_pairwise (fun _ _ _ _ hfg hgf => absurd hgf (Std.not_gt_of_lt hfg))
    (List.pairwise_map.mp hx) (List.pairwise_map.mp hy) hp

/-- Sorted by insertion, which evaluates. -/
theorem sortedFields_eq_insertionSort {fields : List (Text × Json)}
    (h : (fields.map Prod.fst).Nodup) :
    sortedFields fields = (sortKeysFields fields).insertionSort fun f g => f.1 ≤ g.1 := by
  have htotal : Std.Total fun f g : Text × Json => f.1 ≤ g.1 := ⟨fun _ _ => Std.le_total⟩
  have htrans : IsTrans (Text × Json) fun f g => f.1 ≤ g.1 := ⟨fun _ _ _ => Std.le_trans⟩
  have hperm := List.perm_insertionSort (fun f g : Text × Json => f.1 ≤ g.1) (sortKeysFields fields)
  refine fields_eq_of_perm ((sortedFields_perm fields).trans hperm.symm)
    (sortedFields_pairwise h) (keys_lt_of_le ?_ ?_)
  · rw [(hperm.map Prod.fst).nodup_iff, keys_sortKeysFields]
    exact h
  · exact List.pairwise_insertionSort _ _

mutual

theorem portable_sortKeys (v : Json) (h : Portable (· ≠ ·) v) : Portable (· < ·) (sortKeys v) := by
  cases v with
  | null | bool | int | str => exact h
  | float literal => exact h.elim
  | list xs => exact portable_sortKeysItems xs h
  | dict fields =>
    rw [sortKeys_dict]
    refine ⟨sortedFields_pairwise h.1, portableFields_iff.mpr fun f hf => ?_⟩
    exact portableFields_iff.mp (portable_sortKeysFields fields h.2) f
      ((sortedFields_perm fields).mem_iff.mp hf)

theorem portable_sortKeysItems (xs : List Json) (h : PortableItems (· ≠ ·) xs) :
    PortableItems (· < ·) (sortKeysItems xs) := by
  cases xs with
  | nil => trivial
  | cons x xs => exact ⟨portable_sortKeys x h.1, portable_sortKeysItems xs h.2⟩

theorem portable_sortKeysFields (fields : List (Text × Json)) (h : PortableFields (· ≠ ·) fields) :
    PortableFields (· < ·) (sortKeysFields fields) := by
  cases fields with
  | nil => trivial
  | cons f fields =>
    obtain ⟨k, v⟩ := f
    exact ⟨h.1, portable_sortKeys v h.2.1, portable_sortKeysFields fields h.2.2⟩

end

/-- **Canonical JSON reads back with its keys sorted.** -/
theorem loads_canonicalJson (v : Json) (h : Portable (· ≠ ·) v) :
    loads (canonicalJson v) = some (sortKeys v) :=
  loads_write unicodeQuoting _
    (plain_of_portable (fun _ _ hab => Std.ne_of_lt hab) _ (portable_sortKeys v h))

end Py
