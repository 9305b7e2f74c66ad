import Agentrail.Py.CanonicalJson
import Agentrail.Watches.SourceReceipts

/-!
# Canonical JSON on both sides

`sourceCanonicalJson` of a decoded value is the text that `json.dumps` wrote: both escape the
same characters, and the order of UTF-16 code units is the order of code points on ASCII keys.

    Decodes v w → jsonParse (canonicalJson v) = some w                    (Decodes.parse)
    Decodes v w → sourceCanonicalJson w = some (canonicalJson v)          (Decodes.canonical)
-/

namespace Agentrail.SourceReceipts

open Js

/-! ## Decoding -/

mutual

/-- The value that both languages read from a text, where no number is rounded. -/
def ofPython : Py.Json → Option Json
  | .null => some .null
  | .bool b => some (.bool b)
  | .int n => if n.natAbs ≤ Py.maxSafeInteger then some (.num n) else none
  | .float _ => none
  | .str t => some (.str t)
  | .list xs => (ofPythonItems xs).map .arr
  | .dict fields => (ofPythonFields fields).map .obj

def ofPythonItems : List Py.Json → Option (List Json)
  | [] => some []
  | x :: xs => (ofPython x).bind fun item => (ofPythonItems xs).map (item :: ·)

def ofPythonFields : List (Text × Py.Json) → Option (List (Text × Json))
  | [] => some []
  | (k, v) :: fields =>
    (ofPython v).bind fun item => (ofPythonFields fields).map ((k, item) :: ·)

end

/-- `JSON.parse` of a text whose numbers are safe integers. -/
def jsonParse (t : Text) : Option Json := (Py.loads t).bind ofPython

/-! ## Strings and keys -/

theorem hex4_of_lt {n : Nat} (h : n < 0x20) :
    Py.hex4 n = ['0', '0', Nat.digitChar (n / 16), Nat.digitChar (n % 16)] := by
  have h1 : n / 4096 % 16 = 0 := by omega
  have h2 : n / 256 % 16 = 0 := by omega
  have h3 : n / 16 % 16 = n / 16 := by omega
  unfold Py.hex4
  rw [h1, h2, h3]
  rfl

/-- `JSON.stringify` escapes what `ensure_ascii=False` does. -/
theorem quote_eq_unicodeQuoting (t : Text) : quote t = Py.unicodeQuoting.quote t := by
  unfold quote
  show '"' :: (_ ++ _) = '"' :: (_ ++ _)
  congr 2
  apply List.flatMap_congr
  intro c _
  unfold Py.escapeControl
  by_cases hquote : c = '"'
  · subst hquote
    rfl
  by_cases hback : c = '\\'
  · subst hback
    rfl
  rw [if_neg (by simp [hquote, hback]), if_neg hquote, if_neg hback]
  by_cases hb : c = '\x08'
  · subst hb
    rfl
  rw [if_neg hb, if_neg hb]
  by_cases hlow : c.toNat < 0x20
  · rw [if_pos hlow, if_pos hlow]
    unfold Py.escapeCode
    rw [hex4_of_lt hlow]
  · rw [if_neg hlow, if_neg hlow]

theorem utf16_of_ascii {t : Text} (h : Py.isAscii t) : utf16 t = t.map Char.toNat := by
  induction t with
  | nil => rfl
  | cons c t ih =>
    unfold Py.isAscii at h
    rw [List.all_cons, Bool.and_eq_true, decide_eq_true_eq] at h
    have hbmp : c.toNat < 0x10000 := by omega
    show (if c.toNat < 0x10000 then _ else _) ++ utf16 t = _
    rw [if_pos hbmp, ih h.2]
    rfl

/-- The code units of ASCII keys are in the order of the keys. -/
theorem utf16_lt {a b : Text} (ha : Py.isAscii a) (hb : Py.isAscii b) (h : a < b) :
    utf16 a < utf16 b := by
  rw [utf16_of_ascii ha, utf16_of_ascii hb]
  exact List.map_lt (fun _ _ hcd => hcd) h

/-! ## Canonical JSON -/

theorem isSafeInteger_intCast (n : ℤ) (h : n.natAbs ≤ Py.maxSafeInteger) :
    isSafeInteger (n : ℚ) = true := by
  unfold isSafeInteger
  rw [Rat.den_intCast, Rat.num_intCast]
  exact decide_eq_true h

/-- Parts after a first one, each with its comma, and the bracket that closes them. -/
def commaParts (close : Text) (parts : List Text) : Text :=
  parts.foldr (fun part rest => ',' :: (part ++ rest)) close

theorem join_commaParts (close part : Text) (parts : List Text) :
    join [','] (part :: parts) ++ close = part ++ commaParts close parts := by
  induction parts generalizing part with
  | nil =>
    show (part ++ []) ++ close = part ++ close
    rw [List.append_nil]
  | cons next parts ih =>
    show (part ++ (',' :: join [','] (next :: parts))) ++ close = _
    rw [List.append_assoc, List.cons_append, ih next]
    rfl

section
variable (Q : Py.Quoting)

theorem writeItems_eq (xs : List Py.Json) :
    Py.writeItems Q xs = commaParts [']'] (xs.map (Py.write Q)) := by
  induction xs with
  | nil => rfl
  | cons x xs ih =>
    rw [Py.writeItems, ih]
    rfl

theorem writeFields_eq (fields : List (Text × Py.Json)) :
    Py.writeFields Q fields =
      commaParts ['}'] (fields.map fun f => Q.quote f.1 ++ ':' :: Py.write Q f.2) := by
  induction fields with
  | nil => rfl
  | cons f fields ih =>
    rw [Py.writeFields, ih]
    show ',' :: (Q.quote f.1 ++ (':' :: (Py.write Q f.2 ++ _))) =
      ',' :: ((Q.quote f.1 ++ (':' :: Py.write Q f.2)) ++ _)
    rw [List.append_assoc, List.cons_append]
    rfl

theorem array_write (xs : List Py.Json) : array (xs.map (Py.write Q)) = Py.write Q (.list xs) := by
  cases xs with
  | nil => rfl
  | cons x xs =>
    rw [Py.write, writeItems_eq]
    show '[' :: (join [','] _ ++ [']']) = _
    rw [List.map_cons, join_commaParts]

end

theorem object_write (fields : List (Text × Py.Json)) :
    object (fields.map fun f => (f.1, Py.write Py.unicodeQuoting f.2)) =
      Py.write Py.unicodeQuoting (.dict fields) := by
  have hparts : (fields.map fun f => (f.1, Py.write Py.unicodeQuoting f.2)).map
      (fun f => quote f.1 ++ ':' :: f.2) = fields.map fun f =>
        Py.unicodeQuoting.quote f.1 ++ ':' :: Py.write Py.unicodeQuoting f.2 := by
    rw [List.map_map]
    apply List.map_congr_left
    intro f _
    show quote f.1 ++ _ = _
    rw [quote_eq_unicodeQuoting]
  unfold object
  rw [hparts]
  cases fields with
  | nil => rfl
  | cons f fields =>
    rw [Py.write, writeFields_eq]
    show '{' :: (join [','] _ ++ ['}']) = _
    rw [List.map_cons, join_commaParts, List.append_assoc, List.cons_append]

/-- Keys in order stay where they are. -/
theorem insertionSort_fields {fields : List (Text × Py.Json)}
    (hascii : ∀ f ∈ fields, Py.isAscii f.1)
    (hkeys : (fields.map Prod.fst).Pairwise (· < ·)) (text : Py.Json → Text) :
    (fields.map fun f => (f.1, text f.2)).insertionSort (fun a b => utf16 a.1 ≤ utf16 b.1) =
      fields.map fun f => (f.1, text f.2) := by
  apply List.Pairwise.insertionSort_eq
  refine List.pairwise_map.mpr ?_
  refine (List.pairwise_map.mp hkeys).imp_of_mem ?_
  intro f g hf hg hfg
  exact le_of_lt (utf16_lt (hascii f hf) (hascii g hg) hfg)

mutual

theorem canonical_ofPython (v : Py.Json) (h : Py.Portable (· < ·) v) :
    ∃ w, ofPython v = some w ∧ sourceCanonicalJson w = some (Py.write Py.unicodeQuoting v) := by
  cases v with
  | null => exact ⟨.null, rfl, rfl⟩
  | bool b => exact ⟨.bool b, rfl, by cases b <;> rfl⟩
  | int n =>
    refine ⟨.num n, if_pos h, ?_⟩
    show (if isSafeInteger (n : ℚ) then _ else _) = _
    rw [if_pos (isSafeInteger_intCast n h), Rat.num_intCast]
    rfl
  | float literal => exact h.elim
  | str t => exact ⟨.str t, rfl, congrArg some (quote_eq_unicodeQuoting t)⟩
  | list xs =>
    obtain ⟨ws, hws, htexts⟩ := canonical_ofPythonItems xs h
    refine ⟨.arr ws, by rw [ofPython, hws]; rfl, ?_⟩
    rw [sourceCanonicalJson, htexts, ← array_write]
    rfl
  | dict fields =>
    obtain ⟨ws, hws, htexts⟩ := canonical_ofPythonFields fields h.2
    refine ⟨.obj ws, by rw [ofPython, hws]; rfl, ?_⟩
    have hascii := fun f hf => (Py.portableFields_iff.mp h.2 f hf).1
    rw [sourceCanonicalJson, htexts, ← object_write, Option.map_some,
      insertionSort_fields hascii h.1]

theorem canonical_ofPythonItems (xs : List Py.Json) (h : Py.PortableItems (· < ·) xs) :
    ∃ ws, ofPythonItems xs = some ws ∧
      canonicalItems ws = some (xs.map (Py.write Py.unicodeQuoting)) := by
  cases xs with
  | nil => exact ⟨[], rfl, rfl⟩
  | cons x xs =>
    obtain ⟨w, hw, htext⟩ := canonical_ofPython x h.1
    obtain ⟨ws, hws, htexts⟩ := canonical_ofPythonItems xs h.2
    refine ⟨w :: ws, by rw [ofPythonItems, hw, hws]; rfl, ?_⟩
    rw [canonicalItems, htext, htexts]
    rfl

theorem canonical_ofPythonFields (fields : List (Text × Py.Json))
    (h : Py.PortableFields (· < ·) fields) :
    ∃ ws, ofPythonFields fields = some ws ∧ canonicalFields ws =
      some (fields.map fun f => (f.1, Py.write Py.unicodeQuoting f.2)) := by
  cases fields with
  | nil => exact ⟨[], rfl, rfl⟩
  | cons f fields =>
    obtain ⟨k, v⟩ := f
    obtain ⟨w, hw, htext⟩ := canonical_ofPython v h.2.1
    obtain ⟨ws, hws, htexts⟩ := canonical_ofPythonFields fields h.2.2
    refine ⟨(k, w) :: ws, by rw [ofPythonFields, hw, hws]; rfl, ?_⟩
    rw [canonicalFields, htext, htexts]
    rfl

end

/-! ## Values that decode -/

/-- What the text of a Python value decodes to. -/
structure Decodes (v : Py.Json) (w : Json) : Prop where
  portable : Py.Portable (· ≠ ·) v
  value : ofPython (Py.sortKeys v) = some w

namespace Decodes

variable {v : Py.Json} {w : Json}

theorem parse (h : Decodes v w) : jsonParse (Py.canonicalJson v) = some w := by
  unfold jsonParse
  rw [Py.loads_canonicalJson v h.portable, Option.bind_some, h.value]

/-- **What Python wrote is written the same again.** -/
theorem canonical (h : Decodes v w) : sourceCanonicalJson w = some (Py.canonicalJson v) := by
  obtain ⟨w', hw, htext⟩ := canonical_ofPython _ (Py.portable_sortKeys v h.portable)
  rw [h.value] at hw
  cases hw
  exact htext

theorem str (t : Text) : Decodes (.str t) (.str t) := ⟨trivial, rfl⟩

theorem bool (b : Bool) : Decodes (.bool b) (.bool b) := ⟨trivial, rfl⟩

theorem nat {n : Nat} (h : n ≤ Py.maxSafeInteger) : Decodes (.int n) (.num n) :=
  ⟨h, if_pos h⟩

theorem list {vs : List Py.Json} {ws : List Json} (h : List.Forall₂ Decodes vs ws) :
    Decodes (.list vs) (.arr ws) := by
  induction h with
  | nil => exact ⟨trivial, rfl⟩
  | cons hvw _ ih =>
    have hitems := ih.value
    rw [Py.sortKeys, ofPython, Option.map_eq_some_iff] at hitems
    obtain ⟨items, hitems, he⟩ := hitems
    cases he
    refine ⟨⟨hvw.portable, ih.portable⟩, ?_⟩
    rw [Py.sortKeys, Py.sortKeysItems, ofPython, ofPythonItems, hvw.value, hitems]
    rfl

/-- A field and what it decodes to. -/
def Field (f : Text × Py.Json) (g : Text × Json) : Prop := f.1 = g.1 ∧ Decodes f.2 g.2

theorem field (key : String) {fs : List (Text × Py.Json)} {gs : List (Text × Json)}
    (hvalue : Decodes v w) (hfields : List.Forall₂ Field fs gs) :
    List.Forall₂ Field ((key.toList, v) :: fs) ((key.toList, w) :: gs) :=
  .cons ⟨rfl, hvalue⟩ hfields

/-- A field that is inserted stays the field it is. -/
theorem fields_orderedInsert {f : Text × Py.Json} {g : Text × Json}
    {fs : List (Text × Py.Json)} {gs : List (Text × Json)} (hkey : f.1 = g.1)
    (hvalue : ofPython f.2 = some g.2) (hfields : ofPythonFields fs = some gs) :
    ofPythonFields (fs.orderedInsert (fun a b => a.1 ≤ b.1) f) =
      some (gs.orderedInsert (fun a b => a.1 ≤ b.1) g) := by
  induction fs generalizing gs with
  | nil =>
    cases hfields
    show (ofPython f.2).bind _ = _
    rw [hvalue, hkey]
    rfl
  | cons f' fs ih =>
    rw [ofPythonFields, Option.bind_eq_some_iff] at hfields
    obtain ⟨w', hw', hrest⟩ := hfields
    obtain ⟨gs', hgs', rfl⟩ := Option.map_eq_some_iff.mp hrest
    rw [List.orderedInsert_cons, List.orderedInsert_cons, ← hkey]
    by_cases hle : f.1 ≤ f'.1
    · rw [if_pos hle, if_pos hle, ofPythonFields, hvalue, ofPythonFields, hw', hgs', hkey]
      rfl
    · rw [if_neg hle, if_neg hle, ofPythonFields, hw', ih hgs']
      rfl

/-- ASCII keys, each of them once. -/
def portableKeys (keys : List Text) : Bool := decide keys.Nodup && keys.all Py.isAscii

theorem dict {fs : List (Text × Py.Json)} {gs : List (Text × Json)}
    (hfields : List.Forall₂ Field fs gs) (hkeys : portableKeys (fs.map Prod.fst) = true) :
    Decodes (.dict fs) (.obj (gs.insertionSort fun a b => a.1 ≤ b.1)) := by
  unfold portableKeys at hkeys
  rw [Bool.and_eq_true, decide_eq_true_eq, List.all_eq_true] at hkeys
  obtain ⟨hnodup, hascii⟩ := hkeys
  constructor
  · refine ⟨hnodup.imp fun hab => hab, Py.portableFields_iff.mpr fun f hf => ?_⟩
    refine ⟨hascii f.1 (List.mem_map_of_mem hf), ?_⟩
    clear hnodup hascii
    induction hfields with
    | nil => cases hf
    | cons hfg _ ih =>
      rcases List.mem_cons.mp hf with rfl | hf
      · exact hfg.2.portable
      · exact ih hf
  · rw [Py.sortKeys_dict, Py.sortedFields_eq_insertionSort hnodup, ofPython]
    have hsorted : ofPythonFields ((Py.sortKeysFields fs).insertionSort fun f g => f.1 ≤ g.1) =
        some (gs.insertionSort fun a b => a.1 ≤ b.1) := by
      clear hnodup hascii
      induction hfields with
      | nil => rfl
      | cons hfg _ ih =>
        rw [Py.sortKeysFields, List.insertionSort_cons, List.insertionSort_cons]
        exact fields_orderedInsert hfg.1 hfg.2.value ih
    rw [hsorted]
    rfl

end Decodes

end Agentrail.SourceReceipts
