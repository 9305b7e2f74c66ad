import Agentrail.Js.Bytes
import Mathlib.Data.List.Perm.Basic
import Mathlib.Data.List.Sort

/-!
# Canonical JSON with indentation

`JSON.stringify(JSON.parse(canonicalJson(value)), null, 2)`, and how long it is: a value
inside an object or an array may be replaced by one that is as long
(`bytes_obj_replace`, `bytes_arr_replace`), whatever stands around it.
-/

namespace Js

/-! ## How long a text is -/

/-- `Buffer.byteLength(t)`. -/
def bytes (t : Text) : Nat := (utf8 t).length

@[simp] theorem bytes_nil : bytes [] = 0 := rfl

@[simp] theorem bytes_append (a b : Text) : bytes (a ++ b) = bytes a + bytes b := by
  unfold bytes utf8
  rw [List.flatMap_append, List.length_append]

theorem bytes_cons (c : Char) (t : Text) : bytes (c :: t) = bytes [c] + bytes t :=
  bytes_append [c] t

theorem bytes_perm {a b : Text} (h : a.Perm b) : bytes a = bytes b :=
  (h.flatMap_right _).length_eq

/-- Every part of a joined text with the separator behind it. -/
def terminated (sep : Text) (parts : List Text) : Text := parts.flatMap fun part => part ++ sep

theorem bytes_join {sep : Text} {parts : List Text} (h : parts ≠ []) :
    bytes (join sep parts) + bytes sep = bytes (terminated sep parts) := by
  induction parts with
  | nil => exact absurd rfl h
  | cons part parts ih =>
    cases parts with
    | nil => simp [join, terminated]
    | cons next parts =>
      have hrest := ih (by simp)
      have hjoin : join sep (part :: next :: parts) = part ++ sep ++ join sep (next :: parts) := by
        simp [join]
      have hterminated : terminated sep (part :: next :: parts) =
          part ++ sep ++ terminated sep (next :: parts) := by
        unfold terminated
        rw [List.flatMap_cons]
      rw [hjoin, hterminated, bytes_append, bytes_append, bytes_append, bytes_append]
      omega

/-- The order of the parts does not matter. -/
theorem bytes_join_perm {sep : Text} {xs ys : List Text} (h : xs.Perm ys) :
    bytes (join sep xs) = bytes (join sep ys) := by
  by_cases hxs : xs = []
  · subst hxs
    rw [h.nil_eq]
  · have hys : ys ≠ [] := fun hys => hxs (by rw [hys] at h; exact h.eq_nil)
    have hx := @bytes_join sep _ hxs
    have hy := @bytes_join sep _ hys
    have hterminated : bytes (terminated sep xs) = bytes (terminated sep ys) :=
      bytes_perm (h.flatMap_right _)
    omega

/-- Some of the parts are replaced by others. -/
theorem bytes_join_replace (sep : Text) {pre post : List Text} (xs ys : List Text)
    (h : pre ≠ [] ∨ post ≠ []) :
    bytes (join sep (pre ++ xs ++ post)) + bytes (terminated sep ys) =
      bytes (join sep (pre ++ ys ++ post)) + bytes (terminated sep xs) := by
  have hne : ∀ zs, pre ++ zs ++ post ≠ [] := by
    intro zs hnil
    rw [List.append_eq_nil_iff, List.append_eq_nil_iff] at hnil
    exact h.elim (fun hpre => hpre hnil.1.1) fun hpost => hpost hnil.2
  have hx := @bytes_join sep _ (hne xs)
  have hy := @bytes_join sep _ (hne ys)
  unfold terminated at *
  rw [List.flatMap_append, List.flatMap_append, bytes_append, bytes_append] at hx hy
  omega

/-- A character that takes one byte, also in a quoted text. -/
def Plain (c : Char) : Prop := 0x20 ≤ c.toNat ∧ c.toNat < 0x7f ∧ c ≠ '"' ∧ c ≠ '\\'

theorem bytes_plain {t : Text} (h : ∀ c ∈ t, Plain c) : bytes t = t.length := by
  induction t with
  | nil => rfl
  | cons c t ih =>
    have hc := (h c List.mem_cons_self).2.1
    rw [bytes_cons, ih fun d hd => h d (List.mem_cons_of_mem _ hd), List.length_cons]
    have hsize : bytes [c] = 1 := by
      unfold bytes utf8
      rw [List.flatMap_singleton, String.length_utf8EncodeChar]
      exact Char.utf8Size_eq_one_iff.mpr (by change c.toNat ≤ 127; omega)
    omega

theorem quote_plain {t : Text} (h : ∀ c ∈ t, Plain c) : quote t = '"' :: (t ++ ['"']) := by
  unfold quote
  rw [List.flatMap_congr (g := fun c => [c]) fun c hc => ?_, List.flatMap_singleton']
  · rfl
  obtain ⟨hlow, hhigh, hquote, hslash⟩ := h c hc
  have hcontrol : ∀ d : Char, d.toNat < 0x20 → c ≠ d := by
    rintro d hd rfl
    omega
  rw [if_neg (by simp [hquote, hslash]), if_neg (hcontrol _ (by decide)),
    if_neg (hcontrol _ (by decide)), if_neg (hcontrol _ (by decide)),
    if_neg (hcontrol _ (by decide)), if_neg (hcontrol _ (by decide)), if_neg (by omega)]

theorem bytes_quote_plain {t : Text} (h : ∀ c ∈ t, Plain c) : bytes (quote t) = t.length + 2 := by
  rw [quote_plain h, bytes_cons, bytes_append, bytes_plain h]
  have hsize : bytes ['"'] = 1 := by decide
  omega

/-! ## Printing -/

/-- A property name that is an array index. -/
def isArrayIndex (key : Text) : Bool :=
  key ≠ [] && key.all isDigit && (key = ['0'] || key.head? ≠ some '0') &&
    (number key).any (· < 2 ^ 32 - 1)

/-- The order of the properties of an object that was parsed from canonical JSON: array
indices come first, the other names are in the order of their UTF-8. -/
def keyBefore (a b : Text) : Bool :=
  match isArrayIndex a, isArrayIndex b with
  | true, true => (number a).getD 0 ≤ (number b).getD 0
  | true, false => true
  | false, true => false
  | false, false => List.compareLex compare (utf8 a) (utf8 b) ≠ .gt

def indent (depth : Nat) : Text := List.replicate (2 * depth) ' '

/-- The printed members of an object or an array, between its brackets. -/
def listed (opening closing : Char) (depth : Nat) (items : List Text) : Text :=
  if items = [] then [opening, closing]
  else opening :: '\n' :: join [',', '\n'] (items.map (indent (depth + 1) ++ ·)) ++
    '\n' :: indent depth ++ [closing]

/-- A printed property. -/
def property (f : Text × Text) : Text := quote f.1 ++ ':' :: ' ' :: f.2

/-- The printed members of an object in their order. -/
def sortProperties (fields : List (Text × Text)) : List (Text × Text) :=
  fields.insertionSort fun a b => keyBefore a.1 b.1

section
variable (numberText : ℚ → Text)

mutual

/-- `canonicalPrettyJson(value)`, where `numberText` is `JSON.stringify` of a number. -/
def prettyJson (depth : Nat) : Json → Text
  | .null => ['n', 'u', 'l', 'l']
  | .bool true => ['t', 'r', 'u', 'e']
  | .bool false => ['f', 'a', 'l', 's', 'e']
  | .num q => numberText q
  | .str t => quote t
  | .arr xs => listed '[' ']' depth (prettyItems (depth + 1) xs)
  | .obj fields =>
    listed '{' '}' depth ((sortProperties (prettyFields (depth + 1) fields)).map property)

def prettyItems (depth : Nat) : List Json → List Text
  | [] => []
  | x :: xs => prettyJson depth x :: prettyItems depth xs

def prettyFields (depth : Nat) : List (Text × Json) → List (Text × Text)
  | [] => []
  | (k, v) :: fields => (k, prettyJson depth v) :: prettyFields depth fields

end

theorem prettyItems_eq_map (depth : Nat) (xs : List Json) :
    prettyItems numberText depth xs = xs.map (prettyJson numberText depth) := by
  induction xs with
  | nil => rw [prettyItems, List.map_nil]
  | cons x xs ih => rw [prettyItems, List.map_cons, ih]

theorem prettyFields_eq_map (depth : Nat) (fields : List (Text × Json)) :
    prettyFields numberText depth fields =
      fields.map fun f => (f.1, prettyJson numberText depth f.2) := by
  induction fields with
  | nil => rw [prettyFields, List.map_nil]
  | cons f fields ih =>
    obtain ⟨k, v⟩ := f
    rw [prettyFields, List.map_cons, ih]

/-! ## Values inside a value -/

theorem bytes_listed {opening closing : Char} {depth : Nat} {items : List Text}
    (h : items ≠ []) :
    bytes (listed opening closing depth items) = bytes [opening] + bytes ['\n'] +
      bytes (join [',', '\n'] (items.map (indent (depth + 1) ++ ·))) + bytes ['\n'] +
      bytes (indent depth) + bytes [closing] := by
  unfold listed
  rw [if_neg h, bytes_append, bytes_append, bytes_cons '\n' (indent depth),
    bytes_cons opening, bytes_cons '\n' (join _ _)]
  omega

theorem bytes_listed_perm {opening closing : Char} {depth : Nat} {xs ys : List Text}
    (h : xs.Perm ys) :
    bytes (listed opening closing depth xs) = bytes (listed opening closing depth ys) := by
  by_cases hxs : xs = []
  · obtain rfl : ys = [] := by
      rw [hxs] at h
      exact h.nil_eq.symm
    rw [hxs]
  · have hys : ys ≠ [] := fun hys => hxs (by rw [hys] at h; exact h.eq_nil)
    rw [bytes_listed hxs, bytes_listed hys,
      bytes_join_perm (h.map (indent (depth + 1) ++ ·))]

theorem bytes_listed_replace (opening closing : Char) (depth : Nat) (pre post : List Text)
    (x y : Text) :
    bytes (listed opening closing depth (pre ++ x :: post)) + bytes y =
      bytes (listed opening closing depth (pre ++ y :: post)) + bytes x := by
  have hjoin : ∀ z, bytes (join [',', '\n'] ((pre ++ z :: post).map (indent (depth + 1) ++ ·))) +
      bytes [',', '\n'] = bytes (terminated [',', '\n']
        ((pre ++ post).map (indent (depth + 1) ++ ·))) +
        (bytes (indent (depth + 1)) + bytes z + bytes [',', '\n']) := by
    intro z
    rw [bytes_join (by simp)]
    unfold terminated
    rw [List.map_append, List.map_append, List.map_cons, List.flatMap_append, List.flatMap_append,
      List.flatMap_cons]
    simp only [bytes_append]
    omega
  have hx := hjoin x
  have hy := hjoin y
  rw [bytes_listed (by simp), bytes_listed (by simp)]
  omega

theorem sortProperties_perm (fields : List (Text × Text)) :
    (sortProperties fields).Perm fields := List.perm_insertionSort _ _

/-- How long an object is does not depend on the order of its properties. -/
theorem bytes_obj (depth : Nat) (fields : List (Text × Json)) :
    bytes (prettyJson numberText depth (.obj fields)) =
      bytes (listed '{' '}' depth (fields.map fun f =>
        property (f.1, prettyJson numberText (depth + 1) f.2))) := by
  rw [prettyJson, prettyFields_eq_map]
  rw [bytes_listed_perm ((sortProperties_perm _).map property), List.map_map]
  rfl

theorem bytes_property (k t : Text) :
    bytes (property (k, t)) = bytes (quote k ++ [':', ' ']) + bytes t := by
  rw [← bytes_append]
  unfold property
  rw [List.append_assoc]
  rfl

/-- A property of an object is replaced. -/
theorem bytes_obj_replace (depth : Nat) (pre post : List (Text × Json)) (k : Text) (v w : Json) :
    bytes (prettyJson numberText depth (.obj (pre ++ (k, v) :: post))) +
        bytes (prettyJson numberText (depth + 1) w) =
      bytes (prettyJson numberText depth (.obj (pre ++ (k, w) :: post))) +
        bytes (prettyJson numberText (depth + 1) v) := by
  rw [bytes_obj, bytes_obj, List.map_append, List.map_append, List.map_cons, List.map_cons]
  have hreplace := bytes_listed_replace '{' '}' depth
    (pre.map fun f => property (f.1, prettyJson numberText (depth + 1) f.2))
    (post.map fun f => property (f.1, prettyJson numberText (depth + 1) f.2))
    (property (k, prettyJson numberText (depth + 1) v))
    (property (k, prettyJson numberText (depth + 1) w))
  rw [bytes_property, bytes_property] at hreplace
  dsimp only
  omega

/-- A member of an array is replaced. -/
theorem bytes_arr_replace (depth : Nat) (pre post : List Json) (v w : Json) :
    bytes (prettyJson numberText depth (.arr (pre ++ v :: post))) +
        bytes (prettyJson numberText (depth + 1) w) =
      bytes (prettyJson numberText depth (.arr (pre ++ w :: post))) +
        bytes (prettyJson numberText (depth + 1) v) := by
  simp only [prettyJson, prettyItems_eq_map, List.map_append, List.map_cons]
  exact bytes_listed_replace '[' ']' depth _ _ _ _

/-! ## The length without the text -/

/-- How long the members of an object or an array are between their brackets. -/
def listedBytes (depth : Nat) (sizes : List Nat) : Nat :=
  if sizes = [] then 2
  else sizes.foldl (fun n size => n + (2 * (depth + 1) + size + 2)) (2 * depth + 2)

mutual

/-- How long a printed value is. -/
def jsonBytes (depth : Nat) : Json → Nat
  | .null => 4
  | .bool true => 4
  | .bool false => 5
  | .num q => bytes (numberText q)
  | .str t => bytes (quote t)
  | .arr xs => listedBytes depth (itemBytes (depth + 1) xs)
  | .obj fields => listedBytes depth (fieldBytes (depth + 1) fields)

def itemBytes (depth : Nat) : List Json → List Nat
  | [] => []
  | x :: xs => jsonBytes depth x :: itemBytes depth xs

def fieldBytes (depth : Nat) : List (Text × Json) → List Nat
  | [] => []
  | (k, v) :: fields => (bytes (quote k) + 2 + jsonBytes depth v) :: fieldBytes depth fields

end

theorem bytes_indent (depth : Nat) : bytes (indent depth) = 2 * depth := by
  have hplain : ∀ c ∈ List.replicate (2 * depth) ' ', Plain c := by
    intro c hc
    obtain rfl := List.eq_of_mem_replicate hc
    unfold Plain
    decide
  unfold indent
  rw [bytes_plain hplain, List.length_replicate]

theorem bytes_terminated_indent (depth : Nat) (items : List Text) (n : Nat) :
    (items.map bytes).foldl (fun n size => n + (2 * depth + size + 2)) n =
      n + bytes (terminated [',', '\n'] (items.map (indent depth ++ ·))) := by
  induction items generalizing n with
  | nil => rfl
  | cons item items ih =>
    have hsep : bytes [',', '\n'] = 2 := by decide
    unfold terminated at ih ⊢
    rw [List.map_cons, List.foldl_cons, ih, List.map_cons, List.flatMap_cons]
    simp only [bytes_append, bytes_indent, hsep]
    omega

theorem bytes_listed_eq {opening closing : Char} (hopening : bytes [opening] = 1)
    (hclosing : bytes [closing] = 1) (depth : Nat) (items : List Text) :
    bytes (listed opening closing depth items) = listedBytes depth (items.map bytes) := by
  cases items with
  | nil =>
    unfold listed listedBytes
    rw [if_pos rfl, List.map_nil, if_pos rfl, bytes_cons, hopening, hclosing]
  | cons item items =>
    have hjoin := @bytes_join [',', '\n'] ((item :: items).map
      (indent (depth + 1) ++ ·)) (List.cons_ne_nil _ _)
    have hsep : bytes [',', '\n'] = 2 := by decide
    have hline : bytes ['\n'] = 1 := by decide
    rw [bytes_listed (List.cons_ne_nil _ _), hopening, hclosing, bytes_indent, hline]
    unfold listedBytes
    rw [if_neg (by simp), bytes_terminated_indent]
    omega

mutual

theorem bytes_prettyJson (depth : Nat) : (v : Json) →
    bytes (prettyJson numberText depth v) = jsonBytes numberText depth v
  | .null => by rw [prettyJson, jsonBytes]; decide
  | .bool true => by rw [prettyJson, jsonBytes]; decide
  | .bool false => by rw [prettyJson, jsonBytes]; decide
  | .num _ => by rw [prettyJson, jsonBytes]
  | .str _ => by rw [prettyJson, jsonBytes]
  | .arr xs => by
    rw [prettyJson, jsonBytes, bytes_listed_eq (by decide) (by decide), bytes_prettyItems]
  | .obj fields => by
    rw [prettyJson, jsonBytes, ← bytes_prettyFields,
      bytes_listed_perm ((sortProperties_perm _).map property),
      bytes_listed_eq (by decide) (by decide), List.map_map]
    rfl

theorem bytes_prettyItems (depth : Nat) : (xs : List Json) →
    (prettyItems numberText depth xs).map bytes = itemBytes numberText depth xs
  | [] => by rw [prettyItems, itemBytes, List.map_nil]
  | x :: xs => by
    rw [prettyItems, itemBytes, List.map_cons, bytes_prettyJson depth x,
      bytes_prettyItems depth xs]

theorem bytes_prettyFields (depth : Nat) : (fields : List (Text × Json)) →
    (prettyFields numberText depth fields).map (fun f => bytes (property f)) =
      fieldBytes numberText depth fields
  | [] => by rw [prettyFields, fieldBytes, List.map_nil]
  | (k, v) :: fields => by
    have hsep : bytes [':', ' '] = 2 := by decide
    rw [prettyFields, fieldBytes, List.map_cons, bytes_property, bytes_append, hsep,
      bytes_prettyJson depth v, bytes_prettyFields depth fields]

end

end

end Js
