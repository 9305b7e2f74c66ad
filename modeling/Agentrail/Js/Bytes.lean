import Agentrail.Js.Basic
import Agentrail.Lib.Base64
import Mathlib.Data.Nat.Digits.Defs

/-!
# Bytes and their encodings in JavaScript

`Buffer`, `TextDecoder` and `JSON.stringify`, as far as the TypeScript modules use
them.  Two decoders lose something: `toString("ascii")` drops the high bit of every
byte (`ascii_injective`), and a `TextDecoder` drops a byte order mark in front
(`textDecode_utf8`, `utf8_of_textDecode`).
-/

namespace Js

abbrev Bytes := List UInt8

/-- The length of a string, in UTF-16 code units. -/
def codeUnits (t : Text) : Nat := t.foldl (fun n c => n + if c.toNat < 0x10000 then 1 else 2) 0

/-! ## UTF-16 -/

/-- The code units of a string. -/
def utf16 (t : Text) : List Nat := t.flatMap fun c =>
  if c.toNat < 0x10000 then [c.toNat]
  else [0xd800 + (c.toNat - 0x10000) / 0x400, 0xdc00 + (c.toNat - 0x10000) % 0x400]

/-- `a < b` of two strings. -/
def textLt (a b : Text) : Bool := utf16 a < utf16 b

theorem not_surrogate (c : Char) : c.toNat < 0xd800 ∨ 0xdfff < c.toNat ∧ c.toNat < 0x110000 :=
  c.valid

/-- The code units before a string tell its first character from any other. -/
theorem utf16_cons_inj {c d : Char} {a b : Text} (h : utf16 (c :: a) = utf16 (d :: b)) :
    c = d ∧ utf16 a = utf16 b := by
  have hc := not_surrogate c
  have hd := not_surrogate d
  have hunits : c.toNat = d.toNat ∧ utf16 a = utf16 b := by
    unfold utf16 at h ⊢
    rw [List.flatMap_cons, List.flatMap_cons] at h
    split at h <;> split at h <;> simp only [List.cons_append, List.nil_append, List.cons.injEq] at h
    · exact h
    · omega
    · omega
    · exact ⟨by omega, h.2.2⟩
  exact ⟨Char.toNat_inj.mp hunits.1, hunits.2⟩

theorem utf16_injective {a b : Text} (h : utf16 a = utf16 b) : a = b := by
  have hne : ∀ (c : Char) (t : Text), utf16 (c :: t) ≠ [] := by
    intro c t
    unfold utf16
    rw [List.flatMap_cons]
    split <;> simp
  induction a generalizing b with
  | nil =>
    cases b with
    | nil => rfl
    | cons d b => exact absurd h.symm (hne d b)
  | cons c a ih =>
    cases b with
    | nil => exact absurd h (hne c a)
    | cons d b =>
      obtain ⟨rfl, htail⟩ := utf16_cons_inj h
      rw [ih htail]

/-! ## UTF-8 -/

/-- `Buffer.from(t, "utf8")`. -/
def utf8 (t : Text) : Bytes := t.flatMap String.utf8EncodeChar

/-- What is left of a decoded text without a byte order mark in front. -/
def dropMark : Text → Text
  | [] => []
  | c :: t => if c = '\ufeff' then t else c :: t

/-- `new TextDecoder("utf-8", { fatal: true }).decode(b)`; `none` where it throws. -/
def textDecode (b : Bytes) : Option Text :=
  b.toByteArray.utf8Decode?.map fun t => dropMark t.toList

/-- U+FEFF in UTF-8. -/
def byteOrderMark : Bytes := [0xef, 0xbb, 0xbf]

theorem utf8Decode_utf8 (t : Text) : (utf8 t).toByteArray.utf8Decode? = some t.toArray :=
  List.utf8Decode?_utf8Encode

/-- The mark comes first in the bytes where it comes first in the text. -/
theorem mark_prefix_utf8 (t : Text) :
    byteOrderMark <+: utf8 t ↔ t.head? = some '\ufeff' := by
  constructor
  · rintro ⟨rest, hrest⟩
    have hdecode := utf8Decode_utf8 t
    have hmark : (utf8 t).toByteArray = ['\ufeff'].utf8Encode ++ rest.toByteArray := by
      rw [← hrest, List.toByteArray_append]
      rfl
    rw [hmark, ByteArray.utf8Decode?_utf8Encode_singleton_append] at hdecode
    obtain ⟨tail, -, htail⟩ := Option.map_eq_some_iff.mp hdecode
    have hlist : '\ufeff' :: tail.toList = t := by simpa using congrArg Array.toList htail
    rw [← hlist]
    rfl
  · intro h
    cases t with
    | nil => cases h
    | cons c t =>
      cases h
      exact ⟨utf8 t, rfl⟩

theorem textDecode_utf8 (t : Text) (h : t.head? ≠ some '\ufeff') :
    textDecode (utf8 t) = some t := by
  unfold textDecode
  rw [utf8Decode_utf8, Option.map_some]
  cases t with
  | nil => rfl
  | cons c t =>
    refine congrArg some ?_
    show (if c = '\ufeff' then t else c :: t) = c :: t
    exact if_neg fun hc => h (congrArg some hc)

/-- Bytes without a mark are those of the text they decode to. -/
theorem utf8_of_textDecode (b : Bytes) (t : Text) (h : textDecode b = some t)
    (hmark : ¬byteOrderMark <+: b) : b = utf8 t := by
  obtain ⟨a, ha, hdrop⟩ := Option.map_eq_some_iff.mp h
  have hsome : b.toByteArray.utf8Decode?.isSome := by rw [ha]; rfl
  have hb : b.toByteArray = (utf8 a.toList).toByteArray := by
    have hencode := ByteArray.utf8Encode_get_utf8Decode? (h := hsome)
    simp only [ha, Option.get_some] at hencode
    exact hencode.symm
  have hbytes : b = utf8 a.toList := by
    have hdata := congrArg (fun x => x.data.toList) hb
    simpa using hdata
  rw [hbytes, mark_prefix_utf8] at hmark
  rw [hbytes, ← hdrop]
  cases hlist : a.toList with
  | nil => rfl
  | cons c rest =>
    rw [hlist] at hmark
    have hc : c ≠ '\ufeff' := fun hc => hmark (congrArg some hc)
    show utf8 (c :: rest) = utf8 (if c = '\ufeff' then rest else c :: rest)
    rw [if_neg hc]

/-! ## ASCII -/

/-- `b.toString("ascii")`. -/
def ascii (b : Bytes) : Text := b.map fun x => Char.ofNat (x.toNat % 128)

theorem toNat_ofNat_of_lt (n : Nat) (h : n < 128) : (Char.ofNat n).toNat = n := by
  have hall : ∀ m : Fin 128, (Char.ofNat m).toNat = m := by decide +kernel
  exact hall ⟨n, h⟩

/-- Without a high bit, no two byte strings have one text. -/
theorem ascii_injective {a b : Bytes} (ha : ∀ x ∈ a, x < 0x80) (hb : ∀ x ∈ b, x < 0x80)
    (h : ascii a = ascii b) : a = b := by
  induction a generalizing b with
  | nil =>
    cases b with
    | nil => rfl
    | cons y b => cases h
  | cons x a ih =>
    cases b with
    | nil => cases h
    | cons y b =>
      rw [List.forall_mem_cons] at ha hb
      obtain ⟨hxy, htail⟩ := List.cons.inj h
      have hx : x.toNat < 128 := UInt8.lt_iff_toNat_lt.mp ha.1
      have hy : y.toNat < 128 := UInt8.lt_iff_toNat_lt.mp hb.1
      have hnat : (Char.ofNat (x.toNat % 128)).toNat = (Char.ofNat (y.toNat % 128)).toNat :=
        congrArg Char.toNat hxy
      rw [Nat.mod_eq_of_lt hx, Nat.mod_eq_of_lt hy, toNat_ofNat_of_lt _ hx,
        toNat_ofNat_of_lt _ hy] at hnat
      rw [UInt8.toNat_inj.mp hnat, ih ha.2 hb.2 htail]

/-! ## Hexadecimal and base 64 -/

/-- `b.toString("hex")`. -/
def hex (b : Bytes) : Text :=
  b.flatMap fun x => [Nat.digitChar (x.toNat / 16), Nat.digitChar (x.toNat % 16)]

/-- `Buffer.from(t, "base64")`, of a text in the canonical shape. -/
def bufferFromBase64 (t : Text) : Bytes := (Base64.decode t).getD []

/-! ## JSON text -/

/-- `JSON.stringify` of a string. -/
def quote (t : Text) : Text :=
  '"' :: t.flatMap (fun c =>
    if c = '"' || c = '\\' then ['\\', c]
    else if c = '\n' then ['\\', 'n']
    else if c = '\r' then ['\\', 'r']
    else if c = '\t' then ['\\', 't']
    else if c = '\x08' then ['\\', 'b']
    else if c = '\x0c' then ['\\', 'f']
    else if c.toNat < 0x20 then
      ['\\', 'u', '0', '0', Nat.digitChar (c.toNat / 16), Nat.digitChar (c.toNat % 16)]
    else [c]) ++ ['"']

/-- `JSON.stringify` of an object, whose values are written already. -/
def object (fields : List (Text × Text)) : Text :=
  '{' :: join [','] (fields.map fun f => quote f.1 ++ ':' :: f.2) ++ ['}']

/-- `JSON.stringify` of an array. -/
def array (xs : List Text) : Text := '[' :: join [','] xs ++ [']']

end Js
