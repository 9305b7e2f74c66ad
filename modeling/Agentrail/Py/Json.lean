import Mathlib.Data.Char
import Mathlib.Data.List.Lex
import Mathlib.Data.List.Nodup
import Agentrail.Py.Basic
import Agentrail.Py.Dict
import Agentrail.Py.Re

/-!
# Python's `json` module

`dumps` writes a value as `json.dumps` does, with all but printable ASCII escaped;
`loads` is the reader of `json.loads`, which takes any JSON text.  A number with a
fraction or an exponent keeps its literal.  Strings are made of Unicode scalar
values: a lone half of a surrogate pair is not read.

`loads_dumps`: what was written without floats reads back.
-/

namespace Py

inductive Json where
  | null
  | bool (b : Bool)
  | int (n : Int)
  | float (literal : Text)
  | str (t : Text)
  | list (xs : List Json)
  | dict (fields : List (Text × Json))

/-! ## Writing -/

def hex4 (n : Nat) : Text :=
  [Nat.digitChar (n / 4096 % 16), Nat.digitChar (n / 256 % 16), Nat.digitChar (n / 16 % 16),
    Nat.digitChar (n % 16)]

def escapeCode (n : Nat) : Text := '\\' :: 'u' :: hex4 n

/-- What a character becomes between the quotes. -/
def escapeChar (c : Char) : Text :=
  if c = '"' then ['\\', '"']
  else if c = '\\' then ['\\', '\\']
  else if c = '\n' then ['\\', 'n']
  else if c = '\r' then ['\\', 'r']
  else if c = '\t' then ['\\', 't']
  else if c = '\x0c' then ['\\', 'f']
  else if c = '\x08' then ['\\', 'b']
  else if 0x20 ≤ c.toNat ∧ c.toNat ≤ 0x7e then [c]
  else if c.toNat < 0x10000 then escapeCode c.toNat
  else escapeCode (0xd800 + (c.toNat - 0x10000) / 1024) ++
    escapeCode (0xdc00 + (c.toNat - 0x10000) % 1024)

def quoted (t : Text) : Text := '"' :: (t.flatMap escapeChar ++ ['"'])

/-- `str(n)`. -/
def intText (n : Int) : Text :=
  if n < 0 then '-' :: Nat.toDigits 10 n.natAbs else Nat.toDigits 10 n.natAbs

structure Separators where
  item : Text
  key : Text

/-- `separators=(",", ":")`. -/
def compact : Separators := ⟨[','], [':']⟩

def defaultSeparators : Separators := ⟨[',', ' '], [':', ' ']⟩

section
variable (sep : Separators)

mutual

def dumps : Json → Text
  | .null => ['n', 'u', 'l', 'l']
  | .bool true => ['t', 'r', 'u', 'e']
  | .bool false => ['f', 'a', 'l', 's', 'e']
  | .int n => intText n
  | .float literal => literal
  | .str t => quoted t
  | .list [] => ['[', ']']
  | .list (x :: xs) => '[' :: (dumps x ++ dumpsItems xs)
  | .dict [] => ['{', '}']
  | .dict ((k, v) :: fields) => '{' :: (quoted k ++ sep.key ++ dumps v ++ dumpsFields fields)

/-- The items after the first one, and the bracket. -/
def dumpsItems : List Json → Text
  | [] => [']']
  | x :: xs => sep.item ++ dumps x ++ dumpsItems xs

def dumpsFields : List (Text × Json) → Text
  | [] => ['}']
  | (k, v) :: fields => sep.item ++ quoted k ++ sep.key ++ dumps v ++ dumpsFields fields

end

end

mutual

/-- `sort_keys=True`. -/
def sortKeys : Json → Json
  | .list xs => .list (sortKeysItems xs)
  | .dict fields => .dict ((sortKeysFields fields).mergeSort fun f g => f.1 ≤ g.1)
  | v => v

def sortKeysItems : List Json → List Json
  | [] => []
  | x :: xs => sortKeys x :: sortKeysItems xs

def sortKeysFields : List (Text × Json) → List (Text × Json)
  | [] => []
  | (k, v) :: fields => (k, sortKeys v) :: sortKeysFields fields

end

/-! ## Reading -/

def isJsonSpace (c : Char) : Bool := c = ' ' || c = '\t' || c = '\n' || c = '\r'

def skipSpace (t : Text) : Text := t.dropWhile isJsonSpace

def hexValue (c : Char) : Option Nat :=
  if '0' ≤ c && c ≤ '9' then some (c.toNat - 48)
  else if 'a' ≤ c && c ≤ 'f' then some (c.toNat - 87)
  else if 'A' ≤ c && c ≤ 'F' then some (c.toNat - 55)
  else none

def readHex4 : Text → Option (Nat × Text)
  | a :: b :: c :: d :: rest =>
    match hexValue a, hexValue b, hexValue c, hexValue d with
    | some a, some b, some c, some d => some (4096 * a + 256 * b + 16 * c + d, rest)
    | _, _, _, _ => none
  | _ => none

/-- What follows `\u`, with the second half of a surrogate pair. -/
def readCode (t : Text) : Option (Char × Text) :=
  match readHex4 t with
  | none => none
  | some (n, rest) =>
    if 0xd800 ≤ n ∧ n ≤ 0xdbff then
      match rest with
      | '\\' :: 'u' :: rest =>
        match readHex4 rest with
        | none => none
        | some (m, rest) =>
          if 0xdc00 ≤ m ∧ m ≤ 0xdfff then
            some (Char.ofNat (0x10000 + 1024 * (n - 0xd800) + (m - 0xdc00)), rest)
          else none
      | _ => none
    else if 0xdc00 ≤ n ∧ n ≤ 0xdfff then none
    else some (Char.ofNat n, rest)

def unescape (c : Char) : Option Char :=
  if c = '"' then some '"'
  else if c = '\\' then some '\\'
  else if c = '/' then some '/'
  else if c = 'b' then some '\x08'
  else if c = 'f' then some '\x0c'
  else if c = 'n' then some '\n'
  else if c = 'r' then some '\r'
  else if c = 't' then some '\t'
  else none

/-- One character of a string, escaped or not. -/
def readChar : Text → Option (Char × Text)
  | [] => none
  | c :: rest =>
    if c = '\\' then
      match rest with
      | [] => none
      | e :: rest =>
        if e = 'u' then readCode rest else (unescape e).map fun x => (x, rest)
    else if c.toNat < 0x20 then none
    else some (c, rest)

/-- The rest of a string after its opening quote. -/
def readString : Nat → Text → Option (Text × Text)
  | 0, _ => none
  | n + 1, t =>
    if t.head? = some '"' then some ([], t.tail)
    else match readChar t with
      | none => none
      | some (c, rest) => (readString n rest).map fun r => (c :: r.1, r.2)

/-- `0|[1-9][0-9]*`. -/
def readDigits : Text → Option (Text × Text)
  | [] => none
  | c :: rest =>
    if c = '0' then some (['0'], rest)
    else if isDigit09 c then some (c :: rest.takeWhile isDigit09, rest.dropWhile isDigit09)
    else none

/-- `(\.[0-9]+)?`. -/
def readFraction (t : Text) : Text × Text :=
  let digits := t.tail.takeWhile isDigit09
  if t.head? = some '.' ∧ digits ≠ [] then ('.' :: digits, t.tail.dropWhile isDigit09) else ([], t)

/-- `([eE][-+]?[0-9]+)?`. -/
def readExponent (t : Text) : Text × Text :=
  let sign := (t.tail.take 1).filter fun c => c = '-' || c = '+'
  let digits := (t.tail.drop sign.length).takeWhile isDigit09
  if (t.head? = some 'e' ∨ t.head? = some 'E') ∧ digits ≠ [] then
    (t.take 1 ++ sign ++ digits, (t.tail.drop sign.length).dropWhile isDigit09)
  else ([], t)

def readNumber (t : Text) : Option (Json × Text) :=
  let sign := (t.take 1).filter fun c => c = '-'
  match readDigits (t.drop sign.length) with
  | none => none
  | some (digits, rest) =>
    let (fraction, rest') := readFraction rest
    let (exponent, rest'') := readExponent rest'
    if fraction = [] ∧ exponent = [] then
      let n : Int := Nat.ofDigitChars 10 digits 0
      some (.int (if sign = [] then n else -n), rest)
    else some (.float (sign ++ digits ++ fraction ++ exponent), rest'')

/-- `t` without the word it starts with. -/
def readWord (word t : Text) : Option Text :=
  if word.isPrefixOf t then some (t.drop word.length) else none

/-- A value without items: a word or a number. -/
def readAtom (t : Text) : Option (Json × Text) :=
  ((readWord ['n', 'u', 'l', 'l'] t).map fun r => (.null, r)) <|>
  ((readWord ['t', 'r', 'u', 'e'] t).map fun r => (.bool true, r)) <|>
  ((readWord ['f', 'a', 'l', 's', 'e'] t).map fun r => (.bool false, r)) <|>
  readNumber t <|>
  ((readWord "NaN".toList t).map fun r => (.float "NaN".toList, r)) <|>
  ((readWord "Infinity".toList t).map fun r => (.float "Infinity".toList, r)) <|>
  ((readWord "-Infinity".toList t).map fun r => (.float "-Infinity".toList, r))

mutual

/-- The fuel is more than the length of the text. -/
def readValue : Nat → Text → Option (Json × Text)
  | 0, _ => none
  | n + 1, t =>
    if t.head? = some '"' then
      (readString t.length t.tail).map fun r => (.str r.1, r.2)
    else if t.head? = some '[' then
      if (skipSpace t.tail).head? = some ']' then some (.list [], (skipSpace t.tail).tail)
      else (readItems n (skipSpace t.tail)).map fun r => (.list r.1, r.2)
    else if t.head? = some '{' then
      if (skipSpace t.tail).head? = some '}' then some (.dict [], (skipSpace t.tail).tail)
      else (readFields n (skipSpace t.tail)).map fun r => (.dict (dictItems r.1), r.2)
    else readAtom t

def readItems : Nat → Text → Option (List Json × Text)
  | 0, _ => none
  | n + 1, t =>
    match readValue n t with
    | none => none
    | some (x, rest) =>
      if (skipSpace rest).head? = some ',' then
        (readItems n (skipSpace (skipSpace rest).tail)).map fun r => (x :: r.1, r.2)
      else if (skipSpace rest).head? = some ']' then some ([x], (skipSpace rest).tail)
      else none

def readFields : Nat → Text → Option (List (Text × Json) × Text)
  | 0, _ => none
  | n + 1, t =>
    if t.head? = some '"' then
      match readString t.length t.tail with
      | none => none
      | some (k, rest) =>
        if (skipSpace rest).head? = some ':' then
          match readValue n (skipSpace (skipSpace rest).tail) with
          | none => none
          | some (v, rest) =>
            if (skipSpace rest).head? = some ',' then
              (readFields n (skipSpace (skipSpace rest).tail)).map fun r => ((k, v) :: r.1, r.2)
            else if (skipSpace rest).head? = some '}' then
              some ([(k, v)], (skipSpace rest).tail)
            else none
        else none
    else none

end

/-- `d.get(key)` of a dict. -/
def Json.get (v : Json) (key : Text) : Option Json :=
  match v with
  | .dict fields => getItem key fields
  | _ => none

/-- `int(t)`; `none` is a `ValueError`. -/
def intOfText (t : Text) : Option Int :=
  let body := strip t
  let sign := (body.take 1).filter fun c => c = '-' || c = '+'
  let groups := splitOn1 '_' (body.drop sign.length)
  if groups.all fun g => g ≠ [] && g.all isDecimal then
    let n : Int := intOfDecimal groups.flatten
    some (if sign = ['-'] then -n else n)
  else none

/-- `json.loads`; `none` is a `JSONDecodeError`. -/
def loads (t : Text) : Option Json :=
  match readValue (t.length + 1) (skipSpace t) with
  | none => none
  | some (v, rest) => if skipSpace rest = [] then some v else none


/-! ## Strings read back -/

theorem hexValue_digitChar (n : Nat) (h : n < 16) : hexValue (Nat.digitChar n) = some n := by
  have hall : ∀ n, n < 16 → hexValue (Nat.digitChar n) = some n := by decide
  exact hall n h

theorem readHex4_hex4 (n : Nat) (rest : Text) (h : n < 0x10000) :
    readHex4 (hex4 n ++ rest) = some (n, rest) := by
  have hsum : 4096 * (n / 4096 % 16) + 256 * (n / 256 % 16) + 16 * (n / 16 % 16) + n % 16 = n := by
    omega
  unfold hex4 readHex4
  simp only [List.cons_append, List.nil_append]
  rw [hexValue_digitChar _ (by omega), hexValue_digitChar _ (by omega),
    hexValue_digitChar _ (by omega), hexValue_digitChar _ (by omega)]
  simp only [hsum]

/-- Surrogates are no characters. -/
theorem not_surrogate (c : Char) : c.toNat < 0xd800 ∨ 0xdfff < c.toNat ∧ c.toNat < 0x110000 :=
  c.valid

theorem readCode_code (c : Char) (rest : Text) (h : c.toNat < 0x10000) :
    readCode (hex4 c.toNat ++ rest) = some (c, rest) := by
  have hscalar := not_surrogate c
  unfold readCode
  rw [readHex4_hex4 _ _ h]
  simp only
  rw [if_neg (by omega), if_neg (by omega), Char.ofNat_toNat]

theorem readCode_pair (c : Char) (hi lo : Nat) (rest : Text) (hhi : 0xd800 ≤ hi ∧ hi ≤ 0xdbff)
    (hlo : 0xdc00 ≤ lo ∧ lo ≤ 0xdfff)
    (hc : 0x10000 + 1024 * (hi - 0xd800) + (lo - 0xdc00) = c.toNat) :
    readCode (hex4 hi ++ (escapeCode lo ++ rest)) = some (c, rest) := by
  have hhi4 : hi < 0x10000 := by omega
  have hlo4 : lo < 0x10000 := by omega
  unfold readCode escapeCode
  rw [readHex4_hex4 hi _ hhi4]
  simp only [List.cons_append]
  rw [if_pos hhi, readHex4_hex4 lo _ hlo4]
  simp only
  rw [if_pos hlo, hc, Char.ofNat_toNat]

theorem readChar_code (n : Nat) (rest : Text) :
    readChar (escapeCode n ++ rest) = readCode (hex4 n ++ rest) := rfl

/-- A written character reads back. -/
theorem readChar_escapeChar (c : Char) (rest : Text) :
    readChar (escapeChar c ++ rest) = some (c, rest) := by
  unfold escapeChar
  by_cases hquote : c = '"'
  · subst hquote
    rfl
  by_cases hback : c = '\\'
  · subst hback
    rfl
  by_cases hn : c = '\n'
  · subst hn
    rfl
  by_cases hr : c = '\r'
  · subst hr
    rfl
  by_cases ht : c = '\t'
  · subst ht
    rfl
  by_cases hf : c = '\x0c'
  · subst hf
    rfl
  by_cases hb : c = '\x08'
  · subst hb
    rfl
  rw [if_neg hquote, if_neg hback, if_neg hn, if_neg hr, if_neg ht, if_neg hf, if_neg hb]
  by_cases hprint : 0x20 ≤ c.toNat ∧ c.toNat ≤ 0x7e
  · rw [if_pos hprint]
    show (if c = '\\' then _ else if c.toNat < 0x20 then none else some (c, rest)) = _
    rw [if_neg hback, if_neg (by omega)]
  · rw [if_neg hprint]
    by_cases hbmp : c.toNat < 0x10000
    · rw [if_pos hbmp, readChar_code]
      exact readCode_code c rest hbmp
    · have hscalar := not_surrogate c
      rw [if_neg hbmp, List.append_assoc, readChar_code]
      generalize hhi : 0xd800 + (c.toNat - 0x10000) / 1024 = hi
      generalize hlo : 0xdc00 + (c.toNat - 0x10000) % 1024 = lo
      apply readCode_pair <;> omega

/-- No written character starts with the quote that ends a string. -/
theorem head_escapeChar (c : Char) (rest : Text) : (escapeChar c ++ rest).head? ≠ some '"' := by
  have hslash : (some '\\' : Option Char) ≠ some '"' := by decide
  unfold escapeChar
  by_cases hquote : c = '"'
  · rw [if_pos hquote]
    exact hslash
  rw [if_neg hquote]
  repeat' split
  all_goals first | exact hslash | (intro h; exact hquote (Option.some.inj h))

section
variable {escape : Char → Text}
variable (hread : ∀ c rest, readChar (escape c ++ rest) = some (c, rest))
include hread

/-- Characters that read back one by one, none of which starts with the quote, do so in a string. -/
theorem readString_escaped (hhead : ∀ c rest, (escape c ++ rest).head? ≠ some '"') (t rest : Text)
    (n : Nat) (h : t.length < n) :
    readString n (t.flatMap escape ++ '"' :: rest) = some (t, rest) := by
  induction t generalizing n with
  | nil =>
    obtain ⟨n, rfl⟩ : ∃ m, n = m + 1 := ⟨n - 1, by omega⟩
    rfl
  | cons c t ih =>
    rw [List.length_cons] at h
    obtain ⟨n, rfl⟩ : ∃ m, n = m + 1 := ⟨n - 1, by omega⟩
    rw [List.flatMap_cons, List.append_assoc]
    unfold readString
    rw [if_neg (hhead c _), hread]
    simp only
    rw [ih n (by omega)]
    rfl

theorem length_le_escaped (t : Text) : t.length ≤ (t.flatMap escape).length := by
  induction t with
  | nil => exact Nat.le_refl _
  | cons c t ih =>
    have hpos : 1 ≤ (escape c).length := by
      have hne : escape c ≠ [] := by
        intro h
        have hback := hread c []
        rw [h] at hback
        cases hback
      exact List.length_pos_iff.mpr hne
    rw [List.flatMap_cons, List.length_append, List.length_cons]
    omega

/-- The string in a longer text. -/
theorem readString_between (hhead : ∀ c rest, (escape c ++ rest).head? ≠ some '"')
    (t rest : Text) :
    readString ('"' :: (t.flatMap escape ++ ['"']) ++ rest).length
        ('"' :: (t.flatMap escape ++ ['"']) ++ rest).tail = some (t, rest) := by
  have htail : ('"' :: (t.flatMap escape ++ ['"']) ++ rest).tail =
      t.flatMap escape ++ '"' :: rest := by
    simp
  have hlen : t.length < ('"' :: (t.flatMap escape ++ ['"']) ++ rest).length := by
    have hle := length_le_escaped hread t
    simp only [List.length_append, List.length_cons]
    omega
  rw [htail, readString_escaped hread hhead t rest _ hlen]

end

theorem readString_quoted (t rest : Text) :
    readString (quoted t ++ rest).length (quoted t ++ rest).tail = some (t, rest) :=
  readString_between readChar_escapeChar head_escapeChar t rest

/-! ## Numbers read back -/

theorem isDigit09_of_isDigit (c : Char) (h : c.isDigit) : isDigit09 c := by
  have hd := Char.isDigit_iff_toNat.mp h
  unfold isDigit09
  simp only [Bool.and_eq_true, decide_eq_true_eq]
  exact ⟨hd.1, hd.2⟩

theorem isDigit_of_isDigit09 (c : Char) (h : isDigit09 c = true) : c.isDigit = true := by
  unfold isDigit09 at h
  simp only [Bool.and_eq_true, decide_eq_true_eq] at h
  exact Char.isDigit_iff_toNat.mpr h

theorem digitChar_isDigit_value (c : Char) (h : c.isDigit = true) :
    Nat.digitChar (c.toNat - '0'.toNat) = c := by
  have hd := Char.isDigit_iff_toNat.mp h
  have hall : ∀ d : Fin 10, Nat.digitChar d = Char.ofNat (48 + d) := by decide
  have h0 : '0'.toNat = 48 := rfl
  have h9 : '9'.toNat = 57 := rfl
  have hc := hall ⟨c.toNat - 48, by omega⟩
  have hsum : 48 + (c.toNat - 48) = c.toNat := by omega
  rw [h0, hc]
  simp only [hsum, Char.ofNat_toNat]

/-- Digits without a leading zero are how their number is written. -/
theorem toDigits_ofDigitChars (ds : Text) : (∀ c ∈ ds, c.isDigit = true) → ds ≠ [] →
    ds.head? ≠ some '0' →
    0 < Nat.ofDigitChars 10 ds 0 ∧ Nat.toDigits 10 (Nat.ofDigitChars 10 ds 0) = ds := by
  induction ds using List.reverseRecOn with
  | nil => exact fun _ h => absurd rfl h
  | append_singleton ds c ih =>
    intro hdigits _ hhead
    have hc := hdigits c (by simp)
    have hback := digitChar_isDigit_value c hc
    have hrange := Char.isDigit_iff_toNat.mp hc
    have h0 : '0'.toNat = 48 := rfl
    have h9 : '9'.toNat = 57 := rfl
    have hvalue : Nat.ofDigitChars 10 (ds ++ [c]) 0 =
        10 * Nat.ofDigitChars 10 ds 0 + (c.toNat - '0'.toNat) := by
      rw [Nat.ofDigitChars_append]
      rfl
    rw [hvalue]
    by_cases hds : ds = []
    · subst hds
      have hne : c.toNat ≠ 48 := fun h => hhead (by
        rw [← Char.ofNat_toNat c, h]
        rfl)
      rw [Nat.ofDigitChars_nil, Nat.mul_zero, Nat.zero_add,
        Nat.toDigits_of_lt_base (by omega), hback]
      exact ⟨by omega, rfl⟩
    · obtain ⟨d, ds', rfl⟩ := List.exists_cons_of_ne_nil hds
      obtain ⟨hpos, hrest⟩ := ih (fun x hx => hdigits x (List.mem_append_left _ hx)) hds hhead
      refine ⟨by omega, ?_⟩
      rw [← Nat.toDigits_append_toDigits (by decide) hpos (by omega), hrest,
        Nat.toDigits_of_lt_base (by omega), hback]

/-- A number above zero is not written with a leading zero. -/
theorem toDigits_head (n : Nat) (h : 0 < n) :
    ∃ c ds, Nat.toDigits 10 n = c :: ds ∧ c ≠ '0' := by
  induction n using Nat.strongRecOn with
  | ind n ih =>
    by_cases hlt : n < 10
    · refine ⟨Nat.digitChar n, [], Nat.toDigits_of_lt_base hlt, ?_⟩
      rw [Ne, Nat.digitChar_eq_zero]
      omega
    · obtain ⟨c, ds, hds, hc⟩ := ih (n / 10) (by omega) (by omega)
      refine ⟨c, ds ++ [Nat.digitChar (n % 10)], ?_, hc⟩
      rw [Nat.toDigits_of_base_le (by decide) (by omega), hds]
      rfl

/-- What may follow a number that has neither fraction nor exponent. -/
def EndsNumber (rest : Text) : Prop :=
  ∀ c, rest.head? = some c → isDigit09 c = false ∧ c ≠ '.' ∧ c ≠ 'e' ∧ c ≠ 'E'

theorem takeWhile_digits (ds rest : Text) (h : ∀ c ∈ ds, isDigit09 c) (hr : EndsNumber rest) :
    (ds ++ rest).takeWhile isDigit09 = ds ∧ (ds ++ rest).dropWhile isDigit09 = rest := by
  induction ds with
  | nil =>
    cases rest with
    | nil => exact ⟨rfl, rfl⟩
    | cons c rest =>
      have hc := (hr c rfl).1
      simp [hc]
  | cons c ds ih =>
    obtain ⟨htake, hdrop⟩ := ih fun d hd => h d (List.mem_cons_of_mem _ hd)
    have hc := h c List.mem_cons_self
    simp [hc, htake, hdrop]

theorem readDigits_toDigits (n : Nat) (rest : Text) (hr : EndsNumber rest) :
    readDigits (Nat.toDigits 10 n ++ rest) = some (Nat.toDigits 10 n, rest) := by
  rcases Nat.eq_zero_or_pos n with rfl | hpos
  · rfl
  · obtain ⟨c, ds, hds, hc⟩ := toDigits_head n hpos
    have hdigit : ∀ d ∈ c :: ds, isDigit09 d := fun d hd =>
      isDigit09_of_isDigit d (Nat.isDigit_of_mem_toDigits (by decide) (by decide) (hds ▸ hd))
    obtain ⟨htake, hdrop⟩ :=
      takeWhile_digits ds rest (fun d hd => hdigit d (List.mem_cons_of_mem _ hd)) hr
    rw [hds]
    show readDigits (c :: (ds ++ rest)) = _
    rw [readDigits, if_neg hc, if_pos (hdigit c List.mem_cons_self), htake, hdrop]

theorem readFraction_end (rest : Text) (hr : EndsNumber rest) : readFraction rest = ([], rest) := by
  unfold readFraction
  rw [if_neg]
  rintro ⟨hhead, _⟩
  exact (hr _ hhead).2.1 rfl

theorem readExponent_end (rest : Text) (hr : EndsNumber rest) : readExponent rest = ([], rest) := by
  unfold readExponent
  rw [if_neg]
  rintro ⟨hhead | hhead, _⟩
  · exact (hr _ hhead).2.2.1 rfl
  · exact (hr _ hhead).2.2.2 rfl

theorem readNumber_intText (n : Int) (rest : Text) (hr : EndsNumber rest) :
    readNumber (intText n ++ rest) = some (.int n, rest) := by
  have hvalue : Nat.ofDigitChars 10 (Nat.toDigits 10 n.natAbs) 0 = n.natAbs :=
    Nat.ofDigitChars_ten_toDigits
  by_cases hneg : n < 0
  · have hsign : ((intText n ++ rest).take 1).filter (fun c => c = '-') = ['-'] := by
      simp [intText, hneg]
    have hdrop : (intText n ++ rest).drop 1 = Nat.toDigits 10 n.natAbs ++ rest := by
      simp [intText, hneg]
    unfold readNumber
    simp only [hsign, List.length_singleton, hdrop]
    rw [readDigits_toDigits _ _ hr]
    have habs : -(n.natAbs : Int) = n := by omega
    have hne : ['-'] ≠ [] := List.cons_ne_nil _ _
    simp only [readFraction_end _ hr, readExponent_end _ hr, hvalue, and_self, if_true]
    rw [if_neg hne, habs]
  · obtain ⟨c, ds, hds⟩ := List.exists_cons_of_ne_nil (Nat.toDigits_ne_nil (n := n.natAbs) (b := 10))
    have hc : c ≠ '-' := by
      intro he
      have hdigit : c.isDigit := Nat.isDigit_of_mem_toDigits (n := n.natAbs) (by decide) (by decide)
        (hds ▸ List.mem_cons_self)
      rw [he] at hdigit
      exact absurd hdigit (by decide)
    have hsign : ((intText n ++ rest).take 1).filter (fun c => c = '-') = [] := by
      simp [intText, hneg, hds, hc]
    have hdrop : (intText n ++ rest).drop 0 = Nat.toDigits 10 n.natAbs ++ rest := by
      simp [intText, hneg]
    unfold readNumber
    simp only [hsign, List.length_nil, hdrop]
    rw [readDigits_toDigits _ _ hr]
    have habs : (n.natAbs : Int) = n := by omega
    simp only [readFraction_end _ hr, readExponent_end _ hr, hvalue, and_self, if_true, habs]

theorem splitOn1_of_notMem (c : Char) (t : Text) (h : c ∉ t) : splitOn1 c t = [t] := by
  induction t with
  | nil => rfl
  | cons d t ih =>
    rw [List.mem_cons, not_or] at h
    unfold splitOn1
    rw [if_neg fun he => h.1 he.symm, ih h.2]

theorem decimalValue_of_isDigit (c : Char) (h : c.isDigit) :
    decimalValue c = some (c.toNat - '0'.toNat) := by
  have hd := Char.isDigit_iff_toNat.mp h
  have h0 : '0'.toNat = 0x30 := rfl
  have h9 : '9'.toNat = 57 := rfl
  unfold decimalValue decimalZeros
  rw [List.find?_cons_of_pos]
  · rfl
  · simp only [Bool.and_eq_true, decide_eq_true_eq]
    omega

theorem intOfDecimal_digits (ds : Text) (h : ∀ c ∈ ds, c.isDigit) :
    intOfDecimal ds = Nat.ofDigitChars 10 ds 0 := by
  have hfold : ∀ n, ds.foldl (fun n c => 10 * n + (decimalValue c).getD 0) n =
      Nat.ofDigitChars 10 ds n := by
    induction ds with
    | nil => exact fun n => rfl
    | cons c ds ih =>
      intro n
      rw [List.foldl_cons, decimalValue_of_isDigit c (h c List.mem_cons_self),
        ih fun d hd => h d (List.mem_cons_of_mem _ hd)]
      rfl
  exact hfold 0

theorem strip_of_notSpace (t : Text) (h : ∀ c ∈ t, isSpace c = false) : strip t = t := by
  have hdrop : ∀ s : Text, (∀ c ∈ s, isSpace c = false) → s.dropWhile isSpace = s := by
    intro s hs
    cases s with
    | nil => rfl
    | cons c s =>
      rw [List.dropWhile_cons_of_neg]
      simp [hs c List.mem_cons_self]
  unfold strip
  rw [hdrop t h, hdrop _ fun c hc => h c (List.mem_reverse.mp hc), List.reverse_reverse]

theorem not_isSpace_of_isDigit (c : Char) (h : c.isDigit) : isSpace c = false := by
  have hd := Char.isDigit_iff_toNat.mp h
  have h0 : '0'.toNat = 48 := rfl
  have h9 : '9'.toNat = 57 := rfl
  unfold isSpace
  simp only [Bool.or_eq_false_iff, Bool.and_eq_false_iff, decide_eq_false_iff_not,
    beq_eq_false_iff_ne]
  omega

/-- A printed number reads back. -/
theorem intOfText_intText (n : Int) : intOfText (intText n) = some n := by
  have hdigits : ∀ c ∈ Nat.toDigits 10 n.natAbs, c.isDigit := fun c hc =>
    Nat.isDigit_of_mem_toDigits (by decide) (by decide) hc
  have hvalue : intOfDecimal (Nat.toDigits 10 n.natAbs) = n.natAbs := by
    rw [intOfDecimal_digits _ hdigits]
    exact Nat.ofDigitChars_ten_toDigits
  have hsplit : splitOn1 '_' (Nat.toDigits 10 n.natAbs) = [Nat.toDigits 10 n.natAbs] := by
    apply splitOn1_of_notMem
    intro hin
    exact absurd (hdigits _ hin) (by decide)
  have hgroups : ([Nat.toDigits 10 n.natAbs].all fun g => g ≠ [] && g.all isDecimal) = true := by
    simp only [List.all_cons, List.all_nil, Bool.and_true, Bool.and_eq_true, decide_eq_true_eq,
      List.all_eq_true]
    refine ⟨Nat.toDigits_ne_nil, fun c hc => ?_⟩
    unfold isDecimal
    rw [decimalValue_of_isDigit c (hdigits c hc)]
    rfl
  have hstrip : strip (intText n) = intText n := by
    apply strip_of_notSpace
    intro c hc
    unfold intText at hc
    split at hc
    · rcases List.mem_cons.mp hc with rfl | hc
      · rfl
      · exact not_isSpace_of_isDigit c (hdigits c hc)
    · exact not_isSpace_of_isDigit c (hdigits c hc)
  unfold intOfText
  simp only [hstrip]
  by_cases hneg : n < 0
  · have hsign : ((intText n).take 1).filter (fun c => c = '-' || c = '+') = ['-'] := by
      simp [intText, hneg]
    have hdrop : (intText n).drop 1 = Nat.toDigits 10 n.natAbs := by
      simp [intText, hneg]
    simp only [hsign, List.length_singleton, hdrop, hsplit, hgroups, List.flatten_singleton, hvalue]
    have habs : -(n.natAbs : Int) = n := by omega
    simp only [if_true, habs]
  · obtain ⟨c, ds, hds⟩ :=
      List.exists_cons_of_ne_nil (Nat.toDigits_ne_nil (n := n.natAbs) (b := 10))
    have hc : c ≠ '-' ∧ c ≠ '+' := by
      have hdigit := hdigits c (hds ▸ List.mem_cons_self)
      constructor
      · rintro rfl
        exact absurd hdigit (by decide)
      · rintro rfl
        exact absurd hdigit (by decide)
    have hsign : ((intText n).take 1).filter (fun c => c = '-' || c = '+') = [] := by
      simp [intText, hneg, hds, hc]
    have hdrop : (intText n).drop 0 = Nat.toDigits 10 n.natAbs := by
      simp [intText, hneg]
    have habs : (n.natAbs : Int) = n := by omega
    have hne : [] ≠ ['-'] := (List.cons_ne_nil _ _).symm
    simp only [hsign, List.length_nil, hdrop, hsplit, hgroups, List.flatten_singleton, hvalue,
      if_true, habs]
    rw [if_neg hne]

theorem intText_injective (m n : Int) (h : intText m = intText n) : m = n := by
  have hm := intOfText_intText m
  rw [h, intOfText_intText] at hm
  exact (Option.some.inj hm).symm

/-! ## Values read back -/

mutual

/-- No floats, and the keys of a dict differ. -/
def Plain : Json → Prop
  | .float _ => False
  | .list xs => PlainItems xs
  | .dict fields => (fields.map Prod.fst).Nodup ∧ PlainFields fields
  | _ => True

def PlainItems : List Json → Prop
  | [] => True
  | x :: xs => Plain x ∧ PlainItems xs

def PlainFields : List (Text × Json) → Prop
  | [] => True
  | (_, v) :: fields => Plain v ∧ PlainFields fields

end

mutual

/-- The fuel that reading takes. -/
def fuel : Json → Nat
  | .list xs => 1 + fuelItems xs
  | .dict fields => 1 + fuelFields fields
  | _ => 1

def fuelItems : List Json → Nat
  | [] => 0
  | x :: xs => 1 + fuel x + fuelItems xs

def fuelFields : List (Text × Json) → Nat
  | [] => 0
  | (_, v) :: fields => 1 + fuel v + fuelFields fields

end

theorem intText_head (n : Int) : ∃ c rest, intText n = c :: rest ∧ (c = '-' ∨ isDigit09 c) := by
  unfold intText
  by_cases hneg : n < 0
  · rw [if_pos hneg]
    exact ⟨_, _, rfl, Or.inl rfl⟩
  · rw [if_neg hneg]
    obtain ⟨c, ds, hds⟩ :=
      List.exists_cons_of_ne_nil (Nat.toDigits_ne_nil (n := n.natAbs) (b := 10))
    refine ⟨c, ds, hds, Or.inr (isDigit09_of_isDigit c ?_)⟩
    exact Nat.isDigit_of_mem_toDigits (n := n.natAbs) (by decide) (by decide)
      (hds ▸ List.mem_cons_self)

/-- A way to write strings that read back. -/
structure Quoting where
  quote : Text → Text
  opens : ∀ t, ∃ rest, quote t = '"' :: rest
  reads : ∀ t rest, readString (quote t ++ rest).length (quote t ++ rest).tail = some (t, rest)

/-- `ensure_ascii=True`. -/
def asciiQuoting : Quoting := ⟨quoted, fun _ => ⟨_, rfl⟩, readString_quoted⟩

section
variable (Q : Quoting)

mutual

/-- A value without blanks between its parts. -/
def write : Json → Text
  | .null => ['n', 'u', 'l', 'l']
  | .bool true => ['t', 'r', 'u', 'e']
  | .bool false => ['f', 'a', 'l', 's', 'e']
  | .int n => intText n
  | .float literal => literal
  | .str t => Q.quote t
  | .list [] => ['[', ']']
  | .list (x :: xs) => '[' :: (write x ++ writeItems xs)
  | .dict [] => ['{', '}']
  | .dict ((k, v) :: fields) => '{' :: (Q.quote k ++ (':' :: (write v ++ writeFields fields)))

def writeItems : List Json → Text
  | [] => [']']
  | x :: xs => ',' :: (write x ++ writeItems xs)

def writeFields : List (Text × Json) → Text
  | [] => ['}']
  | (k, v) :: fields => ',' :: (Q.quote k ++ (':' :: (write v ++ writeFields fields)))

end

theorem Quoting.head (t rest : Text) : (Q.quote t ++ rest).head? = some '"' := by
  obtain ⟨r, hr⟩ := Q.opens t
  rw [hr]
  rfl

/-- A written value starts with neither a blank nor a bracket that closes. -/
theorem write_head (v : Json) (h : Plain v) :
    ∃ c rest, write Q v = c :: rest ∧ isJsonSpace c = false ∧ c ≠ ']' := by
  cases v with
  | null => exact ⟨_, _, rfl, rfl, by decide⟩
  | bool b =>
    cases b
    · exact ⟨_, _, rfl, rfl, by decide⟩
    · exact ⟨_, _, rfl, rfl, by decide⟩
  | int n =>
    obtain ⟨c, rest, hn, hc⟩ := intText_head n
    refine ⟨c, rest, hn, ?_⟩
    rcases hc with rfl | hdigit
    · exact ⟨rfl, by decide⟩
    · constructor
      · by_contra hspace
        unfold isJsonSpace at hspace
        simp only [Bool.or_eq_false_iff, decide_eq_false_iff_not, not_and, not_not] at hspace
        revert hdigit
        by_cases h1 : c = ' '
        · subst h1
          decide
        by_cases h2 : c = '\t'
        · subst h2
          decide
        by_cases h3 : c = '\n'
        · subst h3
          decide
        · rw [hspace ⟨⟨h1, h2⟩, h3⟩]
          decide
      · rintro rfl
        exact absurd hdigit (by decide)
  | float literal => exact h.elim
  | str t =>
    obtain ⟨r, hr⟩ := Q.opens t
    exact ⟨_, _, hr, rfl, by decide⟩
  | list xs =>
    cases xs with
    | nil => exact ⟨_, _, rfl, rfl, by decide⟩
    | cons x xs => exact ⟨_, _, by rw [write], rfl, by decide⟩
  | dict fields =>
    cases fields with
    | nil => exact ⟨_, _, rfl, rfl, by decide⟩
    | cons f fields => exact ⟨_, _, by rw [write], rfl, by decide⟩

theorem skipSpace_cons (c : Char) (rest : Text) (h : isJsonSpace c = false) :
    skipSpace (c :: rest) = c :: rest := by
  unfold skipSpace
  rw [List.dropWhile_cons_of_neg]
  simp [h]

theorem Quoting.skip (t rest : Text) : skipSpace (Q.quote t ++ rest) = Q.quote t ++ rest := by
  obtain ⟨r, hr⟩ := Q.opens t
  rw [hr, List.cons_append, skipSpace_cons '"' _ rfl]

/-- Nothing is skipped before a written value. -/
theorem skipSpace_write (v : Json) (h : Plain v) (rest : Text) :
    skipSpace (write Q v ++ rest) = write Q v ++ rest := by
  obtain ⟨c, r, hv, hspace, _⟩ := write_head Q v h
  rw [hv, List.cons_append, skipSpace_cons c _ hspace]

theorem endsNumber_cons (c : Char) (rest : Text)
    (h : isDigit09 c = false ∧ c ≠ '.' ∧ c ≠ 'e' ∧ c ≠ 'E') : EndsNumber (c :: rest) := by
  intro d hd
  cases hd
  exact h

theorem endsNumber_items (xs : List Json) (rest : Text) :
    EndsNumber (writeItems Q xs ++ rest) := by
  cases xs with
  | nil => exact endsNumber_cons _ _ (by decide)
  | cons x xs =>
    rw [writeItems]
    exact endsNumber_cons ',' _ (by decide)

theorem endsNumber_fields (fields : List (Text × Json)) (rest : Text) :
    EndsNumber (writeFields Q fields ++ rest) := by
  cases fields with
  | nil => exact endsNumber_cons _ _ (by decide)
  | cons f fields =>
    rw [writeFields]
    exact endsNumber_cons ',' _ (by decide)

theorem readAtom_intText (n : Int) (rest : Text) (hr : EndsNumber rest) :
    readAtom (intText n ++ rest) = some (.int n, rest) := by
  obtain ⟨c, r, hn, hc⟩ := intText_head n
  have hword : ∀ (w : Char) (word : Text), isDigit09 w = false → w ≠ '-' →
      readWord (w :: word) (intText n ++ rest) = none := by
    intro w word hdigit hminus
    unfold readWord
    rw [hn, if_neg]
    intro hprefix
    have hwc : w = c := by
      have hp := List.isPrefixOf_iff_prefix.mp hprefix
      exact (List.cons_prefix_cons.mp hp).1
    rcases hc with rfl | hd
    · exact hminus hwc
    · rw [← hwc, hdigit] at hd
      cases hd
  unfold readAtom
  rw [hword 'n' _ (by decide) (by decide), hword 't' _ (by decide) (by decide),
    hword 'f' _ (by decide) (by decide), readNumber_intText n rest hr]
  rfl

/-- A word or a number is read as one. -/
theorem readValue_atom (n : Nat) (c : Char) (rest : Text)
    (h : c ≠ '"' ∧ c ≠ '[' ∧ c ≠ '{') : readValue (n + 1) (c :: rest) = readAtom (c :: rest) := by
  have hne : ∀ d : Char, c ≠ d → (c :: rest).head? ≠ some d := by
    intro d hd he
    exact hd (Option.some.inj he)
  rw [readValue, if_neg (hne _ h.1), if_neg (hne _ h.2.1), if_neg (hne _ h.2.2)]

theorem readValue_int (n : Nat) (i : Int) (rest : Text) (hr : EndsNumber rest) :
    readValue (n + 1) (intText i ++ rest) = some (.int i, rest) := by
  rw [← readAtom_intText i rest hr]
  obtain ⟨c, r, hi, hc⟩ := intText_head i
  rw [hi]
  refine readValue_atom n c (r ++ rest) ?_
  rcases hc with rfl | hd
  · decide
  · refine ⟨?_, ?_, ?_⟩ <;>
    · rintro rfl
      exact absurd hd (by decide)

theorem readValue_quote (n : Nat) (t rest : Text) :
    readValue (n + 1) (Q.quote t ++ rest) = some (.str t, rest) := by
  rw [readValue, if_pos (Q.head t rest), Q.reads]
  rfl

theorem readValue_list (n : Nat) (t : Text) : readValue (n + 1) ('[' :: t) =
    if (skipSpace t).head? = some ']' then some (.list [], (skipSpace t).tail)
    else (readItems n (skipSpace t)).map fun r => (.list r.1, r.2) := by
  have hquote : ('[' :: t).head? ≠ some '"' := fun h => absurd (Option.some.inj h) (by decide)
  rw [readValue, if_neg hquote, if_pos List.head?_cons, List.tail_cons]

theorem readValue_dict (n : Nat) (t : Text) : readValue (n + 1) ('{' :: t) =
    if (skipSpace t).head? = some '}' then some (.dict [], (skipSpace t).tail)
    else (readFields n (skipSpace t)).map fun r => (.dict (dictItems r.1), r.2) := by
  have hquote : ('{' :: t).head? ≠ some '"' := fun h => absurd (Option.some.inj h) (by decide)
  have hbracket : ('{' :: t).head? ≠ some '[' := fun h => absurd (Option.some.inj h) (by decide)
  rw [readValue, if_neg hquote, if_neg hbracket, if_pos List.head?_cons, List.tail_cons]

/-- What reading with the fuel `n` does to written values, items and fields. -/
structure Reads (n : Nat) : Prop where
  value : ∀ v rest, Plain v → fuel v ≤ n → EndsNumber rest →
    readValue n (write Q v ++ rest) = some (v, rest)
  items : ∀ x xs rest, Plain x → PlainItems xs → 1 + fuel x + fuelItems xs ≤ n →
    readItems n (write Q x ++ (writeItems Q xs ++ rest)) = some (x :: xs, rest)
  fields : ∀ k v fields rest, Plain v → PlainFields fields → 1 + fuel v + fuelFields fields ≤ n →
    readFields n (Q.quote k ++ (':' :: (write Q v ++ (writeFields Q fields ++ rest)))) =
      some ((k, v) :: fields, rest)

section
variable {Q} {n : Nat} (ih : Reads Q n)
include ih

theorem Reads.value_succ (v : Json) (rest : Text) (hp : Plain v) (hn : fuel v ≤ n + 1)
    (hr : EndsNumber rest) : readValue (n + 1) (write Q v ++ rest) = some (v, rest) := by
  cases v with
  | null => rfl
  | bool b => cases b <;> rfl
  | int i => exact readValue_int n i rest hr
  | float literal => exact hp.elim
  | str t => exact readValue_quote Q n t rest
  | list xs =>
    cases xs with
    | nil => rfl
    | cons x xs =>
      obtain ⟨hx, hxs⟩ := hp
      have htext : write Q (.list (x :: xs)) ++ rest =
          '[' :: (write Q x ++ (writeItems Q xs ++ rest)) := by
        rw [write, List.cons_append, List.append_assoc]
      obtain ⟨c, r, hc, _, hbracket⟩ := write_head Q x hx
      have hhead : (write Q x ++ (writeItems Q xs ++ rest)).head? ≠ some ']' := by
        rw [hc]
        intro he
        exact hbracket (Option.some.inj he)
      have hfuel : 1 + fuel x + fuelItems xs ≤ n := by
        simp only [fuel, fuelItems] at hn
        omega
      rw [htext, readValue_list, skipSpace_write Q x hx, if_neg hhead,
        ih.items x xs rest hx hxs hfuel]
      rfl
  | dict fields =>
    cases fields with
    | nil => rfl
    | cons f fields =>
      obtain ⟨k, v⟩ := f
      obtain ⟨hnodup, hv, hfields⟩ := hp
      have htext : write Q (.dict ((k, v) :: fields)) ++ rest = '{' ::
          (Q.quote k ++ (':' :: (write Q v ++ (writeFields Q fields ++ rest)))) := by
        rw [write]
        simp
      have hfuel : 1 + fuel v + fuelFields fields ≤ n := by
        simp only [fuel, fuelFields] at hn
        omega
      have hhead : ∀ r, (Q.quote k ++ r).head? ≠ some '}' := by
        intro r he
        rw [Q.head] at he
        exact absurd (Option.some.inj he) (by decide)
      rw [htext, readValue_dict, Q.skip, if_neg (hhead _), ih.fields k v fields rest hv hfields hfuel]
      show some (Json.dict (dictItems ((k, v) :: fields)), rest) = _
      rw [dictItems_of_nodup _ hnodup]

theorem Reads.items_succ (x : Json) (xs : List Json) (rest : Text) (hx : Plain x)
    (hxs : PlainItems xs) (hn : 1 + fuel x + fuelItems xs ≤ n + 1) :
    readItems (n + 1) (write Q x ++ (writeItems Q xs ++ rest)) =
      some (x :: xs, rest) := by
  rw [readItems, ih.value x _ hx (by omega) (endsNumber_items Q xs rest)]
  simp only
  cases xs with
  | nil => rfl
  | cons y ys =>
    obtain ⟨hy, hys⟩ := hxs
    have htext : writeItems Q (y :: ys) ++ rest =
        ',' :: (write Q y ++ (writeItems Q ys ++ rest)) := by
      rw [writeItems]
      simp
    have hfuel : 1 + fuel y + fuelItems ys ≤ n := by
      simp only [fuelItems] at hn
      omega
    rw [htext, skipSpace_cons ',' _ rfl, if_pos (by rfl), List.tail_cons, skipSpace_write Q y hy,
      ih.items y ys rest hy hys hfuel]
    rfl

theorem Reads.fields_succ (k : Text) (v : Json) (fields : List (Text × Json)) (rest : Text)
    (hv : Plain v) (hfields : PlainFields fields)
    (hn : 1 + fuel v + fuelFields fields ≤ n + 1) :
    readFields (n + 1)
        (Q.quote k ++ (':' :: (write Q v ++ (writeFields Q fields ++ rest)))) =
      some ((k, v) :: fields, rest) := by
  rw [readFields, if_pos (Q.head k _), Q.reads]
  simp only
  rw [skipSpace_cons ':' _ rfl, if_pos (by rfl), List.tail_cons, skipSpace_write Q v hv,
    ih.value v _ hv (by omega) (endsNumber_fields Q fields rest)]
  simp only
  cases fields with
  | nil => rfl
  | cons f fields =>
    obtain ⟨k', v'⟩ := f
    obtain ⟨hv', hfields'⟩ := hfields
    have htext : writeFields Q ((k', v') :: fields) ++ rest = ',' ::
        (Q.quote k' ++ (':' :: (write Q v' ++ (writeFields Q fields ++ rest)))) := by
      rw [writeFields]
      simp
    have hfuel : 1 + fuel v' + fuelFields fields ≤ n := by
      simp only [fuelFields] at hn
      omega
    rw [htext, skipSpace_cons ',' _ rfl, if_pos (by rfl), List.tail_cons, Q.skip,
      ih.fields k' v' fields rest hv' hfields' hfuel]
    rfl

end

theorem fuel_pos (v : Json) : 0 < fuel v := by
  cases v <;> simp only [fuel] <;> omega

theorem reads (n : Nat) : Reads Q n := by
  induction n with
  | zero =>
    constructor
    · intro v rest _ hn _
      have hpos := fuel_pos v
      omega
    · intro x xs rest _ _ hn
      omega
    · intro k v fields rest _ _ hn
      omega
  | succ n ih => exact ⟨ih.value_succ, ih.items_succ, ih.fields_succ⟩

mutual

/-- The text is long enough. -/
theorem fuel_le (v : Json) (h : Plain v) : fuel v ≤ (write Q v).length := by
  cases v with
  | null => simp [fuel, write]
  | bool b => cases b <;> simp [fuel, write]
  | int n =>
    obtain ⟨c, rest, hn, _⟩ := intText_head n
    show 1 ≤ (intText n).length
    rw [hn]
    simp
  | float literal => exact h.elim
  | str t =>
    obtain ⟨r, hr⟩ := Q.opens t
    simp [fuel, write, hr]
  | list xs =>
    cases xs with
    | nil => simp [fuel, fuelItems, write]
    | cons x xs =>
      have hx := fuel_le x h.1
      have hxs := fuelItems_le xs h.2
      simp only [fuel, fuelItems, write, List.length_cons, List.length_append]
      omega
  | dict fields =>
    cases fields with
    | nil => simp [fuel, fuelFields, write]
    | cons f fields =>
      obtain ⟨k, v⟩ := f
      have hv := fuel_le v h.2.1
      have hfields := fuelFields_le fields h.2.2
      simp only [fuel, fuelFields, write, List.length_cons, List.length_append]
      omega

theorem fuelItems_le (xs : List Json) (h : PlainItems xs) :
    fuelItems xs + 1 ≤ (writeItems Q xs).length := by
  cases xs with
  | nil => simp [fuelItems, writeItems]
  | cons x xs =>
    have hx := fuel_le x h.1
    have hxs := fuelItems_le xs h.2
    simp only [fuelItems, writeItems, List.length_cons, List.length_append] at hx hxs ⊢
    omega

theorem fuelFields_le (fields : List (Text × Json)) (h : PlainFields fields) :
    fuelFields fields + 1 ≤ (writeFields Q fields).length := by
  cases fields with
  | nil => simp [fuelFields, writeFields]
  | cons f fields =>
    obtain ⟨k, v⟩ := f
    have hv := fuel_le v h.1
    have hfields := fuelFields_le fields h.2
    simp only [fuelFields, writeFields, List.length_cons, List.length_append] at hv hfields ⊢
    omega

end

/-- **What was written without floats reads back.** -/
theorem loads_write (v : Json) (h : Plain v) : loads (write Q v) = some v := by
  have hskip : skipSpace (write Q v) = write Q v := by
    have hsame := skipSpace_write Q v h []
    rwa [List.append_nil] at hsame
  have hread : readValue ((write Q v).length + 1) (write Q v) = some (v, []) := by
    have hvalue := (reads Q ((write Q v).length + 1)).value v [] h
      (Nat.le_succ_of_le (fuel_le Q v h)) nofun
    rwa [List.append_nil] at hvalue
  unfold loads
  rw [hskip, hread]
  rfl

end

mutual

theorem dumps_eq_write (v : Json) : dumps compact v = write asciiQuoting v := by
  cases v with
  | null | int | float | str => rfl
  | bool b => cases b <;> rfl
  | list xs =>
    cases xs with
    | nil => rfl
    | cons x xs => rw [dumps, write, dumps_eq_write x, dumpsItems_eq_write xs]
  | dict fields =>
    cases fields with
    | nil => rfl
    | cons f fields =>
      obtain ⟨k, v⟩ := f
      rw [dumps, write, dumps_eq_write v, dumpsFields_eq_write fields]
      simp [compact, asciiQuoting]

theorem dumpsItems_eq_write (xs : List Json) :
    dumpsItems compact xs = writeItems asciiQuoting xs := by
  cases xs with
  | nil => rfl
  | cons x xs =>
    rw [dumpsItems, writeItems, dumps_eq_write x, dumpsItems_eq_write xs]
    simp [compact]

theorem dumpsFields_eq_write (fields : List (Text × Json)) :
    dumpsFields compact fields = writeFields asciiQuoting fields := by
  cases fields with
  | nil => rfl
  | cons f fields =>
    obtain ⟨k, v⟩ := f
    rw [dumpsFields, writeFields, dumps_eq_write v, dumpsFields_eq_write fields]
    simp [compact, asciiQuoting]

end

theorem loads_dumps (v : Json) (h : Plain v) : loads (dumps compact v) = some v := by
  rw [dumps_eq_write]
  exact loads_write asciiQuoting v h

/-! ## What is written is printable ASCII -/

def Printable (t : Text) : Prop := ∀ c ∈ t, 0x20 ≤ c.toNat ∧ c.toNat ≤ 0x7e

theorem Printable.append {t t' : Text} (h : Printable t) (h' : Printable t') :
    Printable (t ++ t') := by
  intro c hc
  rcases List.mem_append.mp hc with hc | hc
  · exact h c hc
  · exact h' c hc

theorem Printable.cons {c : Char} {t : Text} (hc : 0x20 ≤ c.toNat ∧ c.toNat ≤ 0x7e)
    (h : Printable t) : Printable (c :: t) := by
  intro d hd
  rcases List.mem_cons.mp hd with rfl | hd
  · exact hc
  · exact h d hd

theorem printable_nil : Printable [] := by
  intro c hc
  cases hc

theorem printable_escapeCode (n : Nat) : Printable (escapeCode n) := by
  have hdigit : ∀ d, d < 16 → 0x20 ≤ (Nat.digitChar d).toNat ∧ (Nat.digitChar d).toNat ≤ 0x7e := by
    decide
  unfold escapeCode hex4
  refine .cons (by decide) (.cons (by decide) ?_)
  refine .cons (hdigit _ (by omega)) (.cons (hdigit _ (by omega)) ?_)
  exact .cons (hdigit _ (by omega)) (.cons (hdigit _ (by omega)) printable_nil)

theorem printable_escapeChar (c : Char) : Printable (escapeChar c) := by
  have hshort : ∀ d : Char, 0x20 ≤ d.toNat ∧ d.toNat ≤ 0x7e → Printable ['\\', d] := fun d hd =>
    .cons (by decide) (.cons hd printable_nil)
  unfold escapeChar
  by_cases hprint : 0x20 ≤ c.toNat ∧ c.toNat ≤ 0x7e
  · rw [if_pos hprint]
    repeat' split
    all_goals first
      | exact hshort _ (by decide)
      | exact .cons hprint printable_nil
  · rw [if_neg hprint]
    repeat' split
    all_goals first
      | exact hshort _ (by decide)
      | exact printable_escapeCode _
      | exact (printable_escapeCode _).append (printable_escapeCode _)

theorem printable_quoted (t : Text) : Printable (quoted t) := by
  unfold quoted
  refine .cons (by decide) (.append ?_ (.cons (by decide) printable_nil))
  intro c hc
  obtain ⟨d, _, hd⟩ := List.mem_flatMap.mp hc
  exact printable_escapeChar d c hd

theorem printable_intText (n : Int) : Printable (intText n) := by
  have hdigits : Printable (Nat.toDigits 10 n.natAbs) := by
    intro c hc
    have hd := Char.isDigit_iff_toNat.mp (Nat.isDigit_of_mem_toDigits (by decide) (by decide) hc)
    have h0 : '0'.toNat = 48 := rfl
    have h9 : '9'.toNat = 57 := rfl
    omega
  unfold intText
  by_cases hneg : n < 0
  · rw [if_pos hneg]
    exact .cons (by decide) hdigits
  · rw [if_neg hneg]
    exact hdigits

theorem printable_comma {t : Text} (h : Printable t) : Printable (',' :: t) := .cons (by decide) h

mutual

theorem printable_dumps (v : Json) (h : Plain v) : Printable (dumps compact v) := by
  cases v with
  | null => exact .cons (by decide) (.cons (by decide) (.cons (by decide) (.cons (by decide)
      printable_nil)))
  | bool b =>
    cases b with
    | false => exact .cons (by decide) (.cons (by decide) (.cons (by decide) (.cons (by decide)
        (.cons (by decide) printable_nil))))
    | true => exact .cons (by decide) (.cons (by decide) (.cons (by decide) (.cons (by decide)
        printable_nil)))
  | int n => exact printable_intText n
  | float literal => exact h.elim
  | str t => exact printable_quoted t
  | list xs =>
    cases xs with
    | nil => exact .cons (by decide) (.cons (by decide) printable_nil)
    | cons x xs =>
      rw [dumps]
      exact .cons (by decide) ((printable_dumps x h.1).append (printable_dumpsItems xs h.2))
  | dict fields =>
    cases fields with
    | nil => exact .cons (by decide) (.cons (by decide) printable_nil)
    | cons f fields =>
      obtain ⟨k, v⟩ := f
      rw [dumps]
      refine .cons (by decide) (.append (.append (.append (printable_quoted k) ?_) ?_) ?_)
      · exact .cons (by decide) printable_nil
      · exact printable_dumps v h.2.1
      · exact printable_dumpsFields fields h.2.2

theorem printable_dumpsItems (xs : List Json) (h : PlainItems xs) :
    Printable (dumpsItems compact xs) := by
  cases xs with
  | nil => exact .cons (by decide) printable_nil
  | cons x xs =>
    rw [dumpsItems]
    exact .append (.append (printable_comma printable_nil) (printable_dumps x h.1))
      (printable_dumpsItems xs h.2)

theorem printable_dumpsFields (fields : List (Text × Json)) (h : PlainFields fields) :
    Printable (dumpsFields compact fields) := by
  cases fields with
  | nil => exact .cons (by decide) printable_nil
  | cons f fields =>
    obtain ⟨k, v⟩ := f
    rw [dumpsFields]
    refine .append (.append (.append (.append ?_ (printable_quoted k)) ?_) ?_) ?_
    · exact printable_comma printable_nil
    · exact .cons (by decide) printable_nil
    · exact printable_dumps v h.1
    · exact printable_dumpsFields fields h.2

end

end Py
