import Mathlib.Data.List.Basic

/-!
# Base 64 (RFC 4648, section 4)

`encode` and a strict `decode` of byte lists, padded.  `decode` accepts unused
trailing bits, as common decoders do; a caller that wants canonical text
compares the re-encoding.  `decode_encode` is the round trip.
-/

namespace Base64

def alphabet : List Char :=
  ['A', 'B', 'C', 'D', 'E', 'F', 'G', 'H', 'I', 'J', 'K', 'L', 'M',
   'N', 'O', 'P', 'Q', 'R', 'S', 'T', 'U', 'V', 'W', 'X', 'Y', 'Z',
   'a', 'b', 'c', 'd', 'e', 'f', 'g', 'h', 'i', 'j', 'k', 'l', 'm',
   'n', 'o', 'p', 'q', 'r', 's', 't', 'u', 'v', 'w', 'x', 'y', 'z',
   '0', '1', '2', '3', '4', '5', '6', '7', '8', '9', '+', '/']

def digitChar (n : Nat) : Char := alphabet.getD n 'A'

def charDigit (c : Char) : Option Nat :=
  if c ∈ alphabet then some (alphabet.idxOf c) else none

theorem charDigit_digitChar (n : Nat) (h : n < 64) : charDigit (digitChar n) = some n := by
  have : ∀ m : Fin 64, charDigit (digitChar m) = some m.val := by decide +kernel
  exact this ⟨n, h⟩

/-- The 24 bits of three bytes as four digits, first digit first. -/
def digits (n : Nat) : List Char :=
  [digitChar (n / 262144 % 64), digitChar (n / 4096 % 64), digitChar (n / 64 % 64),
   digitChar (n % 64)]

def encode : List UInt8 → List Char
  | [] => []
  | [a] => (digits (a.toNat * 65536)).take 2 ++ ['=', '=']
  | [a, b] => (digits (a.toNat * 65536 + b.toNat * 256)).take 3 ++ ['=']
  | a :: b :: c :: bs => digits (a.toNat * 65536 + b.toNat * 256 + c.toNat) ++ encode bs

def decode : List Char → Option (List UInt8)
  | [] => some []
  | [c1, c2, '=', '='] => do
    let d1 ← charDigit c1
    let d2 ← charDigit c2
    some [UInt8.ofNat ((d1 * 64 + d2) / 16)]
  | [c1, c2, c3, '='] => do
    let d1 ← charDigit c1
    let d2 ← charDigit c2
    let d3 ← charDigit c3
    let n := (d1 * 4096 + d2 * 64 + d3) / 4
    some [UInt8.ofNat (n / 256), UInt8.ofNat (n % 256)]
  | c1 :: c2 :: c3 :: c4 :: cs => do
    let d1 ← charDigit c1
    let d2 ← charDigit c2
    let d3 ← charDigit c3
    let d4 ← charDigit c4
    let n := d1 * 262144 + d2 * 4096 + d3 * 64 + d4
    let rest ← decode cs
    some (UInt8.ofNat (n / 65536) :: UInt8.ofNat (n / 256 % 256) :: UInt8.ofNat (n % 256) :: rest)
  | _ => none

theorem digitChar_ne_pad (n : Nat) (h : n < 64) : digitChar n ≠ '=' := by
  have : ∀ m : Fin 64, digitChar m ≠ '=' := by decide +kernel
  exact this ⟨n, h⟩

theorem ofNat_eq_of_toNat (a : UInt8) (n : Nat) (h : n = a.toNat) : UInt8.ofNat n = a := by
  subst h; simp

theorem decode_encode (bs : List UInt8) : decode (encode bs) = some bs := by
  induction bs using encode.induct with
  | case1 => rfl
  | case2 a =>
    have ha := a.toNat_lt
    simp only [encode, digits, List.take_succ_cons, List.take_zero, List.cons_append,
      List.nil_append, decode]
    rw [charDigit_digitChar _ (by omega), charDigit_digitChar _ (by omega)]
    simp only [Option.bind_eq_bind, Option.bind_some]
    rw [ofNat_eq_of_toNat a _ (by omega)]
  | case3 a b =>
    have ha := a.toNat_lt
    have hb := b.toNat_lt
    simp only [encode, digits, List.take_succ_cons, List.take_zero, List.cons_append,
      List.nil_append]
    have hp := digitChar_ne_pad ((a.toNat * 65536 + b.toNat * 256) / 64 % 64) (by omega)
    rw [decode.eq_3 _ _ _ (fun h => hp h)]
    rw [charDigit_digitChar _ (by omega), charDigit_digitChar _ (by omega),
      charDigit_digitChar _ (by omega)]
    simp only [Option.bind_eq_bind, Option.bind_some]
    rw [ofNat_eq_of_toNat a _ (by omega), ofNat_eq_of_toNat b _ (by omega)]
  | case4 a b c bs ih =>
    have ha := a.toNat_lt
    have hb := b.toNat_lt
    have hc := c.toNat_lt
    simp only [encode, digits, List.cons_append, List.nil_append]
    have hp := digitChar_ne_pad ((a.toNat * 65536 + b.toNat * 256 + c.toNat) % 64) (by omega)
    rw [decode.eq_4 _ _ _ _ _ (fun _ h => absurd h hp) (fun h => absurd h hp)]
    rw [charDigit_digitChar _ (by omega), charDigit_digitChar _ (by omega),
      charDigit_digitChar _ (by omega), charDigit_digitChar _ (by omega), ih]
    simp only [Option.bind_eq_bind, Option.bind_some]
    rw [ofNat_eq_of_toNat a _ (by omega), ofNat_eq_of_toNat b _ (by omega),
      ofNat_eq_of_toNat c _ (by omega)]

/-- Encoded text is made of digits and padding. -/
theorem mem_encode (bs : List UInt8) : ∀ c ∈ encode bs, c ∈ alphabet ∨ c = '=' := by
  have hd : ∀ n, digitChar (n % 64) ∈ alphabet := by
    have : ∀ m : Fin 64, digitChar m ∈ alphabet := by decide +kernel
    exact fun n => this ⟨n % 64, Nat.mod_lt _ (by omega)⟩
  induction bs using encode.induct with
  | case1 => simp [encode]
  | case2 a => simp only [encode, digits]; intro c hc; simp at hc; grind
  | case3 a b => simp only [encode, digits]; intro c hc; simp at hc; grind
  | case4 a b c bs ih =>
    intro x hx
    simp only [encode, digits, List.mem_append] at hx
    rcases hx with hx | hx
    · simp at hx; grind
    · exact ih x hx

/-- Each three bytes, full or not, take four characters. -/
theorem length_encode (bs : List UInt8) : (encode bs).length = 4 * ((bs.length + 2) / 3) := by
  induction bs using encode.induct with
  | case1 => rfl
  | case2 a => simp [encode, digits]
  | case3 a b => simp [encode, digits]
  | case4 a b c bs ih =>
    simp only [encode, digits, List.length_append, ih, List.length_cons, List.length_nil]
    omega

/-- One pad, after two bytes more than a multiple of three. -/
theorem encode_pad_one (bs : List UInt8) (h : bs.length % 3 = 2) :
    ∃ ds, encode bs = ds ++ ['='] ∧ ∀ c ∈ ds, c ∈ alphabet := by
  have hd : ∀ n, digitChar (n % 64) ∈ alphabet := by
    have : ∀ m : Fin 64, digitChar m ∈ alphabet := by decide +kernel
    exact fun n => this ⟨n % 64, Nat.mod_lt _ (by omega)⟩
  induction bs using encode.induct with
  | case1 => simp at h
  | case2 a => simp at h
  | case3 a b =>
    refine ⟨(digits (a.toNat * 65536 + b.toNat * 256)).take 3, rfl, ?_⟩
    intro c hc
    simp only [digits, List.take_succ_cons, List.take_zero, List.mem_cons, List.not_mem_nil,
      or_false] at hc
    rcases hc with rfl | rfl | rfl <;> exact hd _
  | case4 a b c bs ih =>
    simp only [List.length_cons] at h
    obtain ⟨ds, hds, hmem⟩ := ih (by omega)
    refine ⟨digits (a.toNat * 65536 + b.toNat * 256 + c.toNat) ++ ds, ?_, ?_⟩
    · rw [encode, hds, List.append_assoc]
    · intro x hx
      rcases List.mem_append.mp hx with hx | hx
      · simp only [digits, List.mem_cons, List.not_mem_nil, or_false] at hx
        rcases hx with rfl | rfl | rfl | rfl <;> exact hd _
      · exact hmem x hx

end Base64
