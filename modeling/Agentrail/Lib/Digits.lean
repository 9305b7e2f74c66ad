import Mathlib.Data.Nat.Digits.Lemmas

/-!
# Digit lists, highest digit first

`index b l` is the number that the digits `l` write in base `b`.  Between lists of
one length with digits below `b` the lexicographic order is the order of the
numbers.  A list that an increment took out of range (`Carried`: one digit is `b`
and all after it are zero) writes the number of the carried-out list, and is below
every other list of that number (`index_lt_or_carried`).
-/

namespace Digits

variable {b : ℕ}

def index (b : ℕ) (l : List ℕ) : ℕ := Nat.ofDigits b l.reverse

theorem index_cons (d : ℕ) (l : List ℕ) : index b (d :: l) = index b l + b ^ l.length * d :=
  Nat.ofDigits_reverse_cons l d

theorem index_append (u v : List ℕ) :
    index b (u ++ v) = index b v + b ^ v.length * index b u := by
  unfold index
  rw [List.reverse_append, Nat.ofDigits_append, List.length_reverse]

theorem index_zeros (k : ℕ) : index b (List.replicate k 0) = 0 := by
  induction k with
  | zero => rfl
  | succ k ih =>
    rw [List.replicate_succ, index_cons, ih]
    omega

theorem index_append_zeros (l : List ℕ) (k : ℕ) :
    index b (l ++ List.replicate k 0) = b ^ k * index b l := by
  rw [index_append, index_zeros, List.length_replicate, Nat.zero_add]

/-- Reading the digits one by one. -/
theorem foldl_eq_index (l : List ℕ) : l.foldl (fun n d => n * b + d) 0 = index b l := by
  induction l using List.reverseRecOn with
  | nil => rfl
  | append_singleton l d ih =>
    rw [List.foldl_append, List.foldl_cons, List.foldl_nil, ih, index_append]
    simp [index, Nat.mul_comm, Nat.add_comm]

def Proper (b : ℕ) (l : List ℕ) : Prop := ∀ d ∈ l, d < b

/-- One digit is `b`, those before it are below, and those after it are zero. -/
def Carried (b : ℕ) : List ℕ → Prop
  | [] => False
  | d :: l => (d = b ∧ ∀ x ∈ l, x = 0) ∨ (d < b ∧ Carried b l)

theorem index_lt (hb : 1 < b) (l : List ℕ) (h : Proper b l) : index b l < b ^ l.length := by
  have hlt := Nat.ofDigits_lt_base_pow_length hb (l := l.reverse)
    fun x hx => h x (List.mem_reverse.mp hx)
  rwa [List.length_reverse] at hlt

theorem index_injective (hb : 1 < b) (l r : List ℕ) (hlen : l.length = r.length)
    (hl : Proper b l) (hr : Proper b r) (h : index b l = index b r) : l = r := by
  have hrev := Nat.ofDigits_inj_of_len_eq hb (by simpa using hlen)
    (fun x hx => hl x (List.mem_reverse.mp hx)) (fun x hx => hr x (List.mem_reverse.mp hx)) h
  exact List.reverse_injective hrev

/-- Every number below `b ^ k` is written by `k` digits. -/
theorem exists_digits (hb : 1 < b) (k n : ℕ) (h : n < b ^ k) :
    ∃ l, l.length = k ∧ Proper b l ∧ index b l = n := by
  refine ⟨(Nat.digitsAppend b k n).reverse, ?_, ?_, ?_⟩
  · rw [List.length_reverse, Nat.length_digitsAppend hb k h]
  · intro d hd
    exact Nat.lt_of_mem_digitsAppend hb k d (List.mem_reverse.mp hd)
  · unfold index
    rw [List.reverse_reverse]
    unfold Nat.digitsAppend
    rw [Nat.ofDigits_append_replicate_zero, Nat.ofDigits_digits]

/-! ## Carries -/

theorem eq_zeros (l : List ℕ) (h : ∀ x ∈ l, x = 0) : l = List.replicate l.length 0 :=
  List.eq_replicate_of_mem h

theorem not_carried (l : List ℕ) (h : Proper b l) : ¬Carried b l := by
  induction l with
  | nil => exact id
  | cons d l ih =>
    rintro (⟨rfl, _⟩ | ⟨_, hc⟩)
    · exact absurd (h d List.mem_cons_self) (Nat.lt_irrefl d)
    · exact ih (fun x hx => h x (List.mem_cons_of_mem d hx)) hc

theorem carried_append_zeros (l : List ℕ) (k : ℕ) (h : Carried b l) :
    Carried b (l ++ List.replicate k 0) := by
  induction l with
  | nil => exact h.elim
  | cons d l ih =>
    rcases h with ⟨hd, hz⟩ | ⟨hd, hc⟩
    · left
      refine ⟨hd, fun x hx => ?_⟩
      rcases List.mem_append.mp hx with hx | hx
      · exact hz x hx
      · exact List.eq_of_mem_replicate hx
    · exact Or.inr ⟨hd, ih hc⟩

theorem carried_of_append_zeros (l : List ℕ) (k : ℕ) (hb : 0 < b)
    (h : Carried b (l ++ List.replicate k 0)) : Carried b l := by
  induction l with
  | nil =>
    refine absurd h (not_carried _ fun x hx => ?_)
    rw [List.eq_of_mem_replicate hx]
    exact hb
  | cons d l ih =>
    rcases h with ⟨hd, hz⟩ | ⟨hd, hc⟩
    · exact Or.inl ⟨hd, fun x hx => hz x (List.mem_append_left _ hx)⟩
    · exact Or.inr ⟨hd, ih hc⟩

theorem proper_append_zeros (hb : 0 < b) (l : List ℕ) (k : ℕ) (h : Proper b l) :
    Proper b (l ++ List.replicate k 0) := by
  intro x hx
  rcases List.mem_append.mp hx with hx | hx
  · exact h x hx
  · rw [List.eq_of_mem_replicate hx]
    exact hb

/-- What `index` reaches, and where. -/
theorem index_le_of_carried (hb : 1 < b) (l : List ℕ) (h : Carried b l) :
    index b l ≤ b ^ l.length := by
  induction l with
  | nil => exact h.elim
  | cons d l ih =>
    rw [index_cons, List.length_cons, Nat.pow_succ]
    rcases h with ⟨rfl, hz⟩ | ⟨hd, hc⟩
    · rw [eq_zeros l hz, index_zeros, List.length_replicate, Nat.zero_add]
    · calc index b l + b ^ l.length * d ≤ b ^ l.length + b ^ l.length * d :=
            Nat.add_le_add_right (ih hc) _
        _ = b ^ l.length * (d + 1) := by ring
        _ ≤ b ^ l.length * b := Nat.mul_le_mul_left _ hd

/-- What a bound of a range may be. -/
def InRange (b : ℕ) (l : List ℕ) : Prop := Proper b l ∨ Carried b l

theorem InRange.append_zeros (hb : 0 < b) (l : List ℕ) (k : ℕ) (h : InRange b l) :
    InRange b (l ++ List.replicate k 0) := by
  rcases h with h | h
  · exact Or.inl (proper_append_zeros hb l k h)
  · exact Or.inr (carried_append_zeros l k h)

theorem InRange.index_le (hb : 1 < b) (l : List ℕ) (h : InRange b l) :
    index b l ≤ b ^ l.length := by
  rcases h with h | h
  · exact (index_lt hb l h).le
  · exact index_le_of_carried hb l h

/-- The first digit and the rest of a list in range. -/
theorem InRange.of_cons (d : ℕ) (l : List ℕ) (h : InRange b (d :: l)) :
    (d < b ∧ InRange b l) ∨ (d = b ∧ ∀ x ∈ l, x = 0) := by
  rcases h with h | ⟨hd, hz⟩ | ⟨hd, hc⟩
  · exact Or.inl ⟨h d List.mem_cons_self, Or.inl fun x hx => h x (List.mem_cons_of_mem d hx)⟩
  · exact Or.inr ⟨hd, hz⟩
  · exact Or.inl ⟨hd, Or.inr hc⟩

/-! ## Order -/

/-- **The lexicographic order is the order of the numbers**, but for a carried list, which comes
before the others of its number. -/
theorem index_lt_or_carried (hb : 1 < b) (l r : List ℕ) (hlen : l.length = r.length)
    (hl : InRange b l) (hr : InRange b r) (h : l < r) :
    index b l < index b r ∨ (index b l = index b r ∧ Carried b l) := by
  induction l generalizing r with
  | nil =>
    have hnil := List.eq_nil_of_length_eq_zero hlen.symm
    subst hnil
    exact absurd h (List.not_lt_nil _)
  | cons c l ih =>
    obtain ⟨d, r, rfl⟩ := List.exists_cons_of_length_eq_add_one hlen.symm
    have hlen' : l.length = r.length := by simpa using hlen
    have hpos : 0 < b ^ r.length := Nat.pow_pos (by omega)
    have hd : d ≤ b := by
      rcases hr.of_cons with ⟨hd, _⟩ | ⟨hd, _⟩ <;> omega
    rw [index_cons, index_cons, hlen']
    rcases List.cons_lt_cons_iff.mp h with hcd | ⟨rfl, hlr⟩
    · -- the first digits differ
      rcases hl.of_cons with ⟨hc, hl'⟩ | ⟨hc, _⟩
      · have hle := hl'.index_le hb l
        rw [hlen'] at hle
        have hstep : b ^ r.length * (c + 1) ≤ b ^ r.length * d := Nat.mul_le_mul_left _ hcd
        rw [Nat.mul_succ] at hstep
        rcases Nat.lt_or_ge (index b l + b ^ r.length * c) (index b r + b ^ r.length * d) with
          hlt | hge
        · exact Or.inl hlt
        · right
          refine ⟨by omega, Or.inr ⟨hc, ?_⟩⟩
          rcases hl' with hp | hcar
          · have hlt := index_lt hb l hp
            rw [hlen'] at hlt
            omega
          · exact hcar
      · omega
    · -- they are the same, and the rest decides
      rcases hl.of_cons with ⟨hc, hl'⟩ | ⟨hc, hz⟩
      · rcases hr.of_cons with ⟨_, hr'⟩ | ⟨hc', _⟩
        · rcases ih r hlen' hl' hr' hlr with hlt | ⟨heq, hcar⟩
          · exact Or.inl (by omega)
          · exact Or.inr ⟨by omega, Or.inr ⟨hc, hcar⟩⟩
        · omega
      · rcases hr.of_cons with ⟨hc', _⟩ | ⟨_, hz'⟩
        · omega
        · rw [eq_zeros l hz, eq_zeros r hz', hlen'] at hlr
          exact absurd hlr (List.lt_irrefl _)

/-! ## Increments -/

/-- One more at the place `i`, and zeros after it. -/
def bump : ℕ → List ℕ → List ℕ
  | _, [] => []
  | 0, d :: l => (d + 1) :: l.map fun _ => 0
  | i + 1, d :: l => d :: bump i l

theorem length_bump (i : ℕ) (l : List ℕ) : (bump i l).length = l.length := by
  fun_induction bump i l with
  | case1 => rfl
  | case2 => simp
  | case3 i d l ih => simp [ih]

theorem bump_inRange (i : ℕ) (l : List ℕ) (hb : 0 < b) (h : Proper b l) :
    InRange b (bump i l) := by
  fun_induction bump i l with
  | case1 => exact Or.inl h
  | case2 d l =>
    have hz : ∀ x ∈ l.map fun _ => 0, x = 0 := by simp
    have hd := h d List.mem_cons_self
    rcases Nat.lt_or_ge (d + 1) b with hlt | hge
    · left
      intro x hx
      rcases List.mem_cons.mp hx with rfl | hx
      · exact hlt
      · rw [hz x hx]
        exact hb
    · exact Or.inr (Or.inl ⟨by omega, hz⟩)
  | case3 i d l ih =>
    have hd := h d List.mem_cons_self
    rcases ih fun x hx => h x (List.mem_cons_of_mem d hx) with hp | hc
    · left
      intro x hx
      rcases List.mem_cons.mp hx with rfl | hx
      · exact hd
      · exact hp x hx
    · exact Or.inr (Or.inr ⟨hd, hc⟩)

/-- An increment of the last digit adds one. -/
theorem index_bump_last (l : List ℕ) (h : l ≠ []) :
    index b (bump (l.length - 1) l) = index b l + 1 := by
  induction l with
  | nil => exact absurd rfl h
  | cons d l ih =>
    cases l with
    | nil => simp [bump, index]
    | cons d' l =>
      have hrest := ih (List.cons_ne_nil d' l)
      show index b (d :: bump ((d' :: l).length - 1) (d' :: l)) = _
      rw [index_cons, index_cons, hrest, length_bump]
      omega

end Digits
