import Mathlib.Data.List.TakeWhile
import Agentrail.Py.Json

/-!
# JSON texts from the outside

`scan` goes over a text and keeps only how deep it is inside brackets and whether it
is inside a string.  The reader of JSON agrees with it (`Moves`, `readValue_moves`):
an object is read to where `scan` finds its end (`loads_scan`).  The letter `v` is in
no JSON text outside of the strings, so a scan that meets one there fails.
-/

namespace Py

/-- How deep inside brackets, and whether inside a string (there one bracket deeper). -/
inductive Mode where
  | out (depth : Nat)
  | str (depth : Nat)
  | esc (depth : Nat)
  deriving DecidableEq

/-- After the outermost bracket only blanks follow. -/
def Mode.step : Mode → Char → Option Mode
  | .out 0, c => if isJsonSpace c then some (.out 0) else none
  | .out (d + 1), c =>
    if c = '"' then some (.str d)
    else if c = '{' ∨ c = '[' then some (.out (d + 2))
    else if c = '}' ∨ c = ']' then some (.out d)
    else if c = 'v' then none
    else some (.out (d + 1))
  | .str d, c =>
    if c = '"' then some (.out (d + 1)) else if c = '\\' then some (.esc d) else some (.str d)
  | .esc d, _ => some (.str d)

def scan (m : Mode) : Text → Option Mode
  | [] => some m
  | c :: t => (m.step c).bind fun m' => scan m' t

theorem scan_append (m : Mode) (s t : Text) :
    scan m (s ++ t) = (scan m s).bind fun m' => scan m' t := by
  induction s generalizing m with
  | nil => rfl
  | cons c s ih =>
    show (m.step c).bind _ = ((m.step c).bind _).bind _
    rw [Option.bind_assoc]
    congr 1
    funext m'
    exact ih m'

/-! ## Depths -/

/-- The same, some brackets deeper. -/
def Mode.shift (k : Nat) : Mode → Mode
  | .out d => .out (d + k)
  | .str d => .str (d + k)
  | .esc d => .esc (d + k)

theorem isJsonSpace_cases (c : Char) (h : isJsonSpace c = true) :
    c = ' ' ∨ c = '\t' ∨ c = '\n' ∨ c = '\r' := by
  unfold isJsonSpace at h
  simpa [or_assoc] using h

theorem step_space (d : Nat) (c : Char) (h : isJsonSpace c = true) :
    (Mode.out d).step c = some (.out d) := by
  cases d with
  | zero => exact if_pos h
  | succ d => rcases isJsonSpace_cases c h with rfl | rfl | rfl | rfl <;> rfl

theorem step_shift (m m' : Mode) (c : Char) (k : Nat) (h : m.step c = some m') :
    (m.shift k).step c = some (m'.shift k) := by
  cases m with
  | out d =>
    cases d with
    | zero =>
      change (if isJsonSpace c then some (Mode.out 0) else none) = some m' at h
      split at h
      · next hc =>
        obtain rfl := Option.some.inj h
        exact step_space _ c hc
      · cases h
    | succ d =>
      have hd : d + 1 + k = d + k + 1 := by omega
      show (Mode.out (d + 1 + k)).step c = _
      rw [hd]
      simp only [Mode.step] at h ⊢
      split at h
      · next hc =>
        obtain rfl := Option.some.inj h
        rw [if_pos hc]
        rfl
      next hquote =>
      rw [if_neg hquote]
      split at h
      · next hc =>
        obtain rfl := Option.some.inj h
        rw [if_pos hc]
        show some (Mode.out (d + k + 2)) = some (Mode.out (d + 2 + k))
        rw [show d + 2 + k = d + k + 2 by omega]
      next hopen =>
      rw [if_neg hopen]
      split at h
      · next hc =>
        obtain rfl := Option.some.inj h
        rw [if_pos hc]
        rfl
      next hclose =>
      rw [if_neg hclose]
      split at h
      · cases h
      · next hv =>
        obtain rfl := Option.some.inj h
        rw [if_neg hv]
        show some (Mode.out (d + k + 1)) = some (Mode.out (d + 1 + k))
        rw [hd]
  | str d =>
    show (Mode.str (d + k)).step c = _
    simp only [Mode.step] at h ⊢
    split at h
    · next hc =>
      obtain rfl := Option.some.inj h
      rw [if_pos hc]
      show some (Mode.out (d + k + 1)) = some (Mode.out (d + 1 + k))
      rw [show d + 1 + k = d + k + 1 by omega]
    next hquote =>
    rw [if_neg hquote]
    split at h
    · next hc =>
      obtain rfl := Option.some.inj h
      rw [if_pos hc]
      rfl
    · next hc =>
      obtain rfl := Option.some.inj h
      rw [if_neg hc]
      rfl
  | esc d =>
    obtain rfl := Option.some.inj h
    rfl

theorem scan_shift (m m' : Mode) (t : Text) (k : Nat) (h : scan m t = some m') :
    scan (m.shift k) t = some (m'.shift k) := by
  induction t generalizing m with
  | nil =>
    obtain rfl := Option.some.inj h
    rfl
  | cons c t ih =>
    obtain ⟨n, hstep, hrest⟩ := Option.bind_eq_some_iff.mp h
    show ((m.shift k).step c).bind _ = _
    rw [step_shift m n c k hstep]
    exact ih n hrest

/-! ## The reader -/

/-- What is read up to `rest` takes the scan from one mode to the other. -/
def Moves (m : Mode) (t : Text) (m' : Mode) (rest : Text) : Prop :=
  ∃ w, t = w ++ rest ∧ scan m w = some m'

theorem Moves.refl (m : Mode) (t : Text) : Moves m t m t := ⟨[], rfl, rfl⟩

theorem Moves.trans {m m' m'' : Mode} {t t' t'' : Text} (h : Moves m t m' t')
    (h' : Moves m' t' m'' t'') : Moves m t m'' t'' := by
  obtain ⟨w, rfl, hw⟩ := h
  obtain ⟨w', rfl, hw'⟩ := h'
  refine ⟨w ++ w', by rw [List.append_assoc], ?_⟩
  rw [scan_append, hw]
  exact hw'

theorem Moves.cons {m n m' : Mode} {c : Char} {t rest : Text} (hstep : m.step c = some n)
    (h : Moves n t m' rest) : Moves m (c :: t) m' rest := by
  obtain ⟨w, rfl, hw⟩ := h
  refine ⟨c :: w, rfl, ?_⟩
  show (m.step c).bind _ = _
  rw [hstep]
  exact hw

/-- The mode stays the same over characters that leave it as it is. -/
theorem Moves.stay {m : Mode} (w rest : Text) (h : ∀ c ∈ w, m.step c = some m) :
    Moves m (w ++ rest) m rest := by
  refine ⟨w, rfl, ?_⟩
  induction w with
  | nil => rfl
  | cons c w ih =>
    show (m.step c).bind _ = _
    rw [h c List.mem_cons_self]
    exact ih fun d hd => h d (List.mem_cons_of_mem c hd)

theorem skipSpace_moves (d : Nat) (t : Text) : Moves (.out d) t (.out d) (skipSpace t) := by
  have h := Moves.stay (m := .out d) (t.takeWhile isJsonSpace) (t.dropWhile isJsonSpace)
    fun c hc => step_space d c (List.mem_takeWhile_imp hc)
  rwa [List.takeWhile_append_dropWhile] at h

/-- Blanks, and the character after them. -/
theorem Moves.skip {d : Nat} {m' m'' : Mode} {t rest : Text} {c : Char}
    (hhead : (skipSpace t).head? = some c) (hstep : (Mode.out d).step c = some m')
    (h : Moves m' (skipSpace t).tail m'' rest) : Moves (.out d) t m'' rest := by
  refine (skipSpace_moves d t).trans ?_
  obtain ⟨s, hs⟩ := List.head?_eq_some_iff.mp hhead
  rw [hs] at h ⊢
  exact Moves.cons hstep h

theorem hexValue_plain (c : Char) (n : Nat) (h : hexValue c = some n) : c ≠ '"' ∧ c ≠ '\\' := by
  constructor
  · rintro rfl
    cases h.symm.trans (by decide : hexValue '"' = none)
  · rintro rfl
    cases h.symm.trans (by decide : hexValue '\\' = none)

theorem readHex4_moves (d n : Nat) (t rest : Text) (h : readHex4 t = some (n, rest)) :
    Moves (.str d) t (.str d) rest := by
  unfold readHex4 at h
  split at h
  · next a b c e rest' =>
    split at h
    · next ha hb hc he =>
      obtain ⟨-, rfl⟩ := Prod.mk.inj (Option.some.inj h)
      refine Moves.stay [a, b, c, e] rest' fun x hx => ?_
      have hplain : x ≠ '"' ∧ x ≠ '\\' := by
        simp only [List.mem_cons, List.not_mem_nil, or_false] at hx
        rcases hx with rfl | rfl | rfl | rfl
        · exact hexValue_plain _ _ ha
        · exact hexValue_plain _ _ hb
        · exact hexValue_plain _ _ hc
        · exact hexValue_plain _ _ he
      simp only [Mode.step]
      rw [if_neg hplain.1, if_neg hplain.2]
    · cases h
  · cases h

theorem escape_moves (d : Nat) (e : Char) (rest : Text) :
    Moves (.str d) ('\\' :: e :: rest) (.str d) rest :=
  Moves.cons (n := .esc d) rfl (Moves.cons (n := .str d) rfl (Moves.refl _ _))

theorem readCode_moves (d : Nat) (c : Char) (t rest : Text) (h : readCode t = some (c, rest)) :
    Moves (.str d) t (.str d) rest := by
  unfold readCode at h
  split at h
  · cases h
  next n rest1 hfirst =>
  have hmoves := readHex4_moves d n t rest1 hfirst
  split at h
  · split at h
    · next rest2 =>
      split at h
      · cases h
      next m rest3 hsecond =>
      split at h
      · obtain ⟨-, rfl⟩ := Prod.mk.inj (Option.some.inj h)
        exact hmoves.trans ((escape_moves d 'u' rest2).trans (readHex4_moves d m _ _ hsecond))
      · cases h
    · cases h
  · split at h
    · cases h
    · obtain ⟨-, rfl⟩ := Prod.mk.inj (Option.some.inj h)
      exact hmoves

theorem readChar_moves (d : Nat) (c : Char) (t rest : Text) (hquote : t.head? ≠ some '"')
    (h : readChar t = some (c, rest)) : Moves (.str d) t (.str d) rest := by
  cases t with
  | nil => cases h
  | cons x t =>
    have hx : x ≠ '"' := fun hx => hquote (by rw [hx]; rfl)
    unfold readChar at h
    simp only at h
    split at h
    · next hslash =>
      subst hslash
      cases t with
      | nil => cases h
      | cons e t =>
        simp only at h
        refine (escape_moves d e t).trans ?_
        split at h
        · exact readCode_moves d c t rest h
        · obtain ⟨y, -, hy⟩ := Option.map_eq_some_iff.mp h
          obtain ⟨-, rfl⟩ := Prod.mk.inj hy
          exact Moves.refl _ _
    · next hslash =>
      split at h
      · cases h
      · obtain ⟨-, rfl⟩ := Prod.mk.inj (Option.some.inj h)
        refine Moves.cons (n := .str d) ?_ (Moves.refl _ _)
        simp only [Mode.step]
        rw [if_neg hx, if_neg hslash]

theorem readString_moves (d n : Nat) (s t rest : Text) (h : readString n t = some (s, rest)) :
    Moves (.str d) t (.out (d + 1)) rest := by
  induction n generalizing s t with
  | zero => cases h
  | succ n ih =>
    rw [readString] at h
    split at h
    · next hquote =>
      obtain ⟨t, rfl⟩ := List.head?_eq_some_iff.mp hquote
      obtain ⟨-, rfl⟩ := Prod.mk.inj (Option.some.inj h)
      exact Moves.cons (n := .out (d + 1)) rfl (Moves.refl _ _)
    · next hquote =>
      split at h
      · cases h
      next c rest1 hchar =>
      obtain ⟨r, hr, heq⟩ := Option.map_eq_some_iff.mp h
      obtain ⟨-, hrest⟩ := Prod.mk.inj heq
      exact (readChar_moves d c t rest1 hquote hchar).trans
        (ih r.1 rest1 (by rw [hr, ← hrest]))

/-! ### Words and numbers -/

/-- The characters of words and numbers. -/
def isAtomChar (c : Char) : Bool := isDigit09 c || "-+.eEtrufalsnNIity".toList.contains c

theorem step_atomChar (d : Nat) (c : Char) (h : isAtomChar c = true) :
    (Mode.out (d + 1)).step c = some (.out (d + 1)) := by
  have hne : ∀ x : Char, isAtomChar x = false → c ≠ x := by
    rintro x hx rfl
    rw [h] at hx
    cases hx
  simp only [Mode.step]
  rw [if_neg (hne _ (by decide)), if_neg (by
      rintro (hc | hc)
      · exact hne _ (by decide) hc
      · exact hne _ (by decide) hc), if_neg (by
      rintro (hc | hc)
      · exact hne _ (by decide) hc
      · exact hne _ (by decide) hc), if_neg (hne _ (by decide))]

/-- Only such characters are read up to `rest`. -/
def AtomUpTo (t rest : Text) : Prop := ∃ w, t = w ++ rest ∧ w.all isAtomChar = true

theorem AtomUpTo.moves {t rest : Text} (h : AtomUpTo t rest) (d : Nat) :
    Moves (.out (d + 1)) t (.out (d + 1)) rest := by
  obtain ⟨w, rfl, hw⟩ := h
  exact Moves.stay w rest fun c hc => step_atomChar d c (List.all_eq_true.mp hw c hc)

theorem AtomUpTo.refl (t : Text) : AtomUpTo t t := ⟨[], rfl, rfl⟩

theorem AtomUpTo.trans {t t' t'' : Text} (h : AtomUpTo t t') (h' : AtomUpTo t' t'') :
    AtomUpTo t t'' := by
  obtain ⟨w, rfl, hw⟩ := h
  obtain ⟨w', rfl, hw'⟩ := h'
  exact ⟨w ++ w', by rw [List.append_assoc], by rw [List.all_append, hw, hw']; rfl⟩

theorem AtomUpTo.cons {c : Char} {t rest : Text} (hc : isAtomChar c = true) (h : AtomUpTo t rest) :
    AtomUpTo (c :: t) rest := by
  obtain ⟨w, rfl, hw⟩ := h
  exact ⟨c :: w, rfl, by rw [List.all_cons, hc, hw]; rfl⟩

theorem AtomUpTo.digits (t : Text) : AtomUpTo t (t.dropWhile isDigit09) := by
  refine ⟨t.takeWhile isDigit09, List.takeWhile_append_dropWhile.symm, ?_⟩
  rw [List.all_eq_true]
  intro c hc
  unfold isAtomChar
  rw [List.mem_takeWhile_imp hc]
  rfl

theorem AtomUpTo.word (word t rest : Text) (hword : word.all isAtomChar = true)
    (h : readWord word t = some rest) : AtomUpTo t rest := by
  unfold readWord at h
  split at h
  · next hp =>
    obtain rfl := Option.some.inj h
    obtain ⟨s, rfl⟩ := List.isPrefixOf_iff_prefix.mp hp
    exact ⟨word, by rw [List.drop_left], hword⟩
  · cases h

/-- A sign in front is taken or not. -/
theorem AtomUpTo.sign (t : Text) (p : Char → Bool) (hp : ∀ c, p c = true → isAtomChar c = true) :
    AtomUpTo t (t.drop ((t.take 1).filter p).length) := by
  cases t with
  | nil => exact AtomUpTo.refl _
  | cons c t =>
    rw [List.take_succ_cons, List.take_zero, List.filter_cons]
    cases hc : p c with
    | true => exact AtomUpTo.cons (hp c hc) (AtomUpTo.refl t)
    | false => exact AtomUpTo.refl _

theorem readDigits_atom (t digits rest : Text) (h : readDigits t = some (digits, rest)) :
    AtomUpTo t rest := by
  cases t with
  | nil => cases h
  | cons c t =>
    rw [readDigits] at h
    split at h
    · next hc =>
      obtain ⟨-, rfl⟩ := Prod.mk.inj (Option.some.inj h)
      rw [hc]
      exact AtomUpTo.cons (by decide) (AtomUpTo.refl t)
    · split at h
      · next hc =>
        obtain ⟨-, rfl⟩ := Prod.mk.inj (Option.some.inj h)
        exact AtomUpTo.cons (by unfold isAtomChar; rw [hc]; rfl) (AtomUpTo.digits t)
      · cases h

theorem readFraction_atom (t : Text) : AtomUpTo t (readFraction t).2 := by
  unfold readFraction
  simp only
  split
  · next h =>
    obtain ⟨s, rfl⟩ := List.head?_eq_some_iff.mp h.1
    exact AtomUpTo.cons (by decide) (AtomUpTo.digits s)
  · exact AtomUpTo.refl t

theorem readExponent_atom (t : Text) : AtomUpTo t (readExponent t).2 := by
  unfold readExponent
  simp only
  split
  · next h =>
    have hsign : ∀ c : Char, (c = '-' || c = '+') = true → isAtomChar c = true := by
      intro c hc
      simp only [Bool.or_eq_true, decide_eq_true_eq] at hc
      rcases hc with rfl | rfl <;> decide
    rcases h.1 with hhead | hhead
    all_goals
      obtain ⟨s, rfl⟩ := List.head?_eq_some_iff.mp hhead
      exact AtomUpTo.cons (by decide) ((AtomUpTo.sign s _ hsign).trans (AtomUpTo.digits _))
  · exact AtomUpTo.refl t

theorem readNumber_atom (t rest : Text) (v : Json) (h : readNumber t = some (v, rest)) :
    AtomUpTo t rest := by
  have hsign : ∀ c : Char, decide (c = '-') = true → isAtomChar c = true := by
    intro c hc
    rw [of_decide_eq_true hc]
    decide
  unfold readNumber at h
  simp only at h
  split at h
  · cases h
  next digits rest1 hdigits =>
  have hread := (AtomUpTo.sign t _ hsign).trans (readDigits_atom _ digits rest1 hdigits)
  split at h
  · obtain ⟨-, rfl⟩ := Prod.mk.inj (Option.some.inj h)
    exact hread
  · obtain ⟨-, rfl⟩ := Prod.mk.inj (Option.some.inj h)
    exact hread.trans ((readFraction_atom rest1).trans (readExponent_atom _))

theorem readAtom_atom (t rest : Text) (v : Json) (h : readAtom t = some (v, rest)) :
    AtomUpTo t rest := by
  have hword : ∀ (word : Text) (x : Json), word.all isAtomChar = true →
      (readWord word t).map (fun r => (x, r)) = some (v, rest) → AtomUpTo t rest := by
    intro word x hword hmap
    obtain ⟨r, hr, heq⟩ := Option.map_eq_some_iff.mp hmap
    obtain ⟨-, rfl⟩ := Prod.mk.inj heq
    exact AtomUpTo.word word t r hword hr
  unfold readAtom at h
  simp only [Option.orElse_eq_orElse, Option.orElse_eq_or, Option.or_eq_some_iff] at h
  rcases h with h | ⟨-, h | ⟨-, h | ⟨-, h | ⟨-, h | ⟨-, h | ⟨-, h⟩⟩⟩⟩⟩⟩
  · exact hword _ _ (by decide) h
  · exact hword _ _ (by decide) h
  · exact hword _ _ (by decide) h
  · exact readNumber_atom t rest v h
  · exact hword _ _ (by decide) h
  · exact hword _ _ (by decide) h
  · exact hword _ _ (by decide) h

/-! ### Values -/

/-- What the three readers of values do, with `n` fuel. -/
structure ReadersMove (n : Nat) : Prop where
  value : ∀ d t v rest, readValue n t = some (v, rest) → Moves (.out (d + 1)) t (.out (d + 1)) rest
  items : ∀ d t xs rest, readItems n t = some (xs, rest) → Moves (.out (d + 1)) t (.out d) rest
  fields : ∀ d t fs rest, readFields n t = some (fs, rest) → Moves (.out (d + 1)) t (.out d) rest

/-- What follows an opening bracket: the closing one or an item. -/
theorem bracket_moves {α : Type} (d : Nat) (close : Char) (t rest : Text) (v : Json) (empty : Json)
    (items : Option (α × Text)) (build : α → Json)
    (hclose : ∀ d, (Mode.out (d + 1)).step close = some (.out d))
    (hitems : ∀ xs r, items = some (xs, r) → Moves (.out (d + 1)) (skipSpace t) (.out d) r)
    (h : (if (skipSpace t).head? = some close then some (empty, (skipSpace t).tail)
      else items.map fun r => (build r.1, r.2)) = some (v, rest)) :
    Moves (.out (d + 1)) t (.out d) rest := by
  split at h
  · next hhead =>
    obtain ⟨-, rfl⟩ := Prod.mk.inj (Option.some.inj h)
    exact Moves.skip hhead (hclose d) (Moves.refl _ _)
  · obtain ⟨r, hr, heq⟩ := Option.map_eq_some_iff.mp h
    obtain ⟨-, hrest⟩ := Prod.mk.inj heq
    exact (skipSpace_moves (d + 1) t).trans (hitems r.1 rest (by rw [hr, ← hrest]))

theorem readValue_object (n d : Nat) (b rest : Text) (v : Json) (hn : ReadersMove n)
    (h : readValue (n + 1) ('{' :: b) = some (v, rest)) : Moves (.out (d + 1)) b (.out d) rest :=
  bracket_moves d '}' b rest v (.dict []) (readFields n (skipSpace b))
    (fun fs => .dict (dictItems fs)) (fun _ => rfl) (fun fs r => hn.fields d _ fs r) h

theorem readValue_array (n d : Nat) (b rest : Text) (v : Json) (hn : ReadersMove n)
    (h : readValue (n + 1) ('[' :: b) = some (v, rest)) : Moves (.out (d + 1)) b (.out d) rest :=
  bracket_moves d ']' b rest v (.list []) (readItems n (skipSpace b)) (fun xs => .list xs)
    (fun _ => rfl) (fun xs r => hn.items d _ xs r) h

/-- After an item: a comma and further items, or the closing bracket. -/
theorem separator_moves {α : Type} (d : Nat) (close : Char) (t rest : Text) (out : α)
    (last : α) (items : Option (α × Text)) (build : α → α)
    (hclose : (Mode.out (d + 1)).step close = some (.out d))
    (hitems : ∀ xs r, items = some (xs, r) →
      Moves (.out (d + 1)) (skipSpace (skipSpace t).tail) (.out d) r)
    (h : (if (skipSpace t).head? = some ',' then items.map fun r => (build r.1, r.2)
      else if (skipSpace t).head? = some close then some (last, (skipSpace t).tail)
      else none) = some (out, rest)) :
    Moves (.out (d + 1)) t (.out d) rest := by
  split at h
  · next hcomma =>
    obtain ⟨r, hr, heq⟩ := Option.map_eq_some_iff.mp h
    obtain ⟨-, hrest⟩ := Prod.mk.inj heq
    exact Moves.skip hcomma rfl ((skipSpace_moves (d + 1) _).trans
      (hitems r.1 rest (by rw [hr, ← hrest])))
  · split at h
    · next hhead =>
      obtain ⟨-, rfl⟩ := Prod.mk.inj (Option.some.inj h)
      exact Moves.skip hhead hclose (Moves.refl _ _)
    · cases h

/-- **The reader agrees with the scan.** -/
theorem readers_move (n : Nat) : ReadersMove n := by
  induction n with
  | zero =>
    constructor
    · intro _ _ _ _ h
      cases h
    · intro _ _ _ _ h
      cases h
    · intro _ _ _ _ h
      cases h
  | succ n ih =>
    constructor
    · intro d t v rest h
      by_cases hquote : t.head? = some '"'
      · obtain ⟨b, rfl⟩ := List.head?_eq_some_iff.mp hquote
        rw [readValue, if_pos hquote] at h
        obtain ⟨r, hr, heq⟩ := Option.map_eq_some_iff.mp h
        obtain ⟨-, hrest⟩ := Prod.mk.inj heq
        exact Moves.cons (n := .str d) rfl
          (readString_moves d _ r.1 b rest (by rw [← hrest]; exact hr))
      by_cases harray : t.head? = some '['
      · obtain ⟨b, rfl⟩ := List.head?_eq_some_iff.mp harray
        exact Moves.cons (n := .out (d + 2)) rfl (readValue_array n (d + 1) b rest v ih h)
      by_cases hobject : t.head? = some '{'
      · obtain ⟨b, rfl⟩ := List.head?_eq_some_iff.mp hobject
        exact Moves.cons (n := .out (d + 2)) rfl (readValue_object n (d + 1) b rest v ih h)
      rw [readValue, if_neg hquote, if_neg harray, if_neg hobject] at h
      exact (readAtom_atom t rest v h).moves d
    · intro d t xs rest h
      rw [readItems] at h
      split at h
      · cases h
      next x rest1 hx =>
      exact (ih.value d t x rest1 hx).trans
        (separator_moves d ']' rest1 rest xs [x] _ (x :: ·) rfl
          (fun ys r => ih.items d _ ys r) h)
    · intro d t fs rest h
      rw [readFields] at h
      split at h
      · next hquote =>
        obtain ⟨b, rfl⟩ := List.head?_eq_some_iff.mp hquote
        split at h
        · cases h
        next k rest1 hk =>
        split at h
        · next hcolon =>
          split at h
          · cases h
          next v rest2 hv =>
          refine Moves.cons (n := .str d) rfl ((readString_moves d _ k b rest1 hk).trans ?_)
          refine Moves.skip hcolon rfl ((skipSpace_moves (d + 1) _).trans ?_)
          exact (ih.value d _ v rest2 hv).trans
            (separator_moves d '}' rest2 rest fs [(k, v)] _ ((k, v) :: ·) rfl
              (fun gs r => ih.fields d _ gs r) h)
        · cases h
      · cases h

/-- What reads as JSON from an opening brace ends where its braces do. -/
theorem loads_scan (b : Text) (v : Json) (h : loads ('{' :: b) = some v) :
    scan (.out 1) b = some (.out 0) := by
  unfold loads at h
  have hskip : skipSpace ('{' :: b) = '{' :: b := rfl
  rw [hskip] at h
  split at h
  · cases h
  next x rest hread =>
  split at h
  · next hend =>
    have hmoves := (readValue_object _ 0 b rest x (readers_move _) hread).trans
      (skipSpace_moves 0 rest)
    rw [hend] at hmoves
    obtain ⟨w, rfl, hw⟩ := hmoves
    rw [List.append_nil]
    exact hw
  · cases h

end Py
