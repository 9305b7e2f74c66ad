import Agentrail.Guardrails.InputContract
import Agentrail.Lib.RegexRules
import Agentrail.Queue.IntakeGate

/-!
# The section of acceptance criteria in two dialects

The TypeScript and the Python pattern for the section are one pattern (`acSection`) in
two dialects (`js`, `py`).  `headingSplit` and `sectionAt` say what it matches and
captures without backtracking; `headingSplit_wider` and `headingSplit_narrower` compare
the headings of one dialect with what either takes for a heading.
-/

namespace Agentrail.AcceptanceParity

open Regex
open InputContract (Interpreter)

/-! ## Letters -/

theorem of_ascii {P : Char → Prop} (h : ∀ n, n < 128 → P (Char.ofNat n)) (c : Char)
    (hc : c.toNat < 128) : P c := by
  have hn := h c.toNat hc
  rwa [Char.ofNat_toNat] at hn

theorem toUpper_of_not_ascii (c : Char) (hc : 128 ≤ c.toNat) : c.toUpper = c := by
  unfold Char.toUpper
  rw [dif_neg]
  rintro ⟨_, hz⟩
  have hle : c.toNat ≤ 'z'.toNat := hz
  have h122 : 'z'.toNat = 122 := rfl
  omega

theorem toLower_of_not_ascii (c : Char) (hc : 128 ≤ c.toNat) : c.toLower = c := by
  unfold Char.toLower
  rw [dif_neg]
  rintro ⟨_, hz⟩
  have hle : c.toNat ≤ 'Z'.toNat := hz
  have h90 : 'Z'.toNat = 90 := rfl
  omega

/-- The dialects fold the letters of ASCII alike. -/
theorem same_ascii (l c : Char) (hc : c.toNat < 128) : Js.same l c = Py.same l c := by
  have hlowUp : ∀ c : Char, c.toUpper.toLower = c.toLower := by
    intro c
    by_cases hc : c.toNat < 128
    · exact of_ascii (P := fun c => c.toUpper.toLower = c.toLower) (by decide +kernel) c hc
    · rw [toUpper_of_not_ascii c (by omega)]
  have hupLow : ∀ c : Char, c.toLower.toUpper = c.toUpper := by
    intro c
    by_cases hc : c.toNat < 128
    · exact of_ascii (P := fun c => c.toLower.toUpper = c.toUpper) (by decide +kernel) c hc
    · rw [toLower_of_not_ascii c (by omega)]
  have hfold : l.toUpper = c.toUpper ↔ l.toLower = c.toLower :=
    ⟨fun h => by rw [← hlowUp l, h, hlowUp], fun h => by rw [← hupLow l, h, hupLow]⟩
  have h130 : c.toNat ≠ 0x130 := by omega
  have h131 : c.toNat ≠ 0x131 := by omega
  have h17f : c.toNat ≠ 0x17f := by omega
  have h212a : c.toNat ≠ 0x212a := by omega
  unfold Js.same Py.same
  simp [hfold, h130, h131, h17f, h212a]

/-- The letters of the heading. -/
def letters : List Char := ['a', 'c', 'e', 'i', 'n', 'p', 'r', 't']

theorem letters_low (l : Char) (hl : l ∈ letters) :
    l.toNat < 128 ∧ l.toUpper.toNat < 128 ∧ l.toLower.toNat < 128 ∧ l.toLower ≠ 's' ∧
      l.toLower ≠ 'k' := by
  have hall : letters.all (fun l => l.toNat < 128 && l.toUpper.toNat < 128 &&
      l.toLower.toNat < 128 && l.toLower ≠ 's' && l.toLower ≠ 'k') = true := by decide +kernel
  simpa [and_assoc] using List.all_eq_true.mp hall l hl

theorem js_same_of_not_ascii (l : Char) (hl : l ∈ letters) (c : Char) (hc : 128 ≤ c.toNat) :
    Js.same l c = false := by
  obtain ⟨_, hup, _⟩ := letters_low l hl
  unfold Js.same
  rw [toUpper_of_not_ascii c hc, decide_eq_false_iff_not]
  rintro rfl
  omega

theorem py_same_of_not_ascii (l : Char) (hl : l ∈ letters) (c : Char) (hc : 128 ≤ c.toNat)
    (hi : c.toNat ≠ 0x130 ∧ c.toNat ≠ 0x131) : Py.same l c = false := by
  obtain ⟨_, _, hlow, hs, hk⟩ := letters_low l hl
  have hne : l.toLower ≠ c := by
    rintro rfl
    omega
  unfold Py.same
  rw [toLower_of_not_ascii c hc]
  simp [hne, hs, hk, hi]

/-- The dialects fold the letters of the heading alike, but for the two further letters that
Python takes for an `i`. -/
theorem same_eq (l : Char) (hl : l ∈ letters) (c : Char)
    (hi : c.toNat ≠ 0x130 ∧ c.toNat ≠ 0x131) : Js.same l c = Py.same l c := by
  by_cases hc : c.toNat < 128
  · exact same_ascii l c hc
  · rw [js_same_of_not_ascii l hl c (by omega), py_same_of_not_ascii l hl c (by omega) hi]

theorem py_same_of_js_same (l : Char) (hl : l ∈ letters) (c : Char) (h : Js.same l c) :
    Py.same l c := by
  by_cases hi : c.toNat ≠ 0x130 ∧ c.toNat ≠ 0x131
  · rw [← same_eq l hl c hi]
    exact h
  · rw [js_same_of_not_ascii l hl c (by omega)] at h
    cases h

/-! ## Blanks -/

/-- A blank of one side only. -/
def blankOfOne (c : Char) : Bool := Js.isSpace c != Py.isSpace c

/-- What either side takes for a blank. -/
def eitherSpace (c : Char) : Bool := Js.isSpace c || Py.isSpace c

theorem js_space_of_either (c : Char) (h : blankOfOne c = false) (hc : eitherSpace c) :
    Js.isSpace c := by
  unfold blankOfOne at h
  unfold eitherSpace at hc
  cases hj : Js.isSpace c <;> simp_all

theorem py_space_of_either (c : Char) (h : blankOfOne c = false) (hc : eitherSpace c) :
    Py.isSpace c := by
  unfold blankOfOne at h
  unfold eitherSpace at hc
  cases hj : Js.isSpace c <;> simp_all

theorem firsts_letters (l : Char) (hl : l ∈ ['a', 'c']) : l ∈ letters := by
  rcases List.mem_cons.mp hl with rfl | hl
  · decide
  · rw [List.mem_singleton.mp hl]
    decide

/-- Both letters with which a word of the heading starts are no blanks in either case. -/
theorem same_space (l : Char) (hl : l ∈ ['a', 'c']) (c : Char) (hc : eitherSpace c) :
    Py.same l c = false := by
  by_cases h128 : c.toNat < 128
  · have ha := of_ascii (P := fun c => eitherSpace c → Py.same 'a' c = false)
      (by decide +kernel) c h128 hc
    have hc := of_ascii (P := fun c => eitherSpace c → Py.same 'c' c = false)
      (by decide +kernel) c h128 hc
    rcases List.mem_cons.mp hl with rfl | hl
    · exact ha
    · rw [List.mem_singleton.mp hl]
      exact hc
  · by_cases hi : c.toNat ≠ 0x130 ∧ c.toNat ≠ 0x131
    · exact py_same_of_not_ascii l (firsts_letters l hl) c (by omega) hi
    · exfalso
      unfold eitherSpace Js.isSpace Py.isSpace at hc
      simp only [Bool.or_eq_true, Bool.and_eq_true, decide_eq_true_eq, beq_iff_eq] at hc
      omega

/-! ## The heading -/

/-- Blanks, and the word after them. -/
def gapWord (space : Char → Bool) (same : Char → Char → Bool) (word t : List Char) :
    Option (List Char × List Char) :=
  if startsWith same word (t.dropWhile space) then
    some (t.takeWhile space ++ (t.dropWhile space).take word.length,
      (t.dropWhile space).drop word.length)
  else none

/-- `#{1,6}\s*acceptance\s+criteria` as it stands, and what follows. -/
def headingSplit (space : Char → Bool) (same : Char → Char → Bool) (t : List Char) :
    Option (List Char × List Char) :=
  if 0 < (t.takeWhile (· = '#')).length ∧ (t.takeWhile (· = '#')).length ≤ 6 then
    (gapWord space same "acceptance".toList (t.dropWhile (· = '#'))).bind fun p =>
      if p.2.head?.any space then
        (gapWord space same "criteria".toList p.2).map fun q =>
          (t.takeWhile (· = '#') ++ (p.1 ++ q.1), q.2)
      else none
  else none

section
variable {space space' : Char → Bool} {same same' : Char → Char → Bool}

theorem gapWord_append {word t h rest : List Char}
    (hsplit : gapWord space same word t = some (h, rest)) : t = h ++ rest := by
  unfold gapWord at hsplit
  split at hsplit
  · cases hsplit
    rw [List.append_assoc, List.take_append_drop, List.takeWhile_append_dropWhile]
  · cases hsplit

/-- A wider dialect reads what a narrower one does. -/
theorem gapWord_wider (hspace : ∀ c, space c → space' c) (l : Char) (word : List Char)
    (hsame : ∀ l' ∈ l :: word, ∀ c, same l' c → same' l' c)
    (hfirst : ∀ c, space' c → same' l c = false) (t : List Char) (p : List Char × List Char)
    (h : gapWord space same (l :: word) t = some p) :
    gapWord space' same' (l :: word) t = some p := by
  unfold gapWord at h ⊢
  by_cases hword : startsWith same (l :: word) (t.dropWhile space)
  · have hword' : startsWith same' (l :: word) (t.dropWhile space) :=
      startsWith_of _ _ hword fun c _ l' hl' => hsame l' hl' c
    obtain ⟨c, hc, hl⟩ := startsWith_head l word _ hword'
    have hend : ∀ d, (t.dropWhile space).head? = some d → space' d = false := by
      intro d hd
      rw [hc] at hd
      cases hd
      cases hs : space' c with
      | false => rfl
      | true =>
        rw [hfirst c hs] at hl
        cases hl
    obtain ⟨htake, hdrop⟩ := takeWhile_wider hspace t hend
    rw [if_pos hword] at h
    rw [hdrop, htake, if_pos hword']
    exact h
  · rw [if_neg hword] at h
    cases h

/-- A narrower dialect reads what a wider one does over characters that it knows. -/
theorem gapWord_narrower (hspace : ∀ c, space c → space' c) (word t h rest : List Char)
    (hsplit : gapWord space' same' word t = some (h, rest))
    (hgap : ∀ c ∈ h, space' c → space c)
    (hsame : ∀ c ∈ h, ∀ l ∈ word, same' l c → same l c) :
    gapWord space same word t = some (h, rest) := by
  unfold gapWord at hsplit ⊢
  by_cases hword : startsWith same' word (t.dropWhile space')
  · rw [if_pos hword] at hsplit
    cases hsplit
    have hall : ∀ c ∈ t.takeWhile space', space c := fun c hc =>
      hgap c (List.mem_append_left _ hc) (List.mem_takeWhile_imp hc)
    obtain ⟨htake, hdrop⟩ := takeWhile_narrower hspace t hall
    have hword' : startsWith same word (t.dropWhile space') :=
      startsWith_of _ _ hword fun c hc l hl => hsame c (List.mem_append_right _ hc) l hl
    rw [htake, hdrop, if_pos hword']
  · rw [if_neg hword] at hsplit
    cases hsplit

end

theorem acceptance_toList : "acceptance".toList = 'a' :: "cceptance".toList := by decide +kernel

theorem criteria_toList : "criteria".toList = 'c' :: "riteria".toList := by decide +kernel

theorem words_letters : (∀ l ∈ "acceptance".toList, l ∈ letters) ∧
    ∀ l ∈ "criteria".toList, l ∈ letters := by
  have hfirst : "acceptance".toList.all (letters.contains ·) = true := by decide +kernel
  have hsecond : "criteria".toList.all (letters.contains ·) = true := by decide +kernel
  exact ⟨fun l hl => List.contains_iff_mem.mp (List.all_eq_true.mp hfirst l hl),
    fun l hl => List.contains_iff_mem.mp (List.all_eq_true.mp hsecond l hl)⟩

section
variable {space : Char → Bool} {same : Char → Char → Bool}

/-- Where one side has the heading, either has. -/
theorem headingSplit_wider (hspace : ∀ c, space c → eitherSpace c)
    (hsame : ∀ l ∈ letters, ∀ c, same l c → Py.same l c) (t : List Char)
    (p : List Char × List Char) (h : headingSplit space same t = some p) :
    headingSplit eitherSpace Py.same t = some p := by
  have hwords := words_letters
  unfold headingSplit at h ⊢
  rw [acceptance_toList, criteria_toList] at h hwords ⊢
  split at h
  · rename_i hhashes
    rw [if_pos hhashes]
    obtain ⟨first, hp, hsecond⟩ := Option.bind_eq_some_iff.mp h
    have hp' := gapWord_wider hspace 'a' "cceptance".toList
      (fun l hl => hsame l (hwords.1 l hl)) (same_space 'a' (by decide)) _ first hp
    refine Option.bind_eq_some_iff.mpr ⟨first, hp', ?_⟩
    split at hsecond
    · rename_i hgap
      have hgap' : first.2.head?.any eitherSpace := by
        cases hhead : first.2.head? with
        | none => rw [hhead] at hgap; cases hgap
        | some c => rw [hhead] at hgap; exact hspace c hgap
      rw [if_pos hgap']
      obtain ⟨second, hq, he⟩ := Option.map_eq_some_iff.mp hsecond
      have hq' := gapWord_wider hspace 'c' "riteria".toList
        (fun l hl => hsame l (hwords.2 l hl)) (same_space 'c' (by decide)) _ second hq
      exact Option.map_eq_some_iff.mpr ⟨second, hq', he⟩
    · cases hsecond
  · cases h

/-- One side has the heading that either has, over characters that it knows. -/
theorem headingSplit_narrower (hspace : ∀ c, space c → eitherSpace c) (t h rest : List Char)
    (hsplit : headingSplit eitherSpace Py.same t = some (h, rest))
    (hgap : ∀ c ∈ h, eitherSpace c → space c)
    (hsame : ∀ c ∈ h, ∀ l ∈ letters, Py.same l c → same l c) :
    headingSplit space same t = some (h, rest) := by
  have hwords := words_letters
  unfold headingSplit at hsplit ⊢
  split at hsplit
  · rename_i hhashes
    rw [if_pos hhashes]
    obtain ⟨⟨first, t'⟩, hp, hafter⟩ := Option.bind_eq_some_iff.mp hsplit
    split at hafter
    · rename_i hblank
      obtain ⟨⟨second, t''⟩, hq, he⟩ := Option.map_eq_some_iff.mp hafter
      cases he
      have hfirst : ∀ c ∈ first, c ∈ t.takeWhile (· = '#') ++ (first ++ second) := fun c hc =>
        List.mem_append_right _ (List.mem_append_left _ hc)
      have hsecond : ∀ c ∈ second, c ∈ t.takeWhile (· = '#') ++ (first ++ second) := fun c hc =>
        List.mem_append_right _ (List.mem_append_right _ hc)
      have hp' := gapWord_narrower hspace _ _ _ _ hp (fun c hc => hgap c (hfirst c hc))
        fun c hc l hl => hsame c (hfirst c hc) l (hwords.1 l hl)
      have hq' := gapWord_narrower hspace _ _ _ _ hq (fun c hc => hgap c (hsecond c hc))
        fun c hc l hl => hsame c (hsecond c hc) l (hwords.2 l hl)
      have hblank' : t'.head?.any space := by
        -- The gap before the second word is not empty, and its first blank is in the heading.
        have happend := gapWord_append hq
        cases t' with
        | nil => cases hblank
        | cons c t' =>
          have hc : c ∈ second := by
            unfold gapWord at hq
            split at hq
            · cases hq
              have hcs : eitherSpace c = true := hblank
              rw [List.takeWhile_cons, if_pos hcs]
              exact List.mem_append_left _ List.mem_cons_self
            · cases hq
          exact hgap c (hsecond c hc) hblank
      refine Option.bind_eq_some_iff.mpr ⟨(first, t'), hp', ?_⟩
      rw [if_pos hblank']
      exact Option.map_eq_some_iff.mpr ⟨(second, t''), hq', rfl⟩
    · cases hafter
  · cases hsplit

end

/-! ## One pattern, two dialects -/

/-- What `str.isalnum` says of ASCII. -/
def AsciiAlnum (interpreter : Interpreter) : Prop :=
  ∀ c, c.toNat < 128 → interpreter.isAlnum c = c.isAlphanum

/-- How a dialect reads the heading and the section below it. -/
structure Dialect where
  startsLine : Char → Bool
  space : Char → Bool
  same : Char → Char → Bool
  isWord : Char → Bool
  /-- `.` on the line of the heading -/
  dot : Char → Bool
  textEnd : Re
  space_either : ∀ c, space c → eitherSpace c
  same_either : ∀ l ∈ letters, ∀ c, same l c → Py.same l c
  isWord_same : ∀ c, same 'a' c → isWord c
  textEnd_run : ∀ s, (textEnd.run s some).isSome = s.after.isEmpty

theorem ascii_of_same (c : Char) (h : Py.same 'a' c) : c.toNat < 128 := by
  by_cases hc : c.toNat < 128
  · exact hc
  · have hlow : 'a'.toLower = 'a' := by decide
    have hne : 'a' ≠ c := by
      rintro rfl
      exact hc (by decide)
    unfold Py.same at h
    rw [toLower_of_not_ascii c (by omega), hlow] at h
    simp [hne] at h

def js : Dialect where
  startsLine := Js.isLineTerminator
  space := Js.isSpace
  same := Js.same
  isWord := Js.isWord
  dot := fun c => !Js.isLineTerminator c
  textEnd := .seq Js.eol (.notLook (.cls fun _ => true))
  space_either := fun c h => by
    unfold eitherSpace
    rw [h, Bool.true_or]
  same_either := py_same_of_js_same
  isWord_same := fun c h =>
    of_ascii (P := fun c => Js.same 'a' c → Js.isWord c) (by decide +kernel) c
      (ascii_of_same c (py_same_of_js_same 'a' (by decide) c h)) h
  textEnd_run := fun s => by
    obtain ⟨before, after, groups⟩ := s
    cases after with
    | nil => rfl
    | cons c rest =>
      show (if _ then _ else none : Option State).isSome = false
      split <;> rfl

def py (interpreter : Interpreter) (hascii : AsciiAlnum interpreter) : Dialect where
  startsLine := fun c => c = '\n'
  space := Py.isSpace
  same := Py.same
  isWord := fun c => interpreter.isAlnum c || c = '_'
  dot := fun _ => true
  textEnd := Py.endOfText
  space_either := fun c h => by
    unfold eitherSpace
    rw [h, Bool.or_true]
  same_either := fun _ _ _ h => h
  isWord_same := fun c h => by
    have hc := ascii_of_same c h
    have halnum : c.isAlphanum := of_ascii (P := fun c => Py.same 'a' c → c.isAlphanum)
      (by decide +kernel) c hc h
    rw [hascii c hc, halnum, Bool.true_or]
  textEnd_run := fun s => by
    obtain ⟨before, after, groups⟩ := s
    cases after <;> rfl

namespace Dialect

/-- `^#{1,6}\s`, where a section ends. -/
def nextHeading (d : Dialect) : Re :=
  .cat [.assert fun before _ => before.head?.all d.startsLine, .rep (.cls (· = '#')) 1 6,
    .cls d.space]

/-- `^#{1,6}\s*acceptance\s+criteria`, the parts in a row. -/
def heading (d : Dialect) : List Re :=
  [.assert fun before _ => before.head?.all d.startsLine, .rep (.cls (· = '#')) 1 6,
    .star true (.cls d.space), .lit d.same "acceptance".toList, .plus true (.cls d.space),
    .lit d.same "criteria".toList]

/-- What captures the section. -/
def capture (d : Dialect) : List Re :=
  [.group 1 (.star false (.cls fun _ => true)), .look (.alt d.nextHeading d.textEnd)]

def acSection (d : Dialect) : Re := .cat <| d.heading ++
  [.assert fun before after => before.head?.any d.isWord != after.head?.any d.isWord,
    .star false (.cls d.dot), .cls (· = '\n')] ++ d.capture

end Dialect

theorem acSection_js : IntakeGate.AC_SECTION = js.acSection := (rfl)

theorem acSection_py (interpreter : Interpreter) (hascii : AsciiAlnum interpreter) :
    InputContract.acSection interpreter = (py interpreter hascii).acSection := (rfl)

/-! ## What the patterns do -/

section
variable (d : Dialect) {β : Type}

theorem Dialect.space_hash : d.space '#' = false := by
  have heither : eitherSpace '#' = false := by decide
  cases h : d.space '#' with
  | false => rfl
  | true => rw [d.space_either '#' h] at heither; cases heither

theorem Dialect.same_hash : d.same 'a' '#' = false := by
  have hpy : Py.same 'a' '#' = false := by decide
  cases h : d.same 'a' '#' with
  | false => rfl
  | true => rw [d.same_either 'a' (by decide) '#' h] at hpy; cases hpy

/-- A word does not start with a blank. -/
theorem Dialect.same_of_space (l : Char) (hl : l ∈ ['a', 'c']) (c : Char) (hc : d.space c) :
    d.same l c = false := by
  have hpy := same_space l hl c (d.space_either c hc)
  cases h : d.same l c with
  | false => rfl
  | true => rw [d.same_either l (firsts_letters l hl) c h] at hpy; cases hpy

/-- The hashes, before what does not start with one. -/
theorem hashes_run (b t : List Char) (g : List (Nat × List Char)) (k : State → Option β)
    (hk : ∀ b rest, k ⟨b, '#' :: rest, g⟩ = none) :
    (Re.rep (.cls (· = '#')) 1 6).run ⟨b, t, g⟩ k =
      if 0 < (t.takeWhile (· = '#')).length ∧ (t.takeWhile (· = '#')).length ≤ 6 then
        k ⟨(t.takeWhile (· = '#')).reverse ++ b, t.dropWhile (· = '#'), g⟩
      else none := by
  have hrun : (Re.rep (.cls (· = '#')) 1 6).run ⟨b, t, g⟩ k =
      (Re.cls (· = '#')).run ⟨b, t, g⟩ fun u => (Re.upTo (.cls (· = '#')) 5).run u k := rfl
  have hk' : ∀ (b : List Char) (c : Char) (rest : List Char), decide (c = '#') = true →
      k ⟨b, c :: rest, g⟩ = none := by
    intro b c rest hc
    rw [of_decide_eq_true hc]
    exact hk b rest
  rw [hrun]
  cases t with
  | nil => rfl
  | cons c t =>
    rw [run_cls_cons, List.takeWhile_cons, List.dropWhile_cons]
    by_cases hc : c = '#'
    · rw [if_pos (decide_eq_true hc), if_pos (decide_eq_true hc), if_pos (decide_eq_true hc),
        run_upTo _ g k hk' 5, List.length_cons]
      by_cases hle : (t.takeWhile (· = '#')).length ≤ 5
      · rw [if_pos hle, if_pos ⟨Nat.succ_pos _, Nat.succ_le_succ hle⟩, List.reverse_cons,
          List.append_assoc, List.singleton_append]
      · rw [if_neg hle, if_neg fun h => hle (Nat.le_of_succ_le_succ h.2)]
    · simp [hc]

/-- Blanks before a word are all taken. -/
theorem gapWord_run (l : Char) (hl : l ∈ ['a', 'c']) (word : List Char) (rs : List Re)
    (b t : List Char) (g : List (Nat × List Char)) (k : State → Option β) :
    (Re.cat (.star true (.cls d.space) :: .lit d.same (l :: word) :: rs)).run ⟨b, t, g⟩ k =
      (gapWord d.space d.same (l :: word) t).bind fun p =>
        (Re.cat rs).run ⟨p.1.reverse ++ b, p.2, g⟩ k := by
  rw [run_cat_cons, run_star_greedy, takeGreedy_skip]
  · rw [run_cat_cons, run_lit]
    unfold gapWord
    by_cases hword : startsWith d.same (l :: word) (t.dropWhile d.space)
    · rw [if_pos hword, if_pos hword, Option.bind_some]
      simp only [List.reverse_append, List.append_assoc]
    · rw [if_neg hword, if_neg hword, Option.bind_none]
  · intro b c rest hc
    rw [run_cat_cons, run_lit, startsWith, d.same_of_space l hl c hc]
    rfl

/-- One blank at least, then the word. -/
theorem blankWord_run (l : Char) (hl : l ∈ ['a', 'c']) (word : List Char) (rs : List Re)
    (b t : List Char) (g : List (Nat × List Char)) (k : State → Option β) :
    (Re.cat (.plus true (.cls d.space) :: .lit d.same (l :: word) :: rs)).run ⟨b, t, g⟩ k =
      if t.head?.any d.space then
        (gapWord d.space d.same (l :: word) t).bind fun p =>
          (Re.cat rs).run ⟨p.1.reverse ++ b, p.2, g⟩ k
      else none := by
  have hplus : (Re.cat (.plus true (.cls d.space) :: .lit d.same (l :: word) :: rs)).run ⟨b, t, g⟩ k =
      (Re.cls d.space).run ⟨b, t, g⟩ fun u =>
        (Re.cat (.star true (.cls d.space) :: .lit d.same (l :: word) :: rs)).run u k := by
    rw [run_cat_cons]
    exact congrArg ((Re.cls d.space).run ⟨b, t, g⟩) (funext fun u => (run_cat_cons _ _ u k).symm)
  rw [hplus]
  cases t with
  | nil => rfl
  | cons c t =>
    rw [run_cls_cons]
    show _ = if d.space c then _ else none
    by_cases hc : d.space c
    · rw [if_pos hc, if_pos hc, gapWord_run d l hl]
      unfold gapWord
      rw [List.takeWhile_cons, List.dropWhile_cons, if_pos hc, if_pos hc]
      by_cases hword : startsWith d.same (l :: word) (t.dropWhile d.space)
      · rw [if_pos hword, if_pos hword, Option.bind_some, Option.bind_some]
        simp only [List.cons_append, List.reverse_cons, List.append_assoc, List.nil_append]
      · rw [if_neg hword, if_neg hword, Option.bind_none, Option.bind_none]
    · rw [if_neg hc, if_neg hc]

theorem heading_run (b t : List Char) (g : List (Nat × List Char)) (k : State → Option β) :
    (Re.cat d.heading).run ⟨b, t, g⟩ k =
      if b.head?.all d.startsLine then
        (headingSplit d.space d.same t).bind fun p => k ⟨p.1.reverse ++ b, p.2, g⟩
      else none := by
  unfold Dialect.heading
  rw [acceptance_toList, criteria_toList, run_cat_cons, run_assert]
  by_cases hline : b.head?.all d.startsLine
  · rw [if_pos hline, if_pos hline, run_cat_cons, hashes_run]
    · unfold headingSplit
      rw [acceptance_toList, criteria_toList]
      by_cases hhashes : 0 < (t.takeWhile (· = '#')).length ∧ (t.takeWhile (· = '#')).length ≤ 6
      · rw [if_pos hhashes, if_pos hhashes]
        have hfirst := gapWord_run d 'a' (by decide) "cceptance".toList
          [.plus true (.cls d.space), .lit d.same ('c' :: "riteria".toList)]
          ((t.takeWhile (· = '#')).reverse ++ b) (t.dropWhile (· = '#')) g k
        refine hfirst.trans ?_
        rw [Option.bind_assoc]
        refine congrArg (Option.bind _) (funext fun p => ?_)
        have hsecond := blankWord_run d 'c' (by decide) "riteria".toList []
          (p.1.reverse ++ ((t.takeWhile (· = '#')).reverse ++ b)) p.2 g k
        refine hsecond.trans ?_
        by_cases hblank : p.2.head?.any d.space
        · rw [if_pos hblank, if_pos hblank, Option.bind_map]
          refine congrArg (Option.bind _) (funext fun q => ?_)
          show k _ = k _
          simp only [List.reverse_append, List.append_assoc]
        · rw [if_neg hblank, if_neg hblank, Option.bind_none]
      · rw [if_neg hhashes, if_neg hhashes, Option.bind_none]
    · intro b rest
      rw [run_cat_cons, run_star_greedy, takeGreedy, d.space_hash]
      rw [if_neg Bool.false_ne_true, run_cat_cons, run_lit]
      rw [startsWith, d.same_hash, Bool.false_and, if_neg Bool.false_ne_true]
  · rw [if_neg hline, if_neg hline]

/-- Whether the text starts with hashes and a blank. -/
def isHeading (space : Char → Bool) (t : List Char) : Bool :=
  0 < (t.takeWhile (· = '#')).length && (t.takeWhile (· = '#')).length ≤ 6 &&
    (t.dropWhile (· = '#')).head?.any space

theorem nextHeading_run (b t : List Char) (g : List (Nat × List Char)) :
    (d.nextHeading.run ⟨b, t, g⟩ some).isSome = (b.head?.all d.startsLine && isHeading d.space t) := by
  unfold Dialect.nextHeading isHeading
  rw [run_cat_cons, run_assert]
  by_cases hline : b.head?.all d.startsLine
  · rw [if_pos hline, hline, Bool.true_and, run_cat_cons, hashes_run]
    · by_cases hhashes : 0 < (t.takeWhile (· = '#')).length ∧ (t.takeWhile (· = '#')).length ≤ 6
      · rw [if_pos hhashes, decide_eq_true hhashes.1, decide_eq_true hhashes.2]
        cases t.dropWhile (· = '#') with
        | nil => rfl
        | cons c rest =>
          show (if d.space c then _ else none : Option State).isSome = d.space c
          cases d.space c <;> rfl
      · rw [if_neg hhashes]
        rcases not_and_or.mp hhashes with h | h
        · rw [decide_eq_false h]
          rfl
        · rw [decide_eq_false h, Bool.and_false]
          rfl
    · intro b rest
      show (if d.space '#' then _ else none) = none
      rw [d.space_hash, if_neg Bool.false_ne_true]
  · rw [if_neg hline]
    simp [hline]

/-- The text up to the next heading. -/
def sectionText : Char → List Char → List Char
  | _, [] => []
  | prev, c :: rest =>
    if d.startsLine prev && isHeading d.space (c :: rest) then [] else c :: sectionText c rest

/-- The section below the rest of a heading. -/
def sectionBelow (t : List Char) : Option (List Char) :=
  if t.head?.any d.isWord then none
  else if (t.takeWhile (· ≠ '\n')).all d.dot then
    match t.dropWhile (· ≠ '\n') with
    | [] => none
    | _ :: rest => some (sectionText d '\n' rest)
  else none

/-- The section whose heading starts here. -/
def sectionAt (b t : List Char) : Option (List Char) :=
  if b.head?.all d.startsLine then
    (headingSplit d.space d.same t).bind fun p => sectionBelow d p.2
  else none

/-- The look-ahead at the end of the section. -/
theorem lookEnd_run (b t : List Char) (g : List (Nat × List Char)) :
    (Re.look (.alt d.nextHeading d.textEnd)).run ⟨b, t, g⟩ some =
      if (b.head?.all d.startsLine && isHeading d.space t) || t.isEmpty then some ⟨b, t, g⟩
      else none := by
  have hsome : ((Re.alt d.nextHeading d.textEnd).run ⟨b, t, g⟩ some).isSome =
      ((b.head?.all d.startsLine && isHeading d.space t) || t.isEmpty) := by
    have hhead := nextHeading_run d b t g
    have hend := d.textEnd_run ⟨b, t, g⟩
    show ((d.nextHeading.run ⟨b, t, g⟩ some).or (d.textEnd.run ⟨b, t, g⟩ some)).isSome = _
    rw [Option.isSome_or, hhead, hend]
  rw [run_look, hsome]

theorem capture_run (prev : Char) (b t : List Char) (g : List (Nat × List Char)) :
    ∃ s, (Re.cat d.capture).run ⟨prev :: b, t, g⟩ some = some s ∧
      s.groups = (1, sectionText d prev t) :: g := by
  have hrun : (Re.cat d.capture).run ⟨prev :: b, t, g⟩ some =
      takeLazy (fun _ => true) (fun before after =>
        (Re.look (.alt d.nextHeading d.textEnd)).run
          ⟨before, after, (1, t.take (t.length - after.length)) :: g⟩ some) (prev :: b) t := by
    unfold Dialect.capture
    rw [run_cat_cons]
    exact run_star_lazy _ _ _ _ _
  rw [hrun]
  -- Induction on what is left, with what was taken before it.
  have hscan : ∀ (left done : List Char) (prev : Char) (b : List Char), t = done ++ left →
      ∃ s, takeLazy (fun _ => true) (fun before after =>
        (Re.look (.alt d.nextHeading d.textEnd)).run
          ⟨before, after, (1, t.take (t.length - after.length)) :: g⟩ some) (prev :: b) left =
          some s ∧ s.groups = (1, done ++ sectionText d prev left) :: g := by
    intro left
    induction left with
    | nil =>
      intro done prev b ht
      refine ⟨⟨prev :: b, [], (1, done ++ []) :: g⟩, ?_, rfl⟩
      rw [takeLazy, lookEnd_run, List.isEmpty_nil, Bool.or_true, if_pos rfl, ht]
      simp
    | cons c rest ih =>
      intro done prev b ht
      have htake : t.take (t.length - (c :: rest).length) = done := by
        rw [ht, List.length_append, Nat.add_sub_cancel, List.take_left]
      rw [takeLazy, lookEnd_run, htake, sectionText, List.isEmpty_cons, Bool.or_false]
      by_cases hstop : d.startsLine prev && isHeading d.space (c :: rest)
      · have hstop' : ((prev :: b).head?.all d.startsLine && isHeading d.space (c :: rest)) = true :=
          hstop
        rw [if_pos hstop', if_pos hstop, List.append_nil]
        exact ⟨_, rfl, rfl⟩
      · have hstop' : ¬ ((prev :: b).head?.all d.startsLine &&
            isHeading d.space (c :: rest)) = true := hstop
        rw [if_neg hstop', if_neg hstop, Option.none_or, if_pos rfl]
        obtain ⟨s, hs, hgroups⟩ := ih (done ++ [c]) c (prev :: b) (by rw [ht]; simp)
        refine ⟨s, hs, ?_⟩
        rw [hgroups, List.append_assoc, List.singleton_append]
  obtain ⟨s, hs, hgroups⟩ := hscan t [] prev b rfl
  exact ⟨s, hs, hgroups⟩

/-- A heading ends in a letter. -/
theorem headingSplit_last (t h rest : List Char)
    (hsplit : headingSplit d.space d.same t = some (h, rest)) :
    ∃ c h', h.reverse = c :: h' ∧ d.isWord c := by
  unfold headingSplit at hsplit
  split at hsplit
  · obtain ⟨p, hp, hsecond⟩ := Option.bind_eq_some_iff.mp hsplit
    split at hsecond
    · obtain ⟨q, hq, he⟩ := Option.map_eq_some_iff.mp hsecond
      cases he
      unfold gapWord at hq
      split at hq
      · rename_i hword
        have hlast : "criteria".toList = "criteri".toList ++ ['a'] := by decide +kernel
        rw [hlast] at hword hq
        obtain ⟨t', c, htake, hc⟩ := startsWith_last 'a' _ _ hword
        cases hq
        rw [htake]
        refine ⟨c, ?_, ?_, d.isWord_same c hc⟩
        · exact (t.takeWhile (· = '#') ++ (p.1 ++ (p.2.takeWhile d.space ++ t'))).reverse
        · simp only [List.reverse_append, List.append_assoc, List.reverse_cons, List.reverse_nil,
            List.nil_append, List.cons_append]
      · cases hq
    · cases hsecond
  · cases hsplit

/-- The section that the pattern captures from here. -/
theorem acSection_run (b t : List Char) :
    (d.acSection.run ⟨b, t, []⟩ some).map (·.groupText 1) = sectionAt d b t := by
  unfold Dialect.acSection sectionAt
  rw [run_cat_append, run_cat_append, heading_run]
  by_cases hline : b.head?.all d.startsLine
  · rw [if_pos hline, if_pos hline]
    cases hsplit : headingSplit d.space d.same t with
    | none => rfl
    | some p =>
      obtain ⟨c, h', hrev, hc⟩ := headingSplit_last d t p.1 p.2 hsplit
      rw [Option.bind_some, Option.bind_some, hrev, run_cat_cons, run_assert]
      unfold sectionBelow
      show Option.map _ (if (d.isWord c != p.2.head?.any d.isWord) = true then _ else none) = _
      rw [hc]
      cases hword : p.2.head?.any d.isWord with
      | true => rfl
      | false =>
        rw [if_pos (by rfl), if_neg Bool.false_ne_true, run_cat_cons, run_star_lazy,
          takeLazy_until d.dot '\n' (fun before after =>
            (Re.cat d.capture).run ⟨before, after, []⟩ some)]
        · split
          · cases p.2.dropWhile (· ≠ '\n') with
            | nil => rfl
            | cons x rest =>
              obtain ⟨s, hs, hgroups⟩ := capture_run d '\n'
                ((p.2.takeWhile (· ≠ '\n')).reverse ++ (c :: h' ++ b)) rest []
              show Option.map _ ((Re.cat d.capture).run _ some) = _
              rw [hs]
              show some (s.groupText 1) = some (sectionText d '\n' rest)
              unfold State.groupText
              rw [hgroups]
              rfl
          · rfl
        · intro before rest
          obtain ⟨s, hs, _⟩ := capture_run d '\n' before rest []
          rw [hs]
          rfl
        · intro before
          rfl
        · intro before x rest
          show (if decide (x = '\n') then _ else none) = _
          by_cases hx : x = '\n'
          · rw [if_pos (decide_eq_true hx), if_pos hx]
          · rw [if_neg (by simpa using hx), if_neg hx]
  · rw [if_neg hline, if_neg hline]
    rfl

end

end Agentrail.AcceptanceParity
