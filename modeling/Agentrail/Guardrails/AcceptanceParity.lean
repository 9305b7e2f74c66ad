import Agentrail.Guardrails.Dialects

/-!
# The two acceptance-criteria gates on one body

`validateAcceptanceCriteria` and `validate` search a body with the same two regular
expressions, each in its own dialect.  The dialects differ in what starts a line, what
a blank is, what `.` is and which letters fold together, so the gates agree on a body
where none of this matters (`readable`): nothing opens a section of acceptance criteria
for either side, or the first heading that does, its line and the section below hold no
character that the dialects read differently.
-/

namespace Agentrail.AcceptanceParity

open Regex
open InputContract (Interpreter)

/-! ## Bodies that both sides read alike -/

/-- Read alike in a section: neither a blank of one side nor the end of a line for one. -/
def plain (c : Char) : Bool := !blankOfOne c && (c = '\n' || !Js.isLineTerminator c)

/-- Read alike in a heading: neither a blank of one side nor an `i` for one. -/
def headingChar (c : Char) : Bool :=
  !blankOfOne c && (c.toNat ≠ 0x130 && c.toNat ≠ 0x131)

/-- Only plain characters up to the next heading. -/
def quiet : Char → List Char → Bool
  | _, [] => true
  | prev, c :: rest =>
    (prev = '\n' && isHeading (fun x => Js.isSpace x && Py.isSpace x) (c :: rest)) ||
      (plain c && quiet c rest)

/-- What either side takes for the heading of the criteria. -/
def eitherHeading (b t : List Char) : Option (List Char × List Char) :=
  if b.head?.all Js.isLineTerminator then headingSplit eitherSpace Py.same t else none

/-- Whether a section begins below: the word ends here, and the line ends. -/
def opens (t : List Char) : Bool := !t.head?.any Js.isWord && t.contains '\n'

/-- The heading `h` at the place `b`, the rest of its line and its section are read alike. -/
def clear (isAlnum : Char → Bool) (b h t : List Char) : Bool :=
  b.head?.all (· = '\n') && h.all headingChar &&
    t.head?.all (fun c => c.toNat < 128 || !isAlnum c) &&
    (t.takeWhile (· ≠ '\n')).all (fun c => !Js.isLineTerminator c) &&
    quiet '\n' (t.dropWhile (· ≠ '\n')).tail

/-- The first heading that opens a section for either side is clear, or there is none. -/
def readable (isAlnum : Char → Bool) : List Char → List Char → Bool
  | _, [] => true
  | b, c :: t =>
    match eitherHeading b (c :: t) with
    | none => readable isAlnum (c :: b) t
    | some (h, rest) =>
      if opens rest then clear isAlnum b h rest else readable isAlnum (c :: b) t

theorem plain_space (c : Char) (h : plain c) : Js.isSpace c = Py.isSpace c := by
  unfold plain blankOfOne at h
  simpa using (Bool.and_eq_true_iff.mp h).1

theorem plain_startsLine (c : Char) (h : plain c) : Js.isLineTerminator c = decide (c = '\n') := by
  have hline := (Bool.and_eq_true_iff.mp h).2
  by_cases hc : c = '\n'
  · rw [hc]
    rfl
  · simpa [hc] using hline

/-- Past the first hash the text is not at a line start, so it is plain up to what follows the
hashes. -/
theorem plain_afterHashes (t : List Char) : ∀ prev, prev ≠ '\n' → quiet prev t →
    ∀ c, (t.dropWhile (· = '#')).head? = some c → plain c := by
  induction t with
  | nil =>
    intro prev _ _ c hc
    cases hc
  | cons x t ih =>
    intro prev hprev hquiet c hc
    rw [quiet, decide_eq_false hprev, Bool.false_and, Bool.false_or] at hquiet
    obtain ⟨hx, hrest⟩ := Bool.and_eq_true_iff.mp hquiet
    rw [List.dropWhile_cons] at hc
    by_cases hhash : x = '#'
    · rw [if_pos (decide_eq_true hhash)] at hc
      exact ih x (by rw [hhash]; decide) hrest c hc
    · rw [if_neg (by simpa using hhash)] at hc
      cases hc
      exact hx

theorem isHeading_plain (c : Char) (t : List Char) (hquiet : quiet c t) :
    isHeading Js.isSpace (c :: t) = isHeading Py.isSpace (c :: t) := by
  by_cases hhash : c = '#'
  · have hdrop : (c :: t).dropWhile (· = '#') = t.dropWhile (· = '#') := by
      rw [List.dropWhile_cons, if_pos (decide_eq_true hhash)]
    unfold isHeading
    rw [hdrop]
    cases hx : (t.dropWhile (· = '#')).head? with
    | none => rfl
    | some x =>
      have hplain := plain_afterHashes t c (by rw [hhash]; decide) hquiet x hx
      show (_ && Js.isSpace x) = (_ && Py.isSpace x)
      rw [plain_space x hplain]
  · unfold isHeading
    rw [List.takeWhile_cons, if_neg (by simpa using hhash)]
    rfl

theorem ascii_of_isWord (c : Char) (h : Js.isWord c) : c.toNat < 128 := by
  have hdigit : c.isDigit → c.toNat ≤ '9'.toNat := fun h => (Char.isDigit_iff_toNat.mp h).2
  have hupper : decide (c ≤ 'Z') → c.toNat ≤ 'Z'.toNat := fun h => of_decide_eq_true h
  have hlower : decide (c ≤ 'z') → c.toNat ≤ 'z'.toNat := fun h => of_decide_eq_true h
  have h9 : '9'.toNat = 57 := rfl
  have hZ : 'Z'.toNat = 90 := rfl
  have hz : 'z'.toNat = 122 := rfl
  unfold Js.isWord Js.isDigit at h
  simp only [Bool.or_eq_true, Bool.and_eq_true] at h
  rcases h with ((h | h) | h) | h
  · have hle := hdigit h
    omega
  · have hle := hupper h.2
    omega
  · have hle := hlower h.2
    omega
  · rw [of_decide_eq_true h]
    decide

section
variable (interpreter : Interpreter) (hascii : AsciiAlnum interpreter)

/-- Within ASCII both sides have the same word characters. -/
theorem isWord_same (c : Char) (hc : c.toNat < 128) :
    Js.isWord c = (py interpreter hascii).isWord c := by
  show Js.isWord c = (interpreter.isAlnum c || decide (c = '_'))
  rw [hascii c hc]
  exact of_ascii (P := fun c => Js.isWord c = (c.isAlphanum || decide (c = '_')))
    (by decide +kernel) c hc

/-- Both sides end the section at the same place, and it is plain. -/
theorem sectionText_same (t : List Char) : ∀ prev, (prev = '\n' ∨ plain prev) → quiet prev t →
    sectionText js prev t = sectionText (py interpreter hascii) prev t ∧
      ∀ c ∈ sectionText js prev t, plain c := by
  induction t with
  | nil => exact fun prev _ _ => ⟨rfl, fun c hc => absurd hc List.not_mem_nil⟩
  | cons c t ih =>
    intro prev hprev hquiet
    have hline : js.startsLine prev = (py interpreter hascii).startsLine prev := by
      show Js.isLineTerminator prev = decide (prev = '\n')
      rcases hprev with rfl | hprev
      · rfl
      · exact plain_startsLine prev hprev
    rw [quiet] at hquiet
    rw [sectionText, sectionText, ← hline]
    rcases Bool.or_eq_true_iff.mp hquiet with hstop | hgo
    · obtain ⟨hnl, hheading⟩ := Bool.and_eq_true_iff.mp hstop
      have hstart : js.startsLine prev = true := by
        rw [of_decide_eq_true hnl]
        rfl
      have hof : ∀ space : Char → Bool, (∀ x, (Js.isSpace x && Py.isSpace x) → space x) →
          isHeading space (c :: t) := by
        intro space hspace
        unfold isHeading at hheading ⊢
        obtain ⟨hhashes, hblank⟩ := Bool.and_eq_true_iff.mp hheading
        refine Bool.and_eq_true_iff.mpr ⟨hhashes, ?_⟩
        cases hx : ((c :: t).dropWhile (· = '#')).head? with
        | none => rw [hx] at hblank; cases hblank
        | some x => rw [hx] at hblank; exact hspace x hblank
      have hjs : isHeading js.space (c :: t) := hof _ fun x hx => (Bool.and_eq_true_iff.mp hx).1
      have hpy : isHeading (py interpreter hascii).space (c :: t) :=
        hof _ fun x hx => (Bool.and_eq_true_iff.mp hx).2
      rw [hstart, hjs, hpy, Bool.and_true, if_pos rfl]
      exact ⟨rfl, fun c hc => absurd hc List.not_mem_nil⟩
    · obtain ⟨hc, hrest⟩ := Bool.and_eq_true_iff.mp hgo
      have hheading : isHeading js.space (c :: t) = isHeading (py interpreter hascii).space (c :: t) :=
        isHeading_plain c t hrest
      obtain ⟨hsame, hplain⟩ := ih c (Or.inr hc) hrest
      rw [← hheading, hsame]
      split
      · exact ⟨rfl, fun c hc => absurd hc List.not_mem_nil⟩
      · exact ⟨rfl, List.forall_mem_cons.mpr ⟨hc, hsame ▸ hplain⟩⟩

/-- Where neither side has a heading neither has a section. -/
theorem sectionAt_of_no_heading (d : Dialect)
    (hline : ∀ c, d.startsLine c → Js.isLineTerminator c) (b t : List Char)
    (h : eitherHeading b t = none) : sectionAt d b t = none := by
  unfold sectionAt
  unfold eitherHeading at h
  by_cases hb : b.head?.all d.startsLine
  · have heither : b.head?.all Js.isLineTerminator := by
      cases hc : b.head? with
      | none => rfl
      | some c => rw [hc] at hb; exact hline c hb
    rw [if_pos heither] at h
    rw [if_pos hb]
    cases hsplit : headingSplit d.space d.same t with
    | none => rfl
    | some p =>
      rw [headingSplit_wider d.space_either d.same_either t p hsplit] at h
      cases h
  · rw [if_neg hb]

/-- Where a heading opens nothing neither side has a section. -/
theorem sectionAt_of_not_opens (d : Dialect) (hword : ∀ c, Js.isWord c → d.isWord c)
    (b t h rest : List Char) (hheading : eitherHeading b t = some (h, rest))
    (hopens : opens rest = false) : sectionAt d b t = none := by
  unfold sectionAt
  unfold eitherHeading at hheading
  split at hheading
  · split
    · cases hsplit : headingSplit d.space d.same t with
      | none => rfl
      | some p =>
        rw [headingSplit_wider d.space_either d.same_either t p hsplit] at hheading
        cases hheading
        rw [Option.bind_some]
        unfold sectionBelow
        split
        · rfl
        · rename_i hd
          have hnl : rest.contains '\n' = false := by
            rcases Bool.and_eq_false_iff.mp hopens with hjs | hnl
            · exfalso
              apply hd
              cases hc : rest.head? with
              | none => rw [hc] at hjs; cases hjs
              | some c =>
                rw [hc] at hjs
                exact hword c (by simpa using hjs)
            · exact hnl
          have hdrop : rest.dropWhile (· ≠ '\n') = [] := by
            rw [List.dropWhile_eq_nil_iff]
            intro c hc
            refine decide_eq_true fun he => ?_
            rw [he] at hc
            rw [List.contains_iff_mem.mpr hc] at hnl
            cases hnl
          rw [hdrop]
          split <;> rfl
    · rfl
  · cases hheading

/-- A heading of characters that both sides know is a heading of each. -/
theorem headingSplit_of_known (d : Dialect)
    (hspace : ∀ c, blankOfOne c = false → eitherSpace c → d.space c)
    (hsame : ∀ l ∈ letters, ∀ c, c.toNat ≠ 0x130 ∧ c.toNat ≠ 0x131 → Py.same l c → d.same l c)
    (t h rest : List Char) (hsplit : headingSplit eitherSpace Py.same t = some (h, rest))
    (hknown : h.all headingChar) : headingSplit d.space d.same t = some (h, rest) := by
  have hchars := List.all_eq_true.mp hknown
  refine headingSplit_narrower d.space_either t h rest hsplit ?_ ?_
  · intro c hc
    exact hspace c (by simpa using (Bool.and_eq_true_iff.mp (hchars c hc)).1)
  · intro c hc l hl
    exact hsame l hl c (by simpa using (Bool.and_eq_true_iff.mp (hchars c hc)).2)

theorem sectionAt_of_heading (d : Dialect) (b t h rest : List Char) (x : Char) (below : List Char)
    (hline : b.head?.all d.startsLine) (hsplit : headingSplit d.space d.same t = some (h, rest))
    (hword : ¬ rest.head?.any d.isWord) (hdots : (rest.takeWhile (· ≠ '\n')).all d.dot)
    (hbelow : rest.dropWhile (· ≠ '\n') = x :: below) :
    sectionAt d b t = some (sectionText d '\n' below) := by
  unfold sectionAt sectionBelow
  rw [if_pos hline, hsplit, Option.bind_some, if_neg hword, if_pos hdots, hbelow]

/-- Below a clear heading both sides have one section, which is plain. -/
theorem sectionAt_of_clear (b t h rest : List Char) (hheading : eitherHeading b t = some (h, rest))
    (hopens : opens rest) (hclear : clear interpreter.isAlnum b h rest) :
    ∃ sec, sectionAt js b t = some sec ∧ sectionAt (py interpreter hascii) b t = some sec ∧
      ∀ c ∈ sec, plain c := by
  unfold clear at hclear
  simp only [Bool.and_eq_true] at hclear
  obtain ⟨⟨⟨⟨hb, hh⟩, hnext⟩, hdots⟩, hquiet⟩ := hclear
  obtain ⟨hword, hnl⟩ := Bool.and_eq_true_iff.mp hopens
  unfold eitherHeading at hheading
  split at hheading
  · rename_i hline
    obtain ⟨x, below, hbelow⟩ : ∃ x below, rest.dropWhile (· ≠ '\n') = x :: below := by
      cases hdrop : rest.dropWhile (· ≠ '\n') with
      | nil =>
        have hnone := List.dropWhile_eq_nil_iff.mp hdrop '\n' (List.contains_iff_mem.mp hnl)
        simp at hnone
      | cons x below => exact ⟨x, below, rfl⟩
    rw [hbelow] at hquiet
    obtain ⟨hsame, hplain⟩ := sectionText_same interpreter hascii below '\n' (Or.inl rfl) hquiet
    refine ⟨sectionText js '\n' below, ?_, ?_, hplain⟩
    · have hsplit := headingSplit_of_known js js_space_of_either
        (fun l hl c hi hs => (same_eq l hl c hi).trans hs) t h rest hheading hh
      have hnoWord : ¬ rest.head?.any js.isWord := by
        show ¬ rest.head?.any Js.isWord
        simpa using hword
      exact sectionAt_of_heading js b t h rest x below hline hsplit hnoWord hdots hbelow
    · have hsplit := headingSplit_of_known (py interpreter hascii) py_space_of_either
        (fun _ _ _ _ hs => hs) t h rest hheading hh
      have hnoWord : ¬ rest.head?.any (py interpreter hascii).isWord := by
        cases hc : rest.head? with
        | none => exact Bool.false_ne_true
        | some c =>
          rw [hc] at hword hnext
          by_cases h128 : c.toNat < 128
          · have hjs : Js.isWord c = false := by simpa using hword
            show ¬ (py interpreter hascii).isWord c = true
            rw [← isWord_same interpreter hascii c h128, hjs]
            exact Bool.false_ne_true
          · have hno : (decide (c.toNat < 128) || !interpreter.isAlnum c) = true := hnext
            have hunder : c ≠ '_' := by
              rintro rfl
              exact h128 (by decide)
            rw [decide_eq_false h128, Bool.false_or] at hno
            show ¬ (interpreter.isAlnum c || decide (c = '_')) = true
            simpa [hunder] using hno
      rw [hsame]
      exact sectionAt_of_heading (py interpreter hascii) b t h rest x below hb hsplit hnoWord
        (List.all_eq_true.mpr fun _ _ => rfl) hbelow
  · cases hheading

/-- The first section that a search finds. -/
theorem find_acSection (d : Dialect) (b : List Char) (c : Char) (t : List Char) :
    (find d.acSection b (c :: t)).map (·.groupText 1) =
      (sectionAt d b (c :: t)).or ((find d.acSection (c :: b) t).map (·.groupText 1)) := by
  rw [← acSection_run, ← Option.map_or]
  rfl

theorem find_acSection_nil (d : Dialect) (b : List Char) :
    (find d.acSection b []).map (·.groupText 1) = none := by
  have hrun : find d.acSection b [] = d.acSection.run ⟨b, [], []⟩ some := rfl
  rw [hrun, acSection_run]
  unfold sectionAt
  split <;> rfl

/-- Both sides find one section in a readable body. -/
theorem find_acSection_same (t : List Char) : ∀ b, readable interpreter.isAlnum b t →
    (find js.acSection b t).map (·.groupText 1) =
        (find (py interpreter hascii).acSection b t).map (·.groupText 1) ∧
      ∀ sec, (find js.acSection b t).map (·.groupText 1) = some sec → ∀ c ∈ sec, plain c := by
  have hpyLine : ∀ c, (py interpreter hascii).startsLine c → Js.isLineTerminator c := by
    intro c hc
    rw [of_decide_eq_true hc]
    rfl
  have hpyWord : ∀ c, Js.isWord c → (py interpreter hascii).isWord c := fun c hc =>
    (isWord_same interpreter hascii c (ascii_of_isWord c hc)).symm.trans hc
  induction t with
  | nil =>
    intro b _
    rw [find_acSection_nil, find_acSection_nil]
    exact ⟨rfl, fun sec hsec => by cases hsec⟩
  | cons c t ih =>
    intro b hread
    rw [find_acSection, find_acSection]
    rw [readable] at hread
    cases hheading : eitherHeading b (c :: t) with
    | none =>
      rw [hheading] at hread
      rw [sectionAt_of_no_heading js (fun _ h => h) b _ hheading,
        sectionAt_of_no_heading _ hpyLine b _ hheading, Option.none_or, Option.none_or]
      exact ih (c :: b) hread
    | some p =>
      rw [hheading] at hread
      cases hopens : opens p.2 with
      | false =>
        dsimp only at hread
        rw [hopens, if_neg Bool.false_ne_true] at hread
        rw [sectionAt_of_not_opens js (fun _ h => h) b _ p.1 p.2 hheading hopens,
          sectionAt_of_not_opens _ hpyWord b _ p.1 p.2 hheading hopens, Option.none_or,
          Option.none_or]
        exact ih (c :: b) hread
      | true =>
        dsimp only at hread
        rw [hopens, if_pos rfl] at hread
        obtain ⟨sec, hjs, hpy, hplain⟩ :=
          sectionAt_of_clear interpreter hascii b _ p.1 p.2 hheading hopens hread
        rw [hjs, hpy, Option.some_or, Option.some_or]
        exact ⟨rfl, fun _ he => Option.some.inj he ▸ hplain⟩

end

/-! ## Criteria -/

theorem trim_same (t : List Char) (h : ∀ c ∈ t, plain c) : Js.trim t = Py.strip t := by
  have hstart := dropWhile_same t fun c hc => plain_space c (h c hc)
  have hend := dropWhile_same (t.dropWhile Py.isSpace).reverse fun c hc =>
    plain_space c (h c ((List.dropWhile_suffix _).mem (List.mem_reverse.mp hc)))
  unfold Js.trim Js.trimStart Py.strip
  rw [hstart, hend]

theorem bol_agree : Agree (plain ·) Js.bol Py.bol := by
  refine .assert _ _ fun before after hb _ => ?_
  cases before with
  | nil => rfl
  | cons c before => exact plain_startsLine c (hb c List.mem_cons_self)

theorem eol_agree : Agree (plain ·) Js.eol Py.eol := by
  refine .assert _ _ fun before after _ ha => ?_
  cases after with
  | nil => rfl
  | cons c after => exact plain_startsLine c (ha c List.mem_cons_self)

theorem space_agree : Agree (plain ·) Js.space Py.space := .cls _ _ plain_space

theorem dot_agree : Agree (plain ·) Js.dot Py.dot := by
  refine .cls _ _ fun c hc => ?_
  rw [plain_startsLine c hc]
  exact (decide_not ..).symm

theorem checkbox_agree : Agree (plain ·) IntakeGate.CHECKBOX InputContract.checkbox :=
  Agree.cat <| .cons bol_agree <| .cons (.star true space_agree) <| .cons (Agree.refl _) <|
    .cons (.star true space_agree) <| .cons (Agree.refl _) <| .cons (Agree.refl _) <|
    .cons (Agree.refl _) <| .cons (.star true space_agree) <|
    .cons (.group 1 (Agree.plus false dot_agree)) <| .cons (.star true space_agree) <|
    .cons eol_agree .nil

def jsCriteria (sec : List Char) : List (List Char) :=
  (findAll IntakeGate.CHECKBOX sec).filterMap fun m =>
    if Js.trim (m.groupText 1) = [] then none else some (Js.trim (m.groupText 1))

def pyCriteria (sec : List Char) : List (List Char) :=
  ((findAll InputContract.checkbox sec).map fun m => Py.strip (m.groupText 1)).filter fun c => c ≠ []

/-- The checkboxes of a plain section. -/
theorem criteria_same (sec : List Char) (h : ∀ c ∈ sec, plain c) :
    jsCriteria sec = pyCriteria sec := by
  obtain ⟨hfound, hover⟩ := checkbox_agree.findAll sec h
  unfold jsCriteria pyCriteria
  rw [← hfound]
  clear hfound
  generalize findAll IntakeGate.CHECKBOX sec = found at hover ⊢
  induction found with
  | nil => rfl
  | cons m found ih =>
    obtain ⟨hm, hrest⟩ := List.forall_mem_cons.mp hover
    rw [List.filterMap_cons, List.map_cons, List.filter_cons, ← trim_same _ (hm.groupText 1),
      ih hrest]
    by_cases hempty : Js.trim (m.groupText 1) = []
    · simp [hempty]
    · simp [hempty]

theorem jsCriteria_nil : jsCriteria [] = [] := by decide +kernel

theorem validateAcceptanceCriteria_eq (body : List Char) (criteria : List (List Char)) :
    IntakeGate.validateAcceptanceCriteria body = .ok criteria ↔
      ∃ sec, (find js.acSection [] body).map (·.groupText 1) = some sec ∧
        jsCriteria sec = criteria ∧ criteria ≠ [] := by
  unfold IntakeGate.validateAcceptanceCriteria
  rw [acSection_js]
  cases hfound : find js.acSection [] body with
  | none =>
    refine ⟨fun h => (by cases h), ?_⟩
    rintro ⟨sec, hsec, _⟩
    cases hsec
  | some found =>
    have hcriteria : ((findAll IntakeGate.CHECKBOX (found.groupText 1)).filterMap fun m =>
        let text := Js.trim (m.groupText 1)
        if text = [] then none else some text) = jsCriteria (found.groupText 1) := rfl
    simp only [hcriteria]
    constructor
    · intro h
      split at h
      · cases h
      · cases h
        rename_i hlen
        exact ⟨_, rfl, rfl, fun he => hlen (by rw [he]; rfl)⟩
    · rintro ⟨sec, hsec, rfl, hne⟩
      cases hsec
      rw [if_neg fun h => hne (List.length_eq_zero_iff.mp h)]

section
variable (interpreter : Interpreter) (hascii : AsciiAlnum interpreter)

theorem validate_eq (body : List Char) (criteria : List (List Char)) :
    InputContract.validate interpreter body = .validated criteria ↔
      ∃ sec, (find (py interpreter hascii).acSection [] body).map (·.groupText 1) = some sec ∧
        sec ≠ [] ∧ pyCriteria sec = criteria ∧ criteria ≠ [] := by
  have hsection : InputContract.acceptanceSection interpreter body =
      ((find (py interpreter hascii).acSection [] body).map (·.groupText 1)).getD [] := by
    unfold InputContract.acceptanceSection
    rw [acSection_py interpreter hascii]
    cases find (py interpreter hascii).acSection [] body <;> rfl
  unfold InputContract.validate InputContract.parseAcceptanceCriteria
  rw [hsection]
  cases (find (py interpreter hascii).acSection [] body).map (·.groupText 1) with
  | none =>
    refine ⟨fun h => (by cases h), ?_⟩
    rintro ⟨sec, hsec, _⟩
    cases hsec
  | some sec =>
    have hcriteria : ((findAll InputContract.checkbox sec).map fun m =>
        Py.strip (m.groupText 1)).filter (fun c => c ≠ []) = pyCriteria sec := rfl
    simp only [Option.getD_some, hcriteria]
    constructor
    · intro h
      split at h
      · cases h
      · rename_i hne
        split at h
        · cases h
        · rename_i hcriteria
          cases h
          exact ⟨sec, rfl, hne, rfl, hcriteria⟩
    · rintro ⟨sec', hsec, hne, rfl, hcriteria⟩
      cases hsec
      simp only [if_neg hne, if_neg hcriteria]

/-- The criteria of the section that a readable body has. -/
theorem criteria_found_same (body : List Char) (hread : readable interpreter.isAlnum [] body)
    (criteria : List (List Char)) :
    (∃ sec, (find js.acSection [] body).map (·.groupText 1) = some sec ∧
        jsCriteria sec = criteria ∧ criteria ≠ []) ↔
      ∃ sec, (find (py interpreter hascii).acSection [] body).map (·.groupText 1) = some sec ∧
        sec ≠ [] ∧ pyCriteria sec = criteria ∧ criteria ≠ [] := by
  obtain ⟨hfound, hplain⟩ := find_acSection_same interpreter hascii body [] hread
  rw [hfound] at hplain ⊢
  constructor
  · rintro ⟨sec, hsec, rfl, hne⟩
    refine ⟨sec, hsec, ?_, (criteria_same sec (hplain sec hsec)).symm, hne⟩
    rintro rfl
    exact hne jsCriteria_nil
  · rintro ⟨sec, hsec, _, rfl, hne⟩
    exact ⟨sec, hsec, criteria_same sec (hplain sec hsec), hne⟩

include hascii

/-- **Two gates, one verdict.** On a readable body both sides accept the same criteria or both
refuse. -/
theorem acceptance_gates_agree (body : List Char)
    (hread : readable interpreter.isAlnum [] body) (criteria : List (List Char)) :
    IntakeGate.validateAcceptanceCriteria body = .ok criteria ↔
      InputContract.validate interpreter body = .validated criteria := by
  rw [validateAcceptanceCriteria_eq, validate_eq interpreter hascii]
  exact criteria_found_same interpreter hascii body hread criteria

end

/-- An interpreter on ASCII text. -/
def asciiInterpreter : Interpreter where
  isAlnum := Char.isAlphanum
  lower := fun t => t.map Char.toLower
  sha256Hex := fun _ => []
  rateLimitWindow := none

theorem acceptance_gates_agree_lf :
    IntakeGate.validateAcceptanceCriteria "## Acceptance criteria\n- [ ] a\n".toList = .ok [['a']] ↔
      InputContract.validate asciiInterpreter "## Acceptance criteria\n- [ ] a\n".toList =
        .validated [['a']] :=
  acceptance_gates_agree asciiInterpreter (fun _ _ => rfl) _ (by decide +kernel) _

/-- A carriage return ends the heading for the one side only. -/
theorem crlf_heading_refused :
    IntakeGate.validateAcceptanceCriteria "## Acceptance criteria\r\n- [ ] a\r\n".toList =
        .rejected "no 'Acceptance criteria' section in the issue body" ∧
      InputContract.validate asciiInterpreter "## Acceptance criteria\r\n- [ ] a\r\n".toList =
        .validated [['a']] := by
  decide +kernel

end Agentrail.AcceptanceParity
