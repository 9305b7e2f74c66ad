import Mathlib.Data.UInt
import Agentrail.Dependencies.GoSumdbTimeline
import Agentrail.Py.Lines

/-!
# Accepted lookups are canonical

What `parse_signed_go_sumdb_lookup` accepts is the rendering of what it parsed:
the record number in decimal, the record's two lines, the signed text and one
signature line (`renderLookup`).  Each reader of the parser has one lemma that
gives its input back: `splitOn1_join`, `partitionAt_join`, `splitlinesAux_line_join`,
`boundedDecimal_render`, `decodeCanonicalBase64_render`.  The signed text itself
is kept as bytes; its three lines are read with `splitlines`, so the text fixes
them up to the characters that end the first two (`parseTreeText_render`).
-/

namespace Agentrail.GoSumdb

open Py

/-! ## Numbers and base 64 -/

/-- `_DECIMAL` accepts one spelling of each number. -/
theorem boundedDecimal_render (value : Text) (label : String) (n : Nat)
    (h : boundedDecimal value label = .ok n) : value = Nat.toDigits 10 n := by
  unfold boundedDecimal at h
  rw [ite_error_eq_ok] at h
  obtain ⟨hcheck, hn⟩ := h
  cases hn
  simp only [Bool.or_eq_true, Bool.not_eq_true', not_or, Bool.not_eq_false] at hcheck
  obtain ⟨⟨hdecimal, -⟩, -⟩ := hcheck
  fun_cases isDecimalText value with
  | case1 => cases hdecimal
  | case2 => rfl
  | case3 c s hne =>
    rw [isDecimalText] at hdecimal
    · simp only [Bool.and_eq_true, decide_eq_true_eq, List.all_eq_true] at hdecimal
      obtain ⟨⟨h1, h9⟩, hs⟩ := hdecimal
      have h1' : 49 ≤ c.toNat := h1
      have h9' : c.toNat ≤ 57 := h9
      have hc : c.isDigit = true := Char.isDigit_iff_toNat.mpr
        ⟨by have h0 : '0'.toNat = 48 := rfl; omega, h9'⟩
      have hdigits : ∀ x ∈ c :: s, x.isDigit = true := by
        intro x hx
        rcases List.mem_cons.mp hx with rfl | hx
        · exact hc
        · exact isDigit_of_isDigit09 x (hs x hx)
      have hhead : (c :: s).head? ≠ some '0' := by
        intro hzero
        cases hzero
        exact absurd h1' (by decide)
      rw [intOfDecimal_digits _ hdigits, (toDigits_ofDigitChars _ hdigits (by simp) hhead).2]
    · exact hne

theorem decodeCanonicalBase64_render (value : Text) (label : String) (b : Bytes)
    (h : decodeCanonicalBase64 value label = .ok b) : value = Base64.encode b := by
  unfold decodeCanonicalBase64 at h
  split at h
  · split at h
    · next henc =>
      cases h
      exact henc.symm
    · cases h
  · cases h

theorem canonicalH1_ok (value : Text) (label : String) (t : Text)
    (h : canonicalH1 value label = .ok t) : value = t := by
  unfold canonicalH1 at h
  split at h
  · simp only [throw_eq_error, error_bind, pure_eq_ok, except_bind_eq_ok, ite_error_eq_ok] at h
    obtain ⟨_, -, -, h⟩ := h
    cases h
    rfl
  · cases h

/-! ## The signed note -/

/-- The signed text of a tree head, its three lines ended by the given characters. -/
def treeText (size : Nat) (hash : Bytes32) (c d : Char) : Text :=
  treePrefix ++ c :: (Nat.toDigits 10 size ++ d :: (Base64.encode hash.val ++ ['\n']))

theorem parseTreeText_render (text : Text) (size : Nat) (hash : Bytes32)
    (h : parseTreeText text = .ok (size, hash)) :
    ∃ c d, isLineBreak c = true ∧ isLineBreak d = true ∧ text = treeText size hash c d := by
  unfold parseTreeText at h
  simp only [throw_eq_error, error_bind, pure_eq_ok] at h
  split at h
  · cases h
  · next hends =>
    simp only [Bool.or_eq_true, decide_eq_true_eq, not_or, ne_eq, not_not] at hends
    obtain ⟨hr, hend⟩ := hends
    split at h
    · next first second third hlines =>
      simp only [ite_error_eq_ok, except_bind_eq_ok] at h
      obtain ⟨hstarts, n, hn, digest, hdigest, h⟩ := h
      split at h
      · next hlength =>
        rw [ite_error_eq_ok] at h
        obtain ⟨-, h⟩ := h
        cases h
        obtain ⟨c, r1, hc, htext, h1, hr1, hend1⟩ :=
          splitlinesAux_line_join text [] _ _ hr hend hlines
        have hne1 : r1 ≠ [] := by rintro rfl; cases h1
        rw [List.getLast?_cons_of_ne_nil hne1] at hend1
        obtain ⟨d, r2, hd, hr1', h2, hr2, hend2⟩ :=
          splitlinesAux_line_join r1 [] _ _ hr1 hend1 h1
        have hne2 : r2 ≠ [] := by rintro rfl; cases h2
        rw [List.getLast?_cons_of_ne_nil hne2] at hend2
        obtain ⟨e, r3, he, hr2', h3, -, hend3⟩ :=
          splitlinesAux_line_join r2 [] _ _ hr2 hend2 h2
        obtain rfl := splitlines_eq_nil r3 h3
        obtain rfl : e = '\n' := Option.some.inj hend3
        refine ⟨c, d, hc, hd, ?_⟩
        rw [List.reverse_nil, List.nil_append] at htext hr1' hr2'
        rw [htext, hr1', hr2', not_not.mp hstarts, boundedDecimal_render _ _ _ hn,
          decodeCanonicalBase64_render _ _ _ hdigest]
        rfl
      · cases h
    · cases h

/-- The line that carries the signature. -/
def signatureLine (signature : Bytes) : Text :=
  noteSignaturePrefix ++ goSumdbName ++ [' '] ++ Base64.encode signature

def renderNote (head : SignedGoSumdbTreeHead) (signature : Bytes) : Bytes :=
  head.signedTextBytes ++ utf8Encode ('\n' :: (signatureLine signature ++ ['\n']))

section
variable (sig : Signatures)

/-- The signature is the pinned key's, over the text of the head. -/
def SignedBy (head : SignedGoSumdbTreeHead) (signature : Bytes) : Prop :=
  ∃ keyHash publicKey, officialVerifier sig = .ok (keyHash, publicKey) ∧ signature.length = 68 ∧
    intFromBytes (signature.take 4) = keyHash ∧
    sig.ed25519Verify publicKey (signature.drop 4) head.signedTextBytes = true

theorem parseSignedTreeNote_render (note : Bytes) (head : SignedGoSumdbTreeHead)
    (h : parseSignedTreeNote sig note = .ok head) :
    head.signedNoteBytes = note ∧
    ∃ signature, note = renderNote head signature ∧ SignedBy sig head signature ∧
      ∃ c d, isLineBreak c = true ∧ isLineBreak d = true ∧ head.signedTextBytes =
        utf8Encode (treeText head.treeSize head.treeHashBytes c d) := by
  unfold parseSignedTreeNote at h
  split at h
  · next text hdecode =>
    simp only [throw_eq_error, error_bind, pure_eq_ok, ite_error_eq_ok] at h
    obtain ⟨hends, hparts, h⟩ := h
    simp only [Bool.or_eq_true, decide_eq_true_eq, not_or, ne_eq, not_not] at hends hparts
    obtain ⟨hr, hend⟩ := hends
    obtain ⟨⟨hsep, -⟩, hblock⟩ := hparts
    have hjoin := rpartition_join text ['\n', '\n'] hsep
    generalize hbody : (rpartition text ['\n', '\n']).1 = body at h hjoin
    generalize hlast : (rpartition text ['\n', '\n']).2.2 = block at h hjoin hblock
    split at h
    · next line hline =>
      simp only [ite_error_eq_ok, except_bind_eq_ok, Except.ok.injEq] at h
      obtain ⟨hstarts, signature, hsignature, ⟨keyHash, publicKey⟩, hkey, hwrong, hverify, tree,
        htree, rfl⟩ := h
      simp only [Bool.or_eq_true, decide_eq_true_eq, not_or, ne_eq, not_not] at hwrong
      have hrblock : '\r' ∉ block := fun hmem => hr (by
        rw [hjoin]
        exact List.mem_append_right _ hmem)
      have hendblock : block.getLast? = some '\n' := by
        rw [hjoin, List.getLast?_append_of_ne_nil _ hblock] at hend
        exact hend
      obtain ⟨c, rest, -, hcut, hnil, -, hfeed⟩ :=
        splitlinesAux_line_join block [] line [] hrblock hendblock hline
      obtain rfl := splitlines_eq_nil rest hnil
      obtain rfl : c = '\n' := Option.some.inj hfeed
      obtain ⟨code, hcode⟩ := List.isPrefixOf_iff_prefix.mp (by simpa only
        [Bool.not_eq_true', Bool.not_eq_false] using hstarts)
      have hencoded := decodeCanonicalBase64_render _ _ _ hsignature
      rw [← hcode, List.drop_left] at hencoded
      obtain ⟨b, d, hb, hd, htext⟩ := parseTreeText_render _ _ _ htree
      refine ⟨rfl, signature, ?_, ⟨keyHash, publicKey, hkey, hwrong.1, hwrong.2, by simpa using
        hverify⟩, b, d, hb, hd, by rw [htext]⟩
      rw [← utf8Encode_utf8Decode note text hdecode, hjoin]
      rw [List.reverse_nil, List.nil_append] at hcut
      unfold renderNote signatureLine
      rw [← utf8Encode_append, hcut, ← hcode, ← hencoded]
      congr 1
      simp
    · cases h
  · cases h

/-! ## Whole lookups -/

/-- The two lines of a record. -/
def recordText (lookup : SignedGoSumdbLookup) : Text :=
  lookup.modulePath ++ ' ' :: (lookup.version ++ ' ' :: (lookup.moduleH1 ++ '\n' ::
    (lookup.modulePath ++ ' ' :: (lookup.version ++ "/go.mod ".toList ++ lookup.goModH1 ++
      ['\n']))))

/-- The response that the fields of a lookup and the bytes of its signature make up. -/
def renderLookup (lookup : SignedGoSumdbLookup) (signature : Bytes) : Bytes :=
  utf8Encode (Nat.toDigits 10 lookup.recordNumber ++ '\n' :: (recordText lookup ++ ['\n'])) ++
    renderNote lookup.treeHead signature

theorem notMem_utf8Encode_toDigits (n : Nat) : (10 : UInt8) ∉ utf8Encode (Nat.toDigits 10 n) := by
  have hall : ∀ d : Fin 10, (10 : UInt8) ∉ String.utf8EncodeChar (Nat.digitChar d) := by decide
  intro h
  obtain ⟨c, hc, hmem⟩ := List.mem_flatMap.mp h
  have hdigit := Nat.isDigit_of_mem_toDigits (by omega) (by omega) hc
  have hrange := Char.isDigit_iff_toNat.mp hdigit
  have h0 : '0'.toNat = 48 := rfl
  have h9 : '9'.toNat = 57 := rfl
  rw [← digitChar_isDigit_value c hdigit] at hmem
  exact hall ⟨c.toNat - '0'.toNat, by omega⟩ hmem

/-- The record's own lines are what follows the line of its number. -/
theorem partition_block (block : Bytes) (number : Nat) (numberLine moduleLine goModLine : Text)
    (record : Text) (hdecode : utf8Decode block = some record)
    (hlines : splitOn1 '\n' record = [numberLine, moduleLine, goModLine])
    (hnumber : numberLine = Nat.toDigits 10 number) :
    block = utf8Encode numberLine ++ 10 :: utf8Encode (moduleLine ++ '\n' :: goModLine) ∧
      partition block [10] =
        (utf8Encode numberLine, [10], utf8Encode (moduleLine ++ '\n' :: goModLine)) := by
  have hjoin := splitOn1_join '\n' record
  rw [hlines] at hjoin
  have hblock : block =
      utf8Encode numberLine ++ 10 :: utf8Encode (moduleLine ++ '\n' :: goModLine) := by
    rw [← utf8Encode_utf8Decode block record hdecode, ← hjoin, List.intercalate_cons_cons,
      List.intercalate_cons_cons, List.intercalate_singleton, utf8Encode_append, utf8Encode_append,
      List.append_assoc]
    simp only [utf8Encode_append, List.append_assoc]
    rfl
  refine ⟨hblock, ?_⟩
  rw [hblock]
  exact partition_of_notMem 10 _ _ (by rw [hnumber]; exact notMem_utf8Encode_toDigits number)

/-- What a lookup and its signature are besides the response they render. -/
structure Canonical (lookup : SignedGoSumdbLookup) (signature : Bytes) : Prop where
  recordText : lookup.recordTextBytes = utf8Encode (recordText lookup)
  note : lookup.treeHead.signedNoteBytes = renderNote lookup.treeHead signature
  signedText : ∃ c d, isLineBreak c = true ∧ isLineBreak d = true ∧
    lookup.treeHead.signedTextBytes =
      utf8Encode (treeText lookup.treeHead.treeSize lookup.treeHead.treeHashBytes c d)
  signed : SignedBy sig lookup.treeHead signature

theorem parseSignedGoSumdbLookup_render (response modulePath version : PyObject)
    (lookup : SignedGoSumdbLookup)
    (h : parseSignedGoSumdbLookup sig response modulePath version = .ok lookup) :
    ∃ signature, response = .bytes (renderLookup lookup signature) ∧
      Canonical sig lookup signature := by
  unfold parseSignedGoSumdbLookup at h
  simp only [throw_eq_error, error_bind, pure_eq_ok] at h
  split at h
  · next bytes =>
    rw [ite_error_eq_ok] at h
    obtain ⟨-, h⟩ := h
    split at h
    · next path vers hidentity =>
      split at h
      · cases h
      · split at h
        · simp only [ite_error_eq_ok] at h
          obtain ⟨-, hparts, h⟩ := h
          simp only [Bool.or_eq_true, decide_eq_true_eq, not_or] at hparts
          have hjoin := partition_join bytes [10, 10] hparts.1.1
          generalize (partition bytes [10, 10]).1 = block at h hjoin
          generalize (partition bytes [10, 10]).2.2 = note at h hjoin
          split at h
          · next record hrecord =>
            split at h
            · next numberLine moduleLine goModLine hlines =>
              simp only [ite_error_eq_ok, except_bind_eq_ok, Except.ok.injEq] at h
              obtain ⟨number, hnumber, hprefixes, h1, hh1, h2, hh2, head, hhead, -, hraw, rfl⟩ := h
              have hdigits := boundedDecimal_render _ _ _ hnumber
              obtain ⟨hblock, hpartition⟩ := partition_block block number numberLine moduleLine
                goModLine record hrecord hlines hdigits
              simp only [Bool.or_eq_true, not_or, Bool.not_eq_true', Bool.not_eq_false]
                at hprefixes
              obtain ⟨moduleTail, hmodule⟩ := List.isPrefixOf_iff_prefix.mp hprefixes.1
              obtain ⟨goModTail, hgoMod⟩ := List.isPrefixOf_iff_prefix.mp hprefixes.2
              have hm := canonicalH1_ok _ _ _ hh1
              have hg := canonicalH1_ok _ _ _ hh2
              rw [← hmodule, List.drop_left] at hm
              rw [← hgoMod, List.drop_left] at hg
              subst hm hg
              obtain ⟨hnote, signature, hrender, hsigned, htext⟩ :=
                parseSignedTreeNote_render sig note head hhead
              refine ⟨signature, ?_, ?_, hnote.trans hrender, htext, hsigned⟩
              · rw [hjoin, hblock, hrender, hdigits, ← hmodule, ← hgoMod]
                simp only [renderLookup, recordText, utf8Encode_append, utf8Encode_newline,
                  utf8Encode_space, List.append_assoc, List.cons_append, List.nil_append]
                rfl
              · show (partition block [10]).2.2 ++ [10] = _
                rw [hpartition, ← hmodule, ← hgoMod]
                simp only [recordText, utf8Encode_append, utf8Encode_newline, utf8Encode_space,
                  List.append_assoc, List.cons_append, List.nil_append]
                rfl
            · cases h
          · cases h
        · cases h
    · cases h
  · cases h

/-- A record is accepted when each of its readers accepts its part. -/
theorem parseSignedGoSumdbLookup_ok (path vers block note moduleLine goModLine : Text)
    (moduleH1 goModH1 : Text) (head : SignedGoSumdbTreeHead)
    (hlength : (utf8Encode (block ++ '\n' :: '\n' :: note)).length ≤ goSumdbLookupMaxBytes)
    (hid : GoModules.validateGoModuleVersion (.str path) (.str vers) = none)
    (htext : (block ++ '\n' :: '\n' :: note).all (fun c => c ≠ '\r' && c ≠ Char.ofNat 0))
    (hparts : partition (utf8Encode (block ++ '\n' :: '\n' :: note)) [10, 10] =
      (utf8Encode block, [10, 10], utf8Encode note))
    (hne : utf8Encode block ≠ [] ∧ utf8Encode note ≠ [])
    (hlines : splitOn1 '\n' block = [['0'], moduleLine, goModLine])
    (hm : moduleLine = path ++ [' '] ++ vers ++ [' '] ++ moduleH1)
    (hg : goModLine = path ++ [' '] ++ vers ++ "/go.mod ".toList ++ goModH1)
    (hh1 : canonicalH1 moduleH1 "Go module checksum" = .ok moduleH1)
    (hh2 : canonicalH1 goModH1 "Go go.mod checksum" = .ok goModH1)
    (hnote : parseSignedTreeNote sig (utf8Encode note) = .ok head) (hsize : 0 < head.treeSize) :
    parseSignedGoSumdbLookup sig (.bytes (utf8Encode (block ++ '\n' :: '\n' :: note))) (.str path)
      (.str vers) = .ok
        { modulePath := path, version := vers, recordNumber := 0, moduleH1, goModH1,
          recordTextBytes := utf8Encode (moduleLine ++ '\n' :: goModLine) ++ [10],
          treeHead := head } := by
  obtain ⟨-, hraw⟩ := partition_block (utf8Encode block) 0 _ _ _ block
    (utf8Decode_utf8Encode block) hlines rfl
  have hplain : ∀ c ∈ block ++ '\n' :: '\n' :: note, c ≠ '\r' ∧ c ≠ Char.ofNat 0 :=
    fun c hc => by simpa using List.all_eq_true.mp htext c hc
  have hr : '\r' ∉ block ++ '\n' :: '\n' :: note := fun h => (hplain _ h).1 rfl
  have h0 : Char.ofNat 0 ∉ block ++ '\n' :: '\n' :: note := fun h => (hplain _ h).2 rfl
  have hb : boundedDecimal ['0'] "Go checksum database lookup record" = .ok 0 := by decide
  have hp1 : (path ++ [' '] ++ vers ++ [' ']).isPrefixOf moduleLine :=
    List.isPrefixOf_iff_prefix.mpr ⟨moduleH1, hm.symm⟩
  have hp2 : (path ++ [' '] ++ vers ++ "/go.mod ".toList).isPrefixOf goModLine :=
    List.isPrefixOf_iff_prefix.mpr ⟨goModH1, hg.symm⟩
  have hd1 : moduleLine.drop (path ++ [' '] ++ vers ++ [' ']).length = moduleH1 := by
    rw [hm, List.drop_left]
  have hd2 : goModLine.drop (path ++ [' '] ++ vers ++ "/go.mod ".toList).length = goModH1 := by
    rw [hg, List.drop_left]
  unfold parseSignedGoSumdbLookup
  simp only [throw_eq_error, error_bind, pure_eq_ok, utf8Decode_utf8Encode, hparts, hnote,
    if_neg (Nat.not_lt.mpr hlength), hid, hr, h0, hlines, hb, hp1, hp2, hd1, hd2, hh1, hh2, hraw,
    hne.1, hne.2]
  have hsize' : ¬ 0 ≥ head.treeSize := by omega
  show (if 0 ≥ head.treeSize then _ else _) = _
  rw [if_neg hsize']
  rfl

/-- **An accepted lookup is canonical.**  The response is the rendering of what was parsed from
it, so one lookup is parsed from one response. -/
theorem lookup_canonical :
    (∀ response modulePath version lookup,
      parseSignedGoSumdbLookup sig response modulePath version = .ok lookup →
      ∃ signature, response = .bytes (renderLookup lookup signature) ∧
        Canonical sig lookup signature) ∧
    (∀ response modulePath version response' modulePath' version' lookup,
      parseSignedGoSumdbLookup sig response modulePath version = .ok lookup →
      parseSignedGoSumdbLookup sig response' modulePath' version' = .ok lookup →
      response = response') := by
  refine ⟨parseSignedGoSumdbLookup_render sig, ?_⟩
  intro response modulePath version response' modulePath' version' lookup h h'
  obtain ⟨signature, rfl, hcanonical⟩ := parseSignedGoSumdbLookup_render sig _ _ _ _ h
  obtain ⟨signature', rfl, hcanonical'⟩ := parseSignedGoSumdbLookup_render sig _ _ _ _ h'
  have hnote : renderNote lookup.treeHead signature = renderNote lookup.treeHead signature' :=
    hcanonical.note.symm.trans hcanonical'.note
  unfold renderLookup
  rw [hnote]

end

/-! ## An accepted response -/

def sampleH1 : Text := "h1:".toList ++ List.replicate 43 'A' ++ ['=']
def sampleModuleLine : Text := "g.co/a v0.0.0 ".toList ++ sampleH1
def sampleGoModLine : Text := "g.co/a v0.0.0/go.mod ".toList ++ sampleH1
def sampleBlock : Text := '0' :: '\n' :: (sampleModuleLine ++ '\n' :: sampleGoModLine)
def sampleSignature : Bytes := [0x03, 0x3d, 0xe0, 0xae] ++ List.replicate 64 0

/-- The signed head of a tree of one record. -/
def sampleNote : Text :=
  sampleHeadText '1' 'A' ++ '\n' :: (signatureLine sampleSignature ++ ['\n'])

theorem length_sampleHash : (List.replicate 32 (0 : UInt8)).length = 32 := rfl

def sampleNoteHead : SignedGoSumdbTreeHead where
  signedNoteBytes := utf8Encode sampleNote
  signedTextBytes := utf8Encode (sampleHeadText '1' 'A')
  treeSize := 1
  treeHashBytes := ⟨List.replicate 32 0, length_sampleHash⟩

def sampleCanonicalLookup : SignedGoSumdbLookup where
  modulePath := "g.co/a".toList
  version := "v0.0.0".toList
  recordNumber := 0
  recordTextBytes := utf8Encode (sampleModuleLine ++ '\n' :: sampleGoModLine) ++ [10]
  moduleH1 := sampleH1
  goModH1 := sampleH1
  treeHead := sampleNoteHead

theorem parseSignedTreeNote_sample :
    parseSignedTreeNote sampleSignatures (utf8Encode sampleNote) = .ok sampleNoteHead := by
  unfold parseSignedTreeNote
  rw [utf8Decode_utf8Encode]
  decide +kernel

theorem sample_reads :
    partition (utf8Encode (sampleBlock ++ '\n' :: '\n' :: sampleNote)) [10, 10] =
      (utf8Encode sampleBlock, [10, 10], utf8Encode sampleNote) ∧
    (utf8Encode (sampleBlock ++ '\n' :: '\n' :: sampleNote)).length ≤ goSumdbLookupMaxBytes ∧
    (sampleBlock ++ '\n' :: '\n' :: sampleNote).all (fun c => c ≠ '\r' && c ≠ Char.ofNat 0) ∧
    GoModules.validateGoModuleVersion (.str "g.co/a".toList) (.str "v0.0.0".toList) = none ∧
    splitOn1 '\n' sampleBlock = [['0'], sampleModuleLine, sampleGoModLine] ∧
    canonicalH1 sampleH1 "Go module checksum" = .ok sampleH1 ∧
    canonicalH1 sampleH1 "Go go.mod checksum" = .ok sampleH1 ∧
    utf8Encode sampleBlock ≠ [] ∧ utf8Encode sampleNote ≠ [] := by
  decide +kernel

theorem parseSignedGoSumdbLookup_sample :
    parseSignedGoSumdbLookup sampleSignatures
      (.bytes (utf8Encode (sampleBlock ++ '\n' :: '\n' :: sampleNote))) (.str "g.co/a".toList)
      (.str "v0.0.0".toList) = .ok sampleCanonicalLookup := by
  obtain ⟨hparts, hlength, htext, hid, hlines, hh1, hh2, hne1, hne2⟩ := sample_reads
  exact parseSignedGoSumdbLookup_ok sampleSignatures _ _ sampleBlock sampleNote sampleModuleLine
    sampleGoModLine sampleH1 sampleH1 sampleNoteHead hlength hid htext hparts ⟨hne1, hne2⟩ hlines
    rfl rfl hh1 hh2 parseSignedTreeNote_sample (by decide)

/-- The parts of the sample response make it up again. -/
theorem lookup_canonical_sample :
    ∃ signature, PyObject.bytes (utf8Encode (sampleBlock ++ '\n' :: '\n' :: sampleNote)) =
      .bytes (renderLookup sampleCanonicalLookup signature) ∧
      Canonical sampleSignatures sampleCanonicalLookup signature :=
  (lookup_canonical sampleSignatures).1 _ _ _ _ parseSignedGoSumdbLookup_sample

end Agentrail.GoSumdb
