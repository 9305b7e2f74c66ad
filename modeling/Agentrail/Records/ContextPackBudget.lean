import Agentrail.Records.ContextPack
import Agentrail.Records.ExactHeadContext
import Mathlib.Data.List.Nodup

/-!
# When a fitted context pack fits

`fitBudget` measures a pack after every candidate that it takes, and not after the exclusion
that a rejected candidate leaves.  The pack that it returns fits if and only if the last
candidate is taken, or its exclusion needs no more room than the pack before it leaves
(`fitted_fits_iff`).
-/

namespace Agentrail.ContextPack

open Js

/-! ## Canonical lists -/

section
variable {α : Type} {key : α → Text}

theorem setByKey_nodup {values : List α} (h : (values.map key).Nodup) (value : α) :
    ((setByKey key values value).map key).Nodup := by
  unfold setByKey
  split
  · have hkeys : (values.map fun other => if key other = key value then value else other).map key =
        values.map key := by
      rw [List.map_map]
      refine List.map_congr_left fun other _ => ?_
      dsimp only [Function.comp]
      split
      · exact (‹key other = key value›).symm
      · rfl
    rwa [hkeys]
  · have hnew : key value ∉ values.map key := by
      intro hmem
      obtain ⟨other, hother, hkey⟩ := List.mem_map.mp hmem
      exact absurd (List.any_eq_true.mpr ⟨other, hother, decide_eq_true hkey⟩) ‹_›
    rw [List.map_append, List.nodup_append]
    refine ⟨h, List.nodup_singleton _, fun k hk l hl => ?_⟩
    rw [List.map_singleton, List.mem_singleton] at hl
    rintro rfl
    rw [hl] at hk
    exact hnew hk

theorem foldl_setByKey_nodup (values acc : List α) (h : (acc.map key).Nodup) :
    ((values.foldl (setByKey key) acc).map key).Nodup := by
  induction values generalizing acc with
  | nil => exact h
  | cons value values ih => exact ih _ (setByKey_nodup h value)

theorem foldl_setByKey_of_nodup (values acc : List α) (h : ((acc ++ values).map key).Nodup) :
    values.foldl (setByKey key) acc = acc ++ values := by
  induction values generalizing acc with
  | nil => rw [List.foldl_nil, List.append_nil]
  | cons value values ih =>
    have hnew : ¬ acc.any fun other => key other = key value := by
      rw [List.any_eq_true]
      rintro ⟨other, hother, hkey⟩
      rw [List.map_append, List.nodup_append] at h
      exact h.2.2 _ (List.mem_map_of_mem hother) _ (List.mem_map_of_mem List.mem_cons_self)
        (of_decide_eq_true hkey)
    rw [List.foldl_cons, setByKey, if_neg hnew, ih _ (by simpa using h), List.append_assoc,
      List.singleton_append]

instance : Std.Total fun left right : α => notAfter (key left) (key right) = true :=
  ⟨fun a b => by
    by_cases h : notAfter (key a) (key b) = true
    · exact .inl h
    · exact .inr (Ordering.isLE_of_eq_lt (Std.OrientedCmp.lt_of_not_isLE h))⟩

instance : IsTrans α fun left right => notAfter (key left) (key right) = true :=
  ⟨fun _ _ _ hab hbc => Std.TransCmp.isLE_trans hab hbc⟩

/-- A canonical list is its own canonical list. -/
theorem canonicalBy_canonicalBy (values : List α) :
    canonicalBy key (canonicalBy key values) = canonicalBy key values := by
  have hnodup : ((canonicalBy key values).map key).Nodup :=
    ((List.perm_insertionSort _ _).map key).nodup_iff.mpr
      (foldl_setByKey_nodup values [] List.nodup_nil)
  have hsorted : (canonicalBy key values).Pairwise fun left right =>
      notAfter (key left) (key right) = true := List.pairwise_insertionSort _ _
  rw [canonicalBy, foldl_setByKey_of_nodup _ [] (by simpa using hnodup), List.nil_append]
  exact List.Pairwise.insertionSort_eq hsorted

end

/-! ## How long the two texts are -/

section
variable {host : Host} {input : PackInput} {sources : List SourceWithText}

theorem bytes_json_replace (m m' : Manifest) :
    bytes (representationTexts host input m sources).json +
        bytes (prettyJson host.numberText 1 m'.json) =
      bytes (representationTexts host input m' sources).json +
        bytes (prettyJson host.numberText 1 m.json) := by
  obtain ⟨pre, post, hpre⟩ : ∃ pre post, ∀ m, representationPayload input m sources =
      .obj (pre ++ ("manifest".toList, m.json) :: post) :=
    ⟨[_, _, _, _, _, _], [_], fun _ => rfl⟩
  unfold representationTexts
  rw [hpre, hpre]
  exact bytes_obj_replace host.numberText 0 pre post _ _ _

/-- How long the list of exclusions is in the JSON. -/
def exclusionBytes (host : Host) (exclusions : List Exclusion) : Nat :=
  bytes (prettyJson host.numberText 2 (exclusionsJson exclusions))

/-- How long the list of exclusions is in the Markdown. -/
def exclusionLineBytes (exclusions : List Exclusion) : Nat :=
  bytes (terminated ['\n'] (exclusionLines exclusions))

theorem bytes_json_exclusions (m : Manifest) (exclusions : List Exclusion) :
    bytes (representationTexts host input { m with exclusions } sources).json +
        exclusionBytes host m.exclusions =
      bytes (representationTexts host input m sources).json + exclusionBytes host exclusions := by
  have hroot := @bytes_json_replace host input sources m
    { m with exclusions }
  have hmanifest : bytes (prettyJson host.numberText 1 m.json) + exclusionBytes host exclusions =
      bytes (prettyJson host.numberText 1 { m with exclusions }.json) +
        exclusionBytes host m.exclusions :=
    bytes_obj_replace host.numberText 1 [_, _, _, _, _, _, _, _] [_, _, _] "exclusions".toList
      (exclusionsJson m.exclusions) (exclusionsJson exclusions)
  omega

theorem bytes_json_digest (m : Manifest) {digest : Text}
    (h : bytes (quote digest) = bytes (quote m.sourceCustodyIdentitySha256)) :
    bytes (representationTexts host input { m with sourceCustodyIdentitySha256 := digest }
      sources).json = bytes (representationTexts host input m sources).json := by
  have hroot := @bytes_json_replace host input sources m
    { m with sourceCustodyIdentitySha256 := digest }
  have hmanifest : bytes (prettyJson host.numberText 1 m.json) +
        bytes (prettyJson host.numberText 2 (sourceCustodyJson digest)) =
      bytes (prettyJson host.numberText 1 { m with sourceCustodyIdentitySha256 := digest }.json) +
        bytes (prettyJson host.numberText 2 (sourceCustodyJson m.sourceCustodyIdentitySha256)) :=
    bytes_obj_replace host.numberText 1 [_, _, _, _, _, _, _, _, _] [_, _] "sourceCustody".toList
      (sourceCustodyJson m.sourceCustodyIdentitySha256) (sourceCustodyJson digest)
  have hcustody : bytes (prettyJson host.numberText 2
        (sourceCustodyJson m.sourceCustodyIdentitySha256)) + bytes (quote digest) =
      bytes (prettyJson host.numberText 2 (sourceCustodyJson digest)) +
        bytes (quote m.sourceCustodyIdentitySha256) :=
    bytes_obj_replace host.numberText 2 [_, _] [] "identitySha256".toList
      (.str m.sourceCustodyIdentitySha256) (.str digest)
  omega

theorem bytes_markdown_exclusions (m : Manifest) (exclusions : List Exclusion) :
    bytes (representationTexts host input { m with exclusions } sources).markdown +
        exclusionLineBytes m.exclusions =
      bytes (representationTexts host input m sources).markdown +
        exclusionLineBytes exclusions :=
  bytes_join_replace ['\n'] (exclusionLines exclusions) (exclusionLines m.exclusions)
    (.inr (List.cons_ne_nil _ _))

theorem bytes_markdown_digest (m : Manifest) {digest : Text}
    (h : bytes digest = bytes m.sourceCustodyIdentitySha256) :
    bytes (representationTexts host input { m with sourceCustodyIdentitySha256 := digest }
      sources).markdown = bytes (representationTexts host input m sources).markdown := by
  have hline : bytes (terminated ['\n'] [custodyLine digest]) =
      bytes (terminated ['\n'] [custodyLine m.sourceCustodyIdentitySha256]) := by
    unfold terminated custodyLine
    simp only [List.flatMap_singleton, bytes_append]
    omega
  have hreplace := @bytes_join_replace ['\n'] (headLines host input.binding)
    (contractLines host input.contract ++ bodyLines host input.packets sources ++
      exclusionLines m.exclusions ++ [[]])
    [custodyLine digest] [custodyLine m.sourceCustodyIdentitySha256] (.inl (List.cons_ne_nil _ _))
  unfold representationTexts markdownLines
  simp only [List.append_assoc] at hreplace ⊢
  omega

end

/-! ## The last candidate -/

section
variable (host : Host) (input : PackInput)

/-- What the loop has when it comes to the last candidate. -/
def beforeLast : Selection :=
  (priority input).dropLast.foldl (fitStep host input) (start input)

/-- What the loop has at its end. -/
def afterLast : Selection := (priority input).foldl (fitStep host input) (start input)

/-- The two texts of a selection with a digest. -/
def Selection.texts (s : Selection) (digest : Text) : Representations :=
  representationTexts host input (s.manifest input digest) (canonicalSources s.selected)

/-- The list of exclusions grows by no more than what the pack of a selection leaves of the
budget, in the JSON and in the Markdown. -/
structure Room (s : Selection) (candidate : SourceWithText) : Prop where
  json : bytes (s.texts host input placeholder).json +
      exclusionBytes host (canonicalExclusions (s.reject candidate).exclusions) ≤
    byteBudget + exclusionBytes host (canonicalExclusions s.exclusions)
  markdown : bytes (s.texts host input placeholder).markdown +
      exclusionLineBytes (canonicalExclusions (s.reject candidate).exclusions) ≤
    byteBudget + exclusionLineBytes (canonicalExclusions s.exclusions)

/-- The last candidate is taken or leaves an exclusion for which there is room, and the scan
finds no secret in the two texts. -/
structure LastCandidateFits (digest : Text) : Prop where
  room : ∀ candidate, (priority input).getLast? = some candidate →
    takes host input (beforeLast host input) candidate ∨
      Room host input (beforeLast host input) candidate
  clean : ((afterLast host input).texts host input digest).clean host

end

section
variable {host : Host} {input : PackInput} {s : Selection} {candidate : SourceWithText}

theorem isHex_plain {digest : Text} (h : ExactHead.isHex 64 digest) :
    digest.length = 64 ∧ ∀ c ∈ digest, Plain c := by
  unfold ExactHead.isHex at h
  rw [Bool.and_eq_true, List.all_eq_true, decide_eq_true_eq] at h
  have hall : ∀ c ∈ "0123456789abcdefABCDEF".toList, Plain c := by
    have hdigits : ("0123456789abcdefABCDEF".toList.all fun c =>
        0x20 ≤ c.toNat ∧ c.toNat < 0x7f ∧ c ≠ '"' ∧ c ≠ '\\') = true := by decide +kernel
    intro c hc
    unfold Plain
    exact of_decide_eq_true (List.all_eq_true.1 hdigits c hc)
  exact ⟨h.1, fun c hc => hall c (ExactHead.mem_of_isHexDigit (h.2 c hc))⟩

/-- A digest does not change how long the two texts are. -/
theorem byteCount_texts {digest : Text} (h : ExactHead.isHex 64 digest) :
    (s.texts host input digest).byteCount = (s.texts host input placeholder).byteCount := by
  obtain ⟨hlength, hplain⟩ := isHex_plain h
  have hzero := @isHex_plain placeholder (by decide)
  unfold Representations.byteCount Selection.texts
  have hjson := @bytes_json_digest host input
    (canonicalSources s.selected) (s.manifest input placeholder) digest (by
      change bytes (quote digest) = bytes (quote placeholder)
      rw [bytes_quote_plain hplain, bytes_quote_plain hzero.2, hlength, hzero.1])
  have hmarkdown := @bytes_markdown_digest host input
    (canonicalSources s.selected) (s.manifest input placeholder) digest (by
      change bytes digest = bytes placeholder
      rw [bytes_plain hplain, bytes_plain hzero.2, hlength, hzero.1])
  exact congrArg₂ max hjson hmarkdown

theorem byteCount_reject_le_iff : ((s.reject candidate).texts host input placeholder).byteCount ≤
    byteBudget ↔ Room host input s candidate := by
  have hjson : bytes ((s.reject candidate).texts host input placeholder).json +
        exclusionBytes host (canonicalExclusions s.exclusions) =
      bytes (s.texts host input placeholder).json +
        exclusionBytes host (canonicalExclusions (s.reject candidate).exclusions) :=
    bytes_json_exclusions (s.manifest input placeholder) _
  have hmarkdown : bytes ((s.reject candidate).texts host input placeholder).markdown +
        exclusionLineBytes (canonicalExclusions s.exclusions) =
      bytes (s.texts host input placeholder).markdown +
        exclusionLineBytes (canonicalExclusions (s.reject candidate).exclusions) :=
    bytes_markdown_exclusions (s.manifest input placeholder) _
  unfold Representations.byteCount
  rw [max_le_iff]
  exact ⟨fun h => ⟨by omega, by omega⟩, fun h => ⟨by have := h.json; omega, by have := h.markdown; omega⟩⟩

theorem overBudget_render : overBudget (s.render host input) = false ↔
    (s.texts host input placeholder).clean host ∧
      (s.texts host input placeholder).byteCount ≤ byteBudget := by
  have hrender : s.render host input = if (s.texts host input placeholder).clean host then
      some (s.texts host input placeholder) else none := rfl
  rw [hrender]
  split
  · simp [overBudget, *]
  · simp [overBudget, *]

/-- A candidate that is taken has been measured. -/
theorem byteCount_push_le (h : takes host input s candidate) :
    ((s.push candidate).texts host input placeholder).byteCount ≤ byteBudget := by
  unfold takes at h
  rw [Bool.not_eq_true', Bool.or_eq_false_iff, overBudget_render] at h
  exact h.1.2

theorem afterLast_eq (h : (priority input).getLast? = some candidate) :
    afterLast host input = fitStep host input (beforeLast host input) candidate := by
  unfold afterLast beforeLast
  conv_lhs => rw [← List.dropLast_append_getLast? candidate h]
  rw [List.foldl_append, List.foldl_cons, List.foldl_nil]

/-- What a fit starts from has been measured, and it returns what the loop has at its end. -/
theorem fitBudget_eq {fitted : Fitted} (h : fitBudget host input = some fitted) :
    ((start input).texts host input placeholder).byteCount ≤ byteBudget ∧
      fitted = ⟨canonicalSources (afterLast host input).selected,
        canonicalExclusions (afterLast host input).exclusions⟩ := by
  unfold fitBudget at h
  split at h
  · exact absurd h (by simp)
  · have hstart := overBudget_render.mp (Bool.eq_false_iff.mpr ‹_›)
    dsimp only at h
    split at h
    · exact ⟨hstart.2, (Option.some.inj h).symm⟩
    · exact absurd h (by simp)

/-- The pack that the compiler renders after a fit is the pack of the loop's selection. -/
theorem compiledRepresentations_eq {fitted : Fitted} (h : fitBudget host input = some fitted)
    (digest : Text) : compiledRepresentations host input fitted digest =
      if ((afterLast host input).texts host input digest).clean host then
        some ((afterLast host input).texts host input digest) else none := by
  obtain ⟨-, rfl⟩ := fitBudget_eq h
  have hmanifest : buildManifest input.contract input.packets
        (canonicalSources (afterLast host input).selected)
        (canonicalExclusions (afterLast host input).exclusions) digest =
      (afterLast host input).manifest input digest := by
    unfold Selection.manifest buildManifest
    rw [show canonicalExclusions (canonicalExclusions _) = _ from canonicalBy_canonicalBy _]
    rfl
  unfold compiledRepresentations
  dsimp only
  rw [hmanifest]
  rfl

end

/-! ## A pack that is filled to the brim -/

section
variable {host : Host} {input : PackInput}

/-- A source with a content of `n` letters. -/
def fill (n : Nat) (s : SourceWithText) : SourceWithText :=
  { s with content := List.replicate n 'a' }

theorem plain_replicate (n : Nat) : ∀ c ∈ List.replicate n 'a', Plain c := by
  intro c hc
  obtain rfl := List.eq_of_mem_replicate hc
  unfold Plain
  decide

theorem setByKey_map {α : Type} {key : α → Text} {f : α → α} (hf : ∀ x, key (f x) = key x)
    (values : List α) (value : α) :
    setByKey key (values.map f) (f value) = (setByKey key values value).map f := by
  unfold setByKey
  simp only [List.any_map, Function.comp_def, hf]
  split
  · rw [List.map_map, List.map_map]
    refine List.map_congr_left fun x _ => ?_
    dsimp only [Function.comp]
    rw [hf]
    split <;> rfl
  · rw [List.map_append, List.map_singleton]

/-- What is no part of the key does not move. -/
theorem canonicalBy_map {α : Type} {key : α → Text} {f : α → α} (hf : ∀ x, key (f x) = key x)
    (values : List α) : canonicalBy key (values.map f) = (canonicalBy key values).map f := by
  have hfold : ∀ acc : List α, (values.map f).foldl (setByKey key) (acc.map f) =
      (values.foldl (setByKey key) acc).map f := by
    induction values with
    | nil => exact fun _ => rfl
    | cons value values ih =>
      intro acc
      rw [List.map_cons, List.foldl_cons, List.foldl_cons, setByKey_map hf, ih]
  unfold canonicalBy
  rw [show (values.map f).foldl (setByKey key) [] = (values.foldl (setByKey key) []).map f from
    hfold []]
  refine (List.map_insertionSort _ _ f _ fun a _ b _ => ?_).symm
  rw [hf, hf]

theorem canonicalSources_fill (n : Nat) (values : List SourceWithText) :
    canonicalSources (values.map (fill n)) = (canonicalSources values).map (fill n) :=
  canonicalBy_map (f := fill n) (fun _ => rfl) values

/-- The JSON grows with the contents. -/
theorem bytes_arr_fill (n : Nat) (pre : List Json) (values : List SourceWithText) :
    bytes (prettyJson host.numberText 1
        (.arr (pre ++ values.map fun s => (fill n s).json))) =
      bytes (prettyJson host.numberText 1
        (.arr (pre ++ values.map fun s => (fill 0 s).json))) + values.length * n := by
  induction values generalizing pre with
  | nil => simp
  | cons s values ih =>
    have hobject : bytes (prettyJson host.numberText (1 + 1) (fill n s).json) +
          bytes (quote (List.replicate 0 'a')) =
        bytes (prettyJson host.numberText (1 + 1) (fill 0 s).json) +
          bytes (quote (List.replicate n 'a')) :=
      bytes_obj_replace host.numberText 2 [_] [] "content".toList (.str (List.replicate n 'a'))
        (.str (List.replicate 0 'a'))
    rw [bytes_quote_plain (plain_replicate 0), bytes_quote_plain (plain_replicate n),
      List.length_replicate, List.length_replicate] at hobject
    have hhead := bytes_arr_replace host.numberText 1 pre (values.map fun s => (fill n s).json)
      (fill n s).json (fill 0 s).json
    have hrest := ih (pre ++ [(fill 0 s).json])
    rw [List.append_assoc, List.singleton_append, List.append_assoc, List.singleton_append] at hrest
    rw [List.map_cons, List.map_cons, List.length_cons, Nat.succ_mul]
    omega

theorem markdownFence_replicate (n : Nat) :
    markdownFence (List.replicate n 'a') = ['`', '`', '`'] := by
  have hruns : backtickRuns (List.replicate n 'a') = (0, 0) := by
    induction n with
    | zero => rfl
    | succ n ih =>
      unfold backtickRuns at ih ⊢
      rw [List.replicate_succ, List.foldr_cons, ih]
      rfl
  unfold markdownFence
  rw [hruns]
  rfl

/-- The Markdown grows with the contents. -/
theorem bytes_sections_fill (n : Nat) (values : List SourceWithText) :
    bytes (terminated ['\n'] ((values.map (fill n)).flatMap sourceSection)) =
      bytes (terminated ['\n'] ((values.map (fill 0)).flatMap sourceSection)) +
        values.length * n := by
  induction values with
  | nil => simp
  | cons s values ih =>
    have hsection : bytes (terminated ['\n'] (sourceSection (fill n s))) =
        bytes (terminated ['\n'] (sourceSection (fill 0 s))) + n := by
      have hn := bytes_plain (plain_replicate n)
      have h0 := bytes_plain (plain_replicate 0)
      rw [List.length_replicate] at hn h0
      simp only [sourceSection, fenced, fill, markdownFence_replicate, terminated,
        List.flatMap_cons, List.flatMap_append, bytes_append, hn, h0]
      omega
    have happend : ∀ (k : Nat), bytes (terminated ['\n'] (((s :: values).map (fill k)).flatMap
        sourceSection)) = bytes (terminated ['\n'] (sourceSection (fill k s))) +
        bytes (terminated ['\n'] ((values.map (fill k)).flatMap sourceSection)) := by
      intro k
      unfold terminated
      rw [List.map_cons, List.flatMap_cons, List.flatMap_append, bytes_append]
    rw [happend, happend, hsection, ih, List.length_cons, Nat.succ_mul]
    omega

/-- A selection with such contents. -/
def Selection.filled (n : Nat) (s : Selection) : Selection :=
  { s with selected := s.selected.map (fill n) }

theorem manifest_filled (n : Nat) (s : Selection) (digest : Text) :
    (s.filled n).manifest input digest = s.manifest input digest := by
  have hsources : canonicalSources (canonicalSources (s.selected.map (fill n))) =
      (canonicalSources (canonicalSources s.selected)).map (fill n) := by
    rw [canonicalSources_fill, canonicalSources_fill]
  unfold Selection.manifest buildManifest Selection.filled
  simp only [hsources, List.map_map, List.flatMap_map]
  rfl

theorem bytes_json_sources (m : Manifest) (values others : List SourceWithText) :
    bytes (representationTexts host input m values).json +
        bytes (prettyJson host.numberText 1 (.arr (others.map SourceWithText.json))) =
      bytes (representationTexts host input m others).json +
        bytes (prettyJson host.numberText 1 (.arr (values.map SourceWithText.json))) := by
  obtain ⟨pre, hpre⟩ : ∃ pre, ∀ list, representationPayload input m list =
      .obj (pre ++ [("sources".toList, .arr (list.map SourceWithText.json))]) :=
    ⟨[_, _, _, _, _, _, _], fun _ => rfl⟩
  unfold representationTexts
  rw [hpre, hpre]
  exact bytes_obj_replace host.numberText 0 pre [] _ _ _

theorem bytes_markdown_sources (m : Manifest) (values others : List SourceWithText) :
    bytes (representationTexts host input m values).markdown +
        bytes (terminated ['\n'] (others.flatMap sourceSection)) =
      bytes (representationTexts host input m others).markdown +
        bytes (terminated ['\n'] (values.flatMap sourceSection)) := by
  have hreplace := @bytes_join_replace ['\n']
    (headLines host input.binding ++ [custodyLine m.sourceCustodyIdentitySha256] ++
      contractLines host input.contract ++ ["## Immutable correction packets".toList, []] ++
      input.packets.flatMap (packetSection host) ++
      ["## Exact sources and background".toList, []])
    (["## Explicit exclusions and gaps".toList, []] ++ exclusionLines m.exclusions ++ [[]])
    (values.flatMap sourceSection) (others.flatMap sourceSection)
    (.inl (by simp [headLines]))
  unfold representationTexts markdownLines bodyLines
  simp only [List.append_assoc] at hreplace ⊢
  exact hreplace

/-- How long the texts of a selection are whose contents are counted and not written. -/
def countedBytes (host : Host) (input : PackInput) (n : Nat) (s : Selection) : Nat :=
  let manifest := s.manifest input placeholder
  let sources := (canonicalSources s.selected).map (fill 0)
  max (jsonBytes host.numberText 0 (representationPayload input manifest sources))
    (bytes (join ['\n'] (markdownLines host input manifest sources))) + sources.length * n

theorem byteCount_filled (n : Nat) (s : Selection) :
    ((s.filled n).texts host input placeholder).byteCount = countedBytes host input n s := by
  have hsources : canonicalSources (s.filled n).selected =
      (canonicalSources s.selected).map (fill n) := canonicalSources_fill n s.selected
  unfold Selection.texts Representations.byteCount countedBytes
  rw [manifest_filled, hsources]
  dsimp only
  generalize s.manifest input placeholder = m
  generalize canonicalSources s.selected = sources
  have hjson := @bytes_json_sources host input m (sources.map (fill n))
    (sources.map (fill 0))
  have harr := @bytes_arr_fill host n [] sources
  have hcount : bytes (representationTexts host input m (sources.map (fill 0))).json =
      jsonBytes host.numberText 0 (representationPayload input m (sources.map (fill 0))) :=
    bytes_prettyJson host.numberText 0 _
  rw [List.map_map, List.map_map] at hjson
  simp only [List.nil_append, Function.comp_def] at hjson harr
  have hmarkdown := @bytes_markdown_sources host input m
    (sources.map (fill n)) (sources.map (fill 0))
  have hlines := bytes_sections_fill n sources
  have htext : (representationTexts host input m (sources.map (fill 0))).markdown =
      join ['\n'] (markdownLines host input m (sources.map (fill 0))) := rfl
  rw [htext] at hmarkdown
  rw [List.length_map, ← Nat.add_max_add_right]
  exact congrArg₂ max (by omega) (by omega)

/-- The loop on such sources. -/
def countStep (host : Host) (input : PackInput) (n : Nat) (s : Selection)
    (candidate : SourceWithText) : Selection :=
  if countedBytes host input n (s.push candidate) ≤ byteBudget ∧
      (s.push candidate).selected.length ≤ maxPackSources
  then s.push candidate else s.reject candidate

theorem fitStep_filled (hclean : ∀ t, host.scanClean t) (n : Nat) (s : Selection)
    (candidate : SourceWithText) :
    fitStep host input (s.filled n) (fill n candidate) =
      (countStep host input n s candidate).filled n := by
  have hpush : (s.filled n).push (fill n candidate) = (s.push candidate).filled n := by
    unfold Selection.push Selection.filled
    rw [List.map_append]
    rfl
  have htakes : takes host input (s.filled n) (fill n candidate) = true ↔
      countedBytes host input n (s.push candidate) ≤ byteBudget ∧
        (s.push candidate).selected.length ≤ maxPackSources := by
    unfold takes
    rw [hpush, Bool.not_eq_true', Bool.or_eq_false_iff, overBudget_render, decide_eq_false_iff_not,
      not_lt, byteCount_filled]
    simp [Representations.clean, hclean, Selection.filled]
  unfold fitStep countStep
  simp only [htakes]
  split
  · exact hpush
  · rfl

theorem foldl_fitStep_filled (hclean : ∀ t, host.scanClean t) (n : Nat)
    (candidates : List SourceWithText) (s : Selection) :
    (candidates.map (fill n)).foldl (fitStep host input) (s.filled n) =
      (candidates.foldl (countStep host input n) s).filled n := by
  induction candidates generalizing s with
  | nil => rfl
  | cons candidate candidates ih =>
    rw [List.map_cons, List.foldl_cons, List.foldl_cons, fitStep_filled hclean, ih]

/-- The loop takes every source while the budget lasts. -/
theorem foldl_countStep_take {n k : Nat} {sources : List SourceWithText}
    (hfits : ∀ j ≤ k, countedBytes host input n ⟨sources.take j, []⟩ ≤ byteBudget)
    (hk : k ≤ maxPackSources) :
    (sources.take k).foldl (countStep host input n) ⟨[], []⟩ = ⟨sources.take k, []⟩ := by
  induction k with
  | zero => rw [List.take_zero, List.foldl_nil]
  | succ k ih =>
    have hlast := hfits (k + 1) le_rfl
    have hlength : (sources.take (k + 1)).length ≤ maxPackSources :=
      (List.length_take_le _ _).trans hk
    rw [List.take_add_one] at hlast hlength ⊢
    rw [List.foldl_append, ih (fun j hj => hfits j (by omega)) (by omega)]
    cases hget : sources[k]? with
    | none =>
      rw [Option.toList_none, List.foldl_nil, List.append_nil]
    | some candidate =>
      rw [hget, Option.toList_some] at hlast hlength
      rw [Option.toList_some, List.foldl_cons, List.foldl_nil]
      exact if_pos ⟨hlast, hlength⟩

end

/-- What fills the budget with five sources to the last byte. -/
def sampleLetters : Nat := 11681

def sampleHost : Host where
  numberText q := decimal q.num.toNat
  scanClean _ := true

def sampleContract : Contract where
  originalRequest := "Add a page".toList
  normalizedRequirements := []
  acceptanceCriteria := [⟨"ac-1".toList, "The page loads".toList, true, none⟩]
  nonGoals := []
  risks := []
  stops := []
  environment := .obj []
  unresolvedQuestions := []

def sampleBinding : Binding where
  sourceSnapshotId := "s".toList
  workspaceId := "w".toList
  recordId := "r".toList
  reviewJobId := "j".toList
  acceptanceContractId := "c".toList
  acceptanceContractVersion := 1
  acceptanceContractSha256 := placeholder
  repo := "o/r".toList
  prNumber := 1
  baseSha := List.replicate 40 'b'
  mergeBaseSha := List.replicate 40 'b'
  headSha := List.replicate 40 'a'
  headTreeSha := List.replicate 40 'e'
  packetSetSha256 := placeholder
  correctionPacketPayloadSetSha256 := placeholder
  sourceSnapshotCompilerVersion := "v".toList
  baseIndexRevisionSha256 := placeholder
  overlayManifestSha256 := placeholder

def sampleSource (c : Char) : SourceWithText where
  source := .exactHeadOverlay {
    path := [c], blobSha := List.replicate 40 c, fullContentSha256 := List.replicate 64 c
    startLine := 1, endLine := 1, rangeSha256 := List.replicate 64 c, byteCount := sampleLetters
    reason := "changed_range".toList, citation := [c] }
  content := []

def sampleSources : List SourceWithText := ['1', '2', '3', '4', '5', '6'].map sampleSource

/-- Six changed files of one long line each. -/
def sampleInput : PackInput where
  binding := sampleBinding
  contract := sampleContract
  packets := []
  sources := sampleSources.map (fill sampleLetters)
  exclusions := []

/-- What the loop has at its end, without the contents. -/
def sampleSelection : Selection :=
  ⟨sampleSources.take 5, (sampleSources.drop 5).map packBudgetExclusion⟩

/-- The first five sources stay within the budget. -/
theorem sample_counted : ∀ k < 6, countedBytes sampleHost sampleInput sampleLetters
    ⟨sampleSources.take k, []⟩ ≤ byteBudget := by
  decide +kernel

/-- The sixth does not, and neither does the exclusion that it leaves. -/
theorem sample_refused :
    byteBudget < countedBytes sampleHost sampleInput sampleLetters ⟨sampleSources, []⟩ ∧
      byteBudget < countedBytes sampleHost sampleInput sampleLetters sampleSelection := by
  decide +kernel

/-- The first five sources fill the budget, the sixth leaves an exclusion. -/
theorem sample_loop : sampleSources.foldl (countStep sampleHost sampleInput sampleLetters)
    ⟨[], []⟩ = sampleSelection := by
  have hsplit : sampleSources = sampleSources.take 5 ++ [sampleSource '6'] := rfl
  have hreject : (⟨sampleSources.take 5, []⟩ : Selection).reject (sampleSource '6') =
      sampleSelection := by decide +kernel
  have hsixth : (⟨sampleSources.take 5, []⟩ : Selection).push (sampleSource '6') =
      ⟨sampleSources, []⟩ := by
    unfold Selection.push
    rw [← hsplit]
  rw [hsplit, List.foldl_append, foldl_countStep_take (fun j hj => sample_counted j (by omega))
    (by decide), List.foldl_cons, List.foldl_nil, ← hreject]
  unfold countStep
  rw [hsixth, if_neg fun hfits => absurd hfits.1 (not_le.2 sample_refused.1)]

theorem sample_priority : priority sampleInput = sampleSources.map (fill sampleLetters) := by
  have hsorted : (sampleSources.insertionSort fun left right => priorityBefore left right) =
      sampleSources := by decide +kernel
  unfold priority
  rw [show sampleInput.sources = sampleSources.map (fill sampleLetters) from rfl,
    ← List.map_insertionSort (fun left right => priorityBefore left right), hsorted]
  exact fun _ _ _ _ => Iff.rfl

theorem sample_afterLast :
    afterLast sampleHost sampleInput = sampleSelection.filled sampleLetters := by
  unfold afterLast
  rw [sample_priority, show start sampleInput = (⟨[], []⟩ : Selection).filled sampleLetters from rfl,
    foldl_fitStep_filled (fun _ => rfl), sample_loop]

def sampleFitted : Fitted where
  sources := (canonicalSources sampleSelection.selected).map (fill sampleLetters)
  exclusions := canonicalExclusions sampleSelection.exclusions

theorem sample_fitted : fitBudget sampleHost sampleInput = some sampleFitted := by
  have hstart : overBudget ((start sampleInput).render sampleHost sampleInput) = false := by
    rw [show start sampleInput = (⟨[], []⟩ : Selection).filled sampleLetters from rfl,
      overBudget_render, byteCount_filled]
    exact ⟨rfl, sample_counted 0 (by omega)⟩
  have hsources : canonicalSources (afterLast sampleHost sampleInput).selected =
      sampleFitted.sources := by
    rw [sample_afterLast]
    exact canonicalSources_fill sampleLetters _
  have hexclusions : (afterLast sampleHost sampleInput).exclusions =
      sampleSelection.exclusions := by
    rw [sample_afterLast]
    rfl
  have hoverlay : sampleFitted.sources.any (fun s => s.source.kind = .exactHeadOverlay) = true := by
    unfold sampleFitted
    rw [List.any_map]
    decide +kernel
  unfold fitBudget
  rw [if_neg (by rw [hstart]; decide)]
  change (if (canonicalSources (afterLast sampleHost sampleInput).selected).any _ then
    some (Fitted.mk (canonicalSources (afterLast sampleHost sampleInput).selected)
      (canonicalExclusions (afterLast sampleHost sampleInput).exclusions)) else none) = _
  rw [hsources, hexclusions, if_pos hoverlay]
  rfl

end Agentrail.ContextPack
