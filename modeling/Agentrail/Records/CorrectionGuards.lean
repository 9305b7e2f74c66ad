import Agentrail.Records.CorrectionPackets

/-!
# What the two guards of correction packets share

The renderer's guard for stored packets asks of a packet that the writer admitted only
three things more (`StoredFit`): that its ids are opaque ids, that its numbers are safe
integers, and that no bounded text holds a control or direction character beyond those
that the writer refuses, or one of the renderer's secret shapes.

    Writer accepts p → (Renderer accepts p ↔ StoredFit p)      (stored_iff)

Each guard of a nested value has its lemma of this form.
-/

namespace Agentrail.Correction

open Js
open ExactGitTree (textAt arrayAt splitPath hasExactKeys isNumberAt)
open ExactHead (isHex isRepo isInteger isHex_hex)

/-! ## What a packet holds -/

/-- `value[key]`, as a list of no or one text. -/
def textsAt (key : String) (value : Json) : List Text := (textAt key value).toList

def numbersAt (key : String) (value : Json) : List ℚ := (numberAt key value).toList

def itemsOf (key : String) (value : Json) : List Json := (arrayAt key value).getD []

/-- The bounded texts of a request with assertions. -/
def dataTexts (request : Json) : List Text :=
  textsAt "path" request ++ textsAt "digestKeyId" request ++
    (itemsOf "expectedJson" request).flatMap (textsAt "pointer")

/-- The bounded text of a step, by its action. -/
def stepTexts (step : Json) : List Text :=
  let action := textOf "action" step
  if action = "open".toList then textsAt "path" step
  else if action = "click".toList then textsAt "selector" step
  else if action = "fill".toList then textsAt "selector" step
  else if action = "press".toList then textsAt "key" step
  else if action = "expect_text".toList then textsAt "text" step
  else textsAt "label" step

def reproductionTexts (modality : Text) (value : Json) : List Text :=
  let request := fieldOf "request" value
  if modality = "api".toList then textsAt "path" request
  else if modality = "data".toList then dataTexts request
  else if modality = "job".toList then
    textsAt "path" (fieldOf "trigger" request) ++ dataTexts (fieldOf "readback" request)
  else (itemsOf "steps" value).flatMap stepTexts

def contextTexts (context : Json) : List Text :=
  textsAt "flow" context ++
    reproductionTexts (textOf "modality" context) (fieldOf "reproduction" context)

def evidenceTexts (evidence : Json) : List Text :=
  textsAt "evidenceRef" evidence ++ textsAt "previewBootId" evidence ++
    textsAt "artifactKey" evidence ++ textsAt "executionId" evidence

def packetTexts (packet : Json) : List Text :=
  textsAt "snapshot" (fieldOf "criterion" packet) ++ textsAt "expected" packet ++
    textsAt "observed" packet ++ contextTexts (fieldOf "affectedContext" packet) ++
    evidenceTexts (fieldOf "evidence" packet) ++ textsAt "scopeBoundary" packet ++
    textsAt "impact" packet ++ textsAt "requiredCorrection" packet ++
    textsAt "reverification" packet

def packetIds (packet : Json) : List Text :=
  textsAt "workspaceId" packet ++ textsAt "recordId" packet ++ textsAt "jobId" packet ++
    textsAt "id" (fieldOf "acceptanceContract" packet) ++ textsAt "id" (fieldOf "criterion" packet)

def packetNumbers (packet : Json) : List ℚ :=
  numbersAt "prNumber" packet ++ numbersAt "version" (fieldOf "acceptanceContract" packet)

/-- A text that the renderer takes once the writer has. -/
def storedText (t : Text) : Bool := !t.any controlOrBidi && secretsClean t

/-- What the renderer asks of a packet beyond the writer. -/
structure StoredFit (packet : Json) : Prop where
  ids : ∀ t ∈ packetIds packet, safeOpaqueId t
  numbers : ∀ q ∈ packetNumbers packet, q ≤ Renderer.maxSafeInteger
  texts : ∀ t ∈ packetTexts packet, storedText t

/-! ## Fields -/

theorem textIs_iff {key : String} {p : Text → Bool} {value : Json} :
    textIs key p value ↔ ∃ t, textAt key value = some t ∧ p t := by
  unfold textIs
  rw [Option.any_eq_true]

theorem numberIs_iff {key : String} {p : ℚ → Bool} {value : Json} :
    numberIs key p value ↔ ∃ q, numberAt key value = some q ∧ p q := by
  unfold numberIs
  rw [Option.any_eq_true]

theorem fieldIs_iff {key : String} {p : Json → Bool} {value : Json} :
    fieldIs key p value ↔ ∃ x, value.get key.toList = some x ∧ p x := by
  unfold fieldIs
  rw [Option.any_eq_true]

theorem itemsAre_iff {key : String} {max : Nat} {p : Json → Bool} {value : Json} :
    itemsAre key max p value ↔
      ∃ items, arrayAt key value = some items ∧ items ≠ [] ∧ items.length ≤ max ∧
        ∀ x ∈ items, p x := by
  unfold itemsAre
  simp only [Option.any_eq_true, Bool.and_eq_true, decide_eq_true_eq, List.all_eq_true, ne_eq,
    and_assoc]

/-- A text of which the first guard leaves `r` to the second. -/
theorem textIs_agree {key : String} {p q r : Text → Bool} {value : Json}
    (hpq : ∀ t, p t → (q t ↔ r t)) (h : textIs key p value) :
    textIs key q value ↔ ∀ t ∈ textsAt key value, r t := by
  obtain ⟨t, ht, hp⟩ := textIs_iff.mp h
  rw [textIs_iff]
  unfold textsAt
  rw [ht]
  simp only [Option.some.injEq, exists_eq_left', Option.toList_some, List.mem_singleton,
    forall_eq]
  exact hpq t hp

theorem numberIs_agree {key : String} {p q r : ℚ → Bool} {value : Json}
    (hpq : ∀ n, p n → (q n ↔ r n)) (h : numberIs key p value) :
    numberIs key q value ↔ ∀ n ∈ numbersAt key value, r n := by
  obtain ⟨n, hn, hp⟩ := numberIs_iff.mp h
  rw [numberIs_iff]
  unfold numbersAt
  rw [hn]
  simp only [Option.some.injEq, exists_eq_left', Option.toList_some, List.mem_singleton,
    forall_eq]
  exact hpq n hp

/-- A nested value of which the first guard leaves `Fits` to the second. -/
theorem fieldIs_agree {key : String} {p q : Json → Bool} {Fits : Json → Prop} {value : Json}
    (hpq : ∀ x, p x → (q x ↔ Fits x)) (h : fieldIs key p value) :
    fieldIs key q value ↔ Fits (fieldOf key value) := by
  obtain ⟨x, hx, hp⟩ := fieldIs_iff.mp h
  rw [fieldIs_iff]
  unfold fieldOf
  rw [hx]
  simp only [Option.some.injEq, exists_eq_left', Option.getD_some]
  exact hpq x hp

theorem itemsAre_agree {key : String} {max : Nat} {p q : Json → Bool} {Fits : Json → Prop}
    {value : Json} (hpq : ∀ x, p x → (q x ↔ Fits x)) (h : itemsAre key max p value) :
    itemsAre key max q value ↔ ∀ x ∈ itemsOf key value, Fits x := by
  obtain ⟨items, hitems, hne, hlen, hp⟩ := itemsAre_iff.mp h
  rw [itemsAre_iff]
  unfold itemsOf
  rw [hitems]
  simp only [Option.some.injEq, exists_eq_left', Option.getD_some]
  constructor
  · rintro ⟨-, -, hq⟩ x hx
    exact (hpq x (hp x hx)).mp (hq x hx)
  · intro hfits
    exact ⟨hne, hlen, fun x hx => (hpq x (hp x hx)).mpr (hfits x hx)⟩

/-- Where the two guards ask the same of a text, the second follows. -/
theorem textIs_mono {key : String} {p q : Text → Bool} {value : Json}
    (hpq : ∀ t, p t → q t) (h : textIs key p value) : textIs key q value := by
  obtain ⟨t, ht, hp⟩ := textIs_iff.mp h
  exact textIs_iff.mpr ⟨t, ht, hpq t hp⟩

/-! ## Texts and numbers -/

theorem boundedText_iff {max : Nat} {t : Text} (h : Writer.safeCriterionSnapshotText max t) :
    Renderer.boundedStoredPacketText max t ↔ storedText t := by
  unfold Writer.safeCriterionSnapshotText at h
  unfold Renderer.boundedStoredPacketText storedText
  simp only [Bool.and_eq_true] at h ⊢
  obtain ⟨⟨⟨⟨hne, hlen⟩, htrim⟩, -⟩, -⟩ := h
  simp only [hne, hlen, htrim, true_and]

theorem positive_iff {q : ℚ} (h : Writer.isPositiveInteger q) :
    Renderer.isPositiveInteger q ↔ decide (q ≤ Renderer.maxSafeInteger) := by
  unfold Writer.isPositiveInteger at h
  unfold Renderer.isPositiveInteger
  simp only [Bool.and_eq_true] at h ⊢
  simp only [h, true_and, and_true]

theorem isRepo_of_safeRepo {t : Text} (h : Writer.safeRepo t) : isRepo t :=
  (Bool.and_eq_true_iff.mp h).1

section
variable {key : String} {max : Nat} {value : Json}

theorem text_agree (h : textIs key (Writer.safeCriterionSnapshotText max) value) :
    textIs key (Renderer.boundedStoredPacketText max) value ↔
      ∀ t ∈ textsAt key value, storedText t :=
  textIs_agree (fun _ => boundedText_iff) h

theorem id_agree (h : textIs key (Writer.safeSnapshotText max) value) :
    textIs key safeOpaqueId value ↔ ∀ t ∈ textsAt key value, safeOpaqueId t :=
  textIs_agree (fun _ _ => Iff.rfl) h

theorem number_agree (h : numberIs key Writer.isPositiveInteger value) :
    numberIs key Renderer.isPositiveInteger value ↔
      ∀ q ∈ numbersAt key value, decide (q ≤ Renderer.maxSafeInteger) :=
  numberIs_agree (fun _ => positive_iff) h

end

/-! ## Reproductions -/

theorem apiRequest_agree {value : Json} (h : Writer.isCorrectionApiRequest value) :
    Renderer.validateRequest Renderer.boundedStoredPacketText "GET" value ↔
      ∀ t ∈ textsAt "path" value, storedText t := by
  unfold Writer.isCorrectionApiRequest at h
  unfold Renderer.validateRequest
  simp only [Bool.and_eq_true] at h ⊢
  obtain ⟨⟨⟨⟨hrecord, hkeys⟩, hmethod⟩, hpath⟩, hstatus⟩ := h
  have hstatus' : numberIs "expectedStatus" Renderer.validExpectedStatus value := hstatus
  simp only [hrecord, hkeys, hmethod, hstatus', true_and, and_true]
  exact text_agree hpath

theorem trigger_agree {value : Json} (h : Writer.isCorrectionTrigger value) :
    Renderer.validateRequest Renderer.boundedStoredPacketText "POST" value ↔
      ∀ t ∈ textsAt "path" value, storedText t := by
  unfold Writer.isCorrectionTrigger at h
  unfold Renderer.validateRequest
  simp only [Bool.and_eq_true] at h ⊢
  obtain ⟨⟨⟨⟨hrecord, hkeys⟩, hmethod⟩, hpath⟩, hstatus⟩ := h
  have hstatus' : numberIs "expectedStatus" Renderer.validExpectedStatus value := hstatus
  simp only [hrecord, hkeys, hmethod, hstatus', true_and, and_true]
  exact text_agree hpath

theorem assertion_agree (value : Json) (h : Writer.isCorrectionAssertion value) :
    Renderer.validateAssertion Renderer.boundedStoredPacketText value ↔
      ∀ t ∈ textsAt "pointer" value, storedText t := by
  unfold Writer.isCorrectionAssertion at h
  unfold Renderer.validateAssertion
  simp only [Bool.and_eq_true] at h ⊢
  obtain ⟨⟨⟨⟨hrecord, hkeys⟩, hpointer⟩, htype⟩, hmac⟩ := h
  have hmac' : textIs "equalsHmacSha256" Renderer.isSha256 value := hmac
  simp only [hrecord, hkeys, htype, hmac', true_and, and_true]
  exact text_agree hpointer

theorem dataRequest_agree (value : Json) (h : Writer.isCorrectionDataRequest value) :
    Renderer.validateDataRequest Renderer.boundedStoredPacketText value ↔
      ∀ t ∈ dataTexts value, storedText t := by
  unfold Writer.isCorrectionDataRequest at h
  unfold Renderer.validateDataRequest dataTexts
  simp only [Bool.and_eq_true] at h ⊢
  obtain ⟨⟨⟨⟨⟨⟨⟨⟨hrecord, hkeys⟩, hmethod⟩, hpath⟩, hstatus⟩, halgorithm⟩, hkey⟩, hcontext⟩,
    hitems⟩ := h
  have hstatus' : numberIs "expectedStatus" Renderer.validExpectedStatus value := hstatus
  have hcontext' : textIs "digestContext" Renderer.isSha256 value := hcontext
  simp only [hrecord, hkeys, hmethod, hstatus', halgorithm, hcontext', true_and, and_true,
    text_agree hpath, text_agree hkey, itemsAre_agree assertion_agree hitems,
    List.forall_mem_append, List.forall_mem_flatMap]

theorem step_agree (step : Json) (h : Writer.isCorrectionStep step) :
    Renderer.validateStep Renderer.boundedStoredPacketText step ↔
      ∀ t ∈ stepTexts step, storedText t := by
  unfold Writer.isCorrectionStep at h
  unfold Renderer.validateStep stepTexts textOf
  rw [Bool.and_eq_true] at h
  obtain ⟨hrecord, h⟩ := h
  rw [hrecord, Bool.true_and]
  cases haction : textAt "action" step with
  | none =>
    rw [haction] at h
    cases h
  | some action =>
    rw [haction, Option.any_some] at h
    rw [Option.any_some, Option.getD_some]
    by_cases hopen : action = "open".toList
    · simp only [if_pos hopen, Bool.and_eq_true] at h ⊢
      simp only [h.1, true_and, text_agree h.2]
    by_cases hclick : action = "click".toList
    · simp only [if_neg hopen, if_pos hclick, Bool.and_eq_true] at h ⊢
      simp only [h.1, true_and, text_agree h.2]
    by_cases hfill : action = "fill".toList
    · simp only [if_neg hopen, if_neg hclick, if_pos hfill, Bool.and_eq_true] at h ⊢
      simp only [h.1.1, h.2, true_and, and_true, text_agree h.1.2]
    by_cases hpress : action = "press".toList
    · simp only [if_neg hopen, if_neg hclick, if_neg hfill, if_pos hpress,
        Bool.and_eq_true] at h ⊢
      simp only [h.1, true_and, text_agree h.2]
    by_cases htext : action = "expect_text".toList
    · simp only [if_neg hopen, if_neg hclick, if_neg hfill, if_neg hpress, if_pos htext,
        Bool.and_eq_true] at h ⊢
      simp only [h.1, true_and, text_agree h.2]
    by_cases hshot : action = "screenshot".toList
    · simp only [if_neg hopen, if_neg hclick, if_neg hfill, if_neg hpress, if_neg htext,
        if_pos hshot, Bool.and_eq_true] at h ⊢
      simp only [h.1, true_and, text_agree h.2]
    · simp only [if_neg hopen, if_neg hclick, if_neg hfill, if_neg hpress, if_neg htext,
        if_neg hshot, Bool.false_eq_true] at h

/-- The request of a job: its trigger and its readback. -/
theorem jobRequest_agree (request : Json)
    (h : (isRecord request && hasExactKeys ["trigger", "readback"] request &&
      fieldIs "trigger" Writer.isCorrectionTrigger request &&
      fieldIs "readback" Writer.isCorrectionDataRequest request) = true) :
    (isRecord request && hasExactKeys ["trigger", "readback"] request &&
      fieldIs "trigger" (Renderer.validateRequest Renderer.boundedStoredPacketText "POST")
        request &&
      fieldIs "readback" (Renderer.validateDataRequest Renderer.boundedStoredPacketText)
        request) = true ↔
      ∀ t ∈ textsAt "path" (fieldOf "trigger" request) ++ dataTexts (fieldOf "readback" request),
        storedText t := by
  simp only [Bool.and_eq_true] at h ⊢
  obtain ⟨⟨⟨hrecord, hkeys⟩, htrigger⟩, hreadback⟩ := h
  simp only [hrecord, hkeys, true_and, fieldIs_agree (fun _ => trigger_agree) htrigger,
    fieldIs_agree dataRequest_agree hreadback, List.forall_mem_append]

theorem reproduction_agree (modality : Text) (value : Json)
    (h : Writer.isCorrectionReproduction modality value) :
    Renderer.validateReproduction Renderer.boundedStoredPacketText modality value ↔
      ∀ t ∈ reproductionTexts modality value, storedText t := by
  unfold Writer.isCorrectionReproduction at h
  unfold Renderer.validateReproduction reproductionTexts
  rw [Bool.and_eq_true] at h
  obtain ⟨hhead, h⟩ := h
  rw [hhead, Bool.true_and]
  by_cases hapi : modality = "api".toList
  · simp only [if_pos hapi, Bool.and_eq_true] at h ⊢
    simp only [h.1, true_and, fieldIs_agree (fun _ => apiRequest_agree) h.2]
  by_cases hdata : modality = "data".toList
  · simp only [if_neg hapi, if_pos hdata, Bool.and_eq_true] at h ⊢
    simp only [h.1, true_and, fieldIs_agree dataRequest_agree h.2]
  by_cases hjob : modality = "job".toList
  · simp only [if_neg hapi, if_neg hdata, if_pos hjob] at h ⊢
    rw [Bool.and_eq_true] at h ⊢
    rw [fieldIs_agree jobRequest_agree h.2]
    simp only [h.1, true_and]
  · simp only [if_neg hapi, if_neg hdata, if_neg hjob, Bool.and_eq_true] at h ⊢
    simp only [h.1, true_and, and_true, itemsAre_agree step_agree h.2, List.forall_mem_flatMap]

/-! ## The parts of a packet -/

theorem contract_agree (contract : Json) (h : Writer.isAcceptanceContract contract) :
    Renderer.validContract contract ↔ (∀ t ∈ textsAt "id" contract, safeOpaqueId t) ∧
      ∀ q ∈ numbersAt "version" contract, decide (q ≤ Renderer.maxSafeInteger) := by
  unfold Writer.isAcceptanceContract at h
  unfold Renderer.validContract
  simp only [Bool.and_eq_true] at h ⊢
  obtain ⟨⟨⟨hrecord, hkeys⟩, hid⟩, hversion⟩ := h
  simp only [hrecord, hkeys, true_and, id_agree hid, number_agree hversion]

theorem criterion_agree (criterion : Json) (h : Writer.isCriterion criterion) :
    Renderer.validCriterion Renderer.boundedStoredPacketText criterion ↔
      (∀ t ∈ textsAt "id" criterion, safeOpaqueId t) ∧
        ∀ t ∈ textsAt "snapshot" criterion, storedText t := by
  unfold Writer.isCriterion at h
  unfold Renderer.validCriterion
  simp only [Bool.and_eq_true] at h ⊢
  obtain ⟨⟨⟨hrecord, hkeys⟩, hid⟩, hsnapshot⟩ := h
  simp only [hrecord, hkeys, true_and, id_agree hid, text_agree hsnapshot]

theorem context_agree (context : Json) (h : Writer.isAffectedContext context) :
    Renderer.validContext Renderer.boundedStoredPacketText context ↔
      ∀ t ∈ contextTexts context, storedText t := by
  unfold Writer.isAffectedContext at h
  unfold Renderer.validContext contextTexts
  simp only [Bool.and_eq_true] at h ⊢
  obtain ⟨⟨⟨⟨⟨hrecord, hkeys⟩, hmodality⟩, henvironment⟩, hflow⟩, hreproduction⟩ := h
  simp only [hrecord, hkeys, hmodality, henvironment, true_and, text_agree hflow,
    fieldIs_agree (reproduction_agree _) hreproduction, List.forall_mem_append]

/-! ## Evidence -/

theorem record_fields {value : Json} (h : isRecord value) :
    ∃ fields, value = .obj fields ∧ (fields.map Prod.fst).Nodup := by
  cases value with
  | obj fields => exact ⟨fields, rfl, of_decide_eq_true h⟩
  | _ => cases h

theorem keys_perm {keys : List String} {value : Json} (h : hasExactKeys keys value) :
    (objectKeys value).Perm (keys.map String.toList) := by
  cases value with
  | obj fields =>
    have hsorted := of_decide_eq_true h
    have hleft := List.perm_insertionSort (· ≤ ·) (fields.map Prod.fst)
    have hright := List.perm_insertionSort (· ≤ ·) (keys.map String.toList)
    rw [hsorted] at hleft
    exact hleft.symm.trans hright
  | _ => cases h

theorem hasExactKeys_of_perm {keys : List String} {fields : List (Text × Json)}
    (h : (fields.map Prod.fst).Perm (keys.map String.toList)) :
    hasExactKeys keys (.obj fields) := by
  refine decide_eq_true ?_
  refine List.Perm.eq_of_pairwise ?_ (List.pairwise_insertionSort _ _)
    (List.pairwise_insertionSort _ _) ?_
  · intro a b _ _ hab hba
    exact le_antisymm hab hba
  · exact (List.perm_insertionSort _ _).trans (h.trans (List.perm_insertionSort _ _).symm)

theorem evidenceKeys_nodup (evidence : Json) :
    ((Renderer.evidenceKeys evidence).map String.toList).Nodup := by
  have hall : ∀ artifact execution : Bool,
      ((["evidenceRef"] ++ (if artifact then ["artifactKey"] else []) ++
        (if execution then ["executionId"] else []) ++ ["previewBootId"]).map
          String.toList).Nodup := by
    decide
  exact hall _ _

theorem mem_evidenceKeys {evidence : Json} {key : Text} :
    key ∈ (Renderer.evidenceKeys evidence).map String.toList ↔
      key = "evidenceRef".toList ∨
        (hasOwn evidence "artifactKey" ∧ key = "artifactKey".toList) ∨
        (hasOwn evidence "executionId" ∧ key = "executionId".toList) ∨
        key = "previewBootId".toList := by
  unfold Renderer.evidenceKeys
  simp only [List.map_append, List.map_cons, List.map_nil, List.mem_append, List.mem_singleton,
    apply_ite (List.map String.toList), or_assoc]
  cases hasOwn evidence "artifactKey" <;> cases hasOwn evidence "executionId" <;>
    simp only [Bool.false_eq_true, if_false, if_true, List.mem_singleton, List.not_mem_nil,
      false_and, true_and, false_or]

/-- The names that the writer admits are the ones that the renderer builds. -/
theorem evidence_keys {fields : List (Text × Json)} (hnodup : (fields.map Prod.fst).Nodup)
    (hall : ∀ key ∈ fields.map Prod.fst, key = "evidenceRef".toList ∨ key = "artifactKey".toList ∨
      key = "executionId".toList ∨ key = "previewBootId".toList)
    (href : "evidenceRef".toList ∈ fields.map Prod.fst)
    (hboot : "previewBootId".toList ∈ fields.map Prod.fst) :
    hasExactKeys (Renderer.evidenceKeys (.obj fields)) (.obj fields) := by
  refine hasExactKeys_of_perm ?_
  rw [List.perm_ext_iff_of_nodup hnodup (evidenceKeys_nodup _)]
  intro key
  rw [mem_evidenceKeys]
  constructor
  · intro hkey
    rcases hall key hkey with rfl | rfl | rfl | rfl
    · exact .inl rfl
    · exact .inr (.inl ⟨List.contains_iff_mem.mpr hkey, rfl⟩)
    · exact .inr (.inr (.inl ⟨List.contains_iff_mem.mpr hkey, rfl⟩))
    · exact .inr (.inr (.inr rfl))
  · rintro (rfl | ⟨hkey, rfl⟩ | ⟨hkey, rfl⟩ | rfl)
    · exact href
    · exact List.contains_iff_mem.mp hkey
    · exact List.contains_iff_mem.mp hkey
    · exact hboot

theorem textsAt_of_not_hasOwn {key : String} {fields : List (Text × Json)}
    (h : hasOwn (.obj fields) key = false) : textsAt key (.obj fields) = [] := by
  have hnone : fields.lookup key.toList = none := by
    rw [List.lookup_eq_none_iff]
    intro f hf
    rw [bne_iff_ne]
    intro heq
    unfold hasOwn objectKeys at h
    rw [List.contains_eq_mem, decide_eq_false_iff_not] at h
    exact h (List.mem_map.mpr ⟨f, hf, heq.symm⟩)
  unfold textsAt textAt Json.get
  simp only [hnone, Option.toList_none]

/-- A text that may be missing. -/
theorem optional_agree {key : String} {max : Nat} {fields : List (Text × Json)}
    (h : (!hasOwn (.obj fields) key ||
      textIs key (Writer.safeCriterionSnapshotText max) (.obj fields)) = true) :
    (!hasOwn (.obj fields) key ||
      textIs key (Renderer.boundedStoredPacketText max) (.obj fields)) = true ↔
      ∀ t ∈ textsAt key (.obj fields), storedText t := by
  cases howned : hasOwn (.obj fields) key with
  | false =>
    rw [textsAt_of_not_hasOwn howned]
    simp
  | true =>
    rw [howned] at h
    exact text_agree h

theorem evidence_agree (evidence : Json) (h : Writer.isEvidence evidence) :
    Renderer.validEvidence Renderer.boundedStoredPacketText evidence ↔
      ∀ t ∈ evidenceTexts evidence, storedText t := by
  unfold Writer.isEvidence at h
  unfold Renderer.validEvidence evidenceTexts
  simp only [Bool.and_eq_true] at h ⊢
  obtain ⟨⟨⟨⟨⟨⟨⟨hrecord, hall⟩, href⟩, hboot⟩, hreftext⟩, hboottext⟩, hartifact⟩, hexecution⟩ := h
  obtain ⟨fields, rfl, hnodup⟩ := record_fields hrecord
  have hkeys : hasExactKeys (Renderer.evidenceKeys (.obj fields)) (.obj fields) := by
    refine evidence_keys hnodup ?_ (List.contains_iff_mem.mp href) (List.contains_iff_mem.mp hboot)
    intro key hkey
    simpa only [Bool.or_eq_true, decide_eq_true_eq, or_assoc] using List.all_eq_true.mp hall key hkey
  simp only [hrecord, hkeys, true_and, text_agree hreftext, text_agree hboottext,
    optional_agree hartifact, optional_agree hexecution, List.forall_mem_append]

/-! ## Ids -/

theorem packetId_eq (host : Host) (packet : Json) :
    Writer.reviewJobCorrectionPacketId host packet =
      Renderer.expectedCorrectionPacketId host packet := rfl

/-- An id that was computed has the shape of an id. -/
theorem isCorrectionPacketId_packetId (host : Host) (packet : Json) :
    Renderer.isCorrectionPacketId (Writer.reviewJobCorrectionPacketId host packet) := by
  have hhex := isHex_hex (host.sha256_length (utf8 (idDocument host packet)))
  unfold isHex at hhex
  rw [Bool.and_eq_true, decide_eq_true_eq, List.all_eq_true] at hhex
  have hword : ("correction-".toList.take 11).map fold = "correction-".toList := by decide
  have hlength : "correction-".toList.length = 11 := by decide
  unfold Renderer.isCorrectionPacketId Writer.reviewJobCorrectionPacketId isHex
  rw [List.take_append_of_le_length (by rw [hlength]), hword, ← hlength, List.drop_left]
  simp only [decide_true, Bool.true_and, Bool.and_eq_true, decide_eq_true_eq, List.all_eq_true]
  refine ⟨?_, fun c hc => hhex.2 c (List.mem_of_mem_take hc)⟩
  rw [List.length_take, hhex.1]
  decide

/-! ## Packets -/

/-- The renderer's guard, of a packet that the writer admitted. -/
theorem stored_iff (host : Host) (packet : Json)
    (h : Writer.validateReviewJobCorrectionPacketPayload host packet) :
    Renderer.validateStoredGitHubCorrectionPacketPayload host packet ↔ StoredFit packet := by
  unfold Writer.validateReviewJobCorrectionPacketPayload at h
  unfold Renderer.validateStoredGitHubCorrectionPacketPayload
    Renderer.validateCorrectionPacketPayload
  simp only [Bool.and_eq_true] at h ⊢
  obtain ⟨⟨⟨⟨⟨⟨⟨⟨⟨⟨⟨⟨⟨⟨⟨⟨⟨⟨⟨⟨⟨⟨⟨⟨hrecord, hkeys⟩, hkind⟩, hversion⟩, hworkspace⟩, hrepo⟩, hpr⟩,
    hsha⟩, hrecordId⟩, hjob⟩, hcontract⟩, hcriterion⟩, hbasis⟩, hstate⟩, hsame⟩, hexpected⟩,
    hobserved⟩, hcontext⟩, hevidence⟩, hscope⟩, himpact⟩, hcorrection⟩, hreverification⟩, -⟩,
    hid⟩ := h
  have hrepo' : textIs "repo" isRepo packet := textIs_mono (fun _ => isRepo_of_safeRepo) hrepo
  have hsha' : textIs "headSha" Renderer.isSha1 packet := hsha
  have hid' : textIs "packetId" (· = Renderer.expectedCorrectionPacketId host packet) packet := hid
  have hshape : textIs "packetId" Renderer.isCorrectionPacketId packet := by
    refine textIs_mono (fun t ht => ?_) hid
    rw [of_decide_eq_true ht]
    exact isCorrectionPacketId_packetId host packet
  simp only [hrecord, hkeys, hkind, hversion, hrepo', hsha', hid', hshape, hbasis, hstate, hsame,
    true_and, and_true, id_agree hworkspace, id_agree hrecordId, id_agree hjob, number_agree hpr,
    fieldIs_agree contract_agree hcontract, fieldIs_agree criterion_agree hcriterion,
    text_agree hexpected, text_agree hobserved, fieldIs_agree context_agree hcontext,
    fieldIs_agree evidence_agree hevidence, text_agree hscope, text_agree himpact,
    text_agree hcorrection, text_agree hreverification]
  constructor
  · rintro ⟨⟨⟨⟨⟨⟨⟨⟨⟨⟨⟨⟨⟨w, n⟩, r⟩, j⟩, ci, cv⟩, ki, ks⟩, e⟩, o⟩, x⟩, v⟩, s⟩, i⟩, c⟩, b⟩
    refine ⟨?_, ?_, ?_⟩
    · simp only [packetIds, List.forall_mem_append]
      exact ⟨⟨⟨⟨w, r⟩, j⟩, ci⟩, ki⟩
    · simp only [packetNumbers, List.forall_mem_append]
      exact ⟨fun q hq => of_decide_eq_true (n q hq), fun q hq => of_decide_eq_true (cv q hq)⟩
    · simp only [packetTexts, List.forall_mem_append]
      exact ⟨⟨⟨⟨⟨⟨⟨⟨ks, e⟩, o⟩, x⟩, v⟩, s⟩, i⟩, c⟩, b⟩
  · rintro ⟨hids, hnumbers, htexts⟩
    simp only [packetIds, List.forall_mem_append] at hids
    simp only [packetNumbers, List.forall_mem_append] at hnumbers
    simp only [packetTexts, List.forall_mem_append] at htexts
    obtain ⟨⟨⟨⟨w, r⟩, j⟩, ci⟩, ki⟩ := hids
    obtain ⟨n, cv⟩ := hnumbers
    obtain ⟨⟨⟨⟨⟨⟨⟨⟨ks, e⟩, o⟩, x⟩, v⟩, s⟩, i⟩, c⟩, b⟩ := htexts
    exact ⟨⟨⟨⟨⟨⟨⟨⟨⟨⟨⟨⟨⟨w, fun q hq => decide_eq_true (n q hq)⟩, r⟩, j⟩, ci,
      fun q hq => decide_eq_true (cv q hq)⟩, ki, ks⟩, e⟩, o⟩, x⟩, v⟩, s⟩, i⟩, c⟩, b⟩

end Agentrail.Correction
