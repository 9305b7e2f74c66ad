import Agentrail.Records.CorrectionGuards

/-!
# The writer and the renderer of correction packets

Packets that the writer admitted are taken back by the renderer, under the same ids and
the same digest, exactly where each of them is `StoredFit`:

    (∀ p ∈ packets, Writer accepts p) →
      (RendererAgrees packets ↔ ∀ p ∈ packets, StoredFit p)      (renderer_agrees_iff)

Ids and digests agree on all that the writer admits.  The two encoders sort the names of
an object by different units, which tell no two ASCII names apart (`canonicalBy_ascii`),
and an admitted packet has no other names (`asciiNames_packet`).
-/

namespace Agentrail.Correction

open Js
open ExactGitTree (textAt arrayAt hasExactKeys isNumberAt compareUtf8)

/-! ## The order of ASCII names -/

def Ascii (t : Text) : Prop := ∀ c ∈ t, c.toNat < 0x80

instance (t : Text) : Decidable (Ascii t) := List.decidableBAll (fun c : Char => c.toNat < 0x80) t

theorem utf8EncodeChar_ascii {c : Char} (h : c.toNat < 0x80) :
    String.utf8EncodeChar c = [c.toNat.toUInt8] := by
  have hval : c.val.toNat ≤ 0x7f := Nat.le_of_lt_succ h
  unfold String.utf8EncodeChar
  simp only [hval, if_true]
  rfl

theorem utf8_cons_ascii {c : Char} {t : Text} (h : c.toNat < 0x80) :
    utf8 (c :: t) = c.toNat.toUInt8 :: utf8 t := by
  unfold utf8
  rw [List.flatMap_cons, utf8EncodeChar_ascii h, List.singleton_append]

theorem utf16_cons_ascii {c : Char} {t : Text} (h : c.toNat < 0x80) :
    utf16 (c :: t) = c.toNat :: utf16 t := by
  have hsmall : c.toNat < 0x10000 := by omega
  unfold utf16
  rw [List.flatMap_cons, if_pos hsmall, List.singleton_append]

/-- Both units compare ASCII alike. -/
theorem compareUtf8_ascii {a b : Text} (ha : Ascii a) (hb : Ascii b) :
    decide (compareUtf8 a b ≠ .gt) = !textLt b a := by
  unfold compareUtf8 textLt
  induction a generalizing b with
  | nil =>
    cases b with
    | nil => rfl
    | cons d b =>
      have hd := (List.forall_mem_cons.mp hb).1
      rw [utf8_cons_ascii hd, utf16_cons_ascii hd]
      rfl
  | cons c a ih =>
    obtain ⟨hc, ha⟩ := List.forall_mem_cons.mp ha
    rw [utf8_cons_ascii hc, utf16_cons_ascii hc]
    cases b with
    | nil => rfl
    | cons d b =>
      obtain ⟨hd, hb⟩ := List.forall_mem_cons.mp hb
      have hc8 : c.toNat.toUInt8.toNat = c.toNat := by simp; omega
      have hd8 : d.toNat.toUInt8.toNat = d.toNat := by simp; omega
      rw [utf8_cons_ascii hd, utf16_cons_ascii hd, List.compareLex_cons_cons]
      have htail := ih ha hb
      rcases Nat.lt_trichotomy c.toNat d.toNat with hlt | heq | hgt
      · have hcmp : compare c.toNat.toUInt8 d.toNat.toUInt8 = .lt := by
          rw [Std.compare_eq_lt, UInt8.lt_iff_toNat_lt, hc8, hd8]
          exact hlt
        have hnot : ¬ (d.toNat :: utf16 b < c.toNat :: utf16 a) := by
          rw [List.cons_lt_cons_iff]
          omega
        rw [hcmp, decide_eq_false hnot]
        rfl
      · rw [heq, Std.compare_self]
        have hcons : (d.toNat :: utf16 b < d.toNat :: utf16 a) ↔ utf16 b < utf16 a := by
          rw [List.cons_lt_cons_iff]
          simp
        rw [decide_eq_decide.mpr hcons, ← htail]
        rfl
      · have hcmp : compare c.toNat.toUInt8 d.toNat.toUInt8 = .gt := by
          rw [Std.compare_eq_gt, UInt8.lt_iff_toNat_lt, hc8, hd8]
          exact hgt
        have hlt : d.toNat :: utf16 b < c.toNat :: utf16 a :=
          List.cons_lt_cons_iff.mpr (.inl hgt)
        rw [hcmp, decide_eq_true hlt]
        rfl

/-! ## Names at every depth -/

mutual

/-- Every name of every object in a value is ASCII. -/
def AsciiNames : Json → Prop
  | .null => True
  | .bool _ => True
  | .num _ => True
  | .str _ => True
  | .arr xs => AsciiItems xs
  | .obj fields => AsciiFields fields

def AsciiItems : List Json → Prop
  | [] => True
  | x :: xs => AsciiNames x ∧ AsciiItems xs

def AsciiFields : List (Text × Json) → Prop
  | [] => True
  | (k, v) :: fields => Ascii k ∧ AsciiNames v ∧ AsciiFields fields

end

theorem asciiItems_iff {xs : List Json} : AsciiItems xs ↔ ∀ x ∈ xs, AsciiNames x := by
  induction xs with
  | nil => simp [AsciiItems]
  | cons x xs ih => rw [AsciiItems, ih, List.forall_mem_cons]

theorem asciiFields_iff {fields : List (Text × Json)} :
    AsciiFields fields ↔ ∀ f ∈ fields, Ascii f.1 ∧ AsciiNames f.2 := by
  induction fields with
  | nil => simp [AsciiFields]
  | cons f fields ih => rw [AsciiFields, ih, List.forall_mem_cons, and_assoc]

section
variable (numberText : ℚ → Text)

theorem fst_canonicalFields {before : Text → Text → Bool} {fields : List (Text × Json)}
    {f : Text × Text} (hfields : AsciiFields fields)
    (hf : f ∈ canonicalFields numberText before fields) : Ascii f.1 := by
  induction fields with
  | nil => rw [canonicalFields] at hf; cases hf
  | cons g fields ih =>
    rw [canonicalFields] at hf
    rw [AsciiFields] at hfields
    rcases List.mem_cons.mp hf with rfl | hf
    · exact hfields.1
    · exact ih hfields.2.2 hf

variable {before before' : Text → Text → Bool}

mutual

/-- Orders that agree on ASCII write the same text. -/
theorem canonicalBy_ascii (hagree : ∀ a b, Ascii a → Ascii b → before a b = before' a b) :
    (v : Json) → AsciiNames v →
    canonicalBy numberText before v = canonicalBy numberText before' v
  | .null, _ => by rw [canonicalBy, canonicalBy]
  | .bool true, _ => by rw [canonicalBy, canonicalBy]
  | .bool false, _ => by rw [canonicalBy, canonicalBy]
  | .num _, _ => by rw [canonicalBy, canonicalBy]
  | .str _, _ => by rw [canonicalBy, canonicalBy]
  | .arr xs, h => by
    rw [AsciiNames] at h
    rw [canonicalBy, canonicalBy, canonicalItems_ascii hagree xs h]
  | .obj fields, h => by
    rw [AsciiNames] at h
    rw [canonicalBy, canonicalBy, canonicalFields_ascii hagree fields h]
    have hsort := List.map_insertionSort (r := fun f g : Text × Text => before f.1 g.1)
      (s := fun f g : Text × Text => before' f.1 g.1) id
      (canonicalFields numberText before' fields) fun f hf g hg => by
        rw [id, id, hagree f.1 g.1 (fst_canonicalFields numberText h hf)
          (fst_canonicalFields numberText h hg)]
    rw [List.map_id, List.map_id] at hsort
    rw [hsort]

theorem canonicalItems_ascii
    (hagree : ∀ a b, Ascii a → Ascii b → before a b = before' a b) :
    (xs : List Json) → AsciiItems xs →
    canonicalItems numberText before xs = canonicalItems numberText before' xs
  | [], _ => by rw [canonicalItems, canonicalItems]
  | x :: xs, h => by
    rw [AsciiItems] at h
    rw [canonicalItems, canonicalItems, canonicalBy_ascii hagree x h.1,
      canonicalItems_ascii hagree xs h.2]

theorem canonicalFields_ascii
    (hagree : ∀ a b, Ascii a → Ascii b → before a b = before' a b) :
    (fields : List (Text × Json)) → AsciiFields fields →
    canonicalFields numberText before fields = canonicalFields numberText before' fields
  | [], _ => by rw [canonicalFields, canonicalFields]
  | (k, v) :: fields, h => by
    rw [AsciiFields] at h
    rw [canonicalFields, canonicalFields, canonicalBy_ascii hagree v h.2.1,
      canonicalFields_ascii hagree fields h.2.2]

end

end

theorem canonicalJson_eq (host : Host) (v : Json) (h : AsciiNames v) :
    Writer.canonicalJson host v = Renderer.canonicalJson host v :=
  canonicalBy_ascii host.numberText (fun _ _ ha hb => (compareUtf8_ascii ha hb).symm) v h

/-! ## The names of an admitted packet -/

theorem lookup_of_mem {fields : List (Text × Json)} (hnodup : (fields.map Prod.fst).Nodup)
    {f : Text × Json} (hf : f ∈ fields) : fields.lookup f.1 = some f.2 := by
  obtain ⟨before, after, rfl⟩ := List.append_of_mem hf
  rw [List.map_append, List.map_cons, List.nodup_middle, List.nodup_cons] at hnodup
  refine List.lookup_eq_some_iff.mpr ⟨before, after, rfl, fun g hg => ?_⟩
  rw [bne_iff_ne]
  intro heq
  exact hnodup.1 (List.mem_append_left _ (List.mem_map.mpr ⟨g, hg, heq.symm⟩))

theorem asciiNames_record {value : Json} (hrecord : isRecord value)
    (h : ∀ key ∈ objectKeys value, Ascii key ∧ ∀ x, value.get key = some x → AsciiNames x) :
    AsciiNames value := by
  obtain ⟨fields, rfl, hnodup⟩ := record_fields hrecord
  rw [AsciiNames, asciiFields_iff]
  intro f hf
  obtain ⟨hname, hvalue⟩ := h f.1 (List.mem_map_of_mem hf)
  exact ⟨hname, hvalue f.2 (lookup_of_mem hnodup hf)⟩

theorem asciiNames_of_keys {keys : List String} {value : Json} (hrecord : isRecord value)
    (hkeys : hasExactKeys keys value) (hascii : ∀ key ∈ keys, Ascii key.toList)
    (h : keys.Forall fun key => ∀ x, value.get key.toList = some x → AsciiNames x) :
    AsciiNames value := by
  refine asciiNames_record hrecord fun key hkey => ?_
  obtain ⟨name, hname, rfl⟩ := List.mem_map.mp ((keys_perm hkeys).mem_iff.mp hkey)
  exact ⟨hascii name hname, List.forall_iff_forall_mem.mp h name hname⟩

section
variable {key : String} {value : Json}

theorem asciiNames_text {p : Text → Bool} (h : textIs key p value) :
    ∀ x, value.get key.toList = some x → AsciiNames x := by
  intro x hx
  obtain ⟨t, ht, -⟩ := textIs_iff.mp h
  unfold textAt at ht
  rw [hx] at ht
  cases x with
  | str t => rw [AsciiNames]; trivial
  | _ => cases ht

theorem asciiNames_number {p : ℚ → Bool} (h : numberIs key p value) :
    ∀ x, value.get key.toList = some x → AsciiNames x := by
  intro x hx
  obtain ⟨q, hq, -⟩ := numberIs_iff.mp h
  unfold numberAt at hq
  rw [hx] at hq
  cases x with
  | num q => rw [AsciiNames]; trivial
  | _ => cases hq

theorem asciiNames_field {p : Json → Bool} (hp : ∀ x, p x → AsciiNames x)
    (h : fieldIs key p value) : ∀ x, value.get key.toList = some x → AsciiNames x := by
  intro x hx
  obtain ⟨y, hy, hpy⟩ := fieldIs_iff.mp h
  rw [hx] at hy
  obtain rfl := Option.some.inj hy
  exact hp x hpy

theorem asciiNames_items {max : Nat} {p : Json → Bool} (hp : ∀ x, p x → AsciiNames x)
    (h : itemsAre key max p value) : ∀ x, value.get key.toList = some x → AsciiNames x := by
  intro x hx
  obtain ⟨items, hitems, -, -, hall⟩ := itemsAre_iff.mp h
  unfold arrayAt at hitems
  rw [hx] at hitems
  cases x with
  | arr xs =>
    obtain rfl := Option.some.inj hitems
    rw [AsciiNames, asciiItems_iff]
    exact fun y hy => hp y (hall y hy)
  | _ => cases hitems

end

theorem asciiNames_api (value : Json) (h : Writer.isCorrectionApiRequest value) :
    AsciiNames value := by
  unfold Writer.isCorrectionApiRequest at h
  simp only [Bool.and_eq_true] at h
  obtain ⟨⟨⟨⟨hrecord, hkeys⟩, hmethod⟩, hpath⟩, hstatus⟩ := h
  exact asciiNames_of_keys hrecord hkeys (by decide)
    ⟨asciiNames_text hmethod, asciiNames_text hpath, asciiNames_number hstatus⟩

theorem asciiNames_trigger (value : Json) (h : Writer.isCorrectionTrigger value) :
    AsciiNames value := by
  unfold Writer.isCorrectionTrigger at h
  simp only [Bool.and_eq_true] at h
  obtain ⟨⟨⟨⟨hrecord, hkeys⟩, hmethod⟩, hpath⟩, hstatus⟩ := h
  exact asciiNames_of_keys hrecord hkeys (by decide)
    ⟨asciiNames_text hmethod, asciiNames_text hpath, asciiNames_number hstatus⟩

theorem asciiNames_assertion (value : Json) (h : Writer.isCorrectionAssertion value) :
    AsciiNames value := by
  unfold Writer.isCorrectionAssertion at h
  simp only [Bool.and_eq_true, Bool.or_eq_true] at h
  obtain ⟨⟨⟨⟨hrecord, hkeys⟩, hpointer⟩, htype⟩, hmac⟩ := h
  refine asciiNames_of_keys hrecord hkeys (by decide)
    ⟨asciiNames_text hpointer, ?_, asciiNames_text hmac⟩
  rcases htype with ((htype | htype) | htype) | htype <;> exact asciiNames_text htype

theorem asciiNames_data (value : Json) (h : Writer.isCorrectionDataRequest value) :
    AsciiNames value := by
  unfold Writer.isCorrectionDataRequest at h
  simp only [Bool.and_eq_true] at h
  obtain ⟨⟨⟨⟨⟨⟨⟨⟨hrecord, hkeys⟩, hmethod⟩, hpath⟩, hstatus⟩, halgorithm⟩, hkey⟩, hcontext⟩,
    hitems⟩ := h
  exact asciiNames_of_keys hrecord hkeys (by decide)
    ⟨asciiNames_text hmethod, asciiNames_text hpath, asciiNames_number hstatus,
      asciiNames_text halgorithm, asciiNames_text hkey, asciiNames_text hcontext,
      asciiNames_items asciiNames_assertion hitems⟩

/-- A step of an action and one more text. -/
theorem asciiNames_pair {name : String} {p : Text → Bool} {step : Json} (hrecord : isRecord step)
    {action : Text} (haction : textAt "action" step = some action)
    (hascii : Ascii name.toList)
    (h : (hasExactKeys ["action", name] step && textIs name p step) = true) :
    AsciiNames step := by
  rw [Bool.and_eq_true] at h
  have hword : textIs "action" (fun _ => true) step := textIs_iff.mpr ⟨action, haction, rfl⟩
  refine asciiNames_of_keys hrecord h.1 ?_ ⟨asciiNames_text hword, asciiNames_text h.2⟩
  rw [List.forall_mem_cons, List.forall_mem_singleton]
  exact ⟨by decide, hascii⟩

theorem asciiNames_step (step : Json) (h : Writer.isCorrectionStep step) : AsciiNames step := by
  unfold Writer.isCorrectionStep at h
  rw [Bool.and_eq_true, Option.any_eq_true] at h
  obtain ⟨hrecord, action, haction, h⟩ := h
  split at h
  · exact asciiNames_pair hrecord haction (by decide) h
  split at h
  · exact asciiNames_pair hrecord haction (by decide) h
  split at h
  · simp only [Bool.and_eq_true] at h
    obtain ⟨⟨hkeys, hselector⟩, hvalue⟩ := h
    have hword : textIs "action" (fun _ => true) step := textIs_iff.mpr ⟨action, haction, rfl⟩
    exact asciiNames_of_keys hrecord hkeys (by decide)
      ⟨asciiNames_text hword, asciiNames_text hselector, asciiNames_text hvalue⟩
  split at h
  · exact asciiNames_pair hrecord haction (by decide) h
  split at h
  · exact asciiNames_pair hrecord haction (by decide) h
  split at h
  · exact asciiNames_pair hrecord haction (by decide) h
  · cases h

theorem asciiNames_job (request : Json)
    (h : (isRecord request && hasExactKeys ["trigger", "readback"] request &&
      fieldIs "trigger" Writer.isCorrectionTrigger request &&
      fieldIs "readback" Writer.isCorrectionDataRequest request) = true) : AsciiNames request := by
  simp only [Bool.and_eq_true] at h
  obtain ⟨⟨⟨hrecord, hkeys⟩, htrigger⟩, hreadback⟩ := h
  exact asciiNames_of_keys hrecord hkeys (by decide)
    ⟨asciiNames_field asciiNames_trigger htrigger, asciiNames_field asciiNames_data hreadback⟩

/-- A modality and the request it reproduces. -/
theorem asciiNames_request {p : Json → Bool} {q : Text → Bool} {value : Json}
    (hp : ∀ x, p x → AsciiNames x) (hrecord : isRecord value)
    (hmodality : textIs "modality" q value)
    (h : (hasExactKeys ["modality", "request"] value && fieldIs "request" p value) = true) :
    AsciiNames value := by
  rw [Bool.and_eq_true] at h
  exact asciiNames_of_keys hrecord h.1 (by decide)
    ⟨asciiNames_text hmodality, asciiNames_field hp h.2⟩

theorem asciiNames_reproduction (modality : Text) (value : Json)
    (h : Writer.isCorrectionReproduction modality value) : AsciiNames value := by
  unfold Writer.isCorrectionReproduction at h
  rw [Bool.and_eq_true, Bool.and_eq_true] at h
  obtain ⟨⟨hrecord, hmodality⟩, h⟩ := h
  split at h
  · exact asciiNames_request asciiNames_api hrecord hmodality h
  split at h
  · exact asciiNames_request asciiNames_data hrecord hmodality h
  split at h
  · exact asciiNames_request asciiNames_job hrecord hmodality h
  · simp only [Bool.and_eq_true] at h
    obtain ⟨⟨-, hkeys⟩, hsteps⟩ := h
    exact asciiNames_of_keys hrecord hkeys (by decide)
      ⟨asciiNames_text hmodality, asciiNames_items asciiNames_step hsteps⟩

theorem asciiNames_contract (contract : Json) (h : Writer.isAcceptanceContract contract) :
    AsciiNames contract := by
  unfold Writer.isAcceptanceContract at h
  simp only [Bool.and_eq_true] at h
  obtain ⟨⟨⟨hrecord, hkeys⟩, hid⟩, hversion⟩ := h
  exact asciiNames_of_keys hrecord hkeys (by decide)
    ⟨asciiNames_text hid, asciiNames_number hversion⟩

theorem asciiNames_criterion (criterion : Json) (h : Writer.isCriterion criterion) :
    AsciiNames criterion := by
  unfold Writer.isCriterion at h
  simp only [Bool.and_eq_true] at h
  obtain ⟨⟨⟨hrecord, hkeys⟩, hid⟩, hsnapshot⟩ := h
  exact asciiNames_of_keys hrecord hkeys (by decide)
    ⟨asciiNames_text hid, asciiNames_text hsnapshot⟩

theorem asciiNames_context (context : Json) (h : Writer.isAffectedContext context) :
    AsciiNames context := by
  unfold Writer.isAffectedContext at h
  simp only [Bool.and_eq_true, Bool.or_eq_true] at h
  obtain ⟨⟨⟨⟨⟨hrecord, hkeys⟩, hmodality⟩, henvironment⟩, hflow⟩, hreproduction⟩ := h
  refine asciiNames_of_keys hrecord hkeys (by decide)
    ⟨?_, ?_, asciiNames_text hflow, asciiNames_field (asciiNames_reproduction _) hreproduction⟩
  · rcases hmodality with ((hmodality | hmodality) | hmodality) | hmodality <;>
      exact asciiNames_text hmodality
  · rcases henvironment with hnull | htext
    · refine asciiNames_field (fun x hx => ?_) hnull
      cases x with
      | null => rw [AsciiNames]; trivial
      | _ => cases hx
    · exact asciiNames_text htext

theorem asciiNames_evidence (evidence : Json) (h : Writer.isEvidence evidence) :
    AsciiNames evidence := by
  unfold Writer.isEvidence at h
  simp only [Bool.and_eq_true] at h
  obtain ⟨⟨⟨⟨⟨⟨⟨hrecord, hall⟩, -⟩, -⟩, href⟩, hboot⟩, hartifact⟩, hexecution⟩ := h
  refine asciiNames_record hrecord fun key hkey => ?_
  have hname := List.all_eq_true.mp hall key hkey
  simp only [Bool.or_eq_true, decide_eq_true_eq] at hname
  rcases hname with ((rfl | rfl) | rfl) | rfl
  · exact ⟨by decide, asciiNames_text href⟩
  · have hown : hasOwn evidence "artifactKey" := List.contains_iff_mem.mpr hkey
    rw [hown] at hartifact
    exact ⟨by decide, asciiNames_text hartifact⟩
  · have hown : hasOwn evidence "executionId" := List.contains_iff_mem.mpr hkey
    rw [hown] at hexecution
    exact ⟨by decide, asciiNames_text hexecution⟩
  · exact ⟨by decide, asciiNames_text hboot⟩

theorem asciiNames_version {packet : Json} (h : isNumberAt "version" 1 packet) :
    ∀ x, packet.get "version".toList = some x → AsciiNames x := by
  intro x hx
  unfold isNumberAt at h
  rw [hx] at h
  cases x with
  | num q => rw [AsciiNames]; trivial
  | _ => cases h

theorem asciiNames_packet (host : Host) (packet : Json)
    (h : Writer.validateReviewJobCorrectionPacketPayload host packet) : AsciiNames packet := by
  unfold Writer.validateReviewJobCorrectionPacketPayload at h
  simp only [Bool.and_eq_true, Bool.or_eq_true] at h
  obtain ⟨⟨⟨⟨⟨⟨⟨⟨⟨⟨⟨⟨⟨⟨⟨⟨⟨⟨⟨⟨⟨⟨⟨⟨hrecord, hkeys⟩, hkind⟩, hversion⟩, hworkspace⟩, hrepo⟩, hpr⟩,
    hsha⟩, hrecordId⟩, hjob⟩, hcontract⟩, hcriterion⟩, hbasis⟩, hstate⟩, -⟩, hexpected⟩,
    hobserved⟩, hcontext⟩, hevidence⟩, hscope⟩, himpact⟩, hcorrection⟩, hreverification⟩, -⟩,
    hid⟩ := h
  have hstateNames : ∀ x, packet.get "state".toList = some x → AsciiNames x := by
    rcases hstate with hstate | hstate <;> exact asciiNames_text hstate
  exact asciiNames_of_keys hrecord hkeys (by decide)
    ⟨asciiNames_text hkind, asciiNames_version hversion, asciiNames_text hid,
    asciiNames_text hworkspace, asciiNames_text hrepo, asciiNames_number hpr, asciiNames_text hsha,
    asciiNames_text hrecordId, asciiNames_text hjob,
    asciiNames_field asciiNames_contract hcontract,
    asciiNames_field asciiNames_criterion hcriterion, asciiNames_text hbasis, hstateNames,
    asciiNames_text hexpected, asciiNames_text hobserved,
    asciiNames_field asciiNames_context hcontext, asciiNames_field asciiNames_evidence hevidence,
    asciiNames_text hscope, asciiNames_text himpact, asciiNames_text hcorrection,
    asciiNames_text hreverification⟩

/-! ## Agreement -/

/-- The renderer takes the packets back, under their ids and their digest. -/
structure RendererAgrees (host : Host) (packets : List Json) : Prop where
  accepted : ∀ p ∈ packets, Renderer.validateStoredGitHubCorrectionPacketPayload host p
  ids : ∀ p ∈ packets,
    Writer.reviewJobCorrectionPacketId host p = Renderer.expectedCorrectionPacketId host p
  digest : packets ≠ [] → packets.length ≤ 100 → (packets.map (textOf "packetId")).Nodup →
    Writer.acceptanceCorrectionPacketPayloadSetSha256 host packets =
      some (Renderer.expectedPacketPayloadSetSha256 host (Writer.packetOrder host packets))

theorem packetOrder_perm (host : Host) (packets : List Json) :
    (Writer.packetOrder host packets).Perm packets := List.perm_insertionSort _ _

theorem asciiNames_payloadSet {packets : List Json} (h : ∀ p ∈ packets, AsciiNames p) :
    AsciiNames (payloadSet packets) := by
  have hkind : Ascii "kind".toList := by decide
  have hversion : Ascii "version".toList := by decide
  have hpackets : Ascii "packets".toList := by decide
  unfold payloadSet
  simp only [AsciiNames, AsciiFields, asciiItems_iff, hkind, hversion, hpackets, true_and, and_true]
  exact h

theorem payloadSet_digest (host : Host) (packets : List Json)
    (h : ∀ p ∈ packets, Writer.validateReviewJobCorrectionPacketPayload host p)
    (hne : packets ≠ []) (hlen : packets.length ≤ 100)
    (hnodup : (packets.map (textOf "packetId")).Nodup) :
    Writer.acceptanceCorrectionPacketPayloadSetSha256 host packets =
      some (Renderer.expectedPacketPayloadSetSha256 host (Writer.packetOrder host packets)) := by
  have hperm := packetOrder_perm host packets
  have hsorted : ((Writer.packetOrder host packets).map (textOf "packetId")).Nodup :=
    (hperm.map _).nodup_iff.mpr hnodup
  have hascii : AsciiNames (payloadSet (Writer.packetOrder host packets)) :=
    asciiNames_payloadSet fun p hp => asciiNames_packet host p (h p (hperm.mem_iff.mp hp))
  have hall : packets.all (Writer.validateReviewJobCorrectionPacketPayload host) :=
    List.all_eq_true.mpr h
  unfold Writer.acceptanceCorrectionPacketPayloadSetSha256 Renderer.expectedPacketPayloadSetSha256
  rw [canonicalJson_eq host _ hascii]
  simp [hne, hlen, hall, hsorted, guard]

/-- Of packets that the writer admitted, the renderer takes exactly the ones that fit. -/
theorem renderer_agrees_iff (host : Host) (packets : List Json)
    (h : ∀ p ∈ packets, Writer.validateReviewJobCorrectionPacketPayload host p) :
    RendererAgrees host packets ↔ ∀ p ∈ packets, StoredFit p := by
  constructor
  · intro hagree p hp
    exact (stored_iff host p (h p hp)).mp (hagree.accepted p hp)
  · intro hfit
    refine ⟨fun p hp => (stored_iff host p (h p hp)).mpr (hfit p hp),
      fun p _ => packetId_eq host p, payloadSet_digest host packets h⟩

/-! ## A criterion id with a blank -/

/-- The hash is the one of `idDocument sampleHost samplePacket`. -/
def sampleHost : Host where
  sha256 _ := [241, 248, 214, 166, 165, 84, 37, 160, 92, 149, 24, 62, 166, 119, 93, 158, 101, 23,
    85, 221, 10, 66, 103, 31, 176, 109, 91, 156, 77, 167, 148, 210]
  sha256_length _ := rfl
  numberText q := decimal q.num.toNat
  localeLe left right := !textLt right left

def sampleObject (fields : List (String × Json)) : Json :=
  .obj (fields.map fun f => (f.1.toList, f.2))

def sampleText (s : String) : Json := .str s.toList

def sampleReproduction : Json := sampleObject [
  ("modality", sampleText "api"),
  ("request", sampleObject [
    ("method", sampleText "GET"), ("path", sampleText "/"), ("expectedStatus", .num 200)])]

def samplePacket : Json := sampleObject [
  ("kind", sampleText "review_job_correction_packet"), ("version", .num 1),
  ("packetId", sampleText "correction-f1f8d6a6a55425a05c95183ea6775d9e651755dd0a42671f"),
  ("workspaceId", sampleText "w"), ("repo", sampleText "o/r"), ("prNumber", .num 1),
  ("headSha", .str (List.replicate 40 'a')), ("recordId", sampleText "r"),
  ("jobId", sampleText "j"),
  ("acceptanceContract", sampleObject [("id", sampleText "c"), ("version", .num 1)]),
  ("criterion", sampleObject [("id", sampleText "AC 1"), ("snapshot", sampleText "s")]),
  ("basis", sampleText "acceptance_contract"), ("state", sampleText "failed"),
  ("expected", sampleText "s"), ("observed", sampleText "o"),
  ("affectedContext", sampleObject [
    ("modality", sampleText "api"), ("environmentKind", .null), ("flow", sampleText "f"),
    ("reproduction", sampleReproduction)]),
  ("evidence", sampleObject [("evidenceRef", sampleText "e"), ("previewBootId", sampleText "b")]),
  ("scopeBoundary", sampleText "s"), ("impact", sampleText "i"),
  ("requiredCorrection", sampleText "r"), ("reverification", sampleText "v")]

theorem samplePacket_admitted :
    Writer.validateReviewJobCorrectionPacketPayload sampleHost samplePacket := by
  decide +kernel

/-- The writer admits the id, the renderer asks for an opaque one. -/
theorem spaced_id_refused :
    Writer.validateReviewJobCorrectionPacketPayload sampleHost samplePacket = true ∧
      Renderer.validateStoredGitHubCorrectionPacketPayload sampleHost samplePacket = false :=
  ⟨samplePacket_admitted, by decide +kernel⟩

theorem spaced_id_disagrees : ¬ RendererAgrees sampleHost [samplePacket] := by
  intro hagree
  have hfit := (renderer_agrees_iff sampleHost [samplePacket]
    (List.forall_mem_singleton.mpr samplePacket_admitted)).mp hagree samplePacket List.mem_cons_self
  have hid : safeOpaqueId "AC 1".toList := hfit.ids _ (by decide +kernel)
  exact absurd hid (by decide +kernel)

end Agentrail.Correction
