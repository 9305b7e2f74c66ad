import Agentrail.Records.PrDecision

/-!
# What a call that decides does

`bindingOf_of_current` says what the current binding is made of, `bindingName_inj` that its
name determines it, and `record_cases` what a call does: nothing, or it appends the event of
a decision on the current binding, which has none (`Appended`).
-/

namespace Agentrail.PrDecision

open Js Records

section
variable {host : Host} {s : Store}

/-! ## The binding -/

/-- What the binding `b` is made of. -/
structure BindingOf (host : Host) (s : Store) (record : ChangeRecordRow)
    (job : Review.ReviewJobRow) (b : CurrentAcceptancePrDecisionBinding) : Prop where
  workspaceId : b.workspaceId = record.workspaceId
  recordId : b.recordId = record.id
  repo : b.repo = record.repo
  headSha : record.currentPrHeadSha = some b.headSha
  headCycleId : record.currentPrHeadCycleId = some b.headCycleId
  authoritative : record.currentPrHeadAuthoritative
  generation : b.authorityGeneration = record.currentPrHeadAuthorityGeneration
  sha_hex : isExactGithubHeadSha b.headSha
  cycle_uuid : isUuid b.headCycleId
  job_mem : job ∈ s.jobs.rows
  job_id : job.id = b.headCycleId
  job_posted : job.state = .posted
  verdict : job.verdict = some b.reviewVerdict
  verdict_name : isAcceptanceReviewVerdict b.reviewVerdict
  reviewJobId : b.reviewJobId = b.headCycleId
  attestation : b.postedAttestationEventId =
    changeRecordEventId host.toHost b.recordId (reviewJobPostedAttestationEventKey b.reviewJobId)
  contract : s.contractIdentity host b.recordId = .ok b.acceptanceContract
  bindingId : b.bindingId = acceptancePrDecisionBindingId host b.toBaseBinding

theorem bindingOf_of_review {record : ChangeRecordRow} {candidate : Text × Nat}
    {head : CurrentHead} {b : CurrentAcceptancePrDecisionBinding}
    (hhead : currentHead candidate record = some head)
    (h : reviewBinding host record head s = .ok b) : ∃ job, BindingOf host s record job b := by
  unfold currentHead at hhead
  split at hhead
  next prNumber headSha headCycleId hnumber hsha hcycle =>
    split at hhead
    next hchecks =>
      obtain rfl := Option.some.inj hhead
      simp only [Bool.and_eq_true, decide_eq_true_eq] at hchecks
      obtain ⟨⟨⟨⟨-, hauthoritative⟩, hhex⟩, huuid⟩, -⟩ := hchecks
      unfold reviewBinding at h
      split at h
      · cases h
      next job hjob =>
      split at h
      · cases h
      next acceptanceContract hcontract =>
      split at h
      · cases h
      next verdict url hreview =>
      split at h
      · cases h
      next attestation hattestation =>
      dsimp only at h
      split at h
      next hmatches =>
        obtain rfl := Except.ok.inj h
        obtain ⟨hfound, hposted⟩ := Option.filter_eq_some_iff.mp hjob
        have hkey := List.find?_some hfound
        simp only [Bool.and_eq_true, decide_eq_true_eq] at hkey
        unfold postedReview at hreview
        split at hreview
        next verdict' url' hverdict hurl =>
          split at hreview
          next hvalid =>
            obtain ⟨rfl, rfl⟩ := Prod.mk.inj (Option.some.inj hreview)
            unfold matchesCanonicalPostedReviewAttestation at hmatches
            simp only [Bool.and_eq_true, decide_eq_true_eq] at hmatches
            refine ⟨job, ⟨rfl, rfl, rfl, hsha, hcycle, hauthoritative, rfl, hhex, huuid,
              List.mem_of_find?_eq_some hfound, hkey.1.1.1.1, of_decide_eq_true hposted, hverdict,
              (Bool.and_eq_true_iff.mp hvalid).1, hkey.1.1.1.1, hmatches.1.1.1.1.1, hcontract,
              rfl⟩⟩
          · cases hreview
        · cases hreview
      · cases h
    · cases hhead
  · cases hhead

theorem bindingOf_of_current {workspaceId recordId : Text} {candidate : Text × Nat}
    {b : CurrentAcceptancePrDecisionBinding}
    (h : currentBinding host workspaceId recordId candidate s = .ok b) :
    ∃ record job, s.recordOf workspaceId recordId = some record ∧ BindingOf host s record job b := by
  unfold currentBinding at h
  split at h
  · cases h
  next record hrecord =>
  split at h
  · cases h
  next head hhead =>
  split at h
  · cases h
  next binding hbinding =>
  obtain rfl := Except.ok.inj h
  obtain ⟨job, hjob⟩ := bindingOf_of_review hhead hbinding
  exact ⟨record, job, hrecord, hjob⟩

theorem recordOf_eq_some {workspaceId recordId : Text} {record : ChangeRecordRow}
    (h : s.recordOf workspaceId recordId = some record) :
    record ∈ s.records ∧ record.id = uuidValue recordId ∧
      record.workspaceId = uuidValue workspaceId := by
  have hkey := List.find?_some h
  rw [Bool.and_eq_true, decide_eq_true_eq, decide_eq_true_eq] at hkey
  exact ⟨List.mem_of_find?_eq_some h, hkey⟩

/-! ## Names of bindings -/

theorem colon_notMem_hex (b : Bytes) : ':' ∉ hex b := by
  intro h
  obtain ⟨x, -, hx⟩ := List.mem_flatMap.mp h
  have hlt := x.toNat_lt
  have hdigit : ∀ n < 16, ':' ≠ Nat.digitChar n := by decide
  rcases List.mem_pair.mp hx with hx | hx
  · exact hdigit _ (by omega) hx
  · exact hdigit _ (by omega) hx

theorem colon_notMem_of_all {p : Char → Bool} {t : Text} (h : t.all p) (hp : p ':' = false) :
    ':' ∉ t := by
  intro hmem
  rw [List.all_eq_true.mp h ':' hmem] at hp
  cases hp

theorem colon_notMem_uuid {t : Text} (h : isUuid t) : ':' ∉ t := by
  unfold isUuid at h
  simp only [Bool.and_eq_true] at h
  exact colon_notMem_of_all h.1.1.1 (by decide)

theorem colon_notMem_sha {t : Text} (h : isExactGithubHeadSha t) : ':' ∉ t := by
  unfold isExactGithubHeadSha at h
  rw [Bool.and_eq_true] at h
  exact colon_notMem_of_all h.2 (by decide)

theorem colon_notMem_verdict {t : Text} (h : isAcceptanceReviewVerdict t) : ':' ∉ t := by
  unfold isAcceptanceReviewVerdict at h
  simp only [Bool.or_eq_true, decide_eq_true_eq] at h
  rcases h with ((rfl | rfl) | rfl) | rfl <;> decide

theorem contractIdentity_plain {recordId : Text} {c : ContractIdentity}
    (h : s.contractIdentity host recordId = .ok c) : ':' ∉ c.id ∧ ':' ∉ c.sha256 := by
  unfold Store.contractIdentity at h
  split at h
  next confirmed _ =>
    dsimp only at h
    split at h
    · obtain rfl := Except.ok.inj h
      exact ⟨(s.contractColumns confirmed.recordId confirmed.version).id_plain,
        colon_notMem_hex _⟩
    · cases h
  · cases h

theorem join_cons_cons (c : Char) (x y : Text) (xs : List Text) :
    join [c] (x :: y :: xs) = x ++ c :: join [c] (y :: xs) := by
  unfold join
  rw [List.intersperse_cons_cons, List.flatten_cons, List.flatten_cons, List.singleton_append]

theorem join_singleton (c : Char) (x : Text) : join [c] [x] = x := by
  unfold join
  rw [List.intersperse_singleton, List.flatten_cons, List.flatten_nil, List.append_nil]

/-- The last `c` divides a text in one way. -/
theorem eq_of_append_cons_last {c : Char} {x y z w : Text} (hz : c ∉ z) (hw : c ∉ w)
    (h : x ++ c :: z = y ++ c :: w) : x = y ∧ z = w := by
  have hsplit := splitLast_append c x z hz
  rw [h, splitLast_append c y w hw] at hsplit
  obtain ⟨hx, hz⟩ := Prod.mk.inj (Option.some.inj hsplit)
  exact ⟨hx.symm, hz.symm⟩

theorem decimal_inj {m n : Nat} (h : decimal m = decimal n) : m = n := by
  have hm := number_decimal m
  rw [h, number_decimal] at hm
  exact (Option.some.inj hm).symm

/-- Two bindings of one record with one name are one. -/
theorem bindingName_inj {s s' : Store} {r r' : ChangeRecordRow} {j j' : Review.ReviewJobRow}
    {b b' : CurrentAcceptancePrDecisionBinding} (hb : BindingOf host s r j b)
    (hb' : BindingOf host s' r' j' b') (hworkspace : b.workspaceId = b'.workspaceId)
    (hrecord : b.recordId = b'.recordId) (hrepo : b.repo = b'.repo)
    (h : bindingName b.toBaseBinding = bindingName b'.toBaseBinding) : b = b' := by
  obtain ⟨hid, hsha⟩ := contractIdentity_plain hb.contract
  obtain ⟨hid', hsha'⟩ := contractIdentity_plain hb'.contract
  unfold bindingName at h
  simp only [join_cons_cons, join_singleton, hworkspace, hrecord, hrepo] at h
  -- what comes before the number of the pull request is the same text
  have h := (List.append_cancel_left h)
  have h := List.append_cancel_left (List.cons.inj h).2
  have h := List.append_cancel_left (List.cons.inj h).2
  have h := List.append_cancel_left (List.cons.inj h).2
  -- the fields up to the verdict have no colon
  obtain ⟨hnumber, h⟩ := List.eq_of_append_cons_eq (colon_notMem_decimal _)
    (colon_notMem_decimal _) (List.cons.inj h).2
  obtain ⟨hhead, h⟩ := List.eq_of_append_cons_eq (colon_notMem_sha hb.sha_hex)
    (colon_notMem_sha hb'.sha_hex) h
  obtain ⟨hcycle, h⟩ := List.eq_of_append_cons_eq (colon_notMem_uuid hb.cycle_uuid)
    (colon_notMem_uuid hb'.cycle_uuid) h
  obtain ⟨hgeneration, h⟩ := List.eq_of_append_cons_eq (colon_notMem_decimal _)
    (colon_notMem_decimal _) h
  have hjob : b.reviewJobId = b'.reviewJobId := by rw [hb.reviewJobId, hb'.reviewJobId, hcycle]
  rw [hjob] at h
  have h := List.append_cancel_left h
  obtain ⟨hverdict, h⟩ := List.eq_of_append_cons_eq (colon_notMem_verdict hb.verdict_name)
    (colon_notMem_verdict hb'.verdict_name) (List.cons.inj h).2
  -- nor have the fields behind the address, which may hold some
  have hattestation : b.postedAttestationEventId = b'.postedAttestationEventId := by
    rw [hb.attestation, hb'.attestation, hrecord, hjob]
  rw [hattestation] at h
  have hassoc : ∀ u a i v x : Text, u ++ ':' :: (a ++ ':' :: (i ++ ':' :: (v ++ ':' :: x))) =
      (((u ++ ':' :: a) ++ ':' :: i) ++ ':' :: v) ++ ':' :: x := by
    intro u a i v x
    simp only [List.append_assoc, List.cons_append]
  rw [hassoc, hassoc] at h
  obtain ⟨h, hshaEq⟩ := eq_of_append_cons_last hsha hsha' h
  obtain ⟨h, hversion⟩ := eq_of_append_cons_last (colon_notMem_decimal _)
    (colon_notMem_decimal _) h
  obtain ⟨h, hidEq⟩ := eq_of_append_cons_last hid hid' h
  have hurl := List.append_cancel_right h
  have hcontract : b.acceptanceContract = b'.acceptanceContract := by
    cases hc : b.acceptanceContract
    cases hc' : b'.acceptanceContract
    rw [hc, hc'] at hidEq hversion hshaEq
    exact congr (congrArg₂ ContractIdentity.mk hidEq (decimal_inj hversion)) hshaEq
  have hbase : b.toBaseBinding = b'.toBaseBinding := by
    cases hb : b.toBaseBinding
    cases hb' : b'.toBaseBinding
    simp only [hb, hb'] at *
    simp only [BaseBinding.mk.injEq]
    exact ⟨hworkspace, hrecord, hrepo, decimal_inj hnumber, hhead, hcycle,
      decimal_inj hgeneration, hjob, hverdict, hurl, hattestation, hcontract⟩
  have hbindingId : b.bindingId = b'.bindingId := by rw [hb.bindingId, hb'.bindingId, hbase]
  cases b
  cases b'
  simp only [CurrentAcceptancePrDecisionBinding.mk.injEq]
  exact ⟨hbase, hbindingId⟩

/-! ## Calls -/

/-- The decision that a call has recorded. -/
structure Appended (host : Host) (parsed : ParsedDecision) (candidate : Text × Nat) (s s' : Store)
    (b : CurrentAcceptancePrDecisionBinding) (role : AcceptancePrDecisionRole) : Prop where
  current : currentBinding host parsed.workspaceId parsed.recordId candidate s = .ok b
  none_yet : s.custodyOf b.recordId (acceptancePrDecisionEventKey b.headCycleId) = none
  named : parsed.bindingId = b.bindingId
  proven : parsed.decision = .approved → b.reviewVerdict = "proven".toList
  store : s' = { s with custody := s.custody ++ [decisionEvent host parsed b role s.now] }

theorem appendCustodyEvent_cases {event found : CustodyEventRow} {inserted : Bool} {s' : Store}
    (h : appendCustodyEvent event s = .ok ((found, inserted), s')) :
    (inserted = false ∧ s' = s) ∨
      (inserted = true ∧ found = event ∧ s' = { s with custody := s.custody ++ [event] }) := by
  unfold appendCustodyEvent at h
  split at h
  · split at h
    · obtain ⟨hpair, rfl⟩ := Prod.mk.inj (Except.ok.inj h)
      exact Or.inl ⟨(Prod.mk.inj hpair).2.symm, rfl⟩
    · cases h
  · split at h
    · cases h
    split at h
    · obtain ⟨hpair, rfl⟩ := Prod.mk.inj (Except.ok.inj h)
      obtain ⟨rfl, rfl⟩ := Prod.mk.inj hpair
      exact Or.inr ⟨rfl, rfl, rfl⟩
    · cases h

theorem appendDecision_cases {parsed : ParsedDecision} {b : CurrentAcceptancePrDecisionBinding}
    {role : AcceptancePrDecisionRole} {result : RecordResult} {s' : Store}
    (h : appendDecision host parsed b role s = .ok (result, s')) :
    (s' = s ∧ ∀ b d, result ≠ .recorded b d) ∨
      s' = { s with custody := s.custody ++ [decisionEvent host parsed b role s.now] } ∧
        ∃ d, parseCurrentAcceptancePrDecisionEvent host
          (decisionEvent host parsed b role s.now) b = some d ∧ result = .recorded b d := by
  unfold appendDecision at h
  split at h
  · cases h
  next event inserted s₁ happend =>
  split at h
  · cases h
  next decision hdecision =>
  obtain ⟨rfl, rfl⟩ := Prod.mk.inj (Except.ok.inj h)
  rcases appendCustodyEvent_cases happend with ⟨rfl, hsame⟩ | ⟨rfl, rfl, hstore⟩
  · exact Or.inl ⟨hsame, fun _ _ => RecordResult.noConfusion⟩
  · exact Or.inr ⟨hstore, decision, hdecision, rfl⟩

/-- A binding is current, and what is known of its decision. -/
theorem resolve_current {workspaceId recordId : Text} {candidate : Text × Nat}
    {b : CurrentAcceptancePrDecisionBinding} {decision : Option CurrentAcceptancePrDecision}
    (h : resolveCurrentAcceptancePrDecisionInTransaction host workspaceId recordId candidate s =
      .current b decision) :
    currentBinding host workspaceId recordId candidate s = .ok b ∧
      (decision = none →
        s.custodyOf b.recordId (acceptancePrDecisionEventKey b.headCycleId) = none) := by
  unfold resolveCurrentAcceptancePrDecisionInTransaction at h
  split at h
  · cases h
  next binding hbinding =>
  split at h
  next hnone =>
    obtain ⟨rfl, rfl⟩ := Resolved.current.inj h
    exact ⟨hbinding, fun _ => hnone⟩
  · split at h
    · cases h
    · obtain ⟨rfl, rfl⟩ := Resolved.current.inj h
      exact ⟨hbinding, fun hno => by cases hno⟩

/-- An answer that leaves the store and records nothing. -/
theorem unchanged_of_eq {result answer : RecordResult} {s s' : Store}
    (h : (Except.ok (answer, s) : Except Text (RecordResult × Store)) = .ok (result, s'))
    (hanswer : ∀ b d, answer ≠ .recorded b d) :
    s' = s ∧ ∀ b d, result ≠ .recorded b d := by
  obtain ⟨rfl, rfl⟩ := Prod.mk.inj (Except.ok.inj h)
  exact ⟨rfl, hanswer⟩

theorem decide_cases {parsed : ParsedDecision} {candidate : Text × Nat} {result : RecordResult}
    {s' : Store} (h : decideInTransaction host parsed candidate s = .ok (result, s')) :
    (s' = s ∧ ∀ b d, result ≠ .recorded b d) ∨ ∃ b role, Appended host parsed candidate s s' b role ∧
      ∃ d, parseCurrentAcceptancePrDecisionEvent host
        (decisionEvent host parsed b role s.now) b = some d ∧ result = .recorded b d := by
  unfold decideInTransaction at h
  split at h
  · exact Or.inl (unchanged_of_eq h fun _ _ => RecordResult.noConfusion)
  next role _ =>
  split at h
  · cases h
  · exact Or.inl (unchanged_of_eq h fun _ _ => RecordResult.noConfusion)
  · exact Or.inl (unchanged_of_eq h fun _ _ => RecordResult.noConfusion)
  next b decision hresolved =>
  obtain ⟨hcurrent, hnone⟩ := resolve_current hresolved
  unfold decideOn at h
  split at h
  · exact Or.inl (unchanged_of_eq h fun _ _ => RecordResult.noConfusion)
  next hnamed =>
  split at h
  · split at h
    · cases h
    · exact Or.inl (unchanged_of_eq h fun _ _ => RecordResult.noConfusion)
  · split at h
    · exact Or.inl (unchanged_of_eq h fun _ _ => RecordResult.noConfusion)
    next hproven =>
    rcases appendDecision_cases h with hsame | ⟨hstore, hresult⟩
    · exact Or.inl hsame
    · refine Or.inr ⟨b, role, ⟨hcurrent, hnone rfl, not_not.mp hnamed, ?_, hstore⟩, hresult⟩
      intro happroved
      exact not_not.mp fun hverdict => hproven ⟨happroved, hverdict⟩

/-- A call changes nothing, or it appends the decision on the current binding that it names. -/
theorem record_cases {input : RecordAcceptancePrDecisionInput} {before s' : Store}
    {result : RecordResult}
    (h : recordAcceptancePrDecision host input before s = .ok (result, s')) :
    (s' = s ∧ ∀ b d, result ≠ .recorded b d) ∨
      ∃ parsed candidate b role, parseAcceptancePrDecisionInput input = some parsed ∧
      Appended host parsed candidate s s' b role ∧
      ∃ d, parseCurrentAcceptancePrDecisionEvent host
        (decisionEvent host parsed b role s.now) b = some d ∧ result = .recorded b d := by
  unfold recordAcceptancePrDecision at h
  split at h
  · cases h
  next parsed hparsed =>
  split at h
  · exact Or.inl (unchanged_of_eq h fun _ _ => RecordResult.noConfusion)
  · exact Or.inl (unchanged_of_eq h fun _ _ => RecordResult.noConfusion)
  next candidate _ =>
  refine (decide_cases h).imp_right ?_
  rintro ⟨b, role, happended, hresult⟩
  exact ⟨parsed, candidate, b, role, hparsed, happended, hresult⟩

theorem parse_fields {input : RecordAcceptancePrDecisionInput} {parsed : ParsedDecision}
    (h : parseAcceptancePrDecisionInput input = some parsed) :
    parsed.workspaceId = input.workspaceId ∧ parsed.recordId = input.recordId ∧
      parsed.bindingId = input.bindingId ∧ parsed.decision.name = input.decision := by
  unfold parseAcceptancePrDecisionInput at h
  split at h
  next decision _ _ hdecision _ _ =>
    split at h
    · unfold parseDecision at hdecision
      have hname := List.find?_some hdecision
      obtain rfl := Option.some.inj h
      exact ⟨rfl, rfl, rfl, of_decide_eq_true hname⟩
    · cases h
  · cases h

end

end Agentrail.PrDecision
