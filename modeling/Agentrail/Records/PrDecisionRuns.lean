import Agentrail.Records.PrDecisionCalls

/-!
# One decision for each cycle of a head

Over runs of deciding calls, head operations and whatever else writes the tables:

    run s = t, run t = u → OneDecision u ∧ t.custody ⊆ u.custody ∧ RecordsProven u ∧
      StaleRecordsNothing t u ∧ Replays t ∧ Conflicts u           (one_decision_per_cycle)

A replay is answered with the recorded decision as long as its binding is current and its
user may decide; after that it is refused (`replay_not_current`).  It never adds an event.
-/

namespace Agentrail.PrDecision

open Js Records Runs

section
variable {host : Host}

/-! ## Events -/

/-- The events of decisions on a cycle. -/
def Store.decisions (s : Store) (recordId headCycleId : Text) : List CustodyEventRow :=
  s.custody.filter fun e => e.key = (recordId, acceptancePrDecisionEventKey headCycleId)

def KeysUnique (s : Store) : Prop := (s.custody.map CustodyEventRow.key).Nodup

theorem custodyOf_eq_none {s : Store} {recordId eventKey : Text}
    (h : s.custodyOf recordId eventKey = none) :
    ∀ e ∈ s.custody, e.key ≠ (recordId, eventKey) := by
  intro e he hkey
  have hno := List.find?_eq_none.mp h e he
  rw [Bool.and_eq_true, decide_eq_true_eq, decide_eq_true_eq] at hno
  exact hno (Prod.mk.inj hkey)

theorem custodyOf_isSome {s : Store} {e : CustodyEventRow} (he : e ∈ s.custody) :
    (s.custodyOf e.recordId e.eventKey).isSome := by
  unfold Store.custodyOf
  rw [List.find?_isSome]
  exact ⟨e, he, by simp⟩

theorem custodyOf_of_mem {s : Store} (hs : KeysUnique s) {e : CustodyEventRow}
    (he : e ∈ s.custody) : s.custodyOf e.recordId e.eventKey = some e := by
  obtain ⟨found, hfound⟩ := Option.isSome_iff_exists.mp (custodyOf_isSome he)
  have hkey := List.find?_some hfound
  rw [Bool.and_eq_true, decide_eq_true_eq, decide_eq_true_eq] at hkey
  have hsame : found = e := List.inj_on_of_nodup_map hs (List.mem_of_find?_eq_some hfound) he
    (Prod.ext hkey.1 hkey.2)
  rw [hfound, hsame]

/-- An event whose key is free keeps the keys unique. -/
theorem KeysUnique.append {s : Store} (hs : KeysUnique s) {e : CustodyEventRow}
    (hfree : s.custodyOf e.recordId e.eventKey = none) :
    KeysUnique { s with custody := s.custody ++ [e] } := by
  show ((s.custody ++ [e]).map CustodyEventRow.key).Nodup
  rw [List.map_append, List.map_singleton, List.nodup_append]
  refine ⟨hs, List.nodup_singleton _, ?_⟩
  intro key hkey key' hkey' heq
  obtain ⟨e', he', rfl⟩ := List.mem_map.mp hkey
  rw [List.mem_singleton.mp hkey'] at heq
  exact custodyOf_eq_none hfree e' he' heq

theorem decisions_le_one {s : Store} (hs : KeysUnique s) (recordId headCycleId : Text) :
    (s.decisions recordId headCycleId).length ≤ 1 := by
  have hsub := (List.filter_sublist (l := s.custody) (p := fun e : CustodyEventRow =>
    e.key = (recordId, acceptancePrDecisionEventKey headCycleId))).map CustodyEventRow.key
  have hnodup := hs.sublist hsub
  have hreplicate : (s.decisions recordId headCycleId).map CustodyEventRow.key =
      List.replicate (s.decisions recordId headCycleId).length
        (recordId, acceptancePrDecisionEventKey headCycleId) := by
    refine List.eq_replicate_iff.mpr ⟨List.length_map _, fun key hkey => ?_⟩
    obtain ⟨e, he, rfl⟩ := List.mem_map.mp hkey
    exact of_decide_eq_true (List.mem_filter.mp he).2
  unfold Store.decisions at hreplicate ⊢
  rw [hreplicate] at hnodup
  exact List.nodup_replicate.mp hnodup

/-! ## Steps -/

theorem Appended.recordId_eq {parsed : ParsedDecision} {candidate : Text × Nat} {s s' : Store}
    {b : CurrentAcceptancePrDecisionBinding} {role : AcceptancePrDecisionRole}
    (h : Appended host parsed candidate s s' b role) :
    b.recordId = uuidValue parsed.recordId ∧ b.workspaceId = uuidValue parsed.workspaceId := by
  obtain ⟨record, job, hrecord, hb⟩ := bindingOf_of_current h.current
  obtain ⟨-, hid, hworkspace⟩ := recordOf_eq_some hrecord
  exact ⟨hb.recordId.trans hid, hb.workspaceId.trans hworkspace⟩

/-- The actions of the head operations in the run of the head. -/
def Action.onHead : Action → List Records.Action
  | .head op => [.call op]
  | .decide _ _ => []
  | .elsewhere now contracts _ dispatches jobs boots _ _ =>
    [.elsewhere now contracts dispatches jobs boots]

/-- What a step does to the events, and to the rest. -/
theorem next_cases {s t : Store} {a : Action} (h : next host s a = some t) :
    (∃ appended, t.custody = s.custody ++ appended) ∧
      run (Records.next host.toHost) s.toStore a.onHead = some t.toStore ∧
      (KeysUnique s → KeysUnique t) := by
  cases a with
  | head op =>
    obtain rfl := Option.some.inj h
    exact ⟨⟨[], (List.append_nil _).symm⟩, rfl, id⟩
  | decide input before =>
    obtain rfl := Option.some.inj h
    unfold commit
    split
    next result s' hcall =>
      rcases record_cases hcall with ⟨rfl, -⟩ | ⟨parsed, candidate, b, role, -, happended, -⟩
      · exact ⟨⟨[], (List.append_nil _).symm⟩, rfl, id⟩
      · have hstore := happended.store
        subst hstore
        refine ⟨⟨_, rfl⟩, rfl, fun hs => hs.append ?_⟩
        have hfree := happended.none_yet
        rw [happended.recordId_eq.1] at hfree
        exact hfree
    · exact ⟨⟨[], (List.append_nil _).symm⟩, rfl, id⟩
  | elsewhere now contracts columns dispatches jobs boots memberships appended =>
    simp only [next] at h
    split at h
    next hkeys =>
      obtain rfl := Option.some.inj h
      exact ⟨⟨appended, rfl⟩, rfl, fun _ => hkeys.1⟩
    · cases h

/-- Events stay as they were written. -/
theorem custody_run {s t : Store} {as : List Action} (hrun : run (next host) s as = some t)
    {e : CustodyEventRow} (he : e ∈ s.custody) : e ∈ t.custody := by
  refine invariant (I := fun s : Store => e ∈ s.custody) ?_ hrun he
  intro s a t hstep he
  obtain ⟨⟨appended, happended⟩, -⟩ := next_cases hstep
  rw [happended]
  exact List.mem_append_left _ he

theorem keysUnique_run {s t : Store} {as : List Action} (hrun : run (next host) s as = some t)
    (hs : KeysUnique s) : KeysUnique t :=
  invariant (fun _ _ _ hstep => (next_cases hstep).2.2) hrun hs

/-- The head of every record moves as in a run of head operations. -/
theorem run_onHead {s t : Store} {as : List Action} (hrun : run (next host) s as = some t) :
    run (Records.next host.toHost) s.toStore (as.flatMap Action.onHead) = some t.toStore := by
  induction as generalizing s with
  | nil =>
    cases hrun
    rfl
  | cons a as ih =>
    obtain ⟨u, hu, hrest⟩ := run_cons hrun
    rw [List.flatMap_cons, run_append, (next_cases hu).2.1]
    exact ih hrest

/-- The columns that no operation writes stay. -/
theorem identities_run {s t : Records.Store} {as : List Records.Action}
    (hrun : run (Records.next host.toHost) s as = some t) :
    t.records.map ChangeRecordRow.identity = s.records.map ChangeRecordRow.identity := by
  refine invariant (I := fun v : Records.Store => v.records.map ChangeRecordRow.identity =
    s.records.map ChangeRecordRow.identity) ?_ hrun rfl
  intro u a v hstep hu
  cases hstep
  cases a with
  | call op => exact (identities_of_effect (exec_effect host.toHost op u)).trans hu
  | elsewhere => exact hu

/-! ## What a run keeps -/

/-- The keys of records and events are unique, and the head of `recordId` has moved by the events
of its deliveries only. -/
structure Consistent (s : Store) (recordId : Text) : Prop where
  head : Records.Consistent s.toStore recordId
  keys : KeysUnique s

theorem consistent_run {s t : Store} {as : List Action} {recordId : Text}
    (hrun : run (next host) s as = some t) (hs : Consistent s recordId) :
    Consistent t recordId :=
  ⟨invariant consistent_step (run_onHead hrun) hs.head, keysUnique_run hrun hs.keys⟩

/-- The repository of a record does not change. -/
theorem repo_eq {s t : Store} {as : List Action} (hrun : run (next host) s as = some t)
    (hids : (s.records.map ChangeRecordRow.id).Nodup) {r r' : ChangeRecordRow}
    (hr : r ∈ s.records) (hr' : r' ∈ t.records) (hid : r.id = r'.id) : r.repo = r'.repo := by
  have hsame := identities_run (run_onHead hrun)
  have hmem : r'.identity ∈ s.records.map ChangeRecordRow.identity :=
    hsame ▸ List.mem_map_of_mem hr'
  obtain ⟨r₀, hr₀, hidentity⟩ := List.mem_map.mp hmem
  obtain ⟨hid₀, hrest⟩ := Prod.mk.inj hidentity
  have heq : r₀ = r := List.inj_on_of_nodup_map hids hr₀ hr (hid₀.trans hid.symm)
  rw [← heq]
  exact (Prod.mk.inj hrest).2

/-! ## The claims on calls -/

/-- A cycle has at most one decision. -/
def OneDecision (u : Store) : Prop :=
  ∀ recordId headCycleId, (u.decisions recordId headCycleId).length ≤ 1

/-- A call that has an effect appends one event, the first decision on the current cycle; an
approval stands on a posted job of that cycle whose verdict is `proven`. -/
def RecordsProven (host : Host) (u : Store) : Prop :=
  ∀ input before result v, recordAcceptancePrDecision host input before u = .ok (result, v) →
    v ≠ u → ∃ event p, v = { u with custody := u.custody ++ [event] } ∧
      event.payloadRef = .decision p ∧
      event.key = (p.binding.recordId, acceptancePrDecisionEventKey p.binding.headCycleId) ∧
      u.decisions p.binding.recordId p.binding.headCycleId = [] ∧
      p.decision.name = input.decision ∧
      (p.decision = .approved → ∃ job ∈ u.jobs.rows, job.id = p.binding.headCycleId ∧
        job.state = .posted ∧ job.verdict = some "proven".toList)

/-- No two of these names have one hash. -/
def NoCollision (host : Host) (b b' : BaseBinding) : Prop :=
  acceptancePrDecisionBindingId host b = acceptancePrDecisionBindingId host b' →
    bindingName b = bindingName b'

/-- A call with the id of a binding that was read at `t` has an effect at `u` only if all that the
binding covers is the same, and no operation between has changed the head. -/
def StaleRecordsNothing (host : Host) (t u : Store) (bs : List Action) : Prop :=
  ∀ workspaceId recordId before₀ b decision input before result v,
    readCurrentAcceptancePrDecision host workspaceId recordId before₀ t =
      .ok (.current b decision) →
    input.bindingId = b.bindingId → uuidValue input.workspaceId = b.workspaceId →
    uuidValue input.recordId = b.recordId →
    (∀ candidate b', currentBinding host input.workspaceId input.recordId candidate u = .ok b' →
      NoCollision host b.toBaseBinding b'.toBaseBinding) →
    recordAcceptancePrDecision host input before u = .ok (result, v) → v ≠ u →
      (∃ candidate, currentBinding host input.workspaceId input.recordId candidate u = .ok b) ∧
        ∀ cs ds w, bs = cs ++ ds → run (next host) t cs = some w →
          w.generation b.recordId = t.generation b.recordId ∧
            w.head b.recordId = t.head b.recordId

/-- A decision that was recorded at `t` is what the same call answers with later, while the binding
is current and the user may decide; the same call never adds an event. -/
def Replays (host : Host) (t : Store) : Prop :=
  ∀ input parsed before b decision t' bs u,
    parseAcceptancePrDecisionInput input = some parsed →
    recordAcceptancePrDecision host input before t = .ok (.recorded b decision, t') →
    run (next host) t' bs = some u →
      (∀ before' candidate role,
        currentAcceptancePrDecisionCandidate input.workspaceId input.recordId before' =
          some (some candidate) →
        currentBinding host input.workspaceId input.recordId candidate u = .ok b →
        u.decidingRole parsed.decidedByUserId parsed.workspaceId = some role →
          recordAcceptancePrDecision host input before' u = .ok (.replayed b decision, u)) ∧
      ∀ before' result v,
        (∀ candidate b', currentBinding host input.workspaceId input.recordId candidate u =
          .ok b' → NoCollision host b.toBaseBinding b'.toBaseBinding) →
        recordAcceptancePrDecision host input before' u = .ok (result, v) → v = u

/-- Where the current cycle has a decision, no call changes anything, and a call for that binding
that says something else throws. -/
def Conflicts (host : Host) (u : Store) : Prop :=
  ∀ input parsed before candidate b event,
    parseAcceptancePrDecisionInput input = some parsed →
    currentAcceptancePrDecisionCandidate input.workspaceId input.recordId before =
      some (some candidate) →
    currentBinding host input.workspaceId input.recordId candidate u = .ok b →
    event ∈ u.decisions b.recordId b.headCycleId →
      commit u (recordAcceptancePrDecision host input before u) = u ∧
      ∀ role, u.decidingRole parsed.decidedByUserId parsed.workspaceId = some role →
        parsed.bindingId = b.bindingId →
        (∀ recorded, parseCurrentAcceptancePrDecisionEvent host event b = some recorded →
          recorded.decision ≠ parsed.decision ∨ recorded.rationale ≠ parsed.rationale ∨
            recorded.decidedBy ≠ parsed.decidedBy) →
        recordAcceptancePrDecision host input before u = .error DECISION_CONFLICT

theorem decisions_eq_nil {u : Store} {recordId headCycleId : Text}
    (h : u.custodyOf recordId (acceptancePrDecisionEventKey headCycleId) = none) :
    u.decisions recordId headCycleId = [] := by
  refine List.filter_eq_nil_iff.mpr fun e he hkey => ?_
  exact custodyOf_eq_none h e he (of_decide_eq_true hkey)

theorem recordsProven (host : Host) (u : Store) : RecordsProven host u := by
  intro input before result v hcall hne
  rcases record_cases hcall with ⟨hsame, -⟩ | ⟨parsed, candidate, b, role, hparsed, happended, -⟩
  · exact absurd hsame hne
  obtain ⟨-, -, -, hname⟩ := parse_fields hparsed
  refine ⟨decisionEvent host parsed b role u.now, _, happended.store, rfl,
    Prod.ext happended.recordId_eq.1.symm rfl, decisions_eq_nil happended.none_yet, hname, ?_⟩
  intro happroved
  obtain ⟨record, job, -, hb⟩ := bindingOf_of_current happended.current
  refine ⟨job, hb.job_mem, hb.job_id, hb.job_posted, ?_⟩
  rw [hb.verdict]
  exact congrArg some (happended.proven happroved)

/-- Two current bindings of a record with one name are one. -/
theorem current_eq_of_name {t u : Store} {bs : List Action}
    (hids : (t.records.map ChangeRecordRow.id).Nodup) (hrun : run (next host) t bs = some u)
    {w r w' r' : Text} {c c' : Text × Nat} {b b' : CurrentAcceptancePrDecisionBinding}
    (hb : currentBinding host w r c t = .ok b) (hb' : currentBinding host w' r' c' u = .ok b')
    (hworkspace : b.workspaceId = b'.workspaceId) (hrecord : b.recordId = b'.recordId)
    (hname : bindingName b.toBaseBinding = bindingName b'.toBaseBinding) : b = b' := by
  obtain ⟨record, job, hfound, hof⟩ := bindingOf_of_current hb
  obtain ⟨record', job', hfound', hof'⟩ := bindingOf_of_current hb'
  have hid : record.id = record'.id := by
    rw [← hof.recordId, ← hof'.recordId]
    exact hrecord
  have hrepo := repo_eq hrun hids (recordOf_eq_some hfound).1 (recordOf_eq_some hfound').1 hid
  refine bindingName_inj hof hof' hworkspace hrecord ?_ hname
  rw [hof.repo, hof'.repo, hrepo]

/-- The generation of a current binding is the one of its record. -/
theorem generation_eq {s : Store} (hids : (s.records.map ChangeRecordRow.id).Nodup)
    {w r : Text} {c : Text × Nat} {b : CurrentAcceptancePrDecisionBinding}
    (hb : currentBinding host w r c s = .ok b) :
    s.generation b.recordId = b.authorityGeneration := by
  obtain ⟨record, job, hfound, hof⟩ := bindingOf_of_current hb
  have hrow := row_of_mem s.toStore hids record (recordOf_eq_some hfound).1
  unfold Records.Store.generation
  rw [hof.recordId, hrow, hof.generation]
  rfl

theorem staleRecordsNothing {t u : Store} {bs : List Action}
    (hrun : run (next host) t bs = some u) (ht : ∀ recordId, Consistent t recordId) :
    StaleRecordsNothing host t u bs := by
  intro w r before₀ b decision input before result v hread hnamed hworkspace hrecord hcollision
    hcall hne
  have hids := (ht b.recordId).head.ids
  rcases record_cases hcall with ⟨hsame, -⟩ | ⟨parsed, candidate, b', role, hparsed, happended, -⟩
  · exact absurd hsame hne
  obtain ⟨hpw, hpr, hpb, -⟩ := parse_fields hparsed
  -- the binding that was read is current at `t`
  have hcurrent : ∃ candidate₀, currentBinding host w r candidate₀ t = .ok b := by
    unfold readCurrentAcceptancePrDecision at hread
    split at hread
    · cases hread
    split at hread
    · cases hread
    · cases hread
    next candidate₀ _ => exact ⟨candidate₀, (resolve_current (Except.ok.inj hread)).1⟩
  obtain ⟨candidate₀, hb⟩ := hcurrent
  have hb' := happended.current
  rw [hpw, hpr] at hb'
  obtain ⟨record, job, -, hof⟩ := bindingOf_of_current hb
  obtain ⟨record', job', -, hof'⟩ := bindingOf_of_current hb'
  have hhash : acceptancePrDecisionBindingId host b.toBaseBinding =
      acceptancePrDecisionBindingId host b'.toBaseBinding := by
    rw [← hof.bindingId, ← hof'.bindingId, ← hnamed, ← hpb]
    exact happended.named
  have hsame : b = b' := by
    refine current_eq_of_name hids hrun hb hb' ?_ ?_ (hcollision candidate b' hb' hhash)
    · rw [← hworkspace, ← hpw]
      exact happended.recordId_eq.2.symm
    · rw [← hrecord, ← hpr]
      exact happended.recordId_eq.1.symm
  subst hsame
  refine ⟨⟨candidate, hb'⟩, ?_⟩
  intro cs ds x hsplit hcs
  have hds : run (next host) x ds = some u := by
    rw [hsplit, run_append, hcs] at hrun
    exact hrun
  have hx := consistent_run hcs (ht b.recordId)
  have hu := consistent_run hrun (ht b.recordId)
  obtain ⟨hle, hhead⟩ := generation_run (run_onHead hcs) (ht b.recordId).head
  have hle' := (generation_run (run_onHead hds) hx.head).1
  have hgt := generation_eq hids hb
  have hgu := generation_eq hu.head.ids hb'
  have hg : t.generation b.recordId = x.generation b.recordId := by omega
  exact ⟨hg.symm, (hhead hg).symm⟩

theorem decisions_mem {u : Store} {recordId headCycleId : Text} {e : CustodyEventRow} :
    e ∈ u.decisions recordId headCycleId ↔ e ∈ u.custody ∧ e.recordId = recordId ∧
      e.eventKey = acceptancePrDecisionEventKey headCycleId := by
  unfold Store.decisions CustodyEventRow.key
  rw [List.mem_filter, decide_eq_true_eq, Prod.mk.injEq]

/-- With a decision on the current cycle, a call has no effect. -/
theorem commit_eq_of_decision {u : Store} {input : RecordAcceptancePrDecisionInput}
    {parsed : ParsedDecision} {before : Store} {b : CurrentAcceptancePrDecisionBinding}
    {event : CustodyEventRow} (hparsed : parseAcceptancePrDecisionInput input = some parsed)
    (hb : ∀ candidate b', currentBinding host parsed.workspaceId parsed.recordId candidate u =
      .ok b' → parsed.bindingId = b'.bindingId → b' = b)
    (hevent : event ∈ u.decisions b.recordId b.headCycleId) {result : RecordResult} {v : Store}
    (hcall : recordAcceptancePrDecision host input before u = .ok (result, v)) : v = u := by
  rcases record_cases hcall with ⟨hsame, -⟩ | ⟨parsed', candidate, b', role, hparsed', happended, -⟩
  · exact hsame
  obtain rfl := Option.some.inj (hparsed.symm.trans hparsed')
  obtain rfl := hb candidate b' happended.current happended.named
  obtain ⟨hmem, hrecord, hkey⟩ := decisions_mem.mp hevent
  exact absurd (Prod.ext hrecord hkey) (custodyOf_eq_none happended.none_yet event hmem)

/-- The current binding does not depend on what was read before the lock. -/
theorem currentBinding_candidate {u : Store} {w r : Text} {c c' : Text × Nat}
    {b b' : CurrentAcceptancePrDecisionBinding} (hb : currentBinding host w r c u = .ok b)
    (hb' : currentBinding host w r c' u = .ok b') : b = b' := by
  have hcandidate : ∀ {c : Text × Nat} {b : CurrentAcceptancePrDecisionBinding},
      currentBinding host w r c u = .ok b → ∃ record n, u.recordOf w r = some record ∧
        record.prNumber = some n ∧ c = (record.repo, n) := by
    intro c b hb
    unfold currentBinding at hb
    split at hb
    · cases hb
    next record hrecord =>
    split at hb
    · cases hb
    next head hhead =>
    unfold currentHead at hhead
    split at hhead
    next prNumber _ _ hnumber _ _ =>
      split at hhead
      next hchecks =>
        simp only [Bool.and_eq_true, decide_eq_true_eq] at hchecks
        exact ⟨record, prNumber, hrecord, hnumber, Prod.ext hchecks.1.1.1.1.1.1.1.symm
          hchecks.1.1.1.1.1.1.2.symm⟩
      · cases hhead
    · cases hhead
  obtain ⟨record, n, hrecord, hn, rfl⟩ := hcandidate hb
  obtain ⟨record', n', hrecord', hn', rfl⟩ := hcandidate hb'
  obtain rfl := Option.some.inj (hrecord.symm.trans hrecord')
  obtain rfl := Option.some.inj (hn.symm.trans hn')
  exact Except.ok.inj (hb.symm.trans hb')

/-- How a call with a current binding and a decision on it ends. -/
theorem record_of_decision {u : Store} (hu : KeysUnique u)
    {input : RecordAcceptancePrDecisionInput} {parsed : ParsedDecision} {before : Store}
    {candidate : Text × Nat} {b : CurrentAcceptancePrDecisionBinding} {event : CustodyEventRow}
    {role : AcceptancePrDecisionRole}
    (hparsed : parseAcceptancePrDecisionInput input = some parsed)
    (hcandidate : currentAcceptancePrDecisionCandidate input.workspaceId input.recordId before =
      some (some candidate))
    (hb : currentBinding host input.workspaceId input.recordId candidate u = .ok b)
    (hevent : event ∈ u.decisions b.recordId b.headCycleId)
    (hrole : u.decidingRole parsed.decidedByUserId parsed.workspaceId = some role) :
    recordAcceptancePrDecision host input before u =
      match parseCurrentAcceptancePrDecisionEvent host event b with
      | none => .error DECISION_CONFLICT
      | some recorded => decideOn host parsed b (some recorded) role u := by
  obtain ⟨hpw, hpr, -, -⟩ := parse_fields hparsed
  obtain ⟨hmem, hrecord, hkey⟩ := decisions_mem.mp hevent
  have hfound := custodyOf_of_mem hu hmem
  rw [hrecord, hkey] at hfound
  unfold recordAcceptancePrDecision
  rw [hparsed]
  dsimp only
  rw [hpw, hpr, hcandidate]
  dsimp only
  unfold decideInTransaction resolveCurrentAcceptancePrDecisionInTransaction
  rw [hrole]
  dsimp only
  rw [hpw, hpr, hb]
  dsimp only
  rw [hfound]
  dsimp only
  cases parseCurrentAcceptancePrDecisionEvent host event b <;> rfl

theorem conflicts (host : Host) {u : Store} (hu : KeysUnique u) : Conflicts host u := by
  intro input parsed before candidate b event hparsed hcandidate hb hevent
  obtain ⟨hpw, hpr, -, -⟩ := parse_fields hparsed
  refine ⟨?_, ?_⟩
  · cases hcall : recordAcceptancePrDecision host input before u with
    | error message => rfl
    | ok answer =>
      refine commit_eq_of_decision hparsed (fun candidate' b' hb' _ => ?_) hevent hcall
      rw [hpw, hpr] at hb'
      exact currentBinding_candidate hb' hb
  · intro role hrole hnamed hdifferent
    rw [record_of_decision hu hparsed hcandidate hb hevent hrole]
    split
    · rfl
    next recorded hrecorded =>
      unfold decideOn
      rw [if_neg (not_not.mpr hnamed)]
      dsimp only
      rw [if_pos (hdifferent recorded hrecorded)]

theorem parse_recorded {parsed : ParsedDecision} {b : CurrentAcceptancePrDecisionBinding}
    {role : AcceptancePrDecisionRole} {now : Int} {d : CurrentAcceptancePrDecision}
    (h : parseCurrentAcceptancePrDecisionEvent host (decisionEvent host parsed b role now) b =
      some d) : d.decision = parsed.decision ∧ d.rationale = parsed.rationale ∧
        d.decidedBy = parsed.decidedBy := by
  unfold parseCurrentAcceptancePrDecisionEvent at h
  dsimp only [decisionEvent] at h
  obtain ⟨-, h⟩ := Option.ite_none_right_eq_some.mp h
  obtain rfl := Option.some.inj h
  exact ⟨rfl, rfl, rfl⟩

theorem replays {t : Store} (ht : ∀ recordId, Consistent t recordId) : Replays host t := by
  intro input parsed before b decision t' bs u hparsed hcall hrun
  obtain ⟨hpw, hpr, hpb, -⟩ := parse_fields hparsed
  -- the event of the recorded decision
  have hrecorded : ∃ candidate role, Appended host parsed candidate t t' b role ∧
      parseCurrentAcceptancePrDecisionEvent host (decisionEvent host parsed b role t.now) b =
        some decision := by
    rcases record_cases hcall with ⟨-, hno⟩ | ⟨parsed', candidate, b', role, hparsed', happended,
      d, hd, hresult⟩
    · exact absurd rfl (hno b decision)
    · obtain rfl := Option.some.inj (hparsed.symm.trans hparsed')
      obtain ⟨rfl, rfl⟩ := RecordResult.recorded.inj hresult
      exact ⟨candidate, role, happended, hd⟩
  obtain ⟨candidate, role, happended, hdecision⟩ := hrecorded
  have hevent : decisionEvent host parsed b role t.now ∈ u.decisions b.recordId b.headCycleId := by
    refine decisions_mem.mpr ⟨custody_run hrun ?_, happended.recordId_eq.1.symm, rfl⟩
    rw [happended.store]
    exact List.mem_append_right _ (List.mem_singleton.mpr rfl)
  have hstep : next host t (.decide input before) = some t' := by
    show some (commit t (recordAcceptancePrDecision host input before t)) = some t'
    rw [hcall]
    rfl
  have hrun' : run (next host) t (.decide input before :: bs) = some u := by
    show (next host t _).bind _ = some u
    rw [hstep]
    exact hrun
  refine ⟨?_, ?_⟩
  · intro before' candidate' role' hcandidate hb hrole
    obtain ⟨hsameDecision, hsameRationale, hsameBy⟩ := parse_recorded hdecision
    rw [record_of_decision (keysUnique_run hrun' (ht b.recordId).keys) hparsed hcandidate hb
      hevent hrole, hdecision]
    dsimp only
    unfold decideOn
    rw [if_neg (not_not.mpr happended.named)]
    dsimp only
    rw [if_neg (by rw [hsameDecision, hsameRationale, hsameBy]; simp)]
  · intro before' result v hcollision hcall'
    refine commit_eq_of_decision hparsed (fun candidate' b' hb' hnamed => ?_) hevent hcall'
    have hb := happended.current
    obtain ⟨record, job, hfound, hof⟩ := bindingOf_of_current hb
    obtain ⟨record', job', hfound', hof'⟩ := bindingOf_of_current hb'
    obtain ⟨-, hid, hworkspace⟩ := recordOf_eq_some hfound
    obtain ⟨-, hid', hworkspace'⟩ := recordOf_eq_some hfound'
    have hhash : acceptancePrDecisionBindingId host b.toBaseBinding =
        acceptancePrDecisionBindingId host b'.toBaseBinding := by
      rw [← hof.bindingId, ← hof'.bindingId, ← happended.named, ← hnamed]
    have hname := hcollision candidate' b' (by rw [← hpw, ← hpr]; exact hb') hhash
    refine (current_eq_of_name (ht b.recordId).head.ids hrun' hb hb' ?_ ?_ hname).symm
    · rw [hof.workspaceId, hof'.workspaceId, hworkspace, hworkspace']
    · rw [hof.recordId, hof'.recordId, hid, hid']

end

/-- **One decision.** From a store whose records have no event of a pull request yet, whatever the
calls: a cycle has at most one decision and keeps it as it was written; an approval stands on a
proven review; a stale binding records nothing; a replay answers with what was recorded, a
different decision throws. -/
theorem one_decision_per_cycle (host : Host) (s t u : Store) (as bs : List Action)
    (hids : (s.records.map ChangeRecordRow.id).Nodup)
    (hkeys : (s.custody.map CustodyEventRow.key).Nodup)
    (hnew : ∀ e ∈ s.events, ¬ "external-pr:".toList <+: e.eventKey)
    (hst : run (next host) s as = some t) (htu : run (next host) t bs = some u) :
    OneDecision u ∧ (∀ e ∈ t.custody, e ∈ u.custody) ∧ RecordsProven host u ∧
      StaleRecordsNothing host t u bs ∧ Replays host t ∧ Conflicts host u := by
  have ht : ∀ recordId, Consistent t recordId := fun recordId =>
    consistent_run hst ⟨⟨hids, receipted_of_new fun e he _ => hnew e he⟩, hkeys⟩
  have hu : KeysUnique u := keysUnique_run htu (ht []).keys
  exact ⟨decisions_le_one hu, fun e he => custody_run htu he, recordsProven host u,
    staleRecordsNothing htu ht, replays ht, conflicts host hu⟩

/-! ## A replay after the pull request was merged -/

def sampleUrl : Text := "https://github.com/o/r/pull/7#pullrequestreview-1".toList

def sampleHost : Host where
  toHost := Records.sampleHost
  sha256 _ := List.replicate 32 0
  numberText q := decimal q.num.toNat
  parseUrl t :=
    if t = sampleUrl then
      some ["https:".toList, "github.com".toList, [], [], [], "/o/r/pull/7".toList, [],
        "#pullrequestreview-1".toList]
    else none

def sampleId (c : Char) : Text := "00000000-0000-4000-8000-00000000000".toList ++ [c]

def sampleContract : Json := .obj [
  ("originalRequest".toList, .str ['r']), ("normalizedRequirements".toList, .arr []),
  ("acceptanceCriteria".toList, .arr [.obj [
    ("id".toList, .str ['a']), ("text".toList, .str ['t']), ("userVisible".toList, .bool true)]]),
  ("nonGoals".toList, .arr []), ("risks".toList, .arr []), ("stops".toList, .arr []),
  ("environment".toList, .obj []), ("unresolvedQuestions".toList, .arr [])]

def sampleAttestationKey : Text := reviewJobPostedAttestationEventKey (sampleId 'c')

def sampleAttestation : CustodyEventRow where
  id := changeRecordEventId Records.sampleHost (sampleId 'b') sampleAttestationKey
  recordId := sampleId 'b'
  eventKey := sampleAttestationKey
  stage := REVIEW_JOB_POSTED_ATTESTATION_STAGE
  at_ := 0
  actor := REVIEW_JOB_POSTED_ATTESTATION_ACTOR
  payloadRef := .attestation {
    jobId := sampleId 'c'
    workspaceId := sampleId 'a'
    repo := "o/r".toList
    prNumber := 7
    headSha := Records.sampleHead
    recordId := sampleId 'b'
    acceptanceContractId := sampleId 'd'
    acceptanceContractVersion := 1
    outcomeDigest := List.replicate 64 '0'
    postPayloadDigest := List.replicate 64 '0'
    postedReviewUrl := sampleUrl
    inlineCommentsPosted := none
    commentsFolded := none
    criterionOutcomeBundleSha256 := none }

def sampleJob : Review.ReviewJobRow where
  id := sampleId 'c'
  workspaceId := sampleId 'a'
  repo := "o/r".toList
  prNumber := 7
  headSha := Records.sampleHead
  event := "opened".toList
  state := .posted
  postedReviewUrl := some sampleUrl
  verdict := some "proven".toList

/-- A posted review of the current head, and a member who may decide. -/
def sampleStore : Store where
  records := [{
    id := sampleId 'b', workspaceId := sampleId 'a', repo := "o/r".toList, prNumber := some 7
    currentPrHeadSha := some Records.sampleHead, currentPrHeadCycleId := some (sampleId 'c')
    currentPrHeadAuthoritative := true, currentPrHeadAuthorityGeneration := 1
    headShas := [Records.sampleHead] }]
  events := []
  contracts := [⟨sampleId 'b', 1, "confirmed".toList⟩]
  dispatches := []
  jobs := (Table.empty.insert sampleJob).getD .empty
  boots := .empty
  now := 0
  custody := [sampleAttestation]
  contractColumns _ _ := ⟨sampleId 'd', by decide, some ['u'], some 0, sampleContract⟩
  memberships := [⟨sampleId 'e', sampleId 'a', "owner".toList⟩]

/-- The id of the current binding, as a person reads it. -/
def sampleBindingId : Text :=
  match readCurrentAcceptancePrDecision sampleHost (sampleId 'a') (sampleId 'b') sampleStore
      sampleStore with
  | .ok (.current binding _) => binding.bindingId
  | _ => []

def sampleInput : RecordAcceptancePrDecisionInput where
  workspaceId := sampleId 'a'
  recordId := sampleId 'b'
  bindingId := sampleBindingId
  decision := "approved".toList
  rationale := none
  decidedBy := "user:".toList ++ sampleId 'e'

def sampleDecide : Action := .decide sampleInput sampleStore

def sampleMerge : Action := .head (.invalidate {
  workspaceId := sampleId 'a', recordId := sampleId 'b', repo := "o/r".toList, prNumber := 7
  headSha := Records.sampleHead, event := .merged, deliveryId := "d".toList })

def isRecorded : RecordResult → Bool
  | .recorded .. => true
  | _ => false

/-- The answer of a call. -/
def answerOf (host : Host) (input : RecordAcceptancePrDecisionInput) (s : Store) :
    Except Text RecordResult := (recordAcceptancePrDecision host input s s).map Prod.fst

/-- The decision is recorded, the pull request is merged, and the same call is refused. -/
theorem replay_not_current :
    ((answerOf sampleHost sampleInput sampleStore).toOption.any isRecorded &&
      (run (next sampleHost) sampleStore [sampleDecide, sampleMerge]).any fun u =>
        (answerOf sampleHost sampleInput u).toOption = some (.refused .notCurrent)) = true := by
  decide +kernel

theorem one_decision_after_merge :
    ((run (next sampleHost) sampleStore [sampleDecide, sampleMerge]).any fun u =>
      (u.decisions (sampleId 'b') (sampleId 'c')).length = 1) = true ∧
    ∀ u, run (next sampleHost) sampleStore [sampleDecide, sampleMerge] = some u →
      OneDecision u := by
  refine ⟨by decide +kernel, fun u hrun => ?_⟩
  exact (one_decision_per_cycle sampleHost sampleStore sampleStore u [] [sampleDecide, sampleMerge]
    (by decide) (by decide +kernel) (List.forall_mem_nil _) rfl hrun).1

end Agentrail.PrDecision
