import Agentrail.Lib.Interleaving
import Agentrail.Watches.UpgradeCandidates
import Agentrail.Watches.WatchTable

/-!
# Dependency upgrade contracts (`dependency_upgrade_contracts.ts`)

A contract is created from a candidate of the ledger, gets one approval, and is
decided after the candidate has been read again.  `Stmt` has one constructor for
each SQL statement of the module; between two statements of a call others may run.

A decision is taken once (`decided_once`).  But the candidate is compared with the
columns of the contract, which have neither an ecosystem nor a package manager, so
no decision about what a heartbeat has stored is other than `stale`
(`never_found_nor_approved`).
-/

namespace Agentrail.DependencyUpgrade

open Js Interleaving
open DependencyWatch (Watch Observation)

/-! ## Rows -/

inductive ContractState where
  | proposed
  | needsHumanDecision
  | approved
  | published
  | refused
  | stale
  | failed
  deriving DecidableEq, Repr

structure Contract where
  id : Text
  workspaceId : Text
  repositoryId : Text
  watchId : Text
  observationKey : Text
  candidateFingerprint : Text
  packageName : Text
  dependencyKind : Text
  specifier : Text
  currentVersion : Text
  targetVersion : Text
  manifestPath : Text
  lockfilePath : Text
  baselineSha : Text
  proposal : Json
  state : ContractState := .proposed
  approvalId : Option Text := none
  lastError : Option Text := none
  createdBy : Option Text := none
  updatedAt : Int := 0

inductive EventDecision where
  | proposed
  | needsHumanDecision
  | approved
  | refused
  | stale
  deriving DecidableEq, Repr

structure ContractActor where
  actorType : Text
  actorId : Text
  deriving DecidableEq, Repr

structure ContractEvent where
  workspaceId : Text
  contractId : Text
  candidateFingerprint : Text
  actor : ContractActor
  decision : EventDecision
  approvalId : Option Text := none
  details : List (Text × Json) := []

/-- The primary key and the unique index. -/
def contractKeys : List (Contract → List Text) :=
  [fun c => [c.id], fun c => [c.workspaceId, c.candidateFingerprint]]

structure Store where
  ledger : DependencyWatch.Db
  contracts : Table Contract contractKeys := .empty
  events : List ContractEvent := []
  now : Int := 0
  /-- the decisions that have changed a contract, in no column -/
  taken : List (Text × ContractState) := []

/-! ## Statements -/

/-- `workspace_id = … AND id = …`. -/
def isContract (workspaceId contractId : Text) (c : Contract) : Bool :=
  c.workspaceId = workspaceId && c.id = contractId

def hasFingerprint (workspaceId fingerprint : Text) (c : Contract) : Bool :=
  c.workspaceId = workspaceId && c.candidateFingerprint = fingerprint

/-- The `WHERE` clause of the two updates of a decision. -/
def isPending (workspaceId contractId approvalId : Text) (c : Contract) : Bool :=
  isContract workspaceId contractId c && c.approvalId = some approvalId && c.state = .proposed

def takesApproval (workspaceId contractId approvalId : Text) (c : Contract) : Bool :=
  isContract workspaceId contractId c &&
    (c.state = .proposed || c.state = .needsHumanDecision) &&
    (c.approvalId = none || c.approvalId = some approvalId)

def isRefreshable (workspaceId contractId : Text) (c : Contract) : Bool :=
  isContract workspaceId contractId c && c.state = .needsHumanDecision && c.approvalId = none

def resolvedRow (state : ContractState) (lastError : Option Text) (now : Int) (c : Contract) :
    Contract :=
  { c with state := state, lastError := lastError, updatedAt := now }

def attachedRow (approvalId : Text) (now : Int) (c : Contract) : Contract :=
  { c with approvalId := some approvalId, updatedAt := now }

def refreshedRow (proposal : Json) (now : Int) (c : Contract) : Contract :=
  { c with proposal := proposal, state := .proposed, lastError := none, updatedAt := now }

theorem keeps_contractKeys {f : Contract → Contract} (hid : ∀ c, (f c).id = c.id)
    (hunique : ∀ c, (f c).workspaceId = c.workspaceId ∧
      (f c).candidateFingerprint = c.candidateFingerprint) : Table.Keeps contractKeys f := by
  intro key hkey c
  simp only [contractKeys, List.mem_cons, List.not_mem_nil, or_false] at hkey
  rcases hkey with rfl | rfl
  · show [(f c).id] = [c.id]
    rw [hid]
  · show [(f c).workspaceId, (f c).candidateFingerprint] = [c.workspaceId, c.candidateFingerprint]
    rw [(hunique c).1, (hunique c).2]

/-- `UPDATE dependency_upgrade_contracts SET f WHERE p`. -/
def Store.updateContracts (s : Store) (p : Contract → Bool) (f : Contract → Contract)
    (hid : ∀ c, (f c).id = c.id) (hunique : ∀ c, (f c).workspaceId = c.workspaceId ∧
      (f c).candidateFingerprint = c.candidateFingerprint) : Store :=
  { s with contracts := s.contracts.update p f (keeps_contractKeys hid hunique) }

/-- `RETURNING *` of such an update. -/
def Store.returning (s : Store) (p : Contract → Bool) (f : Contract → Contract) : Option Contract :=
  ((s.contracts.select p).map f).head?

inductive Stmt : Type → Type where
  | selectContract (workspaceId contractId : Text) : Stmt (Option Contract)
  | selectFingerprint (workspaceId fingerprint : Text) : Stmt (Option Contract)
  | selectWatch (workspaceId watchId : Text) : Stmt (Option Watch)
  | selectObservations (workspaceId watchId repositoryId : Text) : Stmt (List Observation)
  | insert (values : Contract) : Stmt (Option Contract)
  | attach (workspaceId contractId approvalId : Text) : Stmt (Option Contract)
  | refresh (workspaceId contractId : Text) (proposal : Json) : Stmt (Option Contract)
  | resolve (workspaceId contractId approvalId : Text) (state : ContractState)
      (lastError : Option Text) : Stmt (Option Contract)
  | record (event : ContractEvent) : Stmt Unit

/-- The observations with candidates, newest first. -/
def observationsOf (s : Store) (workspaceId watchId repositoryId : Text) : List Observation :=
  (s.ledger.observations.select fun o => o.workspaceId = workspaceId && o.watchId = watchId &&
    o.repositoryId = repositoryId && o.status = .candidates).mergeSort
      fun o p => decide (p.observedAt ≤ o.observedAt)

def Stmt.exec ⦃β : Type⦄ : Stmt β → Store → β × Store
  | .selectContract workspaceId contractId, s =>
    ((s.contracts.select (isContract workspaceId contractId)).head?, s)
  | .selectFingerprint workspaceId fingerprint, s =>
    ((s.contracts.select (hasFingerprint workspaceId fingerprint)).head?, s)
  | .selectWatch workspaceId watchId, s =>
    (DependencyWatch.getDependencyWatch s.ledger workspaceId watchId, s)
  | .selectObservations workspaceId watchId repositoryId, s =>
    (observationsOf s workspaceId watchId repositoryId, s)
  | .insert values, s =>
    match s.contracts.insert values with
    | none => (none, s)
    | some contracts => (some values, { s with contracts := contracts })
  | .attach workspaceId contractId approvalId, s =>
    let where_ := takesApproval workspaceId contractId approvalId
    (s.returning where_ (attachedRow approvalId s.now),
      s.updateContracts where_ (attachedRow approvalId s.now) (fun _ => rfl) fun _ => ⟨rfl, rfl⟩)
  | .refresh workspaceId contractId proposal, s =>
    let where_ := isRefreshable workspaceId contractId
    (s.returning where_ (refreshedRow proposal s.now),
      s.updateContracts where_ (refreshedRow proposal s.now) (fun _ => rfl) fun _ => ⟨rfl, rfl⟩)
  | .resolve workspaceId contractId approvalId state lastError, s =>
    let where_ := isPending workspaceId contractId approvalId
    (s.returning where_ (resolvedRow state lastError s.now),
      { s.updateContracts where_ (resolvedRow state lastError s.now) (fun _ => rfl)
          fun _ => ⟨rfl, rfl⟩ with
        taken := (s.contracts.select where_).map (fun c => (c.id, state)) ++ s.taken })
  | .record event, s => ((), { s with events := s.events ++ [event] })

/-! ## The ledger -/

structure CandidateObservation where
  watchId : Text
  repositoryId : Text
  observationKey : Text
  baselineSha : Option Text
  candidate : DependencyUpgradeCandidate

section
variable (sha256 : Py.Bytes → Text)

/-- The candidate of an observation with the fingerprint, where it is its own. -/
def candidateIn (fingerprint : Text) (o : Observation) : Option CandidateObservation :=
  ((o.candidates.filterMap candidateFromUnknown).find? fun u =>
      u.fingerprint = fingerprint && candidateFingerprint sha256 u = u.fingerprint).map fun u =>
    { watchId := o.watchId, repositoryId := o.repositoryId, observationKey := o.observationKey,
      baselineSha := o.baselineSha, candidate := u }

def findDependencyCandidate (workspaceId watchId fingerprint : Text) :
    Prog Stmt (Option CandidateObservation) := do
  match ← Prog.stmt (.selectWatch workspaceId watchId) with
  | none => pure none
  | some watch =>
    let observations ← Prog.stmt (.selectObservations workspaceId watchId watch.repositoryId)
    pure (observations.findSome? (candidateIn sha256 fingerprint))

/-! ## Contracts -/

structure CreateInput where
  /-- the id that the database draws for a new row -/
  id : Text
  workspaceId : Text
  repositoryId : Text
  watchId : Text
  observationKey : Text
  candidate : DependencyUpgradeCandidate
  proposal : Json
  createdBy : Option Text := none
  state : Option ContractState := none

def CreateInput.values (input : CreateInput) : Contract where
  id := input.id
  workspaceId := input.workspaceId
  repositoryId := input.repositoryId
  watchId := input.watchId
  observationKey := input.observationKey
  candidateFingerprint := input.candidate.fingerprint
  packageName := input.candidate.package
  dependencyKind := input.candidate.dependencyKind
  specifier := input.candidate.specifier
  currentVersion := input.candidate.currentVersion
  targetVersion := input.candidate.targetVersion
  manifestPath := input.candidate.manifestPath
  lockfilePath := input.candidate.lockfilePath
  baselineSha := input.candidate.baselineSha
  proposal := input.proposal
  state := input.state.getD .proposed
  createdBy := input.createdBy

def watchActor : ContractActor := ⟨"system".toList, "dependency-watch".toList⟩

def fingerprintMismatch : Text :=
  "dependency candidate fingerprint does not match its identity fields".toList

def createOrGetDependencyUpgradeContract (input : CreateInput) :
    Prog Stmt (Except Text (Contract × Bool)) :=
  if candidateFingerprint sha256 input.candidate ≠ input.candidate.fingerprint then
    pure (.error fingerprintMismatch)
  else do
    match ← Prog.stmt (.insert input.values) with
    | some inserted =>
      Prog.stmt (.record {
        workspaceId := input.workspaceId, contractId := inserted.id
        candidateFingerprint := input.candidate.fingerprint, actor := watchActor
        decision := if input.state = some .needsHumanDecision then .needsHumanDecision
          else .proposed
        details := [("baselineSha".toList, .str input.candidate.baselineSha),
          ("observationKey".toList, .str input.observationKey)] })
      pure (.ok (inserted, true))
    | none =>
      match ← Prog.stmt (.selectFingerprint input.workspaceId input.candidate.fingerprint) with
      | some existing => pure (.ok (existing, false))
      | none =>
        pure (.error "dependency upgrade contract disappeared after conflict".toList)

def refreshDependencyUpgradeContractProposal (workspaceId contractId : Text) (proposal : Json) :
    Prog Stmt (Option Contract) := do
  match ← Prog.stmt (.refresh workspaceId contractId proposal) with
  | none => pure none
  | some row =>
    Prog.stmt (.record {
      workspaceId := workspaceId, contractId := row.id
      candidateFingerprint := row.candidateFingerprint, actor := watchActor
      decision := .proposed, details := [("refreshed".toList, .bool true)] })
    pure (some row)

def attachDependencyUpgradeApproval (workspaceId contractId approvalId : Text) :
    Prog Stmt (Except Text (Option Contract)) := do
  match ← Prog.stmt (.attach workspaceId contractId approvalId) with
  | some row => pure (.ok (some row))
  | none =>
    match ← Prog.stmt (.selectContract workspaceId contractId) with
    | none => pure (.ok none)
    | some existing =>
      pure (if existing.approvalId = some approvalId then .ok (some existing)
        else if existing.approvalId.isSome then
          .error "dependency upgrade contract already has another approval".toList
        else .ok none)

/-! ## Decisions -/

inductive Decision where
  | approved
  | denied
  deriving DecidableEq, Repr

inductive DecisionStatus where
  | approved
  | refused
  | stale
  | alreadyResolved
  deriving DecidableEq, Repr

structure DecideInput where
  workspaceId : Text
  contractId : Text
  approvalId : Text
  decision : Decision
  actor : ContractActor

/-- The candidate that the columns of the contract make. -/
def Contract.candidate (c : Contract) : DependencyUpgradeCandidate where
  package := c.packageName
  dependencyKind := c.dependencyKind
  specifier := c.specifier
  currentVersion := c.currentVersion
  targetVersion := c.targetVersion
  manifestPath := c.manifestPath
  lockfilePath := c.lockfilePath
  baselineSha := c.baselineSha
  fingerprint := c.candidateFingerprint

def noLongerMatches : Text :=
  "candidate observation no longer matches the approved fingerprint".toList

def DecideInput.event (input : DecideInput) (c : Contract) (decision : EventDecision) :
    ContractEvent where
  workspaceId := input.workspaceId
  contractId := c.id
  candidateFingerprint := c.candidateFingerprint
  actor := input.actor
  decision := decision
  approvalId := some input.approvalId

/-- The branch in which the candidate is not the one of the contract. -/
def decideStale (input : DecideInput) : Prog Stmt (DecisionStatus × Option Contract) := do
  match ← Prog.stmt (.resolve input.workspaceId input.contractId input.approvalId .stale
      (some noLongerMatches)) with
  | none => pure (.stale, none)
  | some row =>
    Prog.stmt (.record (input.event row .stale))
    pure (.stale, some row)

/-- The branch in which it is. -/
def decideMatched (input : DecideInput) : Prog Stmt (DecisionStatus × Option Contract) := do
  let state : ContractState := if input.decision = .approved then .approved else .refused
  match ← Prog.stmt (.resolve input.workspaceId input.contractId input.approvalId state none) with
  | none =>
    let contract ← Prog.stmt (.selectContract input.workspaceId input.contractId)
    pure (.alreadyResolved, contract)
  | some row =>
    Prog.stmt (.record (input.event row
      (if input.decision = .approved then .approved else .refused)))
    pure (if input.decision = .approved then .approved else .refused, some row)

def decideDependencyUpgradeContract (input : DecideInput) :
    Prog Stmt (DecisionStatus × Option Contract) := do
  match ← Prog.stmt (.selectContract input.workspaceId input.contractId) with
  | none => pure (.stale, none)
  | some current =>
    if current.approvalId ≠ some input.approvalId then pure (.stale, some current)
    else if current.state ≠ .proposed then
      pure (if current.state = .refused ∨ current.state = .approved ∨ current.state = .published then
        .alreadyResolved else .stale, some current)
    else
      match ← findDependencyCandidate sha256 input.workspaceId current.watchId
          current.candidateFingerprint with
      | none => decideStale input
      | some found =>
        if sameCandidate found.candidate current.candidate then decideMatched input
        else decideStale input

/-! ## Runs -/

/-- A call, whose result is not looked at. -/
def call {α : Type} (p : Prog Stmt α) : Prog Stmt Unit := p >>= fun _ => pure ()

/-- An observation as a heartbeat records it. -/
def Heartbeat (o : Observation) : Prop :=
  ∀ v ∈ o.candidates, ∃ c commands, Made c ∧ v = legacyCandidatePayload sha256 c commands

/-- Observations come and go, and time passes. -/
def Elsewhere (records : Observation → Prop) (s s' : Store) : Prop :=
  (∃ ledger now, s' = { s with ledger := ledger, now := now }) ∧
    ∀ o ∈ s'.ledger.observations.rows, o ∈ s.ledger.observations.rows ∨ records o

/-- Any number of calls at once, while observations are recorded as `records` has them. -/
def contractSystem (records : Observation → Prop) : System Store Stmt where
  exec := Stmt.exec
  starts := fun p =>
    (∃ input, p = call (createOrGetDependencyUpgradeContract sha256 input)) ∨
    (∃ workspaceId contractId proposal,
      p = call (refreshDependencyUpgradeContractProposal workspaceId contractId proposal)) ∨
    (∃ workspaceId contractId approvalId,
      p = call (attachDependencyUpgradeApproval workspaceId contractId approvalId)) ∨
    ∃ input, p = call (decideDependencyUpgradeContract sha256 input)
  env := Elsewhere records

end

/-! ## One decision -/

/-- A decision does not leave the contract open. -/
def Closes ⦃β : Type⦄ : Stmt β → Prop
  | .resolve _ _ _ state _ => state ≠ .proposed ∧ state ≠ .needsHumanDecision
  | _ => True

/-- Every contract is as the one decision about it has left it. -/
structure Settled (s : Store) : Prop where
  once : (s.taken.map (·.1)).Nodup
  kept : ∀ d ∈ s.taken, (d.2 ≠ .proposed ∧ d.2 ≠ .needsHumanDecision) ∧
    ∃ c ∈ s.contracts.rows, c.id = d.1 ∧ c.state = d.2

theorem kept_update {s : Store} (h : Settled s) {p : Contract → Bool} {f : Contract → Contract}
    (hid : ∀ c, (f c).id = c.id)
    (hopen : ∀ c, p c → (f c).state = c.state ∨ c.state = .proposed ∨ c.state = .needsHumanDecision) :
    ∀ d ∈ s.taken, (d.2 ≠ .proposed ∧ d.2 ≠ .needsHumanDecision) ∧
      ∃ c ∈ s.contracts.rows.map fun c => if p c then f c else c, c.id = d.1 ∧ c.state = d.2 := by
  intro d hd
  obtain ⟨hclosed, c, hc, hcid, hstate⟩ := h.kept d hd
  refine ⟨hclosed, _, List.mem_map_of_mem hc, ?_⟩
  by_cases hp : p c
  · rw [if_pos hp, hid]
    refine ⟨hcid, ?_⟩
    rcases hopen c hp with hsame | hproposed | hneeds
    · exact hsame.trans hstate
    · exact absurd (hstate.symm.trans hproposed) hclosed.1
    · exact absurd (hstate.symm.trans hneeds) hclosed.2
  · rw [if_neg hp]
    exact ⟨hcid, hstate⟩

theorem Settled.exec {s : Store} (h : Settled s) ⦃β : Type⦄ (q : Stmt β) (hq : Closes q) :
    Settled (q.exec s).2 := by
  cases q with
  | selectContract | selectFingerprint | selectWatch | selectObservations => exact h
  | record event => exact ⟨h.once, h.kept⟩
  | insert values =>
    show Settled (match s.contracts.insert values with
      | none => (none, s)
      | some contracts => (some values, { s with contracts := contracts })).2
    cases hinsert : s.contracts.insert values with
    | none => exact h
    | some contracts =>
      refine ⟨h.once, fun d hd => ?_⟩
      obtain ⟨hclosed, c, hc, hfields⟩ := h.kept d hd
      refine ⟨hclosed, c, ?_, hfields⟩
      show c ∈ contracts.rows
      rw [Table.rows_insert _ _ _ hinsert]
      exact List.mem_append_left _ hc
  | attach workspaceId contractId approvalId =>
    exact ⟨h.once, kept_update h (fun _ => rfl) fun _ _ => Or.inl rfl⟩
  | refresh workspaceId contractId proposal =>
    refine ⟨h.once, kept_update h (fun _ => rfl) fun c hc => Or.inr (Or.inr ?_)⟩
    simp only [isRefreshable, Bool.and_eq_true, decide_eq_true_eq] at hc
    exact hc.1.2
  | resolve workspaceId contractId approvalId state lastError =>
    have hpending : ∀ c, isPending workspaceId contractId approvalId c → c.state = .proposed := by
      intro c hc
      simp only [isPending, Bool.and_eq_true, decide_eq_true_eq] at hc
      exact hc.2
    have hids : (s.contracts.rows.map (·.id)).Nodup := by
      have hnodup := s.contracts.unique _ (List.mem_cons_self (l := [_]))
      rw [show (fun c : Contract => [c.id]) = (fun id => [id]) ∘ (·.id) from rfl,
        ← List.map_map] at hnodup
      exact hnodup.of_map _
    refine ⟨?_, ?_⟩
    · show (List.map (·.1) (List.map (fun c => (c.id, state)) (s.contracts.select _) ++ s.taken)).Nodup
      rw [List.map_append, List.map_map]
      refine List.Nodup.append ?_ h.once ?_
      · exact hids.sublist (List.filter_sublist.map _)
      · intro id hnew hold
        obtain ⟨c, hc, rfl⟩ := List.mem_map.mp hnew
        obtain ⟨d, hd, hdid⟩ := List.mem_map.mp hold
        obtain ⟨hin, hwhere⟩ := (Table.mem_select _ _ _).mp hc
        obtain ⟨hclosed, c', hc', hcid, hstate⟩ := h.kept d hd
        have hsame : c' = c := List.inj_on_of_nodup_map hids hc' hin (hcid.trans hdid)
        rw [hsame, hpending c hwhere] at hstate
        exact hclosed.1 hstate.symm
    · intro d hd
      rcases List.mem_append.mp hd with hnew | hold
      · obtain ⟨c, hc, rfl⟩ := List.mem_map.mp hnew
        obtain ⟨hin, hwhere⟩ := (Table.mem_select _ _ _).mp hc
        refine ⟨hq, _, List.mem_map_of_mem hin, ?_⟩
        rw [if_pos hwhere]
        exact ⟨rfl, rfl⟩
      · exact kept_update h (f := resolvedRow state lastError s.now) (fun _ => rfl)
          (fun c hc => Or.inr (Or.inl (hpending c hc))) d hold

/-! ## What the calls may execute -/

/-- Every statement but the update of a decision. -/
def Free ⦃β : Type⦄ : Stmt β → Prop
  | .resolve .. => False
  | _ => True

/-- The decision that the candidate is another one. -/
def Stales ⦃β : Type⦄ : Stmt β → Prop
  | .resolve _ _ _ state _ => state = .stale
  | _ => True

theorem Free.closes ⦃β : Type⦄ (q : Stmt β) (h : Free q) : Closes q := by
  cases q <;> trivial

theorem Free.stales ⦃β : Type⦄ (q : Stmt β) (h : Free q) : Stales q := by
  cases q <;> trivial

section
variable {I : Store → Prop} {G : ∀ ⦃β : Type⦄, Stmt β → Prop}

theorem guarded_call {α : Type} {p : Prog Stmt α} {post : α → Prop}
    (h : Guarded Stmt.exec I G p post) : Guarded Stmt.exec I G (call p) fun _ => True := by
  unfold call
  rw [guarded_bind]
  exact guarded_mono p _ _ (fun _ hs => hs) (fun _ _ hq => hq) (fun _ _ => trivial) h

theorem guarded_create (sha256 : Py.Bytes → Text) (input : CreateInput) :
    Guarded Stmt.exec I Free (createOrGetDependencyUpgradeContract sha256 input) fun _ => True := by
  unfold createOrGetDependencyUpgradeContract
  split
  · trivial
  · refine ⟨trivial, fun s _ => ?_⟩
    cases (Stmt.exec (.insert input.values) s).1 with
    | some inserted => exact ⟨trivial, fun _ _ => trivial⟩
    | none =>
      refine ⟨trivial, fun t _ => ?_⟩
      cases (Stmt.exec (.selectFingerprint input.workspaceId input.candidate.fingerprint) t).1 <;>
        trivial

theorem guarded_refresh (workspaceId contractId : Text) (proposal : Json) :
    Guarded Stmt.exec I Free
      (refreshDependencyUpgradeContractProposal workspaceId contractId proposal) fun _ => True := by
  refine ⟨trivial, fun s _ => ?_⟩
  cases (Stmt.exec (.refresh workspaceId contractId proposal) s).1 with
  | none => trivial
  | some row => exact ⟨trivial, fun _ _ => trivial⟩

theorem guarded_attach (workspaceId contractId approvalId : Text) :
    Guarded Stmt.exec I Free
      (attachDependencyUpgradeApproval workspaceId contractId approvalId) fun _ => True := by
  refine ⟨trivial, fun s _ => ?_⟩
  cases (Stmt.exec (.attach workspaceId contractId approvalId) s).1 with
  | some row => trivial
  | none =>
    refine ⟨trivial, fun t _ => ?_⟩
    cases (Stmt.exec (.selectContract workspaceId contractId) t).1 <;> trivial

variable (sha256 : Py.Bytes → Text)

/-- What is found has been stored by an observation. -/
theorem guarded_find (workspaceId watchId fingerprint : Text) (post : CandidateObservation → Prop)
    (hpost : ∀ s, I s → ∀ o ∈ s.ledger.observations.rows, ∀ found,
      candidateIn sha256 fingerprint o = some found → post found) :
    Guarded Stmt.exec I Free (findDependencyCandidate sha256 workspaceId watchId fingerprint)
      fun result => ∀ found, result = some found → post found := by
  refine ⟨trivial, fun s _ => ?_⟩
  cases (Stmt.exec (.selectWatch workspaceId watchId) s).1 with
  | none =>
    rintro found hfound
    cases hfound
  | some watch =>
    refine ⟨trivial, fun t ht => ?_⟩
    intro found hfound
    obtain ⟨o, ho, hin⟩ := List.exists_of_findSome?_eq_some hfound
    have hselected := (Table.mem_select _ _ _).mp (List.mem_mergeSort.mp ho)
    exact hpost t ht o hselected.1 found hin

theorem guarded_decideStale (input : DecideInput) :
    Guarded Stmt.exec I Stales (decideStale input) fun r => r.1 = .stale := by
  refine ⟨rfl, fun s _ => ?_⟩
  cases (Stmt.exec (.resolve input.workspaceId input.contractId input.approvalId .stale
      (some noLongerMatches)) s).1 with
  | none => rfl
  | some row => exact ⟨trivial, fun _ _ => rfl⟩

theorem guarded_decideMatched (input : DecideInput) :
    Guarded Stmt.exec I Closes (decideMatched input) fun _ => True := by
  refine ⟨?_, fun s _ => ?_⟩
  · show (if input.decision = .approved then ContractState.approved else .refused) ≠ .proposed ∧ _
    split <;> exact ⟨nofun, nofun⟩
  · cases (Stmt.exec (.resolve input.workspaceId input.contractId input.approvalId
      (if input.decision = .approved then .approved else .refused) none) s).1 with
    | none => exact ⟨trivial, fun _ _ => trivial⟩
    | some row => exact ⟨trivial, fun _ _ => trivial⟩

/-- A decision, by what is known of the candidates of the ledger. -/
theorem guarded_decide (input : DecideInput) (known : CandidateObservation → Prop)
    (post : DecisionStatus → Prop) (hfree : ∀ ⦃β : Type⦄ (q : Stmt β), Free q → G q)
    (hknown : ∀ s, I s → ∀ fingerprint, ∀ o ∈ s.ledger.observations.rows, ∀ found,
      candidateIn sha256 fingerprint o = some found → known found)
    (hpost : post .stale ∧ post .alreadyResolved)
    (hstale : Guarded Stmt.exec I G (decideStale input) fun r => post r.1)
    (hmatched : ∀ found (current : Contract), known found →
      sameCandidate found.candidate current.candidate →
        Guarded Stmt.exec I G (decideMatched input) fun r => post r.1) :
    Guarded Stmt.exec I G (decideDependencyUpgradeContract sha256 input) fun r => post r.1 := by
  refine ⟨hfree _ trivial, fun s _ => ?_⟩
  cases (Stmt.exec (.selectContract input.workspaceId input.contractId) s).1 with
  | none => exact hpost.1
  | some current =>
    show Guarded Stmt.exec I G (if _ then _ else _) _
    split_ifs with happroval hstate
    · exact hpost.1
    · exact hpost.2
    · exact hpost.1
    · refine (guarded_bind _ _ _).mpr ?_
      refine guarded_mono _ _ _ (fun _ hs => hs) hfree (fun result hfound => ?_)
        (guarded_find sha256 input.workspaceId current.watchId current.candidateFingerprint known
          fun s hs => hknown s hs _)
      cases result with
      | none => exact hstale
      | some found =>
        show Guarded Stmt.exec I G (if _ then _ else _) _
        split_ifs with hsame
        · exact hmatched found current (hfound found rfl) hsame
        · exact hstale

/-- **One decision.** Whatever calls run at once and whatever is recorded meanwhile, at most one
decision changes a contract, and it stays as that decision has left it. -/
theorem decided_once (records : Observation → Prop) {s : Store}
    {c : Config Store Stmt} (h : (contractSystem sha256 records).Reaches System.Any ⟨s, []⟩ c)
    (hs : s.taken = []) : Settled c.store := by
  have hstart : Settled s := by
    refine ⟨?_, ?_⟩
    · rw [hs]
      exact List.nodup_nil
    · rw [hs]
      rintro d hd
      cases hd
  refine System.invariant (contractSystem sha256 records) (G := Closes) ?_
    (fun _ q _ _ hs hq _ => hs.exec q hq) ?_ h hstart
  · have hfree : ∀ p : Prog Stmt Unit, Guarded Stmt.exec Settled Free p (fun _ => True) →
        Guarded Stmt.exec Settled Closes p fun _ => True := fun p =>
      guarded_mono p _ _ (fun _ hs => hs) Free.closes fun _ _ => trivial
    rintro p (⟨input, rfl⟩ | ⟨_, _, _, rfl⟩ | ⟨_, _, _, rfl⟩ | ⟨input, rfl⟩)
    · exact hfree _ (guarded_call (guarded_create sha256 input))
    · exact hfree _ (guarded_call (guarded_refresh _ _ _))
    · exact hfree _ (guarded_call (guarded_attach _ _ _))
    · refine guarded_call (guarded_decide sha256 input (fun _ => True) (fun _ => True) Free.closes
        (fun _ _ _ _ _ _ _ => trivial) ⟨trivial, trivial⟩ ?_ fun _ _ _ _ => ?_)
      · refine guarded_mono _ _ _ (fun _ hs => hs) (fun _ q hq => ?_) (fun _ _ => trivial)
          (guarded_decideStale input)
        cases q with
        | resolve =>
          cases hq
          exact ⟨nofun, nofun⟩
        | _ => trivial
      · exact guarded_decideMatched input
  · rintro s _ hs ⟨⟨ledger, now, rfl⟩, _⟩
    exact ⟨hs.once, hs.kept⟩

/-! ## What a heartbeat has stored -/

/-- The ledger is that of heartbeats. -/
def Store.FromHeartbeats (s : Store) : Prop :=
  ∀ o ∈ s.ledger.observations.rows, Heartbeat sha256 o

/-- Read back from what a heartbeat has stored, and with the fingerprint that it says. -/
def ReadBack (found : CandidateObservation) : Prop :=
  ∃ c commands, Made c ∧
    candidateFromUnknown (legacyCandidatePayload sha256 c commands) = some found.candidate ∧
    candidateFingerprint sha256 found.candidate = found.candidate.fingerprint

theorem readBack_of_heartbeat {o : Observation} (ho : Heartbeat sha256 o) {fingerprint : Text}
    {found : CandidateObservation} (h : candidateIn sha256 fingerprint o = some found) :
    ReadBack sha256 found := by
  obtain ⟨u, hu, rfl⟩ := Option.map_eq_some_iff.mp h
  obtain ⟨v, hv, hread⟩ := List.mem_filterMap.mp (List.mem_of_find?_eq_some hu)
  obtain ⟨c, commands, hmade, rfl⟩ := ho v hv
  have hmatches := List.find?_some hu
  rw [Bool.and_eq_true, decide_eq_true_eq, decide_eq_true_eq] at hmatches
  exact ⟨c, commands, hmade, hread, hmatches.2⟩

/-- The contract has no package manager. -/
theorem not_sameCandidate {found : CandidateObservation} (h : ReadBack sha256 found)
    (current : Contract) : ¬ sameCandidate found.candidate current.candidate := by
  obtain ⟨c, commands, hmade, hread, _⟩ := h
  intro hsame
  simp only [sameCandidate, Bool.and_eq_true, decide_eq_true_eq] at hsame
  have hname : found.candidate.packageManager.getD [] = [] := hsame.1.2
  rw [(read_stored hread).1] at hname
  exact hmade.packageManager_ne_nil hname

theorem exec_ledger ⦃β : Type⦄ (q : Stmt β) (s : Store) : (q.exec s).2.ledger = s.ledger := by
  cases q with
  | insert values =>
    show (match s.contracts.insert values with
      | none => (none, s)
      | some contracts => (some values, { s with contracts := contracts })).2.ledger = s.ledger
    split <;> rfl
  | _ => rfl

theorem Store.FromHeartbeats.exec ⦃β : Type⦄ (q : Stmt β) {s : Store} (h : s.FromHeartbeats sha256) :
    (q.exec s).2.FromHeartbeats sha256 := by
  unfold Store.FromHeartbeats
  rw [exec_ledger]
  exact h

theorem guarded_decide_heartbeats (input : DecideInput) :
    Guarded Stmt.exec (Store.FromHeartbeats sha256) Stales
      (decideDependencyUpgradeContract sha256 input) fun r =>
        r.1 = .stale ∨ r.1 = .alreadyResolved := by
  refine guarded_decide sha256 input (ReadBack sha256) (fun r => r = .stale ∨ r = .alreadyResolved)
    Free.stales ?_ ⟨Or.inl rfl, Or.inr rfl⟩ ?_ ?_
  · intro s hs fingerprint o ho found hfound
    exact readBack_of_heartbeat sha256 (hs o ho) hfound
  · exact guarded_mono _ _ _ (fun _ hs => hs) (fun _ _ hq => hq) (fun _ hr => Or.inl hr)
      (guarded_decideStale input)
  · intro found current hread hsame
    exact absurd hsame (not_sameCandidate sha256 hread current)

/-- No decision has been other than that the candidate is another one. -/
def Store.AllStale (s : Store) : Prop :=
  s.FromHeartbeats sha256 ∧ ∀ d ∈ s.taken, d.2 = .stale

theorem Store.AllStale.exec {s : Store} (h : s.AllStale sha256) ⦃β : Type⦄ (q : Stmt β)
    (hq : Stales q) : (q.exec s).2.AllStale sha256 := by
  refine ⟨h.1.exec sha256 q, ?_⟩
  cases q with
  | insert values =>
    show ∀ d ∈ (match s.contracts.insert values with
      | none => (none, s)
      | some contracts => (some values, { s with contracts := contracts })).2.taken, d.2 = .stale
    split <;> exact h.2
  | resolve workspaceId contractId approvalId state lastError =>
    intro d hd
    rcases List.mem_append.mp hd with hnew | hold
    · obtain ⟨c, _, rfl⟩ := List.mem_map.mp hnew
      exact hq
    · exact h.2 d hold
  | _ => exact h.2

/-- In every run beside heartbeats. -/
theorem allStale_of_reaches {s : Store} {c : Config Store Stmt}
    (h : (contractSystem sha256 (Heartbeat sha256)).Reaches System.Any ⟨s, []⟩ c)
    (hs : s.AllStale sha256) : c.store.AllStale sha256 := by
  refine System.invariant (contractSystem sha256 (Heartbeat sha256)) (G := Stales) ?_
    (fun _ q _ _ hs hq _ => hs.exec sha256 q hq) ?_ h hs
  · have hfree : ∀ p : Prog Stmt Unit, Guarded Stmt.exec (Store.AllStale sha256) Free p
        (fun _ => True) → Guarded Stmt.exec (Store.AllStale sha256) Stales p fun _ => True :=
      fun p => guarded_mono p _ _ (fun _ hs => hs) Free.stales fun _ _ => trivial
    rintro p (⟨input, rfl⟩ | ⟨_, _, _, rfl⟩ | ⟨_, _, _, rfl⟩ | ⟨input, rfl⟩)
    · exact hfree _ (guarded_call (guarded_create sha256 input))
    · exact hfree _ (guarded_call (guarded_refresh _ _ _))
    · exact hfree _ (guarded_call (guarded_attach _ _ _))
    · exact guarded_mono _ _ _ (fun _ hs => hs.1) (fun _ _ hq => hq) (fun _ _ => trivial)
        (guarded_call (guarded_decide_heartbeats sha256 input))
  · rintro s _ hs ⟨⟨ledger, now, rfl⟩, hrecorded⟩
    refine ⟨fun o ho => ?_, hs.2⟩
    rcases hrecorded o ho with hold | hnew
    · exact hs.1 o hold
    · exact hnew

/-- A pending contract is found stale. -/
theorem decide_alone {s : Store} (hs : s.FromHeartbeats sha256) (input : DecideInput) {c : Contract}
    (hc : c ∈ s.contracts.rows) (hpending : isPending input.workspaceId input.contractId
      input.approvalId c) :
    ((decideDependencyUpgradeContract sha256 input).alone Stmt.exec s).1.1 = .stale := by
  simp only [isPending, Bool.and_eq_true, decide_eq_true_eq] at hpending
  obtain ⟨⟨hcontract, happroval⟩, hstate⟩ := hpending
  have hmem : c ∈ s.contracts.select (isContract input.workspaceId input.contractId) :=
    (Table.mem_select _ _ _).mpr ⟨hc, hcontract⟩
  have hselect : (Stmt.exec (.selectContract input.workspaceId input.contractId) s).1 = some c := by
    show (s.contracts.select (isContract input.workspaceId input.contractId)).head? = some c
    cases hhead : (s.contracts.select (isContract input.workspaceId input.contractId)).head? with
    | none =>
      rw [List.head?_eq_none_iff.mp hhead] at hmem
      cases hmem
    | some c' =>
      obtain ⟨hc', hcontract'⟩ := (Table.mem_select _ _ _).mp (List.mem_of_head? hhead)
      simp only [isContract, Bool.and_eq_true, decide_eq_true_eq] at hcontract hcontract'
      rw [s.contracts.eq_of_key (fun c => [c.id]) List.mem_cons_self c' c hc' hc
        (congrArg (fun id => [id]) (hcontract'.2.trans hcontract.2.symm))]
  have hfind := (guarded_find sha256 input.workspaceId c.watchId c.candidateFingerprint
    (ReadBack sha256) fun t ht o ho found hfound =>
      readBack_of_heartbeat sha256 (ht o ho) hfound).alone_result
    (fun _ q t ht _ => ht.exec sha256 q) hs
  have hstale : ∀ t, ((decideStale input).alone Stmt.exec t).1.1 = .stale := fun t =>
    (guarded_decideStale (I := fun _ => True) input).alone_result (fun _ _ _ _ _ => trivial) trivial
  unfold decideDependencyUpgradeContract
  rw [Prog.alone_stmt_bind, hselect]
  show ((if _ then _ else if _ then _ else _ :
    Prog Stmt (DecisionStatus × Option Contract)).alone Stmt.exec s).1.1 = _
  rw [if_neg (not_not_intro happroval), if_neg (not_not_intro hstate), Prog.alone_bind]
  cases hresult : ((findDependencyCandidate sha256 input.workspaceId c.watchId
      c.candidateFingerprint).alone Stmt.exec s).1 with
  | none => exact hstale _
  | some found =>
    show ((if _ then _ else _ :
      Prog Stmt (DecisionStatus × Option Contract)).alone Stmt.exec _).1.1 = _
    rw [if_neg (not_sameCandidate sha256 (hfind found hresult) c)]
    exact hstale _

/-- **Observed and lost.** The fingerprint that TypeScript takes of an observed candidate is its own
only where the hash function collides, and else no contract is made of it; next to a ledger of
heartbeats no decision is taken but that the candidate is another one, whichever calls run at once;
and whatever the ledger, no contract is decided twice. -/
theorem never_found_nor_approved :
    (∀ c commands u, candidateFromUnknown (legacyCandidatePayload sha256 c commands) = some u →
      (candidateFingerprint sha256 u = u.fingerprint ↔ Collides sha256 c u) ∧
      ∀ input s, input.candidate = u → ¬ Collides sha256 c u →
        ((createOrGetDependencyUpgradeContract sha256 input).alone Stmt.exec s).1 =
          .error fingerprintMismatch) ∧
    (∀ s, s.FromHeartbeats sha256 →
      (∀ input, ∀ c ∈ s.contracts.rows,
        isPending input.workspaceId input.contractId input.approvalId c →
        ((decideDependencyUpgradeContract sha256 input).alone Stmt.exec s).1.1 = .stale) ∧
      ∀ config, s.taken = [] →
        (contractSystem sha256 (Heartbeat sha256)).Reaches System.Any ⟨s, []⟩ config →
        ∀ d ∈ config.store.taken, d.2 = .stale) ∧
    ∀ records s config, s.taken = [] →
      (contractSystem sha256 records).Reaches System.Any ⟨s, []⟩ config → Settled config.store := by
  refine ⟨?_, ?_, ?_⟩
  · intro c commands u hread
    have hiff : candidateFingerprint sha256 u = u.fingerprint ↔ Collides sha256 c u := by
      refine ⟨collision_of_agreement hread, fun hcollides => ?_⟩
      rw [(read_stored hread).2]
      exact congrArg ("sha256:".toList ++ ·) hcollides.2.symm
    refine ⟨hiff, ?_⟩
    rintro input s rfl hnone
    unfold createOrGetDependencyUpgradeContract
    rw [if_pos fun hsame => hnone (hiff.mp hsame)]
    rfl
  · intro s hs
    refine ⟨fun input c hc hpending => decide_alone sha256 hs input hc hpending, ?_⟩
    intro config htaken hrun
    have hstart : s.AllStale sha256 := by
      refine ⟨hs, fun d hd => ?_⟩
      rw [htaken] at hd
      cases hd
    exact (allStale_of_reaches sha256 hrun hstart).2
  · intro records s config htaken hrun
    exact decided_once sha256 records hrun htaken

end

/-! ## A candidate of npm -/

def sampleCandidate : Observation.DependencyCandidate :=
  Observation.makeCandidate "sha-old".toList
    ⟨.npm, "node".toList, "package.json".toList, "package-lock.json".toList⟩
    ⟨"react".toList, "dependencies".toList, "^18.2.0".toList, "18.2.0".toList,
      "package.json".toList, "package-lock.json".toList⟩ "18.3.1".toList

def sampleCommands : Commands := ⟨["npm test".toList], [("version".toList, "npm --version".toList)]⟩

/-- The candidate as TypeScript reads it. -/
def sampleRead : DependencyUpgradeCandidate where
  package := "react".toList
  packageManager := some "npm".toList
  dependencyKind := "dependencies".toList
  specifier := "^18.2.0".toList
  currentVersion := "18.2.0".toList
  targetVersion := "18.3.1".toList
  manifestPath := "package.json".toList
  lockfilePath := "package-lock.json".toList
  baselineSha := "sha-old".toList
  fingerprint := []

/-- SHA-256 of the text that TypeScript writes of it, and of the one that Python does. -/
def sampleSha256 (b : Py.Bytes) : Text :=
  if b = utf8 (candidatePayload sampleRead) then
    "1e3be047c8867b254ae462215dc4152558f59dc9e292262c02098dd9f70bd550".toList
  else "5756efda0cc9cd7dd993608f565d67eaa024ec04c5068f6fcb981030d83c95e7".toList

theorem sample_fingerprint : observedFingerprint sampleSha256 sampleCandidate =
    "sha256:5756efda0cc9cd7dd993608f565d67eaa024ec04c5068f6fcb981030d83c95e7".toList := by
  unfold observedFingerprint sampleSha256
  rw [if_neg (bytes_differ sampleCandidate sampleRead)]
  rfl

def sampleStore : Store where
  ledger := {
    watches := (Table.empty.insert
      { id := "w".toList, workspaceId := "s".toList, repositoryId := "r".toList }).getD .empty
    observations := (Table.empty.insert
      { workspaceId := "s".toList, watchId := "w".toList, repositoryId := "r".toList
        trigger := .scheduled, baselineSha := some "sha-old".toList, selectedFileHashes := []
        observationKey := "candidates:one".toList, candidateFingerprint := none
        sourceInventoryReceipt := none, sourceInventoryReceiptSha256 := none
        status := .candidates
        candidates := [legacyCandidatePayload sampleSha256 sampleCandidate sampleCommands]
        errorCode := none, errorMessage := none, observedAt := 1 }).getD .empty
    repositories := [] }
  contracts := (Table.empty.insert
    { id := "c".toList, workspaceId := "s".toList, repositoryId := "r".toList, watchId := "w".toList
      observationKey := "candidates:one".toList
      candidateFingerprint := observedFingerprint sampleSha256 sampleCandidate
      packageName := "react".toList, dependencyKind := "dependencies".toList
      specifier := "^18.2.0".toList, currentVersion := "18.2.0".toList
      targetVersion := "18.3.1".toList, manifestPath := "package.json".toList
      lockfilePath := "package-lock.json".toList, baselineSha := "sha-old".toList
      proposal := .null, approvalId := some "a".toList }).getD .empty

/-- It is not found under its fingerprint, and the approval of its contract ends stale. -/
theorem react_observed_and_lost :
    (candidateFromUnknown (legacyCandidatePayload sampleSha256 sampleCandidate sampleCommands)).any
      (fun u => candidateFingerprint sampleSha256 u ≠ u.fingerprint) ∧
    ((findDependencyCandidate sampleSha256 "s".toList "w".toList
      (observedFingerprint sampleSha256 sampleCandidate)).alone Stmt.exec sampleStore).1.isNone ∧
    ((decideDependencyUpgradeContract sampleSha256
      ⟨"s".toList, "c".toList, "a".toList, .approved, ⟨"user".toList, "u".toList⟩⟩).alone
        Stmt.exec sampleStore).1.1 = .stale := by
  simp only [sampleStore, legacyCandidatePayload, sample_fingerprint]
  decide +kernel

end Agentrail.DependencyUpgrade
