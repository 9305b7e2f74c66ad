import Agentrail.Queue.Operations

/-!
# The alignment gate

In a workspace that requires alignment no issue row is handed to a runner before
a human sanctioned a budget for it or an enqueue found its approved brief
(`GateHolds`).  All writers keep that but one: `unparkDependents` decides on a
row it read earlier and releases whatever the row is by then
(`stale_release_opens_gate`).  `alignment_gate`: the gate holds in every run in
which each release meets rows that are sanctioned at that moment.
-/

namespace Agentrail.Queue

open Js IntakeGate Interleaving

/-- The row carries a budget or was admitted with an approved `create_issue` approval. -/
def Sanctioned (s : Store) (r : QueueEntry) : Prop :=
  r.estimatedBudgetUsd ≠ none ∨ ∃ guardrail, .admitted r.id guardrail true ∈ s.history

def GateHolds (workspaceId : Text) (s : Store) : Prop :=
  ∀ r ∈ s.queue.rows, r.workspaceId = workspaceId → r.kind = "issue".toList →
    r.state = .queued ∨ r.state = .running → Sanctioned s r

/-- A release of a wake-up in the workspace meets sanctioned rows only. -/
def ReleasesSanctioned (workspaceId : Text) ⦃β : Type⦄ (_ : List (Prog Stmt Unit)) (s : Store) :
    Stmt β → Prop
  | .releaseParked w e => w = workspaceId → ∀ r ∈ s.queue.rows, r.workspaceId = w →
      r.externalId = e → r.state = .parked → r.kind = "issue".toList → Sanctioned s r
  | _ => True

/-- Admission, wake-up, the human answers to a brief, and the claim. -/
def isGateOp : Op → Prop
  | .enqueueGithubIssue _ => True
  | .enqueueLinearIssue _ => True
  | .unparkDependents _ _ => True
  | .confirmAlignmentBrief _ => True
  | .denyAlignmentBrief _ => True
  | .reviseAlignmentBrief _ => True
  | .requeueParkedQueueEntry _ _ => True
  | .claimQueueEntry _ => True
  | _ => False

/-! ## Admission -/

theorem Screened.parked_of_v2Parked {hold hold' : Hold} (h : Screened hold hold')
    (hclean : hold.v2Parked = false) (hv2 : hold'.v2Parked) : hold'.state = .parked := by
  cases h with
  | clean =>
    rw [hclean] at hv2
    cases hv2
  | parked reason => rfl

theorem dependencyHold_v2Parked (unmet : List Nat) : (dependencyHold unmet).v2Parked = false := by
  unfold dependencyHold
  split <;> rfl

theorem dependencyHold_state (unmet : List Nat) :
    (dependencyHold unmet).state = .queued ∨ (dependencyHold unmet).state = .parked := by
  unfold dependencyHold
  split
  · exact Or.inr rfl
  · exact Or.inl rfl

theorem Screened.state {hold hold' : Hold} (h : Screened hold hold')
    (hstate : hold.state = .queued ∨ hold.state = .parked) :
    hold'.state = .queued ∨ hold'.state = .parked := by
  cases h with
  | clean => exact hstate
  | parked reason => exact Or.inr rfl

theorem awaitAlignment_state (hold : Hold) (h : hold.state = .queued ∨ hold.state = .parked) :
    (awaitAlignment hold).state = .parked := by
  unfold awaitAlignment
  split
  · rfl
  · next hne => exact h.resolve_left hne

theorem GithubAdmission.workspaceId_eq {host : Host} {flag : Text → Bool} {data : GithubIssue}
    {row : QueueEntry} {guardrail approval : Bool}
    (h : GithubAdmission host flag data row guardrail approval) :
    row.workspaceId = data.workspaceId := by
  cases h
  rfl

theorem LinearAdmission.workspaceId_eq {host : Host} {flag : Text → Bool} {data : LinearIssue}
    {row : QueueEntry} {guardrail approval : Bool}
    (h : LinearAdmission host flag data row guardrail approval) :
    row.workspaceId = data.workspaceId := by
  cases h
  rfl

/-- Where alignment is required an enqueue parks every issue without an approval. -/
theorem GithubAdmission.parked {host : Host} {flag : Text → Bool} {data : GithubIssue}
    {row : QueueEntry} {guardrail : Bool} (h : GithubAdmission host flag data row guardrail false)
    (hflag : flag data.workspaceId) : row.state = .parked := by
  generalize happroval : false = approval at h
  cases h with
  | @intro unmet hold matched hscreened =>
    have hmatched : matched = none := by
      cases matched with
      | none => rfl
      | some approval => cases happroval
    subst hmatched
    have hstate := hscreened.state (dependencyHold_state unmet)
    show (alignGithub (gateClosed flag data.workspaceId hold) none hold).1.state = .parked
    unfold alignGithub gateClosed
    rw [hflag, Bool.and_true, Bool.not_not, Bool.or_self]
    cases hv2 : hold.v2Parked with
    | true => exact hscreened.parked_of_v2Parked (dependencyHold_v2Parked unmet) hv2
    | false => exact awaitAlignment_state hold hstate

theorem LinearAdmission.parked {host : Host} {flag : Text → Bool} {data : LinearIssue}
    {row : QueueEntry} {guardrail approval : Bool}
    (h : LinearAdmission host flag data row guardrail approval) (hflag : flag data.workspaceId) :
    row.state = .parked := by
  cases h with
  | @intro hold hscreened =>
    have hstate := hscreened.state (Or.inl rfl)
    show (if gateClosed flag data.workspaceId hold then awaitAlignment hold else hold).state = _
    unfold gateClosed
    rw [hflag, Bool.and_true]
    cases hv2 : hold.v2Parked with
    | true => exact hscreened.parked_of_v2Parked rfl hv2
    | false => exact awaitAlignment_state hold hstate

/-! ## Every writer -/

/-- A row that is written stays behind the gate. -/
theorem Writes.gate {host : Host} {flag : Text → Bool} {op : Op} {β : Type} {q : Stmt β}
    {s : Store} {r r' : QueueEntry} {others : List (Prog Stmt Unit)} {w : Text}
    (h : Writes q s r r') (hs : GateHolds w s) (hflag : flag w) (hmem : r ∈ s.queue.rows)
    (hop : isGateOp op) (hq : Issued host flag op q) (hC : ReleasesSanctioned w others s q)
    (hw : r'.workspaceId = w) (hkind : r'.kind = "issue".toList)
    (hstate : r'.state = .queued ∨ r'.state = .running) : Sanctioned s r' := by
  -- a row that stays parked is no matter of the gate
  have hparked : r'.state = .parked → Sanctioned s r' := by
    intro hp
    rw [hp] at hstate
    rcases hstate with h | h <;> cases h
  cases h with
  | reconcileEntries _ hrun _ => exact hs r hmem hw hkind (Or.inr hrun)
  | stampEntry _ hrun => exact hs r hmem hw hkind (Or.inr hrun)
  | claimOldest _ he =>
    unfold isClaimEligible at he
    simp only [Bool.and_eq_true, decide_eq_true_eq] at he
    exact hs r hmem hw hkind (Or.inl he.1)
  | recordRefusal _ | recordRetry _ _ | recordState _ =>
    obtain ⟨rfl, _⟩ := hq
    exact hop.elim
  | releaseParked hrw hre hp => exact hC (hrw.symm.trans hw) r hmem hrw hre hp hkind
  | restampParked _ _ hp _ | deny _ hp | revise _ hp _ | holdForAlignment _ hp => exact hparked hp
  | confirm _ _ => exact Or.inl nofun
  | clearDelay _ hqueued => exact hs r hmem hw hkind (Or.inl hqueued)
  | requeue he _ _ haligned =>
    obtain ⟨rfl, rfl⟩ := hq
    unfold isEntry at he
    simp only [Bool.and_eq_true, decide_eq_true_eq] at he
    rcases haligned with hk | hbudget | hoff
    · exact absurd hkind hk
    · exact Or.inl (Option.isSome_iff_ne_none.mp hbudget)
    · rw [← he.2, show r.workspaceId = w from hw, hflag] at hoff
      cases hoff

/-- **The alignment gate.** In a workspace that requires alignment, whatever the operations of the
intake and the claim do beside each other: every issue row that is queued or running carries a
budget or was admitted with an approved `create_issue` approval, as long as each release of
`unparkDependents` meets only rows of which this is true at that moment. -/
theorem alignment_gate (host : Host) (w : Text) (s₀ : Store) (c : Config Store Stmt)
    (hflag : s₀.requiresAlignment w) (h₀ : GateHolds w s₀)
    (h : (queueSystem host isGateOp).Reaches (ReleasesSanctioned w) ⟨s₀, []⟩ c) :
    GateHolds w c.store := by
  refine queue_invariant (GateHolds w) .refl h₀ ?_ ?_ h
  · intro β q others s op hop hq hC hs r' hr' hw hkind hstate
    have hmono : ∀ x : QueueEntry, Sanctioned s x → Sanctioned (q.exec host s).2 x := by
      rintro x (hbudget | ⟨guardrail, hadmitted⟩)
      · exact Or.inl hbudget
      · exact Or.inr ⟨guardrail, exec_history_mono host q s _ hadmitted⟩
    rcases exec_row host q s with ⟨image, hrows, himage⟩ |
      ⟨row, guardrail, approval, hrows, hhistory, hins⟩
    · rw [hrows] at hr'
      obtain ⟨r, hr, rfl⟩ := List.mem_map.mp hr'
      apply hmono
      rcases himage r hr with heq | hwrites
      · rw [heq] at hw hkind hstate ⊢
        exact hs r hr hw hkind hstate
      · exact hwrites.gate hs hflag hr hop hq hC hw hkind hstate
    · rw [hrows] at hr'
      rcases List.mem_append.mp hr' with hr | hr
      · exact hmono r' (hs r' hr hw hkind hstate)
      · obtain rfl := List.mem_singleton.mp hr
        cases approval with
        | true =>
          right
          refine ⟨guardrail, ?_⟩
          rw [hhistory]
          exact List.mem_cons_self
        | false =>
          -- without an approval the enqueue parked the row
          have hparked : r'.state = .parked := by
            cases hins with
            | insertEntry _ =>
              rcases hq with ⟨data, _, hadm⟩ | ⟨data, _, hadm⟩
              · exact hadm.parked ((hadm.workspaceId_eq.symm.trans hw) ▸ hflag)
              · exact hadm.parked ((hadm.workspaceId_eq.symm.trans hw) ▸ hflag)
          rw [hparked] at hstate
          rcases hstate with h | h <;> cases h
  · intro s s' he hs r hr hw hkind hstate
    unfold Sanctioned
    rw [env_history he]
    exact hs r (env_queue he ▸ hr) hw hkind hstate

/-! ## A stale release -/

/-- The blocker is green; its dependent carries a confirmed budget and waits for the wake-up. -/
def blocker : QueueEntry :=
  { id := "b".toList, workspaceId := "w".toList, source := .github,
    externalId := "o/r#1".toList, title := "first".toList, state := .green }

def dependent : QueueEntry :=
  { id := "d".toList, workspaceId := "w".toList, source := .github,
    externalId := "o/r#2".toList, title := "second".toList, state := .parked, blockedBy := [1],
    parkReason := some (formatWaitingOnReason [1]), estimatedBudgetUsd := some 5,
    modelOverride := some "m".toList }

def dependentStore : Store := storeOf [blocker, dependent] (by decide)

/-- The wake-up alone, over a row that is sanctioned. -/
def wakesDependent : List (System.Choice Store Stmt) :=
  solo plainHost (.unparkDependents "w".toList "o/r#1".toList) 6

/-- No release happens, or it meets only rows with a budget. -/
def releasesBudgets ⦃β : Type⦄ (_ : List (Prog Stmt Unit)) (s : Store) : Stmt β → Bool
  | .releaseParked _ _ => s.queue.rows.all fun r => r.state ≠ .parked || r.estimatedBudgetUsd.isSome
  | _ => true

theorem releasesBudgets_sanctioned ⦃β : Type⦄ (others : List (Prog Stmt Unit)) (s : Store)
    (q : Stmt β) (h : releasesBudgets others s q) : ReleasesSanctioned "w".toList others s q := by
  cases q <;> first | exact trivial | skip
  case releaseParked w e =>
    intro _ r hr _ _ hp _
    have hall : s.queue.rows.all fun r =>
      r.state ≠ .parked || r.estimatedBudgetUsd.isSome := h
    have hbudget := List.all_eq_true.mp hall r hr
    rw [hp] at hbudget
    exact Or.inl (Option.isSome_iff_ne_none.mp hbudget)

theorem dependentStore_gate : GateHolds "w".toList dependentStore := by
  intro r hr _ _ hstate
  rcases List.mem_cons.mp hr with rfl | hr
  · rcases hstate with h | h <;> cases h
  · obtain rfl := List.mem_singleton.mp hr
    rcases hstate with h | h <;> cases h

/-- The dependent is released with its budget. -/
theorem alignment_gate_wakes : ∃ c : Config Store Stmt,
    c.store.queue.rows.map QueueEntry.state = [.green, .queued] ∧ GateHolds "w".toList c.store := by
  let S := queueSystem plainHost isGateOp
  have hrun : S.Reaches (ReleasesSanctioned "w".toList) ⟨dependentStore, []⟩
      (S.schedule wakesDependent ⟨dependentStore, []⟩) :=
    S.schedule_reaches wakesDependent _ (solo_valid _ _ trivial)
      (S.meets_of_check releasesBudgets releasesBudgets_sanctioned _ _ (by decide +kernel))
  exact ⟨_, by decide +kernel,
    alignment_gate plainHost "w".toList dependentStore _ rfl dependentStore_gate hrun⟩

/-- The wake-up reads the row; a denial and a revision take the budget back; the release follows. -/
def revisedMeanwhile : List (System.Choice Store Stmt) :=
  solo plainHost (.unparkDependents "w".toList "o/r#1".toList) 3 ++
    solo plainHost (.denyAlignmentBrief "d".toList) 2 ++
    solo plainHost (.reviseAlignmentBrief ⟨"d".toList, "second".toList, []⟩) 3 ++ [.step 0]

theorem revisedMeanwhile_valid : ∀ choice ∈ revisedMeanwhile,
    choice.Valid (queueSystem plainHost isGateOp) := by
  simp only [revisedMeanwhile, List.mem_append, List.mem_singleton]
  rintro choice (((h | h) | h) | rfl)
  · exact solo_valid _ _ trivial choice h
  · exact solo_valid _ _ trivial choice h
  · exact solo_valid _ _ trivial choice h
  · exact trivial

/-- A row without a budget and without an approval is queued. -/
theorem stale_release_opens_gate : ¬ ∀ (w : Text) (s₀ : Store) (c : Config Store Stmt),
    s₀.requiresAlignment w → GateHolds w s₀ →
    (queueSystem plainHost isGateOp).Reaches System.Any ⟨s₀, []⟩ c → GateHolds w c.store := by
  intro hclaim
  let S := queueSystem plainHost isGateOp
  let c := S.schedule revisedMeanwhile ⟨dependentStore, []⟩
  have hrun : S.Reaches System.Any ⟨dependentStore, []⟩ c :=
    S.schedule_reaches revisedMeanwhile _ revisedMeanwhile_valid (S.meets_any _ _)
  have hopen : c.store.queue.rows.map
      (fun r => (r.id, r.workspaceId, r.kind, r.state, r.estimatedBudgetUsd)) =
      [("b".toList, "w".toList, "issue".toList, .green, none),
        ("d".toList, "w".toList, "issue".toList, .queued, none)] := by decide +kernel
  have hhistory : c.store.history = [.revised "d".toList, .denied "d".toList] := by decide +kernel
  obtain ⟨r, hr, hrow⟩ : ∃ r ∈ c.store.queue.rows,
      (r.id, r.workspaceId, r.kind, r.state, r.estimatedBudgetUsd) =
        ("d".toList, "w".toList, "issue".toList, .queued, none) :=
    List.mem_map.mp (hopen ▸ List.mem_cons_of_mem _ List.mem_cons_self)
  simp only [Prod.mk.injEq] at hrow
  obtain ⟨_, hw, hkind, hstate, hbudget⟩ := hrow
  rcases hclaim "w".toList _ c rfl dependentStore_gate hrun r hr hw hkind (Or.inl hstate) with
    h | ⟨guardrail, h⟩
  · exact h hbudget
  · rw [hhistory] at h
    simp at h

end Agentrail.Queue
