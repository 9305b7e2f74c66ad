import Agentrail.Queue.Operations

/-!
# Finished entries

`green` and `escalated-to-human` are where an entry ends.  No statement of the
queue asks for the state before it records a result, so a late report of an
earlier run can take a finished entry back into the queue
(`late_result_revives_finished`).  `finished_absorbing`: in every run without
such a report a finished entry stays finished.
-/

namespace Agentrail.Queue

open Js IntakeGate Interleaving

def Finished (state : QueueState) : Prop := state = .green ∨ state = .escalatedToHuman

/-- No red or error result with budget left, and no heartbeat, is recorded for a finished entry. -/
def SparesFinished ⦃β : Type⦄ (_ : List (Prog Stmt Unit)) (s : Store) : Stmt β → Prop
  | .recordRetry data => ∀ r ∈ s.queue.rows, isEntry data.id data.workspaceId r →
      Finished r.state → r.remainingBudget ≤ 1
  | .recordState data _ => ∀ r ∈ s.queue.rows, isEntry data.id data.workspaceId r →
      Finished r.state → data.status ≠ .running
  | _ => True

/-- The operations of the runner's side. -/
def isRunnerOp : Op → Prop
  | .claimQueueEntry _ => True
  | .reconcileStaleRuns _ => True
  | .recordRunnerLiveness _ _ => True
  | .recordRunnerResult _ => True
  | _ => False

/-- A row that is written keeps a finished state. -/
theorem Writes.finished {host : Host} {flag : Text → Bool} {op : Op} {β : Type} {q : Stmt β}
    {s : Store} {r r' : QueueEntry} {others : List (Prog Stmt Unit)} (h : Writes q s r r')
    (hmem : r ∈ s.queue.rows) (hq : Issued host flag op q) (hC : SparesFinished others s q)
    (hfin : Finished r.state) : Finished r'.state := by
  -- what asks for another state does not write the row
  have hother : ∀ state : QueueState, r.state = state → state ≠ .green →
      state ≠ .escalatedToHuman → Finished r'.state := by
    intro state hs hg he
    rcases hfin with h | h
    · exact absurd (hs.symm.trans h) hg
    · exact absurd (hs.symm.trans h) he
  cases h with
  | reconcileEntries _ hs _ | stampEntry _ hs => exact hother _ hs (by decide) (by decide)
  | claimOldest _ he =>
    unfold isClaimEligible at he
    simp only [Bool.and_eq_true, decide_eq_true_eq] at he
    exact hother _ he.1 (by decide) (by decide)
  | recordRefusal _ => exact Or.inr rfl
  | recordRetry attempts he =>
    right
    unfold retryEntry
    exact if_pos (hC r hmem he hfin)
  | recordState he =>
    rcases hq.2 with ⟨_, hnext⟩ | ⟨hs, _⟩
    · exact Or.inl hnext
    · exact absurd hs (hC r hmem he hfin)
  | releaseParked _ _ hs | restampParked _ _ hs _ | confirm _ hs | deny _ hs | revise _ hs _
  | holdForAlignment _ hs | requeue _ hs _ _ => exact hother _ hs (by decide) (by decide)
  | clearDelay _ hs => exact hother _ hs (by decide) (by decide)

/-- **Finished entries stay finished.** Whatever operations run, from the moment a row is green or
escalated it is neither queued nor running again, as long as no red, error or running report is
recorded for a finished entry that has budget left. -/
theorem finished_absorbing (host : Host) (allowed : Op → Prop) (s₀ : Store)
    (c c' : Config Store Stmt)
    (h₀ : (queueSystem host allowed).Reaches SparesFinished ⟨s₀, []⟩ c)
    (h : (queueSystem host allowed).Reaches SparesFinished c c')
    (r r' : QueueEntry) (hr : r ∈ c.store.queue.rows) (hfin : Finished r.state)
    (hr' : r' ∈ c'.store.queue.rows) (hid : r'.id = r.id) :
    r'.state ≠ .queued ∧ r'.state ≠ .running := by
  let J : Store → Prop := fun s => ∃ x ∈ s.queue.rows, x.id = r.id ∧ Finished x.state
  have hJ : J c'.store := by
    refine queue_invariant J h₀ ⟨r, hr, rfl, hfin⟩ ?_ ?_ h
    · rintro β q others s op _ hq hC ⟨x, hx, hxid, hxfin⟩
      rcases exec_row host q s with ⟨image, hrows, himage⟩ | ⟨row, _, _, hrows, _⟩
      · refine ⟨image x, ?_, ?_⟩
        · rw [hrows]
          exact List.mem_map_of_mem hx
        · rcases himage x hx with heq | hw
          · rw [heq]
            exact ⟨hxid, hxfin⟩
          · exact ⟨hw.id_eq.trans hxid, hw.finished hx hq hC hxfin⟩
      · refine ⟨x, ?_, hxid, hxfin⟩
        rw [hrows]
        exact List.mem_append_left _ hx
    · rintro s s' he ⟨x, hx, hxid, hxfin⟩
      exact ⟨x, (env_queue he).symm ▸ hx, hxid, hxfin⟩
  obtain ⟨x, hx, hxid, hxfin⟩ := hJ
  obtain rfl := c'.store.queue.eq_of_id x r' hx hr' (hxid.trans hid.symm)
  rcases hxfin with h | h <;> rw [h] <;> decide

/-! ## Sample stores -/

/-- One entry that waits. -/
def waitingEntry : QueueEntry :=
  { id := "e".toList, workspaceId := "w".toList, source := .github,
    externalId := "o/r#7".toList, title := "t".toList }

def waitingStore : Store := storeOf [waitingEntry] (List.nodup_singleton _)

def greenEntry : QueueEntry := { waitingEntry with state := .green }

def greenStore : Store := storeOf [greenEntry] (List.nodup_singleton _)

/-- Of the results only green ones are recorded. -/
def recordsGreen ⦃β : Type⦄ (_ : List (Prog Stmt Unit)) (_ : Store) : Stmt β → Bool
  | .recordRetry _ => false
  | .recordState data _ => data.status = .green
  | _ => true

theorem recordsGreen_spares ⦃β : Type⦄ (others : List (Prog Stmt Unit)) (s : Store) (q : Stmt β)
    (h : recordsGreen others s q) : SparesFinished others s q := by
  cases q <;> first | exact trivial | cases h | skip
  case recordState data next =>
    intro r _ _ _ hs
    have hg : data.status = .green := of_decide_eq_true h
    rw [hg] at hs
    cases hs

/-- A replayed green report and the next claim leave a green entry green. -/
theorem finished_absorbing_replay : ∃ c : Config Store Stmt,
    c.store.queue.rows.map QueueEntry.state = [.green] ∧
    ∀ r ∈ c.store.queue.rows, r.state ≠ .queued ∧ r.state ≠ .running := by
  let S := queueSystem plainHost isRunnerOp
  let choices := solo plainHost (.recordRunnerResult ⟨"e".toList, "w".toList, .green, none, 0, 1⟩) 5 ++
    solo plainHost (.claimQueueEntry "w".toList) 4
  have hvalid : ∀ choice ∈ choices, choice.Valid S :=
    List.forall_mem_append.mpr ⟨solo_valid _ _ trivial, solo_valid _ _ trivial⟩
  have hrun : S.Reaches SparesFinished ⟨greenStore, []⟩ (S.schedule choices ⟨greenStore, []⟩) :=
    S.schedule_reaches choices _ hvalid
      (S.meets_of_check recordsGreen recordsGreen_spares _ _ (by decide +kernel))
  refine ⟨S.schedule choices ⟨greenStore, []⟩, by decide +kernel, fun r hr => ?_⟩
  have hid : r.id = greenEntry.id := by
    have hall : ∀ x ∈ (S.schedule choices ⟨greenStore, []⟩).store.queue.rows,
        x.id = greenEntry.id := by decide +kernel
    exact hall r hr
  exact finished_absorbing plainHost isRunnerOp greenStore ⟨greenStore, []⟩ _ .refl hrun greenEntry r
    List.mem_cons_self (Or.inl rfl) hr hid

/-! ## A late report -/

/-- The first runner goes silent; two hours later a second one claims the entry and makes it
green. -/
def untilGreen : List (System.Choice Store Stmt) :=
  solo plainHost (.claimQueueEntry "w".toList) 6 ++ wait 7200000000 ::
    solo plainHost (.claimQueueEntry "w".toList) 6 ++
    solo plainHost (.recordRunnerResult ⟨"e".toList, "w".toList, .green, none, 0, 2⟩) 6

/-- Then the report of the first arrives. -/
def lateReport : List (System.Choice Store Stmt) :=
  solo plainHost (.recordRunnerResult
    ⟨"e".toList, "w".toList, .red, some "tests failed".toList, 0, 1⟩) 6

theorem untilGreen_valid : ∀ choice ∈ untilGreen,
    choice.Valid (queueSystem plainHost isRunnerOp) := by
  unfold untilGreen
  simp only [List.mem_append, List.mem_cons]
  rintro choice ((h | rfl | h) | h)
  · exact solo_valid _ _ trivial choice h
  · exact wait_valid _
  · exact solo_valid _ _ trivial choice h
  · exact solo_valid _ _ trivial choice h

/-- A green entry is queued again after a late red report of an earlier run. -/
theorem late_result_revives_finished : ¬ ∀ (s₀ : Store) (c c' : Config Store Stmt),
    (queueSystem plainHost isRunnerOp).Reaches System.Any ⟨s₀, []⟩ c →
    (queueSystem plainHost isRunnerOp).Reaches System.Any c c' →
    ∀ r ∈ c.store.queue.rows, Finished r.state → ∀ r' ∈ c'.store.queue.rows, r'.id = r.id →
      r'.state ≠ .queued ∧ r'.state ≠ .running := by
  intro hclaim
  let S := queueSystem plainHost isRunnerOp
  let c := S.schedule untilGreen ⟨waitingStore, []⟩
  let c' := S.schedule lateReport c
  have hc : c.store.queue.rows.map (fun r => (r.id, r.state)) = [("e".toList, .green)] := by
    decide +kernel
  have hc' : c'.store.queue.rows.map (fun r => (r.id, r.state)) = [("e".toList, .queued)] := by
    decide +kernel
  obtain ⟨r, hr, hrid⟩ : ∃ r ∈ c.store.queue.rows, (r.id, r.state) = ("e".toList, .green) :=
    List.mem_map.mp (hc ▸ List.mem_cons_self)
  obtain ⟨r', hr', hrid'⟩ : ∃ r ∈ c'.store.queue.rows, (r.id, r.state) = ("e".toList, .queued) :=
    List.mem_map.mp (hc' ▸ List.mem_cons_self)
  rw [Prod.mk.injEq] at hrid hrid'
  have hlate : S.Reaches System.Any c c' :=
    S.schedule_reaches lateReport c (solo_valid _ _ trivial) (S.meets_any _ _)
  have hgreen : S.Reaches System.Any ⟨waitingStore, []⟩ c :=
    S.schedule_reaches untilGreen _ untilGreen_valid (S.meets_any _ _)
  exact (hclaim _ c c' hgreen hlate r hr (Or.inl hrid.2) r' hr' (hrid'.1.trans hrid.1.symm)).1 hrid'.2

end Agentrail.Queue
