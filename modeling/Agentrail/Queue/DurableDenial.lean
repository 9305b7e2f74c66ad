import Agentrail.Queue.AlignmentGate

/-!
# A denial is durable

A denial is nothing but a park reason.  `unparkDependents` and
`requeueParkedQueueEntry` look for it when they read the row and not when they
write it, and `confirmAlignmentBrief` does not look for it at all, so a denial
that lands in between is overwritten (`stale_release_drops_denial`).
`denial_durable`: in every run in which no such write meets a denied row, an
entry stays parked with the denied reason until a revision succeeds.
-/

namespace Agentrail.Queue

open Js IntakeGate Interleaving

/-- The entry was denied and not revised since. -/
def DenialStands (id : Text) : List Event → Prop
  | [] => False
  | .denied i :: h => i = id ∨ DenialStands id h
  | .revised i :: h => i ≠ id ∧ DenialStands id h
  | _ :: h => DenialStands id h

def Denied (r : QueueEntry) : Prop :=
  r.state = .parked ∧ r.parkReason = some ALIGNMENT_DENIED_PARK_REASON

/-- The writes of a wake-up, of a requeue without alignment and of a confirmation meet no denied
row. -/
def SparesDenied ⦃β : Type⦄ (_ : List (Prog Stmt Unit)) (s : Store) : Stmt β → Prop
  | .releaseParked w e => ∀ r ∈ s.queue.rows, r.workspaceId = w → r.externalId = e → ¬ Denied r
  | .restampParked w e => ∀ r ∈ s.queue.rows, r.workspaceId = w → r.externalId = e →
      r.estimatedBudgetUsd = none → ¬ Denied r
  | .holdForAlignment id w => ∀ r ∈ s.queue.rows, isEntry id w r → ¬ Denied r
  | .confirm input => ∀ r ∈ s.queue.rows, r.id = input.queueEntryId → ¬ Denied r
  | _ => True

def DenialsHold (s : Store) : Prop :=
  ∀ id, DenialStands id s.history → ∃ r ∈ s.queue.rows, r.id = id ∧ Denied r

/-- A write other than a denial or a revision leaves denied rows alone. -/
theorem Writes.notDenied {host : Host} {flag : Text → Bool} {op : Op} {β : Type} {q : Stmt β}
    {s : Store} {r r' : QueueEntry} {others : List (Prog Stmt Unit)} (h : Writes q s r r')
    (hmem : r ∈ s.queue.rows) (hop : isGateOp op) (hq : Issued host flag op q)
    (hC : SparesDenied others s q) (hden : Denied r) :
    Denied r' ∨ (q.exec host s).2.history = .revised r.id :: s.history := by
  have hstate : ∀ state : QueueState, r.state = state → state ≠ .parked → Denied r' :=
    fun state hs hne => absurd (hs.symm.trans hden.1) hne
  cases h with
  | reconcileEntries _ hs _ | stampEntry _ hs | clearDelay _ hs =>
    exact Or.inl (hstate _ hs (by decide))
  | claimOldest _ he =>
    unfold isClaimEligible at he
    simp only [Bool.and_eq_true, decide_eq_true_eq] at he
    exact Or.inl (hstate _ he.1 (by decide))
  | recordRefusal _ | recordRetry _ _ | recordState _ =>
    obtain ⟨rfl, _⟩ := hq
    exact hop.elim
  | releaseParked hw he _ => exact absurd hden (hC r hmem hw he)
  | restampParked hw he _ hb => exact absurd hden (hC r hmem hw he hb)
  | confirm hid _ => exact absurd hden (hC r hmem hid)
  | holdForAlignment he _ => exact absurd hden (hC r hmem he)
  | deny _ hp => exact Or.inl ⟨hp, rfl⟩
  | requeue _ _ hreason _ => exact absurd hden.2 hreason
  | @revise input _ _ hid hp hreason =>
    right
    rw [hid]
    refine Store.noteIf_of_mem s _ _ _ r hmem ?_
    simp [hid, hp, hreason]

theorem DenialsHold.exec {host : Host} {flag : Text → Bool} {op : Op} {β : Type} (q : Stmt β)
    {s : Store} {others : List (Prog Stmt Unit)} (hs : DenialsHold s) (hop : isGateOp op)
    (hq : Issued host flag op q) (hC : SparesDenied others s q) :
    DenialsHold (q.exec host s).2 := by
  intro id hst
  -- a denial that stood before
  have hold : DenialStands id s.history →
      ∃ r ∈ (q.exec host s).2.queue.rows, r.id = id ∧ Denied r := by
    intro hbefore
    obtain ⟨r, hr, rfl, hden⟩ := hs id hbefore
    rcases exec_row host q s with ⟨image, hrows, himage⟩ | ⟨row, _, _, hrows, _⟩
    · have hmem : image r ∈ (q.exec host s).2.queue.rows := by
        rw [hrows]
        exact List.mem_map_of_mem hr
      rcases himage r hr with heq | hwrites
      · rw [heq] at hmem
        exact ⟨r, hmem, rfl, hden⟩
      · rcases hwrites.notDenied hr hop hq hC hden with h | h
        · exact ⟨image r, hmem, hwrites.id_eq, h⟩
        · rw [h] at hst
          exact absurd rfl hst.1
    · refine ⟨r, ?_, rfl, hden⟩
      rw [hrows]
      exact List.mem_append_left _ hr
  rcases exec_history host q s with h | ⟨e, h, hnotes⟩
  · exact hold (h ▸ hst)
  · rw [h] at hst
    cases hnotes with
    | @deny _ r hr hp =>
      rcases hst with rfl | hbefore
      · -- the denial of this statement
        have hmem := ((s.queue.mem_update (fun x => x.id = r.id && x.state = .parked) _ _).mpr
          ⟨r, hr, if_pos (by simp [hp])⟩ :
          { r with parkReason := some ALIGNMENT_DENIED_PARK_REASON, updatedAt := s.now } ∈
            (s.queue.update _ fun x =>
              { x with parkReason := some ALIGNMENT_DENIED_PARK_REASON, updatedAt := s.now }).rows)
        refine ⟨{ r with parkReason := some ALIGNMENT_DENIED_PARK_REASON, updatedAt := s.now }, ?_,
          rfl, hp, rfl⟩
        unfold Stmt.exec
        rw [Store.noteIf_queue]
        exact hmem
      · exact hold hbefore
    | revise => exact hold hst.2
    | _ => exact hold hst

/-- **A denial is durable.** Whatever the operations of the intake and the claim do beside each
other: an entry whose denial stands is parked with the denied reason, as long as no release, no
restamp, no requeue hold and no confirmation is executed on a denied row. -/
theorem denial_durable (host : Host) (s₀ : Store) (c : Config Store Stmt)
    (h₀ : s₀.history = []) (h : (queueSystem host isGateOp).Reaches SparesDenied ⟨s₀, []⟩ c)
    (id : Text) (hden : DenialStands id c.store.history) :
    ∃ r ∈ c.store.queue.rows, r.id = id ∧ r.state = .parked ∧
      r.parkReason = some ALIGNMENT_DENIED_PARK_REASON := by
  have hstart : DenialsHold s₀ := by
    intro id hst
    rw [h₀] at hst
    exact hst.elim
  refine queue_invariant DenialsHold .refl hstart
    (fun q _ _ _ hop hq hC hs => hs.exec q hop hq hC) (fun s s' he hs id hst => ?_) h id hden
  rw [env_history he] at hst
  rw [env_queue he]
  exact hs id hst

/-! ## A denial that is overwritten -/

/-- A wake-up, a denial after it, a requeue and a claim: nothing moves the row. -/
def deniedThenWoken : List (System.Choice Store Stmt) :=
  solo plainHost (.denyAlignmentBrief "d".toList) 2 ++
    solo plainHost (.unparkDependents "w".toList "o/r#1".toList) 6 ++
    solo plainHost (.requeueParkedQueueEntry "w".toList "d".toList) 4 ++
    solo plainHost (.claimQueueEntry "w".toList) 6

/-- Nothing but reads, denials and claims. -/
def sparesParked ⦃β : Type⦄ (_ : List (Prog Stmt Unit)) (_ : Store) : Stmt β → Bool
  | .releaseParked _ _ => false
  | .restampParked _ _ => false
  | .holdForAlignment _ _ => false
  | .confirm _ => false
  | _ => true

theorem sparesParked_denied ⦃β : Type⦄ (others : List (Prog Stmt Unit)) (s : Store) (q : Stmt β)
    (h : sparesParked others s q) : SparesDenied others s q := by
  cases q <;> first | exact trivial | cases h

theorem deniedThenWoken_valid : ∀ choice ∈ deniedThenWoken,
    choice.Valid (queueSystem plainHost isGateOp) := by
  simp only [deniedThenWoken, List.mem_append]
  rintro choice (((h | h) | h) | h)
  all_goals exact solo_valid _ _ trivial choice h

theorem deniedThenWoken_history :
    ((queueSystem plainHost isGateOp).schedule deniedThenWoken ⟨dependentStore, []⟩).store.history =
      [.denied "d".toList] := by
  decide +kernel

theorem deniedThenWoken_reaches : (queueSystem plainHost isGateOp).Reaches SparesDenied
    ⟨dependentStore, []⟩
    ((queueSystem plainHost isGateOp).schedule deniedThenWoken ⟨dependentStore, []⟩) :=
  System.schedule_reaches _ deniedThenWoken _ deniedThenWoken_valid
    (System.meets_of_check _ sparesParked sparesParked_denied _ _ (by decide +kernel))

theorem denial_durable_woken : ∃ c : Config Store Stmt, DenialStands "d".toList c.store.history ∧
    ∃ r ∈ c.store.queue.rows, r.id = "d".toList ∧ r.state = .parked ∧
      r.parkReason = some ALIGNMENT_DENIED_PARK_REASON := by
  have hden : DenialStands "d".toList ((queueSystem plainHost isGateOp).schedule deniedThenWoken
      ⟨dependentStore, []⟩).store.history := by
    rw [deniedThenWoken_history]
    exact Or.inl rfl
  exact ⟨_, hden, denial_durable plainHost dependentStore _ rfl deniedThenWoken_reaches _ hden⟩

/-- The wake-up reads the row before the denial and releases it after. -/
def deniedMeanwhile : List (System.Choice Store Stmt) :=
  solo plainHost (.unparkDependents "w".toList "o/r#1".toList) 3 ++
    solo plainHost (.denyAlignmentBrief "d".toList) 2 ++ [.step 0]

theorem deniedMeanwhile_valid : ∀ choice ∈ deniedMeanwhile,
    choice.Valid (queueSystem plainHost isGateOp) := by
  simp only [deniedMeanwhile, List.mem_append, List.mem_singleton]
  rintro choice ((h | h) | rfl)
  · exact solo_valid _ _ trivial choice h
  · exact solo_valid _ _ trivial choice h
  · exact trivial

/-- A denied entry is released although nobody revised it. -/
theorem stale_release_drops_denial : ¬ ∀ (s₀ : Store) (c : Config Store Stmt), s₀.history = [] →
    (queueSystem plainHost isGateOp).Reaches System.Any ⟨s₀, []⟩ c →
    ∀ id, DenialStands id c.store.history →
      ∃ r ∈ c.store.queue.rows, r.id = id ∧ r.state = .parked ∧
        r.parkReason = some ALIGNMENT_DENIED_PARK_REASON := by
  intro hclaim
  obtain ⟨c, hrun, hhistory, hreleased⟩ : ∃ c : Config Store Stmt,
      (queueSystem plainHost isGateOp).Reaches System.Any ⟨dependentStore, []⟩ c ∧
        c.store.history = [.denied "d".toList] ∧ ∀ r ∈ c.store.queue.rows, r.state ≠ .parked :=
    ⟨(queueSystem plainHost isGateOp).schedule deniedMeanwhile ⟨dependentStore, []⟩,
      System.schedule_reaches _ deniedMeanwhile _ deniedMeanwhile_valid (System.meets_any _ _ _),
      by decide +kernel, by decide +kernel⟩
  have hden : DenialStands "d".toList c.store.history := by
    rw [hhistory]
    exact Or.inl rfl
  obtain ⟨r, hr, _, hstate, _⟩ := hclaim dependentStore c rfl hrun "d".toList hden
  exact hreleased r hr hstate

end Agentrail.Queue
