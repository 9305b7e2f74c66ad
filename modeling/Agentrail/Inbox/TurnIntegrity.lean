import Agentrail.Inbox.ChannelInbox

/-!
# Finished turns of the inbox

`done` and `dead` are where a message ends.  Neither completing nor failing asks
who holds the message, so a worker whose claim was taken back can fail a message
that another one finished, and the turn runs again (`slow_worker_requeues_done`).
`finished_turn_stays`: without such a failure a finished message is neither
queued nor processing again until someone requeues it from the dead letters.
-/

namespace Agentrail.Inbox

open Js Interleaving

def Finished (state : InboxState) : Prop := state = .done ∨ state = .dead

/-- A failure recorded for a finished message is its last, and the message `id` is not requeued
from the dead letters. -/
def SparesFinished (id : Text) ⦃β : Type⦄ (_ : List (Prog Stmt Unit)) (s : Store) : Stmt β → Prop
  | .recordFailure i _ decision _ => ∀ r ∈ s.inbox.rows, r.id = i → Finished r.state →
      decision = .dead
  | .requeueDead _ i => i ≠ id
  | _ => True

/-- A row that is written keeps a finished state. -/
theorem Writes.finished {β : Type} {q : Stmt β} {s : Store} {r r' : ChannelInboxRow} {id : Text}
    {others : List (Prog Stmt Unit)} (h : Writes q s r r') (hmem : r ∈ s.inbox.rows)
    (hC : SparesFinished id others s q) (hid : r.id = id) (hfin : Finished r.state) :
    Finished r'.state := by
  cases h with
  | @claimNext limit scan _ _ hclaim =>
    have hwhere := (nextClaim_mem s limit scan r hclaim).2
    unfold Store.claimable at hwhere
    simp only [Bool.and_eq_true, decide_eq_true_eq] at hwhere
    rcases hfin with h | h <;> rw [hwhere.1.1.1] at h <;> cases h
  | complete => exact Or.inl rfl
  | @recordFailure _ decision _ _ _ =>
    have hdead : decision = .dead := hC r hmem rfl hfin
    rw [hdead]
    exact Or.inr rfl
  | reclaimStale hstale =>
    unfold isStaleProcessing at hstale
    simp only [Bool.and_eq_true, decide_eq_true_eq] at hstale
    rcases hfin with h | h <;> rw [hstale.1] at h <;> cases h
  | requeueDead => exact absurd hid hC
  | stampWorkspace => exact hfin

/-- **Finished turns stay finished.** Whatever runs, from the moment a message is done or dead it
is neither queued nor processing again, as long as no failure with retries left is recorded for a
finished message and the message is not requeued from the dead letters. -/
theorem finished_turn_stays (id : Text) (c c' : Config Store Stmt)
    (h : inboxSystem.Reaches (SparesFinished id) c c') (r r' : ChannelInboxRow)
    (hr : r ∈ c.store.inbox.rows) (hid : r.id = id) (hfin : Finished r.state)
    (hr' : r' ∈ c'.store.inbox.rows) (hid' : r'.id = id) :
    r'.state ≠ .queued ∧ r'.state ≠ .processing := by
  obtain ⟨x, hx, hxid, hxfin⟩ := row_invariant (fun x => Finished x.state) id
    (fun q others s x x' hC hmem hw => hw.finished hmem hC) h ⟨r, hr, hid, hfin⟩
  obtain rfl := c'.store.inbox.eq_of_id x r' hx hr' (hxid.trans hid'.symm)
  rcases hxfin with h | h <;> rw [h] <;> exact ⟨nofun, nofun⟩

/-! ## A slow worker -/

/-- One worker claims the message and goes silent; after the staleness window another one takes it
over and completes it.  The turn of the first is going to end with `late`. -/
def untilDone (late : TurnOutcome) : List (System.Choice Store Stmt) :=
  solo (.enqueue (message "1") "m".toList) 3 ++
    .start (opProgram (.dispatchNext (fun _ => 0) late)) :: .step 0 :: wait 900000001 ::
    solo .reclaimStale 2 ++ solo (.dispatchNext (fun _ => 0) .completed) 3

/-- Then it ends. -/
def lateEnd : List (System.Choice Store Stmt) := List.replicate 3 (.step 0)

theorem untilDone_valid (late : TurnOutcome) :
    ∀ choice ∈ untilDone late, choice.Valid inboxSystem := by
  unfold untilDone
  simp only [List.mem_append, List.mem_cons]
  rintro choice ((h | rfl | rfl | rfl | h) | h)
  · exact solo_valid _ _ choice h
  · exact ⟨_, rfl⟩
  · exact trivial
  · exact wait_valid _
  · exact solo_valid _ _ choice h
  · exact solo_valid _ _ choice h

theorem lateEnd_valid : ∀ choice ∈ lateEnd, choice.Valid inboxSystem := by
  intro choice hc
  rw [List.eq_of_mem_replicate hc]
  exact trivial

/-- The message is done, while the first turn still runs. -/
def done (late : TurnOutcome) : Config Store Stmt :=
  inboxSystem.schedule (untilDone late) ⟨emptyInbox, []⟩

theorem exists_message (c : Config Store Stmt) (state : InboxState)
    (h : c.store.inbox.rows.map (fun r => (r.id, r.state)) = [("m".toList, state)]) :
    ∃ r ∈ c.store.inbox.rows, r.id = "m".toList ∧ r.state = state := by
  obtain ⟨r, hr, hrid⟩ : ∃ r ∈ c.store.inbox.rows, (r.id, r.state) = ("m".toList, state) :=
    List.mem_map.mp (h ▸ List.mem_cons_self)
  exact ⟨r, hr, Prod.mk.inj hrid⟩

/-- No failure is recorded and nothing is requeued. -/
def recordsNoFailure ⦃β : Type⦄ (_ : List (Prog Stmt Unit)) (_ : Store) : Stmt β → Bool
  | .recordFailure _ _ _ _ => false
  | .requeueDead _ _ => false
  | _ => true

theorem recordsNoFailure_spares (id : Text) ⦃β : Type⦄ (others : List (Prog Stmt Unit)) (s : Store)
    (q : Stmt β) (h : recordsNoFailure others s q) : SparesFinished id others s q := by
  cases q <;> first | exact trivial | cases h

/-- A late completion of the first turn leaves the message done. -/
theorem finished_turn_stays_completed : ∃ c : Config Store Stmt,
    c.store.inbox.rows.map (fun r => (r.id, r.state)) = [("m".toList, .done)] ∧
    ∀ r ∈ c.store.inbox.rows, r.id = "m".toList → r.state ≠ .queued ∧ r.state ≠ .processing := by
  have hrun : inboxSystem.Reaches (SparesFinished "m".toList) (done .completed)
      (inboxSystem.schedule lateEnd (done .completed)) :=
    inboxSystem.schedule_reaches lateEnd _ lateEnd_valid
      (inboxSystem.meets_of_check recordsNoFailure (recordsNoFailure_spares _) _ _
        (by decide +kernel))
  obtain ⟨r, hr, hid, hstate⟩ := exists_message (done .completed) .done (by decide +kernel)
  refine ⟨inboxSystem.schedule lateEnd (done .completed), by decide +kernel, fun r' hr' hid' => ?_⟩
  exact finished_turn_stays "m".toList _ _ hrun r r' hr hid (Or.inl hstate) hr' hid'

/-- The message is not requeued from the dead letters. -/
def NoRequeue (id : Text) ⦃β : Type⦄ (_ : List (Prog Stmt Unit)) (_ : Store) : Stmt β → Prop
  | .requeueDead _ i => i ≠ id
  | _ => True

def requeuesNothing ⦃β : Type⦄ (_ : List (Prog Stmt Unit)) (_ : Store) : Stmt β → Bool
  | .requeueDead _ _ => false
  | _ => true

theorem requeuesNothing_noRequeue (id : Text) ⦃β : Type⦄ (others : List (Prog Stmt Unit))
    (s : Store) (q : Stmt β) (h : requeuesNothing others s q) : NoRequeue id others s q := by
  cases q <;> first | exact trivial | cases h

/-- A completed message is queued again after a late failure of its first turn. -/
theorem slow_worker_requeues_done : ¬ ∀ (id : Text) (s₀ : Store) (c c' : Config Store Stmt),
    inboxSystem.Reaches System.Any ⟨s₀, []⟩ c → inboxSystem.Reaches (NoRequeue id) c c' →
    ∀ r ∈ c.store.inbox.rows, r.id = id → Finished r.state →
      ∀ r' ∈ c'.store.inbox.rows, r'.id = id → r'.state ≠ .queued ∧ r'.state ≠ .processing := by
  intro hclaim
  let late := TurnOutcome.failed "timeout".toList
  have hdone : inboxSystem.Reaches System.Any ⟨emptyInbox, []⟩ (done late) :=
    inboxSystem.schedule_reaches _ _ (untilDone_valid late) (inboxSystem.meets_any _ _)
  have hlate : inboxSystem.Reaches (NoRequeue "m".toList) (done late)
      (inboxSystem.schedule lateEnd (done late)) :=
    inboxSystem.schedule_reaches lateEnd _ lateEnd_valid
      (inboxSystem.meets_of_check requeuesNothing (requeuesNothing_noRequeue _) _ _
        (by decide +kernel))
  obtain ⟨r, hr, hid, hstate⟩ := exists_message (done late) .done (by decide +kernel)
  obtain ⟨r', hr', hid', hstate'⟩ := exists_message
    (inboxSystem.schedule lateEnd (done late)) .queued (by decide +kernel)
  exact (hclaim "m".toList emptyInbox _ _ hdone hlate r hr hid (Or.inl hstate) r' hr' hid').1 hstate'

end Agentrail.Inbox
