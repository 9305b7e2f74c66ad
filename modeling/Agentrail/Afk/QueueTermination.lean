import Agentrail.Afk.QueueState
import Agentrail.Lib.Runs

/-!
# How long an entry lives

The steps of an entry are its events and its admissions; a refused event leaves it as
it is.  Budget and tier only move towards the end, and a terminal entry stays.  What
does not run out is the way back from `running` that an admission takes, so the
events are counted against these (`charged`), and those beyond `START` alone
(`charged_attempts`).

Main results:

* `entry_lifetime`: what holds along every infinite sequence of steps.
* `admission_never_settles`: admissions alone can move an entry for ever.
-/

namespace Agentrail.AfkQueue

inductive Step where
  | event (event : Event)
  | admission (openBlockers : Finset Nat)
  deriving DecidableEq

def advance (entry : QueueEntry) : Step → QueueEntry
  | .event event => (transition entry event).toOption.getD entry
  | .admission openBlockers => admitEntry entry openBlockers

/-- The entry before step `n`. -/
def life (entry : QueueEntry) (steps : ℕ → Step) : ℕ → QueueEntry
  | 0 => entry
  | n + 1 => advance (life entry steps n) (steps n)

def Step.isEvent : Step → Bool
  | .event _ => true
  | .admission _ => false

/-- An event other than `START`. -/
def Step.isOutcome : Step → Bool
  | .event .start => false
  | .event _ => true
  | .admission _ => false

/-! ## One step -/

/-- An event is refused, falls on a terminal entry or fires. -/
theorem advance_event (entry : QueueEntry) (event : Event) :
    advance entry (.event event) = entry ∨
      isTerminal entry.state = false ∧ Fired entry event (advance entry (.event event)) := by
  cases h : transition entry event with
  | error e =>
    left
    simp [advance, h, Except.toOption]
  | ok next =>
    have hnext : advance entry (.event event) = next := by simp [advance, h, Except.toOption]
    rw [hnext]
    cases hterminal : isTerminal entry.state with
    | false => exact .inr ⟨rfl, transition_fired entry next event h⟩
    | true =>
      left
      cases hstate : entry.state with
      | live state => simp [hstate, isTerminal] at hterminal
      | terminal state =>
        simp only [transition, hstate, Except.ok.injEq] at h
        exact h.symm

theorem advance_terminal (entry : QueueEntry) (step : Step) (h : isTerminal entry.state) :
    advance entry step = entry := by
  cases step with
  | admission openBlockers => exact admit_terminal entry openBlockers h
  | event event =>
    refine (advance_event entry event).resolve_right ?_
    rintro ⟨hlive, -⟩
    rw [h] at hlive
    cases hlive

/-- No step gives budget back, takes it below zero or lowers the tier. -/
theorem advance_monotone (entry : QueueEntry) (step : Step) (h : 0 ≤ entry.remainingBudget) :
    0 ≤ (advance entry step).remainingBudget ∧
      (advance entry step).remainingBudget ≤ entry.remainingBudget ∧
      entry.tier.value ≤ (advance entry step).tier.value := by
  cases step with
  | admission openBlockers =>
    rcases admit_cases entry openBlockers with hkept | ⟨-, state, reason, -, hadmitted⟩
    · simp [advance, hkept, h]
    · simp [advance, hadmitted, h]
  | event event =>
    rcases advance_event entry event with hkept | ⟨-, hfired⟩
    · simp [hkept, h]
    · generalize advance entry (.event event) = next at hfired
      cases hfired with
      | frozen | started | green | stopped => exact ⟨h, le_refl _, le_refl _⟩
      | exhausted =>
        refine ⟨le_max_right _ _, ?_, le_refl _⟩
        show max (entry.remainingBudget - 1) 0 ≤ entry.remainingBudget
        omega
      | escalated _ htier hbudget =>
        refine ⟨?_, ?_, ?_⟩
        · show 0 ≤ entry.remainingBudget - 1
          omega
        · show entry.remainingBudget - 1 ≤ entry.remainingBudget
          omega
        · show entry.tier.value ≤ Tier.strong.value
          rw [htier]
          decide

/-- Green comes from `GATE_GREEN`, on an entry that is not parked. -/
theorem advance_green (entry : QueueEntry) (step : Step)
    (hbefore : entry.state ≠ .terminal .green)
    (hafter : (advance entry step).state = .terminal .green) :
    step = .event .gateGreen ∧ (entry.state = .live .queued ∨ entry.state = .live .running) := by
  cases step with
  | admission openBlockers =>
    exfalso
    rcases admit_cases entry openBlockers with hkept | ⟨-, state, reason, -, hadmitted⟩
    · refine hbefore ?_
      rw [← hafter]
      exact congrArg QueueEntry.state hkept.symm
    · simp [advance, hadmitted] at hafter
  | event event =>
    rcases advance_event entry event with hkept | ⟨-, hfired⟩
    · rw [hkept] at hafter
      exact absurd hafter hbefore
    · generalize advance entry (.event event) = next at hfired hafter
      cases hfired with
      | frozen => exact absurd hafter hbefore
      | started | stopped | exhausted | escalated => simp at hafter
      | green hlive => exact ⟨rfl, hlive⟩

/-! ## What the events use up -/

/-- The tiers that an entry can still fail on. -/
def Tier.attempts : Tier → ℕ
  | .cheap => 2
  | .strong => 1

def attemptsLeft (entry : QueueEntry) : ℕ :=
  if isTerminal entry.state then 0 else entry.tier.attempts

/-- Every attempt is a start and an outcome. -/
def eventsLeft (entry : QueueEntry) : ℕ :=
  2 * attemptsLeft entry - (if entry.state = .live .running then 1 else 0)

/-- An admission takes the entry back from `running`. -/
def withdraws (entry : QueueEntry) : Step → Bool
  | .admission _ => entry.state = .live .running
  | .event _ => false

theorem attemptsLeft_pos (entry : QueueEntry) (h : isTerminal entry.state = false) :
    0 < attemptsLeft entry := by
  unfold attemptsLeft
  rw [h]
  cases entry.tier <;> decide

theorem attemptsLeft_le (entry : QueueEntry) : attemptsLeft entry ≤ 2 := by
  unfold attemptsLeft
  split
  · omega
  · cases entry.tier <;> decide

/-- A move between the live states costs no attempt. -/
theorem attemptsLeft_live (entry : QueueEntry) (state : QueueState) (reason : String)
    (h : isTerminal entry.state = false) :
    attemptsLeft { entry with state := .live state, reason := reason } = attemptsLeft entry := by
  unfold attemptsLeft
  rw [h]
  rfl

theorem Fired.attempts {entry next : QueueEntry} {event : Event} (h : Fired entry event next)
    (hlive : isTerminal entry.state = false) :
    attemptsLeft next + (if event = .start then 0 else 1) ≤ attemptsLeft entry := by
  have hpos := attemptsLeft_pos entry hlive
  cases h with
  | frozen _ hterminal => simp [hlive] at hterminal
  | started => exact (attemptsLeft_live entry .running entry.reason hlive).le
  | green => exact hpos
  | stopped _ hevent =>
    rcases hevent with rfl | rfl
    · exact hpos
    · exact hpos
  | exhausted => exact hpos
  | escalated _ htier =>
    unfold attemptsLeft
    rw [hlive, htier]
    exact le_refl 2

/-- A start turns a queued entry into a running one; every other event costs an attempt. -/
theorem Fired.events {entry next : QueueEntry} {event : Event} (h : Fired entry event next)
    (hlive : isTerminal entry.state = false) : eventsLeft next + 1 ≤ eventsLeft entry := by
  have hpos := attemptsLeft_pos entry hlive
  have hspent := h.attempts hlive
  unfold eventsLeft
  by_cases hstart : event = .start
  · cases h with
    | frozen _ hterminal => simp [hlive] at hterminal
    | started hqueued =>
      rw [if_pos rfl] at hspent
      rw [if_pos rfl, hqueued, if_neg (by decide)]
      omega
    | green | exhausted | escalated => cases hstart
    | stopped _ hevent =>
      subst hstart
      rcases hevent with h | h <;> cases h
  · rw [if_neg hstart] at hspent
    split <;> split <;> omega

theorem attempts_charged (entry : QueueEntry) (step : Step) :
    attemptsLeft (advance entry step) +
      (if step.isOutcome ∧ advance entry step ≠ entry then 1 else 0) ≤ attemptsLeft entry := by
  cases step with
  | admission openBlockers =>
    rw [if_neg (by simp [Step.isOutcome]), Nat.add_zero]
    rcases admit_cases entry openBlockers with hkept | ⟨hlive, state, reason, -, hadmitted⟩
    · exact (congrArg attemptsLeft hkept).le
    · show attemptsLeft (admitEntry entry openBlockers) ≤ _
      rw [hadmitted]
      exact (attemptsLeft_live entry state reason hlive).le
  | event event =>
    rcases advance_event entry event with hkept | ⟨hlive, hfired⟩
    · simp [hkept]
    · have hspent := hfired.attempts hlive
      cases event with
      | start => simpa [Step.isOutcome] using hspent
      | _ =>
        rw [if_neg nofun] at hspent
        split <;> omega

theorem events_charged (entry : QueueEntry) (step : Step) :
    eventsLeft (advance entry step) +
        (if step.isEvent ∧ advance entry step ≠ entry then 1 else 0) ≤
      eventsLeft entry + (if withdraws entry step then 1 else 0) := by
  cases step with
  | admission openBlockers =>
    rw [if_neg (by simp [Step.isEvent]), Nat.add_zero]
    rcases admit_cases entry openBlockers with hkept | ⟨hlive, state, reason, hstate, hadmitted⟩
    · exact (congrArg eventsLeft hkept).le.trans (Nat.le_add_right _ _)
    · have hleft := attemptsLeft_live entry state reason hlive
      have hpos := attemptsLeft_pos entry hlive
      show eventsLeft (admitEntry entry openBlockers) ≤ _
      rw [hadmitted]
      have hrunning :
          withdraws entry (.admission openBlockers) = decide (entry.state = .live .running) :=
        rfl
      unfold eventsLeft
      rw [hleft, hrunning]
      by_cases hstill : entry.state = .live .running
      · rw [if_pos hstill, if_pos (decide_eq_true hstill)]
        omega
      · rw [if_neg hstill]
        omega
  | event event =>
    rcases advance_event entry event with hkept | ⟨hlive, hfired⟩
    · simp [hkept]
    · have hspent := hfired.events hlive
      split <;> omega

/-! ## Infinite sequences of steps -/

section
variable (entry : QueueEntry) (steps : ℕ → Step)

/-- Step `n` changes the entry. -/
def Changes (n : ℕ) : Prop := life entry steps (n + 1) ≠ life entry steps n

instance decidableChanges (n : ℕ) : Decidable (Changes entry steps n) :=
  inferInstanceAs (Decidable (life entry steps (n + 1) ≠ life entry steps n))

theorem life_terminal (n : ℕ) (h : isTerminal (life entry steps n).state) (k : ℕ) :
    life entry steps (n + k) = life entry steps n := by
  induction k with
  | zero => rfl
  | succ k ih =>
    show advance (life entry steps (n + k)) (steps (n + k)) = _
    rw [ih]
    exact advance_terminal _ _ h

theorem life_budget (h : 0 ≤ entry.remainingBudget) (n : ℕ) :
    0 ≤ (life entry steps n).remainingBudget := by
  induction n with
  | zero => exact h
  | succ n ih => exact (advance_monotone _ (steps n) ih).1

theorem outcomes_bounded (n : ℕ) :
    ((Finset.range n).filter fun k => (steps k).isOutcome ∧ Changes entry steps k).card ≤ 2 := by
  have hcharged : Runs.Charged (fun k => attemptsLeft (life entry steps k))
      (fun k => (steps k).isOutcome ∧ Changes entry steps k) (fun _ => False) := by
    intro k
    rw [if_neg not_false, Nat.add_zero]
    exact attempts_charged (life entry steps k) (steps k)
  have hspent := Runs.spent_le hcharged n
  rw [Finset.filter_false, Finset.card_empty, Nat.add_zero] at hspent
  exact hspent.trans (attemptsLeft_le entry)

theorem events_charged_life : Runs.Charged (fun k => eventsLeft (life entry steps k))
    (fun k => (steps k).isEvent ∧ Changes entry steps k)
    (fun k => withdraws (life entry steps k) (steps k)) :=
  fun k => events_charged (life entry steps k) (steps k)

theorem events_bounded (n : ℕ) :
    ((Finset.range n).filter fun k => (steps k).isEvent ∧ Changes entry steps k).card ≤
      4 + ((Finset.range n).filter fun k => withdraws (life entry steps k) (steps k)).card := by
  have hspent := Runs.spent_le (events_charged_life entry steps) n
  have hinitial : eventsLeft entry ≤ 4 := by
    have := attemptsLeft_le entry
    unfold eventsLeft
    omega
  exact hspent.trans (Nat.add_le_add_right hinitial _)

/-- A withdrawal is an admission that changes the entry. -/
theorem changes_of_withdraws (n : ℕ) (h : withdraws (life entry steps n) (steps n)) :
    (steps n).isEvent = false ∧ Changes entry steps n := by
  unfold Changes
  show _ ∧ advance (life entry steps n) (steps n) ≠ _
  cases hstep : steps n with
  | event event =>
    rw [hstep] at h
    cases h
  | admission openBlockers =>
    rw [hstep] at h
    have hrunning : (life entry steps n).state = .live .running := of_decide_eq_true h
    refine ⟨rfl, ?_⟩
    intro hkept
    refine admit_running (life entry steps n) openBlockers ?_
    rw [← hrunning]
    exact congrArg QueueEntry.state hkept

theorem changes_finite
    (hadmissions : {n | (steps n).isEvent = false ∧ Changes entry steps n}.Finite) :
    {n | Changes entry steps n}.Finite := by
  have hwithdrawals : {n | withdraws (life entry steps n) (steps n)}.Finite :=
    hadmissions.subset (changes_of_withdraws entry steps)
  have hevents := Runs.finite_spends (events_charged_life entry steps) hwithdrawals
  refine (hevents.union hadmissions).subset ?_
  intro n hn
  cases hstep : (steps n).isEvent with
  | true => exact .inl ⟨hstep, hn⟩
  | false => exact .inr ⟨hstep, hn⟩

end

/-- **The life of an entry.** Along every infinite sequence of steps from a budget that is not
negative. -/
theorem entry_lifetime (entry : QueueEntry) (hbudget : 0 ≤ entry.remainingBudget)
    (steps : ℕ → Step) :
    (∀ n, 0 ≤ (life entry steps n).remainingBudget ∧
      (life entry steps (n + 1)).remainingBudget ≤ (life entry steps n).remainingBudget ∧
      (life entry steps n).tier.value ≤ (life entry steps (n + 1)).tier.value) ∧
    (∀ n, isTerminal (life entry steps n).state → ∀ k,
      life entry steps (n + k) = life entry steps n) ∧
    (∀ n, (life entry steps n).state ≠ .terminal .green →
      (life entry steps (n + 1)).state = .terminal .green →
      steps n = .event .gateGreen ∧ ((life entry steps n).state = .live .queued ∨
        (life entry steps n).state = .live .running)) ∧
    (∀ n, ((Finset.range n).filter fun k =>
      (steps k).isOutcome ∧ Changes entry steps k).card ≤ 2) ∧
    (∀ n, ((Finset.range n).filter fun k => (steps k).isEvent ∧ Changes entry steps k).card ≤
      4 + ((Finset.range n).filter fun k => withdraws (life entry steps k) (steps k)).card) ∧
    ({n | (steps n).isEvent = false ∧ Changes entry steps n}.Finite →
      {n | Changes entry steps n}.Finite) := by
  refine ⟨fun n => ?_, life_terminal entry steps, fun n => ?_, outcomes_bounded entry steps,
    events_bounded entry steps, changes_finite entry steps⟩
  · have hn := life_budget entry steps hbudget n
    exact ⟨hn, (advance_monotone _ (steps n) hn).2⟩
  · exact advance_green (life entry steps n) (steps n)

/-! ## Admissions alone -/

/-- The blocker of an entry opens and closes again. -/
def flapping (n : ℕ) : Step := if n % 2 = 0 then .admission {7} else .admission ∅

def flapped : QueueEntry := { number := 1, blockedBy := {7} }

theorem entry_lifetime_flapped :
    0 ≤ flapped.remainingBudget ∧ 0 ≤ (life flapped flapping 5).remainingBudget ∧
      ((Finset.range 5).filter fun k => (flapping k).isEvent ∧ Changes flapped flapping k).card ≤
        4 + ((Finset.range 5).filter fun k => withdraws (life flapped flapping k) (flapping k)).card :=
  have h := entry_lifetime flapped (by decide) flapping
  ⟨by decide, (h.1 5).1, h.2.2.2.2.1 5⟩

theorem life_flapped (k : ℕ) :
    life flapped flapping (2 * k) = flapped ∧
      (life flapped flapping (2 * k + 1)).state = .live .parked := by
  have hopen : ∀ k, flapping (2 * k) = .admission {7} := by
    intro k
    unfold flapping
    rw [if_pos (by omega)]
  have hclosed : ∀ k, flapping (2 * k + 1) = .admission ∅ := by
    intro k
    unfold flapping
    rw [if_neg (by omega)]
  have hparked : admitEntry flapped {7} =
      { flapped with state := .live .parked, reason := unmetReason {7} } :=
    admit_unmet flapped {7} rfl (by decide)
  induction k with
  | zero =>
    refine ⟨rfl, ?_⟩
    show (admitEntry flapped {7}).state = _
    rw [hparked]
  | succ k ih =>
    have heven : life flapped flapping (2 * (k + 1)) = flapped := by
      show advance (advance (life flapped flapping (2 * k)) (flapping (2 * k)))
        (flapping (2 * k + 1)) = flapped
      rw [ih.1, hopen, hclosed]
      show admitEntry (admitEntry flapped {7}) ∅ = flapped
      rw [hparked]
      rfl
    refine ⟨heven, ?_⟩
    show (advance (life flapped flapping (2 * (k + 1))) (flapping (2 * (k + 1)))).state = _
    rw [heven, hopen]
    show (admitEntry flapped {7}).state = _
    rw [hparked]

/-- Every step changes the entry.  Green also comes from the queue, and a negative budget goes
up to zero. -/
theorem admission_never_settles :
    {n | Changes flapped flapping n}.Infinite ∧
      (transition { number := 1 } .gateGreen).toOption =
        some { number := 1, state := .terminal .green } ∧
      (transition { number := 1, remainingBudget := -5 } .gateRed).toOption =
        some { number := 1, remainingBudget := 0, state := .terminal .escalatedToHuman } := by
  refine ⟨?_, by decide, by decide⟩
  have hall : ∀ n, n ∈ {n | Changes flapped flapping (2 * n)} := by
    intro n hsame
    have hstate := congrArg QueueEntry.state hsame
    rw [(life_flapped n).2, (life_flapped n).1] at hstate
    cases hstate
  refine Set.infinite_of_injective_forall_mem (f := fun n => 2 * n) ?_ hall
  intro a b hab
  have hdouble : 2 * a = 2 * b := hab
  omega

end Agentrail.AfkQueue
