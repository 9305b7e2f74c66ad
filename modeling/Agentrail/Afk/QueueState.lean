import Mathlib.Data.Finset.Sort
import Agentrail.Guardrails.InputContract

/-!
# The execution state machine of an entry (`afk/queue_state.py`)

`admit` parks an entry on its blockers and releases it, the two alignment functions
lay the alignment gate over that, and `transition` takes an event.  What each of
them can do to an entry is said once: `admit_cases`, `release_eq` and `Fired`
(`transition_fired`).
-/

namespace Agentrail.AfkQueue

open Py

inductive Tier where
  | cheap
  | strong
  deriving DecidableEq, Repr

def Tier.value : Tier → Int
  | .cheap => 0
  | .strong => 1

/-- `Tier(value)`. -/
def Tier.ofValue (value : Int) : Except PyError Tier :=
  if value = 0 then .ok .cheap
  else if value = 1 then .ok .strong
  else .error (.valueError (toString value ++ " is not a valid Tier"))

def maxTier : Tier := .strong

inductive QueueState where
  | queued
  | parked
  | running
  deriving DecidableEq, Repr

inductive Terminal where
  | green
  | escalatedToHuman
  | blocked
  deriving DecidableEq, Repr

/-- The field `state`, which holds a `QueueState` or a `Terminal`. -/
inductive State where
  | live (state : QueueState)
  | terminal (state : Terminal)
  deriving DecidableEq, Repr

def isTerminal : State → Bool
  | .live _ => false
  | .terminal _ => true

structure QueueEntry where
  number : Nat
  tier : Tier := .cheap
  remainingBudget : Int := 2
  state : State := .live .queued
  blockedBy : Finset Nat := ∅
  reason : String := ""
  deriving DecidableEq

/-- The entry that the entrance gate made. -/
def QueueEntry.ofGate (gated : InputContract.QueueEntry) : QueueEntry where
  number := gated.number
  tier := if gated.tier = 0 then .cheap else .strong
  remainingBudget := gated.remainingBudget
  state :=
    match gated.state with
    | .queued => .live .queued
    | .parked => .live .parked
  blockedBy := gated.blockedBy.toFinset
  reason := gated.reason

inductive Event where
  | start
  | gateGreen
  | gateRed
  | securityBlock
  | refused
  deriving DecidableEq, Repr

/-! ## Admission -/

def unmetReason (blocked : Finset Nat) : String :=
  "blocked-by unmet dependency: " ++
    ", ".intercalate ((blocked.sort (· ≤ ·)).map fun n => "#" ++ toString n)

def admitEntry (entry : QueueEntry) (openBlockers : Finset Nat) : QueueEntry :=
  if isTerminal entry.state then entry
  else
    let unmet := entry.blockedBy ∩ openBlockers
    if unmet ≠ ∅ then { entry with state := .live .parked, reason := unmetReason unmet }
    else if entry.state = .live .parked ∧ entry.reason ≠ "" ∧ entry.blockedBy = ∅ then entry
    else { entry with state := .live .queued, reason := "" }

def alignmentParkReason : String := "awaiting alignment"

def alignmentDeniedParkReason : String := "alignment denied — open a new issue to try again"

def applyAdmissionAlignment (entry : QueueEntry) (aligned : Bool) : QueueEntry :=
  if aligned ∨ entry.state ≠ .live .queued then entry
  else { entry with state := .live .parked, reason := alignmentParkReason }

def releaseIfAligned (entry : QueueEntry) (openBlockers : Finset Nat) (aligned : Bool) :
    QueueEntry :=
  if entry.reason = alignmentDeniedParkReason then entry
  else
    let released := admitEntry entry openBlockers
    if released.state = .live .queued ∧ ¬ aligned then
      { released with state := .live .parked, reason := alignmentParkReason }
    else released

/-! ## Events -/

/-- A live state in a message, as Python 3.11 formats it. -/
def QueueState.text : QueueState → String
  | .queued => "QueueState.QUEUED"
  | .parked => "QueueState.PARKED"
  | .running => "QueueState.RUNNING"

def transition (entry : QueueEntry) (event : Event) : Except PyError QueueEntry :=
  match entry.state with
  | .terminal _ => .ok entry
  | .live .parked =>
    .error (.valueError ("entry #" ++ toString entry.number ++
      " is parked by an unmet blocked-by dependency; " ++
      "resolve it via admit() before attempting"))
  | .live state =>
    match event with
    | .start =>
      if state ≠ .queued then
        .error (.valueError ("cannot start entry #" ++ toString entry.number ++
          ": state is " ++ state.text))
      else .ok { entry with state := .live .running }
    | .gateGreen => .ok { entry with state := .terminal .green }
    | .securityBlock => .ok { entry with state := .terminal .escalatedToHuman }
    | .refused => .ok { entry with state := .terminal .escalatedToHuman }
    | .gateRed =>
      let remaining := entry.remainingBudget - 1
      if remaining ≤ 0 ∨ maxTier.value ≤ entry.tier.value then
        .ok { entry with
          remainingBudget := max remaining 0
          state := .terminal .escalatedToHuman }
      else
        (Tier.ofValue (entry.tier.value + 1)).map fun tier =>
          { entry with tier := tier, remainingBudget := remaining, state := .live .queued }

/-! ## What admission can do -/

theorem admit_terminal (entry : QueueEntry) (openBlockers : Finset Nat)
    (h : isTerminal entry.state) : admitEntry entry openBlockers = entry := by
  unfold admitEntry
  rw [if_pos h]

theorem admit_unmet (entry : QueueEntry) (openBlockers : Finset Nat)
    (h : isTerminal entry.state = false) (hunmet : entry.blockedBy ∩ openBlockers ≠ ∅) :
    admitEntry entry openBlockers = { entry with
      state := .live .parked
      reason := unmetReason (entry.blockedBy ∩ openBlockers) } := by
  unfold admitEntry
  rw [if_neg (by simp [h]), if_pos hunmet]

/-- A park with a reason is kept where the entry names no blockers. -/
theorem admit_keeps (entry : QueueEntry) (openBlockers : Finset Nat)
    (hstate : entry.state = .live .parked) (hreason : entry.reason ≠ "")
    (hblocked : entry.blockedBy = ∅) : admitEntry entry openBlockers = entry := by
  unfold admitEntry
  rw [if_neg (by simp [hstate, isTerminal]), if_neg (by simp [hblocked]),
    if_pos ⟨hstate, hreason, hblocked⟩]

theorem admit_cases (entry : QueueEntry) (openBlockers : Finset Nat) :
    admitEntry entry openBlockers = entry ∨
      isTerminal entry.state = false ∧ ∃ state reason, (state = .queued ∨ state = .parked) ∧
        admitEntry entry openBlockers = { entry with state := .live state, reason := reason } := by
  by_cases hterminal : isTerminal entry.state
  · exact .inl (admit_terminal entry openBlockers hterminal)
  rw [Bool.not_eq_true] at hterminal
  by_cases hunmet : entry.blockedBy ∩ openBlockers ≠ ∅
  · exact .inr ⟨hterminal, .parked, _, .inr rfl, admit_unmet entry openBlockers hterminal hunmet⟩
  by_cases hkept : entry.state = .live .parked ∧ entry.reason ≠ "" ∧ entry.blockedBy = ∅
  · exact .inl (admit_keeps entry openBlockers hkept.1 hkept.2.1 hkept.2.2)
  refine .inr ⟨hterminal, .queued, "", .inl rfl, ?_⟩
  unfold admitEntry
  rw [if_neg (by simp [hterminal]), if_neg hunmet, if_neg hkept]

/-- An admission leaves no entry running. -/
theorem admit_running (entry : QueueEntry) (openBlockers : Finset Nat) :
    (admitEntry entry openBlockers).state ≠ .live .running := by
  unfold admitEntry
  split
  · rename_i hterminal
    intro hrunning
    rw [hrunning] at hterminal
    cases hterminal
  · dsimp only
    split
    · nofun
    · split
      · rename_i hkept
        rw [hkept.1]
        nofun
      · nofun

/-- An entry with blockers is queued by an admission or parked on them. -/
theorem admit_blocked (entry : QueueEntry) (openBlockers : Finset Nat)
    (hterminal : isTerminal entry.state = false) (hblocked : entry.blockedBy ≠ ∅) :
    (admitEntry entry openBlockers).state = .live .queued ∨
      ∃ blocked, (admitEntry entry openBlockers).reason = unmetReason blocked := by
  by_cases hunmet : entry.blockedBy ∩ openBlockers ≠ ∅
  · rw [admit_unmet entry openBlockers hterminal hunmet]
    exact .inr ⟨_, rfl⟩
  · refine .inl ?_
    unfold admitEntry
    rw [if_neg (by simp [hterminal]), if_neg hunmet, if_neg (fun h => hblocked h.2.2)]

theorem applyAdmissionAlignment_parked (entry : QueueEntry) (aligned : Bool)
    (h : entry.state = .live .parked) : applyAdmissionAlignment entry aligned = entry := by
  unfold applyAdmissionAlignment
  exact if_pos (.inr (by simp [h]))

/-- A release is the admission, or the wait for an alignment. -/
theorem releaseIfAligned_eq (entry : QueueEntry) (openBlockers : Finset Nat) (aligned : Bool)
    (h : entry.reason ≠ alignmentDeniedParkReason) :
    releaseIfAligned entry openBlockers aligned =
      applyAdmissionAlignment (admitEntry entry openBlockers) aligned := by
  unfold releaseIfAligned applyAdmissionAlignment
  rw [if_neg h]
  by_cases hstate : (admitEntry entry openBlockers).state = .live .queued <;>
    by_cases haligned : aligned <;> simp [hstate, haligned]

/-! ## What an event can do -/

/-- The entry after an event that was not refused. -/
inductive Fired (entry : QueueEntry) : Event → QueueEntry → Prop
  | frozen (event : Event) (h : isTerminal entry.state) : Fired entry event entry
  | started (h : entry.state = .live .queued) :
      Fired entry .start { entry with state := .live .running }
  | green (h : entry.state = .live .queued ∨ entry.state = .live .running) :
      Fired entry .gateGreen { entry with state := .terminal .green }
  | stopped (event : Event) (hevent : event = .securityBlock ∨ event = .refused)
      (h : entry.state = .live .queued ∨ entry.state = .live .running) :
      Fired entry event { entry with state := .terminal .escalatedToHuman }
  | exhausted (h : entry.state = .live .queued ∨ entry.state = .live .running) :
      Fired entry .gateRed { entry with
        remainingBudget := max (entry.remainingBudget - 1) 0
        state := .terminal .escalatedToHuman }
  | escalated (h : entry.state = .live .queued ∨ entry.state = .live .running)
      (htier : entry.tier = .cheap) (hbudget : 1 < entry.remainingBudget) :
      Fired entry .gateRed { entry with
        tier := .strong
        remainingBudget := entry.remainingBudget - 1
        state := .live .queued }

theorem transition_fired (entry next : QueueEntry) (event : Event)
    (h : transition entry event = .ok next) : Fired entry event next := by
  unfold transition at h
  cases hstate : entry.state with
  | terminal state =>
    simp only [hstate, Except.ok.injEq] at h
    subst h
    exact .frozen event (by rw [hstate]; rfl)
  | live state =>
    have hlive : state ≠ .parked → entry.state = .live .queued ∨ entry.state = .live .running := by
      rw [hstate]
      cases state <;> simp
    cases state with
    | parked =>
      simp only [hstate] at h
      cases h
    | _ =>
      have hgrabbed := hlive nofun
      cases event with
      | start =>
        simp only [hstate] at h
        split at h
        · cases h
        · cases h
          exact .started (by simp_all)
      | gateGreen =>
        simp only [hstate, Except.ok.injEq] at h
        subst h
        exact .green hgrabbed
      | securityBlock =>
        simp only [hstate, Except.ok.injEq] at h
        subst h
        exact .stopped _ (.inl rfl) hgrabbed
      | refused =>
        simp only [hstate, Except.ok.injEq] at h
        subst h
        exact .stopped _ (.inr rfl) hgrabbed
      | gateRed =>
        simp only [hstate] at h
        split at h
        · cases h
          exact .exhausted hgrabbed
        · cases htier : entry.tier with
          | cheap =>
            simp only [htier] at h
            cases h
            exact .escalated hgrabbed htier (by omega)
          | strong => simp_all [maxTier]

end Agentrail.AfkQueue
