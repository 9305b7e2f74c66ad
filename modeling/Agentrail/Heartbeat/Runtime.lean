import Mathlib.Algebra.Order.Ring.Rat
import Agentrail.Afk.QueueState
import Agentrail.Py.Re

/-!
# The drain of the heartbeat (`agentrail/heartbeat/runtime.py`)

`_drain` takes the oldest queued row, `_dispatch_one` runs it through the escalation
loop under the budget leash (`run/budget_leash.py`, `run/routing.py`,
`run/compaction.py`), and the store keeps what `transition` returns.  A sweep is the
store with what happened to its rows: every sandbox run with the state that was
stored while it ran, and every return of `_dispatch_one`.

Main results:

* `drain_ends`: a drain comes to an end.
* `leash_holds_iff`: the leash holds for every entry exactly when each queued entry is
  settled by its first result.
* `run_past_limit`: with an attempt limit of one, an entry is run twice.
-/

namespace Agentrail.Heartbeat

open Py AfkQueue

structure RunResult where
  status : Text
  costUsd : Rat := 0
  branch : Text := []
  gateReason : Text := []
  deriving DecidableEq

/-- What a call of the sandbox does. -/
inductive Outcome where
  | returned (result : RunResult)
  | raised (message : Text) (costUsd : Rat)

/-- The result of a call; one that raises counts as an error with its cost. -/
def Outcome.result : Outcome → RunResult
  | .returned result => result
  | .raised message costUsd =>
    { status := "error".toList
      costUsd := costUsd
      gateReason := "sandbox crashed: ".toList ++ message }

def hostedRefusalPrefix : Text := "hosted-refusal: ".toList

/-- `_event_for`: a refusal first, then the map of the statuses. -/
def eventFor (result : RunResult) : Event :=
  if hostedRefusalPrefix.isPrefixOf result.gateReason then .refused
  else if result.status = "green".toList then .gateGreen
  else .gateRed

/-! ## The leash, the ladder and the handoff -/

inductive Decision where
  | continue
  | escalate
  | stopToHuman
  deriving DecidableEq

/-- `budget_leash.check`; dollars are rational numbers. -/
def check (spent : Rat) (attempts : Nat) (ceiling : Rat) (attemptLimit : Int) (gateRed : Bool) :
    Except PyError Decision :=
  if attemptLimit < 1 then
    .error (.valueError ("attempt_limit must be >= 1, got " ++ toString attemptLimit))
  else if spent < 0 then
    .error (.valueError ("spent must be >= 0, got " ++ toString spent))
  else if (0 < ceiling ∧ ceiling ≤ spent) ∨ attemptLimit ≤ attempts then .ok .stopToHuman
  else if gateRed then .ok .escalate
  else .ok .continue

/-- `routing.next_tier`. -/
def nextTier : Tier → Option Tier
  | .cheap => some .strong
  | .strong => none

/-- `_render_gate_error` of a string. -/
def renderGateError (gateError : Text) : Except PyError Text :=
  if strip gateError = [] then
    .error (.valueError ("gate_error must be non-empty: the handoff must preserve the exact " ++
      "Objective Gate failure (ADR 0011) or the strong model inherits the cheap model's blindness"))
  else .ok (strip gateError)

/-- `compaction.build`, down to its `text`. -/
def build (goal attemptDiff gateError : Text) : Except PyError Text := do
  if strip goal = [] then
    throw (.valueError
      "goal must be non-empty: the handoff must preserve what the issue asked for")
  let rendered ← renderGateError gateError
  pure (List.intercalate ['\n'] [
    "## Escalation: cheap-model attempt failed the Objective Gate".toList, [],
    "### Goal".toList, strip goal, [],
    "### Cheap attempt diff".toList,
    if strip attemptDiff = [] then
      "(the cheap attempt produced no diff before failing)".toList else attemptDiff, [],
    "### Exact gate error".toList, rendered])

/-! ## The store -/

/-- A row of the queue with its primary key. -/
structure Row where
  id : Text
  entry : QueueEntry
  deriving DecidableEq

/-- The rows of a workspace, oldest first. -/
structure Queue where
  rows : List Row
  distinct : (rows.map (·.id)).Nodup

structure IssueRef where
  number : Nat
  title : Text := []
  body : Text := []

structure RuntimeConfig where
  cheapModel : Option Text := some "claude-sonnet-4-6".toList
  strongModel : Option Text := some "claude-opus-4-8".toList
  ceiling : Rat := 0
  attemptLimit : Int := 2

/-- The arguments of a sandbox run that the loop chooses. -/
structure Request where
  issueRef : Nat
  model : Option Text
  failureHandoff : Option Text
  deriving DecidableEq

/-- What is worth remembering of a sweep, each with the state that the row had in the store. -/
inductive Occasion where
  | ran (id : Text) (stored : Option State) (request : Request) (result : RunResult)
  | returned (id : Text) (stored : Option State) (final : RunResult)
  deriving DecidableEq

def Occasion.id : Occasion → Text
  | .ran id _ _ _ => id
  | .returned id _ _ => id

structure Sweep where
  rows : List Row
  history : List Occasion := []
  deriving DecidableEq

/-- `next_grabbable`. -/
def Sweep.nextGrabbable (s : Sweep) : Option Row :=
  s.rows.find? fun row => row.entry.state = .live .queued

def put (rows : List Row) (id : Text) (next : QueueEntry) : List Row :=
  rows.map fun row => if row.id = id then { row with entry := next } else row

def Sweep.stateOf (s : Sweep) (id : Text) : Option State :=
  (s.rows.find? (·.id = id)).map (·.entry.state)

/-- `store.transition`: the pure decision, then the row. -/
def Sweep.transition (s : Sweep) (id : Text) (entry : QueueEntry) (event : Event) :
    Except PyError (QueueEntry × Sweep) :=
  (AfkQueue.transition entry event).map fun next => (next, { s with rows := put s.rows id next })

def Sweep.record (s : Sweep) (occasion : Occasion) : Sweep :=
  { s with history := s.history ++ [occasion] }

/-- The results of the runs of a row. -/
def runsOf (id : Text) (history : List Occasion) : List RunResult :=
  history.filterMap fun
    | .ran id' _ _ result => if id' = id then some result else none
    | .returned _ _ _ => none

/-! ## The loop -/

/-- `_model_for_tier`. -/
def modelForTier (config : RuntimeConfig) : Tier → Option Text
  | .cheap => config.cheapModel
  | .strong => config.strongModel

/-- `_goal_for`. -/
def goalFor (ref : IssueRef) : Text :=
  if ref.title ≠ [] then ref.title
  else if ref.body ≠ [] then ref.body
  else "issue #".toList ++ (toString ref.number).toList

/-- `_with_running_tier`; the store does not hear of it. -/
def withRunningTier (entry : QueueEntry) (tier : Tier) : QueueEntry :=
  { entry with tier := tier, state := .live .running }

/-- `_ref_for`. -/
def refFor (refsByNumber : Nat → Option IssueRef) (entry : QueueEntry) : IssueRef :=
  (refsByNumber entry.number).getD { number := entry.number }

section Loop

-- `sandbox id k` is what the run number `k` of a row does
variable (config : RuntimeConfig) (sandbox : Text → Nat → Outcome)
  (refsByNumber : Nat → Option IssueRef)

/-- The result of the next run of a row. -/
def nextResult (id : Text) (s : Sweep) : RunResult :=
  (sandbox id (runsOf id s.history).length).result

/-- The `while True` of `_dispatch_one`, down to the final result; `none` where the fuel is gone. -/
def attemptLoop (id : Text) (ref : IssueRef) : Nat → Sweep → QueueEntry → Rat → Nat →
    Option Text → Option (Except PyError (Sweep × RunResult))
  | 0, _, _, _, _, _ => none
  | fuel + 1, s, current, spent, attempts, handoff =>
    let request : Request :=
      { issueRef := ref.number
        model := modelForTier config current.tier
        failureHandoff := handoff }
    let result := nextResult sandbox id s
    match (s.record (.ran id (s.stateOf id) request result)).transition id current
        (eventFor result) with
    | .error error => some (.error error)
    | .ok (next, s) =>
      if result.status = "green".toList then some (.ok (s, result))
      else
        match check (spent + result.costUsd) (attempts + 1) config.ceiling config.attemptLimit
            true with
        | .error error => some (.error error)
        | .ok decision =>
          if decision ≠ .escalate then some (.ok (s, result))
          else
            match nextTier current.tier with
            | none => some (.ok (s, result))
            | some stronger =>
              if isTerminal next.state then some (.ok (s, result))
              else
                match build (goalFor ref) result.branch
                    (if result.gateReason ≠ [] then result.gateReason
                      else "run ".toList ++ result.status) with
                | .error error => some (.error error)
                | .ok text =>
                  attemptLoop id ref fuel s (withRunningTier next stronger)
                    (spent + result.costUsd) (attempts + 1) (some text)

/-- `_dispatch_one`. -/
def dispatchOne (s : Sweep) (row : Row) : Option (Except PyError Sweep) :=
  match s.transition row.id row.entry .start with
  | .error error => some (.error error)
  | .ok (current, s) =>
    match attemptLoop config sandbox row.id (refFor refsByNumber row.entry)
        (config.attemptLimit.toNat + 1) s current 0 0 none with
    | none => none
    | some (.error error) => some (.error error)
    | some (.ok (s, final)) => some (.ok (s.record (.returned row.id (s.stateOf row.id) final)))

/-- `_drain`. -/
def drain : Nat → Sweep → Option (Except PyError Sweep)
  | 0, _ => none
  | fuel + 1, s =>
    match s.nextGrabbable with
    | none => some (.ok s)
    | some row =>
      match dispatchOne config sandbox refsByNumber s row with
      | some (.ok s) => drain fuel s
      | other => other

end Loop

/-! ## What is promised -/

/-- The sum of the costs, as the loop adds them. -/
def total (runs : List RunResult) : Rat := (runs.map (·.costUsd)).foldl (· + ·) 0

/-- The state that an entry is left in by its final result. -/
def settledState (final : RunResult) : State :=
  .terminal (if final.status = "green".toList then .green else .escalatedToHuman)

/-- The leash holds for a row over the whole sweep. -/
structure LeashHolds (config : RuntimeConfig) (id : Text) (history : List Occasion) : Prop where
  attempts : ((runsOf id history).length : Int) ≤ config.attemptLimit
  ceiling : ∀ earlier run later, runsOf id history = earlier ++ run :: later →
    0 < config.ceiling → total earlier < config.ceiling
  settled : ∀ stored final, .returned id stored final ∈ history →
    stored = some (settledState final)
  running : ∀ stored request result, .ran id stored request result ∈ history →
    stored = some (.live .running)

/-- A result after which the entry is not tried again, and is in the state of the result. -/
def SettledBy (entry : QueueEntry) (result : RunResult) : Prop :=
  (eventFor result = .gateRed → entry.tier = .strong ∨ entry.remainingBudget ≤ 1) ∧
    (eventFor result = .refused → result.status ≠ "green".toList)

instance (entry : QueueEntry) (result : RunResult) : Decidable (SettledBy entry result) :=
  inferInstanceAs (Decidable (_ ∧ _))

/-! ## The store under a pass -/

/-- How often a row may still be taken. -/
def weight (entry : QueueEntry) : Nat :=
  if entry.state = .live .queued then if entry.tier = .cheap then 2 else 1 else 0

def totalWeight : List Row → Nat
  | [] => 0
  | row :: rows => weight row.entry + totalWeight rows

theorem put_ids (rows : List Row) (id : Text) (next : QueueEntry) :
    (put rows id next).map (·.id) = rows.map (·.id) := by
  rw [put, List.map_map]
  refine List.map_congr_left fun row _ => ?_
  simp only [Function.comp_apply]
  split <;> rfl

theorem put_put (rows : List Row) (id : Text) (next last : QueueEntry) :
    put (put rows id next) id last = put rows id last := by
  rw [put, put, put, List.map_map]
  refine List.map_congr_left fun row _ => ?_
  simp only [Function.comp_apply]
  by_cases h : row.id = id <;> simp [h]

theorem put_absent {rows : List Row} {id : Text} (h : id ∉ rows.map (·.id))
    (next : QueueEntry) : put rows id next = rows := by
  have hsame : ∀ row ∈ rows, (if row.id = id then { row with entry := next } else row) = row := by
    intro row hrow
    refine if_neg ?_
    rintro rfl
    exact h (List.mem_map_of_mem hrow)
  rw [put, List.map_congr_left hsame, List.map_id']

theorem mem_put_of_ne {rows : List Row} {row : Row} (hrow : row ∈ rows) {id : Text}
    (h : row.id ≠ id) (next : QueueEntry) : row ∈ put rows id next :=
  List.mem_map.2 ⟨row, hrow, if_neg h⟩

theorem mem_put {rows : List Row} {row : Row} {id : Text} {next : QueueEntry}
    (h : row ∈ put rows id next) : row ∈ rows ∧ row.id ≠ id ∨ row = ⟨id, next⟩ := by
  obtain ⟨old, hold, rfl⟩ := List.mem_map.1 h
  by_cases hid : old.id = id
  · rw [if_pos hid, ← hid]
    exact .inr rfl
  · rw [if_neg hid]
    exact .inl ⟨hold, hid⟩

theorem stateOf_put {rows : List Row} {id : Text} (hid : id ∈ rows.map (·.id))
    (next : QueueEntry) (history : List Occasion) :
    Sweep.stateOf ⟨put rows id next, history⟩ id = some next.state := by
  unfold Sweep.stateOf put
  rw [List.find?_map]
  have hsame : ((fun row : Row => decide (row.id = id)) ∘
      fun row : Row => if row.id = id then { row with entry := next } else row) =
      fun row : Row => decide (row.id = id) := by
    funext row
    by_cases h : row.id = id <;> simp [h]
  rw [hsame]
  cases hfind : rows.find? fun row => decide (row.id = id) with
  | none =>
    obtain ⟨row, hrow, rfl⟩ := List.mem_map.1 hid
    simpa using List.find?_eq_none.1 hfind row hrow
  | some row =>
    have hrow : row.id = id := by simpa using List.find?_some hfind
    simp [hrow]

theorem totalWeight_put {rows : List Row} (hdistinct : (rows.map (·.id)).Nodup) {row : Row}
    (hrow : row ∈ rows) {next : QueueEntry} (h : weight next < weight row.entry) :
    totalWeight (put rows row.id next) < totalWeight rows := by
  induction rows with
  | nil => cases hrow
  | cons first rows ih =>
    rw [List.map_cons, List.nodup_cons] at hdistinct
    have hcons : put (first :: rows) row.id next =
        (if first.id = row.id then { first with entry := next } else first) ::
          put rows row.id next := rfl
    rw [hcons, totalWeight, totalWeight]
    rcases List.mem_cons.1 hrow with rfl | hrow
    · rw [if_pos rfl, put_absent hdistinct.1]
      exact Nat.add_lt_add_right h _
    · rw [if_neg]
      · exact Nat.add_lt_add_left (ih hdistinct.2 hrow) _
      · intro heq
        exact hdistinct.1 (heq ▸ List.mem_map_of_mem hrow)

/-- A running entry takes every event but a `START`. -/
theorem transition_of_running {entry : QueueEntry} (h : entry.state = .live .running)
    {event : Event} (hevent : event ≠ .start) :
    ∃ next, AfkQueue.transition entry event = .ok next := by
  unfold AfkQueue.transition
  rw [h]
  cases event with
  | start => exact absurd rfl hevent
  | gateGreen => exact ⟨_, rfl⟩
  | securityBlock => exact ⟨_, rfl⟩
  | refused => exact ⟨_, rfl⟩
  | gateRed =>
    dsimp only
    split
    · exact ⟨_, rfl⟩
    · rename_i hroom
      cases htier : entry.tier with
      | cheap => exact ⟨_, rfl⟩
      | strong => exact absurd (.inr (by rw [htier]; exact le_rfl)) hroom

theorem eventFor_ne_start (result : RunResult) : eventFor result ≠ .start := by
  unfold eventFor
  split
  · nofun
  · split <;> nofun

theorem transition_running (s : Sweep) (id : Text) {entry : QueueEntry}
    (h : entry.state = .live .running) (result : RunResult) :
    ∃ next, AfkQueue.transition entry (eventFor result) = .ok next ∧
      s.transition id entry (eventFor result) =
        .ok (next, { s with rows := put s.rows id next }) := by
  obtain ⟨next, hnext⟩ := transition_of_running h (eventFor_ne_start result)
  refine ⟨next, hnext, ?_⟩
  rw [Sweep.transition, hnext]
  rfl

theorem start_ok (s : Sweep) {row : Row} (h : row.entry.state = .live .queued) :
    s.transition row.id row.entry .start =
      .ok ({ row.entry with state := .live .running },
        { s with rows := put s.rows row.id { row.entry with state := .live .running } }) := by
  have hpure : AfkQueue.transition row.entry .start =
      .ok { row.entry with state := .live .running } := by
    unfold AfkQueue.transition
    rw [h]
    rfl
  rw [Sweep.transition, hpure]
  rfl

/-! ## One pass -/

variable {config : RuntimeConfig} {sandbox : Text → Nat → Outcome}
  {refsByNumber : Nat → Option IssueRef}

/-- An event leaves the entry terminal, or queued for the next tier. -/
theorem fired_live {current next : QueueEntry} (hrunning : current.state = .live .running)
    {result : RunResult} (h : Fired current (eventFor result) next)
    (hlive : isTerminal next.state = false) : next.state = .live .queued := by
  generalize hevent : eventFor result = event at h
  cases h with
  | frozen _ hterminal =>
    rw [hrunning] at hterminal
    cases hterminal
  | started _ => exact absurd hevent (eventFor_ne_start result)
  | green _ => cases hlive
  | stopped _ _ _ => cases hlive
  | exhausted _ => cases hlive
  | escalated _ _ _ => rfl

theorem transition_red {entry : QueueEntry} (h : entry.state = .live .running)
    (htier : entry.tier = .cheap) (hbudget : 1 < entry.remainingBudget) :
    AfkQueue.transition entry .gateRed = .ok { entry with
      tier := .strong
      remainingBudget := entry.remainingBudget - 1
      state := .live .queued } := by
  unfold AfkQueue.transition
  rw [h, htier]
  dsimp only
  rw [if_neg]
  · rfl
  · rintro (hexhausted | hmax)
    · omega
    · exact absurd hmax (by decide)

/-- After the first event, the entry is in the state of the result exactly where it settles it. -/
theorem transition_settled {current next : QueueEntry} (hrunning : current.state = .live .running)
    {result : RunResult} (h : AfkQueue.transition current (eventFor result) = .ok next) :
    next.state = settledState result ↔ SettledBy current result := by
  have hfired := transition_fired current next _ h
  unfold SettledBy settledState
  by_cases hrefused : hostedRefusalPrefix.isPrefixOf result.gateReason
  · have hevent : eventFor result = .refused := if_pos hrefused
    rw [hevent] at hfired ⊢
    cases hfired with
    | frozen _ hterminal =>
      rw [hrunning] at hterminal
      cases hterminal
    | stopped _ _ _ => by_cases hgreen : result.status = "green".toList <;> simp [hgreen]
  by_cases hgreen : result.status = "green".toList
  · have hevent : eventFor result = .gateGreen := by
      rw [eventFor, if_neg hrefused, if_pos hgreen]
    rw [hevent] at hfired ⊢
    cases hfired with
    | frozen _ hterminal =>
      rw [hrunning] at hterminal
      cases hterminal
    | green _ => simp [hgreen]
    | stopped _ hevent _ => rcases hevent with hevent | hevent <;> cases hevent
  have hevent : eventFor result = .gateRed := by
    rw [eventFor, if_neg hrefused, if_neg hgreen]
  rw [hevent] at h hfired ⊢
  by_cases hroom : current.tier = .cheap ∧ 1 < current.remainingBudget
  · rw [transition_red hrunning hroom.1 hroom.2] at h
    cases h
    simp [hroom.1, hroom.2]
  · have hsettled : current.tier = .strong ∨ current.remainingBudget ≤ 1 := by
      cases htier : current.tier with
      | cheap => exact .inr (not_lt.1 fun hlt => hroom ⟨htier, hlt⟩)
      | strong => exact .inl rfl
    cases hfired with
    | frozen _ hterminal =>
      rw [hrunning] at hterminal
      cases hterminal
    | stopped _ hevent _ => rcases hevent with hevent | hevent <;> cases hevent
    | exhausted _ =>
      refine ⟨fun _ => ⟨fun _ => hsettled, nofun⟩, fun _ => ?_⟩
      rw [if_neg hgreen]
    | escalated _ htier hbudget => exact absurd ⟨htier, hbudget⟩ hroom

theorem weight_fired {current next : QueueEntry} (hrunning : current.state = .live .running)
    {result : RunResult} (h : Fired current (eventFor result) next) :
    weight next < weight { current with state := .live .queued } ∧
      (isTerminal next.state = false → next.tier = .strong ∧ current.tier = .cheap) := by
  have hpositive : 0 < weight { current with state := .live .queued } := by
    unfold weight
    rw [if_pos rfl]
    split <;> omega
  generalize hevent : eventFor result = event at h
  cases h with
  | frozen _ hterminal =>
    rw [hrunning] at hterminal
    cases hterminal
  | started hqueued =>
    rw [hrunning] at hqueued
    cases hqueued
  | green _ => exact ⟨hpositive, nofun⟩
  | stopped _ _ _ => exact ⟨hpositive, nofun⟩
  | exhausted _ => exact ⟨hpositive, nofun⟩
  | escalated _ htier _ => exact ⟨by simp [weight, htier], fun _ => ⟨rfl, htier⟩⟩

theorem check_error {spent ceiling : Rat} {attempts : Nat} {attemptLimit : Int} {gateRed : Bool}
    {error : PyError} (h : check spent attempts ceiling attemptLimit gateRed = .error error) :
    attemptLimit < 1 ∨ spent < 0 := by
  unfold check at h
  by_contra hno
  rw [not_or] at hno
  rw [if_neg hno.1, if_neg hno.2] at h
  repeat' split at h
  all_goals cases h

theorem check_escalate {spent ceiling : Rat} {attempts : Nat} {attemptLimit : Int} {gateRed : Bool}
    (h : check spent attempts ceiling attemptLimit gateRed = .ok .escalate) :
    (attempts : Int) < attemptLimit := by
  unfold check at h
  repeat' split at h
  all_goals first
    | cases h; done
    | rename_i hstop _; exact not_le.1 fun hle => hstop (.inr hle)

variable (config sandbox) in
/-- One turn of the loop: the run, the row after its event, and how the loop goes on. -/
theorem attemptLoop_turn (id : Text) (ref : IssueRef) (fuel : Nat) (s : Sweep)
    (current : QueueEntry) (spent : Rat) (attempts : Nat) (handoff : Option Text)
    (hrunning : current.state = .live .running) :
    ∃ next request, AfkQueue.transition current (eventFor (nextResult sandbox id s)) = .ok next ∧
      ∃ s₁ : Sweep, s₁ = ⟨put s.rows id next,
          s.history ++ [.ran id (s.stateOf id) request (nextResult sandbox id s)]⟩ ∧
        (attemptLoop config sandbox id ref (fuel + 1) s current spent attempts handoff =
            some (.ok (s₁, nextResult sandbox id s)) ∨
          (∃ error, attemptLoop config sandbox id ref (fuel + 1) s current spent attempts handoff =
            some (.error error) ∧ (config.attemptLimit < 1 ∨
              spent + (nextResult sandbox id s).costUsd < 0 ∨ isTerminal next.state = false)) ∨
          (isTerminal next.state = false ∧ ((attempts + 1 : Nat) : Int) < config.attemptLimit ∧
            ∃ text, attemptLoop config sandbox id ref (fuel + 1) s current spent attempts handoff =
              attemptLoop config sandbox id ref fuel s₁ (withRunningTier next .strong)
                (spent + (nextResult sandbox id s).costUsd) (attempts + 1) (some text))) := by
  let request : Request :=
    { issueRef := ref.number, model := modelForTier config current.tier, failureHandoff := handoff }
  obtain ⟨next, hnext, hstep⟩ := transition_running
    (s.record (.ran id (s.stateOf id) request (nextResult sandbox id s))) id hrunning
    (nextResult sandbox id s)
  refine ⟨next, request, hnext, _, rfl, ?_⟩
  rw [attemptLoop, hstep]
  dsimp only
  by_cases hgreen : (nextResult sandbox id s).status = "green".toList
  · rw [if_pos hgreen]
    exact .inl rfl
  rw [if_neg hgreen]
  cases hcheck : check (spent + (nextResult sandbox id s).costUsd) (attempts + 1) config.ceiling
      config.attemptLimit true with
  | error error =>
    refine .inr (.inl ⟨error, rfl, ?_⟩)
    rcases check_error hcheck with hlimit | hspent
    · exact .inl hlimit
    · exact .inr (.inl hspent)
  | ok decision =>
    dsimp only
    by_cases hescalate : decision ≠ .escalate
    · rw [if_pos hescalate]
      exact .inl rfl
    rw [if_neg hescalate]
    rw [not_not] at hescalate
    subst hescalate
    cases htier : current.tier with
    | strong => exact .inl rfl
    | cheap =>
      dsimp only [nextTier]
      by_cases hterminal : isTerminal next.state
      · rw [if_pos hterminal]
        exact .inl rfl
      rw [if_neg hterminal]
      rw [Bool.not_eq_true] at hterminal
      cases build (goalFor ref) (nextResult sandbox id s).branch
          (if (nextResult sandbox id s).gateReason ≠ [] then (nextResult sandbox id s).gateReason
            else "run ".toList ++ (nextResult sandbox id s).status) with
      | error error => exact .inr (.inl ⟨error, rfl, .inr (.inr hterminal)⟩)
      | ok text => exact .inr (.inr ⟨hterminal, check_escalate hcheck, text, rfl⟩)

/-- A pass through the loop touches its row only, and starts with a run. -/
theorem attemptLoop_ok {id : Text} {ref : IssueRef} {fuel : Nat} {s s' : Sweep}
    {current : QueueEntry} {spent : Rat} {attempts : Nat} {handoff : Option Text}
    {final : RunResult} (hrunning : current.state = .live .running)
    (h : attemptLoop config sandbox id ref fuel s current spent attempts handoff =
      some (.ok (s', final))) :
    ∃ next new, s' = ⟨put s.rows id next, s.history ++ new⟩ ∧ (∀ o ∈ new, o.id = id) ∧
      weight next < weight { current with state := .live .queued } ∧
      ∃ request result, .ran id (s.stateOf id) request result ∈ new := by
  induction fuel generalizing s current spent attempts handoff with
  | zero => cases h
  | succ fuel ih =>
    obtain ⟨next, request, hnext, s₁, rfl, hturn⟩ :=
      attemptLoop_turn config sandbox id ref fuel s current spent attempts handoff hrunning
    have hfired := transition_fired current next _ hnext
    rcases hturn with hreturned | ⟨error, herror, _⟩ | ⟨hlive, _, text, hon⟩
    · rw [hreturned] at h
      cases h
      exact ⟨next, [_], rfl, by simp [Occasion.id], (weight_fired hrunning hfired).1, request, _,
        List.mem_singleton_self _⟩
    · rw [herror] at h
      cases h
    · rw [hon] at h
      obtain ⟨last, new, rfl, hown, hweight, _⟩ := ih rfl h
      refine ⟨last, .ran id (s.stateOf id) request (nextResult sandbox id s) :: new, ?_, ?_, ?_,
        request, _, List.mem_cons_self⟩
      · rw [put_put, List.append_assoc]
        rfl
      · intro o ho
        rcases List.mem_cons.1 ho with rfl | ho
        · rfl
        · exact hown o ho
      · obtain ⟨-, htier⟩ := weight_fired hrunning hfired
        refine hweight.trans ?_
        simp [weight, withRunningTier, (htier hlive).2]

theorem attemptLoop_ends {id : Text} {ref : IssueRef} {fuel : Nat} {s : Sweep}
    {current : QueueEntry} {spent : Rat} {attempts : Nat} {handoff : Option Text}
    (hrunning : current.state = .live .running) (hfuel : 0 < fuel)
    (henough : config.attemptLimit.toNat < attempts + fuel) :
    attemptLoop config sandbox id ref fuel s current spent attempts handoff ≠ none := by
  induction fuel generalizing s current spent attempts handoff with
  | zero => omega
  | succ fuel ih =>
    obtain ⟨next, request, _, s₁, rfl, hturn⟩ :=
      attemptLoop_turn config sandbox id ref fuel s current spent attempts handoff hrunning
    rcases hturn with hreturned | ⟨error, herror, _⟩ | ⟨hlive, hroom, text, hon⟩
    · rw [hreturned]
      nofun
    · rw [herror]
      nofun
    · rw [hon]
      exact ih rfl (by omega) (by omega)

section Pass

variable {s : Sweep} {row : Row}

theorem mem_ids (hrow : row ∈ s.rows) (next : QueueEntry) :
    row.id ∈ (put s.rows row.id next).map (·.id) := by
  rw [put_ids]
  exact List.mem_map_of_mem hrow

theorem dispatchOne_ok (hqueued : row.entry.state = .live .queued) {s' : Sweep}
    (h : dispatchOne config sandbox refsByNumber s row = some (.ok s')) :
    ∃ next new, s' = ⟨put s.rows row.id next, s.history ++ new⟩ ∧ (∀ o ∈ new, o.id = row.id) ∧
      weight next < weight row.entry := by
  rw [dispatchOne, start_ok s hqueued] at h
  dsimp only at h
  split at h
  · cases h
  · cases h
  · rename_i s₁ final hloop
    cases h
    obtain ⟨next, new, rfl, hown, hweight, _⟩ := attemptLoop_ok rfl hloop
    let rows := put (put s.rows row.id { row.entry with state := .live .running }) row.id next
    refine ⟨next, new ++ [.returned row.id (Sweep.stateOf ⟨rows, s.history ++ new⟩ row.id) final],
      ?_, ?_, ?_⟩
    · rw [← put_put s.rows row.id { row.entry with state := .live .running } next,
        ← List.append_assoc]
      rfl
    · intro o ho
      rcases List.mem_append.1 ho with ho | ho
      · exact hown o ho
      · rw [List.mem_singleton.1 ho]
        rfl
    · rwa [← hqueued] at hweight

theorem dispatchOne_ends (hqueued : row.entry.state = .live .queued) :
    dispatchOne config sandbox refsByNumber s row ≠ none := by
  rw [dispatchOne, start_ok s hqueued]
  dsimp only
  split
  · rename_i hloop
    exact absurd hloop (attemptLoop_ends rfl (by omega) (by omega))
  · nofun
  · nofun

variable (refsByNumber) in
/-- A row that its first result settles is run once. -/
theorem dispatchOne_settled (hlimit : 1 ≤ config.attemptLimit)
    (hcost : ∀ id k, 0 ≤ (sandbox id k).result.costUsd) (hrow : row ∈ s.rows)
    (hqueued : row.entry.state = .live .queued)
    (hsettled : SettledBy row.entry (nextResult sandbox row.id s)) :
    ∃ next request, next.state = settledState (nextResult sandbox row.id s) ∧
      dispatchOne config sandbox refsByNumber s row = some (.ok
        ⟨put s.rows row.id next, s.history ++ [
          .ran row.id (some (.live .running)) request (nextResult sandbox row.id s),
          .returned row.id (some next.state) (nextResult sandbox row.id s)]⟩) := by
  rw [dispatchOne, start_ok s hqueued]
  dsimp only
  obtain ⟨next, request, hnext, s₁, rfl, hcases⟩ := attemptLoop_turn config sandbox row.id
    (refFor refsByNumber row.entry) config.attemptLimit.toNat
    { s with rows := put s.rows row.id { row.entry with state := .live .running } }
    { row.entry with state := .live .running } 0 0 none rfl
  have hstate : next.state = settledState (nextResult sandbox row.id s) :=
    (transition_settled rfl hnext).2 hsettled
  have hterminal : isTerminal next.state = true := by
    rw [hstate]
    rfl
  refine ⟨next, request, hstate, ?_⟩
  rcases hcases with hreturned | ⟨error, _, hlow | hspent | hlive⟩ | ⟨hlive, _⟩
  · rw [hreturned, stateOf_put (List.mem_map_of_mem hrow), put_put]
    simp only [Sweep.record, stateOf_put (List.mem_map_of_mem hrow), List.append_assoc]
    rfl
  · omega
  · rw [zero_add] at hspent
    exact absurd (hcost _ _) (not_le.2 hspent)
  · rw [hterminal] at hlive
    cases hlive
  · rw [hterminal] at hlive
    cases hlive

/-- What breaks the leash of a row in a pass. -/
def Broken (id : Text) (history : List Occasion) : Prop :=
  (∃ stored final, .returned id stored final ∈ history ∧ stored ≠ some (settledState final)) ∨
    ∃ stored request result, .ran id stored request result ∈ history ∧
      stored ≠ some (.live .running)

theorem not_leash_of_broken {id : Text} {history : List Occasion} (h : Broken id history) :
    ¬ LeashHolds config id history := by
  intro hleash
  rcases h with ⟨stored, final, hmem, hne⟩ | ⟨stored, request, result, hmem, hne⟩
  · exact hne (hleash.settled stored final hmem)
  · exact hne (hleash.running stored request result hmem)

theorem Broken.append {id : Text} {history : List Occasion} (h : Broken id history)
    (new : List Occasion) : Broken id (history ++ new) := by
  rcases h with ⟨stored, final, hmem, hne⟩ | ⟨stored, request, result, hmem, hne⟩
  · exact .inl ⟨stored, final, List.mem_append_left _ hmem, hne⟩
  · exact .inr ⟨stored, request, result, List.mem_append_left _ hmem, hne⟩

/-- A row that its first result does not settle breaks its leash before the pass returns. -/
theorem dispatchOne_unsettled (hrow : row ∈ s.rows) (hqueued : row.entry.state = .live .queued)
    (hsettled : ¬ SettledBy row.entry (nextResult sandbox row.id s)) {s' : Sweep}
    (h : dispatchOne config sandbox refsByNumber s row = some (.ok s')) :
    Broken row.id s'.history := by
  rw [dispatchOne, start_ok s hqueued] at h
  dsimp only at h
  obtain ⟨next, request, hnext, s₁, rfl, hcases⟩ := attemptLoop_turn config sandbox row.id
    (refFor refsByNumber row.entry) config.attemptLimit.toNat
    { s with rows := put s.rows row.id { row.entry with state := .live .running } }
    { row.entry with state := .live .running } 0 0 none rfl
  have hstate : next.state ≠ settledState (nextResult sandbox row.id s) := fun heq =>
    hsettled ((transition_settled rfl hnext).1 heq)
  rcases hcases with hreturned | ⟨error, herror, _⟩ | ⟨hlive, _, text, hon⟩
  · rw [hreturned] at h
    cases h
    refine .inl ⟨_, nextResult sandbox row.id s, List.mem_append_right _ List.mem_cons_self, ?_⟩
    rw [stateOf_put (mem_ids hrow _)]
    exact fun heq => hstate (Option.some.inj heq)
  · rw [herror] at h
    cases h
  · rw [hon] at h
    split at h
    · cases h
    · cases h
    · rename_i s₂ final hloop
      cases h
      obtain ⟨last, new, rfl, _, _, request', result, hran⟩ := attemptLoop_ok rfl hloop
      rw [stateOf_put (mem_ids hrow _), fired_live rfl (transition_fired _ _ _ hnext) hlive] at hran
      exact .inr ⟨_, request', result, List.mem_append_left _ (List.mem_append_right _ hran), nofun⟩

end Pass

/-! ## The whole drain -/

theorem grabbed {s : Sweep} {row : Row} (h : s.nextGrabbable = some row) :
    row ∈ s.rows ∧ row.entry.state = .live .queued :=
  ⟨List.mem_of_find?_eq_some h, by simpa using List.find?_some h⟩

/-- A drain comes to an end. -/
theorem drain_ends {fuel : Nat} {s : Sweep} (hdistinct : (s.rows.map (·.id)).Nodup)
    (hfuel : totalWeight s.rows < fuel) : drain config sandbox refsByNumber fuel s ≠ none := by
  induction fuel generalizing s with
  | zero => omega
  | succ fuel ih =>
    rw [drain]
    split
    · nofun
    · rename_i row hgrab
      obtain ⟨hrow, hqueued⟩ := grabbed hgrab
      split
      · rename_i s' hpass
        obtain ⟨next, new, rfl, _, hweight⟩ := dispatchOne_ok hqueued hpass
        refine ih ?_ ?_
        · rw [put_ids]
          exact hdistinct
        · have hless := totalWeight_put hdistinct hrow hweight
          dsimp only
          omega
      · exact dispatchOne_ends hqueued

/-- The runs of a row do not depend on what happens to others. -/
theorem runsOf_append_of_ne {id : Text} (history : List Occasion) {new : List Occasion}
    (h : ∀ o ∈ new, o.id ≠ id) : runsOf id (history ++ new) = runsOf id history := by
  have hnew : runsOf id new = [] := by
    refine List.filterMap_eq_nil_iff.2 fun o ho => ?_
    cases o with
    | ran id' stored request result => exact if_neg (h _ ho)
    | returned id' stored final => rfl
  unfold runsOf at hnew ⊢
  rw [List.filterMap_append, hnew, List.append_nil]

theorem runsOf_eq_nil {id : Text} {history : List Occasion} (h : ∀ o ∈ history, o.id ≠ id) :
    runsOf id history = [] :=
  runsOf_append_of_ne [] h

theorem LeashHolds.append_of_ne {id : Text} {history new : List Occasion}
    (h : LeashHolds config id history) (hne : ∀ o ∈ new, o.id ≠ id) :
    LeashHolds config id (history ++ new) := by
  refine ⟨?_, ?_, ?_, ?_⟩
  · rw [runsOf_append_of_ne history hne]
    exact h.attempts
  · rw [runsOf_append_of_ne history hne]
    exact h.ceiling
  · intro stored final hmem
    rcases List.mem_append.1 hmem with hmem | hmem
    · exact h.settled stored final hmem
    · exact absurd rfl (hne _ hmem)
  · intro stored request result hmem
    rcases List.mem_append.1 hmem with hmem | hmem
    · exact h.running stored request result hmem
    · exact absurd rfl (hne _ hmem)

/-- One run and one return, where nothing had happened to the row before. -/
theorem leash_of_once (hlimit : 1 ≤ config.attemptLimit) {id : Text} {history : List Occasion}
    (hfresh : ∀ o ∈ history, o.id ≠ id) (request : Request) (result : RunResult) :
    LeashHolds config id (history ++ [.ran id (some (.live .running)) request result,
      .returned id (some (settledState result)) result]) := by
  have hruns : runsOf id (history ++ [.ran id (some (.live .running)) request result,
      .returned id (some (settledState result)) result]) = [result] := by
    have hold : runsOf id history = [] := runsOf_eq_nil hfresh
    unfold runsOf at hold ⊢
    rw [List.filterMap_append, hold]
    simp
  refine ⟨?_, ?_, ?_, ?_⟩
  · rw [hruns]
    exact hlimit
  · intro earlier run later hsplit hceiling
    rw [hruns] at hsplit
    cases earlier with
    | nil => exact hceiling
    | cons first earlier => simp at hsplit
  · intro stored final hmem
    rcases List.mem_append.1 hmem with hmem | hmem
    · exact absurd rfl (hfresh _ hmem)
    · simp only [List.mem_cons, reduceCtorEq, Occasion.returned.injEq, true_and, List.not_mem_nil,
        or_false, false_or] at hmem
      rw [hmem.1, hmem.2]
  · intro stored request' result' hmem
    rcases List.mem_append.1 hmem with hmem | hmem
    · exact absurd rfl (hfresh _ hmem)
    · simp only [List.mem_cons, reduceCtorEq, Occasion.ran.injEq, true_and, List.not_mem_nil,
        or_false] at hmem
      exact hmem.1

/-- What the drain keeps where every queued row is settled by its first result. -/
structure Tight (config : RuntimeConfig) (sandbox : Text → Nat → Outcome) (s : Sweep) :
    Prop where
  distinct : (s.rows.map (·.id)).Nodup
  fresh : ∀ row ∈ s.rows, row.entry.state = .live .queued →
    (∀ o ∈ s.history, o.id ≠ row.id) ∧ SettledBy row.entry (sandbox row.id 0).result
  leash : ∀ id, LeashHolds config id s.history

theorem nextResult_of_fresh {id : Text} {s : Sweep} (h : ∀ o ∈ s.history, o.id ≠ id) :
    nextResult sandbox id s = (sandbox id 0).result := by
  rw [nextResult, runsOf_eq_nil h]
  rfl

variable (refsByNumber) in
theorem tight_pass (hlimit : 1 ≤ config.attemptLimit)
    (hcost : ∀ id k, 0 ≤ (sandbox id k).result.costUsd) {s : Sweep} {row : Row}
    (h : Tight config sandbox s) (hrow : row ∈ s.rows)
    (hqueued : row.entry.state = .live .queued) :
    ∃ s', dispatchOne config sandbox refsByNumber s row = some (.ok s') ∧
      Tight config sandbox s' := by
  obtain ⟨hfresh, hsettled⟩ := h.fresh row hrow hqueued
  rw [← nextResult_of_fresh hfresh] at hsettled
  obtain ⟨next, request, hstate, hpass⟩ :=
    dispatchOne_settled refsByNumber hlimit hcost hrow hqueued hsettled
  refine ⟨_, hpass, ?_, ?_, ?_⟩
  · rw [put_ids]
    exact h.distinct
  · intro other hother hlive
    rcases mem_put hother with ⟨hother, hne⟩ | rfl
    · obtain ⟨hold, hsettles⟩ := h.fresh other hother hlive
      refine ⟨fun o ho => ?_, hsettles⟩
      rcases List.mem_append.1 ho with ho | ho
      · exact hold o ho
      · simp only [List.mem_cons, List.not_mem_nil, or_false] at ho
        rcases ho with rfl | rfl <;> exact Ne.symm hne
    · rw [hstate] at hlive
      cases hlive
  · intro id
    by_cases hid : id = row.id
    · subst hid
      rw [hstate]
      exact leash_of_once hlimit hfresh request _
    · refine (h.leash id).append_of_ne fun o ho => ?_
      simp only [List.mem_cons, List.not_mem_nil, or_false] at ho
      rcases ho with rfl | rfl <;> exact Ne.symm hid

theorem tight_drain (hlimit : 1 ≤ config.attemptLimit)
    (hcost : ∀ id k, 0 ≤ (sandbox id k).result.costUsd) {fuel : Nat} {s : Sweep}
    (h : Tight config sandbox s) {r : Except PyError Sweep}
    (hdrain : drain config sandbox refsByNumber fuel s = some r) :
    ∃ s', r = .ok s' ∧ Tight config sandbox s' := by
  induction fuel generalizing s with
  | zero => cases hdrain
  | succ fuel ih =>
    rw [drain] at hdrain
    split at hdrain
    · cases hdrain
      exact ⟨s, rfl, h⟩
    · rename_i row hgrab
      obtain ⟨hrow, hqueued⟩ := grabbed hgrab
      obtain ⟨s₁, hpass, htight⟩ := tight_pass refsByNumber hlimit hcost h hrow hqueued
      rw [hpass] at hdrain
      exact ih htight hdrain

theorem drain_appends {fuel : Nat} {s s' : Sweep}
    (h : drain config sandbox refsByNumber fuel s = some (.ok s')) :
    ∃ new, s'.history = s.history ++ new := by
  induction fuel generalizing s with
  | zero => cases h
  | succ fuel ih =>
    rw [drain] at h
    split at h
    · cases h
      exact ⟨[], (List.append_nil _).symm⟩
    · rename_i row hgrab
      split at h
      · rename_i s₁ hpass
        obtain ⟨next, new, rfl, _⟩ := dispatchOne_ok (grabbed hgrab).2 hpass
        obtain ⟨later, hlater⟩ := ih h
        exact ⟨new ++ later, by rw [hlater, List.append_assoc]⟩
      · rename_i hother
        exact absurd h (hother s')

/-- A drain that returns has taken every queued row, and a row that its first result does not settle
has broken its leash. -/
theorem broken_drain {fuel : Nat} {s s' : Sweep} (hdistinct : (s.rows.map (·.id)).Nodup) {row : Row}
    (hrow : row ∈ s.rows) (hqueued : row.entry.state = .live .queued)
    (hfresh : ∀ o ∈ s.history, o.id ≠ row.id)
    (hsettled : ¬ SettledBy row.entry (sandbox row.id 0).result)
    (hdrain : drain config sandbox refsByNumber fuel s = some (.ok s')) :
    Broken row.id s'.history := by
  induction fuel generalizing s with
  | zero => cases hdrain
  | succ fuel ih =>
    rw [drain] at hdrain
    split at hdrain
    · rename_i hnone
      simpa [hqueued] using List.find?_eq_none.1 hnone row hrow
    · rename_i first hgrab
      obtain ⟨hfirst, hfirstQueued⟩ := grabbed hgrab
      split at hdrain
      · rename_i s₁ hpass
        by_cases hid : first.id = row.id
        · obtain rfl : first = row := List.inj_on_of_nodup_map hdistinct hfirst hrow hid
          rw [← nextResult_of_fresh hfresh] at hsettled
          obtain ⟨new, hnew⟩ := drain_appends hdrain
          rw [hnew]
          exact (dispatchOne_unsettled hrow hqueued hsettled hpass).append new
        · obtain ⟨next, new, rfl, hown, _⟩ := dispatchOne_ok hfirstQueued hpass
          refine ih ?_ (mem_put_of_ne hrow (Ne.symm hid) next) ?_ hdrain
          · rw [put_ids]
            exact hdistinct
          · intro o ho
            rcases List.mem_append.1 ho with ho | ho
            · exact hfresh o ho
            · rw [hown o ho]
              exact hid
      · rename_i hother
        exact absurd hdrain (hother s')

/-- The drain of a queue returns, and the leash holds for each of its rows. -/
def DrainHolds (config : RuntimeConfig) (sandbox : Text → Nat → Outcome)
    (refsByNumber : Nat → Option IssueRef) (queue : Queue) : Prop :=
  ∃ fuel s, drain config sandbox refsByNumber fuel { rows := queue.rows } = some (.ok s) ∧
    ∀ row ∈ queue.rows, LeashHolds config row.id s.history

theorem drainHolds_of_settled (hlimit : 1 ≤ config.attemptLimit)
    (hcost : ∀ id k, 0 ≤ (sandbox id k).result.costUsd) (queue : Queue)
    (h : ∀ row ∈ queue.rows, row.entry.state = .live .queued →
      SettledBy row.entry (sandbox row.id 0).result) :
    DrainHolds config sandbox refsByNumber queue := by
  have hinitial : Tight config sandbox { rows := queue.rows } := by
    refine ⟨queue.distinct, fun row hrow hqueued => ⟨nofun, h row hrow hqueued⟩, fun id => ?_⟩
    exact ⟨by simp [runsOf]; omega, by simp [runsOf], nofun, nofun⟩
  have hends := @drain_ends config sandbox refsByNumber (totalWeight queue.rows + 1)
    { rows := queue.rows } queue.distinct (Nat.lt_succ_self _)
  obtain ⟨r, hr⟩ := Option.ne_none_iff_exists'.1 hends
  obtain ⟨s, rfl, htight⟩ := tight_drain hlimit hcost hinitial hr
  exact ⟨_, s, hr, fun row _ => htight.leash row.id⟩

theorem settled_of_drainHolds {queue : Queue}
    (h : DrainHolds config sandbox refsByNumber queue) {row : Row} (hrow : row ∈ queue.rows)
    (hqueued : row.entry.state = .live .queued) :
    SettledBy row.entry (sandbox row.id 0).result := by
  obtain ⟨fuel, s, hdrain, hleash⟩ := h
  by_contra hsettled
  exact not_leash_of_broken (broken_drain (s := { rows := queue.rows }) queue.distinct hrow hqueued
    nofun hsettled hdrain) (hleash row hrow)

/-- A row that is not queued any more is left alone. -/
theorem leash_kept {id : Text} {fuel : Nat} {s s' : Sweep}
    (hdone : ∀ row ∈ s.rows, row.id = id → row.entry.state ≠ .live .queued)
    (hleash : LeashHolds config id s.history)
    (hdrain : drain config sandbox refsByNumber fuel s = some (.ok s')) :
    LeashHolds config id s'.history := by
  induction fuel generalizing s with
  | zero => cases hdrain
  | succ fuel ih =>
    rw [drain] at hdrain
    split at hdrain
    · cases hdrain
      exact hleash
    · rename_i first hgrab
      obtain ⟨hfirst, hqueued⟩ := grabbed hgrab
      split at hdrain
      · rename_i s₁ hpass
        have hne : first.id ≠ id := fun heq => hdone first hfirst heq hqueued
        obtain ⟨next, new, rfl, hown, _⟩ := dispatchOne_ok hqueued hpass
        refine ih ?_ (hleash.append_of_ne fun o ho => ?_) hdrain
        · intro row hrow hid
          rcases mem_put hrow with ⟨hold, _⟩ | rfl
          · exact hdone row hold hid
          · exact absurd hid hne
        · rw [hown o ho]
          exact hne
      · rename_i hother
        exact absurd hdrain (hother s')

/-- Whatever happens to the others, a row that its first result settles keeps its leash. -/
theorem leash_of_settled (hlimit : 1 ≤ config.attemptLimit)
    (hcost : ∀ id k, 0 ≤ (sandbox id k).result.costUsd) {fuel : Nat} {s s' : Sweep}
    (hdistinct : (s.rows.map (·.id)).Nodup) {row : Row} (hrow : row ∈ s.rows)
    (hqueued : row.entry.state = .live .queued) (hfresh : ∀ o ∈ s.history, o.id ≠ row.id)
    (hsettled : SettledBy row.entry (sandbox row.id 0).result)
    (hdrain : drain config sandbox refsByNumber fuel s = some (.ok s')) :
    LeashHolds config row.id s'.history := by
  induction fuel generalizing s with
  | zero => cases hdrain
  | succ fuel ih =>
    rw [drain] at hdrain
    split at hdrain
    · rename_i hnone
      simpa [hqueued] using List.find?_eq_none.1 hnone row hrow
    · rename_i first hgrab
      obtain ⟨hfirst, hfirstQueued⟩ := grabbed hgrab
      by_cases hid : first.id = row.id
      · obtain rfl : first = row := List.inj_on_of_nodup_map hdistinct hfirst hrow hid
        rw [← nextResult_of_fresh hfresh] at hsettled
        obtain ⟨next, request, hstate, hpass⟩ :=
          dispatchOne_settled refsByNumber hlimit hcost hrow hqueued hsettled
        rw [hpass] at hdrain
        refine leash_kept ?_ ?_ hdrain
        · intro other hother hsame
          rcases mem_put hother with ⟨_, hne⟩ | rfl
          · exact absurd hsame hne
          · rw [hstate]
            nofun
        · rw [hstate]
          exact leash_of_once hlimit hfresh request _
      · split at hdrain
        · rename_i s₁ hpass
          obtain ⟨next, new, rfl, hown, _⟩ := dispatchOne_ok hfirstQueued hpass
          refine ih ?_ (mem_put_of_ne hrow (Ne.symm hid) next) ?_ hdrain
          · rw [put_ids]
            exact hdistinct
          · intro o ho
            rcases List.mem_append.1 ho with ho | ho
            · exact hfresh o ho
            · rw [hown o ho]
              exact hid
        · rename_i hother
          exact absurd hdrain (hother s')

/-- One entry, as the gate admits it. -/
def sampleQueue : Queue where
  rows := [⟨"q1".toList, { number := 7 }⟩]
  distinct := List.nodup_singleton _

def redResult : RunResult :=
  { status := "red".toList, costUsd := 2, gateReason := "tests failed".toList }

def greenResult : RunResult := { status := "green".toList, costUsd := 1 }

/-- What a drain does to it with one attempt allowed, where every run is red. -/
def overrun : Sweep where
  rows := [⟨"q1".toList,
    { number := 7, tier := .strong, remainingBudget := 0, state := .terminal .escalatedToHuman }⟩]
  history := [
    .ran "q1".toList (some (.live .running))
      { issueRef := 7, model := some "claude-sonnet-4-6".toList, failureHandoff := none } redResult,
    .returned "q1".toList (some (.live .queued)) redResult,
    .ran "q1".toList (some (.live .running))
      { issueRef := 7, model := some "claude-opus-4-8".toList, failureHandoff := none } redResult,
    .returned "q1".toList (some (.terminal .escalatedToHuman)) redResult]

/-- The drain returns with the leash kept for every row exactly where each queued row is settled by
its first result, and in every drain that returns this is so row by row. -/
theorem leash_holds_iff (config : RuntimeConfig) (sandbox : Text → Nat → Outcome)
    (refsByNumber : Nat → Option IssueRef) (queue : Queue) (hlimit : 1 ≤ config.attemptLimit)
    (hcost : ∀ id k, 0 ≤ (sandbox id k).result.costUsd) :
    (DrainHolds config sandbox refsByNumber queue ↔
      ∀ row ∈ queue.rows, row.entry.state = .live .queued →
        SettledBy row.entry (sandbox row.id 0).result) ∧
    ∀ fuel s, drain config sandbox refsByNumber fuel { rows := queue.rows } = some (.ok s) →
      ∀ row ∈ queue.rows, row.entry.state = .live .queued →
        (LeashHolds config row.id s.history ↔ SettledBy row.entry (sandbox row.id 0).result) := by
  refine ⟨⟨fun h _ hrow hqueued => settled_of_drainHolds h hrow hqueued,
    drainHolds_of_settled hlimit hcost queue⟩, fun fuel s hdrain row hrow hqueued => ⟨?_, ?_⟩⟩
  · intro hleash
    by_contra hsettled
    exact not_leash_of_broken (broken_drain (s := { rows := queue.rows }) queue.distinct hrow
      hqueued nofun hsettled hdrain) hleash
  · intro hsettled
    exact leash_of_settled (s := { rows := queue.rows }) hlimit hcost queue.distinct hrow hqueued
      nofun hsettled hdrain

/-- A first run that is green. -/
theorem leash_holds_iff_green :
    DrainHolds {} (fun _ _ => .returned greenResult) (fun _ => none) sampleQueue :=
  (leash_holds_iff {} (fun _ _ => .returned greenResult) (fun _ => none) sampleQueue (by decide)
    fun _ _ => by decide +kernel).1.2 (by decide +kernel)

/-- With one attempt allowed, an entry that stays red is run twice: the pass returns with the row
queued again, and the drain takes it again. -/
theorem run_past_limit :
    drain { attemptLimit := 1 } (fun _ _ => .returned redResult) (fun _ => none) 3
        { rows := sampleQueue.rows } = some (.ok overrun) ∧
      (runsOf "q1".toList overrun.history).length = 2 ∧
      ¬ DrainHolds { attemptLimit := 1 } (fun _ _ => .returned redResult) (fun _ => none)
        sampleQueue := by
  refine ⟨by decide +kernel, rfl, fun h => ?_⟩
  have hsettled := settled_of_drainHolds h List.mem_cons_self rfl
  exact absurd hsettled (by decide +kernel)

end Agentrail.Heartbeat
