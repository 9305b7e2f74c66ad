import Agentrail.Afk.QueueState
import Agentrail.Guardrails.AdmissionParity
import Agentrail.Lib.Runs

/-!
# The event-trigger dispatcher (`agentrail/heartbeat/dispatcher.py`)

A dispatcher holds the entries in memory.  Events, ticks and changed blockers act on
it, and the results of runs come back through `transition`.  A session keeps the
history beside the dispatcher: which entries were launched, which results were
applied, and which running entries a readmission put back.

Main results:

* `once_per_attempt_iff`: a session launches once per attempt exactly when no
  readmission finds a running entry.
* `relaunched`: a readmission between two ticks launches one attempt twice.
-/

namespace Agentrail.Heartbeat

open Py AfkQueue

inductive EventKind where
  | issueLabeled
  | ciFailed
  deriving DecidableEq

/-- An external trigger. -/
structure Trigger where
  kind : EventKind
  issue : Nat
  deriving DecidableEq

structure Dispatcher where
  queue : List QueueEntry := []
  ledger : InputContract.AdmissionLedger := {}

/-- What is worth remembering of a session. -/
inductive Occurrence where
  /-- `launch_run` was called for an entry that had this value before `START` -/
  | launched (entry : QueueEntry)
  /-- a result was applied to the entry with this number -/
  | applied (number : Nat) (event : Event)
  /-- a readmission moved a running entry -/
  | putBack (number : Nat)
  deriving DecidableEq

/-- A dispatcher with its history, oldest first. -/
structure Session where
  dispatcher : Dispatcher := {}
  history : List Occurrence := []

/-- What is done to a dispatcher.  `fetched` is the body that `fetch_body` returns, `none` where it
raises; `now` is the time of the gate. -/
inductive Call where
  | enqueue (number : Nat) (blockedBy : List Nat) (openBlockers : Finset Nat)
      (writer : InputContract.WriterClass) (fetched : Option Text) (now : Int)
  | onEvent (trigger : Trigger) (fetched : Option Text) (now : Int)
  | readmit (openBlockers : Finset Nat)
  | tick
  | result (number : Nat) (event : Event) (hresult : event ≠ .start)

/-! ## The methods -/

variable (py : InputContract.Interpreter)

/-- `enqueue`; no entry where the gate rejects the issue or `fetch_body` raises. -/
def Dispatcher.enqueue (d : Dispatcher) (number : Nat) (blockedBy : List Nat)
    (openBlockers : Finset Nat) (writer : InputContract.WriterClass) (fetched : Option Text)
    (now : Int) : Dispatcher × Option QueueEntry :=
  match d.queue.find? (·.number = number) with
  | some entry => (d, some entry)
  | none =>
    match fetched with
    | none => (d, none)
    | some body =>
      match InputContract.admitToQueue py { number := number, blockedBy := blockedBy } body writer
          d.ledger false now with
      | .rejected _ ledger => ({ d with ledger := ledger }, none)
      | .entry gated ledger =>
        let admitted := admitEntry (.ofGate gated) openBlockers
        ({ queue := d.queue ++ [admitted], ledger := ledger }, some admitted)

/-- `readmit`. -/
def Dispatcher.readmit (d : Dispatcher) (openBlockers : Finset Nat) : Dispatcher :=
  { d with queue := d.queue.map fun e =>
      if !isTerminal e.state then admitEntry e openBlockers else e }

/-- `_is_grabbable`. -/
def isGrabbable (entry : QueueEntry) : Bool := entry.state = .live .queued

/-- `_dispatch`: `START`, the entry in the queue, then the launch. -/
def Session.dispatch (s : Session) (entry : QueueEntry) : Session :=
  match transition entry .start with
  | .error _ => s
  | .ok started =>
    { dispatcher := { s.dispatcher with
        queue := s.dispatcher.queue.map fun e => if e.number = entry.number then started else e }
      history := s.history ++ [.launched entry] }

/-- `tick`. -/
def Session.tick (s : Session) : Session :=
  match s.dispatcher.queue.find? isGrabbable with
  | some entry => s.dispatch entry
  | none => s

/-- `on_event`. -/
def Session.onEvent (s : Session) (trigger : Trigger) (fetched : Option Text) (now : Int) : Session :=
  match s.dispatcher.enqueue py trigger.issue [] ∅ .humanGithub fetched now with
  | (d, none) => { s with dispatcher := d }
  | (d, some entry) =>
    if isGrabbable entry then { s with dispatcher := d }.dispatch entry
    else { s with dispatcher := d }

/-- A result for the entry with a number; `transition` may raise. -/
def Session.result (s : Session) (number : Nat) (event : Event) : Session :=
  match s.dispatcher.queue.find? (·.number = number) with
  | none => s
  | some entry =>
    match transition entry event with
    | .error _ => s
    | .ok next =>
      { dispatcher := { s.dispatcher with
          queue := s.dispatcher.queue.map fun e => if e.number = number then next else e }
        history := s.history ++ [.applied number event] }

/-- The running entries that a readmission does not leave running. -/
def movedBy (queue : List QueueEntry) (openBlockers : Finset Nat) : List Occurrence :=
  (queue.filter fun e => e.state = .live .running &&
    (admitEntry e openBlockers).state ≠ .live .running).map fun e => .putBack e.number

def Session.call (s : Session) : Call → Session
  | .enqueue number blockedBy openBlockers writer fetched now =>
    { s with dispatcher :=
        (s.dispatcher.enqueue py number blockedBy openBlockers writer fetched now).1 }
  | .onEvent trigger fetched now => s.onEvent py trigger fetched now
  | Call.readmit openBlockers =>
    { dispatcher := s.dispatcher.readmit openBlockers
      history := s.history ++ movedBy s.dispatcher.queue openBlockers }
  | .tick => s.tick
  | .result number event _ => s.result number event

/-- Calls are taken one by one; none is refused. -/
def next (s : Session) (call : Call) : Option Session := some (s.call py call)

/-! ## What is promised -/

/-- Between two launches of an entry lies a `GATE_RED` for it. -/
def RedBetween (history : List Occurrence) : Prop :=
  ∀ before between after first second,
    history = before ++ .launched first :: between ++ .launched second :: after →
    first.number = second.number → .applied first.number .gateRed ∈ between

structure OncePerAttempt (s : Session) : Prop where
  fromQueued : ∀ entry, .launched entry ∈ s.history → entry.state = .live .queued
  redBetween : RedBetween s.history
  nonePutBack : ∀ number, .putBack number ∉ s.history
  distinct : (s.dispatcher.queue.map (·.number)).Nodup

/-- The readmissions that find no entry running. -/
def FindsNoneRunning (s : Session) (call : Call) : Prop :=
  match call with
  | Call.readmit _ => ∀ e ∈ s.dispatcher.queue, e.state ≠ .live .running
  | _ => True

/-! ## The invariant -/

/-- The last attempt of the entry is still running, or was its last. -/
def Busy (queue : List QueueEntry) (number : Nat) : Prop :=
  ∃ e ∈ queue, e.number = number ∧ (e.state = .live .running ∨ isTerminal e.state)

/-- A launch without a `GATE_RED` behind it keeps its entry busy. -/
def LaunchesBusy (s : Session) : Prop :=
  ∀ before first after, s.history = before ++ .launched first :: after →
    .applied first.number .gateRed ∉ after → Busy s.dispatcher.queue first.number

def Invariant (s : Session) : Prop := OncePerAttempt s ∧ LaunchesBusy s

theorem eq_of_number {queue : List QueueEntry} (h : (queue.map (·.number)).Nodup)
    {e e' : QueueEntry} (he : e ∈ queue) (he' : e' ∈ queue) (hn : e.number = e'.number) : e = e' :=
  List.inj_on_of_nodup_map h he he' hn

theorem not_queued_of_busy {queue : List QueueEntry} (h : (queue.map (·.number)).Nodup)
    {e : QueueEntry} (he : e ∈ queue) (hbusy : Busy queue e.number) : e.state ≠ .live .queued := by
  obtain ⟨e', he', hn, hstate⟩ := hbusy
  rw [eq_of_number h he he' hn.symm]
  rintro hqueued
  rcases hstate with hrunning | hterminal
  · rw [hqueued] at hrunning
    cases hrunning
  · rw [hqueued] at hterminal
    cases hterminal

/-- The last occurrence of a longer history. -/
theorem launch_in_append {history before after : List Occurrence} {o : Occurrence}
    {first : QueueEntry} (h : history ++ [o] = before ++ .launched first :: after) :
    (after = [] ∧ o = .launched first ∧ history = before) ∨
      ∃ after', after = after' ++ [o] ∧ history = before ++ .launched first :: after' := by
  rcases after.eq_nil_or_concat with rfl | ⟨after', o', rfl⟩
  · obtain ⟨hhistory, ho⟩ := List.append_inj' h rfl
    exact .inl ⟨rfl, List.head_eq_of_cons_eq ho, hhistory⟩
  · rw [List.concat_eq_append, ← List.cons_append, ← List.append_assoc] at h
    obtain ⟨hhistory, ho⟩ := List.append_inj' h rfl
    refine .inr ⟨after', ?_, hhistory⟩
    rw [List.concat_eq_append, List.head_eq_of_cons_eq ho]

theorem redBetween_append {history : List Occurrence} {o : Occurrence} (h : RedBetween history)
    (ho : ∀ second, o = .launched second → ∀ before first between,
      history = before ++ .launched first :: between → first.number = second.number →
        .applied first.number .gateRed ∈ between) :
    RedBetween (history ++ [o]) := by
  intro before between after first second hsplit hn
  have hsplit' : history ++ [o] =
      (before ++ .launched first :: between) ++ .launched second :: after := by
    rw [hsplit]
  rcases launch_in_append hsplit' with ⟨_, rfl, hhistory⟩ | ⟨after', _, hhistory⟩
  · exact ho second rfl before first between hhistory hn
  · exact h before between after' first second hhistory hn

theorem numbers_map {queue : List QueueEntry} {f : QueueEntry → QueueEntry}
    (hf : ∀ e ∈ queue, (f e).number = e.number) :
    (queue.map f).map (·.number) = queue.map (·.number) := by
  rw [List.map_map]
  exact List.map_congr_left hf

/-- An entry that takes the place of the one with its number. -/
theorem busy_replaced {queue : List QueueEntry} (next : QueueEntry) {number : Nat}
    (h : Busy queue number) (hnext : next.number = number →
      next.state = .live .running ∨ isTerminal next.state) :
    Busy (queue.map fun e => if e.number = next.number then next else e) number := by
  obtain ⟨e, he, hn, hstate⟩ := h
  by_cases heq : e.number = next.number
  · exact ⟨next, List.mem_map.2 ⟨e, he, if_pos heq⟩, heq.symm.trans hn,
      hnext (heq.symm.trans hn)⟩
  · exact ⟨e, List.mem_map.2 ⟨e, he, if_neg heq⟩, hn, hstate⟩

/-! ## Steps -/

theorem fired_number {entry next : QueueEntry} {event : Event} (h : Fired entry event next) :
    next.number = entry.number := by
  cases h <;> rfl

theorem invariant_dispatch {s : Session} (h : Invariant s) {entry : QueueEntry}
    (hmem : entry ∈ s.dispatcher.queue) (hqueued : entry.state = .live .queued) :
    Invariant (s.dispatch entry) := by
  obtain ⟨⟨hfrom, hred, hput, hdistinct⟩, hbusy⟩ := h
  have hstart : transition entry .start = .ok { entry with state := .live .running } := by
    simp [transition, hqueued]
  simp only [Session.dispatch, hstart]
  refine ⟨⟨?_, ?_, ?_, ?_⟩, ?_⟩
  · intro e he
    rcases List.mem_append.1 he with he | he
    · exact hfrom e he
    · cases List.mem_singleton.1 he
      exact hqueued
  · refine redBetween_append hred ?_
    rintro second hsecond before first between hsplit hn
    cases hsecond
    by_contra hno
    have := hbusy before first between hsplit hno
    rw [hn] at this
    exact not_queued_of_busy hdistinct hmem this hqueued
  · intro number hin
    rcases List.mem_append.1 hin with hin | hin
    · exact hput number hin
    · cases List.mem_singleton.1 hin
  · rw [numbers_map]
    · exact hdistinct
    · intro e _
      split
      · rename_i heq
        exact heq.symm
      · rfl
  · intro before first after hsplit hno
    rcases launch_in_append hsplit with ⟨_, hlast, _⟩ | ⟨after', rfl, hold⟩
    · cases hlast
      exact ⟨{ entry with state := .live .running },
        List.mem_map.2 ⟨entry, hmem, if_pos rfl⟩, rfl, .inl rfl⟩
    · have hbefore := hbusy before first after' hold fun hin =>
        hno (List.mem_append_left _ hin)
      exact busy_replaced { entry with state := .live .running } hbefore
        fun _ => .inl rfl

theorem invariant_result {s : Session} (h : Invariant s) (number : Nat) (event : Event)
    (hresult : event ≠ .start) : Invariant (s.result number event) := by
  unfold Session.result
  split
  · exact h
  · rename_i entry hfind
    split
    · exact h
    · rename_i next hnext
      obtain ⟨⟨hfrom, hred, hput, hdistinct⟩, hbusy⟩ := h
      have hmem := List.mem_of_find?_eq_some hfind
      have hnumber : entry.number = number := by simpa using List.find?_some hfind
      have hfired := transition_fired entry next event hnext
      have hsame : next.number = number := (fired_number hfired).trans hnumber
      refine ⟨⟨?_, ?_, ?_, ?_⟩, ?_⟩
      · intro e he
        rcases List.mem_append.1 he with he | he
        · exact hfrom e he
        · cases List.mem_singleton.1 he
      · exact redBetween_append hred fun second hsecond => by cases hsecond
      · intro n hin
        rcases List.mem_append.1 hin with hin | hin
        · exact hput n hin
        · cases List.mem_singleton.1 hin
      · rw [numbers_map]
        · exact hdistinct
        · intro e _
          split
          · rename_i heq
            rw [hsame, heq]
          · rfl
      · intro before first after hsplit hno
        rcases launch_in_append hsplit with ⟨_, hlast, _⟩ | ⟨after', rfl, hold⟩
        · cases hlast
        · have hbefore := hbusy before first after' hold fun hin =>
            hno (List.mem_append_left _ hin)
          have hreplaced := busy_replaced next hbefore
          rw [hsame] at hreplaced
          refine hreplaced fun heq => ?_
          -- the result was not a `GATE_RED`, or it would stand behind the launch
          have hnotred : event ≠ .gateRed := by
            rintro rfl
            exact hno (by simp [heq])
          rw [← heq, ← hnumber] at hbefore
          have hnotqueued := not_queued_of_busy hdistinct hmem hbefore
          cases hfired with
          | frozen _ hterminal => exact .inr hterminal
          | started hqueued => exact absurd rfl hresult
          | green _ => exact .inr rfl
          | stopped _ _ _ => exact .inr rfl
          | exhausted _ => exact absurd rfl hnotred
          | escalated _ _ _ => exact absurd rfl hnotred

theorem readmit_number (entry : QueueEntry) (openBlockers : Finset Nat) :
    (if !isTerminal entry.state then admitEntry entry openBlockers else entry).number =
      entry.number := by
  split
  · rcases admit_cases entry openBlockers with hsame | ⟨_, state, reason, _, hparked⟩
    · rw [hsame]
    · rw [hparked]
  · rfl

theorem movedBy_eq_nil {queue : List QueueEntry} (openBlockers : Finset Nat) :
    movedBy queue openBlockers = [] ↔ ∀ e ∈ queue, e.state ≠ .live .running := by
  simp [movedBy, List.filter_eq_nil_iff, admit_running]

theorem invariant_readmit {s : Session} (h : Invariant s) (openBlockers : Finset Nat)
    (hnone : ∀ e ∈ s.dispatcher.queue, e.state ≠ .live .running) :
    Invariant (s.call py (Call.readmit openBlockers)) := by
  obtain ⟨⟨hfrom, hred, hput, hdistinct⟩, hbusy⟩ := h
  simp only [Session.call, (movedBy_eq_nil openBlockers).2 hnone, List.append_nil]
  refine ⟨⟨hfrom, hred, hput, ?_⟩, ?_⟩
  · simp only [Dispatcher.readmit]
    rw [numbers_map fun e _ => readmit_number e openBlockers]
    exact hdistinct
  · intro before first after hsplit hno
    obtain ⟨e, he, hn, hstate⟩ := hbusy before first after hsplit hno
    have hterminal := hstate.resolve_left (hnone e he)
    refine ⟨e, List.mem_map.2 ⟨e, he, ?_⟩, hn, .inr hterminal⟩
    rw [if_neg (by simp [hterminal])]

/-- The gate makes an entry for the issue it was asked about. -/
theorem admitToQueue_number {request : InputContract.Request} {body : Text}
    {writer : InputContract.WriterClass} {ledger led : InputContract.AdmissionLedger}
    {injectionPark : Bool} {now : Int} {gated : InputContract.QueueEntry}
    (h : InputContract.admitToQueue py request body writer ledger injectionPark now =
      .entry gated led) : gated.number = request.number := by
  unfold InputContract.admitToQueue at h
  simp only at h
  repeat' split at h
  all_goals cases h
  all_goals rfl

theorem enqueue_cases (d : Dispatcher) (number : Nat) (blockedBy : List Nat)
    (openBlockers : Finset Nat) (writer : InputContract.WriterClass) (fetched : Option Text)
    (now : Int) :
    ((d.enqueue py number blockedBy openBlockers writer fetched now).1.queue = d.queue ∧
        ∀ entry, (d.enqueue py number blockedBy openBlockers writer fetched now).2 = some entry →
          entry ∈ d.queue) ∨
      ∃ entry, entry.number = number ∧ number ∉ d.queue.map (·.number) ∧
        (d.enqueue py number blockedBy openBlockers writer fetched now).2 = some entry ∧
        (d.enqueue py number blockedBy openBlockers writer fetched now).1.queue =
          d.queue ++ [entry] := by
  unfold Dispatcher.enqueue
  split
  · rename_i entry hfind
    refine .inl ⟨rfl, fun e he => ?_⟩
    cases he
    exact List.mem_of_find?_eq_some hfind
  · rename_i hfind
    split
    · exact .inl ⟨rfl, fun e he => by cases he⟩
    · split
      · exact .inl ⟨rfl, fun e he => by cases he⟩
      · rename_i gated ledger hgate
        refine .inr ⟨admitEntry (.ofGate gated) openBlockers, ?_, ?_, rfl, rfl⟩
        · have hnumber := admitToQueue_number py hgate
          rcases admit_cases (.ofGate gated) openBlockers with hsame | ⟨_, state, reason, _, hparked⟩
          · rw [hsame]
            exact hnumber
          · rw [hparked]
            exact hnumber
        · intro hin
          obtain ⟨e, he, hn⟩ := List.mem_map.1 hin
          exact absurd hn (by simpa using List.find?_eq_none.1 hfind e he)

theorem invariant_enqueue {s : Session} (h : Invariant s) (number : Nat) (blockedBy : List Nat)
    (openBlockers : Finset Nat) (writer : InputContract.WriterClass) (fetched : Option Text)
    (now : Int) : Invariant { s with dispatcher :=
      (s.dispatcher.enqueue py number blockedBy openBlockers writer fetched now).1 } := by
  obtain ⟨⟨hfrom, hred, hput, hdistinct⟩, hbusy⟩ := h
  rcases enqueue_cases py s.dispatcher number blockedBy openBlockers writer fetched now with
    ⟨hqueue, _⟩ | ⟨entry, hn, hnew, _, hqueue⟩
  · exact ⟨⟨hfrom, hred, hput, by rw [hqueue]; exact hdistinct⟩,
      fun before first after hsplit hno => by
        rw [hqueue]
        exact hbusy before first after hsplit hno⟩
  · refine ⟨⟨hfrom, hred, hput, ?_⟩, ?_⟩
    · rw [hqueue, List.map_append, List.map_singleton, hn]
      exact List.nodup_append_comm.1 (List.nodup_cons.2 ⟨hnew, hdistinct⟩)
    · intro before first after hsplit hno
      obtain ⟨e, he, hbusy⟩ := hbusy before first after hsplit hno
      rw [hqueue]
      exact ⟨e, List.mem_append_left _ he, hbusy⟩

theorem invariant_step {s t : Session} {call : Call} (ht : next py s call = some t)
    (h : Invariant s) (hcall : FindsNoneRunning s call) : Invariant t := by
  cases ht
  cases call with
  | enqueue number blockedBy openBlockers writer fetched now =>
    exact invariant_enqueue py h number blockedBy openBlockers writer fetched now
  | onEvent trigger fetched now =>
    have hadmitted := invariant_enqueue py h trigger.issue [] ∅ .humanGithub fetched now
    have hcases := enqueue_cases py s.dispatcher trigger.issue [] ∅ .humanGithub fetched now
    simp only [Session.call, Session.onEvent]
    split
    · rename_i d heq
      rw [heq] at hadmitted
      exact hadmitted
    · rename_i d entry heq
      rw [heq] at hadmitted hcases
      split
      · rename_i hgrabbable
        refine invariant_dispatch hadmitted ?_ (of_decide_eq_true hgrabbable)
        rcases hcases with ⟨hqueue, hmem⟩ | ⟨e, _, _, he, hqueue⟩
        · simp only at hqueue ⊢
          rw [hqueue]
          exact hmem entry rfl
        · cases he
          simp only at hqueue ⊢
          rw [hqueue]
          exact List.mem_append_right _ List.mem_cons_self
      · exact hadmitted
  | readmit openBlockers => exact invariant_readmit py h openBlockers hcall
  | tick =>
    simp only [Session.call, Session.tick]
    split
    · rename_i entry hfind
      have hgrabbable : isGrabbable entry := List.find?_some hfind
      exact invariant_dispatch h (List.mem_of_find?_eq_some hfind) (of_decide_eq_true hgrabbable)
    · exact h
  | result number event hresult => exact invariant_result h number event hresult

/-! ## Sessions -/

theorem invariant_fresh (ledger : InputContract.AdmissionLedger) :
    Invariant { dispatcher := { ledger := ledger } } := by
  refine ⟨⟨?_, ?_, ?_, List.nodup_nil⟩, ?_⟩
  · intro entry he
    cases he
  · intro before between after first second hsplit
    simp at hsplit
  · intro number hin
    cases hin
  · intro before first after hsplit
    simp at hsplit

/-- A readmission that finds a running entry puts it back. -/
theorem findsNoneRunning_of_good {s t : Session} {call : Call} (ht : next py s call = some t)
    (h : OncePerAttempt t) : FindsNoneRunning s call := by
  cases ht
  cases call with
  | readmit openBlockers =>
    refine (movedBy_eq_nil openBlockers).1 (List.eq_nil_iff_forall_not_mem.2 fun o ho => ?_)
    obtain ⟨e, he, rfl⟩ := List.mem_map.1 ho
    exact h.nonePutBack e.number (List.mem_append_right _ ho)
  | _ => trivial

theorem once_per_attempt_iff (ledger : InputContract.AdmissionLedger) (calls : List Call) :
    Runs.Always (next py) OncePerAttempt { dispatcher := { ledger := ledger } } calls ↔
      Runs.Throughout (next py) FindsNoneRunning { dispatcher := { ledger := ledger } } calls := by
  constructor
  · intro h
    generalize ({ dispatcher := { ledger := ledger } } : Session) = s at h
    induction calls generalizing s with
    | nil => trivial
    | cons call calls ih =>
      exact ⟨findsNoneRunning_of_good py rfl (h.2 _ rfl).start, fun t ht => ih t (h.2 t ht)⟩
  · intro h
    have hall : Runs.Always (next py) Invariant { dispatcher := { ledger := ledger } } calls :=
      Runs.always_of_throughout (fun s call t ht hs hcall => invariant_step py ht hs hcall) h
        (invariant_fresh ledger)
    exact hall.mono fun s hs => hs.1

/-- The blockers change while issue 1 is running. -/
def changedBlockers : List Call :=
  [.enqueue 1 [] ∅ .humanGithub (some "## Acceptance criteria\n- [ ] a\n".toList) 0, .tick,
    Call.readmit ∅, .tick]

theorem relaunched :
    ¬Runs.Always (next AdmissionParity.samplePy) OncePerAttempt {} changedBlockers := by
  intro h
  have hrun : Runs.run (next AdmissionParity.samplePy) {} changedBlockers =
      some (changedBlockers.foldl (Session.call AdmissionParity.samplePy) {}) := rfl
  have hhistory : (changedBlockers.foldl (Session.call AdmissionParity.samplePy) {}).history =
      [.launched { number := 1 }, .putBack 1, .launched { number := 1 }] := by decide +kernel
  have hred := (h.finish hrun).redBetween [] [.putBack 1] [] _ _ hhistory rfl
  simp at hred

end Agentrail.Heartbeat
