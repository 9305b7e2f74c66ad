import Mathlib.Algebra.Group.Nat.Defs
import Agentrail.Guardrails.AdmissionParity

/-!
# Histories of the entrance ledger

Calls of `admit_to_queue` that thread the ledger.  `admit_cases` says once what a
call does to the ledger: it rolls it to the window of the call, and a queued issue is
recorded.  All that follows is about `countIn`, the count of a writer in a window.

Main results:

* `admission_history`: what holds of every history with non-decreasing times.
* `ledger_effects`: what another writer's issue and a parked issue do change.
-/

namespace Agentrail.AdmissionHistory

open Py InputContract AdmissionParity

/-! ## Calls -/

/-- A call of `admit_to_queue`; the ledger is threaded. -/
structure Call where
  request : Request
  issueBody : Text
  writer : WriterClass
  injectionPark : Bool
  now : Int

inductive Raised where
  | overflowError (msg : String)
  deriving DecidableEq, Repr

/-- From here on an `int` is no `float`. -/
def floatOverflow : Nat := 2 ^ 1024 - 2 ^ 970

/-- What a call leaves behind, with the ledger it was handed. -/
structure Outcome where
  call : Call
  before : AdmissionLedger
  admission : Admission

section
variable (py : Interpreter)

/-- `admit_to_queue` with what `current // window` raises before any check. -/
def admitCall (ledger : AdmissionLedger) (call : Call) : Except Raised Admission :=
  if floatOverflow ≤ defaultWindowSeconds py then
    .error (.overflowError "int too large to convert to float")
  else
    .ok (admitToQueue py call.request call.issueBody call.writer ledger call.injectionPark call.now)

def admitAll (ledger : AdmissionLedger) : List Call → Except Raised (List Outcome)
  | [] => .ok []
  | call :: calls => do
    let admission ← admitCall py ledger call
    let rest ← admitAll admission.ledger calls
    .ok ({ call := call, before := ledger, admission := admission } :: rest)

def Call.hash (call : Call) : Text := contentHash py call.issueBody

def Call.window (call : Call) : Int := bucket py call.now

end

def isQueued : Admission → Bool
  | .entry entry _ => entry.state = .queued
  | .rejected _ _ => false

/-- The decision without the ledger. -/
inductive Decision where
  | entry (entry : QueueEntry)
  | rejected (missingAc : String)
  deriving DecidableEq, Repr

def decision : Admission → Decision
  | .entry entry _ => .entry entry
  | .rejected missingAc _ => .rejected missingAc

/-- The count of a writer in a window. -/
def countIn (ledger : AdmissionLedger) (window : Int) (writer : WriterClass) : Nat :=
  if ledger.windowBucket = some window then ledger.count writer else 0

def limitOf (ledger : AdmissionLedger) (writer : WriterClass) : Nat :=
  (getItem writer ledger.limits).getD 0

/-- The ledger is not ahead of a window. -/
def NotAhead (ledger : AdmissionLedger) (window : Int) : Prop :=
  ∀ b, ledger.windowBucket = some b → b ≤ window

/-! ## One call -/

section
variable (py : Interpreter) (ledger : AdmissionLedger) (call : Call)

def admissionOf : Admission :=
  admitToQueue py call.request call.issueBody call.writer ledger call.injectionPark call.now

theorem admit_cases :
    (isQueued (admissionOf py ledger call) = true ∧
      (ledger.forWindow (call.window py)).hasContent (call.hash py) = false ∧
      (ledger.forWindow (call.window py)).rateLimitExceeded call.writer = .ok false ∧
      (admissionOf py ledger call).ledger =
        (ledger.forWindow (call.window py)).recordAdmission call.writer (call.hash py)) ∨
    (isQueued (admissionOf py ledger call) = false ∧
      (admissionOf py ledger call).ledger = ledger.forWindow (call.window py)) := by
  unfold admissionOf admitToQueue
  dsimp only
  split
  · right
    split <;> exact ⟨rfl, rfl⟩
  · split
    · exact .inr ⟨rfl, rfl⟩
    · split
      · exact .inr ⟨rfl, rfl⟩
      · rename_i hnew
        split
        · exact .inr ⟨rfl, rfl⟩
        · exact .inr ⟨rfl, rfl⟩
        · rename_i hrate
          exact .inl ⟨rfl, Bool.not_eq_true _ ▸ hnew, hrate, rfl⟩

/-- The decision asks the ledger only for the content and the rate of the writer. -/
theorem decision_congr (ledger' : AdmissionLedger)
    (hseen : (ledger.forWindow (call.window py)).hasContent (call.hash py) =
      (ledger'.forWindow (call.window py)).hasContent (call.hash py))
    (hrate : (ledger.forWindow (call.window py)).rateLimitExceeded call.writer =
      (ledger'.forWindow (call.window py)).rateLimitExceeded call.writer) :
    decision (admissionOf py ledger call) = decision (admissionOf py ledger' call) := by
  unfold Call.window bucket at hseen hrate
  unfold Call.hash at hseen
  unfold admissionOf admitToQueue
  dsimp only
  rw [hseen, hrate]
  split
  · split <;> rfl
  · split
    · rfl
    · split
      · rfl
      · split <;> rfl

end

theorem isQueued_decision (a a' : Admission) (h : decision a = decision a') :
    isQueued a = isQueued a' := by
  cases a <;> cases a' <;> simp_all [decision, isQueued]

theorem count_forWindow (ledger : AdmissionLedger) (window : Int) (writer : WriterClass) :
    (ledger.forWindow window).count writer = countIn ledger window writer := by
  unfold countIn AdmissionLedger.forWindow
  split <;> rfl

theorem countIn_forWindow (ledger : AdmissionLedger) (window window' : Int) (writer : WriterClass)
    (h : NotAhead ledger window) (hle : window ≤ window') :
    countIn (ledger.forWindow window) window' writer = countIn ledger window' writer := by
  unfold countIn
  rw [pyBucket_forWindow, count_forWindow]
  by_cases hsame : window = window'
  · subst hsame
    rw [if_pos rfl]
    rfl
  · have hold : ledger.windowBucket ≠ some window' := by
      intro hahead
      have := h window' hahead
      omega
    rw [if_neg (by simpa using hsame), if_neg hold]

/-- A queued issue counts once, for its writer in its window; nothing else does. -/
theorem countIn_admitted (py : Interpreter) (ledger : AdmissionLedger) (call : Call) (window : Int)
    (writer : WriterClass) (h : NotAhead ledger (call.window py)) (hle : call.window py ≤ window) :
    countIn (admissionOf py ledger call).ledger window writer = countIn ledger window writer +
      (if isQueued (admissionOf py ledger call) ∧ call.window py = window ∧ call.writer = writer
        then 1 else 0) := by
  rcases admit_cases py ledger call with ⟨hqueued, -, -, hledger⟩ | ⟨hheld, hledger⟩
  · have hbucket : ((ledger.forWindow (call.window py)).recordAdmission call.writer
        (call.hash py)).windowBucket = some (call.window py) :=
      pyBucket_forWindow ledger (call.window py)
    have hrolled := countIn_forWindow ledger (call.window py) window writer h hle
    rw [hledger, hqueued, ← hrolled]
    unfold countIn
    rw [hbucket, pyBucket_forWindow, count_recordAdmission]
    by_cases hwindow : call.window py = window
    · by_cases hwriter : call.writer = writer
      · simp [hwindow, hwriter]
      · simp [hwindow, hwriter]
    · simp [hwindow]
  · rw [hledger, hheld, countIn_forWindow ledger _ window writer h hle]
    simp

theorem seen_admitted (py : Interpreter) (ledger : AdmissionLedger) (call : Call) :
    (admissionOf py ledger call).ledger.seenHashes =
      if isQueued (admissionOf py ledger call) then call.hash py :: ledger.seenHashes
      else ledger.seenHashes := by
  rcases admit_cases py ledger call with ⟨hqueued, -, -, hledger⟩ | ⟨hheld, hledger⟩
  · rw [hledger, hqueued, if_pos rfl]
    exact congrArg (call.hash py :: ·) (pySeen_forWindow ledger (call.window py))
  · rw [hledger, hheld, if_neg nofun, pySeen_forWindow]

theorem limits_admitted (py : Interpreter) (ledger : AdmissionLedger) (call : Call) :
    (admissionOf py ledger call).ledger.limits = ledger.limits := by
  rcases admit_cases py ledger call with ⟨-, -, -, hledger⟩ | ⟨-, hledger⟩
  · rw [hledger]
    exact pyLimits_forWindow ledger (call.window py)
  · rw [hledger, pyLimits_forWindow]

theorem notAhead_admit (py : Interpreter) (ledger : AdmissionLedger) (call : Call) (window : Int)
    (hle : call.window py ≤ window) : NotAhead (admissionOf py ledger call).ledger window := by
  have hbucket : (admissionOf py ledger call).ledger.windowBucket = some (call.window py) := by
    rcases admit_cases py ledger call with ⟨-, -, -, hledger⟩ | ⟨-, hledger⟩
    · rw [hledger]
      exact pyBucket_forWindow ledger (call.window py)
    · rw [hledger, pyBucket_forWindow]
  intro b hb
  rw [hbucket] at hb
  obtain rfl := Option.some.inj hb
  exact hle

/-- A queued issue was below the limit of its writer. -/
theorem below_of_queued (py : Interpreter) (ledger : AdmissionLedger) (call : Call)
    (h : isQueued (admissionOf py ledger call)) :
    countIn ledger (call.window py) call.writer < limitOf ledger call.writer := by
  rcases admit_cases py ledger call with ⟨-, -, hrate, -⟩ | ⟨hheld, -⟩
  · unfold AdmissionLedger.rateLimitExceeded at hrate
    rw [pyLimits_forWindow, count_forWindow] at hrate
    unfold limitOf
    cases hlimit : getItem call.writer ledger.limits with
    | none =>
      rw [hlimit] at hrate
      cases hrate
    | some limit =>
      rw [hlimit] at hrate
      have hfree : ¬ limit ≤ countIn ledger (call.window py) call.writer := by
        simpa using hrate
      show countIn ledger (call.window py) call.writer < limit
      omega
  · rw [hheld] at h
    cases h

theorem new_of_queued (py : Interpreter) (ledger : AdmissionLedger) (call : Call)
    (h : isQueued (admissionOf py ledger call)) : call.hash py ∉ ledger.seenHashes := by
  rcases admit_cases py ledger call with ⟨-, hnew, -, -⟩ | ⟨hheld, -⟩
  · unfold AdmissionLedger.hasContent at hnew
    rw [pySeen_forWindow] at hnew
    simpa using hnew
  · rw [hheld] at h
    cases h

/-! ## Histories -/

/-- The history of calls none of which raises. -/
def history (py : Interpreter) (ledger : AdmissionLedger) : List Call → List Outcome
  | [] => []
  | call :: calls =>
    { call := call, before := ledger, admission := admissionOf py ledger call } ::
      history py (admissionOf py ledger call).ledger calls

theorem history_cons (py : Interpreter) (ledger : AdmissionLedger) (call : Call)
    (calls : List Call) : history py ledger (call :: calls) =
      { call := call, before := ledger, admission := admissionOf py ledger call } ::
        history py (admissionOf py ledger call).ledger calls := rfl

/-- The windows of the calls do not go back, nor behind the ledger. -/
def InOrder (py : Interpreter) (ledger : AdmissionLedger) (calls : List Call) : Prop :=
  (calls.map (Call.window py)).Pairwise (· ≤ ·) ∧ ∀ call ∈ calls, NotAhead ledger (call.window py)

section
variable (py : Interpreter)

theorem admitAll_eq (hwindow : defaultWindowSeconds py < floatOverflow) (ledger : AdmissionLedger)
    (calls : List Call) : admitAll py ledger calls = .ok (history py ledger calls) := by
  induction calls generalizing ledger with
  | nil => rfl
  | cons call calls ih =>
    have hcall : admitCall py ledger call = .ok (admissionOf py ledger call) := by
      unfold admitCall
      rw [if_neg (by omega)]
      rfl
    simp only [admitAll, hcall, history]
    rw [except_bind_eq_ok]
    exact ⟨_, rfl, (except_bind_eq_ok _ _ _).mpr ⟨_, ih _, rfl⟩⟩

theorem InOrder.tail {py : Interpreter} {ledger : AdmissionLedger} {call : Call}
    {calls : List Call} (h : InOrder py ledger (call :: calls)) :
    InOrder py (admissionOf py ledger call).ledger calls := by
  obtain ⟨hsorted, -⟩ := h
  rw [List.map_cons, List.pairwise_cons] at hsorted
  refine ⟨hsorted.2, ?_⟩
  intro later hlater
  exact notAhead_admit py ledger call _ (hsorted.1 _ (List.mem_map_of_mem hlater))

/-- The issues of a writer that were queued in a window. -/
def queuedIn (window : Int) (writer : WriterClass) (outcome : Outcome) : Bool :=
  isQueued outcome.admission ∧ outcome.call.window py = window ∧ outcome.call.writer = writer

theorem queuedIn_of_later (ledger : AdmissionLedger) (calls : List Call) (window : Int)
    (writer : WriterClass) (h : ∀ call ∈ calls, window < call.window py) :
    (history py ledger calls).countP (queuedIn py window writer) = 0 := by
  induction calls generalizing ledger with
  | nil => rfl
  | cons call calls ih =>
    rw [List.forall_mem_cons] at h
    have hcall := h.1
    rw [history_cons, List.countP_cons_of_neg, ih _ h.2]
    have hne : call.window py ≠ window := by omega
    simp [queuedIn, hne]

theorem queuedIn_le (ledger : AdmissionLedger) (calls : List Call) (window : Int)
    (writer : WriterClass) (horder : InOrder py ledger calls)
    (hledger : countIn ledger window writer ≤ limitOf ledger writer) :
    countIn ledger window writer + (history py ledger calls).countP (queuedIn py window writer) ≤
      limitOf ledger writer := by
  induction calls generalizing ledger with
  | nil => exact hledger
  | cons call calls ih =>
    have hahead := horder.2 call List.mem_cons_self
    by_cases hpast : window < call.window py
    · rw [queuedIn_of_later py ledger (call :: calls) window writer]
      · exact hledger
      · intro later hlater
        have hsorted := List.pairwise_cons.mp horder.1
        rcases List.mem_cons.mp hlater with rfl | hlater
        · exact hpast
        · exact lt_of_lt_of_le hpast (hsorted.1 _ (List.mem_map_of_mem hlater))
    · have hcount := countIn_admitted py ledger call window writer hahead (by omega)
      have hlimit : limitOf (admissionOf py ledger call).ledger writer = limitOf ledger writer := by
        unfold limitOf
        rw [limits_admitted]
      have hnext := ih (admissionOf py ledger call).ledger horder.tail
      rw [history_cons, List.countP_cons, ← hlimit]
      by_cases hqueued : queuedIn py window writer
          { call := call, before := ledger, admission := admissionOf py ledger call }
      · have hparts := of_decide_eq_true hqueued
        have hbelow := below_of_queued py ledger call hparts.1
        rw [hparts.2.1, hparts.2.2] at hbelow
        rw [if_pos hparts] at hcount
        rw [if_pos hqueued]
        have := hnext (by omega)
        omega
      · have hparts : ¬ (isQueued (admissionOf py ledger call) ∧ call.window py = window ∧
            call.writer = writer) := fun h => hqueued (decide_eq_true h)
        rw [if_neg hparts] at hcount
        rw [if_neg hqueued]
        have := hnext (by omega)
        omega

/-- The hashes of the queued issues. -/
def queuedHashes (outcomes : List Outcome) : List Text :=
  (outcomes.filter fun outcome => isQueued outcome.admission).map fun outcome => outcome.call.hash py

theorem queuedHashes_new (ledger : AdmissionLedger) (calls : List Call) :
    (queuedHashes py (history py ledger calls)).Nodup ∧
      ∀ h ∈ queuedHashes py (history py ledger calls), h ∉ ledger.seenHashes := by
  induction calls generalizing ledger with
  | nil => exact ⟨List.nodup_nil, nofun⟩
  | cons call calls ih =>
    obtain ⟨hnodup, hnew⟩ := ih (admissionOf py ledger call).ledger
    rw [seen_admitted] at hnew
    rw [history_cons]
    unfold queuedHashes
    cases hqueued : isQueued (admissionOf py ledger call) with
    | false =>
      rw [hqueued, if_neg nofun] at hnew
      rw [List.filter_cons_of_neg (by simp [hqueued])]
      exact ⟨hnodup, hnew⟩
    | true =>
      rw [hqueued, if_pos rfl] at hnew
      rw [List.filter_cons_of_pos (by exact hqueued), List.map_cons]
      refine ⟨List.nodup_cons.mpr ⟨?_, hnodup⟩, ?_⟩
      · intro hmem
        exact hnew _ hmem List.mem_cons_self
      · intro h hh
        rcases List.mem_cons.mp hh with rfl | hh
        · exact new_of_queued py ledger call hqueued
        · exact fun hseen => hnew h hh (List.mem_cons_of_mem _ hseen)

/-- What one call of a history does to the hashes and to the counts of its window. -/
structure Effect (outcome : Outcome) : Prop where
  /-- a parked or rejected issue changes neither -/
  held : isQueued outcome.admission = false →
    outcome.admission.ledger.seenHashes = outcome.before.seenHashes ∧
      ∀ writer, countIn outcome.admission.ledger (outcome.call.window py) writer =
        countIn outcome.before (outcome.call.window py) writer
  /-- no issue changes the count of another writer -/
  others : ∀ writer, writer ≠ outcome.call.writer →
    countIn outcome.admission.ledger (outcome.call.window py) writer =
      countIn outcome.before (outcome.call.window py) writer

theorem history_effects (ledger : AdmissionLedger) (calls : List Call)
    (horder : InOrder py ledger calls) : ∀ outcome ∈ history py ledger calls, Effect py outcome := by
  induction calls generalizing ledger with
  | nil => nofun
  | cons call calls ih =>
    intro outcome hmem
    rcases List.mem_cons.mp hmem with rfl | hmem
    · have hahead := horder.2 call List.mem_cons_self
      refine ⟨?_, ?_⟩
      · intro hheld
        refine ⟨?_, ?_⟩
        · show (admissionOf py ledger call).ledger.seenHashes = ledger.seenHashes
          rw [seen_admitted, hheld, if_neg nofun]
        · intro writer
          show countIn (admissionOf py ledger call).ledger _ writer = _
          rw [countIn_admitted py ledger call _ writer hahead le_rfl, hheld, if_neg (by simp)]
          rfl
      · intro writer hwriter
        show countIn (admissionOf py ledger call).ledger _ writer = _
        rw [countIn_admitted py ledger call _ writer hahead le_rfl,
          if_neg fun h => hwriter h.2.2.symm]
        rfl
    · exact ih _ horder.tail outcome hmem

/-! ## One writer alone -/

/-- Two ledgers that a writer with these contents cannot tell apart, from a window on. -/
structure SameFor (writer : WriterClass) (contents : List Text) (ledger alone : AdmissionLedger)
    (window : Int) : Prop where
  limits : ledger.limits = alone.limits
  counts : ∀ w, window ≤ w → countIn ledger w writer = countIn alone w writer
  seen : ∀ h ∈ contents, (h ∈ ledger.seenHashes ↔ h ∈ alone.seenHashes)

theorem SameFor.decision {py : Interpreter} {writer : WriterClass} {contents : List Text}
    {ledger alone : AdmissionLedger} {window : Int} (h : SameFor writer contents ledger alone window)
    (call : Call) (hwriter : call.writer = writer) (hcontent : call.hash py ∈ contents)
    (hle : window ≤ call.window py) :
    decision (admissionOf py ledger call) = decision (admissionOf py alone call) := by
  refine decision_congr py ledger call alone ?_ ?_
  · unfold AdmissionLedger.hasContent
    rw [pySeen_forWindow, pySeen_forWindow, Bool.eq_iff_iff]
    simpa using h.seen _ hcontent
  · unfold AdmissionLedger.rateLimitExceeded
    rw [pyLimits_forWindow, pyLimits_forWindow, count_forWindow, count_forWindow, h.limits, hwriter,
      h.counts _ hle]

/-- Another writer's issue of other content leaves them alike. -/
theorem SameFor.other {writer : WriterClass} {contents : List Text}
    {ledger alone : AdmissionLedger} {window : Int} (h : SameFor writer contents ledger alone window)
    (call : Call) (hwriter : call.writer ≠ writer) (hcontent : call.hash py ∉ contents)
    (hahead : NotAhead ledger (call.window py)) (hle : window ≤ call.window py) :
    SameFor writer contents (admissionOf py ledger call).ledger alone (call.window py) := by
  refine ⟨?_, ?_, ?_⟩
  · rw [limits_admitted]
    exact h.limits
  · intro w hw
    rw [countIn_admitted py ledger call w writer hahead hw, if_neg fun hq => hwriter hq.2.2,
      Nat.add_zero]
    exact h.counts w (by omega)
  · intro hash hhash
    rw [seen_admitted, ← h.seen hash hhash]
    split
    · have hne : hash ≠ call.hash py := fun he => hcontent (he ▸ hhash)
      simp [hne]
    · rfl

/-- An issue of the writer itself, on both sides. -/
theorem SameFor.own {writer : WriterClass} {contents : List Text}
    {ledger alone : AdmissionLedger} {window : Int} (h : SameFor writer contents ledger alone window)
    (call : Call) (hwriter : call.writer = writer) (hcontent : call.hash py ∈ contents)
    (hahead : NotAhead ledger (call.window py)) (halone : NotAhead alone (call.window py))
    (hle : window ≤ call.window py) :
    SameFor writer contents (admissionOf py ledger call).ledger
      (admissionOf py alone call).ledger (call.window py) := by
  have hqueued := isQueued_decision _ _ (h.decision call hwriter hcontent hle)
  refine ⟨?_, ?_, ?_⟩
  · rw [limits_admitted, limits_admitted]
    exact h.limits
  · intro w hw
    rw [countIn_admitted py ledger call w writer hahead hw,
      countIn_admitted py alone call w writer halone hw, hqueued, h.counts w (by omega)]
  · intro hash hhash
    have hseen := h.seen hash hhash
    rw [seen_admitted, seen_admitted, hqueued]
    split
    · rw [List.mem_cons, List.mem_cons, hseen]
    · exact hseen

/-- The decisions on the issues of a writer. -/
def decisionsOn (writer : WriterClass) (outcomes : List Outcome) : List Decision :=
  (outcomes.filter fun outcome => outcome.call.writer = writer).map fun outcome =>
    decision outcome.admission

theorem decisionsOn_alone (writer : WriterClass) (contents : List Text)
    (ledger alone : AdmissionLedger) (calls : List Call) (window : Int)
    (hsame : SameFor writer contents ledger alone window)
    (horder : InOrder py ledger calls) (halone : ∀ call ∈ calls, NotAhead alone (call.window py))
    (hle : ∀ call ∈ calls, window ≤ call.window py)
    (hown : ∀ call ∈ calls, call.writer = writer → call.hash py ∈ contents)
    (hother : ∀ call ∈ calls, call.writer ≠ writer → call.hash py ∉ contents) :
    decisionsOn writer (history py ledger calls) =
      (history py alone (calls.filter fun call => call.writer = writer)).map
        fun outcome => decision outcome.admission := by
  induction calls generalizing ledger alone window with
  | nil => rfl
  | cons call calls ih =>
    rw [List.forall_mem_cons] at halone hle hown hother
    have hahead := horder.2 call List.mem_cons_self
    have hlater : ∀ later ∈ calls, call.window py ≤ later.window py := by
      have hsorted := List.pairwise_cons.mp horder.1
      exact fun later hmem => hsorted.1 _ (List.mem_map_of_mem hmem)
    rw [history_cons]
    unfold decisionsOn
    by_cases hwriter : call.writer = writer
    · have hnext := hsame.own py call hwriter (hown.1 hwriter) hahead halone.1 hle.1
      rw [List.filter_cons_of_pos (by simpa using hwriter),
        List.filter_cons_of_pos (by simpa using hwriter), history_cons, List.map_cons]
      have hdecision := hsame.decision call hwriter (hown.1 hwriter) hle.1
      have hrest := ih _ _ _ hnext horder.tail
        (fun later hmem => notAhead_admit py alone call _ (hlater later hmem)) hlater hown.2 hother.2
      exact congrArg₂ List.cons hdecision hrest
    · have hnext := hsame.other py call hwriter (hother.1 hwriter) hahead hle.1
      rw [List.filter_cons_of_neg (by simpa using hwriter),
        List.filter_cons_of_neg (by simpa using hwriter)]
      exact ih _ _ _ hnext horder.tail halone.2 hlater hown.2 hother.2

/-! ## Every history -/

theorem defaultWindowSeconds_pos : 0 < defaultWindowSeconds py := by
  have hdefault : 0 < rateLimitWindowSeconds := by decide
  unfold defaultWindowSeconds
  split
  · exact hdefault
  · split
    · split
      · omega
      · exact hdefault
    · exact hdefault

theorem inOrder_fresh (limits : List (WriterClass × Nat)) (calls : List Call)
    (htimes : (calls.map Call.now).Pairwise (· ≤ ·)) :
    InOrder py { rateLimits := limits } calls := by
  refine ⟨?_, fun _ _ => nofun⟩
  have hmap : calls.map (Call.window py) = (calls.map Call.now).map (bucket py) := by
    rw [List.map_map]
    rfl
  rw [hmap, List.pairwise_map]
  refine htimes.imp ?_
  intro now now' hle
  have hpos := defaultWindowSeconds_pos py
  exact Int.ediv_le_ediv (by omega) hle

end

/-- **The entrance ledger.** In every history from a ledger without admissions, with times that do
not go back and a window length that a float holds: no call raises; a window queues at most the
limit of each writer; no content is queued twice; a parked or rejected issue changes neither the
hashes nor the counts of its window, nor any issue the count of another writer; and the issues of a
writer fare as they would alone if no other writer submits the same content. -/
theorem admission_history (py : Interpreter) (hwindow : defaultWindowSeconds py < floatOverflow)
    (limits : List (WriterClass × Nat)) (calls : List Call)
    (htimes : (calls.map Call.now).Pairwise (· ≤ ·)) :
    ∃ outcomes, admitAll py { rateLimits := limits } calls = .ok outcomes ∧
      (∀ window writer, outcomes.countP (queuedIn py window writer) ≤
        limitOf { rateLimits := limits } writer) ∧
      (queuedHashes py outcomes).Nodup ∧
      (∀ outcome ∈ outcomes, Effect py outcome) ∧
      ∀ writer, (∀ call ∈ calls, call.writer = writer → ∀ other ∈ calls, other.writer ≠ writer →
          other.hash py ≠ call.hash py) →
        ∃ alone, admitAll py { rateLimits := limits }
            (calls.filter fun call => call.writer = writer) = .ok alone ∧
          decisionsOn writer outcomes = alone.map fun outcome => decision outcome.admission := by
  have horder := inOrder_fresh py limits calls htimes
  refine ⟨_, admitAll_eq py hwindow _ calls, ?_, (queuedHashes_new py _ calls).1,
    history_effects py _ calls horder, ?_⟩
  · intro window writer
    have hle := queuedIn_le py { rateLimits := limits } calls window writer horder (Nat.zero_le _)
    have hzero : countIn { rateLimits := limits } window writer = 0 := rfl
    rw [hzero, Nat.zero_add] at hle
    exact hle
  · intro writer hapart
    refine ⟨_, admitAll_eq py hwindow _ _, ?_⟩
    cases calls with
    | nil => rfl
    | cons first calls =>
      have hlater : ∀ call ∈ first :: calls, first.window py ≤ call.window py := by
        have hsorted := List.pairwise_cons.mp horder.1
        intro call hmem
        rcases List.mem_cons.mp hmem with rfl | hmem
        · exact le_rfl
        · exact hsorted.1 _ (List.mem_map_of_mem hmem)
      refine decisionsOn_alone py writer
        (((first :: calls).filter fun call => call.writer = writer).map (Call.hash py)) _ _ _
        (first.window py) ⟨rfl, fun _ _ => rfl, fun _ _ => Iff.rfl⟩ horder horder.2 hlater ?_ ?_
      · intro call hmem hwriter
        exact List.mem_map_of_mem (List.mem_filter.mpr ⟨hmem, by simpa using hwriter⟩)
      · intro other hmem hwriter hcontent
        obtain ⟨call, hcall, hsame⟩ := List.mem_map.mp hcontent
        rw [List.mem_filter] at hcall
        exact hapart call hcall.1 (by simpa using hcall.2) other hmem hwriter hsame.symm

/-- An issue with one criterion. -/
def sampleCall (writer : WriterClass) (seconds : Int) : Call where
  request := { number := 1 }
  issueBody := "## Acceptance criteria\n- [ ] a\n".toList
  writer := writer
  injectionPark := true
  now := 1000000 * seconds

theorem admission_history_resubmitted :
    ∃ outcomes, admitAll samplePy {} [sampleCall .humanGithub 0, sampleCall .jace 1] = .ok outcomes ∧
      (queuedHashes samplePy outcomes).Nodup := by
  obtain ⟨outcomes, hall, -, hnodup, -⟩ := admission_history samplePy (by decide +kernel) []
    [sampleCall .humanGithub 0, sampleCall .jace 1] (by decide)
  exact ⟨outcomes, hall, hnodup⟩

/-- A duplicate in the next window empties the counts, and the issue that a person filed first
keeps the count of the other writer at zero. -/
theorem ledger_effects :
    (history samplePy {} [sampleCall .humanGithub 0, sampleCall .humanGithub 3600]).map
        (fun outcome => (isQueued outcome.admission, outcome.before.writerCounts,
          outcome.admission.ledger.writerCounts)) =
      [(true, [], [(.humanGithub, 1)]), (false, [(.humanGithub, 1)], [])] ∧
    (history samplePy {} [sampleCall .humanGithub 0, sampleCall .jace 1]).map
        (fun outcome => outcome.admission.ledger.count .jace) = [0, 0] ∧
    (history samplePy {} [sampleCall .jace 1]).map
        (fun outcome => outcome.admission.ledger.count .jace) = [1] := by
  decide +kernel

end Agentrail.AdmissionHistory
