import Agentrail.Afk.Store
import Agentrail.Py.Lines

/-!
# The flight recorder of an AFK run (`afk/journal.py`)

Every action that a store dispatches appends one JSON line to the journal, after a
first line that holds the starting state.  An action of a type that
`_ACTION_TYPES` lacks is not written.

    actionFromDict_actionToDict : a written action reads back
    readEvents_lines            : written events read back, after what the file held before
-/

namespace Agentrail.Afk

open Py

/-- What the recorder takes from the machine it runs on. -/
structure Host where
  sha1Hex : Bytes → Text
  newSessionId : Text
  newSessionId_ne_nil : newSessionId ≠ []

/-! ## Actions as JSON -/

/-- `action_to_dict`; `none` is the `TypeError` for a type that `_ACTION_TYPES` lacks. -/
def actionToDict : Action → Option Json
  | .enqueueIssue number title url blockedBy =>
    some (.dict [("number".toList, .int number), ("title".toList, .str title),
      ("url".toList, .str url), ("blocked_by".toList, intList blockedBy),
      ("type".toList, .str "EnqueueIssue".toList)])
  | .setBlockedBy _ _ => none
  | .claimIssue number slot =>
    some (.dict [("number".toList, .int number), ("slot".toList, .int slot),
      ("type".toList, .str "ClaimIssue".toList)])
  | .releaseIssue number =>
    some (.dict [("number".toList, .int number), ("type".toList, .str "ReleaseIssue".toList)])
  | .setStatus number status =>
    some (.dict [("number".toList, .int number), ("status".toList, .str status.value),
      ("type".toList, .str "SetStatus".toList)])
  | .setPr number pr =>
    some (.dict [("number".toList, .int number), ("pr".toList, .int pr),
      ("type".toList, .str "SetPr".toList)])
  | .recordFailure number error =>
    some (.dict [("number".toList, .int number), ("error".toList, optText error),
      ("type".toList, .str "RecordFailure".toList)])
  | .recordCost _ _ => none
  | .incrementReviewRound number =>
    some (.dict [("number".toList, .int number),
      ("type".toList, .str "IncrementReviewRound".toList)])
  | .freeSlot slot =>
    some (.dict [("slot".toList, .int slot), ("type".toList, .str "FreeSlot".toList)])
  | .requeueIssue number =>
    some (.dict [("number".toList, .int number), ("type".toList, .str "RequeueIssue".toList)])

/-- `cls(**data)` takes no other fields. -/
def onlyFields (d : Json) (names : List String) : Bool :=
  match d with
  | .dict fields => fields.all fun f => f.1 = "type".toList || names.any fun name => f.1 = name.toList
  | _ => false

/-- The value of a field that must be there. -/
def field {α : Type} (d : Json) (key : String) (read : Json → Option α) : Option α :=
  (d.get key.toList).bind read

/-- A class that `_ACTION_TYPES` holds: its name, its fields and its constructor. -/
structure ActionType where
  name : String
  fields : List String
  build : Json → Option Action

/-- `_ACTION_TYPES`. -/
def actionTypes : List ActionType :=
  [{ name := "EnqueueIssue"
     fields := ["number", "title", "url", "blocked_by"]
     build := fun d => do
       pure (.enqueueIssue (← field d "number" readInt) (← field d "title" readText)
         (← field d "url" readText) (← fieldOr d "blocked_by" [] readInts)) },
   { name := "ClaimIssue"
     fields := ["number", "slot"]
     build := fun d => do
       pure (.claimIssue (← field d "number" readInt) (← field d "slot" readInt)) },
   { name := "ReleaseIssue"
     fields := ["number"]
     build := fun d => do pure (.releaseIssue (← field d "number" readInt)) },
   { name := "SetStatus"
     fields := ["number", "status"]
     build := fun d => do
       pure (.setStatus (← field d "number" readInt)
         (coerceIssueStatus (← field d "status" readText))) },
   { name := "SetPr"
     fields := ["number", "pr"]
     build := fun d => do
       pure (.setPr (← field d "number" readInt) (← field d "pr" readInt)) },
   { name := "RecordFailure"
     fields := ["number", "error"]
     build := fun d => do
       pure (.recordFailure (← field d "number" readInt)
         (← fieldOr d "error" none (readOptional readText))) },
   { name := "IncrementReviewRound"
     fields := ["number"]
     build := fun d => do pure (.incrementReviewRound (← field d "number" readInt)) },
   { name := "FreeSlot"
     fields := ["slot"]
     build := fun d => do pure (.freeSlot (← field d "slot" readInt)) },
   { name := "RequeueIssue"
     fields := ["number"]
     build := fun d => do pure (.requeueIssue (← field d "number" readInt)) }]

/-- `action_from_dict`; `none` is its `TypeError` or `KeyError`. -/
def actionFromDict (d : Json) : Option Action := do
  let name ← field d "type" readText
  let cls ← actionTypes.find? fun cls => cls.name.toList = name
  if onlyFields d cls.fields then cls.build d else none

/-! ## Events -/

section
variable (host : Host)

/-- `state_digest`. -/
def stateDigest (state : AfkState) : Text :=
  (host.sha1Hex (utf8Encode (dumps defaultSeparators (sortKeys (toDict state))))).take 12

def initEvent (sid ts : Text) (state : AfkState) : Json :=
  .dict [("v".toList, .int 1), ("session".toList, .str sid), ("seq".toList, .int 0),
    ("ts".toList, .str ts), ("kind".toList, .str "init".toList), ("state".toList, toDict state),
    ("digest".toList, .str (stateDigest host state))]

def actionEvent (sid : Text) (seq : Int) (ts : Text) (action : Json) (state : AfkState) : Json :=
  .dict [("v".toList, .int 1), ("session".toList, .str sid), ("seq".toList, .int seq),
    ("ts".toList, .str ts), ("kind".toList, .str "action".toList), ("action".toList, action),
    ("digest".toList, .str (stateDigest host state))]

end

/-- The line that `_append` writes. -/
def line (record : Json) : Text := dumps compact record ++ ['\n']

/-- `session or default`. -/
def sessionOr (session : Option Text) (default : Text) : Text :=
  match session with
  | none => default
  | some sid => if sid = [] then default else sid

/-- A store with the recorder attached to it. -/
structure Recorded where
  state : AfkState
  seq : Int
  file : Text

section
variable (host : Host)

/-- `session or new_session_id()`. -/
def sessionId (session : Option Text) : Text := sessionOr session host.newSessionId

/-- `attach_journal`, on a file that holds `file`. -/
def attachJournal (state : AfkState) (file : Text) (sid ts : Text) : Recorded where
  state := state
  seq := 1
  file := file ++ line (initEvent host sid ts state)

/-- `_record`: the subscriber. -/
def record (sid ts : Text) (action : Action) (store : Recorded) : Recorded :=
  match actionToDict action with
  | none => store
  | some d =>
    { store with
      file := store.file ++ line (actionEvent host sid store.seq ts d store.state)
      seq := store.seq + 1 }

/-- `Store.dispatch`, at the time `ts`.  Where `reduce` raises nothing changes. -/
def dispatch (sid : Text) (store : Recorded) (d : Action × Text) : Recorded :=
  match reduce store.state d.1 with
  | .error _ => store
  | .ok state => record host sid d.2 d.1 { store with state := state }

end

/-! ## Reading the journal -/

/-- `read_events`: blank lines and lines that are no JSON are dropped. -/
def readEvents (file : Text) : List Json :=
  (splitlines file).filterMap fun l => if strip l = [] then none else loads (strip l)

/-- `ev.get("session")`, where it is a text. -/
def sessionOf (ev : Json) : Option Text := field ev "session" readText

def noteSession (seen : List Text) (ev : Json) : List Text :=
  match sessionOf ev with
  | none => seen
  | some sid => if sid = [] || seen.contains sid then seen else seen ++ [sid]

/-- `list_sessions`: in first-seen order. -/
def listSessions (events : List Json) : List Text := events.foldl noteSession []

/-- `session_events`: of the latest session where none is named. -/
def sessionEvents (events : List Json) (session : Option Text) : List Json :=
  match (listSessions events).getLast? with
  | none => []
  | some latest => events.filter fun ev => sessionOf ev = some (sessionOr session latest)

/-! ## Actions read back -/

/-- A written action reads back. -/
theorem actionFromDict_actionToDict (action : Action) (d : Json)
    (h : actionToDict action = some d) : actionFromDict d = some action := by
  cases action with
  | enqueueIssue number title url blockedBy =>
    cases h
    show (readInts (intList blockedBy) >>= fun b =>
      some (Action.enqueueIssue number title url b)) = _
    rw [readInts_intList]
    rfl
  | setBlockedBy number blockedBy => cases h
  | claimIssue number slot =>
    cases h
    rfl
  | releaseIssue number =>
    cases h
    rfl
  | setStatus number status =>
    cases h
    show some (Action.setStatus number (coerceIssueStatus status.value)) = _
    rw [coerceIssueStatus_value]
  | setPr number pr =>
    cases h
    rfl
  | recordFailure number error =>
    cases h
    show (readOptional readText (optText error) >>= fun e =>
      some (Action.recordFailure number e)) = _
    rw [readOptional_optText]
    rfl
  | recordCost number costUsd => cases h
  | incrementReviewRound number =>
    cases h
    rfl
  | freeSlot slot =>
    cases h
    rfl
  | requeueIssue number =>
    cases h
    rfl

theorem plain_actionToDict (action : Action) (d : Json) (h : actionToDict action = some d) :
    Plain d := by
  cases action <;> cases h
  all_goals
    simp only [Plain, PlainFields, plain_intList, plain_optText, and_true, List.map_cons,
      List.map_nil]
    decide

/-! ## Lines read back -/

/-- What `_append` writes: a dict that reads back. -/
def IsRecord (entry : Json) : Prop := Plain entry ∧ ∃ f fields, entry = .dict (f :: fields)

/-- An entry before the rest of the file. -/
theorem readEvents_line (entry : Json) (rest : Text) (h : IsRecord entry) :
    readEvents (line entry ++ rest) = entry :: readEvents rest := by
  obtain ⟨hplain, f, fields, rfl⟩ := h
  have hstrip := strip_dumps_dict (f :: fields) (List.cons_ne_nil f fields)
  have hne : dumps compact (.dict (f :: fields)) ≠ [] := by
    obtain ⟨t, ht⟩ := dumps_dict_ends (f :: fields) (List.cons_ne_nil f fields)
    rw [ht]
    exact List.cons_ne_nil _ _
  have hbreak := (printable_dumps _ hplain).not_isLineBreak
  unfold readEvents line
  rw [List.append_assoc, List.singleton_append, splitlines_line _ rest hbreak, List.filterMap_cons,
    hstrip, if_neg hne, loads_dumps _ hplain]

def linesOf (entries : List Json) : Text := entries.flatMap line

theorem readEvents_linesOf (entries : List Json) (h : ∀ entry ∈ entries, IsRecord entry) :
    readEvents (linesOf entries) = entries := by
  induction entries with
  | nil => rfl
  | cons entry entries ih =>
    have hentry := h entry List.mem_cons_self
    have hrest := ih fun e he => h e (List.mem_cons_of_mem entry he)
    show readEvents (line entry ++ linesOf entries) = _
    rw [readEvents_line entry _ hentry, hrest]

/-- The file ends where a line ends. -/
def WholeLines (file : Text) : Prop := file = [] ∨ ∃ body, file = body ++ ['\n']

/-- **Written events read back**, after what the file held before. -/
theorem readEvents_append (file : Text) (entries : List Json) (hfile : WholeLines file)
    (h : ∀ entry ∈ entries, IsRecord entry) :
    readEvents (file ++ linesOf entries) = readEvents file ++ entries := by
  rcases hfile with rfl | ⟨body, rfl⟩
  · exact readEvents_linesOf entries h
  · have hlines : body ++ ['\n'] ++ linesOf entries = body ++ '\n' :: linesOf entries := by simp
    rw [hlines]
    unfold readEvents
    rw [splitlines_append, List.filterMap_append]
    exact congrArg _ (readEvents_linesOf entries h)

end Agentrail.Afk
