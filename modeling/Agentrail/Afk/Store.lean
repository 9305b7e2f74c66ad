import Agentrail.Afk.State

/-!
# States as JSON (`afk/store.py`)

`toDict` leaves the costs out, and `fromDict` reads the rest back
(`fromDict_toDict`).
-/

namespace Agentrail.Afk

open Py

/-! ## Writing -/

def optInt : Option Int → Json
  | none => .null
  | some n => .int n

def optText : Option Text → Json
  | none => .null
  | some t => .str t

def intList (xs : List Int) : Json := .list (xs.map .int)

/-- `_issue_to_dict`. -/
def issueToDict (issue : IssueState) : Json :=
  .dict [("number".toList, .int issue.number), ("title".toList, .str issue.title),
    ("url".toList, .str issue.url), ("status".toList, .str issue.status.value),
    ("pr".toList, optInt issue.pr), ("slot".toList, optInt issue.slot),
    ("retries".toList, .int issue.retries), ("review_rounds".toList, .int issue.reviewRounds),
    ("error".toList, optText issue.error), ("blocked_by".toList, intList issue.blockedBy)]

/-- `{str(k): f(v) for k, v in d.items()}`. -/
def numberedDict {ν : Type} (f : ν → Json) (d : Dict Int ν) : Json :=
  .dict (d.items.map fun item => (intText item.1, f item.2))

def toDict (state : AfkState) : Json :=
  .dict [("schemaVersion".toList, .int 1), ("concurrency".toList, .int state.concurrency),
    ("max_retries".toList, .int state.maxRetries), ("completed".toList, .int state.completed),
    ("failed".toList, .int state.failed), ("slots".toList, numberedDict optInt state.slots),
    ("issues".toList, numberedDict issueToDict state.issues)]

/-! ## Reading

`none` is an exception, or a value of a type that no field has. -/

def readInt : Json → Option Int
  | .int n => some n
  | _ => none

def readText : Json → Option Text
  | .str t => some t
  | _ => none

def readOptional {α : Type} (read : Json → Option α) : Json → Option (Option α)
  | .null => some none
  | v => (read v).map some

def readInts : Json → Option (List Int)
  | .list xs => xs.mapM readInt
  | _ => none

/-- `read(d.get(key, default))`. -/
def fieldOr {α : Type} (d : Json) (key : String) (default : α) (read : Json → Option α) :
    Option α :=
  match d.get key.toList with
  | none => some default
  | some v => read v

/-- `_issue_from_dict`. -/
def issueFromDict (d : Json) : Option IssueState := do
  let number ← d.get "number".toList
  let number ← readInt number
  let title ← fieldOr d "title" [] readText
  let url ← fieldOr d "url" [] readText
  let status ← fieldOr d "status" "queued".toList readText
  let pr ← fieldOr d "pr" none (readOptional readInt)
  let slot ← fieldOr d "slot" none (readOptional readInt)
  let retries ← fieldOr d "retries" 0 readInt
  let reviewRounds ← fieldOr d "review_rounds" 0 readInt
  let error ← fieldOr d "error" none (readOptional readText)
  let blockedBy ← fieldOr d "blocked_by" [] readInts
  pure { number, title, url, status := coerceIssueStatus status, pr, slot, retries, reviewRounds,
         error, blockedBy }

/-- `{int(k): f(v) for k, v in d.items()}`. -/
def readNumbered {ν : Type} (read : Json → Option ν) : Json → Option (Dict Int ν)
  | .dict fields =>
    (fields.mapM fun field : Text × Json => do
      let k ← intOfText field.1
      let v ← read field.2
      pure (k, v)).map Dict.ofItems
  | _ => none

def fromDict (d : Json) : Option AfkState := do
  let issues ← fieldOr d "issues" .empty (readNumbered issueFromDict)
  let slots ← fieldOr d "slots" .empty (readNumbered (readOptional readInt))
  let concurrency ← fieldOr d "concurrency" 2 readInt
  let maxRetries ← fieldOr d "max_retries" 2 readInt
  let completed ← fieldOr d "completed" 0 readInt
  let failed ← fieldOr d "failed" 0 readInt
  pure { issues, slots, concurrency, maxRetries, completed, failed }

/-! ## What is written reads back -/

theorem readOptional_optInt (o : Option Int) : readOptional readInt (optInt o) = some o := by
  cases o <;> rfl

theorem readOptional_optText (o : Option Text) : readOptional readText (optText o) = some o := by
  cases o <;> rfl

/-- Reading the items of a list that were written one by one. -/
theorem mapM_map {α β γ : Type} (f : α → β) (read : β → Option γ) (g : α → γ)
    (h : ∀ a, read (f a) = some (g a)) (xs : List α) :
    (xs.map f).mapM read = some (xs.map g) := by
  induction xs with
  | nil => rfl
  | cons x xs ih =>
    rw [List.map_cons, List.mapM_cons, h, ih]
    rfl

theorem readInts_intList (xs : List Int) : readInts (intList xs) = some xs := by
  have hread := mapM_map Json.int readInt id (fun _ => rfl) xs
  rwa [List.map_id] at hread

theorem readNumbered_numberedDict {ν μ : Type} (f : ν → Json) (read : Json → Option μ)
    (g : ν → μ) (h : ∀ v, read (f v) = some (g v)) (d : Dict Int ν) :
    readNumbered read (numberedDict f d) = some (d.mapValues g) := by
  have hitems := mapM_map (fun item : Int × ν => (intText item.1, f item.2))
    (fun field : Text × Json => do
      let k ← intOfText field.1
      let v ← read field.2
      pure (k, v))
    (fun item => (item.1, g item.2))
    (fun item => by
      simp only [intOfText_intText, h]
      rfl) d.items
  unfold numberedDict readNumbered
  simp only
  rw [hitems]
  exact congrArg some (Dict.ofItems_items (d.mapValues g))

theorem issueFromDict_issueToDict (issue : IssueState) :
    issueFromDict (issueToDict issue) = some issue.forgetCost := by
  have hpr := readOptional_optInt issue.pr
  have hslot := readOptional_optInt issue.slot
  have herror := readOptional_optText issue.error
  have hblocked := readInts_intList issue.blockedBy
  have hstatus := coerceIssueStatus_value issue.status
  simp [issueFromDict, issueToDict, fieldOr, Json.get, getItem, readInt, readText, hpr, hslot,
    herror, hblocked, hstatus, IssueState.forgetCost]

/-- **States read back**, but for the costs. -/
theorem fromDict_toDict (state : AfkState) : fromDict (toDict state) = some state.forgetCost := by
  have hissues := readNumbered_numberedDict issueToDict issueFromDict IssueState.forgetCost
    issueFromDict_issueToDict state.issues
  have hslots := readNumbered_numberedDict optInt (readOptional readInt) id
    readOptional_optInt state.slots
  have hid : state.slots.mapValues id = state.slots :=
    Dict.ext_items (by simp [Dict.mapValues])
  rw [hid] at hslots
  simp [fromDict, toDict, fieldOr, Json.get, getItem, readInt, hissues, hslots,
    AfkState.forgetCost]

theorem toDict_forgetCost (state : AfkState) : toDict state.forgetCost = toDict state := by
  have hissues : numberedDict issueToDict state.forgetCost.issues =
      numberedDict issueToDict state.issues := by
    unfold numberedDict AfkState.forgetCost Dict.mapValues
    rw [List.map_map]
    rfl
  unfold toDict
  rw [hissues]
  rfl

/-! ## Plain JSON -/

theorem plain_optInt (o : Option Int) : Plain (optInt o) := by
  cases o <;> exact trivial

theorem plain_optText (o : Option Text) : Plain (optText o) := by
  cases o <;> exact trivial

theorem plain_intList (xs : List Int) : Plain (intList xs) := by
  show PlainItems (xs.map .int)
  induction xs with
  | nil => exact trivial
  | cons x xs ih => exact ⟨trivial, ih⟩

theorem plain_issueToDict (issue : IssueState) : Plain (issueToDict issue) := by
  have hkeys : (["number".toList, "title".toList, "url".toList, "status".toList, "pr".toList,
      "slot".toList, "retries".toList, "review_rounds".toList, "error".toList,
      "blocked_by".toList] : List Text).Nodup := by decide
  refine ⟨hkeys, trivial, trivial, trivial, trivial, ?_⟩
  exact ⟨plain_optInt _, plain_optInt _, trivial, trivial, plain_optText _, plain_intList _,
    trivial⟩

theorem plain_numberedDict {ν : Type} (f : ν → Json) (h : ∀ v, Plain (f v)) (d : Dict Int ν) :
    Plain (numberedDict f d) := by
  constructor
  · rw [List.map_map]
    have hkeys : d.items.map (Prod.fst ∘ fun item => (intText item.1, f item.2)) =
        (d.items.map Prod.fst).map intText := by
      rw [List.map_map]
      rfl
    rw [hkeys]
    exact d.nodup.map intText_injective
  · generalize d.items = items
    induction items with
    | nil => exact trivial
    | cons item items ih => exact ⟨h item.2, ih⟩

theorem plain_toDict (state : AfkState) : Plain (toDict state) := by
  have hkeys : (["schemaVersion".toList, "concurrency".toList, "max_retries".toList,
      "completed".toList, "failed".toList, "slots".toList, "issues".toList] : List Text).Nodup := by
    decide
  refine ⟨hkeys, trivial, trivial, trivial, trivial, trivial, ?_⟩
  exact ⟨plain_numberedDict _ plain_optInt _, plain_numberedDict _ plain_issueToDict _, trivial⟩

end Agentrail.Afk
