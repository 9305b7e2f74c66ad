import Mathlib.Data.List.Sort
import Agentrail.Py.Dict
import Agentrail.Py.Json
import Agentrail.Py.Re

/-!
# The queue entrance of the Python side (`guardrails/policies/input_contract.py`)

`validate` decides whether an issue body carries checkable acceptance criteria,
`screen_injection` looks for directives to the agent, `content_hash` names the
normalised content, and `admit_to_queue` runs the checks over one issue and the
ledger of what was admitted before.
-/

namespace Agentrail.InputContract

open Py Regex

/-- What the policy takes from the interpreter and its environment. -/
structure Interpreter where
  isAlnum : Char → Bool
  lower : Text → Text
  sha256Hex : Text → Text
  rateLimitWindow : Option Text

section
variable (py : Interpreter)

/-! ## Acceptance criteria -/

/-- `^#{1,6}\s`. -/
def nextHeading : Re := .cat [bol, .rep (.cls (· = '#')) 1 6, space]

/-- `_AC_SECTION`; `.` is any character. -/
def acSection : Re := .cat
  [bol, .rep (.cls (· = '#')) 1 6, .star true space, word "acceptance", .plus true space,
    word "criteria", wordBoundary py.isAlnum, .star false dotAll, .cls (· = '\n'),
    .group 1 (.star false dotAll), .look (.alt nextHeading endOfText)]

/-- `_CHECKBOX`. -/
def checkbox : Re := .cat
  [bol, .star true space, .cls (fun c => c = '-' || c = '*' || c = '+'), .star true space,
    .cls (· = '['), .cls (fun c => c = ' ' || c = 'x' || c = 'X'), .cls (· = ']'),
    .star true space, .group 1 (.plus false dot), .star true space, eol]

inductive Result where
  | validated (criteria : List Text)
  | rejected (missingAc : String)
  deriving DecidableEq, Repr

/-- `_acceptance_section`. -/
def acceptanceSection (body : Text) : Text :=
  match find (acSection py) [] body with
  | none => []
  | some found => found.groupText 1

/-- `parse_acceptance_criteria`. -/
def parseAcceptanceCriteria (issueBody : Text) : List Text :=
  let sec := acceptanceSection py issueBody
  if sec = [] then []
  else ((findAll checkbox sec).map fun m => strip (m.groupText 1)).filter fun c => c ≠ []

def validate (issueBody : Text) : Result :=
  if acceptanceSection py issueBody = [] then
    .rejected "no 'Acceptance criteria' section in the issue body"
  else
    let criteria := parseAcceptanceCriteria py issueBody
    if criteria = [] then
      .rejected <| "Acceptance criteria are not machine-checkable: no checkbox " ++
        "criteria the Objective Gate could turn into runnable checks"
    else .validated criteria

/-! ## Injection screening -/

def boundary : Re := wordBoundary py.isAlnum

/-- `(…\s+)?`. -/
def optWord (alternatives : List String) : Re :=
  .opt true (.any (alternatives.map fun w => .seq (word w) (.plus true space)))

/-- Words with `\s+` between them. -/
def phrase (words : List String) : Re :=
  .cat ((words.map word).intersperse (.plus true space))

/-- `\b…\b`. -/
def bounded (r : Re) : Re := .cat [boundary py, r, boundary py]

def anything : Re := .star true dot

/-- `[A-Z0-9_]*` under `re.I`. -/
def identifierPart : Re := .star true (.cls fun c =>
  isDigit09 c || c = '_' || ('A' ≤ c && c ≤ 'Z') || ('a' ≤ c && c ≤ 'z') ||
    c.toNat = 0x130 || c.toNat = 0x131 || c.toNat = 0x17f || c.toNat = 0x212a)

/-- `auto[- ]?approve`. -/
def autoApprove : Re :=
  .cat [word "auto", .opt true (.cls fun c => c = '-' || c = ' '), word "approve"]

def pipeToShell (command : String) (shells : List String) : Re := .cat
  [bounded py (word command), .star true (.cls fun c => c ≠ '\n' && c ≠ '|'), .cls (· = '|'),
    .star true space, .any (shells.map word), boundary py]

/-- `_INJECTION_PATTERNS`. -/
def injectionPatterns : List (Re × String) :=
  [(.cat [boundary py, word "ignore", .plus true space, optWord ["all", "any"], optWord ["the"],
      phrase ["previous", "instruction"], .opt true (word "s"), boundary py],
    "prompt-injection: 'ignore previous instructions' override directive"),
   (.cat [boundary py, word "disregard", .plus true space, optWord ["your", "the", "all"],
      .any [phrase ["system", "prompt"], .seq (word "instruction") (.opt true (word "s")),
        phrase ["objective", "gate"]], boundary py],
    "prompt-injection: 'disregard system prompt / gate' directive"),
   (.cat [bounded py (phrase ["you", "are", "now"]), anything,
      bounded py (.any [phrase ["developer", "mode"], word "unrestricted",
        phrase ["no", "guardrails"], word "dan"])],
    "prompt-injection: role-reassignment / jailbreak ('you are now …')"),
   (bounded py (.any [phrase ["developer", "mode"], word "jailbreak", phrase ["no", "guardrails"],
      .cat [word "without", .plus true space, optWord ["any"], word "guardrails"]]),
    "prompt-injection: jailbreak / disable-guardrails directive"),
   (.cat [boundary py, phrase ["act", "as"], .plus true space,
      .opt true (.cat [word "a", .opt true (word "n"), .plus true space]),
      .any [word "unrestricted", word "uncensored", word "jailbroken"], boundary py],
    "prompt-injection: 'act as an unrestricted agent' role directive"),
   (.cat [bounded py (word "print"), anything,
      bounded py (.any [word "AWS_SECRET_ACCESS_KEY", word "AWS_ACCESS_KEY_ID",
        .cat [identifierPart, word "SECRET", identifierPart],
        .cat [identifierPart, word "TOKEN", identifierPart],
        .cat [identifierPart, word "API", .opt true (.cls (· = '_')), word "KEY",
          identifierPart]])],
    "prompt-injection: secret-exfiltration directive (print a credential / env secret)"),
   (.cat [bounded py (.any [word "exfiltrate", word "leak", word "dump", word "reveal"]), anything,
      bounded py (.any [word "secret", word "credential", word "token",
        .cat [word "api", .opt true (.cls fun c => c = '_' || c = ' '), word "key"],
        word ".env"])],
    "prompt-injection: secret-exfiltration directive"),
   (pipeToShell py "curl" ["bash", "sh", "zsh"],
    "prompt-injection: remote-code-execution pattern (curl … | bash)"),
   (pipeToShell py "wget" ["bash", "sh", "zsh"],
    "prompt-injection: remote-code-execution pattern (wget … | sh)"),
   (.cat [bol, .star true space, .any [word "system", word "assistant", word "developer"],
      .star true space, .cls (· = ':'), .star true space, anything,
      bounded py (.any [word "override", autoApprove, word "approve", word "bypass"])],
    "prompt-injection: impersonated privileged role trying to override the approval gate"),
   (.cat [bounded py (.any [word "override", word "bypass", word "skip", word "disable"]), anything,
      boundary py, optWord ["human"], .any [word "approval", word "review"], .plus true space,
      .opt true (.any [word "gate", word "step", word "process"]), boundary py, anything,
      bounded py (.any [autoApprove, phrase ["do", "not", "ask"]])],
    "prompt-injection: directive to override the human approval / review gate"),
   (.cat [bounded py (.any [word "merge", word "approve", autoApprove]), anything, boundary py,
      .any [word "without", word "no", .seq (word "skip") (.opt true (word "ping"))],
      .plus true space, word "review", boundary py],
    "prompt-injection: directive to merge/approve without review")]

/-- `screen_injection`. -/
def screenInjection (issueBody : Text) : Option String :=
  ((injectionPatterns py).find? fun p => test p.1 issueBody).map Prod.snd

/-! ## Duplicate content -/

/-- `_WS_RUN.sub(" ", t)`. -/
def collapseSpaces : Text → Text
  | [] => []
  | [c] => if isSpace c then [' '] else [c]
  | c :: d :: t =>
    if isSpace c then
      if isSpace d then collapseSpaces (d :: t) else ' ' :: collapseSpaces (d :: t)
    else c :: collapseSpaces (d :: t)

/-- `content_hash`. -/
def contentHash (issueBody : Text) : Text :=
  py.sha256Hex (collapseSpaces (py.lower (strip issueBody)))

end

/-! ## Rate limits -/

inductive WriterClass where
  | humanGithub
  | evalAutoticket
  | jace
  deriving DecidableEq, Repr

def WriterClass.value : WriterClass → String
  | .humanGithub => "human-github"
  | .evalAutoticket => "eval-autoticket"
  | .jace => "jace"

/-- `repr(writer)`, which is the text of a `KeyError` about it. -/
def WriterClass.repr : WriterClass → String
  | .humanGithub => "<WriterClass.HUMAN_GITHUB: 'human-github'>"
  | .evalAutoticket => "<WriterClass.EVAL_AUTOTICKET: 'eval-autoticket'>"
  | .jace => "<WriterClass.JACE: 'jace'>"

def defaultRateLimits : List (WriterClass × Nat) :=
  [(.humanGithub, 30), (.evalAutoticket, 10), (.jace, 20)]

def rateLimitWindowSeconds : Nat := 3600

/-- `_default_window_seconds`. -/
def defaultWindowSeconds (py : Interpreter) : Nat :=
  match py.rateLimitWindow with
  | none => rateLimitWindowSeconds
  | some raw =>
    match intOfText raw with
    | some val => if 0 < val then val.toNat else rateLimitWindowSeconds
    | none => rateLimitWindowSeconds

structure AdmissionLedger where
  seenHashes : List Text := []
  writerCounts : List (WriterClass × Nat) := []
  rateLimits : List (WriterClass × Nat) := []
  windowBucket : Option Int := none
  deriving DecidableEq, Repr

namespace AdmissionLedger

/-- `for_window`. -/
def forWindow (ledger : AdmissionLedger) (bucket : Int) : AdmissionLedger :=
  if ledger.windowBucket = some bucket then ledger
  else { ledger with writerCounts := [], windowBucket := some bucket }

/-- `_limits`. -/
def limits (ledger : AdmissionLedger) : List (WriterClass × Nat) :=
  if ledger.rateLimits = [] then defaultRateLimits else dictItems ledger.rateLimits

/-- `_counts().get(writer, 0)`. -/
def count (ledger : AdmissionLedger) (writer : WriterClass) : Nat :=
  (getItem writer (dictItems ledger.writerCounts)).getD 0

/-- `has_content`. -/
def hasContent (ledger : AdmissionLedger) (bodyHash : Text) : Bool :=
  ledger.seenHashes.contains bodyHash

/-- `rate_limit_exceeded`; the error is the `KeyError` for a writer without a limit. -/
def rateLimitExceeded (ledger : AdmissionLedger) (writer : WriterClass) : Except String Bool :=
  match getItem writer ledger.limits with
  | none => .error writer.repr
  | some limit => .ok (limit ≤ ledger.count writer)

/-- `record_admission`. -/
def recordAdmission (ledger : AdmissionLedger) (writer : WriterClass) (bodyHash : Text) :
    AdmissionLedger :=
  { ledger with
    seenHashes := bodyHash :: ledger.seenHashes
    writerCounts := (setItem writer (ledger.count writer + 1)
      (dictItems ledger.writerCounts)).mergeSort fun a b => a.1.value ≤ b.1.value }

end AdmissionLedger

/-! ## The gate -/

inductive QueueState where
  | queued
  | parked
  deriving DecidableEq, Repr

/-- The fields of a fresh `QueueEntry`. -/
structure QueueEntry where
  number : Nat
  tier : Nat
  remainingBudget : Nat
  blockedBy : List Nat
  state : QueueState := .queued
  reason : String := ""
  deriving DecidableEq, Repr

/-- One of `entry` and `rejected` is set. -/
inductive Admission where
  | entry (entry : QueueEntry) (ledger : AdmissionLedger)
  | rejected (missingAc : String) (ledger : AdmissionLedger)
  deriving DecidableEq, Repr

def Admission.ledger : Admission → AdmissionLedger
  | .entry _ ledger => ledger
  | .rejected _ ledger => ledger

/-- The arguments of `admit_to_queue` that the checks do not look at. -/
structure Request where
  number : Nat
  tier : Nat := 0
  remainingBudget : Nat := 2
  blockedBy : List Nat := []
  deriving DecidableEq, Repr

def Request.queued (request : Request) : QueueEntry where
  number := request.number
  tier := request.tier
  remainingBudget := request.remainingBudget
  blockedBy := request.blockedBy

def Request.parked (request : Request) (reason : String) : QueueEntry :=
  { request.queued with state := .parked, reason := reason }

/-- `admit_to_queue` with a ledger; `now` counts microseconds. -/
def admitToQueue (py : Interpreter) (request : Request) (issueBody : Text) (writer : WriterClass)
    (ledgerIn : AdmissionLedger) (injectionPark : Bool) (now : Int) : Admission :=
  let led := ledgerIn.forWindow (now / (1000000 * defaultWindowSeconds py))
  match screenInjection py issueBody with
  | some injectionReason =>
    if injectionPark then
      .entry (request.parked ("prompt-injection screen tripped (" ++ injectionReason ++ ") — " ++
        "parked for human review instead of dropped")) led
    else .rejected injectionReason led
  | none =>
    match validate py issueBody with
    | .rejected missingAc => .rejected missingAc led
    | .validated _ =>
      let bodyHash := contentHash py issueBody
      if led.hasContent bodyHash then
        .entry (request.parked ("duplicate content: an issue with identical content is already " ++
          "in the queue — parked for human review instead of running twice")) led
      else
        match led.rateLimitExceeded writer with
        | .error exc =>
          .entry (request.parked ("input-contract check errored, parked for human review: " ++ exc))
            led
        | .ok true =>
          .entry (request.parked ("rate limit: writer '" ++ writer.value ++
            "' exceeded its admission limit for this window — parked for human review")) led
        | .ok false => .entry request.queued (led.recordAdmission writer bodyHash)

end Agentrail.InputContract
