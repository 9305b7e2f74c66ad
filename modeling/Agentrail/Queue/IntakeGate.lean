import Agentrail.Js.RegExp
import Mathlib.Data.List.Sort

/-!
# The input contract of the queue entrance (`github_intake.ts`)

`validateAcceptanceCriteria` decides whether an issue body carries checkable
acceptance criteria, `screenV2` is the guardrail verdict (injection, duplicate
content, rate limit), `parseBlockedBy` reads the declared blockers.  The regular
expressions are the source's, piece by piece.
-/

namespace Agentrail.IntakeGate

open Js Regex

/-! ## Acceptance criteria -/

/-- `^#{1,6}\s`, where a section ends. -/
def nextHeading : Re := .cat [bol, .rep (.cls (· = '#')) 1 6, space]

def AC_SECTION : Re := .cat
  [bol, .rep (.cls (· = '#')) 1 6, .star true space, word "acceptance", .plus true space,
    word "criteria", wordBoundary, .star false dot, .cls (· = '\n'),
    .group 1 (.star false (.cls fun _ => true)),
    .look (.alt nextHeading (.seq eol (.notLook (.cls fun _ => true))))]

def CHECKBOX : Re := .cat
  [bol, .star true space, .cls (fun c => c = '-' || c = '*' || c = '+'), .star true space,
    .cls (· = '['), .cls (fun c => c = ' ' || c = 'x' || c = 'X'), .cls (· = ']'),
    .star true space, .group 1 (.plus false dot), .star true space, eol]

inductive AcGateResult where
  | ok (criteria : List Text)
  | rejected (reason : String)
  deriving DecidableEq, Repr

def validateAcceptanceCriteria (body : Text) : AcGateResult :=
  match find AC_SECTION [] body with
  | none => .rejected "no 'Acceptance criteria' section in the issue body"
  | some found =>
    let criteria := (findAll CHECKBOX (found.groupText 1)).filterMap fun m =>
      let text := trim (m.groupText 1)
      if text = [] then none else some text
    if criteria.length = 0 then
      .rejected <| "Acceptance criteria are not machine-checkable: no checkbox criteria " ++
        "the Objective Gate could turn into runnable checks"
    else .ok criteria

/-! ## Injection screening -/

/-- `(…\s+)?` -/
def optWord (alternatives : List String) : Re :=
  .opt true (.any (alternatives.map fun w => .seq (word w) (.plus true space)))

/-- Words with `\s+` between them. -/
def phrase (words : List String) : Re :=
  .cat ((words.map word).intersperse (.plus true space))

/-- `\b…\b` -/
def bounded (r : Re) : Re := .cat [wordBoundary, r, wordBoundary]

def anything : Re := .star true dot

/-- `[A-Z0-9_]*` under the `i` flag -/
def identifierPart : Re := .star true (.cls isWord)

/-- `auto[- ]?approve` -/
def autoApprove : Re :=
  .cat [word "auto", .opt true (.cls fun c => c = '-' || c = ' '), word "approve"]

def pipeToShell (command : String) (shells : List String) : Re := .cat
  [bounded (word command), .star true (.cls fun c => c ≠ '\n' && c ≠ '|'), .cls (· = '|'),
    .star true space, .any (shells.map word), wordBoundary]

def INJECTION_PATTERNS : List (Re × String) :=
  [(.cat [wordBoundary, word "ignore", .plus true space, optWord ["all", "any"], optWord ["the"],
      phrase ["previous", "instruction"], .opt true (word "s"), wordBoundary],
    "prompt-injection: 'ignore previous instructions' override directive"),
   (.cat [wordBoundary, word "disregard", .plus true space, optWord ["your", "the", "all"],
      .any [phrase ["system", "prompt"], .seq (word "instruction") (.opt true (word "s")),
        phrase ["objective", "gate"]], wordBoundary],
    "prompt-injection: 'disregard system prompt / gate' directive"),
   (.cat [bounded (phrase ["you", "are", "now"]), anything,
      bounded (.any [phrase ["developer", "mode"], word "unrestricted", phrase ["no", "guardrails"],
        word "dan"])],
    "prompt-injection: role-reassignment / jailbreak ('you are now …')"),
   (bounded (.any [phrase ["developer", "mode"], word "jailbreak", phrase ["no", "guardrails"],
      .cat [word "without", .plus true space, optWord ["any"], word "guardrails"]]),
    "prompt-injection: jailbreak / disable-guardrails directive"),
   (.cat [wordBoundary, phrase ["act", "as"], .plus true space,
      .opt true (.cat [word "a", .opt true (word "n"), .plus true space]),
      .any [word "unrestricted", word "uncensored", word "jailbroken"], wordBoundary],
    "prompt-injection: 'act as an unrestricted agent' role directive"),
   (.cat [bounded (word "print"), anything,
      bounded (.any [word "AWS_SECRET_ACCESS_KEY", word "AWS_ACCESS_KEY_ID",
        .cat [identifierPart, word "SECRET", identifierPart],
        .cat [identifierPart, word "TOKEN", identifierPart],
        .cat [identifierPart, word "API", .opt true (.cls (· = '_')), word "KEY",
          identifierPart]])],
    "prompt-injection: secret-exfiltration directive (print a credential / env secret)"),
   (.cat [bounded (.any [word "exfiltrate", word "leak", word "dump", word "reveal"]), anything,
      bounded (.any [word "secret", word "credential", word "token",
        .cat [word "api", .opt true (.cls fun c => c = '_' || c = ' '), word "key"],
        word ".env"])],
    "prompt-injection: secret-exfiltration directive"),
   (pipeToShell "curl" ["bash", "sh", "zsh"],
    "prompt-injection: remote-code-execution pattern (curl … | bash)"),
   (pipeToShell "wget" ["bash", "sh", "zsh"],
    "prompt-injection: remote-code-execution pattern (wget … | sh)"),
   (.cat [bol, .star true space, .any [word "system", word "assistant", word "developer"],
      .star true space, .cls (· = ':'), .star true space, anything,
      bounded (.any [word "override", autoApprove, word "approve", word "bypass"])],
    "prompt-injection: impersonated privileged role trying to override the approval gate"),
   (.cat [bounded (.any [word "override", word "bypass", word "skip", word "disable"]), anything,
      wordBoundary, optWord ["human"], .any [word "approval", word "review"], .plus true space,
      .opt true (.any [word "gate", word "step", word "process"]), wordBoundary, anything,
      bounded (.any [autoApprove, phrase ["do", "not", "ask"]])],
    "prompt-injection: directive to override the human approval / review gate"),
   (.cat [bounded (.any [word "merge", word "approve", autoApprove]), anything, wordBoundary,
      .any [word "without", word "no", .seq (word "skip") (.opt true (word "ping"))],
      .plus true space, word "review", wordBoundary],
    "prompt-injection: directive to merge/approve without review")]

def screenInjection (issueBody : Text) : Option String :=
  (INJECTION_PATTERNS.find? fun p => test p.1 issueBody).map Prod.snd

/-! ## What the process runs on -/

/-- The environment variables the entrance reads and the library functions it calls. -/
structure Host where
  guardrailsV2 : Option Text
  rateLimitWindow : Option Text
  toLowerCase : Text → Text
  sha256Hex : Text → Text
  sha1 : List UInt8 → List UInt8

/-! ## Duplicate content -/

/-- `t.replace(/\s+/g, " ")` -/
def collapseSpaces : Text → Text
  | [] => []
  | [c] => if isSpace c then [' '] else [c]
  | c :: d :: t =>
    if isSpace c then
      if isSpace d then collapseSpaces (d :: t) else ' ' :: collapseSpaces (d :: t)
    else c :: collapseSpaces (d :: t)

def contentHash (host : Host) (issueBody : Text) : Text :=
  host.sha256Hex (collapseSpaces (host.toLowerCase (trim issueBody)))

/-! ## Rate limits -/

inductive WriterClass where
  | humanGithub
  | evalAutoticket
  | jace
  deriving DecidableEq, Repr

def WriterClass.label : WriterClass → String
  | .humanGithub => "human-github"
  | .evalAutoticket => "eval-autoticket"
  | .jace => "jace"

def DEFAULT_RATE_LIMITS : WriterClass → Nat
  | .humanGithub => 30
  | .evalAutoticket => 10
  | .jace => 20

def RATE_LIMIT_WINDOW_SECONDS : Nat := 3600

def defaultWindowSeconds (host : Host) : Nat :=
  match host.rateLimitWindow.bind parseInt with
  | some val => if 0 < val then val else RATE_LIMIT_WINDOW_SECONDS
  | none => RATE_LIMIT_WINDOW_SECONDS

structure AdmissionLedger where
  seenHashes : List Text := []
  writerCounts : WriterClass → Nat := fun _ => 0
  rateLimits : WriterClass → Option Nat := fun _ => none
  windowBucket : Option Int := none

namespace AdmissionLedger

def limitFor (ledger : AdmissionLedger) (writer : WriterClass) : Nat :=
  (ledger.rateLimits writer).getD (DEFAULT_RATE_LIMITS writer)

def forWindow (ledger : AdmissionLedger) (bucket : Int) : AdmissionLedger :=
  if ledger.windowBucket = some bucket then ledger
  else { ledger with writerCounts := fun _ => 0, windowBucket := some bucket }

def hasContent (ledger : AdmissionLedger) (bodyHash : Text) : Bool :=
  ledger.seenHashes.contains bodyHash

def rateLimitExceeded (ledger : AdmissionLedger) (writer : WriterClass) : Bool :=
  ledger.limitFor writer ≤ ledger.writerCounts writer

def recordAdmission (ledger : AdmissionLedger) (writer : WriterClass) (bodyHash : Text) :
    AdmissionLedger :=
  { ledger with
    seenHashes := bodyHash :: ledger.seenHashes
    writerCounts := Function.update ledger.writerCounts writer (ledger.writerCounts writer + 1) }

end AdmissionLedger

def v2Enabled (host : Host) : Bool := host.guardrailsV2 = some ['1']

/-- `queue_source` -/
inductive Source where
  | cli
  | github
  | linear
  deriving DecidableEq, Repr

def Source.label : Source → Text
  | .cli => "cli".toList
  | .github => "github".toList
  | .linear => "linear".toList

/-- Of the sources a row can have, none maps to another class than the default. -/
def writerForSource : Source → WriterClass
  | .github => .humanGithub
  | .linear => .humanGithub
  | .cli => .humanGithub

inductive V2Verdict where
  | admitted (ledger : AdmissionLedger)
  | park (reason : String) (ledger : AdmissionLedger)
  | reject (reason : String) (ledger : AdmissionLedger)

def V2Verdict.ledger : V2Verdict → AdmissionLedger
  | .admitted ledger => ledger
  | .park _ ledger => ledger
  | .reject _ ledger => ledger

/-- `now` counts microseconds. -/
def screenV2 (host : Host) (body : Text) (writer : WriterClass) (ledgerIn : AdmissionLedger)
    (injectionPark : Bool) (now : Int) : V2Verdict :=
  let ledger := ledgerIn.forWindow (now / (1000000 * defaultWindowSeconds host))
  match screenInjection body with
  | some injectionReason =>
    if injectionPark then
      .park ("prompt-injection screen tripped (" ++ injectionReason ++ ") — " ++
        "parked for human review instead of dropped") ledger
    else .reject injectionReason ledger
  | none =>
    let bodyHash := contentHash host body
    if ledger.hasContent bodyHash then
      .park ("duplicate content: an issue with identical content is already " ++
        "in the queue — parked for human review instead of running twice") ledger
    else if ledger.rateLimitExceeded writer then
      .park ("rate limit: writer '" ++ writer.label ++ "' exceeded its admission " ++
        "limit for this window — parked for human review") ledger
    else .admitted (ledger.recordAdmission writer bodyHash)

/-! ## Declared blockers -/

def BLOCKED_BY_PHRASE : Re := .cat
  [.any [.cat [word "blocked", .opt true (.cls fun c => isSpace c || c = '-'), word "by"],
      .cat [word "depends", .opt true (.cls fun c => isSpace c || c = '-'), word "on"]],
    wordBoundary, .star true (.cls (· ≠ '\n'))]

/-- `#(\d+)` -/
def ISSUE_REF : Re := .seq (.cls (· = '#')) (.group 1 (.plus true digit))

/-- The issue numbers that the text refers to. -/
def issueRefs (t : Text) : List Nat :=
  (findAll ISSUE_REF t).map fun m => Nat.ofDigitChars 10 (m.groupText 1) 0

def parseBlockedBy (body : Text) : List Nat :=
  let phrases := findAll (.group 0 BLOCKED_BY_PHRASE) body
  ((phrases.flatMap fun m => issueRefs (m.groupText 0)).dedup).insertionSort (· ≤ ·)

/-! ## The row id -/

/-- `NAMESPACE_URL` without its hyphens, as bytes -/
def NAMESPACE_URL : List UInt8 :=
  [0x6b, 0xa7, 0xb8, 0x11, 0x9d, 0xad, 0x11, 0xd1, 0x80, 0xb4, 0x00, 0xc0, 0x4f, 0xd4, 0x30, 0xc8]

def hexByte (b : UInt8) : Text := [Nat.digitChar (b.toNat / 16), Nat.digitChar (b.toNat % 16)]

def uuid5Url (host : Host) (name : Text) : Text :=
  let hash := host.sha1 (NAMESPACE_URL ++ name.flatMap String.utf8EncodeChar)
  let b := hash.take 16
  let b := b.modify 6 fun x => (x &&& 0x0f) ||| 0x50
  let b := b.modify 8 fun x => (x &&& 0x3f) ||| 0x80
  let h := b.flatMap hexByte
  join ['-'] [h.take 8, (h.drop 8).take 4, (h.drop 12).take 4, (h.drop 16).take 4, (h.drop 20).take 12]

def entryId (host : Host) (workspaceId : Text) (source : Source) (externalId : Text) : Text :=
  uuid5Url host ("agentrail-queue:".toList ++ workspaceId ++ ':' :: source.label ++
    ':' :: externalId)

def linearExternalId (issueId : Text) (number : Nat) : Text := issueId ++ '#' :: decimal number

end Agentrail.IntakeGate
