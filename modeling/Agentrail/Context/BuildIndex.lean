import Mathlib.Data.Char
import Mathlib.Data.List.Lex
import Mathlib.Data.List.Sort
import Agentrail.Lib.Runs
import Agentrail.Py.Dict
import Agentrail.Py.Re

/-!
# The context index (`context/index.py`)

`build_index` turns the files of a repository into records and chunks and writes
them to `index.json`.  Three shortcuts spare it work: an index that is still fresh
is returned as it is, a file that was not modified since `index.json` was written
keeps its old record, and so does a file whose redacted text has the old hash.

A build is a sequence of steps: it starts (`begin`: the check of freshness and the
walk), visits one file after another (`visit`), writes `index.json` (`writeIndex`)
and then `freshness.json` (`writeFreshness`).  Between any two of them files may be
written and deleted.  Times are ticks of the clock that stamps files.

The repo wiki is off, so `index.json` holds files and external descriptors only.  The
files of the index lie in `.agentrail/context`, which the default globs exclude: the
tree is without them.
-/

namespace Agentrail.Context

open Py

/-! ## Configuration -/

structure SecretRedactionConfig where
  enabled : Bool := true
  action : Text := "exclude".toList
  denyGlobs : List Text := []
  deriving DecidableEq

/-- An entry of `externalSources`; `uri`, `path` and `id` as `str` prints them and empty where they
are missing, `json` as `json.dumps` writes the whole. -/
structure Descriptor where
  uri : Text := []
  path : Text := []
  id : Text := []
  json : Text
  deriving DecidableEq

structure ContextConfig where
  includeGlobs : List Text := ["**/*".toList]
  excludeGlobs : List Text
  maxFileSizeBytes : Int := 262144
  skipBinary : Bool := true
  respectGitIgnore : Bool := true
  secretRedaction : SecretRedactionConfig := {}
  externalSources : List Descriptor := []
  deriving DecidableEq

/-- What a build is run with. -/
structure Settings where
  cfg : ContextConfig
  /-- the paths that `git check-ignore` lists -/
  checkIgnore : List Text := []
  deriving DecidableEq

/-- `git_ignored_set`. -/
def Settings.ignored (st : Settings) : List Text :=
  if st.cfg.respectGitIgnore then st.checkIgnore else []

/-! ## Records -/

structure RedactionFinding where
  detector : Text
  count : Nat
  deriving DecidableEq

structure RedactionResult where
  text : Text
  findings : List RedactionFinding
  deriving DecidableEq

structure SourceRecord where
  id : Text
  path : Text
  contentHash : Text
  modifiedAt : Option Nat
  chunkIds : List Text
  redactions : List RedactionFinding
  content : Text
  deriving DecidableEq

structure ChunkRecord where
  id : Text
  sourceId : Text
  path : Text
  content : Text
  deriving DecidableEq

/-- A record and its chunks. -/
abbrev Source := SourceRecord × List ChunkRecord

structure File where
  bytes : Bytes
  mtime : Nat
  deriving DecidableEq

abbrev Tree := Dict Text File

/-- The functions that the index is built with. -/
structure Host where
  /-- `matches_glob(glob, relative_path, is_directory)` -/
  matchesGlob : Text → Text → Bool → Bool
  redactText : Text → RedactionResult
  sha256Text : Text → Text
  /-- `read_text(encoding="utf-8")`: `none` where it raises -/
  readText : Bytes → Option Text
  /-- the chunks of a file by its path and text: the suffix of the id, and the text -/
  pieces : Text → Text → List (Text × Text)

section
variable (host : Host)

/-! ## The files that are indexed -/

def matchesAny (globs : List Text) (path : Text) (directory : Bool) : Bool :=
  globs.any fun glob => host.matchesGlob glob path directory

def joinWith (sep : Char) (parts : List Text) : Text := List.intercalate [sep] parts

/-- The directories above a path. -/
def ancestors (path : Text) : List Text :=
  ((splitOn1 '/' path).dropLast.inits.tail).map (joinWith '/')

/-- `walk_files` comes to the path. -/
def walks (cfg : ContextConfig) (path : Text) : Bool :=
  (ancestors path).all fun directory => !matchesAny host cfg.excludeGlobs directory true

/-- The files of the tree, each directory in the order of its names. -/
def walkFiles (cfg : ContextConfig) (tree : Tree) : List Text :=
  ((tree.items.map Prod.fst).filter (walks host cfg)).insertionSort fun p q =>
    splitOn1 '/' p ≤ splitOn1 '/' q

def indexable (cfg : ContextConfig) (path : Text) : Bool :=
  matchesAny host cfg.includeGlobs path false && !matchesAny host cfg.excludeGlobs path false

def indexableEntries (cfg : ContextConfig) (tree : Tree) : List Text :=
  (walkFiles host cfg tree).filter (indexable host cfg)

/-- `sha256_text("\n".join(sorted(paths)))`. -/
def fingerprintOf (paths : List Text) : Text :=
  host.sha256Text (joinWith '\n' (paths.insertionSort fun p q => p ≤ q))

def indexableFingerprint (cfg : ContextConfig) (tree : Tree) : Text :=
  fingerprintOf host (indexableEntries host cfg tree)

def isBinaryFile (bytes : Bytes) : Bool := (bytes.take 8192).contains 0

inductive SkipReason where
  | notAllowed
  | deniedPath
  | secretPath
  | gitignored
  | oversized
  | binary
  deriving DecidableEq, Repr

def skipReason (st : Settings) (path : Text) (f : File) : Option SkipReason :=
  let redaction := st.cfg.secretRedaction
  if !matchesAny host st.cfg.includeGlobs path false then some .notAllowed
  else if matchesAny host st.cfg.excludeGlobs path false then some .deniedPath
  else if redaction.enabled && redaction.action = "exclude".toList &&
      matchesAny host redaction.denyGlobs path false then some .secretPath
  else if path ∈ st.ignored then some .gitignored
  else if st.cfg.maxFileSizeBytes < f.bytes.length then some .oversized
  else if st.cfg.skipBinary && isBinaryFile f.bytes then some .binary
  else none

/-! ## Sources -/

/-- The text of a file as it is indexed. -/
def redacted (cfg : ContextConfig) (rawText : Text) : RedactionResult :=
  if cfg.secretRedaction.enabled then host.redactText rawText else ⟨rawText, []⟩

def readFile (cfg : ContextConfig) (f : File) : Option RedactionResult :=
  (host.readText f.bytes).map (redacted host cfg)

def sourceId (path : Text) : Text := "source:".toList ++ path

def sourceRecordForFile (path : Text) (mtime : Nat) (r : RedactionResult) : SourceRecord :=
  let redactedPath := host.redactText path
  { id := sourceId redactedPath.text
    path := redactedPath.text
    contentHash := host.sha256Text r.text
    modifiedAt := some mtime
    chunkIds := []
    redactions := r.findings ++ redactedPath.findings
    content := r.text }

def chunkRecord (source : SourceRecord) (idSuffix text : Text) : ChunkRecord where
  id := "chunk:".toList ++ source.path ++ "#".toList ++ idSuffix
  sourceId := source.id
  path := source.path
  content := strip text

def chunksForSource (source : SourceRecord) (path text : Text) : List ChunkRecord :=
  (host.pieces path text).map fun piece => chunkRecord source piece.1 piece.2

/-- The record and the chunks of a file that is read. -/
def fileSource (path : Text) (mtime : Nat) (r : RedactionResult) : Source :=
  let record := sourceRecordForFile host path mtime r
  let chunks := chunksForSource host record path r.text
  ({ record with chunkIds := chunks.map ChunkRecord.id }, chunks)

def externalRecord (d : Descriptor) : Option SourceRecord :=
  let uri := if d.uri ≠ [] then d.uri else if d.path ≠ [] then d.path else d.id
  if uri = [] then none
  else
    let redactedUri := host.redactText uri
    let redactedId := host.redactText (if d.id ≠ [] then d.id else "external:".toList ++ uri)
    let redacted := host.redactText d.json
    some
      { id := redactedId.text
        path := redactedUri.text
        contentHash := host.sha256Text redacted.text
        modifiedAt := none
        chunkIds := []
        redactions := redacted.findings ++ redactedUri.findings ++ redactedId.findings
        content := redacted.text }

def externalSource (d : Descriptor) : Option Source :=
  (externalRecord host d).map fun record =>
    let chunk := chunkRecord record "descriptor".toList record.content
    ({ record with chunkIds := [chunk.id] }, [chunk])

def externalSources (cfg : ContextConfig) : List Source :=
  cfg.externalSources.filterMap (externalSource host)

/-! ## The index -/

structure Index where
  records : List SourceRecord
  chunks : List ChunkRecord
  /-- when it was written -/
  mtime : Nat
  deriving DecidableEq

/-- `old_records.get(path)`: the last record of that path. -/
def Index.record (i : Index) (path : Text) : Option SourceRecord :=
  (Dict.ofItems (i.records.map fun r => (r.path, r))).get path

/-- `old_chunks_by_source_id.get(id) or []`. -/
def Index.chunksOf (i : Index) (id : Text) : List ChunkRecord :=
  i.chunks.filter fun c => c.sourceId = id

/-- What the loop appends for a file. -/
def visitFile (index : Option Index) (st : Settings) (path : Text) (f : File) : Option Source :=
  if (skipReason host st path f).isSome then none
  else
    match index.bind fun i => (i.record path).map fun old => (i, old) with
    | some (i, old) =>
      if f.mtime ≤ i.mtime then some (old, i.chunksOf old.id)
      else (readFile host st.cfg f).map fun r =>
        if old.contentHash = host.sha256Text r.text then (old, i.chunksOf old.id)
        else fileSource host path f.mtime r
    | none => (readFile host st.cfg f).map (fileSource host path f.mtime)

/-- A run of `build_index` between its start and its last write. -/
structure Build where
  settings : Settings
  walked : List Text
  todo : List Text
  records : List SourceRecord := []
  chunks : List ChunkRecord := []
  deriving DecidableEq

def Build.start (st : Settings) (tree : Tree) : Build where
  settings := st
  walked := walkFiles host st.cfg tree
  todo := walkFiles host st.cfg tree

def Build.append (b : Build) (sources : List Source) : Build :=
  { b with
    records := b.records ++ sources.map Prod.fst
    chunks := b.chunks ++ sources.flatMap Prod.snd }

/-- The file is stat-ed and read, or it is gone. -/
def Build.visit (b : Build) (index : Option Index) (tree : Tree) (path : Text) : Build :=
  b.append ((tree.get path).bind (visitFile host index b.settings path)).toList

/-- The order of the records and of the chunks. -/
def keyLe (a b : Text × Text) : Prop := a.1 < b.1 ∨ a.1 = b.1 ∧ a.2 ≤ b.2

instance (a b : Text × Text) : Decidable (keyLe a b) := by
  unfold keyLe
  infer_instance

/-- `index.json`. -/
def Build.assemble (b : Build) (now : Nat) : Index :=
  let all := b.append (externalSources host b.settings.cfg)
  { records := all.records.insertionSort fun r r' => keyLe (r.path, r.id) (r'.path, r'.id)
    chunks := all.chunks.insertionSort fun c c' => keyLe (c.path, c.id) (c'.path, c'.id)
    mtime := now }

/-! ## The repository and its steps -/

inductive Stage where
  | reading (b : Build)
  /-- `freshness.json` is still to be written -/
  | written (b : Build)
  deriving DecidableEq

/-- What `index.json` was written from. -/
structure Snapshot where
  build : Build
  tree : Tree

structure Repo where
  tree : Tree
  now : Nat
  index : Option Index
  /-- `freshness.json` -/
  fingerprint : Option Text
  stage : Option Stage
  /-- the history of `index.json` -/
  last : Option Snapshot
  /-- the history of `freshness.json`: the names that it is the fingerprint of -/
  listed : List Text

def emptyRepo (now : Nat) : Repo where
  tree := .empty
  now := now
  index := none
  fingerprint := none
  stage := none
  last := none
  listed := []

def cachedIndexIsFresh (s : Repo) (cfg : ContextConfig) : Bool :=
  match s.index, s.fingerprint with
  | some i, some fingerprint =>
    fingerprint = indexableFingerprint host cfg s.tree &&
      (indexableEntries host cfg s.tree).all fun path =>
        (s.tree.get path).any fun f => f.mtime ≤ i.mtime
  | _, _ => false

inductive Action where
  | write (path : Text) (bytes : Bytes)
  | delete (path : Text)
  | wait (time : Nat)
  | begin (st : Settings)
  | visit
  | writeIndex
  | writeFreshness
  deriving DecidableEq

def next (s : Repo) : Action → Option Repo
  | .write path bytes =>
    if path = [] then none
    else some { s with tree := s.tree.set path { bytes := bytes, mtime := s.now } }
  | .delete path => (s.tree.get path).map fun _ => { s with tree := s.tree.erase path }
  | .wait time => some { s with now := s.now + time }
  | .begin st =>
    match s.stage with
    | some _ => none
    | none =>
      if cachedIndexIsFresh host s st.cfg then some s
      else some { s with stage := some (.reading (.start host st s.tree)) }
  | .visit =>
    match s.stage with
    | some (.reading b) =>
      match b.todo with
      | [] => none
      | path :: todo =>
        some { s with
          stage := some (.reading { b.visit host s.index s.tree path with todo := todo }) }
    | _ => none
  | .writeIndex =>
    match s.stage with
    | some (.reading b) =>
      if b.todo = [] then
        some { s with
          index := some (b.assemble host s.now)
          stage := some (.written b)
          last := some ⟨b, s.tree⟩ }
      else none
    | _ => none
  | .writeFreshness =>
    match s.stage with
    | some (.written b) =>
      some { s with
        fingerprint := some (indexableFingerprint host b.settings.cfg s.tree)
        stage := none
        listed := indexableEntries host b.settings.cfg s.tree }
    | _ => none

/-- What a build from an empty index writes. -/
def rebuild (st : Settings) (tree : Tree) (now : Nat) : Index :=
  let start := Build.start host st tree
  (start.walked.foldl (fun b path => b.visit host none tree path) start).assemble host now

end

end Agentrail.Context
