import Agentrail.Py.CanonicalJson
import Mathlib.Data.List.Sort

/-!
# Source inventories (`dependencies/source_inventory.py`)

`validateGoGithubSourceInventory` checks the recursive tree of a commit, and
`buildGoGithubSourceInventoryReceipt` binds the bytes of `go.mod` and `go.sum` to it in a receipt:
canonical JSON that carries the hash of the rest of itself.
-/

namespace Agentrail.SourceInventory

open Py

/-! ## Limits and names -/

def goGithubTreeMaxEntries : Nat := 20000
def goModMaxBytes : Nat := 256 * 1024
def goSumMaxBytes : Nat := 8 * 1024 * 1024
def goSourceInventoryMaxPathBytes : Nat := 4 * 1024
def goSourceInventoryMaxTotalPathBytes : Nat := 8 * 1024 * 1024
def goSourceInventoryMaxReceiptBytes : Nat := 16 * 1024 * 1024

def goGithubSourceInventoryProfile : Text := "go_github_exact_tree_source_inventory_v1".toList
def sourceInventoryReceiptKind : Text := "github_exact_tree_dependency_source_inventory".toList

/-- The hash functions of `hashlib`, as hexadecimal texts. -/
structure Hashes where
  sha1 : Bytes → Text
  sha256 : Bytes → Text

/-! ## Texts -/

def isAlnum (c : Char) : Bool :=
  ('A' ≤ c && c ≤ 'Z') || ('a' ≤ c && c ≤ 'z') || ('0' ≤ c && c ≤ '9')

def isLowerHex (c : Char) : Bool := ('0' ≤ c && c ≤ '9') || ('a' ≤ c && c ≤ 'f')

/-- `[\x00-\x1f\x7f]`. -/
def isControl (c : Char) : Bool := c.toNat ≤ 0x1f || c.toNat = 0x7f

/-- `[A-Za-z0-9][A-Za-z0-9._-]{0,99}`. -/
def isSlugPart (t : Text) : Bool :=
  t.head?.any isAlnum && t.tail.length ≤ 99 &&
    t.tail.all fun c => isAlnum c || c = '.' || c = '_' || c = '-'

/-- `_GITHUB_REPOSITORY.fullmatch`; neither part holds a slash. -/
def isRepositorySlug (t : Text) : Bool :=
  match splitOn1 '/' t with
  | [owner, name] => isSlugPart owner && isSlugPart name
  | _ => false

/-- `str.casefold` of ASCII. -/
def casefold (t : Text) : Text := t.map Char.toLower

def exactObjectSha (value : Json) (label : String) (hexLength : Nat) : Except PyError Text :=
  match value with
  | .str t =>
    if t.length ≠ hexLength || !t.all isLowerHex || t = [] then
      .error (.valueError (label ++ " is not an exact lowercase Git object SHA"))
    else .ok t
  | _ => .error (.valueError (label ++ " is not an exact lowercase Git object SHA"))

def safeRepository (repository : Json) : Except PyError Text :=
  match repository with
  | .str t =>
    if !isRepositorySlug t then
      .error (.valueError "GitHub repository must be an exact owner/name slug")
    else if (splitOn1 '/' t).any fun part => part = ['.'] || part = ['.', '.'] then
      .error (.valueError "GitHub repository must be an exact owner/name slug")
    else .ok t
  | _ => .error (.valueError "GitHub repository must be an exact owner/name slug")

def safeRef (requestedRef : Json) : Except PyError Text :=
  match requestedRef with
  | .str t =>
    if t = [] || t.any isControl then
      .error (.valueError "GitHub requested ref is not bounded text")
    else if 1024 < (utf8Encode t).length then
      .error (.valueError "GitHub requested ref exceeds the byte limit")
    else .ok t
  | _ => .error (.valueError "GitHub requested ref is not bounded text")

/-- A path that is not canonical. -/
def looseParts (t : Text) : Bool :=
  (splitOn1 '/' t).any fun part => part = [] || part = ['.'] || part = ['.', '.']

/-- The path, and its length in bytes. -/
def safePath (path : Option Json) : Except PyError (Text × Nat) :=
  match path with
  | some (.str t) =>
    if t = [] || t.head? = some '/' || t.getLast? = some '/' || t.contains '\\' ||
        t.any isControl || looseParts t then
      .error (.valueError "GitHub Go inventory contains a non-canonical path")
    else if !isAscii t then .error (.valueError "GitHub Go inventory paths must be ASCII")
    else if goSourceInventoryMaxPathBytes < (utf8Encode t).length then
      .error (.valueError "GitHub Go inventory path exceeds the byte limit")
    else .ok (t, (utf8Encode t).length)
  | _ => .error (.valueError "GitHub Go inventory contains a non-canonical path")

/-! ## Paths that the root profile refuses -/

/-- `_FORBIDDEN_CONFIG_BASENAMES`. -/
def forbiddenConfigBasenames : List Text :=
  [".gitconfig".toList, ".goenv".toList, ".netrc".toList, "go.env".toList]

/-- What `go_snapshot_path_refusal` says of one path. -/
def pathRefusal (path : Text) : Option String :=
  let foldedParts := (splitOn1 '/' path).map casefold
  let foldedBasename := foldedParts.getLast?.getD []
  let foldedPath := ['/'].intercalate foldedParts
  if foldedBasename = "go.work".toList || foldedBasename = "go.work.sum".toList then
    some "Go v1 rejects go.work workspace state"
  else if (foldedBasename = "go.mod".toList || foldedBasename = "go.sum".toList) &&
      path ≠ "go.mod".toList && path ≠ "go.sum".toList then
    some "Go v1 rejects nested or multiple module roots"
  else if foldedParts.contains "vendor".toList then some "Go v1 rejects vendored module state"
  else if forbiddenConfigBasenames.contains foldedBasename ||
      foldedPath = ".config/go/env".toList || "/.config/go/env".toList.isSuffixOf foldedPath then
    some "Go v1 rejects supplied repository or credential configuration"
  else none

/-- `go_snapshot_path_refusal`, with the paths by their folded form. -/
def refusalFrom (foldedPaths : Dict Text Text) : List Text → Option String
  | [] => none
  | rawPath :: paths =>
    if rawPath = [] then some "Go snapshot paths must be non-empty text"
    else
      let path := rawPath.map fun c => if c = '\\' then '/' else c
      let previous := foldedPaths.get (casefold path)
      if previous.any fun p => p ≠ path then
        some ("Go snapshot contains case-ambiguous paths: " ++
          String.ofList (previous.getD []) ++ " and " ++ String.ofList path)
      else
        match pathRefusal path with
        | some refusal => some refusal
        | none => refusalFrom (foldedPaths.set (casefold path) path) paths

def goSnapshotPathRefusal (paths : List Text) : Option String := refusalFrom Dict.empty paths

/-! ## The inventory -/

structure GoGithubInventoryEntry where
  path : Text
  mode : Text
  kind : Text
  objectSha : Text
  deriving DecidableEq

namespace GoGithubInventoryEntry

def asDict (entry : GoGithubInventoryEntry) : Json :=
  .dict [("path".toList, .str entry.path), ("mode".toList, .str entry.mode),
    ("type".toList, .str entry.kind), ("objectSha".toList, .str entry.objectSha)]

end GoGithubInventoryEntry

structure ValidatedGoGithubInventory where
  repository : Text
  requestedRef : Text
  commitSha : Text
  rootTreeSha : Text
  entries : List GoGithubInventoryEntry
  deriving DecidableEq

/-- `_ENTRY_MODE`, empty for another type. -/
def entryModes (kind : Text) : List Text :=
  if kind = "blob".toList then ["100644".toList, "100755".toList]
  else if kind = "tree".toList then ["040000".toList]
  else []

/-- `isinstance(value, Mapping)`. -/
def isMapping : Json → Bool
  | .dict _ => true
  | _ => false

/-- A text field of a mapping. -/
def strField (value : Json) (key : String) : Option Text :=
  match value.get key.toList with
  | some (.str t) => some t
  | _ => none

/-- An entry of the tree up to its path; the length of the path comes with it. -/
def readEntry (rawEntry : Json) : Except PyError (Text × Text × Text × Nat) :=
  if !isMapping rawEntry then
    .error (.valueError "GitHub Go recursive inventory contains a malformed entry")
  else
    match strField rawEntry "type" with
    | none => .error (.valueError "GitHub Go recursive inventory contains a malformed entry type")
    | some kind =>
      if kind = "commit".toList then
        .error (.valueError "GitHub Go recursive inventory contains an opaque submodule")
      else if entryModes kind = [] then
        .error (.valueError "GitHub Go recursive inventory contains a malformed entry type")
      else
        match strField rawEntry "mode" with
        | none =>
          .error (.valueError "GitHub Go recursive inventory contains an unsupported entry mode")
        | some mode =>
          if !(entryModes kind).contains mode then
            .error (.valueError
              "GitHub Go recursive inventory contains an unsupported entry mode")
          else
            (safePath (rawEntry.get "path".toList)).map fun path => (kind, mode, path.1, path.2)

/-- The loop over the entries, from the bytes of the paths so far and the folded paths. -/
def readEntries (hexLength total : Nat) (foldedPaths : Dict Text Text) :
    List Json → Except PyError (List GoGithubInventoryEntry)
  | [] => .ok []
  | rawEntry :: rawEntries => do
    let (kind, mode, path, pathBytes) ← readEntry rawEntry
    if goSourceInventoryMaxTotalPathBytes < total + pathBytes then
      .error (.valueError "GitHub Go recursive inventory exceeds the path byte limit")
    else
      match foldedPaths.get (casefold path) with
      | some previous =>
        .error (.valueError ("GitHub Go recursive inventory contains colliding paths: " ++
          String.ofList previous ++ " and " ++ String.ofList path))
      | none =>
        if (strField rawEntry "sha").map List.length ≠ some hexLength then
          .error (.valueError "GitHub Go inventory object SHA uses a different hash family")
        else do
          let objectSha ← exactObjectSha ((rawEntry.get "sha".toList).getD .null)
            "GitHub Go inventory object SHA" hexLength
          let entries ← readEntries hexLength (total + pathBytes)
            (foldedPaths.set (casefold path) path) rawEntries
          .ok (⟨path, mode, kind, objectSha⟩ :: entries)

/-- `validate_go_github_source_inventory`. -/
def validateGoGithubSourceInventory (repository requestedRef commit treeResponse : Json) :
    Except PyError ValidatedGoGithubInventory := do
  let repositoryValue ← safeRepository repository
  let requestedRefValue ← safeRef requestedRef
  if !isMapping commit then
    .error (.valueError "GitHub did not return an exact Go commit")
  else
    let commitShaRaw := (strField commit "sha").getD []
    if commitShaRaw.length ≠ 40 && commitShaRaw.length ≠ 64 then
      .error (.valueError "GitHub did not return an exact Go commit SHA")
    else do
      let commitSha ← exactObjectSha (.str commitShaRaw) "GitHub Go commit SHA" commitShaRaw.length
      let commitData := (commit.get "commit".toList).getD .null
      let treeData := (commitData.get "tree".toList).getD .null
      let treeShaRaw := (strField treeData "sha").getD []
      if treeShaRaw.length ≠ 40 && treeShaRaw.length ≠ 64 then
        .error (.valueError "GitHub did not return the exact Go root tree SHA")
      else if treeShaRaw.length ≠ commitSha.length then
        .error (.valueError "GitHub Go commit and tree use different hash families")
      else do
        let treeSha ← exactObjectSha (.str treeShaRaw) "GitHub Go root tree SHA" commitSha.length
        if !isMapping treeResponse || strField treeResponse "sha" ≠ some treeSha then
          .error (.valueError "GitHub Go inventory is not bound to the exact root tree SHA")
        else
          match treeResponse.get "truncated".toList, treeResponse.get "tree".toList with
          | some (.bool false), some (.list rawEntries) =>
            if goGithubTreeMaxEntries ≤ rawEntries.length then
              .error (.valueError "GitHub Go recursive inventory exceeds the entry limit")
            else do
              let read ← readEntries commitSha.length 0 Dict.empty rawEntries
              let entries := read.insertionSort fun a b => utf8Encode a.path ≤ utf8Encode b.path
              match goSnapshotPathRefusal (entries.map GoGithubInventoryEntry.path) with
              | some refusal => .error (.valueError refusal)
              | none =>
                match ["go.mod", "go.sum"].find? fun required =>
                  !entries.any fun entry => entry.path = required.toList &&
                    entry.kind = "blob".toList && entry.mode = "100644".toList with
                | some required => .error (.valueError
                    ("GitHub Go recursive inventory has no exact regular root " ++ required ++
                      " blob"))
                | none =>
                  .ok ⟨repositoryValue, requestedRefValue, commitSha, treeSha, entries⟩
          | some (.bool false), _ =>
            .error (.valueError "GitHub did not return a recursive Go inventory")
          | _, _ => .error (.valueError "GitHub Go recursive inventory is truncated")

/-! ## What an inventory went through -/

structure IsPath (t : Text) : Prop where
  ne_nil : t ≠ []
  head : t.head? ≠ some '/'
  last : t.getLast? ≠ some '/'
  backslash : t.contains '\\' = false
  control : t.any isControl = false
  parts : looseParts t = false
  ascii : isAscii t = true
  bytes : (utf8Encode t).length ≤ goSourceInventoryMaxPathBytes

theorem safePath_ok {path : Option Json} {t : Text} {n : Nat} (h : safePath path = .ok (t, n)) :
    IsPath t ∧ n = (utf8Encode t).length := by
  unfold safePath at h
  split at h
  · rw [ite_error_eq_ok, ite_error_eq_ok, ite_error_eq_ok] at h
    obtain ⟨hshape, hascii, hbytes, he⟩ := h
    cases he
    simp only [Bool.or_eq_true, decide_eq_true_eq, not_or, Bool.not_eq_true] at hshape
    obtain ⟨⟨⟨⟨⟨hnil, hhead⟩, hlast⟩, hback⟩, hcontrol⟩, hparts⟩ := hshape
    rw [Bool.not_eq_true', Bool.not_eq_false] at hascii
    exact ⟨⟨hnil, hhead, hlast, hback, hcontrol, hparts, hascii, Nat.not_lt.mp hbytes⟩, rfl⟩
  · exact absurd h (by nofun)

structure IsObjectSha (hexLength : Nat) (t : Text) : Prop where
  length : t.length = hexLength
  hex : t.all isLowerHex = true

theorem exactObjectSha_ok {value : Json} {label : String} {hexLength : Nat} {t : Text}
    (h : exactObjectSha value label hexLength = .ok t) : IsObjectSha hexLength t := by
  unfold exactObjectSha at h
  split at h
  · rw [ite_error_eq_ok] at h
    obtain ⟨hshape, he⟩ := h
    cases he
    simp only [Bool.or_eq_true, decide_eq_true_eq, not_or, Bool.not_eq_true',
      Bool.not_eq_false, not_not] at hshape
    exact ⟨hshape.1.1, hshape.1.2⟩
  · exact absurd h (by nofun)

structure IsEntry (hexLength : Nat) (entry : GoGithubInventoryEntry) : Prop where
  path : IsPath entry.path
  mode : entry.mode ∈ entryModes entry.kind
  objectSha : IsObjectSha hexLength entry.objectSha

theorem readEntry_ok {rawEntry : Json} {kind mode path : Text} {pathBytes : Nat}
    (h : readEntry rawEntry = .ok (kind, mode, path, pathBytes)) :
    mode ∈ entryModes kind ∧ IsPath path ∧ pathBytes = (utf8Encode path).length := by
  unfold readEntry at h
  rw [ite_error_eq_ok] at h
  obtain ⟨_, h⟩ := h
  split at h
  · exact absurd h (by nofun)
  rw [ite_error_eq_ok, ite_error_eq_ok] at h
  obtain ⟨_, _, h⟩ := h
  split at h
  · exact absurd h (by nofun)
  rw [ite_error_eq_ok] at h
  obtain ⟨hmode, h⟩ := h
  rw [Bool.not_eq_true', Bool.not_eq_false, List.contains_iff_mem] at hmode
  cases hpath : safePath (rawEntry.get "path".toList) with
  | error e =>
    rw [hpath] at h
    exact absurd h (by nofun)
  | ok found =>
    rw [hpath] at h
    cases h
    exact ⟨hmode, safePath_ok hpath⟩

/-- The bytes of the paths. -/
def pathBytes (entries : List GoGithubInventoryEntry) : Nat :=
  (entries.map fun entry => (utf8Encode entry.path).length).sum

theorem readEntries_ok {hexLength total : Nat} {foldedPaths : Dict Text Text}
    {rawEntries : List Json} {entries : List GoGithubInventoryEntry}
    (h : readEntries hexLength total foldedPaths rawEntries = .ok entries)
    (htotal : total ≤ goSourceInventoryMaxTotalPathBytes) :
    (∀ entry ∈ entries, IsEntry hexLength entry ∧ foldedPaths.get (casefold entry.path) = none) ∧
      (entries.map fun entry => casefold entry.path).Nodup ∧
      total + pathBytes entries ≤ goSourceInventoryMaxTotalPathBytes ∧
      entries.length = rawEntries.length := by
  induction rawEntries generalizing total foldedPaths entries with
  | nil =>
    cases h
    exact ⟨nofun, List.nodup_nil, htotal, rfl⟩
  | cons rawEntry rawEntries ih =>
    unfold readEntries at h
    obtain ⟨⟨kind, mode, path, bytes⟩, hentry, h⟩ := (except_bind_eq_ok _ _ _).mp h
    rw [ite_error_eq_ok] at h
    obtain ⟨hfits, h⟩ := h
    cases hfolded : foldedPaths.get (casefold path) with
    | some previous =>
      rw [hfolded] at h
      exact absurd h (by nofun)
    | none =>
      rw [hfolded] at h
      simp only at h
      rw [ite_error_eq_ok] at h
      obtain ⟨_, h⟩ := h
      obtain ⟨objectSha, hsha, h⟩ := (except_bind_eq_ok _ _ _).mp h
      obtain ⟨rest, hrest, h⟩ := (except_bind_eq_ok _ _ _).mp h
      cases h
      obtain ⟨hmode, hpath, rfl⟩ := readEntry_ok hentry
      obtain ⟨heach, hnodup, hsum, hlength⟩ := ih hrest (Nat.not_lt.mp hfits)
      have hnew : ∀ entry ∈ rest, casefold entry.path ≠ casefold path ∧
          foldedPaths.get (casefold entry.path) = none := by
        intro entry hin
        have hget := (heach entry hin).2
        rw [Dict.get_set] at hget
        split at hget
        · exact absurd hget (by nofun)
        · rename_i hne
          exact ⟨fun he => hne he.symm, hget⟩
      refine ⟨?_, ?_, ?_, ?_⟩
      · intro entry hin
        rcases List.mem_cons.mp hin with rfl | hin
        · exact ⟨⟨hpath, hmode, exactObjectSha_ok hsha⟩, hfolded⟩
        · exact ⟨(heach entry hin).1, (hnew entry hin).2⟩
      · rw [List.map_cons, List.nodup_cons]
        refine ⟨fun hin => ?_, hnodup⟩
        obtain ⟨entry, hentry, he⟩ := List.mem_map.mp hin
        exact (hnew entry hentry).1 he
      · rw [pathBytes, List.map_cons, List.sum_cons, ← Nat.add_assoc]
        exact hsum
      · rw [List.length_cons, List.length_cons, hlength]

theorem refusalFrom_none {foldedPaths : Dict Text Text} {paths : List Text}
    (h : refusalFrom foldedPaths paths = none) :
    ∀ path ∈ paths, pathRefusal (path.map fun c => if c = '\\' then '/' else c) = none := by
  induction paths generalizing foldedPaths with
  | nil => nofun
  | cons rawPath paths ih =>
    unfold refusalFrom at h
    rw [ite_eq_iff] at h
    obtain ⟨_, h⟩ | ⟨_, h⟩ := h
    · exact absurd h (by nofun)
    simp only at h
    split at h
    · exact absurd h (by nofun)
    split at h
    · exact absurd h (by nofun)
    · rename_i hpath
      exact List.forall_mem_cons.mpr ⟨hpath, ih h⟩

/-- A path without backslashes is refused as it stands. -/
theorem goSnapshotPathRefusal_none {paths : List Text} (h : goSnapshotPathRefusal paths = none)
    {path : Text} (hin : path ∈ paths) (hback : path.contains '\\' = false) :
    pathRefusal path = none := by
  have hsame : (path.map fun c => if c = '\\' then '/' else c) = path := by
    refine (List.map_congr_left fun c hc => ?_).trans (List.map_id path)
    refine if_neg ?_
    rintro rfl
    rw [List.contains_iff_mem.mpr hc] at hback
    exact absurd hback (by decide)
  rw [← hsame]
  exact refusalFrom_none h path hin

/-- What a receipt may list. -/
structure AreEntries (hexLength : Nat) (entries : List GoGithubInventoryEntry) : Prop where
  each : ∀ entry ∈ entries, IsEntry hexLength entry
  admitted : ∀ entry ∈ entries, pathRefusal entry.path = none
  sorted : entries.Pairwise fun a b => utf8Encode a.path < utf8Encode b.path
  folded : (entries.map fun entry => casefold entry.path).Nodup
  bytes : pathBytes entries ≤ goSourceInventoryMaxTotalPathBytes

structure IsInventory (inventory : ValidatedGoGithubInventory) : Prop where
  repository : isRepositorySlug inventory.repository = true
  requestedRef : inventory.requestedRef ≠ [] ∧ inventory.requestedRef.any isControl = false ∧
    (utf8Encode inventory.requestedRef).length ≤ 1024
  family : inventory.commitSha.length = 40 ∨ inventory.commitSha.length = 64
  commitSha : IsObjectSha inventory.commitSha.length inventory.commitSha
  rootTreeSha : IsObjectSha inventory.commitSha.length inventory.rootTreeSha
  entries : AreEntries inventory.commitSha.length inventory.entries
  count : inventory.entries.length < goGithubTreeMaxEntries
  required : ∀ path ∈ ["go.mod", "go.sum"], ∃ entry ∈ inventory.entries, entry.path = path.toList

theorem safeRepository_ok {repository : Json} {t : Text} (h : safeRepository repository = .ok t) :
    isRepositorySlug t = true := by
  unfold safeRepository at h
  split at h
  · rw [ite_error_eq_ok, ite_error_eq_ok] at h
    obtain ⟨hslug, _, he⟩ := h
    cases he
    rwa [Bool.not_eq_true', Bool.not_eq_false] at hslug
  · exact absurd h (by nofun)

theorem safeRef_ok {requestedRef : Json} {t : Text} (h : safeRef requestedRef = .ok t) :
    t ≠ [] ∧ t.any isControl = false ∧ (utf8Encode t).length ≤ 1024 := by
  unfold safeRef at h
  split at h
  · rw [ite_error_eq_ok, ite_error_eq_ok] at h
    obtain ⟨hshape, hbytes, he⟩ := h
    cases he
    simp only [Bool.or_eq_true, decide_eq_true_eq, not_or, Bool.not_eq_true] at hshape
    exact ⟨hshape.1, hshape.2, Nat.not_lt.mp hbytes⟩
  · exact absurd h (by nofun)

theorem utf8Encode_injective {s t : Text} (h : utf8Encode s = utf8Encode t) : s = t := by
  have hdecode := congrArg utf8Decode h
  rw [utf8Decode_utf8Encode, utf8Decode_utf8Encode] at hdecode
  exact Option.some.inj hdecode

/-- Sorting by bytes orders paths strictly. -/
theorem sorted_entries {read : List GoGithubInventoryEntry}
    (hfolded : (read.map fun entry => casefold entry.path).Nodup) :
    (read.insertionSort fun a b => utf8Encode a.path ≤ utf8Encode b.path).Pairwise fun a b =>
      utf8Encode a.path < utf8Encode b.path := by
  have htotal : Std.Total fun a b : GoGithubInventoryEntry =>
    utf8Encode a.path ≤ utf8Encode b.path := ⟨fun _ _ => Std.le_total⟩
  have htrans : IsTrans GoGithubInventoryEntry fun a b =>
    utf8Encode a.path ≤ utf8Encode b.path := ⟨fun _ _ _ => Std.le_trans⟩
  have hsorted := List.pairwise_insertionSort
    (fun a b : GoGithubInventoryEntry => utf8Encode a.path ≤ utf8Encode b.path) read
  have hdiffer : (read.insertionSort fun a b => utf8Encode a.path ≤ utf8Encode b.path).Pairwise
      fun a b => casefold a.path ≠ casefold b.path := by
    refine List.pairwise_map.mp ?_
    exact (((List.perm_insertionSort _ read).map _).nodup_iff).mpr hfolded
  refine (hsorted.and hdiffer).imp fun {a b} hab => Std.lt_of_le_of_ne hab.1 fun he => hab.2 ?_
  rw [utf8Encode_injective he]

theorem areEntries_of_read {hexLength : Nat} {rawEntries : List Json}
    {read entries : List GoGithubInventoryEntry}
    (hread : readEntries hexLength 0 Dict.empty rawEntries = .ok read)
    (hentries : entries = read.insertionSort fun a b => utf8Encode a.path ≤ utf8Encode b.path)
    (hadmitted : goSnapshotPathRefusal (entries.map GoGithubInventoryEntry.path) = none) :
    AreEntries hexLength entries ∧ entries.length = rawEntries.length := by
  obtain ⟨heach, hfolded, hbytes, hlength⟩ := readEntries_ok hread (Nat.zero_le _)
  have hperm : entries.Perm read := hentries ▸ List.perm_insertionSort _ read
  have heach' : ∀ entry ∈ entries, IsEntry hexLength entry := fun entry hin =>
    (heach entry (hperm.mem_iff.mp hin)).1
  refine ⟨⟨heach', ?_, hentries ▸ sorted_entries hfolded, ?_, ?_⟩, ?_⟩
  · intro entry hin
    exact goSnapshotPathRefusal_none hadmitted (List.mem_map_of_mem hin)
      (heach' entry hin).path.backslash
  · exact ((hperm.map _).nodup_iff).mpr hfolded
  · rw [pathBytes, (hperm.map _).sum_nat]
    rwa [Nat.zero_add] at hbytes
  · rw [hperm.length_eq, hlength]

theorem validateGoGithubSourceInventory_ok {repository requestedRef commit treeResponse : Json}
    {inventory : ValidatedGoGithubInventory}
    (h : validateGoGithubSourceInventory repository requestedRef commit treeResponse =
      .ok inventory) : IsInventory inventory := by
  unfold validateGoGithubSourceInventory at h
  obtain ⟨repositoryValue, hrepository, h⟩ := (except_bind_eq_ok _ _ _).mp h
  obtain ⟨requestedRefValue, hrequestedRef, h⟩ := (except_bind_eq_ok _ _ _).mp h
  rw [ite_error_eq_ok] at h
  obtain ⟨_, h⟩ := h
  simp only at h
  rw [ite_error_eq_ok] at h
  obtain ⟨hfamily, h⟩ := h
  obtain ⟨commitSha, hcommitSha, h⟩ := (except_bind_eq_ok _ _ _).mp h
  rw [ite_error_eq_ok, ite_error_eq_ok] at h
  obtain ⟨_, _, h⟩ := h
  obtain ⟨treeSha, htreeSha, h⟩ := (except_bind_eq_ok _ _ _).mp h
  rw [ite_error_eq_ok] at h
  obtain ⟨_, h⟩ := h
  split at h
  · rename_i rawEntries _ _
    rw [ite_error_eq_ok] at h
    obtain ⟨hcount, h⟩ := h
    obtain ⟨read, hread, h⟩ := (except_bind_eq_ok _ _ _).mp h
    split at h
    · exact absurd h (by nofun)
    rename_i hadmitted
    split at h
    · exact absurd h (by nofun)
    rename_i hrequired
    cases h
    obtain ⟨hentries, hlength⟩ := areEntries_of_read hread rfl hadmitted
    have hcommit := exactObjectSha_ok hcommitSha
    rw [Bool.and_eq_true, decide_eq_true_eq, decide_eq_true_eq, ← hcommit.length] at hfamily
    refine ⟨safeRepository_ok hrepository, safeRef_ok hrequestedRef, ?_, ⟨rfl, hcommit.hex⟩,
      exactObjectSha_ok htreeSha, hentries, ?_, ?_⟩
    · show commitSha.length = 40 ∨ commitSha.length = 64
      omega
    · rw [hlength]
      exact Nat.not_le.mp hcount
    · intro path hpath
      have hany := List.find?_eq_none.mp hrequired path hpath
      rw [Bool.not_eq_true', Bool.not_eq_false, List.any_eq_true] at hany
      obtain ⟨entry, hin, hentry⟩ := hany
      rw [Bool.and_eq_true, Bool.and_eq_true, decide_eq_true_eq] at hentry
      exact ⟨entry, hin, hentry.1.1⟩
  · exact absurd h (by nofun)
  · exact absurd h (by nofun)

/-! ## The receipt -/

structure DependencySourceInventoryReceipt where
  canonicalJson : Text
  identitySha256 : Text
  deriving DecidableEq

section
variable (hashes : Hashes)

def sha256Json (value : Json) : Text := hashes.sha256 (utf8Encode (Py.canonicalJson value))

def gitBlobObjectId (content : Bytes) (hashHexLength : Nat) : Except PyError Text :=
  let blob := utf8Encode ("blob ".toList ++ Nat.toDigits 10 content.length ++ ['\x00']) ++ content
  if hashHexLength = 40 then .ok (hashes.sha1 blob)
  else if hashHexLength = 64 then .ok (hashes.sha256 blob)
  else .error (.valueError "Git object hash family is unsupported")

/-- What the receipt says of `go.mod` or `go.sum`. -/
def fileRow (path : String) (blobSha : Text) (content : Bytes) : Json :=
  .dict [("path".toList, .str path.toList), ("mode".toList, .str "100644".toList),
    ("blobSha".toList, .str blobSha), ("byteCount".toList, .int content.length),
    ("contentSha256".toList, .str (hashes.sha256 content))]

/-- A file whose bytes are those of its entry. -/
def requiredFile (entries : List GoGithubInventoryEntry) (path : String) (limit : Nat)
    (content : Bytes) : Except PyError Json :=
  if limit < content.length then
    .error (.valueError (path ++ " exceeds the receipt byte limit"))
  else
    -- the last entry of a path is the one a dict keeps
    match entries.reverse.find? fun entry => entry.path = path.toList with
    | none =>
      .error (.valueError ("source inventory has no exact regular root " ++ path ++ " blob"))
    | some rootEntry =>
      if rootEntry.kind ≠ "blob".toList || rootEntry.mode ≠ "100644".toList then
        .error (.valueError ("source inventory has no exact regular root " ++ path ++ " blob"))
      else do
        let actualBlobSha ← gitBlobObjectId hashes content rootEntry.objectSha.length
        if actualBlobSha ≠ rootEntry.objectSha then
          .error (.valueError ("GitHub Go root " ++ path ++
            " does not match its local Git blob identity"))
        else
          .ok (fileRow hashes path rootEntry.objectSha content)

/-- `receipt_without_identity`. -/
def receiptWithoutIdentity (inventory : ValidatedGoGithubInventory) (requiredFiles : List Json) :
    List (Text × Json) :=
  let entryPayload := inventory.entries.map GoGithubInventoryEntry.asDict
  [("kind".toList, .str sourceInventoryReceiptKind),
    ("schemaVersion".toList, .int 1),
    ("identity".toList, .dict [
      ("ecosystem".toList, .str "go".toList),
      ("manager".toList, .str "go-modules".toList),
      ("profile".toList, .str goGithubSourceInventoryProfile)]),
    ("authority".toList, .dict [
      ("provider".toList, .str "github".toList),
      ("method".toList, .str "github_app_installation_api".toList),
      ("apiOrigin".toList, .str "https://api.github.com".toList),
      ("repository".toList, .str inventory.repository),
      ("requestedRef".toList, .str inventory.requestedRef),
      ("commitSha".toList, .str inventory.commitSha),
      ("rootTreeSha".toList, .str inventory.rootTreeSha)]),
    ("inventory".toList, .dict [
      ("recursive".toList, .bool true),
      ("truncated".toList, .bool false),
      ("entryCount".toList, .int entryPayload.length),
      ("entries".toList, .list entryPayload),
      ("entriesSha256".toList, .str (sha256Json hashes (.list entryPayload)))]),
    ("requiredFiles".toList, .list requiredFiles),
    ("policy".toList, .dict [
      ("name".toList, .str "go_root_source_inventory_v1".toList),
      ("result".toList, .str "admitted".toList)])]

/-- `receipt`. -/
def receiptFields (inventory : ValidatedGoGithubInventory) (requiredFiles : List Json) :
    List (Text × Json) :=
  let fields := receiptWithoutIdentity hashes inventory requiredFiles
  fields ++ [("identitySha256".toList, .str (sha256Json hashes (.dict fields)))]

/-- `build_go_github_source_inventory_receipt`. -/
def buildGoGithubSourceInventoryReceipt (inventory : ValidatedGoGithubInventory)
    (requiredFileBytes : Dict Text Bytes) : Except PyError DependencySourceInventoryReceipt := do
  match requiredFileBytes.items.length, requiredFileBytes.get "go.mod".toList,
      requiredFileBytes.get "go.sum".toList with
  | 2, some goMod, some goSum => do
    let goModFile ← requiredFile hashes inventory.entries "go.mod" goModMaxBytes goMod
    let goSumFile ← requiredFile hashes inventory.entries "go.sum" goSumMaxBytes goSum
    let requiredFiles := [goModFile, goSumFile]
    let canonical := Py.canonicalJson (.dict (receiptFields hashes inventory requiredFiles))
    if goSourceInventoryMaxReceiptBytes < (utf8Encode canonical).length then
      .error (.valueError "Go source inventory receipt exceeds the byte limit")
    else
      .ok ⟨canonical,
        sha256Json hashes (.dict (receiptWithoutIdentity hashes inventory requiredFiles))⟩
  | _, _, _ =>
    .error (.valueError "Go source inventory receipt requires exact go.mod and go.sum bytes")

variable {hashes}

theorem requiredFile_ok {entries : List GoGithubInventoryEntry} {path : String} {limit : Nat}
    {content : Bytes} {file : Json}
    (h : requiredFile hashes entries path limit content = .ok file) :
    content.length ≤ limit ∧ ∃ rootEntry,
      (entries.reverse.find? fun entry => entry.path = path.toList) = some rootEntry ∧
        rootEntry.kind = "blob".toList ∧ rootEntry.mode = "100644".toList ∧
          file = fileRow hashes path rootEntry.objectSha content := by
  unfold requiredFile at h
  rw [ite_error_eq_ok] at h
  obtain ⟨hlimit, h⟩ := h
  split at h
  · exact absurd h (by nofun)
  rename_i rootEntry hentry
  rw [ite_error_eq_ok, Bool.or_eq_true, decide_eq_true_eq, decide_eq_true_eq, not_or, not_not,
    not_not] at h
  obtain ⟨⟨hkind, hmode⟩, h⟩ := h
  obtain ⟨actualBlobSha, _, h⟩ := (except_bind_eq_ok _ _ _).mp h
  rw [ite_error_eq_ok] at h
  exact ⟨Nat.not_lt.mp hlimit, rootEntry, hentry, hkind, hmode, (Except.ok.inj h.2).symm⟩

theorem buildGoGithubSourceInventoryReceipt_ok {inventory : ValidatedGoGithubInventory}
    {requiredFileBytes : Dict Text Bytes} {receipt : DependencySourceInventoryReceipt}
    (h : buildGoGithubSourceInventoryReceipt hashes inventory requiredFileBytes = .ok receipt) :
    ∃ goMod goSum goModFile goSumFile,
      requiredFile hashes inventory.entries "go.mod" goModMaxBytes goMod = .ok goModFile ∧
      requiredFile hashes inventory.entries "go.sum" goSumMaxBytes goSum = .ok goSumFile ∧
      receipt.canonicalJson =
        Py.canonicalJson (.dict (receiptFields hashes inventory [goModFile, goSumFile])) ∧
      receipt.identitySha256 = sha256Json hashes
        (.dict (receiptWithoutIdentity hashes inventory [goModFile, goSumFile])) ∧
      (utf8Encode receipt.canonicalJson).length ≤ goSourceInventoryMaxReceiptBytes := by
  unfold buildGoGithubSourceInventoryReceipt at h
  split at h
  · rename_i goMod goSum _ _ _
    obtain ⟨goModFile, hgoMod, h⟩ := (except_bind_eq_ok _ _ _).mp h
    obtain ⟨goSumFile, hgoSum, h⟩ := (except_bind_eq_ok _ _ _).mp h
    simp only at h
    rw [ite_error_eq_ok] at h
    obtain ⟨hbytes, h⟩ := h
    cases h
    exact ⟨goMod, goSum, goModFile, goSumFile, hgoMod, hgoSum, rfl, rfl, Nat.not_lt.mp hbytes⟩
  · exact absurd h (by nofun)

end

end Agentrail.SourceInventory
