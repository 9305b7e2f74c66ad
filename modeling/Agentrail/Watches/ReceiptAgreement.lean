import Agentrail.Dependencies.SourceInventory
import Agentrail.Py.Lines
import Agentrail.Watches.CanonicalAgreement

/-!
# Receipts across the languages

What `buildGoGithubSourceInventoryReceipt` writes, `validateGoDependencySourceInventoryReceipt`
accepts.  The entries of an inventory are in the order of their bytes and differ when folded, so
the walk over the decoded entries never stops; the digests agree since both sides write the same
canonical JSON.

    validate… = .ok inventory → build… = .ok receipt →
      ∃ value, jsonParse receipt.canonicalJson = some value ∧
        validateGo… value receipt.identitySha256 = some value     (python_receipts_are_accepted)
-/

namespace Agentrail.SourceReceipts

open Js
open SourceInventory
open Decodes

/-! ## Decoded receipts -/

def decodedEntry (entry : GoGithubInventoryEntry) : Json :=
  .obj [("mode".toList, .str entry.mode), ("objectSha".toList, .str entry.objectSha),
    ("path".toList, .str entry.path), ("type".toList, .str entry.kind)]

theorem decodes_entry (entry : GoGithubInventoryEntry) :
    Decodes entry.asDict (decodedEntry entry) := by
  have hfields := field "path" (str entry.path) <| field "mode" (str entry.mode) <|
    field "type" (str entry.kind) <| field "objectSha" (str entry.objectSha) .nil
  exact dict hfields rfl

theorem decodes_entries (entries : List GoGithubInventoryEntry) :
    Decodes (.list (entries.map GoGithubInventoryEntry.asDict))
      (.arr (entries.map decodedEntry)) := by
  apply list
  rw [List.forall₂_map_left_iff, List.forall₂_map_right_iff]
  exact List.forall₂_same.mpr fun entry _ => decodes_entry entry

/-- A row of `requiredFiles`. -/
structure FileFacts where
  path : String
  blobSha : Text
  content : Bytes

section
variable (hashes : Hashes)

def FileFacts.decoded (file : FileFacts) : Json :=
  .obj [("blobSha".toList, .str file.blobSha), ("byteCount".toList, .num file.content.length),
    ("contentSha256".toList, .str (hashes.sha256 file.content)),
    ("mode".toList, .str "100644".toList), ("path".toList, .str file.path.toList)]

theorem decodes_fileRow (file : FileFacts) (h : file.content.length ≤ Py.maxSafeInteger) :
    Decodes (fileRow hashes file.path file.blobSha file.content) (file.decoded hashes) := by
  have hfields := field "path" (str file.path.toList) <| field "mode" (str "100644".toList) <|
    field "blobSha" (str file.blobSha) <| field "byteCount" (nat h) <|
    field "contentSha256" (str (hashes.sha256 file.content)) .nil
  exact dict hfields rfl

def decodedIdentity : Json :=
  .obj [("ecosystem".toList, .str "go".toList), ("manager".toList, .str "go-modules".toList),
    ("profile".toList, .str goGithubSourceInventoryProfile)]

def decodedAuthority (inventory : ValidatedGoGithubInventory) : Json :=
  .obj [("apiOrigin".toList, .str "https://api.github.com".toList),
    ("commitSha".toList, .str inventory.commitSha),
    ("method".toList, .str "github_app_installation_api".toList),
    ("provider".toList, .str "github".toList), ("repository".toList, .str inventory.repository),
    ("requestedRef".toList, .str inventory.requestedRef),
    ("rootTreeSha".toList, .str inventory.rootTreeSha)]

def entriesSha256 (inventory : ValidatedGoGithubInventory) : Text :=
  sha256Json hashes (.list (inventory.entries.map GoGithubInventoryEntry.asDict))

def decodedInventory (inventory : ValidatedGoGithubInventory) : Json :=
  .obj [("entries".toList, .arr (inventory.entries.map decodedEntry)),
    ("entriesSha256".toList, .str (entriesSha256 hashes inventory)),
    ("entryCount".toList, .num inventory.entries.length), ("recursive".toList, .bool true),
    ("truncated".toList, .bool false)]

def decodedPolicy : Json :=
  .obj [("name".toList, .str "go_root_source_inventory_v1".toList),
    ("result".toList, .str "admitted".toList)]

/-- The fields of a receipt without its identity, in the order in which Python sets them. -/
def decodedFields (inventory : ValidatedGoGithubInventory) (requiredFiles : List FileFacts) :
    List (Text × Json) :=
  [("kind".toList, .str sourceInventoryReceiptKind), ("schemaVersion".toList, .num 1),
    ("identity".toList, decodedIdentity), ("authority".toList, decodedAuthority inventory),
    ("inventory".toList, decodedInventory hashes inventory),
    ("requiredFiles".toList, .arr (requiredFiles.map (FileFacts.decoded hashes))),
    ("policy".toList, decodedPolicy)]

/-- The fields in the order of their keys. -/
def decodedObject (fields : List (Text × Json)) : Json :=
  .obj (fields.insertionSort fun a b => a.1 ≤ b.1)

def decodedReceipt (inventory : ValidatedGoGithubInventory) (requiredFiles : List FileFacts)
    (identitySha256 : Text) : Json :=
  decodedObject (decodedFields hashes inventory requiredFiles ++
    [("identitySha256".toList, .str identitySha256)])

/-- The rows that Python writes. -/
def fileRows (requiredFiles : List FileFacts) : List Py.Json :=
  requiredFiles.map fun file => fileRow hashes file.path file.blobSha file.content

/-- The hash of a receipt without its identity. -/
def identityOf (inventory : ValidatedGoGithubInventory) (requiredFiles : List FileFacts) : Text :=
  sha256Json hashes
    (.dict (receiptWithoutIdentity hashes inventory (fileRows hashes requiredFiles)))

variable {hashes}
variable {inventory : ValidatedGoGithubInventory} {requiredFiles : List FileFacts}

theorem decodes_fileRows
    (hfiles : ∀ file ∈ requiredFiles, file.content.length ≤ Py.maxSafeInteger) :
    Decodes (.list (fileRows hashes requiredFiles))
      (.arr (requiredFiles.map (FileFacts.decoded hashes))) := by
  apply list
  unfold fileRows
  rw [List.forall₂_map_left_iff, List.forall₂_map_right_iff]
  exact List.forall₂_same.mpr fun file hfile => decodes_fileRow hashes file (hfiles file hfile)

theorem decodes_fields (hcount : inventory.entries.length ≤ Py.maxSafeInteger)
    (hfiles : ∀ file ∈ requiredFiles, file.content.length ≤ Py.maxSafeInteger) :
    List.Forall₂ Field (receiptWithoutIdentity hashes inventory (fileRows hashes requiredFiles))
      (decodedFields hashes inventory requiredFiles) := by
  have hidentity := field "ecosystem" (str "go".toList) <|
    field "manager" (str "go-modules".toList) <|
    field "profile" (str goGithubSourceInventoryProfile) .nil
  have hauthority := field "provider" (str "github".toList) <|
    field "method" (str "github_app_installation_api".toList) <|
    field "apiOrigin" (str "https://api.github.com".toList) <|
    field "repository" (str inventory.repository) <|
    field "requestedRef" (str inventory.requestedRef) <|
    field "commitSha" (str inventory.commitSha) <|
    field "rootTreeSha" (str inventory.rootTreeSha) .nil
  have hinventory := field "recursive" (bool true) <| field "truncated" (bool false) <|
    field "entryCount" (nat hcount) <| field "entries" (decodes_entries inventory.entries) <|
    field "entriesSha256" (str (entriesSha256 hashes inventory)) .nil
  have hpolicy := field "name" (str "go_root_source_inventory_v1".toList) <|
    field "result" (str "admitted".toList) .nil
  have hversion : Decodes (.int 1) (.num 1) := nat (by decide)
  have hlength : (inventory.entries.map GoGithubInventoryEntry.asDict).length =
      inventory.entries.length := List.length_map _
  unfold receiptWithoutIdentity decodedFields
  simp only [hlength]
  exact field "kind" (str _) <| field "schemaVersion" hversion <|
    field "identity" (dict hidentity rfl) <| field "authority" (dict hauthority rfl) <|
    field "inventory" (dict hinventory rfl) <|
    field "requiredFiles" (decodes_fileRows hfiles) <| field "policy" (dict hpolicy rfl) .nil

theorem decodes_withoutIdentity (hcount : inventory.entries.length ≤ Py.maxSafeInteger)
    (hfiles : ∀ file ∈ requiredFiles, file.content.length ≤ Py.maxSafeInteger) :
    Decodes (.dict (receiptWithoutIdentity hashes inventory (fileRows hashes requiredFiles)))
      (decodedObject (decodedFields hashes inventory requiredFiles)) :=
  dict (decodes_fields hcount hfiles) rfl

theorem decodes_receipt (hcount : inventory.entries.length ≤ Py.maxSafeInteger)
    (hfiles : ∀ file ∈ requiredFiles, file.content.length ≤ Py.maxSafeInteger) :
    Decodes (.dict (receiptFields hashes inventory (fileRows hashes requiredFiles)))
      (decodedReceipt hashes inventory requiredFiles
        (identityOf hashes inventory requiredFiles)) := by
  have hidentity := field "identitySha256"
    (str (identityOf hashes inventory requiredFiles)) .nil
  exact dict (List.rel_append (decodes_fields hcount hfiles) hidentity) rfl

end

/-! ## Texts -/

theorem isSourceGitSha_of_isObjectSha {n : Nat} {t : Text} (h : IsObjectSha n t)
    (hn : n = 40 ∨ n = 64) : isSourceGitSha t = true := by
  unfold isSourceGitSha
  rw [Bool.and_eq_true, Bool.or_eq_true, decide_eq_true_eq, decide_eq_true_eq, h.length]
  exact ⟨hn, h.hex⟩

theorem isSourceRepository_eq (t : Text) : isSourceRepository t = isRepositorySlug t := by
  unfold isSourceRepository isRepositorySlug
  rw [Py.splitOn1_eq_splitOn]
  generalize t.splitOn '/' = parts
  match parts with
  | [] | [_] | _ :: _ :: _ :: _ => rfl
  | [owner, name] =>
    show (isSlugPart owner && (isSlugPart name && true)) = _
    rw [Bool.and_true]

theorem isAsciiPath_of_isPath {t : Text} (h : IsPath t) : isAsciiPath t = true := by
  have hascii := h.ascii
  have hcontrol := h.control
  unfold Py.isAscii at hascii
  rw [List.all_eq_true] at hascii
  rw [List.any_eq_false] at hcontrol
  unfold isAsciiPath
  rw [Bool.and_eq_true, decide_eq_true_eq, List.all_eq_true]
  refine ⟨h.ne_nil, fun c hc => ?_⟩
  have hlow := of_decide_eq_true (hascii c hc)
  have hhigh := hcontrol c hc
  unfold SourceInventory.isControl at hhigh
  rw [Bool.or_eq_true, decide_eq_true_eq, decide_eq_true_eq] at hhigh
  rw [Bool.and_eq_true, decide_eq_true_eq, decide_eq_true_eq]
  omega

theorem sourceSafePath_of_isPath {t : Text} (h : IsPath t) : sourceSafePath t = true := by
  have hparts := h.parts
  unfold looseParts at hparts
  rw [List.any_eq_false, Py.splitOn1_eq_splitOn] at hparts
  unfold sourceSafePath
  simp only [Bool.and_eq_true, decide_eq_true_eq, isAsciiPath_of_isPath h, Bool.not_eq_true',
    List.all_eq_true, and_true]
  refine ⟨⟨⟨⟨⟨⟨h.ne_nil, h.bytes⟩, h.head⟩, h.last⟩, h.backslash⟩, h.control⟩, ?_⟩
  intro part hpart
  have hloose := hparts part hpart
  simp only [Bool.or_eq_true, decide_eq_true_eq, not_or] at hloose
  exact ⟨⟨hloose.1.1, hloose.1.2⟩, hloose.2⟩

theorem toLower_eq_slash (c : Char) : c.toLower = '/' ↔ c = '/' := by
  unfold Char.toLower
  split
  · rename_i h
    constructor
    · intro he
      have hval := congrArg Char.val he
      simp only at hval
      rw [ge_iff_le, UInt32.le_iff_toNat_le, UInt32.le_iff_toNat_le] at h
      have hn := congrArg UInt32.toNat hval
      rw [UInt32.toNat_add] at hn
      have h1 : 'A'.val.toNat = 65 := rfl
      have h2 : 'Z'.val.toNat = 90 := rfl
      have h3 : ('a'.val - 'A'.val).toNat = 32 := rfl
      have h4 : '/'.val.toNat = 47 := rfl
      omega
    · rintro rfl
      exact absurd h (by decide)
  · rfl

theorem isSome_ite (a : Bool) (refusal : String) (rest : Option String) :
    (if a = true then some refusal else rest).isSome = (a || rest.isSome) := by
  cases a <;> rfl

theorem forbidden_contains (basename : Text) :
    [".netrc".toList, ".gitconfig".toList, ".goenv".toList, "go.env".toList].contains basename =
      forbiddenConfigBasenames.contains basename := by
  have hperm : [".netrc".toList, ".gitconfig".toList, ".goenv".toList, "go.env".toList].Perm
      forbiddenConfigBasenames := by decide
  rw [Bool.eq_iff_iff, List.contains_iff_mem, List.contains_iff_mem]
  exact hperm.mem_iff

/-- The root profile refuses the same paths. -/
theorem isRefused_eq (t : Text) : isRefused t = (pathRefusal t).isSome := by
  have hparts : (Py.splitOn1 '/' t).map casefold = (lowered t).splitOn '/' := by
    rw [← Py.splitOn1_eq_splitOn]
    exact (Py.splitOn1_map toLower_eq_slash t).symm
  have hpath : ['/'].intercalate ((lowered t).splitOn '/') = lowered t := by
    rw [← Py.splitOn1_eq_splitOn, Py.splitOn1_join]
  unfold isRefused pathRefusal
  simp only [hparts, hpath, forbidden_contains, isSome_ite, Option.isSome_none, Bool.or_false,
    Bool.or_assoc]

/-! ## The parts of a receipt -/

theorem checkAuthority_decoded {inventory : ValidatedGoGithubInventory}
    (h : IsInventory inventory) :
    checkAuthority (decodedAuthority inventory) = some inventory.commitSha.length := by
  unfold checkAuthority
  simp only [Option.bind_eq_bind, Option.bind_eq_some_iff, Option.guard_eq_some', Option.pure_def]
  obtain ⟨hne, hcontrol, hbytes⟩ := h.requestedRef
  refine ⟨(), rfl, inventory.repository, rfl, (), ?_, inventory.requestedRef, rfl, (), ?_,
    inventory.commitSha, rfl, inventory.rootTreeSha, rfl, (), ?_, rfl⟩
  · rw [isSourceRepository_eq]
    exact h.repository
  · simp only [Bool.and_eq_true, decide_eq_true_eq, Bool.not_eq_true']
    exact ⟨⟨hne, hbytes⟩, hcontrol⟩
  · rw [Bool.and_eq_true, Bool.and_eq_true, decide_eq_true_eq]
    exact ⟨⟨isSourceGitSha_of_isObjectSha h.commitSha h.family,
      isSourceGitSha_of_isObjectSha h.rootTreeSha h.family⟩, h.rootTreeSha.length.symm⟩

theorem isSafeInteger_natCast {n : Nat} (h : n ≤ Py.maxSafeInteger) :
    isSafeInteger (n : ℚ) = true := isSafeInteger_intCast n h

section
variable {hashes : Hashes} {inventory : ValidatedGoGithubInventory}

/-- The root of an inventory has two files. -/
theorem two_le_entries (h : IsInventory inventory) : 2 ≤ inventory.entries.length := by
  obtain ⟨goMod, hgoMod, hmod⟩ := h.required "go.mod" (by decide)
  obtain ⟨goSum, hgoSum, hsum⟩ := h.required "go.sum" (by decide)
  by_contra hshort
  have hone : ∃ entry, inventory.entries = [entry] :=
    List.length_eq_one_iff.mp (by have := List.length_pos_of_mem hgoMod; omega)
  obtain ⟨entry, hentry⟩ := hone
  rw [hentry, List.mem_singleton] at hgoMod hgoSum
  rw [hgoMod] at hmod
  rw [hgoSum, hmod] at hsum
  exact absurd hsum (by decide)

theorem checkInventory_decoded (hhex : ∀ b, isSourceSha256 (hashes.sha256 b) = true)
    (h : IsInventory inventory) :
    checkInventory hashes.sha256 (decodedInventory hashes inventory) =
      some (inventory.entries.map decodedEntry) := by
  have hcount := h.count
  have htwo := two_le_entries h
  unfold goGithubTreeMaxEntries at hcount
  unfold checkInventory
  simp only [Option.bind_eq_bind, Option.bind_eq_some_iff, Option.guard_eq_some', Option.pure_def]
  refine ⟨(), rfl, inventory.entries.length, rfl, (), ?_, inventory.entries.map decodedEntry, rfl,
    (), ?_, entriesSha256 hashes inventory, rfl, (), ?_, rfl⟩
  · have hsafe : inventory.entries.length ≤ Py.maxSafeInteger :=
      hcount.le.trans (by decide)
    rw [isSafeInteger_natCast hsafe, Bool.true_and, Bool.and_eq_true, decide_eq_true_eq,
      decide_eq_true_eq]
    exact ⟨Nat.ofNat_le_cast.mpr htwo, Nat.cast_lt.mpr hcount⟩
  · rw [List.length_map]
  · rw [Bool.and_eq_true, decide_eq_true_eq]
    refine ⟨hhex _, ?_⟩
    unfold sourceCanonicalSha256
    rw [(decodes_entries inventory.entries).canonical]
    rfl

end

/-! ## The walk over the entries -/

/-- The walk after some entries, of which the latest comes first. -/
def walkAfter (done : List GoGithubInventoryEntry) : Walk where
  seen := done.map GoGithubInventoryEntry.path
  folded := done.map fun entry => casefold entry.path
  previousPath := done.head?.map GoGithubInventoryEntry.path
  totalPathBytes := pathBytes done
  entriesByPath := done.map fun entry => (entry.path, decodedEntry entry)

theorem entryPath_decoded {hexLength : Nat} {entry : GoGithubInventoryEntry}
    (h : IsEntry hexLength entry) (hfamily : hexLength = 40 ∨ hexLength = 64) :
    entryPath hexLength (decodedEntry entry) = some entry.path := by
  unfold entryPath
  simp only [Option.bind_eq_bind, Option.bind_eq_some_iff, Option.guard_eq_some', Option.pure_def]
  refine ⟨(), rfl, entry.path, rfl, (), sourceSafePath_of_isPath h.path, (), ?_, entry.objectSha,
    rfl, (), ?_, rfl⟩
  · have hmode := h.mode
    unfold entryModes at hmode
    show ((decide (some entry.kind = some "blob".toList) &&
        (decide (some entry.mode = some "100644".toList) ||
          decide (some entry.mode = some "100755".toList))) ||
      (decide (some entry.kind = some "tree".toList) &&
        decide (some entry.mode = some "040000".toList))) = true
    simp only [Option.some.injEq, Bool.or_eq_true, Bool.and_eq_true, decide_eq_true_eq]
    split at hmode
    · rename_i hblob
      rw [List.mem_cons, List.mem_singleton] at hmode
      exact .inl ⟨hblob, hmode⟩
    · split at hmode
      · rename_i htree
        exact .inr ⟨htree, List.mem_singleton.mp hmode⟩
      · exact absurd hmode List.not_mem_nil
  · rw [Bool.and_eq_true, decide_eq_true_eq]
    exact ⟨isSourceGitSha_of_isObjectSha h.objectSha hfamily, h.objectSha.length⟩

theorem pathBytes_cons (entry : GoGithubInventoryEntry) (entries : List GoGithubInventoryEntry) :
    pathBytes (entry :: entries) = (utf8 entry.path).length + pathBytes entries := rfl

/-- One more entry in order. -/
theorem checkEntry_walkAfter {hexLength : Nat} {done rest : List GoGithubInventoryEntry}
    {entry : GoGithubInventoryEntry} (hfamily : hexLength = 40 ∨ hexLength = 64)
    (h : AreEntries hexLength (done.reverse ++ entry :: rest)) :
    checkEntry hexLength (walkAfter done) (decodedEntry entry) =
      some (walkAfter (entry :: done)) := by
  have hin : entry ∈ done.reverse ++ entry :: rest :=
    List.mem_append_right _ List.mem_cons_self
  have hfolded := h.folded
  have hsorted := h.sorted
  have hbytes := h.bytes
  rw [List.map_append, List.map_cons, List.nodup_append] at hfolded
  rw [List.pairwise_append] at hsorted
  have hbefore : ∀ before ∈ done, utf8 before.path < utf8 entry.path := fun before hbefore =>
    hsorted.2.2 before (List.mem_reverse.mpr hbefore) entry List.mem_cons_self
  have hnew : casefold entry.path ∉ done.map fun entry => casefold entry.path := by
    intro hold
    rw [← List.mem_reverse, ← List.map_reverse] at hold
    exact hfolded.2.2 _ hold _ List.mem_cons_self rfl
  unfold checkEntry
  simp only [Option.bind_eq_bind, Option.bind_eq_some_iff, Option.guard_eq_some', Option.pure_def]
  refine ⟨entry.path, entryPath_decoded (h.each entry hin) hfamily, (), ?_, (), ?_, ?_⟩
  · rw [Bool.and_eq_true, decide_eq_true_eq, Bool.not_eq_true', isRefused_eq, h.admitted entry hin]
    refine ⟨?_, rfl⟩
    show pathBytes done + (utf8 entry.path).length ≤ goSourceInventoryMaxTotalPathBytes
    unfold pathBytes at hbytes ⊢
    rw [List.map_append, List.map_reverse, List.sum_append, List.sum_reverse, List.map_cons,
      List.sum_cons] at hbytes
    exact le_trans (Nat.add_le_add_left (Nat.le_add_right _ _) _) hbytes
  · simp only [Bool.and_eq_true, Bool.not_eq_true', List.contains_eq_mem, decide_eq_false_iff_not]
    refine ⟨⟨fun hseen => hnew ?_, hnew⟩, ?_⟩
    · obtain ⟨before, hbefore, he⟩ := List.mem_map.mp hseen
      exact List.mem_map.mpr ⟨before, hbefore, congrArg casefold he⟩
    · cases done with
      | nil => rfl
      | cons before done => exact decide_eq_true (hbefore before List.mem_cons_self)
  · unfold walkAfter
    rw [pathBytes_cons, Nat.add_comm]
    rfl

theorem checkEntries_walkAfter {hexLength : Nat} {done entries : List GoGithubInventoryEntry}
    (hfamily : hexLength = 40 ∨ hexLength = 64)
    (h : AreEntries hexLength (done.reverse ++ entries)) :
    checkEntries hexLength (walkAfter done) (entries.map decodedEntry) =
      some (walkAfter (entries.reverse ++ done)) := by
  induction entries generalizing done with
  | nil => rfl
  | cons entry entries ih =>
    rw [List.map_cons, checkEntries, checkEntry_walkAfter hfamily h, Option.bind_some, ih,
      List.reverse_cons, List.append_assoc, List.singleton_append]
    rwa [List.reverse_cons, List.append_assoc, List.singleton_append]

/-! ## The receipt -/

/-- Both sides keep the latest entry of a path. -/
theorem lookup_entriesByPath (path : Text) (entries : List GoGithubInventoryEntry) :
    (walkAfter entries).entriesByPath.lookup path =
      (entries.find? fun entry => entry.path = path).map decodedEntry := by
  induction entries with
  | nil => rfl
  | cons entry entries ih =>
    show ((entry.path, decodedEntry entry) :: (walkAfter entries).entriesByPath).lookup path = _
    rw [List.lookup_cons, List.find?_cons, ih]
    by_cases hpath : entry.path = path
    · simp [hpath]
    · have hne : (path == entry.path) = false := beq_eq_false_iff_ne.mpr fun he => hpath he.symm
      simp [hpath, hne]

section
variable {hashes : Hashes} {inventory : ValidatedGoGithubInventory}

theorem checkRequiredFile_decoded (hhex : ∀ b, isSourceSha256 (hashes.sha256 b) = true)
    (h : IsInventory inventory) {path : String} {limit : Nat} {content : Bytes}
    {rootEntry : GoGithubInventoryEntry} (hlimit : content.length ≤ limit)
    (hsafe : limit ≤ Py.maxSafeInteger)
    (hentry : (inventory.entries.reverse.find? fun entry => entry.path = path.toList) =
      some rootEntry)
    (hkind : rootEntry.kind = "blob".toList) (hmode : rootEntry.mode = "100644".toList) :
    checkRequiredFile inventory.commitSha.length (walkAfter inventory.entries.reverse).entriesByPath
      path limit (FileFacts.decoded hashes ⟨path, rootEntry.objectSha, content⟩) = some () := by
  have hin := List.mem_reverse.mp (List.mem_of_find?_eq_some hentry)
  have hsha := (h.entries.each rootEntry hin).objectSha
  unfold checkRequiredFile
  simp only [Option.bind_eq_bind, Option.bind_eq_some_iff, Option.guard_eq_some']
  refine ⟨(), ?_, rootEntry.objectSha, rfl, (), ?_, content.length, rfl, (), ?_,
    hashes.sha256 content, rfl, (), hhex content, decodedEntry rootEntry, ?_, ?_⟩
  · simp only [Bool.and_eq_true]
    exact ⟨⟨⟨rfl, rfl⟩, decide_eq_true rfl⟩, rfl⟩
  · rw [Bool.and_eq_true, decide_eq_true_eq]
    exact ⟨isSourceGitSha_of_isObjectSha hsha h.family, hsha.length⟩
  · rw [isSafeInteger_natCast (hlimit.trans hsafe), Bool.true_and, Bool.and_eq_true,
      decide_eq_true_eq, decide_eq_true_eq]
    exact ⟨Nat.cast_nonneg _, Nat.cast_le.mpr hlimit⟩
  · rw [lookup_entriesByPath, hentry]
    rfl
  · show ((decide (some rootEntry.kind = some "blob".toList) &&
        decide (some rootEntry.mode = some "100644".toList)) &&
      decide (some rootEntry.objectSha = some rootEntry.objectSha)) = true
    rw [hkind, hmode]
    simp

theorem sourceCanonicalSha256_withoutIdentity {requiredFiles : List FileFacts}
    (hcount : inventory.entries.length ≤ Py.maxSafeInteger)
    (hfiles : ∀ file ∈ requiredFiles, file.content.length ≤ Py.maxSafeInteger)
    (identitySha256 : Text) :
    sourceCanonicalSha256 hashes.sha256
      (withoutIdentity (decodedReceipt hashes inventory requiredFiles identitySha256)) =
        some (identityOf hashes inventory requiredFiles) := by
  have hrest : withoutIdentity (decodedReceipt hashes inventory requiredFiles identitySha256) =
    decodedObject (decodedFields hashes inventory requiredFiles) := rfl
  unfold sourceCanonicalSha256
  rw [hrest, (decodes_withoutIdentity hcount hfiles).canonical]
  rfl

/-- **A receipt of an admitted inventory is accepted.** -/
theorem validate_decodedReceipt (hhex : ∀ b, isSourceSha256 (hashes.sha256 b) = true)
    (h : IsInventory inventory) {modFile sumFile : FileFacts}
    {canonical : Text}
    (hfiles : ∀ file ∈ [modFile, sumFile], file.content.length ≤ Py.maxSafeInteger)
    (hrequired : checkRequiredFiles inventory.commitSha.length
      (walkAfter inventory.entries.reverse).entriesByPath
        ([modFile, sumFile].map (FileFacts.decoded hashes)) = some ())
    (hcanonical : sourceCanonicalJson (decodedReceipt hashes inventory [modFile, sumFile]
      (identityOf hashes inventory [modFile, sumFile])) = some canonical)
    (hbytes : (utf8 canonical).length ≤ sourceMaxReceiptBytes) :
    validateGoDependencySourceInventoryReceipt hashes.sha256
      (decodedReceipt hashes inventory [modFile, sumFile]
        (identityOf hashes inventory [modFile, sumFile]))
      (identityOf hashes inventory [modFile, sumFile]) =
        some (decodedReceipt hashes inventory [modFile, sumFile]
          (identityOf hashes inventory [modFile, sumFile])) := by
  have hcount : inventory.entries.length ≤ Py.maxSafeInteger := h.count.le.trans (by decide)
  have hwalk := @checkEntries_walkAfter inventory.commitSha.length [] inventory.entries h.family
    h.entries
  rw [List.append_nil] at hwalk
  unfold validateGoDependencySourceInventoryReceipt
  simp only [Option.bind_eq_bind, Option.bind_eq_some_iff, Option.guard_eq_some', Option.pure_def]
  refine ⟨(), ?_, canonical, hcanonical, (), ?_, (), ?_, decodedIdentity, rfl, (), rfl,
    decodedAuthority inventory, rfl, inventory.commitSha.length, checkAuthority_decoded h,
    decodedInventory hashes inventory, rfl, inventory.entries.map decodedEntry,
    checkInventory_decoded hhex h, walkAfter inventory.entries.reverse, hwalk,
    [modFile, sumFile].map (FileFacts.decoded hashes), rfl, (), hrequired, decodedPolicy, rfl, (),
    rfl, (), ?_, trivial⟩
  · exact Bool.and_eq_true_iff.mpr ⟨hhex _, rfl⟩
  · exact Bool.and_eq_true_iff.mpr ⟨decide_eq_true hbytes, rfl⟩
  · exact Bool.and_eq_true_iff.mpr ⟨rfl, decide_eq_true rfl⟩
  · exact sourceCanonicalSha256_withoutIdentity hcount hfiles _

end

/-! ## A receipt of two files -/

/-- Digests of the texts that the receipt below hashes, told apart by their lengths. -/
def sampleHashes : Hashes where
  sha1 blob :=
    if blob.length = 16 then "f7f642387004c4e9e4657e30fdd69ca30fe2a804".toList
    else "5aa47c7cc0ddc05c28c0aca3db64834e65307c08".toList
  sha256 content :=
    if content.length = 9 then
      "7b79504c1c3ab1bf5e14d63a44f209cd217d9e1a47ba4a0e8dcb432c9647ea30".toList
    else if content.length = 17 then
      "80004c972209cbed9438ad86e8ba373c4576a9ef35cc8e5589362561d409f569".toList
    else if content.length = 207 then
      "d34ff288d8b81b0fb27df8a6261c95a2ce46d153b2035dfc4948138777b4becf".toList
    else "94182b54333f22d8bd027cd95ba951d7ed76fdf9b2b65450b5c3c5e139f94917".toList

theorem sampleHashes_hex (content : Bytes) :
    isSourceSha256 (sampleHashes.sha256 content) = true := by
  simp only [sampleHashes]
  split
  · decide
  split
  · decide
  split <;> decide

def sampleEntry (path sha : String) : Py.Json :=
  .dict [("path".toList, .str path.toList), ("mode".toList, .str "100644".toList),
    ("type".toList, .str "blob".toList), ("sha".toList, .str sha.toList)]

def sampleCommit : Py.Json :=
  .dict [("sha".toList, .str "1f7a7a472abf3dd9643fd615f6da379c4acb3e3a".toList),
    ("commit".toList, .dict [("tree".toList, .dict
      [("sha".toList, .str "4b825dc642cb6eb9a060e54bf8d69288fbee4904".toList)])])]

def sampleTree : Py.Json :=
  .dict [("sha".toList, .str "4b825dc642cb6eb9a060e54bf8d69288fbee4904".toList),
    ("truncated".toList, .bool false),
    ("tree".toList, .list [sampleEntry "go.sum" "5aa47c7cc0ddc05c28c0aca3db64834e65307c08",
      sampleEntry "go.mod" "f7f642387004c4e9e4657e30fdd69ca30fe2a804"])]

def sampleFiles : Py.Dict Text Bytes :=
  (Py.Dict.empty.set "go.mod".toList (utf8 "module m\n".toList)).set "go.sum".toList
    (utf8 "x v1.0.0 h1:abc=\n".toList)

def sampleInventory : ValidatedGoGithubInventory where
  repository := "octo/app".toList
  requestedRef := "main".toList
  commitSha := "1f7a7a472abf3dd9643fd615f6da379c4acb3e3a".toList
  rootTreeSha := "4b825dc642cb6eb9a060e54bf8d69288fbee4904".toList
  entries := [
    ⟨"go.mod".toList, "100644".toList, "blob".toList,
      "f7f642387004c4e9e4657e30fdd69ca30fe2a804".toList⟩,
    ⟨"go.sum".toList, "100644".toList, "blob".toList,
      "5aa47c7cc0ddc05c28c0aca3db64834e65307c08".toList⟩]

theorem sample_validated : validateGoGithubSourceInventory (.str "octo/app".toList)
    (.str "main".toList) sampleCommit sampleTree = .ok sampleInventory := by
  rfl

def sampleRows : List FileFacts :=
  [⟨"go.mod", "f7f642387004c4e9e4657e30fdd69ca30fe2a804".toList, utf8 "module m\n".toList⟩,
    ⟨"go.sum", "5aa47c7cc0ddc05c28c0aca3db64834e65307c08".toList,
      utf8 "x v1.0.0 h1:abc=\n".toList⟩]

theorem sample_entriesSha256 : entriesSha256 sampleHashes sampleInventory =
    "d34ff288d8b81b0fb27df8a6261c95a2ce46d153b2035dfc4948138777b4becf".toList := by
  have hlength : (sourceCanonicalJson (.arr (sampleInventory.entries.map decodedEntry))).map
      (fun t => (utf8 t).length) = some 207 := by decide +kernel
  rw [(decodes_entries sampleInventory.entries).canonical, Option.map_some] at hlength
  have hbytes : (Py.utf8Encode (Py.canonicalJson
      (.list (sampleInventory.entries.map GoGithubInventoryEntry.asDict)))).length = 207 :=
    Option.some.inj hlength
  unfold entriesSha256 sha256Json
  simp only [sampleHashes]
  rw [if_neg (hbytes ▸ by decide), if_neg (hbytes ▸ by decide), if_pos hbytes]

theorem sample_identity : identityOf sampleHashes sampleInventory sampleRows =
    "94182b54333f22d8bd027cd95ba951d7ed76fdf9b2b65450b5c3c5e139f94917".toList := by
  have hlength : (sourceCanonicalJson
      (decodedObject (decodedFields sampleHashes sampleInventory sampleRows))).map
        (fun t => (utf8 t).length) = some 1268 := by
    unfold decodedFields decodedInventory
    rw [sample_entriesSha256]
    decide +kernel
  rw [(decodes_withoutIdentity (by decide) (by decide)).canonical, Option.map_some] at hlength
  have hbytes := Option.some.inj hlength
  unfold identityOf sha256Json
  simp only [sampleHashes]
  rw [if_neg (hbytes ▸ by decide), if_neg (hbytes ▸ by decide), if_neg (hbytes ▸ by decide)]

/-- A receipt that Python writes. -/
theorem sample_built : ∃ receipt,
    buildGoGithubSourceInventoryReceipt sampleHashes sampleInventory sampleFiles = .ok receipt := by
  have hlength : (sourceCanonicalJson (decodedReceipt sampleHashes sampleInventory sampleRows
      (identityOf sampleHashes sampleInventory sampleRows))).map
        (fun t => (utf8 t).length) = some 1352 := by
    unfold decodedReceipt decodedFields decodedInventory
    rw [sample_entriesSha256, sample_identity]
    decide +kernel
  rw [(decodes_receipt (by decide) (by decide)).canonical, Option.map_some] at hlength
  have hbytes : (Py.utf8Encode (Py.canonicalJson (.dict (receiptFields sampleHashes
      sampleInventory (fileRows sampleHashes sampleRows))))).length = 1352 :=
    Option.some.inj hlength
  have hfits : ¬ goSourceInventoryMaxReceiptBytes < (Py.utf8Encode (Py.canonicalJson
      (.dict (receiptFields sampleHashes sampleInventory
        (fileRows sampleHashes sampleRows))))).length := by
    rw [hbytes]
    decide
  exact ⟨⟨_, _⟩, if_neg hfits⟩

/-! ## Receipts survive the language boundary -/

/-- **Whatever receipt Python writes, TypeScript accepts.** -/
theorem python_receipts_are_accepted (hashes : Hashes)
    (hhex : ∀ b, isSourceSha256 (hashes.sha256 b) = true)
    (repository requestedRef commit treeResponse : Py.Json)
    (requiredFileBytes : Py.Dict Text Bytes) (inventory : ValidatedGoGithubInventory)
    (receipt : DependencySourceInventoryReceipt)
    (hinventory : validateGoGithubSourceInventory repository requestedRef commit treeResponse =
      .ok inventory)
    (hreceipt : buildGoGithubSourceInventoryReceipt hashes inventory requiredFileBytes =
      .ok receipt) :
    ∃ value, jsonParse receipt.canonicalJson = some value ∧
      validateGoDependencySourceInventoryReceipt hashes.sha256 value receipt.identitySha256 =
        some value := by
  have h := validateGoGithubSourceInventory_ok hinventory
  obtain ⟨goMod, goSum, goModFile, goSumFile, hgoMod, hgoSum, hcanonical, hidentity, hbytes⟩ :=
    buildGoGithubSourceInventoryReceipt_ok hreceipt
  obtain ⟨hmodLimit, modEntry, hmodEntry, hmodKind, hmodMode, rfl⟩ := requiredFile_ok hgoMod
  obtain ⟨hsumLimit, sumEntry, hsumEntry, hsumKind, hsumMode, rfl⟩ := requiredFile_ok hgoSum
  have hfiles : ∀ file ∈ [FileFacts.mk "go.mod" modEntry.objectSha goMod,
      ⟨"go.sum", sumEntry.objectSha, goSum⟩], file.content.length ≤ Py.maxSafeInteger := by
    intro file hfile
    rcases List.mem_cons.mp hfile with rfl | hfile
    · exact hmodLimit.trans (by decide)
    · rw [List.mem_singleton.mp hfile]
      exact hsumLimit.trans (by decide)
  have hcount : inventory.entries.length ≤ Py.maxSafeInteger := h.count.le.trans (by decide)
  have hdecodes := @decodes_receipt hashes inventory _ hcount hfiles
  rw [hcanonical] at hbytes ⊢
  rw [hidentity]
  have hmod := checkRequiredFile_decoded hhex h hmodLimit (by decide) hmodEntry hmodKind hmodMode
  have hsum := checkRequiredFile_decoded hhex h hsumLimit (by decide) hsumEntry hsumKind hsumMode
  have hrequired : checkRequiredFiles inventory.commitSha.length
      (walkAfter inventory.entries.reverse).entriesByPath
        ([⟨"go.mod", modEntry.objectSha, goMod⟩, ⟨"go.sum", sumEntry.objectSha, goSum⟩].map
          (FileFacts.decoded hashes)) = some () :=
    Option.bind_eq_some_iff.mpr ⟨(), hmod, hsum⟩
  exact ⟨_, hdecodes.parse,
    validate_decodedReceipt hhex h hfiles hrequired hdecodes.canonical hbytes⟩

theorem two_file_receipt_is_accepted : ∃ receipt value,
    buildGoGithubSourceInventoryReceipt sampleHashes sampleInventory sampleFiles = .ok receipt ∧
      jsonParse receipt.canonicalJson = some value ∧
      validateGoDependencySourceInventoryReceipt sampleHashes.sha256 value
        receipt.identitySha256 = some value := by
  obtain ⟨receipt, hreceipt⟩ := sample_built
  obtain ⟨value, hvalue⟩ := python_receipts_are_accepted sampleHashes sampleHashes_hex _ _ _ _
    sampleFiles sampleInventory receipt sample_validated hreceipt
  exact ⟨receipt, value, hreceipt, hvalue⟩

end Agentrail.SourceReceipts
