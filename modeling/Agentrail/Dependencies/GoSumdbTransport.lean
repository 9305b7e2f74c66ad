import Agentrail.Dependencies.GoSumdb
import Mathlib.Data.Int.Bitwise

/-!
# Proof retrieval from hash tiles, `go_sumdb_transport.py`

The proof planner (which stored hashes make up each hash of a proof), the tile
coordinates of a stored hash, and `fetch_proof_material`, which reads the tiles
over HTTP and folds them into a proof.

The opener is a parameter: what it answers may depend on every request made
before.  A response body is read through `read`, as from a socket.
-/

namespace Agentrail.GoSumdbTransport

open Py GoSumdb

def goSumdbOrigin : Text := "https://sum.golang.org".toList
def goSumdbTileHeight : Nat := 8
def goSumdbTileMaxBytes : Nat := (1 <<< goSumdbTileHeight) * 32
def readChunkBytes : Nat := 64 * 1024

/-! ## Tiles -/

structure Tile where
  height : Nat
  level : Nat
  number : Nat
  width : Nat
  deriving DecidableEq

/-- `f"{n}"`. -/
def decimalText (n : Nat) : Text := Nat.toDigits 10 n

/-- `f"{n:03d}"` of a number below 1000. -/
def pad3 (n : Nat) : Text :=
  [Nat.digitChar (n / 100), Nat.digitChar (n / 10 % 10), Nat.digitChar (n % 10)]

/-- The loop of `_Tile.path`: one `x…/` group for each three digits above the last. -/
def encodeNumber (number : Nat) (encoded : Text) : Text :=
  if number < 1000 then encoded
  else
    encodeNumber (number / 1000) ('x' :: (pad3 (number / 1000 % 1000) ++ '/' :: encoded))
termination_by number

def Tile.path (tile : Tile) : Text :=
  let encoded := encodeNumber tile.number (pad3 (tile.number % 1000))
  let partialWidth :=
    if tile.width ≠ 1 <<< tile.height then ".p/".toList ++ decimalText tile.width else []
  "tile/".toList ++ decimalText tile.height ++ '/' :: (decimalText tile.level ++ '/' ::
    (encoded ++ partialWidth))

def Tile.url (tile : Tile) : Text := goSumdbOrigin ++ '/' :: tile.path

/-! ## The numbering of the stored hashes -/

/-- `while number > 0: index += number; number >>= 1`. -/
def addShifts (index number : Nat) : Nat :=
  if number = 0 then index else addShifts (index + number) (number >>> 1)
termination_by number
decreasing_by rw [Nat.shiftRight_eq_div_pow]; omega

def storedHashIndex (level number : Nat) : Nat :=
  let number := (fun number => 2 * number + 1)^[level] number
  addShifts 0 number + level

/-- `((number + 1) & -(number + 1)).bit_length()`. -/
def lowestBitLength (number : Nat) : Nat :=
  (Int.land (number + 1 : Int) (-(number + 1 : Int))).toNat.size

/-- The loop of `_split_stored_hash_index`. -/
def splitFrom (index number indexAtNumber : Nat) : Nat × Nat :=
  let nextIndex := indexAtNumber + 1 + (lowestBitLength number - 1)
  if nextIndex > index then
    let level := index - indexAtNumber
    (level, number >>> level)
  else splitFrom index (number + 1) nextIndex
termination_by index + 1 - indexAtNumber

def splitStoredHashIndex (index : Nat) : Nat × Nat :=
  splitFrom index (index / 2) (storedHashIndex 0 (index / 2))

/-! ## The proof planner -/

/-- The width and its level; the planner asks only for `value ≥ 1`, and for 1 the shift of
the source is negative. -/
def maximumPowerOfTwoBelow (value : Nat) : Except PyError (Nat × Nat) :=
  if value ≤ 1 then .error (.valueError "negative shift count")
  else
    let level := (value - 1).size - 1
    .ok (1 <<< level, level)

theorem maximumPowerOfTwoBelow_bounds (value : Nat) (r : Nat × Nat)
    (h : maximumPowerOfTwoBelow value = .ok r) : 0 < r.1 ∧ r.1 < value := by
  unfold maximumPowerOfTwoBelow at h
  split at h
  · cases h
  · next hv =>
    cases h
    simp only [Nat.one_shiftLeft]
    have hs : 0 < (value - 1).size := Nat.size_pos.mpr (by omega)
    have : 2 ^ ((value - 1).size - 1) ≤ value - 1 := Nat.lt_size.mp (by omega)
    exact ⟨Nat.two_pow_pos _, by omega⟩

/-- Appends the stored hashes that cover `low … high - 1`, widest first. -/
def subtreeIndexes (low high : Nat) (indexes : List Nat) : Except PyError (List Nat) :=
  if low < high then
    match _h : maximumPowerOfTwoBelow (high - low + 1) with
    | .error e => .error e
    | .ok (width, level) =>
      if low &&& (width - 1) ≠ 0 then
        .error (.valueError "Go checksum database proof math is invalid")
      else subtreeIndexes (low + width) high (indexes ++ [storedHashIndex level (low >>> level)])
  else .ok indexes
termination_by high - low
decreasing_by
  have := (maximumPowerOfTwoBelow_bounds _ _ _h).1
  simp only at this
  omega

def subtreeIndexGroup (low high : Nat) : Except PyError (List Nat) := do
  let indexes ← subtreeIndexes low high []
  if indexes = [] then
    throw (.valueError "Go checksum database proof subtree is empty")
  return indexes

def recordProofIndexGroups (low high recordNumber : Nat) (groups : List (List Nat)) :
    Except PyError (List (List Nat)) :=
  if low + 1 = high then .ok groups
  else match _h : maximumPowerOfTwoBelow (high - low) with
    | .error e => .error e
    | .ok (width, _) =>
      if recordNumber < low + width then do
        let groups ← recordProofIndexGroups low (low + width) recordNumber groups
        return groups ++ [← subtreeIndexGroup (low + width) high]
      else do
        let groups ← recordProofIndexGroups (low + width) high recordNumber groups
        return groups ++ [← subtreeIndexGroup low (low + width)]
termination_by high - low
decreasing_by
  all_goals
    have := maximumPowerOfTwoBelow_bounds _ _ _h
    simp only at this
    omega

def treeProofIndexGroups (low high oldSize : Nat) (groups : List (List Nat)) :
    Except PyError (List (List Nat)) :=
  if oldSize = high then
    if low ≠ 0 then do
      return groups ++ [← subtreeIndexGroup low high]
    else .ok groups
  else match _h : maximumPowerOfTwoBelow (high - low) with
    | .error e => .error e
    | .ok (width, _) =>
      if oldSize ≤ low + width then do
        let groups ← treeProofIndexGroups low (low + width) oldSize groups
        return groups ++ [← subtreeIndexGroup (low + width) high]
      else do
        let groups ← treeProofIndexGroups (low + width) high oldSize groups
        return groups ++ [← subtreeIndexGroup low (low + width)]
termination_by high - low
decreasing_by
  all_goals
    have := maximumPowerOfTwoBelow_bounds _ _ _h
    simp only at this
    omega

/-! ## Where a stored hash lies -/

/-- The smallest tile that holds the hash, and the hash's byte range in it. -/
def tileForIndex (index : Nat) : Tile × Nat × Nat :=
  let (level, number) := splitStoredHashIndex index
  let tileLevel := level / goSumdbTileHeight
  let levelInTile := level - tileLevel * goSumdbTileHeight
  let tileNumber := (number <<< levelInTile) >>> goSumdbTileHeight
  let number := number - (tileNumber <<< goSumdbTileHeight) >>> levelInTile
  let width := (number + 1) <<< levelInTile
  let tile := { height := goSumdbTileHeight, level := tileLevel, number := tileNumber, width }
  (tile, (number <<< levelInTile) * 32, ((number + 1) <<< levelInTile) * 32)

/-- The tile as wide as the tree of `treeSize` records has it. -/
def tileForTree (index treeSize : Nat) : Except PyError (Tile × Nat × Nat) :=
  let (tile, start, stop) := tileForIndex index
  let fullWidth := 1 <<< tile.height
  let maximum := treeSize >>> (tile.level * tile.height)
  let first := tile.number <<< tile.height
  if first + fullWidth ≥ maximum then
    if first ≥ maximum then
      .error (.valueError "Go checksum database tile is outside the signed tree")
    else .ok ({ tile with width := maximum - first }, start, stop)
  else .ok ({ tile with width := fullWidth }, start, stop)

/-! ## HTTP -/

/-- `read offset amount` is what `read(amount)` returns once `offset` bytes were read: `none`
is an object other than bytes.  The inner `none` of the length is a header that is no integer. -/
structure Response where
  status : Option Int
  finalUrl : Option Text
  contentLength : Option (Option Int)
  read : Nat → Nat → Option Bytes

/-- The loop of `_read_tile`. -/
def readChunks (response : Response) (expectedBytes : Nat) (body : Bytes) :
    Except PyError Bytes :=
  let remaining := expectedBytes + 1 - body.length
  match response.read body.length (min readChunkBytes remaining) with
  | none => .error (.valueError "Go checksum database tile body is not bytes")
  | some [] =>
    if body.length ≠ expectedBytes then
      .error (.valueError "Go checksum database tile length is invalid")
    else .ok body
  | some (b :: chunk) =>
    if (body ++ b :: chunk).length > expectedBytes then
      .error (.valueError "Go checksum database tile exceeds its exact bound")
    else readChunks response expectedBytes (body ++ b :: chunk)
termination_by expectedBytes - body.length
decreasing_by simp at *; omega

def readTile (response : Response) (expectedUrl : Text) (expectedBytes : Nat) :
    Except PyError Bytes := do
  if response.status.any (· ≠ 200) then
    throw (.valueError "Go checksum database tile response is not HTTP 200")
  if response.finalUrl ≠ some expectedUrl then
    throw (.valueError "Go checksum database tile URL does not match the request")
  if expectedBytes < 32 || expectedBytes > goSumdbTileMaxBytes then
    throw (.valueError "Go checksum database tile size is outside the bound")
  match response.contentLength with
  | some none => throw (.valueError "Go checksum database tile has an invalid Content-Length")
  | some (some declaredLength) =>
    if declaredLength ≠ expectedBytes then
      throw (.valueError "Go checksum database tile length is invalid")
  | none => pure ()
  readChunks response expectedBytes []

/-- What the opener does with a URL after the URLs already requested, latest first. -/
abbrev Opener := List Text → Text → Except PyError Response

/-- The requests made so far and the local `tile_cache`. -/
structure Session where
  requests : List Text := []
  tileCache : List (Text × Bytes) := []

abbrev TransportM := ExceptT PyError (StateM Session)

section
variable (sha256 : Bytes → Bytes32) (opener : Opener)

/-- `_tile_hash`: the tree over the 32-byte hashes of a slice. -/
def tileHash (data : Bytes) : Except PyError Bytes :=
  if _h32 : data.length = 32 then .ok data
  else if _h : data = [] ∨ data.length % 64 ≠ 0 then
    .error (.valueError "Go checksum database tile hash slice is malformed")
  else do
    let middle := data.length / 2
    let left ← tileHash (data.take middle)
    let right ← tileHash (data.drop middle)
    return (sha256 (1 :: (left ++ right))).val
termination_by data.length
decreasing_by
  all_goals
    have : data.length ≠ 0 := fun h => _h (Or.inl (List.length_eq_zero_iff.mp h))
    simp only [List.length_take, List.length_drop]
    omega

/-! ## `fetch_proof_material` -/

def readRequestedTile (tile : Tile) : TransportM Bytes := do
  let session ← get
  set { session with requests := tile.url :: session.requests }
  let response ← opener session.requests tile.url
  readTile response tile.url (tile.width * 32)

/-- The tile as the tree has it, or its start in the full tile when only that is there. -/
def readTileOrFull (tile : Tile) : TransportM Bytes :=
  tryCatch (readRequestedTile opener tile) fun e => do
    let fullWidth := 1 <<< tile.height
    if e ≠ .httpError 404 || tile.width = fullWidth then
      throw e
    let fullData ← readRequestedTile opener { tile with width := fullWidth }
    return fullData.take (tile.width * 32)

def fetchStoredHash (treeSize index : Nat) : TransportM Bytes := do
  let (tile, start, stop) ← tileForTree index treeSize
  let session ← get
  let data ← match session.tileCache.lookup tile.url with
    | some data => pure data
    | none => do
      let data ← readTileOrFull opener tile
      modify fun s => { s with tileCache := (tile.url, data) :: s.tileCache }
      pure data
  tileHash sha256 ((data.drop start).take (stop - start))

/-- The right fold over one group of stored hashes. -/
def foldGroup (hashes : List Bytes) : Except PyError Bytes :=
  match hashes.reverse with
  | [] => .error (.indexError "list index out of range")
  | last :: lefts =>
    .ok (lefts.foldl (fun subtreeHash leftHash => (sha256 (1 :: (leftHash ++ subtreeHash))).val)
      last)

def fetchProof (treeSize : Nat) (groups : List (List Nat)) : TransportM PyObject := do
  let proof ← groups.mapM fun group => do
    let hashes ← group.mapM (fetchStoredHash sha256 opener treeSize)
    let subtreeHash ← foldGroup sha256 hashes
    return PyObject.str (Base64.encode subtreeHash)
  return .tuple proof

structure ProofMaterial where
  inclusionProof : PyObject
  consistencyProof : PyObject

/-- The index groups of both proofs, after every check on the two tree heads. -/
def planProofs (lookup : SignedGoSumdbLookup) (priorTreeHead : Option SignedGoSumdbTreeHead) :
    Except PyError (List (List Nat) × List (List Nat)) := do
  let treeSize := lookup.treeHead.treeSize
  if treeSize < 1 || treeSize > goSumdbMaxTreeSize then
    throw (.valueError "Go checksum database tree size is malformed")
  if lookup.recordNumber ≥ treeSize then
    throw (.valueError "Go checksum database record number is outside the tree")
  if priorTreeHead.any fun prior => prior.treeSize < 1 || prior.treeSize > goSumdbMaxTreeSize then
    throw (.valueError "Go checksum database prior tree size is malformed")
  if priorTreeHead.any fun prior => prior.treeSize > treeSize then
    throw (.valueError "Go checksum database tree rollback is forbidden")
  let inclusionGroups ← recordProofIndexGroups 0 treeSize lookup.recordNumber []
  if inclusionGroups.length > 64 then
    throw (.valueError "Go checksum database inclusion proof exceeds the hash limit")
  let consistencyGroups ← match priorTreeHead with
    | some prior =>
      if prior.treeSize < treeSize then treeProofIndexGroups 0 treeSize prior.treeSize []
      else pure []
    | none => pure []
  if consistencyGroups.length > 64 then
    throw (.valueError "Go checksum database consistency proof exceeds the hash limit")
  return (inclusionGroups, consistencyGroups)

def fetchProofMaterial (lookup : SignedGoSumdbLookup)
    (priorTreeHead : Option SignedGoSumdbTreeHead) : TransportM ProofMaterial := do
  let (inclusionGroups, consistencyGroups) ← planProofs lookup priorTreeHead
  let inclusionProof ← fetchProof sha256 opener lookup.treeHead.treeSize inclusionGroups
  let consistencyProof ← fetchProof sha256 opener lookup.treeHead.treeSize consistencyGroups
  return { inclusionProof, consistencyProof }

end

end Agentrail.GoSumdbTransport
