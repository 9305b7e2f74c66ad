import Mathlib.Data.UInt
import Agentrail.Dependencies.GoSumdbTransport
import Agentrail.Dependencies.GoSumdbPlanner

/-!
# Tiles

A tile is named by its path (`Tile.url_injective`); the tile and the byte range
of a stored hash hold the complete subtree of that hash (`tileForTree_ok`), and
`tileHash` folds the bytes back into it (`tileHash_join`).
-/

namespace Agentrail.GoSumdbTransport

open Py GoSumdb Merkle

/-! ## Paths -/

theorem digitChar_isDigit (d : Nat) (h : d < 10) : (Nat.digitChar d).isDigit = true := by
  have : ∀ m : Fin 10, (Nat.digitChar m).isDigit = true := by decide +kernel
  exact this ⟨d, h⟩

/-- The number that the digits of a text spell after `acc`. -/
def digitsValue (acc : Nat) (t : Text) : Nat := Nat.ofDigitChars 10 (t.filter Char.isDigit) acc

theorem digitsValue_digit (acc d : Nat) (h : d < 10) (t : Text) :
    digitsValue acc (Nat.digitChar d :: t) = digitsValue (10 * acc + d) t := by
  unfold digitsValue
  rw [List.filter_cons_of_pos (digitChar_isDigit d h), Nat.ofDigitChars_cons_digitChar_of_lt_ten h]

theorem digitsValue_pad3 (acc n : Nat) (h : n < 1000) (t : Text) :
    digitsValue acc (pad3 n ++ t) = digitsValue (1000 * acc + n) t := by
  show digitsValue acc (_ :: _ :: _ :: t) = _
  rw [digitsValue_digit _ _ (by omega), digitsValue_digit _ _ (by omega),
    digitsValue_digit _ _ (by omega)]
  congr 1
  omega

theorem digitsValue_encodeNumber (number : Nat) : ∀ encoded,
    digitsValue 0 (encodeNumber number encoded) = digitsValue (number / 1000) encoded := by
  induction number using Nat.strong_induction_on with
  | _ n ih =>
    intro encoded
    rw [encodeNumber]
    split
    · rw [Nat.div_eq_of_lt (by omega)]
    · have hx : ∀ acc t, digitsValue acc ('x' :: t) = digitsValue acc t := fun _ _ => rfl
      have hslash : ∀ acc t, digitsValue acc ('/' :: t) = digitsValue acc t := fun _ _ => rfl
      rw [ih (n / 1000) (by omega), hx, digitsValue_pad3 _ _ (by omega), hslash]
      congr 1
      omega

theorem mem_encodeNumber (number : Nat) : ∀ encoded c, c ∈ encodeNumber number encoded →
    c ∈ encoded ∨ c.isDigit ∨ c = 'x' ∨ c = '/' := by
  induction number using Nat.strong_induction_on with
  | _ n ih =>
    intro encoded c hc
    rw [encodeNumber] at hc
    split at hc
    · exact Or.inl hc
    · rcases ih (n / 1000) (by omega) _ c hc with h | h
      · simp only [pad3, List.mem_cons, List.mem_append, List.not_mem_nil, or_false] at h
        rcases h with rfl | (rfl | rfl | rfl) | rfl | h
        · exact Or.inr (Or.inr (Or.inl rfl))
        · exact Or.inr (Or.inl (digitChar_isDigit _ (by omega)))
        · exact Or.inr (Or.inl (digitChar_isDigit _ (by omega)))
        · exact Or.inr (Or.inl (digitChar_isDigit _ (by omega)))
        · exact Or.inr (Or.inr (Or.inr rfl))
        · exact Or.inl h
      · exact Or.inr h

/-- The digits of a tile's number in its path. -/
def numberText (number : Nat) : Text := encodeNumber number (pad3 (number % 1000))

theorem numberText_injective : Function.Injective numberText := by
  have hvalue : ∀ n, digitsValue 0 (numberText n) = n := fun n => by
    have h := digitsValue_pad3 (n / 1000) (n % 1000) (by omega) []
    rw [List.append_nil] at h
    unfold numberText
    rw [digitsValue_encodeNumber, h]
    show 1000 * (n / 1000) + n % 1000 = n
    omega
  intro m n h
  rw [← hvalue m, h, hvalue n]

theorem dot_not_mem_numberText (number : Nat) : '.' ∉ numberText number := by
  intro h
  rcases mem_encodeNumber _ _ _ h with h | h | h | h
  · simp only [pad3, List.mem_cons, List.not_mem_nil, or_false] at h
    have hdot : ('.').isDigit = false := rfl
    rcases h with h | h | h <;>
      rw [h, digitChar_isDigit _ (by omega)] at hdot <;> exact absurd hdot (by simp)
  all_goals exact absurd h (by decide)

theorem decimalText_injective : Function.Injective decimalText := by
  intro m n h
  have hm : Nat.ofDigitChars 10 (decimalText m) 0 = m := Nat.ofDigitChars_ten_toDigits
  rw [← hm, h]
  exact Nat.ofDigitChars_ten_toDigits

theorem slash_not_mem_decimalText (n : Nat) : '/' ∉ decimalText n := fun h =>
  absurd (Nat.isDigit_of_mem_toDigits (by omega) (by omega) h) (by decide)

/-- A text is cut at the first separator in one way. -/
theorem split_at_first (c : Char) (r s : Text) : ∀ a b : Text, c ∉ a → c ∉ b →
    a ++ c :: r = b ++ c :: s → a = b ∧ r = s := by
  intro a
  induction a with
  | nil =>
    intro b _ hb h
    cases b with
    | nil => exact ⟨rfl, (List.cons.inj h).2⟩
    | cons d b => exact absurd (by rw [(List.cons.inj h).1]; simp) hb
  | cons d a ih =>
    intro b ha hb h
    cases b with
    | nil => exact absurd (by rw [← (List.cons.inj h).1]; simp) ha
    | cons e b =>
      obtain ⟨rfl, htail⟩ := List.cons.inj h
      obtain ⟨rfl, rfl⟩ := ih b (fun hc => ha (List.mem_cons_of_mem _ hc))
        (fun hc => hb (List.mem_cons_of_mem _ hc)) htail
      exact ⟨rfl, rfl⟩

/-- A path names one tile. -/
theorem Tile.path_injective : Function.Injective Tile.path := by
  rintro ⟨h1, l1, n1, w1⟩ ⟨h2, l2, n2, w2⟩ h
  unfold Tile.path at h
  simp only [List.append_assoc] at h
  obtain ⟨hh, hlevel⟩ := split_at_first '/' _ _ _ _ (slash_not_mem_decimalText h1)
    (slash_not_mem_decimalText h2) (List.append_cancel_left h)
  obtain ⟨hl, hnumber⟩ := split_at_first '/' _ _ _ _ (slash_not_mem_decimalText l1)
    (slash_not_mem_decimalText l2) hlevel
  clear h hlevel
  obtain rfl := decimalText_injective hh
  obtain rfl := decimalText_injective hl
  change numberText n1 ++ _ = numberText n2 ++ _ at hnumber
  have hd1 := dot_not_mem_numberText n1
  have hd2 := dot_not_mem_numberText n2
  have hdot : ∀ w, ".p/".toList ++ decimalText w = '.' :: ("p/".toList ++ decimalText w) :=
    fun _ => rfl
  by_cases hw1 : w1 = 1 <<< h1 <;> by_cases hw2 : w2 = 1 <<< h1
  · rw [if_neg (by simpa using hw1), if_neg (by simpa using hw2), List.append_nil,
      List.append_nil] at hnumber
    rw [numberText_injective hnumber, hw1, hw2]
  · rw [if_neg (by simpa using hw1), if_pos hw2, List.append_nil, hdot] at hnumber
    rw [hnumber] at hd1
    exact absurd (by simp) hd1
  · rw [if_pos hw1, if_neg (by simpa using hw2), List.append_nil, hdot] at hnumber
    rw [← hnumber] at hd2
    exact absurd (by simp) hd2
  · rw [if_pos hw1, if_pos hw2, hdot, hdot] at hnumber
    obtain ⟨hn, hwidth⟩ := split_at_first '.' _ _ _ _ hd1 hd2 hnumber
    rw [numberText_injective hn, decimalText_injective (List.append_cancel_left hwidth)]

theorem Tile.url_injective : Function.Injective Tile.url := by
  intro s t h
  unfold Tile.url at h
  exact Tile.path_injective (List.cons.inj (List.append_cancel_left h)).2

/-! ## Coordinates -/

/-- The tile lies in a tree of `size` records. -/
structure TileIn (size : Nat) (tile : Tile) : Prop where
  height : tile.height = goSumdbTileHeight
  pos : 1 ≤ tile.width
  le : tile.width ≤ 256
  inTree : (tile.number * 256 + tile.width) * 2 ^ (8 * tile.level) ≤ size

/-- The subtree `(level, number)` is made of `2 ^ r` hashes of the tile, from the `first`. -/
structure TileHolds (tile : Tile) (level number first r : Nat) : Prop where
  level_eq : level = 8 * tile.level + r
  number_eq : number * 2 ^ r = tile.number * 256 + first
  le : first + 2 ^ r ≤ tile.width

/-- Cutting `number * 2 ^ r` into whole tiles of 256 and a rest that `2 ^ r` divides. -/
theorem tile_cut (number r : Nat) (hr : r ≤ 8) :
    let tileNumber := number * 2 ^ r / 256
    let rest := number - tileNumber * 256 / 2 ^ r
    number * 2 ^ r = tileNumber * 256 + rest * 2 ^ r ∧ (rest + 1) * 2 ^ r ≤ 256 := by
  intro tileNumber rest
  have hc : 2 ^ (8 - r) * 2 ^ r = 256 := by
    rw [← pow_add, Nat.sub_add_cancel hr]
    rfl
  have hle : tileNumber * 256 ≤ number * 2 ^ r := Nat.div_mul_le_self _ _
  have hlt : number * 2 ^ r < tileNumber * 256 + 256 := Nat.lt_div_mul_add (by omega)
  have hM : tileNumber * 256 / 2 ^ r * 2 ^ r = tileNumber * 256 :=
    Nat.div_mul_cancel (Dvd.dvd.mul_left ⟨2 ^ (8 - r), by rw [Nat.mul_comm, hc]⟩ _)
  have hrest : rest * 2 ^ r = number * 2 ^ r - tileNumber * 256 := by
    show (number - tileNumber * 256 / 2 ^ r) * 2 ^ r = _
    rw [Nat.sub_mul, hM]
  have hlt' : rest < 2 ^ (8 - r) :=
    Nat.lt_of_mul_lt_mul_right (show rest * 2 ^ r < 2 ^ (8 - r) * 2 ^ r by omega)
  refine ⟨by omega, ?_⟩
  calc (rest + 1) * 2 ^ r ≤ 2 ^ (8 - r) * 2 ^ r := Nat.mul_le_mul_right _ hlt'
    _ = 256 := hc

/-- The coordinates of a stored hash, in the tile as the tree of `size` records has it. -/
theorem tileForTree_ok (index size level number : Nat)
    (hsplit : splitStoredHashIndex index = (level, number))
    (hsize : (number + 1) * 2 ^ level ≤ size) :
    ∃ tile first r, tileForTree index size = .ok (tile, first * 32, (first + 2 ^ r) * 32) ∧
      TileIn size tile ∧ TileHolds tile level number first r := by
  obtain ⟨q, r, hr, rfl⟩ : ∃ q r, r < 8 ∧ level = 8 * q + r :=
    ⟨level / 8, level % 8, Nat.mod_lt _ (by omega), by omega⟩
  have hq : (8 * q + r) / 8 = q := by omega
  have hlr : 8 * q + r - 8 * q = r := by omega
  obtain ⟨hcut, hrest⟩ := tile_cut number r (by omega)
  have hmax : (number + 1) * 2 ^ r ≤ size / 2 ^ (8 * q) := by
    rw [Nat.le_div_iff_mul_le (Nat.two_pow_pos _), Nat.mul_assoc, ← pow_add, Nat.add_comm r]
    exact hsize
  have hback : ∀ k, k ≤ size / 2 ^ (8 * q) → k * 2 ^ (8 * q) ≤ size := fun k hk =>
    (Nat.le_div_iff_mul_le (Nat.two_pow_pos _)).mp hk
  have hdist : (number + 1) * 2 ^ r = number * 2 ^ r + 2 ^ r := by ring
  unfold tileForTree tileForIndex
  rw [hsplit]
  simp only [goSumdbTileHeight, Nat.shiftLeft_eq, Nat.shiftRight_eq_div_pow, hq, hlr,
    Nat.reducePow, Nat.one_mul, Nat.mul_comm q 8]
  generalize hN : number * 2 ^ r / 256 = N at hcut hrest ⊢
  generalize hp : number - N * 256 / 2 ^ r = p at hcut hrest ⊢
  rw [Nat.add_mul, Nat.one_mul] at hrest ⊢
  have hp0 : 0 < 2 ^ r := Nat.two_pow_pos r
  split
  · rw [if_neg (by omega)]
    exact ⟨_, p * 2 ^ r, r, rfl, ⟨rfl, by simp only; omega, by simp only; omega,
      hback _ (by simp only; omega)⟩, ⟨rfl, hcut, by simp only; omega⟩⟩
  · exact ⟨_, p * 2 ^ r, r, rfl, ⟨rfl, by simp only; omega, by simp only; omega,
      hback _ (by simp only; omega)⟩, ⟨rfl, hcut, by simp only; omega⟩⟩

/-! ## Contents -/

/-- Digests one after the other. -/
def joinHashes (hashes : List Bytes32) : Bytes := hashes.flatMap (·.val)

theorem joinHashes_append (as bs : List Bytes32) :
    joinHashes (as ++ bs) = joinHashes as ++ joinHashes bs := List.flatMap_append

theorem length_joinHashes (hashes : List Bytes32) :
    (joinHashes hashes).length = hashes.length * 32 := by
  induction hashes with
  | nil => rfl
  | cons h hashes ih =>
    show (h.val ++ joinHashes hashes).length = (hashes.length + 1) * 32
    rw [List.length_append, ih, h.property]
    omega

/-- A byte range of whole digests. -/
theorem slice_joinHashes (hashes : List Bytes32) (first count : Nat)
    (h : first + count ≤ hashes.length) :
    ((joinHashes hashes).drop (first * 32)).take ((first + count) * 32 - first * 32) =
      joinHashes ((hashes.drop first).take count) := by
  have hsplit : hashes = hashes.take first ++ ((hashes.drop first).take count ++
      (hashes.drop first).drop count) := by
    rw [List.take_append_drop, List.take_append_drop]
  have hl1 : (joinHashes (hashes.take first)).length = first * 32 := by
    rw [length_joinHashes, List.length_take, Nat.min_eq_left (by omega)]
  have hl2 : (joinHashes ((hashes.drop first).take count)).length =
      (first + count) * 32 - first * 32 := by
    rw [length_joinHashes, List.length_take, List.length_drop, Nat.min_eq_left (by omega)]
    omega
  conv_lhs => rw [hsplit]
  rw [joinHashes_append, joinHashes_append, List.drop_left' hl1, List.take_left' hl2]

section
variable (sha256 : Bytes → Bytes32) (log : List Bytes32)

/-- The node hash and the empty hash of the program. -/
abbrev nodeSha : Bytes32 → Bytes32 → Bytes32 := (HashSuite.ofSha256 sha256).nodeHash
abbrev emptySha : Bytes32 := (HashSuite.ofSha256 sha256).emptyHash

/-- The digests of consecutive complete subtrees. -/
def levelHashes (level first count : Nat) : List Bytes32 :=
  (List.range' first count).map (subtreeHash (nodeSha sha256) (emptySha sha256) log level)

/-- The bytes of a tile of the log. -/
def tileBytes (tile : Tile) : Bytes :=
  joinHashes (levelHashes sha256 log (8 * tile.level) (tile.number * 256) tile.width)

theorem length_tileBytes (tile : Tile) : (tileBytes sha256 log tile).length = tile.width * 32 := by
  unfold tileBytes levelHashes
  rw [length_joinHashes, List.length_map, List.length_range']

/-- A tile starts with every narrower tile of its number. -/
theorem take_tileBytes (tile : Tile) (width : Nat) (h : tile.width ≤ width) :
    (tileBytes sha256 log { tile with width }).take (tile.width * 32) =
      tileBytes sha256 log tile := by
  have hs := slice_joinHashes
    (levelHashes sha256 log (8 * tile.level) (tile.number * 256) width) 0 tile.width
    (by unfold levelHashes; rw [List.length_map, List.length_range']; omega)
  rw [Nat.zero_mul, List.drop_zero, Nat.zero_add, Nat.sub_zero, List.drop_zero] at hs
  unfold tileBytes
  rw [hs]
  congr 1
  unfold levelHashes
  rw [← List.map_take, List.take_range'_of_length_ge h]

theorem tileHash_digest (h : Bytes32) : tileHash sha256 h.val = .ok h.val := by
  rw [tileHash, dif_pos h.property]

/-- A slice of `2 ^ r` digests folds to the subtree over them. -/
theorem tileHash_join (r : Nat) : ∀ level number, (number + 1) * 2 ^ (level + r) ≤ log.length →
    tileHash sha256 (joinHashes (levelHashes sha256 log level (number * 2 ^ r) (2 ^ r))) =
      .ok (subtreeHash (nodeSha sha256) (emptySha sha256) log (level + r) number).val := by
  induction r with
  | zero =>
    intro level number _
    have hj : joinHashes (levelHashes sha256 log level (number * 2 ^ 0) (2 ^ 0)) =
        (subtreeHash (nodeSha sha256) (emptySha sha256) log level number).val := by
      simp [joinHashes, levelHashes]
    rw [hj, tileHash_digest, Nat.add_zero]
  | succ r ih =>
    intro level number h
    have hpow : 2 ^ (r + 1) = 2 ^ r + 2 ^ r := by ring
    have hp : 0 < 2 ^ r := Nat.two_pow_pos r
    have h0 : number * 2 ^ (r + 1) = 2 * number * 2 ^ r := by ring
    have h1 : 2 * number * 2 ^ r + 2 ^ r = (2 * number + 1) * 2 ^ r := by ring
    have hjoin : joinHashes (levelHashes sha256 log level (number * 2 ^ (r + 1)) (2 ^ (r + 1))) =
        joinHashes (levelHashes sha256 log level (2 * number * 2 ^ r) (2 ^ r)) ++
          joinHashes (levelHashes sha256 log level ((2 * number + 1) * 2 ^ r) (2 ^ r)) := by
      unfold levelHashes
      rw [← joinHashes_append, ← List.map_append, h0, ← h1, hpow, List.range'_append_1]
    have hlen : ∀ first, (joinHashes (levelHashes sha256 log level first (2 ^ r))).length =
        2 ^ r * 32 := fun first => by
      unfold levelHashes
      rw [length_joinHashes, List.length_map, List.length_range']
    have hmiddle : (2 ^ r * 32 + 2 ^ r * 32) / 2 = 2 ^ r * 32 := by omega
    have hle : (2 * number + 1 + 1) * 2 ^ (level + r) ≤ log.length := by
      rw [show (2 * number + 1 + 1) * 2 ^ (level + r) = (number + 1) * 2 ^ (level + (r + 1)) by
        ring]
      exact h
    have hle' : (2 * number + 1) * 2 ^ (level + r) ≤ log.length := by
      have : (2 * number + 1) * 2 ^ (level + r) ≤ (2 * number + 1 + 1) * 2 ^ (level + r) :=
        Nat.mul_le_mul_right _ (by omega)
      omega
    rw [hjoin, tileHash, dif_neg (by rw [List.length_append, hlen, hlen]; omega),
      dif_neg (by
        intro hbad
        rcases hbad with hbad | hbad
        · have := congrArg List.length hbad
          rw [List.length_append, hlen, hlen, List.length_nil] at this
          omega
        · rw [List.length_append, hlen, hlen] at hbad
          omega)]
    simp only [List.length_append, hlen, hmiddle]
    rw [List.take_left' (hlen _), List.drop_left' (hlen _), ih level (2 * number) hle',
      ih level (2 * number + 1) hle]
    show Except.ok _ = Except.ok _
    rw [show level + (r + 1) = level + r + 1 by omega,
      subtreeHash_succ _ _ log (level + r) number (by
        rw [show level + r + 1 = level + (r + 1) by omega]; exact h)]
    rfl

/-- The bytes that `fetchStoredHash` cuts out of a tile fold to the stored hash. -/
theorem tileHash_slice (tile : Tile) (level number first r : Nat) (hin : TileIn log.length tile)
    (hold : TileHolds tile level number first r) :
    tileHash sha256 (((tileBytes sha256 log tile).drop (first * 32)).take
      ((first + 2 ^ r) * 32 - first * 32)) =
      .ok (subtreeHash (nodeSha sha256) (emptySha sha256) log level number).val := by
  obtain ⟨-, -, -, htree⟩ := hin
  obtain ⟨rfl, hnumber, hle⟩ := hold
  have hend : (number + 1) * 2 ^ (8 * tile.level + r) ≤ log.length := by
    calc (number + 1) * 2 ^ (8 * tile.level + r)
        = (number * 2 ^ r + 2 ^ r) * 2 ^ (8 * tile.level) := by ring
      _ ≤ (tile.number * 256 + tile.width) * 2 ^ (8 * tile.level) :=
        Nat.mul_le_mul_right _ (by omega)
      _ ≤ log.length := htree
  have hcut : ((levelHashes sha256 log (8 * tile.level) (tile.number * 256) tile.width).drop
      first).take (2 ^ r) =
      levelHashes sha256 log (8 * tile.level) (number * 2 ^ r) (2 ^ r) := by
    unfold levelHashes
    rw [← List.map_drop, ← List.map_take, List.drop_range', Nat.mul_one,
      List.take_range'_of_length_ge (by omega), hnumber]
  have hlen : (levelHashes sha256 log (8 * tile.level) (tile.number * 256) tile.width).length =
      tile.width := by
    unfold levelHashes
    rw [List.length_map, List.length_range']
  unfold tileBytes
  rw [slice_joinHashes _ _ _ (by rw [hlen]; exact hle), hcut]
  exact tileHash_join sha256 log r (8 * tile.level) number hend

/-! ## The reads of a plan -/

/-- A group of these groups lists the index. -/
def Lists (groups : List (List Nat)) (index : Nat) : Prop := ∃ group ∈ groups, index ∈ group

/-- A record proof or a tree proof for `size` records reads the index. -/
inductive PlannedRead (size index : Nat) : Prop
  | record (recordNumber : Nat) (groups : List (List Nat)) (hrecord : recordNumber < size)
      (hplan : recordProofIndexGroups 0 size recordNumber [] = .ok groups)
      (hlists : Lists groups index)
  | tree (oldSize : Nat) (groups : List (List Nat)) (hpos : 1 ≤ oldSize) (hold : oldSize ≤ size)
      (hplan : treeProofIndexGroups 0 size oldSize [] = .ok groups)
      (hlists : Lists groups index)

theorem lists_inTree {δ : Type} (node : δ → δ → δ) (empty : δ) (D : List δ) (size index : Nat)
    (groups : List (List Nat)) (hashes : List δ)
    (h : List.Forall₂ (GroupHash node empty D size) groups hashes) (hlists : Lists groups index) :
    InTree size index := by
  obtain ⟨group, hgroup, hindex⟩ := hlists
  induction h with
  | nil => cases hgroup
  | cons hhash _ ih =>
    rcases List.mem_cons.mp hgroup with rfl | hgroup
    · exact hhash.inTree index hindex
    · exact ih hgroup

/-- Plans read only subtrees that the tree completes, whatever its hashes are. -/
theorem PlannedRead.inTree (size index : Nat) (h : PlannedRead size index) :
    InTree size index := by
  have hlength : size ≤ (List.replicate size ()).length := Nat.le_of_eq List.length_replicate.symm
  cases h with
  | record recordNumber groups hrecord hplan hlists =>
    obtain ⟨planned, hplanned, hhashes⟩ := recordProofIndexGroups_hashes (fun _ _ => ())
      () _ size 0 size size recordNumber [] (by omega) (aligned_zero size) (by omega) hrecord
      (Nat.le_refl _) hlength
    rw [hplan] at hplanned
    cases hplanned
    exact lists_inTree _ _ _ size index _ _ hhashes hlists
  | tree oldSize groups hpos hold hplan hlists =>
    obtain ⟨planned, hplanned, hhashes⟩ := treeProofIndexGroups_hashes (fun _ _ => ()) ()
      _ size 0 size size oldSize [] (by omega) (aligned_zero size) (by omega) hold
      (Nat.le_refl _) hlength
    rw [hplan] at hplanned
    cases hplanned
    exact lists_inTree _ _ _ size index _ _ hhashes hlists

theorem TileIn.mono {size size' : Nat} {tile : Tile} (h : TileIn size tile) (hle : size ≤ size') :
    TileIn size' tile := ⟨h.height, h.pos, h.le, h.inTree.trans hle⟩

/-- **Tile addressing is right for every tree.**  Every index that a proof for a tree of `size`
records reads has a tile, a byte range inside it, and the range of the log's tile hashes to the
stored hash. -/
theorem tileForTree_planned (size index : Nat) (hsize : size ≤ log.length)
    (hplan : PlannedRead size index) :
    ∃ tile start stop, tileForTree index size = .ok (tile, start, stop) ∧
      1 ≤ tile.width ∧ tile.width ≤ 1 <<< tile.height ∧
      (tileBytes sha256 log tile).length = tile.width * 32 ∧
      start < stop ∧ stop ≤ tile.width * 32 ∧
      tileHash sha256 (((tileBytes sha256 log tile).drop start).take (stop - start)) =
        .ok (hashAt (nodeSha sha256) (emptySha sha256) log index).val := by
  obtain ⟨tile, first, r, htile, hin, hold⟩ := tileForTree_ok index size _ _
    (Eq.refl (splitStoredHashIndex index)) (hplan.inTree size index)
  have hr : 0 < 2 ^ r := Nat.two_pow_pos r
  have hstop : (first + 2 ^ r) * 32 ≤ tile.width * 32 := Nat.mul_le_mul_right 32 hold.le
  refine ⟨tile, first * 32, (first + 2 ^ r) * 32, htile, hin.pos, ?_, length_tileBytes sha256 log _,
    by omega, hstop, tileHash_slice sha256 log tile _ _ first r (hin.mono hsize) hold⟩
  rw [hin.height]
  exact hin.le

end

/-- Two records, the first proved: one hash is read, the second of a partial tile of two. -/
theorem tileForTree_planned_two :
    let sha256 : Bytes → Bytes32 := fun b => ⟨List.replicate 32 b.sum, List.length_replicate⟩
    let log := [⟨List.replicate 32 1, rfl⟩, ⟨List.replicate 32 2, rfl⟩]
    ∃ tile start stop, tileForTree (storedHashIndex 0 1) 2 = .ok (tile, start, stop) ∧
      1 ≤ tile.width ∧ tile.width ≤ 1 <<< tile.height ∧
      (tileBytes sha256 log tile).length = tile.width * 32 ∧
      start < stop ∧ stop ≤ tile.width * 32 ∧
      tileHash sha256 (((tileBytes sha256 log tile).drop start).take (stop - start)) =
        .ok (hashAt (nodeSha sha256) (emptySha sha256) log (storedHashIndex 0 1)).val := by
  intro sha256 log
  have hgroup : subtreeIndexGroup 1 2 = .ok [storedHashIndex 0 1] := by
    unfold subtreeIndexGroup
    rw [subtreeIndexes_step 1 2 0 [] (by decide) (by decide) (by decide), subtreeIndexes]
    rfl
  have hplan : recordProofIndexGroups 0 2 0 [] = .ok ([] ++ [[storedHashIndex 0 1]]) :=
    recordProofIndexGroups_left 0 2 0 [] [] _ (by decide) (by decide)
      (by rw [recordProofIndexGroups]; exact if_pos (by decide)) hgroup
  exact tileForTree_planned sha256 log 2 _ (Nat.le_refl 2)
    (.record 0 _ (by decide) hplan ⟨_, List.mem_singleton_self _, List.mem_singleton_self _⟩)

end Agentrail.GoSumdbTransport
