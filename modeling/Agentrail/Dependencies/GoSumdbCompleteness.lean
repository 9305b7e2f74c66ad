import Mathlib.Data.UInt
import Agentrail.Dependencies.GoSumdbTiles
import Agentrail.Dependencies.GoSumdbTimeline

/-!
# Proof material from an honest tile server

Against a server that serves the tiles of a log (`HonestServer`),
`fetchProofMaterial` computes exactly the audit path and the consistency path
of the signed tree, and the verifier accepts both
(`fetchProofMaterial_complete`).  `Yields` carries the tile cache through the
session; `logServer` is an honest server for every log.
-/

namespace Agentrail.GoSumdbTransport

open Py GoSumdb Merkle

/-! ## Reading one response -/

/-- The response carries `data` and says so. -/
structure Serves (response : Response) (url : Text) (data : Bytes) : Prop where
  status : response.status = none ∨ response.status = some 200
  finalUrl : response.finalUrl = some url
  contentLength : response.contentLength = none ∨
    response.contentLength = some (some (data.length : Int))
  /-- a read returns some bytes while there are any -/
  read : ∀ offset amount, offset ≤ data.length → 0 < amount →
    ∃ chunk, response.read offset amount = some chunk ∧ chunk.length ≤ amount ∧
      chunk <+: data.drop offset ∧ (chunk = [] → offset = data.length)

theorem readChunks_serves (response : Response) (url : Text) (data : Bytes)
    (h : Serves response url data) (n : Nat) : ∀ body : Bytes, data.length - body.length = n →
    body <+: data → readChunks response data.length body = .ok data := by
  induction n using Nat.strong_induction_on with
  | _ n ih =>
    intro body hn hbody
    have hle := hbody.length_le
    obtain ⟨chunk, hread, -, hchunk, hend⟩ := h.read body.length
      (min readChunkBytes (data.length + 1 - body.length)) hle
      (Nat.lt_min.mpr ⟨by unfold readChunkBytes; omega, by omega⟩)
    rw [readChunks]
    simp only [hread]
    cases chunk with
    | nil =>
      have hlen := hend rfl
      simp only [ne_eq, hlen, not_true_eq_false, if_false]
      rw [hbody.eq_of_length hlen]
    | cons b chunk =>
      have happ : body ++ b :: chunk <+: data := by
        obtain ⟨rest, rfl⟩ := hbody
        rw [List.drop_left] at hchunk
        exact (List.prefix_append_right_inj body).mpr hchunk
      have hlen := happ.length_le
      have hgrow : (body ++ b :: chunk).length = body.length + (chunk.length + 1) := by
        rw [List.length_append, List.length_cons]
      simp only [show ¬ (body ++ b :: chunk).length > data.length by omega, if_false]
      exact ih (data.length - (body ++ b :: chunk).length) (by omega) _ rfl happ

theorem readTile_serves (response : Response) (url : Text) (data : Bytes)
    (h : Serves response url data) (h1 : 32 ≤ data.length) (h2 : data.length ≤ goSumdbTileMaxBytes) :
    readTile response url data.length = .ok data := by
  have hstatus : response.status.any (· ≠ 200) = false := by
    rcases h.status with hs | hs <;> rw [hs] <;> rfl
  have hbounds : (decide (data.length < 32) || decide (data.length > goSumdbTileMaxBytes)) =
      false := by
    simp only [Bool.or_eq_false_iff, decide_eq_false_iff_not]
    omega
  have hchunks := readChunks_serves response url data h data.length [] (Nat.sub_zero _)
    List.nil_prefix
  unfold readTile
  rw [hstatus, h.finalUrl, hbounds]
  simp only [Bool.false_eq_true, ne_eq, not_true_eq_false, if_false]
  rcases h.contentLength with hl | hl
  · rw [hl]
    exact hchunks
  · rw [hl]
    simpa using hchunks

/-! ## Sessions -/

section
variable (sha256 : Bytes → Bytes32) (log : List Bytes32)

/-- A server of the tiles of `log`: each tile is served, or is a partial one that is gone
because the full tile is there. -/
def HonestServer (opener : Opener) : Prop :=
  ∀ requests tile, TileIn log.length tile →
    (∃ response, opener requests tile.url = .ok response ∧
      Serves response tile.url (tileBytes sha256 log tile)) ∨
    (opener requests tile.url = .error (.httpError 404) ∧ tile.width ≠ 256 ∧
      TileIn log.length { tile with width := 256 })

/-- What is cached for the URL of a tile is the tile. -/
def CacheOk (session : Session) : Prop :=
  ∀ tile data, TileIn log.length tile → session.tileCache.lookup tile.url = some data →
    data = tileBytes sha256 log tile

/-- From every good session the computation returns `a` and leaves a good session. -/
def Yields {α : Type} (m : TransportM α) (a : α) : Prop :=
  ∀ session, CacheOk sha256 log session →
    ∃ session', m.run session = (.ok a, session') ∧ CacheOk sha256 log session'

variable {sha256 log}

theorem Yields.pure {α : Type} (a : α) : Yields sha256 log (Pure.pure a) a :=
  fun session h => ⟨session, rfl, h⟩

theorem Yields.ofExcept {α : Type} (x : Except PyError α) (a : α) (hx : x = .ok a) :
    Yields sha256 log (liftM x : TransportM α) a := by
  subst hx
  exact fun session h => ⟨session, rfl, h⟩

theorem run_bind {α β : Type} (m : TransportM α) (f : α → TransportM β) (session : Session) :
    (m >>= f).run session = match m.run session with
      | (.ok a, s) => (f a).run s
      | (.error e, s) => (.error e, s) := by
  rw [ExceptT.run_bind]
  show StateT.run (m.run >>= _) session = _
  rw [StateT.run_bind]
  rcases hm : m.run session with ⟨x, s⟩
  have hm' : StateT.run m.run session = (x, s) := hm
  rw [hm']
  cases x <;> rfl

theorem run_tryCatch {α : Type} (m : TransportM α) (f : PyError → TransportM α)
    (session : Session) :
    (tryCatch m f).run session = match m.run session with
      | (.ok a, s) => (.ok a, s)
      | (.error e, s) => (f e).run s := by
  have hrun : (tryCatch m f).run session = StateT.run (ExceptT.tryCatch m f).run session := rfl
  unfold ExceptT.tryCatch at hrun
  rw [hrun, ExceptT.run_mk, StateT.run_bind]
  rcases hm : m.run session with ⟨x, s⟩
  have hm' : StateT.run m session = (x, s) := hm
  rw [hm']
  cases x <;> rfl

theorem Yields.bind {α β : Type} (m : TransportM α) (f : α → TransportM β) (a : α) (b : β)
    (hm : Yields sha256 log m a) (hf : Yields sha256 log (f a) b) :
    Yields sha256 log (m >>= f) b := by
  intro session h
  obtain ⟨session1, h1, hc1⟩ := hm session h
  obtain ⟨session2, h2, hc2⟩ := hf session1 hc1
  refine ⟨session2, ?_, hc2⟩
  rw [run_bind, h1]
  exact h2

theorem Yields.mapM {α β : Type} (f : α → TransportM β) (g : α → β) (l : List α)
    (h : ∀ a ∈ l, Yields sha256 log (f a) (g a)) : Yields sha256 log (l.mapM f) (l.map g) := by
  induction l with
  | nil => exact Yields.pure []
  | cons a l ih =>
    rw [List.mapM_cons]
    exact Yields.bind _ _ (g a) _ (h a List.mem_cons_self)
      (Yields.bind _ _ (l.map g) _ (ih fun b hb => h b (List.mem_cons_of_mem a hb))
        (Yields.pure _))

/-! ## One tile -/

variable {opener : Opener}

theorem readRequestedTile_run (tile : Tile) (session : Session) :
    (readRequestedTile opener tile).run session =
      (opener session.requests tile.url >>= fun response =>
        readTile response tile.url (tile.width * 32),
      { session with requests := tile.url :: session.requests }) := by
  unfold readRequestedTile
  rw [run_bind]
  show ((set { session with requests := tile.url :: session.requests } : TransportM PUnit) >>=
    fun _ => _).run session = _
  rw [run_bind]
  show ((liftM (opener session.requests tile.url) : TransportM Response) >>= _).run _ = _
  rw [run_bind]
  cases opener session.requests tile.url <;> rfl

theorem readRequestedTile_serves (tile : Tile) (session : Session) (response : Response)
    (hin : TileIn log.length tile) (hopen : opener session.requests tile.url = .ok response)
    (hserves : Serves response tile.url (tileBytes sha256 log tile)) :
    (readRequestedTile opener tile).run session =
      (.ok (tileBytes sha256 log tile),
        { session with requests := tile.url :: session.requests }) := by
  have hlen := length_tileBytes sha256 log tile
  have h := readTile_serves response tile.url _ hserves (by rw [hlen]; have := hin.pos; omega)
    (by rw [hlen]; have := hin.le; show _ ≤ 256 * 32; omega)
  rw [hlen] at h
  rw [readRequestedTile_run, hopen]
  show (readTile response tile.url (tile.width * 32), _) = _
  rw [h]

theorem readTileOrFull_run (tile : Tile) (session : Session) :
    (readTileOrFull opener tile).run session =
      match (readRequestedTile opener tile).run session with
      | (.ok data, s) => (.ok data, s)
      | (.error e, s) =>
        if e ≠ .httpError 404 || tile.width = 1 <<< tile.height then (.error e, s)
        else match (readRequestedTile opener
            { tile with width := 1 <<< tile.height }).run s with
          | (.ok fullData, s) => (.ok (fullData.take (tile.width * 32)), s)
          | (.error e, s) => (.error e, s) := by
  unfold readTileOrFull
  rw [run_tryCatch]
  rcases (readRequestedTile opener tile).run session with ⟨e | data, s⟩
  · dsimp only
    split
    · rfl
    · show (readRequestedTile opener { tile with width := 1 <<< tile.height } >>= _).run s = _
      rw [run_bind]
      rcases (readRequestedTile opener { tile with width := 1 <<< tile.height }).run s with
        ⟨_ | _, _⟩ <;> rfl
  · rfl

/-- A tile of the log is read, directly or out of the full tile. -/
theorem readTileOrFull_honest (hserver : HonestServer sha256 log opener) (tile : Tile)
    (hin : TileIn log.length tile) (session : Session) :
    ∃ session', (readTileOrFull opener tile).run session =
        (.ok (tileBytes sha256 log tile), session') ∧
      session'.tileCache = session.tileCache := by
  have hfull : 1 <<< tile.height = 256 := by rw [hin.height]; rfl
  rw [readTileOrFull_run, hfull]
  rcases hserver session.requests tile hin with ⟨response, hopen, hserves⟩ | ⟨hopen, hne, hin'⟩
  · rw [readRequestedTile_serves tile session response hin hopen hserves]
    exact ⟨_, rfl, rfl⟩
  · rw [readRequestedTile_run, hopen]
    simp only [error_bind, ne_eq, not_true_eq_false, hne, decide_false, Bool.or_self,
      Bool.false_eq_true, if_false]
    rcases hserver (tile.url :: session.requests) _ hin' with ⟨response, hopen', hserves⟩ | h
    · rw [readRequestedTile_serves _ _ response hin' hopen' hserves]
      dsimp only
      rw [take_tileBytes sha256 log tile 256 hin.le]
      exact ⟨_, rfl, rfl⟩
    · exact absurd rfl h.2.1

theorem fetchStoredHash_run (size index start stop : Nat) (tile : Tile) (session : Session)
    (htile : tileForTree index size = .ok (tile, start, stop)) :
    (fetchStoredHash sha256 opener size index).run session =
      match session.tileCache.lookup tile.url with
      | some data => (tileHash sha256 ((data.drop start).take (stop - start)), session)
      | none => match (readTileOrFull opener tile).run session with
        | (.ok data, s) => (tileHash sha256 ((data.drop start).take (stop - start)),
            { s with tileCache := (tile.url, data) :: s.tileCache })
        | (.error e, s) => (.error e, s) := by
  unfold fetchStoredHash
  rw [htile, run_bind]
  show ((get : TransportM Session) >>= _).run session = _
  rw [run_bind]
  show (match session.tileCache.lookup tile.url with | some data => _ | none => _ :
    TransportM Bytes).run session = _
  cases session.tileCache.lookup tile.url with
  | some data => rfl
  | none =>
    show (readTileOrFull opener tile >>= _).run session = _
    rw [run_bind]
    rcases (readTileOrFull opener tile).run session with ⟨_ | _, _⟩ <;> rfl

/-- A stored hash is read, and what is cached stays right. -/
theorem fetchStoredHash_yields (hserver : HonestServer sha256 log opener) (size index : Nat)
    (hsize : size ≤ log.length) (hindex : InTree size index) :
    Yields sha256 log (fetchStoredHash sha256 opener size index)
      (hashAt (nodeSha sha256) (emptySha sha256) log index).val := by
  intro session hcache
  obtain ⟨tile, first, r, htile, hin, hhold⟩ := tileForTree_ok index size _ _ rfl hindex
  have hin' : TileIn log.length tile := ⟨hin.height, hin.pos, hin.le, hin.inTree.trans hsize⟩
  have hslice := tileHash_slice sha256 log tile _ _ first r hin' hhold
  rw [fetchStoredHash_run size index _ _ tile session htile]
  cases hlookup : session.tileCache.lookup tile.url with
  | some data =>
    obtain rfl := hcache tile data hin' hlookup
    exact ⟨session, by dsimp only; rw [hslice]; rfl, hcache⟩
  | none =>
    obtain ⟨session', hrun, hsame⟩ := readTileOrFull_honest hserver tile hin' session
    refine ⟨{ session' with tileCache := (tile.url, tileBytes sha256 log tile) ::
      session'.tileCache }, by rw [hrun]; dsimp only; rw [hslice]; rfl, ?_⟩
    intro other data hother hdata
    dsimp only at hdata
    rw [List.lookup_cons] at hdata
    cases heq : other.url == tile.url with
    | true =>
      rw [heq] at hdata
      obtain rfl := Tile.url_injective (eq_of_beq heq)
      exact (Option.some.inj hdata).symm
    | false =>
      rw [heq, hsame] at hdata
      exact hcache other data hother hdata

/-! ## Whole proofs -/

theorem spineHash_concat (lefts : List Bytes32) (last : Bytes32) :
    spineHash (nodeSha sha256) (emptySha sha256) (lefts ++ [last]) =
      lefts.foldr (nodeSha sha256) last := by
  induction lefts with
  | nil => rfl
  | cons d lefts ih => rw [List.cons_append, spineHash_cons _ _ _ _ (by simp), ih, List.foldr_cons]

/-- The right fold of the source is the hash of the spine. -/
theorem foldGroup_eq (hashes : List Bytes32) (h : hashes ≠ []) :
    foldGroup sha256 (hashes.map (·.val)) =
      .ok (spineHash (nodeSha sha256) (emptySha sha256) hashes).val := by
  obtain ⟨lefts, last, rfl⟩ := (List.eq_nil_or_concat' hashes).resolve_left h
  have hfold : ∀ l : List Bytes32, (l.map (·.val)).foldr (fun leftHash subtreeHash =>
      (sha256 (1 :: (leftHash ++ subtreeHash))).val) last.val =
      (l.foldr (nodeSha sha256) last).val := by
    intro l
    induction l with
    | nil => rfl
    | cons d l ih => rw [List.map_cons, List.foldr_cons, ih]; rfl
  unfold foldGroup
  rw [List.map_append, List.map_singleton, List.reverse_append, List.reverse_singleton,
    List.singleton_append]
  show Except.ok _ = _
  rw [List.foldl_reverse, hfold, spineHash_concat]

/-- The text of a digest in a proof. -/
def proofText (h : Bytes32) : PyObject := .str (Base64.encode h.val)

/-- Groups that stand for the hashes `P` are fetched as `P`. -/
theorem fetchProof_yields (hserver : HonestServer sha256 log opener) (size : Nat)
    (hsize : size ≤ log.length) (groups : List (List Nat)) (P : List Bytes32)
    (h : List.Forall₂ (GroupHash (nodeSha sha256) (emptySha sha256) log size) groups P) :
    Yields sha256 log (fetchProof sha256 opener size groups) (.tuple (P.map proofText)) := by
  have hP : P.map proofText = groups.map fun group => proofText
      (spineHash (nodeSha sha256) (emptySha sha256)
        (group.map (hashAt (nodeSha sha256) (emptySha sha256) log))) := by
    induction h with
    | nil => rfl
    | cons hgroup _ ih => rw [List.map_cons, List.map_cons, hgroup.fold, ih]
  have hall : ∀ group ∈ groups, group ≠ [] ∧ ∀ index ∈ group, InTree size index := by
    clear hP
    induction h with
    | nil => simp
    | cons hgroup _ ih =>
      intro group hmem
      rcases List.mem_cons.mp hmem with rfl | hmem
      · exact ⟨hgroup.nonempty, hgroup.inTree⟩
      · exact ih group hmem
  rw [hP]
  refine Yields.bind _ _ _ _ (Yields.mapM _ _ groups fun group hmem => ?_) (Yields.pure _)
  obtain ⟨hne, htree⟩ := hall group hmem
  refine Yields.bind _ _ _ _ (Yields.mapM _ _ group fun index hindex =>
    fetchStoredHash_yields hserver size index hsize (htree index hindex)) ?_
  have hfold := @foldGroup_eq sha256
    (group.map (hashAt (nodeSha sha256) (emptySha sha256) log)) (by simpa using hne)
  rw [List.map_map] at hfold
  exact Yields.bind _ _ _ _ (Yields.ofExcept _ _ hfold) (Yields.pure _)

theorem isAscii_encode (bs : Bytes) : isAscii (Base64.encode bs) = true := by
  have hd : isAscii Base64.alphabet = true := by rfl
  refine List.all_eq_true.mpr fun c hc => ?_
  rcases Base64.mem_encode bs c hc with h | rfl
  · exact List.all_eq_true.mp hd c h
  · rfl

theorem hashBase64_encode (h : Bytes32) : hashBase64 (Base64.encode h.val) = true := by
  obtain ⟨ds, hds, hmem⟩ := Base64.encode_pad_one h.val (by rw [h.property])
  have hlen := Base64.length_encode h.val
  rw [h.property, hds, List.length_append, List.length_singleton] at hlen
  have hdl : ds.length = 43 := by omega
  unfold hashBase64
  rw [hds, List.take_left' hdl, List.drop_left' hdl]
  simp only [List.length_append, hdl, List.length_singleton, Bool.and_eq_true, List.all_eq_true,
    decide_eq_true_eq]
  exact ⟨⟨trivial, hmem⟩, trivial⟩

theorem item_proofText (label : String) (h : Bytes32) :
    proofHashes.item label (proofText h) = .ok h := by
  have hlen : (Base64.encode h.val).length = 44 := by rw [Base64.length_encode, h.property]
  unfold proofText proofHashes.item
  dsimp only
  rw [hlen, isAscii_encode, hashBase64_encode]
  unfold decodeCanonicalBase64
  rw [Base64.decode_encode]
  simp only [Bool.not_true, Bool.or_false, ne_eq, not_true_eq_false, decide_false,
    Bool.false_eq_true, if_false, if_true]
  show (if h' : h.val.length = 32 then (pure ⟨h.val, h'⟩ : Except PyError Bytes32)
    else throw _) = _
  rw [dif_pos h.property]
  rfl

/-- What the verifier reads out of a fetched proof. -/
theorem proofHashes_proofText (P : List Bytes32) (label : String) (h : P.length ≤ 64) :
    proofHashes (.tuple (P.map proofText)) label = .ok P := by
  have hmap : ∀ l : List Bytes32, (l.map proofText).mapM (proofHashes.item label) = .ok l := by
    intro l
    induction l with
    | nil => rfl
    | cons d l ih =>
      rw [List.map_cons, List.mapM_cons, item_proofText, ih]
      rfl
  unfold proofHashes
  dsimp only
  rw [if_neg (by rw [List.length_map]; unfold goSumdbMaxProofHashes; omega)]
  exact hmap P

/-- The two plans are the two paths, for every signed size that the checks let through. -/
theorem planProofs_ok (node : Bytes32 → Bytes32 → Bytes32) (empty : Bytes32)
    (lookup : SignedGoSumdbLookup) (prior : SignedGoSumdbTreeHead)
    (hmax : lookup.treeHead.treeSize ≤ goSumdbMaxTreeSize)
    (hn : lookup.treeHead.treeSize ≤ log.length)
    (hi : lookup.recordNumber < lookup.treeHead.treeSize)
    (hm1 : 1 ≤ prior.treeSize) (hm : prior.treeSize ≤ lookup.treeHead.treeSize) :
    ∃ inclusionGroups consistencyGroups,
      planProofs lookup (some prior) = .ok (inclusionGroups, consistencyGroups) ∧
      List.Forall₂ (GroupHash node empty log lookup.treeHead.treeSize) inclusionGroups
        (auditPath node empty lookup.recordNumber (log.take lookup.treeHead.treeSize)) ∧
      List.Forall₂ (GroupHash node empty log lookup.treeHead.treeSize) consistencyGroups
        (consistencyPath node empty prior.treeSize (log.take lookup.treeHead.treeSize) true) := by
  have hlen : (log.take lookup.treeHead.treeSize).length = lookup.treeHead.treeSize := by
    rw [List.length_take, Nat.min_eq_left hn]
  have hpow : lookup.treeHead.treeSize ≤ 2 ^ 63 := by unfold goSumdbMaxTreeSize at hmax; omega
  obtain ⟨inclusionGroups, hinclusion, hall⟩ := recordProofIndexGroups_hashes node empty log
    lookup.treeHead.treeSize 0 _ _ lookup.recordNumber [] (Nat.zero_add _).symm (aligned_zero _)
    (Nat.zero_le _) hi (Nat.le_refl _) hn
  obtain ⟨consistencyGroups, hconsistency, hall'⟩ : ∃ groups,
      (if prior.treeSize < lookup.treeHead.treeSize then
        treeProofIndexGroups 0 lookup.treeHead.treeSize prior.treeSize []
      else pure []) = .ok groups ∧
      List.Forall₂ (GroupHash node empty log lookup.treeHead.treeSize) groups
        (consistencyPath node empty prior.treeSize (log.take lookup.treeHead.treeSize) true) := by
    by_cases hlt : prior.treeSize < lookup.treeHead.treeSize
    · rw [if_pos hlt]
      exact treeProofIndexGroups_hashes node empty log lookup.treeHead.treeSize 0 _ _
        prior.treeSize [] (Nat.zero_add _).symm (aligned_zero _) hm1 hm (Nat.le_refl _) hn
    · rw [if_neg hlt, consistencyPath, dif_neg (by omega)]
      exact ⟨[], rfl, List.Forall₂.nil⟩
  rw [segment_zero, Nat.sub_zero] at hall
  rw [List.nil_append] at hinclusion
  have hcount : inclusionGroups.length ≤ 64 := by
    rw [hall.length_eq, length_auditPath, hlen]
    exact (pathLength_le 63 _ _ hpow).trans (by omega)
  have hcount' : consistencyGroups.length ≤ 64 := by
    rw [hall'.length_eq]
    exact length_consistencyPath_le node empty 63 _ _ _ (by rw [hlen]; exact hpow)
  refine ⟨inclusionGroups, consistencyGroups, ?_, hall, hall'⟩
  unfold goSumdbMaxTreeSize at hmax
  unfold planProofs goSumdbMaxTreeSize
  simp only [Option.any_some, Bool.or_eq_true, decide_eq_true_eq, hinclusion]
  rw [if_neg (by omega), if_neg (by omega), if_neg (by omega), if_neg (by omega)]
  show (if inclusionGroups.length > 64 then _ else _) = _
  rw [if_neg (by omega)]
  by_cases hlt : prior.treeSize < lookup.treeHead.treeSize
  · rw [if_pos hlt] at hconsistency ⊢
    rw [hconsistency]
    exact if_neg (by omega)
  · rw [if_neg hlt] at hconsistency ⊢
    cases hconsistency
    rfl

/-- **Prover and verifier agree.**  Against an honest server of a log that has reached the signed
size, the fetched material is the audit path and the consistency path of the signed tree, hash
for hash, and both proof recursions accept it. -/
theorem fetchProofMaterial_complete (sha256 : Bytes → Bytes32) (log : List Bytes32)
    (opener : Opener) (hserver : HonestServer sha256 log opener) (lookup : SignedGoSumdbLookup)
    (prior : SignedGoSumdbTreeHead) (hmax : lookup.treeHead.treeSize ≤ goSumdbMaxTreeSize)
    (hn : lookup.treeHead.treeSize ≤ log.length)
    (hi : lookup.recordNumber < lookup.treeHead.treeSize)
    (hm1 : 1 ≤ prior.treeSize) (hm : prior.treeSize ≤ lookup.treeHead.treeSize)
    (requests : List Text) (label1 label2 : String) :
    let n := lookup.treeHead.treeSize
    let leaves := log.take n
    let root := mth (nodeSha sha256) (emptySha sha256)
    ∃ material session inclusion consistency,
      (fetchProofMaterial sha256 opener lookup (some prior)).run { requests } =
        (.ok material, session) ∧
      proofHashes material.inclusionProof label1 = .ok inclusion ∧
      proofHashes material.consistencyProof label2 = .ok consistency ∧
      inclusion = auditPath (nodeSha sha256) (emptySha sha256) lookup.recordNumber leaves ∧
      consistency =
        consistencyPath (nodeSha sha256) (emptySha sha256) prior.treeSize leaves true ∧
      runRecordProof (nodeSha sha256) inclusion 0 n lookup.recordNumber
        (log.get ⟨lookup.recordNumber, hi.trans_le hn⟩) = .ok (root leaves) ∧
      runTreeProof (nodeSha sha256) consistency 0 n prior.treeSize
        (root (leaves.take prior.treeSize)) =
        .ok (root (leaves.take prior.treeSize), root leaves) := by
  intro n leaves root
  have hlen : leaves.length = n := by
    show (log.take n).length = n
    rw [List.length_take, Nat.min_eq_left hn]
  have hpow : n ≤ 2 ^ 63 := by unfold goSumdbMaxTreeSize at hmax; omega
  obtain ⟨groups1, groups2, hplan, hall1, hall2⟩ := @planProofs_ok log (nodeSha sha256)
    (emptySha sha256) lookup prior hmax hn hi hm1 hm
  have hyields : Yields sha256 log (fetchProofMaterial sha256 opener lookup (some prior))
      { inclusionProof := .tuple
          ((auditPath (nodeSha sha256) (emptySha sha256) lookup.recordNumber leaves).map proofText)
        consistencyProof := .tuple
          ((consistencyPath (nodeSha sha256) (emptySha sha256) prior.treeSize leaves true).map
            proofText) } :=
    Yields.bind _ _ _ _ (Yields.ofExcept _ _ hplan)
      (Yields.bind _ _ _ _ (fetchProof_yields hserver n hn groups1 _ hall1)
        (Yields.bind _ _ _ _ (fetchProof_yields hserver n hn groups2 _ hall2) (Yields.pure _)))
  obtain ⟨session, hrun, -⟩ := hyields { requests } (fun _ _ _ h => nomatch h)
  refine ⟨_, session, _, _, hrun, proofHashes_proofText _ label1 ?_,
    proofHashes_proofText _ label2 ?_, rfl, rfl, ?_, ?_⟩
  · rw [length_auditPath, hlen]
    exact (pathLength_le 63 _ _ hpow).trans (by omega)
  · exact length_consistencyPath_le _ _ 63 _ _ _ (by rw [hlen]; exact hpow)
  · refine runRecordProof_auditPath (nodeSha sha256) (emptySha sha256) n leaves 0 n _ _ hlen
      (Nat.zero_add n).symm (Nat.zero_le _) ?_
    show (log.take n)[lookup.recordNumber - 0]? = _
    rw [Nat.sub_zero, List.getElem?_take_of_lt hi, List.getElem?_eq_getElem (hi.trans_le hn)]
    rfl
  · exact runTreeProof_consistencyPath (nodeSha sha256) (emptySha sha256) n leaves 0 n
      prior.treeSize _ hlen (Nat.zero_add n).symm hm1 hm (fun _ => rfl)

/-! ## A server for every log -/

/-- Every tile of the log: numbers and levels are below the number of records. -/
def logTiles (size : Nat) : List Tile :=
  (List.range size).flatMap fun level => (List.range size).flatMap fun number =>
    (List.range' 1 256).filterMap fun width =>
      if (number * 256 + width) * 2 ^ (8 * level) ≤ size then
        some { height := goSumdbTileHeight, level, number, width }
      else none

/-- A response that carries `data` in one piece. -/
def plainResponse (url : Text) (data : Bytes) : Response where
  status := some 200
  finalUrl := some url
  contentLength := some (some data.length)
  read offset amount := some ((data.drop offset).take amount)

/-- The server of the tiles of `log` and of nothing else. -/
def logServer (sha256 : Bytes → Bytes32) (log : List Bytes32) : Opener := fun _ url =>
  match (logTiles log.length).find? (fun tile => tile.url = url) with
  | some tile => .ok (plainResponse url (tileBytes sha256 log tile))
  | none => .error (.httpError 404)

theorem mem_logTiles (size : Nat) (tile : Tile) (h : TileIn size tile) : tile ∈ logTiles size := by
  obtain ⟨hheight, hpos, hle, hin⟩ := h
  have hlevel : 8 * tile.level < 2 ^ (8 * tile.level) := Nat.lt_two_pow_self
  have h1 : 2 ^ (8 * tile.level) ≤ (tile.number * 256 + tile.width) * 2 ^ (8 * tile.level) :=
    Nat.le_mul_of_pos_left _ (by omega)
  have h2 : tile.number * 256 + tile.width ≤
      (tile.number * 256 + tile.width) * 2 ^ (8 * tile.level) :=
    Nat.le_mul_of_pos_right _ (Nat.two_pow_pos _)
  refine List.mem_flatMap.mpr ⟨tile.level, List.mem_range.mpr (by omega), ?_⟩
  refine List.mem_flatMap.mpr ⟨tile.number, List.mem_range.mpr (by omega), ?_⟩
  refine List.mem_filterMap.mpr ⟨tile.width, List.mem_range'_1.mpr (by omega), ?_⟩
  rw [if_pos hin, ← hheight]

theorem plainResponse_serves (url : Text) (data : Bytes) :
    Serves (plainResponse url data) url data where
  status := Or.inr rfl
  finalUrl := rfl
  contentLength := Or.inr rfl
  read offset amount hoffset hamount := by
    refine ⟨(data.drop offset).take amount, rfl, List.length_take_le _ _, List.take_prefix _ _, ?_⟩
    intro hnil
    have := congrArg List.length hnil
    rw [List.length_take, List.length_drop, List.length_nil] at this
    omega

theorem logServer_honest (sha256 : Bytes → Bytes32) (log : List Bytes32) :
    HonestServer sha256 log (logServer sha256 log) := by
  intro requests tile hin
  left
  have hsome : ((logTiles log.length).find? fun t => t.url = tile.url).isSome := by
    rw [List.find?_isSome]
    exact ⟨tile, mem_logTiles _ tile hin, decide_eq_true rfl⟩
  obtain ⟨found, hfound⟩ := Option.isSome_iff_exists.mp hsome
  have hurl := List.find?_some hfound
  simp only [decide_eq_true_eq] at hurl
  obtain rfl := Tile.url_injective hurl
  refine ⟨_, ?_, plainResponse_serves found.url _⟩
  unfold logServer
  rw [hfound]

end

/-- A log of three records. -/
def sampleLog : List Bytes32 :=
  [⟨List.replicate 32 1, rfl⟩, ⟨List.replicate 32 2, rfl⟩, ⟨List.replicate 32 3, rfl⟩]

/-- A head of `sampleLog` at some size; the fetch reads nothing else of it. -/
def sampleHead (treeSize : Nat) : SignedGoSumdbTreeHead where
  signedNoteBytes := []
  signedTextBytes := []
  treeSize
  treeHashBytes := ⟨List.replicate 32 0, rfl⟩

def sampleLookup : SignedGoSumdbLookup where
  modulePath := "golang.org/x/text".toList
  version := "v0.3.0".toList
  recordNumber := 1
  recordTextBytes := []
  moduleH1 := []
  goModH1 := []
  treeHead := sampleHead 3

/-- A stand-in digest, the sum of the bytes. -/
def sampleSha256 (b : Bytes) : Bytes32 := ⟨List.replicate 32 b.sum, List.length_replicate⟩

/-- The second of three records, for a verifier that holds the first two. -/
theorem fetchProofMaterial_complete_sample :
    ∃ material session inclusion consistency,
      (fetchProofMaterial sampleSha256 (logServer sampleSha256 sampleLog) sampleLookup
        (some (sampleHead 2))).run {} = (.ok material, session) ∧
      proofHashes material.inclusionProof "inclusion" = .ok inclusion ∧
      proofHashes material.consistencyProof "consistency" = .ok consistency ∧
      runRecordProof (nodeSha sampleSha256) inclusion 0 3 1 ⟨List.replicate 32 2, rfl⟩ =
        .ok (mth (nodeSha sampleSha256) (emptySha sampleSha256) sampleLog) := by
  obtain ⟨material, session, inclusion, consistency, hrun, h1, h2, -, -, h3, -⟩ :=
    fetchProofMaterial_complete sampleSha256 sampleLog (logServer sampleSha256 sampleLog)
      (logServer_honest sampleSha256 sampleLog) sampleLookup (sampleHead 2) (by decide) (by decide)
      (by decide) (by decide) (by decide) [] "inclusion" "consistency"
  exact ⟨material, session, inclusion, consistency, hrun, h1, h2, h3⟩

end Agentrail.GoSumdbTransport
