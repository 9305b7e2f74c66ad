import Agentrail.Records.ExactGitTree
import Mathlib.Data.List.Forall2
import Mathlib.Data.List.Nodup

/-!
# What an accepted inclusion proof says about the repository

An accepted path names, byte for byte, a regular file of the repository with the
claimed blob whenever the entries on its way are plain: no byte order mark in front of
a name, no high bit in a mode (`inclusion_exact`).  For a path none of whose components
begins with U+FEFF that is also the only way.
-/

namespace Agentrail.ExactGitTree

open Js
open GitTree (IsTree Repository Walks directoryMode fileModes)

/-! ## Loops that may stop -/

section
variable {σ α : Type} {f : σ → α → Option σ}

theorem foldlM_keeps {I : σ → Prop} {xs : List α} (hstep : ∀ s s', ∀ x ∈ xs, f s x = some s' →
    I s → I s') {s s' : σ} (h : xs.foldlM f s = some s') (hs : I s) : I s' := by
  induction xs generalizing s with
  | nil =>
    cases h
    exact hs
  | cons x xs ih =>
    rw [List.foldlM_cons] at h
    obtain ⟨s₁, hx, hxs⟩ := Option.bind_eq_some_iff.mp h
    exact ih (fun a b y hy => hstep a b y (List.mem_cons_of_mem x hy)) hxs
      (hstep s s₁ x List.mem_cons_self hx hs)

theorem foldlM_each {xs : List α} {s s' : σ} (h : xs.foldlM f s = some s') :
    ∀ x ∈ xs, ∃ s₁ s₂, f s₁ x = some s₂ := by
  induction xs generalizing s with
  | nil => exact fun x hx => absurd hx List.not_mem_nil
  | cons x xs ih =>
    rw [List.foldlM_cons] at h
    obtain ⟨s₁, hx, hxs⟩ := Option.bind_eq_some_iff.mp h
    exact List.forall_mem_cons.mpr ⟨⟨s, s₁, hx⟩, ih hxs⟩

end

theorem mem_of_lookup {κ ν : Type} [BEq κ] [LawfulBEq κ] {xs : List (κ × ν)} {k : κ} {v : ν}
    (h : xs.lookup k = some v) : (k, v) ∈ xs := by
  obtain ⟨before, after, rfl, -⟩ := List.lookup_eq_some_iff.mp h
  exact List.mem_append_right before List.mem_cons_self

/-! ## Parsing -/

theorem cut_eq_some {b : UInt8} {s x y : Bytes} (h : cut b s = some (x, y)) :
    s = x ++ b :: y ∧ b ∉ x := by
  induction s generalizing x with
  | nil => cases h
  | cons c s ih =>
    rw [cut] at h
    split at h
    · rename_i hc
      cases h
      exact ⟨by rw [hc, List.nil_append], List.not_mem_nil⟩
    · rename_i hc
      obtain ⟨⟨x, y⟩, hcut, hxy⟩ := Option.map_eq_some_iff.mp h
      cases hxy
      obtain ⟨rfl, hx⟩ := ih hcut
      refine ⟨rfl, ?_⟩
      rw [List.mem_cons, not_or]
      exact ⟨fun h => hc h.symm, hx⟩

/-- The entry as it stands in a body, and what the decoders make of it. -/
structure Reads (raw : GitTree.Entry) (entry : NativeTreeEntry) : Prop where
  name : textDecode raw.name = some entry.name
  mode : ascii raw.mode = entry.mode
  sha : hex raw.id = entry.sha

theorem nextEntry_spec {rest rest' : Bytes} {entry : NativeTreeEntry}
    (h : nextEntry rest = some (entry, rest')) :
    ∃ raw : GitTree.Entry, raw.WellFormed ∧ Reads raw entry ∧ rest = raw.bytes ++ rest' := by
  unfold nextEntry at h
  obtain ⟨⟨modeBytes, afterSpace⟩, hspace, h⟩ := Option.bind_eq_some_iff.mp h
  obtain ⟨⟨nameBytes, afterNul⟩, hnul, h⟩ := Option.bind_eq_some_iff.mp h
  dsimp only at h
  split at h
  · cases h
  rename_i hshape
  obtain ⟨name, hname, h⟩ := Option.bind_eq_some_iff.mp h
  split at h
  · cases h
  cases h
  obtain ⟨rfl, hmode⟩ := cut_eq_some hspace
  obtain ⟨rfl, hnameBytes⟩ := cut_eq_some hnul
  simp only [Bool.or_eq_true, decide_eq_true_eq, not_or, not_lt] at hshape
  refine ⟨⟨modeBytes, nameBytes, afterNul.take 20⟩, ⟨hmode, hnameBytes, ?_⟩, ⟨hname, rfl, rfl⟩, ?_⟩
  · rw [List.length_take, Nat.min_eq_left hshape.1.2]
  · simp only [GitTree.Entry.bytes, List.append_assoc, List.cons_append, List.take_append_drop]

/-- What a parse read: the entries of the body, each decoded, no two to one name. -/
structure Parsed (body : Bytes) (raws : List GitTree.Entry) (entries : List NativeTreeEntry) :
    Prop where
  tree : IsTree body raws
  reads : List.Forall₂ Reads raws entries
  names : (entries.map NativeTreeEntry.name).Nodup

theorem parseLoop_spec {n : Nat} {rest : Bytes} {entries out : List NativeTreeEntry}
    (h : parseLoop n rest entries = some out)
    (hnames : (entries.map NativeTreeEntry.name).Nodup) :
    (out.map NativeTreeEntry.name).Nodup ∧ ∃ raws new, out = entries ++ new ∧ IsTree rest raws ∧
      List.Forall₂ Reads raws new := by
  fun_induction parseLoop n rest entries with
  | case1 n entries =>
    cases h
    exact ⟨hnames, [], [], (List.append_nil _).symm, ⟨fun e he => absurd he List.not_mem_nil, rfl⟩,
      .nil⟩
  | case2 => cases h
  | case3 n b rest entries ih =>
    obtain ⟨⟨entry, rest'⟩, hnext, h⟩ := Option.bind_eq_some_iff.mp h
    dsimp only at h
    split at h
    · cases h
    rename_i hfresh
    obtain ⟨raw, hwf, hreads, hrest⟩ := nextEntry_spec hnext
    have hfreshName : entry.name ∉ entries.map NativeTreeEntry.name := fun hmem =>
      hfresh (List.contains_iff_mem.mpr hmem)
    have hnames' : ((entries ++ [entry]).map NativeTreeEntry.name).Nodup := by
      rw [List.map_append, List.map_singleton]
      exact List.nodup_append_comm.mp (List.nodup_cons.mpr ⟨hfreshName, hnames⟩)
    obtain ⟨hout, raws, new, rfl, ⟨hwfs, hbytes⟩, hall⟩ := ih _ _ h hnames'
    refine ⟨hout, raw :: raws, entry :: new, by simp, ⟨?_, ?_⟩, .cons hreads hall⟩
    · exact List.forall_mem_cons.mpr ⟨hwf, hwfs⟩
    · rw [List.flatMap_cons, hbytes, hrest]

theorem parseNativeTree_spec {body : Bytes} {entries : List NativeTreeEntry}
    (h : parseNativeTree body = some entries) : ∃ raws, Parsed body raws entries := by
  unfold parseNativeTree at h
  split at h
  · cases h
  obtain ⟨out, hloop, h⟩ := Option.bind_eq_some_iff.mp h
  split at h
  · cases h
    obtain ⟨hnames, raws, new, rfl, htree, hreads⟩ := parseLoop_spec hloop List.nodup_nil
    exact ⟨raws, htree, hreads, hnames⟩
  · cases h

/-- Every parsed entry stands in the body. -/
theorem Parsed.exists_raw {body : Bytes} {raws : List GitTree.Entry}
    {entries : List NativeTreeEntry} (h : Parsed body raws entries) (entry : NativeTreeEntry)
    (hmem : entry ∈ entries) : ∃ raw ∈ raws, Reads raw entry := by
  have hreads := h.reads
  clear h
  induction hreads with
  | nil => exact absurd hmem List.not_mem_nil
  | cons hread _ ih =>
    rcases List.mem_cons.mp hmem with rfl | hmem
    · exact ⟨_, List.mem_cons_self, hread⟩
    · obtain ⟨raw, hraw, hreads⟩ := ih hmem
      exact ⟨raw, List.mem_cons_of_mem _ hraw, hreads⟩

/-- No two entries of a parsed body decode to one name. -/
theorem Parsed.decode_injective {body : Bytes} {raws : List GitTree.Entry}
    {entries : List NativeTreeEntry} (h : Parsed body raws entries) {d e : GitTree.Entry}
    (hd : d ∈ raws) (he : e ∈ raws) (hname : textDecode d.name = textDecode e.name) : d = e := by
  have hmap : raws.map (fun r => textDecode r.name) =
      (entries.map NativeTreeEntry.name).map some := by
    have hreads := h.reads
    clear h hd he
    induction hreads with
    | nil => rfl
    | cons hread _ ih =>
      rw [List.map_cons, List.map_cons, List.map_cons, ih, hread.name]
  have hnodup : (raws.map fun r => textDecode r.name).Nodup := by
    rw [hmap]
    exact h.names.map (Option.some_injective _)
  exact List.inj_on_of_nodup_map hnodup hd he hname

/-! ## What a value lists -/

def headTreeSha (value : Json) : Text := (textAt "headTreeSha" value).getD []

/-- The bodies of `value["trees"]`. -/
def treeBodies (value : Json) : List Bytes :=
  ((arrayAt "trees" value).getD []).filterMap fun t =>
    (textAt "bodyBase64" t).bind decodeCanonicalBase64

structure PathClaim where
  path : Text
  blobSha : Text
  deriving DecidableEq

/-- The claims of `value["paths"]`. -/
def pathClaims (value : Json) : List PathClaim :=
  ((arrayAt "paths" value).getD []).filterMap fun p =>
    (textAt "path" p).bind fun path => (textAt "blobSha" p).map fun blobSha => ⟨path, blobSha⟩

section
variable {host : Host} {value : Json}

/-- A tree that passed its round is there with its body. -/
theorem addTree_spec {s s' : TreeState} {rawTree : Json} (h : addTree host s rawTree = some s') :
    ∃ body sha entries, (textAt "bodyBase64" rawTree).bind decodeCanonicalBase64 = some body ∧
      gitTreeSha host body = sha ∧ parseNativeTree body = some entries ∧
        s'.trees = s.trees ++ [(sha, entries)] := by
  unfold addTree at h
  split at h
  · cases h
  obtain ⟨sha1, hsha1, h⟩ := Option.bind_eq_some_iff.mp h
  obtain ⟨bodyBase64, hbase64, h⟩ := Option.bind_eq_some_iff.mp h
  split at h
  · cases h
  obtain ⟨body, hbody, h⟩ := Option.bind_eq_some_iff.mp h
  dsimp only at h
  split at h
  · cases h
  rename_i hsha
  obtain ⟨entries, hentries, h⟩ := Option.bind_eq_some_iff.mp h
  split at h
  · cases h
  cases h
  simp only [Bool.or_eq_true, decide_eq_true_eq, not_or, not_not] at hsha
  refine ⟨body, sha1, entries, ?_, hsha.2, hentries, rfl⟩
  rw [hbase64, Option.bind_some, hbody]

/-- A path that passed its round was walked. -/
theorem checkPath_spec {head path blobSha : Text} {trees : Trees} {s s' : PathState}
    {rawPath : Json} (h : checkPath host head trees s rawPath = some s')
    (hpath : textAt "path" rawPath = some path) (hblob : textAt "blobSha" rawPath = some blobSha) :
    ∃ used', walk trees blobSha head (splitPath path) s.usedTreeShas = some used' := by
  unfold checkPath at h
  split at h
  · cases h
  rw [hpath, hblob] at h
  simp only [Option.bind_eq_bind, Option.bind_some] at h
  split at h
  · cases h
  split at h
  · cases h
  split at h
  · cases h
  obtain ⟨used, hused, -⟩ := Option.bind_eq_some_iff.mp h
  exact ⟨used, hused⟩

/-- The trees that paths are walked over are those of the bodies. -/
structure Backed (host : Host) (bodies : List Bytes) (trees : Trees) : Prop where
  trees : ∀ sha entries, (sha, entries) ∈ trees →
    ∃ body ∈ bodies, gitTreeSha host body = sha ∧ parseNativeTree body = some entries
  bodies : ∀ body ∈ bodies, ∃ entries, parseNativeTree body = some entries

theorem accepted_spec (h : verifyExactGitTreeInclusionProof host value = true) :
    ∃ trees, Backed host (treeBodies value) trees ∧ ∀ claim ∈ pathClaims value, ∃ used used',
      walk trees claim.blobSha (headTreeSha value) (splitPath claim.path) used = some used' := by
  unfold verifyExactGitTreeInclusionProof at h
  obtain ⟨-, hparts⟩ := Bool.and_eq_true_iff.mp h
  split at hparts
  · rename_i head rawTrees rawPaths hhead htrees hpaths
    obtain ⟨-, hsome⟩ := Bool.and_eq_true_iff.mp hparts
    obtain ⟨_, hverify⟩ := Option.isSome_iff_exists.mp hsome
    obtain ⟨s, hs, hverify⟩ := Option.bind_eq_some_iff.mp hverify
    obtain ⟨p, hp, -⟩ := Option.bind_eq_some_iff.mp hverify
    unfold treeBodies pathClaims headTreeSha
    rw [hhead, htrees, hpaths, Option.getD_some, Option.getD_some, Option.getD_some]
    refine ⟨s.trees, ⟨?_, ?_⟩, ?_⟩
    · refine foldlM_keeps (I := fun s : TreeState => ∀ sha entries, (sha, entries) ∈ s.trees → ∃ body ∈ _,
        gitTreeSha host body = sha ∧ parseNativeTree body = some entries) ?_ hs ?_
      · intro s s' rawTree hraw hstep hkept sha entries hmem
        obtain ⟨body, sha', entries', hbody, hsha, hparse, htrees⟩ := addTree_spec hstep
        rw [htrees, List.mem_append, List.mem_singleton] at hmem
        rcases hmem with hmem | hmem
        · exact hkept sha entries hmem
        · cases hmem
          exact ⟨body, List.mem_filterMap.mpr ⟨rawTree, hraw, hbody⟩, hsha, hparse⟩
      · exact fun sha entries hmem => absurd hmem List.not_mem_nil
    · intro body hbody
      obtain ⟨rawTree, hraw, hdecode⟩ := List.mem_filterMap.mp hbody
      obtain ⟨s₁, s₂, hstep⟩ := foldlM_each hs rawTree hraw
      obtain ⟨body', sha, entries, hbody', -, hparse, -⟩ := addTree_spec hstep
      cases hdecode.symm.trans hbody'
      exact ⟨entries, hparse⟩
    · intro claim hclaim
      obtain ⟨rawPath, hraw, hread⟩ := List.mem_filterMap.mp hclaim
      obtain ⟨path, hpath, hread⟩ := Option.bind_eq_some_iff.mp hread
      obtain ⟨blobSha, hblob, hread⟩ := Option.map_eq_some_iff.mp hread
      cases hread
      obtain ⟨s₁, s₂, hstep⟩ := foldlM_each hp rawPath hraw
      exact ⟨s₁.usedTreeShas, checkPath_spec hstep hpath hblob⟩
  · cases hparts

end

theorem splitPath_ne_nil (t : Text) : splitPath t ≠ [] := by
  induction t with
  | nil => exact List.cons_ne_nil _ _
  | cons c t ih =>
    rw [splitPath]
    split
    · exact List.cons_ne_nil _ _
    · split
      · exact List.cons_ne_nil _ _
      · exact List.cons_ne_nil _ _

/-! ## The way of a path -/

/-- The entries that decode to the components of a path, from a tree of the proof on. -/
inductive OnWay (host : Host) (bodies : List Bytes) : Text → List Text → GitTree.Entry → Prop
  | here {body : Bytes} {raws : List GitTree.Entry} {e : GitTree.Entry} {part : Text}
      {parts : List Text} : body ∈ bodies → IsTree body raws → e ∈ raws →
      textDecode e.name = some part → OnWay host bodies (gitTreeSha host body) (part :: parts) e
  | further {body : Bytes} {raws : List GitTree.Entry} {d e : GitTree.Entry} {part : Text}
      {parts : List Text} : body ∈ bodies → IsTree body raws → d ∈ raws →
      textDecode d.name = some part → OnWay host bodies (hex d.id) parts e →
      OnWay host bodies (gitTreeSha host body) (part :: parts) e

theorem OnWay.parts_ne_nil {host : Host} {bodies : List Bytes} {treeSha : Text} {parts : List Text}
    {e : GitTree.Entry} (h : OnWay host bodies treeSha parts e) : parts ≠ [] := by
  cases h with
  | here => exact List.cons_ne_nil _ _
  | further => exact List.cons_ne_nil _ _

/-- Nothing of the entry is lost when it is decoded. -/
structure Plain (e : GitTree.Entry) : Prop where
  name : ¬byteOrderMark <+: e.name
  mode : ∀ b ∈ e.mode, b < 0x80

theorem directoryMode_plain : ∀ b ∈ directoryMode, b < 0x80 :=
  @of_decide_eq_true _ (List.decidableBAll (fun b : UInt8 => b < 0x80) directoryMode) rfl

theorem fileModes_plain : ∀ mode ∈ fileModes, ∀ b ∈ mode, b < 0x80 := by
  have hall : (fileModes.all fun mode => mode.all fun b => b < 0x80) = true := by decide
  intro mode hmode b hb
  exact of_decide_eq_true (List.all_eq_true.1 (List.all_eq_true.1 hall mode hmode) b hb)

/-- The path names a regular file of the repository, byte for byte, and the file is the blob. -/
def Included {host : Host} (repo : Repository (gitTreeSha host) hex) (head : Text)
    (claim : PathClaim) : Prop :=
  ∃ e, Walks repo head ((splitPath claim.path).map utf8) e ∧ e.mode ∈ fileModes ∧
    hex e.id = claim.blobSha

section
variable {host : Host} {bodies : List Bytes} (repo : Repository (gitTreeSha host) hex)
variable (hcollision : ∀ body ∈ bodies, ∀ id body', repo.tree id = some body' →
  gitTreeSha host body = gitTreeSha host body' → body = body')

include hcollision in
/-- The body of the proof is the one of the repository. -/
theorem tree_of_body {body : Bytes} (hbody : body ∈ bodies)
    (h : (repo.tree (gitTreeSha host body)).isSome) :
    repo.tree (gitTreeSha host body) = some body := by
  obtain ⟨body', hbody'⟩ := Option.isSome_iff_exists.mp h
  rw [hbody', hcollision body hbody _ body' hbody' (repo.addressed _ body' hbody').symm]

include hcollision in
/-- Where every entry on the way is plain, the verifier's walk is one of the repository. -/
theorem included_of_plain {trees : Trees} (hbacked : Backed host bodies trees) {blobSha : Text} :
    ∀ {parts : List Text} {treeSha : Text} {used used' : List Text}, parts ≠ [] →
    walk trees blobSha treeSha parts used = some used' → (repo.tree treeSha).isSome →
    (∀ e, OnWay host bodies treeSha parts e → Plain e) →
    ∃ e, Walks repo treeSha (parts.map utf8) e ∧ e.mode ∈ fileModes ∧ hex e.id = blobSha := by
  intro parts
  induction parts with
  | nil => exact fun h => absurd rfl h
  | cons part parts ih =>
    intro treeSha used used' _ hwalk hthere hplain
    rw [walk] at hwalk
    obtain ⟨entries, hentries, hfound⟩ := Option.bind_eq_some_iff.mp hwalk
    obtain ⟨entry, hfind, hstep⟩ := Option.bind_eq_some_iff.mp hfound
    clear hwalk hfound
    have hpart : entry.name = part := by simpa using List.find?_some hfind
    obtain ⟨body, hbody, rfl, hparse⟩ := hbacked.trees treeSha entries
      (mem_of_lookup hentries)
    obtain ⟨raws, hparsed⟩ := parseNativeTree_spec hparse
    obtain ⟨raw, hraw, hreads⟩ := hparsed.exists_raw entry (List.mem_of_find?_eq_some hfind)
    have hname : textDecode raw.name = some part := by rw [hreads.name, hpart]
    have hrawPlain : Plain raw := hplain raw (.here hbody hparsed.tree hraw hname)
    have hbytes : utf8 part = raw.name := (utf8_of_textDecode _ _ hname hrawPlain.name).symm
    have hmode : ∀ mode : Bytes, (∀ b ∈ mode, b < 0x80) → entry.mode = ascii mode →
        raw.mode = mode := fun mode hmode he =>
      ascii_injective hrawPlain.mode hmode (hreads.mode.trans he)
    have htree := tree_of_body repo hcollision hbody hthere
    split at hstep
    · rename_i hlast
      subst hlast
      split at hstep
      · cases hstep
      rename_i hregular
      simp only [Bool.or_eq_true, Bool.and_eq_true, decide_eq_true_eq, not_or, not_and,
        not_not] at hregular
      refine ⟨raw, ?_, ?_, hreads.sha.trans hregular.2⟩
      · rw [List.map_singleton, hbytes]
        exact .here htree hparsed.tree hraw
      · have hfile : ∃ mode ∈ fileModes, entry.mode = ascii mode := by
          by_cases hm : entry.mode = "100644".toList
          · exact ⟨_, List.mem_cons_self, hm⟩
          · exact ⟨_, List.mem_cons_of_mem _ List.mem_cons_self, hregular.1 hm⟩
        obtain ⟨mode, hmem, hascii⟩ := hfile
        rw [hmode mode (fileModes_plain mode hmem) hascii]
        exact hmem
    · rename_i hmore
      split at hstep
      · cases hstep
      rename_i hdir
      have hraw40000 : raw.mode = directoryMode :=
        hmode directoryMode directoryMode_plain (not_not.mp hdir)
      rw [← hreads.sha] at hstep
      obtain ⟨e, hrest, hfile, hblob⟩ := ih hmore hstep
        (repo.closed _ body raws htree hparsed.tree raw hraw hraw40000)
        fun e he => hplain e (.further hbody hparsed.tree hraw hname he)
      refine ⟨e, ?_, hfile, hblob⟩
      rw [List.map_cons, hbytes]
      exact .into htree hparsed.tree hraw hraw40000 hrest

include hcollision in
/-- Where no component begins with the mark, a walk of the repository leaves only plain entries on
the way. -/
theorem plain_of_included {trees : Trees} (hbacked : Backed host bodies trees)
    {treeSha : Text} {parts : List Text} {e : GitTree.Entry}
    (hway : OnWay host bodies treeSha parts e) (hparts : ∀ part ∈ parts, part.head? ≠ some '\ufeff')
    {file : GitTree.Entry} (hwalks : Walks repo treeSha (parts.map utf8) file)
    (hfile : file.mode ∈ fileModes) : Plain e := by
  -- the entry of the walk decodes to the component as well, so it is the one on the way
  have hstep : ∀ {body : Bytes} {raws : List GitTree.Entry} {d : GitTree.Entry} {part : Text}
      {parts : List Text}, body ∈ bodies → IsTree body raws → d ∈ raws →
      textDecode d.name = some part → part.head? ≠ some '\ufeff' →
      Walks repo (gitTreeSha host body) (utf8 part :: parts.map utf8) file →
      Plain d ∧ (parts = [] ∨ Walks repo (hex d.id) (parts.map utf8) file) := by
    intro body raws d part parts hbody htree hd hname hpart hwalks
    obtain ⟨body', raws', hbody', htree', d', hd', hname', hrest⟩ := hwalks.first
    cases hcollision body hbody _ body' hbody' (repo.addressed _ body' hbody').symm
    cases htree.unique htree'
    obtain ⟨entries, hparse⟩ := hbacked.bodies body hbody
    obtain ⟨raws'', hparsed⟩ := parseNativeTree_spec hparse
    cases htree.unique hparsed.tree
    have hsame : d' = d := by
      refine hparsed.decode_injective hd' hd ?_
      rw [hname', textDecode_utf8 part hpart, hname]
    subst hsame
    have hmark : ¬byteOrderMark <+: d'.name := by
      rw [hname', mark_prefix_utf8]
      exact hpart
    rcases hrest with ⟨hlast, rfl⟩ | ⟨hdir, hrest⟩
    · exact ⟨⟨hmark, fileModes_plain _ hfile⟩, Or.inl (List.map_eq_nil_iff.mp hlast)⟩
    · refine ⟨⟨hmark, ?_⟩, Or.inr hrest⟩
      rw [hdir]
      exact directoryMode_plain
  induction hway with
  | here hbody htree he hname =>
    exact (hstep hbody htree he hname (hparts _ List.mem_cons_self) hwalks).1
  | further hbody htree hd hname hrest ih =>
    obtain ⟨-, hnone | hwalks'⟩ := hstep hbody htree hd hname (hparts _ List.mem_cons_self) hwalks
    · exact absurd hnone hrest.parts_ne_nil
    · exact ih (fun part hp => hparts part (List.mem_cons_of_mem _ hp)) hwalks'

end

/-- An accepted path is in the repository, byte for byte, when every entry on its way is plain; a
path none of whose components begins with U+FEFF only then. -/
theorem inclusion_exact (host : Host) (value : Json)
    (haccepted : verifyExactGitTreeInclusionProof host value = true)
    (repo : Repository (gitTreeSha host) hex) (hroot : (repo.tree (headTreeSha value)).isSome)
    (hcollision : ∀ body ∈ treeBodies value, ∀ id body', repo.tree id = some body' →
      gitTreeSha host body = gitTreeSha host body' → body = body')
    (claim : PathClaim) (hclaim : claim ∈ pathClaims value) :
    ((∀ e, OnWay host (treeBodies value) (headTreeSha value) (splitPath claim.path) e → Plain e) →
      Included repo (headTreeSha value) claim) ∧
    ((∀ part ∈ splitPath claim.path, part.head? ≠ some '\ufeff') →
      Included repo (headTreeSha value) claim →
      ∀ e, OnWay host (treeBodies value) (headTreeSha value) (splitPath claim.path) e → Plain e) := by
  obtain ⟨trees, hbacked, hwalked⟩ := accepted_spec haccepted
  obtain ⟨used, used', hwalk⟩ := hwalked claim hclaim
  refine ⟨fun hplain => ?_, ?_⟩
  · exact included_of_plain repo hcollision hbacked (splitPath_ne_nil claim.path) hwalk hroot hplain
  · rintro hparts ⟨file, hwalks, hfile, -⟩ e hway
    exact plain_of_included repo hcollision hbacked hway hparts hwalks hfile

/-! ## Two proofs -/

/-- A directory `d` with a file `a`, and a tree whose only file is `a` behind a mark. -/
def fileEntry : GitTree.Entry := ⟨utf8 "100644".toList, utf8 "a".toList, List.replicate 20 0x11⟩

def leafId : Bytes :=
  [0xf4, 0x8d, 0x52, 0xd2, 0x7d, 0xdc, 0x38, 0x00, 0x84, 0xd6,
   0x1c, 0xd9, 0x04, 0xa9, 0xc8, 0xd5, 0xa0, 0xdc, 0x67, 0x53]

def dirEntry : GitTree.Entry := ⟨directoryMode, utf8 "d".toList, leafId⟩

def markedEntry : GitTree.Entry :=
  ⟨utf8 "100644".toList, byteOrderMark ++ utf8 "a".toList, List.replicate 20 0x11⟩

/-- SHA-1 of the three tree objects. -/
def sampleSha1 (b : Bytes) : Bytes :=
  if b = utf8 "tree 29".toList ++ 0 :: fileEntry.bytes then leafId
  else if b = utf8 "tree 28".toList ++ 0 :: dirEntry.bytes then
    [0xba, 0xa3, 0x88, 0xc5, 0xe1, 0x96, 0xd5, 0x0b, 0x59, 0x1e,
     0xd5, 0xae, 0x2f, 0xd7, 0xf1, 0xfa, 0x48, 0x46, 0x6a, 0x31]
  else if b = utf8 "tree 32".toList ++ 0 :: markedEntry.bytes then
    [0xca, 0xcb, 0x11, 0xa5, 0x21, 0x68, 0x6e, 0x97, 0xf4, 0x56,
     0x2e, 0x1c, 0x0a, 0x20, 0xc6, 0xbf, 0xd2, 0x34, 0xca, 0xe0]
  else []

def sampleHost : Host := ⟨sampleSha1, id⟩

/-- A value with these trees, by id and body, and one path. -/
def proofValue (head : String) (trees : List (String × String)) (path : String) : Json :=
  .obj [("kind".toList, .str "exact_git_tree_inclusion_batch".toList), ("version".toList, .num 1),
    ("headTreeSha".toList, .str head.toList),
    ("trees".toList, .arr (trees.map fun t =>
      .obj [("sha1".toList, .str t.1.toList), ("bodyBase64".toList, .str t.2.toList)])),
    ("paths".toList, .arr [.obj [("path".toList, .str path.toList),
      ("blobSha".toList, .str (List.replicate 40 '1'))]])]

def plainValue : Json :=
  proofValue "baa388c5e196d50b591ed5ae2fd7f1fa48466a31"
    [("baa388c5e196d50b591ed5ae2fd7f1fa48466a31", "NDAwMDAgZAD0jVLSfdw4AITWHNkEqcjVoNxnUw=="),
      ("f48d52d27ddc380084d61cd904a9c8d5a0dc6753", "MTAwNjQ0IGEAERERERERERERERERERERERERERE=")]
    "d/a"

def markedValue : Json :=
  proofValue "cacb11a521686e97f4562e1c0a20c6bfd234cae0"
    [("cacb11a521686e97f4562e1c0a20c6bfd234cae0", "MTAwNjQ0IO+7v2EAERERERERERERERERERERERERERE=")]
    "a"

/-- The repository of some trees of one entry each. -/
def repositoryOf (host : Host) (es : List GitTree.Entry) (hwf : ∀ e ∈ es, e.WellFormed)
    (hclosed : ∀ e ∈ es, e.mode = directoryMode → ∃ e' ∈ es, gitTreeSha host e'.bytes = hex e.id) :
    Repository (gitTreeSha host) hex where
  tree id := (es.find? fun e => gitTreeSha host e.bytes = id).map GitTree.Entry.bytes
  addressed := by
    intro id body h
    obtain ⟨e, he, rfl⟩ := Option.map_eq_some_iff.mp h
    simpa using List.find?_some he
  closed := by
    intro id body entries h htree e he hmode
    obtain ⟨e₁, he₁, rfl⟩ := Option.map_eq_some_iff.mp h
    have hmem := List.mem_of_find?_eq_some he₁
    have hone : IsTree e₁.bytes [e₁] :=
      ⟨List.forall_mem_singleton.mpr (hwf e₁ hmem), List.append_nil _⟩
    cases htree.unique hone
    cases List.mem_singleton.mp he
    obtain ⟨e', he', hid⟩ := hclosed e hmem hmode
    rw [Option.isSome_map, List.find?_isSome]
    exact ⟨e', he', decide_eq_true hid⟩

theorem repositoryOf_tree {host : Host} {es : List GitTree.Entry} {hwf : ∀ e ∈ es, e.WellFormed}
    {hclosed : ∀ e ∈ es, e.mode = directoryMode → ∃ e' ∈ es,
      gitTreeSha host e'.bytes = hex e.id} {id : Text} {body : Bytes}
    (h : (repositoryOf host es hwf hclosed).tree id = some body) : ∃ e ∈ es, e.bytes = body := by
  obtain ⟨e, he, rfl⟩ := Option.map_eq_some_iff.mp h
  exact ⟨e, List.mem_of_find?_eq_some he, rfl⟩

theorem plain_wellFormed : ∀ e ∈ [dirEntry, fileEntry], e.WellFormed := by decide

theorem plain_closed : ∀ e ∈ [dirEntry, fileEntry], e.mode = directoryMode →
    ∃ e' ∈ [dirEntry, fileEntry], gitTreeSha sampleHost e'.bytes = hex e.id := by
  decide +kernel

def plainRepository : Repository (gitTreeSha sampleHost) hex :=
  repositoryOf sampleHost [dirEntry, fileEntry] plain_wellFormed plain_closed

theorem marked_wellFormed : ∀ e ∈ [markedEntry], e.WellFormed := by decide

theorem marked_closed : ∀ e ∈ [markedEntry], e.mode = directoryMode →
    ∃ e' ∈ [markedEntry], gitTreeSha sampleHost e'.bytes = hex e.id := by
  decide +kernel

def markedRepository : Repository (gitTreeSha sampleHost) hex :=
  repositoryOf sampleHost [markedEntry] marked_wellFormed marked_closed

/-- Every entry on a way stands in one of the bodies. -/
theorem OnWay.mem {host : Host} {bodies : List Bytes} {treeSha : Text} {parts : List Text}
    {e : GitTree.Entry} (h : OnWay host bodies treeSha parts e) :
    ∃ body ∈ bodies, ∃ raws, IsTree body raws ∧ e ∈ raws := by
  induction h with
  | here hbody htree he _ => exact ⟨_, hbody, _, htree, he⟩
  | further _ _ _ _ _ ih => exact ih

theorem inclusion_exact_plain :
    Included plainRepository (headTreeSha plainValue) ⟨"d/a".toList, List.replicate 40 '1'⟩ := by
  have hbodies : treeBodies plainValue = [dirEntry.bytes, fileEntry.bytes] := by decide +kernel
  have hcollision : ∀ e ∈ [dirEntry, fileEntry], ∀ e' ∈ [dirEntry, fileEntry],
      gitTreeSha sampleHost e.bytes = gitTreeSha sampleHost e'.bytes → e.bytes = e'.bytes := by
    decide +kernel
  refine (inclusion_exact sampleHost plainValue (by decide +kernel) plainRepository
    (by decide +kernel) ?_ _ (by decide +kernel)).1 ?_
  · rw [hbodies]
    intro body hbody id body' hbody' hsame
    obtain ⟨e, he, rfl⟩ := List.mem_map.mp (show body ∈ [dirEntry, fileEntry].map _ from hbody)
    obtain ⟨e', he', rfl⟩ := repositoryOf_tree hbody'
    exact hcollision e he e' he' hsame
  · rw [hbodies]
    intro e hway
    obtain ⟨body, hbody, raws, htree, he⟩ := hway.mem
    obtain ⟨e', he', rfl⟩ := List.mem_map.mp (show body ∈ [dirEntry, fileEntry].map _ from hbody)
    have hone : IsTree e'.bytes [e'] :=
      ⟨List.forall_mem_singleton.mpr (plain_wellFormed e' he'), List.append_nil _⟩
    cases htree.unique hone
    cases List.mem_singleton.mp he
    have hplain : ∀ e ∈ [dirEntry, fileEntry], ¬byteOrderMark <+: e.name ∧
        ∀ b ∈ e.mode, b < 0x80 := by decide +kernel
    exact ⟨(hplain e he').1, (hplain e he').2⟩

/-- The proof for `a` is accepted, and the repository has no file of that name. -/
theorem marked_accepted :
    verifyExactGitTreeInclusionProof sampleHost markedValue = true ∧
    (markedRepository.tree (headTreeSha markedValue)).isSome ∧
    (∀ body ∈ treeBodies markedValue, ∀ id body', markedRepository.tree id = some body' →
      gitTreeSha sampleHost body = gitTreeSha sampleHost body' → body = body') ∧
    ⟨"a".toList, List.replicate 40 '1'⟩ ∈ pathClaims markedValue ∧
    ¬Included markedRepository (headTreeSha markedValue)
      ⟨"a".toList, List.replicate 40 '1'⟩ := by
  refine ⟨by decide +kernel, by decide +kernel, ?_, by decide +kernel, ?_⟩
  · intro body hbody id body' hbody' _
    have hbodies : treeBodies markedValue = [markedEntry.bytes] := by decide +kernel
    rw [hbodies] at hbody
    obtain ⟨e', he', rfl⟩ := repositoryOf_tree hbody'
    rw [List.mem_singleton.mp hbody, List.mem_singleton.mp he']
  · rintro ⟨file, hwalks, -, -⟩
    have hparts : (splitPath "a".toList).map utf8 = [utf8 "a".toList] := by decide +kernel
    rw [hparts] at hwalks
    obtain ⟨body, entries, hbody, htree, d, hd, hname, -⟩ := hwalks.first
    obtain ⟨e', he', rfl⟩ := repositoryOf_tree hbody
    cases List.mem_singleton.mp he'
    have hone : IsTree markedEntry.bytes [markedEntry] :=
      ⟨List.forall_mem_singleton.mpr (marked_wellFormed _ he'), List.append_nil _⟩
    cases htree.unique hone
    cases List.mem_singleton.mp hd
    exact absurd hname (by decide)

end Agentrail.ExactGitTree
