import Agentrail.Context.Pictures

/-!
# Incremental indexing and rebuilds

The shortcuts of `build_index` compare the time of a file with the time at which
`index.json` was written, and do not look at the configuration.  `Safe` is the
condition under which the steps of a run do not come between the two: files that a
build has read stay as they are until `index.json` is written, files that it shows
are there until `freshness.json` is written, and what a later build keeps is what its
own configuration would make of the file.

`incremental_index`: in a run of such steps, a build that no write disturbs leaves
the index that a rebuild would.
-/

namespace Agentrail.Context

open Py Runs

section
variable (host : Host)

/-! ## The condition -/

/-- The build that reads files. -/
def Repo.reading (s : Repo) : Option Build :=
  match s.stage with
  | some (.reading b) => some b
  | _ => none

/-- The build that has still to write `freshness.json`. -/
def Repo.written (s : Repo) : Option Build :=
  match s.stage with
  | some (.written b) => some b
  | _ => none

/-- A running build has still to read the file, or does not see the change. -/
def Undisturbed (s : Repo) (tree : Tree) (path : Text) : Prop :=
  ∀ b ∈ s.reading, path ∈ b.todo ∨
    picture host b.settings tree path = picture host b.settings s.tree path

/-- A file written in the tick of `index.json` is as `index.json` shows it. -/
def SameTick (s : Repo) (tree : Tree) (path : Text) : Prop :=
  ∀ i ∈ s.index, ∀ l ∈ s.last, i.mtime = s.now →
    picture host l.build.settings tree path = picture host l.build.settings l.tree path

/-- A fresh index lists the files that are there, and shows them under the settings. -/
def SafeBegin (s : Repo) (st : Settings) : Prop :=
  cachedIndexIsFresh host s st.cfg = true → ∀ l ∈ s.last,
    (∀ path ∈ s.listed, path ∈ indexableEntries host st.cfg s.tree) ∧
    (∀ path ∈ indexableEntries host st.cfg s.tree,
      picture host st s.tree path = picture host l.build.settings s.tree path) ∧
    (externalSources host l.build.settings.cfg).Perm (externalSources host st.cfg)

/-- A record that is kept, for its time or for its hash, is the file's own, and the settings make
the same of the text. -/
def SafeReuse (l : Snapshot) (i : Index) (st : Settings) (path : Text) (f : File)
    (old : SourceRecord) : Prop :=
  if f.mtime ≤ i.mtime then
    Own host l path old ∧ ∀ rawText ∈ host.readText f.bytes,
      redacted host st.cfg rawText = redacted host l.build.settings.cfg rawText
  else
    ∀ r ∈ readFile host st.cfg f, old.contentHash = host.sha256Text r.text →
      Own host l path old ∧ r.text = old.content ∧
        r.findings ++ (host.redactText path).findings = old.redactions

def SafeVisit (s : Repo) (b : Build) (path : Text) : Prop :=
  ∀ f ∈ s.tree.get path, skipReason host b.settings path f = none →
    ∀ i ∈ s.index, ∀ l ∈ s.last, ∀ old ∈ i.record path, SafeReuse host l i b.settings path f old

def Safe (s : Repo) : Action → Prop
  | .write path bytes =>
    let tree := s.tree.set path { bytes := bytes, mtime := s.now }
    Undisturbed host s tree path ∧ SameTick host s tree path
  | .delete path =>
    Undisturbed host s (s.tree.erase path) path ∧
      (s.written.isSome → ∀ l ∈ s.last, picture host l.build.settings l.tree path = none)
  | .begin st => SafeBegin host s st
  | .visit => ∀ b ∈ s.reading, ∀ path ∈ b.todo.head?, SafeVisit host s b path
  | _ => True

instance (s : Repo) (tree : Tree) (path : Text) : Decidable (Undisturbed host s tree path) := by
  unfold Undisturbed
  infer_instance

instance (s : Repo) (tree : Tree) (path : Text) : Decidable (SameTick host s tree path) := by
  unfold SameTick
  infer_instance

instance (s : Repo) (st : Settings) : Decidable (SafeBegin host s st) := by
  unfold SafeBegin
  infer_instance

instance (l : Snapshot) (i : Index) (st : Settings) (path : Text) (f : File) (old : SourceRecord) :
    Decidable (SafeReuse host l i st path f old) := by
  unfold SafeReuse
  infer_instance

instance (s : Repo) (b : Build) (path : Text) : Decidable (SafeVisit host s b path) := by
  unfold SafeVisit
  infer_instance

instance (s : Repo) (a : Action) : Decidable (Safe host s a) := by
  cases a <;> unfold Safe <;> infer_instance

/-! ## What a step does -/

section
variable {host} {s t : Repo}

theorem next_begin {st : Settings} (h : next host s (.begin st) = some t) :
    s.stage = none ∧ (cachedIndexIsFresh host s st.cfg = true ∧ t = s ∨
      t = { s with stage := some (.reading (.start host st s.tree)) }) := by
  dsimp only [next] at h
  split at h
  · cases h
  · rename_i hstage
    refine ⟨hstage, ?_⟩
    by_cases hfresh : cachedIndexIsFresh host s st.cfg = true
    · rw [if_pos hfresh] at h
      exact Or.inl ⟨hfresh, (Option.some.inj h).symm⟩
    · rw [if_neg hfresh] at h
      exact Or.inr (Option.some.inj h).symm

theorem next_visit (h : next host s .visit = some t) :
    ∃ b path todo, b ∈ s.reading ∧ s.written = none ∧ b.todo = path :: todo ∧
      t = { s with
        stage := some (.reading { b.visit host s.index s.tree path with todo := todo }) } := by
  dsimp only [next] at h
  split at h
  · rename_i b hstage
    split at h
    · cases h
    · rename_i path todo htodo
      unfold Repo.reading Repo.written
      rw [hstage]
      exact ⟨b, path, todo, rfl, rfl, htodo, (Option.some.inj h).symm⟩
  · cases h

theorem next_writeIndex (h : next host s .writeIndex = some t) :
    ∃ b, b ∈ s.reading ∧ b.todo = [] ∧
      t = { s with
        index := some (b.assemble host s.now)
        stage := some (.written b)
        last := some ⟨b, s.tree⟩ } := by
  dsimp only [next] at h
  split at h
  · rename_i b hstage
    obtain ⟨htodo, ht⟩ := Option.ite_none_right_eq_some.mp h
    unfold Repo.reading
    rw [hstage]
    exact ⟨b, rfl, htodo, (Option.some.inj ht).symm⟩
  · cases h

theorem next_writeFreshness (h : next host s .writeFreshness = some t) :
    ∃ b, b ∈ s.written ∧
      t = { s with
        fingerprint := some (indexableFingerprint host b.settings.cfg s.tree)
        stage := none
        listed := indexableEntries host b.settings.cfg s.tree } := by
  dsimp only [next] at h
  split at h
  · rename_i b hstage
    unfold Repo.written
    rw [hstage]
    exact ⟨b, rfl, (Option.some.inj h).symm⟩
  · cases h

end

/-! ## The invariant -/

/-- A running build shows what it has read. -/
structure Reading (b : Build) (tree : Tree) : Prop where
  nodup : b.walked.Nodup
  walks : ∀ path ∈ b.walked, walks host b.settings.cfg path = true
  walked : ∀ path, picture host b.settings tree path ≠ none → path ∈ b.walked
  read : ∃ done, b.walked = done ++ b.todo ∧
    Depicts host (picture host b.settings tree) done [] b.records b.chunks

/-- `index.json` shows the tree it was written from, and what was not written since is as it was
then.  Where `freshness.json` is older, the files it shows are there; else they are listed. -/
structure Shown (s : Repo) (i : Index) (l : Snapshot) : Prop where
  faithful : l.Faithful host i
  current : ∀ path f, s.tree.get path = some f → f.mtime ≤ i.mtime →
    picture host l.build.settings s.tree path = picture host l.build.settings l.tree path
  written : ∀ b ∈ s.written, b = l.build ∧
    ∀ path, picture host l.build.settings l.tree path ≠ none → (s.tree.get path).isSome
  listed : s.written = none →
    ∀ path, picture host l.build.settings l.tree path ≠ none → path ∈ s.listed

structure Sound (s : Repo) : Prop where
  clock : ∀ i ∈ s.index, i.mtime ≤ s.now
  reading : ∀ b ∈ s.reading, Reading host b s.tree
  index : ∀ i ∈ s.index, ∃ l, s.last = some l ∧ Shown host s i l

variable {host}

theorem sound_emptyRepo (now : Nat) : Sound host (emptyRepo now) := by
  refine ⟨?_, ?_, ?_⟩
  · exact fun i hi => by cases hi
  · exact fun b hb => by cases hb
  · exact fun i hi => by cases hi

/-! ## Pictures and the tree -/

theorem picture_congr (st : Settings) (tree tree' : Tree) (path : Text)
    (h : tree.get path = tree'.get path) :
    picture host st tree path = picture host st tree' path := by
  unfold picture
  rw [h]

/-- A file is pictured only if it is there, the walk comes to it and it is not skipped. -/
theorem picture_ne_none (st : Settings) (tree : Tree) (path : Text)
    (h : picture host st tree path ≠ none) :
    ∃ f, tree.get path = some f ∧ walks host st.cfg path = true ∧
      skipReason host st path f = none := by
  unfold picture at h
  cases hf : tree.get path with
  | none => rw [hf] at h; exact absurd rfl h
  | some f =>
    rw [hf, Option.bind_some] at h
    unfold fileView at h
    by_cases hwalks : walks host st.cfg path && (skipReason host st path f).isNone
    · rw [Bool.and_eq_true, Option.isNone_iff_eq_none] at hwalks
      exact ⟨f, rfl, hwalks⟩
    · rw [if_neg hwalks] at h
      exact absurd rfl h

theorem indexable_of_skipReason (st : Settings) (path : Text) (f : File)
    (h : skipReason host st path f = none) : indexable host st.cfg path = true := by
  unfold skipReason at h
  unfold indexable
  by_cases hinclude : matchesAny host st.cfg.includeGlobs path false = true
  · by_cases hexclude : matchesAny host st.cfg.excludeGlobs path false = true
    · simp [hinclude, hexclude] at h
    · simp [hinclude, hexclude]
  · simp [hinclude] at h

theorem mem_walkFiles (cfg : ContextConfig) (tree : Tree) (path : Text) :
    path ∈ walkFiles host cfg tree ↔ (tree.get path).isSome ∧ walks host cfg path = true := by
  unfold walkFiles
  rw [List.mem_insertionSort, List.mem_filter]
  refine and_congr_left fun _ => ?_
  rw [List.mem_map, Option.isSome_iff_exists]
  constructor
  · rintro ⟨⟨q, f⟩, hitem, rfl⟩
    exact ⟨f, (Dict.mem_items_iff tree q f).mp hitem⟩
  · rintro ⟨f, hf⟩
    exact ⟨(path, f), (Dict.mem_items_iff tree path f).mpr hf, rfl⟩

theorem nodup_walkFiles (cfg : ContextConfig) (tree : Tree) : (walkFiles host cfg tree).Nodup := by
  unfold walkFiles
  rw [(List.perm_insertionSort _ _).nodup_iff]
  exact tree.nodup.filter _

/-- What is pictured is walked and counts for freshness. -/
theorem mem_indexableEntries_of_picture (st : Settings) (tree tree' : Tree) (path : Text)
    (h : picture host st tree path ≠ none) (hthere : (tree'.get path).isSome) :
    path ∈ indexableEntries host st.cfg tree' := by
  obtain ⟨f, _, hwalks, hskip⟩ := picture_ne_none st tree path h
  unfold indexableEntries
  rw [List.mem_filter, mem_walkFiles]
  exact ⟨⟨hthere, hwalks⟩, indexable_of_skipReason st path f hskip⟩

/-! ## Changes of the tree -/

theorem Reading.change {b : Build} {tree tree' : Tree} (h : Reading host b tree) (path : Text)
    (hother : ∀ q, q ≠ path → tree'.get q = tree.get q)
    (hsafe : path ∈ b.todo ∨
      picture host b.settings tree' path = picture host b.settings tree path) :
    Reading host b tree' := by
  obtain ⟨done, hsplit, hdepicts⟩ := h.read
  have hsame : ∀ q, q ∉ b.todo →
      picture host b.settings tree q = picture host b.settings tree' q := by
    intro q hq
    by_cases hpath : q = path
    · subst hpath
      exact (hsafe.resolve_left hq).symm
    · exact (picture_congr b.settings tree' tree q (hother q hpath)).symm
  refine ⟨h.nodup, h.walks, ?_, done, hsplit, hdepicts.congr ?_ (.refl _)⟩
  · intro q hq
    by_cases htodo : q ∈ b.todo
    · rw [hsplit]
      exact List.mem_append_right _ htodo
    · rw [← hsame q htodo] at hq
      exact h.walked q hq
  · intro q hq
    have hnodup := h.nodup
    rw [hsplit] at hnodup
    exact hsame q fun htodo => List.disjoint_of_nodup_append hnodup hq htodo

theorem Shown.change {s : Repo} {i : Index} {l : Snapshot} (h : Shown host s i l) (path : Text)
    (tree : Tree) (hother : ∀ q, q ≠ path → tree.get q = s.tree.get q)
    (htick : ∀ f, tree.get path = some f → f.mtime ≤ i.mtime →
      picture host l.build.settings tree path = picture host l.build.settings l.tree path)
    (hthere : s.written.isSome → picture host l.build.settings l.tree path ≠ none →
      (tree.get path).isSome) : Shown host { s with tree := tree } i l := by
  refine ⟨h.faithful, ?_, ?_, h.listed⟩
  · intro q f hf hmtime
    by_cases hpath : q = path
    · subst hpath
      exact htick f hf hmtime
    · have hget : tree.get q = s.tree.get q := hother q hpath
      rw [picture_congr _ tree s.tree q hget]
      exact h.current q f (hget ▸ hf) hmtime
  · intro b hb
    refine ⟨(h.written b hb).1, ?_⟩
    intro q hq
    by_cases hpath : q = path
    · subst hpath
      exact hthere (Option.isSome_iff_exists.mpr ⟨b, hb⟩) hq
    · show (tree.get q).isSome
      rw [hother q hpath]
      exact (h.written b hb).2 q hq

theorem Sound.change {s : Repo} (hs : Sound host s) (path : Text) (tree : Tree)
    (hother : ∀ q, q ≠ path → tree.get q = s.tree.get q) (hread : Undisturbed host s tree path)
    (htick : ∀ i ∈ s.index, ∀ l ∈ s.last, ∀ f, tree.get path = some f → f.mtime ≤ i.mtime →
      picture host l.build.settings tree path = picture host l.build.settings l.tree path)
    (hthere : s.written.isSome → ∀ l ∈ s.last,
      picture host l.build.settings l.tree path ≠ none → (tree.get path).isSome) :
    Sound host { s with tree := tree } := by
  refine ⟨hs.clock, ?_, ?_⟩
  · intro b hb
    exact (hs.reading b hb).change path hother (hread b hb)
  · intro i hi
    obtain ⟨l, hl, hshown⟩ := hs.index i hi
    exact ⟨l, hl, hshown.change path tree hother (htick i hi l hl)
      fun hwritten => hthere hwritten l hl⟩

theorem sound_write {s : Repo} (path : Text) (bytes : Bytes) (hs : Sound host s)
    (hsafe : Safe host s (.write path bytes)) :
    Sound host { s with tree := s.tree.set path { bytes := bytes, mtime := s.now } } := by
  obtain ⟨hread, htick⟩ := hsafe
  refine hs.change path _ ?_ hread ?_ ?_
  · intro q hq
    exact Dict.get_set_ne _ _ _ _ (Ne.symm hq)
  · intro i hi l hl f hf hmtime
    rw [Dict.get_set_self] at hf
    cases hf
    have hclock := hs.clock i hi
    exact htick i hi l hl (Nat.le_antisymm hclock hmtime)
  · intro _ l _ _
    rw [Dict.get_set_self]
    rfl

theorem sound_delete {s : Repo} (path : Text) (hs : Sound host s)
    (hsafe : Safe host s (.delete path)) :
    Sound host { s with tree := s.tree.erase path } := by
  obtain ⟨hread, hgone⟩ := hsafe
  refine hs.change path _ ?_ hread ?_ ?_
  · intro q hq
    rw [Dict.get_erase, if_neg (Ne.symm hq)]
  · intro i _ l _ f hf _
    rw [Dict.get_erase, if_pos rfl] at hf
    cases hf
  · intro hwritten l hl hpict
    exact absurd (hgone hwritten l hl) hpict

/-! ## Steps of a build -/

theorem Shown.congr {s t : Repo} {i : Index} {l : Snapshot} (h : Shown host s i l)
    (htree : t.tree = s.tree) (hwritten : t.written = s.written) (hlisted : t.listed = s.listed) :
    Shown host t i l := by
  refine ⟨h.faithful, ?_, ?_, ?_⟩
  · rw [htree]
    exact h.current
  · rw [hwritten, htree]
    exact h.written
  · rw [hwritten, hlisted]
    exact h.listed

theorem Reading.start (st : Settings) (tree : Tree) : Reading host (.start host st tree) tree := by
  refine ⟨nodup_walkFiles st.cfg tree, ?_, ?_, [], rfl, depicts_nil _⟩
  · intro path hpath
    exact ((mem_walkFiles st.cfg tree path).mp hpath).2
  · intro path hpath
    obtain ⟨f, hf, hwalks, _⟩ := picture_ne_none st tree path hpath
    exact (mem_walkFiles st.cfg tree path).mpr ⟨by rw [hf]; rfl, hwalks⟩

theorem sound_begin {s : Repo} (st : Settings) (hs : Sound host s) (hstage : s.stage = none) :
    Sound host { s with stage := some (.reading (.start host st s.tree)) } := by
  refine ⟨hs.clock, ?_, ?_⟩
  · rintro b ⟨⟩
    exact Reading.start st s.tree
  · intro i hi
    obtain ⟨l, hl, hshown⟩ := hs.index i hi
    refine ⟨l, hl, hshown.congr rfl ?_ rfl⟩
    unfold Repo.written
    rw [hstage]

theorem stands_some {path : Text} {x : Source} {y : Option RedactionResult}
    (h : Stands host path (some x) y) : ∃ r, y = some r ∧
      timeless x.1 = timeless (fileSource host path 0 r).1 ∧
      x.2.Perm (fileSource host path 0 r).2 := by
  unfold Stands at h
  cases h with
  | some hsame => exact ⟨_, rfl, hsame⟩

theorem stands_fileSource (path : Text) (mtime : Nat) (x : Option RedactionResult) :
    Stands host path (x.map (fileSource host path mtime)) x := by
  cases x with
  | none => exact .none
  | some r => exact .some ⟨rfl, .refl _⟩

/-- A record kept for the time of its file. -/
theorem Shown.stands_of_time {s : Repo} {i : Index} {l : Snapshot} (h : Shown host s i l)
    {path : Text} {f : File} {old : SourceRecord} (cfg : ContextConfig)
    (hf : s.tree.get path = some f) (hmtime : f.mtime ≤ i.mtime) (hold : i.record path = some old)
    (hown : Own host l path old)
    (htext : ∀ rawText ∈ host.readText f.bytes,
      redacted host cfg rawText = redacted host l.build.settings.cfg rawText) :
    Stands host path (some (old, i.chunksOf old.id)) (readFile host cfg f) := by
  have hstands := h.faithful.own_stands hold hown
  rw [← h.current path f hf hmtime] at hstands
  obtain ⟨r, hr, _⟩ := stands_some hstands
  have hview :
      picture host l.build.settings s.tree path = readFile host l.build.settings.cfg f := by
    unfold picture fileView at hr ⊢
    rw [hf, Option.bind_some] at hr ⊢
    split at hr
    · rename_i hcond
      rw [if_pos hcond]
    · cases hr
  have hread : readFile host cfg f = readFile host l.build.settings.cfg f :=
    Option.map_congr htext
  rw [hread, ← hview]
  exact hstands

/-- A record kept for its content. -/
theorem Shown.stands_of_content {s : Repo} {i : Index} {l : Snapshot} (h : Shown host s i l)
    {path : Text} {old : SourceRecord} (hold : i.record path = some old)
    (hown : Own host l path old) (r : RedactionResult) (htext : r.text = old.content)
    (hfindings : r.findings ++ (host.redactText path).findings = old.redactions) :
    Stands host path (some (old, i.chunksOf old.id)) (some r) := by
  have hstands := h.faithful.own_stands hold hown
  obtain ⟨r', hr', hsame, _⟩ := stands_some hstands
  obtain ⟨_, _, _, hredactions, hcontent⟩ := timeless_fields hsame
  have heq : r = r' := by
    obtain ⟨text, findings⟩ := r
    obtain ⟨text', findings'⟩ := r'
    have htexts : text = text' := htext.trans hcontent
    have hfinds : findings = findings' := List.append_cancel_right (hfindings.trans hredactions)
    rw [htexts, hfinds]
  rw [hr', ← heq] at hstands
  exact hstands

/-- **Visits.** What a safe visit appends stands for the picture of the file. -/
theorem visit_stands {s : Repo} (hs : Sound host s) (b : Build) (path : Text)
    (hwalks : walks host b.settings.cfg path = true) (hsafe : SafeVisit host s b path) :
    Stands host path ((s.tree.get path).bind (visitFile host s.index b.settings path))
      (picture host b.settings s.tree path) := by
  unfold picture
  cases hf : s.tree.get path with
  | none => exact .none
  | some f =>
    rw [Option.bind_some, Option.bind_some]
    unfold visitFile fileView
    cases hskip : skipReason host b.settings path f with
    | some reason =>
      rw [hwalks]
      exact .none
    | none =>
      rw [hwalks, if_neg (by simp), if_pos (by simp)]
      cases hlookup : s.index.bind fun i => (i.record path).map fun old => (i, old) with
      | none => exact stands_fileSource path f.mtime _
      | some found =>
        obtain ⟨i, hi, hfound⟩ := Option.bind_eq_some_iff.mp hlookup
        obtain ⟨old, hold, rfl⟩ := Option.map_eq_some_iff.mp hfound
        obtain ⟨l, hl, hshown⟩ := hs.index i hi
        have hreuse := hsafe f hf hskip i hi l hl old hold
        unfold SafeReuse at hreuse
        dsimp only
        by_cases hmtime : f.mtime ≤ i.mtime
        · rw [if_pos hmtime] at hreuse ⊢
          exact hshown.stands_of_time b.settings.cfg hf hmtime hold hreuse.1 hreuse.2
        · rw [if_neg hmtime] at hreuse ⊢
          cases hread : readFile host b.settings.cfg f with
          | none => exact .none
          | some r =>
            rw [Option.map_some]
            by_cases hhash : old.contentHash = host.sha256Text r.text
            · rw [if_pos hhash]
              obtain ⟨hown, htext, hfindings⟩ := hreuse r hread hhash
              exact hshown.stands_of_content hold hown r htext hfindings
            · rw [if_neg hhash]
              exact .some ⟨rfl, .refl _⟩

theorem Reading.visit {s : Repo} (hs : Sound host s) {b : Build} (hb : b ∈ s.reading)
    (path : Text) (todo : List Text) (htodo : b.todo = path :: todo)
    (hsafe : SafeVisit host s b path) :
    Reading host { b.visit host s.index s.tree path with todo := todo } s.tree := by
  obtain ⟨hnodup, hwalks, hwalked, done, hsplit, hdepicts⟩ := hs.reading b hb
  rw [htodo] at hsplit
  refine ⟨hnodup, hwalks, hwalked, done ++ [path], ?_, ?_⟩
  · show b.walked = _
    rw [hsplit, List.append_assoc]
    rfl
  · have hmem : path ∈ b.walked := by
      rw [hsplit]
      exact List.mem_append_right _ List.mem_cons_self
    exact hdepicts.visit path _ (visit_stands hs b path (hwalks path hmem) hsafe)

theorem sound_visit {s : Repo} (hs : Sound host s) {b : Build} (hb : b ∈ s.reading)
    (hwritten : s.written = none) (path : Text) (todo : List Text)
    (htodo : b.todo = path :: todo) (hsafe : SafeVisit host s b path) :
    Sound host { s with
      stage := some (.reading { b.visit host s.index s.tree path with todo := todo }) } := by
  refine ⟨hs.clock, ?_, ?_⟩
  · rintro b' ⟨⟩
    exact Reading.visit hs hb path todo htodo hsafe
  · intro i hi
    obtain ⟨l, hl, hshown⟩ := hs.index i hi
    exact ⟨l, hl, hshown.congr rfl hwritten.symm rfl⟩

/-- A build that has read everything shows the tree. -/
theorem Reading.depicts {b : Build} {tree : Tree} (h : Reading host b tree) (htodo : b.todo = []) :
    Depicts host (picture host b.settings tree) b.walked [] b.records b.chunks := by
  obtain ⟨done, hsplit, hdepicts⟩ := h.read
  rw [htodo, List.append_nil] at hsplit
  rw [hsplit]
  exact hdepicts

theorem sound_writeIndex {s : Repo} {b : Build} (hs : Sound host s) (hb : b ∈ s.reading)
    (htodo : b.todo = []) :
    Sound host { s with
      index := some (b.assemble host s.now)
      stage := some (.written b)
      last := some ⟨b, s.tree⟩ } := by
  have hread := hs.reading b hb
  refine ⟨?_, ?_, ?_⟩
  · rintro i ⟨⟩
    exact Nat.le_refl s.now
  · rintro b' ⟨⟩
  · rintro i ⟨⟩
    refine ⟨⟨b, s.tree⟩, rfl,
      ⟨hread.nodup, hread.walked, (hread.depicts htodo).assemble s.now⟩,
      fun _ _ _ _ => rfl, ?_, ?_⟩
    · rintro b' ⟨⟩
      refine ⟨rfl, ?_⟩
      intro path hpath
      obtain ⟨f, hf, _⟩ := picture_ne_none b.settings s.tree path hpath
      show (s.tree.get path).isSome
      rw [hf]
      rfl
    · rintro ⟨⟩

theorem sound_writeFreshness {s : Repo} {b : Build} (hs : Sound host s) (hb : b ∈ s.written) :
    Sound host { s with
      fingerprint := some (indexableFingerprint host b.settings.cfg s.tree)
      stage := none
      listed := indexableEntries host b.settings.cfg s.tree } := by
  refine ⟨hs.clock, ?_, ?_⟩
  · rintro b' ⟨⟩
  · intro i hi
    obtain ⟨l, hl, hshown⟩ := hs.index i hi
    obtain ⟨rfl, hthere⟩ := hshown.written b hb
    refine ⟨l, hl, hshown.faithful, hshown.current, ?_, ?_⟩
    · rintro b' ⟨⟩
    · intro _ path hpath
      exact mem_indexableEntries_of_picture _ l.tree s.tree path hpath (hthere path hpath)

/-- **One step.** -/
theorem sound_next (s : Repo) (a : Action) (t : Repo) (hnext : next host s a = some t)
    (hs : Sound host s) (hsafe : Safe host s a) : Sound host t := by
  cases a with
  | write path bytes =>
    obtain ⟨_, ht⟩ := Option.ite_none_left_eq_some.mp hnext
    cases ht
    exact sound_write path bytes hs hsafe
  | delete path =>
    obtain ⟨f, _, rfl⟩ := Option.map_eq_some_iff.mp hnext
    exact sound_delete path hs hsafe
  | wait time =>
    cases hnext
    refine ⟨fun i hi => Nat.le_add_right_of_le (hs.clock i hi), hs.reading, ?_⟩
    intro i hi
    obtain ⟨l, hl, hshown⟩ := hs.index i hi
    exact ⟨l, hl, hshown.congr rfl rfl rfl⟩
  | begin st =>
    obtain ⟨hstage, ⟨_, rfl⟩ | rfl⟩ := next_begin hnext
    · exact hs
    · exact sound_begin st hs hstage
  | visit =>
    obtain ⟨b, path, todo, hb, hwritten, htodo, rfl⟩ := next_visit hnext
    refine sound_visit hs hb hwritten path todo htodo (hsafe b hb path ?_)
    rw [htodo]
    rfl
  | writeIndex =>
    obtain ⟨b, hb, htodo, rfl⟩ := next_writeIndex hnext
    exact sound_writeIndex hs hb htodo
  | writeFreshness =>
    obtain ⟨b, hb, rfl⟩ := next_writeFreshness hnext
    exact sound_writeFreshness hs hb

/-! ## Rebuilds -/

/-- A visit without an index. -/
theorem visitFile_none (st : Settings) (tree : Tree) (path : Text)
    (hwalks : walks host st.cfg path = true) :
    Stands host path ((tree.get path).bind (visitFile host none st path))
      (picture host st tree path) := by
  unfold picture
  cases tree.get path with
  | none => exact .none
  | some f =>
    rw [Option.bind_some, Option.bind_some]
    unfold visitFile fileView
    rw [hwalks]
    cases skipReason host st path f with
    | some reason => exact .none
    | none => exact stands_fileSource path f.mtime _

theorem depicts_visits (tree : Tree) (paths done : List Text) (b : Build)
    (hwalks : ∀ path ∈ paths, walks host b.settings.cfg path = true)
    (h : Depicts host (picture host b.settings tree) done [] b.records b.chunks) :
    let b' := paths.foldl (fun b path => b.visit host none tree path) b
    b'.settings = b.settings ∧
      Depicts host (picture host b.settings tree) (done ++ paths) [] b'.records b'.chunks := by
  induction paths generalizing done b with
  | nil =>
    rw [List.append_nil]
    exact ⟨rfl, h⟩
  | cons path paths ih =>
    rw [List.forall_mem_cons] at hwalks
    have hvisit := h.visit path _ (visitFile_none b.settings tree path hwalks.1)
    rw [List.append_cons]
    exact ih (done ++ [path]) (b.visit host none tree path) hwalks.2 hvisit

theorem rebuild_shows (st : Settings) (tree : Tree) (now : Nat) :
    Shows host st tree (rebuild host st tree now) := by
  have hstart : Reading host (.start host st tree) tree := Reading.start st tree
  obtain ⟨hsettings, hdepicts⟩ := depicts_visits tree (walkFiles host st.cfg tree) []
    (.start host st tree) hstart.walks (depicts_nil _)
  refine ⟨walkFiles host st.cfg tree, hstart.nodup, hstart.walked, ?_⟩
  have hall := hdepicts.assemble now
  rw [hsettings] at hall
  exact hall

/-- The steps of a build from its first file to its last. -/
theorem run_visits (s : Repo) (b : Build) (paths : List Text) (hindex : s.index = none) :
    run (next host) { s with stage := some (.reading { b with todo := paths }) }
        (List.replicate paths.length .visit) =
      some { s with stage := some (.reading
        { paths.foldl (fun b path => b.visit host none s.tree path) b with todo := [] }) } := by
  induction paths generalizing b with
  | nil => rfl
  | cons path paths ih =>
    have hvisit : next host
        { s with stage := some (.reading { b with todo := path :: paths }) } .visit =
        some { s with stage := some (.reading
          { b.visit host none s.tree path with todo := paths }) } := by
      simp only [next, hindex]
      rfl
    show (next host _ .visit).bind _ = _
    rw [hvisit, Option.bind_some]
    exact ih (b.visit host none s.tree path)

theorem fresh_spec {s : Repo} {cfg : ContextConfig} (h : cachedIndexIsFresh host s cfg = true) :
    ∃ i, s.index = some i ∧ ∀ path ∈ indexableEntries host cfg s.tree,
      ∃ f, s.tree.get path = some f ∧ f.mtime ≤ i.mtime := by
  unfold cachedIndexIsFresh at h
  split at h
  · rename_i i fingerprint hindex hfingerprint
    rw [Bool.and_eq_true, List.all_eq_true] at h
    refine ⟨i, hindex, ?_⟩
    intro path hpath
    have hany := h.2 path hpath
    cases hf : s.tree.get path with
    | none => rw [hf] at hany; cases hany
    | some f =>
      rw [hf] at hany
      exact ⟨f, rfl, of_decide_eq_true hany⟩
  · cases h

/-- **The cache.** -/
theorem fresh_shows {s : Repo} (hs : Sound host s) (st : Settings) (hstage : s.stage = none)
    (hfresh : cachedIndexIsFresh host s st.cfg = true) (hsafe : SafeBegin host s st) :
    ∃ i, s.index = some i ∧ Shows host st s.tree i := by
  obtain ⟨i, hi, hentries⟩ := fresh_spec hfresh
  obtain ⟨l, hl, hshown⟩ := hs.index i hi
  obtain ⟨hlisted, hsettings, hexternals⟩ := hsafe hfresh l hl
  have hwritten : s.written = none := by
    unfold Repo.written
    rw [hstage]
  have hpict : ∀ path, picture host l.build.settings l.tree path = picture host st s.tree path := by
    intro path
    by_cases hpath : path ∈ indexableEntries host st.cfg s.tree
    · obtain ⟨f, hf, hmtime⟩ := hentries path hpath
      rw [hsettings path hpath, hshown.current path f hf hmtime]
    · have hthen : picture host l.build.settings l.tree path = none := by
        by_contra hne
        exact hpath (hlisted path (hshown.listed hwritten path hne))
      have hnow : picture host st s.tree path = none := by
        by_contra hne
        obtain ⟨f, hf, _⟩ := picture_ne_none st s.tree path hne
        exact hpath (mem_indexableEntries_of_picture st s.tree s.tree path hne (by rw [hf]; rfl))
      rw [hthen, hnow]
  refine ⟨i, hi, l.build.walked, hshown.faithful.nodup, ?_, ?_⟩
  · intro path hpath
    rw [← hpict path] at hpath
    exact hshown.faithful.walked path hpath
  · exact hshown.faithful.depicts.congr (fun path _ => hpict path) hexternals

/-! ### What a fresh index lists -/

theorem joinWith_ne_nil (sep : Char) (parts : List Text) (hparts : parts ≠ [])
    (h : ∀ part ∈ parts, part ≠ [] ∧ sep ∉ part) : joinWith sep parts ≠ [] := by
  intro hjoin
  have hsplit := List.splitOn_intercalate sep (fun part hpart => (h part hpart).2) hparts
  rw [show List.intercalate [sep] parts = [] from hjoin] at hsplit
  have hmem : ([] : Text) ∈ parts := by
    rw [← hsplit]
    exact List.mem_cons_self
  exact (h [] hmem).1 rfl

theorem joinWith_injective (sep : Char) (parts parts' : List Text)
    (h : ∀ part ∈ parts, part ≠ [] ∧ sep ∉ part) (h' : ∀ part ∈ parts', part ≠ [] ∧ sep ∉ part)
    (heq : joinWith sep parts = joinWith sep parts') : parts = parts' := by
  by_cases hparts : parts = []
  · subst hparts
    by_contra hne
    exact joinWith_ne_nil sep parts' (Ne.symm hne) h' heq.symm
  · have hparts' : parts' ≠ [] := by
      rintro rfl
      exact joinWith_ne_nil sep parts hparts h heq
    rw [← List.splitOn_intercalate sep (fun part hpart => (h part hpart).2) hparts,
      ← List.splitOn_intercalate sep (fun part hpart => (h' part hpart).2) hparts']
    exact congrArg (List.splitOn sep) heq

/-- The text that a fingerprint is the hash of. -/
def listing (paths : List Text) : Text := joinWith '\n' (paths.insertionSort fun p q => p ≤ q)

theorem listing_perm (paths paths' : List Text) (h : ∀ path ∈ paths, path ≠ [] ∧ '\n' ∉ path)
    (h' : ∀ path ∈ paths', path ≠ [] ∧ '\n' ∉ path) (heq : listing paths = listing paths') :
    paths.Perm paths' := by
  have hsort := joinWith_injective '\n' _ _
    (fun path hpath => h path ((List.mem_insertionSort _).mp hpath))
    (fun path hpath => h' path ((List.mem_insertionSort _).mp hpath)) heq
  have hperm := List.perm_insertionSort (fun p q : Text => p ≤ q) paths
  rw [hsort] at hperm
  exact hperm.symm.trans (List.perm_insertionSort _ paths')

/-- `freshness.json` holds the fingerprint of the names that are listed. -/
theorem fingerprint_listed (now : Nat) (as : List Action) (s : Repo)
    (h : run (next host) (emptyRepo now) as = some s) :
    ∀ fingerprint ∈ s.fingerprint, fingerprint = fingerprintOf host s.listed := by
  refine invariant (I := fun s => ∀ fingerprint ∈ s.fingerprint,
    fingerprint = fingerprintOf host s.listed) ?_ h (fun fingerprint hnone => by cases hnone)
  intro s a t hnext hs
  cases a with
  | write path bytes =>
    obtain ⟨_, ht⟩ := Option.ite_none_left_eq_some.mp hnext
    cases ht
    exact hs
  | delete path =>
    obtain ⟨f, _, rfl⟩ := Option.map_eq_some_iff.mp hnext
    exact hs
  | wait time =>
    cases hnext
    exact hs
  | begin st =>
    obtain ⟨_, ⟨_, rfl⟩ | rfl⟩ := next_begin hnext
    · exact hs
    · exact hs
  | visit =>
    obtain ⟨b, path, todo, _, _, _, rfl⟩ := next_visit hnext
    exact hs
  | writeIndex =>
    obtain ⟨b, _, _, rfl⟩ := next_writeIndex hnext
    exact hs
  | writeFreshness =>
    obtain ⟨b, _, rfl⟩ := next_writeFreshness hnext
    rintro fingerprint ⟨⟩
    rfl

end

/-- A step of a build, or none. -/
def Action.quiet : Action → Bool
  | .wait _ | .visit | .writeIndex | .writeFreshness => true
  | _ => false

section
variable (host : Host)

/-- The build under these settings is on its way, or the index shows the tree. -/
structure Settling (st : Settings) (tree : Tree) (s : Repo) : Prop where
  still : s.tree = tree
  settings : ∀ b ∈ s.reading, b.settings = st
  shows : s.reading = none → ∃ i, s.index = some i ∧ Shows host st tree i

variable {host}

theorem settling_begin {s t : Repo} {st : Settings} (hs : Sound host s)
    (hsafe : SafeBegin host s st) (hnext : next host s (.begin st) = some t) :
    Settling host st s.tree t := by
  obtain ⟨hstage, ⟨hfresh, rfl⟩ | rfl⟩ := next_begin hnext
  · refine ⟨rfl, ?_, fun _ => fresh_shows hs st hstage hfresh hsafe⟩
    intro b hb
    unfold Repo.reading at hb
    rw [hstage] at hb
    cases hb
  · refine ⟨rfl, ?_, ?_⟩
    · rintro b ⟨⟩
      rfl
    · rintro ⟨⟩

theorem settling_next {s t : Repo} {a : Action} {st : Settings} {tree : Tree} (hs : Sound host s)
    (hquiet : a.quiet = true) (hnext : next host s a = some t) (h : Settling host st tree s) :
    Settling host st tree t := by
  obtain ⟨rfl, hsettings, hshows⟩ := h
  cases a with
  | write path bytes => cases hquiet
  | delete path => cases hquiet
  | begin st => cases hquiet
  | wait time =>
    cases hnext
    exact ⟨rfl, hsettings, hshows⟩
  | visit =>
    obtain ⟨b, path, todo, hb, _, _, rfl⟩ := next_visit hnext
    refine ⟨rfl, ?_, ?_⟩
    · rintro b' ⟨⟩
      exact hsettings b hb
    · rintro ⟨⟩
  | writeIndex =>
    obtain ⟨b, hb, htodo, rfl⟩ := next_writeIndex hnext
    obtain rfl := hsettings b hb
    have hread := hs.reading b hb
    refine ⟨rfl, ?_, ?_⟩
    · rintro b' ⟨⟩
    · exact fun _ => ⟨_, rfl, b.walked, hread.nodup, hread.walked,
        (hread.depicts htodo).assemble s.now⟩
  | writeFreshness =>
    obtain ⟨b, hb, rfl⟩ := next_writeFreshness hnext
    refine ⟨rfl, ?_, ?_⟩
    · rintro b' ⟨⟩
    · intro _
      refine hshows ?_
      unfold Repo.written at hb
      unfold Repo.reading
      split at hb
      · rename_i hstage
        rw [hstage]
      · cases hb

/-- **Incremental indexing.** In a run of safe steps, a build that nothing disturbs leaves the index
that a rebuild of the tree would. -/
theorem incremental_index (host : Host) (now : Nat) (before during : List Action)
    (st : Settings) (s t : Repo)
    (hbefore : run (next host) (emptyRepo now) before = some s)
    (hrun : run (next host) s (.begin st :: during) = some t)
    (hsafe : Throughout (next host) (Safe host) (emptyRepo now) (before ++ .begin st :: during))
    (hquiet : ∀ a ∈ during, a.quiet = true) (hdone : t.stage = none) :
    ∃ i, t.index = some i ∧ Same i (rebuild host st s.tree t.now) := by
  obtain ⟨hsafeBefore, hsafeBegin, hsafeDuring⟩ := hsafe.append hbefore
  have hs : Sound host s :=
    (always_of_throughout sound_next hsafeBefore (sound_emptyRepo now)).finish hbefore
  obtain ⟨u, hu, hrun'⟩ := run_cons hrun
  have hstart : Sound host u ∧ Settling host st s.tree u :=
    ⟨sound_next s _ u hu hs hsafeBegin, settling_begin hs hsafeBegin hu⟩
  have hstep : ∀ v a w, next host v a = some w → Sound host v ∧ Settling host st s.tree v →
      Safe host v a ∧ a.quiet = true → Sound host w ∧ Settling host st s.tree w := by
    rintro v a w hnext ⟨hv, hsettling⟩ ⟨hsafe, hquiet⟩
    exact ⟨sound_next v a w hnext hv hsafe, settling_next hv hquiet hnext hsettling⟩
  have hthroughout := (hsafeDuring u hu).and_forall hquiet
  obtain ⟨_, _, _, hshows⟩ := (always_of_throughout hstep hthroughout hstart).finish hrun'
  have hreading : t.reading = none := by
    unfold Repo.reading
    rw [hdone]
  obtain ⟨i, hi, hi'⟩ := hshows hreading
  exact ⟨i, hi, hi'.same (rebuild_shows st s.tree t.now)⟩

end

/-! ## Two runs -/

section

/-- Short ASCII documents without secrets, whose names match no exclusion. -/
def documents : Host where
  matchesGlob glob _ _ := glob = "**/*".toList
  redactText text := ⟨text, []⟩
  sha256Text text :=
    if text = "a.md".toList then
      "sha256:fecccc97532467adbf93017b357c8b17e0c75527df76a143de5cfecc2613f615".toList
    else if text = "a.md\nb.md".toList then
      "sha256:27fa05617430ccf16e4bbed135696d67de5112452b852e472fd13aa7caa53104".toList
    else if text = "a.md\nb.md\nc.md".toList then
      "sha256:10abc0811381c2dd7b645be3b76e35fbccab395c9b2e08e28b5ba87319effe12".toList
    else if text = "one".toList then
      "sha256:7692c3ad3540bb803c020b3aee66cd8887123234ea0c6e7143c0add73ff431ed".toList
    else if text = "two".toList then
      "sha256:3fc4ccfe745870e2c0d99f71f30ff0656c8dedd41cc1d7d3d376b0dbe685e2f3".toList
    else text
  readText bytes :=
    if bytes.all (· < 128) then some (bytes.map fun b => Char.ofNat b.toNat) else none
  pieces _ text := [("document".toList, text)]

def documentSettings : Settings where
  cfg := { excludeGlobs := [".agentrail/context/**".toList] }

def writeText (path text : String) : Action := .write path.toList (utf8Encode text.toList)

def twoDocuments : List Action :=
  [writeText "a.md" "one", writeText "b.md" "two", .wait 1, .begin documentSettings, .visit,
    .visit, .writeIndex, .writeFreshness, .wait 1, writeText "b.md" "two",
    writeText "c.md" "one", .wait 1]

def builtOnce : List Action := twoDocuments.take 8

def afterBuild : Repo := (run (next documents) (emptyRepo 0) builtOnce).get (by decide +kernel)

def threeVisits : List Action := [.visit, .visit, .visit, .writeIndex, .writeFreshness]

/-- A file kept for its time, one that was touched, and a new one. -/
theorem incremental_index_documents : ∃ s t i,
    run (next documents) (emptyRepo 0) twoDocuments = some s ∧
    run (next documents) s (.begin documentSettings :: threeVisits) = some t ∧
    t.index = some i ∧ i.records.map SourceRecord.modifiedAt = [some 0, some 0, some 2] ∧
    Same i (rebuild documents documentSettings s.tree t.now) := by
  obtain ⟨s, hs⟩ : ∃ s, run (next documents) (emptyRepo 0) twoDocuments = some s :=
    Option.isSome_iff_exists.mp (by decide +kernel)
  have hruns : (((run (next documents) (emptyRepo 0) twoDocuments).bind fun s =>
      run (next documents) s (.begin documentSettings :: threeVisits)).map fun t =>
        (t.stage, t.index.map fun i => i.records.map SourceRecord.modifiedAt)) =
      some (none, some [some 0, some 0, some 2]) := by
    decide +kernel
  rw [hs, Option.bind_some] at hruns
  obtain ⟨t, ht, hend⟩ := Option.map_eq_some_iff.mp hruns
  rw [Prod.mk.injEq] at hend
  obtain ⟨i, hi, hsame⟩ := incremental_index documents 0 twoDocuments threeVisits
    documentSettings s t hs ht (by decide +kernel) (by decide) hend.1
  have htimes := hend.2
  rw [hi, Option.map_some] at htimes
  exact ⟨s, t, i, hs, ht, hi, Option.some.inj htimes, hsame⟩

def editDuringBuild : List Action :=
  [writeText "a.md" "one", .wait 1, .begin documentSettings, .visit, .wait 1,
    writeText "a.md" "two", .wait 1, .writeIndex, .writeFreshness]

/-- A file that is written after a build has read it and before `index.json` is: the next build
takes the index for fresh. -/
theorem incremental_index_stale :
    ¬ ∀ (host : Host) (now : Nat) (before during : List Action) (st : Settings) (s t : Repo),
      run (next host) (emptyRepo now) before = some s →
      run (next host) s (.begin st :: during) = some t →
      (∀ a ∈ during, a.quiet = true) → t.stage = none →
      ∃ i, t.index = some i ∧ Same i (rebuild host st s.tree t.now) := by
  intro h
  have hruns : ((run (next documents) (emptyRepo 0) editDuringBuild).bind fun s =>
      (run (next documents) s [.begin documentSettings]).map fun t =>
        (t.stage, t.index.map fun i => i.records.map SourceRecord.content,
          (rebuild documents documentSettings s.tree t.now).records.map SourceRecord.content)) =
      some (none, some ["one".toList], ["two".toList]) := by
    decide +kernel
  obtain ⟨s, hs, hruns'⟩ := Option.bind_eq_some_iff.mp hruns
  obtain ⟨t, ht, hend⟩ := Option.map_eq_some_iff.mp hruns'
  rw [Prod.mk.injEq, Prod.mk.injEq] at hend
  obtain ⟨hstage, hindex, hrebuild⟩ := hend
  obtain ⟨i, hi, hsame⟩ := h documents 0 editDuringBuild [] documentSettings s t hs ht
    (List.forall_mem_nil _) hstage
  rw [hi, Option.map_some, Option.some.injEq] at hindex
  have hcontents := hsame.contents
  rw [hindex, hrebuild] at hcontents
  exact absurd (List.perm_singleton.mp hcontents) (by decide)

end

end Agentrail.Context
