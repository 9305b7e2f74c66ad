import Agentrail.Context.BuildIndex

/-!
# Pictures of a repository

`picture` is what a build makes of each file of a tree, `Depicts` says that records
and chunks show a picture, and `Shows` that an index shows all of a tree.  Two
indexes that show the same are the same but for times and order (`Shows.same`).

`Snapshot.Faithful.own_stands`: an old record that is the file's own, with its
chunks, stands for the picture of the file.
-/

namespace Agentrail.Context

open Py

/-! ## Sources of a list of files -/

section
variable (host : Host)

/-- What a build indexes of a file, if it does not skip it. -/
def fileView (st : Settings) (path : Text) (f : File) : Option RedactionResult :=
  if walks host st.cfg path && (skipReason host st path f).isNone then readFile host st.cfg f
  else none

/-- What a build indexes of each file of a tree. -/
def picture (st : Settings) (tree : Tree) (path : Text) : Option RedactionResult :=
  (tree.get path).bind (fileView host st path)

/-- A record without the time of its file. -/
def timeless (r : SourceRecord) : SourceRecord := { r with modifiedAt := none }

theorem timeless_fields {r r' : SourceRecord} (h : timeless r = timeless r') :
    r.id = r'.id ∧ r.path = r'.path ∧ r.contentHash = r'.contentHash ∧
      r.redactions = r'.redactions ∧ r.content = r'.content := by
  unfold timeless at h
  rw [SourceRecord.mk.injEq] at h
  obtain ⟨hid, hpath, hhash, _, _, hredactions, hcontent⟩ := h
  exact ⟨hid, hpath, hhash, hredactions, hcontent⟩

/-- The sources of the files, in the order of the paths. -/
def sources (pict : Text → Option RedactionResult) (paths : List Text) : List Source :=
  paths.flatMap fun path => ((pict path).map (fileSource host path 0)).toList

/-- The records and chunks are those of the pictured files and of other sources. -/
structure Depicts (pict : Text → Option RedactionResult) (paths : List Text)
    (others : List Source) (records : List SourceRecord) (chunks : List ChunkRecord) : Prop where
  records : (records.map timeless).Perm
    ((sources host pict paths ++ others).map fun x => timeless x.1)
  chunks : chunks.Perm ((sources host pict paths ++ others).flatMap Prod.snd)

/-- The source stands for the view of the file. -/
def Stands (path : Text) (x : Option Source) (r : Option RedactionResult) : Prop :=
  Option.Rel (fun x r => timeless x.1 = timeless (fileSource host path 0 r).1 ∧
    x.2.Perm (fileSource host path 0 r).2) x r

variable {host}

theorem mem_sources (pict : Text → Option RedactionResult) (paths : List Text) (x : Source) :
    x ∈ sources host pict paths ↔
      ∃ path ∈ paths, ∃ r, pict path = some r ∧ fileSource host path 0 r = x := by
  unfold sources
  rw [List.mem_flatMap]
  refine exists_congr fun path => and_congr_right fun _ => ?_
  rw [Option.mem_toList, Option.map_eq_some_iff]

theorem sources_congr (pict pict' : Text → Option RedactionResult) (paths : List Text)
    (h : ∀ path ∈ paths, pict path = pict' path) :
    sources host pict paths = sources host pict' paths := by
  unfold sources
  refine List.flatMap_congr fun path hpath => ?_
  rw [h path hpath]

/-- Files that are not pictured do not count. -/
theorem sources_filter (pict : Text → Option RedactionResult) (paths : List Text) :
    sources host pict (paths.filter fun path => (pict path).isSome) = sources host pict paths := by
  unfold sources
  induction paths with
  | nil => rfl
  | cons path paths ih =>
    cases hpict : pict path with
    | none => rw [List.filter_cons_of_neg (by simp [hpict]), ih, List.flatMap_cons, hpict]; rfl
    | some r =>
      rw [List.filter_cons_of_pos (by simp [hpict]), List.flatMap_cons, List.flatMap_cons, ih]

/-- The order of the files does not matter, nor do those that are not pictured. -/
theorem sources_perm (pict : Text → Option RedactionResult) (paths paths' : List Text)
    (hpaths : paths.Nodup) (hpaths' : paths'.Nodup)
    (h : ∀ path, pict path ≠ none → (path ∈ paths ↔ path ∈ paths')) :
    (sources host pict paths).Perm (sources host pict paths') := by
  rw [← sources_filter pict paths, ← sources_filter pict paths']
  refine List.Perm.flatMap_right _ ?_
  rw [List.perm_ext_iff_of_nodup (hpaths.filter _) (hpaths'.filter _)]
  intro path
  rw [List.mem_filter, List.mem_filter]
  refine and_congr_left fun hsome => h path ?_
  exact Option.isSome_iff_ne_none.mp hsome

theorem depicts_nil (pict : Text → Option RedactionResult) : Depicts host pict [] [] [] [] :=
  ⟨.nil, .nil⟩

/-- One more file. -/
theorem Depicts.visit {pict : Text → Option RedactionResult} {paths : List Text} {b : Build}
    (h : Depicts host pict paths [] b.records b.chunks) (path : Text) (x : Option Source)
    (hx : Stands host path x (pict path)) :
    Depicts host pict (paths ++ [path]) [] (b.append x.toList).records
      (b.append x.toList).chunks := by
  unfold Stands at hx
  have hsources : sources host pict (paths ++ [path]) ++ [] =
      (sources host pict paths ++ []) ++ ((pict path).map (fileSource host path 0)).toList := by
    simp [sources]
  constructor
  · rw [hsources, List.map_append]
    show (List.map timeless (b.records ++ _)).Perm _
    rw [List.map_append]
    refine h.records.append ?_
    generalize pict path = r at hx
    cases hx with
    | none => exact .nil
    | some hsame =>
      simp only [Option.toList_some, List.map_cons, List.map_nil, Option.map_some]
      rw [hsame.1]
  · rw [hsources, List.flatMap_append]
    show (b.chunks ++ _).Perm _
    refine h.chunks.append ?_
    generalize pict path = r at hx
    cases hx with
    | none => exact .nil
    | some hsame => simpa using hsame.2

/-- The external descriptors and the sort. -/
theorem Depicts.assemble {pict : Text → Option RedactionResult} {paths : List Text} {b : Build}
    (h : Depicts host pict paths [] b.records b.chunks) (now : Nat) :
    Depicts host pict paths (externalSources host b.settings.cfg) (b.assemble host now).records
      (b.assemble host now).chunks := by
  obtain ⟨hrecords, hchunks⟩ := h
  rw [List.append_nil] at hrecords hchunks
  constructor
  · refine ((List.perm_insertionSort _ _).map timeless).trans ?_
    show (List.map timeless (b.records ++ _)).Perm _
    rw [List.map_append, List.map_append, List.map_map]
    exact hrecords.append (.refl _)
  · refine (List.perm_insertionSort _ _).trans ?_
    show (b.chunks ++ _).Perm _
    rw [List.flatMap_append]
    exact hchunks.append (.refl _)

/-! ## Two indexes -/

/-- The same records, but for the times of their files, and the same chunks. -/
def Same (i j : Index) : Prop :=
  (i.records.map timeless).Perm (j.records.map timeless) ∧ i.chunks.Perm j.chunks

theorem Same.contents {i j : Index} (h : Same i j) :
    (i.records.map SourceRecord.content).Perm (j.records.map SourceRecord.content) := by
  have hmap := h.1.map SourceRecord.content
  rw [List.map_map, List.map_map] at hmap
  exact hmap

variable (host) in
/-- The index shows the whole tree and the external descriptors. -/
def Shows (st : Settings) (tree : Tree) (i : Index) : Prop :=
  ∃ paths : List Text, paths.Nodup ∧ (∀ path, picture host st tree path ≠ none → path ∈ paths) ∧
    Depicts host (picture host st tree) paths (externalSources host st.cfg) i.records i.chunks

theorem Shows.same {st : Settings} {tree : Tree} {i j : Index} (hi : Shows host st tree i)
    (hj : Shows host st tree j) : Same i j := by
  obtain ⟨paths, hpaths, hin, hrecords, hchunks⟩ := hi
  obtain ⟨paths', hpaths', hin', hrecords', hchunks'⟩ := hj
  have hsources : (sources host (picture host st tree) paths).Perm
      (sources host (picture host st tree) paths') :=
    sources_perm _ _ _ hpaths hpaths' fun path hpath =>
      ⟨fun _ => hin' path hpath, fun _ => hin path hpath⟩
  have hperm := hsources.append_right (externalSources host st.cfg)
  constructor
  · exact hrecords.trans ((hperm.map _).trans hrecords'.symm)
  · exact hchunks.trans ((hperm.flatMap_right _).trans hchunks'.symm)

theorem Depicts.congr {pict pict' : Text → Option RedactionResult} {paths : List Text}
    {others others' : List Source} {records : List SourceRecord} {chunks : List ChunkRecord}
    (h : Depicts host pict paths others records chunks)
    (hpict : ∀ path ∈ paths, pict path = pict' path) (hothers : others.Perm others') :
    Depicts host pict' paths others' records chunks := by
  have hperm : (sources host pict paths ++ others).Perm (sources host pict' paths ++ others') := by
    rw [sources_congr pict pict' paths hpict]
    exact hothers.append_left _
  exact ⟨h.records.trans (hperm.map _), h.chunks.trans (hperm.flatMap_right _)⟩

/-! ## Reused records -/

theorem sourceId_injective : Function.Injective sourceId := fun _ _ h => List.append_cancel_left h

theorem flatMap_unique {α β : Type*} (f : α → List β) (xs : List α) (x : α) (hxs : xs.Nodup)
    (hx : x ∈ xs) (h : ∀ y ∈ xs, y ≠ x → f y = []) : xs.flatMap f = f x := by
  induction xs with
  | nil => cases hx
  | cons y ys ih =>
    rw [List.nodup_cons] at hxs
    rw [List.flatMap_cons]
    by_cases hy : y = x
    · subst hy
      have hrest : ys.flatMap f = [] := by
        rw [List.flatMap_eq_nil_iff]
        intro z hz
        exact h z (List.mem_cons_of_mem _ hz) fun he => hxs.1 (he ▸ hz)
      rw [hrest, List.append_nil]
    · have hmem : x ∈ ys := (List.mem_cons.mp hx).resolve_left (Ne.symm hy)
      rw [h y List.mem_cons_self hy, List.nil_append]
      exact ih hxs.2 hmem fun z hz => h z (List.mem_cons_of_mem _ hz)

theorem sourceId_of_mem_fileSource (path : Text) (mtime : Nat) (r : RedactionResult)
    (c : ChunkRecord) (hc : c ∈ (fileSource host path mtime r).2) :
    c.sourceId = sourceId (host.redactText path).text := by
  obtain ⟨piece, _, rfl⟩ := List.mem_map.mp hc
  rfl

theorem sourceId_of_mem_externalSources (cfg : ContextConfig) (x : Source)
    (hx : x ∈ externalSources host cfg) (c : ChunkRecord) (hc : c ∈ x.2) : c.sourceId = x.1.id := by
  obtain ⟨d, _, hd⟩ := List.mem_filterMap.mp hx
  obtain ⟨record, _, rfl⟩ := Option.map_eq_some_iff.mp hd
  obtain rfl := List.mem_singleton.mp hc
  rfl

theorem Index.record_spec {i : Index} {path : Text} {old : SourceRecord}
    (h : i.record path = some old) : old ∈ i.records ∧ old.path = path := by
  have hmem := Dict.mem_of_get_ofItems _ _ _ h
  obtain ⟨r, hr, heq⟩ := List.mem_map.mp hmem
  cases heq
  exact ⟨hr, rfl⟩

/-- Every record is that of a file or of a descriptor. -/
theorem Depicts.origin {pict : Text → Option RedactionResult} {paths : List Text}
    {others : List Source} {records : List SourceRecord} {chunks : List ChunkRecord}
    (h : Depicts host pict paths others records chunks) {old : SourceRecord}
    (hold : old ∈ records) :
    (∃ path ∈ paths, ∃ r, pict path = some r ∧
      timeless old = timeless (fileSource host path 0 r).1) ∨
    ∃ x ∈ others, timeless old = timeless x.1 := by
  have hmem := h.records.mem_iff.mp (List.mem_map_of_mem (f := timeless) hold)
  obtain ⟨x, hx, hsame⟩ := List.mem_map.mp hmem
  rcases List.mem_append.mp hx with hfile | hother
  · obtain ⟨path, hpath, r, hr, rfl⟩ := (mem_sources pict paths x).mp hfile
    exact Or.inl ⟨path, hpath, r, hr, hsame.symm⟩
  · exact Or.inr ⟨x, hother, hsame.symm⟩

variable (host) in
/-- The record has the id of the file, and no other source has it. -/
def Own (l : Snapshot) (path : Text) (old : SourceRecord) : Prop :=
  old.id = sourceId path ∧
    (∀ q ∈ l.build.walked, q ≠ path → picture host l.build.settings l.tree q ≠ none →
      (host.redactText q).text ≠ path) ∧
    ∀ x ∈ externalSources host l.build.settings.cfg, x.1.id ≠ sourceId path

instance (l : Snapshot) (path : Text) (old : SourceRecord) : Decidable (Own host l path old) := by
  unfold Own
  infer_instance

variable (host) in
/-- The index shows the tree of the snapshot. -/
structure Snapshot.Faithful (l : Snapshot) (i : Index) : Prop where
  nodup : l.build.walked.Nodup
  walked : ∀ path, picture host l.build.settings l.tree path ≠ none → path ∈ l.build.walked
  depicts : Depicts host (picture host l.build.settings l.tree) l.build.walked
    (externalSources host l.build.settings.cfg) i.records i.chunks

/-- The chunks that `chunksOf` finds for a file. -/
theorem Snapshot.Faithful.chunksOf {l : Snapshot} {i : Index} (h : l.Faithful host i) {path : Text}
    {old : SourceRecord} (hown : Own host l path old) (hsame : (host.redactText path).text = path)
    (r : RedactionResult) (hr : picture host l.build.settings l.tree path = some r) :
    (i.chunksOf (sourceId path)).Perm (fileSource host path 0 r).2 := by
  let p : ChunkRecord → Bool := fun c => decide (c.sourceId = sourceId path)
  have hpath : path ∈ l.build.walked := h.walked path (by rw [hr]; exact Option.some_ne_none r)
  have hothers : ((externalSources host l.build.settings.cfg).flatMap Prod.snd).filter p = [] := by
    rw [List.filter_eq_nil_iff]
    intro c hc
    obtain ⟨x, hx, hcx⟩ := List.mem_flatMap.mp hc
    have hid := sourceId_of_mem_externalSources l.build.settings.cfg x hx c hcx
    simpa [p, hid] using hown.2.2 x hx
  have hall : ∀ c ∈ (fileSource host path 0 r).2, p c = true := by
    intro c hc
    have hid := sourceId_of_mem_fileSource path 0 r c hc
    simpa [p, hid] using congrArg sourceId hsame
  have hfiles : ((sources host (picture host l.build.settings l.tree) l.build.walked).flatMap
      Prod.snd).filter p = (fileSource host path 0 r).2 := by
    unfold sources
    rw [List.flatMap_assoc, List.filter_flatMap, flatMap_unique _ _ path h.nodup hpath]
    · rw [hr, Option.map_some, Option.toList_some, List.flatMap_singleton]
      exact List.filter_eq_self.mpr hall
    · intro q hq hne
      rw [List.filter_eq_nil_iff]
      intro c hc
      obtain ⟨x, hx, hcx⟩ := List.mem_flatMap.mp hc
      obtain ⟨r', hr', rfl⟩ := Option.map_eq_some_iff.mp (Option.mem_toList.mp hx)
      have hid := sourceId_of_mem_fileSource q 0 r' c hcx
      have hother := hown.2.1 q hq hne (by rw [hr']; exact Option.some_ne_none r')
      simpa [p, hid] using fun he => hother (sourceId_injective he)
  have hperm := h.depicts.chunks.filter p
  rw [List.flatMap_append, List.filter_append, hothers, hfiles, List.append_nil] at hperm
  exact hperm

/-- **Reuse.** A record of the file's own and its chunks stand for the picture of the file. -/
theorem Snapshot.Faithful.own_stands {l : Snapshot} {i : Index} (h : l.Faithful host i)
    {path : Text} {old : SourceRecord} (hold : i.record path = some old)
    (hown : Own host l path old) :
    Stands host path (some (old, i.chunksOf old.id))
      (picture host l.build.settings l.tree path) := by
  obtain ⟨hmem, hpath⟩ := Index.record_spec hold
  rcases h.depicts.origin hmem with ⟨q, hq, r, hr, hsame⟩ | ⟨x, hx, hsame⟩
  · have hred : old.path = (host.redactText q).text := (timeless_fields hsame).2.1
    obtain rfl : q = path := by
      by_contra hne
      have hother := hown.2.1 q hq hne (by rw [hr]; exact Option.some_ne_none r)
      exact hother (hred.symm.trans hpath)
    rw [hr, hown.1]
    exact .some ⟨hsame, h.chunksOf hown (hred.symm.trans hpath) r hr⟩
  · have hid : old.id = x.1.id := (timeless_fields hsame).1
    exact absurd (hid.symm.trans hown.1) (hown.2.2 x hx)

end

end Agentrail.Context
