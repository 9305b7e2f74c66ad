import Agentrail.Lib.LexicalPath
import Agentrail.Py.PurePath
import Mathlib.Data.List.TakeWhile

/-!
# What an import stands for (`import_resolution_candidates` of `context/index.py`)

A relative specifier is joined to the directory of its importer and tried with a list of suffixes
and index files.  Nothing undoes the `..` of the join, and `lstrip("./")` takes the dots off the
front of what is tried, those of a hidden directory too.

`resolvesLikeFileSystem_iff`: that is what the file system says of a join that goes down from the
root by names, the first of them without a dot in front, and of any other only while no indexed
path is one that either of the two would try.
-/

namespace Agentrail.Imports

open Py LexicalPath

/-! ## `import_resolution_candidates` and `resolve_import_target` -/

/-- `value.lstrip(chars)`. -/
def lstrip (chars : List Char) (t : Text) : Text := t.dropWhile fun c => c ∈ chars

/-- What is before `$`, which also matches before a line feed at the end. -/
def beforeEnd (t : Text) : Text := if t.getLast? = some '\n' then t.dropLast else t

/-- `[A-Za-z_][A-Za-z0-9_]*`. -/
def isIdentifier : Text → Bool
  | [] => false
  | c :: t => (c.isAlpha || c = '_') && t.all fun d => d.isAlphanum || d = '_'

/-- `re.match(r"^[A-Za-z_][A-Za-z0-9_]*(?:\.[A-Za-z_][A-Za-z0-9_]*)+$", specifier)`. -/
def isDottedName (specifier : Text) : Bool :=
  let segments := splitOn1 '.' (beforeEnd specifier)
  2 ≤ segments.length && segments.all isIdentifier

/-- `re.match(r"^[A-Za-z_][A-Za-z0-9_]*$", specifier)`. -/
def isModuleName (specifier : Text) : Bool := isIdentifier (beforeEnd specifier)

def importResolutionCandidates (importerPath specifier : Text) : List Text :=
  let importerDir := (PurePath.ofText importerPath).parent
  let candidates :=
    if specifier.head? = some '.' then
      let base := (importerDir.join (PurePath.ofText specifier)).asPosix
      [base,
        base ++ ".js".toList,
        base ++ ".jsx".toList,
        base ++ ".ts".toList,
        base ++ ".tsx".toList,
        base ++ ".py".toList,
        base ++ "/index.js".toList,
        base ++ "/index.jsx".toList,
        base ++ "/index.ts".toList,
        base ++ "/index.tsx".toList,
        base ++ "/__init__.py".toList]
    else if isDottedName specifier then
      let base := specifier.map fun c => if c = '.' then '/' else c
      [base ++ ".py".toList, base ++ "/__init__.py".toList]
    else if isModuleName specifier then
      let dirPos := importerDir.asPosix
      (if dirPos ≠ [] && dirPos ≠ ['.'] then
        [dirPos ++ '/' :: specifier ++ ".py".toList,
          dirPos ++ '/' :: specifier ++ "/__init__.py".toList]
      else []) ++ [specifier ++ ".py".toList, specifier ++ "/__init__.py".toList]
    else []
  candidates.map fun candidate => lstrip ['.', '/'] (PurePath.ofText candidate).asPosix

def resolveImportTarget (importerPath specifier : Text) (recordPaths : List Text) : Option Text :=
  (importResolutionCandidates importerPath specifier).find? fun candidate => candidate ∈ recordPaths

/-! ## What the file system says -/

/-- The directory above. -/
def dotdot : Text := ['.', '.']

def suffixes : List Text :=
  [".js".toList, ".jsx".toList, ".ts".toList, ".tsx".toList, ".py".toList]

def indexFiles : List Text :=
  ["index.js".toList, "index.jsx".toList, "index.ts".toList, "index.tsx".toList,
    "__init__.py".toList]

/-- The files that a module at a place may be: the place itself, with a suffix, or an index file
in it.  The root has no name that a suffix could go to. -/
def filesOf (place : List Text) : List Text :=
  (if place = [] then [] else slashed place :: suffixes.map fun ext => slashed place ++ ext) ++
    indexFiles.map fun file => slashed (place ++ [file])

/-- The directory of the importer, and the specifier after it. -/
def joined (importerPath specifier : Text) : List Text :=
  (PurePath.ofText importerPath).parent.parts ++ (PurePath.ofText specifier).parts

/-- The files that an import along a path from the root may stand for, none if it leaves the
root. -/
def targets (path : List Text) : List Text :=
  match normalise dotdot path with
  | none => []
  | some place => filesOf place

/-- An import is resolved to the first of the files it may stand for that is indexed. -/
def ResolvesLikeFileSystem (importerPath specifier : Text) (recordPaths : List Text) : Prop :=
  resolveImportTarget importerPath specifier recordPaths =
    (targets (joined importerPath specifier)).find? fun target => target ∈ recordPaths

/-! ## Where the two agree -/

def dotsOnly (segment : Text) : Bool := segment.all fun c => c = '.'

/-- After a start among directories named by dots that comes back to the root, the path goes down
by names, and the first has no dot in front. -/
structure Plain (path : List Text) : Prop where
  start : normalise dotdot (path.takeWhile dotsOnly) = some []
  some_name : path.dropWhile dotsOnly ≠ []
  names : dotdot ∉ path.dropWhile dotsOnly
  visible : ∀ name ∈ (path.dropWhile dotsOnly).head?, name.head? ≠ some '.'

/-- The path never leaves the directories named by dots and comes back to the root. -/
structure AtRoot (path : List Text) : Prop where
  dots : ∀ segment ∈ path, dotsOnly segment = true
  place : normalise dotdot path = some []

/-- What is spelled by a path that is not normalised, without the dots and slashes in front. -/
def misread (path : List Text) : List Text :=
  let base := if path = [] then ['.'] else slashed path
  (base :: suffixes.map (fun ext => base ++ ext) ++
    indexFiles.map fun file => base ++ '/' :: file).map (lstrip ['.', '/'])

/-- An import is safe if its path is plain; at the root, if no file has the bare name of a suffix;
and otherwise if nothing is indexed that it may stand for or that it spells. -/
def Safe (path recordPaths : List Text) : Prop :=
  Plain path ∨
  (AtRoot path ∧ ∀ name ∈ [] :: suffixes.map (fun ext => ext.drop 1), name ∉ recordPaths) ∨
  ((∀ target ∈ targets path, target ∉ recordPaths) ∧ ∀ text ∈ misread path, text ∉ recordPaths)

/-! ## The candidates of a relative specifier -/

theorem suffix_cases {ext : Text} (h : ext ∈ suffixes) : ext.length ≥ 3 ∧ '/' ∉ ext := by
  revert h ext
  decide

theorem isPart_indexFile {file : Text} (h : file ∈ indexFiles) : IsPart file := by
  have hne : file ≠ [] ∧ file ≠ ['.'] ∧ '/' ∉ file := by
    revert h file
    decide
  exact ⟨hne.1, hne.2.1, hne.2.2⟩

theorem isPart_append {segment ext : Text} (hs : '/' ∉ segment) (h : ext ∈ suffixes) :
    IsPart (segment ++ ext) := by
  obtain ⟨hlong, hslash⟩ := suffix_cases h
  refine ⟨fun e => ?_, fun e => ?_, fun hmem => ?_⟩
  · have hlen := congrArg List.length e
    rw [List.length_append, List.length_nil] at hlen
    omega
  · have hlen := congrArg List.length e
    rw [List.length_append, List.length_singleton] at hlen
    omega
  · obtain hmem | hmem := List.mem_append.1 hmem
    · exact hs hmem
    · exact hslash hmem

theorem isPart_of_mem_joined {importerPath specifier segment : Text}
    (h : segment ∈ joined importerPath specifier) : IsPart segment := by
  obtain h | h := List.mem_append.1 h
  · exact PurePath.isPart_of_mem_ofText ((List.dropLast_sublist _).mem h)
  · exact PurePath.isPart_of_mem_ofText h

/-- `Path(text).as_posix()` is the text, of all that a path of parts spells. -/
theorem asPosix_spelled {path : List Text} (hpath : path ≠ []) (h : ∀ s ∈ path, IsPart s)
    {text : Text}
    (htext : text ∈ slashed path :: suffixes.map (fun ext => slashed path ++ ext) ++
      indexFiles.map fun file => slashed path ++ '/' :: file) :
    (PurePath.ofText text).asPosix = text := by
  rw [List.cons_append, List.mem_cons, List.mem_append, List.mem_map, List.mem_map] at htext
  obtain rfl | ⟨ext, hext, rfl⟩ | ⟨file, hfile, rfl⟩ := htext
  · exact PurePath.asPosix_ofText_slashed hpath h
  · obtain ⟨init, last, rfl⟩ := path.eq_nil_or_concat'.resolve_left hpath
    rw [slashed_concat_append]
    refine PurePath.asPosix_ofText_slashed (by simp) fun s hs => ?_
    obtain hs | hs := List.mem_append.1 hs
    · exact h s (List.mem_append_left _ hs)
    · obtain rfl := List.mem_singleton.1 hs
      exact isPart_append (h last (by simp)).noSlash hext
  · rw [← slashed_concat hpath]
    refine PurePath.asPosix_ofText_slashed (by simp) fun s hs => ?_
    obtain hs | hs := List.mem_append.1 hs
    · exact h s hs
    · obtain rfl := List.mem_singleton.1 hs
      exact isPart_indexFile hfile

theorem rootOf_eq_nil {t : Text} (h : t.head? ≠ some '/') : rootOf t = [] := by
  simp [rootOf, h]

/-- A relative specifier is tried as its unnormalised join spells it. -/
theorem importResolutionCandidates_relative {importerPath specifier : Text}
    (himporter : importerPath.head? ≠ some '/') (hspec : specifier.head? = some '.') :
    importResolutionCandidates importerPath specifier =
      misread (joined importerPath specifier) := by
  have hbase : ((PurePath.ofText importerPath).parent.join (PurePath.ofText specifier)).asPosix =
      if joined importerPath specifier = [] then ['.']
      else slashed (joined importerPath specifier) := by
    have hroot : (PurePath.ofText specifier).root = [] := rootOf_eq_nil (by rw [hspec]; decide)
    have hroot' : (PurePath.ofText importerPath).root = [] := rootOf_eq_nil himporter
    rw [PurePath.join, if_pos hroot]
    simp only [PurePath.asPosix, PurePath.parent, hroot']
    by_cases h : joined importerPath specifier = []
    · rw [if_pos h]
      unfold joined PurePath.parent at h
      simp [h]
    · rw [if_neg h]
      unfold joined PurePath.parent at h
      simp [h, joined, slashed, PurePath.parent]
  have hforms : ∀ base : Text, [base, base ++ ".js".toList, base ++ ".jsx".toList,
      base ++ ".ts".toList, base ++ ".tsx".toList, base ++ ".py".toList,
      base ++ "/index.js".toList, base ++ "/index.jsx".toList, base ++ "/index.ts".toList,
      base ++ "/index.tsx".toList, base ++ "/__init__.py".toList] =
        base :: suffixes.map (fun ext => base ++ ext) ++
          indexFiles.map fun file => base ++ '/' :: file := fun base => rfl
  simp only [importResolutionCandidates, if_pos hspec]
  rw [hforms, hbase]
  by_cases h : joined importerPath specifier = []
  · simp only [misread, if_pos h]
    decide
  · simp only [misread, if_neg h]
    refine List.map_congr_left fun text htext => ?_
    rw [asPosix_spelled h (fun s hs => isPart_of_mem_joined hs) htext]

/-! ## What is left without the dots in front -/

theorem lstrip_head {text : Text} {c : Char} (h : (lstrip ['.', '/'] text).head? = some c) :
    c ≠ '.' ∧ c ≠ '/' := by
  have hnot := List.head?_dropWhile_not (fun c => decide (c ∈ ['.', '/'])) text
  unfold lstrip at h
  rw [h] at hnot
  simpa using hnot

theorem misread_head {path : List Text} {text : Text} (h : text ∈ misread path) :
    text.head? ≠ some '.' := by
  obtain ⟨spelled, _, rfl⟩ := List.mem_map.1 h
  exact fun hhead => (lstrip_head hhead).1 rfl

theorem lstrip_dots {s : Text} (hs : dotsOnly s = true) (t : Text) :
    lstrip ['.', '/'] (s ++ t) = lstrip ['.', '/'] t := by
  unfold lstrip
  rw [List.dropWhile_append_of_pos]
  intro c hc
  have hdot : c = '.' := by simpa using List.all_eq_true.1 hs c hc
  simp [hdot]

theorem lstrip_slash (t : Text) : lstrip ['.', '/'] ('/' :: t) = lstrip ['.', '/'] t := by
  simp [lstrip]

/-- A segment with another character than dots keeps what is from there on. -/
theorem lstrip_name {s : Text} (hslash : '/' ∉ s) (hs : dotsOnly s = false) (t : Text) :
    lstrip ['.', '/'] (s ++ t) = lstrip ['.'] s ++ t ∧ lstrip ['.'] s ≠ [] := by
  induction s with
  | nil => cases hs
  | cons c s ih =>
    have hc : c ≠ '/' := fun e => hslash (e ▸ List.mem_cons_self)
    by_cases hdot : c = '.'
    · subst hdot
      have hrest : dotsOnly s = false := by simpa [dotsOnly] using hs
      simpa [lstrip] using ih (fun h => hslash (List.mem_cons_of_mem _ h)) hrest
    · simp [lstrip, hc, hdot]

theorem lstrip_slashed_dots {dots : List Text} (h : ∀ s ∈ dots, dotsOnly s = true) (t : Text) :
    lstrip ['.', '/'] (slashed dots ++ t) = lstrip ['.', '/'] t := by
  induction dots with
  | nil => rfl
  | cons s dots ih =>
    have hs := h s List.mem_cons_self
    have htail := ih fun p hp => h p (List.mem_cons_of_mem _ hp)
    by_cases hdots : dots = []
    · subst hdots
      rw [slashed_singleton, lstrip_dots hs]
    · rw [slashed_cons s hdots, List.append_assoc, lstrip_dots hs, List.cons_append, lstrip_slash,
        htail]

theorem lstrip_slashed {dots : List Text} (h : ∀ s ∈ dots, dotsOnly s = true) {segments : List Text}
    (hsegments : segments ≠ []) (t : Text) :
    lstrip ['.', '/'] (slashed (dots ++ segments) ++ t) =
      lstrip ['.', '/'] (slashed segments ++ t) := by
  induction dots with
  | nil => rfl
  | cons s dots ih =>
    have hs := h s List.mem_cons_self
    have htail := ih fun p hp => h p (List.mem_cons_of_mem _ hp)
    rw [List.cons_append, slashed_cons s (List.append_ne_nil_of_right_ne_nil _ hsegments),
      List.append_assoc, lstrip_dots hs, List.cons_append, lstrip_slash, htail]

/-- What a path spells is that of its first name on, without the dots in front of it. -/
theorem misread_eq_filesOf {dots rest : List Text} {name : Text}
    (hdots : ∀ s ∈ dots, dotsOnly s = true) (hslash : '/' ∉ name) (hname : dotsOnly name = false) :
    misread (dots ++ name :: rest) = filesOf (lstrip ['.'] name :: rest) := by
  have hbase : ∀ t, lstrip ['.', '/'] (slashed (dots ++ name :: rest) ++ t) =
      slashed (lstrip ['.'] name :: rest) ++ t := by
    intro t
    rw [lstrip_slashed hdots (List.cons_ne_nil _ _)]
    by_cases hrest : rest = []
    · subst hrest
      rw [slashed_singleton, slashed_singleton]
      exact (lstrip_name hslash hname t).1
    · rw [slashed_cons _ hrest, slashed_cons _ hrest, List.append_assoc, List.append_assoc]
      exact (lstrip_name hslash hname _).1
  have hpath : dots ++ name :: rest ≠ [] :=
    List.append_ne_nil_of_right_ne_nil _ (List.cons_ne_nil _ _)
  unfold misread filesOf
  simp only [if_neg hpath, if_neg (List.cons_ne_nil _ _), List.map_append, List.map_cons,
    List.map_map]
  have hplain := hbase []
  rw [List.append_nil, List.append_nil] at hplain
  rw [hplain]
  congr 2
  · exact List.map_congr_left fun ext _ => hbase ext
  · funext file
    rw [slashed_concat (List.cons_ne_nil _ _)]
    exact hbase ('/' :: file)

/-- A path of nothing but dots spells the bare names of the suffixes and the index files. -/
theorem misread_dots {path : List Text} (h : ∀ s ∈ path, dotsOnly s = true) :
    misread path = [] :: suffixes.map (fun ext => ext.drop 1) ++ filesOf [] := by
  have hbase : ∀ t, lstrip ['.', '/'] ((if path = [] then ['.'] else slashed path) ++ t) =
      lstrip ['.', '/'] t := by
    intro t
    by_cases hpath : path = []
    · rw [if_pos hpath, lstrip_dots (by decide)]
    · rw [if_neg hpath, lstrip_slashed_dots h]
  have hplain := hbase []
  rw [List.append_nil] at hplain
  unfold misread
  simp only [List.map_append, List.map_cons, List.map_map]
  rw [hplain]
  refine congrArg₂ _ (congrArg _ ?_) ?_
  · refine List.map_congr_left fun ext hext => (hbase ext).trans ?_
    revert hext ext
    decide
  · show indexFiles.map _ = indexFiles.map fun file => slashed ([] ++ [file])
    refine List.map_congr_left fun file hfile => (hbase ('/' :: file)).trans ?_
    revert hfile file
    decide

/-! ## The segments of what is tried -/

/-- The segments of the files at a place. -/
def Forms (place segments : List Text) : Prop :=
  (place ≠ [] ∧ segments = place) ∨
  (∃ init last, place = init ++ [last] ∧ ∃ ext ∈ suffixes, segments = init ++ [last ++ ext]) ∨
  ∃ file ∈ indexFiles, segments = place ++ [file]

theorem mem_filesOf {place : List Text} {text : Text} (h : text ∈ filesOf place) :
    ∃ segments, Forms place segments ∧ text = slashed segments := by
  unfold filesOf at h
  obtain h | h := List.mem_append.1 h
  · by_cases hplace : place = []
    · rw [if_pos hplace] at h
      cases h
    · rw [if_neg hplace] at h
      obtain rfl | h := List.mem_cons.1 h
      · exact ⟨place, Or.inl ⟨hplace, rfl⟩, rfl⟩
      · obtain ⟨ext, hext, rfl⟩ := List.mem_map.1 h
        obtain ⟨init, last, rfl⟩ := place.eq_nil_or_concat'.resolve_left hplace
        exact ⟨_, Or.inr (Or.inl ⟨init, last, rfl, ext, hext, rfl⟩), slashed_concat_append _ _ _⟩
  · obtain ⟨file, hfile, rfl⟩ := List.mem_map.1 h
    exact ⟨_, Or.inr (Or.inr ⟨file, hfile, rfl⟩), rfl⟩

theorem Forms.ne_nil {place segments : List Text} (h : Forms place segments) : segments ≠ [] := by
  obtain ⟨h, rfl⟩ | ⟨init, last, rfl, ext, _, rfl⟩ | ⟨file, _, rfl⟩ := h
  · exact h
  · exact List.append_ne_nil_of_right_ne_nil _ (List.cons_ne_nil _ _)
  · exact List.append_ne_nil_of_right_ne_nil _ (List.cons_ne_nil _ _)

theorem Forms.noSlash {place segments : List Text} (h : Forms place segments)
    (hplace : ∀ s ∈ place, '/' ∉ s) : ∀ s ∈ segments, '/' ∉ s := by
  obtain ⟨_, rfl⟩ | ⟨init, last, rfl, ext, hext, rfl⟩ | ⟨file, hfile, rfl⟩ := h
  · exact hplace
  · intro s hs
    obtain hs | hs := List.mem_append.1 hs
    · exact hplace s (List.mem_append_left _ hs)
    · obtain rfl := List.mem_singleton.1 hs
      exact (isPart_append (hplace last (by simp)) hext).noSlash
  · intro s hs
    obtain hs | hs := List.mem_append.1 hs
    · exact hplace s hs
    · obtain rfl := List.mem_singleton.1 hs
      exact (isPart_indexFile hfile).noSlash

/-- The files at two places are told apart by their segments. -/
theorem Forms.slashed_inj {place place' segments segments' : List Text} (h : Forms place segments)
    (h' : Forms place' segments') (hplace : ∀ s ∈ place, '/' ∉ s) (hplace' : ∀ s ∈ place', '/' ∉ s)
    (heq : slashed segments = slashed segments') : segments = segments' := by
  have hsplit := congrArg (splitOn1 '/') heq
  rwa [splitOn1_slashed h.ne_nil (h.noSlash hplace),
    splitOn1_slashed h'.ne_nil (h'.noSlash hplace')] at hsplit

theorem Forms.length_le {place segments : List Text} (h : Forms place segments) :
    segments.length ≤ place.length + 1 := by
  obtain ⟨_, rfl⟩ | ⟨init, last, rfl, ext, _, rfl⟩ | ⟨file, _, rfl⟩ := h
  · omega
  · simp
  · simp

theorem Forms.length_ge {place segments : List Text} (h : Forms place segments) :
    place.length ≤ segments.length := by
  obtain ⟨_, rfl⟩ | ⟨init, last, rfl, ext, _, rfl⟩ | ⟨file, _, rfl⟩ := h
  · omega
  · simp
  · simp

theorem append_suffix_ne_dotdot {segment ext : Text} (h : ext ∈ suffixes) :
    segment ++ ext ≠ dotdot := by
  intro e
  have hlen := congrArg List.length e
  rw [List.length_append] at hlen
  have := (suffix_cases h).1
  have : dotdot.length = 2 := rfl
  omega

/-- No file at a place below the root is above another directory. -/
theorem Forms.dotdot_notMem {place segments : List Text} (h : Forms place segments)
    (hplace : dotdot ∉ place) : dotdot ∉ segments := by
  obtain ⟨_, rfl⟩ | ⟨init, last, rfl, ext, hext, rfl⟩ | ⟨file, hfile, rfl⟩ := h
  · exact hplace
  · intro hmem
    obtain hmem | hmem := List.mem_append.1 hmem
    · exact hplace (List.mem_append_left _ hmem)
    · exact append_suffix_ne_dotdot hext (List.mem_singleton.1 hmem).symm
  · intro hmem
    obtain hmem | hmem := List.mem_append.1 hmem
    · exact hplace hmem
    · rw [List.mem_singleton] at hmem
      revert hfile
      rw [← hmem]
      decide

/-- A step back that is not the last segment of the place is in all of its files. -/
theorem Forms.dotdot_mem {init segments : List Text} {last : Text}
    (h : Forms (init ++ [last]) segments) (hinit : dotdot ∈ init) : dotdot ∈ segments := by
  obtain ⟨_, rfl⟩ | ⟨init', last', heq, ext, _, rfl⟩ | ⟨file, _, rfl⟩ := h
  · exact List.mem_append_left _ hinit
  · obtain ⟨rfl, _⟩ := List.append_inj' heq rfl
    exact List.mem_append_left _ hinit
  · exact List.mem_append_left _ (List.mem_append_left _ hinit)

theorem slashed_head {s : Text} (hs : s ≠ []) (segments : List Text) :
    (slashed (s :: segments)).head? = s.head? := by
  by_cases h : segments = []
  · rw [h, slashed_singleton]
  · rw [slashed_cons s h, List.head?_append_of_ne_nil _ hs]

theorem Forms.head {name : Text} {rest segments : List Text} (h : Forms (name :: rest) segments) :
    ∃ ext tail, segments = (name ++ ext) :: tail := by
  obtain ⟨_, rfl⟩ | ⟨init, last, heq, ext, _, rfl⟩ | ⟨file, _, rfl⟩ := h
  · exact ⟨[], rest, by rw [List.append_nil]⟩
  · cases init with
    | nil =>
      obtain ⟨rfl, rfl⟩ := List.cons.inj heq
      exact ⟨ext, [], rfl⟩
    | cons p init =>
      obtain ⟨rfl, rfl⟩ := List.cons.inj heq
      exact ⟨[], init ++ [last ++ ext], by simp⟩
  · exact ⟨[], rest ++ [file], by simp⟩

/-- The files at a hidden place begin with its dot. -/
theorem filesOf_head {name text : Text} {rest : List Text} (h : text ∈ filesOf (name :: rest))
    (hname : name.head? = some '.') : text.head? = some '.' := by
  obtain ⟨segments, hforms, rfl⟩ := mem_filesOf h
  obtain ⟨ext, tail, rfl⟩ := hforms.head
  have hne : name ≠ [] := by
    rintro rfl
    cases hname
  rw [slashed_head (List.append_ne_nil_of_left_ne_nil hne _), List.head?_append_of_ne_nil _ hne,
    hname]

theorem head_of_dotsOnly {s : Text} (hs : dotsOnly s = true) (hne : s ≠ []) :
    s.head? = some '.' := by
  cases s with
  | nil => exact absurd rfl hne
  | cons c s =>
    have hc : c = '.' := by simpa using List.all_eq_true.1 hs c List.mem_cons_self
    rw [hc, List.head?_cons]

/-! ## Three kinds of paths -/

theorem Plain.targets_eq {path : List Text} (h : Plain path) (hparts : ∀ s ∈ path, IsPart s) :
    targets path = misread path := by
  have hsplit : path.takeWhile dotsOnly ++ path.dropWhile dotsOnly = path :=
    List.takeWhile_append_dropWhile
  obtain ⟨name, rest, hrest⟩ := List.exists_cons_of_ne_nil h.some_name
  have hnames := h.names
  have hvisible := h.visible
  rw [hrest] at hsplit hnames hvisible
  have hname : dotsOnly name = false := by
    have hnot := List.head?_dropWhile_not dotsOnly path
    rw [hrest] at hnot
    exact hnot
  have hplace : normalise dotdot path = some (name :: rest) := by
    rw [← hsplit, normalise, walk_append, ← normalise, h.start]
    exact walk_of_notMem [] _ hnames
  have hstrip : lstrip ['.'] name = name := by
    cases name with
    | nil => rfl
    | cons c name =>
      have hc : c ≠ '.' := fun e => hvisible _ rfl (by rw [e, List.head?_cons])
      simp [lstrip, hc]
  have hslash := (hparts name (hsplit ▸ by simp)).noSlash
  have hspell : misread (path.takeWhile dotsOnly ++ name :: rest) = filesOf (name :: rest) := by
    rw [misread_eq_filesOf (fun s hs => List.mem_takeWhile_imp hs) hslash hname, hstrip]
  rw [hsplit] at hspell
  rw [hspell, targets, hplace]

theorem AtRoot.misread_eq {path : List Text} (h : AtRoot path) :
    misread path = ([] :: suffixes.map fun ext => ext.drop 1) ++ targets path := by
  rw [misread_dots h.dots, targets, h.place]

/-- A path of another kind whose place is not hidden goes down by a name and has a step back
after it. -/
theorem exists_back {path place : List Text} (hparts : ∀ s ∈ path, IsPart s)
    (hplain : ¬ Plain path) (hroot : ¬ AtRoot path) (hplace : normalise dotdot path = some place)
    (hvisible : ∀ name rest, place = name :: rest → name.head? ≠ some '.') :
    ∃ dots name rest start, path = dots ++ name :: rest ∧ (∀ s ∈ dots, dotsOnly s = true) ∧
      dotsOnly name = false ∧ dotdot ∈ rest ∧ walk dotdot start (name :: rest) = some place ∧
      ∀ tail, place = start ++ tail → start = [] := by
  have hsplit : path.takeWhile dotsOnly ++ path.dropWhile dotsOnly = path :=
    List.takeWhile_append_dropWhile
  have hwalk := hplace
  rw [normalise, ← hsplit, walk_append, Option.bind_eq_some_iff] at hwalk
  obtain ⟨start, hstart, hrest⟩ := hwalk
  -- what is left of the directories named by dots would be in front of the place
  have hempty : ∀ tail, place = start ++ tail → start = [] := by
    intro tail heq
    cases start with
    | nil => rfl
    | cons s start =>
      have hmem := (mem_normalise hstart List.mem_cons_self).1
      exact absurd (head_of_dotsOnly (List.mem_takeWhile_imp hmem)
        (hparts s ((List.takeWhile_sublist _).mem hmem)).ne_nil) (hvisible s _ heq)
  cases hnames : path.dropWhile dotsOnly with
  | nil =>
    rw [hnames] at hrest hsplit
    obtain rfl := Option.some.inj hrest
    obtain rfl := hempty [] (List.append_nil _).symm
    rw [List.append_nil] at hsplit
    exact absurd ⟨fun s hs => List.mem_takeWhile_imp (hsplit.symm ▸ hs), hplace⟩ hroot
  | cons name rest =>
    rw [hnames] at hrest hsplit
    have hname : dotsOnly name = false := by
      have hnot := List.head?_dropWhile_not dotsOnly path
      rw [hnames] at hnot
      exact hnot
    refine ⟨_, name, rest, start, hsplit.symm, fun s hs => List.mem_takeWhile_imp hs, hname, ?_,
      hrest, hempty⟩
    by_contra hback
    have hnone : dotdot ∉ name :: rest := by
      rw [List.mem_cons, not_or]
      refine ⟨?_, hback⟩
      rintro rfl
      cases hname
    rw [walk_of_notMem start _ hnone] at hrest
    have heq := (Option.some.inj hrest).symm
    obtain rfl := hempty _ heq
    refine hplain ⟨hstart, by simp [hnames], by rwa [hnames], ?_⟩
    rw [hnames]
    rintro _ ⟨⟩
    exact hvisible name rest heq

/-- A step back that is spelled out is in every text but those with a suffix after it, and these
have more segments than any file that the step back leads to. -/
theorem forms_disjoint {start rest place segments : List Text} {name name' : Text}
    (hname : name ≠ dotdot) (hback : dotdot ∈ rest)
    (hrest : walk dotdot start (name :: rest) = some place)
    (hempty : ∀ tail, place = start ++ tail → start = []) (hplace : dotdot ∉ place)
    (hforms : Forms place segments) : ¬ Forms (name' :: rest) segments := by
  intro hforms'
  have hnone := hforms.dotdot_notMem hplace
  obtain ⟨init, last, rfl⟩ := rest.eq_nil_or_concat'.resolve_left (List.ne_nil_of_mem hback)
  have hinit : dotdot ∉ name' :: init := fun hmem => hnone (hforms'.dotdot_mem hmem)
  have hlast : last = dotdot := by
    obtain hmem | hmem := List.mem_append.1 hback
    · exact absurd (List.mem_cons_of_mem _ hmem) hinit
    · exact (List.mem_singleton.1 hmem).symm
  have hnames : dotdot ∉ name :: init := by
    rw [List.mem_cons, not_or]
    exact ⟨hname.symm, fun hmem => hinit (List.mem_cons_of_mem _ hmem)⟩
  have hwalk : place = start ++ (name :: init).dropLast := by
    rw [hlast, ← List.cons_append, walk_append, walk_of_notMem start _ hnames,
      Option.bind_some, walk_up _ _ (by simp), walk_nil] at hrest
    rw [← Option.some.inj hrest, List.dropLast_append_of_ne_nil (List.cons_ne_nil _ _)]
  obtain rfl := hempty _ hwalk
  have hshort := hforms.length_le
  have hlong := hforms'.length_ge
  rw [hwalk] at hshort
  simp only [List.nil_append, List.length_dropLast, List.length_cons, List.length_append,
    List.length_nil] at hshort hlong
  omega

/-- A path of another kind never spells a file that it stands for. -/
theorem notMem_misread {path : List Text} (hparts : ∀ s ∈ path, IsPart s) (hplain : ¬ Plain path)
    (hroot : ¬ AtRoot path) {text : Text} (htarget : text ∈ targets path) :
    text ∉ misread path := by
  intro hmisread
  unfold targets at htarget
  cases hplace : normalise dotdot path with
  | none =>
    rw [hplace] at htarget
    cases htarget
  | some place =>
    rw [hplace] at htarget
    have hvisible : ∀ name rest, place = name :: rest → name.head? ≠ some '.' := by
      rintro name rest rfl hname
      exact misread_head hmisread (filesOf_head htarget hname)
    obtain ⟨dots, name, rest, start, rfl, hdots, hname, hback, hrest, hempty⟩ :=
      exists_back hparts hplain hroot hplace hvisible
    have hslash : ∀ s ∈ name :: rest, '/' ∉ s := fun s hs =>
      (hparts s (List.mem_append_right _ hs)).noSlash
    rw [misread_eq_filesOf hdots (hslash name List.mem_cons_self) hname] at hmisread
    obtain ⟨segments, hforms, htext⟩ := mem_filesOf htarget
    obtain ⟨segments', hforms', htext'⟩ := mem_filesOf hmisread
    have hslash' : ∀ s ∈ lstrip ['.'] name :: rest, '/' ∉ s := by
      intro s hs
      obtain rfl | hs := List.mem_cons.1 hs
      · exact fun hmem => hslash name List.mem_cons_self ((List.dropWhile_sublist _).mem hmem)
      · exact hslash s (List.mem_cons_of_mem _ hs)
    obtain rfl := hforms.slashed_inj hforms'
      (fun s hs => (hparts s (mem_normalise hplace hs).1).noSlash) hslash'
      (htext.symm.trans htext')
    have hne : name ≠ dotdot := by
      rintro rfl
      cases hname
    exact forms_disjoint hne hback hrest hempty (up_notMem_normalise hplace) hforms hforms'

/-! ## The resolution -/

theorem find?_eq_iff_of_disjoint {α : Type} {p : α → Bool} {xs ys : List α}
    (h : ∀ x ∈ xs, x ∉ ys) :
    xs.find? p = ys.find? p ↔ (∀ y ∈ ys, p y = false) ∧ ∀ x ∈ xs, p x = false := by
  constructor
  · intro heq
    have hnone : ys.find? p = none := by
      by_contra hsome
      obtain ⟨y, hy⟩ := Option.ne_none_iff_exists'.1 hsome
      exact h y (List.mem_of_find?_eq_some (heq.trans hy)) (List.mem_of_find?_eq_some hy)
    rw [hnone, List.find?_eq_none] at heq
    rw [List.find?_eq_none] at hnone
    exact ⟨fun y hy => by simpa using hnone y hy, fun x hx => by simpa using heq x hx⟩
  · rintro ⟨hys, hxs⟩
    rw [List.find?_eq_none.2 fun x hx => by simp [hxs x hx],
      List.find?_eq_none.2 fun y hy => by simp [hys y hy]]

/-- What comes in front of a list is not found if and only if the list is searched as before. -/
theorem find?_append_eq_iff {α : Type} {p : α → Bool} {xs ys : List α} (h : ∀ x ∈ xs, x ∉ ys) :
    (xs ++ ys).find? p = ys.find? p ↔ ∀ x ∈ xs, p x = false := by
  rw [List.find?_append]
  constructor
  · intro heq
    have hnone : xs.find? p = none := by
      by_contra hsome
      obtain ⟨x, hx⟩ := Option.ne_none_iff_exists'.1 hsome
      rw [hx, Option.some_or] at heq
      exact h x (List.mem_of_find?_eq_some hx) (List.mem_of_find?_eq_some heq.symm)
    rw [List.find?_eq_none] at hnone
    exact fun x hx => by simpa using hnone x hx
  · intro hxs
    rw [List.find?_eq_none.2 fun x hx => by simp [hxs x hx], Option.none_or]

instance (importerPath specifier : Text) (recordPaths : List Text) :
    Decidable (ResolvesLikeFileSystem importerPath specifier recordPaths) :=
  inferInstanceAs (Decidable (_ = _))

theorem parent_dirs_do_not_resolve :
    ¬ ResolvesLikeFileSystem "src/app/main.ts".toList "../lib/util".toList
      ["src/lib/util.ts".toList] := by
  decide

/-- Relative imports resolve as the file system has it exactly when they are safe. -/
theorem resolvesLikeFileSystem_iff (importerPath specifier : Text) (recordPaths : List Text)
    (himporter : importerPath.head? ≠ some '/') (hspec : specifier.head? = some '.') :
    ResolvesLikeFileSystem importerPath specifier recordPaths ↔
      Safe (joined importerPath specifier) recordPaths := by
  have hparts : ∀ s ∈ joined importerPath specifier, IsPart s := fun s hs =>
    isPart_of_mem_joined hs
  unfold ResolvesLikeFileSystem resolveImportTarget Safe
  rw [importResolutionCandidates_relative himporter hspec]
  generalize joined importerPath specifier = path at hparts ⊢
  by_cases hplain : Plain path
  · rw [hplain.targets_eq hparts]
    simp [hplain]
  by_cases hroot : AtRoot path
  · have hnew : ∀ name ∈ ([] : Text) :: suffixes.map (fun ext => ext.drop 1),
        name ∉ targets path := by
      rw [targets, hroot.place]
      decide
    rw [hroot.misread_eq, find?_append_eq_iff hnew]
    simp only [hplain, hroot, false_or, true_and, decide_eq_false_iff_not]
    refine ⟨Or.inl, fun h => h.elim id fun hnone name hname => hnone.2 name ?_⟩
    exact List.mem_append_left _ hname
  · rw [find?_eq_iff_of_disjoint fun text hmis htar => notMem_misread hparts hplain hroot htar hmis]
    simp [hplain, hroot]

theorem sibling_resolves :
    ResolvesLikeFileSystem "src/app/main.ts".toList "./util".toList ["src/app/util.ts".toList] :=
  (resolvesLikeFileSystem_iff _ _ _ (by decide) (by decide)).2
    (Or.inl ⟨by decide, by decide, by decide, by decide⟩)

end Agentrail.Imports
