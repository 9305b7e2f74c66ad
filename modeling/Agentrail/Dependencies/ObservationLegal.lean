import Agentrail.Dependencies.ObservationEntries

/-!
# Observed upgrades are legal upgrades

A candidate's target is a version of the registry, newer than the locked version, within the
constraint of the manifest and, for Cargo and Composer, not yanked; a dependency is left
unchanged only where there is nothing newer to choose.  The targets of Poetry may be
prereleases, whose identifiers `_compare_versions` compares as texts.  Main result:

* `observation_legal_iff`: an observation keeps this exactly when no accepted Poetry
  observation chooses a prerelease that comes later as text only.
-/

namespace Agentrail.Observation

open Py SemVer Versions
open NpmSemver (NpmAdmits)

/-! ## Legal upgrades -/

/-- What the manifest asks of a version. -/
def Admits (manager : ManagerName) (package specifier version : Text) : Prop :=
  match manager with
  | .npm => NpmAdmits specifier version
  | .uv => UvAdmits specifier version
  | .cargo => CargoAdmits specifier version
  | .composer => ComposerAdmits specifier version
  | .goModules => ∃ core, stableGoVersion version = some core ∧ GoPathAdmits package core.major
  | .poetry | .pnpm => True

structure LegalUpgrade (registry : RegistryAdapter) (manager : ManagerName)
    (c : DependencyCandidate) : Prop where
  available : ∃ metadata, registry.packageMetadata c.package = .ok (some metadata) ∧
    c.targetVersion ∈ metadata.availableVersions ∧
    (manager = .cargo ∨ manager = .composer → c.targetVersion ∉ metadata.yankedVersions)
  newer : Newer c.currentVersion c.targetVersion
  admitted : Admits manager c.package c.specifier c.targetVersion

/-- The versions among which npm and Go look for a newer one. -/
def Compatible (manager : ManagerName) (entry : Entry) (version : Text) : Prop :=
  match manager with
  | .npm => isRelease version ∧ NpmAdmits entry.specifier version
  | .goModules => ∃ a b, stableGoVersion entry.currentVersion = some a ∧
      stableGoVersion version = some b ∧ b.major = a.major
  | manager => Admits manager entry.package entry.specifier version

/-- The compatible versions of an entry, or the one chosen for it, are not newer. -/
def NothingNewer (registry : RegistryAdapter) (targetVersions : TargetVersionAdapter)
    (manager : ManagerName) (entry : Entry) : Prop :=
  ∃ metadata, registry.packageMetadata entry.package = .ok (some metadata) ∧
    ((∀ v ∈ metadata.availableVersions, Compatible manager entry v →
        ¬Newer entry.currentVersion v) ∨
      ∃ available target, targetVersions entry.package entry.currentVersion entry.specifier
          available = .ok (some target) ∧
        target ∈ metadata.availableVersions ∧ ¬Newer entry.currentVersion target)

section
variable (readers : Readers) (snapshot : DependencySnapshot) (selected : List Text)
  (registry : RegistryAdapter) (targetVersions : TargetVersionAdapter) (manager : Option Text)

/-- What an observation of one of the six managers promises. -/
def LegalObservation : Prop :=
  ∀ detected entries, Observes readers snapshot selected manager detected entries →
    match observeDependencies readers snapshot selected registry targetVersions manager with
    | .ok (.candidates found _) => ∀ c ∈ found, LegalUpgrade registry detected.name c
    | .ok (.unchanged _) =>
      ∀ entry ∈ entries, NothingNewer registry targetVersions detected.name entry
    | _ => True

/-- The evidence for a Poetry entry passes: versions that can be read, and among them a chosen
one that is not older as text. -/
def PoetryAccepts (entry : Entry) (target : Text) (a b : ParsedVersion) : Prop :=
  parseVersion entry.currentVersion = some a ∧ parseVersion target = some b ∧
    compareParsed a b ≤ 0 ∧
    ∃ metadata, registry.packageMetadata entry.package = .ok (some metadata) ∧
      (∀ v ∈ metadata.availableVersions, (parseVersion v).isSome) ∧
      target ∈ metadata.availableVersions ∧
      targetVersions entry.package entry.currentVersion entry.specifier
        metadata.availableVersions = .ok (some target)

/-- Where the evidence for all entries of a Poetry project passes, no chosen version overtakes
the locked one as text only. -/
def NoneOvertaken : Prop :=
  ∀ detected entries, Observes readers snapshot selected manager detected entries →
    detected.name = .poetry →
    (∀ entry ∈ entries, ∃ target a b, PoetryAccepts registry targetVersions entry target a b) →
    ∀ entry ∈ entries, ∀ target a b,
      PoetryAccepts registry targetVersions entry target a b → ¬Overtaken a b

end

/-! ## Poetry -/

section
variable {registry : RegistryAdapter} {targetVersions : TargetVersionAdapter} {entry : Entry}

theorem compareVersions_eq {left right : Text} {c : Int} (h : compareVersions left right = some c) :
    ∃ a b, parseVersion left = some a ∧ parseVersion right = some b ∧ compareParsed a b = c := by
  unfold compareVersions at h
  split at h
  · rename_i a b ha hb
    exact ⟨a, b, ha, hb, Option.some.inj h⟩
  · cases h

theorem compareTarget_eq {manager : ManagerName} {target : Text} {c : Int}
    (hgo : manager ≠ .goModules) (h : compareTarget manager entry target = .ok c) :
    compareVersions entry.currentVersion target = some c := by
  unfold compareTarget at h
  rw [if_neg hgo] at h
  split at h
  · rename_i comparison hcompare
    cases h
    exact hcompare
  · cases h

/-- A round of a Poetry entry whose evidence passes. -/
theorem observeEntry_of_accepts {target : Text} {a b : ParsedVersion}
    (h : PoetryAccepts registry targetVersions entry target a b) :
    observeEntry .poetry registry targetVersions entry =
      if compareParsed a b = 0 then .error .unchanged else .ok target := by
  obtain ⟨ha, hb, hle, metadata, hmetadata, hparse, hmem, hchoice⟩ := h
  have hall : (metadata.availableVersions.all fun version => (parseVersion version).isSome) = true :=
    List.all_eq_true.2 hparse
  have hlocked : lockedVersion .poetry entry = .ok () := by simp [lockedVersion, require, ha]; rfl
  have hsource : sourceIdentity .poetry registry entry = .ok () := rfl
  have hdata : registryData registry entry = .ok metadata := by
    simp only [registryData, hmetadata, if_neg (List.ne_nil_of_mem hmem)]
  have hoffered : offered .poetry entry metadata = .ok metadata.availableVersions := by
    simp only [offered, offeredOther, hall]
    rfl
  have htarget : chosenTarget .poetry targetVersions entry metadata.availableVersions =
      .ok target := by
    simp only [chosenTarget, hchoice, targetIsParseable, hb, hmem]
    rfl
  have hcompare : compareTarget .poetry entry target = .ok (compareParsed a b) := by
    simp [compareTarget, compareVersions, ha, hb]
  simp only [observeEntry, hlocked, hsource, hdata, hoffered, htarget, hcompare, bind, Except.bind]
  rw [if_neg (show ¬compareParsed a b > 0 by omega)]

theorem offeredOther_ok {metadata : RegistryPackage} {available : List Text}
    (h : offeredOther entry metadata = .ok available) :
    available = metadata.availableVersions ∧
      ∀ v ∈ metadata.availableVersions, (parseVersion v).isSome := by
  simp only [offeredOther, except_bind_eq_ok, require_eq_ok, Except.ok.injEq] at h
  obtain ⟨_, hall, rfl⟩ := h
  exact ⟨rfl, List.all_eq_true.1 hall⟩

theorem accepts_of_ok {target : Text}
    (h : observeEntry .poetry registry targetVersions entry = .ok target) :
    ∃ a b, PoetryAccepts registry targetVersions entry target a b ∧ compareParsed a b < 0 := by
  obtain ⟨metadata, available, c, hmetadata, hoffered, hmem, hchoice, _, hcompare, hc⟩ :=
    observeEntry_ok h
  obtain ⟨rfl, hparse⟩ := offeredOther_ok hoffered
  obtain ⟨a, b, ha, hb, rfl⟩ := compareVersions_eq (compareTarget_eq (by decide) hcompare)
  exact ⟨a, b, ⟨ha, hb, hc.le, metadata, hmetadata, hparse, hmem, hchoice⟩, hc⟩

theorem accepts_of_unchanged
    (h : observeEntry .poetry registry targetVersions entry = .error .unchanged) :
    ∃ target a b, PoetryAccepts registry targetVersions entry target a b := by
  obtain ⟨metadata, hmetadata, h⟩ := observeEntry_unchanged h
  rcases h with h | ⟨available, target, hoffered, hmem, hchoice, hcompare⟩
  · simp [offered, offeredOther, except_bind_eq_error] at h
  · obtain ⟨rfl, hparse⟩ := offeredOther_ok hoffered
    obtain ⟨a, b, ha, hb, hc⟩ := compareVersions_eq (compareTarget_eq (by decide) hcompare)
    exact ⟨target, a, b, ha, hb, hc.le, metadata, hmetadata, hparse, hmem, hchoice⟩

/-! ## One entry -/

theorem isRelease_eq {version : Text} (h : isRelease version) :
    ∃ b, parseVersion version = some b ∧ b.prerelease = [] := by
  obtain ⟨b, hb, hpre⟩ := (Option.any_eq_true _ _).1 h
  exact ⟨b, hb, of_decide_eq_true hpre⟩

/-- Releases that come later are newer, and the other way round. -/
theorem newer_release_iff {current target : Text} {a b : ParsedVersion}
    (ha : parseVersion current = some a) (hb : parseVersion target = some b)
    (hpre : b.prerelease = []) : Newer current target ↔ compareParsed a b < 0 := by
  rw [compareParsed_neg_iff]
  simp [Newer, ha, hb, precedes_version, hpre]

theorem not_newer_of_equal {current target : Text} (h : compareVersions current target = some 0) :
    ¬Newer current target := by
  obtain ⟨a, b, ha, hb, hc⟩ := compareVersions_eq h
  obtain rfl := eq_of_compareParsed a b hc
  rintro ⟨a', b', ha', hb', hprecedes⟩
  rw [ha] at ha'
  rw [hb] at hb'
  cases ha'
  cases hb'
  exact a.version.not_precedes_self hprecedes

theorem compareGoVersions_ok {left right : Text} {c : Int} (h : compareGoVersions left right = .ok c) :
    ∃ a b, stableGoVersion left = some a ∧ stableGoVersion right = some b ∧ (c < 0 ↔ a.Lt b) := by
  have hok := h
  unfold compareGoVersions at hok
  split at hok
  · rename_i a b ha hb
    refine ⟨a, b, ha, hb, ?_⟩
    rw [← compareGoVersions_neg_iff ha hb]
    simp [h]
  · cases hok

theorem compareTarget_go {target : Text} {c : Int}
    (h : compareTarget .goModules entry target = .ok c) :
    ∃ a b, stableGoVersion entry.currentVersion = some a ∧ stableGoVersion target = some b ∧
      (c < 0 ↔ Newer entry.currentVersion target) := by
  simp only [compareTarget, if_true, liftPy_eq_ok] at h
  obtain ⟨a, b, ha, hb, hc⟩ := compareGoVersions_ok h
  exact ⟨a, b, ha, hb, by rw [newer_go_iff ha hb, hc]⟩

/-- Apart from Poetry's, the targets of candidates are releases, which are newer when they come
later. -/
theorem newer_of_ok {manager : ManagerName} {target : Text}
    (hmanager : manager ≠ .poetry ∧ manager ≠ .pnpm)
    (h : observeEntry manager registry targetVersions entry = .ok target) :
    Newer entry.currentVersion target := by
  obtain ⟨metadata, available, c, _, hoffered, hmem, _, hchecks, hcompare, hc⟩ := observeEntry_ok h
  obtain ⟨_, hfor⟩ := offered_ok hoffered target hmem
  have hrelease : ∀ core, manager ≠ .goModules → releaseNumbers (dropV target) = some core →
      Newer entry.currentVersion target := by
    intro core hgo hcore
    obtain ⟨a, b, ha, _, _⟩ := compareVersions_eq (compareTarget_eq hgo hcompare)
    exact newer_of_release ha hcore (compareTarget_eq hgo hcompare) hc
  cases manager with
  | npm =>
    obtain ⟨b, hb, hpre⟩ := isRelease_eq hfor.1
    obtain ⟨a, b', ha, hb', rfl⟩ := compareVersions_eq (compareTarget_eq (by decide) hcompare)
    rw [hb] at hb'
    cases hb'
    exact (newer_release_iff ha hb hpre).2 hc
  | uv =>
    obtain ⟨core, hcore⟩ := Option.isSome_iff_exists.1 hfor
    obtain ⟨groups, hgroups, _⟩ := Option.map_eq_some_iff.1 hcore
    exact hrelease core (by decide) (by rw [dropV_release hgroups]; exact hcore)
  | cargo =>
    obtain ⟨_, _, _, core, _, _, hcore, _⟩ := hfor
    exact hrelease core (by decide) (releaseNumbers_of_stableVersion hcore)
  | composer =>
    obtain ⟨_, _, _, core, _, hcore, _⟩ := hfor
    exact hrelease core (by decide) (releaseNumbers_of_composer hcore)
  | goModules =>
    obtain ⟨_, _, _, _, hnewer⟩ := compareTarget_go hcompare
    exact hnewer.1 hc
  | poetry => exact absurd rfl hmanager.1
  | pnpm => exact absurd rfl hmanager.2

theorem admits_of_ok {manager : ManagerName} {target : Text}
    (huv : manager = .uv → ∃ floor, entry.specifier = '>' :: '=' :: floor)
    (h : observeEntry manager registry targetVersions entry = .ok target) :
    Admits manager entry.package entry.specifier target := by
  obtain ⟨metadata, available, c, _, hoffered, hmem, _, hchecks, _, _⟩ := observeEntry_ok h
  obtain ⟨_, hfor⟩ := offered_ok hoffered target hmem
  cases manager with
  | npm => exact hfor.2
  | cargo => exact hfor.2
  | composer => exact hfor.2
  | uv =>
    obtain ⟨floor, hspec⟩ := huv rfl
    simp only [targetChecks, except_bind_eq_ok, require_eq_ok, liftPy_eq_ok, hspec,
      List.drop_succ_cons, List.drop_zero] at hchecks
    obtain ⟨_, _, comparison, hcompare, hnonneg⟩ := hchecks
    obtain ⟨actual, lower, hactual, hlower, hle⟩ :=
      compareUvReleases_nonneg hcompare (of_decide_eq_true hnonneg)
    exact ⟨floor, lower, actual, hspec, hlower, hactual, hle⟩
  | goModules =>
    simp only [targetChecks] at hchecks
    split at hchecks
    · cases hchecks
    · rename_i hvalid
      exact go_path_admits hvalid
  | poetry => trivial
  | pnpm => trivial

theorem legal_of_ok {manager : ManagerName} {target : Text} {baselineSha : Text}
    {adapter : ManagerAdapter}
    (huv : manager = .uv → ∃ floor, entry.specifier = '>' :: '=' :: floor)
    (h : observeEntry manager registry targetVersions entry = .ok target)
    (hnewer : Newer entry.currentVersion target) :
    LegalUpgrade registry manager (makeCandidate baselineSha adapter entry target) := by
  refine ⟨?_, hnewer, admits_of_ok huv h⟩
  obtain ⟨metadata, available, c, hmetadata, hoffered, hmem, _⟩ := observeEntry_ok h
  obtain ⟨havailable, hfor⟩ := offered_ok hoffered target hmem
  refine ⟨metadata, hmetadata, havailable, ?_⟩
  rintro (rfl | rfl)
  · exact hfor.1
  · exact hfor.1

theorem nothingNewer_of_unchanged {manager : ManagerName}
    (h : observeEntry manager registry targetVersions entry = .error .unchanged) :
    NothingNewer registry targetVersions manager entry := by
  obtain ⟨metadata, hmetadata, h⟩ := observeEntry_unchanged h
  refine ⟨metadata, hmetadata, ?_⟩
  rcases h with hoffered | ⟨available, target, hoffered, hmem, hchoice, hcompare⟩
  · left
    rcases offered_unchanged hoffered with ⟨rfl, hnone⟩ | ⟨rfl, a, ha, hnone⟩
    · intro v hv hcompatible hnewer
      obtain ⟨b, hb, hpre⟩ := isRelease_eq hcompatible.1
      obtain ⟨a, ha⟩ : ∃ a, parseVersion entry.currentVersion = some a :=
        hnewer.imp fun a ⟨_, ha, _⟩ => ha
      refine hnone v hv hcompatible.1 hcompatible.2 ?_
      simpa [comesAfter, compareVersions, ha, hb] using (newer_release_iff ha hb hpre).1 hnewer
    · rintro v hv ⟨a', b, ha', hb, hmajor⟩ hnewer
      rw [ha] at ha'
      cases ha'
      refine hnone v hv b hb hmajor ?_
      obtain ⟨c, hc, hneg⟩ := (compareGoVersions_neg_iff ha hb).2 ((newer_go_iff ha hb).1 hnewer)
      simp [comesAfterGo, hc, hneg]
  · right
    refine ⟨available, target, hchoice, (offered_ok hoffered target hmem).1, ?_⟩
    by_cases hgo : manager = .goModules
    · subst hgo
      obtain ⟨_, _, _, _, hnewer⟩ := compareTarget_go hcompare
      exact fun h => absurd (hnewer.2 h) (by omega)
    · exact not_newer_of_equal (compareTarget_eq hgo hcompare)

end

/-! ## The whole observation -/

theorem observes_uv {readers : Readers} {snapshot : DependencySnapshot} {selected : List Text}
    {manager : Option Text} {detected : ManagerAdapter} {entries : List Entry}
    (h : Observes readers snapshot selected manager detected entries) :
    ∀ entry ∈ entries, detected.name = .uv → ∃ floor, entry.specifier = '>' :: '=' :: floor := by
  obtain ⟨files, _, _, _, _, hentries⟩ := h
  intro entry he huv
  rw [huv] at hentries
  exact uvEntries_specifier hentries entry he

/-- A chosen version that overtakes the locked one becomes a candidate. -/
theorem not_legal_of_overtaken {readers : Readers} {snapshot : DependencySnapshot}
    {selected : List Text} {registry : RegistryAdapter} {targetVersions : TargetVersionAdapter}
    {manager : Option Text} {detected : ManagerAdapter} {entries : List Entry}
    (hobserves : Observes readers snapshot selected manager detected entries)
    (hpoetry : detected.name = .poetry)
    (haccepts : ∀ entry ∈ entries, ∃ target a b,
      PoetryAccepts registry targetVersions entry target a b)
    {entry : Entry} (he : entry ∈ entries) {target : Text} {a b : ParsedVersion}
    (hentry : PoetryAccepts registry targetVersions entry target a b) (hover : Overtaken a b) :
    ¬LegalObservation readers snapshot selected registry targetVersions manager := by
  intro hlegal
  have hok : observeEntry detected.name registry targetVersions entry = .ok target := by
    have hneg := overtaken_neg hover
    rw [hpoetry, observeEntry_of_accepts hentry, if_neg (by omega)]
  have hall : ∀ e ∈ entries,
      observeEntry detected.name registry targetVersions e = .error .unchanged ∨
        ∃ t, observeEntry detected.name registry targetVersions e = .ok t := by
    intro e hmem
    obtain ⟨t, a, b, haccept⟩ := haccepts e hmem
    rw [hpoetry, observeEntry_of_accepts haccept]
    by_cases hzero : compareParsed a b = 0
    · exact .inl (if_pos hzero)
    · exact .inr ⟨t, if_neg hzero⟩
  obtain ⟨result, reasons, hrun, _, hresult⟩ := run_of_accepted
    hall
  have hcandidate := hresult entry he target hok
  have hlegal := hlegal detected entries hobserves
  rw [observeDependencies_eq hobserves, hrun, if_neg (List.ne_nil_of_mem hcandidate)] at hlegal
  obtain ⟨a', b', ha', hb', hprecedes⟩ := (hlegal _ hcandidate).newer
  obtain ⟨ha, hb, _⟩ := hentry
  rw [makeCandidate, ha] at ha'
  rw [makeCandidate, hb] at hb'
  cases ha'
  cases hb'
  exact (precedes_iff_not_overtaken a b (overtaken_neg hover)).1 hprecedes hover

theorem observation_legal_iff (readers : Readers) (snapshot : DependencySnapshot)
    (selected : List Text) (registry : RegistryAdapter) (targetVersions : TargetVersionAdapter)
    (manager : Option Text) :
    LegalObservation readers snapshot selected registry targetVersions manager ↔
      NoneOvertaken readers snapshot selected registry targetVersions manager := by
  constructor
  · intro hlegal detected entries hobserves hpoetry haccepts entry he target a b hentry hover
    exact not_legal_of_overtaken hobserves hpoetry haccepts he hentry hover hlegal
  · intro hnone detected entries hobserves
    rw [observeDependencies_eq hobserves]
    split
    · rename_i found reasons hrun
      intro c hc
      rcases candidates_of_run hrun c hc with hc | ⟨entry, he, target, hok, rfl⟩
      · cases hc
      · refine legal_of_ok (observes_uv hobserves entry he) hok ?_
        by_cases hpoetry : detected.name = .poetry
        · have haccepts : ∀ e ∈ entries, ∃ t a b,
              PoetryAccepts registry targetVersions e t a b := by
            intro e hmem
            rcases accepted_of_run hrun e hmem with hunchanged | ⟨t, ht⟩
            · rw [hpoetry] at hunchanged
              exact accepts_of_unchanged hunchanged
            · rw [hpoetry] at ht
              obtain ⟨a, b, haccept, _⟩ := accepts_of_ok ht
              exact ⟨t, a, b, haccept⟩
          rw [hpoetry] at hok
          obtain ⟨a, b, haccept, hneg⟩ := accepts_of_ok hok
          have hno := hnone detected entries hobserves hpoetry haccepts entry he target a b haccept
          exact ⟨a, b, haccept.1, haccept.2.1, (precedes_iff_not_overtaken a b hneg).2 hno⟩
        · obtain ⟨_, _, _, hpnpm, _⟩ := hobserves
          exact newer_of_ok ⟨hpoetry, hpnpm⟩ hok
    · rename_i reasons hrun
      exact fun entry he => nothingNewer_of_unchanged ((unchanged_of_run hrun).2 entry he)
    · trivial

/-! ## A prerelease that overtakes -/

def samplePyproject : Text :=
  "[tool.poetry.dependencies]\npython = \"^3.11\"\ndemo = \"^1.0.0\"\n".toList

def sampleLock : Text := "[[package]]\nname = \"demo\"\nversion = \"1.0.0-rc.10\"\n".toList

def sampleTomlLoads : TomlLoads := fun text =>
  if text = samplePyproject then
    .ok [("tool".toList, .table [("poetry".toList, .table [("dependencies".toList, .table
      [("python".toList, .str "^3.11".toList), ("demo".toList, .str "^1.0.0".toList)])])])]
  else if text = sampleLock then
    .ok [("package".toList, .array [.table
      [("name".toList, .str "demo".toList), ("version".toList, .str "1.0.0-rc.10".toList)]])]
  else .error "not in this repository".toList

def sampleReaders : Readers where
  tomlLoads := sampleTomlLoads
  detectDependencyManager := fun _ => .error "manager requested".toList
  explicitNpmConflict := fun _ => none
  npmEntries := fun _ _ => refuse "Poetry project"
  cargoEntries := fun _ _ => refuse "Poetry project"
  composerEntries := fun _ _ => refuse "Poetry project"
  goEntries := fun _ _ => refuse "Poetry project"
  observePnpmDependencies := fun _ _ _ _ => .ok (unsupported "Poetry project".toList)

def sampleSnapshot : DependencySnapshot where
  files := .ofItems [("pyproject.toml".toList, samplePyproject), ("poetry.lock".toList, sampleLock)]
  baselineSha := "0123456789abcdef".toList

def sampleRegistry : RegistryAdapter where
  packageMetadata := fun _ => .ok (some ⟨["1.0.0-rc.9".toList, "1.0.0-rc.10".toList], []⟩)

def sampleTargets : TargetVersionAdapter := fun _ _ _ _ => .ok (some "1.0.0-rc.9".toList)

def sampleEntry : Entry :=
  ⟨"demo".toList, "dependencies".toList, "^1.0.0".toList, "1.0.0-rc.10".toList,
    "pyproject.toml".toList, "poetry.lock".toList⟩

def sampleAdapter : ManagerAdapter :=
  ⟨.poetry, "python".toList, "pyproject.toml".toList, "poetry.lock".toList⟩

theorem sample_observes :
    Observes sampleReaders sampleSnapshot [] (some "poetry".toList) sampleAdapter [sampleEntry] := by
  refine ⟨sampleSnapshot.files, ?_, ?_, ?_, ?_, ?_⟩
  · rfl
  · decide +kernel
  · decide
  · decide +kernel
  · decide +kernel

/-- A locked `rc.10` is replaced by `rc.9`. -/
theorem older_prerelease_observed : ¬LegalObservation sampleReaders sampleSnapshot []
    sampleRegistry sampleTargets (some "poetry".toList) := by
  have haccepts : PoetryAccepts sampleRegistry sampleTargets sampleEntry "1.0.0-rc.9".toList
      ⟨⟨1, 0, 0⟩, ["rc".toList, "10".toList]⟩ ⟨⟨1, 0, 0⟩, ["rc".toList, "9".toList]⟩ := by
    refine ⟨by decide +kernel, by decide +kernel, by decide +kernel, _, rfl, ?_, ?_, rfl⟩
    · decide +kernel
    · decide +kernel
  refine not_legal_of_overtaken sample_observes rfl ?_ List.mem_cons_self haccepts ?_
  · intro entry he
    obtain rfl := List.mem_singleton.1 he
    exact ⟨_, _, _, haccepts⟩
  · have hten : identifier "10".toList = .numeric 10 := by decide +kernel
    have hnine : identifier "9".toList = .numeric 9 := by decide +kernel
    refine ⟨rfl, ?_⟩
    simp only [Misordered, if_true, hten, hnine]
    rw [if_neg (by decide)]
    exact ⟨by decide +kernel, .inl (by decide)⟩

end Agentrail.Observation
