import Agentrail.Dependencies.GoSumdbNoteCustody

/-!
# The chain of signed tree notes is linear

What a note that the database accepts has to be (`Accepted`) already makes the chain linear: its
prior note is there and is the newest, since the generation after any other is taken
(`linear_append`).  `Sound` is the invariant of the store; `note_chain_linear` is the result.
-/

namespace Agentrail.NoteCustody

open Js

/-- Generations from 0 on in the order of insertion; the first names no prior note, each later one
names the digest and the generation of the one before and has another digest. -/
structure Linear (chain : List NoteRow) : Prop where
  generations : chain.map (fun n => n.generation) = List.range chain.length
  bootstrap : ∀ n ∈ chain, n.generation = 0 →
    n.expectedPriorSignedTreeNoteSha256 = none ∧ n.expectedPriorGeneration = none
  successor : ∀ n ∈ chain, 0 < n.generation → ∃ p ∈ chain, p.generation + 1 = n.generation ∧
    n.expectedPriorSignedTreeNoteSha256 = some p.signedTreeNoteSha256 ∧
    n.expectedPriorGeneration = some p.generation ∧
    n.signedTreeNoteSha256 ≠ p.signedTreeNoteSha256

theorem Linear.generation_lt {chain : List NoteRow} (h : Linear chain) (n : NoteRow)
    (hn : n ∈ chain) : n.generation < chain.length := by
  have hmem : n.generation ∈ chain.map fun n => n.generation := List.mem_map_of_mem hn
  rw [h.generations] at hmem
  exact List.mem_range.mp hmem

theorem Linear.exists_generation {chain : List NoteRow} (h : Linear chain) (g : Nat)
    (hg : g < chain.length) : ∃ n ∈ chain, n.generation = g := by
  have hmem : g ∈ chain.map fun n => n.generation := by
    rw [h.generations]
    exact List.mem_range.mpr hg
  exact List.mem_map.mp hmem

theorem Linear.eq_of_generation {chain : List NoteRow} (h : Linear chain) (n n' : NoteRow)
    (hn : n ∈ chain) (hn' : n' ∈ chain) (hsame : n.generation = n'.generation) : n = n' := by
  have hnodup : (chain.map fun n => n.generation).Nodup := by
    rw [h.generations]
    exact List.nodup_range
  exact List.inj_on_of_nodup_map hnodup hn hn' hsame

/-- The newest note is the last one. -/
theorem Linear.newest {chain : List NoteRow} (h : Linear chain) (scan : NoteRow → Nat) (p : NoteRow)
    (hp : Table.firstBy (fun n => -(n.generation : Int)) scan chain = some p) :
    p ∈ chain ∧ p.generation + 1 = chain.length := by
  have hmem := Table.firstBy_mem _ _ _ _ hp
  have hlt := h.generation_lt p hmem
  refine ⟨hmem, ?_⟩
  obtain ⟨m, hm, hmlast⟩ := h.exists_generation (chain.length - 1) (by omega)
  have hle := Table.firstBy_le _ _ _ _ _ hp hm
  omega

theorem Linear.append {chain : List NoteRow} (h : Linear chain) (n : NoteRow)
    (hgen : n.generation = chain.length)
    (hboot : n.generation = 0 →
      n.expectedPriorSignedTreeNoteSha256 = none ∧ n.expectedPriorGeneration = none)
    (hsucc : 0 < n.generation → ∃ p ∈ chain, p.generation + 1 = n.generation ∧
      n.expectedPriorSignedTreeNoteSha256 = some p.signedTreeNoteSha256 ∧
      n.expectedPriorGeneration = some p.generation ∧
      n.signedTreeNoteSha256 ≠ p.signedTreeNoteSha256) : Linear (chain ++ [n]) where
  generations := by
    rw [List.map_append, h.generations, List.map_singleton, hgen, List.length_append,
      List.length_singleton, List.range_succ]
  bootstrap := by
    intro m hm
    rcases List.mem_append.mp hm with hm | hm
    · exact h.bootstrap m hm
    · rw [List.mem_singleton.mp hm]
      exact hboot
  successor := by
    intro m hm hpos
    rcases List.mem_append.mp hm with hm | hm
    · obtain ⟨p, hp, hrest⟩ := h.successor m hm hpos
      exact ⟨p, List.mem_append_left _ hp, hrest⟩
    · rw [List.mem_singleton.mp hm] at hpos ⊢
      obtain ⟨p, hp, hrest⟩ := hsucc hpos
      exact ⟨p, List.mem_append_left _ hp, hrest⟩

theorem Linear.nil : Linear [] := ⟨rfl, by simp, by simp⟩

/-! ## One insertion -/

section
variable (sha256 : Bytes → Text)

/-- What the constraints of the database say of a note that goes in. -/
structure Accepted (n : NoteRow) (s s' : Store) : Prop where
  checks : n.checks sha256
  watches : s'.watches = s.watches
  observations : s'.observations = s.observations
  notes : s'.notes.rows = s.notes.rows ++ [n]
  fresh : ∀ m ∈ s.notes.rows, m.watchId = n.watchId → m.generation ≠ n.generation
  hasWatch : n.hasWatch s
  sourced : s.observations.rows.any n.isFrom
  hasPrior : n.hasPrior s

theorem insertNote_ok (n : NoteRow) (s s' : Store) (h : insertNote sha256 n s = .ok s') :
    Accepted sha256 n s s' := by
  unfold insertNote at h
  rw [Py.ite_error_eq_ok, Py.ite_error_eq_ok] at h
  obtain ⟨-, hchecks, h⟩ := h
  split at h
  · cases h
  · next notes hinsert =>
    split at h
    · next hfk =>
      cases h
      simp only [Bool.and_eq_true] at hfk
      refine ⟨by simpa using hchecks, rfl, rfl, Table.rows_insert _ _ _ hinsert, ?_, hfk.1.1,
        hfk.1.2, hfk.2⟩
      intro m hm hwatch hgen
      have htaken : s.notes.insert n = none := by
        refine (Table.insert_eq_none _ _).mpr
          ⟨fun n => NoteKey.watchGeneration n.watchId n.generation, by simp, ?_⟩
        refine List.mem_map.mpr ⟨m, hm, ?_⟩
        rw [hwatch, hgen]
      rw [htaken] at hinsert
      cases hinsert
    · cases h

theorem mem_chain (s : Store) (l : Lineage) (n : NoteRow) :
    n ∈ s.chain l ↔ n ∈ s.notes.rows ∧ n.lineage = l := by
  unfold Store.chain
  rw [List.mem_filter, decide_eq_true_iff]

theorem Accepted.chain {n : NoteRow} {s s' : Store} (h : Accepted sha256 n s s') (l : Lineage) :
    s'.chain l = s.chain l ++ if n.lineage = l then [n] else [] := by
  unfold Store.chain
  rw [h.notes, List.filter_append]
  by_cases hl : n.lineage = l
  · rw [if_pos hl, List.filter_cons_of_pos (by simpa using hl), List.filter_nil]
  · rw [if_neg hl, List.filter_cons_of_neg (by simpa using hl), List.filter_nil]

/-- A chain that is linear stays so. -/
theorem Accepted.linear {n : NoteRow} {s s' : Store} (h : Accepted sha256 n s s')
    (hlinear : Linear (s.chain n.lineage)) : Linear (s.chain n.lineage ++ [n]) := by
  have hchecks := h.checks
  simp only [NoteRow.checks, Bool.and_eq_true] at hchecks
  obtain ⟨⟨⟨-, hlineage⟩, hsha⟩, -⟩ := hchecks
  have hfree : ∀ g, g < (s.chain n.lineage).length → g ≠ n.generation := by
    rintro g hg rfl
    obtain ⟨m, hm, hgen⟩ := hlinear.exists_generation _ hg
    obtain ⟨hm, hl⟩ := (mem_chain s _ m).mp hm
    exact h.fresh m hm (congrArg Lineage.watchId hl) hgen
  by_cases hzero : n.generation = 0
  · refine hlinear.append n ?_ ?_ (fun hpos => absurd hzero (by omega))
    · by_contra hne
      exact hfree 0 (by omega) hzero.symm
    · intro _
      simpa [NoteRow.lineageCheck, hzero] using hlineage
  · have hpos : 0 < n.generation := by omega
    simp only [NoteRow.lineageCheck, hzero, hpos, decide_false, decide_true, Bool.false_and,
      Bool.false_or, Bool.true_and, Bool.and_eq_true, decide_eq_true_eq] at hlineage
    obtain ⟨hsome, hgen⟩ := hlineage
    obtain ⟨prior, hprior⟩ := Option.isSome_iff_exists.mp hsome
    have hfk := h.hasPrior
    simp only [NoteRow.hasPrior, hprior, hgen, Option.isNone_some, Bool.false_or,
      List.any_eq_true, NoteRow.succeeds, Bool.and_eq_true, decide_eq_true_eq] at hfk
    obtain ⟨p, hp, ⟨⟨⟨hws, hwatch⟩, hrepo⟩, hdigest⟩, hpgen⟩ := hfk
    have hpchain : p ∈ s.chain n.lineage := by
      refine (mem_chain s _ p).mpr ⟨hp, ?_⟩
      rw [NoteRow.lineage, NoteRow.lineage, hws, hwatch, hrepo]
    have hnext : p.generation + 1 = n.generation := by
      have := Option.some.inj hpgen
      omega
    have hlt := hlinear.generation_lt p hpchain
    refine hlinear.append n ?_ (fun h0 => absurd h0 hzero) fun _ => ⟨p, hpchain, hnext, ?_, ?_, ?_⟩
    · by_contra hne
      exact hfree n.generation (by omega) rfl
    · rw [hprior, hdigest]
    · rw [hgen, hpgen]
    · intro hsame
      simp only [NoteRow.shaCheck, hprior, Option.all_some, Bool.and_eq_true, decide_not,
        Bool.not_eq_true'] at hsha
      rw [Option.some.inj hdigest, hsame] at hsha
      simp at hsha

/-! ## The invariant -/

/-- The call that a note came from. -/
def NoteRow.input (n : NoteRow) : RetainInput where
  workspaceId := n.workspaceId
  watchId := n.watchId
  repositoryId := n.repositoryId
  sourceObservationId := n.sourceObservationId
  expectedPriorSignedTreeNoteSha256 := n.expectedPriorSignedTreeNoteSha256
  signedTreeNoteBase64 := n.signedTreeNoteBase64
  signedTreeNoteSha256 := n.signedTreeNoteSha256

structure Sound (s : Store) : Prop where
  linear : ∀ l, Linear (s.chain l)
  watched : ∀ n ∈ s.notes.rows, n.hasWatch s
  sourced : ∀ n ∈ s.notes.rows, s.observations.rows.any n.isFrom
  checked : ∀ n ∈ s.notes.rows, n.checks sha256
  valid : ∀ n ∈ s.notes.rows, n.input.Valid sha256

theorem Sound.empty : Sound sha256 .empty :=
  ⟨fun _ => Linear.nil, by simp [Store.empty, Table.empty], by simp [Store.empty, Table.empty],
    by simp [Store.empty, Table.empty], by simp [Store.empty, Table.empty]⟩

theorem Sound.accepted {n : NoteRow} {s s' : Store} (hs : Sound sha256 s)
    (h : Accepted sha256 n s s') (hvalid : n.input.Valid sha256) : Sound sha256 s' := by
  have hall : ∀ {P : NoteRow → Prop}, (∀ m ∈ s.notes.rows, P m) → P n →
      ∀ m ∈ s'.notes.rows, P m := by
    intro P hrows hn m hm
    rw [h.notes] at hm
    rcases List.mem_append.mp hm with hm | hm
    · exact hrows m hm
    · rw [List.mem_singleton.mp hm]
      exact hn
  refine ⟨fun l => ?_, ?_, ?_, hall hs.checked h.checks, hall hs.valid hvalid⟩
  · rw [h.chain]
    split
    · next hl =>
      subst hl
      exact h.linear sha256 (hs.linear _)
    · rw [List.append_nil]
      exact hs.linear l
  · have hwatched : ∀ m : NoteRow, m.hasWatch s' = m.hasWatch s := fun m => by
      unfold NoteRow.hasWatch
      rw [h.watches]
    simp only [hwatched]
    exact hall hs.watched h.hasWatch
  · rw [h.observations]
    exact hall hs.sourced h.sourced

/-- What a call does: nothing, or it inserts the note it sends. -/
theorem retain_cases (input : Json) (s : Store) :
    (retainGoSumdbSignedTreeNote sha256 input s).1 = s ∨
      ∃ i receipt priorGeneration generation, validatedRawSignedTreeNote sha256 input = .ok i ∧
        insertNote sha256 (i.note receipt priorGeneration generation) s =
          .ok (retainGoSumdbSignedTreeNote sha256 input s).1 := by
  unfold retainGoSumdbSignedTreeNote transaction
  split
  · next t a hok =>
    obtain ⟨i, hi, htx⟩ := (Py.except_bind_eq_ok _ _ _).mp hok
    unfold retainTransaction at htx
    split at htx
    · cases htx
    · split at htx
      · simp only [] at htx
        split at htx
        · cases htx
          exact Or.inl rfl
        · split at htx
          · cases htx
          · split at htx
            · next hinsert =>
              cases htx
              exact Or.inr ⟨i, _, _, _, hi, hinsert⟩
            · split at htx <;> cases htx
      · split at htx
        · cases htx
        · simp only [] at htx
          split at htx
          · next hinsert =>
            cases htx
            exact Or.inr ⟨i, _, _, _, hi, hinsert⟩
          · cases htx
  · exact Or.inl rfl

/-- A call that throws leaves the store as it was. -/
theorem retain_error (input : Json) (s : Store) (e : CustodyError)
    (h : (retainGoSumdbSignedTreeNote sha256 input s).2 = .error e) :
    (retainGoSumdbSignedTreeNote sha256 input s).1 = s := by
  unfold retainGoSumdbSignedTreeNote transaction at h ⊢
  split at h
  · cases h
  · rfl

/-- Other writers keep the watches and observations of the notes. -/
theorem Sound.frame {s s' : Store} (hs : Sound sha256 s) (hnotes : s'.notes = s.notes)
    (hwatch : ∀ n ∈ s.notes.rows, ∀ w ∈ s.watches.rows, w.id = n.watchId → w ∈ s'.watches.rows)
    (hobs : ∀ n ∈ s.notes.rows, ∀ o ∈ s.observations.rows, n.isFrom o →
      o ∈ s'.observations.rows) : Sound sha256 s' := by
  refine ⟨fun l => ?_, ?_, ?_, hnotes ▸ hs.checked, hnotes ▸ hs.valid⟩
  · unfold Store.chain
    rw [hnotes]
    exact hs.linear l
  · intro n hn
    rw [hnotes] at hn
    obtain ⟨w, hw, hsame⟩ := List.any_eq_true.mp (hs.watched n hn)
    refine List.any_eq_true.mpr ⟨w, hwatch n hn w hw ?_, hsame⟩
    simp only [Bool.and_eq_true, decide_eq_true_eq] at hsame
    exact hsame.1.1
  · intro n hn
    rw [hnotes] at hn
    obtain ⟨o, ho, hfrom⟩ := List.any_eq_true.mp (hs.sourced n hn)
    exact List.any_eq_true.mpr ⟨o, hobs n hn o ho hfrom, hfrom⟩

theorem NoteRow.isFrom_ids {n : NoteRow} {o : ObservationRow} (h : n.isFrom o) :
    o.id = n.sourceObservationId ∧ o.watchId = n.watchId := by
  simp only [NoteRow.isFrom, Bool.and_eq_true, decide_eq_true_eq] at h
  exact ⟨h.1.1.1.1, h.1.1.2⟩

theorem mem_getD_insert {ρ κ : Type} {constraints : List (ρ → κ)} [DecidableEq κ]
    (t : Table ρ constraints) (row r : ρ) (h : r ∈ t.rows) :
    r ∈ ((t.insert row).getD t).rows := by
  cases hinsert : t.insert row with
  | none => exact h
  | some t' =>
    rw [Option.getD_some, Table.rows_insert t t' row hinsert]
    exact List.mem_append_left _ h

theorem mem_rows_delete {ρ κ : Type} {constraints : List (ρ → κ)} (t : Table ρ constraints)
    (p : ρ → Bool) (r : ρ) : r ∈ (t.delete p).rows ↔ r ∈ t.rows ∧ p r = false := by
  unfold Table.delete
  rw [List.mem_filter, Bool.not_eq_true']

/-- Without the notes of one lineage, that chain is empty and the others are as they were. -/
theorem chain_delete (s : Store) (l l' : Lineage) :
    ({ s with notes := s.notes.delete fun n => n.lineage = l } : Store).chain l' =
      if l' = l then [] else s.chain l' := by
  unfold Store.chain Table.delete
  simp only [List.filter_filter]
  split
  · next h =>
    subst h
    refine List.filter_eq_nil_iff.mpr fun n _ => ?_
    simp
  · next h =>
    refine List.filter_congr fun n _ => ?_
    by_cases hn : n.lineage = l'
    · simp [hn, h]
    · simp [hn]

theorem teardown_sound (input : Json) (s : Store) (hs : Sound sha256 s) :
    Sound sha256 (deleteGoSumdbSignedTreeNoteCustodyForWatchTeardown input s).1 := by
  unfold deleteGoSumdbSignedTreeNoteCustodyForWatchTeardown transaction
  split
  · next t count hok =>
    obtain ⟨l, -, htx⟩ := (Py.except_bind_eq_ok _ _ _).mp hok
    split at htx
    · cases htx
      have hsub : ∀ n ∈ (s.notes.delete fun n => n.lineage = l).rows, n ∈ s.notes.rows :=
        fun n hn => ((mem_rows_delete _ _ n).mp hn).1
      refine ⟨fun l' => ?_, fun n hn => hs.watched n (hsub n hn),
        fun n hn => hs.sourced n (hsub n hn), fun n hn => hs.checked n (hsub n hn),
        fun n hn => hs.valid n (hsub n hn)⟩
      rw [chain_delete]
      split
      · exact Linear.nil
      · exact hs.linear l'
    · cases htx
  · exact hs

theorem step_sound (s : Store) (e : Event) (hs : Sound sha256 s) : Sound sha256 (step sha256 s e) := by
  cases e with
  | retain input =>
    rcases retain_cases sha256 input s with hsame | ⟨i, receipt, pg, g, hi, hinsert⟩
    · show Sound sha256 (retainGoSumdbSignedTreeNote sha256 input s).1
      rw [hsame]
      exact hs
    · exact hs.accepted sha256 (insertNote_ok sha256 _ _ _ hinsert)
        (validated_valid sha256 input i hi)
  | teardown input => exact teardown_sound sha256 input s hs
  | addWatch w =>
    exact hs.frame sha256 rfl (fun _ _ w' hw' _ => mem_getD_insert _ _ _ hw')
      fun _ _ _ ho _ => ho
  | removeWatch id =>
    simp only [step]
    split
    · exact hs
    · next hfree =>
      rw [List.any_eq_true] at hfree
      have hother : ∀ n ∈ s.notes.rows, n.watchId ≠ id := fun n hn heq =>
        hfree ⟨n, hn, decide_eq_true heq⟩
      refine hs.frame sha256 rfl (fun n hn w hw hwn => ?_) fun n hn o ho hfrom => ?_
      · refine (mem_rows_delete _ _ w).mpr ⟨hw, decide_eq_false ?_⟩
        rw [hwn]
        exact hother n hn
      · refine (mem_rows_delete _ _ o).mpr ⟨ho, decide_eq_false ?_⟩
        rw [(NoteRow.isFrom_ids hfrom).2]
        exact hother n hn
  | addObservation o =>
    simp only [step]
    split
    · exact hs.frame sha256 rfl (fun _ _ _ hw _ => hw) fun _ _ _ ho' _ => mem_getD_insert _ _ _ ho'
    · exact hs
  | removeObservation id =>
    simp only [step]
    split
    · exact hs
    · next hfree =>
      rw [List.any_eq_true] at hfree
      refine hs.frame sha256 rfl (fun _ _ _ hw _ => hw) fun n hn o ho hfrom => ?_
      refine (mem_rows_delete _ _ o).mpr ⟨ho, decide_eq_false ?_⟩
      rw [(NoteRow.isFrom_ids hfrom).1]
      exact fun heq => hfree ⟨n, hn, decide_eq_true heq⟩

theorem after_sound (s : Store) (events : List Event) (hs : Sound sha256 s) :
    Sound sha256 (after sha256 s events) := by
  induction events generalizing s with
  | nil => exact hs
  | cons e events ih => exact ih _ (step_sound sha256 s e hs)

/-! ## Chains only grow -/

theorem step_extends (s : Store) (e : Event) (he : e.isTeardown = false) (l : Lineage) :
    s.chain l <+: (step sha256 s e).chain l := by
  cases e with
  | retain input =>
    rcases retain_cases sha256 input s with hsame | ⟨i, receipt, pg, g, hi, hinsert⟩
    · show s.chain l <+: (retainGoSumdbSignedTreeNote sha256 input s).1.chain l
      rw [hsame]
    · show s.chain l <+: (retainGoSumdbSignedTreeNote sha256 input s).1.chain l
      rw [(insertNote_ok sha256 _ _ _ hinsert).chain]
      exact List.prefix_append _ _
  | teardown input => cases he
  | addWatch w => exact List.prefix_refl _
  | removeWatch id =>
    simp only [step]
    split <;> exact List.prefix_refl _
  | addObservation o =>
    simp only [step]
    split <;> exact List.prefix_refl _
  | removeObservation id =>
    simp only [step]
    split <;> exact List.prefix_refl _

theorem after_extends (s : Store) (events : List Event) (h : ∀ e ∈ events, e.isTeardown = false)
    (l : Lineage) : s.chain l <+: (after sha256 s events).chain l := by
  induction events generalizing s with
  | nil => exact List.prefix_refl _
  | cons e events ih =>
    rw [List.forall_mem_cons] at h
    exact (step_extends sha256 s e h.1 l).trans (ih _ h.2)

/-! ## What a retry meets -/

theorem sourceReceipt_eq (s : Store) (i : RetainInput) (o : ObservationRow) (receipt : Text)
    (ho : o ∈ s.observations.rows) (hid : o.id = i.sourceObservationId)
    (hws : o.workspaceId = i.workspaceId) (hwatch : o.watchId = i.watchId)
    (hrepo : o.repositoryId = i.repositoryId)
    (hreceipt : o.sourceInventoryReceiptSha256 = some receipt) (hne : receipt ≠ []) :
    s.sourceReceipt i = some receipt := by
  have hsome : (s.observations.rows.find? fun o =>
      o.id = i.sourceObservationId && o.workspaceId = i.workspaceId && o.watchId = i.watchId &&
        o.repositoryId = i.repositoryId) = some o := by
    cases hfind : s.observations.rows.find? _ with
    | none =>
      have := List.find?_eq_none.mp hfind o ho
      simp [hid, hws, hwatch, hrepo] at this
    | some o' =>
      have ho' := List.mem_of_find?_eq_some hfind
      have hmatch := List.find?_some hfind
      simp only [Bool.and_eq_true, decide_eq_true_eq] at hmatch
      rw [s.observations.eq_of_key (fun o => o.id) (by simp) o' o ho' ho
        (by rw [hmatch.1.1.1, hid])]
  rw [Store.sourceReceipt, hsome, Option.bind_some, hreceipt]
  simp [Option.filter, hne]

theorem ne_nil_of_isSha256 (t : Text) (h : isSha256 t) : t ≠ [] := by
  rintro rfl
  exact absurd h (by decide)

theorem Sound.receipt {s : Store} (hs : Sound sha256 s) (n : NoteRow) (hn : n ∈ s.notes.rows) :
    isSha256 n.sourceInventoryReceiptSha256 := by
  have hchecks := hs.checked n hn
  simp only [NoteRow.checks, NoteRow.shaCheck, Bool.and_eq_true] at hchecks
  exact hchecks.1.2.1.2

/-- A call that repeats the newest note answers with it. -/
theorem retain_retry {s : Store} (hs : Sound sha256 s) (n : NoteRow)
    (hn : s.currentNote n.lineage = some n) (input : Json)
    (hinput : validatedRawSignedTreeNote sha256 input = .ok n.input) :
    retainGoSumdbSignedTreeNote sha256 input s = (s, .ok ⟨false, n⟩) := by
  have hmem : n ∈ s.notes.rows := ((mem_chain s _ n).mp (Table.firstBy_mem _ _ _ _ hn)).1
  have hprofile : n.formatProfile = goSumdbSignedTreeNoteFormatProfile := by
    have hchecks := hs.checked n hmem
    simp only [NoteRow.checks, Bool.and_eq_true, decide_eq_true_eq] at hchecks
    exact hchecks.1.1.1
  have hreceipt : s.sourceReceipt n.input = some n.sourceInventoryReceiptSha256 := by
    obtain ⟨o, ho, hfrom⟩ := List.any_eq_true.mp (hs.sourced n hmem)
    simp only [NoteRow.isFrom, Bool.and_eq_true, decide_eq_true_eq] at hfrom
    obtain ⟨⟨⟨⟨hid, hws⟩, hwatch⟩, hrepo⟩, hsha⟩ := hfrom
    exact sourceReceipt_eq s n.input o _ ho hid hws hwatch hrepo hsha
      (ne_nil_of_isSha256 _ (hs.receipt sha256 n hmem))
  have hrepeats : n.input.repeats n.sourceInventoryReceiptSha256 n := by
    simp [RetainInput.repeats, NoteRow.input, hprofile]
  have htx : retainTransaction sha256 n.input s = .ok (s, ⟨false, n⟩) := by
    have hcurrent : s.currentNote n.input.toLineage = some n := hn
    simp only [retainTransaction, hreceipt, hcurrent, if_pos hrepeats]
  show transaction s ((validatedRawSignedTreeNote sha256 input).bind _) = _
  rw [hinput]
  show transaction s (retainTransaction sha256 n.input s) = _
  rw [htx]
  rfl

/-! ## What a successor meets -/

/-- The notes of a watch are of one lineage. -/
theorem Sound.lineage_eq {s : Store} (hs : Sound sha256 s) (n n' : NoteRow)
    (hn : n ∈ s.notes.rows) (hn' : n' ∈ s.notes.rows) (hwatch : n.watchId = n'.watchId) :
    n.lineage = n'.lineage := by
  obtain ⟨w, hw, hsame⟩ := List.any_eq_true.mp (hs.watched n hn)
  obtain ⟨w', hw', hsame'⟩ := List.any_eq_true.mp (hs.watched n' hn')
  simp only [Bool.and_eq_true, decide_eq_true_eq] at hsame hsame'
  obtain ⟨⟨hid, hws⟩, hrepo⟩ := hsame
  obtain ⟨⟨hid', hws'⟩, hrepo'⟩ := hsame'
  obtain rfl : w = w' := s.watches.eq_of_key (fun w => w.id) (by simp) w w' hw hw'
    (by rw [hid, hid', hwatch])
  rw [NoteRow.lineage, NoteRow.lineage, ← hws, ← hws', ← hrepo, ← hrepo', hwatch]

theorem RetainInput.Valid.bytesCheck {i : RetainInput} (h : i.Valid sha256) (receipt : Text)
    (priorGeneration : Option Nat) (generation : Nat) :
    (i.note receipt priorGeneration generation).bytesCheck sha256 := by
  have hshape : isCanonicalBase64 i.signedTreeNoteBase64 := by
    have hbase64 := h.base64
    unfold validatedBase64 at hbase64
    simp only [Py.ite_error_eq_ok] at hbase64
    simp only [Bool.or_eq_true, decide_eq_true_eq, Bool.not_eq_true', not_or,
      Bool.not_eq_false] at hbase64
    exact hbase64.1.2
  have hbytes := h.bytes
  unfold validatedBytes at hbytes
  simp only [Py.ite_error_eq_ok, Bool.or_eq_true, decide_eq_true_eq, not_or, not_not,
    maxGoSumdbSignedTreeNoteBytes] at hbytes
  obtain ⟨⟨⟨hne, hmax⟩, hencode⟩, hsha, -⟩ := hbytes
  have hmax := of_decide_eq_false (Bool.not_eq_true _ ▸ hmax)
  have hlength := Base64.length_encode (bufferFromBase64 i.signedTreeNoteBase64)
  rw [hencode] at hlength
  simp only [NoteRow.bytesCheck, RetainInput.note, Bool.and_eq_true]
  refine ⟨⟨⟨⟨⟨⟨hshape, decide_eq_true ?_⟩, decide_eq_true ?_⟩, decide_eq_true ?_⟩,
    decide_eq_true ?_⟩, decide_eq_true hencode⟩, decide_eq_true hsha⟩ <;> omega

/-- The observation that a call names is there and has a receipt. -/
def Store.authorizes (s : Store) (i : RetainInput) : Prop :=
  ∃ receipt, s.sourceReceipt i = some receipt ∧ isSha256 receipt

theorem exists_observation (s : Store) (i : RetainInput) (receipt : Text)
    (h : s.sourceReceipt i = some receipt) (priorGeneration : Option Nat) (generation : Nat) :
    s.observations.rows.any (i.note receipt priorGeneration generation).isFrom := by
  unfold Store.sourceReceipt at h
  obtain ⟨o, hfind, hreceipt⟩ := Option.bind_eq_some_iff.mp h
  have hmatch := List.find?_some hfind
  simp only [Bool.and_eq_true, decide_eq_true_eq] at hmatch
  obtain ⟨⟨⟨hid, hws⟩, hwatch⟩, hrepo⟩ := hmatch
  refine List.any_eq_true.mpr ⟨o, List.mem_of_find?_eq_some hfind, ?_⟩
  have hsha := (Option.filter_eq_some_iff.mp hreceipt).1
  simp [NoteRow.isFrom, RetainInput.note, hid, hws, hwatch, hrepo, hsha]

/-- A call that names the newest note of its chain and a new digest is stored. -/
theorem insertNote_successor {s : Store} (hs : Sound sha256 s) (i : RetainInput)
    (hi : i.Valid sha256) (p : NoteRow) (hp : s.currentNote i.toLineage = some p)
    (hprior : i.expectedPriorSignedTreeNoteSha256 = some p.signedTreeNoteSha256)
    (hnew : ∀ n ∈ s.chain i.toLineage, n.signedTreeNoteSha256 ≠ i.signedTreeNoteSha256)
    (receipt : Text) (hreceipt : s.sourceReceipt i = some receipt) (hsha : isSha256 receipt)
    (hfits : p.generation < 2147483647) :
    ∃ s', insertNote sha256 (i.note receipt (some p.generation) (p.generation + 1)) s = .ok s' := by
  have hlinear := hs.linear i.toLineage
  obtain ⟨hpmem, hplast⟩ := hlinear.newest _ p hp
  obtain ⟨hprow, hpl⟩ := (mem_chain s _ p).mp hpmem
  have hmem : ∀ m ∈ s.notes.rows, m.watchId = i.watchId → m ∈ s.chain i.toLineage := by
    intro m hm hwatch
    refine (mem_chain s _ m).mpr ⟨hm, ?_⟩
    rw [← hpl]
    refine hs.lineage_eq sha256 m p hm hprow ?_
    rw [hwatch]
    exact (congrArg Lineage.watchId hpl).symm
  have hne : p.signedTreeNoteSha256 ≠ i.signedTreeNoteSha256 := hnew p hpmem
  have hchecks : (i.note receipt (some p.generation) (p.generation + 1)).checks sha256 := by
    have hbytes := hi.bytesCheck sha256 receipt (some p.generation) (p.generation + 1)
    have hpsha := hi.prior p.signedTreeNoteSha256 hprior
    rw [NoteRow.checks, hbytes, Bool.and_true]
    simp [NoteRow.lineageCheck, NoteRow.shaCheck, RetainInput.note, hprior, hpsha, hne, hsha,
      hi.digest]
  have hfree : s.notes.insert (i.note receipt (some p.generation) (p.generation + 1)) ≠ none := by
    intro hnone
    obtain ⟨key, hkey, htaken⟩ := (Table.insert_eq_none _ _).mp hnone
    obtain ⟨m, hm, hsame⟩ := List.mem_map.mp htaken
    simp only [List.mem_cons, List.not_mem_nil, or_false] at hkey
    rcases hkey with rfl | rfl | rfl
    · injection hsame with hwatch hgen
      have hlt := hlinear.generation_lt m (hmem m hm hwatch)
      have hgen' : m.generation = p.generation + 1 := hgen
      omega
    · injection hsame with hwatch hdigest
      exact hnew m (hmem m hm hwatch) hdigest
    · simp only [NoteRow.priorKey, RetainInput.note, hprior] at hsame
      -- the note that names `p` already would be the one after it
      split at hsame
      · next prior hmprior =>
        injection hsame with hwatch hdigest
        have hmchain := hmem m hm hwatch
        have hpos : 0 < m.generation := by
          by_contra hzero
          have hnone := (hlinear.bootstrap m hmchain (by omega)).1
          rw [hmprior] at hnone
          cases hnone
        obtain ⟨q, hq, hqgen, hqdigest, -, -⟩ := hlinear.successor m hmchain hpos
        rw [hmprior, hdigest] at hqdigest
        have hqrow := ((mem_chain s _ q).mp hq)
        obtain rfl : p = q := by
          refine s.notes.eq_of_key (fun n => NoteKey.watchNote n.watchId n.signedTreeNoteSha256)
            (by simp) p q hprow hqrow.1 ?_
          have hwatchId : p.watchId = q.watchId := congrArg Lineage.watchId (hpl.trans hqrow.2.symm)
          rw [Option.some.inj hqdigest, hwatchId]
        have hlt := hlinear.generation_lt m hmchain
        omega
      · cases hsame
  obtain ⟨notes, hinsert⟩ := Option.ne_none_iff_exists'.mp hfree
  refine ⟨{ s with notes := notes }, ?_⟩
  have hfk : (i.note receipt (some p.generation) (p.generation + 1)).hasWatch s ∧
      s.observations.rows.any (i.note receipt (some p.generation) (p.generation + 1)).isFrom ∧
      (i.note receipt (some p.generation) (p.generation + 1)).hasPrior s := by
    have hws : p.workspaceId = i.workspaceId := congrArg Lineage.workspaceId hpl
    have hwatch : p.watchId = i.watchId := congrArg Lineage.watchId hpl
    have hrepo : p.repositoryId = i.repositoryId := congrArg Lineage.repositoryId hpl
    refine ⟨?_, exists_observation s i receipt hreceipt _ _, ?_⟩
    · have hpwatch := hs.watched p hprow
      rw [NoteRow.hasWatch, hws, hwatch, hrepo] at hpwatch
      exact hpwatch
    · simp only [NoteRow.hasPrior, Bool.or_eq_true, List.any_eq_true]
      refine Or.inr ⟨p, hprow, ?_⟩
      simp [NoteRow.succeeds, RetainInput.note, hws, hwatch, hrepo, hprior]
  unfold insertNote
  have hbound : ¬ 2147483647 < (i.note receipt (some p.generation) (p.generation + 1)).generation :=
    Nat.not_lt.mpr hfits
  rw [if_neg hbound]
  simp [hchecks, hinsert, hfk]

/-- The call goes through. -/
theorem retain_successor {s : Store} (hs : Sound sha256 s) (input : Json) (i : RetainInput)
    (hi : validatedRawSignedTreeNote sha256 input = .ok i) (p : NoteRow)
    (hp : s.currentNote i.toLineage = some p)
    (hprior : i.expectedPriorSignedTreeNoteSha256 = some p.signedTreeNoteSha256)
    (hnew : ∀ n ∈ s.chain i.toLineage, n.signedTreeNoteSha256 ≠ i.signedTreeNoteSha256)
    (hauth : s.authorizes i) (hfits : p.generation < 2147483647) :
    ∃ n ∈ (retainGoSumdbSignedTreeNote sha256 input s).1.chain i.toLineage,
      n.expectedPriorSignedTreeNoteSha256 = some p.signedTreeNoteSha256 := by
  obtain ⟨receipt, hreceipt, hsha⟩ := hauth
  obtain ⟨s', hinsert⟩ := insertNote_successor sha256 hs i (validated_valid sha256 input i hi) p hp
    hprior hnew receipt hreceipt hsha hfits
  have hne : i.signedTreeNoteSha256 ≠ p.signedTreeNoteSha256 :=
    (hnew p (Table.firstBy_mem _ _ _ _ hp)).symm
  have hrepeats : i.repeats receipt p = false := by
    simp [RetainInput.repeats, hne.symm]
  have htx : retainTransaction sha256 i s =
      .ok (s', ⟨true, i.note receipt (some p.generation) (p.generation + 1)⟩) := by
    simp [retainTransaction, hreceipt, hp, hrepeats, hprior, hne, hinsert]
  have hretain : retainGoSumdbSignedTreeNote sha256 input s =
      (s', .ok ⟨true, i.note receipt (some p.generation) (p.generation + 1)⟩) := by
    show transaction s ((validatedRawSignedTreeNote sha256 input).bind _) = _
    rw [hi]
    show transaction s (retainTransaction sha256 i s) = _
    rw [htx]
    rfl
  refine ⟨i.note receipt (some p.generation) (p.generation + 1), ?_, hprior⟩
  rw [hretain, (insertNote_ok sha256 _ _ _ hinsert).chain]
  have hlineage : (i.note receipt (some p.generation) (p.generation + 1)).lineage = i.toLineage := rfl
  rw [if_pos hlineage]
  exact List.mem_append_right _ (List.mem_singleton_self _)

/-- The note after one that is not the newest names it. -/
theorem Sound.exists_next {s : Store} (hs : Sound sha256 s) (l : Lineage) (p : NoteRow)
    (hp : p ∈ s.chain l) (hlt : p.generation + 1 < (s.chain l).length) :
    ∃ n ∈ s.chain l, n.expectedPriorSignedTreeNoteSha256 = some p.signedTreeNoteSha256 := by
  have hlinear := hs.linear l
  obtain ⟨n, hn, hgen⟩ := hlinear.exists_generation _ hlt
  obtain ⟨q, hq, hqgen, hqdigest, -, -⟩ := hlinear.successor n hn (by omega)
  have hpq : p = q := hlinear.eq_of_generation p q hp hq (by omega)
  exact ⟨n, hn, hpq ▸ hqdigest⟩

/-- No two notes of a chain name the same note. -/
theorem prior_inj (s : Store) (l : Lineage) (n n' : NoteRow) (prior : Text) (hn : n ∈ s.chain l)
    (hn' : n' ∈ s.chain l) (hprior : n.expectedPriorSignedTreeNoteSha256 = some prior)
    (hprior' : n'.expectedPriorSignedTreeNoteSha256 = some prior) : n = n' := by
  obtain ⟨hrow, hl⟩ := (mem_chain s l n).mp hn
  obtain ⟨hrow', hl'⟩ := (mem_chain s l n').mp hn'
  refine s.notes.eq_of_key NoteRow.priorKey (by simp) n n' hrow hrow' ?_
  have hwatch : n.watchId = n'.watchId := congrArg Lineage.watchId (hl.trans hl'.symm)
  simp only [NoteRow.priorKey, hprior, hprior', hwatch]

/-- Of the calls that want to succeed the newest note one gets through. -/
theorem exists_successor {s : Store} (hs : Sound sha256 s) (p : NoteRow) (before later : List Event)
    (hquiet : ∀ e ∈ before ++ later, e.isTeardown = false) (input : Json) (i : RetainInput)
    (hi : validatedRawSignedTreeNote sha256 input = .ok i)
    (hp : s.currentNote i.toLineage = some p)
    (hprior : i.expectedPriorSignedTreeNoteSha256 = some p.signedTreeNoteSha256)
    (hnew : ∀ n ∈ s.chain i.toLineage, n.signedTreeNoteSha256 ≠ i.signedTreeNoteSha256)
    (hauth : (after sha256 s before).authorizes i) (hfits : p.generation < 2147483647) :
    ∃ n ∈ (after sha256 s (before ++ .retain input :: later)).chain i.toLineage,
      n.expectedPriorSignedTreeNoteSha256 = some p.signedTreeNoteSha256 := by
  have hm := after_sound sha256 s before hs
  obtain ⟨hpmem, hplast⟩ := (hs.linear i.toLineage).newest _ p hp
  have hgrow := after_extends sha256 s before
    (fun e he => hquiet e (List.mem_append_left _ he)) i.toLineage
  have hkeep := after_extends sha256 (step sha256 (after sha256 s before) (.retain input)) later
    (fun e he => hquiet e (List.mem_append_right _ he)) i.toLineage
  have hsplit : after sha256 s (before ++ .retain input :: later) =
      after sha256 (step sha256 (after sha256 s before) (.retain input)) later := by
    rw [after, List.foldl_append, List.foldl_cons]
    rfl
  rw [hsplit]
  -- either no other call was there first, or its note is the one after `p`
  rcases Nat.lt_or_ge (s.chain i.toLineage).length
    ((after sha256 s before).chain i.toLineage).length with hlonger | hshort
  · obtain ⟨n, hn, hname⟩ := hm.exists_next sha256 i.toLineage p (hgrow.subset hpmem) (by omega)
    exact ⟨n, hkeep.subset ((step_extends sha256 _ _ rfl _).subset hn), hname⟩
  · have hsame : (after sha256 s before).chain i.toLineage = s.chain i.toLineage :=
      (hgrow.eq_of_length_le hshort).symm
    have hcurrent : (after sha256 s before).currentNote i.toLineage = some p := by
      rw [Store.currentNote, hsame]
      exact hp
    obtain ⟨n, hn, hname⟩ := retain_successor sha256 hm input i hi p hcurrent hprior
      (by rw [hsame]; exact hnew) hauth hfits
    exact ⟨n, hkeep.subset hn, hname⟩

/-- **The chain never forks or rolls back.**  After any steps of any writers: the chain is linear;
a rejected call leaves the store as it was; the newest note can be sent again, and a call that does
so stores nothing and answers with it.  From there on, as long as no teardown comes, the chain only
grows at its end, no two notes name one note, and when there is among the calls one that names the
newest note, with a new digest and an observation it may use when it is its turn, then exactly one
note names that note; only the generation must fit its column. -/
theorem note_chain_linear (events : List Event) (l : Lineage) :
    let s := after sha256 .empty events
    Linear (s.chain l) ∧
    (∀ input e, (retainGoSumdbSignedTreeNote sha256 input s).2 = .error e →
      (retainGoSumdbSignedTreeNote sha256 input s).1 = s) ∧
    (∀ n, s.currentNote l = some n →
      validatedRawSignedTreeNote sha256 n.input.json = .ok n.input ∧
      ∀ input, validatedRawSignedTreeNote sha256 input = .ok n.input →
        retainGoSumdbSignedTreeNote sha256 input s = (s, .ok ⟨false, n⟩)) ∧
    ∀ more, (∀ e ∈ more, e.isTeardown = false) →
      let t := after sha256 s more
      s.chain l <+: t.chain l ∧
      (∀ n ∈ t.chain l, ∀ n' ∈ t.chain l, n.expectedPriorSignedTreeNoteSha256 ≠ none →
        n.expectedPriorSignedTreeNoteSha256 = n'.expectedPriorSignedTreeNoteSha256 → n = n') ∧
      ∀ p, s.currentNote l = some p → p.generation < 2147483647 →
        (∃ before input later i, more = before ++ .retain input :: later ∧
          validatedRawSignedTreeNote sha256 input = .ok i ∧ i.toLineage = l ∧
          i.expectedPriorSignedTreeNoteSha256 = some p.signedTreeNoteSha256 ∧
          (∀ n ∈ s.chain l, n.signedTreeNoteSha256 ≠ i.signedTreeNoteSha256) ∧
          (after sha256 s before).authorizes i) →
        ∃! n, n ∈ t.chain l ∧
          n.expectedPriorSignedTreeNoteSha256 = some p.signedTreeNoteSha256 := by
  have hs := after_sound sha256 _ events (Sound.empty sha256)
  refine ⟨hs.linear l, fun input e => retain_error sha256 input _ e, fun n hn => ?_,
    fun more hquiet => ⟨after_extends sha256 _ more hquiet l, ?_, ?_⟩⟩
  · obtain ⟨hrow, rfl⟩ := (mem_chain _ _ n).mp (Table.firstBy_mem _ _ _ _ hn)
    exact ⟨validated_json sha256 _ (hs.valid n hrow),
      fun input hinput => retain_retry sha256 hs n hn input hinput⟩
  · intro n hn n' hn' hsome hsame
    obtain ⟨prior, hprior⟩ := Option.ne_none_iff_exists'.mp hsome
    exact prior_inj _ l n n' prior hn hn' hprior (hsame.symm.trans hprior)
  · rintro p hp hfits ⟨before, input, later, i, rfl, hi, rfl, hprior, hnew, hauth⟩
    have hquiet' : ∀ e ∈ before ++ later, e.isTeardown = false := by
      intro e he
      refine hquiet e ?_
      rcases List.mem_append.mp he with he | he
      · exact List.mem_append_left _ he
      · exact List.mem_append_right _ (List.mem_cons_of_mem _ he)
    obtain ⟨n, hn, hname⟩ := exists_successor sha256 hs p before later hquiet' input i hi hp hprior
      hnew hauth hfits
    refine ⟨n, ⟨hn, hname⟩, ?_⟩
    rintro n' ⟨hn', hname'⟩
    exact prior_inj _ _ n' n _ hn' hn hname' hname

end

end Agentrail.NoteCustody
