import Agentrail.Preview.PreviewBoots

/-!
# The life of a preview boot

`Writes` says which statement turns a boot into what, and `Moved` what a statement
leaves (`next_moved`).  A boot only moves towards its end, so a second live boot of a
pull request could only come from a commit; the advisory lock keeps the boots that a
transaction superseded complete until then (`Transactions`).

`preview_boot_lifecycle`: what every interleaving of the statements keeps.
-/

namespace Agentrail.Preview

open Js

/-! ## What a statement can do to a boot -/

/-- The statement turns the boot `r` into `r'`. -/
inductive Writes (s : Store) : Action → PreviewBootRow → PreviewBootRow → Prop
  | superseded {number t row ids r} : s.transaction number = some t →
      t.phase = .superseded row ids → r.id ∈ ids →
      Writes s (.commit number) r (supersededRow t.startedAt r)
  | stale {r} : isStale s.now r → s.isLocked r = false →
      Writes s .expireStale r (staleRow s.now r)
  | neverClaimed {r} : isNeverClaimed s.now r → s.isLocked r = false →
      Writes s .expireNeverClaimed r (neverClaimedRow s.now r)
  | claimed {workerId ttl scan r} : s.nextClaim scan = some r →
      Writes s (.claimOldest workerId ttl scan) r (claimedRow workerId ttl s.now r)
  | reported {input r} : accepts input r → s.isLocked r = false →
      Writes s (.report input) r (reportedRow input s.now r)

/-- What names a boot and its head. -/
def identity (r : PreviewBootRow) : Text × Text × Text × Nat × Text :=
  (r.id, r.workspaceId, r.repo, r.prNumber, r.headSha)

theorem identity_reportedRow (input : ReportPreviewBootInput) (now : Int) (r : PreviewBootRow) :
    identity (reportedRow input now r) = identity r := by
  unfold reportedRow
  cases input.status <;> rfl

theorem Writes.identity_eq {s : Store} {a : Action} {r r' : PreviewBootRow}
    (h : Writes s a r r') : identity r' = identity r := by
  cases h with
  | reported => exact identity_reportedRow _ _ _
  | _ => rfl

/-- The statement rewrites boots one by one. -/
def Rewrites (s : Store) (a : Action) (rows : List PreviewBootRow) : Prop :=
  ∃ image : PreviewBootRow → PreviewBootRow, rows = s.boots.rows.map image ∧
    ∀ r ∈ s.boots.rows, image r = r ∨ Writes s a r (image r)

theorem rewrites_unchanged (s : Store) (a : Action) : Rewrites s a s.boots.rows :=
  ⟨id, (List.map_id _).symm, fun _ _ => .inl rfl⟩

theorem rewrites_map (s : Store) (a : Action) (p : PreviewBootRow → Bool)
    (f : PreviewBootRow → PreviewBootRow) (h : ∀ r ∈ s.boots.rows, p r → Writes s a r (f r)) :
    Rewrites s a (s.boots.rows.map fun r => if p r then f r else r) := by
  refine ⟨_, rfl, ?_⟩
  intro r hr
  by_cases hp : p r
  · rw [if_pos hp]
    exact .inr (h r hr hp)
  · rw [if_neg hp]
    exact .inl rfl

/-- An update that did not have to wait wrote no locked row. -/
theorem update_unlocked (s s' : Store) (p : PreviewBootRow → Bool)
    (f : PreviewBootRow → PreviewBootRow) (hf : ∀ r, (f r).id = r.id)
    (h : s.update p f hf = some s') :
    s' = { s with boots := s.boots.update p f (keeps_previewBootKeys f hf) } ∧
      ∀ r ∈ s.boots.rows, p r → s.isLocked r = false := by
  unfold Store.update at h
  split at h
  · cases h
  · rename_i hunlocked
    refine ⟨(Option.some.inj h).symm, ?_⟩
    intro r hr hp
    rw [List.any_eq_true, not_exists] at hunlocked
    have := hunlocked r
    rw [Table.mem_select, not_and, Bool.not_eq_true] at this
    exact this ⟨hr, hp⟩

theorem update_claims (s s' : Store) (p : PreviewBootRow → Bool)
    (f : PreviewBootRow → PreviewBootRow) (hf : ∀ r, (f r).id = r.id)
    (h : s.update p f hf = some s') : s'.claims = s.claims := by
  rw [(update_unlocked s s' p f hf h).1]

theorem nextClaim_spec (s : Store) (scan : Scan) (row : PreviewBootRow)
    (h : s.nextClaim scan = some row) :
    row ∈ s.boots.rows ∧ row.status = .pending ∧ s.isLocked row = false := by
  have hmem := (s.boots.mem_select _ row).mp (Table.firstBy_mem _ _ _ row h)
  unfold Store.claimable at hmem
  simp only [Bool.and_eq_true, decide_eq_true_eq, Bool.not_eq_true'] at hmem
  exact ⟨hmem.1, hmem.2.1.1.1, hmem.2.1.2⟩

theorem transaction_mem (s : Store) (number : Nat) (t : Transaction)
    (h : s.transaction number = some t) : t ∈ s.transactions ∧ t.number = number :=
  ⟨List.mem_of_find?_eq_some h, by simpa using List.find?_some h⟩

/-! ## What a statement can do to the transactions -/

/-- Where the transaction `t` may go next. -/
inductive Advances (host : Host) (s : Store) (t : Transaction) : Phase → Prop
  | locked : t.phase = .waiting → lockFree host s t.input → Advances host s t .locked
  | deduped : t.phase = .locked → Advances host s t .deduped
  | inserted : t.phase = .locked → (newRow host t.input t.startedAt).id ∉ s.ids →
      (∀ t' ∈ s.transactions, ∀ row ∈ t'.row, row.id ≠ (newRow host t.input t.startedAt).id) →
      Advances host s t (.inserted (newRow host t.input t.startedAt))
  | superseded {row} : t.phase = .inserted row → Advances host s t
      (.superseded row ((s.boots.select (supersedes t.input)).map PreviewBootRow.id))

/-- The rows after a commit. -/
def committed (s : Store) (t : Transaction) (row : PreviewBootRow) (ids : List Text) :
    List PreviewBootRow :=
  (s.boots.rows.map fun r => if ids.contains r.id then supersededRow t.startedAt r else r) ++ [row]

/-- **What a statement leaves.** -/
inductive Moved (host : Host) (s : Store) : Action → Store → Prop
  | rewrote {a s'} : Rewrites s a s'.boots.rows → (∀ number, a ≠ .commit number) →
      s'.transactions = s.transactions → s'.started = s.started → Moved host s a s'
  | began {input} : Moved host s (.begin input) { s with
      transactions := { number := s.started, input := input, startedAt := s.now,
                        phase := .waiting } :: s.transactions
      started := s.started + 1 }
  | advanced {a t phase} : t ∈ s.transactions → Advances host s t phase →
      Moved host s a (s.setPhase t.number phase)
  | closed {a number} : Moved host s a (s.close number)
  | committed {t row ids s'} : t ∈ s.transactions → t.phase = .superseded row ids →
      s'.boots.rows = committed s t row ids → s'.transactions = (s.close t.number).transactions →
      s'.started = s.started → s'.claims = s.claims → Moved host s (.commit t.number) s'

/-! ## What every interleaving keeps -/

def SamePullRequest (r r' : PreviewBootRow) : Prop :=
  r.workspaceId = r'.workspaceId ∧ r.repo = r'.repo ∧ r.prNumber = r'.prNumber

/-- No pull request has two live boots. -/
def OneLive (rows : List PreviewBootRow) : Prop :=
  ∀ r ∈ rows, ∀ r' ∈ rows, SamePullRequest r r' → isLive r → isLive r' → r = r'

/-- The transactions under way: each is the only one with its lock; what one inserted is new, and
what one superseded are the live boots of other heads. -/
structure Transactions (host : Host) (s : Store) : Prop where
  numbers : (s.transactions.map Transaction.number).Nodup
  started : ∀ t ∈ s.transactions, t.number < s.started
  exclusive : ∀ t ∈ s.transactions, ∀ t' ∈ s.transactions, t.number ≠ t'.number →
    t.holdsLock → t'.holdsLock → host.hashtext (lockKey t.input) ≠ host.hashtext (lockKey t'.input)
  inserted : ∀ t ∈ s.transactions, ∀ row ∈ t.row,
    row = newRow host t.input t.startedAt ∧ row.id ∉ s.ids
  apart : ∀ t ∈ s.transactions, ∀ t' ∈ s.transactions, t.number ≠ t'.number →
    ∀ row ∈ t.row, ∀ row' ∈ t'.row, row.id ≠ row'.id
  covered : ∀ t ∈ s.transactions, ∀ row ids, t.phase = .superseded row ids →
    (∀ r ∈ s.boots.rows, supersedes t.input r ↔ r.id ∈ ids) ∧ ∀ id ∈ ids, id ∈ s.ids

/-- The boots and the claims. -/
structure Boots (host : Host) (s : Store) : Prop where
  named : ∀ r ∈ s.boots.rows, r.id = previewBootId host r.workspaceId r.repo r.prNumber r.headSha []
  one : OneLive s.boots.rows
  unclaimed : ∀ r ∈ s.boots.rows, r.status = .pending → r.workerId = none
  once : (s.claims.map Prod.fst).Nodup
  holder : ∀ claim ∈ s.claims, ∃ r ∈ s.boots.rows, r.id = claim.1 ∧ r.workerId = some claim.2

structure Invariant (host : Host) (s : Store) : Prop where
  transactions : Transactions host s
  boots : Boots host s

/-! ## The statements move the store so -/

theorem rewrote_update (host : Host) (s s' : Store) (a : Action) (p : PreviewBootRow → Bool)
    (f : PreviewBootRow → PreviewBootRow) (hf : ∀ r, (f r).id = r.id)
    (hnext : s.update p f hf = some s') (hcommit : ∀ number, a ≠ .commit number)
    (h : ∀ r ∈ s.boots.rows, p r → s.isLocked r = false → Writes s a r (f r)) :
    Moved host s a s' := by
  obtain ⟨rfl, hunlocked⟩ := update_unlocked s s' p f hf hnext
  exact .rewrote (rewrites_map s a p f fun r hr hp => h r hr hp (hunlocked r hr hp)) hcommit rfl rfl

theorem insert_new (t : PreviewBootTable) (row : PreviewBootRow)
    (h : row.id ∉ t.rows.map PreviewBootRow.id) :
    ((t.insert row).getD t).rows = t.rows ++ [row] := by
  cases hinsert : t.insert row with
  | some t' => exact t.rows_insert t' row hinsert
  | none =>
    obtain ⟨key, hkey, hmem⟩ := (t.insert_eq_none row).mp hinsert
    rw [List.mem_singleton.mp hkey] at hmem
    exact absurd hmem h

/-- A rewriting keeps the ids. -/
theorem ids_update (s : Store) (p : PreviewBootRow → Bool) (f : PreviewBootRow → PreviewBootRow)
    (hf : ∀ r, (f r).id = r.id) :
    (s.boots.rows.map fun r => if p r then f r else r).map PreviewBootRow.id = s.ids := by
  rw [List.map_map]
  refine List.map_congr_left fun r _ => ?_
  show (if p r then f r else r).id = r.id
  split
  · exact hf r
  · rfl

theorem commit_moved (host : Host) (s s' : Store) (number : Nat) (h : Transactions host s)
    (hnext : next host s (.commit number) = some s') : Moved host s (.commit number) s' := by
  unfold next at hnext
  obtain ⟨t, ht, hnext⟩ := Option.bind_eq_some_iff.mp hnext
  obtain ⟨hmem, rfl⟩ := transaction_mem s number t ht
  split at hnext
  · cases hnext
    exact .closed
  · rename_i row ids hphase
    cases hnext
    have hrow : row ∈ t.row := by simp [Transaction.row, hphase]
    refine .committed hmem hphase ?_ rfl rfl rfl
    refine insert_new _ row ?_
    show row.id ∉ List.map PreviewBootRow.id (List.map _ _)
    rw [ids_update s _ (supersededRow t.startedAt) fun _ => rfl]
    exact (h.inserted t hmem row hrow).2
  · cases hnext

theorem next_moved (host : Host) (s s' : Store) (a : Action) (h : Transactions host s)
    (hnext : next host s a = some s') : Moved host s a s' := by
  cases a with
  | begin input =>
    cases hnext
    exact .began
  | lock number =>
    obtain ⟨t, ht, hnext⟩ := Option.bind_eq_some_iff.mp hnext
    obtain ⟨hmem, rfl⟩ := transaction_mem s number t ht
    split at hnext
    · rename_i hphase
      split at hnext
      · rename_i hfree
        cases hnext
        exact .advanced hmem (.locked hphase hfree)
      · cases hnext
    · cases hnext
  | insert number =>
    obtain ⟨t, ht, hnext⟩ := Option.bind_eq_some_iff.mp hnext
    obtain ⟨hmem, rfl⟩ := transaction_mem s number t ht
    split at hnext
    · rename_i hphase
      dsimp only at hnext
      split at hnext
      · cases hnext
      · rename_i hnone
        split at hnext
        · cases hnext
          exact .advanced hmem (.deduped hphase)
        · rename_i hnew
          cases hnext
          refine .advanced hmem (.inserted hphase hnew ?_)
          intro t' ht' row hrow hid
          refine hnone (List.any_eq_true.mpr ⟨t', ht', ?_⟩)
          rw [Option.mem_def.mp hrow]
          simpa using hid
    · cases hnext
  | supersede number =>
    obtain ⟨t, ht, hnext⟩ := Option.bind_eq_some_iff.mp hnext
    obtain ⟨hmem, rfl⟩ := transaction_mem s number t ht
    split at hnext
    · rename_i row hphase
      dsimp only at hnext
      split at hnext
      · cases hnext
      · cases hnext
        exact .advanced hmem (.superseded hphase)
    · cases hnext
  | commit number => exact commit_moved host s s' number h hnext
  | rollback number =>
    obtain ⟨t, -, rfl⟩ := Option.map_eq_some_iff.mp hnext
    exact .closed
  | expireStale =>
    exact rewrote_update host s s' _ (isStale s.now) (staleRow s.now) (fun _ => rfl) hnext nofun
      fun r _ hp hlock => .stale hp hlock
  | expireNeverClaimed =>
    exact rewrote_update host s s' _ (isNeverClaimed s.now) (neverClaimedRow s.now) (fun _ => rfl)
      hnext nofun fun r _ hp hlock => .neverClaimed hp hlock
  | claimOldest workerId ttl scan =>
    simp only [next] at hnext
    split at hnext
    · cases hnext
      exact .rewrote (rewrites_unchanged s _) nofun rfl rfl
    · rename_i row hclaim
      cases hnext
      refine .rewrote (rewrites_map s _ (fun r => r.id = row.id) _ ?_) nofun rfl rfl
      intro r hr hid
      obtain rfl : r = row := s.boots.eq_of_key PreviewBootRow.id List.mem_cons_self r row hr
        (nextClaim_spec s scan row hclaim).1 (of_decide_eq_true hid)
      exact .claimed hclaim
  | report input =>
    exact rewrote_update host s s' _ (accepts input) (reportedRow input s.now)
      (id_reportedRow input s.now) hnext nofun fun r _ hp hlock => .reported hp hlock
  | wait time =>
    cases hnext
    exact .rewrote (rewrites_unchanged s _) nofun rfl rfl

/-! ## The transactions -/

section
variable (host : Host)

theorem mem_setPhase (s : Store) (number : Nat) (phase : Phase) (t' : Transaction)
    (h : t' ∈ (s.setPhase number phase).transactions) :
    t' ∈ s.transactions ∧ t'.number ≠ number ∨
      ∃ t ∈ s.transactions, t.number = number ∧ t' = { t with phase := phase } := by
  obtain ⟨t, ht, rfl⟩ := List.mem_map.mp h
  by_cases hn : t.number = number
  · rw [if_pos hn]
    exact .inr ⟨t, ht, hn, rfl⟩
  · rw [if_neg hn]
    exact .inl ⟨ht, hn⟩

/-- One transaction for each number. -/
theorem Transactions.eq_of_number {s : Store} (h : Transactions host s) (t t' : Transaction)
    (ht : t ∈ s.transactions) (ht' : t' ∈ s.transactions) (hn : t.number = t'.number) : t = t' :=
  List.inj_on_of_nodup_map h.numbers ht ht' hn

/-- A transaction that begins holds nothing. -/
theorem Transactions.began {s : Store} (h : Transactions host s) (input : EnqueuePreviewBootInput) :
    Transactions host { s with
      transactions := { number := s.started, input := input, startedAt := s.now,
                        phase := .waiting } :: s.transactions
      started := s.started + 1 } := by
  have hfresh : ∀ t ∈ s.transactions, t.number ≠ s.started := by
    intro t ht hn
    have := h.started t ht
    omega
  refine ⟨?_, ?_, ?_, ?_, ?_, ?_⟩
  · refine List.nodup_cons.mpr ⟨?_, h.numbers⟩
    intro hmem
    obtain ⟨t, ht, hn⟩ := List.mem_map.mp hmem
    exact hfresh t ht hn
  · refine List.forall_mem_cons.mpr ⟨Nat.lt_succ_self _, ?_⟩
    exact fun t ht => Nat.lt_succ_of_lt (h.started t ht)
  · intro t ht t' ht' hn hl hl'
    rcases List.mem_cons.mp ht with rfl | ht
    · cases hl
    rcases List.mem_cons.mp ht' with rfl | ht'
    · cases hl'
    exact h.exclusive t ht t' ht' hn hl hl'
  · refine List.forall_mem_cons.mpr ⟨?_, h.inserted⟩
    intro row hrow
    cases hrow
  · intro t ht t' ht' hn row hrow row' hrow'
    rcases List.mem_cons.mp ht with rfl | ht
    · cases hrow
    rcases List.mem_cons.mp ht' with rfl | ht'
    · cases hrow'
    exact h.apart t ht t' ht' hn row hrow row' hrow'
  · refine List.forall_mem_cons.mpr ⟨?_, h.covered⟩
    intro row ids hphase
    cases hphase

/-- A transaction that held no lock before has taken it when it was free. -/
theorem Advances.exclusive {host : Host} {s : Store} {t : Transaction} {phase : Phase}
    (h : Advances host s t phase) (t' : Transaction) (ht' : t' ∈ s.transactions)
    (hold : t.holdsLock → host.hashtext (lockKey t'.input) ≠ host.hashtext (lockKey t.input))
    (hlock : t'.holdsLock) :
    host.hashtext (lockKey t'.input) ≠ host.hashtext (lockKey t.input) := by
  cases h with
  | locked _ hfree =>
    have hother := List.all_eq_true.mp hfree t' ht'
    simpa [hlock] using hother
  | deduped hphase | inserted hphase | superseded hphase =>
    exact hold (by simp [Transaction.holdsLock, hphase])

/-- The row of a transaction that moved on is its new row or the one it had. -/
theorem Advances.row {host : Host} {s : Store} {t : Transaction} {phase : Phase}
    (h : Advances host s t phase) (row : PreviewBootRow)
    (hrow : row ∈ ({ t with phase := phase } : Transaction).row) :
    row ∈ t.row ∨ row = newRow host t.input t.startedAt ∧ row.id ∉ s.ids ∧
      ∀ t' ∈ s.transactions, ∀ row' ∈ t'.row, row'.id ≠ row.id := by
  cases h with
  | locked => cases hrow
  | deduped => cases hrow
  | inserted _ hnew hapart =>
    obtain rfl := Option.some.inj hrow
    exact .inr ⟨rfl, hnew, hapart⟩
  | superseded hphase =>
    obtain rfl := Option.some.inj hrow
    exact .inl (by simp [Transaction.row, hphase])

theorem Transactions.advanced {s : Store} (h : Transactions host s) (t : Transaction)
    (phase : Phase) (ht : t ∈ s.transactions) (hphase : Advances host s t phase) :
    Transactions host (s.setPhase t.number phase) := by
  have hmoved : ∀ t' ∈ (s.setPhase t.number phase).transactions,
      t' ∈ s.transactions ∧ t'.number ≠ t.number ∨ t' = { t with phase := phase } := by
    intro t' ht'
    refine (mem_setPhase s t.number phase t' ht').imp_right ?_
    rintro ⟨t₀, ht₀, hn, rfl⟩
    rw [h.eq_of_number host t₀ t ht₀ ht hn]
  have hnumbers : (s.setPhase t.number phase).transactions.map Transaction.number =
      s.transactions.map Transaction.number := by
    show List.map _ (List.map _ _) = _
    rw [List.map_map]
    refine List.map_congr_left fun t' _ => ?_
    show (if t'.number = t.number then _ else t').number = t'.number
    split <;> rfl
  refine ⟨?_, ?_, ?_, ?_, ?_, ?_⟩
  · rw [hnumbers]
    exact h.numbers
  · intro t' ht'
    rcases hmoved t' ht' with ⟨hold, -⟩ | rfl
    · exact h.started t' hold
    · exact h.started t ht
  · intro t₁ ht₁ t₂ ht₂ hn hl₁ hl₂
    rcases hmoved t₁ ht₁ with ⟨hold₁, hn₁⟩ | rfl <;> rcases hmoved t₂ ht₂ with ⟨hold₂, hn₂⟩ | rfl
    · exact h.exclusive t₁ hold₁ t₂ hold₂ hn hl₁ hl₂
    · exact hphase.exclusive t₁ hold₁ (fun hl => h.exclusive t₁ hold₁ t ht hn₁ hl₁ hl) hl₁
    · have hfree := hphase.exclusive t₂ hold₂
        (fun hl => h.exclusive t₂ hold₂ t ht hn₂ hl₂ hl) hl₂
      exact hfree.symm
    · exact absurd rfl hn
  · intro t' ht' row hrow
    rcases hmoved t' ht' with ⟨hold, -⟩ | rfl
    · exact h.inserted t' hold row hrow
    · rcases hphase.row row hrow with hkept | ⟨hnew, hid, -⟩
      · exact h.inserted t ht row hkept
      · exact ⟨hnew, hid⟩
  · intro t₁ ht₁ t₂ ht₂ hn row₁ hrow₁ row₂ hrow₂
    rcases hmoved t₁ ht₁ with ⟨hold₁, hn₁⟩ | rfl <;> rcases hmoved t₂ ht₂ with ⟨hold₂, hn₂⟩ | rfl
    · exact h.apart t₁ hold₁ t₂ hold₂ hn row₁ hrow₁ row₂ hrow₂
    · rcases hphase.row row₂ hrow₂ with hkept | ⟨-, -, hapart⟩
      · exact h.apart t₁ hold₁ t ht hn₁ row₁ hrow₁ row₂ hkept
      · exact hapart t₁ hold₁ row₁ hrow₁
    · rcases hphase.row row₁ hrow₁ with hkept | ⟨-, -, hapart⟩
      · exact h.apart t ht t₂ hold₂ (Ne.symm hn₂) row₁ hkept row₂ hrow₂
      · exact (hapart t₂ hold₂ row₂ hrow₂).symm
    · exact absurd rfl hn
  · intro t' ht' row ids hsuperseded
    rcases hmoved t' ht' with ⟨hold, -⟩ | rfl
    · exact h.covered t' hold row ids hsuperseded
    · cases hphase with
      | locked => cases hsuperseded
      | deduped => cases hsuperseded
      | inserted => cases hsuperseded
      | superseded hinserted =>
        cases hsuperseded
        refine ⟨?_, ?_⟩
        · intro r hr
          rw [List.mem_map]
          constructor
          · intro hs
            exact ⟨r, (s.boots.mem_select _ r).mpr ⟨hr, hs⟩, rfl⟩
          · rintro ⟨r', hr', hid⟩
            rw [Table.mem_select] at hr'
            have hsame := s.boots.eq_of_key PreviewBootRow.id List.mem_cons_self r' r hr'.1 hr hid
            rw [← hsame]
            exact hr'.2
        · intro id hid
          obtain ⟨r, hr, rfl⟩ := List.mem_map.mp hid
          exact List.mem_map_of_mem ((s.boots.mem_select _ r).mp hr).1

/-- Fewer transactions. -/
theorem Transactions.closed {s : Store} (h : Transactions host s) (number : Nat) :
    Transactions host (s.close number) := by
  have hsub : ∀ t ∈ (s.close number).transactions, t ∈ s.transactions :=
    fun t ht => (List.mem_filter.mp ht).1
  refine ⟨?_, ?_, ?_, ?_, ?_, ?_⟩
  · exact h.numbers.sublist (List.filter_sublist.map _)
  · exact fun t ht => h.started t (hsub t ht)
  · exact fun t ht t' ht' => h.exclusive t (hsub t ht) t' (hsub t' ht')
  · exact fun t ht => h.inserted t (hsub t ht)
  · exact fun t ht t' ht' => h.apart t (hsub t ht) t' (hsub t' ht')
  · exact fun t ht => h.covered t (hsub t ht)

/-! ## The boots -/

theorem isLive_of_accepts (input : ReportPreviewBootInput) (r : PreviewBootRow)
    (h : accepts input r) : isLive r := by
  rw [isLive_eq]
  unfold accepts at h
  unfold isTerminal
  cases hstatus : input.status <;> rw [hstatus] at h <;>
    cases hr : r.status <;> simp_all [isTerminal]

/-- What is live after a statement was live before. -/
theorem Writes.live {s : Store} {a : Action} {r r' : PreviewBootRow} (h : Writes s a r r')
    (hlive : isLive r') : isLive r := by
  cases h with
  | superseded => cases hlive
  | stale => cases hlive
  | neverClaimed => cases hlive
  | claimed hclaim =>
    have hpending := (nextClaim_spec s _ r hclaim).2.1
    simp [isLive, hpending]
  | reported haccepts _ => exact isLive_of_accepts _ r haccepts

theorem Writes.not_pending {s : Store} {a : Action} {r r' : PreviewBootRow}
    (h : Writes s a r r') : r'.status ≠ .pending := by
  cases h with
  | @reported input _ _ _ =>
    unfold reportedRow
    cases input.status <;> nofun
  | _ => nofun

theorem Writes.unlocked {s : Store} {a : Action} {r r' : PreviewBootRow} (h : Writes s a r r')
    (ha : ∀ number, a ≠ .commit number) : s.isLocked r = false := by
  cases h with
  | superseded => exact absurd rfl (ha _)
  | stale _ hlock | neverClaimed _ hlock | reported _ hlock => exact hlock
  | claimed hclaim => exact (nextClaim_spec s _ r hclaim).2.2

/-- A runner keeps the boot it holds. -/
theorem Writes.workerId {s : Store} {a : Action} {r r' : PreviewBootRow} (h : Writes s a r r') :
    r'.workerId = r.workerId ∨ r.status = .pending := by
  cases h with
  | claimed hclaim => exact .inr (nextClaim_spec s _ r hclaim).2.1
  | @reported input _ _ _ =>
    left
    unfold reportedRow
    cases input.status <;> rfl
  | _ => exact .inl rfl

section
variable {s : Store} {a : Action} {image : PreviewBootRow → PreviewBootRow}
  (himage : ∀ r ∈ s.boots.rows, image r = r ∨ Writes s a r (image r))
include himage

theorem identity_image (r : PreviewBootRow) (hr : r ∈ s.boots.rows) :
    identity (image r) = identity r := by
  rcases himage r hr with hkept | hwrites
  · rw [hkept]
  · exact hwrites.identity_eq

theorem id_image (r : PreviewBootRow) (hr : r ∈ s.boots.rows) : (image r).id = r.id :=
  congrArg Prod.fst (identity_image himage r hr)

theorem ids_image : (s.boots.rows.map image).map PreviewBootRow.id = s.ids := by
  rw [List.map_map]
  exact List.map_congr_left fun r hr => id_image himage r hr

theorem oneLive_image (h : OneLive s.boots.rows) : OneLive (s.boots.rows.map image) := by
  have hlive : ∀ r ∈ s.boots.rows, isLive (image r) → isLive r := by
    intro r hr hl
    rcases himage r hr with hkept | hwrites
    · rwa [hkept] at hl
    · exact hwrites.live hl
  intro x hx y hy hsame hlx hly
  obtain ⟨r, hr, rfl⟩ := List.mem_map.mp hx
  obtain ⟨r', hr', rfl⟩ := List.mem_map.mp hy
  have hi := identity_image himage r hr
  have hi' := identity_image himage r' hr'
  simp only [identity, Prod.mk.injEq] at hi hi'
  have hpr : SamePullRequest r r' :=
    ⟨hi.2.1.symm.trans (hsame.1.trans hi'.2.1), hi.2.2.1.symm.trans (hsame.2.1.trans hi'.2.2.1),
      hi.2.2.2.1.symm.trans (hsame.2.2.trans hi'.2.2.2.1)⟩
  rw [h r hr r' hr' hpr (hlive r hr hlx) (hlive r' hr' hly)]

theorem supersedes_image (input : EnqueuePreviewBootInput) (r : PreviewBootRow)
    (hr : r ∈ s.boots.rows) (h : supersedes input (image r)) : supersedes input r := by
  have hi := identity_image himage r hr
  simp only [identity, Prod.mk.injEq] at hi
  unfold supersedes at h ⊢
  rw [hi.2.1, hi.2.2.1, hi.2.2.2.1, hi.2.2.2.2] at h
  simp only [Bool.and_eq_true] at h ⊢
  refine ⟨h.1, ?_⟩
  rcases himage r hr with hkept | hwrites
  · rw [hkept] at h
    exact h.2
  · exact hwrites.live h.2

/-- A statement other than a commit leaves the rows of a transaction alone. -/
theorem transactions_rewrote (host : Host) (s' : Store) (h : Transactions host s)
    (ha : ∀ number, a ≠ .commit number) (hrows : s'.boots.rows = s.boots.rows.map image)
    (htransactions : s'.transactions = s.transactions) (hstarted : s'.started = s.started) :
    Transactions host s' := by
  have hids : s'.ids = s.ids := by
    unfold Store.ids
    rw [hrows]
    exact ids_image himage
  refine ⟨?_, ?_, ?_, ?_, ?_, ?_⟩
  · rw [htransactions]
    exact h.numbers
  · rw [htransactions, hstarted]
    exact h.started
  · rw [htransactions]
    exact h.exclusive
  · rw [htransactions, hids]
    exact h.inserted
  · rw [htransactions]
    exact h.apart
  · rw [htransactions, hids, hrows]
    intro t ht row ids hphase
    obtain ⟨hcovered, hsub⟩ := h.covered t ht row ids hphase
    refine ⟨?_, hsub⟩
    intro x hx
    obtain ⟨r, hr, rfl⟩ := List.mem_map.mp hx
    rw [id_image himage r hr, ← hcovered r hr]
    constructor
    · exact supersedes_image himage t.input r hr
    · intro hs
      rcases himage r hr with hkept | hwrites
      · rwa [hkept]
      · -- the row is locked by the transaction
        have hlocked : s.isLocked r = true := by
          refine List.any_eq_true.mpr ⟨t, ht, ?_⟩
          simpa [Transaction.lockedIds, hphase] using (hcovered r hr).mp hs
        rw [hwrites.unlocked ha] at hlocked
        cases hlocked

theorem named_image (host : Host)
    (h : ∀ r ∈ s.boots.rows, r.id = previewBootId host r.workspaceId r.repo r.prNumber r.headSha []) :
    ∀ r ∈ s.boots.rows.map image,
      r.id = previewBootId host r.workspaceId r.repo r.prNumber r.headSha [] := by
  intro x hx
  obtain ⟨r, hr, rfl⟩ := List.mem_map.mp hx
  have hi := identity_image himage r hr
  simp only [identity, Prod.mk.injEq] at hi
  rw [hi.1, hi.2.1, hi.2.2.1, hi.2.2.2.1, hi.2.2.2.2]
  exact h r hr

theorem unclaimed_image (h : ∀ r ∈ s.boots.rows, r.status = .pending → r.workerId = none) :
    ∀ r ∈ s.boots.rows.map image, r.status = .pending → r.workerId = none := by
  intro x hx hpending
  obtain ⟨r, hr, rfl⟩ := List.mem_map.mp hx
  rcases himage r hr with hkept | hwrites
  · rw [hkept] at hpending ⊢
    exact h r hr hpending
  · exact absurd hpending hwrites.not_pending

theorem holder_image (h : ∀ r ∈ s.boots.rows, r.status = .pending → r.workerId = none)
    (id workerId : Text) (hheld : ∃ r ∈ s.boots.rows, r.id = id ∧ r.workerId = some workerId) :
    ∃ r ∈ s.boots.rows.map image, r.id = id ∧ r.workerId = some workerId := by
  obtain ⟨r, hr, hid, hworker⟩ := hheld
  refine ⟨image r, List.mem_map_of_mem hr, (id_image himage r hr).trans hid, ?_⟩
  rcases himage r hr with hkept | hwrites
  · rw [hkept]
    exact hworker
  · rcases hwrites.workerId with hsame | hpending
    · rw [hsame]
      exact hworker
    · rw [h r hr hpending] at hworker
      cases hworker

end

/-! ## The commit -/

theorem samePullRequest_of_supersedes (input : EnqueuePreviewBootInput) (r : PreviewBootRow)
    (h : supersedes input r) :
    r.workspaceId = input.workspaceId ∧ r.repo = input.repo ∧ r.prNumber = input.prNumber := by
  unfold supersedes at h
  simp only [Bool.and_eq_true, decide_eq_true_eq] at h
  exact ⟨h.1.1.1.1, h.1.1.1.2, h.1.1.2⟩

/-- Two transactions that hold their locks are of different pull requests. -/
theorem Transactions.pullRequests {s : Store} (h : Transactions host s) (t t' : Transaction)
    (ht : t ∈ s.transactions) (ht' : t' ∈ s.transactions) (hn : t.number ≠ t'.number)
    (hl : t.holdsLock) (hl' : t'.holdsLock) :
    ¬ (t.input.workspaceId = t'.input.workspaceId ∧ t.input.repo = t'.input.repo ∧
      t.input.prNumber = t'.input.prNumber) := by
  rintro ⟨hworkspace, hrepo, hpr⟩
  refine h.exclusive t ht t' ht' hn hl hl' ?_
  unfold lockKey
  rw [hworkspace, hrepo, hpr]

section
variable {s : Store} {t : Transaction} {row : PreviewBootRow} {ids : List Text}

theorem image_committed (ht : t ∈ s.transactions)
    (hnumbers : (s.transactions.map Transaction.number).Nodup)
    (hphase : t.phase = .superseded row ids) :
    ∀ r ∈ s.boots.rows, (if ids.contains r.id then supersededRow t.startedAt r else r) = r ∨
      Writes s (.commit t.number) r
        (if ids.contains r.id then supersededRow t.startedAt r else r) := by
  have hfound : s.transaction t.number = some t := by
    unfold Store.transaction
    cases hfind : s.transactions.find? fun t' => t'.number = t.number with
    | none => exact absurd (List.find?_eq_none.mp hfind t ht) (by simp)
    | some t' =>
      obtain ⟨hmem, hn⟩ := transaction_mem s t.number t' hfind
      rw [List.inj_on_of_nodup_map hnumbers hmem ht hn]
  intro r _
  by_cases hid : ids.contains r.id
  · rw [if_pos hid]
    exact .inr (.superseded hfound hphase (by simpa using hid))
  · rw [if_neg hid]
    exact .inl rfl

theorem ids_committed : (committed s t row ids).map PreviewBootRow.id = s.ids ++ [row.id] := by
  unfold committed
  rw [List.map_append, ids_update s (fun r => ids.contains r.id) (supersededRow t.startedAt)
    fun _ => rfl]
  rfl

/-- The row of a transaction is of no pull request that another one holds. -/
theorem not_supersedes_row {host : Host} (h : Transactions host s) (ht : t ∈ s.transactions)
    (hphase : t.phase = .superseded row ids) (t' : Transaction) (ht' : t' ∈ s.transactions)
    (hn : t.number ≠ t'.number) (hl' : t'.holdsLock) (r : PreviewBootRow)
    (hr : r.workspaceId = t.input.workspaceId ∧ r.repo = t.input.repo ∧
      r.prNumber = t.input.prNumber) : ¬ supersedes t'.input r := by
  intro hs
  have hsame := samePullRequest_of_supersedes t'.input r hs
  refine h.pullRequests host t t' ht ht' hn (by simp [Transaction.holdsLock, hphase]) hl' ?_
  exact ⟨hr.1.symm.trans hsame.1, hr.2.1.symm.trans hsame.2.1, hr.2.2.symm.trans hsame.2.2⟩

theorem transactions_committed {host : Host} (s' : Store) (h : Transactions host s)
    (ht : t ∈ s.transactions) (hphase : t.phase = .superseded row ids)
    (hrows : s'.boots.rows = committed s t row ids)
    (htransactions : s'.transactions = (s.close t.number).transactions)
    (hstarted : s'.started = s.started) : Transactions host s' := by
  have hclosed := h.closed host t.number
  have hrow : row ∈ t.row := by simp [Transaction.row, hphase]
  have hids : s'.ids = s.ids ++ [row.id] := by
    unfold Store.ids
    rw [hrows]
    exact ids_committed
  have hother : ∀ t' ∈ s'.transactions, t' ∈ s.transactions ∧ t.number ≠ t'.number := by
    intro t' ht'
    rw [htransactions] at ht'
    have hmem := List.mem_filter.mp ht'
    exact ⟨hmem.1, fun hn => by simp [hn] at hmem⟩
  refine ⟨?_, ?_, ?_, ?_, ?_, ?_⟩
  · rw [htransactions]
    exact hclosed.numbers
  · rw [htransactions, hstarted]
    exact hclosed.started
  · rw [htransactions]
    exact hclosed.exclusive
  · intro t' ht' row' hrow'
    obtain ⟨hmem, hn⟩ := hother t' ht'
    obtain ⟨hnew, hid⟩ := h.inserted t' hmem row' hrow'
    refine ⟨hnew, ?_⟩
    rw [hids, List.mem_append, List.mem_singleton, not_or]
    exact ⟨hid, (h.apart t ht t' hmem hn row hrow row' hrow').symm⟩
  · rw [htransactions]
    exact hclosed.apart
  · intro t' ht' row' ids' hphase'
    obtain ⟨hmem, hn⟩ := hother t' ht'
    obtain ⟨hcovered, hsub⟩ := h.covered t' hmem row' ids' hphase'
    have hl' : t'.holdsLock := by simp [Transaction.holdsLock, hphase']
    rw [hrows, hids]
    refine ⟨?_, fun id hid => List.mem_append_left _ (hsub id hid)⟩
    intro x hx
    rcases List.mem_append.mp hx with hx | hx
    · obtain ⟨r, hr, rfl⟩ := List.mem_map.mp hx
      by_cases hid : ids.contains r.id
      · rw [if_pos hid]
        have hs := ((h.covered t ht row ids hphase).1 r hr).mpr (by simpa using hid)
        have hnot := not_supersedes_row h ht hphase t' hmem hn hl' r
          (samePullRequest_of_supersedes t.input r hs)
        refine iff_of_false ?_ fun hin => hnot ((hcovered r hr).mpr hin)
        simp [supersedes, supersededRow, isLive, isHeld]
      · rw [if_neg hid]
        exact hcovered r hr
    · rw [List.mem_singleton.mp hx]
      obtain ⟨hnew, hfresh⟩ := h.inserted t ht row hrow
      refine iff_of_false ?_ fun hin => hfresh (hsub _ hin)
      refine not_supersedes_row h ht hphase t' hmem hn hl' row ?_
      rw [hnew]
      exact ⟨rfl, rfl, rfl⟩

/-- **The commit.** The live boots of the pull request are the superseded ones, and the new row
is the only one left. -/
theorem oneLive_committed {host : Host} (h : Transactions host s)
    (hnamed : ∀ r ∈ s.boots.rows,
      r.id = previewBootId host r.workspaceId r.repo r.prNumber r.headSha [])
    (hone : OneLive s.boots.rows) (ht : t ∈ s.transactions)
    (hphase : t.phase = .superseded row ids) : OneLive (committed s t row ids) := by
  have hrow : row ∈ t.row := by simp [Transaction.row, hphase]
  obtain ⟨hnew, hfresh⟩ := h.inserted t ht row hrow
  have hold := oneLive_image (image_committed ht h.numbers hphase) hone
  have hgone : ∀ x ∈ s.boots.rows.map fun r =>
      if ids.contains r.id then supersededRow t.startedAt r else r,
      SamePullRequest x row → ¬ isLive x := by
    intro x hx hsame hlive
    obtain ⟨r, hr, rfl⟩ := List.mem_map.mp hx
    by_cases hid : ids.contains r.id
    · rw [if_pos hid] at hlive
      cases hlive
    · rw [if_neg hid] at hlive hsame
      rw [hnew] at hsame
      obtain ⟨hworkspace, hrepo, hpr⟩ := hsame
      by_cases hhead : r.headSha = t.input.headSha
      · -- the same head would have the same id
        refine hfresh (List.mem_map.mpr ⟨r, hr, ?_⟩)
        rw [hnamed r hr, hworkspace, hrepo, hpr, hhead, hnew]
        rfl
      · refine hid ?_
        have hs : supersedes t.input r := by
          unfold supersedes
          simp only [Bool.and_eq_true, decide_eq_true_eq]
          exact ⟨⟨⟨⟨hworkspace, hrepo⟩, hpr⟩, hhead⟩, hlive⟩
        simpa using ((h.covered t ht row ids hphase).1 r hr).mp hs
  intro x hx y hy hsame hlx hly
  rcases List.mem_append.mp hx with hx | hx <;> rcases List.mem_append.mp hy with hy | hy
  · exact hold x hx y hy hsame hlx hly
  · rw [List.mem_singleton.mp hy] at hsame
    exact absurd hlx (hgone x hx hsame)
  · rw [List.mem_singleton.mp hx] at hsame
    exact absurd hly (hgone y hy ⟨hsame.1.symm, hsame.2.1.symm, hsame.2.2.symm⟩)
  · rw [List.mem_singleton.mp hx, List.mem_singleton.mp hy]

end

/-! ## Every statement keeps the invariant -/

/-- The claims that a statement adds: the boot was pending, and is held by the runner now. -/
theorem next_claims (s s' : Store) (a : Action) (h : next host s a = some s') :
    s'.claims = s.claims ∨ ∃ r ∈ s.boots.rows, ∃ workerId ttl, r.status = .pending ∧
      s'.claims = (r.id, workerId) :: s.claims ∧ claimedRow workerId ttl s.now r ∈ s'.boots.rows := by
  cases a with
  | claimOldest workerId ttl scan =>
    simp only [next] at h
    split at h
    · cases h
      exact .inl rfl
    · rename_i row hclaim
      cases h
      obtain ⟨hrow, hpending, -⟩ := nextClaim_spec s scan row hclaim
      refine .inr ⟨row, hrow, workerId, ttl, hpending, rfl, List.mem_map.mpr ⟨row, hrow, ?_⟩⟩
      rw [if_pos (by simp)]
  | expireStale =>
    exact .inl (update_claims s s' (isStale s.now) (staleRow s.now) (fun _ => rfl) h)
  | expireNeverClaimed =>
    exact .inl (update_claims s s' (isNeverClaimed s.now) (neverClaimedRow s.now) (fun _ => rfl) h)
  | report input => exact .inl (update_claims s s' _ _ (id_reportedRow input s.now) h)
  | begin input | wait time =>
    cases h
    exact .inl rfl
  | rollback number =>
    obtain ⟨t, -, rfl⟩ := Option.map_eq_some_iff.mp h
    exact .inl rfl
  | lock number | insert number | supersede number | commit number =>
    left
    obtain ⟨t, -, h⟩ := Option.bind_eq_some_iff.mp h
    split at h <;> (try dsimp only at h) <;> (repeat' split at h) <;> cases h <;> rfl

/-- Boots that are rewritten one by one, and perhaps a new one. -/
theorem boots_image {host : Host} {s s' : Store} {a : Action}
    (image : PreviewBootRow → PreviewBootRow) (new : List PreviewBootRow)
    (himage : ∀ r ∈ s.boots.rows, image r = r ∨ Writes s a r (image r)) (h : Boots host s)
    (hnext : next host s a = some s') (hrows : s'.boots.rows = s.boots.rows.map image ++ new)
    (hone : OneLive s'.boots.rows)
    (hnew : ∀ r ∈ new, r.id = previewBootId host r.workspaceId r.repo r.prNumber r.headSha [] ∧
      r.workerId = none) : Boots host s' := by
  have hheld : ∀ id workerId, (∃ r ∈ s.boots.rows, r.id = id ∧ r.workerId = some workerId) →
      ∃ r ∈ s'.boots.rows, r.id = id ∧ r.workerId = some workerId := by
    intro id workerId hold
    obtain ⟨r, hr, hid, hworker⟩ := holder_image himage h.unclaimed id workerId hold
    exact ⟨r, by rw [hrows]; exact List.mem_append_left _ hr, hid, hworker⟩
  refine ⟨?_, hone, ?_, ?_, ?_⟩
  · rw [hrows, List.forall_mem_append]
    exact ⟨named_image himage host h.named, fun r hr => (hnew r hr).1⟩
  · rw [hrows, List.forall_mem_append]
    exact ⟨unclaimed_image himage h.unclaimed, fun r hr _ => (hnew r hr).2⟩
  · rcases next_claims host s s' a hnext with hclaims | ⟨r, hr, workerId, ttl, hpending, hclaims, -⟩
    · rw [hclaims]
      exact h.once
    · rw [hclaims, List.map_cons, List.nodup_cons]
      refine ⟨?_, h.once⟩
      intro hmem
      obtain ⟨claim, hclaim, hid⟩ := List.mem_map.mp hmem
      obtain ⟨r', hr', hid', hworker⟩ := h.holder claim hclaim
      obtain rfl := s.boots.eq_of_key PreviewBootRow.id List.mem_cons_self r' r hr' hr
        (hid'.trans hid)
      rw [h.unclaimed r' hr' hpending] at hworker
      cases hworker
  · rcases next_claims host s s' a hnext with hclaims | ⟨r, hr, workerId, ttl, hpending, hclaims, hmem⟩
    · rw [hclaims]
      exact fun claim hclaim => hheld _ _ (h.holder claim hclaim)
    · rw [hclaims, List.forall_mem_cons]
      exact ⟨⟨_, hmem, rfl, rfl⟩, fun claim hclaim => hheld _ _ (h.holder claim hclaim)⟩

theorem boots_same {host : Host} {s s' : Store} {a : Action} (h : Boots host s)
    (hnext : next host s a = some s') (hrows : s'.boots.rows = s.boots.rows) : Boots host s' := by
  refine boots_image id [] (fun _ _ => .inl rfl) h hnext ?_ ?_ (List.forall_mem_nil _)
  · rw [hrows, List.map_id, List.append_nil]
  · rw [hrows]
    exact h.one

theorem next_invariant (s : Store) (a : Action) (s' : Store) (hnext : next host s a = some s')
    (h : Invariant host s) : Invariant host s' := by
  obtain ⟨htransactions, hboots⟩ := h
  have hmoved := next_moved host s s' a htransactions hnext
  cases hmoved with
  | rewrote hrewrites ha hsame hstarted =>
    obtain ⟨image, hrows, himage⟩ := hrewrites
    refine ⟨transactions_rewrote himage host s' htransactions ha hrows hsame hstarted,
      boots_image image [] himage hboots hnext (by rw [hrows, List.append_nil]) ?_
        (List.forall_mem_nil _)⟩
    rw [hrows]
    exact oneLive_image himage hboots.one
  | @began input => exact ⟨htransactions.began host input, boots_same hboots hnext rfl⟩
  | advanced ht hphase =>
    exact ⟨htransactions.advanced host _ _ ht hphase, boots_same hboots hnext rfl⟩
  | closed => exact ⟨htransactions.closed host _, boots_same hboots hnext rfl⟩
  | @committed t row ids _ ht hphase hrows hsame hstarted hclaims =>
    refine ⟨transactions_committed s' htransactions ht hphase hrows hsame hstarted, ?_⟩
    have hrow : row ∈ t.row := by simp [Transaction.row, hphase]
    obtain ⟨hnew, -⟩ := htransactions.inserted t ht row hrow
    refine boots_image _ [row] (image_committed ht htransactions.numbers hphase) hboots hnext hrows
      ?_ ?_
    · rw [hrows]
      exact oneLive_committed htransactions hboots.named hboots.one ht hphase
    · intro r hr
      rw [List.mem_singleton.mp hr, hnew]
      exact ⟨rfl, rfl⟩

theorem invariant_empty (now : Int) : Invariant host (emptyStore now) where
  transactions := ⟨List.nodup_nil, List.forall_mem_nil _, List.forall_mem_nil _,
    List.forall_mem_nil _, List.forall_mem_nil _, List.forall_mem_nil _⟩
  boots := ⟨List.forall_mem_nil _, List.forall_mem_nil _, List.forall_mem_nil _, List.nodup_nil,
    List.forall_mem_nil _⟩

/-! ## What happens to a boot -/

/-- What a statement may do to a boot: one case for each actor. -/
inductive Changes (s : Store) : Action → PreviewBootRow → PreviewBootRow → Prop
  | kept {a r} : Changes s a r r
  | claimed {workerId ttl scan r} : r.status = .pending →
      Changes s (.claimOldest workerId ttl scan) r (claimedRow workerId ttl s.now r)
  | advanced {input r} : isHeld r → r.workerId = some input.workerId → r.id = input.id →
      Changes s (.report input) r (reportedRow input s.now r)
  | superseded {number time r} : isLive r → Changes s (.commit number) r (supersededRow time r)
  | stale {r} : isHeld r → Changes s .expireStale r (staleRow s.now r)
  | neverClaimed {r} : r.status = .pending →
      Changes s .expireNeverClaimed r (neverClaimedRow s.now r)

theorem Changes.id_eq {s : Store} {a : Action} {r r' : PreviewBootRow} (h : Changes s a r r') :
    r'.id = r.id := by
  cases h with
  | advanced => exact id_reportedRow _ _ _
  | _ => rfl

/-- An ended boot stays as it is. -/
theorem Changes.terminal {s : Store} {a : Action} {r r' : PreviewBootRow} (h : Changes s a r r')
    (hterminal : isTerminal r) : r' = r := by
  have hlive : isLive r ≠ true := by
    rw [isLive_eq, hterminal]
    nofun
  have hheld : ¬ isHeld r := fun hheld => hlive (by simp [isLive, hheld])
  have hpending : r.status ≠ .pending := fun hpending => hlive (by simp [isLive, hpending])
  cases h with
  | kept => rfl
  | claimed h | neverClaimed h => exact absurd h hpending
  | advanced h | stale h => exact absurd h hheld
  | superseded h => exact absurd h hlive

theorem Writes.changes {host : Host} {s : Store} (h : Invariant host s) {a : Action}
    {r r' : PreviewBootRow} (hr : r ∈ s.boots.rows) (hwrites : Writes s a r r') :
    Changes s a r r' := by
  cases hwrites with
  | @superseded number t row ids _ ht hphase hid =>
    refine .superseded ?_
    have hmem := (transaction_mem s number t ht).1
    have hs := ((h.transactions.covered t hmem row ids hphase).1 r hr).mpr hid
    unfold supersedes at hs
    rw [Bool.and_eq_true] at hs
    exact hs.2
  | stale hstale =>
    unfold isStale at hstale
    rw [Bool.and_eq_true] at hstale
    exact .stale hstale.1
  | neverClaimed hnever =>
    unfold isNeverClaimed at hnever
    rw [Bool.and_eq_true, decide_eq_true_eq] at hnever
    exact .neverClaimed hnever.1
  | claimed hclaim => exact .claimed (nextClaim_spec s _ r hclaim).2.1
  | @reported input _ haccepts _ =>
    have hlive := isLive_of_accepts input r haccepts
    unfold accepts at haccepts
    simp only [Bool.and_eq_true, decide_eq_true_eq] at haccepts
    obtain ⟨⟨hid, hworker⟩, -⟩ := haccepts
    refine .advanced ?_ hworker hid
    -- a boot that waits for a runner has none that could report on it
    have hpending : r.status ≠ .pending := by
      intro hpending
      rw [h.boots.unclaimed r hr hpending] at hworker
      cases hworker
    simpa [isLive, hpending] using hlive

theorem next_changes (s s' : Store) (a : Action) (h : Invariant host s)
    (hnext : next host s a = some s') :
    ∀ r ∈ s.boots.rows, ∃ r' ∈ s'.boots.rows, Changes s a r r' := by
  intro r hr
  have hmoved := next_moved host s s' a h.transactions hnext
  cases hmoved with
  | rewrote hrewrites =>
    obtain ⟨image, hrows, himage⟩ := hrewrites
    refine ⟨image r, by rw [hrows]; exact List.mem_map_of_mem hr, ?_⟩
    rcases himage r hr with hkept | hwrites
    · rw [hkept]
      exact .kept
    · exact hwrites.changes h hr
  | began | advanced | closed => exact ⟨r, hr, .kept⟩
  | committed ht hphase hrows =>
    refine ⟨_, by rw [hrows]; exact List.mem_append_left _ (List.mem_map_of_mem hr), ?_⟩
    rcases image_committed ht h.transactions.numbers hphase r hr with hkept | hwrites
    · rw [hkept]
      exact .kept
    · exact hwrites.changes h hr

/-! ## Every interleaving -/

theorem run_invariant (now : Int) (actions : List Action) (s : Store)
    (h : Runs.run (next host) (emptyStore now) actions = some s) : Invariant host s :=
  Runs.invariant (next_invariant host) h (invariant_empty host now)

theorem run_terminal (s t : Store) (actions : List Action)
    (h : Runs.run (next host) s actions = some t) (hs : Invariant host s) :
    ∀ r ∈ s.boots.rows, isTerminal r → r ∈ t.boots.rows := by
  intro r hr hterminal
  refine (Runs.invariant (I := fun u => Invariant host u ∧ r ∈ u.boots.rows) ?_ h ⟨hs, hr⟩).2
  rintro u a u' hu ⟨hinvariant, hmem⟩
  obtain ⟨r', hr', hchanges⟩ := next_changes host u u' a hinvariant hu r hmem
  rw [hchanges.terminal hterminal] at hr'
  exact ⟨next_invariant host u a u' hu hinvariant, hr'⟩

/-- **The life of a preview boot.** However the statements of enqueues, claims, reports and sweeps
interleave: no pull request has two live boots, a boot that ended stays as it is, no boot is
claimed twice and it belongs to the runner that claimed it, and the next statement leaves a boot
alone or is one that `Changes` lists. -/
theorem preview_boot_lifecycle (now : Int) (before after : List Action) (s t : Store)
    (h : Runs.run (next host) (emptyStore now) before = some s)
    (h' : Runs.run (next host) s after = some t) :
    OneLive t.boots.rows ∧
      (∀ r ∈ s.boots.rows, isTerminal r → r ∈ t.boots.rows) ∧
      (t.claims.map Prod.fst).Nodup ∧
      (∀ claim ∈ t.claims, ∃ r ∈ t.boots.rows,
        r.id = claim.1 ∧ r.workerId = some claim.2 ∧ r.status ≠ .pending) ∧
      ∀ a u, next host t a = some u →
        ∀ r ∈ t.boots.rows, ∃ r' ∈ u.boots.rows, r'.id = r.id ∧ Changes t a r r' := by
  have hs := run_invariant host now before s h
  have ht := Runs.invariant (next_invariant host) h' hs
  refine ⟨ht.boots.one, run_terminal host s t after h' hs, ht.boots.once, ?_, ?_⟩
  · intro claim hclaim
    obtain ⟨r, hr, hid, hworker⟩ := ht.boots.holder claim hclaim
    refine ⟨r, hr, hid, hworker, ?_⟩
    intro hpending
    rw [ht.boots.unclaimed r hr hpending] at hworker
    cases hworker
  · intro a u hu r hr
    obtain ⟨r', hr', hchanges⟩ := next_changes host t u a ht hu r hr
    exact ⟨r', hr', hchanges.id_eq, hchanges⟩

end

/-! ## A race -/

def sampleHost : Host where
  uuid5Url name :=
    if name = "preview-boot:w1:acme/web:7:a1".toList then
      "adf515d1-bf60-52d9-96eb-68152b4c2d25".toList
    else if name = "preview-boot:w1:acme/web:7:b2".toList then
      "e9fca5d5-66ff-5d47-ad82-89eaf91596d8".toList
    else []
  hashtext text := if text = "preview-boot:w1:acme/web:7".toList then -778441390 else 0

def sampleEnqueue (headSha : String) : EnqueuePreviewBootInput where
  workspaceId := "w1".toList
  repo := "acme/web".toList
  prNumber := 7
  headSha := headSha.toList
  ref := "topic".toList

/-- Two enqueues of one pull request; a runner claims the boot of the one that commits. -/
def raceStart : List Action :=
  [.begin (sampleEnqueue "b2")] ++ enqueuePreviewBoot (sampleEnqueue "a1") 1 false ++
    claimPreviewBoot "m1".toList 900000000 {} ++ [.lock 0, .insert 0, .supersede 0]

/-- The other one commits before the report of the runner. -/
def raceEnd : List Action :=
  [.commit 0] ++
    reportPreviewBoot { id := "adf515d1-bf60-52d9-96eb-68152b4c2d25".toList,
                        workerId := "m1".toList, status := .ready } ++
    [.wait 10] ++ claimPreviewBoot "m2".toList 900000000 {}

/-- The boot that was claimed is torn down, its report comes too late, and the other runner gets
the boot of the newer head. -/
theorem preview_boot_race :
    ∃ s t, Runs.run (next sampleHost) (emptyStore 0) raceStart = some s ∧
      Runs.run (next sampleHost) s raceEnd = some t ∧
      (t.boots.rows.map fun r => (r.headSha, r.status, r.workerId)) =
        [("a1".toList, .tornDown, some "m1".toList), ("b2".toList, .claimed, some "m2".toList)] ∧
      OneLive t.boots.rows := by
  have hrun : ((Runs.run (next sampleHost) (emptyStore 0) raceStart).bind fun s =>
      Runs.run (next sampleHost) s raceEnd).map
        (fun t => t.boots.rows.map fun r => (r.headSha, r.status, r.workerId)) =
      some [("a1".toList, .tornDown, some "m1".toList),
        ("b2".toList, .claimed, some "m2".toList)] := by
    decide +kernel
  obtain ⟨t, hbind, hrows⟩ := Option.map_eq_some_iff.mp hrun
  obtain ⟨s, hs, ht⟩ := Option.bind_eq_some_iff.mp hbind
  exact ⟨s, t, hs, ht, hrows, (preview_boot_lifecycle sampleHost 0 raceStart raceEnd s t hs ht).1⟩

end Agentrail.Preview
