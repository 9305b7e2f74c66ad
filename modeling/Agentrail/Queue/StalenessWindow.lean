import Agentrail.Queue.TerminalStates

/-!
# No double claim inside the staleness window

A claimed entry goes back to the queue only by a result of its claim or when its
evidence of life has been silent for the staleness window.  The claim does not
clear `last_liveness_at`, so the evidence can be older than the claim itself
(`stale_ping_reclaims`).  `claims_apart`: in every run in which each claim takes
a row without an older ping, and each result for a running entry comes from its
latest claim, two claims of an entry are a window apart or a result of the first
lies between them.
-/

namespace Agentrail.Queue

open Js IntakeGate Interleaving

/-! ## Claims in the history -/

/-- How often an entry was claimed. -/
def claimsOf (id : Text) : List Event → Nat
  | [] => 0
  | .claimed i _ :: h => if i = id then claimsOf id h + 1 else claimsOf id h
  | _ :: h => claimsOf id h

/-- When an entry was claimed last. -/
def lastClaim (id : Text) : List Event → Option Int
  | [] => none
  | .claimed i t :: h => if i = id then some t else lastClaim id h
  | _ :: h => lastClaim id h

/-- Whether a result of the last claim has been recorded. -/
def Answered (id : Text) : List Event → Prop
  | [] => False
  | .claimed i _ :: h => i ≠ id ∧ Answered id h
  | .result i claim :: h => i = id ∧ claim = claimsOf id h ∨ Answered id h
  | _ :: h => Answered id h

def window : Int := seconds LIVENESS_STALENESS_SECONDS

/-- Each claim is a window after the one before it or after a result of that one, and no claim is
earlier than what is recorded before it. -/
def ClaimsApart : List Event → Prop
  | [] => True
  | .claimed id t :: h =>
    (∀ t₀, lastClaim id h = some t₀ → Answered id h ∨ t₀ + window ≤ t) ∧
      (∀ i t₀, .claimed i t₀ ∈ h → t₀ ≤ t) ∧ ClaimsApart h
  | _ :: h => ClaimsApart h

theorem lastClaim_mem (id : Text) (h : List Event) (t : Int) (hl : lastClaim id h = some t) :
    .claimed id t ∈ h := by
  induction h with
  | nil => cases hl
  | cons e h ih =>
    cases e with
    | claimed i t₀ =>
      unfold lastClaim at hl
      split at hl
      · next hi =>
        cases hl
        rw [hi]
        exact List.mem_cons_self
      · exact List.mem_cons_of_mem _ (ih hl)
    | _ => exact List.mem_cons_of_mem _ (ih hl)

theorem claimsApart_tail (e : Event) (h : List Event) (ha : ClaimsApart (e :: h)) :
    ClaimsApart h := by
  cases e with
  | claimed i t => exact ha.2.2
  | _ => exact ha

/-- Where a claim stands after more events: answered, or still the last one and unanswered, or a
window before the last one. -/
theorem claim_status (id : Text) (t : Int) (older between : List Event)
    (ha : ClaimsApart (between ++ .claimed id t :: older)) :
    .result id (claimsOf id older + 1) ∈ between ∨
      ∃ t₁, lastClaim id (between ++ .claimed id t :: older) = some t₁ ∧
        (t₁ = t ∧ claimsOf id (between ++ .claimed id t :: older) = claimsOf id older + 1 ∧
            ¬ Answered id (between ++ .claimed id t :: older) ∨
          t + window ≤ t₁) := by
  induction between with
  | nil =>
    right
    refine ⟨t, if_pos rfl, Or.inl ⟨rfl, if_pos rfl, ?_⟩⟩
    rintro ⟨hne, _⟩
    exact hne rfl
  | cons e between ih =>
    rw [List.cons_append] at ha ⊢
    rcases ih (claimsApart_tail e _ ha) with hmem | ⟨t₁, hlast, hstatus⟩
    · exact Or.inl (List.mem_cons_of_mem _ hmem)
    · cases e with
      | claimed i t' =>
        right
        by_cases hi : i = id
        · subst hi
          obtain ⟨hgap, horder, _⟩ := ha
          refine ⟨t', if_pos rfl, Or.inr ?_⟩
          rcases hstatus with ⟨rfl, _, hopen⟩ | hfar
          · exact (hgap _ hlast).resolve_left hopen
          · exact hfar.trans (horder i t₁ (lastClaim_mem i _ t₁ hlast))
        · refine ⟨t₁, (if_neg hi).trans hlast, hstatus.imp_left ?_⟩
          rintro ⟨ht, hcount, hopen⟩
          exact ⟨ht, (if_neg hi).trans hcount, fun hans => hopen hans.2⟩
      | result i n =>
        rcases hstatus with ⟨ht, hcount, hopen⟩ | hfar
        · by_cases hhit : i = id ∧ n = claimsOf id (between ++ .claimed id t :: older)
          · left
            rw [hhit.1, hhit.2, hcount]
            exact List.mem_cons_self
          · right
            refine ⟨t₁, hlast, Or.inl ⟨ht, hcount, ?_⟩⟩
            rintro (h | h)
            · exact hhit h
            · exact hopen h
        · exact Or.inr ⟨t₁, hlast, Or.inr hfar⟩
      | _ => exact Or.inr ⟨t₁, hlast, hstatus⟩

/-- Two claims of an entry, however far apart in the history. -/
theorem claimsApart_pair (id : Text) (t t' : Int) (older between newer : List Event)
    (ha : ClaimsApart (newer ++ .claimed id t' :: (between ++ .claimed id t :: older))) :
    .result id (claimsOf id older + 1) ∈ between ∨ t + window ≤ t' := by
  induction newer with
  | nil =>
    obtain ⟨hgap, horder, htail⟩ := ha
    rcases claim_status id t older between htail with hmem | ⟨t₁, hlast, ⟨rfl, _, hopen⟩ | hfar⟩
    · exact Or.inl hmem
    · exact Or.inr ((hgap _ hlast).resolve_left hopen)
    · exact Or.inr (hfar.trans (horder id t₁ (lastClaim_mem id _ t₁ hlast)))
  | cons e newer ih => exact ih (claimsApart_tail e _ ha)

/-! ## What a run keeps -/

/-- The claim takes a row without an older ping; a result for a running entry comes from its latest
claim. -/
def FreshEvidence ⦃β : Type⦄ (_ : List (Prog Stmt Unit)) (s : Store) : Stmt β → Prop
  | .claimOldest w => ∀ row, oldestEligible s w = some row →
      ∀ l, row.lastLivenessAt = some l → s.now ≤ l
  | .recordRefusal data => ∀ r ∈ s.queue.rows, isEntry data.id data.workspaceId r →
      r.state = .running → data.claim = claimsOf data.id s.history
  | .recordRetry data => ∀ r ∈ s.queue.rows, isEntry data.id data.workspaceId r →
      r.state = .running → data.claim = claimsOf data.id s.history
  | _ => True

/-- Claims, pings, red and error results, and the sweep. -/
def isClaimOp : Op → Prop
  | .claimQueueEntry _ => True
  | .reconcileStaleRuns _ => True
  | .recordRunnerLiveness _ _ => True
  | .recordRunnerResult data => data.status = .red ∨ data.status = .error
  | _ => False

/-- A running row's evidence of life is not older than its claim; a row that does not run is out of
its claim. -/
def Paced (h : List Event) (now : Int) (r : QueueEntry) : Prop :=
  ∀ t, lastClaim r.id h = some t →
    if r.state = .running then (∀ l, r.lastLivenessAt = some l → t ≤ l) ∧ t ≤ r.updatedAt
    else Answered r.id h ∨ t + window ≤ now

structure PacedStore (s : Store) : Prop where
  apart : ClaimsApart s.history
  past : ∀ i t, .claimed i t ∈ s.history → t ≤ s.now
  rows : ∀ r ∈ s.queue.rows, Paced s.history s.now r

/-- Statements that change no history. -/
theorem PacedStore.update {s s' : Store} (hs : PacedStore s) (hhistory : s'.history = s.history)
    (hnow : s'.now = s.now) (image : QueueEntry → QueueEntry)
    (hrows : s'.queue.rows = s.queue.rows.map image)
    (himage : ∀ r ∈ s.queue.rows, Paced s.history s.now (image r)) : PacedStore s' where
  apart := hhistory ▸ hs.apart
  past := by
    rw [hhistory, hnow]
    exact hs.past
  rows := by
    rw [hhistory, hnow, hrows]
    exact List.forall_mem_map.mpr himage

theorem Paced.sweep {h : List Event} {now : Int} {r : QueueEntry} (hr : Paced h now r)
    (hstate : r.state = .running) (hstale : isStale r.lastLivenessAt (some r.updatedAt) now) :
    Paced h now { r with state := .queued, updatedAt := now } := by
  intro t ht
  have hevidence := hr t ht
  rw [if_pos hstate] at hevidence
  obtain ⟨hping, hupdated⟩ := hevidence
  dsimp only
  rw [if_neg (by decide)]
  right
  unfold isStale at hstale
  unfold window
  cases hl : r.lastLivenessAt with
  | some l =>
    rw [hl] at hstale
    have hlt : l < now - seconds LIVENESS_STALENESS_SECONDS := of_decide_eq_true hstale
    have hle := hping l hl
    omega
  | none =>
    rw [hl] at hstale
    have hlt : r.updatedAt < now - seconds (60 * STALE_RUN_MINUTES) := of_decide_eq_true hstale
    have hwider : seconds LIVENESS_STALENESS_SECONDS ≤ seconds (60 * STALE_RUN_MINUTES) := by decide
    omega

theorem Paced.stamp {h : List Event} {now : Int} {r : QueueEntry} (hr : Paced h now r)
    (hstate : r.state = .running) (hpast : ∀ i t, .claimed i t ∈ h → t ≤ now) :
    Paced h now { r with lastLivenessAt := some now } := by
  intro t ht
  have hevidence := hr t ht
  rw [if_pos hstate] at hevidence ⊢
  refine ⟨fun l hl => ?_, hevidence.2⟩
  cases hl
  exact hpast _ t (lastClaim_mem _ h t ht)

/-- A result changes no row but its own, and that one it answers. -/
theorem PacedStore.result {s s' : Store} (hs : PacedStore s) (data : RunnerResult)
    (f : QueueEntry → QueueEntry) (hf : ∀ r, (f r).state ≠ .running)
    (hlatest : ∀ r ∈ s.queue.rows, isEntry data.id data.workspaceId r → r.state = .running →
      data.claim = claimsOf data.id s.history)
    (hqueue : s'.queue = s.queue) (hhistory : s'.history = s.history) (hnow : s'.now = s.now) :
    PacedStore ((s'.updateQueue (isEntry data.id data.workspaceId) f).noteIf
      (!(s.selectQueue (isEntry data.id data.workspaceId)).isEmpty)
      (.result data.id data.claim)) := by
  cases hsel : s.selectQueue (isEntry data.id data.workspaceId) with
  | nil =>
    have hmiss : ∀ r ∈ s.queue.rows, ¬ isEntry data.id data.workspaceId r := by
      intro r hr he
      have hmem : r ∈ s.selectQueue (isEntry data.id data.workspaceId) :=
        List.mem_filter.mpr ⟨hr, he⟩
      rw [hsel] at hmem
      cases hmem
    have hrows : (s'.queue.update (isEntry data.id data.workspaceId) f).rows =
        s.queue.rows.map fun r =>
          if isEntry data.id data.workspaceId r then { f r with id := r.id } else r := by
      rw [hqueue]
      rfl
    refine hs.update hhistory hnow _ hrows fun r hr => ?_
    rw [if_neg (hmiss r hr)]
    exact hs.rows r hr
  | cons hit rest =>
    refine ⟨?_, ?_, ?_⟩
    · show ClaimsApart (.result data.id data.claim :: s'.history)
      rw [hhistory]
      exact hs.apart
    · intro i t hmem
      have hmem' : .claimed i t ∈ s.history := by
        rcases List.mem_cons.mp hmem with h | h
        · cases h
        · exact hhistory ▸ h
      show t ≤ s'.now
      rw [hnow]
      exact hs.past i t hmem'
    · show ∀ r ∈ (s'.queue.update _ f).rows, Paced (.result data.id data.claim :: s'.history) s'.now r
      rw [hqueue, hhistory, hnow]
      refine List.forall_mem_map.mpr fun r hr t ht => ?_
      by_cases he : isEntry data.id data.workspaceId r
      · have hid : r.id = data.id := by
          unfold isEntry at he
          simp only [Bool.and_eq_true, decide_eq_true_eq] at he
          exact he.1
        rw [if_pos he] at ht ⊢
        rw [if_neg (hf r)]
        by_cases hstate : r.state = .running
        · exact Or.inl (Or.inl ⟨hid.symm, (hlatest r hr he hstate).trans (hid ▸ rfl)⟩)
        · have hold := hs.rows r hr t ht
          rw [if_neg hstate] at hold
          exact hold.imp_left Or.inr
      · rw [if_neg he] at ht ⊢
        have hold := hs.rows r hr t ht
        split
        · next hstate => rwa [if_pos hstate] at hold
        · next hstate =>
          rw [if_neg hstate] at hold
          exact hold.imp_left Or.inr

/-- A claim starts from a row that is out of the claim before. -/
theorem PacedStore.claim {s : Store} (hs : PacedStore s) (row : QueueEntry)
    (hmem : row ∈ s.queue.rows) (heligible : isClaimEligible row s.now)
    (hfresh : ∀ l, row.lastLivenessAt = some l → s.now ≤ l) :
    PacedStore ((s.updateQueue (fun r => r.id = row.id) fun r =>
      { r with state := .running, nextEligibleAt := none, updatedAt := s.now }).note
        (.claimed row.id s.now)) := by
  have hqueued : row.state = .queued := by
    unfold isClaimEligible at heligible
    simp only [Bool.and_eq_true, decide_eq_true_eq] at heligible
    exact heligible.1
  refine ⟨⟨fun t₀ ht₀ => ?_, hs.past, hs.apart⟩, ?_, ?_⟩
  · have hold := hs.rows row hmem t₀ ht₀
    rwa [if_neg (by rw [hqueued]; decide)] at hold
  · intro i t hmem
    rcases List.mem_cons.mp hmem with h | h
    · cases h
      exact le_rfl
    · exact hs.past i t h
  · refine List.forall_mem_map.mpr fun r hr t ht => ?_
    by_cases hid : r.id = row.id
    · obtain rfl := s.queue.eq_of_id r row hr hmem hid
      rw [if_pos (decide_eq_true rfl)] at ht ⊢
      have hnow : some s.now = some t := (if_pos rfl).symm.trans ht
      cases hnow
      exact ⟨hfresh, le_rfl⟩
    · have hdec : ¬ decide (r.id = row.id) = true := by simpa using hid
      rw [if_neg hdec] at ht ⊢
      have hne : row.id ≠ r.id := fun h => hid h.symm
      have hold := hs.rows r hr t ((if_neg hne).symm.trans ht)
      split
      · next hstate => rwa [if_pos hstate] at hold
      · next hstate =>
        rw [if_neg hstate] at hold
        exact hold.imp_left fun h => ⟨hne, h⟩

theorem PacedStore.env {s s' : Store} (hs : PacedStore s) (he : Env s s') : PacedStore s' := by
  refine ⟨env_history he ▸ hs.apart, fun i t hmem => ?_, fun r hr t ht => ?_⟩
  · exact (hs.past i t (env_history he ▸ hmem)).trans he.1
  · rw [env_history he] at ht ⊢
    have hold := hs.rows r (env_queue he ▸ hr) t ht
    split
    · next hstate => rwa [if_pos hstate] at hold
    · next hstate =>
      rw [if_neg hstate] at hold
      exact hold.imp_right fun h => h.trans he.1

theorem PacedStore.exec {host : Host} {flag : Text → Bool} {op : Op} {β : Type} (q : Stmt β)
    {s : Store} {others : List (Prog Stmt Unit)} (hs : PacedStore s) (hop : isClaimOp op)
    (hq : Issued host flag op q) (hC : FreshEvidence others s q) :
    PacedStore (q.exec host s).2 := by
  cases q with
  | reconcileRuns | stampRun | upsertRun | insertAttempt | updateRun | greenAmong | alignmentFlag
  | approvedIssue | parkedDependents | findById | findInWorkspace =>
    exact hs.update rfl rfl id (List.map_id _).symm hs.rows
  | screen body source =>
    unfold Stmt.exec
    dsimp only
    split
    · exact hs
    · exact hs.update rfl rfl id (List.map_id _).symm hs.rows
  | reconcileEntries w =>
    refine hs.update rfl rfl _ rfl fun r hr => ?_
    split
    · next hp =>
      simp only [Bool.and_eq_true, decide_eq_true_eq] at hp
      exact (hs.rows r hr).sweep hp.1.2 hp.2
    · exact hs.rows r hr
  | stampEntry id w =>
    refine hs.update rfl rfl _ rfl fun r hr => ?_
    split
    · next hp =>
      simp only [Bool.and_eq_true, decide_eq_true_eq] at hp
      exact (hs.rows r hr).stamp hp.2 hs.past
    · exact hs.rows r hr
  | claimOldest w =>
    unfold Stmt.exec
    dsimp only
    split
    · exact hs
    · next row hrow =>
      obtain ⟨hmem, _, heligible⟩ := oldestEligible_mem s w row hrow
      exact hs.claim row hmem heligible (hC row hrow)
  | recordRefusal data => exact hs.result data _ (fun _ => nofun) hC rfl rfl rfl
  | recordRetry data =>
    refine hs.result data _ (fun r => ?_) hC rfl rfl rfl
    unfold retryEntry
    dsimp only
    split <;> nofun
  | recordState data next =>
    obtain ⟨rfl, hstatus⟩ := hq
    rcases hop with h | h <;> rw [h] at hstatus <;> rcases hstatus with h' | h' <;> cases h'.1
  | releaseParked | restampParked =>
    cases op with
    | recordRunnerResult data =>
      have hgreen : data.status = .green := hq.1
      rcases hop with h | h <;> rw [h] at hgreen <;> cases hgreen
    | unparkDependents => exact hop.elim
    | _ => exact hq.elim
  | confirm | deny | revise | clearDelay =>
    obtain rfl := hq
    exact hop.elim
  | holdForAlignment | requeue =>
    obtain ⟨rfl, _⟩ := hq
    exact hop.elim
  | insertEntry =>
    rcases hq with ⟨data, rfl, _⟩ | ⟨data, rfl, _⟩ <;> exact hop.elim

/-- **No double claim inside the staleness window.** In every run of claims, pings, red and error
results and sweeps in which each claim takes a row without an older ping and each result for a
running entry comes from its latest claim: of two claims of an entry, either a result of the first
is recorded between them or the second is a window later; and what a running entry is judged by is
not older than its claim. -/
theorem claims_apart (host : Host) (s₀ : Store) (c : Config Store Stmt) (h₀ : s₀.history = [])
    (h : (queueSystem host isClaimOp).Reaches FreshEvidence ⟨s₀, []⟩ c) :
    (∀ id t t' newer between older,
      c.store.history = newer ++ .claimed id t' :: (between ++ .claimed id t :: older) →
      .result id (claimsOf id older + 1) ∈ between ∨ t + window ≤ t') ∧
    ∀ r ∈ c.store.queue.rows, r.state = .running → ∀ t, lastClaim r.id c.store.history = some t →
      t ≤ r.lastLivenessAt.getD r.updatedAt := by
  have hstart : PacedStore s₀ := by
    refine ⟨h₀ ▸ trivial, fun i t hmem => ?_, fun r _ t ht => ?_⟩
    · rw [h₀] at hmem
      cases hmem
    · rw [h₀] at ht
      cases ht
  have hs : PacedStore c.store :=
    queue_invariant PacedStore .refl hstart (fun q _ _ _ hop hq hC hs => hs.exec q hop hq hC)
      (fun _ _ he hs => hs.env he) h
  constructor
  · intro id t t' newer between older hhistory
    exact claimsApart_pair id t t' older between newer (hhistory ▸ hs.apart)
  · intro r hr hstate t ht
    have hr' := hs.rows r hr t ht
    rw [if_pos hstate] at hr'
    cases hl : r.lastLivenessAt with
    | none => exact hr'.2
    | some l => exact hr'.1 l hl

/-- No claim takes a row with a ping, and a result answers the latest claim. -/
def answersLatest ⦃β : Type⦄ (_ : List (Prog Stmt Unit)) (s : Store) : Stmt β → Bool
  | .claimOldest w => (oldestEligible s w).all fun row => row.lastLivenessAt.isNone
  | .recordRefusal data => data.claim = claimsOf data.id s.history
  | .recordRetry data => data.claim = claimsOf data.id s.history
  | _ => true

theorem answersLatest_fresh ⦃β : Type⦄ (others : List (Prog Stmt Unit)) (s : Store) (q : Stmt β)
    (h : answersLatest others s q) : FreshEvidence others s q := by
  cases q <;> first | exact trivial | skip
  case claimOldest w =>
    intro row hrow l hl
    have hall : (oldestEligible s w).all fun row => row.lastLivenessAt.isNone := h
    rw [hrow] at hall
    have hnone : row.lastLivenessAt = none := Option.isNone_iff_eq_none.mp hall
    rw [hnone] at hl
    cases hl
  case recordRefusal data => exact fun _ _ _ _ => of_decide_eq_true h
  case recordRetry data => exact fun _ _ _ _ => of_decide_eq_true h

/-- An entry is claimed, reported red and claimed again. -/
theorem claims_apart_retries : ∃ c : Config Store Stmt, ∃ t t' : Int, ∃ between older : List Event,
    c.store.history = .claimed "e".toList t' :: (between ++ .claimed "e".toList t :: older) ∧
    (.result "e".toList (claimsOf "e".toList older + 1) ∈ between ∨ t + window ≤ t') := by
  let S := queueSystem plainHost isClaimOp
  let choices :=
    solo plainHost (.claimQueueEntry "w".toList) 6 ++ wait 60000000 ::
    solo plainHost (.recordRunnerResult ⟨"e".toList, "w".toList, .red, none, 0, 1⟩) 6 ++
    wait 60000000 :: solo plainHost (.claimQueueEntry "w".toList) 6
  have hvalid : ∀ choice ∈ choices, choice.Valid S := by
    simp only [choices, List.mem_append, List.mem_cons]
    rintro choice ((h | rfl | h) | rfl | h)
    · exact solo_valid _ _ trivial choice h
    · exact wait_valid _
    · exact solo_valid _ _ (Or.inl rfl) choice h
    · exact wait_valid _
    · exact solo_valid _ _ trivial choice h
  have hrun : S.Reaches FreshEvidence ⟨waitingStore, []⟩ (S.schedule choices ⟨waitingStore, []⟩) :=
    S.schedule_reaches choices _ hvalid
      (S.meets_of_check answersLatest answersLatest_fresh _ _ (by decide +kernel))
  have hhistory : (S.schedule choices ⟨waitingStore, []⟩).store.history =
      [.claimed "e".toList 120000000, .result "e".toList 1, .claimed "e".toList 0] := by
    decide +kernel
  refine ⟨_, 0, 120000000, [.result "e".toList 1], [], hhistory, ?_⟩
  exact (claims_apart plainHost waitingStore _ rfl hrun).1 _ _ _ [] [.result "e".toList 1] [] hhistory

/-! ## An old ping -/

/-- The first claim pings and reports red; the retry is claimed ten minutes later, and claimed again
in the same moment: the sweep of the second claim sees only the old ping. -/
def oldPing : List (System.Choice Store Stmt) :=
  solo plainHost (.claimQueueEntry "w".toList) 6 ++ wait 60000000 ::
    solo plainHost (.recordRunnerLiveness "e".toList "w".toList) 3 ++
    solo plainHost (.recordRunnerResult ⟨"e".toList, "w".toList, .red, none, 0, 1⟩) 6 ++
    wait 600000000 :: solo plainHost (.claimQueueEntry "w".toList) 6 ++
    wait 1000000 :: solo plainHost (.claimQueueEntry "w".toList) 6

theorem oldPing_valid : ∀ choice ∈ oldPing, choice.Valid (queueSystem plainHost isClaimOp) := by
  simp only [oldPing, List.mem_append, List.mem_cons]
  rintro choice ((((h | rfl | h) | h) | rfl | h) | rfl | h)
  · exact solo_valid _ _ trivial choice h
  · exact wait_valid _
  · exact solo_valid _ _ trivial choice h
  · exact solo_valid _ _ (Or.inl rfl) choice h
  · exact wait_valid _
  · exact solo_valid _ _ trivial choice h
  · exact wait_valid _
  · exact solo_valid _ _ trivial choice h

/-- An entry is claimed twice within a second and no result lies between. -/
theorem stale_ping_reclaims : ¬ ∀ (s₀ : Store) (c : Config Store Stmt), s₀.history = [] →
    (queueSystem plainHost isClaimOp).Reaches System.Any ⟨s₀, []⟩ c →
    ∀ id t t' newer between older,
      c.store.history = newer ++ .claimed id t' :: (between ++ .claimed id t :: older) →
      .result id (claimsOf id older + 1) ∈ between ∨ t + window ≤ t' := by
  intro hclaim
  let S := queueSystem plainHost isClaimOp
  have hrun : S.Reaches System.Any ⟨waitingStore, []⟩ (S.schedule oldPing ⟨waitingStore, []⟩) :=
    S.schedule_reaches oldPing _ oldPing_valid (S.meets_any _ _)
  have hhistory : (S.schedule oldPing ⟨waitingStore, []⟩).store.history =
      [.claimed "e".toList 661000000, .claimed "e".toList 660000000, .result "e".toList 1,
        .claimed "e".toList 0] := by decide +kernel
  rcases hclaim waitingStore _ rfl hrun "e".toList 660000000 661000000 [] []
    [.result "e".toList 1, .claimed "e".toList 0] hhistory with hmem | hfar
  · cases hmem
  · exact absurd hfar (by decide)

end Agentrail.Queue
