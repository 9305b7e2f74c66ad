import Agentrail.Queue.GuardrailPark

/-!
# Dependents are woken

A dependent is parked for its blockers and released by the wake-up scan of the
blocker that gets green last, or by the confirmation of its brief.  The enqueue
reads the blockers before it inserts: a blocker that gets green in between, and
has scanned before the insert, never sees the row (`enqueue_loses_wake_up`).
`dependents_woken`: in every run in which no such insert happens, no dependent
is overdue once all operations have ended.  The argument is the wake-up rule of
`Agentrail.Lib.Interleaving`: the green result answers for the rows it makes
overdue, because its scan is still to come (`ensures_unparkDependents`).
-/

namespace Agentrail.Queue

open Js IntakeGate Interleaving

/-! ## Overdue rows -/

/-- The external id of issue `n` of the same repository. -/
def siblingId (externalId : Text) (n : Nat) : Text :=
  match splitLast '#' externalId with
  | some (repoFullName, _) => repoFullName ++ '#' :: decimal n
  | none => []

/-- The row is parked for its dependencies, needs no alignment, and all its blockers are green. -/
structure Overdue (s : Store) (r : QueueEntry) : Prop where
  parked : r.state = .parked
  waiting : ∃ unmet, r.parkReason = some (formatWaitingOnReason unmet)
  blocked : r.blockedBy ≠ []
  aligned : isAligned r (s.requiresAlignment r.workspaceId)
  green : ∀ n ∈ r.blockedBy, s.isGreen r.workspaceId (siblingId r.externalId n)

/-- A repository has no `#` in its name, so the number of an issue is what follows the only `#` of
its external id. -/
def WellNamed (externalId : Text) : Prop :=
  ∃ repoFullName n, '#' ∉ repoFullName ∧ externalId = repoFullName ++ '#' :: decimal n

theorem siblingId_append (repoFullName : Text) (m n : Nat) :
    siblingId (repoFullName ++ '#' :: decimal m) n = repoFullName ++ '#' :: decimal n := by
  unfold siblingId
  rw [splitLast_append '#' repoFullName _ (hash_notMem_decimal m)]

/-- The subquery of the confirmation looks in the same repository. -/
theorem WellNamed.takeWhile {externalId : Text} (h : WellNamed externalId) (n : Nat) :
    externalId.takeWhile (· ≠ '#') ++ '#' :: decimal n = siblingId externalId n := by
  obtain ⟨repoFullName, m, hrepo, rfl⟩ := h
  rw [siblingId_append, takeWhile_ne_append '#' repoFullName _ hrepo]

theorem waiting_ne_denied (unmet : List Nat) :
    formatWaitingOnReason unmet ≠ ALIGNMENT_DENIED_PARK_REASON := by
  intro h
  have hhead : some 'W' = some 'a' := congrArg List.head? h
  cases hhead

theorem waiting_ne_alignment (unmet : List Nat) :
    formatWaitingOnReason unmet ≠ ALIGNMENT_PARK_REASON := by
  intro h
  have hhead : some 'W' = some 'a' := congrArg List.head? h
  cases hhead

/-- What tells overdue rows apart; no statement changes it. -/
structure Key where
  workspaceId : Text
  externalId : Text
  blockedBy : List Nat

def Key.of (r : QueueEntry) : Key := ⟨r.workspaceId, r.externalId, r.blockedBy⟩

/-- Some row with this key is overdue. -/
def OverdueAt (k : Key) (s : Store) : Prop :=
  ∃ r ∈ s.queue.rows, Key.of r = k ∧ Overdue s r

/-- The flags are those of the start and the external ids of dependents are well named. -/
def Orderly (workspaces : List Workspace) (s : Store) : Prop :=
  s.workspaces = workspaces ∧ ∀ r ∈ s.queue.rows, r.blockedBy ≠ [] → WellNamed r.externalId

theorem Writes.key_eq {β : Type} {q : Stmt β} {s : Store} {r r' : QueueEntry}
    (h : Writes q s r r') : Key.of r' = Key.of r := by
  cases h <;> rfl

theorem Overdue.transfer {s s' : Store} {r : QueueEntry} (h : Overdue s' r)
    (hflag : s'.workspaces = s.workspaces)
    (hgreen : ∀ w e, s'.isGreen w e → s.isGreen w e) : Overdue s r where
  parked := h.parked
  waiting := h.waiting
  blocked := h.blocked
  aligned := by
    have ha := h.aligned
    unfold Store.requiresAlignment at ha ⊢
    rwa [hflag] at ha
  green := fun n hn => hgreen _ _ (h.green n hn)

/-! ## The scan releases -/

section
variable {host : Host} {workspaces : List Workspace} {k : Key}

theorem isGreen_iff (s : Store) (w e : Text) : s.isGreen w e ↔
    ∃ g ∈ s.queue.rows, g.workspaceId = w ∧ g.externalId = e ∧ g.state = .green := by
  unfold Store.isGreen
  simp only [List.any_eq_true, Bool.and_eq_true, decide_eq_true_eq, and_assoc]

/-- A released row is not overdue. -/
theorem not_overdue_release (s : Store) :
    ¬ OverdueAt k ((Stmt.releaseParked k.workspaceId k.externalId).exec host s).2 := by
  rintro ⟨r', hr', hkey, hover⟩
  obtain ⟨r, _, hr⟩ := (s.queue.mem_update _ _ r').mp hr'
  split at hr
  · rw [← hr] at hover
    exact absurd hover.parked nofun
  · next hp =>
    subst hr
    subst hkey
    apply hp
    simp only [Key.of, hover.parked, decide_true, Bool.and_self]

/-- A blocker with a green row is met. -/
theorem unmetAmong_eq_nil (repo : Text) (blockedBy : List Nat) (greenRows : List Text)
    (h : ∀ n ∈ blockedBy, repo ++ '#' :: decimal n ∈ greenRows) :
    unmetAmong blockedBy greenRows = [] := by
  unfold unmetAmong
  rw [List.filter_eq_nil_iff]
  intro n hn
  have hmem : some n ∈ greenRows.map fun externalId => number (lastPart '#' externalId) := by
    refine List.mem_map.mpr ⟨_, h n hn, ?_⟩
    rw [lastPart_append '#' repo _ (hash_notMem_decimal n), number_decimal]
  simpa using hmem

/-- The green siblings are what the statement of `unmetBlockers` finds. -/
theorem mem_greenAmong (s : Store) (w e : Text) (externalIds : List Text) (he : e ∈ externalIds)
    (hgreen : s.isGreen w e) : e ∈ ((Stmt.greenAmong w externalIds).exec host s).1 := by
  obtain ⟨g, hg, hgw, rfl, hgs⟩ := (isGreen_iff s w e).mp hgreen
  refine List.mem_map_of_mem (List.mem_filter.mpr ⟨hg, ?_⟩)
  simp [hgw, hgs, he]

/-- The body of the loop, for a row that was fit for a release when it was read. -/
theorem ensures_unparkEntry (repo : Text) (m : Nat) (required : Bool) (entry : QueueEntry)
    (hext : entry.externalId = repo ++ '#' :: decimal m) (hblocked : entry.blockedBy ≠ [])
    (hreason : entry.parkReason ≠ some ALIGNMENT_DENIED_PARK_REASON)
    (haligned : isAligned entry required) :
    Ensures (Stmt.exec host) (Orderly workspaces) (OverdueAt (Key.of entry))
      (unparkEntry entry.workspaceId repo required entry) := by
  have hlen : ¬ entry.blockedBy.length = 0 := fun h => hblocked (List.length_eq_zero_iff.mp h)
  unfold unparkEntry unmetBlockers
  rw [if_neg hreason, if_neg hlen]
  rintro s _ ⟨r, hr, hkey, hover⟩
  right
  have hkeys : r.workspaceId = entry.workspaceId ∧ r.externalId = entry.externalId ∧
      r.blockedBy = entry.blockedBy := by simpa [Key.of] using hkey
  have hmet : unmetAmong entry.blockedBy ((Stmt.greenAmong entry.workspaceId
      (entry.blockedBy.map fun n => repo ++ '#' :: decimal n)).exec host s).1 = [] := by
    refine unmetAmong_eq_nil repo _ _ fun n hn => ?_
    refine mem_greenAmong s _ _ _ (List.mem_map_of_mem hn) ?_
    have hgreen := hover.green n (hkeys.2.2 ▸ hn)
    rwa [hkeys.1, hkeys.2.1, hext, siblingId_append] at hgreen
  show Ensures _ _ _ (if 0 < (unmetAmong _ _).length then _ else _)
  rw [hmet, if_neg (by simp), if_pos haligned]
  intro s _ _
  exact Or.inl (not_overdue_release s)

/-- The loop, once such a row is in its list. -/
theorem ensures_unparkEach (repo : Text) (m : Nat) (required : Bool) (w : Text)
    (entry : QueueEntry) (hw : entry.workspaceId = w)
    (hext : entry.externalId = repo ++ '#' :: decimal m) (hblocked : entry.blockedBy ≠ [])
    (hreason : entry.parkReason ≠ some ALIGNMENT_DENIED_PARK_REASON)
    (haligned : isAligned entry required) (parked : List QueueEntry) (hmem : entry ∈ parked) :
    Ensures (Stmt.exec host) (Orderly workspaces) (OverdueAt (Key.of entry))
      (unparkEach w repo required parked) := by
  induction parked with
  | nil => cases hmem
  | cons head parked ih =>
    unfold unparkEach
    rcases List.mem_cons.mp hmem with rfl | htail
    · subst hw
      exact ensures_bind_left _ _
        (ensures_unparkEntry repo m required entry hext hblocked hreason haligned)
    · exact ensures_bind_right _ _ fun released => ensures_bind_left _ _ (ih htail)

/-- **The scan.** A wake-up for one of its blockers releases an overdue row, whatever happens
between its statements. -/
theorem ensures_unparkDependents (k : Key) (n : Nat) (hname : WellNamed k.externalId)
    (hn : n ∈ k.blockedBy) :
    Ensures (Stmt.exec host) (Orderly workspaces) (OverdueAt k)
      (unparkDependents k.workspaceId (siblingId k.externalId n)) := by
  obtain ⟨repo, m, _, hext⟩ := hname
  unfold unparkDependents
  rw [hext, siblingId_append, splitLast_append '#' repo _ (hash_notMem_decimal n)]
  dsimp only
  rw [number_decimal]
  rintro s ⟨hflags, _⟩ ⟨r, hr, rfl, hover⟩
  right
  -- the row is in the answer of the scan
  have hscan : r ∈ ((Stmt.parkedDependents r.workspaceId n).exec host s).1 := by
    refine List.mem_filter.mpr ⟨hr, ?_⟩
    have hin : n ∈ r.blockedBy := hn
    simp [hover.parked, hin]
  have hlen : ¬ ((Stmt.parkedDependents r.workspaceId n).exec host s).1.length = 0 := fun h => by
    rw [List.length_eq_zero_iff.mp h] at hscan
    cases hscan
  show Ensures _ _ _ (if ((Stmt.parkedDependents r.workspaceId n).exec host s).1.length = 0 then _
    else _)
  rw [if_neg hlen]
  rintro s' ⟨hflags', _⟩ _
  right
  have hreason : r.parkReason ≠ some ALIGNMENT_DENIED_PARK_REASON := by
    obtain ⟨unmet, hwaiting⟩ := hover.waiting
    rw [hwaiting]
    exact fun h => waiting_ne_denied unmet (Option.some.inj h)
  have haligned : isAligned r (s'.requiresAlignment r.workspaceId) := by
    have ha := hover.aligned
    unfold Store.requiresAlignment at ha ⊢
    rwa [hflags', ← hflags]
  exact ensures_unparkEach repo m _ r.workspaceId r rfl hext hover.blocked hreason haligned _ hscan

end

/-! ## What makes a row overdue -/

def Stmt.recordsState {β : Type} : Stmt β → Bool
  | .recordState _ _ => true
  | _ => false

/-- Only a result statement makes a row green. -/
theorem Writes.not_green {β : Type} {q : Stmt β} {s : Store} {r r' : QueueEntry}
    (h : Writes q s r r') (hq : q.recordsState = false) : r'.state ≠ .green := by
  cases h with
  | reconcileEntries _ _ _ | claimOldest _ _ | recordRefusal _ | releaseParked _ _ _
  | requeue _ _ _ _ => nofun
  | stampEntry _ hs | restampParked _ _ hs _ | deny _ hs | revise _ hs _ | clearDelay _ hs
  | holdForAlignment _ hs =>
    intro hg
    rw [show r.state = .green from hg] at hs
    cases hs
  | recordRetry _ _ =>
    unfold retryEntry
    dsimp only
    split <;> nofun
  | confirm _ _ =>
    dsimp only
    split <;> nofun
  | recordState _ => cases hq

/-- A row that a statement writes is not overdue: it is out of its park, or its park reason is
another one, or the statement has just found a blocker missing. -/
theorem Writes.not_overdue {β : Type} {q : Stmt β} {s s' : Store} {r r' : QueueEntry}
    (h : Writes q s r r') (hq : q.recordsState = false)
    (hname : r.blockedBy ≠ [] → WellNamed r.externalId)
    (hgreen : ∀ w e, s'.isGreen w e → s.isGreen w e) (hover : Overdue s' r') : False := by
  have hparked := hover.parked
  obtain ⟨unmet, hwaiting⟩ := hover.waiting
  cases h with
  | reconcileEntries _ _ _ | claimOldest _ _ | recordRefusal _ | releaseParked _ _ _
  | requeue _ _ _ _ => cases hparked
  | stampEntry _ hs | clearDelay _ hs =>
    rw [show r.state = .parked from hparked] at hs
    cases hs
  | recordRetry _ _ =>
    unfold retryEntry at hparked
    dsimp only at hparked
    split at hparked <;> cases hparked
  | recordState _ => cases hq
  | restampParked _ _ _ _ | revise _ _ _ | holdForAlignment _ _ =>
    exact waiting_ne_alignment unmet (Option.some.inj hwaiting).symm
  | deny _ _ => exact waiting_ne_denied unmet (Option.some.inj hwaiting).symm
  | confirm _ _ =>
    have hunmet : unmetNow s r = [] := by
      unfold unmetNow
      rw [List.filter_eq_nil_iff]
      intro n hn
      have hg := hgreen _ _ (hover.green n hn)
      rw [(hname hover.blocked).takeWhile]
      simpa using hg
    dsimp only at hparked
    rw [if_pos hunmet] at hparked
    cases hparked

theorem GithubAdmission.state {host : Host} {flag : Text → Bool} {data : GithubIssue}
    {row : QueueEntry} {guardrail approval : Bool}
    (h : GithubAdmission host flag data row guardrail approval) :
    row.state = .queued ∨ row.state = .parked := by
  cases h with
  | @intro unmet hold matched hscreened =>
    have hstate := hscreened.state (dependencyHold_state unmet)
    show (alignGithub (gateClosed flag data.workspaceId hold) matched hold).1.state = _ ∨
      (alignGithub (gateClosed flag data.workspaceId hold) matched hold).1.state = _
    unfold alignGithub
    split
    · exact hstate
    · split
      · split <;> exact hstate
      · exact Or.inr (awaitAlignment_state hold hstate)

theorem GithubAdmission.externalId_eq {host : Host} {flag : Text → Bool} {data : GithubIssue}
    {row : QueueEntry} {guardrail approval : Bool}
    (h : GithubAdmission host flag data row guardrail approval) :
    row.externalId = data.externalId := by
  cases h
  rfl

/-- Enqueues of GitHub issues, green results and confirmations. -/
def isWakeOp : Op → Prop
  | .enqueueGithubIssue data => '#' ∉ data.repoFullName
  | .recordRunnerResult data => data.status = .green
  | .confirmAlignmentBrief _ => True
  | _ => False

theorem admission_wellNamed {host : Host} {flag : Text → Bool} {op : Op} {row : QueueEntry}
    {guardrail approval : Bool} (hop : isWakeOp op)
    (hq : Issued host flag op (.insertEntry row guardrail approval)) :
    WellNamed row.externalId ∧ row.state ≠ .green := by
  rcases hq with ⟨data, rfl, hadm⟩ | ⟨data, rfl, _⟩
  · refine ⟨⟨data.repoFullName, data.number, hop, hadm.externalId_eq⟩, ?_⟩
    rcases hadm.state with h | h <;> rw [h] <;> nofun
  · exact hop.elim

/-- An insert of a row that is overdue from the start. -/
def InsertsOverdue ⦃β : Type⦄ (k : Key) (s : Store) : Stmt β → Prop
  | .insertEntry row _ _ => Key.of row = k ∧ row.id ∉ s.queue.rows.map QueueEntry.id ∧
      Overdue s row ∧ WellNamed row.externalId
  | _ => False

/-- A statement other than a result makes nothing overdue but what it inserts. -/
theorem newly_overdue {host : Host} {flag : Text → Bool} {op : Op} {β : Type} (q : Stmt β)
    {workspaces : List Workspace} {s : Store} {k : Key} (hs : Orderly workspaces s)
    (hop : isWakeOp op) (hq : Issued host flag op q) (hstate : q.recordsState = false)
    (hbefore : ¬ OverdueAt k s) (hafter : OverdueAt k (q.exec host s).2) :
    InsertsOverdue k s q := by
  obtain ⟨r', hr', hkey, hover⟩ := hafter
  have hflags := exec_workspaces host q s
  rcases exec_row host q s with ⟨image, hrows, himage⟩ |
    ⟨row, guardrail, approval, hrows, _, hins⟩
  · have hgreen : ∀ w e, (q.exec host s).2.isGreen w e → s.isGreen w e := by
      intro w e hg
      rw [isGreen_iff] at hg ⊢
      obtain ⟨g', hg', hgw, hge, hgs⟩ := hg
      rw [hrows] at hg'
      obtain ⟨g, hg, rfl⟩ := List.mem_map.mp hg'
      rcases himage g hg with heq | hw
      · rw [heq] at hgw hge hgs
        exact ⟨g, hg, hgw, hge, hgs⟩
      · exact absurd hgs (hw.not_green hstate)
    rw [hrows] at hr'
    obtain ⟨r, hr, rfl⟩ := List.mem_map.mp hr'
    rcases himage r hr with heq | hw
    · rw [heq] at hkey hover
      exact absurd ⟨r, hr, hkey, hover.transfer hflags hgreen⟩ hbefore
    · exact (hw.not_overdue hstate (hs.2 r hr) hgreen hover).elim
  · cases hins with
    | @insertEntry new _ _ _ hfresh =>
      obtain ⟨hname, hnotGreen⟩ := admission_wellNamed hop hq
      have hgreen : ∀ w e, (Stmt.exec host (.insertEntry new guardrail approval) s).2.isGreen w e →
          s.isGreen w e := by
        intro w e hg
        rw [isGreen_iff] at hg ⊢
        obtain ⟨g, hg, hgw, hge, hgs⟩ := hg
        rw [hrows] at hg
        rcases List.mem_append.mp hg with h | h
        · exact ⟨g, h, hgw, hge, hgs⟩
        · rw [List.mem_singleton.mp h] at hgs
          exact absurd hgs hnotGreen
      have hover' := hover.transfer hflags hgreen
      rw [hrows] at hr'
      rcases List.mem_append.mp hr' with h | h
      · exact absurd ⟨r', h, hkey, hover'⟩ hbefore
      · obtain rfl := List.mem_singleton.mp h
        exact ⟨hkey, hfresh, ⟨hover'.parked, hover'.waiting, hover'.blocked, hover'.aligned,
          hover'.green⟩, hname⟩

/-! ## Every operation answers for what it makes overdue -/

section
variable {host : Host} {workspaces : List Workspace} {flag : Text → Bool}

/-- The statement of a green result: what it makes overdue waited for the entry itself. -/
theorem green_overdue (data : RunnerResult) (s : Store) (k : Key) (hs : Orderly workspaces s)
    (hbefore : ¬ OverdueAt k s)
    (hafter : OverdueAt k ((Stmt.recordState data .green).exec host s).2) :
    WellNamed k.externalId ∧ ∃ n ∈ k.blockedBy, ∃ prior row,
      ((Stmt.recordState data .green).exec host s).1 = some (prior, row) ∧
      data.workspaceId = k.workspaceId ∧ row.externalId = siblingId k.externalId n := by
  obtain ⟨r', hr', rfl, hover⟩ := hafter
  let set : QueueEntry → QueueEntry := fun r => { r with state := .green, updatedAt := s.now }
  have hqueue : ((Stmt.recordState data .green).exec host s).2.queue =
      s.queue.update (isEntry data.id data.workspaceId) set := Store.noteIf_queue _ _ _
  rw [hqueue, QueueTable.mem_update] at hr'
  obtain ⟨r, hr, heq⟩ := hr'
  -- the row itself is not the one that got green
  have hsame : r = r' := by
    split at heq
    · rw [← heq] at hover
      exact absurd hover.parked nofun
    · exact heq
  subst hsame
  refine ⟨hs.2 r hr hover.blocked, ?_⟩
  have hmissing : ∃ n ∈ r.blockedBy, ¬ s.isGreen r.workspaceId (siblingId r.externalId n) := by
    by_contra hall
    push Not at hall
    refine hbefore ⟨r, hr, rfl, hover.parked, hover.waiting, hover.blocked, ?_, hall⟩
    have ha := hover.aligned
    unfold Store.requiresAlignment at ha ⊢
    rwa [exec_workspaces] at ha
  obtain ⟨n, hn, hnot⟩ := hmissing
  refine ⟨n, hn, ?_⟩
  -- so its blocker is
  have hgreen := (isGreen_iff _ _ _).mp (hover.green n hn)
  obtain ⟨g', hg', hgw, hge, hgs⟩ := hgreen
  rw [hqueue, QueueTable.mem_update] at hg'
  obtain ⟨g, hg, heq⟩ := hg'
  split at heq
  · next hentry =>
    have hids : g.id = data.id ∧ g.workspaceId = data.workspaceId := by
      simpa [isEntry] using hentry
    have hw : g'.workspaceId = g.workspaceId := by rw [← heq]
    have he : g'.externalId = g.externalId := by rw [← heq]
    -- the statement answers with the row it wrote
    have hanswer : s.selectQueue (isEntry data.id data.workspaceId) ≠ [] :=
      List.ne_nil_of_mem (List.mem_filter.mpr ⟨hg, hentry⟩)
    obtain ⟨x, rest, hx⟩ := List.exists_cons_of_ne_nil hanswer
    have hxmem : x ∈ s.selectQueue (isEntry data.id data.workspaceId) := hx ▸ List.mem_cons_self
    obtain ⟨hxrows, hxentry⟩ := List.mem_filter.mp hxmem
    have hxids : x.id = data.id ∧ x.workspaceId = data.workspaceId := by
      simpa [isEntry] using hxentry
    obtain rfl := s.queue.eq_of_id x g hxrows hg (hxids.1.trans hids.1.symm)
    refine ⟨x.state, set x, ?_, ?_, ?_⟩
    · show ((s.selectQueue (isEntry data.id data.workspaceId)).map
        fun r => (r.state, set r)).head? = _
      rw [hx]
      rfl
    · exact hids.2.symm.trans (hw.symm.trans hgw)
    · exact he.symm.trans hge
  · subst heq
    exact absurd ((isGreen_iff _ _ _).mpr ⟨g, hg, hgw, hge, hgs⟩) hnot

/-- The rest of a green result makes nothing overdue. -/
theorem answers_settleResult (data : RunnerResult) (hop : isWakeOp (.recordRunnerResult data))
    (row : QueueEntry) (transitioned : Bool) :
    Answers (Stmt.exec host) (Orderly workspaces) OverdueAt InsertsOverdue
      (logGreenAttempt data row transitioned >>= fun _ => settleResult data row transitioned) := by
  let G : ∀ ⦃β : Type⦄, Stmt β → Prop := fun _ q =>
    Issued host (fun _ => true) (.recordRunnerResult data) q ∧ q.recordsState = false
  have hsilent : ∀ ⦃β : Type⦄ (q : Stmt β), q.isSilent → G q := by
    intro β q h
    refine ⟨issued_of_isSilent q h, ?_⟩
    cases q <;> first | rfl | cases h
  have hguarded : Guarded (Stmt.exec host) (Orderly workspaces) G
      (logGreenAttempt data row transitioned >>= fun _ => settleResult data row transitioned)
      fun _ => True := by
    have hsettle : Guarded (Stmt.exec host) (Orderly workspaces) G
        (settleResult data row transitioned) fun _ => True :=
      guarded_settleResult hsilent data row transitioned (fun h _ => ⟨⟨h, rfl⟩, rfl⟩)
        fun h _ => ⟨⟨h, rfl⟩, rfl⟩
    rw [guarded_bind]
    unfold logGreenAttempt
    split
    · exact ⟨hsilent _ rfl, fun _ _ => hsettle⟩
    · exact hsettle
  exact answers_of_guarded _ _
    (fun β q hq s k hs hb ha => newly_overdue q hs hop hq.1 hq.2 hb ha) hguarded

theorem answers_opProgram
    (hflag : ∀ s, Orderly workspaces s → ∀ w, s.requiresAlignment w = flag w) (op : Op)
    (hop : isWakeOp op) :
    Answers (Stmt.exec host) (Orderly workspaces) OverdueAt InsertsOverdue (opProgram host op) := by
  -- an operation that records no state makes nothing overdue
  have hother : (∀ data, op ≠ .recordRunnerResult data) →
      Answers (Stmt.exec host) (Orderly workspaces) OverdueAt InsertsOverdue (opProgram host op) := by
    intro hne
    refine answers_of_guarded _ _ (fun β q hq s k hs hb ha => ?_)
      (opProgram_issues host flag hflag op)
    refine newly_overdue q hs hop hq ?_ hb ha
    cases q with
    | recordState data next => exact absurd hq.1 (hne data)
    | _ => rfl
  cases op with
  | recordRunnerResult data =>
    have hgreen : data.status = .green := hop
    have hnext : (nextQueueTransition data.status 0 0 none 0 0).state = .green := by
      rw [hgreen]
      rfl
    refine answers_bind _ _ ?_ fun _ => trivial
    unfold recordRunnerResult
    rw [if_neg (by rw [hgreen]; simp)]
    unfold recordProgress
    dsimp only
    rw [hnext]
    intro s hs
    refine ⟨?_, fun k hb ha => Or.inr ?_⟩
    · unfold Prog.bind
      dsimp only
      split
      · exact trivial
      · exact answers_settleResult data hop _ _
    · obtain ⟨hname, n, hn, prior, row, hanswer, hw, he⟩ := green_overdue data s k hs hb ha
      unfold Prog.bind
      rw [hanswer]
      refine ensures_bind_right _ _ fun _ => ensures_bind_left _ _ ?_
      obtain ⟨repo, m, _, hext⟩ := id hname
      have hne : row.externalId ≠ [] := by
        rw [he, hext, siblingId_append]
        simp
      unfold wakeDependents
      rw [if_pos ⟨hgreen, hne⟩, he, hw]
      exact ensures_unparkDependents k n hname hn
  | _ => exact hother fun _ h => by cases h

end

/-! ## Runs -/

/-- A row that is overdue from its insert on has a scan of one of its blockers still to come. -/
def ScanToCome ⦃β : Type⦄ (others : List (Prog Stmt Unit)) (s : Store) : Stmt β → Prop
  | .insertEntry row _ _ => row.id ∉ s.queue.rows.map QueueEntry.id → Overdue s row →
      ∃ n ∈ row.blockedBy, ∃ p ∈ others,
        Prog.Pending (unparkDependents row.workspaceId (siblingId row.externalId n)) p
  | _ => True

/-- **Dependents are woken.** In every run of enqueues, green results and confirmations in which a
row that is overdue from its insert on still has a scan of one of its blockers to come: when no
operation is in progress, no row that is parked for its dependencies and needs no alignment has all
its blockers green. -/
theorem dependents_woken (host : Host) (s₀ : Store) (c : Config Store Stmt)
    (hname : ∀ r ∈ s₀.queue.rows, r.blockedBy ≠ [] → WellNamed r.externalId)
    (hnone : ∀ r ∈ s₀.queue.rows, ¬ Overdue s₀ r)
    (h : (queueSystem host isWakeOp).Reaches ScanToCome ⟨s₀, []⟩ c) (hquiet : c.pool = []) :
    ∀ r ∈ c.store.queue.rows, ¬ Overdue c.store r := by
  let I := Orderly s₀.workspaces
  let G : ∀ ⦃β : Type⦄, Stmt β → Prop := fun _ q =>
    ∃ op, isWakeOp op ∧ Issued host s₀.requiresAlignment op q
  have hflag : ∀ s, I s → ∀ w, s.requiresAlignment w = s₀.requiresAlignment w := by
    rintro s ⟨hs, _⟩ w
    unfold Store.requiresAlignment
    rw [hs]
  have hcall : ∀ ⦃β : Type⦄ (q : Stmt β) (others : List (Prog Stmt Unit)) s, I s → G q →
      ScanToCome others s q → I (q.exec host s).2 := by
    rintro β q others s ⟨hs, hnames⟩ ⟨op, hop, hq⟩ _
    refine ⟨(exec_workspaces host q s).trans hs, fun r' hr' hblocked => ?_⟩
    rcases exec_row host q s with ⟨image, hrows, himage⟩ | ⟨row, _, _, hrows, _, hins⟩
    · rw [hrows] at hr'
      obtain ⟨r, hr, rfl⟩ := List.mem_map.mp hr'
      have hkey : Key.of (image r) = Key.of r := by
        rcases himage r hr with heq | hw
        · rw [heq]
        · exact hw.key_eq
      simp only [Key.of, Key.mk.injEq] at hkey
      rw [hkey.2.1]
      exact hnames r hr (hkey.2.2 ▸ hblocked)
    · rw [hrows] at hr'
      rcases List.mem_append.mp hr' with hr | hr
      · exact hnames r' hr hblocked
      · rw [List.mem_singleton.mp hr]
        cases hins with
        | insertEntry _ => exact (admission_wellNamed hop hq).1
  have hexcused : ∀ ⦃β : Type⦄ (q : Stmt β) (others : List (Prog Stmt Unit)) s k, I s →
      ScanToCome others s q → InsertsOverdue k s q → OverdueAt k (q.exec host s).2 →
      ∃ p ∈ others, Ensures (Stmt.exec host) I (OverdueAt k) p := by
    intro β q others s k _ hC hins _
    cases q with
    | insertEntry row guardrail approval =>
      obtain ⟨rfl, hfresh, hover, hwell⟩ := hins
      obtain ⟨n, hn, p, hp, hpending⟩ := hC hfresh hover
      exact ⟨p, hp, ensures_of_pending _ p (ensures_unparkDependents _ n hwell hn) hpending⟩
    | _ => exact hins.elim
  intro r hr hover
  refine @System.no_lost_wakeup Store Stmt (queueSystem host isWakeOp) ScanToCome I Key OverdueAt
    InsertsOverdue G ?_ hcall ?_ ?_ ?_ hexcused s₀ c h ⟨rfl, hname⟩ ?_ hquiet (Key.of r)
    ⟨r, hr, rfl, hover⟩
  · rintro p ⟨op, hop, rfl⟩
    exact guarded_mono _ _ _ (fun _ h => h) (fun _ q hq => ⟨op, hop, hq⟩) (fun _ h => h)
      (opProgram_issues host _ hflag op)
  · rintro s s' ⟨hs, hnames⟩ he
    exact ⟨(env_workspaces he).trans hs, fun r hr => hnames r (env_queue he ▸ hr)⟩
  · rintro p ⟨op, hop, rfl⟩
    exact answers_opProgram hflag op hop
  · rintro s s' k he ⟨r, hr, hkey, hover⟩
    have hqueue := env_queue he
    refine ⟨r, hqueue ▸ hr, hkey, hover.transfer (env_workspaces he) fun w e hg => ?_⟩
    rw [isGreen_iff] at hg ⊢
    rwa [hqueue] at hg
  · rintro k ⟨r, hr, _, hover⟩
    exact hnone r hr hover

/-! ## A lost wake-up -/

def intakeHost : Host := { screeningHost with guardrailsV2 := none }

/-- An issue that waits for the running blocker. -/
def waitingIssue : GithubIssue where
  workspaceId := "w".toList
  repoFullName := "o/r".toList
  number := 2
  title := "second".toList
  body := "## Acceptance criteria\n- [ ] a\n\nBlocked by #1".toList

theorem waitingIssue_allowed : isWakeOp (.enqueueGithubIssue waitingIssue) := by
  show '#' ∉ "o/r".toList
  decide

def greenReport : Op := .recordRunnerResult ⟨"b".toList, "w".toList, .green, none, 0, 0⟩

theorem runningBlockerStore_start :
    (∀ r ∈ runningBlockerStore.queue.rows, r.blockedBy ≠ [] → WellNamed r.externalId) ∧
    ∀ r ∈ runningBlockerStore.queue.rows, ¬ Overdue runningBlockerStore r := by
  constructor
  · intro r hr hblocked
    obtain rfl := List.mem_singleton.mp hr
    exact absurd rfl hblocked
  · intro r hr hover
    obtain rfl := List.mem_singleton.mp hr
    exact hover.blocked rfl

/-- The issue is admitted, then its blocker gets green. -/
def admittedBefore : List (System.Choice Store Stmt) :=
  solo intakeHost (.enqueueGithubIssue waitingIssue) 5 ++ solo intakeHost greenReport 9

theorem admittedBefore_valid : ∀ choice ∈ admittedBefore,
    choice.Valid (queueSystem intakeHost isWakeOp) := by
  simp only [admittedBefore, List.mem_append]
  rintro choice (h | h)
  · exact solo_valid _ _ waitingIssue_allowed choice h
  · refine solo_valid _ _ ?_ choice h
    exact rfl

/-- An insert finds a blocker that is not green. -/
def insertsBlocked ⦃β : Type⦄ (_ : List (Prog Stmt Unit)) (s : Store) : Stmt β → Bool
  | .insertEntry row _ _ =>
    row.blockedBy.any fun n => !s.isGreen row.workspaceId (siblingId row.externalId n)
  | _ => true

theorem insertsBlocked_scan ⦃β : Type⦄ (others : List (Prog Stmt Unit)) (s : Store) (q : Stmt β)
    (h : insertsBlocked others s q) : ScanToCome others s q := by
  cases q <;> first | exact trivial | skip
  case insertEntry row guardrail approval =>
    intro _ hover
    obtain ⟨n, hn, hnot⟩ := List.any_eq_true.mp h
    rw [hover.green n hn] at hnot
    cases hnot

theorem admittedBefore_reaches : (queueSystem intakeHost isWakeOp).Reaches ScanToCome
    ⟨runningBlockerStore, []⟩
    ((queueSystem intakeHost isWakeOp).schedule admittedBefore ⟨runningBlockerStore, []⟩) :=
  System.schedule_reaches _ admittedBefore _ admittedBefore_valid
    (System.meets_of_check _ insertsBlocked insertsBlocked_scan _ _ (by decide +kernel))

theorem admittedBefore_quiet :
    ((queueSystem intakeHost isWakeOp).schedule admittedBefore ⟨runningBlockerStore, []⟩).pool =
      [] :=
  List.eq_nil_of_length_eq_zero (by decide +kernel)

theorem dependents_woken_admitted : ∃ c : Config Store Stmt,
    c.store.queue.rows.map QueueEntry.state = [.green, .queued] ∧
    ∀ r ∈ c.store.queue.rows, ¬ Overdue c.store r :=
  ⟨(queueSystem intakeHost isWakeOp).schedule admittedBefore ⟨runningBlockerStore, []⟩,
    by decide +kernel,
    dependents_woken intakeHost runningBlockerStore _ runningBlockerStore_start.1
      runningBlockerStore_start.2 admittedBefore_reaches admittedBefore_quiet⟩

/-- The enqueue reads the blocker, the blocker gets green and scans, the enqueue inserts. -/
def greenMeanwhile : List (System.Choice Store Stmt) :=
  solo intakeHost (.enqueueGithubIssue waitingIssue) 1 ++ solo intakeHost greenReport 5 ++
    List.replicate 4 (.step 0)

theorem greenMeanwhile_valid : ∀ choice ∈ greenMeanwhile,
    choice.Valid (queueSystem intakeHost isWakeOp) := by
  simp only [greenMeanwhile, List.mem_append]
  rintro choice ((h | h) | h)
  · exact solo_valid _ _ waitingIssue_allowed choice h
  · refine solo_valid _ _ ?_ choice h
    exact rfl
  · rw [List.eq_of_mem_replicate h]
    exact trivial

theorem greenMeanwhile_quiet :
    ((queueSystem intakeHost isWakeOp).schedule greenMeanwhile ⟨runningBlockerStore, []⟩).pool =
      [] :=
  List.eq_nil_of_length_eq_zero (by decide +kernel)

theorem greenMeanwhile_overdue :
    let s := ((queueSystem intakeHost isWakeOp).schedule greenMeanwhile
      ⟨runningBlockerStore, []⟩).store
    ∃ r ∈ s.queue.rows, r.state = .parked ∧
      r.parkReason = some (formatWaitingOnReason [1]) ∧ r.blockedBy = [1] ∧
      isAligned r (s.requiresAlignment r.workspaceId) ∧
      s.isGreen r.workspaceId (siblingId r.externalId 1) := by
  decide +kernel

/-- All operations have ended and the dependent stays parked behind a green blocker. -/
theorem enqueue_loses_wake_up : ¬ ∀ (s₀ : Store) (c : Config Store Stmt),
    (∀ r ∈ s₀.queue.rows, r.blockedBy ≠ [] → WellNamed r.externalId) →
    (∀ r ∈ s₀.queue.rows, ¬ Overdue s₀ r) →
    (queueSystem intakeHost isWakeOp).Reaches System.Any ⟨s₀, []⟩ c → c.pool = [] →
    ∀ r ∈ c.store.queue.rows, ¬ Overdue c.store r := by
  intro hclaim
  have hrun := System.schedule_reaches _ greenMeanwhile ⟨runningBlockerStore, []⟩
    greenMeanwhile_valid (System.meets_any _ _ _)
  obtain ⟨r, hr, hparked, hreason, hblocked, haligned, hgreen⟩ := greenMeanwhile_overdue
  refine hclaim runningBlockerStore _ runningBlockerStore_start.1 runningBlockerStore_start.2 hrun
    greenMeanwhile_quiet r hr ⟨hparked, ⟨[1], hreason⟩, ?_, haligned, fun n hn => ?_⟩
  · rw [hblocked]
    exact List.cons_ne_nil 1 []
  · rw [hblocked] at hn
    obtain rfl := List.mem_singleton.mp hn
    exact hgreen

end Agentrail.Queue
