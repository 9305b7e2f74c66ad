import Agentrail.Afk.Journal

/-!
# Replaying the journal (`afk/timeline.py`)

`replay` runs the recorded actions through `reduce` from the recorded starting
state.  It reproduces the states of the live store as long as every action that
was dispatched without being recorded changed nothing (`replay_reproduces`);
`SetBlockedBy` and `RecordCost` are dispatched and never recorded.
-/

namespace Agentrail.Afk

open Py

/-! ## Replay -/

structure Step (τ : Type) where
  seq : Json
  ts : Option τ
  kind : Text
  label : Text
  state : AfkState
  digestOk : Bool

/-- What `replay` raises. -/
inductive ReplayError where
  | noInit
  | unreadable
  | reduce (e : ReduceError)
  deriving DecidableEq, Repr

/-- `not raw`. -/
def isFalsy : Json → Bool
  | .null => true
  | .bool b => !b
  | .int n => n = 0
  | .float literal => (literal.takeWhile fun c => c ≠ 'e' && c ≠ 'E').all fun c =>
      c = '0' || c = '.' || c = '-'
  | .str t => t = []
  | .list xs => xs.isEmpty
  | .dict fields => fields.isEmpty

/-- `_describe`, of an event whose action has been read. -/
def describe (d : Json) : Action → Text
  | .enqueueIssue number title _ _ =>
    "enqueue #".toList ++ intText number ++ " — ".toList ++ title.take 48
  | .claimIssue number slot =>
    "claim #".toList ++ intText number ++ " → slot ".toList ++ intText slot
  | .releaseIssue number => "release #".toList ++ intText number ++ " back to queue".toList
  | .setStatus number _ =>
    "#".toList ++ intText number ++ " → ".toList ++ (field d "status" readText).getD []
  | .setPr number pr =>
    "#".toList ++ intText number ++ " opened PR #".toList ++ intText pr
  | .recordFailure number error =>
    "#".toList ++ intText number ++ " failure recorded".toList ++
      match splitlines (strip (error.getD [])) with
      | [] => []
      | first :: _ => " — ".toList ++ first.take 48
  | .incrementReviewRound number => "#".toList ++ intText number ++ " review round +1".toList
  | .freeSlot slot => "free slot ".toList ++ intText slot
  | .requeueIssue number =>
    "requeue #".toList ++ intText number ++ " for a fresh attempt".toList
  | .setBlockedBy number _ => "SetBlockedBy #".toList ++ intText number
  | .recordCost number _ => "RecordCost #".toList ++ intText number

section
variable {τ : Type} (host : Host) (fromisoformat : Text → Option τ)

/-- `_parse_ts`; the outer `none` is the `TypeError` for what is no text. -/
def parseTs : Option Json → Option (Option τ)
  | none => some none
  | some (.str t) => some (if t = [] then none else fromisoformat t)
  | some raw => if isFalsy raw then some none else none

/-- The loop of `replay`: one step for each event of kind `action`. -/
def replayFrom (state : AfkState) : List Json → Except ReplayError (List (Step τ))
  | [] => .ok []
  | ev :: events =>
    if field ev "kind" readText ≠ some "action".toList then replayFrom state events
    else
      match ev.get "action".toList with
      | none => .error .unreadable
      | some d =>
        match actionFromDict d with
        | none => .error .unreadable
        | some action =>
          match reduce state action with
          | .error e => .error (.reduce e)
          | .ok state =>
            match parseTs fromisoformat (ev.get "ts".toList) with
            | none => .error .unreadable
            | some ts => do
              let steps ← replayFrom state events
              .ok ({ seq := (ev.get "seq".toList).getD (.int (-1))
                     ts := ts
                     kind := "action".toList
                     label := describe d action
                     state := state
                     digestOk := field ev "digest" readText = some (stateDigest host state) }
                :: steps)

def replay : List Json → Except ReplayError (List (Step τ))
  | [] => .ok []
  | init :: events =>
    match init.get "state".toList with
    | none => .error .noInit
    | some d =>
      if field init "kind" readText ≠ some "init".toList then .error .noInit
      else
        match fromDict d, parseTs fromisoformat (init.get "ts".toList) with
        | some state, some ts => do
          let steps ← replayFrom host fromisoformat state events
          .ok ({ seq := (init.get "seq".toList).getD (.int 0)
                 ts := ts
                 kind := "init".toList
                 label := "session start".toList
                 state := state
                 digestOk := field init "digest" readText = some (stateDigest host state) } :: steps)
        | _, _ => .error .unreadable

end

/-! ## Runs -/

section
variable (host : Host) (sid : Text)

def run (store : Recorded) (ds : List (Action × Text)) : Recorded := ds.foldl (dispatch host sid) store

/-- The store before and after each dispatch. -/
def passes (store : Recorded) : List (Action × Text) → List (Recorded × Recorded)
  | [] => []
  | d :: ds => (store, dispatch host sid store d) :: passes (dispatch host sid store d) ds

/-- The states that dispatches which wrote to the journal led to. -/
def recordedStates (ps : List (Recorded × Recorded)) : List AfkState :=
  ps.filterMap fun p => if p.2.file = p.1.file then none else some p.2.state

/-- A dispatch that changed the state and wrote nothing. -/
def Missing (p : Recorded × Recorded) : Prop := p.2.file = p.1.file ∧ p.2.state ≠ p.1.state

end

/-- An action of a type that is not recorded changes nothing. -/
def Quiet (state : AfkState) : Action → Prop
  | .setBlockedBy number blockedBy =>
    ∀ issue, state.issues.get number = some issue → issue.blockedBy = blockedBy
  | .recordCost number costUsd =>
    ∀ issue, state.issues.get number = some issue → issue.costUsd = costUsd
  | _ => True

def after (state : AfkState) (action : Action) : AfkState :=
  match reduce state action with
  | .error _ => state
  | .ok state => state

def QuietRun (state : AfkState) : List Action → Prop
  | [] => True
  | action :: actions => Quiet state action ∧ QuietRun (after state action) actions

/-! ## What a dispatch does -/

theorem after_ok (state s : AfkState) (action : Action) (h : reduce state action = .ok s) :
    after state action = s := by
  unfold after
  rw [h]

theorem line_ne_nil (entry : Json) : line entry ≠ [] := by
  unfold line
  simp

section
variable (host : Host) (sid : Text)

/-- What a dispatch does to the store. -/
theorem dispatch_cases (store : Recorded) (d : Action × Text) :
    (dispatch host sid store d = store ∧ ∃ e, reduce store.state d.1 = .error e) ∨
    (∃ s, reduce store.state d.1 = .ok s ∧ actionToDict d.1 = none ∧
      dispatch host sid store d = { store with state := s }) ∨
    (∃ s j, reduce store.state d.1 = .ok s ∧ actionToDict d.1 = some j ∧
      dispatch host sid store d =
        { state := s
          seq := store.seq + 1
          file := store.file ++ line (actionEvent host sid store.seq d.2 j s) }) := by
  unfold dispatch record
  cases hreduce : reduce store.state d.1 with
  | error e => exact Or.inl ⟨rfl, e, rfl⟩
  | ok s =>
    cases hdict : actionToDict d.1 with
    | none => exact Or.inr (Or.inl ⟨s, rfl, rfl, rfl⟩)
    | some j => exact Or.inr (Or.inr ⟨s, j, rfl, rfl, rfl⟩)

theorem dispatch_state (store : Recorded) (d : Action × Text) :
    (dispatch host sid store d).state = after store.state d.1 := by
  rcases dispatch_cases host sid store d with ⟨hd, e, he⟩ | ⟨s, hs, _, hd⟩ | ⟨s, j, hs, _, hd⟩
  · rw [hd]
    unfold after
    rw [he]
  · rw [hd, after_ok _ _ _ hs]
  · rw [hd, after_ok _ _ _ hs]

end

/-- The actions that are recorded are quiet. -/
theorem quiet_of_recorded (state : AfkState) (action : Action) (h : actionToDict action ≠ none) :
    Quiet state action := by
  cases action with
  | setBlockedBy number blockedBy => exact absurd rfl h
  | recordCost number costUsd => exact absurd rfl h
  | _ => exact trivial

theorem reduce_setBlockedBy (state : AfkState) (number : Int) (blockedBy : List Int) :
    reduce state (.setBlockedBy number blockedBy) = .ok
      (match state.issues.get number with
      | none => state
      | some issue =>
        if issue.blockedBy = blockedBy then state
        else { state with issues := state.issues.set number { issue with blockedBy } }) := by
  simp only [reduce]
  cases state.issues.get number with
  | none => rfl
  | some issue => exact (apply_ite Except.ok _ _ _).symm

theorem reduce_recordCost (state : AfkState) (number : Int) (costUsd : ℚ) (issue : IssueState)
    (h : state.issues.get number = some issue) :
    reduce state (.recordCost number costUsd) =
      .ok { state with issues := state.issues.set number { issue with costUsd } } := by
  simp only [reduce, require]
  rw [h]
  rfl

/-- Setting an issue to what it is not changes the state. -/
theorem set_ne (state : AfkState) (number : Int) (issue issue' : IssueState)
    (h : state.issues.get number = some issue) (hne : issue' ≠ issue) :
    { state with issues := state.issues.set number issue' } ≠ state := by
  intro heq
  have hget := Dict.get_set_self state.issues number issue'
  have hissues : state.issues.set number issue' = state.issues := congrArg AfkState.issues heq
  rw [hissues, h] at hget
  exact hne (Option.some.inj hget).symm

theorem set_eq (state : AfkState) (number : Int) (issue : IssueState)
    (h : state.issues.get number = some issue) :
    { state with issues := state.issues.set number issue } = state := by
  rw [Dict.set_get state.issues number issue h]

/-- An action that is not recorded changes nothing exactly where it is quiet. -/
theorem quiet_iff_unchanged (state s : AfkState) (action : Action) (h : actionToDict action = none)
    (hs : reduce state action = .ok s) : Quiet state action ↔ s = state := by
  cases action with
  | setBlockedBy number blockedBy =>
    rw [reduce_setBlockedBy] at hs
    cases hs
    unfold Quiet
    cases hget : state.issues.get number with
    | none => simp [hget]
    | some issue =>
      by_cases hsame : issue.blockedBy = blockedBy
      · simp [hget, hsame]
      · have hne : { issue with blockedBy := blockedBy } ≠ issue := fun he =>
          hsame (congrArg IssueState.blockedBy he).symm
        simp only [if_neg hsame]
        exact ⟨fun hq => absurd (hq issue hget) hsame,
          fun he => absurd he (set_ne state number issue _ hget hne)⟩
  | recordCost number costUsd =>
    unfold Quiet
    cases hget : state.issues.get number with
    | none =>
      simp only [reduce, require] at hs
      rw [hget] at hs
      cases hs
    | some issue =>
      rw [reduce_recordCost state number costUsd issue hget] at hs
      cases hs
      by_cases hsame : issue.costUsd = costUsd
      · subst hsame
        constructor
        · exact fun _ => set_eq state number issue hget
        · intro _ issue' hissue'
          rw [hget] at hissue'
          rw [Option.some.inj hissue']
      · have hne : { issue with costUsd := costUsd } ≠ issue := fun he =>
          hsame (congrArg IssueState.costUsd he).symm
        exact ⟨fun hq => absurd (hq issue hget) hsame,
          fun he => absurd he (set_ne state number issue _ hget hne)⟩
  | enqueueIssue number title url blockedBy => cases h
  | claimIssue number slot => cases h
  | releaseIssue number => cases h
  | setStatus number status => cases h
  | setPr number pr => cases h
  | recordFailure number error => cases h
  | incrementReviewRound number => cases h
  | freeSlot slot => cases h
  | requeueIssue number => cases h

/-- Where `reduce` raises there is no issue to change. -/
theorem quiet_of_error (state : AfkState) (action : Action) (e : ReduceError)
    (h : reduce state action = .error e) : Quiet state action := by
  cases action with
  | setBlockedBy number blockedBy =>
    rw [reduce_setBlockedBy] at h
    cases h
  | recordCost number costUsd =>
    intro issue hissue
    rw [reduce_recordCost state number costUsd issue hissue] at h
    cases h
  | _ => exact trivial

section
variable (host : Host) (sid : Text)

/-- A dispatch leaves a change out of the journal exactly where its action is not quiet. -/
theorem missing_iff (store : Recorded) (d : Action × Text) :
    Missing (store, dispatch host sid store d) ↔ ¬Quiet store.state d.1 := by
  rcases dispatch_cases host sid store d with ⟨hd, e, he⟩ | ⟨s, hs, hnone, hd⟩ | ⟨s, j, hs, hj, hd⟩
  · rw [hd]
    constructor
    · intro hm
      exact absurd rfl hm.2
    · intro hq
      exact absurd (quiet_of_error _ _ e he) hq
  · rw [hd, quiet_iff_unchanged _ s _ hnone hs]
    exact ⟨fun hm => hm.2, fun hq => ⟨rfl, hq⟩⟩
  · rw [hd]
    constructor
    · intro hm
      exact absurd (List.append_right_eq_self.mp hm.1) (line_ne_nil _)
    · intro hq
      exact absurd (quiet_of_recorded _ _ (by rw [hj]; exact Option.some_ne_none j)) hq

/-- No change is missing exactly in the quiet runs. -/
theorem not_missing_iff (store : Recorded) (ds : List (Action × Text)) :
    (∀ p ∈ passes host sid store ds, ¬Missing p) ↔ QuietRun store.state (ds.map Prod.fst) := by
  induction ds generalizing store with
  | nil => exact ⟨fun _ => trivial, fun _ p hp => by cases hp⟩
  | cons d ds ih =>
    unfold passes
    rw [List.forall_mem_cons, missing_iff, not_not, ih, dispatch_state]
    exact Iff.rfl

end

/-! ## The entries of the journal -/

section
variable (host : Host) (sid : Text)

theorem isRecord_initEvent (ts : Text) (state : AfkState) :
    IsRecord (initEvent host sid ts state) := by
  refine ⟨?_, _, _, rfl⟩
  have hkeys : (["v".toList, "session".toList, "seq".toList, "ts".toList, "kind".toList,
      "state".toList, "digest".toList] : List Text).Nodup := by decide
  exact ⟨hkeys, trivial, trivial, trivial, trivial, trivial, plain_toDict state, trivial, trivial⟩

theorem isRecord_actionEvent (seq : Int) (ts : Text) (j : Json) (state : AfkState)
    (h : Plain j) : IsRecord (actionEvent host sid seq ts j state) := by
  refine ⟨?_, _, _, rfl⟩
  have hkeys : (["v".toList, "session".toList, "seq".toList, "ts".toList, "kind".toList,
      "action".toList, "digest".toList] : List Text).Nodup := by decide
  exact ⟨hkeys, trivial, trivial, trivial, trivial, trivial, h, trivial, trivial⟩

end

theorem forgetCost_forgetCost (state : AfkState) :
    state.forgetCost.forgetCost = state.forgetCost := by
  have hissues : (state.issues.mapValues IssueState.forgetCost).mapValues IssueState.forgetCost =
      state.issues.mapValues IssueState.forgetCost := by
    apply Dict.ext_items
    show List.map _ (List.map _ state.issues.items) = List.map _ state.issues.items
    rw [List.map_map]
    rfl
  unfold AfkState.forgetCost
  rw [hissues]

/-- Without the costs two states have one digest and one JSON. -/
theorem toDict_of_forgetCost (r s : AfkState) (h : r.forgetCost = s.forgetCost) :
    toDict r = toDict s := by
  rw [← toDict_forgetCost r, h, toDict_forgetCost]

theorem stateDigest_of_forgetCost (host : Host) (r s : AfkState)
    (h : r.forgetCost = s.forgetCost) : stateDigest host r = stateDigest host s := by
  unfold stateDigest
  rw [toDict_of_forgetCost r s h]

/-- `reduce` does the same to states that differ in costs only. -/
theorem reduce_of_forgetCost (r state s : AfkState) (action : Action)
    (h : actionToDict action ≠ none) (hr : r.forgetCost = state.forgetCost)
    (hs : reduce state action = .ok s) :
    ∃ r', reduce r action = .ok r' ∧ r'.forgetCost = s.forgetCost := by
  have hcost : ∀ number costUsd, action ≠ .recordCost number costUsd := by
    rintro number costUsd rfl
    exact h rfl
  have hboth := reduce_forgetCost r action hcost
  rw [hr, reduce_forgetCost state action hcost, hs] at hboth
  cases hr' : reduce r action with
  | error e =>
    rw [hr'] at hboth
    cases hboth
  | ok r' =>
    rw [hr'] at hboth
    exact ⟨r', rfl, (Except.ok.inj hboth).symm⟩

section
variable {τ : Type} (host : Host) (fromisoformat : Text → Option τ) (sid : Text)

/-- The replayed steps show the states of the live store. -/
structure Shows (live : List AfkState) (steps : List (Step τ)) : Prop where
  states : steps.map (fun s => toDict s.state) = live.map toDict
  digests : ∀ s ∈ steps, s.digestOk = true

theorem Shows.cons (live : List AfkState) (steps : List (Step τ)) (state : AfkState) (s : Step τ)
    (h : Shows live steps) (hstate : s.state.forgetCost = state.forgetCost)
    (hdigest : s.digestOk = true) : Shows (state :: live) (s :: steps) := by
  constructor
  · rw [List.map_cons, List.map_cons, h.states, toDict_of_forgetCost _ _ hstate]
  · intro s' hs'
    rcases List.mem_cons.mp hs' with rfl | hs'
    · exact hdigest
    · exact h.digests s' hs'

theorem Shows.nil : Shows ([] : List AfkState) ([] : List (Step τ)) := ⟨rfl, fun _ hs => by cases hs⟩

/-- One recorded action is replayed. -/
theorem replayFrom_actionEvent (r r' s : AfkState) (seq : Int) (ts : Text) (action : Action)
    (j : Json) (events : List Json) (steps : List (Step τ)) (hj : actionToDict action = some j)
    (hr : reduce r action = .ok r') (hsame : r'.forgetCost = s.forgetCost)
    (hrest : replayFrom host fromisoformat r' events = .ok steps) :
    ∃ step, replayFrom host fromisoformat r (actionEvent host sid seq ts j s :: events) =
        .ok (step :: steps) ∧ step.state = r' ∧ step.digestOk = true := by
  have hkind : field (actionEvent host sid seq ts j s) "kind" readText =
      some "action".toList := rfl
  have haction : (actionEvent host sid seq ts j s).get "action".toList = some j := rfl
  have hts : (actionEvent host sid seq ts j s).get "ts".toList = some (.str ts) := rfl
  have hdigest : field (actionEvent host sid seq ts j s) "digest" readText =
      some (stateDigest host s) := rfl
  rw [replayFrom, if_neg (not_not.mpr hkind), haction]
  simp only
  rw [actionFromDict_actionToDict action j hj]
  simp only
  rw [hr, hts]
  simp only [parseTs]
  rw [hrest]
  refine ⟨_, rfl, rfl, ?_⟩
  rw [hdigest, stateDigest_of_forgetCost host r' s hsame]
  exact decide_eq_true rfl

/-- A quiet run writes entries that replay to what the store went through. -/
theorem run_replays (store : Recorded) (ds : List (Action × Text)) (r : AfkState)
    (hr : r.forgetCost = store.state.forgetCost)
    (hquiet : QuietRun store.state (ds.map Prod.fst)) :
    ∃ entries steps, (run host sid store ds).file = store.file ++ linesOf entries ∧
      (∀ e ∈ entries, IsRecord e ∧ sessionOf e = some sid) ∧
      replayFrom host fromisoformat r entries = .ok steps ∧
      Shows (recordedStates (passes host sid store ds)) steps := by
  induction ds generalizing store r with
  | nil => exact ⟨[], [], (List.append_nil _).symm, (by simp), rfl, Shows.nil⟩
  | cons d ds ih =>
    obtain ⟨hq, hquiet⟩ := hquiet
    have hnext := dispatch_state host sid store d
    rw [← hnext] at hquiet
    show ∃ entries steps, (run host sid (dispatch host sid store d) ds).file = _ ∧ _ ∧ _ ∧
      Shows (recordedStates ((store, dispatch host sid store d) ::
        passes host sid (dispatch host sid store d) ds)) steps
    unfold recordedStates
    rw [List.filterMap_cons]
    rcases dispatch_cases host sid store d with ⟨hd, e, he⟩ | ⟨s, hs, hnone, hd⟩ |
      ⟨s, j, hs, hj, hd⟩
    · -- raised
      rw [hd] at hquiet ⊢
      rw [if_pos rfl]
      exact ih store r hr hquiet
    · -- not recorded, and so quiet
      have hsame := (quiet_iff_unchanged store.state s d.1 hnone hs).mp hq
      have hstore : dispatch host sid store d = store := by
        rw [hd, hsame]
      rw [hstore] at hquiet ⊢
      rw [if_pos rfl]
      exact ih store r hr hquiet
    · -- recorded
      have hne : actionToDict d.1 ≠ none := by
        rw [hj]
        exact Option.some_ne_none j
      obtain ⟨r', hr', hsame⟩ := reduce_of_forgetCost r store.state s d.1 hne hr hs
      have hstate : (dispatch host sid store d).state = s := by rw [hd]
      have hfile : (dispatch host sid store d).file =
          store.file ++ line (actionEvent host sid store.seq d.2 j s) := by rw [hd]
      obtain ⟨entries, steps, hrun, hentries, hreplay, hshows⟩ :=
        ih (dispatch host sid store d) r' (by rw [hstate]; exact hsame) hquiet
      obtain ⟨step, hstep, hstepState, hdigest⟩ := replayFrom_actionEvent host fromisoformat sid r r'
        s store.seq d.2 d.1 j entries steps hj hr' hsame hreplay
      have hgrown : ¬(dispatch host sid store d).file = store.file := by
        rw [hfile]
        exact fun he => line_ne_nil _ (List.append_right_eq_self.mp he)
      rw [if_neg hgrown]
      refine ⟨actionEvent host sid store.seq d.2 j s :: entries, step :: steps, ?_, ?_, hstep, ?_⟩
      · rw [hrun, hfile, List.append_assoc]
        rfl
      · intro e he
        rcases List.mem_cons.mp he with rfl | he
        · exact ⟨isRecord_actionEvent host sid store.seq d.2 j s (plain_actionToDict d.1 j hj), rfl⟩
        · exact hentries e he
      · apply Shows.cons _ _ _ _ hshows _ hdigest
        rw [hstepState, hstate]
        exact hsame

end

/-! ## The session read back -/

theorem mem_listSessions (events : List Json) (sid : Text) (h : sid ∈ listSessions events) :
    ∃ ev ∈ events, sessionOf ev = some sid := by
  unfold listSessions at h
  induction events using List.reverseRecOn with
  | nil => cases h
  | append_singleton events ev ih =>
    rw [List.foldl_append, List.foldl_cons, List.foldl_nil] at h
    unfold noteSession at h
    have hold : sid ∈ listSessions events → ∃ ev' ∈ events ++ [ev], sessionOf ev' = some sid := by
      intro hm
      obtain ⟨ev', hev', hs⟩ := ih hm
      exact ⟨ev', List.mem_append_left _ hev', hs⟩
    cases hs : sessionOf ev with
    | none =>
      rw [hs] at h
      exact hold h
    | some sid' =>
      rw [hs] at h
      simp only at h
      split at h
      · exact hold h
      · rcases List.mem_append.mp h with h | h
        · exact hold h
        · rw [List.mem_singleton.mp h]
          exact ⟨ev, by simp, hs⟩

/-- Events of a new session come last. -/
theorem listSessions_append (events entries : List Json) (entry : Json) (sid : Text)
    (hsid : sid ≠ []) (hold : ∀ ev ∈ events, sessionOf ev ≠ some sid)
    (hnew : ∀ ev ∈ entry :: entries, sessionOf ev = some sid) :
    listSessions (events ++ entry :: entries) = listSessions events ++ [sid] := by
  have hfresh : sid ∉ listSessions events := by
    intro hm
    obtain ⟨ev, hev, hs⟩ := mem_listSessions events sid hm
    exact hold ev hev hs
  have hstay : ∀ (seen : List Text) (evs : List Json), sid ∈ seen →
      (∀ ev ∈ evs, sessionOf ev = some sid) → evs.foldl noteSession seen = seen := by
    intro seen evs hm hevs
    induction evs with
    | nil => rfl
    | cons ev evs ih =>
      have hnote : noteSession seen ev = seen := by
        unfold noteSession
        rw [hevs ev List.mem_cons_self]
        exact if_pos (by simp [hm])
      rw [List.foldl_cons, hnote]
      exact ih fun ev' hev' => hevs ev' (List.mem_cons_of_mem ev hev')
  have hfirst : noteSession (listSessions events) entry = listSessions events ++ [sid] := by
    unfold noteSession
    rw [hnew entry List.mem_cons_self]
    exact if_neg (by simp [hsid, hfresh])
  show (events ++ entry :: entries).foldl noteSession [] = _
  rw [List.foldl_append, List.foldl_cons]
  show entries.foldl noteSession (noteSession (listSessions events) entry) = _
  rw [hfirst]
  exact hstay _ entries (by simp) fun ev hev => hnew ev (List.mem_cons_of_mem entry hev)

/-- The new session reads back, named or as the latest. -/
theorem sessionEvents_append (events entries : List Json) (entry : Json) (sid : Text)
    (named : Option Text) (hnamed : named = none ∨ named = some sid)
    (hsid : sid ≠ []) (hold : ∀ ev ∈ events, sessionOf ev ≠ some sid)
    (hnew : ∀ ev ∈ entry :: entries, sessionOf ev = some sid) :
    sessionEvents (events ++ entry :: entries) named = entry :: entries := by
  have htarget : sessionOr named sid = sid := by
    rcases hnamed with rfl | rfl
    · rfl
    · exact if_neg hsid
  have holdfilter : events.filter (fun ev => sessionOf ev = some sid) = [] := by
    rw [List.filter_eq_nil_iff]
    intro ev hev
    simpa using hold ev hev
  have hnewfilter : (entry :: entries).filter (fun ev => sessionOf ev = some sid) =
      entry :: entries := by
    rw [List.filter_eq_self]
    intro ev hev
    simpa using hnew ev hev
  unfold sessionEvents
  rw [listSessions_append events entries entry sid hsid hold hnew, List.getLast?_concat]
  simp only
  rw [htarget, List.filter_append, holdfilter, hnewfilter, List.nil_append]

theorem sessionId_ne_nil (host : Host) (session : Option Text) : sessionId host session ≠ [] := by
  show sessionOr session host.newSessionId ≠ []
  cases session with
  | none => exact host.newSessionId_ne_nil
  | some sid =>
    unfold sessionOr
    by_cases hsid : sid = []
    · simp only [if_pos hsid]
      exact host.newSessionId_ne_nil
    · simp only [if_neg hsid]
      exact hsid

/-- The recorded starting state replays. -/
theorem replay_initEvent {τ : Type} (host : Host) (fromisoformat : Text → Option τ)
    (sid ts : Text) (state : AfkState) (events : List Json) (live : List AfkState)
    (steps : List (Step τ))
    (hrest : replayFrom host fromisoformat state.forgetCost events = .ok steps)
    (hshows : Shows live steps) :
    ∃ steps, replay host fromisoformat (initEvent host sid ts state :: events) = .ok steps ∧
      Shows (state :: live) steps := by
  have hkind : field (initEvent host sid ts state) "kind" readText = some "init".toList := rfl
  have hstate : (initEvent host sid ts state).get "state".toList = some (toDict state) := rfl
  have hts : (initEvent host sid ts state).get "ts".toList = some (.str ts) := rfl
  have hdigest : field (initEvent host sid ts state) "digest" readText =
      some (stateDigest host state) := rfl
  have hsame := forgetCost_forgetCost state
  rw [replay, hstate]
  simp only
  rw [if_neg (not_not.mpr hkind), fromDict_toDict, hts]
  simp only [parseTs]
  rw [hrest]
  refine ⟨_, rfl, ?_⟩
  apply Shows.cons _ _ _ _ hshows hsame
  rw [hdigest, stateDigest_of_forgetCost host state.forgetCost state hsame]
  exact decide_eq_true rfl

/-! ## Main theorem -/

section
variable {τ : Type} (host : Host) (fromisoformat : Text → Option τ)

/-- Read back and replayed, the journal of a run that was recorded from `state` on shows the
starting state and the state after each recorded action, and no change is missing. -/
def Reproduced (state : AfkState) (file : Text) (sid ts : Text) (ds : List (Action × Text)) :
    Prop :=
  let store := attachJournal host state file sid ts
  (∀ named, named = none ∨ named = some sid →
    ∃ steps, replay host fromisoformat
        (sessionEvents (readEvents (run host sid store ds).file) named) = .ok steps ∧
      Shows (state :: recordedStates (passes host sid store ds)) steps) ∧
  ∀ p ∈ passes host sid store ds, ¬Missing p

/-- **Replay reproduces the run** exactly where no dispatched `SetBlockedBy` or `RecordCost`
changes anything. -/
theorem replay_reproduces (state : AfkState) (file : Text) (session : Option Text) (ts : Text)
    (ds : List (Action × Text)) (hfile : WholeLines file)
    (hold : ∀ ev ∈ readEvents file, sessionOf ev ≠ some (sessionId host session)) :
    Reproduced host fromisoformat state file (sessionId host session) ts ds ↔
      QuietRun state (ds.map Prod.fst) := by
  generalize hsid : sessionId host session = sid at hold ⊢
  have hmissing := not_missing_iff host sid (attachJournal host state file sid ts) ds
  constructor
  · intro h
    exact hmissing.mp h.2
  · intro hquiet
    refine ⟨?_, hmissing.mpr hquiet⟩
    intro named hnamed
    obtain ⟨entries, steps, hrun, hentries, hreplay, hshows⟩ :=
      run_replays host fromisoformat sid (attachJournal host state file sid ts) ds state.forgetCost
        (forgetCost_forgetCost state) hquiet
    have hlines : (run host sid (attachJournal host state file sid ts) ds).file =
        file ++ linesOf (initEvent host sid ts state :: entries) := by
      rw [hrun]
      show file ++ line _ ++ linesOf entries = _
      rw [List.append_assoc]
      rfl
    have hinit := isRecord_initEvent host sid ts state
    have hrecords : ∀ e ∈ initEvent host sid ts state :: entries, IsRecord e :=
      List.forall_mem_cons.mpr ⟨hinit, fun e he => (hentries e he).1⟩
    have hsessions : ∀ e ∈ initEvent host sid ts state :: entries, sessionOf e = some sid :=
      List.forall_mem_cons.mpr ⟨rfl, fun e he => (hentries e he).2⟩
    have hne : sid ≠ [] := by
      rw [← hsid]
      exact sessionId_ne_nil host session
    rw [hlines, readEvents_append file _ hfile hrecords,
      sessionEvents_append (readEvents file) entries _ sid named hnamed hne hold hsessions]
    exact replay_initEvent host fromisoformat sid ts state entries _ steps hreplay hshows

end

/-- A run over one issue that nothing blocks. -/
def oneIssue : AfkState where
  issues := .ofItems [(1, { number := 1, title := "Add a flag".toList, url := "u/1".toList })]
  slots := .ofItems [(0, none), (1, none)]

theorem replay_reproduces_claim : ¬∃ (host : Host) (fromisoformat : Text → Option Text),
    ¬Reproduced host fromisoformat oneIssue [] (sessionId host (some "night".toList))
      "2026-07-01T00:00:00+00:00".toList
      [(.claimIssue 1 0, "2026-07-01T00:00:01+00:00".toList)] := by
  rintro ⟨host, fromisoformat, h⟩
  refine h ((replay_reproduces host fromisoformat oneIssue [] (some "night".toList) _ _
    (Or.inl rfl) ?_).mpr ⟨trivial, trivial⟩)
  intro ev hev
  cases hev

/-- New blockers are dispatched, change the issue, and are not in the journal. -/
theorem blockers_not_recorded : ¬∃ (host : Host) (fromisoformat : Text → Option Text),
    Reproduced host fromisoformat oneIssue [] "night".toList
      "2026-07-01T00:00:00+00:00".toList
      [(.setBlockedBy 1 [2], "2026-07-01T00:00:01+00:00".toList)] := by
  rintro ⟨host, fromisoformat, h⟩
  have hquiet := (not_missing_iff host _ _ _).mp h.2
  have hsame : ([] : List Int) = [2] :=
    hquiet.1 { number := 1, title := "Add a flag".toList, url := "u/1".toList } rfl
  cases hsame

end Agentrail.Afk
