import Agentrail.Inbox.ChannelInbox

/-!
# The order of turns in a conversation

The claim never takes a message of a conversation that has a turn running, so at
most one message of a conversation is processing.  But it takes the message that
is due first, and a failed message waits for its retry while later ones are due
(`later_message_overtakes`).  `conversation_in_order`: where the queued messages
of each conversation become claimable in the order in which they came, no
message is claimed while an earlier one of its conversation is queued.
-/

namespace Agentrail.Inbox

open Js Interleaving

/-! ## One turn for each conversation -/

def OneTurn (s : Store) : Prop :=
  ∀ r ∈ s.inbox.rows, ∀ r' ∈ s.inbox.rows, r.conversationKey = r'.conversationKey →
    r.state = .processing → r'.state = .processing → r.id = r'.id

/-- A row is processing after a statement only if it was before or if the statement claims it. -/
theorem Writes.processing {β : Type} {q : Stmt β} {s : Store} {r r' : ChannelInboxRow}
    (h : Writes q s r r') (hstate : r'.state = .processing) :
    r.state = .processing ∨ q.claims s = some r := by
  cases h with
  | claimNext hclaim => exact Or.inr hclaim
  | complete => cases hstate
  | @recordFailure _ decision _ _ _ => cases decision <;> cases hstate
  | reclaimStale => cases hstate
  | requeueDead => cases hstate
  | stampWorkspace => exact Or.inl hstate

/-- What is claimed was queued, due, and alone in its conversation. -/
theorem claims_spec {β : Type} (q : Stmt β) (s : Store) (row : ChannelInboxRow)
    (h : q.claims s = some row) : row ∈ s.inbox.rows ∧
      ∀ r ∈ s.inbox.rows, r.conversationKey = row.conversationKey → r.state ≠ .processing := by
  cases q with
  | claimNext limit scan =>
    obtain ⟨hmem, hwhere⟩ := nextClaim_mem s limit scan row h
    refine ⟨hmem, fun r hr hkey hstate => ?_⟩
    unfold Store.claimable at hwhere
    simp only [Bool.and_eq_true, Bool.not_eq_true'] at hwhere
    have hbusy : s.conversationBusy row.conversationKey = true :=
      List.any_eq_true.mpr ⟨r, hr, by simp [hkey, hstate]⟩
    rw [hwhere.1.2] at hbusy
    cases hbusy
  | _ => cases h

theorem oneTurn_exec {β : Type} (q : Stmt β) (s : Store) (h : OneTurn s) :
    OneTurn (q.exec s).2 := by
  intro r' hr' t' ht' hkey hrstate htstate
  rcases exec_row q s with ⟨image, hrows, himage⟩ | ⟨row, hrows, hqueued, _⟩
  · rw [hrows, List.mem_map] at hr' ht'
    obtain ⟨r, hr, rfl⟩ := hr'
    obtain ⟨t, ht, rfl⟩ := ht'
    -- each of the two was processing, or is the one that is claimed
    have hcase : ∀ x ∈ s.inbox.rows, (image x).state = .processing →
        (image x).id = x.id ∧ (image x).conversationKey = x.conversationKey ∧
          (x.state = .processing ∨ q.claims s = some x) := by
      intro x hx hstate
      rcases himage x hx with heq | hw
      · rw [heq] at hstate
        rw [heq]
        exact ⟨rfl, rfl, Or.inl hstate⟩
      · exact ⟨hw.id_eq, hw.conversationKey_eq, hw.processing hstate⟩
    obtain ⟨hrid, hrkey, hrcase⟩ := hcase r hr hrstate
    obtain ⟨htid, htkey, htcase⟩ := hcase t ht htstate
    rw [hrkey, htkey] at hkey
    rw [hrid, htid]
    rcases hrcase with hrold | hrnew
    · rcases htcase with htold | htnew
      · exact h r hr t ht hkey hrold htold
      · exact absurd hrold ((claims_spec q s t htnew).2 r hr hkey)
    · rcases htcase with htold | htnew
      · exact absurd htold ((claims_spec q s r hrnew).2 t ht hkey.symm)
      · rw [Option.some.inj (hrnew.symm.trans htnew)]
  · have hold : ∀ x ∈ (q.exec s).2.inbox.rows, x.state = .processing → x ∈ s.inbox.rows := by
      intro x hx hstate
      rw [hrows, List.mem_append, List.mem_singleton] at hx
      rcases hx with hx | rfl
      · exact hx
      · rw [hqueued] at hstate
        cases hstate
    exact h r' (hold r' hr' hrstate) t' (hold t' ht' htstate) hkey hrstate htstate

theorem oneTurn_reaches {C : ∀ ⦃β : Type⦄, List (Prog Stmt Unit) → Store → Stmt β → Prop}
    {c c' : Config Store Stmt} (h : inboxSystem.Reaches C c c') (hc : OneTurn c.store) :
    OneTurn c'.store := by
  refine inboxSystem.reaches_store (fun β q _ s hs _ => oneTurn_exec q s hs) ?_ h hc
  intro s s' hs he
  unfold OneTurn
  rw [env_inbox he]
  exact hs

/-! ## No message overtakes -/

/-- Of two queued messages of a conversation the earlier one is claimable first. -/
def InTurn ⦃β : Type⦄ (_ : List (Prog Stmt Unit)) (s : Store) : Stmt β → Prop
  | .claimNext limit _ => s.inbox.rows.Pairwise fun earlier later =>
      earlier.conversationKey = later.conversationKey → earlier.state = .queued →
      s.claimable limit later →
        s.claimable limit earlier ∧ earlier.nextAttemptAt < later.nextAttemptAt
  | _ => True

/-- Every claim was made while no earlier message of the conversation was queued. -/
structure OrderKept (s : Store) : Prop where
  claimed : ∀ claim ∈ s.claims, claim.id ∈ s.inbox.rows.map ChannelInboxRow.id
  order : s.inbox.rows.Pairwise fun earlier later =>
    earlier.conversationKey = later.conversationKey →
      ∀ claim ∈ s.claims, claim.id = later.id → earlier.id ∉ claim.queued

theorem mem_queuedIds (s : Store) (r : ChannelInboxRow) (hr : r ∈ s.inbox.rows)
    (h : r.id ∈ s.queuedIds) : r.state = .queued := by
  unfold Store.queuedIds at h
  obtain ⟨x, hx, hid⟩ := List.mem_map.mp h
  obtain ⟨hmem, hstate⟩ := (s.inbox.mem_select _ x).mp hx
  obtain rfl := s.inbox.eq_of_id x r hmem hr hid
  exact of_decide_eq_true hstate

/-- The claim takes no message before an earlier one that is queued. -/
theorem claims_in_turn {β : Type} (q : Stmt β) (s : Store) (others : List (Prog Stmt Unit))
    (hC : InTurn others s q) (row : ChannelInboxRow) (h : q.claims s = some row) :
    s.inbox.rows.Pairwise fun earlier later =>
      earlier.conversationKey = later.conversationKey → row.id = later.id →
        earlier.id ∉ s.queuedIds := by
  cases q with
  | claimNext limit scan =>
    obtain ⟨hmem, hwhere⟩ := nextClaim_mem s limit scan row h
    refine List.Pairwise.imp_of_mem ?_ hC
    intro earlier later hearlier hlater hturn hkey hid hqueued
    obtain rfl := s.inbox.eq_of_id row later hmem hlater hid
    obtain ⟨hclaimable, hlt⟩ := hturn hkey (mem_queuedIds s earlier hearlier hqueued) hwhere
    have hle := Table.firstBy_le _ _ _ row earlier h
      ((s.inbox.mem_select _ earlier).mpr ⟨hearlier, hclaimable⟩)
    omega
  | _ => cases h

/-- A claim rewrites rows and adds none, so the statement that adds a row makes no claim. -/
theorem claims_of_insert {β : Type} (q : Stmt β) (s : Store) (row : ChannelInboxRow)
    (hrows : (q.exec s).2.inbox.rows = s.inbox.rows ++ [row]) : q.claims s = none := by
  cases q with
  | claimNext limit scan =>
    have hlength := congrArg List.length hrows
    have hexec : (Stmt.exec (.claimNext limit scan) s).2.inbox.rows.length =
        s.inbox.rows.length := by
      simp only [Stmt.exec]
      split
      · rfl
      · exact List.length_map _
    rw [hexec, List.length_append] at hlength
    simp at hlength
  | _ => rfl

/-- Rows that stay in their places and keep their ids and conversations keep the order. -/
theorem OrderKept.in_place {s s' : Store} {image : ChannelInboxRow → ChannelInboxRow}
    (h : OrderKept s) (hclaims : s'.claims = s.claims)
    (hrows : s'.inbox.rows = s.inbox.rows.map image)
    (hid : ∀ x ∈ s.inbox.rows, (image x).id = x.id)
    (hkey : ∀ x ∈ s.inbox.rows, (image x).conversationKey = x.conversationKey) :
    OrderKept s' := by
  refine ⟨?_, ?_⟩
  · rw [hclaims, hrows, List.map_map]
    rw [show s.inbox.rows.map (ChannelInboxRow.id ∘ image) = s.inbox.rows.map ChannelInboxRow.id
      from List.map_congr_left hid]
    exact h.claimed
  · rw [hclaims, hrows, List.pairwise_map]
    refine List.Pairwise.imp_of_mem ?_ h.order
    intro earlier later hearlier hlater hold
    rw [hid _ hearlier, hid _ hlater, hkey _ hearlier, hkey _ hlater]
    exact hold

/-- One more claim, of a row no earlier row of whose conversation is queued. -/
theorem OrderKept.claim {s : Store} {row : ChannelInboxRow} (h : OrderKept s)
    (hmem : row ∈ s.inbox.rows)
    (hturn : s.inbox.rows.Pairwise fun earlier later =>
      earlier.conversationKey = later.conversationKey → row.id = later.id →
        earlier.id ∉ s.queuedIds) :
    OrderKept { s with claims := ⟨row.id, s.queuedIds⟩ :: s.claims } := by
  refine ⟨List.forall_mem_cons.mpr ⟨List.mem_map_of_mem hmem, h.claimed⟩, ?_⟩
  refine (h.order.and hturn).imp ?_
  intro earlier later hboth hsame
  exact List.forall_mem_cons.mpr ⟨hboth.2 hsame, hboth.1 hsame⟩

/-- A fresh row comes after every row, and no claim is of it. -/
theorem OrderKept.insert {s s' : Store} {row : ChannelInboxRow} (h : OrderKept s)
    (hclaims : s'.claims = s.claims) (hrows : s'.inbox.rows = s.inbox.rows ++ [row])
    (hfresh : row.id ∉ s.inbox.rows.map ChannelInboxRow.id) : OrderKept s' := by
  refine ⟨?_, ?_⟩
  · rw [hclaims, hrows, List.map_append]
    intro claim hclaim
    exact List.mem_append_left _ (h.claimed claim hclaim)
  · rw [hclaims, hrows, List.pairwise_append]
    refine ⟨h.order, List.pairwise_singleton _ _, ?_⟩
    intro earlier _ later hlater _ claim hclaim hidlater
    rw [List.mem_singleton.mp hlater] at hidlater
    exact absurd (hidlater ▸ h.claimed claim hclaim) hfresh

theorem orderKept_exec {β : Type} (q : Stmt β) (s : Store) (others : List (Prog Stmt Unit))
    (hC : InTurn others s q) (h : OrderKept s) : OrderKept (q.exec s).2 := by
  have hclaims := exec_claims q s
  rcases exec_row q s with ⟨image, hrows, himage⟩ | ⟨row, hrows, _, hfresh⟩
  · have hid : ∀ x ∈ s.inbox.rows, (image x).id = x.id := fun x hx =>
      (himage x hx).elim (fun heq => by rw [heq]) fun hw => hw.id_eq
    have hkey : ∀ x ∈ s.inbox.rows, (image x).conversationKey = x.conversationKey := fun x hx =>
      (himage x hx).elim (fun heq => by rw [heq]) fun hw => hw.conversationKey_eq
    cases hnew : q.claims s with
    | none =>
      rw [hnew] at hclaims
      exact h.in_place hclaims hrows hid hkey
    | some row =>
      rw [hnew] at hclaims
      have hmade := h.claim (claims_spec q s row hnew).1 (claims_in_turn q s others hC row hnew)
      exact hmade.in_place hclaims hrows hid hkey
  · rw [claims_of_insert q s row hrows] at hclaims
    exact h.insert hclaims hrows hfresh

theorem orderKept_reaches {c c' : Config Store Stmt} (h : inboxSystem.Reaches InTurn c c')
    (hc : OrderKept c.store) : OrderKept c'.store := by
  refine inboxSystem.reaches_store (fun β q others s hs hC => orderKept_exec q s others hC hs)
    ?_ h hc
  rintro s s' hs he
  exact ⟨by rw [env_claims he, env_inbox he]; exact hs.claimed,
    by rw [env_claims he, env_inbox he]; exact hs.order⟩

/-! ## Both laws -/

def inboxAt (now : Int) : Store := { inbox := .empty, now := now }

/-- **Conversations in order.** From an empty inbox, in every run at most one message of a
conversation is processing; and in every run in which at each claim the queued messages of each
conversation are claimable in the order they came, no message was ever claimed while an earlier
one of its conversation was queued. -/
theorem conversation_in_order (now : Int) (c : Config Store Stmt) :
    (inboxSystem.Reaches System.Any ⟨inboxAt now, []⟩ c → OneTurn c.store) ∧
      (inboxSystem.Reaches InTurn ⟨inboxAt now, []⟩ c →
        c.store.inbox.rows.Pairwise fun earlier later =>
          earlier.conversationKey = later.conversationKey →
            ∀ claim ∈ c.store.claims, claim.id = later.id → earlier.id ∉ claim.queued) := by
  constructor
  · intro h
    refine oneTurn_reaches h ?_
    intro r hr
    cases hr
  · intro h
    have hempty : OrderKept (inboxAt now) := by
      refine ⟨?_, List.Pairwise.nil⟩
      intro claim hclaim
      cases hclaim
    exact (orderKept_reaches h hempty).order

/-! ## Two messages of a conversation -/

/-- Two messages come in, and the turns of the conversation end one after the other. -/
def twoTurns (first second : TurnOutcome) : List (System.Choice Store Stmt) :=
  solo (.enqueue (message "1") "a".toList) 3 ++ wait 1 :: solo (.enqueue (message "2") "b".toList) 3 ++
    wait 1 :: solo (.dispatchNext (fun _ => 0) first) 4 ++ solo (.dispatchNext (fun _ => 0) second) 4

theorem twoTurns_valid (first second : TurnOutcome) :
    ∀ choice ∈ twoTurns first second, choice.Valid inboxSystem := by
  unfold twoTurns
  simp only [List.mem_append, List.mem_cons]
  rintro choice (((h | rfl | h) | rfl | h) | h)
  · exact solo_valid _ _ choice h
  · exact wait_valid _
  · exact solo_valid _ _ choice h
  · exact wait_valid _
  · exact solo_valid _ _ choice h
  · exact solo_valid _ _ choice h

def afterTwoTurns (first second : TurnOutcome) : Config Store Stmt :=
  inboxSystem.schedule (twoTurns first second) ⟨inboxAt 0, []⟩

/-- A test of `InTurn`. -/
def inTurn ⦃β : Type⦄ (_ : List (Prog Stmt Unit)) (s : Store) : Stmt β → Bool
  | .claimNext limit _ => decide (s.inbox.rows.Pairwise fun earlier later =>
      earlier.conversationKey = later.conversationKey → earlier.state = .queued →
      s.claimable limit later →
        s.claimable limit earlier ∧ earlier.nextAttemptAt < later.nextAttemptAt)
  | _ => true

theorem inTurn_of_test ⦃β : Type⦄ (others : List (Prog Stmt Unit)) (s : Store) (q : Stmt β)
    (h : inTurn others s q) : InTurn others s q := by
  cases q <;> first | exact trivial | skip
  case claimNext limit scan =>
    show List.Pairwise _ _
    exact of_decide_eq_true h

/-- Two completed turns: both messages were claimed, in their order. -/
theorem conversation_in_order_completed :
    (afterTwoTurns .completed .completed).store.claims =
        [⟨"b".toList, ["b".toList]⟩, ⟨"a".toList, ["a".toList, "b".toList]⟩] ∧
      OneTurn (afterTwoTurns .completed .completed).store ∧
      (afterTwoTurns .completed .completed).store.inbox.rows.Pairwise fun earlier later =>
        earlier.conversationKey = later.conversationKey →
          ∀ claim ∈ (afterTwoTurns .completed .completed).store.claims, claim.id = later.id →
            earlier.id ∉ claim.queued := by
  have hany : inboxSystem.Reaches System.Any ⟨inboxAt 0, []⟩ (afterTwoTurns .completed .completed) :=
    inboxSystem.schedule_reaches _ _ (twoTurns_valid _ _) (inboxSystem.meets_any _ _)
  have hturn : inboxSystem.Reaches InTurn ⟨inboxAt 0, []⟩ (afterTwoTurns .completed .completed) :=
    inboxSystem.schedule_reaches _ _ (twoTurns_valid _ _)
      (inboxSystem.meets_of_check inTurn inTurn_of_test _ _ (by decide +kernel))
  exact ⟨by decide +kernel, (conversation_in_order 0 _).1 hany, (conversation_in_order 0 _).2 hturn⟩

/-- While the first message waits for its retry the second one is claimed. -/
theorem later_message_overtakes : ¬ ∀ (now : Int) (c : Config Store Stmt),
    inboxSystem.Reaches System.Any ⟨inboxAt now, []⟩ c →
      c.store.inbox.rows.Pairwise fun earlier later =>
        earlier.conversationKey = later.conversationKey →
          ∀ claim ∈ c.store.claims, claim.id = later.id → earlier.id ∉ claim.queued := by
  intro h
  have horder := h 0 (afterTwoTurns (.failed "timeout".toList) .completed)
    (inboxSystem.schedule_reaches _ _ (twoTurns_valid _ _) (inboxSystem.meets_any _ _))
  exact absurd horder (by decide +kernel)

end Agentrail.Inbox
