import Agentrail.Js.Basic
import Mathlib.Data.List.Nodup

/-!
# Seats (`seats.ts`)

A seat is active until it is released; the two partial unique indexes, one active
seat for each account and subject, are part of the type (`Seats`).  What the table
says of who is seated where is the list `Seats.active`: a claim adds to it what is
not there, a release takes one pair out.

`collapse_conserves`: identities collapsed one after another into a user leave
everyone seated who was, the user in their place, and no account with more seats.
-/

namespace Agentrail.Billing

open Js

/-! ## The table -/

/-- `SeatSubject`: a linked console account or an unlinked platform identity. -/
inductive SeatSubject where
  | user (userId : Text)
  | identity (chatIdentityId : Text)
  deriving DecidableEq, Repr

structure Seat (τ : Type) where
  billingAccountId : Text
  subject : SeatSubject
  claimedVia : Text
  claimedAt : τ
  releasedAt : Option τ
  deriving DecidableEq, Repr

variable {τ : Type}

/-- What `seats_active_user_idx` and `seats_active_identity_idx` are about. -/
def Seat.activeKey (seat : Seat τ) : Option (Text × SeatSubject) :=
  if seat.releasedAt.isNone then some (seat.billingAccountId, seat.subject) else none

structure Seats (τ : Type) where
  rows : List (Seat τ)
  activeUnique : (rows.filterMap Seat.activeKey).Nodup

namespace Seats

/-- Who holds an active seat in which account. -/
def active (seats : Seats τ) : List (Text × SeatSubject) := seats.rows.filterMap Seat.activeKey

def Holds (seats : Seats τ) (account : Text) (subject : SeatSubject) : Prop :=
  (account, subject) ∈ seats.active

instance (seats : Seats τ) (account : Text) (subject : SeatSubject) :
    Decidable (seats.Holds account subject) :=
  inferInstanceAs (Decidable (_ ∈ _))

/-- `countActiveSeats`. -/
def count (seats : Seats τ) (account : Text) : Nat :=
  seats.active.countP fun held => held.1 = account

/-! ## Operations -/

/-- `claimSeat`: `INSERT … ON CONFLICT DO NOTHING`. -/
def claim (now : τ) (account : Text) (subject : SeatSubject) (via : Text) (seats : Seats τ) :
    Seats τ :=
  if h : seats.Holds account subject then seats
  else
    { rows := seats.rows ++ [⟨account, subject, via, now, none⟩]
      activeUnique := by
        rw [List.filterMap_append]
        exact List.nodup_append_comm.mp (List.nodup_cons.mpr ⟨h, seats.activeUnique⟩) }

/-- `SET released_at = now() WHERE billing_account_id = … AND … AND released_at IS NULL`. -/
def Seat.releaseIf (now : τ) (account : Text) (subject : SeatSubject) (seat : Seat τ) : Seat τ :=
  if seat.activeKey = some (account, subject) then { seat with releasedAt := some now } else seat

theorem activeKey_releaseIf (now : τ) (account : Text) (subject : SeatSubject)
    (rows : List (Seat τ)) :
    (rows.map (Seat.releaseIf now account subject)).filterMap Seat.activeKey =
      (rows.filterMap Seat.activeKey).filter fun held => held ≠ (account, subject) := by
  induction rows with
  | nil => rfl
  | cons row rows ih =>
    rw [List.map_cons, List.filterMap_cons, List.filterMap_cons, ih]
    unfold Seat.releaseIf
    by_cases hkey : row.activeKey = some (account, subject)
    · rw [if_pos hkey, hkey]
      show List.filter _ _ = List.filter _ ((account, subject) :: _)
      rw [List.filter_cons_of_neg (by simp)]
    · rw [if_neg hkey]
      cases hrow : row.activeKey with
      | none => rfl
      | some held =>
        have hne : held ≠ (account, subject) := fun heq => hkey (by rw [hrow, heq])
        show held :: _ = List.filter _ (held :: _)
        rw [List.filter_cons_of_pos (by simpa using hne)]

/-- The release of the active seat of a subject in an account, if there is one. -/
def release (now : τ) (account : Text) (subject : SeatSubject) (seats : Seats τ) : Seats τ where
  rows := seats.rows.map (Seat.releaseIf now account subject)
  activeUnique := by
    rw [activeKey_releaseIf]
    exact seats.activeUnique.filter _

/-- The accounts in which the identity holds an active seat. -/
def accountsOf (seats : Seats τ) (chatIdentityId : Text) : List Text :=
  (seats.active.filter fun held => held.2 = .identity chatIdentityId).map Prod.fst

/-- One round of the loop of `collapseIdentitySeatsForUser`. -/
def collapseIn (now : τ) (chatIdentityId userId account : Text) (seats : Seats τ) : Seats τ :=
  (seats.claim now account (.user userId) "console".toList).release now account
    (.identity chatIdentityId)

/-- `collapseIdentitySeatsForUser`, in a transaction that started at `now`. -/
def collapseIdentitySeatsForUser (now : τ) (chatIdentityId userId : Text) (seats : Seats τ) :
    Seats τ :=
  (seats.accountsOf chatIdentityId).foldl
    (fun seats account => seats.collapseIn now chatIdentityId userId account) seats

/-! ## What a claim and a release do -/

theorem active_claim (now : τ) (account : Text) (subject : SeatSubject) (via : Text)
    (seats : Seats τ) : (seats.claim now account subject via).active =
      if seats.Holds account subject then seats.active
      else seats.active ++ [(account, subject)] := by
  unfold claim
  split
  · rfl
  · unfold active
    rw [List.filterMap_append]
    rfl

theorem active_release (now : τ) (account : Text) (subject : SeatSubject) (seats : Seats τ) :
    (seats.release now account subject).active =
      seats.active.filter fun held => held ≠ (account, subject) :=
  activeKey_releaseIf now account subject seats.rows

theorem holds_claim (now : τ) (account : Text) (subject : SeatSubject) (via : Text)
    (seats : Seats τ) (a : Text) (s : SeatSubject) :
    (seats.claim now account subject via).Holds a s ↔
      seats.Holds a s ∨ a = account ∧ s = subject := by
  unfold Holds
  rw [active_claim]
  split
  · next h =>
    refine ⟨.inl, ?_⟩
    rintro (h' | ⟨rfl, rfl⟩)
    · exact h'
    · exact h
  · rw [List.mem_append, List.mem_singleton, Prod.mk.injEq]

theorem holds_release (now : τ) (account : Text) (subject : SeatSubject) (seats : Seats τ)
    (a : Text) (s : SeatSubject) :
    (seats.release now account subject).Holds a s ↔
      seats.Holds a s ∧ ¬(a = account ∧ s = subject) := by
  unfold Holds
  rw [active_release, List.mem_filter, decide_eq_true_iff, ne_eq, Prod.mk.injEq]

theorem count_claim_le (now : τ) (account : Text) (subject : SeatSubject) (via : Text)
    (seats : Seats τ) (a : Text) :
    (seats.claim now account subject via).count a ≤
      seats.count a + if a = account then 1 else 0 := by
  unfold count
  rw [active_claim]
  split
  · exact Nat.le_add_right _ _
  · rw [List.countP_append, List.countP_singleton]
    by_cases ha : a = account
    · rw [if_pos ha, if_pos (by simp [ha])]
    · rw [if_neg ha, if_neg (by simp [Ne.symm ha])]

/-- A release takes one seat out of the account. -/
theorem count_release (now : τ) (account : Text) (subject : SeatSubject) (seats : Seats τ)
    (a : Text) (h : seats.Holds account subject) :
    (seats.release now account subject).count a + (if a = account then 1 else 0) =
      seats.count a := by
  have herase : (seats.active.filter fun held => held ≠ (account, subject)) =
      seats.active.erase (account, subject) := by
    have hnodup : seats.active.Nodup := seats.activeUnique
    rw [hnodup.erase_eq_filter]
    refine List.filter_congr fun held _ => ?_
    simp [bne, beq_eq_decide]
  have hperm := (List.perm_cons_erase h).countP_eq fun held => decide (held.1 = a)
  rw [List.countP_cons] at hperm
  unfold count
  rw [active_release, herase, hperm]
  congr 1
  by_cases ha : a = account
  · rw [if_pos ha, if_pos (by simp [ha])]
  · rw [if_neg ha, if_neg (by simp [Ne.symm ha])]

/-- Rows of other accounts or subjects stay as they are. -/
theorem rows_claim (now : τ) (account : Text) (subject : SeatSubject) (via : Text)
    (seats : Seats τ) (q : Text → SeatSubject → Bool) (hq : q account subject = false) :
    (seats.claim now account subject via).rows.filter
        (fun seat => q seat.billingAccountId seat.subject) =
      seats.rows.filter fun seat => q seat.billingAccountId seat.subject := by
  unfold claim
  split
  · rfl
  · rw [List.filter_append, List.filter_singleton, hq]
    exact List.append_nil _

theorem rows_release (now : τ) (account : Text) (subject : SeatSubject) (seats : Seats τ)
    (q : Text → SeatSubject → Bool) (hq : q account subject = false) :
    (seats.release now account subject).rows.filter
        (fun seat => q seat.billingAccountId seat.subject) =
      seats.rows.filter fun seat => q seat.billingAccountId seat.subject := by
  unfold release
  simp only
  induction seats.rows with
  | nil => rfl
  | cons row rows ih =>
    rw [List.map_cons, List.filter_cons, List.filter_cons, ih]
    unfold Seat.releaseIf
    split
    · next hkey =>
      unfold Seat.activeKey at hkey
      split at hkey
      · obtain ⟨haccount, hsubject⟩ := Prod.mk.inj (Option.some.inj hkey)
        rw [haccount, hsubject, hq]
        rfl
      · cases hkey
    · rfl

/-! ## The collapse -/

theorem mem_accountsOf (seats : Seats τ) (chatIdentityId account : Text) :
    account ∈ seats.accountsOf chatIdentityId ↔ seats.Holds account (.identity chatIdentityId) := by
  unfold accountsOf Holds
  rw [List.mem_map]
  constructor
  · rintro ⟨⟨a, s⟩, hmem, rfl⟩
    obtain ⟨hheld, hs⟩ := List.mem_filter.mp hmem
    obtain rfl := of_decide_eq_true hs
    exact hheld
  · intro h
    exact ⟨_, List.mem_filter.mpr ⟨h, decide_eq_true rfl⟩, rfl⟩

theorem nodup_accountsOf (seats : Seats τ) (chatIdentityId : Text) :
    (seats.accountsOf chatIdentityId).Nodup := by
  refine List.Nodup.map_on ?_ (List.Nodup.filter _ seats.activeUnique)
  rintro ⟨a, s⟩ hs ⟨b, t⟩ ht (rfl : a = b)
  obtain rfl := of_decide_eq_true (List.mem_filter.mp hs).2
  obtain rfl := of_decide_eq_true (List.mem_filter.mp ht).2
  rfl

section
variable (now : τ) (i u : Text)

theorem holds_collapseIn (account : Text) (seats : Seats τ) (a : Text) (s : SeatSubject) :
    (seats.collapseIn now i u account).Holds a s ↔
      (seats.Holds a s ∨ a = account ∧ s = .user u) ∧ ¬(a = account ∧ s = .identity i) := by
  unfold collapseIn
  rw [holds_release, holds_claim]

theorem count_collapseIn_le (account : Text) (seats : Seats τ) (a : Text)
    (h : seats.Holds account (.identity i)) :
    (seats.collapseIn now i u account).count a ≤ seats.count a := by
  have hclaim := count_claim_le now account (.user u) "console".toList seats a
  have hrelease := count_release now account (.identity i)
    (seats.claim now account (.user u) "console".toList) a
    ((holds_claim now account (.user u) _ seats account (.identity i)).mpr (.inl h))
  unfold collapseIn
  omega

/-- What the seats are after the rounds of the loop. -/
structure Collapsed (accounts : List Text) (before after : Seats τ) : Prop where
  holds : ∀ a s, after.Holds a s ↔
    (before.Holds a s ∨ a ∈ accounts ∧ s = .user u) ∧ ¬(a ∈ accounts ∧ s = .identity i)
  count : ∀ a, after.count a ≤ before.count a
  rows : ∀ q : Text → SeatSubject → Bool,
    (∀ a ∈ accounts, q a (.user u) = false ∧ q a (.identity i) = false) →
    after.rows.filter (fun seat => q seat.billingAccountId seat.subject) =
      before.rows.filter fun seat => q seat.billingAccountId seat.subject

theorem collapsed_foldl (accounts : List Text) (hnodup : accounts.Nodup) (seats : Seats τ)
    (h : ∀ a ∈ accounts, seats.Holds a (.identity i)) :
    Collapsed i u accounts seats
      (accounts.foldl (fun seats account => seats.collapseIn now i u account) seats) := by
  induction accounts generalizing seats with
  | nil => exact ⟨fun a s => by simp, fun _ => Nat.le_refl _, fun _ _ => rfl⟩
  | cons account accounts ih =>
    obtain ⟨hnew, hnodup⟩ := List.nodup_cons.mp hnodup
    have hrest := ih hnodup (seats.collapseIn now i u account) (by
      intro a ha
      rw [holds_collapseIn]
      refine ⟨.inl (h a (List.mem_cons_of_mem _ ha)), ?_⟩
      rintro ⟨rfl, -⟩
      exact hnew ha)
    refine ⟨fun a s => ?_, fun a => ?_, fun q hq => ?_⟩
    · rw [List.foldl_cons, hrest.holds, holds_collapseIn, List.mem_cons]
      have hne : SeatSubject.user u ≠ .identity i := fun heq => by cases heq
      by_cases hs : s = .user u
      · subst hs
        simp [hne, or_assoc]
      · simp [hs]
        tauto
    · exact (hrest.count a).trans
        (count_collapseIn_le now i u account seats a (h account List.mem_cons_self))
    · have hhead := hq account List.mem_cons_self
      rw [List.foldl_cons, hrest.rows q fun a ha => hq a (List.mem_cons_of_mem _ ha)]
      unfold collapseIn
      rw [rows_release now account _ _ q hhead.2, rows_claim now account _ _ _ q hhead.1]

theorem collapsed (seats : Seats τ) :
    Collapsed i u (seats.accountsOf i) seats (seats.collapseIdentitySeatsForUser now i u) :=
  collapsed_foldl now i u _ (nodup_accountsOf seats i) seats fun a ha =>
    (mem_accountsOf seats i a).mp ha

/-- Where the identity is seated nowhere there is nothing to collapse. -/
theorem collapse_of_unseated (seats : Seats τ) (h : ∀ a, ¬seats.Holds a (.identity i)) :
    seats.collapseIdentitySeatsForUser now i u = seats := by
  have hnil : seats.accountsOf i = [] := List.eq_nil_iff_forall_not_mem.mpr fun a ha =>
    h a ((mem_accountsOf seats i a).mp ha)
  unfold collapseIdentitySeatsForUser
  rw [hnil]
  rfl

/-- Who is seated after the collapse. -/
theorem holds_collapse (seats : Seats τ) (a : Text) (s : SeatSubject) :
    (seats.collapseIdentitySeatsForUser now i u).Holds a s ↔
      (seats.Holds a s ∨ s = .user u ∧ seats.Holds a (.identity i)) ∧ s ≠ .identity i := by
  rw [(collapsed now i u seats).holds, mem_accountsOf]
  constructor
  · rintro ⟨h | ⟨hi, rfl⟩, hne⟩
    · refine ⟨.inl h, ?_⟩
      rintro rfl
      exact hne ⟨h, rfl⟩
    · exact ⟨.inr ⟨rfl, hi⟩, fun heq => by cases heq⟩
  · rintro ⟨h | ⟨rfl, hi⟩, hne⟩
    · exact ⟨.inl h, fun heq => hne heq.2⟩
    · exact ⟨.inr ⟨hi, rfl⟩, fun heq => hne heq.2⟩

end

/-! ## The identities of a user -/

/-- The collapses of some identities into the user, each in a transaction of its own. -/
def collapseAll (u : Text) (seats : Seats τ) (calls : List (τ × Text)) : Seats τ :=
  calls.foldl (fun seats call => seats.collapseIdentitySeatsForUser call.1 call.2 u) seats

theorem holds_collapseAll (u : Text) (seats : Seats τ) (calls : List (τ × Text)) (a : Text)
    (s : SeatSubject) :
    (collapseAll u seats calls).Holds a s ↔
      (seats.Holds a s ∨ s = .user u ∧ ∃ call ∈ calls, seats.Holds a (.identity call.2)) ∧
        ∀ call ∈ calls, s ≠ .identity call.2 := by
  induction calls generalizing seats with
  | nil => simp [collapseAll]
  | cons call calls ih =>
    have hrest := ih (seats.collapseIdentitySeatsForUser call.1 call.2 u)
    change (collapseAll u (seats.collapseIdentitySeatsForUser call.1 call.2 u) calls).Holds a s ↔ _
    rw [hrest, List.forall_mem_cons, holds_collapse]
    constructor
    · rintro ⟨h | ⟨rfl, call', hmem, h⟩, hne⟩
      · obtain ⟨h | ⟨rfl, h⟩, hfirst⟩ := h
        · exact ⟨.inl h, hfirst, hne⟩
        · exact ⟨.inr ⟨rfl, call, List.mem_cons_self, h⟩, hfirst, hne⟩
      · rw [holds_collapse] at h
        obtain ⟨h | ⟨heq, -⟩, -⟩ := h
        · exact ⟨.inr ⟨rfl, call', List.mem_cons_of_mem _ hmem, h⟩, (fun heq => by cases heq), hne⟩
        · cases heq
    · rintro ⟨h | ⟨rfl, call', hmem, h⟩, hfirst, hne⟩
      · exact ⟨.inl ⟨.inl h, hfirst⟩, hne⟩
      · by_cases hsame : call'.2 = call.2
        · rw [hsame] at h
          exact ⟨.inl ⟨.inr ⟨rfl, h⟩, hfirst⟩, hne⟩
        · rcases List.mem_cons.mp hmem with rfl | hmem
          · exact absurd rfl hsame
          · refine ⟨.inr ⟨rfl, call', hmem, ?_⟩, hne⟩
            rw [holds_collapse]
            exact ⟨.inl h, fun heq => hsame (SeatSubject.identity.inj heq)⟩

theorem count_collapseAll_le (u : Text) (seats : Seats τ) (calls : List (τ × Text)) (a : Text) :
    (collapseAll u seats calls).count a ≤ seats.count a := by
  induction calls generalizing seats with
  | nil => exact Nat.le_refl _
  | cons call calls ih =>
    exact (ih (seats.collapseIdentitySeatsForUser call.1 call.2 u)).trans
      ((collapsed call.1 call.2 u seats).count a)

/-- Rows that no collapse is about stay as they are. -/
theorem rows_collapseAll (u : Text) (seats : Seats τ) (calls : List (τ × Text))
    (q : Text → SeatSubject → Bool)
    (hq : ∀ call ∈ calls, ∀ a, seats.Holds a (.identity call.2) →
      q a (.user u) = false ∧ q a (.identity call.2) = false) :
    (collapseAll u seats calls).rows.filter (fun seat => q seat.billingAccountId seat.subject) =
      seats.rows.filter fun seat => q seat.billingAccountId seat.subject := by
  induction calls generalizing seats with
  | nil => rfl
  | cons call calls ih =>
    have hfirst := (collapsed call.1 call.2 u seats).rows q fun a ha =>
      hq call List.mem_cons_self a ((mem_accountsOf seats call.2 a).mp ha)
    rw [← hfirst]
    refine ih (seats.collapseIdentitySeatsForUser call.1 call.2 u) fun call' hcall a ha => ?_
    rw [holds_collapse] at ha
    obtain ⟨ha | ⟨heq, -⟩, -⟩ := ha
    · exact hq call' (List.mem_cons_of_mem _ hcall) a ha
    · cases heq

/-- **A collapse conserves accounts.** Once identities of a user are collapsed, each account that
seated one of them seats the user, and none of them is seated any more; no account has more active
seats; the seats of all other subjects, and of accounts where none of them was seated, are as
before; and a further collapse changes nothing. -/
theorem collapse_conserves (before : Seats τ) (u : Text) (calls : List (τ × Text)) :
    (∀ a, ∀ call ∈ calls, before.Holds a (.identity call.2) →
      (collapseAll u before calls).Holds a (.user u)) ∧
    (∀ a, ∀ call ∈ calls, ¬(collapseAll u before calls).Holds a (.identity call.2)) ∧
    (∀ a, (collapseAll u before calls).count a ≤ before.count a) ∧
    (∀ s, s ≠ .user u → (∀ call ∈ calls, s ≠ .identity call.2) →
      (collapseAll u before calls).rows.filter (fun seat => seat.subject = s) =
        before.rows.filter fun seat => seat.subject = s) ∧
    (∀ a, (∀ call ∈ calls, ¬before.Holds a (.identity call.2)) →
      (collapseAll u before calls).rows.filter (fun seat => seat.billingAccountId = a) =
        before.rows.filter fun seat => seat.billingAccountId = a) ∧
    ∀ now, ∀ call ∈ calls,
      (collapseAll u before calls).collapseIdentitySeatsForUser now call.2 u =
        collapseAll u before calls := by
  have hgone : ∀ a, ∀ call ∈ calls, ¬(collapseAll u before calls).Holds a (.identity call.2) := by
    intro a call hcall h
    exact ((holds_collapseAll u before calls a _).mp h).2 call hcall rfl
  refine ⟨fun a call hcall h => ?_, hgone, count_collapseAll_le u before calls,
    fun s hu hs => ?_, fun a ha => ?_, fun now call hcall => ?_⟩
  · rw [holds_collapseAll]
    exact ⟨.inr ⟨rfl, call, hcall, h⟩, fun _ _ heq => by cases heq⟩
  · refine rows_collapseAll u before calls (fun _ t => t = s) fun call hcall _ _ => ?_
    exact ⟨decide_eq_false (Ne.symm hu), decide_eq_false (Ne.symm (hs call hcall))⟩
  · refine rows_collapseAll u before calls (fun b _ => b = a) fun call hcall b hb => ?_
    have hne : b ≠ a := by
      rintro rfl
      exact ha call hcall hb
    exact ⟨decide_eq_false hne, decide_eq_false hne⟩
  · exact collapse_of_unseated now call.2 u _ fun a => hgone a call hcall

/-- Two identities seated in one account. -/
def twoIdentities : Seats Nat where
  rows := [⟨['a'], .identity ['i'], "slack".toList, 0, none⟩,
    ⟨['a'], .identity ['j'], "telegram".toList, 0, none⟩]
  activeUnique := by decide

/-- One call is about one identity: another one of the same user keeps its seat. -/
theorem other_identity_stays : ¬ ∀ (seats : Seats Nat) (userOf : Text → Option Text) (now : Nat)
    (i u : Text), userOf i = some u → ∀ j a, userOf j = some u →
      ¬(seats.collapseIdentitySeatsForUser now i u).Holds a (.identity j) := by
  intro hclaim
  exact hclaim twoIdentities (fun _ => some ['u']) 1 ['i'] ['u'] rfl ['j'] ['a'] rfl (by decide)

end Seats

end Agentrail.Billing
