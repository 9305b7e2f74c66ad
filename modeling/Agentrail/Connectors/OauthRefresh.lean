import Agentrail.Js.Bytes
import Agentrail.Lib.Runs

/-!
# Refreshing an OAuth credential (`lib/oauth/core.ts`)

`resolveProviderAuth` reads the stored secret of a workspace and provider, and refreshes it when it
is about to expire; `refreshSingleFlight` lets callers share the refresh that is in flight.  The
state is that of one process, one workspace and one provider: the stored secret, the callers, the
attempts to refresh, the entry of `inFlightRefreshes`, and, for the vendor, the refresh tokens that
a successful refresh has replaced.  An event is what happens between two `await`s, of any caller or
attempt, in any order.

`refresh_once_iff`: in every run in which no refresh times out and no write fails, `refresh` is
never called with a replaced token exactly if each caller that starts a refresh still holds the
stored secret.  It need not: the secret is read before the map is looked at
(`refresh_uses_replaced_token`).
-/

namespace Agentrail.Oauth

open Js

/-! ## The stored secret (`secret-envelope.ts`) -/

structure OauthCredential where
  access : Text
  refresh : Text
  expiresAt : Text
  deriving DecidableEq

/-- A secret as it is stored, before encryption, and what `JSON.parse` makes of it. -/
structure Plaintext where
  text : Text
  json : Option Json

inductive ParsedSecret where
  | token (value : Text)
  | oauth (credential : OauthCredential)
  deriving DecidableEq

def serializeOauthEnvelope (c : OauthCredential) : Plaintext where
  text := object [("oauth".toList, ['1']), ("access".toList, quote c.access),
    ("refresh".toList, quote c.refresh), ("expiresAt".toList, quote c.expiresAt)]
  json := some (.obj [("oauth".toList, .num 1), ("access".toList, .str c.access),
    ("refresh".toList, .str c.refresh), ("expiresAt".toList, .str c.expiresAt)])

def parseSecretEnvelope (p : Plaintext) : ParsedSecret :=
  match p.json with
  | none => .token p.text
  | some parsed =>
    match parsed.get "oauth".toList, parsed.get "access".toList, parsed.get "refresh".toList,
      parsed.get "expiresAt".toList with
    | some (.num n), some (.str access), some (.str refresh), some (.str expiresAt) =>
      if n = 1 then .oauth ⟨access, refresh, expiresAt⟩ else .token p.text
    | _, _, _, _ => .token p.text

@[simp] theorem parse_serialize (c : OauthCredential) :
    parseSecretEnvelope (serializeOauthEnvelope c) = .oauth c := rfl

/-! ## The state of the process -/

inductive ResolveProviderAuthResult where
  | ok (secret : Text)
  | configMissing
  | unauthorized
  deriving DecidableEq

/-- Where a call of `resolveProviderAuth` is. -/
inductive Caller where
  /-- `getConnectorSecret` is on its way -/
  | reading
  /-- it has its answer, or has thrown (`none`), and the caller has not gone on yet -/
  | read (answer : Option (Option Plaintext))
  /-- for the promise of an attempt -/
  | waiting (attempt : Nat)
  | done (result : ResolveProviderAuthResult)

/-- What the vendor made of the call of `adapter.refresh`. -/
inductive Vendor where
  | pending
  | rotated (credential : OauthCredential)
  | rejected

/-- Where an attempt is; its outcome is the new access token, or `none`. -/
inductive Progress where
  | refreshing
  | persisting (rotated : OauthCredential) (written : Bool)
  | settled (outcome : Option Text)

structure Attempt where
  credential : OauthCredential
  vendor : Vendor
  progress : Progress

structure State where
  now : Int
  /-- an adapter is registered for the provider -/
  registered : Bool
  stored : Option Plaintext
  callers : List Caller
  attempts : List Attempt
  /-- the entry of `inFlightRefreshes` -/
  inFlight : Option Nat
  /-- the refresh tokens that were replaced by a successful refresh -/
  replaced : List Text

def State.init (now : Int) (registered : Bool) (stored : Option Plaintext) : State where
  now := now
  registered := registered
  stored := stored
  callers := []
  attempts := []
  inFlight := none
  replaced := []

inductive Event where
  | tick (ms : Nat)
  | register
  /-- a call of `resolveProviderAuth` -/
  | call
  /-- the database reads the secret for a caller -/
  | select (c : Nat)
  | selectFails (c : Nat)
  /-- the caller goes on with what was read -/
  | resume (c : Nat)
  /-- the vendor rotates the token of an attempt -/
  | rotate (i : Nat) (credential : OauthCredential)
  | reject (i : Nat)
  /-- the attempt goes on with the answer of the vendor -/
  | receive (i : Nat)
  | timeout (i : Nat)
  /-- the database stores the rotated secret -/
  | write (i : Nat)
  | writeFails (i : Nat)
  /-- the attempt goes on after the write -/
  | settle (i : Nat)
  /-- `finally` -/
  | cleanup (i : Nat)
  /-- the caller goes on after the attempt -/
  | wake (c : Nat)

/-- `REFRESH_SKEW_MS` -/
def refreshSkewMs : Int := 2 * 60 * 1000

section
-- `new Date(t).getTime()`, if it is a number
variable (dateMs : Text → Option Int)

def needsRefresh (now : Int) (c : OauthCredential) : Bool :=
  match dateMs c.expiresAt with
  | none => true
  | some expiresAtMs => expiresAtMs - now ≤ refreshSkewMs

/-- What a caller does with the secret it read. -/
inductive Decision where
  | answer (result : ResolveProviderAuthResult)
  /-- calls `refreshSingleFlight` -/
  | refresh (credential : OauthCredential)

/-- `resolveProviderAuth` from the answer of `getConnectorSecret` on. -/
def decideAuth (now : Int) (answer : Option (Option Plaintext)) : Decision :=
  match answer with
  | none => .answer .unauthorized
  | some none => .answer .configMissing
  | some (some plaintext) =>
    if plaintext.text = [] then .answer .configMissing
    else
      match parseSecretEnvelope plaintext with
      | .token value => .answer (.ok value)
      | .oauth credential =>
        if needsRefresh dateMs now credential then .refresh credential
        else .answer (.ok credential.access)

def State.setCaller (s : State) (c : Nat) (caller : Caller) : State :=
  { s with callers := s.callers.set c caller }

def State.setAttempt (s : State) (i : Nat) (a : Attempt) : State :=
  { s with attempts := s.attempts.set i a }

/-- `refreshSingleFlight`, called by `c`: without an adapter the attempt is settled at once, else it
has called `adapter.refresh`. -/
def State.refreshSingleFlight (s : State) (c : Nat) (credential : OauthCredential) : State :=
  match s.inFlight with
  | some existing => s.setCaller c (.waiting existing)
  | none =>
    { s.setCaller c (.waiting s.attempts.length) with
      attempts := s.attempts ++ [if s.registered then ⟨credential, .pending, .refreshing⟩
        else ⟨credential, .rejected, .settled none⟩]
      inFlight := some s.attempts.length }

/-- The event happens, if it can. -/
def next (s : State) : Event → Option State
  | .tick ms => some { s with now := s.now + ms }
  | .register => some { s with registered := true }
  | .call => some { s with callers := s.callers ++ [.reading] }
  | .select c =>
    match s.callers[c]? with
    | some .reading => some (s.setCaller c (.read (some s.stored)))
    | _ => none
  | .selectFails c =>
    match s.callers[c]? with
    | some .reading => some (s.setCaller c (.read none))
    | _ => none
  | .resume c =>
    match s.callers[c]? with
    | some (.read answer) =>
      match decideAuth dateMs s.now answer with
      | .answer result => some (s.setCaller c (.done result))
      | .refresh credential => some (s.refreshSingleFlight c credential)
    | _ => none
  | .rotate i rotated =>
    match s.attempts[i]? with
    | some ⟨credential, .pending, progress⟩ =>
      -- the vendor does not issue a token again that it has replaced
      if rotated.refresh = credential.refresh ∨ rotated.refresh ∈ s.replaced then none
      else some { s.setAttempt i ⟨credential, .rotated rotated, progress⟩ with
        replaced := credential.refresh :: s.replaced }
    | _ => none
  | .reject i =>
    match s.attempts[i]? with
    | some ⟨credential, .pending, progress⟩ =>
      some (s.setAttempt i ⟨credential, .rejected, progress⟩)
    | _ => none
  | .receive i =>
    match s.attempts[i]? with
    | some ⟨credential, .rotated rotated, .refreshing⟩ =>
      some (s.setAttempt i ⟨credential, .rotated rotated, .persisting rotated false⟩)
    | some ⟨credential, .rejected, .refreshing⟩ =>
      some (s.setAttempt i ⟨credential, .rejected, .settled none⟩)
    | _ => none
  | .timeout i =>
    match s.attempts[i]? with
    | some ⟨credential, vendor, .refreshing⟩ =>
      some (s.setAttempt i ⟨credential, vendor, .settled none⟩)
    | _ => none
  | .write i =>
    match s.attempts[i]? with
    | some ⟨credential, vendor, .persisting rotated false⟩ =>
      some { s.setAttempt i ⟨credential, vendor, .persisting rotated true⟩ with
        stored := some (serializeOauthEnvelope rotated) }
    | _ => none
  | .writeFails i =>
    match s.attempts[i]? with
    | some ⟨credential, vendor, .persisting _ false⟩ =>
      some (s.setAttempt i ⟨credential, vendor, .settled none⟩)
    | _ => none
  | .settle i =>
    match s.attempts[i]? with
    | some ⟨credential, vendor, .persisting rotated true⟩ =>
      some (s.setAttempt i ⟨credential, vendor, .settled (some rotated.access)⟩)
    | _ => none
  | .cleanup i =>
    match s.attempts[i]? with
    | some ⟨_, _, .settled _⟩ => some (if s.inFlight = some i then { s with inFlight := none } else s)
    | _ => none
  | .wake c =>
    match s.callers[c]? with
    | some (.waiting i) =>
      match s.attempts[i]? with
      | some ⟨_, _, .settled (some access)⟩ => some (s.setCaller c (.done (.ok access)))
      | some ⟨_, _, .settled none⟩ => some (s.setCaller c (.done .unauthorized))
      | _ => none
    | _ => none

/-! ## What the claim is about -/

/-- The secret from which the event calls `adapter.refresh`, and its credential. -/
def refreshCall (s : State) : Event → Option (Plaintext × OauthCredential)
  | .resume c =>
    match s.callers[c]? with
    | some (.read (some (some plaintext))) =>
      match decideAuth dateMs s.now (some (some plaintext)) with
      | .refresh credential =>
        if s.inFlight = none ∧ s.registered then some (plaintext, credential) else none
      | .answer _ => none
    | _ => none
  | _ => none

/-- The call uses no token that was replaced before. -/
def CallsUnreplaced (s : State) (e : Event) : Prop :=
  ∀ call ∈ refreshCall dateMs s e, call.2.refresh ∉ s.replaced

instance (s : State) (e : Event) : Decidable (CallsUnreplaced dateMs s e) :=
  inferInstanceAs (Decidable (∀ call ∈ refreshCall dateMs s e, call.2.refresh ∉ s.replaced))

/-- The caller that calls holds what is stored. -/
def CallsStored (s : State) (e : Event) : Prop :=
  ∀ call ∈ refreshCall dateMs s e, s.stored = some call.1

/-- No refresh times out, every write succeeds. -/
def Event.quiet : Event → Bool
  | .timeout _ => false
  | .writeFails _ => false
  | _ => true

/-! ## The invariant of good runs -/

/-- The stored refresh token is not replaced. -/
def State.Fresh (s : State) : Prop :=
  ∀ p d, s.stored = some p → parseSecretEnvelope p = .oauth d → d.refresh ∉ s.replaced

def State.Holds (s : State) (d : OauthCredential) : Prop :=
  ∃ p, s.stored = some p ∧ parseSecretEnvelope p = .oauth d

def Attempt.Closed (a : Attempt) : Prop :=
  (∃ outcome, a.progress = .settled outcome) ∧ a.vendor ≠ .pending

/-- What holds while the attempt goes on. -/
inductive Active (s : State) : Attempt → Prop
  | pending (d : OauthCredential) (hheld : s.Holds d) (hfresh : s.Fresh) :
    Active s ⟨d, .pending, .refreshing⟩
  | rejected (d : OauthCredential) (hfresh : s.Fresh) : Active s ⟨d, .rejected, .refreshing⟩
  | rotated (d rotated : OauthCredential) (hheld : s.Holds d) (hold : d.refresh ∈ s.replaced)
    (hnew : rotated.refresh ∉ s.replaced) : Active s ⟨d, .rotated rotated, .refreshing⟩
  | unwritten (d v rotated : OauthCredential) (hheld : s.Holds d) (hold : d.refresh ∈ s.replaced)
    (hnew : rotated.refresh ∉ s.replaced) : Active s ⟨d, .rotated v, .persisting rotated false⟩
  | written (d v rotated : OauthCredential) (hfresh : s.Fresh) :
    Active s ⟨d, .rotated v, .persisting rotated true⟩

/-- Nothing goes on, or the attempt in flight and nothing else. -/
def State.Phase (s : State) : Prop :=
  (s.Fresh ∧ ∀ (j : Nat) (b : Attempt), s.attempts[j]? = some b → b.Closed) ∨
  ∃ (i : Nat) (a : Attempt), s.inFlight = some i ∧ s.attempts[i]? = some a ∧ Active s a ∧
    ∀ (j : Nat) (b : Attempt), j ≠ i → s.attempts[j]? = some b → b.Closed

/-- What a caller has read is stored still, or its refresh token is replaced. -/
def State.Snapshots (s : State) : Prop :=
  ∀ (c : Nat) p d, s.callers[c]? = some (.read (some (some p))) →
    parseSecretEnvelope p = .oauth d → d.refresh ∈ s.replaced ∨ s.stored = some p

structure Inv (s : State) : Prop where
  snapshots : s.Snapshots
  phase : s.Phase

theorem Inv.init (now : Int) (registered : Bool) (stored : Option Plaintext) :
    Inv (State.init now registered stored) := by
  refine ⟨fun c p d hc => by simp [State.init] at hc, Or.inl ⟨?_, ?_⟩⟩
  · intro p d _ _ hmem
    cases hmem
  · intro j b hb
    simp [State.init] at hb

/-- An attempt that goes on is the one in flight. -/
theorem Inv.active {s : State} (h : Inv s) {i : Nat} {a : Attempt} (ha : s.attempts[i]? = some a)
    (hopen : ¬ a.Closed) : s.inFlight = some i ∧ Active s a ∧
      ∀ j b, j ≠ i → s.attempts[j]? = some b → b.Closed := by
  rcases h.phase with ⟨-, hall⟩ | ⟨k, b, hflight, hb, hactive, hothers⟩
  · exact absurd (hall i a ha) hopen
  · by_cases hik : i = k
    · subst hik
      obtain rfl : b = a := Option.some.inj (hb.symm.trans ha)
      exact ⟨hflight, hactive, hothers⟩
    · exact absurd (hothers i a hik ha) hopen

/-- The attempt in flight takes a step. -/
theorem phase_step {s t : State} {i : Nat} {a b : Attempt} (ha : s.attempts[i]? = some a)
    (hothers : ∀ j c, j ≠ i → s.attempts[j]? = some c → c.Closed)
    (hattempts : t.attempts = s.attempts.set i b) (hflight : t.inFlight = some i)
    (hb : Active t b ∨ b.Closed ∧ t.Fresh) : t.Phase := by
  have hlt : i < s.attempts.length := (List.getElem?_eq_some_iff.mp ha).1
  have hsame : t.attempts[i]? = some b := by
    rw [hattempts, List.getElem?_set_self hlt]
  have hrest : ∀ j c, j ≠ i → t.attempts[j]? = some c → c.Closed := by
    intro j c hj hc
    rw [hattempts, List.getElem?_set_ne hj.symm] at hc
    exact hothers j c hj hc
  rcases hb with hactive | ⟨hclosed, hfresh⟩
  · exact Or.inr ⟨i, b, hflight, hsame, hactive, hrest⟩
  · refine Or.inl ⟨hfresh, fun j c hc => ?_⟩
    by_cases hj : j = i
    · subst hj
      obtain rfl : b = c := Option.some.inj (hsame.symm.trans hc)
      exact hclosed
    · exact hrest j c hj hc

theorem Active.congr {s t : State} (hstored : t.stored = s.stored)
    (hreplaced : t.replaced = s.replaced) {a : Attempt} (h : Active s a) : Active t a := by
  have hfresh : s.Fresh → t.Fresh := fun hs p d hp => hreplaced ▸ hs p d (hstored ▸ hp)
  have hholds : ∀ d, s.Holds d → t.Holds d := fun d hd => by
    rw [State.Holds, hstored]
    exact hd
  cases h with
  | pending d hheld hf => exact .pending d (hholds d hheld) (hfresh hf)
  | rejected d hf => exact .rejected d (hfresh hf)
  | rotated d r hheld hold hnew =>
    exact .rotated d r (hholds d hheld) (hreplaced ▸ hold) (hreplaced ▸ hnew)
  | unwritten d v r hheld hold hnew =>
    exact .unwritten d v r (hholds d hheld) (hreplaced ▸ hold) (hreplaced ▸ hnew)
  | written d v r hf => exact .written d v r (hfresh hf)

theorem snapshots_setCaller {s : State} (h : s.Snapshots) (c : Nat) (x : Caller)
    (hx : ∀ p d, x = .read (some (some p)) → parseSecretEnvelope p = .oauth d →
      d.refresh ∈ s.replaced ∨ s.stored = some p) : (s.setCaller c x).Snapshots := by
  intro k p d hk hp
  by_cases hkc : c = k
  · subst hkc
    rw [State.setCaller, List.getElem?_set] at hk
    split at hk
    · split at hk
      · exact hx p d (Option.some.inj hk) hp
      · cases hk
    · exact absurd rfl ‹_›
  · rw [State.setCaller, List.getElem?_set_ne hkc] at hk
    exact h k p d hk hp

/-- What concerns only callers. -/
theorem Inv.frame {s t : State} (h : Inv s) (hstored : t.stored = s.stored)
    (hreplaced : t.replaced = s.replaced) (hattempts : t.attempts = s.attempts)
    (hflight : t.inFlight = s.inFlight) (ht : t.Snapshots) : Inv t := by
  refine ⟨ht, ?_⟩
  rcases h.phase with ⟨hfresh, hall⟩ | ⟨i, a, hi, ha, hactive, hothers⟩
  · exact Or.inl ⟨fun p d hp => hreplaced ▸ hfresh p d (hstored ▸ hp), hattempts ▸ hall⟩
  · exact Or.inr ⟨i, a, hflight ▸ hi, hattempts ▸ ha, hactive.congr hstored hreplaced,
      hattempts ▸ hothers⟩

theorem not_closed_refreshing (d : OauthCredential) (v : Vendor) :
    ¬ Attempt.Closed ⟨d, v, .refreshing⟩ := by
  rintro ⟨⟨outcome, h⟩, -⟩
  cases h

theorem not_closed_persisting (d rotated : OauthCredential) (v : Vendor) (written : Bool) :
    ¬ Attempt.Closed ⟨d, v, .persisting rotated written⟩ := by
  rintro ⟨⟨outcome, h⟩, -⟩
  cases h

theorem not_closed_pending (d : OauthCredential) (progress : Progress) :
    ¬ Attempt.Closed ⟨d, .pending, progress⟩ := fun h => h.2 rfl

/-- With nothing in flight what is stored is fresh. -/
theorem Inv.fresh {s : State} (h : Inv s) (hflight : s.inFlight = none) : s.Fresh := by
  rcases h.phase with ⟨hfresh, -⟩ | ⟨i, a, hi, -⟩
  · exact hfresh
  · rw [hflight] at hi
    cases hi

theorem Inv.idle {s : State} (h : Inv s) (hflight : s.inFlight = none) (j : Nat) (b : Attempt)
    (hb : s.attempts[j]? = some b) : b.Closed := by
  rcases h.phase with ⟨-, hall⟩ | ⟨i, a, hi, -⟩
  · exact hall j b hb
  · rw [hflight] at hi
    cases hi

theorem decideAuth_refresh (now : Int) (answer : Option (Option Plaintext)) (d : OauthCredential)
    (h : decideAuth dateMs now answer = .refresh d) :
    ∃ p, answer = some (some p) ∧ parseSecretEnvelope p = .oauth d := by
  unfold decideAuth at h
  split at h
  · cases h
  · cases h
  · next p =>
    split at h
    · cases h
    · split at h
      · cases h
      · next credential hparse =>
        split at h
        · cases h
          exact ⟨p, rfl, hparse⟩
        · cases h

/-- What a caller that calls `adapter.refresh` has read. -/
theorem refreshCall_eq_some (s : State) (e : Event) (p : Plaintext) (d : OauthCredential) :
    refreshCall dateMs s e = some (p, d) ↔ ∃ c, e = .resume c ∧
      s.callers[c]? = some (.read (some (some p))) ∧
      decideAuth dateMs s.now (some (some p)) = .refresh d ∧ s.inFlight = none ∧ s.registered := by
  constructor
  · intro h
    unfold refreshCall at h
    split at h
    · next c =>
      split at h
      · next p' hp' =>
        split at h
        · next d' hd' =>
          split at h
          · next hidle =>
            cases h
            exact ⟨c, rfl, hp', hd', hidle⟩
          · cases h
        · cases h
      · cases h
    · cases h
  · rintro ⟨c, rfl, hc, hd, hidle⟩
    simp only [refreshCall, hc, hd, if_pos hidle]

theorem inv_resume {s t : State} {c : Nat} (ht : next dateMs s (.resume c) = some t) (h : Inv s)
    (hcall : CallsStored dateMs s (.resume c)) : Inv t := by
  simp only [next] at ht
  split at ht
  · next answer hanswer =>
    split at ht
    · next result _ =>
      cases ht
      exact h.frame rfl rfl rfl rfl (snapshots_setCaller h.snapshots c _ (fun p d hx => by cases hx))
    · next d hdecide =>
      cases ht
      unfold State.refreshSingleFlight
      split
      · exact h.frame rfl rfl rfl rfl
          (snapshots_setCaller h.snapshots c _ (fun p d hx => by cases hx))
      · next hflight =>
        have hsnap : (s.setCaller c (.waiting s.attempts.length)).Snapshots :=
          snapshots_setCaller h.snapshots c _ (fun p d hx => by cases hx)
        obtain ⟨p, rfl, hp⟩ := decideAuth_refresh dateMs s.now answer d hdecide
        refine ⟨hsnap, ?_⟩
        have hfresh := h.fresh hflight
        have hlast : (s.attempts ++ [if s.registered then (⟨d, .pending, .refreshing⟩ : Attempt)
            else ⟨d, .rejected, .settled none⟩])[s.attempts.length]? =
            some (if s.registered then ⟨d, .pending, .refreshing⟩
              else ⟨d, .rejected, .settled none⟩) := List.getElem?_concat_length
        have hbefore : ∀ (j : Nat) (b : Attempt), j ≠ s.attempts.length →
            (s.attempts ++ [if s.registered then (⟨d, .pending, .refreshing⟩ : Attempt)
              else ⟨d, .rejected, .settled none⟩])[j]? = some b → b.Closed := by
          intro j b hj hb
          have hlt := (List.getElem?_eq_some_iff.mp hb).1
          rw [List.length_append, List.length_singleton] at hlt
          rw [List.getElem?_append_left (by omega)] at hb
          exact h.idle hflight j b hb
        by_cases hreg : s.registered
        · simp only [hreg, if_true] at hlast hbefore ⊢
          have hstored : s.stored = some p :=
            hcall (p, d) ((refreshCall_eq_some dateMs s _ p d).mpr
              ⟨c, rfl, hanswer, hdecide, hflight, hreg⟩)
          exact Or.inr ⟨s.attempts.length, _, rfl, hlast,
            .pending d ⟨p, hstored, hp⟩ hfresh, hbefore⟩
        · simp only [hreg, Bool.false_eq_true, if_false] at hlast hbefore ⊢
          refine Or.inl ⟨hfresh, fun j b hb => ?_⟩
          by_cases hj : j = s.attempts.length
          · subst hj
            obtain rfl := Option.some.inj (hlast.symm.trans hb)
            exact ⟨⟨none, rfl⟩, fun h => by cases h⟩
          · exact hbefore j b hj hb
  · cases ht

theorem inv_step {s t : State} {e : Event} (ht : next dateMs s e = some t) (h : Inv s)
    (hquiet : e.quiet) (hcall : CallsStored dateMs s e) : Inv t := by
  cases e with
  | tick ms =>
    cases ht
    exact h.frame rfl rfl rfl rfl h.snapshots
  | register =>
    cases ht
    exact h.frame rfl rfl rfl rfl h.snapshots
  | call =>
    cases ht
    refine h.frame rfl rfl rfl rfl fun c p d hc hp => ?_
    rw [List.getElem?_append] at hc
    split at hc
    · exact h.snapshots c p d hc hp
    · rw [List.getElem?_singleton] at hc
      split at hc <;> cases hc
  | select c =>
    simp only [next] at ht
    split at ht
    · cases ht
      refine h.frame rfl rfl rfl rfl (snapshots_setCaller h.snapshots c _ fun p d hx hp => ?_)
      injection hx with hx
      exact Or.inr (Option.some.inj hx)
    · cases ht
  | selectFails c =>
    simp only [next] at ht
    split at ht
    · cases ht
      exact h.frame rfl rfl rfl rfl (snapshots_setCaller h.snapshots c _ fun p d hx => by cases hx)
    · cases ht
  | resume c => exact inv_resume dateMs ht h hcall
  | rotate i r =>
    simp only [next] at ht
    split at ht
    · next d progress ha =>
      obtain ⟨hflight, hactive, hothers⟩ := h.active ha (not_closed_pending d progress)
      split at ht
      · cases ht
      · next hnew =>
        cases ht
        cases hactive with
        | pending _ hheld hfresh =>
          refine ⟨fun c p d' hc hp => ?_, phase_step ha hothers rfl hflight
            (Or.inl (.rotated d r hheld List.mem_cons_self fun hmem => hnew (List.mem_cons.mp hmem)))⟩
          exact (h.snapshots c p d' hc hp).imp (List.mem_cons_of_mem _) id
    · cases ht
  | reject i =>
    simp only [next] at ht
    split at ht
    · next d progress ha =>
      obtain ⟨hflight, hactive, hothers⟩ := h.active ha (not_closed_pending d progress)
      cases ht
      cases hactive with
      | pending _ hheld hfresh =>
        refine ⟨h.snapshots, phase_step ha hothers rfl hflight (Or.inl (.rejected d hfresh))⟩
    · cases ht
  | receive i =>
    simp only [next] at ht
    split at ht
    · next d r ha =>
      obtain ⟨hflight, hactive, hothers⟩ := h.active ha (not_closed_refreshing d _)
      cases ht
      cases hactive with
      | rotated _ _ hheld hold hnew =>
        exact ⟨h.snapshots, phase_step ha hothers rfl hflight
          (Or.inl (.unwritten d r r hheld hold hnew))⟩
    · next d ha =>
      obtain ⟨hflight, hactive, hothers⟩ := h.active ha (not_closed_refreshing d _)
      cases ht
      cases hactive with
      | rejected _ hfresh =>
        refine ⟨h.snapshots, phase_step ha hothers rfl hflight (Or.inr ⟨⟨⟨none, rfl⟩, ?_⟩, hfresh⟩)⟩
        intro hpending
        cases hpending
    · cases ht
  | timeout i => cases hquiet
  | write i =>
    simp only [next] at ht
    split at ht
    · next d v r ha =>
      obtain ⟨hflight, hactive, hothers⟩ := h.active ha (not_closed_persisting d r v false)
      cases ht
      cases hactive with
      | unwritten _ v _ hheld hold hnew =>
        refine ⟨fun c p d' hc hp => Or.inl ?_, phase_step ha hothers rfl hflight
          (Or.inl (.written d v r ?_))⟩
        · -- whoever has read the secret that is overwritten holds the replaced token
          rcases h.snapshots c p d' hc hp with hreplaced | hstored
          · exact hreplaced
          · obtain ⟨p₀, hp₀, hparse₀⟩ := hheld
            obtain rfl : p = p₀ := Option.some.inj (hstored.symm.trans hp₀)
            obtain rfl : d' = d := ParsedSecret.oauth.inj (hp.symm.trans hparse₀)
            exact hold
        · intro p d' hp hparse
          obtain rfl := Option.some.inj hp
          rw [parse_serialize] at hparse
          obtain rfl : r = d' := ParsedSecret.oauth.inj hparse
          exact hnew
    · cases ht
  | writeFails i => cases hquiet
  | settle i =>
    simp only [next] at ht
    split at ht
    · next d v r ha =>
      obtain ⟨hflight, hactive, hothers⟩ := h.active ha (not_closed_persisting d r v true)
      cases ht
      cases hactive with
      | written _ v _ hfresh =>
        refine ⟨h.snapshots, phase_step ha hothers rfl hflight
          (Or.inr ⟨⟨⟨some r.access, rfl⟩, ?_⟩, hfresh⟩)⟩
        intro hpending
        cases hpending
    · cases ht
  | cleanup i =>
    simp only [next] at ht
    split at ht
    · next d v outcome ha =>
      cases ht
      split
      · next hflight =>
        refine ⟨h.snapshots, ?_⟩
        rcases h.phase with hidle | ⟨k, b, hk, hb, hactive, -⟩
        · exact Or.inl hidle
        · obtain rfl : i = k := Option.some.inj (hflight.symm.trans hk)
          obtain rfl := Option.some.inj (ha.symm.trans hb)
          cases hactive
      · exact h
    · cases ht
  | wake c =>
    simp only [next] at ht
    split at ht
    · split at ht
      · cases ht
        exact h.frame rfl rfl rfl rfl
          (snapshots_setCaller h.snapshots c _ fun p d hx => by cases hx)
      · cases ht
        exact h.frame rfl rfl rfl rfl
          (snapshots_setCaller h.snapshots c _ fun p d hx => by cases hx)
      · cases ht
    · cases ht

/-- In a good state a call uses no replaced token exactly if its caller holds what is stored. -/
theorem callsUnreplaced_iff {s : State} (h : Inv s) (e : Event) :
    CallsUnreplaced dateMs s e ↔ CallsStored dateMs s e := by
  constructor
  · rintro hnew ⟨p, d⟩ hcall
    obtain ⟨c, rfl, hc, hdecide, -, -⟩ := (refreshCall_eq_some dateMs s e p d).mp hcall
    obtain ⟨p', hp', hparse⟩ := decideAuth_refresh dateMs s.now _ d hdecide
    obtain rfl : p = p' := by
      injection hp' with hp'
      exact Option.some.inj hp'
    rcases h.snapshots c p d hc hparse with hreplaced | hstored
    · exact absurd hreplaced (hnew _ hcall)
    · exact hstored
  · rintro hstored ⟨p, d⟩ hcall
    obtain ⟨c, rfl, hc, hdecide, hflight, -⟩ := (refreshCall_eq_some dateMs s e p d).mp hcall
    obtain ⟨p', hp', hparse⟩ := decideAuth_refresh dateMs s.now _ d hdecide
    obtain rfl : p = p' := by
      injection hp' with hp'
      exact Option.some.inj hp'
    exact h.fresh hflight p d (hstored _ hcall) hparse

/-- **A rotating refresh token is used once, if what is used is still stored.**  In a run without
timeouts and failed writes no call of `adapter.refresh` has a token that a successful refresh
replaced before, exactly if every caller that finds nothing in flight and calls it holds the secret
that is stored at that moment. -/
theorem refresh_once_iff (now : Int) (registered : Bool) (stored : Option Plaintext)
    (events : List Event) (hquiet : ∀ e ∈ events, e.quiet) :
    Runs.Throughout (next dateMs) (CallsUnreplaced dateMs) (.init now registered stored) events ↔
      Runs.Throughout (next dateMs) (CallsStored dateMs) (.init now registered stored) events := by
  have hiff : ∀ s e, Inv s → e.quiet = true →
      (CallsUnreplaced dateMs s e ↔ CallsStored dateMs s e) :=
    fun _ e h _ => callsUnreplaced_iff dateMs h e
  have hstep : ∀ s e t, next dateMs s e = some t → Inv s → e.quiet = true →
      CallsStored dateMs s e → Inv t :=
    fun _ _ _ ht h hq hcall => inv_step dateMs ht h hq hcall
  exact Runs.throughout_iff hiff hstep hquiet (Inv.init now registered stored)

end

/-! ## Two callers -/

def expired : OauthCredential := ⟨"acc-1".toList, "ref-1".toList, []⟩

def rotated : OauthCredential := ⟨"acc-2".toList, "ref-2".toList, []⟩

/-- Both callers read the secret before one refreshes it; the other goes on while the refresh is in
flight. -/
def sharedRefresh : List Event :=
  [.call, .call, .select 0, .select 1, .resume 0, .resume 1, .rotate 0 rotated, .receive 0,
    .write 0, .settle 0, .cleanup 0, .wake 0, .wake 1]

/-- The other goes on after it. -/
def lateResume : List Event :=
  [.call, .call, .select 0, .select 1, .resume 0, .rotate 0 rotated, .receive 0, .write 0,
    .settle 0, .cleanup 0, .resume 1]

theorem refresh_once_shared :
    Runs.Throughout (next fun _ => none) (CallsStored fun _ => none)
      (.init 0 true (some (serializeOauthEnvelope expired))) sharedRefresh :=
  (refresh_once_iff (fun _ => none) 0 true _ sharedRefresh (by decide)).mp (by decide +kernel)

/-- The second caller calls `adapter.refresh` with the token that the first one's refresh has
replaced. -/
theorem refresh_uses_replaced_token : (∀ e ∈ lateResume, e.quiet) ∧
    ¬ Runs.Throughout (next fun _ => none) (CallsUnreplaced fun _ => none)
      (.init 0 true (some (serializeOauthEnvelope expired))) lateResume :=
  ⟨by decide, by decide +kernel⟩

end Agentrail.Oauth
