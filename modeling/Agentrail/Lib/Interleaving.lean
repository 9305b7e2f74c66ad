import Mathlib.Logic.Relation
import Mathlib.Data.List.Basic

/-!
# Programs of atomic statements over a shared store

A program (`Prog`) is a sequence of statements in which each answer decides how
it goes on.  A system runs any number of programs at once: a step is one
statement of one program, the start or the end of a program, or a move of the
environment (`System.Step`).  Statements are atomic; between two statements of
a program anything may happen.

Three rules for whole runs.  `System.invariant`: an invariant of the store that
every statement keeps which the programs can come to execute (`Guarded`).
`System.reaches_trusts`: the same where a program relies on what it has read
to stay so, along a relation that every step respects (`Relies`).
`System.no_lost_wakeup`: if a program that makes something bad also goes on to
repair it (`Answers`, `Ensures`), nothing is bad once no program is left.
`System.reaches_goal` is the rule for what a run comes to pass.
`System.schedule_reaches` turns a list of choices into a run.
-/

namespace Interleaving

/-! ## Programs -/

inductive Prog (Q : Type → Type) (α : Type) : Type 1 where
  | done (a : α)
  | call {β : Type} (q : Q β) (k : β → Prog Q α)

namespace Prog

variable {Q : Type → Type} {α β γ : Type}

def bind : Prog Q α → (α → Prog Q β) → Prog Q β
  | .done a, f => f a
  | .call q k, f => .call q fun b => (k b).bind f

instance : Monad (Prog Q) where
  pure := .done
  bind := .bind

/-- One statement and its answer. -/
def stmt (q : Q β) : Prog Q β := .call q .done

theorem call_bind (q : Q β) (k : β → Prog Q α) (f : α → Prog Q γ) :
    Prog.call q k >>= f = .call q fun b => k b >>= f := rfl

theorem stmt_bind (q : Q β) (f : β → Prog Q α) : stmt q >>= f = .call q f := rfl

/-- A program run on its own, with no one else between its statements. -/
def alone {σ : Type} (exec : ∀ ⦃β : Type⦄, Q β → σ → β × σ) : Prog Q α → σ → α × σ
  | .done a, s => (a, s)
  | .call q k, s => alone exec (k (exec q s).1) (exec q s).2

theorem alone_bind {σ : Type} (exec : ∀ ⦃β : Type⦄, Q β → σ → β × σ) (p : Prog Q α)
    (f : α → Prog Q γ) (s : σ) :
    (p >>= f).alone exec s = (f (p.alone exec s).1).alone exec (p.alone exec s).2 := by
  induction p generalizing s with
  | done a => rfl
  | call q k ih => exact ih _ _

theorem alone_stmt_bind {σ : Type} (exec : ∀ ⦃β : Type⦄, Q β → σ → β × σ) (q : Q β)
    (f : β → Prog Q α) (s : σ) :
    (stmt q >>= f).alone exec s = (f (exec q s).1).alone exec (exec q s).2 := rfl

/-- A program that has all of `u` still before it, whatever its statements answer. -/
inductive Pending (u : Prog Q α) : Prog Q β → Prop
  | here (f : α → Prog Q β) : Pending u (u >>= f)
  | later {γ : Type} (q : Q γ) (k : γ → Prog Q β) : (∀ c, Pending u (k c)) → Pending u (.call q k)

end Prog

/-! ## What the statements of a program may assume and must do -/

section
variable {σ : Type} {Q : Type → Type} {α β : Type} (exec : ∀ ⦃β : Type⦄, Q β → σ → β × σ)
  (I : σ → Prop)

/-- As long as every statement finds the store in `I`, the statements satisfy `G` and the result
satisfies `post`. -/
def Guarded (G : ∀ ⦃β : Type⦄, Q β → Prop) : Prog Q α → (α → Prop) → Prop
  | .done a, post => post a
  | .call q k, post => G q ∧ ∀ s, I s → Guarded G (k (exec q s).1) post

/-- As long as the store is in `I` and moves only along `R` between the statements, each statement
satisfies `G` in the store in which it is executed, and the result satisfies `post`. -/
def Relies (R : σ → σ → Prop) (G : ∀ ⦃β : Type⦄, σ → Q β → Prop) :
    Prog Q α → σ → (α → σ → Prop) → Prop
  | .done a, s, post => post a s
  | .call q k, s, post => ∀ s', R s s' → I s' →
      G s' q ∧ Relies R G (k (exec q s').1) (exec q s').2 post

/-- However the store changes between its statements, the program puts an end to `bad`. -/
def Ensures (bad : σ → Prop) : Prog Q α → Prop
  | .done _ => False
  | .call q k => ∀ s, I s → bad s → ¬ bad (exec q s).2 ∨ Ensures bad (k (exec q s).1)

/-- What a statement of the program makes bad the rest of it repairs, except where `excused`. -/
def Answers {ι : Type} (bad : ι → σ → Prop) (excused : ∀ ⦃β : Type⦄, ι → σ → Q β → Prop) :
    Prog Q α → Prop
  | .done _ => True
  | .call q k => ∀ s, I s → Answers bad excused (k (exec q s).1) ∧
      ∀ i, ¬ bad i s → bad i (exec q s).2 →
        excused i s q ∨ Ensures exec I (bad i) (k (exec q s).1)

variable {exec I}

section
variable {G : ∀ ⦃β : Type⦄, Q β → Prop}

theorem guarded_bind (p : Prog Q α) (f : α → Prog Q β) (post : β → Prop) :
    Guarded exec I G (p >>= f) post ↔
      Guarded exec I G p fun a => Guarded exec I G (f a) post := by
  induction p with
  | done a => exact Iff.rfl
  | call q k ih =>
    rw [Prog.call_bind]
    unfold Guarded
    exact and_congr_right fun _ => forall_congr' fun s => imp_congr_right fun _ => ih _

theorem guarded_stmt_bind (q : Q β) (f : β → Prog Q α) (post : α → Prop) :
    Guarded exec I G (Prog.stmt q >>= f) post ↔
      G q ∧ ∀ s, I s → Guarded exec I G (f (exec q s).1) post :=
  Iff.rfl

theorem guarded_mono {I' : σ → Prop} {G' : ∀ ⦃β : Type⦄, Q β → Prop} (p : Prog Q α)
    (post post' : α → Prop) (hI : ∀ s, I' s → I s) (hG : ∀ ⦃β : Type⦄ (q : Q β), G q → G' q)
    (hpost : ∀ a, post a → post' a) :
    Guarded exec I G p post → Guarded exec I' G' p post' := by
  induction p with
  | done a => exact hpost a
  | call q k ih =>
    rintro ⟨hq, hk⟩
    exact ⟨hG q hq, fun s hs => ih _ (hk s (hI s hs))⟩

/-- A program that runs on its own keeps what its statements keep. -/
theorem Guarded.alone {p : Prog Q α} {post : α → Prop} (h : Guarded exec I G p post)
    (hcall : ∀ ⦃β : Type⦄ (q : Q β) s, I s → G q → I (exec q s).2) {s : σ} (hs : I s) :
    I (p.alone exec s).2 := by
  induction p generalizing s with
  | done a => exact hs
  | call q k ih => exact ih _ (h.2 s hs) (hcall q s hs h.1)

/-- And ends with the result that it is guarded for. -/
theorem Guarded.alone_result {p : Prog Q α} {post : α → Prop} (h : Guarded exec I G p post)
    (hcall : ∀ ⦃β : Type⦄ (q : Q β) s, I s → G q → I (exec q s).2) {s : σ} (hs : I s) :
    post (p.alone exec s).1 := by
  induction p generalizing s with
  | done a => exact h
  | call q k ih => exact ih _ (h.2 s hs) (hcall q s hs h.1)

end

section
variable {R : σ → σ → Prop} {G : ∀ ⦃β : Type⦄, σ → Q β → Prop}

theorem relies_bind (p : Prog Q α) (f : α → Prog Q β) (s : σ) (post : β → σ → Prop) :
    Relies exec I R G (p >>= f) s post ↔
      Relies exec I R G p s fun a t => Relies exec I R G (f a) t post := by
  induction p generalizing s with
  | done a => exact Iff.rfl
  | call q k ih =>
    rw [Prog.call_bind]
    unfold Relies
    exact forall_congr' fun t => imp_congr_right fun _ => imp_congr_right fun _ =>
      and_congr_right fun _ => ih _ _

theorem relies_stmt_bind (q : Q β) (f : β → Prog Q α) (s : σ) (post : α → σ → Prop) :
    Relies exec I R G (Prog.stmt q >>= f) s post ↔ ∀ s', R s s' → I s' →
      G s' q ∧ Relies exec I R G (f (exec q s').1) (exec q s').2 post :=
  Iff.rfl

theorem Relies.imp {p : Prog Q α} {s : σ} {post post' : α → σ → Prop}
    (h : Relies exec I R G p s post) (hpost : ∀ a t, post a t → post' a t) :
    Relies exec I R G p s post' := by
  induction p generalizing s with
  | done a => exact hpost a s h
  | call q k ih => exact fun t ht hI => ⟨(h t ht hI).1, ih _ (h t ht hI).2⟩

/-- The store may move on before the program does. -/
theorem Relies.mono (htrans : ∀ s t u, R s t → R t u → R s u) {p : Prog Q α} {s t : σ}
    (h : Relies exec I R G p s fun _ _ => True) (hst : R s t) :
    Relies exec I R G p t fun _ _ => True := by
  cases p with
  | done a => exact trivial
  | call q k => exact fun u hu hI => h u (htrans s t u hst hu) hI

end

section
variable {bad : σ → Prop}

theorem ensures_bind_left (p : Prog Q α) (f : α → Prog Q β) :
    Ensures exec I bad p → Ensures exec I bad (p >>= f) := by
  induction p with
  | done a => exact False.elim
  | call q k ih =>
    intro h s hs hbad
    exact (h s hs hbad).imp_right (ih _)

theorem ensures_bind_right (p : Prog Q α) (f : α → Prog Q β)
    (h : ∀ a, Ensures exec I bad (f a)) : Ensures exec I bad (p >>= f) := by
  induction p with
  | done a => exact h a
  | call q k ih =>
    intro s _ _
    exact Or.inr (ih _)

theorem ensures_of_pending (u : Prog Q α) (p : Prog Q β) (hu : Ensures exec I bad u)
    (hp : Prog.Pending u p) : Ensures exec I bad p := by
  induction hp with
  | here f => exact ensures_bind_left u f hu
  | later q k _ ih =>
    intro s _ _
    exact Or.inr (ih _)

end

section
variable {ι : Type} {bad : ι → σ → Prop} {excused : ∀ ⦃β : Type⦄, ι → σ → Q β → Prop}

/-- Where no statement makes anything bad there is nothing to answer for. -/
theorem answers_of_guarded {G : ∀ ⦃β : Type⦄, Q β → Prop} (p : Prog Q α) (post : α → Prop)
    (hG : ∀ ⦃β : Type⦄ (q : Q β), G q → ∀ s i, I s → ¬ bad i s → bad i (exec q s).2 →
      excused i s q)
    (hp : Guarded exec I G p post) : Answers exec I bad excused p := by
  induction p with
  | done a => exact trivial
  | call q k ih =>
    intro s hs
    exact ⟨ih _ (hp.2 s hs), fun i h h' => Or.inl (hG q hp.1 s i hs h h')⟩

theorem answers_bind (p : Prog Q α) (f : α → Prog Q β) (hp : Answers exec I bad excused p)
    (hf : ∀ a, Answers exec I bad excused (f a)) : Answers exec I bad excused (p >>= f) := by
  induction p with
  | done a => exact hf a
  | call q k ih =>
    intro s hs
    obtain ⟨hk, hnew⟩ := hp s hs
    refine ⟨ih _ hk, fun i h h' => ?_⟩
    exact (hnew i h h').imp_right (ensures_bind_left _ f)

end

end

/-! ## Systems and their runs -/

structure System (σ : Type) (Q : Type → Type) where
  exec : ∀ ⦃β : Type⦄, Q β → σ → β × σ
  starts : Prog Q Unit → Prop
  env : σ → σ → Prop

structure Config (σ : Type) (Q : Type → Type) where
  store : σ
  pool : List (Prog Q Unit)

namespace System

variable {σ : Type} {Q : Type → Type} (S : System σ Q)

/-- One step; `C` is a condition on the statements that are executed, with the programs that run
beside and the store before. -/
inductive Step (C : ∀ ⦃β : Type⦄, List (Prog Q Unit) → σ → Q β → Prop) :
    Config σ Q → Config σ Q → Prop
  | start {s pool} (p : Prog Q Unit) : S.starts p → Step C ⟨s, pool⟩ ⟨s, p :: pool⟩
  | call {s β} (l r : List (Prog Q Unit)) (q : Q β) (k : β → Prog Q Unit) : C (l ++ r) s q →
      Step C ⟨s, l ++ .call q k :: r⟩ ⟨(S.exec q s).2, l ++ k (S.exec q s).1 :: r⟩
  | finish {s} (l r : List (Prog Q Unit)) : Step C ⟨s, l ++ .done () :: r⟩ ⟨s, l ++ r⟩
  | env {s s' pool} : S.env s s' → Step C ⟨s, pool⟩ ⟨s', pool⟩

def Reaches (C : ∀ ⦃β : Type⦄, List (Prog Q Unit) → σ → Q β → Prop) :
    Config σ Q → Config σ Q → Prop :=
  Relation.ReflTransGen (S.Step C)

/-- No condition on the statements. -/
def Any ⦃β : Type⦄ (_ : List (Prog Q Unit)) (_ : σ) (_ : Q β) : Prop := True

/-! ## Invariants -/

section
variable {C : ∀ ⦃β : Type⦄, List (Prog Q Unit) → σ → Q β → Prop} {I : σ → Prop}
  {G : ∀ ⦃β : Type⦄, Q β → Prop}

/-- The store is in `I` and so will be every statement of every program that runs. -/
def Keeps (I : σ → Prop) (G : ∀ ⦃β : Type⦄, Q β → Prop) (c : Config σ Q) : Prop :=
  I c.store ∧ ∀ p ∈ c.pool, Guarded S.exec I G p fun _ => True

theorem step_keeps
    (hstart : ∀ p, S.starts p → Guarded S.exec I G p fun _ => True)
    (hcall : ∀ ⦃β : Type⦄ (q : Q β) others s, I s → G q → C others s q → I (S.exec q s).2)
    (henv : ∀ s s', I s → S.env s s' → I s')
    {c c' : Config σ Q} (h : S.Step C c c') (hc : S.Keeps I G c) : S.Keeps I G c' := by
  obtain ⟨hI, hpool⟩ := hc
  cases h with
  | start p hp => exact ⟨hI, List.forall_mem_cons.mpr ⟨hstart p hp, hpool⟩⟩
  | call l r q k hC =>
    rw [List.forall_mem_append, List.forall_mem_cons] at hpool
    obtain ⟨hl, ⟨hq, hk⟩, hr⟩ := hpool
    refine ⟨hcall q _ _ hI hq hC, ?_⟩
    rw [List.forall_mem_append, List.forall_mem_cons]
    exact ⟨hl, hk _ hI, hr⟩
  | finish l r =>
    rw [List.forall_mem_append, List.forall_mem_cons] at hpool
    exact ⟨hI, List.forall_mem_append.mpr ⟨hpool.1, hpool.2.2⟩⟩
  | env he => exact ⟨henv _ _ hI he, hpool⟩

theorem reaches_keeps
    (hstart : ∀ p, S.starts p → Guarded S.exec I G p fun _ => True)
    (hcall : ∀ ⦃β : Type⦄ (q : Q β) others s, I s → G q → C others s q → I (S.exec q s).2)
    (henv : ∀ s s', I s → S.env s s' → I s')
    {c c' : Config σ Q} (h : S.Reaches C c c') (hc : S.Keeps I G c) : S.Keeps I G c' := by
  induction h with
  | refl => exact hc
  | tail _ hstep ih => exact S.step_keeps hstart hcall henv hstep ih

/-- **Invariants.** What every guarded statement and the environment keep holds in every run. -/
theorem invariant
    (hstart : ∀ p, S.starts p → Guarded S.exec I G p fun _ => True)
    (hcall : ∀ ⦃β : Type⦄ (q : Q β) others s, I s → G q → C others s q → I (S.exec q s).2)
    (henv : ∀ s s', I s → S.env s s' → I s')
    {s : σ} {c : Config σ Q} (h : S.Reaches C ⟨s, []⟩ c) (hs : I s) : I c.store :=
  (S.reaches_keeps hstart hcall henv h ⟨hs, by simp⟩).1

/-- What every statement and the environment keep, whatever programs run, holds from any
configuration on. -/
theorem reaches_store
    (hcall : ∀ ⦃β : Type⦄ (q : Q β) others s, I s → C others s q → I (S.exec q s).2)
    (henv : ∀ s s', I s → S.env s s' → I s')
    {c c' : Config σ Q} (h : S.Reaches C c c') (hc : I c.store) : I c'.store := by
  induction h with
  | refl => exact hc
  | tail _ hstep ih =>
    cases hstep with
    | start p hp => exact ih
    | call l r q k hC => exact hcall q _ _ ih hC
    | finish l r => exact ih
    | env he => exact henv _ _ ih he

/-- What every statement and the environment keep until a statement reaches the goal: a run from
there on has passed the goal or still keeps it. -/
theorem reaches_goal {goal : σ → Prop}
    (hcall : ∀ ⦃β : Type⦄ (q : Q β) others s, I s → C others s q →
      goal (S.exec q s).2 ∨ I (S.exec q s).2)
    (henv : ∀ s s', I s → S.env s s' → I s')
    {c c' : Config σ Q} (h : S.Reaches C c c') (hc : I c.store) :
    (∃ c₁, S.Reaches C c c₁ ∧ S.Reaches C c₁ c' ∧ goal c₁.store) ∨ I c'.store := by
  induction h with
  | refl => exact Or.inr hc
  | tail hrun hstep ih =>
    rcases ih with ⟨c₁, hto, hfrom, hgoal⟩ | hI
    · exact Or.inl ⟨c₁, hto, hfrom.tail hstep, hgoal⟩
    · cases hstep with
      | start p hp => exact Or.inr hI
      | call l r q k hC =>
        rcases hcall q _ _ hI hC with hgoal | hI'
        · exact Or.inl ⟨_, hrun.tail (.call l r q k hC), .refl, hgoal⟩
        · exact Or.inr hI'
      | finish l r => exact Or.inr hI
      | env he => exact Or.inr (henv _ _ hI he)

end

/-! ## What programs rely on -/

section
variable {C : ∀ ⦃β : Type⦄, List (Prog Q Unit) → σ → Q β → Prop} {I : σ → Prop}
  {R : σ → σ → Prop} {G : ∀ ⦃β : Type⦄, σ → Q β → Prop}

/-- The store is in `I`, and so will be every statement of every program that runs, from here. -/
def Trusts (I : σ → Prop) (R : σ → σ → Prop) (G : ∀ ⦃β : Type⦄, σ → Q β → Prop)
    (c : Config σ Q) : Prop :=
  I c.store ∧ ∀ p ∈ c.pool, Relies S.exec I R G p c.store fun _ _ => True

theorem step_trusts (hrefl : ∀ s, R s s) (htrans : ∀ s t u, R s t → R t u → R s u)
    (hstart : ∀ p s, S.starts p → Relies S.exec I R G p s fun _ _ => True)
    (hcall : ∀ ⦃β : Type⦄ (q : Q β) others s, I s → G s q → C others s q →
      I (S.exec q s).2 ∧ R s (S.exec q s).2)
    (henv : ∀ s s', I s → S.env s s' → I s' ∧ R s s')
    {c c' : Config σ Q} (h : S.Step C c c') (hc : S.Trusts I R G c) : S.Trusts I R G c' := by
  obtain ⟨hI, hpool⟩ := hc
  cases h with
  | start p hp => exact ⟨hI, List.forall_mem_cons.mpr ⟨hstart p _ hp, hpool⟩⟩
  | @call s _ l r q k hC =>
    rw [List.forall_mem_append, List.forall_mem_cons] at hpool
    obtain ⟨hl, hqk, hr⟩ := hpool
    obtain ⟨hq, hk⟩ := hqk s (hrefl s) hI
    obtain ⟨hI', hR⟩ := hcall q _ _ hI hq hC
    refine ⟨hI', ?_⟩
    rw [List.forall_mem_append, List.forall_mem_cons]
    exact ⟨fun p hp => (hl p hp).mono htrans hR, hk, fun p hp => (hr p hp).mono htrans hR⟩
  | finish l r =>
    rw [List.forall_mem_append, List.forall_mem_cons] at hpool
    exact ⟨hI, List.forall_mem_append.mpr ⟨hpool.1, hpool.2.2⟩⟩
  | env he =>
    obtain ⟨hI', hR⟩ := henv _ _ hI he
    exact ⟨hI', fun p hp => (hpool p hp).mono htrans hR⟩

/-- **Rely and guarantee.** If every program guarantees `G` of its statements as long as the store
stays in `I` and moves along `R`, and statements in `G` keep `I` and move along `R`, then `I` holds
in every run. -/
theorem reaches_trusts (hrefl : ∀ s, R s s) (htrans : ∀ s t u, R s t → R t u → R s u)
    (hstart : ∀ p s, S.starts p → Relies S.exec I R G p s fun _ _ => True)
    (hcall : ∀ ⦃β : Type⦄ (q : Q β) others s, I s → G s q → C others s q →
      I (S.exec q s).2 ∧ R s (S.exec q s).2)
    (henv : ∀ s s', I s → S.env s s' → I s' ∧ R s s')
    {c c' : Config σ Q} (h : S.Reaches C c c') (hc : S.Trusts I R G c) : S.Trusts I R G c' := by
  induction h with
  | refl => exact hc
  | tail _ hstep ih => exact S.step_trusts hrefl htrans hstart hcall henv hstep ih

end

/-! ## Wake-ups -/

section
variable {C : ∀ ⦃β : Type⦄, List (Prog Q Unit) → σ → Q β → Prop} {I : σ → Prop} {ι : Type}
  {bad : ι → σ → Prop} {excused : ∀ ⦃β : Type⦄, ι → σ → Q β → Prop}

/-- What is bad has a program that puts an end to it, and every program answers for what it
makes bad. -/
def Attended (I : σ → Prop) (bad : ι → σ → Prop)
    (excused : ∀ ⦃β : Type⦄, ι → σ → Q β → Prop) (c : Config σ Q) : Prop :=
  (∀ p ∈ c.pool, Answers S.exec I bad excused p) ∧
    ∀ i, bad i c.store → ∃ p ∈ c.pool, Ensures S.exec I (bad i) p

theorem step_attended
    (hstart : ∀ p, S.starts p → Answers S.exec I bad excused p)
    (henv : ∀ s s' i, S.env s s' → bad i s' → bad i s)
    (hexcused : ∀ ⦃β : Type⦄ (q : Q β) others s i, I s → C others s q → excused i s q →
      bad i (S.exec q s).2 → ∃ p ∈ others, Ensures S.exec I (bad i) p)
    {c c' : Config σ Q} (h : S.Step C c c') (hI : I c.store)
    (hc : S.Attended I bad excused c) : S.Attended I bad excused c' := by
  obtain ⟨hanswers, hbad⟩ := hc
  cases h with
  | start p hp =>
    refine ⟨List.forall_mem_cons.mpr ⟨hstart p hp, hanswers⟩, fun i hi => ?_⟩
    obtain ⟨p', hp', he⟩ := hbad i hi
    exact ⟨p', List.mem_cons_of_mem _ hp', he⟩
  | @call s _ l r q k hC =>
    rw [List.forall_mem_append, List.forall_mem_cons] at hanswers
    obtain ⟨hl, hp, hr⟩ := hanswers
    obtain ⟨hk, hnew⟩ := hp _ hI
    refine ⟨?_, fun i hi => ?_⟩
    · show ∀ p ∈ l ++ k (S.exec q s).1 :: r, _
      rw [List.forall_mem_append, List.forall_mem_cons]
      exact ⟨hl, hk, hr⟩
    · -- a program that runs beside is still there
      have hothers : ∀ p ∈ l ++ r, p ∈ l ++ k (S.exec q s).1 :: r := by
        intro p hp
        rcases List.mem_append.mp hp with h | h
        · exact List.mem_append_left _ h
        · exact List.mem_append_right _ (List.mem_cons_of_mem _ h)
      have hself : k (S.exec q s).1 ∈ l ++ k (S.exec q s).1 :: r :=
        List.mem_append_right _ List.mem_cons_self
      by_cases hold : bad i s
      · obtain ⟨p, hp, he⟩ := hbad i hold
        rcases List.mem_append.mp hp with h | h
        · exact ⟨p, hothers p (List.mem_append_left _ h), he⟩
        · rcases List.mem_cons.mp h with rfl | h
          · exact ⟨_, hself, (he _ hI hold).resolve_left (not_not_intro hi)⟩
          · exact ⟨p, hothers p (List.mem_append_right _ h), he⟩
      · rcases hnew i hold hi with hex | he
        · obtain ⟨p, hp, he⟩ := hexcused q _ _ i hI hC hex hi
          exact ⟨p, hothers p hp, he⟩
        · exact ⟨_, hself, he⟩
  | finish l r =>
    rw [List.forall_mem_append, List.forall_mem_cons] at hanswers
    refine ⟨List.forall_mem_append.mpr ⟨hanswers.1, hanswers.2.2⟩, fun i hi => ?_⟩
    obtain ⟨p, hp, he⟩ := hbad i hi
    rcases List.mem_append.mp hp with h | h
    · exact ⟨p, List.mem_append_left _ h, he⟩
    · rcases List.mem_cons.mp h with rfl | h
      · exact he.elim
      · exact ⟨p, List.mem_append_right _ h, he⟩
  | env he =>
    exact ⟨hanswers, fun i hi => hbad i (henv _ _ i he hi)⟩

/-- **No lost wake-up.** If every program repairs what it makes bad, and where it is excused a
program that runs beside does, nothing is bad when no program is left. -/
theorem no_lost_wakeup {G : ∀ ⦃β : Type⦄, Q β → Prop}
    (hguarded : ∀ p, S.starts p → Guarded S.exec I G p fun _ => True)
    (hcall : ∀ ⦃β : Type⦄ (q : Q β) others s, I s → G q → C others s q → I (S.exec q s).2)
    (hkeep : ∀ s s', I s → S.env s s' → I s')
    (hstart : ∀ p, S.starts p → Answers S.exec I bad excused p)
    (henv : ∀ s s' i, S.env s s' → bad i s' → bad i s)
    (hexcused : ∀ ⦃β : Type⦄ (q : Q β) others s i, I s → C others s q → excused i s q →
      bad i (S.exec q s).2 → ∃ p ∈ others, Ensures S.exec I (bad i) p)
    {s : σ} {c : Config σ Q} (h : S.Reaches C ⟨s, []⟩ c) (hs : I s) (hnone : ∀ i, ¬ bad i s)
    (hquiet : c.pool = []) (i : ι) : ¬ bad i c.store := by
  have hattended : S.Attended I bad excused c := by
    clear hquiet
    induction h with
    | refl => exact ⟨by simp, fun i hi => (hnone i hi).elim⟩
    | tail hrun hstep ih =>
      have hI := S.invariant hguarded hcall hkeep hrun hs
      exact S.step_attended hstart henv hexcused hstep hI ih
  intro hi
  obtain ⟨p, hp, _⟩ := hattended.2 i hi
  rw [hquiet] at hp
  cases hp

end

/-! ## Runs from a list of choices -/

/-- What happens next: a program starts, the program at a place of the pool makes a step, or the
environment moves. -/
inductive Choice (σ : Type) (Q : Type → Type) where
  | start (p : Prog Q Unit)
  | step (i : Nat)
  | env (f : σ → σ)

def Choice.Valid : Choice σ Q → Prop
  | .start p => S.starts p
  | .step _ => True
  | .env f => ∀ s, S.env s (f s)

def advance (c : Config σ Q) : Choice σ Q → Config σ Q
  | .start p => ⟨c.store, p :: c.pool⟩
  | .env f => ⟨f c.store, c.pool⟩
  | .step i =>
    match c.pool[i]? with
    | none => c
    | some (.done _) => ⟨c.store, c.pool.take i ++ c.pool.drop (i + 1)⟩
    | some (.call q k) =>
      ⟨(S.exec q c.store).2, c.pool.take i ++ k (S.exec q c.store).1 :: c.pool.drop (i + 1)⟩

def schedule (choices : List (Choice σ Q)) (c : Config σ Q) : Config σ Q :=
  choices.foldl S.advance c

theorem split_at {α : Type*} (l : List α) (i : Nat) (a : α) (h : l[i]? = some a) :
    l = l.take i ++ a :: l.drop (i + 1) := by
  obtain ⟨hi, rfl⟩ := List.getElem?_eq_some_iff.mp h
  rw [List.getElem_cons_drop, List.take_append_drop]

/-- The condition on the statement that a choice executes. -/
def Choice.Meets (C : ∀ ⦃β : Type⦄, List (Prog Q Unit) → σ → Q β → Prop) (c : Config σ Q) :
    Choice σ Q → Prop
  | .step i =>
    match c.pool[i]? with
    | some (.call q _) => C (c.pool.take i ++ c.pool.drop (i + 1)) c.store q
    | _ => True
  | _ => True

def Meets (C : ∀ ⦃β : Type⦄, List (Prog Q Unit) → σ → Q β → Prop) :
    List (Choice σ Q) → Config σ Q → Prop
  | [], _ => True
  | choice :: choices, c => choice.Meets C c ∧ Meets C choices (S.advance c choice)

theorem advance_reaches {C : ∀ ⦃β : Type⦄, List (Prog Q Unit) → σ → Q β → Prop}
    (c : Config σ Q) (choice : Choice σ Q) (h : choice.Valid S) (hC : choice.Meets C c) :
    S.Reaches C c (S.advance c choice) := by
  obtain ⟨s, pool⟩ := c
  cases choice with
  | start p => exact .single (.start p h)
  | env f => exact .single (.env (h s))
  | step i =>
    unfold Choice.Meets at hC
    unfold advance
    dsimp only at hC ⊢
    split
    · exact .refl
    · next hp =>
      have hstep : S.Step C ⟨s, _⟩ ⟨s, _⟩ := .finish (pool.take i) (pool.drop (i + 1))
      rw [← split_at pool i _ hp] at hstep
      exact .single hstep
    · next q k hp =>
      rw [hp] at hC
      have hstep : S.Step C ⟨s, _⟩ _ := .call (pool.take i) (pool.drop (i + 1)) q k hC
      rw [← split_at pool i _ hp] at hstep
      exact .single hstep

/-- A schedule is a run. -/
theorem schedule_reaches {C : ∀ ⦃β : Type⦄, List (Prog Q Unit) → σ → Q β → Prop}
    (choices : List (Choice σ Q)) (c : Config σ Q) (h : ∀ choice ∈ choices, choice.Valid S)
    (hC : S.Meets C choices c) : S.Reaches C c (S.schedule choices c) := by
  induction choices generalizing c with
  | nil => exact .refl
  | cons choice choices ih =>
    rw [List.forall_mem_cons] at h
    exact (S.advance_reaches c choice h.1 hC.1).trans (ih _ h.2 hC.2)

/-- A test of the condition along a schedule. -/
def check (test : ∀ ⦃β : Type⦄, List (Prog Q Unit) → σ → Q β → Bool) :
    List (Choice σ Q) → Config σ Q → Bool
  | [], _ => true
  | .step i :: choices, c =>
    (match c.pool[i]? with
      | some (.call q _) => test (c.pool.take i ++ c.pool.drop (i + 1)) c.store q
      | _ => true) && check test choices (S.advance c (.step i))
  | choice :: choices, c => check test choices (S.advance c choice)

theorem meets_of_check {C : ∀ ⦃β : Type⦄, List (Prog Q Unit) → σ → Q β → Prop}
    (test : ∀ ⦃β : Type⦄, List (Prog Q Unit) → σ → Q β → Bool)
    (htest : ∀ ⦃β : Type⦄ others s (q : Q β), test others s q → C others s q)
    (choices : List (Choice σ Q)) (c : Config σ Q) (h : S.check test choices c) :
    S.Meets C choices c := by
  induction choices generalizing c with
  | nil => exact trivial
  | cons choice choices ih =>
    cases choice with
    | start p => exact ⟨trivial, ih _ h⟩
    | env f => exact ⟨trivial, ih _ h⟩
    | step i =>
      unfold check at h
      rw [Bool.and_eq_true] at h
      refine ⟨?_, ih _ h.2⟩
      unfold Choice.Meets
      dsimp only
      split
      · next hp =>
        rw [hp] at h
        exact htest _ _ _ h.1
      · exact trivial

theorem meets_any (choices : List (Choice σ Q)) (c : Config σ Q) : S.Meets Any choices c := by
  induction choices generalizing c with
  | nil => exact trivial
  | cons choice choices ih =>
    refine ⟨?_, ih _⟩
    unfold Choice.Meets
    split
    · split <;> exact trivial
    · exact trivial

end System

end Interleaving
