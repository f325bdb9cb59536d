import Orchestrator.Atomic.Prog
import Mathlib.Algebra.BigOperators.Group.Finset.Basic

/-!
# Pools of programs that share a state

Any number of programs run against one shared state, one call at a time, in any order; a
program may stop for good between two calls, and the environment may move the state.

* `System`, the shared state's operations and the moves of the environment;
* `Pool`, `Pool.act`, `Pool.exec`, the pool and its runs over a schedule of `Action`s;
* `Pool.Along`, a condition met by every call of a run on the state it acts on;
* `Contract`, what each program may rely on and what its calls guarantee, and
  `Contract.Holds.exec`, which carries the judgement of each program over to every run.
-/

namespace Atomic

open Function (update)

/-- The operations on the shared state, and how the environment moves it. -/
structure System (S : Sig) (σ ω : Type) where
  handler : Handler S σ
  env : ω → σ → σ

/-- What happens next: program `i` makes its next call, program `i` stops for good, or the
environment moves the state. -/
inductive Action (ι ω : Type) where
  | run (i : ι)
  | crash (i : ι)
  | env (e : ω)
  deriving DecidableEq

/-- Programs at work on a shared state. A program that stopped is `none`. -/
structure Pool (S : Sig) (ι σ α : Type) where
  state : σ
  prog : ι → Option (Prog S α)
  history : List (ι × Event S)

variable {S : Sig} {ι σ ω α : Type} [DecidableEq ι]

namespace Pool

/-- The pool before any call. -/
def init (s : σ) (p : ι → Prog S α) : Pool S ι σ α where
  state := s
  prog i := some (p i)
  history := []

/-- The calls of program `i`, newest first. -/
def log (pool : Pool S ι σ α) (i : ι) : Log S :=
  (pool.history.filter fun e => e.1 = i).map Prod.snd

/-- What program `i` returned, if it did. -/
def returned (pool : Pool S ι σ α) (i : ι) : Option α :=
  match pool.prog i with
  | some (.pure a) => some a
  | _ => none

/-- The call that `a` makes, if it makes one. -/
def calls (pool : Pool S ι σ α) : Action ι ω → Option (ι × S.Op)
  | .run i =>
    match pool.prog i with
    | some (.call o _) => some (i, o)
    | _ => none
  | _ => none

/-- One action. Running a program that has stopped or returned changes nothing. -/
def act (M : System S σ ω) (pool : Pool S ι σ α) : Action ι ω → Pool S ι σ α
  | .run i =>
    match pool.prog i with
    | some (.call o k) =>
      { state := (M.handler o pool.state).2
        prog := update pool.prog i (some (k (M.handler o pool.state).1))
        history := (i, ⟨o, (M.handler o pool.state).1⟩) :: pool.history }
    | _ => pool
  | .crash i => { pool with prog := update pool.prog i none }
  | .env e => { pool with state := M.env e pool.state }

/-- A whole schedule. -/
def exec (M : System S σ ω) (pool : Pool S ι σ α) (acts : List (Action ι ω)) : Pool S ι σ α :=
  acts.foldl (act M) pool

/-- The call that `a` makes, if any, meets `C`, and the move it is, if any, meets `D`. -/
def Meets (C : ι → σ → S.Op → Prop) (D : ω → σ → Prop) (pool : Pool S ι σ α)
    (a : Action ι ω) : Prop :=
  (match pool.calls a with
    | some (i, o) => C i pool.state o
    | none => True) ∧
  match a with
    | .env e => D e pool.state
    | _ => True

/-- Every call of the run meets `C` on the state it acts on, and every move of the
environment meets `D`. -/
def Along (M : System S σ ω) (C : ι → σ → S.Op → Prop) (D : ω → σ → Prop) :
    Pool S ι σ α → List (Action ι ω) → Prop
  | _, [] => True
  | pool, a :: acts => pool.Meets C D a ∧ Along M C D (pool.act M a) acts

instance (C : ι → σ → S.Op → Prop) (D : ω → σ → Prop) [∀ i s o, Decidable (C i s o)]
    [∀ e s, Decidable (D e s)] (pool : Pool S ι σ α) (a : Action ι ω) :
    Decidable (pool.Meets C D a) := by
  unfold Meets
  cases pool.calls a <;> cases a <;> infer_instance

instance decidableAlong (M : System S σ ω) (C : ι → σ → S.Op → Prop) (D : ω → σ → Prop)
    [∀ i s o, Decidable (C i s o)] [∀ e s, Decidable (D e s)] :
    (pool : Pool S ι σ α) → (acts : List (Action ι ω)) → Decidable (pool.Along M C D acts)
  | _, [] => inferInstanceAs (Decidable True)
  | pool, a :: acts =>
    have := decidableAlong M C D (pool.act M a) acts
    inferInstanceAs (Decidable (pool.Meets C D a ∧ (pool.act M a).Along M C D acts))

omit [DecidableEq ι] in
theorem returned_eq_some {pool : Pool S ι σ α} {i : ι} {a : α} :
    pool.returned i = some a ↔ pool.prog i = some (.pure a) := by
  unfold returned
  constructor
  · intro h
    split at h
    · cases h
      assumption
    · cases h
  · intro h
    rw [h]

omit [DecidableEq ι] in
theorem Meets.call {C : ι → σ → S.Op → Prop} {D : ω → σ → Prop} {pool : Pool S ι σ α}
    {a : Action ι ω} (h : pool.Meets C D a) {i : ι} {o : S.Op}
    (hcall : pool.calls a = some (i, o)) : C i pool.state o := by
  have h₁ := h.1
  rw [hcall] at h₁
  exact h₁

omit [DecidableEq ι] in
theorem Meets.env {C : ι → σ → S.Op → Prop} {D : ω → σ → Prop} {pool : Pool S ι σ α} {e : ω}
    (h : pool.Meets C D (.env e)) : D e pool.state := h.2

@[simp] theorem exec_nil (M : System S σ ω) (pool : Pool S ι σ α) : pool.exec M [] = pool := rfl

@[simp] theorem exec_cons (M : System S σ ω) (pool : Pool S ι σ α) (a : Action ι ω)
    (acts : List (Action ι ω)) : pool.exec M (a :: acts) = (pool.act M a).exec M acts := rfl

theorem exec_append (M : System S σ ω) (pool : Pool S ι σ α) (acts acts' : List (Action ι ω)) :
    pool.exec M (acts ++ acts') = (pool.exec M acts).exec M acts' := List.foldl_append

theorem along_append {M : System S σ ω} {C : ι → σ → S.Op → Prop} {D : ω → σ → Prop}
    {pool : Pool S ι σ α} {acts acts' : List (Action ι ω)} :
    pool.Along M C D (acts ++ acts') ↔
      pool.Along M C D acts ∧ (pool.exec M acts).Along M C D acts' := by
  induction acts generalizing pool with
  | nil => simp [Along]
  | cons a acts ih => rw [List.cons_append, Along, Along, ih, exec_cons, and_assoc]

/-- The log of a program holds its part of the history. -/
theorem mem_log {pool : Pool S ι σ α} {i : ι} {e : Event S} :
    e ∈ pool.log i ↔ (i, e) ∈ pool.history := by
  simp [log]

@[simp] theorem log_init (s : σ) (p : ι → Prog S α) (i : ι) : (init s p).log i = [] := rfl

/-! ## What one action does -/

/-- An action makes the next call of one program, stops one program, moves the state, or
changes nothing. -/
theorem act_cases (M : System S σ ω) (pool : Pool S ι σ α) (a : Action ι ω) :
    (∃ i o k, a = .run i ∧ pool.prog i = some (.call o k) ∧ pool.calls a = some (i, o) ∧
      pool.act M a =
        { state := (M.handler o pool.state).2
          prog := update pool.prog i (some (k (M.handler o pool.state).1))
          history := (i, ⟨o, (M.handler o pool.state).1⟩) :: pool.history }) ∨
    (∃ i, a = .crash i ∧ pool.act M a = { pool with prog := update pool.prog i none }) ∨
    (∃ e, a = .env e ∧ pool.act M a = { pool with state := M.env e pool.state }) ∨
    pool.act M a = pool := by
  cases a with
  | run i =>
    cases hp : pool.prog i with
    | none => exact .inr (.inr (.inr (by simp only [act, hp])))
    | some p =>
      cases p with
      | pure a => exact .inr (.inr (.inr (by simp only [act, hp])))
      | call o k =>
        exact .inl ⟨i, o, k, rfl, hp, by simp only [calls, hp], by simp only [act, hp]⟩
  | crash i => exact .inr (.inl ⟨i, rfl, rfl⟩)
  | env e => exact .inr (.inr (.inl ⟨e, rfl, rfl⟩))

/-- A property of pools that every action keeps holds at the end of every run. -/
theorem exec_keeps (M : System S σ ω) {C : ι → σ → S.Op → Prop} {D : ω → σ → Prop}
    {I : Pool S ι σ α → Prop}
    (hstep : ∀ pool a, pool.Meets C D a → I pool → I (pool.act M a)) (acts : List (Action ι ω))
    (pool : Pool S ι σ α) (halong : pool.Along M C D acts) (hI : I pool) : I (pool.exec M acts) := by
  induction acts generalizing pool with
  | nil => exact hI
  | cons a acts ih =>
    exact ih _ halong.2 (hstep pool a halong.1 hI)

end Pool

/-! ## Rely and guarantee -/

/-- What the programs of a pool may rely on, and what their calls guarantee. `inv` is kept by
every call and every move of the environment that meets `cond` or `envCond`. -/
structure Contract (M : System S σ ω) (ι : Type) [DecidableEq ι] where
  env : ι → Env S σ
  spec : ι → CallSpec S σ
  inv : σ → Prop
  cond : ι → σ → S.Op → Prop
  envCond : ω → σ → Prop
  rely_refl : ∀ i s, (env i).rely s s
  rely_trans : ∀ i s₁ s₂ s₃, (env i).rely s₁ s₂ → (env i).rely s₂ s₃ → (env i).rely s₁ s₃
  answers : ∀ i log s o, inv s → cond i s o →
    (env i).step log s o (M.handler o s).1 (M.handler o s).2
  keeps : ∀ i log s o, inv s → cond i s o →
    spec i log s o (M.handler o s).1 (M.handler o s).2 → inv (M.handler o s).2
  guards : ∀ i j log s o, i ≠ j → inv s → cond i s o →
    spec i log s o (M.handler o s).1 (M.handler o s).2 → (env j).rely s (M.handler o s).2
  env_keeps : ∀ e s, inv s → envCond e s → inv (M.env e s)
  env_guards : ∀ e j s, inv s → envCond e s → (env j).rely s (M.env e s)

namespace Contract

variable {M : System S σ ω} (K : Contract M ι)

/-- The pool is where the contract leaves it: the invariant holds, and each program still at
work is judged from a state that the others have since moved along its rely. -/
structure Holds (Q : ι → Log S → σ → α → Prop) (pool : Pool S ι σ α) : Prop where
  inv : K.inv pool.state
  sat : ∀ i p, pool.prog i = some p → ∃ s, (K.env i).rely s pool.state ∧
    p.Sat (K.env i) (K.spec i) (Q i) (pool.log i) s

variable {K} {Q : ι → Log S → σ → α → Prop} {pool : Pool S ι σ α}

theorem Holds.init {s : σ} {p : ι → Prog S α} (hinv : K.inv s)
    (hp : ∀ i, (p i).Sat (K.env i) (K.spec i) (Q i) [] s) : K.Holds Q (Pool.init s p) := by
  refine ⟨hinv, fun i q hq => ⟨s, K.rely_refl i s, ?_⟩⟩
  cases hq
  exact hp i

/-- A call that a judged program makes meets its specification. -/
theorem Holds.call {i : ι} {o : S.Op} {k : S.Ret o → Prog S α} (h : K.Holds Q pool)
    (hp : pool.prog i = some (.call o k)) (hC : K.cond i pool.state o) :
    K.spec i (pool.log i) pool.state o (M.handler o pool.state).1 (M.handler o pool.state).2 ∧
      (k (M.handler o pool.state).1).Sat (K.env i) (K.spec i) (Q i)
        (⟨o, (M.handler o pool.state).1⟩ :: pool.log i) (M.handler o pool.state).2 := by
  obtain ⟨s, hs, hsat⟩ := h.sat i _ hp
  exact hsat _ _ _ hs (K.answers i _ _ _ h.inv hC)

/-- What a judged program returned meets its judgement, in a state since moved along its rely. -/
theorem Holds.returned {i : ι} {a : α} (h : K.Holds Q pool) (hreturned : pool.returned i = some a) :
    ∃ s, (K.env i).rely s pool.state ∧ Q i (pool.log i) s a :=
  h.sat i _ (Pool.returned_eq_some.mp hreturned)

/-- Every action within the contract keeps it. -/
theorem Holds.act (h : K.Holds Q pool) (a : Action ι ω) (hC : pool.Meets K.cond K.envCond a) :
    K.Holds Q (pool.act M a) := by
  rcases pool.act_cases M a with ⟨i, o, k, rfl, hp, hcall, hact⟩ | ⟨i, rfl, hact⟩ |
    ⟨e, rfl, hact⟩ | hact
  · have hCi := hC.call hcall
    obtain ⟨hspec, hk⟩ := h.call hp hCi
    rw [hact]
    refine ⟨K.keeps i _ _ _ h.inv hCi hspec, fun j q hq => ?_⟩
    by_cases hij : j = i
    · subst hij
      simp only [Function.update_self, Option.some.injEq] at hq
      subst hq
      refine ⟨_, K.rely_refl _ _, ?_⟩
      simpa [Pool.log] using hk
    · simp only [Function.update_of_ne hij] at hq
      obtain ⟨s, hs, hsat⟩ := h.sat j q hq
      refine ⟨s, K.rely_trans _ _ _ _ hs
        (K.guards i j _ _ _ (Ne.symm hij) h.inv hCi hspec), ?_⟩
      simpa [Pool.log, Ne.symm hij] using hsat
  · rw [hact]
    refine ⟨h.inv, fun j q hq => ?_⟩
    by_cases hij : j = i
    · subst hij
      simp only [Function.update_self, reduceCtorEq] at hq
    · simp only [Function.update_of_ne hij] at hq
      exact h.sat j q hq
  · rw [hact]
    refine ⟨K.env_keeps e _ h.inv hC.env, fun j q hq => ?_⟩
    obtain ⟨s, hs, hsat⟩ := h.sat j q hq
    exact ⟨s, K.rely_trans _ _ _ _ hs (K.env_guards e j _ h.inv hC.env), hsat⟩
  · rw [hact]
    exact h

/-- Every run within the contract keeps it, and with it every property `I` of pools that the
contract's calls keep. -/
theorem Holds.exec_keeps {I : Pool S ι σ α → Prop}
    (hstep : ∀ pool a, K.Holds Q pool → pool.Meets K.cond K.envCond a → I pool →
      I (pool.act M a))
    (acts : List (Action ι ω)) (halong : pool.Along M K.cond K.envCond acts)
    (h : K.Holds Q pool) (hI : I pool) :
    K.Holds Q (pool.exec M acts) ∧ I (pool.exec M acts) :=
  Pool.exec_keeps (I := fun pool => K.Holds Q pool ∧ I pool) M
    (fun pool a hC hJ => ⟨hJ.1.act a hC, hstep pool a hJ.1 hC hJ.2⟩) acts pool halong
    ⟨h, hI⟩

end Contract

/-! ## Counting over the whole history -/

section Counting

variable {β : Type}

/-- A count over a tagged list is the sum of the counts for each tag. -/
theorem countP_eq_sum_tags (p : β → Bool) (l : List (ι × β)) (T : Finset ι)
    (hT : ∀ e ∈ l, e.1 ∈ T) :
    l.countP (fun e => p e.2) =
      ∑ i ∈ T, ((l.filter fun e => e.1 = i).map Prod.snd).countP p := by
  induction l with
  | nil => simp
  | cons e l ih =>
    have hterm : ∀ i ∈ T, (((e :: l).filter fun e => e.1 = i).map Prod.snd).countP p =
        ((l.filter fun e => e.1 = i).map Prod.snd).countP p +
          (if e.1 = i then if p e.2 then 1 else 0 else 0) := by
      intro i _
      by_cases hi : e.1 = i
      · simp [hi, List.countP_cons]
      · simp [hi]
    rw [Finset.sum_congr rfl hterm, Finset.sum_add_distrib,
      ← ih fun e he => hT e (List.mem_cons_of_mem _ he), List.countP_cons]
    simp [hT e (by simp)]

/-- Where `p` never outnumbers `q` in the log of one program, it does not over the whole
history. -/
theorem Pool.countP_history_le (pool : Pool S ι σ α) (p q : Event S → Bool)
    (h : ∀ i, (pool.log i).countP p ≤ (pool.log i).countP q) :
    pool.history.countP (fun e => p e.2) ≤ pool.history.countP (fun e => q e.2) := by
  have hT : ∀ e ∈ pool.history, e.1 ∈ (pool.history.map Prod.fst).toFinset := by
    intro e he
    rw [List.mem_toFinset]
    exact List.mem_map_of_mem he
  rw [countP_eq_sum_tags p _ _ hT, countP_eq_sum_tags q _ _ hT]
  exact Finset.sum_le_sum fun i _ => h i

end Counting

end Atomic
