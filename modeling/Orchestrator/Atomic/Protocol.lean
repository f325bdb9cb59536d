import Orchestrator.Atomic.Pool

/-!
# Protocols with holdings

Arguments about programs that share a state often need to know who did what: who holds a
reservation, who created a record. A `Protocol` gives each program a holding beside the shared
state, changed by the program's own calls (`note`), with an invariant over the state and all
holdings.

* `Protocol`: the holdings, the invariant, and how the shared state may move;
* `Protocol.env`, `Protocol.Safe`: what a program may assume, and what its calls must do;
* `Protocol.Holds.exec`: programs that are judged one by one keep the invariant in every run.
-/

namespace Atomic

variable {S : Sig} {ι σ ω α H : Type} [DecidableEq ι]

/-- What an update of one program's holding keeps, it keeps for every program. -/
theorem proj_update {β : Type} (f : H → β) {g : ι → H} {i : ι} {h : H} (hf : f h = f (g i)) (j : ι) :
    f (Function.update g i h j) = f (g j) := by
  by_cases hji : j = i
  · subst hji
    rw [Function.update_self, hf]
  · rw [Function.update_of_ne hji]

/-- What each program holds, the invariant over the shared state and the holdings, and the moves
that every call makes of the shared state. -/
structure Protocol (M : System S σ ω) (ι H : Type) where
  note : H → Event S → H
  inv : σ × (ι → H) → Prop
  moves : σ → σ → Prop
  moves_refl : ∀ s, moves s s
  moves_trans : ∀ s₁ s₂ s₃, moves s₁ s₂ → moves s₂ s₃ → moves s₁ s₃
  env_inv : ∀ e a, inv a → inv (M.env e a.1, a.2)
  env_moves : ∀ e s, moves s (M.env e s)

namespace Protocol

variable {M : System S σ ω} (K : Protocol M ι H)

/-- The state and the holdings after program `i` makes the call `o`. -/
def after (i : ι) (a : σ × (ι → H)) (o : S.Op) : σ × (ι → H) :=
  ((M.handler o a.1).2,
    Function.update a.2 i (K.note (a.2 i) ⟨o, (M.handler o a.1).1⟩))

omit [DecidableEq ι] in
/-- The state moves, and what program `i` holds stays. -/
def Rely (i : ι) (a b : σ × (ι → H)) : Prop := b.2 i = a.2 i ∧ K.moves a.1 b.1

/-- What program `i` may assume: others move the state and leave what it holds, the invariant
holds when it makes a call, and the call is answered by the handler. -/
def env (i : ι) : Env S (σ × (ι → H)) where
  rely := K.Rely i
  step _ a o r a' := K.inv a ∧ r = (M.handler o a.1).1 ∧ a' = K.after i a o

/-- What a call must do: keep the invariant, and move the state. -/
def Safe : CallSpec S (σ × (ι → H)) := fun _ a _ _ a' => K.inv a' ∧ K.moves a.1 a'.1

/-- What the programs hold in a pool in which they started with `g`. -/
def holdings (g : ι → H) (pool : Pool S ι σ α) : ι → H :=
  pool.history.foldr (fun e g => Function.update g e.1 (K.note (g e.1) e.2)) g

/-- The pool is where the protocol leaves it. -/
structure Holds (g : ι → H) (Q : ι → Log S → σ × (ι → H) → α → Prop) (pool : Pool S ι σ α) :
    Prop where
  inv : K.inv (pool.state, K.holdings g pool)
  sat : ∀ i p, pool.prog i = some p → ∃ a, K.Rely i a (pool.state, K.holdings g pool) ∧
    p.Sat (K.env i) K.Safe (Q i) (pool.log i) a

variable {K} {g : ι → H} {Q : ι → Log S → σ × (ι → H) → α → Prop} {pool : Pool S ι σ α}

/-- A program that has made no call holds what it started with. -/
theorem holdings_of_log_nil {i : ι} (h : pool.log i = []) : K.holdings g pool i = g i := by
  have hothers : ∀ e ∈ pool.history, e.1 ≠ i := by
    intro e he heq
    have hmem : e.2 ∈ pool.log i :=
      List.mem_map.mpr ⟨e, List.mem_filter.mpr ⟨he, decide_eq_true heq⟩, rfl⟩
    rw [h] at hmem
    cases hmem
  unfold holdings
  generalize pool.history = history at hothers
  induction history with
  | nil => rfl
  | cons e es ih =>
    rw [List.foldr_cons, Function.update_of_ne (hothers e List.mem_cons_self).symm]
    exact ih fun e' he' => hothers e' (List.mem_cons_of_mem _ he')

omit [DecidableEq ι] in
theorem Rely.refl (i : ι) (a : σ × (ι → H)) : K.Rely i a a := ⟨rfl, K.moves_refl a.1⟩

omit [DecidableEq ι] in
theorem Rely.trans {i : ι} {a b c : σ × (ι → H)} (h : K.Rely i a b) (h' : K.Rely i b c) :
    K.Rely i a c :=
  ⟨h'.1.trans h.1, K.moves_trans _ _ _ h.2 h'.2⟩

/-- A program that is judged moves the shared state, whatever it returns. -/
theorem sat_moves {i : ι} {p : Prog S α} {Q : Log S → σ × (ι → H) → α → Prop} {log : Log S}
    {a : σ × (ι → H)} (h : p.Sat (K.env i) K.Safe Q log a) :
    p.Sat (K.env i) K.Safe (fun log b v => Q log b v ∧ K.moves a.1 b.1) log a := by
  induction p generalizing log a with
  | pure v => exact ⟨h, K.moves_refl _⟩
  | call o k ih =>
    intro m r b hm hs
    obtain ⟨hsafe, hk⟩ := h m r b hm hs
    refine ⟨hsafe, (ih r hk).post fun log c v hc => ⟨hc.1, ?_⟩⟩
    exact K.moves_trans _ _ _ hm.2 (K.moves_trans _ _ _ hsafe.2 hc.2)

theorem Holds.init {s : σ} {p : ι → Prog S α} (hinv : K.inv (s, g))
    (hp : ∀ i, (p i).Sat (K.env i) K.Safe (Q i) [] (s, g)) : K.Holds g Q (Pool.init s p) := by
  refine ⟨hinv, fun i q hq => ⟨(s, g), Rely.refl i _, ?_⟩⟩
  cases hq
  exact hp i

/-- Every action keeps what the protocol says, and moves the state. -/
theorem Holds.act (h : K.Holds g Q pool) (a : Action ι ω) :
    K.Holds g Q (pool.act M a) ∧ K.moves pool.state (pool.act M a).state := by
  rcases pool.act_cases M a with ⟨i, o, k, rfl, hp, -, hact⟩ | ⟨i, rfl, hact⟩ |
    ⟨e, rfl, hact⟩ | hact
  · obtain ⟨b, hb, hsat⟩ := h.sat i _ hp
    obtain ⟨⟨hinv, hmoves⟩, hk⟩ := hsat _ _ _ hb ⟨h.inv, rfl, rfl⟩
    rw [hact]
    refine ⟨⟨hinv, fun j q hq => ?_⟩, hmoves⟩
    by_cases hij : j = i
    · subst hij
      simp only [Function.update_self, Option.some.injEq] at hq
      subst hq
      refine ⟨_, Rely.refl _ _, ?_⟩
      simpa [Pool.log, after, holdings] using hk
    · simp only [Function.update_of_ne hij] at hq
      obtain ⟨c, hc, hsat'⟩ := h.sat j q hq
      refine ⟨c, hc.trans ⟨Function.update_of_ne hij _ _, hmoves⟩, ?_⟩
      simpa [Pool.log, Ne.symm hij] using hsat'
  · rw [hact]
    refine ⟨⟨h.inv, fun j q hq => ?_⟩, K.moves_refl _⟩
    by_cases hij : j = i
    · subst hij
      simp only [Function.update_self, reduceCtorEq] at hq
    · simp only [Function.update_of_ne hij] at hq
      exact h.sat j q hq
  · rw [hact]
    refine ⟨⟨K.env_inv e _ h.inv, fun j q hq => ?_⟩, K.env_moves e _⟩
    obtain ⟨c, hc, hsat⟩ := h.sat j q hq
    exact ⟨c, hc.trans ⟨rfl, K.env_moves e _⟩, hsat⟩
  · rw [hact]
    exact ⟨h, K.moves_refl _⟩

/-- Every run keeps what the protocol says, and moves the state. -/
theorem Holds.exec (h : K.Holds g Q pool) (acts : List (Action ι ω)) :
    K.Holds g Q (pool.exec M acts) ∧ K.moves pool.state (pool.exec M acts).state := by
  induction acts generalizing pool with
  | nil => exact ⟨h, K.moves_refl _⟩
  | cons a acts ih =>
    obtain ⟨hact, hmoves⟩ := h.act a
    obtain ⟨hexec, hmoves'⟩ := ih hact
    exact ⟨hexec, K.moves_trans _ _ _ hmoves hmoves'⟩

/-- A program that returned did so with its postcondition, and others have moved the state
since. -/
theorem Holds.returned (h : K.Holds g Q pool) {i : ι} {a : α}
    (hp : pool.prog i = some (.pure a)) :
    ∃ b, K.Rely i b (pool.state, K.holdings g pool) ∧ Q i (pool.log i) b a :=
  h.sat i _ hp

end Protocol

end Atomic
