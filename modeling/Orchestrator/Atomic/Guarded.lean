import Orchestrator.Atomic.Async
import Orchestrator.Atomic.Protocol
import Orchestrator.Atomic.Steps

/-!
# Protocols under a condition

A `Protocol` speaks of every run. Here the run meets a condition: each call is one that `guard`
allows, given what the caller has seen (its log) and the state as it is.

* `Pool.Allowed`: the condition on one action;
* `Guarded`, a protocol with a guard, and `Guarded.Holds.exec`: programs that are judged one by one
  keep the invariant in every run whose calls the guard allows;
* `Guarded.sat_await`, `Guarded.sat_read`: how a program is judged, call by call;
* `Async.retrying`: a call that is made again after it throws.
-/

namespace Atomic

open Function (update)

variable {S : Sig} {ι σ ω α H : Type} [DecidableEq ι]

/-- The call that an action makes, if it makes one, is one that `guard` allows. -/
def Pool.Allowed (guard : ι → Log S → σ → S.Op → Prop) (pool : Pool S ι σ α)
    (a : Action ι ω) : Prop :=
  match pool.calls a with
  | some (i, o) => guard i (pool.log i) pool.state o
  | none => True

instance (guard : ι → Log S → σ → S.Op → Prop) [∀ i log s o, Decidable (guard i log s o)]
    (pool : Pool S ι σ α) (a : Action ι ω) : Decidable (pool.Allowed guard a) :=
  decidable_of_iff (∀ c ∈ pool.calls a, guard c.1 (pool.log c.1) pool.state c.2) (by
    unfold Pool.Allowed
    cases pool.calls a with
    | none => simp
    | some c => simp)

/-- Every call of the run is allowed. -/
def Pool.AllAllowed (M : System S σ ω) (guard : ι → Log S → σ → S.Op → Prop)
    (pool : Pool S ι σ α) (acts : List (Action ι ω)) : Prop :=
  Atomic.Along (Pool.act M) (Pool.Allowed guard) pool acts

instance (M : System S σ ω) (guard : ι → Log S → σ → S.Op → Prop)
    [∀ i log s o, Decidable (guard i log s o)] (pool : Pool S ι σ α) (acts : List (Action ι ω)) :
    Decidable (pool.AllAllowed M guard acts) :=
  inferInstanceAs (Decidable (Atomic.Along (Pool.act M) (Pool.Allowed guard) pool acts))

/-- A protocol for the runs whose calls `guard` allows. -/
structure Guarded (M : System S σ ω) (ι H : Type) extends Protocol M ι H where
  guard : ι → Log S → σ → S.Op → Prop

namespace Guarded

variable {M : System S σ ω} (K : Guarded M ι H)

/-- What program `i` may assume: also that its calls are allowed. -/
def env (i : ι) : Env S (σ × (ι → H)) where
  rely := K.Rely i
  step log a o r a' :=
    K.guard i log a.1 o ∧ K.inv a ∧ r = (M.handler o a.1).1 ∧ a' = K.after i a o

/-- The pool is where the protocol leaves it. -/
structure Holds (g : ι → H) (Q : ι → Log S → σ × (ι → H) → α → Prop) (pool : Pool S ι σ α) :
    Prop where
  inv : K.inv (pool.state, K.holdings g pool)
  sat : ∀ i p, pool.prog i = some p → ∃ a, K.Rely i a (pool.state, K.holdings g pool) ∧
    p.Sat (K.env i) K.Safe (Q i) (pool.log i) a

variable {K} {g : ι → H} {Q : ι → Log S → σ × (ι → H) → α → Prop} {pool : Pool S ι σ α}

theorem Holds.init {s : σ} {p : ι → Prog S α} (hinv : K.inv (s, g))
    (hp : ∀ i, (p i).Sat (K.env i) K.Safe (Q i) [] (s, g)) : K.Holds g Q (Pool.init s p) := by
  refine ⟨hinv, fun i q hq => ⟨(s, g), Protocol.Rely.refl i _, ?_⟩⟩
  cases hq
  exact hp i

/-- Every allowed action keeps what the protocol says. -/
theorem Holds.act (h : K.Holds g Q pool) (a : Action ι ω) (hallowed : pool.Allowed K.guard a) :
    K.Holds g Q (pool.act M a) := by
  rcases pool.act_cases M a with ⟨i, o, k, rfl, hp, hcalls, hact⟩ | ⟨i, rfl, hact⟩ |
    ⟨e, rfl, hact⟩ | hact
  · unfold Pool.Allowed at hallowed
    rw [hcalls] at hallowed
    obtain ⟨b, hb, hsat⟩ := h.sat i _ hp
    obtain ⟨⟨hinv, hmoves⟩, hk⟩ := hsat _ _ _ hb ⟨hallowed, h.inv, rfl, rfl⟩
    rw [hact]
    refine ⟨hinv, fun j q hq => ?_⟩
    by_cases hij : j = i
    · subst hij
      simp only [Function.update_self, Option.some.injEq] at hq
      subst hq
      refine ⟨_, Protocol.Rely.refl _ _, ?_⟩
      simpa [Pool.log, Protocol.after, Protocol.holdings] using hk
    · simp only [Function.update_of_ne hij] at hq
      obtain ⟨c, hc, hsat'⟩ := h.sat j q hq
      refine ⟨c, hc.trans ⟨Function.update_of_ne hij _ _, hmoves⟩, ?_⟩
      simpa [Pool.log, Ne.symm hij] using hsat'
  · rw [hact]
    refine ⟨h.inv, fun j q hq => ?_⟩
    by_cases hij : j = i
    · subst hij
      simp only [Function.update_self, reduceCtorEq] at hq
    · simp only [Function.update_of_ne hij] at hq
      exact h.sat j q hq
  · rw [hact]
    refine ⟨K.env_inv e _ h.inv, fun j q hq => ?_⟩
    obtain ⟨c, hc, hsat⟩ := h.sat j q hq
    exact ⟨c, hc.trans ⟨rfl, K.env_moves e _⟩, hsat⟩
  · rw [hact]
    exact h

/-- Every run whose calls are all allowed keeps what the protocol says. -/
theorem Holds.exec (h : K.Holds g Q pool) (acts : List (Action ι ω))
    (hallowed : pool.AllAllowed M K.guard acts) : K.Holds g Q (pool.exec M acts) :=
  Along.keeps (I := K.Holds g Q) (fun _ a ha hpool => Holds.act hpool a ha) hallowed h

/-- A program that returned did so with its postcondition, and others have moved the state
since. -/
theorem Holds.returned (h : K.Holds g Q pool) {i : ι} {a : α}
    (hp : pool.prog i = some (.pure a)) :
    ∃ b, K.Rely i b (pool.state, K.holdings g pool) ∧ Q i (pool.log i) b a :=
  h.sat i _ hp

/-- A program that is judged moves the shared state, whatever it returns. -/
theorem sat_moves {i : ι} {p : Prog S α} {Q : Log S → σ × (ι → H) → α → Prop} {log : Log S}
    {a : σ × (ι → H)} (h : p.Sat (K.env i) K.Safe Q log a) :
    p.Sat (K.env i) K.Safe (fun log b v => Q log b v ∧ K.moves a.1 b.1) log a := by
  induction p generalizing log a with
  | pure v => exact ⟨h, K.moves_refl _⟩
  | call o k ih =>
    intro m r b hm hs
    obtain ⟨hsafe, hk⟩ := h m r b hm hs
    refine ⟨hsafe, (ih r hk).post fun log c v hc => ⟨hc.1, ?_⟩⟩
    exact K.moves_trans _ _ _ hm.2 (K.moves_trans _ _ _ hsafe.2 hc.2)

/-! ## Calls -/

section Calls

variable {Op : Type} {Res : Op → Type} {ε : Type} {M : System (Sig.throwing Op Res ε) σ ω}
  {K : Guarded M ι H} {i : ι} {log : Log (Sig.throwing Op Res ε)} {a : σ × (ι → H)} {o : Op}
  {Q : Log (Sig.throwing Op Res ε) → σ × (ι → H) → Except ε (Res o) → Prop}

/-- A call is made while the invariant holds, and must keep it. -/
theorem sat_await (hcall : ∀ b, K.Rely i a b → K.inv b → K.guard i log b.1 o →
    (K.inv (K.after i b o) ∧ K.moves b.1 (K.after i b o).1) ∧
      Q (⟨o, (M.handler o b.1).1⟩ :: log) (K.after i b o) (M.handler o b.1).1) :
    (Async.await o).Sat (K.env i) K.Safe Q log a := by
  refine (Async.sat_await o).mpr fun b r b' hrely hstep => ?_
  obtain ⟨hguard, hinv, rfl, rfl⟩ := hstep
  exact hcall b hrely hinv hguard

/-- A call that changes neither the state nor what its caller holds is safe. -/
theorem sat_read (hstate : ∀ s, (M.handler o s).2 = s)
    (hnote : ∀ s, K.note (a.2 i) ⟨o, (M.handler o s).1⟩ = a.2 i)
    (hQ : ∀ b, K.Rely i a b → K.inv b → Q (⟨o, (M.handler o b.1).1⟩ :: log) b
      (M.handler o b.1).1) :
    (Async.await o).Sat (K.env i) K.Safe Q log a := by
  refine sat_await fun b hrely hinv _ => ?_
  have hafter : K.after i b o = b := by
    unfold Protocol.after
    rw [hstate, hrely.1, hnote, ← hrely.1, Function.update_eq_self]
  rw [hafter]
  exact ⟨⟨hinv, K.moves_refl _⟩, hQ b hrely hinv⟩

end Calls

end Guarded

/-! ## Retries -/

variable {ε β A : Type}

/-- The function, called again after it throws, up to `n` times. -/
def Async.retrying (p : Async S ε β) : ℕ → Async S ε β
  | 0 => p
  | n + 1 => p.tryCatch fun _ => p.retrying n

/-- A function that ends in `J` when it throws, and may be called in any such state. -/
theorem Async.sat_retrying {E : Env S A} {P : CallSpec S A} {p : Async S ε β}
    {J : A → Prop} {Q : A → β → Prop}
    (hp : ∀ log s, J s → p.Sat E P (ends (fun _ s b => Q s b) fun _ s _ => J s) log s) (n : ℕ)
    (log : Log S) (s : A) (hs : J s) :
    (p.retrying n).Sat E P (ends (fun _ s b => Q s b) fun _ s _ => J s) log s := by
  induction n generalizing log s with
  | zero => exact hp log s hs
  | succ n ih =>
    refine (sat_tryCatch p _).mpr ((hp log s hs).mono fun log s r hr => ?_)
    cases r with
    | ok b => exact hr
    | error e => exact ih log s hr

end Atomic
