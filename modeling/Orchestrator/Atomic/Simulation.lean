import Orchestrator.Atomic.Exec

/-!
# Functions that run alike

Two async functions, each run alone, from states that a relation `R` holds between.

* `Alike`: both return, values that `V` relates, or both throw, errors that `F` relates; the
  states they leave are related again;
* one rule for each way of building an async function.
-/

namespace Atomic

variable {S S' : Sig} {ε ε' α α' β β' σ σ' : Type}

/-- Both outcomes are values, with `V`, or both are errors, with `F`. -/
def BothEnd (F : ε → ε' → Prop) (V : α → α' → Prop) : Except ε α → Except ε' α' → Prop
  | .ok a, .ok a' => V a a'
  | .error e, .error e' => F e e'
  | _, _ => False

/-- From related states the two functions have related outcomes, and leave related states. -/
def Async.Alike (h : Handler S σ) (h' : Handler S' σ') (R : σ → σ' → Prop) (F : ε → ε' → Prop)
    (V : α → α' → Prop) (p : Async S ε α) (p' : Async S' ε' α') : Prop :=
  ∀ s s', R s s' → BothEnd F V (p.exec h s).1 (p'.exec h' s').1 ∧ R (p.exec h s).2 (p'.exec h' s').2

namespace Async

variable {h : Handler S σ} {h' : Handler S' σ'} {R : σ → σ' → Prop} {F : ε → ε' → Prop}
  {V : α → α' → Prop} {W : β → β' → Prop}

theorem alike_pure {a : α} {a' : α'} (hV : V a a') :
    Alike h h' R F V (Async.pure a : Async S ε α) (Async.pure a' : Async S' ε' α') :=
  fun _ _ hR => ⟨hV, hR⟩

theorem alike_throw {e : ε} {e' : ε'} (hF : F e e') :
    Alike h h' R F V (Async.throw e : Async S ε α) (Async.throw e' : Async S' ε' α') :=
  fun _ _ hR => ⟨hF, hR⟩

theorem alike_ofExcept {r : Except ε α} {r' : Except ε' α'} (hr : BothEnd F V r r') :
    Alike h h' R F V (Async.ofExcept r : Async S ε α) (Async.ofExcept r' : Async S' ε' α') :=
  fun _ _ hR => ⟨hr, hR⟩

/-- Sequences whose parts are alike. -/
theorem Alike.bind {p : Async S ε α} {p' : Async S' ε' α'} {f : α → Async S ε β}
    {f' : α' → Async S' ε' β'} (hp : Alike h h' R F V p p')
    (hf : ∀ a a', V a a' → Alike h h' R F W (f a) (f' a')) :
    Alike h h' R F W (p.bind f) (p'.bind f') := by
  intro s s' hR
  obtain ⟨hend, hstate⟩ := hp s s' hR
  rw [exec_bind, exec_bind]
  rcases hs : p.exec h s with ⟨r, t⟩
  rcases hs' : p'.exec h' s' with ⟨r', t'⟩
  rw [hs, hs'] at hend hstate
  cases r with
  | ok a =>
    cases r' with
    | ok a' => exact hf a a' hend t t' hstate
    | error e' => exact hend.elim
  | error e =>
    cases r' with
    | ok a' => exact hend.elim
    | error e' => exact ⟨hend, hstate⟩

theorem Alike.mono {V' : α → α' → Prop} {p : Async S ε α} {p' : Async S' ε' α'}
    (hp : Alike h h' R F V p p') (hV : ∀ a a', V a a' → V' a a') : Alike h h' R F V' p p' := by
  intro s s' hR
  obtain ⟨hend, hstate⟩ := hp s s' hR
  refine ⟨?_, hstate⟩
  revert hend
  cases (p.exec h s).1 <;> cases (p'.exec h' s').1 <;> intro hend
  · exact hend
  · exact hend
  · exact hend
  · exact hV _ _ hend

/-- A function is like itself. -/
theorem alike_refl (p : Async S ε α) : Alike h h Eq Eq Eq p p := by
  intro s s' hs
  subst hs
  refine ⟨?_, rfl⟩
  cases (p.exec h s).1 <;> rfl

/-- What is done with the value at the end makes no difference. -/
theorem Alike.map_left {p : Async S ε α} {p' : Async S' ε' α'} {W : β → α' → Prop}
    (hp : Alike h h' R F V p p') {g : α → β} (hg : ∀ a a', V a a' → W (g a) a') :
    Alike h h' R F W (p.bind fun a => Async.pure (g a)) p' := by
  intro s s' hR
  obtain ⟨hend, hstate⟩ := hp s s' hR
  rw [exec_bind]
  rcases hs : p.exec h s with ⟨r, t⟩
  rcases hs' : p'.exec h' s' with ⟨r', t'⟩
  rw [hs, hs'] at hend hstate
  cases r with
  | ok a =>
    cases r' with
    | ok a' => exact ⟨hg a a' hend, hstate⟩
    | error e' => exact hend.elim
  | error e =>
    cases r' with
    | ok a' => exact hend.elim
    | error e' => exact ⟨hend, hstate⟩

/-- A loop that collects what its turns return, and one that does not. -/
theorem alike_collect_forEach {γ : Type} {V : β → Unit → Prop} {f : γ → Async S ε β}
    {f' : γ → Async S' ε' Unit} (hf : ∀ c, Alike h h' R F V (f c) (f' c)) (cs : List γ) :
    Alike h h' R F (fun _ _ => True) (Async.collect f cs) (Async.forEach f' cs) := by
  induction cs with
  | nil => exact alike_pure trivial
  | cons c cs ih =>
    exact (hf c).bind fun b _ _ => ih.map_left fun _ _ _ => trivial

/-- Branches that are alike, on conditions that agree. -/
theorem alike_ite {c c' : Prop} [Decidable c] [Decidable c'] {p q : Async S ε α}
    {p' q' : Async S' ε' α'} (hc : c ↔ c') (hp : Alike h h' R F V p p')
    (hq : Alike h h' R F V q q') :
    Alike h h' R F V (if c then p else q) (if c' then p' else q') := by
  by_cases hcond : c
  · rw [if_pos hcond, if_pos (hc.mp hcond)]
    exact hp
  · rw [if_neg hcond, if_neg fun hcond' => hcond (hc.mpr hcond')]
    exact hq

end Async

/-- Calls whose answers, and the states they leave, are related. -/
theorem Async.alike_await {Op Op' : Type} {Res : Op → Type} {Res' : Op' → Type}
    {h : Handler (Sig.throwing Op Res ε) σ} {h' : Handler (Sig.throwing Op' Res' ε') σ'}
    {R : σ → σ' → Prop} {F : ε → ε' → Prop} {o : Op} {o' : Op'} {V : Res o → Res' o' → Prop}
    (hcall : ∀ s s', R s s' → BothEnd F V (h o s).1 (h' o' s').1 ∧ R (h o s).2 (h' o' s').2) :
    Alike h h' R F V (Async.await o) (Async.await o') :=
  hcall

end Atomic
