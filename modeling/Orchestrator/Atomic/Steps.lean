import Mathlib.Tactic

/-!
# Histories of whole steps

A history is a list of steps that act on a state one after the other.

* `after`: the state a history leaves;
* `Along`: a condition that every step of a history meets on the state it acts on;
* `Along.keeps`: an invariant of the steps holds after the history.
-/

namespace Atomic

variable {σ τ : Type} (f : σ → τ → σ)

/-- The state after the steps. -/
def after (s : σ) (steps : List τ) : σ := steps.foldl f s

/-- Every step meets `C` on the state it acts on. -/
def Along (C : σ → τ → Prop) : σ → List τ → Prop
  | _, [] => True
  | s, t :: steps => C s t ∧ Along C (f s t) steps

instance decidableAlong (C : σ → τ → Prop) [∀ s t, Decidable (C s t)] :
    (s : σ) → (steps : List τ) → Decidable (Along f C s steps)
  | _, [] => inferInstanceAs (Decidable True)
  | s, t :: steps =>
    have := decidableAlong C (f s t) steps
    inferInstanceAs (Decidable (C s t ∧ Along f C (f s t) steps))

variable {f} {C : σ → τ → Prop} {s : σ}

@[simp] theorem after_nil : after f s [] = s := rfl

@[simp] theorem after_cons (t : τ) (steps : List τ) :
    after f s (t :: steps) = after f (f s t) steps := rfl

theorem after_append (steps steps' : List τ) :
    after f s (steps ++ steps') = after f (after f s steps) steps' := List.foldl_append

theorem along_append {steps steps' : List τ} :
    Along f C s (steps ++ steps') ↔ Along f C s steps ∧ Along f C (after f s steps) steps' := by
  induction steps generalizing s with
  | nil => simp [Along]
  | cons t steps ih =>
    rw [List.cons_append, Along, Along, ih, after_cons, and_assoc]

theorem Along.mono {C' : σ → τ → Prop} (hC : ∀ s t, C s t → C' s t) {steps : List τ}
    (h : Along f C s steps) : Along f C' s steps := by
  induction steps generalizing s with
  | nil => trivial
  | cons t steps ih => exact ⟨hC s t h.1, ih h.2⟩

/-- What every step within the condition keeps, a history of such steps keeps. -/
theorem Along.keeps {I : σ → Prop} (hstep : ∀ s t, C s t → I s → I (f s t)) {steps : List τ}
    (h : Along f C s steps) (hs : I s) : I (after f s steps) := by
  induction steps generalizing s with
  | nil => exact hs
  | cons t steps ih => exact ih h.2 (hstep s t h.1 hs)

end Atomic
