import Orchestrator.Atomic.Exec

/-!
# One failing call

Operations of which one call fails: it throws, and does nothing. Which one is the count of the
calls that may fail and are still to succeed, kept beside the state.

* `Handler.failing`: the operations with their failing call;
* `exec_failing_none`: once the failing call was made, the operations are the ones without it;
* `exec_of_failing_some`: so they are for a program that ended before it.
-/

namespace Atomic

variable {Op : Type} {Res : Op → Type} {ε α L σ : Type}

/-- `h`, but of the calls that may fail, the one after the given number throws `boom`. -/
def Handler.failing (mayFail : Op → Bool) (boom : ε) (h : Handler (Sig.throwing Op Res ε) σ) :
    Handler (Sig.throwing Op Res ε) (σ × Option ℕ)
  | o, (s, left) =>
    if mayFail o then
      match left with
      | none => ((h o s).1, (h o s).2, none)
      | some 0 => (.error boom, s, none)
      | some (n + 1) => ((h o s).1, (h o s).2, some n)
    else ((h o s).1, (h o s).2, left)

variable {mayFail : Op → Bool} {boom : ε} {h : Handler (Sig.throwing Op Res ε) σ} {s : σ} {o : Op}

@[simp] theorem Handler.failing_none :
    h.failing mayFail boom o (s, none) = ((h o s).1, (h o s).2, none) := by
  rw [Handler.failing.eq_def]
  dsimp only
  split <;> rfl

theorem Handler.failing_fails (ho : mayFail o = true) :
    h.failing mayFail boom o (s, some 0) = (.error boom, s, none) := by
  rw [Handler.failing.eq_def]
  exact if_pos ho

theorem Handler.failing_succeeds (ho : mayFail o = true) (n : ℕ) :
    h.failing mayFail boom o (s, some (n + 1)) = ((h o s).1, (h o s).2, some n) := by
  rw [Handler.failing.eq_def]
  exact if_pos ho

theorem Handler.failing_safe (ho : mayFail o = false) (left : Option ℕ) :
    h.failing mayFail boom o (s, left) = ((h o s).1, (h o s).2, left) := by
  rw [Handler.failing.eq_def]
  exact if_neg (by simp [ho])

namespace Prog

/-- Once the failing call was made, a program runs as without it. -/
theorem exec_failing_none (p : Prog (Sig.throwing Op Res ε) α) (s : σ) :
    p.exec (h.failing mayFail boom) (s, none) = ((p.exec h s).1, (p.exec h s).2, none) := by
  induction p generalizing s with
  | pure a => rfl
  | call o k ih => rw [exec_call, exec_call, Handler.failing_none, ih]

/-- A program that ended before the failing call ran as without it. -/
theorem exec_of_failing_some {p : Prog (Sig.throwing Op Res ε) α} {n m : ℕ} {a : α} {s s' : σ}
    (hp : p.exec (h.failing mayFail boom) (s, some n) = (a, s', some m)) :
    p.exec h s = (a, s') := by
  induction p generalizing s n with
  | pure a' =>
    cases hp
    rfl
  | call o k ih =>
    rw [exec_call] at hp ⊢
    cases ho : mayFail o with
    | false =>
      rw [Handler.failing_safe ho] at hp
      exact ih _ hp
    | true =>
      cases n with
      | zero =>
        rw [Handler.failing_fails ho, exec_failing_none] at hp
        cases hp
      | succ n =>
        rw [Handler.failing_succeeds ho] at hp
        exact ih _ hp

end Prog

theorem Async.exec_failing_none (p : Async (Sig.throwing Op Res ε) ε α) (s : σ) :
    p.exec (h.failing mayFail boom) (s, none) = ((p.exec h s).1, (p.exec h s).2, none) :=
  Prog.exec_failing_none p.prog s

theorem Async.exec_of_failing_some {p : Async (Sig.throwing Op Res ε) ε α} {n m : ℕ}
    {r : Except ε α} {s s' : σ}
    (hp : p.exec (h.failing mayFail boom) (s, some n) = (r, s', some m)) :
    p.exec h s = (r, s') :=
  Prog.exec_of_failing_some hp

theorem Method.exec_failing_none (p : Method (Sig.throwing Op Res ε) L ε α) (l : L) (s : σ) :
    p.exec (h.failing mayFail boom) l (s, none) =
      ((p.exec h l s).1, (p.exec h l s).2.1, (p.exec h l s).2.2, none) := by
  rw [Method.exec, Prog.exec_failing_none]
  rfl

end Atomic
