import Orchestrator.Atomic.Async

/-!
# What an async function can throw

* `Prog.Given`: what a program can return, if its calls answer within `A`;
* `Async.Throws F`: a function whose errors have `F`, if those of its calls do;
* `Async.Sat.throws`: in an environment whose calls throw only such errors.
-/

namespace Atomic

variable {S : Sig} {ε α β A : Type}

namespace Prog

/-- If every call of `o` answers with `R o`, the program can only return a value with `Q`. -/
def Given (R : (o : S.Op) → S.Ret o → Prop) (Q : α → Prop) : Prog S α → Prop
  | .pure a => Q a
  | .call o k => ∀ r, R o r → (k r).Given R Q

variable {R : (o : S.Op) → S.Ret o → Prop} {Q : α → Prop} {Q' : β → Prop}

theorem Given.bind {p : Prog S α} {f : α → Prog S β} (hp : p.Given R Q)
    (hf : ∀ a, Q a → (f a).Given R Q') : (p.bind f).Given R Q' := by
  induction p with
  | pure a => exact hf a hp
  | call o k ih => exact fun r hr => ih r (hp r hr)

/-- What is returned may be added to the postcondition. -/
theorem Sat.given {E : Env S A} {P : CallSpec S A} {K : Log S → A → α → Prop} {p : Prog S α}
    {log : Log S} {s : A} (h : p.Sat E P K log s) (hp : p.Given R Q)
    (hE : ∀ log m o r s', E.step log m o r s' → R o r) :
    p.Sat E P (fun log s a => K log s a ∧ Q a) log s := by
  induction p generalizing log s with
  | pure a => exact ⟨h, hp⟩
  | call o k ih =>
    intro m r s' hm hs
    obtain ⟨hP, hk⟩ := h m r s' hm hs
    exact ⟨hP, ih r hk (hp r (hE _ _ _ _ _ hs))⟩

end Prog

variable {Op : Type} {Res : Op → Type} {F : ε → Prop}

/-- An outcome that is no error without `F`. -/
def ErrorsAre (F : ε → Prop) (r : Except ε α) : Prop := ∀ e, r = .error e → F e

/-- If the calls throw only errors with `F`, so does the function. -/
def Async.Throws (F : ε → Prop) (p : Async (Sig.throwing Op Res ε) ε α) : Prop :=
  p.prog.Given (fun _ r => ErrorsAre F r) (ErrorsAre F)

namespace Async

theorem throws_pure (a : α) : (Async.pure a : Async (Sig.throwing Op Res ε) ε α).Throws F :=
  fun _ h => nomatch h

theorem throws_throw {e : ε} (h : F e) :
    (Async.throw e : Async (Sig.throwing Op Res ε) ε α).Throws F := by
  rintro _ ⟨⟩
  exact h

theorem throws_ofExcept {r : Except ε α} (h : ErrorsAre F r) :
    (Async.ofExcept r : Async (Sig.throwing Op Res ε) ε α).Throws F := h

theorem throws_await (o : Op) : (Async.await o : Async (Sig.throwing Op Res ε) ε (Res o)).Throws F :=
  fun _ h => h

theorem Throws.bind {p : Async (Sig.throwing Op Res ε) ε α}
    {f : α → Async (Sig.throwing Op Res ε) ε β} (hp : p.Throws F) (hf : ∀ a, (f a).Throws F) :
    (p.bind f).Throws F := by
  refine Prog.Given.bind hp fun r hr => ?_
  cases r with
  | ok a => exact hf a
  | error e =>
    rintro _ ⟨⟩
    exact hr e rfl

theorem Throws.ite {c : Prop} [Decidable c] {p q : Async (Sig.throwing Op Res ε) ε α}
    (hp : p.Throws F) (hq : q.Throws F) : (if c then p else q).Throws F := by
  split
  · exact hp
  · exact hq

/-- In an environment whose calls throw only errors with `F`. -/
theorem Sat.throws {E : Env (Sig.throwing Op Res ε) A} {P : CallSpec (Sig.throwing Op Res ε) A}
    {Q : Log (Sig.throwing Op Res ε) → A → Except ε α → Prop}
    {p : Async (Sig.throwing Op Res ε) ε α} {log : Log (Sig.throwing Op Res ε)} {s : A}
    (h : p.Sat E P Q log s) (hp : p.Throws F)
    (hE : ∀ log m o r s', E.step log m o r s' → ErrorsAre F r) :
    p.Sat E P (fun log s r => Q log s r ∧ ErrorsAre F r) log s :=
  Prog.Sat.given h hp hE

end Async

end Atomic
