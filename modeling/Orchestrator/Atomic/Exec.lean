import Orchestrator.Atomic.Async

/-!
# Functions that run alone

What an async function or a method does when nothing else acts on the state: its outcome and
the state it leaves.

* `Async.exec`, `Method.exec`, with an equation for each way of building one;
* `exec_bind_ok`, `exec_tryCatch_ok`: what a sequence, or a `try` block, that returned went
  through.
-/

namespace Atomic

variable {S : Sig} {ε ε' α β L σ : Type} {h : Handler S σ} {s : σ} {l : L}

namespace Prog

/-- The calls made before a run do not change where it ends. -/
theorem run_eq_run_nil (h : Handler S σ) (p : Prog S α) (s : σ) (log : Log S) :
    ((p.run h s log).val, (p.run h s log).state) = ((p.run h s []).val, (p.run h s []).state) := by
  induction p generalizing s log with
  | pure a => rfl
  | call o k ih => rw [run_call, run_call, ih, ih _ _ [_]]

/-- The value a program returns and the state it leaves. -/
def exec (h : Handler S σ) (p : Prog S α) (s : σ) : α × σ :=
  ((p.run h s []).val, (p.run h s []).state)

@[simp] theorem exec_pure (a : α) : (Prog.pure a : Prog S α).exec h s = (a, s) := rfl

@[simp] theorem exec_call (o : S.Op) (k : S.Ret o → Prog S α) :
    (Prog.call o k).exec h s = (k (h o s).1).exec h (h o s).2 :=
  run_eq_run_nil h (k (h o s).1) (h o s).2 [⟨o, (h o s).1⟩]

theorem exec_bind (p : Prog S α) (f : α → Prog S β) :
    (p.bind f).exec h s = (f (p.exec h s).1).exec h (p.exec h s).2 := by
  induction p generalizing s with
  | pure a => rfl
  | call o k ih => rw [call_bind, exec_call, exec_call, ih]

end Prog

namespace Async

/-- The outcome of an async function and the state it leaves. -/
def exec (h : Handler S σ) (p : Async S ε α) (s : σ) : Except ε α × σ := p.prog.exec h s

@[simp] theorem exec_pure (a : α) : (Async.pure a : Async S ε α).exec h s = (.ok a, s) := rfl

@[simp] theorem exec_throw (e : ε) : (Async.throw e : Async S ε α).exec h s = (.error e, s) := rfl

@[simp] theorem exec_ofExcept (r : Except ε α) :
    (Async.ofExcept r : Async S ε α).exec h s = (r, s) := rfl

theorem exec_bind (p : Async S ε α) (f : α → Async S ε β) :
    (p.bind f).exec h s =
      match p.exec h s with
      | (.ok a, s') => (f a).exec h s'
      | (.error e, s') => (.error e, s') := by
  rw [exec, Async.bind, Prog.exec_bind, exec]
  rcases p.prog.exec h s with ⟨_ | _, _⟩ <;> rfl

theorem exec_tryCatch (p : Async S ε α) (f : ε → Async S ε α) :
    (p.tryCatch f).exec h s =
      match p.exec h s with
      | (.ok a, s') => (.ok a, s')
      | (.error e, s') => (f e).exec h s' := by
  rw [exec, Async.tryCatch, Prog.exec_bind, exec]
  rcases p.prog.exec h s with ⟨_ | _, _⟩ <;> rfl

theorem exec_ite (c : Prop) [Decidable c] (p q : Async S ε α) :
    (if c then p else q).exec h s = if c then p.exec h s else q.exec h s := by
  split <;> rfl

/-- A sequence whose first part returned goes on with the second. -/
theorem exec_bind_of_ok {p : Async S ε α} {f : α → Async S ε β} {a : α} {s' : σ}
    (hp : p.exec h s = (.ok a, s')) : (p >>= f).exec h s = (f a).exec h s' := by
  rw [Async.bind_eq, exec_bind, hp]

/-- A sequence whose first part threw ends there. -/
theorem exec_bind_of_error {p : Async S ε α} {f : α → Async S ε β} {e : ε} {s' : σ}
    (hp : p.exec h s = (.error e, s')) : (p >>= f).exec h s = (.error e, s') := by
  rw [Async.bind_eq, exec_bind, hp]

/-- A sequence that returned went through a value of its first part. -/
theorem exec_bind_ok {p : Async S ε α} {f : α → Async S ε β} {b : β} {s'' : σ} :
    (p.bind f).exec h s = (.ok b, s'') ↔
      ∃ a s', p.exec h s = (.ok a, s') ∧ (f a).exec h s' = (.ok b, s'') := by
  rw [exec_bind]
  rcases p.exec h s with ⟨_ | _, _⟩ <;> simp

/-- A `try` block that returned did so itself, or its handler did. -/
theorem exec_tryCatch_ok {p : Async S ε α} {f : ε → Async S ε α} {a : α} {s'' : σ} :
    (p.tryCatch f).exec h s = (.ok a, s'') ↔ p.exec h s = (.ok a, s'') ∨
      ∃ e s', p.exec h s = (.error e, s') ∧ (f e).exec h s' = (.ok a, s'') := by
  rw [exec_tryCatch]
  rcases p.exec h s with ⟨_ | _, _⟩ <;> simp

end Async

/-- A judgement on a program that runs alone is one on its value and the state it leaves. -/
theorem Prog.sat_alone {p : Prog S α} {Q : α → σ → Prop} {log : Log S} :
    p.Sat (Env.alone h) anyCall (fun _ s a => Q a s) log s ↔ Q (p.exec h s).1 (p.exec h s).2 := by
  induction p generalizing s log with
  | pure a => rfl
  | call o k ih =>
    rw [exec_call, ← ih]
    constructor
    · exact fun hsat => (hsat s _ _ rfl rfl).2
    · exact fun hk => Prog.sat_call_alone trivial hk

/-- A judgement on a function that runs alone is one on its outcome and the state it leaves. -/
theorem Async.sat_alone {p : Async S ε α} {Q : Except ε α → σ → Prop} {log : Log S} :
    p.Sat (Env.alone h) anyCall (fun _ s r => Q r s) log s ↔ Q (p.exec h s).1 (p.exec h s).2 :=
  Prog.sat_alone

/-- A function that runs alone makes its call on the state as it is. -/
theorem Async.sat_await_alone {Op : Type} {Res : Op → Type}
    {h : Handler (Sig.throwing Op Res ε) σ} {log : Log (Sig.throwing Op Res ε)} {o : Op}
    {Q : Log (Sig.throwing Op Res ε) → σ → Except ε (Res o) → Prop}
    (hQ : Q (⟨o, (h o s).1⟩ :: log) (h o s).2 (h o s).1) :
    (Async.await o).Sat (Env.alone h) anyCall Q log s :=
  Prog.sat_call_alone trivial hQ

@[simp] theorem Async.exec_await {Op : Type} {Res : Op → Type}
    {h : Handler (Sig.throwing Op Res ε) σ} (o : Op) :
    (Async.await o).exec h s = h o s := rfl

namespace Method

/-- The outcome of a method, its locals at the end and the state it leaves. -/
def exec (h : Handler S σ) (p : Method S L ε α) (l : L) (s : σ) : Except ε α × L × σ :=
  (((p.body l).exec h s).1.1, ((p.body l).exec h s).1.2, ((p.body l).exec h s).2)

@[simp] theorem exec_pure (a : α) : (Method.pure a : Method S L ε α).exec h l s = (.ok a, l, s) :=
  rfl

@[simp] theorem exec_throw (e : ε) :
    (Method.throw e : Method S L ε α).exec h l s = (.error e, l, s) := rfl

@[simp] theorem exec_read : (Method.read : Method S L ε L).exec h l s = (.ok l, l, s) := rfl

@[simp] theorem exec_assign (f : L → L) :
    (Method.assign f : Method S L ε Unit).exec h l s = (.ok (), f l, s) := rfl

theorem exec_lift (p : Async S ε α) :
    (Method.lift p : Method S L ε α).exec h l s = ((p.exec h s).1, l, (p.exec h s).2) := by
  rw [exec, Method.lift, Prog.exec_bind]
  rfl

theorem exec_asAsync (p : Method S L ε α) :
    (p.asAsync l).exec h s = ((p.exec h l s).1, (p.exec h l s).2.2) := by
  rw [Async.exec, Method.asAsync, Prog.exec_bind]
  rfl

theorem exec_asAsync_ok {p : Method S L ε α} {a : α} {s' : σ} :
    (p.asAsync l).exec h s = (.ok a, s') ↔ ∃ l', p.exec h l s = (.ok a, l', s') := by
  rw [exec_asAsync]
  rcases p.exec h l s with ⟨_ | _, _, _⟩ <;> simp

theorem exec_bind (p : Method S L ε α) (f : α → Method S L ε β) :
    (p.bind f).exec h l s =
      match p.exec h l s with
      | (.ok a, l', s') => (f a).exec h l' s'
      | (.error e, l', s') => (.error e, l', s') := by
  rw [exec, Method.bind, Prog.exec_bind, exec]
  rcases (p.body l).exec h s with ⟨⟨_ | _, _⟩, _⟩ <;> rfl

theorem exec_tryCatch (p : Method S L ε α) (f : ε → Method S L ε α) :
    (p.tryCatch f).exec h l s =
      match p.exec h l s with
      | (.ok a, l', s') => (.ok a, l', s')
      | (.error e, l', s') => (f e).exec h l' s' := by
  rw [exec, Method.tryCatch, Prog.exec_bind, exec]
  rcases (p.body l).exec h s with ⟨⟨_ | _, _⟩, _⟩ <;> rfl

theorem exec_bind_of_ok {p : Method S L ε α} {f : α → Method S L ε β} {a : α} {l' : L} {s' : σ}
    (hp : p.exec h l s = (.ok a, l', s')) : (p >>= f).exec h l s = (f a).exec h l' s' := by
  rw [Method.bind_eq, exec_bind, hp]

theorem exec_bind_of_error {p : Method S L ε α} {f : α → Method S L ε β} {e : ε} {l' : L} {s' : σ}
    (hp : p.exec h l s = (.error e, l', s')) : (p >>= f).exec h l s = (.error e, l', s') := by
  rw [Method.bind_eq, exec_bind, hp]

theorem exec_bind_lift_of_ok {p : Async S ε α} {f : α → Method S L ε β} {a : α} {s' : σ}
    (hp : p.exec h s = (.ok a, s')) :
    ((liftM p : Method S L ε α) >>= f).exec h l s = (f a).exec h l s' := by
  refine exec_bind_of_ok ?_
  rw [Method.liftM_eq, exec_lift, hp]

theorem exec_bind_lift_of_error {p : Async S ε α} {f : α → Method S L ε β} {e : ε} {s' : σ}
    (hp : p.exec h s = (.error e, s')) :
    ((liftM p : Method S L ε α) >>= f).exec h l s = (.error e, l, s') := by
  refine exec_bind_of_error ?_
  rw [Method.liftM_eq, exec_lift, hp]

theorem exec_bind_assign (f : Unit → Method S L ε β) (g : L → L) :
    ((Method.assign g : Method S L ε Unit) >>= f).exec h l s = (f ()).exec h (g l) s := rfl

theorem exec_bind_ok {p : Method S L ε α} {f : α → Method S L ε β} {b : β} {l'' : L} {s'' : σ} :
    (p.bind f).exec h l s = (.ok b, l'', s'') ↔
      ∃ a l' s', p.exec h l s = (.ok a, l', s') ∧ (f a).exec h l' s' = (.ok b, l'', s'') := by
  rw [exec_bind]
  rcases p.exec h l s with ⟨_ | _, _, _⟩ <;> simp

theorem exec_tryCatch_ok {p : Method S L ε α} {f : ε → Method S L ε α} {a : α} {l'' : L}
    {s'' : σ} :
    (p.tryCatch f).exec h l s = (.ok a, l'', s'') ↔ p.exec h l s = (.ok a, l'', s'') ∨
      ∃ e l' s', p.exec h l s = (.error e, l', s') ∧ (f e).exec h l' s' = (.ok a, l'', s'') := by
  rw [exec_tryCatch]
  rcases p.exec h l s with ⟨_ | _, _, _⟩ <;> simp

theorem exec_lift_ok {p : Async S ε α} {a : α} {l' : L} {s' : σ} :
    (Method.lift p : Method S L ε α).exec h l s = (.ok a, l', s') ↔
      p.exec h s = (.ok a, s') ∧ l' = l := by
  rw [exec_lift]
  rcases p.exec h s with ⟨_ | _, _⟩
  · simp
  · simp only [Prod.mk.injEq]
    tauto

end Method

end Atomic
