import Mathlib.Tactic

/-!
# Programs over atomic operations

An asynchronous function is a sequence of atomic operations on shared state, with
computation on its own data in between. This file gives that shape a syntax and a logic:

* `Sig`, the operations a program may call and the type of each response;
* `Prog`, a program as a tree of calls, with its monad laws;
* `Handler` / `Prog.run`, what a program does when it runs alone;
* `Env`, an assumption on responses and on the interference between two calls, and
  `Prog.Sat`, the judgement "under `Env`, each call meets `P` and the end meets `Q`",
  with one rule for each way of building a program;
* `Only`, for programs that make only some of the calls, and `Leaves`, for what they can return;
* `Sat.run`, which carries the judgement over to a run on a handler.

Logs are newest first: the event at the head is the last one that happened.
-/

namespace Atomic

/-- The operations a program may call; `Ret op` is what a call of `op` answers with. -/
structure Sig where
  Op : Type
  Ret : Op → Type

/-- A program over the operations of `S`: it returns, or calls an operation and goes on
with the response. -/
inductive Prog (S : Sig) (α : Type) : Type where
  | pure (a : α)
  | call (op : S.Op) (k : S.Ret op → Prog S α)

/-- One call that happened, with the response it got. -/
structure Event (S : Sig) where
  op : S.Op
  ret : S.Ret op

/-- The calls of one program so far, newest first. -/
abbrev Log (S : Sig) := List (Event S)

variable {S : Sig} {α β γ σ A : Type}

namespace Prog

/-! ## The monad -/

def bind : Prog S α → (α → Prog S β) → Prog S β
  | .pure a, f => f a
  | .call op k, f => .call op fun r => (k r).bind f

/-- The program that makes one call and returns its response. -/
def op (o : S.Op) : Prog S (S.Ret o) := .call o .pure

instance : Monad (Prog S) where
  pure := .pure
  bind := .bind

@[simp] theorem pure_eq (a : α) : (Pure.pure a : Prog S α) = .pure a := rfl

@[simp] theorem bind_eq (p : Prog S α) (f : α → Prog S β) : p >>= f = p.bind f := rfl

@[simp] theorem pure_bind (a : α) (f : α → Prog S β) : (Prog.pure a : Prog S α).bind f = f a := rfl

@[simp] theorem call_bind (o : S.Op) (k : S.Ret o → Prog S α) (f : α → Prog S β) :
    (Prog.call o k).bind f = .call o fun r => (k r).bind f := rfl

@[simp] theorem op_bind (o : S.Op) (f : S.Ret o → Prog S β) : (op o).bind f = .call o f := rfl

@[simp] theorem bind_pure (p : Prog S α) : p.bind .pure = p := by
  induction p with
  | pure a => rfl
  | call o k ih => simp only [call_bind, ih]

theorem bind_assoc (p : Prog S α) (f : α → Prog S β) (g : β → Prog S γ) :
    (p.bind f).bind g = p.bind fun a => (f a).bind g := by
  induction p with
  | pure a => rfl
  | call o k ih => simp only [call_bind, ih]

/-! ## Running alone -/

end Prog

/-- What each operation does to the shared state, and what it answers. -/
abbrev Handler (S : Sig) (σ : Type) := (o : S.Op) → σ → S.Ret o × σ

/-- The end of a run: the value returned, the state left behind and the calls made. -/
structure Outcome (S : Sig) (σ α : Type) where
  val : α
  state : σ
  log : Log S

namespace Prog

/-- The program run from `s` with nothing else acting, the calls added to `log`. -/
def run (h : Handler S σ) : Prog S α → σ → Log S → Outcome S σ α
  | .pure a, s, log => ⟨a, s, log⟩
  | .call o k, s, log => (k (h o s).1).run h (h o s).2 (⟨o, (h o s).1⟩ :: log)

@[simp] theorem run_pure (h : Handler S σ) (a : α) (s : σ) (log : Log S) :
    (Prog.pure a).run h s log = ⟨a, s, log⟩ := rfl

@[simp] theorem run_call (h : Handler S σ) (o : S.Op) (k : S.Ret o → Prog S α) (s : σ)
    (log : Log S) :
    (Prog.call o k).run h s log = (k (h o s).1).run h (h o s).2 (⟨o, (h o s).1⟩ :: log) := rfl

theorem run_bind (h : Handler S σ) (p : Prog S α) (f : α → Prog S β) (s : σ) (log : Log S) :
    (p.bind f).run h s log =
      (f (p.run h s log).val).run h (p.run h s log).state (p.run h s log).log := by
  induction p generalizing s log with
  | pure a => rfl
  | call o k ih => exact ih _ _ _

/-- The calls made before a run stay at the end of its log. -/
theorem log_run (h : Handler S σ) (p : Prog S α) (s : σ) (log : Log S) :
    (p.run h s log).log = (p.run h s []).log ++ log := by
  induction p generalizing s log with
  | pure a => rfl
  | call o k ih =>
    rw [run_call, run_call, ih, ih _ _ [_], List.append_assoc]
    rfl

/-- Two states that no call outside `D` tells apart: a run that makes no call in `D` goes the
same way from both. -/
theorem run_congr {h : Handler S σ} {R : σ → σ → Prop} {D : S.Op → Prop}
    (hR : ∀ o s s', ¬D o → R s s' → (h o s).1 = (h o s').1 ∧ R (h o s).2 (h o s').2)
    (p : Prog S α) {s s' : σ} (hs : R s s') (hfree : ∀ e ∈ (p.run h s []).log, ¬D e.op) :
    (p.run h s' []).log = (p.run h s []).log ∧ (p.run h s' []).val = (p.run h s []).val ∧
      R (p.run h s []).state (p.run h s' []).state := by
  suffices hlog : ∀ log, (p.run h s' log).log = (p.run h s log).log ∧
      (p.run h s' log).val = (p.run h s log).val ∧
      R (p.run h s log).state (p.run h s' log).state from hlog []
  induction p generalizing s s' with
  | pure a => exact fun _ => ⟨rfl, rfl, hs⟩
  | call o k ih =>
    intro log
    have hlog := log_run h (k (h o s).1) (h o s).2 [⟨o, (h o s).1⟩]
    rw [run_call, hlog] at hfree
    have ho : ¬D o := hfree ⟨o, (h o s).1⟩ (by simp)
    obtain ⟨hret, hstate⟩ := hR o s s' ho hs
    have hrest := ih (h o s).1 hstate (fun e he => hfree e (List.mem_append_left _ he))
      (⟨o, (h o s).1⟩ :: log)
    rw [run_call, run_call, ← hret]
    exact hrest

end Prog

/-! ## The judgement -/

/-- What a program may assume. Between two of its calls the state it sees moves along
`rely`; a call then answers, and moves the state, along `step`. -/
structure Env (S : Sig) (A : Type) where
  rely : A → A → Prop
  step : Log S → A → (o : S.Op) → S.Ret o → A → Prop

/-- A property of one call: the log before it, the state it acts on, the operation, its
response and the state it leaves. -/
abbrev CallSpec (S : Sig) (A : Type) := Log S → A → (o : S.Op) → S.Ret o → A → Prop

/-- The specification that asks nothing of a call. -/
abbrev anyCall : CallSpec S A := fun _ _ _ _ _ => True

/-- Under `E`, every call meets `P`, and a program that returns `a` leaves a log and a state
with `Q`. -/
def Prog.Sat (E : Env S A) (P : CallSpec S A) :
    Prog S α → (Log S → A → α → Prop) → Log S → A → Prop
  | .pure a, Q, log, s => Q log s a
  | .call o k, Q, log, s => ∀ m r s', E.rely s m → E.step log m o r s' →
      P log m o r s' ∧ (k r).Sat E P Q (⟨o, r⟩ :: log) s'

namespace Prog

section Rules

variable {E : Env S A} {P P' : CallSpec S A} {Q Q' : Log S → A → α → Prop} {log : Log S} {s : A}

@[simp] theorem sat_pure (a : α) : (Prog.pure a : Prog S α).Sat E P Q log s ↔ Q log s a := Iff.rfl

theorem sat_call (o : S.Op) (k : S.Ret o → Prog S α) :
    (Prog.call o k).Sat E P Q log s ↔ ∀ m r s', E.rely s m → E.step log m o r s' →
      P log m o r s' ∧ (k r).Sat E P Q (⟨o, r⟩ :: log) s' := Iff.rfl

theorem sat_bind (p : Prog S β) (f : β → Prog S α) :
    (p.bind f).Sat E P Q log s ↔ p.Sat E P (fun log s b => (f b).Sat E P Q log s) log s := by
  induction p generalizing log s with
  | pure a => rfl
  | call o k ih => simp only [call_bind, sat_call, ih]

/-- The rule of consequence, for the call property and the postcondition at once. -/
theorem Sat.mono {p : Prog S α} (h : p.Sat E P Q log s)
    (hP : ∀ log m o r s', E.step log m o r s' → P log m o r s' → P' log m o r s')
    (hQ : ∀ log s a, Q log s a → Q' log s a) : p.Sat E P' Q' log s := by
  induction p generalizing log s with
  | pure a => exact hQ _ _ _ h
  | call o k ih =>
    intro m r s' hm hs
    obtain ⟨hp, hk⟩ := h m r s' hm hs
    exact ⟨hP _ _ _ _ _ hs hp, ih r hk⟩

theorem Sat.post {p : Prog S α} (h : p.Sat E P Q log s)
    (hQ : ∀ log s a, Q log s a → Q' log s a) : p.Sat E P Q' log s :=
  h.mono (fun _ _ _ _ _ _ hp => hp) hQ

/-- Sequencing: the first part establishes `R`, and the second goes on from any `R`. -/
theorem Sat.bind {p : Prog S β} {f : β → Prog S α} {R : Log S → A → β → Prop}
    (h : p.Sat E P R log s) (hf : ∀ log s b, R log s b → (f b).Sat E P Q log s) :
    (p.bind f).Sat E P Q log s :=
  (sat_bind p f).mpr (h.post hf)

/-- The judgement for two properties at once, from the judgement for each. -/
theorem Sat.and {p : Prog S α} (h : p.Sat E P Q log s) (h' : p.Sat E P' Q' log s) :
    p.Sat E (fun log m o r s' => P log m o r s' ∧ P' log m o r s')
      (fun log s a => Q log s a ∧ Q' log s a) log s := by
  induction p generalizing log s with
  | pure a => exact ⟨h, h'⟩
  | call o k ih =>
    intro m r s' hm hs
    obtain ⟨hp, hk⟩ := h m r s' hm hs
    obtain ⟨hp', hk'⟩ := h' m r s' hm hs
    exact ⟨⟨hp, hp'⟩, ih r hk hk'⟩

end Rules

end Prog

/-! ## Programs that make only some calls -/

/-- The calls in `C` meet `P` and keep `I`, which others do not disturb. -/
structure Keeps (E : Env S A) (P : CallSpec S A) (C : S.Op → Prop) (I : Log S → A → Prop) :
    Prop where
  rely : ∀ log s m, E.rely s m → I log s → I log m
  call : ∀ log m o r s', C o → I log m → E.step log m o r s' →
    P log m o r s' ∧ I (⟨o, r⟩ :: log) s'

namespace Keeps

variable {E : Env S A} {P : CallSpec S A} {C C' : S.Op → Prop} {I : Log S → A → Prop}

theorem mono (h : Keeps E P C I) (hC : ∀ o, C' o → C o) : Keeps E P C' I :=
  ⟨h.rely, fun log m o r s' ho => h.call log m o r s' (hC o ho)⟩

/-- What has happened stays in the log. -/
theorem mem (h : Keeps E P C I) (e : Event S) :
    Keeps E P C fun log s => I log s ∧ e ∈ log := by
  refine ⟨fun log s m hm hI => ⟨h.rely log s m hm hI.1, hI.2⟩, fun log m o r s' ho hI hs => ?_⟩
  obtain ⟨hP, hI'⟩ := h.call log m o r s' ho hI.1 hs
  exact ⟨hP, hI', List.mem_cons_of_mem _ hI.2⟩

end Keeps

/-- Every call the program can ever make, whatever the responses, is in `C`. -/
def Prog.Only (C : S.Op → Prop) : Prog S α → Prop
  | .pure _ => True
  | .call o k => C o ∧ ∀ r, (k r).Only C

namespace Prog

theorem Only.bind {C : S.Op → Prop} {p : Prog S α} {f : α → Prog S β} (hp : p.Only C)
    (hf : ∀ a, (f a).Only C) : (p.bind f).Only C := by
  induction p with
  | pure a => exact hf a
  | call o k ih => exact ⟨hp.1, fun r => ih r (hp.2 r)⟩

theorem only_true (p : Prog S α) : p.Only fun _ => True := by
  induction p with
  | pure a => trivial
  | call o k ih => exact ⟨trivial, ih⟩

theorem Only.mono {C C' : S.Op → Prop} {p : Prog S α} (hp : p.Only C) (h : ∀ o, C o → C' o) :
    p.Only C' := by
  induction p with
  | pure a => trivial
  | call o k ih => exact ⟨h o hp.1, fun r => ih r (hp.2 r)⟩

/-- A program keeps what its calls keep. -/
theorem Only.sat {E : Env S A} {P : CallSpec S A} {C : S.Op → Prop} {I : Log S → A → Prop}
    {p : Prog S α} (hp : p.Only C) (hkeeps : Keeps E P C I) {log : Log S} {s : A}
    (hI : I log s) : p.Sat E P (fun log s _ => I log s) log s := by
  induction p generalizing log s with
  | pure a => exact hI
  | call o k ih =>
    intro m r s' hm hs
    obtain ⟨hP, hI'⟩ := hkeeps.call log m o r s' hp.1 (hkeeps.rely log s m hm hI) hs
    exact ⟨hP, ih r (hp.2 r) hI'⟩

end Prog

/-- Whatever the responses, the program can only return a value with `Q`. -/
def Prog.Leaves (Q : α → Prop) : Prog S α → Prop
  | .pure a => Q a
  | .call _ k => ∀ r, (k r).Leaves Q

namespace Prog

theorem leaves_true (p : Prog S α) : p.Leaves fun _ => True := by
  induction p with
  | pure a => trivial
  | call o k ih => exact ih

theorem Leaves.bind {R : β → Prop} {Q : α → Prop} {p : Prog S β} {f : β → Prog S α}
    (hp : p.Leaves R) (hf : ∀ b, R b → (f b).Leaves Q) : (p.bind f).Leaves Q := by
  induction p with
  | pure b => exact hf b hp
  | call o k ih => exact fun r => ih r (hp r)

/-- What every returned value satisfies may be added to the postcondition. -/
theorem Sat.leaves {E : Env S A} {P : CallSpec S A} {Q : Log S → A → α → Prop} {R : α → Prop}
    {p : Prog S α} {log : Log S} {s : A} (h : p.Sat E P Q log s) (hp : p.Leaves R) :
    p.Sat E P (fun log s a => Q log s a ∧ R a) log s := by
  induction p generalizing log s with
  | pure a => exact ⟨h, hp⟩
  | call o k ih =>
    intro m r s' hm hs
    obtain ⟨hP, hk⟩ := h m r s' hm hs
    exact ⟨hP, ih r hk (hp r)⟩

end Prog

/-! ## From the judgement to a run -/

/-- The environment that promises nothing: any response, and any interference. -/
def Env.any : Env S A where
  rely _ _ := True
  step _ _ _ _ _ := True

/-- The handler `h` answers within `E`, the state seen through `abs`. -/
def Handler.Meets (h : Handler S σ) (E : Env S A) (abs : σ → A) : Prop :=
  (∀ a, E.rely a a) ∧ ∀ log s o, E.step log (abs s) o (h o s).1 (abs (h o s).2)

/-- The environment of a program that runs alone on `h`. -/
def Env.alone (h : Handler S σ) : Env S σ where
  rely := Eq
  step _ s o r s' := (r, s') = h o s

theorem Handler.meets_alone (h : Handler S σ) : h.Meets (Env.alone h) id :=
  ⟨fun _ => rfl, fun _ _ _ => rfl⟩

/-- A program that runs alone makes its next call on the state it left. -/
theorem Prog.sat_call_alone {h : Handler S σ} {P : CallSpec S σ} {Q : Log S → σ → α → Prop}
    {o : S.Op} {k : S.Ret o → Prog S α} {log : Log S} {s : σ}
    (hP : P log s o (h o s).1 (h o s).2)
    (hk : (k (h o s).1).Sat (Env.alone h) P Q (⟨o, (h o s).1⟩ :: log) (h o s).2) :
    (Prog.call o k).Sat (Env.alone h) P Q log s := by
  rintro _ r s' rfl hs
  obtain ⟨rfl, rfl⟩ := Prod.ext_iff.mp hs
  exact ⟨hP, hk⟩

/-- Every event of the log meets `G`, read on the log before it. -/
def Log.All (G : Log S → Event S → Prop) : Log S → Prop
  | [] => True
  | e :: log => G log e ∧ Log.All G log

@[simp] theorem Log.all_nil (G : Log S → Event S → Prop) : Log.All G [] := trivial

@[simp] theorem Log.all_cons (G : Log S → Event S → Prop) (e : Event S) (log : Log S) :
    Log.All G (e :: log) ↔ G log e ∧ Log.All G log := Iff.rfl

instance Log.decidableAll (G : Log S → Event S → Prop) [∀ log e, Decidable (G log e)] :
    (log : Log S) → Decidable (Log.All G log)
  | [] => .isTrue trivial
  | e :: log => have := Log.decidableAll G log; inferInstanceAs (Decidable (G log e ∧ _))

theorem Log.All.of_append {G : Log S → Event S → Prop} {l₁ l₂ : Log S}
    (h : Log.All G (l₁ ++ l₂)) : Log.All G l₂ := by
  induction l₁ with
  | nil => exact h
  | cons e l ih => exact ih h.2

/-- A property that holds of every event holds at each place in the log. -/
theorem Log.All.at {G : Log S → Event S → Prop} {l₁ l₂ : Log S} {e : Event S}
    (h : Log.All G (l₁ ++ e :: l₂)) : G l₂ e :=
  h.of_append.1

/-- A judgement holds of the run: the postcondition at its end, and `G` at each call. -/
theorem Prog.Sat.run {h : Handler S σ} {E : Env S A} {abs : σ → A} (hE : h.Meets E abs)
    {G : Log S → Event S → Prop} {Q : Log S → A → α → Prop} {p : Prog S α} {log : Log S} {s : σ}
    (hp : p.Sat E (fun log _ o r _ => G log ⟨o, r⟩) Q log (abs s)) (hlog : Log.All G log) :
    Q (p.run h s log).log (abs (p.run h s log).state) (p.run h s log).val ∧
      Log.All G (p.run h s log).log := by
  induction p generalizing log s with
  | pure a => exact ⟨hp, hlog⟩
  | call o k ih =>
    obtain ⟨hg, hk⟩ := hp _ _ _ (hE.1 _) (hE.2 log s o)
    exact ih _ hk ⟨hg, hlog⟩

end Atomic
