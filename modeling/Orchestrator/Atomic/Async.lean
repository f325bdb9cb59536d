import Orchestrator.Atomic.Prog

/-!
# Async functions and methods with local variables

Two shapes of code over atomic operations, each with its rules for `Prog.Sat`:

* `Async S ε α`, an async function: every awaited call and the function itself may throw an
  `ε`;
* `Method S L ε α`, the body of a function whose local variables are a record `L`. An
  exception does not undo assignments, so a `catch` block sees the locals as the `try`
  block left them.

The signatures used here answer every call with a value or an exception (`Sig.throwing`).
-/

namespace Atomic

/-- Operations whose every call either answers or throws. -/
abbrev Sig.throwing (Op : Type) (Res : Op → Type) (ε : Type) : Sig := ⟨Op, fun o => Except ε (Res o)⟩

/-- An async function: a program that ends with a value or an exception. -/
structure Async (S : Sig) (ε α : Type) where
  prog : Prog S (Except ε α)

variable {S : Sig} {ε ε' α β γ L A σ : Type}

namespace Async

def pure (a : α) : Async S ε α := ⟨.pure (.ok a)⟩

def throw (e : ε) : Async S ε α := ⟨.pure (.error e)⟩

def bind (p : Async S ε α) (f : α → Async S ε β) : Async S ε β :=
  ⟨p.prog.bind fun
    | .ok a => (f a).prog
    | .error e => .pure (.error e)⟩

def tryCatch (p : Async S ε α) (handler : ε → Async S ε α) : Async S ε α :=
  ⟨p.prog.bind fun
    | .ok a => .pure (.ok a)
    | .error e => (handler e).prog⟩

/-- The outcome of a synchronous computation that may throw. -/
def ofExcept (r : Except ε α) : Async S ε α := ⟨.pure r⟩

/-- One awaited call. -/
def await {Op : Type} {Res : Op → Type} (o : Op) : Async (Sig.throwing Op Res ε) ε (Res o) :=
  ⟨Prog.op (S := Sig.throwing Op Res ε) o⟩

instance : Monad (Async S ε) where
  pure := Async.pure
  bind := Async.bind

instance : MonadExceptOf ε (Async S ε) where
  throw := Async.throw
  tryCatch := Async.tryCatch

/-- Runs `f` on the elements in turn, stopping at the first exception. -/
def forEach (f : α → Async S ε Unit) : List α → Async S ε Unit
  | [] => Async.pure ()
  | a :: as => (f a).bind fun _ => forEach f as

/-- Runs `f` on the elements in turn, and collects what it returns. -/
def collect (f : α → Async S ε β) : List α → Async S ε (List β)
  | [] => Async.pure []
  | a :: as => (f a).bind fun b => (collect f as).bind fun bs => Async.pure (b :: bs)

end Async

/-- A function body with local variables `L`; the locals outlive an exception. -/
structure Method (S : Sig) (L ε α : Type) where
  body : L → Prog S (Except ε α × L)

namespace Method

def pure (a : α) : Method S L ε α := ⟨fun l => .pure (.ok a, l)⟩

def throw (e : ε) : Method S L ε α := ⟨fun l => .pure (.error e, l)⟩

def bind (p : Method S L ε α) (f : α → Method S L ε β) : Method S L ε β :=
  ⟨fun l => (p.body l).bind fun
    | (.ok a, l') => (f a).body l'
    | (.error e, l') => .pure (.error e, l')⟩

def tryCatch (p : Method S L ε α) (handler : ε → Method S L ε α) : Method S L ε α :=
  ⟨fun l => (p.body l).bind fun
    | (.ok a, l') => .pure (.ok a, l')
    | (.error e, l') => (handler e).body l'⟩

/-- A call of an async function that does not touch the locals. -/
def lift (p : Async S ε α) : Method S L ε α := ⟨fun l => p.prog.bind fun r => .pure (r, l)⟩

/-- Reads the locals. -/
def read : Method S L ε L := ⟨fun l => .pure (.ok l, l)⟩

/-- Assigns to the locals. -/
def assign (f : L → L) : Method S L ε Unit := ⟨fun l => .pure (.ok (), f l)⟩

/-- The method run as an async function, its locals starting as `l`. -/
def asAsync (p : Method S L ε α) (l : L) : Async S ε α := ⟨(p.body l).bind fun r => .pure r.1⟩

instance : Monad (Method S L ε) where
  pure := Method.pure
  bind := Method.bind

instance : MonadExceptOf ε (Method S L ε) where
  throw := Method.throw
  tryCatch := Method.tryCatch

instance : MonadLift (Async S ε) (Method S L ε) where
  monadLift := Method.lift

/-- Runs `f` on the elements in turn, stopping at the first exception. -/
def forEach (f : α → Method S L ε Unit) : List α → Method S L ε Unit
  | [] => Method.pure ()
  | a :: as => (f a).bind fun _ => forEach f as

end Method

/-! ## The rules -/

/-- The condition after a function that may throw: `K` where it returned, and `Kerr` where it
threw. -/
abbrev ends (K : Log S → A → α → Prop) (Kerr : Log S → A → ε → Prop) :
    Log S → A → Except ε α → Prop
  | log, s, .ok a => K log s a
  | log, s, .error e => Kerr log s e

/-- The condition after the first part of a sequence: `K` where it returned, and `Q` where it
threw. -/
def onOk (K : Log S → A → α → Prop) (Q : Log S → A → Except ε β → Prop) :
    Log S → A → Except ε α → Prop
  | log, s, .ok a => K log s a
  | log, s, .error e => Q log s (.error e)

/-- The condition after a `try` block: `Q` where it returned, and `K` where it threw. -/
def onError (K : Log S → A → ε → Prop) (Q : Log S → A → Except ε' α → Prop) :
    Log S → A → Except ε α → Prop
  | log, s, .ok a => Q log s (.ok a)
  | log, s, .error e => K log s e

section Rules

variable {E : Env S A} {P : CallSpec S A} {log : Log S} {s : A}

section Async

variable {Q : Log S → A → Except ε α → Prop}

@[simp] theorem onOk_ok {K : Log S → A → β → Prop} (b : β) :
    onOk K Q log s (.ok b) ↔ K log s b := Iff.rfl

@[simp] theorem onOk_error {K : Log S → A → β → Prop} (e : ε) :
    onOk K Q log s (.error e) ↔ Q log s (.error e) := Iff.rfl

@[simp] theorem onError_ok {K : Log S → A → ε' → Prop} (a : α) :
    onError K Q log s (.ok a) ↔ Q log s (.ok a) := Iff.rfl

@[simp] theorem onError_error {K : Log S → A → ε' → Prop} (e : ε') :
    onError K Q log s (.error e) ↔ K log s e := Iff.rfl

/-- The judgement for an async function. -/
def Async.Sat (E : Env S A) (P : CallSpec S A) (p : Async S ε α)
    (Q : Log S → A → Except ε α → Prop) (log : Log S) (s : A) : Prop :=
  p.prog.Sat E P Q log s

namespace Async

@[simp] theorem sat_pure (a : α) : (Async.pure a : Async S ε α).Sat E P Q log s ↔
    Q log s (.ok a) := Iff.rfl

@[simp] theorem sat_throw (e : ε) : (Async.throw e : Async S ε α).Sat E P Q log s ↔
    Q log s (.error e) := Iff.rfl

@[simp] theorem sat_ofExcept (r : Except ε α) : (Async.ofExcept r : Async S ε α).Sat E P Q log s ↔
    Q log s r := Iff.rfl

@[simp] theorem pure_eq (a : α) : (Pure.pure a : Async S ε α) = Async.pure a := rfl

@[simp] theorem bind_eq (p : Async S ε β) (f : β → Async S ε α) : p >>= f = p.bind f := rfl

@[simp] theorem throw_eq (e : ε) :
    (MonadExcept.throw e : Async S ε α) = Async.throw e := rfl

@[simp] theorem throwThe_eq (e : ε) :
    (throwThe ε e : Async S ε α) = Async.throw e := rfl

@[simp] theorem tryCatch_eq (p : Async S ε α) (f : ε → Async S ε α) :
    (MonadExcept.tryCatch p f) = p.tryCatch f := rfl

@[simp] theorem tryCatchThe_eq (p : Async S ε α) (f : ε → Async S ε α) :
    (tryCatchThe ε p f) = p.tryCatch f := rfl

@[simp] theorem map_eq (f : β → α) (p : Async S ε β) :
    f <$> p = p.bind fun b => Async.pure (f b) := rfl

theorem sat_bind (p : Async S ε β) (f : β → Async S ε α) :
    (p.bind f).Sat E P Q log s ↔
      p.Sat E P (onOk (fun log s b => (f b).Sat E P Q log s) Q) log s := by
  rw [Async.Sat, Async.bind, Prog.sat_bind]
  refine iff_of_eq (congrArg (fun R => p.prog.Sat E P R log s) ?_)
  funext log s r
  cases r <;> rfl

theorem sat_tryCatch (p : Async S ε α) (f : ε → Async S ε α) :
    (p.tryCatch f).Sat E P Q log s ↔
      p.Sat E P (onError (fun log s e => (f e).Sat E P Q log s) Q) log s := by
  rw [Async.Sat, Async.tryCatch, Prog.sat_bind]
  refine iff_of_eq (congrArg (fun R => p.prog.Sat E P R log s) ?_)
  funext log s r
  cases r <;> rfl

theorem sat_ite (c : Prop) [Decidable c] (p q : Async S ε α) :
    (if c then p else q).Sat E P Q log s ↔
      (c → p.Sat E P Q log s) ∧ (¬c → q.Sat E P Q log s) := by
  split <;> simp_all

theorem Sat.mono {p : Async S ε α} {Q' : Log S → A → Except ε α → Prop}
    (h : p.Sat E P Q log s) (hQ : ∀ log s r, Q log s r → Q' log s r) : p.Sat E P Q' log s :=
  Prog.Sat.post h hQ

/-- Two postconditions at once, where nothing is asked of the calls. -/
theorem Sat.also {p : Async S ε α} {Q' : Log S → A → Except ε α → Prop}
    (h : p.Sat E anyCall Q log s) (h' : p.Sat E anyCall Q' log s) :
    p.Sat E anyCall (fun log s r => Q log s r ∧ Q' log s r) log s :=
  (Prog.Sat.and h h').mono (fun _ _ _ _ _ _ _ => trivial) fun _ _ _ h => h

/-- What has happened before stays in the log. -/
theorem Sat.mem {p : Async S ε α} (h : p.Sat E anyCall Q log s) {e : Event S} (he : e ∈ log) :
    p.Sat E anyCall (fun log s r => Q log s r ∧ e ∈ log) log s := by
  have hkeeps : Keeps E anyCall (fun _ => True) fun log _ => e ∈ log :=
    ⟨fun _ _ _ _ h => h, fun _ _ _ _ _ _ h _ => ⟨trivial, List.mem_cons_of_mem _ h⟩⟩
  exact h.also ((Prog.only_true p.prog).sat hkeeps he)

/-- Sequencing from a known judgement for the first part. -/
theorem Sat.bind {p : Async S ε β} {f : β → Async S ε α} {R : Log S → A → Except ε β → Prop}
    (h : p.Sat E P R log s) (hok : ∀ log s b, R log s (.ok b) → (f b).Sat E P Q log s)
    (herr : ∀ log s e, R log s (.error e) → Q log s (.error e)) :
    (p.bind f).Sat E P Q log s := by
  refine (sat_bind p f).mpr (h.mono fun log s r hr => ?_)
  cases r with
  | ok b => exact hok _ _ _ hr
  | error e => exact herr _ _ _ hr

/-- A synchronous computation comes first: its outcome is known. -/
theorem Sat.bind_ofExcept {r : Except ε β} {f : β → Async S ε α}
    (hok : ∀ b, r = .ok b → (f b).Sat E P Q log s)
    (herr : ∀ e, r = .error e → Q log s (.error e)) :
    ((Async.ofExcept r).bind f).Sat E P Q log s := by
  refine (sat_bind _ f).mpr ?_
  cases r with
  | ok b => exact hok b rfl
  | error e => exact herr e rfl

/-- A loop keeps an invariant of the log and the state that each turn keeps. -/
theorem sat_forEach {f : β → Async S ε Unit} {I : Log S → A → Prop} {Q : Log S → A → Except ε Unit → Prop}
    (as : List β)
    (hstep : ∀ b ∈ as, ∀ log s, I log s →
      (f b).Sat E P (onOk (fun log s _ => I log s) Q) log s)
    (hend : ∀ log s, I log s → Q log s (.ok ())) (hI : I log s) :
    (forEach f as).Sat E P Q log s := by
  induction as generalizing log s with
  | nil => exact hend _ _ hI
  | cons b bs ih =>
    refine (sat_bind _ _).mpr ((hstep b (by simp) log s hI).mono fun log s r hr => ?_)
    cases r with
    | ok u => exact ih (fun b hb => hstep b (by simp [hb])) hr
    | error e => exact hr

end Async

end Async

/-- A call is awaited: the response, whatever it is, must do. -/
theorem Async.sat_await {Op : Type} {Res : Op → Type} {E : Env (Sig.throwing Op Res ε) A}
    {P : CallSpec (Sig.throwing Op Res ε) A} {log : Log (Sig.throwing Op Res ε)} {s : A} (o : Op)
    {Q : Log (Sig.throwing Op Res ε) → A → Except ε (Res o) → Prop} :
    (Async.await o).Sat E P Q log s ↔ ∀ m r s', E.rely s m → E.step log m o r s' →
      P log m o r s' ∧ Q (⟨o, r⟩ :: log) s' r := Iff.rfl

/-- Every call the function can ever make is in `C`. -/
def Async.Only (C : S.Op → Prop) (p : Async S ε α) : Prop := p.prog.Only C

namespace Async

variable {C : S.Op → Prop}

theorem only_pure (a : α) : (Async.pure a : Async S ε α).Only C := trivial

theorem only_throw (e : ε) : (Async.throw e : Async S ε α).Only C := trivial

theorem only_ofExcept (r : Except ε α) : (Async.ofExcept r : Async S ε α).Only C := trivial

theorem only_await {Op : Type} {Res : Op → Type} {C : Op → Prop} {o : Op} (h : C o) :
    (Async.await o : Async (Sig.throwing Op Res ε) ε (Res o)).Only C :=
  ⟨h, fun _ => trivial⟩

theorem Only.bind {p : Async S ε α} {f : α → Async S ε β} (hp : p.Only C)
    (hf : ∀ a, (f a).Only C) : (p.bind f).Only C := by
  refine Prog.Only.bind hp fun r => ?_
  cases r with
  | ok a => exact hf a
  | error e => trivial

theorem Only.map {p : Async S ε α} (f : α → β) (hp : p.Only C) : (f <$> p).Only C :=
  hp.bind fun a => only_pure (f a)

theorem Only.tryCatch {p : Async S ε α} {f : ε → Async S ε α} (hp : p.Only C)
    (hf : ∀ e, (f e).Only C) : (p.tryCatch f).Only C := by
  refine Prog.Only.bind hp fun r => ?_
  cases r with
  | ok a => trivial
  | error e => exact hf e

theorem Only.ite {c : Prop} [Decidable c] {p q : Async S ε α} (hp : p.Only C) (hq : q.Only C) :
    (if c then p else q).Only C := by
  split
  · exact hp
  · exact hq

theorem Only.mono {C' : S.Op → Prop} {p : Async S ε α} (hp : p.Only C) (h : ∀ o, C o → C' o) :
    p.Only C' :=
  Prog.Only.mono hp h

theorem Only.sat {I : Log S → A → Prop} {p : Async S ε α} (hp : p.Only C)
    (hkeeps : Keeps E P C I) (hI : I log s) : p.Sat E P (fun log s _ => I log s) log s :=
  Prog.Only.sat hp hkeeps hI

end Async

section Method

variable {Q : Log S → A → Except ε α → L → Prop} {l : L}

/-- The judgement for a method started with locals `l`. -/
def Method.Sat (E : Env S A) (P : CallSpec S A) (p : Method S L ε α)
    (Q : Log S → A → Except ε α → L → Prop) (log : Log S) (s : A) (l : L) : Prop :=
  (p.body l).Sat E P (fun log s r => Q log s r.1 r.2) log s

namespace Method

@[simp] theorem pure_eq (a : α) : (Pure.pure a : Method S L ε α) = Method.pure a := rfl

@[simp] theorem bind_eq (p : Method S L ε β) (f : β → Method S L ε α) : p >>= f = p.bind f := rfl

@[simp] theorem throw_eq (e : ε) :
    (MonadExcept.throw e : Method S L ε α) = Method.throw e := rfl

@[simp] theorem throwThe_eq (e : ε) :
    (throwThe ε e : Method S L ε α) = Method.throw e := rfl

@[simp] theorem tryCatch_eq (p : Method S L ε α) (f : ε → Method S L ε α) :
    (MonadExcept.tryCatch p f) = p.tryCatch f := rfl

@[simp] theorem tryCatchThe_eq (p : Method S L ε α) (f : ε → Method S L ε α) :
    (tryCatchThe ε p f) = p.tryCatch f := rfl

@[simp] theorem map_eq (f : β → α) (p : Method S L ε β) :
    f <$> p = p.bind fun b => Method.pure (f b) := rfl

@[simp] theorem liftM_eq (p : Async S ε α) : (liftM p : Method S L ε α) = Method.lift p := rfl

@[simp] theorem monadLift_eq (p : Async S ε α) :
    (monadLift p : Method S L ε α) = Method.lift p := rfl

@[simp] theorem sat_pure (a : α) : (Method.pure a : Method S L ε α).Sat E P Q log s l ↔
    Q log s (.ok a) l := Iff.rfl

@[simp] theorem sat_throw (e : ε) : (Method.throw e : Method S L ε α).Sat E P Q log s l ↔
    Q log s (.error e) l := Iff.rfl

@[simp] theorem sat_read {Q : Log S → A → Except ε L → L → Prop} :
    (Method.read : Method S L ε L).Sat E P Q log s l ↔ Q log s (.ok l) l := Iff.rfl

@[simp] theorem sat_assign {Q : Log S → A → Except ε Unit → L → Prop} (f : L → L) :
    (Method.assign f : Method S L ε Unit).Sat E P Q log s l ↔ Q log s (.ok ()) (f l) := Iff.rfl

theorem sat_asAsync (p : Method S L ε α) {Q : Log S → A → Except ε α → Prop} :
    (p.asAsync l).Sat E P Q log s ↔ p.Sat E P (fun log s r _ => Q log s r) log s l := by
  rw [Async.Sat, Method.asAsync, Prog.sat_bind]
  rfl

theorem sat_lift (p : Async S ε α) :
    (Method.lift p : Method S L ε α).Sat E P Q log s l ↔
      p.Sat E P (fun log s r => Q log s r l) log s := by
  rw [Method.Sat, Method.lift, Prog.sat_bind]
  rfl

theorem sat_bind (p : Method S L ε β) (f : β → Method S L ε α) :
    (p.bind f).Sat E P Q log s l ↔ p.Sat E P (fun log s r l =>
      onOk (fun log s b => (f b).Sat E P Q log s l) (fun log s r => Q log s r l) log s r)
      log s l := by
  rw [Method.Sat, Method.bind, Prog.sat_bind]
  refine iff_of_eq (congrArg (fun R => (p.body l).Sat E P R log s) ?_)
  funext log s r
  obtain ⟨r, l'⟩ := r
  cases r <;> rfl

theorem sat_tryCatch (p : Method S L ε α) (f : ε → Method S L ε α) :
    (p.tryCatch f).Sat E P Q log s l ↔ p.Sat E P (fun log s r l =>
      onError (fun log s e => (f e).Sat E P Q log s l) (fun log s r => Q log s r l) log s r)
      log s l := by
  rw [Method.Sat, Method.tryCatch, Prog.sat_bind]
  refine iff_of_eq (congrArg (fun R => (p.body l).Sat E P R log s) ?_)
  funext log s r
  obtain ⟨r, l'⟩ := r
  cases r <;> rfl

theorem sat_ite (c : Prop) [Decidable c] (p q : Method S L ε α) :
    (if c then p else q).Sat E P Q log s l ↔
      (c → p.Sat E P Q log s l) ∧ (¬c → q.Sat E P Q log s l) := by
  split <;> simp_all

theorem Sat.mono {p : Method S L ε α} {Q' : Log S → A → Except ε α → L → Prop}
    (h : p.Sat E P Q log s l) (hQ : ∀ log s r l, Q log s r l → Q' log s r l) :
    p.Sat E P Q' log s l :=
  Prog.Sat.post h fun log s r hr => hQ log s r.1 r.2 hr

/-- Two postconditions at once, where nothing is asked of the calls. -/
theorem Sat.also {p : Method S L ε α} {Q' : Log S → A → Except ε α → L → Prop}
    (h : p.Sat E anyCall Q log s l) (h' : p.Sat E anyCall Q' log s l) :
    p.Sat E anyCall (fun log s r l => Q log s r l ∧ Q' log s r l) log s l :=
  (Prog.Sat.and h h').mono (fun _ _ _ _ _ _ _ => trivial) fun _ _ _ h => h

/-- Sequencing from a known judgement for the first part. -/
theorem Sat.bind {p : Method S L ε β} {f : β → Method S L ε α}
    {R : Log S → A → Except ε β → L → Prop} (h : p.Sat E P R log s l)
    (hok : ∀ log s b l, R log s (.ok b) l → (f b).Sat E P Q log s l)
    (herr : ∀ log s e l, R log s (.error e) l → Q log s (.error e) l) :
    (p.bind f).Sat E P Q log s l := by
  refine (sat_bind p f).mpr (h.mono fun log s r l hr => ?_)
  cases r with
  | ok b => exact hok _ _ _ _ hr
  | error e => exact herr _ _ _ _ hr

/-- A call of an async function comes first. -/
theorem Sat.bind_lift {p : Async S ε β} {f : β → Method S L ε α}
    {R : Log S → A → Except ε β → Prop} (h : p.Sat E P R log s)
    (hok : ∀ log s b, R log s (.ok b) → (f b).Sat E P Q log s l)
    (herr : ∀ log s e, R log s (.error e) → Q log s (.error e) l) :
    ((Method.lift p).bind f).Sat E P Q log s l := by
  refine (sat_bind _ f).mpr ((sat_lift p).mpr (h.mono fun log s r hr => ?_))
  cases r with
  | ok b => exact hok _ _ _ hr
  | error e => exact herr _ _ _ hr

/-- A synchronous computation comes first: its outcome is known. -/
theorem Sat.bind_ofExcept {r : Except ε β} {f : β → Method S L ε α}
    (hok : ∀ b, r = .ok b → (f b).Sat E P Q log s l)
    (herr : ∀ e, r = .error e → Q log s (.error e) l) :
    ((Method.lift (Async.ofExcept r)).bind f).Sat E P Q log s l := by
  refine (sat_bind _ f).mpr ((sat_lift _).mpr ?_)
  cases r with
  | ok b => exact hok b rfl
  | error e => exact herr e rfl

theorem Sat.bind_read {f : L → Method S L ε α} (h : (f l).Sat E P Q log s l) :
    (Method.read.bind f).Sat E P Q log s l :=
  (sat_bind _ f).mpr h

theorem Sat.bind_assign {g : L → L} {f : Unit → Method S L ε α}
    (h : (f ()).Sat E P Q log s (g l)) : ((Method.assign g).bind f).Sat E P Q log s l :=
  (sat_bind _ f).mpr h

/-- A `try` block whose exceptions are caught, from a known judgement for the block. -/
theorem Sat.tryCatch {p : Method S L ε α} {f : ε → Method S L ε α}
    {R : Log S → A → Except ε α → L → Prop} (h : p.Sat E P R log s l)
    (hok : ∀ log s a l, R log s (.ok a) l → Q log s (.ok a) l)
    (herr : ∀ log s e l, R log s (.error e) l → (f e).Sat E P Q log s l) :
    (p.tryCatch f).Sat E P Q log s l := by
  refine (sat_tryCatch p f).mpr (h.mono fun log s r l hr => ?_)
  cases r with
  | ok b => exact hok _ _ _ _ hr
  | error e => exact herr _ _ _ _ hr

/-- A loop keeps an invariant indexed by the elements still to come. -/
theorem sat_forEach {f : β → Method S L ε Unit} {I : List β → Log S → A → L → Prop}
    {Q : Log S → A → Except ε Unit → L → Prop} (as : List β)
    (hstep : ∀ b bs log s l, I (b :: bs) log s l → (f b).Sat E P (fun log s r l =>
      onOk (fun log s _ => I bs log s l) (fun log s r => Q log s r l) log s r) log s l)
    (hend : ∀ log s l, I [] log s l → Q log s (.ok ()) l) (hI : I as log s l) :
    (forEach f as).Sat E P Q log s l := by
  induction as generalizing log s l with
  | nil => exact hend _ _ _ hI
  | cons b bs ih =>
    refine (sat_bind _ _).mpr ((hstep b bs log s l hI).mono fun log s r l hr => ?_)
    cases r with
    | ok u => exact ih hr
    | error e => exact hr

/-- Every call the method can ever make, whatever its locals, is in `C`. -/
def Only (C : S.Op → Prop) (p : Method S L ε α) : Prop := ∀ l, (p.body l).Only C

section Only

variable {C : S.Op → Prop}

theorem only_pure (a : α) : (Method.pure a : Method S L ε α).Only C := fun _ => trivial

theorem only_throw (e : ε) : (Method.throw e : Method S L ε α).Only C := fun _ => trivial

theorem only_read : (Method.read : Method S L ε L).Only C := fun _ => trivial

theorem only_assign (f : L → L) : (Method.assign f : Method S L ε Unit).Only C := fun _ => trivial

theorem only_lift {p : Async S ε α} (hp : p.Only C) : (Method.lift p : Method S L ε α).Only C :=
  fun _ => Prog.Only.bind hp fun _ => trivial

theorem Only.bind {p : Method S L ε α} {f : α → Method S L ε β} (hp : p.Only C)
    (hf : ∀ a, (f a).Only C) : (p.bind f).Only C := by
  refine fun l => Prog.Only.bind (hp l) fun r => ?_
  obtain ⟨r, l'⟩ := r
  cases r with
  | ok a => exact hf a l'
  | error e => trivial

theorem Only.mono {C' : S.Op → Prop} {p : Method S L ε α} (hp : p.Only C) (h : ∀ o, C o → C' o) :
    p.Only C' :=
  fun l => Prog.Only.mono (hp l) h

theorem Only.sat {I : Log S → A → Prop} {p : Method S L ε α} (hp : p.Only C)
    (hkeeps : Keeps E P C I) (hI : I log s) : p.Sat E P (fun log s _ _ => I log s) log s l :=
  Prog.Only.sat (hp l) hkeeps hI

end Only

/-- A method that finds its locals with `J` leaves them with `J`. -/
def Stays (J : L → Prop) (p : Method S L ε α) : Prop := ∀ l, J l → (p.body l).Leaves fun r => J r.2

section Stays

variable {J : L → Prop}

theorem stays_pure (a : α) : (Method.pure a : Method S L ε α).Stays J := fun _ h => h

theorem stays_throw (e : ε) : (Method.throw e : Method S L ε α).Stays J := fun _ h => h

theorem stays_read : (Method.read : Method S L ε L).Stays J := fun _ h => h

theorem stays_lift (p : Async S ε α) : (Method.lift p : Method S L ε α).Stays J :=
  fun _ h => (Prog.leaves_true p.prog).bind fun _ _ => h

theorem stays_assign {f : L → L} (hf : ∀ l, J l → J (f l)) :
    (Method.assign f : Method S L ε Unit).Stays J := hf

theorem Stays.bind {p : Method S L ε α} {f : α → Method S L ε β} (hp : p.Stays J)
    (hf : ∀ a, (f a).Stays J) : (p.bind f).Stays J := by
  refine fun l h => Prog.Leaves.bind (hp l h) fun r hr => ?_
  obtain ⟨r, l'⟩ := r
  cases r with
  | ok a => exact hf a l' hr
  | error e => exact hr

theorem Stays.tryCatch {p : Method S L ε α} {f : ε → Method S L ε α} (hp : p.Stays J)
    (hf : ∀ e, (f e).Stays J) : (p.tryCatch f).Stays J := by
  refine fun l h => Prog.Leaves.bind (hp l h) fun r hr => ?_
  obtain ⟨r, l'⟩ := r
  cases r with
  | ok a => exact hr
  | error e => exact hf e l' hr

theorem Stays.ite {c : Prop} [Decidable c] {p q : Method S L ε α} (hp : p.Stays J)
    (hq : q.Stays J) : (if c then p else q).Stays J := by
  split
  · exact hp
  · exact hq

theorem stays_forEach {f : α → Method S L ε Unit} (hf : ∀ a, (f a).Stays J) (as : List α) :
    (forEach f as).Stays J := by
  induction as with
  | nil => exact stays_pure ()
  | cons a as ih => exact (hf a).bind fun _ => ih

/-- What a method leaves its locals with may be added to its postcondition. -/
theorem Sat.stays {p : Method S L ε α} (h : p.Sat E P Q log s l) (hp : p.Stays J) (hJ : J l) :
    p.Sat E P (fun log s r l => Q log s r l ∧ J l) log s l :=
  Prog.Sat.leaves h (hp l hJ)

end Stays

end Method

end Method

end Rules

end Atomic
