import Orchestrator.Atomic.Guarded

/-!
# Triples under a guarded protocol

A triple says what a function knows before and after: of what its program holds, and of the shared
state, which others move while it waits.

* `Guarded.Stable`: knowledge that others do not take away;
* `Guarded.Triple`, with one rule for each way of building a function;
* `Guarded.Triple.frame`: what the moves of the protocol keep stays known;
* `Guarded.holdings_eq_foldr`: what a program holds is read off its calls.
-/

namespace Atomic

namespace Guarded

variable {Op : Type} {Res : Op → Type} {ι σ ω H ε α β : Type} [DecidableEq ι]
  {M : System (Sig.throwing Op Res ε) σ ω}

/-- Others leave it true, whatever they do. -/
def Stable (K : Guarded M ι H) (A : H → σ → Prop) : Prop :=
  ∀ h s s', K.moves s s' → A h s → A h s'

/-- From `A`, the function returns with `B` or throws with `F`, and keeps to the protocol. -/
def Triple (K : Guarded M ι H) (i : ι) (A : H → σ → Prop)
    (p : Async (Sig.throwing Op Res ε) ε α) (B : α → H → σ → Prop) (F : ε → H → σ → Prop) : Prop :=
  ∀ log a, A (a.2 i) a.1 → p.Sat (K.env i) K.Safe
    (ends (fun _ b v => B v (b.2 i) b.1) fun _ b e => F e (b.2 i) b.1) log a

variable {K : Guarded M ι H} {i : ι} {A A' : H → σ → Prop} {B B' : α → H → σ → Prop}
  {F F' : ε → H → σ → Prop} {p q : Async (Sig.throwing Op Res ε) ε α}

/-! ## Knowledge -/

omit [DecidableEq ι] in
theorem Stable.and (hA : K.Stable A) (hA' : K.Stable A') :
    K.Stable fun h s => A h s ∧ A' h s :=
  fun h _ _ hmoves hs => ⟨hA h _ _ hmoves hs.1, hA' h _ _ hmoves hs.2⟩

omit [DecidableEq ι] in
theorem stable_held {G : H → Prop} : K.Stable fun h _ => G h := fun _ _ _ _ h => h

/-! ## Rules -/

theorem triple_pure {v : α} (h : ∀ h s, A h s → B v h s) : K.Triple i A (Async.pure v) B F :=
  fun _ a hA => h (a.2 i) a.1 hA

theorem triple_throw {e : ε} (h : ∀ h s, A h s → F e h s) : K.Triple i A (Async.throw e) B F :=
  fun _ a hA => h (a.2 i) a.1 hA

theorem triple_ofExcept {r : Except ε α} (hok : ∀ v, r = .ok v → ∀ h s, A h s → B v h s)
    (herror : ∀ e, r = .error e → ∀ h s, A h s → F e h s) :
    K.Triple i A (Async.ofExcept r) B F := by
  intro log a hA
  cases r with
  | ok v => exact hok v rfl _ _ hA
  | error e => exact herror e rfl _ _ hA

theorem Triple.conseq (h : K.Triple i A p B F) (hA : ∀ h s, A' h s → A h s)
    (hB : ∀ v h s, B v h s → B' v h s) (hF : ∀ e h s, F e h s → F' e h s) :
    K.Triple i A' p B' F' := by
  intro log a ha
  refine (h log a (hA _ _ ha)).mono fun log b r hr => ?_
  cases r with
  | ok v => exact hB _ _ _ hr
  | error e => exact hF _ _ _ hr

theorem Triple.pre (h : K.Triple i A p B F) (hA : ∀ h s, A' h s → A h s) :
    K.Triple i A' p B F :=
  h.conseq hA (fun _ _ _ h => h) fun _ _ _ h => h

theorem Triple.post (h : K.Triple i A p B F) (hB : ∀ v h s, B v h s → B' v h s) :
    K.Triple i A p B' F :=
  h.conseq (fun _ _ h => h) hB fun _ _ _ h => h

/-- A fact that does not depend on the state is read off the precondition. -/
theorem Triple.of_pure {c : Prop} (h : c → K.Triple i A p B F) :
    K.Triple i (fun h s => c ∧ A h s) p B F :=
  fun log a ha => h ha.1 log a ha.2

theorem Triple.bind {f : α → Async (Sig.throwing Op Res ε) ε β} {C : β → H → σ → Prop}
    (hp : K.Triple i A p B F) (hf : ∀ v, K.Triple i (B v) (f v) C F) :
    K.Triple i A (p.bind f) C F :=
  fun log a ha => Async.Sat.bind (hp log a ha) (fun log b v hb => hf v log b hb)
    fun _ _ _ he => he

theorem Triple.tryCatch {f : ε → Async (Sig.throwing Op Res ε) ε α} {G : ε → H → σ → Prop}
    (hp : K.Triple i A p B G) (hf : ∀ e, K.Triple i (G e) (f e) B F) :
    K.Triple i A (p.tryCatch f) B F := by
  intro log a ha
  refine (Async.sat_tryCatch _ _).mpr ((hp log a ha).mono fun log b r hr => ?_)
  cases r with
  | ok v => exact hr
  | error e => exact hf e log b hr

theorem Triple.ite {c : Prop} [Decidable c] (hp : c → K.Triple i A p B F)
    (hq : ¬c → K.Triple i A q B F) : K.Triple i A (if c then p else q) B F := by
  split
  · next hc => exact hp hc
  · next hc => exact hq hc

/-- What the moves of the protocol keep is still known afterwards. -/
theorem Triple.frame {J : σ → Prop} (hJ : ∀ s s', K.moves s s' → J s → J s')
    (h : K.Triple i A p B F) :
    K.Triple i (fun h s => A h s ∧ J s) p (fun v h s => B v h s ∧ J s)
      fun e h s => F e h s ∧ J s := by
  intro log a ha
  refine (sat_moves (h log a ha.1)).post fun log b r hr => ?_
  obtain ⟨hr, hmoves⟩ := hr
  cases r with
  | ok v => exact ⟨hr, hJ _ _ hmoves ha.2⟩
  | error e => exact ⟨hr, hJ _ _ hmoves ha.2⟩

section Calls

variable {o : Op} {B : Res o → H → σ → Prop}

/-- A call is made while the invariant holds, and must keep it. -/
theorem triple_call (hA : K.Stable A) (hcall : ∀ log s (g : ι → H), K.inv (s, g) →
      K.guard i log s o → A (g i) s →
      K.inv ((M.handler o s).2,
        Function.update g i (K.note (g i) ⟨o, (M.handler o s).1⟩)) ∧
      K.moves s (M.handler o s).2 ∧
      (∀ v, (M.handler o s).1 = .ok v → B v (K.note (g i) ⟨o, .ok v⟩) (M.handler o s).2) ∧
      ∀ e, (M.handler o s).1 = .error e → F e (K.note (g i) ⟨o, .error e⟩) (M.handler o s).2) :
    K.Triple i A (Async.await o) B F := by
  intro log a ha
  refine (Async.sat_await o).mpr fun b r b' hrely hstep => ?_
  obtain ⟨hguard, hinv, hr, rfl⟩ := hstep
  have hb : A (b.2 i) b.1 := by
    rw [hrely.1]
    exact hA _ _ _ hrely.2 ha
  obtain ⟨hinv', hmoves, hok, herror⟩ := hcall log b.1 b.2 hinv hguard hb
  refine ⟨⟨hinv', hmoves⟩, ?_⟩
  have hheld : (K.after i b o).2 i = K.note (b.2 i) ⟨o, r⟩ := by
    rw [hr]
    exact Function.update_self ..
  cases r with
  | ok v =>
    change B v ((K.after i b o).2 i) (M.handler o b.1).2
    rw [hheld]
    exact hok v hr.symm
  | error e =>
    change F e ((K.after i b o).2 i) (M.handler o b.1).2
    rw [hheld]
    exact herror e hr.symm

end Calls

/-- What each of the calls that a function may make keeps, the function keeps. -/
theorem triple_only {C : Op → Prop} (hp : p.Only C)
    (hcall : ∀ o, C o → K.Triple i A (Async.await o) (fun _ => A) fun _ => A) :
    K.Triple i A p (fun _ => A) fun _ => A := by
  obtain ⟨prog⟩ := p
  intro log a ha
  change prog.Sat _ _ _ log a
  replace hp : prog.Only C := hp
  induction prog generalizing log a with
  | pure r =>
    cases r with
    | ok v => exact ha
    | error e => exact ha
  | call o k ih =>
    intro m r a' hm hs
    obtain ⟨hsafe, hafter⟩ := hcall o hp.1 log a ha m r a' hm hs
    refine ⟨hsafe, ih r _ _ ?_ (hp.2 r)⟩
    cases r with
    | ok v => exact hafter
    | error e => exact hafter

/-! ## Loops -/

/-- A loop that collects what its turns return, each with a property that stays. -/
theorem triple_collect {f : α → Async (Sig.throwing Op Res ε) ε β} {as : List α}
    {R : β → σ → Prop} (hR : ∀ b s s', K.moves s s' → R b s → R b s')
    (hf : ∀ a ∈ as, K.Triple i A (f a) (fun b h s => A h s ∧ R b s) F)
    (hF : ∀ e h s, F e h s → F' e h s) :
    K.Triple i A (Async.collect f as) (fun bs h s => A h s ∧ ∀ b ∈ bs, R b s) F' := by
  induction as with
  | nil => exact triple_pure fun _ _ h => ⟨h, fun _ hb => nomatch hb⟩
  | cons a as ih =>
    refine ((hf a List.mem_cons_self).conseq (fun _ _ h => h) (fun _ _ _ h => h) hF).bind
      fun b => ?_
    have hrest := ((ih fun c hc => hf c (List.mem_cons_of_mem _ hc)).frame
      (hR b)).conseq (fun _ _ h => h) (fun _ _ _ h => h) fun _ _ _ h => h.1
    refine hrest.bind fun bs => triple_pure fun h s hs => ⟨hs.1.1, fun c hc => ?_⟩
    rcases List.mem_cons.mp hc with rfl | hc
    · exact hs.2
    · exact hs.1.2 c hc

/-! ## Runs -/

section Runs

variable {S : Sig} {M : System S σ ω} {K : Guarded M ι H} {g : ι → H}
  {Q : ι → Log S → σ × (ι → H) → α → Prop} {pool : Pool S ι σ α}

/-- Every allowed action moves the shared state. -/
theorem Holds.act_moves (h : K.Holds g Q pool) (a : Action ι ω)
    (hallowed : pool.Allowed K.guard a) :
    K.moves pool.state (pool.act M a).state := by
  rcases pool.act_cases M a with ⟨i, o, k, rfl, hp, hcalls, hact⟩ | ⟨i, rfl, hact⟩ |
    ⟨e, rfl, hact⟩ | hact
  · unfold Pool.Allowed at hallowed
    rw [hcalls] at hallowed
    obtain ⟨b, hb, hsat⟩ := h.sat i _ hp
    obtain ⟨⟨-, hmoves⟩, -⟩ := hsat _ _ _ hb ⟨hallowed, h.inv, rfl, rfl⟩
    rw [hact]
    exact hmoves
  · rw [hact]
    exact K.moves_refl _
  · rw [hact]
    exact K.env_moves e _
  · rw [hact]
    exact K.moves_refl _

/-- Every run whose calls are all allowed moves the shared state. -/
theorem Holds.exec_moves (h : K.Holds g Q pool) (acts : List (Action ι ω))
    (hallowed : pool.AllAllowed M K.guard acts) : K.moves pool.state (pool.exec M acts).state :=
  (Along.keeps (I := fun pool' => K.Holds g Q pool' ∧ K.moves pool.state pool'.state)
    (fun _ a ha hpool => ⟨hpool.1.act a ha, K.moves_trans _ _ _ hpool.2 (hpool.1.act_moves a ha)⟩)
    hallowed ⟨h, K.moves_refl _⟩).2

end Runs

/-- Where every call is allowed, every run is. -/
theorem allAllowed_of_forall {S : Sig} {M : System S σ ω} (K : Guarded M ι H)
    (hguard : ∀ i log s o, K.guard i log s o) (acts : List (Action ι ω)) (pool : Pool S ι σ α) :
    pool.AllAllowed M K.guard acts := by
  induction acts generalizing pool with
  | nil => trivial
  | cons a acts ih =>
    refine ⟨?_, ih _⟩
    unfold Pool.Allowed
    cases pool.calls a with
    | none => trivial
    | some c => exact hguard _ _ _ _

/-! ## Holdings -/

/-- What a program holds is read off its own calls. -/
theorem holdings_eq_foldr {α : Type} (g : ι → H)
    (pool : Pool (Sig.throwing Op Res ε) ι σ α) (i : ι) :
    K.holdings g pool i = (pool.log i).foldr (fun e h => K.note h e) (g i) := by
  unfold Protocol.holdings Pool.log
  induction pool.history with
  | nil => rfl
  | cons e history ih =>
    rw [List.foldr_cons]
    by_cases hi : e.1 = i
    · rw [List.filter_cons_of_pos (by simpa using hi), List.map_cons, List.foldr_cons, ← ih,
        ← hi, Function.update_self]
    · rw [List.filter_cons_of_neg (by simpa using hi), Function.update_of_ne (Ne.symm hi), ih]

end Guarded

end Atomic
