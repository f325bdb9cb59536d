import Orchestrator.Atomic.Pool

/-!
# Runs that are serial

A pool of programs of which some calls commit: they change a part of the shared state, and the
other calls leave that part alone. If each commit of a program applies its program's own change to
the part as it is, a run leaves the part as the changes leave it that are made one after the other,
in the order of the commits.

* `Pool.commits`: the programs that committed, in order;
* `Serially`, `inOrder`: changes that are made one after the other;
* `Contract.Commits`: what the calls of a contract have to do with the part;
* `Contract.Holds.serial`: every run within the contract is serial;
* `System.Once`: calls of a kind that happens once in every run;
* `Advances`: records that are only ever replaced by records of a higher revision.
-/

namespace Atomic

variable {S : Sig} {ι σ ω α V : Type} [DecidableEq ι]

/-! ## Commits -/

/-- The programs whose calls committed, in the order of these calls. -/
def Pool.commits (commit : Event S → Bool) (pool : Pool S ι σ α) : List ι :=
  ((pool.history.filter fun e => commit e.2).map Prod.fst).reverse

section Commits

variable {commit : Event S → Bool} {pool : Pool S ι σ α}

omit [DecidableEq ι] in
@[simp] theorem Pool.commits_init (s : σ) (p : ι → Prog S α) :
    (Pool.init s p).commits commit = [] := rfl

/-- A program is among the commits as often as its own calls committed. -/
theorem Pool.count_commits (i : ι) :
    (pool.commits commit).count i = (pool.log i).countP commit := by
  rw [Pool.commits, List.count_reverse, Pool.log]
  induction pool.history with
  | nil => rfl
  | cons e history ih =>
    by_cases hcommit : commit e.2 = true
    · rw [List.filter_cons_of_pos (p := fun e : ι × Event S => commit e.2) hcommit,
        List.map_cons, List.count_cons, ih]
      by_cases hi : e.1 = i
      · rw [List.filter_cons_of_pos (by simpa using hi), List.map_cons,
          List.countP_cons_of_pos hcommit, if_pos (by simpa using hi)]
      · rw [List.filter_cons_of_neg (by simpa using hi), if_neg (by simpa using hi), Nat.add_zero]
    · rw [List.filter_cons_of_neg (p := fun e : ι × Event S => commit e.2) hcommit, ih]
      by_cases hi : e.1 = i
      · rw [List.filter_cons_of_pos (by simpa using hi), List.map_cons,
          List.countP_cons_of_neg hcommit]
      · rw [List.filter_cons_of_neg (by simpa using hi)]

end Commits

/-! ## Serial runs -/

section Serially

variable {ι : Type} {legal : ι → V → Prop} {change : ι → V → V} {v : V}

/-- The part after the changes of the programs, one after the other. -/
def inOrder (change : ι → V → V) (v : V) (is : List ι) : V := is.foldl (fun v i => change i v) v

/-- Each of the changes, one after the other, is made on a part that is legal for it. -/
def Serially (legal : ι → V → Prop) (change : ι → V → V) : V → List ι → Prop
  | _, [] => True
  | v, i :: is => legal i v ∧ Serially legal change (change i v) is

@[simp] theorem inOrder_nil : inOrder change v [] = v := rfl

@[simp] theorem inOrder_cons (i : ι) (is : List ι) :
    inOrder change v (i :: is) = inOrder change (change i v) is := rfl

theorem inOrder_concat (is : List ι) (i : ι) :
    inOrder change v (is ++ [i]) = change i (inOrder change v is) := by
  rw [inOrder, List.foldl_append]
  rfl

theorem serially_concat {is : List ι} {i : ι} : Serially legal change v (is ++ [i]) ↔
    Serially legal change v is ∧ legal i (inOrder change v is) := by
  induction is generalizing v with
  | nil => simp [Serially]
  | cons j is ih => rw [List.cons_append, Serially, Serially, ih, inOrder_cons, and_assoc]

/-- What every legal change keeps holds after them all. -/
theorem Serially.keeps {P : V → Prop} (hstep : ∀ i v, legal i v → P v → P (change i v))
    {is : List ι} (h : Serially legal change v is) (hv : P v) : P (inOrder change v is) := by
  induction is generalizing v with
  | nil => exact hv
  | cons i is ih => exact ih h.2 (hstep i v h.1 hv)

end Serially

namespace Contract

variable {M : System S σ ω} (K : Contract M ι)

/-- Of the calls within the contract, those of `commit` apply the change of their program to the
part of the state that `view` shows, which is legal for it, and the others leave the part alone,
as the environment does. -/
structure Commits (commit : Event S → Bool) (view : σ → V) (legal : ι → V → Prop)
    (change : ι → V → V) : Prop where
  applies : ∀ i log s o, K.inv s → K.cond i s o →
    K.spec i log s o (M.handler o s).1 (M.handler o s).2 →
    commit ⟨o, (M.handler o s).1⟩ = true →
    legal i (view s) ∧ view (M.handler o s).2 = change i (view s)
  other : ∀ i log s o, K.inv s → K.cond i s o →
    K.spec i log s o (M.handler o s).1 (M.handler o s).2 →
    commit ⟨o, (M.handler o s).1⟩ = false → view (M.handler o s).2 = view s
  env : ∀ e s, K.inv s → K.envCond e s → view (M.env e s) = view s

/-- The run so far is serial: its commits were legal one after the other, and left the part as it
is. -/
structure IsSerial (commit : Event S → Bool) (view : σ → V) (legal : ι → V → Prop)
    (change : ι → V → V) (v : V) (pool : Pool S ι σ α) : Prop where
  legal : Serially legal change v (pool.commits commit)
  state : view pool.state = inOrder change v (pool.commits commit)

variable {K} {Q : ι → Log S → σ → α → Prop} {pool : Pool S ι σ α} {commit : Event S → Bool}
  {view : σ → V} {legal : ι → V → Prop} {change : ι → V → V}

/-- One action: a commit applies its program's change, and anything else leaves the part alone. -/
theorem Holds.serial_act (h : K.Holds Q pool) (hcommits : K.Commits commit view legal change)
    {v : V} (a : Action ι ω) (hC : pool.Meets K.cond K.envCond a)
    (hserial : IsSerial commit view legal change v pool) :
    IsSerial commit view legal change v (pool.act M a) := by
  rcases pool.act_cases M a with ⟨i, o, k, rfl, hp, hcall, hact⟩ | ⟨i, rfl, hact⟩ |
    ⟨e, rfl, hact⟩ | hact
  · have hCi := hC.call hcall
    have hspec := (h.call hp hCi).1
    by_cases hcommit : commit ⟨o, (M.handler o pool.state).1⟩ = true
    · have hlist : (pool.act M (.run i : Action ι ω)).commits commit =
          pool.commits commit ++ [i] := by
        rw [hact, Pool.commits,
          List.filter_cons_of_pos (p := fun e : ι × Event S => commit e.2) hcommit,
          List.map_cons, List.reverse_cons]
        rfl
      obtain ⟨hlegal, hview⟩ := hcommits.applies i _ _ o h.inv hCi hspec hcommit
      constructor
      · rw [hlist, serially_concat, ← hserial.state]
        exact ⟨hserial.legal, hlegal⟩
      · rw [hlist, inOrder_concat, ← hserial.state, hact]
        exact hview
    · have hlist : (pool.act M (.run i : Action ι ω)).commits commit = pool.commits commit := by
        rw [hact, Pool.commits,
          List.filter_cons_of_neg (p := fun e : ι × Event S => commit e.2) hcommit]
        rfl
      have hview := hcommits.other i _ _ o h.inv hCi hspec (Bool.eq_false_iff.mpr hcommit)
      constructor
      · rw [hlist]
        exact hserial.legal
      · rw [hlist, ← hserial.state, hact]
        exact hview
  · rw [hact]
    exact ⟨hserial.legal, hserial.state⟩
  · rw [hact]
    exact ⟨hserial.legal, (hcommits.env e _ h.inv hC.env).trans hserial.state⟩
  · rw [hact]
    exact hserial

/-- Every run within the contract is serial. -/
theorem Holds.serial (h : K.Holds Q pool) (hcommits : K.Commits commit view legal change)
    (hnone : pool.commits commit = []) (acts : List (Action ι ω))
    (halong : pool.Along M K.cond K.envCond acts) :
    IsSerial commit view legal change (view pool.state) (pool.exec M acts) := by
  refine (Holds.exec_keeps (I := IsSerial commit view legal change (view pool.state))
    (fun _ a hholds hmeets hserial => hholds.serial_act hcommits a hmeets hserial) acts halong h
    ?_).2
  constructor
  · rw [hnone]
    trivial
  · rw [hnone]
    rfl

/-- Where a program may commit only once, it does so at most once in every run. -/
theorem Holds.commits_le_one (h : K.Holds Q pool)
    (honce : ∀ i log s o, K.inv s → K.cond i s o →
      K.spec i log s o (M.handler o s).1 (M.handler o s).2 →
      commit ⟨o, (M.handler o s).1⟩ = true → log.countP commit = 0)
    (hnone : pool.commits commit = []) (acts : List (Action ι ω))
    (halong : pool.Along M K.cond K.envCond acts) (i : ι) :
    ((pool.exec M acts).commits commit).count i ≤ 1 := by
  rw [Pool.count_commits]
  refine (Holds.exec_keeps (I := fun p => (p.log i).countP commit ≤ 1) ?_ acts halong h ?_).2
  · intro p a hholds hmeets hle
    rcases p.act_cases M a with ⟨j, o, k, rfl, hp, hcall, hact⟩ | ⟨j, rfl, hact⟩ |
      ⟨e, rfl, hact⟩ | hact
    · have hCj := hmeets.call hcall
      have hspec := (hholds.call hp hCj).1
      rw [hact]
      by_cases hj : j = i
      · subst hj
        by_cases hcommit : commit ⟨o, (M.handler o p.state).1⟩ = true
        · have hzero := honce j _ _ o hholds.inv hCj hspec hcommit
          simp only [Pool.log, List.filter_cons_of_pos, List.map_cons, decide_true,
            List.countP_cons_of_pos hcommit]
          exact Nat.succ_le_succ (Nat.le_of_eq hzero)
        · simp only [Pool.log, List.filter_cons_of_pos, List.map_cons, decide_true,
            List.countP_cons_of_neg hcommit]
          exact hle
      · simp only [Pool.log, hj, List.filter_cons_of_neg, decide_false, Bool.false_eq_true,
          not_false_eq_true]
        exact hle
    · rw [hact]
      exact hle
    · rw [hact]
      exact hle
    · rw [hact]
      exact hle
  · rw [← Pool.count_commits, hnone]
    exact Nat.zero_le 1

end Contract

/-! ## Calls that happen once -/

/-- A call of this kind is made only while something is unspent, and spends it; and what is spent
stays so. -/
structure System.Once (M : System S σ ω) (shot : Event S → Bool) (spent : σ → Prop) : Prop where
  fires : ∀ o s, shot ⟨o, (M.handler o s).1⟩ = true → ¬spent s ∧ spent (M.handler o s).2
  keeps : ∀ o s, spent s → spent (M.handler o s).2
  env : ∀ e s, spent s → spent (M.env e s)

namespace System.Once

variable {M : System S σ ω} {shot : Event S → Bool} {spent : σ → Prop} [DecidablePred spent]

/-- One action: what is left to spend, and the calls that spent it, grow no more together. -/
theorem act_le (h : M.Once shot spent) (pool : Pool S ι σ α) (a : Action ι ω) :
    ((pool.act M a).history.countP fun e => shot e.2) +
        (if spent (pool.act M a).state then 0 else 1) ≤
      (pool.history.countP fun e => shot e.2) + if spent pool.state then 0 else 1 := by
  have hle : ∀ {s' : σ}, (spent pool.state → spent s') →
      (if spent s' then 0 else 1) ≤ if spent pool.state then 0 else 1 := by
    intro s' hkeeps
    by_cases hs : spent pool.state
    · rw [if_pos hs, if_pos (hkeeps hs)]
    · rw [if_neg hs]
      split <;> decide
  rcases pool.act_cases M a with ⟨i, o, k, rfl, -, -, hact⟩ | ⟨i, rfl, hact⟩ | ⟨e, rfl, hact⟩ | hact
  · rw [hact]
    by_cases hshot : shot ⟨o, (M.handler o pool.state).1⟩ = true
    · obtain ⟨hunspent, hspent⟩ := h.fires o pool.state hshot
      rw [List.countP_cons_of_pos (p := fun e : ι × Event S => shot e.2) hshot, if_pos hspent,
        if_neg hunspent]
    · rw [List.countP_cons_of_neg (p := fun e : ι × Event S => shot e.2) hshot]
      exact Nat.add_le_add_left (hle (h.keeps o pool.state)) _
  · rw [hact]
  · rw [hact]
    exact Nat.add_le_add_left (hle (h.env e pool.state)) _
  · rw [hact]

/-- In every run such a call is made at most once, and none is made of what is spent at the
start. -/
theorem exec_le (h : M.Once shot spent) (pool : Pool S ι σ α) (acts : List (Action ι ω)) :
    ((pool.exec M acts).history.countP fun e => shot e.2) +
        (if spent (pool.exec M acts).state then 0 else 1) ≤
      (pool.history.countP fun e => shot e.2) + if spent pool.state then 0 else 1 := by
  induction acts generalizing pool with
  | nil => exact Nat.le_refl _
  | cons a acts ih => exact (ih _).trans (h.act_le pool a)

end System.Once

/-- Two calls of a kind that happens once are one. -/
theorem eq_of_countP_le_one {β : Type} {p : β → Bool} {l : List β} {a b : β} (h : l.countP p ≤ 1)
    (ha : a ∈ l) (hb : b ∈ l) (hpa : p a = true) (hpb : p b = true) : a = b := by
  rw [List.countP_eq_length_filter] at h
  have ha' : a ∈ l.filter p := List.mem_filter.mpr ⟨ha, hpa⟩
  have hb' : b ∈ l.filter p := List.mem_filter.mpr ⟨hb, hpb⟩
  generalize l.filter p = l' at h ha' hb'
  cases l' with
  | nil => cases ha'
  | cons c l' =>
    have hnil : l' = [] := List.length_eq_zero_iff.mp (Nat.le_zero.mp (Nat.le_of_succ_le_succ h))
    rw [hnil, List.mem_singleton] at ha' hb'
    exact ha'.trans hb'.symm

/-! ## Records with revisions -/

section Advances

variable {κ : Type} {revision : V → ℕ} {look look' look'' : κ → Option V} {k : κ} {v v' : V}

/-- From the first table of records to the second no record is lost, and one that is another has a
higher revision. -/
def Advances (revision : V → ℕ) (look look' : κ → Option V) : Prop :=
  ∀ k v, look k = some v → ∃ v', look' k = some v' ∧ (v' = v ∨ revision v < revision v')

theorem Advances.refl (look : κ → Option V) : Advances revision look look :=
  fun _ v h => ⟨v, h, .inl rfl⟩

theorem Advances.trans (h : Advances revision look look') (h' : Advances revision look' look'') :
    Advances revision look look'' := by
  intro k v hv
  obtain ⟨v', hv', hle⟩ := h k v hv
  obtain ⟨v'', hv'', hle'⟩ := h' k v' hv'
  refine ⟨v'', hv'', ?_⟩
  rcases hle with rfl | hlt
  · exact hle'
  · rcases hle' with rfl | hlt'
    · exact .inr hlt
    · exact .inr (hlt.trans hlt')

/-- A record is replaced by one of a higher revision. -/
theorem advances_of_replaced (hv : look k = some v) (hlt : revision v < revision v')
    (hat : look' k = some v') (hother : ∀ j, j ≠ k → look' j = look j) :
    Advances revision look look' := by
  intro j w hw
  by_cases hj : j = k
  · subst hj
    rw [hv, Option.some.injEq] at hw
    subst hw
    exact ⟨v', hat, .inr hlt⟩
  · exact ⟨w, (hother j hj).trans hw, .inl rfl⟩

end Advances

end Atomic
