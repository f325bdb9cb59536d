import Orchestrator.Graph.DepthFirst

/-!
# Parent chains

`parent a` is `none` where `a` is not known, `some none` where `a` is a root, and `some (some p)`
where `p` is the parent of `a`.

* `EndsAtRoot`, `Forest`: following the parents from a vertex, or from any vertex, ends at a root;
* `DepthIs`: how many parents a vertex has above it;
* `forest_update_iff`: when setting one parent leaves a forest;
* `comesTo`: a bounded walk along the parents; `comesTo_start`: what its answer means.
-/

namespace Graph

open Relation

variable {V : Type}

/-- Following the parents from a known vertex ends at a root. -/
inductive EndsAtRoot (parent : V → Option (Option V)) : V → Prop where
  | root {a : V} (h : parent a = some none) : EndsAtRoot parent a
  | child {a p : V} (h : parent a = some (some p)) (hp : EndsAtRoot parent p) : EndsAtRoot parent a

/-- Every known vertex ends at a root. -/
def Forest (parent : V → Option (Option V)) : Prop := ∀ a, (parent a).isSome → EndsAtRoot parent a

/-- A known vertex with so many parents above it, up to a root. -/
inductive DepthIs (parent : V → Option (Option V)) : V → ℕ → Prop
  | root {a : V} (h : parent a = some none) : DepthIs parent a 0
  | child {a p : V} {d : ℕ} (h : parent a = some (some p)) (hp : DepthIs parent p d) :
    DepthIs parent a (d + 1)

/-- `p` is the parent of `a`. -/
def Up (parent : V → Option (Option V)) (a p : V) : Prop := parent a = some (some p)

variable {parent : V → Option (Option V)} {a b p : V}

theorem EndsAtRoot.isSome (h : EndsAtRoot parent a) : (parent a).isSome := by
  cases h with
  | root h => rw [h]; rfl
  | child h _ => rw [h]; rfl

theorem EndsAtRoot.up (h : EndsAtRoot parent a) (hup : Up parent a p) : EndsAtRoot parent p := by
  cases h with
  | root h => exact nomatch h.symm.trans hup
  | child h hp =>
    obtain rfl : _ = p := by simpa using h.symm.trans hup
    exact hp

theorem DepthIs.endsAtRoot {d : ℕ} (h : DepthIs parent a d) : EndsAtRoot parent a := by
  induction h with
  | root h => exact .root h
  | child h _ ih => exact .child h ih

/-- A vertex has one depth. -/
theorem DepthIs.unique {d d' : ℕ} (h : DepthIs parent a d) (h' : DepthIs parent a d') : d = d' := by
  induction h generalizing d' with
  | root h =>
    cases h' with
    | root => rfl
    | child h' _ => exact nomatch h.symm.trans h'
  | child h _ ih =>
    cases h' with
    | root h' => exact nomatch h.symm.trans h'
    | child h' hp =>
      obtain ⟨⟩ := h.symm.trans h'
      rw [ih hp]

/-- More known vertices do not change the depth of a vertex. -/
theorem DepthIs.mono {parent' : V → Option (Option V)} {d : ℕ} (h : DepthIs parent a d)
    (hmore : ∀ b q, parent b = some q → parent' b = some q) : DepthIs parent' a d := by
  induction h with
  | root h => exact .root (hmore _ _ h)
  | child h _ ih => exact .child (hmore _ _ h) ih

/-- What is above a vertex that ends at a root ends at a root as well. -/
theorem EndsAtRoot.above (h : EndsAtRoot parent a) (hab : ReflTransGen (Up parent) a b) :
    EndsAtRoot parent b := by
  induction hab with
  | refl => exact h
  | tail _ hup ih => exact ih.up hup

theorem EndsAtRoot.acc (h : EndsAtRoot parent a) : Acc (fun p a => Up parent a p) a := by
  induction h with
  | root h => exact Acc.intro _ fun p hup => nomatch h.symm.trans hup
  | @child a p h _ ih =>
    refine Acc.intro a fun q hq => ?_
    obtain rfl : p = q := by simpa using h.symm.trans hq
    exact ih

/-- No cycle passes through a vertex that ends at a root. -/
theorem EndsAtRoot.not_cycle (h : EndsAtRoot parent a) : ¬TransGen (Up parent) a a := by
  intro hcycle
  exact not_transGen_self h.acc (transGen_swap.mpr hcycle)

/-- Only itself is above a root. -/
theorem eq_of_above_root (h : parent a = some none) (hab : ReflTransGen (Up parent) a b) :
    a = b := by
  rcases hab.cases_head with hab | ⟨p, hup, _⟩
  · exact hab
  · exact nomatch h.symm.trans hup

/-- A vertex that is not known is not on the chain of one that ends at a root. -/
theorem EndsAtRoot.not_above_unknown (h : EndsAtRoot parent p) (ha : parent a = none) :
    ¬ReflTransGen (Up parent) p a := by
  intro hpa
  have hsome := (h.above hpa).isSome
  rw [ha] at hsome
  exact nomatch hsome

section Update

variable [DecidableEq V] {q : Option V}

/-- Another parent of `a` does not matter to a vertex whose chain does not come to `a`. -/
theorem EndsAtRoot.update (h : EndsAtRoot parent b) (hab : ¬ReflTransGen (Up parent) b a) :
    EndsAtRoot (Function.update parent a (some q)) b := by
  induction h with
  | @root b h =>
    have hne : b ≠ a := fun heq => hab (heq ▸ .refl)
    exact .root (by rw [Function.update_of_ne hne, h])
  | @child b p h _ ih =>
    have hne : b ≠ a := fun heq => hab (heq ▸ .refl)
    refine .child (p := p) (by rw [Function.update_of_ne hne, h]) (ih ?_)
    exact fun hpa => hab (.head h hpa)

/-- A chain is kept up to `a`, if it comes there at all, and goes on from `a` as the new one does. -/
theorem EndsAtRoot.rejoin (h : EndsAtRoot parent b)
    (ha : EndsAtRoot (Function.update parent a (some q)) a) :
    EndsAtRoot (Function.update parent a (some q)) b := by
  induction h with
  | @root b h =>
    by_cases hba : b = a
    · exact hba ▸ ha
    · exact .root (by rw [Function.update_of_ne hba, h])
  | @child b p h _ ih =>
    by_cases hba : b = a
    · exact hba ▸ ha
    · exact .child (p := p) (by rw [Function.update_of_ne hba, h]) ih

/-- The way up to `a` is the same whatever is above `a`. -/
theorem above_update (hba : ReflTransGen (Up parent) b a) :
    ReflTransGen (Up (Function.update parent a (some q))) b a := by
  induction hba using ReflTransGen.head_induction_on with
  | refl => exact .refl
  | @head b c hbc _ ih =>
    by_cases hb : b = a
    · subst hb
      exact .refl
    · exact .head (by unfold Up; rw [Function.update_of_ne hb]; exact hbc) ih

/-- Where `a` gets a parent in a forest, a forest is left if the parent is known and its chain does
not come to `a`, and not otherwise. -/
theorem forest_update_iff (h : Forest parent) :
    Forest (Function.update parent a (some q)) ↔
      ∀ p ∈ q, (parent p).isSome ∧ ¬ReflTransGen (Up parent) p a := by
  have hself : Function.update parent a (some q) a = some q := Function.update_self ..
  constructor
  · intro hnew p hp
    obtain rfl : q = some p := hp
    have ha : EndsAtRoot (Function.update parent a (some (some p))) a :=
      hnew a (by rw [hself]; rfl)
    have hnot : ¬ReflTransGen (Up parent) p a := fun hpa =>
      ha.not_cycle (TransGen.head' hself (above_update hpa))
    have hne : p ≠ a := fun heq => hnot (heq ▸ .refl)
    have hsome := (ha.up hself).isSome
    rw [Function.update_of_ne hne] at hsome
    exact ⟨hsome, hnot⟩
  · intro hq
    have ha : EndsAtRoot (Function.update parent a (some q)) a := by
      cases q with
      | none => exact .root hself
      | some p =>
        obtain ⟨hsome, hnot⟩ := hq p rfl
        exact .child hself ((h p hsome).update hnot)
    intro b hb
    by_cases hba : b = a
    · exact hba ▸ ha
    · rw [Function.update_of_ne hba] at hb
      exact (h b hb).rejoin ha

/-- Where a new vertex gets a parent in a forest, a forest is left if the parent is known. -/
theorem forest_update_new_iff (h : Forest parent) (ha : parent a = none) :
    Forest (Function.update parent a (some q)) ↔ ∀ p ∈ q, (parent p).isSome := by
  rw [forest_update_iff h]
  refine forall₂_congr fun p _ => and_iff_left_of_imp fun hp => ?_
  exact (h p hp).not_above_unknown ha

end Update

/-! ## A bounded walk -/

section Walk

variable [DecidableEq V] (next : V → Option V) (target : V)

/-- Whether the walk from `current` comes to the target before it ends or comes to a vertex for the
second time. -/
def comesTo : ℕ → List V → Option V → Option Bool
  | _, _, none => some false
  | 0, _, some _ => none
  | fuel + 1, visited, some current =>
    if current = target then some true
    else if current ∈ visited then some false
    else comesTo fuel (current :: visited) (next current)

/-- The target is on the way that starts here. -/
def LeadsTo (current : Option V) : Prop :=
  ∃ c ∈ current, ReflTransGen (fun a p => next a = some p) c target

variable {next target}

omit [DecidableEq V] in
theorem leadsTo_some {c : V} (hc : c ≠ target) :
    LeadsTo next target (some c) ↔ LeadsTo next target (next c) := by
  constructor
  · rintro ⟨c', hc', hpath⟩
    obtain rfl : c = c' := Option.some.inj hc'
    rcases hpath.cases_head with heq | ⟨p, hp, hpath⟩
    · exact absurd heq hc
    · exact ⟨p, hp, hpath⟩
  · rintro ⟨p, hp, hpath⟩
    exact ⟨c, rfl, .head hp hpath⟩

omit [DecidableEq V] in
/-- A set of vertices that the walk does not leave has no way to a vertex outside it. -/
theorem not_leadsTo_of_closed {visited : List V} (htarget : target ∉ visited)
    (hclosed : ∀ v ∈ visited, ∀ p, next v = some p → p ∈ visited) {c : V} (hc : c ∈ visited) :
    ¬LeadsTo next target (some c) := by
  rintro ⟨c', hc', hpath⟩
  obtain rfl : c = c' := Option.some.inj hc'
  have hin : ∀ v, ReflTransGen (fun a p => next a = some p) c v → v ∈ visited := by
    intro v hv
    induction hv with
    | refl => exact hc
    | tail _ hp ih => exact hclosed _ ih _ hp
  exact htarget (hin target hpath)

/-- With more fuel than there are vertices with a next one, the walk has an answer, and the answer is
right. -/
theorem comesTo_spec {keys : List V} (hkeys : ∀ v, (next v).isSome → v ∈ keys) (fuel : ℕ)
    (visited : List V) (current : Option V) (hnodup : visited.Nodup) (htarget : target ∉ visited)
    (hchain : ∀ v ∈ visited, ∀ p, next v = some p → p ∈ visited ∨ current = some p)
    (hvisited : current.isSome → visited ⊆ keys) (hfuel : keys.length < fuel + visited.length) :
    ∃ b, comesTo next target fuel visited current = some b ∧
      (b = true ↔ LeadsTo next target current) := by
  induction fuel generalizing visited current with
  | zero =>
    cases current with
    | none => exact ⟨false, rfl, by simp [LeadsTo]⟩
    | some c =>
      have hle := (hnodup.subperm (hvisited rfl)).length_le
      omega
  | succ fuel ih =>
    cases current with
    | none => exact ⟨false, rfl, by simp [LeadsTo]⟩
    | some c =>
      unfold comesTo
      by_cases hc : c = target
      · rw [if_pos hc]
        exact ⟨true, rfl, iff_of_true rfl ⟨c, rfl, hc ▸ .refl⟩⟩
      rw [if_neg hc]
      by_cases hseen : c ∈ visited
      · rw [if_pos hseen]
        have hclosed : ∀ v ∈ visited, ∀ p, next v = some p → p ∈ visited := by
          intro v hv p hp
          rcases hchain v hv p hp with hin | heq
          · exact hin
          · exact Option.some.inj heq ▸ hseen
        exact ⟨false, rfl, iff_of_false Bool.false_ne_true
          (not_leadsTo_of_closed htarget hclosed hseen)⟩
      · rw [if_neg hseen, leadsTo_some hc]
        refine ih (c :: visited) (next c) (List.nodup_cons.mpr ⟨hseen, hnodup⟩) ?_ ?_ ?_ ?_
        · exact fun h => (List.mem_cons.mp h).elim (fun heq => hc heq.symm) htarget
        · intro v hv p hp
          rcases List.mem_cons.mp hv with rfl | hv
          · exact .inr hp
          · rcases hchain v hv p hp with hin | heq
            · exact .inl (List.mem_cons_of_mem c hin)
            · exact .inl (Option.some.inj heq ▸ List.mem_cons_self)
        · intro hsome
          exact List.cons_subset.mpr ⟨hkeys c hsome, hvisited rfl⟩
        · rw [List.length_cons]
          omega

/-- The walk from the start, with enough fuel. -/
theorem comesTo_start {keys : List V} (hkeys : ∀ v, (next v).isSome → v ∈ keys)
    (current : Option V) :
    comesTo next target (keys.length + 1) [] current = some true ↔
      LeadsTo next target current := by
  obtain ⟨b, hb, hiff⟩ := comesTo_spec hkeys (keys.length + 1) [] current List.nodup_nil
    List.not_mem_nil (fun _ h => nomatch h) (fun _ => List.nil_subset _) (Nat.lt_succ_self _)
  rw [hb, Option.some_inj, hiff]

end Walk

end Graph
