import Orchestrator.Governance.CaseCalls

/-!
# Moves of mandates and delegations

* `transitionMandate`, `transitionDelegation`: the CAS transitions of the repositories;
* `activateMandate`, `supersedeMandate`: the calls that move a mandate, with `requireMovable`, their
  checks;
* `PropertyOrders`, `acceptHashedMandate`: `createMandate`, for a caller whose objects have their
  properties in an order of their own. The hash is taken of the caller's objects, and the schema
  rebuilds them in its own order.
-/

namespace Orchestrator

open Collections

/-! ## Transitions -/

theorem MandateState.text_inj {a b : MandateState} (h : a.text = b.text) : a = b := by
  revert h
  cases a <;> cases b <;> decide

theorem DelegationState.text_inj {a b : DelegationState} (h : a.text = b.text) : a = b := by
  revert h
  cases a <;> cases b <;> decide

/-- Where something holds of every record, it does after a transition exactly if it holds of the
record that is moved. -/
theorem casTransition_forall {α : Type} {R : Revised α} {notFound : GovernanceFailure}
    {r : Repository R.id} {id fromStatus : String} {expectedRevision : ℕ} {moved : α → α}
    {P : α → Prop} (h : ∀ a ∈ r.list, P a) :
    (∀ a ∈ (casTransition R notFound r id fromStatus expectedRevision moved).2.list, P a) ↔
      ∀ a ∈ r.getById id, R.status a = fromStatus → R.revision a = expectedRevision →
        P (moved a) := by
  constructor
  · rintro hall a hget rfl rfl
    rw [casTransition_of_current notFound moved hget] at hall
    exact hall (moved a) (Repository.mem_list_save.mpr (.inl rfl))
  · intro hmoved
    rcases hcas : casTransition R notFound r id fromStatus expectedRevision moved with ⟨_ | b, r'⟩
    · rw [casTransition_error hcas]
      exact h
    · obtain ⟨existing, hget, hstatus, hrevision, -, rfl⟩ := casTransition_ok hcas
      intro a ha
      rcases Repository.mem_list_save.mp ha with rfl | ⟨ha, -⟩
      · exact hmoved existing hget hstatus hrevision
      · exact h a ha

namespace GovernanceWorld

variable (w : GovernanceWorld)

/-- `mandates.transition`. -/
def transitionMandate (mandateId : String) (fromStatus : MandateState) (expectedRevision : ℕ)
    (toStatus : MandateState) : Except GovernanceFailure GovernanceMandate × GovernanceWorld :=
  let (r, mandates) := casTransition mandateRevised
    (.governance .governanceMandateNotFound s!"Mandate {mandateId} not found") w.mandates mandateId
    fromStatus.text expectedRevision (movedMandate toStatus)
  (r, { w with mandates := mandates })

/-- `delegations.transition`. -/
def transitionDelegation (delegationId : String) (fromStatus : DelegationState)
    (expectedRevision : ℕ) (toStatus : DelegationState) :
    Except GovernanceFailure AuthorityDelegation × GovernanceWorld :=
  let (r, delegations) := casTransition delegationRevised
    (.governance .authorityDelegationNotFound s!"Delegation {delegationId} not found")
    w.authority.delegations delegationId fromStatus.text expectedRevision (movedDelegation toStatus)
  (r, w.setAuthority { w.authority with delegations := delegations })

/-! ## Activation and supersession -/

/-- What `activateMandate` and `supersedeMandate` are given. -/
structure MandateMoveInput where
  mandateId : String
  actorPrincipalId : String
  deriving DecidableEq, Repr

/-- `requireMandate`. -/
def requireMandate (mandateId : String) : Except GovernanceFailure GovernanceMandate :=
  match w.mandates.getById mandateId with
  | none => .error (.governance .governanceMandateNotFound s!"Mandate {mandateId} not found")
  | some m => .ok m

/-- The actor may make this mutation of the mandate. -/
def assertMayMove (S : GovernanceSurroundings) (mutation actorPrincipalId : String)
    (mandate : GovernanceMandate) : Except GovernanceFailure Unit := do
  assertConstitutionalMutationAllowed S mandate.institutionId mutation
  if !hasValidActivationCapability S mandate.institutionId then
    requireGovernanceAdmin S actorPrincipalId mandate.institutionId mandate.projectScope

/-- A mandate that the actor may move: `verb` is what the move does, from one of these states. -/
def requireMovable (S : GovernanceSurroundings) (mutation verb : String)
    (fromStates : List MandateState) (input : MandateMoveInput) :
    Except GovernanceFailure GovernanceMandate := do
  let mandate ← w.requireMandate input.mandateId
  assertMayMove S mutation input.actorPrincipalId mandate
  if mandate.status ∈ fromStates then pure mandate
  else
    throw (.governance .governanceMandateStateConflict
      (s!"Mandate {input.mandateId} cannot {verb} from " ++ mandate.status.text))

variable {w} in
/-- A mandate that may be moved is stored, in one of the states. -/
theorem requireMovable_ok {S : GovernanceSurroundings} {mutation verb : String}
    {fromStates : List MandateState} {input : MandateMoveInput} {m : GovernanceMandate}
    (h : w.requireMovable S mutation verb fromStates input = .ok m) :
    w.mandates.getById input.mandateId = some m ∧ m.status ∈ fromStates := by
  unfold requireMovable requireMandate at h
  cases hget : w.mandates.getById input.mandateId with
  | none =>
    rw [hget] at h
    cases h
  | some mandate =>
    rw [hget] at h
    simp only [bind, Except.bind] at h
    split at h
    · cases h
    · split_ifs at h with hstatus
      cases h
      exact ⟨rfl, hstatus⟩

/-- The mandate that `activateMandate` is about to move. -/
def requireActivatable (S : GovernanceSurroundings) (input : MandateMoveInput) :
    Except GovernanceFailure GovernanceMandate :=
  w.requireMovable S "activateMandate" "activate" [.draft, .suspended] input

/-- `activateMandate`. -/
def activateMandate (S : GovernanceSurroundings) (input : MandateMoveInput) :
    Except GovernanceFailure GovernanceMandate × GovernanceWorld :=
  match w.requireActivatable S input with
  | .error e => (.error e, w)
  | .ok m => w.transitionMandate input.mandateId m.status m.recordRevision .active

/-- The mandate that `supersedeMandate` is about to move. -/
def requireSupersedable (S : GovernanceSurroundings) (input : MandateMoveInput) :
    Except GovernanceFailure GovernanceMandate :=
  w.requireMovable S "supersedeMandate" "supersede" [.active] input

/-- `supersedeMandate`. -/
def supersedeMandate (S : GovernanceSurroundings) (input : MandateMoveInput) :
    Except GovernanceFailure GovernanceMandate × GovernanceWorld :=
  match w.requireSupersedable S input with
  | .error e => (.error e, w)
  | .ok m => w.transitionMandate input.mandateId .active m.recordRevision .superseded

end GovernanceWorld

/-! ## The caller's objects -/

/-- The orders in which a caller has the properties of its objects; what an order does not name
comes last, in the order of the schema. -/
structure PropertyOrders where
  quorumRequirement : List String
  separationOfDutyRules : List (List String)
  delegationPolicy : List String
  deriving DecidableEq, Repr

/-- `a` comes no later than `b`. -/
def ComesBefore (order : List String) (a b : String × Json) : Prop :=
  order.idxOf a.1 ≤ order.idxOf b.1

instance (order : List String) : DecidableRel (ComesBefore order) := fun a b =>
  inferInstanceAs (Decidable (order.idxOf a.1 ≤ order.idxOf b.1))

instance (order : List String) : Std.Total (ComesBefore order) :=
  ⟨fun a b => Nat.le_total (order.idxOf a.1) (order.idxOf b.1)⟩

instance (order : List String) : IsTrans (String × Json) (ComesBefore order) :=
  ⟨fun _ _ _ => Nat.le_trans⟩

/-- An object with its properties in the caller's order. -/
def arranged (order : List String) (fields : List (String × Json)) : Json :=
  .object (fields.insertionSort (ComesBefore order))

/-- The caller has these properties in the order that they are in. -/
def InOrder (order : List String) (fields : List (String × Json)) : Prop :=
  fields.Pairwise (ComesBefore order)

instance (order : List String) (fields : List (String × Json)) :
    Decidable (InOrder order fields) :=
  inferInstanceAs (Decidable (List.Pairwise _ _))

/-- An object is arranged as it is exactly when the caller has it in that order. -/
theorem arranged_eq_iff {order : List String} {fields : List (String × Json)} :
    arranged order fields = .object fields ↔ InOrder order fields := by
  unfold arranged InOrder
  rw [Json.object.injEq]
  constructor
  · intro h
    rw [← h]
    exact List.pairwise_insertionSort _ _
  · exact fun h => h.insertionSort_eq

/-- `createMandate`'s `delegationPolicy ?? {..}`. -/
def defaultDelegationPolicy : GovernanceDelegationPolicy := ⟨true, 1, false⟩

/-- A rule, with its place among the rules. -/
def arrangedRule (orders : PropertyOrders) (rule : SeparationOfDutyRule × ℕ) : Json :=
  arranged (orders.separationOfDutyRules.getD rule.2 []) rule.1.fields

/-- The objects of a request, as its caller built them. -/
def MandateInput.objects (input : MandateInput) (orders : PropertyOrders) : MandateObjects where
  quorumRequirement :=
    input.quorumRequirement.map fun req => arranged orders.quorumRequirement req.fields
  separationOfDutyRules :=
    (input.separationOfDutyRules.getD []).zipIdx.map (arrangedRule orders)
  delegationPolicy :=
    match input.delegationPolicy with
    | some policy => arranged orders.delegationPolicy policy.fields
    | none => .object defaultDelegationPolicy.fields
  resourceScope := resourceJson (input.resourceScope.getD [])

/-- The entries that the schema keeps. -/
def withoutProto (entries : List (String × ℚ)) : List (String × ℚ) :=
  entries.filter fun e => e.1 ≠ "__proto__"

/-- The mandate that a request becomes: hashed with the caller's objects inside, and stored with
those that the schema rebuilds. -/
def newHashedMandate (X : GovernanceExternal) (now : ℕ) (orders : PropertyOrders)
    (input : MandateInput) : GovernanceMandate :=
  let m := newMandate X now { input with resourceScope := input.resourceScope.map withoutProto }
  { m with mandateHash := mandateDigest X m (input.objects orders) }

/-- The mandate of a request that is accepted. -/
def acceptHashedMandate (X : GovernanceExternal) (S : GovernanceSurroundings)
    (orders : PropertyOrders) (input : MandateInput) :
    Except GovernanceFailure GovernanceMandate := do
  assertCreatable S input
  parseRecord mandateIssues (newHashedMandate X S.now orders input)

/-- The caller built its objects as the schema rebuilds them. -/
structure BuiltAsParsed (orders : PropertyOrders) (input : MandateInput) : Prop where
  quorumRequirement : ∀ req ∈ input.quorumRequirement,
    InOrder orders.quorumRequirement req.fields
  separationOfDutyRules : ∀ rule ∈ (input.separationOfDutyRules.getD []).zipIdx,
    InOrder (orders.separationOfDutyRules.getD rule.2 []) rule.1.fields
  delegationPolicy : ∀ policy ∈ input.delegationPolicy,
    InOrder orders.delegationPolicy policy.fields
  resourceScope : ∀ entry ∈ input.resourceScope.getD [], entry.1 ≠ "__proto__"

instance (orders : PropertyOrders) (input : MandateInput) :
    Decidable (BuiltAsParsed orders input) :=
  decidable_of_iff (_ ∧ _ ∧ _ ∧ _)
    ⟨fun ⟨hquorum, hrules, hpolicy, hscope⟩ => ⟨hquorum, hrules, hpolicy, hscope⟩,
      fun h => ⟨h.quorumRequirement, h.separationOfDutyRules, h.delegationPolicy, h.resourceScope⟩⟩

/-! ## Which mandates recompute to their hash -/

section Objects

variable {orders : PropertyOrders}

theorem quorum_built_iff (req : Option GovernanceQuorumRequirement) (order : List String) :
    Json.orNull id (req.map (·.json)) = Json.orNull id (req.map fun r => arranged order r.fields) ↔
      ∀ r ∈ req, InOrder order r.fields := by
  cases req with
  | none => simp
  | some r =>
    simp only [Option.map_some, Json.orNull, id_eq, Option.mem_def, Option.some.injEq, forall_eq']
    rw [← arranged_eq_iff]
    exact eq_comm

theorem rules_built_iff (rules : List SeparationOfDutyRule) :
    rules.map (·.json) = rules.zipIdx.map (arrangedRule orders) ↔
      ∀ rule ∈ rules.zipIdx,
        InOrder (orders.separationOfDutyRules.getD rule.2 []) rule.1.fields := by
  have hrules : rules.map (·.json) = rules.zipIdx.map fun rule => rule.1.json := by
    rw [← Function.comp_def SeparationOfDutyRule.json Prod.fst, ← List.map_map,
      List.zipIdx_map_fst]
  rw [hrules, List.map_inj_left]
  refine forall₂_congr fun rule _ => ?_
  rw [← arranged_eq_iff]
  exact eq_comm

theorem policy_built_iff (policy : Option GovernanceDelegationPolicy) (order : List String) :
    Json.object (policy.getD defaultDelegationPolicy).fields =
        (match policy with
          | some policy => arranged order policy.fields
          | none => .object defaultDelegationPolicy.fields) ↔
      ∀ p ∈ policy, InOrder order p.fields := by
  cases policy with
  | none => simp
  | some p =>
    simp only [Option.getD_some, Option.mem_def, Option.some.injEq, forall_eq']
    rw [← arranged_eq_iff]
    exact eq_comm

/-- The schema changes an envelope exactly where it drops an entry. -/
theorem resources_kept_iff (entries : List (String × ℚ)) :
    resourceJson (withoutProto entries) = resourceJson entries ↔
      ∀ entry ∈ entries, entry.1 ≠ "__proto__" := by
  unfold withoutProto
  constructor
  · intro h entry hentry
    rw [resourceJson, resourceJson, Json.object.injEq] at h
    have hlength := congrArg List.length h
    rw [List.length_map, List.length_map, List.length_filter_eq_length_iff] at hlength
    exact of_decide_eq_true (hlength entry hentry)
  · intro h
    rw [List.filter_eq_self.mpr fun entry hentry => decide_eq_true (h entry hentry)]

end Objects

variable {X : GovernanceExternal} {orders : PropertyOrders} {input : MandateInput}

/-- Without collisions, a digest tells the objects inside a mandate. -/
theorem mandateDigest_inj (hX : Function.Injective X.sha256) {m : GovernanceMandate}
    {o o' : MandateObjects} (h : mandateDigest X m o = mandateDigest X m o') :
    Json.orNull id o.quorumRequirement = Json.orNull id o'.quorumRequirement ∧
      o.separationOfDutyRules = o'.separationOfDutyRules ∧
      o.delegationPolicy = o'.delegationPolicy ∧ o.resourceScope = o'.resourceScope := by
  have hjson := Json.stringify_inj (hX h)
  simpa only [Json.object.injEq, List.cons.injEq, Prod.mk.injEq, Json.array.injEq, true_and,
    and_true] using hjson

/-- The objects of the mandate that is stored. -/
theorem objects_newHashedMandate (now : ℕ) :
    (newHashedMandate X now orders input).objects =
      { quorumRequirement := input.quorumRequirement.map (·.json)
        separationOfDutyRules := (input.separationOfDutyRules.getD []).map (·.json)
        delegationPolicy := .object (input.delegationPolicy.getD defaultDelegationPolicy).fields
        resourceScope := resourceJson (withoutProto (input.resourceScope.getD [])) } := by
  have hscope : (input.resourceScope.map withoutProto).getD [] =
      withoutProto (input.resourceScope.getD []) := by
    cases input.resourceScope <;> rfl
  rw [← hscope]
  rfl

/-- Its hash is of the caller's. -/
theorem mandateHash_newHashedMandate (now : ℕ) :
    (newHashedMandate X now orders input).mandateHash =
      mandateDigest X (newHashedMandate X now orders input) (input.objects orders) := rfl

/-- A mandate whose caller built its objects as the schema rebuilds them recomputes to its hash. -/
theorem mandateHash_of_builtAsParsed (now : ℕ) (h : BuiltAsParsed orders input) :
    computeMandateHash X (newHashedMandate X now orders input) =
      (newHashedMandate X now orders input).mandateHash := by
  rw [mandateHash_newHashedMandate, computeMandateHash, objects_newHashedMandate]
  unfold mandateDigest MandateInput.objects
  dsimp only
  rw [(quorum_built_iff _ _).mpr h.quorumRequirement,
    (rules_built_iff _).mpr h.separationOfDutyRules,
    (policy_built_iff _ _).mpr h.delegationPolicy,
    (resources_kept_iff _).mpr h.resourceScope]

/-- Such a call is one of the `createMandate` that hashes what the schema rebuilds. -/
theorem newHashedMandate_eq (now : ℕ) (h : BuiltAsParsed orders input) :
    newHashedMandate X now orders input = newMandate X now input := by
  have hinput : { input with resourceScope := input.resourceScope.map withoutProto } = input := by
    have hscope := h.resourceScope
    cases hentries : input.resourceScope with
    | none =>
      rw [Option.map_none, ← hentries]
    | some entries =>
      rw [hentries, Option.getD_some] at hscope
      rw [Option.map_some, withoutProto,
        List.filter_eq_self.mpr fun e he => decide_eq_true (hscope e he), ← hentries]
  have hhash := mandateHash_of_builtAsParsed (X := X) now h
  unfold newHashedMandate at hhash ⊢
  rw [hinput] at hhash ⊢
  dsimp only at hhash ⊢
  rw [← hhash]
  rfl

theorem acceptHashedMandate_eq (S : GovernanceSurroundings) (h : BuiltAsParsed orders input) :
    acceptHashedMandate X S orders input = acceptMandate X S input := by
  unfold acceptHashedMandate acceptMandate
  rw [newHashedMandate_eq S.now h]

theorem acceptHashedMandate_ok {S : GovernanceSurroundings} {m : GovernanceMandate}
    (h : acceptHashedMandate X S orders input = .ok m) :
    m = newHashedMandate X S.now orders input := by
  unfold acceptHashedMandate at h
  simp only [bind, Except.bind] at h
  split at h
  · cases h
  · exact (parseRecord_ok h).1

/-- Without collisions, no other mandate does. -/
theorem builtAsParsed_of_mandateHash (hX : Function.Injective X.sha256) {now : ℕ}
    (h : computeMandateHash X (newHashedMandate X now orders input) =
      (newHashedMandate X now orders input).mandateHash) : BuiltAsParsed orders input := by
  rw [mandateHash_newHashedMandate, computeMandateHash, objects_newHashedMandate] at h
  obtain ⟨hquorum, hrules, hpolicy, hscope⟩ := mandateDigest_inj hX h
  exact ⟨(quorum_built_iff _ _).mp hquorum, (rules_built_iff _).mp hrules,
    (policy_built_iff _ _).mp hpolicy, (resources_kept_iff _).mp hscope⟩

end Orchestrator
