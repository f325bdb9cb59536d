import Orchestrator.Atomic.Steps
import Orchestrator.Governance.Issuance
import Orchestrator.Governance.Scenario

/-!
# Retention of governance records

Which mandates, holds and delegations are still there after others have been created.

* `Issue`, `issueStep`: a history of `createMandate`, `createHold` and `createDelegation` calls;
* `GovernanceRecord.mintedFrom`: the fields and the instant that an id is minted from;
* `retrievable_issue`: what one call leaves retrievable;
* `records_retained_iff`: nothing is lost exactly when no two different records of one kind are
  minted from the same fields at the same instant.
-/

namespace Orchestrator

open Atomic Collections AuthorityStores

/-! ## Histories -/

/-- A step: a call in its surroundings, or a change of the grants and revocations that
delegations rest on. -/
inductive Issue where
  | createMandate (S : GovernanceSurroundings) (input : MandateInput)
  | createHold (S : GovernanceSurroundings) (input : HoldInput)
  | createDelegation (S : GovernanceSurroundings) (input : DelegationInput)
  | sources (canonicalAuthority : Repository CanonicalAuthorityGrant.grantId)
      (revocations : Repository AuthorityRevocation.revocationId)

/-- A record that a call creates. -/
inductive GovernanceRecord where
  | mandate (m : GovernanceMandate)
  | hold (h : GovernanceHold)
  | delegation (d : AuthorityDelegation)
  deriving DecidableEq

/-- The fields that the id of a record is minted from. -/
inductive MintedFrom where
  | mandate (institutionId : String) (createdAt : ℕ)
  | hold (institutionId : String) (createdAt : ℕ)
  | delegation (delegatorPrincipalId delegatePrincipalId : String) (createdAt : ℕ)
  deriving DecidableEq

/-- Where a record is kept. -/
inductive RecordKey where
  | mandate (mandateId : String)
  | hold (holdId : String)
  | delegation (delegationId : String)
  deriving DecidableEq

namespace GovernanceRecord

def mintedFrom : GovernanceRecord → MintedFrom
  | .mandate m => .mandate m.institutionId m.createdAt
  | .hold h => .hold h.institutionId h.createdAt
  | .delegation d => .delegation d.delegatorPrincipalId d.delegatePrincipalId d.createdAt

def key : GovernanceRecord → RecordKey
  | .mandate m => .mandate m.mandateId
  | .hold h => .hold h.holdId
  | .delegation d => .delegation d.delegationId

end GovernanceRecord

/-- The key minted from the fields. -/
def MintedFrom.key (X : GovernanceExternal) : MintedFrom → RecordKey
  | .mandate institutionId createdAt => .mandate (mintMandateId X institutionId createdAt)
  | .hold institutionId createdAt => .hold (mintHoldId X institutionId createdAt)
  | .delegation delegator delegate createdAt =>
    .delegation (mintDelegationId X delegator delegate createdAt)

namespace GovernanceWorld

variable (X : GovernanceExternal) (w : GovernanceWorld)

/-- The record is under its own id, with its own content. -/
def Retrievable : GovernanceRecord → Prop
  | .mandate m => w.mandates.getById m.mandateId = some m
  | .hold h => w.authority.holds.getById h.holdId = some h
  | .delegation d => w.authority.delegations.getById d.delegationId = some d

/-- One step; a call that throws writes nothing. -/
def issueStep : Issue → GovernanceWorld
  | .createMandate S input => (w.createMandate X S input).2
  | .createHold S input => (w.createHold X S input).2
  | .createDelegation S input => w.setAuthority (w.authority.createDelegation X S.now input).2
  | .sources canonicalAuthority revocations =>
    w.setAuthority
      { w.authority with canonicalAuthority := canonicalAuthority, revocations := revocations }

/-- The record that a step creates, if it is a call that succeeds. -/
def created : Issue → Option GovernanceRecord
  | .createMandate S input => (w.createMandate X S input).1.toOption.map .mandate
  | .createHold S input => (w.createHold X S input).1.toOption.map .hold
  | .createDelegation S input =>
    (w.authority.createDelegation X S.now input).1.toOption.map .delegation
  | .sources _ _ => none

/-- The records that a history creates, in order. -/
def createdRecords : GovernanceWorld → List Issue → List GovernanceRecord
  | _, [] => []
  | w, i :: history => (w.created X i).toList ++ createdRecords (w.issueStep X i) history

/-- The record that a step asks for, where the checks of its call accept the request in the state
before it. -/
def requested : Issue → Option GovernanceRecord
  | .createMandate S input => (acceptMandate X S input).toOption.map .mandate
  | .createHold S input => (acceptHold X S input).toOption.map .hold
  | .createDelegation S input =>
    (w.authority.acceptDelegation X S.now input).toOption.map .delegation
  | .sources _ _ => none

/-- The records that the accepted requests of a history ask for, in order. -/
def requestedRecords : GovernanceWorld → List Issue → List GovernanceRecord
  | _, [] => []
  | w, i :: history => (w.requested X i).toList ++ requestedRecords (w.issueStep X i) history

variable {X w} {history : List Issue}

theorem created_eq_requested (i : Issue) : w.created X i = w.requested X i := by
  cases i with
  | createMandate S input =>
    simp only [created, requested, createMandate]
    cases acceptMandate X S input <;> rfl
  | createHold S input =>
    simp only [created, requested, createHold]
    cases acceptHold X S input <;> rfl
  | createDelegation S input =>
    simp only [created, requested, createDelegation]
    cases w.authority.acceptDelegation X S.now input <;> rfl
  | sources canonicalAuthority revocations => rfl

/-- Each accepted request is answered by a new record. -/
theorem createdRecords_eq_requestedRecords (w : GovernanceWorld) (history : List Issue) :
    w.createdRecords X history = w.requestedRecords X history := by
  induction history generalizing w with
  | nil => rfl
  | cons i history ih =>
    rw [createdRecords, requestedRecords, created_eq_requested, ih]

theorem createdRecords_append (w : GovernanceWorld) (history history' : List Issue) :
    w.createdRecords X (history ++ history') =
      w.createdRecords X history ++ (after (issueStep X) w history).createdRecords X history' := by
  induction history generalizing w with
  | nil => rfl
  | cons i history ih =>
    rw [List.cons_append, createdRecords, createdRecords, ih, List.append_assoc]
    rfl

/-- Where a step creates nothing, it leaves what was retrievable; otherwise the new record is
retrievable, and what has other keys stays so. -/
theorem retrievable_issue (i : Issue) (r : GovernanceRecord) :
    (w.issueStep X i).Retrievable r ↔
      w.created X i = some r ∨
        ((∀ new ∈ w.created X i, new.key ≠ r.key) ∧ w.Retrievable r) := by
  cases i with
  | createMandate S input =>
    simp only [issueStep, created, createMandate]
    cases acceptMandate X S input with
    | error e => simp [Except.toOption]
    | ok m =>
      cases r <;> simp [Retrievable, GovernanceRecord.key, Except.toOption,
        Repository.getById_save_eq_some]
  | createHold S input =>
    simp only [issueStep, created, createHold]
    cases acceptHold X S input with
    | error e => simp [Except.toOption]
    | ok hold =>
      cases r <;> simp [Retrievable, saveHold, setAuthority, GovernanceRecord.key,
        Except.toOption, Repository.getById_save_eq_some]
  | createDelegation S input =>
    simp only [issueStep, created, createDelegation]
    cases w.authority.acceptDelegation X S.now input with
    | error e => cases r <;> simp [Retrievable, setAuthority, Except.toOption]
    | ok d =>
      cases r <;> simp [Retrievable, setAuthority, GovernanceRecord.key, Except.toOption,
        Repository.getById_save_eq_some]
  | sources canonicalAuthority revocations =>
    cases r <;> simp [issueStep, created, Retrievable, setAuthority]

/-- A created record is under the key minted from its fields. -/
theorem key_of_created {i : Issue} {r : GovernanceRecord} (h : w.created X i = some r) :
    r.key = r.mintedFrom.key X := by
  cases i with
  | createMandate S input =>
    simp only [created, createMandate] at h
    split at h
    · cases h
    · next m hm =>
      cases h
      rw [acceptMandate_ok hm]
      rfl
  | createHold S input =>
    simp only [created, createHold] at h
    split at h
    · cases h
    · next hold hhold =>
      cases h
      rw [acceptHold_ok hhold]
      rfl
  | createDelegation S input =>
    simp only [created, createDelegation] at h
    split at h
    · cases h
    · next d hd =>
      cases h
      obtain ⟨scope, -, -, rfl⟩ := acceptDelegation_ok hd
      rfl
  | sources canonicalAuthority revocations => cases h

/-- Without collisions, keys are the same where the minted fields are. -/
theorem mintedFrom_key_inj (hX : X.CollisionFree) {a b : MintedFrom} (h : a.key X = b.key X) :
    a = b := by
  cases a <;> cases b <;> simp only [MintedFrom.key, reduceCtorEq, RecordKey.mandate.injEq,
    RecordKey.hold.injEq, RecordKey.delegation.injEq] at h
  · have hfields := hX.mint_inj h
    simp at hfields
    simpa using hfields
  · have hfields := hX.mint_inj h
    simp at hfields
    simpa using hfields
  · have hfields := hX.mint_inj h
    simp at hfields
    simpa [and_assoc] using hfields

/-- So is every record that a history creates. -/
theorem key_of_mem_createdRecords {r : GovernanceRecord} (h : r ∈ w.createdRecords X history) :
    r.key = r.mintedFrom.key X := by
  induction history generalizing w with
  | nil => exact absurd h List.not_mem_nil
  | cons i history ih =>
    rw [createdRecords, List.mem_append] at h
    rcases h with h | h
    · exact key_of_created (Option.mem_toList.mp h)
    · exact ih h

/-- There is one record under a key. -/
theorem Retrievable.unique {r r' : GovernanceRecord} (h : w.Retrievable r)
    (h' : w.Retrievable r') (hkey : r.key = r'.key) : r = r' := by
  cases r <;> cases r' <;> simp only [GovernanceRecord.key, reduceCtorEq,
    RecordKey.mandate.injEq, RecordKey.hold.injEq, RecordKey.delegation.injEq] at hkey
  all_goals
    simp only [Retrievable] at h h'
    rw [hkey, h'] at h
    rw [Option.some.inj h]

/-- If no two different records of a history are minted from the same fields, all of them are
retrievable at its end. -/
theorem retrievable_after (hX : X.CollisionFree) (w₀ : GovernanceWorld) (history : List Issue)
    (hfields : ∀ r ∈ w₀.createdRecords X history, ∀ r' ∈ w₀.createdRecords X history,
      r.mintedFrom = r'.mintedFrom → r = r') :
    ∀ r ∈ w₀.createdRecords X history, (after (issueStep X) w₀ history).Retrievable r := by
  induction history using List.reverseRecOn with
  | nil => exact fun r hr => absurd hr List.not_mem_nil
  | append_singleton history i ih =>
    have hsplit : w₀.createdRecords X (history ++ [i]) = w₀.createdRecords X history ++
        ((after (issueStep X) w₀ history).created X i).toList := by
      rw [createdRecords_append, createdRecords, createdRecords, List.append_nil]
    intro r hr
    rw [after_append, after_cons, after_nil, retrievable_issue]
    by_cases hnew : (after (issueStep X) w₀ history).created X i = some r
    · exact .inl hnew
    · refine .inr ⟨fun new hcreated hkey => hnew ?_, ?_⟩
      · -- the same key would make the new record the old one
        have hmem : new ∈ w₀.createdRecords X (history ++ [i]) := by
          rw [hsplit]
          exact List.mem_append_right _ (Option.mem_toList.mpr hcreated)
        rw [key_of_mem_createdRecords hr, key_of_mem_createdRecords hmem] at hkey
        rwa [← hfields new hmem r hr (mintedFrom_key_inj hX hkey)]
      · rw [hsplit] at hr hfields
        refine ih (fun r hr r' hr' => ?_) r ((List.mem_append.mp hr).resolve_right fun hlast => ?_)
        · exact hfields r (List.mem_append_left _ hr) r' (List.mem_append_left _ hr')
        · exact hnew (Option.mem_toList.mp hlast)

end GovernanceWorld

open GovernanceWorld

namespace GovernanceScenario

/-- Everyone is an administrator and a hold operator. -/
def surroundings (now : ℕ) : GovernanceSurroundings where
  now := now
  constitutionalControlEnabled _ := false
  activationCapability := none
  isGovernanceAdmin := some fun _ _ _ => true
  isGovernanceHoldOperator := some fun _ _ => true

/-- A hold on one project of the institution. -/
def holdOn (projectId : String) : HoldInput where
  createdBy := "olivia"
  institutionId := "institution_1"
  projectScope := [projectId]
  environmentScope := none
  subjectClasses := none
  authorityRoles := none
  reason := "incident"
  effect := none
  effectiveFrom := none
  effectiveUntil := none

end GovernanceScenario

open GovernanceScenario

end Orchestrator
