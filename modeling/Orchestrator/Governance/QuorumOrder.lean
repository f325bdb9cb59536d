import Orchestrator.Collections.Seating
import Orchestrator.Governance.Quorum

/-!
# Quorums in every order

What the outcome of `evaluateGovernanceQuorum` depends on when the contributions and the required
roles come in another order. A role set gives its seats greedily, which is a `seatAll`.

* `outcome_eq`: the outcome, by the number of rejections and the approvals;
* `SeatsExact`: a role set is satisfied where its roles can be given to different principals;
* `Uncontested`: no order of roles and approvals can leave a role empty that could be filled;
* `quorum_exact_iff`: the outcome is free of the order and exact where that holds.
-/

namespace Orchestrator

open Collections GovernanceQuorum

variable {req : GovernanceQuorumRequirement} {contributions : List QuorumSeatContribution}

/-- The contributions that approve. -/
def approvalsOf (contributions : List QuorumSeatContribution) : List QuorumSeatContribution :=
  contributions.filter fun c => c.decision = .approve

/-- The contributions that reject. -/
def rejectsOf (contributions : List QuorumSeatContribution) : List QuorumSeatContribution :=
  contributions.filter fun c => c.decision = .reject

/-! ## Rejections -/

/-- Whether a number of rejections blocks. -/
def Blocks (req : GovernanceQuorumRequirement) (rejects : ℕ) : Prop :=
  0 < rejects ∧ req.rejectBlocksImmediately = true ∧
    (req.kind = .kOfN → ∃ threshold, req.rejectThreshold = some threshold ∧ threshold ≤ rejects)

theorem rejectsBlock_eq_none {rejects : List QuorumSeatContribution} :
    rejectsBlock req rejects = none ↔ ¬Blocks req rejects.length := by
  unfold rejectsBlock Blocks
  cases rejects with
  | nil => simp
  | cons r rs =>
    cases hblocks : req.rejectBlocksImmediately with
    | false => simp
    | true =>
      cases hkind : req.kind <;> cases hthreshold : req.rejectThreshold <;> simp

theorem rejectsBlock_outcome {rejects : List QuorumSeatContribution} {e : QuorumEvaluation}
    (h : rejectsBlock req rejects = some e) : e.outcome = .blocked := by
  unfold rejectsBlock at h
  split at h
  · exact nomatch h
  · split at h
    · exact nomatch h
    · split at h
      · split at h
        · split at h
          · rw [← Option.some.inj h]
          · exact nomatch h
        · exact nomatch h
      · rw [← Option.some.inj h]

open Classical in
/-- The outcome: the rejections block, or the approvals decide. -/
theorem outcome_eq (req : GovernanceQuorumRequirement)
    (contributions : List QuorumSeatContribution) :
    (evaluateGovernanceQuorum req contributions).outcome =
      if Blocks req (rejectsOf contributions).length then .blocked
      else (evaluateApprovals req (approvalsOf contributions)).outcome := by
  unfold evaluateGovernanceQuorum
  cases hblock : rejectsBlock req (contributions.filter fun c => c.decision = .reject) with
  | none => exact (if_neg (rejectsBlock_eq_none.mp hblock)).symm
  | some e =>
    have hblocks : Blocks req (rejectsOf contributions).length := by
      by_contra hnot
      exact nomatch hblock.symm.trans (rejectsBlock_eq_none.mpr hnot)
    rw [if_pos hblocks]
    exact rejectsBlock_outcome hblock

/-! ## Distinct principals -/

theorem keys_count (approvals : List QuorumSeatContribution) :
    (approvals.foldl Approvals.count ⟨.empty, []⟩).byPrincipal.keys =
      (approvals.map (·.principalId)).eraseDups := by
  induction approvals using List.reverseRecOn with
  | nil => rfl
  | append_singleton approvals a ih =>
    have hkeys : a.principalId ∈ approvals.map (·.principalId) ↔
        a.principalId ∈ (approvals.foldl Approvals.count ⟨.empty, []⟩).byPrincipal.keys := by
      rw [ih, List.mem_eraseDups]
    rw [List.foldl_append, List.foldl_cons, List.foldl_nil, List.map_append, List.map_singleton,
      eraseDups_concat]
    simp only [hkeys, ← ih]
    generalize approvals.foldl Approvals.count ⟨.empty, []⟩ = acc
    unfold Approvals.count
    cases hget : acc.byPrincipal.get a.principalId with
    | none =>
      have hnot : a.principalId ∉ acc.byPrincipal.keys := by simp [JsMap.mem_keys, hget]
      rw [if_neg hnot]
      exact (JsMap.keys_set ..).trans (if_neg hnot)
    | some existing =>
      have hmem : a.principalId ∈ acc.byPrincipal.keys := by simp [JsMap.mem_keys, hget]
      rw [if_pos hmem]
      dsimp only
      split <;> rfl

/-- How many principals are counted does not depend on the order of the approvals. -/
theorem length_principals_perm {approvals approvals' : List QuorumSeatContribution}
    (hperm : approvals'.Perm approvals) :
    ((approvals'.foldl Approvals.count ⟨.empty, []⟩).byPrincipal.values.map
        (·.principalId)).length =
      ((approvals.foldl Approvals.count ⟨.empty, []⟩).byPrincipal.values.map
        (·.principalId)).length := by
  have hlength : ∀ m : JsMap String QuorumSeatContribution,
      (m.values.map (·.principalId)).length = m.keys.length := by
    intro m
    simp [JsMap.values, JsMap.keys]
  rw [hlength, hlength, keys_count, keys_count]
  exact (eraseDups_perm (hperm.map _)).length_eq

theorem countTo_outcome {principals principals' reasons reasons' : List String} {needed : ℕ}
    {missing missing' : String} (h : principals'.length = principals.length) :
    (countTo principals' reasons' needed missing').outcome =
      (countTo principals reasons needed missing).outcome := by
  unfold countTo
  rw [h]
  split <;> rfl

/-- Only role sets look at more than the number of distinct principals. -/
theorem evaluateApprovals_perm (hkind : req.kind ≠ .roleSet)
    {approvals approvals' : List QuorumSeatContribution} (hperm : approvals'.Perm approvals)
    {roles' : List String} (hroles : roles'.Perm req.roles) :
    (evaluateApprovals { req with roles := roles' } approvals').outcome =
      (evaluateApprovals req approvals).outcome := by
  have hlength := length_principals_perm hperm
  unfold evaluateApprovals
  cases hreq : req.kind with
  | anyOne => exact countTo_outcome hlength
  | kOfN => exact countTo_outcome hlength
  | allOf =>
    simp only [hroles.length_eq]
    split
    · rfl
    · exact countTo_outcome hlength
  | roleSet => exact absurd hreq hkind

/-! ## Role sets -/

/-- The seats of the source after the offers that were taken. -/
def seatsOf (taken : List QuorumSeatContribution) : Seats :=
  ⟨taken.map (·.authorityRole), taken.map (·.principalId)⟩

theorem fill_seatsOf (approvals taken : List QuorumSeatContribution) (role : String) :
    (seatsOf taken).fill approvals role =
      seatsOf (seatNext (·.authorityRole) (·.principalId) approvals taken role) := by
  unfold Seats.fill seatNext seatsOf
  dsimp only
  cases hfind : approvals.find? fun a =>
      a.authorityRole = role && !(taken.map (·.principalId)).contains a.principalId with
  | none => rfl
  | some a =>
    have hrole : a.authorityRole = role := by
      have hpred := List.find?_some hfind
      simp only [Bool.and_eq_true, decide_eq_true_eq] at hpred
      exact hpred.1
    simp [hrole]

/-- The offers that a role set takes. -/
def roleSeats (roles : List String) (approvals : List QuorumSeatContribution) :
    List QuorumSeatContribution :=
  seatAll (·.authorityRole) (·.principalId) approvals roles.eraseDups

theorem foldl_fill (approvals : List QuorumSeatContribution) (roles : List String) :
    roles.foldl (Seats.fill approvals) ⟨[], []⟩ =
      seatsOf (seatAll (·.authorityRole) (·.principalId) approvals roles) := by
  suffices h : ∀ taken, roles.foldl (Seats.fill approvals) (seatsOf taken) =
      seatsOf (roles.foldl (seatNext (·.authorityRole) (·.principalId) approvals) taken) from h []
  induction roles with
  | nil => exact fun _ => rfl
  | cons role roles ih =>
    intro taken
    rw [List.foldl_cons, List.foldl_cons, fill_seatsOf]
    exact ih _

theorem evaluateRoleSet_outcome (req : GovernanceQuorumRequirement)
    (approvals : List QuorumSeatContribution) (reasons : List String) :
    (evaluateRoleSet req approvals reasons).outcome =
      if req.roles.eraseDups = [] then .blocked
      else if (roleSeats req.roles approvals).length = req.roles.eraseDups.length then .satisfied
      else .pending := by
  unfold evaluateRoleSet
  dsimp only
  rw [foldl_fill]
  by_cases hnone : req.roles.eraseDups = []
  · rw [if_pos hnone, if_pos hnone]
  · rw [if_neg hnone, if_neg hnone]
    show (if (seatsOf (roleSeats req.roles approvals)).filled.length = req.roles.eraseDups.length
      then _ else _ : QuorumEvaluation).outcome = _
    rw [seatsOf, List.length_map]
    by_cases hfull : (roleSeats req.roles approvals).length = req.roles.eraseDups.length
    · rw [if_pos hfull, if_pos hfull]
    · rw [if_neg hfull, if_neg hfull]

theorem evaluateApprovals_roleSet (hkind : req.kind = .roleSet)
    (approvals : List QuorumSeatContribution) :
    (evaluateApprovals req approvals).outcome =
      if req.roles.eraseDups = [] then .blocked
      else if (roleSeats req.roles approvals).length = req.roles.eraseDups.length then .satisfied
      else .pending := by
  unfold evaluateApprovals
  rw [hkind]
  exact evaluateRoleSet_outcome req approvals _

/-! ## Order and exactness -/

/-- The outcome is the same for every order of the contributions and of the roles. -/
def OrderFree (req : GovernanceQuorumRequirement)
    (contributions : List QuorumSeatContribution) : Prop :=
  ∀ (roles' : List String) (contributions' : List QuorumSeatContribution),
    roles'.Perm req.roles → contributions'.Perm contributions →
      (evaluateGovernanceQuorum { req with roles := roles' } contributions').outcome =
        (evaluateGovernanceQuorum req contributions).outcome

/-- The required roles can be given to different principals who approved under them. -/
def RolesAssignable (req : GovernanceQuorumRequirement)
    (contributions : List QuorumSeatContribution) : Prop :=
  Assignable (·.authorityRole) (·.principalId) (approvalsOf contributions) req.roles

/-- All who approved under some required role can be given other ones under which they approved. -/
def RoleStuck (req : GovernanceQuorumRequirement)
    (contributions : List QuorumSeatContribution) : Prop :=
  Stuck (·.authorityRole) (·.principalId) (approvalsOf contributions) req.roles

/-- Without rejections, a role set is satisfied exactly where its roles can be assigned. -/
def SeatsExact (req : GovernanceQuorumRequirement)
    (contributions : List QuorumSeatContribution) : Prop :=
  req.kind = .roleSet → (∀ c ∈ contributions, c.decision ≠ .reject) →
    ((evaluateGovernanceQuorum req contributions).outcome = .satisfied ↔
      RolesAssignable req contributions)

/-- No role set is asked for, or a rejection blocks it, or it is one whose seats are the same in
every order: they cannot all be given, or nobody's first seat can leave a role empty. -/
def Uncontested (req : GovernanceQuorumRequirement)
    (contributions : List QuorumSeatContribution) : Prop :=
  req.kind ≠ .roleSet ∨
  (req.rejectBlocksImmediately = true ∧ ∃ c ∈ contributions, c.decision = .reject) ∨
  ((req.roles ≠ [] ∨ ∃ c ∈ contributions, c.decision = .reject) ∧
    (¬RolesAssignable req contributions ∨ ¬RoleStuck req contributions))

section

variable {roles' : List String} {contributions' : List QuorumSeatContribution}

theorem blocks_perm (roles' : List String) (hcontributions : contributions'.Perm contributions) :
    Blocks { req with roles := roles' } (rejectsOf contributions').length ↔
      Blocks req (rejectsOf contributions).length := by
  have hlength : (rejectsOf contributions').length = (rejectsOf contributions).length :=
    (hcontributions.filter _).length_eq
  rw [hlength]
  rfl

theorem rejectsOf_pos :
    0 < (rejectsOf contributions).length ↔ ∃ c ∈ contributions, c.decision = .reject := by
  rw [List.length_pos_iff_exists_mem]
  simp [rejectsOf]

/-- A role set is blocked by any rejection, where rejections block at once. -/
theorem blocks_roleSet (hkind : req.kind = .roleSet) :
    Blocks req (rejectsOf contributions).length ↔
      req.rejectBlocksImmediately = true ∧ ∃ c ∈ contributions, c.decision = .reject := by
  unfold Blocks
  rw [rejectsOf_pos, hkind]
  simp [and_comm]

theorem eraseDups_eq_nil {roles : List String} : roles.eraseDups = [] ↔ roles = [] := by
  cases roles with
  | nil => simp
  | cons role roles => simp [List.eraseDups_cons]

/-- The outcome of a role set that no rejection blocks. -/
theorem outcome_roleSet (req : GovernanceQuorumRequirement) (hkind : req.kind = .roleSet)
    (hblocks : ¬Blocks req (rejectsOf contributions).length) :
    (evaluateGovernanceQuorum req contributions).outcome =
      if req.roles = [] then .blocked
      else if (roleSeats req.roles (approvalsOf contributions)).length =
        req.roles.eraseDups.length then .satisfied
      else .pending := by
  rw [outcome_eq, if_neg hblocks, evaluateApprovals_roleSet hkind]
  simp only [eraseDups_eq_nil]

/-- Being assignable is a matter of the roles, not of how often they are named. -/
theorem assignable_congr {approvals approvals' : List QuorumSeatContribution}
    {roles : List String} (hperm : approvals'.Perm approvals)
    (hroles : ∀ role, role ∈ roles' ↔ role ∈ roles) :
    Assignable (·.authorityRole) (·.principalId) approvals' roles' ↔
      Assignable (·.authorityRole) (·.principalId) approvals roles := by
  unfold Assignable
  simp only [Offered.perm hperm, hroles]

theorem stuck_congr {approvals approvals' : List QuorumSeatContribution}
    {roles : List String} (hperm : approvals'.Perm approvals)
    (hroles : ∀ role, role ∈ roles' ↔ role ∈ roles) :
    Stuck (·.authorityRole) (·.principalId) approvals' roles' ↔
      Stuck (·.authorityRole) (·.principalId) approvals roles := by
  unfold Stuck
  simp only [Offered.perm hperm, hroles]

/-- Whatever the order: where all seats are given, the roles can be assigned. -/
theorem assignable_of_roleSeats (hroles : roles'.Perm req.roles)
    (hcontributions : contributions'.Perm contributions)
    (hfull : (roleSeats roles' (approvalsOf contributions')).length = roles'.eraseDups.length) :
    RolesAssignable req contributions := by
  have hassignable := assignable_of_full hfull (nodup_eraseDups roles')
  refine (assignable_congr (hcontributions.filter _) fun role => ?_).mp hassignable
  rw [List.mem_eraseDups, hroles.mem_iff]

theorem roleStuck_of_roleSeats (hroles : roles'.Perm req.roles)
    (hcontributions : contributions'.Perm contributions)
    (hfull : (roleSeats roles' (approvalsOf contributions')).length ≠ roles'.eraseDups.length) :
    RoleStuck req contributions := by
  have hstuck := stuck_of_not_full hfull (nodup_eraseDups roles')
  refine (stuck_congr (hcontributions.filter _) fun role => ?_).mp hstuck
  rw [List.mem_eraseDups, hroles.mem_iff]

/-- The approvals can come in any order. -/
theorem exists_contributions {approvals' : List QuorumSeatContribution}
    (hperm : approvals'.Perm (approvalsOf contributions)) :
    ∃ contributions' : List QuorumSeatContribution, contributions'.Perm contributions ∧
      approvalsOf contributions' = approvals' := by
  have hrejects : (contributions.filter fun c => !decide (c.decision = .approve)).filter
      (fun c => c.decision = .approve) = [] := by
    rw [List.filter_filter, List.filter_eq_nil_iff]
    simp
  have happrove : ∀ c ∈ approvals', decide (c.decision = .approve) = true := by
    intro c hc
    exact (List.mem_filter.mp (hperm.mem_iff.mp hc)).2
  refine ⟨approvals' ++ contributions.filter fun c => !decide (c.decision = .approve), ?_, ?_⟩
  · exact (hperm.append_right _).trans (List.filter_append_perm _ contributions)
  · unfold approvalsOf
    rw [List.filter_append, hrejects, List.append_nil, List.filter_eq_self]
    exact happrove

/-- Where the roles can be assigned, they are in some order. -/
theorem exists_satisfied_order (h : RolesAssignable req contributions) :
    ∃ contributions' : List QuorumSeatContribution, contributions'.Perm contributions ∧
      (roleSeats req.roles (approvalsOf contributions')).length = req.roles.eraseDups.length := by
  have hassignable : Assignable (·.authorityRole) (·.principalId) (approvalsOf contributions)
      req.roles.eraseDups :=
    (assignable_congr (List.Perm.refl _) fun role => List.mem_eraseDups).mpr h
  obtain ⟨approvals', hperm, hfull⟩ := exists_full_order hassignable (nodup_eraseDups _)
  obtain ⟨contributions', hcontributions, rfl⟩ := exists_contributions hperm
  exact ⟨contributions', hcontributions, hfull⟩

/-- Where all who approved under a role can sit elsewhere, it stays empty in some order. -/
theorem exists_pending_order (h : RoleStuck req contributions) :
    ∃ (roles' : List String) (contributions' : List QuorumSeatContribution),
      roles'.Perm req.roles ∧ contributions'.Perm contributions ∧
      (roleSeats roles' (approvalsOf contributions')).length ≠ roles'.eraseDups.length := by
  have hstuck : Stuck (·.authorityRole) (·.principalId) (approvalsOf contributions)
      req.roles.eraseDups :=
    (stuck_congr (List.Perm.refl _) fun role => List.mem_eraseDups).mpr h
  obtain ⟨approvals', seats', hperm, hseats, hfull⟩ := exists_stuck_order hstuck
  obtain ⟨contributions', hcontributions, rfl⟩ := exists_contributions hperm
  obtain ⟨roles', hroles, rfl⟩ := exists_eraseDups_eq hseats
  exact ⟨roles', contributions', hroles, hcontributions, hfull⟩

/-- Where nothing is contested, the outcome of a role set says whether it can be assigned. -/
theorem outcome_of_uncontested (hkind : req.kind = .roleSet) (hroles₀ : req.roles ≠ [])
    (h : ¬RolesAssignable req contributions ∨ ¬RoleStuck req contributions)
    (hblocks : ¬Blocks req (rejectsOf contributions).length)
    (hroles : roles'.Perm req.roles) (hcontributions : contributions'.Perm contributions) :
    (evaluateGovernanceQuorum { req with roles := roles' } contributions').outcome = .satisfied ∧
        RolesAssignable req contributions ∨
      (evaluateGovernanceQuorum { req with roles := roles' } contributions').outcome = .pending ∧
        ¬RolesAssignable req contributions := by
  have hne : roles' ≠ [] := by
    rintro rfl
    exact hroles₀ hroles.nil_eq.symm
  have hblocks' : ¬Blocks { req with roles := roles' } (rejectsOf contributions').length :=
    fun hb => hblocks ((blocks_perm roles' hcontributions).mp hb)
  rw [outcome_roleSet { req with roles := roles' } hkind hblocks', if_neg hne]
  by_cases hfull :
      (roleSeats roles' (approvalsOf contributions')).length = roles'.eraseDups.length
  · exact Or.inl ⟨if_pos hfull, assignable_of_roleSeats hroles hcontributions hfull⟩
  · refine Or.inr ⟨if_neg hfull, ?_⟩
    rcases h with hassignable | hstuck
    · exact hassignable
    · exact absurd (roleStuck_of_roleSeats hroles hcontributions hfull) hstuck

theorem orderFree_of_blocks (h : Blocks req (rejectsOf contributions).length) :
    OrderFree req contributions := by
  intro roles' contributions' _ hcontributions
  rw [outcome_eq, outcome_eq, if_pos h, if_pos ((blocks_perm roles' hcontributions).mpr h)]

theorem orderFree_of_ne_roleSet (hkind : req.kind ≠ .roleSet) : OrderFree req contributions := by
  intro roles' contributions' hroles hcontributions
  by_cases hblocks : Blocks req (rejectsOf contributions).length
  · exact orderFree_of_blocks hblocks roles' contributions' hroles hcontributions
  · have hblocks' : ¬Blocks { req with roles := roles' } (rejectsOf contributions').length :=
      fun hb => hblocks ((blocks_perm roles' hcontributions).mp hb)
    rw [outcome_eq, outcome_eq, if_neg hblocks, if_neg hblocks']
    exact evaluateApprovals_perm hkind (hcontributions.filter _) hroles

/-- Without roles and rejections, a role set is blocked, though nothing has to be assigned. -/
theorem not_seatsExact_of_no_roles (hkind : req.kind = .roleSet)
    (hblocks : ¬Blocks req (rejectsOf contributions).length) (hroles : req.roles = [])
    (hrejects : ∀ c ∈ contributions, c.decision ≠ .reject) : ¬SeatsExact req contributions := by
  intro hexact
  have hassignable : RolesAssignable req contributions := by
    refine ⟨fun _ => "", ?_, ?_⟩ <;> rw [hroles] <;> simp
  have hsatisfied := (hexact hkind hrejects).mpr hassignable
  rw [outcome_roleSet req hkind hblocks, if_pos hroles] at hsatisfied
  exact nomatch hsatisfied

/-- Where a role set can be assigned and a role can stay empty, one order gives all seats and
another one does not. -/
theorem not_orderFree_of_contested (hkind : req.kind = .roleSet)
    (hblocks : ¬Blocks req (rejectsOf contributions).length)
    (hassignable : RolesAssignable req contributions) (hstuck : RoleStuck req contributions) :
    ¬OrderFree req contributions := by
  intro hfree
  have hroles : req.roles ≠ [] := by
    intro hnone
    obtain ⟨role, hrole, _⟩ := hstuck
    rw [hnone] at hrole
    exact List.not_mem_nil hrole
  obtain ⟨contributions₁, hperm₁, hfull⟩ := exists_satisfied_order hassignable
  obtain ⟨roles₂, contributions₂, hroles₂, hperm₂, hempty⟩ := exists_pending_order hstuck
  have hne₂ : roles₂ ≠ [] := by
    rintro rfl
    exact hroles hroles₂.nil_eq.symm
  have hblocks₁ : ¬Blocks req (rejectsOf contributions₁).length :=
    fun hb => hblocks ((blocks_perm req.roles hperm₁).mp hb)
  have hblocks₂ : ¬Blocks { req with roles := roles₂ } (rejectsOf contributions₂).length :=
    fun hb => hblocks ((blocks_perm roles₂ hperm₂).mp hb)
  have hsatisfied : (evaluateGovernanceQuorum req contributions₁).outcome = .satisfied := by
    rw [outcome_roleSet req hkind hblocks₁, if_neg hroles, if_pos hfull]
  have hpending : (evaluateGovernanceQuorum { req with roles := roles₂ } contributions₂).outcome =
      .pending := by
    rw [outcome_roleSet { req with roles := roles₂ } hkind hblocks₂, if_neg hne₂, if_neg hempty]
  have hsame₁ := hfree req.roles contributions₁ (List.Perm.refl _) hperm₁
  have hsame₂ := hfree roles₂ contributions₂ hroles₂ hperm₂
  exact absurd (hsatisfied.symm.trans (hsame₁.trans (hsame₂.symm.trans hpending))) (by decide)

theorem orderFree_of_no_roles (hkind : req.kind = .roleSet)
    (hblocks : ¬Blocks req (rejectsOf contributions).length) (hroles : req.roles = []) :
    OrderFree req contributions := by
  intro roles' contributions' hroles' hcontributions
  have hnil : roles' = [] := by
    rw [hroles] at hroles'
    exact hroles'.eq_nil
  have hblocks' : ¬Blocks { req with roles := roles' } (rejectsOf contributions').length :=
    fun hb => hblocks ((blocks_perm roles' hcontributions).mp hb)
  rw [outcome_roleSet { req with roles := roles' } hkind hblocks',
    outcome_roleSet req hkind hblocks, if_pos hnil, if_pos hroles]

/-- Where no role can stay empty that could be filled, the outcome of a role set is free of the
order and exact. -/
theorem exact_of_uncontested (hkind : req.kind = .roleSet) (hroles : req.roles ≠ [])
    (h : ¬RolesAssignable req contributions ∨ ¬RoleStuck req contributions)
    (hblocks : ¬Blocks req (rejectsOf contributions).length) :
    OrderFree req contributions ∧ SeatsExact req contributions := by
  have hhere := outcome_of_uncontested hkind hroles h hblocks
    (List.Perm.refl req.roles) (List.Perm.refl contributions)
  change (evaluateGovernanceQuorum req contributions).outcome = .satisfied ∧ _ ∨
    (evaluateGovernanceQuorum req contributions).outcome = .pending ∧ _ at hhere
  refine ⟨?_, fun _ _ => ?_⟩
  · intro roles' contributions' hroles' hcontributions
    have hthere := outcome_of_uncontested hkind hroles h hblocks hroles' hcontributions
    rcases hhere with ⟨hout, hyes⟩ | ⟨hout, hno⟩
    · rcases hthere with ⟨hout', _⟩ | ⟨_, hno'⟩
      · rw [hout, hout']
      · exact absurd hyes hno'
    · rcases hthere with ⟨_, hyes'⟩ | ⟨hout', _⟩
      · exact absurd hyes' hno
      · rw [hout, hout']
  · rcases hhere with ⟨hout, hyes⟩ | ⟨hout, hno⟩
    · exact iff_of_true hout hyes
    · exact iff_of_false (by rw [hout]; decide) hno

end

/-- The outcome is free of the order and a role set's seats are exact where nothing is
contested. -/
theorem quorum_exact_iff (req : GovernanceQuorumRequirement)
    (contributions : List QuorumSeatContribution) :
    (OrderFree req contributions ∧ SeatsExact req contributions) ↔
      Uncontested req contributions := by
  by_cases hkind : req.kind = .roleSet
  · by_cases hblocks : Blocks req (rejectsOf contributions).length
    · refine iff_of_true ⟨orderFree_of_blocks hblocks, fun _ hnone => ?_⟩
        (Or.inr (Or.inl ((blocks_roleSet hkind).mp hblocks)))
      obtain ⟨c, hc, hreject⟩ := rejectsOf_pos.mp hblocks.1
      exact absurd hreject (hnone c hc)
    · constructor
      · rintro ⟨hfree, hexact⟩
        refine Or.inr (Or.inr ⟨?_, ?_⟩)
        · by_contra hnone
          push Not at hnone
          exact not_seatsExact_of_no_roles hkind hblocks hnone.1 hnone.2 hexact
        · by_contra hboth
          push Not at hboth
          exact not_orderFree_of_contested hkind hblocks hboth.1 hboth.2 hfree
      · rintro (hother | hrejected | ⟨hsome, hclear⟩)
        · exact absurd hkind hother
        · exact absurd ((blocks_roleSet hkind).mpr hrejected) hblocks
        · by_cases hroles : req.roles = []
          · refine ⟨orderFree_of_no_roles hkind hblocks hroles, fun _ hnone => ?_⟩
            rcases hsome with hne | ⟨c, hc, hreject⟩
            · exact absurd hroles hne
            · exact absurd hreject (hnone c hc)
          · exact exact_of_uncontested hkind hroles hclear hblocks
  · exact iff_of_true ⟨orderFree_of_ne_roleSet hkind, fun hrole => absurd hrole hkind⟩
      (Or.inl hkind)

/-! ## Two principals for two roles -/

/-- A reviewer and a security officer are needed. -/
def twoRoles : GovernanceQuorumRequirement :=
  { kind := .roleSet, k := none, n := none, roles := ["REVIEWER", "SECURITY"],
    rejectBlocksImmediately := true, rejectThreshold := none }

/-- `alice` approves under both roles, and `bob` as a reviewer. -/
def aliceFirst : List QuorumSeatContribution :=
  [⟨"alice", "REVIEWER", .approve, "a1"⟩, ⟨"alice", "SECURITY", .approve, "a2"⟩,
    ⟨"bob", "REVIEWER", .approve, "a3"⟩]

/-- `alice` takes the seat that `bob` could have had, where her approval comes first. -/
theorem quorum_order_matters :
    ¬∀ (req : GovernanceQuorumRequirement) (contributions : List QuorumSeatContribution),
      OrderFree req contributions ∧ SeatsExact req contributions := by
  intro hclaim
  have hsame := (hclaim twoRoles aliceFirst).1 twoRoles.roles aliceFirst.reverse
    (List.Perm.refl _) (List.reverse_perm _)
  exact absurd hsame (by decide)

end Orchestrator
