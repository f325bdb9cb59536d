import Orchestrator.Authorization.Service

/-!
# Calls that decide nothing

The functions of human authorization that make ordinary calls only: they store pending requests,
close requests without a decision, and move runs anywhere but to `approved`.

* `route_only`: routing;
* `reissueApprovalRequest_only`, `recoverUnreachableApprovalDelivery_only`: replacements;
* `expireDueRequests_only`: expiry.
-/

namespace Orchestrator.Authorization

open Atomic

variable {deps : AuthorizationDeps}

/-! ## Checks -/

theorem only_await {o : AuthorizationOp} (ho : o.Ordinary) :
    o.await.Only AuthorizationOp.Ordinary :=
  Async.only_await ho

theorem require_only (holds : Bool) (code : AuthorizationErrorCode) (message : String) :
    (require holds code message).Only AuthorizationOp.Ordinary :=
  Async.Only.ite (Async.only_pure _) (Async.only_throw _)

theorem orThrow_only {α : Type} (found : Option α) (code : AuthorizationErrorCode)
    (message : String) : (orThrow found code message).Only AuthorizationOp.Ordinary := by
  cases found with
  | some v => exact Async.only_pure _
  | none => exact Async.only_throw _

theorem collect_only {α β : Type} {f : α → AuthorizationAsync β} {as : List α}
    (hf : ∀ a ∈ as, (f a).Only AuthorizationOp.Ordinary) :
    (Async.collect f as).Only AuthorizationOp.Ordinary := by
  induction as with
  | nil => exact Async.only_pure _
  | cons a as ih =>
    refine (hf a List.mem_cons_self).bind fun b => ?_
    exact (ih fun c hc => hf c (List.mem_cons_of_mem _ hc)).bind fun bs => Async.only_pure _

theorem commitRunTransition_only (run : RunRecord) (next : RunState) (hnext : next ≠ .approved)
    (updatedAt : ℕ) : (commitRunTransition run next updatedAt).Only AuthorizationOp.Ordinary :=
  (Async.only_ofExcept _).bind fun _ => (only_await (o := .transition run next updatedAt)
    hnext).bind fun _ => Async.only_pure _

theorem updateStatus_ordinary (id : String) {status : ApprovalRequestStatus}
    (extras : ApprovalRequestStatusExtras)
    (hstatus : status ∈ [.expired, .cancelled, .superseded]) :
    (AuthorizationOp.updateStatus id status extras).Ordinary := by
  intro kind hkind
  subst hkind
  cases kind <;> simp [HumanDecisionKind.status] at hstatus

theorem assertBoundValidationApprovalEligible_only (request : ApprovalRequest) :
    (assertBoundValidationApprovalEligible request).Only AuthorizationOp.Ordinary :=
  (only_await (by trivial)).bind fun _ => (orThrow_only _ _ _).bind fun _ =>
    (require_only _ _ _).bind fun _ => (require_only _ _ _).bind fun _ => require_only _ _ _

theorem assertEligibleToApprove_only (decision : HumanAuthorizationDecision)
    (request : ApprovalRequest) :
    (assertEligibleToApprove decision request).Only AuthorizationOp.Ordinary :=
  Async.Only.ite (assertBoundValidationApprovalEligible_only request) (Async.only_pure _)

theorem verifyPlanFreshness_only (request : ApprovalRequest) :
    (verifyPlanFreshness deps request).Only AuthorizationOp.Ordinary :=
  (only_await (by trivial)).bind fun _ => (orThrow_only _ _ _).bind fun _ =>
    (require_only _ _ _).bind fun _ => (require_only _ _ _).bind fun _ =>
      (require_only _ _ _).bind fun _ => (only_await (by trivial)).bind fun _ =>
        (require_only _ _ _).bind fun _ => Async.only_pure _

theorem verifyRepositoryFreshness_only (request : ApprovalRequest) :
    (verifyRepositoryFreshness request).Only AuthorizationOp.Ordinary :=
  (only_await (by trivial)).bind fun _ => (orThrow_only _ _ _).bind fun _ =>
    (require_only _ _ _).bind fun _ => (require_only _ _ _).bind fun _ => require_only _ _ _

theorem verifyAuthorityFreshness_only (request : ApprovalRequest) (plan : PlanUnderApproval) :
    (verifyAuthorityFreshness deps request plan).Only AuthorizationOp.Ordinary :=
  (only_await (by trivial)).bind fun _ => (orThrow_only _ _ _).bind fun _ =>
    (only_await (by trivial)).bind fun _ => (require_only _ _ _).bind fun _ =>
      (require_only _ _ _).bind fun _ => require_only _ _ _

theorem verifyCardFreshness_only (request : ApprovalRequest) :
    (verifyCardFreshness deps request).Only AuthorizationOp.Ordinary :=
  (only_await (by trivial)).bind fun _ => (orThrow_only _ _ _).bind fun _ =>
    (require_only _ _ _).bind fun _ => require_only _ _ _

theorem verifyBindingFreshness_only (request : ApprovalRequest) :
    (verifyBindingFreshness deps request).Only AuthorizationOp.Ordinary :=
  (verifyPlanFreshness_only request).bind fun plan =>
    (verifyRepositoryFreshness_only request).bind fun _ =>
      (verifyAuthorityFreshness_only request plan).bind fun _ =>
        (only_await (by trivial)).bind fun _ => (orThrow_only _ _ _).bind fun _ =>
          (require_only _ _ _).bind fun _ => (only_await (by trivial)).bind fun _ =>
            (orThrow_only _ _ _).bind fun _ => (require_only _ _ _).bind fun _ =>
              verifyCardFreshness_only request

theorem checkInstitution_only (decision : HumanAuthorizationDecision) (request : ApprovalRequest) :
    (checkInstitution deps decision request).Only AuthorizationOp.Ordinary := by
  refine Async.Only.ite ((only_await (by trivial)).bind fun run => ?_) (Async.only_pure _)
  cases run with
  | none => exact Async.only_pure _
  | some run => exact (only_await (by trivial)).bind fun _ => only_await (by trivial)

theorem expireRequest_only (request : ApprovalRequest) (now : ℕ) :
    (expireRequest request now).Only AuthorizationOp.Ordinary := by
  refine (only_await (updateStatus_ordinary _ _ (by simp))).bind fun _ =>
    (only_await (by trivial)).bind fun _ => (only_await (by trivial)).bind fun run => ?_
  cases run with
  | none => exact Async.only_pure _
  | some run =>
    exact Async.Only.ite ((Async.only_ofExcept _).bind fun _ =>
      (commitRunTransition_only run .expired (by decide) now).bind fun _ => Async.only_pure _)
      (Async.only_pure _)

theorem saveModification_only (decision : HumanAuthorizationDecision) (request : ApprovalRequest) :
    (saveModification decision request).Only AuthorizationOp.Ordinary :=
  Async.Only.ite ((only_await (by trivial)).bind fun _ => (only_await (by trivial)).bind fun _ =>
    Async.only_pure _) (Async.only_pure _)

/-! ## Replacements -/

theorem supersede_only (exceptRequestId : Option String) (reasonCode : String)
    (request : ApprovalRequest) :
    (supersede exceptRequestId reasonCode request).Only AuthorizationOp.Ordinary :=
  Async.Only.ite (Async.only_pure _)
    ((only_await (updateStatus_ordinary _ _ (by simp))).bind fun _ =>
      (only_await (by trivial)).bind fun _ => (only_await (by trivial)).bind fun _ =>
        Async.only_pure _)

theorem supersedePendingForRun_only (runId : String) (exceptRequestId : Option String)
    (reasonCode : String) :
    (supersedePendingForRun runId exceptRequestId reasonCode).Only AuthorizationOp.Ordinary :=
  (only_await (by trivial)).bind fun _ =>
    (collect_only fun request _ => supersede_only exceptRequestId reasonCode request).bind fun _ =>
      Async.only_pure _

theorem cancelUndelivered_only (request : ApprovalRequest) :
    (cancelUndelivered request).Only AuthorizationOp.Ordinary :=
  (only_await (by trivial)).bind fun _ =>
    (only_await (updateStatus_ordinary _ _ (by simp))).bind fun _ => only_await (by trivial)

theorem getReissueReplacementId_only (replacedApprovalRequestId : String) :
    (getReissueReplacementId replacedApprovalRequestId).Only AuthorizationOp.Ordinary := by
  refine (only_await (by trivial)).bind fun mapped => ?_
  cases mapped with
  | none => exact Async.only_pure _
  | some mapped =>
    exact Async.Only.ite (Async.only_pure _) ((only_await (by trivial)).bind fun _ =>
      Async.only_pure _)

theorem beginReissue_only (replacedApprovalRequestId : String) :
    (beginReissue replacedApprovalRequestId).Only AuthorizationOp.Ordinary := by
  refine (getReissueReplacementId_only _).bind fun existing => ?_
  cases existing with
  | some existing => exact Async.only_pure _
  | none =>
    refine (only_await (by trivial)).bind fun inFlight => ?_
    cases inFlight with
    | some promise => exact (only_await (by trivial)).bind fun _ => Async.only_pure _
    | none => exact Async.only_pure _

theorem getPending_only (approvalRequestId : String) :
    (getPending approvalRequestId).Only AuthorizationOp.Ordinary :=
  (only_await (by trivial)).bind fun _ => Async.only_pure _

theorem mappedReplacement_only (replacedApprovalRequestId : String) :
    (mappedReplacement replacedApprovalRequestId).Only AuthorizationOp.Ordinary := by
  refine (getReissueReplacementId_only _).bind fun mappedId => ?_
  cases mappedId with
  | some mappedId => exact getPending_only mappedId
  | none => exact Async.only_pure _

theorem findLiveReplacement_only (runId replacedApprovalRequestId : String) :
    (findLiveReplacement runId replacedApprovalRequestId).Only AuthorizationOp.Ordinary := by
  refine (mappedReplacement_only _).bind fun mapped => ?_
  cases mapped with
  | some mapped => exact Async.only_pure _
  | none => exact (only_await (by trivial)).bind fun _ => Async.only_pure _

theorem afterConcurrentReissue_only (runId replacedApprovalRequestId approvalRequestId : String) :
    (afterConcurrentReissue runId replacedApprovalRequestId approvalRequestId).Only
      AuthorizationOp.Ordinary := by
  refine (getPending_only _).bind fun already => ?_
  cases already with
  | some already => exact Async.only_pure _
  | none => exact (findLiveReplacement_only _ _).bind fun _ => orThrow_only _ _ _

theorem createReplacementRequest_only (run : RunRecord) (replaced : ApprovalRequest) :
    (createReplacementRequest deps run replaced).Only AuthorizationOp.Ordinary := by
  refine (only_await (by trivial)).bind fun _ => (orThrow_only _ _ _).bind fun _ =>
    (only_await (by trivial)).bind fun _ => (orThrow_only _ _ _).bind fun _ =>
      (require_only _ _ _).bind fun _ => (only_await (by trivial)).bind fun _ =>
        (orThrow_only _ _ _).bind fun _ => (require_only _ _ _).bind fun _ => ?_
  refine Async.Only.bind ((require_only _ _ _).bind fun _ => require_only _ _ _) fun _ => ?_
  refine (only_await (by trivial)).bind fun _ => (only_await (by trivial)).bind fun _ =>
    (Async.only_ofExcept _).bind fun _ => (supersedePendingForRun_only _ _ _).bind fun _ =>
      (only_await (by trivial)).bind fun _ => (only_await (by trivial)).bind fun _ => ?_
  refine (only_await (by trivial)).bind fun request => (only_await (by trivial)).bind fun _ => ?_
  refine (Async.Only.tryCatch (only_await (by trivial)) fun _ =>
    (cancelUndelivered_only request).bind fun _ => Async.only_throw _).bind fun _ => ?_
  exact (only_await (by trivial)).bind fun _ => (only_await (by trivial)).bind fun _ =>
    (require_only _ _ _).bind fun _ => Async.only_pure _

theorem replaceClosed_only (run : RunRecord) (replaced : ApprovalRequest) :
    (replaceClosed deps run replaced).Only AuthorizationOp.Ordinary := by
  refine (findLiveReplacement_only _ _).bind fun afterCancel => ?_
  cases afterCancel with
  | some afterCancel => exact (only_await (by trivial)).bind fun _ => Async.only_pure _
  | none =>
    refine (only_await (by trivial)).bind fun live => ?_
    cases live with
    | some live =>
      exact (require_only _ _ _).bind fun _ => (only_await (by trivial)).bind fun _ =>
        Async.only_pure _
    | none =>
      exact (createReplacementRequest_only run replaced).bind fun _ =>
        (only_await (by trivial)).bind fun _ => Async.only_pure _

theorem failingReissue_only {α : Type} (replacedApprovalRequestId : String)
    {body : AuthorizationAsync α} (hbody : body.Only AuthorizationOp.Ordinary) :
    (failingReissue replacedApprovalRequestId body).Only AuthorizationOp.Ordinary :=
  hbody.tryCatch fun _ => (only_await (by trivial)).bind fun _ => Async.only_throw _

theorem closeSpent_only (replaced : ApprovalRequest) :
    (closeSpent replaced).Only AuthorizationOp.Ordinary :=
  Async.Only.ite ((only_await (updateStatus_ordinary _ _ (by simp))).bind fun _ =>
    only_await (by trivial)) (Async.only_pure _)

theorem invalidateUnreachable_only (request : ApprovalRequest) :
    (invalidateUnreachable request).Only AuthorizationOp.Ordinary :=
  Async.Only.ite ((only_await (by trivial)).bind fun _ =>
    (only_await (updateStatus_ordinary _ _ (by simp))).bind fun _ => Async.only_pure _)
    (Async.only_pure _)

theorem reissueApprovalRequest_only (runId replacedApprovalRequestId : String) :
    (reissueApprovalRequest deps runId replacedApprovalRequestId).Only
      AuthorizationOp.Ordinary := by
  refine (only_await (by trivial)).bind fun _ => (orThrow_only _ _ _).bind fun run =>
    (require_only _ _ _).bind fun _ => (only_await (by trivial)).bind fun _ =>
      (orThrow_only _ _ _).bind fun replaced => (require_only _ _ _).bind fun _ =>
        (findLiveReplacement_only _ _).bind fun existingLive => ?_
  cases existingLive with
  | some existingLive => exact Async.only_pure _
  | none =>
    refine (only_await (by trivial)).bind fun _ => Async.Only.bind
      (Async.Only.ite (require_only _ _ _) (require_only _ _ _)) fun _ =>
        (assertBoundValidationApprovalEligible_only replaced).bind fun _ =>
          (beginReissue_only _).bind fun claim => ?_
    cases claim with
    | some approvalRequestId =>
      exact (afterConcurrentReissue_only _ _ _).bind fun _ => Async.only_pure _
    | none =>
      exact failingReissue_only _ ((closeSpent_only replaced).bind fun _ =>
        (replaceClosed_only run replaced).bind fun _ => Async.only_pure _)

theorem assertUnreachableDeliveryRecoveryEligible_only (request : ApprovalRequest) :
    (assertUnreachableDeliveryRecoveryEligible deps request).Only AuthorizationOp.Ordinary :=
  (require_only _ _ _).bind fun _ => (require_only _ _ _).bind fun _ =>
    (require_only _ _ _).bind fun _ => (only_await (by trivial)).bind fun _ =>
      (orThrow_only _ _ _).bind fun _ => (require_only _ _ _).bind fun _ =>
        (only_await (by trivial)).bind fun _ => (require_only _ _ _).bind fun _ =>
          (only_await (by trivial)).bind fun _ => (require_only _ _ _).bind fun _ =>
            (verifyBindingFreshness_only request).bind fun _ =>
              assertBoundValidationApprovalEligible_only request

theorem recoverUnreachableApprovalDelivery_only (approvalRequestId reason : String) :
    (recoverUnreachableApprovalDelivery deps approvalRequestId reason).Only
      AuthorizationOp.Ordinary := by
  refine (require_only _ _ _).bind fun _ => (only_await (by trivial)).bind fun _ =>
    (orThrow_only _ _ _).bind fun original => (findLiveReplacement_only _ _).bind
      fun existingLive => ?_
  cases existingLive with
  | some live => exact Async.only_pure _
  | none =>
    refine (assertUnreachableDeliveryRecoveryEligible_only original).bind fun _ =>
      (beginReissue_only _).bind fun claim => ?_
    cases claim with
    | some approvalRequestId =>
      exact (afterConcurrentReissue_only _ _ _).bind fun _ => Async.only_pure _
    | none =>
      exact failingReissue_only _ ((only_await (by trivial)).bind fun _ =>
        (orThrow_only _ _ _).bind fun run => (require_only _ _ _).bind fun _ =>
          (invalidateUnreachable_only original).bind fun _ =>
            (replaceClosed_only run original).bind fun _ => Async.only_pure _)

theorem expireDueRequests_only (nowIso : Option ℕ) :
    (expireDueRequests nowIso).Only AuthorizationOp.Ordinary :=
  (only_await (by trivial)).bind fun _ => (only_await (by trivial)).bind fun _ =>
    (collect_only fun request _ => Async.Only.ite
      ((expireRequest_only request _).bind fun _ => Async.only_pure _)
      (Async.only_pure _)).bind fun _ => Async.only_pure _

/-! ## Routing -/

theorem requireReadiness_only (holds : Bool) (message : String) :
    (requireReadiness holds message).Only AuthorizationOp.Ordinary :=
  require_only _ _ _

theorem assessDecision_only (runId : String) :
    (assessDecision runId).Only AuthorizationOp.Ordinary :=
  (only_await (by trivial)).bind fun _ => (orThrow_only _ _ _).bind fun _ =>
    (requireReadiness_only _ _).bind fun _ => (requireReadiness_only _ _).bind fun _ =>
      (only_await (by trivial)).bind fun _ => (orThrow_only _ _ _).bind fun _ =>
        (requireReadiness_only _ _).bind fun _ => (only_await (by trivial)).bind fun _ =>
          (requireReadiness_only _ _).bind fun _ => (requireReadiness_only _ _).bind fun _ =>
            (only_await (by trivial)).bind fun _ => (requireReadiness_only _ _).bind fun _ =>
              Async.only_pure _

theorem requireReady_only (runId : String) :
    (requireReady runId).Only AuthorizationOp.Ordinary := by
  refine (only_await (by trivial)).bind fun _ => (orThrow_only _ _ _).bind fun run =>
    (requireReadiness_only _ _).bind fun _ => (assessDecision_only runId).bind fun _ =>
      (only_await (by trivial)).bind fun _ => (orThrow_only _ _ _).bind fun _ =>
        (only_await (by trivial)).bind fun _ => (requireReadiness_only _ _).bind fun _ => ?_
  refine (Async.Only.tryCatch (only_await (by trivial)) fun _ => Async.only_throw _).bind
    fun _ => (requireReadiness_only _ _).bind fun _ => (only_await (by trivial)).bind fun _ =>
      (orThrow_only _ _ _).bind fun _ => ?_
  exact (requireReadiness_only _ _).bind fun _ => (requireReadiness_only _ _).bind fun _ =>
    (requireReadiness_only _ _).bind fun _ => Async.only_pure _

theorem routeBlock_only (runId : String) (plan : PlanUnderApproval)
    (decision : ValidationDecision) :
    (routeBlock runId plan decision).Only AuthorizationOp.Ordinary :=
  (only_await (by trivial)).bind fun _ => (orThrow_only _ _ _).bind fun run =>
    Async.Only.ite (Async.only_pure _) ((Async.only_ofExcept _).bind fun _ =>
      (only_await (by trivial)).bind fun now =>
        (commitRunTransition_only run .blocked (by decide) now).bind fun _ =>
          Async.only_pure _)

theorem findActiveByBinding_only (bindingKey : String) :
    (findActiveByBinding bindingKey).Only AuthorizationOp.Ordinary := by
  refine (only_await (by trivial)).bind fun active => ?_
  cases active with
  | none => exact Async.only_pure _
  | some request =>
    change (pendingOrForget bindingKey request).Only _
    unfold pendingOrForget
    cases request.filter (·.status = .pending) with
    | some request => exact Async.only_pure _
    | none => exact (only_await (by trivial)).bind fun _ => Async.only_pure _

theorem awaitApproval_only (run : RunRecord) :
    (awaitApproval run).Only AuthorizationOp.Ordinary :=
  Async.Only.ite (Async.only_pure _) ((only_await (by trivial)).bind fun now =>
    commitRunTransition_only run .awaitingApproval (by decide) now)

theorem routeNewRequest_only (run : RunRecord) (objective : BoundObjective)
    (plan : PlanUnderApproval) (decision : ValidationDecision) (resolved : ApprovalControlContext)
    (card : ApprovalDecisionCard) :
    (routeNewRequest deps run objective plan decision resolved card).Only
      AuthorizationOp.Ordinary := by
  refine (only_await (by trivial)).bind fun _ => (supersedePendingForRun_only _ _ _).bind fun _ =>
    (only_await (by trivial)).bind fun _ => (only_await (by trivial)).bind fun _ =>
      (only_await (by trivial)).bind fun request => (only_await (by trivial)).bind fun _ => ?_
  refine (Async.Only.tryCatch (only_await (by trivial)) fun e => ?_).bind fun _ =>
    (only_await (by trivial)).bind fun _ => (awaitApproval_only run).bind fun _ =>
      Async.only_pure _
  refine (cancelUndelivered_only request).bind fun _ => ?_
  cases e with
  | authorization code message => exact Async.only_throw _
  | other error => exact Async.only_throw _

theorem routeForApproval_only (runId : String) (plan : PlanUnderApproval)
    (decision : ValidationDecision) :
    (routeForApproval deps runId plan decision).Only AuthorizationOp.Ordinary := by
  refine (only_await (by trivial)).bind fun _ => (orThrow_only _ _ _).bind fun run =>
    (only_await (by trivial)).bind fun _ => (orThrow_only _ _ _).bind fun objective =>
      (only_await (by trivial)).bind fun resolved => (only_await (by trivial)).bind fun _ =>
        (Async.only_ofExcept _).bind fun card =>
          (findActiveByBinding_only _).bind fun existing => ?_
  cases existing with
  | some existing => exact (require_only _ _ _).bind fun _ => Async.only_pure _
  | none => exact routeNewRequest_only run objective plan decision resolved card

theorem routeReady_only (runId : String) :
    (routeReady deps runId).Only AuthorizationOp.Ordinary := by
  refine (requireReady_only runId).bind fun ready => ?_
  refine Async.Only.ite (routeBlock_only _ _ _) (Async.Only.ite ?_ (Async.only_throw _))
  exact Async.Only.bind ((require_only _ _ _).bind fun _ => require_only _ _ _) fun _ =>
    routeForApproval_only _ _ _

theorem route_only (runId : String) : (route deps runId).Only AuthorizationOp.Ordinary := by
  refine (only_await (by trivial)).bind fun existingRun => Async.Only.bind
    (Async.Only.ite (only_await (by trivial)) (Async.only_pure _)) fun pending => ?_
  cases pending with
  | some pending => exact Async.only_pure _
  | none =>
    exact Async.Only.ite ((only_await (by trivial)).bind fun _ =>
      (only_await (by trivial)).bind fun _ => Async.only_pure _) (routeReady_only runId)

end Orchestrator.Authorization
