import Orchestrator.Atomic.Async
import Orchestrator.Atomic.Pool
import Orchestrator.Domain.Run
import Orchestrator.Execution.RunRepository
import Orchestrator.Execution.StepRepository
import Orchestrator.Execution.StepIndex
import Orchestrator.Execution.TimeAccounting
import Orchestrator.Execution.ResourceLedger
import Orchestrator.Planning.DependencyGraph
import Orchestrator.Execution.Rollback
import Orchestrator.Execution.DryRun
import Orchestrator.Execution.World
import Orchestrator.Execution.Pipeline
import Orchestrator.Execution.Calls
import Orchestrator.Execution.AtMostOnce
import Orchestrator.Execution.Service
import Orchestrator.Execution.ServiceCalls
import Orchestrator.Execution.Alone
import Orchestrator.Execution.Scenario
import Orchestrator.Execution.Allowance
import Orchestrator.Execution.RollbackIsolation
import Orchestrator.Execution.StepLoop
import Orchestrator.Execution.Opening
import Orchestrator.Execution.HonestStatus
import Orchestrator.Collections.Json
import Orchestrator.Domain.Objective
import Orchestrator.Admission.Stores
import Orchestrator.Admission.Service
import Orchestrator.Atomic.Exec
import Orchestrator.Admission.Scenario
import Orchestrator.Admission.ObjectiveBinding
import Orchestrator.Atomic.Protocol
import Orchestrator.Atomic.Steps
import Orchestrator.Admission.Holdings
import Orchestrator.Admission.ExactlyOnce
import Orchestrator.Atomic.Faults
import Orchestrator.Admission.FailingCalls
import Orchestrator.Admission.Compensation
import Orchestrator.Domain.Validation
import Orchestrator.Validation.Stores
import Orchestrator.Validation.Service
import Orchestrator.Validation.PlanIndex
import Orchestrator.Validation.Revisions
import Orchestrator.Validation.Scenario
import Orchestrator.Validation.NoOverride
import Orchestrator.Collections.Repository
import Orchestrator.Governance.Records
import Orchestrator.Governance.Resolution
import Orchestrator.Governance.Quorum
import Orchestrator.Governance.World
import Orchestrator.Governance.Delegation
import Orchestrator.Governance.Scenario
import Orchestrator.Governance.Attenuation
import Orchestrator.Governance.Issuance
import Orchestrator.Governance.Retention
import Orchestrator.Atomic.Simulation
import Orchestrator.Atomic.Guarded
import Orchestrator.Atomic.Throws
import Orchestrator.Governance.Case
import Orchestrator.Governance.CaseCalls
import Orchestrator.Governance.CaseDecision
import Orchestrator.Governance.MandateQuorums
import Orchestrator.Governance.SeparationOfDuties
import Orchestrator.Governance.ReachedQuorum
import Orchestrator.Governance.Freshness
import Orchestrator.Governance.FreshAuthority
import Orchestrator.Governance.RevocationChains
import Orchestrator.Domain.Budget
import Orchestrator.Programs.Records
import Orchestrator.Programs.Plan
import Orchestrator.Programs.BudgetLedger
import Orchestrator.Programs.World
import Orchestrator.Programs.CriterionProof
import Orchestrator.Programs.Service
import Orchestrator.Programs.Calls
import Orchestrator.Programs.Scenario
import Orchestrator.Programs.ApprovalDecisions
import Orchestrator.Programs.Verification
import Orchestrator.Programs.Dependencies
import Orchestrator.Planning.TokenBudget
import Orchestrator.Recovery.ContactPolicy
import Orchestrator.Recovery.Monotonicity
import Orchestrator.Recovery.TargetRoundTrip
import Orchestrator.Domain.ExecutionPlanSchema
import Orchestrator.Memory.ProjectIsolation
import Orchestrator.Memory.World
import Orchestrator.Memory.Versions
import Orchestrator.Memory.VersionLifecycle
import Orchestrator.Memory.Agreement
import Orchestrator.Memory.CandidateAgreement
import Orchestrator.Graph.ParentChains
import Orchestrator.Recovery.RecoveryTemplate
import Orchestrator.Decisions.Predicates
import Orchestrator.Decisions.Policies
import Orchestrator.Decisions.Ambiguity
import Orchestrator.Decisions.MissingValues
import Orchestrator.Portfolio.GoalProof
import Orchestrator.Constitutional.Operations
import Orchestrator.Constitutional.Continuity
import Orchestrator.Collections.Latest
import Orchestrator.Programs.Decomposition
import Orchestrator.Memory.GroundedFacts
import Orchestrator.Collections.JsObject
import Orchestrator.Decisions.StateResolution
import Orchestrator.Decisions.SnapshotIdentity
import Orchestrator.Memory.Footprint
import Orchestrator.Memory.GovernedMemory
import Orchestrator.Scheduling.DependencyCycle
import Orchestrator.Verification.OutcomeDecision
import Orchestrator.Graph.Reachability
import Orchestrator.Scheduling.DependencyVerdict
import Orchestrator.Validation.PolicyEvaluation
import Orchestrator.Collections.Seating
import Orchestrator.Governance.QuorumOrder
import Orchestrator.Governance.MandateResolution
import Orchestrator.Planning.CriticalPath
import Orchestrator.Execution.TargetValidator
import Orchestrator.Validation.Fingerprint
import Orchestrator.Governance.MandateMoves
import Orchestrator.Governance.RecordHashes
import Orchestrator.Planning.VerificationBindings
import Orchestrator.Execution.CapabilityFingerprint
import Orchestrator.Ingestion.ProjectIndexer
import Orchestrator.Atomic.Serial
import Orchestrator.Experiments.UsageLedger
import Orchestrator.Atomic.Triple
import Orchestrator.Scheduling.Fairness
import Orchestrator.Scheduling.WorkItems
import Orchestrator.Scheduling.Allocation
import Orchestrator.Scheduling.Exclusive
import Orchestrator.Scheduling.WorkRuns
import Orchestrator.Authorization.Records
import Orchestrator.Authorization.World
import Orchestrator.Authorization.Service
import Orchestrator.Authorization.Ordinary
import Orchestrator.Authorization.Protocol
import Orchestrator.Authorization.Decide
import Orchestrator.Authorization.Runs
import Orchestrator.Graph.Order
import Orchestrator.Causal.Records
import Orchestrator.Causal.GraphValidator
import Orchestrator.Causal.Proposals
import Orchestrator.Collections.Greedy
import Orchestrator.Planning.ContextBudget
