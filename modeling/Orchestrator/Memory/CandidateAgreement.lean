import Orchestrator.Memory.Agreement
import Orchestrator.Memory.Footprint

/-!
# Concurrent promotions

Any number of calls that learn and review, in any order of their writes.

* `Careful`: a precedent is stored while its caller's list is up to date, and no candidate is
  rejected that has an active precedent;
* `promoting`: the protocol of the calls;
* `promoteWithinTransaction_settles`, `reviewCandidate_settles`, `learn_settles`: each call, judged
  by itself;
* `candidates_agree`: in every run whose writes are careful the candidates and the precedents agree
  when no call is in progress.
-/

namespace Orchestrator.Memory

open Atomic Collections

/-! ## Calls at work -/

/-- The memory, and what other services do meanwhile. -/
def memorySystem : System MemorySig MemoryWorld MemoryEvent where
  handler := memoryHandler
  env e w := w.happens e

/-- A call that may promote or reject candidates. -/
inductive PromotionCall where
  | learn (record : HistoricalRunRecord) (drafts : List LearningCandidate)
  | reviewCandidate (input : ReviewInput)

def PromotionCall.program (X : MemoryExternal) (policy : PrecedentPromotionPolicy) :
    PromotionCall → MemoryProg Unit
  | learn record drafts => Memory.learn X policy record drafts
  | reviewCandidate input => Memory.reviewCandidate X policy input

/-- The calls, at work on one world. -/
def promotions {ι : Type} (X : MemoryExternal) (policy : PrecedentPromotionPolicy) (w : MemoryWorld)
    (calls : ι → PromotionCall) : Pool MemorySig ι MemoryWorld (Except MemoryError Unit) :=
  Pool.init w fun i => ((calls i).program X policy).prog

/-- Every call has returned, or has not begun. -/
def NoneInProgress {ι α : Type} [DecidableEq ι] (pool : Pool MemorySig ι MemoryWorld α) : Prop :=
  ∀ i, pool.log i = [] ∨ ∃ r, pool.prog i = some (.pure r)

/-- The precedents that a caller listed last. -/
def lastListing : Log MemorySig → List PromotedPrecedent
  | [] => []
  | ⟨.listPrecedents _, .ok records⟩ :: _ => records
  | _ :: log => lastListing log

/-- A precedent is stored while what its caller listed of its candidate is up to date, and no
candidate is rejected that has an active precedent. -/
def Careful (log : Log MemorySig) (w : MemoryWorld) : MemoryOp → Prop
  | .appendPrecedent p => ∀ q ∈ w.stores.precedents.listByProject p.projectId,
      q.isActiveFor p.candidateId p.candidateHash = true → q ∈ lastListing log
  | .updateCandidateStatus id .rejected =>
      ∀ p ∈ w.stores.precedents.byKey.values, p.candidateId = id → p.status ≠ .active
  | _ => True

instance (log : Log MemorySig) (w : MemoryWorld) (o : MemoryOp) : Decidable (Careful log w o) := by
  unfold Careful
  split <;> infer_instance

/-- A promotion that has stored a precedent owes its candidate the status until it is stored. -/
def owed (h : Option String) : Event MemorySig → Option String
  | ⟨.appendPrecedent p, .ok _⟩ => some p.candidateId
  | ⟨.updateCandidateStatus _ .promoted, .ok _⟩ => none
  | _ => h

/-! ## Silent calls -/

/-- The call stores no precedent, changes no status, and stores no candidate but new ones. -/
def MemoryOp.Silent : MemoryOp → Prop
  | .appendCandidate c => c.status = .candidate
  | .updateCandidateStatus _ _ => False
  | .appendPrecedent _ => False
  | .updatePrecedentStatus _ _ _ => False
  | _ => True

theorem silent_of_reads (o : MemoryOp) (h : o.Reads) : o.Silent := by
  cases o <;> trivial

theorem owed_silent {o : MemoryOp} (ho : o.Silent) (h : Option String) (r : MemorySig.Ret o) :
    owed h ⟨o, r⟩ = h := by
  cases o <;> first | rfl | cases ho

/-- A candidate as it is stored, but for its status. -/
def LearningCandidate.StoredIn (c : LearningCandidate) (w : MemoryWorld) : Prop :=
  ∃ status, w.stores.candidates.byId.get c.learningCandidateId = some { c with status := status }

theorem LearningCandidate.StoredIn.grows {c : LearningCandidate} {w w' : MemoryWorld}
    (hc : c.StoredIn w) (h : Grows w w') : c.StoredIn w' := by
  obtain ⟨status, hstatus⟩ := hc
  obtain ⟨status', hstatus'⟩ := h.candidates _ _ hstatus
  exact ⟨status', hstatus'⟩

theorem storedIn_of_get {c : LearningCandidate} {w : MemoryWorld} {id : String}
    (hc : w.stores.candidates.byId.get id = some c) : c.StoredIn w := by
  have hid := w.stores.candidates.keyed id c hc
  subst hid
  exact ⟨c.status, hc⟩

theorem appendCandidate_cases (w : MemoryWorld) (c : LearningCandidate) :
    (∃ e, w.appendCandidate c = (.error e, w)) ∨
    (∃ existing, w.appendCandidate c = (.ok existing, w) ∧ existing.StoredIn w) ∨
    (w.stores.candidates.byId.get c.learningCandidateId = none ∧
      w.appendCandidate c = (.ok c, w.withCandidates (w.stores.candidates.set c))) := by
  unfold MemoryWorld.appendCandidate
  simp only
  split
  · exact Or.inl ⟨_, rfl⟩
  split
  · next existing hexisting =>
    obtain ⟨id, -, hget⟩ := Option.bind_eq_some_iff.mp hexisting
    exact Or.inr (Or.inl ⟨existing, rfl, storedIn_of_get hget⟩)
  split
  · exact Or.inl ⟨_, rfl⟩
  · next hhas =>
    rw [JsMap.has, Option.not_isSome_iff_eq_none] at hhas
    exact Or.inr (Or.inr ⟨hhas, rfl⟩)

theorem extends_set {w : MemoryWorld} {c : LearningCandidate} (hstatus : c.status = .candidate)
    (hnew : w.stores.candidates.byId.get c.learningCandidateId = none) :
    Extends w (w.withCandidates (w.stores.candidates.set c)) where
  grows := {
    candidates := fun id d hd => by
      refine ⟨d.status, ?_⟩
      show (w.stores.candidates.byId.set _ _).get id = _
      rw [JsMap.get_set, if_neg]
      · exact hd
      · intro heq
        rw [← heq, hnew] at hd
        cases hd
    precedents := fun _ hp => hp
    runs := fun _ _ hrun => hrun
    outcomes := fun _ _ hv => hv }
  precedents := rfl
  candidates d hd := by
    rw [CandidateRepository.mem_values] at hd
    change (w.stores.candidates.byId.set _ _).get _ = _ at hd
    rw [JsMap.get_set] at hd
    split at hd
    · rw [← Option.some.inj hd]
      exact Or.inr hstatus
    · exact Or.inl (CandidateRepository.mem_values.mpr hd)

theorem extends_silent {o : MemoryOp} (ho : o.Silent) (w : MemoryWorld) :
    Extends w (memoryHandler o w).2 := by
  have hsame : ∀ w' : MemoryWorld, w'.stores.candidates = w.stores.candidates →
      w'.stores.precedents = w.stores.precedents →
      w'.stores.historicalRuns = w.stores.historicalRuns →
      w'.stores.outcomes = w.stores.outcomes → Extends w w' :=
    fun w' hcandidates hprecedents hruns houtcomes => Extends.of_eq hcandidates hprecedents
      (fun _ _ h => by rw [hruns]; exact h) fun _ _ h => by rw [houtcomes]; exact h
  cases o with
  | updateCandidateStatus id status => cases ho
  | appendPrecedent p => cases ho
  | updatePrecedentStatus id version status => cases ho
  | appendCandidate c =>
    show Extends w (w.appendCandidate c).2
    rcases appendCandidate_cases w c with ⟨e, heq⟩ | ⟨existing, heq, -⟩ | ⟨hnew, heq⟩ <;> rw [heq]
    · exact hsame w rfl rfl rfl rfl
    · exact hsame w rfl rfl rfl rfl
    · exact extends_set ho hnew
  | appendHistoricalRun record =>
    show Extends w (w.appendHistoricalRun record).2
    unfold MemoryWorld.appendHistoricalRun
    split
    · exact hsame w rfl rfl rfl rfl
    · next hhas =>
      split
      · exact hsame w rfl rfl rfl rfl
      · rw [JsMap.has, Option.not_isSome_iff_eq_none] at hhas
        refine Extends.of_eq rfl rfl (fun id run hrun => ?_) fun _ _ hv => hv
        rw [JsMap.get_set, if_neg]
        · exact hrun
        · intro heq
          rw [← heq, hhas] at hrun
          cases hrun
  | appendContradiction record =>
    show Extends w (w.appendContradiction record).2
    unfold MemoryWorld.appendContradiction
    simp only
    split <;> exact hsame _ rfl rfl rfl rfl
  | appendDecision decision =>
    show Extends w (w.appendDecision decision).2
    unfold MemoryWorld.appendDecision
    split
    · exact hsame w rfl rfl rfl rfl
    split <;> exact hsame _ rfl rfl rfl rfl
  | _ => exact hsame _ rfl rfl rfl rfl

theorem extends_happens (e : MemoryEvent) (w : MemoryWorld) : Extends w (w.happens e) := by
  cases e with
  | evidenceStored ref => exact Extends.of_eq rfl rfl (fun _ _ h => h) fun _ _ h => h
  | verified record =>
    refine Extends.of_eq rfl rfl (fun _ _ h => h) fun id v hv => ?_
    obtain ⟨outcomes, houtcomes, hget⟩ := Option.bind_eq_some_iff.mp hv
    show (w.stores.outcomes.map _).bind _ = _
    rw [houtcomes, Option.map_some, Option.bind_some]
    split
    · exact hget
    · next hhas =>
      rw [JsMap.has, Option.not_isSome_iff_eq_none] at hhas
      rw [JsMap.get_set, if_neg]
      · exact hget
      · intro heq
        rw [← heq, hhas] at hget
        cases hget

/-! ## The protocol -/

variable {ι : Type} [DecidableEq ι]

/-- Promotions and rejections keep candidates and precedents agreeing. -/
def promoting : Guarded memorySystem ι (Option String) where
  note := owed
  inv a := Agreeing a.1 a.2
  moves := Grows
  moves_refl := Grows.refl
  moves_trans _ _ _ := Grows.trans
  env_inv e a h := h.extend (extends_happens e a.1)
  env_moves e w := (extends_happens e w).grows
  guard _ := Careful

section

variable {i : ι} {log : Log MemorySig} {a : MemoryWorld × (ι → Option String)}

/-- The caller owes no candidate its status, and knows that `J`. -/
def Settled (i : ι) (J : MemoryWorld → Prop) (a : MemoryWorld × (ι → Option String)) : Prop :=
  a.2 i = none ∧ J a.1

/-- A program that ends without owing a candidate its status. -/
def Settles {α : Type} (i : ι) (p : MemoryProg α) (log : Log MemorySig)
    (a : MemoryWorld × (ι → Option String)) : Prop :=
  p.Sat (promoting.env i) promoting.Safe (fun _ b _ => b.2 i = none) log a

/-- What grows only keeps. -/
def Lasting (J : MemoryWorld → Prop) : Prop := ∀ w w', Grows w w' → J w → J w'

variable {J : MemoryWorld → Prop}

omit [DecidableEq ι] in
theorem Settled.rely (hJ : Lasting J) {b : MemoryWorld × (ι → Option String)}
    (h : Settled i J a) (hrely : promoting.Rely i a b) : Settled i J b :=
  ⟨hrely.1.trans h.1, hJ _ _ hrely.2 h.2⟩

/-- A silent call keeps the promise, and leaves what the caller holds. -/
theorem after_silent {o : MemoryOp} (ho : o.Silent) (hinv : Agreeing a.1 a.2) :
    promoting.after i a o = ((memoryHandler o a.1).2, a.2) ∧
      Agreeing (memoryHandler o a.1).2 a.2 ∧ Grows a.1 (memoryHandler o a.1).2 := by
  have hextends := extends_silent ho a.1
  refine ⟨?_, hinv.extend hextends, hextends.grows⟩
  unfold Protocol.after
  have hnote : (promoting (ι := ι)).note (a.2 i) ⟨o, (memorySystem.handler o a.1).1⟩ = a.2 i :=
    owed_silent ho _ _
  rw [hnote, Function.update_eq_self]
  rfl

theorem sat_silent {o : MemoryOp} (ho : o.Silent) (hJ : Lasting J) (ha : Settled i J a)
    {Q : Log MemorySig → MemoryWorld × (ι → Option String) → Except MemoryError o.Response → Prop}
    (hQ : ∀ b, Settled i J b → Settled i J ((memoryHandler o b.1).2, b.2) →
      Q (⟨o, (memoryHandler o b.1).1⟩ :: log) ((memoryHandler o b.1).2, b.2)
        (memoryHandler o b.1).1) :
    (call o).Sat (promoting.env i) promoting.Safe Q log a := by
  refine Guarded.sat_await fun b hrely hinv _ => ?_
  have hb := ha.rely hJ hrely
  obtain ⟨hafter, hinv', hgrows⟩ := after_silent (i := i) ho hinv
  rw [hafter]
  exact ⟨⟨hinv', hgrows⟩, hQ b hb ⟨hb.1, hJ _ _ hgrows hb.2⟩⟩

/-- Silent programs keep what lasts. -/
theorem silent_sat {α : Type} {p : MemoryProg α} (hp : p.Only MemoryOp.Silent) (hJ : Lasting J)
    (ha : Settled i J a) :
    p.Sat (promoting.env i) promoting.Safe (fun _ b _ => Settled i J b) log a := by
  have hkeeps : Keeps (promoting.env i) promoting.Safe MemoryOp.Silent
      fun _ b => Settled i J b := by
    refine ⟨fun _ _ _ hrely h => h.rely hJ hrely, fun _ b o r b' ho h hstep => ?_⟩
    obtain ⟨-, hinv, rfl, rfl⟩ := hstep
    obtain ⟨hafter, hinv', hgrows⟩ := after_silent (i := i) ho hinv
    rw [hafter]
    exact ⟨⟨hinv', hgrows⟩, h.1, hJ _ _ hgrows h.2⟩
  exact Async.Only.sat (I := fun _ b => Settled i J b) hp hkeeps ha

theorem silent_bind {α β : Type} {p : MemoryProg β} {f : β → MemoryProg α}
    (hp : p.Only MemoryOp.Silent) (hJ : Lasting J) (ha : Settled i J a)
    (hf : ∀ log b v, Settled i J b → Settles i (f v) log b) : Settles i (p.bind f) log a :=
  Async.Sat.bind (silent_sat hp hJ ha) (fun log b v hb => hf log b v hb) fun _ _ _ hb => hb.1

theorem lasting_storedIn (c : LearningCandidate) : Lasting c.StoredIn :=
  fun _ _ hgrows hc => hc.grows hgrows

/-! ## Promotions -/

/-- The grounding that a promotion checks is not better than the one that is computed later. -/
theorem loadVerification_live {candidate : LearningCandidate} {run : Option HistoricalRunRecord}
    (hJ : Lasting J) (ha : Settled i J a)
    (hrun : ∀ r, run = some r →
      a.1.stores.historicalRuns.get candidate.sourceHistoricalRunRecordId = some r) :
    (loadVerification run).Sat (promoting.env i) promoting.Safe
      (fun _ b r => Settled i J b ∧ ∀ v, r = .ok v →
        (ground candidate.claim run v none).verdict.IsSufficient →
          (b.1.stores.liveGrounding candidate).verdict.IsSufficient) log a := by
  unfold loadVerification
  split
  · next hid =>
    refine ⟨ha, fun v hv hsufficient => ?_⟩
    cases hv
    cases run with
    | none => exact absurd rfl hsufficient.1
    | some r =>
      have hnone : a.1.stores.loadVerification (some r) = none := by
        unfold MemoryStores.loadVerification
        rw [Option.bind_some] at hid
        simp only [bind, Option.bind, hid]
      unfold MemoryStores.liveGrounding
      rw [hrun r rfl]
      simp only
      rw [hnone]
      exact hsufficient
  · next id hid =>
    obtain ⟨r, rfl, hr⟩ := Option.bind_eq_some_iff.mp hid
    have hJ' : Lasting fun w => J w ∧
        w.stores.historicalRuns.get candidate.sourceHistoricalRunRecordId = some r :=
      fun w w' hgrows hw => ⟨hJ w w' hgrows hw.1, hgrows.runs _ _ hw.2⟩
    refine sat_silent (o := .getOutcome id) trivial hJ' ⟨ha.1, ha.2, hrun r rfl⟩
      fun b hb _ => ⟨⟨hb.1, hb.2.1⟩, ?_⟩
    intro v hv hsufficient
    have hload : b.1.stores.loadVerification (some r) = v := by
      unfold MemoryStores.loadVerification
      simp only [bind, Option.bind, hr]
      exact Except.ok.inj hv
    show (b.1.stores.liveGrounding candidate).verdict.IsSufficient
    unfold MemoryStores.liveGrounding
    rw [hb.2.2]
    simp only
    rw [hload]
    exact hsufficient

theorem checkGroundings_ok {method : PromotionMethod} {frozen live : ClaimGroundingVerdict}
    (h : checkGroundings method frozen live = .ok ()) :
    frozen.IsSufficient ∧ live.IsSufficient := by
  cases method <;> cases frozen <;> cases live <;> first
    | exact ⟨⟨by decide, by decide⟩, by decide, by decide⟩
    | cases h

/-! ## The writes -/

theorem after_eq {o : MemoryOp} {r : MemorySig.Ret o} {w : MemoryWorld}
    (h : memoryHandler o a.1 = (r, w)) :
    promoting.after i a o = (w, Function.update a.2 i (owed (a.2 i) ⟨o, r⟩)) := by
  show (((memoryHandler o a.1).2, Function.update a.2 i
    (owed (a.2 i) ⟨o, (memoryHandler o a.1).1⟩)) : _ × _) = _
  rw [h]

theorem updateCandidateStatus_of_get {w : MemoryWorld} {id : String} {c : LearningCandidate}
    (hget : w.stores.candidates.byId.get id = some c) (status : LearningCandidateStatus) :
    memoryHandler (.updateCandidateStatus id status) w =
      (.ok (), w.withCandidates (w.stores.candidates.withStatus c status)) := by
  show w.updateCandidateStatus id status = _
  unfold MemoryWorld.updateCandidateStatus
  split
  · next hnone =>
    rw [hget] at hnone
    cases hnone
  · next existing hsome =>
    rw [hget] at hsome
    cases hsome
    rfl

theorem appendPrecedent_cases (w : MemoryWorld) (p : PromotedPrecedent) :
    (∃ e, memoryHandler (.appendPrecedent p) w = (.error e, w)) ∨
    ∃ r, w.stores.precedents.append p = .ok r ∧
      memoryHandler (.appendPrecedent p) w = (.ok (), w.withPrecedents r) := by
  have hhandler : memoryHandler (.appendPrecedent p) w =
      w.writePrecedents (w.stores.precedents.append p) := rfl
  rw [hhandler]
  cases w.stores.precedents.append p with
  | error e => exact Or.inl ⟨e, rfl⟩
  | ok r => exact Or.inr ⟨r, rfl, rfl⟩

/-- What others owe is left when the caller owes something else. -/
theorem update_owes {g : ι → Option String} {j : ι} {id : String} (hi : g i ≠ some id)
    (hj : g j = some id) (x : Option String) : Function.update g i x j = some id := by
  rw [Function.update_of_ne]
  · exact hj
  · rintro rfl
    exact hi hj

/-- A stored precedent of the candidate waits for its status. -/
def Owing (i : ι) (candidate : LearningCandidate) (a : MemoryWorld × (ι → Option String)) : Prop :=
  a.2 i = some candidate.learningCandidateId ∧ candidate.StoredIn a.1 ∧
    ∃ p ∈ a.1.stores.precedents.byKey.values, p.candidateId = candidate.learningCandidateId

omit [DecidableEq ι] in
/-- The active precedents of a candidate are listed in its project. -/
theorem listed_of_active {w : MemoryWorld} {owes : ι → Option String} (hinv : Agreeing w owes)
    {candidate : LearningCandidate} (hstored : candidate.StoredIn w) {q : PromotedPrecedent}
    (hq : q ∈ w.stores.precedents.byKey.values)
    (hid : q.candidateId = candidate.learningCandidateId) (hactive : q.status = .active) :
    q ∈ w.stores.precedents.listByProject candidate.projectId := by
  obtain ⟨status, hget⟩ := hstored
  obtain ⟨c, hc, hcid, -, hproject, -⟩ := hinv.founded q hq
  have hcget := CandidateRepository.mem_values.mp hc
  rw [← hcid, hid] at hcget
  have hsame : c = { candidate with status := status } :=
    Option.some.inj (hcget.symm.trans hget)
  have hmem := hinv.kept.mem_listByProject hq hactive
  rw [hproject, hsame] at hmem
  exact hmem

/-- A precedent is stored of a candidate that had none in an up-to-date list. -/
theorem appendPrecedent_sat {X : MemoryExternal} {candidate : LearningCandidate}
    {options : PromotionOptions} {id : String} (hfrozen : candidate.grounding.verdict.IsSufficient)
    (ha : Settled i (fun w => candidate.StoredIn w ∧
      (w.stores.liveGrounding candidate).verdict.IsSufficient) a)
    (hnone : (lastListing log).find? (·.isActiveFor candidate.learningCandidateId
      candidate.candidateHash) = none) :
    (call (.appendPrecedent (precedentOf X candidate options id))).Sat (promoting.env i)
      promoting.Safe (fun _ b r => (r = .ok () → Owing i candidate b) ∧
        ∀ e, r = .error e → b.2 i = none) log a := by
  refine Guarded.sat_await fun b hrely hinv hcareful => ?_
  have hlasting : Lasting fun w => candidate.StoredIn w ∧
      (w.stores.liveGrounding candidate).verdict.IsSufficient :=
    fun _ _ hgrows hw => ⟨hw.1.grows hgrows, hgrows.liveGrounding hw.2⟩
  obtain ⟨howes, hstored, hlive⟩ := ha.rely hlasting hrely
  have hinv' : Agreeing b.1 b.2 := hinv
  rcases appendPrecedent_cases b.1 (precedentOf X candidate options id) with
    ⟨e, hhandler⟩ | ⟨r, happend, hhandler⟩
  · have hafter := after_eq (i := i) hhandler
    change promoting.after i b _ = (b.1, Function.update b.2 i (b.2 i)) at hafter
    rw [Function.update_eq_self] at hafter
    rw [hafter]
    refine ⟨⟨hinv, Grows.refl _⟩, fun hok => ?_, fun _ _ => howes⟩
    change (memoryHandler _ b.1).1 = _ at hok
    rw [hhandler] at hok
    cases hok
  · have hafter := after_eq (i := i) hhandler
    change promoting.after i b _ = (b.1.withPrecedents r,
      Function.update b.2 i (some candidate.learningCandidateId)) at hafter
    have hfounded : IsFounded b.1.stores (precedentOf X candidate options id) := by
      obtain ⟨status, hget⟩ := hstored
      exact ⟨{ candidate with status := status }, CandidateRepository.mem_values.mpr hget, rfl, rfl,
        rfl, rfl, hfrozen, hlive⟩
    -- what is active for the candidate now was listed, and none was
    have hfirst : ∀ q ∈ b.1.stores.precedents.byKey.values,
        q.candidateId = candidate.learningCandidateId →
        q.candidateHash = candidate.candidateHash → q.status ≠ .active := by
      intro q hq hid hhash hactive
      have hfor : q.isActiveFor candidate.learningCandidateId candidate.candidateHash = true := by
        unfold PromotedPrecedent.isActiveFor
        simp only [hid, hhash, hactive, decide_true, Bool.and_self]
      have hlisted := listed_of_active hinv' hstored hq hid hactive
      exact List.find?_eq_none.mp hnone q (hcareful q hlisted hfor) hfor
    have howed : Function.update b.2 i (some candidate.learningCandidateId) i =
        some candidate.learningCandidateId := Function.update_self ..
    rw [hafter]
    refine ⟨⟨hinv'.appended happend rfl hfounded hfirst ⟨i, howed⟩ fun j id hj => ?_,
      grows_append happend⟩,
      fun _ => ⟨howed, hstored, precedentOf X candidate options id, ?_, rfl⟩, fun e he => ?_⟩
    · exact update_owes (by rw [howes]; exact fun h => nomatch h) hj _
    · exact (PrecedentRepository.mem_append happend).mpr (Or.inl rfl)
    · change (memoryHandler _ b.1).1 = _ at he
      rw [hhandler] at he
      cases he

/-- The candidate gets the status it is owed. -/
theorem promoted_sat {candidate : LearningCandidate} (ha : Owing i candidate a) :
    Settles i (call (.updateCandidateStatus candidate.learningCandidateId .promoted)) log a := by
  refine Guarded.sat_await fun b hrely hinv _ => ?_
  have hinv' : Agreeing b.1 b.2 := hinv
  obtain ⟨howed, hstored, p, hp, hpid⟩ := ha
  have hb : b.2 i = some candidate.learningCandidateId := hrely.1.trans howed
  obtain ⟨status, hget⟩ := hstored.grows hrely.2
  have hafter := after_eq (i := i) (updateCandidateStatus_of_get hget .promoted)
  change promoting.after i b _ = (_, Function.update b.2 i none) at hafter
  rw [hafter]
  refine ⟨⟨?_, grows_withStatus hget _⟩, Function.update_self ..⟩
  refine hinv'.withStatus hget (fun h => nomatch h) (fun _ => ⟨p, hrely.2.precedents p hp, hpid⟩)
    fun j id hne hj => update_owes ?_ hj none
  rw [hb]
  exact fun h => hne (Option.some.inj h).symm

/-- A candidate is rejected that has no active precedent. -/
theorem rejected_sat {candidate : LearningCandidate} (ha : Settled i candidate.StoredIn a) :
    Settles i (call (.updateCandidateStatus candidate.learningCandidateId .rejected)) log a := by
  refine Guarded.sat_await fun b hrely hinv hcareful => ?_
  have hinv' : Agreeing b.1 b.2 := hinv
  obtain ⟨howes, status, hget⟩ := ha.rely (lasting_storedIn candidate) hrely
  have hafter := after_eq (i := i) (updateCandidateStatus_of_get hget .rejected)
  change promoting.after i b _ = (_, Function.update b.2 i (b.2 i)) at hafter
  rw [Function.update_eq_self] at hafter
  rw [hafter]
  refine ⟨⟨?_, grows_withStatus hget _⟩, howes⟩
  exact hinv'.withStatus hget (fun _ => hcareful) (fun h => nomatch h) fun _ _ _ hj => hj

/-! ## The programs -/

variable {X : MemoryExternal} {policy : PrecedentPromotionPolicy} {candidate : LearningCandidate}

theorem promoteWithinTransaction_settles {options : PromotionOptions}
    (ha : Settled i candidate.StoredIn a) :
    Settles i (promoteWithinTransaction X candidate options) log a := by
  have hstored := lasting_storedIn candidate
  have hlasting : Lasting fun w => candidate.StoredIn w ∧
      (w.stores.liveGrounding candidate).verdict.IsSufficient :=
    fun _ _ hgrows hw => ⟨hw.1.grows hgrows, hgrows.liveGrounding hw.2⟩
  unfold promoteWithinTransaction
  refine (Async.sat_ite _ _ _).mpr ⟨fun _ => ha.1, fun _ => ?_⟩
  refine Async.Sat.bind (R := fun _ b r => Settled i candidate.StoredIn b ∧ ∀ run, r = .ok run →
      b.1.stores.historicalRuns.get candidate.sourceHistoricalRunRecordId = run) ?_ ?_
    fun _ _ _ h => h.1.1
  · exact sat_silent (o := .getHistoricalRun _) trivial hstored ha
      fun b hb _ => ⟨hb, fun run hrun => Except.ok.inj hrun⟩
  rintro log b run ⟨hb, hrun⟩
  refine Async.Sat.bind (loadVerification_live hstored hb fun r hr => (hrun run rfl).trans hr) ?_
    fun _ _ _ h => h.1.1
  rintro log b v ⟨hb, hlive⟩
  refine Async.Sat.bind_ofExcept (fun _ hcheck => ?_) fun _ _ => hb.1
  obtain ⟨hfrozen, hsufficient⟩ := checkGroundings_ok hcheck
  have hb' : Settled i (fun w => candidate.StoredIn w ∧
      (w.stores.liveGrounding candidate).verdict.IsSufficient) b :=
    ⟨hb.1, hb.2, hlive v rfl hsufficient⟩
  refine silent_bind (only_checkDecision silent_of_reads candidate _) hlasting hb' fun log b _ hb => ?_
  refine Async.Sat.bind (R := fun log b r => Settled i (fun w => candidate.StoredIn w ∧
      (w.stores.liveGrounding candidate).verdict.IsSufficient) b ∧
      ∀ records, r = .ok records → lastListing log = records) ?_ ?_ fun _ _ _ h => h.1.1
  · exact sat_silent (o := .listPrecedents _) trivial hlasting hb
      fun b hb _ => ⟨hb, fun records hrecords => Except.ok.inj hrecords⟩
  rintro log b records ⟨hb, hlisting⟩
  split
  · exact hb.1
  next hnone =>
  rw [← hlisting records rfl] at hnone
  refine Async.Sat.bind (R := fun log b _ => Settled i (fun w => candidate.StoredIn w ∧
      (w.stores.liveGrounding candidate).verdict.IsSufficient) b ∧
      (lastListing log).find? (·.isActiveFor candidate.learningCandidateId
        candidate.candidateHash) = none) ?_ ?_ fun _ _ _ h => h.1.1
  · exact sat_silent (o := .nextPrecedentId) trivial hlasting hb fun b _ hb => ⟨hb, hnone⟩
  rintro log b id ⟨hb, hnone⟩
  refine Async.Sat.bind (appendPrecedent_sat hfrozen hb hnone) ?_ fun _ _ e h => h.2 e rfl
  rintro log b _ ⟨howing, -⟩
  exact Async.Sat.bind (promoted_sat (howing rfl)) (fun _ _ _ h => h) fun _ _ _ h => h

theorem tryAutoPromote_settles (ha : Settled i candidate.StoredIn a) :
    Settles i (tryAutoPromote X policy candidate) log a := by
  have hstored := lasting_storedIn candidate
  unfold tryAutoPromote
  refine silent_bind (Async.only_await trivial) hstored ha fun log b run hb => ?_
  refine silent_bind (only_loadVerification silent_of_reads run) hstored hb fun log b v hb => ?_
  refine silent_bind (only_assessCandidate X policy silent_of_reads candidate _ _) hstored hb
    fun log b readiness hb => ?_
  refine (Async.sat_ite _ _ _).mpr ⟨fun _ => ?_, fun _ => hb.1⟩
  exact Async.Sat.bind (promoteWithinTransaction_settles hb) (fun _ _ _ h => h) fun _ _ _ h => h

theorem recordReview_settles {input : ReviewInput} (ha : Settled i candidate.StoredIn a) :
    Settles i (recordReview X input candidate) log a := by
  have hstored := lasting_storedIn candidate
  unfold recordReview
  refine silent_bind (Async.only_await trivial) hstored ha fun log b id hb => ?_
  refine silent_bind (Async.only_await trivial) hstored hb fun log b _ hb => ?_
  split
  · exact rejected_sat hb
  · exact hb.1
  · exact Async.Sat.bind (promoteWithinTransaction_settles hb) (fun _ _ _ h => h) fun _ _ _ h => h

theorem reviewCandidate_settles {input : ReviewInput} (ha : a.2 i = none) :
    Settles i (reviewCandidate X policy input) log a := by
  unfold reviewCandidate applyHumanDecision
  have hlasting : Lasting fun _ => True := fun _ _ _ _ => trivial
  refine Async.Sat.bind (R := fun _ b r => b.2 i = none ∧
    ∀ c, r = .ok (some c) → c.StoredIn b.1) ?_ ?_ fun _ _ _ h => h.1
  · exact sat_silent (o := .getCandidate _) trivial hlasting ⟨ha, trivial⟩
      fun b hb _ => ⟨hb.1, fun c hc => storedIn_of_get (Except.ok.inj hc)⟩
  rintro log b found ⟨hb, hfound⟩
  split
  · exact hb
  next candidate =>
  have hstored := lasting_storedIn candidate
  have hb' : Settled i candidate.StoredIn b := ⟨hb, hfound candidate rfl⟩
  refine silent_bind (Async.only_await trivial) hstored hb' fun log b run hb => ?_
  refine silent_bind (only_loadVerification silent_of_reads run) hstored hb fun log b v hb => ?_
  refine silent_bind (only_assessCandidate X policy silent_of_reads candidate _ _) hstored hb
    fun log b readiness hb => ?_
  exact Async.Sat.bind_ofExcept (fun _ _ => recordReview_settles hb) fun _ _ => hb.1

/-- What is persisted is stored. -/
theorem persistCandidates_stored {candidates : List LearningCandidate}
    (hnew : ∀ c ∈ candidates, c.status = .candidate) {persisted : List LearningCandidate}
    (ha : Settled i (fun w => ∀ c ∈ persisted, c.StoredIn w) a) :
    (persistCandidates candidates persisted).Sat (promoting.env i) promoting.Safe
      (fun _ b r => b.2 i = none ∧ ∀ cs, r = .ok cs → ∀ c ∈ cs, c.StoredIn b.1) log a := by
  induction candidates generalizing persisted log a with
  | nil =>
    refine ⟨ha.1, fun cs hcs => ?_⟩
    cases hcs
    exact ha.2
  | cons candidate candidates ih =>
    have hlasting : Lasting fun w => ∀ c ∈ persisted, c.StoredIn w :=
      fun _ _ hgrows hw c hc => (hw c hc).grows hgrows
    refine Async.Sat.bind (R := fun _ b r => Settled i (fun w => ∀ c ∈ persisted, c.StoredIn w) b ∧
      ∀ saved, r = .ok saved → saved.StoredIn b.1) ?_ ?_
      fun _ _ _ h => ⟨h.1.1, fun _ h => nomatch h⟩
    · refine sat_silent (o := .appendCandidate candidate)
        (hnew candidate List.mem_cons_self) hlasting ha fun b _ hb => ⟨hb, fun saved hsaved => ?_⟩
      change (b.1.appendCandidate candidate).1 = _ at hsaved
      show saved.StoredIn (b.1.appendCandidate candidate).2
      rcases appendCandidate_cases b.1 candidate with
        ⟨e, heq⟩ | ⟨existing, heq, hexisting⟩ | ⟨-, heq⟩ <;> rw [heq] at hsaved ⊢
      · cases hsaved
      · rw [← Except.ok.inj hsaved]
        exact hexisting
      · rw [← Except.ok.inj hsaved]
        exact storedIn_of_get (JsMap.get_set_self _ _ _)
    rintro log b saved ⟨hb, hsaved⟩
    refine ih (fun c hc => hnew c (List.mem_cons_of_mem _ hc)) ⟨hb.1, fun c hc => ?_⟩
    split at hc
    · exact hb.2 c hc
    · rcases List.mem_append.mp hc with hc | hc
      · exact hb.2 c hc
      · rw [List.mem_singleton.mp hc]
        exact hsaved saved rfl

theorem learnCandidate_settles {precedents : List PromotedPrecedent}
    (ha : Settled i candidate.StoredIn a) :
    Settles i (learnCandidate X policy precedents candidate) log a := by
  unfold learnCandidate
  refine (Async.sat_ite _ _ _).mpr ⟨fun _ => ha.1, fun _ => ?_⟩
  exact silent_bind (only_detectForCandidate X silent_of_reads candidate precedents fun _ => trivial)
    (lasting_storedIn candidate) ha fun _ _ _ hb => tryAutoPromote_settles hb

theorem learn_settles {record : HistoricalRunRecord} {drafts : List LearningCandidate}
    (ha : a.2 i = none) : Settles i (learn X policy record drafts) log a := by
  have hlasting : Lasting fun _ => True := fun _ _ _ _ => trivial
  unfold learn
  refine silent_bind (only_ensureHistoricalRunRecord silent_of_reads trivial) hlasting ⟨ha, trivial⟩
    fun log b historical hb => ?_
  refine Async.Sat.bind (persistCandidates_stored ?_ ⟨hb.1, fun c hc => nomatch hc⟩) ?_
    fun _ _ _ h => h.1
  · intro c hc
    obtain ⟨draft, -, rfl⟩ := List.mem_map.mp hc
    rfl
  rintro log b persisted ⟨hb, hpersisted⟩
  have hall : Lasting fun w => ∀ c ∈ persisted, c.StoredIn w :=
    fun _ _ hgrows hw c hc => (hw c hc).grows hgrows
  refine silent_bind (Async.only_await trivial) hall ⟨hb, hpersisted persisted rfl⟩
    fun log b precedents hb => ?_
  -- each turn settles, and takes back none of the stored candidates
  refine Async.sat_forEach (I := fun _ b => Settled i (fun w => ∀ c ∈ persisted, c.StoredIn w) b)
    persisted (fun c hc log b hb => ?_) (fun _ _ h => h.1) hb
  have hsettles : Settles i (learnCandidate X policy precedents c) log b :=
    learnCandidate_settles ⟨hb.1, hb.2 c hc⟩
  refine Prog.Sat.post (Guarded.sat_moves hsettles) fun log b' r hr => ?_
  cases r with
  | ok _ => exact ⟨hr.1, hall _ _ hr.2 hb.2⟩
  | error e => exact hr.1

end

/-! ## Runs -/

/-- In every run whose writes are careful, the candidates and the precedents agree when no call is in
progress. -/
theorem candidates_agree (X : MemoryExternal) (policy : PrecedentPromotionPolicy)
    (identities : MemoryIdentities) (outcomes : Option (JsMap String OutcomeVerificationRecord))
    (evidence : Option (List String)) (calls : ι → PromotionCall)
    (acts : List (Action ι MemoryEvent))
    (hcareful : (promotions X policy (MemoryWorld.initial identities outcomes evidence)
      calls).AllAllowed memorySystem (fun _ => Careful) acts)
    (hquiet : NoneInProgress ((promotions X policy (MemoryWorld.initial identities outcomes evidence)
      calls).exec memorySystem acts)) :
    Agreement ((promotions X policy (MemoryWorld.initial identities outcomes evidence)
      calls).exec memorySystem acts).state.stores := by
  have hinit : promoting.Holds (fun _ => none) (fun i _ b _ => b.2 i = none)
      (promotions X policy (MemoryWorld.initial identities outcomes evidence) calls) := by
    refine Guarded.Holds.init (Agreeing.initial identities outcomes evidence) fun i => ?_
    unfold PromotionCall.program
    cases calls i with
    | learn record drafts => exact learn_settles (a := (_, fun _ => none)) rfl
    | reviewCandidate input => exact reviewCandidate_settles (a := (_, fun _ => none)) rfl
  have hholds := hinit.exec acts hcareful
  have hinv : Agreeing _ (Protocol.holdings _ _ _) := hholds.inv
  refine hinv.agreement fun i => ?_
  rcases hquiet i with hlog | ⟨r, hr⟩
  · exact Protocol.holdings_of_log_nil hlog
  · obtain ⟨b, hrely, hb⟩ := hholds.returned hr
    exact hrely.1.trans hb

theorem noneInProgress_of_returned {α : Type} {pool : Pool MemorySig ι MemoryWorld α}
    (h : ∀ i, (pool.log i).isEmpty = true ∨ (pool.returned i).isSome = true) :
    NoneInProgress pool := by
  intro i
  rcases h i with hlog | hreturned
  · exact Or.inl (List.isEmpty_iff.mp hlog)
  · obtain ⟨r, hr⟩ := Option.isSome_iff_exists.mp hreturned
    exact Or.inr ⟨r, Pool.returned_eq_some.mp hr⟩

/-- A run is learned from, and its candidate is reviewed once or twice. -/
def learnedThenReviewed (decision : PromotionDecisionKind) : Fin 3 → PromotionCall
  | 0 => .learn verifiedRun [digestedCandidate]
  | _ => .reviewCandidate {
    learningCandidateId := "learn_cand_1"
    reviewerId := "reviewer"
    decision := decision }

/-- The calls, from the start. -/
def reviewed (policy : PrecedentPromotionPolicy) (decision : PromotionDecisionKind) :
    Pool MemorySig (Fin 3) MemoryWorld (Except MemoryError Unit) :=
  promotions fixedDigest policy (MemoryWorld.initial numberedIdentities none none)
    (learnedThenReviewed decision)

/-- The first call, and then the second. -/
def oneAfterTheOther : List (Action (Fin 3) MemoryEvent) :=
  List.replicate 20 (.run 0) ++ List.replicate 20 (.run 1)

/-- The first call, and then the two others in step. -/
def twoInStep : List (Action (Fin 3) MemoryEvent) :=
  List.replicate 20 (.run 0) ++ (List.replicate 20 [.run 1, .run 2]).flatten

/-- A candidate that was promoted by itself and is promoted again by a reviewer agrees with its
precedent. -/
theorem candidates_agree_promoted :
    Agreement ((reviewed defaultPromotionPolicy .promote).exec memorySystem
      oneAfterTheOther).state.stores :=
  candidates_agree fixedDigest defaultPromotionPolicy numberedIdentities none none
    (learnedThenReviewed .promote) oneAfterTheOther (by decide)
    (noneInProgress_of_returned (by decide))

/-- The policy that leaves every promotion to a reviewer. -/
def reviewOnly : PrecedentPromotionPolicy :=
  { defaultPromotionPolicy with allowAutoPromotion := false }

/-- A candidate that was promoted and is rejected keeps its active precedent, and two reviewers that
promote a candidate at once give it two. -/
theorem agreement_broken :
    (NoneInProgress ((reviewed defaultPromotionPolicy .reject).exec memorySystem
        oneAfterTheOther) ∧
      ∃ c ∈ ((reviewed defaultPromotionPolicy .reject).exec memorySystem
          oneAfterTheOther).state.stores.candidates.byId.values,
        ∃ p ∈ ((reviewed defaultPromotionPolicy .reject).exec memorySystem
            oneAfterTheOther).state.stores.precedents.byKey.values,
          c.status = .rejected ∧ p.candidateId = c.learningCandidateId ∧ p.status = .active) ∧
    NoneInProgress ((reviewed reviewOnly .promote).exec memorySystem twoInStep) ∧
      ∃ p ∈ ((reviewed reviewOnly .promote).exec memorySystem
          twoInStep).state.stores.precedents.byKey.values,
        ∃ q ∈ ((reviewed reviewOnly .promote).exec memorySystem
            twoInStep).state.stores.precedents.byKey.values,
          p.status = .active ∧ q.status = .active ∧ p.candidateId = q.candidateId ∧
            p.candidateHash = q.candidateHash ∧ p.precedentId ≠ q.precedentId :=
  ⟨⟨noneInProgress_of_returned (by decide), by decide⟩,
    noneInProgress_of_returned (by decide +kernel), by decide +kernel⟩

end Orchestrator.Memory
