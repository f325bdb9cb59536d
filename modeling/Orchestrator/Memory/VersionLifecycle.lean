import Orchestrator.Memory.Footprint
import Orchestrator.Memory.ProjectIsolation
import Orchestrator.Memory.VersionHistory
import Orchestrator.Memory.Versions

/-!
# The lifecycle of versions

In every history of calls that leaves retired precedents alone, the versions of a precedent follow
each other, only the last one is active, and what was retired stays out of use. Nothing in the code
keeps a call from leaving them alone: a retired precedent can be superseded.

* `Lifecycle`, `HasVersion`: what is kept;
* `MemoryCall.SparesRetired`: a call leaves retired precedents alone;
* `kept_performed`: what each call keeps;
* `precedent_lifecycle`: what every such history keeps.
-/

namespace Orchestrator.Memory

open Atomic Collections

/-! ## What is kept -/

/-- The versions of every precedent are numbered from one without gaps, and one that is active is
the last one. -/
structure Lifecycle (r : PrecedentRepository) : Prop where
  consecutive : ∀ id, ∃ n, r.versions id = List.range' 1 n ∧
    ∀ v, (r.getVersion id v).isSome = true ↔ 1 ≤ v ∧ v ≤ n
  activeIsLatest : ∀ id v p, r.getVersion id v = some p → p.status = .active →
    r.getLatestVersion id = some p

/-- Some version of the precedent has the status. -/
def PrecedentRepository.HasVersion (r : PrecedentRepository) (id : String)
    (status : PrecedentStatus) : Prop :=
  ∃ v p, r.getVersion id v = some p ∧ p.status = status

/-- The call does not give a new version to a precedent whose last version, or whose version that
it was asked to upgrade, is retired. -/
def MemoryCall.SparesRetired (r : PrecedentRepository) : MemoryCall → Prop
  | .supersedePrecedent id _ => ∀ old, r.getLatestVersion id = some old →
      old.grounding.verdict = .ungrounded ∨ old.status ≠ .retired
  | .maybeUpgradeTrust precedent runs threshold => isUpgradeDue precedent runs threshold = true →
      ∀ old, r.getVersion precedent.precedentId precedent.version = some old →
        old.status ≠ .retired
  | _ => True

/-- The step is no call, or one that leaves retired precedents alone. -/
def MemoryStep.SparesRetired (w : MemoryWorld) : MemoryStep → Prop
  | .call c => c.SparesRetired w.stores.precedents
  | .event _ => True

instance (r : PrecedentRepository) : (c : MemoryCall) → Decidable (c.SparesRetired r)
  | .supersedePrecedent id _ =>
    inferInstanceAs (Decidable (∀ old ∈ r.getLatestVersion id,
      old.grounding.verdict = .ungrounded ∨ old.status ≠ .retired))
  | .maybeUpgradeTrust precedent runs threshold =>
    inferInstanceAs (Decidable (isUpgradeDue precedent runs threshold = true →
      ∀ old ∈ r.getVersion precedent.precedentId precedent.version, old.status ≠ .retired))
  | .learn _ _ => .isTrue trivial
  | .reviewCandidate _ => .isTrue trivial
  | .retirePrecedent _ => .isTrue trivial

instance (w : MemoryWorld) : (step : MemoryStep) → Decidable (step.SparesRetired w)
  | .call c => inferInstanceAs (Decidable (c.SparesRetired w.stores.precedents))
  | .event _ => .isTrue trivial

theorem PrecedentRepository.hasVersion_of_any {r : PrecedentRepository} {id : String}
    {status : PrecedentStatus} (v : ℕ) (h : (r.getVersion id v).any (·.status = status) = true) :
    r.HasVersion id status := by
  cases hget : r.getVersion id v with
  | none =>
    rw [hget] at h
    cases h
  | some p =>
    rw [hget] at h
    exact ⟨v, p, hget, of_decide_eq_true h⟩

namespace PrecedentRepository.Kept

variable {retired : Set String} {r : PrecedentRepository}

theorem empty : PrecedentRepository.empty.Kept ∅ :=
  ⟨_, represents_empty, {
    superseded := fun _ _ h => nomatch h
    retired := fun _ h => absurd h (Set.notMem_empty _) }⟩

/-- A version that is not superseded is the last one. -/
theorem latest_of_ne (hr : r.Kept retired) {id : String} {v : ℕ} {p : PromotedPrecedent}
    (hget : r.getVersion id v = some p) (hstatus : p.status ≠ .superseded) :
    r.getLatestVersion id = some p := by
  obtain ⟨h, hrep, htidy⟩ := hr
  rw [hrep.getLatestVersion]
  rw [hrep.getVersion] at hget
  split at hget
  · next hpos =>
    obtain ⟨hlt, hgetElem⟩ := List.getElem?_eq_some_iff.mp hget
    by_cases hlast : v = (h id).length
    · rw [List.getLast?_eq_getElem?, ← hlast]
      exact hget
    · refine absurd (htidy.superseded id p ?_) hstatus
      rw [List.dropLast_eq_take]
      exact List.mem_take_iff_getElem.mpr ⟨v - 1, by omega, hgetElem⟩
  · cases hget

theorem lifecycle (hr : r.Kept retired) : Lifecycle r where
  consecutive id := by
    obtain ⟨h, hrep, -⟩ := hr
    refine ⟨_, hrep.versions id, fun v => ?_⟩
    rw [hrep.getVersion]
    split
    · rw [Option.isSome_iff_ne_none, ne_eq, List.getElem?_eq_none_iff]
      omega
    · simp only [Option.isSome_none, Bool.false_eq_true, false_iff]
      omega
  activeIsLatest id v p hget hactive := hr.latest_of_ne hget (by rw [hactive]; decide)

/-- A precedent that has a retired version is one whose last version is retired. -/
theorem of_retired (hr : r.Kept ∅) {id : String} (hretired : r.HasVersion id .retired) :
    r.Kept {id} := by
  obtain ⟨v, p, hget, hstatus⟩ := hretired
  have hlatest := hr.latest_of_ne hget (by rw [hstatus]; decide)
  obtain ⟨h, hrep, htidy⟩ := hr
  refine ⟨h, hrep, ⟨htidy.superseded, fun id' hid' => ⟨p, ?_, hstatus⟩⟩⟩
  rw [Set.mem_singleton_iff.mp hid', ← hrep.getLatestVersion]
  exact hlatest

theorem not_active (hr : r.Kept retired) {id : String} (hid : id ∈ retired) :
    ¬r.HasVersion id .active := by
  rintro ⟨v, p, hget, hactive⟩
  have hlatest := hr.latest_of_ne hget (by rw [hactive]; decide)
  obtain ⟨h, hrep, htidy⟩ := hr
  obtain ⟨q, hq, hretired⟩ := htidy.retired id hid
  rw [hrep.getLatestVersion, hq] at hlatest
  rw [Option.some.inj hlatest, hactive] at hretired
  cases hretired

end PrecedentRepository.Kept

/-! ## Learning and reviews -/

/-- The call appends no version but a first one. -/
def AppendsFirst : MemoryOp → Prop
  | .appendPrecedent p => p.version = 1
  | .updatePrecedentStatus _ _ _ => False
  | _ => True

theorem kept_memoryHandler {retired : Set String} {o : MemoryOp} (ho : AppendsFirst o)
    {w : MemoryWorld} (hw : w.stores.precedents.Kept retired) :
    (memoryHandler o w).2.stores.precedents.Kept retired := by
  cases o with
  | updatePrecedentStatus id version status => cases ho
  | appendPrecedent p =>
    change (w.writePrecedents (w.stores.precedents.append p)).2.stores.precedents.Kept retired
    cases happend : w.stores.precedents.append p with
    | ok r => exact hw.appendFirst ho happend
    | error e => exact hw
  | appendCandidate c =>
    change (w.appendCandidate c).2.stores.precedents.Kept retired
    unfold MemoryWorld.appendCandidate
    simp only
    split
    · exact hw
    split
    · exact hw
    split <;> exact hw
  | updateCandidateStatus id status =>
    change (w.updateCandidateStatus id status).2.stores.precedents.Kept retired
    unfold MemoryWorld.updateCandidateStatus
    split <;> exact hw
  | appendHistoricalRun record =>
    change (w.appendHistoricalRun record).2.stores.precedents.Kept retired
    unfold MemoryWorld.appendHistoricalRun
    split
    · exact hw
    split <;> exact hw
  | appendContradiction record =>
    change (w.appendContradiction record).2.stores.precedents.Kept retired
    unfold MemoryWorld.appendContradiction
    simp only
    split <;> exact hw
  | appendDecision decision =>
    change (w.appendDecision decision).2.stores.precedents.Kept retired
    unfold MemoryWorld.appendDecision
    split
    · exact hw
    split <;> exact hw
  | _ => exact hw

theorem appendsFirst_of_reads (o : MemoryOp) (h : o.Reads) : AppendsFirst o := by
  cases o <;> trivial

/-- A program that appends no version but first ones keeps tidy histories. -/
theorem kept_exec {α : Type} {retired : Set String} {p : MemoryProg α} (hp : p.Only AppendsFirst)
    {w : MemoryWorld} (hw : w.stores.precedents.Kept retired) :
    (p.exec memoryHandler w).2.stores.precedents.Kept retired :=
  keeps_exec (I := fun w => w.stores.precedents.Kept retired) hp (fun _ _ ho h => kept_memoryHandler ho h) hw

/-! ## New versions -/

section

variable (X : MemoryExternal) {retired : Set String} {w : MemoryWorld}

/-- A sequence keeps tidy histories if both its parts do. -/
theorem kept_bind {α β : Type} {p : MemoryProg α} {f : α → MemoryProg β}
    (hp : (p.exec memoryHandler w).2.stores.precedents.Kept retired)
    (hf : ∀ a w', p.exec memoryHandler w = (.ok a, w') →
      ((f a).exec memoryHandler w').2.stores.precedents.Kept retired) :
    ((p >>= f).exec memoryHandler w).2.stores.precedents.Kept retired := by
  rw [Async.bind_eq, Async.exec_bind]
  cases hexec : p.exec memoryHandler w with
  | mk r w' =>
    rw [hexec] at hp
    cases r with
    | ok a => exact hf a w' hexec
    | error e => exact hp

theorem kept_write {r : Except MemoryError PrecedentRepository}
    (hw : w.stores.precedents.Kept retired) (hr : ∀ r', r = .ok r' → r'.Kept retired) :
    (w.writePrecedents r).2.stores.precedents.Kept retired := by
  cases r with
  | ok r => exact hr r rfl
  | error e => exact hw

theorem writePrecedents_ok {r : Except MemoryError PrecedentRepository} {u : Unit}
    {w' : MemoryWorld} (h : w.writePrecedents r = (.ok u, w')) :
    ∃ r', r = .ok r' ∧ w' = w.withPrecedents r' := by
  cases r with
  | ok r =>
    cases h
    exact ⟨r, rfl, rfl⟩
  | error e => cases h

theorem updateStatus_ok {r r' : PrecedentRepository} {id : String} {v : ℕ}
    {status : PrecedentStatus} (h : r.updateStatus id v status = .ok r') :
    ∃ p, r.getVersion id v = some p ∧ r' = r.withStatus p status := by
  unfold PrecedentRepository.updateStatus at h
  split at h
  · cases h
  · next p hget =>
    cases h
    exact ⟨p, hget, rfl⟩

/-- A version is superseded by the next one, if it is not retired. -/
theorem kept_replace {β : Type} {id : String} {v : ℕ} {next : PromotedPrecedent} {b : β}
    (hid : next.precedentId = id) (hversion : next.version = v + 1)
    (hstatus : ∀ old, w.stores.precedents.getVersion id v = some old → old.status ≠ .retired)
    (hw : w.stores.precedents.Kept retired) :
    ((do
      call (.updatePrecedentStatus id v .superseded)
      call (.appendPrecedent next)
      return b : MemoryProg β).exec memoryHandler w).2.stores.precedents.Kept retired := by
  have hnext : ∀ old, w.stores.precedents.getVersion id v = some old → ∀ r',
      (w.stores.precedents.withStatus old .superseded).append next = .ok r' → r'.Kept retired :=
    fun old hold r' happend => (hw.next hold (hstatus old hold)).2 next hid hversion happend
  have hsuperseded : ∀ old, w.stores.precedents.getVersion id v = some old →
      (w.stores.precedents.withStatus old .superseded).Kept retired :=
    fun old hold => (@PrecedentRepository.Kept.next retired w.stores.precedents
      w.stores.precedents hw id v old hold (hstatus old hold)).1
  refine kept_bind (kept_write hw fun r' hr' => ?_) fun _ w' hexec => ?_
  · obtain ⟨old, hold, rfl⟩ := updateStatus_ok hr'
    exact hsuperseded old hold
  · obtain ⟨r', hr', rfl⟩ := writePrecedents_ok hexec
    obtain ⟨old, hold, rfl⟩ := updateStatus_ok hr'
    refine kept_bind (kept_write (hsuperseded old hold) (hnext old hold)) fun _ w'' hexec' => ?_
    obtain ⟨r'', hr'', rfl⟩ := writePrecedents_ok hexec'
    exact hnext old hold r'' hr''

theorem kept_supersedePrecedent {id statement : String}
    (hspares : (MemoryCall.supersedePrecedent id statement).SparesRetired w.stores.precedents)
    (hw : w.stores.precedents.Kept retired) :
    ((supersedePrecedent X id statement).exec memoryHandler w).2.stores.precedents.Kept
      retired := by
  unfold supersedePrecedent
  have hread : (call (.getPrecedent id)).exec memoryHandler w =
      (.ok (w.stores.precedents.getLatestVersion id), w) := rfl
  rw [Async.exec_bind_of_ok hread]
  cases hold : w.stores.precedents.getLatestVersion id with
  | none => exact hw
  | some old =>
    simp only
    rw [Async.exec_ite]
    split
    · exact hw
    · next hgrounded =>
      refine kept_replace rfl rfl (fun stored hstored => ?_) hw
      obtain ⟨h, hrep, -⟩ := hw
      have hlast := hold
      rw [hrep.getLatestVersion] at hlast
      obtain ⟨hid, -, hget⟩ := hrep.getVersion_latest hlast
      rw [hid, hget] at hstored
      rw [← Option.some.inj hstored]
      exact (hspares old hold).resolve_left hgrounded

theorem kept_retirePrecedent {id : String} (hw : w.stores.precedents.Kept retired) :
    ((retirePrecedent id).exec memoryHandler w).2.stores.precedents.Kept retired := by
  unfold retirePrecedent
  have hread : (call (.getPrecedent id)).exec memoryHandler w =
      (.ok (w.stores.precedents.getLatestVersion id), w) := rfl
  rw [Async.exec_bind_of_ok hread]
  cases hold : w.stores.precedents.getLatestVersion id with
  | none => exact hw
  | some old =>
    have hget : w.stores.precedents.getVersion old.precedentId old.version = some old := by
      obtain ⟨h, hrep, -⟩ := hw
      have hlast := hold
      rw [hrep.getLatestVersion] at hlast
      obtain ⟨hid, -, hget⟩ := hrep.getVersion_latest hlast
      rw [hid]
      exact hget
    refine kept_write hw fun r' hr' => ?_
    obtain ⟨stored, hstored, rfl⟩ := updateStatus_ok hr'
    rw [hget] at hstored
    rw [← Option.some.inj hstored]
    exact hw.retire hold

theorem kept_maybeUpgradeTrust {p : PromotedPrecedent} {runs threshold : ℕ}
    (hspares : (MemoryCall.maybeUpgradeTrust p runs threshold).SparesRetired w.stores.precedents)
    (hw : w.stores.precedents.Kept retired) :
    ((maybeUpgradeTrust X p runs threshold).exec memoryHandler w).2.stores.precedents.Kept
      retired := by
  unfold maybeUpgradeTrust
  rw [Async.exec_ite]
  split
  · next hdue => exact kept_replace rfl rfl (hspares hdue) hw
  · exact hw

/-- A step that leaves retired precedents alone keeps the histories tidy. -/
theorem kept_performed (policy : PrecedentPromotionPolicy) {step : MemoryStep}
    (hspares : step.SparesRetired w) (hw : w.stores.precedents.Kept retired) :
    (performed X policy w step).stores.precedents.Kept retired := by
  -- what a call answers its caller with changes nothing
  have hignored : ∀ {α : Type} (p : MemoryProg α),
      (p.exec memoryHandler w).2.stores.precedents.Kept retired →
      ((do let _ ← p; return () : MemoryProg Unit).exec memoryHandler w).2.stores.precedents.Kept
        retired := by
    intro α p hp
    refine kept_bind hp fun _ w' hexec => ?_
    rw [hexec] at hp
    exact hp
  cases step with
  | event e => cases e <;> exact hw
  | call c =>
    unfold performed
    cases c with
    | learn record drafts =>
      have honly : (learn X policy record drafts).Only AppendsFirst :=
        only_learn X policy appendsFirst_of_reads trivial (fun _ _ => trivial) (fun _ => trivial)
          trivial (fun _ _ _ => rfl) fun _ => trivial
      exact kept_exec honly hw
    | reviewCandidate input =>
      have honly : (reviewCandidate X policy input).Only AppendsFirst :=
        only_reviewCandidate X policy appendsFirst_of_reads input trivial trivial
          (fun _ => trivial) (fun _ _ _ => rfl) fun _ _ => trivial
      exact kept_exec honly hw
    | supersedePrecedent id statement =>
      exact hignored _ (kept_supersedePrecedent X hspares hw)
    | retirePrecedent id => exact kept_retirePrecedent hw
    | maybeUpgradeTrust p runs threshold =>
      exact hignored _ (kept_maybeUpgradeTrust X hspares hw)

end

/-! ## Histories of calls -/

section

variable (X : MemoryExternal) (policy : PrecedentPromotionPolicy)

theorem kept_after {retired : Set String} {w : MemoryWorld} {steps : List MemoryStep}
    (hspares : Along (performed X policy) MemoryStep.SparesRetired w steps)
    (hw : w.stores.precedents.Kept retired) :
    (after (performed X policy) w steps).stores.precedents.Kept retired :=
  Along.keeps (I := fun w => w.stores.precedents.Kept retired)
    (fun _ _ hstep hw => kept_performed X policy hstep hw) hspares hw

/-- In a history of calls that leave retired precedents alone, the versions of a precedent follow
each other, only the last is active, and a precedent that was retired is not active again. -/
theorem precedent_lifecycle (identities : MemoryIdentities)
    (outcomes : Option (JsMap String OutcomeVerificationRecord)) (evidence : Option (List String))
    (steps : List MemoryStep)
    (hspares : Along (performed X policy) MemoryStep.SparesRetired
      (MemoryWorld.initial identities outcomes evidence) steps) :
    Lifecycle (after (performed X policy) (MemoryWorld.initial identities outcomes evidence)
      steps).stores.precedents ∧
    ∀ earlier later, steps = earlier ++ later → ∀ id,
      (after (performed X policy) (MemoryWorld.initial identities outcomes evidence)
        earlier).stores.precedents.HasVersion id .retired →
      ¬(after (performed X policy) (MemoryWorld.initial identities outcomes evidence)
        steps).stores.precedents.HasVersion id .active := by
  have hinitial : (MemoryWorld.initial identities outcomes evidence).stores.precedents.Kept ∅ :=
    PrecedentRepository.Kept.empty
  refine ⟨(kept_after X policy hspares hinitial).lifecycle, fun earlier later hsteps id hid => ?_⟩
  rw [hsteps] at hspares ⊢
  rw [after_append]
  obtain ⟨hearlier, hlater⟩ := along_append.mp hspares
  have hretired := (kept_after X policy hearlier hinitial).of_retired hid
  exact (kept_after X policy hlater hretired).not_active (Set.mem_singleton id)

end

/-- One text for every hash. -/
def fixedDigest : MemoryExternal := ⟨fun _ => "digest", fun a b => decide (a ≤ b), id⟩

def numberedIdentities : MemoryIdentities where
  precedent n := "precedent_" ++ toString n
  promotionDecision n := "decision_" ++ toString n

/-- `successDraft` under these hashes. -/
def digestedCandidate : LearningCandidate := { successDraft with
  candidateHash := "digest"
  provenance := { successDraft.provenance with provenanceHash := "digest" } }

/-- The world after the steps, from the start. -/
def history (steps : List MemoryStep) : MemoryWorld :=
  after (performed fixedDigest defaultPromotionPolicy)
    (MemoryWorld.initial numberedIdentities none none) steps

/-- A precedent that is superseded and then retired has no active version. -/
theorem precedent_lifecycle_retired :
    ¬(history [.call (.learn verifiedRun [digestedCandidate]),
      .call (.supersedePrecedent "precedent_0" "It works still."),
      .call (.retirePrecedent "precedent_0")]).stores.precedents.HasVersion "precedent_0"
        .active :=
  (precedent_lifecycle fixedDigest defaultPromotionPolicy numberedIdentities none none _
    (by decide)).2 _ [] (List.append_nil _).symm "precedent_0"
      (PrecedentRepository.hasVersion_of_any 2 (by decide))

/-- A precedent that is retired and then superseded is active again. -/
theorem retired_precedent_active :
    (history [.call (.learn verifiedRun [digestedCandidate]),
      .call (.retirePrecedent "precedent_0")]).stores.precedents.HasVersion "precedent_0"
        .retired ∧
    (history [.call (.learn verifiedRun [digestedCandidate]),
      .call (.retirePrecedent "precedent_0"),
      .call (.supersedePrecedent "precedent_0" "It works still.")]).stores.precedents.HasVersion
        "precedent_0" .active :=
  ⟨PrecedentRepository.hasVersion_of_any 1 (by decide),
    PrecedentRepository.hasVersion_of_any 2 (by decide)⟩

end Orchestrator.Memory
