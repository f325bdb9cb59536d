import Orchestrator.Memory.Stores

/-!
# Version histories

What the repository of precedents is for: for each id, the list of the versions of a precedent, of
which only the last one may be in use.

* `VersionHistory`, `Represents`: the histories, and that a repository holds them;
* `Represents.append`, `Represents.withStatus`: what the writes of the repository do to them;
* `Tidy`: every version but the last is superseded;
* `PrecedentRepository.Kept`: a repository with a tidy history, and what keeps it one.
-/

namespace Orchestrator.Memory

open Collections
open Function (update)

/-! ## Histories -/

/-- For each id of a precedent its versions, the first one first. -/
abbrev VersionHistory := String → List PromotedPrecedent

/-- The repository holds the histories: version `v` of a precedent is the `v`-th of its history. -/
structure Represents (r : PrecedentRepository) (h : VersionHistory) : Prop where
  versions : ∀ id, r.versions id = List.range' 1 (h id).length
  getVersion : ∀ id v, r.getVersion id v = if 0 < v then (h id)[v - 1]? else none

theorem represents_empty : Represents PrecedentRepository.empty fun _ => [] where
  versions _ := rfl
  getVersion _ v := by
    rw [List.getElem?_nil, ite_self]
    rfl

namespace Represents

variable {r : PrecedentRepository} {h : VersionHistory}

theorem getLatestVersion (hr : Represents r h) (id : String) :
    r.getLatestVersion id = (h id).getLast? := by
  unfold PrecedentRepository.getLatestVersion
  rw [hr.versions, List.getLast?_range']
  cases hlength : (h id).length with
  | zero => rw [List.eq_nil_of_length_eq_zero hlength]; rfl
  | succ n =>
    rw [if_neg (by omega), Option.bind_some, hr.getVersion, if_pos (by omega),
      List.getLast?_eq_getElem?, hlength]
    congr 1
    omega

/-- The last version of a history is stored under its own number. -/
theorem getVersion_latest (hr : Represents r h) {id : String} {old : PromotedPrecedent}
    (hold : (h id).getLast? = some old) :
    old.precedentId = id ∧ old.version = (h id).length ∧ r.getVersion id old.version = some old := by
  have hne : (h id) ≠ [] := by
    intro hnil
    rw [hnil] at hold
    cases hold
  have hpos := List.length_pos_iff.mpr hne
  have hget : r.getVersion id (h id).length = some old := by
    rw [hr.getVersion, if_pos hpos, ← List.getLast?_eq_getElem?, hold]
  obtain ⟨hid, hversion⟩ := PrecedentRepository.id_of_getVersion hget
  exact ⟨hid, hversion, by rw [hversion]; exact hget⟩

theorem getVersion_set {m : JsMap String PromotedPrecedent} {p q : PromotedPrecedent}
    (id : String) (v : ℕ) :
    (m.set (precedentKey p.precedentId p.version) q).get (precedentKey id v) =
      if p.precedentId = id ∧ p.version = v then some q else m.get (precedentKey id v) := by
  rw [JsMap.get_set]
  by_cases hkey : p.precedentId = id ∧ p.version = v
  · rw [if_pos (by rw [hkey.1, hkey.2]), if_pos hkey]
  · rw [if_neg fun heq => hkey (precedentKey_inj heq), if_neg hkey]

/-- A version that is appended comes after the last one. -/
theorem append (hr : Represents r h) {p : PromotedPrecedent} {r' : PrecedentRepository}
    (happend : r.append p = .ok r') (hversion : p.version = (h p.precedentId).length + 1) :
    Represents r' (update h p.precedentId (h p.precedentId ++ [p])) := by
  unfold PrecedentRepository.append at happend
  split at happend
  · cases happend
  split at happend
  · cases happend
  cases happend
  constructor
  · intro id
    change ((r.versionsById.set p.precedentId
      ((r.versions p.precedentId ++ [p.version]).insertionSort (· ≤ ·))).get id).getD [] = _
    rw [JsMap.get_set]
    by_cases hid : p.precedentId = id
    · subst hid
      have hsorted : (List.range' 1 ((h p.precedentId).length + 1)).Pairwise (· ≤ ·) :=
        List.pairwise_le_range'
      have hnext : List.range' 1 (h p.precedentId).length ++ [p.version] =
          List.range' 1 ((h p.precedentId).length + 1) := by
        rw [List.range'_concat, hversion, one_mul, Nat.add_comm 1]
      rw [if_pos rfl, Option.getD_some, Function.update_self, List.length_append,
        List.length_singleton, hr.versions, hnext, hsorted.insertionSort_eq]
    · rw [if_neg hid, Function.update_of_ne (Ne.symm hid)]
      exact hr.versions id
  · intro id v
    unfold PrecedentRepository.getVersion
    rw [getVersion_set]
    have hold := hr.getVersion id v
    unfold PrecedentRepository.getVersion at hold
    by_cases hid : p.precedentId = id
    · subst hid
      rw [Function.update_self, hold]
      by_cases hv : p.version = v
      · rw [if_pos ⟨rfl, hv⟩, if_pos (by omega), List.getElem?_append_right (by omega),
          show v - 1 - (h p.precedentId).length = 0 by omega]
        rfl
      · rw [if_neg fun heq => hv heq.2]
        by_cases hpos : 0 < v
        · rw [if_pos hpos, if_pos hpos, List.getElem?_append]
          split
          · rfl
          · rw [List.getElem?_eq_none (by omega), List.getElem?_eq_none]
            rw [List.length_singleton]
            omega
        · rw [if_neg hpos, if_neg hpos]
    · rw [if_neg fun heq => hid heq.1, Function.update_of_ne (Ne.symm hid), hold]

/-- A version that is there is not appended again. -/
theorem append_error (hr : Represents r h) {p : PromotedPrecedent} (hpos : 0 < p.version)
    (hle : p.version ≤ (h p.precedentId).length) : ∃ e, r.append p = .error e := by
  have hhas : r.byKey.has (precedentKey p.precedentId p.version) = true := by
    have hget := hr.getVersion p.precedentId p.version
    rw [if_pos hpos, List.getElem?_eq_getElem (by omega)] at hget
    unfold JsMap.has
    exact Option.isSome_of_eq_some hget
  unfold PrecedentRepository.append
  split
  · exact ⟨_, rfl⟩
  · exact ⟨_, rfl⟩

/-- A change of the status of a version that is stored. -/
theorem withStatus (hr : Represents r h) {p : PromotedPrecedent} {id : String} {v : ℕ}
    (hget : r.getVersion id v = some p) (status : PrecedentStatus) :
    0 < v ∧ Represents (r.withStatus p status)
      (update h id ((h id).set (v - 1) { p with status := status })) := by
  obtain ⟨hid, hversion⟩ := PrecedentRepository.id_of_getVersion hget
  subst hid
  subst hversion
  rw [hr.getVersion] at hget
  have hpos : 0 < p.version := by
    by_contra hnot
    rw [if_neg hnot] at hget
    cases hget
  rw [if_pos hpos] at hget
  have hlt : p.version - 1 < (h p.precedentId).length := by
    by_contra hnot
    rw [List.getElem?_eq_none (by omega)] at hget
    cases hget
  refine ⟨hpos, fun id => ?_, fun id v => ?_⟩
  · by_cases hid : p.precedentId = id
    · subst hid
      rw [Function.update_self, List.length_set]
      exact hr.versions _
    · rw [Function.update_of_ne (Ne.symm hid)]
      exact hr.versions id
  · unfold PrecedentRepository.getVersion PrecedentRepository.withStatus
    simp only
    rw [getVersion_set]
    have hold := hr.getVersion id v
    unfold PrecedentRepository.getVersion at hold
    by_cases hid : p.precedentId = id
    · subst hid
      rw [Function.update_self, hold, List.getElem?_set]
      by_cases hv : p.version = v
      · subst hv
        rw [if_pos ⟨rfl, rfl⟩, if_pos hpos, if_pos rfl, if_pos hlt]
      · rw [if_neg fun heq => hv heq.2]
        by_cases hpos' : 0 < v
        · rw [if_pos hpos', if_pos hpos', if_neg (by omega)]
        · rw [if_neg hpos', if_neg hpos']
    · rw [if_neg fun heq => hid heq.1, Function.update_of_ne (Ne.symm hid), hold]

end Represents

/-! ## Tidy histories -/

/-- Every version but the last is superseded, and the last version of each of the precedents in
`retired` is retired. -/
structure Tidy (retired : Set String) (h : VersionHistory) : Prop where
  superseded : ∀ id, ∀ p ∈ (h id).dropLast, p.status = .superseded
  retired : ∀ id ∈ retired, ∃ p, (h id).getLast? = some p ∧ p.status = .retired

namespace Tidy

variable {retired : Set String} {h : VersionHistory} {id : String}

/-- A history of which one precedent changes. -/
theorem updated (ht : Tidy retired h) {ps : List PromotedPrecedent}
    (hsuperseded : ∀ p ∈ ps.dropLast, p.status = .superseded)
    (hretired : id ∈ retired → ∃ p, ps.getLast? = some p ∧ p.status = .retired) :
    Tidy retired (update h id ps) := by
  refine ⟨fun id' => ?_, fun id' hid' => ?_⟩ <;> by_cases heq : id' = id
  · subst heq
    rw [Function.update_self]
    exact hsuperseded
  · rw [Function.update_of_ne heq]
    exact ht.superseded id'
  · subst heq
    rw [Function.update_self]
    exact hretired hid'
  · rw [Function.update_of_ne heq]
    exact ht.retired id' hid'

/-- A version is added where the last one is superseded, or where there is none. -/
theorem push (ht : Tidy retired h) {p : PromotedPrecedent}
    (hlast : ∀ q, (h id).getLast? = some q → q.status = .superseded) :
    Tidy retired (update h id (h id ++ [p])) := by
  refine ht.updated (fun q hq => ?_) fun hid => ?_
  · rw [List.dropLast_concat] at hq
    rcases List.eq_nil_or_concat (h id) with hnil | ⟨l, last, hl⟩
    · rw [hnil] at hq
      cases hq
    · have hdrop := ht.superseded id
      rw [List.concat_eq_append] at hl
      rw [hl] at hq hlast hdrop
      rw [List.dropLast_concat] at hdrop
      rcases List.mem_append.mp hq with hq | hq
      · exact hdrop q hq
      · rw [List.mem_singleton.mp hq]
        exact hlast last List.getLast?_concat
  · obtain ⟨q, hq, hstatus⟩ := ht.retired id hid
    rw [hlast q hq] at hstatus
    cases hstatus

/-- The last version is retired, or superseded where it was not retired. -/
theorem setLast (ht : Tidy retired h) {old : PromotedPrecedent} {status : PrecedentStatus}
    (hold : (h id).getLast? = some old)
    (hstatus : status = .retired ∨ old.status ≠ .retired) :
    Tidy retired (update h id ((h id).dropLast ++ [{ old with status := status }])) := by
  refine ht.updated (fun q hq => ?_) fun hid => ⟨{ old with status := status }, ?_, ?_⟩
  · rw [List.dropLast_concat] at hq
    exact ht.superseded id q hq
  · exact List.getLast?_concat
  · rcases hstatus with hstatus | hstatus
    · exact hstatus
    · obtain ⟨q, hq, hretired⟩ := ht.retired id hid
      rw [hold] at hq
      rw [← Option.some.inj hq] at hretired
      exact absurd hretired hstatus

end Tidy

/-! ## Tidy repositories -/

/-- The repository holds a tidy history. -/
def PrecedentRepository.Kept (retired : Set String) (r : PrecedentRepository) : Prop :=
  ∃ h, Represents r h ∧ Tidy retired h

theorem set_last {α : Type} {l : List α} (hl : l ≠ []) (a : α) :
    l.set (l.length - 1) a = l.dropLast ++ [a] := by
  rcases List.eq_nil_or_concat l with hnil | ⟨l', b, rfl⟩
  · exact absurd hnil hl
  · rw [List.concat_eq_append, List.length_append, List.length_singleton, Nat.add_sub_cancel,
      List.dropLast_concat, List.set_append, if_neg (lt_irrefl _), Nat.sub_self, List.set_cons_zero]

namespace PrecedentRepository.Kept

variable {retired : Set String} {r r' : PrecedentRepository}

/-- A first version is appended to no history or not at all. -/
theorem appendFirst (hr : r.Kept retired) {p : PromotedPrecedent} (hversion : p.version = 1)
    (happend : r.append p = .ok r') : r'.Kept retired := by
  obtain ⟨h, hrep, htidy⟩ := hr
  by_cases hlength : (h p.precedentId).length = 0
  · refine ⟨_, hrep.append happend (by omega), htidy.push fun q hq => ?_⟩
    rw [List.eq_nil_of_length_eq_zero hlength] at hq
    cases hq
  · obtain ⟨e, he⟩ := hrep.append_error (p := p) (by omega) (by omega)
    rw [he] at happend
    cases happend

/-- The last version of a precedent is retired. -/
theorem retire (hr : r.Kept retired) {id : String} {old : PromotedPrecedent}
    (hold : r.getLatestVersion id = some old) : (r.withStatus old .retired).Kept retired := by
  obtain ⟨h, hrep, htidy⟩ := hr
  rw [hrep.getLatestVersion] at hold
  obtain ⟨hid, hversion, hget⟩ := hrep.getVersion_latest hold
  have hne : h id ≠ [] := fun hnil => by rw [hnil] at hold; cases hold
  have hset := (hrep.withStatus hget .retired).2
  have hindex : old.version - 1 = (h id).length - 1 := by rw [hversion]
  rw [hindex, set_last hne] at hset
  exact ⟨_, hset, htidy.setLast hold (Or.inl rfl)⟩

/-- A version that is not retired is superseded, and the next one appended: it is there already, or
the superseded one was the last. -/
theorem next (hr : r.Kept retired) {id : String} {v : ℕ} {old : PromotedPrecedent}
    (hold : r.getVersion id v = some old) (hstatus : old.status ≠ .retired) :
    (r.withStatus old .superseded).Kept retired ∧
      ∀ p : PromotedPrecedent, p.precedentId = id → p.version = v + 1 →
        (r.withStatus old .superseded).append p = .ok r' → r'.Kept retired := by
  obtain ⟨h, hrep, htidy⟩ := hr
  obtain ⟨hpos, hset⟩ := hrep.withStatus hold .superseded
  have hget := hold
  rw [hrep.getVersion, if_pos hpos] at hget
  obtain ⟨hlt, hgetElem⟩ := List.getElem?_eq_some_iff.mp hget
  have hne : h id ≠ [] := List.ne_nil_of_length_pos (by omega)
  by_cases hlatest : v = (h id).length
  · have hlast : (h id).getLast? = some old := by
      rw [List.getLast?_eq_getElem?, ← hlatest]
      exact hget
    rw [hlatest, set_last hne] at hset
    have htidy' := htidy.setLast hlast (Or.inr hstatus : PrecedentStatus.superseded = .retired ∨ _)
    refine ⟨⟨_, hset, htidy'⟩, fun p hid hversion happend => ?_⟩
    subst hid
    refine ⟨_, hset.append happend ?_, htidy'.push fun q hq => ?_⟩
    · rw [Function.update_self, List.length_append, List.length_dropLast, List.length_singleton]
      omega
    · rw [Function.update_self, List.getLast?_concat] at hq
      rw [← Option.some.inj hq]
  · -- an earlier version is superseded already
    have hsame : (h id).set (v - 1) { old with status := .superseded } = h id := by
      have hmem : old ∈ (h id).dropLast := by
        rw [List.dropLast_eq_take]
        exact List.mem_take_iff_getElem.mpr ⟨v - 1, by omega, hgetElem⟩
      have hold' : { old with status := .superseded } = old := by
        rw [← htidy.superseded id old hmem]
      rw [hold', ← hgetElem, List.set_getElem_self]
    rw [hsame, Function.update_eq_self] at hset
    refine ⟨⟨h, hset, htidy⟩, fun p hid hversion happend => ?_⟩
    subst hid
    obtain ⟨e, he⟩ := hset.append_error (p := p) (by omega) (by omega)
    rw [he] at happend
    cases happend

end PrecedentRepository.Kept

end Orchestrator.Memory
