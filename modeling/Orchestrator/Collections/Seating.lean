import Mathlib.Data.Set.Function
import Orchestrator.Collections.Latest

/-!
# Seating people in the order of their offers

Each offer is that of a person for a seat. `seatAll` goes through the seats and gives each to the
first person who offers to take it and has no seat yet.

* `Assignable`: the seats can be given to different people who offer to take them;
* `Stuck`: those who offer to take one seat can all be seated elsewhere;
* `assignable_of_full`: a full seating is such an assignment;
* `stuck_of_not_full`: where a seat stays empty, those who offered to take it sit elsewhere;
* `exists_full_order`, `exists_stuck_order`: both happen in some order.
-/

namespace Collections

variable {α ρ π : Type} [DecidableEq ρ] [DecidableEq π] (seatOf : α → ρ) (personOf : α → π)

/-- One seat: the first offer for it by a person without a seat. -/
def seatNext (offers seated : List α) (seat : ρ) : List α :=
  match offers.find? fun a =>
      seatOf a = seat && !(seated.map personOf).contains (personOf a) with
  | some a => seated ++ [a]
  | none => seated

/-- The offers that are taken, in the order of the seats. -/
def seatAll (offers : List α) (seats : List ρ) : List α :=
  seats.foldl (seatNext seatOf personOf offers) []

/-- A person offers to take a seat. -/
def Offered (offers : List α) (person : π) (seat : ρ) : Prop :=
  ∃ a ∈ offers, seatOf a = seat ∧ personOf a = person

/-- The seats can be given to different people who offer to take them. -/
def Assignable (offers : List α) (seats : List ρ) : Prop :=
  ∃ f : ρ → π, Set.InjOn f {seat | seat ∈ seats} ∧
    ∀ seat ∈ seats, Offered seatOf personOf offers (f seat) seat

/-- All who offer to take one of the seats can be given other ones that they offer to take. -/
def Stuck (offers : List α) (seats : List ρ) : Prop :=
  ∃ seat ∈ seats, ∃ g : π → ρ,
    Set.InjOn g {person | Offered seatOf personOf offers person seat} ∧
    ∀ person, Offered seatOf personOf offers person seat →
      g person ∈ seats ∧ g person ≠ seat ∧ Offered seatOf personOf offers person (g person)

variable {seatOf personOf} {offers : List α} {seats : List ρ}

omit [DecidableEq ρ] [DecidableEq π] in
theorem Offered.perm {offers' : List α} (hperm : offers'.Perm offers) {person : π} {seat : ρ} :
    Offered seatOf personOf offers' person seat ↔ Offered seatOf personOf offers person seat := by
  unfold Offered
  simp only [hperm.mem_iff]

/-! ## What a seating is -/

/-- The state of a seating: different people on different seats, and who is not seated though a
seat is empty. -/
structure Seating (seatOf : α → ρ) (personOf : α → π) (offers : List α) (seats : List ρ)
    (seated : List α) : Prop where
  offered : seated ⊆ offers
  places : (seated.map seatOf).Sublist seats
  people : (seated.map personOf).Nodup
  /-- Everybody who offers to take an empty seat has another one. -/
  empty : ∀ seat ∈ seats, seat ∉ seated.map seatOf →
    ∀ a ∈ offers, seatOf a = seat → personOf a ∈ seated.map personOf

theorem Seating.next {seated : List α} (h : Seating seatOf personOf offers seats seated)
    (seat : ρ) :
    Seating seatOf personOf offers (seats ++ [seat])
      (seatNext seatOf personOf offers seated seat) := by
  unfold seatNext
  cases hfind : offers.find? fun a =>
      seatOf a = seat && !(seated.map personOf).contains (personOf a) with
  | some a =>
    have ha : a ∈ offers := List.mem_of_find?_eq_some hfind
    have hpred := List.find?_some hfind
    simp only [Bool.and_eq_true, decide_eq_true_eq, Bool.not_eq_true', List.contains_eq_mem,
      decide_eq_false_iff_not] at hpred
    obtain ⟨hseat, hperson⟩ := hpred
    refine ⟨?_, ?_, ?_, ?_⟩
    · exact List.append_subset.mpr ⟨h.offered, by simpa using ha⟩
    · rw [List.map_append, List.map_singleton, hseat]
      exact h.places.append (List.Sublist.refl _)
    · rw [List.map_append, List.map_singleton, ← List.concat_eq_append]
      exact h.people.concat hperson
    · intro seat' hseat' hempty a' ha' hoffer
      rw [List.map_append, List.map_singleton, List.mem_append, not_or, hseat] at hempty
      rcases List.mem_append.mp hseat' with hold | hnew
      · rw [List.map_append]
        exact List.mem_append_left _ (h.empty seat' hold hempty.1 a' ha' hoffer)
      · exact absurd hnew hempty.2
  | none =>
    refine ⟨h.offered, h.places.trans (List.sublist_append_left _ _), h.people, ?_⟩
    intro seat' hseat' hempty a' ha' hoffer
    rcases List.mem_append.mp hseat' with hold | hnew
    · exact h.empty seat' hold hempty a' ha' hoffer
    · obtain rfl := List.mem_singleton.mp hnew
      have hnone := List.find?_eq_none.mp hfind a' ha'
      simpa [hoffer] using hnone

variable (seatOf personOf) in
theorem seating_seatAll (offers : List α) (seats : List ρ) :
    Seating seatOf personOf offers seats (seatAll seatOf personOf offers seats) := by
  induction seats using List.reverseRecOn with
  | nil => exact ⟨List.nil_subset _, List.Sublist.refl _, List.nodup_nil, by simp⟩
  | append_singleton seats seat ih =>
    unfold seatAll at ih ⊢
    rw [List.foldl_append, List.foldl_cons, List.foldl_nil]
    exact ih.next seat

variable (seatOf personOf offers) in
/-- Each seat is taken at most once. -/
theorem length_foldl_seatNext_le (seated : List α) (seats : List ρ) :
    (seats.foldl (seatNext seatOf personOf offers) seated).length ≤
      seated.length + seats.length := by
  induction seats generalizing seated with
  | nil => simp
  | cons seat seats ih =>
    have hnext : (seatNext seatOf personOf offers seated seat).length ≤ seated.length + 1 := by
      unfold seatNext
      split <;> simp
    have hrest := ih (seatNext seatOf personOf offers seated seat)
    rw [List.foldl_cons, List.length_cons]
    omega

omit [DecidableEq ρ] [DecidableEq π] in
/-- On different elements, what picks the first one finds each of them. -/
theorem find?_map_eq {β : Type} [DecidableEq β] {key : α → β} {xs : List α}
    (hnodup : (xs.map key).Nodup) {x : α} (hx : x ∈ xs) :
    xs.find? (fun y => key y = key x) = some x := by
  induction xs with
  | nil => exact absurd hx List.not_mem_nil
  | cons y ys ih =>
    rw [List.map_cons, List.nodup_cons] at hnodup
    rw [List.find?_cons]
    rcases List.mem_cons.mp hx with rfl | hmem
    · simp
    · have hne : key y ≠ key x := fun h => hnodup.1 (h ▸ List.mem_map_of_mem hmem)
      simp only [hne, decide_false]
      exact ih hnodup.2 hmem

/-- A full seating is an assignment. -/
theorem assignable_of_full [Inhabited π]
    (hfull : (seatAll seatOf personOf offers seats).length = seats.length)
    (hseats : seats.Nodup) : Assignable seatOf personOf offers seats := by
  have h := seating_seatAll seatOf personOf offers seats
  generalize seatAll seatOf personOf offers seats = seated at h hfull
  have hall : seated.map seatOf = seats := h.places.eq_of_length (by simpa using hfull)
  have hnodup : (seated.map seatOf).Nodup := hall ▸ hseats
  let f : ρ → π := fun seat => ((seated.find? (fun a => seatOf a = seat)).map personOf).getD default
  have hf : ∀ a ∈ seated, f (seatOf a) = personOf a := by
    intro a ha
    simp only [f, find?_map_eq hnodup ha, Option.map_some, Option.getD_some]
  refine ⟨f, ?_, ?_⟩
  · rw [← hall]
    rintro _ hseat _ hseat' hf'
    obtain ⟨a, ha, rfl⟩ := List.mem_map.mp hseat
    obtain ⟨a', ha', rfl⟩ := List.mem_map.mp hseat'
    rw [hf a ha, hf a' ha'] at hf'
    rw [List.inj_on_of_nodup_map h.people ha ha' hf']
  · rw [← hall]
    intro seat hseat
    obtain ⟨a, ha, rfl⟩ := List.mem_map.mp hseat
    exact ⟨a, h.offered ha, rfl, (hf a ha).symm⟩

/-- Those who offer to take an empty seat all sit elsewhere. -/
theorem stuck_of_not_full [Inhabited ρ]
    (hfull : (seatAll seatOf personOf offers seats).length ≠ seats.length)
    (hseats : seats.Nodup) : Stuck seatOf personOf offers seats := by
  have h := seating_seatAll seatOf personOf offers seats
  generalize seatAll seatOf personOf offers seats = seated at h hfull
  obtain ⟨seat, hseat, hempty⟩ : ∃ seat ∈ seats, seat ∉ seated.map seatOf := by
    by_contra hnone
    push Not at hnone
    have hsub := (List.subperm_of_subset hseats hnone).length_le
    have hle := h.places.length_le
    rw [List.length_map] at hsub hle
    omega
  have hnodup : (seated.map seatOf).Nodup := hseats.sublist h.places
  let g : π → ρ := fun person =>
    ((seated.find? (fun a => personOf a = person)).map seatOf).getD default
  have hg : ∀ a ∈ seated, g (personOf a) = seatOf a := by
    intro a ha
    simp only [g, find?_map_eq h.people ha, Option.map_some, Option.getD_some]
  have hsits : ∀ person, Offered seatOf personOf offers person seat →
      ∃ a ∈ seated, personOf a = person := by
    rintro person ⟨a, ha, hoffer, rfl⟩
    exact List.mem_map.mp (h.empty seat hseat hempty a ha hoffer)
  refine ⟨seat, hseat, g, ?_, ?_⟩
  · intro person hperson person' hperson' hg'
    obtain ⟨a, ha, rfl⟩ := hsits person hperson
    obtain ⟨a', ha', rfl⟩ := hsits person' hperson'
    rw [hg a ha, hg a' ha'] at hg'
    rw [List.inj_on_of_nodup_map hnodup ha ha' hg']
  · intro person hperson
    obtain ⟨a, ha, rfl⟩ := hsits person hperson
    rw [hg a ha]
    have hmem : seatOf a ∈ seated.map seatOf := List.mem_map_of_mem ha
    exact ⟨h.places.subset hmem, fun heq => hempty (heq ▸ hmem), a, h.offered ha, rfl, rfl⟩

/-! ## Orders -/

/-- Offers of different people for different seats are all taken, where they come first and the
seats in their order. -/
theorem seatAll_first {first rest : List α} (hseats : (first.map seatOf).Nodup)
    (hpeople : (first.map personOf).Nodup) :
    seatAll seatOf personOf (first ++ rest) (first.map seatOf) = first := by
  suffices hprefix : ∀ done todo : List α, first = done ++ todo →
      (todo.map seatOf).foldl (seatNext seatOf personOf (first ++ rest)) done = first by
    exact hprefix [] first rfl
  intro done todo
  induction todo generalizing done with
  | nil =>
    rintro rfl
    simp
  | cons a todo ih =>
    intro hfirst
    have hnext : seatNext seatOf personOf (first ++ rest) done (seatOf a) = done ++ [a] := by
      have happend : (first.map seatOf) = done.map seatOf ++ seatOf a :: todo.map seatOf := by
        rw [hfirst, List.map_append, List.map_cons]
      have hseat : seatOf a ∉ done.map seatOf := by
        intro hmem
        rw [happend] at hseats
        exact (List.nodup_append.mp hseats).2.2 _ hmem _ List.mem_cons_self rfl
      have hperson : personOf a ∉ done.map personOf := by
        intro hmem
        rw [hfirst, List.map_append, List.map_cons] at hpeople
        exact (List.nodup_append.mp hpeople).2.2 _ hmem _ List.mem_cons_self rfl
      have hdone : done.find? (fun b =>
          seatOf b = seatOf a && !(done.map personOf).contains (personOf b)) = none := by
        rw [List.find?_eq_none]
        intro b hb hpred
        have hsame : seatOf b = seatOf a := by
          simp only [Bool.and_eq_true, decide_eq_true_eq] at hpred
          exact hpred.1
        exact hseat (hsame ▸ List.mem_map_of_mem hb)
      unfold seatNext
      rw [hfirst, List.append_assoc, List.find?_append, hdone, Option.none_or, List.cons_append,
        List.find?_cons]
      simp [hperson]
    rw [List.map_cons, List.foldl_cons, hnext]
    exact ih (done ++ [a]) (by simpa using hfirst)

omit [DecidableEq ρ] [DecidableEq π] in
/-- Offers can be chosen one by one. -/
theorem exists_offers {β : Type} {u : β → ρ} {v : β → π} {xs : List β}
    (h : ∀ x ∈ xs, Offered seatOf personOf offers (v x) (u x)) :
    ∃ chosen, chosen ⊆ offers ∧ chosen.map seatOf = xs.map u ∧ chosen.map personOf = xs.map v := by
  induction xs with
  | nil => exact ⟨[], List.nil_subset _, rfl, rfl⟩
  | cons x xs ih =>
    rw [List.forall_mem_cons] at h
    obtain ⟨⟨a, ha, hseat, hperson⟩, hrest⟩ := h
    obtain ⟨chosen, hsub, hseats, hpeople⟩ := ih hrest
    refine ⟨a :: chosen, List.cons_subset.mpr ⟨ha, hsub⟩, ?_, ?_⟩
    · rw [List.map_cons, List.map_cons, hseat, hseats]
    · rw [List.map_cons, List.map_cons, hperson, hpeople]

/-- Different elements of a list can come first. -/
theorem exists_perm_first {β : Type} {first xs : List β} (hnodup : first.Nodup)
    (hsub : first ⊆ xs) : ∃ rest, (first ++ rest).Perm xs := by
  obtain ⟨part, hpart, hsublist⟩ := List.subperm_of_subset hnodup hsub
  obtain ⟨rest, hrest⟩ := hsublist.exists_perm_append
  exact ⟨rest, (hpart.symm.append_right rest).trans hrest.symm⟩

/-- Where the seats can be given, the offers can come in an order in which all are taken. -/
theorem exists_full_order (h : Assignable seatOf personOf offers seats) (hseats : seats.Nodup) :
    ∃ offers' : List α, offers'.Perm offers ∧
      (seatAll seatOf personOf offers' seats).length = seats.length := by
  obtain ⟨f, hinj, hoffered⟩ := h
  obtain ⟨chosen, hsub, hchosen, hpeople⟩ := exists_offers (u := id) (v := f) hoffered
  rw [List.map_id] at hchosen
  have hnodup : (chosen.map seatOf).Nodup := hchosen ▸ hseats
  have hnodup' : (chosen.map personOf).Nodup := by
    rw [hpeople]
    exact hseats.map_on fun seat hseat seat' hseat' hf => hinj hseat hseat' hf
  obtain ⟨rest, hperm⟩ := exists_perm_first (List.Nodup.of_map _ hnodup) hsub
  refine ⟨chosen ++ rest, hperm, ?_⟩
  rw [← hchosen, seatAll_first hnodup hnodup', List.length_map]

/-- Where all who offer to take a seat can sit elsewhere, it stays empty in some order. -/
theorem exists_stuck_order (h : Stuck seatOf personOf offers seats) :
    ∃ (offers' : List α) (seats' : List ρ), offers'.Perm offers ∧ seats'.Perm seats ∧
      (seatAll seatOf personOf offers' seats').length ≠ seats'.length := by
  obtain ⟨seat, hseat, g, hinj, hg⟩ := h
  -- those who offer to take the seat, each of them once
  let people := ((offers.filter fun a => seatOf a = seat).map personOf).eraseDups
  have hpeople : ∀ person ∈ people, Offered seatOf personOf offers person seat := by
    intro person hperson
    obtain ⟨a, ha, rfl⟩ := List.mem_map.mp (List.mem_eraseDups.mp hperson)
    obtain ⟨hmem, hoffer⟩ := List.mem_filter.mp ha
    exact ⟨a, hmem, of_decide_eq_true hoffer, rfl⟩
  obtain ⟨chosen, hsub, hchosen, hchosenPeople⟩ : ∃ chosen, chosen ⊆ offers ∧
      chosen.map seatOf = people.map g ∧ chosen.map personOf = people.map id :=
    exists_offers fun person hperson => (hg person (hpeople person hperson)).2.2
  rw [List.map_id] at hchosenPeople
  have hnodup' : (chosen.map personOf).Nodup := hchosenPeople ▸ nodup_eraseDups _
  have hnodup : (chosen.map seatOf).Nodup := by
    rw [hchosen]
    exact (nodup_eraseDups _).map_on fun person hperson person' hperson' hg' =>
      hinj (hpeople person hperson) (hpeople person' hperson') hg'
  have hapart : seat ∉ chosen.map seatOf := by
    rw [hchosen]
    intro hmem
    obtain ⟨person, hperson, heq⟩ := List.mem_map.mp hmem
    exact (hg person (hpeople person hperson)).2.1 heq
  have hfirst : (chosen.map seatOf ++ [seat]).Nodup := by
    rw [← List.concat_eq_append]
    exact hnodup.concat hapart
  have hin : chosen.map seatOf ++ [seat] ⊆ seats := by
    rw [List.append_subset]
    refine ⟨?_, by simpa using hseat⟩
    rw [hchosen]
    intro place hplace
    obtain ⟨person, hperson, rfl⟩ := List.mem_map.mp hplace
    exact (hg person (hpeople person hperson)).1
  obtain ⟨rest, hperm⟩ := exists_perm_first (List.Nodup.of_map _ hnodup) hsub
  obtain ⟨later, hperm'⟩ := exists_perm_first hfirst hin
  refine ⟨chosen ++ rest, chosen.map seatOf ++ [seat] ++ later, hperm, hperm', ?_⟩
  -- nobody is left for the seat when it comes
  have hnext : seatNext seatOf personOf (chosen ++ rest) chosen seat = chosen := by
    have hnone : (chosen ++ rest).find? (fun a =>
        seatOf a = seat && !(chosen.map personOf).contains (personOf a)) = none := by
      rw [List.find?_eq_none]
      intro a ha hpred
      simp only [Bool.and_eq_true, decide_eq_true_eq, Bool.not_eq_true', List.contains_eq_mem,
        decide_eq_false_iff_not] at hpred
      have hperson : personOf a ∈ people := by
        refine List.mem_eraseDups.mpr (List.mem_map_of_mem ?_)
        exact List.mem_filter.mpr ⟨hperm.mem_iff.mp ha, decide_eq_true hpred.1⟩
      exact hpred.2 (hchosenPeople ▸ hperson)
    unfold seatNext
    rw [hnone]
  have hseated : seatAll seatOf personOf (chosen ++ rest)
      (chosen.map seatOf ++ [seat] ++ later) =
        later.foldl (seatNext seatOf personOf (chosen ++ rest)) chosen := by
    have htaken : seatAll seatOf personOf (chosen ++ rest) (chosen.map seatOf) = chosen :=
      seatAll_first hnodup hnodup'
    unfold seatAll at htaken ⊢
    rw [List.foldl_append, List.foldl_append, htaken, List.foldl_cons, List.foldl_nil, hnext]
  rw [hseated]
  have hle := length_foldl_seatNext_le seatOf personOf (chosen ++ rest) chosen later
  simp only [List.length_append, List.length_map, List.length_singleton]
  omega

end Collections
