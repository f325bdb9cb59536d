import Orchestrator.Collections.JsMap

/-!
# Repositories

`Repository id` is an in-memory repository: records in a map under their own `id`. That each is
under its own id is a field, so a listed record is the one that `getById` finds.

* `save`, `getById`, `list`: the operations;
* `mem_list`, `getById_save`, `mem_list_save`: what they do to each other.
-/

namespace Collections

variable {κ α : Type} [DecidableEq κ]

/-- Records under their own ids, in the order in which the ids were first used. -/
structure Repository (id : α → κ) where
  byId : JsMap κ α
  keyed : ∀ k v, byId.get k = some v → id v = k

namespace Repository

variable {id : α → κ}

def empty : Repository id := ⟨.empty, fun _ _ h => nomatch h⟩

def getById (r : Repository id) (k : κ) : Option α := r.byId.get k

/-- The records, by age of their ids. -/
def list (r : Repository id) : List α := r.byId.values

/-- `this.byId.set(record.id, record)`. -/
def save (r : Repository id) (v : α) : Repository id where
  byId := r.byId.set (id v) v
  keyed k v' h := by
    rw [JsMap.get_set] at h
    split at h
    · next hk =>
      cases h
      exact hk
    · exact r.keyed k v' h

@[simp] theorem getById_empty (k : κ) : (empty : Repository id).getById k = none := rfl

@[simp] theorem list_empty : (empty : Repository id).list = [] := rfl

theorem getById_save (r : Repository id) (v : α) (k : κ) :
    (r.save v).getById k = if id v = k then some v else r.getById k :=
  JsMap.get_set r.byId (id v) k v

@[simp] theorem getById_save_self (r : Repository id) (v : α) :
    (r.save v).getById (id v) = some v := by
  rw [getById_save, if_pos rfl]

theorem getById_save_ne (r : Repository id) {v : α} {k : κ} (h : id v ≠ k) :
    (r.save v).getById k = r.getById k := by
  rw [getById_save, if_neg h]

theorem id_of_getById {r : Repository id} {k : κ} {v : α} (h : r.getById k = some v) : id v = k :=
  r.keyed k v h

/-- After a save a record is under its id if it is the one saved, or if it was there before under
another id. -/
theorem getById_save_eq_some {r : Repository id} {v v' : α} :
    (r.save v).getById (id v') = some v' ↔
      v = v' ∨ (id v ≠ id v' ∧ r.getById (id v') = some v') := by
  rw [getById_save]
  split
  · next h => simp [h]
  · next h =>
    have hne : v ≠ v' := fun heq => h (congrArg id heq)
    simp [h, hne]

/-- A listed record is the one under its id. -/
theorem mem_list {r : Repository id} {v : α} : v ∈ r.list ↔ r.getById (id v) = some v := by
  rw [list, JsMap.mem_values]
  constructor
  · rintro ⟨k, hk⟩
    obtain rfl := r.keyed k v hk
    exact hk
  · exact fun h => ⟨id v, h⟩

theorem mem_list_of_getById {r : Repository id} {k : κ} {v : α} (h : r.getById k = some v) :
    v ∈ r.list := by
  rw [mem_list, id_of_getById h]
  exact h

/-- What a save leaves in the list: the record, and the others under other ids. -/
theorem mem_list_save {r : Repository id} {v v' : α} :
    v' ∈ (r.save v).list ↔ v' = v ∨ (v' ∈ r.list ∧ id v ≠ id v') := by
  rw [mem_list, mem_list, getById_save]
  split
  · next h => simp [h, eq_comm]
  · next h =>
    refine ⟨fun hv => .inr ⟨hv, h⟩, ?_⟩
    rintro (rfl | hv)
    · exact absurd rfl h
    · exact hv.1

end Repository

end Collections
