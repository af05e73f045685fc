import EntityQuery.Query.Encoding

/-!
# Caches of plans

A cache keeps at most one plan for a key.  A plan that is kept stays until the cache is cleared, and
a full cache keeps no further ones.

* `PlanCache.get` looks a plan up and counts whether it is there.
* `PlanCache.insert` keeps a plan if it may, and gives back the one to be used.
* `PlanCache.find?_insert_of_find?`: a plan that is kept stays when others are inserted.
* `PlanCache.size_insert_le`: a cache never outgrows its capacity.
-/

namespace EntityQuery

/-- Plans by their keys. -/
structure PlanCache (α : Type) where
  entries : List (PlanKey × α) := []
  capacity : Nat := 1024
  hits : Nat := 0
  misses : Nat := 0

namespace PlanCache

variable {α : Type}

/-- The plan of a key. -/
def find? (c : PlanCache α) (key : PlanKey) : Option α :=
  (c.entries.find? fun e => e.1 == key).map Prod.snd

/-- Looks up the plan of a key, and counts whether it is there. -/
def get (c : PlanCache α) (key : PlanKey) : PlanCache α × Option α :=
  match c.find? key with
  | some plan => ({ c with hits := c.hits + 1 }, some plan)
  | none => ({ c with misses := c.misses + 1 }, none)

/-- Looking a plan up changes no plan. -/
@[simp] theorem find?_get (c : PlanCache α) (key other : PlanKey) :
    (c.get key).1.find? other = c.find? other := by
  unfold get
  split <;> rfl

@[simp] theorem snd_get (c : PlanCache α) (key : PlanKey) : (c.get key).2 = c.find? key := by
  unfold get
  split <;> simp_all

/-- Keeps a plan, unless there is one for its key or the cache is full.  The plan to be used is the
one that is kept, if there is one. -/
def insert (c : PlanCache α) (key : PlanKey) (plan : α) : PlanCache α × α :=
  match c.find? key with
  | some kept => (c, kept)
  | none =>
    if c.entries.length < c.capacity then ({ c with entries := c.entries ++ [(key, plan)] }, plan)
    else (c, plan)

/-- A plan that is kept stays. -/
theorem find?_insert_of_find? {c : PlanCache α} {key other : PlanKey} {plan kept : α}
    (h : c.find? other = some kept) : (c.insert key plan).1.find? other = some kept := by
  unfold insert
  split
  · exact h
  · split
    · simp only [find?, Option.map_eq_some_iff] at h ⊢
      obtain ⟨e, he, rfl⟩ := h
      exact ⟨e, by simp [List.find?_append, he], rfl⟩
    · exact h

/-- The number of plans. -/
def size (c : PlanCache α) : Nat := c.entries.length

/-- A cache never outgrows its capacity. -/
theorem size_insert_le {c : PlanCache α} (key : PlanKey) (plan : α) (h : c.size ≤ c.capacity) :
    (c.insert key plan).1.size ≤ c.capacity := by
  unfold insert size at *
  split
  · exact h
  · split
    · rename_i hlt
      simp only [List.length_append, List.length_singleton]
      exact hlt
    · exact h

/-- Forgets all plans. -/
def clear (c : PlanCache α) : PlanCache α := { c with entries := [] }

end PlanCache
end EntityQuery
