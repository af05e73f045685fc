import EntityQuery.Document.Basic
import Mathlib.Data.String.Basic

/-!
# Fields in order

The fields of an object that has been built are in the order of their names, each of which occurs
once.  So an object is determined by what is under each name, in whichever order its fields have
been put.

* `Fields.IsSorted`: the names increase.
* `Fields.isSorted_put`: putting a field keeps the order.
* `Fields.ext_of_isSorted`: fields in order with the same values are the same.
-/

namespace EntityQuery
namespace Fields

/-- The names of the fields increase. -/
def IsSorted (fields : Fields) : Prop := fields.Pairwise fun f g => f.1 < g.1

variable {name other : String} {value : Document} {fields fields' : Fields}

/-- What is put into fields is the new field or was there before. -/
lemma mem_put {f : String × Document} (h : f ∈ put name value fields) :
    f = (name, value) ∨ f ∈ fields := by
  induction fields with
  | nil => exact .inl (List.mem_singleton.1 h)
  | cons g fields ih =>
      obtain ⟨key, old⟩ := g
      rw [put] at h
      split_ifs at h
      · exact List.mem_cons.1 h
      · exact (List.mem_cons.1 h).imp_right (.tail _)
      · rcases List.mem_cons.1 h with rfl | h
        · exact .inr List.mem_cons_self
        · exact (ih h).imp_right (.tail _)

/-- **Putting a field keeps the order.** -/
lemma isSorted_put (h : IsSorted fields) (name : String) (value : Document) :
    IsSorted (put name value fields) := by
  induction fields with
  | nil => exact List.pairwise_singleton _ _
  | cons g fields ih =>
      obtain ⟨key, old⟩ := g
      obtain ⟨hkey, hrest⟩ := List.pairwise_cons.1 h
      rw [put]
      split_ifs with hlt heq
      · refine List.pairwise_cons.2 ⟨fun f hf => ?_, h⟩
        rcases List.mem_cons.1 hf with rfl | hf
        · exact hlt
        · exact lt_trans hlt (hkey f hf)
      · exact List.pairwise_cons.2 ⟨heq ▸ hkey, hrest⟩
      · refine List.pairwise_cons.2 ⟨fun f hf => ?_, ih hrest⟩
        rcases mem_put hf with rfl | hf
        · exact lt_of_le_of_ne (not_lt.1 hlt) (Ne.symm heq)
        · exact hkey f hf

/-- There is nothing under a name that is before all others. -/
lemma get?_eq_none_of_lt (h : ∀ f ∈ fields, name < f.1) : get? name fields = none := by
  induction fields with
  | nil => rfl
  | cons f fields ih =>
      rw [get?, if_neg (ne_of_gt (h f List.mem_cons_self))]
      exact ih fun g hg => h g (.tail _ hg)

/-- What has a value is not before the first name. -/
lemma le_of_get?_eq_some {f : String × Document} (h : IsSorted (f :: fields))
    (hget : get? name (f :: fields) = some value) : f.1 ≤ name := by
  by_contra hlt
  have hnone : get? name (f :: fields) = none := by
    refine get?_eq_none_of_lt fun g hg => ?_
    rcases List.mem_cons.1 hg with rfl | hg
    · exact not_le.1 hlt
    · exact lt_trans (not_le.1 hlt) ((List.pairwise_cons.1 h).1 g hg)
  rw [hnone] at hget
  cases hget

lemma get?_cons_self (f : String × Document) (fields : Fields) :
    get? f.1 (f :: fields) = some f.2 := by
  rw [get?, if_pos rfl]

/-- **Fields in order with the same values are the same.** -/
theorem ext_of_isSorted (h : IsSorted fields) (h' : IsSorted fields')
    (hvalues : ∀ name, get? name fields = get? name fields') : fields = fields' := by
  induction fields generalizing fields' with
  | nil =>
      cases fields' with
      | nil => rfl
      | cons g gs => cases (hvalues g.1).trans (get?_cons_self g gs)
  | cons f fs ih =>
      have hf := (hvalues f.1).symm.trans (get?_cons_self f fs)
      cases fields' with
      | nil => cases hf
      | cons g gs =>
          have hg := (hvalues g.1).trans (get?_cons_self g gs)
          obtain ⟨hfs, hrest⟩ := List.pairwise_cons.1 h
          obtain ⟨hgs, hrest'⟩ := List.pairwise_cons.1 h'
          -- the first names are the least ones with a value, so they agree
          have hname : f.1 = g.1 := le_antisymm (le_of_get?_eq_some h hg) (le_of_get?_eq_some h' hf)
          have hfirst : f = g := by
            rw [hname, get?_cons_self] at hf
            exact Prod.ext hname (Option.some.inj hf).symm
          rw [← hfirst] at hgs hvalues ⊢
          refine congrArg _ (ih hrest hrest' fun name => ?_)
          by_cases hsame : f.1 = name
          · rw [← hsame, get?_eq_none_of_lt hfs, get?_eq_none_of_lt hgs]
          · have hother := hvalues name
            rwa [get?, get?, if_neg hsame, if_neg hsame] at hother

end Fields
end EntityQuery
