import EntityQuery.Proofs.Translation.Lowering
import EntityQuery.Proofs.Translation.Nullability

/-!
# Rows of projections

A projection keeps the rows of its frame and says anew what elements they stand for.  If the rows
conform to the frame, then they conform to the projected one: the entities that it projects are in
scope before, and its scalars are formulas of the frame.

* `Formula.Placed`: a formula among several, with the slot of its first constant.
* `Translator.exists_placed`: each scalar of a projection is one of its formulas.
* `Frame.Conforms.project` and `Frame.Filled.project`: what is handed on to the projected frame.
-/

namespace EntityQuery

open Translating

/-- A formula is one of several, and `m` is the slot of its first constant if `n` is that of theirs.
-/
inductive Formula.Placed : (n : Nat) → List Formula → Formula → (m : Nat) → Prop
  | here (n : Nat) (f : Formula) (fs : List Formula) : Placed n (f :: fs) f n
  | there {n m : Nat} {f g : Formula} {fs : List Formula}
      (h : Placed (n + f.constants.length) fs g m) : Placed n (f :: fs) g m

namespace Formula.Placed

variable {tr : Translator} {frame : Frame} {env : Environment} {scope : Scope} {n m : Nat}
  {f : Formula} {fs : List Formula}

lemma typed (h : Placed n fs f m) (hfs : AllTyped tr frame env n fs) : f.Typed tr frame env m := by
  induction h with
  | here n f fs => exact hfs.1
  | there _ ih => exact ih hfs.2

lemma defined (h : Placed n fs f m) (hfs : AllDefined tr frame env scope n fs) :
    f.Defined tr frame env scope m := by
  induction h with
  | here n f fs => exact hfs.1
  | there _ ih => exact ih hfs.2

end Formula.Placed

namespace Translator

variable {tr : Translator} {frame : Frame} {p p' : Progress} {projection : Projection} {yield : Yield}

/-- The fields of a projection are formulas, which are translated one after the other, and entities
in scope. -/
lemma formulas_of_projectedFields {fields : List (String × Projected)}
    {yields : List (String × FieldYield)}
    (h : fields.mapM (tr.projectedField frame) p = .ok (yields, p')) :
    (∃ es, tr.formulas frame (Projection.record fields).formulas p = .ok (es, p')) ∧
      ∀ f ∈ yields, ∀ b, f.2 = .entity b → b ∈ frame.scope := by
  induction fields generalizing p yields with
  | nil =>
      cases pure_eq_ok.1 h
      exact ⟨⟨[], rfl⟩, by simp⟩
  | cons field fields ih =>
      rw [List.mapM_cons] at h
      obtain ⟨y, q, hfield, h⟩ := bind_eq_ok.1 h
      obtain ⟨ys, q₁, hfields, h⟩ := bind_eq_ok.1 h
      cases pure_eq_ok.1 h
      obtain ⟨⟨es, hes⟩, hscope⟩ := ih hfields
      obtain ⟨name, f | ⟨entity, aliasName⟩⟩ := field
      · obtain ⟨s, q, hs, hfield⟩ := bind_eq_ok.1 hfield
        cases pure_eq_ok.1 hfield
        obtain ⟨e, q, hf, hs⟩ := bind_eq_ok.1 hs
        cases pure_eq_ok.1 hs
        refine ⟨⟨e :: es, bind_eq_ok.2 ⟨e, _, hf, bind_eq_ok.2 ⟨es, _, hes, rfl⟩⟩⟩, ?_⟩
        exact List.forall_mem_cons.2 ⟨nofun, hscope⟩
      · obtain ⟨b, q, hb, hfield⟩ := bind_eq_ok.1 hfield
        cases pure_eq_ok.1 hfield
        have hbound := Frame.mem_of_projected hb
        cases Frame.projected_eq_ok hb
        refine ⟨⟨es, hes⟩, List.forall_mem_cons.2 ⟨fun b' hb' => ?_, hscope⟩⟩
        cases hb'
        exact hbound

/-- A projection is translated from formulas and entities in scope. -/
lemma formulas_of_projection (h : tr.projection frame projection p = .ok (yield, p')) :
    (∃ es, tr.formulas frame projection.formulas p = .ok (es, p')) ∧
      ∀ b ∈ yield.bindings, b ∈ frame.scope := by
  cases projection with
  | scalar f =>
      obtain ⟨s, q, hs, h⟩ := bind_eq_ok.1 h
      cases pure_eq_ok.1 h
      obtain ⟨e, q, hf, hs⟩ := bind_eq_ok.1 hs
      cases pure_eq_ok.1 hs
      exact ⟨⟨[e], bind_eq_ok.2 ⟨e, _, hf, rfl⟩⟩, by simp [Yield.bindings]⟩
  | entity entity aliasName =>
      obtain ⟨b, q, hb, h⟩ := bind_eq_ok.1 h
      cases pure_eq_ok.1 h
      have hbound := Frame.mem_of_projected hb
      cases Frame.projected_eq_ok hb
      exact ⟨⟨[], rfl⟩, fun b' hb' => by rw [List.mem_singleton.1 hb']; exact hbound⟩
  | record fields =>
      obtain ⟨-, h⟩ := refuse_bind_eq_ok.1 h
      replace h := after_check (fun _ hs => (checkNames_eq_ok hs).2) h
      obtain ⟨yields, q, hyields, h⟩ := bind_eq_ok.1 h
      cases pure_eq_ok.1 h
      obtain ⟨hformulas, hscope⟩ := formulas_of_projectedFields hyields
      refine ⟨hformulas, fun b hb => ?_⟩
      obtain ⟨f, hf, hb⟩ := List.mem_filterMap.1 hb
      refine hscope f hf b ?_
      cases hy : f.2 with
      | scalar s => simp [hy, FieldYield.binding?] at hb
      | entity b' => simpa [hy, FieldYield.binding?] using hb

/-- A scalar in a field of a projection is one of its formulas. -/
lemma exists_placed_of_field {fields : List (String × Projected)} {n : Nat} {name : String}
    {s : YieldedScalar} (h : Yield.field? name (tr.projectedFields frame n fields) = some (.scalar s)) :
    ∃ f m, Formula.Placed n (Projection.record fields).formulas f m ∧
      s = tr.yieldedScalar frame m f := by
  induction fields generalizing n with
  | nil => cases h
  | cons field fields ih =>
      obtain ⟨fieldName, f | ⟨entity, aliasName⟩⟩ := field
      · rw [projectedFields, Yield.field?] at h
        split at h
        · cases h
          exact ⟨f, n, .here .., rfl⟩
        · obtain ⟨g, m, hg, hs⟩ := ih h
          exact ⟨g, m, .there hg, hs⟩
      · rw [projectedFields, Yield.field?] at h
        split at h
        · cases h
        · exact ih h

/-- **Each scalar of a projection is one of its formulas.** -/
lemma exists_placed {n : Nat} {s : YieldedScalar}
    (h : (tr.projectedYield frame n projection).Holds s) :
    ∃ f m, Formula.Placed n projection.formulas f m ∧ s = tr.yieldedScalar frame m f := by
  cases projection with
  | scalar f =>
      rcases h with h | ⟨name, h⟩
      · cases h
        exact ⟨f, n, .here .., rfl⟩
      · cases h
  | entity entity aliasName =>
      rcases h with h | ⟨name, h⟩ <;> cases h
  | record fields =>
      rcases h with h | ⟨name, h⟩
      · cases h
      · rw [projectedYield, Yield.scalarField?] at h
        split at h
        · rename_i s' hfield
          cases h
          exact exists_placed_of_field hfield
        · cases h

end Translator

section Projected

variable {tr : Translator} {frame : Frame} {env : Environment} {scope : Scope} {p p' : Progress}
  {projection : Projection} {yield : Yield}

/-- **A row that conforms to a frame conforms to what the frame is projected to.** -/
theorem Frame.Conforms.project (hrow : frame.Conforms tr env scope) (hregistry : tr.registry = .standard)
    (h : tr.projection frame projection p = .ok (yield, p'))
    (hknows : ∀ f ∈ projection.formulas, ∀ g, g.PartOf f → tr.Knows frame g)
    (hsupplies : env.Supplies tr.registry p.nextSlot (Formula.inputsOf projection.formulas)) :
    Frame.Conforms tr env scope { frame with yield, scope := yield.bindings } := by
  obtain ⟨⟨es, hes⟩, hscope⟩ := Translator.formulas_of_projection h
  have htyped := Translator.typed_of_formulas projection.formulas hes hknows hsupplies
  obtain ⟨rfl, -⟩ := Translator.projection_eq_ok h
  refine ⟨fun b hb => hrow.entities b (hscope b hb), fun s hs v hv => ?_⟩
  obtain ⟨f, m, hf, rfl⟩ := Translator.exists_placed hs
  rw [hregistry]
  exact Translator.fits_widened hregistry hrow f (hf.typed htyped) hv

/-- **The scalars of a projection that are not nullable have values** if the operations of its
formulas have results. -/
theorem Frame.Filled.project (hfilled : frame.Filled env scope) (hregistry : tr.registry = .standard)
    (hrow : frame.Conforms tr env scope) (h : tr.projection frame projection p = .ok (yield, p'))
    (hknows : ∀ f ∈ projection.formulas, ∀ g, g.PartOf f → tr.Knows frame g)
    (hsupplies : env.Supplies tr.registry p.nextSlot (Formula.inputsOf projection.formulas))
    (hdefined : Formula.AllDefined tr frame env scope p.nextSlot projection.formulas) :
    Frame.Filled env scope { frame with yield, scope := yield.bindings } := by
  obtain ⟨⟨es, hes⟩, -⟩ := Translator.formulas_of_projection h
  have htyped := Translator.typed_of_formulas projection.formulas hes hknows hsupplies
  obtain ⟨rfl, -⟩ := Translator.projection_eq_ok h
  intro s hs hnullable v hv
  obtain ⟨f, m, hf, rfl⟩ := Translator.exists_placed hs
  exact Translator.valued_of_defined hregistry hrow hfilled f (hf.typed htyped) hnullable
    (hf.defined hdefined) hv

end Projected
end EntityQuery
