import EntityQuery.Proofs.Evaluation.Ordering

/-!
# Least and greatest values

`MIN` and `MAX` go through the values once and keep the best so far.  If the collation orders the
values, what is left at the end is one of them, and none is less or greater.

* `foldl_extreme`: what is left when the better of two is kept each time.
* `CollatesMembers.leastOf` and `CollatesMembers.greatestOf`: the extremes of values that the
  collation orders.
* `over_of_valued`: an aggregate over values that are neither missing nor null.
-/

namespace EntityQuery

/-- **Keeping the better of two each time leaves one of the best.** -/
lemma foldl_extreme {α : Type} {P : α → Prop} {r : α → α → Prop} {step : α → α → α}
    (htrans : ∀ {a b c}, P a → P b → P c → r a b → r b c → r a c)
    (hstep : ∀ {a b}, P a → P b → (step a b = a ∨ step a b = b) ∧ r (step a b) a ∧ r (step a b) b)
    {best : α} {rest : List α} (hbest : P best) (hrefl : r best best) (hrest : ∀ a ∈ rest, P a) :
    rest.foldl step best ∈ best :: rest ∧ ∀ a ∈ best :: rest, r (rest.foldl step best) a := by
  induction rest generalizing best with
  | nil => exact ⟨List.mem_cons_self, by simpa using hrefl⟩
  | cons b rest ih =>
    have hb := hrest b List.mem_cons_self
    have hrest' : ∀ a ∈ rest, P a := fun a ha => hrest a (List.mem_cons_of_mem b ha)
    obtain ⟨hchoice, hlebest, hleb⟩ := hstep hbest hb
    have hP : P (step best b) := by rcases hchoice with h | h <;> rw [h] <;> assumption
    have hself : r (step best b) (step best b) := by
      rcases hchoice with h | h <;> rw [h] <;> rw [h] at hlebest hleb <;> assumption
    obtain ⟨hmem, hleast⟩ := ih hP hself hrest'
    have hall : ∀ a ∈ rest.foldl step (step best b) :: rest, P a := by
      intro a ha
      rcases List.mem_cons.1 ha with rfl | ha
      · rcases List.mem_cons.1 hmem with h | h
        · rwa [h]
        · exact hrest' _ h
      · exact hrest' a ha
    have hfirst := hleast _ List.mem_cons_self
    rw [List.foldl_cons]
    refine ⟨?_, fun a ha => ?_⟩
    · rcases List.mem_cons.1 hmem with h | h
      · rw [h]
        rcases hchoice with h | h <;> rw [h] <;> simp
      · exact List.mem_cons_of_mem _ (List.mem_cons_of_mem _ h)
    · have hresult := hall _ List.mem_cons_self
      rcases List.mem_cons.1 ha with rfl | ha
      · exact htrans hresult hP hbest hfirst hlebest
      · rcases List.mem_cons.1 ha with rfl | ha
        · exact htrans hresult hP hb hfirst hleb
        · exact hleast a (List.mem_cons_of_mem _ ha)

/-- The collation orders the members of a list. -/
def CollatesMembers (ds : List Document) : Prop := Collates fun d => ∃ x ∈ ds, d = some x

namespace CollatesMembers

variable {ds : List Document} {x y z : Document}

lemma swap (h : CollatesMembers ds) (hx : x ∈ ds) (hy : y ∈ ds) :
    y.collate x = (x.collate y).swap :=
  h.toOrientedCmp.eq_swap (a := ⟨some y, y, hy, rfl⟩) (b := ⟨some x, x, hx, rfl⟩)

lemma trans (h : CollatesMembers ds) (hx : x ∈ ds) (hy : y ∈ ds) (hz : z ∈ ds)
    (hxy : (x.collate y).isLE = true) (hyz : (y.collate z).isLE = true) :
    (x.collate z).isLE = true :=
  h.isLE_trans (a := ⟨some x, x, hx, rfl⟩) (b := ⟨some y, y, hy, rfl⟩) (c := ⟨some z, z, hz, rfl⟩)
    hxy hyz

lemma refl (h : CollatesMembers ds) (hx : x ∈ ds) : (x.collate x).isLE = true := by
  have hswap := h.swap hx hx
  cases hcollate : x.collate x <;> simp_all

/-- **`MIN` is one of the values, and none is less.** -/
theorem leastOf (h : CollatesMembers ds) (hne : ds ≠ []) :
    EntityQuery.leastOf ds ∈ ds ∧ ∀ d ∈ ds, ((EntityQuery.leastOf ds).collate d).isLE = true := by
  cases ds with
  | nil => exact absurd rfl hne
  | cons d ds =>
    refine foldl_extreme (P := (· ∈ d :: ds)) (r := fun x y => (x.collate y).isLE = true)
      (fun ha hb hc => h.trans ha hb hc) (fun {a b} ha hb => ?_) List.mem_cons_self
      (h.refl List.mem_cons_self) fun a ha => List.mem_cons_of_mem d ha
    have hswap := h.swap ha hb
    have hrefl := h.refl ha
    have hrefl' := h.refl hb
    cases hcollate : a.collate b <;> simp_all

/-- **`MAX` is one of the values, and none is greater.** -/
theorem greatestOf (h : CollatesMembers ds) (hne : ds ≠ []) :
    EntityQuery.greatestOf ds ∈ ds ∧
      ∀ d ∈ ds, (d.collate (EntityQuery.greatestOf ds)).isLE = true := by
  cases ds with
  | nil => exact absurd rfl hne
  | cons d ds =>
    refine foldl_extreme (P := (· ∈ d :: ds)) (r := fun x y => (y.collate x).isLE = true)
      (fun ha hb hc hab hbc => h.trans hc hb ha hbc hab) (fun {a b} ha hb => ?_)
      List.mem_cons_self (h.refl List.mem_cons_self) fun a ha => List.mem_cons_of_mem d ha
    have hswap := h.swap ha hb
    have hrefl := h.refl ha
    have hrefl' := h.refl hb
    cases hcollate : a.collate b <;> simp_all

end CollatesMembers

/-- An aggregate counts all values that are neither missing nor null. -/
lemma over_of_valued {f : Aggregate} {ds : List Document} (h : ∀ d ∈ ds, d.isNull = false) :
    f.over false (ds.map some) = f.fold ds := by
  have hvalued : (ds.map some).filterMap (fun v => if isValued v then v else none) = ds := by
    induction ds with
    | nil => rfl
    | cons d ds ih =>
      rw [List.map_cons, List.filterMap_cons, isValued, h d List.mem_cons_self,
        ih fun d hd => h d (List.mem_cons_of_mem _ hd)]
      rfl
  rw [Aggregate.over, hvalued]
  rfl

end EntityQuery
