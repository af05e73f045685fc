import EntityQuery.Proofs.Evaluation.Ordering

/-!
# Selections with a further condition

A selection that neither folds nor counts out its rows makes a document of each row that it keeps.
So it may be asked for a further condition on its rows, or its documents may be asked afterwards:
the condition finds the same documents, in the same order.

* `keepWhere_eq_ok`: what is kept by a test that does not fail.
* `Clauses.kept_restrict`: a further condition keeps those of the rows that satisfy it.
* `Clauses.IsFlat`: a selection that makes a document of each row.
* `Clauses.run_restrict`: a further condition on the rows keeps the documents that pass a test with
  the same outcomes.
-/

namespace EntityQuery

/-! ## Keeping by tests that may fail

A test may fail, and then nothing is kept.  Where it does not, keeping is filtering by whether the
test passes, and the laws of filtering can be used. -/

section Keeping

variable {α : Type} {test : α → Except EvalError Bool} {as bs : List α}

/-- Whether a test passes; one that fails does not. -/
def passes (test : α → Except EvalError Bool) (a : α) : Bool := (test a).toOption.getD false

lemma passes_of_eq_ok {a : α} {b : Bool} (h : test a = .ok b) : passes test a = b := by
  rw [passes, h]
  rfl

/-- **Members are kept if the test fails on none of them, and those are kept on which it passes.**
-/
theorem keepWhere_eq_ok :
    keepWhere test as = .ok bs ↔ (∀ a ∈ as, ∃ b, test a = .ok b) ∧ bs = as.filter (passes test) := by
  induction as generalizing bs with
  | nil => simp [keepWhere, eq_comm]
  | cons a as ih =>
      rw [keepWhere, Computation.bind_eq_ok]
      constructor
      · rintro ⟨keep, hkeep, h⟩
        obtain ⟨rest, hrest, h⟩ := Computation.bind_eq_ok.1 h
        cases h
        obtain ⟨hdefined, rfl⟩ := ih.1 hrest
        refine ⟨fun a' ha' => ?_, ?_⟩
        · rcases List.mem_cons.1 ha' with rfl | ha'
          · exact ⟨keep, hkeep⟩
          · exact hdefined a' ha'
        · rw [List.filter_cons, passes_of_eq_ok hkeep]
      · rintro ⟨hdefined, rfl⟩
        obtain ⟨keep, hkeep⟩ := hdefined a List.mem_cons_self
        have hrest := ih.2 ⟨fun a' ha' => hdefined a' (.tail _ ha'), rfl⟩
        refine ⟨keep, hkeep, Computation.bind_eq_ok.2 ⟨_, hrest, ?_⟩⟩
        rw [List.filter_cons, passes_of_eq_ok hkeep]

/-- What is kept is among what there was. -/
lemma mem_of_keepWhere (h : keepWhere test as = .ok bs) : ∀ b ∈ bs, b ∈ as := by
  intro b hb
  rw [(keepWhere_eq_ok.1 h).2] at hb
  exact List.mem_of_mem_filter hb

/-- Keeping by a test that asks for two others is keeping by one after the other. -/
lemma keepWhere_and {first second both : α → Except EvalError Bool}
    (hboth : ∀ a b, both a = .ok b →
      ∃ x y, first a = .ok x ∧ second a = .ok y ∧ b = (x && y)) {cs : List α}
    (hfirst : keepWhere first as = .ok bs) (h : keepWhere both as = .ok cs) :
    keepWhere second bs = .ok cs := by
  obtain ⟨-, rfl⟩ := keepWhere_eq_ok.1 hfirst
  obtain ⟨hdefined, rfl⟩ := keepWhere_eq_ok.1 h
  refine keepWhere_eq_ok.2 ⟨fun a ha => ?_, ?_⟩
  · obtain ⟨b, hb⟩ := hdefined a (List.mem_of_mem_filter ha)
    obtain ⟨x, y, -, hy, -⟩ := hboth a b hb
    exact ⟨y, hy⟩
  · rw [List.filter_filter]
    refine List.filter_congr fun a ha => ?_
    obtain ⟨b, hb⟩ := hdefined a ha
    obtain ⟨x, y, hx, hy, rfl⟩ := hboth a b hb
    rw [passes_of_eq_ok hb, passes_of_eq_ok hx, passes_of_eq_ok hy, Bool.and_comm]

/-- A test on what members are mapped to. -/
lemma keepWhere_map {β : Type} {f : α → β} {test : β → Except EvalError Bool} :
    keepWhere test (as.map f) = (keepWhere (fun a => test (f a)) as).map (List.map f) := by
  induction as with
  | nil => rfl
  | cons a as ih =>
      rw [List.map_cons, keepWhere, keepWhere, ih]
      cases test (f a) with
      | error e => rfl
      | ok keep =>
          cases keepWhere (fun a => test (f a)) as with
          | error e => rfl
          | ok rest => cases keep <;> rfl

end Keeping

/-! ## Conditions

Logical connectives know truth values that are missing or null, but a row is kept only if the
condition is true.  Seen from there they are the connectives of two truth values. -/

/-- A conjunction is true if both operands are, and a disjunction if one is. -/
lemma isTrue_connective (decisive : Bool) (l r : Datum) :
    isTrue (connective decisive l r) =
      if decisive then isTrue l || isTrue r else isTrue l && isTrue r := by
  cases decisive <;> rcases l with _ | (_ | (_ | _) | _ | _ | _ | _) <;>
    rcases r with _ | (_ | (_ | _) | _ | _ | _ | _) <;> rfl

/-- A conjunction holds on a row if both conditions do. -/
lemma Expression.holds_and {env : Environment} {p e : Expression} {row : Row} {b : Bool}
    (h : (Expression.binary .and p e).holds env row = .ok b) :
    ∃ x y, p.holds env row = .ok x ∧ e.holds env row = .ok y ∧ b = (x && y) := by
  obtain ⟨d, hd, h⟩ := Computation.bind_eq_ok.1 h
  obtain ⟨l, hl, hd⟩ := Computation.bind_eq_ok.1 hd
  obtain ⟨r, hr, hd⟩ := Computation.bind_eq_ok.1 hd
  cases hd
  cases h
  exact ⟨isTrue l, isTrue r, Computation.bind_eq_ok.2 ⟨l, hl, rfl⟩,
    Computation.bind_eq_ok.2 ⟨r, hr, rfl⟩, isTrue_connective false l r⟩

/-- On a row on which two conditions are decided, so is what connects them. -/
lemma Expression.holds_connective {env : Environment} {p e : Expression} {row : Row} {x y : Bool}
    {op : Operator} (decisive : Bool)
    (hop : ∀ l r, op.apply l r = .ok (connective decisive l r)) (hp : p.holds env row = .ok x)
    (he : e.holds env row = .ok y) :
    (Expression.binary op p e).holds env row = .ok (if decisive then x || y else x && y) := by
  obtain ⟨l, hl, hp⟩ := Computation.bind_eq_ok.1 hp
  obtain ⟨r, hr, he⟩ := Computation.bind_eq_ok.1 he
  cases hp
  cases he
  rw [← isTrue_connective]
  exact Computation.bind_eq_ok.2 ⟨_,
    Computation.bind_eq_ok.2 ⟨l, hl, Computation.bind_eq_ok.2 ⟨r, hr, hop l r⟩⟩, rfl⟩

namespace Clauses

variable {env : Environment} {c : Clauses}

/-- The selection with a further condition. -/
def restrict (c : Clauses) (e : Expression) : Clauses :=
  { c with predicate := some (Expression.andAlso c.predicate e) }

/-- A further condition keeps those of the rows that satisfy it. -/
lemma kept_restrict {e : Expression} {rows kept kept' : List Row} (h : c.kept env rows = .ok kept)
    (h' : (c.restrict e).kept env rows = .ok kept') : keepWhere (e.holds env) kept = .ok kept' := by
  rw [Clauses.kept] at h h'
  cases hp : c.predicate with
  | none =>
      rw [hp] at h
      cases h
      rwa [restrict, hp] at h'
  | some p =>
      rw [hp] at h
      rw [restrict, hp] at h'
      exact keepWhere_and (fun row b => Expression.holds_and) h h'

/-- The scopes of which the selection makes documents, in order. -/
def selected (env : Environment) (c : Clauses) (rows : List Row) : Except EvalError (List Scope) := do
  let kept ← c.kept env rows
  let scopes ← c.scopes env kept
  c.ordered env scopes

/-- A selection that makes a document of each row, and returns a page of them. -/
structure IsUnfolded (c : Clauses) : Prop where
  notAggregating : c.isAggregating = false
  notDistinct : c.distinct = false

lemma IsUnfolded.scopes_eq (h : c.IsUnfolded) (rows : List Row) :
    c.scopes env rows = .ok (rows.map .ofRow) := by
  rw [scopes, h.notAggregating]
  rfl

/-- The documents that there are are counted out. -/
lemma IsUnfolded.run_eq_ok (h : c.IsUnfolded) {rows : List Row} {documents : List Document} :
    c.run env rows = .ok documents ↔ ∃ scopes projected, c.selected env rows = .ok scopes ∧
      scopes.mapM (c.selection.project env) = .ok projected ∧
      c.page env (projected.filterMap id) = .ok documents := by
  have hrun : c.run env rows = c.selected env rows >>= fun scopes =>
      scopes.mapM (c.selection.project env) >>= fun projected =>
        c.page env (projected.filterMap id) := by
    rw [run, selected, h.notDistinct]
    cases c.kept env rows with
    | error e => rfl
    | ok kept => cases hscopes : c.scopes env kept <;> simp [hscopes, bind, Except.bind]
  rw [hrun, Computation.bind_eq_ok]
  simp only [Computation.bind_eq_ok, exists_and_left]

/-- Pages of documents that are related one by one are related one by one. -/
lemma page_rel {r : Document → Document → Prop} {rows rows' page page' : List Document}
    (h : List.Forall₂ r rows rows') (hpage : c.page env rows = .ok page)
    (hpage' : c.page env rows' = .ok page') : List.Forall₂ r page page' := by
  rw [page_eq] at hpage hpage'
  obtain ⟨offset, hoffset, hpage⟩ := Computation.bind_eq_ok.1 hpage
  obtain ⟨offset', hoffset', hpage'⟩ := Computation.bind_eq_ok.1 hpage'
  cases hoffset.symm.trans hoffset'
  rw [limited] at hpage hpage'
  cases hlimit : c.limit with
  | none =>
      rw [hlimit] at hpage hpage'
      cases hpage
      cases hpage'
      exact List.forall₂_drop offset h
  | some e =>
      rw [hlimit] at hpage hpage'
      obtain ⟨limit, hcount, hpage⟩ := Computation.bind_eq_ok.1 hpage
      obtain ⟨limit', hcount', hpage'⟩ := Computation.bind_eq_ok.1 hpage'
      cases hcount.symm.trans hcount'
      cases hpage
      cases hpage'
      exact List.forall₂_take limit (List.forall₂_drop offset h)

/-- A selection that makes a document of each row. -/
structure IsFlat (c : Clauses) : Prop where
  notAggregating : c.isAggregating = false
  notDistinct : c.distinct = false
  offset : c.offset = none
  limit : c.limit = none

lemma IsFlat.restrict (h : c.IsFlat) (e : Expression) : (c.restrict e).IsFlat :=
  ⟨h.notAggregating, h.notDistinct, h.offset, h.limit⟩

/-- A flat selection keeps rows, orders them and makes a document of each. -/
lemma IsFlat.run_eq_ok (h : c.IsFlat) {rows : List Row} {documents : List Document} :
    c.run env rows = .ok documents ↔ ∃ kept sorted projected, c.kept env rows = .ok kept ∧
      c.ordered env (kept.map .ofRow) = .ok sorted ∧
      sorted.mapM (c.selection.project env) = .ok projected ∧
      documents = projected.filterMap id := by
  have hscopes : ∀ rows, c.scopes env rows = .ok (rows.map .ofRow) := by
    intro rows
    rw [scopes, h.notAggregating]
    rfl
  have hpage : ∀ rows, c.page env (if c.distinct then dedupe rows else rows) = .ok rows := by
    intro rows
    rw [page]
    rw [h.notDistinct, h.offset, h.limit]
    rfl
  rw [run]
  constructor
  · intro hrun
    obtain ⟨kept, hkept, hrun⟩ := Computation.bind_eq_ok.1 hrun
    obtain ⟨scopes, hs, hrun⟩ := Computation.bind_eq_ok.1 hrun
    rw [hscopes] at hs
    cases hs
    obtain ⟨sorted, hsorted, hrun⟩ := Computation.bind_eq_ok.1 hrun
    obtain ⟨projected, hprojected, hrun⟩ := Computation.bind_eq_ok.1 hrun
    have hdocuments := (hpage (projected.filterMap id)).symm.trans hrun
    cases hdocuments
    exact ⟨kept, sorted, projected, hkept, hsorted, hprojected, rfl⟩
  · rintro ⟨kept, sorted, projected, hkept, hsorted, hprojected, rfl⟩
    refine Computation.bind_eq_ok.2 ⟨kept, hkept, ?_⟩
    refine Computation.bind_eq_ok.2 ⟨_, hscopes kept, ?_⟩
    refine Computation.bind_eq_ok.2 ⟨sorted, hsorted, ?_⟩
    exact Computation.bind_eq_ok.2 ⟨projected, hprojected, hpage _⟩

/-- A flat selection that makes each document of a source again returns these documents. -/
lemma IsFlat.run_single (h : c.IsFlat) (hpredicate : c.predicate = none) (horder : c.orderBy = [])
    {aliasName : String} {documents : List Document}
    (hproject : ∀ d ∈ documents,
      c.selection.project env (.ofRow (.single aliasName d)) = .ok (some d)) :
    c.run env (documents.map (.single aliasName)) = .ok documents := by
  refine h.run_eq_ok.2 ⟨documents.map (.single aliasName),
    (documents.map (.single aliasName)).map .ofRow, documents.map some, ?_, ?_, ?_, ?_⟩
  · rw [kept, hpredicate]
  · rw [ordered, horder]
    rfl
  · rw [Computation.mapM_eq_ok, List.map_map, List.forall₂_map_left_iff,
      List.forall₂_map_right_iff, List.forall₂_same]
    exact hproject
  · simp

/-- The documents of the scopes that pass a test are those that pass a test with the same outcomes;
a scope without a document does not matter. -/
lemma keepWhere_projected {s : Selection} {test : Document → Except EvalError Bool}
    {pass : Scope → Bool} {scopes : List Scope} {projected : List Datum}
    (htest : ∀ scope ∈ scopes, ∀ d, s.project env scope = .ok (some d) →
      test d = .ok (pass scope))
    (h : scopes.mapM (s.project env) = .ok projected) :
    ∃ projected', (scopes.filter pass).mapM (s.project env) = .ok projected' ∧
      keepWhere test (projected.filterMap id) = .ok (projected'.filterMap id) := by
  rw [Computation.mapM_eq_ok] at h
  induction h with
  | nil => exact ⟨[], rfl, rfl⟩
  | @cons scope d scopes projected hd _ ih =>
      obtain ⟨projected', hprojected, hkeep⟩ := ih fun scope hscope => htest scope (.tail _ hscope)
      rw [List.filter_cons]
      cases d with
      | none =>
          -- the row has no document, whether it passes or not
          cases pass scope with
          | true =>
              rw [if_pos rfl]
              refine ⟨none :: projected', ?_, hkeep⟩
              exact Computation.mapM_eq_ok.2 (.cons hd (Computation.mapM_eq_ok.1 hprojected))
          | false => exact ⟨projected', hprojected, hkeep⟩
      | some d =>
          have hpass := htest scope List.mem_cons_self d hd
          cases hscope : pass scope with
          | true =>
              rw [if_pos rfl]
              refine ⟨some d :: projected', ?_, ?_⟩
              · exact Computation.mapM_eq_ok.2 (.cons hd (Computation.mapM_eq_ok.1 hprojected))
              · rw [hscope] at hpass
                exact Computation.bind_eq_ok.2 ⟨true, hpass, Computation.bind_eq_ok.2 ⟨_, hkeep, rfl⟩⟩
          | false =>
              rw [hscope] at hpass
              exact ⟨projected', hprojected,
                Computation.bind_eq_ok.2 ⟨false, hpass, Computation.bind_eq_ok.2 ⟨_, hkeep, rfl⟩⟩⟩

/-- **A further condition on the rows of a flat selection keeps those of its documents that pass a
test with the same outcomes.** -/
theorem run_restrict {e : Expression} {rows kept : List Row} {documents documents' : List Document}
    {test : Document → Except EvalError Bool} (hflat : c.IsFlat)
    (hkept : c.kept env rows = .ok kept) (hcollated : c.Collated env (kept.map .ofRow))
    (htest : ∀ row ∈ kept, ∀ d, c.selection.project env (.ofRow row) = .ok (some d) →
      test d = e.holds env row)
    (h : c.run env rows = .ok documents) (h' : (c.restrict e).run env rows = .ok documents') :
    keepWhere test documents = .ok documents' := by
  have hflat' : (c.restrict e).IsFlat := hflat.restrict e
  obtain ⟨kept₀, sorted, projected, hkept₀, hsorted, hprojected, rfl⟩ := hflat.run_eq_ok.1 h
  rw [hkept] at hkept₀
  cases hkept₀
  obtain ⟨kept', sorted', projected', hkept', hsorted', hprojected', rfl⟩ := hflat'.run_eq_ok.1 h'
  obtain ⟨hdefined, rfl⟩ := keepWhere_eq_ok.1 (kept_restrict hkept hkept')
  -- the rows that satisfy the condition are sorted as they are among all rows
  have hfilter := ordered_filter hsorted hcollated fun scope => passes (e.holds env) scope.row
  have hscopes : (kept.map Scope.ofRow).filter (fun scope => passes (e.holds env) scope.row) =
      (kept.filter (passes (e.holds env))).map .ofRow := List.filter_map
  rw [hscopes] at hfilter
  have heq : sorted' = sorted.filter fun scope => passes (e.holds env) scope.row :=
    Except.ok.inj (hsorted'.symm.trans hfilter)
  have houtcome : ∀ scope ∈ sorted, ∀ d, c.selection.project env scope = .ok (some d) →
      test d = .ok (passes (e.holds env) scope.row) := by
    intro scope hscope d hd
    obtain ⟨row, hrow, rfl⟩ := List.mem_map.1 ((ordered_perm hsorted).mem_iff.1 hscope)
    obtain ⟨b, hb⟩ := hdefined row hrow
    rw [htest row hrow d hd, Scope.ofRow, passes_of_eq_ok hb, hb]
  obtain ⟨projected₁, hprojected₁, hkeep⟩ := keepWhere_projected houtcome hprojected
  rw [← heq] at hprojected₁
  have : projected₁ = projected' := Except.ok.inj (hprojected₁.symm.trans hprojected')
  rwa [this] at hkeep

end Clauses
end EntityQuery
