import EntityQuery.Proofs.Document.Collation
import EntityQuery.Proofs.Model.Lookups
import EntityQuery.Proofs.Translation.Elements
import EntityQuery.Proofs.Translation.Joining
import EntityQuery.Proofs.Translation.Paging

/-!
# Correlated navigations as joins

A reference or collection that is correlated with the rows of a query, and a join of the query with
the documents of the target on the properties that the navigation compares, are translated on
different ways: the former builds its term from the navigation, the latter from the right side and
two formulas.  Both extend one frame by the same keyspace, under the same alias, and differ in the
order of the two sides of an equation only.

* `Query.Binds`: an alias is bound to an entity in a query.
* `Frame.lookedUp`: a frame with the documents that a navigation looks up.
* `Translator.stage_correlate_iff` and `Translator.stage_join_iff`: what the two are translated to.
* `Frame.run_lookedUp_comm`: the order of the sides of the equation does not matter.
* `Translator.SameRows`: two queries are translated to statements with the same rows.
* `translate_correlate_eq_join`: a correlated lookup and the join on what it compares are translated
  alike.
-/

namespace EntityQuery

/-- An alias is bound to an entity in a query: the rows hold the documents of the entity as those of
the alias, provided that the query has a translation. -/
def Query.Binds (tr : Translator) (q : Query) (aliasName entity : String) : Prop :=
  ∀ s p, tr.stage q {} = .ok (s, p) →
    ∃ b, s.yield.bindings.find? (fun b => b.aliasName == aliasName) = some b ∧ b.entity = entity

/-- How a correlated navigation matches rows. -/
def Correlation.matching (c : Correlation) : Matching := if c.optional then .leftOuter else .inner

/-- The join that keeps what a correlated navigation keeps. -/
def Correlation.joinKind (c : Correlation) : JoinKind := if c.optional then .leftOuter else .inner

/-- The frame with the documents of the target of a navigation of which a condition holds. -/
def Frame.lookedUp (f : Frame) (fields : List (String × FieldYield)) (k : Keyspace) (c : Correlation)
    (condition : Expression) : Frame :=
  f.extend fields (.join c.matching (.keyspace k c.aliasName) condition)
    ⟨c.aliasName, c.target, .ident c.aliasName, c.optional⟩

/-! ## What is bound -/

/-- A yield that is read through an alias binds the same aliases to the same entities. -/
lemma Yield.related_rebase (y : Yield) (aliasName : String) :
    y.Related (fun _ _ => True) (y.rebase aliasName) := by
  cases y with
  | entity b => exact .entity ⟨rfl, rfl, trivial⟩
  | scalar s => exact .scalar trivial
  | record fields =>
      refine .record (List.forall₂_map_right_iff.2 (List.forall₂_same.2 fun field _ => ⟨rfl, ?_⟩))
      obtain ⟨name, s | b⟩ := field
      · exact .scalar trivial
      · exact .entity ⟨rfl, rfl, trivial⟩

/-- What is bound in a stage is bound in the frame that it leads to. -/
lemma Stage.Enters.exists_binding {closed : Frame → Bool} {s : Stage} {f : Frame}
    (henters : s.Enters closed f) (htidy : f.Tidy) {aliasName : String} {b : Binding}
    (hb : s.yield.bindings.find? (fun b => b.aliasName == aliasName) = some b) :
    ∃ b', f.binding? aliasName = some b' ∧ b'.aliasName = b.aliasName ∧ b'.entity = b.entity := by
  have hrebased : ∀ y : Yield, y.bindings.find? (fun b => b.aliasName == aliasName) = some b →
      ∀ under, ∃ b', (y.rebase under).bindings.find? (fun b => b.aliasName == aliasName) = some b' ∧
        b'.aliasName = b.aliasName ∧ b'.entity = b.entity := by
    intro y hb under
    have hrel := Computation.rel_find? (y.related_rebase under).bindings
      (p := fun b => b.aliasName == aliasName) (q := fun b => b.aliasName == aliasName)
      fun b b' hb => by rw [hb.aliasName]
    rw [hb] at hrel
    generalize (y.rebase under).bindings.find? (fun b => b.aliasName == aliasName) = b' at hrel ⊢
    cases hrel with
    | some hrel => exact ⟨_, rfl, hrel.aliasName, hrel.entity⟩
  rw [Frame.binding?, htidy.scope]
  cases henters with
  | kept => exact ⟨b, hb, rfl, rfl⟩
  | nested => exact hrebased _ hb _
  | compound => exact hrebased _ hb _

/-! ## The two translations

Both queries are translated operator by operator, and the terms that they add to the frame are
computed.  They differ in the order of the sides of one equation. -/

section

variable {tr : Translator} {q : Query} {s : Stage} {frame : Frame} {source : Binding}
  {c : Correlation} {p p₁ p₂ : Progress} {r : Stage × Progress}

open Translating

lemma Frame.fieldsFor_iff {construct reason : String} {r : List (String × FieldYield) × Progress} :
    frame.fieldsFor construct reason p = .ok r ↔
      ∃ fields, frame.yield.scopeFields? = some fields ∧ r = (fields, p) := by
  refine ⟨Frame.fieldsFor_eq_ok, ?_⟩
  rintro ⟨fields, hfields, rfl⟩
  rw [fieldsFor, hfields]
  rfl

lemma Frame.checkAlias_iff {construct aliasName : String} {r : Unit × Progress} :
    frame.checkAlias construct aliasName p = .ok r ↔ frame.takes aliasName = false ∧ r = ((), p) := by
  refine ⟨Frame.checkAlias_eq_ok, ?_⟩
  rintro ⟨hfresh, rfl⟩
  rw [checkAlias, hfresh]
  rfl

lemma Translator.keyspace_iff {construct entity : String} {r : Keyspace × Progress} :
    tr.keyspace construct entity p = .ok r ↔
      ∃ k, tr.model.keyspace? entity = some k ∧ r = (k, p) := by
  refine ⟨keyspace_eq_ok, ?_⟩
  rintro ⟨k, hk, rfl⟩
  rw [keyspace, hk]
  rfl

/-- The documents of an entity are those of its keyspace, as the right side of a join. -/
lemma Translator.stage_source_iff {entity aliasName : String} :
    tr.stage (.source entity aliasName) p = .ok r ↔
      ∃ k, tr.model.keyspace? entity = some k ∧ r = (.frame (.ofKeyspace k entity aliasName), p) := by
  refine ⟨fun h => ?_, ?_⟩
  · obtain ⟨k, q, hkeyspace, h⟩ := bind_eq_ok.1 h
    obtain ⟨_, hk, heq⟩ := keyspace_iff.1 hkeyspace
    cases heq
    exact ⟨k, hk, pure_eq_ok.1 h⟩
  · rintro ⟨k, hk, rfl⟩
    exact bind_eq_ok.2 ⟨k, p, keyspace_iff.2 ⟨k, hk, rfl⟩, rfl⟩

/-- **What a correlated lookup is translated to**, over the frame of its input. -/
theorem Translator.stage_correlate_iff (hs : tr.stage q p = .ok (s, p₁))
    (henter : s.enter Frame.isSettled p₁ = .ok (frame, p₂))
    (hsource : frame.binding? c.sourceAlias = some source) {sourceField targetField : List String}
    (hkind : c.kind = .lookup sourceField targetField) :
    tr.stage (.correlate q c) p = .ok r ↔ ∃ fields k, frame.yield.scopeFields? = some fields ∧
      frame.takes c.aliasName = false ∧ tr.model.keyspace? c.target = some k ∧
      r = (.frame (frame.lookedUp fields k c
        (.binary .eq (Expression.path (.ident c.aliasName) targetField)
          (source.base.path sourceField))), p₂) := by
  refine ⟨fun h => ?_, ?_⟩
  · obtain ⟨_, _, hs', h⟩ := bind_eq_ok.1 h
    cases hs.symm.trans hs'
    obtain ⟨_, _, henter', h⟩ := bind_eq_ok.1 h
    cases henter.symm.trans henter'
    obtain ⟨_, _, hf, h⟩ := bind_eq_ok.1 h
    obtain ⟨fields, hfields, heq⟩ := Frame.fieldsFor_iff.1 hf
    cases heq
    rw [hsource] at h
    obtain ⟨_, _, halias, h⟩ := bind_eq_ok.1 h
    obtain ⟨hfresh, heq⟩ := Frame.checkAlias_iff.1 halias
    cases heq
    obtain ⟨_, _, hterm, h⟩ := bind_eq_ok.1 h
    obtain ⟨_, hcorrelated, heq⟩ := correlationTerm_eq_ok hterm
    cases heq
    simp only [correlated, hkind, Option.map_eq_some_iff] at hcorrelated
    obtain ⟨k, hk, rfl⟩ := hcorrelated
    exact ⟨_, k, hfields, hfresh, hk, pure_eq_ok.1 h⟩
  · rintro ⟨fields, k, hfields, hfresh, hk, rfl⟩
    refine bind_eq_ok.2 ⟨s, p₁, hs, bind_eq_ok.2 ⟨frame, p₂, henter, ?_⟩⟩
    refine bind_eq_ok.2 ⟨fields, p₂, Frame.fieldsFor_iff.2 ⟨fields, hfields, rfl⟩, ?_⟩
    rw [hsource]
    refine bind_eq_ok.2 ⟨(), p₂, Frame.checkAlias_iff.2 ⟨hfresh, rfl⟩, ?_⟩
    refine bind_eq_ok.2 ⟨_, p₂, ?_, rfl⟩
    simp only [correlationTerm, hkind]
    exact bind_eq_ok.2 ⟨k, p₂, keyspace_iff.2 ⟨k, hk, rfl⟩, rfl⟩

/-- A property of an entity that an alias is bound to is read from what the alias stands for. -/
lemma Frame.property_of_binding {b : Binding} {path : PropertyPath}
    (hb : frame.binding? path.aliasName = some b) (hentity : b.entity = path.entity) :
    frame.property path = pure (b.base.path path.path) := by
  simp only [property, hb, if_pos hentity]

/-- The keys of a join on properties are those of the entities on its sides. -/
lemma Frame.lookupKeys_widened {b : Binding} {left right : PropertyPath}
    (hleft : frame.binding? left.aliasName = some source) (hsource : source.entity = left.entity)
    (hfresh : frame.takes b.aliasName = false) (hright : right.aliasName = b.aliasName)
    (hentity : b.entity = right.entity) :
    Frame.property { frame with scope := frame.scope ++ [b] } left =
        pure (source.base.path left.path) ∧
      Frame.property { frame with scope := frame.scope ++ [b] } right =
        pure (b.base.path right.path) := by
  rw [Frame.binding?] at hleft
  refine ⟨Frame.property_of_binding ?_ hsource, Frame.property_of_binding ?_ hentity⟩
  · rw [Frame.binding?, List.find?_append, hleft]
    rfl
  · have hnone : frame.binding? b.aliasName = none := by
      simp only [takes, Bool.or_eq_false_iff, Option.isSome_eq_false_iff,
        Option.isNone_iff_eq_none] at hfresh
      exact hfresh.1.1
    rw [Frame.binding?] at hnone
    rw [Frame.binding?, hright, List.find?_append, hnone]
    simp

/-- The join kinds that a correlated navigation can have are those that a statement expresses. -/
lemma Correlation.matching?_joinKind (c : Correlation) :
    JoinKind.matching? c.joinKind = some c.matching := by
  rw [joinKind, matching]
  cases c.optional <;> rfl

/-- The join of a correlated navigation makes the rows optional that the navigation does. -/
lemma Correlation.optional_matching (c : Correlation) : (c.matching == .leftOuter) = c.optional := by
  rw [matching]
  cases c.optional <;> rfl

/-- The documents of an entity are a keyspace as the right side of a join. -/
lemma Stage.sourceAs_ofKeyspace (k : Keyspace) (entity aliasName : String) :
    (Stage.frame (.ofKeyspace k entity aliasName)).sourceAs aliasName = .keyspace k aliasName := by
  simp [sourceAs, Frame.bareKeyspace?, Frame.ofKeyspace, Frame.isOrdered, Frame.isPaged,
    Frame.isSealed]

/-- What yields entities may be the right side of a join. -/
lemma Stage.joinSource_of_entity {s : Stage} {b : Binding} (h : s.yield = .entity b)
    (optional : Bool) : s.joinSource optional =
      pure (s.sourceAs b.aliasName, { b with base := .ident b.aliasName, optional }) := by
  simp only [joinSource, h]
  rfl

/-- **What a join on properties is translated to**, over the frame of its left side. -/
theorem Translator.stage_join_iff (hs : tr.stage q p = .ok (s, p₁))
    (henter : s.enter Frame.isSettled p₁ = .ok (frame, p₂)) {left right : PropertyPath}
    (hsource : frame.binding? left.aliasName = some source) (hentity : source.entity = left.entity)
    (hright : right.aliasName = c.aliasName) (htarget : right.entity = c.target)
    (hcomparable : left.scalarType.comparable right.scalarType = true) :
    tr.stage (.join c.joinKind q (.source c.target c.aliasName) (.property left) (.property right)) p =
        .ok r ↔
      ∃ fields k, frame.yield.scopeFields? = some fields ∧
        frame.takes c.aliasName = false ∧ tr.model.keyspace? c.target = some k ∧
        r = (.frame (frame.lookedUp fields k c (.binary .eq (source.base.path left.path)
          (Expression.path (.ident c.aliasName) right.path))), p₂) := by
  set b : Binding := ⟨c.aliasName, c.target, .ident c.aliasName, c.optional⟩ with hb
  have hkeys : frame.takes c.aliasName = false →
      Frame.property { frame with scope := frame.scope ++ [b] } left =
          pure (source.base.path left.path) ∧
        Frame.property { frame with scope := frame.scope ++ [b] } right =
          pure (Expression.path (.ident c.aliasName) right.path) := fun hfresh =>
    Frame.lookupKeys_widened (b := b) hsource hentity hfresh hright htarget.symm
  refine ⟨fun h => ?_, ?_⟩
  · obtain ⟨r, p'⟩ := r
    obtain ⟨matching, _, _, rs, _, _, _, fields, b', le, _, re, hmatching, hs', hrs, henter', hfields,
      hyield, hfresh, hle, hre, rfl⟩ := join_eq_ok h
    cases hs.symm.trans hs'
    obtain ⟨k, hk, heq⟩ := stage_source_iff.1 hrs
    cases heq
    cases henter.symm.trans henter'
    cases hyield
    cases c.matching?_joinKind.symm.trans hmatching
    have hjoined : Binding.joined ⟨c.aliasName, c.target, .ident c.aliasName, false⟩ c.matching = b := by
      rw [Binding.joined, c.optional_matching]
    rw [hjoined] at hle hre ⊢
    rw [formula, (hkeys hfresh).1] at hle
    rw [formula, (hkeys hfresh).2] at hre
    cases pure_eq_ok.1 hle
    cases pure_eq_ok.1 hre
    rw [Stage.sourceAs_ofKeyspace]
    exact ⟨fields, k, hfields, hfresh, hk, rfl⟩
  · rintro ⟨fields, k, hfields, hfresh, hk, rfl⟩
    refine bind_eq_ok.2 ⟨c.matching, p, ?_, bind_eq_ok.2 ⟨s, p₁, hs, ?_⟩⟩
    · rw [Correlation.joinKind, Correlation.matching]
      cases c.optional <;> rfl
    refine bind_eq_ok.2 ⟨_, p₁, stage_source_iff.2 ⟨k, hk, rfl⟩, ?_⟩
    refine bind_eq_ok.2 ⟨frame, p₂, henter, ?_⟩
    refine bind_eq_ok.2 ⟨fields, p₂, Frame.fieldsFor_iff.2 ⟨fields, hfields, rfl⟩, ?_⟩
    have hjoin : (Stage.frame (.ofKeyspace k c.target c.aliasName)).joinSource
        (c.matching == .leftOuter) p₂ = .ok ((.keyspace k c.aliasName, b), p₂) := by
      rw [Stage.joinSource_of_entity rfl, Stage.sourceAs_ofKeyspace, c.optional_matching]
      rfl
    refine bind_eq_ok.2 ⟨_, p₂, hjoin, ?_⟩
    refine bind_eq_ok.2 ⟨(), p₂, Frame.checkAlias_iff.2 ⟨hfresh, rfl⟩, ?_⟩
    have hpass : ¬ (!(Formula.property left).scalarType.comparable
        (Formula.property right).scalarType) = true := by
      change ¬ (!left.scalarType.comparable right.scalarType) = true
      rw [hcomparable]
      exact Bool.false_ne_true
    refine refuse_bind_eq_ok.2 ⟨hpass, ?_⟩
    refine bind_eq_ok.2 ⟨_, p₂, ?_, bind_eq_ok.2 ⟨_, p₂, ?_, rfl⟩⟩
    · rw [formula, (hkeys hfresh).1]
      rfl
    · rw [formula, (hkeys hfresh).2]
      rfl

end

/-! ## The order of the sides

Equality is symmetric on values.  An expression can fail, though, and then it matters which side is
evaluated first; paths from what a row binds do not fail. -/

/-- The equality of values is symmetric, missing ones and null included. -/
lemma Operator.apply_eq_comm (l r : Datum) : Operator.eq.apply l r = Operator.eq.apply r l := by
  rcases l with _ | a <;> rcases r with _ | b
  · rfl
  · rfl
  · rfl
  · simp only [apply, onValues, Bool.or_comm a.isNull, Document.equal_comm a]

/-- The end of a path from what a row binds to an alias is there or missing. -/
lemma Expression.exists_eval_path {env : Environment} {scope : Scope} {base : Expression} {d : Datum}
    (h : base.eval env scope = .ok d) (names : List String) :
    ∃ d', (base.path names).eval env scope = .ok d' := by
  induction names generalizing base d with
  | nil => exact ⟨d, h⟩
  | cons name names ih =>
      have hfield : (Expression.field base name).eval env scope = .ok _ :=
        Computation.bind_of_eq_ok h
      exact ih hfield

/-- An equation holds on a row if it does with its sides swapped, unless a side fails. -/
lemma Expression.holds_eq_comm {env : Environment} {row : Row} {l r : Expression} {d : Datum}
    (hl : l.eval env (.ofRow row) = .ok d) :
    (Expression.binary .eq l r).holds env row = (Expression.binary .eq r l).holds env row := by
  rw [holds, holds, eval, eval, hl]
  cases r.eval env (.ofRow row) with
  | error e => rfl
  | ok d' => exact congrArg (· >>= fun d => .ok (isTrue d)) (Operator.apply_eq_comm d d')

/-- Conditions that hold on the same rows join the same documents. -/
lemma Term.run_join_congr {env : Environment} {matching : Matching} {source : Source}
    {e e' : Expression} (h : ∀ (row : Row) (d : Document),
      e.holds env (row.bind source.aliasName (some d)) =
        e'.holds env (row.bind source.aliasName (some d))) :
    (Term.join matching source e).run env = (Term.join matching source e').run env := by
  have hrow : ∀ documents, joinRow env matching source.aliasName e documents =
      joinRow env matching source.aliasName e' documents := by
    intro documents
    funext row
    simp only [joinRow, keepWhere_map, h row]
  funext rows
  simp only [Term.run, hrow]

/-- **The documents that a navigation looks up do not depend on the order of the sides** of the
equation by which it does. -/
theorem Frame.run_lookedUp_comm (f : Frame) (fields : List (String × FieldYield)) (k : Keyspace)
    (c : Correlation) (e : Expression) (path : List String) (env : Environment) :
    (f.lookedUp fields k c (.binary .eq (Expression.path (.ident c.aliasName) path) e)).finish.run env =
      (f.lookedUp fields k c
        (.binary .eq e (Expression.path (.ident c.aliasName) path))).finish.run env := by
  have hterm : (Term.join c.matching (.keyspace k c.aliasName)
        (.binary .eq (Expression.path (.ident c.aliasName) path) e)).run env =
      (Term.join c.matching (.keyspace k c.aliasName)
        (.binary .eq e (Expression.path (.ident c.aliasName) path))).run env := by
    refine Term.run_join_congr fun row d => ?_
    have hbound : (Expression.ident c.aliasName).eval env
        (.ofRow (row.bind c.aliasName (some d))) = .ok (some d) := by
      rw [Expression.eval, Scope.ofRow, Row.find?_bind_self]
    obtain ⟨d', hd'⟩ := Expression.exists_eval_path hbound path
    exact Expression.holds_eq_comm hd'
  simp only [lookedUp, extend, finish, Statement.run, runTerms_append, runTerms, hterm]
  rfl

/-! ## Correlated navigations of queries

That two queries are translated alike includes that they fail alike, and that their statements have
the same rows whatever the values of parameters are. -/

/-- Two stages with the same rows of one yield. -/
structure Stage.SameRows (s s' : Stage) : Prop where
  yield : s.yield = s'.yield
  run : ∀ env, s.statement.run env = s'.statement.run env

/-- Two queries are translated alike: one is translated if the other one is, and then the two have
one shape, take the same parameters and, whatever the values of these are, have the same rows in the
same order, or the same failure. -/
structure Translator.SameRows (tr : Translator) (q q' : Query) : Prop where
  constants : q.constants = q'.constants
  translated : (∃ t, tr.translate q = .ok t) ↔ ∃ t, tr.translate q' = .ok t
  same : ∀ t t', tr.translate q = .ok t → tr.translate q' = .ok t' →
    t.shape = t'.shape ∧ t.query.parameters = t'.query.parameters ∧
      ∀ env, t.query.statement.run env = t'.query.statement.run env

/-- Queries are translated alike if their stages are alike. -/
lemma Translator.SameRows.of_stages {tr : Translator} {q q' : Query}
    (hconstants : q.constants = q'.constants)
    (h : ∀ s p, tr.stage q {} = .ok (s, p) → ∃ s', tr.stage q' {} = .ok (s', p) ∧ s.SameRows s')
    (h' : ∀ s' p, tr.stage q' {} = .ok (s', p) → ∃ s, tr.stage q {} = .ok (s, p) ∧ s.SameRows s') :
    tr.SameRows q q' := by
  refine ⟨hconstants, ⟨?_, ?_⟩, fun t t' ht ht' => ?_⟩
  · rintro ⟨t, ht⟩
    obtain ⟨s, p, hs, -, hshape⟩ := translate_eq_ok ht
    obtain ⟨s', hs', hsame⟩ := h s p hs
    exact ⟨_, translate_of_stage hs' (hsame.yield ▸ hshape)⟩
  · rintro ⟨t', ht'⟩
    obtain ⟨s', p, hs', -, hshape⟩ := translate_eq_ok ht'
    obtain ⟨s, hs, hsame⟩ := h' s' p hs'
    exact ⟨_, translate_of_stage hs (hsame.yield ▸ hshape)⟩
  · obtain ⟨s, p, hs, hquery, hshape⟩ := translate_eq_ok ht
    obtain ⟨s', p', hs', hquery', hshape'⟩ := translate_eq_ok ht'
    obtain ⟨s₁, hs₁, hsame⟩ := h s p hs
    cases hs'.symm.trans hs₁
    rw [hsame.yield] at hshape
    rw [hquery, hquery']
    exact ⟨Except.ok.inj (hshape.symm.trans hshape'), rfl, hsame.run⟩

/-- A correlated lookup and the join on what it compares become stages that are alike. -/
lemma Translator.stage_correlate_join {tr : Translator} {q : Query} {s : Stage} {p₁ : Progress}
    (hs : tr.stage q {} = .ok (s, p₁)) {b : Binding} {left right : PropertyPath} {c : Correlation}
    (hb : s.yield.bindings.find? (fun b => b.aliasName == left.aliasName) = some b)
    (hentity : b.entity = left.entity) (hsource : c.sourceAlias = left.aliasName)
    (hkind : c.kind = .lookup left.path right.path) (hright : right.aliasName = c.aliasName)
    (htarget : right.entity = c.target)
    (hcomparable : left.scalarType.comparable right.scalarType = true) :
    (∀ st p, tr.stage (.correlate q c) {} = .ok (st, p) → ∃ st', tr.stage (.join c.joinKind q
        (.source c.target c.aliasName) (.property left) (.property right)) {} = .ok (st', p) ∧
        st.SameRows st') ∧
      ∀ st' p, tr.stage (.join c.joinKind q (.source c.target c.aliasName) (.property left)
        (.property right)) {} = .ok (st', p) → ∃ st, tr.stage (.correlate q c) {} = .ok (st, p) ∧
        st.SameRows st' := by
  obtain ⟨frame, p₂, henter⟩ := s.exists_enter Frame.isSettled p₁
  obtain ⟨henters, -⟩ := Stage.enter_eq_ok henter
  have htidy : frame.Tidy := (stage_eq_ok hs).1.tidy.enter henters
  obtain ⟨source, hbinding, -, hsame⟩ := henters.exists_binding htidy hb
  have hcorrelate : ∀ {r}, _ := fun {r} =>
    stage_correlate_iff (r := r) (c := c) hs henter (hsource.symm ▸ hbinding) hkind
  have hjoin : ∀ {r}, _ := fun {r} =>
    stage_join_iff (r := r) (c := c) hs henter hbinding (hsame.trans hentity) hright htarget
      hcomparable
  constructor
  · intro st p hst
    obtain ⟨fields, k, hfields, hfresh, hk, heq⟩ := hcorrelate.1 hst
    cases heq
    exact ⟨_, hjoin.2 ⟨fields, k, hfields, hfresh, hk, rfl⟩, rfl,
      frame.run_lookedUp_comm fields k c _ _⟩
  · intro st' p hst'
    obtain ⟨fields, k, hfields, hfresh, hk, heq⟩ := hjoin.1 hst'
    cases heq
    exact ⟨_, hcorrelate.2 ⟨fields, k, hfields, hfresh, hk, rfl⟩, rfl,
      frame.run_lookedUp_comm fields k c _ _⟩

/-- **Correlating equals joining.**  A reference or collection of a valid model, from a set whose
alias is bound to its entity in a query, is correlated with the rows of the query, under some alias;
and the query is joined with the documents of the target, under this alias, on the properties that
the navigation compares.  The two are translated alike, the optional navigation as the left join and
the other one as the inner join. -/
theorem translate_correlate_eq_join {m : Model} {registry : Registry} {defaults : DefaultKeyspace}
    {tr : Translator} (hvalid : m.validate registry defaults = .ok tr.model) {s : EntitySet}
    {name : String} {c : Correlation} (hc : tr.model.correlation s name = .ok c)
    {sourceField targetField : List String} (hkind : c.kind = .lookup sourceField targetField)
    {q : Query} (hbound : q.Binds tr s.aliasName s.entity) (aliasName : String) (optional : Bool) :
    ∃ left right, tr.model.lookupKeys s name ⟨c.target, aliasName⟩ = some (left, right) ∧
      tr.SameRows (.correlate q { c with aliasName, optional })
        (.join (if optional then .leftOuter else .inner) q (.source c.target aliasName)
          left right) := by
  obtain ⟨hsource, p, k, rfl, rfl, hcomparable, hkeys⟩ :=
    ValidModel.correlation_lookup hvalid hc hkind
  have hsame : ∀ s₀ p₁, tr.stage q {} = .ok (s₀, p₁) → _ := fun s₀ p₁ hs₀ =>
    have ⟨_, hb, hentity⟩ := hbound s₀ p₁ hs₀
    @Translator.stage_correlate_join tr q s₀ p₁ hs₀ _ (s.path p)
      (EntitySet.path ⟨c.target, aliasName⟩ k) { c with aliasName, optional } hb hentity hsource
      hkind rfl rfl hcomparable
  refine ⟨_, _, hkeys aliasName, .of_stages ?_ (fun st r hst => ?_) fun st r hst => ?_⟩
  · simp [Query.constants, Query.formulas, Formula.constantsOf, Formula.constants]
  · obtain ⟨s₀, p₁, hs₀, -⟩ := Translating.bind_eq_ok.1 hst
    exact (hsame s₀ p₁ hs₀).1 st r hst
  · obtain ⟨_, s₀, p₁, _, _, _, _, _, _, _, _, _, -, hs₀, -⟩ := Translator.join_eq_ok hst
    exact (hsame s₀ p₁ hs₀).2 st r hst

namespace Sample

/-- A model without defects, as its validation leaves it. -/
def validShop : ValidModel := ⟨shop.model, {}, shop.model.issues .standard {}⟩

/-- The persons of an age, under the first alias. -/
def buyers : Query := .filter (.source "Person" "p") (.binary .gt age (.ofValue (.int64 20)))

end Sample

/-- Persons are correlated with their orders as they are joined with them. -/
theorem translate_correlate_eq_join_orders : ∃ c sourceField targetField left right,
    Sample.shop.model.validate .standard {} = .ok Sample.validShop ∧
    Sample.validShop.correlation ⟨"Person", "p"⟩ "orders" = .ok c ∧
    c.kind = .lookup sourceField targetField ∧
    Sample.buyers.Binds ⟨Sample.validShop, .standard, .standard⟩ "p" "Person" ∧
    (∃ t, Translator.translate ⟨Sample.validShop, .standard, .standard⟩
      (.correlate Sample.buyers { c with aliasName := "o", optional := true }) = .ok t) ∧
    Sample.validShop.lookupKeys ⟨"Person", "p"⟩ "orders" ⟨c.target, "o"⟩ = some (left, right) ∧
    Translator.SameRows ⟨Sample.validShop, .standard, .standard⟩
      (.correlate Sample.buyers { c with aliasName := "o", optional := true })
      (.join .leftOuter Sample.buyers (.source c.target "o") left right) := by
  have hvalid : Sample.shop.model.validate .standard {} = .ok Sample.validShop := rfl
  have hc : Sample.validShop.correlation ⟨"Person", "p"⟩ "orders" =
      .ok ⟨"p", "orders", "Order", "orders", .lookup ["id"] ["buyer"], false⟩ := rfl
  have hbound : Sample.buyers.Binds ⟨Sample.validShop, .standard, .standard⟩ "p" "Person" := by
    intro s p hs
    cases (show _ = Except.ok (s, p) from hs)
    exact ⟨_, rfl, rfl⟩
  obtain ⟨left, right, hkeys, hsame⟩ :=
    @translate_correlate_eq_join _ _ _ ⟨Sample.validShop, .standard, .standard⟩ hvalid _ _ _ hc
      _ _ rfl _ hbound "o" true
  exact ⟨_, _, _, left, right, hvalid, hc, rfl, hbound, ⟨_, rfl⟩, hkeys, hsame⟩

end EntityQuery
