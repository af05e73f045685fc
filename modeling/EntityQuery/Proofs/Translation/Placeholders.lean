import EntityQuery.Proofs.Translation.Writing

/-!
# Placeholders and their entries

An entry is added to the parameter table as soon as a constant or a parameter is translated.  Later
operators may replace the clause that holds its placeholder: a projection takes the place of an
earlier one, and an order of an earlier order.  The entry stays, so a table may have entries that
the statement does not use.

* `Translator.Drops`: a placeholder stands in a clause that an operator replaces or takes away.
* `Translator.Adds.placeholders`: an operator adds what it writes to the placeholders of its input,
  but for what it drops.
* `Translator.stage_placeholders`: the placeholders of a query are those of its statement, and those
  that are dropped.
* `parameters_consistent`: when the table and the statement fit.
-/

namespace EntityQuery

open Expression (placeholdersOf mem_placeholdersOf)

/-! ## Placeholders of frames

For each function that changes a frame, its placeholders afterwards are those from before, without
what is replaced and with what is added. -/

/-- The expressions that make the rows of a frame. -/
def Frame.rowExpressions (f : Frame) : List Expression := f.yield.selection.expressions

/-- The expressions that order the rows of a frame. -/
def Frame.orderExpressions (f : Frame) : List Expression := f.orderBy.map OrderKey.key

namespace Frame

variable {f : Frame} {name : String}

lemma mem_placeholders : name ∈ f.finish.placeholders ↔
    (name ∈ f.source.placeholders ∨ name ∈ termPlaceholders f.terms) ∨
      name ∈ placeholdersOf f.rowExpressions ∨ name ∈ placeholdersOf f.predicate.toList ∨
        name ∈ placeholdersOf f.groupBy ∨ name ∈ placeholdersOf f.orderExpressions ∨
          name ∈ placeholdersOf f.limit.toList ∨ name ∈ placeholdersOf f.offset.toList := by
  simp [finish, Statement.placeholders, clauses, Clauses.expressions, rowExpressions,
    orderExpressions, or_assoc]

lemma mem_placeholders_of_row (h : name ∈ placeholdersOf f.rowExpressions) :
    name ∈ f.finish.placeholders := mem_placeholders.2 (.inr (.inl h))

lemma mem_placeholders_of_order (h : name ∈ placeholdersOf f.orderExpressions) :
    name ∈ f.finish.placeholders := mem_placeholders.2 (by grind)

@[simp] lemma mem_placeholders_restrict {e : Expression} :
    name ∈ (f.restrict e).finish.placeholders ↔
      name ∈ f.finish.placeholders ∨ name ∈ placeholdersOf [e] := by
  have hpredicate : name ∈ placeholdersOf [Expression.andAlso f.predicate e] ↔
      name ∈ placeholdersOf f.predicate.toList ∨ name ∈ placeholdersOf [e] := by
    cases f.predicate <;>
      simp [Expression.andAlso, placeholdersOf, Expression.placeholders]
  simp only [mem_placeholders, restrict, rowExpressions, orderExpressions, Option.toList_some,
    hpredicate]
  grind

/-- Other rows take the place of those of the frame. -/
lemma mem_placeholders_yielding {y : Yield} :
    name ∈ (f.yielding y).finish.placeholders ∨ name ∈ placeholdersOf f.rowExpressions ↔
      name ∈ f.finish.placeholders ∨ name ∈ placeholdersOf y.selection.expressions := by
  simp only [mem_placeholders, yielding, rowExpressions, orderExpressions]
  grind

/-- Another order takes the place of that of the frame. -/
lemma mem_placeholders_orderedBy {keys : List OrderKey} :
    name ∈ { f with orderBy := keys }.finish.placeholders ∨
        name ∈ placeholdersOf f.orderExpressions ↔
      name ∈ f.finish.placeholders ∨ name ∈ placeholdersOf (keys.map OrderKey.key) := by
  simp only [mem_placeholders, rowExpressions, orderExpressions]
  grind

lemma mem_placeholders_thenBy {k : OrderKey} :
    name ∈ { f with orderBy := f.orderBy ++ [k] }.finish.placeholders ↔
      name ∈ f.finish.placeholders ∨ name ∈ placeholdersOf [k.key] := by
  simp only [mem_placeholders, rowExpressions, orderExpressions, List.map_append, List.map_cons,
    List.map_nil, Expression.placeholdersOf_append, List.mem_append]
  grind

/-- A number of rows adds what it uses, where the frame has no such number. -/
lemma mem_placeholders_paged {e : Expression} {offset limit : Option Expression}
    (h : (limit.toList ++ offset.toList).Perm (e :: (f.limit.toList ++ f.offset.toList))) :
    name ∈ { f with offset, limit }.finish.placeholders ↔
      name ∈ f.finish.placeholders ∨ name ∈ placeholdersOf [e] := by
  have hcounts : name ∈ placeholdersOf (limit.toList ++ offset.toList) ↔
      name ∈ placeholdersOf [e] ∨ name ∈ placeholdersOf (f.limit.toList ++ f.offset.toList) := by
    simp only [mem_placeholdersOf, h.mem_iff, List.mem_cons, List.not_mem_nil, or_false,
      or_and_right, exists_or]
  simp only [Expression.placeholdersOf_append, List.mem_append] at hcounts
  simp only [mem_placeholders, rowExpressions, orderExpressions]
  grind

/-- Keys and summaries take the place of the rows of the frame. -/
lemma mem_placeholders_grouped {keys summaries : List (String × YieldedScalar)}
    (h : f.groupBy = []) :
    name ∈ (f.grouped keys summaries).finish.placeholders ∨
        name ∈ placeholdersOf f.rowExpressions ↔
      name ∈ f.finish.placeholders ∨
        name ∈ placeholdersOf ((keys ++ summaries).map fun k => k.2.expression) := by
  have hrows : (f.grouped keys summaries).rowExpressions =
      (keys ++ summaries).map fun k => k.2.expression := by
    simp [grouped, rowExpressions, Yield.selection, Selection.expressions, FieldYield.expression,
      Function.comp_def]
  simp only [mem_placeholders, hrows, h]
  simp only [grouped, rowExpressions, orderExpressions, placeholdersOf, List.not_mem_nil,
    List.map_append, Expression.placeholdersOf_append, List.mem_append]
  grind

/-- A single scalar takes the place of the rows of the frame and of their order. -/
lemma mem_placeholders_concluded {s : YieldedScalar} :
    name ∈ (f.concluded s).finish.placeholders ∨
        name ∈ placeholdersOf (f.rowExpressions ++ f.orderExpressions) ↔
      name ∈ f.finish.placeholders ∨ name ∈ placeholdersOf [s.expression] := by
  simp only [mem_placeholders, concluded, rowExpressions, orderExpressions, Yield.selection,
    Selection.expressions, List.map_nil, placeholdersOf, List.not_mem_nil,
    Expression.placeholdersOf_append, List.mem_append]
  grind

lemma mem_placeholders_counted {s : YieldedScalar} (h : s.expression.placeholders = []) :
    name ∈ (f.concluded s).finish.placeholders ∨
        name ∈ placeholdersOf (f.rowExpressions ++ f.orderExpressions) ↔
      name ∈ f.finish.placeholders := by
  rw [mem_placeholders_concluded, placeholdersOf, h]
  exact ⟨fun h => h.resolve_right List.not_mem_nil, .inl⟩

/-- A further term adds what it uses. -/
lemma mem_placeholders_extend {fields : List (String × FieldYield)} {t : Term} {b : Binding}
    (hfields : f.yield.scopeFields? = some fields) (hb : b.base.placeholders = []) :
    name ∈ (f.extend fields t b).finish.placeholders ↔
      name ∈ f.finish.placeholders ∨ name ∈ t.placeholders := by
  have hrows : (f.extend fields t b).rowExpressions = f.rowExpressions ++ [b.base] :=
    Yield.expressions_scopeFields hfields b
  have hterms : termPlaceholders (f.terms ++ [t]) = termPlaceholders f.terms ++ t.placeholders := by
    induction f.terms with
    | nil => simp [termPlaceholders]
    | cons t' ts ih => simp [termPlaceholders, ih]
  simp only [mem_placeholders, hrows, Expression.placeholdersOf_append, placeholdersOf, hb,
    List.append_nil]
  simp only [extend, orderExpressions, hterms, List.mem_append]
  grind

/-- A new frame over a statement uses what the statement does. -/
@[simp] lemma mem_placeholders_ofStatement {s : Statement} {y : Yield} {aliasName : String} :
    name ∈ (Frame.ofStatement s y aliasName).finish.placeholders ↔ name ∈ s.placeholders := by
  have hrows : name ∉ placeholdersOf (Frame.ofStatement s y aliasName).rowExpressions := by
    rw [mem_placeholdersOf]
    rintro ⟨e, he, hname⟩
    obtain rfl | ⟨_, rfl⟩ := Yield.mem_expressions_rebase he <;> cases hname
  rw [mem_placeholders, iff_false_intro hrows]
  simp [ofStatement, orderExpressions, Source.placeholders, termPlaceholders, placeholdersOf]

/-- A frame that reads a keyspace and does nothing else has no placeholders. -/
lemma placeholders_of_bareKeyspace {k : Keyspace} (h : f.bareKeyspace? = some k) :
    name ∉ f.finish.placeholders := by
  obtain ⟨source, terms, predicate, groupBy, orderBy, distinct, offset, limit, yield, scope,
    isGrouped, isConcluded⟩ := f
  rcases source with ⟨k', base⟩ | ⟨s, a⟩
  · rcases yield with ⟨a, entity, e, optional⟩ | s | fields
    · cases e with
      | ident base' =>
          simp only [bareKeyspace?, isOrdered, isPaged, Bool.and_eq_true, Bool.not_eq_true',
            Bool.or_eq_false_iff, List.isEmpty_iff, Option.isNone_iff_eq_none,
            Option.isSome_eq_false_iff, Bool.not_eq_false', Option.ite_none_right_eq_some] at h
          obtain ⟨⟨⟨⟨⟨⟨⟨rfl, rfl⟩, rfl⟩, rfl⟩, rfl, rfl⟩, -⟩, -⟩, -⟩ := h
          exact List.not_mem_nil
      | _ => cases h
    · cases h
    · cases h
  · cases h

/-- The parts of a frame use no placeholders but those of its statement. -/
lemma Tidy.parts_placeholders (h : f.Tidy) :
    f.Parts fun e => ∀ name ∈ e.placeholders, name ∈ f.finish.placeholders := by
  have hrow : ∀ e ∈ f.rowExpressions, ∀ name ∈ e.placeholders, name ∈ f.finish.placeholders :=
    fun e he name hname => mem_placeholders_of_row (mem_placeholdersOf.2 ⟨e, he, hname⟩)
  refine ⟨fun b hb => hrow _ (Yield.base_mem_expressions ?_), hrow⟩
  rwa [← h.scope]

end Frame

namespace Stage

variable {s : Stage} {f : Frame} {closed : Frame → Bool} {name : String}

/-- A frame that is entered uses what its stage does. -/
lemma Enters.mem_placeholders (h : s.Enters closed f) :
    name ∈ f.finish.placeholders ↔ name ∈ s.statement.placeholders := by
  cases h with
  | kept => rfl
  | nested => exact Frame.mem_placeholders_ofStatement
  | compound => exact Frame.mem_placeholders_ofStatement

/-- Rows of a frame that is entered are not skipped, if it would be closed otherwise. -/
lemma Enters.offset_eq_none (h : s.Enters Frame.isSettled f) : f.offset = none := by
  cases h with
  | kept h => simp_all [Frame.isSettled, Frame.isPaged]
  | nested => rfl
  | compound => rfl

/-- The rows of a frame that is entered are not limited, if it would be closed otherwise. -/
lemma Enters.limit_eq_none (h : s.Enters (fun f => f.isLimited || f.isSealed) f) :
    f.limit = none := by
  cases h with
  | kept h => simp_all [Frame.isLimited]
  | nested => rfl
  | compound => rfl

/-- A stage that becomes a source uses what its statement does. -/
lemma mem_placeholders_sourceAs {aliasName : String} :
    name ∈ (s.sourceAs aliasName).placeholders ↔ name ∈ s.statement.placeholders := by
  cases s with
  | compound => rfl
  | frame f =>
      rw [sourceAs]
      cases hbare : f.bareKeyspace? with
      | none => rfl
      | some k =>
          have hnone : name ∉ (Stage.frame f).statement.placeholders :=
            Frame.placeholders_of_bareKeyspace hbare
          simpa [hbare, Source.placeholders] using hnone

end Stage

/-! ## What is dropped

A translation has no record of what it has dropped.  It is described by the query: an operator drops
what stands in the parts of the frame that it replaces, and this is computed from the frame of its
input. -/

namespace Translator

variable {tr : Translator}

/-- A placeholder stands in a part of the frame that an operator starts from. -/
def Replaces (tr : Translator) (closed : Frame → Bool) (part : Frame → List Expression)
    (input : Query) (p : Progress) (name : String) : Prop :=
  ∃ frame q, (tr.stage input >>= Stage.enter closed) p = .ok (frame, q) ∧
    name ∈ placeholdersOf (part frame)

/-- A placeholder stands in a clause that an operator replaces or takes away.  A projection, a
grouping and a terminal replace the rows, and an order and a terminal the order, of the frame that
they start from; a frame that becomes a source keeps all of its clauses. -/
def Drops (tr : Translator) : Query → Progress → String → Prop
  | .source .., _, _ => False
  | .project input _, p, name =>
    tr.Drops input p name ∨ tr.Replaces Frame.isSealed Frame.rowExpressions input p name
  | .orderBy input _ _, p, name =>
    tr.Drops input p name ∨ tr.Replaces Frame.isSettled Frame.orderExpressions input p name
  | .groupBy input _ _, p, name =>
    tr.Drops input p name ∨ tr.Replaces Frame.isArranged Frame.rowExpressions input p name
  | .conclude input _ _, p, name =>
    tr.Drops input p name ∨
      tr.Replaces Frame.isSettled (fun f => f.rowExpressions ++ f.orderExpressions) input p name
  | .filter input _, p, name | .thenBy input _ _, p, name | .correlate input _, p, name
  | .skip input _, p, name | .take input _, p, name | .distinct input, p, name =>
    tr.Drops input p name
  | .join _ left right _ _, p, name | .combine _ left right, p, name =>
    tr.Drops left p name ∨ ∃ s q, tr.stage left p = .ok (s, q) ∧ tr.Drops right q name

/-- What an operator replaces or takes away of the frame that it starts from. -/
def replacedBy : Query → Frame → List Expression
  | .project .., frame | .groupBy .., frame => frame.rowExpressions
  | .orderBy .., frame => frame.orderExpressions
  | .conclude .., frame => frame.rowExpressions ++ frame.orderExpressions
  | _, _ => []

open Translating

variable {input : Query} {p q q₁ p' : Progress} {s : Stage} {closed : Frame → Bool}
  {frame : Frame} {name : String}

lemma replaces_iff {part : Frame → List Expression} (hs : tr.stage input p = .ok (s, q))
    (henter : s.enter closed q = .ok (frame, q₁)) :
    tr.Replaces closed part input p name ↔ name ∈ placeholdersOf (part frame) := by
  have hframe : (tr.stage input >>= Stage.enter closed) p = .ok (frame, q₁) :=
    bind_eq_ok.2 ⟨s, q, hs, henter⟩
  constructor
  · rintro ⟨frame', q', h, hname⟩
    rw [hframe] at h
    cases h
    exact hname
  · exact fun h => ⟨frame, q₁, hframe, h⟩

/-- What is known of a frame that an operator starts from. -/
lemma entered_eq_ok (hs : tr.stage input p = .ok (s, q))
    (henter : s.enter closed q = .ok (frame, q₁)) :
    frame.Tidy ∧ q₁.nextSlot = p.nextSlot + (slotsOf input.inputs).length := by
  obtain ⟨hlowered, hreads⟩ := stage_eq_ok hs
  obtain ⟨henters, hnone⟩ := Stage.enter_eq_ok henter
  exact ⟨hlowered.tidy.enter henters, by rw [hnone.nextSlot, hreads.nextSlot]; rfl⟩

lemma mem_placeholders_of_replacedBy {query : Query}
    (h : name ∈ placeholdersOf (replacedBy query frame)) : name ∈ frame.finish.placeholders := by
  cases query with
  | project | groupBy => exact Frame.mem_placeholders_of_row h
  | orderBy => exact Frame.mem_placeholders_of_order h
  | conclude =>
      rw [replacedBy, Expression.placeholdersOf_append, List.mem_append] at h
      exact h.elim Frame.mem_placeholders_of_row Frame.mem_placeholders_of_order
  | _ => cases h

/-- An operator drops what its input does, and what it replaces. -/
lemma Adds.drops_iff {query : Query} {frame' : Frame}
    (h : Adds tr frame q₁ query input closed frame' p') (hs : tr.stage input p = .ok (s, q))
    (henter : s.enter closed q = .ok (frame, q₁)) :
    tr.Drops query p name ↔
      tr.Drops input p name ∨ name ∈ placeholdersOf (replacedBy query frame) := by
  cases h with
  | project | orderBy | groupBy | conclude => rw [Drops, replaces_iff hs henter]; rfl
  | filter | thenBy | correlate | skip | take | distinct =>
      exact (or_iff_left List.not_mem_nil).symm

/-- The term of a correlated navigation uses what its source is bound to. -/
lemma correlated_placeholders {c : Correlation} {source : Binding} {term : Term}
    (h : tr.correlated c source = some term) : term.placeholders = source.base.placeholders := by
  rw [correlated] at h
  cases hkind : c.kind with
  | unnest path =>
      rw [hkind] at h
      cases h
      simp [Term.placeholders]
  | lookup sourceField targetField =>
      simp only [hkind, Option.map_eq_some_iff] at h
      obtain ⟨k, -, rfl⟩ := h
      simp [Term.placeholders, Source.placeholders, Expression.placeholders]

/-- A terminal adds what it writes, and takes away the rows and their order. -/
lemma writes_of_terminal {terminal : Terminal} {arg : Option Formula} {r : Frame × YieldedScalar}
    (hframe : frame.Parts fun e => ∀ name ∈ e.placeholders, name ∈ frame.finish.placeholders)
    (h : tr.terminal frame terminal arg p = .ok (r, p')) :
    ∃ es, p.Writes frame.finish.placeholders
        (Formula.inputsOf (Query.conclude input terminal arg).readFormulas) es p' ∧
      ∀ name, name ∈ (r.1.concluded r.2).finish.placeholders ∨
          name ∈ placeholdersOf (frame.rowExpressions ++ frame.orderExpressions) ↔
        name ∈ frame.finish.placeholders ∨ name ∈ placeholdersOf es := by
  simp only [Translator.terminal] at h
  cases hfunction : terminal.function? with
  | some function =>
      simp only [hfunction] at h
      obtain ⟨f, q₁, harg, h⟩ := bind_eq_ok.1 h
      obtain ⟨_, rfl, hr⟩ := terminalArgument_eq_ok harg
      cases hr
      replace h := after_check (fun _ hs => pure_eq_ok.1 (refuse_eq_ok.1 hs).2) h
      obtain ⟨e, q₁, hf, h⟩ := bind_eq_ok.1 h
      cases pure_eq_ok.1 h
      have hread : (Query.conclude input terminal (some f)).readFormulas = [f] := by
        cases terminal <;> first | rfl | cases hfunction
      rw [hread, Formula.inputsOf_singleton]
      exact ⟨[e], writes_of_formula hframe f hf, fun _ => Frame.mem_placeholders_concluded⟩
  | none =>
      simp only [hfunction] at h
      cases terminal with
      | count =>
          cases pure_eq_ok.1 h
          exact ⟨[], .nil _ _, fun _ => (Frame.mem_placeholders_counted rfl).trans
            (or_iff_left List.not_mem_nil).symm⟩
      | any =>
          cases pure_eq_ok.1 h
          exact ⟨[], .nil _ _, fun _ => (Frame.mem_placeholders_counted rfl).trans
            (or_iff_left List.not_mem_nil).symm⟩
      | all =>
          obtain ⟨f, q₁, harg, h⟩ := bind_eq_ok.1 h
          obtain ⟨_, rfl, hr⟩ := terminalArgument_eq_ok harg
          cases hr
          obtain ⟨e, q₁, hf, h⟩ := bind_eq_ok.1 h
          cases pure_eq_ok.1 h
          have hread : (Query.conclude input .all (some f)).readFormulas = [f] := rfl
          rw [hread, Formula.inputsOf_singleton]
          refine ⟨[e], writes_of_condition hframe hf, fun name => ?_⟩
          have hcounted := @Frame.mem_placeholders_counted (frame.restrict (violation e)) name
            ⟨comparedCount .eq, .bool, false, none⟩ rfl
          refine hcounted.trans (Frame.mem_placeholders_restrict.trans ?_)
          simp [violation, placeholdersOf, Expression.placeholders]
      | sum | min | max | average => cases hfunction

/-- **What an operator writes.**  It adds that to the frame that it starts from, and what it
replaces goes. -/
lemma Adds.writes {query : Query} {frame' : Frame} (h : Adds tr frame p query input closed frame' p')
    (htidy : frame.Tidy) (henters : s.Enters closed frame) :
    ∃ es, p.Writes frame.finish.placeholders (Formula.inputsOf query.readFormulas) es p' ∧
      ∀ name, name ∈ frame'.finish.placeholders ∨ name ∈ placeholdersOf (replacedBy query frame) ↔
        name ∈ frame.finish.placeholders ∨ name ∈ placeholdersOf es := by
  have hframe := htidy.parts_placeholders
  -- where nothing is replaced, the operator adds what it writes
  have hkept {name : String} {new old written : Prop} (h : new ↔ old ∨ written) :
      new ∨ name ∈ placeholdersOf [] ↔ old ∨ written :=
    (or_iff_left List.not_mem_nil).trans h
  cases h with
  | @filter input predicate e _ he =>
      have hwrites := writes_of_condition hframe he
      rw [← Formula.inputsOf_singleton] at hwrites
      exact ⟨[e], hwrites, fun _ => hkept Frame.mem_placeholders_restrict⟩
  | project hy =>
      exact ⟨_, writes_of_projection hframe hy, fun _ => Frame.mem_placeholders_yielding⟩
  | @orderBy input key descending e _ he =>
      have hwrites := writes_of_formula hframe key he
      rw [← Formula.inputsOf_singleton] at hwrites
      exact ⟨[e], hwrites, fun _ => Frame.mem_placeholders_orderedBy⟩
  | @thenBy input key descending e _ _ _ he =>
      have hwrites := writes_of_formula hframe key he
      rw [← Formula.inputsOf_singleton] at hwrites
      exact ⟨[e], hwrites, fun _ => hkept Frame.mem_placeholders_thenBy⟩
  | groupBy hkeys hsummaries _ =>
      have hopen := henters.isSealed fun _ => Frame.isSealed_of_isArranged
      obtain ⟨⟨hgrouped, hconcluded⟩, -⟩ := Frame.isSealed_eq_false.1 hopen
      have hwrites := (writes_of_groupKeys hframe hkeys).append
        (writes_of_groupSummaries hframe hsummaries)
      rw [← Formula.inputsOf_append, ← List.map_append] at hwrites
      exact ⟨_, hwrites,
        fun _ => Frame.mem_placeholders_grouped (htidy.unfolded hgrouped hconcluded).1⟩
  | correlate hfields hsource _ hterm =>
      refine ⟨[], .nil _ _, fun name => hkept ?_⟩
      have hbound := hframe.scope _ (List.mem_of_find?_eq_some hsource)
      rw [Frame.mem_placeholders_extend hfields rfl, correlated_placeholders hterm]
      exact ⟨fun h => .inl (h.elim id (hbound name)),
        fun h => .inl (h.resolve_right List.not_mem_nil)⟩
  | @skip input count e _ he =>
      have hwrites := writes_of_rowCount hframe he
      rw [← Formula.inputsOf_singleton] at hwrites
      refine ⟨[e], hwrites, fun _ => hkept (Frame.mem_placeholders_paged ?_)⟩
      rw [henters.offset_eq_none, Option.toList_none, List.append_nil, Option.toList_some]
      exact List.perm_append_singleton e _
  | @take input count e _ he =>
      have hwrites := writes_of_rowCount hframe he
      rw [← Formula.inputsOf_singleton] at hwrites
      refine ⟨[e], hwrites, fun _ => hkept (Frame.mem_placeholders_paged ?_)⟩
      rw [henters.limit_eq_none]
      exact .refl _
  | distinct => exact ⟨[], .nil _ _, fun _ => hkept (or_iff_left List.not_mem_nil).symm⟩
  | conclude hterminal => exact writes_of_terminal hframe hterminal

/-- **An operator adds what it writes to the placeholders of its input**, but for what it drops. -/
lemma Adds.placeholders {query : Query} {frame' : Frame}
    (h : Adds tr frame q₁ query input closed frame' p') (hs : tr.stage input p = .ok (s, q))
    (henter : s.enter closed q = .ok (frame, q₁))
    (hinput : name ∈ s.statement.placeholders ∨ tr.Drops input p name ↔
      name ∈ placeholdersFrom p.nextSlot input.inputs) :
    name ∈ frame'.finish.placeholders ∨ tr.Drops query p name ↔
      name ∈ placeholdersFrom p.nextSlot query.inputs := by
  obtain ⟨htidy, hslot⟩ := entered_eq_ok hs henter
  have henters := (Stage.enter_eq_ok henter).1
  obtain ⟨es, hwrites, hnew⟩ := h.writes htidy henters
  have hreplaced : name ∈ placeholdersOf (replacedBy query frame) →
      name ∈ frame.finish.placeholders := mem_placeholders_of_replacedBy
  rw [h.inputs, placeholdersFrom_append, ← hslot, List.mem_append, ← hinput,
    ← henters.mem_placeholders, h.drops_iff hs henter]
  have hused := hwrites.used name
  have hknown := hwrites.known name
  grind

/-- What the right one of two inputs drops is dropped once the left one has been translated. -/
lemma exists_stage_iff {left right : Query} (hl : tr.stage left p = .ok (s, q)) :
    (∃ s' q', tr.stage left p = .ok (s', q') ∧ tr.Drops right q' name) ↔
      tr.Drops right q name := by
  constructor
  · rintro ⟨s', q', h, hdrops⟩
    rw [hl] at h
    cases h
    exact hdrops
  · exact fun h => ⟨s, q, hl, h⟩

/-- The placeholders of two inputs, and what is written behind them. -/
lemma placeholders_sides {left right : Query} {ls rs : Stage} {own : List Input} {written : Prop}
    (hl : tr.stage left p = .ok (ls, q)) (hr : tr.stage right q = .ok (rs, q₁))
    (hleft : name ∈ ls.statement.placeholders ∨ tr.Drops left p name ↔
      name ∈ placeholdersFrom p.nextSlot left.inputs)
    (hright : name ∈ rs.statement.placeholders ∨ tr.Drops right q name ↔
      name ∈ placeholdersFrom q.nextSlot right.inputs)
    (hused : name ∈ placeholdersFrom q₁.nextSlot own → written)
    (hknown : written →
      name ∈ placeholdersFrom q₁.nextSlot own ∨ name ∈ ls.statement.placeholders) :
    (name ∈ ls.statement.placeholders ∨ name ∈ rs.statement.placeholders ∨ written) ∨
        tr.Drops left p name ∨ (∃ s q, tr.stage left p = .ok (s, q) ∧ tr.Drops right q name) ↔
      name ∈ placeholdersFrom p.nextSlot (left.inputs ++ right.inputs ++ own) := by
  have hq : q.nextSlot = p.nextSlot + (slotsOf left.inputs).length := (stage_eq_ok hl).2.nextSlot
  have hq₁ : q₁.nextSlot = p.nextSlot + (slotsOf (left.inputs ++ right.inputs)).length := by
    rw [(stage_eq_ok hr).2.nextSlot, hq, slotsOf_append, List.length_append, Nat.add_assoc]
  rw [exists_stage_iff hl, placeholdersFrom_append, placeholdersFrom_append, ← hq₁, ← hq,
    List.mem_append, List.mem_append, ← hleft, ← hright]
  constructor
  · rintro ((h | h | h) | h | h)
    · exact .inl (.inl (.inl h))
    · exact .inl (.inr (.inl h))
    · exact (hknown h).symm.imp_left fun h => .inl (.inl h)
    · exact .inl (.inl (.inr h))
    · exact .inl (.inr (.inr h))
  · rintro (((h | h) | (h | h)) | h)
    · exact .inl (.inl h)
    · exact .inr (.inl h)
    · exact .inl (.inr (.inl h))
    · exact .inr (.inr h)
    · exact .inl (.inr (.inr (hused h)))

/-- The keys of a join are written behind its sides. -/
lemma writes_of_joinKeys {b : Binding} {leftKey rightKey : Formula} {le re : Expression}
    (hframe : frame.Parts fun e => ∀ name ∈ e.placeholders, name ∈ frame.finish.placeholders)
    (hb : b.base.placeholders = [])
    (hle : tr.formula { frame with scope := frame.scope ++ [b] } leftKey p = .ok (le, q))
    (hre : tr.formula { frame with scope := frame.scope ++ [b] } rightKey q = .ok (re, p')) :
    p.Writes frame.finish.placeholders (Formula.inputsOf [leftKey, rightKey]) [le, re] p' := by
  have hwidened : { frame with scope := frame.scope ++ [b] }.Parts
      fun e => ∀ name ∈ e.placeholders, name ∈ frame.finish.placeholders := by
    refine ⟨fun b' hb' => ?_, hframe.yield⟩
    rcases List.mem_append.1 hb' with hb' | hb'
    · exact hframe.scope b' hb'
    · rw [List.mem_singleton.1 hb', hb]
      exact fun _ h => by cases h
  have hwrites := (writes_of_formula hwidened leftKey hle).append
    (writes_of_formula hwidened rightKey hre)
  rwa [← Formula.inputsOf_singleton leftKey, ← Formula.inputsOf_singleton rightKey,
    ← Formula.inputsOf_append] at hwrites

/-- The placeholders of a translation, operator by operator. -/
lemma Translates.placeholders {query : Query} (h : Translates tr query p s p') (name : String) :
    name ∈ s.statement.placeholders ∨ tr.Drops query p name ↔
      name ∈ placeholdersFrom p.nextSlot query.inputs := by
  induction h with
  | source =>
      constructor
      · rintro (h | h) <;> cases h
      · exact nofun
  | operator hs _ henter hadds ih => exact hadds.placeholders hs henter ih
  | @join kind matching left right ls rs frame fields b le re p p₁ p₂ p₃ p₄ p' leftKey rightKey
      _ hl _ hr _ henter hfields _ _ hle hre ihl ihr =>
      obtain ⟨henters, hnone⟩ := Stage.enter_eq_ok henter
      have hframe := ((stage_eq_ok hl).1.tidy.enter henters).parts_placeholders
      have hwrites := writes_of_joinKeys hframe rfl hle hre
      have hcondition : name ∈ (Expression.binary .eq le re).placeholders ↔
          name ∈ placeholdersOf [le, re] := by
        simp [placeholdersOf, Expression.placeholders]
      have hused := hwrites.used name
      have hknown := hwrites.known name
      rw [hnone.nextSlot] at hused hknown
      rw [henters.mem_placeholders] at hknown
      rw [Stage.statement, Frame.mem_placeholders_extend hfields rfl, Term.placeholders,
        List.mem_append, Stage.mem_placeholders_sourceAs, hcondition, henters.mem_placeholders]
      exact placeholders_sides hl hr ihl ihr hused hknown
  | @combine op left right ls rs p p₁ p₂ _ hl _ hr _ ihl ihr =>
      have hsides := @placeholders_sides tr p p₁ p₂ name left right ls rs [] False hl hr ihl ihr
        (fun h => by cases h) False.elim
      rw [or_false] at hsides
      rw [Stage.statement, Statement.placeholders, List.mem_append]
      exact hsides

/-- **The placeholders of a query are those of its statement, and those that are dropped.** -/
theorem stage_placeholders {query : Query} (h : tr.stage query p = .ok (s, p')) (name : String) :
    name ∈ s.statement.placeholders ∨ tr.Drops query p name ↔
      name ∈ placeholdersFrom p.nextSlot query.inputs :=
  (translates_of_stage h).placeholders name

end Translator

/-! ## The table

The entries of the table are the inputs that were read, and the placeholders of the statement those
that are still there.  The difference is what was dropped on the way. -/

/-- A table gains no entries but those of what is read. -/
lemma ParameterTable.Binds.names_subset {n : Nat} {is : List Input} {t t' : ParameterTable}
    (h : Binds n is t t') : ∀ name ∈ t'.names, name ∈ t.names ∨ name ∈ placeholdersFrom n is := by
  induction h with
  | refl => exact fun name h => .inl h
  | @bound n c is t t' _ ih =>
      have hslot : ∀ name ∈ (t.bindSlot n c.scalarType).1.names,
          name ∈ t.names ∨ name = slotName n := by
        intro name hname
        cases hfind : t.find? (slotName n) with
        | some e => exact .inl (by simpa [bindSlot, hfind] using hname)
        | none => simpa [bindSlot, hfind] using hname
      intro name hname
      rcases ih name hname with hname | hname
      · exact (hslot name hname).imp_right fun h => List.mem_cons.2 (.inl h)
      · exact .inr (List.mem_cons_of_mem _ hname)
  | tested _ ih => exact ih
  | @named n name type is t t₁ t' hbind _ ih =>
      have hnamed : ∀ name' ∈ t₁.names, name' ∈ t.names ∨ name' = name := by
        intro name' hname
        obtain ⟨-, ⟨e, -, -, rfl⟩ | ⟨-, rfl⟩⟩ := bindNamed_eq_ok hbind
        · exact .inl hname
        · simpa using hname
      intro name' hname
      rcases ih name' hname with hname | hname
      · exact (hnamed name' hname).imp_right fun h => List.mem_cons.2 (.inl h)
      · exact .inr (List.mem_cons_of_mem _ hname)
  | marked _ ih =>
      rw [names_markRowCount] at ih
      exact ih

/-- A statement and its table fit if the same placeholders are used and declared, each once. -/
lemma StoreQuery.isConsistent_iff {q : StoreQuery} : q.isConsistent = true ↔
    (∀ name, name ∈ q.statement.placeholders ↔ name ∈ q.parameters.names) ∧
      q.parameters.names.Nodup := by
  simp only [isConsistent, Bool.and_eq_true, List.all_eq_true, List.contains_iff_mem,
    decide_eq_true_eq]
  constructor
  · exact fun ⟨⟨hused, hdeclared⟩, hnodup⟩ => ⟨fun name => ⟨hused name, hdeclared name⟩, hnodup⟩
  · exact fun ⟨h, hnodup⟩ => ⟨⟨fun name => (h name).1, fun name => (h name).2⟩, hnodup⟩

/-- **The entries of a translation.**  Each name is declared once, and the names are the
placeholders of the statement together with those that are dropped.  So the table and the statement
fit exactly if each placeholder that is dropped is used elsewhere in the statement. -/
theorem parameters_consistent {tr : Translator} {q : Query} {t : Translation}
    (h : tr.translate q = .ok t) :
    t.query.parameters.names.Nodup ∧
      (∀ name, name ∈ t.query.parameters.names ↔
        name ∈ t.query.statement.placeholders ∨ tr.Drops q {} name) ∧
      (t.query.isConsistent = true ↔
        ∀ name, tr.Drops q {} name → name ∈ t.query.statement.placeholders) := by
  obtain ⟨stage, progress, hstage, hquery, -⟩ := Translator.translate_eq_ok h
  have hreads := (Translator.stage_eq_ok hstage).2
  rw [hquery]
  have hnodup : progress.parameters.names.Nodup :=
    (ParameterTable.aligned_empty.binds hreads.parameters).nodup
  have hread : ∀ name, name ∈ progress.parameters.names ↔ name ∈ placeholdersFrom 0 q.inputs :=
    fun name => ⟨fun h => (hreads.parameters.names_subset name h).resolve_left List.not_mem_nil,
      hreads.parameters.covers.2 name⟩
  have hdeclared : ∀ name, name ∈ progress.parameters.names ↔
      name ∈ stage.statement.placeholders ∨ tr.Drops q {} name :=
    fun name => (hread name).trans (Translator.stage_placeholders hstage name).symm
  refine ⟨hnodup, hdeclared, ?_⟩
  rw [StoreQuery.isConsistent_iff]
  constructor
  · exact fun ⟨hfit, _⟩ name hname => (hfit name).2 ((hdeclared name).2 (.inr hname))
  · refine fun hused => ⟨fun name => ⟨fun h => (hdeclared name).2 (.inl h), fun h => ?_⟩, hnodup⟩
    exact ((hdeclared name).1 h).elim id (hused name)

namespace Sample

/-- The number of ages in a year. -/
def agesCounted : Query :=
  .conclude
    (.project (.source "Person" "p") (.scalar (.binary .add age (.ofValue (.int64 1))))) .count none

end Sample

/-- The table of the adults fits their statement, which drops nothing. -/
theorem parameters_consistent_adults : ∃ t,
    Sample.translator.translate Sample.adults = .ok t ∧ t.query.isConsistent = true := by
  refine ⟨_, rfl, (@parameters_consistent Sample.translator Sample.adults _ rfl).2.2.2 ?_⟩
  intro name h
  cases h

/-- To count ages drops the expression that makes them, and its placeholder has an entry all the
same. -/
theorem agesCounted_inconsistent : ∃ t,
    Sample.translator.translate Sample.agesCounted = .ok t ∧ t.query.isConsistent = false :=
  ⟨_, rfl, rfl⟩

end EntityQuery
