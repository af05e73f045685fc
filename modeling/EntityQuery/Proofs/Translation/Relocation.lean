import EntityQuery.Proofs.Evaluation.Selection
import EntityQuery.Proofs.Translation.Rebase
import EntityQuery.Proofs.Translation.Shifting

/-!
# Queries that are translated behind others

The right operand of a set operation, and the right side of a join, are translated behind another
query.  Their slots are counted from a later one on, and other aliases are made up for their
sources.  Neither changes the rows: the two translations follow the same rules, frame by frame, and
what they add to a frame is evaluated alike.

* `Frame.Follows` and `Stage.Follows`: frames and stages that do the same; `Frame.Follows.restrict`
  and its companions are the steps.
* `Stage.Follows.statement`: their statements return the same rows.
* `Translator.Lowered.follows`: two stages that a query becomes, from different slots on.
-/

namespace EntityQuery

/-! ## Frames

One frame follows another if they correspond clause by clause under the pairs of their aliases.  The
relation has a lemma for each function that changes a frame. -/

/-- The aliases of two frames that correspond: those of their sources, and those of the terms. -/
def Frame.pairs (f f' : Frame) : List (String × String) :=
  (f.source.aliasName, f'.source.aliasName) :: termPairs f.terms

/-- A frame does what another one does: clause by clause its expressions follow. -/
structure Frame.Follows (env env' : Environment) (f f' : Frame) : Prop where
  source : Persists (f.source.run env) (f'.source.run env')
  terms : TermsFollow env env' [(f.source.aliasName, f'.source.aliasName)] f.terms f'.terms
  predicate : Option.Rel (Expression.Follows env env' (f.pairs f')) f.predicate f'.predicate
  groupBy : List.Forall₂ (Expression.Follows env env' (f.pairs f')) f.groupBy f'.groupBy
  orderBy : List.Forall₂ (OrderKey.Follows env env' (f.pairs f')) f.orderBy f'.orderBy
  distinct : f'.distinct = f.distinct
  offset : Option.Rel (Expression.Follows env env' (f.pairs f')) f.offset f'.offset
  limit : Option.Rel (Expression.Follows env env' (f.pairs f')) f.limit f'.limit
  parts : f.Related (Expression.Follows env env' (f.pairs f')) f'
  isGrouped : f'.isGrouped = f.isGrouped
  isConcluded : f'.isConcluded = f.isConcluded

/-- Yields of one kind, with the same names. -/
abbrev Yield.Resembles : Yield → Yield → Prop := Yield.Related fun _ _ => True

/-- A stage does what another one does. -/
inductive Stage.Follows (env env' : Environment) : Stage → Stage → Prop
  | frame {f f'} (h : f.Follows env env' f') : Follows env env' (.frame f) (.frame f')
  | compound {s s' y y'} (hrun : Persists (s.run env) (s'.run env')) (hy : y.Resembles y') :
      Follows env env' (.compound s y) (.compound s' y')

section Frames

variable {env env' : Environment}

namespace Yield.Related

variable {r : Expression → Expression → Prop} {y y' : Yield}

lemma selection {pairs : List (String × String)}
    (h : y.Related (Expression.Follows env env' pairs) y') :
    y.selection.Follows env env' pairs y'.selection := by
  cases h with
  | entity h => exact .raw h.base
  | scalar h => exact .raw h
  | record h =>
      refine .items ?_
      rw [List.forall₂_map_left_iff, List.forall₂_map_right_iff]
      refine h.imp fun f f' hf => ⟨?_, hf.1⟩
      obtain ⟨-, hf⟩ := hf
      generalize f.2 = y, f'.2 = y' at hf ⊢
      cases hf with
      | scalar h => exact h
      | entity h => exact h.base

/-- Yields that resemble one another correspond when each is read through an alias. -/
lemma rebase (h : y.Resembles y') (aliasName aliasName' : String) :
    (y.rebase aliasName).Related (Expression.Follows env env' [(aliasName, aliasName')])
      (y'.rebase aliasName') := by
  have hident : (Expression.ident aliasName).Follows env env' [(aliasName, aliasName')]
      (.ident aliasName') := .ident (List.mem_singleton_self _)
  cases h with
  | entity h => exact .entity ⟨h.aliasName, h.entity, hident⟩
  | scalar => exact .scalar hident
  | record h =>
      refine .record ?_
      rw [List.forall₂_map_left_iff, List.forall₂_map_right_iff]
      refine h.imp fun f f' hf => ⟨hf.1, ?_⟩
      obtain ⟨name, y⟩ := f
      obtain ⟨name', y'⟩ := f'
      obtain ⟨rfl, hf⟩ := hf
      cases hf with
      | scalar => exact .scalar (hident.field _)
      | entity h => exact .entity ⟨h.aliasName, h.entity, hident.field _⟩

/-- The fields to which a join adds correspond. -/
lemma scopeFields (h : y.Related r y') {fields fields' : List (String × FieldYield)}
    (hfields : y.scopeFields? = some fields) (hfields' : y'.scopeFields? = some fields') :
    List.Forall₂ (fun f f' => f'.1 = f.1 ∧ f.2.Related r f'.2) fields fields' := by
  cases h with
  | entity h =>
      cases hfields
      cases hfields'
      exact .cons ⟨h.aliasName, .entity h⟩ .nil
  | scalar => cases hfields
  | record h =>
      cases hfields
      cases hfields'
      exact h

end Yield.Related

namespace Frame.Follows

variable {f f' : Frame}

/-- The clauses of a frame that follows another one follow. -/
lemma clauses (h : f.Follows env env' f') :
    f.clauses.Follows env env' (f.pairs f') f'.clauses where
  predicate := h.predicate
  groupBy := h.groupBy
  orderBy := h.orderBy
  selection := h.parts.yield.selection
  distinct := h.distinct
  offset := h.offset
  limit := h.limit

lemma finish (h : f.Follows env env' f') : Persists (f.finish.run env) (f'.finish.run env') :=
  Statement.run_follows h.source h.terms h.clauses

lemma ofKeyspace (hcollections : env'.collections = env.collections) (k : Keyspace)
    (entity aliasName : String) :
    (Frame.ofKeyspace k entity aliasName).Follows env env' (.ofKeyspace k entity aliasName) := by
  have hbase : (⟨aliasName, entity, .ident aliasName, false⟩ : Binding).Related
      (Expression.Follows env env' [(aliasName, aliasName)])
      ⟨aliasName, entity, .ident aliasName, false⟩ :=
    ⟨rfl, rfl, .ident (List.mem_singleton_self _)⟩
  refine ⟨?_, .nil, .none, .nil, .nil, rfl, .none, .none, ⟨.entity hbase, .cons hbase .nil⟩, rfl, rfl⟩
  intro documents h
  rw [Frame.ofKeyspace, Source.run] at h ⊢
  rwa [hcollections]

lemma ofStatement {s s' : Statement} {y y' : Yield} (hrun : Persists (s.run env) (s'.run env'))
    (hy : y.Resembles y') (aliasName aliasName' : String) :
    (Frame.ofStatement s y aliasName).Follows env env' (.ofStatement s' y' aliasName') :=
  ⟨hrun, .nil, .none, .nil, .nil, rfl, .none, .none,
    ⟨hy.rebase aliasName aliasName', (hy.rebase aliasName aliasName').bindings⟩, rfl, rfl⟩

lemma restrict (h : f.Follows env env' f') {e e' : Expression}
    (he : e.Follows env env' (f.pairs f') e') : (f.restrict e).Follows env env' (f'.restrict e') :=
  { h with
    predicate := by
      have hpredicate := h.predicate
      refine .some ?_
      generalize f.predicate = p, f'.predicate = p' at hpredicate ⊢
      cases hpredicate with
      | none => exact he
      | some hp => exact .binary .and hp he
    parts := ⟨h.parts.yield, h.parts.scope⟩ }

lemma yielding (h : f.Follows env env' f') {y y' : Yield}
    (hy : y.Related (Expression.Follows env env' (f.pairs f')) y') :
    (f.yielding y).Follows env env' (f'.yielding y') :=
  { h with parts := ⟨hy, hy.bindings⟩ }

lemma orderedBy (h : f.Follows env env' f') {keys keys' : List OrderKey}
    (hkeys : List.Forall₂ (OrderKey.Follows env env' (f.pairs f')) keys keys') :
    { f with orderBy := keys }.Follows env env' { f' with orderBy := keys' } :=
  { h with
    orderBy := hkeys
    parts := ⟨h.parts.yield, h.parts.scope⟩ }

lemma paged (h : f.Follows env env' f') {offset offset' limit limit' : Option Expression}
    (hoffset : Option.Rel (Expression.Follows env env' (f.pairs f')) offset offset')
    (hlimit : Option.Rel (Expression.Follows env env' (f.pairs f')) limit limit') :
    { f with offset, limit }.Follows env env' { f' with offset := offset', limit := limit' } :=
  { h with
    offset := hoffset
    limit := hlimit
    parts := ⟨h.parts.yield, h.parts.scope⟩ }

lemma grouped (h : f.Follows env env' f')
    {keys keys' summaries summaries' : List (String × YieldedScalar)}
    (hkeys : List.Forall₂
      (fun k k' => k'.1 = k.1 ∧ k.2.expression.Follows env env' (f.pairs f') k'.2.expression)
      keys keys')
    (hsummaries : List.Forall₂
      (fun s s' => s'.1 = s.1 ∧ s.2.expression.Follows env env' (f.pairs f') s'.2.expression)
      summaries summaries') :
    (f.grouped keys summaries).Follows env env' (f'.grouped keys' summaries') :=
  { h with
    groupBy := by
      simp only [Frame.grouped]
      rw [List.forall₂_map_left_iff, List.forall₂_map_right_iff]
      exact hkeys.imp fun k k' hk => hk.2
    parts := by
      refine ⟨.record ?_, .nil⟩
      rw [List.forall₂_map_left_iff, List.forall₂_map_right_iff]
      exact (List.rel_append hkeys hsummaries).imp fun s s' hs => ⟨hs.1, .scalar hs.2⟩
    isGrouped := rfl }

lemma concluded (h : f.Follows env env' f') {s s' : YieldedScalar}
    (hs : s.expression.Follows env env' (f.pairs f') s'.expression) :
    (f.concluded s).Follows env env' (f'.concluded s') :=
  { h with
    orderBy := .nil
    parts := ⟨.scalar hs, .nil⟩
    isConcluded := rfl }

/-- A further term leaves what is there, and binds one alias more. -/
lemma extend (h : f.Follows env env' f') {fields fields' : List (String × FieldYield)}
    (hfields : f.yield.scopeFields? = some fields)
    (hfields' : f'.yield.scopeFields? = some fields') {t t' : Term} {b b' : Binding}
    (ht : TermsFollow env env' (f.pairs f') [t] [t'])
    (hb : b.Related (Expression.Follows env env' (f.pairs f' ++ [samePair t.aliasName])) b') :
    (f.extend fields t b).Follows env env' (f'.extend fields' t' b') := by
  have hpairs : (f.extend fields t b).pairs (f'.extend fields' t' b') =
      f.pairs f' ++ [samePair t.aliasName] := by
    simp [Frame.pairs, Frame.extend, termPairs]
  have hmono : ∀ {e e' : Expression}, e.Follows env env' (f.pairs f') e' →
      e.Follows env env' (f.pairs f' ++ [samePair t.aliasName]) e' :=
    fun he => he.mono (List.subset_append_left _ _)
  have hoption : ∀ {o o'}, Option.Rel (Expression.Follows env env' (f.pairs f')) o o' →
      Option.Rel (Expression.Follows env env' (f.pairs f' ++ [samePair t.aliasName])) o o' := by
    intro o o' ho
    cases ho with
    | none => exact .none
    | some he => exact .some (hmono he)
  have hyield := h.parts.yield.imp fun e e' => hmono
  refine ⟨h.source, h.terms.append ht, ?_, ?_, ?_, h.distinct, ?_, ?_, ?_, h.isGrouped,
    h.isConcluded⟩
  all_goals rw [hpairs]
  · exact hoption h.predicate
  · exact h.groupBy.imp fun e e' => hmono
  · exact h.orderBy.imp fun k k' hk => ⟨hmono hk.key, hk.descending⟩
  · exact hoption h.offset
  · exact hoption h.limit
  · refine ⟨.record ?_, ?_⟩
    · exact List.rel_append (hyield.scopeFields hfields hfields')
        (.cons ⟨hb.aliasName, .entity hb⟩ .nil)
    · refine List.rel_append (h.parts.scope.imp fun b b' hb => ?_) (.cons hb .nil)
      exact ⟨hb.aliasName, hb.entity, hmono hb.base⟩

/-! ### Where clauses can be added -/

private lemma isSome_eq {o o' : Option Expression} {r : Expression → Expression → Prop}
    (h : Option.Rel r o o') : o'.isSome = o.isSome := by
  cases h <;> rfl

lemma isSealed (h : f.Follows env env' f') : f'.isSealed = f.isSealed := by
  rw [Frame.isSealed, Frame.isSealed, h.isGrouped, h.isConcluded, h.distinct]

lemma isLimited (h : f.Follows env env' f') : f'.isLimited = f.isLimited := isSome_eq h.limit

lemma isSettled (h : f.Follows env env' f') : f'.isSettled = f.isSettled := by
  rw [Frame.isSettled, Frame.isSettled, h.isSealed, Frame.isPaged, Frame.isPaged,
    isSome_eq h.limit, isSome_eq h.offset]

lemma isOrdered (h : f.Follows env env' f') : f'.isOrdered = f.isOrdered := by
  have horder := h.orderBy
  rw [Frame.isOrdered, Frame.isOrdered]
  generalize f.orderBy = ks, f'.orderBy = ks' at horder ⊢
  cases horder <;> rfl

lemma isArranged (h : f.Follows env env' f') : f'.isArranged = f.isArranged := by
  have hsettled := h.isSettled
  rw [Frame.isSettled, Frame.isSettled] at hsettled
  rw [Frame.isArranged, Frame.isArranged, hsettled, h.isOrdered]

/-- An alias that neither frame takes occurs in no pair. -/
lemma unpaired {aliasName : String} (h : f.takes aliasName = false)
    (h' : f'.takes aliasName = false) : Unpaired (f.pairs f') aliasName := by
  simp only [Frame.takes, Bool.or_eq_false_iff, beq_eq_false_iff_ne, List.any_eq_false,
    beq_iff_eq] at h h'
  intro a ha
  rcases List.mem_cons.1 ha with rfl | ha
  · exact ⟨h.1.2, h'.1.2⟩
  · obtain ⟨t, ht, rfl⟩ := List.mem_map.1 ha
    exact ⟨h.2 t ht, h.2 t ht⟩

end Frame.Follows

/-! ## Stages

A stage is a frame or a set operation.  As sources they offer their rows under an alias, which may
be another one on either side. -/

/-- A frame that does nothing but to read a keyspace returns its documents. -/
lemma Frame.run_of_bareKeyspace {f : Frame} {k : Keyspace} (h : f.bareKeyspace? = some k)
    (aliasName : String) : f.finish.run env = (Source.keyspace k aliasName).run env := by
  obtain ⟨source, terms, predicate, groupBy, orderBy, distinct, offset, limit, yield, scope,
    isGrouped, isConcluded⟩ := f
  rcases source with ⟨k', base⟩ | ⟨s, a⟩
  · rcases yield with ⟨a, entity, e, optional⟩ | s | fields
    · cases e with
      | ident base' =>
          simp only [bareKeyspace?, isOrdered, isPaged, isSealed, Bool.and_eq_true,
            Bool.not_eq_true', Bool.or_eq_false_iff, beq_iff_eq, List.isEmpty_iff,
            Option.isNone_iff_eq_none, Option.isSome_eq_false_iff, Bool.not_eq_false',
            Option.ite_none_right_eq_some] at h
          obtain ⟨⟨⟨⟨⟨⟨⟨rfl, rfl⟩, rfl⟩, rfl⟩, rfl, rfl⟩, -, rfl⟩, rfl⟩, heq⟩ := h
          cases heq
          have hflat : (Clauses.all base').IsFlat := ⟨rfl, rfl, rfl, rfl⟩
          change ((Source.keyspace k base').run env >>= fun documents =>
            (Clauses.all base').run env (documents.map (.single base'))) = _
          have hdocuments : ∀ documents : List Document,
              (Clauses.all base').run env (documents.map (.single base')) = .ok documents :=
            fun documents => hflat.run_single rfl rfl fun d _ => @eval_ident_single env base' d
          simp only [hdocuments]
          rw [Source.run, Source.run]
          cases env.collections.documents? k <;> rfl
      | _ => cases h
    · cases h
    · cases h
  · cases h

/-- Under an alias, a stage is a source of the rows of its statement. -/
lemma Stage.run_sourceAs (s : Stage) (aliasName : String) :
    (s.sourceAs aliasName).run env = s.statement.run env := by
  cases s with
  | compound => rfl
  | frame f =>
      rw [sourceAs]
      cases hbare : f.bareKeyspace? with
      | none => rfl
      | some k => exact (Frame.run_of_bareKeyspace hbare aliasName).symm

namespace Stage.Follows

variable {s s' : Stage} {f f' : Frame}

lemma statement (h : s.Follows env env' s') :
    Persists (s.statement.run env) (s'.statement.run env') := by
  cases h with
  | frame h => exact h.finish
  | compound hrun _ => exact hrun

lemma yield (h : s.Follows env env' s') : s.yield.Resembles s'.yield := by
  cases h with
  | frame h => exact h.parts.yield.imp fun _ _ _ => trivial
  | compound _ hy => exact hy

lemma sourceAs (h : s.Follows env env' s') (aliasName : String) :
    Persists ((s.sourceAs aliasName).run env) ((s'.sourceAs aliasName).run env') := by
  rw [run_sourceAs, run_sourceAs]
  exact h.statement

/-- Frames that are entered from stages that do the same do the same. -/
lemma enter {closed : Frame → Bool} (h : s.Follows env env' s')
    (hclosed : ∀ f f', f.Follows env env' f' → closed f' = closed f)
    (henter : s.Enters closed f) (henter' : s'.Enters closed f') : f.Follows env env' f' := by
  cases h with
  | frame h =>
      have heq := hclosed _ _ h
      cases henter with
      | kept hopen =>
          cases henter' with
          | kept => exact h
          | nested hclosed' => rw [heq, hopen] at hclosed'; cases hclosed'
      | nested hclosed =>
          cases henter' with
          | kept hopen => rw [heq, hclosed] at hopen; cases hopen
          | nested =>
              exact .ofStatement h.finish (h.parts.yield.imp fun _ _ _ => trivial) _ _
  | compound hrun hy =>
      cases henter
      cases henter'
      exact .ofStatement hrun hy _ _

end Stage.Follows
end Frames

/-! ## Queries

The induction is on the rules for the one translation, and the other one is taken apart with it.
What all operators with one input have in common, and all with two, is done once for each kind. -/

namespace Translator

variable {tr : Translator} {env env' : Environment} {shift : Nat}

/-- A query takes as many slots from one on as from another. -/
lemma Lowered.slots_shift {n m m' : Nat} {q : Query} {s s' : Stage} (h : Lowered tr n q s m)
    (h' : Lowered tr (n + shift) q s' m') : m' = m + shift := by
  rw [h.slots, h'.slots, Nat.add_right_comm]

/-- The terms of a navigation follow if their sources do. -/
lemma correlated_follows (hcollections : env'.collections = env.collections)
    {pairs : List (String × String)} {c : Correlation} {source source' : Binding}
    (hsource : source.Related (Expression.Follows env env' pairs) source')
    (hnew : Unpaired pairs c.aliasName) {t t' : Term} (ht : tr.correlated c source = some t)
    (ht' : tr.correlated c source' = some t') :
    TermsFollow env env' pairs [t] [t'] ∧ t.aliasName = c.aliasName := by
  rw [correlated] at ht ht'
  cases hkind : c.kind with
  | unnest path =>
      rw [hkind] at ht ht'
      cases ht
      cases ht'
      exact ⟨.unnest (hsource.base.path path) hnew .nil, rfl⟩
  | lookup sourceField targetField =>
      simp only [hkind, Option.map_eq_some_iff] at ht ht'
      obtain ⟨k, hk, rfl⟩ := ht
      obtain ⟨k', hk', rfl⟩ := ht'
      rw [hk] at hk'
      cases hk'
      have halias : (Expression.ident c.aliasName).Follows env env' (pairs ++ [samePair c.aliasName])
          (.ident c.aliasName) := .ident (by simp [samePair])
      refine ⟨.join ?_ rfl hnew (.binary .eq (halias.path _) ?_) .nil, rfl⟩
      · intro documents h
        rw [Source.run] at h ⊢
        rwa [hcollections]
      · exact (hsource.base.mono (List.subset_append_left _ _)).path sourceField

/-- The condition of a join follows where both sides bind the alias of the right one. -/
lemma joinCondition_follows {f f' : Frame} (h : f.Follows env env' f') {b b' : Binding}
    {pairs : List (String × String)} (hsub : f.pairs f' ⊆ pairs)
    (hb : b.Related (Expression.Follows env env' pairs) b') {leftKey rightKey : Formula} (n : Nat)
    (hn : env.Moves env' shift n (Formula.inputsOf [leftKey, rightKey])) :
    (tr.joinCondition f n b leftKey rightKey).Follows env env' pairs
      (tr.joinCondition f' (n + shift) b' leftKey rightKey) := by
  have hwidened : { f with scope := f.scope ++ [b] }.Related (Expression.Follows env env' pairs)
      { f' with scope := f'.scope ++ [b'] } := by
    refine ⟨h.parts.yield.imp fun e e' he => he.mono hsub, ?_⟩
    refine List.rel_append (h.parts.scope.imp fun b b' hb => ?_) (.cons hb .nil)
    exact ⟨hb.aliasName, hb.entity, hb.base.mono hsub⟩
  rw [Formula.inputsOf, Formula.inputsOf_singleton, Environment.moves_append,
    Formula.length_slots] at hn
  rw [joinCondition, joinCondition, Nat.add_right_comm]
  exact .binary .eq (expression_follows hwidened leftKey n hn.1)
    (expression_follows hwidened rightKey _ hn.2)

/-- A terminal over frames that do the same. -/
lemma Concludes.follows {f f' g g' : Frame} (h : f.Follows env env' f') {n m m' : Nat}
    {terminal : Terminal} {arg : Option Formula} {s s' : YieldedScalar} (q : Query)
    (hn : env.Moves env' shift n
      (Formula.inputsOf (Query.conclude q terminal arg).readFormulas))
    (hterminal : Concludes tr f n terminal arg g s m)
    (hterminal' : Concludes tr f' (n + shift) terminal arg g' s' m') :
    (g.concluded s).Follows env env' (g'.concluded s') := by
  have hcompared : ∀ op, (comparedCount op).Follows env env' (f.pairs f') (comparedCount op) :=
    fun op => .binary op .countRows (.literal _)
  cases hterminal with
  | @summary terminal function a hfunction =>
      have hread : (Query.conclude q terminal (some a)).readFormulas = [a] := by
        cases terminal <;> first | rfl | cases hfunction
      rw [hread, Formula.inputsOf_singleton] at hn
      cases hterminal' with
      | summary hfunction' =>
          rw [hfunction] at hfunction'
          cases hfunction'
          exact h.concluded (.aggregate _ _ (expression_follows h.parts a n hn))
      | count | any | all => cases hfunction
  | count =>
      cases hterminal' with
      | summary hfunction => cases hfunction
      | count => exact h.concluded .countRows
  | any =>
      cases hterminal' with
      | summary hfunction => cases hfunction
      | any => exact h.concluded (hcompared .gt)
  | @all a =>
      have hread : (Query.conclude q .all (some a)).readFormulas = [a] := rfl
      rw [hread, Formula.inputsOf_singleton] at hn
      cases hterminal' with
      | summary hfunction => cases hfunction
      | all =>
          have hviolation : (violation (tr.expression f n a)).Follows env env' (f.pairs f')
              (violation (tr.expression f' (n + shift) a)) :=
            .not (.call _ (.cons (expression_follows h.parts a n hn) (.cons (.literal _) .nil)))
          exact (h.restrict hviolation).concluded (hcompared .eq)

/-- What two translations of an operator with one input start from, and what they read behind it. -/
lemma Lowered.enter_follows {n m m' : Nat} {input : Query} {s s' : Stage} {closed : Frame → Bool}
    {frame frame' : Frame} {own : List Input} (hinput : Lowered tr n input s m)
    (hinput' : Lowered tr (n + shift) input s' m') (henter : s.Enters closed frame)
    (henter' : s'.Enters closed frame')
    (hclosed : ∀ f f', f.Follows env env' f' → closed f' = closed f)
    (ih : env.Moves env' shift n input.inputs → s.Follows env env' s')
    (hn : env.Moves env' shift n (input.inputs ++ own)) :
    m' = m + shift ∧ frame.Follows env env' frame' ∧ env.Moves env' shift m own := by
  obtain ⟨hn, hown⟩ := Environment.moves_append.1 hn
  exact ⟨hinput.slots_shift hinput', (ih hn).enter hclosed henter henter', by rwa [hinput.slots]⟩

/-- What two translations of an operator with one formula start from, and what becomes of it. -/
lemma Lowered.formula_follows {n m m' : Nat} {input : Query} {s s' : Stage}
    {closed : Frame → Bool} {frame frame' : Frame} {f : Formula} (hinput : Lowered tr n input s m)
    (hinput' : Lowered tr (n + shift) input s' m') (henter : s.Enters closed frame)
    (henter' : s'.Enters closed frame')
    (hclosed : ∀ f f', f.Follows env env' f' → closed f' = closed f)
    (ih : env.Moves env' shift n input.inputs → s.Follows env env' s')
    (hn : env.Moves env' shift n (input.inputs ++ Formula.inputsOf [f])) :
    frame.Follows env env' frame' ∧
      (tr.expression frame m f).Follows env env' (frame.pairs frame')
        (tr.expression frame' m' f) := by
  obtain ⟨rfl, hframe, hown⟩ := hinput.enter_follows hinput' henter henter' hclosed ih hn
  rw [Formula.inputsOf_singleton] at hown
  exact ⟨hframe, expression_follows hframe.parts f m hown⟩

/-- What two translations of an operator with two inputs have on its sides, and what they read
behind them. -/
lemma Lowered.sides_follow {n n₁ n₁' n₂ n₂' : Nat} {left right : Query} {ls ls' rs rs' : Stage}
    {own : List Input} (hleft : Lowered tr n left ls n₁) (hright : Lowered tr n₁ right rs n₂)
    (hleft' : Lowered tr (n + shift) left ls' n₁') (hright' : Lowered tr n₁' right rs' n₂')
    (ihl : env.Moves env' shift n left.inputs → ls.Follows env env' ls')
    (ihr : Lowered tr (n₁ + shift) right rs' n₂' → env.Moves env' shift n₁ right.inputs →
      rs.Follows env env' rs')
    (hn : env.Moves env' shift n (left.inputs ++ right.inputs ++ own)) :
    n₂' = n₂ + shift ∧ ls.Follows env env' ls' ∧ rs.Follows env env' rs' ∧
      env.Moves env' shift n₂ own := by
  cases hleft.slots_shift hleft'
  rw [Environment.moves_append, Environment.moves_append, slotsOf_append, List.length_append,
    ← Nat.add_assoc, ← hleft.slots, ← hright.slots] at hn
  obtain ⟨⟨hnl, hnr⟩, hown⟩ := hn
  exact ⟨hright.slots_shift hright', ihl hnl, ihr hright' hnr, hown⟩

/-- A frame that is joined with a stage that yields entities. -/
lemma join_follows {f f' : Frame} (h : f.Follows env env' f') {s s' : Stage}
    (hstages : s.Follows env env' s') {fields fields' : List (String × FieldYield)}
    (hfields : f.yield.scopeFields? = some fields)
    (hfields' : f'.yield.scopeFields? = some fields') {b b' : Binding} (hyield : s.yield = .entity b)
    (hyield' : s'.yield = .entity b') (hfresh : f.takes b.aliasName = false)
    (hfresh' : f'.takes b'.aliasName = false) (matching : Matching) {leftKey rightKey : Formula}
    {n : Nat} (hn : env.Moves env' shift n (Formula.inputsOf [leftKey, rightKey])) :
    (f.extend fields (.join matching (s.sourceAs b.aliasName)
        (tr.joinCondition f n (b.joined matching) leftKey rightKey))
      (b.joined matching)).Follows env env'
      (f'.extend fields' (.join matching (s'.sourceAs b'.aliasName)
        (tr.joinCondition f' (n + shift) (b'.joined matching) leftKey rightKey))
      (b'.joined matching)) := by
  obtain ⟨halias, hentity⟩ : b'.aliasName = b.aliasName ∧ b'.entity = b.entity := by
    have hbound := hstages.yield
    rw [hyield, hyield'] at hbound
    cases hbound with
    | entity hbound => exact ⟨hbound.aliasName, hbound.entity⟩
  rw [halias] at hfresh' ⊢
  have hsource : (s.sourceAs b.aliasName).aliasName = b.aliasName := s.aliasName_sourceAs _
  have hbinding : (b.joined matching).Related (Expression.Follows env env'
      (f.pairs f' ++ [samePair b.aliasName])) (b'.joined matching) := by
    refine ⟨halias, hentity, ?_⟩
    rw [Binding.joined, Binding.joined, halias]
    exact .ident (by simp [samePair])
  have hcondition : (tr.joinCondition f n (b.joined matching) leftKey rightKey).Follows env env'
      (f.pairs f' ++ [samePair b.aliasName])
      (tr.joinCondition f' (n + shift) (b'.joined matching) leftKey rightKey) :=
    joinCondition_follows h (List.subset_append_left _ _) hbinding n hn
  refine h.extend hfields hfields' (.join (hstages.sourceAs _) ?_ ?_ ?_ .nil) ?_
  · rw [hsource, s'.aliasName_sourceAs]
  · rw [hsource]
    exact Frame.Follows.unpaired hfresh hfresh'
  · rwa [hsource]
  · rwa [Term.aliasName, hsource]

/-- **It does not matter behind which query a query is translated.**  If the values of its inputs
are found further on by a number, the stage that is reached from a slot further on by that number
does the same, whichever aliases have been made up on the way. -/
theorem Lowered.follows {n m m' : Nat} {q : Query} {s s' : Stage} (h : Lowered tr n q s m)
    (h' : Lowered tr (n + shift) q s' m') (hn : env.Moves env' shift n q.inputs) :
    s.Follows env env' s' := by
  have hsettled : ∀ f f' : Frame, f.Follows env env' f' → f'.isSettled = f.isSettled :=
    fun _ _ h => h.isSettled
  have harranged : ∀ f f' : Frame, f.Follows env env' f' → f'.isArranged = f.isArranged :=
    fun _ _ h => h.isArranged
  induction h generalizing s' m' with
  | source hkeyspace =>
      cases h' with
      | source hkeyspace' =>
          rw [hkeyspace] at hkeyspace'
          cases hkeyspace'
          exact .frame (.ofKeyspace hn.collections _ _ _)
  | filter hinput henter ih =>
      cases h' with
      | filter hinput' henter' =>
          obtain ⟨hframe, he⟩ :=
            hinput.formula_follows hinput' henter henter' hsettled (ih hinput') hn
          exact .frame (hframe.restrict he)
  | project hinput henter ih =>
      cases h' with
      | project hinput' henter' =>
          obtain ⟨rfl, hframe, hown⟩ := hinput.enter_follows hinput' henter henter'
            (fun _ _ h => h.isSealed) (ih hinput') hn
          exact .frame (hframe.yielding (projectedYield_follows hframe.parts _ _ hown))
  | orderBy hinput henter ih =>
      cases h' with
      | orderBy hinput' henter' =>
          obtain ⟨hframe, he⟩ :=
            hinput.formula_follows hinput' henter henter' hsettled (ih hinput') hn
          exact .frame (hframe.orderedBy (.cons ⟨he, rfl⟩ .nil))
  | thenBy hinput _ _ ih =>
      cases h' with
      | thenBy hinput' _ _ =>
          -- the frames of the inputs are added to as they are
          have hkept (f : Frame) : (Stage.frame f).Enters (fun _ => false) f := .kept rfl
          obtain ⟨hframe, he⟩ := hinput.formula_follows hinput' (hkept _) (hkept _)
            (fun _ _ _ => rfl) (ih hinput') hn
          exact .frame (hframe.orderedBy (List.rel_append hframe.orderBy (.cons ⟨he, rfl⟩ .nil)))
  | @groupBy n m m₁ input s frame keys summaries hinput henter hslots ih =>
      cases h' with
      | @groupBy _ _ m₁' _ _ _ _ _ hinput' henter' hslots' =>
          obtain ⟨rfl, hframe, hown⟩ :=
            hinput.enter_follows hinput' henter henter' harranged (ih hinput') hn
          have hslot : m₁' = m₁ + shift := by rw [hslots', hslots, Nat.add_right_comm]
          replace hown : env.Moves env' shift m (Formula.inputsOf
            (keys.map Prod.snd ++ summaries.filterMap fun s => s.2.arg)) := hown
          rw [Formula.inputsOf_append, Environment.moves_append, Formula.length_slotsOf,
            ← hslots] at hown
          rw [hslot]
          exact .frame (hframe.grouped (groupKeys_follow hframe.parts keys m hown.1)
            (groupSummaries_follow hframe.parts summaries m₁ hown.2))
  | @join n n₁ n₂ kind matching left right ls rs frame fields b b' leftKey rightKey hmatching hleft
      hright henter hfields hyield hfresh hb ihl ihr =>
      cases h' with
      | join hmatching' hleft' hright' henter' hfields' hyield' hfresh' hb' =>
          rw [hmatching] at hmatching'
          cases hmatching'
          obtain ⟨rfl, hl, hr, hown⟩ :=
            hleft.sides_follow hright hleft' hright' (ihl hleft') ihr hn
          rw [hb, hb']
          exact .frame (join_follows (hl.enter hsettled henter henter') hr hfields hfields' hyield
            hyield' hfresh hfresh' matching hown)
  | @correlate n m input s frame fields source term c hinput henter hfields hsource hfresh hterm ih =>
      cases h' with
      | correlate hinput' henter' hfields' hsource' hfresh' hterm' =>
          obtain ⟨rfl, hframe, -⟩ :=
            hinput.enter_follows hinput' henter henter' hsettled (ih hinput') hn
          have hbound := hframe.parts.binding? c.sourceAlias
          rw [hsource, hsource'] at hbound
          cases hbound with
          | some hbound =>
              obtain ⟨hterms, halias⟩ := correlated_follows hn.collections hbound
                (Frame.Follows.unpaired hfresh hfresh') hterm hterm'
              refine .frame (hframe.extend hfields hfields' hterms ⟨rfl, rfl, ?_⟩)
              rw [halias]
              exact .ident (by simp [samePair])
  | skip hinput henter ih =>
      cases h' with
      | skip hinput' henter' =>
          obtain ⟨hframe, he⟩ :=
            hinput.formula_follows hinput' henter henter' hsettled (ih hinput') hn
          exact .frame (hframe.paged (.some he) hframe.limit)
  | take hinput henter ih =>
      cases h' with
      | take hinput' henter' =>
          obtain ⟨hframe, he⟩ := hinput.formula_follows hinput' henter henter'
            (fun f f' h => by rw [h.isLimited, h.isSealed]) (ih hinput') hn
          exact .frame (hframe.paged hframe.offset (.some he))
  | distinct hinput henter ih =>
      cases h' with
      | distinct hinput' henter' =>
          obtain ⟨rfl, hframe, -⟩ :=
            hinput.enter_follows hinput' henter henter' harranged (ih hinput') hn
          exact .frame { hframe with
            distinct := rfl
            parts := ⟨hframe.parts.yield, hframe.parts.scope⟩ }
  | combine _ hleft hright ihl ihr =>
      cases h' with
      | combine _ hleft' hright' =>
          obtain ⟨rfl, hl, hr, -⟩ :=
            hleft.sides_follow hright hleft' hright' (ihl hleft') ihr hn
          refine .compound ?_ hl.yield
          exact hl.statement.bind fun _ => hr.statement.bind fun _ => .refl _
  | @conclude n m m' input s frame frame' terminal arg scalar hinput henter hterminal ih =>
      cases h' with
      | conclude hinput' henter' hterminal' =>
          obtain ⟨rfl, hframe, hown⟩ :=
            hinput.enter_follows hinput' henter henter' hsettled (ih hinput') hn
          exact .frame (hterminal.follows hframe input hown hterminal')

end Translator

end EntityQuery
