import EntityQuery.Proofs.Translation.Closure

/-!
# Where aggregates stand in frames

Once rows are folded into groups or into a single scalar, a frame is sealed: no condition, order or
further aggregate is added to it.  So aggregates stay out of every clause but the selection and the
order, and out of these too unless the frame is folded.

* `Frame.Tidy`: what frames keep to.
* `Translator.Lowered.tidy`: each frame that is reached keeps to it.
-/

namespace EntityQuery

namespace Expression

/-- Every construct but aggregates hands on that there is no aggregate. -/
lemma closed_plain : Closed Plain (fun _ => True) (fun _ _ => True) where
  field h := h
  placeholder _ := rfl
  literal := rfl
  binary hl hr := by simp_all [Plain, hasAggregate]
  not h := h
  neg h := h
  valued h := h
  notValued h := h
  inList he hlist := by simp_all [Plain, hasAggregate, anyAggregate_eq_false]
  like he hp := by simp_all [Plain, hasAggregate]
  call _ hargs := anyAggregate_eq_false.2 hargs
  caseWhen hc ht ho := by simp_all [Plain, hasAggregate]

end Expression

/-- What frames keep to: where aggregates do not stand, and what is in scope. -/
structure Frame.Tidy (f : Frame) : Prop where
  /-- The aliases in scope are those of the entities that the rows hold. -/
  scope : f.scope = f.yield.bindings
  /-- No alias stands for an aggregate. -/
  bases : ∀ b ∈ f.scope, b.base.Plain
  terms : ∀ t ∈ f.terms, t.expression.Plain
  predicate : ∀ e ∈ f.predicate, e.Plain
  groupBy : ∀ e ∈ f.groupBy, e.Plain
  offset : ∀ e ∈ f.offset, e.Plain
  limit : ∀ e ∈ f.limit, e.Plain
  /-- A frame that is not folded has no aggregates at all. -/
  unfolded : f.isGrouped = false → f.isConcluded = false →
    f.groupBy = [] ∧ (∀ e ∈ f.yield.selection.expressions, e.Plain) ∧
      ∀ k ∈ f.orderBy, k.key.Plain

/-- The frame of a stage is tidy; a set operation has no frame. -/
def Stage.Tidy : Stage → Prop
  | .frame f => f.Tidy
  | .compound .. => True

namespace Yield

/-- A yield that is read through an alias consists of the alias and its fields. -/
lemma mem_expressions_rebase {y : Yield} {aliasName : String} {e : Expression}
    (h : e ∈ (y.rebase aliasName).selection.expressions) :
    e = .ident aliasName ∨ ∃ name, e = .field (.ident aliasName) name := by
  cases y with
  | entity b => exact .inl (List.mem_singleton.1 h)
  | scalar s => exact .inl (List.mem_singleton.1 h)
  | record fields =>
      simp only [rebase, selection, Selection.expressions, List.map_map, List.mem_map] at h
      obtain ⟨⟨name, y⟩, -, rfl⟩ := h
      cases y <;> exact .inr ⟨name, rfl⟩

lemma plain_rebase {y : Yield} {aliasName : String} {e : Expression}
    (h : e ∈ (y.rebase aliasName).selection.expressions) : e.Plain := by
  obtain rfl | ⟨name, rfl⟩ := mem_expressions_rebase h <;> rfl

/-- What a yield binds is among its expressions. -/
lemma base_mem_expressions {y : Yield} {b : Binding} (h : b ∈ y.bindings) :
    b.base ∈ y.selection.expressions := by
  cases y with
  | entity b₀ =>
      rw [List.mem_singleton.1 h]
      exact List.mem_singleton_self _
  | scalar s => cases h
  | record fields =>
      obtain ⟨⟨name, y⟩, hmem, hy⟩ := List.mem_filterMap.1 h
      simp only [selection, Selection.expressions, List.map_map, List.mem_map]
      refine ⟨_, hmem, ?_⟩
      cases y <;> cases hy
      rfl

/-- The fields that a yield adds to a record hold what it binds. -/
lemma bindings_scopeFields {y : Yield} {fields : List (String × FieldYield)}
    (h : y.scopeFields? = some fields) (b : Binding) :
    (Yield.record (fields ++ [(b.aliasName, .entity b)])).bindings = y.bindings ++ [b] := by
  cases y with
  | entity b₀ =>
      cases h
      rfl
  | record fields₀ =>
      cases h
      simp [bindings, FieldYield.binding?]
  | scalar s => cases h

/-- The fields that a yield adds to a record hold its expressions. -/
lemma expressions_scopeFields {y : Yield} {fields : List (String × FieldYield)}
    (h : y.scopeFields? = some fields) (b : Binding) :
    (Yield.record (fields ++ [(b.aliasName, .entity b)])).selection.expressions =
      y.selection.expressions ++ [b.base] := by
  cases y with
  | entity b₀ =>
      cases h
      rfl
  | record fields₀ =>
      cases h
      simp [selection, Selection.expressions, FieldYield.expression]
  | scalar s => cases h

end Yield

/-! ## What operators add

Each of the functions that change a frame keeps it tidy under a condition on what is added.  The
conditions are what the operators check. -/

namespace Frame

variable {f : Frame} {e : Expression}

lemma isSealed_eq_false : f.isSealed = false ↔
    (f.isGrouped = false ∧ f.isConcluded = false) ∧ f.distinct = false := by
  simp [isSealed]

namespace Tidy

/-- All parts of a frame that is not sealed are free of aggregates. -/
lemma parts (h : f.Tidy) (hopen : f.isSealed = false) : f.Parts Expression.Plain where
  scope := h.bases
  yield := by
    obtain ⟨⟨hgrouped, hconcluded⟩, -⟩ := isSealed_eq_false.1 hopen
    exact (h.unfolded hgrouped hconcluded).2.1

lemma ofKeyspace (k : Keyspace) (entity aliasName : String) :
    (Frame.ofKeyspace k entity aliasName).Tidy where
  scope := rfl
  bases b hb := by
    rw [List.mem_singleton.1 hb]
    rfl
  terms t ht := by cases ht
  predicate e he := by cases he
  groupBy e he := by cases he
  offset e he := by cases he
  limit e he := by cases he
  unfolded _ _ := by
    refine ⟨rfl, ?_, ?_⟩
    · intro e he
      rw [List.mem_singleton.1 he]
      rfl
    · intro k hk
      cases hk

lemma ofStatement (s : Statement) (y : Yield) (aliasName : String) :
    (Frame.ofStatement s y aliasName).Tidy where
  scope := rfl
  bases b hb := Yield.plain_rebase (Yield.base_mem_expressions hb)
  terms t ht := by cases ht
  predicate e he := by cases he
  groupBy e he := by cases he
  offset e he := by cases he
  limit e he := by cases he
  unfolded _ _ := by
    refine ⟨rfl, fun e he => Yield.plain_rebase he, ?_⟩
    intro k hk
    cases hk

lemma restrict (h : f.Tidy) (he : e.Plain) : (f.restrict e).Tidy :=
  { h with
    predicate := by
      intro e' he'
      cases Option.mem_some.1 he'
      cases hp : f.predicate with
      | none => exact he
      | some p => exact Expression.closed_plain.binary (h.predicate p hp) he }

lemma yielding (h : f.Tidy) {y : Yield}
    (hy : ∀ e ∈ y.selection.expressions, e.Plain) : (f.yielding y).Tidy :=
  { h with
    scope := rfl
    bases := fun b hb => hy _ (Yield.base_mem_expressions hb)
    unfolded := by
      intro hgrouped hconcluded
      obtain ⟨hkeys, -, horder⟩ := h.unfolded hgrouped hconcluded
      exact ⟨hkeys, hy, horder⟩ }

lemma orderedBy (h : f.Tidy) {keys : List OrderKey} (hkeys : ∀ k ∈ keys, k.key.Plain) :
    { f with orderBy := keys }.Tidy :=
  { h with
    unfolded := by
      intro hgrouped hconcluded
      obtain ⟨hgroup, hyield, -⟩ := h.unfolded hgrouped hconcluded
      exact ⟨hgroup, hyield, hkeys⟩ }

lemma paged (h : f.Tidy) {offset limit : Option Expression} (hoffset : ∀ e ∈ offset, e.Plain)
    (hlimit : ∀ e ∈ limit, e.Plain) : { f with offset, limit }.Tidy :=
  { h with
    offset := hoffset
    limit := hlimit }

lemma grouped (h : f.Tidy) {keys summaries : List (String × YieldedScalar)}
    (hkeys : ∀ k ∈ keys, k.2.expression.Plain) : (f.grouped keys summaries).Tidy :=
  { h with
    scope := by
      simp only [Frame.grouped, Yield.bindings]
      symm
      rw [List.filterMap_eq_nil_iff]
      intro y hy
      obtain ⟨s, -, rfl⟩ := List.mem_map.1 hy
      rfl
    bases := by
      intro b hb
      cases hb
    groupBy := by
      intro e he
      obtain ⟨k, hk, rfl⟩ := List.mem_map.1 he
      exact hkeys k hk
    unfolded := by
      intro hgrouped
      cases hgrouped }

lemma concluded (h : f.Tidy) (s : YieldedScalar) : (f.concluded s).Tidy :=
  { h with
    scope := rfl
    bases := by
      intro b hb
      cases hb
    unfolded := by
      intro _ hconcluded
      cases hconcluded }

lemma extend (h : f.Tidy) {fields : List (String × FieldYield)}
    (hfields : f.yield.scopeFields? = some fields) {t : Term} (ht : t.expression.Plain)
    {b : Binding} (hb : b.base.Plain) : (f.extend fields t b).Tidy :=
  { h with
    scope := by rw [Frame.extend, Yield.bindings_scopeFields hfields, h.scope]
    bases := by
      intro b' hb'
      rcases List.mem_append.1 hb' with hb' | hb'
      · exact h.bases b' hb'
      · rw [List.mem_singleton.1 hb']
        exact hb
    terms := by
      intro t' ht'
      rcases List.mem_append.1 ht' with ht' | ht'
      · exact h.terms t' ht'
      · rw [List.mem_singleton.1 ht']
        exact ht
    unfolded := by
      intro hgrouped hconcluded
      obtain ⟨hgroup, hyield, horder⟩ := h.unfolded hgrouped hconcluded
      refine ⟨hgroup, ?_, horder⟩
      intro e he
      rw [Frame.extend, Yield.expressions_scopeFields hfields, List.mem_append] at he
      rcases he with he | he
      · exact hyield e he
      · rw [List.mem_singleton.1 he]
        exact hb }

end Tidy
end Frame

/-- A frame that is entered is tidy. -/
lemma Stage.Tidy.enter {s : Stage} {closed : Frame → Bool} {f : Frame} (h : s.Tidy)
    (henter : s.Enters closed f) : f.Tidy := by
  cases henter with
  | kept => exact h
  | nested => exact .ofStatement ..
  | compound => exact .ofStatement ..

/-- A frame that is entered is not sealed, if it would be closed otherwise. -/
lemma Stage.Enters.isSealed {s : Stage} {closed : Frame → Bool} {f : Frame}
    (henter : s.Enters closed f) (hclosed : ∀ f, closed f = false → f.isSealed = false) :
    f.isSealed = false := by
  cases henter with
  | kept h => exact hclosed _ h
  | nested => rfl
  | compound => rfl

/-! ## Each frame that is reached -/

lemma Frame.isSealed_of_isSettled {f : Frame} (h : f.isSettled = false) : f.isSealed = false :=
  (Bool.or_eq_false_iff.1 h).2

lemma Frame.isSealed_of_isArranged {f : Frame} (h : f.isArranged = false) : f.isSealed = false :=
  (Bool.or_eq_false_iff.1 (Bool.or_eq_false_iff.1 h).1).2

namespace Translator

variable {tr : Translator} {frame : Frame}

/-- What is translated over a frame without aggregates has none. -/
lemma plain_expression (h : frame.Parts Expression.Plain) (n : Nat) (f : Formula) :
    (tr.expression frame n f).Plain :=
  expression_of_closed Expression.closed_plain (fun _ _ _ => trivial) h f n (fun _ _ => trivial)
    (.inr fun _ _ => trivial)

/-- A terminal adds at most a condition. -/
lemma Concludes.tidy {n m : Nat} {terminal : Terminal} {arg : Option Formula} {frame' : Frame}
    {s : YieldedScalar} (hframe : frame.Tidy) (hopen : frame.isSealed = false)
    (h : Concludes tr frame n terminal arg frame' s m) : frame'.Tidy := by
  cases h with
  | summary | count | any => exact hframe
  | @all f =>
      have he : (tr.expression frame n f).Plain := plain_expression (hframe.parts hopen) _ _
      refine hframe.restrict ?_
      simp [Expression.Plain, violation, Expression.hasAggregate, Expression.anyAggregate]
      exact he

/-- **Each frame that is reached keeps aggregates in their places.** -/
theorem Lowered.tidy {n m : Nat} {q : Query} {s : Stage} (h : Lowered tr n q s m) : s.Tidy := by
  induction h with
  | source => exact .ofKeyspace ..
  | filter _ henter ih =>
      have hframe := ih.enter henter
      have hopen := henter.isSealed fun _ => Frame.isSealed_of_isSettled
      exact hframe.restrict (plain_expression (hframe.parts hopen) _ _)
  | project _ henter ih =>
      have hframe := ih.enter henter
      have hopen := henter.isSealed fun _ h => h
      exact hframe.yielding (projectedYield_of_closed Expression.closed_plain
        (fun _ _ _ => trivial) (hframe.parts hopen) _ _ (fun _ _ => trivial)
        (.inr fun _ _ => trivial))
  | orderBy _ henter ih =>
      have hframe := ih.enter henter
      have hopen := henter.isSealed fun _ => Frame.isSealed_of_isSettled
      refine hframe.orderedBy fun k hk => ?_
      rw [List.mem_singleton.1 hk]
      exact plain_expression (hframe.parts hopen) _ _
  | @thenBy n m input descending frame key _ _ hsettled ih =>
      have hopen := Frame.isSealed_of_isSettled hsettled
      have hframe : frame.Tidy := ih
      obtain ⟨⟨hgrouped, hconcluded⟩, -⟩ := Frame.isSealed_eq_false.1 hopen
      refine hframe.orderedBy fun k hk => ?_
      rcases List.mem_append.1 hk with hk | hk
      · exact (hframe.unfolded hgrouped hconcluded).2.2 k hk
      · rw [List.mem_singleton.1 hk]
        exact plain_expression (hframe.parts hopen) _ _
  | groupBy _ henter _ ih =>
      have hframe := ih.enter henter
      have hopen := henter.isSealed fun _ => Frame.isSealed_of_isArranged
      exact hframe.grouped (groupKeys_of_closed Expression.closed_plain (fun _ _ _ => trivial)
        (hframe.parts hopen) _ _ (fun _ _ => trivial) (.inr fun _ _ => trivial))
  | @join n n₁ n₂ kind matching left right ls rs frame fields b b' leftKey rightKey _ _ _ henter
      hfields _ _ hb ihl _ =>
      have hframe := ihl.enter henter
      have hopen := henter.isSealed fun _ => Frame.isSealed_of_isSettled
      have hbase : b'.base.Plain := hb ▸ rfl
      have hcondition : (tr.joinCondition frame n₂ b' leftKey rightKey).Plain :=
        joinCondition_of_closed Expression.closed_plain (fun _ _ _ => trivial)
          (hframe.parts hopen) hbase (fun _ _ => trivial) (.inr fun _ _ => trivial)
      refine hframe.extend hfields ?_ hbase
      exact hcondition
  | correlate _ henter hfields hsource _ hterm ih =>
      have hframe := ih.enter henter
      refine hframe.extend hfields (correlated_of_closed Expression.closed_plain ?_ rfl hterm) rfl
      exact hframe.bases _ (List.mem_of_find?_eq_some hsource)
  | skip _ henter ih =>
      have hframe := ih.enter henter
      have hopen := henter.isSealed fun _ => Frame.isSealed_of_isSettled
      refine hframe.paged (fun e he => ?_) hframe.limit
      cases Option.mem_some.1 he
      exact plain_expression (hframe.parts hopen) _ _
  | take _ henter ih =>
      have hframe := ih.enter henter
      have hopen := henter.isSealed fun _ h => (Bool.or_eq_false_iff.1 h).2
      refine hframe.paged hframe.offset fun e he => ?_
      cases Option.mem_some.1 he
      exact plain_expression (hframe.parts hopen) _ _
  | distinct _ henter ih =>
      have hframe := ih.enter henter
      exact { hframe with }
  | combine => exact trivial
  | conclude _ henter hterminal ih =>
      have hframe := ih.enter henter
      have hopen := henter.isSealed fun _ => Frame.isSealed_of_isSettled
      exact (hterminal.tidy hframe hopen).concluded _

end Translator
end EntityQuery
