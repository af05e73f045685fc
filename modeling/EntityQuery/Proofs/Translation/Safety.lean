import EntityQuery.Proofs.Evaluation.SafeStatement
import EntityQuery.Proofs.Translation.Frames
import EntityQuery.Proofs.Translation.Slots

/-!
# Translated statements do not go wrong

Each frame that a translation reaches uses only the aliases that its source and its terms bind, only
placeholders of the inputs of the query, and only calls that the language knows, unless the query
calls registered functions.  So its statement is safe.

* `Frame.Safe`: what holds of each frame; `Frame.Safe.enter` and its companions are the steps.
* `Translator.Lowered.safe`: the stages of a query that calls no registered function are safe.
* `Statement.Returns`: a statement sorts by orders, and returns rows or names an invalid number of
  them.
* `run_translated`: so does such a query whose keys are collated, unless the least integer is
  divided by minus one.
-/

namespace EntityQuery

namespace Expression

section Aliases

variable {names aliases aliases' : List String}

mutual

/-- An expression stays safe when more aliases are bound. -/
lemma Safe.mono (hsub : aliases ⊆ aliases') : (e : Expression) → e.Safe names aliases →
    e.Safe names aliases'
  | .ident _, h => hsub h
  | .placeholder _, h => h
  | .literal _, h => h
  | .field base _, h => Safe.mono hsub base h
  | .binary _ left right, h => ⟨Safe.mono hsub left h.1, Safe.mono hsub right h.2⟩
  | .not e, h => Safe.mono hsub e h
  | .neg e, h => Safe.mono hsub e h
  | .valued e, h => Safe.mono hsub e h
  | .notValued e, h => Safe.mono hsub e h
  | .inList e list, h => ⟨Safe.mono hsub e h.1, AllSafe.mono hsub list h.2⟩
  | .like e pattern, h => ⟨Safe.mono hsub e h.1, Safe.mono hsub pattern h.2⟩
  | .call _ args, h => ⟨h.1, AllSafe.mono hsub args h.2⟩
  | .aggregate _ _ (some arg), h => ⟨Safe.mono hsub arg h.1, h.2⟩
  | .aggregate _ _ none, _ => trivial
  | .caseWhen c t o, h => ⟨Safe.mono hsub c h.1, Safe.mono hsub t h.2.1, Safe.mono hsub o h.2.2⟩

lemma AllSafe.mono (hsub : aliases ⊆ aliases') : (es : List Expression) →
    AllSafe names aliases es → AllSafe names aliases' es
  | [], h => h
  | e :: es, h => ⟨Safe.mono hsub e h.1, AllSafe.mono hsub es h.2⟩

end

end Aliases

/-- Every construct hands on that an expression is safe. -/
lemma closed_safe (names aliases : List String) :
    Closed (Safe names aliases) (· ∈ names) KnownCall where
  field h := h
  placeholder h := h
  literal := trivial
  binary hl hr := ⟨hl, hr⟩
  not h := h
  neg h := h
  valued h := h
  notValued h := h
  inList he hlist := ⟨he, allSafe_iff.2 hlist⟩
  like he hp := ⟨he, hp⟩
  call hc hargs := ⟨hc, allSafe_iff.2 hargs⟩
  caseWhen hc ht ho := ⟨hc, ht, ho⟩

end Expression

/-! ## Safe frames

Safety is asked of the parts of a frame, with the aliases that are in scope there.  It is handed on
by each function that changes a frame, if what is added is safe. -/

/-- The aliases that a frame binds. -/
def Frame.aliases (f : Frame) : List String := f.source.aliasName :: f.terms.map Term.aliasName

/-- The parts of a frame use only what is bound. -/
structure Frame.Safe (names : List String) (f : Frame) : Prop where
  source : f.source.Safe names
  terms : TermsSafe names [f.source.aliasName] f.terms
  scope : ∀ b ∈ f.scope, b.base.Safe names f.aliases
  yield : ∀ e ∈ f.yield.selection.expressions, e.Safe names f.aliases
  predicate : ∀ e ∈ f.predicate, e.Safe names f.aliases
  groupBy : ∀ e ∈ f.groupBy, e.Safe names f.aliases
  orderBy : ∀ k ∈ f.orderBy, k.key.Safe names f.aliases
  offset : ∀ e ∈ f.offset, e.Safe names f.aliases
  limit : ∀ e ∈ f.limit, e.Safe names f.aliases

/-- The parts of a stage use only what is bound. -/
def Stage.Safe (names : List String) : Stage → Prop
  | .frame f => f.Safe names
  | .compound s _ => s.Safe names

namespace Frame.Safe

variable {names : List String} {f : Frame}

/-- The statement of a frame that is safe and tidy is safe. -/
lemma finish (h : f.Safe names) (htidy : f.Tidy) : f.finish.Safe names := by
  refine ⟨h.source, h.terms, ?_, htidy.predicate, htidy.groupBy, htidy.offset, htidy.limit⟩
  intro e he
  simp only [Clauses.expressions, List.mem_append, Option.mem_toList, List.mem_map] at he
  rcases he with ((((he | he) | he) | ⟨k, hk, rfl⟩) | he) | he
  · exact h.yield e he
  · exact h.predicate e he
  · exact h.groupBy e he
  · exact h.orderBy k hk
  · exact h.limit e he
  · exact h.offset e he

lemma parts (h : f.Safe names) : f.Parts (Expression.Safe names f.aliases) := ⟨h.scope, h.yield⟩

lemma ofKeyspace (k : Keyspace) (entity aliasName : String) :
    (Frame.ofKeyspace k entity aliasName).Safe names where
  source := trivial
  terms := trivial
  scope b hb := by
    rw [List.mem_singleton.1 hb]
    exact List.mem_singleton_self _
  yield e he := by
    rw [List.mem_singleton.1 he]
    exact List.mem_singleton_self _
  predicate e he := by cases he
  groupBy e he := by cases he
  orderBy k hk := by cases hk
  offset e he := by cases he
  limit e he := by cases he

lemma ofStatement {s : Statement} (hs : s.Safe names) (y : Yield) (aliasName : String) :
    (Frame.ofStatement s y aliasName).Safe names := by
  have hyield : ∀ e ∈ (y.rebase aliasName).selection.expressions,
      e.Safe names [aliasName] := by
    intro e he
    obtain rfl | ⟨name, rfl⟩ := Yield.mem_expressions_rebase he <;>
      exact List.mem_singleton_self _
  exact
    { source := hs
      terms := trivial
      scope := fun b hb => hyield _ (Yield.base_mem_expressions hb)
      yield := hyield
      predicate := fun e he => by cases he
      groupBy := fun e he => by cases he
      orderBy := fun k hk => by cases hk
      offset := fun e he => by cases he
      limit := fun e he => by cases he }

lemma restrict (h : f.Safe names) {e : Expression} (he : e.Safe names f.aliases) :
    (f.restrict e).Safe names :=
  { h with
    predicate := by
      intro e' he'
      cases Option.mem_some.1 he'
      cases hp : f.predicate with
      | none => exact he
      | some p => exact ⟨h.predicate p hp, he⟩ }

lemma yielding (h : f.Safe names) {y : Yield}
    (hy : ∀ e ∈ y.selection.expressions, e.Safe names f.aliases) : (f.yielding y).Safe names :=
  { h with
    scope := fun _ hb => hy _ (Yield.base_mem_expressions hb)
    yield := hy }

lemma orderedBy (h : f.Safe names) {keys : List OrderKey}
    (hkeys : ∀ k ∈ keys, k.key.Safe names f.aliases) : { f with orderBy := keys }.Safe names :=
  { h with orderBy := hkeys }

lemma paged (h : f.Safe names) {offset limit : Option Expression}
    (hoffset : ∀ e ∈ offset, e.Safe names f.aliases)
    (hlimit : ∀ e ∈ limit, e.Safe names f.aliases) : { f with offset, limit }.Safe names :=
  { h with
    offset := hoffset
    limit := hlimit }

lemma grouped (h : f.Safe names) {keys summaries : List (String × YieldedScalar)}
    (hkeys : ∀ k ∈ keys, k.2.expression.Safe names f.aliases)
    (hsummaries : ∀ s ∈ summaries, s.2.expression.Safe names f.aliases) :
    (f.grouped keys summaries).Safe names :=
  { h with
    scope := fun b hb => by cases hb
    groupBy := by
      intro e he
      obtain ⟨k, hk, rfl⟩ := List.mem_map.1 he
      exact hkeys k hk
    yield := by
      intro e he
      simp only [Frame.grouped, Yield.selection, Selection.expressions, List.map_map,
        List.mem_map, List.mem_append] at he
      obtain ⟨s, hs | hs, rfl⟩ := he
      · exact hkeys s hs
      · exact hsummaries s hs }

lemma concluded (h : f.Safe names) {s : YieldedScalar}
    (hs : s.expression.Safe names f.aliases) : (f.concluded s).Safe names :=
  { h with
    scope := fun b hb => by cases hb
    orderBy := fun k hk => by cases hk
    yield := by
      intro e he
      rw [List.mem_singleton.1 he]
      exact hs }

/-- A further term binds its alias; what has been there before stays as it is. -/
lemma extend (h : f.Safe names) {fields : List (String × FieldYield)}
    (hfields : f.yield.scopeFields? = some fields) {t : Term} (ht : t.Safe names f.aliases)
    {b : Binding} (hb : b.base = .ident t.aliasName) : (f.extend fields t b).Safe names := by
  have haliases : (f.extend fields t b).aliases = f.aliases ++ [t.aliasName] := by
    simp [Frame.aliases, Frame.extend]
  have hmono : ∀ {e : Expression}, e.Safe names f.aliases →
      e.Safe names (f.extend fields t b).aliases := by
    intro e he
    rw [haliases]
    exact he.mono (List.subset_append_left _ _)
  have hbase : b.base.Safe names (f.extend fields t b).aliases := by
    rw [hb, haliases]
    exact List.mem_append_right _ (List.mem_singleton_self _)
  exact
    { source := h.source
      terms := termsSafe_append.2 ⟨h.terms, ht⟩
      scope := by
        intro b' hb'
        rcases List.mem_append.1 hb' with hb' | hb'
        · exact hmono (h.scope b' hb')
        · rw [List.mem_singleton.1 hb']
          exact hbase
      yield := by
        intro e he
        rw [Frame.extend, Yield.expressions_scopeFields hfields, List.mem_append] at he
        rcases he with he | he
        · exact hmono (h.yield e he)
        · rw [List.mem_singleton.1 he]
          exact hbase
      predicate := fun e he => hmono (h.predicate e he)
      groupBy := fun e he => hmono (h.groupBy e he)
      orderBy := fun k hk => hmono (h.orderBy k hk)
      offset := fun e he => hmono (h.offset e he)
      limit := fun e he => hmono (h.limit e he) }

end Frame.Safe

/-- The statement of a stage that is safe and tidy is safe. -/
lemma Stage.Safe.statement {names : List String} {s : Stage} (h : s.Safe names) (htidy : s.Tidy) :
    s.statement.Safe names := by
  cases s with
  | frame f => exact Frame.Safe.finish h htidy
  | compound => exact h

/-- A frame that is entered is safe. -/
lemma Stage.Safe.enter {names : List String} {s : Stage} {closed : Frame → Bool} {f : Frame}
    (h : s.Safe names) (htidy : s.Tidy) (henter : s.Enters closed f) : f.Safe names := by
  cases henter with
  | kept => exact h
  | nested => exact .ofStatement (Frame.Safe.finish h htidy) ..
  | compound => exact .ofStatement h ..

/-- The source that a stage is as the right side of a join is safe. -/
lemma Stage.Safe.sourceAs {names : List String} {s : Stage} (h : s.Safe names) (htidy : s.Tidy)
    (aliasName : String) : (s.sourceAs aliasName).Safe names := by
  have hstatement := h.statement htidy
  simp only [Stage.sourceAs]
  cases s with
  | compound => exact hstatement
  | frame f =>
      cases hk : f.bareKeyspace? with
      | some k =>
          simp only [hk]
          exact trivial
      | none =>
          simp only [hk]
          exact hstatement

/-! ## Each stage that is reached

Operators with one input, those with a formula and those with two inputs each begin in one way.
What they begin with is shown to be safe once for each kind, and the induction adds what an operator
does. -/

/-- Whether a query calls no registered function. -/
def Query.callFree (q : Query) : Bool :=
  let own := Formula.allCallFree q.formulas
  match q with
  | .source .. => own
  | .filter input _ | .project input _ | .orderBy input _ _ | .thenBy input _ _
  | .groupBy input _ _ | .correlate input _ | .skip input _ | .take input _ | .distinct input
  | .conclude input _ _ => input.callFree && own
  | .join _ left right _ _ => left.callFree && right.callFree && own
  | .combine _ left right => left.callFree && right.callFree && own

/-- The placeholders of an operator are those of its inputs and its own. -/
lemma placeholders_split {names : List String} {n m : Nat} {is js : List Input}
    (hm : m = n + (slotsOf is).length)
    (h : ∀ name ∈ placeholdersFrom n (is ++ js), name ∈ names) :
    (∀ name ∈ placeholdersFrom n is, name ∈ names) ∧
      ∀ name ∈ placeholdersFrom m js, name ∈ names := by
  rw [placeholdersFrom_append, ← hm] at h
  exact ⟨fun name hname => h name (List.mem_append_left _ hname),
    fun name hname => h name (List.mem_append_right _ hname)⟩

namespace Translator

variable {tr : Translator} {frame : Frame} {names : List String}

/-- What is translated over a safe frame is safe. -/
lemma safe_expression (h : frame.Safe names) {n : Nat} {f : Formula}
    (hn : ∀ name ∈ placeholdersFrom n f.inputs, name ∈ names) (hc : f.callFree = true) :
    (tr.expression frame n f).Safe names frame.aliases :=
  expression_of_closed (Expression.closed_safe names frame.aliases) (fun _ _ h => h) h.parts f n hn
    (.inl hc)

/-- The placeholders of an operator with two inputs are those of its inputs and its own. -/
lemma placeholders_split_two {n n₁ n₂ : Nat} {left right : Query} {ls rs : Stage}
    {js : List Input} (hleft : Lowered tr n left ls n₁) (hright : Lowered tr n₁ right rs n₂)
    (h : ∀ name ∈ placeholdersFrom n (left.inputs ++ right.inputs ++ js), name ∈ names) :
    (∀ name ∈ placeholdersFrom n left.inputs, name ∈ names) ∧
      (∀ name ∈ placeholdersFrom n₁ right.inputs, name ∈ names) ∧
      ∀ name ∈ placeholdersFrom n₂ js, name ∈ names := by
  have hslots : n₂ = n + (slotsOf (left.inputs ++ right.inputs)).length := by
    rw [hright.slots, hleft.slots, slotsOf_append, List.length_append, Nat.add_assoc]
  obtain ⟨hinputs, hown⟩ := placeholders_split hslots h
  obtain ⟨hl, hr⟩ := placeholders_split hleft.slots hinputs
  exact ⟨hl, hr, hown⟩

/-- The term of a correlated navigation uses its source and its own alias. -/
lemma correlated_safe {aliases : List String} {c : Correlation} {source : Binding} {term : Term}
    (hsafe : source.base.Safe names aliases) (hplain : source.base.Plain)
    (hterm : tr.correlated c source = some term) :
    term.Safe names aliases ∧ term.aliasName = c.aliasName := by
  rw [correlated] at hterm
  cases hkind : c.kind with
  | unnest path =>
      rw [hkind] at hterm
      cases hterm
      exact ⟨⟨(Expression.closed_safe names aliases).path hsafe _,
        Expression.closed_plain.path hplain _⟩, rfl⟩
  | lookup sourceField targetField =>
      simp only [hkind, Option.map_eq_some_iff] at hterm
      obtain ⟨k, -, rfl⟩ := hterm
      have hclosed := Expression.closed_safe names (aliases ++ [c.aliasName])
      refine ⟨⟨trivial, hclosed.binary (hclosed.path ?_ _) (hclosed.path ?_ _), ?_⟩, rfl⟩
      · exact List.mem_append_right _ (List.mem_singleton_self _)
      · exact hsafe.mono (List.subset_append_left _ _)
      · have halias : (Expression.ident c.aliasName).Plain := rfl
        exact Expression.closed_plain.binary (Expression.closed_plain.path halias _)
          (Expression.closed_plain.path hplain _)

/-- A terminal over a safe frame adds a safe condition and makes a safe scalar. -/
lemma Concludes.safe {q : Query} {n m : Nat} {terminal : Terminal} {arg : Option Formula}
    {frame' : Frame} {s : YieldedScalar} (hframe : frame.Safe names) (htidy : frame.Tidy)
    (hopen : frame.isSealed = false) (h : Concludes tr frame n terminal arg frame' s m)
    (hn : ∀ name ∈ placeholdersFrom n
      (Formula.inputsOf (Query.conclude q terminal arg).readFormulas), name ∈ names)
    (hc : Formula.allCallFree arg.toList = true) :
    (frame'.concluded s).Safe names := by
  cases h with
  | @summary terminal function f hfunction =>
      have hread : (Query.conclude q terminal (some f)).readFormulas = [f] := by
        cases terminal <;> first | rfl | cases hfunction
      rw [hread, Formula.inputsOf_singleton] at hn
      refine hframe.concluded ⟨safe_expression hframe hn ?_, plain_expression (htidy.parts hopen) _ _⟩
      simpa [Formula.allCallFree] using hc
  | count => exact hframe.concluded trivial
  | any => exact hframe.concluded ⟨trivial, trivial⟩
  | @all f =>
      have hread : (Query.conclude q .all (some f)).readFormulas = [f] := rfl
      rw [hread, Formula.inputsOf_singleton] at hn
      have he : (tr.expression frame n f).Safe names frame.aliases :=
        safe_expression hframe hn (by simpa [Formula.allCallFree] using hc)
      have hviolation : (violation (tr.expression frame n f)).Safe names frame.aliases :=
        ⟨⟨.ifMissingOrNull, rfl, rfl⟩, he, trivial, trivial⟩
      exact (hframe.restrict hviolation).concluded ⟨trivial, trivial⟩

/-- What an operator with one input starts from, and what it reads behind its input. -/
lemma Lowered.enter_safe {n m : Nat} {input : Query} {s : Stage} {closed : Frame → Bool}
    {own : List Input} {free : Bool} (hinput : Lowered tr n input s m)
    (henter : s.Enters closed frame)
    (ih : (∀ name ∈ placeholdersFrom n input.inputs, name ∈ names) → input.callFree = true →
      s.Safe names)
    (hn : ∀ name ∈ placeholdersFrom n (input.inputs ++ own), name ∈ names)
    (hc : (input.callFree && free) = true) :
    frame.Safe names ∧ (∀ name ∈ placeholdersFrom m own, name ∈ names) ∧ free = true := by
  obtain ⟨hn, hown⟩ := placeholders_split hinput.slots hn
  obtain ⟨hc, hfree⟩ := Bool.and_eq_true_iff.1 hc
  exact ⟨(ih hn hc).enter hinput.tidy henter, hown, hfree⟩

/-- What an operator with one formula starts from, and what becomes of the formula. -/
lemma Lowered.formula_safe {n m : Nat} {input : Query} {s : Stage} {closed : Frame → Bool}
    {f : Formula} (hinput : Lowered tr n input s m) (henter : s.Enters closed frame)
    (ih : (∀ name ∈ placeholdersFrom n input.inputs, name ∈ names) → input.callFree = true →
      s.Safe names)
    (hn : ∀ name ∈ placeholdersFrom n (input.inputs ++ Formula.inputsOf [f]), name ∈ names)
    (hc : (input.callFree && Formula.allCallFree [f]) = true) :
    frame.Safe names ∧ (tr.expression frame m f).Safe names frame.aliases := by
  obtain ⟨hframe, hown, hfree⟩ := hinput.enter_safe henter ih hn hc
  rw [Formula.inputsOf_singleton] at hown
  refine ⟨hframe, safe_expression hframe hown ?_⟩
  simpa [Formula.allCallFree] using hfree

/-- What an operator with two inputs has on its sides, and what it reads behind them. -/
lemma Lowered.sides_safe {n n₁ n₂ : Nat} {left right : Query} {ls rs : Stage} {own : List Input}
    {free : Bool} (hleft : Lowered tr n left ls n₁) (hright : Lowered tr n₁ right rs n₂)
    (ihl : (∀ name ∈ placeholdersFrom n left.inputs, name ∈ names) → left.callFree = true →
      ls.Safe names)
    (ihr : (∀ name ∈ placeholdersFrom n₁ right.inputs, name ∈ names) → right.callFree = true →
      rs.Safe names)
    (hn : ∀ name ∈ placeholdersFrom n (left.inputs ++ right.inputs ++ own), name ∈ names)
    (hc : (left.callFree && right.callFree && free) = true) :
    ls.Safe names ∧ rs.Safe names ∧ (∀ name ∈ placeholdersFrom n₂ own, name ∈ names) ∧
      free = true := by
  obtain ⟨hl, hr, hown⟩ := placeholders_split_two hleft hright hn
  obtain ⟨hc, hfree⟩ := Bool.and_eq_true_iff.1 hc
  obtain ⟨hcl, hcr⟩ := Bool.and_eq_true_iff.1 hc
  exact ⟨ihl hl hcl, ihr hr hcr, hown, hfree⟩

/-- Summaries of rows are safe in a selection that is not folded yet. -/
lemma safe_groupSummaries (h : frame.Safe names) (htidy : frame.Tidy)
    (hopen : frame.isSealed = false) {n : Nat} {summaries : List (String × Summary)}
    (hn : ∀ name ∈ placeholdersFrom n (Formula.inputsOf (summaries.filterMap fun s => s.2.arg)),
      name ∈ names)
    (hc : Formula.allCallFree (summaries.filterMap fun s => s.2.arg) = true) :
    ∀ s ∈ tr.groupSummaries frame n summaries, s.2.expression.Safe names frame.aliases := by
  intro s hs
  have hsafe := groupSummaries_of_closed (Expression.closed_safe names _) (fun _ _ h => h)
    h.parts _ _ hn (.inl hc) s hs
  have hplain : s.2.expression = .countRows ∨ ∃ function distinct e,
      s.2.expression = .aggregate function distinct (some e) ∧ e.Plain :=
    groupSummaries_of_closed Expression.closed_plain (fun _ _ _ => trivial)
      (htidy.parts hopen) _ _ (fun _ _ => trivial) (.inr fun _ _ => trivial) s hs
  rcases hsafe with h | ⟨function, distinct, e, he, hsafe⟩
  · rw [h]
    exact trivial
  · rcases hplain with h | ⟨_, _, e', he', hplain⟩
    · rw [h]
      exact trivial
    · rw [he] at he' ⊢
      cases he'
      exact ⟨hsafe, hplain⟩

/-- The term of a join uses what its right side and the frame bind. -/
lemma join_safe (h : frame.Safe names) (htidy : frame.Tidy) (hopen : frame.isSealed = false)
    {rs : Stage} {b b' : Binding} (hsource : (rs.sourceAs b.aliasName).Safe names)
    (hbase : b'.base = .ident b.aliasName) {n : Nat} {leftKey rightKey : Formula}
    (hn : ∀ name ∈ placeholdersFrom n (Formula.inputsOf [leftKey, rightKey]), name ∈ names)
    (hc : Formula.allCallFree [leftKey, rightKey] = true) (matching : Matching) :
    (Term.join matching (rs.sourceAs b.aliasName)
      (tr.joinCondition frame n b' leftKey rightKey)).Safe names frame.aliases := by
  have haliases : frame.aliases ⊆ frame.aliases ++ [b.aliasName] := List.subset_append_left _ _
  have hcondition : (tr.joinCondition frame n b' leftKey rightKey).Safe names
      (frame.aliases ++ [b.aliasName]) := by
    refine joinCondition_of_closed (Expression.closed_safe names _) (fun _ _ h => h)
      (h.parts.imp fun e he => he.mono haliases) ?_ hn (.inl hc)
    rw [hbase]
    exact List.mem_append_right _ (List.mem_singleton_self _)
  have hplain : (tr.joinCondition frame n b' leftKey rightKey).Plain :=
    joinCondition_of_closed Expression.closed_plain (fun _ _ _ => trivial)
      (htidy.parts hopen) (hbase ▸ rfl) (fun _ _ => trivial) (.inr fun _ _ => trivial)
  have halias : (rs.sourceAs b.aliasName).aliasName = b.aliasName := rs.aliasName_sourceAs _
  exact ⟨hsource, by rwa [halias], hplain⟩

/-- **The stages of a query that calls no registered function are safe.** -/
theorem Lowered.safe {n m : Nat} {q : Query} {s : Stage} (h : Lowered tr n q s m)
    (hn : ∀ name ∈ placeholdersFrom n q.inputs, name ∈ names) (hc : q.callFree = true) :
    s.Safe names := by
  induction h with
  | source => exact .ofKeyspace ..
  | filter hinput henter ih =>
      obtain ⟨hframe, he⟩ := hinput.formula_safe henter ih hn hc
      exact hframe.restrict he
  | project hinput henter ih =>
      obtain ⟨hframe, hown, hfree⟩ := hinput.enter_safe henter ih hn hc
      exact hframe.yielding (projectedYield_of_closed (Expression.closed_safe names _)
        (fun _ _ h => h) hframe.parts _ _ hown (.inl hfree))
  | orderBy hinput henter ih =>
      obtain ⟨hframe, he⟩ := hinput.formula_safe henter ih hn hc
      exact hframe.orderedBy (List.forall_mem_singleton.2 he)
  | @thenBy n m input descending frame key hinput _ _ ih =>
      have henter : (Stage.frame frame).Enters (fun _ => false) frame := .kept rfl
      obtain ⟨hframe, he⟩ := hinput.formula_safe henter ih hn hc
      exact hframe.orderedBy
        (List.forall_mem_append.2 ⟨hframe.orderBy, List.forall_mem_singleton.2 he⟩)
  | @groupBy n m m₁ input s frame keys summaries hinput henter hslots ih =>
      have hn : ∀ name ∈ placeholdersFrom n (input.inputs ++ Formula.inputsOf
          (keys.map Prod.snd ++ summaries.filterMap fun s => s.2.arg)), name ∈ names := hn
      obtain ⟨hframe, hown, hfree⟩ := hinput.enter_safe henter ih hn hc
      have hopen := henter.isSealed fun _ => Frame.isSealed_of_isArranged
      rw [Formula.inputsOf_append] at hown
      rw [Query.formulas, Formula.allCallFree_append, Bool.and_eq_true] at hfree
      obtain ⟨hkeys, hsummaries⟩ :=
        placeholders_split (by rw [Formula.length_slotsOf, ← hslots]) hown
      refine hframe.grouped ?_
        (safe_groupSummaries hframe (hinput.tidy.enter henter) hopen hsummaries hfree.2)
      exact groupKeys_of_closed (Expression.closed_safe names _) (fun _ _ h => h)
        hframe.parts _ _ hkeys (.inl hfree.1)
  | @join n n₁ n₂ kind matching left right ls rs frame fields b b' leftKey rightKey _ hleft hright
      henter hfields _ _ hb ihl ihr =>
      obtain ⟨hls, hrs, hown, hfree⟩ := hleft.sides_safe hright ihl ihr hn hc
      have hframe := hls.enter hleft.tidy henter
      have hopen := henter.isSealed fun _ => Frame.isSealed_of_isSettled
      have hbase : b'.base = .ident b.aliasName := hb ▸ rfl
      refine hframe.extend hfields (join_safe hframe (hleft.tidy.enter henter) hopen
        (hrs.sourceAs hright.tidy b.aliasName) hbase hown hfree matching) ?_
      rw [hbase, Term.aliasName, rs.aliasName_sourceAs]
  | correlate hinput henter hfields hsource _ hterm ih =>
      obtain ⟨hframe, -, -⟩ := hinput.enter_safe henter ih hn hc
      have hmem := List.mem_of_find?_eq_some hsource
      obtain ⟨hsafe, halias⟩ := correlated_safe (hframe.scope _ hmem)
        ((hinput.tidy.enter henter).bases _ hmem) hterm
      exact hframe.extend hfields hsafe (by rw [halias])
  | skip hinput henter ih =>
      obtain ⟨hframe, he⟩ := hinput.formula_safe henter ih hn hc
      exact hframe.paged (fun _ hcount => Option.mem_some.1 hcount ▸ he) hframe.limit
  | take hinput henter ih =>
      obtain ⟨hframe, he⟩ := hinput.formula_safe henter ih hn hc
      exact hframe.paged hframe.offset fun _ hcount => Option.mem_some.1 hcount ▸ he
  | distinct hinput henter ih =>
      obtain ⟨hframe, -, -⟩ := hinput.enter_safe henter ih hn hc
      exact { hframe with }
  | combine _ hleft hright ihl ihr =>
      obtain ⟨hls, hrs, -, -⟩ := hleft.sides_safe hright ihl ihr hn hc
      exact ⟨hls.statement hleft.tidy, hrs.statement hright.tidy⟩
  | conclude hinput henter hterminal ih =>
      obtain ⟨hframe, hown, hfree⟩ := hinput.enter_safe henter ih hn hc
      have hopen := henter.isSealed fun _ => Frame.isSealed_of_isSettled
      exact hterminal.safe hframe (hinput.tidy.enter henter) hopen hown hfree

end Translator

/-! ## Runs of plans

A statement that is safe fails with few kinds of errors.  Those of missing keyspaces and of values
that are not bound are excluded here, and only numbers of rows are left.  That a sort comes to an
end is not part of this: it is promised by orders only. -/

/-- Each placeholder that is read has an entry in the table, and no entry is lost. -/
lemma ParameterTable.Binds.covers {n : Nat} {is : List Input} {t t' : ParameterTable}
    (h : Binds n is t t') :
    t.names ⊆ t'.names ∧ ∀ name ∈ placeholdersFrom n is, name ∈ t'.names := by
  induction h with
  | refl => exact ⟨List.Subset.refl _, fun name hname => by cases hname⟩
  | @bound n c is t t' _ ih =>
      obtain ⟨hnames, hread⟩ := ih
      have hslot : t.names ⊆ (t.bindSlot n c.scalarType).1.names ∧
          slotName n ∈ (t.bindSlot n c.scalarType).1.names := by
        cases hfind : t.find? (slotName n) with
        | some e =>
            obtain ⟨hmem, hname⟩ := find?_eq_some hfind
            simp only [bindSlot, hfind]
            exact ⟨List.Subset.refl _, List.mem_map.2 ⟨e, hmem, hname⟩⟩
        | none => simp [bindSlot, hfind]
      refine ⟨List.Subset.trans hslot.1 hnames, fun name hname => ?_⟩
      rcases List.mem_cons.1 hname with rfl | hname
      · exact hnames hslot.2
      · exact hread name hname
  | tested _ ih => exact ih
  | @named n name type is t t₁ t' hbind _ ih =>
      obtain ⟨hnames, hread⟩ := ih
      have hnamed : t.names ⊆ t₁.names ∧ name ∈ t₁.names := by
        obtain ⟨-, ⟨e, hfind, -, rfl⟩ | ⟨-, rfl⟩⟩ := bindNamed_eq_ok hbind
        · obtain ⟨hmem, hname⟩ := find?_eq_some hfind
          exact ⟨List.Subset.refl _, List.mem_map.2 ⟨e, hmem, hname⟩⟩
        · simp
      refine ⟨List.Subset.trans hnamed.1 hnames, fun name' hname => ?_⟩
      rcases List.mem_cons.1 hname with rfl | hname
      · exact hnames hnamed.2
      · exact hread name' hname
  | marked _ ih =>
      rw [names_markRowCount] at ih
      exact ih

/-- The documents that are sent have the names of the entries of the plan. -/
lemma Plan.names_bind {plan : Plan} {constants : List Captured} {c : Context}
    {parameters : List (String × Document)} (h : plan.bind constants c = .ok parameters) :
    parameters.map Prod.fst = plan.entries.map ParameterEntry.name := by
  rw [entries, List.map_map]
  refine Computation.map_eq_map_of_mapM (fun parameter p hp => ?_) h
  obtain ⟨value, -, hp⟩ := Computation.bind_eq_ok.1 hp
  obtain ⟨-, -, hp⟩ := Computation.bind_eq_ok.1 hp
  obtain ⟨d, -, hp⟩ := Computation.bind_eq_ok.1 hp
  cases hp
  rfl

/-- A run of a statement sorts by orders only, and it returns rows or stops at a number of rows that
is none.  By a comparison that is no order a sort need not come to an end. -/
structure Statement.Returns (env : Environment) (s : Statement) : Prop where
  sorts : s.SortsByOrders env
  ends : (∃ rows, s.run env = .ok rows) ∨
    ∃ clause found, s.run env = .error (.invalidRowCount clause found)

/-- **Translated statements do not go wrong.**  If a query calls no registered function, a plan of
its translation over keyspaces that exist returns rows or stops at an invalid number of rows, with
all parameters that can be bound, and on the way all sorts are by orders.  It is presupposed that
the collation orders the values that occur as those of a key, in all selections of the statement, at
any depth (see `collateDatum_preorder`).  The only other end is a division of the least integer by
minus one (see `Operator.apply_eq_error`). -/
theorem run_translated {tr : Translator} {q : Query} {t : Translation} {registry : Registry}
    {key : PlanKey} {number : Nat} {plan : Plan} {constants : List Captured} {c : Context}
    {parameters : List (String × Document)} {collections : Collections}
    (ht : tr.translate q = .ok t) (hq : q.callFree = true)
    (hplan : Plan.compile registry key number t = .ok plan)
    (hbind : plan.bind constants c = .ok parameters)
    (hkeyspaces : ∀ k ∈ plan.statement.keyspaces, (collections.documents? k).isSome = true)
    (hcollated : plan.statement.Collated ⟨collections, parameters⟩) :
    plan.statement.Returns ⟨collections, parameters⟩ ↔
      plan.statement.run ⟨collections, parameters⟩ ≠ .error .divisionOverflow := by
  obtain ⟨stage, progress, hstage, hquery, -⟩ := Translator.translate_eq_ok ht
  obtain ⟨hlowered, hreads⟩ := Translator.stage_eq_ok hstage
  have hstatement : plan.statement = stage.statement := by
    obtain ⟨_, -, hplan⟩ := Computation.bind_eq_ok.1 hplan
    cases hplan
    rw [hquery]
  have hnames : parameters.map Prod.fst = progress.parameters.names := by
    rw [Plan.names_bind hbind, Plan.entries_compile hplan, hquery]
    rfl
  have hsafe : plan.statement.Safe progress.parameters.names := by
    rw [hstatement]
    exact (hlowered.safe hreads.parameters.covers.2 hq).statement hlowered.tidy
  have hbinds : Environment.Binds ⟨collections, parameters⟩ progress.parameters.names := by
    intro name hname
    rw [← hnames, List.mem_map] at hname
    obtain ⟨p, hp, hname⟩ := hname
    simp only [Environment.parameter?, Option.isSome_map, List.find?_isSome]
    exact ⟨p, hp, by simpa using hname⟩
  have hsound : Sound (plan.statement.run ⟨collections, parameters⟩) :=
    plan.statement.run_sound hbinds hsafe fun k hk => hkeyspaces k (List.mem_eraseDups.2 hk)
  constructor
  · rintro ⟨-, ⟨rows, h⟩ | ⟨clause, found, h⟩⟩ hover <;> rw [h] at hover <;> cases hover
  · refine fun hne => ⟨hcollated.sortsByOrders, ?_⟩
    cases hrun : plan.statement.run ⟨collections, parameters⟩ with
    | ok rows => exact .inl ⟨rows, rfl⟩
    | error e =>
        have he := hsound e hrun
        cases e with
        | invalidRowCount clause found => exact .inr ⟨clause, found, rfl⟩
        | divisionOverflow => exact absurd hrun hne
        | _ => exact he.elim

namespace Sample

/-- The collections of the model with some persons. -/
def collectionsOf (persons : List Document) : Collections :=
  .insert .empty ⟨"app", "_default", "person"⟩ persons

/-- A person of an age. -/
def aged (age : Int) : Document := .object [("age", .ofInt age), ("name", .string "Ann")]

/-- Three persons of different ages. -/
def threePersons : Collections := collectionsOf [aged 30, aged 12, aged 40]

/-- The remainders of all ages after a division by minus one. -/
def remainders : Query :=
  .project (.source "Person" "p") (.scalar (.binary .mod age (.ofValue (.int64 (-1)))))

/-- The two oldest adults, the younger one first: an ordering over another one. -/
def oldestAdults : Query :=
  .orderBy (.take (.orderBy adults age true) (.ofValue (.int64 2))) age false

end Sample

/-- The two oldest adults among three persons: both orderings are by ages. -/
theorem run_translated_adults : ∃ t plan parameters,
    Sample.translator.translate Sample.oldestAdults = .ok t ∧
    Plan.compile .standard ⟨[]⟩ 0 t = .ok plan ∧
    plan.bind Sample.oldestAdults.constants {} = .ok parameters ∧
    (plan.statement.blocks.map fun b => b.clauses.orderBy.length) = [1, 1] ∧
    plan.statement.Collated ⟨Sample.threePersons, parameters⟩ ∧
    plan.statement.Returns ⟨Sample.threePersons, parameters⟩ ∧
    plan.statement.run ⟨Sample.threePersons, parameters⟩ =
      .ok [Sample.aged 30, Sample.aged 40] := by
  obtain ⟨t, plan, parameters, ht, hplan, hbind, hkeyspaces, hblocks, hcollated, hrun⟩ :
      ∃ t plan parameters, Sample.translator.translate Sample.oldestAdults = .ok t ∧
      Plan.compile .standard ⟨[]⟩ 0 t = .ok plan ∧
      plan.bind Sample.oldestAdults.constants {} = .ok parameters ∧
      (∀ k ∈ plan.statement.keyspaces, (Sample.threePersons.documents? k).isSome = true) ∧
      (plan.statement.blocks.map fun b => b.clauses.orderBy.length) = [1, 1] ∧
      plan.statement.Collated ⟨Sample.threePersons, parameters⟩ ∧
      plan.statement.run ⟨Sample.threePersons, parameters⟩ =
        .ok [Sample.aged 30, Sample.aged 40] := by
    refine ⟨_, _, _, rfl, rfl, rfl, by decide, rfl, fun b hb scopes hscopes k hk => ?_, rfl⟩
    -- the keys are the ages of the two adults
    refine collates_ints fun d hd => ?_
    obtain ⟨documents, rows, kept, hsources, hrows, hkept, hscopes⟩ := hscopes
    obtain ⟨scope, hscope, hd⟩ := hd
    have hb : b = _ ∨ b = _ := List.mem_pair.1 hb
    rcases hb with rfl | rfl
    all_goals
      cases hsources
      cases hrows
      cases hkept
      cases hscopes
      cases List.mem_singleton.1 hk
      rcases List.mem_pair.1 hscope with rfl | rfl
      all_goals exact ⟨_, rfl, (Except.ok.inj hd).symm⟩
  have hreturns := (@run_translated Sample.translator Sample.oldestAdults t .standard ⟨[]⟩ 0 plan
    Sample.oldestAdults.constants {} parameters Sample.threePersons ht rfl hplan hbind
    hkeyspaces hcollated).2 (by rw [hrun]; nofun)
  exact ⟨t, plan, parameters, ht, hplan, hbind, hblocks, hcollated, hreturns, hrun⟩

/-- The remainder of the least age after a division by minus one has no end that is expected, and
nothing is sorted. -/
theorem remainders_overflow : ∃ t plan parameters,
    Sample.translator.translate Sample.remainders = .ok t ∧ Sample.remainders.callFree = true ∧
    Plan.compile .standard ⟨[]⟩ 0 t = .ok plan ∧
    plan.bind Sample.remainders.constants {} = .ok parameters ∧
    (∀ k ∈ plan.statement.keyspaces,
      ((Sample.collectionsOf [Sample.aged int64Min]).documents? k).isSome = true) ∧
    plan.statement.Collated ⟨Sample.collectionsOf [Sample.aged int64Min], parameters⟩ ∧
    ¬ plan.statement.Returns ⟨Sample.collectionsOf [Sample.aged int64Min], parameters⟩ := by
  refine ⟨_, _, _, rfl, rfl, rfl, rfl, by decide, ?_, ?_⟩
  · intro b hb scopes _ k hk
    rw [List.mem_singleton.1 hb] at hk
    cases hk
  · rintro ⟨-, ⟨rows, h⟩ | ⟨clause, found, h⟩⟩ <;> cases h

end EntityQuery
