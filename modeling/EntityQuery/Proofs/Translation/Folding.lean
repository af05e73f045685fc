import EntityQuery.Proofs.Evaluation.Selection
import EntityQuery.Proofs.Plan.Binding
import EntityQuery.Proofs.Translation.Aliases
import EntityQuery.Proofs.Translation.Documents
import EntityQuery.Proofs.Translation.Safety

/-!
# Folding a condition into a selection

A condition on the elements of a query becomes a further condition of the selection that the query
already is, as long as that neither folds nor counts out its rows.  It is then asked of the rows of
the sources, before they are ordered and projected, and in the expressions that the selection
projects.  The rows are the same as if the selection had become a source first, and the condition
had been asked of its documents.

* `Translator.nestedFilter`: the statement of a query as a source, and a condition on its rows.
* `Statement.Orders`: the values that occur as those of a key of an ordering.
* `rows_filter`: a query with a condition has the rows of the query on which the condition is true.
-/

namespace EntityQuery

/-- The rows of a query as those of a source, with a condition on them: the statement, and the
condition as it is read through the alias of the source. -/
def Translator.nestedFilter (tr : Translator) (aliasName : String) (input : Query)
    (predicate : Formula) : Translating (Statement × Expression) := do
  let stage ← tr.stage input
  let frame := Frame.ofStatement stage.statement stage.yield aliasName
  let e ← tr.condition frame "filter" predicate
  pure ((frame.restrict e).finish, e)

/-- Whether the fields of a record have different names. -/
def RowShape.NamesDiffer : RowShape → Prop
  | .record slots => (slots.map fun slot => slot.1.name).Nodup
  | _ => True

/-- A value occurs as that of a key by which a selection orders its rows or groups. -/
def Statement.Orders (env : Environment) : Statement → OrderKey → Datum → Prop
  | .select source terms clauses, k, d =>
    k ∈ clauses.orderBy ∧ ∃ documents rows kept scopes, source.run env = .ok documents ∧
      runTerms env terms (documents.map (Row.single source.aliasName)) = .ok rows ∧
      clauses.kept env rows = .ok kept ∧ clauses.scopes env kept = .ok scopes ∧
      ∃ scope ∈ scopes, k.key.eval env scope = .ok d
  | .compound .., _, _ => False

/-! ## The statement as a source

The result is stated with a second statement, which takes the rows of the first one as its source.
It is what a condition on the elements means, and no folding is done in it. -/

section

variable {env : Environment} {f : Frame} {e : Expression} {documents documents' : List Document}

/-- A frame that is not folded does not aggregate. -/
lemma Frame.isAggregating_clauses (h : f.Tidy) (hgrouped : f.isGrouped = false)
    (hconcluded : f.isConcluded = false) : f.clauses.isAggregating = false := by
  obtain ⟨hgroup, hyield, horder⟩ := h.unfolded hgrouped hconcluded
  have hselection : Expression.anyAggregate f.yield.selection.expressions = false :=
    Expression.anyAggregate_eq_false.2 hyield
  have hkeys : Expression.anyAggregate (f.orderBy.map OrderKey.key) = false := by
    refine Expression.anyAggregate_eq_false.2 fun e he => ?_
    obtain ⟨k, hk, rfl⟩ := List.mem_map.1 he
    exact horder k hk
  simp [Clauses.isAggregating, Frame.clauses, hgroup, hselection, hkeys]

/-- A frame that takes further clauses makes a document of each row. -/
lemma Frame.isUnfolded_clauses (h : f.Tidy) (hopen : f.isSealed = false) :
    f.clauses.IsUnfolded := by
  obtain ⟨⟨hgrouped, hconcluded⟩, hdistinct⟩ := Frame.isSealed_eq_false.1 hopen
  exact ⟨f.isAggregating_clauses h hgrouped hconcluded, hdistinct⟩

/-- A frame that is open for conditions returns all of them. -/
lemma Frame.isFlat_clauses (h : f.Tidy) (hopen : f.isSettled = false) : f.clauses.IsFlat := by
  have hunfolded := f.isUnfolded_clauses h (Frame.isSealed_of_isSettled hopen)
  obtain ⟨hlimit, hoffset⟩ := Bool.or_eq_false_iff.1 (Bool.or_eq_false_iff.1 hopen).1
  exact
    { notAggregating := hunfolded.notAggregating
      notDistinct := hunfolded.notDistinct
      offset := Option.isSome_eq_false_iff.1 hoffset |> Option.isNone_iff_eq_none.1
      limit := Option.isSome_eq_false_iff.1 hlimit |> Option.isNone_iff_eq_none.1 }

/-- The keys of a frame are collated if the values that occur as theirs are. -/
lemma Frame.collated (hunfolded : f.clauses.IsUnfolded)
    (hcollates : ∀ k, Collates (f.finish.Orders env k)) {sources : List Document}
    {rows kept : List Row} (hsources : f.source.run env = .ok sources)
    (hrows : runTerms env f.terms (sources.map (Row.single f.source.aliasName)) = .ok rows)
    (hkept : f.clauses.kept env rows = .ok kept) :
    f.clauses.Collated env (kept.map .ofRow) := by
  intro k hk
  refine (hcollates k).mono fun d hd => ?_
  exact ⟨hk, sources, rows, kept, _, hsources, hrows, hkept, hunfolded.scopes_eq kept, hd⟩

/-- A selection of all rows of a statement has the rows of the statement. -/
lemma Frame.run_ofStatement {s : Statement} {y : Yield} (hrun : s.run env = .ok documents)
    (hfits : ∀ d ∈ documents, y.Fits d) (aliasName : String) :
    (Frame.ofStatement s y aliasName).finish.run env = .ok documents := by
  have hflat : (Frame.ofStatement s y aliasName).clauses.IsFlat :=
    Frame.isFlat_clauses (.ofStatement s y aliasName) rfl
  have hselect : (Frame.ofStatement s y aliasName).finish.run env =
      (Frame.ofStatement s y aliasName).clauses.run env (documents.map (.single aliasName)) :=
    Computation.bind_of_eq_ok hrun
  rw [hselect]
  exact hflat.run_single rfl rfl fun d hd => Yield.project_rebase (hfits d hd) aliasName

/-- **The rows of a selection from a statement are the documents of the statement**, those that
satisfy its condition. -/
theorem run_nested {s : Statement} {y : Yield} {aliasName : String}
    (hrun : s.run env = .ok documents) (hfits : ∀ d ∈ documents, y.Fits d) :
    ((Frame.ofStatement s y aliasName).restrict e).finish.run env = .ok documents' ↔
      keepWhere (fun d => e.holds env (.single aliasName d)) documents = .ok documents' := by
  set frame := Frame.ofStatement s y aliasName with hframe
  have hflat : (frame.clauses.restrict e).IsFlat :=
    (Frame.isFlat_clauses (.ofStatement s y aliasName) rfl).restrict e
  have hselect : (frame.restrict e).finish.run env =
      (frame.clauses.restrict e).run env (documents.map (.single aliasName)) :=
    Computation.bind_of_eq_ok hrun
  have hkept : (frame.clauses.restrict e).kept env (documents.map (.single aliasName)) =
      (keepWhere (fun d => e.holds env (.single aliasName d)) documents).map
        (List.map (.single aliasName)) := keepWhere_map
  have hordered : ∀ scopes, (frame.clauses.restrict e).ordered env scopes = .ok scopes :=
    fun _ => rfl
  -- what is kept is made into the same documents again
  have hproject : ∀ kept : List Document, (∀ d ∈ kept, d ∈ documents) →
      ((kept.map (Row.single aliasName)).map Scope.ofRow).mapM
        (frame.clauses.selection.project env) = .ok (kept.map some) := by
    intro kept hmem
    rw [Computation.mapM_eq_ok, List.map_map, List.forall₂_map_left_iff, List.forall₂_map_right_iff,
      List.forall₂_same]
    exact fun d hd => Yield.project_rebase (hfits d (hmem d hd)) aliasName
  have hmake : ∀ kept : List Document,
      keepWhere (fun d => e.holds env (.single aliasName d)) documents = .ok kept →
      (frame.restrict e).finish.run env = .ok kept := by
    intro kept hkeep
    rw [hselect, hflat.run_eq_ok]
    refine ⟨kept.map (.single aliasName), _, _, ?_, hordered _,
      hproject kept (mem_of_keepWhere hkeep), ?_⟩
    · rw [hkept, hkeep]
      rfl
    · simp
  constructor
  · intro h
    have hrows := h
    rw [hselect, hflat.run_eq_ok] at hrows
    obtain ⟨rows, -, -, hrows, -⟩ := hrows
    rw [hkept] at hrows
    obtain ⟨kept, hkeep, -⟩ := Computation.map_eq_ok.1 hrows
    have : kept = documents' := Except.ok.inj ((hmake kept hkeep).symm.trans h)
    rwa [this] at hkeep
  · exact hmake documents'

end

/-! ## The folded condition

Inside the frame the condition is asked of rows, and outside of documents.  Both agree because what
a frame yields is read back from the documents that are made of it. -/

section

variable {tr : Translator} {env : Environment} {f : Frame} {e : Expression} {predicate : Formula}
  {p p' : Progress} {documents documents' : List Document}

/-- A condition on a frame agrees with the same condition on a frame over its statement. -/
lemma Frame.agree_ofStatement (h : f.Tidy) (hnames : f.yield.names.Nodup) (s : Statement)
    (aliasName : String) :
    f.Agree env (f.yield.Reads env aliasName) (.ofStatement s f.yield aliasName) where
  yield := Yield.agree_rebase hnames aliasName
  scope := by
    rw [h.scope]
    exact (Yield.agree_rebase hnames aliasName).bindings

lemma Frame.renamed_ofStatement (s : Statement) (y : Yield) (aliasName aliasName' : String) :
    (Frame.ofStatement s y aliasName).Agree env (Renamed aliasName aliasName')
      (.ofStatement s y aliasName') where
  yield := y.rebase_agree aliasName aliasName'
  scope := (y.rebase_agree aliasName aliasName').bindings

lemma Expression.Agree.holds {related : Scope → Scope → Prop} {e' : Expression}
    (h : e.Agree env related e') {row row' : Row} (hrows : related (.ofRow row) (.ofRow row')) :
    e'.holds env row' = e.holds env row := by
  simp only [Expression.holds]
  rw [h _ _ hrows]

/-- **A condition that is folded into a frame keeps the documents that satisfy it** when it is read
through the alias of its statement. -/
theorem Frame.keepWhere_of_restrict (htidy : f.Tidy) (hopen : f.isSettled = false)
    (hnames : f.yield.names.Nodup) (hcollates : ∀ k, Collates (f.finish.Orders env k))
    (he : tr.condition f "filter" predicate p = .ok (e, p'))
    (hrun : f.finish.run env = .ok documents)
    (hrun' : (f.restrict e).finish.run env = .ok documents') (aliasName : String) :
    ∃ e', tr.condition (.ofStatement f.finish f.yield aliasName) "filter" predicate p =
        .ok (e', p') ∧
      keepWhere (fun d => e'.holds env (.single aliasName d)) documents = .ok documents' := by
  have hagree : f.Agree env (f.yield.Reads env aliasName)
      (.ofStatement f.finish f.yield aliasName) := f.agree_ofStatement htidy hnames _ _
  obtain ⟨e', he', hee'⟩ := (Translator.condition_agree hagree.agreesIn "filter" predicate).eq_ok he
  refine ⟨e', he', ?_⟩
  have hflat := f.isFlat_clauses htidy hopen
  obtain ⟨sources, hsources, hrun⟩ := Computation.bind_eq_ok.1 hrun
  obtain ⟨rows, hrows, hrun⟩ := Computation.bind_eq_ok.1 hrun
  obtain ⟨sources₁, hsources₁, hrun'⟩ := Computation.bind_eq_ok.1 hrun'
  cases hsources.symm.trans hsources₁
  obtain ⟨rows₁, hrows₁, hrun'⟩ := Computation.bind_eq_ok.1 hrun'
  cases hrows.symm.trans hrows₁
  obtain ⟨kept, -, -, hkept, -⟩ := hflat.run_eq_ok.1 hrun
  have hcollated : f.clauses.Collated env (kept.map .ofRow) :=
    f.collated (f.isUnfolded_clauses htidy (Frame.isSealed_of_isSettled hopen)) hcollates hsources
      hrows hkept
  refine Clauses.run_restrict hflat hkept hcollated (fun row _ d hd => ?_) hrun hrun'
  exact hee'.holds ⟨d, hd, rfl⟩

/-- **A condition on a selection from a statement keeps the documents that satisfy it**, under any
alias. -/
theorem Frame.keepWhere_of_nested {s : Statement} {y : Yield} {aliasName : String}
    (hrun : s.run env = .ok documents) (hfits : ∀ d ∈ documents, y.Fits d)
    (he : tr.condition (.ofStatement s y aliasName) "filter" predicate p = .ok (e, p'))
    (hrun' : ((Frame.ofStatement s y aliasName).restrict e).finish.run env = .ok documents')
    (aliasName' : String) :
    ∃ e', tr.condition (.ofStatement s y aliasName') "filter" predicate p = .ok (e', p') ∧
      keepWhere (fun d => e'.holds env (.single aliasName' d)) documents = .ok documents' := by
  have hagree : (Frame.ofStatement s y aliasName).Agree env (Renamed aliasName aliasName')
      (.ofStatement s y aliasName') := Frame.renamed_ofStatement ..
  obtain ⟨e', he', hee'⟩ := (Translator.condition_agree hagree.agreesIn "filter" predicate).eq_ok he
  refine ⟨e', he', ?_⟩
  rw [← (run_nested hrun hfits).1 hrun']
  congr 1
  funext d
  exact hee'.holds ⟨d, rfl, rfl⟩

end

/-! ## Queries with a condition

A frame that cannot take the condition becomes a source itself.  In both cases the rows are those of
the second statement. -/

/-- With more parameters, the values of keys are those that they had before. -/
lemma Statement.orders_of_extends {env env' : Environment} (hext : env'.Extends env) {s : Statement}
    {documents : List Document} (hrun : s.run env = .ok documents) {k : OrderKey} {d : Datum}
    (h : s.Orders env' k d) : s.Orders env k d := by
  cases s with
  | compound => exact h.elim
  | select source terms clauses =>
      obtain ⟨hk, sources', rows', kept', scopes', hsources', hrows', hkept', hscopes', scope, hscope,
        hd⟩ := h
      obtain ⟨sources, hsources, hrun⟩ := Computation.bind_eq_ok.1 hrun
      obtain ⟨rows, hrows, hrun⟩ := Computation.bind_eq_ok.1 hrun
      obtain ⟨kept, hkept, hrun⟩ := Computation.bind_eq_ok.1 hrun
      obtain ⟨scopes, hscopes, hrun⟩ := Computation.bind_eq_ok.1 hrun
      obtain ⟨sorted, hsorted, -⟩ := Computation.bind_eq_ok.1 hrun
      cases (source.run_persists hext _ hsources).symm.trans hsources'
      cases (runTerms_persists hext terms _ _ hrows).symm.trans hrows'
      cases (clauses.kept_persists hext _ _ hkept).symm.trans hkept'
      cases (clauses.scopes_persists hext _ _ hscopes).symm.trans hscopes'
      obtain ⟨d₀, hd₀⟩ := Clauses.eval_key hsorted hk hscope
      cases (k.key.eval_persists hext _ _ hd₀).symm.trans hd
      exact ⟨hk, _, _, _, _, hsources, hrows, hkept, hscopes, scope, hscope, hd₀⟩

/-- Entering a frame makes up at most an alias. -/
lemma Stage.enter_withAliases {closed : Frame → Bool} {s : Stage} {frame : Frame} {p p' : Progress}
    (h : s.enter closed p = .ok (frame, p')) : ∃ count, p' = p.withAliases count := by
  have hfresh : ∀ s y, (do
      let aliasName ← freshAlias
      pure (Frame.ofStatement s y aliasName) : Translating Frame) p = .ok (frame, p') →
      ∃ count, p' = p.withAliases count := by
    intro s y h
    obtain ⟨aliasName, q, halias, h⟩ := Translating.bind_eq_ok.1 h
    cases freshAlias_eq_ok.1 halias
    cases Translating.pure_eq_ok.1 h
    exact ⟨p.aliases + 1, rfl⟩
  cases s with
  | frame f =>
      rw [enter] at h
      split at h
      · exact hfresh _ _ h
      · cases Translating.pure_eq_ok.1 h
        exact ⟨p.aliases, rfl⟩
  | compound s y => exact hfresh s y h

/-- The fields of a record have the names of its places. -/
lemma Translator.namesDiffer_rowShape {tr : Translator} {y : Yield} {shape : RowShape}
    (h : tr.rowShape y = .ok shape) : shape.NamesDiffer ↔ y.names.Nodup := by
  cases y with
  | entity b =>
      obtain ⟨_, -, h⟩ := Computation.bind_eq_ok.1 h
      cases h
      exact iff_of_true trivial List.nodup_nil
  | scalar s =>
      obtain ⟨_, -, h⟩ := Computation.bind_eq_ok.1 h
      cases h
      exact iff_of_true trivial List.nodup_nil
  | record fields =>
      obtain ⟨slots, hslots, h⟩ := Computation.bind_eq_ok.1 h
      cases h
      have hnames : slots.map (fun slot => slot.1.name) = fields.map Prod.fst := by
        refine Computation.map_eq_map_of_mapM (fun field slot h => ?_) hslots
        rw [recordSlot] at h
        cases hfield : field.2 with
        | scalar s =>
            rw [hfield] at h
            obtain ⟨_, -, h⟩ := Computation.bind_eq_ok.1 h
            cases h
            rfl
        | entity b =>
            rw [hfield] at h
            obtain ⟨_, -, h⟩ := Computation.bind_eq_ok.1 h
            cases h
            rfl
      change (slots.map fun slot => slot.1.name).Nodup ↔ (fields.map Prod.fst).Nodup
      rw [hnames]

lemma Translator.names_rowShape {tr : Translator} {y : Yield} {shape : RowShape}
    (h : tr.rowShape y = .ok shape) (hshape : shape.NamesDiffer) : y.names.Nodup :=
  (tr.namesDiffer_rowShape h).1 hshape

/-- **Folding a condition preserves meaning.**  If a query has rows, and so has the query with a
condition, then the latter has the rows of the former on which the condition is true, in order.  The
condition is read through the alias of a source that is the statement of the query, and the
selection from this source has the same rows. -/
theorem rows_filter {tr : Translator} {c : Context} {q : Query} {predicate : Formula}
    {t t' : Translation} {collections : Collections} {parameters parameters' : List (String × Document)}
    {rows rows' : List Document} (h : q.HasRows tr c t ⟨collections, parameters⟩ rows)
    (h' : (Query.filter q predicate).HasRows tr c t' ⟨collections, parameters'⟩ rows')
    (hnames : t.shape.NamesDiffer)
    (hcollates : ∀ k, Collates (t.query.statement.Orders ⟨collections, parameters⟩ k))
    (aliasName : String) :
    ∃ s e p, tr.nestedFilter aliasName q predicate {} = .ok ((s, e), p) ∧
      s.run ⟨collections, parameters'⟩ = .ok rows' ∧
      keepWhere (fun d => e.holds ⟨collections, parameters'⟩ (.single aliasName d)) rows =
        .ok rows' := by
  obtain ⟨stage, p, hstage, hquery, hshape, hrun⟩ := h.staged
  obtain ⟨stage', p', hstage', hquery', -, hrows'⟩ := h'.staged
  obtain ⟨hlowered, -⟩ := Translator.stage_eq_ok hstage
  -- the condition is translated after the query
  obtain ⟨stage₁, p₁, hinput, hstage'⟩ := Translating.bind_eq_ok.1 hstage'
  cases hstage.symm.trans hinput
  obtain ⟨frame, p₂, henter, hstage'⟩ := Translating.bind_eq_ok.1 hstage'
  obtain ⟨e, p₃, hcondition, hstage'⟩ := Translating.bind_eq_ok.1 hstage'
  cases Translating.pure_eq_ok.1 hstage'
  obtain ⟨henters, hreads⟩ := Stage.enter_eq_ok henter
  obtain ⟨-, hreads'⟩ := Translator.condition_eq_ok hcondition
  have htable : t'.query.parameters.Extends t.query.parameters := by
    rw [hquery, hquery']
    exact hreads'.parameters.extends.trans hreads.parameters.extends
  have hext : Environment.Extends ⟨collections, parameters'⟩ ⟨collections, parameters⟩ :=
    h.extends htable rfl h'.bound
  have hcollates' : ∀ k, Collates (stage.statement.Orders ⟨collections, parameters'⟩ k) := by
    intro k
    refine (hcollates k).mono fun d hd => ?_
    rw [hquery]
    exact Statement.orders_of_extends hext hrun hd
  have hrows : stage.statement.run ⟨collections, parameters'⟩ = .ok rows :=
    Statement.run_persists hext _ _ hrun
  have hdistinct := Translator.names_rowShape hshape hnames
  have hfits := hlowered.fits hrows
  -- the condition has the same translation where no alias has been made up for its source
  obtain ⟨count, rfl⟩ := Stage.enter_withAliases henter
  obtain ⟨p₄, hcondition⟩ :=
    (Translator.condition_ignoresAliases "filter" predicate).eq_ok hcondition
  obtain ⟨e', he', hkeep⟩ : ∃ e', tr.condition (.ofStatement stage.statement stage.yield aliasName)
      "filter" predicate p = .ok (e', p₄) ∧
      keepWhere (fun d => e'.holds ⟨collections, parameters'⟩ (.single aliasName d)) rows =
        .ok rows' := by
    cases henters with
    | kept hopen =>
        exact Frame.keepWhere_of_restrict hlowered.tidy hopen hdistinct hcollates' hcondition hrows
          hrows' aliasName
    | nested => exact Frame.keepWhere_of_nested hrows hfits hcondition hrows' aliasName
    | compound => exact Frame.keepWhere_of_nested hrows hfits hcondition hrows' aliasName
  refine ⟨_, e', p₄, ?_, (run_nested hrows hfits).2 hkeep, hkeep⟩
  refine Translating.bind_eq_ok.2 ⟨stage, p, hstage, ?_⟩
  exact Translating.bind_eq_ok.2 ⟨e', p₄, he', rfl⟩

namespace Sample

/-- The ages of all persons, from the greatest on. -/
def ages : Query :=
  .project (.orderBy (.source "Person" "p") age true) (.record [("age", .scalar age)])

/-- Whether an age is that of an adult. -/
def isAdult : Formula := .binary .ge (.member "age" .int64 true) (.ofValue (.int64 18))

/-- A row that holds an age. -/
def ageRow (age : Int) : Document := .object [("age", .ofInt age)]

end Sample

/-- Of three ages in order, those of adults are found before or behind the projection. -/
theorem rows_filter_ages : ∃ t t' parameters parameters',
    Sample.ages.HasRows Sample.translator {} t ⟨Sample.threePersons, parameters⟩
      [Sample.ageRow 40, Sample.ageRow 30, Sample.ageRow 12] ∧
    (Query.filter Sample.ages Sample.isAdult).HasRows Sample.translator {} t'
      ⟨Sample.threePersons, parameters'⟩ [Sample.ageRow 40, Sample.ageRow 30] ∧
    t.shape.NamesDiffer ∧
    (∀ k, Collates (t.query.statement.Orders ⟨Sample.threePersons, parameters⟩ k)) ∧
    ∃ s e p, Sample.translator.nestedFilter "row" Sample.ages Sample.isAdult {} = .ok ((s, e), p) ∧
      s.run ⟨Sample.threePersons, parameters'⟩ = .ok [Sample.ageRow 40, Sample.ageRow 30] ∧
      keepWhere (fun d => e.holds ⟨Sample.threePersons, parameters'⟩ (.single "row" d))
        [Sample.ageRow 40, Sample.ageRow 30, Sample.ageRow 12] =
          .ok [Sample.ageRow 40, Sample.ageRow 30] := by
  obtain ⟨t, parameters, h, hnames, hcollates⟩ : ∃ t parameters,
      Sample.ages.HasRows Sample.translator {} t ⟨Sample.threePersons, parameters⟩
        [Sample.ageRow 40, Sample.ageRow 30, Sample.ageRow 12] ∧ t.shape.NamesDiffer ∧
      ∀ k, Collates (t.query.statement.Orders ⟨Sample.threePersons, parameters⟩ k) := by
    refine ⟨_, _, ⟨rfl, ⟨⟨[]⟩, 0, _, rfl, rfl⟩, rfl⟩, List.pairwise_singleton _ _, fun k => ?_⟩
    refine collates_ints fun d hd => ?_
    obtain ⟨hk, _, _, _, _, hsources, hrows, hkept, hscopes, scope, hscope, hd⟩ := hd
    cases List.mem_singleton.1 hk
    cases hsources
    cases hrows
    cases hkept
    cases hscopes
    rcases List.mem_map.1 hscope with ⟨row, hrow, rfl⟩
    obtain ⟨person, hperson, rfl⟩ := List.mem_map.1 hrow
    simp only [List.mem_cons, List.not_mem_nil, or_false] at hperson
    rcases hperson with rfl | rfl | rfl
    · cases hd
      exact ⟨30, rfl, rfl⟩
    · cases hd
      exact ⟨12, rfl, rfl⟩
    · cases hd
      exact ⟨40, rfl, rfl⟩
  obtain ⟨t', parameters', h'⟩ : ∃ t' parameters',
      (Query.filter Sample.ages Sample.isAdult).HasRows Sample.translator {} t'
        ⟨Sample.threePersons, parameters'⟩ [Sample.ageRow 40, Sample.ageRow 30] :=
    ⟨_, _, rfl, ⟨⟨[]⟩, 0, _, rfl, rfl⟩, rfl⟩
  exact ⟨t, t', parameters, parameters', h, h', hnames, hcollates,
    rows_filter h h' hnames hcollates "row"⟩

end EntityQuery
