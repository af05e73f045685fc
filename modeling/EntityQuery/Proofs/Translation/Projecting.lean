import EntityQuery.Proofs.Translation.Folding

/-!
# Folding a projection into a selection

A projection replaces what a selection makes of its rows, also where only a page of its documents is
returned.  The rows of which the selection makes no document, as a bare value is missing, are left
out before the page is counted out, and a projection may leave out other rows than the one that it
replaces.  As long as both leave out the same rows, the projection acts row by row.

* `Statement.selected`: the rows or groups of which a selection makes documents.
* `Query.DropsAlike`: a scalar is missing on the rows that a query leaves out.
* `rows_select`: a query with a scalar projection has the scalars of the rows of the query.
* `rows_select_differ`: a page of ages is not the ages of a page.
-/

namespace EntityQuery

/-- A scalar of the rows of a query, as it is read through the alias of a source that is the
statement of the query. -/
def Translator.nestedScalar (tr : Translator) (aliasName : String) (input : Query)
    (scalar : Formula) : Translating Expression := do
  let stage ← tr.stage input
  tr.formula (.ofStatement stage.statement stage.yield aliasName) scalar

/-- The rows or groups of which a selection makes documents, in order. -/
def Statement.selected (env : Environment) : Statement → Except EvalError (List Scope)
  | .select source terms clauses => do
    let documents ← source.run env
    let rows ← runTerms env terms (documents.map (Row.single source.aliasName))
    clauses.selected env rows
  | .compound .. => .ok []

/-- An expression is missing on the rows of which a frame makes no document.  Where only a page of
the documents is returned, it is missing on no other rows. -/
structure Frame.DropsAlike (env : Environment) (f : Frame) (e : Expression) : Prop where
  dropped : ∀ scopes, f.finish.selected env = .ok scopes → ∀ scope ∈ scopes,
    f.yield.selection.project env scope = .ok none → e.eval env scope = .ok none
  kept : f.isPaged = true → ∀ scopes, f.finish.selected env = .ok scopes → ∀ scope ∈ scopes,
    e.eval env scope = .ok none → f.yield.selection.project env scope = .ok none

/-- A scalar is missing on the rows that a query leaves out, and on no others if the query returns a
page, unless it is asked of the documents of the query. -/
def Query.DropsAlike (tr : Translator) (env : Environment) (q : Query) (scalar : Formula) : Prop :=
  ∀ f p e p', tr.stage q {} = .ok (.frame f, p) → f.isSealed = false →
    tr.formula f scalar p = .ok (e, p') → f.DropsAlike env e

/-! ## Documents and their scalars

A bare value that is missing leaves its row out.  What was left out before and what is left out
after the projection have to be compared, and on a page they may differ. -/

section

variable {scalar : Document → Except EvalError Datum}

/-- Documents have the scalars of the rows of which they are made, if those are missing on the other
rows. -/
lemma scalars_of_dropped {made values : List Datum}
    (h : List.Forall₂ (fun m v => (∀ d, m = some d → scalar d = .ok v) ∧ (m = none → v = none))
      made values) :
    ∃ values', (made.filterMap id).mapM scalar = .ok values' ∧
      values'.filterMap id = values.filterMap id := by
  induction h with
  | nil => exact ⟨[], rfl, rfl⟩
  | @cons m v made values hmv _ ih =>
      obtain ⟨values', hvalues', heq⟩ := ih
      cases m with
      | none =>
          rw [hmv.2 rfl]
          exact ⟨values', hvalues', heq⟩
      | some d =>
          refine ⟨v :: values', ?_, ?_⟩
          · exact Computation.mapM_eq_ok.2 (.cons (hmv.1 d rfl) (Computation.mapM_eq_ok.1 hvalues'))
          · cases v with
            | none => exact heq
            | some v => exact congrArg (v :: ·) heq

/-- Documents have scalars one by one, if those are missing on no row with a document. -/
lemma scalars_of_kept {made values : List Datum}
    (h : List.Forall₂ (fun m v => (∀ d, m = some d → scalar d = .ok v) ∧ (m = none ↔ v = none))
      made values) :
    List.Forall₂ (fun d v => scalar d = .ok (some v)) (made.filterMap id) (values.filterMap id) := by
  induction h with
  | nil => exact .nil
  | @cons m v made values hmv _ ih =>
      cases m with
      | none =>
          rw [hmv.2.1 rfl]
          exact ih
      | some d =>
          cases v with
          | none => cases hmv.2.2 rfl
          | some v => exact .cons (hmv.1 d rfl) ih

end

/-! ## The folded projection

The frame keeps its rows, its conditions and its order, and makes something else of each row.  Where
both leave out the same rows, `OFFSET` and `LIMIT` count the same. -/

section

variable {tr : Translator} {env : Environment} {f : Frame} {scalar : Formula} {y : YieldedScalar}
  {p p' : Progress} {documents documents' : List Document}

/-- With a scalar projection in its place, a frame makes documents of the same rows. -/
lemma Frame.run_yielding (htidy : f.Tidy) (hopen : f.isSealed = false) (hplain : y.expression.Plain)
    (hrun : f.finish.run env = .ok documents)
    (hrun' : (f.yielding (.scalar y)).finish.run env = .ok documents') :
    ∃ scopes made values, f.finish.selected env = .ok scopes ∧
      scopes.mapM (f.yield.selection.project env) = .ok made ∧
      scopes.mapM (y.expression.eval env) = .ok values ∧
      f.clauses.page env (made.filterMap id) = .ok documents ∧
      f.clauses.page env (values.filterMap id) = .ok documents' := by
  set g := f.yielding (.scalar y) with hg
  have hunfolded : f.clauses.IsUnfolded := f.isUnfolded_clauses htidy hopen
  have hunfolded' : g.clauses.IsUnfolded := by
    refine g.isUnfolded_clauses (htidy.yielding fun e he => ?_) hopen
    rw [List.mem_singleton.1 he]
    exact hplain
  obtain ⟨sources, hsources, hrun⟩ := Computation.bind_eq_ok.1 hrun
  obtain ⟨rows, hrows, hrun⟩ := Computation.bind_eq_ok.1 hrun
  obtain ⟨sources₁, hsources₁, hrun'⟩ := Computation.bind_eq_ok.1 hrun'
  cases hsources.symm.trans hsources₁
  obtain ⟨rows₁, hrows₁, hrun'⟩ := Computation.bind_eq_ok.1 hrun'
  cases hrows.symm.trans hrows₁
  obtain ⟨scopes, made, hscopes, hmade, hpage⟩ := hunfolded.run_eq_ok.1 hrun
  obtain ⟨scopes', values, hscopes', hvalues, hpage'⟩ := hunfolded'.run_eq_ok.1 hrun'
  have hselected : g.clauses.selected env rows = f.clauses.selected env rows := by
    simp only [Clauses.selected, hunfolded.scopes_eq, hunfolded'.scopes_eq]
    rfl
  rw [hselected, hscopes] at hscopes'
  cases hscopes'
  refine ⟨scopes, made, values, ?_, hmade, hvalues, hpage, hpage'⟩
  exact Computation.bind_eq_ok.2 ⟨sources, hsources, Computation.bind_eq_ok.2 ⟨rows, hrows, hscopes⟩⟩

/-- **A scalar that is folded into a frame is that of the documents of the frame** when it is read
through the alias of its statement, if both leave out the same rows. -/
theorem Frame.scalars_of_yielding (htidy : f.Tidy) (hopen : f.isSealed = false)
    (hnames : f.yield.names.Nodup) (he : tr.formula f scalar p = .ok (y.expression, p'))
    (hdrops : f.DropsAlike env y.expression) (hrun : f.finish.run env = .ok documents)
    (hrun' : (f.yielding (.scalar y)).finish.run env = .ok documents') (aliasName : String) :
    ∃ e' values, tr.formula (.ofStatement f.finish f.yield aliasName) scalar p = .ok (e', p') ∧
      documents.mapM (fun d => e'.eval env (.ofRow (.single aliasName d))) = .ok values ∧
      documents' = values.filterMap id := by
  have hagree : f.Agree env (f.yield.Reads env aliasName)
      (.ofStatement f.finish f.yield aliasName) := f.agree_ofStatement htidy hnames _ _
  obtain ⟨e', he', hee'⟩ := (Translator.formula_agree hagree.agreesIn scalar).eq_ok he
  have hplain : y.expression.Plain := by
    rw [(Translator.formula_eq_ok scalar he).1]
    exact Translator.plain_expression (htidy.parts hopen) _ _
  obtain ⟨scopes, made, values, hselected, hmade, hvalues, hpage, hpage'⟩ :=
    f.run_yielding htidy hopen hplain hrun hrun'
  -- row by row, what is read of a document is what is computed of its row
  have hpairs := Computation.forall₂_of_mapM_both hmade hvalues
  have hread : ∀ scope m v, f.yield.selection.project env scope = .ok m →
      y.expression.eval env scope = .ok v → ∀ d, m = some d →
        e'.eval env (.ofRow (.single aliasName d)) = .ok v := by
    rintro scope m v hm hv d rfl
    rw [← hee' scope _ ⟨d, hm, rfl⟩, hv]
  have hdropped : ∀ scope ∈ scopes, ∀ m v, f.yield.selection.project env scope = .ok m →
      y.expression.eval env scope = .ok v → m = none → v = none := by
    rintro scope hscope m v hm hv rfl
    exact Except.ok.inj (hv.symm.trans (hdrops.dropped scopes hselected scope hscope hm))
  cases hpaged : f.isPaged with
  | false =>
      obtain ⟨values', hvalues', heq⟩ := scalars_of_dropped (hpairs.imp
        fun m v ⟨scope, hscope, hm, hv⟩ => ⟨hread scope m v hm hv, hdropped scope hscope m v hm hv⟩)
      have hall : ∀ rows, f.clauses.page env rows = .ok rows := by
        obtain ⟨hlimit, hoffset⟩ := Bool.or_eq_false_iff.1 hpaged
        intro rows
        rw [Clauses.page]
        simp only [Frame.clauses, Option.isSome_eq_false_iff, Option.isNone_iff_eq_none] at *
        rw [hlimit, hoffset]
        rfl
      rw [hall] at hpage hpage'
      cases hpage
      cases hpage'
      exact ⟨e', values', he', hvalues', heq.symm⟩
  | true =>
      have hkept : ∀ scope ∈ scopes, ∀ m v, f.yield.selection.project env scope = .ok m →
          y.expression.eval env scope = .ok v → v = none → m = none := by
        rintro scope hscope m v hm hv rfl
        exact Except.ok.inj (hm.symm.trans (hdrops.kept hpaged scopes hselected scope hscope hv))
      have hscalars := Clauses.page_rel (scalars_of_kept (hpairs.imp
        fun m v ⟨scope, hscope, hm, hv⟩ => ⟨hread scope m v hm hv,
          hdropped scope hscope m v hm hv, hkept scope hscope m v hm hv⟩)) hpage hpage'
      refine ⟨e', documents'.map some, he', ?_, ?_⟩
      · exact Computation.mapM_eq_ok.2 (List.forall₂_map_right_iff.2 hscalars)
      · simp

/-- **A scalar of a selection from a statement is that of the documents of the statement**, under
any alias. -/
theorem Frame.scalars_of_nested {s : Statement} {y₀ : Yield} {aliasName : String}
    (hrun : s.run env = .ok documents)
    (he : tr.formula (.ofStatement s y₀ aliasName) scalar p = .ok (y.expression, p'))
    (hrun' : ((Frame.ofStatement s y₀ aliasName).yielding (.scalar y)).finish.run env =
      .ok documents') (aliasName' : String) :
    ∃ e' values, tr.formula (.ofStatement s y₀ aliasName') scalar p = .ok (e', p') ∧
      documents.mapM (fun d => e'.eval env (.ofRow (.single aliasName' d))) = .ok values ∧
      documents' = values.filterMap id := by
  set frame := Frame.ofStatement s y₀ aliasName with hframe
  have htidy : frame.Tidy := .ofStatement s y₀ aliasName
  have hagree : frame.Agree env (Renamed aliasName aliasName') (.ofStatement s y₀ aliasName') :=
    Frame.renamed_ofStatement ..
  obtain ⟨e', he', hee'⟩ := (Translator.formula_agree hagree.agreesIn scalar).eq_ok he
  have hplain : y.expression.Plain := by
    rw [(Translator.formula_eq_ok scalar he).1]
    exact Translator.plain_expression (htidy.parts rfl) _ _
  have hflat : (frame.yielding (.scalar y)).clauses.IsFlat := by
    refine Frame.isFlat_clauses (htidy.yielding fun e he => ?_) rfl
    rw [List.mem_singleton.1 he]
    exact hplain
  obtain ⟨sources, hsources, hrun'⟩ := Computation.bind_eq_ok.1 hrun'
  cases hrun.symm.trans hsources
  obtain ⟨kept, sorted, values, hkept, hsorted, hvalues, rfl⟩ := hflat.run_eq_ok.1 hrun'
  cases hkept
  cases hsorted
  refine ⟨e', values, he', ?_, rfl⟩
  rw [Computation.mapM_eq_ok, List.map_map, List.forall₂_map_left_iff] at hvalues
  refine Computation.mapM_eq_ok.2 (hvalues.imp fun d v hv => ?_)
  rw [← hee' _ _ ⟨d, rfl, rfl⟩]
  exact hv

end

/-! ## Queries with a scalar projection -/

/-- **Selecting acts row by row.**  If a query has rows, and so has the query with a scalar
projection, then the latter has the scalars of the rows of the former, in order and without those
that are missing, provided that both leave out the same rows.  The scalar is read through the alias
of a source that is the statement of the query. -/
theorem rows_select {tr : Translator} {c : Context} {q : Query} {scalar : Formula}
    {t t' : Translation} {collections : Collections} {parameters parameters' : List (String × Document)}
    {rows rows' : List Document} (h : q.HasRows tr c t ⟨collections, parameters⟩ rows)
    (h' : (Query.project q (.scalar scalar)).HasRows tr c t' ⟨collections, parameters'⟩ rows')
    (hnames : t.shape.NamesDiffer) (hdrops : q.DropsAlike tr ⟨collections, parameters'⟩ scalar)
    (aliasName : String) :
    ∃ e p values, tr.nestedScalar aliasName q scalar {} = .ok (e, p) ∧
      rows.mapM (fun d => e.eval ⟨collections, parameters'⟩ (.ofRow (.single aliasName d))) =
        .ok values ∧ rows' = values.filterMap id := by
  obtain ⟨stage, p, hstage, hquery, hshape, hrun⟩ := h.staged
  obtain ⟨stage', p', hstage', hquery', -, hrows'⟩ := h'.staged
  obtain ⟨hlowered, -⟩ := Translator.stage_eq_ok hstage
  -- the scalar is translated after the query
  obtain ⟨stage₁, p₁, hinput, hstage'⟩ := Translating.bind_eq_ok.1 hstage'
  cases hstage.symm.trans hinput
  obtain ⟨frame, p₂, henter, hstage'⟩ := Translating.bind_eq_ok.1 hstage'
  obtain ⟨yield, p₃, hyield, hstage'⟩ := Translating.bind_eq_ok.1 hstage'
  cases Translating.pure_eq_ok.1 hstage'
  obtain ⟨y, p₄, hyield, hpure⟩ := Translating.bind_eq_ok.1 hyield
  cases Translating.pure_eq_ok.1 hpure
  obtain ⟨e, p₅, hscalar, hpure⟩ := Translating.bind_eq_ok.1 hyield
  cases Translating.pure_eq_ok.1 hpure
  obtain ⟨henters, hreads⟩ := Stage.enter_eq_ok henter
  obtain ⟨-, hreads'⟩ := Translator.formula_eq_ok scalar hscalar
  have hext : Environment.Extends ⟨collections, parameters'⟩ ⟨collections, parameters⟩ := by
    refine h.extends ?_ rfl h'.bound
    rw [hquery, hquery']
    exact hreads'.parameters.extends.trans hreads.parameters.extends
  have hrows : stage.statement.run ⟨collections, parameters'⟩ = .ok rows :=
    Statement.run_persists hext _ _ hrun
  have hdistinct := Translator.names_rowShape hshape hnames
  -- the scalar has the same translation where no alias has been made up for its source
  obtain ⟨count, rfl⟩ := Stage.enter_withAliases henter
  obtain ⟨p₆, hscalar⟩ := (Translator.formula_ignoresAliases scalar).eq_ok hscalar
  obtain ⟨e', values, he', hvalues, hrows''⟩ : ∃ e' values,
      tr.formula (.ofStatement stage.statement stage.yield aliasName) scalar p = .ok (e', p₆) ∧
      rows.mapM (fun d => e'.eval ⟨collections, parameters'⟩ (.ofRow (.single aliasName d))) =
        .ok values ∧ rows' = values.filterMap id := by
    cases henters with
    | kept hopen =>
        exact Frame.scalars_of_yielding hlowered.tidy hopen hdistinct hscalar
          (hdrops frame p e p₆ hstage hopen hscalar) hrows hrows' aliasName
    | nested => exact Frame.scalars_of_nested hrows hscalar hrows' aliasName
    | compound => exact Frame.scalars_of_nested hrows hscalar hrows' aliasName
  exact ⟨e', p₆, values, Translating.bind_eq_ok.2 ⟨stage, p, hstage, he'⟩, hvalues, hrows''⟩

namespace Sample

/-- All persons but the first. -/
def others : Query := .skip (.source "Person" "p") (.ofValue (.int64 1))

/-- The first person. -/
def firstPerson : Query := .take (.source "Person" "p") (.ofValue (.int64 1))

/-- A person whose age is not known. -/
def ageless : Document := .object [("name", .string "Bea")]

/-- A person whose age is not known, and one of 30 years. -/
def agelessFirst : Collections := collectionsOf [ageless, aged 30]

end Sample

/-- The ages of all persons but the first, where all ages are known. -/
theorem rows_select_ages : ∃ t t' parameters parameters',
    Sample.others.HasRows Sample.translator {} t ⟨Sample.threePersons, parameters⟩
      [Sample.aged 12, Sample.aged 40] ∧
    (Query.project Sample.others (.scalar Sample.age)).HasRows Sample.translator {} t'
      ⟨Sample.threePersons, parameters'⟩ [.ofInt 12, .ofInt 40] ∧
    t.shape.NamesDiffer ∧
    Sample.others.DropsAlike Sample.translator ⟨Sample.threePersons, parameters'⟩ Sample.age ∧
    ∃ e p values, Sample.translator.nestedScalar "row" Sample.others Sample.age {} = .ok (e, p) ∧
      [Sample.aged 12, Sample.aged 40].mapM (fun d =>
        e.eval ⟨Sample.threePersons, parameters'⟩ (.ofRow (.single "row" d))) = .ok values ∧
      [.ofInt 12, .ofInt 40] = values.filterMap id := by
  obtain ⟨t, parameters, h, hnames⟩ : ∃ t parameters,
      Sample.others.HasRows Sample.translator {} t ⟨Sample.threePersons, parameters⟩
        [Sample.aged 12, Sample.aged 40] ∧ t.shape.NamesDiffer :=
    ⟨_, _, ⟨rfl, ⟨⟨[]⟩, 0, _, rfl, rfl⟩, rfl⟩, trivial⟩
  obtain ⟨t', parameters', h', hdrops⟩ : ∃ t' parameters',
      (Query.project Sample.others (.scalar Sample.age)).HasRows Sample.translator {} t'
        ⟨Sample.threePersons, parameters'⟩ [.ofInt 12, .ofInt 40] ∧
      Sample.others.DropsAlike Sample.translator ⟨Sample.threePersons, parameters'⟩ Sample.age := by
    refine ⟨_, _, ⟨rfl, ⟨⟨[]⟩, 0, _, rfl, rfl⟩, rfl⟩, ?_⟩
    intro f p e p' hstage _ he
    cases hstage
    cases he
    constructor
    · intro scopes hscopes scope hscope hnone
      cases hscopes
      obtain ⟨row, hrow, rfl⟩ := List.mem_map.1 hscope
      obtain ⟨person, -, rfl⟩ := List.mem_map.1 hrow
      cases hnone
    · intro _ scopes hscopes scope hscope hnone
      cases hscopes
      obtain ⟨row, hrow, rfl⟩ := List.mem_map.1 hscope
      obtain ⟨person, hperson, rfl⟩ := List.mem_map.1 hrow
      simp only [List.mem_cons, List.not_mem_nil, or_false] at hperson
      rcases hperson with rfl | rfl | rfl <;> cases hnone
  exact ⟨t, t', parameters, parameters', h, h', hnames, hdrops,
    rows_select h h' hnames hdrops "row"⟩

/-- The first person has no age, but the first of the ages of persons is selected. -/
theorem rows_select_differ : ∃ t t' parameters parameters',
    Sample.firstPerson.HasRows Sample.translator {} t ⟨Sample.agelessFirst, parameters⟩
      [Sample.ageless] ∧
    (Query.project Sample.firstPerson (.scalar Sample.age)).HasRows Sample.translator {} t'
      ⟨Sample.agelessFirst, parameters'⟩ [.ofInt 30] ∧
    ¬ ∃ e p values,
      Sample.translator.nestedScalar "row" Sample.firstPerson Sample.age {} = .ok (e, p) ∧
      [Sample.ageless].mapM (fun d =>
        e.eval ⟨Sample.agelessFirst, parameters'⟩ (.ofRow (.single "row" d))) = .ok values ∧
      [.ofInt 30] = values.filterMap id := by
  refine ⟨_, _, _, _, ⟨rfl, ⟨⟨[]⟩, 0, _, rfl, rfl⟩, rfl⟩, ⟨rfl, ⟨⟨[]⟩, 0, _, rfl, rfl⟩, rfl⟩, ?_⟩
  rintro ⟨e, p, values, he, hvalues, heq⟩
  cases he
  cases hvalues
  cases heq

end EntityQuery
