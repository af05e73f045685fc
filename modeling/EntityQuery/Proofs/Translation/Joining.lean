import EntityQuery.Proofs.Evaluation.Blocks
import EntityQuery.Proofs.Plan.Embedding
import EntityQuery.Proofs.Translation.Counting

/-!
# Joining queries

A join becomes a further term of the selection that its left side already is: the conditions and
orderings of the left side act on its rows with what the right side adds to them.  So they keep and
move the block of records that one row of the left side makes, and the rows of the join are those
that one finds by looking at each row of the left side, and for each at all rows of the right side.

* `Matching.rows`: the rows of a join, side by side, from a test of the rows of both.
* `Frame.rows_extend`: a selection with a further term has the rows of a join on its documents.
* `rows_join`: a join of queries has the rows of the join on their rows.
* `rows_join_differ`: a key that is read from a name that a record has twice.
-/

namespace EntityQuery

/-! ## Rows side by side

What a join means is stated on rows: for each row of the left side the rows of the right one on
which a test is true.  The test reads both of them as documents. -/

/-- The fields of an element to which a join adds. -/
def ElementType.recordOf : ElementType → Document → Fields
  | .entity _ aliasName, d => [(aliasName, d)]
  | _, .object fields => fields
  | _, _ => []

/-- The records that a row of the left side makes, which has some fields and matches some rows of
the right side. -/
def Matching.records (matching : Matching) (aliasName : String) (fields : Fields)
    (matched : List Document) : List Document :=
  if matched.isEmpty && matching == .leftOuter then [.object fields]
  else matched.map fun d => .object (Fields.put aliasName d fields)

/-- The rows of a join: for each row of the left side, those that it makes with the rows of the
right side on which the test is true. -/
def Matching.rows (matching : Matching) (aliasName : String) (record : Document → Fields)
    (test : Document → Document → Except EvalError Bool) (left right : List Document) :
    Except EvalError (List Document) := do
  let blocks ← left.mapM fun a => do
    let matched ← keepWhere (test a) right
    .ok (matching.records aliasName (record a) matched)
  .ok blocks.flatten

/-- Whether the keys of two rows are equal, each as it is read through an alias. -/
def keysEqual (env : Environment) (leftAlias rightAlias : String) (leftKey rightKey : Expression)
    (a b : Document) : Except EvalError Bool := do
  let l ← leftKey.eval env (.ofRow (.single leftAlias a))
  let r ← rightKey.eval env (.ofRow (.single rightAlias b))
  .ok (isTrue (← Operator.eq.apply l r))

/-- The keys of a join, as they are read through the aliases of sources that are the statements of
its sides. -/
def Translator.nestedKeys (tr : Translator) (leftAlias rightAlias : String) (left right : Query)
    (leftKey rightKey : Formula) : Translating (Expression × Expression) := do
  let l ← tr.stage left
  let r ← tr.stage right
  let le ← tr.formula (.ofStatement l.statement l.yield leftAlias) leftKey
  let re ← tr.formula (.ofStatement r.statement r.yield rightAlias) rightKey
  pure (le, re)

/-! ## The joined rows

The clauses of the left side act on joined rows, although they were meant for its own.  They act on
a block for each row, of which all members look the same to them. -/

section

variable {env : Environment} {f : Frame} {fields : List (String × FieldYield)} {b : Binding}

/-- The rows of a frame bind the aliases of its source and its terms. -/
lemma Frame.Follows.bound (h : f.Follows env env f) {sources : List Document} {rows : List Row}
    (hrows : runTerms env f.terms (sources.map (Row.single f.source.aliasName)) = .ok rows) :
    ∀ row ∈ rows, row.Matches (f.pairs f) row := by
  have hsources : List.Forall₂ (Row.Matches [(f.source.aliasName, f.source.aliasName)])
      (sources.map (Row.single f.source.aliasName))
      (sources.map (Row.single f.source.aliasName)) := by
    rw [List.forall₂_map_left_iff, List.forall₂_map_right_iff, List.forall₂_same]
    exact fun d _ => .single _ _ d
  obtain ⟨rows', hrows', hmatch⟩ := h.terms.run hsources rows hrows
  cases hrows.symm.trans hrows'
  exact List.forall₂_same.1 hmatch

/-- The document of an element has the fields of the element. -/
lemma Yield.Describes.project_record {y : Yield} {t : ElementType} (h : y.Describes t)
    (hfields : y.scopeFields? = some fields) {scope : Scope} {d : Document}
    (hd : y.selection.project env scope = .ok (some d)) :
    (Yield.record fields).selection.project env scope = .ok (some (.object (t.recordOf d))) := by
  cases y with
  | scalar s => cases hfields
  | entity b =>
      cases hfields
      cases t with
      | entity name aliasName =>
          have hbase : b.base.eval env scope = .ok (some d) := hd
          have halias : b.aliasName = aliasName := h
          refine Computation.map_eq_ok.2 ⟨[(aliasName, d)], ?_, rfl⟩
          rw [← halias]
          exact Computation.bind_of_eq_ok hbase
      | _ => exact h.elim
  | record fields₀ =>
      cases hfields
      obtain ⟨values, hvalues, heq⟩ := Computation.map_eq_ok.1 hd
      cases heq
      cases t with
      | record types => exact hd
      | _ => exact h.elim

/-- A row with a further alias makes the record of the row with a further field. -/
lemma Frame.Follows.project_extend (h : f.Follows env env f)
    (hfields : f.yield.scopeFields? = some fields) (hbase : b.base = .ident b.aliasName)
    (hnew : Unpaired (f.pairs f) b.aliasName) {row : Row} (hrow : row.Matches (f.pairs f) row)
    {values : Fields}
    (hvalues : (Yield.record fields).selection.project env (.ofRow row) =
      .ok (some (.object values))) (d : Datum) :
    (Yield.record (fields ++ [(b.aliasName, .entity b)])).selection.project env
        (.ofRow (row.bind b.aliasName d)) =
      .ok (some (.object (d.elim values fun d => Fields.put b.aliasName d values))) := by
  have hrecord : (Yield.record fields).Related (Expression.Follows env env (f.pairs f))
      (.record fields) := .record (h.parts.yield.scopeFields hfields hfields)
  have hbound : (Yield.record fields).selection.project env (.ofRow (row.bind b.aliasName d)) =
      .ok (some (.object values)) :=
    hrecord.selection.project (.ofRow (hrow.bindNew hnew d)) _ hvalues
  obtain ⟨_, hitems, heq⟩ := Computation.map_eq_ok.1 hbound
  cases heq
  have halias : b.base.eval env (.ofRow (row.bind b.aliasName d)) = .ok d := by
    rw [hbase, Expression.eval, Scope.ofRow, Row.find?_bind_self]
  refine Computation.map_eq_ok.2 ⟨_, ?_, rfl⟩
  rw [List.map_append, projectItems_append]
  refine (Computation.bind_of_eq_ok hitems).trans ((Computation.bind_of_eq_ok halias).trans ?_)
  cases d <;> rfl

/-- The condition of a frame that follows itself does. -/
lemma Frame.Follows.condition (h : f.Follows env env f) {e : Expression} (he : e ∈ f.predicate) :
    e.Follows env env (f.pairs f) e := by
  have hpredicate := h.predicate
  rw [Option.mem_def.1 he] at hpredicate
  cases hpredicate with
  | some he => exact he

/-- The rows that a join makes of one row are made into the records of the row. -/
lemma Frame.Follows.project_joinRow (h : f.Follows env env f)
    (hfields : f.yield.scopeFields? = some fields) (hbase : b.base = .ident b.aliasName)
    (hnew : Unpaired (f.pairs f) b.aliasName) {row : Row} (hrow : row.Matches (f.pairs f) row)
    {values : Fields}
    (hvalues : (Yield.record fields).selection.project env (.ofRow row) =
      .ok (some (.object values)))
    {matching : Matching} {condition : Expression} {test : Document → Except EvalError Bool}
    (htest : ∀ d, condition.holds env (row.bind b.aliasName (some d)) = test d)
    {right : List Document} {block : List Row}
    (hblock : joinRow env matching b.aliasName condition right row = .ok block) :
    ∃ matched, keepWhere test right = .ok matched ∧
      (block.map Scope.ofRow).mapM
          ((Yield.record (fields ++ [(b.aliasName, .entity b)])).selection.project env) =
        .ok ((matching.records b.aliasName values matched).map some) := by
  obtain ⟨matched, hmatched, rfl⟩ := joinRow_eq_ok.1 hblock
  simp only [htest] at hmatched
  refine ⟨matched, hmatched, ?_⟩
  have hproject := h.project_extend hfields hbase hnew hrow hvalues
  rw [Computation.mapM_eq_ok, Matching.records]
  split
  · exact .cons (hproject none) .nil
  · rw [List.map_map, List.map_map, List.forall₂_map_left_iff, List.forall₂_map_right_iff,
      List.forall₂_same]
    exact fun d _ => hproject (some d)

/-- A further term makes a block of each row before the clauses act. -/
lemma Frame.run_extend {matching : Matching} {source : Source} {condition : Expression}
    {sources right rows : List Document} {rows₀ : List Row} (halias : source.aliasName = b.aliasName)
    (hsources : f.source.run env = .ok sources)
    (hrows₀ : runTerms env f.terms (sources.map (Row.single f.source.aliasName)) = .ok rows₀)
    (hright : source.run env = .ok right)
    (h : (f.extend fields (.join matching source condition) b).finish.run env = .ok rows) :
    ∃ block : Row → List Row, (∀ row ∈ rows₀,
        joinRow env matching b.aliasName condition right row = .ok (block row)) ∧
      (f.extend fields (.join matching source condition) b).clauses.run env (rows₀.flatMap block) =
        .ok rows := by
  obtain ⟨sources₁, hsources₁, h⟩ := Computation.bind_eq_ok.1 h
  cases hsources.symm.trans hsources₁
  obtain ⟨joined, hjoined, h⟩ := Computation.bind_eq_ok.1 h
  have hterms : runTerms env (f.terms ++ [.join matching source condition])
      (sources.map (Row.single f.source.aliasName)) = .ok joined := hjoined
  rw [runTerms_append, Computation.bind_of_eq_ok hrows₀] at hterms
  obtain ⟨_, hterm, hnil⟩ := Computation.bind_eq_ok.1 hterms
  cases hnil
  obtain ⟨hdefined, rfl⟩ := Term.run_join_eq_ok hright hterm
  rw [halias] at hdefined h
  refine ⟨_, fun row hrow => ?_, h⟩
  obtain ⟨rows, hrows⟩ := hdefined row hrow
  rw [hrows, Computation.members_of_eq_ok rfl]

/-- **A selection with a further term has the rows of a join on its documents**, provided that it
has a document for each row at which it looks.  The condition of the term is a test of the
documents, from which the values are read that it compares. -/
theorem Frame.rows_extend {matching : Matching} {source : Source} {condition : Expression}
    {left right rows : List Document} {kept : List Row} {record : Document → Fields}
    {test : Document → Document → Except EvalError Bool} (htidy : f.Tidy)
    (hopen : f.isSettled = false) (hfollows : f.Follows env env f)
    (hcollates : ∀ k, Collates (f.finish.Orders env k))
    (hfields : f.yield.scopeFields? = some fields)
    (hfresh : f.takes b.aliasName = false) (hbase : b.base = .ident b.aliasName)
    (halias : source.aliasName = b.aliasName)
    (htidy' : (f.extend fields (.join matching source condition) b).Tidy)
    (hleft : f.finish.run env = .ok left) (hlooks : f.looksAt env = .ok kept)
    (hall : kept.length = left.length) (hright : source.run env = .ok right)
    (hrecord : ∀ scope a, f.yield.selection.project env scope = .ok (some a) →
      (Yield.record fields).selection.project env scope = .ok (some (.object (record a))))
    (htest : ∀ row a d, row.Matches (f.pairs f) row →
      f.yield.selection.project env (.ofRow row) = .ok (some a) →
      condition.holds env (row.bind b.aliasName (some d)) = test a d)
    (hrows : (f.extend fields (.join matching source condition) b).finish.run env = .ok rows) :
    matching.rows b.aliasName record test left right = .ok rows := by
  have hnew : Unpaired (f.pairs f) b.aliasName := Frame.Follows.unpaired hfresh hfresh
  obtain ⟨hdocument, hrow⟩ := f.project_looksAt htidy hopen hleft hlooks hall
  set rowsOf : Document → Except EvalError (List Document) := fun a => do
    let matched ← keepWhere (test a) right
    .ok (matching.records b.aliasName (record a) matched)
  obtain ⟨sources, hsources, hleft⟩ := Computation.bind_eq_ok.1 hleft
  obtain ⟨rows₀, hrows₀, hleft⟩ := Computation.bind_eq_ok.1 hleft
  obtain ⟨block, hblock, hrows⟩ := Frame.run_extend halias hsources hrows₀ hright hrows
  have hkept : f.clauses.kept env rows₀ = .ok kept := by
    rw [← hlooks]
    exact ((Computation.bind_of_eq_ok hsources).trans (Computation.bind_of_eq_ok hrows₀)).symm
  have hkeptRow : ∀ row ∈ kept, row ∈ rows₀ := Clauses.mem_of_kept hkept
  have hmatch : ∀ row ∈ rows₀, row.Matches (f.pairs f) row := hfollows.bound hrows₀
  -- neither conditions nor orderings look at what the right side adds
  have hbound : ∀ row ∈ rows₀, ∀ row' ∈ block row, row.Matches (f.pairs f) row' := by
    intro row hrow row' hrow'
    obtain ⟨d, rfl⟩ := eq_bind_of_joinRow (hblock row hrow) row' hrow'
    exact (hmatch row hrow).bindNew hnew d
  -- each row makes the records that its document does
  have hpiece : ∀ row ∈ kept, ∀ a, f.yield.selection.project env (.ofRow row) = .ok (some a) →
      ∃ records, rowsOf a = .ok records ∧ ((block row).map Scope.ofRow).mapM
          ((Yield.record (fields ++ [(b.aliasName, .entity b)])).selection.project env) =
        .ok (records.map some) := by
    intro row hrow a ha
    obtain ⟨matched, hmatched, hproject⟩ := hfollows.project_joinRow hfields hbase hnew
      (hmatch row (hkeptRow row hrow)) (hrecord _ a ha)
      (htest row a · (hmatch row (hkeptRow row hrow)) ha) (hblock row (hkeptRow row hrow))
    exact ⟨_, Computation.bind_of_eq_ok hmatched, hproject⟩
  have hcollated : f.clauses.Collated env (kept.map .ofRow) :=
    f.collated (f.isUnfolded_clauses htidy (Frame.isSealed_of_isSettled hopen)) hcollates hsources
      hrows₀ hkept
  have hrun : (f.extend fields (.join matching source condition) b).clauses.run env
      (rows₀.flatMap block) = .ok (left.flatMap fun a => Computation.members (rowsOf a)) := by
    refine Clauses.run_flatMap (f.isFlat_clauses htidy hopen) (Frame.isFlat_clauses htidy' hopen)
      rfl rfl hkept hcollated ?_ ?_ ?_ hleft
    · intro row hrow row' hrow' e he
      exact (hfollows.condition he).holds (hbound row hrow row' hrow')
    · intro row hrow row' hrow' k hk
      have hkey := (List.forall₂_same.1 hfollows.orderBy k hk).key
      exact hkey.eval _ _ (.ofRow (hbound row (hkeptRow row hrow) row' hrow'))
    · intro row hrow
      obtain ⟨a, ha⟩ := hdocument row hrow
      obtain ⟨records, hrecords, hproject⟩ := hpiece row hrow a ha
      exact ⟨a, ha, by rwa [Computation.members_of_eq_ok hrecords]⟩
  cases hrun.symm.trans hrows
  obtain ⟨blocks, hblocks⟩ : ∃ blocks, left.mapM rowsOf = .ok blocks := by
    refine Computation.exists_mapM fun a ha => ?_
    obtain ⟨row, hrow, hproject⟩ := hrow a ha
    obtain ⟨records, hrecords, -⟩ := hpiece row hrow a hproject
    exact ⟨records, hrecords⟩
  exact Computation.bind_eq_ok.2 ⟨blocks, hblocks,
    congrArg Except.ok (Computation.flatten_of_mapM hblocks)⟩

end

/-! ## The keys

In the translation the keys are expressions over the frame of the left side, and in what a join
means they are read from documents.  The two are shown to agree. -/

section

variable {env : Environment} {f : Frame}

/-- The document of a row, under an alias, and the row with a further alias. -/
def Frame.LeftRows (env : Environment) (f : Frame) (aliasName bound : String) (s s' : Scope) :
    Prop :=
  ∃ row a d, row.Matches (f.pairs f) row ∧
    f.yield.selection.project env (.ofRow row) = .ok (some a) ∧
    s = .ofRow (.single aliasName a) ∧ s' = .ofRow (row.bind bound d)

/-- A document, under an alias, and a row that it is added to. -/
def RightRows (aliasName bound : String) (s s' : Scope) : Prop :=
  ∃ row d, s = .ofRow (.single aliasName d) ∧ s' = .ofRow (Row.bind row bound (some d))

/-- What is read from the documents of a frame is found in its rows, whatever is added to them. -/
lemma Frame.agree_leftRows (htidy : f.Tidy) (hfollows : f.Follows env env f)
    (hnames : f.yield.names.Nodup) {bound : String} (hnew : Unpaired (f.pairs f) bound)
    (s : Statement) (aliasName : String) :
    (Frame.ofStatement s f.yield aliasName).Agree env (f.LeftRows env aliasName bound) f := by
  have hread : f.yield.Related (f.yield.ReadAs env aliasName) (f.yield.rebase aliasName) :=
    Yield.readAs_rebase hnames aliasName
  have hyield : (f.yield.rebase aliasName).Agree env (f.LeftRows env aliasName bound) f.yield := by
    refine hread.symm.comp hfollows.parts.yield fun e e' e'' he he' => ?_
    rintro s s' ⟨row, a, d, hrow, ha, rfl, rfl⟩
    obtain ⟨v, hv, hv'⟩ := he _ a ha
    rw [hv', he'.eval _ _ (.ofRow (hrow.bindNew hnew d)) v hv]
  refine ⟨hyield, ?_⟩
  rw [htidy.scope]
  exact hyield.bindings

/-- What is read from the documents of the right side is found where they are added. -/
lemma Frame.agreesIn_rightRows {b : Binding} {matching : Matching}
    (hfresh : f.takes b.aliasName = false) (s : Statement) (aliasName : String) :
    (Frame.ofStatement s (.entity b) aliasName).AgreesIn env (RightRows aliasName b.aliasName)
      { f with scope := f.scope ++ [b.joined matching] } where
  property p := by
    refine Frame.property_agree fun b₁ hb₁ => ?_
    have hfind : List.find? (fun b => b.aliasName == p.aliasName)
        [{ b with base := .ident aliasName }] = some b₁ := hb₁
    have hname : b₁.aliasName = p.aliasName := by simpa using List.find?_some hfind
    cases List.mem_singleton.1 (List.mem_of_find?_eq_some hfind)
    have hfree : f.scope.find? (fun b₀ => b₀.aliasName == b.aliasName) = none := by
      simp only [Frame.takes, Bool.or_eq_false_iff] at hfresh
      exact Option.isNone_iff_eq_none.1 (Option.isSome_eq_false_iff.1 hfresh.1.1)
    refine ⟨b.joined matching, ?_, rfl, rfl, ?_⟩
    · rw [← hname, Frame.binding?, List.find?_append, hfree, Option.none_or, List.find?_singleton]
      simp [Binding.joined]
    · rintro _ _ ⟨row, d, rfl, rfl⟩
      rw [eval_ident_single, Binding.joined, Expression.eval, Scope.ofRow, Row.find?_bind_self]
  member name := .unsupported _ _ _
  element := .unsupported _ _ _

end

/-- A formula over a frame that agrees has one translation, whatever aliases have been made up. -/
lemma Translator.formula_agree_withAliases {tr : Translator} {env : Environment}
    {related : Scope → Scope → Prop} {f g : Frame} (h : f.AgreesIn env related g) {a : Formula}
    {p q q' : Progress} {count : Nat} {e e' : Expression} (he : tr.formula f a p = .ok (e, q))
    (he' : tr.formula g a (p.withAliases count) = .ok (e', q')) :
    e.Agree env related e' ∧ q' = q.withAliases count := by
  obtain ⟨e₁, he₁, hagree⟩ := (formula_agree h a).eq_ok he
  rw [(formula_ignoresAliases a).run_withAliases, he₁] at he'
  cases he'
  exact ⟨hagree, rfl⟩

/-- The keys are translated one after the other, behind both sides. -/
lemma Translator.nestedKeys_eq_ok {tr : Translator} {left right : Query} {leftKey rightKey : Formula}
    {leftAlias rightAlias : String} {le re : Expression} {p p₁ p₂ : Progress} {ls rs : Stage}
    (hl : tr.stage left {} = .ok (ls, p₁)) (hr : tr.stage right p₁ = .ok (rs, p₂))
    (h : tr.nestedKeys leftAlias rightAlias left right leftKey rightKey {} = .ok ((le, re), p)) :
    ∃ q, tr.formula (.ofStatement ls.statement ls.yield leftAlias) leftKey p₂ = .ok (le, q) ∧
      tr.formula (.ofStatement rs.statement rs.yield rightAlias) rightKey q = .ok (re, p) := by
  obtain ⟨_, _, hl₁, h⟩ := Translating.bind_eq_ok.1 h
  cases hl.symm.trans hl₁
  obtain ⟨_, _, hr₁, h⟩ := Translating.bind_eq_ok.1 h
  cases hr.symm.trans hr₁
  obtain ⟨_, q, hle, h⟩ := Translating.bind_eq_ok.1 h
  obtain ⟨_, _, hre, h⟩ := Translating.bind_eq_ok.1 h
  cases Translating.pure_eq_ok.1 h
  exact ⟨q, hle, hre⟩

/-- **The condition of a join is the test of its keys**, as they are read from the documents of its
sides. -/
theorem Frame.holds_joinCondition {tr : Translator} {env : Environment} {f : Frame} {b : Binding}
    {matching : Matching} {leftKey rightKey : Formula} (htidy : f.Tidy)
    (hfollows : f.Follows env env f) (hnames : f.yield.names.Nodup)
    (hfresh : f.takes b.aliasName = false) {s s' : Statement} {leftAlias rightAlias : String}
    {le re le' re' : Expression} {p q r q' r' : Progress} {count : Nat}
    (hle : tr.formula (.ofStatement s f.yield leftAlias) leftKey p = .ok (le, q))
    (hre : tr.formula (.ofStatement s' (.entity b) rightAlias) rightKey q = .ok (re, r))
    (hle' : tr.formula { f with scope := f.scope ++ [b.joined matching] } leftKey
      (p.withAliases count) = .ok (le', q'))
    (hre' : tr.formula { f with scope := f.scope ++ [b.joined matching] } rightKey q' =
      .ok (re', r'))
    {row : Row} {a : Document} (d : Document) (hrow : row.Matches (f.pairs f) row)
    (ha : f.yield.selection.project env (.ofRow row) = .ok (some a)) :
    (Expression.binary .eq le' re').holds env (row.bind b.aliasName (some d)) =
      keysEqual env leftAlias rightAlias le re a d := by
  have hnew : Unpaired (f.pairs f) b.aliasName := Frame.Follows.unpaired hfresh hfresh
  have hleft := (f.agree_leftRows htidy hfollows hnames hnew s leftAlias).widened (b.joined matching)
  obtain ⟨hagree, rfl⟩ := Translator.formula_agree_withAliases hleft hle hle'
  have hright : (Frame.ofStatement s' (.entity b) rightAlias).AgreesIn env
      (RightRows rightAlias b.aliasName) { f with scope := f.scope ++ [b.joined matching] } :=
    Frame.agreesIn_rightRows hfresh s' rightAlias
  obtain ⟨hagree', -⟩ := Translator.formula_agree_withAliases hright hre hre'
  rw [Expression.holds, Expression.eval, keysEqual,
    hagree _ _ ⟨row, a, some d, hrow, ha, rfl, rfl⟩, hagree' _ _ ⟨row, d, rfl, rfl⟩]
  cases le'.eval env (.ofRow (row.bind b.aliasName (some d))) with
  | error e => rfl
  | ok l => cases re'.eval env (.ofRow (row.bind b.aliasName (some d))) <;> rfl

/-! ## The left side -/

namespace Stage.Enters

variable {env : Environment} {closed : Frame → Bool} {s : Stage} {f : Frame}

/-- The frame of a stage has the rows of the stage. -/
lemma finish (henter : s.Enters closed f) {documents : List Document}
    (hrun : s.statement.run env = .ok documents) (hfits : ∀ d ∈ documents, s.yield.Fits d) :
    f.finish.run env = .ok documents := by
  cases henter with
  | kept => exact hrun
  | nested => exact Frame.run_ofStatement hrun hfits _
  | compound => exact Frame.run_ofStatement hrun hfits _

lemma names (henter : s.Enters closed f) : f.yield.names = s.yield.names := by
  cases henter with
  | kept => rfl
  | nested => exact Yield.names_rebase ..
  | compound => exact Yield.names_rebase ..

/-- What is read from the documents of a frame is what is read from those of its stage. -/
lemma ofStatement_eq (henter : s.Enters closed f) (statement : Statement) (aliasName : String) :
    Frame.ofStatement statement f.yield aliasName = .ofStatement statement s.yield aliasName := by
  have hrebase : f.yield.rebase aliasName = s.yield.rebase aliasName := by
    cases henter with
    | kept => rfl
    | nested => exact Yield.rebase_rebase ..
    | compound => exact Yield.rebase_rebase ..
  rw [Frame.ofStatement, Frame.ofStatement, hrebase]

/-- A frame orders its rows as its stage does, or not at all. -/
lemma collates (henter : s.Enters closed f) (h : ∀ k, Collates (s.statement.Orders env k)) :
    ∀ k, Collates (f.finish.Orders env k) := by
  have hnone : ∀ statement y aliasName k d,
      ¬ (Frame.ofStatement statement y aliasName).finish.Orders env k d := by
    rintro statement y aliasName k d ⟨hk, -⟩
    cases hk
  cases henter with
  | kept => exact h
  | nested => exact fun k => (h k).mono fun d hd => (hnone _ _ _ k d hd).elim
  | compound => exact fun k => (h k).mono fun d hd => (hnone _ _ _ k d hd).elim

end Stage.Enters

/-! ## Joins of queries

The right side becomes a source under its alias, or is a keyspace already.  In both cases it offers
the rows that it has on its own. -/

/-- **Joins compose.**  If two queries have rows, and so has a join of them, then the latter has the
rows of the join on theirs: for each row of the left side, in order, the records that it makes with
the rows of the right side whose key is equal.  The keys are read through the aliases of sources
that are the statements of the sides. -/
theorem rows_join {tr : Translator} {c : Context} {kind : JoinKind} {left right : Query}
    {leftKey rightKey : Formula} {t₁ t₂ t : Translation} {collections : Collections}
    {parameters₁ parameters₂ parameters : List (String × Document)}
    {rows₁ rows₂ rows : List Document} (hq : left.WellFormed)
    (h₁ : left.HasRows tr c t₁ ⟨collections, parameters₁⟩ rows₁)
    (h₂ : right.HasRows tr c t₂ ⟨collections, parameters₂⟩ rows₂)
    (h : (Query.join kind left right leftKey rightKey).HasRows tr c t ⟨collections, parameters⟩ rows)
    (hnames : t₁.shape.NamesDiffer) (hall : ¬ left.LeavesOut tr ⟨collections, parameters₁⟩)
    (hcollates : ∀ k, Collates (t₁.query.statement.Orders ⟨collections, parameters₁⟩ k))
    {leftAlias rightAlias : String} {le re : Expression} {p : Progress}
    (hkeys : tr.nestedKeys leftAlias rightAlias left right leftKey rightKey {} = .ok ((le, re), p)) :
    ∃ matching entity aliasName, JoinKind.matching? kind = some matching ∧
      right.element = .entity entity aliasName ∧
      matching.rows aliasName left.element.recordOf
        (keysEqual ⟨collections, parameters⟩ leftAlias rightAlias le re) rows₁ rows₂ = .ok rows := by
  obtain ⟨stage, q, hstage, hquery, -, hrows⟩ := h.staged
  obtain ⟨ls, p₁, hl, hquery₁, hshape, hrun₁⟩ := h₁.staged
  obtain ⟨hlowered, hreads⟩ := Translator.stage_eq_ok hstage
  obtain ⟨matching, _, _, rs, p₂, frame, p₃, fields, b, le', p₄, re', hmatching, hl₁, hr, henter,
    hfields, hyield, hfresh, hle', hre', rfl⟩ := Translator.join_eq_ok hstage
  cases hl.symm.trans hl₁
  obtain ⟨hlowered₁, -⟩ := Translator.stage_eq_ok hl
  obtain ⟨hlowered₂, hreads₂⟩ := Translator.stage_eq_ok hr
  obtain ⟨henters, hreads₃⟩ := Stage.enter_eq_ok henter
  obtain ⟨-, hreads₄⟩ := Translator.formula_eq_ok leftKey hle'
  obtain ⟨-, hreads₅⟩ := Translator.formula_eq_ok rightKey hre'
  -- the sides have their rows with the parameters of the join
  have hext : Environment.Extends ⟨collections, parameters⟩ ⟨collections, parameters₁⟩ := by
    refine h₁.extends ?_ (List.append_assoc ..) h.bound
    rw [hquery, hquery₁]
    exact (((hreads₂.trans hreads₃).trans hreads₄).trans hreads₅).parameters.extends
  have hrows₁ : ls.statement.run ⟨collections, parameters⟩ = .ok rows₁ :=
    Statement.run_persists hext _ _ hrun₁
  have hrows₂ : (rs.sourceAs b.aliasName).run ⟨collections, parameters⟩ = .ok rows₂ := by
    have htable : ParameterTable.Binds 0 (Query.join kind left right leftKey rightKey).inputs .empty
        t.query.parameters := by
      rw [hquery]
      exact hreads.parameters
    rw [Stage.run_sourceAs]
    exact h₂.behind hq hl hr htable h.bound
  -- the frame of the left side has its rows, and leaves out none
  have hdistinct := Translator.names_rowShape hshape hnames
  have htidy : frame.Tidy := hlowered₁.tidy.enter henters
  have hfollows : frame.Follows ⟨collections, parameters⟩ ⟨collections, parameters⟩ frame :=
    (hlowered₁.follows hlowered₁ (.refl _ _ _)).enter
      (fun _ _ h => h.isSettled) henters henters
  have hleft := henters.finish hrows₁ (hlowered₁.fits hrows₁)
  obtain ⟨kept, hkept, -, hcomplete⟩ := h₁.looksAt hl henters
  have hcollates' := henters.collates fun k => (hcollates k).mono fun d hd => by
    rw [hquery₁]
    exact Statement.orders_of_extends hext hrun₁ hd
  -- the keys are read from its rows as from its documents
  obtain ⟨count, rfl⟩ := Stage.enter_withAliases henter
  obtain ⟨p₅, hle, hre⟩ := Translator.nestedKeys_eq_ok hl hr hkeys
  rw [← henters.ofStatement_eq] at hle
  have hdescribes := hlowered₂.describes
  rw [hyield] at hre hdescribes
  obtain ⟨entity, hentity⟩ := hdescribes.exists_entity
  refine ⟨matching, entity, b.aliasName, hmatching, hentity, ?_⟩
  refine Frame.rows_extend (b := b.joined matching) htidy henters.isSettled hfollows hcollates'
    hfields hfresh rfl (rs.aliasName_sourceAs _) hlowered.tidy hleft
    (frame.looksAt_persists hext _ hkept) (hcomplete.2 hall) hrows₂ ?_ ?_ hrows
  · exact fun scope a ha => (henters.describes hlowered₁.describes).project_record hfields ha
  · exact fun row a d hrow ha => Frame.holds_joinCondition htidy hfollows
      (henters.names ▸ hdistinct) hfresh hle hre hle' hre' d hrow ha

namespace Sample

/-- The age of a person under an alias. -/
def ageOf (aliasName : String) : Formula :=
  .property ⟨aliasName, "Person", "age", ["age"], .int64, true⟩

/-- The persons above 20 years but for the first person, under another alias. -/
def matchesAboveTwenty : Query :=
  .filter (.skip (.source "Person" "q") (.ofValue (.int64 1)))
    (.binary .gt (ageOf "q") (.ofValue (.int64 20)))

/-- The adults, with those of the same age among them as far as there are any. -/
def adultsMatched : Query := .join .leftOuter adults matchesAboveTwenty age (ageOf "q")

/-- Each person with the persons of the same age, under an alias that is also the name of a field.
-/
def ageTwice : Query :=
  .join .inner
    (.project (.source "Person" "p") (.record [("q", .scalar age), ("person", .entity "Person" "p")]))
    (.source "Person" "q") age (ageOf "q")

/-- The persons of the age that the field holds. -/
def joinedOnField : Query :=
  .join .inner ageTwice (.source "Person" "r") (.member "q" .int64 true) (ageOf "r")

/-- A single person of 30 years. -/
def onePerson : Collections := collectionsOf [aged 30]

end Sample

/-- Of two adults, one is matched. -/
theorem rows_join_adults : ∃ t₁ t₂ t parameters₁ parameters₂ parameters le re p,
    Sample.adults.WellFormed ∧
    Sample.adults.HasRows Sample.translator {} t₁ ⟨Sample.threePersons, parameters₁⟩
      [Sample.aged 30, Sample.aged 40] ∧
    Sample.matchesAboveTwenty.HasRows Sample.translator {} t₂ ⟨Sample.threePersons, parameters₂⟩
      [Sample.aged 40] ∧
    Sample.adultsMatched.HasRows Sample.translator {} t ⟨Sample.threePersons, parameters⟩
      [.object [("p", Sample.aged 30)],
        .object [("p", Sample.aged 40), ("q", Sample.aged 40)]] ∧
    t₁.shape.NamesDiffer ∧
    ¬ Sample.adults.LeavesOut Sample.translator ⟨Sample.threePersons, parameters₁⟩ ∧
    (∀ k, Collates (t₁.query.statement.Orders ⟨Sample.threePersons, parameters₁⟩ k)) ∧
    Sample.translator.nestedKeys "left" "right" Sample.adults Sample.matchesAboveTwenty Sample.age
      (Sample.ageOf "q") {} = .ok ((le, re), p) ∧
    ∃ matching entity aliasName, JoinKind.matching? .leftOuter = some matching ∧
      Sample.matchesAboveTwenty.element = .entity entity aliasName ∧
      matching.rows aliasName Sample.adults.element.recordOf
        (keysEqual ⟨Sample.threePersons, parameters⟩ "left" "right" le re)
        [Sample.aged 30, Sample.aged 40] [Sample.aged 40] =
          .ok [.object [("p", Sample.aged 30)],
            .object [("p", Sample.aged 40), ("q", Sample.aged 40)]] := by
  obtain ⟨t₁, parameters₁, h₁, hnames, hall, hcollates⟩ : ∃ t parameters,
      Sample.adults.HasRows Sample.translator {} t ⟨Sample.threePersons, parameters⟩
        [Sample.aged 30, Sample.aged 40] ∧ t.shape.NamesDiffer ∧
      ¬ Sample.adults.LeavesOut Sample.translator ⟨Sample.threePersons, parameters⟩ ∧
      ∀ k, Collates (t.query.statement.Orders ⟨Sample.threePersons, parameters⟩ k) := by
    have h : Sample.adults.HasRows Sample.translator {} _ ⟨Sample.threePersons, _⟩
        [Sample.aged 30, Sample.aged 40] := ⟨rfl, ⟨⟨[]⟩, 0, _, rfl, rfl⟩, rfl⟩
    refine ⟨_, _, h, trivial, ?_, fun k => collates_ints fun d hd => by cases hd.1⟩
    obtain ⟨kept, hkept, -, hcomplete⟩ := h.looksAt rfl (.kept rfl)
    have hrows : Except.ok kept = .ok [Row.single "p" (Sample.aged 30), .single "p" (Sample.aged 40)] :=
      hkept.symm
    cases hrows
    exact hcomplete.1 rfl
  obtain ⟨t₂, parameters₂, h₂⟩ : ∃ t parameters,
      Sample.matchesAboveTwenty.HasRows Sample.translator {} t ⟨Sample.threePersons, parameters⟩
        [Sample.aged 40] :=
    ⟨_, _, rfl, ⟨⟨[]⟩, 0, _, rfl, rfl⟩, rfl⟩
  obtain ⟨t, parameters, h⟩ : ∃ t parameters,
      Sample.adultsMatched.HasRows Sample.translator {} t ⟨Sample.threePersons, parameters⟩
        [.object [("p", Sample.aged 30)],
          .object [("p", Sample.aged 40), ("q", Sample.aged 40)]] :=
    ⟨_, _, rfl, ⟨⟨[]⟩, 0, _, rfl, rfl⟩, rfl⟩
  obtain ⟨le, re, p, hkeys⟩ : ∃ le re p, Sample.translator.nestedKeys "left" "right" Sample.adults
      Sample.matchesAboveTwenty Sample.age (Sample.ageOf "q") {} = .ok ((le, re), p) :=
    ⟨_, _, _, rfl⟩
  have hq : Sample.adults.WellFormed := ⟨⟩
  exact ⟨t₁, t₂, t, parameters₁, parameters₂, parameters, le, re, p, hq, h₁, h₂, h, hnames, hall,
    hcollates, hkeys, rows_join hq h₁ h₂ h hnames hall hcollates hkeys⟩

/-- A field of a record whose name occurs twice holds a person, but a join on the field finds the
persons of the age that it does not hold. -/
theorem rows_join_differ : ∃ t₁ t₂ t parameters₁ parameters₂ parameters le re p rows,
    Sample.ageTwice.HasRows Sample.translator {} t₁ ⟨Sample.onePerson, parameters₁⟩
      [.object [("person", Sample.aged 30), ("q", Sample.aged 30)]] ∧
    (Query.source "Person" "r").HasRows Sample.translator {} t₂ ⟨Sample.onePerson, parameters₂⟩
      [Sample.aged 30] ∧
    Sample.joinedOnField.HasRows Sample.translator {} t ⟨Sample.onePerson, parameters⟩ rows ∧
    ¬ Sample.ageTwice.LeavesOut Sample.translator ⟨Sample.onePerson, parameters₁⟩ ∧
    (∀ k, Collates (t₁.query.statement.Orders ⟨Sample.onePerson, parameters₁⟩ k)) ∧
    "r" ∉ Sample.ageTwice.element.scopeFields.map Prod.fst ∧
    Sample.translator.nestedKeys "left" "right" Sample.ageTwice (.source "Person" "r")
      (.member "q" .int64 true) (Sample.ageOf "r") {} = .ok ((le, re), p) ∧
    Matching.inner.rows "r" Sample.ageTwice.element.recordOf
      (keysEqual ⟨Sample.onePerson, parameters⟩ "left" "right" le re)
      [.object [("person", Sample.aged 30), ("q", Sample.aged 30)]] [Sample.aged 30] = .ok [] ∧
    rows ≠ [] := by
  have hperson : (Sample.aged 30).equal (.ofInt 30) = false := by
    simp [Document.equal, Document.same, Sample.aged, Document.ofInt]
  have hnone : ∀ {record test} {a b : Document}, test a b = .ok false →
      Matching.inner.rows "r" record test [a] [b] = .ok [] := by
    intro record test a b h
    rw [Matching.rows, List.mapM_cons, keepWhere, h]
    rfl
  refine ⟨_, _, _, _, _, _, _, _, _,
    [.object [("person", Sample.aged 30), ("q", Sample.aged 30), ("r", Sample.aged 30)]],
    ⟨rfl, ⟨⟨[]⟩, 0, _, rfl, rfl⟩, rfl⟩, ⟨rfl, ⟨⟨[]⟩, 0, _, rfl, rfl⟩, rfl⟩,
    ⟨rfl, ⟨⟨[]⟩, 0, _, rfl, rfl⟩, rfl⟩, Query.not_leavesOut_of_record rfl,
    fun k => ?_, by decide, rfl, ?_, List.cons_ne_nil _ _⟩
  · exact collates_ints fun d hd => by cases hd.1
  · refine hnone ?_
    change Except.ok (isTrue (some (.bool ((Sample.aged 30).equal (.ofInt 30))))) = .ok false
    rw [hperson]
    rfl

end EntityQuery
