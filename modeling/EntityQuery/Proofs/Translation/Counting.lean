import EntityQuery.Proofs.Translation.Projecting
import Mathlib.Data.List.ReduceOption

/-!
# Counting the rows of a query

A terminal that counts the elements of a query replaces what its selection makes of rows, and counts
the rows themselves.  These are as many as the documents, unless a row is left out as the bare value
that is made of it is missing.

* `Frame.looksAt`: the rows of which a frame makes documents.
* `Query.LeavesOut`: a query makes no document of a row.
* `rows_count`: what is counted, and when it is the number of the rows of the query.
* `rows_count_differ`: the ages that are counted are more than those that are selected.
-/

namespace EntityQuery

/-- The rows of which a frame makes documents, before they are ordered. -/
def Frame.looksAt (env : Environment) (f : Frame) : Except EvalError (List Row) := do
  let documents ← f.source.run env
  let rows ← runTerms env f.terms (documents.map (Row.single f.source.aliasName))
  f.clauses.kept env rows

/-- A query makes no document of a row at which it looks, as the bare value that it selects is
missing.  What has become a source has documents only. -/
def Query.LeavesOut (tr : Translator) (env : Environment) (q : Query) : Prop :=
  ∃ f p scopes, tr.stage q {} = .ok (.frame f, p) ∧ f.isSettled = false ∧
    f.finish.selected env = .ok scopes ∧
    ∃ scope ∈ scopes, f.yield.selection.project env scope = .ok none

/-! ## Frames

Rows are counted before the documents are made, and documents are counted by whoever reads them.
The difference is the rows of which a bare value is missing. -/

section

variable {env env' : Environment} {f : Frame} {documents : List Document}

lemma Frame.looksAt_persists (hext : env'.Extends env) (f : Frame) :
    Persists (f.looksAt env) (f.looksAt env') :=
  (f.source.run_persists hext).bind fun _ =>
    (runTerms_persists hext _ _).bind fun _ => f.clauses.kept_persists hext _

/-- A frame over a statement looks at the rows of the statement. -/
lemma Frame.looksAt_ofStatement {s : Statement} (hrun : s.run env = .ok documents) (y : Yield)
    (aliasName : String) :
    (Frame.ofStatement s y aliasName).looksAt env = .ok (documents.map (.single aliasName)) :=
  Computation.bind_of_eq_ok hrun

/-- A frame makes documents of the rows at which it looks, in order. -/
lemma Frame.selected_eq_ok (htidy : f.Tidy) (hopen : f.isSettled = false) {sources : List Document}
    {rows kept : List Row} {sorted : List Scope} (hsources : f.source.run env = .ok sources)
    (hrows : runTerms env f.terms (sources.map (Row.single f.source.aliasName)) = .ok rows)
    (hkept : f.clauses.kept env rows = .ok kept)
    (hsorted : f.clauses.ordered env (kept.map .ofRow) = .ok sorted) :
    f.finish.selected env = .ok sorted := by
  have hunfolded := f.isUnfolded_clauses htidy (Frame.isSealed_of_isSettled hopen)
  refine Computation.bind_eq_ok.2 ⟨sources, hsources, Computation.bind_eq_ok.2 ⟨rows, hrows, ?_⟩⟩
  refine Computation.bind_eq_ok.2 ⟨kept, hkept, ?_⟩
  rw [hunfolded.scopes_eq]
  exact hsorted

/-- A frame returns at most as many documents as it looks at rows, and as many if it leaves out
none. -/
lemma Frame.length_looksAt (htidy : f.Tidy) (hopen : f.isSettled = false)
    (hrun : f.finish.run env = .ok documents) :
    ∃ kept, f.looksAt env = .ok kept ∧ documents.length ≤ kept.length ∧
      (kept.length = documents.length ↔ ¬ ∃ scopes, f.finish.selected env = .ok scopes ∧
        ∃ scope ∈ scopes, f.yield.selection.project env scope = .ok none) := by
  obtain ⟨sources, hsources, hrun⟩ := Computation.bind_eq_ok.1 hrun
  obtain ⟨rows, hrows, hrun⟩ := Computation.bind_eq_ok.1 hrun
  obtain ⟨kept, sorted, made, hkept, hsorted, hmade, rfl⟩ :=
    (f.isFlat_clauses htidy hopen).run_eq_ok.1 hrun
  have hselected : f.finish.selected env = .ok sorted :=
    f.selected_eq_ok htidy hopen hsources hrows hkept hsorted
  have hlength : kept.length = made.length := by
    rw [← (Computation.mapM_eq_ok.1 hmade).length_eq, (Clauses.ordered_perm hsorted).length_eq,
      List.length_map]
  -- a document is left out exactly if its value is missing
  have hmissing : (∃ scopes, f.finish.selected env = .ok scopes ∧
      ∃ scope ∈ scopes, f.yield.selection.project env scope = .ok none) ↔ none ∈ made := by
    constructor
    · rintro ⟨scopes, hscopes, scope, hscope, hnone⟩
      cases hselected.symm.trans hscopes
      obtain ⟨m, hm, hvalue⟩ := Computation.exists_of_mapM hmade scope hscope
      cases hnone.symm.trans hvalue
      exact hm
    · intro hnone
      obtain ⟨scope, hscope, hvalue⟩ := Computation.exists_of_mem_mapM hmade none hnone
      exact ⟨sorted, hselected, scope, hscope, hvalue⟩
  have hall : (∀ m ∈ made, m.isSome = true) ↔ none ∉ made := by
    constructor
    · exact fun h hnone => Bool.false_ne_true (h none hnone)
    · exact fun h m hm => Option.isSome_iff_ne_none.2 fun heq => h (heq ▸ hm)
  refine ⟨kept, ?_, hlength ▸ made.reduceOption_length_le, ?_⟩
  · exact Computation.bind_eq_ok.2 ⟨sources, hsources, Computation.bind_eq_ok.2 ⟨rows, hrows, hkept⟩⟩
  · rw [hmissing, hlength, ← hall, ← List.reduceOption_length_eq_iff, eq_comm]
    rfl

/-- If a frame returns as many documents as it looks at rows, each row has a document and each
document has a row. -/
lemma Frame.project_looksAt (htidy : f.Tidy) (hopen : f.isSettled = false)
    (hrun : f.finish.run env = .ok documents) {kept : List Row} (hkept : f.looksAt env = .ok kept)
    (hlength : kept.length = documents.length) :
    (∀ row ∈ kept, ∃ d, f.yield.selection.project env (.ofRow row) = .ok (some d)) ∧
      ∀ d ∈ documents, ∃ row ∈ kept, f.yield.selection.project env (.ofRow row) = .ok (some d) := by
  obtain ⟨kept₀, hkept₀, -, hcomplete⟩ := f.length_looksAt htidy hopen hrun
  cases hkept.symm.trans hkept₀
  have hmissing := hcomplete.1 hlength
  obtain ⟨sources, hsources, hrun⟩ := Computation.bind_eq_ok.1 hrun
  obtain ⟨rows, hrows, hrun⟩ := Computation.bind_eq_ok.1 hrun
  obtain ⟨kept₁, sorted, made, hkept₁, hsorted, hmade, rfl⟩ :=
    (f.isFlat_clauses htidy hopen).run_eq_ok.1 hrun
  have hlooks : f.looksAt env = .ok kept₁ :=
    Computation.bind_eq_ok.2 ⟨sources, hsources, Computation.bind_eq_ok.2 ⟨rows, hrows, hkept₁⟩⟩
  cases hkept.symm.trans hlooks
  have hselected := f.selected_eq_ok htidy hopen hsources hrows hkept₁ hsorted
  have hperm := Clauses.ordered_perm hsorted
  constructor
  · intro row hrow
    have hmem : Scope.ofRow row ∈ sorted := hperm.mem_iff.2 (List.mem_map_of_mem hrow)
    obtain ⟨m, -, hm⟩ := Computation.exists_of_mapM hmade _ hmem
    cases m with
    | none => exact (hmissing ⟨sorted, hselected, _, hmem, hm⟩).elim
    | some d => exact ⟨d, hm⟩
  · intro d hd
    obtain ⟨m, hm, rfl⟩ := List.mem_filterMap.1 hd
    obtain ⟨scope, hscope, hproject⟩ := Computation.exists_of_mem_mapM hmade _ hm
    obtain ⟨row, hrow, rfl⟩ := List.mem_map.1 (hperm.mem_iff.1 hscope)
    exact ⟨row, hrow, hproject⟩

/-- A frame that is concluded makes one scalar of the rows at which it looks. -/
lemma Frame.run_concluded (htidy : f.Tidy) (hopen : f.isSettled = false) {y : YieldedScalar}
    (hy : y.expression.hasAggregate = true) {kept : List Row} (hkept : f.looksAt env = .ok kept) :
    (f.concluded y).finish.run env =
      (y.expression.eval env ⟨kept.head?.getD .empty, some kept⟩).map Option.toList := by
  have hflat := f.isFlat_clauses htidy hopen
  obtain ⟨⟨hgrouped, hconcluded⟩, -⟩ :=
    Frame.isSealed_eq_false.1 (Frame.isSealed_of_isSettled hopen)
  have hgroup : f.groupBy = [] := (htidy.unfolded hgrouped hconcluded).1
  obtain ⟨sources, hsources, hkept⟩ := Computation.bind_eq_ok.1 hkept
  obtain ⟨rows, hrows, hkept⟩ := Computation.bind_eq_ok.1 hkept
  set c := (f.concluded y).clauses with hc
  have haggregating : c.isAggregating = true :=
    Clauses.aggregating_of_hasAggregate (.inl (List.mem_singleton_self _)) hy
  have hscopes : c.scopes env kept = .ok [⟨kept.head?.getD .empty, some kept⟩] := by
    have hempty : c.groupBy.isEmpty = true := by
      rw [hc, Frame.clauses, Frame.concluded, hgroup]
      rfl
    rw [Clauses.scopes, haggregating, hempty]
    rfl
  have hpage : ∀ documents, c.page env documents = .ok documents := by
    intro documents
    have hoffset : c.offset = none := hflat.offset
    have hlimit : c.limit = none := hflat.limit
    rw [Clauses.page, hoffset, hlimit]
    rfl
  have hdistinct : c.distinct = false := hflat.notDistinct
  have hmake : ∀ scope, ([scope].mapM (c.selection.project env) >>= fun made =>
      c.page env (if c.distinct then dedupe (made.filterMap id) else made.filterMap id)) =
        (y.expression.eval env scope).map Option.toList := by
    intro scope
    have hvalue : c.selection.project env scope = y.expression.eval env scope := rfl
    rw [List.mapM_cons, List.mapM_nil, hvalue, hdistinct]
    rcases y.expression.eval env scope with error | _ | d
    · rfl
    · exact hpage []
    · exact hpage [d]
  rw [← hmake]
  refine (Computation.bind_of_eq_ok hsources).trans ((Computation.bind_of_eq_ok hrows).trans ?_)
  exact (Computation.bind_of_eq_ok hkept).trans (Computation.bind_of_eq_ok hscopes)

end

/-! ## Queries

A terminal enters the frame of its query.  If that is closed, it becomes a source first, and from
then on there is a document of every row. -/

/-- A stage always leads to a frame. -/
lemma Stage.exists_enter (closed : Frame → Bool) (s : Stage) (p : Progress) :
    ∃ frame p', s.enter closed p = .ok (frame, p') := by
  cases s with
  | frame f =>
      rw [enter]
      split
      · exact ⟨_, _, rfl⟩
      · exact ⟨_, _, rfl⟩
  | compound s y => exact ⟨_, _, rfl⟩

/-- Records are made of all rows, whatever is missing from them. -/
lemma Query.not_leavesOut_of_record {tr : Translator} {env : Environment} {q : Query}
    {types : List (String × ElementType)} (h : q.element = .record types) : ¬ q.LeavesOut tr env := by
  rintro ⟨f, p, scopes, hstage, -, -, scope, -, hnone⟩
  have hdescribes := (Translator.stage_eq_ok hstage).1.describes
  rw [h] at hdescribes
  obtain ⟨fields, hfields⟩ : ∃ fields, f.yield = .record fields := by
    cases hyield : f.yield with
    | record fields => exact ⟨fields, rfl⟩
    | _ =>
        rw [Stage.yield, hyield] at hdescribes
        exact hdescribes.elim
  rw [hfields] at hnone
  obtain ⟨values, -, heq⟩ := Computation.map_eq_ok.1 hnone
  cases heq

/-- **The frame of a query looks at as many rows as the query has**, unless the query leaves out one
of those at which it looks. -/
theorem Query.HasRows.looksAt {tr : Translator} {c : Context} {q : Query} {t : Translation}
    {env : Environment} {rows : List Document} (h : q.HasRows tr c t env rows) {stage : Stage}
    {p : Progress} (hstage : tr.stage q {} = .ok (stage, p)) {frame : Frame}
    (henters : stage.Enters Frame.isSettled frame) :
    ∃ kept, frame.looksAt env = .ok kept ∧ rows.length ≤ kept.length ∧
      (kept.length = rows.length ↔ ¬ q.LeavesOut tr env) := by
  obtain ⟨_, _, hstage₀, -, -, hrows⟩ := h.staged
  cases hstage₀.symm.trans hstage
  obtain ⟨hlowered, -⟩ := Translator.stage_eq_ok hstage
  -- what has become a source has a row for each document
  have hnested : ∀ s y₀ aliasName, frame = .ofStatement s y₀ aliasName → s.run env = .ok rows →
      ¬ q.LeavesOut tr env →
      ∃ kept, frame.looksAt env = .ok kept ∧ rows.length ≤ kept.length ∧
        (kept.length = rows.length ↔ ¬ q.LeavesOut tr env) := by
    rintro s y₀ aliasName rfl hrun hnone
    have hlength : (rows.map (Row.single aliasName)).length = rows.length := List.length_map _
    exact ⟨_, Frame.looksAt_ofStatement hrun y₀ aliasName, Nat.le_of_eq hlength.symm,
      iff_of_true hlength hnone⟩
  cases henters with
  | kept hopen =>
      obtain ⟨kept, hkept, hle, heq⟩ := frame.length_looksAt hlowered.tidy hopen hrows
      refine ⟨kept, hkept, hle, heq.trans (not_congr ?_)⟩
      constructor
      · rintro ⟨scopes, hscopes, hnone⟩
        exact ⟨frame, p, scopes, hstage, hopen, hscopes, hnone⟩
      · rintro ⟨f, p₀, scopes, hf, -, hscopes, hnone⟩
        cases hstage.symm.trans hf
        exact ⟨scopes, hscopes, hnone⟩
  | nested hclosed aliasName =>
      refine hnested _ _ aliasName rfl hrows ?_
      rintro ⟨f, p₀, scopes, hf, hopen, -⟩
      cases hstage.symm.trans hf
      exact Bool.false_ne_true (hopen.symm.trans hclosed)
  | compound aliasName =>
      refine hnested _ _ aliasName rfl hrows ?_
      rintro ⟨f, p₀, scopes, hf, -⟩
      cases hstage.symm.trans hf

/-- A frame that is entered takes conditions and an order. -/
lemma Stage.Enters.isSettled {s : Stage} {f : Frame} (henters : s.Enters Frame.isSettled f) :
    f.isSettled = false := by
  cases henters with
  | kept hopen => exact hopen
  | nested => rfl
  | compound => rfl

/-- **A terminal that counts is an aggregate of the rows at which its query looks.** -/
theorem Query.HasRows.concluded {tr : Translator} {c : Context} {q : Query} {t : Translation}
    {collections : Collections} {parameters : List (String × Document)} {rows : List Document}
    (h : q.HasRows tr c t ⟨collections, parameters⟩ rows) :
    ∃ kept : List Row, rows.length ≤ kept.length ∧
      (kept.length = rows.length ↔ ¬ q.LeavesOut tr ⟨collections, parameters⟩) ∧
      ∀ {terminal : Terminal} {y : YieldedScalar} {t' : Translation}
        {parameters' : List (String × Document)} {rows' : List Document},
        (∀ frame, tr.terminal frame terminal none = pure (frame, y)) →
        y.expression.hasAggregate = true →
        (Query.conclude q terminal none).HasRows tr c t' ⟨collections, parameters'⟩ rows' →
        (y.expression.eval ⟨collections, parameters'⟩ ⟨kept.head?.getD .empty, some kept⟩).map
          Option.toList = .ok rows' := by
  obtain ⟨stage, p, hstage, hquery, -⟩ := h.staged
  obtain ⟨hlowered, -⟩ := Translator.stage_eq_ok hstage
  obtain ⟨frame, p₂, henter⟩ := stage.exists_enter Frame.isSettled p
  obtain ⟨henters, hreads⟩ := Stage.enter_eq_ok henter
  have htidy : frame.Tidy := hlowered.tidy.enter henters
  obtain ⟨kept, hkept, hle, heq⟩ := h.looksAt hstage henters
  refine ⟨kept, hle, heq, fun {terminal y t' parameters' rows'} hterminal hy h' => ?_⟩
  obtain ⟨stage', p', hstage', hquery', -, hrows'⟩ := h'.staged
  obtain ⟨stage₁, p₁, hinput, hstage'⟩ := Translating.bind_eq_ok.1 hstage'
  cases hstage.symm.trans hinput
  obtain ⟨frame₁, p₃, henter₁, hstage'⟩ := Translating.bind_eq_ok.1 hstage'
  cases henter.symm.trans henter₁
  rw [hterminal] at hstage'
  cases Translating.pure_eq_ok.1 hstage'
  have hext : Environment.Extends ⟨collections, parameters'⟩ ⟨collections, parameters⟩ := by
    refine h.extends ?_ rfl h'.bound
    rw [hquery, hquery']
    exact hreads.parameters.extends
  rw [← Frame.run_concluded htidy henters.isSettled hy (frame.looksAt_persists hext _ hkept)]
  exact hrows'

/-- A number of rows is compared with none as a number. -/
lemma collate_ofInt_zero {n : Nat} (hfits : fitsInt64 n = true) :
    (Document.ofInt n).collate (.ofInt 0) = compare (n : Int) 0 := by
  have hzero : fitsInt64 0 = true := by decide
  rw [Document.ofInt, Document.ofInt, Document.collate, Number.compare, Number.toInt64?,
    Number.toInt64?, if_pos hfits, if_pos hzero]

/-- **Counting agrees with the rows of a query unless a row is left out.**  If a query has rows,
then counting its elements gives a single number, which is that of the rows exactly if the query
leaves out none at which it looks, and is greater otherwise.  Asking whether there are any elements
tells whether this number is positive, as long as it is one of 64 bits. -/
theorem rows_count {tr : Translator} {c : Context} {q : Query} {t t₁ t₂ : Translation}
    {collections : Collections} {parameters parameters₁ parameters₂ : List (String × Document)}
    {rows counted decided : List Document}
    (h : q.HasRows tr c t ⟨collections, parameters⟩ rows)
    (hcount : (Query.conclude q .count none).HasRows tr c t₁ ⟨collections, parameters₁⟩ counted)
    (hany : (Query.conclude q .any none).HasRows tr c t₂ ⟨collections, parameters₂⟩ decided) :
    ∃ n : Nat, counted = [.ofInt n] ∧
      (fitsInt64 n = true → decided = [.bool (decide (0 < n))]) ∧ rows.length ≤ n ∧
      (n = rows.length ↔ ¬ q.LeavesOut tr ⟨collections, parameters⟩) := by
  obtain ⟨kept, hle, heq, hconcluded⟩ := h.concluded
  refine ⟨kept.length, ?_, fun hfits => ?_, hle, heq⟩
  · have hvalue := hconcluded (fun _ => rfl) rfl hcount
    exact (Except.ok.inj hvalue).symm
  · have hvalue := hconcluded (fun _ => rfl) rfl hany
    have hgreater : ((Document.ofInt kept.length).collate (.ofInt 0) == .gt) =
        decide (0 < kept.length) := by
      rw [collate_ofInt_zero hfits, Bool.eq_iff_iff, beq_iff_eq, Int.compare_eq_gt,
        decide_eq_true_iff]
      exact Int.natCast_pos
    rw [← hgreater]
    exact (Except.ok.inj hvalue).symm

namespace Sample

/-- The ages of all persons, as far as they are known. -/
def knownAges : Query := .project (.source "Person" "p") (.scalar age)

/-- A single person, whose age is not known. -/
def agelessOnly : Collections := collectionsOf [ageless]

end Sample

/-- Three ages are counted. -/
theorem rows_count_ages : ∃ t t₁ t₂ parameters parameters₁ parameters₂,
    Sample.knownAges.HasRows Sample.translator {} t ⟨Sample.threePersons, parameters⟩
      [.ofInt 30, .ofInt 12, .ofInt 40] ∧
    (Query.conclude Sample.knownAges .count none).HasRows Sample.translator {} t₁
      ⟨Sample.threePersons, parameters₁⟩ [.ofInt 3] ∧
    (Query.conclude Sample.knownAges .any none).HasRows Sample.translator {} t₂
      ⟨Sample.threePersons, parameters₂⟩ [.bool true] ∧
    ∃ n : Nat, [Document.ofInt 3] = [.ofInt n] ∧
      (fitsInt64 n = true → [Document.bool true] = [.bool (decide (0 < n))]) ∧ 3 ≤ n ∧
      (n = 3 ↔ ¬ Sample.knownAges.LeavesOut Sample.translator ⟨Sample.threePersons, parameters⟩) := by
  obtain ⟨t, parameters, h⟩ : ∃ t parameters,
      Sample.knownAges.HasRows Sample.translator {} t ⟨Sample.threePersons, parameters⟩
        [.ofInt 30, .ofInt 12, .ofInt 40] :=
    ⟨_, _, rfl, ⟨⟨[]⟩, 0, _, rfl, rfl⟩, rfl⟩
  obtain ⟨t₁, parameters₁, hcount⟩ : ∃ t parameters,
      (Query.conclude Sample.knownAges .count none).HasRows Sample.translator {} t
        ⟨Sample.threePersons, parameters⟩ [.ofInt 3] :=
    ⟨_, _, rfl, ⟨⟨[]⟩, 0, _, rfl, rfl⟩, rfl⟩
  obtain ⟨t₂, parameters₂, hany⟩ : ∃ t parameters,
      (Query.conclude Sample.knownAges .any none).HasRows Sample.translator {} t
        ⟨Sample.threePersons, parameters⟩ [.bool true] :=
    ⟨_, _, rfl, ⟨⟨[]⟩, 0, _, rfl, rfl⟩, rfl⟩
  exact ⟨t, t₁, t₂, parameters, parameters₁, parameters₂, h, hcount, hany, rows_count h hcount hany⟩

/-- Of a person whose age is not known no age is selected, but an age is counted. -/
theorem rows_count_differ : ∃ t t₁ t₂ parameters parameters₁ parameters₂,
    Sample.knownAges.HasRows Sample.translator {} t ⟨Sample.agelessOnly, parameters⟩ [] ∧
    (Query.conclude Sample.knownAges .count none).HasRows Sample.translator {} t₁
      ⟨Sample.agelessOnly, parameters₁⟩ [.ofInt 1] ∧
    (Query.conclude Sample.knownAges .any none).HasRows Sample.translator {} t₂
      ⟨Sample.agelessOnly, parameters₂⟩ [.bool true] ∧
    [Document.ofInt 1] ≠ [.ofInt ([] : List Document).length] ∧
    [Document.bool true] ≠ [.bool (decide (0 < ([] : List Document).length))] := by
  refine ⟨_, _, _, _, _, _, ⟨rfl, ⟨⟨[]⟩, 0, _, rfl, rfl⟩, rfl⟩, ⟨rfl, ⟨⟨[]⟩, 0, _, rfl, rfl⟩, rfl⟩,
    ⟨rfl, ⟨⟨[]⟩, 0, _, rfl, rfl⟩, rfl⟩, ?_, ?_⟩ <;> intro h <;> cases h

end EntityQuery
