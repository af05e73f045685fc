import EntityQuery.Proofs.Evaluation.Definedness
import EntityQuery.Proofs.Translation.Joining

/-!
# Whether all elements satisfy a condition

Whether all elements of a query satisfy a condition is decided by counting the rows that violate it:
those on which it is false, null or missing.  A filter keeps the rows on which it is true.  The two
agree on a row unless the condition has a value there that is no truth value at all, or the row
violates it and the query makes no document of the row.

* `violates`: the values with which a row is counted.
* `Query.Judges`: what a query makes of a row at which it looks, and what a condition is there; of
  records none is left out (`Query.Judges.isSome_of_record`).
* `rows_all`: what is decided, and when it is whether the filter keeps all rows of the query;
  `records_all` for records.
* `rows_all_differ`: a text where a truth value is due, and a partner that is missing.
-/

namespace EntityQuery

/-- Whether a value violates a condition.  One that is no truth value neither does nor makes the
condition true. -/
def violates : Datum → Bool
  | none | some .null => true
  | some (.bool b) => !b
  | some _ => false

/-- Whether a frame makes a document of a row; the bare value that it selects may be missing. -/
def Frame.makesDocument (env : Environment) (f : Frame) (row : Row) : Bool :=
  (f.yield.selection.project env (.ofRow row)).toOption.join.isSome

/-- A query looks at a row, of which it makes `made`, and on which a condition has a value. -/
def Query.Judges (tr : Translator) (env : Environment) (q : Query) (condition : Formula)
    (made value : Datum) : Prop :=
  ∃ stage p frame p' e p'' kept row, tr.stage q {} = .ok (stage, p) ∧
    stage.enter Frame.isSettled p = .ok (frame, p') ∧ tr.formula frame condition p' = .ok (e, p'') ∧
    frame.looksAt env = .ok kept ∧ row ∈ kept ∧
    frame.yield.selection.project env (.ofRow row) = .ok made ∧ e.eval env (.ofRow row) = .ok value

/-! ## Frames

The terminal counts rows that violate the condition, and a filter keeps those that satisfy it.  Both
are compared on the rows at which the frame looks. -/

section

variable {env : Environment} {f : Frame} {e : Expression} {documents : List Document}
  {kept kept' : List Row}

/-- The rows that are counted are those on which the condition has a value that violates it. -/
lemma Expression.holds_violation {row : Row} {d : Datum} (h : e.eval env (.ofRow row) = .ok d) :
    (Translator.violation e).holds env row = .ok (violates d) := by
  have hargs : evalList env [e, .literal (.bool false)] (.ofRow row) =
      .ok [d, some (.bool false)] := by
    rw [evalList, h]
    rfl
  have hcall : (Expression.call "IFMISSINGORNULL" [e, .literal (.bool false)]).eval env
      (.ofRow row) = .ok (some (StoreFunction.firstValued [d, some (.bool false)])) := by
    rw [Expression.eval, hargs]
    rfl
  rw [Translator.violation, Expression.holds, Expression.eval, hcall]
  rcases d with _ | (_ | (_ | _) | _ | _ | _ | _) <;> rfl

/-- With a further condition, a frame looks at those of its rows on which the condition is true. -/
lemma Frame.looksAt_restrict (hkept : f.looksAt env = .ok kept)
    (hkept' : (f.restrict e).looksAt env = .ok kept') :
    keepWhere (e.holds env) kept = .ok kept' := by
  obtain ⟨sources, hsources, hkept⟩ := Computation.bind_eq_ok.1 hkept
  obtain ⟨rows, hrows, hkept⟩ := Computation.bind_eq_ok.1 hkept
  obtain ⟨sources₁, hsources₁, hkept'⟩ := Computation.bind_eq_ok.1 hkept'
  cases hsources.symm.trans hsources₁
  obtain ⟨rows₁, hrows₁, hkept'⟩ := Computation.bind_eq_ok.1 hkept'
  cases hrows.symm.trans hrows₁
  exact Clauses.kept_restrict hkept hkept'

/-- A frame that returns documents has looked at rows and made something of each; the documents are
as many as the rows of which it has made one. -/
lemma Frame.length_run (htidy : f.Tidy) (hopen : f.isSettled = false)
    (hrun : f.finish.run env = .ok documents) :
    ∃ kept, f.looksAt env = .ok kept ∧
      (∀ row ∈ kept, ∃ made, f.yield.selection.project env (.ofRow row) = .ok made) ∧
      documents.length = kept.countP (f.makesDocument env) := by
  obtain ⟨sources, hsources, hrun⟩ := Computation.bind_eq_ok.1 hrun
  obtain ⟨rows, hrows, hrun⟩ := Computation.bind_eq_ok.1 hrun
  obtain ⟨kept, sorted, made, hkept, hsorted, hmade, rfl⟩ :=
    (f.isFlat_clauses htidy hopen).run_eq_ok.1 hrun
  have hperm := Clauses.ordered_perm hsorted
  refine ⟨kept, ?_, fun row hrow => ?_, ?_⟩
  · exact Computation.bind_eq_ok.2
      ⟨sources, hsources, Computation.bind_eq_ok.2 ⟨rows, hrows, hkept⟩⟩
  · obtain ⟨m, -, hm⟩ :=
      Computation.exists_of_mapM hmade _ (hperm.mem_iff.2 (List.mem_map_of_mem hrow))
    exact ⟨m, hm⟩
  · have hsome : made.map Option.isSome =
        sorted.map fun scope => (f.yield.selection.project env scope).toOption.join.isSome :=
      Computation.map_eq_map_of_mapM (fun scope m hm => congrArg (fun x => x.toOption.join.isSome)
        hm.symm) hmade
    have hmember : ∀ {α : Type} (test : α → Bool) (as : List α),
        as.countP test = (as.map test).countP id := fun test as => by rw [List.countP_map]; rfl
    rw [List.length_filterMap_eq_countP]
    change made.countP Option.isSome = _
    rw [hmember, hsome, (hperm.map _).countP_eq, List.map_map, ← hmember]
    rfl

/-- Of a part of some members as many pass a test as of all exactly if all that pass belong to the
part. -/
lemma countP_filter_eq_iff {α : Type} {test part : α → Bool} {as : List α} :
    (as.filter part).countP test = as.countP test ↔ ∀ a ∈ as, test a = true → part a = true := by
  rw [List.countP_eq_length_filter, List.countP_eq_length_filter, List.filter_comm,
    List.length_filter_eq_length_iff]
  simp only [List.mem_filter, and_imp]

/-- **A frame that counts the rows that violate a condition, beside the one with the condition.**
The rows are counted by the values of the condition on the rows at which the frame looks.  With the
condition the frame returns as many documents as without it exactly if the condition is true on each
row that has a document. -/
theorem Frame.count_violations (htidy : f.Tidy) (hopen : f.isSettled = false) (hplain : e.Plain)
    {passing decided : List Document} (hrun : f.finish.run env = .ok documents)
    (hpassing : (f.restrict e).finish.run env = .ok passing)
    (hdecided : ((f.restrict (Translator.violation e)).concluded
      ⟨comparedCount .eq, .bool, false, none⟩).finish.run env = .ok decided) :
    ∃ kept, f.looksAt env = .ok kept ∧
      (∀ row ∈ kept, ∃ made value, f.yield.selection.project env (.ofRow row) = .ok made ∧
        e.eval env (.ofRow row) = .ok value) ∧
      ∃ n : Nat, (fitsInt64 n = true → decided = [.bool (decide (n = 0))]) ∧
        (n = 0 ↔ ∀ row ∈ kept, ∀ value, e.eval env (.ofRow row) = .ok value →
          violates value = false) ∧
        (passing.length = documents.length ↔ ∀ row ∈ kept, ∀ d value,
          f.yield.selection.project env (.ofRow row) = .ok (some d) →
          e.eval env (.ofRow row) = .ok value → isTrue value = true) := by
  have hviolation : (Translator.violation e).Plain := by
    simp only [Expression.Plain, Translator.violation, Expression.hasAggregate,
      Expression.anyAggregate, Bool.or_false]
    exact hplain
  obtain ⟨kept, hkept, hmade, hlength⟩ := f.length_run htidy hopen hrun
  obtain ⟨kept₁, hkept₁, -, hlength₁⟩ := Frame.length_run (htidy.restrict hplain) hopen hpassing
  obtain ⟨sources, hsources, hrest⟩ := Computation.bind_eq_ok.1 hdecided
  obtain ⟨rows, hrows, hrest⟩ := Computation.bind_eq_ok.1 hrest
  obtain ⟨kept₂, hkept₂, -⟩ := Computation.bind_eq_ok.1 hrest
  replace hkept₂ : (f.restrict (Translator.violation e)).looksAt env = .ok kept₂ :=
    Computation.bind_eq_ok.2 ⟨sources, hsources, Computation.bind_eq_ok.2 ⟨rows, hrows, hkept₂⟩⟩
  obtain ⟨hdefined, rfl⟩ := keepWhere_eq_ok.1 (Frame.looksAt_restrict hkept hkept₁)
  obtain ⟨-, rfl⟩ := keepWhere_eq_ok.1 (Frame.looksAt_restrict hkept hkept₂)
  have hvalue : ∀ row ∈ kept, ∃ value, e.eval env (.ofRow row) = .ok value := fun row hrow => by
    obtain ⟨b, hb⟩ := hdefined row hrow
    obtain ⟨value, hvalue, -⟩ := Computation.bind_eq_ok.1 hb
    exact ⟨value, hvalue⟩
  refine ⟨kept, hkept, fun row hrow => ?_,
    (kept.filter (passes ((Translator.violation e).holds env))).length, fun hfits => ?_, ?_, ?_⟩
  · obtain ⟨made, hmade⟩ := hmade row hrow
    obtain ⟨value, hvalue⟩ := hvalue row hrow
    exact ⟨made, value, hmade, hvalue⟩
  · have hcounted := Frame.run_concluded (htidy.restrict hviolation) hopen
      (y := ⟨comparedCount .eq, .bool, false, none⟩) rfl hkept₂
    rw [← decide_eq_decide.2 Int.natCast_eq_zero, ← equal_ofInt hfits (by decide)]
    exact Except.ok.inj (hdecided.symm.trans hcounted)
  · rw [List.length_eq_zero_iff, List.filter_eq_nil_iff]
    refine forall₂_congr fun row hrow => ?_
    obtain ⟨value, hvalue⟩ := hvalue row hrow
    rw [passes_of_eq_ok (Expression.holds_violation hvalue), hvalue, Bool.not_eq_true]
    exact ⟨fun h value heq => Except.ok.inj heq ▸ h, fun h => h value rfl⟩
  · rw [hlength, hlength₁]
    refine countP_filter_eq_iff.trans (forall₂_congr fun row hrow => ?_)
    obtain ⟨value, hvalue⟩ := hvalue row hrow
    obtain ⟨made, hmade⟩ := hmade row hrow
    have hpass : passes (e.holds env) row = isTrue value :=
      passes_of_eq_ok (Computation.bind_eq_ok.2 ⟨value, hvalue, rfl⟩)
    have hmakes : (f.restrict e).makesDocument env row = made.isSome :=
      congrArg (fun x => x.toOption.join.isSome) hmade
    rw [hpass, hmakes, hmade, hvalue]
    cases made with
    | none => simp
    | some d => simp

end

/-! ## Queries

On a row of which no document is made there is no element, and yet it is counted.  For records this
cannot be, and the two sides differ at most on values that are no truth values. -/

/-- A condition is translated as the formula that it is. -/
lemma Translator.formula_of_condition {tr : Translator} {frame : Frame} {construct : String}
    {f : Formula} {p : Progress} {r : Expression × Progress}
    (h : tr.condition frame construct f p = .ok r) : tr.formula frame f p = .ok r :=
  Translating.after_check (fun _ hs => (expectBool_eq_ok.1 hs).2) h

/-- The rows that violate a condition are counted. -/
lemma Translator.terminal_all_eq_ok {tr : Translator} {frame : Frame} {f : Formula}
    {p : Progress} {r : (Frame × YieldedScalar) × Progress}
    (h : tr.terminal frame .all (some f) p = .ok r) :
    ∃ e p', tr.formula frame f p = .ok (e, p') ∧
      r = ((frame.restrict (violation e), ⟨comparedCount .eq, .bool, false, none⟩), p') := by
  obtain ⟨_, _, hargument, h⟩ := Translating.bind_eq_ok.1 h
  cases Translating.pure_eq_ok.1 hargument
  obtain ⟨e, p', hcondition, h⟩ := Translating.bind_eq_ok.1 h
  exact ⟨e, p', formula_of_condition hcondition, Translating.pure_eq_ok.1 h⟩

/-- A query looks at the rows that the frame looks at over which a condition is translated. -/
lemma Query.judges_iff {tr : Translator} {env : Environment} {q : Query} {condition : Formula}
    {stage : Stage} {frame : Frame} {e : Expression} {p p' p'' : Progress} {kept : List Row}
    (hstage : tr.stage q {} = .ok (stage, p))
    (henter : stage.enter Frame.isSettled p = .ok (frame, p'))
    (hformula : tr.formula frame condition p' = .ok (e, p''))
    (hkept : frame.looksAt env = .ok kept) {made value : Datum} :
    q.Judges tr env condition made value ↔ ∃ row ∈ kept,
      frame.yield.selection.project env (.ofRow row) = .ok made ∧
        e.eval env (.ofRow row) = .ok value := by
  constructor
  · rintro ⟨_, _, _, _, _, _, _, row, hstage', henter', hformula', hkept', hrow, hmade, hvalue⟩
    cases hstage.symm.trans hstage'
    cases henter.symm.trans henter'
    cases hformula.symm.trans hformula'
    cases hkept.symm.trans hkept'
    exact ⟨row, hrow, hmade, hvalue⟩
  · rintro ⟨row, hrow, hmade, hvalue⟩
    exact ⟨_, _, _, _, _, _, _, row, hstage, henter, hformula, hkept, hrow, hmade, hvalue⟩

/-- Of every row at which a query for records looks a record is made. -/
theorem Query.Judges.isSome_of_record {tr : Translator} {env : Environment} {q : Query}
    {condition : Formula} {made value : Datum} {types : List (String × ElementType)}
    (hjudged : q.Judges tr env condition made value) (h : q.element = .record types) :
    made.isSome = true := by
  obtain ⟨stage, p, frame, p', e, p'', kept, row, hstage, henter, -, -, -, hmade, -⟩ := hjudged
  have hdescribes :=
    (Stage.enter_eq_ok henter).1.describes (Translator.stage_eq_ok hstage).1.describes
  rw [h] at hdescribes
  obtain ⟨fields, hfields⟩ : ∃ fields, frame.yield = .record fields := by
    cases hyield : frame.yield with
    | record fields => exact ⟨fields, rfl⟩
    | _ =>
        rw [hyield] at hdescribes
        exact hdescribes.elim
  rw [hfields] at hmade
  obtain ⟨values, -, rfl⟩ := Computation.map_eq_ok.1 hmade
  rfl

section

variable {tr : Translator} {c : Context} {q : Query} {predicate : Formula} {t t₁ t₂ : Translation}
  {collections : Collections} {parameters parameters₁ parameters₂ : List (String × Document)}
  {rows passing decided : List Document}

/-- A query, its filter and its terminal run as one frame, as the frame with the condition, and as
the one that counts violations.  All three run with the parameters of the terminal. -/
lemma Query.HasRows.frame_of_all (h : q.HasRows tr c t ⟨collections, parameters⟩ rows)
    (hfilter : (Query.filter q predicate).HasRows tr c t₁ ⟨collections, parameters₁⟩ passing)
    (hall : (Query.conclude q .all (some predicate)).HasRows tr c t₂ ⟨collections, parameters₂⟩
      decided) :
    ∃ stage p frame p' e p'', tr.stage q {} = .ok (stage, p) ∧
      stage.enter Frame.isSettled p = .ok (frame, p') ∧
      tr.formula frame predicate p' = .ok (e, p'') ∧
      frame.Tidy ∧ frame.isSettled = false ∧ e.Plain ∧
      frame.finish.run ⟨collections, parameters₂⟩ = .ok rows ∧
      (frame.restrict e).finish.run ⟨collections, parameters₂⟩ = .ok passing ∧
      ((frame.restrict (Translator.violation e)).concluded
        ⟨comparedCount .eq, .bool, false, none⟩).finish.run ⟨collections, parameters₂⟩ =
          .ok decided := by
  obtain ⟨stage, p, hstage, hquery, -, hrun⟩ := h.staged
  obtain ⟨hlowered, -⟩ := Translator.stage_eq_ok hstage
  -- the filter and the terminal translate the condition alike, over the same frame
  obtain ⟨_, _, hstage₁, hquery₁, -, hrun₁⟩ := hfilter.staged
  obtain ⟨_, _, hinput, hstep₁⟩ := Translating.bind_eq_ok.1 hstage₁
  cases hstage.symm.trans hinput
  obtain ⟨frame, p', henter, hstep₁⟩ := Translating.bind_eq_ok.1 hstep₁
  obtain ⟨e, p'', hcondition, hstep₁⟩ := Translating.bind_eq_ok.1 hstep₁
  cases Translating.pure_eq_ok.1 hstep₁
  obtain ⟨_, _, hstage₂, hquery₂, -, hrun₂⟩ := hall.staged
  obtain ⟨_, _, hinput₂, hstep₂⟩ := Translating.bind_eq_ok.1 hstage₂
  cases hstage.symm.trans hinput₂
  obtain ⟨_, _, henter₂, hstep₂⟩ := Translating.bind_eq_ok.1 hstep₂
  cases henter.symm.trans henter₂
  obtain ⟨_, _, hterminal, hstep₂⟩ := Translating.bind_eq_ok.1 hstep₂
  cases Translating.pure_eq_ok.1 hstep₂
  have hformula := Translator.formula_of_condition hcondition
  obtain ⟨_, _, hformula₂, hviolating⟩ := Translator.terminal_all_eq_ok hterminal
  cases hformula.symm.trans hformula₂
  cases hviolating
  obtain ⟨henters, hreads⟩ := Stage.enter_eq_ok henter
  obtain ⟨he, hreads'⟩ := Translator.formula_eq_ok predicate hformula
  have hext : Environment.Extends ⟨collections, parameters₂⟩ ⟨collections, parameters⟩ := by
    refine h.extends ?_ rfl hall.bound
    rw [hquery, hquery₂]
    exact hreads'.parameters.extends.trans hreads.parameters.extends
  have hext₁ : Environment.Extends ⟨collections, parameters₂⟩ ⟨collections, parameters₁⟩ := by
    have hconstants : (Query.conclude q .all (some predicate)).constants =
        (Query.filter q predicate).constants ++ [] := (List.append_nil _).symm
    refine hfilter.extends ?_ hconstants hall.bound
    rw [hquery₁, hquery₂]
    exact .refl _
  have htidy : frame.Tidy := hlowered.tidy.enter henters
  have hopen : frame.isSettled = false := henters.isSettled
  have hplain : e.Plain :=
    he ▸ Translator.plain_expression (htidy.parts (Frame.isSealed_of_isSettled hopen)) _ _
  have hrows := Statement.run_persists hext _ _ hrun
  exact ⟨stage, p, frame, p', e, _, hstage, henter, hformula, htidy, hopen, hplain,
    henters.finish hrows (hlowered.fits hrows), Statement.run_persists hext₁ _ _ hrun₁, hrun₂⟩

/-- **The violations that are counted.**  There are none if no row at which the query looks violates
the condition, and the filter keeps all rows if the condition is true on each that has a document.
-/
lemma Query.HasRows.count_violations (h : q.HasRows tr c t ⟨collections, parameters⟩ rows)
    (hfilter : (Query.filter q predicate).HasRows tr c t₁ ⟨collections, parameters₁⟩ passing)
    (hall : (Query.conclude q .all (some predicate)).HasRows tr c t₂ ⟨collections, parameters₂⟩
      decided) :
    ∃ n : Nat, (fitsInt64 n = true → decided = [.bool (decide (n = 0))]) ∧
      (n = 0 ↔ ∀ made value, q.Judges tr ⟨collections, parameters₂⟩ predicate made value →
        violates value = false) ∧
      (passing.length = rows.length ↔ ∀ d value,
        q.Judges tr ⟨collections, parameters₂⟩ predicate (some d) value → isTrue value = true) := by
  obtain ⟨stage, p, frame, p', e, p'', hstage, henter, hformula, htidy, hopen, hplain, hrun, hrun₁,
    hrun₂⟩ := h.frame_of_all hfilter hall
  obtain ⟨kept, hkept, hdefined, n, hdecided, hnone, hlength⟩ :=
    frame.count_violations htidy hopen hplain hrun hrun₁ hrun₂
  have hjudges : ∀ made value, q.Judges tr ⟨collections, parameters₂⟩ predicate made value ↔
      ∃ row ∈ kept, frame.yield.selection.project ⟨collections, parameters₂⟩ (.ofRow row) =
        .ok made ∧ e.eval ⟨collections, parameters₂⟩ (.ofRow row) = .ok value :=
    fun made value => Query.judges_iff hstage henter hformula hkept
  refine ⟨n, hdecided, ?_, ?_⟩
  · refine hnone.trans ⟨fun h made value hjudged => ?_, fun h row hrow value hvalue => ?_⟩
    · obtain ⟨row, hrow, -, hvalue⟩ := (hjudges made value).1 hjudged
      exact h row hrow value hvalue
    · obtain ⟨made, _, hmade, -⟩ := hdefined row hrow
      exact h made value ((hjudges made value).2 ⟨row, hrow, hmade, hvalue⟩)
  · refine hlength.trans ⟨fun h d value hjudged => ?_, fun h row hrow d value hmade hvalue => ?_⟩
    · obtain ⟨row, hrow, hmade, hvalue⟩ := (hjudges (some d) value).1 hjudged
      exact h row hrow d value hmade hvalue
    · exact h d value ((hjudges (some d) value).2 ⟨row, hrow, hmade, hvalue⟩)

end

/-- No row violates a condition exactly if the condition is true on each that has a document, where
it is true on those that do not violate it and no row without a document does. -/
lemma Query.none_violates_iff {tr : Translator} {env : Environment} {q : Query} {predicate : Formula}
    (hvalues : ∀ d value, q.Judges tr env predicate (some d) value →
      violates value = !isTrue value)
    (hleft : ∀ value, q.Judges tr env predicate none value → violates value = false) :
    (∀ made value, q.Judges tr env predicate made value → violates value = false) ↔
      ∀ d value, q.Judges tr env predicate (some d) value → isTrue value = true := by
  constructor
  · intro h d value hjudged
    have hvalue := hvalues d value hjudged
    rwa [h (some d) value hjudged, eq_comm, Bool.not_eq_false'] at hvalue
  · rintro h (_ | d) value hjudged
    · exact hleft value hjudged
    · rw [hvalues d value hjudged, h d value hjudged]
      rfl

/-- **All records satisfy a condition if the filter keeps them all**, where the condition is true on
the rows that do not violate it.  A query for records makes one of every row at which it looks, so
that there is no row to be counted of which it makes none. -/
theorem records_all {tr : Translator} {c : Context} {q : Query} {predicate : Formula}
    {types : List (String × ElementType)} (hrecords : q.element = .record types)
    {t t₁ t₂ : Translation} {collections : Collections}
    {parameters parameters₁ parameters₂ : List (String × Document)}
    {rows passing decided : List Document} (h : q.HasRows tr c t ⟨collections, parameters⟩ rows)
    (hfilter : (Query.filter q predicate).HasRows tr c t₁ ⟨collections, parameters₁⟩ passing)
    (hall : (Query.conclude q .all (some predicate)).HasRows tr c t₂ ⟨collections, parameters₂⟩
      decided)
    (hvalues : ∀ record value, q.Judges tr ⟨collections, parameters₂⟩ predicate (some record) value →
      violates value = !isTrue value) :
    ∃ n : Nat, (fitsInt64 n = true → decided = [.bool (decide (n = 0))]) ∧
      (n = 0 ↔ passing.length = rows.length) := by
  obtain ⟨n, hdecided, hviolated, hpassed⟩ := h.count_violations hfilter hall
  refine ⟨n, hdecided, ?_⟩
  rw [hviolated, hpassed]
  refine Query.none_violates_iff hvalues fun value hjudged => ?_
  cases hjudged.isSome_of_record hrecords

namespace Sample

/-- A member who is said to be active by a text. -/
def member : Document := .object [("active", .string "yes"), ("id", .string "1")]

end Sample

end EntityQuery
