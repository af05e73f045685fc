import EntityQuery.Proofs.Evaluation.Selection
import EntityQuery.Proofs.Plan.Binding
import EntityQuery.Proofs.Text.Search
import EntityQuery.Proofs.Translation.Nullability
import EntityQuery.Proofs.Translation.Safety

/-!
# Tests of texts

Whether a text is a part of another one, or its start, or its end, is asked with three functions of
the statement language.  The end is cut out of the text and compared, and a suffix that is more than
twice as long as the text cannot be cut out: then the test is null instead of false, and so is its
negation, which drops a row that it should keep.

* `BuiltinFunction.asks`: what a test asks of two texts.
* `BuiltinFunction.eval_textTest`: what a test is evaluated to.
* `text_tests`: a test that is not null is right, and its negation keeps the other rows.
* `text_tests_long_suffix`: a row that neither a test nor its negation keeps.
-/

namespace EntityQuery

namespace BuiltinFunction

/-- Whether a function is a test of two texts. -/
def isTextTest : BuiltinFunction → Bool
  | .contains | .startsWith | .endsWith => true
  | _ => false

/-- What a test asks: whether the second text is a part, the start or the end of the first one. -/
def asks : BuiltinFunction → List Char → List Char → Bool
  | .contains, s, t => decide (t <:+: s)
  | .startsWith, s, t => decide (t <+: s)
  | .endsWith, s, t => decide (t <:+ s)
  | _, _, _ => false

/-- Whether a suffix is too long to be cut out of a text. -/
def overshoots (function : BuiltinFunction) (s t : List Char) : Bool :=
  function == .endsWith && decide (2 * s.length < t.length)

/-- The value of a test of two texts. -/
def answer (function : BuiltinFunction) (s t : List Char) : Document :=
  if function.overshoots s t then .null else .bool (function.asks s t)

/-- A suffix that is too long is no suffix. -/
lemma asks_of_overshoots {function : BuiltinFunction} {s t : List Char}
    (h : function.overshoots s t = true) : function.asks s t = false := by
  obtain ⟨hfunction, hlong⟩ := Bool.and_eq_true_iff.1 h
  rw [eq_of_beq hfunction, asks, decide_eq_false_iff_not]
  exact fun hsuffix => absurd hsuffix.length_le (by have := of_decide_eq_true hlong; omega)

end BuiltinFunction

/-- Two expressions have texts as their values, whose lengths are integers of the statement
language. -/
structure Expression.Texts (env : Environment) (scope : Scope) (a b : Expression) (s t : String) :
    Prop where
  text : a.eval env scope = .ok (some (.string s))
  part : b.eval env scope = .ok (some (.string t))
  textFits : fitsInt64 s.toList.length = true
  partFits : fitsInt64 t.toList.length = true

/-! ## The value of a test

Of the three tests, two are functions of the search.  The third one compares a suffix with what is
cut out of the text, from a position that may be before its start. -/

section

variable {env : Environment} {scope : Scope} {a b : Expression} {s t : String}

/-- A function of two texts is computed with them. -/
lemma eval_call_of_texts (name : String) {f : StoreFunction}
    (hname : StoreFunction.ofName? name = some f) (hstrict : f ≠ .ifMissingOrNull)
    (htakes : f.takes 2 = true) (h : Expression.Texts env scope a b s t) :
    (Expression.call name [a, b]).eval env scope =
      .ok (some (f.compute [.string s, .string t])) := by
  have hnull : ∀ d ∈ [Document.string s, .string t], d.isNull = false := by
    intro d hd
    rcases List.mem_pair.1 hd with rfl | rfl <;> rfl
  have hargs : evalList env [a, b] scope = .ok ([.string s, .string t].map some) := by
    rw [evalList, h.text, evalList, h.part]
    rfl
  exact eval_call_of_valued hname hstrict htakes hnull hargs

/-- The position of a text is the first one exactly if the other text starts with it. -/
lemma equal_position (hfits : fitsInt64 s.toList.length = true) :
    (StoreFunction.position.compute [.string s, .string t]).equal (.ofInt 0) =
      decide (t.toList <+: s.toList) := by
  have hzero : fitsInt64 0 = true := by decide
  rw [StoreFunction.compute, StoreFunction.onTexts, Bool.eq_iff_iff, decide_eq_true_iff,
    ← indexOf?_eq_zero]
  cases hindex : indexOf? t.toList s.toList with
  | none =>
      rw [equal_ofInt (by decide) hzero, decide_eq_true_iff]
      exact iff_of_false (by decide) (Option.some_ne_none 0).symm
  | some n =>
      -- the length of the text bounds the position
      have hle := le_length_of_indexOf? hindex
      have hn : fitsInt64 n = true := by
        simp only [fitsInt64, Bool.and_eq_true, decide_eq_true_eq, int64Min, int64Max] at hfits ⊢
        omega
      rw [equal_ofInt hn hzero, decide_eq_true_iff, Int.natCast_eq_zero, Option.some_inj]

/-- The part of a text from where a suffix would start, compared with the suffix. -/
lemma apply_eq_substring :
    Operator.eq.apply (some (StoreFunction.substring s.toList
      ((s.toList.length : Int) - t.toList.length) none)) (some (.string t)) =
      .ok (some (BuiltinFunction.endsWith.answer s.toList t.toList)) := by
  rcases StoreFunction.substring_difference s.toList t.toList with ⟨hfits, u, hu, hsuffix⟩ | ⟨hlong, hu⟩
  · have hinside : BuiltinFunction.endsWith.overshoots s.toList t.toList = false := by
      simpa [BuiltinFunction.overshoots] using hfits
    have hequal : (StoreFunction.textDocument u).equal (.string t) = decide (u = t.toList) := by
      rw [StoreFunction.textDocument, Document.equal, Document.same, Bool.eq_iff_iff, beq_iff_eq,
        decide_eq_true_iff, ← String.toList_inj, String.toList_ofList]
      all_goals
        intro _ _ h
        cases h
    rw [hu, BuiltinFunction.answer, hinside, BuiltinFunction.asks, ← decide_eq_decide.2 hsuffix,
      ← hequal]
    rfl
  · have houtside : BuiltinFunction.endsWith.overshoots s.toList t.toList = true := by
      simpa [BuiltinFunction.overshoots] using hlong
    rw [hu, BuiltinFunction.answer, houtside]
    rfl

/-- **A test of two texts says what it asks**, unless it looks for a suffix that is too long. -/
theorem BuiltinFunction.eval_textTest {function : BuiltinFunction}
    (hfunction : function.isTextTest = true) (h : Expression.Texts env scope a b s t) :
    (function.expression [a, b]).eval env scope =
      .ok (some (function.answer s.toList t.toList)) := by
  cases function with
  | contains =>
      have hoccurs : occursIn t.toList s.toList = decide (t.toList <:+: s.toList) := by
        rw [Bool.eq_iff_iff, occursIn_iff, decide_eq_true_iff]
      rw [expression, eval_call_of_texts "CONTAINS" rfl (by decide) rfl h,
        StoreFunction.compute, StoreFunction.onTexts, hoccurs]
      rfl
  | startsWith =>
      have hposition := eval_call_of_texts "POSITION" rfl (by decide) rfl h
      rw [expression, Expression.eval, hposition]
      change Except.ok (some (Document.bool (Document.equal _ (.ofInt 0)))) = _
      rw [equal_position h.textFits]
      rfl
  | endsWith =>
      have hpart := eval_lastPart h.text h.part h.textFits h.partFits
      rw [expression, List.getD_cons_zero, List.getD_cons_succ, List.getD_cons_zero,
        Expression.eval, hpart, h.part]
      exact apply_eq_substring
  | _ => cases hfunction

end

namespace BuiltinFunction

/-- A test is true where it is right. -/
lemma isTrue_answer {function : BuiltinFunction} {s t : List Char} :
    isTrue (some (function.answer s t)) = function.asks s t := by
  rw [answer]
  cases houtside : function.overshoots s t with
  | true => rw [asks_of_overshoots houtside]; rfl
  | false => cases function.asks s t <;> rfl

/-- The negation of a test is true where the test is wrong, unless it has no answer. -/
lemma isTrue_negated_answer {function : BuiltinFunction} {s t : List Char} :
    isTrue (negated (some (function.answer s t))) =
      (!function.asks s t && !function.overshoots s t) := by
  rw [answer]
  cases function.overshoots s t with
  | true => rw [Bool.not_true, Bool.and_false]; rfl
  | false => cases function.asks s t <;> rfl

end BuiltinFunction

/-- Rows are kept by a test with known outcomes. -/
lemma keepWhere_of_eq_ok {α : Type} {test : α → Except EvalError Bool} {outcome : α → Bool}
    {as : List α} (h : ∀ a ∈ as, test a = .ok (outcome a)) :
    keepWhere test as = .ok (as.filter outcome) := by
  refine keepWhere_eq_ok.2 ⟨fun a ha => ⟨_, h a ha⟩, List.filter_congr fun a ha => ?_⟩
  rw [passes_of_eq_ok (h a ha)]

/-! ## Translated tests -/

/-- A test of two texts is translated with its operands from left to right, and its negation is the
negation of what it becomes. -/
lemma Translator.textTest_eq_ok {tr : Translator} {frame : Frame} {function : BuiltinFunction}
    {f g : Formula} {p p' : Progress} {e : Expression} (hfunction : function.isTextTest = true)
    (h : tr.formula frame (.builtin function [f, g]) p = .ok (e, p')) :
    (∃ a b q, tr.formula frame f p = .ok (a, q) ∧ tr.formula frame g q = .ok (b, p') ∧
      e = function.expression [a, b]) ∧
    tr.formula frame (.not (.builtin function [f, g])) p = .ok (.not e, p') := by
  refine ⟨?_, ?_⟩
  · obtain ⟨_, q, hcheck, hargs⟩ := Translating.bind_eq_ok.1 h
    obtain ⟨-, hq⟩ := BuiltinFunction.check_eq_ok hcheck
    cases hq
    obtain ⟨es, q', hargs, hpure⟩ := Translating.bind_eq_ok.1 hargs
    cases Translating.pure_eq_ok.1 hpure
    obtain ⟨a, q, ha, hargs⟩ := Translating.bind_eq_ok.1 hargs
    obtain ⟨bs, q', hargs, hpure⟩ := Translating.bind_eq_ok.1 hargs
    cases Translating.pure_eq_ok.1 hpure
    obtain ⟨b, q', hb, hargs⟩ := Translating.bind_eq_ok.1 hargs
    obtain ⟨_, _, hnil, hpure⟩ := Translating.bind_eq_ok.1 hargs
    cases Translating.pure_eq_ok.1 hnil
    cases Translating.pure_eq_ok.1 hpure
    exact ⟨a, b, q, ha, hb, rfl⟩
  · have hbool : (Formula.builtin function [f, g]).scalarType = .bool := by
      cases function with
      | contains | startsWith | endsWith => rfl
      | _ => cases hfunction
    refine Translating.bind_eq_ok.2 ⟨(), p, expectBool_eq_ok.2 ⟨hbool, rfl⟩, ?_⟩
    exact Translating.bind_eq_ok.2 ⟨e, p', h, rfl⟩

/-- **Tests of texts mean what they say.**  Where the operands of a test are texts, and the test
does not look for a suffix that is more than twice as long as the text, its value is true or false
as the second text is a part, the start or the end of the first one, and its negation has the other
value.  Otherwise both are null.  So a test keeps the rows on which it is right, and its negation
keeps the rows on which it is wrong, but not those with a suffix that is too long. -/
theorem text_tests {tr : Translator} {frame : Frame} {function : BuiltinFunction} {f g : Formula}
    {p p' : Progress} {e : Expression} (hfunction : function.isTextTest = true)
    (h : tr.formula frame (.builtin function [f, g]) p = .ok (e, p')) :
    tr.formula frame (.not (.builtin function [f, g])) p = .ok (.not e, p') ∧
    ∃ a b q, tr.formula frame f p = .ok (a, q) ∧ tr.formula frame g q = .ok (b, p') ∧
      (∀ env scope s t, Expression.Texts env scope a b s t →
        (function.overshoots s.toList t.toList = false →
          e.eval env scope = .ok (some (.bool (function.asks s.toList t.toList))) ∧
          (Expression.not e).eval env scope =
            .ok (some (.bool (!function.asks s.toList t.toList)))) ∧
        (function.overshoots s.toList t.toList = true →
          e.eval env scope = .ok (some .null) ∧
          (Expression.not e).eval env scope = .ok (some .null))) ∧
      ∀ env rows (text part : Row → String),
        (∀ row ∈ rows, Expression.Texts env (.ofRow row) a b (text row) (part row)) →
        keepWhere (e.holds env) rows =
          .ok (rows.filter fun row => function.asks (text row).toList (part row).toList) ∧
        keepWhere ((Expression.not e).holds env) rows =
          .ok (rows.filter fun row => !function.asks (text row).toList (part row).toList &&
            !function.overshoots (text row).toList (part row).toList) := by
  obtain ⟨⟨a, b, q, ha, hb, rfl⟩, hnot⟩ := Translator.textTest_eq_ok hfunction h
  have hvalue : ∀ env scope s t, Expression.Texts env scope a b s t →
      (function.expression [a, b]).eval env scope =
        .ok (some (function.answer s.toList t.toList)) := fun env scope s t htexts =>
    BuiltinFunction.eval_textTest hfunction htexts
  have hnegated : ∀ env scope s t, Expression.Texts env scope a b s t →
      (Expression.not (function.expression [a, b])).eval env scope =
        .ok (negated (some (function.answer s.toList t.toList))) := by
    intro env scope s t htexts
    rw [Expression.eval, hvalue env scope s t htexts]
    rfl
  refine ⟨hnot, a, b, q, ha, hb, fun env scope s t htexts => ⟨fun hinside => ?_, fun houtside => ?_⟩,
    fun env rows text part htexts => ⟨?_, ?_⟩⟩
  · rw [hvalue env scope s t htexts, hnegated env scope s t htexts, BuiltinFunction.answer, hinside]
    exact ⟨rfl, rfl⟩
  · rw [hvalue env scope s t htexts, hnegated env scope s t htexts, BuiltinFunction.answer, houtside]
    exact ⟨rfl, rfl⟩
  · refine keepWhere_of_eq_ok fun row hrow => ?_
    have hvalue := hvalue env _ _ _ (htexts row hrow)
    refine Computation.bind_eq_ok.2 ⟨_, hvalue, congrArg Except.ok ?_⟩
    rw [BuiltinFunction.isTrue_answer]
  · refine keepWhere_of_eq_ok fun row hrow => ?_
    have hnegated := hnegated env _ _ _ (htexts row hrow)
    refine Computation.bind_eq_ok.2 ⟨_, hnegated, congrArg Except.ok ?_⟩
    rw [BuiltinFunction.isTrue_negated_answer]

namespace Sample

/-- The name of a person. -/
def personName : Formula := .property ⟨"p", "Person", "name", ["name"], .string, false⟩

/-- Whether the name of a person ends with a text. -/
def nameEndsWith (suffix : String) : Formula :=
  .builtin .endsWith [personName, .ofValue (.string suffix)]

/-- The statement reads a single constant. -/
def oneText (text : String) : Environment := ⟨⟨[]⟩, [("p0", .string text)]⟩

end Sample

/-- The filter for names that end with a part of Ann keeps a person called Ann, and the negated
filter does not. -/
theorem text_tests_ann : ∃ e p',
    Sample.translator.formula (.ofKeyspace ⟨"app", "_default", "person"⟩ "Person" "p")
      (Sample.nameEndsWith "nn") {} = .ok (e, p') ∧
    keepWhere (e.holds (Sample.oneText "nn")) [.single "p" (Sample.aged 30)] =
      .ok [.single "p" (Sample.aged 30)] ∧
    keepWhere ((Expression.not e).holds (Sample.oneText "nn")) [.single "p" (Sample.aged 30)] =
      .ok [] := by
  obtain ⟨e, p', h⟩ : ∃ e p', Sample.translator.formula
      (.ofKeyspace ⟨"app", "_default", "person"⟩ "Person" "p") (Sample.nameEndsWith "nn") {} =
        .ok (e, p') := ⟨_, _, rfl⟩
  obtain ⟨-, a, b, q, ha, hb, -, hrows⟩ := text_tests rfl h
  cases ha
  cases hb
  obtain ⟨hkept, hdropped⟩ := hrows (Sample.oneText "nn") [.single "p" (Sample.aged 30)]
    (fun _ => "Ann") (fun _ => "nn") fun row hrow => by
      cases List.mem_singleton.1 hrow
      exact ⟨rfl, rfl, by decide, by decide⟩
  exact ⟨e, _, h, hkept, hdropped⟩

/-- The name Ann does not end with Mary Ann, but the filter for the persons whose name does not end
so does not keep a person called Ann. -/
theorem text_tests_long_suffix : ∃ t parameters,
    (Query.filter (.source "Person" "p") (.not (Sample.nameEndsWith "Mary Ann"))).HasRows
      Sample.translator {} t ⟨Sample.collectionsOf [Sample.aged 30], parameters⟩ [] ∧
    (Sample.aged 30).field? "name" = some (.string "Ann") ∧
    ¬ "Mary Ann".toList <:+ "Ann".toList :=
  ⟨_, _, ⟨rfl, ⟨⟨[]⟩, 0, _, rfl, rfl⟩, rfl⟩, rfl, by decide⟩

end EntityQuery
