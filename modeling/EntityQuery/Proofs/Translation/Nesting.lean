import EntityQuery.Proofs.Translation.Aliases
import EntityQuery.Proofs.Translation.Projecting

/-!
# Frames that become sources

An operator that does not fit into a frame makes the statement of the frame a source, and goes on
with the same rows, read through the alias of that source.  This rests on two facts about the frames
of a translation.  What formulas may refer to by alias are the entities that the rows hold, and
nothing else; and a formula means the same on a row as on the document that is made of it.

* `Translator.Builds`: the frames of a translation.
* `Translator.Builds.tidy`: each of them has in scope what its rows hold.
* `Translator.Builds.reads_rebased`: formulas mean the same when the rows are read through an alias.
-/

namespace EntityQuery

namespace Translator

/-- The frames to which a translation adds clauses: those that operators leave, and those that
operators start with, which may be new ones over the statement of a stage. -/
inductive Builds (tr : Translator) : Frame → Prop
  | left {q : Query} {p p' : Progress} {frame : Frame} (h : tr.stage q p = .ok (.frame frame, p')) :
      Builds tr frame
  | entered {q : Query} {p p₁ p' : Progress} {s : Stage} {closed : Frame → Bool} {frame : Frame}
      (h : tr.stage q p = .ok (s, p₁)) (henter : s.enter closed p₁ = .ok (frame, p')) :
      Builds tr frame

variable {tr : Translator} {frame : Frame}

/-- What is in scope over a frame are the entities that its rows hold.  (While a join translates its
keys, its right side is in scope already; the frame that it leaves has it in its rows.) -/
lemma Builds.tidy (h : tr.Builds frame) : frame.Tidy := by
  cases h with
  | left h => exact (stage_eq_ok h).1.tidy
  | entered h henter => exact (stage_eq_ok h).1.tidy.enter (Stage.enter_eq_ok henter).1

/-- The translations of one formula over two frames that agree in every environment are one pair of
expressions, whatever the environment is. -/
lemma formula_agree_all {g : Frame} {related : Environment → Scope → Scope → Prop}
    (h : ∀ env, frame.AgreesIn env (related env) g) {f : Formula} {p p' : Progress} {e : Expression}
    (he : tr.formula frame f p = .ok (e, p')) :
    ∃ e', tr.formula g f p = .ok (e', p') ∧ ∀ env, Expression.Agree env (related env) e e' := by
  obtain ⟨e', he', -⟩ := (formula_agree (h ⟨.empty, []⟩) f).eq_ok he
  refine ⟨e', he', fun env => ?_⟩
  obtain ⟨e'', he'', hagree⟩ := (formula_agree (h env) f).eq_ok he
  cases he'.symm.trans he''
  exact hagree

/-- **Rows are read through an alias without loss.**  A frame of a translation has in scope the
entities that its rows hold, in the same order.  If its fields have different names, then each
formula that is translated over it is translated, from any number of aliases on, over the frame that
reads its rows through an alias; and on the document that the frame makes of a row, under that
alias, the latter expression has the value of the former one on the row itself, be it a value, null
or missing. -/
theorem Builds.reads_rebased (h : tr.Builds frame) :
    frame.scope = frame.yield.bindings ∧
      (frame.yield.names.Nodup → ∀ (s : Statement) (aliasName : String) (f : Formula)
        (p p' : Progress) (e : Expression), tr.formula frame f p = .ok (e, p') →
        ∃ e', (∀ count, tr.formula (.ofStatement s frame.yield aliasName) f (p.withAliases count) =
            .ok (e', p'.withAliases count)) ∧
          ∀ env scope d, frame.yield.selection.project env scope = .ok (some d) →
            e'.eval env (.ofRow (.single aliasName d)) = e.eval env scope) := by
  refine ⟨h.tidy.scope, fun hnames s aliasName f p p' e he => ?_⟩
  have hagrees : ∀ env, frame.AgreesIn env (frame.yield.Reads env aliasName)
      (.ofStatement s frame.yield aliasName) := fun env =>
    (frame.agree_ofStatement h.tidy hnames s aliasName).agreesIn
  obtain ⟨e', he', hagree⟩ := formula_agree_all hagrees he
  refine ⟨e', fun count => ?_, fun env scope d hd => ?_⟩
  · rw [(formula_ignoresAliases f).run_withAliases, he']
    rfl
  · exact (hagree env scope _ ⟨d, hd, rfl⟩).symm

end Translator

namespace Sample

/-- The age of each person beside the person. -/
def agesBeside : Query :=
  .project (.source "Person" "p")
    (.record [("years", .scalar age), ("person", .entity "Person" "p")])

/-- Whether the age in such a record is above that of the person in it. -/
def yearsAbove : Formula := .binary .gt (.member "years" .int64 true) age

end Sample

/-- The record of a person without an age has no field for it.  Both the field of the record and the
property of the person in it are missing when they are read through an alias. -/
theorem reads_rebased_agesBeside : ∃ frame e,
    Sample.translator.stage Sample.agesBeside {} = .ok (.frame frame, {}) ∧
    Sample.translator.formula frame Sample.yearsAbove {} = .ok (e, {}) ∧
    ∃ e', Sample.translator.formula (.ofStatement frame.finish frame.yield "t1") Sample.yearsAbove
        (Progress.withAliases {} 1) = .ok (e', Progress.withAliases {} 1) ∧
      e'.eval ⟨.empty, []⟩ (.ofRow (.single "t1" (.object [("person", Sample.ageless)]))) =
        e.eval ⟨.empty, []⟩ (.ofRow (.single "p" Sample.ageless)) := by
  refine ⟨_, _, rfl, rfl, ?_⟩
  have hbuilds : Sample.translator.Builds _ := .left (q := Sample.agesBeside) (p := {}) rfl
  have hnames : ["years", "person"].Nodup := by decide
  obtain ⟨e', htranslated, hvalue⟩ :=
    hbuilds.reads_rebased.2 hnames _ "t1" Sample.yearsAbove {} {} _ rfl
  exact ⟨e', htranslated 1, hvalue _ _ _ rfl⟩

end EntityQuery
