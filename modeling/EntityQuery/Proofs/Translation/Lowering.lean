import EntityQuery.Proofs.Translation.Expression

/-!
# How queries are lowered

`Translator.Lowered` is the relation between queries and the stages that translations reach, without
the progress of a translation: only slots are counted, and an alias that is made up may be any.  One
rule for each operator says from which frame the operator starts and what it adds to it.

* `Stage.Enters`: a stage leads to a frame to which clauses can be added.
* `Translator.Lowered`: a query, whose first constant has a given slot, becomes a stage.
* `Translator.Adds` and `Translator.Translates`: a translation that succeeds, operator by operator,
  with its progress; `Translator.translates_of_stage`.
* `Translator.stage_eq_ok`: a translation that succeeds lowers its query, and reads its inputs.
-/

namespace EntityQuery

/-! ## The parts of the rules

The functions of the translation do two things: they change frames, and they read inputs.  The
former are given here without the latter, as functions of the slot at which a formula starts. -/

/-- A stage leads to a frame to which clauses can be added: its own one, or a new one over its
statement if it has none or if that is closed. -/
inductive Stage.Enters (closed : Frame → Bool) : Stage → Frame → Prop
  | kept {f : Frame} (h : closed f = false) : Enters closed (.frame f) f
  | nested {f : Frame} (h : closed f = true) (aliasName : String) :
      Enters closed (.frame f) (.ofStatement f.finish f.yield aliasName)
  | compound {s : Statement} {y : Yield} (aliasName : String) :
      Enters closed (.compound s y) (.ofStatement s y aliasName)

/-- Whether a frame takes no condition and no order: its rows are counted out, or sealed. -/
def Frame.isSettled (f : Frame) : Bool := f.isPaged || f.isSealed

/-- Whether the order or the number of the rows of a frame matters, or they are sealed. -/
def Frame.isArranged (f : Frame) : Bool := f.isPaged || f.isSealed || f.isOrdered

/-- The source that a stage is under an alias: its keyspace, if it does nothing else. -/
def Stage.sourceAs (s : Stage) (aliasName : String) : Source :=
  let bare := match s with
    | .frame f => f.bareKeyspace?
    | .compound .. => none
  match bare with
  | some k => .keyspace k aliasName
  | none => .statement s.statement aliasName

@[simp] lemma Stage.aliasName_sourceAs (s : Stage) (aliasName : String) :
    (s.sourceAs aliasName).aliasName = aliasName := by
  simp only [sourceAs]
  cases s with
  | compound => rfl
  | frame f => cases hk : f.bareKeyspace? <;> simp [hk, Source.aliasName]

/-- What the right side of a join binds. -/
def Binding.joined (b : Binding) (matching : Matching) : Binding :=
  { b with base := .ident b.aliasName, optional := matching == .leftOuter }

namespace Frame

/-- The frame of the documents of an entity. -/
def ofKeyspace (k : Keyspace) (entity aliasName : String) : Frame :=
  let b : Binding := ⟨aliasName, entity, .ident aliasName, false⟩
  { source := .keyspace k aliasName, yield := .entity b, scope := [b] }

/-- The frame with other rows. -/
def yielding (f : Frame) (yield : Yield) : Frame := { f with yield, scope := yield.bindings }

/-- The frame with its rows folded into groups. -/
def grouped (f : Frame) (keys summaries : List (String × YieldedScalar)) : Frame :=
  { f with
    groupBy := keys.map fun k => k.2.expression
    yield := .record ((keys ++ summaries).map fun s => (s.1, .scalar s.2))
    scope := []
    isGrouped := true }

/-- The frame with its rows folded into a single scalar. -/
def concluded (f : Frame) (s : YieldedScalar) : Frame :=
  { f with orderBy := [], yield := .scalar s, scope := [], isConcluded := true }

end Frame

/-- How a join that a statement can express matches rows. -/
def JoinKind.matching? : JoinKind → Option Matching
  | .inner => some .inner
  | .leftOuter => some .leftOuter
  | .rightOuter | .fullOuter => none

namespace Translator

/-- The scalar of a formula that rows are to hold. -/
def yieldedScalar (tr : Translator) (frame : Frame) (n : Nat) (f : Formula) : YieldedScalar :=
  ⟨tr.expression frame n f, f.scalarType, f.isNullable, frame.originOf f⟩

/-- The fields of a projection. -/
def projectedFields (tr : Translator) (frame : Frame) (n : Nat) :
    List (String × Projected) → List (String × FieldYield)
  | [] => []
  | (name, .scalar f) :: fields =>
    (name, .scalar (tr.yieldedScalar frame n f)) ::
      tr.projectedFields frame (n + f.constants.length) fields
  | (name, .entity _ aliasName) :: fields =>
    (name, .entity (frame.bound aliasName)) :: tr.projectedFields frame n fields

/-- What a projection yields. -/
def projectedYield (tr : Translator) (frame : Frame) (n : Nat) : Projection → Yield
  | .scalar f => .scalar (tr.yieldedScalar frame n f)
  | .entity _ aliasName => .entity (frame.bound aliasName)
  | .record fields => .record (tr.projectedFields frame n fields)

/-- The keys of a grouping. -/
def groupKeys (tr : Translator) (frame : Frame) (n : Nat) :
    List (String × Formula) → List (String × YieldedScalar)
  | [] => []
  | (name, f) :: keys =>
    (name, tr.yieldedScalar frame n f) :: tr.groupKeys frame (n + f.constants.length) keys

/-- The aggregate of a summary. -/
def aggregateOf (tr : Translator) (frame : Frame) (n : Nat) (s : Summary) : Expression :=
  match s.arg with
  | some f => .aggregate s.function.aggregate.1 s.function.aggregate.2 (tr.expression frame n f)
  | none => .countRows

/-- The summaries of a grouping. -/
def groupSummaries (tr : Translator) (frame : Frame) (n : Nat) :
    List (String × Summary) → List (String × YieldedScalar)
  | [] => []
  | (name, s) :: summaries =>
    (name, ⟨tr.aggregateOf frame n s, s.scalarType, s.isNullable, none⟩) ::
      tr.groupSummaries frame (n + (Formula.constantsOf s.arg.toList).length) summaries

/-- The term of a correlated navigation, if its target has a keyspace where it needs one. -/
def correlated (tr : Translator) (c : Correlation) (source : Binding) : Option Term :=
  let matching : Matching := if c.optional then .leftOuter else .inner
  match c.kind with
  | .unnest path => some (.unnest matching (source.base.path path) c.aliasName)
  | .lookup sourceField targetField =>
    (tr.model.keyspace? c.target).map fun k =>
      .join matching (.keyspace k c.aliasName)
        (.binary .eq (Expression.path (.ident c.aliasName) targetField)
          (source.base.path sourceField))

/-- The condition of a join, whose keys are read with the right side in scope. -/
def joinCondition (tr : Translator) (frame : Frame) (n : Nat) (b : Binding)
    (leftKey rightKey : Formula) : Expression :=
  let widened := { frame with scope := frame.scope ++ [b] }
  .binary .eq (tr.expression widened n leftKey)
    (tr.expression widened (n + leftKey.constants.length) rightKey)

/-- What a condition is that all elements satisfy if no row satisfies it. -/
def violation (e : Expression) : Expression :=
  .not (.call "IFMISSINGORNULL" [e, .literal (.bool false)])

/-- A terminal over a frame becomes a scalar of a frame; `n` and `m` are the slots before and
behind it. -/
inductive Concludes (tr : Translator) (frame : Frame) (n : Nat) :
    Terminal → Option Formula → Frame → YieldedScalar → Nat → Prop
  | summary {terminal function} {f : Formula} (h : terminal.function? = some function) :
      Concludes tr frame n terminal (some f) frame
        ⟨.aggregate function.aggregate.1 false (tr.expression frame n f),
          aggregatedType function.aggregate.1 f.scalarType, true, none⟩
        (n + f.constants.length)
  | count {arg} : Concludes tr frame n .count arg frame ⟨.countRows, .int64, false, none⟩ n
  | any {arg} : Concludes tr frame n .any arg frame ⟨comparedCount .gt, .bool, false, none⟩ n
  | all {f : Formula} :
      Concludes tr frame n .all (some f) (frame.restrict (violation (tr.expression frame n f)))
        ⟨comparedCount .eq, .bool, false, none⟩ (n + f.constants.length)

/-! ## The rules

There is a rule for each operator.  Inductions on translations are inductions on these rules, so
that no proof goes through the steps of a translation by itself. -/

/-- A query, whose first constant has slot `n`, becomes a stage, and `m` is the slot behind its last
constant. -/
inductive Lowered (tr : Translator) : Nat → Query → Stage → Nat → Prop
  | source {n entity aliasName k} (hkeyspace : tr.model.keyspace? entity = some k) :
      Lowered tr n (.source entity aliasName) (.frame (.ofKeyspace k entity aliasName)) n
  | filter {n m input s frame} {predicate : Formula} (hinput : Lowered tr n input s m)
      (henter : s.Enters Frame.isSettled frame) :
      Lowered tr n (.filter input predicate)
        (.frame (frame.restrict (tr.expression frame m predicate)))
        (m + predicate.constants.length)
  | project {n m input s frame} {projection : Projection} (hinput : Lowered tr n input s m)
      (henter : s.Enters Frame.isSealed frame) :
      Lowered tr n (.project input projection)
        (.frame (frame.yielding (tr.projectedYield frame m projection)))
        (m + (Formula.constantsOf projection.formulas).length)
  | orderBy {n m input s frame descending} {key : Formula} (hinput : Lowered tr n input s m)
      (henter : s.Enters Frame.isSettled frame) :
      Lowered tr n (.orderBy input key descending)
        (.frame { frame with orderBy := [⟨tr.expression frame m key, descending⟩] })
        (m + key.constants.length)
  | thenBy {n m input descending} {frame : Frame} {key : Formula}
      (hinput : Lowered tr n input (.frame frame) m) (hordered : frame.isOrdered = true)
      (hsettled : frame.isSettled = false) :
      Lowered tr n (.thenBy input key descending)
        (.frame { frame with
          orderBy := frame.orderBy ++ [⟨tr.expression frame m key, descending⟩] })
        (m + key.constants.length)
  | groupBy {n m m₁ input s frame} {keys : List (String × Formula)}
      {summaries : List (String × Summary)} (hinput : Lowered tr n input s m)
      (henter : s.Enters Frame.isArranged frame)
      (hslots : m₁ = m + (Formula.constantsOf (keys.map Prod.snd)).length) :
      Lowered tr n (.groupBy input keys summaries)
        (.frame (frame.grouped (tr.groupKeys frame m keys) (tr.groupSummaries frame m₁ summaries)))
        (m₁ + (Formula.constantsOf (summaries.filterMap fun s => s.2.arg)).length)
  | join {n n₁ n₂ kind matching left right ls rs frame fields b b'} {leftKey rightKey : Formula}
      (hmatching : JoinKind.matching? kind = some matching)
      (hleft : Lowered tr n left ls n₁) (hright : Lowered tr n₁ right rs n₂)
      (henter : ls.Enters Frame.isSettled frame) (hfields : frame.yield.scopeFields? = some fields)
      (hyield : rs.yield = .entity b) (hfresh : frame.takes b.aliasName = false)
      (hb' : b' = b.joined matching) :
      Lowered tr n (.join kind left right leftKey rightKey)
        (.frame (frame.extend fields
          (.join matching (rs.sourceAs b.aliasName)
            (tr.joinCondition frame n₂ b' leftKey rightKey)) b'))
        (n₂ + leftKey.constants.length + rightKey.constants.length)
  | correlate {n m input s frame fields source term} {c : Correlation}
      (hinput : Lowered tr n input s m) (henter : s.Enters Frame.isSettled frame)
      (hfields : frame.yield.scopeFields? = some fields)
      (hsource : frame.binding? c.sourceAlias = some source)
      (hfresh : frame.takes c.aliasName = false) (hterm : tr.correlated c source = some term) :
      Lowered tr n (.correlate input c)
        (.frame (frame.extend fields term ⟨c.aliasName, c.target, .ident c.aliasName, c.optional⟩))
        m
  | skip {n m input s frame} {count : Formula} (hinput : Lowered tr n input s m)
      (henter : s.Enters Frame.isSettled frame) :
      Lowered tr n (.skip input count)
        (.frame { frame with offset := some (tr.expression frame m count) })
        (m + count.constants.length)
  | take {n m input s frame} {count : Formula} (hinput : Lowered tr n input s m)
      (henter : s.Enters (fun f => f.isLimited || f.isSealed) frame) :
      Lowered tr n (.take input count)
        (.frame { frame with limit := some (tr.expression frame m count) })
        (m + count.constants.length)
  | distinct {n m input s frame} (hinput : Lowered tr n input s m)
      (henter : s.Enters Frame.isArranged frame) :
      Lowered tr n (.distinct input) (.frame { frame with distinct := true }) m
  | combine {n n₁ n₂ op left right ls rs}
      (hcompatible : left.element.isCompatible right.element = true)
      (hleft : Lowered tr n left ls n₁) (hright : Lowered tr n₁ right rs n₂) :
      Lowered tr n (.combine op left right)
        (.compound (.compound op ls.statement rs.statement) ls.yield) n₂
  | conclude {n m m' input s frame frame' terminal arg scalar} (hinput : Lowered tr n input s m)
      (henter : s.Enters Frame.isSettled frame)
      (hterminal : Concludes tr frame m terminal arg frame' scalar m') :
      Lowered tr n (.conclude input terminal arg)
        (.frame (frame'.concluded scalar)) m'

end Translator

/-! ## Runs follow the rules

For each step of a translation there is a lemma that says what a successful run of it has done.
Together they lead from a run to a rule. -/

open Translating

variable {p p' : Progress} {frame : Frame}

@[simp] lemma Formula.inputsOf_singleton (f : Formula) : Formula.inputsOf [f] = f.inputs := by
  rw [inputsOf, inputsOf, List.append_nil]

lemma Formula.inputsOf_append (fs gs : List Formula) :
    Formula.inputsOf (fs ++ gs) = Formula.inputsOf fs ++ Formula.inputsOf gs := by
  induction fs with
  | nil => rfl
  | cons f fs ih => rw [List.cons_append, inputsOf, inputsOf, ih, List.append_assoc]

/-- A frame to which clauses can be added is entered without reading anything. -/
lemma Stage.enter_eq_ok {closed : Frame → Bool} {s : Stage}
    (h : s.enter closed p = .ok (frame, p')) : s.Enters closed frame ∧ p.Reads [] p' := by
  cases s with
  | frame f =>
      rw [enter] at h
      cases hclosed : closed f with
      | true =>
          rw [if_pos hclosed] at h
          obtain ⟨aliasName, q, halias, h⟩ := bind_eq_ok.1 h
          cases freshAlias_eq_ok.1 halias
          cases pure_eq_ok.1 h
          exact ⟨.nested hclosed _, rfl, .refl⟩
      | false =>
          rw [hclosed, if_neg Bool.false_ne_true] at h
          cases pure_eq_ok.1 h
          exact ⟨.kept hclosed, .refl p⟩
  | compound statement yield =>
      obtain ⟨aliasName, q, halias, h⟩ := bind_eq_ok.1 h
      cases freshAlias_eq_ok.1 halias
      cases pure_eq_ok.1 h
      exact ⟨.compound _, rfl, .refl⟩

/-- The right side of a join that is accepted yields entities. -/
lemma Stage.joinSource_eq_ok {s : Stage} {optional : Bool} {r : (Source × Binding) × Progress}
    (h : s.joinSource optional p = .ok r) :
    ∃ b, s.yield = .entity b ∧
      r = ((s.sourceAs b.aliasName, { b with base := .ident b.aliasName, optional }), p) := by
  simp only [joinSource] at h
  cases hy : s.yield with
  | entity b =>
      rw [hy] at h
      exact ⟨b, rfl, pure_eq_ok.1 h⟩
  | _ => simp [hy] at h

lemma Frame.fieldsFor_eq_ok {construct reason : String} {r : List (String × FieldYield) × Progress}
    (h : frame.fieldsFor construct reason p = .ok r) :
    ∃ fields, frame.yield.scopeFields? = some fields ∧ r = (fields, p) := by
  rw [fieldsFor] at h
  cases hy : frame.yield.scopeFields? with
  | some fields =>
      rw [hy] at h
      exact ⟨fields, rfl, pure_eq_ok.1 h⟩
  | none => simp [hy] at h

lemma Frame.checkAlias_eq_ok {construct aliasName : String} {r : Unit × Progress}
    (h : frame.checkAlias construct aliasName p = .ok r) :
    frame.takes aliasName = false ∧ r = ((), p) := by
  obtain ⟨hfresh, h⟩ := refuse_eq_ok.1 h
  exact ⟨by simpa using hfresh, pure_eq_ok.1 h⟩

lemma Frame.projected_eq_ok {aliasName : String} {r : Binding × Progress}
    (h : frame.projected aliasName p = .ok r) : r = (frame.bound aliasName, p) := by
  rw [projected] at h
  rw [bound]
  cases hb : frame.binding? aliasName with
  | some b =>
      rw [hb] at h
      exact pure_eq_ok.1 h
  | none => simp [hb] at h

/-- What is projected is in scope. -/
lemma Frame.mem_of_projected {aliasName : String} {b : Binding}
    (h : frame.projected aliasName p = .ok (b, p')) : b ∈ frame.scope := by
  rw [projected] at h
  cases hb : frame.binding? aliasName with
  | none => simp [hb] at h
  | some b' =>
      rw [hb] at h
      cases pure_eq_ok.1 h
      exact List.mem_of_find?_eq_some hb

lemma checkNames_eq_ok {construct : String} {names : List String} {r : Unit × Progress}
    (h : checkNames construct names p = .ok r) : firstRepeated [] names = none ∧ r = ((), p) := by
  rw [checkNames] at h
  cases hn : firstRepeated [] names with
  | some name => simp [hn] at h
  | none =>
      rw [hn] at h
      exact ⟨rfl, pure_eq_ok.1 h⟩

lemma JoinKind.matching_eq_ok {kind : JoinKind} {r : Matching × Progress}
    (h : kind.matching p = .ok r) : ∃ m, kind.matching? = some m ∧ r = (m, p) := by
  cases kind with
  | inner => exact ⟨.inner, rfl, pure_eq_ok.1 h⟩
  | leftOuter => exact ⟨.leftOuter, rfl, pure_eq_ok.1 h⟩
  | rightOuter | fullOuter => simp [matching] at h

namespace Translator

variable {tr : Translator}

lemma keyspace_eq_ok {construct entity : String} {r : Keyspace × Progress}
    (h : tr.keyspace construct entity p = .ok r) :
    ∃ k, tr.model.keyspace? entity = some k ∧ r = (k, p) := by
  rw [keyspace] at h
  cases hk : tr.model.keyspace? entity with
  | some k =>
      rw [hk] at h
      exact ⟨k, rfl, pure_eq_ok.1 h⟩
  | none => simp [hk] at h

lemma yielded_eq_ok {f : Formula} {s : YieldedScalar} (h : tr.yielded frame f p = .ok (s, p')) :
    s = tr.yieldedScalar frame p.nextSlot f ∧ p.Reads f.inputs p' := by
  obtain ⟨e, q, hf, h⟩ := bind_eq_ok.1 h
  cases pure_eq_ok.1 h
  obtain ⟨rfl, hreads⟩ := formula_eq_ok f hf
  exact ⟨rfl, hreads⟩

lemma condition_eq_ok {construct : String} {f : Formula} {e : Expression}
    (h : tr.condition frame construct f p = .ok (e, p')) :
    e = tr.expression frame p.nextSlot f ∧ p.Reads f.inputs p' := by
  replace h := after_check (fun _ hs => (expectBool_eq_ok.1 hs).2) h
  exact formula_eq_ok f h

/-- The fields of a record are projected one after the other. -/
lemma projectedFields_eq_ok {fields : List (String × Projected)}
    {yields : List (String × FieldYield)}
    (h : fields.mapM (tr.projectedField frame) p = .ok (yields, p')) :
    yields = tr.projectedFields frame p.nextSlot fields ∧
      p.Reads (Formula.inputsOf (Projection.record fields).formulas) p' := by
  induction fields generalizing p yields with
  | nil =>
      cases pure_eq_ok.1 h
      exact ⟨rfl, .refl _⟩
  | cons field fields ih =>
      rw [List.mapM_cons] at h
      obtain ⟨y, q, hfield, h⟩ := bind_eq_ok.1 h
      obtain ⟨ys, q₁, hfields, h⟩ := bind_eq_ok.1 h
      cases pure_eq_ok.1 h
      obtain ⟨rfl, hreads⟩ := ih hfields
      obtain ⟨name, f | ⟨entity, aliasName⟩⟩ := field
      · obtain ⟨s, q, hs, hfield⟩ := bind_eq_ok.1 hfield
        cases pure_eq_ok.1 hfield
        obtain ⟨rfl, hreads'⟩ := yielded_eq_ok hs
        refine ⟨?_, hreads'.trans hreads⟩
        rw [projectedFields, hreads'.nextSlot_formula]
      · obtain ⟨b, q, hb, hfield⟩ := bind_eq_ok.1 hfield
        cases pure_eq_ok.1 hfield
        cases Frame.projected_eq_ok hb
        exact ⟨rfl, hreads⟩

lemma projection_eq_ok {projection : Projection} {yield : Yield}
    (h : tr.projection frame projection p = .ok (yield, p')) :
    yield = tr.projectedYield frame p.nextSlot projection ∧
      p.Reads (Formula.inputsOf projection.formulas) p' := by
  cases projection with
  | scalar f =>
      obtain ⟨s, q, hs, h⟩ := bind_eq_ok.1 h
      cases pure_eq_ok.1 h
      obtain ⟨rfl, hreads⟩ := yielded_eq_ok hs
      exact ⟨rfl, by rwa [Projection.formulas, Formula.inputsOf_singleton]⟩
  | entity entity aliasName =>
      obtain ⟨b, q, hb, h⟩ := bind_eq_ok.1 h
      cases pure_eq_ok.1 h
      cases Frame.projected_eq_ok hb
      exact ⟨rfl, .refl _⟩
  | record fields =>
      obtain ⟨-, h⟩ := refuse_bind_eq_ok.1 h
      replace h := after_check (fun _ hs => (checkNames_eq_ok hs).2) h
      obtain ⟨yields, q, hyields, h⟩ := bind_eq_ok.1 h
      cases pure_eq_ok.1 h
      obtain ⟨rfl, hreads⟩ := projectedFields_eq_ok hyields
      exact ⟨rfl, hreads⟩

/-- The placeholder of a number of rows is marked as such. -/
lemma rowCount_eq_ok {construct : String} {count : Formula} {e : Expression}
    (h : tr.rowCount frame construct count p = .ok (e, p')) :
    e = tr.expression frame p.nextSlot count ∧ p.Reads count.inputs p' := by
  obtain ⟨-, h⟩ := refuse_bind_eq_ok.1 h
  obtain ⟨e₁, q, hcount, h⟩ := bind_eq_ok.1 h
  obtain ⟨he, hreads⟩ := formula_eq_ok count hcount
  cases e₁ with
  | placeholder name =>
      obtain ⟨_, q₁, hmodify, h⟩ := bind_eq_ok.1 h
      cases pure_eq_ok.1 h
      cases hmodify
      exact ⟨he, hreads.nextSlot, hreads.parameters.mark name⟩
  | _ =>
      cases pure_eq_ok.1 h
      exact ⟨he, hreads⟩

lemma groupKeys_eq_ok {keys : List (String × Formula)} {ks : List (String × YieldedScalar)}
    (h : keys.mapM (tr.groupKey frame) p = .ok (ks, p')) :
    ks = tr.groupKeys frame p.nextSlot keys ∧
      p.Reads (Formula.inputsOf (keys.map Prod.snd)) p' := by
  induction keys generalizing p ks with
  | nil =>
      cases pure_eq_ok.1 h
      exact ⟨rfl, .refl _⟩
  | cons key keys ih =>
      rw [List.mapM_cons] at h
      obtain ⟨k, q, hkey, h⟩ := bind_eq_ok.1 h
      obtain ⟨ks, q₁, hkeys, h⟩ := bind_eq_ok.1 h
      cases pure_eq_ok.1 h
      obtain ⟨s, q, hs, hkey⟩ := bind_eq_ok.1 hkey
      cases pure_eq_ok.1 hkey
      obtain ⟨rfl, hreads⟩ := yielded_eq_ok hs
      obtain ⟨rfl, hreads'⟩ := ih hkeys
      refine ⟨?_, hreads.trans hreads'⟩
      rw [groupKeys, hreads.nextSlot_formula]

lemma summary_eq_ok {s : Summary} {e : Expression}
    (h : tr.summary frame s p = .ok (e, p')) :
    e = tr.aggregateOf frame p.nextSlot s ∧ p.Reads (Formula.inputsOf s.arg.toList) p' := by
  rw [summary] at h
  rw [aggregateOf]
  cases harg : s.arg with
  | some f =>
      simp only [harg] at h
      replace h : ∃ q, q = p ∧ (do
          let e ← tr.formula frame f
          pure (.aggregate s.function.aggregate.1 s.function.aggregate.2 (some e)) :
            Translating Expression) q = .ok (e, p') := by
        split at h
        · exact ⟨p, rfl, after_check (fun _ hs => (expectOperand_eq_ok.1 hs).2) h⟩
        · exact ⟨p, rfl, h⟩
      obtain ⟨q, rfl, h⟩ := h
      obtain ⟨e₁, q₁, hf, h⟩ := bind_eq_ok.1 h
      cases pure_eq_ok.1 h
      obtain ⟨rfl, hreads⟩ := formula_eq_ok f hf
      exact ⟨rfl, by rwa [Option.toList_some, Formula.inputsOf_singleton]⟩
  | none =>
      simp only [harg] at h
      cases pure_eq_ok.1 (guard_eq_ok.1 h).2
      exact ⟨rfl, .refl _⟩

lemma groupSummaries_eq_ok {summaries : List (String × Summary)}
    {ss : List (String × YieldedScalar)}
    (h : summaries.mapM (tr.groupSummary frame) p = .ok (ss, p')) :
    ss = tr.groupSummaries frame p.nextSlot summaries ∧
      p.Reads (Formula.inputsOf (summaries.filterMap fun s => s.2.arg)) p' := by
  induction summaries generalizing p ss with
  | nil =>
      cases pure_eq_ok.1 h
      exact ⟨rfl, .refl _⟩
  | cons s summaries ih =>
      rw [List.mapM_cons] at h
      obtain ⟨y, q, hs, h⟩ := bind_eq_ok.1 h
      obtain ⟨ss, q₁, hsummaries, h⟩ := bind_eq_ok.1 h
      cases pure_eq_ok.1 h
      obtain ⟨e, q, he, hs⟩ := bind_eq_ok.1 hs
      cases pure_eq_ok.1 hs
      obtain ⟨rfl, hreads⟩ := summary_eq_ok he
      obtain ⟨rfl, hreads'⟩ := ih hsummaries
      refine ⟨by rw [groupSummaries, hreads.nextSlot_formulas], ?_⟩
      have hformulas : (s :: summaries).filterMap (fun s => s.2.arg) =
          s.2.arg.toList ++ summaries.filterMap fun s => s.2.arg := by
        cases harg : s.2.arg <;> simp [harg]
      rw [hformulas, Formula.inputsOf_append]
      exact hreads.trans hreads'

lemma terminalArgument_eq_ok {terminal : Terminal} {arg : Option Formula}
    {r : Formula × Progress} (h : terminalArgument terminal arg p = .ok r) :
    ∃ f, arg = some f ∧ r = (f, p) := by
  cases arg with
  | some f => exact ⟨f, rfl, pure_eq_ok.1 h⟩
  | none => simp [terminalArgument] at h

/-- A terminal that is accepted becomes a scalar. -/
lemma terminal_eq_ok {q : Query} {terminal : Terminal} {arg : Option Formula}
    {r : Frame × YieldedScalar} (h : tr.terminal frame terminal arg p = .ok (r, p')) :
    Concludes tr frame p.nextSlot terminal arg r.1 r.2 p'.nextSlot ∧
      p.Reads (Formula.inputsOf (Query.conclude q terminal arg).readFormulas) p' := by
  simp only [Translator.terminal] at h
  cases hfunction : terminal.function? with
  | some function =>
      simp only [hfunction] at h
      obtain ⟨f, q₁, harg, h⟩ := bind_eq_ok.1 h
      obtain ⟨_, rfl, hr⟩ := terminalArgument_eq_ok harg
      cases hr
      replace h := after_check (fun _ hs => pure_eq_ok.1 (refuse_eq_ok.1 hs).2) h
      obtain ⟨e, q₁, hf, h⟩ := bind_eq_ok.1 h
      cases pure_eq_ok.1 h
      obtain ⟨rfl, hreads⟩ := formula_eq_ok f hf
      have hread : (Query.conclude q terminal (some f)).readFormulas = [f] := by
        cases terminal <;> first | rfl | cases hfunction
      rw [hreads.nextSlot_formula, hread, Formula.inputsOf_singleton]
      exact ⟨.summary hfunction, hreads⟩
  | none =>
      simp only [hfunction] at h
      cases terminal with
      | count =>
          cases pure_eq_ok.1 h
          exact ⟨.count, .refl _⟩
      | any =>
          cases pure_eq_ok.1 h
          exact ⟨.any, .refl _⟩
      | all =>
          obtain ⟨f, q₁, harg, h⟩ := bind_eq_ok.1 h
          obtain ⟨_, rfl, hr⟩ := terminalArgument_eq_ok harg
          cases hr
          obtain ⟨e, q₁, hf, h⟩ := bind_eq_ok.1 h
          cases pure_eq_ok.1 h
          obtain ⟨rfl, hreads⟩ := condition_eq_ok hf
          rw [hreads.nextSlot_formula, Query.readFormulas, Query.formulas, Option.toList_some,
            Formula.inputsOf_singleton]
          · exact ⟨.all, hreads⟩
          all_goals simp
      | sum | min | max | average => cases hfunction

lemma correlationTerm_eq_ok {c : Correlation} {source : Binding} {r : Term × Progress}
    (h : tr.correlationTerm c source p = .ok r) :
    ∃ term, tr.correlated c source = some term ∧ r = (term, p) := by
  rw [correlationTerm] at h
  rw [correlated]
  cases hkind : c.kind with
  | unnest path =>
      rw [hkind] at h
      exact ⟨_, rfl, pure_eq_ok.1 h⟩
  | lookup sourceField targetField =>
      simp only [hkind] at h
      obtain ⟨k, q, hk, h⟩ := bind_eq_ok.1 h
      obtain ⟨_, hkeyspace, hr⟩ := keyspace_eq_ok hk
      cases hr
      rw [hkeyspace]
      exact ⟨_, rfl, pure_eq_ok.1 h⟩

/-- A frame that is entered starts where the input ends. -/
lemma Lowered.enter {n : Nat} {input : Query} {s : Stage} {closed : Frame → Bool}
    {is : List Input} {q q₁ : Progress}
    (hinput : Lowered tr n input s q.nextSlot ∧ p.Reads is q)
    (henter : s.enter closed q = .ok (frame, q₁)) :
    Lowered tr n input s q₁.nextSlot ∧ s.Enters closed frame ∧ p.Reads is q₁ := by
  obtain ⟨henters, hnone⟩ := Stage.enter_eq_ok henter
  have hslot : q₁.nextSlot = q.nextSlot := hnone.nextSlot
  refine ⟨hslot ▸ hinput.1, henters, ?_⟩
  simpa using hinput.2.trans hnone

/-! ## Translations operator by operator

A translation that succeeds is taken apart here, once for each operator, and what is proved of
stages that are reached with their parameters starts from these steps.  An operator with one input
starts from the frame that its input has become; what it reads there and what it makes of the frame
is all that sets it apart from the others. -/

/-- What an operator over an input makes of a frame.  It starts from a new frame where `closed`
holds of that of the input, and `p` and `p'` are the progress before and behind what it reads. -/
inductive Adds (tr : Translator) (frame : Frame) (p : Progress) :
    (q input : Query) → (closed : Frame → Bool) → (frame' : Frame) → (p' : Progress) → Prop
  | filter {input predicate e p'} (he : tr.condition frame "filter" predicate p = .ok (e, p')) :
      Adds tr frame p (.filter input predicate) input Frame.isSettled (frame.restrict e) p'
  | project {input projection y p'} (hy : tr.projection frame projection p = .ok (y, p')) :
      Adds tr frame p (.project input projection) input Frame.isSealed (frame.yielding y) p'
  | orderBy {input key descending e p'} (he : tr.formula frame key p = .ok (e, p')) :
      Adds tr frame p (.orderBy input key descending) input Frame.isSettled
        { frame with orderBy := [⟨e, descending⟩] } p'
  | thenBy {input key descending e p'} (hordered : frame.isOrdered = true)
      (hsettled : frame.isSettled = false) (he : tr.formula frame key p = .ok (e, p')) :
      -- the frame of the input is ordered itself, so that a new one is no alternative
      Adds tr frame p (.thenBy input key descending) input (fun _ => false)
        { frame with orderBy := frame.orderBy ++ [⟨e, descending⟩] } p'
  | groupBy {input keys summaries ks ss p₁ p'}
      (hkeys : keys.mapM (tr.groupKey frame) p = .ok (ks, p₁))
      (hsummaries : summaries.mapM (tr.groupSummary frame) p₁ = .ok (ss, p'))
      (hnames : firstRepeated [] ((ks ++ ss).map Prod.fst) = none) :
      Adds tr frame p (.groupBy input keys summaries) input Frame.isArranged
        (frame.grouped ks ss) p'
  | correlate {input fields source term} {c : Correlation}
      (hfields : frame.yield.scopeFields? = some fields)
      (hsource : frame.binding? c.sourceAlias = some source)
      (hfresh : frame.takes c.aliasName = false) (hterm : tr.correlated c source = some term) :
      Adds tr frame p (.correlate input c) input Frame.isSettled
        (frame.extend fields term ⟨c.aliasName, c.target, .ident c.aliasName, c.optional⟩) p
  | skip {input count e p'} (he : tr.rowCount frame "skip" count p = .ok (e, p')) :
      Adds tr frame p (.skip input count) input Frame.isSettled
        { frame with offset := some e } p'
  | take {input count e p'} (he : tr.rowCount frame "take" count p = .ok (e, p')) :
      Adds tr frame p (.take input count) input (fun f => f.isLimited || f.isSealed)
        { frame with limit := some e } p'
  | distinct {input} :
      Adds tr frame p (.distinct input) input Frame.isArranged { frame with distinct := true } p
  | conclude {input terminal arg frame' scalar p'}
      (hterminal : tr.terminal frame terminal arg p = .ok ((frame', scalar), p')) :
      Adds tr frame p (.conclude input terminal arg) input Frame.isSettled
        (frame'.concluded scalar) p'

/-- How a translation that succeeds has come about, from the translations of the inputs. -/
inductive Translates (tr : Translator) : Query → Progress → Stage → Progress → Prop
  | source {p entity aliasName k} (hkeyspace : tr.model.keyspace? entity = some k) :
      Translates tr (.source entity aliasName) p (.frame (.ofKeyspace k entity aliasName)) p
  | operator {q input closed s frame frame' p p₀ p₁ p'} (hs : tr.stage input p = .ok (s, p₀))
      (hinput : Translates tr input p s p₀) (henter : s.enter closed p₀ = .ok (frame, p₁))
      (hadds : Adds tr frame p₁ q input closed frame' p') :
      Translates tr q p (.frame frame') p'
  | join {kind matching left right ls rs frame fields b le re p p₁ p₂ p₃ p₄ p'}
      {leftKey rightKey : Formula} (hmatching : JoinKind.matching? kind = some matching)
      (hl : tr.stage left p = .ok (ls, p₁)) (hleft : Translates tr left p ls p₁)
      (hr : tr.stage right p₁ = .ok (rs, p₂)) (hright : Translates tr right p₁ rs p₂)
      (henter : ls.enter Frame.isSettled p₂ = .ok (frame, p₃))
      (hfields : frame.yield.scopeFields? = some fields) (hyield : rs.yield = .entity b)
      (hfresh : frame.takes b.aliasName = false)
      (hle : tr.formula { frame with scope := frame.scope ++ [b.joined matching] } leftKey p₃ =
        .ok (le, p₄))
      (hre : tr.formula { frame with scope := frame.scope ++ [b.joined matching] } rightKey p₄ =
        .ok (re, p')) :
      Translates tr (.join kind left right leftKey rightKey) p
        (.frame (frame.extend fields (.join matching (rs.sourceAs b.aliasName)
          (.binary .eq le re)) (b.joined matching))) p'
  | combine {op left right ls rs p p₁ p₂}
      (hcompatible : left.element.isCompatible right.element = true)
      (hl : tr.stage left p = .ok (ls, p₁)) (hleft : Translates tr left p ls p₁)
      (hr : tr.stage right p₁ = .ok (rs, p₂)) (hright : Translates tr right p₁ rs p₂) :
      Translates tr (.combine op left right) p
        (.compound (.compound op ls.statement rs.statement) ls.yield) p₂

/-- **A translation that succeeds has come about from those of its inputs.** -/
theorem translates_of_stage {q : Query} {s : Stage} (h : tr.stage q p = .ok (s, p')) :
    Translates tr q p s p' := by
  induction q generalizing p p' s with
  | source entity aliasName =>
      obtain ⟨k, q, hk, h⟩ := bind_eq_ok.1 h
      obtain ⟨_, hkeyspace, hr⟩ := keyspace_eq_ok hk
      cases hr
      cases pure_eq_ok.1 h
      exact .source hkeyspace
  | filter input predicate ih =>
      obtain ⟨s, q, hs, h⟩ := bind_eq_ok.1 h
      obtain ⟨frame, q₁, henter, h⟩ := bind_eq_ok.1 h
      obtain ⟨e, q₂, he, h⟩ := bind_eq_ok.1 h
      cases pure_eq_ok.1 h
      exact .operator hs (ih hs) henter (.filter he)
  | project input projection ih =>
      obtain ⟨s, q, hs, h⟩ := bind_eq_ok.1 h
      obtain ⟨frame, q₁, henter, h⟩ := bind_eq_ok.1 h
      obtain ⟨y, q₂, hy, h⟩ := bind_eq_ok.1 h
      cases pure_eq_ok.1 h
      exact .operator hs (ih hs) henter (.project hy)
  | orderBy input key descending ih =>
      obtain ⟨s, q, hs, h⟩ := bind_eq_ok.1 h
      obtain ⟨frame, q₁, henter, h⟩ := bind_eq_ok.1 h
      obtain ⟨e, q₂, he, h⟩ := bind_eq_ok.1 h
      cases pure_eq_ok.1 h
      exact .operator hs (ih hs) henter (.orderBy he)
  | thenBy input key descending ih =>
      obtain ⟨s, q, hs, h⟩ := bind_eq_ok.1 h
      cases s with
      | frame frame =>
          obtain ⟨hopen, h⟩ := guard_eq_ok.1 h
          obtain ⟨e, q₂, he, h⟩ := bind_eq_ok.1 h
          cases pure_eq_ok.1 h
          simp only [Bool.and_eq_true, Bool.not_eq_true'] at hopen
          have hsettled : frame.isSettled = false := by
            rw [Frame.isSettled, hopen.1.2, hopen.2, Bool.or_false]
          have henter : (Stage.frame frame).enter (fun _ => false) q = .ok (frame, q) := rfl
          exact .operator hs (ih hs) henter (.thenBy hopen.1.1 hsettled he)
      | compound statement yield => simp at h
  | groupBy input keys summaries ih =>
      obtain ⟨s, q, hs, h⟩ := bind_eq_ok.1 h
      obtain ⟨frame, q₁, henter, h⟩ := bind_eq_ok.1 h
      obtain ⟨ks, q₂, hkeys, h⟩ := bind_eq_ok.1 h
      obtain ⟨ss, q₃, hsummaries, h⟩ := bind_eq_ok.1 h
      obtain ⟨_, q₄, hcheck, h⟩ := bind_eq_ok.1 h
      obtain ⟨hnames, heq⟩ := checkNames_eq_ok hcheck
      cases heq
      cases pure_eq_ok.1 h
      rw [List.map_map] at hnames
      exact .operator hs (ih hs) henter (.groupBy hkeys hsummaries hnames)
  | join kind left right leftKey rightKey ihl ihr =>
      obtain ⟨matching, q, hm, h⟩ := bind_eq_ok.1 h
      obtain ⟨_, hmatching, hr⟩ := JoinKind.matching_eq_ok hm
      cases hr
      obtain ⟨ls, p₁, hl, h⟩ := bind_eq_ok.1 h
      obtain ⟨rs, p₂, hr, h⟩ := bind_eq_ok.1 h
      obtain ⟨frame, p₃, henter, h⟩ := bind_eq_ok.1 h
      obtain ⟨fields, q, hf, h⟩ := bind_eq_ok.1 h
      obtain ⟨_, hfields, heq⟩ := Frame.fieldsFor_eq_ok hf
      cases heq
      obtain ⟨joined, q, hj, h⟩ := bind_eq_ok.1 h
      obtain ⟨b, hyield, heq⟩ := Stage.joinSource_eq_ok hj
      cases heq
      obtain ⟨_, q, halias, h⟩ := bind_eq_ok.1 h
      obtain ⟨hfresh, heq⟩ := Frame.checkAlias_eq_ok halias
      cases heq
      obtain ⟨-, h⟩ := refuse_bind_eq_ok.1 h
      obtain ⟨le, p₄, hle, h⟩ := bind_eq_ok.1 h
      obtain ⟨re, q, hre, h⟩ := bind_eq_ok.1 h
      cases pure_eq_ok.1 h
      exact .join hmatching hl (ihl hl) hr (ihr hr) henter hfields hyield hfresh hle hre
  | correlate input c ih =>
      obtain ⟨s, q, hs, h⟩ := bind_eq_ok.1 h
      obtain ⟨frame, q₁, henter, h⟩ := bind_eq_ok.1 h
      obtain ⟨fields, q₂, hf, h⟩ := bind_eq_ok.1 h
      obtain ⟨_, hfields, heq⟩ := Frame.fieldsFor_eq_ok hf
      cases heq
      cases hsource : frame.binding? c.sourceAlias with
      | none => simp [hsource] at h
      | some source =>
          simp only [hsource] at h
          obtain ⟨_, q₃, halias, h⟩ := bind_eq_ok.1 h
          obtain ⟨hfresh, heq⟩ := Frame.checkAlias_eq_ok halias
          cases heq
          obtain ⟨term, q₃, hterm, h⟩ := bind_eq_ok.1 h
          obtain ⟨_, hcorrelated, heq⟩ := correlationTerm_eq_ok hterm
          cases heq
          cases pure_eq_ok.1 h
          exact .operator hs (ih hs) henter (.correlate hfields hsource hfresh hcorrelated)
  | skip input count ih =>
      obtain ⟨s, q, hs, h⟩ := bind_eq_ok.1 h
      obtain ⟨frame, q₁, henter, h⟩ := bind_eq_ok.1 h
      obtain ⟨e, q₂, he, h⟩ := bind_eq_ok.1 h
      cases pure_eq_ok.1 h
      exact .operator hs (ih hs) henter (.skip he)
  | take input count ih =>
      obtain ⟨s, q, hs, h⟩ := bind_eq_ok.1 h
      obtain ⟨frame, q₁, henter, h⟩ := bind_eq_ok.1 h
      obtain ⟨e, q₂, he, h⟩ := bind_eq_ok.1 h
      cases pure_eq_ok.1 h
      exact .operator hs (ih hs) henter (.take he)
  | distinct input ih =>
      obtain ⟨s, q, hs, h⟩ := bind_eq_ok.1 h
      obtain ⟨frame, q₁, henter, h⟩ := bind_eq_ok.1 h
      cases pure_eq_ok.1 h
      exact .operator hs (ih hs) henter .distinct
  | combine op left right ihl ihr =>
      obtain ⟨hcompatible, h⟩ := refuse_bind_eq_ok.1 h
      obtain ⟨ls, q₁, hl, h⟩ := bind_eq_ok.1 h
      obtain ⟨rs, q₂, hr, h⟩ := bind_eq_ok.1 h
      cases pure_eq_ok.1 h
      exact .combine (by simpa using hcompatible) hl (ihl hl) hr (ihr hr)
  | conclude input terminal arg ih =>
      obtain ⟨s, q, hs, h⟩ := bind_eq_ok.1 h
      obtain ⟨frame, q₁, henter, h⟩ := bind_eq_ok.1 h
      obtain ⟨⟨frame', scalar⟩, q₂, ht, h⟩ := bind_eq_ok.1 h
      cases pure_eq_ok.1 h
      exact .operator hs (ih hs) henter (.conclude ht)

/-- The steps of a join: its sides, the frame of the left one, and the keys with both in scope. -/
lemma join_eq_ok {kind : JoinKind} {left right : Query} {leftKey rightKey : Formula} {s : Stage}
    (h : tr.stage (.join kind left right leftKey rightKey) p = .ok (s, p')) :
    ∃ matching ls p₁ rs p₂ frame p₃ fields b le p₄ re,
      JoinKind.matching? kind = some matching ∧ tr.stage left p = .ok (ls, p₁) ∧
      tr.stage right p₁ = .ok (rs, p₂) ∧ ls.enter Frame.isSettled p₂ = .ok (frame, p₃) ∧
      frame.yield.scopeFields? = some fields ∧ rs.yield = .entity b ∧
      frame.takes b.aliasName = false ∧
      tr.formula { frame with scope := frame.scope ++ [b.joined matching] } leftKey p₃ =
        .ok (le, p₄) ∧
      tr.formula { frame with scope := frame.scope ++ [b.joined matching] } rightKey p₄ =
        .ok (re, p') ∧
      s = .frame (frame.extend fields
        (.join matching (rs.sourceAs b.aliasName) (.binary .eq le re)) (b.joined matching)) := by
  cases translates_of_stage h with
  | operator _ _ _ hadds => cases hadds
  | join hmatching hl _ hr _ henter hfields hyield hfresh hle hre =>
      exact ⟨_, _, _, _, _, _, _, _, _, _, _, _, hmatching, hl, hr, henter, hfields, hyield, hfresh,
        hle, hre, rfl⟩

/-- An operator reads its formulas behind what its input reads. -/
lemma Adds.inputs {q input : Query} {closed : Frame → Bool} {frame' : Frame}
    (h : Adds tr frame p q input closed frame' p') :
    q.inputs = input.inputs ++ Formula.inputsOf q.readFormulas := by
  cases h <;> rfl

/-- An operator reads its formulas. -/
lemma Adds.reads {q input : Query} {closed : Frame → Bool} {frame' : Frame}
    (h : Adds tr frame p q input closed frame' p') :
    p.Reads (Formula.inputsOf q.readFormulas) p' := by
  cases h with
  | filter he => simpa [Query.readFormulas, Query.formulas] using (condition_eq_ok he).2
  | project hy => exact (projection_eq_ok hy).2
  | @orderBy input key _ _ _ he | @thenBy input key _ _ _ _ _ he =>
      simpa [Query.readFormulas, Query.formulas] using (formula_eq_ok key he).2
  | groupBy hkeys hsummaries _ =>
      simpa [Query.readFormulas, Query.formulas, Formula.inputsOf_append] using
        (groupKeys_eq_ok hkeys).2.trans (groupSummaries_eq_ok hsummaries).2
  | correlate | distinct => exact .refl p
  | skip he | take he =>
      simpa [Query.readFormulas, Query.formulas] using (rowCount_eq_ok he).2
  | @conclude input _ _ _ _ _ ht => exact (terminal_eq_ok (q := input) ht).2

/-- What an operator adds follows its rule. -/
lemma Adds.lowered {n : Nat} {q input : Query} {s : Stage} {closed : Frame → Bool}
    {frame' : Frame} (h : Adds tr frame p q input closed frame' p')
    (hinput : Lowered tr n input s p.nextSlot) (henter : s.Enters closed frame) :
    Lowered tr n q (.frame frame') p'.nextSlot := by
  cases h with
  | filter he =>
      obtain ⟨rfl, hreads⟩ := condition_eq_ok he
      exact hreads.nextSlot_formula ▸ .filter hinput henter
  | project hy =>
      obtain ⟨rfl, hreads⟩ := projection_eq_ok hy
      exact hreads.nextSlot_formulas ▸ .project hinput henter
  | @orderBy input key _ _ _ he =>
      obtain ⟨rfl, hreads⟩ := formula_eq_ok key he
      exact hreads.nextSlot_formula ▸ .orderBy hinput henter
  | @thenBy input key _ _ _ hordered hsettled he =>
      obtain ⟨rfl, hreads⟩ := formula_eq_ok key he
      rw [hreads.nextSlot_formula]
      cases henter with
      | kept => exact .thenBy hinput hordered hsettled
      | nested hclosed => cases hclosed
      | compound => cases hordered
  | groupBy hkeys hsummaries _ =>
      obtain ⟨rfl, hreads⟩ := groupKeys_eq_ok hkeys
      obtain ⟨rfl, hreads'⟩ := groupSummaries_eq_ok hsummaries
      exact hreads'.nextSlot_formulas ▸ .groupBy hinput henter hreads.nextSlot_formulas
  | correlate hfields hsource hfresh hterm =>
      exact .correlate hinput henter hfields hsource hfresh hterm
  | skip he =>
      obtain ⟨rfl, hreads⟩ := rowCount_eq_ok he
      exact hreads.nextSlot_formula ▸ .skip hinput henter
  | take he =>
      obtain ⟨rfl, hreads⟩ := rowCount_eq_ok he
      exact hreads.nextSlot_formula ▸ .take hinput henter
  | distinct => exact .distinct hinput henter
  | @conclude input _ _ _ _ _ ht =>
      exact .conclude hinput henter (terminal_eq_ok (q := input) ht).1

/-- A translation follows the rules, and reads the inputs of its query. -/
lemma Translates.lowered {q : Query} {s : Stage} (h : Translates tr q p s p') :
    Lowered tr p.nextSlot q s p'.nextSlot ∧ p.Reads q.inputs p' := by
  induction h with
  | source hkeyspace => exact ⟨.source hkeyspace, .refl _⟩
  | operator _ _ henter hadds ih =>
      obtain ⟨hinput, henters, hreads⟩ := Lowered.enter ih henter
      rw [hadds.inputs]
      exact ⟨hadds.lowered hinput henters, hreads.trans hadds.reads⟩
  | @join kind matching left right ls rs frame fields b le re p p₁ p₂ p₃ p₄ p' leftKey rightKey
      hmatching _ _ _ _ henter hfields hyield hfresh hle hre ihl ihr =>
      obtain ⟨hleft, hreads⟩ := ihl
      obtain ⟨hright, hreads₁⟩ := ihr
      obtain ⟨henters, hreads₂⟩ := Stage.enter_eq_ok henter
      obtain ⟨rfl, hreads₃⟩ := formula_eq_ok leftKey hle
      obtain ⟨rfl, hreads₄⟩ := formula_eq_ok rightKey hre
      have hslot : p₃.nextSlot = p₂.nextSlot := hreads₂.nextSlot
      rw [hreads₄.nextSlot_formula, hreads₃.nextSlot_formula, hslot]
      refine ⟨.join hmatching hleft hright henters hfields hyield hfresh rfl, ?_⟩
      simpa [Query.inputs, Query.readFormulas, Query.formulas, Formula.inputsOf] using
        (((hreads.trans hreads₁).trans hreads₂).trans hreads₃).trans hreads₄
  | combine hcompatible _ _ _ _ ihl ihr =>
      refine ⟨.combine hcompatible ihl.1 ihr.1, ?_⟩
      simpa [Query.inputs, Query.readFormulas, Query.formulas, Formula.inputsOf] using
        ihl.2.trans ihr.2

/-- **A translation that succeeds follows the rules**, and reads the inputs of its query. -/
theorem stage_eq_ok {q : Query} {s : Stage} (h : tr.stage q p = .ok (s, p')) :
    Lowered tr p.nextSlot q s p'.nextSlot ∧ p.Reads q.inputs p' :=
  (translates_of_stage h).lowered

/-! ## Slots -/

lemma Concludes.slots {n m : Nat} {terminal : Terminal} {arg : Option Formula} {frame' : Frame}
    {s : YieldedScalar} (q : Query) (h : Concludes tr frame n terminal arg frame' s m) :
    m = n + (slotsOf (Formula.inputsOf (Query.conclude q terminal arg).readFormulas)).length := by
  cases h with
  | @summary terminal function f hfunction =>
      have hread : (Query.conclude q terminal (some f)).readFormulas = [f] := by
        cases terminal <;> first | rfl | cases hfunction
      rw [hread, Formula.inputsOf_singleton, Formula.length_slots]
  | count => rfl
  | any => rfl
  | @all f =>
      have hread : (Query.conclude q .all (some f)).readFormulas = [f] := rfl
      rw [hread, Formula.inputsOf_singleton, Formula.length_slots]

/-- A query that is lowered takes the slots of its inputs. -/
theorem Lowered.slots {n m : Nat} {q : Query} {s : Stage} (h : Lowered tr n q s m) :
    m = n + (slotsOf q.inputs).length := by
  induction h with
  | source => rfl
  | filter _ _ ih | orderBy _ _ ih | thenBy _ _ _ ih | skip _ _ ih | take _ _ ih =>
      rw [Query.inputs, Query.readFormulas, Query.formulas, slotsOf_append, List.length_append,
        Formula.inputsOf_singleton, Formula.length_slots, ih, Nat.add_assoc]
      all_goals simp
  | project _ _ ih =>
      rw [Query.inputs, Query.readFormulas, Query.formulas, slotsOf_append, List.length_append,
        Formula.length_slotsOf, ih, Nat.add_assoc]
      all_goals simp
  | groupBy _ _ hslots ih =>
      rw [Query.inputs, Query.readFormulas, Query.formulas, slotsOf_append, List.length_append,
        Formula.inputsOf_append, slotsOf_append, List.length_append, Formula.length_slotsOf,
        Formula.length_slotsOf, hslots, ih]
      · omega
      all_goals simp
  | join _ _ _ _ _ _ _ _ ihl ihr =>
      rw [ihr, ihl]
      simp [Query.inputs, Query.readFormulas, Query.formulas, Formula.inputsOf,
        Formula.length_slots, Nat.add_assoc]
  | correlate _ _ _ _ _ _ ih | distinct _ _ ih =>
      rw [ih]
      simp [Query.inputs, Query.readFormulas, Query.formulas, Formula.inputsOf]
  | combine _ _ _ ihl ihr =>
      rw [ihr, ihl]
      simp [Query.inputs, Query.readFormulas, Query.formulas, Formula.inputsOf, Nat.add_assoc]
  | @conclude n m m' input s frame frame' terminal arg scalar _ _ hterminal ih =>
      rw [Query.inputs, slotsOf_append, List.length_append, hterminal.slots input, ih,
        Nat.add_assoc]

end Translator
end EntityQuery
