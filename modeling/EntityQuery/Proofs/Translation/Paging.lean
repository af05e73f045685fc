import EntityQuery.Proofs.Scalar.RoundTrip
import EntityQuery.Proofs.Translation.Combining
import EntityQuery.Proofs.Translation.Counting

/-!
# Parts of the rows of a query

Skipping rows, taking rows and leaving out repetitions are clauses of the selection that a query
already is, as long as they come after what the selection does last.  Otherwise the statement
becomes a source, whose rows are read through an alias, and the clause is that of a new selection.
In either case the rows are those of the query with the list operation applied.

* `RowCount`: a constant that names a number of rows.
* `RowStep`: a step that keeps a part of the rows, as an operator and as an operation on lists.
* `RowStep.WrittenBy`: the number of a step is sent as it is; `RowStep.writtenBy` for the codecs of
  integers.
* `Stage.Enters.run`: a frame that is entered has the rows of its stage.
* `Query.HasRows.skip`, `Query.HasRows.take` and `Query.HasRows.distinct`: single steps.
* `rows_steps`: a chain of steps has the rows that the list operations leave, one after the other.
-/

namespace EntityQuery

/-! ## Constants that count

A number of rows is a formula, and may be computed.  Here it is a constant, so that it is known
before the statement is run. -/

/-- The number that a constant of an integer type names, if it is not negative. -/
def Formula.rowNumber? : Formula → Option Nat
  | .constant (.int32 n) .int32 | .constant (.int32 n) .int64 =>
    if 0 ≤ n.toInt then some n.toInt.toNat else none
  | .constant (.int64 n) .int64 => if 0 ≤ n.toInt then some n.toInt.toNat else none
  | _ => none

/-- A constant that names a number of rows. -/
structure RowCount where
  formula : Formula
  number : Nat
  names : formula.rowNumber? = some number

/-- A value that is sent for a constant of a type as a number of rows. -/
structure Registry.Writes (r : Registry) (v : Value) (t : ScalarType) (n : Nat) : Prop where
  isInteger : t.isInteger = true
  isCount : v.isCount = true
  fits : fitsInt64 n = true
  written : ∃ codec, r.find t = .ok codec ∧ codec.encode v = .ok (.ofInt n)

/-- The value of a constant is sent as the number that the constant names. -/
def RowCount.WrittenBy (r : Registry) (count : RowCount) : Prop :=
  ∃ v t, count.formula = .constant v t ∧ r.Writes v t count.number

/-- The types of integers have their own codecs. -/
structure Registry.KeepsIntegers (r : Registry) : Prop where
  int32 : r.find .int32 = .ok .int32
  int64 : r.find .int64 = .ok .int64

lemma Registry.keepsIntegers_standard : Registry.standard.KeepsIntegers := ⟨rfl, rfl⟩

/-- With the codecs of integers, each number is sent as it is. -/
lemma RowCount.writtenBy {r : Registry} (hr : r.KeepsIntegers) (count : RowCount) :
    count.WrittenBy r := by
  have hwritten : ∀ {i : Int} {codec : Codec} {v : Value} {t : ScalarType}, 0 ≤ i →
      fitsInt64 i = true → t.isInteger = true → v.isCount = true → r.find t = .ok codec →
      codec.encode v = .ok (.ofInt i) → r.Writes v t i.toNat := by
    intro i codec v t hi hfits ht hv hcodec hencode
    rw [← Int.toNat_of_nonneg hi] at hfits hencode
    exact ⟨ht, hv, hfits, codec, hcodec, hencode⟩
  obtain ⟨formula, number, hnames⟩ := count
  have hnumber := hnames
  rw [Formula.rowNumber?.eq_def] at hnumber
  split at hnumber
  case h_4 => cases hnumber
  all_goals
    rename_i n
    split_ifs at hnumber with hpositive
    cases hnumber
    refine ⟨_, _, rfl, ?_⟩
  · have hfits := Codec.fitsInt64_of_fitsInt32 (Codec.fitsInt32_toInt n)
    exact hwritten hpositive hfits rfl (decide_eq_true hpositive) hr.int32 rfl
  · have hfits := Codec.fitsInt64_of_fitsInt32 (Codec.fitsInt32_toInt n)
    exact hwritten hpositive hfits rfl (decide_eq_true hpositive) hr.int64 rfl
  · exact hwritten hpositive (Codec.fitsInt64_toInt n) rfl (decide_eq_true hpositive) hr.int64 rfl

/-! ## Tables and values -/

namespace ParameterTable

/-- Marking the entry that has been pushed last, whose name is new. -/
lemma markRowCount_push {t : ParameterTable} {e : ParameterEntry} (h : t.find? e.name = none) :
    (t.push e).markRowCount e.name = t.push { e with rowCount := true } := by
  obtain ⟨entries⟩ := t
  simp only [push, markRowCount, find?] at h ⊢
  congr 1
  induction entries with
  | nil => simp [markFirst]
  | cons first entries ih =>
      rw [List.find?_cons] at h
      cases hname : first.name == e.name with
      | true =>
          rw [hname] at h
          cases h
      | false =>
          rw [hname] at h
          rw [List.cons_append, markFirst, if_neg (by simpa using hname), ih h, List.cons_append]

end ParameterTable

/-- The entry of a constant that counts rows. -/
def ParameterEntry.counting (slot : Nat) (t : ScalarType) : ParameterEntry :=
  ⟨slotName slot, t, .constant slot, true⟩

/-- The constant of the last slot is bound to the integer that it is written as. -/
lemma ParameterEntry.bind_counting {r : Registry} {v : Value} {t : ScalarType} {n : Nat}
    (h : r.Writes v t n) (cs : List Captured) (c : Context) :
    ∃ codec, r.find t = .ok codec ∧
      (counting cs.length t).bind codec (cs ++ [⟨v, t⟩]) c =
        .ok (slotName cs.length, .ofInt n) := by
  obtain ⟨codec, hcodec, hencode⟩ := h.written
  have hsupply : (counting cs.length t).supply (cs ++ [⟨v, t⟩]) c = .ok v := by
    simp [supply, counting]
  have hcheck : (counting cs.length t).check v = .ok () := by
    have hcount := h.isCount
    rw [check]
    cases v <;> first | cases hcount | simp [Value.nonFinite?, hcount]
  exact ⟨codec, hcodec, bind_eq_ok.2 ⟨v, _, hsupply, hcheck, hencode, rfl⟩⟩

/-- **A further constant that counts rows is bound behind the parameters that were there.** -/
lemma Plan.bind_push {r : Registry} {v : Value} {type : ScalarType} {n : Nat}
    (h : r.Writes v type n) {key : PlanKey} {number : Nat} {t : Translation} {plan : Plan}
    {cs : List Captured} {c : Context} {parameters : List (String × Document)}
    (hplan : compile r key number t = .ok plan) (hbind : plan.bind cs c = .ok parameters)
    (t' : Translation)
    (htable : t'.query.parameters = t.query.parameters.push (.counting cs.length type)) :
    ∃ plan', compile r key number t' = .ok plan' ∧
      plan'.bind (cs ++ [⟨v, type⟩]) c =
        .ok (parameters ++ [(slotName cs.length, .ofInt n)]) := by
  obtain ⟨entries, hentries, hplan⟩ := Computation.bind_eq_ok.1 hplan
  cases hplan
  obtain ⟨codec, hcodec, hcounted⟩ := ParameterEntry.bind_counting h cs c
  refine ⟨⟨key, t'.query.statement, entries ++ [(.counting cs.length type, codec)], t'.shape, number⟩,
    ?_, ?_⟩
  · refine Computation.bind_eq_ok.2 ⟨_, ?_, rfl⟩
    rw [htable, Computation.mapM_eq_ok]
    refine List.rel_append (Computation.mapM_eq_ok.1 hentries) (.cons ?_ .nil)
    exact Computation.bind_eq_ok.2 ⟨codec, hcodec, rfl⟩
  · rw [bind, Computation.mapM_eq_ok] at *
    refine List.rel_append (hbind.imp fun entry p hp => ?_) (.cons hcounted .nil)
    exact ParameterEntry.bind_of_append hp _

/-- A plan of the same parameters binds the same values. -/
lemma Plan.bind_congr {r : Registry} {key : PlanKey} {number : Nat} {t t' : Translation} {plan : Plan}
    {cs : List Captured} {c : Context} {parameters : List (String × Document)}
    (hplan : compile r key number t = .ok plan) (hbind : plan.bind cs c = .ok parameters)
    (htable : t'.query.parameters = t.query.parameters) :
    ∃ plan', compile r key number t' = .ok plan' ∧ plan'.bind cs c = .ok parameters := by
  obtain ⟨entries, hentries, hplan⟩ := Computation.bind_eq_ok.1 hplan
  cases hplan
  refine ⟨⟨key, t'.query.statement, entries, t'.shape, number⟩, ?_, hbind⟩
  rw [compile, htable]
  exact Computation.bind_eq_ok.2 ⟨entries, hentries, rfl⟩

/-- A name without an entry has no value. -/
lemma Plan.find?_eq_none {r : Registry} {key : PlanKey} {number : Nat} {t : Translation} {plan : Plan}
    {cs : List Captured} {c : Context} {parameters : List (String × Document)} {name : String}
    (hplan : compile r key number t = .ok plan) (hbind : plan.bind cs c = .ok parameters)
    (h : t.query.parameters.find? name = none) :
    parameters.find? (fun p => p.1 == name) = none := by
  have hrel := find?_bound hplan hbind name
  rw [h] at hrel
  generalize parameters.find? (fun p => p.1 == name) = found at hrel ⊢
  cases hrel
  rfl

/-- An environment in which a further placeholder has a value. -/
lemma Environment.extends_append (collections : Collections)
    (parameters more : List (String × Document)) :
    Environment.Extends ⟨collections, parameters ++ more⟩ ⟨collections, parameters⟩ where
  collections := rfl
  parameters name d hd := by
    obtain ⟨p, hp, hd⟩ := Option.map_eq_some_iff.1 hd
    rw [parameter?, List.find?_append, hp]
    exact congrArg some hd

/-- A placeholder names the number of rows that is bound behind the other values. -/
lemma Expression.rowCount_placeholder {collections : Collections}
    {parameters : List (String × Document)} {name clause : String} {n : Nat}
    (hfits : fitsInt64 n = true) (hname : parameters.find? (fun p => p.1 == name) = none) :
    (Expression.placeholder name).rowCount ⟨collections, parameters ++ [(name, .ofInt n)]⟩ clause =
      .ok n := by
  have hvalue : Environment.parameter? ⟨collections, parameters ++ [(name, .ofInt n)]⟩ name =
      some (.ofInt n) := by
    simp [Environment.parameter?, List.find?_append, hname]
  have hint : (some (Document.ofInt n)).bind Document.int? = some (n : Int) := by
    simp [Document.ofInt, Document.int?, Number.toInt64?, hfits]
  have heval : (Expression.placeholder name).eval ⟨collections, parameters ++ [(name, .ofInt n)]⟩
      (.ofRow .empty) = .ok (some (.ofInt n)) := by
    rw [Expression.eval, hvalue]
  refine Computation.bind_eq_ok.2 ⟨_, heval, ?_⟩
  simp only [hint]
  rw [if_pos (Int.natCast_nonneg n), Int.toNat_natCast]

/-! ## Translations -/

/-- A constant that counts rows takes the next slot, and its entry is marked. -/
lemma Translator.rowCount_constant {tr : Translator} {frame : Frame} {construct : String} {v : Value}
    {t : ScalarType} {n : Nat} (h : tr.registry.Writes v t n) {p : Progress}
    (hnext : p.parameters.find? (slotName p.nextSlot) = none) :
    tr.rowCount frame construct (.constant v t) p =
      .ok (.placeholder (slotName p.nextSlot),
        ⟨p.parameters.push (.counting p.nextSlot t), p.nextSlot + 1, p.aliases⟩) := by
  obtain ⟨codec, hcodec, -⟩ := h.written
  have hmarked : (p.parameters.push ⟨slotName p.nextSlot, t, .constant p.nextSlot, false⟩).markRowCount
      (slotName p.nextSlot) = p.parameters.push (.counting p.nextSlot t) :=
    ParameterTable.markRowCount_push (e := ⟨slotName p.nextSlot, t, .constant p.nextSlot, false⟩) hnext
  have hconstant : tr.formula frame (.constant v t) p =
      .ok (.placeholder (slotName p.nextSlot),
        ⟨p.parameters.push ⟨slotName p.nextSlot, t, .constant p.nextSlot, false⟩, p.nextSlot + 1,
          p.aliases⟩) := by
    have htype : tr.codec t p = .ok (codec, p) := by
      rw [Translator.codec, hcodec]
      rfl
    refine Translating.bind_eq_ok.2 ⟨codec, p, htype, ?_⟩
    refine Translating.bind_eq_ok.2 ⟨p.nextSlot, _, rfl, ?_⟩
    have hbind : p.parameters.bindSlot p.nextSlot t =
        (p.parameters.push ⟨slotName p.nextSlot, t, .constant p.nextSlot, false⟩,
          slotName p.nextSlot) := by
      simp only [ParameterTable.bindSlot, hnext]
    exact congrArg (fun r : ParameterTable × String =>
      Except.ok (Expression.placeholder r.2, Progress.mk r.1 (p.nextSlot + 1) p.aliases)) hbind
  refine Translating.refuse_bind_eq_ok.2 ⟨by simp [Formula.scalarType, h.isInteger], ?_⟩
  refine Translating.bind_eq_ok.2 ⟨_, _, hconstant, ?_⟩
  refine Translating.bind_eq_ok.2 ⟨(), _, rfl, ?_⟩
  rw [← hmarked]
  rfl

/-- A query that has been translated leaves the slot behind those of its constants free. -/
lemma Query.WellFormed.nextSlot_free {q : Query} (hq : q.WellFormed) {p : Progress}
    (hreads : Progress.Reads {} q.inputs p) :
    p.nextSlot = q.constants.length ∧ p.parameters.find? (slotName p.nextSlot) = none := by
  have hnext : p.nextSlot = q.slots.length := by
    rw [hreads.nextSlot]
    exact Nat.zero_add _
  rw [hnext, ← hq.length_slots]
  exact ⟨rfl, (ParameterTable.aligned_empty.binds hreads.parameters).find?_next⟩

/-- A stage whose rows have a shape is a translation. -/
lemma Translator.translate_of_stage {tr : Translator} {q : Query} {s : Stage} {p : Progress}
    {shape : RowShape} (hstage : tr.stage q {} = .ok (s, p))
    (hshape : tr.rowShape s.yield = .ok shape) :
    tr.translate q = .ok ⟨⟨s.statement, p.parameters⟩, shape⟩ :=
  Computation.bind_eq_ok.2 ⟨(s, p), hstage, Computation.bind_eq_ok.2 ⟨shape, hshape, rfl⟩⟩

/-- Reading a yield through an alias does not change the shape of its rows. -/
lemma Translator.rowShape_rebase (tr : Translator) (y : Yield) (aliasName : String) :
    tr.rowShape (y.rebase aliasName) = tr.rowShape y := by
  cases y with
  | entity b => rfl
  | scalar s => rfl
  | record fields =>
      have hslots : (fields.map fun f => (f.1, f.2.withBase (.field (.ident aliasName) f.1))).mapM
          tr.recordSlot = fields.mapM tr.recordSlot := by
        rw [List.mapM_map]
        congr 1
        funext f
        obtain ⟨name, s | b⟩ := f <;> rfl
      rw [Yield.rebase, rowShape, rowShape, hslots]

/-! ## Frames

A clause can be added if the frame does nothing later than the clause would.  Otherwise the frame
becomes a source, which changes none of its rows. -/

/-- What is entered is open for the clause. -/
lemma Stage.Enters.isOpen {closed : Frame → Bool} {s : Stage} {f : Frame}
    (h : s.Enters closed f) (hopen : ∀ s y aliasName, closed (.ofStatement s y aliasName) = false) :
    closed f = false := by
  cases h with
  | kept hclosed => exact hclosed
  | nested => exact hopen ..
  | compound => exact hopen ..

/-- **A frame that is entered has the rows of its stage.** -/
lemma Stage.Enters.run {closed : Frame → Bool} {s : Stage} {f : Frame} {env : Environment}
    {documents : List Document} (h : s.Enters closed f) (hrun : s.statement.run env = .ok documents)
    (hfits : ∀ d ∈ documents, s.yield.Fits d) : f.finish.run env = .ok documents := by
  cases h with
  | kept => exact hrun
  | nested => exact Frame.run_ofStatement hrun hfits _
  | compound => exact Frame.run_ofStatement hrun hfits _

/-- A frame that is entered has the shape of its stage. -/
lemma Stage.Enters.rowShape {closed : Frame → Bool} {s : Stage} {f : Frame}
    (h : s.Enters closed f) (tr : Translator) : tr.rowShape f.yield = tr.rowShape s.yield := by
  cases h with
  | kept => rfl
  | nested => exact tr.rowShape_rebase _ _
  | compound => exact tr.rowShape_rebase _ _

namespace Frame

variable {env : Environment} {f : Frame} {e : Expression} {n : Nat} {documents : List Document}

/-- The documents that a frame makes, of which it returns a part. -/
def made (env : Environment) (f : Frame) : Except EvalError (List Document) := do
  let sources ← f.source.run env
  let rows ← runTerms env f.terms (sources.map (Row.single f.source.aliasName))
  let kept ← f.clauses.kept env rows
  let scopes ← f.clauses.scopes env kept
  let sorted ← f.clauses.ordered env scopes
  let projected ← sorted.mapM (f.clauses.selection.project env)
  .ok (projected.filterMap id)

lemma run_finish (env : Environment) (f : Frame) :
    f.finish.run env = f.made env >>= fun documents =>
      f.clauses.page env (if f.distinct then dedupe documents else documents) := by
  simp only [made, bind_assoc]
  rfl

/-- A frame of which no part is taken returns what it makes, without repetitions if it is distinct.
-/
lemma made_of_open (hopen : f.isPaged = false) (hrun : f.finish.run env = .ok documents) :
    ∃ ds, f.made env = .ok ds ∧ documents = if f.distinct then dedupe ds else ds := by
  obtain ⟨hlimit, hoffset⟩ := Bool.or_eq_false_iff.1 hopen
  rw [Option.isSome_eq_false_iff, Option.isNone_iff_eq_none] at hlimit hoffset
  rw [run_finish] at hrun
  obtain ⟨ds, hds, hpage⟩ := Computation.bind_eq_ok.1 hrun
  simp only [clauses, Clauses.page_eq, Clauses.skipped, Clauses.limited, hlimit, hoffset] at hpage
  cases hpage
  exact ⟨ds, hds, rfl⟩

/-- Of what it returns, an `OFFSET` drops the first documents. -/
lemma run_offset (hopen : f.isPaged = false) (hcount : e.rowCount env "OFFSET" = .ok n)
    (hrun : f.finish.run env = .ok documents) :
    (Frame.finish { f with offset := some e }).run env = .ok (documents.drop n) := by
  obtain ⟨ds, hds, rfl⟩ := made_of_open hopen hrun
  have hlimit : f.limit = none := by
    simpa using (Bool.or_eq_false_iff.1 hopen).1
  rw [run_finish]
  refine Computation.bind_eq_ok.2 ⟨ds, hds, ?_⟩
  simp only [clauses, Clauses.page_eq, Clauses.skipped, Clauses.limited, hlimit, hcount]
  rfl

/-- A frame without a limit returns what is behind its offset, of which a `LIMIT` takes the first.
-/
lemma run_limit (hopen : f.limit = none) (hcount : e.rowCount env "LIMIT" = .ok n)
    (hrun : f.finish.run env = .ok documents) :
    (Frame.finish { f with limit := some e }).run env = .ok (documents.take n) := by
  rw [run_finish] at hrun ⊢
  obtain ⟨ds, hds, hpage⟩ := Computation.bind_eq_ok.1 hrun
  refine Computation.bind_eq_ok.2 ⟨ds, hds, ?_⟩
  rw [Clauses.page_eq] at hpage ⊢
  obtain ⟨offset, hoffset, hpage⟩ := Computation.bind_eq_ok.1 hpage
  refine Computation.bind_eq_ok.2 ⟨offset, hoffset, ?_⟩
  simp only [clauses, Clauses.limited, hopen, hcount] at hpage ⊢
  cases hpage
  rfl

/-- If it had repetitions before, only the first occurrences are left of what it returns. -/
lemma run_distinct (hopen : f.isPaged = false) (hrepeats : f.distinct = false)
    (hrun : f.finish.run env = .ok documents) :
    (Frame.finish { f with distinct := true }).run env = .ok (firstOccurrences documents) := by
  obtain ⟨ds, hds, rfl⟩ := made_of_open hopen hrun
  obtain ⟨hlimit, hoffset⟩ := Bool.or_eq_false_iff.1 hopen
  rw [Option.isSome_eq_false_iff, Option.isNone_iff_eq_none] at hlimit hoffset
  rw [run_finish]
  refine Computation.bind_eq_ok.2 ⟨ds, hds, ?_⟩
  simp only [clauses, Clauses.page_eq, Clauses.skipped, Clauses.limited, hlimit, hoffset, hrepeats]
  rw [if_neg Bool.false_ne_true, ← dedupe_eq]
  rfl

end Frame

/-! ## Single steps

Each step is first a clause of a frame and then a list operation on its documents.  The value of the
new placeholder is bound behind those that were there. -/

section

variable {tr : Translator} {c : Context} {q q' : Query} {t : Translation} {collections : Collections}
  {parameters : List (String × Document)} {rows : List Document} {closed : Frame → Bool}

/-- **A clause with a number of rows.**  If an operator makes a clause of a number, and the clause
keeps a part of the documents of an open frame, then the query with the operator has this part of
the rows of the query. -/
lemma Query.HasRows.counted {count : RowCount} {construct : String}
    {clause : Frame → Expression → Frame} {part : List Document → List Document}
    (hwritten : count.WrittenBy tr.registry) (hq : q.WellFormed)
    (h : q.HasRows tr c t ⟨collections, parameters⟩ rows)
    (hstage : tr.stage q' = do
      let frame ← (← tr.stage q).enter closed
      let e ← tr.rowCount frame construct count.formula
      pure (.frame (clause frame e)))
    (hconstants : q'.constants = q.constants ++ Formula.constantsOf [count.formula])
    (hopen : ∀ s y aliasName, closed (.ofStatement s y aliasName) = false)
    (hyield : ∀ f e, (clause f e).yield = f.yield)
    (hrun : ∀ {env f e documents}, closed f = false →
      (∀ name, e.rowCount env name = .ok count.number) → f.finish.run env = .ok documents →
      (clause f e).finish.run env = .ok (part documents)) :
    ∃ t' parameters', q'.HasRows tr c t' ⟨collections, parameters'⟩ (part rows) := by
  obtain ⟨stage, p, hinput, hquery, hshape, hrows⟩ := h.staged
  obtain ⟨hlowered, hreads⟩ := Translator.stage_eq_ok hinput
  obtain ⟨v, type, hformula, hwrites⟩ := hwritten
  obtain ⟨frame, p₁, henter⟩ := stage.exists_enter closed p
  obtain ⟨henters, -⟩ := Stage.enter_eq_ok henter
  obtain ⟨aliases, rfl⟩ := Stage.enter_withAliases henter
  -- the constant takes the slot behind those of the query
  obtain ⟨hnext, hfree⟩ := hq.nextSlot_free hreads
  have hcount : tr.rowCount frame construct count.formula (p.withAliases aliases) =
      .ok (.placeholder (slotName p.nextSlot),
        ⟨p.parameters.push (.counting p.nextSlot type), p.nextSlot + 1, aliases⟩) := by
    rw [hformula]
    exact Translator.rowCount_constant hwrites hfree
  obtain ⟨key, number, plan, hplan, hbind⟩ := h.bound
  have htable : t.query.parameters = p.parameters := by rw [hquery]
  have hstage' : tr.stage q' {} =
      .ok (.frame (clause frame (.placeholder (slotName p.nextSlot))),
        ⟨p.parameters.push (.counting p.nextSlot type), p.nextSlot + 1, aliases⟩) := by
    rw [hstage]
    refine Translating.bind_eq_ok.2 ⟨stage, p, hinput, ?_⟩
    refine Translating.bind_eq_ok.2 ⟨frame, _, henter, ?_⟩
    exact Translating.bind_eq_ok.2 ⟨_, _, hcount, rfl⟩
  have hshape' : tr.rowShape (clause frame (.placeholder (slotName p.nextSlot))).yield =
      .ok t.shape := by
    rw [hyield, henters.rowShape, hshape]
  have htranslated := Translator.translate_of_stage hstage' hshape'
  refine ⟨_, parameters ++ [(slotName p.nextSlot, .ofInt count.number)], htranslated, ?_, ?_⟩
  · obtain ⟨plan', hplan', hbind'⟩ := Plan.bind_push hwrites hplan hbind
      ⟨⟨(clause frame (.placeholder (slotName p.nextSlot))).finish,
        p.parameters.push (.counting p.nextSlot type)⟩, t.shape⟩ (by rw [htable, ← hnext])
    refine ⟨key, number, plan', hplan', ?_⟩
    rw [hconstants, hformula]
    simpa [Formula.constantsOf, Formula.constants, hnext] using hbind'
  · have hname := Plan.find?_eq_none hplan hbind (htable ▸ hfree)
    have hrows' : stage.statement.run ⟨collections, parameters ++
        [(slotName p.nextSlot, .ofInt count.number)]⟩ = .ok rows :=
      Statement.run_persists (Environment.extends_append _ _ _) _ _ hrows
    exact hrun (henters.isOpen hopen)
      (fun _ => Expression.rowCount_placeholder hwrites.fits hname)
      (henters.run hrows' (hlowered.fits hrows'))

/-- **Skipping** leaves out the first rows. -/
lemma Query.HasRows.skip {count : RowCount} (hwritten : count.WrittenBy tr.registry)
    (hq : q.WellFormed) (h : q.HasRows tr c t ⟨collections, parameters⟩ rows) :
    ∃ t' parameters',
      (Query.skip q count.formula).HasRows tr c t' ⟨collections, parameters'⟩
        (rows.drop count.number) :=
  h.counted hwritten hq rfl rfl (fun _ _ _ => rfl) (fun _ _ => rfl)
    fun hopen hcount hrun => Frame.run_offset (Bool.or_eq_false_iff.1 hopen).1 (hcount _) hrun

/-- **Taking** keeps the first rows. -/
lemma Query.HasRows.take {count : RowCount} (hwritten : count.WrittenBy tr.registry)
    (hq : q.WellFormed) (h : q.HasRows tr c t ⟨collections, parameters⟩ rows) :
    ∃ t' parameters',
      (Query.take q count.formula).HasRows tr c t' ⟨collections, parameters'⟩
        (rows.take count.number) :=
  h.counted hwritten hq rfl rfl (fun _ _ _ => rfl) (fun _ _ => rfl)
    fun hopen hcount hrun => by
      have hlimit := (Bool.or_eq_false_iff.1 hopen).1
      rw [Frame.isLimited, Option.isSome_eq_false_iff, Option.isNone_iff_eq_none] at hlimit
      exact Frame.run_limit hlimit (hcount _) hrun

/-- **Leaving out repetitions** keeps the first row of each text. -/
lemma Query.HasRows.distinct (h : q.HasRows tr c t ⟨collections, parameters⟩ rows) :
    ∃ t', (Query.distinct q).HasRows tr c t' ⟨collections, parameters⟩ (firstOccurrences rows) := by
  obtain ⟨stage, p, hinput, hquery, hshape, hrows⟩ := h.staged
  obtain ⟨hlowered, -⟩ := Translator.stage_eq_ok hinput
  obtain ⟨frame, p₁, henter⟩ := stage.exists_enter Frame.isArranged p
  obtain ⟨henters, -⟩ := Stage.enter_eq_ok henter
  obtain ⟨aliases, rfl⟩ := Stage.enter_withAliases henter
  have hstage' : tr.stage (.distinct q) {} =
      .ok (.frame { frame with distinct := true }, p.withAliases aliases) := by
    refine Translating.bind_eq_ok.2 ⟨stage, p, hinput, ?_⟩
    exact Translating.bind_eq_ok.2 ⟨frame, _, henter, rfl⟩
  have hshape' : tr.rowShape frame.yield = .ok t.shape := by rw [henters.rowShape, hshape]
  have hopen := henters.isOpen fun _ _ _ => rfl
  have hsettled := (Bool.or_eq_false_iff.1 hopen).1
  have hpaged := (Bool.or_eq_false_iff.1 hsettled).1
  have hrepeats := (Bool.or_eq_false_iff.1 (Bool.or_eq_false_iff.1 hsettled).2).2
  obtain ⟨key, number, plan, hplan, hbind⟩ := h.bound
  refine ⟨_, Translator.translate_of_stage hstage' hshape', ⟨key, number, ?_⟩,
    Frame.run_distinct hpaged hrepeats (henters.run hrows (hlowered.fits hrows))⟩
  have hconstants : (Query.distinct q).constants = q.constants := List.append_nil _
  rw [hconstants]
  exact Plan.bind_congr hplan hbind (congrArg StoreQuery.parameters hquery).symm

end

/-! ## Chains of steps

A chain is a list of steps, and the induction is on it: the query with its first steps has rows, and
one more step keeps a part of them. -/

/-- A step that keeps a part of the rows. -/
inductive RowStep where
  | skip (count : RowCount)
  | take (count : RowCount)
  | distinct

namespace RowStep

/-- The operator of a step. -/
def query (q : Query) : RowStep → Query
  | skip count => .skip q count.formula
  | take count => .take q count.formula
  | distinct => .distinct q

/-- The number of a step is sent as it is, if it has one. -/
def WrittenBy (r : Registry) : RowStep → Prop
  | skip count | take count => count.WrittenBy r
  | distinct => True

lemma writtenBy {r : Registry} (hr : r.KeepsIntegers) (step : RowStep) : step.WrittenBy r := by
  cases step with
  | skip count | take count => exact count.writtenBy hr
  | distinct => trivial

/-- The rows that a step leaves. -/
def rows (documents : List Document) : RowStep → List Document
  | skip count => documents.drop count.number
  | take count => documents.take count.number
  | distinct => firstOccurrences documents

lemma wellFormed_query {q : Query} (hq : q.WellFormed) (step : RowStep) :
    (step.query q).WellFormed := by
  cases step <;> exact hq

end RowStep

section

variable {tr : Translator} {c : Context} {collections : Collections}

/-- **One step** leaves its part of the rows. -/
lemma Query.HasRows.step {q : Query} {t : Translation} {parameters : List (String × Document)}
    {rows : List Document} {step : RowStep} (hwritten : step.WrittenBy tr.registry)
    (hq : q.WellFormed) (h : q.HasRows tr c t ⟨collections, parameters⟩ rows) :
    ∃ t' parameters', (step.query q).HasRows tr c t' ⟨collections, parameters'⟩ (step.rows rows) := by
  cases step with
  | skip count => exact Query.HasRows.skip hwritten hq h
  | take count => exact Query.HasRows.take hwritten hq h
  | distinct =>
      obtain ⟨t', h'⟩ := h.distinct
      exact ⟨t', parameters, h'⟩

/-- **Chains of steps.**  If a query has rows, then the query with any number of steps, in any
order, has the rows that the list operations of the steps leave, one after the other.  The statement
of the chain reads the same store, and no step fails.  It is presupposed that the codecs write the
numbers of the steps as they are. -/
theorem rows_steps {q : Query} {t : Translation} {parameters : List (String × Document)}
    {rows : List Document} {steps : List RowStep}
    (hwritten : ∀ step ∈ steps, step.WrittenBy tr.registry) (hq : q.WellFormed)
    (h : q.HasRows tr c t ⟨collections, parameters⟩ rows) :
    ∃ t' parameters', (steps.foldl RowStep.query q).HasRows tr c t' ⟨collections, parameters'⟩
      (steps.foldl RowStep.rows rows) := by
  induction steps generalizing q t parameters rows with
  | nil => exact ⟨t, parameters, h⟩
  | cons step steps ih =>
      obtain ⟨hstep, hsteps⟩ := List.forall_mem_cons.1 hwritten
      obtain ⟨t', parameters', h'⟩ := Query.HasRows.step hstep hq h
      exact ih hsteps (step.wellFormed_query hq) h'

end

namespace Sample

/-- A number of rows. -/
def one : RowCount := ⟨.ofValue (.int64 1), 1, rfl⟩

/-- Rows behind the first and before the third, for which the statement nests. -/
def middleSteps : List RowStep := [.take ⟨.ofValue (.int32 2), 2, rfl⟩, .skip one, .distinct, .take one]

end Sample

/-- Of two adults, the second is left. -/
theorem rows_steps_adults : ∃ t parameters t' parameters',
    (∀ step ∈ Sample.middleSteps, step.WrittenBy Sample.translator.registry) ∧
    Sample.adults.WellFormed ∧
    Sample.adults.HasRows Sample.translator {} t ⟨Sample.threePersons, parameters⟩
      [Sample.aged 30, Sample.aged 40] ∧
    (Sample.middleSteps.foldl RowStep.query Sample.adults).HasRows Sample.translator {} t'
      ⟨Sample.threePersons, parameters'⟩ [Sample.aged 40] := by
  obtain ⟨t, parameters, h⟩ : ∃ t parameters, Sample.adults.HasRows Sample.translator {} t
      ⟨Sample.threePersons, parameters⟩ [Sample.aged 30, Sample.aged 40] :=
    ⟨_, _, rfl, ⟨⟨[]⟩, 0, _, rfl, rfl⟩, rfl⟩
  have hwritten : ∀ step ∈ Sample.middleSteps, step.WrittenBy Sample.translator.registry :=
    fun step _ => step.writtenBy Registry.keepsIntegers_standard
  have hq : Sample.adults.WellFormed := ⟨⟩
  obtain ⟨t', parameters', h'⟩ := rows_steps hwritten hq h
  exact ⟨t, parameters, t', parameters', hwritten, hq, h, h'⟩

end EntityQuery
