import EntityQuery.Proofs.Translation.Safety

/-!
# What a translation writes

Reading the inputs of a formula and writing its expression go together: the expression holds each
placeholder that is read, and no others but those that the frame holds already, as the fields of a
record that a formula refers to bring their expressions along.

* `Progress.Writes`: some inputs are read and some expressions are written.
* `Translator.writes_of_formula`: a formula that is translated writes its expression.
* `Translator.writes_of_projection`, `Translator.writes_of_groupKeys` and their companions: so do
  the operators.
-/

namespace EntityQuery

/-! ## Placeholders of expressions -/

namespace Expression

lemma mem_placeholdersOf {name : String} {es : List Expression} :
    name ∈ placeholdersOf es ↔ ∃ e ∈ es, name ∈ e.placeholders := by
  induction es with
  | nil => simp [placeholdersOf]
  | cons e es ih => simp [placeholdersOf, ih]

@[simp] lemma placeholdersOf_append (es es' : List Expression) :
    placeholdersOf (es ++ es') = placeholdersOf es ++ placeholdersOf es' := by
  induction es with
  | nil => rfl
  | cons e es ih => rw [List.cons_append, placeholdersOf, placeholdersOf, ih, List.append_assoc]

@[simp] lemma placeholders_path (base : Expression) (names : List String) :
    (base.path names).placeholders = base.placeholders := by
  rw [path]
  induction names generalizing base with
  | nil => rfl
  | cons name names ih => exact ih _

@[simp] lemma placeholders_nullTested (op : Operator) (e : Expression) :
    (nullTested op e).placeholders = e.placeholders := by
  rw [nullTested]
  split <;> rfl

@[simp] lemma placeholders_firstValuedOf (es : List Expression) :
    (firstValuedOf es).placeholders = placeholdersOf es := by
  rcases es with _ | ⟨e, _ | ⟨e', es⟩⟩
  · rfl
  · exact (List.append_nil _).symm
  · rfl

/-- A built-in function uses all of its arguments. -/
lemma mem_placeholders_builtin {function : BuiltinFunction} {args : List Expression} {name : String}
    (harity : args.length = function.arity) :
    name ∈ (function.expression args).placeholders ↔ name ∈ placeholdersOf args := by
  cases function with
  | endsWith =>
      obtain ⟨text, suffix, rfl⟩ : ∃ text suffix, args = [text, suffix] := by
        rcases args with _ | ⟨text, _ | ⟨suffix, _ | ⟨_, _⟩⟩⟩ <;> cases harity
        exact ⟨text, suffix, rfl⟩
      simp only [BuiltinFunction.expression, BuiltinFunction.lastPart, List.getD_cons_zero,
        List.getD_cons_succ, placeholders, placeholdersOf, List.mem_append, List.append_nil]
      -- the text is used twice and the suffix three times
      tauto
  | startsWith => simp [BuiltinFunction.expression, placeholders]
  | _ => rfl

end Expression

open Expression (placeholdersOf mem_placeholdersOf)

/-! ## What is written

Reading and writing are followed together.  At the end, the placeholders that are new in the
expression are the inputs that were read, tested constants apart. -/

/-- A translation reads some inputs and writes some expressions.  These hold each placeholder that
is read, and no others but those that are held already. -/
structure Progress.Writes (held : List String) (p : Progress) (is : List Input)
    (es : List Expression) (p' : Progress) : Prop where
  reads : p.Reads is p'
  used : ∀ name ∈ placeholdersFrom p.nextSlot is, name ∈ placeholdersOf es
  known : ∀ name ∈ placeholdersOf es, name ∈ placeholdersFrom p.nextSlot is ∨ name ∈ held

namespace Progress.Writes

variable {held : List String} {p p₁ p₂ : Progress} {is js : List Input} {es es' : List Expression}

lemma nil (held : List String) (p : Progress) : p.Writes held [] [] p where
  reads := .refl p
  used _ h := by cases h
  known _ h := by cases h

/-- An expression that is held already is written without reading anything. -/
lemma of_held {e : Expression} (he : ∀ name ∈ e.placeholders, name ∈ held) :
    p.Writes held [] [e] p where
  reads := .refl p
  used _ h := by cases h
  known name h := .inr (he name (by simpa [placeholdersOf] using h))

lemma append (h₁ : p.Writes held is es p₁) (h₂ : p₁.Writes held js es' p₂) :
    p.Writes held (is ++ js) (es ++ es') p₂ where
  reads := h₁.reads.trans h₂.reads
  used name hname := by
    rw [placeholdersFrom_append, ← h₁.reads.nextSlot, List.mem_append] at hname
    rw [Expression.placeholdersOf_append, List.mem_append]
    exact hname.imp (h₁.used name) (h₂.used name)
  known name hname := by
    rw [Expression.placeholdersOf_append, List.mem_append] at hname
    rw [placeholdersFrom_append, ← h₁.reads.nextSlot, List.mem_append]
    rcases hname with hname | hname
    · exact (h₁.known name hname).imp_left .inl
    · exact (h₂.known name hname).imp_left .inr

/-- The expressions may be put into others that hold the same placeholders. -/
lemma congr (h : p.Writes held is es p₁)
    (hes : ∀ name, name ∈ placeholdersOf es' ↔ name ∈ placeholdersOf es) :
    p.Writes held is es' p₁ where
  reads := h.reads
  used name hname := (hes name).2 (h.used name hname)
  known name hname := h.known name ((hes name).1 hname)

/-- A null constant that is compared is not written at all. -/
lemma tested {f : Formula} (hf : f.isNullConstant = true) :
    p.Writes held f.testedInputs [] { p with nextSlot := p.nextSlot + 1 } where
  reads := .tested hf
  used name hname := by
    cases f with
    | constant value t => cases hname
    | _ => simp [Formula.isNullConstant] at hf
  known _ h := by cases h

end Progress.Writes

open Translating

namespace Translator

variable {tr : Translator} {frame : Frame} {held : List String} {p p' : Progress}

mutual

/-- **The expression of a formula holds the placeholders that are read for it.** -/
theorem writes_of_formula (hframe : frame.Parts fun e => ∀ name ∈ e.placeholders, name ∈ held) :
    (f : Formula) → {p p' : Progress} → {e : Expression} → tr.formula frame f p = .ok (e, p') →
    p.Writes held f.inputs [e] p'
  | .property path, p, p', e, h => by
      cases Frame.property_eq_ok h
      refine .of_held fun name hname => ?_
      rw [Expression.placeholders_path] at hname
      exact hframe.bound (fun _ h => by cases h) _ name hname
  | .member name t nullable, p, p', e, h => by
      cases Frame.member_eq_ok h
      exact .of_held (hframe.fieldExpression (fun _ h => by cases h) name)
  | .element t nullable, p, p', e, h => by
      cases Frame.element_eq_ok h
      exact .of_held (hframe.scalarExpression fun _ h => by cases h)
  | .constant value t, p, p', e, h => by
      obtain ⟨he, hreads⟩ := formula_eq_ok _ h
      cases he
      exact ⟨hreads, fun _ h => h, fun _ h => .inl h⟩
  | .parameter name t, p, p', e, h => by
      obtain ⟨he, hreads⟩ := formula_eq_ok _ h
      cases he
      exact ⟨hreads, fun _ h => h, fun _ h => .inl h⟩
  | .binary op left right, p, p', e, h => by
      rw [formula] at h
      rw [Formula.inputs]
      cases hl : op.isComparison && left.isNullConstant with
      | true =>
          have hleft : left.isNullConstant = true := (Bool.and_eq_true_iff.1 hl).2
          cases hr : right.isNullConstant with
          | true =>
              have hop : op.isComparison = true := (Bool.and_eq_true_iff.1 hl).1
              simp only [hop, hleft, hr, Bool.and_self, if_true] at h ⊢
              obtain ⟨_, q, hslot, h⟩ := bind_eq_ok.1 h
              cases takeSlot_eq_ok.1 hslot
              obtain ⟨_, q, hslot', h⟩ := bind_eq_ok.1 h
              cases takeSlot_eq_ok.1 hslot'
              cases nullsCompared_eq_nullsDecided h
              exact ((Progress.Writes.tested hleft).append (.tested hr)).congr fun _ => Iff.rfl
          | false =>
              simp only [hl, hr, Bool.and_false, Bool.false_eq_true, if_true, if_false] at h ⊢
              obtain ⟨_, q, hslot, h⟩ := bind_eq_ok.1 h
              cases takeSlot_eq_ok.1 hslot
              obtain ⟨e₁, q, hf, h⟩ := bind_eq_ok.1 h
              cases nullTest_eq_nullTested h
              refine ((Progress.Writes.tested hleft).append
                (writes_of_formula hframe right hf)).congr fun name => ?_
              simp [placeholdersOf]
      | false =>
          cases hr : op.isComparison && right.isNullConstant with
          | true =>
              have hright : right.isNullConstant = true := (Bool.and_eq_true_iff.1 hr).2
              simp only [hl, hr, Bool.false_and, Bool.false_eq_true, if_true, if_false] at h ⊢
              obtain ⟨e₁, q, hf, h⟩ := bind_eq_ok.1 h
              obtain ⟨_, q, hslot, h⟩ := bind_eq_ok.1 h
              cases takeSlot_eq_ok.1 hslot
              cases nullTest_eq_nullTested h
              refine ((writes_of_formula hframe left hf).append (.tested hright)).congr
                fun name => ?_
              simp [placeholdersOf]
          | false =>
              simp only [hl, hr, Bool.false_and, Bool.false_eq_true, if_false] at h ⊢
              replace h := after_check (fun _ hs => checkOperands_eq_ok hs) h
              obtain ⟨e₁, q, hf, h⟩ := bind_eq_ok.1 h
              obtain ⟨e₂, q₁, hf', h⟩ := bind_eq_ok.1 h
              cases pure_eq_ok.1 h
              refine ((writes_of_formula hframe left hf).append
                (writes_of_formula hframe right hf')).congr fun name => ?_
              simp [placeholdersOf, Expression.placeholders]
  | .not f, p, p', e, h => by
      replace h := after_check (fun _ hs => (expectBool_eq_ok.1 hs).2) h
      obtain ⟨e₁, q, hf, h⟩ := bind_eq_ok.1 h
      cases pure_eq_ok.1 h
      exact (writes_of_formula hframe f hf).congr fun _ => Iff.rfl
  | .negate f, p, p', e, h => by
      replace h := after_check (fun _ hs => (expectOperand_eq_ok.1 hs).2) h
      obtain ⟨e₁, q, hf, h⟩ := bind_eq_ok.1 h
      cases pure_eq_ok.1 h
      exact (writes_of_formula hframe f hf).congr fun _ => Iff.rfl
  | .isNull f, p, p', e, h => by
      obtain ⟨e₁, q, hf, h⟩ := bind_eq_ok.1 h
      cases pure_eq_ok.1 h
      exact (writes_of_formula hframe f hf).congr fun _ => Iff.rfl
  | .isNotNull f, p, p', e, h => by
      obtain ⟨e₁, q, hf, h⟩ := bind_eq_ok.1 h
      cases pure_eq_ok.1 h
      exact (writes_of_formula hframe f hf).congr fun _ => Iff.rfl
  | .inList f list, p, p', e, h => by
      replace h := after_check (fun _ hs => checkComparable_eq_ok hs) h
      obtain ⟨e₁, q, hf, h⟩ := bind_eq_ok.1 h
      obtain ⟨es, q₁, hlist, h⟩ := bind_eq_ok.1 h
      cases pure_eq_ok.1 h
      refine ((writes_of_formula hframe f hf).append
        (writes_of_formulas hframe list hlist)).congr fun name => ?_
      simp [placeholdersOf, Expression.placeholders]
  | .like f pattern, p, p', e, h => by
      replace h := after_check (fun _ hs => (expectOperand_eq_ok.1 hs).2) h
      replace h := after_check (fun _ hs => (expectOperand_eq_ok.1 hs).2) h
      obtain ⟨e₁, q, hf, h⟩ := bind_eq_ok.1 h
      obtain ⟨e₂, q₁, hpattern, h⟩ := bind_eq_ok.1 h
      cases pure_eq_ok.1 h
      refine ((writes_of_formula hframe f hf).append
        (writes_of_formula hframe pattern hpattern)).congr fun name => ?_
      simp [placeholdersOf, Expression.placeholders]
  | .builtin function args, p, p', e, h => by
      obtain ⟨_, q, hcheck, h⟩ := bind_eq_ok.1 h
      obtain ⟨harity, hq⟩ := BuiltinFunction.check_eq_ok hcheck
      cases hq
      obtain ⟨es, q, hargs, h⟩ := bind_eq_ok.1 h
      cases pure_eq_ok.1 h
      have hes : es.length = function.arity := by
        rw [(formulas_eq_ok args hargs).1, length_expressions, harity]
      refine (writes_of_formulas hframe args hargs).congr fun name => ?_
      rw [← Expression.mem_placeholders_builtin hes, placeholdersOf, placeholdersOf,
        List.append_nil]
  | .caseWhen c t o, p, p', e, h => by
      replace h := after_check (fun _ hs => (expectBool_eq_ok.1 hs).2) h
      replace h := after_check (fun _ hs => checkComparable_eq_ok hs) h
      obtain ⟨e₁, q, hc, h⟩ := bind_eq_ok.1 h
      obtain ⟨e₂, q₁, ht, h⟩ := bind_eq_ok.1 h
      obtain ⟨e₃, q₂, ho, h⟩ := bind_eq_ok.1 h
      cases pure_eq_ok.1 h
      refine (((writes_of_formula hframe c hc).append (writes_of_formula hframe t ht)).append
        (writes_of_formula hframe o ho)).congr fun name => ?_
      simp [placeholdersOf, Expression.placeholders]
  | .coalesce values, p, p', e, h => by
      obtain ⟨hvalues, h⟩ := refuse_bind_eq_ok.1 h
      replace h := after_check (fun _ hs => checkComparable_eq_ok hs) h
      obtain ⟨es, q, hes, h'⟩ := bind_eq_ok.1 h
      have hwrites := writes_of_formulas hframe values hes
      have hvalue : e = firstValuedOf es ∧ p' = q := by
        rcases es with _ | ⟨e₁, _ | ⟨e₂, es⟩⟩
        · have hnil : values.length = 0 := by
            rw [← length_expressions, ← (formulas_eq_ok values hes).1]
            rfl
          simp [List.length_eq_zero_iff.1 hnil] at hvalues
        · cases pure_eq_ok.1 h'
          exact ⟨rfl, rfl⟩
        · cases pure_eq_ok.1 h'
          exact ⟨rfl, rfl⟩
      obtain ⟨rfl, rfl⟩ := hvalue
      refine hwrites.congr fun name => ?_
      simp [placeholdersOf]
  | .call function args t, p, p', e, h => by
      obtain ⟨entry, q, hentry, h⟩ := bind_eq_ok.1 h
      obtain ⟨_, -, hq⟩ := FunctionTable.resolve_eq_ok hentry
      cases hq
      obtain ⟨es, q, hargs, h⟩ := bind_eq_ok.1 h
      cases pure_eq_ok.1 h
      refine (writes_of_formulas hframe args hargs).congr fun name => ?_
      simp [placeholdersOf, Expression.placeholders]

/-- The expressions of formulas hold the placeholders that are read for them. -/
theorem writes_of_formulas (hframe : frame.Parts fun e => ∀ name ∈ e.placeholders, name ∈ held) :
    (fs : List Formula) → {p p' : Progress} → {es : List Expression} →
    tr.formulas frame fs p = .ok (es, p') → p.Writes held (Formula.inputsOf fs) es p'
  | [], p, p', es, h => by
      cases pure_eq_ok.1 h
      exact .nil held p
  | f :: fs, p, p', es, h => by
      obtain ⟨e, q, hf, h⟩ := bind_eq_ok.1 h
      obtain ⟨rest, q₁, hfs, h⟩ := bind_eq_ok.1 h
      cases pure_eq_ok.1 h
      exact (writes_of_formula hframe f hf).append (writes_of_formulas hframe fs hfs)

end

/-! ## What operators write

Operators write several expressions, and read the inputs of each.  The lemmas for single expressions
are put one after the other. -/

section Operators

variable (hframe : frame.Parts fun e => ∀ name ∈ e.placeholders, name ∈ held)

include hframe

lemma writes_of_yielded {f : Formula} {s : YieldedScalar}
    (h : tr.yielded frame f p = .ok (s, p')) : p.Writes held f.inputs [s.expression] p' := by
  obtain ⟨e, q, hf, h⟩ := bind_eq_ok.1 h
  cases pure_eq_ok.1 h
  exact writes_of_formula hframe f hf

lemma writes_of_condition {construct : String} {f : Formula} {e : Expression}
    (h : tr.condition frame construct f p = .ok (e, p')) : p.Writes held f.inputs [e] p' :=
  writes_of_formula hframe f (after_check (fun _ hs => (expectBool_eq_ok.1 hs).2) h)

lemma writes_of_projectedFields {fields : List (String × Projected)}
    {yields : List (String × FieldYield)}
    (h : fields.mapM (tr.projectedField frame) p = .ok (yields, p')) :
    p.Writes held (Formula.inputsOf (Projection.record fields).formulas)
      (yields.map fun y => y.2.expression) p' := by
  induction fields generalizing p yields with
  | nil =>
      cases pure_eq_ok.1 h
      exact .nil held _
  | cons field fields ih =>
      rw [List.mapM_cons] at h
      obtain ⟨y, q, hfield, h⟩ := bind_eq_ok.1 h
      obtain ⟨ys, q₁, hfields, h⟩ := bind_eq_ok.1 h
      cases pure_eq_ok.1 h
      obtain ⟨name, f | ⟨entity, aliasName⟩⟩ := field
      · obtain ⟨s, q, hs, hfield⟩ := bind_eq_ok.1 hfield
        cases pure_eq_ok.1 hfield
        exact (writes_of_yielded hframe hs).append (ih hfields)
      · obtain ⟨b, q, hb, hfield⟩ := bind_eq_ok.1 hfield
        cases pure_eq_ok.1 hfield
        cases Frame.projected_eq_ok hb
        have hbase := hframe.bound (fun _ h => by cases h) aliasName
        exact (Progress.Writes.of_held hbase).append (ih hfields)

lemma writes_of_projection {projection : Projection} {yield : Yield}
    (h : tr.projection frame projection p = .ok (yield, p')) :
    p.Writes held (Formula.inputsOf projection.formulas) yield.selection.expressions p' := by
  cases projection with
  | scalar f =>
      obtain ⟨s, q, hs, h⟩ := bind_eq_ok.1 h
      cases pure_eq_ok.1 h
      rw [Projection.formulas, Formula.inputsOf_singleton]
      exact writes_of_yielded hframe hs
  | entity entity aliasName =>
      obtain ⟨b, q, hb, h⟩ := bind_eq_ok.1 h
      cases pure_eq_ok.1 h
      cases Frame.projected_eq_ok hb
      exact .of_held (hframe.bound (fun _ h => by cases h) aliasName)
  | record fields =>
      obtain ⟨-, h⟩ := refuse_bind_eq_ok.1 h
      replace h := after_check (fun _ hs => (checkNames_eq_ok hs).2) h
      obtain ⟨yields, q, hyields, h⟩ := bind_eq_ok.1 h
      cases pure_eq_ok.1 h
      simpa [Yield.selection, Selection.expressions, Function.comp_def] using
        writes_of_projectedFields hframe hyields

lemma writes_of_rowCount {construct : String} {count : Formula} {e : Expression}
    (h : tr.rowCount frame construct count p = .ok (e, p')) : p.Writes held count.inputs [e] p' := by
  have hreads := (rowCount_eq_ok h).2
  obtain ⟨-, h⟩ := refuse_bind_eq_ok.1 h
  obtain ⟨e₁, q, hcount, h⟩ := bind_eq_ok.1 h
  obtain ⟨-, hused, hknown⟩ := writes_of_formula hframe count hcount
  have he : e = e₁ := by
    cases e₁ with
    | placeholder name =>
        obtain ⟨_, q₁, -, h⟩ := bind_eq_ok.1 h
        cases pure_eq_ok.1 h
        rfl
    | _ =>
        cases pure_eq_ok.1 h
        rfl
  rw [he]
  exact ⟨hreads, hused, hknown⟩

lemma writes_of_groupKeys {keys : List (String × Formula)} {ks : List (String × YieldedScalar)}
    (h : keys.mapM (tr.groupKey frame) p = .ok (ks, p')) :
    p.Writes held (Formula.inputsOf (keys.map Prod.snd)) (ks.map fun k => k.2.expression) p' := by
  induction keys generalizing p ks with
  | nil =>
      cases pure_eq_ok.1 h
      exact .nil held _
  | cons key keys ih =>
      rw [List.mapM_cons] at h
      obtain ⟨k, q, hkey, h⟩ := bind_eq_ok.1 h
      obtain ⟨ks, q₁, hkeys, h⟩ := bind_eq_ok.1 h
      cases pure_eq_ok.1 h
      obtain ⟨s, q, hs, hkey⟩ := bind_eq_ok.1 hkey
      cases pure_eq_ok.1 hkey
      exact (writes_of_yielded hframe hs).append (ih hkeys)

lemma writes_of_summary {s : Summary} {e : Expression}
    (h : tr.summary frame s p = .ok (e, p')) :
    p.Writes held (Formula.inputsOf s.arg.toList) [e] p' := by
  have hreads := (summary_eq_ok h).2
  rw [summary] at h
  cases harg : s.arg with
  | some f =>
      simp only [harg] at h
      obtain ⟨e₁, q₁, hf, he⟩ : ∃ e₁ q₁, tr.formula frame f p = .ok (e₁, q₁) ∧
          (e, p') = (.aggregate s.function.aggregate.1 s.function.aggregate.2 (some e₁), q₁) := by
        split at h
        · replace h := after_check (fun _ hs => (expectOperand_eq_ok.1 hs).2) h
          obtain ⟨e₁, q₁, hf, h⟩ := bind_eq_ok.1 h
          exact ⟨e₁, q₁, hf, pure_eq_ok.1 h⟩
        · obtain ⟨e₁, q₁, hf, h⟩ := bind_eq_ok.1 h
          exact ⟨e₁, q₁, hf, pure_eq_ok.1 h⟩
      cases he
      rw [Option.toList_some, Formula.inputsOf_singleton]
      exact (writes_of_formula hframe f hf).congr fun _ => Iff.rfl
  | none =>
      simp only [harg] at h
      cases pure_eq_ok.1 (guard_eq_ok.1 h).2
      exact .of_held fun _ h => by cases h

lemma writes_of_groupSummaries {summaries : List (String × Summary)}
    {ss : List (String × YieldedScalar)}
    (h : summaries.mapM (tr.groupSummary frame) p = .ok (ss, p')) :
    p.Writes held (Formula.inputsOf (summaries.filterMap fun s => s.2.arg))
      (ss.map fun s => s.2.expression) p' := by
  induction summaries generalizing p ss with
  | nil =>
      cases pure_eq_ok.1 h
      exact .nil held _
  | cons s summaries ih =>
      rw [List.mapM_cons] at h
      obtain ⟨y, q, hs, h⟩ := bind_eq_ok.1 h
      obtain ⟨ss, q₁, hsummaries, h⟩ := bind_eq_ok.1 h
      cases pure_eq_ok.1 h
      obtain ⟨e, q, he, hs⟩ := bind_eq_ok.1 hs
      cases pure_eq_ok.1 hs
      have hformulas : (s :: summaries).filterMap (fun s => s.2.arg) =
          s.2.arg.toList ++ summaries.filterMap fun s => s.2.arg := by
        cases harg : s.2.arg <;> simp [harg]
      rw [hformulas, Formula.inputsOf_append]
      exact (writes_of_summary hframe he).append (ih hsummaries)

end Operators

end Translator

end EntityQuery
