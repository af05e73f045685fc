import EntityQuery.Proofs.Evaluation.Safety
import EntityQuery.Proofs.Translation.Lowering

/-!
# What the expressions of a frame are made of

The expression of a formula is built from the expressions that the frame binds and yields, from
placeholders of its inputs, and from calls.  A property of expressions that every construct hands on
therefore passes from the parts of a frame to all that is translated over it.

* `Expression.Closed`: a property that every construct hands on.
* `Frame.Parts`: the property holds of all that a frame binds and yields.
* `Translator.expression_of_closed`: it then holds of the expression of each formula.
-/

namespace EntityQuery

/-! ## Properties that constructs hand on

Safety, what is referred to and the absence of aggregates are all properties of this kind.  What is
shown of one that is closed holds of each of them, and the translation of formulas is gone through
once. -/

/-- A property of expressions that every construct hands on; `N` are the placeholders and `C` the
calls that it allows. -/
structure Expression.Closed (P : Expression → Prop) (N : String → Prop) (C : String → Nat → Prop) :
    Prop where
  field : ∀ {base name}, P base → P (.field base name)
  placeholder : ∀ {name}, N name → P (.placeholder name)
  literal : ∀ {value}, P (.literal value)
  binary : ∀ {op left right}, P left → P right → P (.binary op left right)
  not : ∀ {e}, P e → P (.not e)
  neg : ∀ {e}, P e → P (.neg e)
  valued : ∀ {e}, P e → P (.valued e)
  notValued : ∀ {e}, P e → P (.notValued e)
  inList : ∀ {e list}, P e → (∀ l ∈ list, P l) → P (.inList e list)
  like : ∀ {e pattern}, P e → P pattern → P (.like e pattern)
  call : ∀ {name args}, C name args.length → (∀ a ∈ args, P a) → P (.call name args)
  caseWhen : ∀ {c t o}, P c → P t → P o → P (.caseWhen c t o)

/-- A property holds of all that a frame binds and yields. -/
structure Frame.Parts (P : Expression → Prop) (f : Frame) : Prop where
  scope : ∀ b ∈ f.scope, P b.base
  yield : ∀ e ∈ f.yield.selection.expressions, P e

namespace Formula

mutual

/-- Whether a formula calls no registered function. -/
def callFree : Formula → Bool
  | .call .. => false
  | .property _ | .member .. | .element .. | .constant .. | .parameter .. => true
  | .binary _ left right => left.callFree && right.callFree
  | .not f | .negate f | .isNull f | .isNotNull f => f.callFree
  | .inList f list => f.callFree && allCallFree list
  | .like f pattern => f.callFree && pattern.callFree
  | .builtin _ args => allCallFree args
  | .caseWhen c t o => c.callFree && t.callFree && o.callFree
  | .coalesce values => allCallFree values

/-- Whether some formulas call no registered function. -/
def allCallFree : List Formula → Bool
  | [] => true
  | f :: fs => f.callFree && allCallFree fs

end

end Formula

lemma Formula.allCallFree_append (fs gs : List Formula) :
    Formula.allCallFree (fs ++ gs) = (Formula.allCallFree fs && Formula.allCallFree gs) := by
  induction fs with
  | nil => rfl
  | cons f fs ih => rw [List.cons_append, allCallFree, allCallFree, ih, Bool.and_assoc]

namespace Expression.Closed

variable {P : Expression → Prop} {N : String → Prop} {C : String → Nat → Prop}

/-- A path of fields hands on the property. -/
lemma path (h : Closed P N C) {base : Expression} (hbase : P base) (names : List String) :
    P (base.path names) := by
  rw [Expression.path]
  induction names generalizing base with
  | nil => exact hbase
  | cons name names ih => exact ih (h.field hbase)

/-- The call of a built-in function hands on the property if the language's own calls do. -/
lemma called (h : Closed P N C) (hknown : ∀ name count, KnownCall name count → C name count)
    {function : BuiltinFunction} {args : List Expression} (hargs : ∀ a ∈ args, P a) :
    P (function.called args) := by
  have hcall : ∀ name (es : List Expression), KnownCall name es.length → (∀ a ∈ es, P a) →
      P (.call name es) := fun name es hname hes => h.call (hknown name _ hname) hes
  rw [BuiltinFunction.called]
  split
  · rename_i harity
    cases function with
    | lower => exact hcall _ _ ⟨.lower, rfl, by rw [harity]; rfl⟩ hargs
    | upper => exact hcall _ _ ⟨.upper, rfl, by rw [harity]; rfl⟩ hargs
    | trim => exact hcall _ _ ⟨.trim, rfl, by rw [harity]; rfl⟩ hargs
    | length => exact hcall _ _ ⟨.length, rfl, by rw [harity]; rfl⟩ hargs
    | contains => exact hcall _ _ ⟨.contains, rfl, by rw [harity]; rfl⟩ hargs
    | abs => exact hcall _ _ ⟨.abs, rfl, by rw [harity]; rfl⟩ hargs
    | round => exact hcall _ _ ⟨.round, rfl, by rw [harity]; rfl⟩ hargs
    | floor => exact hcall _ _ ⟨.floor, rfl, by rw [harity]; rfl⟩ hargs
    | ceil => exact hcall _ _ ⟨.ceil, rfl, by rw [harity]; rfl⟩ hargs
    | startsWith =>
        exact h.binary (hcall _ _ ⟨.position, rfl, by rw [harity]; rfl⟩ hargs) h.literal
    | endsWith =>
        obtain ⟨text, suffix, rfl⟩ : ∃ text suffix, args = [text, suffix] := by
          rcases args with _ | ⟨text, _ | ⟨suffix, _ | ⟨_, _⟩⟩⟩ <;> cases harity
          exact ⟨text, suffix, rfl⟩
        have htext : P text := hargs text (by simp)
        have hsuffix : P suffix := hargs suffix (by simp)
        have hlength : ∀ e, P e → P (.call "LENGTH" [e]) := fun e he =>
          hcall _ _ ⟨.length, rfl, rfl⟩ (by simpa using he)
        refine h.binary (hcall _ _ ⟨.substr, rfl, rfl⟩ ?_) hsuffix
        intro a ha
        rw [List.mem_cons, List.mem_singleton] at ha
        rcases ha with rfl | rfl
        · exact htext
        · exact h.binary (hlength _ htext) (hlength _ hsuffix)
  · exact h.literal

lemma firstValuedOf (h : Closed P N C) (hknown : ∀ name count, KnownCall name count → C name count)
    {es : List Expression} (hes : ∀ e ∈ es, P e) : P (firstValuedOf es) := by
  rcases es with _ | ⟨e, _ | ⟨e', es⟩⟩
  · exact h.literal
  · exact hes e (by simp)
  · exact h.call (hknown _ _ ⟨.ifMissingOrNull, rfl, rfl⟩) hes

lemma nullTested (h : Closed P N C) {op : Operator} {e : Expression} (he : P e) :
    P (nullTested op e) := by
  rw [EntityQuery.nullTested]
  split
  · exact h.valued he
  · exact h.notValued he

end Expression.Closed

/-- A field that is found is one of the fields. -/
lemma Yield.mem_of_field? {name : String} {fields : List (String × FieldYield)} {y : FieldYield}
    (h : Yield.field? name fields = some y) : (name, y) ∈ fields := by
  induction fields with
  | nil => cases h
  | cons field fields ih =>
      rw [Yield.field?] at h
      split at h
      · rename_i hname
        cases h
        rw [← hname]
        exact List.mem_cons_self
      · exact List.mem_cons_of_mem _ (ih h)

/-! ## Over a frame -/

namespace Frame.Parts

variable {P : Expression → Prop} {frame : Frame}

lemma imp {Q : Expression → Prop} (h : frame.Parts P) (hPQ : ∀ e, P e → Q e) : frame.Parts Q :=
  ⟨fun b hb => hPQ _ (h.scope b hb), fun e he => hPQ e (h.yield e he)⟩

/-- What an alias is bound to has the property. -/
lemma bound (h : frame.Parts P) (hnull : P (.literal .null)) (aliasName : String) :
    P (frame.bound aliasName).base := by
  rw [Frame.bound]
  cases hb : frame.binding? aliasName with
  | none => exact hnull
  | some b => exact h.scope b (List.mem_of_find?_eq_some hb)

lemma fieldExpression (h : frame.Parts P) (hnull : P (.literal .null)) (name : String) :
    P (frame.fieldExpression name) := by
  have hyield := h.yield
  rw [Frame.fieldExpression]
  cases hy : frame.yield with
  | record fields =>
      rw [hy] at hyield
      cases hfield : Yield.field? name fields with
      | none => simpa [hfield] using hnull
      | some y =>
          have hmem := Yield.mem_of_field? hfield
          simp only [hfield]
          refine hyield _ ?_
          simp only [Yield.selection, Selection.expressions, List.map_map, List.mem_map]
          exact ⟨_, hmem, rfl⟩
  | _ => simpa using hnull

lemma scalarExpression (h : frame.Parts P) (hnull : P (.literal .null)) :
    P frame.scalarExpression := by
  have hyield := h.yield
  rw [Frame.scalarExpression]
  cases hy : frame.yield with
  | scalar s =>
      rw [hy] at hyield
      exact hyield _ (List.mem_singleton_self _)
  | _ => exact hnull

end Frame.Parts

namespace Translator

variable {tr : Translator} {frame : Frame}
variable {P : Expression → Prop} {N : String → Prop} {C : String → Nat → Prop}

mutual

/-- **What holds of the parts of a frame holds of all that is translated over it.** -/
theorem expression_of_closed (h : Expression.Closed P N C)
    (hknown : ∀ name count, KnownCall name count → C name count) (hframe : frame.Parts P) :
    (f : Formula) → (n : Nat) → (∀ name ∈ placeholdersFrom n f.inputs, N name) →
    (f.callFree = true ∨ ∀ name count, C name count) → P (tr.expression frame n f)
  | .property p, n, hn, hc => h.path (hframe.bound h.literal _) _
  | .member name _ _, n, hn, hc => hframe.fieldExpression h.literal name
  | .element _ _, n, hn, hc => hframe.scalarExpression h.literal
  | .constant _ _, n, hn, hc => h.placeholder (hn _ (List.mem_singleton_self _))
  | .parameter _ _, n, hn, hc => h.placeholder (hn _ (List.mem_singleton_self _))
  | .binary op left right, n, hn, hc => by
      rw [Formula.inputs, placeholdersFrom_append, Formula.length_slots_operand] at hn
      have hcl : left.callFree = true ∨ ∀ name count, C name count :=
        hc.imp_left fun hc => (Bool.and_eq_true_iff.1 hc).1
      have hcr : right.callFree = true ∨ ∀ name count, C name count :=
        hc.imp_left fun hc => (Bool.and_eq_true_iff.1 hc).2
      rw [expression]
      cases hl : op.isComparison && left.isNullConstant with
      | true =>
          have hleft : left.constants.length = 1 :=
            Formula.length_constants_of_isNullConstant (Bool.and_eq_true_iff.1 hl).2
          have hop : op.isComparison = true := (Bool.and_eq_true_iff.1 hl).1
          cases hr : right.isNullConstant with
          | true => exact h.literal
          | false =>
              simp only [hr, hop, hleft, Bool.true_and, Bool.false_eq_true, if_false] at hn
              exact h.nullTested (expression_of_closed h hknown hframe right _
                (fun name hname => hn name (List.mem_append_right _ hname)) hcr)
      | false =>
          cases hr : op.isComparison && right.isNullConstant with
          | true =>
              simp only [hl, Bool.false_eq_true, if_false] at hn
              exact h.nullTested (expression_of_closed h hknown hframe left _
                (fun name hname => hn name (List.mem_append_left _ hname)) hcl)
          | false =>
              simp only [hl, hr, Bool.false_eq_true, if_false] at hn
              exact h.binary
                (expression_of_closed h hknown hframe left _
                  (fun name hname => hn name (List.mem_append_left _ hname)) hcl)
                (expression_of_closed h hknown hframe right _
                  (fun name hname => hn name (List.mem_append_right _ hname)) hcr)
  | .not f, n, hn, hc => h.not (expression_of_closed h hknown hframe f n hn hc)
  | .negate f, n, hn, hc => h.neg (expression_of_closed h hknown hframe f n hn hc)
  | .isNull f, n, hn, hc => h.notValued (expression_of_closed h hknown hframe f n hn hc)
  | .isNotNull f, n, hn, hc => h.valued (expression_of_closed h hknown hframe f n hn hc)
  | .inList f list, n, hn, hc => by
      rw [Formula.inputs, placeholdersFrom_append, Formula.length_slots] at hn
      refine h.inList (expression_of_closed h hknown hframe f n ?_ ?_)
        (expressions_of_closed h hknown hframe list _ ?_ ?_)
      · exact fun name hname => hn name (List.mem_append_left _ hname)
      · exact hc.imp_left fun hc => (Bool.and_eq_true_iff.1 hc).1
      · exact fun name hname => hn name (List.mem_append_right _ hname)
      · exact hc.imp_left fun hc => (Bool.and_eq_true_iff.1 hc).2
  | .like f pattern, n, hn, hc => by
      rw [Formula.inputs, placeholdersFrom_append, Formula.length_slots] at hn
      refine h.like (expression_of_closed h hknown hframe f n ?_ ?_)
        (expression_of_closed h hknown hframe pattern _ ?_ ?_)
      · exact fun name hname => hn name (List.mem_append_left _ hname)
      · exact hc.imp_left fun hc => (Bool.and_eq_true_iff.1 hc).1
      · exact fun name hname => hn name (List.mem_append_right _ hname)
      · exact hc.imp_left fun hc => (Bool.and_eq_true_iff.1 hc).2
  | .builtin function args, n, hn, hc =>
      h.called hknown (expressions_of_closed h hknown hframe args n hn hc)
  | .caseWhen c t o, n, hn, hc => by
      rw [Formula.inputs, placeholdersFrom_append, placeholdersFrom_append, slotsOf_append,
        List.length_append, Formula.length_slots, Formula.length_slots, ← Nat.add_assoc] at hn
      have hc' : (c.callFree = true ∧ t.callFree = true) ∧ o.callFree = true ∨
          ∀ name count, C name count := hc.imp_left fun hc => by
        simpa [Formula.callFree] using hc
      refine h.caseWhen (expression_of_closed h hknown hframe c n ?_ ?_)
        (expression_of_closed h hknown hframe t _ ?_ ?_)
        (expression_of_closed h hknown hframe o _ ?_ ?_)
      · exact fun name hname =>
          hn name (List.mem_append_left _ (List.mem_append_left _ hname))
      · exact hc'.imp_left fun hc => hc.1.1
      · exact fun name hname =>
          hn name (List.mem_append_left _ (List.mem_append_right _ hname))
      · exact hc'.imp_left fun hc => hc.1.2
      · exact fun name hname => hn name (List.mem_append_right _ hname)
      · exact hc'.imp_left fun hc => hc.2
  | .coalesce values, n, hn, hc =>
      h.firstValuedOf hknown (expressions_of_closed h hknown hframe values n hn hc)
  | .call function args t, n, hn, hc => by
      have hc : ∀ name count, C name count := hc.resolve_left Bool.false_ne_true
      exact h.call (hc _ _) (expressions_of_closed h hknown hframe args n hn (.inr hc))

theorem expressions_of_closed (h : Expression.Closed P N C)
    (hknown : ∀ name count, KnownCall name count → C name count) (hframe : frame.Parts P) :
    (fs : List Formula) → (n : Nat) →
    (∀ name ∈ placeholdersFrom n (Formula.inputsOf fs), N name) →
    (Formula.allCallFree fs = true ∨ ∀ name count, C name count) →
    ∀ e ∈ tr.expressions frame n fs, P e
  | [], n, hn, hc => by
      intro e he
      cases he
  | f :: fs, n, hn, hc => by
      rw [Formula.inputsOf, placeholdersFrom_append, Formula.length_slots] at hn
      intro e he
      rcases List.mem_cons.1 he with rfl | he
      · exact expression_of_closed h hknown hframe f n
          (fun name hname => hn name (List.mem_append_left _ hname))
          (hc.imp_left fun hc => (Bool.and_eq_true_iff.1 hc).1)
      · exact expressions_of_closed h hknown hframe fs _
          (fun name hname => hn name (List.mem_append_right _ hname))
          (hc.imp_left fun hc => (Bool.and_eq_true_iff.1 hc).2) e he

end

/-! ## What operators add

Besides formulas, operators add the keys of groups, summaries, terms of navigations and conditions
of joins.  Each is made of expressions over the frame by few constructs. -/

section Operators

variable (h : Expression.Closed P N C)
  (hknown : ∀ name count, KnownCall name count → C name count) (hframe : frame.Parts P)

include h hknown hframe

lemma projectedFields_of_closed (fields : List (String × Projected)) (n : Nat)
    (hn : ∀ name ∈ placeholdersFrom n (Formula.inputsOf (Projection.record fields).formulas),
      N name)
    (hc : Formula.allCallFree (Projection.record fields).formulas = true ∨
      ∀ name count, C name count) :
    ∀ y ∈ tr.projectedFields frame n fields, P y.2.expression := by
  induction fields generalizing n with
  | nil =>
      intro y hy
      cases hy
  | cons field fields ih =>
      obtain ⟨name, f | ⟨entity, aliasName⟩⟩ := field
      · have hformulas : (Projection.record ((name, .scalar f) :: fields)).formulas =
            f :: (Projection.record fields).formulas := rfl
        rw [hformulas, Formula.inputsOf, placeholdersFrom_append, Formula.length_slots] at hn
        rw [hformulas, Formula.allCallFree, Bool.and_eq_true] at hc
        intro y hy
        rcases List.mem_cons.1 hy with rfl | hy
        · exact expression_of_closed h hknown hframe f n
            (fun name hname => hn name (List.mem_append_left _ hname)) (hc.imp_left And.left)
        · exact ih _ (fun name hname => hn name (List.mem_append_right _ hname))
            (hc.imp_left And.right) y hy
      · intro y hy
        rcases List.mem_cons.1 hy with rfl | hy
        · exact hframe.bound h.literal aliasName
        · exact ih n hn hc y hy

/-- The rows of a projection consist of what has the property. -/
lemma projectedYield_of_closed (projection : Projection) (n : Nat)
    (hn : ∀ name ∈ placeholdersFrom n (Formula.inputsOf projection.formulas), N name)
    (hc : Formula.allCallFree projection.formulas = true ∨ ∀ name count, C name count) :
    ∀ e ∈ (tr.projectedYield frame n projection).selection.expressions, P e := by
  cases projection with
  | scalar f =>
      intro e he
      rw [List.mem_singleton.1 he]
      rw [Projection.formulas, Formula.inputsOf_singleton] at hn
      rw [Projection.formulas, Formula.allCallFree, Formula.allCallFree, Bool.and_true] at hc
      exact expression_of_closed h hknown hframe f n hn hc
  | entity entity aliasName =>
      intro e he
      rw [List.mem_singleton.1 he]
      exact hframe.bound h.literal aliasName
  | record fields =>
      intro e he
      simp only [projectedYield, Yield.selection, Selection.expressions, List.map_map,
        List.mem_map] at he
      obtain ⟨y, hy, rfl⟩ := he
      exact projectedFields_of_closed h hknown hframe fields n hn hc y hy

lemma groupKeys_of_closed (keys : List (String × Formula)) (n : Nat)
    (hn : ∀ name ∈ placeholdersFrom n (Formula.inputsOf (keys.map Prod.snd)), N name)
    (hc : Formula.allCallFree (keys.map Prod.snd) = true ∨ ∀ name count, C name count) :
    ∀ k ∈ tr.groupKeys frame n keys, P k.2.expression := by
  induction keys generalizing n with
  | nil =>
      intro k hk
      cases hk
  | cons key keys ih =>
      rw [List.map_cons, Formula.inputsOf, placeholdersFrom_append, Formula.length_slots] at hn
      rw [List.map_cons, Formula.allCallFree, Bool.and_eq_true] at hc
      intro k hk
      rcases List.mem_cons.1 hk with rfl | hk
      · exact expression_of_closed h hknown hframe key.2 n
          (fun name hname => hn name (List.mem_append_left _ hname)) (hc.imp_left And.left)
      · exact ih _ (fun name hname => hn name (List.mem_append_right _ hname))
          (hc.imp_left And.right) k hk

/-- A summary counts rows, or aggregates what has the property. -/
lemma groupSummaries_of_closed (summaries : List (String × Summary)) (n : Nat)
    (hn : ∀ name ∈ placeholdersFrom n (Formula.inputsOf (summaries.filterMap fun s => s.2.arg)),
      N name)
    (hc : Formula.allCallFree (summaries.filterMap fun s => s.2.arg) = true ∨
      ∀ name count, C name count) :
    ∀ s ∈ tr.groupSummaries frame n summaries, s.2.expression = .countRows ∨
      ∃ function distinct e, s.2.expression = .aggregate function distinct (some e) ∧ P e := by
  induction summaries generalizing n with
  | nil =>
      intro s hs
      cases hs
  | cons summary summaries ih =>
      obtain ⟨name, function, arg⟩ := summary
      intro s hs
      cases arg with
      | none =>
          rcases List.mem_cons.1 hs with rfl | hs
          · exact .inl rfl
          · exact ih n hn hc s hs
      | some f =>
          have hformulas : ((name, (⟨function, some f⟩ : Summary)) :: summaries).filterMap
              (fun s => s.2.arg) = f :: summaries.filterMap fun s => s.2.arg := rfl
          rw [hformulas, Formula.inputsOf, placeholdersFrom_append, Formula.length_slots] at hn
          rw [hformulas, Formula.allCallFree, Bool.and_eq_true] at hc
          rcases List.mem_cons.1 hs with rfl | hs
          · exact .inr ⟨_, _, _, rfl, expression_of_closed h hknown hframe f n
              (fun name hname => hn name (List.mem_append_left _ hname)) (hc.imp_left And.left)⟩
          · refine ih _ (fun name hname => hn name (List.mem_append_right _ hname))
              (hc.imp_left And.right) s ?_
            simpa [Formula.constantsOf] using hs

end Operators

/-- The expression of a correlated term is made of its source and its own alias. -/
lemma correlated_of_closed (h : Expression.Closed P N C) {c : Correlation} {source : Binding}
    {term : Term} (hsource : P source.base) (halias : P (.ident c.aliasName))
    (hterm : tr.correlated c source = some term) : P term.expression := by
  rw [correlated] at hterm
  cases hkind : c.kind with
  | unnest path =>
      rw [hkind] at hterm
      cases hterm
      exact h.path hsource _
  | lookup sourceField targetField =>
      simp only [hkind, Option.map_eq_some_iff] at hterm
      obtain ⟨k, -, rfl⟩ := hterm
      exact h.binary (h.path halias _) (h.path hsource _)

/-- The condition of a join is made of the parts of the frame and of its right side. -/
lemma joinCondition_of_closed (h : Expression.Closed P N C)
    (hknown : ∀ name count, KnownCall name count → C name count) (hframe : frame.Parts P)
    {b : Binding} (hb : P b.base) {leftKey rightKey : Formula} {n : Nat}
    (hn : ∀ name ∈ placeholdersFrom n (Formula.inputsOf [leftKey, rightKey]), N name)
    (hc : Formula.allCallFree [leftKey, rightKey] = true ∨ ∀ name count, C name count) :
    P (tr.joinCondition frame n b leftKey rightKey) := by
  have hwidened : { frame with scope := frame.scope ++ [b] }.Parts P := by
    refine ⟨fun b' hb' => ?_, hframe.yield⟩
    rcases List.mem_append.1 hb' with hb' | hb'
    · exact hframe.scope b' hb'
    · rw [List.mem_singleton.1 hb']
      exact hb
  rw [Formula.inputsOf, Formula.inputsOf_singleton, placeholdersFrom_append,
    Formula.length_slots] at hn
  have hc' : leftKey.callFree = true ∧ rightKey.callFree = true ∨ ∀ name count, C name count :=
    hc.imp_left fun hc => by simpa [Formula.allCallFree] using hc
  exact h.binary
    (expression_of_closed h hknown hwidened leftKey _
      (fun name hname => hn name (List.mem_append_left _ hname)) (hc'.imp_left And.left))
    (expression_of_closed h hknown hwidened rightKey _
      (fun name hname => hn name (List.mem_append_right _ hname)) (hc'.imp_left And.right))

end Translator
end EntityQuery
