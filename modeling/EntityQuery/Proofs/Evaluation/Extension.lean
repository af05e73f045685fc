import EntityQuery.Proofs.Evaluation.Ordering

/-!
# Evaluation with more parameters

A statement reads the values of its own placeholders only.  So the rows that it returns are also
returned where further placeholders have values, as happens when it becomes a part of a larger one.

* `Persists`: what a computation returns is returned by another one as well.
* `Environment.Extends`: the same collections, and values for further placeholders.
* `Expression.eval_persists` and `Statement.run_persists`: values and rows persist under extension.
-/

namespace EntityQuery

/-! ## Results that persist

What is returned is to be returned again, while a failure may turn into a value: a placeholder that
had no value may have one now.  Hence the relation goes in one direction only. -/

/-- What the first computation returns, the second returns as well. -/
def Persists {α : Type} (x y : Except EvalError α) : Prop := ∀ a, x = .ok a → y = .ok a

namespace Persists

variable {α β : Type}

lemma refl (x : Except EvalError α) : Persists x x := fun _ h => h

lemma bind {x y : Except EvalError α} {f g : α → Except EvalError β} (h : Persists x y)
    (hfg : ∀ a, Persists (f a) (g a)) : Persists (x >>= f) (y >>= g) := by
  intro b hb
  obtain ⟨a, ha, hb⟩ := Computation.bind_eq_ok.1 hb
  exact Computation.bind_eq_ok.2 ⟨a, h a ha, hfg a b hb⟩

lemma map {x y : Except EvalError α} (h : Persists x y) (f : α → β) :
    Persists (x.map f) (y.map f) := by
  intro b hb
  obtain ⟨a, ha, hb⟩ := Computation.map_eq_ok.1 hb
  exact Computation.map_eq_ok.2 ⟨a, h a ha, hb⟩

lemma ite {c : Prop} [Decidable c] {x y x' y' : Except EvalError α} (h : Persists x y)
    (h' : Persists x' y') : Persists (if c then x else x') (if c then y else y') := by
  by_cases hc : c
  · rwa [if_pos hc, if_pos hc]
  · rwa [if_neg hc, if_neg hc]

lemma mapM {f g : α → Except EvalError β} (h : ∀ a, Persists (f a) (g a)) (as : List α) :
    Persists (as.mapM f) (as.mapM g) := by
  induction as with
  | nil => exact refl _
  | cons a as ih =>
      rw [List.mapM_cons, List.mapM_cons]
      exact (h a).bind fun b => ih.bind fun bs => refl _

lemma keepWhere {f g : α → Except EvalError Bool} (h : ∀ a, Persists (f a) (g a)) (as : List α) :
    Persists (keepWhere f as) (keepWhere g as) := by
  induction as with
  | nil => exact refl _
  | cons a as ih => exact (h a).bind fun keep => ih.bind fun rest => refl _

end Persists

/-- An environment has the collections of another one, and all values of its placeholders. -/
structure Environment.Extends (env' env : Environment) : Prop where
  collections : env'.collections = env.collections
  parameters : ∀ name d, env.parameter? name = some d → env'.parameter? name = some d

/-! ## Expressions

By induction on the expression.  Placeholders are the only construct that looks at what the
extension changes. -/

section Expressions

variable {env env' : Environment}

mutual

/-- **The value of an expression persists under extension.** -/
theorem Expression.eval_persists (h : env'.Extends env) : (e : Expression) → (scope : Scope) →
    Persists (e.eval env scope) (e.eval env' scope)
  | .ident name, scope => by
      rw [Expression.eval, Expression.eval]
      exact .refl _
  | .field base name, scope => (base.eval_persists h scope).bind fun _ => .refl _
  | .placeholder name, scope => by
      rw [Expression.eval, Expression.eval]
      intro d hd
      cases hname : env.parameter? name with
      | none =>
          rw [hname] at hd
          cases hd
      | some value =>
          rw [hname] at hd
          rw [h.parameters name value hname]
          exact hd
  | .literal value, scope => .refl _
  | .binary op left right, scope =>
      (left.eval_persists h scope).bind fun _ => (right.eval_persists h scope).bind fun _ => .refl _
  | .not e, scope | .neg e, scope | .valued e, scope | .notValued e, scope =>
      (e.eval_persists h scope).bind fun _ => .refl _
  | .inList e list, scope => by
      refine (e.eval_persists h scope).bind fun d => ?_
      split
      · exact .refl _
      · exact .refl _
      · exact (evalIn_persists h _ list scope).map _
  | .like e pattern, scope =>
      (e.eval_persists h scope).bind fun _ => (pattern.eval_persists h scope).bind fun _ => .refl _
  | .call name args, scope => (evalList_persists h args scope).bind fun _ => .refl _
  | .aggregate function distinct none, scope => by
      rw [Expression.eval, Expression.eval]
      exact .refl _
  | .aggregate function distinct (some arg), scope => by
      rw [Expression.eval, Expression.eval]
      cases scope.group with
      | none => exact .refl _
      | some rows =>
          exact (Persists.mapM (fun row => arg.eval_persists h (.ofRow row)) rows).bind
            fun _ => .refl _
  | .caseWhen c t o, scope =>
      (c.eval_persists h scope).bind fun _ =>
        .ite (t.eval_persists h scope) (o.eval_persists h scope)

theorem evalList_persists (h : env'.Extends env) : (es : List Expression) → (scope : Scope) →
    Persists (evalList env es scope) (evalList env' es scope)
  | [], _ => .refl _
  | e :: es, scope =>
      (e.eval_persists h scope).bind fun _ => (evalList_persists h es scope).bind fun _ => .refl _

theorem evalIn_persists (h : env'.Extends env) (d : Document) : (es : List Expression) →
    (scope : Scope) → Persists (evalIn env d es scope) (evalIn env' d es scope)
  | [], _ => .refl _
  | e :: es, scope => by
      refine (e.eval_persists h scope).bind fun candidate => ?_
      split
      · exact .ite (.refl _) (evalIn_persists h d es scope)
      · exact evalIn_persists h d es scope

end

lemma Expression.holds_persists (h : env'.Extends env) (e : Expression) (row : Row) :
    Persists (e.holds env row) (e.holds env' row) :=
  (e.eval_persists h _).bind fun _ => .refl _

lemma Expression.rowCount_persists (h : env'.Extends env) (clause : String) (e : Expression) :
    Persists (e.rowCount env clause) (e.rowCount env' clause) :=
  (e.eval_persists h _).bind fun _ => .refl _

end Expressions

/-! ## Clauses -/

section Clauses

variable {env env' : Environment}

lemma projectItems_persists (h : env'.Extends env) (scope : Scope)
    (items : List (Expression × String)) (fields : Fields) :
    Persists (projectItems env scope items fields) (projectItems env' scope items fields) := by
  induction items generalizing fields with
  | nil => exact .refl _
  | cons item items ih =>
      refine (item.1.eval_persists h scope).bind fun d => ?_
      cases d with
      | none => exact ih fields
      | some d => exact ih _

lemma Selection.project_persists (h : env'.Extends env) (s : Selection) (scope : Scope) :
    Persists (s.project env scope) (s.project env' scope) := by
  cases s with
  | raw e => exact e.eval_persists h scope
  | items list => exact (projectItems_persists h scope list []).map _

namespace Clauses

lemma kept_persists (h : env'.Extends env) (c : Clauses) (rows : List Row) :
    Persists (c.kept env rows) (c.kept env' rows) := by
  simp only [kept]
  cases c.predicate with
  | none => exact .refl _
  | some e => exact .keepWhere (fun row => e.holds_persists h row) rows

lemma scopes_persists (h : env'.Extends env) (c : Clauses) (rows : List Row) :
    Persists (c.scopes env rows) (c.scopes env' rows) := by
  refine .ite (.refl _) (.ite (.refl _) ?_)
  refine (Persists.mapM (fun row => ?_) rows).bind fun _ => .refl _
  exact (evalList_persists h c.groupBy _).bind fun _ => .refl _

lemma ordered_persists (h : env'.Extends env) (c : Clauses) (scopes : List Scope) :
    Persists (c.ordered env scopes) (c.ordered env' scopes) := by
  refine .ite (.refl _) ?_
  refine (Persists.mapM (fun scope => ?_) scopes).bind fun _ => .refl _
  exact (evalList_persists h _ scope).bind fun _ => .refl _

lemma page_persists (h : env'.Extends env) (c : Clauses) (rows : List Document) :
    Persists (c.page env rows) (c.page env' rows) := by
  have hskipped : Persists (c.skipped env) (c.skipped env') := by
    rw [skipped, skipped]
    cases c.offset with
    | none => exact .refl _
    | some e => exact e.rowCount_persists h "OFFSET"
  have hlimited : ∀ rows, Persists (c.limited env rows) (c.limited env' rows) := by
    intro rows
    rw [limited, limited]
    cases c.limit with
    | none => exact .refl _
    | some e => exact (e.rowCount_persists h "LIMIT").bind fun _ => .refl _
  rw [page_eq, page_eq]
  exact hskipped.bind fun _ => hlimited _

/-- The documents of a selection persist under extension. -/
theorem run_persists (h : env'.Extends env) (c : Clauses) (rows : List Row) :
    Persists (c.run env rows) (c.run env' rows) := by
  refine (c.kept_persists h rows).bind fun kept => ?_
  refine (c.scopes_persists h kept).bind fun scopes => ?_
  refine (c.ordered_persists h scopes).bind fun ordered => ?_
  refine (Persists.mapM (fun scope => c.selection.project_persists h scope) ordered).bind fun _ => ?_
  exact c.page_persists h _

end Clauses

lemma joinRow_persists (h : env'.Extends env) (matching : Matching) (aliasName : String)
    (condition : Expression) (documents : List Document) (row : Row) :
    Persists (joinRow env matching aliasName condition documents row)
      (joinRow env' matching aliasName condition documents row) :=
  (Persists.keepWhere (fun row => condition.holds_persists h row) _).bind fun _ => .refl _

lemma unnestRow_persists (h : env'.Extends env) (matching : Matching) (aliasName : String)
    (array : Expression) (row : Row) :
    Persists (unnestRow env matching aliasName array row)
      (unnestRow env' matching aliasName array row) :=
  (array.eval_persists h _).bind fun _ => .refl _

end Clauses

/-! ## Statements

The induction is on statements, sources and terms at once, as a source may be a statement of its
own. -/

section Statements

variable {env env' : Environment}

mutual

/-- **The rows of a statement persist under extension.** -/
theorem Statement.run_persists (h : env'.Extends env) : (s : Statement) →
    Persists (s.run env) (s.run env')
  | .select source terms clauses =>
      (source.run_persists h).bind fun _ =>
        (runTerms_persists h terms _).bind fun rows => clauses.run_persists h rows
  | .compound _ left right =>
      (left.run_persists h).bind fun _ => (right.run_persists h).bind fun _ => .refl _

theorem Source.run_persists (h : env'.Extends env) : (source : Source) →
    Persists (source.run env) (source.run env')
  | .keyspace k aliasName => by
      rw [Source.run, Source.run, h.collections]
      exact .refl _
  | .statement s aliasName => s.run_persists h

theorem Term.run_persists (h : env'.Extends env) : (t : Term) → (rows : List Row) →
    Persists (t.run env rows) (t.run env' rows)
  | .join matching source condition, rows =>
      (source.run_persists h).bind fun documents =>
        (Persists.mapM (fun row => joinRow_persists h matching source.aliasName condition documents
          row) rows).bind fun _ => .refl _
  | .unnest matching array aliasName, rows =>
      (Persists.mapM (fun row => unnestRow_persists h matching aliasName array row) rows).bind
        fun _ => .refl _

theorem runTerms_persists (h : env'.Extends env) : (ts : List Term) → (rows : List Row) →
    Persists (runTerms env ts rows) (runTerms env' ts rows)
  | [], _ => .refl _
  | t :: ts, rows => (t.run_persists h rows).bind fun rows => runTerms_persists h ts rows

end

end Statements
end EntityQuery
