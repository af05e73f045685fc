import EntityQuery.Proofs.Evaluation.Safety

/-!
# Numbers of rows

A statement is refused for a number of rows by its `OFFSET` and `LIMIT` clauses only, at whatever
depth they stand.  So it is never refused for one if each of these clauses names a number.

* `Statement.counts`: the expressions of the clauses that number rows, at any depth.
* `Counting`: a computation that is not refused for a number of rows.
* `Expression.counting_eval`: the value of an expression is none that could be refused.
* `Statement.counting_run`: a statement whose clauses name numbers is not refused for one.
-/

namespace EntityQuery

/-! ## The clauses that number rows

A statement numbers rows in its own clauses and in those of the statements inside its sources, terms
and operands.  The list of all these expressions is what a condition on a whole statement is about.
-/

/-- The expressions that say which part of the rows is taken. -/
def Clauses.counts (c : Clauses) : List Expression := c.offset.toList ++ c.limit.toList

mutual

/-- The expressions that number rows in a statement, at any depth. -/
def Statement.counts : Statement → List Expression
  | .select source terms clauses => source.counts ++ termCounts terms ++ clauses.counts
  | .compound _ left right => left.counts ++ right.counts

/-- The expressions that number rows in the statement of a source. -/
def Source.counts : Source → List Expression
  | .keyspace .. => []
  | .statement s _ => s.counts

/-- The expressions that number rows in the source of a term. -/
def Term.counts : Term → List Expression
  | .join _ source _ => source.counts
  | .unnest .. => []

/-- The expressions that number rows in several terms. -/
def termCounts : List Term → List Expression
  | [] => []
  | t :: ts => t.counts ++ termCounts ts

end

lemma termCounts_append (ts us : List Term) :
    termCounts (ts ++ us) = termCounts ts ++ termCounts us := by
  induction ts with
  | nil => rfl
  | cons t ts ih => rw [List.cons_append, termCounts, termCounts, ih, List.append_assoc]

/-! ## Computations that are not refused for a number

Only the clauses that number rows refuse a number, so whatever is not put together from them may
fail in any other way.  No condition is needed on expressions, as their evaluation does not number
rows. -/

/-- Whether an error refuses a number of rows. -/
def EvalError.RefusesCount (e : EvalError) : Prop :=
  ∃ clause found, e = .invalidRowCount clause found

/-- A computation that is not refused for a number of rows; it may fail in another way. -/
abbrev Counting {α : Type} (x : Except EvalError α) : Prop :=
  Computation.FailsOnly (fun e => ¬ e.RefusesCount) x

lemma counting_error {α : Type} {e : EvalError}
    (h : ∀ clause found, e ≠ .invalidRowCount clause found) :
    Counting (.error e : Except EvalError α) :=
  .error fun ⟨clause, found, he⟩ => h clause found he

/-- A computation that counts has no refusal among its results. -/
lemma Counting.ne {α : Type} {x : Except EvalError α} (h : Counting x) (clause found : String) :
    x ≠ .error (.invalidRowCount clause found) :=
  fun hx => h _ hx ⟨clause, found, rfl⟩

/-! ## Expressions -/

lemma Operator.counting_apply (op : Operator) (l r : Datum) : Counting (op.apply l r) := by
  intro e he
  obtain ⟨-, -, rfl⟩ := Operator.apply_eq_error.1 he
  exact fun ⟨_, _, h⟩ => nomatch h

lemma counting_callFunction (name : String) (ds : List Datum) :
    Counting (callFunction name ds) := by
  rw [callFunction]
  split
  · exact counting_error (by simp)
  · split
    · exact .ok _
    · exact counting_error (by simp)

section

variable (env : Environment)

mutual

/-- **The evaluation of an expression is never refused for a number of rows.** -/
theorem Expression.counting_eval : (e : Expression) → (scope : Scope) → Counting (e.eval env scope)
  | .ident aliasName, scope => by
      rw [Expression.eval]
      split
      · exact .ok _
      · split
        · exact .ok _
        · exact counting_error (by simp)
  | .placeholder name, scope => by
      rw [Expression.eval]
      split
      · exact .ok _
      · exact counting_error (by simp)
  | .literal value, scope => .ok _
  | .field base name, scope => (base.counting_eval scope).bind fun _ _ => .ok _
  | .binary op left right, scope =>
      (left.counting_eval scope).bind fun _ _ => (right.counting_eval scope).bind fun _ _ =>
        op.counting_apply _ _
  | .not e, scope | .neg e, scope | .valued e, scope | .notValued e, scope =>
      (e.counting_eval scope).bind fun _ _ => .ok _
  | .inList e list, scope => by
      refine (e.counting_eval scope).bind fun d _ => ?_
      split
      · exact .ok _
      · exact .ok _
      · exact (counting_evalIn _ list scope).map _
  | .like e pattern, scope =>
      (e.counting_eval scope).bind fun _ _ => (pattern.counting_eval scope).bind fun _ _ => .ok _
  | .call name args, scope =>
      (counting_evalList args scope).bind fun ds _ => counting_callFunction name ds
  | .aggregate function distinct none, scope => by
      rw [Expression.eval]
      split
      · exact .ok _
      · exact counting_error (by simp)
  | .aggregate function distinct (some arg), scope => by
      rw [Expression.eval]
      split
      · exact (Computation.FailsOnly.mapM fun row _ => arg.counting_eval _).bind fun _ _ => .ok _
      · exact counting_error (by simp)
  | .caseWhen c t o, scope => by
      refine (c.counting_eval scope).bind fun _ _ => ?_
      split
      · exact t.counting_eval scope
      · exact o.counting_eval scope

theorem counting_evalList : (es : List Expression) → (scope : Scope) →
    Counting (evalList env es scope)
  | [], _ => .ok _
  | e :: es, scope =>
      (e.counting_eval scope).bind fun _ _ => (counting_evalList es scope).bind fun _ _ => .ok _

theorem counting_evalIn (d : Document) : (es : List Expression) → (scope : Scope) →
    Counting (evalIn env d es scope)
  | [], scope => .ok _
  | e :: es, scope => by
      refine (e.counting_eval scope).bind fun candidate _ => ?_
      split
      · split
        · exact .ok _
        · exact counting_evalIn d es scope
      · exact counting_evalIn d es scope

end

end

/-! ## Clauses

The clauses go through their steps, none of which can refuse a number, up to the page.  There a
number is asked for, and the condition says that there is one. -/

/-- An expression names a number of rows. -/
def Expression.Counts (env : Environment) (e : Expression) : Prop :=
  ∀ clause, ∃ n, e.rowCount env clause = .ok n

section

variable {env : Environment}

lemma Expression.counting_holds (e : Expression) (row : Row) : Counting (e.holds env row) :=
  (e.counting_eval env _).bind fun _ _ => .ok _

namespace Clauses

variable {c : Clauses}

lemma counting_scopes (rows : List Row) : Counting (c.scopes env rows) := by
  rw [scopes]
  split
  · exact .ok _
  · split
    · exact .ok _
    · refine (Computation.FailsOnly.mapM fun row _ => ?_).bind fun _ _ => .ok _
      exact (counting_evalList env _ _).bind fun _ _ => .ok _

lemma counting_ordered (scopes : List Scope) : Counting (c.ordered env scopes) := by
  rw [ordered]
  split
  · exact .ok _
  · refine (Computation.FailsOnly.mapM fun scope _ => ?_).bind fun _ _ => .ok _
    exact (counting_evalList env _ _).bind fun _ _ => .ok _

lemma counting_projectItems (scope : Scope) (items : List (Expression × String)) (fields : Fields) :
    Counting (projectItems env scope items fields) := by
  induction items generalizing fields with
  | nil => exact .ok _
  | cons item items ih =>
      refine (item.1.counting_eval env scope).bind fun d _ => ?_
      split
      · exact ih _
      · exact ih _

lemma counting_project (s : Selection) (scope : Scope) : Counting (s.project env scope) := by
  cases s with
  | raw e => exact e.counting_eval env scope
  | items list => exact (counting_projectItems scope list []).map _

/-- A part of the rows is taken if the clauses name numbers. -/
lemma counting_page (h : ∀ e ∈ c.counts, e.Counts env) (rows : List Document) :
    Counting (c.page env rows) := by
  have hcounted : ∀ {e : Expression} (clause : String), e ∈ c.counts →
      Counting (e.rowCount env clause) := by
    intro e clause he
    obtain ⟨n, hn⟩ := h e he clause
    rw [hn]
    exact .ok n
  have hoffset : Counting (c.skipped env) := by
    rw [skipped]
    split
    case h_1 e he => exact hcounted _ (List.mem_append_left _ (by simp [he]))
    case h_2 => exact .ok _
  have hlimit : ∀ rows, Counting (c.limited env rows) := by
    intro rows
    rw [limited]
    split
    case h_1 e he =>
      exact (hcounted _ (List.mem_append_right _ (by simp [he]))).bind fun _ _ => .ok _
    case h_2 => exact .ok _
  rw [page_eq]
  exact hoffset.bind fun _ _ => hlimit _

/-- Clauses are not refused for a number of rows if they name numbers. -/
theorem counting_run (h : ∀ e ∈ c.counts, e.Counts env) (rows : List Row) :
    Counting (c.run env rows) := by
  have hkept : Counting (c.kept env rows) := by
    rw [kept]
    split
    · exact .keepWhere fun row _ => Expression.counting_holds _ row
    · exact .ok _
  refine hkept.bind fun _ _ => (counting_scopes _).bind fun _ _ => ?_
  refine (counting_ordered _).bind fun _ _ => ?_
  exact (Computation.FailsOnly.mapM fun scope _ => counting_project _ scope).bind fun _ _ =>
    counting_page h _

end Clauses

/-! ## Statements -/

mutual

/-- **A statement is not refused for a number of rows** if all that number rows in it, at any depth,
name numbers. -/
theorem Statement.counting_run : (s : Statement) → (∀ e ∈ s.counts, e.Counts env) →
    Counting (s.run env)
  | .select source terms clauses, h => by
      refine (source.counting_run fun e he => h e ?_).bind fun documents _ => ?_
      · exact List.mem_append_left _ (List.mem_append_left _ he)
      refine (counting_runTerms terms (fun e he => h e ?_) _).bind fun rows _ => ?_
      · exact List.mem_append_left _ (List.mem_append_right _ he)
      exact Clauses.counting_run (fun e he => h e (List.mem_append_right _ he)) rows
  | .compound op left right, h =>
      (left.counting_run fun e he => h e (List.mem_append_left _ he)).bind fun _ _ =>
        (right.counting_run fun e he => h e (List.mem_append_right _ he)).bind fun _ _ => .ok _

theorem Source.counting_run : (s : Source) → (∀ e ∈ s.counts, e.Counts env) →
    Counting (s.run env)
  | .keyspace k aliasName, _ => by
      rw [Source.run]
      split
      · exact .ok _
      · exact counting_error (by simp)
  | .statement s aliasName, h => s.counting_run h

theorem Term.counting_run : (t : Term) → (∀ e ∈ t.counts, e.Counts env) → (rows : List Row) →
    Counting (t.run env rows)
  | .join matching source condition, h, rows => by
      refine (source.counting_run h).bind fun documents _ => ?_
      refine (Computation.FailsOnly.mapM fun row _ => ?_).bind fun _ _ => .ok _
      exact (Computation.FailsOnly.keepWhere fun row _ => condition.counting_holds row).bind
        fun _ _ => .ok _
  | .unnest matching array aliasName, _, rows => by
      refine (Computation.FailsOnly.mapM fun row _ => ?_).bind fun _ _ => .ok _
      refine (array.counting_eval env _).bind fun d _ => ?_
      split <;> exact .ok _

theorem counting_runTerms : (ts : List Term) → (∀ e ∈ termCounts ts, e.Counts env) →
    (rows : List Row) → Counting (runTerms env ts rows)
  | [], _, _ => .ok _
  | t :: ts, h, rows =>
      (t.counting_run (fun e he => h e (List.mem_append_left _ he)) rows).bind fun _ _ =>
        counting_runTerms ts (fun e he => h e (List.mem_append_right _ he)) _

end

end

end EntityQuery
