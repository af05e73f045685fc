import EntityQuery.Proofs.Evaluation.Ordering

/-!
# Evaluation that does not go wrong

A statement is safe if its aliases are bound where they are used, its placeholders have values, its
calls are known, and its aggregates stand where there are groups.  The evaluation of a safe
statement over keyspaces that exist fails in two ways only: a number of rows is no such number, or
the least integer is divided by minus one.

* `Sound`: a computation that fails in these ways only.
* `Expression.Safe` and `Statement.Safe`: what evaluation relies on.
* `Expression.eval_sound`, `Clauses.run_sound` and `Statement.run_sound`: what is safe is sound.
-/

namespace EntityQuery

/-! ## Sound computations

There are two errors that no condition on the statement excludes, as they depend on the values in
the store.  All that follows is about the others. -/

/-- The errors with which a safe statement may end. -/
def EvalError.IsExpected : EvalError → Prop
  | .invalidRowCount .. | .divisionOverflow => True
  | _ => False

/-- A computation that fails with expected errors only. -/
abbrev Sound {α : Type} (x : Except EvalError α) : Prop :=
  Computation.FailsOnly EvalError.IsExpected x

/-- Keeping members by a test fails as the test does. -/
lemma Computation.FailsOnly.keepWhere {α : Type} {errors : EvalError → Prop}
    {test : α → Except EvalError Bool} {as : List α}
    (htest : ∀ a ∈ as, FailsOnly errors (test a)) : FailsOnly errors (keepWhere test as) := by
  induction as with
  | nil => exact ok _
  | cons a as ih =>
      refine (htest a List.mem_cons_self).bind fun _ _ => ?_
      refine (ih fun a ha => htest a (List.mem_cons_of_mem _ ha)).bind fun _ _ => ok _

/-! ## Operators

Operators return a value on whatever they are applied to, be it missing, null or of another kind.
The one pair of operands on which they do not is found here, so that all else can be left to the
values. -/

/-- Two values whose quotient no integer of 64 bits can hold: the least integer and minus one. -/
def Overflowing (l r : Datum) : Prop :=
  ∃ a b, l = some a ∧ r = some b ∧ Quantity.ofDocument? a = some (.int int64Min) ∧
    Quantity.ofDocument? b = some (.int (-1))

lemma divideInts_eq_error {x y : Int} {e : EvalError} :
    divideInts x y = .error e ↔ (x = int64Min ∧ y = -1) ∧ e = .divisionOverflow := by
  have hguard : (x = int64Min && y = -1) = true ↔ x = int64Min ∧ y = -1 := by
    rw [Bool.and_eq_true, decide_eq_true_eq, decide_eq_true_eq]
  constructor
  · intro he
    rw [divideInts] at he
    split at he
    · cases he
    · split at he
      · rename_i h
        cases he
        exact ⟨hguard.1 h, rfl⟩
      · split at he <;> cases he
  · rintro ⟨⟨rfl, rfl⟩, rfl⟩
    rfl

lemma remainderInts_eq_error {x y : Int} {e : EvalError} :
    remainderInts x y = .error e ↔ (x = int64Min ∧ y = -1) ∧ e = .divisionOverflow := by
  have hguard : (x = int64Min && y = -1) = true ↔ x = int64Min ∧ y = -1 := by
    rw [Bool.and_eq_true, decide_eq_true_eq, decide_eq_true_eq]
  constructor
  · intro he
    rw [remainderInts] at he
    split at he
    · cases he
    · split at he
      · rename_i h
        cases he
        exact ⟨hguard.1 h, rfl⟩
      · cases he
  · rintro ⟨⟨rfl, rfl⟩, rfl⟩
    rfl

lemma arithmetic_eq_error {op : Operator} {a b : Document} {e : EvalError} :
    arithmetic op a b = .error e ↔
      (op = .div ∨ op = .mod) ∧ Overflowing (some a) (some b) ∧ e = .divisionOverflow := by
  rw [arithmetic, Overflowing]
  cases ha : Quantity.ofDocument? a with
  | none => simp [ha]
  | some x =>
      cases hb : Quantity.ofDocument? b with
      | none => simp [hb]
      | some y =>
          cases x with
          | float x => simp [ha]
          | int x =>
              cases y with
              | float y => simp [hb]
              | int y =>
                  cases op <;>
                    simp [arithmeticInts, divideInts_eq_error, remainderInts_eq_error, ha, hb,
                      and_assoc]

lemma not_isNull_of_quantity {d : Document} {q : Quantity} (h : Quantity.ofDocument? d = some q) :
    d.isNull = false := by
  cases d <;> first | rfl | cases h

/-- Only arithmetic fails. -/
lemma Operator.onValues_eq_error {op : Operator} {a b : Document} {e : EvalError}
    (h : op.onValues a b = .error e) : arithmetic op a b = .error e := by
  cases op with
  | add | sub | mul | div | mod | and | or => exact h
  | _ => cases h

/-- **The only failure of an operator**: `/` and `%` on the least integer and minus one. -/
theorem Operator.apply_eq_error {op : Operator} {l r : Datum} {e : EvalError} :
    op.apply l r = .error e ↔
      (op = .div ∨ op = .mod) ∧ Overflowing l r ∧ e = .divisionOverflow := by
  constructor
  · intro h
    simp only [Operator.apply] at h
    split at h
    · cases h
    · cases h
    · split at h
      · split at h
        · cases h
        · exact arithmetic_eq_error.1 (onValues_eq_error (Computation.map_eq_error.1 h))
      · cases h
  · rintro ⟨hop, hoverflow, rfl⟩
    obtain ⟨a, b, rfl, rfl, ha, hb⟩ := id hoverflow
    have herror := arithmetic_eq_error.2 ⟨hop, hoverflow, rfl⟩
    have happly : op.apply (some a) (some b) = (arithmetic op a b).map some := by
      rcases hop with rfl | rfl <;>
        simp [Operator.apply, not_isNull_of_quantity ha, not_isNull_of_quantity hb, onValues]
    rw [happly, herror]
    rfl

lemma Operator.sound_apply (op : Operator) (l r : Datum) : Sound (op.apply l r) := by
  intro e he
  obtain ⟨-, -, rfl⟩ := Operator.apply_eq_error.1 he
  trivial

/-! ## Expressions

An expression is safe with respect to the aliases that are bound and the placeholders that have
values.  An aggregate is the one construct that also depends on where it stands: it needs a group,
and none may stand inside of another one. -/

/-- The calls that the language knows. -/
def KnownCall (name : String) (count : Nat) : Prop :=
  ∃ f, StoreFunction.ofName? name = some f ∧ f.takes count = true

namespace Expression

/-- An expression without aggregates. -/
def Plain (e : Expression) : Prop := e.hasAggregate = false

lemma anyAggregate_eq_false {es : List Expression} :
    anyAggregate es = false ↔ ∀ e ∈ es, e.Plain := by
  induction es with
  | nil => simp [anyAggregate]
  | cons e es ih => simp [anyAggregate, ih, Plain]

mutual

/-- What the evaluation of an expression relies on: the aliases are bound, the placeholders have
values, the calls are known, and no aggregate is inside of another one. -/
def Safe (names aliases : List String) : Expression → Prop
  | .ident aliasName => aliasName ∈ aliases
  | .placeholder name => name ∈ names
  | .literal _ => True
  | .field base _ => base.Safe names aliases
  | .binary _ left right => left.Safe names aliases ∧ right.Safe names aliases
  | .not e | .neg e | .valued e | .notValued e => e.Safe names aliases
  | .inList e list => e.Safe names aliases ∧ AllSafe names aliases list
  | .like e pattern => e.Safe names aliases ∧ pattern.Safe names aliases
  | .call name args => KnownCall name args.length ∧ AllSafe names aliases args
  | .aggregate _ _ (some arg) => arg.Safe names aliases ∧ arg.Plain
  | .aggregate _ _ none => True
  | .caseWhen c t o => c.Safe names aliases ∧ t.Safe names aliases ∧ o.Safe names aliases

/-- What the evaluation of several expressions relies on. -/
def AllSafe (names aliases : List String) : List Expression → Prop
  | [] => True
  | e :: es => e.Safe names aliases ∧ AllSafe names aliases es

end

lemma allSafe_iff {names aliases : List String} {es : List Expression} :
    AllSafe names aliases es ↔ ∀ e ∈ es, e.Safe names aliases := by
  induction es with
  | nil => simp [AllSafe]
  | cons e es ih => simp [AllSafe, ih]

end Expression

/-- A row binds the given aliases, or nothing at all: then all that it is asked for is missing. -/
def Row.Covers (aliases : List String) (row : Row) : Prop :=
  row.bindings = [] ∨ ∀ a ∈ aliases, (row.find? a).isSome = true

/-- A scope has the aliases on its row, and on the rows of its group if it needs a group. -/
structure Scope.Supports (aliases : List String) (grouped : Prop) (scope : Scope) : Prop where
  row : scope.row.Covers aliases
  group : grouped → ∃ rows, scope.group = some rows ∧ ∀ row ∈ rows, row.Covers aliases

lemma Scope.Supports.imp {aliases : List String} {grouped grouped' : Prop} {scope : Scope}
    (h : scope.Supports aliases grouped) (himp : grouped' → grouped) :
    scope.Supports aliases grouped' :=
  ⟨h.row, fun hg => h.group (himp hg)⟩

/-- All names have values. -/
def Environment.Binds (env : Environment) (names : List String) : Prop :=
  ∀ name ∈ names, (env.parameter? name).isSome = true

lemma sound_callFunction {name : String} {ds : List Datum} (h : KnownCall name ds.length) :
    Sound (callFunction name ds) := by
  obtain ⟨f, hf, htakes⟩ := h
  rw [callFunction]
  simp only [hf, htakes, if_true]
  exact .ok _

lemma sound_ident {env : Environment} {aliases : List String} {scope : Scope} {aliasName : String}
    (hrow : scope.row.Covers aliases) (halias : aliasName ∈ aliases) :
    Sound ((Expression.ident aliasName).eval env scope) := by
  rw [Expression.eval]
  rcases hrow with hempty | hcovers
  · simp only [hempty, List.isEmpty_nil, if_true]
    split <;> exact .ok _
  · obtain ⟨d, hd⟩ := Option.isSome_iff_exists.1 (hcovers _ halias)
    rw [hd]
    exact .ok _

section Evaluation

variable {env : Environment} {names aliases : List String}

mutual

/-- **A safe expression is sound in a scope that supports it.** -/
theorem Expression.eval_sound (hnames : env.Binds names) : (e : Expression) → (scope : Scope) →
    e.Safe names aliases → scope.Supports aliases (e.hasAggregate = true) →
    Sound (e.eval env scope)
  | .ident aliasName, scope, hsafe, hscope => sound_ident hscope.row hsafe
  | .placeholder name, scope, hsafe, hscope => by
      obtain ⟨d, hd⟩ := Option.isSome_iff_exists.1 (hnames name hsafe)
      rw [Expression.eval, hd]
      exact .ok _
  | .literal value, scope, hsafe, hscope => .ok _
  | .field base name, scope, hsafe, hscope =>
      (base.eval_sound hnames scope hsafe hscope).bind fun _ _ => .ok _
  | .binary op left right, scope, ⟨hl, hr⟩, hscope => by
      refine (left.eval_sound hnames scope hl (hscope.imp fun h => ?_)).bind fun _ _ => ?_
      · simp [Expression.hasAggregate, h]
      refine (right.eval_sound hnames scope hr (hscope.imp fun h => ?_)).bind fun _ _ => ?_
      · simp [Expression.hasAggregate, h]
      exact op.sound_apply _ _
  | .not e, scope, hsafe, hscope =>
      (e.eval_sound hnames scope hsafe hscope).bind fun _ _ => .ok _
  | .neg e, scope, hsafe, hscope =>
      (e.eval_sound hnames scope hsafe hscope).bind fun _ _ => .ok _
  | .valued e, scope, hsafe, hscope =>
      (e.eval_sound hnames scope hsafe hscope).bind fun _ _ => .ok _
  | .notValued e, scope, hsafe, hscope =>
      (e.eval_sound hnames scope hsafe hscope).bind fun _ _ => .ok _
  | .inList e list, scope, ⟨he, hlist⟩, hscope => by
      refine (e.eval_sound hnames scope he (hscope.imp fun h => ?_)).bind fun d _ => ?_
      · simp [Expression.hasAggregate, h]
      split
      · exact .ok _
      · exact .ok _
      · refine (evalIn_sound hnames _ list scope hlist (hscope.imp fun h => ?_)).map _
        simp [Expression.hasAggregate, h]
  | .like e pattern, scope, ⟨he, hp⟩, hscope => by
      refine (e.eval_sound hnames scope he (hscope.imp fun h => ?_)).bind fun _ _ => ?_
      · simp [Expression.hasAggregate, h]
      refine (pattern.eval_sound hnames scope hp (hscope.imp fun h => ?_)).bind fun _ _ => .ok _
      simp [Expression.hasAggregate, h]
  | .call name args, scope, ⟨hknown, hargs⟩, hscope => by
      refine (evalList_sound hnames args scope hargs hscope).bind fun ds hds => ?_
      exact sound_callFunction ((evalList_eq_ok.1 hds).length_eq ▸ hknown)
  | .aggregate function distinct none, scope, hsafe, hscope => by
      obtain ⟨rows, hrows, -⟩ := hscope.group rfl
      rw [Expression.eval, hrows]
      exact .ok _
  | .aggregate function distinct (some arg), scope, ⟨harg, hplain⟩, hscope => by
      obtain ⟨rows, hrows, hcovers⟩ := hscope.group rfl
      rw [Expression.eval, hrows]
      refine (Computation.FailsOnly.mapM fun row hrow => ?_).bind fun _ _ => .ok _
      refine arg.eval_sound hnames _ harg ⟨hcovers row hrow, fun h => ?_⟩
      rw [hplain] at h
      cases h
  | .caseWhen c t o, scope, ⟨hc, ht, ho⟩, hscope => by
      refine (c.eval_sound hnames scope hc (hscope.imp fun h => ?_)).bind fun _ _ => ?_
      · simp [Expression.hasAggregate, h]
      split
      · refine t.eval_sound hnames scope ht (hscope.imp fun h => ?_)
        simp [Expression.hasAggregate, h]
      · refine o.eval_sound hnames scope ho (hscope.imp fun h => ?_)
        simp [Expression.hasAggregate, h]

theorem evalList_sound (hnames : env.Binds names) : (es : List Expression) → (scope : Scope) →
    Expression.AllSafe names aliases es →
    scope.Supports aliases (Expression.anyAggregate es = true) → Sound (evalList env es scope)
  | [], scope, hsafe, hscope => .ok _
  | e :: es, scope, ⟨he, hes⟩, hscope => by
      refine (e.eval_sound hnames scope he (hscope.imp fun h => ?_)).bind fun _ _ => ?_
      · simp [Expression.anyAggregate, h]
      refine (evalList_sound hnames es scope hes (hscope.imp fun h => ?_)).bind fun _ _ => .ok _
      simp [Expression.anyAggregate, h]

theorem evalIn_sound (hnames : env.Binds names) (d : Document) : (es : List Expression) →
    (scope : Scope) → Expression.AllSafe names aliases es →
    scope.Supports aliases (Expression.anyAggregate es = true) → Sound (evalIn env d es scope)
  | [], scope, hsafe, hscope => .ok _
  | e :: es, scope, ⟨he, hes⟩, hscope => by
      have hrest : Sound (evalIn env d es scope) :=
        evalIn_sound hnames d es scope hes (hscope.imp fun h => by
          simp [Expression.anyAggregate, h])
      refine (e.eval_sound hnames scope he (hscope.imp fun h => ?_)).bind fun candidate _ => ?_
      · simp [Expression.anyAggregate, h]
      split
      · split
        · exact .ok _
        · exact hrest
      · exact hrest

end

end Evaluation

end EntityQuery
