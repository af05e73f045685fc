import EntityQuery.Evaluation.Statement
import EntityQuery.Proofs.Computation

/-!
# What statements read from collections

Expressions see rows and the values of placeholders, but no collections.  A statement looks at
collections only through the keyspaces that it names, and it evaluates each of its sources.

* `Statement.run_agrees`: what the keyspaces of a statement agree on, the statement agrees on.
* `Statement.run_congr`: a statement returns the same over collections that hold the same under its
  keyspaces.
* `Statement.run_of_unknown`: how a statement fails that reads a keyspace which does not exist.
-/

namespace EntityQuery

variable {env env' : Environment}

/-! ## Expressions and clauses

Only a source reads a collection.  So expressions and clauses have the same values in environments
that differ in their collections alone, which is shown construct by construct. -/

section Expressions

mutual

/-- **The value of an expression does not depend on the collections.** -/
theorem Expression.eval_congr (h : env.parameters = env'.parameters) : (e : Expression) →
    (scope : Scope) → e.eval env scope = e.eval env' scope
  | .ident _, _ | .literal _, _ | .aggregate _ _ none, _ => by
      rw [Expression.eval, Expression.eval]
  | .placeholder name, _ => by
      rw [Expression.eval, Expression.eval, Environment.parameter?, Environment.parameter?, h]
  | .field e _, scope | .not e, scope | .neg e, scope | .valued e, scope | .notValued e, scope => by
      rw [Expression.eval, Expression.eval, e.eval_congr h scope]
  | .binary _ left right, scope => by
      simp only [Expression.eval, left.eval_congr h scope, right.eval_congr h scope]
  | .inList e list, scope => by
      simp only [Expression.eval, e.eval_congr h scope, evalIn_congr h _ list scope]
  | .like e pattern, scope => by
      simp only [Expression.eval, e.eval_congr h scope, pattern.eval_congr h scope]
  | .call _ args, scope => by
      rw [Expression.eval, Expression.eval, evalList_congr h args scope]
  | .aggregate _ _ (some arg), scope => by
      simp only [Expression.eval, arg.eval_congr h]
  | .caseWhen c t o, scope => by
      simp only [Expression.eval, c.eval_congr h scope, t.eval_congr h scope, o.eval_congr h scope]

theorem evalList_congr (h : env.parameters = env'.parameters) : (es : List Expression) →
    (scope : Scope) → evalList env es scope = evalList env' es scope
  | [], _ => by rw [evalList, evalList]
  | e :: es, scope => by
      simp only [evalList, e.eval_congr h scope, evalList_congr h es scope]

theorem evalIn_congr (h : env.parameters = env'.parameters) (d : Document) :
    (es : List Expression) → (scope : Scope) → evalIn env d es scope = evalIn env' d es scope
  | [], _ => by rw [evalIn, evalIn]
  | e :: es, scope => by
      simp only [evalIn, e.eval_congr h scope, evalIn_congr h d es scope]

end

lemma Expression.holds_congr (h : env.parameters = env'.parameters) (e : Expression) :
    e.holds env = e.holds env' := by
  funext row
  rw [holds, holds, e.eval_congr h]

lemma projectItems_congr (h : env.parameters = env'.parameters) (scope : Scope)
    (items : List (Expression × String)) (fields : Fields) :
    projectItems env scope items fields = projectItems env' scope items fields := by
  induction items generalizing fields with
  | nil => rfl
  | cons item items ih => simp only [projectItems, item.1.eval_congr h scope, ih]

lemma Selection.project_congr (h : env.parameters = env'.parameters) (s : Selection) :
    s.project env = s.project env' := by
  funext scope
  cases s with
  | raw e => exact e.eval_congr h scope
  | items list => rw [project, project, projectItems_congr h]

/-- The documents of a selection do not depend on the collections. -/
lemma Clauses.run_congr (h : env.parameters = env'.parameters) (c : Clauses) (rows : List Row) :
    c.run env rows = c.run env' rows := by
  simp only [run, kept, scopes, ordered, page, Expression.rowCount, Expression.eval_congr h,
    Expression.holds_congr h, evalList_congr h, Selection.project_congr h]

lemma joinRow_congr (h : env.parameters = env'.parameters) (matching : Matching)
    (aliasName : String) (condition : Expression) (documents : List Document) :
    joinRow env matching aliasName condition documents =
      joinRow env' matching aliasName condition documents := by
  funext row
  rw [joinRow, joinRow, condition.holds_congr h]

lemma unnestRow_congr (h : env.parameters = env'.parameters) (matching : Matching)
    (aliasName : String) (array : Expression) :
    unnestRow env matching aliasName array = unnestRow env' matching aliasName array := by
  funext row
  rw [unnestRow, unnestRow, array.eval_congr h]

end Expressions

/-! ## Statements

Two stores may differ under a keyspace that the statement reads; then it may fail over one of them
and not over the other.  Agreement is therefore stated up to the failures that a read in the first
store may have. -/

/-- Two computations agree, unless the first one fails with one of some errors. -/
def AgreesUnless {ε α : Type} (expected : ε → Prop) (x y : Except ε α) : Prop :=
  (∃ e, expected e ∧ x = .error e) ∨ x = y

namespace AgreesUnless

variable {ε α β : Type} {expected : ε → Prop}

lemma refl (x : Except ε α) : AgreesUnless expected x x := .inr rfl

lemma bind {x y : Except ε α} {f g : α → Except ε β} (h : AgreesUnless expected x y)
    (hfg : ∀ a, AgreesUnless expected (f a) (g a)) :
    AgreesUnless expected (x >>= f) (y >>= g) := by
  rcases h with ⟨e, he, rfl⟩ | rfl
  · exact .inl ⟨e, he, rfl⟩
  · cases x with
    | error e => exact .inr rfl
    | ok a => exact hfg a

end AgreesUnless

/-- The documents that a source reads from a keyspace. -/
def Environment.read (env : Environment) (k : Keyspace) : Except EvalError (List Document) :=
  (env.collections.documents? k).elim (.error (.unknownKeyspace k.dotted)) .ok

lemma Source.run_keyspace (k : Keyspace) (aliasName : String) :
    (Source.keyspace k aliasName).run env = env.read k := by
  rw [Source.run, Environment.read]
  cases env.collections.documents? k <;> rfl

section Statements

variable {expected : EvalError → Prop}

mutual

/-- **What the keyspaces of a statement agree on, the statement agrees on.** -/
theorem Statement.run_agrees (h : env.parameters = env'.parameters) : (s : Statement) →
    (∀ k ∈ s.reads, AgreesUnless expected (env.read k) (env'.read k)) →
    AgreesUnless expected (s.run env) (s.run env')
  | .select source terms clauses, hk => by
      simp only [Statement.reads, List.forall_mem_append] at hk
      refine (source.run_agrees h hk.1).bind fun documents => ?_
      refine (runTerms_agrees h terms _ hk.2).bind fun rows => ?_
      exact .inr (clauses.run_congr h rows)
  | .compound _ left right, hk => by
      simp only [Statement.reads, List.forall_mem_append] at hk
      exact (left.run_agrees h hk.1).bind fun _ => (right.run_agrees h hk.2).bind fun _ => .refl _

theorem Source.run_agrees (h : env.parameters = env'.parameters) : (source : Source) →
    (∀ k ∈ source.reads, AgreesUnless expected (env.read k) (env'.read k)) →
    AgreesUnless expected (source.run env) (source.run env')
  | .keyspace k aliasName, hk => by
      rw [Source.run_keyspace, Source.run_keyspace]
      exact hk k (List.mem_singleton_self _)
  | .statement s _, hk => s.run_agrees h hk

theorem Term.run_agrees (h : env.parameters = env'.parameters) : (t : Term) → (rows : List Row) →
    (∀ k ∈ t.reads, AgreesUnless expected (env.read k) (env'.read k)) →
    AgreesUnless expected (t.run env rows) (t.run env' rows)
  | .join matching source condition, rows, hk => by
      refine (source.run_agrees h hk).bind fun documents => ?_
      rw [joinRow_congr h]
      exact .refl _
  | .unnest matching array aliasName, rows, _ => by
      rw [Term.run, Term.run, unnestRow_congr h]
      exact .refl _

theorem runTerms_agrees (h : env.parameters = env'.parameters) : (ts : List Term) →
    (rows : List Row) → (∀ k ∈ termReads ts, AgreesUnless expected (env.read k) (env'.read k)) →
    AgreesUnless expected (runTerms env ts rows) (runTerms env' ts rows)
  | [], _, _ => .refl _
  | t :: ts, rows, hk => by
      simp only [termReads, List.forall_mem_append] at hk
      exact (t.run_agrees h rows hk.1).bind fun rows => runTerms_agrees h ts rows hk.2

end

/-- **A statement returns the same over collections that hold the same under its keyspaces.** -/
theorem Statement.run_congr {s : Statement} (h : env.parameters = env'.parameters)
    (hk : ∀ k ∈ s.reads, env.collections.documents? k = env'.collections.documents? k) :
    s.run env = s.run env' := by
  have hread : ∀ k ∈ s.reads, AgreesUnless (fun _ => False) (env.read k) (env'.read k) := by
    intro k hmem
    rw [Environment.read, Environment.read, hk k hmem]
    exact .refl _
  exact (s.run_agrees h hread).resolve_left fun ⟨_, hfalse, _⟩ => hfalse

end Statements

/-! ## Keyspaces that do not exist

A statement evaluates all of its sources, whatever rows there are.  So a keyspace that does not
exist is noticed unless the evaluation fails before it gets there. -/

mutual

lemma Statement.reads_ne_nil : (s : Statement) → s.reads ≠ []
  | .select source _ _ => List.append_ne_nil_of_left_ne_nil source.reads_ne_nil _
  | .compound _ left _ => List.append_ne_nil_of_left_ne_nil left.reads_ne_nil _

lemma Source.reads_ne_nil : (source : Source) → source.reads ≠ []
  | .keyspace _ _ => List.cons_ne_nil _ _
  | .statement s _ => s.reads_ne_nil

end

section Unknown

variable {k : Keyspace}

mutual

/-- A statement that returns rows reads keyspaces that exist. -/
theorem Statement.isSome_of_run {rows : List Document} : (s : Statement) → s.run env = .ok rows →
    ∀ k ∈ s.reads, (env.collections.documents? k).isSome = true
  | .select source terms clauses, hrun => by
      obtain ⟨documents, hsource, hrun⟩ := Computation.bind_eq_ok.1 hrun
      obtain ⟨rows, hterms, -⟩ := Computation.bind_eq_ok.1 hrun
      exact List.forall_mem_append.2
        ⟨source.isSome_of_run hsource, isSome_of_runTerms terms hterms⟩
  | .compound _ left right, hrun => by
      obtain ⟨l, hl, hrun⟩ := Computation.bind_eq_ok.1 hrun
      obtain ⟨r, hr, -⟩ := Computation.bind_eq_ok.1 hrun
      exact List.forall_mem_append.2 ⟨left.isSome_of_run hl, right.isSome_of_run hr⟩

theorem Source.isSome_of_run {documents : List Document} : (source : Source) →
    source.run env = .ok documents →
    ∀ k ∈ source.reads, (env.collections.documents? k).isSome = true
  | .keyspace k aliasName, hrun => by
      intro k' hk'
      rw [List.mem_singleton.1 hk']
      rw [Source.run_keyspace, Environment.read] at hrun
      cases hk : env.collections.documents? k with
      | none =>
          rw [hk] at hrun
          cases hrun
      | some documents => rfl
  | .statement s _, hrun => s.isSome_of_run hrun

theorem Term.isSome_of_run {rows rows' : List Row} : (t : Term) → t.run env rows = .ok rows' →
    ∀ k ∈ t.reads, (env.collections.documents? k).isSome = true
  | .join _ source _, hrun => by
      obtain ⟨documents, hsource, -⟩ := Computation.bind_eq_ok.1 hrun
      exact source.isSome_of_run hsource
  | .unnest .., _ => fun _ hk => absurd hk List.not_mem_nil

theorem isSome_of_runTerms {rows rows' : List Row} : (ts : List Term) →
    runTerms env ts rows = .ok rows' →
    ∀ k ∈ termReads ts, (env.collections.documents? k).isSome = true
  | [], _ => fun _ hk => absurd hk List.not_mem_nil
  | t :: ts, hrun => by
      obtain ⟨rows, ht, hts⟩ := Computation.bind_eq_ok.1 hrun
      exact List.forall_mem_append.2 ⟨t.isSome_of_run ht, isSome_of_runTerms ts hts⟩

end

mutual

/-- A statement reads its first keyspace before it does anything else. -/
theorem Statement.run_of_first (hnone : env.collections.documents? k = none) : (s : Statement) →
    s.reads.head? = some k → s.run env = .error (.unknownKeyspace k.dotted)
  | .select source terms clauses, hfirst => by
      rw [Statement.reads, List.head?_append_of_ne_nil _ source.reads_ne_nil] at hfirst
      rw [Statement.run, source.run_of_first hnone hfirst]
      rfl
  | .compound _ left right, hfirst => by
      rw [Statement.reads, List.head?_append_of_ne_nil _ left.reads_ne_nil] at hfirst
      rw [Statement.run, left.run_of_first hnone hfirst]
      rfl

theorem Source.run_of_first (hnone : env.collections.documents? k = none) : (source : Source) →
    source.reads.head? = some k → source.run env = .error (.unknownKeyspace k.dotted)
  | .keyspace k' aliasName, hfirst => by
      cases hfirst
      rw [Source.run_keyspace, Environment.read, hnone]
      rfl
  | .statement s _, hfirst => s.run_of_first hnone hfirst

end

/-- **A statement fails that reads a keyspace which does not exist.**  It reports that keyspace,
unless it fails before it gets there: then it fails in the same way whatever the keyspace holds. -/
theorem Statement.run_of_unknown {s : Statement} (hk : k ∈ s.reads)
    (hnone : env.collections.documents? k = none) :
    s.run env = .error (.unknownKeyspace k.dotted) ∨
      s.reads.head? ≠ some k ∧ ∃ e, s.run env = .error e ∧
        ∀ env' : Environment, env.parameters = env'.parameters →
        (∀ k' ∈ s.reads, k'.dotted ≠ k.dotted →
          env.collections.documents? k' = env'.collections.documents? k') →
        s.run env' = .error e := by
  cases hrun : s.run env with
  | ok rows =>
      have hsome := s.isSome_of_run hrun k hk
      rw [hnone] at hsome
      cases hsome
  | error e =>
      by_cases he : e = .unknownKeyspace k.dotted
      · exact .inl (congrArg _ he)
      · refine .inr ⟨fun hfirst => ?_, e, rfl, fun env' hparameters hsame => ?_⟩
        · exact he (Except.error.inj (hrun.symm.trans (s.run_of_first hnone hfirst)))
        have hread : ∀ k' ∈ s.reads, AgreesUnless (· = .unknownKeyspace k.dotted) (env.read k')
            (env'.read k') := by
          intro k' hmem
          by_cases hk' : k'.dotted = k.dotted
          · have hnone' : env.collections.documents? k' = none := by
              rw [Collections.documents?, hk']
              exact hnone
            refine .inl ⟨_, rfl, ?_⟩
            rw [Environment.read, hnone', hk']
            rfl
          · rw [Environment.read, Environment.read, hsame k' hmem hk']
            exact .refl _
        rcases s.run_agrees hparameters hread with ⟨_, rfl, hunknown⟩ | hagree
        · exact absurd (Except.error.inj (hrun.symm.trans hunknown)) he
        · rw [← hagree, hrun]

end Unknown
end EntityQuery
