import EntityQuery.Proofs.Evaluation.Extension
import EntityQuery.Proofs.Evaluation.SafeStatement

/-!
# Evaluation over rows that correspond

A statement may be written with other placeholders and other aliases, as happens when its query is
translated behind another one.  If the placeholders have the same values, and the aliases are bound
to the same values in the rows, then each step of the evaluation leads to the same result.

* `Carries`: what a computation returns, another one returns up to a relation.
* `Row.Matches` and `Scope.Matches`: pairs of aliases are bound to the same values.
* `Expression.Follows`: an expression has the values of another one where the aliases match; each
  construct hands it on.
-/

namespace EntityQuery

/-! ## Results that are carried over

Two evaluations go side by side and lead to related results.  The relation is a parameter, since
values are to be the same, while rows and scopes are to match only in the aliases that are paired.
-/

/-- What the first computation returns, the second returns up to a relation. -/
def Carries {α β : Type} (r : α → β → Prop) (x : Except EvalError α) (y : Except EvalError β) :
    Prop :=
  ∀ a, x = .ok a → ∃ b, y = .ok b ∧ r a b

namespace Carries

variable {α β γ δ : Type} {r : α → β → Prop} {s : γ → δ → Prop}

lemma ok {a : α} {b : β} (h : r a b) : Carries r (.ok a) (.ok b) := by
  intro a' ha'
  cases ha'
  exact ⟨b, rfl, h⟩

lemma of_persists {x y : Except EvalError α} (h : Persists x y) : Carries Eq x y :=
  fun a ha => ⟨a, h a ha, rfl⟩

lemma persists {x y : Except EvalError α} (h : Carries Eq x y) : Persists x y := by
  intro a ha
  obtain ⟨b, hb, rfl⟩ := h a ha
  exact hb

lemma bind {x : Except EvalError α} {y : Except EvalError β} {f : α → Except EvalError γ}
    {g : β → Except EvalError δ} (h : Carries r x y)
    (hfg : ∀ a b, r a b → Carries s (f a) (g b)) : Carries s (x >>= f) (y >>= g) := by
  intro c hc
  obtain ⟨a, ha, hc⟩ := Computation.bind_eq_ok.1 hc
  obtain ⟨b, hb, hab⟩ := h a ha
  obtain ⟨d, hd, hcd⟩ := hfg a b hab c hc
  exact ⟨d, Computation.bind_eq_ok.2 ⟨b, hb, hd⟩, hcd⟩

/-- A computation that goes on alike with one value. -/
lemma step {x y : Except EvalError α} {f : α → Except EvalError γ} {g : α → Except EvalError δ}
    (h : Persists x y) (hfg : ∀ a, Carries s (f a) (g a)) : Carries s (x >>= f) (y >>= g) :=
  (of_persists h).bind fun a _ hab => hab ▸ hfg a

lemma mapM {f : α → Except EvalError γ} {g : β → Except EvalError δ} {as : List α} {bs : List β}
    (h : List.Forall₂ r as bs) (hfg : ∀ a b, r a b → Carries s (f a) (g b)) :
    Carries (List.Forall₂ s) (as.mapM f) (bs.mapM g) := by
  induction h with
  | nil => exact .ok .nil
  | @cons a b as bs hab _ ih =>
      rw [List.mapM_cons, List.mapM_cons]
      exact (hfg a b hab).bind fun c d hcd => ih.bind fun cs ds hrest => .ok (.cons hcd hrest)

/-- A computation on each member that has the same results has the same list of results. -/
lemma mapM_eq {f : α → Except EvalError γ} {g : β → Except EvalError γ} {as : List α}
    {bs : List β} (h : List.Forall₂ r as bs) (hfg : ∀ a b, r a b → Persists (f a) (g b)) :
    Persists (as.mapM f) (bs.mapM g) := by
  refine persists fun cs hcs => ?_
  obtain ⟨ds, hds, hrest⟩ := mapM h (fun a b hab => of_persists (hfg a b hab)) cs hcs
  exact ⟨ds, hds, List.forall₂_eq_eq_eq ▸ hrest⟩

lemma keepWhere {f : α → Except EvalError Bool} {g : β → Except EvalError Bool} {as : List α}
    {bs : List β} (h : List.Forall₂ r as bs) (hfg : ∀ a b, r a b → Persists (f a) (g b)) :
    Carries (List.Forall₂ r) (keepWhere f as) (keepWhere g bs) := by
  induction h with
  | nil => exact .ok .nil
  | @cons a b as bs hab _ ih =>
      refine step (hfg a b hab) fun keep => ih.bind fun cs ds hrest => ?_
      cases keep with
      | true => exact .ok (.cons hab hrest)
      | false => exact .ok hrest

end Carries

/-! ## Rows

The alias of a source may be another one on the other side, where all else is bound alike.  So rows
are compared by pairs of aliases, and an alias that occurs in no pair may be bound in addition
without any effect on the others. -/

/-- Pairs of aliases are bound to the same values in two rows. -/
def Row.Matches (pairs : List (String × String)) (row row' : Row) : Prop :=
  ∀ a ∈ pairs, ∃ d, row.find? a.1 = some d ∧ row'.find? a.2 = some d

/-- The pair of an alias with itself. -/
def samePair (aliasName : String) : String × String := (aliasName, aliasName)

/-- An alias occurs in no pair. -/
def Unpaired (pairs : List (String × String)) (aliasName : String) : Prop :=
  ∀ a ∈ pairs, a.1 ≠ aliasName ∧ a.2 ≠ aliasName

namespace Row.Matches

variable {pairs : List (String × String)} {row row' : Row}

lemma single (aliasName aliasName' : String) (d : Document) :
    (Row.single aliasName d).Matches [(aliasName, aliasName')] (Row.single aliasName' d) := by
  intro a ha
  rw [List.mem_singleton.1 ha]
  exact ⟨some d, find?_bind_self _ _ _, find?_bind_self _ _ _⟩

/-- Rows match when a new alias is bound to one value in both. -/
lemma bind (h : row.Matches pairs row') {aliasName : String} (hnew : Unpaired pairs aliasName)
    (d : Datum) :
    (row.bind aliasName d).Matches (pairs ++ [samePair aliasName]) (row'.bind aliasName d) := by
  intro a ha
  rcases List.mem_append.1 ha with ha | ha
  · obtain ⟨hne, hne'⟩ := hnew a ha
    rw [find?_bind_of_ne hne.symm, find?_bind_of_ne hne'.symm]
    exact h a ha
  · rw [List.mem_singleton.1 ha]
    exact ⟨d, find?_bind_self _ _ _, find?_bind_self _ _ _⟩

/-- What a new alias is bound to does not matter for the others. -/
lemma bindNew (h : row.Matches pairs row') {aliasName : String} (hnew : Unpaired pairs aliasName)
    (d : Datum) : row.Matches pairs (row'.bind aliasName d) := by
  intro a ha
  obtain ⟨v, hv, hv'⟩ := h a ha
  exact ⟨v, hv, by rwa [find?_bind_of_ne (hnew a ha).2.symm]⟩

end Row.Matches

/-- Pairs of aliases are bound to the same values in two scopes and, row by row, in their groups.
Where counts of rows are evaluated, nothing is bound. -/
structure Scope.Matches (pairs : List (String × String)) (s s' : Scope) : Prop where
  row : (s.row = .empty ∧ s'.row = .empty) ∨ s.row.Matches pairs s'.row
  group : Option.Rel (List.Forall₂ (Row.Matches pairs)) s.group s'.group

namespace Scope.Matches

variable {pairs : List (String × String)}

lemma ofRow {row row' : Row} (h : row.Matches pairs row') :
    (Scope.ofRow row).Matches pairs (.ofRow row') := ⟨.inr h, .none⟩

lemma empty : (Scope.ofRow .empty).Matches pairs (.ofRow .empty) := ⟨.inl ⟨rfl, rfl⟩, .none⟩

end Scope.Matches

/-! ## Expressions

It is a property of two expressions and not of their evaluation on given rows: wherever the aliases
are bound alike, the values are the same.  One lemma for each construct is all that translations
need, as they build expressions by these constructs only. -/

/-- An expression has the values of another one where pairs of aliases are bound to the same values;
and it holds an aggregate if the other one does. -/
structure Expression.Follows (env env' : Environment) (pairs : List (String × String))
    (e e' : Expression) : Prop where
  eval : ∀ s s', s.Matches pairs s' → Persists (e.eval env s) (e'.eval env' s')
  hasAggregate : e'.hasAggregate = e.hasAggregate

section Expressions

variable {env env' : Environment} {pairs : List (String × String)}

namespace Expression.Follows

variable {e e' l l' r r' : Expression} {es es' : List Expression}

/-- With more aliases that match, an expression follows as well. -/
lemma mono {more : List (String × String)} (h : Follows env env' pairs e e')
    (hsub : pairs ⊆ more) : Follows env env' more e e' where
  eval s s' hs := by
    have hrow : ∀ row row' : Row, row.Matches more row' → row.Matches pairs row' :=
      fun row row' h a ha => h a (hsub ha)
    refine h.eval s s' ⟨hs.row.imp_right (hrow _ _), ?_⟩
    have hgroup := hs.group
    generalize s.group = g, s'.group = g' at hgroup ⊢
    cases hgroup with
    | none => exact .none
    | some h => exact .some (h.imp hrow)
  hasAggregate := h.hasAggregate

lemma ident {aliasName aliasName' : String} (h : (aliasName, aliasName') ∈ pairs) :
    Follows env env' pairs (.ident aliasName) (.ident aliasName') where
  eval s s' hs := by
    rw [Expression.eval, Expression.eval]
    rcases hs.row with ⟨hrow, hrow'⟩ | hrow
    · rw [hrow, hrow']
      exact .refl _
    · obtain ⟨d, hd, hd'⟩ := hrow _ h
      rw [hd, hd']
      exact .refl _
  hasAggregate := rfl

lemma placeholder {name name' : String}
    (h : ∀ d, env.parameter? name = some d → env'.parameter? name' = some d) :
    Follows env env' pairs (.placeholder name) (.placeholder name') where
  eval s s' _ := by
    rw [Expression.eval, Expression.eval]
    intro d hd
    cases hname : env.parameter? name with
    | none =>
        rw [hname] at hd
        cases hd
    | some value =>
        rw [hname] at hd
        rw [h value hname]
        exact hd
  hasAggregate := rfl

lemma literal (value : Literal) : Follows env env' pairs (.literal value) (.literal value) where
  eval _ _ _ := .refl _
  hasAggregate := rfl

lemma field (h : Follows env env' pairs e e') (name : String) :
    Follows env env' pairs (.field e name) (.field e' name) where
  eval s s' hs := (h.eval s s' hs).bind fun _ => .refl _
  hasAggregate := h.hasAggregate

lemma path (h : Follows env env' pairs e e') (names : List String) :
    Follows env env' pairs (e.path names) (e'.path names) := by
  rw [Expression.path]
  induction names generalizing e e' with
  | nil => exact h
  | cons name names ih => exact ih (h.field name)

lemma binary (op : Operator) (hl : Follows env env' pairs l l') (hr : Follows env env' pairs r r') :
    Follows env env' pairs (.binary op l r) (.binary op l' r') where
  eval s s' hs := (hl.eval s s' hs).bind fun _ => (hr.eval s s' hs).bind fun _ => .refl _
  hasAggregate := by
    rw [Expression.hasAggregate, Expression.hasAggregate, hl.hasAggregate, hr.hasAggregate]

lemma not (h : Follows env env' pairs e e') : Follows env env' pairs (.not e) (.not e') where
  eval s s' hs := (h.eval s s' hs).bind fun _ => .refl _
  hasAggregate := h.hasAggregate

lemma neg (h : Follows env env' pairs e e') : Follows env env' pairs (.neg e) (.neg e') where
  eval s s' hs := (h.eval s s' hs).bind fun _ => .refl _
  hasAggregate := h.hasAggregate

lemma valued (h : Follows env env' pairs e e') :
    Follows env env' pairs (.valued e) (.valued e') where
  eval s s' hs := (h.eval s s' hs).bind fun _ => .refl _
  hasAggregate := h.hasAggregate

lemma notValued (h : Follows env env' pairs e e') :
    Follows env env' pairs (.notValued e) (.notValued e') where
  eval s s' hs := (h.eval s s' hs).bind fun _ => .refl _
  hasAggregate := h.hasAggregate

lemma like (h : Follows env env' pairs e e') (hr : Follows env env' pairs r r') :
    Follows env env' pairs (.like e r) (.like e' r') where
  eval s s' hs := (h.eval s s' hs).bind fun _ => (hr.eval s s' hs).bind fun _ => .refl _
  hasAggregate := by
    rw [Expression.hasAggregate, Expression.hasAggregate, h.hasAggregate, hr.hasAggregate]

lemma caseWhen (h : Follows env env' pairs e e') (hl : Follows env env' pairs l l')
    (hr : Follows env env' pairs r r') :
    Follows env env' pairs (.caseWhen e l r) (.caseWhen e' l' r') where
  eval s s' hs := (h.eval s s' hs).bind fun _ => .ite (hl.eval s s' hs) (hr.eval s s' hs)
  hasAggregate := by
    rw [Expression.hasAggregate, Expression.hasAggregate, h.hasAggregate, hl.hasAggregate,
      hr.hasAggregate]

/-- Expressions that follow one by one have the same values. -/
lemma evalList (h : List.Forall₂ (Follows env env' pairs) es es') {s s' : Scope}
    (hs : s.Matches pairs s') : Persists (evalList env es s) (evalList env' es' s') := by
  induction h with
  | nil => exact .refl _
  | cons he _ ih => exact (he.eval s s' hs).bind fun _ => ih.bind fun _ => .refl _

lemma evalIn (h : List.Forall₂ (Follows env env' pairs) es es') {s s' : Scope}
    (hs : s.Matches pairs s') (d : Document) :
    Persists (evalIn env d es s) (evalIn env' d es' s') := by
  induction h with
  | nil => exact .refl _
  | cons he _ ih =>
      refine (he.eval s s' hs).bind fun candidate => ?_
      cases candidate with
      | none => exact ih
      | some candidate => exact .ite (.refl _) ih

lemma anyAggregate (h : List.Forall₂ (Follows env env' pairs) es es') :
    Expression.anyAggregate es' = Expression.anyAggregate es := by
  induction h with
  | nil => rfl
  | cons he _ ih =>
      rw [Expression.anyAggregate, Expression.anyAggregate, he.hasAggregate, ih]

lemma call (name : String) (h : List.Forall₂ (Follows env env' pairs) es es') :
    Follows env env' pairs (.call name es) (.call name es') where
  eval _ _ hs := (evalList h hs).bind fun _ => .refl _
  hasAggregate := anyAggregate h

lemma inList (h : Follows env env' pairs e e')
    (hes : List.Forall₂ (Follows env env' pairs) es es') :
    Follows env env' pairs (.inList e es) (.inList e' es') where
  eval s s' hs := by
    refine (h.eval s s' hs).bind fun d => ?_
    split
    · exact .refl _
    · exact .refl _
    · exact (evalIn hes hs _).map _
  hasAggregate := by
    rw [Expression.hasAggregate, Expression.hasAggregate, h.hasAggregate, anyAggregate hes]

/-- The number of rows is the same. -/
lemma countRows : Follows env env' pairs .countRows .countRows where
  eval s s' hs := by
    have hgroup := hs.group
    rw [Expression.countRows, Expression.eval, Expression.eval]
    generalize s.group = g, s'.group = g' at hgroup ⊢
    cases hgroup with
    | none => exact .refl _
    | some hrows =>
        simp only [hrows.length_eq]
        exact .refl _
  hasAggregate := rfl

/-- An aggregate is that of the same values. -/
lemma aggregate (function : Aggregate) (distinct : Bool) (h : Follows env env' pairs e e') :
    Follows env env' pairs (.aggregate function distinct e) (.aggregate function distinct e') where
  eval s s' hs := by
    have hgroup := hs.group
    rw [Expression.eval, Expression.eval]
    generalize s.group = g, s'.group = g' at hgroup ⊢
    cases hgroup with
    | none => exact .refl _
    | some hrows =>
        have hvalues := Carries.mapM_eq hrows fun row row' hrow => h.eval _ _ (.ofRow hrow)
        exact hvalues.bind fun _ => .refl _
  hasAggregate := rfl

end Expression.Follows

lemma Expression.Follows.holds {e e' : Expression} (h : e.Follows env env' pairs e')
    {row row' : Row} (hrow : row.Matches pairs row') :
    Persists (e.holds env row) (e'.holds env' row') :=
  (h.eval _ _ (.ofRow hrow)).bind fun _ => .refl _

lemma Expression.Follows.rowCount {e e' : Expression} (h : e.Follows env env' pairs e')
    (clause : String) : Persists (e.rowCount env clause) (e'.rowCount env' clause) :=
  (h.eval _ _ .empty).bind fun _ => .refl _

end Expressions

end EntityQuery
