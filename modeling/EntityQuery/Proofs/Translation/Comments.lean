import EntityQuery.Proofs.Statement.Comments
import EntityQuery.Proofs.Translation.Placeholders

/-!
# Comments in translated statements

A translation writes dashes for differences and for negations only.  A difference has blanks around
its dash, but a negation stands directly in front of its operand.  So the negation of a negation is
written with two dashes, and the store takes what follows them for a comment.

* `ParameterTable.Binds.isIdentifier`: the placeholders of a translation are identifiers.
* `comments_closed`: when the text of a translation opens a comment.
-/

namespace EntityQuery

/-! ## Names of placeholders

Names of slots are made up and names of parameters are checked.  Either way they are identifiers,
and no part of a comment. -/

lemma isIdentifier_slotName (n : Nat) : isIdentifier (slotName n) = true := by
  have hdigits : (toString n).toList = Nat.toDigits 10 n := Nat.toList_repr
  have hname : (slotName n).toList = 'p' :: Nat.toDigits 10 n := by
    rw [slotName, String.toList_append, hdigits]
    rfl
  simp only [isIdentifier, hname, Bool.and_eq_true, List.all_eq_true]
  refine ⟨rfl, fun d hd => ?_⟩
  have hdigit : d.isDigit = true := Nat.isDigit_of_mem_toDigits (by decide) (by decide) hd
  simp [Char.isAlphanum, hdigit]

namespace ParameterTable

lemma isIdentifier_of_bindNamed {t t' : ParameterTable} {name : String} {type : ScalarType}
    (h : t.bindNamed name type = .ok (t', name)) : isIdentifier name = true := by
  rw [bindNamed] at h
  split at h
  · cases h
  · rename_i hvalid
    simp only [Bool.or_eq_true, not_or, Bool.not_eq_true, Bool.not_eq_false'] at hvalid
    exact hvalid.1

/-- The placeholders of what is read are identifiers. -/
lemma Binds.isIdentifier {n : Nat} {is : List Input} {t t' : ParameterTable}
    (h : Binds n is t t') : ∀ name ∈ placeholdersFrom n is, isIdentifier name = true := by
  induction h with
  | refl => exact fun name h => absurd h List.not_mem_nil
  | bound _ ih => exact List.forall_mem_cons.2 ⟨isIdentifier_slotName _, ih⟩
  | tested _ ih => exact ih
  | named hname _ ih => exact List.forall_mem_cons.2 ⟨isIdentifier_of_bindNamed hname, ih⟩
  | marked _ ih => exact ih

end ParameterTable

/-! ## Placeholders among the parts of a statement -/

namespace Expression

lemma mem_placeholders_of_child {c e : Expression} {name : String} (hc : c ∈ e.children)
    (h : name ∈ c.placeholders) : name ∈ e.placeholders := by
  cases e with
  | ident | placeholder | literal => cases hc
  | aggregate function distinct arg =>
      cases arg with
      | none => cases hc
      | some arg =>
          rw [List.mem_singleton.1 hc] at h
          exact h
  | field | not | neg | valued | notValued =>
      rw [List.mem_singleton.1 hc] at h
      exact h
  | binary | like | caseWhen =>
      simp only [children, List.mem_cons, List.not_mem_nil, or_false] at hc
      simp only [placeholders, List.mem_append]
      grind
  | inList e list =>
      rw [placeholders, List.mem_append, mem_placeholdersOf]
      rcases List.mem_cons.1 hc with rfl | hc
      · exact .inl h
      · exact .inr ⟨c, hc, h⟩
  | call name args =>
      rw [placeholders, mem_placeholdersOf]
      exact ⟨c, hc, h⟩

lemma mem_placeholders_of_isPartOf {part e : Expression} {name : String} (h : part.IsPartOf e)
    (hname : name ∈ part.placeholders) : name ∈ e.placeholders := by
  induction h with
  | self => exact hname
  | child hc _ ih => exact mem_placeholders_of_child hc ih

end Expression

mutual

lemma Statement.mem_placeholders_of_mem {e : Expression} {name : String}
    (hname : name ∈ e.placeholders) : (s : Statement) → e ∈ s.allExpressions →
    name ∈ s.placeholders
  | .select source terms clauses, he => by
      simp only [Statement.allExpressions, List.mem_append] at he
      simp only [Statement.placeholders, List.mem_append, Expression.mem_placeholdersOf]
      rcases he with (he | he) | he
      · exact .inl (.inl (source.mem_placeholders_of_mem hname he))
      · exact .inl (.inr (mem_termPlaceholders_of_mem hname terms he))
      · exact .inr ⟨e, he, hname⟩
  | .compound _ left right, he => by
      simp only [Statement.allExpressions, List.mem_append] at he
      exact List.mem_append.2 (he.imp (left.mem_placeholders_of_mem hname)
        (right.mem_placeholders_of_mem hname))

lemma Source.mem_placeholders_of_mem {e : Expression} {name : String}
    (hname : name ∈ e.placeholders) : (s : Source) → e ∈ s.allExpressions → name ∈ s.placeholders
  | .keyspace .., he => by cases he
  | .statement s _, he => s.mem_placeholders_of_mem hname he

lemma Term.mem_placeholders_of_mem {e : Expression} {name : String}
    (hname : name ∈ e.placeholders) : (t : Term) → e ∈ t.allExpressions → name ∈ t.placeholders
  | .join _ source condition, he => by
      simp only [Term.allExpressions, List.mem_append, List.mem_singleton] at he
      refine List.mem_append.2 (he.imp (source.mem_placeholders_of_mem hname) ?_)
      rintro rfl
      exact hname
  | .unnest _ array _, he => by
      rw [List.mem_singleton.1 he] at hname
      exact hname

lemma mem_termPlaceholders_of_mem {e : Expression} {name : String}
    (hname : name ∈ e.placeholders) : (ts : List Term) → e ∈ allTermExpressions ts →
    name ∈ termPlaceholders ts
  | [], he => by cases he
  | t :: ts, he => by
      simp only [allTermExpressions, List.mem_append] at he
      exact List.mem_append.2 (he.imp (t.mem_placeholders_of_mem hname)
        (mem_termPlaceholders_of_mem hname ts))

end

lemma Statement.Holds.mem_placeholders {s : Statement} {name : String}
    (h : s.Holds (.placeholder name)) : name ∈ s.placeholders := by
  obtain ⟨e, he, hpart⟩ := h
  exact s.mem_placeholders_of_mem
    (Expression.mem_placeholders_of_isPartOf hpart (List.mem_singleton_self _)) he

/-! ## Translations -/

/-- **Comments in translations.**  Let the functions that a translated statement calls be named by
identifiers.  Its text opens a comment exactly if a negation in it has an operand that begins with a
sign; nothing else that a translation writes puts two dashes next to each other. -/
theorem comments_closed {tr : Translator} {q : Query} {t : Translation}
    (h : tr.translate q = .ok t)
    (hcalls : ∀ name args, t.query.statement.Holds (.call name args) → isIdentifier name = true) :
    OpensComment t.query.statement.text ↔
      ∃ operand, t.query.statement.Holds (.neg operand) ∧ operand.isSigned = true := by
  obtain ⟨stage, progress, hstage, hquery, -⟩ := Translator.translate_eq_ok h
  have hreads := (Translator.stage_eq_ok hstage).2
  refine Statement.opensComment_text ⟨fun name hname => ?_, hcalls⟩
  have hmem : name ∈ stage.statement.placeholders := by
    rw [hquery] at hname
    exact hname.mem_placeholders
  exact hreads.parameters.isIdentifier name
    ((Translator.stage_placeholders hstage name).1 (.inl hmem))

namespace Sample

/-- The opposite of each age. -/
def agesOpposed : Query := .project (.source "Person" "p") (.scalar (.negate age))

/-- The opposite of the opposite of each age. -/
def agesOpposedTwice : Query :=
  .project (.source "Person" "p") (.scalar (.negate (.negate age)))

end Sample

/-- The opposites of the ages are written without a comment. -/
theorem comments_closed_agesOpposed : ∃ t,
    Sample.translator.translate Sample.agesOpposed = .ok t ∧
      ¬ OpensComment t.query.statement.text := by
  refine ⟨_, rfl, fun hopen => ?_⟩
  obtain ⟨operand, ⟨e, he, hpart⟩, hsigned⟩ :=
    (@comments_closed Sample.translator Sample.agesOpposed _ rfl fun name args ⟨e, he, hpart⟩ => by
      cases List.mem_singleton.1 he
      simp [Expression.path] at hpart).1 hopen
  cases List.mem_singleton.1 he
  have hage : operand = .field (.ident "p") "age" := by simpa [Expression.path] using hpart
  rw [hage] at hsigned
  cases hsigned

/-- The two dashes of an opposite of an opposite open a comment, in a statement without calls. -/
theorem agesOpposedTwice_opensComment : ∃ t,
    Sample.translator.translate Sample.agesOpposedTwice = .ok t ∧
      OpensComment t.query.statement.text ∧
        ∀ name args, ¬ t.query.statement.Holds (.call name args) := by
  refine ⟨_, rfl, ⟨"SELECT RAW ".toList, "`p`.`age` FROM `app`.`_default`.`person` AS `p`".toList,
    rfl, rfl⟩, ?_⟩
  rintro name args ⟨e, he, hpart⟩
  cases List.mem_singleton.1 he
  simp [Expression.path] at hpart

end EntityQuery
