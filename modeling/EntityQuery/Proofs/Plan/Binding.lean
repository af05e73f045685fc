import EntityQuery.Evaluation.Statement
import EntityQuery.Plan.Basic
import EntityQuery.Proofs.Evaluation.Extension
import EntityQuery.Proofs.Translation.Slots

/-!
# Binding the constants of a larger query

When a query is extended by a further operator, its parameter table gets further entries, and its
constants are followed by further ones.  The entries that were there keep their values, so that the
statement of the smaller query returns the same rows.

* `ParameterTable.Extends`: a table has the entries of another one.
* `ParameterEntry.bind_eq_ok` and `Plan.parameter?_of_entry`: what is bound for an entry.
* `Plan.extends_bind`: the values that a plan of the larger query binds extend those of the smaller.
* `Query.HasRows`: the rows that a query has in a store.
-/

namespace EntityQuery

/-! ## Tables that grow

Nothing is taken out of a table.  What is read later adds an entry, or marks one that is there as a
number of rows. -/

namespace ParameterTable

/-- A table has the entries of another one, but that they may be marked as numbers of rows. -/
def Extends (t' t : ParameterTable) : Prop :=
  ∀ name e, t.find? name = some e → ∃ rowCount, t'.find? name = some { e with rowCount }

namespace Extends

variable {t t' t'' : ParameterTable}

lemma refl (t : ParameterTable) : t.Extends t := fun _ e h => ⟨e.rowCount, h⟩

lemma trans (h : t''.Extends t') (h' : t'.Extends t) : t''.Extends t := by
  intro name e he
  obtain ⟨rowCount', he⟩ := h' name e he
  obtain ⟨rowCount, he⟩ := h name _ he
  exact ⟨rowCount, he⟩

lemma push (t : ParameterTable) (e : ParameterEntry) : (t.push e).Extends t := by
  intro name e' he
  refine ⟨e'.rowCount, ?_⟩
  rw [find?, ParameterTable.push] at *
  rw [List.find?_append, he]
  rfl

lemma bindSlot (t : ParameterTable) (slot : Nat) (scalarType : ScalarType) :
    (t.bindSlot slot scalarType).1.Extends t := by
  cases hfind : t.find? (slotName slot) with
  | some e =>
      simp only [ParameterTable.bindSlot, hfind]
      exact .refl t
  | none =>
      simp only [ParameterTable.bindSlot, hfind]
      exact .push t _

lemma bindNamed {name name' : String} {scalarType : ScalarType}
    (h : t.bindNamed name scalarType = .ok (t', name')) : t'.Extends t := by
  have hname := bindNamed_snd h
  rw [hname] at h
  obtain ⟨-, ⟨e, -, -, rfl⟩ | ⟨-, rfl⟩⟩ := bindNamed_eq_ok h
  · exact .refl _
  · exact .push t _

lemma markRowCount (t : ParameterTable) (marked : String) : (t.markRowCount marked).Extends t := by
  obtain ⟨entries⟩ := t
  intro name e
  simp only [find?, ParameterTable.markRowCount]
  induction entries with
  | nil =>
      intro h
      cases h
  | cons first entries ih =>
      intro h
      rw [markFirst]
      rw [List.find?_cons] at h
      -- the entry keeps its name, whether it is the one that is marked or not
      cases hname : first.name == name with
      | true =>
          rw [hname] at h
          cases h
          split
          · exact ⟨true, by rw [List.find?_cons, hname]⟩
          · exact ⟨e.rowCount, by rw [List.find?_cons, hname]⟩
      | false =>
          rw [hname] at h
          split
          · exact ⟨e.rowCount, by rw [List.find?_cons, hname, h]⟩
          · rw [List.find?_cons, hname]
            exact ih h

end Extends

/-- Reading inputs extends a table. -/
theorem Binds.extends {n : Nat} {is : List Input} {t t' : ParameterTable} (h : Binds n is t t') :
    t'.Extends t := by
  induction h with
  | refl => exact .refl _
  | bound _ ih => exact ih.trans (.bindSlot _ _ _)
  | tested _ ih => exact ih
  | named hname _ ih => exact ih.trans (.bindNamed hname)
  | marked _ ih => exact ih.trans (.markRowCount _ _)

end ParameterTable

/-! ## Values of entries

An entry is bound in two steps: it is supplied with a value, by the place of its slot or by its
name, and the value is encoded.  Further constants come behind those that there are, and change
neither. -/

/-- An entry is bound under its name to what is written for the value that it is supplied with, if
the value passes its check. -/
lemma ParameterEntry.bind_eq_ok {e : ParameterEntry} {codec : Codec} {cs : List Captured}
    {c : Context} {p : String × Document} : e.bind codec cs c = .ok p ↔
      ∃ value d, e.supply cs c = .ok value ∧ e.check value = .ok () ∧ codec.encode value = .ok d ∧
        p = (e.name, d) := by
  constructor
  · intro h
    obtain ⟨value, hvalue, h⟩ := Computation.bind_eq_ok.1 h
    obtain ⟨⟨⟩, hcheck, h⟩ := Computation.bind_eq_ok.1 h
    obtain ⟨d, hd, h⟩ := Computation.bind_eq_ok.1 h
    cases h
    exact ⟨value, d, hvalue, hcheck, Computation.mapError_eq_ok.1 hd, rfl⟩
  · rintro ⟨value, d, hvalue, hcheck, hd, rfl⟩
    refine Computation.bind_eq_ok.2 ⟨value, hvalue, ?_⟩
    refine Computation.bind_eq_ok.2 ⟨(), hcheck, ?_⟩
    exact Computation.bind_eq_ok.2 ⟨d, Computation.mapError_eq_ok.2 hd, rfl⟩

/-- The entry of a constant is supplied with the constant at the place of its slot. -/
lemma ParameterEntry.eq_value_of_supply {e : ParameterEntry} {cs : List Captured} {c : Context}
    {value : Value} {k : Nat} {captured : Captured} (h : e.supply cs c = .ok value)
    (horigin : e.origin = .constant k) (hk : cs[k]? = some captured) : value = captured.value := by
  simp only [supply, horigin, hk] at h
  split at h
  · cases h
    rfl
  · cases h

/-- The entry of a constant is supplied only if there is a constant at the place of its slot. -/
lemma ParameterEntry.exists_of_supply {e : ParameterEntry} {cs : List Captured} {c : Context}
    {value : Value} {k : Nat} (h : e.supply cs c = .ok value) (horigin : e.origin = .constant k) :
    ∃ captured, cs[k]? = some captured ∧ captured.value = value := by
  cases hk : cs[k]? with
  | none =>
      simp only [supply, horigin, hk] at h
      cases h
  | some captured => exact ⟨captured, rfl, (eq_value_of_supply h horigin hk).symm⟩

/-- The entry of a parameter is supplied with the value of the parameter in the context. -/
lemma ParameterEntry.parameter?_of_supply {e : ParameterEntry} {cs : List Captured} {c : Context}
    {value : Value} (h : e.supply cs c = .ok value) (horigin : e.origin = .named) :
    c.parameter? e.name = some value := by
  rw [supply, horigin] at h
  cases hcontext : c.parameter? e.name with
  | none =>
      rw [hcontext] at h
      cases h
  | some value' =>
      simp only [hcontext] at h
      split at h
      · cases h
      · cases h
        rfl

/-- An entry is supplied with the same value among further constants, whether it is marked or not.
-/
lemma ParameterEntry.supply_append {e : ParameterEntry} {rowCount : Bool} {cs more : List Captured}
    {c : Context} {value : Value} (h : e.supply cs c = .ok value) :
    { e with rowCount }.supply (cs ++ more) c = .ok value := by
  rw [supply] at h ⊢
  cases horigin : e.origin with
  | named =>
      simp only [horigin] at h ⊢
      exact h
  | constant slot =>
      simp only [horigin] at h ⊢
      cases hslot : cs[slot]? with
      | none =>
          rw [hslot] at h
          cases h
      | some captured =>
          have hlt : slot < cs.length := (List.getElem?_eq_some_iff.1 hslot).1
          rw [List.getElem?_append_left hlt, hslot]
          rw [hslot] at h
          exact h

/-- An entry that has a value keeps it among further constants. -/
lemma ParameterEntry.bind_of_append {e : ParameterEntry} {codec : Codec} {cs : List Captured}
    {c : Context} {p : String × Document} (h : e.bind codec cs c = .ok p) (more : List Captured) :
    e.bind codec (cs ++ more) c = .ok p := by
  obtain ⟨value, d, hvalue, h⟩ := bind_eq_ok.1 h
  exact bind_eq_ok.2 ⟨value, d, supply_append hvalue, h⟩

/-- The document that a constant is written as. -/
def Captured.document? (registry : Registry) (c : Captured) : Option Document :=
  match registry.find c.scalarType with
  | .ok codec => (codec.encode c.value).toOption
  | .error _ => none

/-- The document of null is null. -/
lemma Captured.document?_of_isNull {registry : Registry} {c : Captured} {d : Document}
    (hnull : c.value.isNull = true) (h : c.document? registry = some d) : d = .null := by
  obtain ⟨value, t⟩ := c
  cases value <;> cases hnull
  rw [document?] at h
  cases hcodec : registry.find t with
  | error e =>
      rw [hcodec] at h
      cases h
  | ok codec =>
      rw [hcodec] at h
      cases h
      rfl

/-- The parameter of an entry has the value that is bound for the entry. -/
def ParameterEntry.Bound (registry : Registry) (cs : List Captured) (c : Context)
    (e : ParameterEntry) (p : String × Document) : Prop :=
  ∃ codec, registry.find e.scalarType = .ok codec ∧ e.bind codec cs c = .ok p

namespace Plan

variable {registry : Registry} {key : PlanKey} {number : Nat} {t : Translation} {plan : Plan}
  {cs : List Captured} {c : Context} {parameters : List (String × Document)}

/-- The parameters that a plan binds belong to the entries of its table one by one. -/
lemma forall₂_bound (hplan : compile registry key number t = .ok plan)
    (hbind : plan.bind cs c = .ok parameters) :
    List.Forall₂ (ParameterEntry.Bound registry cs c) t.query.parameters.entries parameters := by
  obtain ⟨entries, hentries, hplan⟩ := Computation.bind_eq_ok.1 hplan
  cases hplan
  refine (Computation.forall₂_of_mapM_mapM hentries hbind).imp fun e p h => ?_
  obtain ⟨entry, he, hp⟩ := h
  obtain ⟨codec, hcodec, he⟩ := Computation.bind_eq_ok.1 he
  cases he
  exact ⟨codec, hcodec, hp⟩

/-- A placeholder has a value exactly if it has an entry, which is the value bound for the entry. -/
lemma find?_bound (hplan : compile registry key number t = .ok plan)
    (hbind : plan.bind cs c = .ok parameters) (name : String) :
    Option.Rel (ParameterEntry.Bound registry cs c) (t.query.parameters.find? name)
      (parameters.find? fun p => p.1 == name) := by
  refine Computation.rel_find? (forall₂_bound hplan hbind) fun e p hp => ?_
  obtain ⟨codec, -, hp⟩ := hp
  obtain ⟨value, d, -, -, -, rfl⟩ := ParameterEntry.bind_eq_ok.1 hp
  rfl

/-- The placeholder of an entry has the document of the value that is supplied for the entry. -/
lemma parameter?_of_entry (hplan : compile registry key number t = .ok plan)
    (hbind : plan.bind cs c = .ok parameters) {name : String} {e : ParameterEntry}
    (he : t.query.parameters.find? name = some e) (collections : Collections) :
    ∃ value d, e.supply cs c = .ok value ∧
      Captured.document? registry ⟨value, e.scalarType⟩ = some d ∧
      Environment.parameter? ⟨collections, parameters⟩ name = some d := by
  have hfound := find?_bound hplan hbind name
  rw [he] at hfound
  rw [Environment.parameter?]
  generalize parameters.find? (fun p => p.1 == name) = p at hfound ⊢
  cases hfound with
  | some hbound =>
      obtain ⟨codec, hcodec, hentry⟩ := hbound
      obtain ⟨value, d, hvalue, -, hd, rfl⟩ := ParameterEntry.bind_eq_ok.1 hentry
      refine ⟨value, d, hvalue, ?_, rfl⟩
      simp only [Captured.document?, hcodec, hd]
      rfl

/-- A placeholder that has a value has an entry. -/
lemma exists_entry_of_parameter? (hplan : compile registry key number t = .ok plan)
    (hbind : plan.bind cs c = .ok parameters) {name : String} {collections : Collections}
    {d : Document} (h : Environment.parameter? ⟨collections, parameters⟩ name = some d) :
    ∃ e value, t.query.parameters.find? name = some e ∧ e.supply cs c = .ok value ∧
      Captured.document? registry ⟨value, e.scalarType⟩ = some d := by
  cases he : t.query.parameters.find? name with
  | none =>
      have hfound := find?_bound hplan hbind name
      obtain ⟨p, hp, -⟩ := Option.map_eq_some_iff.1 h
      rw [he, hp] at hfound
      cases hfound
  | some e =>
      obtain ⟨value, d', hvalue, hd', h'⟩ := parameter?_of_entry hplan hbind he collections
      cases h'.symm.trans h
      exact ⟨e, value, rfl, hvalue, hd'⟩

/-- **The values of a larger query extend those of a smaller one**, if its table does and its
constants begin with those of the smaller one. -/
theorem extends_bind {key' : PlanKey} {number' : Nat} {t' : Translation} {plan' : Plan}
    {more : List Captured} {parameters' : List (String × Document)}
    (htable : t'.query.parameters.Extends t.query.parameters)
    (hplan : compile registry key number t = .ok plan) (hbind : plan.bind cs c = .ok parameters)
    (hplan' : compile registry key' number' t' = .ok plan')
    (hbind' : plan'.bind (cs ++ more) c = .ok parameters') (collections : Collections) :
    Environment.Extends ⟨collections, parameters'⟩ ⟨collections, parameters⟩ where
  collections := rfl
  parameters name d hd := by
    obtain ⟨e, value, he, hvalue, hdocument⟩ := exists_entry_of_parameter? hplan hbind hd
    obtain ⟨rowCount, he'⟩ := htable name e he
    obtain ⟨value', d', hvalue', hdocument', hd'⟩ :=
      parameter?_of_entry hplan' hbind' he' collections
    cases hvalue'.symm.trans (ParameterEntry.supply_append hvalue)
    exact hd'.trans (hdocument'.symm.trans hdocument)

end Plan

/-! ## Rows of queries

What rows a query has is said for whichever codecs, constants and parameters it is bound with.  The
statements about operators are about this relation, and leave out how a statement is run. -/

/-- A query has some rows in a store: a plan of its translation binds its constants, and its
statement returns the rows.  The context supplies the values of named parameters. -/
structure Query.HasRows (tr : Translator) (c : Context) (q : Query) (t : Translation)
    (env : Environment) (rows : List Document) : Prop where
  translated : tr.translate q = .ok t
  bound : ∃ key number plan, Plan.compile tr.registry key number t = .ok plan ∧
    plan.bind q.constants c = .ok env.parameters
  run : t.query.statement.run env = .ok rows

/-- The rows of a query are those of the stage that it becomes. -/
lemma Query.HasRows.staged {tr : Translator} {c : Context} {q : Query} {t : Translation}
    {env : Environment} {rows : List Document} (h : q.HasRows tr c t env rows) :
    ∃ stage p, tr.stage q {} = .ok (stage, p) ∧ t.query = ⟨stage.statement, p.parameters⟩ ∧
      tr.rowShape stage.yield = .ok t.shape ∧ stage.statement.run env = .ok rows := by
  obtain ⟨stage, p, hstage, hquery, hshape⟩ := Translator.translate_eq_ok h.translated
  have hrun := h.run
  rw [hquery] at hrun
  exact ⟨stage, p, hstage, hquery, hshape, hrun⟩

/-- Where a plan binds the constants of a query with rows and further ones, the values that the
query has on its own are there. -/
lemma Query.HasRows.extends {tr : Translator} {c : Context} {q : Query} {t t' : Translation}
    {collections : Collections} {parameters parameters' : List (String × Document)}
    {rows : List Document} (h : q.HasRows tr c t ⟨collections, parameters⟩ rows)
    (htable : t'.query.parameters.Extends t.query.parameters) {cs more : List Captured}
    (hconstants : cs = q.constants ++ more)
    (hbound : ∃ key number plan, Plan.compile tr.registry key number t' = .ok plan ∧
      plan.bind cs c = .ok parameters') :
    Environment.Extends ⟨collections, parameters'⟩ ⟨collections, parameters⟩ := by
  obtain ⟨_, _, plan, hplan, hbind⟩ := h.bound
  obtain ⟨_, _, plan', hplan', hbind'⟩ := hbound
  rw [hconstants] at hbind'
  exact Plan.extends_bind htable hplan hbind hplan' hbind' collections

end EntityQuery
