import EntityQuery.Proofs.Query.Reading
import EntityQuery.Proofs.Query.Relabeling

/-!
# Exactness of encodings

An encoding holds all of a query but three things: of a constant it has the type and whether it is
null, of a type it has the name, and of a property it has the path but not the written name.
`Query.erase` forgets just these.

* `Reader.query_erase`: what is erased can be read back from the encoding of the query.
* `encoding_exact`: so queries have one encoding exactly if they are the same when erased.
-/

namespace EntityQuery

/-- A query without what its encoding leaves out. -/
def Query.erase (q : Query) : Query := q.relabel .erase

/-- The type that stands for all types of a name. -/
def ScalarType.named (name : String) : Option ScalarType := some (.custom name)

namespace Query

lemma form_erase (q : Query) : q.erase.form = q.erase := by
  rw [form_eq_relabel, erase, relabel_relabel, Relabeling.form_comp_erase]

/-- Nothing of a query that is written into its encoding is erased. -/
lemma encoding_erase (q : Query) : q.erase.encoding = q.encoding :=
  q.encoding_relabel Relabeling.keepsNames_erase

/-- Each type of an erased query is told by its name. -/
lemma typesOf_erase (q : Query) : TypesOf ScalarType.named q.erase.types := by
  intro t ht
  rw [erase, types_relabel] at ht
  obtain ⟨u, -, rfl⟩ := List.mem_map.1 ht
  rfl

end Query

/-- What is erased can be read back from the encoding of a query. -/
theorem Reader.query_erase {q : Query} (hfit : FitWords q.lengths) :
    Reader.query ScalarType.named q.encoding = some q.erase := by
  have hlengths : q.erase.lengths = q.lengths := q.lengths_relabel Relabeling.keepsNames_erase
  have hread := Reader.query_encoding (hlengths ▸ hfit) q.typesOf_erase
  rwa [q.encoding_erase, q.form_erase] at hread

/-- **Exactness of encodings.**  Queries have one encoding exactly if they are the same but for the
values of constants, types of one name, and the written names of properties. -/
theorem encoding_exact {q q' : Query} (hfit : FitWords q.lengths) (hfit' : FitWords q'.lengths) :
    q.encoding = q'.encoding ↔ q.erase = q'.erase := by
  constructor
  · intro h
    have hread := Reader.query_erase hfit
    rw [h, Reader.query_erase hfit'] at hread
    exact (Option.some.inj hread).symm
  · intro h
    rw [← q.encoding_erase, h, q'.encoding_erase]

namespace Sample

/-- The persons whose age compares with a bound. -/
def agesThat (op : Operator) (bound : Value) : Query :=
  .filter (.source "Person" "p")
    (.binary op (.property ⟨"p", "Person", "age", ["age"], .int64, true⟩) (.constant bound .int64))

end Sample

/-- The bound of a comparison is left out of the encoding; the operator is not. -/
theorem encoding_exact_ages :
    (Sample.agesThat .gt (.int64 17)).encoding = (Sample.agesThat .gt (.int64 64)).encoding ∧
      (Sample.agesThat .gt (.int64 17)).encoding ≠ (Sample.agesThat .lt (.int64 17)).encoding ∧
      (Sample.agesThat .gt (.int64 17)).encoding ≠ (Sample.agesThat .gt .null).encoding := by
  have hfit : ∀ op bound, FitWords (Sample.agesThat op bound).lengths := by
    intro op bound
    have hlengths : (Sample.agesThat op bound).lengths = [6, 1, 1, 6, 1, 3, 5, 5] := rfl
    rw [hlengths]
    decide
  refine ⟨(encoding_exact (hfit _ _) (hfit _ _)).2 rfl, fun h => ?_, fun h => ?_⟩
  · cases (encoding_exact (hfit _ _) (hfit _ _)).1 h
  · cases (encoding_exact (hfit _ _) (hfit _ _)).1 h

end EntityQuery
