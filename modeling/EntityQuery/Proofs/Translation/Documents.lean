import EntityQuery.Proofs.Evaluation.Selection
import EntityQuery.Proofs.Translation.Lowering
import EntityQuery.Proofs.Translation.Rebase

/-!
# Documents of stages

The type of the elements of a query says which fields its rows have, and the documents that the
statement of the query returns consist of these fields.  This holds of set operations as well, whose
documents come from two statements, since their operands have compatible types.

* `Yield.Describes`: a yield makes elements of a type.
* `Translator.Lowered.describes`: a stage yields elements of the type of its query.
* `Translator.Lowered.fits`: the documents of a stage consist of the fields that it names.
-/

namespace EntityQuery

/-! ## Types of elements

A type of elements and a yield are compared by kinds and names alone.  This is enough to say which
fields the documents have, and it survives set operations. -/

/-- A yield makes elements of a type: of the same kind, of an entity under the same alias, or with
fields of the same names. -/
def Yield.Describes : Yield → ElementType → Prop
  | .entity b, .entity _ aliasName => b.aliasName = aliasName
  | .scalar _, .scalar _ _ => True
  | .record fields, .record types => fields.map Prod.fst = types.map Prod.fst
  | _, _ => False

namespace Yield

variable {y y' : Yield} {t t' : ElementType}

lemma Describes.rebase (h : y.Describes t) (aliasName : String) :
    (y.rebase aliasName).Describes t := by
  cases y with
  | entity b => cases t <;> exact h
  | scalar s => cases t <;> exact h
  | record fields =>
      cases t with
      | record types =>
          change (fields.map _).map Prod.fst = _
          rw [List.map_map]
          exact h
      | _ => exact h

/-- The fields that a join adds to have the names of those of the type. -/
lemma Describes.scopeFields (h : y.Describes t) {fields : List (String × FieldYield)}
    (hfields : y.scopeFields? = some fields) :
    fields.map Prod.fst = t.scopeFields.map Prod.fst := by
  cases y with
  | scalar s => cases hfields
  | entity b =>
      cases hfields
      cases t with
      | entity name aliasName => exact congrArg (fun a => [a]) h
      | _ => exact h.elim
  | record fields₀ =>
      cases hfields
      cases t with
      | record types => exact h
      | _ => exact h.elim

/-- A further field has the name of what it binds. -/
lemma Describes.extend (h : y.Describes t) {fields : List (String × FieldYield)}
    (hfields : y.scopeFields? = some fields) (b : Binding) (u : ElementType) :
    (Yield.record (fields ++ [(b.aliasName, .entity b)])).Describes
      (.record (t.scopeFields ++ [(b.aliasName, u)])) := by
  change (fields ++ [_]).map Prod.fst = (t.scopeFields ++ [_]).map Prod.fst
  rw [List.map_append, List.map_append, h.scopeFields hfields]
  rfl

/-- An entity is described by its type under its alias. -/
lemma Describes.exists_entity {b : Binding} (h : (Yield.entity b).Describes t) :
    ∃ name, t = .entity name b.aliasName := by
  cases t with
  | entity name aliasName =>
      have halias : b.aliasName = aliasName := h
      exact ⟨name, by rw [halias]⟩
  | _ => exact h.elim

end Yield

namespace ElementType

lemma names_of_areCompatible {as bs : List (String × ElementType)}
    (h : areCompatible as bs = true) : as.map Prod.fst = bs.map Prod.fst := by
  induction as generalizing bs with
  | nil =>
      cases bs with
      | nil => rfl
      | cons b bs => simp [areCompatible] at h
  | cons a as ih =>
      cases bs with
      | nil => simp [areCompatible] at h
      | cons b bs =>
          obtain ⟨name, t⟩ := a
          obtain ⟨name', t'⟩ := b
          simp only [areCompatible, isCompatibleField, Bool.and_eq_true, beq_iff_eq] at h
          rw [List.map_cons, List.map_cons, h.1.1, ih h.2]

end ElementType

/-- Yields of compatible types name the same fields, and fit the same documents. -/
lemma Yield.Describes.compatible {y y' : Yield} {t t' : ElementType} (h : y.Describes t)
    (h' : y'.Describes t') (hcompatible : t.isCompatible t' = true) :
    y'.names = y.names ∧ ∀ d, y'.Fits d → y.Fits d := by
  cases t with
  | entity a aliasName =>
      cases t' with
      | entity b aliasName' => cases y <;> cases y' <;> simp_all [Describes, Yield.names, Fits]
      | _ => simp [ElementType.isCompatible] at hcompatible
  | scalar a nullable =>
      cases t' with
      | scalar b nullable' => cases y <;> cases y' <;> simp_all [Describes, Yield.names, Fits]
      | _ => simp [ElementType.isCompatible] at hcompatible
  | record as =>
      cases t' with
      | record bs =>
          rw [ElementType.isCompatible] at hcompatible
          have hnames := ElementType.names_of_areCompatible hcompatible
          cases y with
          | record fields =>
              cases y' with
              | record fields' =>
                  have heq : fields'.map Prod.fst = fields.map Prod.fst :=
                    (h'.trans hnames.symm).trans h.symm
                  exact ⟨heq, fun d hd => hd.of_names heq⟩
              | _ => exact h'.elim
          | _ => exact h.elim
      | _ => simp [ElementType.isCompatible] at hcompatible

/-! ## Types of stages

The induction follows the rules, and each operator changes the type and the yield in the same way.
-/

/-- A frame that is entered yields what the stage does. -/
lemma Stage.Enters.describes {closed : Frame → Bool} {s : Stage} {f : Frame} {t : ElementType}
    (henter : s.Enters closed f) (h : s.yield.Describes t) : f.yield.Describes t := by
  cases henter with
  | kept => exact h
  | nested => exact h.rebase _
  | compound => exact h.rebase _

/-- An alias is bound to an entity under this alias. -/
lemma Frame.aliasName_bound (f : Frame) (aliasName : String) :
    (f.bound aliasName).aliasName = aliasName := by
  rw [Frame.bound, Frame.binding?]
  cases hb : f.scope.find? fun b => b.aliasName == aliasName with
  | none => rfl
  | some b => simpa using List.find?_some hb

namespace Translator

variable {tr : Translator} {frame : Frame}

lemma names_projectedFields (n : Nat) (fields : List (String × Projected)) :
    (tr.projectedFields frame n fields).map Prod.fst = fields.map Prod.fst := by
  induction fields generalizing n with
  | nil => rfl
  | cons field fields ih =>
      obtain ⟨name, f | ⟨entity, aliasName⟩⟩ := field
      · rw [projectedFields, List.map_cons, List.map_cons, ih]
      · rw [projectedFields, List.map_cons, List.map_cons, ih]

lemma names_groupKeys (n : Nat) (keys : List (String × Formula)) :
    (tr.groupKeys frame n keys).map Prod.fst = keys.map Prod.fst := by
  induction keys generalizing n with
  | nil => rfl
  | cons key keys ih =>
      obtain ⟨name, f⟩ := key
      rw [groupKeys, List.map_cons, List.map_cons, ih]

lemma names_groupSummaries (n : Nat) (summaries : List (String × Summary)) :
    (tr.groupSummaries frame n summaries).map Prod.fst = summaries.map Prod.fst := by
  induction summaries generalizing n with
  | nil => rfl
  | cons summary summaries ih =>
      obtain ⟨name, s⟩ := summary
      rw [groupSummaries, List.map_cons, List.map_cons, ih]

/-- A projection yields elements of its type. -/
lemma describes_projectedYield (n : Nat) (p : Projection) :
    (tr.projectedYield frame n p).Describes p.element := by
  cases p with
  | scalar f => trivial
  | entity entity aliasName => exact frame.aliasName_bound aliasName
  | record fields =>
      change (tr.projectedFields frame n fields).map Prod.fst = (fields.map _).map Prod.fst
      rw [names_projectedFields, List.map_map]
      rfl

/-- **A stage yields elements of the type of its query.** -/
theorem Lowered.describes {n m : Nat} {q : Query} {s : Stage} (h : Lowered tr n q s m) :
    s.yield.Describes q.element := by
  induction h with
  | source => exact rfl
  | filter _ henter ih => exact henter.describes ih
  | project => exact describes_projectedYield _ _
  | orderBy _ henter ih => exact henter.describes ih
  | thenBy _ _ _ ih => exact ih
  | @groupBy n m m₁ input s frame keys summaries =>
      change ((tr.groupKeys frame m keys ++ tr.groupSummaries frame m₁ summaries).map _).map
        Prod.fst = (keys.map _ ++ summaries.map _).map Prod.fst
      have hfst : ∀ fields : List (String × YieldedScalar),
          (fields.map fun s => (s.1, FieldYield.scalar s.2)).map Prod.fst = fields.map Prod.fst := by
        intro fields
        rw [List.map_map]
        rfl
      rw [hfst, List.map_append, List.map_append, names_groupKeys, names_groupSummaries,
        List.map_map, List.map_map]
      rfl
  | @join n n₁ n₂ kind matching left right ls rs frame fields b b' leftKey rightKey _ _ _ henter
      hfields hyield _ hb ihl ihr =>
      have hname : b'.aliasName = b.aliasName := hb ▸ rfl
      rw [hyield] at ihr
      cases hr : right.element with
      | entity name aliasName =>
          rw [hr] at ihr
          have hjoined : Query.joinedField right.element = (b'.aliasName, .entity name aliasName) := by
            rw [hr, hname, show b.aliasName = aliasName from ihr]
            rfl
          rw [Query.element, hjoined]
          exact (henter.describes ihl).extend hfields b' _
      | scalar _ _ | record _ =>
          rw [hr] at ihr
          exact ihr.elim
  | @correlate n m input s frame fields source term c _ henter hfields _ _ _ ih =>
      exact (henter.describes ih).extend hfields ⟨c.aliasName, c.target, .ident c.aliasName,
        c.optional⟩ _
  | skip _ henter ih => exact henter.describes ih
  | take _ henter ih => exact henter.describes ih
  | distinct _ henter ih => exact henter.describes ih
  | combine _ _ _ ihl _ => exact ihl
  | @conclude n m m' input s frame frame' t arg scalar _ _ hterminal =>
      cases hterminal with
      | summary hfunction => cases t <;> cases hfunction <;> trivial
      | count | any | all => trivial

end Translator

/-! ## Documents

A document is made of a row by the items of the selection.  Its fields are those of the items, as
far as they have values. -/

/-- What is left of documents without repetitions is among them. -/
lemma mem_of_mem_dedupe {ds : List Document} {d : Document} (h : d ∈ dedupe ds) : d ∈ ds := by
  have hfrom : ∀ (ds : List Document) (seen : List String), d ∈ dedupeFrom seen ds → d ∈ ds := by
    intro ds
    induction ds with
    | nil =>
        intro seen h
        exact h
    | cons a ds ih =>
        intro seen h
        rw [dedupeFrom] at h
        split at h
        · exact .tail _ (ih _ h)
        · rcases List.mem_cons.1 h with rfl | h
          · exact List.mem_cons_self
          · exact .tail _ (ih _ h)
  exact hfrom ds [] h

/-- A set operation returns documents of its operands. -/
lemma SetOperation.mem_of_mem_combine {op : SetOperation} {left right : List Document}
    {d : Document} (h : d ∈ op.combine left right) : d ∈ left ∨ d ∈ right := by
  cases op with
  | unionAll => exact List.mem_append.1 h
  | union => exact List.mem_append.1 (mem_of_mem_dedupe h)
  | intersect => exact .inl (mem_of_mem_dedupe (List.mem_of_mem_filter h))
  | except => exact .inl (mem_of_mem_dedupe (List.mem_of_mem_filter h))

/-- A part of the rows consists of rows. -/
lemma Clauses.mem_of_page {env : Environment} {c : Clauses} {rows page : List Document}
    (h : c.page env rows = .ok page) : ∀ d ∈ page, d ∈ rows := by
  intro d hd
  rw [page_eq] at h
  obtain ⟨offset, -, h⟩ := Computation.bind_eq_ok.1 h
  rw [limited] at h
  cases hlimit : c.limit with
  | none =>
      rw [hlimit] at h
      cases h
      exact List.mem_of_mem_drop hd
  | some e =>
      rw [hlimit] at h
      obtain ⟨limit, -, h⟩ := Computation.bind_eq_ok.1 h
      cases h
      exact List.mem_of_mem_drop (List.mem_of_mem_take hd)

/-- Each document of a selection has been made of a row or group. -/
lemma Clauses.project_of_mem_run {env : Environment} {c : Clauses} {rows : List Row}
    {documents : List Document} (h : c.run env rows = .ok documents) :
    ∀ d ∈ documents, ∃ scope, c.selection.project env scope = .ok (some d) := by
  obtain ⟨kept, -, h⟩ := Computation.bind_eq_ok.1 h
  obtain ⟨scopes, -, h⟩ := Computation.bind_eq_ok.1 h
  obtain ⟨sorted, -, h⟩ := Computation.bind_eq_ok.1 h
  obtain ⟨projected, hprojected, h⟩ := Computation.bind_eq_ok.1 h
  intro d hd
  have hmem : d ∈ projected.filterMap id := by
    have := mem_of_page h d hd
    split at this
    · exact mem_of_mem_dedupe this
    · exact this
  obtain ⟨o, ho, hod⟩ := List.mem_filterMap.1 hmem
  cases hod
  obtain ⟨scope, -, hscope⟩ := Computation.exists_of_mem_mapM hprojected _ ho
  exact ⟨scope, hscope⟩

/-- The documents of a frame consist of the fields that it names. -/
lemma Frame.fits_finish {env : Environment} {f : Frame} {documents : List Document}
    (h : f.finish.run env = .ok documents) : ∀ d ∈ documents, f.yield.Fits d := by
  obtain ⟨sources, -, h⟩ := Computation.bind_eq_ok.1 h
  obtain ⟨rows, -, h⟩ := Computation.bind_eq_ok.1 h
  intro d hd
  obtain ⟨scope, hscope⟩ := Clauses.project_of_mem_run h d hd
  exact Yield.fits_of_project hscope

/-- **The documents of a stage consist of the fields that it names.** -/
theorem Translator.Lowered.fits {tr : Translator} {env : Environment} {n m : Nat} {q : Query}
    {s : Stage} (h : Lowered tr n q s m) {documents : List Document}
    (hrun : s.statement.run env = .ok documents) : ∀ d ∈ documents, s.yield.Fits d := by
  induction h generalizing documents with
  | @combine n n₁ n₂ op left right ls rs hcompatible hleft hright ihl ihr =>
      obtain ⟨l, hl, hrun⟩ := Computation.bind_eq_ok.1 hrun
      obtain ⟨r, hr, hrun⟩ := Computation.bind_eq_ok.1 hrun
      cases hrun
      obtain ⟨-, hfits⟩ := hleft.describes.compatible hright.describes hcompatible
      intro d hd
      rcases SetOperation.mem_of_mem_combine hd with hd | hd
      · exact ihl hl d hd
      · exact hfits d (ihr hr d hd)
  | _ => exact Frame.fits_finish hrun

end EntityQuery
