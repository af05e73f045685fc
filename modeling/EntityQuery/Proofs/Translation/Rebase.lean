import EntityQuery.Evaluation.Statement
import EntityQuery.Proofs.Computation
import EntityQuery.Proofs.Document.SortedFields
import EntityQuery.Proofs.Translation.Agreement
import EntityQuery.Translation.Frame

/-!
# Rows that are read through an alias

When a statement becomes a source, its rows are documents under an alias, and what they hold is read
from their fields.  Reading gives the values of which the documents have been made: a field that was
missing is left out of the document, and is missing when it is read.  So nothing is lost as long as
the fields have different names.

* `Fields.pick`: the fields of some names.
* `Yield.Fits`: a document consists of the fields that a yield names.
* `Yield.project_rebase`: what is read through an alias makes the document again.
* `Yield.readAs_rebase`: what a yield holds is read through an alias.
* `Yield.agree_rebase`: a yield agrees with the one that is read through an alias.
-/

namespace EntityQuery

/-! ## Objects and their fields

An object keeps its fields sorted and each name once.  Putting them into a new object one by one
makes the same object, whatever the order and however often a name comes. -/

/-- The fields of some names, put into an object one after the other. -/
def Fields.pick (fields : Fields) : List String → Fields → Fields
  | [], picked => picked
  | name :: names, picked =>
    match Fields.get? name fields with
    | some d => pick fields names (Fields.put name d picked)
    | none => pick fields names picked

/-- A field is picked if its name is. -/
lemma Fields.get?_pick (name : String) (fields : Fields) (names : List String) (picked : Fields) :
    Fields.get? name (fields.pick names picked) =
      if name ∈ names then (Fields.get? name fields).or (Fields.get? name picked)
      else Fields.get? name picked := by
  induction names generalizing picked with
  | nil => rfl
  | cons first names ih =>
      rw [pick]
      cases hfirst : Fields.get? first fields with
      | none =>
          simp only [ih]
          by_cases hname : name = first
          · simp [hname, hfirst]
          · simp [hname]
      | some d =>
          simp only [ih, Fields.get?_put]
          by_cases hname : name = first
          · simp [hname, hfirst]
          · simp [hname, Ne.symm hname]

lemma Fields.isSorted_pick {picked : Fields} (h : picked.IsSorted) (fields : Fields)
    (names : List String) : (fields.pick names picked).IsSorted := by
  induction names generalizing picked with
  | nil => exact h
  | cons name names ih =>
      rw [pick]
      split
      · exact ih (Fields.isSorted_put h _ _)
      · exact ih h

/-- **All fields of an object are picked by names among which are theirs**, whichever names repeat.
-/
lemma Fields.pick_eq_self {fields : Fields} (h : fields.IsSorted) {names : List String}
    (hnames : ∀ name, name ∉ names → Fields.get? name fields = none) :
    fields.pick names [] = fields := by
  refine Fields.ext_of_isSorted (Fields.isSorted_pick List.Pairwise.nil fields names) h fun name => ?_
  rw [Fields.get?_pick]
  split_ifs with hname
  · exact Option.or_none
  · exact (hnames name hname).symm

section

variable {env : Environment} {scope : Scope} {items : List (Expression × String)}
  {picked fields : Fields}

/-- Items that have the values of the fields of an object pick these fields. -/
lemma projectItems_eq_pick
    (h : ∀ item ∈ items, item.1.eval env scope = .ok (Fields.get? item.2 fields)) :
    projectItems env scope items picked = .ok (fields.pick (items.map Prod.snd) picked) := by
  induction items generalizing picked with
  | nil => rfl
  | cons item items ih =>
      have hitem : item.1.eval env scope = .ok (Fields.get? item.2 fields) :=
        h item List.mem_cons_self
      have hrest := fun picked => @ih picked fun item hitem => h item (.tail _ hitem)
      rw [projectItems, hitem, List.map_cons, Fields.pick]
      cases Fields.get? item.2 fields with
      | none => exact hrest picked
      | some d => exact hrest _

lemma isSorted_projectItems (h : projectItems env scope items picked = .ok fields)
    (hsorted : picked.IsSorted) : fields.IsSorted := by
  induction items generalizing picked with
  | nil =>
      cases h
      exact hsorted
  | cons item items ih =>
      obtain ⟨d, -, h⟩ := Computation.bind_eq_ok.1 h
      cases d with
      | none => exact ih h hsorted
      | some d => exact ih h (Fields.isSorted_put hsorted _ _)

/-- A field that no item names is left alone. -/
lemma get?_projectItems_of_notMem (h : projectItems env scope items picked = .ok fields)
    {name : String} (hname : name ∉ items.map Prod.snd) :
    Fields.get? name fields = Fields.get? name picked := by
  induction items generalizing picked with
  | nil =>
      cases h
      rfl
  | cons item items ih =>
      rw [List.map_cons, List.mem_cons, not_or] at hname
      obtain ⟨d, -, h⟩ := Computation.bind_eq_ok.1 h
      cases d with
      | none => exact ih h hname.2
      | some d => rw [ih h hname.2, Fields.get?_put, if_neg (Ne.symm hname.1)]

/-- **The fields of an object have the values of the items of which it has been made.**  An item
without a value leaves its field out. -/
theorem get?_projectItems (h : projectItems env scope items picked = .ok fields)
    (hnames : (items.map Prod.snd).Nodup)
    (hfresh : ∀ item ∈ items, Fields.get? item.2 picked = none) :
    ∀ item ∈ items, item.1.eval env scope = .ok (Fields.get? item.2 fields) := by
  induction items generalizing picked with
  | nil =>
      intro item hitem
      cases hitem
  | cons first items ih =>
      rw [List.map_cons, List.nodup_cons] at hnames
      obtain ⟨d, hd, h⟩ := Computation.bind_eq_ok.1 h
      have hne : ∀ item ∈ items, first.2 ≠ item.2 := fun item hitem heq =>
        hnames.1 (heq ▸ List.mem_map_of_mem hitem)
      intro item hitem
      cases d with
      | none =>
          rcases List.mem_cons.1 hitem with rfl | hitem
          · rw [hd, get?_projectItems_of_notMem h hnames.1, hfresh _ List.mem_cons_self]
          · exact ih h hnames.2 (fun item hitem => hfresh item (.tail _ hitem)) item hitem
      | some d =>
          rcases List.mem_cons.1 hitem with rfl | hitem
          · rw [hd, get?_projectItems_of_notMem h hnames.1, Fields.get?_put, if_pos rfl]
          · refine ih h hnames.2 (fun item hitem => ?_) item hitem
            rw [Fields.get?_put, if_neg (hne item hitem)]
            exact hfresh item (.tail _ hitem)

end

/-! ## Reading through an alias

A row that holds records, entities or a bare value is turned into a document, and what it holds is
then read from the document.  Reading gives the values again: null is held as null, and what is
missing leaves its field out. -/

/-- The names of the fields of rows. -/
def Yield.names : Yield → List String
  | .record fields => fields.map Prod.fst
  | _ => []

/-- A document consists of the fields that a yield names. -/
def Yield.Fits : Yield → Document → Prop
  | .record fields, d =>
    ∃ values, d = .object values ∧ Fields.pick values (fields.map Prod.fst) [] = values
  | _, _ => True

/-- Yields that name the same fields fit the same documents. -/
lemma Yield.Fits.of_names {fields fields' : List (String × FieldYield)} {d : Document}
    (h : (Yield.record fields).Fits d) (hnames : fields.map Prod.fst = fields'.map Prod.fst) :
    (Yield.record fields').Fits d := by
  obtain ⟨values, hd, hvalues⟩ := h
  exact ⟨values, hd, by rwa [← hnames]⟩

section

variable {env : Environment} {scope : Scope} {y : Yield} {d : Document}

lemma eval_ident_single (aliasName : String) (d : Document) :
    (Expression.ident aliasName).eval env (.ofRow (.single aliasName d)) = .ok (some d) := by
  have hfind : (Row.single aliasName d).find? aliasName = some (some d) := by
    simp [Row.single, Row.bind, Row.find?]
  rw [Expression.eval, Scope.ofRow, hfind]

lemma eval_field_single (aliasName name : String) (d : Document) :
    (Expression.field (.ident aliasName) name).eval env (.ofRow (.single aliasName d)) =
      .ok (d.field? name) := by
  rw [Expression.eval, eval_ident_single]
  rfl

/-- The document of a record is an object whose fields have the values of the record. -/
lemma Yield.project_record {fields : List (String × FieldYield)}
    (h : (Yield.record fields).selection.project env scope = .ok (some d))
    (hnames : (fields.map Prod.fst).Nodup) :
    ∃ values, d = .object values ∧ ∀ f ∈ fields,
      f.2.expression.eval env scope = .ok (Fields.get? f.1 values) := by
  obtain ⟨values, hvalues, hd⟩ := Computation.map_eq_ok.1 h
  cases hd
  refine ⟨values, rfl, fun f hf => ?_⟩
  have hsnd : (fields.map fun f => (f.2.expression, f.1)).map Prod.snd = fields.map Prod.fst := by
    rw [List.map_map]
    rfl
  exact get?_projectItems hvalues (hsnd ▸ hnames) (fun _ _ => rfl) (f.2.expression, f.1)
    (List.mem_map_of_mem hf)

/-- What a yield makes of a row consists of the fields that it names. -/
theorem Yield.fits_of_project (h : y.selection.project env scope = .ok (some d)) : y.Fits d := by
  cases y with
  | entity b => trivial
  | scalar s => trivial
  | record fields =>
      obtain ⟨values, hvalues, hd⟩ := Computation.map_eq_ok.1 h
      cases hd
      refine ⟨values, rfl, Fields.pick_eq_self ?_ fun name hname => ?_⟩
      · exact isSorted_projectItems hvalues List.Pairwise.nil
      · have hsnd : (fields.map fun f => (f.2.expression, f.1)).map Prod.snd =
            fields.map Prod.fst := by
          rw [List.map_map]
          rfl
        exact get?_projectItems_of_notMem hvalues (hsnd ▸ hname)

/-- A field has the expression that it is given. -/
@[simp] lemma FieldYield.expression_withBase (f : FieldYield) (e : Expression) :
    (f.withBase e).expression = e := by
  cases f <;> rfl

/-- **What is read through an alias makes the document again.** -/
theorem Yield.project_rebase (h : y.Fits d) (aliasName : String) :
    (y.rebase aliasName).selection.project env (.ofRow (.single aliasName d)) = .ok (some d) := by
  cases y with
  | entity b => exact @eval_ident_single env aliasName d
  | scalar s => exact @eval_ident_single env aliasName d
  | record fields =>
      obtain ⟨values, rfl, hvalues⟩ := h
      have hitems : (fields.map fun f => (f.1, f.2.withBase (.field (.ident aliasName) f.1))).map
          (fun f => (f.2.expression, f.1)) =
            fields.map fun f => (.field (.ident aliasName) f.1, f.1) := by
        rw [List.map_map]
        refine List.map_congr_left fun f _ => ?_
        rw [Function.comp_apply, FieldYield.expression_withBase]
      have hpick : projectItems env (.ofRow (.single aliasName (.object values)))
          (fields.map fun f => (.field (.ident aliasName) f.1, f.1)) [] = .ok values := by
        have hmap : (fields.map fun f => (Expression.field (.ident aliasName) f.1, f.1)).map Prod.snd =
            fields.map Prod.fst := by
          rw [List.map_map]
          rfl
        rw [← hmap] at hvalues
        rw [← congrArg Except.ok hvalues]
        refine projectItems_eq_pick fun item hitem => ?_
        obtain ⟨f, -, rfl⟩ := List.mem_map.1 hitem
        exact eval_field_single aliasName f.1 _
      refine Computation.map_eq_ok.2 ⟨values, ?_, rfl⟩
      rw [hitems]
      exact hpick

/-- A field is related to one that holds a related expression. -/
lemma FieldYield.related_withBase {r : Expression → Expression → Prop} {e : Expression}
    (f : FieldYield) (h : r f.expression e) : f.Related r (f.withBase e) := by
  cases f with
  | scalar s => exact .scalar h
  | entity b => exact .entity ⟨rfl, rfl, h⟩

/-- The value of an expression on a row is that of another one on the document that a yield makes of
the row, under an alias. -/
def Yield.ReadAs (env : Environment) (y : Yield) (aliasName : String) (e e' : Expression) : Prop :=
  ∀ s d, y.selection.project env s = .ok (some d) →
    ∃ v, e.eval env s = .ok v ∧ e'.eval env (.ofRow (.single aliasName d)) = .ok v

/-- **What a yield holds is read through an alias**, on rows of which it makes a document. -/
theorem Yield.readAs_rebase (hnames : y.names.Nodup) (aliasName : String) :
    y.Related (y.ReadAs env aliasName) (y.rebase aliasName) := by
  have hraw : ∀ e : Expression, (∀ s d, y.selection.project env s = .ok (some d) →
      e.eval env s = .ok (some d)) → y.ReadAs env aliasName e (.ident aliasName) :=
    fun e he s d hd => ⟨some d, he s d hd, eval_ident_single aliasName d⟩
  cases y with
  | entity b => exact .entity ⟨rfl, rfl, hraw _ fun _ _ h => h⟩
  | scalar s => exact .scalar (hraw _ fun _ _ h => h)
  | record fields =>
      refine .record (List.forall₂_map_right_iff.2 (List.forall₂_same.2 fun f hf => ⟨rfl, ?_⟩))
      refine f.2.related_withBase fun s d hd => ?_
      obtain ⟨values, rfl, hvalues⟩ := Yield.project_record hd hnames
      exact ⟨_, hvalues f hf, eval_field_single aliasName f.1 _⟩

/-- A row and the document that a yield makes of it, under an alias. -/
def Yield.Reads (env : Environment) (y : Yield) (aliasName : String) (s s' : Scope) : Prop :=
  ∃ d, y.selection.project env s = .ok (some d) ∧ s' = .ofRow (.single aliasName d)

/-- A yield agrees with the one that is read through an alias. -/
lemma Yield.agree_rebase (hnames : y.names.Nodup) (aliasName : String) :
    y.Agree env (y.Reads env aliasName) (y.rebase aliasName) := by
  have hread : y.Related (y.ReadAs env aliasName) (y.rebase aliasName) :=
    Yield.readAs_rebase hnames aliasName
  refine hread.imp fun e e' he => ?_
  rintro s s' ⟨d, hd, rfl⟩
  obtain ⟨v, hv, hv'⟩ := he s d hd
  rw [hv, hv']

/-- A document under two aliases. -/
def Renamed (aliasName aliasName' : String) (s s' : Scope) : Prop :=
  ∃ d, s = .ofRow (.single aliasName d) ∧ s' = .ofRow (.single aliasName' d)

/-- It does not matter under which alias a yield is read. -/
lemma Yield.rebase_agree (y : Yield) (aliasName aliasName' : String) :
    (y.rebase aliasName).Agree env (Renamed aliasName aliasName') (y.rebase aliasName') := by
  have hraw : (Expression.ident aliasName).Agree env (Renamed aliasName aliasName')
      (.ident aliasName') := by
    rintro s s' ⟨d, rfl, rfl⟩
    rw [eval_ident_single, eval_ident_single]
  cases y with
  | entity b => exact .entity ⟨rfl, rfl, hraw⟩
  | scalar s => exact .scalar hraw
  | record fields =>
      refine .record ?_
      rw [List.forall₂_map_left_iff, List.forall₂_map_right_iff, List.forall₂_same]
      intro f hf
      refine ⟨rfl, ?_⟩
      cases f.2 with
      | scalar s => exact .scalar (hraw.field f.1)
      | entity b => exact .entity ⟨rfl, rfl, hraw.field f.1⟩

@[simp] lemma Yield.names_rebase (y : Yield) (aliasName : String) :
    (y.rebase aliasName).names = y.names := by
  cases y with
  | entity b => rfl
  | scalar s => rfl
  | record fields =>
      rw [rebase, names, names, List.map_map]
      rfl

/-- Only the last alias through which a yield is read matters. -/
@[simp] lemma Yield.rebase_rebase (y : Yield) (aliasName aliasName' : String) :
    (y.rebase aliasName).rebase aliasName' = y.rebase aliasName' := by
  cases y with
  | entity b => rfl
  | scalar s => rfl
  | record fields =>
      rw [rebase, rebase, rebase, List.map_map]
      congr 1
      refine List.map_congr_left fun f _ => ?_
      obtain ⟨name, s | b⟩ := f <;> rfl

end
end EntityQuery
