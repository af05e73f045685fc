import EntityQuery.Proofs.Translation.Joining

/-!
# Names of fields

The documents of rows have one field for each name, so what a row holds is read back from its
document if the names of its fields are different.  Projections and groupings check the names that
they give.  A join or a correlated navigation adds a field to those that are there, under an alias
that no source has; but a field that a projection has named may have that name too.

* `Query.Part`: a query, its operands, and theirs.
* `Query.AddsNewNames`: joins and navigations in a query add fields under new names.
* `Yield.Lossless`: fields have different names, and are read back from documents.
* `field_names_distinct`: all that is translated on the way is lossless if and only if new names are
  added.
* `field_names_repeated`: the alias of a join that is also the name of a field.
-/

namespace EntityQuery

/-! ## Parts of queries

Operators take one query or two as their operands.  An induction on operands has one case, as most
operators hand on what their operands have. -/

/-- The names of the fields of elements. -/
def ElementType.names : ElementType → List String
  | .record fields => fields.map Prod.fst
  | _ => []

namespace Query

/-- The queries whose elements an operator takes. -/
def operands : Query → List Query
  | .source .. => []
  | .filter input _ | .project input _ | .orderBy input _ _ | .thenBy input _ _
  | .groupBy input _ _ | .correlate input _ | .skip input _ | .take input _ | .distinct input
  | .conclude input _ _ => [input]
  | .join _ left right _ _ | .combine _ left right => [left, right]

/-- What holds of a query if it holds of its operands holds of every query. -/
theorem induction_operands {P : Query → Prop} (h : ∀ q, (∀ i ∈ q.operands, P i) → P q)
    (q : Query) : P q := by
  induction q <;> refine h _ ?_ <;> simp_all [operands]

/-- A query is part of another one: it is the other one, or part of an operand. -/
inductive Part (part : Query) : Query → Prop
  | self : Part part part
  | operand {q input : Query} (hinput : input ∈ q.operands) (h : Part part input) : Part part q

/-- The operands of a part are parts. -/
lemma Part.trans_operand {part q input : Query} (h : part.Part q)
    (hinput : input ∈ part.operands) : input.Part q := by
  induction h with
  | self => exact .operand hinput .self
  | operand hmem _ ih => exact .operand hmem ih

/-- Whether an operator adds a field, if it adds one, under a name that no field has. -/
def AddsNewName : Query → Prop
  | .join _ left right _ _ => (joinedField right.element).1 ∉ left.element.names
  | .correlate input c => c.aliasName ∉ input.element.names
  | _ => True

/-- **Whether each join and each navigation in a query adds a field under a new name.** -/
def AddsNewNames (q : Query) : Prop := ∀ part : Query, part.Part q → part.AddsNewName

lemma addsNewNames_iff_operands {q : Query} :
    q.AddsNewNames ↔ q.AddsNewName ∧ ∀ input ∈ q.operands, input.AddsNewNames := by
  constructor
  · exact fun h => ⟨h q .self, fun input hinput part hpart => h part (.operand hinput hpart)⟩
  · rintro ⟨hself, hinputs⟩ part (_ | ⟨hinput, hpart⟩)
    · exact hself
    · exact hinputs _ hinput part hpart

end Query

/-! ## Names that are checked

Only projections and groupings check the names that they give.  A join checks that its alias is new,
which says nothing of names of fields. -/

lemma firstRepeated_eq_none {seen names : List String} :
    firstRepeated seen names = none ↔ names.Nodup ∧ ∀ name ∈ names, name ∉ seen := by
  induction names generalizing seen with
  | nil => simp [firstRepeated]
  | cons name names ih =>
      rw [firstRepeated]
      by_cases hseen : name ∈ seen
      · simp [hseen]
      · rw [if_neg (by simpa using hseen), ih, List.nodup_cons]
        constructor
        · rintro ⟨hnodup, hnew⟩
          refine ⟨⟨fun hname => hnew name hname List.mem_cons_self, hnodup⟩, ?_⟩
          intro other hother
          rcases List.mem_cons.1 hother with rfl | hother
          · exact hseen
          · exact fun hmem => hnew other hother (.tail _ hmem)
        · rintro ⟨⟨hname, hnodup⟩, hnew⟩
          refine ⟨hnodup, fun other hother hmem => ?_⟩
          rcases List.mem_cons.1 hmem with rfl | hmem
          · exact hname hother
          · exact hnew other (.tail _ hother) hmem

/-- Names that pass the check are different. -/
lemma nodup_of_checkNames {construct : String} {names : List String} {p : Progress}
    {r : Unit × Progress} (h : checkNames construct names p = .ok r) : names.Nodup :=
  (firstRepeated_eq_none.1 (checkNames_eq_ok h).1).1

/-- An alias that a frame does not take is not that of the entity that the frame yields. -/
lemma Frame.ne_of_takes {f : Frame} (htidy : f.Tidy) {entity aliasName name : String}
    (hfresh : f.takes name = false) (hyield : f.yield.Describes (.entity entity aliasName)) :
    aliasName ≠ name := by
  rintro rfl
  cases hy : f.yield with
  | entity b =>
      rw [hy] at hyield
      have halias : b.aliasName = aliasName := hyield
      have hscope : f.scope = [b] := by rw [htidy.scope, hy, Yield.bindings]
      simp [Frame.takes, Frame.binding?, hscope, halias] at hfresh
  | _ =>
      rw [hy] at hyield
      exact hyield.elim

/-- A field under an alias that is not in use keeps names different if no field has its name. -/
lemma Frame.nodup_names_extend {f : Frame} (htidy : f.Tidy) {t : ElementType}
    (hyield : f.yield.Describes t) {name : String} (hfresh : f.takes name = false)
    (hnames : t.names.Nodup) (u : ElementType) :
    (ElementType.record (t.scopeFields ++ [(name, u)])).names.Nodup ↔ name ∉ t.names := by
  rw [ElementType.names, List.map_append, List.perm_append_comm.nodup_iff]
  cases t with
  | scalar => simp [ElementType.scopeFields, ElementType.names]
  | entity entity aliasName =>
      have hne : aliasName ≠ name := Frame.ne_of_takes htidy hfresh hyield
      simp [ElementType.scopeFields, ElementType.names, hne.symm]
  | record fields => exact List.nodup_cons.trans (and_iff_left hnames)

/-! ## Names on the way

The names in a yield are those in the type of the elements.  So it can be decided by the query
whether they repeat. -/

/-- A yield has the names of the type that it makes. -/
lemma Yield.Describes.names {y : Yield} {t : ElementType} (h : y.Describes t) :
    y.names = t.names := by
  cases y <;> cases t <;> first | rfl | exact h | exact h.elim

namespace Translator

open Translating

variable {tr : Translator} {q input : Query} {s : Stage} {p p' : Progress}

/-- The operands of a query that is translated are translated. -/
lemma stage_operand (h : tr.stage q p = .ok (s, p')) (hinput : input ∈ q.operands) :
    ∃ p₁ s₁ p₂, tr.stage input p₁ = .ok (s₁, p₂) := by
  cases translates_of_stage h with
  | source => cases hinput
  | operator hs _ _ hadds =>
      cases hadds <;> cases List.mem_singleton.1 hinput <;> exact ⟨_, _, _, hs⟩
  | join _ hl _ hr | combine _ hl _ hr =>
      rcases List.mem_pair.1 hinput with rfl | rfl
      · exact ⟨_, _, _, hl⟩
      · exact ⟨_, _, _, hr⟩

/-- So is each part of it. -/
lemma stage_part {part : Query} (hpart : part.Part q) (h : tr.stage q p = .ok (s, p')) :
    ∃ p₁ s₁ p₂, tr.stage part p₁ = .ok (s₁, p₂) := by
  induction hpart generalizing p s p' with
  | self => exact ⟨p, s, p', h⟩
  | operand hinput _ ih =>
      obtain ⟨_, _, _, hs⟩ := stage_operand h hinput
      exact ih hs

/-- What is reached from a query has the names of its type. -/
lemma names_of_stage (h : tr.stage q p = .ok (s, p')) : s.yield.names = q.element.names :=
  (stage_eq_ok h).1.describes.names

/-- **An operator keeps names different if and only if it adds none that is there**: one that names
all fields has checked them. -/
theorem nodup_names_iff (h : tr.stage q p = .ok (s, p'))
    (hinputs : ∀ i ∈ q.operands, i.element.names.Nodup) :
    q.element.names.Nodup ↔ q.AddsNewName := by
  cases q with
  | source => exact iff_of_true List.nodup_nil trivial
  | filter input | orderBy input | thenBy input | skip input | take input | distinct input =>
      exact iff_of_true (hinputs input List.mem_cons_self) trivial
  | combine op left right => exact iff_of_true (hinputs left List.mem_cons_self) trivial
  | conclude input terminal arg =>
      refine iff_of_true ?_ trivial
      cases terminal <;> exact List.nodup_nil
  | project input projection =>
      refine iff_of_true ?_ trivial
      cases projection with
      | scalar | entity => exact List.nodup_nil
      | record fields =>
          obtain ⟨_, _, -, h⟩ := bind_eq_ok.1 h
          obtain ⟨frame, _, -, h⟩ := bind_eq_ok.1 h
          obtain ⟨_, _, hyield, -⟩ := bind_eq_ok.1 h
          obtain ⟨-, hyield⟩ := refuse_bind_eq_ok.1 hyield
          obtain ⟨_, _, hchecked, -⟩ := bind_eq_ok.1 hyield
          have hnames : (Query.project input (.record fields)).element.names =
              fields.map Prod.fst := by
            simp [Query.element, Projection.element, ElementType.names]
          rw [hnames]
          exact nodup_of_checkNames hchecked
  | groupBy input keys summaries =>
      refine iff_of_true ?_ trivial
      rw [← names_of_stage h]
      cases translates_of_stage h with
      | operator _ _ _ hadds =>
          cases hadds with
          | groupBy _ _ hnames =>
              simpa [Stage.yield, Frame.grouped, Yield.names, Function.comp_def] using
                (firstRepeated_eq_none.1 hnames).1
  | join kind left right leftKey rightKey =>
      obtain ⟨_, ls, _, rs, _, frame, _, _, b, _, _, _, -, hl, hr, henter, -, hyield, hfresh, -⟩ :=
        join_eq_ok h
      have hleft := (stage_eq_ok hl).1
      have hright := (stage_eq_ok hr).1.describes
      have henters := (Stage.enter_eq_ok henter).1
      rw [hyield] at hright
      obtain ⟨entity, hentity⟩ := hright.exists_entity
      rw [Query.element, Query.AddsNewName, hentity]
      exact Frame.nodup_names_extend (hleft.tidy.enter henters)
        (henters.describes hleft.describes) hfresh (hinputs left List.mem_cons_self) _
  | correlate input c =>
      obtain ⟨hlowered, -⟩ := stage_eq_ok h
      cases hlowered with
      | correlate hinput henter _ _ hfresh _ =>
          exact Frame.nodup_names_extend (hinput.tidy.enter henter)
            (henter.describes hinput.describes) hfresh (hinputs input List.mem_cons_self) _

/-- **The parts of a query have fields of different names if and only if new names are added.** -/
theorem addsNewNames_iff (h : tr.stage q p = .ok (s, p')) :
    q.AddsNewNames ↔ ∀ part : Query, part.Part q → part.element.names.Nodup := by
  constructor
  · intro hnew part
    -- a part is translated on its own, and its operands are parts as well
    induction part using Query.induction_operands with
    | h part ih =>
        intro hpart
        obtain ⟨_, _, _, hs⟩ := stage_part hpart h
        exact (nodup_names_iff hs fun i hi => ih i hi (hpart.trans_operand hi)).2 (hnew part hpart)
  · intro hnames part hpart
    obtain ⟨_, _, _, hs⟩ := stage_part hpart h
    exact (nodup_names_iff hs fun i hi => hnames i (hpart.trans_operand hi)).1 (hnames part hpart)

end Translator

/-! ## What is read back

A document holds a field once.  If a name occurs twice the second value takes the place of the
first, and what the first one has held is lost. -/

/-- **Nothing is lost in the documents of rows**: fields have different names, and what rows hold is
read back from their documents. -/
structure Yield.Lossless (y : Yield) : Prop where
  names : y.names.Nodup
  read : ∀ env aliasName, y.Related (y.ReadAs env aliasName) (y.rebase aliasName)

lemma Yield.lossless_iff {y : Yield} : y.Lossless ↔ y.names.Nodup :=
  ⟨Lossless.names, fun h => ⟨h, fun _ => y.readAs_rebase h⟩⟩

/-- **Names of fields differ as long as new ones are added.**  What any part of a query that is
translated yields, and each frame to which it leads, is lossless if and only if all joins and
navigations in the query add fields under new names; and the fields of the result have different
names then. -/
theorem field_names_distinct {tr : Translator} {q : Query} {t : Translation}
    (h : tr.translate q = .ok t) :
    (q.AddsNewNames ↔ ∀ part : Query, part.Part q → ∀ p s p', tr.stage part p = .ok (s, p') →
      s.yield.Lossless ∧ ∀ closed p₁ frame p₂, s.enter closed p₁ = .ok (frame, p₂) →
        frame.yield.Lossless) ∧
      (q.AddsNewNames → t.shape.NamesDiffer) := by
  obtain ⟨⟨s, p⟩, hstage, h⟩ := Computation.bind_eq_ok.1 h
  obtain ⟨shape, hshape, h⟩ := Computation.bind_eq_ok.1 h
  cases h
  have hnames := Translator.addsNewNames_iff hstage
  refine ⟨⟨fun hnew part hpart p s p' hs => ?_, fun hlossless => hnames.2 fun part hpart => ?_⟩,
    fun hnew => ?_⟩
  · have hyield : s.yield.names.Nodup := Translator.names_of_stage hs ▸ hnames.1 hnew part hpart
    refine ⟨Yield.lossless_iff.2 hyield, fun closed p₁ frame p₂ henter => ?_⟩
    rw [Yield.lossless_iff, (Stage.enter_eq_ok henter).1.names]
    exact hyield
  · obtain ⟨p, s, p', hs⟩ := Translator.stage_part hpart hstage
    rw [← Translator.names_of_stage hs]
    exact (hlossless part hpart p s p' hs).1.names
  · rw [tr.namesDiffer_rowShape hshape, Translator.names_of_stage hstage]
    exact hnames.1 hnew q .self

namespace Sample

/-- The age of each person beside the person, with the persons of the same age. -/
def agesMatched : Query :=
  .join .inner
    (.project (.source "Person" "p")
      (.record [("age", .scalar age), ("person", .entity "Person" "p")]))
    (.source "Person" "q") age (ageOf "q")

end Sample

/-- An alias that no field is named after keeps the names different. -/
theorem field_names_distinct_agesMatched : ∃ t, Sample.translator.translate Sample.agesMatched =
    .ok t ∧ Sample.agesMatched.AddsNewNames ∧ t.shape.NamesDiffer := by
  have hsource : ∀ aliasName, (Query.source "Person" aliasName).AddsNewNames := fun aliasName =>
    Query.addsNewNames_iff_operands.2 ⟨trivial, List.forall_mem_nil _⟩
  have hnew : Sample.agesMatched.AddsNewNames := by
    refine Query.addsNewNames_iff_operands.2
      ⟨?_, List.forall_mem_cons.2 ⟨?_, List.forall_mem_singleton.2 (hsource "q")⟩⟩
    · change "q" ∉ ["age", "person"]
      decide
    · exact Query.addsNewNames_iff_operands.2 ⟨trivial, List.forall_mem_singleton.2 (hsource "p")⟩
  obtain ⟨t, ht⟩ : ∃ t, Sample.translator.translate Sample.agesMatched = .ok t := ⟨_, rfl⟩
  exact ⟨t, ht, hnew, (field_names_distinct ht).2 hnew⟩

/-- The alias of a join is also the name of a field.  The rows have three fields, of which two are
of one name, and the documents have two: the age is lost. -/
theorem field_names_repeated : ∃ t parameters,
    Sample.ageTwice.HasRows Sample.translator {} t ⟨Sample.onePerson, parameters⟩
      [.object [("person", Sample.aged 30), ("q", Sample.aged 30)]] ∧
    ∃ fields, t.shape = .record fields ∧
      fields.map (fun field => field.1.name) = ["q", "person", "q"] ∧ ¬ t.shape.NamesDiffer := by
  refine ⟨_, _, ⟨rfl, ⟨⟨[]⟩, 0, _, rfl, rfl⟩, rfl⟩, _, rfl, rfl, ?_⟩
  change ¬ ["q", "person", "q"].Nodup
  decide

end EntityQuery
