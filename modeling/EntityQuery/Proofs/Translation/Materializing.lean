import EntityQuery.Proofs.Evaluation.Blocks
import EntityQuery.Proofs.Model.Lookups
import EntityQuery.Proofs.Translation.Conformance
import EntityQuery.Proofs.Translation.Elements
import EntityQuery.Proofs.Translation.Folding
import EntityQuery.Proofs.Translation.Relocation

/-!
# Rows of conforming documents

A query that selects, orders and relates entities has rows of entities.  If all documents that it
reads conform to their entities, then each of its rows can be materialized: an alias that an outer
join or an optional navigation leaves unbound is marked as optional wherever it goes, and all others
stand for documents that conform.

* `Query.Navigates`: the queries in question, in which each alias stands for one entity.
* `Frame.HoldsEntities`: what each of their frames keeps to.
* `Frame.HoldsEntities.extend`: a further term hands it on.
* `rows_materialize`: all rows of such a query can be materialized.
-/

namespace EntityQuery

/-! ## Queries of entities -/

/-- A model has a navigation from what its source alias stands for; its own alias, and whether it is
optional, are chosen freely. -/
def ValidModel.Offers (m : ValidModel) (entityOf : String → String) (c : Correlation) : Prop :=
  entityOf c.aliasName = c.target ∧
    ∃ found, m.correlation ⟨entityOf c.sourceAlias, c.sourceAlias⟩ c.navigation = .ok found ∧
      c = { found with aliasName := c.aliasName, optional := c.optional }

/-- A query that only selects, orders, pages and relates entities, each alias of which stands for
one entity. -/
def Query.Navigates (m : ValidModel) (entityOf : String → String) : Query → Prop
  | .source entity aliasName => entityOf aliasName = entity
  | .project input (.entity entity aliasName) =>
    input.Navigates m entityOf ∧ entityOf aliasName = entity
  | .join kind left right _ _ => (kind = .inner ∨ kind = .leftOuter) ∧
    left.Navigates m entityOf ∧ right.Navigates m entityOf
  | .correlate input c => input.Navigates m entityOf ∧ m.Offers entityOf c
  | .filter input _ | .orderBy input _ _ | .thenBy input _ _ | .skip input _ | .take input _
  | .distinct input => input.Navigates m entityOf
  | .project .. | .groupBy .. | .combine .. | .conclude .. => False

/-- The entities whose collections a query reads: those that it starts from, and those whose
documents it looks up. -/
def Query.roots : Query → List String
  | .source entity _ => [entity]
  | .join _ left right _ _ | .combine _ left right => left.roots ++ right.roots
  | .correlate input c =>
    match c.kind with
    | .unnest _ => input.roots
    | .lookup .. => input.roots ++ [c.target]
  | .filter input _ | .project input _ | .orderBy input _ _ | .thenBy input _ _ | .groupBy input _ _
  | .skip input _ | .take input _ | .distinct input | .conclude input _ _ => input.roots

/-- All documents in the collection of an entity conform to it. -/
def Translator.AllConform (tr : Translator) (collections : Collections) (entity : String) : Prop :=
  ∀ k, tr.model.keyspace? entity = some k → ∀ documents, collections.documents? k = some documents →
    ∀ d ∈ documents, tr.Conforms entity d

/-- A navigation that is unnested leads to the items of an embedded array. -/
lemma ValidModel.embedded_of_unnest {m : ValidModel} {s : EntitySet} {name : String}
    {c : Correlation} {path : List String} (h : m.correlation s name = .ok c)
    (hkind : c.kind = .unnest path) :
    ∃ e n, m.entity? s.entity = some e ∧ n ∈ e.navigations ∧ n.kind = .embedded true ∧
      c.target = n.target ∧ path = [n.fieldName] := by
  obtain ⟨e, n, target, kind, he, hn, htarget, hcorrelation, rfl⟩ := correlation_eq_ok h
  have htargetName : target.name = n.target := (Model.mem_of_entity? htarget).2
  refine ⟨e, n, he, List.mem_of_find?_eq_some hn, ?_⟩
  cases hkind
  rw [correlationKind] at hcorrelation
  cases hembedded : n.kind with
  | embedded many =>
      cases many with
      | true =>
          simp only [hembedded] at hcorrelation
          cases hcorrelation
          exact ⟨rfl, htargetName, rfl⟩
      | false => simp [hembedded] at hcorrelation
  | through via => simp [hembedded] at hcorrelation
  | reference foreignKey | collection foreignKey =>
      simp only [hembedded] at hcorrelation
      split at hcorrelation <;> cases hcorrelation

/-! ## Rows that terms make

A term binds one alias more: to a document of a collection, to an item or a part of what is bound,
or to nothing if no document matches and the term is optional. -/

section Rows

variable {env : Environment} {tr : Translator} {rows rows' : List Row}

/-- A keyspace that is read exists, and its documents are returned. -/
lemma Source.documents_of_run {k : Keyspace} {aliasName : String} {documents : List Document}
    (h : (Source.keyspace k aliasName).run env = .ok documents) :
    env.collections.documents? k = some documents := by
  rw [Source.run] at h
  cases hfound : env.collections.documents? k with
  | none => rw [hfound] at h; cases h
  | some found =>
      rw [hfound] at h
      exact congrArg some (Except.ok.inj h)

/-- What a term may bind its alias to on a row. -/
def Term.Binds (env : Environment) (row : Row) : Term → Datum → Prop
  | .join _ source _, some d => ∃ documents, source.run env = .ok documents ∧ d ∈ documents
  | .unnest _ array _, some d =>
    ∃ items, array.eval env (.ofRow row) = .ok (some (.array items)) ∧ d ∈ items
  | .join matching _ _, none | .unnest matching _ _, none => matching = .leftOuter

/-- A term binds its alias in addition to what is bound on a row. -/
lemma Term.binds_of_run {t : Term} (h : t.run env rows = .ok rows') :
    ∀ row' ∈ rows', ∃ row ∈ rows, ∃ v, row' = row.bind t.aliasName v ∧ t.Binds env row v := by
  intro row' hrow'
  cases t with
  | join matching source condition =>
      obtain ⟨documents, hdocuments, h⟩ := Computation.bind_eq_ok.1 h
      obtain ⟨blocks, hblocks, h⟩ := Computation.bind_eq_ok.1 h
      cases h
      obtain ⟨block, hblock, hrow'⟩ := List.mem_flatten.1 hrow'
      obtain ⟨row, hrow, hmade⟩ := Computation.exists_of_mem_mapM hblocks block hblock
      obtain ⟨matched, hmatched, rfl⟩ := joinRow_eq_ok.1 hmade
      refine ⟨row, hrow, ?_⟩
      split at hrow'
      · rename_i hnone
        have hmatching : matching = .leftOuter := by simpa using (Bool.and_eq_true_iff.1 hnone).2
        exact ⟨none, List.mem_singleton.1 hrow', hmatching⟩
      · obtain ⟨d, hd, rfl⟩ := List.mem_map.1 hrow'
        exact ⟨some d, rfl, documents, hdocuments, mem_of_keepWhere hmatched d hd⟩
  | unnest matching array aliasName =>
      obtain ⟨blocks, hblocks, h⟩ := Computation.bind_eq_ok.1 h
      cases h
      obtain ⟨block, hblock, hrow'⟩ := List.mem_flatten.1 hrow'
      obtain ⟨row, hrow, hmade⟩ := Computation.exists_of_mem_mapM hblocks block hblock
      obtain ⟨v, hv, hmade⟩ := Computation.bind_eq_ok.1 hmade
      refine ⟨row, hrow, ?_⟩
      split at hmade
      · cases hmade
        obtain ⟨d, hd, rfl⟩ := List.mem_map.1 hrow'
        exact ⟨some d, rfl, _, hv, hd⟩
      · cases hmade
        split at hrow'
        · rename_i houter
          have hmatching : matching = .leftOuter := by simpa using houter
          exact ⟨none, List.mem_singleton.1 hrow', hmatching⟩
        · cases hrow'

/-- Each document of a selection that does not fold its rows has been made of one of them. -/
lemma Clauses.row_of_mem_run {c : Clauses} {documents : List Document}
    (hfolded : c.isAggregating = false) (h : c.run env rows = .ok documents) :
    ∀ d ∈ documents, ∃ row ∈ rows, c.selection.project env (.ofRow row) = .ok (some d) := by
  obtain ⟨kept, hkept, h⟩ := Computation.bind_eq_ok.1 h
  obtain ⟨scopes, hscopes, h⟩ := Computation.bind_eq_ok.1 h
  rw [Clauses.scopes, hfolded] at hscopes
  have hrows : kept.map Scope.ofRow = scopes := Except.ok.inj hscopes
  obtain ⟨sorted, hsorted, h⟩ := Computation.bind_eq_ok.1 h
  obtain ⟨projected, hprojected, h⟩ := Computation.bind_eq_ok.1 h
  intro d hd
  have hmem : d ∈ projected.filterMap id := by
    have := mem_of_page h d hd
    split at this
    · exact mem_of_mem_dedupe this
    · exact this
  obtain ⟨o, ho, hod⟩ := List.mem_filterMap.1 hmem
  cases hod
  obtain ⟨scope, hscope, hproject⟩ := Computation.exists_of_mem_mapM hprojected _ ho
  rw [(ordered_perm hsorted).mem_iff, ← hrows] at hscope
  obtain ⟨row, hrow, rfl⟩ := List.mem_map.1 hscope
  exact ⟨row, mem_of_kept hkept row hrow, hproject⟩

/-- An alias stands for what one of the aliases that a row binds is bound to, or for a field of it,
and this may be what it stands for. -/
def Binding.ReadFrom (tr : Translator) (aliases : List String) (row : Row) (b : Binding) : Prop :=
  ∃ a ∈ aliases, ∃ v, row.find? a = some v ∧
    ((b.base = .ident a ∧ b.Accepts tr v) ∨
      ∃ name, b.base = .field (.ident a) name ∧ b.Accepts tr (v.bind (Document.field? name)))

namespace Binding.ReadFrom

variable {aliases : List String} {row : Row} {b : Binding}

lemma exists_eval (h : b.ReadFrom tr aliases row) :
    ∃ v, b.base.eval env (.ofRow row) = .ok v ∧ b.Accepts tr v := by
  obtain ⟨a, -, v, hv, ⟨hbase, haccepts⟩ | ⟨name, hbase, haccepts⟩⟩ := h
  · refine ⟨v, ?_, haccepts⟩
    rw [hbase, Expression.eval, Scope.ofRow, hv]
  · refine ⟨_, ?_, haccepts⟩
    rw [hbase, Expression.eval, Expression.eval, Scope.ofRow, hv]
    rfl

/-- What an alias stands for does not change when another one is bound. -/
lemma bind (h : b.ReadFrom tr aliases row) {aliasName : String} (hnew : aliasName ∉ aliases)
    (d : Datum) : b.ReadFrom tr (aliases ++ [aliasName]) (row.bind aliasName d) := by
  obtain ⟨a, ha, v, hv, hread⟩ := h
  have hne : aliasName ≠ a := fun heq => hnew (heq ▸ ha)
  exact ⟨a, List.mem_append_left _ ha, v, by rwa [Row.find?_bind_of_ne hne], hread⟩

end Binding.ReadFrom
end Rows

/-! ## Frames of entities

The invariant says of each alias what it may be bound to on the rows of the frame.  It is kept when
the frame becomes a source, since documents hold what rows did. -/

/-- What rows hold is entities, each record field of which has the name of an alias. -/
def Yield.IsOfEntities : Yield → Prop
  | .entity _ => True
  | .scalar _ => False
  | .record fields =>
    (fields.map Prod.fst).Nodup ∧ ∀ f ∈ fields, ∃ b : Binding, f = (b.aliasName, .entity b)

/-- A document may be what rows hold. -/
def Yield.Accepts (tr : Translator) : Yield → Document → Prop
  | .entity b, d => b.Accepts tr (some d)
  | .scalar _, _ => True
  | .record fields, d => ∃ values, d = .object values ∧
    ∀ f ∈ fields, ∀ b, f.2 = .entity b → b.Accepts tr (Fields.get? f.1 values)

/-- What the frames of a query of entities keep to. -/
structure Frame.HoldsEntities (tr : Translator) (env : Environment) (entityOf : String → String)
    (f : Frame) : Prop where
  isGrouped : f.isGrouped = false
  isConcluded : f.isConcluded = false
  yield : f.yield.IsOfEntities
  /-- Each alias stands for its entity. -/
  named : ∀ b ∈ f.scope, b.entity = entityOf b.aliasName
  /-- On each row, each alias stands for what it may. -/
  rows : ∀ sources rows, f.source.run env = .ok sources →
    runTerms env f.terms (sources.map (Row.single f.source.aliasName)) = .ok rows →
    ∀ row ∈ rows, ∀ b ∈ f.scope, b.ReadFrom tr f.aliases row

namespace Yield

variable {tr : Translator} {y : Yield} {aliasName : String}

lemma IsOfEntities.rebase (h : y.IsOfEntities) : (y.rebase aliasName).IsOfEntities := by
  cases y with
  | entity b => trivial
  | scalar s => exact h
  | record fields =>
      refine ⟨?_, fun f hf => ?_⟩
      · have hnames : (fields.map _).map Prod.fst = fields.map Prod.fst :=
          Yield.names_rebase (.record fields) aliasName
        rw [hnames]
        exact h.1
      · obtain ⟨f₀, hf₀, rfl⟩ := List.mem_map.1 hf
        obtain ⟨b, rfl⟩ := h.2 f₀ hf₀
        exact ⟨{ b with base := .field (.ident aliasName) b.aliasName }, rfl⟩

/-- The aliases that are read through a source stand for the same entities. -/
lemma exists_of_mem_rebase {b : Binding} (h : b ∈ (y.rebase aliasName).bindings) :
    ∃ b₀ ∈ y.bindings, b.aliasName = b₀.aliasName ∧ b.entity = b₀.entity := by
  cases y with
  | entity b₀ =>
      rw [List.mem_singleton.1 h]
      exact ⟨b₀, List.mem_singleton_self _, rfl, rfl⟩
  | scalar s => cases h
  | record fields =>
      obtain ⟨f, hf, hb⟩ := List.mem_filterMap.1 h
      obtain ⟨⟨name, s | b₀⟩, hf₀, rfl⟩ := List.mem_map.1 hf
      · cases hb
      · cases hb
        exact ⟨b₀, List.mem_filterMap.2 ⟨_, hf₀, rfl⟩, rfl, rfl⟩

/-- On a document that rows may hold, the aliases that are read through it stand for what they may.
-/
lemma Accepts.readFrom {d : Document} (h : y.Accepts tr d) {b : Binding}
    (hb : b ∈ (y.rebase aliasName).bindings) :
    b.ReadFrom tr [aliasName] (.single aliasName d) := by
  have hfind : (Row.single aliasName d).find? aliasName = some (some d) :=
    Row.find?_bind_self _ _ _
  refine ⟨aliasName, List.mem_singleton_self _, some d, hfind, ?_⟩
  cases y with
  | entity b₀ =>
      rw [List.mem_singleton.1 hb]
      exact .inl ⟨rfl, h⟩
  | scalar s => cases hb
  | record fields =>
      obtain ⟨f, hf, hbinding⟩ := List.mem_filterMap.1 hb
      obtain ⟨⟨name, s | b₀⟩, hf₀, rfl⟩ := List.mem_map.1 hf
      · cases hbinding
      · cases hbinding
        obtain ⟨values, rfl, hvalues⟩ := h
        exact .inr ⟨name, rfl, hvalues _ hf₀ b₀ rfl⟩

/-- The names of the fields that a join adds to are those of the aliases. -/
lemma IsOfEntities.scopeFields (h : y.IsOfEntities) {fields : List (String × FieldYield)}
    (hfields : y.scopeFields? = some fields) :
    (Yield.record fields).IsOfEntities ∧ fields.map Prod.fst = y.bindings.map Binding.aliasName := by
  cases y with
  | entity b =>
      cases hfields
      exact ⟨⟨by simp, fun f hf => ⟨b, List.mem_singleton.1 hf⟩⟩, rfl⟩
  | scalar s => exact h.elim
  | record fields₀ =>
      cases hfields
      refine ⟨h, ?_⟩
      rw [bindings]
      have hfields := h.2
      clear h
      induction fields with
      | nil => rfl
      | cons f fields ih =>
          obtain ⟨b, rfl⟩ := hfields f List.mem_cons_self
          rw [List.map_cons, ih fun f hf => hfields f (.tail _ hf)]
          rfl

end Yield

namespace Frame.HoldsEntities

variable {tr : Translator} {env : Environment} {entityOf : String → String} {f : Frame}

/-- The documents of a frame are what its rows may hold. -/
lemma documents (h : f.HoldsEntities tr env entityOf) (htidy : f.Tidy) {documents : List Document}
    (hrun : f.finish.run env = .ok documents) : ∀ d ∈ documents, f.yield.Accepts tr d := by
  obtain ⟨sources, hsources, hrun⟩ := Computation.bind_eq_ok.1 hrun
  obtain ⟨rows, hrows, hrun⟩ := Computation.bind_eq_ok.1 hrun
  have hfolded := f.isAggregating_clauses htidy h.isGrouped h.isConcluded
  intro d hd
  obtain ⟨row, hrow, hproject⟩ := Clauses.row_of_mem_run hfolded hrun d hd
  have hread : ∀ b ∈ f.yield.bindings, ∃ v, b.base.eval env (.ofRow row) = .ok v ∧ b.Accepts tr v :=
    fun b hb => (h.rows _ _ hsources hrows row hrow b (htidy.scope ▸ hb)).exists_eval
  have hproject : f.yield.selection.project env (.ofRow row) = .ok (some d) := hproject
  cases hy : f.yield with
  | entity b =>
      rw [hy] at hread hproject
      obtain ⟨v, hv, haccepts⟩ := hread b (List.mem_singleton_self _)
      cases hproject.symm.trans hv
      exact haccepts
  | scalar s => trivial
  | record fields =>
      rw [hy] at hread hproject
      have hentities := h.yield
      rw [hy] at hentities
      obtain ⟨values, rfl, hvalues⟩ := Yield.project_record hproject hentities.1
      refine ⟨values, rfl, fun field hfield b hb => ?_⟩
      obtain ⟨v, hv, haccepts⟩ :=
        hread b (List.mem_filterMap.2 ⟨field, hfield, by rw [hb]; rfl⟩)
      have hvalue := hvalues field hfield
      rw [hb] at hvalue
      cases hvalue.symm.trans hv
      exact haccepts

lemma ofKeyspace {k : Keyspace} {entity aliasName : String} (hentity : entityOf aliasName = entity)
    (hdocuments : ∀ documents, env.collections.documents? k = some documents →
      ∀ d ∈ documents, tr.Conforms entity d) :
    (Frame.ofKeyspace k entity aliasName).HoldsEntities tr env entityOf where
  isGrouped := rfl
  isConcluded := rfl
  yield := trivial
  named b hb := by
    rw [List.mem_singleton.1 hb]
    exact hentity.symm
  rows sources rows hsources hrows row hrow b hb := by
    cases hrows
    obtain ⟨d, hd, rfl⟩ := List.mem_map.1 hrow
    rw [List.mem_singleton.1 hb]
    exact ⟨aliasName, List.mem_singleton_self _, some d, Row.find?_bind_self _ _ _,
      .inl ⟨rfl, hdocuments _ (Source.documents_of_run hsources) d hd⟩⟩

lemma ofStatement {s : Statement} {y : Yield} (hyield : y.IsOfEntities)
    (hnamed : ∀ b ∈ y.bindings, b.entity = entityOf b.aliasName)
    (hdocuments : ∀ documents, s.run env = .ok documents → ∀ d ∈ documents, y.Accepts tr d)
    (aliasName : String) : (Frame.ofStatement s y aliasName).HoldsEntities tr env entityOf where
  isGrouped := rfl
  isConcluded := rfl
  yield := hyield.rebase
  named b hb := by
    obtain ⟨b₀, hb₀, halias, hentity⟩ := Yield.exists_of_mem_rebase hb
    rw [hentity, halias]
    exact hnamed b₀ hb₀
  rows sources rows hsources hrows row hrow b hb := by
    cases hrows
    obtain ⟨d, hd, rfl⟩ := List.mem_map.1 hrow
    exact (hdocuments _ hsources d hd).readFrom hb

/-- A frame that is entered keeps to the same. -/
lemma enter (h : f.HoldsEntities tr env entityOf) (htidy : f.Tidy) {closed : Frame → Bool}
    {f' : Frame} (henters : (Stage.frame f).Enters closed f') : f'.HoldsEntities tr env entityOf := by
  cases henters with
  | kept => exact h
  | nested _ aliasName =>
      refine .ofStatement h.yield (fun b hb => h.named b (htidy.scope ▸ hb)) ?_ aliasName
      exact fun documents hrun => h.documents htidy hrun

/-- A projection of an entity in scope is one of entities. -/
lemma yielding (h : f.HoldsEntities tr env entityOf) {b : Binding} (hb : b ∈ f.scope) :
    (f.yielding (.entity b)).HoldsEntities tr env entityOf :=
  { h with
    yield := trivial
    named := fun b' hb' => h.named b' (List.mem_singleton.1 hb' ▸ hb)
    rows := fun sources rows hsources hrows row hrow b' hb' =>
      h.rows sources rows hsources hrows row hrow b' (List.mem_singleton.1 hb' ▸ hb) }

/-- **A further term hands on that rows hold entities**, if its alias stands for what it may. -/
theorem extend (h : f.HoldsEntities tr env entityOf) (htidy : f.Tidy)
    {fields : List (String × FieldYield)} (hfields : f.yield.scopeFields? = some fields) {t : Term}
    {b : Binding} (hfresh : f.takes b.aliasName = false) (halias : t.aliasName = b.aliasName)
    (hbase : b.base = .ident b.aliasName) (hentity : b.entity = entityOf b.aliasName)
    (hterm : ∀ row, (∀ b' ∈ f.scope, b'.ReadFrom tr f.aliases row) → ∀ v, t.Binds env row v →
      b.Accepts tr v) :
    (f.extend fields t b).HoldsEntities tr env entityOf := by
  simp only [Frame.takes, Bool.or_eq_false_iff, List.any_eq_false] at hfresh
  obtain ⟨⟨hunbound, hsource⟩, hterms⟩ := hfresh
  have hnew : b.aliasName ∉ f.aliases := by
    rw [Frame.aliases, List.mem_cons, not_or]
    refine ⟨fun heq => by simp [heq] at hsource, fun hmem => ?_⟩
    obtain ⟨t', ht', heq⟩ := List.mem_map.1 hmem
    exact hterms t' ht' (by simpa using heq)
  have hname : b.aliasName ∉ fields.map Prod.fst := by
    rw [(h.yield.scopeFields hfields).2, ← htidy.scope]
    intro hmem
    obtain ⟨b', hb', heq⟩ := List.mem_map.1 hmem
    have hfound : (f.binding? b.aliasName).isSome = true :=
      List.find?_isSome.2 ⟨b', hb', by simpa using heq⟩
    rw [hunbound] at hfound
    cases hfound
  have haliases : (f.extend fields t b).aliases = f.aliases ++ [b.aliasName] := by
    change f.source.aliasName :: (f.terms ++ [t]).map Term.aliasName = _
    rw [List.map_append, ← halias]
    rfl
  obtain ⟨⟨hnodup, hentities⟩, -⟩ := h.yield.scopeFields hfields
  refine { h with yield := ⟨?_, ?_⟩, named := ?_, rows := ?_ }
  · rw [List.map_append, List.nodup_append]
    refine ⟨hnodup, by simp, fun a ha a' ha' heq => ?_⟩
    rw [heq, List.mem_singleton.1 ha'] at ha
    exact hname ha
  · intro field hfield
    rcases List.mem_append.1 hfield with hfield | hfield
    · exact hentities field hfield
    · exact ⟨b, List.mem_singleton.1 hfield⟩
  · intro b' hb'
    rcases List.mem_append.1 hb' with hb' | hb'
    · exact h.named b' hb'
    · rw [List.mem_singleton.1 hb', hentity]
  · intro sources rows hsources hrows row hrow b' hb'
    have hterms : runTerms env (f.terms ++ [t]) (sources.map (Row.single f.source.aliasName)) =
        .ok rows := hrows
    rw [runTerms_append] at hterms
    obtain ⟨rows₀, hrows₀, hterms⟩ := Computation.bind_eq_ok.1 hterms
    obtain ⟨rows₁, hrows₁, hnil⟩ := Computation.bind_eq_ok.1 hterms
    cases hnil
    obtain ⟨row₀, hrow₀, v, rfl, hv⟩ := t.binds_of_run hrows₁ row hrow
    have hread : ∀ b' ∈ f.scope, b'.ReadFrom tr f.aliases row₀ :=
      h.rows sources rows₀ hsources hrows₀ row₀ hrow₀
    rw [haliases, halias]
    rcases List.mem_append.1 hb' with hb' | hb'
    · exact (hread b' hb').bind hnew v
    · rw [List.mem_singleton.1 hb']
      exact ⟨b.aliasName, List.mem_append_right _ (List.mem_singleton_self _), v,
        Row.find?_bind_self _ _ _, .inl ⟨hbase, hterm row₀ hread v hv⟩⟩

end Frame.HoldsEntities

/-! ## Queries

The induction follows the operators of the query.  Only those that relate entities bind something
new, and all others select or reorder rows. -/

namespace Translator

open Translating

variable {tr : Translator} {entityOf : String → String} {p p' : Progress}

lemma aliasName_correlated {c : Correlation} {source : Binding} {term : Term}
    (h : tr.correlated c source = some term) : term.aliasName = c.aliasName := by
  rw [correlated] at h
  cases hkind : c.kind with
  | unnest path =>
      simp only [hkind, Option.some.injEq] at h
      rw [← h, Term.aliasName]
  | lookup sourceField targetField =>
      simp only [hkind, Option.map_eq_some_iff] at h
      obtain ⟨k, -, rfl⟩ := h
      rfl

/-- What a correlated navigation binds its alias to conforms to its target, if its source does. -/
lemma accepts_correlated {env : Environment} {c : Correlation} {source : Binding} {term : Term}
    (hoffers : tr.model.Offers entityOf c) (hterm : tr.correlated c source = some term)
    (hentity : source.entity = entityOf c.sourceAlias) {aliases : List String} {row : Row}
    (hread : source.ReadFrom tr aliases row)
    (hlookup : ∀ from? to?, c.kind = .lookup from? to? → tr.AllConform env.collections c.target)
    {v : Datum} (hv : term.Binds env row v) :
    Binding.Accepts tr ⟨c.aliasName, c.target, .ident c.aliasName, c.optional⟩ v := by
  obtain ⟨-, found, hfound, hc⟩ := hoffers
  have houter : (if c.optional then Matching.leftOuter else .inner) = .leftOuter →
      c.optional = true := by
    cases c.optional with
    | false => exact fun h => by cases h
    | true => exact fun _ => rfl
  rw [correlated] at hterm
  cases hkind : c.kind with
  | unnest path =>
      simp only [hkind, Option.some.injEq] at hterm
      cases hterm
      cases v with
      | none => exact houter hv
      | some d =>
          obtain ⟨items, hitems, hd⟩ := hv
          have hfoundKind : found.kind = .unnest path := by rw [← hkind, hc]
          obtain ⟨e, n, he, hn, hembedded, htarget, rfl⟩ :=
            ValidModel.embedded_of_unnest hfound hfoundKind
          obtain ⟨w, hw, haccepts⟩ : ∃ w, source.base.eval env (.ofRow row) = .ok w ∧
              source.Accepts tr w := hread.exists_eval
          change (source.base.eval env (.ofRow row) >>= fun d => Except.ok (d.bind
            (Document.field? n.fieldName))) = _ at hitems
          rw [Computation.bind_of_eq_ok hw] at hitems
          cases w with
          | none => cases hitems
          | some w =>
              have hconforms : tr.Conforms source.entity w := haccepts
              have hitem := hconforms.item (hentity ▸ he) hn hembedded (Except.ok.inj hitems) d hd
              have hsame : c.target = n.target := by rw [hc, ← htarget]
              change tr.Conforms c.target d
              rwa [hsame]
  | lookup sourceField targetField =>
      simp only [hkind, Option.map_eq_some_iff] at hterm
      obtain ⟨k, hk, rfl⟩ := hterm
      cases v with
      | none => exact houter hv
      | some d =>
          obtain ⟨documents, hdocuments, hd⟩ := hv
          exact hlookup _ _ hkind k hk documents (Source.documents_of_run hdocuments) d hd

/-- A correlated navigation hands on that rows hold entities. -/
lemma holdsEntities_correlate {env : Environment} {frame : Frame} {c : Correlation} {input : Query}
    (hoffers : tr.model.Offers entityOf c)
    (hroots : ∀ entity ∈ (Query.correlate input c).roots, tr.AllConform env.collections entity)
    (htidy : frame.Tidy) (hframe : frame.HoldsEntities tr env entityOf)
    {fields : List (String × FieldYield)} (hfields : frame.yield.scopeFields? = some fields)
    {source : Binding} (hsource : frame.binding? c.sourceAlias = some source)
    (hfresh : frame.takes c.aliasName = false) {term : Term}
    (hterm : tr.correlated c source = some term) :
    (frame.extend fields term
      ⟨c.aliasName, c.target, .ident c.aliasName, c.optional⟩).HoldsEntities tr env entityOf := by
  have hmem : source ∈ frame.scope := List.mem_of_find?_eq_some hsource
  have halias : source.aliasName = c.sourceAlias := by simpa using List.find?_some hsource
  refine hframe.extend htidy hfields hfresh (aliasName_correlated hterm) rfl hoffers.1.symm
    fun row hread v hv => ?_
  refine accepts_correlated hoffers hterm ?_ (hread source hmem) ?_ hv
  · rw [hframe.named source hmem, halias]
  · intro from? to? hkind
    refine hroots c.target ?_
    rw [Query.roots, hkind]
    exact List.mem_append_right _ (List.mem_singleton_self _)

/-- A join hands it on, too, if the right side holds entities as well. -/
lemma holdsEntities_join {env : Environment} {frame right : Frame} (htidy : frame.Tidy)
    (hframe : frame.HoldsEntities tr env entityOf) (htidyr : right.Tidy)
    (hright : right.HoldsEntities tr env entityOf) {fields : List (String × FieldYield)}
    (hfields : frame.yield.scopeFields? = some fields) {b : Binding}
    (hyield : right.yield = .entity b) (hfresh : frame.takes b.aliasName = false)
    (matching : Matching) (condition : Expression) :
    (frame.extend fields (.join matching ((Stage.frame right).sourceAs b.aliasName) condition)
      (b.joined matching)).HoldsEntities tr env entityOf := by
  refine hframe.extend htidy hfields hfresh (Stage.aliasName_sourceAs _ _) rfl ?_
    fun row _ v hv => ?_
  · have hmem : b ∈ right.scope := by
      rw [htidyr.scope, hyield]
      exact List.mem_singleton_self _
    exact hright.named b hmem
  · cases v with
    | none =>
        have hmatching : matching = .leftOuter := hv
        rw [hmatching]
        rfl
    | some d =>
        obtain ⟨documents, hdocuments, hd⟩ := hv
        rw [Stage.run_sourceAs] at hdocuments
        have haccepts := hright.documents htidyr hdocuments d hd
        rw [hyield] at haccepts
        exact haccepts

/-- What an operator over a query of entities has as its input is such a query, which reads no more.
-/
lemma Adds.navigates {frame frame' : Frame} {q input : Query} {closed : Frame → Bool}
    (h : Adds tr frame p q input closed frame' p') (hq : q.Navigates tr.model entityOf) :
    input.Navigates tr.model entityOf ∧ input.roots ⊆ q.roots := by
  cases h with
  | filter | orderBy | thenBy | skip | take | distinct => exact ⟨hq, List.Subset.refl _⟩
  | @project input projection =>
      cases projection with
      | entity => exact ⟨hq.1, List.Subset.refl _⟩
      | scalar | record => exact hq.elim
  | @correlate input _ _ _ c =>
      refine ⟨hq.1, ?_⟩
      rw [Query.roots]
      cases c.kind with
      | unnest path => exact List.Subset.refl _
      | lookup sourceField targetField => exact List.subset_append_left _ _
  | groupBy | conclude => exact hq.elim

/-- **An operator over a frame that holds entities makes one.** -/
lemma Adds.holdsEntities {env : Environment} {frame frame' : Frame} {q input : Query}
    {closed : Frame → Bool} (h : Adds tr frame p q input closed frame' p')
    (hq : q.Navigates tr.model entityOf)
    (hroots : ∀ entity ∈ q.roots, tr.AllConform env.collections entity) (htidy : frame.Tidy)
    (hframe : frame.HoldsEntities tr env entityOf) : frame'.HoldsEntities tr env entityOf := by
  cases h with
  | filter | orderBy | thenBy | skip | take | distinct => exact { hframe with }
  | @project input projection y _ hy =>
      cases projection with
      | entity entity aliasName =>
          obtain ⟨b, _, hb, hy⟩ := bind_eq_ok.1 hy
          cases pure_eq_ok.1 hy
          exact hframe.yielding (Frame.mem_of_projected hb)
      | scalar | record => exact hq.elim
  | correlate hfields hsource hfresh hterm =>
      exact holdsEntities_correlate hq.2 hroots htidy hframe hfields hsource hfresh hterm
  | groupBy | conclude => exact hq.elim

/-- The frames of a query of entities hold entities, operator by operator. -/
lemma Translates.holdsEntities {env : Environment} {q : Query} {s : Stage}
    (h : Translates tr q p s p') (hq : q.Navigates tr.model entityOf)
    (hroots : ∀ entity ∈ q.roots, tr.AllConform env.collections entity) :
    ∃ f, s = .frame f ∧ f.Tidy ∧ f.HoldsEntities tr env entityOf := by
  have htidy : s.Tidy := h.lowered.1.tidy
  suffices hholds : ∃ f, s = .frame f ∧ f.HoldsEntities tr env entityOf by
    obtain ⟨f, rfl, hf⟩ := hholds
    exact ⟨f, rfl, htidy, hf⟩
  clear htidy
  induction h with
  | @source _ entity aliasName k hkeyspace =>
      exact ⟨_, rfl, .ofKeyspace hq (hroots entity (List.mem_singleton_self _) k hkeyspace)⟩
  | operator hs _ henter hadds ih =>
      obtain ⟨hinput, hsubset⟩ := hadds.navigates hq
      obtain ⟨f, rfl, hf⟩ := ih hinput fun entity he => hroots entity (hsubset he)
      have henters := (Stage.enter_eq_ok henter).1
      have htidy : (Stage.frame f).Tidy := (stage_eq_ok hs).1.tidy
      exact ⟨_, rfl, hadds.holdsEntities hq hroots (htidy.enter henters) (hf.enter htidy henters)⟩
  | join _ hl _ hr _ henter hfields hyield hfresh _ _ ihl ihr =>
      obtain ⟨-, hleft, hright⟩ := hq
      obtain ⟨f, rfl, hf⟩ := ihl hleft fun entity he => hroots entity (List.mem_append_left _ he)
      obtain ⟨g, rfl, hg⟩ := ihr hright fun entity he => hroots entity (List.mem_append_right _ he)
      have henters := (Stage.enter_eq_ok henter).1
      have htidyl : (Stage.frame f).Tidy := (stage_eq_ok hl).1.tidy
      have htidyr : (Stage.frame g).Tidy := (stage_eq_ok hr).1.tidy
      exact ⟨_, rfl, holdsEntities_join (htidyl.enter henters) (hf.enter htidyl henters) htidyr hg
        hfields hyield hfresh _ _⟩
  | combine => exact hq.elim

/-- **The frames of a query of entities hold entities**, if the documents that it reads conform. -/
theorem holdsEntities_stage {env : Environment} {q : Query} {s : Stage}
    (hq : q.Navigates tr.model entityOf)
    (hroots : ∀ entity ∈ q.roots, tr.AllConform env.collections entity)
    (h : tr.stage q p = .ok (s, p')) :
    ∃ f, s = .frame f ∧ f.Tidy ∧ f.HoldsEntities tr env entityOf :=
  (translates_of_stage h).holdsEntities hq hroots

/-- A field of a record that is an entity is materialized, or null if it is optional. -/
lemma materializeSlot_entity (values : Fields) (place : RecordPlace) (shape : EntityShape) :
    materializeSlot values (place, .entity shape) = (do
      let result ← match valuedField place.name values with
        | some d => shape.materialize place.name d
        | none => if place.optional then .ok .null else .error (.missing place.name)
      .ok (place.name, result)) := rfl

/-- A field of a record is materialized if its alias stands for what it may. -/
lemma exists_materializeSlot {b : Binding} {slot : RecordPlace × RowShape} {values : Fields}
    (hslot : tr.recordSlot (b.aliasName, .entity b) = .ok slot)
    (haccepts : b.Accepts tr (Fields.get? b.aliasName values)) :
    ∃ m, materializeSlot values slot = .ok m := by
  obtain ⟨shape, hshape, h⟩ := Computation.bind_eq_ok.1 hslot
  cases h
  cases hvalue : Fields.get? b.aliasName values with
  | none =>
      rw [hvalue] at haccepts
      have hoptional : b.optional = true := haccepts
      have hnone : valuedField b.aliasName values = none := by rw [valuedField, hvalue]; rfl
      refine ⟨(b.aliasName, .null), ?_⟩
      rw [materializeSlot_entity, hnone, hoptional]
      rfl
  | some d =>
      rw [hvalue] at haccepts
      have hconforms : tr.Conforms b.entity d := haccepts
      obtain ⟨m, hm⟩ := hconforms.materialize hshape b.aliasName
      have hsome := valuedField_of_get? hvalue hconforms.isNull
      refine ⟨(b.aliasName, m), ?_⟩
      rw [materializeSlot_entity, hsome]
      exact Computation.bind_of_eq_ok hm

/-- A record is materialized if its aliases stand for what they may. -/
lemma exists_materializeSlots {fields : List (String × FieldYield)}
    {slots : List (RecordPlace × RowShape)} {values : Fields}
    (hslots : fields.mapM tr.recordSlot = .ok slots)
    (h : ∀ f ∈ fields, ∃ b : Binding, f = (b.aliasName, .entity b) ∧
      b.Accepts tr (Fields.get? b.aliasName values)) :
    ∃ ms, materializeSlots values slots = .ok ms := by
  induction Computation.mapM_eq_ok.1 hslots with
  | nil => exact ⟨[], rfl⟩
  | @cons field slot fields slots hslot hrest ih =>
      obtain ⟨b, rfl, haccepts⟩ := h field List.mem_cons_self
      obtain ⟨m, hm⟩ := exists_materializeSlot hslot haccepts
      obtain ⟨ms, hms⟩ := ih (Computation.mapM_eq_ok.2 hrest) fun f hf => h f (.tail _ hf)
      exact ⟨m :: ms, Computation.bind_eq_ok.2 ⟨m, hm, Computation.bind_eq_ok.2 ⟨ms, hms, rfl⟩⟩⟩

/-- **What rows of entities may hold is materialized.** -/
theorem exists_materialize {y : Yield} {shape : RowShape} {d : Document} (hyield : y.IsOfEntities)
    (hshape : tr.rowShape y = .ok shape) (hd : y.Accepts tr d) :
    ∃ m, shape.materialize d = .ok m := by
  cases y with
  | entity b =>
      obtain ⟨entity, hentity, h⟩ := Computation.bind_eq_ok.1 hshape
      cases h
      have hconforms : tr.Conforms b.entity d := hd
      rw [RowShape.materialize, hconforms.isNull]
      exact hconforms.materialize hentity ""
  | scalar s => exact hyield.elim
  | record fields =>
      obtain ⟨slots, hslots, h⟩ := Computation.bind_eq_ok.1 hshape
      cases h
      obtain ⟨values, rfl, hvalues⟩ := hd
      obtain ⟨ms, hms⟩ := exists_materializeSlots hslots fun f hf => by
        obtain ⟨b, rfl⟩ := hyield.2 f hf
        exact ⟨b, rfl, hvalues _ hf b rfl⟩
      exact ⟨.record ms, by rw [RowShape.materialize, hms]; rfl⟩

end Translator

/-- **Rows of conforming documents can be materialized.**  If a query of entities has a translation,
and all documents of the collections that it reads conform to the entities as which they are read,
then each row that it returns can be materialized in the shape of the translation. -/
theorem rows_materialize {tr : Translator} {entityOf : String → String} {q : Query} {t : Translation}
    {env : Environment} {rows : List Document} (hq : q.Navigates tr.model entityOf)
    (ht : tr.translate q = .ok t)
    (hroots : ∀ entity ∈ q.roots, tr.AllConform env.collections entity)
    (hrows : t.query.statement.run env = .ok rows) :
    ∀ d ∈ rows, ∃ m, t.shape.materialize d = .ok m := by
  obtain ⟨stage, progress, hstage, hquery, hshape⟩ := Translator.translate_eq_ok ht
  obtain ⟨f, rfl, htidy, hf⟩ := Translator.holdsEntities_stage hq hroots hstage
  rw [hquery] at hrows
  intro d hd
  exact Translator.exists_materialize hf.yield hshape (hf.documents htidy hrows d hd)

namespace Sample

/-- The addresses of a person. -/
def addressesOf (aliasName : String) : Correlation where
  sourceAlias := aliasName
  navigation := "addresses"
  target := "Address"
  aliasName := "a"
  kind := .unnest ["addresses"]

/-- The persons with their orders, as far as they have any, and then with their addresses. -/
def deliveries : Query :=
  .correlate (.skip (.correlate (.source "Person" "p") (ordersOf "p")) (.ofValue (.int64 0)))
    (addressesOf "p")

/-- The entity that each alias stands for. -/
def entityUnder : String → String
  | "p" => "Person"
  | "o" => "Order"
  | _ => "Address"

/-- A person with an address. -/
def resident (id : Int) (city : String) (age : Int) : Document :=
  .object [("addresses", .array [.object [("city", .string city)]]), ("age", .ofInt age),
    ("id", .ofInt id)]

/-- An order of a person. -/
def orderBy (buyer total : Int) : Document :=
  .object [("buyer", .ofInt buyer), ("id", .string "1"), ("total", .ofInt total)]

/-- Two persons, of whom one has ordered something. -/
def shopCollections : Collections :=
  ⟨[("app._default.person", [resident 1 "Oslo" 30, resident 2 "Rome" 40]),
    ("app._default.order", [orderBy 1 3])]⟩

end Sample

/-- Where there is no order, the row of the address is materialized nevertheless. -/
theorem rows_materialize_deliveries : ∃ t rows,
    Sample.deliveries.Navigates Sample.shop Sample.entityUnder ∧
    Translator.translate Sample.shopTranslator Sample.deliveries = .ok t ∧
    (∀ entity ∈ Sample.deliveries.roots,
      Sample.shopTranslator.AllConform Sample.shopCollections entity) ∧
    t.query.statement.run ⟨Sample.shopCollections, [("p0", .ofInt 0)]⟩ = .ok rows ∧
    rows = [
      .object [("a", .object [("city", .string "Oslo")]), ("o", Sample.orderBy 1 3),
        ("p", Sample.resident 1 "Oslo" 30)],
      .object [("a", .object [("city", .string "Rome")]),
        ("p", Sample.resident 2 "Rome" 40)]] ∧
    ∀ d ∈ rows, ∃ m, t.shape.materialize d = .ok m := by
  have hq : Sample.deliveries.Navigates Sample.shop Sample.entityUnder :=
    ⟨⟨rfl, rfl, _, rfl, rfl⟩, rfl, _, rfl, rfl⟩
  have hroots : ∀ entity ∈ Sample.deliveries.roots,
      Sample.shopTranslator.AllConform Sample.shopCollections entity := by
    intro entity hentity k hk documents hdocuments d hd
    rcases List.mem_pair.1 hentity with rfl | rfl
    · cases hk
      cases hdocuments
      rcases List.mem_pair.1 hd with rfl | rfl <;> exact ⟨_, _, rfl, rfl⟩
    · cases hk
      cases hdocuments
      rw [List.mem_singleton.1 hd]
      exact ⟨_, _, rfl, rfl⟩
  obtain ⟨t, ht, hrows⟩ : ∃ t, Translator.translate Sample.shopTranslator Sample.deliveries = .ok t ∧
      t.query.statement.run ⟨Sample.shopCollections, [("p0", .ofInt 0)]⟩ = .ok [
        .object [("a", .object [("city", .string "Oslo")]), ("o", Sample.orderBy 1 3),
          ("p", Sample.resident 1 "Oslo" 30)],
        .object [("a", .object [("city", .string "Rome")]),
          ("p", Sample.resident 2 "Rome" 40)]] := ⟨_, rfl, rfl⟩
  exact ⟨t, _, hq, ht, hroots, hrows, rfl, rows_materialize hq ht hroots hrows⟩

end EntityQuery
