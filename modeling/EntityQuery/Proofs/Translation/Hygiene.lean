import EntityQuery.Proofs.Statement.Clauses
import EntityQuery.Proofs.Translation.Comments
import EntityQuery.Proofs.Translation.Joining

/-!
# Aliases in translated statements

A query names the aliases of its sources, and a translation makes up further ones for the statements
that become sources, which a query may name as well.  Nothing but the tests that joins and
navigations make keeps them apart.  Still no selection binds an alias twice, and each identifier is
bound by the selection in which it stands.

* `Expression.RefersOnlyTo`: which aliases the identifiers in an expression are.
* `QueryBlock.IsHygienic`: the aliases of a selection are different, and what refers to them stands
  behind them.
* `Translator.Lowered.hygienic`: each operator keeps to it.
* `aliases_hygienic`: the statements of translations keep to it.
-/

namespace EntityQuery

/-! ## Selections and what they refer to

A selection is read through the aliases that its source and its terms bind, one behind the other.
Of the parts of an expression only identifiers refer to them, so a construct refers to what its
parts refer to, and `Closed` carries this through whole expressions. -/

/-- Each identifier in an expression is one of some aliases. -/
def Expression.RefersOnlyTo (aliases : List String) (e : Expression) : Prop :=
  ∀ name, (Expression.ident name).IsPartOf e → name ∈ aliases

/-- The aliases to which the expression of a term may refer, if some are bound before the term.  The
condition of a join sees both sides; an array is taken from what is there before. -/
def Term.visible (before : List String) : Term → List String
  | .join _ source _ => before ++ [source.aliasName]
  | .unnest .. => before

namespace QueryBlock

/-- The aliases that a selection binds, in order. -/
def aliases (b : QueryBlock) : List String := b.source.aliasName :: b.terms.map Term.aliasName

/-- A selection binds different aliases, and refers to no others.  A term refers to those that are
bound before it, and to its own one if it is a join. -/
structure IsHygienic (b : QueryBlock) : Prop where
  nodup : b.aliases.Nodup
  terms : ∀ before t after, b.terms = before ++ t :: after →
    t.expression.RefersOnlyTo (t.visible (b.source.aliasName :: before.map Term.aliasName))
  clauses : ∀ e ∈ b.clauses.expressions, e.RefersOnlyTo b.aliases

end QueryBlock

/-- All selections of a statement are hygienic. -/
def Statement.IsHygienic (s : Statement) : Prop := ∀ b ∈ s.blocks, b.IsHygienic

namespace Expression.RefersOnlyTo

variable {aliases aliases' : List String} {e : Expression} {name : String}

lemma mono (h : e.RefersOnlyTo aliases) (hsub : aliases ⊆ aliases') : e.RefersOnlyTo aliases' :=
  fun name hname => hsub (h name hname)

lemma ident (h : name ∈ aliases) : (Expression.ident name).RefersOnlyTo aliases := by
  intro name' hname'
  cases isPartOf_ident.1 hname'
  exact h

/-- Only identifiers refer to aliases; all other expressions refer to what their parts refer to. -/
lemma of_children (hident : ∀ name, e ≠ .ident name)
    (h : ∀ c ∈ e.children, c.RefersOnlyTo aliases) : e.RefersOnlyTo aliases := by
  intro name hname
  rcases isPartOf_iff.1 hname with heq | ⟨c, hc, hname⟩
  · exact absurd heq.symm (hident name)
  · exact h c hc name hname

lemma aggregate (function : Aggregate) (distinct : Bool) (h : e.RefersOnlyTo aliases) :
    (Expression.aggregate function distinct (some e)).RefersOnlyTo aliases :=
  of_children nofun (List.forall_mem_singleton.2 h)

lemma countRows : countRows.RefersOnlyTo aliases := of_children nofun (List.forall_mem_nil _)

end Expression.RefersOnlyTo

/-- Every construct hands on which aliases an expression refers to. -/
lemma Expression.closed_refersOnlyTo (aliases : List String) :
    Closed (RefersOnlyTo aliases) (fun _ => True) (fun _ _ => True) where
  field h := .of_children nofun (List.forall_mem_singleton.2 h)
  placeholder _ := .of_children nofun (List.forall_mem_nil _)
  literal := .of_children nofun (List.forall_mem_nil _)
  binary hl hr := .of_children nofun (by simp [children, hl, hr])
  not h := .of_children nofun (List.forall_mem_singleton.2 h)
  neg h := .of_children nofun (List.forall_mem_singleton.2 h)
  valued h := .of_children nofun (List.forall_mem_singleton.2 h)
  notValued h := .of_children nofun (List.forall_mem_singleton.2 h)
  inList he hlist := .of_children nofun (List.forall_mem_cons.2 ⟨he, hlist⟩)
  like he hp := .of_children nofun (by simp [children, he, hp])
  call _ hargs := .of_children nofun hargs
  caseWhen hc ht ho := .of_children nofun (by simp [children, hc, ht, ho])

/-! ## What operators add

An alias that a frame binds is kept out of what stands before it.  An operator either changes
clauses, which see all aliases, or puts a term behind the others. -/

namespace Frame

variable {f : Frame} {e : Expression}

/-- An alias that is not in use is not bound by the sources of a frame. -/
lemma notMem_aliases {aliasName : String} (h : f.takes aliasName = false) :
    aliasName ∉ f.aliases := by
  simp only [takes, Bool.or_eq_false_iff, beq_eq_false_iff_ne, List.any_eq_false, beq_iff_eq] at h
  rw [aliases, List.mem_cons, List.mem_map]
  rintro (heq | ⟨t, ht, heq⟩)
  · exact h.1.2 heq.symm
  · exact h.2 t ht heq

/-- The statement of a frame is hygienic if the statements within it are, and the frame is. -/
lemma isHygienic_finish : f.finish.IsHygienic ↔
    (⟨f.source, f.terms, f.clauses⟩ : QueryBlock).IsHygienic ∧
      (∀ b ∈ f.source.blocks, b.IsHygienic) ∧ ∀ b ∈ termBlocks f.terms, b.IsHygienic := by
  rw [Statement.IsHygienic, finish, Statement.blocks, List.forall_mem_cons, List.forall_mem_append]

/-- Clauses may be changed that refer to what the frame binds. -/
lemma hygienic_of_clauses {g : Frame} (h : f.finish.IsHygienic) (hsource : g.source = f.source)
    (hterms : g.terms = f.terms)
    (hclauses : ∀ e ∈ g.clauses.expressions, e.RefersOnlyTo f.aliases) :
    g.finish.IsHygienic := by
  obtain ⟨⟨hnodup, hvisible, -⟩, hinner⟩ := isHygienic_finish.1 h
  rw [isHygienic_finish, hsource, hterms]
  exact ⟨⟨hnodup, hvisible, hclauses⟩, hinner⟩

lemma hygienic_ofKeyspace (k : Keyspace) (entity aliasName : String) :
    (ofKeyspace k entity aliasName).finish.IsHygienic := by
  refine isHygienic_finish.2 ⟨⟨List.pairwise_singleton _ _, ?_, ?_⟩, List.forall_mem_nil _,
    List.forall_mem_nil _⟩
  · intro before t after heq
    simp [ofKeyspace] at heq
  · intro e he
    rw [List.mem_singleton.1 he]
    exact .ident (List.mem_singleton_self _)

/-- A selection over a statement reads the alias of the statement, and fields of it. -/
lemma hygienic_ofStatement {s : Statement} (hs : s.IsHygienic) (y : Yield) (aliasName : String) :
    (ofStatement s y aliasName).finish.IsHygienic := by
  have hident : (Expression.ident aliasName).RefersOnlyTo [aliasName] :=
    .ident (List.mem_singleton_self _)
  refine isHygienic_finish.2 ⟨⟨List.pairwise_singleton _ _, ?_, ?_⟩, hs, List.forall_mem_nil _⟩
  · intro before t after heq
    simp [ofStatement] at heq
  · intro e he
    have hyield : e ∈ (y.rebase aliasName).selection.expressions := by
      simpa [ofStatement, clauses, Clauses.expressions] using he
    obtain rfl | ⟨name, rfl⟩ := Yield.mem_expressions_rebase hyield
    · exact hident
    · exact (Expression.closed_refersOnlyTo _).field hident

section

variable (h : f.finish.IsHygienic)

include h

lemma refers_clauses : ∀ e ∈ f.clauses.expressions, e.RefersOnlyTo f.aliases :=
  (isHygienic_finish.1 h).1.clauses

/-- What is in scope over a frame, and what its rows hold, refers to what the frame binds. -/
lemma parts_refer (htidy : f.Tidy) : f.Parts (Expression.RefersOnlyTo f.aliases) := by
  have hyield := (Clauses.forall_mem_expressions.1 (refers_clauses h)).1
  exact ⟨fun b hb => hyield _ (Yield.base_mem_expressions (htidy.scope ▸ hb)), hyield⟩

lemma hygienic_restrict (he : e.RefersOnlyTo f.aliases) : (f.restrict e).finish.IsHygienic := by
  obtain ⟨hyield, hpredicate, hrest⟩ := Clauses.forall_mem_expressions.1 (refers_clauses h)
  refine hygienic_of_clauses h rfl rfl (Clauses.forall_mem_expressions.2 ⟨hyield, ?_, hrest⟩)
  intro e' he'
  cases Option.some.inj he'
  cases hp : f.predicate with
  | none => exact he
  | some p => exact (Expression.closed_refersOnlyTo _).binary (hpredicate p hp) he

lemma hygienic_yielding {y : Yield}
    (hy : ∀ e ∈ y.selection.expressions, e.RefersOnlyTo f.aliases) :
    (f.yielding y).finish.IsHygienic := by
  obtain ⟨-, hrest⟩ := Clauses.forall_mem_expressions.1 (refers_clauses h)
  exact hygienic_of_clauses h rfl rfl (Clauses.forall_mem_expressions.2 ⟨hy, hrest⟩)

lemma hygienic_orderedBy {keys : List OrderKey} (hkeys : ∀ k ∈ keys, k.key.RefersOnlyTo f.aliases) :
    { f with orderBy := keys }.finish.IsHygienic := by
  obtain ⟨hyield, hpredicate, hgroups, -, hrest⟩ :=
    Clauses.forall_mem_expressions.1 (refers_clauses h)
  exact hygienic_of_clauses h rfl rfl
    (Clauses.forall_mem_expressions.2 ⟨hyield, hpredicate, hgroups, hkeys, hrest⟩)

lemma hygienic_skipping (he : e.RefersOnlyTo f.aliases) :
    { f with offset := some e }.finish.IsHygienic := by
  obtain ⟨hyield, hpredicate, hgroups, horder, hlimit, -⟩ :=
    Clauses.forall_mem_expressions.1 (refers_clauses h)
  refine hygienic_of_clauses h rfl rfl (Clauses.forall_mem_expressions.2
    ⟨hyield, hpredicate, hgroups, horder, hlimit, fun e' he' => ?_⟩)
  cases Option.some.inj he'
  exact he

lemma hygienic_taking (he : e.RefersOnlyTo f.aliases) :
    { f with limit := some e }.finish.IsHygienic := by
  obtain ⟨hyield, hpredicate, hgroups, horder, -, hoffset⟩ :=
    Clauses.forall_mem_expressions.1 (refers_clauses h)
  refine hygienic_of_clauses h rfl rfl (Clauses.forall_mem_expressions.2
    ⟨hyield, hpredicate, hgroups, horder, fun e' he' => ?_, hoffset⟩)
  cases Option.some.inj he'
  exact he

lemma hygienic_grouped {keys summaries : List (String × YieldedScalar)}
    (hkeys : ∀ k ∈ keys, k.2.expression.RefersOnlyTo f.aliases)
    (hsummaries : ∀ s ∈ summaries, s.2.expression.RefersOnlyTo f.aliases) :
    (f.grouped keys summaries).finish.IsHygienic := by
  obtain ⟨-, hpredicate, -, hrest⟩ := Clauses.forall_mem_expressions.1 (refers_clauses h)
  refine hygienic_of_clauses h rfl rfl
    (Clauses.forall_mem_expressions.2 ⟨?_, hpredicate, List.forall_mem_map.2 hkeys, hrest⟩)
  intro e he
  simp only [clauses, grouped, Yield.selection, Selection.expressions, List.map_map,
    List.mem_map] at he
  obtain ⟨s, hs, rfl⟩ := he
  exact (List.mem_append.1 hs).elim (hkeys s) (hsummaries s)

lemma hygienic_concluded {s : YieldedScalar} (hs : s.expression.RefersOnlyTo f.aliases) :
    (f.concluded s).finish.IsHygienic := by
  obtain ⟨-, hpredicate, hgroups, -, hrest⟩ := Clauses.forall_mem_expressions.1 (refers_clauses h)
  exact hygienic_of_clauses h rfl rfl (Clauses.forall_mem_expressions.2
    ⟨List.forall_mem_singleton.2 hs, hpredicate, hgroups, List.forall_mem_nil _, hrest⟩)

/-- A term that binds a new alias is put behind the others, which see what they saw before. -/
lemma hygienic_extend {fields : List (String × FieldYield)} {t : Term} {b : Binding}
    (hfields : f.yield.scopeFields? = some fields) (hfresh : f.takes t.aliasName = false)
    (hblocks : ∀ b ∈ t.blocks, b.IsHygienic) (ht : t.expression.RefersOnlyTo (t.visible f.aliases))
    (hb : b.base = .ident t.aliasName) : (f.extend fields t b).finish.IsHygienic := by
  obtain ⟨⟨hnodup, hvisible, hclauses⟩, hsource, hterms⟩ := isHygienic_finish.1 h
  have hmono : f.aliases ⊆ f.aliases ++ [t.aliasName] := List.subset_append_left _ _
  have haliases : (f.extend fields t b).aliases = f.aliases ++ [t.aliasName] := by
    simp [aliases, extend]
  refine isHygienic_finish.2 ⟨⟨?_, ?_, ?_⟩, hsource, ?_⟩
  · change (f.extend fields t b).aliases.Nodup
    rw [haliases]
    exact (List.perm_append_singleton _ _).nodup_iff.2
      (List.nodup_cons.2 ⟨notMem_aliases hfresh, hnodup⟩)
  · intro before t' after heq
    obtain rfl | ⟨after, last, rfl⟩ := List.eq_nil_or_concat' after
    · obtain ⟨rfl, hlast⟩ := List.append_inj' heq rfl
      cases hlast
      exact ht
    · rw [← List.cons_append, ← List.append_assoc] at heq
      exact hvisible before t' after (List.append_inj' heq rfl).1
  · change ∀ e ∈ (f.extend fields t b).clauses.expressions,
      e.RefersOnlyTo (f.extend fields t b).aliases
    rw [haliases]
    have hbase : b.base.RefersOnlyTo (f.aliases ++ [t.aliasName]) := by
      rw [hb]
      exact .ident (List.mem_append_right _ (List.mem_singleton_self _))
    obtain ⟨hyield, hrest⟩ :=
      Clauses.forall_mem_expressions.1 fun e he => (hclauses e he).mono hmono
    refine Clauses.forall_mem_expressions.2 ⟨?_, hrest⟩
    rw [clauses, extend, Yield.expressions_scopeFields hfields]
    exact List.forall_mem_append.2 ⟨hyield, List.forall_mem_singleton.2 hbase⟩
  · rw [extend, termBlocks_append, List.forall_mem_append]
    exact ⟨hterms, by simpa [termBlocks] using hblocks⟩

end

end Frame

namespace Stage

variable {s : Stage} {closed : Frame → Bool} {f : Frame}

/-- A frame that is entered is hygienic: it is that of the stage, or one over its statement. -/
lemma Enters.hygienic (henter : s.Enters closed f) (h : s.statement.IsHygienic) :
    f.finish.IsHygienic := by
  cases henter with
  | kept => exact h
  | nested => exact Frame.hygienic_ofStatement h _ _
  | compound => exact Frame.hygienic_ofStatement h _ _

/-- The source that a stage is has selections of the stage only. -/
lemma hygienic_sourceAs (h : s.statement.IsHygienic) (aliasName : String) :
    ∀ b ∈ (s.sourceAs aliasName).blocks, b.IsHygienic := by
  simp only [sourceAs]
  split
  · exact List.forall_mem_nil _
  · exact h

end Stage

/-! ## Each stage that is reached

The aliases that are made up for sources may be the same as in another selection.  What counts is
that in each selection by itself they differ, and this is what the induction carries. -/

namespace Translator

variable {tr : Translator} {frame : Frame}

/-- What is translated over a frame refers to what the frame binds. -/
lemma refers_expression (h : frame.finish.IsHygienic) (htidy : frame.Tidy) (n : Nat) (f : Formula) :
    (tr.expression frame n f).RefersOnlyTo frame.aliases :=
  expression_of_closed (Expression.closed_refersOnlyTo _) (fun _ _ _ => trivial)
    (Frame.parts_refer h htidy) f n (fun _ _ => trivial) (.inr fun _ _ => trivial)

/-- The term of a correlated navigation refers to its source, and by a condition to itself. -/
lemma refers_correlated {aliases : List String} {c : Correlation} {source : Binding} {t : Term}
    (hsource : source.base.RefersOnlyTo aliases) (ht : tr.correlated c source = some t) :
    t.aliasName = c.aliasName ∧ t.blocks = [] ∧ t.expression.RefersOnlyTo (t.visible aliases) := by
  rw [correlated] at ht
  cases hkind : c.kind with
  | unnest path =>
      rw [hkind] at ht
      cases ht
      exact ⟨rfl, rfl, (Expression.closed_refersOnlyTo _).path hsource _⟩
  | lookup sourceField targetField =>
      simp only [hkind, Option.map_eq_some_iff] at ht
      obtain ⟨k, -, rfl⟩ := ht
      have hclosed := Expression.closed_refersOnlyTo (aliases ++ [c.aliasName])
      refine ⟨rfl, rfl, hclosed.binary (hclosed.path ?_ _) (hclosed.path ?_ _)⟩
      · exact .ident (List.mem_append_right _ (List.mem_singleton_self _))
      · exact hsource.mono (List.subset_append_left _ _)

/-- A terminal adds at most a condition, and its scalar counts rows or aggregates a formula. -/
lemma Concludes.hygienic {n m : Nat} {terminal : Terminal} {arg : Option Formula} {frame' : Frame}
    {s : YieldedScalar} (h : frame.finish.IsHygienic) (htidy : frame.Tidy)
    (hterminal : Concludes tr frame n terminal arg frame' s m) :
    (frame'.concluded s).finish.IsHygienic := by
  have hclosed := Expression.closed_refersOnlyTo frame.aliases
  have hcompared : ∀ op, (comparedCount op).RefersOnlyTo frame.aliases := fun op =>
    hclosed.binary .countRows hclosed.literal
  cases hterminal with
  | summary =>
      exact Frame.hygienic_concluded h (.aggregate _ _ (refers_expression h htidy _ _))
  | count => exact Frame.hygienic_concluded h .countRows
  | any => exact Frame.hygienic_concluded h (hcompared _)
  | @all f =>
      have hviolation : (violation (tr.expression frame n f)).RefersOnlyTo frame.aliases := by
        refine hclosed.not (hclosed.call trivial (List.forall_mem_cons.2 ⟨?_, ?_⟩))
        · exact refers_expression h htidy _ _
        · exact List.forall_mem_singleton.2 hclosed.literal
      exact Frame.hygienic_concluded (Frame.hygienic_restrict h hviolation) (hcompared _)

/-- **Each operator keeps identifiers behind what binds them**, whichever aliases are made up. -/
theorem Lowered.hygienic {n m : Nat} {q : Query} {s : Stage} (h : Lowered tr n q s m) :
    s.statement.IsHygienic := by
  induction h with
  | source => exact Frame.hygienic_ofKeyspace _ _ _
  | filter hinput henter ih =>
      have hframe := henter.hygienic ih
      exact Frame.hygienic_restrict hframe (refers_expression hframe (hinput.tidy.enter henter) _ _)
  | project hinput henter ih =>
      have hframe := henter.hygienic ih
      have hparts := Frame.parts_refer hframe (hinput.tidy.enter henter)
      exact Frame.hygienic_yielding hframe (projectedYield_of_closed
        (Expression.closed_refersOnlyTo _) (fun _ _ _ => trivial) hparts _ _ (fun _ _ => trivial)
        (.inr fun _ _ => trivial))
  | orderBy hinput henter ih =>
      have hframe := henter.hygienic ih
      exact Frame.hygienic_orderedBy hframe (List.forall_mem_singleton.2
        (refers_expression hframe (hinput.tidy.enter henter) _ _))
  | @thenBy n m input descending frame key hinput _ _ ih =>
      have hframe : frame.finish.IsHygienic := ih
      have horder : ∀ k ∈ frame.orderBy, k.key.RefersOnlyTo frame.aliases :=
        (Clauses.forall_mem_expressions.1 (Frame.refers_clauses hframe)).2.2.2.1
      exact Frame.hygienic_orderedBy hframe (List.forall_mem_append.2
        ⟨horder, List.forall_mem_singleton.2 (refers_expression hframe hinput.tidy _ _)⟩)
  | groupBy hinput henter _ ih =>
      have hframe := henter.hygienic ih
      have hparts := Frame.parts_refer hframe (hinput.tidy.enter henter)
      refine Frame.hygienic_grouped hframe ?_ fun s hs => ?_
      · exact groupKeys_of_closed (Expression.closed_refersOnlyTo _) (fun _ _ _ => trivial) hparts
          _ _ (fun _ _ => trivial) (.inr fun _ _ => trivial)
      · obtain hs | ⟨function, distinct, e, hs, he⟩ := groupSummaries_of_closed
          (Expression.closed_refersOnlyTo _) (fun _ _ _ => trivial) hparts _ _ (fun _ _ => trivial)
          (.inr fun _ _ => trivial) s hs
        · rw [hs]
          exact .countRows
        · rw [hs]
          exact .aggregate function distinct he
  | @join n n₁ n₂ kind matching left right ls rs frame fields b b' leftKey rightKey _ hleft _ henter
      hfields _ hfresh hb ihl ihr =>
      have hframe := henter.hygienic ihl
      have hparts := Frame.parts_refer hframe (hleft.tidy.enter henter)
      have hbase : b'.base = .ident b.aliasName := hb ▸ rfl
      have halias : (rs.sourceAs b.aliasName).aliasName = b.aliasName := rs.aliasName_sourceAs _
      have hcondition : (tr.joinCondition frame n₂ b' leftKey rightKey).RefersOnlyTo
          (frame.aliases ++ [b.aliasName]) := by
        refine joinCondition_of_closed (Expression.closed_refersOnlyTo _) (fun _ _ _ => trivial)
          (hparts.imp fun e he => he.mono (List.subset_append_left _ _)) ?_ (fun _ _ => trivial)
          (.inr fun _ _ => trivial)
        rw [hbase]
        exact .ident (List.mem_append_right _ (List.mem_singleton_self _))
      refine Frame.hygienic_extend hframe hfields ?_ (Stage.hygienic_sourceAs ihr _) ?_ ?_
      · rwa [Term.aliasName, halias]
      · rwa [Term.visible, halias]
      · rw [Term.aliasName, halias, hbase]
  | correlate hinput henter hfields hsource hfresh hterm ih =>
      have hframe := henter.hygienic ih
      have hparts := Frame.parts_refer hframe (hinput.tidy.enter henter)
      obtain ⟨halias, hblocks, hrefers⟩ :=
        refers_correlated (hparts.scope _ (List.mem_of_find?_eq_some hsource)) hterm
      refine Frame.hygienic_extend hframe hfields (halias ▸ hfresh) ?_ hrefers (by rw [halias])
      rw [hblocks]
      exact List.forall_mem_nil _
  | skip hinput henter ih =>
      have hframe := henter.hygienic ih
      exact Frame.hygienic_skipping hframe
        (refers_expression hframe (hinput.tidy.enter henter) _ _)
  | take hinput henter ih =>
      have hframe := henter.hygienic ih
      exact Frame.hygienic_taking hframe (refers_expression hframe (hinput.tidy.enter henter) _ _)
  | @distinct n m input s frame _ henter ih =>
      have hframe : frame.finish.IsHygienic := henter.hygienic ih
      have hclauses : ∀ e ∈ frame.clauses.expressions, e.RefersOnlyTo frame.aliases :=
        Frame.refers_clauses hframe
      exact Frame.hygienic_of_clauses hframe rfl rfl hclauses
  | combine _ _ _ ihl ihr => exact List.forall_mem_append.2 ⟨ihl, ihr⟩
  | conclude hinput henter hterminal ih =>
      exact hterminal.hygienic (henter.hygienic ih) (hinput.tidy.enter henter)

end Translator

/-- **Aliases are hygienic.**  In every selection of a translated statement, at any depth, the
aliases of the sources are different, a term refers to aliases that are bound up to it, and the
clauses refer to aliases of the selection; whichever aliases the query names, and so also if these
are like those that the translation makes up. -/
theorem aliases_hygienic {tr : Translator} {q : Query} {t : Translation}
    (h : tr.translate q = .ok t) : ∀ b ∈ t.query.statement.blocks, b.IsHygienic := by
  obtain ⟨stage, progress, hstage, hquery, -⟩ := Translator.translate_eq_ok h
  rw [hquery]
  exact (Translator.stage_eq_ok hstage).1.hygienic

namespace Sample

/-- The first person of a query. -/
def firstOf (q : Query) : Query := .take q (.ofValue (.int64 1))

/-- The first person, joined with the persons of the same age, of which the first pair is taken if
its age is known.  The query names its sources like those that are made up. -/
def confusing : Query :=
  .filter
    (firstOf (.join .inner (.distinct (firstOf (.source "Person" "t2"))) (.source "Person" "t3")
      (ageOf "t2") (ageOf "t3")))
    (.isNotNull (ageOf "t2"))

end Sample

/-- Both aliases of the query are made up a second time, and bound in other selections. -/
theorem aliases_hygienic_confusing : ∃ t, Sample.translator.translate Sample.confusing = .ok t ∧
    t.query.statement.blocks.map QueryBlock.aliases = [["t3"], ["t2", "t3"], ["t1"], ["t2"]] ∧
    ∀ b ∈ t.query.statement.blocks, b.IsHygienic := by
  have hrun : (Sample.translator.translate Sample.confusing).map
      (fun t => t.query.statement.blocks.map QueryBlock.aliases) =
        .ok [["t3"], ["t2", "t3"], ["t1"], ["t2"]] := rfl
  obtain ⟨t, ht, haliases⟩ := Computation.map_eq_ok.1 hrun
  exact ⟨t, ht, haliases, aliases_hygienic ht⟩

end EntityQuery
