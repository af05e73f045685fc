import EntityQuery.Proofs.Evaluation.Safety
import EntityQuery.Proofs.Evaluation.Selection

/-!
# Statements that do not go wrong

A statement is safe if its sources, its terms and its clauses are: each of them uses only the
aliases that are bound before it.  Every step of the evaluation hands on that the rows bind the
aliases.

* `Statement.Safe`: what the evaluation of a statement relies on.
* `Statement.blocks`: the selections of a statement, at any depth.
* `Statement.Collated.sortsByOrders`: a statement whose keys are collated sorts by orders only.
* `Clauses.run_sound`: safe clauses are sound on rows that bind their aliases.
* `Statement.run_sound`: a safe statement over keyspaces that exist is sound.
-/

namespace EntityQuery

/-! ## Safe statements

What is asked of a statement follows its structure.  Terms stand one behind the other, so that each
sees the aliases of those before it; a source that is a statement sees none of the aliases around
it. -/

/-- What the evaluation of clauses relies on: their expressions are safe, and there are no
aggregates where there is no group. -/
structure Clauses.Safe (names aliases : List String) (c : Clauses) : Prop where
  expressions : ∀ e ∈ c.expressions, e.Safe names aliases
  predicate : ∀ e ∈ c.predicate, e.Plain
  groupBy : ∀ e ∈ c.groupBy, e.Plain
  offset : ∀ e ∈ c.offset, e.Plain
  limit : ∀ e ∈ c.limit, e.Plain

mutual

/-- What the evaluation of a statement relies on. -/
def Statement.Safe (names : List String) : Statement → Prop
  | .select source terms clauses =>
    source.Safe names ∧ TermsSafe names [source.aliasName] terms ∧
      clauses.Safe names (source.aliasName :: terms.map Term.aliasName)
  | .compound _ left right => left.Safe names ∧ right.Safe names

/-- What the evaluation of a source relies on. -/
def Source.Safe (names : List String) : Source → Prop
  | .keyspace .. => True
  | .statement s _ => s.Safe names

/-- What the evaluation of a term relies on. -/
def Term.Safe (names aliases : List String) : Term → Prop
  | .join _ source condition =>
    source.Safe names ∧ condition.Safe names (aliases ++ [source.aliasName]) ∧ condition.Plain
  | .unnest _ array _ => array.Safe names aliases ∧ array.Plain

/-- What the evaluation of several terms relies on; each one sees the aliases before it. -/
def TermsSafe (names aliases : List String) : List Term → Prop
  | [] => True
  | t :: ts => t.Safe names aliases ∧ TermsSafe names (aliases ++ [t.aliasName]) ts

end

/-- Terms are safe if the first ones are, and the last one behind them. -/
lemma termsSafe_append {names aliases : List String} {ts : List Term} {t : Term} :
    TermsSafe names aliases (ts ++ [t]) ↔
      TermsSafe names aliases ts ∧ t.Safe names (aliases ++ ts.map Term.aliasName) := by
  induction ts generalizing aliases with
  | nil => simp [TermsSafe]
  | cons t' ts ih =>
      rw [List.cons_append, TermsSafe, TermsSafe, ih, List.map_cons, and_assoc,
        List.append_assoc, List.singleton_append]

/-! ## Selections and what they sort

A statement holds selections at any depth, and each of them may order what it selects.  Sorting asks
for an order: by a comparison that is none it may come to any arrangement, or to none at all.  The
collation is no order of all values (see `collateDatum_preorder`), so it is asked of the values that
occur as keys. -/

/-- A selection in a statement. -/
structure QueryBlock where
  source : Source
  terms : List Term
  clauses : Clauses

mutual

/-- The selections of a statement, at any depth. -/
def Statement.blocks : Statement → List QueryBlock
  | .select source terms clauses => ⟨source, terms, clauses⟩ :: (source.blocks ++ termBlocks terms)
  | .compound _ left right => left.blocks ++ right.blocks

/-- The selections of the statement of a source. -/
def Source.blocks : Source → List QueryBlock
  | .keyspace .. => []
  | .statement s _ => s.blocks

/-- The selections of the statement of a term. -/
def Term.blocks : Term → List QueryBlock
  | .join _ source _ => source.blocks
  | .unnest .. => []

/-- The selections of the statements of several terms. -/
def termBlocks : List Term → List QueryBlock
  | [] => []
  | t :: ts => t.blocks ++ termBlocks ts

end

lemma termBlocks_append (ts us : List Term) :
    termBlocks (ts ++ us) = termBlocks ts ++ termBlocks us := by
  induction ts with
  | nil => rfl
  | cons t ts ih => rw [List.cons_append, termBlocks, termBlocks, ih, List.append_assoc]

/-- A selection that runs puts scopes into an order. -/
def QueryBlock.Arranges (env : Environment) (b : QueryBlock) (scopes : List Scope) : Prop :=
  ∃ documents rows kept, b.source.run env = .ok documents ∧
    runTerms env b.terms (documents.map (Row.single b.source.aliasName)) = .ok rows ∧
    b.clauses.kept env rows = .ok kept ∧ b.clauses.scopes env kept = .ok scopes

/-- The collation orders the values that each key of an ordering has, at any depth. -/
def Statement.Collated (env : Environment) (s : Statement) : Prop :=
  ∀ b ∈ s.blocks, ∀ scopes, b.Arranges env scopes → b.clauses.Collated env scopes

/-- Whatever a statement sorts, at any depth, it compares by an order. -/
def Statement.SortsByOrders (env : Environment) (s : Statement) : Prop :=
  ∀ b ∈ s.blocks, ∀ scopes keyed, b.Arranges env scopes → b.clauses.keyed env scopes = .ok keyed →
    Std.TransCmp fun a b' : { k // k ∈ keyed } => compareKeys b.clauses.orderBy a.1.1 b'.1.1

/-- **A statement whose keys are collated sorts by orders only.** -/
theorem Statement.Collated.sortsByOrders {env : Environment} {s : Statement}
    (h : s.Collated env) : s.SortsByOrders env :=
  fun b hb scopes _ hscopes hkeyed => Clauses.transCmp_keyed hkeyed (h b hb scopes hscopes)

/-! ## Rows -/

namespace Row

variable {aliases : List String}

@[simp] lemma find?_bind_self (row : Row) (aliasName : String) (d : Datum) :
    (row.bind aliasName d).find? aliasName = some d := by
  simp [bind, find?]

lemma find?_bind_of_ne {row : Row} {aliasName other : String} {d : Datum} (h : aliasName ≠ other) :
    (row.bind aliasName d).find? other = row.find? other := by
  simp [bind, find?, h]

/-- A row that binds one more alias covers it. -/
lemma covers_bind {row : Row} {aliasName : String} {d : Datum}
    (h : ∀ a ∈ aliases, (row.find? a).isSome = true) :
    ∀ a ∈ aliases ++ [aliasName], ((row.bind aliasName d).find? a).isSome = true := by
  intro a ha
  by_cases heq : aliasName = a
  · rw [heq, find?_bind_self]
    rfl
  · rw [find?_bind_of_ne heq]
    rcases List.mem_append.1 ha with ha | ha
    · exact h a ha
    · exact absurd (List.mem_singleton.1 ha).symm heq

lemma covers_single (aliasName : String) (d : Document) :
    ∀ a ∈ [aliasName], ((single aliasName d).find? a).isSome = true := by
  intro a ha
  rw [List.mem_singleton.1 ha, single, find?_bind_self]
  rfl

end Row

/-- Rows that bind aliases. -/
def AllBind (aliases : List String) (rows : List Row) : Prop :=
  ∀ row ∈ rows, ∀ a ∈ aliases, (row.find? a).isSome = true

lemma AllBind.covers {aliases : List String} {rows : List Row} (h : AllBind aliases rows) :
    ∀ row ∈ rows, row.Covers aliases :=
  fun row hrow => .inr (h row hrow)

lemma Row.covers_empty (aliases : List String) : Row.empty.Covers aliases := .inl rfl

/-! ## Groups

A group of rows is the one case in which an aggregate may be evaluated.  The rows of a group are
among those that were grouped, and so bind what these bind. -/

lemma mem_addToGroup {key : String} {row : Row} {gs : List KeyedGroup} :
    ∀ g ∈ addToGroup key row gs, ∀ r ∈ g.2, r = row ∨ ∃ g' ∈ gs, r ∈ g'.2 := by
  induction gs with
  | nil =>
      intro g hg r hr
      rw [addToGroup, List.mem_singleton] at hg
      rw [hg, List.mem_singleton] at hr
      exact .inl hr
  | cons g₀ gs ih =>
      intro g hg r hr
      rw [addToGroup] at hg
      split at hg
      · rcases List.mem_cons.1 hg with rfl | hg
        · rcases List.mem_cons.1 hr with rfl | hr
          · exact .inl rfl
          · exact .inr ⟨g₀, List.mem_cons_self, hr⟩
        · exact .inr ⟨g, List.mem_cons_of_mem _ hg, hr⟩
      · rcases List.mem_cons.1 hg with rfl | hg
        · exact .inr ⟨_, List.mem_cons_self, hr⟩
        · rcases ih g hg r hr with h | ⟨g', hg', h⟩
          · exact .inl h
          · exact .inr ⟨g', List.mem_cons_of_mem _ hg', h⟩

/-- The rows of groups are rows that were grouped. -/
lemma mem_foldl_addToGroup (keyed : List (String × Row)) (gs : List KeyedGroup) :
    ∀ g ∈ keyed.foldl (fun groups (key, row) => addToGroup key row groups) gs, ∀ r ∈ g.2,
      r ∈ keyed.map Prod.snd ∨ ∃ g' ∈ gs, r ∈ g'.2 := by
  induction keyed generalizing gs with
  | nil => exact fun g hg r hr => .inr ⟨g, hg, hr⟩
  | cons k keyed ih =>
      intro g hg r hr
      rcases ih _ g hg r hr with h | ⟨g', hg', h⟩
      · exact .inl (List.mem_cons_of_mem _ h)
      · rcases mem_addToGroup g' hg' r h with rfl | h
        · exact .inl List.mem_cons_self
        · exact .inr h

/-- The scopes of groups support what their rows do. -/
lemma supports_groupsOf {aliases : List String} {keyed : List (String × Row)} {grouped : Prop}
    (h : ∀ row ∈ keyed.map Prod.snd, row.Covers aliases) :
    ∀ scope ∈ groupsOf keyed, scope.Supports aliases grouped := by
  intro scope hscope
  obtain ⟨g, hg, rfl⟩ := List.mem_map.1 hscope
  have hrows : ∀ row ∈ g.2, row.Covers aliases := by
    intro row hrow
    rcases mem_foldl_addToGroup keyed [] g hg row hrow with hmem | ⟨g', hg', -⟩
    · exact h row hmem
    · cases hg'
  refine ⟨?_, fun _ => ⟨_, rfl, fun row hrow => hrows row (List.mem_reverse.1 hrow)⟩⟩
  rw [scopeOfGroup]
  cases hlast : g.2.getLast? with
  | none => exact Row.covers_empty _
  | some row => exact hrows row (List.mem_of_getLast? hlast)

/-! ## Clauses

The clauses hand rows and scopes from step to step.  Before they are folded into groups, only
expressions without aggregates are evaluated; behind that, every scope has the rows of its group if
the selection needs one. -/

namespace Clauses

variable {env : Environment} {names aliases : List String} {c : Clauses}

/-- A scope that supports a folded selection supports each of its expressions. -/
lemma aggregating_of_hasAggregate {e : Expression}
    (he : e ∈ c.selection.expressions ∨ e ∈ c.orderBy.map OrderKey.key)
    (haggregate : e.hasAggregate = true) : c.isAggregating = true := by
  by_contra hnot
  simp only [isAggregating, Bool.or_eq_true, not_or, Bool.not_eq_true] at hnot
  obtain ⟨⟨-, hselection⟩, horder⟩ := hnot
  have hplain : e.Plain := by
    rcases he with he | he
    · exact Expression.anyAggregate_eq_false.1 hselection e he
    · exact Expression.anyAggregate_eq_false.1 horder e he
  rw [hplain] at haggregate
  cases haggregate

/-- An expression without aggregates is sound on a row. -/
lemma eval_sound_of_plain (hnames : env.Binds names) {e : Expression}
    (hsafe : e.Safe names aliases) (hplain : e.Plain) {row : Row} (hrow : row.Covers aliases) :
    Sound (e.eval env (.ofRow row)) := by
  refine e.eval_sound hnames _ hsafe ⟨hrow, fun h => ?_⟩
  rw [hplain] at h
  cases h

lemma rowCount_sound (hnames : env.Binds names) {e : Expression} (hsafe : e.Safe names aliases)
    (hplain : e.Plain) (clause : String) : Sound (e.rowCount env clause) := by
  refine (eval_sound_of_plain hnames hsafe hplain (Row.covers_empty _)).bind fun d _ => ?_
  intro error herror
  split at herror
  · split at herror
    · cases herror
    · cases herror
      trivial
  · cases herror
    trivial

lemma kept_sound (hnames : env.Binds names) (h : c.Safe names aliases) {rows : List Row}
    (hrows : ∀ row ∈ rows, row.Covers aliases) : Sound (c.kept env rows) := by
  rw [kept]
  cases hp : c.predicate with
  | none => exact .ok _
  | some e =>
      refine .keepWhere fun row hrow => ?_
      refine (eval_sound_of_plain hnames (h.expressions e ?_) (h.predicate e hp)
        (hrows row hrow)).bind fun _ _ => .ok _
      simp [expressions, hp]

lemma mem_of_kept {rows rows' : List Row} (h : c.kept env rows = .ok rows') :
    ∀ row ∈ rows', row ∈ rows := by
  rw [kept] at h
  cases hp : c.predicate with
  | none =>
      rw [hp] at h
      cases h
      exact fun _ h => h
  | some e =>
      rw [hp] at h
      exact mem_of_keepWhere h

/-- The scopes of a selection support its expressions. -/
lemma scopes_sound (hnames : env.Binds names) (h : c.Safe names aliases) {rows : List Row}
    (hrows : ∀ row ∈ rows, row.Covers aliases) :
    Sound (c.scopes env rows) ∧ ∀ scopes, c.scopes env rows = .ok scopes →
      ∀ scope ∈ scopes, scope.Supports aliases (c.isAggregating = true) := by
  rw [Clauses.scopes]
  cases haggregating : c.isAggregating with
  | false =>
      refine ⟨.ok _, ?_⟩
      intro scopes hscopes scope hscope
      cases hscopes
      obtain ⟨row, hrow, rfl⟩ := List.mem_map.1 hscope
      exact ⟨hrows row hrow, fun h => by cases h⟩
  | true =>
      simp only [Bool.not_true, Bool.false_eq_true, if_false]
      split
      · refine ⟨.ok _, ?_⟩
        intro scopes hscopes scope hscope
        cases hscopes
        rw [List.mem_singleton.1 hscope]
        refine ⟨?_, fun _ => ⟨rows, rfl, hrows⟩⟩
        cases hhead : rows.head? with
        | none => exact Row.covers_empty _
        | some row => exact hrows row (List.mem_of_head? hhead)
      · have hkeys : ∀ row ∈ rows, Sound (evalList env c.groupBy (.ofRow row)) := by
          intro row hrow
          refine evalList_sound hnames _ _ (Expression.allSafe_iff.2 fun e he => ?_)
            ⟨hrows row hrow, fun haggregate => ?_⟩
          · exact h.expressions e (by simp [expressions, he])
          · rw [Expression.anyAggregate_eq_false.2 h.groupBy] at haggregate
            cases haggregate
        constructor
        · refine (Computation.FailsOnly.mapM fun row hrow => ?_).bind fun _ _ => .ok _
          exact (hkeys row hrow).bind fun _ _ => .ok _
        · intro scopes hscopes
          obtain ⟨keyed, hkeyed, hscopes⟩ := Computation.bind_eq_ok.1 hscopes
          cases hscopes
          refine supports_groupsOf fun row hrow => hrows row ?_
          have hmap : keyed.map Prod.snd = rows := by
            refine Computation.map_eq_of_mapM (fun row k hk => ?_) hkeyed
            obtain ⟨keys, -, hk⟩ := Computation.bind_eq_ok.1 hk
            cases hk
            rfl
          rwa [hmap] at hrow

lemma ordered_sound (hnames : env.Binds names) (h : c.Safe names aliases) {scopes : List Scope}
    (hscopes : ∀ scope ∈ scopes, scope.Supports aliases (c.isAggregating = true)) :
    Sound (c.ordered env scopes) := by
  rw [ordered]
  split
  · exact .ok _
  · refine (Computation.FailsOnly.mapM fun scope hscope => ?_).bind fun _ _ => .ok _
    refine Computation.FailsOnly.bind ?_ fun _ _ => .ok _
    refine evalList_sound hnames _ _ (Expression.allSafe_iff.2 fun e he => ?_)
      ((hscopes scope hscope).imp fun haggregate => ?_)
    · refine h.expressions e ?_
      simp only [expressions, List.mem_append]
      exact .inl (.inl (.inr he))
    · by_contra hnot
      rw [Expression.anyAggregate_eq_false.2 fun e he => ?_] at haggregate
      · cases haggregate
      · cases hplain : e.hasAggregate with
        | false => exact hplain
        | true => exact absurd (aggregating_of_hasAggregate (.inr he) hplain) hnot

lemma projectItems_sound (hnames : env.Binds names) {scope : Scope}
    (items : List (Expression × String)) (fields : Fields)
    (h : ∀ item ∈ items, item.1.Safe names aliases ∧
      scope.Supports aliases (item.1.hasAggregate = true)) :
    Sound (projectItems env scope items fields) := by
  induction items generalizing fields with
  | nil => exact .ok _
  | cons item items ih =>
      obtain ⟨hsafe, hscope⟩ := h item List.mem_cons_self
      have hrest := fun fields => ih fields fun i hi => h i (List.mem_cons_of_mem _ hi)
      refine (item.1.eval_sound hnames scope hsafe hscope).bind fun d _ => ?_
      split
      · exact hrest _
      · exact hrest _

lemma project_sound (hnames : env.Binds names) (h : c.Safe names aliases) {scope : Scope}
    (hscope : scope.Supports aliases (c.isAggregating = true)) :
    Sound (c.selection.project env scope) := by
  have hexpression : ∀ e ∈ c.selection.expressions, e.Safe names aliases ∧
      scope.Supports aliases (e.hasAggregate = true) := by
    intro e he
    refine ⟨h.expressions e ?_, hscope.imp (aggregating_of_hasAggregate (.inl he))⟩
    simp only [expressions, List.mem_append]
    exact .inl (.inl (.inl (.inl (.inl he))))
  simp only [Selection.project]
  cases hs : c.selection with
  | raw e =>
      rw [hs] at hexpression
      obtain ⟨hsafe, hsupports⟩ := hexpression e (List.mem_singleton_self e)
      exact e.eval_sound hnames scope hsafe hsupports
  | items list =>
      rw [hs] at hexpression
      have hitems : ∀ item ∈ list, item.1.Safe names aliases ∧
          scope.Supports aliases (item.1.hasAggregate = true) :=
        fun item hitem => hexpression item.1 (List.mem_map.2 ⟨item, hitem, rfl⟩)
      exact (projectItems_sound hnames list [] hitems).map _

lemma page_sound (hnames : env.Binds names) (h : c.Safe names aliases) (rows : List Document) :
    Sound (c.page env rows) := by
  have hskipped : Sound (c.skipped env) := by
    rw [skipped]
    cases ho : c.offset with
    | none => exact .ok _
    | some e =>
        refine rowCount_sound hnames (h.expressions e ?_) (h.offset e ho) _
        simp [expressions, ho]
  have hlimited : ∀ rows, Sound (c.limited env rows) := by
    intro rows
    rw [limited]
    cases hl : c.limit with
    | none => exact .ok _
    | some e =>
        refine (rowCount_sound hnames (h.expressions e ?_) (h.limit e hl) _).bind fun _ _ => .ok _
        simp [expressions, hl]
  rw [page_eq]
  exact hskipped.bind fun _ _ => hlimited _

/-- **Safe clauses are sound** on rows that bind their aliases. -/
theorem run_sound (hnames : env.Binds names) (h : c.Safe names aliases) {rows : List Row}
    (hrows : ∀ row ∈ rows, row.Covers aliases) : Sound (c.run env rows) := by
  refine (kept_sound hnames h hrows).bind fun kept hkept => ?_
  have hcovers : ∀ row ∈ kept, row.Covers aliases :=
    fun row hrow => hrows row (mem_of_kept hkept row hrow)
  obtain ⟨hsound, hsupports⟩ := scopes_sound hnames h hcovers
  refine hsound.bind fun scopes hscopes => ?_
  refine (ordered_sound hnames h (hsupports scopes hscopes)).bind fun sorted hsorted => ?_
  refine (Computation.FailsOnly.mapM fun scope hscope => ?_).bind fun _ _ => page_sound hnames h _
  exact project_sound hnames h (hsupports scopes hscopes scope ((ordered_perm hsorted).mem_iff.1 hscope))

end Clauses

/-! ## Statements

Terms extend the rows, and each of them adds its alias to those that the rows bind.  The induction
is on statements, sources and terms at once. -/

section Statements

variable {env : Environment} {names : List String}

/-- The rows of a join bind its alias in addition. -/
lemma allBind_joinRow {aliases : List String} {matching : Matching} {aliasName : String}
    {condition : Expression} {documents : List Document} {row : Row} {rows : List Row}
    (hrow : ∀ a ∈ aliases, (row.find? a).isSome = true)
    (h : joinRow env matching aliasName condition documents row = .ok rows) :
    AllBind (aliases ++ [aliasName]) rows := by
  obtain ⟨matched, hmatched, h⟩ := Computation.bind_eq_ok.1 h
  cases h
  intro r hr
  split at hr
  · rw [List.mem_singleton.1 hr]
    exact Row.covers_bind hrow
  · obtain ⟨d, -, rfl⟩ := List.mem_map.1 (mem_of_keepWhere hmatched r hr)
    exact Row.covers_bind hrow

lemma allBind_unnestRow {aliases : List String} {matching : Matching} {aliasName : String}
    {array : Expression} {row : Row} {rows : List Row}
    (hrow : ∀ a ∈ aliases, (row.find? a).isSome = true)
    (h : unnestRow env matching aliasName array row = .ok rows) :
    AllBind (aliases ++ [aliasName]) rows := by
  obtain ⟨d, -, h⟩ := Computation.bind_eq_ok.1 h
  intro r hr
  split at h
  · cases h
    obtain ⟨d, -, rfl⟩ := List.mem_map.1 hr
    exact Row.covers_bind hrow
  · cases h
    split at hr
    · rw [List.mem_singleton.1 hr]
      exact Row.covers_bind hrow
    · cases hr

/-- Rows that are made row by row bind what each of them binds. -/
lemma allBind_flatten {aliases aliases' : List String} {f : Row → Except EvalError (List Row)}
    {rows : List Row} {made : List (List Row)} (hrows : AllBind aliases rows)
    (hf : ∀ row rows', (∀ a ∈ aliases, (row.find? a).isSome = true) → f row = .ok rows' →
      AllBind aliases' rows')
    (h : rows.mapM f = .ok made) : AllBind aliases' made.flatten := by
  intro r hr
  obtain ⟨rows', hrows', hr⟩ := List.mem_flatten.1 hr
  obtain ⟨row, hrow, hmade⟩ := Computation.exists_of_mem_mapM h rows' hrows'
  exact hf row rows' (hrows row hrow) hmade r hr

/-- All keyspaces exist. -/
def Environment.Reads (env : Environment) (ks : List Keyspace) : Prop :=
  ∀ k ∈ ks, (env.collections.documents? k).isSome = true

mutual

/-- **A safe statement over keyspaces that exist is sound.** -/
theorem Statement.run_sound (hnames : env.Binds names) : (s : Statement) → s.Safe names →
    env.Reads s.reads → Sound (s.run env)
  | .select source terms clauses, ⟨hsource, hterms, hclauses⟩, hreads => by
      have hreads₁ : env.Reads source.reads :=
        fun k hk => hreads k (List.mem_append_left _ hk)
      have hreads₂ : env.Reads (termReads terms) :=
        fun k hk => hreads k (List.mem_append_right _ hk)
      refine (source.run_sound hnames hsource hreads₁).bind fun documents _ => ?_
      have hrows : AllBind [source.aliasName] (documents.map (Row.single source.aliasName)) := by
        intro row hrow
        obtain ⟨d, -, rfl⟩ := List.mem_map.1 hrow
        exact Row.covers_single _ d
      obtain ⟨hsound, hbind⟩ := runTerms_sound hnames terms hterms hreads₂ hrows
      refine hsound.bind fun rows hrows => ?_
      exact Clauses.run_sound hnames hclauses (hbind rows hrows).covers
  | .compound op left right, ⟨hl, hr⟩, hreads => by
      refine (left.run_sound hnames hl fun k hk => hreads k ?_).bind fun _ _ => ?_
      · exact List.mem_append_left _ hk
      refine (right.run_sound hnames hr fun k hk => hreads k ?_).bind fun _ _ => .ok _
      exact List.mem_append_right _ hk

theorem Source.run_sound (hnames : env.Binds names) : (source : Source) → source.Safe names →
    env.Reads source.reads → Sound (source.run env)
  | .keyspace k aliasName, hsafe, hreads => by
      obtain ⟨documents, hdocuments⟩ := Option.isSome_iff_exists.1 (hreads k (by simp [Source.reads]))
      rw [Source.run, hdocuments]
      exact .ok _
  | .statement s aliasName, hsafe, hreads => s.run_sound hnames hsafe hreads

/-- A safe term is sound, and its rows bind its alias in addition. -/
theorem Term.run_sound {aliases : List String} (hnames : env.Binds names) : (t : Term) →
    t.Safe names aliases → env.Reads t.reads → {rows : List Row} → AllBind aliases rows →
    Sound (t.run env rows) ∧
      ∀ rows', t.run env rows = .ok rows' → AllBind (aliases ++ [t.aliasName]) rows'
  | .join matching source condition, ⟨hsource, hsafe, hplain⟩, hreads, rows, hrows => by
      constructor
      · refine (source.run_sound hnames hsource hreads).bind fun documents _ => ?_
        refine (Computation.FailsOnly.mapM fun row hrow => ?_).bind fun _ _ => .ok _
        refine (Computation.FailsOnly.keepWhere fun r hr => ?_).bind fun _ _ => .ok _
        obtain ⟨d, -, rfl⟩ := List.mem_map.1 hr
        refine (Clauses.eval_sound_of_plain hnames hsafe hplain ?_).bind fun _ _ => .ok _
        exact .inr (Row.covers_bind (hrows row hrow))
      · intro rows' h
        obtain ⟨documents, -, h⟩ := Computation.bind_eq_ok.1 h
        obtain ⟨joined, hjoined, h⟩ := Computation.bind_eq_ok.1 h
        cases h
        exact allBind_flatten hrows (fun row rows' hrow h => allBind_joinRow hrow h) hjoined
  | .unnest matching array aliasName, ⟨hsafe, hplain⟩, hreads, rows, hrows => by
      constructor
      · refine (Computation.FailsOnly.mapM fun row hrow => ?_).bind fun _ _ => .ok _
        refine (Clauses.eval_sound_of_plain hnames hsafe hplain
          (.inr (hrows row hrow))).bind fun d _ => ?_
        split <;> exact .ok _
      · intro rows' h
        obtain ⟨unnested, hunnested, h⟩ := Computation.bind_eq_ok.1 h
        cases h
        exact allBind_flatten hrows (fun row rows' hrow h => allBind_unnestRow hrow h) hunnested

/-- Safe terms are sound, and their rows bind all aliases. -/
theorem runTerms_sound {aliases : List String} (hnames : env.Binds names) : (ts : List Term) →
    TermsSafe names aliases ts → env.Reads (termReads ts) → {rows : List Row} →
    AllBind aliases rows → Sound (runTerms env ts rows) ∧
      ∀ rows', runTerms env ts rows = .ok rows' → AllBind (aliases ++ ts.map Term.aliasName) rows'
  | [], hsafe, hreads, rows, hrows => by
      refine ⟨.ok _, ?_⟩
      intro rows' h
      cases h
      rwa [List.map_nil, List.append_nil]
  | t :: ts, ⟨ht, hts⟩, hreads, rows, hrows => by
      have hreads₁ : env.Reads t.reads := fun k hk => hreads k (List.mem_append_left _ hk)
      have hreads₂ : env.Reads (termReads ts) := fun k hk => hreads k (List.mem_append_right _ hk)
      obtain ⟨hsound, hbind⟩ := t.run_sound hnames ht hreads₁ hrows
      constructor
      · refine hsound.bind fun rows₁ hrows₁ => ?_
        exact (runTerms_sound hnames ts hts hreads₂ (hbind rows₁ hrows₁)).1
      · intro rows' h
        obtain ⟨rows₁, hrows₁, h⟩ := Computation.bind_eq_ok.1 h
        have := (runTerms_sound hnames ts hts hreads₂ (hbind rows₁ hrows₁)).2 rows' h
        rwa [List.append_assoc, List.singleton_append] at this

end

end Statements
end EntityQuery
