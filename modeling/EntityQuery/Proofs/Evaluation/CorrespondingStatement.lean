import EntityQuery.Proofs.Evaluation.Correspondence

/-!
# Selections over rows that correspond

Each clause of a selection, and each of its terms, has the same result on rows that match if its
expressions have the same values.  So two selections that differ in their placeholders and in the
alias of their source return the same rows.

* `Clauses.Follows` and `TermsFollow`: clauses and terms whose expressions follow others.
* `Clauses.Follows.run`: they make the same documents of rows that match.
* `TermsFollow.run`: they lead from rows that match to rows that match.
* `Statement.run_follows`: a selection returns the rows of the one that it follows.
-/

namespace EntityQuery

/-! ## Lists that correspond -/

section Lists

variable {α β : Type} {r : α → β → Prop} {less : α → α → Bool} {less' : β → β → Bool}

lemma forall₂_insertBack (hless : ∀ a a' b b', r a b → r a' b' → less a a' = less' b b') {a : α}
    {b : β} (hab : r a b) {as : List α} {bs : List β} (h : List.Forall₂ r as bs) :
    List.Forall₂ r (insertBack less a as) (insertBack less' b bs) := by
  induction h with
  | nil => exact .cons hab .nil
  | @cons a' b' as bs hab' h ih =>
      rw [insertBack, insertBack, hless a a' b b' hab hab']
      split
      · exact .cons hab' ih
      · exact .cons hab (.cons hab' h)

/-- Lists that correspond are sorted alike. -/
lemma forall₂_sortStable (hless : ∀ a a' b b', r a b → r a' b' → less a a' = less' b b')
    {as : List α} {bs : List β} (h : List.Forall₂ r as bs) :
    List.Forall₂ r (sortStable less as) (sortStable less' bs) := by
  have hfold : ∀ (as : List α) (bs : List β) (sorted : List α) (sorted' : List β),
      List.Forall₂ r as bs → List.Forall₂ r sorted sorted' →
      List.Forall₂ r (as.foldl (fun sorted a => insertBack less a sorted) sorted)
        (bs.foldl (fun sorted b => insertBack less' b sorted) sorted') := by
    intro as bs sorted sorted' h
    induction h generalizing sorted sorted' with
    | nil => exact id
    | cons hab _ ih => exact fun hsorted => ih _ _ (forall₂_insertBack hless hab hsorted)
  exact List.forall₂_reverse_iff.2 (hfold as bs [] [] h .nil)

end Lists

section Groups

variable {pairs : List (String × String)}

/-- Rows that match are added to groups alike. -/
lemma forall₂_addToGroup {key : String} {row row' : Row} (hrow : row.Matches pairs row')
    {gs gs' : List KeyedGroup}
    (h : List.Forall₂ (fun g g' => g.1 = g'.1 ∧ List.Forall₂ (Row.Matches pairs) g.2 g'.2) gs gs') :
    List.Forall₂ (fun g g' => g.1 = g'.1 ∧ List.Forall₂ (Row.Matches pairs) g.2 g'.2)
      (addToGroup key row gs) (addToGroup key row' gs') := by
  induction h with
  | nil => exact .cons ⟨rfl, .cons hrow .nil⟩ .nil
  | @cons g g' gs gs' hg h ih =>
      obtain ⟨hkey, hrows⟩ := hg
      rw [addToGroup, addToGroup, hkey]
      split
      · exact .cons ⟨rfl, .cons hrow hrows⟩ h
      · exact .cons ⟨hkey, hrows⟩ ih

lemma matches_scopeOfGroup {rows rows' : List Row}
    (h : List.Forall₂ (Row.Matches pairs) rows rows') :
    (scopeOfGroup rows).Matches pairs (scopeOfGroup rows') where
  row := by
    have hreverse := List.forall₂_reverse_iff.2 h
    rw [scopeOfGroup, scopeOfGroup, ← List.head?_reverse, ← List.head?_reverse]
    generalize rows.reverse = rows, rows'.reverse = rows' at hreverse ⊢
    cases hreverse with
    | nil => exact .inl ⟨rfl, rfl⟩
    | cons hrow _ => exact .inr hrow
  group := .some (List.forall₂_reverse_iff.2 h)

/-- Rows that match are grouped alike. -/
lemma matches_groupsOf {keyed keyed' : List (String × Row)}
    (h : List.Forall₂ (fun k k' => k.1 = k'.1 ∧ k.2.Matches pairs k'.2) keyed keyed') :
    List.Forall₂ (Scope.Matches pairs) (groupsOf keyed) (groupsOf keyed') := by
  have hfold : ∀ (keyed keyed' : List (String × Row)) (gs gs' : List KeyedGroup),
      List.Forall₂ (fun k k' => k.1 = k'.1 ∧ k.2.Matches pairs k'.2) keyed keyed' →
      List.Forall₂ (fun g g' => g.1 = g'.1 ∧ List.Forall₂ (Row.Matches pairs) g.2 g'.2) gs gs' →
      List.Forall₂ (fun g g' => g.1 = g'.1 ∧ List.Forall₂ (Row.Matches pairs) g.2 g'.2)
        (keyed.foldl (fun groups k => addToGroup k.1 k.2 groups) gs)
        (keyed'.foldl (fun groups k => addToGroup k.1 k.2 groups) gs') := by
    intro keyed keyed' gs gs' h
    induction h generalizing gs gs' with
    | nil => exact id
    | @cons k k' keyed keyed' hk _ ih =>
        obtain ⟨key, row⟩ := k
        obtain ⟨key', row'⟩ := k'
        obtain ⟨rfl, hrow⟩ := hk
        exact fun hgs => ih _ _ (forall₂_addToGroup hrow hgs)
  rw [groupsOf, groupsOf, List.forall₂_map_left_iff, List.forall₂_map_right_iff]
  exact (hfold keyed keyed' [] [] h .nil).imp fun g g' hg => matches_scopeOfGroup hg.2

end Groups

/-! ## Clauses

Each clause is a computation over lists of rows or scopes.  It is taken through with lists that
match member by member; which of them are kept, grouped or moved is decided by values that are the
same. -/

/-- A selection makes the documents of another one. -/
inductive Selection.Follows (env env' : Environment) (pairs : List (String × String)) :
    Selection → Selection → Prop
  | raw {e e' : Expression} (h : e.Follows env env' pairs e') : Follows env env' pairs (.raw e) (.raw e')
  | items {list list' : List (Expression × String)}
      (h : List.Forall₂ (fun i i' => i.1.Follows env env' pairs i'.1 ∧ i'.2 = i.2) list list') :
      Follows env env' pairs (.items list) (.items list')

/-- A key of an ordering orders as another one does. -/
structure OrderKey.Follows (env env' : Environment) (pairs : List (String × String))
    (k k' : OrderKey) : Prop where
  key : k.key.Follows env env' pairs k'.key
  descending : k'.descending = k.descending

/-- Clauses do what other ones do, on rows that match. -/
structure Clauses.Follows (env env' : Environment) (pairs : List (String × String))
    (c c' : Clauses) : Prop where
  predicate : Option.Rel (Expression.Follows env env' pairs) c.predicate c'.predicate
  groupBy : List.Forall₂ (Expression.Follows env env' pairs) c.groupBy c'.groupBy
  orderBy : List.Forall₂ (OrderKey.Follows env env' pairs) c.orderBy c'.orderBy
  selection : c.selection.Follows env env' pairs c'.selection
  distinct : c'.distinct = c.distinct
  offset : Option.Rel (Expression.Follows env env' pairs) c.offset c'.offset
  limit : Option.Rel (Expression.Follows env env' pairs) c.limit c'.limit

section Clauses

variable {env env' : Environment} {pairs : List (String × String)} {c c' : Clauses}

lemma projectItems_follows {s s' : Scope} (hs : s.Matches pairs s')
    {list list' : List (Expression × String)}
    (h : List.Forall₂ (fun i i' => i.1.Follows env env' pairs i'.1 ∧ i'.2 = i.2) list list')
    (fields : Fields) :
    Persists (projectItems env s list fields) (projectItems env' s' list' fields) := by
  induction h generalizing fields with
  | nil => exact .refl _
  | @cons i i' list list' hi _ ih =>
      obtain ⟨he, hname⟩ := hi
      refine (he.eval s s' hs).bind fun d => ?_
      cases d with
      | none => exact ih fields
      | some d =>
          simp only [hname]
          exact ih _

lemma Selection.Follows.project {sel sel' : Selection} (h : sel.Follows env env' pairs sel')
    {s s' : Scope} (hs : s.Matches pairs s') :
    Persists (sel.project env s) (sel'.project env' s') := by
  cases h with
  | raw h => exact h.eval s s' hs
  | items h => exact (projectItems_follows hs h []).map _

lemma Selection.Follows.anyAggregate {sel sel' : Selection} (h : sel.Follows env env' pairs sel') :
    Expression.anyAggregate sel'.expressions = Expression.anyAggregate sel.expressions := by
  cases h with
  | raw h => exact Expression.Follows.anyAggregate (.cons h .nil)
  | @items list list' h =>
      have hfirst : List.Forall₂ (Expression.Follows env env' pairs) (list.map Prod.fst)
          (list'.map Prod.fst) := by
        rw [List.forall₂_map_left_iff, List.forall₂_map_right_iff]
        exact h.imp fun i i' hi => hi.1
      exact Expression.Follows.anyAggregate hfirst

namespace Clauses.Follows

/-- The keys of an ordering follow one by one. -/
lemma keys (h : c.Follows env env' pairs c') :
    List.Forall₂ (Expression.Follows env env' pairs) (c.orderBy.map OrderKey.key)
      (c'.orderBy.map OrderKey.key) := by
  rw [List.forall₂_map_left_iff, List.forall₂_map_right_iff]
  exact h.orderBy.imp fun k k' hk => hk.key

lemma isAggregating (h : c.Follows env env' pairs c') : c'.isAggregating = c.isAggregating := by
  have hgroup : c'.groupBy.isEmpty = c.groupBy.isEmpty := by
    have hgroup := h.groupBy
    generalize c.groupBy = es, c'.groupBy = es' at hgroup ⊢
    cases hgroup <;> rfl
  rw [Clauses.isAggregating, Clauses.isAggregating, hgroup, h.selection.anyAggregate,
    Expression.Follows.anyAggregate h.keys]

variable {rows rows' : List Row}

lemma kept (h : c.Follows env env' pairs c') (hrows : List.Forall₂ (Row.Matches pairs) rows rows') :
    Carries (List.Forall₂ (Row.Matches pairs)) (c.kept env rows) (c'.kept env' rows') := by
  have hpredicate := h.predicate
  rw [Clauses.kept, Clauses.kept]
  generalize c.predicate = e, c'.predicate = e' at hpredicate ⊢
  cases hpredicate with
  | none => exact .ok hrows
  | some he => exact .keepWhere hrows fun row row' hrow => he.holds hrow

lemma scopes (h : c.Follows env env' pairs c')
    (hrows : List.Forall₂ (Row.Matches pairs) rows rows') :
    Carries (List.Forall₂ (Scope.Matches pairs)) (c.scopes env rows) (c'.scopes env' rows') := by
  have hgroupBy := h.groupBy
  rw [Clauses.scopes, Clauses.scopes, h.isAggregating]
  cases c.isAggregating with
  | false =>
      refine .ok ?_
      rw [List.forall₂_map_left_iff, List.forall₂_map_right_iff]
      exact hrows.imp fun row row' hrow => .ofRow hrow
  | true =>
      generalize c.groupBy = es, c'.groupBy = es' at hgroupBy ⊢
      cases hgroupBy with
      | nil =>
          refine .ok (.cons ⟨?_, .some hrows⟩ .nil)
          cases hrows with
          | nil => exact .inl ⟨rfl, rfl⟩
          | cons hrow _ => exact .inr hrow
      | cons he hes =>
          refine (Carries.mapM hrows fun row row' hrow => ?_).bind fun keyed keyed' hkeyed =>
            .ok (matches_groupsOf hkeyed)
          exact .step (Expression.Follows.evalList (.cons he hes) (.ofRow hrow)) fun keys =>
            .ok ⟨rfl, hrow⟩

lemma compareKeys {ks ks' : List OrderKey} (h : List.Forall₂ (OrderKey.Follows env env' pairs) ks ks')
    (as bs : List Datum) : compareKeys ks' as bs = compareKeys ks as bs := by
  induction h generalizing as bs with
  | nil => rfl
  | @cons k k' ks ks' hk _ ih =>
      cases as with
      | nil => rfl
      | cons a as =>
          cases bs with
          | nil => rfl
          | cons b bs =>
              rw [compareKeys_cons, compareKeys_cons, ih, OrderKey.compare, OrderKey.compare,
                hk.descending]

lemma ordered (h : c.Follows env env' pairs c') {scopes scopes' : List Scope}
    (hscopes : List.Forall₂ (Scope.Matches pairs) scopes scopes') :
    Carries (List.Forall₂ (Scope.Matches pairs)) (c.ordered env scopes)
      (c'.ordered env' scopes') := by
  have hempty : c'.orderBy.isEmpty = c.orderBy.isEmpty := by
    have horder := h.orderBy
    generalize c.orderBy = ks, c'.orderBy = ks' at horder ⊢
    cases horder <;> rfl
  rw [Clauses.ordered, Clauses.ordered, hempty]
  split
  · exact .ok hscopes
  · have hkeyed : Carries
        (List.Forall₂ fun (k k' : List Datum × Scope) => k.1 = k'.1 ∧ k.2.Matches pairs k'.2)
        (scopes.mapM fun scope => do
          let keys ← EntityQuery.evalList env (c.orderBy.map OrderKey.key) scope
          .ok (keys, scope))
        (scopes'.mapM fun scope => do
          let keys ← EntityQuery.evalList env' (c'.orderBy.map OrderKey.key) scope
          .ok (keys, scope)) :=
      .mapM hscopes fun s s' hs => .step (Expression.Follows.evalList h.keys hs) fun keys =>
        .ok ⟨rfl, hs⟩
    refine hkeyed.bind fun keyed keyed' hkeyed => .ok ?_
    rw [List.forall₂_map_left_iff, List.forall₂_map_right_iff]
    refine (forall₂_sortStable (fun a a' b b' hab hab' => ?_) hkeyed).imp fun k k' hk => hk.2
    rw [compareKeys h.orderBy, hab.1, hab'.1]

lemma page (h : c.Follows env env' pairs c') (documents : List Document) :
    Persists (c.page env documents) (c'.page env' documents) := by
  have hskipped : Persists (c.skipped env) (c'.skipped env') := by
    have hoffset := h.offset
    rw [skipped, skipped]
    generalize c.offset = e, c'.offset = e' at hoffset ⊢
    cases hoffset with
    | none => exact .refl _
    | some he => exact he.rowCount "OFFSET"
  have hlimited : ∀ documents, Persists (c.limited env documents) (c'.limited env' documents) := by
    intro documents
    have hlimit := h.limit
    rw [limited, limited]
    generalize c.limit = e, c'.limit = e' at hlimit ⊢
    cases hlimit with
    | none => exact .refl _
    | some he => exact (he.rowCount "LIMIT").bind fun _ => .refl _
  rw [page_eq, page_eq]
  exact hskipped.bind fun _ => hlimited _

/-- **Clauses that follow others make the same documents**, of rows that match. -/
theorem run (h : c.Follows env env' pairs c')
    (hrows : List.Forall₂ (Row.Matches pairs) rows rows') :
    Persists (c.run env rows) (c'.run env' rows') := by
  refine Carries.persists ?_
  refine (h.kept hrows).bind fun kept kept' hkept => ?_
  refine (h.scopes hkept).bind fun scopes scopes' hscopes => ?_
  refine (h.ordered hscopes).bind fun sorted sorted' hsorted => ?_
  refine .step (Carries.mapM_eq hsorted fun s s' hs => h.selection.project hs) fun projected => ?_
  rw [h.distinct]
  exact .of_persists (h.page _)

end Clauses.Follows
end Clauses

/-! ## Terms

A term binds an alias of its own, which is the same on both sides.  So the pairs of aliases grow
from term to term, and an expression that follows with fewer of them follows with more. -/

/-- Terms make of rows what other ones do, step by step: each binds a new alias, the same in both.
-/
inductive TermsFollow (env env' : Environment) :
    List (String × String) → List Term → List Term → Prop
  | nil {pairs} : TermsFollow env env' pairs [] []
  | join {pairs matching source source' condition condition' ts ts'}
      (hsource : Persists (source.run env) (source'.run env'))
      (halias : source'.aliasName = source.aliasName) (hnew : Unpaired pairs source.aliasName)
      (hcondition : condition.Follows env env' (pairs ++ [samePair source.aliasName]) condition')
      (h : TermsFollow env env' (pairs ++ [samePair source.aliasName]) ts ts') :
      TermsFollow env env' pairs (.join matching source condition :: ts)
        (.join matching source' condition' :: ts')
  | unnest {pairs matching array array' aliasName ts ts'}
      (harray : array.Follows env env' pairs array') (hnew : Unpaired pairs aliasName)
      (h : TermsFollow env env' (pairs ++ [samePair aliasName]) ts ts') :
      TermsFollow env env' pairs (.unnest matching array aliasName :: ts)
        (.unnest matching array' aliasName :: ts')

/-- The pairs of the aliases that terms bind. -/
def termPairs (ts : List Term) : List (String × String) := ts.map fun t => samePair t.aliasName

section Terms

variable {env env' : Environment} {pairs : List (String × String)} {ts ts' us us' : List Term}

lemma append_termPairs_cons (t : Term) (ts : List Term) :
    pairs ++ termPairs (t :: ts) = pairs ++ [samePair t.aliasName] ++ termPairs ts := by
  rw [List.append_assoc]
  rfl

/-- Further terms may come behind. -/
lemma TermsFollow.append (h : TermsFollow env env' pairs ts ts')
    (h' : TermsFollow env env' (pairs ++ termPairs ts) us us') :
    TermsFollow env env' pairs (ts ++ us) (ts' ++ us') := by
  induction h with
  | @nil pairs =>
      have hnil : pairs ++ termPairs [] = pairs := List.append_nil pairs
      rwa [hnil] at h'
  | join hsource halias hnew hcondition _ ih =>
      rw [append_termPairs_cons] at h'
      exact .join hsource halias hnew hcondition (ih h')
  | unnest harray hnew _ ih =>
      rw [append_termPairs_cons] at h'
      exact .unnest harray hnew (ih h')

lemma joinRow_follows {matching : Matching} {aliasName : String} {condition condition' : Expression}
    (hnew : Unpaired pairs aliasName)
    (h : condition.Follows env env' (pairs ++ [samePair aliasName]) condition')
    (documents : List Document) {row row' : Row} (hrow : row.Matches pairs row') :
    Carries (List.Forall₂ (Row.Matches (pairs ++ [samePair aliasName])))
      (joinRow env matching aliasName condition documents row)
      (joinRow env' matching aliasName condition' documents row') := by
  have hbound : List.Forall₂ (Row.Matches (pairs ++ [samePair aliasName]))
      (documents.map fun d => row.bind aliasName (some d))
      (documents.map fun d => row'.bind aliasName (some d)) := by
    rw [List.forall₂_map_left_iff, List.forall₂_map_right_iff, List.forall₂_same]
    exact fun d _ => hrow.bind hnew (some d)
  refine (Carries.keepWhere hbound fun row row' hrow => h.holds hrow).bind fun rows rows' hrows => ?_
  refine .ok ?_
  cases hrows with
  | nil =>
      split
      · exact .cons (hrow.bind hnew none) .nil
      · exact .nil
  | cons hfirst hrest => exact .cons hfirst hrest

lemma unnestRow_follows {matching : Matching} {aliasName : String} {array array' : Expression}
    (hnew : Unpaired pairs aliasName) (h : array.Follows env env' pairs array') {row row' : Row}
    (hrow : row.Matches pairs row') :
    Carries (List.Forall₂ (Row.Matches (pairs ++ [samePair aliasName])))
      (unnestRow env matching aliasName array row)
      (unnestRow env' matching aliasName array' row') := by
  refine .step (h.eval _ _ (.ofRow hrow)) fun d => ?_
  split
  · refine .ok ?_
    rw [List.forall₂_map_left_iff, List.forall₂_map_right_iff, List.forall₂_same]
    exact fun d _ => hrow.bind hnew (some d)
  · refine .ok ?_
    split
    · exact .cons (hrow.bind hnew none) .nil
    · exact .nil

/-- **Terms that follow others lead to rows that match.** -/
theorem TermsFollow.run (h : TermsFollow env env' pairs ts ts') {rows rows' : List Row}
    (hrows : List.Forall₂ (Row.Matches pairs) rows rows') :
    Carries (List.Forall₂ (Row.Matches (pairs ++ termPairs ts)))
      (runTerms env ts rows) (runTerms env' ts' rows') := by
  have hflatten : ∀ {pairs} {lists lists' : List (List Row)},
      List.Forall₂ (List.Forall₂ (Row.Matches pairs)) lists lists' →
      List.Forall₂ (Row.Matches pairs) lists.flatten lists'.flatten := by
    intro pairs lists lists' h
    induction h with
    | nil => exact .nil
    | cons hrows _ ih => exact List.rel_append hrows ih
  induction h generalizing rows rows' with
  | nil =>
      refine .ok ?_
      rwa [termPairs, List.map_nil, List.append_nil]
  | @join pairs matching source source' condition condition' ts ts' hsource halias hnew hcondition _
      ih =>
      have hterm : Carries (List.Forall₂ (Row.Matches (pairs ++ [samePair source.aliasName])))
          ((Term.join matching source condition).run env rows)
          ((Term.join matching source' condition').run env' rows') := by
        refine .step hsource fun documents => ?_
        rw [halias]
        exact (Carries.mapM hrows fun row row' hrow =>
          joinRow_follows hnew hcondition documents hrow).bind fun _ _ h => .ok (hflatten h)
      rw [append_termPairs_cons]
      exact hterm.bind fun rows rows' hrows => ih hrows
  | @unnest pairs matching array array' aliasName ts ts' harray hnew _ ih =>
      have hterm : Carries (List.Forall₂ (Row.Matches (pairs ++ [samePair aliasName])))
          ((Term.unnest matching array aliasName).run env rows)
          ((Term.unnest matching array' aliasName).run env' rows') :=
        (Carries.mapM hrows fun row row' hrow => unnestRow_follows hnew harray hrow).bind
          fun _ _ h => .ok (hflatten h)
      rw [append_termPairs_cons]
      exact hterm.bind fun rows rows' hrows => ih hrows

/-- **A selection whose sources and terms follow those of another one returns its rows**, if its
clauses make the same documents of rows that match. -/
theorem Statement.run_follows_of {source source' : Source} {c c' : Clauses}
    (hsource : Persists (source.run env) (source'.run env'))
    (hterms : TermsFollow env env' [(source.aliasName, source'.aliasName)] ts ts')
    (hclauses : ∀ rows rows', List.Forall₂
      (Row.Matches ((source.aliasName, source'.aliasName) :: termPairs ts)) rows rows' →
      Persists (c.run env rows) (c'.run env' rows')) :
    Persists ((Statement.select source ts c).run env) ((Statement.select source' ts' c').run env') := by
  refine hsource.bind fun documents => Carries.persists ?_
  have hrows : List.Forall₂ (Row.Matches [(source.aliasName, source'.aliasName)])
      (documents.map (Row.single source.aliasName)) (documents.map (Row.single source'.aliasName)) := by
    rw [List.forall₂_map_left_iff, List.forall₂_map_right_iff, List.forall₂_same]
    exact fun d _ => .single _ _ d
  exact (hterms.run hrows).bind fun rows rows' hrows => .of_persists (hclauses rows rows' hrows)

/-- **A selection that follows another one returns its rows.** -/
theorem Statement.run_follows {source source' : Source} {c c' : Clauses}
    (hsource : Persists (source.run env) (source'.run env'))
    (hterms : TermsFollow env env' [(source.aliasName, source'.aliasName)] ts ts')
    (hclauses : c.Follows env env'
      ((source.aliasName, source'.aliasName) :: termPairs ts) c') :
    Persists ((Statement.select source ts c).run env) ((Statement.select source' ts' c').run env') :=
  run_follows_of hsource hterms fun _ _ hrows => hclauses.run hrows

end Terms
end EntityQuery
