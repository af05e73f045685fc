import EntityQuery.Proofs.Evaluation.Extension
import EntityQuery.Proofs.Evaluation.Selection

/-!
# Rows that become blocks of rows

A join makes a block of rows of each row that there is.  Where a condition or an ordering does not
look at what the join adds, it treats the rows of a block as the row that they come from: conditions
keep or leave out whole blocks, and an ordering moves them as a whole.

* `sortStable_flatMap`: blocks of elements that compare alike are sorted as a whole.
* `Clauses.kept_flatMap` and `Clauses.ordered_flatMap`: so do the clauses of a selection.
* `Clauses.run_flatMap`: a selection makes blocks of documents.
-/

namespace EntityQuery

/-! ## Sorting

Sorting goes through the elements one by one, and so the induction is on the elements whose blocks
are inserted.  It carries that a sorted list of blocks is made of the sorted list of elements, each
with its block, in whatever order the members of one block have come to stand. -/

section Sorting

variable {α β : Type} {less : α → α → Bool} {less' : β → β → Bool} {P : α → Prop}
  {block : α → List β}

/-- An element is put behind those that it is less than. -/
lemma insertBack_append {b : β} {front back : List β} (h : ∀ b' ∈ front, less' b b' = true) :
    insertBack less' b (front ++ back) = front ++ insertBack less' b back := by
  induction front with
  | nil => rfl
  | cons b' front ih =>
      rw [List.cons_append, insertBack, h b' List.mem_cons_self, if_pos rfl,
        ih fun c hc => h c (.tail _ hc)]
      rfl

lemma foldl_insertBack_append {bs front back : List β}
    (h : ∀ b ∈ bs, ∀ b' ∈ front, less' b b' = true) :
    bs.foldl (fun sorted b => insertBack less' b sorted) (front ++ back) =
      front ++ bs.foldl (fun sorted b => insertBack less' b sorted) back := by
  induction bs generalizing back with
  | nil => rfl
  | cons b bs ih =>
      rw [List.foldl_cons, List.foldl_cons, insertBack_append (h b List.mem_cons_self),
        ih fun c hc => h c (.tail _ hc)]

/-- Elements that are not less than any end up in front, the last one first. -/
lemma foldl_insertBack_of_ge {bs sorted : List β} (h : ∀ b ∈ bs, ∀ b' ∈ sorted, less' b b' = false)
    (halike : ∀ b ∈ bs, ∀ b' ∈ bs, less' b b' = false) :
    bs.foldl (fun sorted b => insertBack less' b sorted) sorted = bs.reverse ++ sorted := by
  induction bs generalizing sorted with
  | nil => rfl
  | cons b bs ih =>
      rw [List.foldl_cons, insertBack_of_ge (h b List.mem_cons_self), ih]
      · simp
      · intro c hc b' hb'
        rcases List.mem_cons.1 hb' with rfl | hb'
        · exact halike c (.tail _ hc) b' List.mem_cons_self
        · exact h c (.tail _ hc) b' hb'
      · exact fun c hc b' hb' => halike c (.tail _ hc) b' (.tail _ hb')

/-- The members of blocks compare as the elements from which the blocks come. -/
def ComparesBlocks (less : α → α → Bool) (less' : β → β → Bool) (P : α → Prop)
    (block : α → List β) : Prop :=
  ∀ {a a'}, P a → P a' → ∀ b ∈ block a, ∀ b' ∈ block a', less' b b' = less a a'

/-- A block has its place among blocks where its element has it among elements. -/
lemma WeakOrder.foldl_block (h : WeakOrder less P) (hblock : ComparesBlocks less less' P block)
    {a : α} (ha : P a) {as : List α} (hP : ∀ b ∈ as, P b) (hsorted : Descends less as) :
    (block a).foldl (fun sorted b => insertBack less' b sorted)
        (as.flatMap fun a => (block a).reverse) =
      (insertBack less a as).flatMap fun a => (block a).reverse := by
  have hirrefl : ∀ b ∈ block a, ∀ b' ∈ block a, less' b b' = false := by
    intro b hb b' hb'
    rw [hblock ha ha b hb b' hb']
    cases hless : less a a with
    | false => rfl
    | true => exact hless.symm.trans (h.asymm ha ha hless)
  induction as with
  | nil =>
      have hnone : ∀ b ∈ block a, ∀ b' ∈ ([] : List β), less' b b' = false := by simp
      simpa [insertBack] using foldl_insertBack_of_ge hnone hirrefl
  | cons c as ih =>
      have ih := ih (fun b hb => hP b (.tail _ hb)) (List.pairwise_cons.1 hsorted).2
      have hc : P c := hP c List.mem_cons_self
      rw [insertBack]
      cases hless : less a c with
      | true =>
          rw [if_pos rfl, List.flatMap_cons, List.flatMap_cons, foldl_insertBack_append, ih]
          intro b hb b' hb'
          rw [hblock ha hc b hb b' (List.mem_reverse.1 hb'), hless]
      | false =>
          have hge : ∀ b ∈ block a, ∀ b' ∈ (c :: as).flatMap fun a => (block a).reverse,
              less' b b' = false := by
            intro b hb b' hb'
            obtain ⟨d, hd, hb'⟩ := List.mem_flatMap.1 hb'
            rw [hblock ha (hP d hd) b hb b' (List.mem_reverse.1 hb')]
            exact h.ge_of_descends ha hP hsorted hless d hd
          rw [if_neg Bool.false_ne_true, foldl_insertBack_of_ge hge hirrefl]
          rfl

/-- **Blocks of elements that compare alike are sorted as a whole.** -/
theorem WeakOrder.sortStable_flatMap (h : WeakOrder less P)
    (hblock : ComparesBlocks less less' P block) {as : List α} (hP : ∀ a ∈ as, P a) :
    sortStable less' (as.flatMap block) = (sortStable less as).flatMap block := by
  have hfold : ∀ (as sorted : List α), (∀ a ∈ as, P a) → (∀ a ∈ sorted, P a) →
      Descends less sorted →
      (as.flatMap block).foldl (fun sorted b => insertBack less' b sorted)
          (sorted.flatMap fun a => (block a).reverse) =
        (as.foldl (fun sorted a => insertBack less a sorted) sorted).flatMap
          fun a => (block a).reverse := by
    intro as
    induction as with
    | nil => exact fun _ _ _ _ => rfl
    | cons a as ih =>
        intro sorted hP hsortedP hsorted
        have ha : P a := hP a List.mem_cons_self
        have hinserted : ∀ b ∈ insertBack less a sorted, P b := by
          intro b hb
          rcases List.mem_cons.1 ((insertBack_perm less a sorted).mem_iff.1 hb) with rfl | hb
          · exact ha
          · exact hsortedP b hb
        rw [List.flatMap_cons, List.foldl_append, h.foldl_block hblock ha hsortedP hsorted]
        exact ih _ (fun b hb => hP b (.tail _ hb)) hinserted
          (h.descends_insertBack ha hsortedP hsorted)
  have hreverse := congrArg List.reverse
    (hfold as [] hP (fun a ha => by cases ha) List.Pairwise.nil)
  rw [List.reverse_flatMap] at hreverse
  simpa [sortStable, Function.comp_def] using hreverse

end Sorting

/-! ## Joins

A join goes through the rows and adds an alias to each.  Seen as a step it makes a block of each
row, all members of which agree with the row but for that alias. -/

section Joins

variable {env : Environment} {matching : Matching} {aliasName : String} {condition : Expression}
  {documents : List Document} {row : Row} {block : List Row}

lemma joinRow_eq_ok : joinRow env matching aliasName condition documents row = .ok block ↔
    ∃ matched, keepWhere (fun d => condition.holds env (row.bind aliasName (some d))) documents =
        .ok matched ∧
      block = if matched.isEmpty && matching == .leftOuter then [row.bind aliasName none]
        else matched.map fun d => row.bind aliasName (some d) := by
  rw [joinRow, Computation.bind_eq_ok, keepWhere_map]
  simp only [Computation.map_eq_ok]
  constructor
  · rintro ⟨_, ⟨matched, hmatched, rfl⟩, h⟩
    cases h
    exact ⟨matched, hmatched, by rw [List.isEmpty_map]⟩
  · rintro ⟨matched, hmatched, rfl⟩
    exact ⟨_, ⟨matched, hmatched, rfl⟩, by rw [List.isEmpty_map]⟩

/-- The rows of a join bind one alias more. -/
lemma eq_bind_of_joinRow (h : joinRow env matching aliasName condition documents row = .ok block) :
    ∀ row' ∈ block, ∃ d, row' = row.bind aliasName d := by
  obtain ⟨matched, -, rfl⟩ := joinRow_eq_ok.1 h
  intro row' hrow'
  split at hrow'
  · exact ⟨none, List.mem_singleton.1 hrow'⟩
  · obtain ⟨d, -, rfl⟩ := List.mem_map.1 hrow'
    exact ⟨some d, rfl⟩

/-- A join makes a block of each row. -/
lemma Term.run_join_eq_ok {source : Source} {rows rows' : List Row}
    (hdocuments : source.run env = .ok documents)
    (h : (Term.join matching source condition).run env rows = .ok rows') :
    (∀ row ∈ rows, ∃ block,
        joinRow env matching source.aliasName condition documents row = .ok block) ∧
      rows' = rows.flatMap fun row =>
        Computation.members (joinRow env matching source.aliasName condition documents row) := by
  obtain ⟨documents₁, hdocuments₁, h⟩ := Computation.bind_eq_ok.1 h
  cases hdocuments.symm.trans hdocuments₁
  obtain ⟨blocks, hblocks, h⟩ := Computation.bind_eq_ok.1 h
  cases h
  refine ⟨fun row hrow => ?_, Computation.flatten_of_mapM hblocks⟩
  obtain ⟨block, -, hblock⟩ := Computation.exists_of_mapM hblocks row hrow
  exact ⟨block, hblock⟩

lemma runTerms_append (ts us : List Term) (rows : List Row) :
    runTerms env (ts ++ us) rows = runTerms env ts rows >>= runTerms env us := by
  induction ts generalizing rows with
  | nil => rfl
  | cons t ts ih =>
      rw [List.cons_append, runTerms, runTerms]
      cases t.run env rows with
      | error e => rfl
      | ok rows => exact ih rows

lemma projectItems_append (scope : Scope) (items more : List (Expression × String))
    (fields : Fields) :
    projectItems env scope (items ++ more) fields =
      projectItems env scope items fields >>= projectItems env scope more := by
  induction items generalizing fields with
  | nil => rfl
  | cons item items ih =>
      rw [List.cons_append, projectItems, projectItems]
      cases item.1.eval env scope with
      | error e => rfl
      | ok d =>
          cases d with
          | none => exact ih fields
          | some d => exact ih _

end Joins

/-! ## Clauses

Conditions and keys that do not look at the alias of a join have one value on a whole block, that on
the row that the block comes from.  So the clauses do with blocks what they do with rows. -/

/-- A test that passes on a block as on its element keeps whole blocks. -/
lemma filter_flatMap_blocks {α β : Type} {p : α → Bool} {q : β → Bool} {block : α → List β}
    {as : List α} (h : ∀ a ∈ as, ∀ b ∈ block a, q b = p a) :
    (as.flatMap block).filter q = (as.filter p).flatMap block := by
  induction as with
  | nil => rfl
  | cons a as ih =>
      rw [List.flatMap_cons, List.filter_append, ih fun a ha => h a (.tail _ ha), List.filter_cons]
      cases hp : p a with
      | true =>
          have hall : (block a).filter q = block a :=
            List.filter_eq_self.2 fun b hb => (h a List.mem_cons_self b hb).trans hp
          rw [hall, if_pos rfl, List.flatMap_cons]
      | false =>
          have hnone : (block a).filter q = [] :=
            List.filter_eq_nil_iff.2 fun b hb => by simp [h a List.mem_cons_self b hb, hp]
          rw [hnone, if_neg Bool.false_ne_true, List.nil_append]

namespace Clauses

variable {env : Environment} {c : Clauses}

/-- A condition that holds on the rows of a block as on their row keeps whole blocks. -/
lemma kept_flatMap {rows kept : List Row} {block : Row → List Row} (h : c.kept env rows = .ok kept)
    (hblock : ∀ row ∈ rows, ∀ row' ∈ block row, ∀ e ∈ c.predicate,
      Persists (e.holds env row) (e.holds env row')) :
    c.kept env (rows.flatMap block) = .ok (kept.flatMap block) := by
  rw [Clauses.kept] at h ⊢
  cases hpredicate : c.predicate with
  | none =>
      rw [hpredicate] at h
      cases h
      rfl
  | some e =>
      rw [hpredicate] at h
      obtain ⟨hdefined, rfl⟩ := keepWhere_eq_ok.1 h
      have hholds : ∀ row ∈ rows, ∀ row' ∈ block row, ∀ b, e.holds env row = .ok b →
          e.holds env row' = .ok b :=
        fun row hrow row' hrow' b hb => hblock row hrow row' hrow' e hpredicate b hb
      refine keepWhere_eq_ok.2 ⟨fun row' hrow' => ?_, ?_⟩
      · obtain ⟨row, hrow, hrow'⟩ := List.mem_flatMap.1 hrow'
        obtain ⟨b, hb⟩ := hdefined row hrow
        exact ⟨b, hholds row hrow row' hrow' b hb⟩
      · refine (filter_flatMap_blocks fun row hrow row' hrow' => ?_).symm
        obtain ⟨b, hb⟩ := hdefined row hrow
        rw [passes_of_eq_ok hb, passes_of_eq_ok (hholds row hrow row' hrow' b hb)]

/-- An ordering by keys that the scopes of a block have in common moves whole blocks. -/
lemma ordered_flatMap {scopes sorted : List Scope} {block : Scope → List Scope}
    (h : c.ordered env scopes = .ok sorted) (hcollated : c.Collated env scopes)
    (hblock : ∀ scope ∈ scopes, ∀ scope' ∈ block scope, ∀ k ∈ c.orderBy,
      Persists (k.key.eval env scope) (k.key.eval env scope')) :
    c.ordered env (scopes.flatMap block) = .ok (sorted.flatMap block) := by
  rw [ordered] at h ⊢
  cases hempty : c.orderBy.isEmpty with
  | true =>
      rw [hempty, if_pos rfl] at h
      cases h
      rw [if_pos rfl]
  | false =>
      rw [hempty, if_neg Bool.false_ne_true] at h
      rw [if_neg Bool.false_ne_true]
      obtain ⟨keyed, hkeyed, h⟩ := Computation.bind_eq_ok.1 h
      cases h
      -- a block has the keys of its scope
      have hblocks : (scopes.flatMap block).mapM (fun scope => do
          let keys ← evalList env (c.orderBy.map OrderKey.key) scope
          .ok (keys, scope)) =
            .ok (keyed.flatMap fun k => (block k.2).map fun scope => (k.1, scope)) := by
        refine Computation.mapM_flatMap hkeyed fun scope hscope k hk => ?_
        obtain ⟨keys, hvalues, hk⟩ := Computation.bind_eq_ok.1 hk
        cases hk
        rw [Computation.mapM_eq_ok, List.forall₂_map_right_iff, List.forall₂_same]
        intro scope' hscope'
        refine Computation.bind_eq_ok.2 ⟨keys, ?_, rfl⟩
        rw [evalList_eq_ok] at hvalues ⊢
        rw [List.forall₂_map_left_iff] at hvalues ⊢
        refine List.Forall₂.imp ?_ ((List.forall₂_and_left ..).2 ⟨fun k hk => hk, hvalues⟩)
        exact fun k d hkd => hblock scope hscope scope' hscope' k hkd.1 d hkd.2
      refine Computation.bind_eq_ok.2 ⟨_, hblocks, ?_⟩
      rw [(weakOrder_compareKeys hcollated).sortStable_flatMap ?_ (keys_occur hkeyed)]
      · simp [List.map_flatMap, List.flatMap_map, Function.comp_def]
      · intro k k' _ _ b hb b' hb'
        obtain ⟨scope, -, rfl⟩ := List.mem_map.1 hb
        obtain ⟨scope', -, rfl⟩ := List.mem_map.1 hb'
        rfl

/-- **A flat selection makes blocks of documents of blocks of rows**, where its conditions and its
keys have on the rows of a block the values that another selection finds on their row. -/
theorem run_flatMap {c' : Clauses} (hflat : c.IsFlat) (hflat' : c'.IsFlat)
    (hpredicate : c'.predicate = c.predicate) (horderBy : c'.orderBy = c.orderBy)
    {rows kept : List Row} {block : Row → List Row} (hkept : c.kept env rows = .ok kept)
    (hcollated : c.Collated env (kept.map .ofRow))
    (hcondition : ∀ row ∈ rows, ∀ row' ∈ block row, ∀ e ∈ c.predicate,
      Persists (e.holds env row) (e.holds env row'))
    (hkey : ∀ row ∈ kept, ∀ row' ∈ block row, ∀ k ∈ c.orderBy,
      Persists (k.key.eval env (.ofRow row)) (k.key.eval env (.ofRow row')))
    {documents : List Document} {blockOf : Document → List Document}
    (hproject : ∀ row ∈ kept, ∃ d, c.selection.project env (.ofRow row) = .ok (some d) ∧
      ((block row).map Scope.ofRow).mapM (c'.selection.project env) = .ok ((blockOf d).map some))
    (h : c.run env rows = .ok documents) :
    c'.run env (rows.flatMap block) = .ok (documents.flatMap blockOf) := by
  obtain ⟨kept₀, sorted, made, hkept₀, hsorted, hmade, rfl⟩ := hflat.run_eq_ok.1 h
  cases hkept.symm.trans hkept₀
  set scopeBlock : Scope → List Scope := fun scope => (block scope.row).map Scope.ofRow
  have hscopes : (kept.flatMap block).map Scope.ofRow = (kept.map Scope.ofRow).flatMap scopeBlock := by
    rw [List.map_flatMap, List.flatMap_map]
    rfl
  have hkept' : c'.kept env (rows.flatMap block) = .ok (kept.flatMap block) := by
    rw [← kept_flatMap hkept hcondition, Clauses.kept, Clauses.kept, hpredicate]
  have hsorted' : c'.ordered env ((kept.flatMap block).map .ofRow) =
      .ok (sorted.flatMap scopeBlock) := by
    rw [hscopes, ← ordered_flatMap hsorted hcollated, ordered, ordered, horderBy]
    intro scope hscope scope' hscope' k hk
    obtain ⟨row, hrow, rfl⟩ := List.mem_map.1 hscope
    obtain ⟨row', hrow', rfl⟩ := List.mem_map.1 hscope'
    exact hkey row hrow row' hrow' k hk
  have hmade' : (sorted.flatMap scopeBlock).mapM (c'.selection.project env) =
      .ok (made.flatMap fun m => (m.toList.flatMap blockOf).map some) := by
    refine Computation.mapM_flatMap hmade fun scope hscope m hm => ?_
    obtain ⟨row, hrow, rfl⟩ := List.mem_map.1 ((ordered_perm hsorted).mem_iff.1 hscope)
    obtain ⟨d, hd, hblock⟩ := hproject row hrow
    cases hd.symm.trans hm
    rw [Option.toList_some, List.flatMap_singleton]
    exact hblock
  refine hflat'.run_eq_ok.2 ⟨_, _, _, hkept', hsorted', hmade', ?_⟩
  rw [List.filterMap_eq_flatMap_toList, List.flatMap_assoc, ← List.map_flatMap]
  simp

end Clauses
end EntityQuery
