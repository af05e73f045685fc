import EntityQuery.Proofs.Document.Collation
import EntityQuery.Proofs.Translation.Joining
import Mathlib.Data.List.Induction

/-!
# Orderings of queries

An ordering of a query becomes the ordering of the selection that the query already is, in place of
an earlier one, or of a new selection whose source the query becomes.  The keys are then read from
the rows of the sources, of which the selection may make no document; what is returned is in the
order of the keys all the same, as they are read from the documents.

* `Query.orderedBy`: a query in the order of a key and of further keys where it does not decide.
* `SortedBy` and `KeepsTies`: documents are put into the order of keys, and those that do not differ
  in them are left in place.
* `Translator.stage_orderedBy`: the keys of an ordering become those of one frame.
* `rows_orderBy`: a query with an ordering has the rows of the query in the order of its keys.
* `rows_orderBy_differ`: a field whose name occurs twice is not the key that its name says.
-/

namespace EntityQuery

/-- A query in the order of a key, and of further keys where those before them do not decide.  Each
key is a formula, and whether it descends. -/
def Query.orderedBy (q : Query) (key : Formula × Bool) (keys : List (Formula × Bool)) : Query :=
  keys.foldl (fun q k => .thenBy q k.1 k.2) (.orderBy q key.1 key.2)

/-- Whether a query carries an ordering of its own, whose place a further one takes. -/
def Query.isOrdered : Query → Bool
  | .orderBy .. | .thenBy .. => true
  | .filter input _ | .project input _ | .correlate input _ => input.isOrdered
  | .join _ left _ _ _ => left.isOrdered
  | .source .. | .groupBy .. | .skip .. | .take .. | .distinct _ | .combine .. | .conclude .. => false

/-- The frame with another ordering. -/
def Frame.reorder (f : Frame) (ks : List OrderKey) : Frame := { f with orderBy := ks }

/-- Translates the keys of an ordering. -/
def Translator.orderKeys (tr : Translator) (frame : Frame) :
    List (Formula × Bool) → Translating (List OrderKey)
  | [] => pure []
  | k :: ks => do
    let e ← tr.formula frame k.1
    let es ← tr.orderKeys frame ks
    pure (⟨e, k.2⟩ :: es)

/-- The keys of an ordering, as they are read through the alias of a source that is the statement of
the query. -/
def Translator.nestedOrder (tr : Translator) (aliasName : String) (input : Query)
    (keys : List (Formula × Bool)) : Translating (List OrderKey) := do
  let stage ← tr.stage input
  tr.orderKeys (.ofStatement stage.statement stage.yield aliasName) keys

/-- The values of keys on a document that an alias stands for. -/
def keysOf (env : Environment) (ks : List OrderKey) (aliasName : String) (d : Document) :
    Except EvalError (List Datum) :=
  evalList env (ks.map OrderKey.key) (.ofRow (.single aliasName d))

/-- Documents are those of a list in the order of some keys: none has greater values than one behind
it. -/
structure SortedBy (ks : List OrderKey) (values : Document → List Datum)
    (documents documents' : List Document) : Prop where
  perm : documents'.Perm documents
  ascending : documents'.Pairwise fun d d' => compareKeys ks (values d) (values d') ≠ .gt

/-- The documents that do not differ from a given one in the values of keys are in their places. -/
def KeepsTies (ks : List OrderKey) (values : Document → List Datum)
    (documents documents' : List Document) : Prop :=
  ∀ d₀ ∈ documents,
    documents'.filter (fun d => compareKeys ks (values d) (values d₀) == .eq) =
      documents.filter fun d => compareKeys ks (values d) (values d₀) == .eq

/-! ## Selections in another order

An ordering acts on scopes before documents are made of them.  As the selection is flat, documents
and scopes correspond one by one, and so do their keys. -/

section

variable {env : Environment} {s : Selection} {ks : List OrderKey} {c : Clauses}
  {values : Document → List Datum} {rows kept : List Row} {documents documents' : List Document}

/-- The document that a selection makes of a scope, if it makes one. -/
def Selection.made? (env : Environment) (s : Selection) (scope : Scope) : Option Document :=
  (s.project env scope).toOption.join

lemma Selection.made?_eq_some {scope : Scope} {d : Document} :
    s.made? env scope = some d ↔ s.project env scope = .ok (some d) := by
  rw [made?]
  rcases s.project env scope with e | _ | d' <;> simp [Except.toOption]

/-- The documents of scopes are made one by one. -/
lemma Selection.filterMap_made {scopes : List Scope} {projected : List Datum}
    (h : scopes.mapM (s.project env) = .ok projected) :
    projected.filterMap id = scopes.filterMap (s.made? env) := by
  rw [Computation.mapM_eq_ok] at h
  induction h with
  | nil => rfl
  | @cons scope d scopes projected hd _ ih =>
      have hmade : s.made? env scope = d := by
        rw [made?, hd]
        rfl
      rw [List.filterMap_cons, List.filterMap_cons, hmade, ih]
      rfl

namespace Clauses

/-- The clauses with another ordering. -/
def reorder (c : Clauses) (ks : List OrderKey) : Clauses := { c with orderBy := ks }

/-- A flat selection returns the documents of its scopes in order. -/
lemma IsFlat.eq_made (h : c.IsFlat) (hkept : c.kept env rows = .ok kept)
    (hrun : c.run env rows = .ok documents) :
    ∃ sorted, c.ordered env (kept.map .ofRow) = .ok sorted ∧
      documents = sorted.filterMap (c.selection.made? env) := by
  obtain ⟨kept₀, sorted, projected, hkept₀, hsorted, hprojected, rfl⟩ := h.run_eq_ok.1 hrun
  cases hkept.symm.trans hkept₀
  exact ⟨sorted, hsorted, Selection.filterMap_made hprojected⟩

/-- Keys by which scopes have been ordered have values in them. -/
lemma exists_keys {scopes sorted : List Scope} (h : c.ordered env scopes = .ok sorted) :
    ∀ scope ∈ scopes, ∃ vs, evalList env (c.orderBy.map OrderKey.key) scope = .ok vs := by
  intro scope hscope
  obtain ⟨vs, hvs⟩ : ∃ vs, (c.orderBy.map OrderKey.key).mapM (fun e => e.eval env scope) = .ok vs := by
    refine Computation.exists_mapM fun e he => ?_
    obtain ⟨k, hk, rfl⟩ := List.mem_map.1 he
    exact eval_key h hk hscope
  exact ⟨vs, evalList_eq_ok.2 (Computation.mapM_eq_ok.1 hvs)⟩

/-- **A selection in another order has its documents in that order.**  The values of the keys are
read from the documents. -/
theorem run_reorder (hflat : c.IsFlat) (hflat' : (c.reorder ks).IsFlat)
    (hkept : c.kept env rows = .ok kept)
    (hcollated : (c.reorder ks).Collated env (kept.map .ofRow))
    (hread : ∀ row ∈ kept, ∀ d, c.selection.project env (.ofRow row) = .ok (some d) →
      evalList env (ks.map OrderKey.key) (.ofRow row) = .ok (values d))
    (h : c.run env rows = .ok documents) (h' : (c.reorder ks).run env rows = .ok documents') :
    SortedBy ks values documents documents' := by
  obtain ⟨scopes, hscopes, rfl⟩ := hflat.eq_made hkept h
  obtain ⟨sorted, hsorted, rfl⟩ := hflat'.eq_made hkept h'
  refine ⟨((ordered_perm hsorted).trans (ordered_perm hscopes).symm).filterMap _, ?_⟩
  rw [List.pairwise_filterMap]
  refine (pairwise_ordered hsorted hcollated).imp_of_mem ?_
  intro scope scope' hscope hscope' hle d hd d' hd'
  obtain ⟨row, hrow, rfl⟩ := List.mem_map.1 ((ordered_perm hsorted).mem_iff.1 hscope)
  obtain ⟨row', hrow', rfl⟩ := List.mem_map.1 ((ordered_perm hsorted).mem_iff.1 hscope')
  exact hle _ _ (hread row hrow d (Selection.made?_eq_some.1 hd))
    (hread row' hrow' d' (Selection.made?_eq_some.1 hd'))

/-- **A selection that had no order leaves the documents in place that do not differ in the keys.**
-/
theorem keepsTies_reorder (hflat : c.IsFlat) (hflat' : (c.reorder ks).IsFlat)
    (horder : c.orderBy = []) (hkept : c.kept env rows = .ok kept)
    (hcollated : (c.reorder ks).Collated env (kept.map .ofRow))
    (hread : ∀ row ∈ kept, ∀ d, c.selection.project env (.ofRow row) = .ok (some d) →
      evalList env (ks.map OrderKey.key) (.ofRow row) = .ok (values d))
    (h : c.run env rows = .ok documents) (h' : (c.reorder ks).run env rows = .ok documents') :
    KeepsTies ks values documents documents' := by
  obtain ⟨scopes, hscopes, rfl⟩ := hflat.eq_made hkept h
  obtain ⟨sorted, hsorted, rfl⟩ := hflat'.eq_made hkept h'
  have hsame : kept.map .ofRow = scopes := by
    rw [ordered, horder] at hscopes
    exact Except.ok.inj hscopes
  rw [hsame] at hsorted hcollated
  -- the values of the keys in a scope are those on its document
  have hkeys : ∀ scope ∈ scopes, ∀ d, c.selection.made? env scope = some d →
      evalList env (ks.map OrderKey.key) scope = .ok (values d) := by
    intro scope hscope d hd
    rw [← hsame] at hscope
    obtain ⟨row, hrow, rfl⟩ := List.mem_map.1 hscope
    exact hread row hrow d (Selection.made?_eq_some.1 hd)
  have hoccur : ∀ scope ∈ scopes, ∀ d, c.selection.made? env scope = some d →
      List.Forall₂ (fun (k : OrderKey) v => ∃ scope ∈ scopes, k.key.eval env scope = .ok v) ks
        (values d) := by
    intro scope hscope d hd
    refine (List.forall₂_map_left_iff.1 (evalList_eq_ok.1 (hkeys scope hscope d hd))).imp ?_
    exact fun k v hv => ⟨scope, hscope, hv⟩
  intro d₀ hd₀
  obtain ⟨scope₀, hscope₀, hmade₀⟩ := List.mem_filterMap.1 hd₀
  have hvalues₀ := hoccur scope₀ hscope₀ d₀ hmade₀
  set tied : Document → Bool := fun d => compareKeys ks (values d) (values d₀) == .eq
  have htied : sorted.filter (fun scope => (c.selection.made? env scope).any tied) =
      scopes.filter fun scope => (c.selection.made? env scope).any tied := by
    refine filter_ordered hsorted hcollated fun s hs s' hs' hp hp' as bs has hbs hlt => ?_
    obtain ⟨d, hd, htie⟩ := (Option.any_eq_true _ _).1 hp
    obtain ⟨d', hd', htie'⟩ := (Option.any_eq_true _ _).1 hp'
    cases has.symm.trans (hkeys s hs d hd)
    cases hbs.symm.trans (hkeys s' hs' d' hd')
    exact compareKeys_of_tied hcollated (hoccur s hs d hd) (hoccur s' hs' d' hd') hvalues₀
      (beq_iff_eq.1 htie) (beq_iff_eq.1 htie') hlt
  have hfilter : ∀ scopes : List Scope,
      (scopes.filterMap (c.selection.made? env)).filter tied =
        (scopes.filter fun scope => (c.selection.made? env scope).any tied).filterMap
          (c.selection.made? env) := by
    intro scopes
    rw [List.filter_filterMap, List.filterMap_filter]
    congr 1
    funext scope
    cases c.selection.made? env scope with
    | none => rfl
    | some d => cases htie : tied d <;> simp [htie]
  change (sorted.filterMap (c.selection.made? env)).filter tied = _
  rw [hfilter, hfilter, htied]

end Clauses
end

/-! ## The keys of a frame

Several keys are translated one after the other, each over the frame with those before it.  What
comes of it is one frame with all of the keys. -/

/-- Two keys are of one direction, and agree in related scopes. -/
structure OrderKey.Agree (env : Environment) (related : Scope → Scope → Prop) (k k' : OrderKey) :
    Prop where
  descending : k'.descending = k.descending
  key : k.key.Agree env related k'.key

section

variable {tr : Translator} {env : Environment} {related : Scope → Scope → Prop} {f g : Frame}
  {ks ks' : List OrderKey} {p p' p₁ : Progress}

/-- The keys of two orderings compare values alike if their directions are the same. -/
lemma compareKeys_eq_of_agree (h : List.Forall₂ (OrderKey.Agree env related) ks ks') :
    compareKeys ks' = compareKeys ks := by
  induction h with
  | nil => rfl
  | @cons k k' ks ks' hk _ ih =>
      funext as bs
      cases as with
      | nil => rfl
      | cons a as =>
          cases bs with
          | nil => rfl
          | cons b bs =>
              rw [compareKeys_cons, compareKeys_cons, ih, OrderKey.compare, OrderKey.compare,
                hk.descending]

lemma keysOf_of_agree (h : List.Forall₂ (OrderKey.Agree env related) ks ks') {scope : Scope}
    {aliasName : String} {d : Document} (hrelated : related scope (.ofRow (.single aliasName d))) :
    keysOf env ks' aliasName d = evalList env (ks.map OrderKey.key) scope := by
  refine (Expression.Agree.evalList ?_ hrelated).symm
  exact List.forall₂_map_left_iff.2 (List.forall₂_map_right_iff.2 (h.imp fun _ _ hk => hk.key))

namespace Translator

/-- Keys are translated one after the other. -/
lemma orderKeys_append {keys : List (Formula × Bool)} {k : Formula × Bool} {e : Expression}
    (h : tr.orderKeys g keys p = .ok (ks, p₁)) (he : tr.formula g k.1 p₁ = .ok (e, p')) :
    tr.orderKeys g (keys ++ [k]) p = .ok (ks ++ [⟨e, k.2⟩], p') := by
  induction keys generalizing p ks with
  | nil =>
      cases Translating.pure_eq_ok.1 h
      exact Translating.bind_eq_ok.2 ⟨e, p', he, Translating.bind_eq_ok.2 ⟨[], p', rfl, rfl⟩⟩
  | cons key keys ih =>
      obtain ⟨e₁, q, hkey, h⟩ := Translating.bind_eq_ok.1 h
      obtain ⟨es, q₁, hkeys, h⟩ := Translating.bind_eq_ok.1 h
      cases Translating.pure_eq_ok.1 h
      exact Translating.bind_eq_ok.2 ⟨e₁, q, hkey, Translating.bind_eq_ok.2 ⟨_, p', ih hkeys, rfl⟩⟩

lemma orderKeys_reads {keys : List (Formula × Bool)} (h : tr.orderKeys g keys p = .ok (ks, p')) :
    p.Reads (Formula.inputsOf (keys.map Prod.fst)) p' := by
  induction keys generalizing p ks with
  | nil =>
      cases Translating.pure_eq_ok.1 h
      exact .refl _
  | cons key keys ih =>
      obtain ⟨e, q, hkey, h⟩ := Translating.bind_eq_ok.1 h
      obtain ⟨es, q₁, hkeys, h⟩ := Translating.bind_eq_ok.1 h
      cases Translating.pure_eq_ok.1 h
      exact (formula_eq_ok key.1 hkey).2.trans (ih hkeys)

lemma orderKeys_ignoresAliases (keys : List (Formula × Bool)) :
    Translating.IgnoresAliases (tr.orderKeys g keys) := by
  induction keys with
  | nil => exact .pure []
  | cons key keys ih => exact (formula_ignoresAliases key.1).bind fun _ => ih.bind fun _ => .pure _

/-- **The keys of an ordering become those of one frame**, in place of an earlier ordering.  Over a
frame that agrees they are translated to keys that agree. -/
theorem stage_orderedBy {q : Query} {key : Formula × Bool} {keys : List (Formula × Bool)} {s : Stage}
    (h : tr.stage (q.orderedBy key keys) p = .ok (s, p')) :
    ∃ input p₁ frame p₂ ks, tr.stage q p = .ok (input, p₁) ∧
      input.enter Frame.isSettled p₁ = .ok (frame, p₂) ∧ s = .frame (frame.reorder ks) ∧
      ∀ env related g, frame.Agree env related g → ∃ ks',
        tr.orderKeys g (key :: keys) p₂ = .ok (ks', p') ∧
          List.Forall₂ (OrderKey.Agree env related) ks ks' := by
  -- the last key is translated last, over the frame that the keys before it are in
  induction keys using List.reverseRecOn generalizing s p' with
  | nil =>
      obtain ⟨input, p₁, hinput, h⟩ := Translating.bind_eq_ok.1 h
      obtain ⟨frame, p₂, henter, h⟩ := Translating.bind_eq_ok.1 h
      obtain ⟨e, p₃, he, h⟩ := Translating.bind_eq_ok.1 h
      cases Translating.pure_eq_ok.1 h
      refine ⟨input, p₁, frame, p₂, _, hinput, henter, rfl, fun env related g hagree => ?_⟩
      obtain ⟨e', he', hee'⟩ := (formula_agree hagree.agreesIn key.1).eq_ok he
      exact ⟨[⟨e', key.2⟩], Translating.bind_eq_ok.2 ⟨e', p', he', rfl⟩, .cons ⟨rfl, hee'⟩ .nil⟩
  | append_singleton keys k ih =>
      rw [Query.orderedBy, List.foldl_append] at h
      obtain ⟨s₁, p₁, hs₁, h⟩ := Translating.bind_eq_ok.1 h
      obtain ⟨input, p₂, frame, p₃, ks, hinput, henter, rfl, hkeys⟩ := ih hs₁
      obtain ⟨-, h⟩ := Translating.guard_eq_ok.1 h
      obtain ⟨e, p₄, he, h⟩ := Translating.bind_eq_ok.1 h
      cases Translating.pure_eq_ok.1 h
      refine ⟨input, p₂, frame, p₃, _, hinput, henter, rfl, fun env related g hagree => ?_⟩
      obtain ⟨ks', hks', hagree'⟩ := hkeys env related g hagree
      have hordered : (frame.reorder ks).Agree env related g := ⟨hagree.yield, hagree.scope⟩
      obtain ⟨e', he', hee'⟩ := (formula_agree hordered.agreesIn k.1).eq_ok he
      exact ⟨_, orderKeys_append hks' he', List.rel_append hagree' (.cons ⟨rfl, hee'⟩ .nil)⟩

end Translator

/-- **A frame with another ordering returns its documents in that order**, where the keys are read
through the alias of its statement. -/
theorem Frame.sorted_of_reorder {documents documents' : List Document} {aliasName : String}
    (htidy : f.Tidy) (htidy' : (f.reorder ks).Tidy) (hopen : f.isSettled = false)
    (hcollates : ∀ k, Collates ((f.reorder ks).finish.Orders env k))
    (hkeys : List.Forall₂ (OrderKey.Agree env (f.yield.Reads env aliasName)) ks ks')
    (hrun : f.finish.run env = .ok documents)
    (hrun' : (f.reorder ks).finish.run env = .ok documents') :
    ∃ values, (∀ d ∈ documents, keysOf env ks' aliasName d = .ok (values d)) ∧
      SortedBy ks' values documents documents' ∧
      (f.orderBy = [] → KeepsTies ks' values documents documents') := by
  have hflat := f.isFlat_clauses htidy hopen
  have hflat' : (f.clauses.reorder ks).IsFlat := Frame.isFlat_clauses htidy' hopen
  obtain ⟨sources, hsources, hrun⟩ := Computation.bind_eq_ok.1 hrun
  obtain ⟨rows, hrows, hrun⟩ := Computation.bind_eq_ok.1 hrun
  obtain ⟨sources₁, hsources₁, hrun'⟩ := Computation.bind_eq_ok.1 hrun'
  cases hsources.symm.trans hsources₁
  obtain ⟨rows₁, hrows₁, hrun'⟩ := Computation.bind_eq_ok.1 hrun'
  cases hrows.symm.trans hrows₁
  obtain ⟨kept, -, -, hkept, -⟩ := hflat.run_eq_ok.1 hrun
  have hcollated : (f.clauses.reorder ks).Collated env (kept.map .ofRow) :=
    Frame.collated (f := f.reorder ks)
      (Frame.isUnfolded_clauses htidy' (Frame.isSealed_of_isSettled hopen)) hcollates hsources hrows
      hkept
  -- a document has the values of the row of which it is made
  have hread : ∀ row ∈ kept, ∀ d, f.yield.selection.project env (.ofRow row) = .ok (some d) →
      ∃ vs, evalList env (ks.map OrderKey.key) (.ofRow row) = .ok vs ∧
        keysOf env ks' aliasName d = .ok vs := by
    intro row hrow d hd
    obtain ⟨sorted, hsorted, -⟩ := hflat'.eq_made hkept hrun'
    obtain ⟨vs, hvs⟩ := Clauses.exists_keys hsorted _ (List.mem_map_of_mem hrow)
    exact ⟨vs, hvs, (keysOf_of_agree hkeys ⟨d, hd, rfl⟩).trans hvs⟩
  have hvalues : ∀ row ∈ kept, ∀ d, f.yield.selection.project env (.ofRow row) = .ok (some d) →
      evalList env (ks.map OrderKey.key) (.ofRow row) =
        .ok (Computation.members (keysOf env ks' aliasName d)) := by
    intro row hrow d hd
    obtain ⟨vs, hvs, hkeys⟩ := hread row hrow d hd
    rw [hvs, Computation.members_of_eq_ok hkeys]
  refine ⟨fun d => Computation.members (keysOf env ks' aliasName d), fun d hd => ?_, ?_, ?_⟩
  · obtain ⟨sorted, hsorted, rfl⟩ := hflat.eq_made hkept hrun
    obtain ⟨scope, hscope, hmade⟩ := List.mem_filterMap.1 hd
    obtain ⟨row, hrow, rfl⟩ := List.mem_map.1 ((Clauses.ordered_perm hsorted).mem_iff.1 hscope)
    obtain ⟨vs, -, hkeys⟩ := hread row hrow d (Selection.made?_eq_some.1 hmade)
    exact hkeys.trans (congrArg Except.ok (Computation.members_of_eq_ok hkeys).symm)
  · have hsorted := Clauses.run_reorder hflat hflat' hkept hcollated hvalues hrun hrun'
    exact ⟨hsorted.perm, compareKeys_eq_of_agree hkeys ▸ hsorted.ascending⟩
  · intro horder
    rw [KeepsTies, compareKeys_eq_of_agree hkeys]
    exact Clauses.keepsTies_reorder hflat hflat' horder hkept hcollated hvalues hrun hrun'

end

/-! ## Orderings of their own

A further ordering takes the place of an earlier one, of which nothing is left.  So the documents
that do not differ in its keys stay in place only if there was no earlier one. -/

/-- A frame that is entered has no order if that of its stage has none. -/
lemma Stage.Enters.orderBy_eq_nil {closed : Frame → Bool} {s : Stage} {f : Frame}
    (henters : s.Enters closed f)
    (h : ∀ g, s = .frame g → g.isSettled = false → g.orderBy = []) (hopen : f.isSettled = false) :
    f.orderBy = [] := by
  cases henters with
  | kept => exact h f rfl hopen
  | nested => rfl
  | compound => rfl

/-- **A query without an ordering of its own becomes a frame without one**, unless the frame takes
no further clauses. -/
theorem Translator.Lowered.orderBy_eq_nil {tr : Translator} {n m : Nat} {q : Query} {s : Stage}
    (h : Lowered tr n q s m) (hq : q.isOrdered = false) :
    ∀ f, s = .frame f → f.isSettled = false → f.orderBy = [] := by
  induction h with
  | source =>
      rintro f ⟨⟩ _
      rfl
  | filter _ henter ih | project _ henter ih =>
      rintro f ⟨⟩ hopen
      exact henter.orderBy_eq_nil (ih hq) hopen
  | orderBy | thenBy => cases hq
  | groupBy | distinct | conclude =>
      rintro f ⟨⟩ hopen
      simp [Frame.isSettled, Frame.isSealed, Frame.grouped, Frame.concluded] at hopen
  | join _ _ _ henter _ _ _ _ ih _ =>
      rintro f ⟨⟩ hopen
      exact henter.orderBy_eq_nil (ih hq) hopen
  | correlate _ henter _ _ _ _ ih =>
      rintro f ⟨⟩ hopen
      exact henter.orderBy_eq_nil (ih hq) hopen
  | skip | take =>
      rintro f ⟨⟩ hopen
      simp [Frame.isSettled, Frame.isPaged] at hopen
  | combine =>
      rintro f ⟨⟩

/-! ## Queries in an order -/

/-- The constants of the keys come behind those of the query. -/
lemma Query.constants_orderedBy (q : Query) (key : Formula × Bool) (keys : List (Formula × Bool)) :
    ∃ more, (q.orderedBy key keys).constants = q.constants ++ more := by
  induction keys using List.reverseRecOn with
  | nil => exact ⟨_, rfl⟩
  | append_singleton keys k ih =>
      obtain ⟨more, hmore⟩ := ih
      rw [orderedBy, List.foldl_append]
      refine ⟨more ++ Formula.constantsOf [k.1], ?_⟩
      rw [← List.append_assoc, ← hmore]
      rfl

/-- **Orderings put rows into the order of their keys.**  If a query has rows, and so has the query
in the order of some keys, then the latter are the former in that order: a row is not greater than
those behind it, as the keys compare them one after the other, each in its direction.  Rows that do
not differ in the keys keep their places unless the query carries an ordering of its own.  The keys
are read through the alias of a source that is the statement of the query, and have values on all
rows. -/
theorem rows_orderBy {tr : Translator} {c : Context} {q : Query} {key : Formula × Bool}
    {keys : List (Formula × Bool)} {t t' : Translation} {collections : Collections}
    {parameters parameters' : List (String × Document)} {rows rows' : List Document}
    (h : q.HasRows tr c t ⟨collections, parameters⟩ rows)
    (h' : (q.orderedBy key keys).HasRows tr c t' ⟨collections, parameters'⟩ rows')
    (hnames : t.shape.NamesDiffer)
    (hcollates : ∀ k, Collates (t'.query.statement.Orders ⟨collections, parameters'⟩ k))
    (aliasName : String) :
    ∃ ks p values, tr.nestedOrder aliasName q (key :: keys) {} = .ok (ks, p) ∧
      (∀ d ∈ rows, keysOf ⟨collections, parameters'⟩ ks aliasName d = .ok (values d)) ∧
      SortedBy ks values rows rows' ∧
      (q.isOrdered = false → KeepsTies ks values rows rows') := by
  obtain ⟨stage, p, hstage, hquery, hshape, hrun⟩ := h.staged
  obtain ⟨stage', p', hstage', hquery', -, hrows'⟩ := h'.staged
  obtain ⟨hlowered, -⟩ := Translator.stage_eq_ok hstage
  obtain ⟨hlowered', -⟩ := Translator.stage_eq_ok hstage'
  obtain ⟨input, p₁, frame, p₂, ks, hinput, henter, rfl, hkeys⟩ :=
    Translator.stage_orderedBy hstage'
  cases hstage.symm.trans hinput
  obtain ⟨henters, hreads⟩ := Stage.enter_eq_ok henter
  have htidy : frame.Tidy := hlowered.tidy.enter henters
  have hdistinct : frame.yield.names.Nodup :=
    henters.names ▸ Translator.names_rowShape hshape hnames
  -- the keys are read from the documents of the frame as from its rows
  obtain ⟨ks', hks', hagree⟩ := hkeys ⟨collections, parameters'⟩ _ _
    (frame.agree_ofStatement htidy hdistinct stage.statement aliasName)
  have hreads' := Translator.orderKeys_reads hks'
  have hext : Environment.Extends ⟨collections, parameters'⟩ ⟨collections, parameters⟩ := by
    obtain ⟨more, hmore⟩ := q.constants_orderedBy key keys
    refine h.extends ?_ hmore h'.bound
    rw [hquery, hquery']
    exact hreads'.parameters.extends.trans hreads.parameters.extends
  have hrows : stage.statement.run ⟨collections, parameters'⟩ = .ok rows :=
    Statement.run_persists hext _ _ hrun
  have hcollates' : ∀ k, Collates ((frame.reorder ks).finish.Orders ⟨collections, parameters'⟩ k) := by
    intro k
    have hk := hcollates k
    rwa [hquery'] at hk
  obtain ⟨values, hvalues, hsorted, hties⟩ := Frame.sorted_of_reorder htidy hlowered'.tidy
    henters.isSettled hcollates' hagree (henters.finish hrows (hlowered.fits hrows)) hrows'
  -- the keys have the same translation where no alias has been made up for the source
  obtain ⟨count, rfl⟩ := Stage.enter_withAliases henter
  rw [henters.ofStatement_eq] at hks'
  obtain ⟨p₃, hks'⟩ := (Translator.orderKeys_ignoresAliases (key :: keys)).eq_ok hks'
  refine ⟨ks', p₃, values, Translating.bind_eq_ok.2 ⟨stage, p, hstage, hks'⟩, hvalues, hsorted,
    fun hq => hties ?_⟩
  exact henters.orderBy_eq_nil (hlowered.orderBy_eq_nil hq) henters.isSettled

namespace Sample

/-- The name of a person, and that names are ascending. -/
def byName : Formula × Bool := (.property ⟨"p", "Person", "name", ["name"], .string, false⟩, false)

/-- A field that has the name of an alias, and that its values are ascending. -/
def byField : Formula × Bool := (.member "q" .int64 true, false)

/-- A person of 12 years of whom a further thing is known. -/
def noted : Document := .object [("age", .ofInt 12), ("name", .string "Ann"), ("note", .null)]

/-- A row of a person with the persons of the same age. -/
def personRow (person : Document) : Document := .object [("person", person), ("q", person)]

end Sample

/-- Two adults from the greatest age on, and in the order of their names. -/
theorem rows_orderBy_adults : ∃ t t' parameters parameters',
    Sample.adults.HasRows Sample.translator {} t ⟨Sample.threePersons, parameters⟩
      [Sample.aged 30, Sample.aged 40] ∧
    (Sample.adults.orderedBy (Sample.age, true) [Sample.byName]).HasRows Sample.translator {} t'
      ⟨Sample.threePersons, parameters'⟩ [Sample.aged 40, Sample.aged 30] ∧
    t.shape.NamesDiffer ∧
    (∀ k, Collates (t'.query.statement.Orders ⟨Sample.threePersons, parameters'⟩ k)) ∧
    ∃ ks p values, Sample.translator.nestedOrder "row" Sample.adults
        [(Sample.age, true), Sample.byName] {} = .ok (ks, p) ∧
      (∀ d ∈ [Sample.aged 30, Sample.aged 40],
        keysOf ⟨Sample.threePersons, parameters'⟩ ks "row" d = .ok (values d)) ∧
      SortedBy ks values [Sample.aged 30, Sample.aged 40] [Sample.aged 40, Sample.aged 30] ∧
      (Sample.adults.isOrdered = false →
        KeepsTies ks values [Sample.aged 30, Sample.aged 40] [Sample.aged 40, Sample.aged 30]) := by
  obtain ⟨t, parameters, h, hnames⟩ : ∃ t parameters,
      Sample.adults.HasRows Sample.translator {} t ⟨Sample.threePersons, parameters⟩
        [Sample.aged 30, Sample.aged 40] ∧ t.shape.NamesDiffer :=
    ⟨_, _, ⟨rfl, ⟨⟨[]⟩, 0, _, rfl, rfl⟩, rfl⟩, trivial⟩
  obtain ⟨t', parameters', h', hcollates⟩ : ∃ t' parameters',
      (Sample.adults.orderedBy (Sample.age, true) [Sample.byName]).HasRows Sample.translator {} t'
        ⟨Sample.threePersons, parameters'⟩ [Sample.aged 40, Sample.aged 30] ∧
      ∀ k, Collates (t'.query.statement.Orders ⟨Sample.threePersons, parameters'⟩ k) := by
    refine ⟨_, _, ⟨rfl, ⟨⟨[]⟩, 0, _, rfl, rfl⟩, rfl⟩, fun k => collates_small.mono fun d hd => ?_⟩
    obtain ⟨hk, _, _, _, _, hsources, hrows, hkept, hscopes, scope, hscope, hd⟩ := hd
    cases hsources
    cases hrows
    cases hkept
    cases hscopes
    obtain ⟨row, hrow, rfl⟩ := List.mem_map.1 hscope
    -- the keys are the ages and the names of the two adults
    have hrow : row ∈ [Row.single "p" (Sample.aged 30), .single "p" (Sample.aged 40)] := hrow
    simp only [List.mem_cons, List.not_mem_nil, or_false] at hrow
    have hd : d = some (.ofInt 30) ∨ d = some (.ofInt 40) ∨ d = some (.string "Ann") := by
      rcases List.mem_cons.1 hk with rfl | hk
      · rcases hrow with rfl | rfl
        · exact .inl (Except.ok.inj hd).symm
        · exact .inr (.inl (Except.ok.inj hd).symm)
      · cases List.mem_singleton.1 hk
        rcases hrow with rfl | rfl <;> exact .inr (.inr (Except.ok.inj hd).symm)
    rcases hd with rfl | rfl | rfl <;>
      simp [Datum.Over, Datum.numbers, Document.ofInt, Document.numbers, Number.IsOrdered]
  exact ⟨t, t', parameters, parameters', h, h', hnames, hcollates,
    rows_orderBy h h' hnames hcollates "row"⟩

/-- A field of a record whose name occurs twice holds persons, but an ordering by the field is by
the ages that it does not hold. -/
theorem rows_orderBy_differ : ∃ t t' parameters parameters' ks p,
    Sample.ageTwice.HasRows Sample.translator {} t
      ⟨Sample.collectionsOf [Sample.noted, Sample.aged 30], parameters⟩
      [Sample.personRow Sample.noted, Sample.personRow (Sample.aged 30)] ∧
    (Sample.ageTwice.orderedBy Sample.byField []).HasRows Sample.translator {} t'
      ⟨Sample.collectionsOf [Sample.noted, Sample.aged 30], parameters'⟩
      [Sample.personRow Sample.noted, Sample.personRow (Sample.aged 30)] ∧
    (∀ k, Collates (t'.query.statement.Orders
      ⟨Sample.collectionsOf [Sample.noted, Sample.aged 30], parameters'⟩ k)) ∧
    Sample.translator.nestedOrder "row" Sample.ageTwice [Sample.byField] {} = .ok (ks, p) ∧
    ∀ values : Document → List Datum,
      (∀ d ∈ [Sample.personRow Sample.noted, Sample.personRow (Sample.aged 30)],
        keysOf ⟨Sample.collectionsOf [Sample.noted, Sample.aged 30], parameters'⟩ ks "row" d =
          .ok (values d)) →
      ¬ SortedBy ks values [Sample.personRow Sample.noted, Sample.personRow (Sample.aged 30)]
        [Sample.personRow Sample.noted, Sample.personRow (Sample.aged 30)] := by
  refine ⟨_, _, _, _, _, _, ⟨rfl, ⟨⟨[]⟩, 0, _, rfl, rfl⟩, rfl⟩,
    ⟨rfl, ⟨⟨[]⟩, 0, _, rfl, rfl⟩, rfl⟩, fun k => ?_, rfl, fun values hvalues hsorted => ?_⟩
  · refine collates_ints fun d hd => ?_
    obtain ⟨hk, _, _, _, _, hsources, hrows, hkept, hscopes, scope, hscope, hd⟩ := hd
    cases List.mem_singleton.1 hk
    cases hsources
    cases hrows
    cases hkept
    cases hscopes
    obtain ⟨row, hrow, rfl⟩ := List.mem_map.1 hscope
    have hrow : row ∈ [Row.bind (.single "p" Sample.noted) "q" (some Sample.noted),
        .bind (.single "p" (Sample.aged 30)) "q" (some (Sample.aged 30))] := hrow
    simp only [List.mem_cons, List.not_mem_nil, or_false] at hrow
    rcases hrow with rfl | rfl
    · exact ⟨12, rfl, (Except.ok.inj hd).symm⟩
    · exact ⟨30, rfl, (Except.ok.inj hd).symm⟩
  · have hfirst := hvalues _ List.mem_cons_self
    have hsecond := hvalues _ (.tail _ List.mem_cons_self)
    have hle := (List.pairwise_cons.1 hsorted.ascending).1 _ List.mem_cons_self
    rw [← Except.ok.inj hfirst, ← Except.ok.inj hsecond] at hle
    exact hle rfl

end EntityQuery
