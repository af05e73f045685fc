import EntityQuery.Proofs.Plan.Embedding

/-!
# What the placeholders of a query stand for

When a query is bound, each of its inputs has a placeholder, and the placeholder has the document of
the input as its value: that of a constant is what its codec writes, that of a parameter what the
codec writes for the value of the context.  So two queries that read an input, at whichever slot,
see the same document.

* `Input.document?`: the document of an input.
* `Environment.Assigns`: the placeholders of some inputs have their documents as values.
* `Query.IsBound.assigns`: so it is in the environment of a query that is bound.
* `Environment.Assigns.moves`: what two environments assign is found in the one as in the other.
-/

namespace EntityQuery

/-! ## Documents of inputs

Which placeholder an input has depends on what has been read before it, but what the placeholder
stands for does not.  Inputs are assigned their documents from some slot on. -/

/-- The document that is sent for an input: a constant is written as it is, and a parameter as its
value in the context. -/
def Input.document? (registry : Registry) (c : Context) : Input → Option Document
  | .slot s => s.captured.document? registry
  | .parameter name t =>
    (c.parameter? name).bind fun value => Captured.document? registry ⟨value, t⟩

/-- The placeholders of some inputs, with slots counted from `n` on, have the documents of the
inputs as their values. -/
def Environment.Assigns (env : Environment) (document? : Input → Option Document) (n : Nat)
    (is : List Input) : Prop :=
  EachInput
    (fun k c => ∃ d, document? (.slot ⟨c, false⟩) = some d ∧ env.parameter? (slotName k) = some d)
    (fun name t => ∃ d, document? (.parameter name t) = some d ∧ env.parameter? name = some d) n is

lemma Environment.assigns_append {env : Environment} {document? : Input → Option Document} {n : Nat}
    {is js : List Input} : env.Assigns document? n (is ++ js) ↔
      env.Assigns document? n is ∧ env.Assigns document? (n + (slotsOf is).length) js :=
  eachInput_append

/-- What two environments assign to some inputs is found in the one as in the other. -/
lemma Environment.Assigns.moves {env env' : Environment} {document? : Input → Option Document}
    {shift n : Nat} {is : List Input} (hcollections : env'.collections = env.collections)
    (h : env.Assigns document? n is) (h' : env'.Assigns document? (n + shift) is) :
    env.Moves env' shift n is := by
  refine ⟨hcollections, fun k c hk d hd => ?_, fun name t hmem d hd => ?_⟩
  · obtain ⟨d₀, hdocument, hvalue⟩ := h.slots k c hk
    obtain ⟨d₁, hdocument', hvalue'⟩ := h'.slots k c hk
    rw [Nat.add_right_comm] at hvalue'
    rw [hvalue', ← hdocument', hdocument, ← hvalue, hd]
  · obtain ⟨d₀, hdocument, hvalue⟩ := h.parameters name t hmem
    obtain ⟨d₁, hdocument', hvalue'⟩ := h'.parameters name t hmem
    rw [hvalue', ← hdocument', hdocument, ← hvalue, hd]

/-! ## Queries that are bound -/

/-- A query is translated, and its constants and parameters are bound for its statement. -/
structure Query.IsBound (tr : Translator) (c : Context) (q : Query) (t : Translation)
    (parameters : List (String × Document)) : Prop where
  translated : tr.translate q = .ok t
  bound : ∃ key number plan, Plan.compile tr.registry key number t = .ok plan ∧
    plan.bind q.constants c = .ok parameters

/-- A query that is bound has the rows that its statement returns. -/
lemma Query.IsBound.hasRows_iff {tr : Translator} {c : Context} {q : Query} {t : Translation}
    {parameters : List (String × Document)} (h : q.IsBound tr c t parameters)
    {collections : Collections} {rows : List Document} :
    q.HasRows tr c t ⟨collections, parameters⟩ rows ↔
      t.query.statement.run ⟨collections, parameters⟩ = .ok rows :=
  ⟨fun hrows => hrows.run, fun hrun => ⟨h.translated, h.bound, hrun⟩⟩

/-- **In the environment of a query that is bound, each input has its document.** -/
theorem Query.IsBound.assigns {tr : Translator} {c : Context} {q : Query} {t : Translation}
    {parameters : List (String × Document)} (h : q.IsBound tr c t parameters) (hq : q.WellFormed)
    (collections : Collections) :
    Environment.Assigns ⟨collections, parameters⟩ (Input.document? tr.registry c) 0 q.inputs := by
  obtain ⟨stage, progress, hstage, hquery, -⟩ := Translator.translate_eq_ok h.translated
  obtain ⟨-, hreads⟩ := Translator.stage_eq_ok hstage
  obtain ⟨_, _, plan, hplan, hbind⟩ := h.bound
  have hbinds : ParameterTable.Binds 0 q.inputs .empty t.query.parameters := by
    rw [hquery]
    exact hreads.parameters
  refine ⟨fun k captured hk => ?_, fun name type hmem => ?_⟩
  · obtain ⟨e, hfind, horigin, htype⟩ := hbinds.find?_slot hk
    obtain ⟨value, d, hvalue, hd, hparameter⟩ :=
      Plan.parameter?_of_entry hplan hbind hfind collections
    have hconstant : q.constants[k]? = some captured := by
      rw [← Query.captured_slots hq, List.getElem?_map, Query.slots, hk]
      rfl
    rw [ParameterEntry.eq_value_of_supply hvalue horigin hconstant, htype] at hd
    rw [Nat.zero_add]
    exact ⟨d, hd, hparameter⟩
  · obtain ⟨e, hfind, horigin, rfl⟩ := hbinds.find?_named hmem
    obtain ⟨value, d, hvalue, hd, hparameter⟩ :=
      Plan.parameter?_of_entry hplan hbind hfind collections
    have hsupplied := ParameterEntry.parameter?_of_supply hvalue horigin
    rw [(ParameterTable.find?_eq_some hfind).2] at hsupplied
    exact ⟨d, by rw [Input.document?, hsupplied, Option.bind_some, hd], hparameter⟩

end EntityQuery
