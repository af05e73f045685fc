import EntityQuery.Proofs.Execution.Streams
import EntityQuery.Provider.Session

/-!
# Draining results

Results are polled until their query has ended.  What they yield depends on the documents of their
cursor only, which are those of a stream of documents that is polled on the same schedule.

* `RowShape.yield`: what is made of rows, up to the error that ends the results.
* `Session.drain`: results that are polled on a schedule; `Session.drain_plain` for one on which
  nothing else happens.
* `Session.Drawing`: results go along with the stream of their documents; `Session.Drawing.turn`,
  `Session.Drawing.next_none` and `Session.Drawing.next_some` are the steps.
* `results_drained`: what comes of all rows, and how the context and the counters end.
-/

namespace EntityQuery

/-! ## What is made of rows

Results turn the stream of documents into items by a function of lists: each row is decoded, up to
the first item with which the results end.  It is defined without contexts, cursors or counters. -/

/-- The members of a list up to the first one that passes a test, together with it. -/
def upToFirst {α : Type} (test : α → Bool) : List α → List α
  | [] => []
  | a :: as => a :: if test a then [] else upToFirst test as

/-- Whether results end with what is made of a row: with a codec that fails, and with any error if
the application asks for it. -/
def endsResults (failFast : Bool) : Except MaterializationError Materialized → Bool
  | .ok _ => false
  | .error (.decode _ (.codec ..)) => true
  | .error _ => failFast

namespace RowShape

/-- What results yield of rows. -/
def yield (shape : RowShape) (failFast : Bool) (rows : List Document) :
    List (Except MaterializationError Materialized) :=
  upToFirst (endsResults failFast) (rows.map shape.materialize)

/-- Whether results end before the last of some rows or with it. -/
def cuts (shape : RowShape) (failFast : Bool) (rows : List Document) : Bool :=
  (rows.map shape.materialize).any (endsResults failFast)

end RowShape

/-- How a query ends when its documents end, perhaps with an error. -/
def QueryState.ofEnding : Option ClientError → QueryState
  | none => .completed
  | some .canceled => .canceled
  | some _ => .faulted

/-- The counters after results have yielded something. -/
def Counters.count (c : Counters) (made : List (Except MaterializationError Materialized)) :
    Counters :=
  { c with
    materialized := c.materialized + made.countP (·.isOk)
    failures := c.failures + made.countP (!·.isOk) }

namespace RowShape

variable {shape : RowShape} {failFast : Bool} {row : Document} {rows : List Document}

lemma outcome_row :
    shape.outcome failFast (some (.ok row)) =
      ⟨some ((shape.materialize row).mapError .materialization),
        if endsResults failFast (shape.materialize row) then some .faulted else none⟩ := by
  have hends (e : MaterializationError) :
      (e.isFatal || failFast) = endsResults failFast (.error e) := by
    cases e with
    | decode path cause => cases cause <;> rfl
    | _ => rfl
  rw [outcome]
  cases shape.materialize row with
  | ok item => rfl
  | error e =>
      simp only [hends]
      rfl

lemma outcome_ending (ending : Option ClientError) :
    shape.outcome failFast (ending.map .error) =
      ⟨ending.map fun e => .error (.client e), some (.ofEnding ending)⟩ := by
  rcases ending with _ | e
  · rfl
  · cases e <;> rfl

/-- No item comes at the end only. -/
lemma ending_of_item_none {answer : Option (Except ClientError Document)}
    (h : (shape.outcome failFast answer).item = none) :
    (shape.outcome failFast answer).ending.isSome = true := by
  rcases answer with _ | e | row
  · rfl
  · cases h
  · rw [outcome_row] at h
    cases h

lemma yield_cons :
    shape.yield failFast (row :: rows) = shape.materialize row ::
      if endsResults failFast (shape.materialize row) then [] else shape.yield failFast rows := rfl

lemma cuts_cons :
    shape.cuts failFast (row :: rows) =
      (endsResults failFast (shape.materialize row) || shape.cuts failFast rows) := rfl

end RowShape

namespace Counters

variable {c : Counters}

/-- The end of a query is counted under its state. -/
lemma countEnd_of_isTerminal {state : QueryState} (h : state.isTerminal = true) :
    c.countEnd state = { c with
      completed := c.completed + if state = .completed then 1 else 0
      canceled := c.canceled + if state = .canceled then 1 else 0
      faulted := c.faulted + if state = .faulted then 1 else 0 } := by
  cases state with
  | created | executing => cases h
  | completed | canceled | faulted => rfl

end Counters

lemma QueryState.isTerminal_ofEnding (ending : Option ClientError) :
    (ofEnding ending).isTerminal = true := by
  rcases ending with _ | e
  · rfl
  · cases e <;> rfl

/-- A context that may be moved on is. -/
lemma Context.finish_of_canBecome {c : Context} {ending : QueryState}
    (h : c.state.canBecome ending = true) : c.finish ending = some { c with state := ending } := by
  rw [finish, transition, if_pos h]
  rfl

namespace Provider

variable {p : Provider} {ending : Option QueryState}

lemma counters_countItem_row (made : Except MaterializationError Materialized) :
    (p.countItem ⟨some (made.mapError .materialization), ending⟩).counters =
      p.counters.count [made] := by
  cases made with
  | ok item => rfl
  | error e => cases ending <;> rfl

lemma counters_countItem_error (e : Option ClientError) :
    (p.countItem ⟨e.map fun e => .error (.client e), ending⟩).counters = p.counters := by
  cases e <;> rfl

end Provider

/-! ## Results that are polled

A drained session is compared, turn by turn, with the stream that its cursor draws from.  The
induction is on what the stream has yet to give, and says of each item and of the end what they add
to the counters. -/

namespace Session

/-- The session after a turn in which the query of a context may be canceled. -/
def turn (s : Session) (context : Nat) (t : Turn) : Session :=
  let s := { s with store := t.change s.store }
  if t.cancels then s.cancel context else s

lemma turn_eq (s : Session) (context : Nat) (t : Turn) :
    s.turn context t = { s with
      store := t.change s.store
      signals :=
        if t.cancels then s.signals.cancel (s.context context).signal else s.signals } := by
  rw [turn]
  cases t.cancels <;> rfl

@[simp] lemma results_turn (s : Session) (context : Nat) (t : Turn) :
    (s.turn context t).results = s.results := by rw [turn_eq]

@[simp] lemma contexts_turn (s : Session) (context : Nat) (t : Turn) :
    (s.turn context t).contexts = s.contexts := by rw [turn_eq]

@[simp] lemma context_turn (s : Session) (context : Nat) (t : Turn) (number : Nat) :
    (s.turn context t).context number = s.context number := by rw [turn_eq]; rfl

/-- A turn is not counted. -/
@[simp] lemma provider_turn (s : Session) (context : Nat) (t : Turn) :
    (s.turn context t).provider = s.provider := by rw [turn_eq]

/-- Asks for an item of results after each of some turns. -/
def drain (number context : Nat) : Session → List Turn →
    Session × List (Option (Except Failure Materialized))
  | s, [] => (s, [])
  | s, t :: turns =>
    let (s, item) := (s.turn context t).next number none
    let (s, items) := drain number context s turns
    (s, item :: items)

/-- The stream of the documents of results. -/
def documents (s : Session) (r : Results) : DocumentStream where
  cursor := r.cursor
  store := s.store
  canceled := s.isCanceled r.context

section Plain

variable {number context : Nat} {s : Session}

lemma drain_cons (t : Turn) (turns : List Turn) :
    drain number context s (t :: turns) =
      ((drain number context ((s.turn context t).next number none).1 turns).1,
        ((s.turn context t).next number none).2 ::
          (drain number context ((s.turn context t).next number none).1 turns).2) := rfl

lemma turn_plain : s.turn context {} = s := rfl

/-- When no item comes, none comes later. -/
lemma next_ended (h : (s.next number none).2 = none) :
    (s.next number none).1.next number none = ((s.next number none).1, none) := by
  cases hresults : s.results[number]? with
  | none =>
      have hnext : s.next number none = (s, none) := by simp only [next, hresults]
      rw [hnext, hnext]
  | some r =>
      by_cases hdone : r.done = true
      · have hnext : s.next number none = (s, none) := by simp only [next, hresults, hdone, if_true]
        rw [hnext, hnext]
      · simp only [next, hresults, hdone, Bool.false_eq_true, if_false] at h ⊢
        have hnumber : number < s.results.length := (List.getElem?_eq_some_iff.1 hresults).1
        have hends := RowShape.ending_of_item_none h
        have hset : ∀ d o, (s.settle number r d o).results[number]? =
            some { r with cursor := d.cursor, done := o.ending.isSome } :=
          fun d o => List.getElem?_set_self hnumber
        simp only [hset, hends, if_true]

/-- **A schedule on which nothing else happens.**  The items are those that are pulled. -/
theorem drain_plain (n : Nat) :
    drain number context s (List.replicate n {}) =
      ((s.pull number n).1, shown (s.pull number n).2.1 n) := by
  have hended : ∀ {s : Session} (n : Nat), s.next number none = (s, none) →
      drain number context s (List.replicate n {}) = (s, List.replicate n none) := by
    intro s n h
    induction n with
    | zero => rfl
    | succ n ih => rw [List.replicate_succ, drain_cons, turn_plain, h, ih, List.replicate_succ]
  induction n generalizing s with
  | zero => rfl
  | succ n ih =>
      rw [List.replicate_succ, drain_cons, turn_plain, pull]
      rcases hnext : s.next number none with ⟨s', _ | item⟩
      · have hquiet := next_ended (congrArg Prod.snd hnext)
        rw [hnext] at hquiet
        simp only [hended n hquiet, shown_nil, List.replicate_succ]
      · simp only [ih, shown_cons]

end Plain

/-- Results of rows of a shape in a context go along with the stream of their documents. -/
structure Drawing (number context : Nat) (shape : RowShape) (c : Context) (s : Session)
    (st : DocumentStream) : Prop where
  results : s.results[number]? = some { cursor := st.cursor, shape, context }
  store : s.store = st.store
  canceled : s.isCanceled context = st.canceled
  context_eq : s.context context = c
  executing : c.state = .executing
  /-- The context has been created. -/
  created : context < s.contexts.length
  /-- Its signal has. -/
  signal : c.signal < s.signals.states.length

section

variable {number context : Nat} {shape : RowShape} {c : Context} {s : Session} {st : DocumentStream}

/-- A signal that exists can be canceled. -/
lemma isCanceled_cancel_self {s : Signals} {n : Nat} (h : n < s.states.length) :
    (s.cancel n).isCanceled n = true := by
  simp [Signals.isCanceled, Signals.cancel, List.getD_eq_getElem?_getD, h]

lemma setContext_self (h : context < s.contexts.length) :
    s.setContext context (s.context context) = s := by
  rw [setContext, Session.context, List.getD_eq_getElem?_getD, List.getElem?_eq_getElem h,
    Option.getD_some, List.set_getElem_self]

lemma context_setContext (h : context < s.contexts.length) :
    (s.setContext context c).context context = c := by
  simp [setContext, Session.context, List.getD_eq_getElem?_getD, h]

/-- **One turn** on both sides. -/
lemma Drawing.turn (h : Drawing number context shape c s st) (t : Turn) :
    Drawing number context shape c (s.turn context t) (st.turn t) where
  results := by rw [results_turn, h.results]; rfl
  store := by rw [turn_eq, DocumentStream.turn, h.store]
  canceled := by
    rw [isCanceled, context_turn, turn_eq, DocumentStream.turn, ← h.canceled, isCanceled,
      h.context_eq]
    cases t.cancels
    · exact (Bool.or_false _).symm
    · exact (isCanceled_cancel_self h.signal).trans (Bool.or_true _).symm
  context_eq := by rw [context_turn, h.context_eq]
  executing := h.executing
  created := by rw [contexts_turn]; exact h.created
  signal := by
    rw [turn_eq, h.context_eq]
    cases t.cancels
    · exact h.signal
    · exact h.signal.trans_eq List.length_set.symm

/-- An item comes of the next document. -/
lemma Drawing.next_eq (h : Drawing number context shape c s st) :
    s.next number none =
      (s.settle number { cursor := st.cursor, shape, context }
          ⟨st.poll.1.cursor, st.poll.1.store, st.poll.2.answer⟩
          (shape.outcome c.failFast st.poll.2.answer),
        (shape.outcome c.failFast st.poll.2.answer).item) := by
  simp only [next, h.results, Bool.false_eq_true, if_false, h.store, h.canceled, h.context_eq]
  rfl

/-- **An item with which the results do not end.** -/
lemma Drawing.next_none (h : Drawing number context shape c s st)
    (hending : (shape.outcome c.failFast st.poll.2.answer).ending = none) :
    Drawing number context shape c (s.next number none).1 st.poll.1 ∧
      (s.next number none).2 = (shape.outcome c.failFast st.poll.2.answer).item ∧
      (s.next number none).1.provider =
        s.provider.countItem (shape.outcome c.failFast st.poll.2.answer) := by
  have hnumber : number < s.results.length := (List.getElem?_eq_some_iff.1 h.results).1
  rw [h.next_eq]
  simp only [settle, Provider.settle, hending, setContext_self h.created, Option.isSome_none]
  refine ⟨⟨?_, rfl, ?_, ?_, h.executing, h.created, h.signal⟩, trivial, trivial⟩
  · exact List.getElem?_set_self hnumber
  · exact h.canceled
  · exact h.context_eq

/-- **An item with which the results end**, or no item. -/
lemma Drawing.next_some (h : Drawing number context shape c s st) {ending : QueryState}
    (hending : (shape.outcome c.failFast st.poll.2.answer).ending = some ending)
    (hterminal : ending.isTerminal = true) :
    (∃ r, (s.next number none).1.results[number]? = some r ∧ r.done = true) ∧
      ((s.next number none).1.context context).state = ending ∧
      (s.next number none).1.provider.counters =
        (s.provider.countItem (shape.outcome c.failFast st.poll.2.answer)).counters.countEnd
          ending := by
  have hnumber : number < s.results.length := (List.getElem?_eq_some_iff.1 h.results).1
  have hbecome : c.state.canBecome ending = true := by
    rw [h.executing]
    exact hterminal
  have hfinish := Context.finish_of_canBecome hbecome
  rw [h.next_eq]
  simp only [settle, Provider.settle, hending, h.context_eq, Provider.finish, hfinish,
    Option.isSome_some]
  refine ⟨⟨_, List.getElem?_set_self hnumber, rfl⟩, ?_, rfl⟩
  have hcontext := @context_setContext context { c with state := ending } s h.created
  exact congrArg Context.state hcontext

/-- After the end polls come to nothing and change neither contexts nor counters. -/
lemma drain_done (hdone : ∃ r, s.results[number]? = some r ∧ r.done = true) (turns : List Turn) :
    (drain number context s turns).2 = List.replicate turns.length none ∧
      (drain number context s turns).1.context context = s.context context ∧
      (drain number context s turns).1.provider = s.provider := by
  induction turns generalizing s with
  | nil => exact ⟨rfl, rfl, rfl⟩
  | cons t turns ih =>
      obtain ⟨r, hr, hdone⟩ := hdone
      have hresults : (s.turn context t).results[number]? = some r := by rw [results_turn, hr]
      have hnext : (s.turn context t).next number none = (s.turn context t, none) := by
        simp only [next, hresults, hdone, if_true]
      obtain ⟨hitems, hstate, hprovider⟩ := @ih (s.turn context t) ⟨r, hresults, hdone⟩
      rw [drain_cons, hnext]
      refine ⟨?_, hstate.trans (context_turn ..), hprovider.trans (provider_turn ..)⟩
      rw [hitems, List.length_cons, List.replicate_succ]

/-- How draining ends that starts with some counters: what comes of rows and of their ending. -/
structure Drained (context : Nat) (shape : RowShape) (failFast : Bool) (rows : List Document)
    (ending : Option ClientError) (counters : Counters) (n : Nat)
    (result : Session × List (Option (Except Failure Materialized))) : Prop where
  /-- What the rows yield comes in order, and then the error with which they end. -/
  items : result.2 = shown ((shape.yield failFast rows).map (·.mapError .materialization) ++
    if shape.cuts failFast rows then [] else ending.toList.map fun e => .error (.client e)) n
  state : (result.1.context context).state =
    if shape.cuts failFast rows then .faulted else .ofEnding ending
  /-- Each item is counted as made or as failed, the end of the query is counted once, under the
  state in which the context is then, and nothing else is counted. -/
  counters : result.1.provider.counters = { counters with
    materialized := counters.materialized + (shape.yield failFast rows).countP (·.isOk)
    failures := counters.failures + (shape.yield failFast rows).countP (!·.isOk)
    completed :=
      counters.completed + if (result.1.context context).state = .completed then 1 else 0
    canceled := counters.canceled + if (result.1.context context).state = .canceled then 1 else 0
    faulted := counters.faulted + if (result.1.context context).state = .faulted then 1 else 0 }

/-- **The last item**, or none, and the polls after it. -/
lemma Drawing.drain_end (h : Drawing number context shape c s st)
    {item : Option (Except Failure Materialized)} {ending : QueryState}
    (houtcome : shape.outcome c.failFast st.poll.2.answer = ⟨item, some ending⟩)
    (hterminal : ending.isTerminal = true) (turns : List Turn) :
    (s.next number none).2 = item ∧
      (drain number context (s.next number none).1 turns).2 =
        List.replicate turns.length none ∧
      ((drain number context (s.next number none).1 turns).1.context context).state = ending ∧
      (drain number context (s.next number none).1 turns).1.provider.counters =
        (s.provider.countItem ⟨item, some ending⟩).counters.countEnd ending := by
  obtain ⟨hdone, hstate, hcounters⟩ := h.next_some (by rw [houtcome]) hterminal
  obtain ⟨hitems, hcontext, hprovider⟩ := @drain_done number context _ hdone turns
  rw [houtcome] at hcounters
  refine ⟨?_, hitems, ?_, ?_⟩
  · rw [h.next_eq, houtcome]
  · rw [hcontext, hstate]
  · rw [hprovider, hcounters]

section Drained

variable {failFast : Bool} {rows : List Document} {row : Document} {ending : Option ClientError}
  {counters : Counters} {n : Nat} {items : List (Option (Except Failure Materialized))}

/-- No row comes. -/
lemma Drained.nil (hitems : items = List.replicate n none)
    (hstate : (s.context context).state = .ofEnding ending)
    (hcounters : s.provider.counters = counters.countEnd (.ofEnding ending)) :
    Drained context shape failFast [] ending counters (n + 1)
      (s, ending.map (fun e => .error (.client e)) :: items) where
  items := by
    subst hitems
    cases ending with
    | none => exact (shown_nil (n + 1)).symm
    | some e => exact ((shown_cons _ [] n).trans (congrArg _ (shown_nil n))).symm
  state := hstate
  counters := by
    rw [hstate, hcounters, Counters.countEnd_of_isTerminal (QueryState.isTerminal_ofEnding ending)]
    rfl

/-- A row comes with which the results end. -/
lemma Drained.cut (hends : endsResults failFast (shape.materialize row) = true)
    (hitems : items = List.replicate n none) (hstate : (s.context context).state = .faulted)
    (hcounters : s.provider.counters =
      (counters.count [shape.materialize row]).countEnd .faulted) :
    Drained context shape failFast (row :: rows) ending counters (n + 1)
      (s, some ((shape.materialize row).mapError .materialization) :: items) := by
  have hyield : shape.yield failFast (row :: rows) = [shape.materialize row] := by
    rw [RowShape.yield_cons, hends, if_pos rfl]
  have hcuts : shape.cuts failFast (row :: rows) = true := by
    rw [RowShape.cuts_cons, hends, Bool.true_or]
  refine ⟨?_, ?_, ?_⟩
  · rw [hitems, hyield, hcuts, if_pos rfl, List.append_nil, List.map_singleton, shown_cons,
      shown_nil]
  · rw [hcuts]
    exact hstate
  · rw [hyield, hstate, hcounters, Counters.countEnd_of_isTerminal rfl]
    rfl

/-- A row comes with which the results do not end. -/
lemma Drained.cons (hends : endsResults failFast (shape.materialize row) = false)
    (h : Drained context shape failFast rows ending (counters.count [shape.materialize row]) n
      (s, items)) :
    Drained context shape failFast (row :: rows) ending counters (n + 1)
      (s, some ((shape.materialize row).mapError .materialization) :: items) := by
  have hyield : shape.yield failFast (row :: rows) =
      shape.materialize row :: shape.yield failFast rows := by
    rw [RowShape.yield_cons, hends]
    rfl
  have hcuts : shape.cuts failFast (row :: rows) = shape.cuts failFast rows := by
    rw [RowShape.cuts_cons, hends, Bool.false_or]
  obtain ⟨hitems, hstate, hcounters⟩ := h
  refine ⟨?_, ?_, ?_⟩
  · rw [hyield, hcuts, List.map_cons, List.cons_append, shown_cons, ← hitems]
  · rw [hcuts]
    exact hstate
  · rw [hyield, hcounters, List.countP_cons, List.countP_cons]
    simp only [Counters.count, List.countP_singleton, Nat.add_assoc, Nat.add_comm]

end Drained

/-- **Draining results**, document by document. -/
theorem Drawing.drain (h : Drawing number context shape c s st) {rows : List Document}
    {ending : Option ClientError} {turns : List Turn}
    (hdocuments : (st.run turns).2.map Poll.answer =
      rows.map (fun row => some (.ok row)) ++ [ending.map .error]) (more : List Turn) :
    Drained context shape c.failFast rows ending s.provider.counters (turns ++ more).length
      (Session.drain number context s (turns ++ more)) := by
  induction turns generalizing s st rows with
  | nil => cases rows <;> cases hdocuments
  | cons t turns ih =>
      have hturn := h.turn t
      simp only [DocumentStream.run, List.map_cons] at hdocuments
      rw [List.cons_append, drain_cons, List.length_cons]
      cases rows with
      | nil =>
          obtain ⟨hanswer, -⟩ := List.cons.inj hdocuments
          have houtcome := hanswer ▸ @RowShape.outcome_ending shape c.failFast ending
          obtain ⟨hitem, hitems, hstate, hcounters⟩ := hturn.drain_end houtcome
            (QueryState.isTerminal_ofEnding ending) (turns ++ more)
          rw [Provider.counters_countItem_error, provider_turn] at hcounters
          rw [hitem]
          exact .nil hitems hstate hcounters
      | cons row rows =>
          obtain ⟨hanswer, hrest⟩ :
            (st.turn t).poll.2.answer = some (.ok row) ∧ _ := List.cons.inj hdocuments
          have houtcome := hanswer ▸ @RowShape.outcome_row shape c.failFast row
          cases hends : endsResults c.failFast (shape.materialize row) with
          | true =>
              rw [hends] at houtcome
              obtain ⟨hitem, hitems, hstate, hcounters⟩ :=
                hturn.drain_end houtcome rfl (turns ++ more)
              rw [Provider.counters_countItem_row, provider_turn] at hcounters
              rw [hitem]
              exact .cut hends hitems hstate hcounters
          | false =>
              rw [hends] at houtcome
              obtain ⟨hdrawing, hitem, hprovider⟩ := hturn.next_none (by rw [houtcome]; rfl)
              have hdrained := ih hdrawing hrest
              rw [hprovider, houtcome, Provider.counters_countItem_row, provider_turn] at hdrained
              rw [hitem, houtcome]
              exact hdrained.cons hends

/-- What there is after a plan has been started. -/
lemma start_eq_ok {s₀ : Session} {plan : Plan} {constants : List Captured}
    (hcontext : context < s₀.contexts.length)
    (hstart : s₀.start plan constants context = (s, .ok number)) :
    (∃ cursor, s.results[number]? = some { cursor, shape := plan.shape, context }) ∧
      s.context context = { s₀.context context with state := .executing } ∧
      s.contexts.length = s₀.contexts.length ∧ s.signals = s₀.signals := by
  rw [start] at hstart
  split at hstart
  · cases hstart
  · rename_i c htransition
    have hc : { s₀.context context with state := .executing } = c := by
      rw [Context.transition] at htransition
      split at htransition <;> cases htransition
      rfl
    simp only at hstart
    split at hstart <;> cases hstart
    exact ⟨⟨_, List.getElem?_concat_length⟩, (context_setContext hcontext).trans hc.symm,
      List.length_set, rfl⟩

/-- Results that have been started. -/
lemma drawing_start {s₀ : Session} {plan : Plan} {constants : List Captured} {r : Results}
    (hcontext : context < s₀.contexts.length)
    (hsignal : (s₀.context context).signal < s₀.signals.states.length)
    (hstart : s₀.start plan constants context = (s, .ok number))
    (hresults : s.results[number]? = some r) :
    Drawing number context plan.shape { s₀.context context with state := .executing } s
      (s.documents r) := by
  obtain ⟨⟨cursor, hr⟩, hexecuting, hlength, hsignals⟩ := start_eq_ok hcontext hstart
  cases hr.symm.trans hresults
  exact ⟨hr, rfl, rfl, hexecuting, rfl, hlength ▸ hcontext, hsignals ▸ hsignal⟩

end

end Session

/-- **What comes of draining results.**  The documents of their stream end behind some rows, perhaps
with an error.  Then the results yield what is made of each row in order, up to a failure of a codec
or, if the application asks for it, up to the first failure; with such a failure the query ends as
faulted.  Otherwise it ends as the documents do, and an error of theirs is the last item.  Each item
is counted, and the end of the query once. -/
theorem results_drained {s₀ s : Session} {plan : Plan} {constants : List Captured}
    {context number : Nat} {r : Results} {rows : List Document} {ending : Option ClientError}
    {turns : List Turn} (hcontext : context < s₀.contexts.length)
    (hsignal : (s₀.context context).signal < s₀.signals.states.length)
    (hstart : s₀.start plan constants context = (s, .ok number))
    (hresults : s.results[number]? = some r)
    (hdocuments : ((s.documents r).run turns).2.map Poll.answer =
      rows.map (fun row => some (.ok row)) ++ [ending.map .error]) (more : List Turn) :
    Session.Drained context plan.shape (s₀.context context).failFast rows ending
      s.provider.counters (turns ++ more).length (s.drain number context (turns ++ more)) :=
  (Session.drawing_start hcontext hsignal hstart hresults).drain hdocuments more

namespace Sample

/-- Letters, and a document that is none. -/
def mixedLetters : List Document := [.string "a", .bool true, .string "c"]

/-- A plan for letters. -/
def letterPlan : Plan where
  key := ⟨[]⟩
  statement := letterRequest.statement
  parameters := []
  shape := .scalar ⟨.string, false, none⟩

/-- An application with a store of mixed letters, and with a context that ends results with the
first failure or goes on behind it. -/
def letterSession (failFast : Bool) : Session where
  provider := { model := ⟨⟨[]⟩, {}, []⟩, options := {} }
  store := MemoryStore.empty.insert ⟨"app", "_default", "letter"⟩ mixedLetters
  signals := ⟨[false]⟩
  contexts := [{ failFast }]

end Sample

/-- The results end with the document that is no letter if the application asks for it: a letter, a
failure and a query that is faulted are counted.  Otherwise the other letter comes behind it, and a
query that is completed is counted. -/
theorem results_drained_letters :
    (∃ s r, (Sample.letterSession true).start Sample.letterPlan [] 0 = (s, .ok 0) ∧
      s.results[0]? = some r ∧
      ((s.documents r).run (List.replicate 4 {})).2.map Poll.answer =
        Sample.mixedLetters.map (fun row => some (.ok row)) ++ [none] ∧
      Session.Drained 0 Sample.letterPlan.shape true Sample.mixedLetters none {} 4
        (s.drain 0 0 (List.replicate 4 {})) ∧
      Sample.letterPlan.shape.cuts true Sample.mixedLetters = true ∧
      (s.drain 0 0 (List.replicate 4 {})).1.provider.counters =
        { materialized := 1, failures := 1, faulted := 1 }) ∧
    ∃ s r, (Sample.letterSession false).start Sample.letterPlan [] 0 = (s, .ok 0) ∧
      s.results[0]? = some r ∧
      ((s.documents r).run (List.replicate 4 {})).2.map Poll.answer =
        Sample.mixedLetters.map (fun row => some (.ok row)) ++ [none] ∧
      Session.Drained 0 Sample.letterPlan.shape false Sample.mixedLetters none {} 4
        (s.drain 0 0 (List.replicate 4 {})) ∧
      Sample.letterPlan.shape.cuts false Sample.mixedLetters = false ∧
      (s.drain 0 0 (List.replicate 4 {})).1.provider.counters =
        { materialized := 2, failures := 1, completed := 1 } := by
  constructor
  · have hdrained := @results_drained (Sample.letterSession true) _ Sample.letterPlan [] 0 0 _
      Sample.mixedLetters none (List.replicate 4 {}) (by decide) (by decide) rfl rfl rfl []
    refine ⟨_, _, rfl, rfl, rfl, hdrained, rfl, ?_⟩
    exact hdrained.counters.trans (by rw [hdrained.state]; rfl)
  · have hdrained := @results_drained (Sample.letterSession false) _ Sample.letterPlan [] 0 0 _
      Sample.mixedLetters none (List.replicate 4 {}) (by decide) (by decide) rfl rfl rfl []
    refine ⟨_, _, rfl, rfl, rfl, hdrained, rfl, ?_⟩
    exact hdrained.counters.trans (by rw [hdrained.state]; rfl)

end EntityQuery
