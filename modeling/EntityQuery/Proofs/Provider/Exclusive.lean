import EntityQuery.Proofs.Provider.Draining
import EntityQuery.Proofs.Provider.Transparency

/-!
# Contexts in use

A context serves one execution.  An application that executes further queries in the context of
results that it is reading is refused, and reads the same items as if it had not tried.  The end of
the query is the same, too, unless one of the further queries has no plan: it ends the context while
the results go on.

* `Session.perform`: an application that polls results and executes queries in their context.
* `Session.execute_started` and `Session.next_cases`: what one act can do.
* `Session.Alike`: sessions that differ in what further queries can change; `Session.Alike.perform`.
* `Session.Disturbed`: a query without a plan comes while the context is in use.
* `context_exclusive`: what further queries change, and what they do not.
-/

namespace EntityQuery

/-! ## Acts -/

/-- What an application does with a context that is in use. -/
inductive Act where
  /-- It asks for an item, after a turn. -/
  | poll (t : Turn)
  /-- It executes a query in the context. -/
  | execute (q : Query)

/-- The turn before a poll. -/
def Act.turn? : Act → Option Turn
  | .poll t => some t
  | .execute _ => none

/-- The query that is executed. -/
def Act.query? : Act → Option Query
  | .poll _ => none
  | .execute q => some q

/-- How often queries have been completed, canceled and faulted. -/
def Counters.ends (c : Counters) : Nat × Nat × Nat := (c.completed, c.canceled, c.faulted)

namespace Session

/-- What comes of several acts. -/
structure Performance where
  session : Session
  items : List (Option (Except Failure Materialized)) := []
  /-- The answers to the executions of queries. -/
  answers : List (Except Failure Nat) := []

/-- Does one act after the other. -/
def perform (number context : Nat) : Session → List Act → Performance
  | s, [] => { session := s }
  | s, .poll t :: acts =>
    let (s, item) := (s.turn context t).next number none
    let p := perform number context s acts
    { p with items := item :: p.items }
  | s, .execute q :: acts =>
    let (s, answer) := s.execute q context
    let p := perform number context s acts
    { p with answers := answer :: p.answers }

/-- A query has no plan, and the context is in use. -/
def Faults (s : Session) (context : Nat) (q : Query) : Prop :=
  (s.context context).state = .executing ∧ ∃ e, (s.plan q).2 = .error e

/-- One of the queries that are executed has no plan and comes while the context is in use. -/
def Disturbed (number context : Nat) : Session → List Act → Prop
  | _, [] => False
  | s, .poll t :: acts => Disturbed number context ((s.turn context t).next number none).1 acts
  | s, .execute q :: acts =>
    s.Faults context q ∨ Disturbed number context (s.execute q context).1 acts

end Session

/-! ## Ends

A context is moved on only along the lifecycle of queries.  Which end it comes to, and what is
counted for it, depends on the context itself and on nothing else of the session. -/

/-- A context that may not be moved on is left. -/
lemma Context.finish_of_not_canBecome {c : Context} {ending : QueryState}
    (h : ¬ c.state.canBecome ending = true) : c.finish ending = none := by
  rw [finish, transition, if_neg h]
  rfl

/-- No query is created a second time. -/
lemma QueryState.ne_created_of_canBecome {state next : QueryState}
    (h : state.canBecome next = true) : next ≠ .created := by
  rintro rfl
  cases state <;> cases h

/-- The ends that are counted after a further one depend on those before it only. -/
lemma Counters.ends_countEnd {c c' : Counters} (h : c.ends = c'.ends) (ending : QueryState) :
    (c.countEnd ending).ends = (c'.countEnd ending).ends := by
  simp only [ends, Prod.mk.injEq] at h
  cases ending <;> simp [countEnd, ends, h]

namespace Provider

variable {p p' : Provider} {c : Context} {o : Outcome}

lemma ends_countItem : (p.countItem o).counters.ends = p.counters.ends := by
  rw [countItem]
  split
  · rfl
  · simp only
    split <;> rfl
  · rfl

lemma ends_plan (q : Query) : (p.plan q).1.counters.ends = p.counters.ends := by
  rw [plan]
  simp only
  split
  · rfl
  · split <;> rfl

/-- What has become of a row leaves the context and the ends, or moves the context on, which is
counted. -/
lemma settle_cases :
    ((p.settle c o).2 = c ∧ (p.settle c o).1.counters.ends = p.counters.ends) ∨
      ∃ ending, c.state.canBecome ending = true ∧
        (p.settle c o).2 = { c with state := ending } ∧ o.ending = some ending ∧
        (p.settle c o).1.counters.ends = (p.counters.countEnd ending).ends := by
  rw [settle]
  split
  · rename_i ending hending
    by_cases hbecome : c.state.canBecome ending = true
    · refine .inr ⟨ending, hbecome, ?_⟩
      rw [finish, Context.finish_of_canBecome hbecome]
      exact ⟨rfl, hending, Counters.ends_countEnd ends_countItem ending⟩
    · refine .inl ?_
      rw [finish, Context.finish_of_not_canBecome hbecome]
      exact ⟨rfl, ends_countItem⟩
  · exact .inl ⟨rfl, ends_countItem⟩

/-- How a context is moved on does not depend on the provider, nor do the ends that are counted. -/
lemma settle_congr (h : p.counters.ends = p'.counters.ends) :
    (p.settle c o).2 = (p'.settle c o).2 ∧
      (p.settle c o).1.counters.ends = (p'.settle c o).1.counters.ends := by
  have hcount : (p.countItem o).counters.ends = (p'.countItem o).counters.ends := by
    rw [ends_countItem, ends_countItem, h]
  rw [settle, settle]
  split
  · rename_i ending _
    rw [finish, finish]
    split
    · exact ⟨rfl, Counters.ends_countEnd hcount ending⟩
    · exact ⟨rfl, hcount⟩
  · exact ⟨rfl, hcount⟩

lemma SameSource.trans {p₁ p₂ p₃ : Provider} (h : SameSource p₁ p₂) (h' : SameSource p₂ p₃) :
    SameSource p₁ p₃ := ⟨h.1.trans h'.1, h.2.trans h'.2⟩

lemma sameSource_settle : SameSource (p.settle c o).1 p := by
  have hitem : SameSource (p.countItem o) p := by
    rw [countItem]
    split
    · exact ⟨rfl, rfl⟩
    · simp only
      split <;> exact ⟨rfl, rfl⟩
    · exact ⟨rfl, rfl⟩
  rw [settle]
  split
  · rw [finish]
    split <;> exact hitem
  · exact hitem

/-- A query that can be compiled has a plan, whatever plans have been kept. -/
lemma plan_eq_ok {q : Query} (hsame : SameSource p p')
    (h : ∃ plan, p'.compile q (.ofQuery q) = .ok plan) : ∃ plan, (p.plan q).2 = .ok plan := by
  obtain ⟨plan, hplan⟩ := h
  rw [(p.plan_spec q).1]
  cases p.plans.find? (.ofQuery q) with
  | some kept => exact ⟨kept, rfl⟩
  | none =>
      cases hcompile : p.compile q (.ofQuery q) with
      | ok plan => exact ⟨plan, rfl⟩
      | error e => cases (compile_error hsame hcompile).symm.trans hplan

end Provider

/-! ## Single acts

Executing a query in a context in use has no plan to start, or is refused.  A poll settles what has
become of the next row, or does nothing. -/

namespace Session

variable {number context : Nat} {s s' : Session} {q : Query}

/-- The parts of sessions that the results of a query depend on, without the contexts. -/
def SameSurroundings (s s' : Session) : Prop :=
  s.store = s'.store ∧ s.signals = s'.signals ∧ s.results = s'.results

lemma abandon_executing (hcreated : context < s.contexts.length)
    (hstate : (s.context context).state = .executing) :
    SameSurroundings (s.abandon context) s ∧
      (s.abandon context).contexts.length = s.contexts.length ∧
      (s.abandon context).context context = { s.context context with state := .faulted } ∧
      (s.abandon context).provider.counters.ends =
        (s.provider.counters.countEnd .faulted).ends := by
  have hbecome : (s.context context).state.canBecome .faulted = true := by rw [hstate]; rfl
  rw [abandon, Context.finish_of_canBecome hbecome]
  refine ⟨⟨rfl, rfl, rfl⟩, ?_, ?_, rfl⟩
  · exact List.length_set
  · exact context_setContext hcreated

lemma abandon_of_ended (hstarted : (s.context context).state ≠ .created)
    (hstate : (s.context context).state ≠ .executing) : s.abandon context = s := by
  have hbecome : ¬ (s.context context).state.canBecome .faulted = true := by
    cases hvalue : (s.context context).state with
    | created => exact absurd hvalue hstarted
    | executing => exact absurd hvalue hstate
    | _ => decide
  rw [abandon, Context.finish_of_not_canBecome hbecome]

/-- A plan is refused in a context that has been used. -/
lemma start_started (p : Plan) (constants : List Captured)
    (hstarted : (s.context context).state ≠ .created) :
    ∃ e, s.start p constants context = (s, .error e) := by
  have hbecome : ¬ (s.context context).state.canBecome .executing = true := by
    cases hvalue : (s.context context).state with
    | created => exact absurd hvalue hstarted
    | _ => decide
  rw [start, Context.transition, if_neg hbecome]
  exact ⟨_, rfl⟩

/-- **What executing a query can do** in a context that has been used: it is refused, and nothing
happens that concerns the results, except that a query without a plan ends the context. -/
lemma execute_started (hcreated : context < s.contexts.length)
    (hstarted : (s.context context).state ≠ .created) :
    (∃ e, (s.execute q context).2 = .error e) ∧
      SameSurroundings (s.execute q context).1 s ∧
      (s.execute q context).1.contexts.length = s.contexts.length ∧
      ((s.Faults context q ∧
          (s.execute q context).1.context context = { s.context context with state := .faulted } ∧
          (s.execute q context).1.provider.counters.ends =
            (s.provider.counters.countEnd .faulted).ends) ∨
        (¬ s.Faults context q ∧
          (s.execute q context).1.context context = s.context context ∧
          (s.execute q context).1.provider.counters.ends = s.provider.counters.ends)) := by
  have hends := s.provider.ends_plan q
  rcases hplan : s.plan q with ⟨s₁, e | p⟩
  · have hs₁ : s₁ = { s with provider := (s.provider.plan q).1 } := (congrArg Prod.fst hplan).symm
    have hexecute : s.execute q context = (s₁.abandon context, .error e) := by
      simp only [execute, hplan]
    rw [hexecute]
    subst hs₁
    refine ⟨⟨e, rfl⟩, ?_⟩
    by_cases hstate : (s.context context).state = .executing
    · obtain ⟨hsame, hlength, hcontext, hcount⟩ := @abandon_executing context
        { s with provider := (s.provider.plan q).1 } hcreated hstate
      refine ⟨hsame, hlength, .inl ⟨⟨hstate, e, congrArg Prod.snd hplan⟩, hcontext, ?_⟩⟩
      exact hcount.trans (Counters.ends_countEnd hends .faulted)
    · rw [@abandon_of_ended context { s with provider := (s.provider.plan q).1 } hstarted hstate]
      exact ⟨⟨rfl, rfl, rfl⟩, rfl, .inr ⟨fun h => hstate h.1, rfl, hends⟩⟩
  · have hs₁ : s₁ = { s with provider := (s.provider.plan q).1 } := (congrArg Prod.fst hplan).symm
    obtain ⟨e, hstart⟩ := @start_started context s₁ p q.constants (hs₁ ▸ hstarted)
    have hexecute : s.execute q context = (s₁, .error e) := by
      simp only [execute, hplan, hstart]
    rw [hexecute]
    subst hs₁
    refine ⟨⟨e, rfl⟩, ⟨rfl, rfl, rfl⟩, rfl, .inr ⟨?_, rfl, hends⟩⟩
    rintro ⟨-, e', herror⟩
    rw [hplan] at herror
    cases herror

/-- What settling the next row comes to. -/
lemma settle_spec (number : Nat) {r : Results} (d : Draw) (o : Outcome) (hr : r.context = context)
    (hcreated : context < s.contexts.length) :
    (s.settle number r d o).context context = (s.provider.settle (s.context context) o).2 ∧
      (s.settle number r d o).contexts.length = s.contexts.length ∧
      (s.settle number r d o).provider = (s.provider.settle (s.context context) o).1 := by
  subst hr
  exact ⟨context_setContext hcreated, List.length_set, rfl⟩

/-- **What a poll can do**: nothing, or it settles what has become of the next row. -/
lemma next_cases (s : Session) (number : Nat) (wait : Option Nat) :
    s.next number wait = (s, none) ∨ ∃ r d, s.results[number]? = some r ∧ r.done = false ∧
      let o := r.shape.outcome (s.context r.context).failFast d.row
      s.next number wait = (s.settle number r d o, o.item) := by
  cases hresults : s.results[number]? with
  | none => exact .inl (by simp only [next, hresults])
  | some r =>
      cases hdone : r.done with
      | true => exact .inl (by simp only [next, hresults, hdone, if_true])
      | false =>
          have hnext : s.next number wait =
              let d := r.cursor.next s.store (s.isCanceled r.context) wait
              let o := r.shape.outcome (s.context r.context).failFast d.row
              (s.settle number r d o, o.item) := by
            simp only [next, hresults, hdone, Bool.false_eq_true, if_false]
          exact .inr ⟨r, _, rfl, hdone, hnext⟩

/-! ## Sessions with and without further queries

The two sessions are run in parallel: one with all acts, the other with the polls only.  They differ
in the plans that are kept and in what is counted for plans, which no poll looks at. -/

/-- The context apart from its state. -/
def unstated (c : Context) : Context := { c with state := .created }

/-- Sessions that differ in what queries can change that are executed in the context of results. -/
structure Alike (number context : Nat) (s s' : Session) : Prop where
  same : SameSurroundings s s'
  own : ∀ r, s.results[number]? = some r → r.context = context
  created : context < s.contexts.length
  created' : context < s'.contexts.length
  unstated : unstated (s.context context) = unstated (s'.context context)
  started : (s.context context).state ≠ .created

/-- The contexts have the same state, and the same ends have been counted. -/
def SameEnds (context : Nat) (s s' : Session) : Prop :=
  (s.context context).state = (s'.context context).state ∧
    s.provider.counters.ends = s'.provider.counters.ends

lemma unstated_settle (p : Provider) (c : Context) (o : Outcome) :
    unstated (p.settle c o).2 = unstated c := by
  rcases @Provider.settle_cases p c o with ⟨h, -⟩ | ⟨ending, -, h, -⟩ <;> rw [h]
  rfl

lemma started_settle (p : Provider) {c : Context} (o : Outcome) (h : c.state ≠ .created) :
    (p.settle c o).2.state ≠ .created := by
  rcases @Provider.settle_cases p c o with ⟨hsettle, -⟩ | ⟨ending, hbecome, hsettle, -⟩
  · rwa [hsettle]
  · rw [hsettle]
    exact QueryState.ne_created_of_canBecome hbecome

namespace Alike

lemma signal_eq (h : Alike number context s s') :
    (s.context context).signal = (s'.context context).signal := by
  have hsignal := congrArg Context.signal h.unstated
  exact hsignal

lemma failFast_eq (h : Alike number context s s') :
    (s.context context).failFast = (s'.context context).failFast := by
  have hfailFast := congrArg Context.failFast h.unstated
  exact hfailFast

/-- After a turn. -/
lemma turn (h : Alike number context s s') (t : Turn) :
    Alike number context (s.turn context t) (s'.turn context t) where
  same := by
    rw [turn_eq, turn_eq]
    refine ⟨congrArg t.change h.same.1, ?_, h.same.2.2⟩
    simp only [h.signal_eq, h.same.2.1]
  own := by simpa using h.own
  created := by simpa using h.created
  created' := by simpa using h.created'
  unstated := by simpa using h.unstated
  started := by simpa using h.started

/-- After what has become of a row has been settled. -/
lemma settle (h : Alike number context s s') {r : Results} (hr : s.results[number]? = some r)
    (d : Draw) (o : Outcome) :
    Alike number context (s.settle number r d o) (s'.settle number r d o) := by
  obtain ⟨hcontext, hlength, -⟩ := settle_spec number d o (h.own r hr) h.created
  obtain ⟨hcontext', hlength', -⟩ := settle_spec number d o (h.own r hr) h.created'
  have hnumber : number < s.results.length := (List.getElem?_eq_some_iff.1 hr).1
  refine ⟨⟨rfl, h.same.2.1, ?_⟩, ?_, ?_, ?_, ?_, ?_⟩
  · simp only [Session.settle, h.same.2.2]
  · intro r' hr'
    cases (List.getElem?_set_self hnumber).symm.trans hr'
    exact h.own r hr
  · rw [hlength]
    exact h.created
  · rw [hlength']
    exact h.created'
  · rw [hcontext, hcontext', unstated_settle, unstated_settle, h.unstated]
  · rw [hcontext]
    exact started_settle _ o h.started

/-- Contexts apart from their states, and states. -/
lemma context_eq (h : Alike number context s s')
    (hstate : (s.context context).state = (s'.context context).state) :
    s.context context = s'.context context :=
  calc s.context context
      = { Session.unstated (s.context context) with state := (s.context context).state } := rfl
    _ = { Session.unstated (s'.context context) with state := (s'.context context).state } := by
      rw [h.unstated, hstate]
    _ = s'.context context := rfl

lemma sameEnds_settle (h : Alike number context s s') {r : Results}
    (hr : s.results[number]? = some r) (hends : SameEnds context s s') (d : Draw) (o : Outcome) :
    SameEnds context (s.settle number r d o) (s'.settle number r d o) := by
  obtain ⟨hcontext, -, hprovider⟩ := settle_spec number d o (h.own r hr) h.created
  obtain ⟨hcontext', -, hprovider'⟩ := settle_spec number d o (h.own r hr) h.created'
  obtain ⟨hstate, hcount⟩ := hends
  obtain ⟨hsettle, hsettled⟩ := @Provider.settle_congr _ _ (s.context context) o hcount
  rw [SameEnds, hcontext, hcontext', hprovider, hprovider', ← h.context_eq hstate]
  exact ⟨congrArg Context.state hsettle, hsettled⟩

/-- **A poll** gives the same item in both. -/
lemma next (h : Alike number context s s') :
    (s.next number none).2 = (s'.next number none).2 ∧
      Alike number context (s.next number none).1 (s'.next number none).1 ∧
      (SameEnds context s s' →
        SameEnds context (s.next number none).1 (s'.next number none).1) := by
  obtain ⟨hstore, hsignals, hresults⟩ := h.same
  cases hr : s.results[number]? with
  | none =>
      have hr' := hresults ▸ hr
      simp only [Session.next, hr, hr']
      exact ⟨trivial, h, id⟩
  | some r =>
      have hr' := hresults ▸ hr
      cases hdone : r.done with
      | true =>
          simp only [Session.next, hr, hr', hdone, if_true]
          exact ⟨trivial, h, id⟩
      | false =>
          have hown := h.own r hr
          have hcanceled : s.isCanceled r.context = s'.isCanceled r.context := by
            rw [hown, isCanceled, isCanceled, hsignals, h.signal_eq]
          have hfailFast : (s.context r.context).failFast = (s'.context r.context).failFast := by
            rw [hown, h.failFast_eq]
          simp only [Session.next, hr, hr', hdone, Bool.false_eq_true, if_false, hstore, hcanceled,
            hfailFast]
          exact ⟨trivial, h.settle hr _ _, fun hends => h.sameEnds_settle hr hends _ _⟩

/-- **A further query** is refused. -/
lemma execute (h : Alike number context s s') (q : Query) :
    (∃ e, (s.execute q context).2 = .error e) ∧ Alike number context (s.execute q context).1 s' ∧
      (¬ s.Faults context q → SameEnds context s s' →
        SameEnds context (s.execute q context).1 s') := by
  obtain ⟨hrefused, ⟨hstore, hsignals, hresults⟩, hlength, hcases⟩ :=
    execute_started (q := q) h.created h.started
  refine ⟨hrefused, ⟨⟨hstore.trans h.same.1, hsignals.trans h.same.2.1, hresults.trans h.same.2.2⟩,
    ?_, ?_, h.created', ?_, ?_⟩, fun hfaults hends => ?_⟩
  · rw [hresults]
    exact h.own
  · rw [hlength]
    exact h.created
  · rcases hcases with ⟨-, hcontext, -⟩ | ⟨-, hcontext, -⟩ <;> rw [hcontext]
    · exact h.unstated
    · exact h.unstated
  · rcases hcases with ⟨-, hcontext, -⟩ | ⟨-, hcontext, -⟩ <;> rw [hcontext]
    · exact nofun
    · exact h.started
  · rcases hcases with ⟨hfault, -⟩ | ⟨-, hcontext, hcount⟩
    · exact absurd hfault hfaults
    · rw [SameEnds, hcontext, hcount]
      exact hends

/-- **Acts on one side, polls on the other.** -/
theorem perform (h : Alike number context s s') (acts : List Act) :
    (∀ answer ∈ (s.perform number context acts).answers, ∃ e, answer = .error e) ∧
      (s.perform number context acts).items =
        (s'.drain number context (acts.filterMap Act.turn?)).2 ∧
      (SameEnds context s s' → ¬ Disturbed number context s acts →
        SameEnds context (s.perform number context acts).session
          (s'.drain number context (acts.filterMap Act.turn?)).1) := by
  induction acts generalizing s s' with
  | nil => exact ⟨List.forall_mem_nil _, rfl, fun hends _ => hends⟩
  | cons act acts ih =>
      cases act with
      | poll t =>
          obtain ⟨hitem, halike, hsame⟩ := (h.turn t).next
          obtain ⟨hanswers, hitems, hends⟩ := ih halike
          refine ⟨hanswers, ?_, fun hstart hquiet => hends (hsame ?_) hquiet⟩
          · exact congrArg₂ List.cons hitem hitems
          · simpa [SameEnds] using hstart
      | execute q =>
          obtain ⟨hrefused, halike, hsame⟩ := h.execute q
          obtain ⟨hanswers, hitems, hends⟩ := ih halike
          refine ⟨List.forall_mem_cons.2 ⟨hrefused, hanswers⟩, hitems, fun hstart hquiet => ?_⟩
          obtain ⟨hfaults, hquiet⟩ := not_or.1 hquiet
          exact hends (hsame hfaults hstart) hquiet

end Alike

/-! ## Queries without plans

A query that cannot be planned ends the context that it is given, before anything is checked of it.
This is the one act that the results of another query can notice, and only in how they end. -/

lemma sameSource_next (s : Session) (number : Nat) :
    Provider.SameSource (s.next number none).1.provider s.provider := by
  rcases s.next_cases number none with hnext | ⟨r, d, -, -, hnext⟩ <;> rw [hnext]
  · exact ⟨rfl, rfl⟩
  · exact Provider.sameSource_settle

lemma sameSource_execute (s : Session) (q : Query) (context : Nat) :
    Provider.SameSource (s.execute q context).1.provider s.provider :=
  (Provider.samePlans_execute s q context).1.trans (s.provider.plan_spec q).2.1

namespace Alike

/-- A poll leaves the state and the ends, or moves the context on. -/
lemma next_cases (h : Alike number context s s') :
    (((s.next number none).1.context context).state = (s.context context).state ∧
        (s.next number none).1.provider.counters.ends = s.provider.counters.ends) ∨
      (s.context context).state.canBecome
        ((s.next number none).1.context context).state = true := by
  rcases s.next_cases number none with hnext | ⟨r, d, hr, -, hnext⟩
  · rw [hnext]
    exact .inl ⟨rfl, rfl⟩
  · obtain ⟨hcontext, -, hprovider⟩ := settle_spec number d
      (r.shape.outcome (s.context r.context).failFast d.row) (h.own r hr) h.created
    rw [hnext, hcontext, hprovider]
    rcases @Provider.settle_cases s.provider (s.context context) _ with
      ⟨hsettle, hcount⟩ | ⟨ending, hbecome, hsettle, -⟩
    · exact .inl ⟨congrArg Context.state hsettle, hcount⟩
    · rw [hsettle]
      exact .inr hbecome

/-- A context that has ended stays as it is, nothing more is counted, and no query disturbs it. -/
lemma perform_ended (h : Alike number context s s')
    (hended : (s.context context).state.isTerminal = true) (acts : List Act) :
    ((s.perform number context acts).session.context context).state = (s.context context).state ∧
      (s.perform number context acts).session.provider.counters.ends =
        s.provider.counters.ends ∧
      ¬ Disturbed number context s acts := by
  induction acts generalizing s s' with
  | nil => exact ⟨rfl, rfl, id⟩
  | cons act acts ih =>
      cases act with
      | poll t =>
          have hturn := h.turn t
          have hended' : ((s.turn context t).context context).state.isTerminal = true := by
            rwa [context_turn]
          rcases hturn.next_cases with ⟨hstate, hcount⟩ | hbecome
          · obtain ⟨hfinal, hends, hquiet⟩ := ih hturn.next.2.1 (hstate ▸ hended')
            rw [hstate, context_turn] at hfinal
            rw [hcount, provider_turn] at hends
            exact ⟨hfinal, hends, hquiet⟩
          · rw [QueryState.canBecome_of_isTerminal hended'] at hbecome
            cases hbecome
      | execute q =>
          obtain ⟨-, -, -, ⟨⟨hexecuting, -⟩, -⟩ | ⟨hfaults, hcontext, hcount⟩⟩ :=
            execute_started (q := q) h.created h.started
          · rw [hexecuting] at hended
            cases hended
          · obtain ⟨hfinal, hends, hquiet⟩ := ih (h.execute q).2.1 (hcontext ▸ hended)
            rw [hcontext] at hfinal
            rw [hcount] at hends
            exact ⟨hfinal, hends, not_or.2 ⟨hfaults, hquiet⟩⟩

/-- **A query without a plan** ends a context that is in use as faulted. -/
theorem perform_disturbed (h : Alike number context s s')
    (hstate : (s.context context).state = .executing) {acts : List Act}
    (hdisturbed : Disturbed number context s acts) :
    ((s.perform number context acts).session.context context).state = .faulted ∧
      (s.perform number context acts).session.provider.counters.ends =
        (s.provider.counters.countEnd .faulted).ends := by
  induction acts generalizing s s' with
  | nil => exact hdisturbed.elim
  | cons act acts ih =>
      cases act with
      | poll t =>
          have hturn := h.turn t
          have hstate' : ((s.turn context t).context context).state = .executing := by
            rwa [context_turn]
          rcases hturn.next_cases with ⟨hnext, hcount⟩ | hbecome
          · obtain ⟨hfinal, hends⟩ := ih hturn.next.2.1 (hnext.trans hstate') hdisturbed
            rw [provider_turn] at hcount
            exact ⟨hfinal, hends.trans (Counters.ends_countEnd hcount .faulted)⟩
          · -- the results have ended before the query comes
            rw [hstate'] at hbecome
            exact absurd hdisturbed (hturn.next.2.1.perform_ended hbecome acts).2.2
      | execute q =>
          have halike := (h.execute q).2.1
          obtain ⟨-, -, -, ⟨hfaults, hcontext, hcount⟩ | ⟨hfaults, hcontext, hcount⟩⟩ :=
            execute_started (q := q) h.created h.started
          · obtain ⟨hfinal, hends, -⟩ := halike.perform_ended (by rw [hcontext]; rfl) acts
            rw [hcontext] at hfinal
            exact ⟨hfinal, hends.trans hcount⟩
          · obtain ⟨hfinal, hends⟩ := ih halike (hcontext ▸ hstate)
              (hdisturbed.resolve_left hfaults)
            exact ⟨hfinal, hends.trans (Counters.ends_countEnd hcount .faulted)⟩

end Alike

/-- No query disturbs the context if all have plans. -/
theorem not_disturbed {acts : List Act}
    (hplans : ∀ q ∈ acts.filterMap Act.query?,
      ∃ plan, s.provider.compile q (.ofQuery q) = .ok plan) :
    ¬ Disturbed number context s acts := by
  obtain ⟨p₀, hp₀⟩ : ∃ p₀, s.provider = p₀ := ⟨_, rfl⟩
  have hsame : Provider.SameSource s.provider p₀ := hp₀ ▸ ⟨rfl, rfl⟩
  rw [hp₀] at hplans
  clear hp₀
  induction acts generalizing s with
  | nil => exact id
  | cons act acts ih =>
      cases act with
      | poll t =>
          refine ih hplans ?_
          exact (sameSource_next _ number).trans ((provider_turn s context t).symm ▸ hsame)
      | execute q =>
          obtain ⟨hplan, hplans⟩ := List.forall_mem_cons.1 hplans
          refine not_or.2 ⟨?_, ih hplans ((sameSource_execute s q context).trans hsame)⟩
          rintro ⟨-, e, herror⟩
          obtain ⟨plan, hok⟩ := Provider.plan_eq_ok hsame hplan
          cases herror.symm.trans hok

/-- A context in which a query has been started. -/
lemma alike_execute {s₀ : Session} (hcontext : context < s₀.contexts.length)
    (hexecute : s₀.execute q context = (s, .ok number)) :
    Alike number context s s ∧ (s.context context).state = .executing := by
  have hstart : ∃ (s₁ : Session) (plan : Plan), s₁.contexts = s₀.contexts ∧
      s₁.start plan q.constants context = (s, .ok number) := by
    rw [execute] at hexecute
    rcases hplan : s₀.plan q with ⟨s₁, e | plan⟩
    · rw [hplan] at hexecute
      cases hexecute
    · rw [hplan] at hexecute
      exact ⟨s₁, plan, (congrArg (fun r => r.1.contexts) hplan).symm, hexecute⟩
  obtain ⟨s₁, plan, hcontexts, hstart⟩ := hstart
  obtain ⟨⟨cursor, hr⟩, hexecuting, hlength, -⟩ := start_eq_ok (hcontexts ▸ hcontext) hstart
  have hstate : (s.context context).state = .executing := by rw [hexecuting]
  have hcreated : context < s.contexts.length := by rw [hlength, hcontexts]; exact hcontext
  refine ⟨⟨⟨rfl, rfl, rfl⟩, fun r hr' => ?_, hcreated, hcreated, rfl, ?_⟩, hstate⟩
  · cases hr.symm.trans hr'
    rfl
  · rw [hstate]
    intro h
    cases h

end Session

/-- **A context serves one execution.**  Once a query has been started in a context, all further
queries are refused there, and the results yield the items that they would yield without them.
Unless a query without a plan comes while the context is in use, the context ends as it would
without them, and the ends that are counted are the same; such a query ends the context as faulted,
once and for all. -/
theorem context_exclusive {s₀ s : Session} {q : Query} {context number : Nat}
    (hcontext : context < s₀.contexts.length)
    (hexecute : s₀.execute q context = (s, .ok number)) (acts : List Act) :
    let performed := s.perform number context acts
    let undisturbed := s.drain number context (acts.filterMap Act.turn?)
    (∀ answer ∈ performed.answers, ∃ e, answer = .error e) ∧
    performed.items = undisturbed.2 ∧
    (¬ Session.Disturbed number context s acts →
      (performed.session.context context).state = (undisturbed.1.context context).state ∧
      performed.session.provider.counters.ends = undisturbed.1.provider.counters.ends) ∧
    (Session.Disturbed number context s acts →
      (performed.session.context context).state = .faulted ∧
      performed.session.provider.counters.ends =
        (s.provider.counters.countEnd .faulted).ends) := by
  intro performed undisturbed
  obtain ⟨halike, hstate⟩ := Session.alike_execute hcontext hexecute
  obtain ⟨hanswers, hitems, hends⟩ := halike.perform acts
  exact ⟨hanswers, hitems, hends ⟨rfl, rfl⟩, halike.perform_disturbed hstate⟩

namespace Sample

/-- All persons. -/
def everybody : Query := .source "Person" "p"

/-- A query over an entity that there is not. -/
def nobody : Query := .source "Nobody" "n"

/-- An application with a context, and with a store that has no person. -/
def emptySession : Session where
  provider := provider .standard
  store := MemoryStore.empty.create ⟨"app", "_default", "person"⟩
  signals := ⟨[false]⟩
  contexts := [{}]

/-- The application after it has started to read all persons. -/
def readingSession : Session := (emptySession.execute everybody 0).1

lemma execute_everybody : emptySession.execute everybody 0 = (readingSession, .ok 0) :=
  Prod.ext rfl rfl

end Sample

/-- A further query for all persons is refused, and the first one is completed. -/
theorem context_exclusive_everybody :
    let performed := Sample.readingSession.perform 0 0 [.execute Sample.everybody, .poll {}]
    (∀ answer ∈ performed.answers, ∃ e, answer = .error e) ∧
    (performed.session.context 0).state = .completed ∧
    performed.session.provider.counters.ends = (1, 0, 0) := by
  have hquiet : ¬ Session.Disturbed 0 0 Sample.readingSession
      [.execute Sample.everybody, .poll {}] := by
    refine Session.not_disturbed fun q hq => ?_
    cases List.mem_singleton.1 hq
    have hcompiles : (Sample.readingSession.provider.compile Sample.everybody
        (.ofQuery Sample.everybody)).isOk = true := by decide +kernel
    cases hplan : Sample.readingSession.provider.compile Sample.everybody
        (.ofQuery Sample.everybody) with
    | ok plan => exact ⟨plan, rfl⟩
    | error e =>
        rw [hplan] at hcompiles
        cases hcompiles
  obtain ⟨hrefused, -, hends, -⟩ := context_exclusive (by decide) Sample.execute_everybody
    [.execute Sample.everybody, .poll {}]
  obtain ⟨hstate, hcount⟩ := hends hquiet
  exact ⟨hrefused, hstate.trans (by decide +kernel), hcount.trans (by decide +kernel)⟩

/-- A further query without a plan makes the first one end as faulted, which is completed without
it. -/
theorem context_not_exclusive :
    let performed := Sample.readingSession.perform 0 0 [.execute Sample.nobody, .poll {}]
    let undisturbed := Sample.readingSession.drain 0 0 [{}]
    Sample.emptySession.execute Sample.everybody 0 = (Sample.readingSession, .ok 0) ∧
    (performed.session.context 0).state = .faulted ∧
    (undisturbed.1.context 0).state = .completed ∧
    performed.session.provider.counters.ends = (0, 0, 1) ∧
    undisturbed.1.provider.counters.ends = (1, 0, 0) := by
  refine ⟨Sample.execute_everybody, ?_, ?_, ?_, ?_⟩ <;> decide +kernel

end EntityQuery
