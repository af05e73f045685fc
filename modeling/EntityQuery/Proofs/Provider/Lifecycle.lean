import EntityQuery.Proofs.Provider.Exclusive

/-!
# Lifecycles

Many queries of one provider are executed, polled and canceled in any order, in contexts of their
own or in shared ones.  A context comes to its end in one of four ways: its query has no plan,
values cannot be bound, the results end, or a row fails.  Whichever it is, it is counted once.

* `Session.Step` is one thing that happens to an application.
* `Session.Effect` says what it can do to the contexts and the counters; `Session.Step.effect`.
* `Session.Counted`: the ends that are counted are those of the contexts; `Session.Counted.step`.
* `Session.Effect.ended_stays`: a context that has ended stays as it is.
* `lifecycles_counted`: the counters after any number of steps.
-/

namespace EntityQuery

/-! ## Steps

Executing a query, polling for an item and canceling are the steps of an application.  What a step
can do to contexts and counters is a second relation, with a constructor for each way to move on. -/

/-- **What happens to an application** whose queries are executed, polled and canceled in any order.
Nothing comes between the parts of a call, except that a poll may wait for its row. -/
inductive Session.Step : Session → Session → Prop
  /-- A context is made. -/
  | create {s : Session} {c : Context} (hc : c.state = .created) : Step s (s.addContext c).1
  | execute {s : Session} (q : Query) {context : Nat} (hcontext : context < s.contexts.length) :
      Step s (s.execute q context).1
  | poll {s : Session} (number : Nat) (wait : Option Nat) : Step s (s.next number wait).1
  /-- A poll comes to something, after it has waited while other things happened. -/
  | answer {s : Session} {number : Nat} {r : Results} (hr : s.results[number]? = some r)
      (hdone : r.done = false) (d : Draw) :
      Step s (s.settle number r d (r.shape.outcome (s.context r.context).failFast d.row))
  | cancel {s : Session} (context : Nat) : Step s (s.cancel context)
  /-- A query is planned, but not executed. -/
  | plan {s : Session} (q : Query) : Step s (s.plan q).1
  /-- Documents and signals are changed by others. -/
  | change {s : Session} (store : MemoryStore) (signals : Signals) :
      Step s { s with store, signals }

/-- **What a step can do** to the contexts and to the ends that are counted. -/
inductive Session.Effect (s s' : Session) : Prop
  | quiet (hcontexts : s'.contexts = s.contexts)
      (hends : s'.provider.counters.ends = s.provider.counters.ends)
  | created {c : Context} (hc : c.state = .created) (hcontexts : s'.contexts = s.contexts ++ [c])
      (hends : s'.provider.counters.ends = s.provider.counters.ends)
  | started {context : Nat} (hcontext : context < s.contexts.length)
      (hstate : (s.context context).state = .created)
      (hcontexts : s'.contexts =
        s.contexts.set context { s.context context with state := .executing })
      (hends : s'.provider.counters.ends = s.provider.counters.ends)
  | ended {context : Nat} {ending : QueryState} (hcontext : context < s.contexts.length)
      (hterminal : ending.isTerminal = true)
      (hbecome : (s.context context).state.canBecome ending = true)
      (hcontexts : s'.contexts =
        s.contexts.set context { s.context context with state := ending })
      (hends : s'.provider.counters.ends = (s.provider.counters.countEnd ending).ends)

/-- The contexts of results are among those of the application. -/
def Session.Owned (s : Session) : Prop := ∀ r ∈ s.results, r.context < s.contexts.length

/-! ## What a step can do

Each part of a call is shown to have one of the effects.  All that follows is by cases on effects,
and no function of the provider is opened again. -/

/-- Only what has been created is executed. -/
lemma QueryState.eq_created_of_canBecome {state : QueryState}
    (h : state.canBecome .executing = true) : state = .created := by
  cases state with
  | created => rfl
  | _ => cases h

/-- What moves on has not ended. -/
lemma QueryState.isTerminal_of_canBecome {state next : QueryState}
    (h : state.canBecome next = true) : state.isTerminal = false := by
  by_contra hended
  rw [canBecome_of_isTerminal (Bool.not_eq_false _ ▸ hended)] at h
  cases h

/-- With what becomes of a row, a query comes to an end or goes on. -/
lemma RowShape.isTerminal_outcome {shape : RowShape} {failFast : Bool}
    {row : Option (Except ClientError Document)} {ending : QueryState}
    (h : (shape.outcome failFast row).ending = some ending) : ending.isTerminal = true := by
  rcases row with - | e | row
  · cases h
    rfl
  · cases h
    split <;> rfl
  · simp only [outcome] at h
    split at h
    · cases h
    · simp only at h
      split at h <;> cases h
      rfl

namespace Session

variable {s s' : Session} {context number : Nat}

lemma context_of_lt (h : context < s.contexts.length) : s.context context = s.contexts[context] := by
  rw [Session.context, List.getD_eq_getElem?_getD, List.getElem?_eq_getElem h, Option.getD_some]

lemma contexts_settle (r : Results) (d : Draw) (o : Outcome) :
    (s.settle number r d o).contexts =
      s.contexts.set r.context (s.provider.settle (s.context r.context) o).2 := rfl

/-- A context that can end does if values cannot be bound. -/
lemma contexts_rejectBinding {c : Context} (hcontext : context < s.contexts.length)
    (hbecome : c.state.canBecome .faulted = true) :
    ((s.setContext context c).rejectBinding context).contexts =
      s.contexts.set context { c with state := .faulted } := by
  change (s.contexts.set context c).set context
    ((((s.setContext context c).context context).finish .faulted).getD _) = _
  rw [context_setContext hcontext, Context.finish_of_canBecome hbecome, Option.getD_some,
    List.set_set]

lemma effect_settle {r : Results} (hcontext : r.context < s.contexts.length) (d : Draw) :
    Effect s (s.settle number r d (r.shape.outcome (s.context r.context).failFast d.row)) := by
  rcases @Provider.settle_cases s.provider (s.context r.context)
    (r.shape.outcome (s.context r.context).failFast d.row) with
    ⟨hsettle, hends⟩ | ⟨ending, hbecome, hsettle, hending, hends⟩
  · refine .quiet ?_ hends
    rw [contexts_settle, hsettle]
    exact congrArg Session.contexts (setContext_self hcontext)
  · refine .ended hcontext (RowShape.isTerminal_outcome hending) hbecome ?_ hends
    rw [contexts_settle, hsettle]

lemma effect_abandon (hcontext : context < s.contexts.length) : Effect s (s.abandon context) := by
  by_cases hbecome : (s.context context).state.canBecome .faulted = true
  · rw [abandon, Context.finish_of_canBecome hbecome]
    exact .ended hcontext rfl hbecome rfl rfl
  · rw [abandon, Context.finish_of_not_canBecome hbecome]
    exact .quiet rfl rfl

/-- A plan is refused, or its values cannot be bound, or it is started.  The count of the second
case is not guarded: the context has just become one that is executed, and can end. -/
lemma effect_start (hcontext : context < s.contexts.length) (p : Plan) (constants : List Captured) :
    Effect s (s.start p constants context).1 := by
  by_cases hbecome : (s.context context).state.canBecome .executing = true
  · have hstate := QueryState.eq_created_of_canBecome hbecome
    rw [start, Context.transition, if_pos hbecome]
    simp only
    split
    · have hfaulted : (s.context context).state.canBecome .faulted = true := by rw [hstate]; rfl
      exact .ended hcontext rfl hfaulted (contexts_rejectBinding hcontext rfl) rfl
    · exact .started hcontext hstate rfl rfl
  · rw [start, Context.transition, if_neg hbecome]
    exact .quiet rfl rfl

/-- What a step can do does not depend on the rest of the session. -/
lemma Effect.of_same {s₀ : Session} (h : Effect s s') (hcontexts : s.contexts = s₀.contexts)
    (hends : s.provider.counters.ends = s₀.provider.counters.ends) : Effect s₀ s' := by
  have hcontext : ∀ context, s.context context = s₀.context context := fun context =>
    congrArg (fun contexts => contexts.getD context {}) hcontexts
  cases h with
  | quiet hsame hcount => exact .quiet (hsame.trans hcontexts) (hcount.trans hends)
  | created hc hmore hcount => exact .created hc (hcontexts ▸ hmore) (hcount.trans hends)
  | started hlt hstate hset hcount =>
      rw [hcontext] at hstate hset
      exact .started (hcontexts ▸ hlt) hstate (hcontexts ▸ hset) (hcount.trans hends)
  | ended hlt hterminal hbecome hset hcount =>
      rw [hcontext] at hbecome hset
      exact .ended (hcontexts ▸ hlt) hterminal hbecome (hcontexts ▸ hset)
        (hcount.trans (Counters.ends_countEnd hends _))

lemma effect_execute (q : Query) (hcontext : context < s.contexts.length) :
    Effect s (s.execute q context).1 := by
  have hends := s.provider.ends_plan q
  rcases hplan : s.plan q with ⟨s₁, e | p⟩
  all_goals
    have hs₁ : { s with provider := (s.provider.plan q).1 } = s₁ := congrArg Prod.fst hplan
    have hcontexts : s₁.contexts = s.contexts := by rw [← hs₁]
    rw [← hcontexts] at hcontext
    simp only [execute, hplan]
  · exact (effect_abandon hcontext).of_same hcontexts (hs₁ ▸ hends)
  · exact (effect_start hcontext p q.constants).of_same hcontexts (hs₁ ▸ hends)

/-- **What a step can do.** -/
theorem Step.effect (h : Step s s') (howned : s.Owned) : Effect s s' := by
  cases h with
  | create hc => exact .created hc rfl rfl
  | execute q hcontext => exact effect_execute q hcontext
  | poll number wait =>
      rcases s.next_cases number wait with hnext | ⟨r, d, hr, -, hnext⟩ <;> rw [hnext]
      · exact .quiet rfl rfl
      · exact effect_settle (howned r (List.mem_of_getElem? hr)) d
  | answer hr _ d => exact effect_settle (howned _ (List.mem_of_getElem? hr)) d
  | plan q => exact .quiet rfl (s.provider.ends_plan q)
  | cancel | change => exact .quiet rfl rfl

/-! ## The contexts of results

A poll moves the context that its result names.  It is one of the application's, because results are
only made for contexts that are given. -/

lemma Effect.length_le (h : Effect s s') : s.contexts.length ≤ s'.contexts.length := by
  cases h with
  | quiet hcontexts => rw [hcontexts]
  | created _ hcontexts => rw [hcontexts, List.length_append]; exact Nat.le_add_right _ _
  | started _ _ hcontexts => rw [hcontexts, List.length_set]
  | ended _ _ _ hcontexts => rw [hcontexts, List.length_set]

lemma mem_results_settle {r r' : Results} {d : Draw} {o : Outcome}
    (h : r' ∈ (s.settle number r d o).results) : r' ∈ s.results ∨ r'.context = r.context := by
  rcases List.mem_or_eq_of_mem_set h with h | rfl
  · exact .inl h
  · exact .inr rfl

lemma mem_results_start {p : Plan} {constants : List Captured} {r : Results}
    (h : r ∈ (s.start p constants context).1.results) : r ∈ s.results ∨ r.context = context := by
  rw [start] at h
  split at h
  · exact .inl h
  · simp only at h
    split at h
    · exact .inl h
    · rcases List.mem_append.1 h with h | h
      · exact .inl h
      · rw [List.mem_singleton.1 h]
        exact .inr rfl

lemma results_abandon : (s.abandon context).results = s.results := by
  rw [abandon]
  split <;> rfl

lemma mem_results_execute {q : Query} {r : Results} (h : r ∈ (s.execute q context).1.results) :
    r ∈ s.results ∨ r.context = context := by
  rw [execute] at h
  split at h
  · rename_i s₁ e hplan
    have hresults : s.results = s₁.results := congrArg (fun r => r.1.results) hplan
    rw [results_abandon] at h
    exact .inl (hresults ▸ h)
  · rename_i s₁ p hplan
    have hresults : s.results = s₁.results := congrArg (fun r => r.1.results) hplan
    exact hresults ▸ mem_results_start h

lemma Owned.settle (h : s.Owned) {r : Results} (hr : s.results[number]? = some r) (d : Draw)
    (o : Outcome) : (s.settle number r d o).Owned := by
  intro r' hr'
  rw [contexts_settle, List.length_set]
  rcases mem_results_settle hr' with hr' | hr'
  · exact h r' hr'
  · rw [hr']
    exact h r (List.mem_of_getElem? hr)

/-- Results are of contexts that there are. -/
lemma Owned.step (h : s.Owned) (hstep : Step s s') : s'.Owned := by
  cases hstep with
  | @create c hc =>
      intro r hr
      have heffect : Effect s (s.addContext c).1 := .created hc rfl rfl
      exact Nat.lt_of_lt_of_le (h r hr) heffect.length_le
  | execute q hcontext =>
      intro r hr
      refine Nat.lt_of_lt_of_le ?_ (effect_execute q hcontext).length_le
      rcases mem_results_execute hr with hr | rfl
      · exact h r hr
      · exact hcontext
  | poll number wait =>
      rcases s.next_cases number wait with hnext | ⟨r, d, hr, -, hnext⟩ <;> rw [hnext]
      · exact h
      · exact h.settle hr d _
  | answer hr _ d => exact h.settle hr d _
  | cancel | plan | change => exact h

/-! ## Counting

The number of contexts in a state is compared with a counter.  A step either leaves both or raises
both by one, and it never moves a context out of an end. -/

/-- The number of contexts in a state. -/
def inState (s : Session) (state : QueryState) : Nat :=
  s.contexts.countP fun c => c.state == state

/-- **The ends that are counted are those of the contexts.** -/
def Counted (s : Session) : Prop :=
  s.provider.counters.ends = (s.inState .completed, s.inState .canceled, s.inState .faulted)

/-- A context that has not ended is set to another state: it is counted where it ends. -/
lemma inState_set {c : Context} (hcontext : context < s.contexts.length)
    (hcontexts : s'.contexts = s.contexts.set context c)
    (hopen : (s.context context).state.isTerminal = false) (state : QueryState)
    (hstate : state.isTerminal = true) :
    s'.inState state = s.inState state + if c.state = state then 1 else 0 := by
  have hother : s.contexts[context].state ≠ state := by
    rintro rfl
    rw [← context_of_lt hcontext, hopen] at hstate
    cases hstate
  rw [inState, hcontexts, List.countP_set hcontext]
  simp [hother, inState]

/-- **A step keeps the counters**: the context that ends is the one that is counted. -/
theorem Counted.step (h : s.Counted) (heffect : Effect s s') : s'.Counted := by
  rw [Counted] at h ⊢
  cases heffect with
  | quiet hcontexts hends =>
      rw [hends, h]
      simp only [inState, hcontexts]
  | created hc hcontexts hends =>
      rw [hends, h]
      simp [inState, hcontexts, List.countP_append, hc]
  | started hcontext hstate hcontexts hends =>
      have hset := inState_set hcontext hcontexts (by rw [hstate]; rfl)
      rw [hends, h, hset .completed rfl, hset .canceled rfl, hset .faulted rfl]
      rfl
  | @ended context ending hcontext hterminal hbecome hcontexts hends =>
      have hset := inState_set hcontext hcontexts (QueryState.isTerminal_of_canBecome hbecome)
      rw [hends, hset .completed rfl, hset .canceled rfl, hset .faulted rfl]
      simp only [Counters.ends, Prod.mk.injEq] at h
      cases ending with
      | created | executing => cases hterminal
      | _ => simp [Counters.ends, Counters.countEnd, h]

/-- **A context that has ended stays as it is.** -/
theorem Effect.ended_stays (h : Effect s s') {c : Context} (hc : s.contexts[number]? = some c)
    (hended : c.state.isTerminal = true) : s'.contexts[number]? = some c := by
  have hlt : number < s.contexts.length := (List.getElem?_eq_some_iff.1 hc).1
  have hother : ∀ context, (s.context context).state.isTerminal = false → context ≠ number := by
    rintro context hopen rfl
    rw [Session.context, List.getD_eq_getElem?_getD, hc, Option.getD_some, hended] at hopen
    cases hopen
  cases h with
  | quiet hcontexts => rw [hcontexts, hc]
  | created _ hcontexts => rw [hcontexts, List.getElem?_append_left hlt, hc]
  | started _ hstate hcontexts =>
      rw [hcontexts, List.getElem?_set_ne (hother _ (by rw [hstate]; rfl)), hc]
  | ended _ _ hbecome hcontexts =>
      rw [hcontexts, List.getElem?_set_ne (hother _ (QueryState.isTerminal_of_canBecome hbecome)),
        hc]

end Session

/-! ## Runs

By induction along a run the counters are right after every step, from a provider on that has
counted nothing and contexts that have not been used. -/

/-- A provider that has just been made has counted nothing. -/
lemma Provider.ends_create {m : Model} {o : Options} {p : Provider}
    (h : Provider.create m o = .ok p) : p.counters.ends = (0, 0, 0) := by
  have hreports : ∀ (warnings : List Issue) (p : Provider),
      (warnings.foldl (fun p _ => p.report .modelWarning) p).counters = p.counters := by
    intro warnings
    induction warnings with
    | nil => exact fun _ => rfl
    | cons _ warnings ih => exact fun p => ih (p.report .modelWarning)
  obtain ⟨_, -, h⟩ := Computation.bind_eq_ok.1 h
  obtain ⟨valid, -, h⟩ := Computation.bind_eq_ok.1 h
  cases h
  exact congrArg Counters.ends (hreports _ _)

/-- An application whose provider has just been made, and whose contexts have not been used. -/
structure Session.IsFresh (s : Session) : Prop where
  provider : ∃ m o, Provider.create m o = .ok s.provider
  contexts : ∀ c ∈ s.contexts, c.state = .created
  results : s.results = []

namespace Session

variable {s₀ s : Session}

lemma IsFresh.counted (h : s.IsFresh) : s.Counted := by
  obtain ⟨m, o, hcreate⟩ := h.provider
  have hnone : ∀ state : QueryState, state.isTerminal = true → s.inState state = 0 := by
    intro state hstate
    refine List.countP_eq_zero.2 fun c hc => ?_
    rw [h.contexts c hc, beq_iff_eq]
    rintro rfl
    cases hstate
  rw [Counted, Provider.ends_create hcreate, hnone .completed rfl, hnone .canceled rfl,
    hnone .faulted rfl]

/-- After each step of a run, results are of contexts that there are, and ends are counted. -/
lemma IsFresh.run (h : s₀.IsFresh) (hrun : Relation.ReflTransGen Step s₀ s) :
    s.Owned ∧ s.Counted := by
  induction hrun with
  | refl =>
      refine ⟨?_, h.counted⟩
      rw [Owned, h.results]
      exact nofun
  | tail _ hstep ih => exact ⟨ih.1.step hstep, ih.2.step (hstep.effect ih.1)⟩

lemma ended_stays_run (howned : s.Owned) {s' : Session} (hrun : Relation.ReflTransGen Step s s')
    {number : Nat} {c : Context} (hc : s.contexts[number]? = some c)
    (hended : c.state.isTerminal = true) : s'.Owned ∧ s'.contexts[number]? = some c := by
  induction hrun with
  | refl => exact ⟨howned, hc⟩
  | tail _ hstep ih => exact ⟨ih.1.step hstep, (hstep.effect ih.1).ended_stays ih.2 hended⟩

end Session

/-- **Lifecycles are counted.**  Whatever queries an application executes, polls and cancels, in
whatever contexts and order, the provider has counted as completed, canceled and faulted as many
queries as there are contexts that are completed, canceled and faulted; and a context that has come
to one of these states stays as it is. -/
theorem lifecycles_counted {s₀ s : Session} (hfresh : s₀.IsFresh)
    (hrun : Relation.ReflTransGen Session.Step s₀ s) :
    s.provider.counters.completed = s.inState .completed ∧
    s.provider.counters.canceled = s.inState .canceled ∧
    s.provider.counters.faulted = s.inState .faulted ∧
    ∀ (number : Nat) (c : Context), s.contexts[number]? = some c → c.state.isTerminal = true →
      ∀ s', Relation.ReflTransGen Session.Step s s' → s'.contexts[number]? = some c := by
  obtain ⟨howned, hcounted⟩ := hfresh.run hrun
  simp only [Session.Counted, Counters.ends, Prod.mk.injEq] at hcounted
  obtain ⟨hcompleted, hcanceled, hfaulted⟩ := hcounted
  refine ⟨hcompleted, hcanceled, hfaulted, fun number c hc hended s' hrun' => ?_⟩
  exact (Session.ended_stays_run howned hrun' hc hended).2

namespace Sample

/-- Of two contexts, the second is used for a query without a plan while the first is read to its
end; then the first is used for such a query, too. -/
def workedSession : Session :=
  let s := (emptySession.addContext {}).1
  let s := (s.execute everybody 0).1
  let s := (s.execute nobody 1).1
  let s := (s.next 0 none).1
  (s.execute nobody 0).1

lemma isFresh_emptySession : emptySession.IsFresh where
  provider := ⟨people.model, { registry := .standard }, create_provider rfl⟩
  contexts := by decide
  results := rfl

end Sample

/-- One query is completed and one is faulted, and the second refusal is not counted. -/
theorem lifecycles_counted_worked :
    Sample.emptySession.IsFresh ∧
    Relation.ReflTransGen Session.Step Sample.emptySession Sample.workedSession ∧
    Sample.workedSession.contexts.map Context.state = [.completed, .faulted] ∧
    Sample.workedSession.provider.counters.completed = 1 ∧
    Sample.workedSession.provider.counters.canceled = 0 ∧
    Sample.workedSession.provider.counters.faulted = 1 := by
  have hrun : Relation.ReflTransGen Session.Step Sample.emptySession Sample.workedSession :=
    .tail (.tail (.tail (.tail (.single (.create rfl)) (.execute Sample.everybody (by decide)))
      (.execute Sample.nobody (by decide +kernel))) (.poll 0 none))
      (.execute Sample.nobody (by decide +kernel))
  obtain ⟨hcompleted, hcanceled, hfaulted, -⟩ :=
    lifecycles_counted Sample.isFresh_emptySession hrun
  have hstates : Sample.workedSession.contexts.map Context.state = [.completed, .faulted] := by
    decide +kernel
  refine ⟨Sample.isFresh_emptySession, hrun, hstates, ?_, ?_, ?_⟩
  · rw [hcompleted]; decide +kernel
  · rw [hcanceled]; decide +kernel
  · rw [hfaulted]; decide +kernel

end EntityQuery
