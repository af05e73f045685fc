import EntityQuery.Proofs.Query.Reading
import EntityQuery.Proofs.Translation.Form
import EntityQuery.Proofs.Translation.Slots
import EntityQuery.Provider.Session

/-!
# Transparency of the cache of plans

A provider hands out plans that it has kept from earlier queries.  Such a plan is the one that a
fresh provider would make, if the types that queries write out are told by their names, since that
is how the key of a query names them.

* `Provider.Keeps`: each kept plan comes from a query that has been asked for; `Provider.Keeps.plan`
  and `Provider.Keeps.after` are the steps.
* `Provider.Keeps.agrees`: so what a provider answers is what a fresh one answers.
* `cache_transparent`: the cache is transparent if the registered types have different names, and
  only then.
-/

namespace EntityQuery

/-! ## Histories -/

namespace Session

/-- What an application asks a provider about a query. -/
inductive Call where
  | plan (q : Query)
  | explain (q : Query)
  /-- The query is executed in a new context. -/
  | execute (q : Query) (c : Context)

/-- The query of a call. -/
def Call.query : Call → Query
  | .plan q | .explain q | .execute q _ => q

/-- The session after a call. -/
def call (s : Session) : Call → Session
  | .plan q => (s.plan q).1
  | .explain q => { s with provider := (s.provider.explain q).1 }
  | .execute q c => ((s.addContext c).1.execute q (s.addContext c).2).1

/-- The session after several calls. -/
def after (s : Session) (calls : List Call) : Session := calls.foldl call s

end Session

/-! ## Agreement

Answers are compared by what they let a caller see.  Plans agree if they send the same statement and
read its rows in the same way, whatever key they were kept under. -/

/-- Plans of one statement with the same parameters, whose rows have the same shape. -/
structure Plan.Agrees (p p' : Plan) : Prop where
  statement : p.statement = p'.statement
  parameters : p.parameters = p'.parameters
  shape : p.shape.withoutOrigins = p'.shape.withoutOrigins
  /-- Binding any constants fails on both or gives the same on both. -/
  bind : ∀ constants c, p.bind constants c = p'.bind constants c

/-- Answers that are errors of one kind or plans that agree. -/
def Agree : Except Failure Plan → Except Failure Plan → Prop
  | .ok p, .ok p' => p.Agrees p'
  | .error e, .error e' => e = e'
  | _, _ => False

/-- The digests of some queries are equal only if their encodings are. -/
def CollisionFree (qs : List Query) : Prop :=
  ∀ q ∈ qs, ∀ q' ∈ qs, PlanKey.ofQuery q = PlanKey.ofQuery q' → q.encoding = q'.encoding

/-- The types of a query are registered, and its encoding has a length of 64 bits. -/
structure Query.Registered (r : Registry) (q : Query) : Prop where
  types : ∀ t ∈ q.types, r.contains t = true
  size : q.encoding.length < 2 ^ 64

/-- After all calls for registered queries without collisions, a provider answers what it answers
at the beginning. -/
def Provider.Transparent (p : Provider) : Prop :=
  ∀ (s : Session) (calls : List Session.Call) (q : Query), s.provider = p →
    (∀ q' ∈ q :: calls.map Session.Call.query, q'.Registered p.options.registry) →
    CollisionFree (q :: calls.map Session.Call.query) →
    Agree ((s.after calls).plan q).2 (p.plan q).2

/-- Registered types have different names. -/
def Registry.NamesTypes (r : Registry) : Prop :=
  ∀ t u, r.contains t = true → r.contains u = true → t.name = u.name → t = u

/-- The registered type of a name. -/
def Registry.typeOf? (r : Registry) (name : String) : Option ScalarType :=
  (r.codecs.find? fun c => c.scalarType.name == name).map Codec.scalarType

lemma Registry.contains_iff {r : Registry} {t : ScalarType} :
    r.contains t = true ↔ ∃ c ∈ r.codecs, c.scalarType = t := by
  simp [contains, find?]

/-- A registered type is found by its name if that is its own. -/
lemma Registry.NamesTypes.typesOf {r : Registry} (h : r.NamesTypes) {ts : List ScalarType}
    (hts : ∀ t ∈ ts, r.contains t = true) : TypesOf r.typeOf? ts := by
  intro t ht
  obtain ⟨c, hc, rfl⟩ := Registry.contains_iff.1 (hts t ht)
  have hsome : (r.codecs.find? fun d => d.scalarType.name == c.scalarType.name).isSome = true :=
    List.find?_isSome.2 ⟨c, hc, beq_self_eq_true _⟩
  obtain ⟨d, hd⟩ := Option.isSome_iff_exists.1 hsome
  have hname : d.scalarType.name = c.scalarType.name := by simpa using List.find?_some hd
  have hmem := List.mem_of_find?_eq_some hd
  have htype : d.scalarType = c.scalarType :=
    h _ _ (Registry.contains_iff.2 ⟨d, hmem, rfl⟩) (Registry.contains_iff.2 ⟨c, hc, rfl⟩) hname
  rw [Registry.typeOf?, hd, Option.map_some, htype]

/-! ## Plans of one form

Compiling looks at a query through its form only.  So two queries of one form are answered alike,
with plans that agree or with the same kind of error. -/

namespace Provider

variable {p p₀ : Provider} {q q' : Query} {qs : List Query} {plan : Plan}

/-- A provider with another number of compiled plans, another cache, other counters and reports. -/
def SameSource (p p' : Provider) : Prop := p.model = p'.model ∧ p.options = p'.options

/-- What a compiled plan is made of. -/
lemma compile_eq_ok {key : PlanKey} :
    p.compile q key = .ok plan ↔
      ∃ t, Translator.translate ⟨p.model, p.options.registry, p.options.functions⟩ q = .ok t ∧
        Plan.compile p.options.registry key p.compiled t = .ok plan := by
  constructor
  · intro h
    obtain ⟨t, ht, h⟩ := Computation.bind_eq_ok.1 h
    exact ⟨t, Computation.mapError_eq_ok.1 ht, Computation.mapError_eq_ok.1 h⟩
  · rintro ⟨t, ht, h⟩
    exact Computation.bind_eq_ok.2
      ⟨t, Computation.mapError_eq_ok.2 ht, Computation.mapError_eq_ok.2 h⟩

/-- Queries of one form have plans that agree. -/
lemma compile_form {key key' : PlanKey} (hform : q.form = q'.form)
    (hsame : SameSource p p₀) (h : p.compile q key = .ok plan) :
    ∃ plan', p₀.compile q' key' = .ok plan' ∧ plan.Agrees plan' := by
  obtain ⟨t, ht, hplan⟩ := compile_eq_ok.1 h
  obtain ⟨t', ht', halike⟩ := Translator.translate_form hform ht
  obtain ⟨parameters, hparameters, hplan⟩ := Computation.bind_eq_ok.1 hplan
  cases hplan
  rw [halike.query, hsame.2] at hparameters
  rw [hsame.1, hsame.2] at ht'
  have hcompile : Plan.compile p₀.options.registry key' p₀.compiled t' =
      .ok ⟨key', t'.query.statement, parameters, t'.shape, p₀.compiled⟩ :=
    Computation.bind_eq_ok.2 ⟨_, hparameters, rfl⟩
  exact ⟨_, compile_eq_ok.2 ⟨t', ht', hcompile⟩,
    ⟨by rw [halike.query], rfl, halike.shape, fun _ _ => rfl⟩⟩

/-- The errors of a query are the same whatever has been compiled before. -/
lemma compile_error {key : PlanKey} {e : Failure} (hsame : SameSource p p₀)
    (h : p.compile q key = .error e) : p₀.compile q key = .error e := by
  simp only [compile, translate, Plan.compile] at h ⊢
  rw [hsame.1, hsame.2] at h
  rcases Computation.bind_eq_error.1 h with h | ⟨t, ht, h⟩
  · exact Computation.bind_eq_error.2 (.inl h)
  · refine Computation.bind_eq_error.2 (.inr ⟨t, ht, ?_⟩)
    obtain ⟨u, hu, he⟩ := Computation.mapError_eq_error.1 h
    refine Computation.mapError_eq_error.2 ⟨u, ?_, he⟩
    rcases Computation.bind_eq_error.1 hu with hu | ⟨parameters, -, hu⟩
    · exact Computation.bind_eq_error.2 (.inl hu)
    · cases hu

/-! ## Kept plans

What is kept after a history is a plan of some query of it, under the digest of that query.  A
digest that is found again belongs to a query of one encoding, and if types are told by their names,
of one form. -/

/-- A provider with the source of another one each of whose plans comes from one of some queries. -/
structure Keeps (p₀ : Provider) (qs : List Query) (p : Provider) : Prop where
  same : SameSource p p₀
  kept : ∀ key plan, p.plans.find? key = some plan →
    ∃ q ∈ qs, PlanKey.ofQuery q = key ∧ ∃ p', SameSource p' p₀ ∧ p'.compile q key = .ok plan

/-- A provider without plans keeps those of no queries. -/
lemma keeps_empty (h : p.plans.entries = []) : Keeps p [] p where
  same := ⟨rfl, rfl⟩
  kept key plan hfind := by simp [PlanCache.find?, h] at hfind

/-- A plan that is found after another one has been kept is that one, or has been there before. -/
lemma find?_insert {α : Type} {c : PlanCache α} {key other : PlanKey} {new kept : α}
    (h : (c.insert key new).1.find? other = some kept) :
    c.find? other = some kept ∨ key = other ∧ new = kept := by
  rw [PlanCache.insert] at h
  cases hkey : c.find? key with
  | some old =>
      simp only [hkey] at h
      exact .inl h
  | none =>
      simp only [hkey] at h
      split at h
      · simp only [PlanCache.find?, List.find?_append, Option.map_eq_some_iff,
          Option.or_eq_some_iff] at h
        obtain ⟨e, he | ⟨-, he⟩, rfl⟩ := h
        · exact .inl (by rw [PlanCache.find?, he, Option.map_some])
        · rw [List.find?_singleton] at he
          split at he
          · rename_i heq
            cases he
            exact .inr ⟨beq_iff_eq.1 heq, rfl⟩
          · cases he
      · exact .inl h

/-- A plan is found if there has been none of its key and there is room for it. -/
lemma find?_insert_self {α : Type} {c : PlanCache α} {key : PlanKey} {new : α}
    (hfind : c.find? key = none) (hroom : c.entries.length < c.capacity) :
    (c.insert key new).1.find? key = some new := by
  have hentries : c.entries.find? (fun e => e.1 == key) = none := by
    simpa only [PlanCache.find?, Option.map_eq_none_iff] using hfind
  simp only [PlanCache.insert, hfind, hroom, if_true]
  simp [PlanCache.find?, hentries]

/-- A provider answers with a kept plan, or with a compiled one, which it may keep. -/
lemma plan_spec (p : Provider) (q : Query) :
    (p.plan q).2 = (match p.plans.find? (.ofQuery q) with
      | some plan => .ok plan
      | none => p.compile q (.ofQuery q)) ∧
    SameSource (p.plan q).1 p ∧
    ∀ key plan, (p.plan q).1.plans.find? key = some plan →
      p.plans.find? key = some plan ∨
        PlanKey.ofQuery q = key ∧ p.compile q (.ofQuery q) = .ok plan := by
  rw [Provider.plan]
  cases hfind : p.plans.find? (.ofQuery q) with
  | some plan =>
      simp only [PlanCache.get, hfind]
      exact ⟨trivial, ⟨rfl, rfl⟩, fun key plan h => .inl h⟩
  | none =>
      simp only [PlanCache.get, hfind]
      -- looking for the plan is counted, which nothing depends on
      have hcompile : ({ p with plans := { p.plans with misses := p.plans.misses + 1 } } :
          Provider).compile q (.ofQuery q) = p.compile q (.ofQuery q) := rfl
      have hmiss : ({ p.plans with misses := p.plans.misses + 1 } : PlanCache Plan).find?
          (.ofQuery q) = none := hfind
      rw [hcompile]
      cases hresult : p.compile q (.ofQuery q) with
      | error e => exact ⟨rfl, ⟨rfl, rfl⟩, fun key plan h => .inl h⟩
      | ok plan =>
          refine ⟨?_, ⟨rfl, rfl⟩, fun key plan' h => ?_⟩
          · simp only [PlanCache.insert, hmiss]
            split <;> rfl
          · rcases find?_insert h with h | ⟨hkey, rfl⟩
            · exact .inl h
            · exact .inr ⟨hkey, rfl⟩

/-- Providers with the same source and the same cache. -/
def SamePlans (p p' : Provider) : Prop := SameSource p p' ∧ p.plans = p'.plans

/-- Executing a query leaves the plans as planning it does. -/
lemma samePlans_execute (s : Session) (q : Query) (n : Nat) :
    SamePlans (s.execute q n).1.provider (s.provider.plan q).1 := by
  have habandon : ∀ s : Session, SamePlans (s.abandon n).provider s.provider := by
    intro s
    rw [Session.abandon]
    split <;> exact ⟨⟨rfl, rfl⟩, rfl⟩
  have hstart : ∀ (s : Session) (plan : Plan) (constants : List Captured),
      SamePlans (s.start plan constants n).1.provider s.provider := by
    intro s plan constants
    rw [Session.start]
    split
    · exact ⟨⟨rfl, rfl⟩, rfl⟩
    · simp only
      split <;> exact ⟨⟨rfl, rfl⟩, rfl⟩
  rw [Session.execute]
  split
  · rename_i s' e heq
    have hprovider : (s.provider.plan q).1 = s'.provider := congrArg (fun r => r.1.provider) heq
    rw [hprovider]
    exact habandon _
  · rename_i s' plan heq
    have hprovider : (s.provider.plan q).1 = s'.provider := congrArg (fun r => r.1.provider) heq
    rw [hprovider]
    exact hstart _ _ _

namespace Keeps

lemma of_samePlans {p' : Provider} (h : Keeps p₀ qs p) (hsame : SamePlans p' p) :
    Keeps p₀ qs p' where
  same := ⟨hsame.1.1.trans h.same.1, hsame.1.2.trans h.same.2⟩
  kept := by
    rw [hsame.2]
    exact h.kept

/-- What is kept after a query has been planned comes from it or from earlier ones. -/
lemma after_plan (h : Keeps p₀ qs p) (q : Query) : Keeps p₀ (q :: qs) (p.plan q).1 := by
  obtain ⟨-, hsame, hfind⟩ := p.plan_spec q
  refine ⟨⟨hsame.1.trans h.same.1, hsame.2.trans h.same.2⟩, fun key plan hplan => ?_⟩
  rcases hfind key plan hplan with hold | ⟨hkey, hnew⟩
  · obtain ⟨q', hq', hplan'⟩ := h.kept key plan hold
    exact ⟨q', List.mem_cons_of_mem _ hq', hplan'⟩
  · exact ⟨q, List.mem_cons_self, hkey, p, h.same, hkey ▸ hnew⟩

/-- A call leaves plans as planning its query does. -/
lemma after_call {s : Session} (h : Keeps p₀ qs s.provider) (c : Session.Call) :
    Keeps p₀ (c.query :: qs) (s.call c).provider := by
  have hplan := h.after_plan c.query
  cases c with
  | plan q => exact hplan
  | explain q =>
      have hexplain : (s.provider.explain q).1 = (s.provider.plan q).1 := by
        rw [explain]
        split <;> rename_i heq <;> rw [heq]
      simp only [Session.call, hexplain]
      exact hplan
  | execute q c => exact hplan.of_samePlans (samePlans_execute _ q _)

/-- What is kept after some calls comes from their queries. -/
theorem after {s : Session} {calls : List Session.Call} (h : Keeps p₀ qs s.provider) :
    Keeps p₀ ((calls.map Session.Call.query).reverse ++ qs) (s.after calls).provider := by
  induction calls generalizing s qs with
  | nil => exact h
  | cons c calls ih =>
      have hrest := ih (h.after_call c)
      rwa [← List.singleton_append, ← List.append_assoc, ← List.reverse_cons] at hrest

/-- **A provider answers what a fresh one answers**, if the types that the queries write out are
told by their names. -/
theorem agrees (h : Keeps p₀ qs p) (hfresh : p₀.plans.entries = [])
    (hnames : p₀.options.registry.NamesTypes)
    (hq : ∀ q' ∈ q :: qs, q'.Registered p₀.options.registry) (hfree : CollisionFree (q :: qs)) :
    Agree (p.plan q).2 (p₀.plan q).2 := by
  have hmiss : p₀.plans.find? (.ofQuery q) = none := by simp [PlanCache.find?, hfresh]
  rw [(p.plan_spec q).1, (p₀.plan_spec q).1, hmiss]
  cases hfind : p.plans.find? (.ofQuery q) with
  | some plan =>
      obtain ⟨q', hq', hkey, p', hsame, hcompile⟩ := h.kept _ _ hfind
      have hregistered := hq q' (List.mem_cons_of_mem _ hq')
      have hencoding : q'.encoding = q.encoding :=
        hfree q' (List.mem_cons_of_mem _ hq') q List.mem_cons_self hkey
      have hform : q'.form = q.form := Query.form_eq_of_encoding_eq hencoding
        (Query.fitWords_of_length hregistered.size)
        (Query.fitWords_of_length (hq q List.mem_cons_self).size)
        (hnames.typesOf hregistered.types) (hnames.typesOf (hq q List.mem_cons_self).types)
      obtain ⟨plan', hplan', hagrees⟩ :
          ∃ plan', p₀.compile q (.ofQuery q) = .ok plan' ∧ plan.Agrees plan' :=
        compile_form hform hsame hcompile
      rw [hplan']
      exact hagrees
  | none =>
      cases hcompile : p.compile q (.ofQuery q) with
      | error e =>
          simp only [compile_error h.same hcompile]
          rfl
      | ok plan =>
          obtain ⟨plan', hplan', hagrees⟩ :
              ∃ plan', p₀.compile q (.ofQuery q) = .ok plan' ∧ plan.Agrees plan' :=
            compile_form rfl h.same hcompile
          simp only [hplan']
          exact hagrees

end Keeps

/-! ## When plans are handed out wrongly

For the other direction two queries are built that differ in a type only, and the two types have one
name.  The second query is then answered with the plan of the first. -/

/-- The rows of a query are constants of a type, all the same. -/
def constantQuery (entity : String) (t : ScalarType) : Query :=
  .project (.source entity "e") (.scalar (.constant (.bool true) t))

/-- Such a query is translated if the entity has a keyspace and the type a codec. -/
lemma stage_constantQuery {tr : Translator} {entity : String} {k : Keyspace} {t : ScalarType}
    {codec : Codec} (hk : tr.model.keyspace? entity = some k)
    (ht : tr.registry.find t = .ok codec) :
    ∃ s progress, tr.stage (constantQuery entity t) {} = .ok (s, progress) ∧
      s.yield = .scalar ⟨.placeholder "p0", t, false, none⟩ ∧
      progress.parameters.entries = [⟨"p0", t, .constant 0, false⟩] := by
  have hkeyspace : tr.keyspace "source" entity = pure k := by rw [Translator.keyspace, hk]
  have hcodec : tr.codec t = pure codec := by rw [Translator.codec, ht]
  simp only [constantQuery, Translator.stage, hkeyspace, pure_bind, Translator.projection,
    Translator.yielded, Translator.formula, Translator.constant, hcodec]
  exact ⟨_, _, rfl, rfl, rfl⟩

lemma compile_constantQuery {entity : String} {k : Keyspace} {t : ScalarType}
    (hk : p.model.keyspace? entity = some k) (ht : p.options.registry.contains t = true)
    (key : PlanKey) :
    ∃ plan, p.compile (constantQuery entity t) key = .ok plan ∧
      plan.entries = [⟨"p0", t, .constant 0, false⟩] := by
  obtain ⟨codec, hcodec⟩ := Option.isSome_iff_exists.1 ht
  have hfind : p.options.registry.find t = .ok codec := by rw [Registry.find, hcodec]
  obtain ⟨s, progress, hstage, hyield, hentries⟩ := @stage_constantQuery
    ⟨p.model, p.options.registry, p.options.functions⟩ entity k t codec hk hfind
  have hshape : Translator.rowShape ⟨p.model, p.options.registry, p.options.functions⟩ s.yield =
      .ok (.scalar ⟨codec, false, none⟩) := by
    rw [hyield, Translator.rowShape, Translator.scalarSlot, Translator.shapeCodec, hfind]
    rfl
  have htranslate : Translator.translate ⟨p.model, p.options.registry, p.options.functions⟩
      (constantQuery entity t) =
        .ok ⟨⟨s.statement, progress.parameters⟩, .scalar ⟨codec, false, none⟩⟩ :=
    Computation.bind_eq_ok.2 ⟨_, hstage, Computation.bind_eq_ok.2 ⟨_, hshape, rfl⟩⟩
  have hparameters : (progress.parameters.entries.mapM fun entry => do
      let codec ← p.options.registry.find entry.scalarType
      Except.ok (entry, codec)) = .ok [(⟨"p0", t, .constant 0, false⟩, codec)] := by
    rw [hentries, List.mapM_cons, hfind]
    rfl
  exact ⟨_, compile_eq_ok.2 ⟨_, htranslate, Computation.bind_eq_ok.2 ⟨_, hparameters, rfl⟩⟩, rfl⟩

/-- An empty cache keeps the plan of the first query. -/
lemma find?_plan (hfresh : p.plans.entries = []) (hcapacity : 0 < p.plans.capacity)
    (h : p.compile q (.ofQuery q) = .ok plan) :
    (p.plan q).1.plans.find? (.ofQuery q) = some plan := by
  have hfind : p.plans.find? (.ofQuery q) = none := by simp [PlanCache.find?, hfresh]
  have hcompile : ({ p with plans := { p.plans with misses := p.plans.misses + 1 } } :
      Provider).compile q (.ofQuery q) = .ok plan := h
  rw [Provider.plan]
  simp only [PlanCache.get, hfind]
  rw [hcompile]
  change (PlanCache.insert { p.plans with misses := p.plans.misses + 1 } (.ofQuery q) plan).1.find?
    (.ofQuery q) = some plan
  exact find?_insert_self hfind (by rwa [hfresh])

/-- Types of one name are a built-in one and one of the application, so the name is short. -/
lemma size_name_le {t u : ScalarType} (hname : t.name = u.name) (hne : t ≠ u) :
    t.name.utf8ByteSize ≤ 8 := by
  cases t with
  | custom name =>
      cases u with
      | custom name' => exact absurd (congrArg ScalarType.custom hname) hne
      | _ =>
          rw [hname]
          decide
  | _ => decide

/-- **Types of one name make the cache answer wrongly**, if some entity can be queried. -/
theorem not_transparent {entity : String} {t u : ScalarType} (hfresh : p.plans.entries = [])
    (hcapacity : 0 < p.plans.capacity) (hk : (p.model.keyspace? entity).isSome = true)
    (hsize : entity.utf8ByteSize < 2 ^ 63) (ht : p.options.registry.contains t = true)
    (hu : p.options.registry.contains u = true) (hname : t.name = u.name) (hne : t ≠ u) :
    ¬ p.Transparent := by
  intro h
  obtain ⟨k, hk⟩ := Option.isSome_iff_exists.1 hk
  have hencoding : (constantQuery entity t).encoding = (constantQuery entity u).encoding := by
    simp only [constantQuery, Query.encoding, Projection.encoding, Formula.encoding,
      Encoding.scalarType, hname]
  have hkey : PlanKey.ofQuery (constantQuery entity t) = .ofQuery (constantQuery entity u) := by
    rw [PlanKey.ofQuery, hencoding, PlanKey.ofQuery]
  have hlength : (constantQuery entity t).encoding.length < 2 ^ 64 := by
    have hle := size_name_le hname hne
    have hwords : "source".utf8ByteSize = 6 ∧ "e".utf8ByteSize = 1 ∧ "project".utf8ByteSize = 7 ∧
        "scalar".utf8ByteSize = 6 ∧ "const".utf8ByteSize = 5 := by decide
    obtain ⟨h₁, h₂, h₃, h₄, h₅⟩ := hwords
    simp only [constantQuery, Query.encoding, Projection.encoding, Formula.encoding,
      List.length_append, Encoding.length_text, Encoding.length_scalarType, Encoding.length_flag,
      h₁, h₂, h₃, h₄, h₅]
    omega
  obtain ⟨plan, hplan, hentries⟩ := compile_constantQuery hk ht (.ofQuery (constantQuery entity t))
  obtain ⟨plan', hplan', hentries'⟩ :=
    compile_constantQuery hk hu (.ofQuery (constantQuery entity u))
  have hkept := find?_plan hfresh hcapacity hplan
  have hagree := h { provider := p } [.plan (constantQuery entity t)] (constantQuery entity u) rfl
    ?_ ?_
  · have hmiss : p.plans.find? (.ofQuery (constantQuery entity u)) = none := by
      simp [PlanCache.find?, hfresh]
    have hanswer : (p.plan (constantQuery entity u)).2 = .ok plan' := by
      rw [(p.plan_spec _).1, hmiss]
      exact hplan'
    have hcached : ((p.plan (constantQuery entity t)).1.plan (constantQuery entity u)).2 =
        .ok plan := by
      rw [(Provider.plan_spec _ _).1, ← hkey, hkept]
    change Agree ((p.plan (constantQuery entity t)).1.plan (constantQuery entity u)).2 _ at hagree
    rw [hanswer, hcached] at hagree
    have heq : plan.entries = plan'.entries := by
      rw [Plan.entries, hagree.parameters, Plan.entries]
    rw [hentries, hentries'] at heq
    simp only [List.cons.injEq, ParameterEntry.mk.injEq, and_true, true_and] at heq
    exact hne heq
  · intro q' hq'
    simp only [List.map_cons, List.map_nil, List.mem_cons, List.not_mem_nil, or_false,
      Session.Call.query] at hq'
    rcases hq' with rfl | rfl
    · refine ⟨fun t' ht' => ?_, hencoding ▸ hlength⟩
      rw [List.mem_singleton.1 ht']
      exact hu
    · refine ⟨fun t' ht' => ?_, hlength⟩
      rw [List.mem_singleton.1 ht']
      exact ht
  · intro q₁ hq₁ q₂ hq₂ _
    simp only [List.map_cons, List.map_nil, List.mem_cons, List.not_mem_nil, or_false,
      Session.Call.query] at hq₁ hq₂
    rcases hq₁ with rfl | rfl <;> rcases hq₂ with rfl | rfl <;> simp only [hencoding]

end Provider

/-! ## Fresh providers

A provider that has just been made keeps nothing, so that the histories of the result are those from
its making on. -/

namespace Provider

/-- A provider that has just been made keeps no plans, but may keep some. -/
lemma create_plans {m : Model} {o : Options} {p : Provider} (h : create m o = .ok p) :
    p.plans.entries = [] ∧ 0 < p.plans.capacity := by
  have hreports : ∀ (issues : List Issue) (p : Provider),
      (issues.foldl (fun p _ => p.report .modelWarning) p).plans = p.plans := by
    intro issues
    induction issues with
    | nil => exact fun _ => rfl
    | cons _ issues ih => exact fun p => ih (p.report .modelWarning)
  obtain ⟨_, hcheck, h⟩ := Computation.bind_eq_ok.1 h
  obtain ⟨valid, -, h⟩ := Computation.bind_eq_ok.1 h
  have hplans : p.plans = { capacity := o.cacheCapacity } := by
    cases h
    exact hreports valid.warnings _
  have hcapacity : o.cacheCapacity ≠ 0 := by
    have hcheck := Computation.mapError_eq_ok.1 hcheck
    rw [Options.check] at hcheck
    intro hzero
    simp only [hzero, if_true] at hcheck
    split at hcheck
    · cases hcheck
    · split at hcheck <;> cases hcheck
  rw [hplans]
  exact ⟨rfl, Nat.pos_of_ne_zero hcapacity⟩

end Provider

/-- **Transparency of the cache of plans.**  A provider that has just been made answers all
histories of calls as it answers at the beginning if the registered types have different names;
and only then, if some entity can be queried. -/
theorem cache_transparent {m : Model} {o : Options} {p : Provider}
    (hp : Provider.create m o = .ok p) :
    (p.options.registry.NamesTypes → p.Transparent) ∧
      (p.Transparent →
        (∃ entity, (p.model.keyspace? entity).isSome = true ∧ entity.utf8ByteSize < 2 ^ 63) →
        p.options.registry.NamesTypes) := by
  obtain ⟨hfresh, hcapacity⟩ := Provider.create_plans hp
  constructor
  · intro hnames s calls q hs hregistered hfree
    subst hs
    have hkeeps : Provider.Keeps s.provider (calls.map Session.Call.query).reverse
        (s.after calls).provider := by
      have hafter := @Provider.Keeps.after _ _ s calls (Provider.keeps_empty hfresh)
      rwa [List.append_nil] at hafter
    have hsame : ∀ q', q' ∈ q :: (calls.map Session.Call.query).reverse ↔
        q' ∈ q :: calls.map Session.Call.query := by
      intro q'
      rw [List.mem_cons, List.mem_reverse, List.mem_cons]
    refine hkeeps.agrees hfresh hnames (fun q' hq' => hregistered q' ((hsame q').1 hq')) ?_
    exact fun q₁ h₁ q₂ h₂ => hfree q₁ ((hsame q₁).1 h₁) q₂ ((hsame q₂).1 h₂)
  · rintro htransparent ⟨entity, hk, hsize⟩ t u ht hu hname
    by_contra hne
    exact Provider.not_transparent hfresh hcapacity hk hsize ht hu hname hne htransparent

/-- The built-in types have different names. -/
lemma Registry.standard_namesTypes : Registry.standard.NamesTypes := by
  have hpairs : ∀ t ∈ standard.codecs.map Codec.scalarType,
      ∀ u ∈ standard.codecs.map Codec.scalarType, t.name = u.name → t = u := by decide
  intro t u ht hu
  obtain ⟨c, hc, rfl⟩ := contains_iff.1 ht
  obtain ⟨d, hd, rfl⟩ := contains_iff.1 hu
  exact hpairs _ (List.mem_map_of_mem hc) _ (List.mem_map_of_mem hd)

namespace Sample

/-- The built-in codecs, and one for texts of the application, whose type is named as theirs. -/
def sharedName : Registry := Registry.standard.register { Codec.string with
  scalarType := .custom "string" }

/-- A provider for the sample model. -/
def provider (registry : Registry) : Provider where
  model := people
  options := { registry }
  plans := { capacity := defaultCacheCapacity }
  reports := [.modelValidated]

lemma create_provider {registry : Registry}
    (h : people.model.validate registry {} = .ok people) :
    Provider.create people.model { registry } = .ok (provider registry) := by
  have hcheck : Options.check { registry } = .ok () := by
    have hscope : isBlankText defaultScope = false := by decide +kernel
    simp only [Options.check, hscope]
    rfl
  simp only [Provider.create, hcheck, h]
  rfl

end Sample

/-- The cache for the sample model is transparent with the built-in types. -/
theorem cache_transparent_standard :
    ∃ p, Provider.create Sample.people.model {} = .ok p ∧ p.Transparent := by
  have hcreate := @Sample.create_provider .standard rfl
  exact ⟨_, hcreate, (cache_transparent hcreate).1 Registry.standard_namesTypes⟩

/-- It is not if the application registers a type under the name of a built-in one. -/
theorem cache_not_transparent : ∃ p,
    Provider.create Sample.people.model { registry := Sample.sharedName } = .ok p ∧
      ¬ p.Transparent := by
  refine ⟨_, Sample.create_provider rfl, ?_⟩
  exact @Provider.not_transparent _ "Person" .string (.custom "string") rfl (by decide) rfl
    (by decide) rfl rfl rfl (by decide)

end EntityQuery
