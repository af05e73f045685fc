import EntityQuery.Model.Validation
import Mathlib.Data.List.Chain
import Mathlib.Data.List.Nodup
import Mathlib.Data.List.Perm.Subperm
import Mathlib.Logic.Relation

/-!
# Cycles of ownership

Owned entities that embed one another have no finite documents.  The validation of a model searches
a way back to each of its owned entities; a search that comes to a dead end turns back, and leaves
what it has visited to later ways.

* `Model.Owns` is the graph of ownership, and `Model.IsOwnershipCycle` a closed way through it.
* `Model.Searches` is the search without a bound on the length of ways.  `Model.searches_cycle?`: it
  ends on every model, with the answer of the bounded search.
* `Model.Searches.isOwnershipCycle`: what a search finds is a cycle.
* `Model.Route` is a way back that visits nothing twice.  `Model.Searches.not_route`: a search that
  finds nothing leaves no such way.
* `ownershipCycles_exact`: the cycles that are reported.
-/

namespace EntityQuery

/-- What has a name of its own is found under it. -/
lemma find?_of_nodup {α : Type} {name : α → String} {l : List α} (h : (l.map name).Nodup) {a : α}
    (ha : a ∈ l) : (l.find? fun b => name b == name a) = some a := by
  have hsome : (l.find? fun b => name b == name a).isSome = true :=
    List.find?_isSome.2 ⟨a, ha, by simp⟩
  obtain ⟨b, hb⟩ := Option.isSome_iff_exists.1 hsome
  have hname : name b = name a := by simpa using List.find?_some hb
  rw [hb, List.inj_on_of_nodup_map h (List.mem_of_find?_eq_some hb) ha hname]

namespace Model

variable {m : Model}

/-! ## The graph of ownership

An owned entity that embeds another owned entity is an edge of the graph; entities that are not
owned have documents of their own and are no part of it.  Names stand for entities, as long as no
two entities have one name. -/

/-- An owned entity embeds an owned entity. -/
def Owns (m : Model) (owner part : String) : Prop :=
  ∃ e ∈ m.entities, ∃ t ∈ m.entities, e.name = owner ∧ t.name = part ∧ e.owned = true ∧
    t.owned = true ∧ ∃ n ∈ e.navigations, n.isEmbedded = true ∧ n.target = part

/-- A way through the graph of ownership that ends where it begins, and visits nothing else twice.
-/
structure IsOwnershipCycle (m : Model) (cycle : List String) : Prop where
  isChain : cycle.IsChain m.Owns
  closed : cycle.head? = cycle.getLast?
  nodup : cycle.dropLast.Nodup
  two_le : 2 ≤ cycle.length

/-- The names of the entities of a model. -/
def names (m : Model) : List String := m.entities.map Entity.name

lemma mem_of_entity? {name : String} {e : Entity} (h : m.entity? name = some e) :
    e ∈ m.entities ∧ e.name = name :=
  ⟨List.mem_of_find?_eq_some h, by simpa using List.find?_some h⟩

/-- Entities with different names are found under them. -/
lemma entity?_of_mem (h : m.names.Nodup) {e : Entity} (he : e ∈ m.entities) :
    m.entity? e.name = some e :=
  find?_of_nodup h he

lemma mem_ownedBy {e t : Entity} : t ∈ m.ownedBy e ↔
    t.owned = true ∧ ∃ n ∈ e.navigations, n.isEmbedded = true ∧ m.entity? n.target = some t := by
  simp only [ownedBy, List.mem_filterMap, List.mem_filter, Option.filter_eq_some_iff]
  constructor
  · rintro ⟨n, ⟨hn, hembedded⟩, htarget, howned⟩
    exact ⟨howned, n, hn, hembedded, htarget⟩
  · rintro ⟨howned, n, hn, hembedded, htarget⟩
    exact ⟨n, ⟨hn, hembedded⟩, htarget, howned⟩

lemma ownedBy_subset (m : Model) (e : Entity) : m.ownedBy e ⊆ m.entities := by
  intro t ht
  obtain ⟨-, n, -, -, htarget⟩ := mem_ownedBy.1 ht
  exact (mem_of_entity? htarget).1

/-- What an owned entity embeds and what is owned is a part of it. -/
lemma owns_of_mem_ownedBy {e t : Entity} (he : e ∈ m.entities) (howned : e.owned = true)
    (h : t ∈ m.ownedBy e) : m.Owns e.name t.name := by
  obtain ⟨htowned, n, hn, hembedded, htarget⟩ := mem_ownedBy.1 h
  have ht := mem_of_entity? htarget
  exact ⟨e, he, t, ht.1, rfl, rfl, howned, htowned, n, hn, hembedded, ht.2.symm⟩

/-- If names are different, the search comes to every part of an entity. -/
lemma exists_mem_ownedBy (h : m.names.Nodup) {e : Entity} (he : e ∈ m.entities) {part : String}
    (howns : m.Owns e.name part) : ∃ t ∈ m.ownedBy e, t.name = part := by
  obtain ⟨e', he', t, ht, hname, rfl, -, htowned, n, hn, hembedded, htarget⟩ := howns
  obtain rfl := List.inj_on_of_nodup_map h he' he hname
  refine ⟨t, mem_ownedBy.2 ⟨htowned, n, hn, hembedded, ?_⟩, rfl⟩
  rw [htarget, entity?_of_mem h ht]

/-! ## The search without a bound

The program bounds the depth of its search by the number of entities, and is silent about what
happens beyond.  The search is therefore given a second time, as a relation that follows the
recursion and has no bound.  It is a function on all models, and the one that the program computes.
-/

/-- **The search of a way back to `start`.**  `m.Searches start targets path result`: with `targets`
left to try behind the way `path`, the search ends with `result`. -/
inductive Searches (m : Model) (start : String) :
    List Entity → List String → Option (List String) → Prop
  | nothing {path : List String} : Searches m start [] path none
  | closed {path : List String} {t : Entity} {ts : List Entity} (hstart : t.name = start) :
      Searches m start (t :: ts) path (some (path ++ [start]))
  | visited {path : List String} {t : Entity} {ts : List Entity} {result : Option (List String)}
      (hstart : t.name ≠ start) (hvisited : t.name ∈ path) (rest : Searches m start ts path result) :
      Searches m start (t :: ts) path result
  | found {path cycle : List String} {t : Entity} {ts : List Entity} (hstart : t.name ≠ start)
      (hnew : t.name ∉ path)
      (behind : Searches m start (m.ownedBy t) (path ++ [t.name]) (some cycle)) :
      Searches m start (t :: ts) path (some cycle)
  | turnedBack {path : List String} {t : Entity} {ts : List Entity}
      {result : Option (List String)} (hstart : t.name ≠ start) (hnew : t.name ∉ path)
      (behind : Searches m start (m.ownedBy t) (path ++ [t.name]) none)
      (rest : Searches m start ts path result) : Searches m start (t :: ts) path result

/-- A search has one result. -/
theorem Searches.unique {start : String} {targets : List Entity} {path : List String}
    {result result' : Option (List String)} (h : m.Searches start targets path result)
    (h' : m.Searches start targets path result') : result = result' := by
  induction h generalizing result' with
  | nothing =>
      cases h'
      rfl
  | closed hstart =>
      cases h' with
      | closed => rfl
      | visited hne | found hne | turnedBack hne => exact absurd hstart hne
  | visited hne hvisited _ ih =>
      cases h' with
      | closed hstart => exact absurd hstart hne
      | visited _ _ rest => exact ih rest
      | found _ hnew | turnedBack _ hnew => exact absurd hvisited hnew
  | found hne hnew _ ih =>
      cases h' with
      | closed hstart => exact absurd hstart hne
      | visited _ hvisited => exact absurd hvisited hnew
      | found _ _ behind => exact ih behind
      | turnedBack _ _ behind => cases ih behind
  | turnedBack hne hnew _ _ ihbehind ih =>
      cases h' with
      | closed hstart => exact absurd hstart hne
      | visited _ hvisited => exact absurd hvisited hnew
      | found _ _ behind => cases ihbehind behind
      | turnedBack _ _ _ rest => exact ih rest

/-- The search tries targets one by one. -/
lemma searches_findSome? {start : String} {path : List String}
    {search : Entity → Option (List String)} {targets : List Entity}
    (h : ∀ t ∈ targets, t.name ≠ start → t.name ∉ path →
      m.Searches start (m.ownedBy t) (path ++ [t.name]) (search t)) :
    m.Searches start targets path (targets.findSome? fun t =>
      if t.name = start then some (path ++ [start])
      else if path.contains t.name then none else search t) := by
  induction targets with
  | nil => exact .nothing
  | cons t ts ih =>
      have hrest := ih fun t ht => h t (List.mem_cons_of_mem _ ht)
      rw [List.findSome?_cons]
      by_cases hstart : t.name = start
      · simpa [hstart] using Searches.closed hstart
      · by_cases hvisited : t.name ∈ path
        · simpa [hstart, hvisited] using Searches.visited hstart hvisited hrest
        · have hbehind := h t List.mem_cons_self hstart hvisited
          cases hsearch : search t with
          | none =>
              rw [hsearch] at hbehind
              simpa [hstart, hvisited, hsearch] using
                Searches.turnedBack hstart hvisited hbehind hrest
          | some cycle =>
              rw [hsearch] at hbehind
              simpa [hstart, hvisited, hsearch] using Searches.found hstart hvisited hbehind

lemma nodup_concat {path : List String} {name : String} (h : path.Nodup) (hnew : name ∉ path) :
    (path ++ [name]).Nodup :=
  List.concat_eq_append ▸ h.concat hnew

/-- A bounded search ends as the unbounded one does if no way that visits nothing twice is longer
than its bound. -/
lemma searches_cycleFrom? {start : String} {steps : Nat} {e : Entity} {path : List String}
    (hnodup : path.Nodup) (hpath : path ⊆ m.names)
    (hsteps : m.entities.length < steps + path.length) :
    m.Searches start (m.ownedBy e) path (m.cycleFrom? start steps e path) := by
  induction steps generalizing e path with
  | zero =>
      have hle := (List.subperm_of_subset hnodup hpath).length_le
      simp only [names, List.length_map] at hle
      omega
  | succ steps ih =>
      rw [cycleFrom?]
      refine searches_findSome? fun t ht _ hnew => ih (nodup_concat hnodup hnew) ?_ ?_
      · intro name hname
        rcases List.mem_append.1 hname with hname | hname
        · exact hpath hname
        · rw [List.mem_singleton.1 hname]
          exact List.mem_map_of_mem (m.ownedBy_subset e ht)
      · simp only [List.length_append, List.length_singleton]
        omega

/-- **The search ends on every model**, and the bound does not change what it finds. -/
theorem searches_cycle? {e : Entity} (he : e ∈ m.entities) :
    m.Searches e.name (m.ownedBy e) [e.name] (m.cycle? e) := by
  refine searches_cycleFrom? (List.nodup_singleton _) ?_ (by simp)
  intro name hname
  rw [List.mem_singleton.1 hname]
  exact List.mem_map_of_mem he

/-! ## What is found

What the search has visited on its way is a way from its start.  Each step keeps this, and the way
is closed by the step that finds the start again. -/

/-- A way from `start` to an owned entity. -/
structure IsWay (m : Model) (start : String) (path : List String) (e : Entity) : Prop where
  isChain : path.IsChain m.Owns
  head : path.head? = some start
  last : path.getLast? = some e.name
  nodup : path.Nodup
  mem : e ∈ m.entities
  owned : e.owned = true

namespace IsWay

variable {start : String} {path : List String} {e t : Entity}

lemma single (he : e ∈ m.entities) (howned : e.owned = true) : m.IsWay e.name [e.name] e :=
  ⟨List.isChain_singleton _, rfl, rfl, List.nodup_singleton _, he, howned⟩

lemma ne_nil (h : m.IsWay start path e) : path ≠ [] := by
  rintro rfl
  cases h.head

/-- A way goes on to the parts of its last entity. -/
lemma isChain_append (h : m.IsWay start path e) {part : String} (howns : m.Owns e.name part) :
    (path ++ [part]).IsChain m.Owns := by
  refine List.isChain_append.2 ⟨h.isChain, List.isChain_singleton _, ?_⟩
  intro x hx y hy
  rw [h.last, Option.mem_some_iff] at hx
  rw [List.head?_cons, Option.mem_some_iff] at hy
  exact hx ▸ hy ▸ howns

lemma head_append (h : m.IsWay start path e) (part : String) :
    (path ++ [part]).head? = some start := by
  rw [List.head?_append_of_ne_nil _ h.ne_nil, h.head]

lemma append (h : m.IsWay start path e) (ht : t ∈ m.ownedBy e) (hnew : t.name ∉ path) :
    m.IsWay start (path ++ [t.name]) t where
  isChain := h.isChain_append (owns_of_mem_ownedBy h.mem h.owned ht)
  head := h.head_append t.name
  last := List.getLast?_concat
  nodup := nodup_concat h.nodup hnew
  mem := m.ownedBy_subset e ht
  owned := (mem_ownedBy.1 ht).1

/-- A way is closed to a cycle if its first entity is a part of its last one. -/
lemma isOwnershipCycle (h : m.IsWay start path e) (howns : m.Owns e.name start) :
    m.IsOwnershipCycle (path ++ [start]) where
  isChain := h.isChain_append howns
  closed := by rw [h.head_append, List.getLast?_concat]
  nodup := by
    rw [List.dropLast_concat]
    exact h.nodup
  two_le := by
    have hpos := List.length_pos_iff.2 h.ne_nil
    simp only [List.length_append, List.length_singleton]
    omega

end IsWay

/-- **What a search finds is a cycle.** -/
theorem Searches.isOwnershipCycle {start : String} {targets : List Entity} {path cycle : List String}
    (h : m.Searches start targets path (some cycle)) {e : Entity} (hway : m.IsWay start path e)
    (htargets : targets ⊆ m.ownedBy e) :
    m.IsOwnershipCycle cycle ∧ cycle.head? = some start := by
  generalize hresult : some cycle = result at h
  induction h generalizing e with
  | nothing => cases hresult
  | closed hstart =>
      cases hresult
      have howns := owns_of_mem_ownedBy hway.mem hway.owned (htargets List.mem_cons_self)
      exact ⟨hway.isOwnershipCycle (hstart ▸ howns), hway.head_append start⟩
  | visited _ _ _ ih => exact ih hway (List.subset_of_cons_subset htargets) hresult
  | found _ hnew _ ih =>
      exact ih (hway.append (htargets List.mem_cons_self) hnew) (List.Subset.refl _) hresult
  | turnedBack _ _ _ _ _ ih => exact ih hway (List.subset_of_cons_subset htargets) hresult

/-! ## What is not missed

A search that comes back from a dead end leaves what it has visited there to be visited again, since
only the current way is excluded.  It is enough that the shortest way back is not missed: it visits
nothing twice, and nothing that a longer way would have blocked. -/

/-- A way back to `start` that visits none of some entities, and nothing twice. -/
inductive Route (m : Model) (start : String) : List String → String → Prop
  | here {avoided : List String} : Route m start avoided start
  | step {avoided : List String} {name next : String} (hname : name ≠ start)
      (hnew : name ∉ avoided) (howns : m.Owns name next)
      (rest : Route m start (avoided ++ [name]) next) : Route m start avoided name

/-- **A search that finds nothing leaves no way back.** -/
theorem Searches.not_route {start : String} {targets : List Entity} {path : List String}
    (h : m.Searches start targets path none) (hnames : m.names.Nodup)
    (htargets : targets ⊆ m.entities) : ∀ t ∈ targets, ¬ m.Route start path t.name := by
  generalize hresult : (none : Option (List String)) = result at h
  induction h with
  | nothing =>
      intro t ht
      cases ht
  | closed => cases hresult
  | visited hstart hvisited _ ih =>
      refine List.forall_mem_cons.2 ⟨fun hroute => ?_, ?_⟩
      · cases hroute with
        | here => exact hstart rfl
        | step _ hnew => exact hnew hvisited
      · exact ih (List.subset_of_cons_subset htargets) hresult
  | found => cases hresult
  | turnedBack hstart hnew _ _ ihbehind ih =>
      refine List.forall_mem_cons.2 ⟨fun hroute => ?_, ?_⟩
      · cases hroute with
        | here => exact hstart rfl
        | step _ _ howns rest =>
            obtain ⟨t', ht', rfl⟩ :=
              exists_mem_ownedBy hnames (htargets List.mem_cons_self) howns
            exact ihbehind (m.ownedBy_subset _) rfl t' ht' rest
      · exact ih (List.subset_of_cons_subset htargets) hresult

/-- `start` is reached from an entity in a number of steps. -/
inductive Reaches (m : Model) (start : String) : Nat → String → Prop
  | here : Reaches m start 0 start
  | step {n : Nat} {name next : String} (howns : m.Owns name next)
      (rest : Reaches m start n next) : Reaches m start (n + 1) name

lemma exists_reaches {start name : String} (h : Relation.ReflTransGen m.Owns name start) :
    ∃ n, m.Reaches start n name := by
  induction h using Relation.ReflTransGen.head_induction_on with
  | refl => exact ⟨0, .here⟩
  | head howns _ ih =>
      obtain ⟨n, hn⟩ := ih
      exact ⟨n + 1, .step howns hn⟩

/-- A shortest way visits nothing twice, and nothing that is as far from `start` as its beginning.
-/
lemma Reaches.route {start name : String} {n : Nat} (h : m.Reaches start n name)
    {avoided : List String}
    (havoided : ∀ other ∈ avoided, other ≠ start → ∀ k ≤ n, ¬ m.Reaches start k other) :
    m.Route start avoided name := by
  induction n using Nat.strong_induction_on generalizing name avoided with
  | _ n ih =>
      by_cases hshort : ∃ k < n, m.Reaches start k name
      · obtain ⟨k, hk, hreaches⟩ := hshort
        refine ih k hk hreaches fun other hother hne k' hk' => ?_
        exact havoided other hother hne k' (by omega)
      · cases h with
        | here => exact .here
        | @step n _ next howns rest =>
            have hname : name ≠ start := by
              rintro rfl
              exact hshort ⟨0, Nat.succ_pos n, .here⟩
            refine .step hname (fun hmem => ?_) howns (ih n (Nat.lt_succ_self n) rest ?_)
            · exact havoided name hmem hname (n + 1) (Nat.le_refl _) (.step howns rest)
            · intro other hother hne k hk hreaches
              rcases List.mem_append.1 hother with hother | hother
              · exact havoided other hother hne k (by omega) hreaches
              · rw [List.mem_singleton.1 hother] at hreaches
                exact hshort ⟨k, by omega, hreaches⟩

/-- **A cycle through an owned entity is found from there**, though it may be another one. -/
theorem exists_cycle? (hnames : m.names.Nodup) {e : Entity} (he : e ∈ m.entities)
    (h : Relation.TransGen m.Owns e.name e.name) : ∃ cycle, m.cycle? e = some cycle := by
  by_contra hnone
  have hsearch := searches_cycle? he
  rw [Option.eq_none_iff_forall_ne_some.2 (not_exists.1 hnone)] at hsearch
  obtain ⟨part, howns, hback⟩ := Relation.TransGen.head'_iff.1 h
  obtain ⟨t, ht, rfl⟩ := exists_mem_ownedBy hnames he howns
  obtain ⟨n, hn⟩ := exists_reaches hback
  refine hsearch.not_route hnames (m.ownedBy_subset e) t ht (hn.route ?_)
  intro other hother hne
  exact absurd (List.mem_singleton.1 hother) hne

/-! ## Reports

Each entity starts a search of its own, and a cycle with the members of an earlier one is not
reported again.  So what is found at an entity has been reported there or before. -/

lemma exists_of_mem_cycleIssues {reported : List (List String)} {es : List Entity} {i : Issue}
    (h : i ∈ m.cycleIssues reported es) :
    ∃ e ∈ es, ∃ cycle, m.cycle? e = some cycle ∧ i = ⟨e.name, none, .ownershipCycle cycle⟩ := by
  induction es generalizing reported with
  | nil => cases h
  | cons e es ih =>
      have hlater : ∀ {reported}, i ∈ m.cycleIssues reported es →
          ∃ e' ∈ e :: es, ∃ cycle, m.cycle? e' = some cycle ∧
            i = ⟨e'.name, none, .ownershipCycle cycle⟩ := by
        intro reported h
        obtain ⟨e', he', hcycle⟩ := ih h
        exact ⟨e', List.mem_cons_of_mem _ he', hcycle⟩
      rw [cycleIssues] at h
      split at h
      · exact hlater h
      · rename_i cycle hcycle
        simp only at h
        split at h
        · exact hlater h
        · rcases List.mem_cons.1 h with rfl | h
          · exact ⟨e, List.mem_cons_self, cycle, hcycle, rfl⟩
          · exact hlater h

/-- A cycle that is found is reported, or one with the same members is, or has been. -/
lemma reported_of_cycle? {reported : List (List String)} {es : List Entity} {e : Entity}
    (he : e ∈ es) {cycle : List String} (hcycle : m.cycle? e = some cycle) :
    cycleMembers cycle ∈ reported ∨ ∃ i ∈ m.cycleIssues reported es, ∃ cycle',
      i.defect = .ownershipCycle cycle' ∧ cycleMembers cycle' = cycleMembers cycle := by
  induction es generalizing reported with
  | nil => cases he
  | cons e' es ih =>
      rw [cycleIssues]
      rcases List.mem_cons.1 he with rfl | he
      · simp only [hcycle]
        split
        · rename_i hreported
          exact .inl (by simpa using hreported)
        · exact .inr ⟨_, List.mem_cons_self, cycle, rfl, rfl⟩
      · split
        · exact ih he
        · rename_i cycle' _
          simp only
          split
          · exact ih he
          · rcases @ih (cycleMembers cycle' :: reported) he with hreported | hissue
            · rcases List.mem_cons.1 hreported with hmembers | hreported
              · exact .inr ⟨_, List.mem_cons_self, cycle', rfl, hmembers.symm⟩
              · exact .inl hreported
            · obtain ⟨i, hi, hmembers⟩ := hissue
              exact .inr ⟨i, List.mem_cons_of_mem _ hi, hmembers⟩

end Model

lemma mem_cycleMembers {cycle : List String} {name : String} :
    name ∈ cycleMembers cycle ↔ name ∈ cycle.dropLast := by
  rw [cycleMembers, List.mem_mergeSort]

/-- An entity at which a cycle begins leads back to itself. -/
lemma Model.IsOwnershipCycle.transGen {m : Model} {cycle : List String}
    (h : m.IsOwnershipCycle cycle) : ∃ name, Relation.TransGen m.Owns name name := by
  obtain ⟨hchain, hclosed, -, htwo⟩ := h
  match cycle, hchain, hclosed, htwo with
  | first :: second :: rest, hchain, hclosed, _ =>
      obtain ⟨howns, hrest⟩ := List.isChain_cons_cons.1 hchain
      rw [List.head?_cons, List.getLast?_cons_cons, List.getLast?_eq_some_getLast (by simp),
        Option.some_inj] at hclosed
      have hback := List.relationReflTransGen_of_exists_isChain_cons rest hrest hclosed.symm
      exact ⟨first, .head' howns hback⟩

lemma Model.IsOwnershipCycle.mem_dropLast {m : Model} {cycle : List String} {name : String}
    (h : m.IsOwnershipCycle cycle) (hhead : cycle.head? = some name) : name ∈ cycle.dropLast := by
  obtain ⟨-, -, -, htwo⟩ := h
  match cycle, hhead with
  | [_], _ => simp at htwo
  | _ :: _ :: _, hhead =>
      cases hhead
      exact List.mem_cons_self

/-! ## Other issues

All other checks concern one entity or one of its members.  That none of them speaks of a cycle is
seen from the kinds of issues that they can report. -/

/-- The issue does not report a cycle. -/
def Issue.IsLocal (i : Issue) : Prop := ∀ cycle, i.defect ≠ .ownershipCycle cycle

section

variable {registry : Registry} {defaults : DefaultKeyspace}

lemma Entity.isLocal_placeIssues (e : Entity) : ∀ i ∈ e.placeIssues defaults, i.IsLocal := by
  intro i hi cycle
  rw [placeIssues] at hi
  grind

lemma Members.isLocal_nameIssues (ms : Members) (entity name : String) :
    ∀ i ∈ ms.nameIssues entity name, i.IsLocal := by
  intro i hi cycle
  rw [nameIssues] at hi
  grind

lemma Members.isLocal_fieldIssues (ms : Members) (entity name field : String) :
    ∀ i ∈ ms.fieldIssues entity name field, i.IsLocal := by
  intro i hi cycle
  rw [fieldIssues] at hi
  grind

lemma isLocal_propertyIssues (entity : String) (ps : List Property) (ms : Members) :
    ∀ i ∈ (propertyIssues registry entity ps ms).1, i.IsLocal := by
  induction ps generalizing ms with
  | nil =>
      intro i hi
      cases hi
  | cons p ps ih =>
      intro i hi
      rw [propertyIssues] at hi
      rcases List.mem_append.1 hi with hi | hi
      · rcases List.mem_append.1 hi with hi | hi
        · rcases List.mem_append.1 hi with hi | hi
          · exact ms.isLocal_nameIssues _ _ i hi
          · exact ms.isLocal_fieldIssues _ _ _ i hi
        · intro cycle
          grind
      · exact ih _ i hi

lemma isLocal_navigationNameIssues (entity : String) (ns : List Navigation) (ms : Members) :
    ∀ i ∈ navigationNameIssues entity ns ms, i.IsLocal := by
  induction ns generalizing ms with
  | nil =>
      intro i hi
      cases hi
  | cons n ns ih =>
      intro i hi
      rw [navigationNameIssues] at hi
      rcases List.mem_append.1 hi with hi | hi
      · rcases List.mem_append.1 hi with hi | hi
        · exact ms.isLocal_nameIssues _ _ i hi
        · split at hi
          · exact ms.isLocal_fieldIssues _ _ _ i hi
          · cases hi
      · exact ih _ i hi

lemma lookupDefects_ne {target owner keyOwner : Entity} {foreignKey : String} {cycle : List String} :
    .ownershipCycle cycle ∉ lookupDefects target owner foreignKey keyOwner := by
  rw [lookupDefects]
  grind

lemma Model.isLocal_navigationIssues (m : Model) (e : Entity) :
    ∀ i ∈ m.navigationIssues e, i.IsLocal := by
  intro i hi cycle hdefect
  obtain ⟨n, -, hi⟩ := List.mem_flatMap.1 hi
  obtain ⟨defect, hmem, rfl⟩ := List.mem_map.1 hi
  cases hdefect
  rw [navigationDefects] at hmem
  split at hmem
  · simp at hmem
  · split at hmem
    · grind
    · exact lookupDefects_ne hmem
    · exact lookupDefects_ne hmem
    · simp at hmem

/-- The issues of entities do not report cycles. -/
lemma Model.isLocal_issuesOf (m : Model) (es : List Entity) (seen : List String) :
    ∀ i ∈ m.issuesOf registry defaults seen es, i.IsLocal := by
  induction es generalizing seen with
  | nil =>
      intro i hi
      cases hi
  | cons e es ih =>
      intro i hi
      rw [issuesOf] at hi
      split at hi
      · rcases List.mem_cons.1 hi with rfl | hi
        · exact nofun
        · exact ih _ i hi
      · rcases List.mem_append.1 hi with hi | hi
        · rw [entityIssues, Entity.memberIssues] at hi
          rcases List.mem_append.1 hi with hi | hi
          · rcases List.mem_append.1 hi with hi | hi
            · exact e.isLocal_placeIssues i hi
            · rcases List.mem_append.1 hi with hi | hi
              · exact isLocal_propertyIssues _ _ _ i hi
              · exact isLocal_navigationNameIssues _ _ _ i hi
          · exact m.isLocal_navigationIssues e i hi
        · exact ih _ i hi

/-- A cycle that is reported has been found. -/
lemma Model.exists_of_reported {m : Model} {i : Issue} (hi : i ∈ m.issues registry defaults)
    {cycle : List String} (hdefect : i.defect = .ownershipCycle cycle) :
    ∃ e ∈ m.entities, e.owned = true ∧ m.cycle? e = some cycle ∧ i.entity = e.name := by
  rw [issues] at hi
  rcases List.mem_append.1 hi with hi | hi
  · exact absurd hdefect (m.isLocal_issuesOf _ _ i hi cycle)
  · obtain ⟨e, he, cycle', hcycle, rfl⟩ := exists_of_mem_cycleIssues hi
    cases hdefect
    obtain ⟨hmem, howned⟩ := List.mem_filter.1 he
    exact ⟨e, hmem, howned, hcycle, rfl⟩

/-- **A cycle that is reported is one**, and begins at the entity of the issue. -/
theorem Model.isOwnershipCycle_of_reported {m : Model} {i : Issue}
    (hi : i ∈ m.issues registry defaults) {cycle : List String}
    (hdefect : i.defect = .ownershipCycle cycle) :
    m.IsOwnershipCycle cycle ∧ cycle.head? = some i.entity := by
  obtain ⟨e, he, howned, hcycle, hentity⟩ := exists_of_reported hi hdefect
  have hsearch := searches_cycle? he
  rw [hcycle] at hsearch
  rw [hentity]
  exact hsearch.isOwnershipCycle (.single he howned) (List.Subset.refl _)

/-- **An owned entity that is on a cycle is on one that is reported.** -/
theorem Model.exists_reported {m : Model} (hnames : m.names.Nodup) {name : String}
    (h : Relation.TransGen m.Owns name name) :
    ∃ i ∈ m.issues registry defaults, ∃ cycle, i.defect = .ownershipCycle cycle ∧
      name ∈ cycle := by
  obtain ⟨_, ⟨e, he, -, -, rfl, -, howned, -⟩, -⟩ := Relation.TransGen.head'_iff.1 h
  obtain ⟨cycle, hcycle⟩ := exists_cycle? hnames he h
  have hsearch := searches_cycle? he
  rw [hcycle] at hsearch
  obtain ⟨hreal, hhead⟩ := hsearch.isOwnershipCycle (.single he howned) (List.Subset.refl _)
  have hreport := @reported_of_cycle? m [] _ e (List.mem_filter.2 ⟨he, howned⟩) cycle hcycle
  rcases hreport with hreported | ⟨i, hi, cycle', hdefect, hmembers⟩
  · cases hreported
  · refine ⟨i, List.mem_append_right _ hi, cycle', hdefect, ?_⟩
    have hmem := mem_cycleMembers.2 (hreal.mem_dropLast hhead)
    rw [← hmembers, mem_cycleMembers] at hmem
    exact List.dropLast_subset _ hmem

end

/-- **Cycles of ownership are found exactly.**  If the entities of a model have different names, a
cycle is reported if and only if the graph of ownership has one, each cycle that is reported is one
and makes the model unusable, and each entity on a cycle is on one that is reported.  On every model
the search ends, without a bound, with what the bounded search finds. -/
theorem ownershipCycles_exact (m : Model) (registry : Registry) (defaults : DefaultKeyspace) :
    (m.names.Nodup →
      ((∃ i ∈ m.issues registry defaults, ∃ cycle, i.defect = .ownershipCycle cycle) ↔
        ∃ name, Relation.TransGen m.Owns name name) ∧
      (∀ i ∈ m.issues registry defaults, ∀ cycle, i.defect = .ownershipCycle cycle →
        i.isError = true ∧ m.IsOwnershipCycle cycle ∧ cycle.head? = some i.entity) ∧
      ∀ name, Relation.TransGen m.Owns name name →
        ∃ i ∈ m.issues registry defaults, ∃ cycle,
          i.defect = .ownershipCycle cycle ∧ name ∈ cycle) ∧
    ∀ e ∈ m.entities, ∀ result,
      m.Searches e.name (m.ownedBy e) [e.name] result ↔ result = m.cycle? e := by
  refine ⟨fun hnames => ⟨⟨?_, ?_⟩, ?_, ?_⟩, ?_⟩
  · rintro ⟨i, hi, cycle, hdefect⟩
    exact (Model.isOwnershipCycle_of_reported hi hdefect).1.transGen
  · rintro ⟨name, hcycle⟩
    obtain ⟨i, hi, cycle, hdefect, -⟩ := Model.exists_reported hnames hcycle
    exact ⟨i, hi, cycle, hdefect⟩
  · intro i hi cycle hdefect
    refine ⟨?_, Model.isOwnershipCycle_of_reported hi hdefect⟩
    rw [Issue.isError, hdefect]
    rfl
  · intro name hcycle
    exact Model.exists_reported hnames hcycle
  · intro e he result
    have hsearch := Model.searches_cycle? he
    constructor
    · intro h
      exact h.unique hsearch
    · rintro rfl
      exact hsearch

namespace Sample

/-- Two owned entities that embed each other, of which a root embeds one and the other embeds a
third, which embeds itself. -/
def rings : Model where
  entities :=
    [{ name := "Person", properties := [{ name := "id", scalarType := .string, isKey := true }],
       navigations := [{ name := "a", target := "A", kind := .embedded false }] },
     { name := "A", owned := true,
       navigations := [{ name := "b", target := "B", kind := .embedded false }] },
     { name := "B", owned := true,
       navigations := [{ name := "c", target := "C", kind := .embedded true },
         { name := "a", target := "A", kind := .embedded true }] },
     { name := "C", owned := true,
       navigations := [{ name := "c", target := "C", kind := .embedded false }] }]

end Sample

/-- The search from A turns back from C and goes on to A, and the cycle that it finds has B on it.
-/
theorem ownershipCycles_exact_rings :
    Sample.rings.names.Nodup ∧
      ∃ i ∈ Sample.rings.issues .standard {}, ∃ cycle, i.defect = .ownershipCycle cycle ∧
        "B" ∈ cycle ∧ Sample.rings.IsOwnershipCycle cycle := by
  have hnames : Sample.rings.names.Nodup := by decide
  obtain ⟨-, hreal, hreported⟩ := (ownershipCycles_exact Sample.rings .standard {}).1 hnames
  have howns : Sample.rings.Owns "B" "A" ∧ Sample.rings.Owns "A" "B" := by
    simp [Model.Owns, Sample.rings, Navigation.isEmbedded]
  obtain ⟨i, hi, cycle, hdefect, hmem⟩ := hreported "B" (.tail (.single howns.1) howns.2)
  exact ⟨hnames, i, hi, cycle, hdefect, hmem, (hreal i hi cycle hdefect).2.1⟩

end EntityQuery
