import EntityQuery.Proofs.Provider.Transparency
import Mathlib.Data.List.Nodup

/-!
# Concurrent planners

Many callers want plans of one cache.  Each looks its plan up, compiles it if there is none, and
inserts what it has compiled; other callers may look up and insert in between, so that several of
them compile plans of one key.  The first plan that is inserted is the one that all of them get.

* `Planners.Step` is one act of one caller, and `Planners.Run` are acts of callers in any order.
* `Planners.Sound`: the cache is no larger than its capacity and holds one plan of a key, and all
  that has been looked up is counted; `Planners.Sound.run`.
* `Planners.Run.kept` and `Planners.Run.answered`: a cached plan and an answer stay.
* `Planners.Settled`: what an act settles for good.
* `Provider.exists_planners`: a provider plans as a caller that is not interrupted.
* `planners_agree`: what callers get, whatever the order of their acts.
-/

namespace EntityQuery

/-! ## Caches

A cache is looked up and inserted into, and each of these does one of a few things.  What they do is
said once here, and all steps of callers refer to it. -/

namespace PlanCache

variable {α : Type} {c : PlanCache α} {key : PlanKey}

lemma find?_eq_none : c.find? key = none ↔ key ∉ c.entries.map Prod.fst := by
  simp only [find?, Option.map_eq_none_iff, List.find?_eq_none, List.mem_map, beq_iff_eq]
  constructor
  · rintro h ⟨e, he, hkey⟩
    exact h e he hkey
  · intro h e he hkey
    exact h ⟨e, he, hkey⟩

/-- Looking a plan up changes no entry, and is counted. -/
lemma get_spec (c : PlanCache α) (key : PlanKey) : (c.get key).1.entries = c.entries ∧
    (c.get key).1.capacity = c.capacity ∧
    (c.get key).1.hits + (c.get key).1.misses = c.hits + c.misses + 1 := by
  rw [get]
  split
  · exact ⟨rfl, rfl, Nat.add_right_comm _ _ _⟩
  · exact ⟨rfl, rfl, rfl⟩

/-- **What inserting a plan can do**: one of its key is cached, or there is room, or the cache is
full. -/
lemma insert_cases (c : PlanCache α) (key : PlanKey) (plan : α) :
    (∃ kept, c.find? key = some kept ∧ c.insert key plan = (c, kept)) ∨
    (c.find? key = none ∧ c.size < c.capacity ∧
      c.insert key plan = ({ c with entries := c.entries ++ [(key, plan)] }, plan)) ∨
    (c.find? key = none ∧ c.capacity ≤ c.size ∧ c.insert key plan = (c, plan)) := by
  rw [insert]
  cases hfind : c.find? key with
  | some kept => exact .inl ⟨kept, rfl, rfl⟩
  | none =>
      by_cases hroom : c.entries.length < c.capacity
      · exact .inr (.inl ⟨rfl, hroom, by simp only [if_pos hroom]⟩)
      · exact .inr (.inr ⟨rfl, Nat.le_of_not_lt hroom, by simp only [if_neg hroom]⟩)

/-- **The plan that is given back is cached**, unless the cache is full. -/
lemma cached_insert (key : PlanKey) (plan : α) (hsize : c.size ≤ c.capacity) :
    (c.insert key plan).1.find? key = some (c.insert key plan).2 ∨
      (c.insert key plan).1.find? key = none ∧
        (c.insert key plan).1.size = (c.insert key plan).1.capacity := by
  rcases c.insert_cases key plan with
    ⟨kept, hfind, hinsert⟩ | ⟨hfind, hroom, hinsert⟩ | ⟨hfind, hfull, hinsert⟩
  · rw [hinsert]
    exact .inl hfind
  · have hfound := @Provider.find?_insert_self α c key plan hfind hroom
    rw [hinsert] at hfound ⊢
    exact .inl hfound
  · rw [hinsert]
    exact .inr ⟨hfind, Nat.le_antisymm hsize hfull⟩

/-- The plan that is given back is the one that is inserted, or has been cached before. -/
lemma snd_insert (key : PlanKey) (plan : α) :
    (c.insert key plan).2 = plan ∨ c.find? key = some (c.insert key plan).2 := by
  rcases c.insert_cases key plan with ⟨kept, hfind, hinsert⟩ | ⟨-, -, hinsert⟩ | ⟨-, -, hinsert⟩ <;>
    rw [hinsert]
  · exact .inr hfind
  · exact .inl rfl
  · exact .inl rfl

end PlanCache

/-! ## Callers

A caller asks for a plan, compiles one if there is none, inserts it and is answered.  A step moves
one caller on while all others stay where they are, so that a run is any interleaving, and callers
may compile at the same time. -/

/-- How far a caller has come who wants the plan of a key. -/
inductive Caller (α ε : Type) where
  /-- It is to look the plan up. -/
  | asking (key : PlanKey)
  /-- There was none, and it is to compile one. -/
  | compiling (key : PlanKey)
  /-- It is to insert the plan that it has compiled. -/
  | inserting (key : PlanKey) (plan : α)
  /-- It has a plan, and knows whether that was found at once, or none has been compiled. -/
  | answered (key : PlanKey) (answer : Except ε (α × Bool))

namespace Caller

variable {α ε : Type}

/-- The caller after it has looked a plan up. -/
def looked (key : PlanKey) : Option α → Caller α ε
  | some plan => .answered key (.ok (plan, true))
  | none => .compiling key

/-- The caller after it has compiled a plan, or failed to. -/
def compiled (key : PlanKey) : Except ε α → Caller α ε
  | .ok plan => .inserting key plan
  | .error e => .answered key (.error e)

end Caller

/-- What happens among callers, who have numbers. -/
inductive PlannerAct (α ε : Type) where
  /-- A further caller comes. -/
  | call (key : PlanKey)
  | lookUp (number : Nat)
  | compile (number : Nat) (outcome : Except ε α)
  | insert (number : Nat)

/-- A plan is looked up. -/
def PlannerAct.isLookUp {α ε : Type} : PlannerAct α ε → Bool
  | .lookUp _ => true
  | _ => false

/-- Callers who share a cache. -/
structure Planners (α ε : Type) where
  cache : PlanCache α
  callers : List (Caller α ε) := []

namespace Planners

variable {α ε : Type}

/-- A cache that nobody has called yet. -/
def start (capacity : Nat) : Planners α ε where cache := { capacity }

/-- **One act.**  A caller looks up and inserts while nobody else does, but compiles without keeping
others from the cache. -/
inductive Step : Planners α ε → PlannerAct α ε → Planners α ε → Prop
  | call {s : Planners α ε} (key : PlanKey) :
      Step s (.call key) { s with callers := s.callers ++ [.asking key] }
  | lookUp {s : Planners α ε} {number : Nat} {key : PlanKey}
      (hcaller : s.callers[number]? = some (.asking key)) :
      Step s (.lookUp number)
        ⟨(s.cache.get key).1, s.callers.set number (.looked key (s.cache.get key).2)⟩
  | compile {s : Planners α ε} {number : Nat} {key : PlanKey}
      (hcaller : s.callers[number]? = some (.compiling key)) (outcome : Except ε α) :
      Step s (.compile number outcome)
        { s with callers := s.callers.set number (.compiled key outcome) }
  | insert {s : Planners α ε} {number : Nat} {key : PlanKey} {plan : α}
      (hcaller : s.callers[number]? = some (.inserting key plan)) :
      Step s (.insert number)
        ⟨(s.cache.insert key plan).1,
          s.callers.set number (.answered key (.ok ((s.cache.insert key plan).2, false)))⟩

/-- Several acts, one after the other. -/
inductive Run : Planners α ε → List (PlannerAct α ε) → Planners α ε → Prop
  | nil {s : Planners α ε} : Run s [] s
  | cons {s s' s'' : Planners α ε} {act : PlannerAct α ε} {acts : List (PlannerAct α ε)}
      (hstep : Step s act s') (hrun : Run s' acts s'') : Run s (act :: acts) s''

variable {s s' s'' : Planners α ε} {act : PlannerAct α ε} {acts : List (PlannerAct α ε)}
  {key : PlanKey} {number : Nat}

/-! ## The cache

What all steps keep is that no key is cached twice, that there are not more entries than fit, and
that look-ups are counted.  It is shown for one step, and then along runs. -/

/-- The cache after some plans have been looked up. -/
structure Sound (capacity lookUps : Nat) (s : Planners α ε) : Prop where
  capacity_eq : s.cache.capacity = capacity
  size_le : s.cache.size ≤ capacity
  nodup : (s.cache.entries.map Prod.fst).Nodup
  counted : s.cache.hits + s.cache.misses = lookUps

lemma sound_start (capacity : Nat) : Sound capacity 0 (start capacity : Planners α ε) :=
  ⟨rfl, Nat.zero_le _, List.nodup_nil, rfl⟩

/-- An act keeps the cache sound. -/
lemma Sound.step {capacity lookUps : Nat} (h : Sound capacity lookUps s) (hstep : Step s act s') :
    Sound capacity (lookUps + if act.isLookUp then 1 else 0) s' := by
  obtain ⟨hcapacity, hsize, hnodup, hcounted⟩ := h
  cases hstep with
  | call | compile => exact ⟨hcapacity, hsize, hnodup, hcounted⟩
  | @lookUp number key hcaller =>
      obtain ⟨hentries, hsame, hcount⟩ := s.cache.get_spec key
      refine ⟨hsame.trans hcapacity, ?_, hentries ▸ hnodup, hcount.trans (by rw [hcounted]; rfl)⟩
      rw [PlanCache.size, hentries]
      exact hsize
  | @insert number key plan hcaller =>
      rcases s.cache.insert_cases key plan with
        ⟨kept, -, hinsert⟩ | ⟨hfind, hroom, hinsert⟩ | ⟨-, -, hinsert⟩ <;> rw [hinsert]
      · exact ⟨hcapacity, hsize, hnodup, hcounted⟩
      · refine ⟨hcapacity, ?_, ?_, hcounted⟩
        · rw [PlanCache.size, List.length_append, List.length_singleton]
          exact hcapacity ▸ hroom
        · rw [List.map_append]
          exact List.concat_eq_append ▸ hnodup.concat (PlanCache.find?_eq_none.1 hfind)
      · exact ⟨hcapacity, hsize, hnodup, hcounted⟩

/-- **The cache stays sound**, whatever the order of the acts. -/
theorem Sound.run {capacity lookUps : Nat} (h : Sound capacity lookUps s) (hrun : Run s acts s') :
    Sound capacity (lookUps + acts.countP PlannerAct.isLookUp) s' := by
  induction hrun generalizing lookUps with
  | nil => exact h
  | @cons _ _ _ act acts hstep _ ih =>
      rw [List.countP_cons, Nat.add_comm (acts.countP _), ← Nat.add_assoc]
      exact ih (h.step hstep)

/-! ## What stays

Entries are never removed and answers never withdrawn.  So what a step has brought about can be said
of any later time. -/

/-- A cached plan stays. -/
lemma Step.kept (h : Step s act s') {plan : α} (hfind : s.cache.find? key = some plan) :
    s'.cache.find? key = some plan := by
  cases h with
  | call | compile => exact hfind
  | lookUp => exact (PlanCache.find?_get _ _ _).trans hfind
  | insert => exact PlanCache.find?_insert_of_find? hfind

lemma Run.kept (h : Run s acts s') {plan : α} (hfind : s.cache.find? key = some plan) :
    s'.cache.find? key = some plan := by
  induction h with
  | nil => exact hfind
  | cons hstep _ ih => exact ih (hstep.kept hfind)

/-- A caller that acts has not been answered. -/
lemma getElem?_set_of_answered {callers : List (Caller α ε)} {other : Nat} {c c' : Caller α ε}
    {answer : Except ε (α × Bool)} (h : callers[number]? = some (.answered key answer))
    (hother : callers[other]? = some c) (hc : ∀ key answer, c ≠ .answered key answer) :
    (callers.set other c')[number]? = some (.answered key answer) := by
  have hne : other ≠ number := by
    rintro rfl
    rw [h, Option.some_inj] at hother
    exact hc _ _ hother.symm
  rw [List.getElem?_set_ne hne, h]

/-- An answer stays. -/
lemma Step.answered (h : Step s act s') {answer : Except ε (α × Bool)}
    (hanswer : s.callers[number]? = some (.answered key answer)) :
    s'.callers[number]? = some (.answered key answer) := by
  cases h with
  | call =>
      have hlt : number < s.callers.length := (List.getElem?_eq_some_iff.1 hanswer).1
      exact (List.getElem?_append_left hlt).trans hanswer
  | lookUp hcaller => exact getElem?_set_of_answered hanswer hcaller nofun
  | compile hcaller => exact getElem?_set_of_answered hanswer hcaller nofun
  | insert hcaller => exact getElem?_set_of_answered hanswer hcaller nofun

lemma Run.answered (h : Run s acts s') {answer : Except ε (α × Bool)}
    (hanswer : s.callers[number]? = some (.answered key answer)) :
    s'.callers[number]? = some (.answered key answer) := by
  induction h with
  | nil => exact hanswer
  | cons hstep _ ih => exact ih (hstep.answered hanswer)

/-! ## What an act settles

The result joins both: what a step does at once, and that it stays.  A plan that is given out
without having been cached is possible only when the cache is full. -/

/-- **What one act settles for good**, from `s` before it and `s'` after it to any later time. -/
structure Settled (act : PlannerAct α ε) (s s' later : Planners α ε) : Prop where
  /-- A cached plan stays. -/
  kept : ∀ key plan, s.cache.find? key = some plan → later.cache.find? key = some plan
  /-- Who looks up a cached plan gets it. -/
  found : ∀ number key plan, act = .lookUp number →
    s.callers[number]? = some (.asking key) → s.cache.find? key = some plan →
      later.callers[number]? = some (.answered key (.ok (plan, true)))
  /-- Who inserts a plan gets it or the one of an earlier caller, and the cached one if there is one
  before or afterwards. -/
  inserted : ∀ number key own, act = .insert number →
    s.callers[number]? = some (.inserting key own) →
      ∃ plan, later.callers[number]? = some (.answered key (.ok (plan, false))) ∧
        (plan = own ∨ s.cache.find? key = some plan) ∧
        ∀ cached, s'.cache.find? key = some cached → plan = cached
  /-- Who gets a plan that is not cached does so while the cache is full. -/
  uncached : ∀ (number : Nat) (key : PlanKey) (plan : α) (hit : Bool),
    s'.callers[number]? = some (.answered key (.ok (plan, hit))) →
    s.callers[number]? ≠ some (.answered key (.ok (plan, hit))) →
      s'.cache.find? key = some plan ∨
        s'.cache.find? key = none ∧ s'.cache.size = s'.cache.capacity
  /-- Who fails to compile a plan leaves the cache alone. -/
  failed : ∀ number e, act = .compile number (.error e) → s'.cache = s.cache ∧
    ∃ key, later.callers[number]? = some (.answered key (.error e))

/-- A caller that acts is another one afterwards. -/
lemma getElem?_set_caller {callers : List (Caller α ε)} {c c' : Caller α ε}
    (h : callers[number]? = some c) : (callers.set number c')[number]? = some c' :=
  List.getElem?_set_self (List.getElem?_eq_some_iff.1 h).1

/-- Only the caller that acts is another one afterwards. -/
lemma eq_of_getElem?_set {callers : List (Caller α ε)} {other : Nat} {c c' c'' : Caller α ε}
    (h : callers[other]? = some c) (hset : (callers.set other c')[number]? = some c'')
    (hnew : callers[number]? ≠ some c'') : number = other ∧ c' = c'' := by
  by_cases heq : other = number
  · subst heq
    rw [getElem?_set_caller h, Option.some_inj] at hset
    exact ⟨rfl, hset⟩
  · rw [List.getElem?_set_ne heq] at hset
    exact absurd hset hnew

/-- **Plans that are given out are cached**, unless the cache is full. -/
lemma Step.uncached (h : Step s act s') (hsize : s.cache.size ≤ s.cache.capacity) {plan : α}
    {hit : Bool} (hanswer : s'.callers[number]? = some (.answered key (.ok (plan, hit))))
    (hnew : s.callers[number]? ≠ some (.answered key (.ok (plan, hit)))) :
    s'.cache.find? key = some plan ∨
      s'.cache.find? key = none ∧ s'.cache.size = s'.cache.capacity := by
  cases h with
  | call =>
      rcases Nat.lt_or_ge number s.callers.length with hlt | hle
      · exact absurd ((List.getElem?_append_left hlt).symm.trans hanswer) hnew
      · have hmem := List.mem_of_getElem? ((List.getElem?_append_right hle).symm.trans hanswer)
        cases List.mem_singleton.1 hmem
  | @lookUp _ key' hcaller =>
      obtain ⟨-, hlooked⟩ := eq_of_getElem?_set hcaller hanswer hnew
      rw [PlanCache.snd_get] at hlooked
      cases hfind : s.cache.find? key' with
      | none =>
          rw [hfind] at hlooked
          cases hlooked
      | some kept =>
          rw [hfind] at hlooked
          cases hlooked
          exact .inl ((PlanCache.find?_get _ _ _).trans hfind)
  | compile hcaller outcome =>
      obtain ⟨-, hcompiled⟩ := eq_of_getElem?_set hcaller hanswer hnew
      cases outcome <;> cases hcompiled
  | insert hcaller =>
      obtain ⟨-, hinserted⟩ := eq_of_getElem?_set hcaller hanswer hnew
      cases hinserted
      exact PlanCache.cached_insert _ _ hsize

/-- **What one act settles.** -/
theorem Step.settled {later : Planners α ε} (h : Step s act s') (hrun : Run s' acts later)
    (hsize : s.cache.size ≤ s.cache.capacity) : Settled act s s' later where
  kept key plan hfind := hrun.kept (h.kept hfind)
  found number key plan hact hcaller hfind := by
    subst hact
    cases h with
    | lookUp hcaller' =>
        cases hcaller.symm.trans hcaller'
        refine hrun.answered ((getElem?_set_caller hcaller).trans ?_)
        rw [PlanCache.snd_get, hfind]
        rfl
  inserted number key own hact hcaller := by
    subst hact
    cases h with
    | insert hcaller' =>
        cases hcaller.symm.trans hcaller'
        refine ⟨_, hrun.answered (getElem?_set_caller hcaller), PlanCache.snd_insert key own, ?_⟩
        intro cached hcached
        rcases PlanCache.cached_insert key own hsize with hfind | ⟨hnone, -⟩
        · exact Option.some_inj.1 (hfind.symm.trans hcached)
        · cases hnone.symm.trans hcached
  uncached _ _ _ _ := h.uncached hsize
  failed number e hact := by
    subst hact
    cases h with
    | compile hcaller => exact ⟨rfl, _, hrun.answered (getElem?_set_caller hcaller)⟩

end Planners

/-- **A provider plans as a caller that is not interrupted.** -/
theorem Provider.exists_planners (p : Provider) (q : Query) :
    ∃ acts answer, Planners.Run ⟨p.plans, []⟩ acts
        ⟨(p.plan q).1.plans, [.answered (.ofQuery q) answer]⟩ ∧
      answer.map Prod.fst = (p.plan q).2 := by
  have hasking : (Planners.mk p.plans [(.asking (.ofQuery q) : Caller Plan Failure)]).callers[0]? =
      some (.asking (.ofQuery q)) := rfl
  have hlookUp := Planners.Step.lookUp hasking
  rcases hget : p.plans.get (.ofQuery q) with ⟨plans, _ | kept⟩
  · rw [hget] at hlookUp
    simp only [Provider.plan, hget]
    cases hcompile : Provider.compile { p with plans } q (.ofQuery q) with
    | error e =>
        exact ⟨[.call _, .lookUp 0, .compile 0 (.error e)], .error e,
          .cons (.call _) (.cons hlookUp (.cons (.compile rfl _) .nil)), rfl⟩
    | ok plan =>
        exact ⟨[.call _, .lookUp 0, .compile 0 (.ok plan), .insert 0], _,
          .cons (.call _) (.cons hlookUp (.cons (.compile rfl _) (.cons (.insert rfl) .nil))), rfl⟩
  · rw [hget] at hlookUp
    simp only [Provider.plan, hget]
    exact ⟨[.call _, .lookUp 0], .ok (kept, true), .cons (.call _) (.cons hlookUp .nil), rfl⟩

/-- **Planners agree.**  Whatever the order in which callers look plans up, compile and insert them,
a cache is no larger than its capacity, holds one plan of a key, and counts all that is looked up.
Each act settles for good what becomes of the cached plans and of the caller. -/
theorem planners_agree {α ε : Type} (capacity : Nat) :
    (∀ acts (s : Planners α ε), Planners.Run (.start capacity) acts s →
      s.cache.size ≤ capacity ∧ (s.cache.entries.map Prod.fst).Nodup ∧
      s.cache.hits + s.cache.misses = acts.countP PlannerAct.isLookUp) ∧
    ∀ before act after (s s' later : Planners α ε), Planners.Run (.start capacity) before s →
      Planners.Step s act s' → Planners.Run s' after later → Planners.Settled act s s' later := by
  constructor
  · intro acts s hrun
    have hsound := (Planners.sound_start capacity).run hrun
    exact ⟨hsound.size_le, hsound.nodup, by rw [hsound.counted, Nat.zero_add]⟩
  · intro before act after s s' later hbefore hstep hafter
    have hsound := (Planners.sound_start capacity).run hbefore
    exact hstep.settled hafter (hsound.capacity_eq ▸ hsound.size_le)

namespace Sample

/-- Two callers compile plans of one key, and the second one is the first to insert its plan. -/
def race : List (PlannerAct Nat String) :=
  [.call ⟨[1]⟩, .call ⟨[1]⟩, .call ⟨[2]⟩, .lookUp 0, .lookUp 1, .compile 0 (.ok 10),
    .compile 1 (.ok 11), .insert 1]

/-- The first caller has still to insert its plan, and the cache is full. -/
def raced : Planners Nat String where
  cache := { entries := [(⟨[1]⟩, 11)], capacity := 1, misses := 2 }
  callers := [.inserting ⟨[1]⟩ 10, .answered ⟨[1]⟩ (.ok (11, false)), .asking ⟨[2]⟩]

/-- The planners after it has done so. -/
def agreed : Planners Nat String :=
  { raced with callers := raced.callers.set 0 (.answered ⟨[1]⟩ (.ok (11, false))) }

lemma run_race : Planners.Run (.start 1) race raced :=
  .cons (.call _) (.cons (.call _) (.cons (.call _) (.cons (.lookUp rfl) (.cons (.lookUp rfl)
    (.cons (.compile rfl _) (.cons (.compile rfl _) (.cons (.insert rfl) .nil)))))))

end Sample

/-- The first caller gets the plan of the second one.  A third one with another key gets its own
plan, which is not cached. -/
theorem planners_agree_race : ∃ later : Planners Nat String,
    Planners.Run (.start 1) Sample.race Sample.raced ∧
    Planners.Step Sample.raced (.insert 0) Sample.agreed ∧
    Planners.Run Sample.agreed [.lookUp 2, .compile 2 (.ok 12), .insert 2] later ∧
    later.callers[0]? = some (.answered ⟨[1]⟩ (.ok (11, false))) ∧
    later.cache.find? ⟨[1]⟩ = some 11 ∧
    later.callers[2]? = some (.answered ⟨[2]⟩ (.ok (12, false))) ∧
    later.cache.size = 1 := by
  have hcaller : Sample.raced.callers[0]? = some (.inserting ⟨[1]⟩ 10) := rfl
  have hinsert : Planners.Step Sample.raced (.insert 0) Sample.agreed := Planners.Step.insert hcaller
  have hafter : Planners.Run Sample.agreed [.lookUp 2, .compile 2 (.ok 12), .insert 2] _ :=
    .cons (.lookUp rfl) (.cons (.compile rfl _) (.cons (.insert rfl) .nil))
  have hsettled := (planners_agree 1).2 _ _ _ _ _ _ Sample.run_race hinsert hafter
  obtain ⟨plan, hplan, -, hcached⟩ := hsettled.inserted 0 ⟨[1]⟩ 10 rfl rfl
  cases hcached 11 rfl
  exact ⟨_, Sample.run_race, hinsert, hafter, hplan, hsettled.kept ⟨[1]⟩ 11 rfl, rfl, rfl⟩

end EntityQuery
