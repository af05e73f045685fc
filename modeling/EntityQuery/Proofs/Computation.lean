import Mathlib.Data.List.Forall2
import Mathlib.Tactic.Common

/-!
# Computations that may fail

When a computation succeeds, and from where its failures come, part by part.

* `Computation.bind_eq_ok` and `Computation.mapM_eq_ok` take a successful computation apart.
* `Computation.bind_eq_error` and `Computation.mapM_eq_error` find the part that fails.
* `Computation.FailsOnly`: a computation whose failures are of a class; parts hand it on.
-/

namespace EntityQuery.Computation

variable {ε α β γ : Type}

/-- A sequence succeeds if its parts do. -/
lemma bind_eq_ok {x : Except ε α} {k : α → Except ε β} {b : β} :
    (x >>= k) = .ok b ↔ ∃ a, x = .ok a ∧ k a = .ok b := by
  cases x <;> simp [bind, Except.bind]

lemma bind_of_eq_ok {x : Except ε α} {k : α → Except ε β} {a : α} (h : x = .ok a) :
    (x >>= k) = k a := by
  rw [h]
  rfl

/-- A sequence fails if one of its parts does. -/
lemma bind_eq_error {x : Except ε α} {k : α → Except ε β} {e : ε} :
    (x >>= k) = .error e ↔ x = .error e ∨ ∃ a, x = .ok a ∧ k a = .error e := by
  cases x <;> simp [bind, Except.bind]

lemma map_eq_ok {x : Except ε α} {f : α → β} {b : β} :
    x.map f = .ok b ↔ ∃ a, x = .ok a ∧ f a = b := by
  cases x <;> simp [Except.map]

lemma map_eq_error {x : Except ε α} {f : α → β} {e : ε} : x.map f = .error e ↔ x = .error e := by
  cases x <;> simp [Except.map]

lemma mapError_eq_ok {δ : Type} {x : Except ε α} {f : ε → δ} {a : α} :
    x.mapError f = .ok a ↔ x = .ok a := by
  cases x <;> simp [Except.mapError]

lemma mapError_eq_error {δ : Type} {x : Except ε α} {f : ε → δ} {d : δ} :
    x.mapError f = .error d ↔ ∃ e, x = .error e ∧ f e = d := by
  cases x <;> simp [Except.mapError]

/-- A computation on each member of a list succeeds if it does on all of them. -/
theorem mapM_eq_ok {f : α → Except ε β} {as : List α} {bs : List β} :
    as.mapM f = .ok bs ↔ List.Forall₂ (fun a b => f a = .ok b) as bs := by
  induction as generalizing bs with
  | nil => cases bs <;> simp [pure, Except.pure]
  | cons a as ih =>
      rw [List.mapM_cons, List.forall₂_cons_left_iff, bind_eq_ok]
      constructor
      · rintro ⟨b, hb, h⟩
        obtain ⟨bs', hbs, h⟩ := bind_eq_ok.1 h
        cases h
        exact ⟨b, bs', hb, ih.1 hbs, rfl⟩
      · rintro ⟨b, bs', hb, hbs, rfl⟩
        exact ⟨b, hb, bind_eq_ok.2 ⟨bs', ih.2 hbs, rfl⟩⟩

/-- What a computation returns on each member of a list, another one returns as well if it does so
on each member by itself. -/
lemma mapM_imp {δ : Type} {f : α → Except ε β} {g : α → Except δ β} {as : List α} {bs : List β}
    (h : as.mapM f = .ok bs) (hfg : ∀ a b, f a = .ok b → g a = .ok b) : as.mapM g = .ok bs :=
  mapM_eq_ok.2 ((mapM_eq_ok.1 h).imp hfg)

/-- A computation that succeeds where a condition holds, with a result that is known, does so on
each member of a list. -/
lemma mapM_iff {f : α → Except ε β} {p : α → Prop} {g : α → β}
    (h : ∀ a b, f a = .ok b ↔ p a ∧ b = g a) {as : List α} {bs : List β} :
    as.mapM f = .ok bs ↔ (∀ a ∈ as, p a) ∧ bs = as.map g := by
  rw [mapM_eq_ok]
  induction as generalizing bs with
  | nil => simp
  | cons a as ih =>
      rw [List.forall₂_cons_left_iff, List.forall_mem_cons, List.map_cons]
      constructor
      · rintro ⟨b, bs', hb, hbs, rfl⟩
        obtain ⟨ha, rfl⟩ := (h a b).1 hb
        obtain ⟨has, rfl⟩ := ih.1 hbs
        exact ⟨⟨ha, has⟩, rfl⟩
      · rintro ⟨⟨ha, has⟩, rfl⟩
        exact ⟨g a, as.map g, (h a _).2 ⟨ha, rfl⟩, ih.2 ⟨has, rfl⟩, rfl⟩

/-- The same of the members with their places, which do not matter for the results. -/
lemma mapM_zipIdx_iff {f : α × ℕ → Except ε β} {p : α → Prop} {g : α → β}
    (h : ∀ a b, f a = .ok b ↔ p a.1 ∧ b = g a.1) {as : List α} {bs : List β} :
    as.zipIdx.mapM f = .ok bs ↔ (∀ a ∈ as, p a) ∧ bs = as.map g := by
  have hfst : as.zipIdx.map Prod.fst = as := List.zipIdx_map_fst 0 as
  calc as.zipIdx.mapM f = .ok bs
      ↔ (∀ a ∈ as.zipIdx, p a.1) ∧ bs = as.zipIdx.map fun a => g a.1 := mapM_iff h
    _ ↔ (∀ a ∈ as.zipIdx.map Prod.fst, p a) ∧ bs = (as.zipIdx.map Prod.fst).map g := by
        rw [List.forall_mem_map, List.map_map]
        rfl
    _ ↔ (∀ a ∈ as, p a) ∧ bs = as.map g := by rw [hfst]

/-- Computations that are the same member by member are the same on two lists. -/
lemma mapM_congr {f : α → Except ε β} {g : γ → Except ε β} {as : List α} {cs : List γ}
    (h : List.Forall₂ (fun a c => f a = g c) as cs) : as.mapM f = cs.mapM g := by
  induction h with
  | nil => rfl
  | cons hac _ ih => rw [List.mapM_cons, List.mapM_cons, hac, ih]

/-- A computation on each member of a list that may leave the member out keeps the others. -/
lemma filterMapM_eq_ok {f : α → Except ε (Option β)} {as : List α} {bs : List β} :
    as.filterMapM f = .ok bs ↔ ∃ os, as.mapM f = .ok os ∧ os.filterMap id = bs := by
  induction as generalizing bs with
  | nil =>
      rw [List.filterMapM_nil]
      exact ⟨fun h => ⟨[], rfl, Except.ok.inj h⟩, fun ⟨os, hos, h⟩ => by cases hos; exact h ▸ rfl⟩
  | cons a as ih =>
      rw [List.filterMapM_cons, List.mapM_cons, bind_eq_ok]
      constructor
      · rintro ⟨o, ho, h⟩
        cases o with
        | none =>
            obtain ⟨os, hos, rfl⟩ := ih.1 h
            exact ⟨none :: os, bind_eq_ok.2 ⟨none, ho, bind_eq_ok.2 ⟨os, hos, rfl⟩⟩, rfl⟩
        | some b =>
            obtain ⟨bs', hbs, h⟩ := bind_eq_ok.1 h
            cases h
            obtain ⟨os, hos, rfl⟩ := ih.1 hbs
            exact ⟨some b :: os, bind_eq_ok.2 ⟨some b, ho, bind_eq_ok.2 ⟨os, hos, rfl⟩⟩, rfl⟩
      · rintro ⟨os, hos, rfl⟩
        obtain ⟨o, ho, hos⟩ := bind_eq_ok.1 hos
        obtain ⟨os, hrest, hos⟩ := bind_eq_ok.1 hos
        cases hos
        refine ⟨o, ho, ?_⟩
        cases o with
        | none => exact ih.2 ⟨os, hrest, rfl⟩
        | some b => exact bind_eq_ok.2 ⟨_, ih.2 ⟨os, hrest, rfl⟩, rfl⟩

/-- Each result comes from a member of the list. -/
lemma exists_of_mem_mapM {f : α → Except ε β} {as : List α} {bs : List β}
    (h : as.mapM f = .ok bs) : ∀ b ∈ bs, ∃ a ∈ as, f a = .ok b := by
  intro b hb
  induction mapM_eq_ok.1 h with
  | nil => cases hb
  | cons hab hrest ih =>
      rcases List.mem_cons.1 hb with rfl | hb
      · exact ⟨_, List.mem_cons_self, hab⟩
      · obtain ⟨a, ha, hf⟩ := ih (mapM_eq_ok.2 hrest) hb
        exact ⟨a, List.mem_cons_of_mem _ ha, hf⟩

/-- Each member of the list has a result among those of the list. -/
lemma exists_of_mapM {f : α → Except ε β} {as : List α} {bs : List β} (h : as.mapM f = .ok bs) :
    ∀ a ∈ as, ∃ b ∈ bs, f a = .ok b := by
  intro a ha
  induction mapM_eq_ok.1 h with
  | nil => cases ha
  | cons hab hrest ih =>
      rcases List.mem_cons.1 ha with rfl | ha
      · exact ⟨_, List.mem_cons_self, hab⟩
      · obtain ⟨b, hb, hf⟩ := ih (mapM_eq_ok.2 hrest) ha
        exact ⟨b, List.mem_cons_of_mem _ hb, hf⟩

/-- What can be read from the results is what can be read from the members. -/
lemma map_eq_map_of_mapM {f : α → Except ε β} {g : β → γ} {k : α → γ}
    (hf : ∀ a b, f a = .ok b → g b = k a) {as : List α} {bs : List β} (h : as.mapM f = .ok bs) :
    bs.map g = as.map k := by
  induction mapM_eq_ok.1 h with
  | nil => rfl
  | cons hab hrest ih => rw [List.map_cons, List.map_cons, hf _ _ hab, ih (mapM_eq_ok.2 hrest)]

/-- Results from which the members can be read give the list back. -/
lemma map_eq_of_mapM {f : α → Except ε β} {g : β → α} (hf : ∀ a b, f a = .ok b → g b = a)
    {as : List α} {bs : List β} (h : as.mapM f = .ok bs) : bs.map g = as :=
  (map_eq_map_of_mapM hf h).trans as.map_id

/-- The results of a computation on each of the results of another one. -/
lemma forall₂_of_mapM_mapM {δ : Type} {f : α → Except ε β} {g : β → Except δ γ} {as : List α}
    {bs : List β} {cs : List γ} (h : as.mapM f = .ok bs) (h' : bs.mapM g = .ok cs) :
    List.Forall₂ (fun a c => ∃ b, f a = .ok b ∧ g b = .ok c) as cs := by
  rw [mapM_eq_ok] at h h'
  induction h generalizing cs with
  | nil =>
      cases h'
      exact .nil
  | cons hab _ ih =>
      cases h' with
      | cons hbc hrest => exact .cons ⟨_, hab, hbc⟩ (ih hrest)

/-- The results of two computations on each member of a list. -/
lemma forall₂_of_mapM_both {δ : Type} {f : α → Except ε β} {g : α → Except δ γ} {as : List α}
    {bs : List β} {cs : List γ} (h : as.mapM f = .ok bs) (h' : as.mapM g = .ok cs) :
    List.Forall₂ (fun b c => ∃ a ∈ as, f a = .ok b ∧ g a = .ok c) bs cs := by
  rw [mapM_eq_ok] at h h'
  induction h generalizing cs with
  | nil =>
      cases h'
      exact .nil
  | cons hab _ ih =>
      cases h' with
      | cons hac hrest =>
          refine .cons ⟨_, List.mem_cons_self, hab, hac⟩ ((ih hrest).imp ?_)
          exact fun b c ⟨a, ha, h⟩ => ⟨a, List.mem_cons_of_mem _ ha, h⟩

/-- Members are left out before a computation on each as the results are behind it. -/
lemma mapM_filter {f : α → Except ε β} {p : α → Bool} {q : β → Bool}
    (hpq : ∀ a b, f a = .ok b → q b = p a) {as : List α} {bs : List β} (h : as.mapM f = .ok bs) :
    (as.filter p).mapM f = .ok (bs.filter q) := by
  rw [mapM_eq_ok] at h ⊢
  induction h with
  | nil => exact .nil
  | @cons a b as bs hab _ ih =>
      rw [List.filter_cons, List.filter_cons, hpq a b hab]
      split
      · exact .cons hab ih
      · exact ih

/-- The members of a list that a computation returns, and none if it fails. -/
def members (x : Except ε (List α)) : List α := x.toOption.getD []

lemma members_of_eq_ok {x : Except ε (List α)} {as : List α} (h : x = .ok as) : members x = as := by
  rw [h]
  rfl

/-- Lists that are computed one by one are joined into one. -/
lemma flatten_of_mapM {f : α → Except ε (List β)} {as : List α} {lists : List (List β)}
    (h : as.mapM f = .ok lists) : lists.flatten = as.flatMap fun a => members (f a) := by
  induction mapM_eq_ok.1 h with
  | nil => rfl
  | cons hab hrest ih =>
      rw [List.flatten_cons, List.flatMap_cons, members_of_eq_ok hab, ih (mapM_eq_ok.2 hrest)]

/-- Results of blocks are blocks of results. -/
lemma mapM_flatMap {δ : Type} {f : α → Except ε β} {g : γ → Except ε δ} {block : α → List γ}
    {block' : β → List δ} {as : List α} {bs : List β} (h : as.mapM f = .ok bs)
    (hblock : ∀ a ∈ as, ∀ b, f a = .ok b → (block a).mapM g = .ok (block' b)) :
    (as.flatMap block).mapM g = .ok (bs.flatMap block') := by
  rw [mapM_eq_ok] at h ⊢
  induction h with
  | nil => exact .nil
  | @cons a b as bs hab _ ih =>
      rw [List.flatMap_cons, List.flatMap_cons]
      refine List.rel_append (mapM_eq_ok.1 (hblock a List.mem_cons_self b hab)) ?_
      exact ih fun a ha => hblock a (.tail _ ha)

/-- Of lists that are related member by member, the first members that pass are related. -/
lemma rel_find? {r : α → β → Prop} {p : α → Bool} {q : β → Bool} {as : List α} {bs : List β}
    (h : List.Forall₂ r as bs) (hpq : ∀ a b, r a b → q b = p a) :
    Option.Rel r (as.find? p) (bs.find? q) := by
  induction h with
  | nil => exact .none
  | @cons a b as bs hab _ ih =>
      rw [List.find?_cons, List.find?_cons, hpq a b hab]
      cases p a with
      | true => exact .some hab
      | false => exact ih

/-- A computation on each member of a list fails on one of them if it fails. -/
theorem mapM_eq_error {f : α → Except ε β} {as : List α} {e : ε} (h : as.mapM f = .error e) :
    ∃ a ∈ as, f a = .error e := by
  induction as with
  | nil => cases h
  | cons a as ih =>
      rw [List.mapM_cons, bind_eq_error] at h
      rcases h with h | ⟨b, -, h⟩
      · exact ⟨a, List.mem_cons_self, h⟩
      · rcases bind_eq_error.1 h with h | ⟨bs, -, h⟩
        · obtain ⟨a', ha', h⟩ := ih h
          exact ⟨a', List.mem_cons_of_mem _ ha', h⟩
        · cases h

/-- One that may leave members out fails on one of them as well. -/
lemma filterMapM_eq_error {f : α → Except ε (Option β)} {as : List α} {e : ε}
    (h : as.filterMapM f = .error e) : ∃ a ∈ as, f a = .error e := by
  induction as with
  | nil => cases h
  | cons a as ih =>
      rw [List.filterMapM_cons, bind_eq_error] at h
      rcases h with h | ⟨o, -, h⟩
      · exact ⟨a, List.mem_cons_self, h⟩
      · have hrest : as.filterMapM f = .error e := by
          cases o with
          | none => exact h
          | some b =>
              rcases bind_eq_error.1 h with h | ⟨bs, -, h⟩
              · exact h
              · cases h
        obtain ⟨a', ha', h⟩ := ih hrest
        exact ⟨a', List.mem_cons_of_mem _ ha', h⟩

/-- A computation that succeeds on each member of a list succeeds on the list. -/
lemma exists_mapM {f : α → Except ε β} {as : List α} (h : ∀ a ∈ as, ∃ b, f a = .ok b) :
    ∃ bs, as.mapM f = .ok bs := by
  cases hbs : as.mapM f with
  | ok bs => exact ⟨bs, rfl⟩
  | error e =>
      obtain ⟨a, ha, herror⟩ := mapM_eq_error hbs
      obtain ⟨b, hb⟩ := h a ha
      rw [hb] at herror
      cases herror

/-! ## Failures of a class

A computation that is put together from parts fails as one of them does.  So a class of errors that
holds the failures of all parts holds those of the whole, whatever the class is. -/

/-- A computation that fails, if it does, with errors of a class. -/
def FailsOnly (errors : ε → Prop) (x : Except ε α) : Prop := ∀ e, x = .error e → errors e

namespace FailsOnly

variable {errors : ε → Prop}

lemma ok (a : α) : FailsOnly errors (.ok a : Except ε α) := by
  intro e he
  cases he

lemma error {e : ε} (h : errors e) : FailsOnly errors (.error e : Except ε α) := by
  intro e' he
  cases he
  exact h

lemma bind {x : Except ε α} {k : α → Except ε β} (hx : FailsOnly errors x)
    (hk : ∀ a, x = .ok a → FailsOnly errors (k a)) : FailsOnly errors (x >>= k) := by
  intro e he
  rcases bind_eq_error.1 he with he | ⟨a, ha, he⟩
  · exact hx e he
  · exact hk a ha e he

lemma map {x : Except ε α} (hx : FailsOnly errors x) (f : α → β) : FailsOnly errors (x.map f) :=
  fun e he => hx e (map_eq_error.1 he)

lemma mapM {f : α → Except ε β} {as : List α} (hf : ∀ a ∈ as, FailsOnly errors (f a)) :
    FailsOnly errors (as.mapM f) := by
  intro e he
  obtain ⟨a, ha, he⟩ := mapM_eq_error he
  exact hf a ha e he

end FailsOnly

end EntityQuery.Computation
