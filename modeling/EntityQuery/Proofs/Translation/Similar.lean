import EntityQuery.Proofs.Translation.Run
import Mathlib.Data.List.Forall2
import Mathlib.Tactic.Common

/-!
# Translations that run alike

Two translations may be compared step by step: they give up together, and else have related results.
Which error a translation gives up with is left aside, since its text may name what differs.

* `Translating.results` forgets errors.
* `Translating.Similar`: two translations give up together, or have related results.
* `Translating.Leads`: where one translation has a result, another one has a related result.
-/

namespace EntityQuery

namespace Translating

variable {α β : Type}

/-- What a translation results in, if it does not give up. -/
def results (x : Translating α) : StateT Progress Option α := fun p => (x p).toOption

@[simp] lemma results_pure (a : α) : results (pure a) = pure a := rfl

@[simp] lemma results_bind (x : Translating α) (f : α → Translating β) :
    results (x >>= f) = results x >>= fun a => results (f a) := by
  funext p
  change (x p >>= fun r => f r.1 r.2).toOption =
    ((x p).toOption >>= fun r => (f r.1 r.2).toOption)
  cases x p <;> rfl

@[simp] lemma results_unsupported (construct reason : String) :
    results (unsupported construct reason : Translating α) = failure := rfl

lemma results_ite (c : Prop) [Decidable c] (x y : Translating α) :
    results (if c then x else y) = if c then results x else results y := by
  split <;> rfl

/-- Two translations give up together, and else have results of which a relation holds, with the
same progress. -/
def Similar (r : α → β → Prop) (x : Translating α) (y : Translating β) : Prop :=
  ∀ p, Option.Rel (fun a b => r a.1 b.1 ∧ a.2 = b.2) (results x p) (results y p)

namespace Similar

variable {γ δ : Type} {r : α → β → Prop} {s : γ → δ → Prop}

lemma of_results {x y : Translating α} (h : results x = results y) : Similar Eq x y := by
  intro p
  rw [h]
  cases results y p with
  | none => exact .none
  | some a => exact .some ⟨rfl, rfl⟩

protected lemma pure {a : α} {b : β} (h : r a b) : Similar r (pure a) (pure b) :=
  fun _ => .some ⟨h, rfl⟩

lemma unsupported (construct construct' reason reason' : String) :
    Similar r (EntityQuery.unsupported construct reason)
      (EntityQuery.unsupported construct' reason') :=
  fun _ => .none

/-- What comes after similar translations is similar if it is for similar results. -/
lemma bind {x : Translating α} {y : Translating β} {f : α → Translating γ} {g : β → Translating δ}
    (h : Similar r x y) (hf : ∀ a b, r a b → Similar s (f a) (g b)) :
    Similar s (x >>= f) (y >>= g) := by
  intro p
  rw [results_bind, results_bind]
  change Option.Rel _ (results x p >>= fun a => results (f a.1) a.2)
    (results y p >>= fun b => results (g b.1) b.2)
  cases hx : results x p with
  | none =>
      have hp := h p
      rw [hx] at hp
      cases hy : results y p with
      | none => exact .none
      | some b =>
          rw [hy] at hp
          cases hp
  | some a =>
      have hp := h p
      rw [hx] at hp
      cases hy : results y p with
      | none =>
          rw [hy] at hp
          cases hp
      | some b =>
          rw [hy] at hp
          cases hp with
          | some hab =>
              obtain ⟨hr, hprogress⟩ := hab
              change Option.Rel _ (results (f a.1) a.2) (results (g b.1) b.2)
              rw [← hprogress]
              exact hf a.1 b.1 hr a.2

/-- The same translation on both sides. -/
lemma step {x : Translating α} {f : α → Translating γ} {g : α → Translating δ}
    (hf : ∀ a, Similar s (f a) (g a)) : Similar s (x >>= f) (x >>= g) :=
  (of_results rfl).bind fun a _ hab => hab ▸ hf a

lemma ite {c : Prop} [Decidable c] {x x' : Translating α} {y y' : Translating β}
    (h : Similar r x y) (h' : Similar r x' y') :
    Similar r (if c then x else x') (if c then y else y') := by
  by_cases hc : c
  · rwa [if_pos hc, if_pos hc]
  · rwa [if_neg hc, if_neg hc]

lemma symm {x : Translating α} {y : Translating β} (h : Similar r x y) :
    Similar (fun b a => r a b) y x := by
  intro p
  have hp := h p
  generalize results x p = rx, results y p = ry at hp ⊢
  cases hp with
  | none => exact .none
  | some hab => exact .some ⟨hab.1, hab.2.symm⟩

lemma eq_ok {x : Translating α} {y : Translating β} (h : Similar r x y) {p p' : Progress} {a : α}
    (hx : x p = .ok (a, p')) : ∃ b, y p = .ok (b, p') ∧ r a b := by
  have hp := h p
  rw [results, results, hx] at hp
  cases hy : y p with
  | error e =>
      rw [hy] at hp
      cases hp
  | ok b =>
      rw [hy] at hp
      cases hp with
      | some hab =>
          obtain ⟨b, progress⟩ := b
          obtain ⟨hr, rfl⟩ := hab
          exact ⟨b, rfl, hr⟩

/-- Similar translations of the members of a list. -/
lemma mapM {ι : Type} {f : ι → Translating α} {g : ι → Translating β} {as : List ι}
    (h : ∀ a ∈ as, Similar r (f a) (g a)) : Similar (List.Forall₂ r) (as.mapM f) (as.mapM g) := by
  induction as with
  | nil => exact .pure .nil
  | cons a as ih =>
      rw [List.mapM_cons, List.mapM_cons]
      refine (h a List.mem_cons_self).bind fun b c hbc => ?_
      refine (ih fun a ha => h a (List.mem_cons_of_mem _ ha)).bind fun bs cs hrest => ?_
      exact .pure (.cons hbc hrest)

end Similar

/-- What a translation results in, another one results in up to a relation, with the same progress.
-/
structure Leads (r : α → β → Prop) (x : Translating α) (y : Translating β) : Prop where
  eq_ok : ∀ {p p' a}, x p = .ok (a, p') → ∃ b, y p = .ok (b, p') ∧ r a b

namespace Leads

variable {γ δ : Type} {r : α → β → Prop} {s : γ → δ → Prop}

protected lemma pure {a : α} {b : β} (h : r a b) : Leads r (pure a) (pure b) where
  eq_ok ha := by
    cases ha
    exact ⟨b, rfl, h⟩

/-- From a translation that gives up nothing follows. -/
lemma unsupported (construct reason : String) (y : Translating β) :
    Leads r (EntityQuery.unsupported construct reason) y where
  eq_ok ha := by cases ha

/-- What comes behind leads on if it does for related results. -/
lemma bind {x : Translating α} {y : Translating β} {f : α → Translating γ} {g : β → Translating δ}
    (h : Leads r x y) (hf : ∀ a b, r a b → Leads s (f a) (g b)) : Leads s (x >>= f) (y >>= g) where
  eq_ok hc := by
    obtain ⟨a, q, ha, hc⟩ := bind_eq_ok.1 hc
    obtain ⟨b, hb, hab⟩ := h.eq_ok ha
    obtain ⟨d, hd, hcd⟩ := (hf a b hab).eq_ok hc
    exact ⟨d, bind_eq_ok.2 ⟨b, q, hb, hd⟩, hcd⟩

/-- The same translation on both sides. -/
lemma step {x : Translating α} {f : α → Translating γ} {g : α → Translating δ}
    (hf : ∀ a, Leads s (f a) (g a)) : Leads s (x >>= f) (x >>= g) where
  eq_ok hc := by
    obtain ⟨a, q, ha, hc⟩ := bind_eq_ok.1 hc
    obtain ⟨d, hd, hcd⟩ := (hf a).eq_ok hc
    exact ⟨d, bind_eq_ok.2 ⟨a, q, ha, hd⟩, hcd⟩

lemma ite {c : Prop} [Decidable c] {x x' : Translating α} {y y' : Translating β}
    (h : Leads r x y) (h' : Leads r x' y') :
    Leads r (if c then x else x') (if c then y else y') := by
  by_cases hc : c
  · rwa [if_pos hc, if_pos hc]
  · rwa [if_neg hc, if_neg hc]

/-- A translation whose results are related to themselves. -/
lemma of_eq_ok {r : α → α → Prop} {x : Translating α}
    (h : ∀ p a p', x p = .ok (a, p') → r a a) : Leads r x x where
  eq_ok ha := ⟨_, ha, h _ _ _ ha⟩

end Leads
end Translating

end EntityQuery
