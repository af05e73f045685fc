import EntityQuery.Evaluation.Statement
import EntityQuery.Proofs.Computation

/-!
# Orderings and what they leave in place

Sorting by insertion puts elements into an order and leaves those in place that do not differ in it.
If being less is a weak order on the elements, then the elements that pass a test are sorted among
themselves as they are among all.

* `WeakOrder`: being less is a weak order on some elements.
* `pairwise_sortStable` and `sortStable_filter`: a list that has been sorted ascends, and sorting
  commutes with keeping some elements.
* `Collates`: the collation orders some values, as it does in the absence of numbers that cannot be
  told apart by it.
* `transCmp_compareKeys` and `weakOrder_compareKeys`: comparing keys that are collated is an order.
* `Clauses.transCmp_keyed`: scopes are sorted by an order if their keys are collated.
* `Clauses.ordered_filter`: the order of scopes commutes with keeping some of them.
* `Clauses.pairwise_ordered` and `Clauses.filter_ordered`: scopes that are ordered ascend, and those
  that do not differ keep their places.
* `Clauses.page_eq`: a page is what `LIMIT` leaves of what `OFFSET` leaves.
-/

namespace EntityQuery

/-! ## Stable sorting

Sorting inserts one element after the other, and so all is proved for one insertion and then by
induction on the elements that are left.  The elements are those of which `P` holds, because a
comparison is an order of the values that occur only. -/

section Sorting

variable {α : Type} {less : α → α → Bool} {P : α → Prop}

/-- Being less is a weak order on some elements. -/
structure WeakOrder (less : α → α → Bool) (P : α → Prop) : Prop where
  asymm : ∀ {a b}, P a → P b → less a b = true → less b a = false
  trans : ∀ {a b c}, P a → P b → P c → less a b = false → less b c = false → less a c = false

/-- A list in which no element is less than one behind it. -/
def Descends (less : α → α → Bool) (as : List α) : Prop :=
  as.Pairwise fun a b => less a b = false

/-- An element that is not less than any of a list stays in front. -/
lemma insertBack_of_ge {a : α} {as : List α} (h : ∀ b ∈ as, less a b = false) :
    insertBack less a as = a :: as := by
  cases as with
  | nil => rfl
  | cons b bs => rw [insertBack, h b List.mem_cons_self, if_neg Bool.false_ne_true]

/-- An element that is not less than the first of a descending list is not less than any. -/
lemma WeakOrder.ge_of_descends (h : WeakOrder less P) {a b : α} {bs : List α} (ha : P a)
    (hP : ∀ c ∈ b :: bs, P c) (hsorted : Descends less (b :: bs)) (hab : less a b = false) :
    ∀ c ∈ b :: bs, less a c = false := by
  intro c hc
  rcases List.mem_cons.1 hc with rfl | hmem
  · exact hab
  · exact h.trans ha (hP b List.mem_cons_self) (hP c hc) hab ((List.pairwise_cons.1 hsorted).1 c hmem)

/-- A descending list still descends with a further element. -/
lemma WeakOrder.descends_insertBack (h : WeakOrder less P) {a : α} (ha : P a) {as : List α}
    (hP : ∀ b ∈ as, P b) (hsorted : Descends less as) : Descends less (insertBack less a as) := by
  induction as with
  | nil => exact List.pairwise_singleton _ _
  | cons b bs ih =>
      obtain ⟨hb, hbs⟩ := List.pairwise_cons.1 hsorted
      rw [insertBack]
      cases hab : less a b with
      | true =>
          rw [if_pos rfl]
          refine List.pairwise_cons.2 ⟨fun c hc => ?_, ih (fun c hc => hP c (.tail _ hc)) hbs⟩
          rcases List.mem_cons.1 ((insertBack_perm less a bs).mem_iff.1 hc) with rfl | hc
          · exact h.asymm ha (hP b List.mem_cons_self) hab
          · exact hb c hc
      | false =>
          rw [if_neg Bool.false_ne_true]
          exact List.pairwise_cons.2 ⟨h.ge_of_descends ha hP hsorted hab, hsorted⟩

/-- An element has the same place among the elements that are kept as among all. -/
lemma WeakOrder.filter_insertBack (h : WeakOrder less P) (p : α → Bool) {a : α} (ha : P a)
    {as : List α} (hP : ∀ b ∈ as, P b) (hsorted : Descends less as) :
    (insertBack less a as).filter p =
      if p a then insertBack less a (as.filter p) else as.filter p := by
  induction as with
  | nil => cases hp : p a <;> simp [insertBack, hp]
  | cons b bs ih =>
      have ih := ih (fun c hc => hP c (.tail _ hc)) (List.pairwise_cons.1 hsorted).2
      cases hab : less a b with
      | true =>
          rw [insertBack, hab, if_pos rfl]
          cases hb : p b with
          | true =>
              rw [List.filter_cons_of_pos hb, List.filter_cons_of_pos hb, ih, insertBack, hab,
                if_pos rfl]
              split <;> rfl
          | false =>
              have hb : ¬p b = true := by simp [hb]
              rw [List.filter_cons_of_neg hb, List.filter_cons_of_neg hb, ih]
      | false =>
          rw [insertBack, hab, if_neg Bool.false_ne_true, List.filter_cons]
          have hge : ∀ c ∈ (b :: bs).filter p, less a c = false := fun c hc =>
            h.ge_of_descends ha hP hsorted hab c (List.mem_of_mem_filter hc)
          rw [insertBack_of_ge hge]

/-- **Sorting commutes with keeping some elements.** -/
theorem WeakOrder.sortStable_filter (h : WeakOrder less P) (p : α → Bool) {as : List α}
    (hP : ∀ a ∈ as, P a) : sortStable less (as.filter p) = (sortStable less as).filter p := by
  -- the elements that are sorted already keep their order as well
  have hfold : ∀ (as sorted : List α), (∀ a ∈ as, P a) → (∀ a ∈ sorted, P a) →
      Descends less sorted →
      (as.filter p).foldl (fun sorted a => insertBack less a sorted) (sorted.filter p) =
        (as.foldl (fun sorted a => insertBack less a sorted) sorted).filter p := by
    intro as
    induction as with
    | nil =>
        intro sorted _ _ _
        rfl
    | cons a as ih =>
        intro sorted hP hsortedP hsorted
        have ha : P a := hP a List.mem_cons_self
        have hinserted : ∀ b ∈ insertBack less a sorted, P b := by
          intro b hb
          rcases List.mem_cons.1 ((insertBack_perm less a sorted).mem_iff.1 hb) with rfl | hb
          · exact ha
          · exact hsortedP b hb
        have hrest := ih (insertBack less a sorted) (fun b hb => hP b (.tail _ hb)) hinserted
          (h.descends_insertBack ha hsortedP hsorted)
        rw [h.filter_insertBack p ha hsortedP hsorted] at hrest
        rw [List.foldl_cons, ← hrest]
        cases hp : p a with
        | true => rw [List.filter_cons_of_pos hp, List.foldl_cons, if_pos rfl]
        | false => rw [List.filter_cons_of_neg (by simp [hp]), if_neg Bool.false_ne_true]
  rw [sortStable, sortStable, List.filter_reverse]
  exact congrArg List.reverse (hfold as [] hP (fun a ha => by cases ha) List.Pairwise.nil)

/-- **A list that has been sorted ascends**: no element is less than one before it. -/
theorem WeakOrder.pairwise_sortStable (h : WeakOrder less P) {as : List α} (hP : ∀ a ∈ as, P a) :
    (sortStable less as).Pairwise fun a b => less b a = false := by
  have hfold : ∀ (as sorted : List α), (∀ a ∈ as, P a) → (∀ a ∈ sorted, P a) →
      Descends less sorted →
      Descends less (as.foldl (fun sorted a => insertBack less a sorted) sorted) := by
    intro as
    induction as with
    | nil =>
        intro sorted _ _ hsorted
        exact hsorted
    | cons a as ih =>
        intro sorted hP hsortedP hsorted
        have ha : P a := hP a List.mem_cons_self
        refine ih _ (fun b hb => hP b (.tail _ hb)) (fun b hb => ?_)
          (h.descends_insertBack ha hsortedP hsorted)
        rcases List.mem_cons.1 ((insertBack_perm less a sorted).mem_iff.1 hb) with rfl | hb
        · exact ha
        · exact hsortedP b hb
  rw [sortStable, List.pairwise_reverse]
  exact hfold as [] hP (fun a ha => by cases ha) List.Pairwise.nil

/-- Elements none of which is less than another are left in place. -/
lemma sortStable_of_ge {as : List α} (h : ∀ a ∈ as, ∀ b ∈ as, less a b = false) :
    sortStable less as = as := by
  have hfold : ∀ as sorted : List α, (∀ a ∈ as, ∀ b ∈ as, less a b = false) →
      (∀ a ∈ as, ∀ b ∈ sorted, less a b = false) →
      as.foldl (fun sorted a => insertBack less a sorted) sorted = as.reverse ++ sorted := by
    intro as
    induction as with
    | nil =>
        intro sorted _ _
        rfl
    | cons a as ih =>
        intro sorted has hsorted
        rw [List.foldl_cons, insertBack_of_ge (hsorted a List.mem_cons_self),
          ih _ (fun b hb c hc => has b (.tail _ hb) c (.tail _ hc)), List.reverse_cons,
          List.append_assoc, List.singleton_append]
        intro b hb c hc
        rcases List.mem_cons.1 hc with rfl | hc
        · exact has b (.tail _ hb) c List.mem_cons_self
        · exact hsorted b (.tail _ hb) c hc
  rw [sortStable, hfold as [] h fun a _ b hb => by cases hb]
  simp

end Sorting

/-! ## Keys

Several keys are compared one after the other, each in its direction, and the first one in which two
lists of values differ decides.  This is an order as soon as the collation orders the values of each
key, and nothing is asked of values under different keys. -/

/-- The collation orders the values of which a predicate holds. -/
def Collates (occurs : Datum → Prop) : Prop :=
  Std.TransCmp fun a b : { d // occurs d } => collateDatum a.1 b.1

/-- The order of two values of a key. -/
def OrderKey.compare (k : OrderKey) (a b : Datum) : Ordering :=
  if k.descending then (collateDatum a b).swap else collateDatum a b

lemma compareKeys_cons (k : OrderKey) (ks : List OrderKey) (a b : Datum) (as bs : List Datum) :
    compareKeys (k :: ks) (a :: as) (b :: bs) = (k.compare a b).then (compareKeys ks as bs) := by
  rw [compareKeys, OrderKey.compare]
  cases (if k.descending then (collateDatum a b).swap else collateDatum a b) <;> rfl

/-- Fewer values are ordered as well. -/
lemma Collates.mono {occurs occurs' : Datum → Prop} (h : Collates occurs)
    (himp : ∀ d, occurs' d → occurs d) : Collates occurs' where
  eq_swap {a b} := h.eq_swap (a := ⟨a.1, himp _ a.2⟩) (b := ⟨b.1, himp _ b.2⟩)
  isLE_trans {a b c} :=
    h.isLE_trans (a := ⟨a.1, himp _ a.2⟩) (b := ⟨b.1, himp _ b.2⟩) (c := ⟨c.1, himp _ c.2⟩)

/-- The collation orders integers of 64 bits. -/
lemma collates_ints {occurs : Datum → Prop}
    (h : ∀ d, occurs d → ∃ n, fitsInt64 n = true ∧ d = some (.ofInt n)) : Collates occurs := by
  have hcompare : ∀ {m n : Int}, fitsInt64 m = true → fitsInt64 n = true →
      collateDatum (some (.ofInt m)) (some (.ofInt n)) = compare m n := by
    intro m n hm hn
    simp [collateDatum, Document.ofInt, Document.collate, Number.compare, Number.toInt64?, hm, hn]
  refine { eq_swap := ?_, isLE_trans := ?_ }
  · rintro ⟨a, ha⟩ ⟨b, hb⟩
    obtain ⟨m, hm, rfl⟩ := h a ha
    obtain ⟨n, hn, rfl⟩ := h b hb
    rw [hcompare hm hn, hcompare hn hm]
    exact Std.OrientedCmp.eq_swap
  · rintro ⟨a, ha⟩ ⟨b, hb⟩ ⟨c, hc⟩ hab hbc
    obtain ⟨m, hm, rfl⟩ := h a ha
    obtain ⟨n, hn, rfl⟩ := h b hb
    obtain ⟨k, hk, rfl⟩ := h c hc
    rw [hcompare hm hn] at hab
    rw [hcompare hn hk] at hbc
    rw [hcompare hm hk]
    exact Std.TransCmp.isLE_trans hab hbc

/-- A key orders the values that the collation orders, in either direction. -/
lemma Collates.compare {occurs : Datum → Prop} (h : Collates occurs) (k : OrderKey) :
    Std.TransCmp fun a b : { d // occurs d } => k.compare a.1 b.1 := by
  have horiented := h.toOrientedCmp
  cases hk : k.descending with
  | false =>
      have hsame : (fun a b : { d // occurs d } => k.compare a.1 b.1) =
          fun a b => collateDatum a.1 b.1 := by
        funext a b
        simp only [OrderKey.compare, hk, Bool.false_eq_true, if_false]
      rw [hsame]
      exact h
  | true =>
      have hswap : (fun a b : { d // occurs d } => k.compare a.1 b.1) =
          fun a b => collateDatum b.1 a.1 := by
        funext a b
        simp only [OrderKey.compare, hk, if_true]
        exact (horiented.eq_swap (a := b) (b := a)).symm
      rw [hswap]
      exact @Std.TransCmp.opposite _ _ h

section Keys

variable {occurs : OrderKey → Datum → Prop} {ks : List OrderKey}

/-- Comparing keys the other way round gives the opposite order. -/
lemma compareKeys_swap (h : ∀ k ∈ ks, Collates (occurs k)) {as bs : List Datum}
    (ha : List.Forall₂ occurs ks as) (hb : List.Forall₂ occurs ks bs) :
    compareKeys ks bs as = (compareKeys ks as bs).swap := by
  induction ks generalizing as bs with
  | nil =>
      cases ha
      cases hb
      rfl
  | cons k ks ih =>
      obtain ⟨a, as, hak, has, rfl⟩ := List.forall₂_cons_left_iff.1 ha
      obtain ⟨b, bs, hbk, hbs, rfl⟩ := List.forall₂_cons_left_iff.1 hb
      have hk := ((h k List.mem_cons_self).compare k).toOrientedCmp
      have hswap : k.compare b a = (k.compare a b).swap :=
        hk.eq_swap (a := ⟨b, hbk⟩) (b := ⟨a, hak⟩)
      rw [compareKeys_cons, compareKeys_cons, Ordering.swap_then, hswap,
        ih (fun k hk => h k (.tail _ hk)) has hbs]

/-- Comparing keys is transitive. -/
lemma compareKeys_trans (h : ∀ k ∈ ks, Collates (occurs k)) {as bs cs : List Datum}
    (ha : List.Forall₂ occurs ks as) (hb : List.Forall₂ occurs ks bs)
    (hc : List.Forall₂ occurs ks cs) (hab : (compareKeys ks as bs).isLE = true)
    (hbc : (compareKeys ks bs cs).isLE = true) : (compareKeys ks as cs).isLE = true := by
  induction ks generalizing as bs cs with
  | nil =>
      cases ha
      rfl
  | cons k ks ih =>
      obtain ⟨a, as, hak, has, rfl⟩ := List.forall₂_cons_left_iff.1 ha
      obtain ⟨b, bs, hbk, hbs, rfl⟩ := List.forall₂_cons_left_iff.1 hb
      obtain ⟨c, cs, hck, hcs, rfl⟩ := List.forall₂_cons_left_iff.1 hc
      have hk := (h k List.mem_cons_self).compare k
      rw [compareKeys_cons, Ordering.isLE_then_iff_or] at hab hbc ⊢
      -- the first key decides unless it is equal in both comparisons
      rcases hab with hab | ⟨hab, hrest⟩
      · rcases hbc with hbc | ⟨hbc, -⟩
        · exact .inl (hk.lt_trans (a := ⟨a, hak⟩) (b := ⟨b, hbk⟩) (c := ⟨c, hck⟩) hab hbc)
        · exact .inl (hk.lt_of_lt_of_eq (a := ⟨a, hak⟩) (b := ⟨b, hbk⟩) (c := ⟨c, hck⟩) hab hbc)
      · rcases hbc with hbc | ⟨hbc, hrest'⟩
        · exact .inl (hk.lt_of_eq_of_lt (a := ⟨a, hak⟩) (b := ⟨b, hbk⟩) (c := ⟨c, hck⟩) hab hbc)
        · refine .inr ⟨?_, ih (fun k hk => h k (.tail _ hk)) has hbs hcs hrest hrest'⟩
          exact hk.eq_trans (a := ⟨a, hak⟩) (b := ⟨b, hbk⟩) (c := ⟨c, hck⟩) hab hbc

/-- Values that are equal to the same ones are not less than one another. -/
lemma compareKeys_of_tied (h : ∀ k ∈ ks, Collates (occurs k)) {as bs cs : List Datum}
    (ha : List.Forall₂ occurs ks as) (hb : List.Forall₂ occurs ks bs)
    (hc : List.Forall₂ occurs ks cs) (hac : compareKeys ks as cs = .eq)
    (hbc : compareKeys ks bs cs = .eq) : compareKeys ks as bs ≠ .lt := by
  intro hlt
  have hle : (compareKeys ks bs cs).isLE = true := by
    rw [hbc]
    rfl
  have hge : (compareKeys ks cs as).isLE = true := by
    rw [compareKeys_swap h ha hc, hac]
    rfl
  have hba := compareKeys_trans h hb hc ha hle hge
  rw [compareKeys_swap h ha hb, hlt] at hba
  cases hba

/-- **Comparing keys that are collated is an order** of lists of such keys, which may tie. -/
theorem transCmp_compareKeys (h : ∀ k ∈ ks, Collates (occurs k)) :
    Std.TransCmp fun as bs : { as // List.Forall₂ occurs ks as } =>
      compareKeys ks as.1 bs.1 where
  eq_swap {as bs} := compareKeys_swap h bs.2 as.2
  isLE_trans {as bs cs} := compareKeys_trans h as.2 bs.2 cs.2

/-- **Comparing keys that are collated is a weak order.** -/
theorem weakOrder_compareKeys {α : Type} (h : ∀ k ∈ ks, Collates (occurs k)) :
    WeakOrder (fun a b : List Datum × α => compareKeys ks a.1 b.1 == .lt)
      fun a => List.Forall₂ occurs ks a.1 where
  asymm ha hb hab := by
    rw [compareKeys_swap h ha hb, beq_iff_eq.1 hab]
    rfl
  trans ha hb hc hab hbc := by
    -- not being less is being at least, which is transitive
    have hge : ∀ {a b : List Datum}, List.Forall₂ occurs ks a → List.Forall₂ occurs ks b →
        ((compareKeys ks a b == .lt) = false ↔ (compareKeys ks b a).isLE = true) := by
      intro a b ha hb
      rw [compareKeys_swap h ha hb]
      cases compareKeys ks a b <;> decide
    rw [hge ha hb] at hab
    rw [hge hb hc] at hbc
    rw [hge ha hc]
    exact compareKeys_trans h hc hb ha hbc hab

end Keys

/-! ## The order of scopes

A selection sorts scopes by the values that its keys have in them.  The values are computed first
and sorted along with their scopes, so that what is known of lists with keys is brought back to the
scopes. -/

/-- The values of several expressions are their values one by one. -/
lemma evalList_eq_ok {env : Environment} {scope : Scope} {es : List Expression} {ds : List Datum} :
    evalList env es scope = .ok ds ↔ List.Forall₂ (fun e d => e.eval env scope = .ok d) es ds := by
  induction es generalizing ds with
  | nil => cases ds <;> simp [evalList]
  | cons e es ih =>
      rw [evalList, List.forall₂_cons_left_iff, Computation.bind_eq_ok]
      constructor
      · rintro ⟨d, hd, h⟩
        obtain ⟨ds', hds, h⟩ := Computation.bind_eq_ok.1 h
        cases h
        exact ⟨d, ds', hd, ih.1 hds, rfl⟩
      · rintro ⟨d, ds', hd, hds, rfl⟩
        exact ⟨d, hd, Computation.bind_eq_ok.2 ⟨ds', ih.2 hds, rfl⟩⟩

namespace Clauses

variable {env : Environment} {c : Clauses} {scopes sorted : List Scope}

/-- The collation orders the values that each key of the ordering has in some scopes. -/
def Collated (env : Environment) (c : Clauses) (scopes : List Scope) : Prop :=
  ∀ k ∈ c.orderBy, Collates fun d => ∃ scope ∈ scopes, k.key.eval env scope = .ok d

/-- The scopes with the values of the keys in them, which is what is sorted. -/
def keyed (env : Environment) (c : Clauses) (scopes : List Scope) :
    Except EvalError (List (List Datum × Scope)) :=
  scopes.mapM fun scope => do
    let keys ← evalList env (c.orderBy.map OrderKey.key) scope
    .ok (keys, scope)

/-- Ordering loses no scope and adds none. -/
lemma ordered_perm (h : c.ordered env scopes = .ok sorted) : sorted.Perm scopes := by
  rw [ordered] at h
  split at h
  · cases h
    exact .refl _
  · obtain ⟨keyed, hkeyed, h⟩ := Computation.bind_eq_ok.1 h
    cases h
    have hscopes : keyed.map Prod.snd = scopes := by
      refine Computation.map_eq_of_mapM (fun scope k hk => ?_) hkeyed
      obtain ⟨keys, -, hk⟩ := Computation.bind_eq_ok.1 hk
      cases hk
      rfl
    exact ((sortStable_perm _ keyed).map Prod.snd).trans (.of_eq hscopes)

/-- The keys of an ordering have values on all scopes that are ordered. -/
lemma eval_key (h : c.ordered env scopes = .ok sorted) {k : OrderKey} (hk : k ∈ c.orderBy)
    {scope : Scope} (hscope : scope ∈ scopes) : ∃ d, k.key.eval env scope = .ok d := by
  rw [ordered] at h
  cases hempty : c.orderBy.isEmpty with
  | true =>
      rw [List.isEmpty_iff.1 hempty] at hk
      cases hk
  | false =>
      rw [hempty, if_neg Bool.false_ne_true] at h
      obtain ⟨keyed, hkeyed, -⟩ := Computation.bind_eq_ok.1 h
      obtain ⟨_, -, hkeys⟩ := Computation.exists_of_mapM hkeyed scope hscope
      obtain ⟨keys, hkeys, -⟩ := Computation.bind_eq_ok.1 hkeys
      have hvalues := Computation.mapM_eq_ok.2 (evalList_eq_ok.1 hkeys)
      obtain ⟨d, -, hd⟩ := Computation.exists_of_mapM hvalues k.key (List.mem_map_of_mem hk)
      exact ⟨d, hd⟩

/-- The values by which scopes are ordered are those of the keys in these scopes. -/
lemma keys_occur {keyed : List (List Datum × Scope)} (h : c.keyed env scopes = .ok keyed) :
    ∀ k ∈ keyed, List.Forall₂
      (fun (key : OrderKey) d => ∃ scope ∈ scopes, key.key.eval env scope = .ok d) c.orderBy k.1 := by
  intro k hk
  obtain ⟨scope, hscope, hk⟩ := Computation.exists_of_mem_mapM h k hk
  obtain ⟨keys, hvalues, hk⟩ := Computation.bind_eq_ok.1 hk
  cases hk
  have hvalues := List.forall₂_map_left_iff.1 (evalList_eq_ok.1 hvalues)
  exact hvalues.imp fun key d hd => ⟨scope, hscope, hd⟩

/-- **Scopes are sorted by an order** if the values of each key are collated. -/
theorem transCmp_keyed {keyed : List (List Datum × Scope)} (h : c.keyed env scopes = .ok keyed)
    (hcollated : c.Collated env scopes) :
    Std.TransCmp fun a b : { k // k ∈ keyed } => compareKeys c.orderBy a.1.1 b.1.1 := by
  have horder := transCmp_compareKeys hcollated
  have hoccur := keys_occur h
  exact
    { eq_swap := fun {a b} =>
        horder.eq_swap (a := ⟨_, hoccur _ a.2⟩) (b := ⟨_, hoccur _ b.2⟩)
      isLE_trans := fun {a b d} =>
        horder.isLE_trans (a := ⟨_, hoccur _ a.2⟩) (b := ⟨_, hoccur _ b.2⟩)
          (c := ⟨_, hoccur _ d.2⟩) }

/-- **The order of scopes commutes with keeping some of them.** -/
theorem ordered_filter (h : c.ordered env scopes = .ok sorted) (hcollated : c.Collated env scopes)
    (p : Scope → Bool) : c.ordered env (scopes.filter p) = .ok (sorted.filter p) := by
  rw [ordered] at h ⊢
  cases hempty : c.orderBy.isEmpty with
  | true =>
      rw [hempty, if_pos rfl] at h
      cases h
      rw [if_pos rfl]
  | false =>
      rw [hempty, if_neg Bool.false_ne_true] at h
      rw [if_neg Bool.false_ne_true]
      obtain ⟨keyed, hkeyed, h⟩ := Computation.bind_eq_ok.1 h
      cases h
      have hfiltered : c.keyed env (scopes.filter p) =
          .ok (keyed.filter fun keyed => p keyed.2) := by
        refine Computation.mapM_filter (fun scope k hk => ?_) hkeyed
        obtain ⟨keys, -, hk⟩ := Computation.bind_eq_ok.1 hk
        cases hk
        rfl
      refine Computation.bind_eq_ok.2 ⟨_, hfiltered, ?_⟩
      rw [(weakOrder_compareKeys hcollated).sortStable_filter _ (keys_occur hkeyed), List.filter_map]
      rfl

/-- Scopes are ordered by the values that the keys have in them. -/
lemma ordered_eq_ok (h : c.ordered env scopes = .ok sorted) (hne : c.orderBy ≠ []) :
    ∃ keyed, c.keyed env scopes = .ok keyed ∧
      sorted =
        (sortStable (fun a b => compareKeys c.orderBy a.1 b.1 == .lt) keyed).map Prod.snd := by
  rw [ordered, if_neg (by simpa using hne)] at h
  obtain ⟨keyed, hkeyed, h⟩ := Computation.bind_eq_ok.1 h
  cases h
  exact ⟨keyed, hkeyed, rfl⟩

/-- The values that belong to a scope are those of the keys in it. -/
lemma keys_of_mem {keyed : List (List Datum × Scope)} (h : c.keyed env scopes = .ok keyed)
    {k : List Datum × Scope} (hk : k ∈ keyed) :
    k.2 ∈ scopes ∧ evalList env (c.orderBy.map OrderKey.key) k.2 = .ok k.1 := by
  obtain ⟨scope, hscope, hk⟩ := Computation.exists_of_mem_mapM h k hk
  obtain ⟨keys, hvalues, hk⟩ := Computation.bind_eq_ok.1 hk
  cases hk
  exact ⟨hscope, hvalues⟩

/-- **Scopes that are ordered ascend**: the values of the keys in a scope are not greater than those
in a scope behind it. -/
theorem pairwise_ordered (h : c.ordered env scopes = .ok sorted) (hcollated : c.Collated env scopes) :
    sorted.Pairwise fun s s' => ∀ as bs,
      evalList env (c.orderBy.map OrderKey.key) s = .ok as →
      evalList env (c.orderBy.map OrderKey.key) s' = .ok bs → compareKeys c.orderBy as bs ≠ .gt := by
  by_cases hne : c.orderBy = []
  · rw [hne]
    exact List.pairwise_of_forall fun _ _ _ _ _ _ hgt => by cases hgt
  obtain ⟨keyed, hkeyed, rfl⟩ := ordered_eq_ok h hne
  have hoccur := keys_occur hkeyed
  rw [List.pairwise_map]
  refine List.Pairwise.imp_of_mem ?_
    ((weakOrder_compareKeys hcollated).pairwise_sortStable hoccur)
  intro k k' hk hk' hless as bs has hbs hgt
  have hk := (sortStable_perm _ keyed).mem_iff.1 hk
  have hk' := (sortStable_perm _ keyed).mem_iff.1 hk'
  cases has.symm.trans (keys_of_mem hkeyed hk).2
  cases hbs.symm.trans (keys_of_mem hkeyed hk').2
  rw [compareKeys_swap hcollated (hoccur k hk) (hoccur k' hk'), hgt] at hless
  cases hless

/-- Scopes that do not differ in the values of the keys are left in place. -/
lemma ordered_of_tied (h : c.ordered env scopes = .ok sorted)
    (htied : ∀ s ∈ scopes, ∀ s' ∈ scopes, ∀ as bs,
      evalList env (c.orderBy.map OrderKey.key) s = .ok as →
      evalList env (c.orderBy.map OrderKey.key) s' = .ok bs → compareKeys c.orderBy as bs ≠ .lt) :
    sorted = scopes := by
  by_cases hne : c.orderBy = []
  · rw [ordered, hne] at h
    exact (Except.ok.inj h).symm
  obtain ⟨keyed, hkeyed, rfl⟩ := ordered_eq_ok h hne
  rw [sortStable_of_ge]
  · refine Computation.map_eq_of_mapM (fun scope k hk => ?_) hkeyed
    obtain ⟨keys, -, hk⟩ := Computation.bind_eq_ok.1 hk
    cases hk
    rfl
  · intro k hk k' hk'
    obtain ⟨hmem, hkeys⟩ := keys_of_mem hkeyed hk
    obtain ⟨hmem', hkeys'⟩ := keys_of_mem hkeyed hk'
    exact beq_eq_false_iff_ne.2 (htied _ hmem _ hmem' _ _ hkeys hkeys')

/-- **Ordering leaves those scopes in place that do not differ in the values of the keys.** -/
theorem filter_ordered (h : c.ordered env scopes = .ok sorted) (hcollated : c.Collated env scopes)
    {p : Scope → Bool} (htied : ∀ s ∈ scopes, ∀ s' ∈ scopes, p s → p s' → ∀ as bs,
      evalList env (c.orderBy.map OrderKey.key) s = .ok as →
      evalList env (c.orderBy.map OrderKey.key) s' = .ok bs → compareKeys c.orderBy as bs ≠ .lt) :
    sorted.filter p = scopes.filter p := by
  refine ordered_of_tied (ordered_filter h hcollated p) fun s hs s' hs' => ?_
  obtain ⟨hs, hp⟩ := List.mem_filter.1 hs
  obtain ⟨hs', hp'⟩ := List.mem_filter.1 hs'
  exact htied s hs s' hs' hp hp'

/-- The number of rows that `OFFSET` leaves out. -/
def skipped (env : Environment) (c : Clauses) : Except EvalError Nat :=
  match c.offset with
  | some e => e.rowCount env "OFFSET"
  | none => .ok 0

/-- The rows that `LIMIT` leaves. -/
def limited (env : Environment) (c : Clauses) (rows : List Document) :
    Except EvalError (List Document) :=
  match c.limit with
  | some e => e.rowCount env "LIMIT" >>= fun limit => .ok (rows.take limit)
  | none => .ok rows

/-- A page is what `LIMIT` leaves of what `OFFSET` leaves. -/
lemma page_eq (env : Environment) (c : Clauses) (rows : List Document) :
    c.page env rows = c.skipped env >>= fun offset => c.limited env (rows.drop offset) := by
  rw [page, skipped]
  cases c.offset <;> rfl

end Clauses

end EntityQuery
