import EntityQuery.Proofs.Evaluation.IntegerArithmetic
import EntityQuery.Proofs.Scalar.Decoding
import EntityQuery.Proofs.Translation.Safety

/-!
# Sums of integers

`SUM` adds the numbers of a group one after the other, in the order of its rows.  The sum is an
integer as long as every sum on the way is one of 64 bits; from the first one that is not, all that
follows is computed on doubles, and the total is a double even if the exact one fits.  So the order
of the rows matters, unless the positive numbers and the negative numbers have sums of 64 bits each.

* `foldl_add_eq_int`: when the numbers are added up exactly.
* `sum_between`: the bounds of the sums on the way, in every order.
* `Expression.HasIntegers`: an expression that has integers of 64 bits on the rows of a group.
* `sums_exact`: when `SUM` is exact, in one order and in every one.
* `sums_round`: two orders of the same rows, and a sum that is read back as another number.
-/

namespace EntityQuery

/-! ## Adding up

A sum is exact up to the first one on the way that does not fit.  From there on it is a double, and
stays one even if later numbers lead back into the range. -/

/-- All sums on the way, from the first number to the last, are integers of 64 bits. -/
def FitsOnTheWay (ns : List Int) : Prop := ∀ ms, ms <+: ns → fitsInt64 ms.sum = true

lemma foldl_add_float (qs : List Quantity) (x : Float) :
    ∃ y, qs.foldl Quantity.add (.float x) = .float y := by
  induction qs generalizing x with
  | nil => exact ⟨x, rfl⟩
  | cons q qs ih => exact ih _

/-- **Integers are added up exactly** if the sums on the way fit, and to a double otherwise. -/
theorem foldl_add_eq_int {ns : List Int} {m n : Int} (hm : fitsInt64 m = true) :
    (ns.map Quantity.int).foldl Quantity.add (.int m) = .int n ↔
      n = m + ns.sum ∧ ∀ ms, ms <+: ns → fitsInt64 (m + ms.sum) = true := by
  induction ns generalizing m with
  | nil =>
    simp only [List.map_nil, List.foldl_nil, Quantity.int.injEq, List.prefix_nil, forall_eq,
      List.sum_nil, Int.add_zero, hm, and_true]
    exact eq_comm
  | cons k ns ih =>
    rw [List.map_cons, List.foldl_cons, Quantity.add, Quantity.checked]
    cases hfits : fitsInt64 (m + k) with
    | true =>
      rw [if_pos rfl, ih hfits, List.sum_cons, Int.add_assoc]
      refine and_congr_right fun _ => ⟨fun h ms hms => ?_, fun h ms hms => ?_⟩
      · rcases List.prefix_cons_iff.1 hms with rfl | ⟨ms, rfl, hrest⟩
        · rwa [List.sum_nil, Int.add_zero]
        · rw [List.sum_cons, ← Int.add_assoc]
          exact h ms hrest
      · rw [Int.add_assoc, ← List.sum_cons]
        exact h (k :: ms) (List.cons_prefix_cons.2 ⟨rfl, hms⟩)
    | false =>
      -- what follows is computed on doubles
      obtain ⟨y, hy⟩ := foldl_add_float (ns.map .int) (.ofInt m + .ofInt k)
      rw [if_neg Bool.false_ne_true, hy]
      constructor
      · intro h
        cases h
      · rintro ⟨-, h⟩
        have hfirst := h [k] (List.cons_prefix_cons.2 ⟨rfl, List.nil_prefix⟩)
        rw [List.sum_singleton, hfits] at hfirst
        cases hfirst

lemma Quantity.toDocument_eq_ofInt {q : Quantity} {n : Int} :
    q.toDocument = .ofInt n ↔ q = .int n := by
  cases q with
  | int m =>
    rw [Quantity.toDocument, Document.ofInt, Document.ofInt, Quantity.int.injEq,
      Document.number.injEq, Number.int.injEq]
  | float x =>
    rw [Quantity.toDocument, Document.ofFloat]
    constructor
    · intro h
      split at h <;> cases h
    · intro h
      cases h

/-- The sum of integers is one exactly if the sums on the way fit. -/
lemma sumOf_eq_ofInt {ns : List Int} (hfits : ∀ n ∈ ns, fitsInt64 n = true) (hne : ns ≠ [])
    {n : Int} : sumOf (ns.map Document.ofInt) = .ofInt n ↔ n = ns.sum ∧ FitsOnTheWay ns := by
  have hquantities : (ns.map Document.ofInt).filterMap Quantity.ofDocument? = ns.map .int := by
    rw [List.filterMap_map]
    exact List.filterMap_eq_map_iff_forall_eq_some.2 fun n hn => ofDocument?_ofInt (hfits n hn)
  have hsum : sumOf (ns.map Document.ofInt) =
      ((ns.map Quantity.int).foldl Quantity.add (.int 0)).toDocument := by
    rw [sumOf, hquantities]
    cases ns with
    | nil => exact absurd rfl hne
    | cons n ns => rfl
  rw [hsum, Quantity.toDocument_eq_ofInt, foldl_add_eq_int (by decide), Int.zero_add, FitsOnTheWay]
  simp only [Int.zero_add]

/-! ## Every order

The sum on the way is greatest if all positive numbers come first, and least if all negative ones
do.  These two orders decide whether it fits in all of them. -/

lemma sum_filter_cons (p : Int → Bool) (n : Int) (ns : List Int) :
    ((n :: ns).filter p).sum = (if p n then n else 0) + (ns.filter p).sum := by
  cases h : p n <;> simp [h]

/-- **The bounds of a part of some numbers** are the sums of the negative and of the positive ones.
-/
lemma sum_between {ms ns : List Int} (h : ms.Sublist ns) :
    (ns.filter (· < 0)).sum ≤ ms.sum ∧ ms.sum ≤ (ns.filter (0 < ·)).sum := by
  induction h with
  | slnil => exact ⟨Int.le_refl _, Int.le_refl _⟩
  | cons n h ih =>
    simp only [sum_filter_cons, decide_eq_true_eq]
    split_ifs <;> omega
  | cons_cons n h ih =>
    simp only [sum_filter_cons, decide_eq_true_eq, List.sum_cons]
    split_ifs <;> omega

/-- Sums on the way fit if those of the positive and of the negative numbers do. -/
lemma fitsOnTheWay_of_signs {ms ns : List Int} (h : ms.Perm ns)
    (hpositives : fitsInt64 (ns.filter (0 < ·)).sum = true)
    (hnegatives : fitsInt64 (ns.filter (· < 0)).sum = true) : FitsOnTheWay ms := by
  intro ks hks
  obtain ⟨hlow, hhigh⟩ := sum_between hks.sublist
  rw [(h.filter _).sum_eq] at hlow hhigh
  rw [fitsInt64_iff] at hpositives hnegatives ⊢
  exact ⟨Int.le_trans hnegatives.1 hlow, Int.le_trans hhigh hpositives.2⟩

/-! ## Sums over the rows of a group

The numbers are the values that an expression has on the rows, without those that are missing or no
numbers.  Rows may be put into any order by which these are put into any order. -/

/-- On every one of some rows an expression has an integer of 64 bits, or neither a number nor any
other value. -/
def Expression.HasIntegers (env : Environment) (e : Expression) (value : Row → Option Int)
    (rows : List Row) : Prop :=
  ∀ row ∈ rows, ∃ v, e.eval env (.ofRow row) = .ok v ∧
    ((∃ n, value row = some n ∧ v = some (.ofInt n) ∧ fitsInt64 n = true) ∨
      value row = none ∧ isValued v = false)

namespace Expression.HasIntegers

variable {env : Environment} {e : Expression} {value : Row → Option Int} {rows : List Row}

lemma fits (h : e.HasIntegers env value rows) : ∀ n ∈ rows.filterMap value, fitsInt64 n = true := by
  intro n hn
  obtain ⟨row, hrow, hvalue⟩ := List.mem_filterMap.1 hn
  obtain ⟨v, -, ⟨m, hm, -, hfits⟩ | ⟨hnone, -⟩⟩ := h row hrow
  · rw [hvalue] at hm
    cases hm
    exact hfits
  · rw [hvalue] at hnone
    cases hnone

lemma perm {rows' : List Row} (h : e.HasIntegers env value rows) (hrows : rows'.Perm rows) :
    e.HasIntegers env value rows' := fun row hrow => h row (hrows.mem_iff.1 hrow)

/-- The values that an aggregate looks at. -/
lemma exists_values (h : e.HasIntegers env value rows) :
    ∃ vs, rows.mapM (fun row => e.eval env (.ofRow row)) = .ok vs ∧
      vs.filterMap (fun v => if isValued v then v else none) =
        (rows.filterMap value).map Document.ofInt := by
  induction rows with
  | nil => exact ⟨[], rfl, rfl⟩
  | cons row rows ih =>
    obtain ⟨vs, hvs, hvalues⟩ := ih fun row hrow => h row (List.mem_cons_of_mem _ hrow)
    obtain ⟨v, hv, hcases⟩ := h row List.mem_cons_self
    refine ⟨v :: vs, ?_, ?_⟩
    · rw [List.mapM_cons, hv, hvs]
      rfl
    · rcases hcases with ⟨n, hn, rfl, -⟩ | ⟨hnone, hnull⟩
      · rw [List.filterMap_cons_some hn, List.map_cons, ← hvalues]
        rfl
      · rw [List.filterMap_cons_none hnone, List.filterMap_cons_none (by rw [hnull]; rfl), hvalues]

/-- **`SUM` is the sum of the integers.** -/
lemma eval_sum (h : e.HasIntegers env value rows) (row : Row) :
    (Expression.aggregate .sum false (some e)).eval env ⟨row, some rows⟩ =
      .ok (some (sumOf ((rows.filterMap value).map Document.ofInt))) := by
  obtain ⟨vs, hvs, hvalues⟩ := h.exists_values
  rw [Expression.eval]
  show (rows.mapM fun row => e.eval env (.ofRow row)) >>= _ = _
  rw [hvs, ← hvalues]
  rfl

end Expression.HasIntegers

/-- The rows on which a value is chosen may be put first. -/
lemma exists_perm_prefix (rows : List Row) (value : Row → Option Int) (p : Int → Bool) :
    ∃ rows' : List Row, rows'.Perm rows ∧
      (rows.filterMap value).filter p <+: rows'.filterMap value := by
  refine ⟨_, List.filter_append_perm (fun row => (value row).any p) rows, ?_⟩
  rw [List.filterMap_append, List.filterMap_filter, List.filter_filterMap]
  have hchosen : (fun row => if (value row).any p = true then value row else none) =
      fun row => (value row).filter p := by
    funext row
    cases hvalue : value row with
    | none => rfl
    | some n => cases hn : p n <;> simp [Option.filter, hn]
  rw [hchosen]
  exact List.prefix_append _ _

/-- The sum of an expression over the rows of a group. -/
def Expression.summed (e : Expression) : Expression := .aggregate .sum false (some e)

/-- An integer that fits is read back as itself. -/
lemma exists_decode_ofInt {n : Int} (h : fitsInt64 n = true) :
    ∃ v : Int64, Codec.int64.decode (.ofInt n) = .ok (.int64 v) ∧ v.toInt = n := by
  refine ⟨.ofInt n, ?_, Codec.toInt_ofInt64 h⟩
  rw [Document.ofInt, Codec.decode_int64, Registry.integral_int h]
  rfl

/-- A query for a sum of integers asks for an integer of 64 bits. -/
lemma Translator.terminal_sum_eq_ok {tr : Translator} {frame : Frame} {f : Formula} {p : Progress}
    {r : (Frame × YieldedScalar) × Progress} (h : tr.terminal frame .sum (some f) p = .ok r)
    (hinteger : f.scalarType.isInteger = true) :
    ∃ e : Expression, r.1.2 = ⟨e.summed, .int64, true, none⟩ := by
  obtain ⟨_, _, hargument, h⟩ := Translating.bind_eq_ok.1 h
  cases Translating.pure_eq_ok.1 hargument
  replace h := Translating.after_check
    (fun _ hs => Translating.pure_eq_ok.1 (Translating.refuse_eq_ok.1 hs).2) h
  obtain ⟨e, _, -, h⟩ := Translating.bind_eq_ok.1 h
  cases Translating.pure_eq_ok.1 h
  have htype : Translator.aggregatedType .sum f.scalarType = .int64 := if_pos hinteger
  refine ⟨e, ?_⟩
  rw [← htype]
  rfl

/-- **Sums of integers are exact as long as the sums on the way fit 64 bits**, and doubles
otherwise.  They are exact in every order of the rows if the positive and the negative integers have
sums that fit.  An exact sum is read back under the type that a query declares for it. -/
theorem sums_exact {env : Environment} {e : Expression} {value : Row → Option Int} {rows : List Row}
    (row : Row) (hvalues : e.HasIntegers env value rows) (hne : rows.filterMap value ≠ []) :
    (∀ n, e.summed.eval env ⟨row, some rows⟩ = .ok (some (.ofInt n)) ↔
      n = (rows.filterMap value).sum ∧ FitsOnTheWay (rows.filterMap value)) ∧
    ((∀ rows', rows'.Perm rows → e.summed.eval env ⟨row, some rows'⟩ =
        .ok (some (.ofInt (rows.filterMap value).sum))) ↔
      fitsInt64 ((rows.filterMap value).filter (0 < ·)).sum = true ∧
        fitsInt64 ((rows.filterMap value).filter (· < 0)).sum = true) ∧
    (FitsOnTheWay (rows.filterMap value) → ∃ v : Int64,
      Codec.int64.decode (.ofInt (rows.filterMap value).sum) = .ok (.int64 v) ∧
        v.toInt = (rows.filterMap value).sum) ∧
    ∀ {tr : Translator} {frame : Frame} {f : Formula} {p : Progress}
      {r : (Frame × YieldedScalar) × Progress}, tr.terminal frame .sum (some f) p = .ok r →
      f.scalarType.isInteger = true → ∃ arg : Expression, r.1.2 = ⟨arg.summed, .int64, true, none⟩ := by
  have hexact : ∀ {rows' : List Row}, rows'.Perm rows → ∀ n,
      e.summed.eval env ⟨row, some rows'⟩ = .ok (some (.ofInt n)) ↔
        n = (rows.filterMap value).sum ∧ FitsOnTheWay (rows'.filterMap value) := by
    intro rows' hrows n
    have hvalues' := hvalues.perm hrows
    have hnumbers : (rows'.filterMap value).Perm (rows.filterMap value) := hrows.filterMap value
    have hne' : rows'.filterMap value ≠ [] := fun h => hne (h ▸ hnumbers).nil_eq.symm
    rw [Expression.summed, hvalues'.eval_sum row, Except.ok.injEq, Option.some_inj,
      sumOf_eq_ofInt hvalues'.fits hne', hnumbers.sum_eq]
  refine ⟨hexact (.refl _), ⟨fun h => ?_, fun h rows' hrows => ?_⟩, fun h => ?_, ?_⟩
  · -- the positive numbers come first in one order, and the negative ones in another
    have hfits (p : Int → Bool) : fitsInt64 ((rows.filterMap value).filter p).sum = true := by
      obtain ⟨rows', hrows, hprefix⟩ := exists_perm_prefix rows value p
      exact ((hexact hrows _).1 (h rows' hrows)).2 _ hprefix
    exact ⟨hfits _, hfits _⟩
  · exact (hexact hrows _).2 ⟨rfl, fitsOnTheWay_of_signs (hrows.filterMap value) h.1 h.2⟩
  · exact exists_decode_ofInt (h _ (List.prefix_refl _))
  · exact fun h hinteger => Translator.terminal_sum_eq_ok h hinteger

namespace Sample

/-- Rows that bind persons of some ages. -/
def agedRows (ages : List Int) : List Row := ages.map fun n => .single "p" (aged n)

/-- The age of the person that a row binds. -/
def rowAge : Expression := .field (.ident "p") "age"

/-- The age that a row has as an integer. -/
def knownAge (row : Row) : Option Int :=
  match rowAge.eval ⟨.empty, []⟩ (.ofRow row) with
  | .ok (some (.number (.int n))) => some n
  | _ => none

end Sample

/-- The greatest integer, a person without an age, minus one and one: the sum is exact, but not in
every order of these rows. -/
theorem sums_exact_greatest :
    let env : Environment := ⟨.empty, []⟩
    let rows := Sample.agedRows [int64Max] ++ .single "p" (.object []) :: Sample.agedRows [-1, 1]
    (Sample.rowAge.HasIntegers env Sample.knownAge rows ∧ rows.filterMap Sample.knownAge ≠ []) ∧
    Sample.rowAge.summed.eval env ⟨.empty, some rows⟩ = .ok (some (.ofInt int64Max)) ∧
    ¬ ∀ rows', rows'.Perm rows →
      Sample.rowAge.summed.eval env ⟨.empty, some rows'⟩ = .ok (some (.ofInt int64Max)) := by
  intro env rows
  have hvalues : Sample.rowAge.HasIntegers env Sample.knownAge rows := by
    intro row hrow
    rcases List.mem_cons.1 hrow with rfl | hrow
    · exact ⟨_, rfl, .inl ⟨int64Max, rfl, rfl, rfl⟩⟩
    rcases List.mem_cons.1 hrow with rfl | hrow
    · exact ⟨_, rfl, .inr ⟨rfl, rfl⟩⟩
    rcases List.mem_cons.1 hrow with rfl | hrow
    · exact ⟨_, rfl, .inl ⟨-1, rfl, rfl, rfl⟩⟩
    rcases List.mem_singleton.1 hrow with rfl
    exact ⟨_, rfl, .inl ⟨1, rfl, rfl, rfl⟩⟩
  have hages : rows.filterMap Sample.knownAge = [int64Max, -1, 1] := rfl
  have hne : rows.filterMap Sample.knownAge ≠ [] := by
    rw [hages]
    exact List.cons_ne_nil _ _
  obtain ⟨hone, hevery, -, -⟩ := sums_exact .empty hvalues hne
  rw [hages] at hone hevery
  refine ⟨⟨hvalues, hne⟩, (hone _).2 ⟨rfl, fun ms hms => ?_⟩, fun h => ?_⟩
  · have hsums : ∀ ms ∈ [int64Max, -1, 1].inits, fitsInt64 ms.sum = true := by decide
    exact hsums ms ((List.mem_inits _ _).2 hms)
  · exact absurd (hevery.1 h).1 (by decide)

/-- **The order of the rows decides.**  The sum of the greatest integer, one and the opposite of the
greatest integer is one.  In this order it is computed as the double zero, which is read back as the
integer zero; in another one it is exact. -/
theorem sums_round :
    let env : Environment := ⟨.empty, []⟩
    [int64Max, 1, -int64Max].sum = 1 ∧
    Sample.rowAge.summed.eval env ⟨.empty, some (Sample.agedRows [int64Max, 1, -int64Max])⟩ =
      .ok (some (.number (.float 0.0))) ∧
    (∃ v : Int64, Codec.int64.decode (.number (.float 0.0)) = .ok (.int64 v) ∧ v.toInt = 0) ∧
    Sample.rowAge.summed.eval env ⟨.empty, some (Sample.agedRows [int64Max, -int64Max, 1])⟩ =
      .ok (some (.ofInt 1)) := by
  refine ⟨rfl, rfl, ⟨0, ?_, rfl⟩, rfl⟩
  have hzero : (Binary64.ofFloat 0.0).toInt? = some 0 := by decide +kernel
  rw [Codec.decode_int64, Registry.integral_float hzero rfl]
  rfl

end EntityQuery
