import EntityQuery.Proofs.Calendar.Order
import EntityQuery.Proofs.Evaluation.CorrespondingStatement
import EntityQuery.Proofs.Evaluation.Extremes
import EntityQuery.Proofs.Scalar.RoundTrip

/-!
# The order of values in documents

The store orders the documents of values, the application the values themselves: integers by their
value, strings by code points, identifiers byte by byte, dates and instants in time.  The two orders
agree for the built-in types, but for instants of which one text is cut short within the other: the
zone comes after the digits and the point that the longer text goes on with.

* `Value.order`: the order of the application.
* `Value.collate_plain`: the order of two documents, from that of the values.
* `encode_order`: comparisons, `ORDER BY`, `MIN` and `MAX` over the documents of values.
-/

namespace EntityQuery

/-- The types whose values the application orders, apart from doubles. -/
def ScalarType.isOrdered : ScalarType → Bool
  | .int32 | .int64 | .string | .uuid | .date | .dateTime => true
  | _ => false

/-- The sixteen bytes of an identifier, the most significant one first. -/
def Uuid.bytes (u : Uuid) : List Nat := placeValues 256 16 u.bits.toNat

namespace Value

/-- What the application orders a value by: a number, code points, bytes, days, or seconds and
nanoseconds. -/
def orderKey : Value → List Int
  | .int32 n => [n.toInt]
  | .int64 n => [n.toInt]
  | .string s => s.toList.map fun c => (c.toNat : Int)
  | .uuid u => u.bytes.map fun n : Nat => (n : Int)
  | .date d => [d.dayNumber]
  | .dateTime i => [i.seconds, i.nanos]
  | _ => []

/-- The order that the application gives two values of one type. -/
def order (a b : Value) : Ordering := compare a.orderKey b.orderKey

/-- Whether the year of a date or an instant has four digits. -/
def HasFourDigits : Value → Prop
  | .date d => 0 ≤ d.year ∧ d.year ≤ 9999
  | .dateTime i => 0 ≤ i.year ∧ i.year ≤ 9999
  | _ => True

/-- Whether the text of an instant ends, but for the zone, within the fraction of another. -/
def isCutShort : Value → Value → Bool
  | .dateTime i, .dateTime j => i.isCutShort j
  | _, _ => false

end Value

/-! ## The order of documents

Each type is reduced to what its documents are compared by: a number, or a text of a fixed layout.
Where texts have parts of fixed widths, they decide as the parts of the value do. -/

/-- Integers of 64 bits are ordered by their value. -/
lemma collate_ofInt {m n : Int} (hm : fitsInt64 m = true) (hn : fitsInt64 n = true) :
    (Document.ofInt m).collate (.ofInt n) = compare m n := by
  simp only [Document.ofInt, Document.collate, Number.compare, Number.toInt64?, hm, hn, if_true]

/-- A hyphen between two parts does not change their order. -/
lemma compare_hyphen {as bs : List Char} (h : as.length = bs.length) (cs ds : List Char) :
    compare (as ++ '-' :: cs) (bs ++ '-' :: ds) = compare (as ++ cs) (bs ++ ds) := by
  rw [compare_append h, compare_append h, List.compare_cons_cons, compare_char,
    Nat.compare_eq_eq.2 rfl, Ordering.eq_then]

/-- Hyphens between the groups of digits do not change their order. -/
lemma Uuid.compare_hyphenate {ds es : List Char} (hd : ds.length = 32) (he : es.length = 32) :
    compare (hyphenate ds) (hyphenate es) = compare ds es := by
  have hgroups : ∀ l : List Char, l = l.take 8 ++ ((l.drop 8).take 4 ++ ((l.drop 12).take 4 ++
      ((l.drop 16).take 4 ++ l.drop 20))) := fun l => by
    simp only [← List.append_assoc]
    rw [← List.take_add, ← List.take_add, ← List.take_add, List.take_append_drop]
  conv_rhs => rw [hgroups ds, hgroups es]
  have hfront : (ds.take 8).length = (es.take 8).length := by simp [hd, he]
  have htake : ∀ start count, ((ds.drop start).take count).length =
      ((es.drop start).take count).length := fun start count => by simp [hd, he]
  simp only [hyphenate, List.append_assoc, List.cons_append]
  rw [compare_hyphen hfront, compare_append hfront, compare_append hfront]
  congr 1
  rw [compare_hyphen (htake 8 4), compare_append (htake 8 4), compare_append (htake 8 4)]
  congr 1
  rw [compare_hyphen (htake 12 4), compare_append (htake 12 4), compare_append (htake 12 4)]
  congr 1
  rw [compare_hyphen (htake 16 4)]

/-- **Identifiers are ordered byte by byte.** -/
theorem Uuid.compare_text (u v : Uuid) : compare u.text v.text = compare u.bytes v.bytes := by
  have hdigits : ∀ w : Uuid, w.bits.toNat < 16 ^ 32 := fun w =>
    Nat.lt_of_lt_of_eq w.bits.isLt (by decide)
  have hbytes : ∀ w : Uuid, w.bits.toNat < 256 ^ 16 := fun w =>
    Nat.lt_of_lt_of_eq w.bits.isLt (by decide)
  rw [compare_toList, text, text, String.toList_ofList, String.toList_ofList, hexDigits_eq,
    hexDigits_eq, compare_hyphenate length_digits length_digits,
    compare_digits (by decide) (by decide) (hdigits u) (hdigits v), bytes, bytes,
    compare_placeValues (by decide) (hbytes u) (hbytes v)]

namespace Value

lemma order_uuid (u v : Uuid) : (Value.uuid u).order (.uuid v) = compare u.bytes v.bytes := by
  rw [order, orderKey, orderKey, compare_map fun m _ n _ => compare_cast m n]

lemma order_string (s r : String) : (Value.string s).order (.string r) = compare s r := by
  rw [order, orderKey, orderKey, compare_toList,
    compare_map fun c _ d _ => by rw [compare_cast, compare_char]]

lemma order_dateTime (i j : Instant) :
    (Value.dateTime i).order (.dateTime j) = i.chronological j := by
  rw [order, orderKey, orderKey, List.compare_cons_cons, compare_singleton, compare_cast,
    Instant.chronological]

lemma collate_dateTime {i j : Instant} (hi : 0 ≤ i.year ∧ i.year ≤ 9999)
    (hj : 0 ≤ j.year ∧ j.year ≤ 9999) :
    (Value.dateTime i).plain.collate (Value.dateTime j).plain =
      if (Value.dateTime i).isCutShort (.dateTime j) || (Value.dateTime j).isCutShort (.dateTime i)
      then ((Value.dateTime i).order (.dateTime j)).swap
      else (Value.dateTime i).order (.dateTime j) := by
  rw [order_dateTime, plain, plain, Document.collate, isCutShort, isCutShort,
    Instant.compare_text hi hj]

/-- **The order of two documents of values**, which is that of the application unless one instant is
cut short within the other. -/
theorem collate_plain {a b : Value} {t : ScalarType} (ht : t.isOrdered = true)
    (ha : a.scalarType? = some t) (hb : b.scalarType? = some t) (ha' : a.HasFourDigits)
    (hb' : b.HasFourDigits) :
    a.plain.collate b.plain =
      if a.isCutShort b || b.isCutShort a then (a.order b).swap else a.order b := by
  cases a with
  | int32 m =>
    cases ha
    cases b with
    | int32 n =>
      have hcollate := collate_ofInt (Codec.fitsInt64_of_fitsInt32 (Codec.fitsInt32_toInt m))
        (Codec.fitsInt64_of_fitsInt32 (Codec.fitsInt32_toInt n))
      rw [plain, plain, hcollate]
      exact (compare_singleton m.toInt n.toInt).symm
    | _ => cases hb
  | int64 m =>
    cases ha
    cases b with
    | int64 n =>
      rw [plain, plain, collate_ofInt (Codec.fitsInt64_toInt m) (Codec.fitsInt64_toInt n)]
      exact (compare_singleton m.toInt n.toInt).symm
    | _ => cases hb
  | string s =>
    cases ha
    cases b with
    | string r =>
      rw [plain, plain, Document.collate, order_string]
      rfl
    | _ => cases hb
  | uuid u =>
    cases ha
    cases b with
    | uuid v =>
      rw [plain, plain, Document.collate, order_uuid, Uuid.compare_text]
      rfl
    | _ => cases hb
  | date d =>
    cases ha
    cases b with
    | date e =>
      rw [plain, plain, Document.collate, Date.compare_text ha' hb']
      exact (compare_singleton d.dayNumber e.dayNumber).symm
    | _ => cases hb
  | dateTime i =>
    cases ha
    cases b with
    | dateTime j =>
      exact collate_dateTime ha' hb'
    | _ => cases hb
  | null => cases ha
  | _ => cases ha; cases ht

lemma isNull_plain {t : ScalarType} (ht : t.isOrdered = true) {v : Value}
    (hv : v.scalarType? = some t) : v.plain.isNull = false := by
  cases v with
  | json d => cases hv; cases ht
  | null => cases hv
  | float64 x => cases hv; cases ht
  | _ => rfl

end Value

/-! ## Comparisons, sorting and extremes

Comparisons, `ORDER BY`, `MIN` and `MAX` all go through the one order of documents.  That it is the
order of the values is therefore enough for the four of them. -/

/-- The four comparisons of two documents come out as an order has it. -/
def Document.Compares (x y : Document) (o : Ordering) : Prop :=
  Operator.lt.apply (some x) (some y) = .ok (some (.bool (o == .lt))) ∧
    Operator.le.apply (some x) (some y) = .ok (some (.bool (o != .gt))) ∧
    Operator.gt.apply (some x) (some y) = .ok (some (.bool (o == .gt))) ∧
    Operator.ge.apply (some x) (some y) = .ok (some (.bool (o != .lt)))

lemma Document.compares_collate {x y : Document} (hx : x.isNull = false) (hy : y.isNull = false) :
    x.Compares y (x.collate y) := by
  simp [Compares, Operator.apply, Operator.onValues, hx, hy, Except.map]

/-- The order of a value as the key of an `ORDER BY`. -/
def OrderKey.orderValues (k : OrderKey) (a b : Value) : Ordering :=
  if k.descending then (a.order b).swap else a.order b

namespace Codec

variable {c : Codec}

/-- The documents of values of an ordered type are the plain ones. -/
lemma encode_plain (hc : c ∈ builtin) (ht : c.scalarType.isOrdered = true) {v : Value}
    (hv : v.scalarType? = some c.scalarType) : c.encode v = .ok v.plain := by
  simp only [builtin, List.mem_cons, List.not_mem_nil, or_false] at hc
  rcases hc with rfl | rfl | rfl | rfl | rfl | rfl | rfl | rfl | rfl | rfl
  all_goals first | (cases ht; done) | (cases v <;> first | (cases hv; done) | rfl)

end Codec

instance : Std.TransCmp Value.order where
  eq_swap {a b} := Std.OrientedOrd.eq_swap (a := a.orderKey) (b := b.orderKey)
  isLE_trans {a b c} :=
    Std.TransOrd.isLE_trans (a := a.orderKey) (b := b.orderKey) (c := c.orderKey)

/-- An aggregate over documents of values that are not null. -/
lemma over_plain {f : Aggregate} {vs : List Value} (hnull : ∀ v ∈ vs, v.plain.isNull = false) :
    f.over false (vs.map fun v => some v.plain) = f.fold (vs.map Value.plain) := by
  have hover : f.over false ((vs.map Value.plain).map some) = f.fold (vs.map Value.plain) :=
    over_of_valued (by simpa using hnull)
  rwa [List.map_map] at hover

section Ordered

variable {vs : List Value} (hcollate : ∀ v ∈ vs, ∀ w ∈ vs, v.plain.collate w.plain = v.order w)
  (hnull : ∀ v ∈ vs, v.plain.isNull = false)

include hcollate

/-- Scopes whose key has the values in documents are put into the order of the values. -/
lemma ordered_plain {env : Environment} {clauses : Clauses} {k : OrderKey} {scopes : List Scope}
    (hkey : clauses.orderBy = [k])
    (hscopes : List.Forall₂ (fun v scope => k.key.eval env scope = .ok (some v.plain)) vs scopes) :
    clauses.ordered env scopes =
      .ok ((sortStable (fun a b => k.orderValues a.1 b.1 == .lt) (vs.zip scopes)).map Prod.snd) := by
  let keyed : Value × Scope → List Datum × Scope := fun p => ([some p.1.plain], p.2)
  have hkeyed : scopes.mapM (fun scope => do
      let keys ← evalList env (clauses.orderBy.map OrderKey.key) scope
      .ok (keys, scope)) = .ok ((vs.zip scopes).map keyed) := by
    rw [Computation.mapM_eq_ok, hkey]
    clear hcollate
    induction hscopes with
    | nil => exact .nil
    | cons hv _ ih =>
      refine .cons ?_ ih
      simp only [List.map_cons, List.map_nil, evalList, hv]
      rfl
  have hsorted : List.Forall₂ (fun p q => p.1 ∈ vs ∧ q = keyed p)
      (sortStable (fun a b => k.orderValues a.1 b.1 == .lt) (vs.zip scopes))
      (sortStable (fun a b => compareKeys clauses.orderBy a.1 b.1 == .lt)
        ((vs.zip scopes).map keyed)) := by
    refine forall₂_sortStable ?_ ?_
    · rintro a b p q ⟨ha, rfl⟩ ⟨hb, rfl⟩
      have hlast : compareKeys [] [] [] = .eq := rfl
      rw [hkey, compareKeys_cons, hlast, Ordering.then_eq, OrderKey.compare, collateDatum,
        hcollate a.1 ha b.1 hb, OrderKey.orderValues]
    · rw [List.forall₂_map_right_iff, List.forall₂_same]
      exact fun p hp => ⟨(List.of_mem_zip hp).1, rfl⟩
  rw [Clauses.ordered, if_neg (by simp [hkey]), Computation.bind_of_eq_ok hkeyed]
  have hmap : ∀ {as bs}, List.Forall₂ (fun p q => p.1 ∈ vs ∧ q = keyed p) as bs →
      bs.map Prod.snd = as.map Prod.snd := fun h => by
    induction h with
    | nil => rfl
    | cons h _ ih => rw [List.map_cons, List.map_cons, ih, h.2]
  rw [hmap hsorted]

/-- The collation orders documents as it does the values. -/
lemma collatesMembers_plain : CollatesMembers (vs.map Value.plain) where
  eq_swap {a b} := by
    obtain ⟨-, d, hd, rfl⟩ := a
    obtain ⟨-, e, he, rfl⟩ := b
    obtain ⟨v, hv, rfl⟩ := List.mem_map.1 hd
    obtain ⟨w, hw, rfl⟩ := List.mem_map.1 he
    simp only [collateDatum, hcollate v hv w hw, hcollate w hw v hv]
    exact Std.OrientedCmp.eq_swap
  isLE_trans {a b c} hab hbc := by
    obtain ⟨-, d, hd, rfl⟩ := a
    obtain ⟨-, e, he, rfl⟩ := b
    obtain ⟨-, f, hf, rfl⟩ := c
    obtain ⟨v, hv, rfl⟩ := List.mem_map.1 hd
    obtain ⟨w, hw, rfl⟩ := List.mem_map.1 he
    obtain ⟨x, hx, rfl⟩ := List.mem_map.1 hf
    simp only [collateDatum, hcollate v hv w hw, hcollate w hw x hx, hcollate v hv x hx] at *
    exact Std.TransCmp.isLE_trans hab hbc

include hnull

/-- `MIN` is the document of a least value. -/
lemma over_min_plain (hne : vs ≠ []) :
    ∃ v ∈ vs, Aggregate.min.over false (vs.map fun v => some v.plain) = v.plain ∧
      ∀ w ∈ vs, v.order w ≠ .gt := by
  obtain ⟨hmem, hleast⟩ := (collatesMembers_plain hcollate).leastOf (by simpa using hne)
  obtain ⟨v, hv, hplain⟩ := List.mem_map.1 hmem
  refine ⟨v, hv, ?_, fun w hw hgt => ?_⟩
  · rw [over_plain hnull, hplain]
    rfl
  · have hle := hleast w.plain (List.mem_map_of_mem hw)
    rw [← hplain, hcollate v hv w hw, hgt] at hle
    cases hle

/-- `MAX` is the document of a greatest value. -/
lemma over_max_plain (hne : vs ≠ []) :
    ∃ v ∈ vs, Aggregate.max.over false (vs.map fun v => some v.plain) = v.plain ∧
      ∀ w ∈ vs, v.order w ≠ .lt := by
  obtain ⟨hmem, hgreatest⟩ := (collatesMembers_plain hcollate).greatestOf (by simpa using hne)
  obtain ⟨v, hv, hplain⟩ := List.mem_map.1 hmem
  refine ⟨v, hv, ?_, fun w hw hlt => ?_⟩
  · rw [over_plain hnull, hplain]
    rfl
  · have hle := hgreatest w.plain (List.mem_map_of_mem hw)
    have hswap : w.order v = (v.order w).swap := Std.OrientedCmp.eq_swap
    rw [← hplain, hcollate w hw v hv, hswap, hlt] at hle
    cases hle

end Ordered

/-- Whether the store orders the documents of some values as the application orders the values: the
comparisons, the order that an `ORDER BY` puts scopes into, `MIN` and `MAX`. -/
structure Value.StoredInOrder (vs : List Value) : Prop where
  compares : ∀ v ∈ vs, ∀ w ∈ vs, v.plain.Compares w.plain (v.order w)
  ordered : ∀ (env : Environment) (clauses : Clauses) (k : OrderKey) (scopes : List Scope),
    clauses.orderBy = [k] →
    List.Forall₂ (fun v scope => k.key.eval env scope = .ok (some v.plain)) vs scopes →
    clauses.ordered env scopes =
      .ok ((sortStable (fun a b => k.orderValues a.1 b.1 == .lt) (vs.zip scopes)).map Prod.snd)
  min : vs ≠ [] → ∃ v ∈ vs, Aggregate.min.over false (vs.map fun v => some v.plain) = v.plain ∧
    ∀ w ∈ vs, v.order w ≠ .gt
  max : vs ≠ [] → ∃ v ∈ vs, Aggregate.max.over false (vs.map fun v => some v.plain) = v.plain ∧
    ∀ w ∈ vs, v.order w ≠ .lt

/-- **The documents of values of an ordered type are compared, sorted and picked as the application
orders the values**, for dates and instants whose years have four digits.  Two instants of which one
is cut short within the other are in the wrong order; without such a pair, so are the four
comparisons, an `ORDER BY` by the values, `MIN` and `MAX`. -/
theorem encode_order {c : Codec} (hc : c ∈ Codec.builtin) (ht : c.scalarType.isOrdered = true)
    {vs : List Value} (hvs : ∀ v ∈ vs, v.scalarType? = some c.scalarType ∧ v.HasFourDigits) :
    (∀ v ∈ vs, c.encode v = .ok v.plain) ∧
      (∀ v ∈ vs, ∀ w ∈ vs, v.plain.collate w.plain =
        if v.isCutShort w || w.isCutShort v then (v.order w).swap else v.order w) ∧
      ((∀ v ∈ vs, ∀ w ∈ vs, v.isCutShort w = false) → Value.StoredInOrder vs) := by
  have hcollate : ∀ v ∈ vs, ∀ w ∈ vs, v.plain.collate w.plain =
      if v.isCutShort w || w.isCutShort v then (v.order w).swap else v.order w := fun v hv w hw =>
    Value.collate_plain ht (hvs v hv).1 (hvs w hw).1 (hvs v hv).2 (hvs w hw).2
  have hnull : ∀ v ∈ vs, v.plain.isNull = false := fun v hv => Value.isNull_plain ht (hvs v hv).1
  refine ⟨fun v hv => Codec.encode_plain hc ht (hvs v hv).1, hcollate, fun hcut => ?_⟩
  have horder : ∀ v ∈ vs, ∀ w ∈ vs, v.plain.collate w.plain = v.order w := fun v hv w hw => by
    rw [hcollate v hv w hw, hcut v hv w hw, hcut w hw v hv]
    rfl
  exact {
    compares := fun v hv w hw => by
      rw [← horder v hv w hw]
      exact Document.compares_collate (hnull v hv) (hnull w hw)
    ordered := fun _ _ _ _ hkey hscopes => ordered_plain horder hkey hscopes
    min := over_min_plain horder hnull
    max := over_max_plain horder hnull }

namespace Sample

/-- Half past nine on a summer morning, on the second. -/
def onTheSecond : Instant where
  seconds := 1689327000
  nanos := 0
  valid := by decide

/-- Half a second later. -/
def halfASecondLater : Instant where
  seconds := 1689327000
  nanos := 500000000
  valid := by decide

/-- Instants of which no text is cut short within another: the fractions of one second have three
digits each. -/
def instants : List Value :=
  [.dateTime halfASecondLater, .dateTime leapSecond, .dateTime ⟨1689327000, 250000000, by decide⟩]

end Sample

/-- Fractions of one length, and a leap second, are in order. -/
theorem encode_order_instants :
    (∀ v ∈ Sample.instants, v.scalarType? = some .dateTime ∧ v.HasFourDigits) ∧
      (∀ v ∈ Sample.instants, ∀ w ∈ Sample.instants, v.isCutShort w = false) ∧
      Value.StoredInOrder Sample.instants := by
  have hvs : ∀ v ∈ Sample.instants,
      v.scalarType? = some Codec.dateTime.scalarType ∧ v.HasFourDigits := by
    intro v hv
    simp only [Sample.instants, List.mem_cons, List.not_mem_nil, or_false] at hv
    rcases hv with rfl | rfl | rfl
    · exact ⟨rfl, by show 0 ≤ Sample.halfASecondLater.year ∧ _; decide⟩
    · exact ⟨rfl, by show 0 ≤ Sample.leapSecond.year ∧ _; decide⟩
    · exact ⟨rfl, by show 0 ≤ Instant.year _ ∧ _; decide⟩
  have hcut : ∀ v ∈ Sample.instants, ∀ w ∈ Sample.instants, v.isCutShort w = false := by
    decide +kernel
  exact ⟨hvs, hcut, (encode_order (by simp [Codec.builtin]) rfl hvs).2.2 hcut⟩

/-- A whole second is stored behind the fractions of it. -/
theorem encode_order_reversed :
    ∃ x y, Codec.dateTime.encode (.dateTime Sample.onTheSecond) = .ok x ∧
      Codec.dateTime.encode (.dateTime Sample.halfASecondLater) = .ok y ∧
      (Value.dateTime Sample.onTheSecond).order (.dateTime Sample.halfASecondLater) = .lt ∧
      x.collate y = .gt :=
  ⟨_, _, rfl, rfl, by decide, by decide +kernel⟩

end EntityQuery
