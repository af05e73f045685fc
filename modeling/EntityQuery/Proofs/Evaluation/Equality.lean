import EntityQuery.Proofs.Document.Collation
import EntityQuery.Proofs.Document.Identity
import EntityQuery.Proofs.Evaluation.Grouping
import EntityQuery.Proofs.Evaluation.Selection

/-!
# The notions of equality

Two values are compared by `=`, by `<=` in both directions, and by the constructs that make one of
equal values.  The first compares two numbers by value but the numbers inside arrays and objects in
every detail, the second goes into arrays but compares objects by their texts, and the constructs
compare texts only, which tell all documents apart.

* `Document.AlikeNumbers`: numbers in one place that compare equal are the same number.
* `Document.same_iff`, `Document.collate_eq_iff`: over alike numbers there is one equality.
* `Operator.IsTrueOn`: a comparison of two values is true.
* `Merging.run_statement`: what the constructs make of two values, in a statement each.
* `equality_notions`: the constructs tell all different documents apart, and the comparisons agree
  with them on documents with alike numbers.
-/

namespace EntityQuery

/-! ## Numbers

There are three ways in which numbers agree: by value, in kind and value, and by their texts.  On
finite numbers each implies the one before it, and they are the same on numbers that are alike. -/

namespace Number

lemma isNaN_of_isFinite {x : Float} (h : isFinite x = true) : x.isNaN = false := by
  rw [Float.isNaN_eq_decide_eq_nan]
  refine decide_eq_false fun hnan => ?_
  rw [hnan] at h
  exact absurd h (by decide +kernel)

/-- Doubles that are numbers are equal if neither is less. -/
lemma beq_iff_compareFloats {x y : Float} (hx : x.isNaN = false) (hy : y.isNaN = false) :
    (x == y) = true ↔ compareFloats x y = .eq := by
  have hx' : x.toModel.unpack ≠ .notANumber := fun h => by
    rw [isNaN_iff.2 h] at hx
    cases hx
  have hy' : y.toModel.unpack ≠ .notANumber := fun h => by
    rw [isNaN_iff.2 h] at hy
    cases hy
  rw [compareFloats_eq hx hy]
  change (x.toModel.unpack.compare y.toModel.unpack == some .eq) = true ↔ _
  rw [compare_unpackedKey hx' hy', beq_iff_eq, Option.some_inj]
  rfl

/-- A number compares equal to itself. -/
lemma compare_self (x : Number) : x.compare x = .eq := by
  have hswap := compare_swap x x
  cases h : x.compare x <;> rw [h] at hswap <;> first | rfl | cases hswap

lemma same_self {x : Number} (hx : x.IsFinite) : x.same x = true := by
  cases x with
  | int n => exact beq_self_eq_true n
  | float x =>
      have hnumber := isNaN_of_isFinite hx
      exact (beq_iff_compareFloats hnumber hnumber).2 (compare_self (.float x))

/-- Numbers that are the same in kind and value compare equal. -/
lemma compare_eq_of_same {x y : Number} (hx : x.IsFinite) (hy : y.IsFinite) (h : x.same y = true) :
    x.compare y = .eq := by
  cases x <;> cases y
  case int.int m n =>
    obtain rfl := eq_of_beq h
    exact compare_self _
  case float.float x y =>
    exact (beq_iff_compareFloats (isNaN_of_isFinite hx) (isNaN_of_isFinite hy)).1 h
  all_goals cases h

end Number

/-! ## Documents

Whether two documents have the same numbers in the same places is asked once, for both documents at
a time.  Over such numbers both comparisons decide whether two documents are one, by induction on
the first of them. -/

mutual

/-- Numbers in one place of two documents, also inside their arrays and objects, are the same number
if they compare equal: none is an integer where the other one is a double, or one zero where the
other one is the other zero. -/
def Document.AlikeNumbers : Document → Document → Prop
  | .number x, .number y => x.compare y = .eq → x = y
  | .array as, .array bs => itemsAlike as bs
  | .object as, .object bs => fieldsAlike as bs
  | _, _ => True

/-- Numbers in one place of two lists of documents are the same number if they compare equal. -/
def itemsAlike : List Document → List Document → Prop
  | a :: as, b :: bs => a.AlikeNumbers b ∧ itemsAlike as bs
  | _, _ => True

/-- Numbers in one place of two lists of fields are the same number if they compare equal. -/
def fieldsAlike : List (String × Document) → List (String × Document) → Prop
  | a :: as, b :: bs => fieldAlike a b ∧ fieldsAlike as bs
  | _, _ => True

/-- Numbers in one place of two fields are the same number if they compare equal. -/
def fieldAlike : String × Document → String × Document → Prop
  | (_, a), (_, b) => a.AlikeNumbers b

end

mutual

/-- A document over finite numbers agrees with itself in every detail. -/
lemma Document.same_self : ∀ {a : Document}, a.IsFinite → a.same a = true
  | .null, _ => by rw [Document.same]
  | .bool b, _ => by rw [Document.same, beq_self_eq_true]
  | .number x, h => by rw [Document.same, Number.same_self h]
  | .string s, _ => by rw [Document.same, beq_self_eq_true]
  | .array items, h => by
      rw [Document.IsFinite] at h
      rw [Document.same, sameItems_self h]
  | .object fields, h => by
      rw [Document.IsFinite] at h
      rw [Document.same, sameFields_self h]

lemma sameItems_self : ∀ {items : List Document}, itemsAreFinite items → sameItems items items = true
  | [], _ => by rw [sameItems]
  | d :: items, h => by
      rw [itemsAreFinite] at h
      rw [sameItems, Document.same_self h.1, sameItems_self h.2]
      rfl

lemma sameFields_self : ∀ {fields : List (String × Document)}, fieldsAreFinite fields →
    sameFields fields fields = true
  | [], _ => by rw [sameFields]
  | (name, value) :: fields, h => by
      rw [fieldsAreFinite, fieldIsFinite] at h
      rw [sameFields, sameField, beq_self_eq_true, Document.same_self h.1, sameFields_self h.2]
      rfl

end

mutual

/-- Documents over alike numbers that agree in every detail are one document. -/
lemma Document.eq_of_same : ∀ {a b : Document}, a.IsFinite → b.IsFinite → a.AlikeNumbers b →
    a.same b = true → a = b := by
  intro a b ha hb hnumbers h
  cases a <;> cases b <;> simp only [Document.same, Bool.false_eq_true] at h
  case null.null => rfl
  case bool.bool => rw [eq_of_beq h]
  case number.number =>
    rw [Document.AlikeNumbers] at hnumbers
    rw [hnumbers (Number.compare_eq_of_same ha hb h)]
  case string.string => rw [eq_of_beq h]
  case array.array =>
    rw [Document.IsFinite] at ha hb
    rw [Document.AlikeNumbers] at hnumbers
    rw [eq_of_sameItems ha hb hnumbers h]
  case object.object =>
    rw [Document.IsFinite] at ha hb
    rw [Document.AlikeNumbers] at hnumbers
    rw [eq_of_sameFields ha hb hnumbers h]

lemma eq_of_sameItems : ∀ {as bs : List Document}, itemsAreFinite as → itemsAreFinite bs →
    itemsAlike as bs → sameItems as bs = true → as = bs
  | [], [], _, _, _, _ => rfl
  | [], _ :: _, _, _, _, h => by
      simp only [sameItems, Bool.false_eq_true] at h
  | _ :: _, [], _, _, _, h => by
      simp only [sameItems, Bool.false_eq_true] at h
  | a :: as, b :: bs, ha, hb, hnumbers, h => by
      rw [itemsAreFinite] at ha hb
      rw [itemsAlike] at hnumbers
      rw [sameItems, Bool.and_eq_true] at h
      rw [Document.eq_of_same ha.1 hb.1 hnumbers.1 h.1, eq_of_sameItems ha.2 hb.2 hnumbers.2 h.2]

lemma eq_of_sameFields : ∀ {as bs : List (String × Document)}, fieldsAreFinite as →
    fieldsAreFinite bs → fieldsAlike as bs → sameFields as bs = true → as = bs
  | [], [], _, _, _, _ => rfl
  | [], _ :: _, _, _, _, h => by
      simp only [sameFields, Bool.false_eq_true] at h
  | _ :: _, [], _, _, _, h => by
      simp only [sameFields, Bool.false_eq_true] at h
  | (name, a) :: as, (name', b) :: bs, ha, hb, hnumbers, h => by
      rw [fieldsAreFinite, fieldIsFinite] at ha hb
      rw [fieldsAlike, fieldAlike] at hnumbers
      rw [sameFields, sameField, Bool.and_eq_true, Bool.and_eq_true] at h
      rw [eq_of_beq h.1.1, Document.eq_of_same ha.1 hb.1 hnumbers.1 h.1.2,
        eq_of_sameFields ha.2 hb.2 hnumbers.2 h.2]

end

mutual

/-- Documents over alike numbers of which neither comes first are one document. -/
lemma Document.eq_of_collate : ∀ {a b : Document}, a.IsFinite → b.IsFinite → a.AlikeNumbers b →
    a.collate b = .eq → a = b := by
  intro a b ha hb hnumbers h
  cases a <;> cases b <;> try cases h
  case null.null => rfl
  case bool.bool b c => rw [Std.LawfulEqOrd.eq_of_compare (h : compare b c = .eq)]
  case number.number =>
    rw [Document.AlikeNumbers] at hnumbers
    rw [hnumbers h]
  case string.string s t => rw [Std.LawfulEqOrd.eq_of_compare (h : compare s t = .eq)]
  case array.array =>
    rw [Document.IsFinite] at ha hb
    rw [Document.AlikeNumbers] at hnumbers
    rw [Document.collate] at h
    rw [eq_of_collateItems ha hb hnumbers h]
  case object.object as bs =>
    -- objects of one length are compared by their texts
    rw [Document.collate, collateFields_eq, Ordering.then_eq_eq] at h
    exact Document.text_injective ha hb (Std.LawfulEqOrd.eq_of_compare h.2)

lemma eq_of_collateItems : ∀ {as bs : List Document}, itemsAreFinite as → itemsAreFinite bs →
    itemsAlike as bs → collateItems as bs = .eq → as = bs
  | [], [], _, _, _, _ => rfl
  | [], _ :: _, _, _, _, h => by
      rw [collateItems] at h
      cases h
  | _ :: _, [], _, _, _, h => by
      rw [collateItems] at h
      cases h
  | a :: as, b :: bs, ha, hb, hnumbers, h => by
      rw [itemsAreFinite] at ha hb
      rw [itemsAlike] at hnumbers
      rw [collateItems_cons, Ordering.then_eq_eq] at h
      rw [Document.eq_of_collate ha.1 hb.1 hnumbers.1 h.1,
        eq_of_collateItems ha.2 hb.2 hnumbers.2 h.2]

end

namespace Document

variable {a b : Document}

lemma collate_self (a : Document) : a.collate a = .eq := collateDatum_self (some a)

/-- **Over alike numbers, the equality of the language is identity.** -/
theorem equal_iff (ha : a.IsFinite) (hb : b.IsFinite) (hnumbers : a.AlikeNumbers b) :
    a.equal b = true ↔ a = b := by
  cases a <;> cases b
  case number.number x y =>
    rw [equal, beq_iff_eq]
    rw [AlikeNumbers] at hnumbers
    refine ⟨fun h => by rw [hnumbers h], fun h => ?_⟩
    obtain rfl := Document.number.inj h
    exact Number.compare_self x
  all_goals
    rw [equal]
    · exact ⟨eq_of_same ha hb hnumbers, fun h => h ▸ same_self ha⟩
    · rintro _ _ ⟨⟩ ⟨⟩

/-- **Over alike numbers, the order of the language is an order of documents.** -/
theorem collate_eq_iff (ha : a.IsFinite) (hb : b.IsFinite) (hnumbers : a.AlikeNumbers b) :
    a.collate b = .eq ↔ a = b :=
  ⟨eq_of_collate ha hb hnumbers, fun h => h ▸ collate_self a⟩

/-- A document equals itself. -/
lemma equal_self (ha : a.IsFinite) : a.equal a = true := by
  cases a
  case number x => rw [equal, Number.compare_self, beq_self_eq_true]
  all_goals
    rw [equal]
    · exact same_self ha
    · rintro _ _ ⟨⟩

end Document

/-! ## Comparisons

The operators see documents through the two comparisons.  A value that is null is left out, since no
comparison with it is true. -/

/-- A comparison is true wherever its operands have two values. -/
def Operator.IsTrueOn (op : Operator) (a b : Document) : Prop :=
  ∀ (env : Environment) (scope : Scope) (left right : Expression),
    left.eval env scope = .ok (some a) → right.eval env scope = .ok (some b) →
      (Expression.binary op left right).eval env scope = .ok (some (.bool true))

section Comparisons

variable {a b : Document}

lemma Operator.isTrueOn_iff {op : Operator} :
    op.IsTrueOn a b ↔ op.apply (some a) (some b) = .ok (some (.bool true)) := by
  constructor
  · intro h
    -- the operands can be placeholders
    have hrun := h ⟨.empty, [("a", a), ("b", b)]⟩ (.ofRow .empty) (.placeholder "a")
      (.placeholder "b") rfl rfl
    exact hrun
  · intro h env scope left right hleft hright
    rw [Expression.eval, hleft, hright]
    exact h

/-- `=` is the equality of documents. -/
lemma isTrueOn_eq (ha : a.isNull = false) (hb : b.isNull = false) :
    Operator.eq.IsTrueOn a b ↔ a.equal b = true := by
  rw [Operator.isTrueOn_iff]
  simp only [Operator.apply, ha, hb, Bool.or_self, Bool.false_eq_true, if_false, Operator.onValues,
    Except.map, Except.ok.injEq, Option.some.injEq, Document.bool.injEq]

/-- `<=` is true unless the left document comes behind the right one. -/
lemma isTrueOn_le (ha : a.isNull = false) (hb : b.isNull = false) :
    Operator.le.IsTrueOn a b ↔ a.collate b ≠ .gt := by
  rw [Operator.isTrueOn_iff]
  simp only [Operator.apply, ha, hb, Bool.or_self, Bool.false_eq_true, if_false, Operator.onValues,
    Except.map, Except.ok.injEq, Option.some.injEq, Document.bool.injEq, bne_iff_ne]

/-- Neither of two documents comes behind the other one if both are in one place of the order. -/
lemma isTrueOn_le_and_le (ha : a.isNull = false) (hb : b.isNull = false) :
    Operator.le.IsTrueOn a b ∧ Operator.le.IsTrueOn b a ↔ a.collate b = .eq := by
  rw [isTrueOn_le ha hb, isTrueOn_le hb ha, Document.collate_swap a b]
  cases a.collate b <;> decide

end Comparisons

/-! ## Constructs

Grouping, distinct rows, distinct aggregates and set operations are brought to one form: a statement
over two keyspaces with a value in each, which returns one row or two.  So one theorem says of all
of them that they go by the texts. -/

/-- The constructs of statements that make one of the values that they take for the same. -/
inductive Merging where
  | distinct
  | groupBy
  | countDistinct
  | union
  | intersect
  | except
deriving DecidableEq, Repr

namespace Merging

/-- The documents of a keyspace. -/
def values (k : Keyspace) : Statement := .select (.keyspace k "v") [] (.all "v")

/-- A selection from the documents of two keyspaces, one after the other. -/
def fromBoth (k k' : Keyspace) (clauses : Clauses) : Statement :=
  .select (.statement (.compound .unionAll (values k) (values k')) "v") [] clauses

/-- A statement over two keyspaces in which a construct tells their values apart. -/
def statement (k k' : Keyspace) : Merging → Statement
  | .distinct => fromBoth k k' { selection := .raw (.ident "v"), distinct := true }
  | .groupBy => fromBoth k k' { selection := .raw (.ident "v"), groupBy := [.ident "v"] }
  | .countDistinct =>
    fromBoth k k' { selection := .raw (.aggregate .count true (some (.ident "v"))) }
  | .union => .compound .union (values k) (values k')
  | .intersect => .compound .intersect (values k) (values k')
  | .except => .compound .except (values k) (values k')

/-- What the statement returns if each keyspace holds one value and the construct takes the two for
the same. -/
def rowsOfOne (a : Document) : Merging → List Document
  | .countDistinct => [.ofInt 1]
  | .except => []
  | _ => [a]

/-- What the statement returns if each keyspace holds one value and the construct tells the two
apart. -/
def rowsOfTwo (a b : Document) : Merging → List Document
  | .countDistinct => [.ofInt 2]
  | .intersect => []
  | .except => [a]
  | _ => [a, b]

variable {a b : Document} {env : Environment} {k k' : Keyspace}

lemma run_values {ds : List Document} (h : env.collections.documents? k = some ds) :
    (values k).run env = .ok ds := by
  have hflat : (Clauses.all "v").IsFlat := ⟨rfl, rfl, rfl, rfl⟩
  have hproject : ∀ d ∈ ds, (Clauses.all "v").selection.project env (.ofRow (.single "v" d)) =
      .ok (some d) := fun d _ => by
    change (Expression.ident "v").eval env (.ofRow (.single "v" d)) = _
    rw [Expression.eval]
    rfl
  rw [values, Statement.run, Source.run, h]
  exact hflat.run_single rfl rfl hproject

lemma run_fromBoth (hk : env.collections.documents? k = some [a])
    (hk' : env.collections.documents? k' = some [b]) (clauses : Clauses) :
    (fromBoth k k' clauses).run env = clauses.run env [.single "v" a, .single "v" b] := by
  rw [fromBoth, Statement.run, Source.run, Statement.run, run_values hk, run_values hk']
  rfl

/-- Two values stay two if their texts differ. -/
lemma dedupe_pair (a b : Document) : dedupe [a, b] = if a.text = b.text then [a] else [a, b] := by
  simp only [dedupe, dedupeFrom]
  by_cases h : a.text = b.text
  · simp [h]
  · simp [h, Ne.symm h]

/-- Two rows are in one group if the texts of their keys agree. -/
lemma groupsOf_pair (key key' : String) (row row' : Row) :
    groupsOf [(key, row), (key', row')] =
      if key = key' then [⟨row, some [row, row']⟩] else [⟨row, some [row]⟩, ⟨row', some [row']⟩] := by
  simp only [groupsOf, List.foldl_cons, List.foldl_nil, addToGroup]
  by_cases h : key = key'
  · simp [h, scopeOfGroup]
  · simp [h, scopeOfGroup]

/-- **What the constructs make of two values.**  They take them for the same if their texts agree.
-/
theorem run_statement (m : Merging) (ha : a.isNull = false) (hb : b.isNull = false)
    (hk : env.collections.documents? k = some [a]) (hk' : env.collections.documents? k' = some [b]) :
    (m.statement k k').run env =
      .ok (if a.text = b.text then m.rowsOfOne a else m.rowsOfTwo a b) := by
  cases m with
  | distinct =>
      rw [statement, run_fromBoth hk hk']
      change Except.ok (dedupe [a, b]) = _
      rw [dedupe_pair]
      rfl
  | groupBy =>
      rw [statement, run_fromBoth hk hk']
      have hkeys : groupKey [some a] = groupKey [some b] ↔ a.text = b.text := by
        have hlength : ([some a] : List Datum).length = [some b].length := rfl
        rw [groupKey_eq_iff hlength]
        simp [Datum.Alike]
      change ((groupsOf [(groupKey [some a], .single "v" a), (groupKey [some b], .single "v" b)]).mapM
        fun scope => (Expression.ident "v").eval env scope) >>=
          (fun projected => Except.ok (projected.filterMap id)) = _
      simp only [groupsOf_pair, hkeys]
      split
      · rfl
      · rfl
  | countDistinct =>
      rw [statement, run_fromBoth hk hk']
      change Except.ok [Aggregate.over .count true [some a, some b]] = _
      have hvalued : [some a, some b].filterMap (fun v => if isValued v then v else none) = [a, b] := by
        simp [isValued, ha, hb]
      simp only [Aggregate.over, hvalued, if_true, dedupe_pair]
      split
      · rfl
      · rfl
  | union =>
      rw [statement, Statement.run, run_values hk, run_values hk']
      change Except.ok (dedupe [a, b]) = _
      rw [dedupe_pair]
      rfl
  | intersect =>
      rw [statement, Statement.run, run_values hk, run_values hk']
      change Except.ok ([a].filter fun d => [b.text].contains d.text) = _
      by_cases h : a.text = b.text <;> simp [h, rowsOfOne, rowsOfTwo]
  | except =>
      rw [statement, Statement.run, run_values hk, run_values hk']
      change Except.ok ([a].filter fun d => !([b.text].contains d.text)) = _
      by_cases h : a.text = b.text <;> simp [h, rowsOfOne, rowsOfTwo]

lemma rowsOfOne_ne (m : Merging) (a b : Document) : m.rowsOfOne a ≠ m.rowsOfTwo a b := by
  cases m
  case countDistinct => simp [rowsOfOne, rowsOfTwo, Document.ofInt]
  all_goals
    intro h
    cases h

/-- A construct takes two values for the same, in whichever store and keyspaces they are. -/
def TakesAsOne (m : Merging) (a b : Document) : Prop :=
  ∀ (env : Environment) (k k' : Keyspace), env.collections.documents? k = some [a] →
    env.collections.documents? k' = some [b] → (m.statement k k').run env = .ok (m.rowsOfOne a)

/-- A construct tells two values apart, in whichever store and keyspaces they are. -/
def TellsApart (m : Merging) (a b : Document) : Prop :=
  ∀ (env : Environment) (k k' : Keyspace), env.collections.documents? k = some [a] →
    env.collections.documents? k' = some [b] → (m.statement k k').run env = .ok (m.rowsOfTwo a b)

/-- A store with a value in each of two keyspaces. -/
lemma exists_store (a b : Document) : ∃ (env : Environment) (k k' : Keyspace),
    env.collections.documents? k = some [a] ∧ env.collections.documents? k' = some [b] := by
  refine ⟨⟨⟨[("b.s.first", [a]), ("b.s.second", [b])]⟩, []⟩, ⟨"b", "s", "first"⟩,
    ⟨"b", "s", "second"⟩, rfl, rfl⟩

lemma takesAsOne_iff (m : Merging) (ha : a.isNull = false) (hb : b.isNull = false) :
    m.TakesAsOne a b ↔ a.text = b.text := by
  constructor
  · intro h
    obtain ⟨env, k, k', hk, hk'⟩ := exists_store a b
    have hrun := m.run_statement ha hb hk hk'
    rw [h env k k' hk hk'] at hrun
    by_contra hne
    rw [if_neg hne] at hrun
    exact m.rowsOfOne_ne a b (Except.ok.inj hrun)
  · intro h env k k' hk hk'
    rw [m.run_statement ha hb hk hk', if_pos h]

lemma tellsApart_iff (m : Merging) (ha : a.isNull = false) (hb : b.isNull = false) :
    m.TellsApart a b ↔ a.text ≠ b.text := by
  constructor
  · intro h heq
    obtain ⟨env, k, k', hk, hk'⟩ := exists_store a b
    have hrun := m.run_statement ha hb hk hk'
    rw [h env k k' hk hk', if_pos heq] at hrun
    exact m.rowsOfOne_ne a b (Except.ok.inj hrun).symm
  · intro h env k k' hk hk'
    rw [m.run_statement ha hb hk hk', if_neg h]

end Merging

/-! ## The notions of equality -/

/-- **The notions of equality.**  Each construct takes a document for the same as itself and tells
it apart from all others.  A document is equal to itself in both kinds of comparison.  Where numbers
that compare equal are the same number, all notions agree on two documents; where they are not, none
needs to agree with another one. -/
theorem equality_notions {a b : Document} (ha : a.IsFinite) (hb : b.IsFinite)
    (hvalued : a.isNull = false) (hvalued' : b.isNull = false) :
    (∀ m : Merging, (m.TakesAsOne a b ↔ a = b) ∧ (m.TellsApart a b ↔ a ≠ b)) ∧
      (a = b → Operator.eq.IsTrueOn a b ∧ Operator.le.IsTrueOn a b ∧ Operator.le.IsTrueOn b a) ∧
      (a.AlikeNumbers b →
        (Operator.eq.IsTrueOn a b ↔ Operator.le.IsTrueOn a b ∧ Operator.le.IsTrueOn b a) ∧
        ∀ m : Merging, (m.TakesAsOne a b ↔ Operator.eq.IsTrueOn a b) ∧
          (m.TellsApart a b ↔ ¬ Operator.eq.IsTrueOn a b)) := by
  have htext : a.text = b.text ↔ a = b := ⟨Document.text_injective ha hb, fun h => h ▸ rfl⟩
  have hone (m : Merging) : m.TakesAsOne a b ↔ a = b :=
    (m.takesAsOne_iff hvalued hvalued').trans htext
  have htwo (m : Merging) : m.TellsApart a b ↔ a ≠ b :=
    (m.tellsApart_iff hvalued hvalued').trans htext.not
  refine ⟨fun m => ⟨hone m, htwo m⟩, ?_, fun hnumbers => ?_⟩
  · rintro rfl
    exact ⟨(isTrueOn_eq hvalued hvalued).2 (Document.equal_self ha),
      (isTrueOn_le_and_le hvalued hvalued).2 a.collate_self⟩
  · have hequal : Operator.eq.IsTrueOn a b ↔ a = b :=
      (isTrueOn_eq hvalued hvalued').trans (Document.equal_iff ha hb hnumbers)
    have horder : Operator.le.IsTrueOn a b ∧ Operator.le.IsTrueOn b a ↔ a = b :=
      (isTrueOn_le_and_le hvalued hvalued').trans (Document.collate_eq_iff ha hb hnumbers)
    exact ⟨hequal.trans horder.symm, fun m => ⟨(hone m).trans hequal.symm,
      (htwo m).trans hequal.not.symm⟩⟩

/-- Two objects with different doubles in an array: all notions tell them apart. -/
theorem equality_notions_measures :
    let a : Document := .object [("x", .array [.ofInt 1, .number (.float 2.5)])]
    let b : Document := .object [("x", .array [.ofInt 1, .number (.float 3.5)])]
    a.AlikeNumbers b ∧ ¬ Operator.eq.IsTrueOn a b ∧
      ¬ (Operator.le.IsTrueOn a b ∧ Operator.le.IsTrueOn b a) ∧ ∀ m : Merging, m.TellsApart a b := by
  intro a b
  have hfinite : ∀ x : Float, Number.isFinite x = true →
      (Document.object [("x", .array [.ofInt 1, .number (.float x)])]).IsFinite := fun x hx => by
    simpa [Document.IsFinite, fieldsAreFinite, fieldIsFinite, itemsAreFinite, Document.ofInt,
      Number.IsFinite] using hx
  have hnumbers : a.AlikeNumbers b := by
    have hsecond : (Number.float 2.5).compare (.float 3.5) ≠ .eq := by decide +kernel
    simp [a, b, Document.AlikeNumbers, fieldsAlike, fieldAlike, itemsAlike, Document.ofInt, hsecond]
  have hne : a ≠ b := by
    have hdoubles : (2.5 : Float) ≠ 3.5 := by decide +kernel
    simp [a, b, hdoubles]
  obtain ⟨htells, -, hagree⟩ := equality_notions (hfinite 2.5 (by decide +kernel))
    (hfinite 3.5 (by decide +kernel)) rfl rfl
  obtain ⟨horder, hconstructs⟩ := hagree hnumbers
  have hequal : ¬ Operator.eq.IsTrueOn a b :=
    ((hconstructs .distinct).2).1 ((htells .distinct).2.2 hne)
  exact ⟨hnumbers, hequal, fun h => hequal (horder.2 h), fun m => (htells m).2.2 hne⟩

/-- **The notions of equality disagree.**  The integer `1` and the double `1.0` are equal in both
kinds of comparison, and all constructs tell them apart; in arrays, `=` tells them apart as well.
The two zeros are equal in an object, where neither `<=` nor the constructs take them for the same.
-/
theorem equality_notions_disagree :
    (Operator.eq.IsTrueOn (.ofInt 1) (.number (.float 1.0)) ∧
      Operator.le.IsTrueOn (.ofInt 1) (.number (.float 1.0)) ∧
      Operator.le.IsTrueOn (.number (.float 1.0)) (.ofInt 1) ∧
      ∀ m : Merging, m.TellsApart (.ofInt 1) (.number (.float 1.0))) ∧
    (¬ Operator.eq.IsTrueOn (.array [.ofInt 1]) (.array [.number (.float 1.0)]) ∧
      Operator.le.IsTrueOn (.array [.ofInt 1]) (.array [.number (.float 1.0)]) ∧
      Operator.le.IsTrueOn (.array [.number (.float 1.0)]) (.array [.ofInt 1])) ∧
    (Operator.eq.IsTrueOn (.object [("x", .number (.float 0.0))])
        (.object [("x", .number (.float (-0.0)))]) ∧
      ¬ (Operator.le.IsTrueOn (.object [("x", .number (.float 0.0))])
          (.object [("x", .number (.float (-0.0)))]) ∧
        Operator.le.IsTrueOn (.object [("x", .number (.float (-0.0)))])
          (.object [("x", .number (.float 0.0))]))) := by
  refine ⟨⟨?_, ?_, ?_, fun m => ?_⟩, ⟨?_, ?_, ?_⟩, ?_, ?_⟩
  · exact (isTrueOn_eq rfl rfl).2 (by decide +kernel)
  · exact (isTrueOn_le rfl rfl).2 (by decide +kernel)
  · exact (isTrueOn_le rfl rfl).2 (by decide +kernel)
  · exact (m.tellsApart_iff rfl rfl).2 (by decide +kernel)
  · exact (isTrueOn_eq rfl rfl).not.2 (by decide +kernel)
  · exact (isTrueOn_le rfl rfl).2 (by decide +kernel)
  · exact (isTrueOn_le rfl rfl).2 (by decide +kernel)
  · exact (isTrueOn_eq rfl rfl).2 (by decide +kernel)
  · exact (isTrueOn_le_and_le rfl rfl).not.2 (by decide +kernel)

end EntityQuery
