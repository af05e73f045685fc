import EntityQuery.Proofs.Statement.Steps

/-!
# Reading the texts of expressions

The text of an expression can be read back.  Parentheses are left out where binding strengths tell
how operands belong together; the reader goes by the same strengths, so it takes the operands that
were written.

* `Expression.isLegible`: the names in an expression are such that its text can be read.
* `Expression.Reads`: the text of an expression is read as the expression.
* `Expression.reads_text`: so is the text of each legible expression.
-/

namespace EntityQuery

/-! ## Legible expressions -/

/-- Whether a literal is written as one: a number with a sign in front is a negation. -/
def Literal.isLegible : Literal → Bool
  | .int n => decide (0 ≤ n)
  | .null | .bool _ => true

namespace Expression

mutual

/-- Whether the text of an expression can be read: placeholders and functions are named by
identifiers, functions are no aggregates, numbers have no sign, and the only aggregate without an
argument is the number of rows.  What stands between backticks may be any text. -/
def isLegible : Expression → Bool
  | .ident _ => true
  | .field base _ => base.isLegible
  | .placeholder name => isIdentifier name
  | .literal value => value.isLegible
  | .binary _ left right => left.isLegible && right.isLegible
  | .not e | .neg e | .valued e | .notValued e => e.isLegible
  | .inList e list => e.isLegible && allLegible list
  | .like e pattern => e.isLegible && pattern.isLegible
  | .call name args => isIdentifier name && (Aggregate.ofName? name).isNone && allLegible args
  | .aggregate function distinct none => decide (function = .count) && !distinct
  | .aggregate _ _ (some arg) => arg.isLegible
  | .caseWhen c t o => c.isLegible && t.isLegible && o.isLegible

/-- Whether the texts of some expressions can be read. -/
def allLegible : List Expression → Bool
  | [] => true
  | e :: es => e.isLegible && allLegible es

end

end Expression

/-! ## The texts of expressions, by characters

Texts are read character by character.  The text of an expression is given as a list once more, by
the same recursion, and one equation for each constructor says what it begins and ends with. -/

namespace Expression

/-- The text of an expression at a place, by characters. -/
def charsAt (e : Expression) (place : Nat) : List Char := (e.textAt place).toList

/-- The text of several expressions, by characters. -/
def charsOf (es : List Expression) : List Char := (expressionTexts es).toList

/-- An expression is put in parentheses where it binds looser than its place asks for. -/
lemma charsAt_eq (e : Expression) {place : Nat} (h : place ≤ atomStrength) :
    e.charsAt place =
      if e.strength < place then '(' :: (e.charsAt 0 ++ [')']) else e.charsAt 0 := by
  have hatom : ∀ text, parenthesized (decide (atomStrength < place)) text = text := by
    intro text
    rw [decide_eq_false (Nat.not_lt.2 h)]
    rfl
  have htext : e.textAt place = parenthesized (decide (e.strength < place)) (e.textAt 0) := by
    cases e with
    | binary | not | neg | valued | notValued | inList | like => rfl
    | aggregate function distinct arg => cases arg <;> exact (hatom _).symm
    | _ => exact (hatom _).symm
  rw [charsAt, htext, parenthesized]
  by_cases hlt : e.strength < place
  · simp [hlt, charsAt]
  · simp [hlt, charsAt]

/-! ### The parts of a text -/

section Parts

variable (e base left right pattern c t o : Expression) (name : String)

lemma charsAt_field : (Expression.field base name).charsAt 0 =
    base.charsAt atomStrength ++ (Suffix.field.text.toList ++ (identText name).toList) := by
  show (base.textAt atomStrength ++ "." ++ identText name).toList = _
  simp [charsAt, Suffix.text]

lemma charsAt_placeholder : (Expression.placeholder name).charsAt 0 = '$' :: name.toList := by
  show ("$" ++ name).toList = _
  simp

lemma charsAt_binary (op : Operator) : (Expression.binary op left right).charsAt 0 =
    left.charsAt (if op.strength = testStrength then op.strength + 1 else op.strength) ++
      ((Suffix.binary op).text.toList ++ right.charsAt (op.strength + 1)) := by
  show (left.textAt _ ++ " " ++ op.symbol ++ " " ++ right.textAt (op.strength + 1)).toList = _
  simp [charsAt, Suffix.text]

lemma charsAt_not :
    (Expression.not e).charsAt 0 = "NOT ".toList ++ e.charsAt notStrength :=
  String.toList_append

lemma charsAt_neg : (Expression.neg e).charsAt 0 = '-' :: e.charsAt signStrength :=
  String.toList_append

lemma charsAt_valued : (Expression.valued e).charsAt 0 =
    e.charsAt (testStrength + 1) ++ Suffix.valued.text.toList :=
  String.toList_append

lemma charsAt_notValued : (Expression.notValued e).charsAt 0 =
    e.charsAt (testStrength + 1) ++ Suffix.notValued.text.toList :=
  String.toList_append

lemma charsAt_inList (list : List Expression) : (Expression.inList e list).charsAt 0 =
    e.charsAt (testStrength + 1) ++ (Suffix.inList.text.toList ++
      (charsOf list ++ Mark.closeBracket.text.toList)) := by
  show (e.textAt (testStrength + 1) ++ " IN [" ++ expressionTexts list ++ "]").toList = _
  simp [charsAt, charsOf, Suffix.text, Mark.text]

lemma charsAt_like : (Expression.like e pattern).charsAt 0 =
    e.charsAt (testStrength + 1) ++ (Suffix.like.text.toList ++
      pattern.charsAt (testStrength + 1)) := by
  show (e.textAt (testStrength + 1) ++ " LIKE " ++ pattern.textAt (testStrength + 1)).toList = _
  simp [charsAt, Suffix.text]

lemma charsAt_call (args : List Expression) : (Expression.call name args).charsAt 0 =
    name.toList ++ '(' :: (charsOf args ++ Mark.closeParenthesis.text.toList) := by
  show (name ++ "(" ++ expressionTexts args ++ ")").toList = _
  simp [charsOf, Mark.text]

lemma charsAt_caseWhen : (Expression.caseWhen c t o).charsAt 0 =
    "CASE WHEN ".toList ++ (c.charsAt 0 ++ (Mark.caseThen.text.toList ++ (t.charsAt 0 ++
      (Mark.caseElse.text.toList ++ (o.charsAt 0 ++ Mark.caseEnd.text.toList))))) := by
  show ("CASE WHEN " ++ c.textAt 0 ++ " THEN " ++ t.textAt 0 ++ " ELSE " ++ o.textAt 0 ++
    " END").toList = _
  simp [charsAt, Mark.text]

lemma charsAt_rows (function : Aggregate) (distinct : Bool) :
    (Expression.aggregate function distinct none).charsAt 0 =
      (function.name ++ "(").toList ++ "*)".toList := by
  show (function.name ++ "(*)").toList = _
  simp

lemma charsAt_aggregate (function : Aggregate) (distinct : Bool) :
    (Expression.aggregate function distinct (some e)).charsAt 0 =
      (function.name ++ "(").toList ++ ((if distinct then "DISTINCT " else "").toList ++
        (e.charsAt 0 ++ Mark.closeParenthesis.text.toList)) := by
  show (function.name ++ "(" ++ (if distinct then "DISTINCT " else "") ++ e.textAt 0 ++
    ")").toList = _
  simp [charsAt, Mark.text]

lemma charsOf_cons (es : List Expression) : charsOf (e :: es) =
    e.charsAt 0 ++ if es.isEmpty then [] else Mark.comma.text.toList ++ charsOf es := by
  cases es <;> simp [charsAt, charsOf, expressionTexts, Mark.text]

end Parts

end Expression

/-! ## Reading from left to right

The reader takes an operand and then suffixes, as long as these bind strongly enough.  That an
expression is read is therefore said together with what stands behind it, and with the strength that
its place asks for. -/

namespace TextReader

variable {e : Expression} {least : Nat} {cs rest : List Char}

/-- A text begins with an expression, and what stands behind goes on with it. -/
def Begins (least : Nat) (cs : List Char) (e : Expression) (rest : List Char) : Prop :=
  ∀ e' rest', Takes (suffixes least e) rest e' rest' → Takes (expression least) cs e' rest'

lemma begins_of_operand (h : Takes operand cs e rest) : Begins least cs e rest :=
  fun _ _ hsuffixes => .step (.bind h hsuffixes)

/-- An expression ends in front of a mark that no place takes that asks for so much. -/
lemma suffixes_other (h : Marked (fun m => m.suffix? least = none) rest) :
    Takes (suffixes least e) rest e rest :=
  .step (.after (mark?_other h) (.done fun _ => rfl))

lemma suffixes_text {s : Suffix} {base e' : Expression} {more rest' : List Char}
    (h : least ≤ s.strength) (happlied : Takes (applied s base) more e rest)
    (hsuffixes : Takes (suffixes least e) rest e' rest') :
    Takes (suffixes least base) (s.text.toList ++ more) e' rest' := by
  have hmark : Mark.suffix? least (.suffix s) = some s := if_pos h
  have hnext : mark? (Mark.suffix? least) (s.text.toList ++ more) = some (some s, more) :=
    mark?_text (m := .suffix s) hmark
  exact .step (.after hnext (.bind happlied hsuffixes))

end TextReader

open TextReader (Takes Begins)

/-- The text of an expression at a place is read as the expression, and what stands behind goes on
with it.  The reader may ask for less than the place did: the first operand of an operator is
written for the operator, and read for the place of both. -/
structure Expression.Reads (e : Expression) : Prop where
  read : ∀ {least place : Nat} {rest : List Char}, least ≤ place → place ≤ atomStrength →
    Stops place rest → Begins least (e.charsAt place ++ rest) e rest

/-- A place that asks for more than a mark offers does not take it. -/
lemma Mark.suffix?_eq_none {least : Nat} {m : Mark} (h : ∀ s, m = .suffix s → s.strength < least) :
    m.suffix? least = none := by
  cases m with
  | suffix s => exact if_neg (Nat.not_le.2 (h s rfl))
  | _ => rfl

/-- A place that binds as strong as no suffix takes none that stops it. -/
lemma Stops.suffix? {place : Nat} {rest : List Char} (h : Stops place rest)
    (hfree : ∀ s : Suffix, s.strength ≠ place) :
    Marked (fun m => m.suffix? place = none) rest :=
  h.imp fun m hm => Mark.suffix?_eq_none fun s hs =>
    Nat.lt_of_le_of_ne (by rwa [hs] at hm) (hfree s)

lemma Stops.suffix?_succ {place : Nat} {rest : List Char} (h : Stops place rest) :
    Marked (fun m => m.suffix? (place + 1) = none) rest :=
  h.imp fun m hm => Mark.suffix?_eq_none fun s hs => Nat.lt_succ_of_le (by rwa [hs] at hm)

lemma Suffix.strength_ne (s : Suffix) :
    s.strength ≠ 0 ∧ s.strength ≠ notStrength ∧ s.strength ≠ signStrength := by
  cases s with
  | binary op => cases op <;> decide
  | _ => decide

namespace Expression.Reads

variable {e : Expression} {place : Nat} {rest : List Char}

/-- All of an expression is read where no suffix follows that its place takes. -/
lemma whole (h : e.Reads) (hplace : place ≤ atomStrength) (hstops : Stops place rest)
    (hrest : Marked (fun m => m.suffix? place = none) rest) :
    Takes (TextReader.expression place) (e.charsAt place ++ rest) e rest :=
  h.read (Nat.le_refl _) hplace hstops e rest (TextReader.suffixes_other hrest)

/-- Behind a prefix, all of an expression is read where its place stops. -/
lemma behind (h : e.Reads) (hplace : place ≤ atomStrength) (hstops : Stops place rest)
    (hfree : ∀ s : Suffix, s.strength ≠ place) :
    Takes (TextReader.expression place) (e.charsAt place ++ rest) e rest :=
  h.whole hplace hstops (hstops.suffix? hfree)

/-- An expression is read up to what goes on with no expression. -/
lemma text (h : e.Reads) (hrest : Stops 0 rest) :
    Takes (TextReader.expression 0) (e.text.toList ++ rest) e rest :=
  h.behind (Nat.zero_le _) hrest fun s => s.strength_ne.1

/-- An expression is read in front of a mark that is no suffix. -/
lemma before (h : e.Reads) (m : Mark) (hm : m.strength = 0) (rest : List Char) :
    Takes (TextReader.expression 0) (e.text.toList ++ (m.text.toList ++ rest)) e
      (m.text.toList ++ rest) :=
  h.text (.text (Nat.le_of_eq hm))

/-- It suffices to read the text without parentheses around it. -/
lemma of_own (h : ∀ {least : Nat} {rest : List Char}, least ≤ e.strength → Stops e.strength rest →
    Begins least (e.charsAt 0 ++ rest) e rest) : e.Reads := by
  refine ⟨fun {least place rest} hleast hplace hrest => ?_⟩
  rw [e.charsAt_eq hplace]
  split
  -- between parentheses the inner text stops at the second one, whatever stands behind it
  · have hclose : Stops 0 (Mark.closeParenthesis.text.toList ++ rest) := .text (Nat.le_refl 0)
    have hinner : Takes (TextReader.expression 0)
        (e.charsAt 0 ++ (Mark.closeParenthesis.text.toList ++ rest)) e
        (Mark.closeParenthesis.text.toList ++ rest) :=
      h (Nat.zero_le _) (hclose.mono (Nat.zero_le _)) _ _
        (TextReader.suffixes_other (hclose.suffix? fun s => s.strength_ne.1))
    refine TextReader.begins_of_operand ?_
    rw [List.cons_append, List.append_assoc]
    refine .step (.after rfl ?_)
    refine .bind hinner ?_
    exact .after (TextReader.expect_text _ rest) (.done fun _ => rfl)
  · rename_i hlt
    have hle := Nat.not_lt.1 hlt
    exact h (Nat.le_trans hleast hle) (hrest.mono hle)

end Expression.Reads

/-! ## What an expression begins with

In front of an operand the reader looks for keywords and signs.  An expression that begins with none
of them is taken for what it is. -/

namespace Expression

lemma allLegible_iff {es : List Expression} :
    allLegible es = true ↔ ∀ e ∈ es, e.isLegible = true := by
  induction es with
  | nil => simp [allLegible]
  | cons e es ih => simp [allLegible, ih]

/-- An expression in parentheses begins with one. -/
lemma fronts_at {e : Expression} (h : ∀ rest, Fronts (e.charsAt 0 ++ rest)) {place : Nat}
    (hplace : place ≤ atomStrength) (rest : List Char) : Fronts (e.charsAt place ++ rest) := by
  rw [e.charsAt_eq hplace]
  split
  · exact fronts_cons _ (by decide)
  · exact h rest

/-- The place of the first operand of an operator. -/
lemma leftPlace_le (op : Operator) :
    (if op.strength = testStrength then op.strength + 1 else op.strength) ≤ atomStrength := by
  cases op <;> decide

/-- **An expression begins neither with a mark nor with a word in front of expressions.** -/
theorem fronts : (e : Expression) → e.isLegible = true → (rest : List Char) →
    Fronts (e.charsAt 0 ++ rest)
  | .ident name, h, rest => by
      have htext : (Expression.ident name).charsAt 0 = '`' :: ((identText name).toList.drop 1) := by
        show (identText name).toList = _
        simp [identText]
      rw [htext]
      exact fronts_cons _ (by decide)
  | .field base name, h, rest => by
      rw [charsAt_field, List.append_assoc]
      exact fronts_at (fronts base h) (Nat.le_refl _) _
  | .placeholder name, h, rest => by
      rw [charsAt_placeholder]
      exact fronts_cons _ (by decide)
  | .literal .null, h, rest => fronts_cons _ (by decide)
  | .literal (.bool true), h, rest => fronts_cons _ (by decide)
  | .literal (.bool false), h, rest => fronts_cons _ (by decide)
  | .literal (.int n), h, rest => by
      obtain ⟨k, c, cs, -, htext, hcs, hdigits, -⟩ := Literal.exists_digits (of_decide_eq_true h)
      have hchars : (Expression.literal (.int n)).charsAt 0 = c :: cs := htext.trans hcs
      rw [hchars]
      refine fronts_cons _ fun hc => ?_
      have hdigit := hdigits c List.mem_cons_self
      rw [not_isDigit_of_mem_otherFronts hc] at hdigit
      cases hdigit
  | .binary op left right, h, rest => by
      rw [charsAt_binary, List.append_assoc]
      exact fronts_at (fronts left (Bool.and_eq_true_iff.1 h).1) (leftPlace_le op) _
  | .not e, h, rest => by
      rw [charsAt_not]
      exact fronts_cons _ (by decide)
  | .neg e, h, rest => by
      rw [charsAt_neg]
      exact fronts_cons _ (by decide)
  | .valued e, h, rest => by
      rw [charsAt_valued, List.append_assoc]
      exact fronts_at (fronts e h) (by decide) _
  | .notValued e, h, rest => by
      rw [charsAt_notValued, List.append_assoc]
      exact fronts_at (fronts e h) (by decide) _
  | .inList e list, h, rest => by
      rw [charsAt_inList, List.append_assoc]
      exact fronts_at (fronts e (Bool.and_eq_true_iff.1 h).1) (by decide) _
  | .like e pattern, h, rest => by
      rw [charsAt_like, List.append_assoc]
      exact fronts_at (fronts e (Bool.and_eq_true_iff.1 h).1) (by decide) _
  | .call name args, h, rest => by
      simp only [isLegible, Bool.and_eq_true] at h
      rw [charsAt_call, List.append_assoc]
      exact fronts_call _ h.1.1
  | .aggregate function distinct none, h, rest => by
      rw [charsAt_rows]
      cases function <;> exact fronts_cons _ (by decide)
  | .aggregate function distinct (some arg), h, rest => by
      rw [charsAt_aggregate]
      cases function <;> exact fronts_cons _ (by decide)
  | .caseWhen c t o, h, rest => by
      rw [charsAt_caseWhen]
      exact fronts_cons _ (by decide)

end Expression

/-! ## Reading an expression

The induction is on the expression, and its statement is about any place and anything behind.
Suffixes are where the first operand has been read already and the rest has still to come. -/

namespace Expression

variable {e base : Expression} {es : List Expression} {least place : Nat} {rest : List Char}

/-- An expression goes on with a suffix that its place takes. -/
lemma Reads.suffixed (hbase : base.Reads) (s : Suffix) (hleast : least ≤ s.strength)
    (hstrength : s.strength ≤ place) (hplace : place ≤ atomStrength) {more : List Char}
    (happlied : Takes (TextReader.applied s base) more e rest) :
    Begins least (base.charsAt place ++ (s.text.toList ++ more)) e rest := by
  have hstops : Stops place (s.text.toList ++ more) := Marked.text (m := .suffix s) hstrength
  intro e' rest' hsuffixes
  refine hbase.read (Nat.le_trans hleast hstrength) hplace hstops e' rest' ?_
  exact TextReader.suffixes_text hleast happlied hsuffixes

/-- Expressions between commas are read up to a mark that is neither a comma nor a suffix. -/
lemma expressions_text (hes : es ≠ []) (hreads : ∀ e ∈ es, e.Reads)
    (hrest : Marked (fun m => m.strength ≤ 0 ∧ m ≠ .comma) rest) :
    Takes TextReader.expressions (charsOf es ++ rest) es rest := by
  induction es with
  | nil => exact absurd rfl hes
  | cons e es ih =>
      obtain ⟨hfirst, hreads⟩ := List.forall_mem_cons.1 hreads
      rw [charsOf_cons]
      cases es with
      | nil =>
          rw [List.isEmpty_nil, if_pos rfl, List.append_nil]
          refine .step (.bind (hfirst.text (hrest.imp fun _ hm => hm.1)) ?_)
          exact .after (TextReader.has_other (hrest.imp fun _ hm => hm.2)) (.done fun _ => rfl)
      | cons e' es =>
          rw [List.isEmpty_cons, if_neg Bool.false_ne_true, List.append_assoc, List.append_assoc]
          refine .step (.bind (hfirst.before .comma rfl _) ?_)
          refine .after (TextReader.has_text .comma _) ?_
          exact .bind (ih (List.cons_ne_nil _ _) hreads) (.done fun _ => rfl)

/-- Expressions are read up to a closing bracket. -/
lemma listed_text {close : Mark} (hclose : close.strength ≤ 0 ∧ close ≠ .comma)
    (hreads : ∀ e ∈ es, e.Reads) (hlegible : ∀ e ∈ es, e.isLegible = true) :
    Takes (TextReader.listed close) (charsOf es ++ (close.text.toList ++ rest)) es rest := by
  cases es with
  | nil => exact .step (.after (TextReader.has_text close rest) (.done fun _ => rfl))
  | cons e es =>
      have hmark : nextMark (charsOf (e :: es) ++ (close.text.toList ++ rest)) = none := by
        rw [charsOf_cons, List.append_assoc]
        exact (fronts e (hlegible e List.mem_cons_self) _).mark
      refine .step (.after (TextReader.has_of_nextMark hmark) ?_)
      refine .bind (expressions_text (List.cons_ne_nil _ _) hreads (.text hclose)) ?_
      exact .after (TextReader.expect_text close rest) (.done fun _ => rfl)

open TextReader (begins_of_operand)

mutual

/-- **The text of a legible expression is read as the expression.** -/
theorem reads_text : (e : Expression) → e.isLegible = true → e.Reads
  | .ident name, h => .of_own fun _ hrest => by
      refine begins_of_operand (.step ?_)
      exact .after (nextOpening_ident name hrest) (.done fun _ => rfl)
  | .field base name, h => .of_own fun hleast hrest => by
      rw [charsAt_field, List.append_assoc, List.append_assoc]
      refine (reads_text base h).suffixed .field hleast (Nat.le_refl _) (Nat.le_refl _) (.step ?_)
      exact .after (TextReader.ident_text name hrest) (.done fun _ => rfl)
  | .placeholder name, h => .of_own fun _ hrest => by
      refine begins_of_operand (.step ?_)
      rw [charsAt_placeholder]
      exact .after (nextOpening_placeholder h hrest) (.done fun _ => rfl)
  | .literal .null, h => .of_own fun _ hrest => by
      refine begins_of_operand (.step ?_)
      exact .after (nextOpening_null hrest) (.done fun _ => rfl)
  | .literal (.bool b), h => .of_own fun _ hrest => by
      refine begins_of_operand (.step ?_)
      exact .after (nextOpening_bool b hrest) (.done fun _ => rfl)
  | .literal (.int n), h => .of_own fun _ hrest => by
      obtain ⟨k, rfl, hopening⟩ := nextOpening_number (of_decide_eq_true h) hrest
      refine begins_of_operand (.step ?_)
      exact .after hopening (.done fun _ => rfl)
  | .binary op left right, h => .of_own fun hleast hrest => by
      obtain ⟨hl, hr⟩ := Bool.and_eq_true_iff.1 h
      have hright : op.strength + 1 ≤ atomStrength := by cases op <;> decide
      -- a comparison asks for more than its own strength of its first operand
      have hstrength : op.strength ≤
          if op.strength = testStrength then op.strength + 1 else op.strength := by
        split <;> omega
      rw [charsAt_binary, List.append_assoc, List.append_assoc]
      refine (reads_text left hl).suffixed (.binary op) hleast hstrength (leftPlace_le op)
        (.step ?_)
      exact .bind ((reads_text right hr).whole hright (hrest.mono (Nat.le_succ _))
        hrest.suffix?_succ) (.done fun _ => rfl)
  | .not e, h => .of_own fun _ hrest => by
      refine begins_of_operand (.step ?_)
      rw [charsAt_not, List.append_assoc]
      refine .after (nextOpening_not _) ?_
      exact .bind ((reads_text e h).behind (by decide) hrest fun s => s.strength_ne.2.1)
        (.done fun _ => rfl)
  | .neg e, h => .of_own fun _ hrest => by
      refine begins_of_operand (.step ?_)
      rw [charsAt_neg, List.cons_append]
      refine .after rfl ?_
      exact .bind ((reads_text e h).behind (by decide) hrest fun s => s.strength_ne.2.2)
        (.done fun _ => rfl)
  | .valued e, h => .of_own fun hleast hrest => by
      rw [charsAt_valued, List.append_assoc]
      refine (reads_text e h).suffixed .valued hleast (Nat.le_succ _) (by decide) (.step ?_)
      exact .done fun _ => rfl
  | .notValued e, h => .of_own fun hleast hrest => by
      rw [charsAt_notValued, List.append_assoc]
      refine (reads_text e h).suffixed .notValued hleast (Nat.le_succ _) (by decide) (.step ?_)
      exact .done fun _ => rfl
  | .inList e list, h => .of_own fun hleast hrest => by
      obtain ⟨he, hlist⟩ := Bool.and_eq_true_iff.1 h
      rw [charsAt_inList, List.append_assoc, List.append_assoc, List.append_assoc]
      refine (reads_text e he).suffixed .inList hleast (Nat.le_succ _) (by decide) (.step ?_)
      exact .bind (listed_text (by decide) (all_reads_text list hlist) (allLegible_iff.1 hlist))
        (.done fun _ => rfl)
  | .like e pattern, h => .of_own fun hleast hrest => by
      obtain ⟨he, hpattern⟩ := Bool.and_eq_true_iff.1 h
      rw [charsAt_like, List.append_assoc, List.append_assoc]
      refine (reads_text e he).suffixed .like hleast (Nat.le_succ _) (by decide) (.step ?_)
      exact .bind ((reads_text pattern hpattern).whole (by decide) (hrest.mono (Nat.le_succ _))
        hrest.suffix?_succ) (.done fun _ => rfl)
  | .call name args, h => .of_own fun _ hrest => by
      simp only [isLegible, Bool.and_eq_true, Option.isNone_iff_eq_none] at h
      obtain ⟨⟨hname, hfunction⟩, hargs⟩ := h
      refine begins_of_operand (.step ?_)
      rw [charsAt_call, List.append_assoc, List.cons_append, List.append_assoc]
      refine .after (nextOpening_call hname hfunction) ?_
      exact .bind (listed_text (by decide) (all_reads_text args hargs) (allLegible_iff.1 hargs))
        (.done fun _ => rfl)
  | .aggregate function distinct none, h => .of_own fun _ hrest => by
      simp only [isLegible, Bool.and_eq_true, decide_eq_true_eq, Bool.not_eq_true'] at h
      obtain ⟨rfl, rfl⟩ := h
      refine begins_of_operand (.step ?_)
      rw [charsAt_rows, List.append_assoc]
      exact .after (nextOpening_rows _ _) (.done fun _ => rfl)
  | .aggregate function distinct (some arg), h => .of_own fun _ hrest => by
      refine begins_of_operand (.step ?_)
      rw [charsAt_aggregate, List.append_assoc, List.append_assoc, List.append_assoc]
      refine .after (nextOpening_aggregate_arg function distinct (fronts arg h _)) ?_
      refine .bind ((reads_text arg h).before .closeParenthesis rfl _) ?_
      exact .after (TextReader.expect_text _ _) (.done fun _ => rfl)
  | .caseWhen c t o, h => .of_own fun _ hrest => by
      simp only [isLegible, Bool.and_eq_true] at h
      obtain ⟨⟨hc, ht⟩, ho⟩ := h
      refine begins_of_operand (.step ?_)
      rw [charsAt_caseWhen]
      simp only [List.append_assoc]
      refine .after (nextOpening_caseWhen _) ?_
      refine .bind ((reads_text c hc).before .caseThen rfl _) ?_
      refine .after (TextReader.expect_text _ _) ?_
      refine .bind ((reads_text t ht).before .caseElse rfl _) ?_
      refine .after (TextReader.expect_text _ _) ?_
      refine .bind ((reads_text o ho).before .caseEnd rfl _) ?_
      exact .after (TextReader.expect_text _ _) (.done fun _ => rfl)

/-- The texts of legible expressions are read as the expressions. -/
theorem all_reads_text : (es : List Expression) → allLegible es = true → ∀ e ∈ es, e.Reads
  | [], _ => fun _ he => by cases he
  | e :: es, h => by
      obtain ⟨he, hes⟩ := Bool.and_eq_true_iff.1 h
      exact List.forall_mem_cons.2 ⟨reads_text e he, all_reads_text es hes⟩

end

end Expression
end EntityQuery
