import EntityQuery.Proofs.Statement.Clauses
import Mathlib.Tactic.Common

/-!
# Comments in the texts of statements

Two dashes begin a comment, unless they stand between backticks.  The operators of a statement are
written with blanks around them, but a sign stands directly in front of its operand.  So the one way
to write two dashes is a sign in front of another one.

* `Expression.children` are the expressions directly below one, `Expression.IsPartOf` those at any
  depth, and `Statement.Holds` says the same of a statement.
* `OpensComment` says where two dashes begin a comment, and `scan` finds them.
* `Expression.DoublesSign`: a negation within an expression has an operand that begins with a sign.
* `Expression.scans_charsAt`: the text of an expression has two dashes outside of backticks exactly
  if the expression doubles a sign.
* `Statement.opensComment_text`: so does the text of a statement.
-/

namespace EntityQuery

/-! ## Parts of expressions and statements

What is said of a statement is said of some expression that occurs in it.  The expressions directly
below another one are listed, and an induction on them has one case, in place of one for each
constructor. -/

namespace Expression

/-- The expressions directly below an expression. -/
def children : Expression → List Expression
  | .ident _ | .placeholder _ | .literal _ | .aggregate _ _ none => []
  | .field e _ | .not e | .neg e | .valued e | .notValued e | .aggregate _ _ (some e) => [e]
  | .binary _ left right => [left, right]
  | .inList e list => e :: list
  | .like e pattern => [e, pattern]
  | .call _ args => args
  | .caseWhen c t o => [c, t, o]

/-- An expression is another one, or occurs in it. -/
inductive IsPartOf (part : Expression) : Expression → Prop
  | self : IsPartOf part part
  | child {c e : Expression} (hc : c ∈ e.children) (h : IsPartOf part c) : IsPartOf part e

lemma isPartOf_iff {part e : Expression} :
    part.IsPartOf e ↔ part = e ∨ ∃ c ∈ e.children, part.IsPartOf c := by
  constructor
  · rintro (_ | ⟨hc, h⟩)
    · exact .inl rfl
    · exact .inr ⟨_, hc, h⟩
  · rintro (rfl | ⟨c, hc, h⟩)
    · exact .self
    · exact .child hc h

@[simp] lemma isPartOf_ident {part : Expression} {name : String} :
    part.IsPartOf (.ident name) ↔ part = .ident name :=
  isPartOf_iff.trans (by simp [children])

@[simp] lemma isPartOf_field {part base : Expression} {name : String} :
    part.IsPartOf (.field base name) ↔ part = .field base name ∨ part.IsPartOf base :=
  isPartOf_iff.trans (by simp [children])

@[simp] lemma isPartOf_neg {part operand : Expression} :
    part.IsPartOf (.neg operand) ↔ part = .neg operand ∨ part.IsPartOf operand :=
  isPartOf_iff.trans (by simp [children])

lemma sizeOf_child {c e : Expression} (h : c ∈ e.children) : sizeOf c < sizeOf e := by
  have hlist : ∀ {es : List Expression}, c ∈ es → sizeOf c < sizeOf es := List.sizeOf_lt_of_mem
  cases e with
  | ident | placeholder | literal => cases h
  | not | neg | valued | notValued =>
      cases List.mem_singleton.1 h
      simp
  | field =>
      cases List.mem_singleton.1 h
      simp only [field.sizeOf_spec]
      omega
  | aggregate function distinct arg =>
      cases arg with
      | none => cases h
      | some arg =>
          cases List.mem_singleton.1 h
          simp only [aggregate.sizeOf_spec, Option.some.sizeOf_spec]
          omega
  | binary op left right =>
      simp only [binary.sizeOf_spec]
      simp only [children, List.mem_cons, List.not_mem_nil, or_false] at h
      rcases h with rfl | rfl <;> omega
  | like e pattern =>
      simp only [like.sizeOf_spec]
      simp only [children, List.mem_cons, List.not_mem_nil, or_false] at h
      rcases h with rfl | rfl <;> omega
  | caseWhen c t o =>
      simp only [caseWhen.sizeOf_spec]
      simp only [children, List.mem_cons, List.not_mem_nil, or_false] at h
      rcases h with rfl | rfl | rfl <;> omega
  | inList e list =>
      simp only [inList.sizeOf_spec]
      rcases List.mem_cons.1 h with rfl | h
      · omega
      · have := hlist h
        omega
  | call name args =>
      have hargs : c ∈ args := h
      have := hlist hargs
      simp only [call.sizeOf_spec]
      omega

/-- What passes from the children of an expression to itself holds of all expressions. -/
theorem childInduction {P : Expression → Prop} (step : ∀ e, (∀ c ∈ e.children, P c) → P e)
    (e : Expression) : P e :=
  step e fun c hc =>
    have := sizeOf_child hc
    childInduction step c
termination_by sizeOf e

end Expression

mutual

/-- The expressions of the clauses and terms of a statement and of the statements in it. -/
def Statement.allExpressions : Statement → List Expression
  | .select source terms clauses =>
    source.allExpressions ++ allTermExpressions terms ++ clauses.expressions
  | .compound _ left right => left.allExpressions ++ right.allExpressions

/-- The expressions of the statement of a source. -/
def Source.allExpressions : Source → List Expression
  | .keyspace .. => []
  | .statement s _ => s.allExpressions

/-- The expressions of a term and of the statement of its source. -/
def Term.allExpressions : Term → List Expression
  | .join _ source condition => source.allExpressions ++ [condition]
  | .unnest _ array _ => [array]

/-- The expressions of several terms. -/
def allTermExpressions : List Term → List Expression
  | [] => []
  | t :: ts => t.allExpressions ++ allTermExpressions ts

end

/-- An expression occurs in a statement, at any depth. -/
def Statement.Holds (s : Statement) (part : Expression) : Prop :=
  ∃ e ∈ s.allExpressions, part.IsPartOf e

/-! ## Comments

A scanner decides whether a text opens a comment: it knows whether it is between backticks and
whether the last character was a dash.  Its places compose, so that texts can be scanned part by
part. -/

/-- Two dashes stand next to each other in a text, behind as many backticks as `parity` says: an
even number if they are outside of backticks. -/
def HasDashes (parity : Nat) (cs : List Char) : Prop :=
  ∃ before after, cs = before ++ '-' :: '-' :: after ∧ before.count '`' % 2 = parity

/-- A text opens a comment: it has two dashes outside of backticks. -/
def OpensComment (text : String) : Prop := HasDashes 0 text.toList

/-- Where the reading of a text has got to. -/
inductive TextPlace where
  | outside
  /-- Outside of backticks, behind a dash. -/
  | dashed
  | quoted
  | commented
deriving DecidableEq, Repr

/-- The place behind a further character. -/
def TextPlace.step : TextPlace → Char → TextPlace
  | .outside, c => if c = '-' then .dashed else if c = '`' then .quoted else .outside
  | .dashed, c => if c = '-' then .commented else if c = '`' then .quoted else .outside
  | .quoted, c => if c = '`' then .outside else .quoted
  | .commented, _ => .commented

/-- The place behind some characters. -/
def scan (place : TextPlace) (cs : List Char) : TextPlace := cs.foldl TextPlace.step place

@[simp] lemma scan_append (place : TextPlace) (cs cs' : List Char) :
    scan place (cs ++ cs') = scan (scan place cs) cs' :=
  List.foldl_append ..

@[simp] lemma scan_commented (cs : List Char) : scan .commented cs = .commented := by
  induction cs with
  | nil => rfl
  | cons c cs ih => exact ih

/-- Behind a dash, only another dash makes a difference. -/
lemma scan_dashed {c : Char} (h : c ≠ '-') (cs : List Char) :
    scan .dashed (c :: cs) = scan .outside (c :: cs) := by
  simp [scan, TextPlace.step, h]

lemma hasDashes_cons {parity : Nat} (hparity : parity < 2) {c : Char} {cs : List Char} :
    HasDashes parity (c :: cs) ↔
      parity = 0 ∧ c = '-' ∧ cs.head? = some '-' ∨
        HasDashes (if c = '`' then 1 - parity else parity) cs := by
  constructor
  · rintro ⟨_ | ⟨d, before⟩, after, heq, hcount⟩
    · cases heq
      exact .inl ⟨hcount.symm, rfl, rfl⟩
    · obtain ⟨rfl, rfl⟩ := List.cons.inj heq
      refine .inr ⟨before, after, rfl, ?_⟩
      by_cases hc : c = '`' <;> simp [hc] at hcount ⊢ <;> omega
  · rintro (⟨rfl, rfl, hhead⟩ | ⟨before, after, rfl, hcount⟩)
    · obtain ⟨after, rfl⟩ : ∃ after, cs = '-' :: after := by
        cases cs with
        | nil => cases hhead
        | cons d cs => exact ⟨cs, by rw [Option.some.inj hhead]⟩
      exact ⟨[], after, rfl, rfl⟩
    · refine ⟨c :: before, after, rfl, ?_⟩
      by_cases hc : c = '`' <;> simp [hc] at hcount ⊢ <;> omega

/-- **Reading a text from left to right finds the dashes that open a comment.** -/
lemma scan_eq_commented (cs : List Char) :
    (scan .outside cs = .commented ↔ HasDashes 0 cs) ∧
      (scan .dashed cs = .commented ↔ cs.head? = some '-' ∨ HasDashes 0 cs) ∧
      (scan .quoted cs = .commented ↔ HasDashes 1 cs) := by
  induction cs with
  | nil =>
      have hnone : ∀ parity, ¬ HasDashes parity [] := by
        rintro parity ⟨before, after, heq, -⟩
        cases before <;> cases heq
      simp [scan, hnone]
  | cons c cs ih =>
      obtain ⟨houtside, hdashed, hquoted⟩ := ih
      rw [hasDashes_cons (by decide), hasDashes_cons (by decide)]
      by_cases hdash : c = '-'
      · subst hdash
        have hstep : scan .outside ('-' :: cs) = scan .dashed cs := rfl
        have hopen : scan .dashed ('-' :: cs) = .commented := scan_commented cs
        have hinside : scan .quoted ('-' :: cs) = scan .quoted cs := rfl
        simp [hstep, hopen, hinside, hdashed, hquoted]
      · by_cases htick : c = '`'
        · subst htick
          have hstep : scan .outside ('`' :: cs) = scan .quoted cs := rfl
          have hdash : scan .dashed ('`' :: cs) = scan .quoted cs := rfl
          have hclose : scan .quoted ('`' :: cs) = scan .outside cs := rfl
          simp [hstep, hdash, hclose, houtside, hquoted]
        · have hstep : scan .outside (c :: cs) = scan .outside cs := by
            simp [scan, TextPlace.step, hdash, htick]
          have hinside : scan .quoted (c :: cs) = scan .quoted cs := by
            simp [scan, TextPlace.step, htick]
          simp [scan_dashed hdash, hstep, hinside, houtside, hquoted, hdash, htick]

/-! ## Signs

Whether an operand begins with a sign depends on whether it is put in parentheses.  A number below
zero begins with one, and so does a negation. -/

namespace Expression

/-- Whether the text of an expression begins with a sign where it stands behind one. -/
def isSigned : Expression → Bool
  | .neg _ => true
  | .literal (.int n) => decide (n < 0)
  | .field base _ => base.strength == atomStrength && base.isSigned
  | _ => false

/-- A negation within an expression has an operand that begins with a sign. -/
def DoublesSign (e : Expression) : Prop := ∃ operand, (neg operand).IsPartOf e ∧ operand.isSigned

/-- Placeholders and functions within an expression are named by identifiers. -/
def IsNamed (e : Expression) : Prop :=
  (∀ name, (placeholder name).IsPartOf e → isIdentifier name = true) ∧
    ∀ name args, (call name args).IsPartOf e → isIdentifier name = true

lemma IsNamed.child {c e : Expression} (h : e.IsNamed) (hc : c ∈ e.children) : c.IsNamed :=
  ⟨fun name hname => h.1 name (.child hc hname),
    fun name args hcall => h.2 name args (.child hc hcall)⟩

lemma doublesSign_iff {e : Expression} : e.DoublesSign ↔
    (∃ operand, neg operand = e ∧ operand.isSigned) ∨ ∃ c ∈ e.children, c.DoublesSign := by
  simp only [DoublesSign]
  constructor
  · rintro ⟨operand, hpart, hsigned⟩
    rcases isPartOf_iff.1 hpart with rfl | ⟨c, hc, hpart⟩
    · exact .inl ⟨operand, rfl, hsigned⟩
    · exact .inr ⟨c, hc, operand, hpart, hsigned⟩
  · rintro (⟨operand, rfl, hsigned⟩ | ⟨c, hc, operand, hpart, hsigned⟩)
    · exact ⟨operand, .self, hsigned⟩
    · exact ⟨operand, .child hc hpart, hsigned⟩

end Expression

/-! ## Texts that double signs

One notion is kept for texts of all kinds.  It says that a text leaves backticks closed behind it,
and that it opens a comment exactly if one of some expressions doubles a sign; so it is preserved
when texts are put one behind the other. -/

/-- A text that begins outside of backticks and consists of some expressions: it ends outside of
backticks, and it opens a comment exactly if one of the expressions doubles a sign. -/
structure Scans (cs : List Char) (es : List Expression) : Prop where
  commented : (∃ e ∈ es, e.DoublesSign) → scan .outside cs = .commented
  outside : (¬ ∃ e ∈ es, e.DoublesSign) → scan .outside cs = .outside

namespace Scans

variable {cs cs' : List Char} {es es' : List Expression}

lemma append (h : Scans cs es) (h' : Scans cs' es') : Scans (cs ++ cs') (es ++ es') where
  commented hsome := by
    rw [scan_append]
    by_cases hfirst : ∃ e ∈ es, e.DoublesSign
    · rw [h.commented hfirst, scan_commented]
    · rw [h.outside hfirst]
      obtain ⟨e, he, hdoubles⟩ := hsome
      rcases List.mem_append.1 he with he | he
      · exact absurd ⟨e, he, hdoubles⟩ hfirst
      · exact h'.commented ⟨e, he, hdoubles⟩
  outside hnone := by
    rw [scan_append, h.outside fun ⟨e, he, hdoubles⟩ =>
      hnone ⟨e, List.mem_append_left _ he, hdoubles⟩]
    exact h'.outside fun ⟨e, he, hdoubles⟩ => hnone ⟨e, List.mem_append_right _ he, hdoubles⟩

/-- Only which expressions there are matters. -/
lemma congr (h : Scans cs es)
    (hes : (∃ e ∈ es', e.DoublesSign) ↔ ∃ e ∈ es, e.DoublesSign) : Scans cs es' :=
  ⟨fun hsome => h.commented (hes.1 hsome), fun hnone => h.outside fun hsome => hnone (hes.2 hsome)⟩

/-- A text without expressions. -/
lemma fixed (h : scan .outside cs = .outside) : Scans cs [] :=
  ⟨fun ⟨_, he, _⟩ => absurd he List.not_mem_nil, fun _ => h⟩

/-- A text of characters that are neither dashes nor backticks. -/
lemma plain (h : ∀ c ∈ cs, c ≠ '-' ∧ c ≠ '`') : Scans cs [] := by
  refine fixed ?_
  induction cs with
  | nil => rfl
  | cons c cs ih =>
      obtain ⟨⟨hdash, htick⟩, h⟩ := List.forall_mem_cons.1 h
      have hstep : scan .outside (c :: cs) = scan .outside cs := by
        simp [scan, TextPlace.step, hdash, htick]
      rw [hstep, ih h]

lemma ident (name : String) : Scans (identText name).toList [] := by
  refine fixed ?_
  have hquoted : ∀ cs : List Char,
      scan .quoted (cs.flatMap fun c => if c = '`' then ['`', '`'] else [c]) = .quoted := by
    intro cs
    induction cs with
    | nil => rfl
    | cons c cs ih =>
        rw [List.flatMap_cons, scan_append]
        by_cases hc : c = '`'
        · simpa [hc, scan, TextPlace.step] using ih
        · simpa [hc, scan, TextPlace.step] using ih
  rw [identText]
  simp only [String.toList_append, String.toList_ofList, scan_append]
  have hopen : scan .outside "`".toList = .quoted := rfl
  rw [hopen, hquoted]
  rfl

lemma identifier {name : String} (h : isIdentifier name = true) : Scans name.toList [] := by
  refine plain fun c hc => ?_
  have hword := List.all_eq_true.1 (isIdentifier_iff h).1 c hc
  constructor <;> rintro rfl <;> exact absurd hword (by decide)

end Scans

/-! ## Signs at the front

A dash at the end of one part and one at the front of the next would open a comment as well.  No
part ends with a dash but a sign, so it is only the front of its operand that matters. -/

/-- A number is written as digits, with a sign in front if it is negative. -/
lemma Literal.exists_chars (n : Int) : ∃ c cs, (∀ d ∈ c :: cs, d.isDigit = true) ∧
    (Literal.int n).text.toList = if n < 0 then '-' :: c :: cs else c :: cs := by
  by_cases hn : n < 0
  · obtain ⟨k, rfl⟩ := Int.eq_negSucc_of_lt_zero hn
    obtain ⟨_, c, cs, -, htext, hcs, hdigits, -⟩ :=
      Literal.exists_digits (n := (k + 1 : Nat)) (Int.natCast_nonneg _)
    refine ⟨c, cs, hdigits, ?_⟩
    rw [if_pos hn, ← hcs, ← htext]
    exact String.toList_append
  · obtain ⟨_, c, cs, -, htext, hcs, hdigits, -⟩ := Literal.exists_digits (Int.not_lt.1 hn)
    exact ⟨c, cs, hdigits, by rw [if_neg hn, htext, hcs]⟩

lemma ne_of_isDigit {c : Char} (h : c.isDigit = true) : c ≠ '-' ∧ c ≠ '`' := by
  constructor <;> rintro rfl <;> exact absurd h (by decide)

namespace Expression

lemma strength_le (e : Expression) : e.strength ≤ atomStrength := by
  cases e with
  | binary op left right => cases op <;> exact Nat.le_of_ble_eq_true rfl
  | _ => exact Nat.le_of_ble_eq_true rfl

/-- No expression has an empty text. -/
lemma charsAt_ne_nil (e : Expression) {place : Nat} (hplace : place ≤ atomStrength) :
    e.charsAt place ≠ [] := by
  have hident : ∀ name, (identText name).toList ≠ [] := by simp [identText]
  rw [e.charsAt_eq hplace]
  split
  · simp
  · cases e with
    | ident name => exact hident name
    | field base name => simp [charsAt_field, hident]
    | literal value =>
        intro hnil
        cases value with
        | null => cases hnil
        | bool b => cases b <;> cases hnil
        | int n =>
            obtain ⟨c, cs, -, htext⟩ := Literal.exists_chars n
            have hchars : (if n < 0 then '-' :: c :: cs else c :: cs) = [] := htext.symm.trans hnil
            split at hchars <;> cases hchars
    | aggregate function distinct arg =>
        cases arg <;> simp [charsAt_rows, charsAt_aggregate]
    | binary op left right => simp [charsAt_binary, Suffix.text]
    | placeholder name => simp [charsAt_placeholder]
    | not e => simp [charsAt_not]
    | neg e => simp [charsAt_neg]
    | valued e => simp [charsAt_valued, Suffix.text]
    | notValued e => simp [charsAt_notValued, Suffix.text]
    | inList e list => simp [charsAt_inList, Suffix.text]
    | like e pattern => simp [charsAt_like, Suffix.text]
    | call name args => simp [charsAt_call]
    | caseWhen c t o => simp [charsAt_caseWhen]

/-- An operand of a sign that stands without parentheses begins with a sign exactly if it is
signed. -/
lemma head?_charsAt_zero : (e : Expression) → e.IsNamed → signStrength ≤ e.strength →
    ((e.charsAt 0).head? = some '-' ↔ e.isSigned = true)
  | .ident name, _, _ => by
      have htext : (Expression.ident name).charsAt 0 = (identText name).toList := rfl
      simp [htext, identText, isSigned]
  | .field base name, h, _ => by
      have hfront : ((Expression.field base name).charsAt 0).head? = some '-' ↔
          (base.charsAt atomStrength).head? = some '-' := by
        rw [charsAt_field]
        cases base.charsAt atomStrength <;> simp [Suffix.text]
      rw [hfront, isSigned, base.charsAt_eq (Nat.le_refl _), Bool.and_eq_true, beq_iff_eq]
      by_cases hlt : base.strength < atomStrength
      · simp [hlt, Nat.ne_of_lt hlt]
      · have hatom := Nat.le_antisymm base.strength_le (Nat.not_lt.1 hlt)
        rw [if_neg hlt, head?_charsAt_zero base (h.child (List.mem_singleton_self _))
          (hatom ▸ Nat.le_of_ble_eq_true rfl)]
        exact (and_iff_right hatom).symm
  | .placeholder name, _, _ => by simp [charsAt_placeholder, isSigned]
  | .literal (.int n), _, _ => by
      obtain ⟨c, cs, hdigits, htext⟩ := Literal.exists_chars n
      have hchars : (Expression.literal (.int n)).charsAt 0 = _ := htext
      have hc := (ne_of_isDigit (hdigits c List.mem_cons_self)).1
      rw [hchars, isSigned, decide_eq_true_eq]
      split <;> simp_all
  | .literal .null, _, _ | .literal (.bool true), _, _ | .literal (.bool false), _, _ => by
      constructor <;> intro h <;> cases h
  | .neg e, _, _ => by simp [charsAt_neg, isSigned]
  | .call name args, h, _ => by
      obtain ⟨hword, c, cs, hname, -⟩ := isIdentifier_iff (h.2 name args .self)
      have hc : c ≠ '-' := by
        rintro rfl
        rw [hname] at hword
        exact absurd hword (by simp [isWordChar])
      simp [charsAt_call, hname, isSigned, hc]
  | .aggregate function distinct arg, _, _ => by
      have hfront : ∀ rest, ((function.name ++ "(").toList ++ rest).head? ≠ some '-' := by
        intro rest h
        cases function <;> cases h
      refine ⟨fun hdash => ?_, fun hsigned => by cases hsigned⟩
      cases arg with
      | none => exact absurd (charsAt_rows function distinct ▸ hdash) (hfront _)
      | some arg => exact absurd (charsAt_aggregate arg function distinct ▸ hdash) (hfront _)
  | .caseWhen c t o, _, _ => by simp [charsAt_caseWhen, isSigned]

/-- An operand of a sign begins with a sign exactly if it is signed. -/
lemma head?_charsAt_sign {e : Expression} (h : e.IsNamed) :
    (e.charsAt signStrength).head? = some '-' ↔ e.isSigned = true := by
  rw [e.charsAt_eq (Nat.le_of_ble_eq_true rfl)]
  by_cases hlt : e.strength < signStrength
  · have hunsigned : e.isSigned = false := by
      cases e with
      | binary | not | valued | notValued | inList | like => rfl
      | _ => exact absurd hlt (Nat.not_lt.2 (Nat.le_of_ble_eq_true rfl))
    simp [hlt, hunsigned]
  · rw [if_neg hlt]
    exact head?_charsAt_zero e h (Nat.not_lt.1 hlt)

end Expression

/-! ## The texts of expressions

The induction is on the expression, by its children.  In all cases but one the text has the children
with blanks, commas or parentheses between them; the exception is the negation. -/

namespace Scans

variable {cs : List Char} {e : Expression} {es : List Expression}

/-- Parentheses around a text change nothing. -/
lemma parentheses (h : Scans cs es) : Scans ('(' :: (cs ++ [')'])) es := by
  have hopen : Scans ['('] [] := .fixed rfl
  have hclose : Scans [')'] [] := .fixed rfl
  exact ((hopen.append h).append hclose).congr (by simp)

/-- The text of an expression at any place is that of the expression, or has parentheses around
it. -/
lemma at_place (h : Scans (e.charsAt 0) [e]) {place : Nat} (hplace : place ≤ atomStrength) :
    Scans (e.charsAt place) [e] := by
  rw [e.charsAt_eq hplace]
  split
  · exact h.parentheses
  · exact h

/-- What consists of the children of an expression consists of the expression, unless that is a
negation. -/
lemma of_children (h : Scans cs e.children) (hneg : ∀ operand, .neg operand ≠ e) :
    Scans cs [e] := by
  refine h.congr ?_
  simp only [List.mem_singleton, exists_eq_left]
  refine Expression.doublesSign_iff.trans (or_iff_right ?_)
  rintro ⟨operand, heq, -⟩
  exact hneg operand heq

/-- Texts between separators. -/
lemma intercalate {α : Type} {separator : String} (hseparator : Scans separator.toList [])
    {text : α → String} {parts : α → List Expression} {as : List α}
    (h : ∀ a ∈ as, Scans (text a).toList (parts a)) :
    Scans (separator.intercalate (as.map text)).toList (as.flatMap parts) := by
  induction as with
  | nil => exact .fixed rfl
  | cons a as ih =>
      obtain ⟨ha, has⟩ := List.forall_mem_cons.1 h
      rw [List.map_cons, intercalate_cons, String.toList_append, List.flatMap_cons]
      refine ha.append ?_
      cases as with
      | nil => exact .fixed rfl
      | cons a' as =>
          rw [List.map_cons, List.isEmpty_cons, if_neg Bool.false_ne_true, ← List.map_cons,
            String.toList_append]
          exact hseparator.append (ih has)

/-- The texts of expressions between commas. -/
lemma commas (h : ∀ e ∈ es, Scans (e.charsAt 0) [e]) : Scans (Expression.charsOf es) es := by
  have htexts : ∀ es : List Expression,
      expressionTexts es = ", ".intercalate (es.map Expression.text) := by
    intro es
    induction es with
    | nil => rfl
    | cons e es ih =>
        rw [List.map_cons, intercalate_cons, ← ih]
        cases es with
        | nil => exact (String.append_empty ..).symm
        | cons e' es => exact String.append_assoc ..
  have hcomma : Scans ", ".toList [] := .fixed rfl
  have htext : Scans (", ".intercalate (es.map Expression.text)).toList (es.flatMap fun e => [e]) :=
    hcomma.intercalate h
  rwa [List.flatMap_singleton', ← htexts] at htext

/-- The text of a literal. -/
lemma literal (value : Literal) : Scans value.text.toList [] := by
  cases value with
  | null => exact .fixed rfl
  | bool b => cases b <;> exact .fixed rfl
  | int n =>
      obtain ⟨c, cs, hdigits, htext⟩ := Literal.exists_chars n
      have hplain : Scans (c :: cs) [] := .plain fun d hd => ne_of_isDigit (hdigits d hd)
      rw [htext]
      split
      · refine .fixed ?_
        have hstep : scan .outside ('-' :: c :: cs) = scan .dashed (c :: cs) := rfl
        rw [hstep, scan_dashed (ne_of_isDigit (hdigits c List.mem_cons_self)).1]
        exact hplain.outside (by simp)
      · exact hplain

/-- A sign in front of an operand opens a comment if the operand begins with a sign. -/
lemma neg {e : Expression} (hnamed : e.IsNamed) (h : Scans (e.charsAt signStrength) [e]) :
    Scans ((Expression.neg e).charsAt 0) [.neg e] := by
  have hstep : scan .outside ((Expression.neg e).charsAt 0) =
      scan .dashed (e.charsAt signStrength) := by
    rw [Expression.charsAt_neg]
    rfl
  have hdoubles : (∃ e' ∈ [Expression.neg e], e'.DoublesSign) ↔
      e.isSigned = true ∨ ∃ e' ∈ [e], e'.DoublesSign := by
    simp only [List.mem_singleton, exists_eq_left]
    refine Expression.doublesSign_iff.trans (or_congr ?_ ?_)
    · exact ⟨fun ⟨_, heq, hsigned⟩ => by cases heq; exact hsigned, fun h => ⟨e, rfl, h⟩⟩
    · simp [Expression.children]
  have hhead := Expression.head?_charsAt_sign hnamed
  cases hcs : e.charsAt signStrength with
  | nil => exact absurd hcs (e.charsAt_ne_nil (Nat.le_of_ble_eq_true rfl))
  | cons c cs =>
      rw [hcs] at hstep hhead h
      by_cases hc : c = '-'
      · subst hc
        have hopen : scan .outside ((Expression.neg e).charsAt 0) = .commented :=
          hstep.trans (scan_commented cs)
        exact ⟨fun _ => hopen, fun hnone => absurd (hdoubles.2 (.inl (hhead.1 rfl))) hnone⟩
      · have hunsigned : e.isSigned ≠ true := fun hsigned => hc (Option.some.inj (hhead.2 hsigned))
        rw [scan_dashed hc] at hstep
        refine ⟨fun hsome => ?_, fun hnone => ?_⟩
        · exact hstep.trans (h.commented ((hdoubles.1 hsome).resolve_left hunsigned))
        · exact hstep.trans (h.outside fun hsome => hnone (hdoubles.2 (.inr hsome)))

end Scans

namespace Expression

/-- **The text of an expression opens a comment exactly if the expression doubles a sign.** -/
theorem scans_charsAt (e : Expression) (h : e.IsNamed) : Scans (e.charsAt 0) [e] := by
  induction e using childInduction with
  | step e ih =>
  have hchild : ∀ c ∈ e.children, ∀ place ≤ atomStrength, Scans (c.charsAt place) [c] :=
    fun c hc _ hplace => (ih c hc (h.child hc)).at_place hplace
  have htest : testStrength + 1 ≤ atomStrength := Nat.le_of_ble_eq_true rfl
  cases e with
  | ident name => exact (Scans.ident name).of_children nofun
  | field base name =>
      rw [charsAt_field]
      have hbase := hchild base (List.mem_singleton_self _) _ (Nat.le_refl _)
      have hdot : Scans Suffix.field.text.toList [] := .fixed rfl
      exact Scans.of_children (hbase.append (hdot.append (.ident name))) nofun
  | placeholder name =>
      rw [charsAt_placeholder]
      have hdollar : Scans ['$'] [] := .fixed rfl
      exact Scans.of_children (hdollar.append (.identifier (h.1 name .self))) nofun
  | literal value => exact (Scans.literal value).of_children nofun
  | binary op left right =>
      rw [charsAt_binary]
      have hleft := hchild left (by simp [children]) _ (leftPlace_le op)
      have hright := hchild right (by simp [children]) (op.strength + 1) (by cases op <;> decide)
      have hop : Scans (Suffix.binary op).text.toList [] := .fixed (by cases op <;> rfl)
      exact Scans.of_children (hleft.append (hop.append hright)) nofun
  | not e =>
      rw [charsAt_not]
      have hword : Scans "NOT ".toList [] := .fixed rfl
      exact Scans.of_children (hword.append (hchild e (List.mem_singleton_self _) _
        (Nat.le_of_ble_eq_true rfl))) nofun
  | neg e =>
      exact .neg (h.child (List.mem_singleton_self _))
        (hchild e (List.mem_singleton_self _) _ (Nat.le_of_ble_eq_true rfl))
  | valued e =>
      rw [charsAt_valued]
      have htext : Scans Suffix.valued.text.toList [] := .fixed rfl
      exact Scans.of_children ((hchild e (List.mem_singleton_self _) _ htest).append htext) nofun
  | notValued e =>
      rw [charsAt_notValued]
      have htext : Scans Suffix.notValued.text.toList [] := .fixed rfl
      exact Scans.of_children ((hchild e (List.mem_singleton_self _) _ htest).append htext) nofun
  | inList e list =>
      rw [charsAt_inList]
      have hopen : Scans Suffix.inList.text.toList [] := .fixed rfl
      have hclose : Scans Mark.closeBracket.text.toList [] := .fixed rfl
      have hlist : Scans (charsOf list) list :=
        .commas fun c hc => hchild c (List.mem_cons_of_mem _ hc) 0 (Nat.zero_le _)
      have hparts := (hchild e List.mem_cons_self _ htest).append
        (hopen.append (hlist.append hclose))
      exact (hparts.congr (by simp [children])).of_children nofun
  | like e pattern =>
      rw [charsAt_like]
      have htext : Scans Suffix.like.text.toList [] := .fixed rfl
      exact Scans.of_children ((hchild e (by simp [children]) _ htest).append
        (htext.append (hchild pattern (by simp [children]) _ htest))) nofun
  | call name args =>
      rw [charsAt_call]
      have hopen : Scans ['('] [] := .fixed rfl
      have hclose : Scans Mark.closeParenthesis.text.toList [] := .fixed rfl
      have hargs : Scans (charsOf args) args := .commas fun c hc => hchild c hc 0 (Nat.zero_le _)
      have hparts := (Scans.identifier (h.2 name args .self)).append
        (hopen.append (hargs.append hclose))
      exact (hparts.congr (by simp [children])).of_children nofun
  | aggregate function distinct arg =>
      have hname : Scans (function.name ++ "(").toList [] := .fixed (by cases function <;> rfl)
      cases arg with
      | none =>
          rw [charsAt_rows]
          have hstar : Scans "*)".toList [] := .fixed rfl
          exact Scans.of_children (hname.append hstar) nofun
      | some arg =>
          rw [charsAt_aggregate]
          have hdistinct : Scans (if distinct then "DISTINCT " else "").toList [] :=
            .fixed (by cases distinct <;> rfl)
          have hclose : Scans Mark.closeParenthesis.text.toList [] := .fixed rfl
          have harg := hchild arg (List.mem_singleton_self _) 0 (Nat.zero_le _)
          exact Scans.of_children (hname.append (hdistinct.append (harg.append hclose))) nofun
  | caseWhen c t o =>
      rw [charsAt_caseWhen]
      have hwhen : Scans "CASE WHEN ".toList [] := .fixed rfl
      have hthen : Scans Mark.caseThen.text.toList [] := .fixed rfl
      have helse : Scans Mark.caseElse.text.toList [] := .fixed rfl
      have hend : Scans Mark.caseEnd.text.toList [] := .fixed rfl
      have hparts := hwhen.append ((hchild c (by simp [children]) 0 (Nat.zero_le _)).append
        (hthen.append ((hchild t (by simp [children]) 0 (Nat.zero_le _)).append
          (helse.append ((hchild o (by simp [children]) 0 (Nat.zero_le _)).append hend)))))
      exact hparts.of_children nofun

end Expression

/-! ## The texts of statements

Clauses, sources and terms are put together from the texts of expressions and from keywords, which
have no dashes. -/

namespace Scans

variable {es : List Expression}

lemma text {e : Expression} (h : e.IsNamed) : Scans e.text.toList [e] := e.scans_charsAt h

/-- A clause that may be absent. -/
lemma clause {keyword : String} (hkeyword : Scans keyword.toList []) {e? : Option Expression}
    (h : ∀ e, e? = some e → e.IsNamed) : Scans (clauseText keyword e?).toList e?.toList := by
  cases e? with
  | none => exact .fixed rfl
  | some e =>
      rw [clauseText, String.toList_append]
      exact hkeyword.append (.text (h e rfl))

/-- A list that is left out with its keyword if it is empty. -/
lemma listed {α : Type} {as : List α} {text : String} (hempty : as = [] → es = [])
    (h : Scans text.toList es) : Scans (if as.isEmpty then "" else text).toList es := by
  cases as with
  | nil =>
      rw [hempty rfl]
      exact .fixed rfl
  | cons a as => exact h

lemma selection {s : Selection} (h : ∀ e ∈ s.expressions, e.IsNamed) :
    Scans s.text.toList s.expressions := by
  cases s with
  | raw e =>
      have hraw : Scans "RAW ".toList [] := .fixed rfl
      rw [Selection.text, String.toList_append]
      exact hraw.append (.text (h e (List.mem_singleton_self _)))
  | items list =>
      have hcomma : Scans ", ".toList [] := .fixed rfl
      have hnamed : Scans " AS ".toList [] := .fixed rfl
      rw [Selection.expressions, List.map_eq_flatMap]
      refine hcomma.intercalate fun item hitem => ?_
      simp only [String.toList_append, List.append_assoc]
      exact (text (h item.1 (List.mem_map_of_mem hitem))).append (hnamed.append (.ident item.2))

lemma orderKey {k : OrderKey} (h : k.key.IsNamed) : Scans k.text.toList [k.key] := by
  have hdescending : Scans (if k.descending then " DESC" else "").toList [] := by
    cases k.descending <;> exact .fixed rfl
  rw [OrderKey.text, String.toList_append]
  exact (text h).append hdescending

lemma headText {c : Clauses} (h : ∀ e ∈ c.selection.expressions, e.IsNamed) :
    Scans c.headText.toList c.selection.expressions := by
  have hselect : Scans "SELECT ".toList [] := .fixed rfl
  have hdistinct : Scans (if c.distinct then "DISTINCT " else "").toList [] := by
    cases c.distinct <;> exact .fixed rfl
  simp only [Clauses.headText, String.toList_append]
  exact (hselect.append hdistinct).append (selection h)

lemma tailText {c : Clauses} (h : ∀ e ∈ c.expressions, e.IsNamed) :
    Scans c.tailText.toList (c.predicate.toList ++ c.groupBy ++ c.orderBy.map OrderKey.key ++
      c.limit.toList ++ c.offset.toList) := by
  obtain ⟨-, hpredicate, hgroupBy, horderBy, hlimit, hoffset⟩ :=
    Clauses.forall_mem_expressions.1 h
  have hgroups : Scans (" GROUP BY " ++ expressionTexts c.groupBy).toList c.groupBy := by
    have hkeyword : Scans " GROUP BY ".toList [] := .fixed rfl
    rw [String.toList_append]
    exact hkeyword.append (.commas fun e he => e.scans_charsAt (hgroupBy e he))
  have hkeys : Scans (" ORDER BY " ++ ", ".intercalate (c.orderBy.map OrderKey.text)).toList
      (c.orderBy.map OrderKey.key) := by
    have hkeyword : Scans " ORDER BY ".toList [] := .fixed rfl
    have hcomma : Scans ", ".toList [] := .fixed rfl
    have hkeys := hcomma.intercalate fun k hk => orderKey (horderBy k hk)
    rw [String.toList_append]
    exact hkeyword.append (hkeys.congr (by simp))
  simp only [Clauses.tailText, String.toList_append]
  exact ((((clause (.fixed rfl) hpredicate).append (listed id hgroups)).append
    (listed (congrArg (List.map OrderKey.key)) hkeys)).append
      (clause (.fixed rfl) hlimit)).append (clause (.fixed rfl) hoffset)

lemma keyspace (k : Keyspace) : Scans k.text.toList [] := by
  have hdot : Scans ".".toList [] := .fixed rfl
  have hsegments := hdot.intercalate fun segment (_ : segment ∈ k.segments) => ident segment
  exact hsegments.congr (by simp)

lemma select {source : Source} {terms : List Term} {c : Clauses}
    (hsource : Scans source.text.toList source.allExpressions)
    (hterms : Scans (termTexts terms).toList (allTermExpressions terms))
    (hclauses : ∀ e ∈ c.expressions, e.IsNamed) :
    Scans (Statement.select source terms c).text.toList
      (Statement.select source terms c).allExpressions := by
  have hfrom : Scans " FROM ".toList [] := .fixed rfl
  have hparts := (((headText (Clauses.forall_mem_expressions.1 hclauses).1).append hfrom).append
    hsource).append (hterms.append (tailText hclauses))
  simp only [Statement.text, String.toList_append, List.append_assoc] at hparts ⊢
  refine hparts.congr ?_
  -- the selection is written in front of the sources
  simp only [Statement.allExpressions, Clauses.expressions, List.mem_append, or_and_right,
    exists_or, List.nil_append]
  grind

lemma compound {left right : Statement} (hleft : Scans left.text.toList left.allExpressions)
    (hright : Scans right.text.toList right.allExpressions) (op : SetOperation) :
    Scans (Statement.compound op left right).text.toList
      (Statement.compound op left right).allExpressions := by
  have hop : Scans (" ".toList ++ op.keyword.toList ++ " ".toList) [] :=
    .fixed (by cases op <;> rfl)
  have hoperand : ∀ {s : Statement} (wrapped : Bool), Scans s.text.toList s.allExpressions →
      Scans (parenthesized wrapped s.text).toList s.allExpressions := by
    intro s wrapped hs
    cases wrapped with
    | true => simpa [parenthesized] using hs.parentheses
    | false => exact hs
  have hparts := ((hoperand (left.isWrapped false) hleft).append hop).append
    (hoperand (right.isWrapped true) hright)
  simpa [Statement.text, Statement.allExpressions] using hparts

lemma source {s : Statement} (h : Scans s.text.toList s.allExpressions) (aliasName : String) :
    Scans (Source.statement s aliasName).text.toList
      (Source.statement s aliasName).allExpressions := by
  have hnamed : Scans " AS ".toList [] := .fixed rfl
  have hparts := (h.parentheses.append hnamed).append (.ident aliasName)
  simpa [Source.text, Source.allExpressions] using hparts

lemma join {source : Source} (h : Scans source.text.toList source.allExpressions)
    (matching : Matching) {condition : Expression} (hcondition : condition.IsNamed) :
    Scans (Term.join matching source condition).text.toList
      (Term.join matching source condition).allExpressions := by
  have hjoin : Scans matching.joinText.toList [] := .fixed (by cases matching <;> rfl)
  have hon : Scans " ON ".toList [] := .fixed rfl
  have hparts := ((hjoin.append h).append hon).append (text hcondition)
  simpa [Term.text, Term.allExpressions] using hparts

lemma unnest (matching : Matching) {array : Expression} (harray : array.IsNamed)
    (aliasName : String) : Scans (Term.unnest matching array aliasName).text.toList
      (Term.unnest matching array aliasName).allExpressions := by
  have hunnest : Scans matching.unnestText.toList [] := .fixed (by cases matching <;> rfl)
  have hnamed : Scans " AS ".toList [] := .fixed rfl
  have hparts := ((hunnest.append (text harray)).append hnamed).append (.ident aliasName)
  simpa [Term.text, Term.allExpressions] using hparts

end Scans

mutual

/-- **The text of a statement opens a comment exactly if one of its expressions doubles a sign.** -/
theorem Statement.scans_text : (s : Statement) → (∀ e ∈ s.allExpressions, e.IsNamed) →
    Scans s.text.toList s.allExpressions
  | .select source terms c, h => by
      simp only [Statement.allExpressions, List.forall_mem_append] at h
      exact .select (source.scans_text h.1.1) (scans_termTexts terms h.1.2) h.2
  | .compound op left right, h => by
      simp only [Statement.allExpressions, List.forall_mem_append] at h
      exact .compound (left.scans_text h.1) (right.scans_text h.2) op

/-- The text of a source opens a comment exactly if its statement doubles a sign. -/
theorem Source.scans_text : (s : Source) → (∀ e ∈ s.allExpressions, e.IsNamed) →
    Scans s.text.toList s.allExpressions
  | .keyspace k aliasName, _ => by
      have hnamed : Scans " AS ".toList [] := .fixed rfl
      simp only [Source.text, String.toList_append]
      exact ((Scans.keyspace k).append hnamed).append (.ident aliasName)
  | .statement s aliasName, h => (s.scans_text h).source aliasName

/-- The text of a term opens a comment exactly if one of its expressions doubles a sign. -/
theorem Term.scans_text : (t : Term) → (∀ e ∈ t.allExpressions, e.IsNamed) →
    Scans t.text.toList t.allExpressions
  | .join matching source condition, h => by
      simp only [Term.allExpressions, List.forall_mem_append, List.forall_mem_singleton] at h
      exact (source.scans_text h.1).join matching h.2
  | .unnest matching array aliasName, h =>
      .unnest matching (h array (List.mem_singleton_self _)) aliasName

/-- The texts of terms open a comment exactly if one of their expressions doubles a sign. -/
theorem scans_termTexts : (ts : List Term) → (∀ e ∈ allTermExpressions ts, e.IsNamed) →
    Scans (termTexts ts).toList (allTermExpressions ts)
  | [], _ => .fixed rfl
  | t :: ts, h => by
      simp only [allTermExpressions, List.forall_mem_append] at h
      rw [termTexts, String.toList_append]
      exact (t.scans_text h.1).append (scans_termTexts ts h.2)

end

/-- Placeholders and functions of a statement are named by identifiers. -/
def Statement.IsNamed (s : Statement) : Prop :=
  (∀ name, s.Holds (.placeholder name) → isIdentifier name = true) ∧
    ∀ name args, s.Holds (.call name args) → isIdentifier name = true

/-- **The text of a statement opens a comment exactly if a negation in it has an operand that begins
with a sign.** -/
theorem Statement.opensComment_text {s : Statement} (h : s.IsNamed) :
    OpensComment s.text ↔ ∃ operand, s.Holds (.neg operand) ∧ operand.isSigned = true := by
  have hscans := s.scans_text fun e he =>
    ⟨fun name hname => h.1 name ⟨e, he, hname⟩,
      fun name args hcall => h.2 name args ⟨e, he, hcall⟩⟩
  have hdoubles : (∃ e ∈ s.allExpressions, e.DoublesSign) ↔
      ∃ operand, s.Holds (.neg operand) ∧ operand.isSigned = true :=
    ⟨fun ⟨e, he, operand, hpart, hsigned⟩ => ⟨operand, ⟨e, he, hpart⟩, hsigned⟩,
      fun ⟨operand, ⟨e, he, hpart⟩, hsigned⟩ => ⟨e, he, operand, hpart, hsigned⟩⟩
  rw [OpensComment, ← (scan_eq_commented _).1, ← hdoubles]
  constructor
  · intro hopen
    by_contra hnone
    rw [hscans.outside hnone] at hopen
    cases hopen
  · exact hscans.commented

end EntityQuery
