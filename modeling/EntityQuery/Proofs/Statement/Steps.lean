import EntityQuery.Proofs.Statement.Reader
import EntityQuery.Statement.Parameters

/-!
# Single steps of the reader

What is written last is told from what stands behind it, and what is written first from any mark.

* `Marked` and `Stops` are the texts that may stand behind an expression.
* `TextReader.Takes`: a reader takes a value from the front of a text, once it is given enough
  steps.
* `nextOpening_ident` and its siblings: each opening is read from its text.  Backticks in an
  identifier are doubled, so it ends where it was ended.
* `Fronts` collects what the texts of expressions do not begin with.
-/

namespace EntityQuery

/-! ## What stands behind an expression

An expression ends where the next mark binds no stronger than its place asks for.  That is stated of
the rest of the text, so that it can be assumed of any rest. -/

/-- The binding strength of a suffix that a mark is; other marks end all operands. -/
def Mark.strength : Mark → Nat
  | .suffix s => s.strength
  | _ => 0

/-- A text ends, or goes on with a mark of a kind. -/
def Marked (P : Mark → Prop) (cs : List Char) : Prop :=
  cs = [] ∨ ∃ m rest, cs = m.text.toList ++ rest ∧ P m

/-- A text ends, or goes on with a mark that binds at most as strong as a place asks for. -/
abbrev Stops (place : Nat) (cs : List Char) : Prop := Marked (fun m => m.strength ≤ place) cs

namespace Marked

variable {P Q : Mark → Prop} {cs rest : List Char}

lemma text {m : Mark} (h : P m) : Marked P (m.text.toList ++ rest) := .inr ⟨m, rest, rfl, h⟩

lemma imp (h : Marked P cs) (hPQ : ∀ m, P m → Q m) : Marked Q cs := by
  obtain rfl | ⟨m, rest, rfl, hm⟩ := h
  · exact .inl rfl
  · exact .text (hPQ m hm)

lemma of_nextMark (h : Marked P cs) {m : Mark} (hnext : nextMark cs = some (m, rest)) : P m := by
  obtain rfl | ⟨m', rest', rfl, hm⟩ := h
  · cases hnext
  · rw [nextMark_text] at hnext
    cases hnext
    exact hm

end Marked

lemma Stops.mono {place place' : Nat} {cs : List Char} (h : Stops place cs) (hle : place ≤ place') :
    Stops place' cs :=
  h.imp fun _ hm => Nat.le_trans hm hle

/-- The characters with which marks begin. -/
def Mark.fronts : List Char := ['.', ' ', ',', ')', ']']

lemma Mark.exists_text (m : Mark) : ∃ c cs, m.text.toList = c :: cs ∧ c ∈ Mark.fronts := by
  cases m with
  | suffix s =>
      cases s with
      | binary op => cases op <;> exact ⟨_, _, rfl, by decide⟩
      | _ => exact ⟨_, _, rfl, by decide⟩
  | join matching => cases matching <;> exact ⟨_, _, rfl, by decide⟩
  | unnest matching => cases matching <;> exact ⟨_, _, rfl, by decide⟩
  | _ => exact ⟨_, _, rfl, by decide⟩

/-- Marks neither go on with a word nor open anything. -/
lemma Mark.of_mem_fronts {c : Char} (h : c ∈ Mark.fronts) :
    isWordChar c = false ∧ c ≠ '`' ∧ c ≠ '(' := by
  simp only [Mark.fronts, List.mem_cons, List.not_mem_nil, or_false] at h
  rcases h with rfl | rfl | rfl | rfl | rfl <;> decide

namespace Marked

variable {P : Mark → Prop} {cs : List Char}

lemma head (h : Marked P cs) {c : Char} (hc : cs.head? = some c) :
    isWordChar c = false ∧ c ≠ '`' ∧ c ≠ '(' := by
  obtain rfl | ⟨m, rest, rfl, -⟩ := h
  · cases hc
  · obtain ⟨c', cs, htext, hfront⟩ := m.exists_text
    rw [htext] at hc
    cases hc
    exact Mark.of_mem_fronts hfront

end Marked

/-! ## Single steps

Each small reader is applied to a text that begins with what it is looking for, or with something
else. -/

namespace TextReader

variable {α β : Type} {cs rest : List Char}

/-- A reader goes on where the one before it stops. -/
lemma run_bind {r : TextReader α} {f : α → TextReader β} {a : α} (h : r cs = some (a, rest)) :
    (r >>= f) cs = f a rest := by
  change (r cs >>= fun p => f p.1 p.2) = _
  rw [h]
  rfl

lemma mark?_text {which : Mark → Option α} {m : Mark} {a : α} (h : which m = some a) :
    mark? which (m.text.toList ++ rest) = some (some a, rest) := by
  simp only [mark?, nextMark_text, h]

lemma mark?_other {which : Mark → Option α} (h : Marked (fun m => which m = none) cs) :
    mark? which cs = some (none, cs) := by
  rw [mark?]
  cases hnext : nextMark cs with
  | none => rfl
  | some next => simp only [h.of_nextMark hnext]

lemma has_text (m : Mark) (rest : List Char) :
    has m (m.text.toList ++ rest) = some (true, rest) :=
  run_bind (mark?_text (if_pos rfl))

lemma has_other {m : Mark} (h : Marked (fun m' => m' ≠ m) cs) : has m cs = some (false, cs) :=
  run_bind (mark?_other (h.imp fun _ hm => if_neg hm))

lemma mark?_of_nextMark {which : Mark → Option α} (h : nextMark cs = none) :
    mark? which cs = some (none, cs) := by
  rw [mark?, h]

lemma has_of_nextMark {m : Mark} (h : nextMark cs = none) : has m cs = some (false, cs) :=
  run_bind (mark?_of_nextMark h)

lemma expect_text (m : Mark) (rest : List Char) :
    expect m (m.text.toList ++ rest) = some ((), rest) :=
  run_bind (has_text m rest)

lemma optional_text (text : String) (rest : List Char) :
    optional text (text.toList ++ rest) = some (true, rest) := by
  rw [optional, dropText_append]

lemma optional_other {text : String} (h : dropText text.toList cs = none) :
    optional text cs = some (false, cs) := by
  rw [optional, h]

lemma exactly_text (text : String) (rest : List Char) :
    exactly text (text.toList ++ rest) = some ((), rest) :=
  run_bind (optional_text text rest)

end TextReader

/-! ## Enough steps

How many steps a reader needs is of no interest.  It is enough that there is such a number, which
composes: readers one after the other need no more than both. -/

namespace TextReader

variable {α β : Type} {cs rest rest' : List Char} {a : α} {b : β}

/-- A reader takes a value from the front of a text, once it is given enough steps. -/
def Takes (r : Nat → TextReader α) (cs : List Char) (a : α) (rest : List Char) : Prop :=
  ∃ n, ∀ k, n ≤ k → r k cs = some (a, rest)

namespace Takes

variable {r : Nat → TextReader α} {f : Nat → α → TextReader β}

lemma done (h : ∀ n, r n cs = some (a, rest)) : Takes r cs a rest := ⟨0, fun n _ => h n⟩

/-- One step more is no less. -/
lemma step (h : Takes (fun n => r (n + 1)) cs a rest) : Takes r cs a rest := by
  obtain ⟨n, hn⟩ := h
  refine ⟨n + 1, fun k hk => ?_⟩
  obtain ⟨k, rfl⟩ := Nat.exists_eq_add_of_lt (Nat.lt_of_succ_le hk)
  exact hn _ (Nat.le_add_right n k)

/-- A reader goes on where the one before it stops. -/
lemma bind (h : Takes r cs a rest) (hf : Takes (fun n => f n a) rest b rest') :
    Takes (fun n => r n >>= f n) cs b rest' := by
  obtain ⟨n, hn⟩ := h
  obtain ⟨m, hm⟩ := hf
  refine ⟨max n m, fun k hk => ?_⟩
  have hfirst := hn k (Nat.le_trans (Nat.le_max_left n m) hk)
  exact (run_bind hfirst).trans (hm k (Nat.le_trans (Nat.le_max_right n m) hk))

/-- A reader goes on where one that needs no steps stops. -/
lemma after {r : TextReader α} (h : r cs = some (a, rest))
    (hf : Takes (fun n => f n a) rest b rest') : Takes (fun n => r >>= f n) cs b rest' :=
  bind (done fun _ => h) hf

/-- What is taken does not depend on the number of steps. -/
lemma unique {a' : α} (h : Takes r cs a rest) (h' : Takes r cs a' rest') : a = a' := by
  obtain ⟨n, hn⟩ := h
  obtain ⟨m, hm⟩ := h'
  have heq := (hn _ (Nat.le_max_left n m)).symm.trans (hm _ (Nat.le_max_right n m))
  cases heq
  rfl

end Takes

end TextReader

/-! ## Openings

A name between backticks may hold anything, backticks included, which are doubled.  Where it ends is
therefore found by reading on. -/

lemma quotedRest_escaped (name rest : List Char) (hrest : rest.head? ≠ some '`') :
    quotedRest (name.flatMap (fun c => if c = '`' then ['`', '`'] else [c]) ++ '`' :: rest) =
      some (name, rest) := by
  induction name with
  | nil =>
      cases rest with
      | nil => rfl
      | cons c cs =>
          rw [List.flatMap_nil, List.nil_append, quotedRest]
          intro cs' hcs
          cases hcs
          exact hrest rfl
  | cons c name ih =>
      rw [List.flatMap_cons, List.append_assoc]
      by_cases hc : c = '`'
      · rw [if_pos hc, hc]
        rw [List.cons_append, List.cons_append, List.nil_append, quotedRest, ih]
        rfl
      · rw [if_neg hc, List.singleton_append, quotedRest, ih]
        · rfl
        · rintro _ rfl _
          exact hc rfl
        · rintro rfl
          exact hc rfl

/-- An identifier between backticks is told from what follows, whatever it holds. -/
lemma nextOpening_ident {P : Mark → Prop} {rest : List Char} (name : String) (h : Marked P rest) :
    nextOpening ((identText name).toList ++ rest) = some (.ident name, rest) := by
  have hrest : rest.head? ≠ some '`' := fun hhead => (h.head hhead).2.1 rfl
  have htext : (identText name).toList ++ rest = '`' ::
      (name.toList.flatMap (fun c => if c = '`' then ['`', '`'] else [c]) ++ '`' :: rest) := by
    simp [identText]
  rw [htext, nextOpening, quotedRest_escaped name.toList rest hrest]
  simp

lemma TextReader.ident_text {P : Mark → Prop} {rest : List Char} (name : String)
    (h : Marked P rest) : TextReader.ident ((identText name).toList ++ rest) = some (name, rest) :=
  run_bind (nextOpening_ident name h)

/-! ## Words

Keywords, functions and numbers are told by the longest run of word characters.  What stands behind
must not be one. -/

/-- An identifier begins with a letter or an underscore and consists of word characters. -/
lemma isIdentifier_iff {name : String} (h : isIdentifier name = true) :
    name.toList.all isWordChar = true ∧
      ∃ c cs, name.toList = c :: cs ∧ (c.isAlpha || c == '_') = true := by
  rw [isIdentifier] at h
  cases hname : name.toList with
  | nil => simp [hname] at h
  | cons c cs =>
      simp only [hname, Bool.and_eq_true, Bool.or_eq_true, List.all_eq_true] at h
      refine ⟨?_, c, cs, rfl, by simpa using h.1⟩
      simp only [List.all_cons, Bool.and_eq_true, List.all_eq_true, isWordChar, Bool.or_eq_true]
      refine ⟨h.1.imp_left fun hc => ?_, h.2⟩
      simp [Char.isAlphanum, hc]

lemma not_isDigit_of_isAlpha {c : Char} (h : (c.isAlpha || c == '_') = true) :
    c.isDigit = false := by
  rw [Bool.or_eq_true, beq_iff_eq] at h
  rcases h with h | rfl
  · have hletter : 'A'.val ≤ c.val ∧ c.val ≤ 'Z'.val ∨ 'a'.val ≤ c.val ∧ c.val ≤ 'z'.val := by
      rcases Bool.or_eq_true_iff.1 h with h | h
      · exact .inl (of_decide_eq_true h)
      · exact .inr ((Bool.and_eq_true_iff.1 h).imp of_decide_eq_true of_decide_eq_true)
    simp only [UInt32.le_iff_toNat_le, Char.reduceVal, UInt32.reduceToNat] at hletter
    simp only [Char.isDigit, Bool.and_eq_false_iff, decide_eq_false_iff_not, ge_iff_le,
      UInt32.le_iff_toNat_le, Char.reduceVal, UInt32.reduceToNat]
    omega
  · rfl

section Words

variable {word rest : List Char} (hword : word.all isWordChar = true)
  (hrest : ∀ c, rest.head? = some c → isWordChar c = false)

include hword hrest

lemma takeWhile_word : (word ++ rest).takeWhile isWordChar = word := by
  have hnone : rest.takeWhile isWordChar = [] := by
    cases rest with
    | nil => rfl
    | cons c cs => simp [hrest c rfl]
  rw [List.takeWhile_append_of_pos (List.all_eq_true.1 hword), hnone, List.append_nil]

lemma dropWhile_word : (word ++ rest).dropWhile isWordChar = rest := by
  rw [List.dropWhile_append_of_pos (List.all_eq_true.1 hword)]
  cases rest with
  | nil => rfl
  | cons c cs => simp [hrest c rfl]

end Words

/-- A word is told from what follows if that does not go on with it. -/
lemma nextOpening_word {c : Char} {word rest : List Char}
    (hword : (c :: word).all isWordChar = true)
    (hrest : ∀ c, rest.head? = some c → isWordChar c = false) :
    nextOpening (c :: word ++ rest) =
      if c.isDigit then some (.number (Nat.ofDigitChars 10 (c :: word) 0), rest)
      else wordOpening (c :: word) rest := by
  have hfront : isWordChar c = true := by
    rw [List.all_cons, Bool.and_eq_true] at hword
    exact hword.1
  rw [nextOpening, takeWhile_word hword hrest, dropWhile_word hword hrest]
  · rfl
  all_goals
    rintro _ ⟨⟩
    exact absurd hfront (by decide)

/-- A number without a sign is written by its digits. -/
lemma Literal.exists_digits {n : Int} (h : 0 ≤ n) : ∃ (k : Nat) (c : Char) (cs : List Char),
    n = k ∧ (Literal.int n).text.toList = (toString k).toList ∧ (toString k).toList = c :: cs ∧
      (∀ d ∈ c :: cs, d.isDigit = true) ∧ Nat.ofDigitChars 10 (c :: cs) 0 = k := by
  obtain ⟨k, rfl⟩ := Int.eq_ofNat_of_zero_le h
  have hdigits : (toString k).toList = Nat.toDigits 10 k := Nat.toList_repr
  cases hk : Nat.toDigits 10 k with
  | nil => exact absurd hk Nat.toDigits_ne_nil
  | cons c cs =>
      refine ⟨k, c, cs, rfl, rfl, hdigits.trans hk, fun d hd => ?_, ?_⟩
      · exact Nat.isDigit_of_mem_toDigits (by decide) (by decide) (hk ▸ hd)
      · rw [← hk, Nat.ofDigitChars_ten_toDigits]

lemma nextOpening_number {P : Mark → Prop} {rest : List Char} {n : Int} (hn : 0 ≤ n)
    (h : Marked P rest) : ∃ k : Nat, n = k ∧
      nextOpening ((Literal.int n).text.toList ++ rest) = some (.number k, rest) := by
  obtain ⟨k, c, cs, hk, htext, hcs, hdigits, hvalue⟩ := Literal.exists_digits hn
  have hword : (c :: cs).all isWordChar = true := by
    rw [List.all_eq_true]
    intro d hd
    simp [isWordChar, Char.isAlphanum, hdigits d hd]
  refine ⟨k, hk, ?_⟩
  rw [htext, hcs, nextOpening_word hword fun d hd => (h.head hd).1,
    if_pos (hdigits c List.mem_cons_self), hvalue]

lemma nextOpening_placeholder {P : Mark → Prop} {rest : List Char} {name : String}
    (hname : isIdentifier name = true) (h : Marked P rest) :
    nextOpening ('$' :: (name.toList ++ rest)) = some (.placeholder name, rest) := by
  have hword := (isIdentifier_iff hname).1
  rw [nextOpening, takeWhile_word hword fun c hc => (h.head hc).1,
    dropWhile_word hword fun c hc => (h.head hc).1, String.ofList_toList]

lemma nextOpening_call {rest : List Char} {name : String} (hname : isIdentifier name = true)
    (hfunction : Aggregate.ofName? name = none) :
    nextOpening (name.toList ++ '(' :: rest) = some (.call name, rest) := by
  obtain ⟨hword, c, cs, hcs, hfront⟩ := isIdentifier_iff hname
  rw [hcs] at hword ⊢
  rw [nextOpening_word hword (by rintro _ ⟨⟩; rfl),
    if_neg (by simp [not_isDigit_of_isAlpha hfront]), ← hcs, wordOpening]
  simp [hfunction]

/-- A keyword in front of a mark is a value. -/
lemma nextOpening_keyword {P : Mark → Prop} {c : Char} {word rest : List Char}
    (hword : (c :: word).all isWordChar = true) (hdigit : c.isDigit = false) (h : Marked P rest) :
    nextOpening (c :: word ++ rest) =
      if c :: word = "NULL".toList then some (.null, rest)
      else if c :: word = "TRUE".toList then some (.bool true, rest)
      else if c :: word = "FALSE".toList then some (.bool false, rest)
      else if c :: word = "NOT".toList then (dropText " ".toList rest).map (.not, ·)
      else if c :: word = "CASE".toList then (dropText " WHEN ".toList rest).map (.caseWhen, ·)
      else none := by
  rw [nextOpening_word hword fun d hd => (h.head hd).1, hdigit, if_neg Bool.false_ne_true,
    wordOpening]
  rintro _ rfl
  exact (h.head rfl).2.2 rfl

lemma nextOpening_null {P : Mark → Prop} {rest : List Char} (h : Marked P rest) :
    nextOpening ("NULL".toList ++ rest) = some (.null, rest) :=
  nextOpening_keyword (by decide) (by decide) h

lemma nextOpening_bool {P : Mark → Prop} {rest : List Char} (b : Bool) (h : Marked P rest) :
    nextOpening ((Literal.bool b).text.toList ++ rest) = some (.bool b, rest) := by
  cases b with
  | true => exact nextOpening_keyword (by decide) (by decide) h
  | false => exact nextOpening_keyword (by decide) (by decide) h

lemma nextOpening_not (rest : List Char) :
    nextOpening ("NOT ".toList ++ rest) = some (.not, rest) := rfl

lemma nextOpening_caseWhen (rest : List Char) :
    nextOpening ("CASE WHEN ".toList ++ rest) = some (.caseWhen, rest) := rfl

lemma nextOpening_aggregate (function : Aggregate) (rest : List Char) :
    nextOpening ((function.name ++ "(").toList ++ rest) =
      match dropText "*)".toList rest, dropText "DISTINCT ".toList rest with
      | some cs, _ => some (.rows function, cs)
      | none, some cs => some (.aggregate function true, cs)
      | none, none => some (.aggregate function false, rest) := by
  cases function <;> rfl

/-! ## What an expression does not begin with

Some words may stand in front of an expression, as `DISTINCT` may in front of an item.  An
expression does not begin with such a word, though a call may be of a function of that name: behind
the name stands a parenthesis, and behind the word a blank. -/

/-- A text begins neither with a mark nor with a word that may stand in front of an expression. -/
structure Fronts (cs : List Char) : Prop where
  mark : nextMark cs = none
  rows : dropText "*)".toList cs = none
  distinct : dropText "DISTINCT ".toList cs = none
  raw : dropText "RAW ".toList cs = none

lemma dropText_of_ne {a c : Char} (h : a ≠ c) (as cs : List Char) :
    dropText (a :: as) (c :: cs) = none :=
  if_neg h

lemma nextMark_cons {c : Char} (cs : List Char) (h : c ∉ Mark.fronts) :
    nextMark (c :: cs) = none := by
  rw [nextMark, List.findSome?_eq_none_iff]
  intro m _
  obtain ⟨c', cs', htext, hfront⟩ := m.exists_text
  rw [htext, dropText_of_ne, Option.map_none]
  rintro rfl
  exact h hfront

/-- The characters with which marks and those words begin. -/
def otherFronts : List Char := '*' :: 'D' :: 'R' :: Mark.fronts

lemma not_isDigit_of_mem_otherFronts {c : Char} (h : c ∈ otherFronts) : c.isDigit = false := by
  simp only [otherFronts, Mark.fronts, List.mem_cons, List.not_mem_nil, or_false] at h
  rcases h with rfl | rfl | rfl | rfl | rfl | rfl | rfl | rfl <;> decide

/-- A text with another first character begins an expression. -/
lemma fronts_cons {c : Char} (cs : List Char) (h : c ∉ otherFronts) : Fronts (c :: cs) where
  mark := nextMark_cons cs fun hc => h (by simp [otherFronts, hc])
  rows := dropText_of_ne (show '*' ≠ c by rintro rfl; exact h (by decide)) _ _
  distinct := dropText_of_ne (show 'D' ≠ c by rintro rfl; exact h (by decide)) _ _
  raw := dropText_of_ne (show 'R' ≠ c by rintro rfl; exact h (by decide)) _ _

/-- A word in front of a parenthesis is not the same word in front of a blank. -/
lemma dropText_word {word name : List Char} (rest : List Char)
    (hword : word.all isWordChar = true) (hname : name.all isWordChar = true) :
    dropText (word ++ [' ']) (name ++ '(' :: rest) = none := by
  induction word generalizing name with
  | nil =>
      cases name with
      | nil => rfl
      | cons c name =>
          refine dropText_of_ne ?_ _ _
          rintro rfl
          cases hname
  | cons a word ih =>
      rw [List.all_cons, Bool.and_eq_true] at hword
      cases name with
      | nil =>
          refine dropText_of_ne ?_ _ _
          rintro rfl
          exact absurd hword.1 (by decide)
      | cons c name =>
          rw [List.all_cons, Bool.and_eq_true] at hname
          rw [List.cons_append, List.cons_append, dropText]
          split
          · exact ih hword.2 hname.2
          · rfl

/-- A call begins an expression, whatever the function is. -/
lemma fronts_call {name : String} (rest : List Char) (hname : isIdentifier name = true) :
    Fronts (name.toList ++ '(' :: rest) := by
  obtain ⟨hword, c, cs, hcs, -⟩ := isIdentifier_iff hname
  have hfront : isWordChar c = true := by
    rw [hcs, List.all_cons, Bool.and_eq_true] at hword
    exact hword.1
  refine ⟨?_, ?_, dropText_word rest (by decide : "DISTINCT".toList.all isWordChar = true) hword,
    dropText_word rest (by decide : "RAW".toList.all isWordChar = true) hword⟩
  · rw [hcs]
    refine nextMark_cons _ fun hc => ?_
    rw [(Mark.of_mem_fronts hc).1] at hfront
    cases hfront
  · rw [hcs]
    refine dropText_of_ne (show '*' ≠ c from ?_) _ _
    rintro rfl
    cases hfront

lemma nextOpening_rows (function : Aggregate) (cs : List Char) :
    nextOpening ((function.name ++ "(").toList ++ ("*)".toList ++ cs)) =
      some (.rows function, cs) := by
  rw [nextOpening_aggregate, dropText_append]

/-- The argument of an aggregate does not begin with what stands in front of one. -/
lemma nextOpening_aggregate_arg (function : Aggregate) (distinct : Bool) {cs : List Char}
    (h : Fronts cs) :
    nextOpening ((function.name ++ "(").toList ++
        ((if distinct then "DISTINCT " else "").toList ++ cs)) =
      some (.aggregate function distinct, cs) := by
  cases distinct with
  | true => cases function <;> rfl
  | false =>
      rw [if_neg Bool.false_ne_true, nextOpening_aggregate, String.toList_empty, List.nil_append,
        h.rows, h.distinct]

end EntityQuery
