import EntityQuery.Proofs.Statement.Clauses

/-!
# Statements are told apart by their texts

An operand of a set operation is put in parentheses where it would be read differently without, and
a statement that is a source always is.  So the text of a statement is read as the statement, and
two statements have one text only if they are one statement.

* `Statement.isLegible`: the expressions of a statement can be read; its aliases and the addresses
  of its collections may be any texts.
* `Statement.reads_text`: the text of a legible statement is read as the statement.
* `text_eq_iff`: legible statements and legible expressions are told apart by their texts.
-/

namespace EntityQuery

open TextReader (Takes)

/-! ## Legible statements -/

mutual

/-- Whether the text of a statement can be read. -/
def Statement.isLegible : Statement → Bool
  | .select source terms clauses =>
    source.isLegible && termsLegible terms && Expression.allLegible clauses.expressions
  | .compound _ left right => left.isLegible && right.isLegible

/-- Whether the text of a source can be read. -/
def Source.isLegible : Source → Bool
  | .keyspace .. => true
  | .statement s _ => s.isLegible

/-- Whether the text of a term can be read. -/
def Term.isLegible : Term → Bool
  | .join _ source condition => source.isLegible && condition.isLegible
  | .unnest _ array _ => array.isLegible

/-- Whether the texts of some terms can be read. -/
def termsLegible : List Term → Bool
  | [] => true
  | t :: ts => t.isLegible && termsLegible ts

end

/-! ## Set operations

An operand is put in parentheses if it has an order or a number of rows of its own, and on the right
also if it is a set operation.  On the left a set operation stands bare, so that a loop from left to
right reads the tree that was written. -/

namespace TextReader

variable {s : Statement} {rest : List Char}

/-- A set operation is read; its second operand does not go on with its keyword. -/
lemma setOperation?_text (op : SetOperation) (h : dropText "ALL".toList rest = none) :
    setOperation? ((" " ++ op.keyword ++ " ").toList ++ rest) = some (some op, rest) := by
  cases op with
  | union =>
      have hmark : mark? Mark.setOperation? (Mark.union.text.toList ++ (" ".toList ++ rest)) =
          some (some .union, " ".toList ++ rest) := mark?_text rfl
      have hother : dropText " ALL".toList (" ".toList ++ rest) = none := h
      rw [setOperation?]
      refine (run_bind hmark).trans ?_
      refine (run_bind (optional_other hother)).trans ?_
      exact run_bind (exactly_text " " rest)
  | _ => rfl

lemma compounds_other (h : Marked (fun m => m.setOperation? = none) rest) :
    Takes (compounds s) rest s rest := by
  have hnone : setOperation? rest = some (none, rest) := run_bind (mark?_other h)
  exact .step (.after hnone (.done fun _ => rfl))

end TextReader

namespace Statement

/-- An operand of a set operation, by characters. -/
def operandChars (s : Statement) (onTheRight : Bool) : List Char :=
  (parenthesized (s.isWrapped onTheRight) s.text).toList

lemma operandChars_of_wrapped {s : Statement} {onTheRight : Bool}
    (h : s.isWrapped onTheRight = true) (rest : List Char) :
    s.operandChars onTheRight ++ rest =
      "(".toList ++ (s.text.toList ++ (Mark.closeParenthesis.text.toList ++ rest)) := by
  simp [operandChars, h, parenthesized, Mark.text]

lemma operandChars_of_bare {s : Statement} {onTheRight : Bool}
    (h : s.isWrapped onTheRight = false) : s.operandChars onTheRight = s.text.toList := by
  rw [operandChars, h]
  rfl

lemma toList_text_select (source : Source) (terms : List Term) (c : Clauses) :
    (select source terms c).text.toList =
      "SELECT ".toList ++ ((if c.distinct then "DISTINCT " else "").toList ++
        (c.selection.text.toList ++ (Mark.source.text.toList ++ (source.text.toList ++
          ((termTexts terms).toList ++ c.tailText.toList))))) := by
  simp [text, Clauses.headText, Mark.text]

lemma toList_text_compound (op : SetOperation) (left right : Statement) :
    (compound op left right).text.toList =
      left.operandChars false ++
        ((" " ++ op.keyword ++ " ").toList ++ right.operandChars true) := by
  simp [text, operandChars]

/-- The second operand of a set operation begins with a parenthesis or a selection. -/
lemma dropText_operandChars (s : Statement) (rest : List Char) :
    dropText "ALL".toList (s.operandChars true ++ rest) = none := by
  cases hwrapped : s.isWrapped true with
  | true =>
      rw [operandChars_of_wrapped hwrapped]
      rfl
  | false =>
      rw [operandChars_of_bare hwrapped]
      cases s with
      | select source terms c =>
          rw [toList_text_select]
          rfl
      | compound op left right => cases hwrapped

/-- The text of a statement is read as the statement, and set operations go on with it. -/
structure ReadsWhole (s : Statement) : Prop where
  whole : ∀ {rest}, Follows 7 rest → ∀ {s' rest'}, Takes (TextReader.compounds s) rest s' rest' →
    Takes TextReader.statement (s.text.toList ++ rest) s' rest'

/-- Moreover, the statement is read as the second operand of a set operation. -/
structure Reads (s : Statement) : Prop extends s.ReadsWhole where
  second : ∀ {rest}, Follows 7 rest → Takes TextReader.side (s.operandChars true ++ rest) s rest

variable {s left right : Statement} {source : Source} {terms : List Term} {c : Clauses}

/-- A statement is read up to the parenthesis that closes it. -/
lemma ReadsWhole.inner (h : s.ReadsWhole) (rest : List Char) :
    Takes TextReader.statement (s.text.toList ++ (Mark.closeParenthesis.text.toList ++ rest)) s
      (Mark.closeParenthesis.text.toList ++ rest) := by
  have hclose : Follows 7 (Mark.closeParenthesis.text.toList ++ rest) := .text (Nat.le_refl 7)
  exact h.whole hclose (TextReader.compounds_other (.text rfl))

lemma ReadsWhole.wrapped (h : s.ReadsWhole) {onTheRight : Bool}
    (hwrapped : s.isWrapped onTheRight = true) (rest : List Char) :
    Takes TextReader.side (s.operandChars onTheRight ++ rest) s rest := by
  rw [operandChars_of_wrapped hwrapped]
  refine .step (.after (TextReader.optional_text "(" _) ?_)
  refine .bind (h.inner rest) ?_
  exact .after (TextReader.expect_text .closeParenthesis rest) (.done fun _ => rfl)

/-- The first operand of a set operation is read, and the operation goes on with it. -/
lemma ReadsWhole.first (h : s.ReadsWhole) {rest rest' : List Char} {s' : Statement}
    (hrest : Follows 7 rest) (hcompounds : Takes (TextReader.compounds s) rest s' rest') :
    Takes TextReader.statement (s.operandChars false ++ rest) s' rest' := by
  cases hwrapped : s.isWrapped false with
  | true => exact .step (.bind (h.wrapped hwrapped rest) hcompounds)
  | false =>
      rw [operandChars_of_bare hwrapped]
      exact h.whole hrest hcompounds

/-- A set operation is read from its operands. -/
lemma Reads.compound (hl : left.Reads) (hr : right.Reads) (op : SetOperation) :
    (compound op left right).Reads := by
  have hwhole : (Statement.compound op left right).ReadsWhole := by
    refine ⟨fun {rest} hrest {s' rest'} hcompounds => ?_⟩
    have hnext : Follows 7
        ((" " ++ op.keyword ++ " ").toList ++ (right.operandChars true ++ rest)) := by
      cases op with
      | union | unionAll => exact .inr ⟨.union, _, rfl, Nat.le_refl 7⟩
      | intersect => exact .inr ⟨.intersect, _, rfl, Nat.le_refl 7⟩
      | except => exact .inr ⟨.except, _, rfl, Nat.le_refl 7⟩
    rw [toList_text_compound, List.append_assoc, List.append_assoc]
    -- the first operand leaves the operation, and the second one all that stands behind it
    refine hl.first hnext (.step ?_)
    refine .after (TextReader.setOperation?_text op (dropText_operandChars right rest)) ?_
    exact .bind (hr.second hrest) hcompounds
  exact ⟨hwhole, fun _ => hwhole.wrapped rfl _⟩

/-- A selection is read by itself. -/
lemma Reads.select
    (h : ∀ {rest}, Follows 7 rest →
      Takes TextReader.side ((Statement.select source terms c).text.toList ++ rest)
        (.select source terms c) rest) :
    (Statement.select source terms c).Reads := by
  have hwhole : (Statement.select source terms c).ReadsWhole :=
    ⟨fun hrest _ _ hcompounds => .step (.bind (h hrest) hcompounds)⟩
  refine ⟨hwhole, fun hrest => ?_⟩
  cases hwrapped : (Statement.select source terms c).isWrapped true with
  | true => exact hwhole.wrapped hwrapped _
  | false =>
      rw [operandChars_of_bare hwrapped]
      exact h hrest

end Statement

/-! ## Sources and terms

A source is an address of names or a statement in parentheses.  Terms follow it, each with a keyword
of its own, up to the clauses. -/

section Parts

variable (matching : Matching) (source : Source) (condition array : Expression) (aliasName : String)
  (ts : List Term)

lemma toList_text_keyspace (k : Keyspace) : (Source.keyspace k aliasName).text.toList =
    (identText k.bucket).toList ++ (Suffix.field.text.toList ++ ((identText k.scope).toList ++
      (Suffix.field.text.toList ++ ((identText k.collection).toList ++
        (Mark.named.text.toList ++ (identText aliasName).toList))))) := by
  simp [Source.text, Keyspace.text, Keyspace.segments, String.intercalate_cons_cons, Suffix.text,
    Mark.text]

lemma toList_text_statement (s : Statement) : (Source.statement s aliasName).text.toList =
    "(".toList ++ (s.text.toList ++ (Mark.closeParenthesis.text.toList ++
      (Mark.named.text.toList ++ (identText aliasName).toList))) := by
  simp [Source.text, Mark.text]

lemma toList_termTexts_join : (termTexts (.join matching source condition :: ts)).toList =
    (Mark.join matching).text.toList ++ (source.text.toList ++ (Mark.condition.text.toList ++
      (condition.text.toList ++ (termTexts ts).toList))) := by
  simp [termTexts, Term.text, Mark.text]

lemma toList_termTexts_unnest : (termTexts (.unnest matching array aliasName :: ts)).toList =
    (Mark.unnest matching).text.toList ++ (array.text.toList ++ (Mark.named.text.toList ++
      ((identText aliasName).toList ++ (termTexts ts).toList))) := by
  simp [termTexts, Term.text, Mark.text]

end Parts

/-- With terms in front, a text goes on with a term or a clause. -/
lemma follows_terms (ts : List Term) {rest : List Char} (h : Follows 2 rest) :
    Follows 1 ((termTexts ts).toList ++ rest) := by
  cases ts with
  | nil => exact h.mono (Nat.le_succ 1)
  | cons t ts =>
      cases t with
      | join matching source condition =>
          rw [toList_termTexts_join, List.append_assoc]
          exact .text (Nat.le_refl 1)
      | unnest matching array aliasName =>
          rw [toList_termTexts_unnest, List.append_assoc]
          exact .text (Nat.le_refl 1)

/-- The text of a source is read as the source. -/
structure Source.Reads (s : Source) : Prop where
  read : ∀ {P : Mark → Prop} {rest : List Char}, Marked P rest →
    Takes TextReader.source (s.text.toList ++ rest) s rest

/-- The texts of terms are read as the terms, up to a clause. -/
structure TermsRead (ts : List Term) : Prop where
  read : ∀ {rest : List Char}, Follows 2 rest →
    Takes TextReader.terms ((termTexts ts).toList ++ rest) ts rest

/-- An address is read from its parts, whatever they hold. -/
lemma Source.reads_keyspace (k : Keyspace) (aliasName : String) :
    (Source.keyspace k aliasName).Reads := by
  refine ⟨fun {P rest} hrest => ?_⟩
  have hfield (cs : List Char) :
      Marked (fun m => m = .suffix .field) (Suffix.field.text.toList ++ cs) :=
    .text (m := .suffix .field) rfl
  have hnamed (cs : List Char) : Marked (fun m => m = .named) (Mark.named.text.toList ++ cs) :=
    .text rfl
  have hopen (cs : List Char) : dropText "(".toList ((identText k.bucket).toList ++ cs) = none := by
    simp [identText, dropText]
  rw [toList_text_keyspace]
  simp only [List.append_assoc]
  refine .step (.after (TextReader.optional_other (hopen _)) ?_)
  refine .after (TextReader.ident_text k.bucket (hfield _)) ?_
  refine .after (TextReader.expect_text (.suffix .field) _) ?_
  refine .after (TextReader.ident_text k.scope (hfield _)) ?_
  refine .after (TextReader.expect_text (.suffix .field) _) ?_
  refine .after (TextReader.ident_text k.collection (hnamed _)) ?_
  refine .after (TextReader.expect_text .named _) ?_
  exact .after (TextReader.ident_text aliasName hrest) (.done fun _ => rfl)

/-- A statement in parentheses is read as a source. -/
lemma Statement.Reads.source {s : Statement} (h : s.Reads) (aliasName : String) :
    (Source.statement s aliasName).Reads := by
  refine ⟨fun {P rest} hrest => ?_⟩
  rw [toList_text_statement]
  simp only [List.append_assoc]
  refine .step (.after (TextReader.optional_text "(" _) ?_)
  refine .bind (h.inner _) ?_
  refine .after (TextReader.expect_text .closeParenthesis _) ?_
  refine .after (TextReader.expect_text .named _) ?_
  exact .after (TextReader.ident_text aliasName hrest) (.done fun _ => rfl)

lemma termsRead_nil : TermsRead [] := by
  refine ⟨fun {rest} hrest => ?_⟩
  exact .step (.after (TextReader.mark?_other hrest.term?) (.done fun _ => rfl))

section Terms

variable {source : Source} {condition array : Expression} {ts : List Term}

/-- A join is read in front of more terms. -/
lemma TermsRead.join (hts : TermsRead ts) (hsource : source.Reads) (hcondition : condition.Reads)
    (matching : Matching) : TermsRead (.join matching source condition :: ts) := by
  refine ⟨fun {rest} hrest => ?_⟩
  have hmark (cs : List Char) :
      TextReader.mark? Mark.term? ((Mark.join matching).text.toList ++ cs) =
        some (some (.inl matching), cs) := TextReader.mark?_text rfl
  have hon (cs : List Char) : Marked (fun m => m = .condition) (Mark.condition.text.toList ++ cs) :=
    .text rfl
  rw [toList_termTexts_join]
  simp only [List.append_assoc]
  refine .step (.after (hmark _) ?_)
  refine .bind (hsource.read (hon _)) ?_
  refine .after (TextReader.expect_text .condition _) ?_
  refine .bind (hcondition.text (follows_terms ts hrest).stops) ?_
  exact .bind (hts.read hrest) (.done fun _ => rfl)

/-- An unnesting is read in front of more terms. -/
lemma TermsRead.unnest (hts : TermsRead ts) (harray : array.Reads) (matching : Matching)
    (aliasName : String) : TermsRead (.unnest matching array aliasName :: ts) := by
  refine ⟨fun {rest} hrest => ?_⟩
  have hmark (cs : List Char) :
      TextReader.mark? Mark.term? ((Mark.unnest matching).text.toList ++ cs) =
        some (some (.inr matching), cs) := TextReader.mark?_text rfl
  rw [toList_termTexts_unnest]
  simp only [List.append_assoc]
  refine .step (.after (hmark _) ?_)
  refine .bind (harray.before .named rfl _) ?_
  refine .after (TextReader.expect_text .named _) ?_
  refine .after (TextReader.ident_text aliasName (follows_terms ts hrest)) ?_
  exact .bind (hts.read hrest) (.done fun _ => rfl)

/-- A selection is read from its sources, terms and clauses. -/
lemma Source.Reads.select (hsource : source.Reads) (hterms : TermsRead ts) {c : Clauses}
    (hc : ∀ e ∈ c.expressions, e.isLegible = true) : (Statement.select source ts c).Reads := by
  refine .select fun {rest} hrest => ?_
  have hselection := (Clauses.forall_mem_expressions.1 hc).1
  have htail := c.follows_tailText hrest
  have hdistinct (cs : List Char) : TextReader.optional "DISTINCT "
      ((if c.distinct then "DISTINCT " else "").toList ++ (c.selection.text.toList ++
        (Mark.source.text.toList ++ cs))) =
        some (c.distinct, c.selection.text.toList ++ (Mark.source.text.toList ++ cs)) := by
    cases hd : c.distinct with
    | true => exact TextReader.optional_text "DISTINCT " _
    | false => exact TextReader.optional_other (Selection.dropText_distinct hselection cs)
  rw [Statement.toList_text_select]
  simp only [List.append_assoc]
  refine .step (.after (TextReader.optional_other rfl) ?_)
  refine .after (TextReader.exactly_text "SELECT " _) ?_
  refine .after (hdistinct _) ?_
  refine .bind (Selection.reads_text hselection _) ?_
  refine .bind (hsource.read (follows_terms ts htail)) ?_
  refine .bind (hterms.read htail) ?_
  exact .bind (Clauses.reads_text hc hrest) (.done fun _ => rfl)

end Terms

/-! ## Statements

The induction is on the statement, with sources and terms along with it, since statements occur in
sources. -/

mutual

/-- **The text of a legible statement is read as the statement.** -/
theorem Statement.reads_text : (s : Statement) → s.isLegible = true → s.Reads
  | .select source terms c, h => by
      simp only [Statement.isLegible, Bool.and_eq_true] at h
      obtain ⟨⟨hsource, hterms⟩, hc⟩ := h
      exact (source.reads_text hsource).select (termsRead_text terms hterms)
        (Expression.allLegible_iff.1 hc)
  | .compound op left right, h =>
      (left.reads_text (Bool.and_eq_true_iff.1 h).1).compound
        (right.reads_text (Bool.and_eq_true_iff.1 h).2) op

/-- The text of a legible source is read as the source. -/
theorem Source.reads_text : (s : Source) → s.isLegible = true → s.Reads
  | .keyspace k aliasName, _ => Source.reads_keyspace k aliasName
  | .statement s aliasName, h => (s.reads_text h).source aliasName

/-- The texts of legible terms are read as the terms. -/
theorem termsRead_text : (ts : List Term) → termsLegible ts = true → TermsRead ts
  | [], _ => termsRead_nil
  | .join matching source condition :: ts, h => by
      simp only [termsLegible, Term.isLegible, Bool.and_eq_true] at h
      exact (termsRead_text ts h.2).join (source.reads_text h.1.1) (condition.reads_text h.1.2)
        matching
  | .unnest matching array aliasName :: ts, h => by
      simp only [termsLegible, Term.isLegible, Bool.and_eq_true] at h
      exact (termsRead_text ts h.2).unnest (array.reads_text h.1) matching aliasName

end

/-! ## Texts tell statements apart

A text is read to one value only.  What was shown of reading thus says that two statements with one
text are one statement. -/

/-- A legible expression is what is read from all of its text. -/
lemma Expression.read_text {e : Expression} (h : e.isLegible = true) :
    Takes (TextReader.expression 0) e.text.toList e [] := by
  have hread := (e.reads_text h).text (.inl rfl)
  rwa [List.append_nil] at hread

/-- A legible statement is what is read from all of its text. -/
lemma Statement.read_text {s : Statement} (h : s.isLegible = true) :
    Takes TextReader.statement s.text.toList s [] := by
  have hread := (s.reads_text h).whole (.inl rfl) (TextReader.compounds_other (.inl rfl))
  rwa [List.append_nil] at hread

/-- **Legible statements, and legible expressions, are told apart by their texts.** -/
theorem text_eq_iff :
    (∀ s s' : Statement, s.isLegible = true → s'.isLegible = true → (s.text = s'.text ↔ s = s')) ∧
      ∀ e e' : Expression, e.isLegible = true → e'.isLegible = true →
        (e.text = e'.text ↔ e = e') := by
  refine ⟨fun s s' hs hs' => ⟨fun htext => ?_, congrArg _⟩,
    fun e e' he he' => ⟨fun htext => ?_, congrArg _⟩⟩
  · have hread := Statement.read_text hs
    rw [htext] at hread
    exact hread.unique (Statement.read_text hs')
  · have hread := Expression.read_text he
    rw [htext] at hread
    exact hread.unique (Expression.read_text he')

namespace Sample

/-- All entries of a collection of persons, under an alias. -/
def persons (aliasName : String) : Statement :=
  .select (.keyspace ⟨"people", defaultScope, "persons"⟩ aliasName) [] (.all aliasName)

/-- The difference of two numbers. -/
def minus (left right : Expression) : Expression := .binary .sub left right

end Sample

/-- Set operations and operators that associate otherwise are written otherwise, and no alias writes
a set operation. -/
theorem text_eq_iff_persons :
    (Statement.compound .except (.compound .union (Sample.persons "p") (Sample.persons "q"))
      (Sample.persons "r")).text ≠
        (Statement.compound .union (Sample.persons "p")
          (.compound .except (Sample.persons "q") (Sample.persons "r"))).text ∧
      (∀ aliasName, (Sample.persons aliasName).text ≠
        (Statement.compound .union (Sample.persons "p") (Sample.persons "q")).text) ∧
      (Sample.minus (Sample.minus (.placeholder "a") (.placeholder "b")) (.placeholder "c")).text ≠
        (Sample.minus (.placeholder "a")
          (Sample.minus (.placeholder "b") (.placeholder "c"))).text := by
  refine ⟨fun h => ?_, fun aliasName h => ?_, fun h => ?_⟩
  · cases (text_eq_iff.1 _ _ rfl rfl).1 h
  · cases (text_eq_iff.1 _ _ rfl rfl).1 h
  · cases (text_eq_iff.2 _ _ (by decide) (by decide)).1 h

end EntityQuery
