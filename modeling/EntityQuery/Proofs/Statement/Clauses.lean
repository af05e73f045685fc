import EntityQuery.Proofs.Statement.Expressions

/-!
# Reading the texts of clauses

The clauses of a selection stand in a fixed order, each behind a mark of its own.  So a clause that
is absent is passed over, and one that is there is read up to the next.

* `Follows`: what stands behind a selection comes in an order.
* `Selection.reads_text`: a selection is read up to the sources; an empty one is told by their mark,
  and its keywords are no expressions.
* `Clauses.reads_text`: the clauses behind the sources are read as they were written.
-/

namespace EntityQuery

/-! ## What stands behind a selection

The clauses have a fixed order, so that the mark behind a clause is a later one.  A clause that is
absent is told by its mark, which does not come. -/

/-- The position of a mark behind a selection: terms come first, then the clauses in their order,
and set operations and closing parentheses come last.  Other marks do not stand there. -/
def Mark.position : Mark → Nat
  | .join _ | .unnest _ => 1
  | .predicate => 2
  | .grouping => 3
  | .ordering => 4
  | .limit => 5
  | .offset => 6
  | .union | .intersect | .except | .closeParenthesis => 7
  | _ => 0

/-- A text ends, or goes on with a mark from a position on. -/
abbrev Follows (n : Nat) (cs : List Char) : Prop := Marked (fun m => n ≤ m.position) cs

namespace Follows

variable {n : Nat} {cs : List Char}

lemma mono {k : Nat} (h : Follows n cs) (hle : k ≤ n) : Follows k cs :=
  h.imp fun _ hm => Nat.le_trans hle hm

lemma ne (h : Follows n cs) {m : Mark} (hm : m.position < n) : Marked (fun m' => m' ≠ m) cs := by
  refine h.imp fun m' hm' => ?_
  rintro rfl
  exact absurd hm' (Nat.not_le.2 hm)

/-- What stands behind a selection goes on with no expression, and with no list. -/
lemma stops_ne (h : Follows (n + 1) cs) :
    Marked (fun m => m.strength ≤ 0 ∧ m ≠ .comma ∧ m ≠ .descending) cs := by
  refine h.imp fun m hm => ?_
  cases m with
  | suffix s => exact absurd hm (Nat.not_succ_le_zero n)
  | comma => exact absurd hm (Nat.not_succ_le_zero n)
  | descending => exact absurd hm (Nat.not_succ_le_zero n)
  | _ => exact ⟨Nat.le_refl 0, nofun, nofun⟩

lemma stops (h : Follows (n + 1) cs) : Stops 0 cs := h.stops_ne.imp fun _ hm => hm.1

lemma term? (h : Follows (n + 2) cs) : Marked (fun m => m.term? = none) cs := by
  refine h.imp fun m hm => ?_
  cases m with
  | join | unnest => exact absurd hm (by simp [Mark.position])
  | _ => rfl

end Follows

/-! ## Values between commas

Lists of all kinds are written alike: values, with commas between them.  One lemma reads them, given
that a value is read up to a comma. -/

lemma intercalate_cons (separator text : String) (texts : List String) :
    separator.intercalate (text :: texts) =
      text ++ if texts.isEmpty then "" else separator ++ separator.intercalate texts := by
  cases texts with
  | nil => simp
  | cons text' texts => simp [String.intercalate_cons_cons, String.append_assoc]

namespace TextReader

variable {α : Type} {r : Nat → TextReader α} {rest : List Char}

/-- Values between commas are read up to a mark that is no comma. -/
lemma separated_text {P : Mark → Prop} {text : α → String} {as : List α} (has : as ≠ [])
    (hread : ∀ a ∈ as, ∀ {rest}, Marked (fun m => m = .comma ∨ P m) rest →
      Takes r ((text a).toList ++ rest) a rest)
    (hcomma : ¬ P .comma) (hrest : Marked P rest) :
    Takes (separated r) ((", ".intercalate (as.map text)).toList ++ rest) as rest := by
  induction as with
  | nil => exact absurd rfl has
  | cons a as ih =>
      obtain ⟨hfirst, hread⟩ := List.forall_mem_cons.1 hread
      rw [List.map_cons, intercalate_cons, String.toList_append, List.append_assoc]
      cases as with
      | nil =>
          have hother : Marked (fun m => m ≠ .comma) rest := hrest.imp fun m hm => by
            rintro rfl
            exact hcomma hm
          refine .step (.bind (hfirst (hrest.imp fun _ => .inr)) ?_)
          exact .after (has_other hother) (.done fun _ => rfl)
      | cons a' as =>
          rw [List.map_cons, List.isEmpty_cons, if_neg Bool.false_ne_true, ← List.map_cons,
            String.toList_append, List.append_assoc]
          have hmark (cs : List Char) : Marked (fun m => m = .comma ∨ P m)
              (Mark.comma.text.toList ++ cs) := .text (.inl rfl)
          refine .step (.bind (hfirst (hmark _)) ?_)
          refine .after (has_text .comma _) ?_
          exact .bind (ih (List.cons_ne_nil _ _) hread) (.done fun _ => rfl)

end TextReader

/-! ## Selections -/

open TextReader (Takes)

/-- An item is read up to a comma or the sources. -/
lemma item_text {e : Expression} (h : e.isLegible = true) (name : String) {P : Mark → Prop}
    {rest : List Char} (hrest : Marked P rest) :
    Takes TextReader.item ((e.text ++ " AS " ++ identText name).toList ++ rest) (e, name) rest := by
  simp only [String.toList_append, List.append_assoc]
  refine .bind ((e.reads_text h).before .named rfl _) ?_
  refine .after (TextReader.expect_text .named _) ?_
  exact .after (TextReader.ident_text name hrest) (.done fun _ => rfl)

/-- A key of an ordering is read up to a comma or the next clause. -/
lemma orderKey_text {k : OrderKey} (h : k.key.isLegible = true) {rest : List Char}
    (hstops : Stops 0 rest) (hother : Marked (fun m => m ≠ .descending) rest) :
    Takes TextReader.orderKey (k.text.toList ++ rest) k rest := by
  obtain ⟨key, descending⟩ := k
  rw [OrderKey.text, String.toList_append, List.append_assoc]
  cases descending with
  | true =>
      refine .bind ((key.reads_text h).before .descending rfl _) ?_
      exact .after (TextReader.has_text .descending rest) (.done fun _ => rfl)
  | false =>
      refine .bind ((key.reads_text h).text hstops) ?_
      exact .after (TextReader.has_other hother) (.done fun _ => rfl)

/-- Keys of an ordering are read up to the next clause. -/
lemma orderKeys_text {keys : List OrderKey} (hkeys : keys ≠ [])
    (h : ∀ k ∈ keys, k.key.isLegible = true) {n : Nat} {rest : List Char}
    (hrest : Follows (n + 1) rest) :
    Takes (TextReader.separated TextReader.orderKey)
      ((", ".intercalate (keys.map OrderKey.text)).toList ++ rest) keys rest := by
  refine TextReader.separated_text hkeys (fun k hk rest hmark => ?_) ?_ hrest.stops_ne
  · refine orderKey_text (h k hk) (hmark.imp ?_) (hmark.imp ?_)
    · rintro m (rfl | hm)
      exacts [Nat.le_refl 0, hm.1]
    · rintro m (rfl | hm)
      exacts [by decide, hm.2.2]
  · exact fun hcomma => hcomma.2.1 rfl

namespace Selection

variable {s : Selection}

/-- A selection of items begins neither with a keyword nor, unless it is empty, with a mark. -/
lemma items_fronts {items : List (Expression × String)}
    (h : ∀ e ∈ items.map Prod.fst, e.isLegible = true) (hitems : items ≠ []) (rest : List Char) :
    Fronts ((Selection.items items).text.toList ++ rest) := by
  cases items with
  | nil => exact absurd rfl hitems
  | cons item items =>
      rw [text, List.map_cons, intercalate_cons]
      simp only [String.toList_append, List.append_assoc]
      exact Expression.fronts item.1 (h item.1 List.mem_cons_self) _

/-- A selection does not begin with the keyword in front of it. -/
lemma dropText_distinct (h : ∀ e ∈ s.expressions, e.isLegible = true) (rest : List Char) :
    dropText "DISTINCT ".toList (s.text.toList ++ (Mark.source.text.toList ++ rest)) = none := by
  cases s with
  | raw e =>
      rw [text, String.toList_append, List.append_assoc]
      rfl
  | items items =>
      by_cases hitems : items = []
      · rw [hitems]
        rfl
      · exact (items_fronts h hitems _).distinct

/-- **The text of a selection is read as the selection.** -/
theorem reads_text (h : ∀ e ∈ s.expressions, e.isLegible = true) (rest : List Char) :
    Takes TextReader.selection (s.text.toList ++ (Mark.source.text.toList ++ rest)) s rest := by
  cases s with
  | raw e =>
      rw [text, String.toList_append, List.append_assoc]
      refine .after (TextReader.optional_text "RAW " _) ?_
      refine .bind ((e.reads_text (h e List.mem_cons_self)).before .source rfl _) ?_
      exact .after (TextReader.expect_text .source rest) (.done fun _ => rfl)
  | items items =>
      by_cases hitems : items = []
      · subst hitems
        refine .after (TextReader.optional_other rfl) ?_
        exact .after (TextReader.has_text .source rest) (.done fun _ => rfl)
      · have hfronts := items_fronts h hitems (Mark.source.text.toList ++ rest)
        refine .after (TextReader.optional_other hfronts.raw) ?_
        refine .after (TextReader.has_of_nextMark hfronts.mark) ?_
        have hsource : Marked (fun m => m = .source) (Mark.source.text.toList ++ rest) := .text rfl
        have hread : ∀ item ∈ items, ∀ {rest}, Marked (fun m => m = .comma ∨ m = .source) rest →
            Takes TextReader.item ((item.1.text ++ " AS " ++ identText item.2).toList ++ rest)
              item rest :=
          fun item hitem _ => item_text (h item.1 (List.mem_map_of_mem hitem)) item.2
        refine .bind (TextReader.separated_text hitems hread (by decide) hsource) ?_
        exact .after (TextReader.expect_text .source rest) (.done fun _ => rfl)

end Selection

/-! ## Clauses

Each clause that may be absent is written with a keyword in front or not at all.  The reader looks
for the keywords in the order in which they were written, and passes over those that it does not
find. -/

/-- The text of a clause that may be absent, by characters. -/
def clauseChars {α : Type} (m : Mark) (body : α → List Char) : Option α → List Char
  | some a => m.text.toList ++ body a
  | none => []

/-- Some values, if there are any. -/
def nonempty? {α : Type} : List α → Option (List α)
  | [] => none
  | a :: as => some (a :: as)

lemma getD_nonempty? {α : Type} (as : List α) : (nonempty? as).getD [] = as := by
  cases as <;> rfl

lemma ne_nil_of_nonempty? {α : Type} {as bs : List α} (h : nonempty? as = some bs) :
    bs = as ∧ as ≠ [] := by
  cases as with
  | nil => cases h
  | cons a as =>
      cases h
      exact ⟨rfl, List.cons_ne_nil _ _⟩

section Clause

variable {α : Type} {r : Nat → TextReader α} {m : Mark} {body : α → List Char} {a? : Option α}
  {rest : List Char}

/-- With a clause in front, a text goes on with an earlier mark. -/
lemma Follows.clause (m : Mark) (body : α → List Char) (a? : Option α)
    (h : Follows (m.position + 1) rest) :
    Follows m.position (clauseChars m body a? ++ rest) := by
  cases a? with
  | none => exact h.mono (Nat.le_succ _)
  | some a =>
      rw [clauseChars, List.append_assoc]
      exact .text (Nat.le_refl _)

/-- A clause is read if it is there, and passed over if it is not. -/
lemma clause_text (m : Mark) (hrest : Follows (m.position + 1) rest)
    (hread : ∀ a, a? = some a → Takes r (body a ++ rest) a rest) :
    Takes (fun n => TextReader.clause m (r n)) (clauseChars m body a? ++ rest) a? rest := by
  cases a? with
  | none =>
      exact .after (TextReader.has_other (hrest.ne (Nat.lt_succ_self _))) (.done fun _ => rfl)
  | some a =>
      rw [clauseChars, List.append_assoc]
      refine .after (TextReader.has_text m _) ?_
      exact .bind (hread a rfl) (.done fun _ => rfl)

end Clause

namespace Clauses

variable {c : Clauses} {rest : List Char}

/-- What holds of the expressions of clauses holds of each clause. -/
lemma forall_mem_expressions {P : Expression → Prop} : (∀ e ∈ c.expressions, P e) ↔
    (∀ e ∈ c.selection.expressions, P e) ∧ (∀ e, c.predicate = some e → P e) ∧
      (∀ e ∈ c.groupBy, P e) ∧ (∀ k ∈ c.orderBy, P k.key) ∧
      (∀ e, c.limit = some e → P e) ∧ (∀ e, c.offset = some e → P e) := by
  simp only [expressions, List.forall_mem_append, List.forall_mem_map, Option.mem_toList, and_assoc]

/-- An expression of a clause, by characters. -/
def exprChars (e : Expression) : List Char := e.text.toList

/-- The keys of an ordering, by characters. -/
def orderChars (keys : List OrderKey) : List Char :=
  (", ".intercalate (keys.map OrderKey.text)).toList

/-- The clauses behind the sources, by characters. -/
lemma toList_tailText (c : Clauses) : c.tailText.toList =
    clauseChars .predicate exprChars c.predicate ++
      (clauseChars .grouping Expression.charsOf (nonempty? c.groupBy) ++
        (clauseChars .ordering orderChars (nonempty? c.orderBy) ++
          (clauseChars .limit exprChars c.limit ++
            clauseChars .offset exprChars c.offset))) := by
  have hclause (m : Mark) (e? : Option Expression) :
      (clauseText m.text e?).toList = clauseChars m exprChars e? := by
    cases e? <;> simp [clauseText, clauseChars, exprChars]
  have hgrouping : (if c.groupBy.isEmpty then "" else
      " GROUP BY " ++ expressionTexts c.groupBy).toList =
        clauseChars .grouping Expression.charsOf (nonempty? c.groupBy) := by
    cases c.groupBy <;> simp [clauseChars, nonempty?, Expression.charsOf, Mark.text]
  have hordering : (if c.orderBy.isEmpty then "" else
      " ORDER BY " ++ ", ".intercalate (c.orderBy.map OrderKey.text)).toList =
        clauseChars .ordering orderChars (nonempty? c.orderBy) := by
    cases c.orderBy <;> simp [clauseChars, nonempty?, orderChars, Mark.text]
  simp only [tailText, String.toList_append, List.append_assoc, hgrouping, hordering,
    ← hclause, Mark.text]

/-- The clauses stand in their order. -/
lemma follows_tailText (c : Clauses) (h : Follows 7 rest) :
    Follows 2 (c.tailText.toList ++ rest) := by
  rw [toList_tailText]
  simp only [List.append_assoc]
  exact Follows.clause .predicate _ _ <| Follows.clause .grouping _ _ <|
    Follows.clause .ordering _ _ <| Follows.clause .limit _ _ <| Follows.clause .offset _ _ h

/-- **The clauses behind the sources are read as they were written.** -/
theorem reads_text (h : ∀ e ∈ c.expressions, e.isLegible = true) (hrest : Follows 7 rest) :
    Takes (TextReader.clauses c.selection c.distinct) (c.tailText.toList ++ rest) c rest := by
  obtain ⟨-, hpredicate, hgroupBy, horderBy, hlimit, hoffset⟩ := forall_mem_expressions.1 h
  -- what stands behind each clause, from the last one on
  have hbehindLimit := Follows.clause .offset exprChars c.offset hrest
  have hbehindOrdering := Follows.clause .limit exprChars c.limit hbehindLimit
  have hbehindGrouping := Follows.clause .ordering orderChars (nonempty? c.orderBy) hbehindOrdering
  have hbehindPredicate :=
    Follows.clause .grouping Expression.charsOf (nonempty? c.groupBy) hbehindGrouping
  rw [toList_tailText]
  simp only [List.append_assoc]
  refine .bind (clause_text .predicate hbehindPredicate fun e he =>
    (e.reads_text (hpredicate e he)).text hbehindPredicate.stops) ?_
  refine .bind (clause_text .grouping hbehindGrouping fun es hes => ?_) ?_
  · obtain ⟨rfl, hne⟩ := ne_nil_of_nonempty? hes
    exact Expression.expressions_text hne (fun e he => e.reads_text (hgroupBy e he))
      (hbehindGrouping.stops_ne.imp fun _ hm => ⟨hm.1, hm.2.1⟩)
  refine .bind (clause_text .ordering hbehindOrdering fun keys hkeys => ?_) ?_
  · obtain ⟨rfl, hne⟩ := ne_nil_of_nonempty? hkeys
    exact orderKeys_text hne horderBy hbehindOrdering
  refine .bind (clause_text .limit hbehindLimit fun e he =>
    (e.reads_text (hlimit e he)).text hbehindLimit.stops) ?_
  refine .bind (clause_text .offset hrest fun e he =>
    (e.reads_text (hoffset e he)).text hrest.stops) ?_
  rw [getD_nonempty?, getD_nonempty?]
  exact .done fun _ => rfl

end Clauses

end EntityQuery
