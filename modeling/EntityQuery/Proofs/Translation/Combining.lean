import EntityQuery.Proofs.Plan.Embedding
import EntityQuery.Proofs.Translation.Folding

/-!
# Set operations on queries

The operands of a set operation are translated one after the other, so that the right one has the
slots of its constants and the aliases that are made up for it further on.  Its rows are those that
it has on its own, and the rows of the operation are made of those of the operands.

* `firstOccurrences`: the first of the documents that have one text.
* `SetOperation.rows`: the rows of an operation as the documents that occur in its operands.
* `rows_combine`: a set operation on queries has the rows of the operation on their rows.
-/

namespace EntityQuery

/-! ## Texts that occur

The store compares documents by their texts, and goes through them once with the texts seen so far.
What comes of it is described without that list, so that it can be compared with operations on rows.
-/

/-- The first of the documents that have one text, in order. -/
def firstOccurrences (documents : List Document) : List Document :=
  documents.eraseDupsBy fun d d' => d.text == d'.text

/-- Whether the text of a document is that of one of some documents. -/
def Document.occursIn (d : Document) (documents : List Document) : Bool :=
  documents.any fun d' => d.text == d'.text

/-- The rows of a set operation: those of both sides one after the other, or the first occurrences
of the rows that occur on some side, on both sides, or on the left side only. -/
def SetOperation.rows (left right : List Document) : SetOperation → List Document
  | .unionAll => left ++ right
  | .union => firstOccurrences (left ++ right)
  | .intersect => firstOccurrences (left.filter fun d => d.occursIn right)
  | .except => firstOccurrences (left.filter fun d => !d.occursIn right)

lemma firstOccurrences_cons (d : Document) (ds : List Document) :
    firstOccurrences (d :: ds) = d :: firstOccurrences (ds.filter fun d' => d'.text != d.text) := by
  rw [firstOccurrences, List.eraseDupsBy_cons, firstOccurrences]
  congr 3
  funext d'
  cases h : d'.text == d.text <;> simp [bne, h]

/-- To leave out texts that have been seen is to look at the other documents only. -/
lemma dedupeFrom_eq (seen : List String) (ds : List Document) :
    dedupeFrom seen ds = firstOccurrences (ds.filter fun d => !seen.contains d.text) := by
  induction ds generalizing seen with
  | nil => rfl
  | cons d ds ih =>
      rw [dedupeFrom, List.filter_cons]
      cases hseen : seen.contains d.text with
      | true => exact ih seen
      | false =>
          simp only [Bool.false_eq_true, if_false, Bool.not_false, if_true]
          rw [firstOccurrences_cons, ih, List.filter_filter]
          congr 3
          funext d'
          rw [List.contains_cons, Bool.not_or]
          rfl

theorem dedupe_eq (ds : List Document) : dedupe ds = firstOccurrences ds := by
  rw [dedupe, dedupeFrom_eq]
  simp

/-- A test of texts is asked before or after repetitions are left out, as texts that fail it do not
have to be remembered. -/
lemma filter_dedupeFrom {test : String → Bool} (ds : List Document) {seen seen' : List String}
    (hseen : ∀ text, test text = true → seen'.contains text = seen.contains text) :
    (dedupeFrom seen ds).filter (fun d => test d.text) =
      dedupeFrom seen' (ds.filter fun d => test d.text) := by
  induction ds generalizing seen seen' with
  | nil => rfl
  | cons d ds ih =>
      rw [dedupeFrom, List.filter_cons]
      cases htest : test d.text with
      | true =>
          rw [if_pos rfl, dedupeFrom, hseen _ htest]
          cases seen.contains d.text with
          | true => exact ih hseen
          | false =>
              have hcons : ∀ text, test text = true →
                  (d.text :: seen').contains text = (d.text :: seen).contains text := by
                intro text h
                rw [List.contains_cons, List.contains_cons, hseen text h]
              simp only [Bool.false_eq_true, if_false]
              rw [List.filter_cons, htest, if_pos rfl, ih hcons]
      | false =>
          rw [if_neg Bool.false_ne_true]
          cases seen.contains d.text with
          | true => exact ih hseen
          | false =>
              have hcons : ∀ text, test text = true →
                  seen'.contains text = (d.text :: seen).contains text := by
                intro text h
                have hne : (text == d.text) = false := by
                  refine beq_eq_false_iff_ne.2 fun heq => ?_
                  rw [heq, htest] at h
                  cases h
                rw [List.contains_cons, hne, Bool.false_or, hseen text h]
              simp only [Bool.false_eq_true, if_false]
              rw [List.filter_cons, htest, if_neg Bool.false_ne_true, ih hcons]

lemma filter_dedupe (test : String → Bool) (ds : List Document) :
    (dedupe ds).filter (fun d => test d.text) = firstOccurrences (ds.filter fun d => test d.text) := by
  rw [dedupe, filter_dedupeFrom ds fun _ _ => rfl, ← dedupe, dedupe_eq]

lemma Document.occursIn_eq (d : Document) (documents : List Document) :
    d.occursIn documents = (documents.map Document.text).contains d.text := by
  rw [occursIn, List.contains_eq_any_beq, List.any_map]
  rfl

/-- An operation has the rows that its definition asks for. -/
theorem SetOperation.combine_eq (op : SetOperation) (left right : List Document) :
    op.combine left right = op.rows left right := by
  cases op with
  | unionAll => rfl
  | union => exact dedupe_eq _
  | intersect =>
      simp only [rows, Document.occursIn_eq]
      exact filter_dedupe _ left
  | except =>
      simp only [rows, Document.occursIn_eq]
      exact filter_dedupe (fun text => !(right.map Document.text).contains text) left

/-! ## Operations on queries

The right operand is translated behind the left one.  Its slots are further on and its aliases
others, and it has the rows that it has on its own all the same. -/

section

variable {tr : Translator} {c : Context} {op : SetOperation} {q₁ q₂ : Query}
  {t₁ t₂ t : Translation} {collections : Collections}
  {parameters₁ parameters₂ parameters : List (String × Document)} {rows₁ rows₂ : List Document}

/-- **Set operations compose.**  If two queries have rows, each with its own constants, then so has
a set operation on them once its constants are bound: the rows of the operation on theirs.  Its
operands are statements that have the rows of the queries, with the parameters of the whole. -/
theorem rows_combine (hq : q₁.WellFormed) (h₁ : q₁.HasRows tr c t₁ ⟨collections, parameters₁⟩ rows₁)
    (h₂ : q₂.HasRows tr c t₂ ⟨collections, parameters₂⟩ rows₂)
    (htranslated : tr.translate (.combine op q₁ q₂) = .ok t)
    (hbound : ∃ key number plan, Plan.compile tr.registry key number t = .ok plan ∧
      plan.bind (Query.combine op q₁ q₂).constants c = .ok parameters) :
    t.query.statement.run ⟨collections, parameters⟩ = .ok (op.rows rows₁ rows₂) ∧
      ∃ s₁ s₂, t.query.statement = .compound op s₁ s₂ ∧
        s₁.run ⟨collections, parameters⟩ = .ok rows₁ ∧
        s₂.run ⟨collections, parameters⟩ = .ok rows₂ := by
  obtain ⟨stage₁, p₁, hstage₁, hquery₁, -, hrows₁⟩ := h₁.staged
  obtain ⟨stage, p, hstage, hquery, -⟩ := Translator.translate_eq_ok htranslated
  obtain ⟨-, hreads⟩ := Translator.stage_eq_ok hstage
  -- the right operand is translated behind the left one
  obtain ⟨-, hstage⟩ := Translating.refuse_bind_eq_ok.1 hstage
  obtain ⟨left, p₂, hleft, hstage⟩ := Translating.bind_eq_ok.1 hstage
  cases hstage₁.symm.trans hleft
  obtain ⟨right, p₃, hright, hstage⟩ := Translating.bind_eq_ok.1 hstage
  cases Translating.pure_eq_ok.1 hstage
  have hrun₁ : stage₁.statement.run ⟨collections, parameters⟩ = .ok rows₁ := by
    refine Statement.run_persists (h₁.extends ?_ (List.append_assoc ..) hbound) _ _ hrows₁
    rw [hquery, hquery₁]
    exact (Translator.stage_eq_ok hright).2.parameters.extends
  have hrun₂ : right.statement.run ⟨collections, parameters⟩ = .ok rows₂ := by
    have htable : ParameterTable.Binds 0 (Query.combine op q₁ q₂).inputs .empty
        t.query.parameters := by
      rw [hquery]
      exact hreads.parameters
    exact h₂.behind hq hstage₁ hright htable hbound
  have hstatement : t.query.statement = .compound op stage₁.statement right.statement := by
    rw [hquery]
    rfl
  refine ⟨?_, _, _, hstatement, hrun₁, hrun₂⟩
  rw [hstatement, Statement.run, hrun₁, hrun₂, ← op.combine_eq]
  rfl

end

namespace Sample

/-- The persons above 20 years but for the first person, for which the statement nests. -/
def othersAboveTwenty : Query :=
  .filter (.skip (.source "Person" "p") (.ofValue (.int64 1)))
    (.binary .gt age (.ofValue (.int64 20)))

/-- The adults that are among them. -/
def adultsAmongOthers : Query := .combine .intersect adults othersAboveTwenty

end Sample

/-- The adults that are among the others above 20 years. -/
theorem rows_combine_adults : ∃ t₁ t₂ t parameters₁ parameters₂ parameters,
    Sample.adults.WellFormed ∧
    Sample.adults.HasRows Sample.translator {} t₁ ⟨Sample.threePersons, parameters₁⟩
      [Sample.aged 30, Sample.aged 40] ∧
    Sample.othersAboveTwenty.HasRows Sample.translator {} t₂ ⟨Sample.threePersons, parameters₂⟩
      [Sample.aged 40] ∧
    Sample.translator.translate Sample.adultsAmongOthers = .ok t ∧
    (∃ key number plan, Plan.compile Sample.translator.registry key number t = .ok plan ∧
      plan.bind Sample.adultsAmongOthers.constants {} = .ok parameters) ∧
    t.query.statement.run ⟨Sample.threePersons, parameters⟩ =
      .ok (SetOperation.intersect.rows [Sample.aged 30, Sample.aged 40] [Sample.aged 40]) ∧
    ∃ s₁ s₂, t.query.statement = .compound .intersect s₁ s₂ ∧
      s₁.run ⟨Sample.threePersons, parameters⟩ = .ok [Sample.aged 30, Sample.aged 40] ∧
      s₂.run ⟨Sample.threePersons, parameters⟩ = .ok [Sample.aged 40] := by
  obtain ⟨t₁, parameters₁, h₁⟩ : ∃ t parameters, Sample.adults.HasRows Sample.translator {} t
      ⟨Sample.threePersons, parameters⟩ [Sample.aged 30, Sample.aged 40] :=
    ⟨_, _, rfl, ⟨⟨[]⟩, 0, _, rfl, rfl⟩, rfl⟩
  obtain ⟨t₂, parameters₂, h₂⟩ : ∃ t parameters,
      Sample.othersAboveTwenty.HasRows Sample.translator {} t ⟨Sample.threePersons, parameters⟩
        [Sample.aged 40] :=
    ⟨_, _, rfl, ⟨⟨[]⟩, 0, _, rfl, rfl⟩, rfl⟩
  obtain ⟨t, parameters, htranslated, hbound⟩ : ∃ t parameters,
      Sample.translator.translate Sample.adultsAmongOthers = .ok t ∧
      ∃ key number plan, Plan.compile Sample.translator.registry key number t = .ok plan ∧
        plan.bind Sample.adultsAmongOthers.constants {} = .ok parameters :=
    ⟨_, _, rfl, ⟨[]⟩, 0, _, rfl, rfl⟩
  have hq : Sample.adults.WellFormed := ⟨⟩
  exact ⟨t₁, t₂, t, parameters₁, parameters₂, parameters, hq, h₁, h₂, htranslated, hbound,
    rows_combine hq h₁ h₂ htranslated hbound⟩

-- The rows that occur on both sides.
example : SetOperation.intersect.rows [Sample.aged 30, Sample.aged 40] [Sample.aged 40] =
    [Sample.aged 40] := by rfl

end EntityQuery
