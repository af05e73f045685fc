import EntityQuery.Proofs.Evaluation.RowCounts
import EntityQuery.Proofs.Translation.Paging
import EntityQuery.Provider.Session

/-!
# Numbers of rows that are checked before a request

A number of rows that is a constant or a parameter becomes a placeholder that is marked in the
parameter table, and binding refuses a value for it that is no integer from zero on.  The entry
stays marked while the rest of the query is translated.  A number of rows that is computed is not
marked, and what it comes to is only seen when the statement is evaluated.

* `Query.counts`: the formulas that number rows in a query.
* `ParameterTable.Counts`: an expression is the placeholder of a formula that is marked.
* `Translator.counted_stage`: what numbers rows in a stage, at any depth, is marked or computed.
* `Registry.WritesCounts`: a number of rows is written as the integer that it is.
* `ParameterTable.Counts.bound`: a placeholder that is marked names a number of rows.
* `rowCounts_checked`: no statement with bound parameters fails for a number that is not computed.
* `rowCounts_checked_differ`: one that is computed is not checked.
-/

namespace EntityQuery

/-- Whether a formula is supplied as a whole from outside of the statement. -/
def Formula.isSupplied : Formula → Bool
  | .constant .. | .parameter .. => true
  | _ => false

/-- The formulas that number rows in a query, at any depth. -/
def Query.counts : Query → List Formula
  | .source .. => []
  | .skip input count | .take input count => input.counts ++ [count]
  | .join _ left right _ _ | .combine _ left right => left.counts ++ right.counts
  | .filter input _ | .project input _ | .orderBy input _ _ | .thenBy input _ _
  | .groupBy input _ _ | .correlate input _ | .distinct input | .conclude input _ _ => input.counts

/-- The value that is supplied for a formula, which is a constant or a parameter, in a context. -/
def Formula.supplied? (c : Context) : Formula → Option Value
  | .constant value _ => some value
  | .parameter name _ => c.parameter? name
  | _ => none

/-! ## Marked placeholders

The mark is on an entry of the table and not on the expression.  It is found again by the name of
the placeholder, and stays while further inputs are read. -/

/-- An entry belongs to a formula: to the constant of its slot, or to the parameter of its name. -/
def ParameterEntry.Supplies (e : ParameterEntry) (slots : List Slot) : Formula → Prop
  | .constant value t => ∃ k, e.origin = .constant k ∧ slots[k]? = some ⟨⟨value, t⟩, false⟩
  | .parameter name _ => e.origin = .named ∧ e.name = name
  | _ => False

lemma ParameterEntry.Supplies.later {e : ParameterEntry} {slots slots' : List Slot} {f : Formula}
    (h : e.Supplies slots f) (hslots : slots <+: slots') : e.Supplies slots' f := by
  cases f with
  | constant value t =>
      obtain ⟨k, horigin, hk⟩ := h
      obtain ⟨more, rfl⟩ := hslots
      refine ⟨k, horigin, ?_⟩
      rw [List.getElem?_append_left (List.getElem?_eq_some_iff.1 hk).1]
      exact hk
  | parameter name t => exact h
  | _ => cases h

namespace ParameterTable

/-- An expression is the placeholder of a formula of an integer type, and its entry is of that type
and marked as a number of rows. -/
def Counts (t : ParameterTable) (slots : List Slot) (f : Formula) (e : Expression) : Prop :=
  ∃ entry, e = .placeholder entry.name ∧ t.find? entry.name = some entry ∧
    entry.rowCount = true ∧ entry.scalarType = f.scalarType ∧
    f.scalarType.isInteger = true ∧ entry.Supplies slots f

/-- Marking changes the entry of the name only. -/
lemma find?_markRowCount (t : ParameterTable) (marked name : String) :
    (t.markRowCount marked).find? name =
      (t.find? name).map fun e => if name = marked then { e with rowCount := true } else e := by
  obtain ⟨entries⟩ := t
  simp only [find?, markRowCount]
  induction entries with
  | nil => rfl
  | cons first entries ih =>
      rw [markFirst]
      by_cases hmarked : first.name = marked
      · subst hmarked
        rw [if_pos rfl, List.find?_cons, List.find?_cons]
        cases hname : first.name == name with
        | true => simp [(beq_iff_eq.1 hname).symm]
        | false => simp [Ne.symm (beq_eq_false_iff_ne.1 hname)]
      · rw [if_neg hmarked, List.find?_cons, List.find?_cons, ih]
        cases hname : first.name == name with
        | true => simp [← beq_iff_eq.1 hname, hmarked]
        | false => rfl

/-- An entry that is found is found behind further ones. -/
lemma find?_push_of_some {t : ParameterTable} {name : String} {e : ParameterEntry}
    (h : t.find? name = some e) (entry : ParameterEntry) :
    (t.push entry).find? name = some e := by
  rw [find?, ParameterTable.push, List.find?_append]
  rw [find?] at h
  rw [h]
  rfl

/-- The entry of a new name is found. -/
lemma find?_push {t : ParameterTable} {entry : ParameterEntry} (h : t.find? entry.name = none) :
    (t.push entry).find? entry.name = some entry := by
  rw [find?, ParameterTable.push, List.find?_append]
  rw [find?] at h
  rw [h]
  simp

variable {t t' : ParameterTable} {slots slots' : List Slot} {f : Formula} {e : Expression}

namespace Counts

lemma markRowCount (h : t.Counts slots f e) (marked : String) :
    (t.markRowCount marked).Counts slots f e := by
  obtain ⟨entry, rfl, hfind, hcount, hrest⟩ := h
  refine ⟨entry, rfl, ?_, hcount, hrest⟩
  rw [find?_markRowCount, hfind, Option.map_some]
  split
  · rw [← hcount]
  · rfl

lemma push (h : t.Counts slots f e) (more : ParameterEntry) : (t.push more).Counts slots f e := by
  obtain ⟨entry, he, hfind, hrest⟩ := h
  exact ⟨entry, he, find?_push_of_some hfind more, hrest⟩

lemma bindSlot (h : t.Counts slots f e) (slot : Nat) (scalarType : ScalarType) :
    (t.bindSlot slot scalarType).1.Counts slots f e := by
  cases hfind : t.find? (slotName slot) with
  | some entry =>
      simp only [ParameterTable.bindSlot, hfind]
      exact h
  | none =>
      simp only [ParameterTable.bindSlot, hfind]
      exact h.push _

lemma bindNamed (h : t.Counts slots f e) {name : String} {scalarType : ScalarType}
    (hname : t.bindNamed name scalarType = .ok (t', name)) : t'.Counts slots f e := by
  obtain ⟨-, ⟨_, -, -, rfl⟩ | ⟨-, rfl⟩⟩ := bindNamed_eq_ok hname
  · exact h
  · exact h.push _

/-- **What is marked stays marked** while further inputs are read. -/
theorem binds {n : Nat} {is : List Input} (h : t.Counts slots f e) (hbinds : Binds n is t t') :
    t'.Counts slots f e := by
  induction hbinds with
  | refl => exact h
  | bound _ ih => exact ih (h.bindSlot _ _)
  | tested _ ih => exact ih h
  | named hname _ ih => exact ih (h.bindNamed hname)
  | marked _ ih => exact ih (h.markRowCount _)

/-- What belongs to a slot does so among further slots. -/
lemma later (h : t.Counts slots f e) (hslots : slots <+: slots') : t.Counts slots' f e := by
  obtain ⟨entry, he, hfind, hcount, htype, hinteger, hsupplies⟩ := h
  exact ⟨entry, he, hfind, hcount, htype, hinteger, hsupplies.later hslots⟩

/-- The placeholder of an entry that is marked counts. -/
lemma of_marked {entry : ParameterEntry} (h : t.find? entry.name = some entry)
    (htype : entry.scalarType = f.scalarType) (hinteger : f.scalarType.isInteger = true)
    (hsupplies : entry.Supplies slots f) :
    (t.markRowCount entry.name).Counts slots f (.placeholder entry.name) := by
  refine ⟨{ entry with rowCount := true }, rfl, ?_, rfl, htype, hinteger, ?_⟩
  · rw [find?_markRowCount, h, Option.map_some, if_pos rfl]
  · cases f <;> exact hsupplies

end Counts

end ParameterTable

/-- The slots that a translation has taken so far. -/
structure Progress.Slotted (p : Progress) (slots : List Slot) : Prop where
  length : slots.length = p.nextSlot
  aligned : p.parameters.Aligned slots

namespace Progress.Slotted

variable {p p' : Progress} {slots : List Slot}

lemma start : Progress.Slotted {} [] := ⟨rfl, ParameterTable.aligned_empty⟩

lemma reads {is : List Input} (h : p.Slotted slots) (hreads : p.Reads is p') :
    p'.Slotted (slots ++ slotsOf is) where
  length := by rw [List.length_append, h.length, hreads.nextSlot]
  aligned := h.aligned.binds (h.length ▸ hreads.parameters)

end Progress.Slotted

namespace Translator

open Translating

variable {tr : Translator} {frame : Frame} {p p' : Progress} {slots : List Slot}

/-- **The number of rows that a constant or a parameter names is marked.** -/
theorem counts_rowCount {construct : String} {count : Formula} {e : Expression}
    (hp : p.Slotted slots) (hcount : count.isSupplied = true)
    (h : tr.rowCount frame construct count p = .ok (e, p')) :
    p'.parameters.Counts (slots ++ slotsOf count.inputs) count e := by
  obtain ⟨hinteger, h⟩ := refuse_bind_eq_ok.1 h
  have htype : count.scalarType.isInteger = true := by simpa using hinteger
  obtain ⟨e, q, hformula, h⟩ := bind_eq_ok.1 h
  cases count with
  | constant value t =>
      cases constant_eq_ok hformula
      obtain ⟨_, _, hmark, h⟩ := bind_eq_ok.1 h
      cases hmark
      cases pure_eq_ok.1 h
      -- no constant has been read at this slot, so that it gets an entry of its own
      have hfresh : p.parameters.find? (slotName p.nextSlot) = none :=
        hp.length ▸ hp.aligned.find?_next
      let entry : ParameterEntry := ⟨slotName p.nextSlot, t, .constant p.nextSlot, false⟩
      have hbound : (p.parameters.bindSlot p.nextSlot t).1 = p.parameters.push entry := by
        simp only [ParameterTable.bindSlot, hfresh, entry]
      have hfind : (p.parameters.bindSlot p.nextSlot t).1.find? entry.name = some entry := by
        rw [hbound]
        exact ParameterTable.find?_push hfresh
      refine ParameterTable.Counts.of_marked hfind rfl htype ⟨p.nextSlot, rfl, ?_⟩
      rw [← hp.length]
      exact List.getElem?_concat_length
  | parameter name t =>
      obtain ⟨parameters, hname, heq⟩ := parameter_eq_ok hformula
      cases heq
      obtain ⟨_, _, hmark, h⟩ := bind_eq_ok.1 h
      cases hmark
      cases pure_eq_ok.1 h
      obtain ⟨hvalid, ⟨entry, hfind, hentry, rfl⟩ | ⟨hfind, rfl⟩⟩ :=
        ParameterTable.bindNamed_eq_ok hname
      · obtain ⟨hmem, rfl⟩ := ParameterTable.find?_eq_some hfind
        have horigin := hp.aligned.origin_of_name hmem hvalid
        exact .of_marked hfind hentry htype ⟨horigin, rfl⟩
      · let entry : ParameterEntry := ⟨name, t, .named, false⟩
        have hpushed : (p.parameters.push entry).find? entry.name = some entry :=
          ParameterTable.find?_push hfind
        exact .of_marked hpushed rfl htype ⟨rfl, rfl⟩
  | _ => cases hcount

/-! ## Formulas and their expressions

A number of rows that is no constant and no parameter is computed by the store, and nothing is
marked for it.  The two kinds are kept apart from the beginning. -/

/-- An expression is that of a number of rows that is neither a constant nor a parameter. -/
def Computes (tr : Translator) (fs : List Formula) (e : Expression) : Prop :=
  ∃ f ∈ fs, f.isSupplied = false ∧ ∃ frame n, e = tr.expression frame n f

/-- Some expressions are those of some numbers of rows, and what is a constant or a parameter among
them is marked. -/
structure Counted (tr : Translator) (slots : List Slot) (t : ParameterTable) (fs : List Formula)
    (es : List Expression) : Prop where
  expressions : ∀ e ∈ es, tr.Computes fs e ∨
    ∃ f ∈ fs, f.isSupplied = true ∧ t.Counts slots f e
  formulas : ∀ f ∈ fs, f.isSupplied = true → ∃ e, t.Counts slots f e

namespace Counted

variable {slots' : List Slot} {t : ParameterTable} {fs fs' : List Formula}
  {es es' : List Expression}

lemma nil : tr.Counted slots t [] [] :=
  ⟨fun _ he => (List.not_mem_nil he).elim, fun _ hf => (List.not_mem_nil hf).elim⟩

lemma later {is : List Input} (h : tr.Counted slots p.parameters fs es)
    (hslots : slots <+: slots') (hreads : p.Reads is p') :
    tr.Counted slots' p'.parameters fs es where
  expressions e he := (h.expressions e he).imp_right fun ⟨f, hmem, hsupplied, hf⟩ =>
    ⟨f, hmem, hsupplied, (hf.binds hreads.parameters).later hslots⟩
  formulas f hf hsupplied := by
    obtain ⟨e, he⟩ := h.formulas f hf hsupplied
    exact ⟨e, (he.binds hreads.parameters).later hslots⟩

/-- The numbers of two inputs are those of both, of which not all expressions need to be left. -/
lemma append {es'' : List Expression} (h : tr.Counted slots t fs es)
    (h' : tr.Counted slots t fs' es') (hes : ∀ e ∈ es'', e ∈ es ∨ e ∈ es') :
    tr.Counted slots t (fs ++ fs') es'' where
  expressions e he := by
    rcases hes e he with he | he
    · exact (h.expressions e he).imp (fun ⟨f, hf, h⟩ => ⟨f, List.mem_append_left _ hf, h⟩)
        fun ⟨f, hf, h⟩ => ⟨f, List.mem_append_left _ hf, h⟩
    · exact (h'.expressions e he).imp (fun ⟨f, hf, h⟩ => ⟨f, List.mem_append_right _ hf, h⟩)
        fun ⟨f, hf, h⟩ => ⟨f, List.mem_append_right _ hf, h⟩
  formulas f hf hsupplied := by
    rcases List.mem_append.1 hf with hf | hf
    · exact h.formulas f hf hsupplied
    · exact h'.formulas f hf hsupplied

end Counted

/-- A number of rows becomes an expression that is marked if it is a constant or a parameter. -/
lemma counted_rowCount {construct : String} {count : Formula} {e : Expression}
    (hp : p.Slotted slots) (h : tr.rowCount frame construct count p = .ok (e, p')) :
    tr.Counted (slots ++ slotsOf count.inputs) p'.parameters [count] [e] := by
  cases hsupplied : count.isSupplied with
  | true =>
      have hcounts := counts_rowCount hp hsupplied h
      exact ⟨by simpa using .inr ⟨hsupplied, hcounts⟩, by simpa using fun _ => ⟨e, hcounts⟩⟩
  | false =>
      have hcomputes : tr.Computes [count] e :=
        ⟨count, List.mem_singleton_self _, hsupplied, frame, _, (rowCount_eq_ok h).1⟩
      exact ⟨by simpa using .inl hcomputes, by simp [hsupplied]⟩

end Translator

/-! ## Slots -/

namespace Query

variable {q input left right : Query} {own : List Input}

/-- The slots of an input come before those of the operator. -/
lemma slots_of_input (slots : List Slot) (h : q.inputs = input.inputs ++ own) :
    slots ++ q.slots = slots ++ input.slots ++ slotsOf own := by
  rw [Query.slots, h, slotsOf_append, ← List.append_assoc]
  rfl

/-- The slots of two inputs come before those of the operator. -/
lemma slots_of_inputs (slots : List Slot) (h : q.inputs = left.inputs ++ right.inputs ++ own) :
    slots ++ left.slots ++ right.slots <+: slots ++ q.slots := by
  have hslots : q.slots = left.slots ++ right.slots ++ slotsOf own := by
    rw [Query.slots, h, slotsOf_append, slotsOf_append]
    rfl
  rw [hslots, ← List.append_assoc, ← List.append_assoc]
  exact List.prefix_append ..

end Query

/-! ## Stages

The statement of a stage numbers rows in its own clauses and in the statements of its sources.  The
induction on the translation compares them with the formulas that number rows in the query. -/

/-- What numbers rows in the frame of a stage does so in the stage. -/
lemma Stage.Enters.counts {closed : Frame → Bool} {s : Stage} {f : Frame} (h : s.Enters closed f) :
    f.finish.counts = s.statement.counts := by
  cases h with
  | kept => rfl
  | nested => simp [Frame.finish, Frame.ofStatement, Frame.clauses, Statement.counts, Source.counts,
      termCounts, Clauses.counts, Stage.statement]
  | compound => simp [Frame.finish, Frame.ofStatement, Frame.clauses, Statement.counts,
      Source.counts, termCounts, Clauses.counts, Stage.statement]

/-- What numbers rows in the source that a stage is does so in the stage. -/
lemma Stage.counts_sourceAs (s : Stage) (aliasName : String) :
    (s.sourceAs aliasName).counts ⊆ s.statement.counts := by
  cases s with
  | compound => exact fun _ he => he
  | frame f =>
      rw [sourceAs]
      cases f.bareKeyspace? with
      | none => simp [Source.counts]
      | some k => simp [Source.counts]

namespace Frame

variable {f : Frame} {e : Expression}

/-- Where an expression is put in for a number of rows, no other one is added. -/
lemma mem_counts_paged {count : Expression} {offset limit : Option Expression}
    (hoffset : offset = f.offset ∨ offset = some count)
    (hlimit : limit = f.limit ∨ limit = some count)
    (h : e ∈ { f with offset, limit }.finish.counts) : e ∈ f.finish.counts ∨ e = count := by
  simp only [finish, Statement.counts, Clauses.counts, clauses, List.mem_append,
    Option.mem_toList] at h ⊢
  rcases hoffset with rfl | rfl <;> rcases hlimit with rfl | rfl <;> grind

lemma mem_counts_extend {fields : List (String × FieldYield)} {t : Term} {b : Binding}
    (h : e ∈ (f.extend fields t b).finish.counts) : e ∈ f.finish.counts ∨ e ∈ t.counts := by
  simp only [extend, finish, Statement.counts, Clauses.counts, clauses, termCounts_append,
    termCounts, List.append_nil, List.mem_append] at h ⊢
  tauto

end Frame

namespace Translator

open Translating

variable {tr : Translator} {p p' : Progress}

/-- A correlated navigation numbers no rows. -/
lemma counts_correlated {c : Correlation} {source : Binding} {term : Term}
    (h : tr.correlated c source = some term) : term.counts = [] := by
  rw [correlated] at h
  cases hkind : c.kind with
  | unnest path =>
      simp only [hkind, Option.some.injEq] at h
      cases h
      rfl
  | lookup sourceField targetField =>
      simp only [hkind, Option.map_eq_some_iff] at h
      obtain ⟨k, -, rfl⟩ := h
      rfl

/-- The frame of a terminal numbers the rows that the frame before it does. -/
lemma Concludes.counts {frame frame' : Frame} {n m : Nat} {terminal : Terminal}
    {arg : Option Formula} {scalar : YieldedScalar}
    (h : Concludes tr frame n terminal arg frame' scalar m) :
    frame'.finish.counts = frame.finish.counts := by
  cases h <;> rfl

/-- **The numbers of rows behind an operator** are those of the frame that it starts from, and its
own one. -/
lemma Adds.counted {q input : Query} {closed : Frame → Bool} {frame frame' : Frame}
    {slots : List Slot} (h : Adds tr frame p q input closed frame' p') (hp : p.Slotted slots)
    (hframe : tr.Counted slots p.parameters input.counts frame.finish.counts) :
    tr.Counted (slots ++ slotsOf (Formula.inputsOf q.readFormulas)) p'.parameters q.counts
      frame'.finish.counts := by
  -- what the frame has marked is still so when the formulas of the operator have been read
  have hkept := hframe.later
    (List.prefix_append slots (slotsOf (Formula.inputsOf q.readFormulas))) h.reads
  cases h with
  | filter | project | orderBy | thenBy | groupBy | distinct => exact hkept
  | correlate _ _ _ hterm =>
      refine ⟨fun e he => ?_, hkept.formulas⟩
      rcases Frame.mem_counts_extend he with he | he
      · exact hkept.expressions e he
      · rw [counts_correlated hterm] at he
        cases he
  | @skip input count e p' he =>
      have hcount := counted_rowCount hp he
      rw [← Formula.inputsOf_singleton] at hcount
      exact hkept.append hcount fun _ h =>
        (Frame.mem_counts_paged (.inr rfl) (.inl rfl) h).imp_right List.mem_singleton.2
  | @take input count e p' he =>
      have hcount := counted_rowCount hp he
      rw [← Formula.inputsOf_singleton] at hcount
      exact hkept.append hcount fun _ h =>
        (Frame.mem_counts_paged (.inl rfl) (.inr rfl) h).imp_right List.mem_singleton.2
  | @conclude input _ _ _ _ _ hterminal =>
      have hcounts := (terminal_eq_ok (q := input) hterminal).1.counts
      exact hcounts ▸ hkept

/-- **The numbers of rows of a stage**, at any depth, are those of its query, and what is supplied
is marked. -/
theorem counted_stage {q : Query} {s : Stage} {slots : List Slot} (hp : p.Slotted slots)
    (h : tr.stage q p = .ok (s, p')) :
    tr.Counted (slots ++ q.slots) p'.parameters q.counts s.statement.counts := by
  have htranslates := translates_of_stage h
  clear h
  induction htranslates generalizing slots with
  | source => exact .nil
  | operator hs _ henter hadds ih =>
      obtain ⟨henters, hreads⟩ := Stage.enter_eq_ok henter
      have hslotted := (hp.reads (stage_eq_ok hs).2).reads hreads
      rw [slotsOf_nil, List.append_nil] at hslotted
      have hinput := (ih hp).later (List.prefix_refl _) hreads
      rw [← henters.counts] at hinput
      rw [Query.slots_of_input slots hadds.inputs]
      exact hadds.counted hslotted hinput
  | @join _ _ left right _ rs _ _ _ _ _ _ _ _ _ _ _ leftKey rightKey _ hl _ hr _ henter _ _ _ hle
      hre ihl ihr =>
      obtain ⟨henters, hreads⟩ := Stage.enter_eq_ok henter
      have hright := ihr (hp.reads (stage_eq_ok hl).2)
      -- what the left side has marked is still so when the right side has been read
      have hleft := (ihl hp).later (List.prefix_append _ right.slots) (stage_eq_ok hr).2
      have hreadsKeys := (hreads.trans (formula_eq_ok leftKey hle).2).trans
        (formula_eq_ok rightKey hre).2
      refine (hleft.append hright fun e he => ?_).later (Query.slots_of_inputs slots rfl)
        hreadsKeys
      rcases Frame.mem_counts_extend he with he | he
      · rw [henters.counts] at he
        exact .inl he
      · exact .inr (rs.counts_sourceAs _ he)
  | @combine _ left right _ _ _ _ _ _ hl _ hr _ ihl ihr =>
      have hright := ihr (hp.reads (stage_eq_ok hl).2)
      have hleft := (ihl hp).later (List.prefix_append _ right.slots) (stage_eq_ok hr).2
      have hboth := hleft.append hright fun _ => List.mem_append.1
      exact hboth.later (Query.slots_of_inputs slots rfl) (.refl _)

/-- The numbers of rows of a translation are those of its query. -/
lemma counted_translate {q : Query} {t : Translation} (h : tr.translate q = .ok t) :
    tr.Counted q.slots t.query.parameters q.counts t.query.statement.counts := by
  obtain ⟨stage, progress, hstage, hquery, -⟩ := translate_eq_ok h
  rw [hquery]
  simpa using counted_stage Progress.Slotted.start hstage

end Translator

/-! ## Values that are bound

A value is checked before its codec writes it.  So what is asked of the codecs is only that they
write a number of rows, if they write it, as the integer that it is; those of the integers do. -/

/-- What a registry writes for a number of rows of a type is that number. -/
def Registry.WritesCounts (r : Registry) (t : ScalarType) : Prop :=
  ∀ codec v d, t.isInteger = true → r.find t = .ok codec → v.isCount = true →
    codec.encode v = .ok d → ∃ n, r.Writes v t n

/-- A value that is written as an integer from zero on is written as a number of rows. -/
lemma Registry.exists_writes {r : Registry} {t : ScalarType} {codec : Codec} {v : Value} {i : Int}
    (ht : t.isInteger = true) (hv : v.isCount = true) (hi : 0 ≤ i) (hfits : fitsInt64 i = true)
    (hcodec : r.find t = .ok codec) (h : codec.encode v = .ok (.ofInt i)) :
    ∃ n, r.Writes v t n := by
  rw [← Int.toNat_of_nonneg hi] at hfits h
  exact ⟨i.toNat, ht, hv, hfits, codec, hcodec, h⟩

/-- The codecs of integers write the integers that they are given. -/
lemma Registry.KeepsIntegers.writesCounts {r : Registry} (hr : r.KeepsIntegers) (t : ScalarType) :
    r.WritesCounts t := by
  intro codec v d ht hcodec hv h
  cases t with
  | int32 =>
      cases hr.int32.symm.trans hcodec
      cases v with
      | int32 i =>
          exact exists_writes rfl hv (of_decide_eq_true hv)
            (Codec.fitsInt64_of_fitsInt32 (Codec.fitsInt32_toInt i)) hcodec rfl
      | int64 i => cases h
      | _ => cases hv
  | int64 =>
      cases hr.int64.symm.trans hcodec
      cases v with
      | int32 i =>
          exact exists_writes rfl hv (of_decide_eq_true hv)
            (Codec.fitsInt64_of_fitsInt32 (Codec.fitsInt32_toInt i)) hcodec rfl
      | int64 i =>
          exact exists_writes rfl hv (of_decide_eq_true hv) (Codec.fitsInt64_toInt i) hcodec rfl
      | _ => cases hv
  | _ => cases ht

section

variable {parameters : List (String × Document)} {registry : Registry} {cs : List Captured}
  {c : Context} {entry : ParameterEntry} {slots : List Slot} {f : Formula}

/-- An expression names a number of rows, whatever row it is read on. -/
def Expression.Numbers (parameters : List (String × Document)) (e : Expression) : Prop :=
  ∃ n : Nat, fitsInt64 n = true ∧
    ∀ collections scope, e.eval ⟨collections, parameters⟩ scope = .ok (some (.ofInt n))

lemma Expression.Numbers.counts {e : Expression} (h : e.Numbers parameters)
    (collections : Collections) : e.Counts ⟨collections, parameters⟩ := by
  obtain ⟨n, hfits, heval⟩ := h
  intro clause
  have hint : (some (Document.ofInt n)).bind Document.int? = some (n : Int) := by
    simp [Document.ofInt, Document.int?, Number.toInt64?, hfits]
  refine ⟨n, Computation.bind_eq_ok.2 ⟨_, heval .., ?_⟩⟩
  simp only [hint]
  rw [if_pos (Int.natCast_nonneg n), Int.toNat_natCast]

namespace ParameterEntry

/-- A value that passes the check of a number of rows is an integer from zero on. -/
lemma isCount_of_check {v : Value} (hcount : entry.rowCount = true) (h : entry.check v = .ok ()) :
    v.isCount = true := by
  rw [check] at h
  split at h
  · cases h
  · rw [hcount, Bool.true_and] at h
    cases hv : v.isCount with
    | true => rfl
    | false => simp [hv] at h


/-- **What is bound for an entry that is marked** is an integer from zero on. -/
theorem Bound.counts {p : String × Document} (h : entry.Bound registry cs c p)
    (hregistry : registry.WritesCounts entry.scalarType) (hcount : entry.rowCount = true)
    (htype : entry.scalarType.isInteger = true) :
    (∃ v, entry.supply cs c = .ok v ∧ v.isCount = true) ∧
      ∃ n : Nat, fitsInt64 n = true ∧ p = (entry.name, .ofInt n) := by
  obtain ⟨codec, hcodec, hbind⟩ := h
  obtain ⟨v, d, hsupply, hcheck, hencode, rfl⟩ := bind_eq_ok.1 hbind
  have hv := isCount_of_check hcount hcheck
  obtain ⟨n, hwrites⟩ := hregistry codec v d htype hcodec hv hencode
  obtain ⟨codec', hcodec', hwritten⟩ := hwrites.written
  cases hcodec.symm.trans hcodec'
  cases hencode.symm.trans hwritten
  exact ⟨⟨v, hsupply, hv⟩, n, hwrites.fits, rfl⟩

/-- The value of an entry is that of the formula that it belongs to. -/
lemma Supplies.supplied {v : Value} (h : entry.Supplies slots f)
    (hv : entry.supply (slots.map Slot.captured) c = .ok v) : f.supplied? c = some v := by
  cases f with
  | constant value t =>
      obtain ⟨k, horigin, hk⟩ := h
      have hcaptured : (slots.map Slot.captured)[k]? = some ⟨value, t⟩ := by
        rw [List.getElem?_map, hk]
        rfl
      rw [eq_value_of_supply hv horigin hcaptured]
      rfl
  | parameter name t =>
      obtain ⟨horigin, rfl⟩ := h
      exact parameter?_of_supply hv horigin
  | _ => cases h

end ParameterEntry

/-- A placeholder that is marked has an entry with a value. -/
lemma ParameterTable.Counts.bound {e : Expression} {key : PlanKey} {number : Nat}
    {t : Translation} {plan : Plan} (h : t.query.parameters.Counts slots f e)
    (hregistry : registry.WritesCounts f.scalarType)
    (hplan : Plan.compile registry key number t = .ok plan) (hbind : plan.bind cs c = .ok parameters) :
    e.Numbers parameters ∧
      (cs = slots.map Slot.captured → ∃ v, f.supplied? c = some v ∧ v.isCount = true) := by
  obtain ⟨entry, rfl, hfind, hcount, htype, hinteger, hsupplies⟩ := h
  rw [← htype] at hregistry hinteger
  have hrel := Plan.find?_bound hplan hbind entry.name
  rw [hfind] at hrel
  cases hvalue : parameters.find? fun p => p.1 == entry.name with
  | none =>
      rw [hvalue] at hrel
      cases hrel
  | some p =>
      rw [hvalue] at hrel
      obtain ⟨hbound⟩ := hrel
      obtain ⟨⟨v, hsupply, hv⟩, n, hfits, rfl⟩ := hbound.counts hregistry hcount hinteger
      refine ⟨⟨n, hfits, fun collections scope => ?_⟩, ?_⟩
      · rw [Expression.eval, Environment.parameter?, hvalue]
        rfl
      · rintro rfl
        exact ⟨v, hsupplies.supplied hsupply, hv⟩

end

/-- A plan is refused in a context, and no request is sent to the store. -/
def Session.Refuses (s : Session) (p : Plan) (cs : List Captured) (context : Nat) : Prop :=
  ∃ s' e, s.start p cs context = (s', .error e) ∧ s'.store = s.store

lemma Session.refuses_of_bind {s : Session} {p : Plan} {cs : List Captured} {context : Nat}
    (h : ∀ c parameters, c.parameters = (s.context context).parameters →
      p.bind cs c ≠ .ok parameters) : s.Refuses p cs context := by
  cases hnext : (s.context context).transition .executing with
  | error e => exact ⟨s, .transition e, by simp only [start, hnext], rfl⟩
  | ok c =>
      have hparameters : c.parameters = (s.context context).parameters := by
        rw [Context.transition] at hnext
        split at hnext
        · cases hnext
          rfl
        · cases hnext
      cases hbind : p.bind cs c with
      | ok parameters => exact absurd hbind (h c parameters hparameters)
      | error e =>
          refine ⟨(s.setContext context c).rejectBinding context, .binding e, ?_, rfl⟩
          simp only [start, hnext, hbind]

/-- **Numbers of rows are checked before a request.**  If the parameters of a translated query are
bound, each expression that numbers rows in its statement, at any depth, is an integer from zero on
that depends on no row, and no evaluation fails for a number of rows.  Numbers that are neither
constants nor parameters are presupposed to be such integers, as nothing checks them, and the codecs
to write the others as they are.  If the value of a constant or a parameter that numbers rows is no
such integer, the query is refused and no request is sent. -/
theorem rowCounts_checked {tr : Translator} {q : Query} {t : Translation} {key : PlanKey}
    {number : Nat} {plan : Plan}
    (hregistry : ∀ f ∈ q.counts, f.isSupplied = true → tr.registry.WritesCounts f.scalarType)
    (ht : tr.translate q = .ok t) (hplan : Plan.compile tr.registry key number t = .ok plan) :
    (∀ cs c parameters, plan.bind cs c = .ok parameters →
      (∀ e ∈ plan.statement.counts, tr.Computes q.counts e → e.Numbers parameters) →
      (∀ e ∈ plan.statement.counts, e.Numbers parameters) ∧
        ∀ collections clause found,
          plan.statement.run ⟨collections, parameters⟩ ≠ .error (.invalidRowCount clause found)) ∧
    (q.WellFormed → ∀ f ∈ q.counts, f.isSupplied = true → ∀ (s : Session) context,
      (∀ v, f.supplied? (s.context context) = some v → v.isCount = false) →
      s.Refuses plan q.constants context) := by
  have hcounted := Translator.counted_translate ht
  have hstatement : plan.statement = t.query.statement := by
    obtain ⟨_, -, hcompiled⟩ := Computation.bind_eq_ok.1 hplan
    cases hcompiled
    rfl
  rw [hstatement]
  refine ⟨fun cs c parameters hbind hcomputed => ?_, fun hq f hf hsupplied s context hv => ?_⟩
  · have hnumbers : ∀ e ∈ t.query.statement.counts, e.Numbers parameters := by
      intro e he
      rcases hcounted.expressions e he with hcomputes | ⟨f, hf, hsupplied, hcounts⟩
      · exact hcomputed e he hcomputes
      · exact (hcounts.bound (hregistry f hf hsupplied) hplan hbind).1
    refine ⟨hnumbers, fun collections => Counting.ne ?_⟩
    exact Statement.counting_run _ fun e he => (hnumbers e he).counts collections
  · obtain ⟨e, hcounts⟩ := hcounted.formulas f hf hsupplied
    refine Session.refuses_of_bind fun c parameters hparameters hbind => ?_
    obtain ⟨v, hvalue, hcount⟩ :=
      (hcounts.bound (hregistry f hf hsupplied) hplan hbind).2 (Query.captured_slots hq).symm
    have hsame : f.supplied? c = f.supplied? (s.context context) := by
      cases f <;> simp only [Formula.supplied?, Context.parameter?, hparameters]
    rw [hsame] at hvalue
    rw [hv v hvalue] at hcount
    cases hcount

namespace Sample

/-- Two persons behind as many as a parameter says. -/
def twoFrom : Query :=
  .take (.skip (.source "Person" "p") (.parameter "from" .int64))
    (.binary .add (.ofValue (.int64 1)) (.ofValue (.int64 1)))

/-- A session with a context in which a parameter has a value. -/
def sessionFrom (n : Int64) : Session :=
  { provider := ⟨people, {}, {}, 0, {}, []⟩
    contexts := [Context.withParameter {} "from" (.int64 n)] }

/-- Less than no persons. -/
def lessThanNone : Query :=
  .take (.source "Person" "p") (.binary .sub (.ofValue (.int64 0)) (.ofValue (.int64 1)))

end Sample

/-- Two persons behind the first are taken, and two behind less than none are refused. -/
theorem rowCounts_checked_persons : ∃ t plan parameters,
    (∀ f ∈ Sample.twoFrom.counts, f.isSupplied = true →
      Sample.translator.registry.WritesCounts f.scalarType) ∧
    Sample.translator.translate Sample.twoFrom = .ok t ∧
    Plan.compile Sample.translator.registry ⟨[]⟩ 0 t = .ok plan ∧
    plan.bind Sample.twoFrom.constants ((Sample.sessionFrom 1).context 0) = .ok parameters ∧
    (∀ e ∈ plan.statement.counts, e.Numbers parameters) ∧
    (∀ collections clause found,
      plan.statement.run ⟨collections, parameters⟩ ≠ .error (.invalidRowCount clause found)) ∧
    (Sample.sessionFrom (-1)).Refuses plan Sample.twoFrom.constants 0 := by
  obtain ⟨t, plan, parameters, ht, hplan, hbind, hcounts, hparameters⟩ : ∃ t plan parameters,
      Sample.translator.translate Sample.twoFrom = .ok t ∧
      Plan.compile Sample.translator.registry ⟨[]⟩ 0 t = .ok plan ∧
      plan.bind Sample.twoFrom.constants ((Sample.sessionFrom 1).context 0) = .ok parameters ∧
      plan.statement.counts = [.placeholder "from",
        .binary .add (.placeholder "p0") (.placeholder "p1")] ∧
      parameters = [("from", .ofInt 1), ("p0", .ofInt 1), ("p1", .ofInt 1)] :=
    ⟨_, _, _, rfl, rfl, rfl, rfl, rfl⟩
  have hregistry : ∀ f ∈ Sample.twoFrom.counts, f.isSupplied = true →
      Sample.translator.registry.WritesCounts f.scalarType :=
    fun f _ _ => Registry.keepsIntegers_standard.writesCounts f.scalarType
  have hnumbers : ∀ e ∈ plan.statement.counts, e.Numbers parameters := by
    rw [hcounts, hparameters]
    simp only [List.forall_mem_cons]
    exact ⟨⟨1, rfl, fun _ _ => rfl⟩, ⟨2, rfl, fun _ _ => rfl⟩, fun _ he => nomatch he⟩
  obtain ⟨hbound, hrefused⟩ := rowCounts_checked hregistry ht hplan
  obtain ⟨hcounted, hrun⟩ := hbound _ _ _ hbind fun e he _ => hnumbers e he
  have hnegative : ∀ v, Formula.supplied? ((Sample.sessionFrom (-1)).context 0)
      (.parameter "from" .int64) = some v → v.isCount = false := by
    intro v hv
    cases hv
    rfl
  refine ⟨t, plan, parameters, hregistry, ht, hplan, hbind, hcounted, hrun, ?_⟩
  exact hrefused trivial (.parameter "from" .int64) List.mem_cons_self rfl _ _ hnegative

/-- A number of rows that is computed may be negative, and the statement fails. -/
theorem rowCounts_checked_differ : ∃ t plan parameters,
    Sample.translator.translate Sample.lessThanNone = .ok t ∧
    Plan.compile Sample.translator.registry ⟨[]⟩ 0 t = .ok plan ∧
    plan.bind Sample.lessThanNone.constants {} = .ok parameters ∧
    plan.statement.run ⟨Sample.threePersons, parameters⟩ =
      .error (.invalidRowCount "LIMIT" "-1") :=
  ⟨_, _, _, rfl, rfl, rfl, rfl⟩

end EntityQuery
