import EntityQuery.Proofs.Translation.Run

/-!
# What a query takes from outside

A query takes the values of its constants and parameters from outside of the statement.  This file
lists them in the order of the canonical walk, and says which parameter tables the list can fill.

* `Formula.inputs` and `Query.inputs` are the slots of constants and the parameters, in order.
* `Query.captured_slots`: the slots of a well-formed query are its constants.
* `ParameterTable.Binds` says that reading some inputs leads from one table to another.
* `ParameterTable.Aligned` ties the entries of a table to the slots that have been read;
  `ParameterTable.Aligned.binds` is the step that reading further inputs preserves it.
-/

namespace EntityQuery

/-- The slot of a constant. -/
structure Slot where
  captured : Captured
  /-- Whether the constant is null and an operand of a comparison, which becomes a test. -/
  tested : Bool

/-- What a query takes from outside at one place. -/
inductive Input where
  | slot (s : Slot)
  | parameter (name : String) (scalarType : ScalarType)

/-- The slot that an input is, if it is one. -/
def Input.slot? : Input → Option Slot
  | .slot s => some s
  | .parameter .. => none

/-- The slots among some inputs. -/
def slotsOf (is : List Input) : List Slot := is.filterMap Input.slot?

@[simp] lemma slotsOf_nil : slotsOf [] = [] := rfl

@[simp] lemma slotsOf_append (is js : List Input) : slotsOf (is ++ js) = slotsOf is ++ slotsOf js :=
  List.filterMap_append

@[simp] lemma slotsOf_slot (s : Slot) (is : List Input) :
    slotsOf (.slot s :: is) = s :: slotsOf is := rfl

@[simp] lemma slotsOf_parameter (name : String) (t : ScalarType) (is : List Input) :
    slotsOf (.parameter name t :: is) = slotsOf is := rfl

/-! ## The walk

Constants are collected in the order in which formulas are walked through, and this order is the one
in which slots are taken.  A constant that is merely tested for null has a slot, too, but needs no
entry. -/

namespace Formula

/-- The inputs of a null constant that is compared. -/
def testedInputs (f : Formula) : List Input := f.constants.map fun c => .slot ⟨c, true⟩

mutual

/-- The inputs of a formula in order. -/
def inputs : Formula → List Input
  | .constant value t => [.slot ⟨⟨value, t⟩, false⟩]
  | .parameter name t => [.parameter name t]
  | .property _ | .member .. | .element .. => []
  | .binary op left right =>
    (if op.isComparison && left.isNullConstant then left.testedInputs else left.inputs) ++
      if op.isComparison && right.isNullConstant then right.testedInputs else right.inputs
  | .not f | .negate f | .isNull f | .isNotNull f => f.inputs
  | .inList f list => f.inputs ++ inputsOf list
  | .like f pattern => f.inputs ++ pattern.inputs
  | .builtin _ args => inputsOf args
  | .call _ args _ => inputsOf args
  | .caseWhen c t o => c.inputs ++ t.inputs ++ o.inputs
  | .coalesce values => inputsOf values

/-- The inputs of several formulas in order. -/
def inputsOf : List Formula → List Input
  | [] => []
  | f :: fs => f.inputs ++ inputsOf fs

end

lemma captured_testedInputs (f : Formula) :
    (slotsOf f.testedInputs).map Slot.captured = f.constants := by
  rw [testedInputs]
  induction f.constants with
  | nil => rfl
  | cons c cs ih => rw [List.map_cons, slotsOf_slot, List.map_cons, ih]

mutual

/-- The slots of a formula are its constants. -/
theorem captured_inputs : (f : Formula) → (slotsOf f.inputs).map Slot.captured = f.constants
  | .constant .. => rfl
  | .parameter .. | .property _ | .member .. | .element .. => rfl
  | .binary op left right => by
      rw [inputs, slotsOf_append, List.map_append, constants]
      congr 1
      · split
        · exact captured_testedInputs left
        · exact captured_inputs left
      · split
        · exact captured_testedInputs right
        · exact captured_inputs right
  | .not f => captured_inputs f
  | .negate f => captured_inputs f
  | .isNull f => captured_inputs f
  | .isNotNull f => captured_inputs f
  | .inList f list => by
      rw [inputs, slotsOf_append, List.map_append, captured_inputs f, captured_inputsOf list,
        constants]
  | .like f pattern => by
      rw [inputs, slotsOf_append, List.map_append, captured_inputs f, captured_inputs pattern,
        constants]
  | .builtin _ args => captured_inputsOf args
  | .call _ args _ => captured_inputsOf args
  | .caseWhen c t o => by
      rw [inputs, slotsOf_append, slotsOf_append, List.map_append, List.map_append,
        captured_inputs c, captured_inputs t, captured_inputs o, constants]
  | .coalesce values => captured_inputsOf values

/-- The slots of several formulas are their constants. -/
theorem captured_inputsOf :
    (fs : List Formula) → (slotsOf (inputsOf fs)).map Slot.captured = constantsOf fs
  | [] => rfl
  | f :: fs => by
      rw [inputsOf, slotsOf_append, List.map_append, captured_inputs f, captured_inputsOf fs,
        constantsOf]

end

/-- A formula takes as many slots as it has constants. -/
lemma length_slots (f : Formula) : (slotsOf f.inputs).length = f.constants.length := by
  rw [← captured_inputs, List.length_map]

lemma length_slotsOf (fs : List Formula) :
    (slotsOf (inputsOf fs)).length = (constantsOf fs).length := by
  rw [← captured_inputsOf, List.length_map]

/-- An operand takes as many slots as it has constants, tested or not. -/
lemma length_slots_operand (f : Formula) (tested : Bool) :
    (slotsOf (if tested then f.testedInputs else f.inputs)).length = f.constants.length := by
  cases tested with
  | true => rw [if_pos rfl, ← captured_testedInputs, List.length_map]
  | false => exact length_slots f

lemma length_constants_of_isNullConstant {f : Formula} (h : f.isNullConstant = true) :
    f.constants.length = 1 := by
  cases f <;> first | rfl | cases h

end Formula

namespace Query

/-- The formulas of the outermost operator that matter for what it means: to count elements, and to
ask whether there are any, takes no argument. -/
def readFormulas : Query → List Formula
  | .conclude _ .count _ | .conclude _ .any _ => []
  | q => q.formulas

/-- Whether no operator has formulas that do not matter.  The operations that build queries give no
argument to a terminal that takes none. -/
def WellFormed : Query → Prop
  | .source .. => True
  | .filter input _ | .project input _ | .orderBy input _ _ | .thenBy input _ _
  | .groupBy input _ _ | .correlate input _ | .skip input _ | .take input _ | .distinct input =>
    input.WellFormed
  | .join _ left right _ _ | .combine _ left right => left.WellFormed ∧ right.WellFormed
  | .conclude input terminal arg =>
    input.WellFormed ∧ (terminal = .count ∨ terminal = .any → arg = none)

/-- The inputs of a query in order: those of its input queries first, then its own. -/
def inputs (q : Query) : List Input :=
  let own := Formula.inputsOf q.readFormulas
  match q with
  | .source .. => own
  | .filter input _ | .project input _ | .orderBy input _ _ | .thenBy input _ _
  | .groupBy input _ _ | .correlate input _ | .skip input _ | .take input _ | .distinct input
  | .conclude input _ _ => input.inputs ++ own
  | .join _ left right _ _ => left.inputs ++ right.inputs ++ own
  | .combine _ left right => left.inputs ++ right.inputs ++ own

/-- The slots of a query. -/
def slots (q : Query) : List Slot := slotsOf q.inputs

/-- In a well-formed query all formulas matter. -/
lemma WellFormed.readFormulas {q : Query} (h : q.WellFormed) : q.readFormulas = q.formulas := by
  cases q with
  | conclude input terminal arg =>
      obtain ⟨-, harg⟩ := h
      cases terminal
      case count => rw [harg (.inl rfl)]; rfl
      case any => rw [harg (.inr rfl)]; rfl
      all_goals rfl
  | _ => rfl

lemma WellFormed.captured_own {q : Query} (h : q.WellFormed) :
    (slotsOf (Formula.inputsOf q.readFormulas)).map Slot.captured =
      Formula.constantsOf q.formulas := by
  rw [h.readFormulas, Formula.captured_inputsOf]

/-- The slots of a well-formed query are its constants, in the order of the canonical walk. -/
theorem captured_slots {q : Query} (h : q.WellFormed) :
    q.slots.map Slot.captured = q.constants := by
  have own := h.captured_own
  rw [slots]
  induction q with
  | source => rfl
  | filter input _ ih | project input _ ih | orderBy input _ _ ih | thenBy input _ _ ih
  | groupBy input _ _ ih | correlate input _ ih | skip input _ ih | take input _ ih
  | distinct input ih =>
      rw [inputs, slotsOf_append, List.map_append, own, constants, ih h (WellFormed.captured_own h)]
  | conclude input terminal arg ih =>
      rw [inputs, slotsOf_append, List.map_append, own, constants,
        ih h.1 (WellFormed.captured_own h.1)]
  | join _ left right _ _ ihl ihr | combine _ left right ihl ihr =>
      rw [inputs, slotsOf_append, slotsOf_append, List.map_append, List.map_append, own, constants,
        ihl h.1 (WellFormed.captured_own h.1), ihr h.2 (WellFormed.captured_own h.2)]

/-- A well-formed query has as many slots as constants. -/
lemma WellFormed.length_slots {q : Query} (h : q.WellFormed) : q.slots.length = q.constants.length := by
  rw [← captured_slots h, List.length_map]

end Query

/-! ## Tables

Which tables reading can lead to is said by a relation on tables.  It leaves out how a translation
comes to read what it does. -/

/-- The placeholders that some inputs need, if slots are counted from `n` on. -/
def placeholdersFrom (n : Nat) : List Input → List String
  | [] => []
  | .slot s :: is =>
    if s.tested then placeholdersFrom (n + 1) is else slotName n :: placeholdersFrom (n + 1) is
  | .parameter name _ :: is => name :: placeholdersFrom n is

lemma placeholdersFrom_append (n : Nat) (is js : List Input) :
    placeholdersFrom n (is ++ js) =
      placeholdersFrom n is ++ placeholdersFrom (n + (slotsOf is).length) js := by
  induction is generalizing n with
  | nil => rfl
  | cons i is ih =>
      cases i with
      | slot s =>
          have hcount : n + 1 + (slotsOf is).length = n + (slotsOf (.slot s :: is)).length := by
            rw [slotsOf_slot, List.length_cons]
            omega
          simp only [List.cons_append, placeholdersFrom, ih, hcount]
          split <;> rfl
      | parameter name t => simp [placeholdersFrom, ih]

lemma slotName_inj {a b : Nat} : slotName a = slotName b ↔ a = b := by
  rw [slotName, slotName, String.append_right_inj]
  constructor
  · intro h
    have hdigits : Nat.toDigits 10 a = Nat.toDigits 10 b := by
      rw [← Nat.toList_repr, ← Nat.toList_repr]
      exact congrArg String.toList h
    rw [← @Nat.ofDigitChars_ten_toDigits a, ← @Nat.ofDigitChars_ten_toDigits b, hdigits]
  · rintro rfl
    rfl

@[simp] lemma isSlotName_slotName (n : Nat) : isSlotName (slotName n) = true := by
  have hdigits : (toString n).toList = Nat.toDigits 10 n := Nat.toList_repr
  rw [isSlotName, slotName]
  rw [String.toList_append, hdigits]
  cases h : Nat.toDigits 10 n with
  | nil => exact absurd h Nat.toDigits_ne_nil
  | cons c cs =>
      change (c :: cs).all Char.isDigit = true
      rw [← h, List.all_eq_true]
      intro d hd
      exact Nat.isDigit_of_mem_toDigits (by decide) (by decide) hd

namespace ParameterTable

/-- Reading some inputs, with slots counted from `n` on, leads from one table to another.  Entries
may be marked as numbers of rows on the way. -/
inductive Binds : Nat → List Input → ParameterTable → ParameterTable → Prop
  | refl {n t} : Binds n [] t t
  | bound {n c is t t'} (h : Binds (n + 1) is (t.bindSlot n c.scalarType).1 t') :
      Binds n (.slot ⟨c, false⟩ :: is) t t'
  | tested {n c is t t'} (h : Binds (n + 1) is t t') : Binds n (.slot ⟨c, true⟩ :: is) t t'
  | named {n name type is t t₁ t'} (hname : t.bindNamed name type = .ok (t₁, name))
      (h : Binds n is t₁ t') : Binds n (.parameter name type :: is) t t'
  | marked {n name is t t'} (h : Binds n is (t.markRowCount name) t') : Binds n is t t'

namespace Binds

variable {n : Nat} {is js : List Input} {t t₁ t₂ : ParameterTable}

/-- Inputs that are read one after the other. -/
theorem append (h₁ : Binds n is t t₁) (h₂ : Binds (n + (slotsOf is).length) js t₁ t₂) :
    Binds n (is ++ js) t t₂ := by
  induction h₁ with
  | refl => exact h₂
  | @bound n c is t t' _ ih =>
      refine .bound (ih ?_)
      rwa [slotsOf_slot, List.length_cons, ← Nat.add_assoc, Nat.add_right_comm] at h₂
  | @tested n c is t t' _ ih =>
      refine .tested (ih ?_)
      rwa [slotsOf_slot, List.length_cons, ← Nat.add_assoc, Nat.add_right_comm] at h₂
  | named hname _ ih => exact .named hname (ih h₂)
  | marked _ ih => exact .marked (ih h₂)

/-- An entry may be marked at the end. -/
theorem mark (h : Binds n is t t₁) (name : String) : Binds n is t (t₁.markRowCount name) := by
  have hmarked : Binds (n + (slotsOf is).length) [] t₁ (t₁.markRowCount name) := .marked .refl
  have := h.append hmarked
  rwa [List.append_nil] at this

end Binds
end ParameterTable

/-- The slot of an entry, if it is that of a constant. -/
def ParameterEntry.slot? (e : ParameterEntry) : Option Nat :=
  match e.origin with
  | .constant slot => some slot
  | .named => none

namespace ParameterTable

/-! ## Alignment

A table is aligned as long as new entries come at its end and belong to slots that have just been
read.  Parameters may be in between, as their names are apart. -/

/-- The entries of a table belong to the slots that have been read so far.  An entry of a constant
has the name and the type of its slot, the entries are in the order of the slots, and only slots
that are tested have none. -/
structure Aligned (slots : List Slot) (t : ParameterTable) : Prop where
  /-- Each name occurs once. -/
  nodup : t.names.Nodup
  /-- The slots of the entries increase. -/
  increasing : (t.entries.filterMap ParameterEntry.slot?).Pairwise (· < ·)
  /-- An entry of a constant fits a slot that is not tested. -/
  fits : ∀ e ∈ t.entries, ∀ k, e.slot? = some k →
    e.name = slotName k ∧ ∃ c, slots[k]? = some ⟨c, false⟩ ∧ c.scalarType = e.scalarType
  /-- The name of an entry of a parameter is not that of a slot. -/
  apart : ∀ e ∈ t.entries, e.slot? = none → isSlotName e.name = false
  /-- A slot that is not tested has an entry. -/
  covered : ∀ k c, slots[k]? = some ⟨c, false⟩ → ∃ e ∈ t.entries, e.slot? = some k

/-- The empty table belongs to no slots. -/
lemma aligned_empty : Aligned [] empty where
  nodup := List.nodup_nil
  increasing := List.Pairwise.nil
  fits e he := by simp [empty] at he
  apart e he := by simp [empty] at he
  covered k c hk := by simp at hk

/-- A parameter is bound by its entry, or by a new one at the end. -/
lemma bindNamed_eq_ok {t t' : ParameterTable} {name : String} {type : ScalarType}
    (h : t.bindNamed name type = .ok (t', name)) :
    isSlotName name = false ∧
      ((∃ e, t.find? name = some e ∧ e.scalarType = type ∧ t' = t) ∨
        (t.find? name = none ∧ t' = t.push ⟨name, type, .named, false⟩)) := by
  rw [bindNamed] at h
  split at h
  · simp at h
  · rename_i hvalid
    rw [Bool.or_eq_true, not_or] at hvalid
    refine ⟨by simpa using hvalid.2, ?_⟩
    cases hfind : t.find? name with
    | none =>
        simp only [hfind, Except.ok.injEq, Prod.mk.injEq, and_true] at h
        exact .inr ⟨rfl, h.symm⟩
    | some e =>
        simp only [hfind] at h
        split at h
        · rename_i htype
          simp only [Except.ok.injEq, Prod.mk.injEq, and_true] at h
          exact .inl ⟨e, rfl, htype, h.symm⟩
        · simp at h

/-- The first entry of a name is one of the table. -/
lemma find?_eq_some {t : ParameterTable} {name : String} {e : ParameterEntry}
    (h : t.find? name = some e) : e ∈ t.entries ∧ e.name = name :=
  ⟨List.mem_of_find?_eq_some h, by simpa using List.find?_some h⟩

/-- Marking an entry leaves all else alone. -/
lemma map_markFirst {α : Type} {name : String} (f : ParameterEntry → α)
    (hf : ∀ e, f { e with rowCount := true } = f e) (es : List ParameterEntry) :
    (markFirst name es).map f = es.map f := by
  induction es with
  | nil => rfl
  | cons e es ih =>
      rw [markFirst]
      split
      · rw [List.map_cons, List.map_cons, hf]
      · rw [List.map_cons, List.map_cons, ih]

lemma mem_markFirst {name : String} {e : ParameterEntry} {es : List ParameterEntry}
    (h : e ∈ markFirst name es) : ∃ e' ∈ es, e = e' ∨ e = { e' with rowCount := true } := by
  induction es with
  | nil => simp [markFirst] at h
  | cons e₀ es ih =>
      rw [markFirst] at h
      split at h
      · rcases List.mem_cons.1 h with rfl | h
        · exact ⟨e₀, List.mem_cons_self, .inr rfl⟩
        · exact ⟨e, List.mem_cons_of_mem _ h, .inl rfl⟩
      · rcases List.mem_cons.1 h with rfl | h
        · exact ⟨e, List.mem_cons_self, .inl rfl⟩
        · obtain ⟨e', he', hor⟩ := ih h
          exact ⟨e', List.mem_cons_of_mem _ he', hor⟩

lemma filterMap_slot? (es : List ParameterEntry) :
    es.filterMap ParameterEntry.slot? = (es.map ParameterEntry.slot?).filterMap id := by
  rw [List.filterMap_map]
  rfl

namespace Aligned

variable {slots : List Slot} {t : ParameterTable}

/-- The entries of an aligned table have slots that have been read. -/
lemma slot_lt (h : Aligned slots t) {e : ParameterEntry} (he : e ∈ t.entries) {k : Nat}
    (hk : e.slot? = some k) : k < slots.length := by
  obtain ⟨-, c, hc, -⟩ := h.fits e he k hk
  exact (List.getElem?_eq_some_iff.1 hc).1

/-- No entry has the name of a slot that has not been read. -/
lemma find?_next (h : Aligned slots t) : t.find? (slotName slots.length) = none := by
  rw [find?_eq_none_iff, names, List.mem_map]
  rintro ⟨e, he, hname⟩
  cases hslot : e.slot? with
  | none =>
      have := h.apart e he hslot
      rw [hname, isSlotName_slotName] at this
      cases this
  | some k =>
      have hlt := h.slot_lt he hslot
      rw [(h.fits e he k hslot).1, slotName_inj] at hname
      omega

/-- A further entry at the end keeps a table aligned, if its name is new. -/
lemma push (h : Aligned slots t) {e : ParameterEntry} {more : List Slot}
    (hname : e.name ∉ t.names)
    (hslot : ∀ k ∈ e.slot?, slots.length ≤ k)
    (hfits : ∀ k, e.slot? = some k → e.name = slotName k ∧
      ∃ c, (slots ++ more)[k]? = some ⟨c, false⟩ ∧ c.scalarType = e.scalarType)
    (hapart : e.slot? = none → isSlotName e.name = false)
    (hcovered : ∀ k c, slots.length ≤ k → (slots ++ more)[k]? = some ⟨c, false⟩ →
      e.slot? = some k) :
    Aligned (slots ++ more) (t.push e) where
  nodup := by
    rw [names_push]
    refine List.nodup_append.2 ⟨h.nodup, List.pairwise_singleton _ _, ?_⟩
    rintro a ha b hb rfl
    rw [List.mem_singleton.1 hb] at ha
    exact hname ha
  increasing := by
    simp only [ParameterTable.push, List.filterMap_append, List.pairwise_append]
    refine ⟨h.increasing, ?_, ?_⟩
    · cases hk : e.slot? <;> simp [hk]
    · intro a ha b hb
      obtain ⟨e', he', ha⟩ := List.mem_filterMap.1 ha
      have hb : e.slot? = some b := by simpa using hb
      exact Nat.lt_of_lt_of_le (h.slot_lt he' ha) (hslot b hb)
  fits := by
    intro e' he' k hk
    rcases List.mem_append.1 he' with he' | he'
    · obtain ⟨hn, c, hc, ht⟩ := h.fits e' he' k hk
      exact ⟨hn, c, by rw [List.getElem?_append_left (h.slot_lt he' hk), hc], ht⟩
    · rw [List.mem_singleton.1 he'] at hk ⊢
      exact hfits k hk
  apart := by
    intro e' he' hk
    rcases List.mem_append.1 he' with he' | he'
    · exact h.apart e' he' hk
    · rw [List.mem_singleton.1 he'] at hk ⊢
      exact hapart hk
  covered := by
    intro k c hk
    by_cases hlt : k < slots.length
    · rw [List.getElem?_append_left hlt] at hk
      obtain ⟨e', he', hslot⟩ := h.covered k c hk
      exact ⟨e', List.mem_append_left _ he', hslot⟩
    · exact ⟨e, List.mem_append_right _ (List.mem_singleton_self e),
        hcovered k c (Nat.le_of_not_lt hlt) hk⟩

/-- The entry of a constant is bound when its slot is read. -/
lemma bindSlot (h : Aligned slots t) (c : Captured) :
    Aligned (slots ++ [⟨c, false⟩]) (t.bindSlot slots.length c.scalarType).1 := by
  have hfind := h.find?_next
  simp only [ParameterTable.bindSlot, hfind]
  have hread : (slots ++ [(⟨c, false⟩ : Slot)])[slots.length]? = some ⟨c, false⟩ := by simp
  refine h.push (find?_eq_none_iff.1 hfind) ?_ ?_ ?_ ?_
  · rintro k ⟨⟩
    exact Nat.le_refl _
  · rintro k ⟨⟩
    exact ⟨rfl, c, hread, rfl⟩
  · rintro ⟨⟩
  · intro k c' hle hk
    have hlt := (List.getElem?_eq_some_iff.1 hk).1
    rw [List.length_append, List.length_singleton] at hlt
    have hk : slots.length = k := by omega
    rw [hk]
    rfl

/-- A slot that is tested needs no entry. -/
lemma test (h : Aligned slots t) (c : Captured) : Aligned (slots ++ [⟨c, true⟩]) t where
  nodup := h.nodup
  increasing := h.increasing
  fits e he k hk := by
    obtain ⟨hn, c', hc, ht⟩ := h.fits e he k hk
    exact ⟨hn, c', by rw [List.getElem?_append_left (h.slot_lt he hk), hc], ht⟩
  apart := h.apart
  covered k c' hk := by
    by_cases hlt : k < slots.length
    · rw [List.getElem?_append_left hlt] at hk
      exact h.covered k c' hk
    · rw [List.getElem?_append_right (Nat.le_of_not_lt hlt)] at hk
      cases hd : k - slots.length <;> simp [hd] at hk

/-- A parameter is apart from all slots. -/
lemma bindNamed (h : Aligned slots t) {name : String} {type : ScalarType} {t' : ParameterTable}
    (hname : t.bindNamed name type = .ok (t', name)) : Aligned slots t' := by
  obtain ⟨hslot, ⟨e, -, -, rfl⟩ | ⟨hfind, rfl⟩⟩ := bindNamed_eq_ok hname
  · exact h
  · rw [← List.append_nil slots]
    refine h.push (find?_eq_none_iff.1 hfind) ?_ ?_ ?_ ?_
    · rintro k ⟨⟩
    · rintro k ⟨⟩
    · rintro -
      exact hslot
    · intro k c hle hk
      rw [List.append_nil] at hk
      have hlt := (List.getElem?_eq_some_iff.1 hk).1
      omega

/-- Marking an entry changes neither its name and type nor its slot. -/
lemma mark (h : Aligned slots t) (name : String) : Aligned slots (t.markRowCount name) where
  nodup := by
    rw [names_markRowCount]
    exact h.nodup
  increasing := by
    rw [filterMap_slot?, markRowCount, map_markFirst _ fun _ => rfl, ← filterMap_slot?]
    exact h.increasing
  fits e he k hk := by
    obtain ⟨e', he', rfl | rfl⟩ := mem_markFirst he
    · exact h.fits e he' k hk
    · exact h.fits e' he' k hk
  apart e he hk := by
    obtain ⟨e', he', rfl | rfl⟩ := mem_markFirst he
    · exact h.apart e he' hk
    · exact h.apart e' he' hk
  covered k c hk := by
    obtain ⟨e, he, hslot⟩ := h.covered k c hk
    have hmem : some k ∈ t.entries.map ParameterEntry.slot? := List.mem_map.2 ⟨e, he, hslot⟩
    rw [← @map_markFirst _ name _ fun _ => rfl] at hmem
    exact List.mem_map.1 hmem

/-- **Reading further inputs keeps a table aligned.** -/
theorem binds {is : List Input} {t' : ParameterTable} (h : Aligned slots t)
    (hbinds : Binds slots.length is t t') : Aligned (slots ++ slotsOf is) t' := by
  generalize hn : slots.length = n at hbinds
  induction hbinds generalizing slots with
  | refl => rwa [slotsOf_nil, List.append_nil]
  | @bound n c is t t' _ ih =>
      subst hn
      rw [slotsOf_slot, ← List.singleton_append, ← List.append_assoc]
      exact ih (h.bindSlot c) List.length_append
  | @tested n c is t t' _ ih =>
      subst hn
      rw [slotsOf_slot, ← List.singleton_append, ← List.append_assoc]
      exact ih (h.test c) List.length_append
  | named hname _ ih => exact ih (h.bindNamed hname) hn
  | marked _ ih => exact ih (h.mark _) hn

end Aligned
end ParameterTable
end EntityQuery
