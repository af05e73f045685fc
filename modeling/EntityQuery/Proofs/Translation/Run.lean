import EntityQuery.Translation.Query
import Mathlib.Tactic.Common

/-!
# Runs of a translation

A translation is a computation that threads its progress and may fail.  This file says, for each of
the steps that translations are made of, what a run that succeeds has done: a check leaves the
progress alone and gives back what it asks for, and a step that binds something says what is bound.

* `Translating.bind_eq_ok` takes a successful run apart, and `Translating.guard_eq_ok` and its
  companions do so with a check.
* `Translator.constant_eq_ok` and `Translator.parameter_eq_ok` are the two steps that grow the
  parameter table.
* `BuiltinFunction.check_eq_ok` and `FunctionTable.resolve_eq_ok` say what a call has passed.
-/

namespace EntityQuery

/-! ## Sequences and checks

A translation is written as a sequence of steps in a monad.  A run that succeeds is taken apart at
each step, and checks are left out once it is known that they have passed. -/

namespace Translating

variable {α β : Type} {p : Progress}

/-- A sequence succeeds if its parts do, one after the other. -/
theorem bind_eq_ok {m : Translating α} {k : α → Translating β} {r : β × Progress} :
    (m >>= k) p = .ok r ↔ ∃ a q, m p = .ok (a, q) ∧ k a q = .ok r := by
  simp only [bind, StateT.bind]
  cases h : m p with
  | error e => simp [Except.bind]
  | ok s =>
      obtain ⟨a, q⟩ := s
      simp [Except.bind]

/-- A check that leaves the progress alone may be left out. -/
lemma after_check {check : Translating Unit} {k : Translating β} {r : β × Progress}
    (hcheck : ∀ s, check p = .ok s → s = ((), p)) (h : (check >>= fun _ => k) p = .ok r) :
    k p = .ok r := by
  obtain ⟨_, q, hc, hk⟩ := bind_eq_ok.1 h
  cases hcheck _ hc
  exact hk

theorem pure_eq_ok {a : α} {r : α × Progress} :
    (pure a : Translating α) p = .ok r ↔ r = (a, p) := by
  change Except.ok (a, p) = .ok r ↔ r = (a, p)
  rw [Except.ok.injEq, eq_comm]

@[simp] lemma unsupported_eq_ok {construct reason : String} {r : α × Progress} :
    (unsupported construct reason : Translating α) p = .ok r ↔ False := by
  simp [unsupported, throw, throwThe, MonadExceptOf.throw, StateT.lift, bind, Except.bind]

/-- A check that gives up unless a condition holds. -/
theorem guard_eq_ok {c : Prop} [Decidable c] {construct reason : String} {m : Translating α}
    {r : α × Progress} :
    (if c then m else unsupported construct reason) p = .ok r ↔ c ∧ m p = .ok r := by
  split <;> simp_all

/-- A check that gives up if a condition holds. -/
theorem refuse_eq_ok {c : Prop} [Decidable c] {construct reason : String} {m : Translating α}
    {r : α × Progress} :
    (if c then unsupported construct reason else m) p = .ok r ↔ ¬c ∧ m p = .ok r := by
  split <;> simp_all

/-- A check in front of further steps that gives up if a condition holds. -/
theorem refuse_bind_eq_ok {c : Prop} [Decidable c] {construct reason : String}
    {k : β → Translating α} {m : Translating α} {r : α × Progress} :
    (if c then unsupported construct reason >>= k else m) p = .ok r ↔ ¬c ∧ m p = .ok r := by
  split
  · simp_all [bind_eq_ok]
  · simp_all

end Translating

open Translating

variable {p : Progress}

/-! ## Slots and aliases -/

lemma takeSlot_eq_ok {r : Nat × Progress} :
    takeSlot p = .ok r ↔ r = (p.nextSlot, { p with nextSlot := p.nextSlot + 1 }) := by
  simp [takeSlot, modifyGet, MonadStateOf.modifyGet, StateT.modifyGet, pure, Except.pure, eq_comm]

lemma freshAlias_eq_ok {r : String × Progress} :
    freshAlias p = .ok r ↔
      r = ("t" ++ toString (p.aliases + 1), { p with aliases := p.aliases + 1 }) := by
  simp [freshAlias, modifyGet, MonadStateOf.modifyGet, StateT.modifyGet, pure, Except.pure,
    eq_comm]

/-! ## Operands -/

lemma expectOperand_eq_ok {construct wanted : String} {accepts : ScalarType → Bool} {f : Formula}
    {r : Unit × Progress} :
    expectOperand construct wanted accepts f p = .ok r ↔
      accepts f.scalarType = true ∧ r = ((), p) := by
  rw [expectOperand, guard_eq_ok, pure_eq_ok]

lemma expectBool_eq_ok {construct : String} {f : Formula} {r : Unit × Progress} :
    expectBool construct f p = .ok r ↔ f.scalarType = .bool ∧ r = ((), p) := by
  rw [expectBool, expectOperand_eq_ok, beq_iff_eq]

/-- The check of the operands of an operator leaves the progress alone. -/
lemma checkOperands_eq_ok {op : Operator} {left right : Formula} {r : Unit × Progress}
    (h : checkOperands op left right p = .ok r) : r = ((), p) := by
  rw [checkOperands] at h
  split at h
  · exact pure_eq_ok.1 (guard_eq_ok.1 h).2
  · split at h
    · obtain ⟨_, q, hl, hr⟩ := bind_eq_ok.1 h
      obtain ⟨-, hq⟩ := expectBool_eq_ok.1 hl
      cases hq
      exact (expectBool_eq_ok.1 hr).2
    · split at h
      · exact pure_eq_ok.1 (guard_eq_ok.1 h).2
      · obtain ⟨_, q, hl, hr⟩ := bind_eq_ok.1 h
        obtain ⟨-, hq⟩ := expectOperand_eq_ok.1 hl
        cases hq
        exact (expectOperand_eq_ok.1 hr).2

/-- The check that formulas are comparable leaves the progress alone. -/
lemma checkComparable_eq_ok {construct found between : String} {first : ScalarType}
    {fs : List Formula} {r : Unit × Progress}
    (h : checkComparable construct found between first fs p = .ok r) : r = ((), p) := by
  rw [checkComparable] at h
  cases hbad : fs.find? fun f => !first.comparable f.scalarType with
  | some bad => simp [hbad] at h
  | none =>
      rw [hbad] at h
      exact pure_eq_ok.1 h

/-- A comparison with null is one of the two tests. -/
lemma nullTest_eq_ok {op : Operator} {e : Expression} {r : Expression × Progress} :
    nullTest op e p = .ok r ↔
      (op = .eq ∧ r = (.notValued e, p)) ∨ (op = .ne ∧ r = (.valued e, p)) := by
  cases op <;> simp [nullTest, pure_eq_ok]

/-- A comparison of null with null is decided. -/
lemma nullsCompared_eq_ok {op : Operator} {r : Expression × Progress} :
    nullsCompared op p = .ok r ↔
      (op = .eq ∧ r = (.literal (.bool true), p)) ∨ (op = .ne ∧ r = (.literal (.bool false), p)) := by
  cases op <;> simp [nullsCompared, pure_eq_ok]

/-! ## Functions -/

/-- A list of checks that leave the progress alone does so as a whole. -/
lemma forM_eq_ok {fs : List Formula} {check : Formula → Translating Unit} {r : Unit × Progress}
    (hcheck : ∀ f r, check f p = .ok r → r = ((), p)) (h : fs.forM check p = .ok r) :
    r = ((), p) := by
  induction fs with
  | nil => exact pure_eq_ok.1 h
  | cons f fs ih =>
      obtain ⟨_, q, hf, hfs⟩ := bind_eq_ok.1 h
      cases hcheck f _ hf
      exact ih hfs

/-- A built-in function that passes its check has the right number of arguments. -/
lemma BuiltinFunction.check_eq_ok {function : BuiltinFunction} {args : List Formula}
    {r : Unit × Progress} (h : function.check args p = .ok r) :
    args.length = function.arity ∧ r = ((), p) := by
  obtain ⟨hlength, h⟩ := refuse_bind_eq_ok.1 h
  refine ⟨by simpa using hlength, forM_eq_ok (fun f r hf => ?_) h⟩
  split at hf
  · exact (expectOperand_eq_ok.1 hf).2
  · exact (expectOperand_eq_ok.1 hf).2

/-- A call that passes its check names a registered function. -/
lemma FunctionTable.resolve_eq_ok {t : FunctionTable} {function : String} {count : Nat}
    {scalarType : ScalarType} {r : FunctionEntry × Progress}
    (h : t.resolve function count scalarType p = .ok r) :
    ∃ entry, t.find? function = some entry ∧ r = (entry, p) := by
  rw [FunctionTable.resolve] at h
  cases hentry : t.find? function with
  | none => simp [hentry] at h
  | some entry =>
      simp only [hentry] at h
      cases harity : entry.arity.filter (· != count) with
      | some arity => simp [harity] at h
      | none =>
          rw [harity] at h
          obtain ⟨-, h⟩ := guard_eq_ok.1 h
          exact ⟨entry, rfl, pure_eq_ok.1 h⟩

/-! ## Parameters

A constant and a parameter are the only leaves that change the parameter table.  What is written is
the placeholder of the entry, whether it is new or has been there. -/

namespace ParameterTable

/-- The placeholder of a constant is named after its slot. -/
@[simp] lemma bindSlot_snd (t : ParameterTable) (slot : Nat) (scalarType : ScalarType) :
    (t.bindSlot slot scalarType).2 = slotName slot := by
  unfold bindSlot
  cases h : t.find? (slotName slot) <;> simp [h]

/-- The placeholder of a parameter has its name. -/
lemma bindNamed_snd {t t' : ParameterTable} {name name' : String} {scalarType : ScalarType}
    (h : t.bindNamed name scalarType = .ok (t', name')) : name' = name := by
  rw [bindNamed] at h
  split at h
  · simp at h
  · split at h
    · split at h <;> simp_all
    · simp_all

end ParameterTable

namespace Translator

variable {tr : Translator}

lemma codec_eq_ok {t : ScalarType} {r : Codec × Progress} :
    tr.codec t p = .ok r ↔ tr.registry.find t = .ok r.1 ∧ r.2 = p := by
  rw [codec]
  cases h : tr.registry.find t with
  | ok c =>
      rw [pure_eq_ok]
      constructor
      · rintro rfl
        exact ⟨rfl, rfl⟩
      · rintro ⟨hc, hp⟩
        obtain ⟨c', q⟩ := r
        cases hc
        cases hp
        rfl
  | error e => simp [throw, throwThe, MonadExceptOf.throw, StateT.lift, bind, Except.bind]

/-- A constant takes the next slot and binds it. -/
theorem constant_eq_ok {t : ScalarType} {r : Expression × Progress}
    (h : tr.constant t p = .ok r) :
    r = (.placeholder (slotName p.nextSlot),
      { p with
        nextSlot := p.nextSlot + 1
        parameters := (p.parameters.bindSlot p.nextSlot t).1 }) := by
  obtain ⟨c, q, hc, hrest⟩ := bind_eq_ok.1 h
  obtain ⟨-, hq⟩ := codec_eq_ok.1 hc
  cases hq
  obtain ⟨slot, q', hslot, hbind⟩ := bind_eq_ok.1 hrest
  cases takeSlot_eq_ok.1 hslot
  simp only [modifyGet, MonadStateOf.modifyGet, StateT.modifyGet, pure, Except.pure,
    Except.ok.injEq] at hbind
  rw [← hbind, ParameterTable.bindSlot_snd]

/-- A parameter is bound under its name. -/
theorem parameter_eq_ok {name : String} {t : ScalarType} {r : Expression × Progress}
    (h : tr.parameter name t p = .ok r) :
    ∃ parameters, p.parameters.bindNamed name t = .ok (parameters, name) ∧
      r = (.placeholder name, { p with parameters }) := by
  obtain ⟨c, q, hc, hrest⟩ := bind_eq_ok.1 h
  obtain ⟨-, hq⟩ := codec_eq_ok.1 hc
  cases hq
  obtain ⟨q₁, q₂, hget, hrest⟩ := bind_eq_ok.1 hrest
  simp only [get, getThe, MonadStateOf.get, StateT.get, pure, Except.pure, Except.ok.injEq,
    Prod.mk.injEq] at hget
  obtain ⟨rfl, rfl⟩ := hget
  cases hbind : q.parameters.bindNamed name t with
  | error e => simp [hbind] at hrest
  | ok bound =>
      obtain ⟨parameters, name'⟩ := bound
      cases ParameterTable.bindNamed_snd hbind
      simp only [hbind] at hrest
      obtain ⟨_, q₃, hset, hrest⟩ := bind_eq_ok.1 hrest
      obtain ⟨-, rfl⟩ := Prod.mk.inj (Except.ok.inj hset)
      exact ⟨parameters, rfl, pure_eq_ok.1 hrest⟩

end Translator
end EntityQuery
