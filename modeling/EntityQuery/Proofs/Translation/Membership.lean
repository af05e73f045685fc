import EntityQuery.Proofs.Plan.Assignment
import EntityQuery.Proofs.Translation.Satisfying

/-!
# Membership in a list

A condition may ask whether a value is one of some constants, or whether it equals one of them or
another.  The list binds every constant and compares the value with its document; null equals
nothing, so null constants of the list keep no row.  The disjunction reads the value once for each
constant, at another slot each time, and a comparison with a null constant is no comparison there
but a test: it keeps the rows on which the value is null or missing.

* `Expression.HoldsAs`: a condition decides rows as another one does; `Frame.Follows.restricted` is
  what that means for the frames that ask for it.
* `Captured.matches`: when a value equals a constant.
* `Translator.holds_isIn` and `Translator.holds_equalsAny`: what the two conditions are on a row.
* `rows_isIn`: the list keeps what the disjunction over its constants other than null keeps.
* `rows_isIn_differ`: with a null constant in both, they keep different rows.
-/

namespace EntityQuery

/-! ## Conditions that decide alike

A filter keeps rows on which its condition is true, and does not tell false from null.  To replace a
condition by another one it is thus enough that both are true on the same rows. -/

/-- Where pairs of aliases are bound to the same values, a condition decides as another one does.
The values of the two may differ, as null and false do. -/
def Expression.HoldsAs (env env' : Environment) (pairs : List (String × String))
    (e e' : Expression) : Prop :=
  ∀ row row', row.Matches pairs row' → Persists (e.holds env row) (e'.holds env' row')

/-- Where all pairs are those of an alias with itself, matching is symmetric. -/
lemma Row.Matches.symm {pairs : List (String × String)} {row row' : Row}
    (hpairs : ∀ a ∈ pairs, a.1 = a.2) (h : row.Matches pairs row') : row'.Matches pairs row := by
  intro a ha
  obtain ⟨d, hd, hd'⟩ := h a ha
  rw [hpairs a ha] at hd
  rw [← hpairs a ha] at hd'
  exact ⟨d, hd', hd⟩

section Conditions

variable {env env' : Environment} {pairs : List (String × String)} {e e' : Expression}

/-- A further condition that decides alike may be asked for. -/
lemma Expression.HoldsAs.andAlso (he : e.HoldsAs env env' pairs e') {p p' : Option Expression}
    (hp : Option.Rel (Expression.Follows env env' pairs) p p') :
    (Expression.andAlso p e).HoldsAs env env' pairs (Expression.andAlso p' e') := by
  cases hp with
  | none => exact he
  | some hp =>
      intro row row' hrow b hb
      obtain ⟨x, y, hx, hy, rfl⟩ := Expression.holds_and hb
      exact Expression.holds_connective false (fun _ _ => rfl) (hp.holds hrow x hx)
        (he row row' hrow y hy)

/-- A selection keeps rows, and does all else with those that it keeps. -/
lemma Clauses.run_eq_kept (c : Clauses) (rows : List Row) :
    c.run env rows = c.kept env rows >>= fun kept => { c with predicate := none }.run env kept := rfl

/-- Clauses that follow others still do with conditions that decide alike. -/
lemma Clauses.Follows.run_restrict {c c' : Clauses} (h : c.Follows env env' pairs c')
    (he : e.HoldsAs env env' pairs e') {rows rows' : List Row}
    (hrows : List.Forall₂ (Row.Matches pairs) rows rows') :
    Persists ((c.restrict e).run env rows) ((c'.restrict e').run env' rows') := by
  have hunrestricted : { c.restrict e with predicate := none }.Follows env env' pairs
      { c'.restrict e' with predicate := none } := { h with predicate := .none }
  have hkept : Carries (List.Forall₂ (Row.Matches pairs)) ((c.restrict e).kept env rows)
      ((c'.restrict e').kept env' rows') :=
    .keepWhere hrows (he.andAlso h.predicate)
  rw [Clauses.run_eq_kept, Clauses.run_eq_kept]
  exact (hkept.bind fun kept kept' hkept => .of_persists (hunrestricted.run hkept)).persists

/-- **Frames that do the same return the same rows with conditions that decide alike.** -/
theorem Frame.Follows.restricted {f f' : Frame} (h : f.Follows env env' f')
    (he : e.HoldsAs env env' (f.pairs f') e') :
    Persists ((f.restrict e).finish.run env) ((f'.restrict e').finish.run env') :=
  Statement.run_follows_of h.source h.terms fun _ _ hrows => h.clauses.run_restrict he hrows

/-- The aliases of a frame correspond to themselves. -/
lemma Frame.eq_of_mem_pairs {f : Frame} : ∀ a ∈ f.pairs f, a.1 = a.2 := by
  intro a ha
  rcases List.mem_cons.1 ha with rfl | ha
  · rfl
  · obtain ⟨t, -, rfl⟩ := List.mem_map.1 ha
    rfl

end Conditions

/-! ## Lists and disjunctions

The list compares a value with all documents at once, and the disjunction with one after the other,
each time evaluating the formula again.  Null constants are where the two differ. -/

namespace Formula

/-- A constant. -/
def ofCaptured (c : Captured) : Formula := .constant c.value c.scalarType

/-- Whether a formula is one of some constants. -/
def isIn (f : Formula) (cs : List Captured) : Formula := .inList f (cs.map ofCaptured)

/-- Whether a formula equals a constant. -/
def equals (f : Formula) (c : Captured) : Formula := .binary .eq f (ofCaptured c)

/-- Whether a formula equals one of some constants or another; it is false if there are none. -/
def equalsAny (f : Formula) : List Captured → Formula
  | [] => .ofValue (.bool false)
  | c :: cs => cs.foldl (fun g c => .binary .or g (f.equals c)) (f.equals c)

lemma inputs_or (f g : Formula) : (Formula.binary .or f g).inputs = f.inputs ++ g.inputs := rfl

lemma inputs_equals {f : Formula} {c : Captured} (hc : c.value.isNull = false) :
    (f.equals c).inputs =
      (if f.isNullConstant then f.testedInputs else f.inputs) ++ [.slot ⟨c, false⟩] := by
  have hconstant : (ofCaptured c).isNullConstant = false := hc
  rw [equals, inputs, hconstant]
  rfl

end Formula

/-- Whether a value equals a document: neither is missing or null, and they are equal. -/
def equalsDocument (d : Datum) (b : Document) : Bool :=
  match d with
  | some a => !(a.isNull || b.isNull) && a.equal b
  | none => false

/-- Whether a value equals the document of a constant. -/
def Captured.matches (registry : Registry) (d : Datum) (c : Captured) : Bool :=
  (c.document? registry).any (equalsDocument d)

namespace Captured

variable {registry : Registry} {d : Datum} {c : Captured}

/-- Nothing equals null. -/
lemma matches_of_isNull (hc : c.value.isNull = true) : c.matches registry d = false := by
  rw [Captured.matches, Option.any_eq_false]
  intro b hb
  rw [document?_of_isNull hc hb]
  cases d with
  | none => rfl
  | some a => rw [equalsDocument, Document.isNull, Bool.or_true]; rfl

/-- Null and missing values equal nothing. -/
lemma matches_of_not_valued (hd : isValued d = false) : c.matches registry d = false := by
  rw [Captured.matches, Option.any_eq_false]
  intro b _
  cases d with
  | none => rfl
  | some a =>
      have ha : a.isNull = true := by simpa [isValued] using hd
      rw [equalsDocument, ha]
      rfl

/-- Null constants do not matter. -/
lemma any_matches_filter (cs : List Captured) :
    (cs.filter fun c => !c.value.isNull).any (Captured.matches registry d) =
      cs.any (Captured.matches registry d) := by
  rw [List.any_filter]
  congr 1
  funext c
  cases hc : c.value.isNull with
  | true => rw [matches_of_isNull hc]; rfl
  | false => rfl

end Captured

/-- A value that is not null does not equal null. -/
lemma Document.equal_null {a b : Document} (ha : a.isNull = false) (hb : b.isNull = true) :
    a.equal b = false := by
  cases b <;> cases hb
  cases a with
  | null => cases ha
  | _ => simp [equal, same]

section Rows

variable {env : Environment} {row : Row} {d : Datum} {registry : Registry} {c : Captured}

lemma Expression.eval_placeholder {name : String} {b : Document} {s : Scope}
    (h : env.parameter? name = some b) :
    (Expression.placeholder name).eval env s = .ok (some b) := by
  rw [Expression.eval, h]

/-- A comparison with the placeholder of a constant. -/
lemma Expression.holds_eq_placeholder {e : Expression} {name : String} {b : Document}
    (he : e.eval env (.ofRow row) = .ok d) (hdocument : c.document? registry = some b)
    (hname : env.parameter? name = some b) :
    (Expression.binary .eq e (.placeholder name)).holds env row = .ok (c.matches registry d) := by
  have hvalue : (Expression.binary .eq e (.placeholder name)).eval env (.ofRow row) =
      Operator.eq.apply d (some b) :=
    (Computation.bind_of_eq_ok he).trans (Computation.bind_of_eq_ok (eval_placeholder hname))
  rw [Expression.holds, hvalue, Captured.matches, hdocument, Option.any_some]
  cases d with
  | none => rfl
  | some a =>
      rw [equalsDocument]
      cases hnull : a.isNull || b.isNull with
      | true => simp [Operator.apply, hnull, bind, Except.bind, isTrue]
      | false =>
          simp only [Operator.apply, hnull, Operator.onValues, bind, Except.bind, Except.map]
          cases a.equal b <;> rfl

end Rows

namespace Translator

variable {tr : Translator} {frame : Frame} {env : Environment} {context : Context} {row : Row}
  {d : Datum} {f : Formula} {n : Nat}

/-- The constants of a list are compared one by one. -/
lemma evalIn_constants {a : Document} (ha : a.isNull = false) {s : Scope} (cs : List Captured)
    (h : env.Assigns (Input.document? tr.registry context) n
      (Formula.inputsOf (cs.map Formula.ofCaptured))) :
    evalIn env a (tr.expressions frame n (cs.map Formula.ofCaptured)) s =
      .ok (cs.any (Captured.matches tr.registry (some a))) := by
  induction cs generalizing n with
  | nil => rfl
  | cons c cs ih =>
      obtain ⟨hc, hcs⟩ := Environment.assigns_append.1 h
      obtain ⟨b, (hdocument : c.document? tr.registry = some b), hvalue⟩ := hc.slots 0 c rfl
      have hmatches : c.matches tr.registry (some a) = a.equal b := by
        rw [Captured.matches, hdocument, Option.any_some, equalsDocument, ha, Bool.false_or]
        cases hb : b.isNull with
        | true => rw [Document.equal_null ha hb]; rfl
        | false => rfl
      rw [Nat.add_zero] at hvalue
      rw [List.map_cons, expressions, evalIn, Formula.ofCaptured, expression,
        Expression.eval_placeholder hvalue, List.any_cons, hmatches]
      simp only [bind, Except.bind]
      cases a.equal b with
      | true => rfl
      | false => exact ih hcs

/-- **On a row on which a formula has a value, the list holds if a constant equals the value.** -/
theorem holds_isIn {cs : List Captured}
    (h : env.Assigns (Input.document? tr.registry context) n (f.isIn cs).inputs)
    (hd : (tr.expression frame n f).eval env (.ofRow row) = .ok d) :
    (tr.expression frame n (f.isIn cs)).holds env row =
      .ok (cs.any (Captured.matches tr.registry d)) := by
  obtain ⟨-, hcs⟩ := Environment.assigns_append.1 h
  rw [Formula.length_slots] at hcs
  have hnone : isValued d = false → cs.any (Captured.matches tr.registry d) = false := by
    intro hvalued
    rw [List.any_eq_false]
    intro c _
    rw [Captured.matches_of_not_valued hvalued]
    exact Bool.false_ne_true
  rw [Formula.isIn, expression, Expression.holds, Expression.eval, hd]
  rcases d with _ | a
  · rw [hnone rfl]
    rfl
  · cases ha : a.isNull with
    | true =>
        rw [hnone (by simp [isValued, ha])]
        cases a <;> cases ha
        rfl
    | false =>
        have hin := @evalIn_constants tr frame env context _ a ha (.ofRow row) cs hcs
        cases a with
        | null => cases ha
        | _ =>
            simp only [bind, Except.bind, hin, Except.map]
            cases cs.any _ <;> rfl

/-- The comparison with a constant other than null. -/
lemma holds_equals {c : Captured} (hc : c.value.isNull = false)
    (h : env.Assigns (Input.document? tr.registry context) n (f.equals c).inputs)
    (hnull : f.isNullConstant = true →
      isValued d = false ∧ c.document? tr.registry ≠ some .null)
    (hd : env.Assigns (Input.document? tr.registry context) n f.inputs →
      (tr.expression frame n f).eval env (.ofRow row) = .ok d) :
    (tr.expression frame n (f.equals c)).holds env row = .ok (c.matches tr.registry d) := by
  rw [Formula.inputs_equals hc] at h
  obtain ⟨hf, hslot⟩ := Environment.assigns_append.1 h
  rw [Formula.length_slots_operand] at hslot
  obtain ⟨b, (hdocument : c.document? tr.registry = some b), hvalue⟩ := hslot.slots 0 c rfl
  rw [Nat.add_zero] at hvalue
  have hconstant : (Formula.ofCaptured c).isNullConstant = false := hc
  rw [Formula.equals, expression, hconstant]
  cases hnullConstant : f.isNullConstant with
  | true =>
      -- the constant is tested, and is not null
      obtain ⟨hmissing, hother⟩ := hnull hnullConstant
      rw [hdocument] at hother
      rw [Formula.length_constants_of_isNullConstant hnullConstant] at hvalue
      rw [Captured.matches_of_not_valued hmissing]
      have hvalued : isValued (some b) = true := by
        cases b <;> first | rfl | exact absurd rfl hother
      exact Computation.bind_eq_ok.2 ⟨_, Computation.bind_eq_ok.2
        ⟨_, Expression.eval_placeholder hvalue, rfl⟩, by rw [hvalued]; rfl⟩
  | false =>
      simp only [hnullConstant, Bool.false_eq_true, if_false] at hf
      exact Expression.holds_eq_placeholder (hd hf) hdocument hvalue

/-- A disjunction holds if a disjunct does: the first ones, or one for a further constant. -/
lemma holds_foldl_or {p : Captured → Bool} {cs : List Captured}
    (hcs : ∀ c ∈ cs, ∀ k, n ≤ k →
      env.Assigns (Input.document? tr.registry context) k (f.equals c).inputs →
      (tr.expression frame k (f.equals c)).holds env row = .ok (p c)) (g : Formula) (b : Bool)
    (hg : env.Assigns (Input.document? tr.registry context) n g.inputs →
      (tr.expression frame n g).holds env row = .ok b)
    (h : env.Assigns (Input.document? tr.registry context) n
      (cs.foldl (fun g c => .binary .or g (f.equals c)) g).inputs) :
    (tr.expression frame n (cs.foldl (fun g c => .binary .or g (f.equals c)) g)).holds env row =
      .ok (b || cs.any p) := by
  induction cs generalizing g b with
  | nil =>
      rw [List.any_nil, Bool.or_false]
      exact hg h
  | cons c cs ih =>
      rw [List.any_cons, ← Bool.or_assoc]
      refine ih (fun c' hc' => hcs c' (.tail _ hc')) _ _ (fun hboth => ?_) h
      obtain ⟨hfirst, hsecond⟩ := Environment.assigns_append.1 (Formula.inputs_or _ _ ▸ hboth)
      rw [Formula.length_slots] at hsecond
      rw [expression]
      exact Expression.holds_connective true (fun _ _ => rfl) (hg hfirst)
        (hcs c List.mem_cons_self _ (Nat.le_add_right ..) hsecond)

/-- **On a row on which a formula has a value at all of its places, the disjunction holds if a
constant equals the value.** -/
theorem holds_equalsAny {cs : List Captured} (hcs : ∀ c ∈ cs, c.value.isNull = false)
    (h : env.Assigns (Input.document? tr.registry context) n (f.equalsAny cs).inputs)
    (hnull : f.isNullConstant = true →
      isValued d = false ∧ ∀ c ∈ cs, c.document? tr.registry ≠ some .null)
    (hfalse : cs = [] → Captured.document? tr.registry ⟨.bool false, .bool⟩ ≠ some (.bool true))
    (hd : ∀ k, n ≤ k → env.Assigns (Input.document? tr.registry context) k f.inputs →
      (tr.expression frame k f).eval env (.ofRow row) = .ok d) :
    (tr.expression frame n (f.equalsAny cs)).holds env row =
      .ok (cs.any (Captured.matches tr.registry d)) := by
  have hequals : ∀ c ∈ cs, ∀ k, n ≤ k →
      env.Assigns (Input.document? tr.registry context) k (f.equals c).inputs →
      (tr.expression frame k (f.equals c)).holds env row = .ok (c.matches tr.registry d) :=
    fun c hc k hk h => holds_equals (hcs c hc) h
      (fun hf => ⟨(hnull hf).1, (hnull hf).2 c hc⟩) (hd k hk)
  cases cs with
  | nil =>
      obtain ⟨b, (hdocument : Captured.document? tr.registry ⟨.bool false, .bool⟩ = some b),
        hvalue⟩ := h.slots 0 ⟨.bool false, .bool⟩ rfl
      have htrue : isTrue (some b) = false := by
        have hother := hfalse rfl
        rw [hdocument] at hother
        rcases b with _ | (_ | _) | _ | _ | _ | _ <;> first | rfl | exact absurd rfl hother
      exact Computation.bind_eq_ok.2 ⟨_, Expression.eval_placeholder hvalue, by rw [htrue]; rfl⟩
  | cons c cs =>
      exact holds_foldl_or (fun c' hc' => hequals c' (.tail _ hc')) (f.equals c) _
        (hequals c List.mem_cons_self n (Nat.le_refl n)) h

/-- The first disjunct of a disjunction that has a value has one, and its inputs their documents. -/
lemma eval_of_foldl_or {cs : List Captured} {g : Formula} {s : Scope} {v : Datum}
    (h : env.Assigns (Input.document? tr.registry context) n
      (cs.foldl (fun g c => .binary .or g (f.equals c)) g).inputs)
    (hv : (tr.expression frame n (cs.foldl (fun g c => .binary .or g (f.equals c)) g)).eval env s =
      .ok v) :
    env.Assigns (Input.document? tr.registry context) n g.inputs ∧
      ∃ v', (tr.expression frame n g).eval env s = .ok v' := by
  induction cs generalizing g v with
  | nil => exact ⟨h, v, hv⟩
  | cons c cs ih =>
      obtain ⟨hboth, v', hv'⟩ := ih h hv
      rw [expression] at hv'
      obtain ⟨left, hleft, -⟩ := Computation.bind_eq_ok.1 hv'
      exact ⟨(Environment.assigns_append.1 (Formula.inputs_or _ _ ▸ hboth)).1, left, hleft⟩

/-- A disjunction reads the formula that it compares at the slot at which it starts. -/
lemma eval_of_equalsAny {cs : List Captured} (hsome : cs ≠ [])
    (hcs : ∀ c ∈ cs, c.value.isNull = false) (hf : f.isNullConstant = false)
    (h : env.Assigns (Input.document? tr.registry context) n (f.equalsAny cs).inputs) {s : Scope}
    {v : Datum} (hv : (tr.expression frame n (f.equalsAny cs)).eval env s = .ok v) :
    env.Assigns (Input.document? tr.registry context) n f.inputs ∧
      ∃ d, (tr.expression frame n f).eval env s = .ok d := by
  obtain ⟨c, cs, rfl⟩ := List.exists_cons_of_ne_nil hsome
  obtain ⟨hfirst, w, hw⟩ := eval_of_foldl_or h hv
  have hc := hcs c List.mem_cons_self
  have hconstant : (Formula.ofCaptured c).isNullConstant = false := hc
  rw [Formula.inputs_equals hc, hf] at hfirst
  rw [Formula.equals, expression, hf, hconstant] at hw
  obtain ⟨d, hd, -⟩ := Computation.bind_eq_ok.1 hw
  exact ⟨(Environment.assigns_append.1 hfirst).1, d, hd⟩

end Translator

/-! ## Frames with one condition or the other -/

section Frames

variable {tr : Translator} {frame : Frame} {env env' : Environment} {context : Context}
  {f : Formula} {cs : List Captured} {n : Nat}

/-- The constants of a list other than null. -/
def otherThanNull (cs : List Captured) : List Captured := cs.filter fun c => !c.value.isNull

lemma otherThanNull_valued : ∀ c ∈ otherThanNull cs, c.value.isNull = false :=
  fun c hc => by simpa using List.of_mem_filter hc

/-- The list, and the disjunction over its constants other than null, are read over one frame in two
environments that assign their documents to them. -/
structure ReadAlike (tr : Translator) (context : Context) (frame : Frame) (n : Nat) (f : Formula)
    (cs : List Captured) (env env' : Environment) : Prop where
  collections : env'.collections = env.collections
  follows : frame.Follows env env' frame
  list : env.Assigns (Input.document? tr.registry context) n (f.isIn cs).inputs
  disjunction : env'.Assigns (Input.document? tr.registry context) n
    (f.equalsAny (otherThanNull cs)).inputs
  /-- A formula that is null itself is not compared with a constant that is written as null. -/
  notNull : f.isNullConstant = true →
    ∀ c ∈ otherThanNull cs, c.document? tr.registry ≠ some .null
  /-- Where there is nothing to compare with, false is not written as true. -/
  notTrue : otherThanNull cs = [] →
    Captured.document? tr.registry ⟨.bool false, .bool⟩ ≠ some (.bool true)

namespace ReadAlike

variable (h : ReadAlike tr context frame n f cs env env')

include h

/-- A formula that is null itself has a value, which is null. -/
lemma eval_of_isNullConstant (hf : f.isNullConstant = true) (s : Scope) :
    (tr.expression frame n f).eval env s = .ok (some .null) := by
  obtain ⟨hfirst, -⟩ := Environment.assigns_append.1 h.list
  cases f with
  | constant value t =>
      obtain ⟨b, (hdocument : Captured.document? tr.registry ⟨value, t⟩ = some b), hvalue⟩ :=
        hfirst.slots 0 ⟨value, t⟩ rfl
      have hvalueNull : (Captured.mk value t).value.isNull = true := hf
      cases Captured.document?_of_isNull hvalueNull hdocument
      exact Expression.eval_placeholder hvalue
  | _ => cases hf

/-- **Where the list is decided, the disjunction is decided alike.** -/
theorem holdsAs : (tr.expression frame n (f.isIn cs)).HoldsAs env env' (frame.pairs frame)
    (tr.expression frame n (f.equalsAny (otherThanNull cs))) := by
  intro row row' hrow b hb
  obtain ⟨_, hvalue, -⟩ := Computation.bind_eq_ok.1 hb
  obtain ⟨d, hd, -⟩ := Computation.bind_eq_ok.1 hvalue
  obtain ⟨hfirst, -⟩ := Environment.assigns_append.1 h.list
  cases hb.symm.trans (Translator.holds_isIn h.list hd)
  rw [← Captured.any_matches_filter]
  refine Translator.holds_equalsAny otherThanNull_valued h.disjunction
    (fun hf => ⟨?_, h.notNull hf⟩) h.notTrue fun k hk hassigns => ?_
  · cases hd.symm.trans (h.eval_of_isNullConstant hf _)
    rfl
  · obtain ⟨shift, rfl⟩ := Nat.exists_eq_add_of_le hk
    have hmoves : env.Moves env' shift n f.inputs := hfirst.moves h.collections hassigns
    have hread : (tr.expression frame n f).Follows env env' (frame.pairs frame)
        (tr.expression frame (n + shift) f) := Translator.expression_follows h.follows.parts f n hmoves
    exact hread.eval _ _ (.ofRow hrow) d hd

/-- **Where the disjunction is decided, the list is decided alike**, if the disjunction reads the
value at all. -/
theorem holdsAs_disjunction (hfollows : frame.Follows env' env frame)
    (hsome : otherThanNull cs ≠ []) :
    (tr.expression frame n (f.equalsAny (otherThanNull cs))).HoldsAs env' env (frame.pairs frame)
      (tr.expression frame n (f.isIn cs)) := by
  intro row row' hrow b hb
  obtain ⟨d, hd⟩ : ∃ d, (tr.expression frame n f).eval env (.ofRow row') = .ok d := by
    cases hf : f.isNullConstant with
    | true => exact ⟨_, h.eval_of_isNullConstant hf _⟩
    | false =>
        -- the first disjunct reads the value at the slot at which the list reads it
        obtain ⟨hfirst, -⟩ := Environment.assigns_append.1 h.list
        obtain ⟨v, hv, -⟩ := Computation.bind_eq_ok.1 hb
        obtain ⟨hfirst', d, hd⟩ := Translator.eval_of_equalsAny hsome otherThanNull_valued hf
          h.disjunction hv
        have hmoves : env'.Moves env 0 n f.inputs := hfirst'.moves h.collections.symm hfirst
        have hread : (tr.expression frame n f).Follows env' env (frame.pairs frame)
            (tr.expression frame n f) := Translator.expression_follows hfollows.parts f n hmoves
        exact ⟨d, hread.eval _ _ (.ofRow hrow) d hd⟩
  have hin := Translator.holds_isIn h.list hd
  have hany := h.holdsAs row' row (hrow.symm Frame.eq_of_mem_pairs) _ hin
  cases hb.symm.trans hany
  exact hin

end ReadAlike
end Frames

/-! ## Filters

The two queries have different constants and so different slots.  They are compared in two
environments, each of which assigns the documents of its own constants. -/

/-- The statement of a filter is that of the frame that its input leads to, with the condition
behind the slots of the input. -/
lemma Query.IsBound.filtered {tr : Translator} {c : Context} {q : Query} {predicate : Formula}
    {t : Translation} {parameters : List (String × Document)}
    (h : (Query.filter q predicate).IsBound tr c t parameters) :
    ∃ stage p frame p', tr.stage q {} = .ok (stage, p) ∧
      stage.enter Frame.isSettled p = .ok (frame, p') ∧
      t.query.statement =
        (frame.restrict (tr.expression frame (slotsOf q.inputs).length predicate)).finish := by
  obtain ⟨_, _, hstage, hquery, -⟩ := Translator.translate_eq_ok h.translated
  obtain ⟨stage, p, hinput, hstage⟩ := Translating.bind_eq_ok.1 hstage
  obtain ⟨frame, p', henter, hstage⟩ := Translating.bind_eq_ok.1 hstage
  obtain ⟨e, p'', hcondition, hstage⟩ := Translating.bind_eq_ok.1 hstage
  cases Translating.pure_eq_ok.1 hstage
  obtain ⟨rfl, -⟩ := Translator.formula_eq_ok predicate (Translator.formula_of_condition hcondition)
  have hslot : p'.nextSlot = (slotsOf q.inputs).length := by
    rw [(Stage.enter_eq_ok henter).2.nextSlot, (Translator.stage_eq_ok hinput).2.nextSlot]
    exact Nat.zero_add _
  refine ⟨stage, p, frame, p', hinput, henter, ?_⟩
  rw [hquery, ← hslot]
  rfl

section

variable {tr : Translator} {c : Context} {q : Query} {f : Formula} {cs : List Captured}
  {t₁ t₂ : Translation} {parameters₁ parameters₂ : List (String × Document)}

/-- **Membership in a list is the disjunction of equalities with its constants other than null.**
Two filters are translated and bound: one asks whether a value is in a list of constants, the other
whether it equals one of those that are not null or another.  What the list keeps, the disjunction
keeps, in the same order.  If a constant is not null, the disjunction returns rows exactly where the
list does; if all are, it does not even read the value.  Where none is null, this is the disjunction
over the whole list.

If the value is itself a constant that is null, the comparisons become tests of the other constants;
so none of these may be written as null. -/
theorem rows_isIn (hq : q.WellFormed)
    (h₁ : (Query.filter q (f.isIn cs)).IsBound tr c t₁ parameters₁)
    (h₂ : (Query.filter q (f.equalsAny (otherThanNull cs))).IsBound tr c t₂ parameters₂)
    (hnull : f.isNullConstant = true →
      ∀ captured ∈ otherThanNull cs, captured.document? tr.registry ≠ some .null)
    (hfalse : otherThanNull cs = [] →
      Captured.document? tr.registry ⟨.bool false, .bool⟩ ≠ some (.bool true))
    (collections : Collections) :
    (∀ rows, (Query.filter q (f.isIn cs)).HasRows tr c t₁ ⟨collections, parameters₁⟩ rows →
      (Query.filter q (f.equalsAny (otherThanNull cs))).HasRows tr c t₂
        ⟨collections, parameters₂⟩ rows) ∧
    (otherThanNull cs ≠ [] → ∀ rows,
      (Query.filter q (f.equalsAny (otherThanNull cs))).HasRows tr c t₂
        ⟨collections, parameters₂⟩ rows →
      (Query.filter q (f.isIn cs)).HasRows tr c t₁ ⟨collections, parameters₁⟩ rows) := by
  obtain ⟨stage, p, frame, p', hstage, henter, hstatement₁⟩ := h₁.filtered
  obtain ⟨_, _, _, _, hstage', henter', hstatement₂⟩ := h₂.filtered
  cases hstage.symm.trans hstage'
  cases henter.symm.trans henter'
  obtain ⟨hlowered, -⟩ := Translator.stage_eq_ok hstage
  obtain ⟨henters, -⟩ := Stage.enter_eq_ok henter
  -- both environments know the inputs of the query, and behind them those of the condition
  have hassigns₁ := h₁.assigns hq collections
  have hassigns₂ := h₂.assigns hq collections
  obtain ⟨hinput₁, hcondition₁⟩ := Environment.assigns_append.1 hassigns₁
  obtain ⟨hinput₂, hcondition₂⟩ := Environment.assigns_append.1 hassigns₂
  have hown : ∀ predicate : Formula,
      Formula.inputsOf (Query.filter q predicate).readFormulas = predicate.inputs :=
    fun predicate => Formula.inputsOf_singleton predicate
  rw [hown, Nat.zero_add] at hcondition₁ hcondition₂
  have hfollows : ∀ {parameters parameters' : List (String × Document)},
      Environment.Assigns ⟨collections, parameters⟩ (Input.document? tr.registry c) 0 q.inputs →
      Environment.Assigns ⟨collections, parameters'⟩ (Input.document? tr.registry c) 0 q.inputs →
      frame.Follows ⟨collections, parameters⟩ ⟨collections, parameters'⟩ frame := by
    intro parameters parameters' hinput hinput'
    have hmoves : Environment.Moves ⟨collections, parameters⟩ ⟨collections, parameters'⟩ 0 0
        q.inputs := hinput.moves rfl hinput'
    exact (hlowered.follows hlowered hmoves).enter (fun _ _ h => h.isSettled) henters henters
  have halike : ReadAlike tr c frame (slotsOf q.inputs).length f cs ⟨collections, parameters₁⟩
      ⟨collections, parameters₂⟩ := ⟨rfl, hfollows hinput₁ hinput₂, hcondition₁, hcondition₂,
    hnull, hfalse⟩
  refine ⟨fun rows hrows => ?_, fun hsome rows hrows => ?_⟩
  · rw [h₁.hasRows_iff, hstatement₁] at hrows
    rw [h₂.hasRows_iff, hstatement₂]
    exact halike.follows.restricted halike.holdsAs rows hrows
  · rw [h₂.hasRows_iff, hstatement₂] at hrows
    rw [h₁.hasRows_iff, hstatement₁]
    have hback := hfollows hinput₂ hinput₁
    exact hback.restricted (halike.holdsAs_disjunction hback hsome) rows hrows

end

namespace Sample

/-- The age of thirty, and an age that is null. -/
def thirtyOrNull : List Captured := [⟨.int64 30, .int64⟩, ⟨.null, .int64⟩]

/-- The persons whose age is in the list. -/
def listedAges : Query := .filter (.source "Person" "p") (age.isIn thirtyOrNull)

/-- The persons whose age equals a constant of the list other than null. -/
def valuedAges : Query := .filter (.source "Person" "p") (age.equalsAny (otherThanNull thirtyOrNull))

/-- The persons whose age equals a constant of the list or another. -/
def equalAges : Query := .filter (.source "Person" "p") (age.equalsAny thirtyOrNull)

end Sample

/-- Of a person of unknown age and one of thirty, the list keeps the latter, as does the disjunction
over its constants other than null. -/
theorem rows_isIn_ages : ∃ t₁ t₂ parameters₁ parameters₂,
    Sample.listedAges.HasRows Sample.translator {} t₁ ⟨Sample.agelessFirst, parameters₁⟩
      [Sample.aged 30] ∧
    Sample.valuedAges.HasRows Sample.translator {} t₂ ⟨Sample.agelessFirst, parameters₂⟩
      [Sample.aged 30] := by
  obtain ⟨t₁, parameters₁, h₁⟩ : ∃ t parameters,
      Sample.listedAges.HasRows Sample.translator {} t ⟨Sample.agelessFirst, parameters⟩
        [Sample.aged 30] :=
    ⟨_, _, rfl, ⟨⟨[]⟩, 0, _, rfl, rfl⟩, rfl⟩
  obtain ⟨t₂, parameters₂, h₂⟩ : ∃ t parameters,
      Sample.valuedAges.IsBound Sample.translator {} t parameters :=
    ⟨_, _, rfl, ⟨[]⟩, 0, _, rfl, rfl⟩
  refine ⟨t₁, t₂, parameters₁, parameters₂, h₁, ?_⟩
  exact (@rows_isIn Sample.translator {} (.source "Person" "p") Sample.age Sample.thirtyOrNull t₁ t₂
    parameters₁ parameters₂ ⟨⟩ ⟨h₁.translated, h₁.bound⟩ h₂ (fun h => by cases h)
    (fun h => by cases h) Sample.agelessFirst).1 _ h₁

/-- A person of unknown age equals the null constant of the disjunction, but not that of the list.
-/
theorem rows_isIn_differ : ∃ t₁ t₂ parameters₁ parameters₂,
    Sample.listedAges.HasRows Sample.translator {} t₁ ⟨Sample.agelessFirst, parameters₁⟩
      [Sample.aged 30] ∧
    Sample.equalAges.HasRows Sample.translator {} t₂ ⟨Sample.agelessFirst, parameters₂⟩
      [Sample.ageless, Sample.aged 30] ∧
    [Sample.aged 30] ≠ [Sample.ageless, Sample.aged 30] := by
  refine ⟨_, _, _, _, ⟨rfl, ⟨⟨[]⟩, 0, _, rfl, rfl⟩, rfl⟩, ⟨rfl, ⟨⟨[]⟩, 0, _, rfl, rfl⟩, rfl⟩, ?_⟩
  intro h
  cases congrArg List.length h

end EntityQuery
