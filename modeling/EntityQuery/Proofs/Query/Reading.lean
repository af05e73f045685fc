import EntityQuery.Proofs.Query.Form
import EntityQuery.Proofs.Query.Lengths

/-!
# Reading the encodings of queries

The form of a query can be read back from its encoding, if each type that it writes out is told by
its name.  So queries with one encoding have one form.

* `Reader.formula` reads a formula; the bound of its depth is at most the number of bytes.
* `Reader.query` reads a query: an operator takes its inputs from a stack.
* `reads_formula`, `Reader.query_encoding`: what is read is the form.
* `Query.form_eq_of_encoding_eq`: an encoding has one form.
-/

namespace EntityQuery

/-! ## Readers

A formula begins with the name of its constructor, and these names differ.  The reader branches on
the name; the depth bounds its recursion, as bytes have no structure to recurse on. -/

/-- What the encoding of a formula begins with.  That of a projected entity begins with `entity`. -/
inductive FormulaHead where
  | property
  | member
  | element
  | constant
  | parameter
  | binary (op : Operator)
  | not
  | negate
  | isNull
  | isNotNull
  | inList
  | like
  | builtin (function : BuiltinFunction)
  | caseWhen
  | coalesce
  | call
  | entity

namespace FormulaHead

/-- The text of a head. -/
def name : FormulaHead → String
  | .property => "prop"
  | .member => "member"
  | .element => "element"
  | .constant => "const"
  | .parameter => "param"
  | .binary op => op.name
  | .not => "not"
  | .negate => "negate"
  | .isNull => "is_null"
  | .isNotNull => "is_not_null"
  | .inList => "in"
  | .like => "like"
  | .builtin function => function.name
  | .caseWhen => "case"
  | .coalesce => "coalesce"
  | .call => "call"
  | .entity => "entity"

/-- The heads. -/
def all : List FormulaHead :=
  [.property, .member, .element, .constant, .parameter, .not, .negate, .isNull, .isNotNull, .inList,
    .like, .caseWhen, .coalesce, .call, .entity] ++ Operator.all.map .binary ++
    BuiltinFunction.all.map .builtin

/-- Each head is told by its text. -/
lemma find?_name (h : FormulaHead) : (all.find? fun x => x.name == h.name) = some h := by
  cases h with
  | binary op => cases op <;> rfl
  | builtin function => cases function <;> rfl
  | _ => rfl

lemma size_name (h : FormulaHead) : h.name.utf8ByteSize < 2 ^ 64 := by
  cases h with
  | binary op => cases op <;> decide
  | builtin function => cases function <;> decide
  | _ => decide

end FormulaHead

namespace Reader

/-- Reads the head of a formula. -/
def head : Reader FormulaHead := named FormulaHead.all FormulaHead.name

/-- Reads a path of fields. -/
def path : Reader (List String) := counted text

section Types

variable (types : String → Option ScalarType)

/-- Reads a type by its name. -/
def scalarType : Reader ScalarType := do
  let name ← text
  some? (types name)

/-- Reads the rest of a formula after its head. -/
def formulaAfter : Nat → FormulaHead → Reader Formula
  | 0, _ => failure
  | depth + 1, h =>
    let part : Reader Formula := head >>= formulaAfter depth
    match h with
    | .property => do
      let aliasName ← text
      let entity ← text
      let path ← path
      let t ← scalarType types
      let nullable ← flag
      pure (.property ⟨aliasName, entity, "", path, t, nullable⟩)
    | .member => do
      let name ← text
      let t ← scalarType types
      let nullable ← flag
      pure (.member name t nullable)
    | .element => do
      let t ← scalarType types
      let nullable ← flag
      pure (.element t nullable)
    | .constant => do
      let t ← scalarType types
      let isNull ← flag
      pure (.constant (if isNull then .null else .bool true) t)
    | .parameter => do
      let name ← text
      let t ← scalarType types
      pure (.parameter name t)
    | .binary op => do
      let left ← part
      let right ← part
      pure (.binary op left right)
    | .not => do
      let f ← part
      pure (.not f)
    | .negate => do
      let f ← part
      pure (.negate f)
    | .isNull => do
      let f ← part
      pure (.isNull f)
    | .isNotNull => do
      let f ← part
      pure (.isNotNull f)
    | .inList => do
      let n ← number
      let f ← part
      let list ← many part n
      pure (.inList f list)
    | .like => do
      let f ← part
      let pattern ← part
      pure (.like f pattern)
    | .builtin function => do
      let args ← counted part
      pure (.builtin function args)
    | .caseWhen => do
      let c ← part
      let t ← part
      let o ← part
      pure (.caseWhen c t o)
    | .coalesce => do
      let values ← counted part
      pure (.coalesce values)
    | .call => do
      let function ← text
      let t ← scalarType types
      let args ← counted part
      pure (.call function args t)
    | .entity => failure

/-- Reads a formula of a depth at most. -/
def formula (depth : Nat) : Reader Formula := head >>= formulaAfter types depth

end Types

end Reader

/-! ## Formulas

By induction on the formula, what was written is read to its form.  Types come back as they were
only if their names tell them, and the assumption is about the types that are written out. -/

/-- Each type of a list is the one of its name. -/
def TypesOf (types : String → Option ScalarType) (ts : List ScalarType) : Prop :=
  ∀ t ∈ ts, types t.name = some t

lemma TypesOf.left {types : String → Option ScalarType} {ts us : List ScalarType}
    (h : TypesOf types (ts ++ us)) : TypesOf types ts :=
  fun t ht => h t (List.mem_append_left _ ht)

lemma TypesOf.right {types : String → Option ScalarType} {ts us : List ScalarType}
    (h : TypesOf types (ts ++ us)) : TypesOf types us :=
  fun t ht => h t (List.mem_append_right _ ht)

section Formulas

variable {types : String → Option ScalarType}

lemma reads_head (h : FormulaHead) : Reads Reader.head (Encoding.text h.name) h :=
  reads_named h.size_name h.find?_name

lemma reads_scalarType {t : ScalarType} (hsize : t.name.utf8ByteSize < 2 ^ 64)
    (ht : types t.name = some t) : Reads (Reader.scalarType types) (Encoding.scalarType t) t :=
  (reads_text hsize).then_some? ht

lemma reads_path {names : List String} (hsize : FitWords (pathLengths names)) :
    Reads Reader.path (Encoding.path names) names := by
  obtain ⟨hcount, hnames⟩ := fitWords_cons.1 hsize
  have hname : ∀ name ∈ names, Reads Reader.text (Encoding.text name) name :=
    fun name hname => reads_text (hnames _ (List.mem_map_of_mem hname))
  have hread := reads_counted (v := id) hcount hname
  rwa [List.map_id] at hread

/-- Several formulas can be read if each can. -/
lemma reads_formulas {r : Reader Formula} {fs : List Formula}
    (h : ∀ f ∈ fs, Reads r f.encoding f.form) :
    Reads (Reader.many r fs.length) (formulaEncodings fs) (Formula.forms fs) := by
  rw [formulaEncodings_eq_flatMap, Formula.forms_eq_map]
  exact reads_many h

lemma reads_countedFormulas {r : Reader Formula} {fs : List Formula}
    (hsize : fs.length < 2 ^ 64) (h : ∀ f ∈ fs, Reads r f.encoding f.form) :
    Reads (Reader.counted r) (Encoding.number fs.length ++ formulaEncodings fs)
      (Formula.forms fs) :=
  (reads_number hsize).bind (reads_formulas h)

mutual

/-- **The form of a formula can be read from its encoding.** -/
theorem reads_formula : (f : Formula) → (depth : Nat) → f.encoding.length ≤ depth →
    FitWords f.lengths → TypesOf types f.types →
    Reads (Reader.formula types depth) f.encoding f.form
  | f, 0, hlength, _, _ => absurd f.length_encoding_pos (Nat.not_lt.2 hlength)
  | .property p, depth + 1, _, hfit, htypes => by
      simp only [Formula.lengths, fitWords_append, fitWords_cons, fitWords_nil, and_true] at hfit
      obtain ⟨⟨⟨halias, hentity⟩, hpath⟩, htype⟩ := hfit
      simp only [Formula.encoding, List.append_assoc]
      refine (reads_head .property).bind ?_
      refine (reads_text halias).bind ?_
      refine (reads_text hentity).bind ?_
      refine (reads_path hpath).bind ?_
      refine (reads_scalarType htype (htypes _ (List.mem_singleton_self _))).bind ?_
      exact (reads_flag _).last
  | .member name t nullable, depth + 1, _, hfit, htypes => by
      simp only [Formula.lengths, fitWords_cons, fitWords_nil, and_true] at hfit
      simp only [Formula.encoding, List.append_assoc]
      refine (reads_head .member).bind ?_
      refine (reads_text hfit.1).bind ?_
      refine (reads_scalarType hfit.2 (htypes _ (List.mem_singleton_self _))).bind ?_
      exact (reads_flag _).last
  | .element t nullable, depth + 1, _, hfit, htypes => by
      simp only [Formula.lengths, fitWords_cons, fitWords_nil, and_true] at hfit
      simp only [Formula.encoding, List.append_assoc]
      refine (reads_head .element).bind ?_
      refine (reads_scalarType hfit (htypes _ (List.mem_singleton_self _))).bind ?_
      exact (reads_flag _).last
  | .constant value t, depth + 1, _, hfit, htypes => by
      simp only [Formula.lengths, fitWords_cons, fitWords_nil, and_true] at hfit
      simp only [Formula.encoding, List.append_assoc]
      refine (reads_head .constant).bind ?_
      refine (reads_scalarType hfit (htypes _ (List.mem_singleton_self _))).bind ?_
      exact (reads_flag _).last
  | .parameter name t, depth + 1, _, hfit, htypes => by
      simp only [Formula.lengths, fitWords_cons, fitWords_nil, and_true] at hfit
      simp only [Formula.encoding, List.append_assoc]
      refine (reads_head .parameter).bind ?_
      refine (reads_text hfit.1).bind ?_
      exact (reads_scalarType hfit.2 (htypes _ (List.mem_singleton_self _))).last
  | .binary op left right, depth + 1, hlength, hfit, htypes => by
      simp only [Formula.encoding, List.append_assoc, List.length_append, Encoding.length_text]
        at hlength ⊢
      obtain ⟨hfitl, hfitr⟩ := fitWords_append.1 hfit
      have hl := reads_formula left depth (by omega) hfitl htypes.left
      have hr := reads_formula right depth (by omega) hfitr htypes.right
      exact (reads_head (.binary op)).bind (hl.bind hr.last)
  | .not f, depth + 1, hlength, hfit, htypes => by
      simp only [Formula.encoding, List.length_append, Encoding.length_text] at hlength
      have hf := reads_formula f depth (by omega) hfit htypes
      exact (reads_head .not).bind hf.last
  | .negate f, depth + 1, hlength, hfit, htypes => by
      simp only [Formula.encoding, List.length_append, Encoding.length_text] at hlength
      have hf := reads_formula f depth (by omega) hfit htypes
      exact (reads_head .negate).bind hf.last
  | .isNull f, depth + 1, hlength, hfit, htypes => by
      simp only [Formula.encoding, List.length_append, Encoding.length_text] at hlength
      have hf := reads_formula f depth (by omega) hfit htypes
      exact (reads_head .isNull).bind hf.last
  | .isNotNull f, depth + 1, hlength, hfit, htypes => by
      simp only [Formula.encoding, List.length_append, Encoding.length_text] at hlength
      have hf := reads_formula f depth (by omega) hfit htypes
      exact (reads_head .isNotNull).bind hf.last
  | .inList f list, depth + 1, hlength, hfit, htypes => by
      simp only [Formula.encoding, List.append_assoc, List.length_append, Encoding.length_text]
        at hlength ⊢
      obtain ⟨hcount, hfit⟩ := fitWords_cons.1 hfit
      obtain ⟨hfitf, hfitlist⟩ := fitWords_append.1 hfit
      have hf := reads_formula f depth (by omega) hfitf htypes.left
      have hlist := reads_each list depth (by omega) hfitlist htypes.right
      refine (reads_head .inList).bind ?_
      exact (reads_number hcount).bind (hf.bind (reads_formulas hlist).last)
  | .like f pattern, depth + 1, hlength, hfit, htypes => by
      simp only [Formula.encoding, List.append_assoc, List.length_append, Encoding.length_text]
        at hlength ⊢
      obtain ⟨hfitf, hfitp⟩ := fitWords_append.1 hfit
      have hf := reads_formula f depth (by omega) hfitf htypes.left
      have hp := reads_formula pattern depth (by omega) hfitp htypes.right
      exact (reads_head .like).bind (hf.bind hp.last)
  | .builtin function args, depth + 1, hlength, hfit, htypes => by
      simp only [Formula.encoding, List.append_assoc, List.length_append, Encoding.length_text]
        at hlength ⊢
      obtain ⟨hcount, hfit⟩ := fitWords_cons.1 hfit
      have hargs := reads_each args depth (by omega) hfit htypes
      refine (reads_head (.builtin function)).bind ?_
      exact (reads_countedFormulas hcount hargs).last
  | .caseWhen c t o, depth + 1, hlength, hfit, htypes => by
      simp only [Formula.encoding, List.append_assoc, List.length_append, Encoding.length_text]
        at hlength ⊢
      obtain ⟨hfit, hfito⟩ := fitWords_append.1 hfit
      obtain ⟨hfitc, hfitt⟩ := fitWords_append.1 hfit
      have hc := reads_formula c depth (by omega) hfitc htypes.left.left
      have ht := reads_formula t depth (by omega) hfitt htypes.left.right
      have ho := reads_formula o depth (by omega) hfito htypes.right
      exact (reads_head .caseWhen).bind (hc.bind (ht.bind ho.last))
  | .coalesce values, depth + 1, hlength, hfit, htypes => by
      simp only [Formula.encoding, List.append_assoc, List.length_append, Encoding.length_text]
        at hlength ⊢
      obtain ⟨hcount, hfit⟩ := fitWords_cons.1 hfit
      have hvalues := reads_each values depth (by omega) hfit htypes
      refine (reads_head .coalesce).bind ?_
      exact (reads_countedFormulas hcount hvalues).last
  | .call function args t, depth + 1, hlength, hfit, htypes => by
      simp only [Formula.encoding, List.append_assoc, List.length_append, Encoding.length_text]
        at hlength ⊢
      simp only [Formula.lengths, fitWords_append, fitWords_cons, fitWords_nil, and_true] at hfit
      obtain ⟨⟨hname, htype, hcount⟩, hfit⟩ := hfit
      have hargs := reads_each args depth (by omega) hfit
        fun u hu => htypes u (List.mem_cons_of_mem _ hu)
      refine (reads_head .call).bind ?_
      refine (reads_text hname).bind ?_
      refine (reads_scalarType htype (htypes _ List.mem_cons_self)).bind ?_
      exact (reads_countedFormulas hcount hargs).last

/-- The forms of several formulas can be read from their encodings. -/
theorem reads_each : (fs : List Formula) → (depth : Nat) →
    (formulaEncodings fs).length ≤ depth → FitWords (formulaLengths fs) →
    TypesOf types (formulaTypes fs) →
    ∀ f ∈ fs, Reads (Reader.formula types depth) f.encoding f.form
  | [], _, _, _, _ => by
      intro f hf
      cases hf
  | f :: fs, depth, hlength, hfit, htypes => by
      rw [formulaEncodings, List.length_append] at hlength
      obtain ⟨hfitf, hfitfs⟩ := fitWords_append.1 hfit
      intro g hg
      rcases List.mem_cons.1 hg with hg | hg
      · rw [hg]
        exact reads_formula f depth (by omega) hfitf htypes.left
      · exact reads_each fs depth (by omega) hfitfs htypes.right g hg

end

end Formulas

/-! ## Queries

A query is encoded with its inputs in front of its operator.  So it is read with a stack: an
operator takes its inputs from there, and puts itself on it. -/

/-- What the encoding of an operator begins with. -/
inductive QueryHead where
  | source
  | filter
  | project
  | orderBy
  | thenBy
  | groupBy
  | join
  | correlate
  | skip
  | take
  | distinct
  | combine
  | conclude

namespace QueryHead

/-- The text of a head. -/
def name : QueryHead → String
  | .source => "source"
  | .filter => "filter"
  | .project => "project"
  | .orderBy => "order_by"
  | .thenBy => "then_by"
  | .groupBy => "group_by"
  | .join => "join"
  | .correlate => "correlate"
  | .skip => "skip"
  | .take => "take"
  | .distinct => "distinct"
  | .combine => "set_op"
  | .conclude => "aggregate"

/-- The heads. -/
def all : List QueryHead :=
  [.source, .filter, .project, .orderBy, .thenBy, .groupBy, .join, .correlate, .skip, .take,
    .distinct, .combine, .conclude]

end QueryHead

/-- What the encoding of a projection begins with. -/
inductive ProjectionHead where
  | scalar
  | record
  | entity

namespace ProjectionHead

/-- The text of a head. -/
def name : ProjectionHead → String
  | .scalar => "scalar"
  | .record => "record"
  | .entity => "entity"

/-- The heads. -/
def all : List ProjectionHead := [.scalar, .record, .entity]

end ProjectionHead

namespace Reader

variable {α : Type}

/-- Reads a value that may be absent. -/
def optional (r : Reader α) : Reader (Option α) := do
  match ← flag with
  | true => do
    let a ← r
    pure (some a)
  | false => pure none

/-- Reads the direction of an ordering. -/
def direction : Reader Bool := named [true, false] fun d => if d then "desc" else "asc"

/-- Reads a kind of correlation. -/
def correlationKind : Reader CorrelationKind := do
  match ← named [true, false] fun lookup => if lookup then "lookup" else "unnest" with
  | true => do
    let source ← path
    let target ← path
    pure (.lookup source target)
  | false => do
    let names ← path
    pure (.unnest names)

/-- Reads a correlation. -/
def correlation : Reader Correlation := do
  let sourceAlias ← text
  let navigation ← text
  let target ← text
  let aliasName ← text
  let optional ← flag
  let kind ← correlationKind
  pure ⟨sourceAlias, navigation, target, aliasName, kind, optional⟩

section Types

variable (types : String → Option ScalarType) (depth : Nat)

/-- Reads a summary. -/
def summary : Reader Summary := do
  let function ← named SummaryFunction.all SummaryFunction.name
  let arg ← optional (formula types depth)
  pure ⟨function, arg⟩

/-- Reads what a field holds. -/
def projected : Reader Projected := do
  match ← head with
  | .entity => do
    let name ← text
    let aliasName ← text
    pure (.entity name aliasName)
  | h => do
    let f ← formulaAfter types depth h
    pure (.scalar f)

/-- Reads a projection. -/
def projection : Reader Projection := do
  match ← named ProjectionHead.all ProjectionHead.name with
  | .scalar => do
    let f ← formula types depth
    pure (.scalar f)
  | .record => do
    let fields ← counted (pair text (projected types depth))
    pure (.record fields)
  | .entity => do
    let name ← text
    let aliasName ← text
    pure (.entity name aliasName)

/-- Reads an operator, which takes its inputs from a stack. -/
def operator (stack : List Query) : Reader (List Query) := do
  match ← named QueryHead.all QueryHead.name, stack with
  | .source, stack => do
    let entity ← text
    let aliasName ← text
    pure (.source entity aliasName :: stack)
  | .filter, input :: stack => do
    let f ← formula types depth
    pure (.filter input f :: stack)
  | .project, input :: stack => do
    let p ← projection types depth
    pure (.project input p :: stack)
  | .orderBy, input :: stack => do
    let descending ← direction
    let key ← formula types depth
    pure (.orderBy input key descending :: stack)
  | .thenBy, input :: stack => do
    let descending ← direction
    let key ← formula types depth
    pure (.thenBy input key descending :: stack)
  | .groupBy, input :: stack => do
    let keys ← counted (pair text (formula types depth))
    let summaries ← counted (pair text (summary types depth))
    pure (.groupBy input keys summaries :: stack)
  | .join, right :: left :: stack => do
    let kind ← named [.inner, .leftOuter, .rightOuter, .fullOuter] JoinKind.name
    let leftKey ← formula types depth
    let rightKey ← formula types depth
    pure (.join kind left right leftKey rightKey :: stack)
  | .correlate, input :: stack => do
    let c ← correlation
    pure (.correlate input c :: stack)
  | .skip, input :: stack => do
    let count ← formula types depth
    pure (.skip input count :: stack)
  | .take, input :: stack => do
    let count ← formula types depth
    pure (.take input count :: stack)
  | .distinct, input :: stack => pure (.distinct input :: stack)
  | .combine, right :: left :: stack => do
    let op ← named SetOperation.all SetOperation.name
    pure (.combine op left right :: stack)
  | .conclude, input :: stack => do
    let terminal ← named [.count, .sum, .min, .max, .average, .any, .all] Terminal.name
    let arg ← optional (formula types depth)
    pure (.conclude input terminal arg :: stack)
  | _, _ => failure

/-- Reads a number of operators, up to the end of the bytes, and gives what is on the stack. -/
def operators : Nat → List Query → List UInt8 → Option (List Query)
  | _, stack, [] => some stack
  | 0, _, _ :: _ => none
  | n + 1, stack, b :: bs => do
    let (stack, rest) ← operator types depth stack (b :: bs)
    operators n stack rest

end Types

/-- Reads a query, which is all that is left on the stack. -/
def query (types : String → Option ScalarType) (bs : List UInt8) : Option Query :=
  match operators types bs.length bs.length [] bs with
  | some [q] => some q
  | _ => none

end Reader

/-! ## What operators write -/

section Operators

variable {types : String → Option ScalarType} {depth : Nat}

lemma reads_queryHead (h : QueryHead) :
    Reads (Reader.named QueryHead.all QueryHead.name) (Encoding.text h.name) h := by
  apply reads_named <;> cases h <;> first | rfl | decide

lemma reads_projectionHead (h : ProjectionHead) :
    Reads (Reader.named ProjectionHead.all ProjectionHead.name) (Encoding.text h.name) h := by
  apply reads_named <;> cases h <;> first | rfl | decide

lemma reads_direction (descending : Bool) :
    Reads Reader.direction (directionEncoding descending) descending := by
  apply reads_named <;> cases descending <;> first | rfl | decide

lemma reads_summaryFunction (function : SummaryFunction) :
    Reads (Reader.named SummaryFunction.all SummaryFunction.name) (Encoding.text function.name)
      function := by
  apply reads_named <;> cases function <;> first | rfl | decide

lemma reads_terminal (terminal : Terminal) :
    Reads (Reader.named [.count, .sum, .min, .max, .average, .any, .all] Terminal.name)
      (Encoding.text terminal.name) terminal := by
  apply reads_named <;> cases terminal <;> first | rfl | decide

lemma reads_joinKind (kind : JoinKind) :
    Reads (Reader.named [.inner, .leftOuter, .rightOuter, .fullOuter] JoinKind.name)
      (Encoding.text kind.name) kind := by
  apply reads_named <;> cases kind <;> first | rfl | decide

lemma reads_setOperation (op : SetOperation) :
    Reads (Reader.named SetOperation.all SetOperation.name) (Encoding.text op.name) op := by
  apply reads_named <;> cases op <;> first | rfl | decide

lemma reads_correlationKind {kind : CorrelationKind} (hfit : FitWords kind.lengths) :
    Reads Reader.correlationKind kind.encoding kind := by
  have hkind : ∀ lookup : Bool, Reads
      (Reader.named [true, false] fun lookup => if lookup then "lookup" else "unnest")
      (Encoding.text (if lookup then "lookup" else "unnest")) lookup := by
    intro lookup
    apply reads_named <;> cases lookup <;> first | rfl | decide
  cases kind with
  | unnest names => exact (hkind false).bind (reads_path hfit).last
  | lookup source target =>
      obtain ⟨hsource, htarget⟩ := fitWords_append.1 hfit
      simp only [CorrelationKind.encoding, List.append_assoc]
      refine (hkind true).bind ?_
      exact (reads_path hsource).bind (reads_path htarget).last

lemma reads_correlation {c : Correlation} (hfit : FitWords c.lengths) :
    Reads Reader.correlation c.encoding c := by
  simp only [Correlation.lengths, fitWords_append, fitWords_cons, fitWords_nil, and_true] at hfit
  obtain ⟨⟨hsource, hnavigation, htarget, halias⟩, hkind⟩ := hfit
  simp only [Correlation.encoding, List.append_assoc]
  refine (reads_text hsource).bind ?_
  refine (reads_text hnavigation).bind ?_
  refine (reads_text htarget).bind ?_
  refine (reads_text halias).bind ?_
  exact (reads_flag _).bind (reads_correlationKind hkind).last

/-- A formula that may be absent can be read. -/
lemma reads_optional {arg : Option Formula} (hlength : (optionalEncoding arg).length ≤ depth)
    (hfit : FitWords (formulaLengths arg.toList))
    (htypes : TypesOf types (formulaTypes arg.toList)) :
    Reads (Reader.optional (Reader.formula types depth)) (optionalEncoding arg)
      (arg.map Formula.form) := by
  cases arg with
  | none =>
      intro rest
      rfl
  | some f =>
      rw [optionalEncoding, List.length_append] at hlength
      exact (reads_flag true).bind
        (reads_formula f depth (by omega) (fitWords_append.1 hfit).1 htypes.left).last

lemma reads_summary {s : Summary} (hlength : s.encoding.length ≤ depth)
    (hfit : FitWords (formulaLengths s.arg.toList))
    (htypes : TypesOf types (formulaTypes s.arg.toList)) :
    Reads (Reader.summary types depth) s.encoding s.form := by
  rw [Summary.encoding, List.length_append] at hlength
  exact (reads_summaryFunction _).bind (reads_optional (by omega) hfit htypes).last

/-- What a field holds is told from an entity by its head. -/
lemma reads_projected {p : Projected} (hlength : p.encoding.length ≤ depth)
    (hfit : FitWords p.lengths) (htypes : ∀ f, p = .scalar f → TypesOf types f.types) :
    Reads (Reader.projected types depth) p.encoding p.form := by
  cases p with
  | entity name aliasName =>
      simp only [Projected.lengths, fitWords_cons, fitWords_nil, and_true] at hfit
      simp only [Projected.encoding, List.append_assoc]
      refine (reads_head .entity).bind ?_
      exact (reads_text hfit.1).bind (reads_text hfit.2).last
  | scalar f =>
      have hf := reads_formula f depth hlength hfit (htypes f rfl)
      intro rest
      have hread : (Reader.head (f.encoding ++ rest) >>= fun p =>
          Reader.formulaAfter types depth p.1 p.2) = some (f.form, rest) := hf rest
      change (Reader.head (f.encoding ++ rest) >>= _) = _
      cases hhead : Reader.head (f.encoding ++ rest) with
      | none =>
          rw [hhead] at hread
          cases hread
      | some p =>
          obtain ⟨h, bs⟩ := p
          rw [hhead] at hread
          have hafter : Reader.formulaAfter types depth h bs = some (f.form, rest) := hread
          have hscalar : ((Reader.formulaAfter types depth h >>= fun f =>
              pure (Projected.scalar f)) bs) = some (.scalar f.form, rest) := by
            change (Reader.formulaAfter types depth h bs >>= _) = _
            rw [hafter]
            rfl
          cases h with
          | entity => cases depth <;> cases hafter
          | _ => exact hscalar

lemma TypesOf.of_mem {fs : List Formula} (h : TypesOf types (formulaTypes fs)) {f : Formula}
    (hf : f ∈ fs) : TypesOf types f.types := by
  induction fs with
  | nil => cases hf
  | cons g fs ih =>
      rcases List.mem_cons.1 hf with rfl | hf
      · exact h.left
      · exact ih h.right hf

/-- Several named values can be read if each can. -/
lemma reads_fields {α β : Type} {r : Reader β} {enc : α → List UInt8} {v : α → β}
    {fields : List (String × α)} (hcount : fields.length < 2 ^ 64)
    (hnames : ∀ f ∈ fields, f.1.utf8ByteSize < 2 ^ 64)
    (h : ∀ f ∈ fields, Reads r (enc f.2) (v f.2)) :
    Reads (Reader.counted (Reader.pair Reader.text r))
      (Encoding.number fields.length ++ fields.flatMap fun f => Encoding.text f.1 ++ enc f.2)
      (fields.map fun f => (f.1, v f.2)) :=
  reads_counted hcount fun f hf => (reads_text (hnames f hf)).pair (h f hf)

lemma reads_projection {p : Projection} (hlength : p.encoding.length ≤ depth)
    (hfit : FitWords p.lengths) (htypes : TypesOf types (formulaTypes p.formulas)) :
    Reads (Reader.projection types depth) p.encoding p.form := by
  cases p with
  | scalar f =>
      rw [Projection.encoding, List.length_append] at hlength
      exact (reads_projectionHead .scalar).bind
        (reads_formula f depth (by omega) hfit htypes.left).last
  | entity name aliasName =>
      simp only [Projection.lengths, fitWords_cons, fitWords_nil, and_true] at hfit
      simp only [Projection.encoding, List.append_assoc]
      refine (reads_projectionHead .entity).bind ?_
      exact (reads_text hfit.1).bind (reads_text hfit.2).last
  | record fields =>
      simp only [Projection.encoding, List.append_assoc, List.length_append] at hlength ⊢
      obtain ⟨hcount, hfit⟩ := fitWords_cons.1 hfit
      have hfields := fun f hf => fitWords_cons.1 (fitWords_flatMap.1 hfit f hf)
      refine (reads_projectionHead .record).bind
        (reads_fields hcount (fun f hf => (hfields f hf).1) fun f hf => ?_).last
      have hle := length_le_flatMap
        (e := fun f : String × Projected => Encoding.text f.1 ++ f.2.encoding) hf
      rw [List.length_append] at hle
      refine reads_projected (by omega) (hfields f hf).2 fun g hg => htypes.of_mem ?_
      exact List.mem_filterMap.2 ⟨f, hf, by rw [hg]⟩

/-! ## Reading back

Operators are read one after the other, and the induction on the query is about what is on the stack
behind it.  The number of operators bounds the reading; the bytes that are left say when it ends. -/

/-- The number of operators of a query. -/
def Query.operators : Query → Nat
  | .source .. => 1
  | .filter input _ | .project input _ | .orderBy input _ _ | .thenBy input _ _
  | .groupBy input _ _ | .correlate input _ | .skip input _ | .take input _ | .distinct input
  | .conclude input _ _ => input.operators + 1
  | .join _ left right _ _ | .combine _ left right => left.operators + right.operators + 1

/-- Reading a number of operators from some bytes puts a query on the stack. -/
def Pushes (types : String → Option ScalarType) (depth count : Nat) (bs : List UInt8) (q : Query) :
    Prop :=
  ∀ n stack rest, Reader.operators types depth (n + count) stack (bs ++ rest) =
    Reader.operators types depth n (q :: stack) rest

lemma operators_append {stack stack' : List Query} {h : QueryHead} {bs : List UInt8}
    (hread : Reads (Reader.operator types depth stack) (Encoding.text h.name ++ bs) stack')
    (n : Nat) (rest : List UInt8) :
    Reader.operators types depth (n + 1) stack (Encoding.text h.name ++ bs ++ rest) =
      Reader.operators types depth n stack' rest := by
  have hstep := hread rest
  have hlength : 0 < (Encoding.text h.name ++ bs ++ rest).length := by
    simp only [List.length_append, Encoding.length_text]
    omega
  cases hbytes : Encoding.text h.name ++ bs ++ rest with
  | nil =>
      rw [hbytes] at hlength
      cases hlength
  | cons b bytes =>
      rw [hbytes] at hstep
      rw [Reader.operators, hstep]
      rfl

namespace Pushes

variable {count count' : Nat} {bs bs' own : List UInt8} {input right q : Query} {h : QueryHead}

/-- An operator with an input takes it from the stack. -/
lemma unary (hinput : Pushes types depth count bs input)
    (hread : ∀ stack, Reads (Reader.operator types depth (input :: stack))
      (Encoding.text h.name ++ own) (q :: stack)) :
    Pushes types depth (count + 1) (bs ++ (Encoding.text h.name ++ own)) q := by
  intro n stack rest
  rw [Nat.add_comm count 1, ← Nat.add_assoc, List.append_assoc, hinput,
    operators_append (hread stack)]

/-- An operator with two inputs takes the second one first. -/
lemma binary (hleft : Pushes types depth count bs input) (hright : Pushes types depth count' bs' right)
    (hread : ∀ stack, Reads (Reader.operator types depth (right :: input :: stack))
      (Encoding.text h.name ++ own) (q :: stack)) :
    Pushes types depth (count + count' + 1) (bs ++ (bs' ++ (Encoding.text h.name ++ own))) q := by
  intro n stack rest
  have hcount : n + (count + count' + 1) = n + 1 + count' + count := by omega
  rw [hcount, List.append_assoc, List.append_assoc, hleft, hright, operators_append (hread stack)]

end Pushes

/-- **The form of a query can be read from its encoding.** -/
theorem pushes_query {q : Query} (hlength : q.encoding.length ≤ depth) (hfit : FitWords q.lengths)
    (htypes : TypesOf types q.types) : Pushes types depth q.operators q.encoding q.form := by
  induction q with
  | source entity aliasName =>
      simp only [Query.lengths, fitWords_cons, fitWords_nil, and_true] at hfit
      simp only [Query.encoding, List.append_assoc]
      intro n stack rest
      refine operators_append (h := .source) ?_ n rest
      refine (reads_queryHead .source).bind ?_
      exact (reads_text hfit.1).bind (reads_text hfit.2).last
  | filter input predicate ih =>
      simp only [Query.encoding, List.append_assoc, List.length_append] at hlength ⊢
      obtain ⟨hfit, hfitf⟩ := fitWords_append.1 hfit
      have hf := reads_formula predicate depth (by omega) hfitf htypes.right.left
      refine (ih (by omega) hfit htypes.left).unary (h := .filter) fun stack => ?_
      exact (reads_queryHead .filter).bind hf.last
  | project input projection ih =>
      simp only [Query.encoding, List.append_assoc, List.length_append] at hlength ⊢
      obtain ⟨hfit, hfitp⟩ := fitWords_append.1 hfit
      have hp : Reads (Reader.projection types depth) projection.encoding projection.form :=
        reads_projection (by omega) hfitp htypes.right
      refine (ih (by omega) hfit htypes.left).unary (h := .project) fun stack => ?_
      exact (reads_queryHead .project).bind hp.last
  | orderBy input key descending ih =>
      simp only [Query.encoding, List.append_assoc, List.length_append] at hlength ⊢
      obtain ⟨hfit, hfitf⟩ := fitWords_append.1 hfit
      have hf := reads_formula key depth (by omega) hfitf htypes.right.left
      refine (ih (by omega) hfit htypes.left).unary (h := .orderBy) fun stack => ?_
      exact (reads_queryHead .orderBy).bind ((reads_direction _).bind hf.last)
  | thenBy input key descending ih =>
      simp only [Query.encoding, List.append_assoc, List.length_append] at hlength ⊢
      obtain ⟨hfit, hfitf⟩ := fitWords_append.1 hfit
      have hf := reads_formula key depth (by omega) hfitf htypes.right.left
      refine (ih (by omega) hfit htypes.left).unary (h := .thenBy) fun stack => ?_
      exact (reads_queryHead .thenBy).bind ((reads_direction _).bind hf.last)
  | groupBy input keys summaries ih =>
      simp only [Query.encoding, List.append_assoc, List.length_append] at hlength ⊢
      obtain ⟨hfit, hfitsummaries⟩ := fitWords_append.1 hfit
      obtain ⟨hfit, hfitkeys⟩ := fitWords_append.1 hfit
      obtain ⟨hkeycount, hfitkeys⟩ := fitWords_cons.1 hfitkeys
      obtain ⟨hsummarycount, hfitsummaries⟩ := fitWords_cons.1 hfitsummaries
      have hfitkey := fun k hk => fitWords_cons.1 (fitWords_flatMap.1 hfitkeys k hk)
      have hfitsummary := fun s hs => fitWords_cons.1 (fitWords_flatMap.1 hfitsummaries s hs)
      have hkeys : Reads (Reader.counted (Reader.pair Reader.text (Reader.formula types depth)))
          (Encoding.number keys.length ++
            keys.flatMap fun k => Encoding.text k.1 ++ k.2.encoding)
          (keys.map fun k => (k.1, k.2.form)) := by
        refine reads_fields hkeycount (fun k hk => (hfitkey k hk).1) fun k hk => ?_
        have hle := length_le_flatMap
          (e := fun k : String × Formula => Encoding.text k.1 ++ k.2.encoding) hk
        rw [List.length_append] at hle
        refine reads_formula k.2 depth (by omega) (hfitkey k hk).2 (htypes.right.of_mem ?_)
        exact List.mem_append_left _ (List.mem_map_of_mem hk)
      have hsummaries : Reads
          (Reader.counted (Reader.pair Reader.text (Reader.summary types depth)))
          (Encoding.number summaries.length ++
            summaries.flatMap fun s => Encoding.text s.1 ++ s.2.encoding)
          (summaries.map fun s => (s.1, s.2.form)) := by
        refine reads_fields hsummarycount (fun s hs => (hfitsummary s hs).1) fun s hs => ?_
        have hle := length_le_flatMap
          (e := fun s : String × Summary => Encoding.text s.1 ++ s.2.encoding) hs
        rw [List.length_append] at hle
        refine reads_summary (by omega) (hfitsummary s hs).2 ?_
        cases harg : s.2.arg with
        | none => exact fun t ht => by cases ht
        | some f =>
            have hmem : f ∈ keys.map Prod.snd ++ summaries.filterMap fun s => s.2.arg :=
              List.mem_append_right _ (List.mem_filterMap.2 ⟨s, hs, harg⟩)
            rw [Option.toList_some, formulaTypes, formulaTypes, List.append_nil]
            exact htypes.right.of_mem hmem
      refine (ih (by omega) hfit htypes.left).unary (h := .groupBy) fun stack => ?_
      rw [← List.append_assoc (Encoding.number keys.length)]
      exact (reads_queryHead .groupBy).bind (hkeys.bind hsummaries.last)
  | join kind left right leftKey rightKey ihl ihr =>
      simp only [Query.encoding, List.append_assoc, List.length_append] at hlength ⊢
      simp only [Query.lengths, fitWords_append] at hfit
      obtain ⟨⟨⟨hfitl, hfitr⟩, hfitlk⟩, hfitrk⟩ := hfit
      have hl := reads_formula leftKey depth (by omega) hfitlk htypes.right.left
      have hr := reads_formula rightKey depth (by omega) hfitrk htypes.right.right.left
      refine (ihl (by omega) hfitl htypes.left.left).binary
        (ihr (by omega) hfitr htypes.left.right) (h := .join) fun stack => ?_
      exact (reads_queryHead .join).bind ((reads_joinKind kind).bind (hl.bind hr.last))
  | correlate input correlation ih =>
      simp only [Query.encoding, List.append_assoc, List.length_append] at hlength ⊢
      obtain ⟨hfit, hfitc⟩ := fitWords_append.1 hfit
      refine (ih (by omega) hfit htypes.left).unary (h := .correlate) fun stack => ?_
      exact (reads_queryHead .correlate).bind (reads_correlation hfitc).last
  | skip input count ih =>
      simp only [Query.encoding, List.append_assoc, List.length_append] at hlength ⊢
      obtain ⟨hfit, hfitf⟩ := fitWords_append.1 hfit
      have hf := reads_formula count depth (by omega) hfitf htypes.right.left
      refine (ih (by omega) hfit htypes.left).unary (h := .skip) fun stack => ?_
      exact (reads_queryHead .skip).bind hf.last
  | take input count ih =>
      simp only [Query.encoding, List.append_assoc, List.length_append] at hlength ⊢
      obtain ⟨hfit, hfitf⟩ := fitWords_append.1 hfit
      have hf := reads_formula count depth (by omega) hfitf htypes.right.left
      refine (ih (by omega) hfit htypes.left).unary (h := .take) fun stack => ?_
      exact (reads_queryHead .take).bind hf.last
  | distinct input ih =>
      simp only [Query.encoding, List.length_append] at hlength ⊢
      rw [← List.append_nil (Encoding.text "distinct")]
      refine (ih (by omega) hfit htypes.left).unary (h := .distinct) fun stack => ?_
      exact (reads_queryHead .distinct).bind fun rest => rfl
  | combine op left right ihl ihr =>
      simp only [Query.encoding, List.append_assoc, List.length_append] at hlength ⊢
      obtain ⟨hfitl, hfitr⟩ := fitWords_append.1 hfit
      refine (ihl (by omega) hfitl htypes.left.left).binary
        (ihr (by omega) hfitr htypes.left.right) (h := .combine) fun stack => ?_
      exact (reads_queryHead .combine).bind (reads_setOperation op).last
  | conclude input terminal arg ih =>
      simp only [Query.encoding, List.append_assoc, List.length_append] at hlength ⊢
      obtain ⟨hfit, hfitarg⟩ := fitWords_append.1 hfit
      have harg : Reads (Reader.optional (Reader.formula types depth)) (optionalEncoding arg)
          (arg.map Formula.form) := reads_optional (by omega) hfitarg htypes.right
      refine (ih (by omega) hfit htypes.left).unary (h := .conclude) fun stack => ?_
      exact (reads_queryHead .conclude).bind ((reads_terminal terminal).bind harg.last)

lemma Query.operators_le (q : Query) : q.operators ≤ q.encoding.length := by
  induction q <;>
    simp only [operators, encoding, List.length_append, Encoding.length_text] <;> omega

/-- **The encoding of a query can be read back, but for what its form leaves out.** -/
theorem Reader.query_encoding {q : Query} (hfit : FitWords q.lengths)
    (htypes : TypesOf types q.types) : Reader.query types q.encoding = some q.form := by
  obtain ⟨n, hn⟩ := Nat.exists_eq_add_of_le' q.operators_le
  have hpush := pushes_query (Nat.le_refl _) hfit htypes n [] []
  rw [List.append_nil, ← hn] at hpush
  have hend : Reader.operators types q.encoding.length n [q.form] [] = some [q.form] := by
    cases n <;> rfl
  rw [Reader.query, hpush, hend]

/-- **Queries with one encoding have one form**, if each type that they write out is told by its
name. -/
theorem Query.form_eq_of_encoding_eq {q q' : Query} (h : q.encoding = q'.encoding)
    (hfit : FitWords q.lengths) (hfit' : FitWords q'.lengths) (htypes : TypesOf types q.types)
    (htypes' : TypesOf types q'.types) : q.form = q'.form := by
  have hq := Reader.query_encoding hfit htypes
  rw [h, Reader.query_encoding hfit' htypes'] at hq
  exact (Option.some.inj hq).symm

end Operators
end EntityQuery
