import EntityQuery.Proofs.Query.Reader

/-!
# Lengths in encodings

In front of each text and of each list of a variable size the encoding of a query has its length, a
number of 64 bits.  No text or list in the memory of a program is longer, but a query may share its
parts, so its encoding as a whole can be.

* `Formula.lengths` and `Query.lengths` are the lengths that an encoding writes.
* `FitWords`: all of them have 64 bits.
* `Query.fitWords_of_length`: they do if the whole encoding is not longer.
-/

namespace EntityQuery

/-- Numbers of 64 bits. -/
def FitWords (ns : List Nat) : Prop := ∀ n ∈ ns, n < 2 ^ 64

section FitWords

variable {n : Nat} {ns ms : List Nat}

instance : Decidable (FitWords ns) := inferInstanceAs (Decidable (∀ n ∈ ns, n < 2 ^ 64))

@[simp] lemma fitWords_nil : FitWords [] := by simp [FitWords]

@[simp] lemma fitWords_cons : FitWords (n :: ns) ↔ n < 2 ^ 64 ∧ FitWords ns := by
  simp [FitWords]

@[simp] lemma fitWords_append : FitWords (ns ++ ms) ↔ FitWords ns ∧ FitWords ms := by
  simp [FitWords, or_imp, forall_and]

lemma fitWords_flatMap {α : Type} {f : α → List Nat} {as : List α} :
    FitWords (as.flatMap f) ↔ ∀ a ∈ as, FitWords (f a) := by
  induction as with
  | nil => simp
  | cons a as ih => simp [ih]

end FitWords

/-! ## Formulas

The lengths are collected as numbers, and compared with the length of the whole encoding.  Each is
the length of a part of it. -/

/-- The lengths in the encoding of a path of fields. -/
def pathLengths (names : List String) : List Nat := names.length :: names.map String.utf8ByteSize

mutual

/-- The lengths in the encoding of a formula, but for those of its heads. -/
def Formula.lengths : Formula → List Nat
  | .property p =>
    [p.aliasName.utf8ByteSize, p.entity.utf8ByteSize] ++ pathLengths p.path ++
      [p.scalarType.name.utf8ByteSize]
  | .member name t _ | .parameter name t => [name.utf8ByteSize, t.name.utf8ByteSize]
  | .element t _ | .constant _ t => [t.name.utf8ByteSize]
  | .binary _ left right => left.lengths ++ right.lengths
  | .not f | .negate f | .isNull f | .isNotNull f => f.lengths
  | .inList f list => list.length :: (f.lengths ++ formulaLengths list)
  | .like f pattern => f.lengths ++ pattern.lengths
  | .builtin _ args => args.length :: formulaLengths args
  | .caseWhen c t o => c.lengths ++ t.lengths ++ o.lengths
  | .coalesce values => values.length :: formulaLengths values
  | .call function args t =>
    [function.utf8ByteSize, t.name.utf8ByteSize, args.length] ++ formulaLengths args

/-- The lengths in the encodings of several formulas. -/
def formulaLengths : List Formula → List Nat
  | [] => []
  | f :: fs => f.lengths ++ formulaLengths fs

end

lemma formulaEncodings_eq_flatMap (fs : List Formula) :
    formulaEncodings fs = fs.flatMap Formula.encoding := by
  induction fs with
  | nil => rfl
  | cons f fs ih => rw [formulaEncodings, ih, List.flatMap_cons]

@[simp] lemma Encoding.length_scalarType (t : ScalarType) :
    (Encoding.scalarType t).length = 8 + t.name.utf8ByteSize := length_text t.name

/-- The encoding of a formula begins with the length of its head. -/
lemma Formula.length_encoding_pos (f : Formula) : 0 < f.encoding.length := by
  cases f <;> simp only [encoding, List.length_append, Encoding.length_text] <;> omega

/-- Several formulas are not more than the bytes of their encodings. -/
lemma length_le_formulaEncodings (fs : List Formula) :
    fs.length ≤ (formulaEncodings fs).length := by
  rw [formulaEncodings_eq_flatMap]
  exact length_le_length_flatMap Formula.length_encoding_pos fs

lemma length_path (names : List String) :
    (Encoding.path names).length = 8 + (names.flatMap Encoding.text).length := by
  rw [Encoding.path, List.length_append, Encoding.length_number]

lemma fitWords_path {names : List String} (h : (Encoding.path names).length < 2 ^ 64) :
    FitWords (pathLengths names) := by
  rw [length_path] at h
  have hcount : names.length ≤ (names.flatMap Encoding.text).length :=
    length_le_length_flatMap (fun s => by rw [Encoding.length_text]; omega) names
  refine fitWords_cons.2 ⟨by omega, fun n hn => ?_⟩
  obtain ⟨name, hname, rfl⟩ := List.mem_map.1 hn
  have hle : (Encoding.text name).length ≤ (names.flatMap Encoding.text).length :=
    length_le_flatMap hname
  rw [Encoding.length_text] at hle
  omega

mutual

/-- The lengths in an encoding of at most 64 bits have 64 bits. -/
theorem Formula.fitWords_of_length : (f : Formula) → f.encoding.length < 2 ^ 64 →
    FitWords f.lengths
  | .property p, h => by
      simp only [Formula.encoding, List.length_append, Encoding.length_text,
        Encoding.length_scalarType] at h
      have hpath : FitWords (pathLengths p.path) := fitWords_path (by omega)
      simp only [Formula.lengths, fitWords_append, fitWords_cons, fitWords_nil, hpath, and_true]
      omega
  | .member .., h | .parameter .., h | .element .., h | .constant .., h => by
      simp only [Formula.encoding, List.length_append, Encoding.length_text,
        Encoding.length_scalarType] at h
      simp only [Formula.lengths, fitWords_cons, fitWords_nil, and_true]
      omega
  | .binary _ left right, h | .like left right, h => by
      simp only [Formula.encoding, List.length_append] at h
      exact fitWords_append.2 ⟨left.fitWords_of_length (by omega),
        right.fitWords_of_length (by omega)⟩
  | .not f, h | .negate f, h | .isNull f, h | .isNotNull f, h => by
      simp only [Formula.encoding, List.length_append] at h
      exact f.fitWords_of_length (by omega)
  | .inList f list, h => by
      simp only [Formula.encoding, List.length_append] at h
      have hcount := length_le_formulaEncodings list
      exact fitWords_cons.2 ⟨by omega, fitWords_append.2 ⟨f.fitWords_of_length (by omega),
        fitWords_of_lengths list (by omega)⟩⟩
  | .builtin _ fs, h | .coalesce fs, h => by
      simp only [Formula.encoding, List.length_append] at h
      have hcount := length_le_formulaEncodings fs
      exact fitWords_cons.2 ⟨by omega, fitWords_of_lengths fs (by omega)⟩
  | .caseWhen c t o, h => by
      simp only [Formula.encoding, List.length_append] at h
      exact fitWords_append.2 ⟨fitWords_append.2 ⟨c.fitWords_of_length (by omega),
        t.fitWords_of_length (by omega)⟩, o.fitWords_of_length (by omega)⟩
  | .call _ args _, h => by
      simp only [Formula.encoding, List.length_append, Encoding.length_text,
        Encoding.length_scalarType] at h
      have hcount := length_le_formulaEncodings args
      have hargs := fitWords_of_lengths args (by omega)
      simp only [Formula.lengths, fitWords_append, fitWords_cons, fitWords_nil, hargs, and_true]
      omega

theorem fitWords_of_lengths : (fs : List Formula) → (formulaEncodings fs).length < 2 ^ 64 →
    FitWords (formulaLengths fs)
  | [], _ => fitWords_nil
  | f :: fs, h => by
      rw [formulaEncodings, List.length_append] at h
      exact fitWords_append.2 ⟨f.fitWords_of_length (by omega), fitWords_of_lengths fs (by omega)⟩

end

/-! ## Queries

The converse does not hold.  A query may share its parts, and then each length has 64 bits though
the encoding as a whole is longer. -/

/-- The lengths in the encoding of what a field holds. -/
def Projected.lengths : Projected → List Nat
  | .scalar f => f.lengths
  | .entity name aliasName => [name.utf8ByteSize, aliasName.utf8ByteSize]

/-- The lengths in the encoding of a projection. -/
def Projection.lengths : Projection → List Nat
  | .scalar f => f.lengths
  | .record fields =>
    fields.length :: fields.flatMap fun f => f.1.utf8ByteSize :: f.2.lengths
  | .entity name aliasName => [name.utf8ByteSize, aliasName.utf8ByteSize]

/-- The lengths in the encoding of a kind of correlation. -/
def CorrelationKind.lengths : CorrelationKind → List Nat
  | .unnest names => pathLengths names
  | .lookup source target => pathLengths source ++ pathLengths target

/-- The lengths in the encoding of a correlation. -/
def Correlation.lengths (c : Correlation) : List Nat :=
  [c.sourceAlias.utf8ByteSize, c.navigation.utf8ByteSize, c.target.utf8ByteSize,
    c.aliasName.utf8ByteSize] ++ c.kind.lengths

/-- The lengths in the encoding of a query. -/
def Query.lengths : Query → List Nat
  | .source entity aliasName => [entity.utf8ByteSize, aliasName.utf8ByteSize]
  | .filter input f | .orderBy input f _ | .thenBy input f _ | .skip input f | .take input f =>
    input.lengths ++ f.lengths
  | .project input projection => input.lengths ++ projection.lengths
  | .groupBy input keys summaries =>
    input.lengths ++
      (keys.length :: keys.flatMap fun k => k.1.utf8ByteSize :: k.2.lengths) ++
      (summaries.length ::
        summaries.flatMap fun s => s.1.utf8ByteSize :: formulaLengths s.2.arg.toList)
  | .join _ left right leftKey rightKey =>
    left.lengths ++ right.lengths ++ leftKey.lengths ++ rightKey.lengths
  | .correlate input correlation => input.lengths ++ correlation.lengths
  | .distinct input => input.lengths
  | .combine _ left right => left.lengths ++ right.lengths
  | .conclude input _ arg => input.lengths ++ formulaLengths arg.toList

/-- The lengths of named values fit if their encodings do. -/
lemma fitWords_fields {α : Type} {e : α → List UInt8} {l : α → List Nat}
    {fields : List (String × α)}
    (hsize : (fields.flatMap fun f => Encoding.text f.1 ++ e f.2).length < 2 ^ 64)
    (h : ∀ f ∈ fields, (e f.2).length < 2 ^ 64 → FitWords (l f.2)) :
    FitWords (fields.length :: fields.flatMap fun f => f.1.utf8ByteSize :: l f.2) := by
  have hcount := length_le_length_flatMap (e := fun f : String × α => Encoding.text f.1 ++ e f.2)
    (fun f => by rw [List.length_append, Encoding.length_text]; omega) fields
  refine fitWords_cons.2 ⟨by omega, fitWords_flatMap.2 fun f hf => ?_⟩
  have hle := length_le_flatMap (e := fun f : String × α => Encoding.text f.1 ++ e f.2) hf
  rw [List.length_append, Encoding.length_text] at hle
  exact fitWords_cons.2 ⟨by omega, h f hf (by omega)⟩

lemma fitWords_optional {arg : Option Formula} (h : (optionalEncoding arg).length < 2 ^ 64) :
    FitWords (formulaLengths arg.toList) := by
  cases arg with
  | none => exact fitWords_nil
  | some f =>
      rw [optionalEncoding, List.length_append] at h
      exact fitWords_append.2 ⟨f.fitWords_of_length (by omega), fitWords_nil⟩

lemma Projected.fitWords_of_length {p : Projected} (h : p.encoding.length < 2 ^ 64) :
    FitWords p.lengths := by
  cases p with
  | scalar f => exact f.fitWords_of_length h
  | entity name aliasName =>
      simp only [encoding, List.length_append, Encoding.length_text] at h
      simp only [lengths, fitWords_cons, fitWords_nil, and_true]
      omega

lemma Projection.fitWords_of_length {p : Projection} (h : p.encoding.length < 2 ^ 64) :
    FitWords p.lengths := by
  cases p with
  | scalar f =>
      rw [encoding, List.length_append] at h
      exact f.fitWords_of_length (by omega)
  | record fields =>
      simp only [encoding, List.length_append] at h
      exact fitWords_fields (by omega) fun f _ => Projected.fitWords_of_length
  | entity name aliasName =>
      simp only [encoding, List.length_append, Encoding.length_text] at h
      simp only [lengths, fitWords_cons, fitWords_nil, and_true]
      omega

lemma Correlation.fitWords_of_length {c : Correlation} (h : c.encoding.length < 2 ^ 64) :
    FitWords c.lengths := by
  have hkind : c.kind.encoding.length < 2 ^ 64 → FitWords c.kind.lengths := by
    intro h
    cases hkind : c.kind with
    | unnest names =>
        rw [hkind, CorrelationKind.encoding, List.length_append] at h
        exact fitWords_path (by omega)
    | lookup source target =>
        rw [hkind, CorrelationKind.encoding, List.length_append, List.length_append] at h
        exact fitWords_append.2 ⟨fitWords_path (by omega), fitWords_path (by omega)⟩
  simp only [encoding, List.length_append, Encoding.length_text] at h
  simp only [lengths, fitWords_append, fitWords_cons, fitWords_nil, and_true]
  exact ⟨by omega, hkind (by omega)⟩

/-- The lengths in the encoding of a query have 64 bits if the length of the encoding has. -/
theorem Query.fitWords_of_length {q : Query} (h : q.encoding.length < 2 ^ 64) :
    FitWords q.lengths := by
  induction q with
  | source entity aliasName =>
      simp only [encoding, List.length_append, Encoding.length_text] at h
      simp only [lengths, fitWords_cons, fitWords_nil, and_true]
      omega
  | filter input f ih | orderBy input f _ ih | thenBy input f _ ih | skip input f ih
  | take input f ih =>
      simp only [encoding, List.length_append] at h
      exact fitWords_append.2 ⟨ih (by omega), f.fitWords_of_length (by omega)⟩
  | project input projection ih =>
      simp only [encoding, List.length_append] at h
      exact fitWords_append.2 ⟨ih (by omega), projection.fitWords_of_length (by omega)⟩
  | groupBy input keys summaries ih =>
      simp only [encoding, List.length_append] at h
      refine fitWords_append.2 ⟨fitWords_append.2 ⟨ih (by omega), ?_⟩, ?_⟩
      · exact fitWords_fields (e := Formula.encoding) (by omega)
          fun k _ => k.2.fitWords_of_length
      · refine fitWords_fields (e := Summary.encoding)
          (l := fun s => formulaLengths s.arg.toList) (by omega)
          fun s _ hs => fitWords_optional ?_
        rw [Summary.encoding, List.length_append] at hs
        omega
  | join _ left right leftKey rightKey ihl ihr =>
      simp only [encoding, List.length_append] at h
      exact fitWords_append.2 ⟨fitWords_append.2 ⟨fitWords_append.2 ⟨ihl (by omega),
        ihr (by omega)⟩, leftKey.fitWords_of_length (by omega)⟩,
        rightKey.fitWords_of_length (by omega)⟩
  | correlate input c ih =>
      simp only [encoding, List.length_append] at h
      exact fitWords_append.2 ⟨ih (by omega), c.fitWords_of_length (by omega)⟩
  | distinct input ih =>
      simp only [encoding, List.length_append] at h
      exact ih (by omega)
  | combine _ left right ihl ihr =>
      simp only [encoding, List.length_append] at h
      exact fitWords_append.2 ⟨ihl (by omega), ihr (by omega)⟩
  | conclude input _ arg ih =>
      simp only [encoding, List.length_append] at h
      exact fitWords_append.2 ⟨ih (by omega), fitWords_optional (by omega)⟩

end EntityQuery
