import EntityQuery.Proofs.Document.Text
import EntityQuery.Proofs.Number.DecimalText
import EntityQuery.Proofs.Text.Digits

/-!
# Documents by their texts

The text of a document is read from its front.  The first character tells the kind; a string goes on
to the first quote that is not the end of an escape, a number to the character behind it that no
number has, and the items of an array are told apart by what their own texts leave over.  So a text
is the text of one document only.

Infinities have no text of their own kind, and a document holds none (`Document.ofFloat`): the
documents here are over finite numbers.

* `Document.IsFinite`: the documents that a store holds.
* `Number.text_injective`: integers and doubles are told apart, and each by its text.
* `readChar_documentChar`: a character of a string is read back, escaped or not.
* `Document.eq_of_text_append`: a text determines the document and what is left behind it.
* `Document.text_injective`: no two documents are written alike.
-/

namespace EntityQuery

/-! ## Finite documents -/

/-- The numbers that a document can hold. -/
def Number.IsFinite : Number → Prop
  | .int _ => True
  | .float x => Number.isFinite x = true

instance (x : Number) : Decidable x.IsFinite := by
  cases x with
  | int _ => exact .isTrue trivial
  | float x => exact inferInstanceAs (Decidable (Number.isFinite x = true))

mutual

/-- Whether all numbers of a document are finite, also those inside its objects. -/
def Document.IsFinite : Document → Prop
  | .number x => x.IsFinite
  | .array items => itemsAreFinite items
  | .object fields => fieldsAreFinite fields
  | _ => True

/-- Whether all numbers of some documents are finite. -/
def itemsAreFinite : List Document → Prop
  | [] => True
  | item :: items => item.IsFinite ∧ itemsAreFinite items

/-- Whether all numbers of some fields are finite. -/
def fieldsAreFinite : List (String × Document) → Prop
  | [] => True
  | field :: fields => fieldIsFinite field ∧ fieldsAreFinite fields

/-- Whether all numbers of a field are finite. -/
def fieldIsFinite : String × Document → Prop
  | (_, value) => value.IsFinite

end

/-! ## Numbers

An integer and a double of the same value are different numbers, and they are written differently:
the text of a double has a point or an exponent. -/

/-- An integer is written with digits behind at most a sign. -/
lemma toList_text_int (n : Int) :
    (Number.text (.int n)).toList =
      if n < 0 then '-' :: Nat.toDigits 10 n.natAbs else Nat.toDigits 10 n.natAbs := by
  cases n with
  | ofNat n =>
      rw [if_neg (by simp)]
      change (toString n).toList = _
      rw [Nat.toString_eq_repr, Nat.repr_eq_ofList_toDigits, String.toList_ofList]
      rfl
  | negSucc n =>
      rw [if_pos (Int.negSucc_lt_zero n)]
      change ("-" ++ toString (n + 1)).toList = _
      rw [String.toList_append, Nat.toString_eq_repr, Nat.repr_eq_ofList_toDigits]
      exact congrArg ('-' :: ·) String.toList_ofList

lemma isDigit_of_mem_toDigits_ten {n : Nat} {c : Char} (h : c ∈ Nat.toDigits 10 n) :
    c.isDigit = true :=
  Nat.isDigit_of_mem_toDigits (by decide) (by decide) h

/-- Different integers have different texts. -/
lemma text_int_injective {m n : Int} (h : Number.text (.int m) = Number.text (.int n)) : m = n := by
  have hdigits : ∀ k l : Nat, Nat.toDigits 10 k = Nat.toDigits 10 l → k = l := fun k l h => by
    rw [← Nat.ofDigitChars_ten_toDigits (n := k), h, Nat.ofDigitChars_ten_toDigits]
  have hsign : ∀ (k : Nat) cs, '-' :: cs ≠ Nat.toDigits 10 k := fun k cs h =>
    Bool.noConfusion (isDigit_of_mem_toDigits_ten (h ▸ List.mem_cons_self : '-' ∈ Nat.toDigits 10 k))
  have hlists := congrArg String.toList h
  rw [toList_text_int, toList_text_int] at hlists
  split_ifs at hlists
  · have := hdigits _ _ (List.cons.inj hlists).2
    omega
  · exact absurd hlists (hsign _ _)
  · exact absurd hlists.symm (hsign _ _)
  · have := hdigits _ _ hlists
    omega

/-- An integer and a double have different texts. -/
lemma text_int_ne_float {n : Int} {x : Float} (hx : Number.isFinite x = true) :
    Number.text (.int n) ≠ Number.text (.float x) := by
  intro h
  obtain ⟨c, hc, hdigit, hsign⟩ := DecimalLayout.document.exists_mark_text rfl hx
  have hmem : c ∈ (Number.text (.int n)).toList := by
    rw [h]
    exact hc
  rw [toList_text_int] at hmem
  have hchars : c = '-' ∨ c.isDigit = true := by
    split at hmem
    · exact (List.mem_cons.1 hmem).imp_right isDigit_of_mem_toDigits_ten
    · exact .inr (isDigit_of_mem_toDigits_ten hmem)
  rcases hchars with rfl | hc
  · exact hsign rfl
  · exact Bool.noConfusion (hdigit.symm.trans hc)

/-- **No two finite numbers are written alike.** -/
theorem Number.text_injective {x y : Number} (hx : x.IsFinite) (hy : y.IsFinite)
    (h : x.text = y.text) : x = y := by
  cases x <;> cases y
  case int.int m n => rw [text_int_injective h]
  case int.float n x => exact absurd h (text_int_ne_float hy)
  case float.int x n => exact absurd h.symm (text_int_ne_float hx)
  case float.float x y => rw [DecimalLayout.document.text_injective hx hy h]

/-! ## Strings

Where a string ends is seen only by reading it character by character, since a quote may belong to
an escape.  A reader is defined that takes one character as it is written, and it is enough that
each character is read back. -/

/-- The characters that are escaped by a letter of their own. -/
def escapes : List (Char × Char) :=
  [('"', '"'), ('\\', '\\'), ('n', '\n'), ('r', '\r'), ('t', '\t'), ('b', '\x08'), ('f', '\x0c')]

/-- The character that an escape stands for, and what is behind it. -/
def readEscape : List Char → Option (Char × List Char)
  | 'u' :: '0' :: '0' :: high :: low :: rest => do
    let a ← Uuid.digitValue? high
    let b ← Uuid.digitValue? low
    some (Char.ofNat (16 * a + b), rest)
  | letter :: rest => (escapes.find? fun e => e.1 == letter).map fun e => (e.2, rest)
  | [] => none

/-- The first character of a string whose text is read, and what is behind it. -/
def readChar : List Char → Option (Char × List Char)
  | c :: rest => if c = '\\' then readEscape rest else some (c, rest)
  | [] => none

/-- **A character of a string is read back.** -/
theorem readChar_documentChar (c : Char) (rest : List Char) :
    readChar ((documentChar c).toList ++ rest) = some (c, rest) := by
  rw [documentChar.eq_def]
  split
  case h_8 hquote hbackslash _ _ _ _ _ =>
    split
    case isTrue hcontrol =>
      have hhigh := digitValue?_digitChar (d := c.toNat / 16) (by omega)
      have hlow := digitValue?_digitChar (d := c.toNat % 16) (by omega)
      have hcode : ("\\u00" ++ hexByte c.toNat).toList ++ rest =
          '\\' :: 'u' :: '0' :: '0' :: Nat.digitChar (c.toNat / 16) ::
            Nat.digitChar (c.toNat % 16) :: rest := by
        rw [String.toList_append, hexByte, List.append_assoc]
        exact congrArg (['\\', 'u', '0', '0'] ++ · ++ rest) String.toList_ofList
      rw [hcode, readChar, if_pos rfl, readEscape, hhigh, hlow]
      change some (Char.ofNat (16 * (c.toNat / 16) + c.toNat % 16), rest) = _
      rw [Nat.div_add_mod, Char.ofNat_toNat]
    case isFalse =>
      rw [Char.toString_eq_singleton, String.toList_singleton, List.singleton_append, readChar,
        if_neg fun h => hbackslash h]
  all_goals rfl

/-- No character of a string is written with a quote in front. -/
lemma exists_documentChar (c : Char) : ∃ d cs, (documentChar c).toList = d :: cs ∧ d ≠ '"' := by
  rw [documentChar.eq_def]
  split
  case h_8 hquote _ _ _ _ _ _ =>
    split
    case isTrue =>
      rw [String.toList_append]
      exact ⟨'\\', _, rfl, by decide⟩
    case isFalse =>
      rw [Char.toString_eq_singleton, String.toList_singleton]
      exact ⟨c, [], rfl, fun h => hquote h⟩
  all_goals exact ⟨'\\', _, rfl, by decide⟩

/-- The characters of a string as they are written. -/
def stringCode (cs : List Char) : List Char := cs.flatMap fun c => (documentChar c).toList

lemma toList_documentString_append (s : String) (rest : List Char) :
    (documentString s).toList ++ rest = '"' :: (stringCode s.toList ++ '"' :: rest) := by
  rw [documentString, String.toList_append, String.toList_append, String.toList_join,
    List.flatMap_map]
  simp [stringCode]

/-- A string ends with the first quote that is no part of a character. -/
lemma eq_of_stringCode_append {cs ds rest rest' : List Char}
    (h : stringCode cs ++ '"' :: rest = stringCode ds ++ '"' :: rest') : cs = ds ∧ rest = rest' := by
  have hquote : ∀ (c : Char) (cs rest rest' : List Char),
      '"' :: rest ≠ stringCode (c :: cs) ++ '"' :: rest' := fun c cs rest rest' h => by
    obtain ⟨d, code, hcode, hd⟩ := exists_documentChar c
    rw [stringCode, List.flatMap_cons, hcode] at h
    exact hd (List.cons.inj h).1.symm
  induction cs generalizing ds with
  | nil =>
      cases ds with
      | nil => exact ⟨rfl, (List.cons.inj h).2⟩
      | cons d ds => exact absurd h (hquote d ds rest rest')
  | cons c cs ih =>
      cases ds with
      | nil => exact absurd h.symm (hquote c cs rest' rest)
      | cons d ds =>
          simp only [stringCode, List.flatMap_cons, List.append_assoc] at h
          have hread := congrArg readChar h
          rw [readChar_documentChar, readChar_documentChar, Option.some_inj, Prod.mk.injEq] at hread
          obtain ⟨rfl, hrest⟩ := hread
          obtain ⟨rfl, rfl⟩ := ih hrest
          exact ⟨rfl, rfl⟩

lemma eq_of_documentString_append {s t : String} {rest rest' : List Char}
    (h : (documentString s).toList ++ rest = (documentString t).toList ++ rest') :
    s = t ∧ rest = rest' := by
  rw [toList_documentString_append, toList_documentString_append] at h
  obtain ⟨hs, hrest⟩ := eq_of_stringCode_append (List.cons.inj h).2
  exact ⟨String.toList_inj.1 hs, hrest⟩

/-! ## Elements

Arrays and objects are both lists of elements between commas.  What is shown here is about such a
list in general: if each element is told apart by its text and by where it ends, so is the list. -/

/-- What can stand behind the text of a document: nothing, a comma or a closing bracket. -/
def Ends (rest : List Char) : Prop := ∀ c ∈ rest.head?, c = ',' ∨ c = ']' ∨ c = '\x7d'

/-- The text of an element tells it from all others, and where its end is. -/
def IsReadBack {α : Type} (code : α → List Char) (valid : α → Prop) (a : α) : Prop :=
  ∀ ⦃b⦄, valid b → ∀ ⦃rest rest'⦄, Ends rest → Ends rest' →
    code a ++ rest = code b ++ rest' → a = b ∧ rest = rest'

/-- The elements that follow others, each behind a comma, with a bracket behind the last. -/
def furtherElements (close : Char) : List (List Char) → List Char → List Char
  | [], rest => close :: rest
  | code :: codes, rest => ',' :: (code ++ furtherElements close codes rest)

/-- Elements between commas, with a bracket behind the last. -/
def elements (close : Char) : List (List Char) → List Char → List Char
  | [], rest => close :: rest
  | code :: codes, rest => code ++ furtherElements close codes rest

section Elements

variable {α : Type} {code : α → List Char} {valid : α → Prop} {close : Char} {as bs : List α}
  {rest rest' : List Char}

lemma ends_furtherElements (hclose : close = ']' ∨ close = '\x7d') (codes : List (List Char))
    (rest : List Char) : Ends (furtherElements close codes rest) := by
  intro c hc
  cases codes with
  | nil =>
      obtain rfl := Option.mem_some.1 hc
      exact .inr hclose
  | cons => exact .inl (Option.mem_some.1 hc).symm

lemma eq_of_furtherElements (hclose : close = ']' ∨ close = '\x7d')
    (has : ∀ a ∈ as, IsReadBack code valid a) (hbs : ∀ b ∈ bs, valid b)
    (h : furtherElements close (as.map code) rest = furtherElements close (bs.map code) rest') :
    as = bs ∧ rest = rest' := by
  have hcomma : close ≠ ',' := by
    rcases hclose with rfl | rfl <;> decide
  induction as generalizing bs with
  | nil =>
      cases bs with
      | nil => exact ⟨rfl, (List.cons.inj h).2⟩
      | cons => exact absurd (List.cons.inj h).1 hcomma
  | cons a as ih =>
      cases bs with
      | nil => exact absurd (List.cons.inj h).1.symm hcomma
      | cons b bs =>
          rw [List.forall_mem_cons] at has hbs
          obtain ⟨rfl, hfurther⟩ := has.1 hbs.1 (ends_furtherElements hclose _ _)
            (ends_furtherElements hclose _ _) (List.cons.inj h).2
          obtain ⟨rfl, rfl⟩ := ih has.2 hbs.2 hfurther
          exact ⟨rfl, rfl⟩

/-- **Elements are told apart**, if none is written with the closing bracket in front. -/
lemma eq_of_elements (hclose : close = ']' ∨ close = '\x7d')
    (hopen : ∀ a, valid a → ∃ c cs, code a = c :: cs ∧ c ≠ close) (has : ∀ a ∈ as, valid a)
    (hread : ∀ a ∈ as, IsReadBack code valid a) (hbs : ∀ b ∈ bs, valid b)
    (h : elements close (as.map code) rest = elements close (bs.map code) rest') :
    as = bs ∧ rest = rest' := by
  have hfront : ∀ a, valid a → ∀ codes rest rest',
      close :: rest ≠ elements close (code a :: codes) rest' := fun a ha codes rest rest' h => by
    obtain ⟨c, cs, hcode, hc⟩ := hopen a ha
    rw [elements, hcode] at h
    exact hc (List.cons.inj h).1.symm
  cases as with
  | nil =>
      cases bs with
      | nil => exact ⟨rfl, (List.cons.inj h).2⟩
      | cons b bs => exact absurd h (hfront b (hbs b List.mem_cons_self) _ _ _)
  | cons a as =>
      cases bs with
      | nil => exact absurd h.symm (hfront a (has a List.mem_cons_self) _ _ _)
      | cons b bs =>
          rw [List.forall_mem_cons] at hread hbs
          obtain ⟨rfl, hfurther⟩ := hread.1 hbs.1 (ends_furtherElements hclose _ _)
            (ends_furtherElements hclose _ _) h
          obtain ⟨rfl, rfl⟩ := eq_of_furtherElements hclose hread.2 hbs.2 hfurther
          exact ⟨rfl, rfl⟩

end Elements

/-! ## Arrays and objects -/

lemma toList_text_array_append (items : List Document) (rest : List Char) :
    (Document.array items).text.toList ++ rest =
      '[' :: elements ']' (items.map fun d => d.text.toList) rest := by
  have hitems : ∀ (item : Document) (items : List Document),
      (itemsText (item :: items)).toList ++ ']' :: rest =
        item.text.toList ++ furtherElements ']' (items.map fun d => d.text.toList) rest := by
    intro item items
    induction items generalizing item with
    | nil => rw [itemsText]; rfl
    | cons next items ih =>
        rw [itemsText, String.toList_append, String.toList_append, List.append_assoc,
          List.append_assoc, ih]
        · rfl
        · exact List.cons_ne_nil _ _
  rw [Document.text, String.toList_append, String.toList_append, List.append_assoc,
    List.append_assoc]
  cases items with
  | nil => rw [itemsText]; rfl
  | cons item items => exact congrArg ('[' :: ·) (hitems item items)

lemma toList_text_object_append (fields : List (String × Document)) (rest : List Char) :
    (Document.object fields).text.toList ++ rest =
      '\x7b' :: elements '\x7d' (fields.map fun f => (fieldText f).toList) rest := by
  have hfields : ∀ (field : String × Document) (fields : List (String × Document)),
      (fieldsText (field :: fields)).toList ++ '\x7d' :: rest =
        (fieldText field).toList ++
          furtherElements '\x7d' (fields.map fun f => (fieldText f).toList) rest := by
    intro field fields
    induction fields generalizing field with
    | nil => rw [fieldsText]; rfl
    | cons next fields ih =>
        rw [fieldsText, String.toList_append, String.toList_append, List.append_assoc,
          List.append_assoc, ih]
        · rfl
        · exact List.cons_ne_nil _ _
  rw [Document.text, String.toList_append, String.toList_append, List.append_assoc,
    List.append_assoc]
  cases fields with
  | nil => rw [fieldsText]; rfl
  | cons field fields => exact congrArg ('\x7b' :: ·) (hfields field fields)

lemma toList_fieldText_append (name : String) (value : Document) (rest : List Char) :
    (fieldText (name, value)).toList ++ rest =
      (documentString name).toList ++ ':' :: (value.text.toList ++ rest) := by
  rw [fieldText, String.toList_append, String.toList_append]
  simp

/-! ## Kinds

The first character of a text tells the kind of its document, so that documents of different kinds
need not be compared any further. -/

/-- The kind of the documents whose texts begin with a character. -/
def kindOfLead? (c : Char) : Option DocumentKind :=
  match c with
  | 'n' => some .null
  | 't' | 'f' => some .boolean
  | '"' => some .string
  | '[' => some .array
  | '\x7b' => some .object
  | c => if c.isDigit || c == '-' then some .number else none

lemma kindOfLead?_number {c : Char} (h : c.isDigit = true ∨ c = '-') :
    kindOfLead? c = some .number := by
  rw [kindOfLead?.eq_def]
  split
  case h_7 => exact if_pos (by simpa using h)
  all_goals exact absurd h (by decide)

/-- A finite number is written with a digit or a sign in front. -/
lemma Number.exists_text {x : Number} (hx : x.IsFinite) :
    ∃ c cs, x.text.toList = c :: cs ∧ (c.isDigit = true ∨ c = '-') := by
  cases x with
  | float x => exact DecimalLayout.document.exists_text hx
  | int n =>
      rw [toList_text_int]
      split
      · exact ⟨_, _, rfl, .inr rfl⟩
      · obtain ⟨c, cs, hcs⟩ := List.exists_cons_of_length_pos
          (Nat.length_toDigits_pos (b := 10) (n := n.natAbs))
        exact ⟨c, cs, hcs, .inl (isDigit_of_mem_toDigits_ten (hcs ▸ List.mem_cons_self))⟩

/-- The first character of a text tells the kind of the document. -/
lemma Document.exists_lead {d : Document} (hd : d.IsFinite) :
    ∃ c cs, d.text.toList = c :: cs ∧ kindOfLead? c = some (DocumentKind.ofDocument d) := by
  cases d with
  | null => exact ⟨'n', _, by rw [text]; rfl, rfl⟩
  | bool b =>
      cases b
      · exact ⟨'f', _, by rw [text]; rfl, rfl⟩
      · exact ⟨'t', _, by rw [text]; rfl, rfl⟩
  | number x =>
      rw [IsFinite] at hd
      obtain ⟨c, cs, hcs, hc⟩ := Number.exists_text hd
      exact ⟨c, cs, by rw [text, hcs], kindOfLead?_number hc⟩
  | string s =>
      have h := toList_documentString_append s []
      rw [List.append_nil] at h
      exact ⟨'"', _, by rw [text, h], rfl⟩
  | array items =>
      have h := toList_text_array_append items []
      rw [List.append_nil] at h
      exact ⟨'[', _, h, rfl⟩
  | object fields =>
      have h := toList_text_object_append fields []
      rw [List.append_nil] at h
      exact ⟨'\x7b', _, h, rfl⟩

/-- Documents with texts that begin alike are of one kind. -/
lemma Document.kind_eq_of_text_append {a b : Document} (ha : a.IsFinite) (hb : b.IsFinite)
    {rest rest' : List Char} (h : a.text.toList ++ rest = b.text.toList ++ rest') :
    DocumentKind.ofDocument a = DocumentKind.ofDocument b := by
  obtain ⟨c, cs, hcs, hc⟩ := exists_lead ha
  obtain ⟨d, ds, hds, hd⟩ := exists_lead hb
  rw [hcs, hds] at h
  obtain rfl := (List.cons.inj h).1
  exact Option.some_inj.1 (hc.symm.trans hd)

/-! ## Documents

The induction is on the first of the two documents.  Its statement is about a text with something
behind it, because the items of an array are followed by the rest of the array. -/

/-- A number ends before the character that no number has. -/
lemma Number.isReadBack {x : Number} (hx : x.IsFinite) :
    IsReadBack (fun x => x.text.toList) Number.IsFinite x := by
  intro y hy rest rest' hrest hrest' h
  have htake : ∀ (z : Number) {rest : List Char}, Ends rest →
      (z.text.toList ++ rest).takeWhile isNumberChar = z.text.toList := fun z rest hends => by
    rw [List.takeWhile_append_of_pos fun c hc => z.consists_text c hc]
    cases rest with
    | nil => exact List.append_nil _
    | cons c rest =>
        have hc : isNumberChar c = false := by
          rcases hends c rfl with rfl | rfl | rfl <;> decide
        rw [List.takeWhile_cons_of_neg (by rw [hc]; decide), List.append_nil]
  have htexts := congrArg (List.takeWhile isNumberChar) h
  rw [htake x hrest, htake y hrest'] at htexts
  obtain rfl := Number.text_injective hx hy (String.toList_inj.1 htexts)
  exact ⟨rfl, List.append_cancel_left h⟩

lemma itemsAreFinite_iff {items : List Document} :
    itemsAreFinite items ↔ ∀ d ∈ items, d.IsFinite := by
  induction items with
  | nil => simp [itemsAreFinite]
  | cons d items ih => rw [itemsAreFinite, ih, List.forall_mem_cons]

lemma fieldsAreFinite_iff {fields : List (String × Document)} :
    fieldsAreFinite fields ↔ ∀ f ∈ fields, fieldIsFinite f := by
  induction fields with
  | nil => simp [fieldsAreFinite]
  | cons f fields ih => rw [fieldsAreFinite, ih, List.forall_mem_cons]

mutual

/-- **A text determines the document and what is left behind it.** -/
theorem Document.isReadBack : ∀ {a : Document}, a.IsFinite →
    IsReadBack (fun d => d.text.toList) Document.IsFinite a := by
  intro a ha b hb rest rest' hrest hrest' h
  have hkind := Document.kind_eq_of_text_append ha hb h
  cases a <;> cases b <;> try cases hkind
  case null.null => exact ⟨rfl, List.append_cancel_left h⟩
  case bool.bool b c =>
    cases b <;> cases c <;> simp only [Document.text] at h
    case false.false => exact ⟨rfl, List.append_cancel_left h⟩
    case true.true => exact ⟨rfl, List.append_cancel_left h⟩
    all_goals cases h
  case number.number x y =>
    simp only [Document.text] at h
    obtain ⟨rfl, rfl⟩ := Number.isReadBack ha hb hrest hrest' h
    exact ⟨rfl, rfl⟩
  case string.string s t =>
    simp only [Document.text] at h
    obtain ⟨rfl, rfl⟩ := eq_of_documentString_append h
    exact ⟨rfl, rfl⟩
  case array.array items items' =>
    simp only [toList_text_array_append] at h
    rw [Document.IsFinite] at ha hb
    have hopen : ∀ d : Document, d.IsFinite → ∃ c cs, d.text.toList = c :: cs ∧ c ≠ ']' := by
      intro d hd
      obtain ⟨c, cs, hcs, hc⟩ := Document.exists_lead hd
      exact ⟨c, cs, hcs, fun h => by rw [h] at hc; cases hc⟩
    obtain ⟨rfl, rfl⟩ := eq_of_elements (.inl rfl) hopen (itemsAreFinite_iff.1 ha)
      (itemsAreReadBack ha) (itemsAreFinite_iff.1 hb) (List.cons.inj h).2
    exact ⟨rfl, rfl⟩
  case object.object fields fields' =>
    simp only [toList_text_object_append] at h
    rw [Document.IsFinite] at ha hb
    have hopen : ∀ f : String × Document, fieldIsFinite f →
        ∃ c cs, (fieldText f).toList = c :: cs ∧ c ≠ '\x7d' := by
      intro (name, value) _
      have h := toList_fieldText_append name value []
      rw [List.append_nil, toList_documentString_append] at h
      exact ⟨'"', _, h, by decide⟩
    obtain ⟨rfl, rfl⟩ := eq_of_elements (.inr rfl) hopen (fieldsAreFinite_iff.1 ha)
      (fieldsAreReadBack ha) (fieldsAreFinite_iff.1 hb) (List.cons.inj h).2
    exact ⟨rfl, rfl⟩

lemma itemsAreReadBack : ∀ {items : List Document}, itemsAreFinite items →
    ∀ d ∈ items, IsReadBack (fun d => d.text.toList) Document.IsFinite d
  | [], _ => fun _ hd => absurd hd List.not_mem_nil
  | _ :: _, h => List.forall_mem_cons.2 ⟨Document.isReadBack h.1, itemsAreReadBack h.2⟩

lemma fieldsAreReadBack : ∀ {fields : List (String × Document)}, fieldsAreFinite fields →
    ∀ f ∈ fields, IsReadBack (fun f => (fieldText f).toList) fieldIsFinite f
  | [], _ => fun _ hf => absurd hf List.not_mem_nil
  | _ :: _, h => List.forall_mem_cons.2 ⟨fieldIsReadBack h.1, fieldsAreReadBack h.2⟩

lemma fieldIsReadBack : ∀ {field : String × Document}, fieldIsFinite field →
    IsReadBack (fun f => (fieldText f).toList) fieldIsFinite field
  | (name, value), hfield, (name', value'), hfield', rest, rest', hrest, hrest', h => by
      simp only [toList_fieldText_append] at h
      obtain ⟨rfl, hvalues⟩ := eq_of_documentString_append h
      obtain ⟨rfl, rfl⟩ := Document.isReadBack hfield hfield' hrest hrest' (List.cons.inj hvalues).2
      exact ⟨rfl, rfl⟩

end

/-- **No two documents are written alike.** -/
theorem Document.text_injective {a b : Document} (ha : a.IsFinite) (hb : b.IsFinite)
    (h : a.text = b.text) : a = b := by
  have hends : Ends [] := fun c hc => nomatch hc
  exact (Document.isReadBack ha hb hends hends (congrArg (fun s => s.toList ++ []) h)).1

end EntityQuery
