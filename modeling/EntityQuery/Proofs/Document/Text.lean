import EntityQuery.Document.Text
import Mathlib.Data.List.Basic
import Mathlib.Tactic.Common

/-!
# The characters of the text of a document

Numbers are written with digits, letters and a few signs, and a string escapes its control
characters.  So the text of a document holds no control character, and characters that are below the
blank can mark places between and beside such texts.

* `Consists`: a text that is made of some characters.
* `Number.consists_text`: the characters of a number.
* `Document.consists_text`: no document is written with a control character.
-/

namespace EntityQuery

/-! ## Texts made of some characters -/

/-- All characters of a text pass a test. -/
def Consists (test : Char → Bool) (s : String) : Prop := ∀ c ∈ s.toList, test c = true

namespace Consists

variable {test : Char → Bool} {s t : String}

instance : Decidable (Consists test s) :=
  List.decidableBAll (fun c => test c = true) s.toList

lemma append (hs : Consists test s) (ht : Consists test t) : Consists test (s ++ t) := by
  intro c hc
  rw [String.toList_append, List.mem_append] at hc
  exact hc.elim (hs c) (ht c)

lemma ofList {cs : List Char} (h : ∀ c ∈ cs, test c = true) : Consists test (.ofList cs) := by
  intro c hc
  rw [String.toList_ofList] at hc
  exact h c hc

lemma ite {p : Prop} [Decidable p] (hs : Consists test s) (ht : Consists test t) :
    Consists test (if p then s else t) := by
  split
  · exact hs
  · exact ht

lemma mono {test' : Char → Bool} (h : Consists test s)
    (himp : ∀ c, test c = true → test' c = true) : Consists test' s :=
  fun c hc => himp c (h c hc)

end Consists

/-! ## Numbers

A number is laid out from its digits, with zeros, a point and an exponent in places that depend on
its size.  In each case the characters are among a few. -/

/-- Whether a character occurs in the text of a number: a digit, a sign, a point, the mark of an
exponent, or a letter of a double that is not finite. -/
def isNumberChar (c : Char) : Bool :=
  c.isDigit || ['+', '-', '.', 'e', 'N', 'a', 'i', 'n', 'f'].contains c

/-- Some of the digits of a number. -/
lemma consists_of_subset {n : Nat} {cs : List Char} (h : cs ⊆ Nat.toDigits 10 n) :
    Consists isNumberChar (.ofList cs) := by
  refine .ofList fun c hc => ?_
  rw [isNumberChar, Nat.isDigit_of_mem_toDigits (by decide) (by decide) (h hc), Bool.true_or]

lemma consists_zeros (n : Nat) : Consists isNumberChar (DecimalLayout.zeros n) := by
  refine .ofList fun c hc => ?_
  rw [(List.mem_replicate.1 hc).2]
  rfl

lemma consists_nat (n : Nat) : Consists isNumberChar (toString n) := by
  rw [Nat.toString_eq_repr, Nat.repr_eq_ofList_toDigits]
  exact consists_of_subset (List.Subset.refl _)

/-- The digits of a positive number, laid out. -/
lemma DecimalLayout.consists_layOut (layout : DecimalLayout) (d : Decimal) :
    Consists isNumberChar (layout.layOut d) := by
  have htake (k : Nat) := consists_of_subset (List.take_subset k (Nat.toDigits 10 d.digits))
  have hdrop (k : Nat) := consists_of_subset (List.drop_subset k (Nat.toDigits 10 d.digits))
  have hdigits := consists_of_subset (List.Subset.refl (Nat.toDigits 10 d.digits))
  rw [layOut]
  refine .ite ?_ ?_
  · have hwhole : Consists isNumberChar (if d.scale ≤ 0 then "0"
        else String.ofList ((Nat.toDigits 10 d.digits).take d.scale.toNat) ++
          zeros (d.scale.toNat - (Nat.toDigits 10 d.digits).length)) :=
      .ite (by decide) ((htake _).append (consists_zeros _))
    have hfraction : Consists isNumberChar (if d.scale ≤ 0
        then zeros (-d.scale).toNat ++ String.ofList (Nat.toDigits 10 d.digits)
        else String.ofList ((Nat.toDigits 10 d.digits).drop d.scale.toNat)) :=
      .ite ((consists_zeros _).append hdigits) (hdrop _)
    exact .ite (.ite (hwhole.append (by decide)) hwhole)
      ((hwhole.append (by decide)).append hfraction)
  · refine (((Consists.ite (htake _) (((htake _).append (by decide)).append (hdrop _))).append
      (by decide)).append ?_).append (consists_nat _)
    exact .ite (by decide) (by decide)

/-- A double, laid out. -/
lemma DecimalLayout.consists_text (layout : DecimalLayout) (x : Float) :
    Consists isNumberChar (layout.text x) := by
  rw [text]
  cases Binary64.ofFloat x with
  | nan => exact (show Consists isNumberChar "NaN" by decide)
  | infinite negative => exact .ite (by decide) (by decide)
  | finite negative mantissa exponent =>
      have hmagnitude : Consists isNumberChar (if mantissa = 0
          then (if layout.showsFraction then "0.0" else "0")
          else layout.layOut (Decimal.shortest layout.tie mantissa exponent)) :=
        .ite (.ite (by decide) (by decide)) (layout.consists_layOut _)
      exact .ite (.append (by decide) hmagnitude) hmagnitude

/-- **The characters of a number.** -/
theorem Number.consists_text (n : Number) : Consists isNumberChar n.text := by
  cases n with
  | int n =>
      cases n with
      | ofNat n => exact consists_nat n
      | negSucc n => exact Consists.append (s := "-") (by decide) (consists_nat (n + 1))
  | float x => exact DecimalLayout.document.consists_text x

/-! ## Strings

A control character within a string is written as an escape, which is made of characters that are
shown.  This is what makes the texts of documents safe to be joined by such characters. -/

/-- Whether a character is shown in the text of a document: no control character is. -/
def isShown (c : Char) : Bool := decide (32 ≤ c.toNat)

lemma isShown_of_isNumberChar {c : Char} (h : isNumberChar c = true) : isShown c = true := by
  rcases Bool.or_eq_true_iff.1 h with h | h
  · obtain ⟨hle, -⟩ := Bool.and_eq_true_iff.1 h
    exact decide_eq_true
      (Nat.le_trans (by decide) (UInt32.le_iff_toNat_le.1 (of_decide_eq_true hle)))
  · have hmarks : ['+', '-', '.', 'e', 'N', 'a', 'i', 'n', 'f'].all isShown = true := by decide
    exact List.all_eq_true.1 hmarks c (List.contains_iff_mem.1 h)

/-- A character of a string is shown or escaped. -/
lemma consists_documentChar (c : Char) : Consists isShown (documentChar c) := by
  rw [documentChar.eq_def]
  split
  case h_8 =>
    split
    case isTrue hcontrol =>
      -- the two digits of a code below 32
      have hcodes : ∀ n < 32, Consists isShown ("\\u00" ++ hexByte n) := by decide
      exact hcodes _ hcontrol
    case isFalse hshown =>
      intro e he
      rw [Char.toString_eq_singleton, String.toList_singleton, List.mem_singleton] at he
      exact he ▸ decide_eq_true (Nat.le_of_not_lt hshown)
  all_goals decide

lemma consists_documentString (s : String) : Consists isShown (documentString s) := by
  have hchars : Consists isShown (String.join (s.toList.map documentChar)) := by
    intro c hc
    rw [String.toList_join, List.mem_flatMap] at hc
    obtain ⟨_, h, hc⟩ := hc
    obtain ⟨e, -, rfl⟩ := List.mem_map.1 h
    exact consists_documentChar e c hc
  exact ((show Consists isShown "\"" by decide).append hchars).append (by decide)

/-! ## Documents -/

mutual

/-- **A document is written without control characters.** -/
theorem Document.consists_text : ∀ d : Document, Consists isShown d.text
  | .null => by rw [Document.text]; decide
  | .bool true => by rw [Document.text]; decide
  | .bool false => by rw [Document.text]; decide
  | .number n => by
      rw [Document.text]
      exact n.consists_text.mono fun _ => isShown_of_isNumberChar
  | .string s => by
      rw [Document.text]
      exact consists_documentString s
  | .array items => by
      rw [Document.text]
      exact (Consists.append (s := "[") (by decide) (consists_itemsText items)).append (by decide)
  | .object fields => by
      rw [Document.text]
      exact (Consists.append (s := "\x7b") (by decide) (consists_fieldsText fields)).append (by decide)

lemma consists_itemsText : ∀ items : List Document, Consists isShown (itemsText items)
  | [] => by rw [itemsText]; decide
  | [item] => by rw [itemsText]; exact item.consists_text
  | item :: next :: items => by
      rw [itemsText]
      · exact (item.consists_text.append (by decide)).append (consists_itemsText (next :: items))
      · exact List.cons_ne_nil _ _

lemma consists_fieldsText : ∀ fields : List (String × Document), Consists isShown (fieldsText fields)
  | [] => by rw [fieldsText]; decide
  | [field] => by rw [fieldsText]; exact consists_fieldText field
  | field :: next :: fields => by
      rw [fieldsText]
      · exact ((consists_fieldText field).append (by decide)).append
          (consists_fieldsText (next :: fields))
      · exact List.cons_ne_nil _ _

lemma consists_fieldText : ∀ field : String × Document, Consists isShown (fieldText field)
  | (name, value) => by
      rw [fieldText]
      exact ((consists_documentString name).append (by decide)).append value.consists_text

end

end EntityQuery
