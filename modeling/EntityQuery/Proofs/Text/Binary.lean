import EntityQuery.Proofs.Text.Digits
import EntityQuery.Text.Base64

/-!
# Texts of identifiers and bytes

* `Uuid.unhyphenate?_hyphenate`: the hyphens between the groups of an identifier are taken out.
* `Uuid.ofText?_text`: the text of an identifier denotes the identifier.
* `Base64.decode?_encode`: the text of some bytes denotes the bytes.
-/

namespace EntityQuery

/-! ## Identifiers -/

namespace Uuid

lemma length_hyphenate {ds : List Char} (h : ds.length = 32) : (hyphenate ds).length = 36 := by
  simp [hyphenate, h]

/-- Hyphens between five groups of the right lengths are taken out. -/
lemma unhyphenate?_groups {a b c d e : List Char} (ha : a.length = 8) (hb : b.length = 4)
    (hc : c.length = 4) (hd : d.length = 4) (he : e.length = 12) :
    unhyphenate? (a ++ '-' :: b ++ '-' :: c ++ '-' :: d ++ '-' :: e) =
      some (a ++ b ++ c ++ d ++ e) := by
  simp [unhyphenate?, ha, hb, hc, hd, he, List.drop_append,
    List.drop_of_length_le]

/-- **The hyphens between the groups are taken out.** -/
lemma unhyphenate?_hyphenate {ds : List Char} (h : ds.length = 32) :
    unhyphenate? (hyphenate ds) = some ds := by
  have hgroups : ds.take 8 ++ (ds.drop 8).take 4 ++ (ds.drop 12).take 4 ++ (ds.drop 16).take 4 ++
      ds.drop 20 = ds := by
    rw [← List.take_add, ← List.take_add, ← List.take_add, List.take_append_drop]
  rw [hyphenate, unhyphenate?_groups (by simp [h]) (by simp [h]) (by simp [h]) (by simp [h])
    (by simp [h]), hgroups]

/-- **The text of an identifier denotes the identifier.** -/
theorem ofText?_text (u : Uuid) : ofText? u.text = some u := by
  have hlength : (hexDigits 32 u.bits.toNat).length = 32 := by rw [hexDigits_eq, length_digits]
  have hread : hexNumber? 0 (digits 16 32 u.bits.toNat ++ []) =
      hexNumber? (0 * 16 ^ 32 + u.bits.toNat) [] := hexNumber?_digits 0 u.bits.isLt []
  rw [List.append_nil, ← hexDigits_eq] at hread
  have hdigits : ofDigits? (hexDigits 32 u.bits.toNat) = some u := by
    rw [ofDigits?, if_pos hlength, hread]
    simp [hexNumber?]
  rw [ofText?, text, String.toList_ofList, if_neg (by rw [length_hyphenate hlength]; decide),
    if_pos (length_hyphenate hlength), ofHyphenated?, unhyphenate?_hyphenate hlength,
    Option.bind_some, hdigits]

end Uuid

/-! ## Bytes

Bytes are taken by threes, and the last group may be shorter.  A group has four digits of six bits
each; bits that belong to no byte are zero. -/

namespace Base64

/-- Every digit has its own character. -/
lemma value?_digit (n : Nat) : value? (digit n) = some (n % 64) := by
  have hall : ∀ m < 64, value? (alphabet.getD m 'A') = some m := by decide +kernel
  exact hall (n % 64) (Nat.mod_lt _ (by decide))

/-- No digit is the mark of the padding. -/
lemma digit_ne_padding (n : Nat) : digit n ≠ '=' := by
  have hall : ∀ m < 64, alphabet.getD m 'A' ≠ '=' := by decide +kernel
  exact hall (n % 64) (Nat.mod_lt _ (by decide))

/-- A group of four digits is read as three bytes. -/
lemma decode?_group {p q r s : Nat} (rest : List Char) :
    decode? (digit p :: digit q :: digit r :: digit s :: rest) = (decode? rest).map fun bytes =>
      .ofNat (p % 64 * 4 + q % 64 / 16) :: .ofNat (q % 64 % 16 * 16 + r % 64 / 4) ::
        .ofNat (r % 64 % 4 * 64 + s % 64) :: bytes := by
  rw [decode?]
  · simp only [value?_digit, Option.bind_eq_bind, Option.bind_some]
    cases decode? rest <;> rfl
  · exact fun hr _ _ => digit_ne_padding r hr
  · exact fun hs _ => digit_ne_padding s hs

/-- A group of three digits is read as two bytes, if the last two bits are zero. -/
lemma decode?_three {p q r : Nat} (h : r % 64 % 4 = 0) :
    decode? [digit p, digit q, digit r, '='] =
      some [.ofNat (p % 64 * 4 + q % 64 / 16), .ofNat (q % 64 % 16 * 16 + r % 64 / 4)] := by
  rw [decode?]
  · simp only [value?_digit, Option.bind_eq_bind, Option.bind_some, if_pos h]
  · exact digit_ne_padding r

/-- A group of two digits is read as one byte, if the last four bits are zero. -/
lemma decode?_two {p q : Nat} (h : q % 64 % 16 = 0) :
    decode? [digit p, digit q, '=', '='] = some [.ofNat (p % 64 * 4 + q % 64 / 16)] := by
  simp only [decode?, value?_digit, Option.bind_eq_bind, Option.bind_some, if_pos h]

lemma ofNat_eq {n : Nat} {b : UInt8} (h : n = b.toNat) : UInt8.ofNat n = b := by
  rw [h, UInt8.ofNat_toNat]

/-- **The text of some bytes denotes the bytes.** -/
theorem decode?_encode (bs : List UInt8) : decode? (encode bs) = some bs := by
  induction bs using encode.induct with
  | case1 a b c rest ih =>
    have ha := a.toNat_lt
    have hb := b.toNat_lt
    have hc := c.toNat_lt
    simp only [encode, decode?_group, ih, Option.map_some]
    congr
    · exact ofNat_eq (by omega)
    · exact ofNat_eq (by omega)
    · exact ofNat_eq (by omega)
  | case2 a b =>
    have ha := a.toNat_lt
    have hb := b.toNat_lt
    rw [encode, decode?_three (by omega)]
    congr
    · exact ofNat_eq (by omega)
    · exact ofNat_eq (by omega)
  | case3 a =>
    have ha := a.toNat_lt
    rw [encode, decode?_two (by omega)]
    congr
    exact ofNat_eq (by omega)
  | case4 => rfl

end Base64
end EntityQuery
