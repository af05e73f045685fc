import EntityQuery.Evaluation.Function
import Mathlib.Data.List.Infix
import Mathlib.Tactic.Common

/-!
# Occurrences of texts in texts

A text occurs in another one as a part of it, and at its front exactly if the first occurrence has
no characters before it.  A part of a text is cut out from a position on, and a negative position
counts from the end: so a position before the start of a short text is no error but another cut,
unless it is before the start when it is counted from the end, too.

* `occursIn_iff` and `indexOf?_eq_zero`: occurrences as the library knows them.
* `StoreFunction.substring_difference`: the part that starts where a suffix would.
-/

namespace EntityQuery

/-! ## Occurrences

The search tries one position after the other.  That it finds a text means that the text is a part
of the other one, and that it finds it at once, that it is a prefix. -/

/-- **The search finds a text exactly if it is a part of the other one.** -/
theorem occursIn_iff {needle s : List Char} : occursIn needle s = true ↔ needle <:+: s := by
  rw [occursIn]
  induction s with
  | nil => cases needle <;> simp [indexOf?]
  | cons c s ih =>
      rw [indexOf?, List.infix_cons_iff, ← List.isPrefixOf_iff_prefix]
      split
      · simp_all
      · simp_all

/-- **The first occurrence is at the front exactly if the text starts with the other one.** -/
theorem indexOf?_eq_zero {needle s : List Char} : indexOf? needle s = some 0 ↔ needle <+: s := by
  cases s with
  | nil => cases needle <;> simp [indexOf?]
  | cons c s =>
      rw [indexOf?, ← List.isPrefixOf_iff_prefix]
      split
      · simp_all
      · simp_all

/-- An occurrence is within the text. -/
lemma le_length_of_indexOf? {needle s : List Char} {n : Nat} (h : indexOf? needle s = some n) :
    n ≤ s.length := by
  induction s generalizing n with
  | nil =>
      rw [indexOf?] at h
      split at h
      · cases h
        rfl
      · cases h
  | cons c s ih =>
      rw [indexOf?] at h
      split at h
      · cases h
        exact Nat.zero_le _
      · obtain ⟨m, hm, rfl⟩ := Option.map_eq_some_iff.1 h
        exact Nat.succ_le_succ (ih hm)

/-! ## Parts from a position on

Positions below zero count from the end.  The difference of two lengths is such a position if the
text is shorter than what is looked for. -/

namespace StoreFunction

/-- The part behind a position within a text. -/
lemma substring_of_le {s : List Char} {start : Int} {n : Nat}
    (hstart : (if start < 0 then start + s.length else start) = n) (hn : n ≤ s.length) :
    substring s start none = textDocument (s.drop n) := by
  have hinside : (decide ((n : Int) < 0) || decide ((s.length : Int) < n)) = false := by
    rw [Bool.or_eq_false_iff, decide_eq_false_iff_not, decide_eq_false_iff_not]
    omega
  rw [substring, hstart, hinside]
  rfl

/-- **The part of a text from where a suffix would start.**  If the suffix is not longer than the
text the part is as long as the suffix.  If it is longer, but not more than twice as long, the
position is counted from the end, and the part is shorter than the suffix.  Otherwise there is no
such part. -/
theorem substring_difference (s t : List Char) :
    (t.length ≤ 2 * s.length ∧
      ∃ u, substring s ((s.length : Int) - t.length) none = textDocument u ∧ (u = t ↔ t <:+ s)) ∨
    (2 * s.length < t.length ∧ substring s ((s.length : Int) - t.length) none = .null) := by
  rcases Nat.lt_or_ge (2 * s.length) t.length with hlong | hfits
  · refine .inr ⟨hlong, ?_⟩
    have hnegative : (s.length : Int) - t.length < 0 := by omega
    have hbefore : (s.length : Int) - t.length + s.length < 0 := by omega
    simp only [substring, if_pos hnegative, decide_eq_true hbefore, Bool.true_or, if_true]
  · refine .inl ⟨hfits, ?_⟩
    rcases Nat.lt_or_ge s.length t.length with hlonger | hle
    · refine ⟨s.drop (2 * s.length - t.length), substring_of_le ?_ (by omega), ?_⟩
      · rw [if_pos (by omega)]
        omega
      · refine iff_of_false (fun heq => ?_) fun hsuffix => ?_
        · have hlength := congrArg List.length heq
          rw [List.length_drop] at hlength
          omega
        · exact absurd hsuffix.length_le (by omega)
    · refine ⟨s.drop (s.length - t.length), substring_of_le ?_ (by omega), ?_⟩
      · rw [if_neg (by omega)]
        omega
      · rw [List.suffix_iff_eq_drop, eq_comm]

end StoreFunction
end EntityQuery
