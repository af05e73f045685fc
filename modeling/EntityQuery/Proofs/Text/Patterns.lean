import EntityQuery.Evaluation.Expression
import EntityQuery.Proofs.Computation
import Mathlib.Data.List.Forall2

/-!
# Patterns

A text matches a pattern of `LIKE` if it can be split along it: one part for each character of the
pattern, which that character stands for.

Searching for such a split is what a library of regular expressions does, too.  The regular
expression of a pattern begins and ends with an anchor, since a search would be content with a part
of the text, lets a dot stand for line breaks, and escapes what has a meaning of its own.

* `SplitsAlong` is the split, and `matchesPattern_iff` says that `matchesPattern` finds one.
* `RegexPart`, `readRegex?` and `Finds` are the regular expressions that patterns become, their
  texts and what a search for them finds.
* `RegexLibrary.IsFaithful`: a library escapes and searches as this says.
* `like_splits`: the value of `LIKE`, which any such library finds as well.
-/

namespace EntityQuery

/-! ## Splits along a pattern

A split says what it means to match without saying how to find one.  The matcher goes through the
pattern, and on a percent sign through all ends of the text. -/

/-- A character of a pattern stands for a part of a text: a percent sign for any, an underscore for
any one character, and another character for itself. -/
def StandsFor (p : Char) (part : List Char) : Prop :=
  if p = '%' then True else if p = '_' then ∃ c, part = [c] else part = [p]

/-- A text is the parts that the characters of a pattern stand for, one behind the other. -/
def SplitsAlong (pattern s : List Char) : Prop :=
  ∃ parts, List.Forall₂ StandsFor pattern parts ∧ parts.flatten = s

lemma splitsAlong_nil {s : List Char} : SplitsAlong [] s ↔ s = [] := by
  simp [SplitsAlong, eq_comm]

lemma splitsAlong_cons {p : Char} {pattern s : List Char} :
    SplitsAlong (p :: pattern) s ↔
      ∃ part rest, StandsFor p part ∧ SplitsAlong pattern rest ∧ s = part ++ rest := by
  constructor
  · rintro ⟨_, h, rfl⟩
    obtain ⟨part, parts, hpart, hparts, rfl⟩ := List.forall₂_cons_left_iff.1 h
    exact ⟨part, parts.flatten, hpart, ⟨parts, hparts, rfl⟩, rfl⟩
  · rintro ⟨part, _, hpart, ⟨parts, hparts, rfl⟩, rfl⟩
    exact ⟨part :: parts, .cons hpart hparts, rfl⟩

lemma mem_suffixes {t s : List Char} : t ∈ suffixes s ↔ t <:+ s := by
  induction s with
  | nil => simp [suffixes]
  | cons c s ih => rw [suffixes, List.mem_cons, ih, List.suffix_cons_iff]

/-- A percent sign takes any part from a text, and leaves an end of it. -/
lemma matchesPattern_run (pattern s : List Char) :
    matchesPattern ('%' :: pattern) s = (suffixes s).any (matchesPattern pattern) := by
  rw [matchesPattern.eq_def]
  rfl

/-- **A text matches a pattern exactly if it splits along it.** -/
theorem matchesPattern_iff {pattern s : List Char} :
    matchesPattern pattern s = true ↔ SplitsAlong pattern s := by
  induction pattern generalizing s with
  | nil => rw [matchesPattern, splitsAlong_nil, List.isEmpty_iff]
  | cons p pattern ih =>
      rw [splitsAlong_cons]
      by_cases hrun : p = '%'
      · subst hrun
        simp only [matchesPattern_run, List.any_eq_true, mem_suffixes, ih, StandsFor, if_true,
          true_and]
        constructor
        · rintro ⟨rest, ⟨part, rfl⟩, hrest⟩
          exact ⟨part, rest, hrest, rfl⟩
        · rintro ⟨part, rest, hrest, rfl⟩
          exact ⟨rest, List.suffix_append part rest, hrest⟩
      -- any other character takes one from the text
      · have hone : ∀ part, StandsFor p part ↔ ∃ c, part = [c] ∧ (p = '_' ∨ p = c) := by
          intro part
          by_cases hany : p = '_' <;> simp [StandsFor, hrun, hany]
        cases s with
        | nil => simp [matchesPattern, hrun, hone]
        | cons c s =>
            simp only [matchesPattern, hrun, if_false, hone, Bool.and_eq_true, Bool.or_eq_true,
              decide_eq_true_eq, ih]
            constructor
            · rintro ⟨hc, hs⟩
              exact ⟨[c], s, ⟨c, rfl, hc⟩, hs, rfl⟩
            · rintro ⟨_, rest, ⟨d, rfl, hd⟩, hrest, heq⟩
              cases heq
              exact ⟨hd, hrest⟩

/-! ## Regular expressions

Only some regular expressions have a meaning here: characters, escaped ones, dots, runs of dots, and
the two anchors.  Patterns become no others. -/

/-- A part of a regular expression. -/
inductive RegexPart where
  /-- The start of the text. -/
  | textStart
  /-- The end of the text. -/
  | textEnd
  /-- A character. -/
  | char (c : Char)
  /-- Any character, or any but a line break. -/
  | any (lineBreaks : Bool)
  /-- Any run of such characters. -/
  | run (lineBreaks : Bool)
deriving DecidableEq, Repr

/-- The characters that mean something else than themselves in a regular expression, and those that
may come to do so. -/
def regexMarks : List Char :=
  ['\\', '.', '+', '*', '?', '(', ')', '|', '[', ']', '{', '}', '^', '$', '#', '&', '-', '~']

/-- Reads parts of a regular expression; `lineBreaks` says whether a dot stands for line breaks,
too. -/
def readParts? (lineBreaks : Bool) : List Char → Option (List RegexPart)
  | [] => some []
  | '^' :: cs => (readParts? lineBreaks cs).map (.textStart :: ·)
  | '$' :: cs => (readParts? lineBreaks cs).map (.textEnd :: ·)
  | '.' :: '*' :: cs => (readParts? lineBreaks cs).map (.run lineBreaks :: ·)
  | '.' :: cs => (readParts? lineBreaks cs).map (.any lineBreaks :: ·)
  | '\\' :: c :: cs => if c ∈ regexMarks then (readParts? lineBreaks cs).map (.char c :: ·) else none
  | c :: cs => if c ∈ regexMarks then none else (readParts? lineBreaks cs).map (.char c :: ·)

/-- Reads a regular expression of such parts, which may begin with a flag for dots. -/
def readRegex? : List Char → Option (List RegexPart)
  | '(' :: '?' :: 's' :: ')' :: cs => readParts? true cs
  | cs => readParts? false cs

/-- Some parts match at a place of a text, given what is before the place and what is behind it. -/
def MatchesAt : List RegexPart → List Char → List Char → Prop
  | [], _, _ => True
  | .textStart :: parts, before, behind => before = [] ∧ MatchesAt parts before behind
  | .textEnd :: parts, before, behind => behind = [] ∧ MatchesAt parts before behind
  | .char c :: parts, before, behind =>
    ∃ rest, behind = c :: rest ∧ MatchesAt parts (before ++ [c]) rest
  | .any lineBreaks :: parts, before, behind =>
    ∃ c rest, behind = c :: rest ∧ (lineBreaks = true ∨ c ≠ '\n') ∧
      MatchesAt parts (before ++ [c]) rest
  | .run lineBreaks :: parts, before, behind =>
    ∃ part rest, behind = part ++ rest ∧ (lineBreaks = true ∨ '\n' ∉ part) ∧
      MatchesAt parts (before ++ part) rest

/-- A search for some parts in a text is successful: they match at some place. -/
def Finds (parts : List RegexPart) (s : List Char) : Prop :=
  ∃ before behind, s = before ++ behind ∧ MatchesAt parts before behind

/-! ## Libraries of regular expressions

The program leaves the search to a library.  What it relies on is that marks are escaped, and that
the search finds what the expression means; a library that does so is called faithful. -/

/-- A library of regular expressions. -/
structure RegexLibrary where
  /-- The text of a regular expression for one character. -/
  escape : Char → List Char
  /-- The search for the regular expression of a text, if there is one. -/
  search? : List Char → Option (List Char → Bool)

namespace RegexLibrary

/-- A library escapes the marks and nothing else, and searches for what it reads, whatever the size.
Nothing is said of other regular expressions than those above. -/
structure IsFaithful (l : RegexLibrary) : Prop where
  escape : ∀ c, l.escape c = if c ∈ regexMarks then ['\\', c] else [c]
  search : ∀ {source parts}, readRegex? source = some parts →
    ∃ search, l.search? source = some search ∧ ∀ s, search s = true ↔ Finds parts s

/-- The regular expression of a character of a pattern. -/
def sourceOf (l : RegexLibrary) (p : Char) : List Char :=
  if p = '%' then ['.', '*'] else if p = '_' then ['.'] else l.escape p

/-- The regular expression of a pattern. -/
def patternSource (l : RegexLibrary) (pattern : List Char) : List Char :=
  "(?s)^".toList ++ pattern.flatMap l.sourceOf ++ "$".toList

end RegexLibrary

/-! ## The regular expression of a pattern

Each character of a pattern becomes a part of the expression: a percent sign a run, an underscore a
dot, and any other character itself, escaped.  The flag lets dots stand for line breaks, and anchors
hold both ends. -/

/-- What a character of a pattern is in a regular expression. -/
def regexPart (p : Char) : RegexPart :=
  if p = '%' then .run true else if p = '_' then .any true else .char p

/-- A character that is no mark is read as itself. -/
lemma readParts?_char {c : Char} (hc : c ∉ regexMarks) (lineBreaks : Bool) (cs : List Char) :
    readParts? lineBreaks (c :: cs) = (readParts? lineBreaks cs).map (.char c :: ·) := by
  have hne : ∀ d ∈ regexMarks, c ≠ d := fun d hd h => hc (h ▸ hd)
  rw [readParts?.eq_7 _ _ _ (hne _ (by decide)) (hne _ (by decide))
    (fun _ h _ => hne _ (by decide) h) (hne _ (by decide))
    (fun _ _ h _ => hne _ (by decide) h), if_neg hc]

/-- A dot stands for one character unless a star follows it. -/
lemma readParts?_any {lineBreaks : Bool} {cs : List Char} (h : cs.head? ≠ some '*') :
    readParts? lineBreaks ('.' :: cs) = (readParts? lineBreaks cs).map (.any lineBreaks :: ·) := by
  cases cs with
  | nil => rfl
  | cons c cs => exact readParts?.eq_5 _ _ fun _ h' => h (by rw [h']; rfl)

namespace RegexLibrary

variable {l : RegexLibrary}

/-- What a pattern and the anchor behind it become begins with no star. -/
lemma IsFaithful.head?_sources (h : l.IsFaithful) (pattern : List Char) :
    (pattern.flatMap l.sourceOf ++ ['$']).head? ≠ some '*' := by
  cases pattern with
  | nil => exact fun hstar => by cases hstar
  | cons p pattern =>
      obtain ⟨c, cs, hsource, hc⟩ : ∃ c cs, l.sourceOf p = c :: cs ∧ c ≠ '*' := by
        rw [sourceOf, h.escape]
        split_ifs with hrun hany hmark
        · exact ⟨_, _, rfl, by decide⟩
        · exact ⟨_, _, rfl, by decide⟩
        · exact ⟨_, _, rfl, by decide⟩
        · exact ⟨_, _, rfl, fun hstar => hmark (hstar ▸ by decide)⟩
      simpa [hsource] using hc

/-- **What a pattern becomes is read as the parts that its characters are.** -/
lemma IsFaithful.readParts?_sources (h : l.IsFaithful) (pattern : List Char) :
    readParts? true (pattern.flatMap l.sourceOf ++ ['$']) =
      some (pattern.map regexPart ++ [.textEnd]) := by
  induction pattern with
  | nil => rfl
  | cons p pattern ih =>
      rw [List.flatMap_cons, List.append_assoc, List.map_cons, sourceOf, regexPart]
      split
      · show (readParts? true (pattern.flatMap l.sourceOf ++ ['$'])).map _ = _
        rw [ih]
        rfl
      · split
        · show readParts? true ('.' :: (pattern.flatMap l.sourceOf ++ ['$'])) = _
          rw [readParts?_any (h.head?_sources pattern), ih]
          rfl
        · rw [h.escape]
          split
          · rename_i hmark
            show (if p ∈ regexMarks then
              (readParts? true (pattern.flatMap l.sourceOf ++ ['$'])).map _ else none) = _
            rw [if_pos hmark, ih]
            rfl
          · rename_i hmark
            show readParts? true (p :: (pattern.flatMap l.sourceOf ++ ['$'])) = _
            rw [readParts?_char hmark, ih]
            rfl

end RegexLibrary

/-- **What the characters of a pattern are matches the rest of a text exactly if that splits along
the pattern.** -/
theorem matchesAt_parts {pattern before behind : List Char} :
    MatchesAt (pattern.map regexPart ++ [.textEnd]) before behind ↔ SplitsAlong pattern behind := by
  induction pattern generalizing before behind with
  | nil => simp [MatchesAt, splitsAlong_nil]
  | cons p pattern ih =>
      rw [splitsAlong_cons, List.map_cons, List.cons_append, regexPart]
      by_cases hrun : p = '%'
      · simp [hrun, MatchesAt, StandsFor, ih, and_comm]
      · by_cases hany : p = '_'
        · simp [hany, MatchesAt, StandsFor, ih, and_comm]
        · simp [hrun, hany, MatchesAt, StandsFor, ih, and_comm]

namespace RegexLibrary

variable {l : RegexLibrary}

/-- **A faithful library finds the regular expression of a pattern in the texts that split along the
pattern**, and in no others. -/
theorem IsFaithful.search_pattern (h : l.IsFaithful) (pattern : List Char) :
    ∃ search, l.search? (l.patternSource pattern) = some search ∧
      ∀ s, search s = true ↔ SplitsAlong pattern s := by
  have hread : readRegex? (l.patternSource pattern) =
      some (.textStart :: (pattern.map regexPart ++ [.textEnd])) := by
    have hparts : readParts? true ('^' :: (pattern.flatMap l.sourceOf ++ ['$'])) =
        some (.textStart :: (pattern.map regexPart ++ [.textEnd])) := by
      rw [readParts?, h.readParts?_sources]
      rfl
    exact hparts
  obtain ⟨search, hsearch, hfinds⟩ := h.search hread
  refine ⟨search, hsearch, fun s => (hfinds s).trans ?_⟩
  constructor
  -- the first anchor keeps the search from starting within the text
  · rintro ⟨before, behind, rfl, hbefore, hmatch⟩
    rw [hbefore]
    exact matchesAt_parts.1 hmatch
  · exact fun hs => ⟨[], s, rfl, rfl, matchesAt_parts.2 hs⟩

/-- Whether some parts match at a place of a text: of a run, all lengths are tried. -/
def matchesAt : List RegexPart → List Char → List Char → Bool
  | [], _, _ => true
  | .textStart :: parts, before, behind => before.isEmpty && matchesAt parts before behind
  | .textEnd :: parts, before, behind => behind.isEmpty && matchesAt parts before behind
  | .char c :: parts, before, behind =>
    match behind with
    | [] => false
    | d :: rest => d == c && matchesAt parts (before ++ [c]) rest
  | .any lineBreaks :: parts, before, behind =>
    match behind with
    | [] => false
    | c :: rest => (lineBreaks || c != '\n') && matchesAt parts (before ++ [c]) rest
  | .run lineBreaks :: parts, before, behind =>
    (List.range (behind.length + 1)).any fun n =>
      (lineBreaks || decide ('\n' ∉ behind.take n)) &&
        matchesAt parts (before ++ behind.take n) (behind.drop n)

/-- A library that knows no other regular expressions, and tries all places of a text. -/
def plain : RegexLibrary where
  escape c := if c ∈ regexMarks then ['\\', c] else [c]
  search? source := (readRegex? source).map fun parts s =>
    (List.range (s.length + 1)).any fun n => matchesAt parts (s.take n) (s.drop n)

/-- Whatever a list is split into is found by its length. -/
lemma exists_split {s : List Char} {P : List Char → List Char → Prop} :
    (∃ n ∈ List.range (s.length + 1), P (s.take n) (s.drop n)) ↔
      ∃ front back, s = front ++ back ∧ P front back := by
  constructor
  · rintro ⟨n, -, h⟩
    exact ⟨_, _, (List.take_append_drop n s).symm, h⟩
  · rintro ⟨front, back, rfl, h⟩
    have hlength : front.length < (front ++ back).length + 1 := by
      rw [List.length_append]
      omega
    exact ⟨front.length, List.mem_range.2 hlength, by simpa using h⟩

lemma matchesAt_iff {parts : List RegexPart} {before behind : List Char} :
    matchesAt parts before behind = true ↔ MatchesAt parts before behind := by
  induction parts generalizing before behind with
  | nil => simp [matchesAt, MatchesAt]
  | cons part parts ih =>
      cases part with
      | textStart => simp [matchesAt, MatchesAt, ih]
      | textEnd => simp [matchesAt, MatchesAt, ih]
      | char c => cases behind <;> simp [matchesAt, MatchesAt, ih]
      | any lineBreaks => cases behind <;> simp [matchesAt, MatchesAt, ih]
      | run lineBreaks =>
          simp only [matchesAt, List.any_eq_true, Bool.and_eq_true, Bool.or_eq_true,
            decide_eq_true_eq, ih]
          exact exists_split (P := fun part rest => (lineBreaks = true ∨ '\n' ∉ part) ∧
            MatchesAt parts (before ++ part) rest)

lemma isFaithful_plain : plain.IsFaithful where
  escape _ := rfl
  search {_ parts} hread := by
    refine ⟨_, congrArg (Option.map _) hread, fun s => ?_⟩
    simp only [List.any_eq_true, matchesAt_iff]
    exact exists_split

end RegexLibrary

/-! ## The value of `LIKE` -/

/-- **`LIKE` is true of the texts that split along a pattern, and false of all others.**  A library
of regular expressions finds the same by the regular expression of the pattern. -/
theorem like_splits {l : RegexLibrary} (hl : l.IsFaithful) {env : Environment} {scope : Scope}
    {e pattern : Expression} {s p : String} (he : e.eval env scope = .ok (some (.string s)))
    (hpattern : pattern.eval env scope = .ok (some (.string p))) :
    ∃ found search,
      (Expression.like e pattern).eval env scope = .ok (some (.bool found)) ∧
      (found = true ↔ SplitsAlong p.toList s.toList) ∧
      l.search? (l.patternSource p.toList) = some search ∧ search s.toList = found := by
  obtain ⟨search, hsearch, hfinds⟩ := hl.search_pattern p.toList
  refine ⟨matchesPattern p.toList s.toList, search, ?_, matchesPattern_iff, hsearch, ?_⟩
  · rw [Expression.eval, he, hpattern]
    rfl
  · rw [Bool.eq_iff_iff, hfinds, matchesPattern_iff]

namespace Sample

/-- The parameters of a test by `LIKE`. -/
def likeParameters (s p : String) : Environment :=
  ⟨.empty, [("text", .string s), ("pattern", .string p)]⟩

end Sample

/-- Marks stand for themselves, and a part may have line breaks. -/
theorem like_splits_lines : ∃ search,
    (Expression.like (.placeholder "text") (.placeholder "pattern")).eval
      (Sample.likeParameters "(1+1)*2\n= \u00e94." "(1+1)%= _4.") (.ofRow .empty) =
        .ok (some (.bool true)) ∧
    SplitsAlong "(1+1)%= _4.".toList "(1+1)*2\n= \u00e94.".toList ∧
    RegexLibrary.plain.search? (RegexLibrary.plain.patternSource "(1+1)%= _4.".toList) =
      some search ∧
    search "(1+1)*2\n= \u00e94.".toList = true := by
  obtain ⟨found, search, hfound, hsplits, hsearch, hsame⟩ :=
    @like_splits _ RegexLibrary.isFaithful_plain
      (Sample.likeParameters "(1+1)*2\n= \u00e94." "(1+1)%= _4.") (.ofRow .empty)
      (.placeholder "text") (.placeholder "pattern") _ _ rfl rfl
  have htrue : (Expression.like (.placeholder "text") (.placeholder "pattern")).eval
      (Sample.likeParameters "(1+1)*2\n= \u00e94." "(1+1)%= _4.") (.ofRow .empty) =
        .ok (some (.bool true)) := rfl
  rw [htrue] at hfound
  cases hfound
  exact ⟨search, htrue, hsplits.1 rfl, hsearch, hsame⟩

end EntityQuery
