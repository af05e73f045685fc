import Mathlib
import EntityQuery.Proofs.Document.Text
import EntityQuery.Proofs.Evaluation.Ordering

/-!
# Groups of rows

Rows are grouped by the text of their keys, one after the other behind a control character, with a
control character in front of the mark for a missing key.  No document is written with a control
character, so the text tells the keys apart.  A row joins the group of its text, or opens one behind
the others.

* `groupKey_eq_iff`: what two rows of one group have in common.
* `PartitionedBy`: groups of the positions of some rows.
* `foldl_addToGroup`: the groups after a number of rows, by their positions.
* `groups_partition`: the groups of a selection are a partition of its rows, and so are counted.
-/

namespace EntityQuery

/-! ## Keys

The key of a group is one text for several values.  It can be taken apart again because the
separator and the mark for a missing value hold a control character, and no text of a document does.
-/

/-- Two values of a key are written alike: both are missing, or both are present with one text. -/
def Datum.Alike (a b : Datum) : Prop := a.map Document.text = b.map Document.text

/-- The separator of keys occurs in none of them. -/
lemma separator_not_mem_keyText (d : Datum) : '\x01' ∉ (keyText d).toList := by
  cases d with
  | none => decide
  | some d => exact fun hmem => Bool.noConfusion (d.consists_text _ hmem)

/-- The text of a key tells whether it is missing, and what it is otherwise. -/
lemma keyText_eq_iff {a b : Datum} : keyText a = keyText b ↔ a.Alike b := by
  have hmark : '\x00' ∈ (keyText none).toList := by decide
  have hshown : ∀ d : Document, '\x00' ∉ (keyText (some d)).toList := fun d hmem =>
    Bool.noConfusion (d.consists_text _ hmem)
  cases a with
  | none =>
      cases b with
      | none => exact iff_of_true rfl rfl
      | some b => exact iff_of_false (fun h => hshown b (h ▸ hmark)) fun h => nomatch h
  | some a =>
      cases b with
      | none => exact iff_of_false (fun h => hshown a (h ▸ hmark)) fun h => nomatch h
      | some b => exact Option.some_inj.symm

/-- Texts without the separator are told apart by what they are joined to. -/
lemma toList_groupKey (keys : List Datum) :
    (groupKey keys).toList = ['\x01'].intercalate (keys.map fun d => (keyText d).toList) := by
  rw [groupKey, String.toList_intercalate, List.map_map]
  rfl

/-- **Rows have one text if their keys are alike, one by one.** -/
theorem groupKey_eq_iff {keys keys' : List Datum} (hlength : keys.length = keys'.length) :
    groupKey keys = groupKey keys' ↔ List.Forall₂ Datum.Alike keys keys' := by
  have hkeys : groupKey keys = groupKey keys' ↔ keys.map keyText = keys'.map keyText := by
    refine ⟨fun h => ?_, fun h => by rw [groupKey, groupKey, h]⟩
    cases keys with
    | nil => rw [List.length_eq_zero_iff.1 hlength.symm]
    | cons key keys =>
        cases keys' with
        | nil => cases hlength
        | cons key' keys' =>
            -- what is joined is split again where the separators are
            have hsplit : ∀ key keys, List.splitOn '\x01' (groupKey (key :: keys)).toList =
                (key :: keys).map fun d => (keyText d).toList := by
              intro key keys
              rw [toList_groupKey]
              refine List.splitOn_intercalate _ (fun l hl => ?_) (List.cons_ne_nil _ _)
              obtain ⟨d, -, rfl⟩ := List.mem_map.1 hl
              exact separator_not_mem_keyText d
            have htexts := hsplit key keys
            rw [h, hsplit key' keys'] at htexts
            refine List.map_injective_iff.2 (fun _ _ => String.toList_inj.1) ?_
            rw [List.map_map, List.map_map]
            exact htexts.symm
  rw [hkeys, ← List.forall₂_eq_eq_eq, List.forall₂_map_left_iff, List.forall₂_map_right_iff]
  simp only [keyText_eq_iff]

/-! ## Groups by positions

Two rows may be equal, so that a partition of rows is one of their positions.  For any key on
positions the candidate is written down at once: the positions that share the key of a first one. -/

/-- Groups of the positions below a number, of which those that agree are together. -/
structure PartitionedBy (agree : Nat → Nat → Prop) (n : Nat) (groups : List (List Nat)) : Prop where
  /-- No group is empty. -/
  nonempty : ∀ g ∈ groups, g ≠ []
  /-- Each position is in a group, and in one place only. -/
  perm : groups.flatten.Perm (List.range n)
  /-- The positions of a group are in order. -/
  ascending : ∀ g ∈ groups, g.Pairwise (· < ·)
  /-- The groups are in the order of their first positions. -/
  firsts : (groups.filterMap List.head?).Pairwise (· < ·)
  /-- Positions are together exactly if they agree. -/
  together : ∀ i < n, ∀ j < n, (∃ g ∈ groups, i ∈ g ∧ j ∈ g) ↔ agree i j

/-- The scope of the rows at some positions. -/
def Scope.ofPositions (rows : List Row) (positions : List Nat) : Scope :=
  let members := positions.filterMap (rows[·]?)
  ⟨members.head?.getD .empty, some members⟩

section Positions

variable (key : Nat → String)

/-- The positions below `n` with the key of position `i`. -/
def sameKey (n i : Nat) : List Nat := (List.range n).filter fun j => key j = key i

/-- The positions below `n` that no earlier one has the key of. -/
def newKeys (n : Nat) : List Nat := (List.range n).filter fun i => decide (∀ j < i, key j ≠ key i)

variable {key} {n i j : Nat}

lemma mem_sameKey : j ∈ sameKey key n i ↔ j < n ∧ key j = key i := by
  simp [sameKey]

lemma mem_newKeys : i ∈ newKeys key n ↔ i < n ∧ ∀ j < i, key j ≠ key i := by
  simp [newKeys]

/-- Each key has a first position. -/
lemma exists_mem_newKeys (h : j < n) : ∃ i ∈ newKeys key n, i ≤ j ∧ key i = key j := by
  have hexists : ∃ i, key i = key j := ⟨j, rfl⟩
  classical
  refine ⟨Nat.find hexists, mem_newKeys.2 ⟨?_, fun k hk => ?_⟩, Nat.find_min' hexists rfl,
    Nat.find_spec hexists⟩
  · exact Nat.lt_of_le_of_lt (Nat.find_min' hexists rfl) h
  · rw [Nat.find_spec hexists]
    exact Nat.find_min hexists hk

/-- A key has one first position. -/
lemma eq_of_mem_newKeys (hi : i ∈ newKeys key n) (hj : j ∈ newKeys key n) (h : key i = key j) :
    i = j := by
  rw [mem_newKeys] at hi hj
  rcases Nat.lt_trichotomy i j with hlt | heq | hlt
  · exact absurd h (hj.2 i hlt)
  · exact heq
  · exact absurd h.symm (hi.2 j hlt)

/-- The first position of a key is the first of those that have it. -/
lemma head?_sameKey (hi : i ∈ newKeys key n) : (sameKey key n i).head? = some i := by
  obtain ⟨hlt, hnew⟩ := mem_newKeys.1 hi
  have hmem : i ∈ sameKey key n i := mem_sameKey.2 ⟨hlt, rfl⟩
  have hascending : (sameKey key n i).Pairwise (· < ·) := List.pairwise_lt_range.filter _
  have hsame : ∀ j ∈ sameKey key n i, key j = key i := fun j hj => (mem_sameKey.1 hj).2
  cases hgroup : sameKey key n i with
  | nil =>
      rw [hgroup] at hmem
      cases hmem
  | cons j js =>
      rw [hgroup] at hmem hascending hsame
      rcases List.mem_cons.1 hmem with rfl | hi
      · rfl
      · have hji := (List.pairwise_cons.1 hascending).1 i hi
        exact absurd (hsame j List.mem_cons_self) (hnew j hji)

/-- **The positions with one key, from the first of them on, are a partition.** -/
theorem partitionedBy_sameKey :
    PartitionedBy (fun i j => key i = key j) n ((newKeys key n).map (sameKey key n)) where
  nonempty g hg := by
    obtain ⟨i, hi, rfl⟩ := List.mem_map.1 hg
    exact List.ne_nil_of_mem (mem_sameKey.2 ⟨(mem_newKeys.1 hi).1, rfl⟩)
  perm := by
    have hnodup : ((newKeys key n).map (sameKey key n)).flatten.Nodup := by
      refine List.nodup_flatten.2 ⟨fun g hg => ?_, ?_⟩
      · obtain ⟨i, -, rfl⟩ := List.mem_map.1 hg
        exact List.nodup_range.filter _
      · have hdifferent : (newKeys key n).Nodup := List.nodup_range.filter _
        refine List.pairwise_map.2 (hdifferent.imp_of_mem fun hi hj hne k hki hkj => hne ?_)
        exact eq_of_mem_newKeys hi hj ((mem_sameKey.1 hki).2.symm.trans (mem_sameKey.1 hkj).2)
    refine (List.perm_ext_iff_of_nodup hnodup List.nodup_range).2 fun j => ?_
    rw [List.mem_flatten, List.mem_range]
    constructor
    · rintro ⟨g, hg, hj⟩
      obtain ⟨i, -, rfl⟩ := List.mem_map.1 hg
      exact (mem_sameKey.1 hj).1
    · intro hj
      obtain ⟨i, hi, -, hkey⟩ := exists_mem_newKeys hj
      exact ⟨_, List.mem_map_of_mem hi, mem_sameKey.2 ⟨hj, hkey.symm⟩⟩
  ascending g hg := by
    obtain ⟨i, -, rfl⟩ := List.mem_map.1 hg
    exact List.pairwise_lt_range.filter _
  firsts := by
    have hheads : ((newKeys key n).map (sameKey key n)).filterMap List.head? = newKeys key n := by
      rw [List.filterMap_map]
      exact (List.filterMap_congr fun i hi => head?_sameKey hi).trans List.filterMap_some
    rw [hheads]
    exact List.pairwise_lt_range.filter _
  together i hi j hj := by
    constructor
    · rintro ⟨g, hg, hig, hjg⟩
      obtain ⟨k, -, rfl⟩ := List.mem_map.1 hg
      exact (mem_sameKey.1 hig).2.trans (mem_sameKey.1 hjg).2.symm
    · intro hkey
      obtain ⟨k, hk, -, hki⟩ := exists_mem_newKeys hi
      exact ⟨_, List.mem_map_of_mem hk, mem_sameKey.2 ⟨hi, hki.symm⟩,
        mem_sameKey.2 ⟨hj, (hki.trans hkey).symm⟩⟩

/-- With one more position, a key is new if it has not occurred. -/
lemma newKeys_succ : newKeys key (n + 1) =
    newKeys key n ++ if ∀ j < n, key j ≠ key n then [n] else [] := by
  rw [newKeys, List.range_succ, List.filter_append, List.filter_singleton, Bool.cond_decide]
  rfl

/-- With one more position, the positions of its key are one more. -/
lemma sameKey_succ : sameKey key (n + 1) i =
    sameKey key n i ++ if key n = key i then [n] else [] := by
  rw [sameKey, List.range_succ, List.filter_append, List.filter_singleton, Bool.cond_decide]
  rfl

end Positions

/-! ## Building groups

Groups are built row by row, each in the order opposite to that of its rows.  The induction is on
the number of rows that have been added; with one more, either a group is opened or one becomes
longer, as it is with the partition. -/

/-- A row with a new key opens a group behind the others. -/
lemma addToGroup_of_ne {key : String} {row : Row} {gs : List KeyedGroup}
    (h : ∀ g ∈ gs, g.1 ≠ key) : addToGroup key row gs = gs ++ [(key, [row])] := by
  induction gs with
  | nil => rfl
  | cons g gs ih =>
      rw [addToGroup, if_neg (h g List.mem_cons_self), ih fun g' hg' => h g' (.tail _ hg')]
      rfl

/-- A row joins the one group of its key. -/
lemma addToGroup_of_mem {key : String} {row : Row} {gs : List KeyedGroup}
    (hdifferent : (gs.map Prod.fst).Nodup) (h : key ∈ gs.map Prod.fst) :
    addToGroup key row gs = gs.map fun g => if g.1 = key then (g.1, row :: g.2) else g := by
  induction gs with
  | nil => cases h
  | cons g gs ih =>
      obtain ⟨hnew, hdifferent⟩ := List.nodup_cons.1 hdifferent
      rw [addToGroup, List.map_cons]
      by_cases hkey : g.1 = key
      · have hothers : ∀ g' ∈ gs, g'.1 ≠ key := fun g' hg' heq =>
          hnew (hkey ▸ heq ▸ List.mem_map_of_mem hg')
        rw [if_pos hkey, if_pos hkey]
        congr 1
        exact (List.map_id _).symm.trans
          (List.map_congr_left fun g' hg' => (if_neg (hothers g' hg')).symm)
      · have hmem : key ∈ gs.map Prod.fst :=
          (List.mem_cons.1 h).resolve_left fun heq => hkey heq.symm
        rw [if_neg hkey, if_neg hkey, ih hdifferent hmem]

/-- **The groups after a number of rows**: in the order of their first rows, each with the rows of
its key, the latest first. -/
theorem foldl_addToGroup (key : Nat → String) (row : Nat → Row) (n : Nat) :
    ((List.range n).map fun i => (key i, row i)).foldl
        (fun groups keyed => addToGroup keyed.1 keyed.2 groups) [] =
      (newKeys key n).map fun i => (key i, ((sameKey key n i).map row).reverse) := by
  induction n with
  | zero => rfl
  | succ n ih =>
      have hkeys : ((newKeys key n).map fun i =>
          (key i, ((sameKey key n i).map row).reverse)).map Prod.fst = (newKeys key n).map key := by
        rw [List.map_map]
        rfl
      rw [List.range_succ, List.map_append, List.foldl_append, ih, newKeys_succ]
      change addToGroup (key n) (row n) _ = _
      by_cases hnew : ∀ j < n, key j ≠ key n
      · -- none of the groups has the key
        have hothers : ∀ i ∈ newKeys key n, key i ≠ key n := fun i hi => hnew i (mem_newKeys.1 hi).1
        have hself : sameKey key (n + 1) n = [n] := by
          rw [sameKey_succ, if_pos rfl, List.append_left_eq_self]
          exact List.filter_eq_nil_iff.2 fun j hj heq =>
            hnew j (List.mem_range.1 hj) (of_decide_eq_true heq)
        rw [addToGroup_of_ne fun g hg => ?_, if_pos hnew, List.map_append]
        · refine congrArg₂ (· ++ ·) (List.map_congr_left fun i hi => ?_) ?_
          · rw [sameKey_succ, if_neg (hothers i hi).symm, List.append_nil]
          · rw [List.map_singleton, hself]
            rfl
        · obtain ⟨i, hi, rfl⟩ := List.mem_map.1 hg
          exact hothers i hi
      · -- one of the groups has the key
        have hmem : key n ∈ (newKeys key n).map key := by
          obtain ⟨j, hj, hkey⟩ : ∃ j < n, key j = key n := by simpa using hnew
          obtain ⟨i, hi, -, hij⟩ : ∃ i ∈ newKeys key n, i ≤ j ∧ key i = key j := exists_mem_newKeys hj
          rw [← hkey, ← hij]
          exact List.mem_map_of_mem hi
        have hdifferent : ((newKeys key n).map key).Nodup :=
          List.Nodup.map_on (fun i hi j hj => eq_of_mem_newKeys hi hj) (List.nodup_range.filter _)
        rw [addToGroup_of_mem (hkeys ▸ hdifferent) (hkeys ▸ hmem), if_neg hnew, List.append_nil,
          List.map_map]
        refine List.map_congr_left fun i _ => ?_
        rw [Function.comp_apply, sameKey_succ]
        by_cases hkey : key i = key n
        · rw [if_pos hkey, if_pos hkey.symm, List.map_append, List.reverse_append]
          rfl
        · rw [if_neg hkey, if_neg fun heq => hkey heq.symm, List.append_nil]

/-- **The groups of keyed rows**, by the positions of the rows. -/
theorem groupsOf_eq (key : Nat → String) (rows : List Row) :
    groupsOf ((List.range rows.length).map fun i => (key i, rows[i]?.getD .empty)) =
      ((newKeys key rows.length).map (sameKey key rows.length)).map (Scope.ofPositions rows) := by
  have hmembers : ∀ i, (sameKey key rows.length i).filterMap (rows[·]?) =
      (sameKey key rows.length i).map fun j => rows[j]?.getD .empty := by
    intro i
    rw [← List.filterMap_eq_map]
    refine List.filterMap_congr fun j hj => ?_
    rw [Function.comp_apply, List.getElem?_eq_getElem (mem_sameKey.1 hj).1]
    rfl
  rw [groupsOf, foldl_addToGroup, List.map_map, List.map_map]
  refine List.map_congr_left fun i _ => ?_
  simp only [Function.comp_apply, scopeOfGroup, Scope.ofPositions, hmembers,
    List.getLast?_reverse, List.reverse_reverse]

/-! ## The groups of a selection

The key of a position is now the text of the keys on its row.  What has been said of positions
becomes a statement on rows, since positions with one text are those whose rows agree on the keys.
-/

/-- Two rows agree on the keys of a selection: their keys have values that are alike, one by one. -/
def Clauses.KeysAgree (env : Environment) (c : Clauses) (row row' : Row) : Prop :=
  ∃ keys keys', evalList env c.groupBy (.ofRow row) = .ok keys ∧
    evalList env c.groupBy (.ofRow row') = .ok keys' ∧ List.Forall₂ Datum.Alike keys keys'

/-- The text that tells the group of a row. -/
def Clauses.keyOf (env : Environment) (c : Clauses) (row : Row) : String :=
  groupKey ((evalList env c.groupBy (.ofRow row)).toOption.getD [])

lemma Clauses.keyOf_of_eq_ok {env : Environment} {c : Clauses} {row : Row} {keys : List Datum}
    (h : evalList env c.groupBy (.ofRow row) = .ok keys) : c.keyOf env row = groupKey keys := by
  rw [keyOf, h]
  rfl

/-- Rows that have keys are in one group exactly if they agree on them. -/
lemma Clauses.keyOf_eq_iff {env : Environment} {c : Clauses} {row row' : Row} {keys keys' : List Datum}
    (h : evalList env c.groupBy (.ofRow row) = .ok keys)
    (h' : evalList env c.groupBy (.ofRow row') = .ok keys') :
    c.keyOf env row = c.keyOf env row' ↔ c.KeysAgree env row row' := by
  have hlength : keys.length = keys'.length :=
    (evalList_eq_ok.1 h).length_eq.symm.trans (evalList_eq_ok.1 h').length_eq
  rw [keyOf_of_eq_ok h, keyOf_of_eq_ok h', groupKey_eq_iff hlength]
  constructor
  · exact fun halike => ⟨keys, keys', h, h', halike⟩
  · rintro ⟨_, _, h₁, h₁', halike⟩
    cases h.symm.trans h₁
    cases h'.symm.trans h₁'
    exact halike

/-- The groups of a selection whose keys have values. -/
lemma Clauses.scopes_eq_groupsOf {env : Environment} {c : Clauses} {rows : List Row}
    (hgroup : c.groupBy ≠ [])
    (hkeys : ∀ row ∈ rows, ∃ keys, evalList env c.groupBy (.ofRow row) = .ok keys) :
    c.scopes env rows = .ok (groupsOf (rows.map fun row => (c.keyOf env row, row))) := by
  have hempty : c.groupBy.isEmpty = false := List.isEmpty_eq_false_iff.2 hgroup
  have haggregating : c.isAggregating = true := by
    rw [isAggregating, hempty]
    rfl
  have hkeyed : (rows.mapM fun row => do
      let keys ← evalList env c.groupBy (.ofRow row)
      .ok (groupKey keys, row)) = .ok (rows.map fun row => (c.keyOf env row, row)) := by
    refine Computation.mapM_eq_ok.2 (List.forall₂_map_right_iff.2 (List.forall₂_same.2 ?_))
    intro row hrow
    obtain ⟨keys, h⟩ := hkeys row hrow
    exact Computation.bind_eq_ok.2 ⟨keys, h, by rw [keyOf_of_eq_ok h]⟩
  rw [scopes, haggregating, hempty]
  exact Computation.bind_of_eq_ok hkeyed

/-- A group counts its rows. -/
lemma eval_countRows_ofPositions {env : Environment} {rows : List Row} {g : List Nat}
    (h : ∀ i ∈ g, i < rows.length) :
    Expression.countRows.eval env (Scope.ofPositions rows g) = .ok (some (.ofInt g.length)) := by
  have hlength : (g.filterMap (rows[·]?)).length = g.length :=
    List.filterMap_length_eq_length.2 fun i hi => by
      rw [List.getElem?_eq_getElem (h i hi)]
      rfl
  have hcount : Expression.countRows.eval env (Scope.ofPositions rows g) =
      .ok (some (.ofInt (g.filterMap (rows[·]?)).length)) := by
    rw [Expression.countRows, Expression.eval, Scope.ofPositions]
  rw [hcount, hlength]

/-- **Grouping is a partition.**  If a selection has keys to group by, and these have values on each
of its rows, then its groups are those of the positions of the rows: none is empty, each row is in
one group and occurs there once, groups list their rows in order, and appear in the order of their
first rows.  Two rows are in one group exactly if their keys are alike.  So the groups count as many
rows as there are. -/
theorem groups_partition {env : Environment} {c : Clauses} {rows : List Row} (hgroup : c.groupBy ≠ [])
    (hkeys : ∀ row ∈ rows, ∃ keys, evalList env c.groupBy (.ofRow row) = .ok keys) :
    ∃ groups, c.scopes env rows = .ok (groups.map (Scope.ofPositions rows)) ∧
      PartitionedBy (fun i j => ∃ row row', rows[i]? = some row ∧ rows[j]? = some row' ∧
        c.KeysAgree env row row') rows.length groups ∧
      (groups.map (Scope.ofPositions rows)).mapM (Expression.countRows.eval env) =
        .ok (groups.map fun g => some (.ofInt g.length)) ∧
      (groups.map List.length).sum = rows.length := by
  obtain ⟨key, hkey⟩ : ∃ key : Nat → String, key = fun i => c.keyOf env (rows[i]?.getD .empty) :=
    ⟨_, rfl⟩
  have hkeyed : (rows.map fun row => (c.keyOf env row, row)) =
      (List.range rows.length).map fun i => (key i, rows[i]?.getD .empty) := by
    refine List.ext_getElem (by simp) fun i hi hi' => ?_
    rw [List.length_map] at hi
    simp [hkey, hi]
  obtain ⟨hnonempty, hperm, hascending, hfirsts, htogether⟩ :
      PartitionedBy (fun i j => key i = key j) rows.length _ := partitionedBy_sameKey
  have hagree : ∀ i < rows.length, ∀ j < rows.length, key i = key j ↔
      ∃ row row', rows[i]? = some row ∧ rows[j]? = some row' ∧ c.KeysAgree env row row' := by
    intro i hi j hj
    obtain ⟨keys, h⟩ := hkeys _ (List.getElem_mem hi)
    obtain ⟨keys', h'⟩ := hkeys _ (List.getElem_mem hj)
    simp only [hkey, List.getElem?_eq_getElem hi, List.getElem?_eq_getElem hj, Option.getD_some,
      Option.some.injEq, exists_and_left, exists_eq_left']
    exact c.keyOf_eq_iff h h'
  have hsum := hperm.length_eq
  rw [List.length_flatten, List.length_range] at hsum
  refine ⟨(newKeys key rows.length).map (sameKey key rows.length), ?_,
    ⟨hnonempty, hperm, hascending, hfirsts, fun i hi j hj => ?_⟩, ?_, hsum⟩
  · rw [c.scopes_eq_groupsOf hgroup hkeys, hkeyed, groupsOf_eq]
  · rw [htogether i hi j hj, hagree i hi j hj]
  · refine Computation.mapM_eq_ok.2 ?_
    rw [List.forall₂_map_left_iff, List.forall₂_map_right_iff, List.forall₂_same]
    intro g hg
    obtain ⟨i, -, rfl⟩ := List.mem_map.1 hg
    exact eval_countRows_ofPositions fun j hj => (mem_sameKey.1 hj).1

namespace Sample

/-- The rows of a collection are counted by a field. -/
def countedByField : Clauses where
  groupBy := [.field (.ident "d") "k"]
  selection := .raw .countRows

/-- A row whose key is the mark for a missing one, as a text, and two rows without a key. -/
def markedRows : List Row :=
  [.single "d" (.object [("k", .string "\x00missing")]), .single "d" (.object []),
    .single "d" (.object [])]

end Sample

/-- A row whose key is written like the mark for a missing one is not among those without a key. -/
theorem groups_partition_marked : ∃ groups : List (List Nat),
    Sample.countedByField.scopes ⟨⟨[]⟩, []⟩ Sample.markedRows =
      .ok (groups.map (Scope.ofPositions Sample.markedRows)) ∧
    (groups.map fun g => some (Document.ofInt g.length)) = [some (.ofInt 1), some (.ofInt 2)] ∧
    (groups.map List.length).sum = 3 := by
  have hkeys : ∀ row ∈ Sample.markedRows, ∃ keys,
      evalList ⟨⟨[]⟩, []⟩ Sample.countedByField.groupBy (.ofRow row) = .ok keys := by
    intro row hrow
    simp only [Sample.markedRows, List.mem_cons, List.not_mem_nil, or_false] at hrow
    rcases hrow with rfl | rfl | rfl <;> exact ⟨_, rfl⟩
  obtain ⟨groups, hscopes, -, hcounts, hsum⟩ := groups_partition (List.cons_ne_nil _ _) hkeys
  have hcounted : (Sample.countedByField.scopes ⟨⟨[]⟩, []⟩ Sample.markedRows >>= fun scopes =>
      scopes.mapM (Expression.countRows.eval ⟨⟨[]⟩, []⟩)) =
        .ok [some (.ofInt 1), some (.ofInt 2)] := rfl
  rw [hscopes] at hcounted
  exact ⟨groups, hscopes, Except.ok.inj (hcounts.symm.trans hcounted), hsum⟩

end EntityQuery
