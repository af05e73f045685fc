import EntityQuery.Proofs.Plan.Embedding
import EntityQuery.Proofs.Translation.Comments

/-!
# Parameter tables under any calls

The placeholders of constants and the parameters that an application names share the names of one
table.  What keeps them apart is only a test of the names: a parameter must be an identifier, and
must not read like `p` before digits.  Here a table is not filled by a translation, which numbers
its slots one after the other, but by any sequence of calls.

* `ParameterTable.Call`, `ParameterTable.call` and `ParameterTable.after`: the ways in which a table
  is changed, one after the other.
* `ParameterTable.grows_call`: all that a call can do.
* `ParameterTable.bindNamed_eq_error_iff`: when a parameter is refused.
* `ParameterTable.IsApart`: no two entries share a name, and each has a name of its own kind.
* `ParameterTable.kept_apart`: what holds of a table after any calls.
-/

namespace EntityQuery

/-- The name of an entry is one that its origin can have. -/
def ParameterEntry.HasOwnName (e : ParameterEntry) : Prop :=
  match e.origin with
  | .constant slot => e.name = slotName slot
  | .named => isIdentifier e.name = true ∧ isSlotName e.name = false

/-- What an entry binds.  Whether it is a number of rows is left out, since that is found later. -/
def ParameterEntry.binding (e : ParameterEntry) : String × ScalarType × ParameterOrigin :=
  (e.name, e.scalarType, e.origin)

/-- An entry has the name of a slot exactly if it is that of the constant there. -/
lemma ParameterEntry.HasOwnName.eq_slotName_iff {e : ParameterEntry} (h : e.HasOwnName)
    (slot : Nat) : e.name = slotName slot ↔ e.origin = .constant slot := by
  rw [HasOwnName] at h
  cases horigin : e.origin with
  | constant k =>
      simp only [horigin] at h
      rw [h, slotName_inj, ParameterOrigin.constant.injEq]
  | named =>
      simp only [horigin] at h
      have hne : e.name ≠ slotName slot := by
        intro hname
        rw [hname, isSlotName_slotName] at h
        exact absurd h.2 (by decide)
      simp [hne]

namespace ParameterTable

/-- A call that changes a table. -/
inductive Call where
  | bindSlot (slot : Nat) (scalarType : ScalarType)
  | bindNamed (name : String) (scalarType : ScalarType)
  | markRowCount (name : String)
deriving DecidableEq, Repr

/-- The table that a call leaves.  A parameter that is refused leaves the table that there was. -/
def call (t : ParameterTable) : Call → ParameterTable
  | .bindSlot slot scalarType => (t.bindSlot slot scalarType).1
  | .bindNamed name scalarType =>
    match t.bindNamed name scalarType with
    | .ok (t', _) => t'
    | .error _ => t
  | .markRowCount name => t.markRowCount name

/-- The table after some calls. -/
def after (t : ParameterTable) (calls : List Call) : ParameterTable := calls.foldl call t

/-- What the entries bind, in order. -/
def bindings (t : ParameterTable) : List (String × ScalarType × ParameterOrigin) :=
  t.entries.map ParameterEntry.binding

/-- The names are different, and none has the form of those of the other origin. -/
structure IsApart (t : ParameterTable) : Prop where
  nodup : t.names.Nodup
  own : ∀ e ∈ t.entries, e.HasOwnName

/-- Why a parameter is refused: its name is not one for parameters, or has another type already. -/
inductive Refuses (t : ParameterTable) (name : String) (scalarType : ScalarType) :
    ParameterError → Prop
  | invalid (h : isIdentifier name = false ∨ isSlotName name = true) :
      Refuses t name scalarType (.invalidName name)
  | conflict {e : ParameterEntry} (hidentifier : isIdentifier name = true)
      (hslot : isSlotName name = false) (hfind : t.find? name = some e)
      (htype : e.scalarType ≠ scalarType) :
      Refuses t name scalarType (.typeConflict name e.scalarType scalarType)

variable {t t' : ParameterTable} {name name' : String} {scalarType : ScalarType}

@[simp] lemma bindings_push (t : ParameterTable) (e : ParameterEntry) :
    (t.push e).bindings = t.bindings ++ [e.binding] := by
  simp [push, bindings]

/-- Marking an entry leaves the bindings alone. -/
@[simp] lemma bindings_markRowCount (t : ParameterTable) (name : String) :
    (t.markRowCount name).bindings = t.bindings :=
  map_markFirst ParameterEntry.binding (fun _ => rfl) t.entries

/-! ## One call

A call leaves the bindings as they are, or adds one at the end whose name is new and of the kind of
the call.  All that is said of a table after a call follows from that. -/

/-- A parameter is refused exactly for one of the reasons. -/
lemma bindNamed_eq_error_iff {e : ParameterError} :
    t.bindNamed name scalarType = .error e ↔ t.Refuses name scalarType e := by
  constructor
  · intro h
    rw [bindNamed] at h
    split at h
    · rename_i hname
      cases h
      exact .invalid (by simpa using hname)
    · rename_i hname
      rw [Bool.or_eq_true, not_or] at hname
      cases hfind : t.find? name with
      | none => simp [hfind] at h
      | some entry =>
          simp only [hfind] at h
          split at h
          · cases h
          · rename_i htype
            cases h
            exact .conflict (by simpa using hname.1) (by simpa using hname.2) hfind htype
  · intro h
    cases h with
    | invalid h => simp [bindNamed, h]
    | conflict hidentifier hslot hfind htype => simp [bindNamed, hidentifier, hslot, hfind, htype]

/-- What a call can do: nothing to the bindings, or one more entry with a new name of its kind. -/
inductive Grows (t : ParameterTable) : ParameterTable → Prop
  | same : Grows t t
  | marked (name : String) : Grows t (t.markRowCount name)
  | pushed {e : ParameterEntry} (hnew : t.find? e.name = none) (hown : e.HasOwnName) :
      Grows t (t.push e)

/-- **What a call can do** to a table, whatever is in it. -/
lemma grows_call (t : ParameterTable) (c : Call) : t.Grows (t.call c) := by
  cases c with
  | bindSlot slot scalarType =>
      rw [call, bindSlot]
      cases hfind : t.find? (slotName slot) with
      | some e => exact .same
      | none => exact .pushed (e := ⟨slotName slot, scalarType, .constant slot, false⟩) hfind rfl
  | bindNamed name scalarType =>
      rw [call]
      cases hbind : t.bindNamed name scalarType with
      | error e => exact .same
      | ok bound =>
          obtain ⟨t', name'⟩ := bound
          cases bindNamed_snd hbind
          obtain ⟨hslot, ⟨e, -, -, rfl⟩ | ⟨hnew, rfl⟩⟩ := bindNamed_eq_ok hbind
          · exact .same
          · exact .pushed (e := ⟨name, scalarType, .named, false⟩) hnew
              ⟨isIdentifier_of_bindNamed hbind, hslot⟩
  | markRowCount name => exact .marked name

/-- No call changes or removes what an entry binds. -/
lemma Grows.bindings_isPrefix (h : t.Grows t') : t.bindings <+: t'.bindings := by
  cases h with
  | same => exact List.prefix_rfl
  | marked name => exact (bindings_markRowCount t name).symm ▸ List.prefix_rfl
  | pushed =>
      rw [bindings_push]
      exact List.prefix_append ..

/-- A call keeps the names apart. -/
lemma Grows.isApart (h : t.Grows t') (hapart : t.IsApart) : t'.IsApart := by
  cases h with
  | same => exact hapart
  | marked name =>
      refine ⟨by rw [names_markRowCount]; exact hapart.nodup, fun e he => ?_⟩
      obtain ⟨e', he', rfl | rfl⟩ := mem_markFirst he
      · exact hapart.own e he'
      · exact hapart.own e' he'
  | @pushed entry hnew hown =>
      constructor
      · rw [names_push]
        refine List.nodup_append.2 ⟨hapart.nodup, by simp, ?_⟩
        rintro name hname _ hlast rfl
        rw [List.mem_singleton.1 hlast] at hname
        exact find?_eq_none_iff.1 hnew hname
      · intro e he
        rcases List.mem_append.1 he with he | he
        · exact hapart.own e he
        · rw [List.mem_singleton.1 he]
          exact hown

/-- A binding of a table whose names are different is that of the entry which is found. -/
lemma IsApart.exists_find? (h : t.IsApart) {origin : ParameterOrigin}
    (hmem : (name, scalarType, origin) ∈ t.bindings) :
    ∃ e, t.find? name = some e ∧ e.scalarType = scalarType ∧ e.origin = origin := by
  obtain ⟨e, he, hbinding⟩ := List.mem_map.1 hmem
  cases hbinding
  exact ⟨e, find?_of_mem h.nodup he, rfl, rfl⟩

/-- The constant of a slot is bound afterwards, with the type of its first use. -/
lemma IsApart.mem_bindings_bindSlot (h : t.IsApart) (slot : Nat) (scalarType : ScalarType) :
    ∃ bound, (slotName slot, bound, .constant slot) ∈ (t.bindSlot slot scalarType).1.bindings := by
  cases hfind : t.find? (slotName slot) with
  | none =>
      refine ⟨scalarType, ?_⟩
      simp [bindSlot, hfind, ParameterEntry.binding]
  | some e =>
      obtain ⟨he, hname⟩ := find?_eq_some hfind
      have horigin := ((h.own e he).eq_slotName_iff slot).1 hname
      refine ⟨e.scalarType, ?_⟩
      simp only [bindSlot, hfind]
      exact List.mem_map.2 ⟨e, he, by rw [ParameterEntry.binding, hname, horigin]⟩

/-- A parameter that is accepted is bound afterwards, with the type that was asked for. -/
lemma IsApart.mem_bindings_bindNamed (h : t.IsApart)
    (hbind : t.bindNamed name scalarType = .ok (t', name)) :
    (name, scalarType, .named) ∈ t'.bindings := by
  obtain ⟨hslot, ⟨e, hfind, htype, rfl⟩ | ⟨-, rfl⟩⟩ := bindNamed_eq_ok hbind
  · obtain ⟨he, hname⟩ := find?_eq_some hfind
    have horigin : e.origin = .named := by
      cases horigin : e.origin with
      | named => rfl
      | constant k =>
          rw [← hname, ((h.own e he).eq_slotName_iff k).2 horigin, isSlotName_slotName] at hslot
          cases hslot
    exact List.mem_map.2 ⟨e, he, by rw [ParameterEntry.binding, hname, htype, horigin]⟩
  · simp [ParameterEntry.binding]

/-! ## Several calls

By induction on the calls the names stay apart, from the empty table on.  What has been bound at
some time is still in its place at the end. -/

/-- Any calls keep the names apart. -/
lemma IsApart.after (h : t.IsApart) (calls : List Call) : (t.after calls).IsApart := by
  induction calls generalizing t with
  | nil => exact h
  | cons c calls ih => exact ih ((grows_call t c).isApart h)

/-- Any calls keep what is bound in its place. -/
lemma bindings_isPrefix_after (t : ParameterTable) (calls : List Call) :
    t.bindings <+: (t.after calls).bindings := by
  induction calls generalizing t with
  | nil => exact List.prefix_rfl
  | cons c calls ih => exact (grows_call t c).bindings_isPrefix.trans (ih _)

lemma isApart_empty : IsApart empty where
  nodup := List.nodup_nil
  own _ he := absurd he List.not_mem_nil

/-- **A parameter never takes the place of a constant.**  After any calls that start with an empty
table, the names of the entries are different, the name of a constant is that of its slot, and that
of a parameter has not this form.  Whatever is called then, the entries there are keep their places,
names, types and origins.  A constant is bound under the name of its slot, where its entry is found
from then on.  A parameter is bound under its own name, where an entry of a parameter is found from
then on that has its type; or it is refused, because its name is not one for parameters or has
another type already, and the table stays as it was. -/
theorem kept_apart (calls more : List Call) :
    let t := empty.after calls
    t.IsApart ∧ t.bindings <+: (t.after more).bindings ∧
      (∀ slot scalarType, (t.bindSlot slot scalarType).2 = slotName slot ∧
        ∃ e, ((t.call (.bindSlot slot scalarType)).after more).find? (slotName slot) = some e ∧
          e.origin = .constant slot) ∧
      ∀ name scalarType,
        (t.bindNamed name scalarType = .ok (t.call (.bindNamed name scalarType), name) ∧
          ∃ e, ((t.call (.bindNamed name scalarType)).after more).find? name = some e ∧
            e.scalarType = scalarType ∧ e.origin = .named) ∨
        ∃ e, t.bindNamed name scalarType = .error e ∧ t.Refuses name scalarType e ∧
          t.call (.bindNamed name scalarType) = t := by
  intro t
  have hapart : t.IsApart := isApart_empty.after calls
  have hcall : ∀ c, ((t.call c).after more).IsApart := fun c =>
    ((grows_call t c).isApart hapart).after more
  have hkept : ∀ c, (t.call c).bindings ⊆ ((t.call c).after more).bindings := fun c =>
    (bindings_isPrefix_after (t.call c) more).subset
  refine ⟨hapart, bindings_isPrefix_after t more, fun slot scalarType => ⟨bindSlot_snd .., ?_⟩,
    fun name scalarType => ?_⟩
  · obtain ⟨bound, hmem⟩ := hapart.mem_bindings_bindSlot slot scalarType
    obtain ⟨e, hfind, -, horigin⟩ := (hcall _).exists_find? (hkept (.bindSlot ..) hmem)
    exact ⟨e, hfind, horigin⟩
  · cases hbind : t.bindNamed name scalarType with
    | error e =>
        refine .inr ⟨e, rfl, bindNamed_eq_error_iff.1 hbind, ?_⟩
        rw [call, hbind]
    | ok bound =>
        obtain ⟨t', name'⟩ := bound
        cases bindNamed_snd hbind
        have ht' : t.call (.bindNamed name scalarType) = t' := by rw [call, hbind]
        have hmem := hapart.mem_bindings_bindNamed hbind
        rw [← ht'] at hmem
        obtain ⟨e, hfind, hentry⟩ := (hcall _).exists_find? (hkept _ hmem)
        exact .inl ⟨by rw [ht'], e, hfind, hentry⟩

end ParameterTable

namespace Sample

/-- A parameter and a constant are bound, and two parameters are refused in between: one that reads
like the constant, and one that has another type already. -/
def interleaved : List ParameterTable.Call :=
  [.bindNamed "page" .int64, .bindNamed "p0" .string, .bindSlot 0 .int32, .markRowCount "page",
    .bindNamed "page" .string, .bindSlot 0 .int32]

end Sample

/-- A parameter that reads like a constant is refused, before the constant is bound and after. -/
theorem kept_apart_interleaved :
    (ParameterTable.empty.after Sample.interleaved).names = ["page", "p0"] ∧
      (ParameterTable.empty.after Sample.interleaved).IsApart ∧
      (ParameterTable.empty.after [.bindNamed "page" .int64]).bindNamed "p0" .string =
        .error (.invalidName "p0") := by
  obtain ⟨hapart, -⟩ := ParameterTable.kept_apart Sample.interleaved []
  exact ⟨by decide +kernel, hapart, by decide +kernel⟩

end EntityQuery
