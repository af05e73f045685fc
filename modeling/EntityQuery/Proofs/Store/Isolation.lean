import EntityQuery.Proofs.Evaluation.Sources
import EntityQuery.Store.Memory

/-!
# Isolation of keyspaces

A store keeps the documents of a keyspace under its dotted text.  What is done to one keyspace
therefore leaves another one alone exactly if their dotted texts differ, and different keyspaces may
have the same dotted text: the bucket `a.b` with the scope `c` reads like the bucket `a` with the
scope `b.c`.

* `Keyspace.eq_of_dotted`: keyspaces whose scopes and collections have no dots in their names have
  different texts.
* `MemoryStore.documents?_change` and `MemoryStore.documents?_after`: what a change, and a sequence
  of changes, does to a keyspace.
* `isolated_iff`: when two keyspaces are isolated from each other.
* `keyspaces_isolated`: what the changes to other keyspaces do to documents and rows.
-/

namespace EntityQuery

/-! ## Dotted texts

A text with dots in it can be split at more than one of them.  If scope and collection have none,
the last two dots are where the parts end. -/

namespace Keyspace

/-- Neither the scope nor the collection has a dot in its name. -/
def IsUndotted (k : Keyspace) : Prop := '.' ∉ k.scope.toList ∧ '.' ∉ k.collection.toList

/-- The last part of a dotted text can be told from the rest if it has no dot itself. -/
lemma dot_inj {front front' last last' : List Char} (h : '.' ∉ last) (h' : '.' ∉ last')
    (heq : front ++ '.' :: last = front' ++ '.' :: last') : front = front' ∧ last = last' := by
  have hfront : ∀ {front front' last last' : List Char}, '.' ∉ last →
      ∀ more, front' = front ++ more → '.' :: last = more ++ '.' :: last' →
        front = front' ∧ last = last' := by
    intro front front' last last' h more hfront hlast
    cases more with
    | nil => exact ⟨by simp [hfront], (List.cons.inj hlast).2⟩
    | cons c more =>
        refine absurd ?_ h
        rw [(List.cons.inj hlast).2]
        exact List.mem_append_right _ List.mem_cons_self
  rcases List.append_eq_append_iff.1 heq with ⟨more, hmore, hlast⟩ | ⟨more, hmore, hlast⟩
  · exact hfront h more hmore hlast
  · exact (hfront h' more hmore hlast).imp Eq.symm Eq.symm

/-- Keyspaces that have no dots in these names have different texts. -/
lemma eq_of_dotted {k k' : Keyspace} (h : k.IsUndotted) (h' : k'.IsUndotted)
    (hdotted : k.dotted = k'.dotted) : k = k' := by
  have hchars : ∀ k : Keyspace, k.dotted.toList =
      (k.bucket.toList ++ '.' :: k.scope.toList) ++ '.' :: k.collection.toList := by
    intro k
    simp [dotted]
  have hlists := congrArg String.toList hdotted
  rw [hchars, hchars] at hlists
  obtain ⟨hfront, hcollection⟩ := dot_inj h.2 h'.2 hlists
  obtain ⟨hbucket, hscope⟩ := dot_inj h.1 h'.1 hfront
  exact congr (congrArg₂ Keyspace.mk (String.toList_injective hbucket)
    (String.toList_injective hscope)) (String.toList_injective hcollection)

end Keyspace

/-! ## Changes

Creating a keyspace and putting documents in it are the only changes.  What a keyspace has after
some changes is computed from those that reach it, in order. -/

/-- What is done to the collections of a store. -/
inductive StoreChange where
  | create (k : Keyspace)
  | insert (k : Keyspace) (document : Document)
  | insertMany (k : Keyspace) (documents : List Document)

namespace StoreChange

/-- The keyspace that is created or filled. -/
def keyspace : StoreChange → Keyspace
  | .create k | .insert k _ | .insertMany k _ => k

/-- The documents that are added. -/
def added : StoreChange → List Document
  | .create _ => []
  | .insert _ document => [document]
  | .insertMany _ documents => documents

end StoreChange

namespace MemoryStore

/-- The store after a change. -/
def change (s : MemoryStore) : StoreChange → MemoryStore
  | .create k => s.create k
  | .insert k document => s.insert k [document]
  | .insertMany k documents => s.insert k documents

/-- The store after some changes. -/
def after (s : MemoryStore) (changes : List StoreChange) : MemoryStore := changes.foldl change s

variable {s s' : MemoryStore} {k : Keyspace}

/-- **A change reaches the keyspaces that have the dotted text of its own.** -/
lemma documents?_change (s : MemoryStore) (c : StoreChange) (k : Keyspace) :
    (s.change c).collections.documents? k =
      if c.keyspace.dotted = k.dotted then some (s.documents k ++ c.added)
      else s.collections.documents? k := by
  have hinsert : ∀ (k' : Keyspace) (documents : List Document),
      (s.insert k' documents).collections.documents? k =
        if k'.dotted = k.dotted then some (s.documents k ++ documents)
        else s.collections.documents? k := by
    intro k' documents
    split
    · rename_i hdotted
      rw [insert, Collections.insert, hdotted]
      exact Collections.find?_addNamed_self ..
    · rename_i hdotted
      exact Collections.find?_addNamed_of_ne documents hdotted
  cases c with
  | create k' => exact hinsert k' []
  | insert k' document => exact hinsert k' [document]
  | insertMany k' documents => exact hinsert k' documents

lemma rows_eq_error {r : PageRequest} {e : EvalError}
    (h : r.statement.run ⟨s.collections, r.parameters⟩ = .error e) :
    s.rows r = .error (.ofEvaluation e) := by
  rw [rows, h]
  rfl

/-- **A statement fails that reads a keyspace which does not exist.**  It reports the keyspace,
unless something fails before it is read, in the same way whatever it would hold. -/
lemma rows_of_unknown {r : PageRequest} (hr : k ∈ r.statement.reads)
    (hnone : s.collections.documents? k = none) :
    s.rows r = .error (.ofEvaluation (.unknownKeyspace k.dotted)) ∨
      r.statement.reads.head? ≠ some k ∧ ∃ e, s.rows r = .error e ∧
        ∀ documents, (s.insert k documents).rows r = .error e := by
  have hrun := @Statement.run_of_unknown ⟨s.collections, r.parameters⟩ k _ hr hnone
  rcases hrun with hunknown | ⟨hfirst, e, he, hothers⟩
  · exact .inl (rows_eq_error hunknown)
  · refine .inr ⟨hfirst, .ofEvaluation e, rows_eq_error he, fun documents => ?_⟩
    exact rows_eq_error (hothers _ rfl fun k' _ hdotted =>
      (Collections.find?_addNamed_of_ne documents (Ne.symm hdotted)).symm)

/-- **Only the changes that reach a keyspace matter to it.** -/
lemma documents?_after {test : StoreChange → Bool} {changes : List StoreChange}
    (hs : s.collections.documents? k = s'.collections.documents? k)
    (htest : ∀ c ∈ changes, c.keyspace.dotted = k.dotted → test c = true) :
    (s.after changes).collections.documents? k =
      (s'.after (changes.filter test)).collections.documents? k := by
  induction changes generalizing s s' with
  | nil => exact hs
  | cons c changes ih =>
      obtain ⟨hc, htest⟩ := List.forall_mem_cons.1 htest
      cases hkept : test c with
      | true =>
          rw [List.filter_cons_of_pos hkept]
          refine ih ?_ htest
          rw [documents?_change, documents?_change, documents, documents, Collections.documents,
            Collections.documents, hs]
      | false =>
          have hother : c.keyspace.dotted ≠ k.dotted := fun hdotted =>
            Bool.false_ne_true (hkept.symm.trans (hc hdotted))
          rw [List.filter_cons_of_neg (by simp [hkept])]
          refine ih ?_ htest
          rw [documents?_change, if_neg hother, hs]

end MemoryStore

/-- **Two keyspaces are isolated from each other exactly if their dotted texts differ.** -/
theorem isolated_iff {k k' : Keyspace} :
    (∀ (s : MemoryStore) (c : StoreChange), c.keyspace = k →
      (s.change c).documents k' = s.documents k') ↔ k.dotted ≠ k'.dotted := by
  constructor
  · intro h hdotted
    have hreached : (StoreChange.insert k .null).keyspace.dotted = k'.dotted := hdotted
    have hsame := h .empty (.insert k .null) rfl
    rw [MemoryStore.documents, Collections.documents, MemoryStore.documents?_change,
      if_pos hreached] at hsame
    cases hsame
  · rintro hdotted s c rfl
    rw [MemoryStore.documents, Collections.documents, MemoryStore.documents?_change,
      if_neg hdotted]
    rfl

/-- Different keyspaces without dots in the names of scopes and collections are isolated. -/
theorem isolated_of_undotted {k k' : Keyspace} (h : k.IsUndotted) (h' : k'.IsUndotted)
    (hne : k ≠ k') (s : MemoryStore) {c : StoreChange} (hc : c.keyspace = k) :
    (s.change c).documents k' = s.documents k' :=
  isolated_iff.2 (fun hdotted => hne (Keyspace.eq_of_dotted h h' hdotted)) s c hc

/-! ## Sequences of changes

Documents, rows of statements and the answer that a keyspace does not exist all depend on the
changes that reach the keyspaces in question.  The statement about rows allows statements that read
several keyspaces. -/

/-- **Isolation of keyspaces.**  Let no keyspace that is changed share its dotted text with one of
the keyspaces `ks`, unless it is that keyspace itself.  Then the documents of these keyspaces, what
statements read from them, and the rows of statements that read nothing else are the same as if only
they themselves had been changed.  A statement fails that reads one of them which nobody has created
or filled.  It reports the keyspace, at any rate if it reads it first; otherwise something may fail
before, in the same way whatever the keyspace would hold. -/
theorem keyspaces_isolated {s : MemoryStore} {changes : List StoreChange} {ks : List Keyspace}
    (hapart : ∀ c ∈ changes, ∀ k ∈ ks, c.keyspace.dotted = k.dotted → c.keyspace = k) :
    let own := s.after (changes.filter fun c => ks.contains c.keyspace)
    (∀ k ∈ ks, (s.after changes).documents k = own.documents k ∧
      ∀ aliasName parameters,
        (Source.keyspace k aliasName).run ⟨(s.after changes).collections, parameters⟩ =
          (Source.keyspace k aliasName).run ⟨own.collections, parameters⟩) ∧
      (∀ r : PageRequest, (∀ k ∈ r.statement.reads, k ∈ ks) →
        (s.after changes).rows r = own.rows r) ∧
      ∀ k ∈ ks, s.collections.documents? k = none → (∀ c ∈ changes, c.keyspace ≠ k) →
        ∀ r : PageRequest, k ∈ r.statement.reads →
          (s.after changes).rows r = .error (.ofEvaluation (.unknownKeyspace k.dotted)) ∨
            r.statement.reads.head? ≠ some k ∧ ∃ e, (s.after changes).rows r = .error e ∧
              ∀ documents, ((s.after changes).insert k documents).rows r = .error e := by
  intro own
  have hown : ∀ k ∈ ks,
      (s.after changes).collections.documents? k = own.collections.documents? k := by
    intro k hk
    refine MemoryStore.documents?_after rfl fun c hc hdotted => ?_
    rw [hapart c hc k hk hdotted]
    exact List.contains_iff_mem.2 hk
  refine ⟨fun k hk => ⟨?_, fun aliasName parameters => ?_⟩, fun r hr => ?_, ?_⟩
  · rw [MemoryStore.documents, MemoryStore.documents, Collections.documents,
      Collections.documents, hown k hk]
  · rw [Source.run_keyspace, Source.run_keyspace, Environment.read, Environment.read, hown k hk]
  · rw [MemoryStore.rows, MemoryStore.rows]
    exact congrArg _ (Statement.run_congr rfl fun k hk => hown k (hr k hk))
  · intro k hk hnone huntouched r hr
    have hmissing : (s.after changes).collections.documents? k = none := by
      have hnobody := @MemoryStore.documents?_after s s k (fun _ => false) changes rfl
        fun c hc hdotted => absurd (hapart c hc k hk hdotted) (huntouched c hc)
      rw [hnobody, List.filter_false]
      exact hnone
    exact MemoryStore.rows_of_unknown hr hmissing

namespace Sample

/-- A keyspace in a bucket with a dot in its name. -/
def dottedBucket : Keyspace := ⟨"a.b", "c", "d"⟩

/-- A keyspace in a scope with a dot in its name. -/
def dottedScope : Keyspace := ⟨"a", "b.c", "d"⟩

/-- A request for the documents of a keyspace. -/
def contents (k : Keyspace) : PageRequest := ⟨.select (.keyspace k "d") [] (.all "d"), [], 1000⟩

end Sample

/-- What is put among the persons does not change the orders, which do not exist. -/
theorem keyspaces_isolated_orders :
    (MemoryStore.empty.after [.insert ⟨"app", "_default", "person"⟩ .null]).documents
        ⟨"app", "_default", "order"⟩ = [] ∧
      (MemoryStore.empty.after [.insert ⟨"app", "_default", "person"⟩ .null]).rows
          (Sample.contents ⟨"app", "_default", "order"⟩) =
        .error (.statement
          "EVAL_UNKNOWN_KEYSPACE: Keyspace not found: app._default.order") := by
  have hisolated := @keyspaces_isolated .empty [.insert ⟨"app", "_default", "person"⟩ .null]
    [⟨"app", "_default", "order"⟩] (by decide)
  refine ⟨(hisolated.1 _ (List.mem_singleton_self _)).1, ?_⟩
  rcases hisolated.2.2 _ (List.mem_singleton_self _) rfl (by decide)
    (Sample.contents ⟨"app", "_default", "order"⟩) (List.mem_singleton_self _) with h | ⟨h, -⟩
  · rw [h]
    rfl
  · exact absurd rfl h

/-- A document that is put in one keyspace appears in another one, which nobody has created. -/
theorem dotted_keyspaces_collide :
    Sample.dottedBucket ≠ Sample.dottedScope ∧
      MemoryStore.empty.documents Sample.dottedScope = [] ∧
      (MemoryStore.empty.after [.insert Sample.dottedBucket .null]).documents Sample.dottedScope =
        [.null] ∧
      (MemoryStore.empty.after [.insert Sample.dottedBucket .null]).rows
        (Sample.contents Sample.dottedScope) = .ok [.null] :=
  ⟨by decide, rfl, rfl, rfl⟩

end EntityQuery
