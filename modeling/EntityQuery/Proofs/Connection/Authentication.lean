import EntityQuery.Connection.Pool
import Mathlib.Tactic.Common

/-!
# Authentication through a pool

A store that requires credentials checks those of each attempt to connect.  A pool attempts to
connect for the first description of an address, a bucket and a user.  Once it has a connection,
later descriptions of the three get the same one, whatever their password is.

* `Pool.Acquires`: what can become of a description.
* `Pool.isSome_find?_after`: the keys under which a pool has connections after some calls.
* `handles_authenticated`: which calls get a connection.
-/

namespace EntityQuery

/-- A description is usable, and it presents the credentials that a store requires. -/
structure ConnectionInfo.IsAccepted (i : ConnectionInfo) (credentials : String × String) : Prop where
  check : i.check = .ok ()
  presents : (i.username, i.password) = credentials

namespace Pool

variable {p : Pool} {s : MemoryStore} {i : ConnectionInfo} {credentials : String × String}

/-! ## One call

A call has one of four outcomes, and all that is said of calls later is read off them: the password
is looked at only where the pool has no connection under the key. -/

/-- What can become of a description: the pool afterwards, and the answer. -/
inductive Acquires (p : Pool) (i : ConnectionInfo) (credentials : String × String) :
    Pool → Except ClientError Connection → Prop
  | unusable {e : ClientError} (h : i.check = .error e) : Acquires p i credentials p (.error e)
  /-- The pool has a connection; nobody looks at the password. -/
  | shared {c : Connection} (hcheck : i.check = .ok ()) (h : p.find? i.key = some c) :
      Acquires p i credentials p (.ok c)
  | refused (hcheck : i.check = .ok ()) (hnone : p.find? i.key = none)
      (h : (i.username, i.password) ≠ credentials) :
      Acquires p i credentials p (.error (.authentication i.username "invalid credentials"))
  | opened (hnone : p.find? i.key = none) (h : i.IsAccepted credentials) :
      Acquires p i credentials (p.add i).1 (.ok (p.add i).2)

lemma acquires_of_credentials (hs : s.credentials = some credentials) (p : Pool)
    (i : ConnectionInfo) :
    p.Acquires i credentials (p.acquire s i).1 (p.acquire s i).2.2 := by
  rw [acquire]
  cases hcheck : i.check with
  | error e => exact .unusable hcheck
  | ok u =>
      cases hfind : p.find? i.key with
      | some c => exact .shared hcheck hfind
      | none =>
          by_cases hpresents : (i.username, i.password) = credentials
          · have hadmits : s.admits i.username i.password = true := by
              simp [MemoryStore.admits, hs, hpresents]
            simp only [MemoryStore.connect, hadmits, if_true]
            exact .opened hfind ⟨hcheck, hpresents⟩
          · have hrefused : s.admits i.username i.password = false := by
              simp [MemoryStore.admits, hs, Ne.symm hpresents]
            simp only [MemoryStore.connect, hrefused]
            exact .refused hcheck hfind hpresents

/-- A call gets a connection if the description is usable, and presents the credentials or has a key
of the pool. -/
lemma Acquires.ok_iff {p' : Pool} {answer : Except ClientError Connection}
    (h : p.Acquires i credentials p' answer) : (∃ c, answer = .ok c) ↔
      i.check = .ok () ∧
        ((i.username, i.password) = credentials ∨ (p.find? i.key).isSome = true) := by
  cases h with
  | unusable h => simp [h]
  | shared hcheck h => simp [hcheck, h]
  | refused _ hnone h => simp [hnone, h]
  | opened _ h => simp [h.check, h.presents]

/-- A call that gets no connection is refused, unless the description is not usable. -/
lemma Acquires.eq_error {p' : Pool} {answer : Except ClientError Connection}
    (h : p.Acquires i credentials p' answer) (hcheck : i.check = .ok ())
    (hnone : ¬ ∃ c, answer = .ok c) :
    answer = .error (.authentication i.username "invalid credentials") := by
  cases h with
  | unusable h => cases hcheck.symm.trans h
  | shared => exact absurd ⟨_, rfl⟩ hnone
  | refused => rfl
  | opened => exact absurd ⟨_, rfl⟩ hnone

/-- A call leaves the credentials alone that the store requires. -/
lemma credentials_acquire (p : Pool) (s : MemoryStore) (i : ConnectionInfo) :
    (p.acquire s i).2.1.credentials = s.credentials := by
  rw [acquire]
  cases i.check with
  | error e => rfl
  | ok u =>
      cases p.find? i.key with
      | some c => rfl
      | none =>
          simp only [MemoryStore.connect]
          cases s.admits i.username i.password <;> rfl

lemma isSome_find?_add (p : Pool) (i : ConnectionInfo) (key : ConnectionKey) :
    ((p.add i).1.find? key).isSome = true ↔ (p.find? key).isSome = true ∨ i.key = key := by
  simp [add, find?, List.find?_append]

/-- **A call adds the key of a description that is accepted.** -/
lemma isSome_find?_acquire (hs : s.credentials = some credentials) (key : ConnectionKey) :
    ((p.acquire s i).1.find? key).isSome = true ↔
      (p.find? key).isSome = true ∨ i.key = key ∧ i.IsAccepted credentials := by
  have hcall := acquires_of_credentials hs p i
  generalize (p.acquire s i).1 = p', (p.acquire s i).2.2 = answer at hcall
  cases hcall with
  | unusable h =>
      refine (or_iff_left ?_).symm
      rintro ⟨-, haccepted⟩
      cases h.symm.trans haccepted.check
  | shared _ h =>
      refine (or_iff_left_of_imp ?_).symm
      rintro ⟨rfl, -⟩
      rw [h]
      rfl
  | refused _ _ h => exact (or_iff_left fun haccepted => h haccepted.2.presents).symm
  | opened _ h =>
      rw [isSome_find?_add]
      exact or_congr_right (and_iff_left h).symm

/-! ## Several calls

What a pool knows after some calls is which keys it has connections for, and these are the keys of
the descriptions that were accepted.  The induction on the calls carries this set, for any pool to
start from, while the credentials that the store requires do not change. -/

/-- The pool and the store after some calls, one after the other. -/
def after (p : Pool) (s : MemoryStore) : List ConnectionInfo → Pool × MemoryStore
  | [] => (p, s)
  | i :: is => (p.acquire s i).1.after (p.acquire s i).2.1 is

/-- The answer to a call that follows others over a new pool. -/
def answer (s : MemoryStore) (before : List ConnectionInfo) (i : ConnectionInfo) :
    Except ClientError Connection :=
  let reached := ({} : Pool).after s before
  (reached.1.acquire reached.2 i).2.2

lemma credentials_after (p : Pool) (s : MemoryStore) (is : List ConnectionInfo) :
    (p.after s is).2.credentials = s.credentials := by
  induction is generalizing p s with
  | nil => rfl
  | cons i is ih => exact (ih _ _).trans (credentials_acquire p s i)

/-- **The keys of a pool after some calls** are those of before, and those of the descriptions that
are accepted. -/
lemma isSome_find?_after (hs : s.credentials = some credentials) (is : List ConnectionInfo)
    (key : ConnectionKey) :
    ((p.after s is).1.find? key).isSome = true ↔
      (p.find? key).isSome = true ∨ ∃ i ∈ is, i.key = key ∧ i.IsAccepted credentials := by
  induction is generalizing p s with
  | nil => simp [after]
  | cons i is ih =>
      rw [after, ih ((credentials_acquire p s i).trans hs), isSome_find?_acquire hs, or_assoc]
      simp only [List.mem_cons, or_and_right, exists_or, exists_eq_left]

end Pool

/-- **Authentication through a pool.**  Over a store that requires credentials, a call of any
sequence gets a connection exactly if its description is usable and either presents the credentials
itself, or has the address, the bucket and the user of an earlier description that was accepted.  So
its user is the one that the store accepts.  Any other usable description is refused. -/
theorem handles_authenticated {s : MemoryStore} {credentials : String × String}
    (hs : s.credentials = some credentials) (before : List ConnectionInfo) (i : ConnectionInfo) :
    ((∃ c, Pool.answer s before i = .ok c) ↔
        i.check = .ok () ∧ ((i.username, i.password) = credentials ∨
          ∃ earlier ∈ before, earlier.key = i.key ∧ earlier.IsAccepted credentials)) ∧
      ((∃ c, Pool.answer s before i = .ok c) → i.username = credentials.1) ∧
      (i.check = .ok () → (¬ ∃ c, Pool.answer s before i = .ok c) →
        Pool.answer s before i = .error (.authentication i.username "invalid credentials")) := by
  have hcredentials := (Pool.credentials_after {} s before).trans hs
  have hcall := Pool.acquires_of_credentials hcredentials (Pool.after {} s before).1 i
  have hkey : ((Pool.after {} s before).1.find? i.key).isSome = true ↔
      ∃ earlier ∈ before, earlier.key = i.key ∧ earlier.IsAccepted credentials :=
    (Pool.isSome_find?_after hs before i.key).trans (or_iff_right Bool.false_ne_true)
  have hok : (∃ c, Pool.answer s before i = .ok c) ↔
      i.check = .ok () ∧ ((i.username, i.password) = credentials ∨
        ∃ earlier ∈ before, earlier.key = i.key ∧ earlier.IsAccepted credentials) := by
    rw [← hkey]
    exact hcall.ok_iff
  refine ⟨hok, fun hanswer => ?_, hcall.eq_error⟩
  rcases (hok.1 hanswer).2 with hpresents | ⟨earlier, -, hsame, haccepted⟩
  · exact congrArg Prod.fst hpresents
  · calc
      i.username = i.key.username := rfl
      _ = earlier.key.username := by rw [hsame]
      _ = credentials.1 := congrArg Prod.fst haccepted.presents

namespace Sample

/-- A store that admits one user. -/
def guarded : MemoryStore := { credentials := some ("app", "secret") }

/-- The user of the store with some password, at a bucket. -/
def userWith (password bucket : String) : ConnectionInfo :=
  { connectionString := "memory://local", username := "app", password, bucket }

lemma check_userWith (password : String) {bucket : String} (hbucket : isBlankText bucket = false) :
    (userWith password bucket).check = .ok () := by
  have haddress : ConnectionInfo.isAddress "memory://local" = true := by decide +kernel
  have hname : isBlankText "app" = false := by decide +kernel
  have hscope : isBlankText defaultScope = false := by decide +kernel
  simp [ConnectionInfo.check, userWith, haddress, hname, hscope, hbucket]

/-- The user has connected to two buckets with the right password. -/
def connectedTwice : List ConnectionInfo := [userWith "secret" "orders", userWith "secret" "app"]

end Sample

/-- The user has connected to two buckets.  With a wrong password they get a connection to one of
these, as an earlier call with the same key was accepted.  They are refused at a third bucket, and
by a new pool. -/
theorem handles_authenticated_buckets :
    (∃ c, Pool.answer Sample.guarded Sample.connectedTwice (Sample.userWith "wrong" "app") =
      .ok c) ∧
    Pool.answer Sample.guarded Sample.connectedTwice (Sample.userWith "wrong" "audit") =
      .error (.authentication "app" "invalid credentials") ∧
    Pool.answer Sample.guarded [] (Sample.userWith "wrong" "app") =
      .error (.authentication "app" "invalid credentials") := by
  have happ : isBlankText "app" = false := by decide +kernel
  have haudit : isBlankText "audit" = false := by decide +kernel
  -- who presents a wrong password, and has no key of an earlier call, gets no connection
  have hrefused (before : List ConnectionInfo) {bucket : String}
      (hbucket : isBlankText bucket = false)
      (hother : ∀ earlier ∈ before, earlier.key ≠ (Sample.userWith "wrong" bucket).key) :
      Pool.answer Sample.guarded before (Sample.userWith "wrong" bucket) =
        .error (.authentication "app" "invalid credentials") := by
    obtain ⟨hok, -, hrefused⟩ := @handles_authenticated Sample.guarded ("app", "secret") rfl before
      (Sample.userWith "wrong" bucket)
    refine hrefused (Sample.check_userWith "wrong" hbucket) fun h => ?_
    rcases (hok.1 h).2 with hpresents | ⟨earlier, hmem, hkey, -⟩
    · have hdiffer : "wrong" ≠ "secret" := by decide
      exact absurd (congrArg Prod.snd hpresents) hdiffer
    · exact hother earlier hmem hkey
  have hearlier : (Sample.userWith "secret" "app").IsAccepted ("app", "secret") :=
    ⟨Sample.check_userWith "secret" happ, rfl⟩
  obtain ⟨hok, -, -⟩ := @handles_authenticated Sample.guarded ("app", "secret") rfl
    Sample.connectedTwice (Sample.userWith "wrong" "app")
  refine ⟨hok.2 ⟨Sample.check_userWith "wrong" happ, .inr ⟨Sample.userWith "secret" "app", ?_, rfl,
      hearlier⟩⟩,
    hrefused Sample.connectedTwice haudit (by decide), hrefused [] happ (by decide)⟩
  exact List.mem_cons_of_mem _ List.mem_cons_self

/-- A wrong password gets the connection that the right one has opened. -/
theorem wrong_password_shares : ("app", "wrong") ≠ ("app", "secret") ∧
    ∃ c, Pool.answer Sample.guarded [] (Sample.userWith "secret" "app") = .ok c ∧
      Pool.answer Sample.guarded [Sample.userWith "secret" "app"]
        (Sample.userWith "wrong" "app") = .ok c := by
  have happ : isBlankText "app" = false := by decide +kernel
  have hright := Sample.check_userWith "secret" happ
  have hwrong := Sample.check_userWith "wrong" happ
  refine ⟨by decide, ⟨0, "memory://local", "app", defaultScope⟩, ?_, ?_⟩
  · simp only [Pool.answer, Pool.after, Pool.acquire, hright]
    rfl
  · simp only [Pool.answer, Pool.after, Pool.acquire, hright, hwrong]
    rfl

end EntityQuery
