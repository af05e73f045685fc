import EntityQuery.Proofs.Computation
import EntityQuery.Query.Encoding
import Mathlib.Algebra.Group.Nat.Defs

/-!
# Readers of encodings

A reader takes a value from the front of some bytes.  The parts from which encodings are made can
be read back: each is told from what follows it by its length, or by that of its text.

* `Reads`: what it means for a reader to take exactly the encoding of a value.
* `reads_number`, `reads_text`, `reads_named`, `reads_many`: the parts of encodings can be read.
-/

namespace EntityQuery

/-- A reader takes a value from the front of some bytes, and leaves the rest. -/
abbrev Reader := StateT (List UInt8) Option

namespace Reader

variable {α β : Type}

/-- Reads a number of bytes. -/
def bytes (n : Nat) : Reader (List UInt8) := fun bs =>
  if n ≤ bs.length then some (bs.take n, bs.drop n) else none

/-- The number of some bytes, the least significant one first. -/
def value (bs : List UInt8) : Nat := bs.foldr (fun b n => b.toNat + 256 * n) 0

/-- Reads a number of eight bytes. -/
def number : Reader Nat := do
  let bs ← bytes 8
  pure (value bs)

/-- Goes on with a value that there may be. -/
def some? : Option α → Reader α
  | some a => pure a
  | none => failure

/-- Reads a text after its length. -/
def text : Reader String := do
  let n ← number
  let bs ← bytes n
  some? (String.fromUTF8? bs.toByteArray)

/-- Reads a truth value. -/
def flag : Reader Bool := do
  let bs ← bytes 1
  pure (bs == [1])

/-- Reads a number of values. -/
def many (r : Reader α) : Nat → Reader (List α)
  | 0 => pure []
  | n + 1 => do
    let a ← r
    let as ← many r n
    pure (a :: as)

/-- Reads a number, and as many values. -/
def counted (r : Reader α) : Reader (List α) := do
  let n ← number
  many r n

/-- Reads one of some values by its name. -/
def named (all : List α) (name : α → String) : Reader α := do
  let s ← text
  some? (all.find? fun a => name a == s)

/-- Reads two values. -/
def pair (r : Reader α) (s : Reader β) : Reader (α × β) := do
  let a ← r
  let b ← s
  pure (a, b)

end Reader

/-- A reader takes exactly the given bytes, whatever follows, and makes the given value of them. -/
def Reads {α : Type} (r : Reader α) (bs : List UInt8) (a : α) : Prop :=
  ∀ rest, r (bs ++ rest) = some (a, rest)

namespace Reads

variable {α β γ : Type} {r : Reader α} {bs cs : List UInt8} {a : α} {b : β}

/-- Two readers one after the other. -/
lemma bind {f : α → Reader β} (h : Reads r bs a) (hf : Reads (f a) cs b) :
    Reads (r >>= f) (bs ++ cs) b := by
  intro rest
  have hr := h (cs ++ rest)
  rw [← List.append_assoc] at hr
  change (r (bs ++ cs ++ rest) >>= fun p => f p.1 p.2) = some (b, rest)
  rw [hr]
  exact hf rest

/-- The last reader of several. -/
lemma last {f : α → β} (h : Reads r bs a) : Reads (r >>= fun a => pure (f a)) bs (f a) := by
  have hpure : Reads (pure (f a) : Reader β) [] (f a) := fun _ => rfl
  have hbind := h.bind (f := fun a => pure (f a)) hpure
  rwa [List.append_nil] at hbind

/-- A value that there is takes no bytes. -/
lemma some? {x : Option α} (h : x = some a) : Reads (Reader.some? x) [] a := by
  subst h
  intro rest
  rfl

lemma then_some? {f : α → Option β} (h : Reads r bs a) (hf : f a = some b) :
    Reads (r >>= fun a => Reader.some? (f a)) bs b := by
  have hbind := h.bind (f := fun a => Reader.some? (f a)) (some? hf)
  rwa [List.append_nil] at hbind

lemma pair {s : Reader β} (h : Reads r bs a) (hs : Reads s cs b) :
    Reads (Reader.pair r s) (bs ++ cs) (a, b) :=
  h.bind hs.last

end Reads

/-! ## The parts of encodings

That a reader takes what was written is stated with any bytes behind.  It is what makes readers
compose: the next one begins where the first one stops. -/

section Parts

variable {α : Type}

lemma reads_bytes {n : Nat} {bs : List UInt8} (h : bs.length = n) :
    Reads (Reader.bytes n) bs bs := by
  intro rest
  subst h
  simp [Reader.bytes]

lemma length_bigEndian (count n : Nat) : (Sha256.bigEndian count n).length = count := by
  induction count generalizing n with
  | zero => rfl
  | succ count ih => simp [Sha256.bigEndian, ih]

lemma value_bigEndian (count n : Nat) :
    Reader.value (Sha256.bigEndian count n).reverse = n % 256 ^ count := by
  induction count generalizing n with
  | zero => simp [Sha256.bigEndian, Reader.value, Nat.mod_one]
  | succ count ih =>
      have hstep : Reader.value (Sha256.bigEndian (count + 1) n).reverse =
          n % 256 + 256 * Reader.value (Sha256.bigEndian count (n / 256)).reverse := by
        simp [Sha256.bigEndian, Reader.value]
      rw [hstep, ih, Nat.pow_succ, Nat.mul_comm (256 ^ count) 256, Nat.mod_mul]

@[simp] lemma Encoding.length_number (n : Nat) : (Encoding.number n).length = 8 := by
  rw [Encoding.number, List.length_reverse, length_bigEndian]

/-- A number of 64 bits can be read. -/
lemma reads_number {n : Nat} (h : n < 2 ^ 64) : Reads Reader.number (Encoding.number n) n := by
  have hvalue : Reader.value (Encoding.number n) = n := by
    rw [Encoding.number, value_bigEndian]
    exact Nat.mod_eq_of_lt h
  have hread := (reads_bytes (Encoding.length_number n)).last (f := Reader.value)
  rwa [hvalue] at hread

lemma toList_loop (bs : ByteArray) (i : Nat) (acc : List UInt8) :
    ByteArray.toList.loop bs i acc = acc.reverse ++ bs.data.toList.drop i := by
  fun_induction ByteArray.toList.loop bs i acc with
  | case1 i acc h ih =>
      have hi : i < bs.data.toList.length := h
      have hget : bs.get! i = bs.data.toList[i] := by
        simp only [ByteArray.get!, Array.getElem_toList]
        rw [getElem!_pos]
      rw [ih, List.drop_eq_getElem_cons hi, hget]
      simp
  | case2 i acc h =>
      have hi : bs.data.toList.length ≤ i := Nat.le_of_not_lt h
      rw [List.drop_eq_nil_of_le hi, List.append_nil]

lemma toList_byteArray (bs : ByteArray) : bs.toList = bs.data.toList := toList_loop bs 0 []

lemma length_utf8 (s : String) : s.toUTF8.toList.length = s.utf8ByteSize := by
  rw [toList_byteArray]
  rfl

lemma fromUTF8?_utf8 (s : String) : String.fromUTF8? s.toUTF8.toList.toByteArray = some s := by
  have hbytes : s.toUTF8.toList.toByteArray = s.toByteArray := by
    rw [toList_byteArray]
    ext1
    simp
  rw [hbytes, String.fromUTF8?, dif_pos s.isValidUTF8]
  rfl

@[simp] lemma Encoding.length_text (s : String) :
    (Encoding.text s).length = 8 + s.utf8ByteSize := by
  rw [Encoding.text, List.length_append, Encoding.length_number, length_utf8]

/-- A text can be read if its length has 64 bits. -/
lemma reads_text {s : String} (h : s.utf8ByteSize < 2 ^ 64) :
    Reads Reader.text (Encoding.text s) s :=
  (reads_number h).bind ((reads_bytes (length_utf8 s)).then_some? (fromUTF8?_utf8 s))

@[simp] lemma Encoding.length_flag (b : Bool) : (Encoding.flag b).length = 1 := rfl

lemma reads_flag (b : Bool) : Reads Reader.flag (Encoding.flag b) b := by
  have hvalue : (Encoding.flag b == [1]) = b := by cases b <;> rfl
  have hread := (reads_bytes (Encoding.length_flag b)).last (f := (· == [1]))
  rwa [hvalue] at hread

/-- A value can be read by a name that is its own. -/
lemma reads_named {all : List α} {name : α → String} {a : α} (hsize : (name a).utf8ByteSize < 2 ^ 64)
    (hfind : (all.find? fun x => name x == name a) = some a) :
    Reads (Reader.named all name) (Encoding.text (name a)) a :=
  (reads_text hsize).then_some? hfind

/-- Several values can be read if each can. -/
lemma reads_many {r : Reader α} {β : Type} {e : β → List UInt8} {v : β → α} {bs : List β}
    (h : ∀ b ∈ bs, Reads r (e b) (v b)) :
    Reads (Reader.many r bs.length) (bs.flatMap e) (bs.map v) := by
  induction bs with
  | nil =>
      intro rest
      rfl
  | cons b bs ih =>
      have hhead := h b List.mem_cons_self
      have htail := ih fun b hb => h b (List.mem_cons_of_mem _ hb)
      rw [List.flatMap_cons, List.map_cons]
      exact hhead.bind htail.last

lemma reads_counted {r : Reader α} {β : Type} {e : β → List UInt8} {v : β → α} {bs : List β}
    (hsize : bs.length < 2 ^ 64) (h : ∀ b ∈ bs, Reads r (e b) (v b)) :
    Reads (Reader.counted r) (Encoding.number bs.length ++ bs.flatMap e) (bs.map v) :=
  (reads_number hsize).bind (reads_many h)

/-- The encodings of the members of a list are not longer than all together. -/
lemma length_le_flatMap {β : Type} {e : β → List UInt8} {bs : List β} {b : β} (h : b ∈ bs) :
    (e b).length ≤ (bs.flatMap e).length := by
  obtain ⟨front, back, rfl⟩ := List.append_of_mem h
  rw [List.flatMap_append, List.flatMap_cons, List.length_append, List.length_append]
  omega

/-- A list is not longer than its encodings if none of them is empty. -/
lemma length_le_length_flatMap {β : Type} {e : β → List UInt8} (h : ∀ b, 0 < (e b).length)
    (bs : List β) : bs.length ≤ (bs.flatMap e).length := by
  induction bs with
  | nil => exact Nat.le_refl _
  | cons b bs ih =>
      have hb := h b
      rw [List.flatMap_cons, List.length_append, List.length_cons]
      omega

end Parts
end EntityQuery
