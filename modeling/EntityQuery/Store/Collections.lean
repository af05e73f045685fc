import EntityQuery.Document.Basic
import EntityQuery.Keyspace

/-!
# Collections of documents

The documents of a store, by the dotted text of the keyspace that they are in.

* `Collections.documents?` is what a keyspace holds, if it exists.
* `Collections.create` and `Collections.insert` make keyspaces and fill them.
* `Collections.find?_addNamed_self` and `Collections.find?_addNamed_of_ne`: documents that are added
  under a name come behind those under that name, and under no other.
-/

namespace EntityQuery

/-- The documents of a store under the texts of their keyspaces. -/
structure Collections where
  entries : List (String × List Document)

namespace Collections

/-- No collections. -/
def empty : Collections := ⟨[]⟩

/-- The documents under a name, if there is such a collection. -/
def find? (c : Collections) (name : String) : Option (List Document) :=
  (c.entries.find? fun entry => entry.1 == name).map Prod.snd

/-- Adds documents behind those under a name, which need not exist. -/
def appendTo (name : String) (documents : List Document) :
    List (String × List Document) → List (String × List Document)
  | [] => [(name, documents)]
  | entry :: entries =>
    if entry.1 = name then (name, entry.2 ++ documents) :: entries
    else entry :: appendTo name documents entries

/-- Adds documents under a name. -/
def addNamed (c : Collections) (name : String) (documents : List Document) : Collections :=
  ⟨appendTo name documents c.entries⟩

/-- Adding documents under a name puts them behind those that are there. -/
theorem find?_addNamed_self (c : Collections) (name : String) (documents : List Document) :
    (c.addNamed name documents).find? name = some ((c.find? name).getD [] ++ documents) := by
  obtain ⟨entries⟩ := c
  simp only [addNamed, find?]
  induction entries with
  | nil => simp [appendTo]
  | cons entry entries ih => grind [appendTo]

/-- Adding documents under a name leaves all other names alone. -/
theorem find?_addNamed_of_ne {c : Collections} {name other : String} (documents : List Document)
    (h : name ≠ other) : (c.addNamed name documents).find? other = c.find? other := by
  obtain ⟨entries⟩ := c
  simp only [addNamed, find?]
  induction entries with
  | nil => simp [appendTo, h]
  | cons entry entries ih => grind [appendTo]

/-- Makes a keyspace exist. -/
def create (c : Collections) (k : Keyspace) : Collections := c.addNamed k.dotted []

/-- Adds documents to a keyspace, which then exists. -/
def insert (c : Collections) (k : Keyspace) (documents : List Document) : Collections :=
  c.addNamed k.dotted documents

/-- The documents of a keyspace, if it exists. -/
def documents? (c : Collections) (k : Keyspace) : Option (List Document) := c.find? k.dotted

/-- The documents of a keyspace; one that does not exist holds none. -/
def documents (c : Collections) (k : Keyspace) : List Document := (c.documents? k).getD []

end Collections
end EntityQuery
