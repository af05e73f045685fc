import EntityQuery.Model.Validation
import EntityQuery.Query.Basic
import EntityQuery.Text.Case

/-!
# Sets of entities

An entity under an alias, from which queries start and to which paths and navigations refer.

* `ValidModel.entitySet` is the set of an entity with documents of its own.
* `ValidModel.property` is the property at the end of a path of members.
* `ValidModel.correlation` is a navigation, ready to be correlated with the rows of a query.
-/

namespace EntityQuery

/-- An entity under an alias. -/
structure EntitySet where
  entity : String
  aliasName : String
deriving DecidableEq, Repr

namespace EntitySet

/-- The query for all documents of the entity. -/
def query (s : EntitySet) : Query := .source s.entity s.aliasName

/-- The set with another alias. -/
def withAlias (s : EntitySet) (aliasName : String) : EntitySet := { s with aliasName }

end EntitySet

/-- The set that a correlated navigation leads to. -/
def Correlation.targetSet (c : Correlation) : EntitySet := ⟨c.target, c.aliasName⟩

/-- A navigation with another alias. -/
def Correlation.withAlias (c : Correlation) (aliasName : String) : Correlation :=
  { c with aliasName }

namespace ValidModel

/-- The set of an entity with documents of its own.  Its alias is the name of the entity in lower
case. -/
def entitySet (m : ValidModel) (name : String) : Except QueryError EntitySet :=
  match m.entity? name with
  | none => .error (.unknownEntity name)
  | some e => if e.owned then .error (.notQueryable name) else .ok ⟨name, lowerCase name⟩

/-- The entity of a set. -/
def entityOf (m : ValidModel) (s : EntitySet) : Except QueryError Entity :=
  match m.entity? s.entity with
  | some e => .ok e
  | none => .error (.unknownEntity s.entity)

/-- Follows a path of members.  All but the last one lead to an object inside the document. -/
def followPath (m : ValidModel) (s : EntitySet) (member : String) (e : Entity) (path : List String)
    (nullable : Bool) : List String → Except QueryError PropertyPath
  | [] => .error (.unknownMember s.entity member)
  | name :: rest =>
    match e.property? name with
    | some p =>
      if rest.isEmpty then
        .ok ⟨s.aliasName, s.entity, member, path ++ [p.fieldName], p.scalarType,
          nullable || p.nullable⟩
      else .error (.notScalar e.name name)
    | none =>
      match e.navigation? name with
      | none => .error (.unknownMember e.name name)
      | some n =>
        match n.kind with
        | .embedded true => .error (.collectionInPath e.name name)
        | .embedded false =>
          if rest.isEmpty then .error (.notScalar e.name name)
          else
            match m.entity? n.target with
            | none => .error (.unknownEntity n.target)
            | some target =>
              m.followPath s member target (path ++ [n.fieldName]) (nullable || n.optional) rest
        | _ => .error (.notScalar e.name name)

/-- The property at the end of a path of members, which dots separate. -/
def property (m : ValidModel) (s : EntitySet) (member : String) :
    Except QueryError PropertyPath := do
  let e ← m.entityOf s
  m.followPath s member e [] false (member.splitOn ".")

/-- How a navigation from an entity is correlated, or why it cannot be. -/
def correlationKind (source target : Entity) (n : Navigation) : Except String CorrelationKind :=
  match n.kind with
  | .embedded true => .ok (.unnest [n.fieldName])
  | .embedded false => .error "single embedded objects are read through property paths"
  | .reference foreignKey =>
    match source.property? foreignKey, target.key? with
    | none, _ => .error "foreign key property missing"
    | _, none => .error "target has no key"
    | some p, some k => .ok (.lookup [p.fieldName] [k.fieldName])
  | .collection foreignKey =>
    match target.property? foreignKey, source.key? with
    | none, _ => .error "foreign key property missing"
    | _, none => .error "source has no key"
    | some p, some k => .ok (.lookup [k.fieldName] [p.fieldName])
  | .through _ => .error "multi-hop navigations have no translation"

/-- A navigation from a set.  Its alias is its name. -/
def correlation (m : ValidModel) (s : EntitySet) (name : String) :
    Except QueryError Correlation := do
  let source ← m.entityOf s
  match source.navigation? name with
  | none => .error (.unknownMember source.name name)
  | some n =>
    match m.entity? n.target with
    | none => .error (.unknownEntity n.target)
    | some target =>
      match correlationKind source target n with
      | .ok kind => .ok ⟨s.aliasName, name, target.name, name, kind, false⟩
      | .error reason => .error (.unsupportedNavigation source.name name reason)

end ValidModel
end EntityQuery
