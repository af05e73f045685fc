import EntityQuery.Model.Basic
import EntityQuery.Model.Issue
import EntityQuery.Scalar.Registry

/-!
# Validation of models

* `Model.issues` are all issues of a model, in the order of its parts; cycles of ownership come
  last.
* `Model.cycleFrom?` searches such a cycle.  A path that it follows never visits an entity twice,
  so the number of entities bounds its length.
* `Model.validate` makes a `ValidModel` of a model without errors.
-/

namespace EntityQuery

/-! ## Entities on their own -/

/-- The issues about the place of an entity. -/
def Entity.placeIssues (defaults : DefaultKeyspace) (e : Entity) : List Issue :=
  if e.owned then
    if e.keyspace.isSome || e.collection.isSome then [⟨e.name, none, .ownedWithKeyspace⟩] else []
  else
    (if (defaults.resolve e).isNone then [⟨e.name, none, .missingKeyspace⟩] else []) ++
      if e.key?.isNone then [⟨e.name, none, .missingKey⟩] else []

/-- The names of members so far, and the fields that they are in, the latest first. -/
structure Members where
  names : List String := []
  fields : List (String × String) := []

/-- The issue of a name that another member has. -/
def Members.nameIssues (ms : Members) (entity name : String) : List Issue :=
  if ms.names.contains name then [⟨entity, some name, .duplicateMember⟩] else []

/-- The issue of a field that another member is in. -/
def Members.fieldIssues (ms : Members) (entity name field : String) : List Issue :=
  match ms.fields.find? fun f => f.1 == field with
  | some (_, other) => [⟨entity, some name, .duplicateField field other⟩]
  | none => []

/-- The issues of properties, and the members after them. -/
def propertyIssues (registry : Registry) (entity : String) :
    List Property → Members → List Issue × Members
  | [], ms => ([], ms)
  | p :: ps, ms =>
    let here := ms.nameIssues entity p.name ++ ms.fieldIssues entity p.name p.fieldName ++
      if registry.contains p.scalarType then []
      else [⟨entity, some p.name, .unmappedProperty p.scalarType⟩]
    let rest := propertyIssues registry entity ps
      ⟨p.name :: ms.names, (p.fieldName, p.name) :: ms.fields⟩
    (here ++ rest.1, rest.2)

/-- The issues of the names and fields of navigations. -/
def navigationNameIssues (entity : String) : List Navigation → Members → List Issue
  | [], _ => []
  | n :: ns, ms =>
    ms.nameIssues entity n.name ++
      (if n.isEmbedded then ms.fieldIssues entity n.name n.fieldName else []) ++
      navigationNameIssues entity ns
        ⟨n.name :: ms.names,
          if n.isEmbedded then (n.fieldName, n.name) :: ms.fields else ms.fields⟩

/-- The issues of the members of an entity. -/
def Entity.memberIssues (registry : Registry) (e : Entity) : List Issue :=
  let (issues, members) := propertyIssues registry e.name e.properties {}
  issues ++ navigationNameIssues e.name e.navigations members

/-! ## Relations -/

/-- The defects of a lookup of `target`, in which a property of `owner` holds the key of
`keyOwner`. -/
def lookupDefects (target owner : Entity) (foreignKey : String) (keyOwner : Entity) :
    List Defect :=
  let property := owner.property? foreignKey
  let defects :=
    (if target.isRoot then [] else [.referenceToOwned target.name]) ++
      (if property.isNone then [.missingForeignKey foreignKey owner.name] else []) ++
      (if keyOwner.key?.isNone && keyOwner.isRoot then [.missingLookupKey keyOwner.name] else []) ++
      match property, keyOwner.key? with
      | some p, some k =>
        if p.scalarType.comparable k.scalarType then []
        else [.foreignKeyType p.scalarType k.scalarType]
      | _, _ => []
  if defects.isEmpty then [.correlatedLookup target.name] else defects

/-- The defects of a navigation from an entity. -/
def Model.navigationDefects (m : Model) (e : Entity) (n : Navigation) : List Defect :=
  match m.entity? n.target with
  | none => [.unknownTarget n.target]
  | some target =>
    match n.kind with
    | .embedded _ => if target.isRoot then [.embeddedRoot target.name] else []
    | .reference foreignKey => lookupDefects target e foreignKey target
    | .collection foreignKey => lookupDefects target target foreignKey e
    | .through via => [.multiHop target.name via]

/-- The issues of the navigations of an entity. -/
def Model.navigationIssues (m : Model) (e : Entity) : List Issue :=
  e.navigations.flatMap fun n =>
    (m.navigationDefects e n).map fun defect => ⟨e.name, some n.name, defect⟩

/-! ## Cycles of ownership -/

/-- The owned entities that an entity embeds. -/
def Model.ownedBy (m : Model) (e : Entity) : List Entity :=
  (e.navigations.filter Navigation.isEmbedded).filterMap fun n =>
    (m.entity? n.target).filter Entity.owned

/-- A way on from `e`, which `path` leads to from `start`, that ends at `start`.  At most `steps`
entities are visited on the way. -/
def Model.cycleFrom? (m : Model) (start : String) : Nat → Entity → List String →
    Option (List String)
  | 0, _, _ => none
  | steps + 1, e, path =>
    (m.ownedBy e).findSome? fun target =>
      if target.name = start then some (path ++ [start])
      else if path.contains target.name then none
      else m.cycleFrom? start steps target (path ++ [target.name])

/-- The cycle of ownership on which an entity is. -/
def Model.cycle? (m : Model) (e : Entity) : Option (List String) :=
  m.cycleFrom? e.name m.entities.length e [e.name]

/-- The members of a cycle in the order of their names. -/
def cycleMembers (cycle : List String) : List String :=
  cycle.dropLast.mergeSort fun a b => decide (a ≤ b)

/-- The issues of cycles through the given entities.  A set of entities that form a cycle is
reported once; `reported` holds those before. -/
def Model.cycleIssues (m : Model) (reported : List (List String)) : List Entity → List Issue
  | [] => []
  | e :: es =>
    match m.cycle? e with
    | none => m.cycleIssues reported es
    | some cycle =>
      let members := cycleMembers cycle
      if reported.contains members then m.cycleIssues reported es
      else ⟨e.name, none, .ownershipCycle cycle⟩ :: m.cycleIssues (members :: reported) es

/-! ## Models -/

/-- The issues of an entity. -/
def Model.entityIssues (m : Model) (registry : Registry) (defaults : DefaultKeyspace)
    (e : Entity) : List Issue :=
  e.placeIssues defaults ++ e.memberIssues registry ++ m.navigationIssues e

/-- The issues of entities; `seen` holds the names of those before. -/
def Model.issuesOf (m : Model) (registry : Registry) (defaults : DefaultKeyspace)
    (seen : List String) : List Entity → List Issue
  | [] => []
  | e :: es =>
    if seen.contains e.name then
      ⟨e.name, none, .duplicateEntity⟩ :: m.issuesOf registry defaults seen es
    else m.entityIssues registry defaults e ++ m.issuesOf registry defaults (e.name :: seen) es

/-- All issues of a model. -/
def Model.issues (m : Model) (registry : Registry) (defaults : DefaultKeyspace) : List Issue :=
  m.issuesOf registry defaults [] m.entities ++
    m.cycleIssues [] (m.entities.filter Entity.owned)

/-- A model without errors, with what is noteworthy about it. -/
structure ValidModel where
  model : Model
  defaults : DefaultKeyspace
  warnings : List Issue

namespace ValidModel

/-- The entity of a name. -/
def entity? (m : ValidModel) (name : String) : Option Entity := m.model.entity? name

/-- The keyspace of the entity of a name. -/
def keyspace? (m : ValidModel) (name : String) : Option Keyspace :=
  (m.entity? name).bind m.defaults.resolve

end ValidModel

/-- Checks a model. -/
def Model.validate (m : Model) (registry : Registry) (defaults : DefaultKeyspace) :
    Except InvalidModel ValidModel :=
  let issues := m.issues registry defaults
  if issues.any Issue.isError then .error ⟨issues⟩ else .ok ⟨m, defaults, issues⟩

end EntityQuery
