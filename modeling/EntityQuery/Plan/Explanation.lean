import EntityQuery.Plan.Basic
import EntityQuery.Result.Materialized

/-!
# Explanations

An explanation says what a provider makes of a query: the plan, or why there is none.

* `Explanation.toDocument` is the explanation as a document.
* `Explanation.text` is the explanation as a text of several lines.
-/

namespace EntityQuery

/-- What a provider makes of a query. -/
inductive Explanation where
  | accepted (plan : Plan)
  /-- There is no plan, for a reason that has a code and a text. -/
  | rejected (code reason : String)

namespace Explanation

/-- The explanation as a document. -/
def toDocument : Explanation → Document
  | .accepted plan => .ofFields
    [("accepted", .bool true), ("plan_key", .string plan.key.text),
      ("statement", .string plan.text),
      ("parameters", .array (plan.entries.map ParameterEntry.toDocument)),
      ("shape", .string plan.shape.kindName),
      ("leaves", .array (plan.shape.leaves.map Leaf.toDocument))]
  | .rejected code reason => .ofFields
    [("accepted", .bool false), ("parameters", .array []), ("leaves", .array []),
      ("rejection_code", .string code), ("rejection_reason", .string reason)]

/-- The line of a parameter. -/
def parameterLine (e : ParameterEntry) : String := "  - $" ++ e.name ++ ": " ++ e.scalarType.name

/-- The line of a scalar; a question mark tells that it may be missing. -/
def leafLine (l : Leaf) : String :=
  "  " ++ displayPath l.path ++ (if l.required then "" else "?") ++ ": " ++ l.scalarType.name

/-- The lines of the explanation. -/
def lines : Explanation → List String
  | .accepted plan =>
    ["=== EXPLAIN PLAN ===", "Status: ACCEPTED", "Plan Key: " ++ plan.key.text,
      "Statement: " ++ plan.text] ++
      (if plan.entries.isEmpty then [] else "Parameters:" :: plan.entries.map parameterLine) ++
      ("Shape: " ++ plan.shape.kindName) :: plan.shape.leaves.map leafLine
  | .rejected code reason =>
    ["=== EXPLAIN PLAN ===", "Status: REJECTED", "Error Code: " ++ code, "Reason: " ++ reason]

/-- The explanation as a text, each line of which ends with a line feed. -/
def text (e : Explanation) : String := String.join (e.lines.map fun line => line ++ "\n")

end Explanation
end EntityQuery
