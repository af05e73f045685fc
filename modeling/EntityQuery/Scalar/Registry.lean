import EntityQuery.Scalar.Codec

/-!
# Registries of codecs

A registry holds at most one codec for a scalar type; a codec that is registered later takes the
place of an earlier one.

* `Registry.standard` holds the codecs of the built-in types.
* `Registry.find` is the codec of a type, or the refusal of a type without one.
* `Registry.find?_register_self` and `Registry.find?_register_of_ne`: registering a codec decides
  what is found for its type, and nothing else.
-/

namespace EntityQuery

/-- No codec is registered for a type. -/
structure UnsupportedType where
  scalarType : ScalarType
deriving DecidableEq, Repr

namespace UnsupportedType

/-- The code of the error. -/
def code (_ : UnsupportedType) : String := "MAPPING_UNSUPPORTED_TYPE"

/-- The text of the error. -/
def message (e : UnsupportedType) : String :=
  "no type mapping registered for application type '" ++ e.scalarType.name ++ "'"

end UnsupportedType

/-- The codecs that a provider uses. -/
structure Registry where
  codecs : List Codec

namespace Registry

/-- A registry without codecs. -/
def empty : Registry := ⟨[]⟩

/-- Registers a codec in the place of an earlier one for its type. -/
def register (r : Registry) (c : Codec) : Registry :=
  ⟨r.codecs.filter (fun old => old.scalarType != c.scalarType) ++ [c]⟩

/-- The codecs of the built-in types. -/
def standard : Registry := Codec.builtin.foldl register empty

/-- The codec of a type. -/
def find? (r : Registry) (t : ScalarType) : Option Codec :=
  r.codecs.find? fun c => c.scalarType == t

/-- The codec of a type, or the refusal of the type. -/
def find (r : Registry) (t : ScalarType) : Except UnsupportedType Codec :=
  match r.find? t with
  | some c => .ok c
  | none => .error ⟨t⟩

/-- Whether a codec is registered for a type. -/
def contains (r : Registry) (t : ScalarType) : Bool := (r.find? t).isSome

/-- The number of types with a codec. -/
def size (r : Registry) : Nat := r.codecs.length

/-- The types with a codec, in the order of types. -/
def types (r : Registry) : List ScalarType :=
  (r.codecs.map Codec.scalarType).mergeSort ScalarType.inOrder

/-- A codec is found under its type once it is registered. -/
theorem find?_register_self (r : Registry) (c : Codec) :
    (r.register c).find? c.scalarType = some c := by
  have h : (r.codecs.filter fun old => old.scalarType != c.scalarType).find?
      (fun old => old.scalarType == c.scalarType) = none := by simp
  simp only [register, find?, List.find?_append, h]
  simp

/-- Registering a codec leaves all other types alone. -/
theorem find?_register_of_ne {r : Registry} {c : Codec} {t : ScalarType} (h : c.scalarType ≠ t) :
    (r.register c).find? t = r.find? t := by
  have hc : ([c].find? fun c => c.scalarType == t) = none := by simp [h]
  simp only [register, find?, List.find?_append, List.find?_filter, hc, Option.or_none]
  congr 1
  funext old
  grind

end Registry
end EntityQuery
