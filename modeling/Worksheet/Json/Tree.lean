/-!
# Document Trees

The values that settings and snapshot documents are made of.

A tree keeps the fields of an object in the order in which they were written,
with repetitions, because whether a repeated field is an error depends on
what the object is read as. It also keeps apart the literals that are well
formed but cannot be read as anything, such as a number too large for a
double: a document may contain one as long as nobody asks for its value.

## Main definitions

* `Json`: The trees.
* `Json.isReadable`: Trees in which every literal has a value.
* `Json.depth`: How deep arrays and objects are nested.
* `Json.find?`: The first field of a name.
-/

namespace Worksheet

/-- A document value. -/
inductive Json where
  | null
  | bool (b : Bool)
  /-- A number written without a point or exponent, in the 64-bit range. -/
  | int (n : Int)
  | float (x : Float)
  | string (s : String)
  | array (items : List Json)
  | object (fields : List (String × Json))
  /-- A literal without a value: a number out of range, or a text with half a
      surrogate pair in it. It may be passed over, and never read. -/
  | unreadable

namespace Json

instance : Inhabited Json := ⟨.null⟩

mutual

/-- Has every literal of the tree a value? -/
def isReadable : Json → Bool
  | .unreadable => false
  | .array items => areReadable items
  | .object fields => fieldsAreReadable fields
  | _ => true

/-- Has every literal of these trees a value? -/
def areReadable : List Json → Bool
  | [] => true
  | j :: js => isReadable j && areReadable js

/-- Has every literal of these fields a value? -/
def fieldsAreReadable : List (String × Json) → Bool
  | [] => true
  | (_, j) :: fs => isReadable j && fieldsAreReadable fs

end

mutual

/-- The number of arrays and objects around the innermost value. -/
def depth : Json → Nat
  | .array items => depths items + 1
  | .object fields => fieldDepths fields + 1
  | _ => 0

/-- The greatest depth among trees. -/
def depths : List Json → Nat
  | [] => 0
  | j :: js => max (depth j) (depths js)

/-- The greatest depth among fields. -/
def fieldDepths : List (String × Json) → Nat
  | [] => 0
  | (_, j) :: fs => max (depth j) (fieldDepths fs)

end

/-- The first field of a name. -/
def find? (name : String) : List (String × Json) → Option Json
  | [] => none
  | (n, j) :: fs => if n = name then some j else find? name fs

end Json

end Worksheet
