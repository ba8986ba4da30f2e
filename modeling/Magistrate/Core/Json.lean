import Mathlib.Data.List.Basic
import Mathlib.Data.Int.Notation

/-!
# Decoded JSON values

The values a JSON decoder returns, with the lookups and the truth test of the
host language. Decoded objects are association lists with distinct names.
-/

namespace Magistrate

/-- A decoded JSON value; only the truth of a non-integral number is ever observed. -/
inductive Json where
  | null
  | bool (value : Bool)
  | int (value : ℤ)
  | real (nonzero : Bool)
  | str (value : String)
  | arr (items : List Json)
  | obj (fields : List (String × Json))

namespace Json

/-- `dict.get`: a missing member reads as null, and only objects have members. -/
def get (value : Json) (name : String) : Json :=
  match value with
  | .obj fields => (fields.lookup name).getD .null
  | _ => .null

/-- The value is an object. -/
def isObj : Json → Bool
  | .obj _ => true
  | _ => false

/-- The value is an object with exactly the given member names. -/
def namesAre (value : Json) (names : List String) : Bool :=
  match value with
  | .obj fields =>
    fields.all (fun field => names.contains field.1) &&
      names.all fun name => (fields.lookup name).isSome
  | _ => false

/-- The text of a string value. -/
def str? : Json → Option String
  | .str value => some value
  | _ => none

/-- The value of an integer; booleans are not integers. -/
def int? : Json → Option ℤ
  | .int value => some value
  | _ => none

/-- The value of a boolean. -/
def bool? : Json → Option Bool
  | .bool value => some value
  | _ => none

/-- The items of an array. -/
def arr? : Json → Option (List Json)
  | .arr items => some items
  | _ => none

/-- The truth value of a decoded value. -/
def truthy : Json → Bool
  | .null => false
  | .bool value => value
  | .int value => value != 0
  | .real nonzero => nonzero
  | .str value => value != ""
  | .arr items => !items.isEmpty
  | .obj fields => !fields.isEmpty

/-- Arrays and objects cannot be bound to a column. -/
def isScalar : Json → Bool
  | .arr _ => false
  | .obj _ => false
  | _ => true

end Json

end Magistrate
