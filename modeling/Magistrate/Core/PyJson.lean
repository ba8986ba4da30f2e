import Mathlib.Algebra.BigOperators.Group.List.Basic
import Mathlib.Algebra.Ring.Nat
import Mathlib.Data.List.Basic
import Mathlib.Data.Int.Notation

/-!
# Decoded values of the host language

Decoded JSON as the host language holds it: strings are sequences of code points,
lone surrogates included, and reading a value that has no such member raises.
-/

namespace Magistrate

/-- A string of the host language: its code points, surrogates included. -/
abbrev PyText := List ℕ

/-- Whether a text is one of some texts can be decided. -/
instance PyText.decidableMem (text : PyText) (texts : List PyText) : Decidable (text ∈ texts) :=
  inferInstanceAs (Decidable ((text : List ℕ) ∈ (texts : List (List ℕ))))

/-- A literal of the source. -/
def PyText.of (literal : String) : PyText := literal.toList.map Char.toNat

/-- A decoded value; a number that is no integer is held by its text. -/
inductive PyJson where
  | null
  | bool (value : Bool)
  | int (value : ℤ)
  | real (text : String)
  | text (value : PyText)
  | list (items : List PyJson)
  | dict (fields : List (PyText × PyJson))

/-- What reading a decoded value can raise. -/
inductive PyRaise where
  | keyError
  | typeError
  | indexError
  | valueError
  deriving DecidableEq, Repr

namespace PyJson

/-- `dict.get` with a default; only objects have members. -/
def getD (value : PyJson) (name : String) (default_ : PyJson) : PyJson :=
  match value with
  | .dict fields => (fields.lookup (PyText.of name)).getD default_
  | _ => default_

/-- `dict.get`: a missing member reads as null. -/
def get (value : PyJson) (name : String) : PyJson := value.getD name .null

/-- The member is there, whatever its value. -/
def has (value : PyJson) (name : String) : Bool :=
  match value with
  | .dict fields => (fields.lookup (PyText.of name)).isSome
  | _ => false

/-- The value is an object. -/
def isDict : PyJson → Bool
  | .dict _ => true
  | _ => false

/-- The value is null. -/
def isNull : PyJson → Bool
  | .null => true
  | _ => false

/-- The value is the literal `True`. -/
def isTrue : PyJson → Bool
  | .bool value => value
  | _ => false

/-- The text of a string value. -/
def text? : PyJson → Option PyText
  | .text value => some value
  | _ => none

/-- The items of an array. -/
def list? : PyJson → Option (List PyJson)
  | .list items => some items
  | _ => none

/-- The value of an integer that is not negative; booleans are not integers. -/
def count? : PyJson → Option ℕ
  | .int value => if 0 ≤ value then some value.toNat else none
  | _ => none

/-- The value is a given literal. -/
def isText (value : PyJson) (literal : String) : Bool := value.text? == some (PyText.of literal)

/-- `value[name]` -/
def item (value : PyJson) (name : String) : Except PyRaise PyJson :=
  match value with
  | .dict fields =>
    match fields.lookup (PyText.of name) with
    | some member => .ok member
    | none => .error .keyError
  | _ => .error .typeError

/-- `value[0]` -/
def first : PyJson → Except PyRaise PyJson
  | .list (value :: _) => .ok value
  | .list [] => .error .indexError
  | .text (code :: _) => .ok (.text [code])
  | .text [] => .error .indexError
  | .dict _ => .error .keyError
  | _ => .error .typeError

/-- `len(value)` -/
def length : PyJson → Except PyRaise ℕ
  | .list items => .ok items.length
  | .text value => .ok value.length
  | .dict fields => .ok fields.length
  | _ => .error .typeError

end PyJson

namespace PyText

/-- A surrogate, which no encoding of a text has. -/
def isSurrogate (code : ℕ) : Bool := decide (0xD800 ≤ code ∧ code ≤ 0xDFFF)

/-- The bytes of a code point. -/
def codeBytes (code : ℕ) : ℕ :=
  if code < 0x80 then 1 else if code < 0x800 then 2 else if code < 0x10000 then 3 else 4

/-- The length of `value.encode("utf-8", errors="strict")`, unless it raises. -/
def utf8Length? (value : PyText) : Option ℕ :=
  if value.any isSurrogate then none else some (value.map codeBytes).sum

/-- `str.isspace` of one character. -/
def isSpace (code : ℕ) : Bool :=
  [0x20, 0x85, 0xA0, 0x1680, 0x2028, 0x2029, 0x202F, 0x205F, 0x3000].contains code ||
    decide (9 ≤ code ∧ code ≤ 13) || decide (0x1C ≤ code ∧ code ≤ 0x1F) ||
    decide (0x2000 ≤ code ∧ code ≤ 0x200A)

/-- `not value.strip()` -/
def isBlank (value : PyText) : Bool := value.all isSpace

/-- A letter or a digit of ASCII. -/
def isAlnum (code : ℕ) : Bool :=
  decide (48 ≤ code ∧ code ≤ 57) || decide (65 ≤ code ∧ code ≤ 90) ||
    decide (97 ≤ code ∧ code ≤ 122)

/-- `^[A-Za-z0-9][A-Za-z0-9…]{0,most}$`, with further characters. -/
def isIdentifier (further : List Char) (most : ℕ) (value : PyText) : Bool :=
  value.head?.any isAlnum &&
    value.all (fun code => isAlnum code || (further.map Char.toNat).contains code) &&
    decide (value.length ≤ most + 1)

end PyText

/-- `str.strip` -/
def stripText (text : String) : String :=
  let isSpace (c : Char) : Bool := PyText.isSpace c.toNat
  String.ofList ((text.toList.dropWhile isSpace).reverse.dropWhile isSpace).reverse

end Magistrate
