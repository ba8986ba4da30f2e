import Mathlib.Data.List.Lex
import Mathlib.Data.List.Sort
import Magistrate.Core.PyJson

/-!
# Canonical JSON

The text that the host language writes for a value in canonical form: members in the
order of their names, no blanks, and characters beyond ASCII as they are.
-/

namespace Magistrate

namespace PyText

/-- A digit of the base sixteen. -/
def hexCode (digit : ℕ) : ℕ := if digit < 10 then 48 + digit else 87 + digit

/-- A character within quotes. -/
def escaped (code : ℕ) : PyText :=
  if code = 0x22 then of "\\\""
  else if code = 0x5C then of "\\\\"
  else if code = 0x08 then of "\\b"
  else if code = 0x0C then of "\\f"
  else if code = 0x0A then of "\\n"
  else if code = 0x0D then of "\\r"
  else if code = 0x09 then of "\\t"
  else if code < 0x20 then of "\\u00" ++ [hexCode (code / 16), hexCode (code % 16)]
  else [code]

/-- A text in quotes. -/
def quoted (text : PyText) : PyText := [0x22] ++ text.flatMap escaped ++ [0x22]

/-- Texts between brackets, with commas between them. -/
def bracketed (opening closing : Char) (parts : List PyText) : PyText :=
  [opening.toNat] ++ [0x2C].intercalate parts ++ [closing.toNat]

end PyText

namespace PyJson

/-- A text of the source as a value. -/
def str (text : String) : PyJson := .text (PyText.of text)

/-- A text that may be absent. -/
def optStr (text : Option String) : PyJson := (text.map str).getD .null

/-- An object with the members of the source. -/
def object (fields : List (String × PyJson)) : PyJson :=
  .dict (fields.map fun field => (PyText.of field.1, field.2))

mutual

/-- `json.dumps` with `ensure_ascii=False`, `sort_keys=True` and no blanks. -/
def canonicalJson : PyJson → PyText
  | .null => PyText.of "null"
  | .bool value => PyText.of (if value then "true" else "false")
  | .int value => PyText.of (toString value)
  | .real digits => PyText.of digits
  | .text value => value.quoted
  | .list items => PyText.bracketed '[' ']' (canonicalItems items)
  | .dict fields =>
    PyText.bracketed '\x7b' '\x7d' (((canonicalFields fields).insertionSort fun a b =>
      a.1 ≤ b.1).map fun field => field.1.quoted ++ [0x3A] ++ field.2)

/-- The texts of the items of an array. -/
def canonicalItems : List PyJson → List PyText
  | [] => []
  | value :: rest => canonicalJson value :: canonicalItems rest

/-- The texts of the values of an object, under their names. -/
def canonicalFields : List (PyText × PyJson) → List (PyText × PyText)
  | [] => []
  | (name, value) :: rest => (name, canonicalJson value) :: canonicalFields rest

end

end PyJson

example : PyJson.canonicalJson (.object [("b", .list [.int (-1), .null]), ("a", .str "\"é\n")]) =
    PyText.of "\x7b\"a\":\"\\\"é\\n\",\"b\":[-1,null]\x7d" := by
  decide

end Magistrate
