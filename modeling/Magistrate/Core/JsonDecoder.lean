import Magistrate.Core.CanonicalJson

/-!
# Decoding JSON

The decoder of the host language descends into a text and returns a value with what
follows it. A text in canonical form decodes to its value, with the members of
every object in the order of their names.
-/

namespace Magistrate

namespace PyText

/-- White space between the tokens of a text. -/
def isBlankCode (code : ℕ) : Bool := [0x20, 0x09, 0x0A, 0x0D].contains code

/-- What is left after white space. -/
def skipBlanks (text : PyText) : PyText := text.dropWhile isBlankCode

/-- A digit of the base ten. -/
def isDigit (code : ℕ) : Bool := decide (48 ≤ code ∧ code ≤ 57)

/-- The value of a digit of the base sixteen. -/
def hexValue? (code : ℕ) : Option ℕ :=
  if isDigit code then some (code - 48)
  else if 97 ≤ code ∧ code ≤ 102 then some (code - 87)
  else if 65 ≤ code ∧ code ≤ 70 then some (code - 55)
  else none

/-- The code of an escape by its four digits, and what follows it. -/
def unicodeEscape? : PyText → Option (ℕ × PyText)
  | a :: b :: c :: d :: rest => do
    let a ← hexValue? a
    let b ← hexValue? b
    let c ← hexValue? c
    let d ← hexValue? d
    return (((a * 16 + b) * 16 + c) * 16 + d, rest)
  | _ => none

/-- An escape of a low surrogate, and what follows it. -/
def lowSurrogate? : PyText → Option (ℕ × PyText)
  | 0x5C :: 0x75 :: rest =>
    (unicodeEscape? rest).filter fun escape => decide (0xDC00 ≤ escape.1 ∧ escape.1 ≤ 0xDFFF)
  | _ => none

/-- The escapes of one letter. -/
def shortEscapes : List (ℕ × ℕ) :=
  [(0x22, 0x22), (0x5C, 0x5C), (0x2F, 0x2F), (0x62, 0x08), (0x66, 0x0C), (0x6E, 0x0A),
    (0x72, 0x0D), (0x74, 0x09)]

/-- The code of the escape after a backslash, and what follows it. -/
def escape? : PyText → Option (ℕ × PyText)
  | [] => none
  | 0x75 :: rest => do
    let (high, rest) ← unicodeEscape? rest
    -- a high surrogate joins the low one that is escaped right after it
    match (lowSurrogate? rest).filter fun _ => decide (0xD800 ≤ high ∧ high ≤ 0xDBFF) with
    | some (low, rest) => return (0x10000 + (high - 0xD800) * 0x400 + (low - 0xDC00), rest)
    | none => return (high, rest)
  | code :: rest => (shortEscapes.lookup code).map fun escaped => (escaped, rest)

/-- `scanstring`: the text up to the closing quote, and what follows it. -/
def scanString : ℕ → PyText → Option (PyText × PyText)
  | 0, _ => none
  | _, [] => none
  | fuel + 1, code :: rest =>
    if code = 0x22 then some ([], rest)
    else do
      -- no control character may stand for itself
      guard (0x20 ≤ code)
      let (code, rest) ← if code = 0x5C then escape? rest else some (code, rest)
      let (text, rest) ← scanString fuel rest
      return (code :: text, rest)

/-- The digits after a mark, with it, if there are any, and what follows them. -/
def markedDigits (marks : List ℕ) (text : PyText) : PyText × PyText :=
  match text with
  | [] => ([], [])
  | mark :: rest =>
    if marks.contains mark ∧ rest.takeWhile isDigit ≠ [] then
      (mark :: rest.takeWhile isDigit, rest.dropWhile isDigit)
    else ([], text)

/-- An exponent, if there is one, and what follows it. -/
def exponent (text : PyText) : PyText × PyText :=
  match text with
  | mark :: sign :: rest =>
    if [0x45, 0x65].contains mark ∧ [0x2B, 0x2D].contains sign then
      match markedDigits [sign] (sign :: rest) with
      | ([], _) => ([], text)
      | (digits, rest) => (mark :: digits, rest)
    else markedDigits [0x45, 0x65] text
  | _ => ([], text)

/-- The digits of an integer without a needless zero before them, and what follows them. -/
def integerDigits : PyText → Option (PyText × PyText)
  | [] => none
  | 0x30 :: rest => some ([0x30], rest)
  | code :: rest =>
    if isDigit code then
      some (code :: rest.takeWhile isDigit, rest.dropWhile isDigit)
    else none

/-- `int` of digits -/
def decimal (digits : PyText) : ℕ := digits.foldl (fun value code => value * 10 + (code - 48)) 0

/-- A text as a string, which it is where it has no surrogates. -/
def toText (text : PyText) : String := String.ofList (text.map Char.ofNat)

end PyText

namespace PyJson

open PyText

/-- A number, and what follows it. -/
def scanNumber (source : PyText) : Option (PyJson × PyText) := do
  let (sign, unsigned) := if source.head? = some 0x2D then ([0x2D], source.tail) else ([], source)
  let (digits, rest) ← integerDigits unsigned
  let (fraction, rest) := markedDigits [0x2E] rest
  let (power, rest) := exponent rest
  if fraction = [] ∧ power = [] then
    return (.int (if sign = [] then decimal digits else -(decimal digits : ℤ)), rest)
  else return (.real (toText (sign ++ digits ++ fraction ++ power)), rest)

/-- The words of the decoder, with those for numbers that are none. -/
def words : List (PyText × PyJson) :=
  [(of "null", .null), (of "true", .bool true), (of "false", .bool false), (of "NaN", .real "NaN"),
    (of "Infinity", .real "Infinity"), (of "-Infinity", .real "-Infinity")]

/-- One of the words, and what follows it. -/
def scanWord (source : PyText) : Option (PyJson × PyText) :=
  (words.find? fun word => word.1.isPrefixOf source).map fun word =>
    (word.2, source.drop word.1.length)

section Scanning

variable {α : Type}

/-- Parts with commas between them up to a closing bracket, and what follows it. -/
def scanParts (closing : ℕ) (scan : PyText → Option (α × PyText)) :
    ℕ → PyText → Option (List α × PyText)
  | 0, _ => none
  | fuel + 1, source => do
    let (part, rest) ← scan source
    let rest := skipBlanks rest
    if rest.head? = some closing then return ([part], rest.tail)
    else do
      guard (rest.head? = some 0x2C)
      let (parts, rest) ← scanParts closing scan fuel (skipBlanks rest.tail)
      return (part :: parts, rest)

/-- The parts after an opening bracket, of which there may be none. -/
def scanBracketed (closing : ℕ) (scan : PyText → Option (α × PyText)) (source : PyText) :
    Option (List α × PyText) :=
  let source := skipBlanks source
  if source.head? = some closing then some ([], source.tail)
  else scanParts closing scan source.length source

/-- A name in quotes, the colon and a value, and what follows it. -/
def scanMember (scan : PyText → Option (α × PyText)) (source : PyText) :
    Option ((PyText × α) × PyText) := do
  guard (source.head? = some 0x22)
  let (name, rest) ← scanString source.length source.tail
  let rest := skipBlanks rest
  guard (rest.head? = some 0x3A)
  let (value, rest) ← scan (skipBlanks rest.tail)
  return ((name, value), rest)

end Scanning

/-- A member takes the place of the one of its name, or comes last. -/
def putMember (fields : List (PyText × PyJson)) (member : PyText × PyJson) :
    List (PyText × PyJson) :=
  if member.1 ∈ fields.map Prod.fst then
    fields.map fun field => if field.1 = member.1 then member else field
  else fields ++ [member]

/-- `scan_once`: a value, and what follows it, where values are nested less deep than a bound. -/
def scanOnce : ℕ → PyText → Option (PyJson × PyText)
  | 0, _ => none
  | _, [] => none
  | depth + 1, code :: rest =>
    if code = 0x22 then
      (scanString (rest.length + 1) rest).map fun scanned => (.text scanned.1, scanned.2)
    else if code = 0x5B then
      (scanBracketed 0x5D (scanOnce depth) rest).map fun scanned => (.list scanned.1, scanned.2)
    else if code = 0x7B then
      (scanBracketed 0x7D (scanMember (scanOnce depth)) rest).map fun scanned =>
        (.dict (scanned.1.foldl putMember []), scanned.2)
    else (scanNumber (code :: rest)).or (scanWord (code :: rest))

/-- `json.loads` of a text, unless it raises -/
def loads (source : PyText) : Option PyJson := do
  -- a byte order mark is refused
  guard (source.head? ≠ some 0xFEFF)
  let (value, rest) ← scanOnce (source.length + 1) (skipBlanks source)
  guard (skipBlanks rest = [])
  return value

end PyJson

end Magistrate
