import BrightLexer.Number.Style

/-!
# JSON values and their text

A JSON value keeps the fields of an object in the order in which they are written. It is written
compactly or indented by two spaces a level; both layouts are one function, which asks the layout for
its line breaks and for the sign behind a key, so they differ in blanks only.

A floating point number is written in the fewest digits that read back. One that is infinite or no
number has no JSON form and is written as `null`.
-/

namespace BrightLexer

/-- A JSON value. -/
inductive Json where
  | null
  | bool (b : Bool)
  | integer (i : Int)
  | real (x : Binary64)
  | string (s : String)
  | array (elements : List Json)
  | object (fields : List (String × Json))

/-- Numbers from `0.00001` up to sixteen digits before the point have no exponent, a whole number shows
a fraction, and of two equally near shortest decimals the even one is written. -/
def jsonNumber : NumberStyle := ⟨.even, fun e => decide (-5 ≤ e) && decide (e ≤ 15), true⟩

namespace Json

/-- How a value is spread over lines. -/
inductive Layout where
  /-- On one line, without blanks. -/
  | compact
  /-- Each element and each field on a line of its own. -/
  | indented
deriving DecidableEq

/-- What stands before an element `depth` levels deep. -/
def Layout.lineBreak : Layout → Nat → String
  | .compact, _ => ""
  | .indented, depth => "\n" ++ String.ofList (List.replicate (2 * depth) ' ')

/-- What stands between a key and its value. -/
def Layout.colon : Layout → String
  | .compact => ":"
  | .indented => ": "

/-- Two digits in base 16. -/
def hexPair (n : Nat) : List Char := [Nat.digitChar (n / 16), Nat.digitChar (n % 16)]

/-- A character as it stands in a JSON string. -/
def escapeChar (c : Char) : List Char :=
  if c = '"' ∨ c = '\\' then ['\\', c]
  else if c = '\x08' then ['\\', 'b']
  else if c = '\x0c' then ['\\', 'f']
  else if c = '\n' then ['\\', 'n']
  else if c = '\r' then ['\\', 'r']
  else if c = '\t' then ['\\', 't']
  else if c.toNat < 32 then ['\\', 'u', '0', '0'] ++ hexPair c.toNat
  else [c]

/-- A text as a JSON string. -/
def quote (s : String) : String :=
  "\"" ++ String.ofList (s.toList.flatMap escapeChar) ++ "\""

mutual

/-- The text of a value that stands `depth` levels deep. -/
def write (layout : Layout) (depth : Nat) : Json → String
  | .null => "null"
  | .bool b => if b then "true" else "false"
  | .integer i => toString i
  | .real x => if x.isFinite then String.ofList (jsonNumber.writeBinary x) else "null"
  | .string s => quote s
  | .array [] => "[]"
  | .array (x :: xs) =>
    "[" ++ layout.lineBreak (depth + 1) ++ x.write layout (depth + 1) ++
      writeElements layout (depth + 1) xs ++ layout.lineBreak depth ++ "]"
  | .object [] => "\x7b\x7d"
  | .object ((key, x) :: fields) =>
    "\x7b" ++ layout.lineBreak (depth + 1) ++ quote key ++ layout.colon ++
      x.write layout (depth + 1) ++ writeFields layout (depth + 1) fields ++
      layout.lineBreak depth ++ "\x7d"

/-- The text of the elements behind the first. -/
def writeElements (layout : Layout) (depth : Nat) : List Json → String
  | [] => ""
  | x :: xs =>
    "," ++ layout.lineBreak depth ++ x.write layout depth ++ writeElements layout depth xs

/-- The text of the fields behind the first. -/
def writeFields (layout : Layout) (depth : Nat) : List (String × Json) → String
  | [] => ""
  | (key, x) :: fields =>
    "," ++ layout.lineBreak depth ++ quote key ++ layout.colon ++ x.write layout depth ++
      writeFields layout depth fields

end

/-- The text of a value on one line. -/
def compactText (x : Json) : String := x.write .compact 0

/-- The text of a value over indented lines. -/
def indentedText (x : Json) : String := x.write .indented 0

end Json

end BrightLexer
