import BrightLexer.Json.Basic
import BrightLexer.Token.Basic

/-!
# How tokens are dumped

A token is dumped as one line of text (`Token.dumpLine`) or as a JSON object (`Token.record`). Both
show its place, its kind, its text and its value. A line end in the text of a token is written as a
backslash and an `n`, so a line is always one token.

A single precision value is written in JSON as the double precision number nearest to its shortest
decimal, not as its own exact value, so `0.1` is written as `0.1`.
-/

namespace BrightLexer

/-- The value of a literal in JSON. -/
def Literal.json : Literal → Json
  | .string text => .string text
  | .integer v => .integer v.toInt
  | .longInteger v => .integer v.toInt
  | .float v => ((readBinary? binary64 v.shown.toList).map .real).getD .null
  | .double v => .real v

/-- A text with each line end written as a backslash and an `n`. -/
def onOneLine (cs : List Char) : List Char :=
  cs.flatMap fun c => if c = '\n' then ['\\', 'n'] else [c]

namespace Token

/-- A token as a line of text, without its line end. -/
def dumpLine (t : Token) : String :=
  let text := String.ofList (onOneLine t.text.toList)
  let value := match t.literal with
    | some literal => " = " ++ literal.shown
    | none => ""
  s!"{t.line}:{t.column} {t.kind.name} {text}{value}"

/-- A token as a JSON object. -/
def record (t : Token) : Json :=
  .object [("kind", .string t.kind.name), ("text", .string t.text), ("line", .integer t.line),
    ("column", .integer t.column), ("literal", (t.literal.map Literal.json).getD .null)]

end Token

/-- Tokens as lines of text, each with its line end. -/
def dumpText (tokens : List Token) : String :=
  String.join (tokens.map fun t => t.dumpLine ++ "\n")

/-- Tokens as a JSON array. -/
def dumpJson (tokens : List Token) : Json := .array (tokens.map Token.record)

end BrightLexer
