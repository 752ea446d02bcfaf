import BrightLexer.Toml.Reader

/-!
# Blanks, comments and strings in TOML

Strings come in four forms: between single or triple quotes, with escapes (double quotes) or as they
are (apostrophes). A string between triple quotes may go over several lines; a line end right behind
its opening is not part of it, a line end written as two characters counts as one, and up to two
quotes may stand anywhere in it, also before the closing ones.
-/

namespace BrightLexer.Toml

open Reader

/-- A space or a tab. -/
def isBlankChar (c : Char) : Bool := c == ' ' || c == '\t'

/-- A character that may stand on a line: no control character but the tab. -/
def isLineChar (c : Char) : Bool := c == '\t' || (32 ≤ c.toNat && c.toNat != 127)

/-- A digit in base 16. -/
def isHexDigit (c : Char) : Bool :=
  c.isDigit || ('a' ≤ c && c ≤ 'f') || ('A' ≤ c && c ≤ 'F')

/-- The value of a digit in any base up to 16. -/
def hexDigitValue (c : Char) : Nat :=
  if c.isDigit then c.toNat - '0'.toNat else c.toLower.toNat - 'a'.toNat + 10

/-- The number a run of digits denotes. -/
def valueInBase (base : Nat) (ds : List Char) : Nat :=
  ds.foldl (fun n d => base * n + hexDigitValue d) 0

/-- Passes over spaces and tabs. -/
def blanks : Reader Unit := do let _ ← charsWhile isBlankChar

/-- Takes a line end of either style. -/
def newline : Reader Unit := expect "\n" <|> expect "\r\n"

/-- Takes a comment, without the line end behind it. -/
def comment : Reader Unit := do
  expect "#"
  let _ ← charsWhile isLineChar

/-- Takes what may stand behind a statement, up to the end of the line or of the text. -/
def lineRest : Reader Unit := do
  blanks
  let _ ← optional comment
  newline <|> atEnd

/-- Passes over blanks, line ends and comments. -/
def spacing : Reader Unit := do
  let blank : Reader Unit := do let _ ← char isBlankChar
  let _ ← many (blank <|> newline <|> (comment *> newline))

/-- Takes the digits of a code point and gives the character. -/
def codePoint (width : Nat) : Reader Char := do
  let n := valueInBase 16 (← exactly isHexDigit width)
  if n.isValidChar then return Char.ofNat n else failure

/-- Takes an escape and gives the character it stands for. -/
def escape : Reader Char := do
  expect "\\"
  match ← char fun _ => true with
  | 'b' => return '\x08'
  | 't' => return '\t'
  | 'n' => return '\n'
  | 'f' => return '\x0c'
  | 'r' => return '\r'
  | '"' => return '"'
  | '\\' => return '\\'
  | 'u' => codePoint 4
  | 'U' => codePoint 8
  | _ => failure

/-- A string between double quotes. -/
def basicString : Reader (List Char) := do
  expect "\""
  let cs ← many (char (fun c => isLineChar c && c != '"' && c != '\\') <|> escape)
  expect "\""
  return cs

/-- A string between apostrophes. -/
def literalString : Reader (List Char) := do
  expect "'"
  let cs ← charsWhile fun c => isLineChar c && c != '\''
  expect "'"
  return cs

/-- Takes a backslash at the end of a line, with the line end and all blanks and line ends behind it. -/
def lineJoin : Reader Unit := do
  expect "\\"
  blanks
  newline
  let blank : Reader Unit := do let _ ← char isBlankChar
  let _ ← many (blank <|> newline)

/-- Takes one or two quotes that do not belong to a run of three. -/
def innerQuotes (quote : Char) : Reader (List Char) := do
  let quotes ← charsWhile (· == quote)
  if 1 ≤ quotes.length ∧ quotes.length ≤ 2 then return quotes else failure

/-- Takes the three closing quotes, and gives the one or two before them that belong to the string. -/
def closingQuotes (quote : Char) : Reader (List Char) := do
  let quotes ← many (char (· == quote))
  if 3 ≤ quotes.length ∧ quotes.length ≤ 5 then return quotes.drop 3 else failure

/-- A line end in a string. -/
def innerNewline : Reader (List Char) := newline *> pure ['\n']

/-- A string between triple double quotes. -/
def multilineBasicString : Reader (List Char) := do
  expect "\"\"\""
  let _ ← optional newline
  let plain : Reader (List Char) :=
    (fun c => [c]) <$> char fun c => isLineChar c && c != '"' && c != '\\'
  let joined : Reader (List Char) := lineJoin *> pure []
  let escaped : Reader (List Char) := (fun c => [c]) <$> escape
  let pieces ← many (plain <|> joined <|> escaped <|> innerNewline <|> innerQuotes '"')
  return pieces.flatten ++ (← closingQuotes '"')

/-- A string between triple apostrophes. -/
def multilineLiteralString : Reader (List Char) := do
  expect "\x27\x27\x27"
  let _ ← optional newline
  let plain : Reader (List Char) := (fun c => [c]) <$> char fun c => isLineChar c && c != '\''
  let pieces ← many (plain <|> innerNewline <|> innerQuotes '\'')
  return pieces.flatten ++ (← closingQuotes '\'')

/-- A string of any form. -/
def anyString : Reader (List Char) :=
  multilineBasicString <|> basicString <|> multilineLiteralString <|> literalString

end BrightLexer.Toml
