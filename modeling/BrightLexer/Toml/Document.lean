import BrightLexer.Toml.Scalar

/-!
# TOML documents

A document is read in two steps. Its lines are read as statements, then the statements are put
together into one table by the rules of `Fields.insertAll` and `Fields.addSection`. Either step may
refuse the document.

Arrays and tables in braces may be nested up to `nestingLimit` levels, and a dotted key has no more
parts than that. Reading a value recurses on the levels that are left.
-/

namespace BrightLexer.Toml

open Reader

/-- The number of levels to which values may be nested, and of parts that a key may have. -/
def nestingLimit : Nat := 79

/-- One part of a key. -/
def keyPart : Reader String := do
  let bare : Reader (List Char) := do
    let first ← char isKeyChar
    return first :: (← charsWhile isKeyChar)
  String.ofList <$> (basicString <|> literalString <|> bare)
where
  isKeyChar (c : Char) : Bool := c.isAlphanum || c == '_' || c == '-'

/-- A key of one or more parts: the path to its table, and the last part. -/
def key : Reader (List String × String) := do
  let part : Reader String := blanks *> keyPart <* blanks
  let first ← part
  let more ← many (expect "." *> part)
  let parts := first :: more
  if parts.length ≤ nestingLimit then return (parts.dropLast, parts.getLastD first) else failure

/-- A key and its value, with blanks around the equals sign. -/
def pair (value : Reader Value) : Reader Pair := do
  let (path, key) ← key
  expect "="
  blanks
  return ⟨path, key, ← value⟩

/-- An array, over several lines and with a comma behind its last element if so written. -/
def array (value : Reader Value) : Reader Value := do
  let element : Reader Value := spacing *> value <* spacing
  expect "["
  let elements ← match ← optional element with
    | none => pure []
    | some first =>
      let more ← many (expect "," *> element)
      let _ ← optional (expect ",")
      pure (first :: more)
  spacing
  expect "]"
  return .array elements

/-- A table in braces, on one line and without a comma behind its last key. -/
def inlineTable (value : Reader Value) : Reader Value := do
  let field : Reader Pair := pair value <* blanks
  expect "\x7b"
  let pairs ← match ← optional field with
    | none => pure []
    | some first => (first :: ·) <$> many (expect "," *> field)
  blanks
  expect "\x7d"
  match Fields.insertAll [] pairs with
  | some fields => return .table .braces fields
  | none => failure

/-- A value in which at most `n` more levels may be nested. -/
def value : Nat → Reader Value
  | 0 => scalar
  | n + 1 => array (value n) <|> inlineTable (value n) <|> scalar

/-- A statement of a document. -/
inductive Statement where
  /-- A line that says nothing. -/
  | empty
  /-- A key with its value. -/
  | assignment (p : Pair)
  /-- A header; the flag says whether it is in double brackets. -/
  | header (isElement : Bool) (path : List String) (key : String)

/-- A header with the line end behind it. -/
def header : Reader Statement := do
  let isElement := (← optional (expect "[[")).isSome
  if !isElement then expect "["
  let (path, key) ← key
  expect (if isElement then "]]" else "]")
  lineRest
  return .header isElement path key

/-- A line of a document. -/
def statement : Reader Statement := do
  blanks
  match ← peek with
  | some '#' => lineRest; return .empty
  | some '\n' | some '\r' => newline; return .empty
  | some '[' => header
  | _ => return .assignment (← pair (value nestingLimit) <* lineRest)

/-- The keys before the first header, and the headers with the keys under each. -/
def sections (statements : List Statement) : List Pair × List Section :=
  statements.foldr step ([], [])
where
  step : Statement → List Pair × List Section → List Pair × List Section
    | .empty, acc => acc
    | .assignment p, (pairs, sections) => (p :: pairs, sections)
    | .header isElement path key, (pairs, sections) => ([], ⟨isElement, path, key, pairs⟩ :: sections)

/-- The table that a document denotes. A byte order mark may stand before it. -/
def document? (text : String) : Option Fields := do
  let lines : Reader (List Statement) := do
    let _ ← optional (expect "\ufeff")
    let statements ← many statement
    blanks
    return statements
  let (pairs, headers) := sections (← lines.whole? text.toList)
  headers.foldlM Fields.addSection (← Fields.insertAll [] pairs)

end BrightLexer.Toml
