import BrightLexer.Token.Keyword
import BrightLexer.Token.Symbol

/-!
# Kinds of tokens

What a token is: the end of the text, a line end, a symbol, a literal of one of five types, a name, or
a reserved word. `Kind.name` is how a kind is shown; no two kinds share one (`name_injective`).
-/

namespace BrightLexer

/-- The types of numbers a numeral can stand for. -/
inductive NumericKind where
  /-- A whole number of 32 bits with a sign. -/
  | integer
  /-- A whole number of 64 bits with a sign. -/
  | longInteger
  /-- A single precision floating point number. -/
  | float
  /-- A double precision floating point number. -/
  | double
deriving DecidableEq

/-- The name of a type of numbers. -/
def NumericKind.name : NumericKind → String
  | .integer => "Integer"
  | .longInteger => "LongInteger"
  | .float => "Float"
  | .double => "Double"

/-- What a token is. -/
inductive Kind where
  /-- The end of the text, always the last token. -/
  | eof
  /-- The end of a line. -/
  | newline
  /-- A sign spelled without letters. -/
  | symbol (s : Symbol)
  /-- A text between double quotes. -/
  | string
  /-- A numeral of the given type. -/
  | number (n : NumericKind)
  /-- A name that is no reserved word. -/
  | identifier
  /-- A reserved word. -/
  | keyword (k : Keyword)
deriving DecidableEq

namespace Kind

/-- Every kind of token. -/
def all : List Kind :=
  [.eof, .newline] ++ Symbol.all.map .symbol ++
  [.string, .number .integer, .number .longInteger, .number .float, .number .double, .identifier] ++
  Keyword.all.map .keyword

/-- The name a kind is shown under. -/
def name : Kind → String
  | .eof => "Eof"
  | .newline => "Newline"
  | .symbol s => s.name
  | .string => "String"
  | .number n => n.name
  | .identifier => "Identifier"
  | .keyword k => k.name

/-- The kind that is shown under a name. -/
def ofName? (s : String) : Option Kind := all.find? fun k => k.name == s

/-- Whether tokens of this kind carry a literal. -/
def isLiteral : Kind → Bool
  | .string | .number _ => true
  | _ => false

/-- Whether this is the kind of a reserved word. -/
def isKeyword : Kind → Bool
  | .keyword _ => true
  | _ => false

/-- The list of all kinds leaves none out. -/
theorem mem_all (k : Kind) : k ∈ all := by
  cases k with
  | symbol s => simp [all, Symbol.mem_all]
  | keyword k => simp [all, Keyword.mem_all]
  | number n => cases n <;> simp [all]
  | _ => simp [all]

/-- No two kinds are shown under one name. -/
theorem name_injective {j k : Kind} (h : j.name = k.name) : j = k := by
  have key : ∀ j ∈ all, ∀ k ∈ all, j.name = k.name → j = k := by decide +kernel
  exact key j (mem_all j) k (mem_all k) h

end Kind

end BrightLexer
