import BrightLexer.Source.Span
import BrightLexer.Token.Literal

/-!
# Tokens

A token is a kind with the exact text it was read from, the value it carries if it is a literal, its line,
and its span. `Token.plain` and `Token.ofLiteral` keep these in agreement: the line is that of the span, a
literal token takes its kind from its value, and `Token.plain?` refuses a kind that asks for one.
-/

namespace BrightLexer

/-- A piece of source text that was recognised. -/
structure Token where
  /-- What it is. -/
  kind : Kind
  /-- The text it was read from. -/
  text : String
  /-- The value of a literal. -/
  literal : Option Literal
  /-- The line it starts on. -/
  line : Nat
  /-- Where it stands. -/
  span : Span
deriving DecidableEq

namespace Token

/-- A token that carries no value. -/
def plain (kind : Kind) (text : String) (span : Span) : Token :=
  ⟨kind, text, none, span.line, span⟩

/-- A token of the given kind that carries no value, unless the kind asks for one. -/
def plain? (kind : Kind) (text : String) (span : Span) : Option Token :=
  if kind.isLiteral then none else some (plain kind text span)

/-- A token that carries a value and has its kind from it. -/
def ofLiteral (literal : Literal) (text : String) (span : Span) : Token :=
  ⟨literal.kind, text, some literal, span.line, span⟩

/-- The column a token starts at. -/
def column (t : Token) : Nat := t.span.column

end Token

end BrightLexer
