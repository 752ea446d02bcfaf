import BrightLexer.Diagnostic.Basic

/-!
# Lexical faults

What can be wrong where a token should start, with the line and column of that place. Each fault has
a wording of its own (`Fault.message`), a code, and a diagnostic that points at the text passed over.
-/

namespace BrightLexer

/-- What is wrong with a piece of source text. -/
inductive FaultCause where
  /-- A quoted text meets the end of its line before its closing quote. -/
  | unterminatedString
  /-- A character that no token starts with. -/
  | unexpectedChar (c : Char)
  /-- A numeral that stands for no number: its text as far as it was read, and why. -/
  | malformedNumeral (text reason : String)
deriving DecidableEq

/-- A piece of source text that is no token. -/
structure Fault where
  /-- What is wrong. -/
  cause : FaultCause
  /-- The line it starts on. -/
  line : Nat
  /-- The column it starts at. -/
  column : Nat
deriving DecidableEq

namespace FaultCause

/-- What is wrong, without the place. -/
def summary : FaultCause → String
  | .unterminatedString => "unterminated string literal"
  | .unexpectedChar c => s!"unexpected character '{c}'"
  | .malformedNumeral text _ => s!"malformed numeric literal '{text}'"

/-- The code of the diagnostics for a cause. -/
def code : FaultCause → Code
  | .unterminatedString => .unterminatedString
  | .unexpectedChar _ => .unexpectedChar
  | .malformedNumeral _ _ => .malformedNumeral

/-- What more there is to say about a cause. -/
def notes : FaultCause → List String
  | .unterminatedString => ["strings may not span multiple lines"]
  | .unexpectedChar _ => []
  | .malformedNumeral _ reason => [reason]

/-- How to mend a cause. -/
def helps : FaultCause → List String
  | .unterminatedString => ["add a closing '\"'"]
  | _ => []

end FaultCause

namespace Fault

/-- A fault at a position. -/
def ofPosition (p : Position) (cause : FaultCause) : Fault := ⟨cause, p.line, p.column⟩

/-- What is wrong and where, with the reason behind it if there is one to give. -/
def message (f : Fault) : String :=
  let place := s!"{f.cause.summary} at {f.line}:{f.column}"
  match f.cause with
  | .malformedNumeral _ reason => s!"{place}: {reason}"
  | _ => place

/-- The diagnostic for a fault, pointing at `span`. -/
def diagnostic (f : Fault) (span : Span) : Diagnostic :=
  ⟨.error, f.cause.summary, span, some f.cause.code, f.cause.notes, f.cause.helps⟩

end Fault

end BrightLexer
