import BrightLexer.Source.Span

/-!
# Diagnostics

A report about a source text: how grave it is, what it says, where it points, an optional code that
stays the same when the wording changes, and further notes and suggestions.
-/

namespace BrightLexer

/-- How grave a diagnostic is. -/
inductive Level where
  /-- The text cannot be used as it is. -/
  | error
  /-- The text can be used, but looks wrong. -/
  | warning
  /-- Something more to know. -/
  | note
  /-- A way to mend the text. -/
  | help
deriving DecidableEq

/-- The name a level is shown under. -/
def Level.name : Level → String
  | .error => "error"
  | .warning => "warning"
  | .note => "note"
  | .help => "help"

/-- The stable name of a sort of diagnostic: a family letter and a number. -/
structure Code where
  /-- The family, such as `E` for errors. -/
  family : String
  /-- The number within the family. -/
  number : Nat
deriving DecidableEq

namespace Code

/-- A code as it is shown: its number has at least four digits. -/
def shown (c : Code) : String :=
  let digits := toString c.number
  c.family ++ String.ofList (List.replicate (4 - digits.length) '0') ++ digits

/-- A code as it is shown to a developer. -/
def developerText (c : Code) : String := s!"DiagnosticCode({c.shown})"

/-- A character that no token starts with. -/
def unexpectedChar : Code := ⟨"E", 1001⟩

/-- A quoted text without its closing quote. -/
def unterminatedString : Code := ⟨"E", 1002⟩

/-- A numeral that stands for no number. -/
def malformedNumeral : Code := ⟨"E", 1003⟩

end Code

/-- A report about a source text. -/
structure Diagnostic where
  /-- How grave it is. -/
  level : Level
  /-- What it says. -/
  message : String
  /-- Where it points. -/
  span : Span
  /-- The stable name of its sort. -/
  code : Option Code
  /-- Further facts. -/
  notes : List String
  /-- Suggestions. -/
  helps : List String
deriving DecidableEq

namespace Diagnostic

/-- Whether a diagnostic is an error. -/
def isError (d : Diagnostic) : Bool := d.level == .error

/-- The first line of a diagnostic: its level, its code if it has one, and its message. -/
def header (d : Diagnostic) : String :=
  match d.code with
  | some code => s!"{d.level.name}[{code.shown}]: {d.message}"
  | none => s!"{d.level.name}: {d.message}"

end Diagnostic

end BrightLexer
