import BrightLexer.Diagnostic.Basic

/-!
# A log of diagnostics

A log keeps diagnostics in the order in which they were emitted and counts the errors among them, until
it is cleared or they are taken out of it.
-/

namespace BrightLexer

/-- The diagnostics emitted so far. -/
structure Log where
  /-- The diagnostics, the first emitted first. -/
  entries : Array Diagnostic
deriving DecidableEq

namespace Log

/-- The log in which nothing was emitted. -/
def empty : Log := ⟨#[]⟩

/-- Puts a diagnostic behind the others. -/
def emit (log : Log) (d : Diagnostic) : Log := ⟨log.entries.push d⟩

/-- The diagnostics in the order in which they were emitted. -/
def toList (log : Log) : List Diagnostic := log.entries.toList

/-- Drops all diagnostics. -/
def clear (log : Log) : Log := { log with entries := #[] }

/-- Takes all diagnostics out, so that an empty log stays behind. -/
def takeAll (log : Log) : List Diagnostic × Log := (log.toList, .empty)

/-- The number of errors. -/
def errorCount (log : Log) : Nat := log.toList.countP Diagnostic.isError

/-- Whether there is an error. -/
def hasErrors (log : Log) : Bool := 0 < log.errorCount

@[simp] theorem toList_empty : empty.toList = [] := rfl

/-- A diagnostic is put behind those of the log. -/
@[simp] theorem toList_emit (log : Log) (d : Diagnostic) :
    (log.emit d).toList = log.toList ++ [d] := by
  simp [toList, emit]

@[simp] theorem toList_clear (log : Log) : log.clear.toList = [] := rfl

end Log

end BrightLexer
