import BrightLexer.Command.Failure
import BrightLexer.Diagnostic.Render

/-!
# What a command does

A command writes to its output and to its error stream, and succeeds or fails; nothing else of it can
be seen. A failure is reported as the last line of the error stream and gives the exit code one.
-/

namespace BrightLexer

/-- What a command wrote, and whether it failed. -/
structure Outcome where
  /-- What was written to the output. -/
  out : String
  /-- What was written to the error stream, without the report of a failure. -/
  err : String
  /-- Why the command failed. -/
  failure : Option Failure
deriving DecidableEq

namespace Outcome

/-- The outcome of a command that fails before it writes anything. -/
def failed (failure : Failure) : Outcome := ⟨"", "", some failure⟩

/-- The error stream with the report of the failure. -/
def fullErr (o : Outcome) : String :=
  match o.failure with
  | some failure => o.err ++ s!"error: {failure.message}\n"
  | none => o.err

/-- The exit code. -/
def exitCode (o : Outcome) : Nat := if o.failure.isSome then 1 else 0

end Outcome

/-- Diagnostics rendered against their source text, each with the path of the file before it. -/
def renderAll (path source : String) (diagnostics : List Diagnostic) : String :=
  String.join (diagnostics.map fun d => s!"{path}: {d.render source}")

/-- The text of a source file. -/
def readSource (files : Files) (path : String) : Except Failure String :=
  match files path with
  | .file content => (Entry.file content).text?.mapError .ofReadError
  | _ => .error (.notReadable path)

end BrightLexer
