import BrightLexer.Command.Outcome
import BrightLexer.Lexer.Scan

/-!
# Checking files

`checkFiles` scans files with recovery and reports on each of them in the order in which they were
given; a file that cannot be read makes the whole check fail, with the failure of the first such file.
How many files are scanned at the same time is not part of a report, so the number of jobs only has to
be one that works.
-/

namespace BrightLexer

/-- What was found in a file. -/
structure FileReport where
  /-- The path of the file. -/
  path : String
  /-- Its text. -/
  source : String
  /-- The number of its tokens, the end token among them. -/
  tokenCount : Nat
  /-- A diagnostic for each fault. -/
  diagnostics : List Diagnostic
deriving DecidableEq

namespace FileReport

/-- Whether a file has no fault. -/
def isClean (r : FileReport) : Bool := r.diagnostics.isEmpty

/-- The diagnostics as they are shown. -/
def rendered (r : FileReport) : String := renderAll r.path r.source r.diagnostics

end FileReport

/-- Scans a file. -/
def checkFile (files : Files) (path : String) : Except Failure FileReport :=
  match readSource files path with
  | .ok source =>
    let (tokens, diagnostics) := scanRecovering source
    .ok ⟨path, source, tokens.length, diagnostics⟩
  | .error failure => .error failure

/-- Scans files. -/
def checkFiles (files : Files) (paths : List String) (jobs : Option Nat) :
    Except Failure (List FileReport) :=
  if jobs = some 0 then .error (.validation "--jobs must be at least 1")
  else paths.mapM (checkFile files)

/-- What the command for checking files was asked for. -/
structure CheckRequest where
  /-- The source files. -/
  paths : List String
  /-- The number of files that are scanned at the same time. -/
  jobs : Option Nat
  /-- Whether clean files are reported too. -/
  verbose : Bool
deriving DecidableEq

/-- What is written about reports: a line for each clean file if asked for, and a summary on the
output, and the diagnostics on the error stream. -/
def summarize (verbose : Bool) (reports : List FileReport) : Outcome :=
  let clean := reports.filter FileReport.isClean
  let unclean := reports.filter fun r => !r.isClean
  let lines := clean.map fun r => s!"{r.path}: ok ({r.tokenCount} tokens)\n"
  let errors := (unclean.map fun r => r.diagnostics.length).foldl (· + ·) 0
  let summary := s!"checked {reports.length} file(s): {errors} error(s)\n"
  ⟨(if verbose then String.join lines else "") ++ summary,
    String.join (unclean.map FileReport.rendered),
    if unclean.isEmpty then none
    else some (.validation s!"{unclean.length} file(s) with lexical errors")⟩

/-- Checks files and writes what was found. -/
def runCheck (files : Files) (request : CheckRequest) : Outcome :=
  if request.paths.isEmpty then .failed (.validation "no input files")
  else match checkFiles files request.paths request.jobs with
    | .ok reports => summarize request.verbose reports
    | .error failure => .failed failure

end BrightLexer
