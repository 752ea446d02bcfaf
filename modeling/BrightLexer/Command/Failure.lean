import BrightLexer.Command.Files
import BrightLexer.Lexer.Fault
import BrightLexer.Settings.Decode

/-!
# Failures of a command

Why a command fails. `Failure.message` is what is reported to the user, and `Failure.underlying?` the
wording of the failure behind it, if there is one.
-/

namespace BrightLexer

/-- Why a command fails. -/
inductive Failure where
  /-- The settings are missing or wrong. -/
  | configuration (text : String)
  /-- A file cannot be read. -/
  | io (text : String)
  /-- A value cannot be written as JSON. -/
  | json (text : String)
  /-- A file has a lexical fault. -/
  | lexical (path : String) (fault : Fault)
  /-- The command was asked for something it does not do. -/
  | validation (text : String)
deriving DecidableEq

namespace Failure

/-- What is reported. -/
def message : Failure → String
  | .configuration text => s!"Configuration error: {text}"
  | .io text => s!"IO error: {text}"
  | .json text => s!"JSON error: {text}"
  | .lexical path fault => s!"{path}: {fault.message}"
  | .validation text => s!"Validation error: {text}"

/-- The wording of the failure behind this one. -/
def underlying? : Failure → Option String
  | .io text | .json text => some text
  | .lexical _ fault => some fault.message
  | .configuration _ | .validation _ => none

/-- A file whose bytes cannot be read as text. -/
def ofReadError (e : ReadError) : Failure := .io e.message

/-- A file of settings that is not there. -/
def settingsNotFound (path : String) : Failure :=
  .configuration s!"Configuration file not found: {path}"

/-- A file that holds no settings. -/
def settingsMalformed (e : SettingsError) : Failure :=
  .configuration s!"Failed to parse configuration: {e.message}"

/-- A source path that does not lead to a file. -/
def notReadable (path : String) : Failure := .validation s!"not a readable file: {path}"

end Failure

end BrightLexer
