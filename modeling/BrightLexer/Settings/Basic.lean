/-!
# Settings

What a user can set once in a file instead of on every command line. The defaults are what holds
without a file, and without an entry in it.
-/

namespace BrightLexer

/-- How tokens are written. -/
inductive DumpFormat where
  /-- One line of text for each token. -/
  | text
  /-- A JSON array of objects. -/
  | json
deriving DecidableEq

/-- The format with the given name. -/
def DumpFormat.ofName? : String → Option DumpFormat
  | "text" => some .text
  | "json" => some .json
  | _ => none

/-- The name of a format. -/
def DumpFormat.name : DumpFormat → String
  | .text => "text"
  | .json => "json"

/-- A format is known by its name. -/
@[simp] theorem DumpFormat.ofName?_name (f : DumpFormat) : ofName? f.name = some f := by
  cases f <;> rfl

/-- The settings of a user. -/
structure Settings where
  /-- Whether clean files are reported too. -/
  verbose : Bool
  /-- Whether scanning goes on after a fault. -/
  recover : Bool
  /-- How tokens are written. -/
  format : DumpFormat
  /-- The number of files that are checked at the same time; one for each processor if not set. -/
  jobs : Option Nat
deriving DecidableEq

/-- The settings that hold without a file. -/
def Settings.default : Settings := ⟨false, false, .text, none⟩

end BrightLexer
