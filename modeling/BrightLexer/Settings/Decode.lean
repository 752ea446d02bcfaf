import BrightLexer.Settings.Basic
import BrightLexer.Toml.Document

/-!
# Settings from a TOML document

The settings are a table with an entry `verbose` and the sections `lex`, `output` and `check`. An
entry that is missing has its default, and entries that are not known are passed over. A known entry
must have the right type: nothing is converted.

A section may be written in other ways than as a table: as an array, whose elements are its entries in
their order, or as a date, which is read as a section with none of its known entries.
-/

namespace BrightLexer

open Toml (Value)

/-- Why a document holds no settings. -/
inductive SettingsError where
  /-- It is no TOML document. -/
  | notToml
  /-- A known entry has a value of the wrong type. -/
  | wrongType
deriving DecidableEq

/-- The wording of a failure to read settings. -/
def SettingsError.message : SettingsError → String
  | .notToml => "not a TOML document"
  | .wrongType => "a setting has a value of the wrong type"

namespace Settings

/-- The entries of a section that are given under the names `names`, in their order. -/
def entries? (names : List String) : Value → Option (List (Option Value))
  | .table _ fields => some (names.map (fields.lookup ·))
  | .array elements => some (names.zipIdx.map fun (_, i) => elements[i]?)
  | .tables elements => some (names.zipIdx.map fun (_, i) => elements[i]?.map (.table .header ·))
  | .dateTime => some (names.map fun _ => none)
  | _ => none

/-- The value of an entry, or its default if it is missing. -/
def entry? {α : Type} (default : α) (decode : Value → Option α) : Option Value → Option α
  | none => some default
  | some v => decode v

/-- A truth value. -/
def bool? : Value → Option Bool
  | .boolean b => some b
  | _ => none

/-- A number of jobs. -/
def jobs? : Value → Option (Option Nat)
  | .integer i => if 0 ≤ i then some (some i.toNat) else none
  | _ => none

/-- Whether a value holds nothing. -/
def isEmptyCollection : Value → Bool
  | .array elements => elements.isEmpty
  | .table _ fields => fields.isEmpty
  | .tables elements => elements.isEmpty
  | _ => false

/-- A format, given by its name, or as a table whose only key is the name and holds nothing. -/
def format? : Value → Option DumpFormat
  | .string name => DumpFormat.ofName? name
  | .table _ [(name, v)] => if isEmptyCollection v then DumpFormat.ofName? name else none
  | _ => none

/-- A section with a single entry. -/
def section? {α : Type} (name : String) (default : α) (decode : Value → Option α) (v : Value) :
    Option α := do
  match ← entries? [name] v with
  | [entry] => entry? default decode entry
  | _ => none

/-- The settings that a table holds. -/
def ofFields? (fields : Toml.Fields) : Option Settings := do
  let verbose ← entry? default.verbose bool? (fields.lookup "verbose")
  let recover ← entry? default.recover (section? "recover" default.recover bool?)
    (fields.lookup "lex")
  let format ← entry? default.format (section? "format" default.format format?)
    (fields.lookup "output")
  let jobs ← entry? default.jobs (section? "jobs" default.jobs jobs?) (fields.lookup "check")
  return ⟨verbose, recover, format, jobs⟩

/-- The settings that a document holds. -/
def parse (text : String) : Except SettingsError Settings :=
  match Toml.document? text with
  | none => .error .notToml
  | some fields =>
    match ofFields? fields with
    | none => .error .wrongType
    | some settings => .ok settings

end Settings

end BrightLexer
