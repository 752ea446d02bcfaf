import BrightLexer.Number.Decimal
import BrightLexer.Settings.Basic

/-!
# The command line

A command line is the program's own options, the name of a task, and the options and operands of the
task. Some options may stand on either side of the name; the last three of these can also be set in
the environment.

| option | stands | value |
|---|---|---|
| `-V`, `--version` | anywhere | |
| `-v`, `--verbose` | anywhere | |
| `--no-color` | anywhere | |
| `-c`, `--config` | anywhere | path |
| `-F`, `--format` | after `tokens` | `text` or `json` |
| `-r`, `--recover` | after `tokens` | |
| `-j`, `--jobs` | after `check` | whole number |

Short options can be bundled behind one dash. A value follows its option as the next argument, or
behind an equals sign, or right behind the letter of a short option; as an argument of its own it must
not look like an option. Behind `--` everything is an operand. On each side of the name an option may
be given only once. What is given behind the name counts more than what is given before it, and that
more than the environment.
-/

namespace BrightLexer.Command

/-- What the program can be asked to do with files. -/
inductive TaskName where
  /-- Write the tokens of a file. -/
  | tokens
  /-- Check files for faults. -/
  | check
deriving DecidableEq

/-- The task with the given name. -/
def TaskName.ofText? : String → Option TaskName
  | "tokens" => some .tokens
  | "check" => some .check
  | _ => none

/-- The name of a task. -/
def TaskName.text : TaskName → String
  | .tokens => "tokens"
  | .check => "check"

/-- An option. -/
inductive OptionName where
  | version | verbose | noColor | config | format | recover | jobs
deriving DecidableEq

namespace OptionName

/-- Whether an option has a value. -/
def takesValue : OptionName → Bool
  | .config | .format | .jobs => true
  | _ => false

/-- Whether an option may stand on the side of the command line that belongs to `task`, or to the
program itself. -/
def allowed (task : Option TaskName) : OptionName → Bool
  | .format | .recover => task == some .tokens
  | .jobs => task == some .check
  | _ => true

/-- The option of a letter. -/
def ofLetter? : Char → Option OptionName
  | 'V' => some .version
  | 'v' => some .verbose
  | 'c' => some .config
  | 'F' => some .format
  | 'r' => some .recover
  | 'j' => some .jobs
  | _ => none

/-- The option of a long name. -/
def ofLongName? : String → Option OptionName
  | "version" => some .version
  | "verbose" => some .verbose
  | "no-color" => some .noColor
  | "config" => some .config
  | "format" => some .format
  | "recover" => some .recover
  | "jobs" => some .jobs
  | _ => none

end OptionName

/-- A number of jobs: digits, with a plus before them if so written, of a value below `2 ^ 64`. -/
def readJobs? (text : String) : Option Nat :=
  let digits := match text.toList with
    | '+' :: cs => cs
    | cs => cs
  if digits.isEmpty || !digits.all Char.isDigit then none
  else if digitsValue digits < twoPow 64 then some (digitsValue digits) else none

/-- Whether an option can have a value. -/
def OptionName.accepts (value : String) : OptionName → Bool
  | .config => !value.isEmpty
  | .format => (DumpFormat.ofName? value).isSome
  | .jobs => (readJobs? value).isSome
  | _ => true

/-- What was given on one side of a command line. -/
structure Given where
  /-- The options with their values. -/
  options : List (OptionName × String)
  /-- The operands. -/
  operands : List String
deriving DecidableEq

namespace Given

/-- A side without options and operands. -/
def empty : Given := ⟨[], []⟩

/-- The value an option was given. -/
def value? (g : Given) (o : OptionName) : Option String := g.options.lookup o

/-- Whether an option was given. -/
def has (g : Given) (o : OptionName) : Bool := (g.value? o).isSome

/-- Adds an option, unless it was given before or cannot have the value. -/
def add? (g : Given) (o : OptionName) (value : String) : Option Given :=
  if g.has o || !o.accepts value then none
  else some { g with options := g.options ++ [(o, value)] }

/-- Adds an operand, unless it is empty or one too many. -/
def addOperand? (task : TaskName) (g : Given) (operand : String) : Option Given :=
  if operand.isEmpty || (task == .tokens && !g.operands.isEmpty) then none
  else some { g with operands := g.operands ++ [operand] }

end Given

/-- Why reading a command line ends early. -/
inductive Stop where
  /-- It is not a command line of this program. -/
  | usage
  /-- The version is asked for, before or behind the name of a task. -/
  | version (task : Option TaskName)
deriving DecidableEq

/-- The answer that is there, or the end of the reading as not a command line. -/
def orUsage {α : Type} (a : Option α) : Except Stop α :=
  match a with
  | some a => .ok a
  | none => .error .usage

/-- Reads short options behind one dash. The last one may still lack its value. -/
def readLetters (task : Option TaskName) :
    List Char → Given → Except Stop (Given × Option OptionName)
  | [], g => .ok (g, none)
  | c :: cs, g => do
    let o ← orUsage ((OptionName.ofLetter? c).filter (·.allowed task))
    if o = .version then throw (.version task)
    else if o.takesValue then
      match cs with
      | [] => return (g, some o)
      | '=' :: value => return (← orUsage (g.add? o (String.ofList value)), none)
      | value => return (← orUsage (g.add? o (String.ofList value)), none)
    else readLetters task cs (← orUsage (g.add? o ""))

/-- Reads a long option behind its two dashes. It may still lack its value. -/
def readLongOption (task : Option TaskName) (cs : List Char) (g : Given) :
    Except Stop (Given × Option OptionName) := do
  let name := String.ofList (cs.takeWhile (· != '='))
  let o ← orUsage ((OptionName.ofLongName? name).filter (·.allowed task))
  match cs.dropWhile (· != '=') with
  | [] =>
    if o = .version then throw (.version task)
    else if o.takesValue then return (g, some o)
    else return (← orUsage (g.add? o ""), none)
  | _ :: value =>
    if o.takesValue then return (← orUsage (g.add? o (String.ofList value)), none)
    else throw .usage

/-- What an argument is when no value is awaited. -/
inductive Argument where
  /-- The two dashes that end the options. -/
  | endOfOptions
  /-- A long option, without its dashes. -/
  | long (cs : List Char)
  /-- Short options, without their dash. -/
  | short (cs : List Char)
  /-- Anything else. A single dash is an operand too. -/
  | operand

/-- What an argument is when no value is awaited. -/
def Argument.ofText (text : String) : Argument :=
  match text.toList with
  | ['-', '-'] => .endOfOptions
  | '-' :: '-' :: cs => .long cs
  | '-' :: c :: cs => .short (c :: cs)
  | _ => .operand

/-- Reads the options of one argument, and if the last of them lacks its value, takes that from the
arguments behind it. -/
def readOptions (task : Option TaskName) (argument : Argument) (g : Given) :
    Except Stop (Given × Option OptionName) :=
  match argument with
  | .long cs => readLongOption task cs g
  | .short cs => readLetters task cs g
  | _ => .ok (g, none)

/-- Whether an argument can be the value of an option. -/
def isValue (text : String) : Bool :=
  match Argument.ofText text with
  | .operand => true
  | _ => false

/-- Reads the options and operands behind the name of a task. -/
def readTaskSide (task : TaskName) : List String → Given → Except Stop Given
  | [], g => .ok g
  | argument :: arguments, g =>
    match Argument.ofText argument with
    | .endOfOptions => orUsage (arguments.foldlM (Given.addOperand? task) g)
    | .operand => do readTaskSide task arguments (← orUsage (g.addOperand? task argument))
    | options => do
      match ← readOptions (some task) options g with
      | (g, none) => readTaskSide task arguments g
      | (g, some o) =>
        match arguments with
        | [] => throw .usage
        | value :: arguments =>
          if isValue value then readTaskSide task arguments (← orUsage (g.add? o value))
          else throw .usage

/-- A command line in its two sides. -/
structure Sides where
  /-- What was given before the name of the task. -/
  program : Given
  /-- The task. -/
  task : TaskName
  /-- What was given behind the name. -/
  own : Given
deriving DecidableEq

/-- Reads a whole command line. A value before the name of the task that is not accepted is reported
only after the side behind the name was read. -/
def readSides : List String → Given → Except Stop Sides
  | [], _ => .error .usage
  | argument :: arguments, g =>
    match Argument.ofText argument with
    | .endOfOptions => .error .usage
    | .operand => do
      let task ← orUsage (TaskName.ofText? argument)
      return ⟨g, task, ← readTaskSide task arguments .empty⟩
    | options => do
      match ← readOptions none options g with
      | (g, none) => readSides arguments g
      | (g, some o) =>
        match arguments with
        | [] => throw .usage
        | value :: arguments =>
          if !isValue value then throw .usage
          else match g.add? o value with
            | some g => readSides arguments g
            | none =>
              match arguments with
              | [] => throw .usage
              | name :: arguments =>
                let task ← orUsage (TaskName.ofText? name)
                let _ ← readTaskSide task arguments .empty
                throw .usage

/-- The variables of the environment that set options. -/
structure Environment where
  verbose : Option String
  noColor : Option String
  config : Option String

/-- The environment in which no option is set. -/
def Environment.empty : Environment := ⟨none, none, none⟩

/-- What a variable sets a flag to: nothing but `true` and `false` is understood. -/
def flagOfVariable? : Option String → Option Bool
  | none => some false
  | some "true" => some true
  | some "false" => some false
  | some _ => none

/-- Whether a flag is set. The variable is looked at unless the flag is given on both sides. -/
def flag? (s : Sides) (o : OptionName) (inherited : Option String) : Option Bool :=
  if s.program.has o && s.own.has o then some true
  else (flagOfVariable? inherited).map fun set => s.program.has o || s.own.has o || set

/-- The path of the settings that is asked for, if any. The variable is looked at unless the option is
given on both sides. -/
def configPath? (s : Sides) (inherited : Option String) : Option (Option String) :=
  let given := s.own.value? .config <|> s.program.value? .config
  if s.program.has .config && s.own.has .config then some given
  else if inherited.any String.isEmpty then none
  else some (given <|> inherited)

/-- What to do with which files. -/
inductive Task where
  /-- Write the tokens of a file. -/
  | tokens (path : String) (format : Option DumpFormat) (recover : Bool)
  /-- Check files for faults. -/
  | check (paths : List String) (jobs : Option Nat)
deriving DecidableEq

/-- The task that is asked for behind its name. -/
def task? (s : Sides) : Option Task :=
  match s.task, s.own.operands with
  | .tokens, [path] =>
    some (.tokens path ((s.own.value? .format).bind DumpFormat.ofName?) (s.own.has .recover))
  | .check, path :: paths => some (.check (path :: paths) ((s.own.value? .jobs).bind readJobs?))
  | _, _ => none

/-- A command line that was understood. -/
structure CommandLine where
  /-- Whether clean files are to be reported too. -/
  verbose : Bool
  /-- The file of settings that is asked for. -/
  config : Option String
  /-- What to do. -/
  task : Task
deriving DecidableEq

/-- Reads the arguments of the program in an environment. -/
def readCommandLine (env : Environment) (arguments : List String) : Except Stop CommandLine := do
  let sides ← readSides arguments .empty
  orUsage do
    let verbose ← flag? sides .verbose env.verbose
    let _ ← flag? sides .noColor env.noColor
    let config ← configPath? sides env.config
    return ⟨verbose, config, ← task? sides⟩

end BrightLexer.Command
