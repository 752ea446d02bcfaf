import BrightLexer.Command.Arguments
import BrightLexer.Command.Check
import BrightLexer.Command.Dump

/-!
# Running a command line

The settings come from exactly one file: the one that is asked for, or else `brst.toml` in the current
directory, or else the user's own. What the command line says goes before what the settings say.
-/

namespace BrightLexer.Command

/-- The file of settings in the current directory. -/
def localSettings : String := "brst.toml"

/-- The user's file of settings, in the directory where a user's settings are kept. -/
def userSettings (directory : String) : String := directory ++ "/brst/brst.toml"

/-- The settings in a file. -/
def settingsAt (files : Files) (path : String) : Except Failure Settings :=
  match files path with
  | .missing => .error (.settingsNotFound path)
  | entry =>
    match entry.text? with
    | .error e => .error (.ofReadError e)
    | .ok text => (Settings.parse text).mapError .settingsMalformed

/-- The file the settings come from; none if only the defaults hold. -/
def settingsPath? (files : Files) (directory config : Option String) : Option String :=
  match config with
  | some path => some path
  | none =>
    if (files localSettings).isPresent then some localSettings
    else (directory.map userSettings).filter fun path => (files path).isPresent

/-- The settings that hold for a command line. -/
def loadSettings (files : Files) (directory config : Option String) : Except Failure Settings :=
  match settingsPath? files directory config with
  | some path => settingsAt files path
  | none => .ok .default

/-- Runs a task under settings. -/
def Task.run (files : Files) (settings : Settings) (verbose : Bool) : Task → Outcome
  | .tokens path format recover =>
    dumpTokens files ⟨path, format.getD settings.format, recover || settings.recover⟩
  | .check paths jobs =>
    runCheck files ⟨paths, jobs <|> settings.jobs, verbose || settings.verbose⟩

/-- Runs a command line among files; `directory` is where the user's settings are kept. -/
def CommandLine.run (files : Files) (directory : Option String) (c : CommandLine) : Outcome :=
  match loadSettings files directory c.config with
  | .error failure => .failed failure
  | .ok settings => c.task.run files settings c.verbose

/-- The name and version of the program, or of one of its tasks. -/
def versionText (task : Option TaskName) : String :=
  let name := match task with
    | none => "brst"
    | some task => "brst-" ++ task.text
  name ++ " 0.0.3\n"

/-- What the program answers to its arguments. -/
inductive Response where
  /-- The arguments are no command line of the program. -/
  | usage
  /-- The program ran, or showed its version. -/
  | finished (outcome : Outcome)
deriving DecidableEq

/-- Answers the arguments of the program. -/
def respond (env : Environment) (files : Files) (directory : Option String)
    (arguments : List String) : Response :=
  match readCommandLine env arguments with
  | .error .usage => .usage
  | .error (.version task) => .finished ⟨versionText task, "", none⟩
  | .ok c => .finished (c.run files directory)

/-- The paths at which a command line may look for settings. -/
def CommandLine.settingsPaths (directory : Option String) (c : CommandLine) : List String :=
  match c.config with
  | some path => [path]
  | none => localSettings :: (directory.map userSettings).toList

/-- The paths of the source files that a command line names. -/
def CommandLine.sourcePaths (c : CommandLine) : List String :=
  match c.task with
  | .tokens path _ _ => [path]
  | .check paths _ => paths

end BrightLexer.Command
