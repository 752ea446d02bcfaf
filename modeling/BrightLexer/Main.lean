import BrightLexer.Command.Run

/-!
# The program

Reads the arguments, the environment and the files that the command line may look at, and writes what
`Command.respond` answers. Everything is decided there.
-/

open BrightLexer BrightLexer.Command

/-- What there is at a path of the file system. From what is no regular file, something is read only
if `readSpecial` says so. -/
def lookAt (readSpecial : Bool) (path : String) : IO Entry := do
  try
    match (← (← IO.FS.realPath path).metadata).type with
    | .dir => return .directory
    | .file => return .file (← IO.FS.readBinFile path)
    | _ => return .special (← if readSpecial then IO.FS.readBinFile path else pure .empty)
  catch _ => return .missing

/-- The view of the file system that a command line needs. -/
def filesFor (directory : Option String) (c : CommandLine) : IO Files := do
  let settings ← (c.settingsPaths directory).mapM fun path => do return (path, ← lookAt true path)
  let sources ← c.sourcePaths.mapM fun path => do return (path, ← lookAt false path)
  return fun path => ((settings ++ sources).lookup path).getD .missing

/-- The directory where a user's settings are kept. -/
def userDirectory : IO (Option String) := do
  match ← IO.getEnv "XDG_CONFIG_HOME", ← IO.getEnv "HOME" with
  | some directory, home =>
    if directory.startsWith "/" then return some directory
    else return home.map (· ++ "/.config")
  | none, home => return home.map (· ++ "/.config")

/-- Writes a response and gives the exit code. -/
def write : Response → IO UInt32
  | .usage => do
    IO.eprintln "usage: brst [-v] [--no-color] [-c FILE] tokens [-r] [-F text|json] FILE"
    IO.eprintln "       brst [-v] [--no-color] [-c FILE] check [-j JOBS] FILE..."
    return 2
  | .finished outcome => do
    IO.print outcome.out
    IO.eprint outcome.fullErr
    return UInt32.ofNat outcome.exitCode

/-- The program. -/
def main (arguments : List String) : IO UInt32 := do
  let env : Environment := ⟨← IO.getEnv "BRST_VERBOSE", ← IO.getEnv "BRST_NO_COLOR",
    ← IO.getEnv "BRST_CONFIG"⟩
  let directory ← userDirectory
  let files ← match readCommandLine env arguments with
    | .ok c => filesFor directory c
    | .error _ => pure fun _ => .missing
  write (respond env files directory arguments)
