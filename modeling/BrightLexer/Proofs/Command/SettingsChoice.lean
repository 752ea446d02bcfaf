import BrightLexer.Command.Run
import BrightLexer.Proofs.Command.OptionValues
import BrightLexer.Proofs.Command.Reports

/-!
# Which settings hold for a run

Settings may be found in four places, and those of the first one that counts hold: the file that the command
line asks for, the one that the environment asks for, the one in the current directory, and the user's own
(`settingsSources`). The first two count even if there is no file. `settings_decided` says what this makes
of a run, for every command line, environment and view of the files. Once a place counts, the ones behind
it are not looked at (`SettingsSource.Decides.others`); a file that cannot be used makes the run fail
before a source file is looked at, and no other place is tried; and of the settings in a file those hold
that nothing was said about on the command line or in the environment (`Overridden`).

A run looks at files in two steps, and each of them is a function of a few paths: the settings come from
the first place that counts (`ReadFrom.settingsPath?_eq`), and a task looks at the source files only
(`CommandLine.perform_congr`). That what is said on the command line holds needs that it has a value the
option can have, which `accepted_readSides` gives for every command line that is read.
-/

namespace BrightLexer

/-- Two views of the files agree on some paths. -/
def Files.AgreeOn (files files' : Files) (paths : List String) : Prop :=
  ∀ path ∈ paths, files' path = files path

namespace Command

/-! ## What was said on a command line -/

namespace Sides

/-- The value that an option is given. What is given behind the name of the task counts more. -/
def value? (s : Sides) (o : OptionName) : Option String := (s.own.value? o).or (s.program.value? o)

/-- Whether an option is given. -/
def gives (s : Sides) (o : OptionName) : Bool := (s.value? o).isSome

end Sides

/-- Whether files are to be reported on even if they are clean, by the command line or the environment. -/
def saysVerbose (env : Environment) (s : Sides) : Bool :=
  s.gives .verbose || env.verbose == some "true"

/-- What settings come to: what was said on the command line or in the environment holds, and else what
the settings say. -/
structure Overridden (env : Environment) (s : Sides) (settings effective : Settings) : Prop where
  /-- A format that is given holds. -/
  format : ∀ value, s.value? .format = some value →
    DumpFormat.ofName? value = some effective.format
  keptFormat : s.gives .format = false → effective.format = settings.format
  /-- Recovery that is asked for holds. -/
  recover : s.gives .recover = true → effective.recover = true
  keptRecover : s.gives .recover = false → effective.recover = settings.recover
  /-- A number of jobs that is given holds. -/
  jobs : ∀ value, s.value? .jobs = some value →
    ∃ n, readJobs? value = some n ∧ effective.jobs = some n
  keptJobs : s.gives .jobs = false → effective.jobs = settings.jobs
  /-- Reports that are asked for, also by the environment, are made. -/
  verbose : saysVerbose env s = true → effective.verbose = true
  keptVerbose : saysVerbose env s = false → effective.verbose = settings.verbose

/-- Two settings differ at most in what was said on the command line or in the environment. -/
structure SameUnlessSaid (env : Environment) (s : Sides) (settings settings' : Settings) : Prop where
  format : s.gives .format = false → settings'.format = settings.format
  recover : s.gives .recover = false → settings'.recover = settings.recover
  jobs : s.gives .jobs = false → settings'.jobs = settings.jobs
  verbose : saysVerbose env s = false → settings'.verbose = settings.verbose

/-- What a task does if the settings alone decide how. -/
def Task.perform (files : Files) (settings : Settings) : Task → Outcome
  | .tokens path _ _ => dumpTokens files ⟨path, settings.format, settings.recover⟩
  | .check paths _ => runCheck files ⟨paths, settings.jobs, settings.verbose⟩

/-! ## Where settings come from -/

/-- A place where settings may be found. -/
structure SettingsSource where
  /-- The path of the file. -/
  path : String
  /-- Whether the file is asked for. Then no other one will do. -/
  required : Bool

/-- Whether a place counts: it is asked for, or there is something. -/
def SettingsSource.counts (files : Files) (x : SettingsSource) : Bool :=
  x.required || (files x.path).isPresent

/-- The file at a place holds settings. -/
def SettingsSource.Holds (files : Files) (x : SettingsSource) (settings : Settings) : Prop :=
  ∃ text, (files x.path).text? = .ok text ∧ Settings.parse text = .ok settings

/-- The places where settings may be found, the most important first. -/
def settingsSources (env : Environment) (directory : Option String) (s : Sides) :
    List SettingsSource :=
  (s.value? .config).toList.map (⟨·, true⟩) ++ env.config.toList.map (⟨·, true⟩) ++
    ⟨localSettings, false⟩ :: directory.toList.map fun d => ⟨userSettings d, false⟩

/-- What some files hold makes a run fail with nothing written but the report of the failure. The other
files, and so the source files, may hold anything. -/
def FailsOn (env : Environment) (files : Files) (directory : Option String)
    (arguments : List String) (paths : List String) (failure : Failure) : Prop :=
  ∀ files', files.AgreeOn files' paths →
    respond env files' directory arguments = .finished ⟨"", "", some failure⟩

/-- What the first place that counts makes of a run, when those of `higher` priority do not count. -/
structure SettingsSource.Decides (env : Environment) (files : Files) (directory : Option String)
    (arguments : List String) (s : Sides) (c : CommandLine) (higher : List SettingsSource)
    (x : SettingsSource) : Prop where
  /-- No file is looked at but those up to this place and the source files. -/
  others : ∀ files', files.AgreeOn files' ((higher ++ [x]).map path ++ c.sourcePaths) →
    respond env files' directory arguments = respond env files directory arguments
  /-- A file that is asked for and is not there makes the run fail. -/
  missing : files x.path = .missing →
    FailsOn env files directory arguments ((higher ++ [x]).map path) (.settingsNotFound x.path)
  /-- So does what cannot be read. -/
  unreadable : (files x.path).isPresent = true → ∀ e, (files x.path).text? = .error e →
    FailsOn env files directory arguments ((higher ++ [x]).map path) (.ofReadError e)
  /-- So does a file that holds no settings. -/
  malformed : ∀ text e, (files x.path).text? = .ok text → Settings.parse text = .error e →
    FailsOn env files directory arguments ((higher ++ [x]).map path) (.settingsMalformed e)
  /-- Settings hold where the command line and the environment say nothing. -/
  overridden : ∀ settings, x.Holds files settings → ∃ effective, Overridden env s settings effective ∧
    respond env files directory arguments = .finished (c.task.perform files effective)
  /-- Where something is said, other settings in the file make no difference. -/
  irrelevant : ∀ settings settings' files', x.Holds files settings → x.Holds files' settings' →
    files.AgreeOn files' (higher.map path ++ c.sourcePaths) → SameUnlessSaid env s settings settings' →
    respond env files' directory arguments = respond env files directory arguments

section
variable {env : Environment} {files files' : Files} {directory : Option String}
  {arguments : List String} {s : Sides} {c : CommandLine} {o : OptionName} {value : String}
  {settings settings' effective effective' : Settings} {higher lower : List SettingsSource}
  {x : SettingsSource}

/-! ## A command line in its sides -/

/-- An option is given on one of the two sides. -/
theorem gives_eq (s : Sides) (o : OptionName) : s.gives o = (s.program.has o || s.own.has o) := by
  rw [Sides.gives, Sides.value?, Given.has, Given.has]
  cases s.own.value? o with
  | some value => exact (Bool.or_true _).symm
  | none => exact (Bool.or_false _).symm

/-- An option that is not given has no value. -/
theorem value?_of_gives (h : s.gives o = false) : s.value? o = none :=
  Option.not_isSome_iff_eq_none.1 (Bool.eq_false_iff.1 h)

/-- A variable sets a flag if it is `true`. -/
theorem flagOfVariable?_eq_some {inherited : Option String} {set : Bool}
    (h : flagOfVariable? inherited = some set) : set = (inherited == some "true") := by
  unfold flagOfVariable? at h
  split at h
  · cases h; rfl
  · cases h; rfl
  · cases h; rfl
  · cases h

/-- A flag is set if it is given or its variable is `true`. -/
theorem flag?_eq_some {inherited : Option String} {set : Bool}
    (h : flag? s o inherited = some set) : set = (s.gives o || inherited == some "true") := by
  rw [gives_eq]
  unfold flag? at h
  split at h
  · next hboth =>
    cases h
    rw [Bool.and_eq_true] at hboth
    rw [hboth.1]
    rfl
  · obtain ⟨set', hset, rfl⟩ := Option.map_eq_some_iff.1 h
    rw [flagOfVariable?_eq_some hset]

/-- The settings file that is given counts more than the inherited one. -/
theorem configPath?_eq_some {inherited config : Option String}
    (h : configPath? s inherited = some config) : config = (s.value? .config).or inherited := by
  have hgiven : (s.own.value? .config <|> s.program.value? .config) = s.value? .config :=
    Option.orElse_eq_or
  rw [configPath?, hgiven] at h
  split at h
  · next hboth =>
    have hgives : s.gives .config = true := by
      rw [gives_eq, ((Bool.and_eq_true ..).mp hboth).1]
      rfl
    cases h
    exact (Option.or_of_isSome hgives).symm
  · split at h
    · cases h
    · cases h
      exact Option.orElse_eq_or

/-- What is understood of a command line, in terms of its sides. -/
structure ReadFrom (env : Environment) (s : Sides) (c : CommandLine) : Prop where
  verbose : c.verbose = saysVerbose env s
  config : c.config = (s.value? .config).or env.config
  task : task? s = some c.task
  program : s.program.Accepted none
  own : s.own.Accepted (some s.task)

/-- A command line that is understood is read from its sides. -/
theorem exists_readFrom (h : readCommandLine env arguments = .ok c) :
    ∃ s, readSides arguments .empty = .ok s ∧ ReadFrom env s c := by
  rw [readCommandLine, bind_eq_ok_iff] at h
  obtain ⟨s, hs, h⟩ := h
  rw [orUsage_eq_ok_iff, Option.bind_eq_bind, Option.bind_eq_some_iff] at h
  obtain ⟨verbose, hverbose, h⟩ := h
  obtain ⟨_, -, h⟩ := Option.bind_eq_some_iff.1 h
  obtain ⟨config, hconfig, h⟩ := Option.bind_eq_some_iff.1 h
  obtain ⟨task, htask, h⟩ := Option.bind_eq_some_iff.1 h
  cases h
  obtain ⟨hprogram, hown⟩ := accepted_readSides hs
  exact ⟨s, hs, flag?_eq_some hverbose, configPath?_eq_some hconfig, htask, hprogram, hown⟩

namespace ReadFrom
variable (h : ReadFrom env s c)
include h

/-- A value that is given is one that the option can have. -/
theorem accepts (hvalue : s.value? o = some value) : o.accepts value = true := by
  rcases Option.or_eq_some_iff.1 hvalue with hown | ⟨-, hprogram⟩
  · exact (h.own.of_value? hown).2
  · exact (h.program.of_value? hprogram).2

/-- An option of a task is given behind its name or not at all. -/
theorem value?_eq (ho : o.allowed none = false) : s.value? o = s.own.value? o := by
  have hnone : s.program.value? o = none := by
    rw [Option.eq_none_iff_forall_ne_some]
    intro value hvalue
    rw [(h.program.of_value? hvalue).1] at ho
    cases ho
  rw [Sides.value?, hnone]
  exact Option.or_none

end ReadFrom

/-! ## What holds besides the settings -/

/-- The settings with what was said on the command line or in the environment in their place. -/
def override (env : Environment) (s : Sides) (settings : Settings) : Settings where
  verbose := saysVerbose env s || settings.verbose
  recover := s.gives .recover || settings.recover
  format := ((s.value? .format).bind DumpFormat.ofName?).getD settings.format
  jobs := ((s.value? .jobs).bind readJobs?).or settings.jobs

/-- What was said takes the place of the settings. -/
theorem ReadFrom.overridden (h : ReadFrom env s c) (settings : Settings) :
    Overridden env s settings (override env s settings) where
  format value hvalue := by
    obtain ⟨format, hformat⟩ := Option.isSome_iff_exists.1 (h.accepts hvalue)
    rw [hformat, override, hvalue, Option.bind_some, hformat, Option.getD_some]
  keptFormat hnot := by
    rw [override, value?_of_gives hnot]
    rfl
  recover hgives := by rw [override, hgives, Bool.true_or]
  keptRecover hnot := by rw [override, hnot, Bool.false_or]
  jobs value hvalue := by
    obtain ⟨n, hn⟩ := Option.isSome_iff_exists.1 (h.accepts hvalue)
    refine ⟨n, hn, ?_⟩
    rw [override, hvalue, Option.bind_some, hn, Option.some_or]
  keptJobs hnot := by
    rw [override, value?_of_gives hnot]
    rfl
  verbose hsays := by rw [override, hsays, Bool.true_or]
  keptVerbose hnot := by rw [override, hnot, Bool.false_or]

/-- Settings come to the same if they differ only in what was said. -/
theorem Overridden.eq_of_sameUnlessSaid (h : Overridden env s settings effective)
    (h' : Overridden env s settings' effective') (hsame : SameUnlessSaid env s settings settings') :
    effective' = effective := by
  have hverbose : effective'.verbose = effective.verbose := by
    cases hsays : saysVerbose env s with
    | true => rw [h.verbose hsays, h'.verbose hsays]
    | false => rw [h.keptVerbose hsays, h'.keptVerbose hsays, hsame.verbose hsays]
  have hrecover : effective'.recover = effective.recover := by
    cases hgives : s.gives .recover with
    | true => rw [h.recover hgives, h'.recover hgives]
    | false => rw [h.keptRecover hgives, h'.keptRecover hgives, hsame.recover hgives]
  have hformat : effective'.format = effective.format := by
    cases hgives : s.gives .format with
    | true =>
      obtain ⟨value, hvalue⟩ := Option.isSome_iff_exists.1 hgives
      exact Option.some.inj ((h'.format value hvalue).symm.trans (h.format value hvalue))
    | false => rw [h.keptFormat hgives, h'.keptFormat hgives, hsame.format hgives]
  have hjobs : effective'.jobs = effective.jobs := by
    cases hgives : s.gives .jobs with
    | true =>
      obtain ⟨value, hvalue⟩ := Option.isSome_iff_exists.1 hgives
      obtain ⟨n, hn, hjobs⟩ := h.jobs value hvalue
      obtain ⟨n', hn', hjobs'⟩ := h'.jobs value hvalue
      rw [hjobs, hjobs', ← hn, ← hn']
    | false => rw [h.keptJobs hgives, h'.keptJobs hgives, hsame.jobs hgives]
  cases effective
  cases effective'
  congr

/-- What a command line does is its task under the settings that hold. -/
theorem ReadFrom.run_eq_perform (h : ReadFrom env s c) (files : Files) (settings : Settings) :
    c.task.run files settings c.verbose = c.task.perform files (override env s settings) := by
  have hformat : s.value? .format = s.own.value? .format := h.value?_eq rfl
  have hjobs : s.value? .jobs = s.own.value? .jobs := h.value?_eq rfl
  have hrecover : s.gives .recover = s.own.has .recover := by
    rw [Sides.gives, h.value?_eq rfl, Given.has]
  have htask := h.task
  unfold task? at htask
  split at htask
  · rw [← Option.some.inj htask, Task.run, Task.perform, override, hformat, hrecover]
  · rw [← Option.some.inj htask, Task.run, Task.perform, override, hjobs, h.verbose]
    exact congrArg (fun jobs => runCheck files ⟨_, jobs, _⟩) Option.orElse_eq_or
  · cases htask

/-! ## The files that are looked at -/

/-- Reading a source text looks at its file alone. -/
theorem readSource_congr {path : String} (h : files' path = files path) :
    readSource files' path = readSource files path := by
  rw [readSource, h, readSource]

/-- Checking files looks at these files alone. -/
theorem checkFiles_congr {paths : List String} (h : files.AgreeOn files' paths) (jobs : Option Nat) :
    checkFiles files' paths jobs = checkFiles files paths jobs := by
  have hmapM : paths.mapM (checkFile files') = paths.mapM (checkFile files) := by
    induction paths with
    | nil => rfl
    | cons path paths ih =>
      obtain ⟨hpath, hpaths⟩ := List.forall_mem_cons.1 h
      rw [List.mapM_cons, List.mapM_cons, ih hpaths, checkFile, readSource_congr hpath, ← checkFile]
  rw [checkFiles, hmapM, checkFiles]

/-- A task looks at no other files than the source files. -/
theorem CommandLine.perform_congr (h : files.AgreeOn files' c.sourcePaths) (settings : Settings) :
    c.task.perform files' settings = c.task.perform files settings := by
  obtain ⟨verbose, config, task⟩ := c
  cases task with
  | tokens path format recover =>
    rw [Task.perform, dumpTokens, readSource_congr (h path (List.mem_singleton_self path))]
    rfl
  | check paths jobs =>
    have hpaths : files.AgreeOn files' paths := h
    rw [Task.perform, runCheck, checkFiles_congr hpaths]
    rfl

/-- Whether a place counts depends on the file there alone. -/
theorem counts_congr (h : files' x.path = files x.path) : x.counts files' = x.counts files := by
  rw [SettingsSource.counts, h, SettingsSource.counts]

/-- Settings depend on the file that holds them alone. -/
theorem settingsAt_congr {path : String} (h : files' path = files path) :
    settingsAt files' path = settingsAt files path := by
  rw [settingsAt, h, settingsAt]

/-- The settings come from the first place that counts. -/
theorem ReadFrom.settingsPath?_eq (h : ReadFrom env s c) (files : Files) (directory : Option String) :
    settingsPath? files directory c.config =
      ((settingsSources env directory s).find? (·.counts files)).map (·.path) := by
  rw [h.config, settingsSources]
  cases s.value? .config with
  | some path => rfl
  | none =>
    cases env.config with
    | some path => rfl
    | none =>
      cases hlocal : (files localSettings).isPresent with
      | true => simp [settingsPath?, SettingsSource.counts, hlocal]
      | false =>
        cases directory with
        | none => simp [settingsPath?, SettingsSource.counts, hlocal]
        | some d =>
          cases huser : (files (userSettings d)).isPresent with
          | true => simp [settingsPath?, SettingsSource.counts, hlocal, huser]
          | false => simp [settingsPath?, SettingsSource.counts, hlocal, huser]

/-- A settings file that is missing is a failure. -/
theorem settingsAt_of_missing (h : files x.path = .missing) :
    settingsAt files x.path = .error (.settingsNotFound x.path) := by
  rw [settingsAt, h]

/-- Where there is something, it has to be a text that holds settings. -/
theorem settingsAt_of_isPresent (h : (files x.path).isPresent = true) :
    settingsAt files x.path =
      match (files x.path).text? with
      | .error e => .error (.ofReadError e)
      | .ok text => (Settings.parse text).mapError .settingsMalformed := by
  unfold settingsAt
  cases hentry : files x.path with
  | missing =>
    rw [hentry] at h
    cases h
  | directory | file _ | special _ => rfl

/-- There is something where there is text. -/
theorem isPresent_of_text {entry : Entry} {text : String} (h : entry.text? = .ok text) :
    entry.isPresent = true := by
  cases entry with
  | missing => cases h
  | directory | file _ | special _ => rfl

/-- The settings that a file holds are those that are found. -/
theorem settingsAt_of_holds (h : x.Holds files settings) : settingsAt files x.path = .ok settings := by
  obtain ⟨text, htext, hparse⟩ := h
  rw [settingsAt_of_isPresent (isPresent_of_text htext), htext]
  dsimp only
  rw [hparse]
  rfl

/-- A place that holds settings counts. -/
theorem counts_of_holds (h : x.Holds files settings) : x.counts files = true := by
  obtain ⟨text, htext, -⟩ := h
  rw [SettingsSource.counts, isPresent_of_text htext, Bool.or_true]

/-- Places that do not count do not count in another view that agrees on them. -/
theorem not_counts_congr (h : files.AgreeOn files' (higher.map SettingsSource.path))
    (hhigher : ∀ y ∈ higher, y.counts files = false) : ∀ y ∈ higher, y.counts files' = false :=
  fun y hy => (counts_congr (h _ (List.mem_map_of_mem hy))).trans (hhigher y hy)

/-! ## What the first place that counts makes of a run -/

/-- A command line that is understood is run. -/
theorem respond_eq (hread : readCommandLine env arguments = .ok c) :
    respond env files directory arguments = .finished (c.run files directory) := by
  rw [respond, hread]

namespace ReadFrom
variable (hread : readCommandLine env arguments = .ok c) (h : ReadFrom env s c)
include hread h

/-- Without a place that counts, the defaults hold. -/
theorem respond_of_none (hnone : ∀ x ∈ settingsSources env directory s, x.counts files = false) :
    respond env files directory arguments =
      .finished (c.task.perform files (override env s .default)) := by
  have hfind : (settingsSources env directory s).find? (·.counts files) = none :=
    List.find?_eq_none.2 fun x hx => Bool.eq_false_iff.1 (hnone x hx)
  have hload : loadSettings files directory c.config = .ok .default := by
    rw [loadSettings, h.settingsPath?_eq, hfind]
    rfl
  rw [respond_eq hread, CommandLine.run, hload, ← h.run_eq_perform]

variable (hsources : settingsSources env directory s = higher ++ x :: lower)
include hsources

/-- The first place that counts has to hold settings, which hold besides what was said. -/
theorem respond_of_first (hhigher : ∀ y ∈ higher, y.counts files = false) (hx : x.counts files = true) :
    respond env files directory arguments =
      .finished (match settingsAt files x.path with
        | .error failure => .failed failure
        | .ok settings => c.task.perform files (override env s settings)) := by
  have hfind : (settingsSources env directory s).find? (·.counts files) = some x :=
    List.find?_eq_some_iff_append.2
      ⟨hx, higher, lower, hsources, fun y hy => by rw [hhigher y hy, Bool.not_false]⟩
  have hload : loadSettings files directory c.config = settingsAt files x.path := by
    rw [loadSettings, h.settingsPath?_eq, hfind]
    rfl
  rw [respond_eq hread, CommandLine.run, hload]
  cases settingsAt files x.path with
  | error failure => rfl
  | ok settings => exact congrArg Response.finished (h.run_eq_perform files settings)

/-- The first place that counts decides what comes of a run. -/
theorem decides (hhigher : ∀ y ∈ higher, y.counts files = false) (hx : x.counts files = true) :
    x.Decides env files directory arguments s c higher := by
  have hrespond := respond_of_first hread h hsources hhigher hx
  -- Another view that agrees on the places so far has its settings from the same place.
  have hagree {files' : Files} (hfiles : files.AgreeOn files' ((higher ++ [x]).map SettingsSource.path)) :
      respond env files' directory arguments =
        .finished (match settingsAt files x.path with
          | .error failure => .failed failure
          | .ok settings => c.task.perform files' (override env s settings)) := by
    rw [List.map_append] at hfiles
    obtain ⟨hbefore, hpath⟩ := List.forall_mem_append.1 hfiles
    have hpath : files' x.path = files x.path := hpath _ (List.mem_singleton_self _)
    rw [respond_of_first hread h hsources (not_counts_congr hbefore hhigher)
      ((counts_congr hpath).trans hx), settingsAt_congr hpath]
  have hfails {failure : Failure} (hsettings : settingsAt files x.path = .error failure) :
      FailsOn env files directory arguments ((higher ++ [x]).map SettingsSource.path) failure := by
    intro files' hfiles
    rw [hagree hfiles, hsettings]
    rfl
  have hholds {settings : Settings} (hsettings : x.Holds files settings) :
      respond env files directory arguments =
        .finished (c.task.perform files (override env s settings)) := by
    rw [hrespond, settingsAt_of_holds hsettings]
  refine ⟨?_, ?_, ?_, ?_, ?_, ?_⟩
  · intro files' hfiles
    obtain ⟨hplaces, hsourceFiles⟩ := List.forall_mem_append.1 hfiles
    rw [hagree hplaces, hrespond]
    cases settingsAt files x.path with
    | error failure => rfl
    | ok settings =>
      exact congrArg Response.finished (CommandLine.perform_congr hsourceFiles _)
  · exact fun hmissing => hfails (settingsAt_of_missing hmissing)
  · intro hpresent e htext
    refine hfails ?_
    rw [settingsAt_of_isPresent hpresent, htext]
  · intro text e htext hparse
    refine hfails ?_
    rw [settingsAt_of_isPresent (isPresent_of_text htext), htext]
    dsimp only
    rw [hparse]
    rfl
  · exact fun settings hsettings => ⟨_, h.overridden settings, hholds hsettings⟩
  · intro settings settings' files' hsettings hsettings' hfiles hsame
    obtain ⟨hbefore, hsourceFiles⟩ := List.forall_mem_append.1 hfiles
    rw [hholds hsettings, respond_of_first hread h hsources (not_counts_congr hbefore hhigher)
      (counts_of_holds hsettings'), settingsAt_of_holds hsettings']
    dsimp only
    rw [(h.overridden settings).eq_of_sameUnlessSaid (h.overridden settings') hsame,
      CommandLine.perform_congr hsourceFiles]

end ReadFrom

end

end Command

end BrightLexer
