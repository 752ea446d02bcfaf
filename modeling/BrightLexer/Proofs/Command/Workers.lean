import BrightLexer.Proofs.Command.Reports
import BrightLexer.Proofs.Scan.Run
import Mathlib.Algebra.GroupWithZero.Nat

/-!
# Checking files with many workers

`checkFiles` scans one file after the other. A check may as well scan some of them at the same time, and
its workers may finish in any order. `Pool` is such a check: files wait for a worker, a worker takes one
up and finishes it, and once a file could not be read the ones that still wait may be abandoned
(`Pool.Step`). The reports are collected in the order of the files, unless there was a failure, of which
the first is kept (`Pool.result`).

`check_in_parallel` says that nothing of this can be seen. However many workers there are and whatever
they do in turn, they come to rest (`Pool.Steps.length_le`); what they collect are the reports on the
files in their order, if all can be read, and otherwise the failure of one of those that cannot
(`Pool.Sound.result_cases`). What `runCheck` does is what comes of one of these ways to proceed
(`Pool.exists_steps_mapM`), so that it, too, writes about all reports or fails with one of those failures.
-/

namespace BrightLexer

/-- How far the scanning of a file is. -/
inductive Progress where
  /-- No worker has taken it up. -/
  | waiting
  /-- A worker is at it. -/
  | running
  /-- A worker is done with it. -/
  | finished (result : Except Failure FileReport)
  /-- No worker will take it up any more. -/
  | abandoned

namespace Progress

/-- Whether a worker is at it. -/
def isRunning : Progress → Bool
  | running => true
  | _ => false

/-- Whether nothing more is done. -/
def isOver : Progress → Bool
  | finished _ | abandoned => true
  | _ => false

/-- No worker is at a file for which nothing more is done. -/
theorem isRunning_of_isOver {p : Progress} (h : p.isOver = true) : p.isRunning = false := by
  cases p with
  | running => cases h
  | _ => rfl

/-- The report, if there is one. -/
def report? : Progress → Option FileReport
  | finished (.ok report) => some report
  | _ => none

/-- How many more steps there may be. -/
def remaining : Progress → Nat
  | waiting => 2
  | running => 1
  | _ => 0

end Progress

/-- Files that are scanned by some workers. -/
structure Pool where
  /-- The files in the order in which they were given, and how far each of them is. -/
  tasks : List (String × Progress)
  /-- The failure that is kept. -/
  failure : Option Failure

namespace Pool

/-- Before the first file is taken up. -/
def start (paths : List String) : Pool := ⟨paths.map fun path => (path, .waiting), none⟩

/-- The number of workers that are at a file. -/
def busy (p : Pool) : Nat := p.tasks.countP fun t => t.2.isRunning

/-- The failure that is kept after a file: the first one. -/
def keepFirst (failure : Option Failure) (result : Except Failure FileReport) : Option Failure :=
  match failure, result with
  | none, .error e => some e
  | failure, _ => failure

/-- What can happen next when there are so many workers. -/
inductive Step (files : Files) (workers : Nat) : Pool → Pool → Prop where
  /-- A worker that is free takes up a file. -/
  | takeUp {front back : List (String × Progress)} {path : String} {failure : Option Failure}
      (h : busy ⟨front ++ (path, .waiting) :: back, failure⟩ < workers) :
      Step files workers ⟨front ++ (path, .waiting) :: back, failure⟩
        ⟨front ++ (path, .running) :: back, failure⟩
  /-- A worker is done with its file. -/
  | finish {front back : List (String × Progress)} {path : String} {failure : Option Failure} :
      Step files workers ⟨front ++ (path, .running) :: back, failure⟩
        ⟨front ++ (path, .finished (checkFile files path)) :: back,
          keepFirst failure (checkFile files path)⟩
  /-- After a failure, a file is given up. -/
  | abandon {front back : List (String × Progress)} {path : String} {failure : Option Failure}
      (h : failure.isSome = true) :
      Step files workers ⟨front ++ (path, .waiting) :: back, failure⟩
        ⟨front ++ (path, .abandoned) :: back, failure⟩

/-- Some steps, and their number. -/
inductive Steps (files : Files) (workers : Nat) : Nat → Pool → Pool → Prop where
  | refl (p : Pool) : Steps files workers 0 p p
  | step {n : Nat} {p q r : Pool} (first : Step files workers p q)
      (later : Steps files workers n q r) : Steps files workers (n + 1) p r

/-- Nothing more is done with any file. -/
def AtRest (p : Pool) : Prop := ∀ t ∈ p.tasks, t.2.isOver = true

/-- What was collected: the reports in the order of the files, or the failure that was kept. -/
def result (p : Pool) : Except Failure (List FileReport) :=
  match p.failure with
  | some failure => .error failure
  | none => .ok (p.tasks.filterMap fun t => t.2.report?)

/-- How many more steps there may be. -/
def remaining (p : Pool) : Nat := (p.tasks.map fun t => t.2.remaining).sum

/-- A file is as far as it can be: what a worker found is what checking the file alone finds, and
without a failure there is a report. -/
def Accounted (files : Files) (failed : Bool) (t : String × Progress) : Prop :=
  match t.2 with
  | .waiting | .running => True
  | .finished result => result = checkFile files t.1 ∧ (failed = false → ∃ report, result = .ok report)
  | .abandoned => failed = true

/-- What every step keeps. -/
structure Sound (files : Files) (paths : List String) (p : Pool) : Prop where
  /-- No file is lost, and they keep their order. -/
  order : p.tasks.map Prod.fst = paths
  /-- Each file is as far as it can be. -/
  tasks : ∀ t ∈ p.tasks, Accounted files p.failure.isSome t
  /-- A failure is that of one of the files. -/
  failure : ∀ e, p.failure = some e → ∃ path ∈ paths, checkFile files path = .error e

section
variable {files : Files} {workers n : Nat} {paths : List String} {p q r : Pool}

/-! ## Every run ends -/

/-- The steps that remain are those for one file and those for the files on both sides of it. -/
theorem remaining_append_cons (front back : List (String × Progress)) (t : String × Progress)
    (failure : Option Failure) :
    (Pool.mk (front ++ t :: back) failure).remaining =
      (front.map fun t => t.2.remaining).sum + t.2.remaining +
        (back.map fun t => t.2.remaining).sum := by
  rw [remaining, List.map_append, List.sum_append, List.map_cons, List.sum_cons, Nat.add_assoc]

/-- Each step leaves fewer steps. -/
theorem Step.remaining_lt (h : Step files workers p q) : q.remaining < p.remaining := by
  cases h with
  | takeUp h => simp only [remaining_append_cons, Progress.remaining]; omega
  | finish => simp only [remaining_append_cons, Progress.remaining]; omega
  | abandon h => simp only [remaining_append_cons, Progress.remaining]; omega

/-- The steps made and those that remain are no more than there were at first. -/
theorem Steps.length_add_remaining_le (h : Steps files workers n p q) :
    n + q.remaining ≤ p.remaining := by
  induction h with
  | refl p => exact Nat.le_of_eq (Nat.zero_add _)
  | step first later ih =>
    have hless := first.remaining_lt
    omega

/-- At the start there are two steps for each file. -/
theorem remaining_start (paths : List String) : (start paths).remaining = 2 * paths.length := by
  induction paths with
  | nil => rfl
  | cons path paths ih =>
    have hcons : (start (path :: paths)).remaining = 2 + (start paths).remaining := rfl
    rw [hcons, ih, List.length_cons]
    omega

/-- There are at most two steps for each file. -/
theorem Steps.length_le (h : Steps files workers n (start paths) p) : n ≤ 2 * paths.length := by
  have hle := h.length_add_remaining_le
  rw [remaining_start] at hle
  omega

/-- No worker is busy if none is at a file. -/
theorem busy_eq_zero (h : ∀ t ∈ p.tasks, t.2.isRunning = false) : p.busy = 0 :=
  List.countP_eq_zero.2 fun t ht => Bool.eq_false_iff.1 (h t ht)

/-- As long as a file waits or is being scanned, something can happen. -/
theorem atRest_or_exists_step (hworkers : 0 < workers) (p : Pool) :
    p.AtRest ∨ ∃ q, Step files workers p q := by
  obtain ⟨tasks, failure⟩ := p
  by_cases hrunning : ∃ path, (path, Progress.running) ∈ tasks
  · obtain ⟨path, hmem⟩ := hrunning
    obtain ⟨front, back, rfl⟩ := List.append_of_mem hmem
    exact .inr ⟨_, .finish⟩
  by_cases hwaiting : ∃ path, (path, Progress.waiting) ∈ tasks
  · obtain ⟨path, hmem⟩ := hwaiting
    have hfree : busy ⟨tasks, failure⟩ = 0 := by
      refine busy_eq_zero ?_
      rintro ⟨path, progress⟩ ht
      cases progress with
      | running => exact absurd ⟨path, ht⟩ hrunning
      | _ => rfl
    obtain ⟨front, back, rfl⟩ := List.append_of_mem hmem
    exact .inr ⟨_, .takeUp (by rw [hfree]; exact hworkers)⟩
  · refine .inl ?_
    rintro ⟨path, progress⟩ ht
    cases progress with
    | waiting => exact absurd ⟨path, ht⟩ hwaiting
    | running => exact absurd ⟨path, ht⟩ hrunning
    | finished result => rfl
    | abandoned => rfl

/-! ## What every run keeps -/

/-- A file that is accounted for stays so when a failure comes up. -/
theorem Accounted.mono {failed failed' : Bool} {t : String × Progress} (h : Accounted files failed t)
    (hfailed : failed = true → failed' = true) : Accounted files failed' t := by
  obtain ⟨path, progress⟩ := t
  cases progress with
  | waiting => trivial
  | running => trivial
  | finished result =>
    refine ⟨h.1, fun hnot => h.2 (Bool.eq_false_iff.2 fun hf => ?_)⟩
    rw [hfailed hf] at hnot
    cases hnot
  | abandoned => exact hfailed h

/-- A failure that is kept is not lost. -/
theorem isSome_keepFirst (failure : Option Failure) (result : Except Failure FileReport)
    (h : failure.isSome = true) : (keepFirst failure result).isSome = true := by
  cases failure with
  | none => cases h
  | some e => rfl

/-- At the start all files wait, in their order. -/
theorem sound_start (paths : List String) : (start paths).Sound files paths where
  order := by
    rw [start, List.map_map]
    exact List.map_id _
  tasks := by
    intro t ht
    obtain ⟨path, -, rfl⟩ := List.mem_map.1 ht
    trivial
  failure := nofun

/-- A file that a worker is done with is accounted for. -/
theorem accounted_finished (files : Files) (path : String) (failure : Option Failure) :
    Accounted files (keepFirst failure (checkFile files path)).isSome
      (path, .finished (checkFile files path)) := by
  refine ⟨rfl, fun hnone => ?_⟩
  cases hresult : checkFile files path with
  | ok report => exact ⟨report, rfl⟩
  | error e =>
    rw [hresult] at hnone
    cases failure with
    | none => cases hnone
    | some e => cases hnone

/-- A file gets further, and the failure that is kept may be a new one. -/
theorem Sound.replace {front back : List (String × Progress)} {path : String}
    {before after : Progress} {failure failure' : Option Failure}
    (h : Sound files paths ⟨front ++ (path, before) :: back, failure⟩)
    (hkeeps : failure.isSome = true → failure'.isSome = true)
    (hafter : Accounted files failure'.isSome (path, after))
    (hfailure : ∀ e, failure' = some e → failure = some e ∨ checkFile files path = .error e) :
    Sound files paths ⟨front ++ (path, after) :: back, failure'⟩ := by
  obtain ⟨horder, htasks, hkept⟩ := h
  rw [List.map_append, List.map_cons] at horder
  rw [List.forall_mem_append, List.forall_mem_cons] at htasks
  refine ⟨?_, ?_, fun e he => ?_⟩
  · rw [List.map_append, List.map_cons]
    exact horder
  · rw [List.forall_mem_append, List.forall_mem_cons]
    exact ⟨fun t ht => (htasks.1 t ht).mono hkeeps, hafter,
      fun t ht => (htasks.2.2 t ht).mono hkeeps⟩
  · rcases hfailure e he with hold | hnew
    · exact hkept e hold
    · refine ⟨path, ?_, hnew⟩
      rw [← horder]
      exact List.mem_append_right _ (List.mem_cons_self ..)

/-- A failure that is kept is the old one or that of the new result. -/
theorem keepFirst_eq_some {failure : Option Failure} {result : Except Failure FileReport}
    {e : Failure} (h : keepFirst failure result = some e) : failure = some e ∨ result = .error e := by
  cases failure with
  | some e' => exact .inl h
  | none =>
    cases result with
    | ok report => cases h
    | error e' => cases h; exact .inr rfl

/-- Each step keeps a pool sound. -/
theorem Step.sound (h : Step files workers p q) (hp : p.Sound files paths) :
    q.Sound files paths := by
  cases h with
  | takeUp h => exact hp.replace id trivial fun e he => .inl he
  | abandon h => exact hp.replace id h fun e he => .inl he
  | @finish front back path failure =>
    exact hp.replace (isSome_keepFirst failure _) (accounted_finished files path failure)
      fun e he => keepFirst_eq_some he

/-- All steps of a run keep a pool sound. -/
theorem Steps.sound (h : Steps files workers n p q) (hp : p.Sound files paths) :
    q.Sound files paths := by
  induction h with
  | refl p => exact hp
  | step first later ih => exact ih (first.sound hp)

/-! ## What is collected -/

/-- If each file has its report, these are collected in the order of the files. -/
theorem reportsOn_filterMap {tasks : List (String × Progress)}
    (h : ∀ t ∈ tasks, ∃ report, t.2 = .finished (.ok report) ∧ checkFile files t.1 = .ok report) :
    ReportsOn files (tasks.map Prod.fst) (tasks.filterMap fun t => t.2.report?) := by
  induction tasks with
  | nil => exact .nil
  | cons t tasks ih =>
    obtain ⟨⟨report, hprogress, hreport⟩, htasks⟩ := List.forall_mem_cons.1 h
    have hsome : t.2.report? = some report := by rw [hprogress]; rfl
    rw [List.map_cons, List.filterMap_cons, hsome]
    exact .cons hreport (ih htasks)

/-- At rest, there are reports on all files, or the failure of one of them was kept. -/
theorem Sound.result_cases (h : p.Sound files paths) (hrest : p.AtRest) :
    (∃ reports, p.result = .ok reports ∧ ReportsOn files paths reports) ∨
      ∃ path ∈ paths, ∃ e, checkFile files path = .error e ∧ p.result = .error e := by
  obtain ⟨horder, htasks, hfailure⟩ := h
  rw [result]
  cases hf : p.failure with
  | some e =>
    obtain ⟨path, hpath, he⟩ := hfailure e hf
    exact .inr ⟨path, hpath, e, he, rfl⟩
  | none =>
    refine .inl ⟨_, rfl, ?_⟩
    rw [← horder]
    refine reportsOn_filterMap fun t ht => ?_
    have haccounted := htasks t ht
    have hover := hrest t ht
    obtain ⟨path, progress⟩ := t
    rw [hf] at haccounted
    cases progress with
    | waiting => cases hover
    | running => cases hover
    | abandoned => cases haccounted
    | finished result =>
      obtain ⟨hresult, hok⟩ := haccounted
      obtain ⟨report, rfl⟩ := hok rfl
      exact ⟨report, rfl, hresult.symm⟩

/-! ## One file after the other -/

/-- After a failure all files that still wait may be abandoned. -/
theorem steps_abandon (files : Files) (workers : Nat) (front : List (String × Progress))
    (paths : List String) (e : Failure) :
    ∃ n, Steps files workers n ⟨front ++ paths.map fun path => (path, .waiting), some e⟩
      ⟨front ++ paths.map fun path => (path, .abandoned), some e⟩ := by
  induction paths generalizing front with
  | nil => exact ⟨0, .refl _⟩
  | cons path paths ih =>
    obtain ⟨n, hsteps⟩ := ih (front ++ [(path, .abandoned)])
    rw [List.append_assoc, List.append_assoc] at hsteps
    exact ⟨n + 1, .step (.abandon rfl) hsteps⟩

/-- Files can be scanned one after the other up to the first failure. What is collected then is what
`mapM` collects. -/
theorem exists_steps_mapM (hworkers : 0 < workers) {front : List (String × Progress)}
    (hfront : ∀ t ∈ front, t.2.isOver = true) (paths : List String) :
    ∃ n p, Steps files workers n ⟨front ++ paths.map fun path => (path, .waiting), none⟩ p ∧
      p.AtRest ∧ p.result = (paths.mapM (checkFile files)).map
        ((front.filterMap fun t => t.2.report?) ++ ·) := by
  -- On the files that still wait. Those in front are over, so that a worker is always free.
  induction paths generalizing front with
  | nil =>
    refine ⟨0, _, .refl _, ?_, ?_⟩
    · rw [AtRest, List.map_nil, List.append_nil]
      exact hfront
    · rw [List.mapM_nil, List.map_nil, List.append_nil, result]
      exact congrArg Except.ok (List.append_nil _).symm
  | cons path paths ih =>
    have hfree : busy ⟨front ++ (path, .waiting) :: paths.map fun path => (path, .waiting), none⟩ <
        workers := by
      refine Nat.lt_of_le_of_lt (Nat.le_of_eq (busy_eq_zero ?_)) hworkers
      rw [List.forall_mem_append, List.forall_mem_cons]
      refine ⟨fun t ht => Progress.isRunning_of_isOver (hfront t ht), rfl, fun t ht => ?_⟩
      obtain ⟨path, -, rfl⟩ := List.mem_map.1 ht
      rfl
    have hfinish := @Step.finish files workers front (paths.map fun path => (path, .waiting)) path none
    cases hresult : checkFile files path with
    | ok report =>
      rw [hresult] at hfinish
      have hnext : ∀ t ∈ front ++ [(path, .finished (.ok report))], t.2.isOver = true := by
        rw [List.forall_mem_append, List.forall_mem_singleton]
        exact ⟨hfront, rfl⟩
      obtain ⟨n, p, hsteps, hrest, hp⟩ := ih hnext
      rw [List.append_assoc] at hsteps
      refine ⟨n + 1 + 1, p, .step (.takeUp hfree) (.step hfinish hsteps), hrest, ?_⟩
      rw [hp, List.mapM_cons, hresult, List.filterMap_append]
      cases paths.mapM (checkFile files) with
      | error e => rfl
      | ok reports => exact congrArg Except.ok (List.append_assoc ..)
    | error e =>
      rw [hresult] at hfinish
      obtain ⟨n, hsteps⟩ := steps_abandon files workers (front ++ [(path, .finished (.error e))])
        paths e
      rw [List.append_assoc, List.append_assoc] at hsteps
      refine ⟨n + 1 + 1, _, .step (.takeUp hfree) (.step hfinish hsteps), ?_, ?_⟩
      · rw [AtRest, List.forall_mem_append, List.singleton_append, List.forall_mem_cons]
        refine ⟨hfront, rfl, fun t ht => ?_⟩
        obtain ⟨path, -, rfl⟩ := List.mem_map.1 ht
        rfl
      · rw [List.mapM_cons, hresult]
        rfl

/-- One way to proceed is that of `checkFiles`: one file after the other, up to the first failure. -/
theorem exists_steps_checkFiles (files : Files) (hworkers : 0 < workers) (paths : List String)
    {jobs : Option Nat} (hjobs : jobs ≠ some 0) :
    ∃ n p, Steps files workers n (start paths) p ∧ p.AtRest ∧
      p.result = checkFiles files paths jobs := by
  obtain ⟨n, p, hsteps, hrest, hp⟩ :=
    @exists_steps_mapM files workers hworkers [] (List.forall_mem_nil _) paths
  refine ⟨n, p, hsteps, hrest, ?_⟩
  rw [hp, checkFiles, if_neg hjobs]
  cases paths.mapM (checkFile files) with
  | error e => rfl
  | ok reports => rfl

end

end Pool

/-! ## What is written -/

/-- The lines that clean files have when they are asked for. -/
def okLines (reports : List FileReport) : String :=
  String.join ((reports.filter FileReport.isClean).map fun r =>
    s!"{r.path}: ok ({r.tokenCount} tokens)\n")

/-- What a command writes about the reports on files. -/
structure Outcome.TellsOf (paths : List String) (verbose : Bool) (reports : List FileReport)
    (o : Outcome) : Prop where
  /-- On the error stream, the diagnostics of the files that are not clean, in the order of the files:
  one rendering for each of them, with the path of the file before it. -/
  err : o.err = String.join ((reports.filter fun r => !r.isClean).map fun r =>
    String.join (r.diagnostics.map fun d => s!"{r.path}: {d.render r.source}"))
  /-- On the output, a summary with the number of files and of all diagnostics, and before it, if asked
  for, a line for each clean file. -/
  out : o.out = (if verbose then okLines reports else "") ++
    s!"checked {paths.length} file(s): {(reports.map (·.diagnostics.length)).sum} error(s)\n"
  /-- It succeeds if every file is clean, and only then. -/
  success : o.failure = none ↔ ∀ r ∈ reports, r.isClean = true
  /-- Otherwise it fails with the number of the other files. -/
  failure : o.failure ≠ none → o.failure =
    some (.validation s!"{reports.countP (!·.isClean)} file(s) with lexical errors")

section
variable {files : Files} {paths : List String} {reports : List FileReport}

/-- Clean files have no diagnostics to count. -/
theorem sum_diagnostics (reports : List FileReport) :
    ((reports.filter fun r => !r.isClean).map fun r => r.diagnostics.length).foldl (· + ·) 0 =
      (reports.map (·.diagnostics.length)).sum := by
  rw [← List.sum_eq_foldl]
  induction reports with
  | nil => rfl
  | cons report reports ih =>
    cases hclean : report.isClean with
    | true =>
      have hnone : report.diagnostics.length = 0 := by rw [List.isEmpty_iff.1 hclean]; rfl
      rw [List.filter_cons_of_neg (by simp [hclean]), List.map_cons, List.sum_cons, ih, hnone,
        Nat.zero_add]
    | false =>
      rw [List.filter_cons_of_pos (by simp [hclean]), List.map_cons, List.sum_cons, ih,
        List.map_cons, List.sum_cons]

/-- What is written of reports tells of each of them. -/
theorem tellsOf_summarize (h : ReportsOn files paths reports) (verbose : Bool) :
    (summarize verbose reports).TellsOf paths verbose reports := by
  have hempty : (reports.filter fun r => !r.isClean).isEmpty = true ↔
      ∀ r ∈ reports, r.isClean = true := by
    rw [List.isEmpty_iff, List.filter_eq_nil_iff]
    simp
  refine ⟨rfl, ?_, ?_, ?_⟩
  · rw [← sum_diagnostics, h.length_eq]
    rfl
  · rw [← hempty]
    show (if _ then none else some _) = none ↔ _
    split
    · next h => exact iff_of_true rfl h
    · next h => exact iff_of_false nofun h
  · intro hfailed
    rw [List.countP_eq_length_filter]
    exact if_neg fun h => hfailed (if_pos h)

/-- Lines for clean files are all that is written when they are asked for and else is not. -/
theorem summarize_verbose (reports : List FileReport) :
    summarize true reports =
      { summarize false reports with out := okLines reports ++ (summarize false reports).out } := by
  unfold summarize okLines
  simp only [if_true, Bool.false_eq_true, if_false, String.empty_append]

/-! ## The theorem -/

/-- What workers collect from files that can all be read, and what comes of it. -/
structure Pool.Collects (files : Files) (paths : List String) (reports : List FileReport)
    (p : Pool) : Prop where
  /-- They collect reports. -/
  result : p.result = .ok reports
  /-- There is one for each file, in the order of the files, as if the file had been checked alone. -/
  reportsOn : ReportsOn files paths reports
  /-- For any number of jobs these are the reports that `checkFiles` gives. -/
  checkFiles : ∀ jobs, jobs ≠ some 0 → checkFiles files paths jobs = .ok reports
  /-- And what `runCheck` writes is what comes of the result. -/
  runCheck : ∀ jobs verbose, jobs ≠ some 0 →
    runCheck files ⟨paths, jobs, verbose⟩ = .ofReports verbose p.result
  /-- It tells of each of the reports. -/
  tellsOf : ∀ verbose, (Outcome.ofReports verbose p.result).TellsOf paths verbose reports
  /-- To ask for lines for clean files adds these lines and changes nothing else. -/
  verbose : Outcome.ofReports true p.result = { Outcome.ofReports false p.result with
    out := okLines reports ++ (Outcome.ofReports false p.result).out }

/-- If all files can be read, their reports are collected. -/
theorem Pool.Sound.collects {p : Pool} (h : p.Sound files paths) (hrest : p.AtRest)
    (hpaths : paths ≠ []) (htext : ∀ path ∈ paths, Files.IsText files path) :
    ∃ reports, p.Collects files paths reports := by
  rcases h.result_cases hrest with ⟨reports, hresult, hreports⟩ | ⟨path, hpath, e, he, -⟩
  · refine ⟨reports, hresult, hreports, ?_, ?_, ?_, ?_⟩
    · exact fun jobs hjobs => (checkFiles_eq_ok_iff hjobs).2 hreports
    · intro jobs verbose hjobs
      rw [runCheck_eq hpaths, (checkFiles_eq_ok_iff hjobs).2 hreports, hresult]
    · intro verbose
      rw [hresult]
      exact tellsOf_summarize hreports verbose
    · rw [hresult]
      exact summarize_verbose reports
  · obtain ⟨report, hreport⟩ := checkFile_of_isText (htext path hpath)
    cases he.symm.trans hreport

/-- If a file cannot be read, the failure of one such file is kept. -/
theorem Pool.Sound.fails {p : Pool} (h : p.Sound files paths) (hrest : p.AtRest)
    (hfile : ∃ path ∈ paths, ¬ Files.IsText files path) :
    ∃ path ∈ paths, ∃ e, checkFile files path = .error e ∧ p.result = .error e := by
  rcases h.result_cases hrest with ⟨reports, -, hreports⟩ | hfails
  · obtain ⟨path, hpath, hnot⟩ := hfile
    exact absurd (hreports.isText path hpath) hnot
  · exact hfails

end

/-- Checking files comes out the same, whatever the parallelism. Let there be some files, and one or
more workers. Whatever the workers do, they do at most two things for each file and only stop when
there is nothing left to do; one way to proceed is that of `checkFiles`, and what `runCheck` does comes
of it. At rest, they have collected the reports on the files in order, if all files can be read, and
this is what is written of them. If not, the failure of a file that cannot be read is kept, and nothing
is written; so `runCheck` fails with the failure of such a file and writes nothing. -/
theorem check_in_parallel (files : Files) (paths : List String) (hpaths : paths ≠ [])
    (jobs : Option Nat) (hjobs : jobs ≠ some 0) (cores : Nat) (hcores : 0 < cores) :
    let workers := jobs.getD cores
    (∃ n p, Pool.Steps files workers n (.start paths) p ∧ p.AtRest ∧
      p.result = checkFiles files paths jobs ∧
      ∀ verbose, runCheck files ⟨paths, jobs, verbose⟩ = .ofReports verbose p.result) ∧
    ((∃ path ∈ paths, ¬ Files.IsText files path) →
      ∃ path ∈ paths, ∃ e, checkFile files path = .error e ∧
        ∀ verbose, runCheck files ⟨paths, jobs, verbose⟩ = ⟨"", "", some e⟩) ∧
    ∀ n p, Pool.Steps files workers n (.start paths) p →
      n ≤ 2 * paths.length ∧ (p.AtRest ∨ ∃ q, Pool.Step files workers p q) ∧
      (p.AtRest → (∀ path ∈ paths, Files.IsText files path) →
        ∃ reports, p.Collects files paths reports) ∧
      (p.AtRest → (∃ path ∈ paths, ¬ Files.IsText files path) →
        ∃ path ∈ paths, ∃ e, checkFile files path = .error e ∧
          ∀ verbose, Outcome.ofReports verbose p.result = ⟨"", "", some e⟩) := by
  intro workers
  have hworkers : 0 < workers := by
    cases jobs with
    | none => exact hcores
    | some n => exact Nat.pos_of_ne_zero fun h => hjobs (congrArg some h)
  have hfails {n : Nat} {p : Pool} (hsteps : Pool.Steps files workers n (.start paths) p)
      (hrest : p.AtRest) (hfile : ∃ path ∈ paths, ¬ Files.IsText files path) :
      ∃ path ∈ paths, ∃ e, checkFile files path = .error e ∧
        ∀ verbose, Outcome.ofReports verbose p.result = ⟨"", "", some e⟩ := by
    obtain ⟨path, hpath, e, he, hresult⟩ :=
      (hsteps.sound (Pool.sound_start paths)).fails hrest hfile
    refine ⟨path, hpath, e, he, fun verbose => ?_⟩
    rw [hresult]
    rfl
  obtain ⟨n, p, hsteps, hrest, hresult⟩ := Pool.exists_steps_checkFiles files hworkers paths hjobs
  have hrun (verbose : Bool) : runCheck files ⟨paths, jobs, verbose⟩ = .ofReports verbose p.result := by
    rw [runCheck_eq hpaths, hresult]
  refine ⟨⟨n, p, hsteps, hrest, hresult, hrun⟩, fun hfile => ?_, fun n p hsteps => ?_⟩
  · obtain ⟨path, hpath, e, he, hfailed⟩ := hfails hsteps hrest hfile
    exact ⟨path, hpath, e, he, fun verbose => (hrun verbose).trans (hfailed verbose)⟩
  · refine ⟨hsteps.length_le, Pool.atRest_or_exists_step hworkers p, fun hrest htext => ?_, ?_⟩
    · exact (hsteps.sound (Pool.sound_start paths)).collects hrest hpaths htext
    · exact hfails hsteps

/-- Two workers on three files, one of them given twice, of which the other is clean; and two workers on the
clean file and one that is missing, of which nothing but the failure is seen. -/
theorem check_in_parallel_twice :
    let files : Files := fun path =>
      if path = "a" then .file "@".toUTF8 else if path = "b" then .file "1".toUTF8 else .missing
    let out := "b: ok (2 tokens)\nchecked 3 file(s): 2 error(s)\n"
    let unclean := Failure.validation "2 file(s) with lexical errors"
    let missing := Failure.validation "not a readable file: c"
    (["a", "b", "a"] ≠ [] ∧ ["b", "c"] ≠ [] ∧ some 2 ≠ some 0 ∧ 0 < 4) ∧
      (∀ n p, Pool.Steps files 2 n (.start ["a", "b", "a"]) p → p.AtRest →
        (Outcome.ofReports true p.result).out = out ∧
          (Outcome.ofReports true p.result).failure = some unclean) ∧
      (runCheck files ⟨["a", "b", "a"], some 2, true⟩).out = out ∧
      (runCheck files ⟨["a", "b", "a"], some 2, true⟩).failure = some unclean ∧
      (∀ n p, Pool.Steps files 2 n (.start ["b", "c"]) p → p.AtRest →
        Outcome.ofReports true p.result = ⟨"", "", some missing⟩) ∧
      runCheck files ⟨["b", "c"], some 2, true⟩ = ⟨"", "", some missing⟩ := by
  intro files out uncleanFiles missing
  have ha : readSource files "a" = .ok "@" := readSource_of_toUTF8 rfl
  have hb : readSource files "b" = .ok "1" := readSource_of_toUTF8 rfl
  have hla : layout "@".toList =
      [⟨⟨0, 1, 1⟩, ⟨[], ['@'], .fault (.unexpectedChar '@')⟩⟩,
        ⟨⟨1, 1, 2⟩, ⟨[], [], .token .eof none⟩⟩] := by
    decide +kernel
  have hlb : layout "1".toList =
      [⟨⟨0, 1, 1⟩, ⟨[], ['1'], .token (.number .integer) (some (.integer 1))⟩⟩,
        ⟨⟨1, 1, 2⟩, ⟨[], [], .token .eof none⟩⟩] := by
    decide +kernel
  let unclean : FileReport :=
    ⟨"a", "@", 1, [(Fault.mk (.unexpectedChar '@') 1 1).diagnostic ⟨0, 1, 1, 1⟩]⟩
  let clean : FileReport := ⟨"b", "1", 2, []⟩
  have hra : checkFile files "a" = .ok unclean := by
    rw [checkFile_of_readSource ha, scanRecovering_eq, hla]
    rfl
  have hrb : checkFile files "b" = .ok clean := by
    rw [checkFile_of_readSource hb, scanRecovering_eq, hlb]
    rfl
  have hrc : checkFile files "c" = .error missing := rfl
  refine ⟨⟨by simp, by simp, by simp, by simp⟩, ?_⟩
  -- All three files can be read.
  have hreports : ReportsOn files ["a", "b", "a"] [unclean, clean, unclean] :=
    .cons hra (.cons hrb (.cons hra .nil))
  obtain ⟨⟨n, p, hsteps, hrest, -, hrun⟩, -, hruns⟩ :=
    check_in_parallel files ["a", "b", "a"] (by simp) (some 2) (by simp) 4 (by simp)
  have htold : ∀ n p, Pool.Steps files 2 n (.start ["a", "b", "a"]) p → p.AtRest →
      (Outcome.ofReports true p.result).out = out ∧
        (Outcome.ofReports true p.result).failure = some uncleanFiles := by
    intro n p hsteps hrest
    obtain ⟨-, -, hcollects, -⟩ := hruns n p hsteps
    obtain ⟨reports, hp⟩ := hcollects hrest hreports.isText
    cases hp.reportsOn.unique hreports
    obtain ⟨-, hout, hsuccess, hfailure⟩ := hp.tellsOf true
    have hfailed : (Outcome.ofReports true p.result).failure ≠ none :=
      fun h => Bool.false_ne_true (hsuccess.1 h unclean (List.mem_cons_self ..))
    refine ⟨hout.trans ?_, (hfailure hfailed).trans ?_⟩
    · decide +kernel
    · decide +kernel
  refine ⟨htold, ?_⟩
  rw [hrun true]
  refine ⟨(htold n p hsteps hrest).1, (htold n p hsteps hrest).2, ?_⟩
  -- Of the other two, only one can.
  have hmissing : ∃ path ∈ ["b", "c"], ¬ Files.IsText files path := by
    refine ⟨"c", by simp, fun htext => ?_⟩
    obtain ⟨report, hreport⟩ := checkFile_of_isText htext
    cases hrc.symm.trans hreport
  have honly : ∀ path ∈ ["b", "c"], ∀ e, checkFile files path = .error e → e = missing := by
    simp only [List.forall_mem_cons, hrb, hrc]
    simp
  obtain ⟨-, hfails, hruns⟩ :=
    check_in_parallel files ["b", "c"] (by simp) (some 2) (by simp) 4 (by simp)
  refine ⟨fun n p hsteps hrest => ?_, ?_⟩
  · obtain ⟨-, -, -, hfailed⟩ := hruns n p hsteps
    obtain ⟨path, hpath, e, he, hnothing⟩ := hfailed hrest hmissing
    rw [hnothing, honly path hpath e he]
  · obtain ⟨path, hpath, e, he, hnothing⟩ := hfails hmissing
    rw [hnothing, honly path hpath e he]

end BrightLexer
