import BrightLexer.Command.Check
import Mathlib.Data.List.Forall2

/-!
# Reports on files

A file can be reported on if it is a regular file of text (`exists_checkFile_iff`). `ReportsOn` says
that reports are those on some files, each in the place of its file: it holds of the reports that
`checkFiles` collects (`checkFiles_eq_ok_iff`), and of no others. What `runCheck` writes is a function
of them (`Outcome.ofReports`).
-/

namespace BrightLexer

/-- A path leads to a regular file of text. -/
def Files.IsText (files : Files) (path : String) : Prop :=
  ∃ content source, files path = .file content ∧ String.fromUTF8? content = some source

/-- Reports on files, each in the place of its file. -/
def ReportsOn (files : Files) (paths : List String) (reports : List FileReport) : Prop :=
  List.Forall₂ (fun path report => checkFile files path = .ok report) paths reports

/-- What checking files comes to, once there are reports on all of them or a failure. -/
def Outcome.ofReports (verbose : Bool) : Except Failure (List FileReport) → Outcome
  | .ok reports => summarize verbose reports
  | .error failure => .failed failure

section
variable {files : Files} {path source : String} {paths : List String} {report : FileReport}
  {reports : List FileReport}

/-! ## One file -/

/-- A source text is read from a regular file whose bytes are a text. -/
theorem readSource_eq_ok_iff : readSource files path = .ok source ↔
    ∃ content, files path = .file content ∧ String.fromUTF8? content = some source := by
  unfold readSource
  split
  · next content hfile =>
    rw [Entry.text?]
    constructor
    · intro h
      split at h
      · next text htext =>
        cases h
        exact ⟨content, hfile, htext⟩
      · cases h
    · rintro ⟨content', hfile', htext⟩
      cases hfile.symm.trans hfile'
      rw [htext]
      rfl
  · next hfile =>
    refine iff_of_false nofun ?_
    rintro ⟨content, hcontent, -⟩
    exact hfile content hcontent

/-- An encoded text is decoded as that text. -/
theorem fromUTF8?_toUTF8 (source : String) : String.fromUTF8? source.toUTF8 = some source := by
  have hvalid : source.toUTF8.IsValidUTF8 := source.isValidUTF8
  rw [String.fromUTF8?, dif_pos hvalid]
  rfl

/-- A file that holds a text is read as that text. -/
theorem readSource_of_toUTF8 (h : files path = .file source.toUTF8) :
    readSource files path = .ok source :=
  readSource_eq_ok_iff.2 ⟨source.toUTF8, h, fromUTF8?_toUTF8 source⟩

/-- The report on a file that can be read has its tokens counted and its diagnostics. -/
theorem checkFile_of_readSource (h : readSource files path = .ok source) :
    checkFile files path =
      .ok ⟨path, source, (scanRecovering source).1.length, (scanRecovering source).2⟩ := by
  rw [checkFile, h]

/-- There is a report on a regular file of text. -/
theorem checkFile_of_isText (h : Files.IsText files path) :
    ∃ report, checkFile files path = .ok report := by
  obtain ⟨content, source, hfile, htext⟩ := h
  exact ⟨_, checkFile_of_readSource (readSource_eq_ok_iff.2 ⟨content, hfile, htext⟩)⟩

/-- A report tells which file was read. -/
theorem readSource_of_checkFile (h : checkFile files path = .ok report) :
    readSource files path = .ok report.source ∧ report.path = path := by
  unfold checkFile at h
  split at h
  · next source hsource =>
    cases h
    exact ⟨hsource, rfl⟩
  · cases h

/-- A file can be reported on if it is a regular file of text, and only then. -/
theorem exists_checkFile_iff :
    (∃ report, checkFile files path = .ok report) ↔ Files.IsText files path := by
  refine ⟨?_, checkFile_of_isText⟩
  rintro ⟨report, h⟩
  obtain ⟨content, hfile, htext⟩ := readSource_eq_ok_iff.1 (readSource_of_checkFile h).1
  exact ⟨content, _, hfile, htext⟩

/-! ## Many files -/

/-- Gathering results succeeds if each of them does. -/
theorem mapM_eq_ok_iff {α β ε : Type} {f : α → Except ε β} {xs : List α} {ys : List β} :
    xs.mapM f = .ok ys ↔ List.Forall₂ (fun x y => f x = .ok y) xs ys := by
  induction xs generalizing ys with
  | nil =>
    rw [List.mapM_nil, List.forall₂_nil_left_iff]
    constructor
    · rintro ⟨⟩
      rfl
    · rintro rfl
      rfl
  | cons x xs ih =>
    rw [List.mapM_cons, List.forall₂_cons_left_iff]
    constructor
    · intro h
      cases hx : f x with
      | error e => rw [hx] at h; cases h
      | ok y =>
        cases hxs : xs.mapM f with
        | error e => rw [hx, hxs] at h; cases h
        | ok ys =>
          rw [hx, hxs] at h
          cases h
          exact ⟨y, ys, rfl, ih.1 hxs, rfl⟩
    · rintro ⟨y, ys, hx, hxs, rfl⟩
      rw [hx, ih.2 hxs]
      rfl

/-- Checking files gives the reports on them, each in the place of its file. -/
theorem checkFiles_eq_ok_iff {jobs : Option Nat} (hjobs : jobs ≠ some 0) :
    checkFiles files paths jobs = .ok reports ↔ ReportsOn files paths reports := by
  rw [checkFiles, if_neg hjobs]
  exact mapM_eq_ok_iff

/-- There are reports on regular files of text. -/
theorem exists_reportsOn (h : ∀ path ∈ paths, Files.IsText files path) :
    ∃ reports, ReportsOn files paths reports := by
  induction paths with
  | nil => exact ⟨[], .nil⟩
  | cons path paths ih =>
    obtain ⟨hpath, hpaths⟩ := List.forall_mem_cons.1 h
    obtain ⟨report, hreport⟩ := checkFile_of_isText hpath
    obtain ⟨reports, hreports⟩ := ih hpaths
    exact ⟨report :: reports, .cons hreport hreports⟩

/-- Files that were reported on are regular files of text. -/
theorem ReportsOn.isText (h : ReportsOn files paths reports) :
    ∀ path ∈ paths, Files.IsText files path := by
  induction h with
  | nil => exact fun _ hmem => absurd hmem List.not_mem_nil
  | cons hreport _ ih =>
    rw [List.forall_mem_cons]
    exact ⟨exists_checkFile_iff.1 ⟨_, hreport⟩, ih⟩

/-- Files have one list of reports at most. -/
theorem ReportsOn.unique {others : List FileReport} (h : ReportsOn files paths reports)
    (h' : ReportsOn files paths others) : reports = others := by
  have heq := mapM_eq_ok_iff.2 h
  rw [mapM_eq_ok_iff.2 h'] at heq
  exact (Except.ok.inj heq).symm

/-- What a check of some files comes to is told by their reports, or by the failure. -/
theorem runCheck_eq {jobs : Option Nat} (hpaths : paths ≠ []) (verbose : Bool) :
    runCheck files ⟨paths, jobs, verbose⟩ = .ofReports verbose (checkFiles files paths jobs) := by
  obtain ⟨path, paths, rfl⟩ := List.exists_cons_of_ne_nil hpaths
  rw [runCheck]
  cases checkFiles files (path :: paths) jobs with
  | ok reports => rfl
  | error failure => rfl

/-! ## What is written -/

/-- A clean file has no diagnostic to show. -/
theorem FileReport.rendered_of_isClean (h : report.isClean = true) : report.rendered = "" := by
  rw [rendered, List.isEmpty_iff.1 h]
  rfl

/-- The diagnostics of all files are shown, of which the clean ones have none. -/
theorem err_summarize (verbose : Bool) (reports : List FileReport) :
    (summarize verbose reports).err = String.join (reports.map FileReport.rendered) := by
  show String.join ((reports.filter fun r => !r.isClean).map FileReport.rendered) = _
  induction reports with
  | nil => rfl
  | cons report reports ih =>
    cases hclean : report.isClean with
    | true =>
      rw [List.filter_cons_of_neg (by simp [hclean]), List.map_cons, String.join_cons, ih,
        FileReport.rendered_of_isClean hclean, String.empty_append]
    | false =>
      rw [List.filter_cons_of_pos (by simp [hclean]), List.map_cons, String.join_cons, ih,
        List.map_cons, String.join_cons]

end

end BrightLexer
