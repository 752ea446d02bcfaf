import BrightLexer.Command.Dump
import BrightLexer.Proofs.Command.Reports
import BrightLexer.Proofs.Scan.Agreement
import BrightLexer.Proofs.Scan.Coverage
import BrightLexer.Proofs.Token.DumpLine

/-!
# Checking files and dumping their tokens agree

Whether a file has faults is decided in three ways: a report is clean if it has no diagnostic, a dump
with recovery succeeds if there is no error in its log, and a dump without recovery succeeds if scanning
stops at no fault. `check_agrees_with_dump` says that the three agree on every file, that the report
counts the tokens which the dump shows, and that both commands show the same diagnostics.

The first two ways agree because every diagnostic of a scan is an error
(`isError_of_mem_scanRecovering`), and the last two because scanning with and without recovery find
faults in the same texts (`exists_scan_eq_ok_iff`).
-/

namespace BrightLexer

/-- What a report says of a file, and what the dumps of its tokens say. -/
structure FileReport.AgreesWithDump (files : Files) (path : String) (r : FileReport)
    (tokens : List Token) : Prop where
  /-- The report counts the tokens. -/
  count : tokens.length = r.tokenCount
  /-- The last of them is the end token. -/
  ending : ∃ front token, tokens = front ++ [token] ∧ token.kind = .eof
  /-- As text, each token is dumped as a line. -/
  text : (dumpTokens files ⟨path, .text, true⟩).out =
    String.join (tokens.map fun t => t.dumpLine ++ "\n")
  /-- So there are as many lines as the report counts tokens. -/
  lines : (dumpTokens files ⟨path, .text, true⟩).out.toList.count '\n' = r.tokenCount
  /-- In JSON, the tokens are dumped as the elements of an array. -/
  json : (dumpTokens files ⟨path, .json, true⟩).out =
    (Json.array (tokens.map Token.record)).indentedText ++ "\n"
  /-- A dump with recovery succeeds if the file is clean, and only then. -/
  recovering : ∀ format, (dumpTokens files ⟨path, format, true⟩).failure = none ↔ r.isClean
  /-- So does a dump without recovery. -/
  strict : ∀ format, (dumpTokens files ⟨path, format, false⟩).failure = none ↔ r.isClean
  /-- A dump with recovery shows the diagnostics of the report. -/
  err : ∀ format, (dumpTokens files ⟨path, format, true⟩).err = r.rendered
  /-- That is one rendering against the text of the file for each of them, in their order, with the path
  before it. -/
  rendered : r.rendered = String.join (r.diagnostics.map fun d => s!"{path}: {d.render r.source}")
  /-- If there are any, it fails with their number. -/
  failure : r.isClean = false → ∀ format, (dumpTokens files ⟨path, format, true⟩).failure =
    some (.validation s!"{r.diagnostics.length} lexical error(s) in {path}")

section
variable {files : Files} {path source : String} {report : FileReport}

/-! ## All diagnostics are errors -/

/-- A scan with recovery has errors in its log if it has diagnostics there. -/
theorem hasErrors_scanInto (source : String) :
    (scanInto .empty source).2.hasErrors = !(scanRecovering source).2.isEmpty := by
  have hcount : (scanInto .empty source).2.errorCount = (scanRecovering source).2.length :=
    List.countP_eq_length.2 fun d hd => isError_of_mem_scanRecovering hd
  rw [Log.hasErrors, hcount]
  cases (scanRecovering source).2 with
  | nil => rfl
  | cons d ds => rfl

/-! ## Dumps -/

/-- What a dump with recovery comes to. -/
theorem dumpSource_recovering (path : String) (format : DumpFormat) (source : String) :
    dumpSource ⟨path, format, true⟩ source = ⟨format.write (scanRecovering source).1,
      renderAll path source (scanRecovering source).2,
      if (scanRecovering source).2.isEmpty then none
      else some (.validation s!"{(scanRecovering source).2.length} lexical error(s) in {path}")⟩ := by
  have hlog : (scanInto .empty source).2.toList = (scanRecovering source).2 := rfl
  rw [dumpSource, if_pos rfl]
  dsimp only
  rw [hasErrors_scanInto, hlog]
  cases (scanRecovering source).2 with
  | nil => rfl
  | cons d ds => rfl

/-- A dump without recovery succeeds if scanning with recovery finds no fault. -/
theorem failure_dumpSource_strict (path : String) (format : DumpFormat) (source : String) :
    (dumpSource ⟨path, format, false⟩ source).failure = none ↔
      (scanRecovering source).2.isEmpty = true := by
  rw [List.isEmpty_iff, ← exists_scan_eq_ok_iff, dumpSource, if_neg Bool.false_ne_true]
  cases hscan : scan source with
  | ok tokens => exact iff_of_true rfl ⟨tokens, rfl⟩
  | error fault => exact iff_of_false nofun nofun

/-- A dump of a file that can be read is the dump of its source text. -/
theorem dumpTokens_of_readSource {request : DumpRequest}
    (h : readSource files request.path = .ok source) :
    dumpTokens files request = dumpSource request source := by
  rw [dumpTokens, h]

/-- There are as many line ends in a dump as tokens. -/
theorem count_newline_dumpText (tokens : List Token) :
    (dumpText tokens).toList.count '\n' = tokens.length := by
  have hlines : ∀ s ∈ tokens.map Token.dumpLine, OneLine s :=
    List.forall_mem_map.2 fun t _ => oneLine_dumpLine t
  have hsplit := congrArg List.length (splitLines_join hlines)
  rw [length_splitLines, List.map_map, List.length_append, List.length_map, List.length_map] at hsplit
  exact Nat.succ.inj hsplit

/-- A scan with recovery ends with the end token. -/
theorem exists_eof_scanRecovering (source : String) :
    ∃ front token, (scanRecovering source).1 = front ++ [token] ∧ token.kind = .eof := by
  obtain ⟨front, y, hl, -, -, hy, -, -⟩ := eof_in_layout source.toList
  refine ⟨front.filterMap Placed.token?,
    ⟨.eof, String.ofList y.piece.text, none, y.span.line, y.span⟩, ?_, rfl⟩
  rw [scanRecovering_eq, hl, List.filterMap_append,
    List.filterMap_cons_some (Placed.token?_of_finding hy)]
  rfl

/-! ## The two commands -/

/-- What checking a file shows of it is what dumping its tokens with recovery shows. -/
theorem err_dumpTokens (h : checkFile files path = .ok report) (format : DumpFormat) :
    (dumpTokens files ⟨path, format, true⟩).err = report.rendered := by
  obtain ⟨hsource, -⟩ := readSource_of_checkFile h
  have hreport := Except.ok.inj (h.symm.trans (checkFile_of_readSource hsource))
  rw [dumpTokens_of_readSource hsource, dumpSource_recovering, hreport]
  rfl

/-- The report on a file agrees with what its dumps show. -/
theorem agreesWithDump (h : readSource files path = .ok source) :
    FileReport.AgreesWithDump files path
      ⟨path, source, (scanRecovering source).1.length, (scanRecovering source).2⟩
      (scanRecovering source).1 := by
  have hrecovering : ∀ format, dumpTokens files ⟨path, format, true⟩ = _ := fun format =>
    (dumpTokens_of_readSource h).trans (dumpSource_recovering path format source)
  refine ⟨rfl, exists_eof_scanRecovering source, ?_, ?_, ?_, ?_, ?_, ?_, rfl, ?_⟩
  · rw [hrecovering]
    rfl
  · rw [hrecovering]
    exact count_newline_dumpText _
  · rw [hrecovering]
    rfl
  · intro format
    rw [hrecovering, FileReport.isClean]
    dsimp only
    cases (scanRecovering source).2 with
    | nil => exact iff_of_true rfl rfl
    | cons d ds => exact iff_of_false nofun nofun
  · intro format
    rw [dumpTokens_of_readSource h]
    exact failure_dumpSource_strict path format source
  · exact fun format => err_dumpTokens (checkFile_of_readSource h) format
  · intro hclean format
    rw [hrecovering]
    exact if_neg (Bool.eq_false_iff.1 hclean)

/-- Checking regular files of text shows for each of them what a dump with recovery shows. -/
theorem err_runCheck {paths : List String} {jobs : Option Nat}
    (h : ∀ path ∈ paths, Files.IsText files path) (hjobs : jobs ≠ some 0) (verbose : Bool)
    (format : DumpFormat) :
    (runCheck files ⟨paths, jobs, verbose⟩).err =
      String.join (paths.map fun path => (dumpTokens files ⟨path, format, true⟩).err) := by
  by_cases hpaths : paths = []
  · rw [hpaths]
    rfl
  · obtain ⟨reports, hreports⟩ := exists_reportsOn h
    have hshown : paths.map (fun path => (dumpTokens files ⟨path, format, true⟩).err) =
        reports.map FileReport.rendered := by
      have hpointwise := hreports.imp fun path report hr => err_dumpTokens hr format
      rw [← List.forall₂_eq_eq_eq, List.forall₂_map_left_iff, List.forall₂_map_right_iff]
      exact hpointwise
    rw [runCheck_eq hpaths, (checkFiles_eq_ok_iff hjobs).2 hreports, hshown]
    exact err_summarize verbose reports

end

/-- Checking a file and dumping its tokens agree. For every regular file of text there is a report on
it, and a list of tokens that it and the dumps agree on; and checking any such files shows, for each of
them in turn, what a dump of it with recovery shows. -/
theorem check_agrees_with_dump (files : Files) (path : String) (h : Files.IsText files path) :
    (∃ report tokens, checkFile files path = .ok report ∧
      report.AgreesWithDump files path tokens) ∧
    ∀ front back jobs verbose format, (∀ p ∈ front ++ path :: back, Files.IsText files p) →
      jobs ≠ some 0 →
      let shown := fun p => (dumpTokens files ⟨p, format, true⟩).err
      (runCheck files ⟨front ++ path :: back, jobs, verbose⟩).err =
        String.join (front.map shown) ++ shown path ++ String.join (back.map shown) := by
  obtain ⟨content, source, hfile, htext⟩ := h
  have hsource := readSource_eq_ok_iff.2 ⟨content, hfile, htext⟩
  refine ⟨⟨_, _, checkFile_of_readSource hsource, agreesWithDump hsource⟩, ?_⟩
  intro front back jobs verbose format hall hjobs shown
  rw [err_runCheck hall hjobs verbose format, List.map_append, String.join_append, List.map_cons,
    String.join_cons, ← String.append_assoc]

/-- A file with a number and a character that starts no token: two tokens, and one fault that all three
ways to read it find. -/
theorem check_agrees_with_dump_unexpected :
    let files : Files := fun path => if path = "a" then .file "1 @".toUTF8 else .missing
    let report : FileReport := ⟨"a", "1 @", 2,
      [(Fault.mk (.unexpectedChar '@') 1 3).diagnostic ⟨2, 3, 1, 3⟩]⟩
    Files.IsText files "a" ∧ checkFile files "a" = .ok report ∧
      (dumpTokens files ⟨"a", .text, true⟩).out.toList.count '\n' = 2 ∧
      (dumpTokens files ⟨"a", .json, true⟩).failure =
        some (.validation "1 lexical error(s) in a") ∧
      (dumpTokens files ⟨"a", .text, false⟩).failure ≠ none := by
  intro files report
  have hsource : readSource files "a" = .ok "1 @" := readSource_of_toUTF8 (if_pos rfl)
  have htext : Files.IsText files "a" := readSource_eq_ok_iff.1 hsource |>.elim
    fun content h => ⟨content, _, h⟩
  have hl : layout "1 @".toList =
      [⟨⟨0, 1, 1⟩, ⟨[], ['1'], .token (.number .integer) (some (.integer 1))⟩⟩,
        ⟨⟨2, 1, 3⟩, ⟨[' '], ['@'], .fault (.unexpectedChar '@')⟩⟩,
        ⟨⟨3, 1, 4⟩, ⟨[], [], .token .eof none⟩⟩] := by
    decide +kernel
  obtain ⟨⟨_, tokens, hcheck, hagrees⟩, -⟩ := check_agrees_with_dump files "a" htext
  have hreport : checkFile files "a" = .ok report := by
    rw [checkFile_of_readSource hsource, scanRecovering_eq, hl]
    rfl
  cases hcheck.symm.trans hreport
  refine ⟨htext, hreport, hagrees.lines, (hagrees.failure rfl .json).trans (by decide +kernel), ?_⟩
  rw [ne_eq, hagrees.strict .text]
  exact Bool.false_ne_true

end BrightLexer
