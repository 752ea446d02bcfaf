import BrightLexer.Proofs.Command.DumpAgreement

/-!
# A dump writes all tokens or nothing

Dumping the tokens of a file can go on behind a fault or stop there. `DumpsBothWays` says what the two ways
come to on a regular file of text. Without recovery all tokens are written or, where scanning stops at a
fault, nothing at all; with recovery all tokens are written in any case, and the command fails if there was
a fault. So the two differ only where there is one, and then both fail. `dump_all_or_nothing` is that this
holds in both formats, and that nothing is written for any other file.

Both ways see the same faults: that which the one stops at is the first that the other reports.
-/

namespace BrightLexer

/-- A text shows all of some tokens and nothing else: a line for each of them, or an array with an object
for each of them and a line end behind it. -/
def DumpFormat.Shows (tokens : List Token) (out : String) : DumpFormat → Prop
  | .text => out = String.join (tokens.map fun t => t.dumpLine ++ "\n")
  | .json => out = (Json.array (tokens.map Token.record)).indentedText ++ "\n"

/-- What dumping a file with a source text comes to, with and without recovery. -/
structure DumpsBothWays (files : Files) (path source : String) (format : DumpFormat) : Prop where
  /-- Without recovery, the tokens of a source text without faults are written. -/
  strict : ∀ tokens, scan source = .ok tokens →
    dumpTokens files ⟨path, format, false⟩ = ⟨format.write tokens, "", none⟩
  /-- If there is a fault, nothing is written, and the command fails with it. -/
  stopped : ∀ fault, scan source = .error fault →
    dumpTokens files ⟨path, format, false⟩ = ⟨"", "", some (.lexical path fault)⟩
  /-- With recovery, all tokens are written in any case. -/
  recovering : (dumpTokens files ⟨path, format, true⟩).out = format.write (scanRecovering source).1
  /-- Where tokens are written, all of them are shown. -/
  shown : ∀ tokens, format.Shows tokens (format.write tokens)
  /-- The command succeeds if there is no diagnostic, and only then. -/
  succeeds : (dumpTokens files ⟨path, format, true⟩).failure = none ↔ (scanRecovering source).2 = []
  /-- Otherwise it fails with the number of the diagnostics. -/
  failure : (scanRecovering source).2 ≠ [] → (dumpTokens files ⟨path, format, true⟩).failure =
    some (.validation s!"{(scanRecovering source).2.length} lexical error(s) in {path}")
  /-- Without faults it makes no difference whether there is recovery. -/
  agree : ∀ tokens, scan source = .ok tokens →
    dumpTokens files ⟨path, format, true⟩ = dumpTokens files ⟨path, format, false⟩
  /-- With a fault the command fails in both ways, and the fault is the first that is reported. -/
  disagree : ∀ fault, scan source = .error fault → ∀ recover,
    (dumpTokens files ⟨path, format, recover⟩).failure ≠ none ∧
      ∃ span later, (scanRecovering source).2 = fault.diagnostic span :: later

section
variable {files : Files} {path source : String}

/-- What is written in a format shows the tokens as this format does. -/
theorem DumpFormat.shows_write (format : DumpFormat) (tokens : List Token) :
    format.Shows tokens (format.write tokens) := by
  cases format with
  | text => rfl
  | json => rfl

/-- What a dump without recovery comes to. -/
theorem dumpSource_strict (path : String) (format : DumpFormat) (source : String) :
    dumpSource ⟨path, format, false⟩ source =
      match scan source with
      | .ok tokens => ⟨format.write tokens, "", none⟩
      | .error fault => .failed (.lexical path fault) := by
  unfold dumpSource
  cases scan source with
  | ok tokens => rfl
  | error fault => rfl

/-- A source text without faults is dumped in the same way with recovery. -/
theorem dumpSource_recovering_of_scan (path : String) (format : DumpFormat) {tokens : List Token}
    (h : scan source = .ok tokens) :
    dumpSource ⟨path, format, true⟩ source = ⟨format.write tokens, "", none⟩ := by
  rw [dumpSource_recovering, scanRecovering_of_scan_ok h]
  rfl

/-- A file that can be read is dumped in both ways, with recovery and without. -/
theorem dumpsBothWays (h : readSource files path = .ok source) (format : DumpFormat) :
    DumpsBothWays files path source format := by
  have hdump (recover : Bool) : dumpTokens files ⟨path, format, recover⟩ =
      dumpSource ⟨path, format, recover⟩ source := dumpTokens_of_readSource h
  have hstrict {tokens : List Token} (hscan : scan source = .ok tokens) :
      dumpTokens files ⟨path, format, false⟩ = ⟨format.write tokens, "", none⟩ := by
    rw [hdump, dumpSource_strict, hscan]
  have hstopped {fault : Fault} (hscan : scan source = .error fault) :
      dumpTokens files ⟨path, format, false⟩ = ⟨"", "", some (.lexical path fault)⟩ := by
    rw [hdump, dumpSource_strict, hscan]
    rfl
  have hrecovering := (hdump true).trans (dumpSource_recovering path format source)
  have hfailure (hd : (scanRecovering source).2 ≠ []) :
      (dumpTokens files ⟨path, format, true⟩).failure =
        some (.validation s!"{(scanRecovering source).2.length} lexical error(s) in {path}") := by
    rw [hrecovering]
    exact if_neg (mt List.isEmpty_iff.1 hd)
  refine ⟨fun _ => hstrict, fun _ => hstopped, ?_, format.shows_write, ⟨fun hnone => ?_, fun hd => ?_⟩,
    hfailure, ?_, ?_⟩
  · rw [hrecovering]
  · by_contra hd
    cases hnone.symm.trans (hfailure hd)
  · rw [hrecovering]
    exact if_pos (List.isEmpty_iff.2 hd)
  · intro tokens hscan
    rw [hstrict hscan, hdump, dumpSource_recovering_of_scan path format hscan]
  · intro fault hscan recover
    obtain ⟨span, later, hd⟩ := scanRecovering_of_scan_error hscan
    refine ⟨?_, span, later, hd⟩
    cases recover with
    | false =>
      rw [hstopped hscan]
      exact nofun
    | true =>
      rw [hfailure (by rw [hd]; exact List.cons_ne_nil _ _)]
      exact nofun

/-- What cannot be read as text is not dumped. -/
theorem exists_failed_of_not_isText (h : ¬ Files.IsText files path) :
    ∃ failure, ∀ format recover, dumpTokens files ⟨path, format, recover⟩ = .failed failure := by
  cases hsource : readSource files path with
  | ok source =>
    obtain ⟨content, htext⟩ := readSource_eq_ok_iff.1 hsource
    exact absurd ⟨content, source, htext⟩ h
  | error failure =>
    refine ⟨failure, fun format recover => ?_⟩
    rw [dumpTokens, hsource]

end

/-- A dump is all or nothing. For a regular file of text, in either format: without recovery either all
tokens are written and the command succeeds, or scanning stops at a fault, nothing is written, and the
command fails with the path and this fault; with recovery all tokens are written, and the command fails,
with the number of the diagnostics, if there is one. Without a fault both write the same and succeed, and
otherwise both fail. For anything else that a path may lead to, nothing is written in either way, and the
command fails. -/
theorem dump_all_or_nothing (files : Files) (path : String) :
    (∀ source, readSource files path = .ok source → ∀ format, DumpsBothWays files path source format) ∧
    (Files.IsText files path → ∃ source, readSource files path = .ok source) ∧
    (¬ Files.IsText files path → ∃ failure, ∀ format recover,
      dumpTokens files ⟨path, format, recover⟩ = ⟨"", "", some failure⟩) := by
  refine ⟨fun _ h => dumpsBothWays h, ?_, exists_failed_of_not_isText⟩
  rintro ⟨content, source, h⟩
  exact ⟨source, readSource_eq_ok_iff.2 ⟨content, h⟩⟩

/-- A file with a number and a character that starts no token: with recovery the number is dumped before
the command fails, without it nothing is. A byte that starts no character is not dumped at all. -/
theorem dump_all_or_nothing_unexpected :
    let files : Files := fun path =>
      if path = "a" then .file "1 @".toUTF8 else if path = "b" then .file ⟨#[0xff]⟩ else .missing
    let fault : Fault := ⟨.unexpectedChar '@', 1, 3⟩
    let tokens : List Token :=
      [⟨.number .integer, "1", some (.integer 1), 1, ⟨0, 1, 1, 1⟩⟩, ⟨.eof, "", none, 1, ⟨3, 3, 1, 4⟩⟩]
    readSource files "a" = .ok "1 @" ∧ scan "1 @" = .error fault ∧ ¬ Files.IsText files "b" ∧
      dumpTokens files ⟨"a", .json, false⟩ = ⟨"", "", some (.lexical "a" fault)⟩ ∧
      (dumpTokens files ⟨"a", .json, true⟩).out = DumpFormat.json.write tokens ∧
      (dumpTokens files ⟨"a", .text, true⟩).failure =
        some (.validation "1 lexical error(s) in a") ∧
      ∃ failure, dumpTokens files ⟨"b", .text, true⟩ = ⟨"", "", some failure⟩ := by
  intro files fault tokens
  have hl : layout "1 @".toList =
      [⟨⟨0, 1, 1⟩, ⟨[], ['1'], .token (.number .integer) (some (.integer 1))⟩⟩,
        ⟨⟨2, 1, 3⟩, ⟨[' '], ['@'], .fault (.unexpectedChar '@')⟩⟩,
        ⟨⟨3, 1, 4⟩, ⟨[], [], .token .eof none⟩⟩] := by
    decide +kernel
  obtain ⟨-, hscan, hrecovering⟩ := @scan_of_fault "1 @" [_] [_] _ [_] _ hl rfl rfl
  have hsource : readSource files "a" = .ok "1 @" := readSource_of_toUTF8 (if_pos rfl)
  have hnone : String.fromUTF8? ⟨#[0xff]⟩ = none := by decide +kernel
  have hbinary : ¬ Files.IsText files "b" := by
    rintro ⟨content, source, hfile, htext⟩
    cases hfile
    cases hnone.symm.trans htext
  obtain ⟨hboth, -⟩ := dump_all_or_nothing files "a"
  have hjson := hboth "1 @" hsource .json
  have htext := hboth "1 @" hsource .text
  obtain ⟨-, -, hnothing⟩ := dump_all_or_nothing files "b"
  obtain ⟨failure, hfailed⟩ := hnothing hbinary
  refine ⟨hsource, hscan, hbinary, hjson.stopped fault hscan, ?_, ?_, failure, hfailed _ _⟩
  · rw [hjson.recovering, hrecovering]
    rfl
  · rw [htext.failure (by rw [hrecovering]; exact List.cons_ne_nil _ _), hrecovering]
    decide +kernel

end BrightLexer
