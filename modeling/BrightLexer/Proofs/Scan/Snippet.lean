import BrightLexer.Proofs.Scan.LineEnds
import BrightLexer.Proofs.Source.OneLine

/-!
# Diagnostics are shown under the text that is wrong

A diagnostic is shown with the line it is on and a row of carets under it. `Diagnostic.Marks` divides that
line into what stands before the text of the span, that text, and what stands behind it. There is such a
division for each diagnostic of a scan (`exists_marks`), because what is wrong never reaches over the end of
a line, and with it the diagnostic is rendered as the lines of `Diagnostic.markedLines`, each of them one
line (`render_scanRecovering`).

The text of the span can end with a carriage return that ends its line too, since a quote that is not closed
takes all of the line. Such a carriage return is not shown, and no caret stands for it. It is never
the whole text, because no token and no fault starts with a blank.
-/

namespace BrightLexer

namespace Diagnostic

/-- The line of a diagnostic, as it is shown, is `before`, `marked` and `behind`, of which `marked` is the
text of its span. A carriage return at the end of the span is left out if it ends the line. -/
structure Marks (source : List Char) (d : Diagnostic) (before marked behind : List Char) : Prop where
  /-- The three are the line. -/
  line : lineText source d.span.line = .ok (before ++ marked ++ behind)
  /-- The marked text starts at the column of the diagnostic. -/
  column : d.span.column = before.length + 1
  /-- There is something to mark. -/
  ne_nil : marked ≠ []
  /-- The marked text is the text of the span. -/
  text : d.span.text? source = .ok marked ∨
    behind = [] ∧ d.span.text? source = .ok (marked ++ ['\r']) ∧
      (splitLines source)[d.span.line - 1]? = some (before ++ marked ++ ['\r'])

/-- The lines of a diagnostic with carets under the marked text: its header, its place, an empty margin,
the line with its number, the carets in a margin of the same width, and its notes and helps. -/
def markedLines (d : Diagnostic) (before marked behind : List Char) : List String :=
  let number := toString d.span.line
  let margin := run number.length ' '
  let shown := String.ofList (before ++ marked ++ behind)
  let blanks := run before.length ' '
  let carets := run marked.length '^'
  [d.header, s!" --> {d.span.line}:{d.span.column}", s!"{margin} |", s!"{number} | {shown}",
    s!"{margin} | {blanks}{carets}"] ++
    d.notes.map (fun note => s!"  = note: {note}") ++
    d.helps.map (fun help => s!"  = help: {help}")

end Diagnostic

section
variable {source before marked behind text back cs : List Char} {d : Diagnostic} {y : Placed}
  {cause : FaultCause}

/-! ## The carets -/

namespace Diagnostic.Marks

/-- The carets stand behind as many blanks as there are characters before the marked text. -/
theorem shownColumn (h : d.Marks source before marked behind) :
    d.shownColumn - 1 = before.length := by
  rw [Diagnostic.shownColumn, h.column]
  omega

/-- The line that is shown has no newline in it. -/
theorem newline_not_mem (h : d.Marks source before marked behind) :
    '\n' ∉ before ++ marked ++ behind := newline_not_mem_lineText h.line

/-- The span is as wide as the marked text, or wider by a carriage return that ends the line. -/
theorem spanWidth (h : d.Marks source before marked behind) :
    d.spanWidth source = marked.length ∨
      behind = [] ∧ d.spanWidth source = marked.length + 1 := by
  have hmarked : '\n' ∉ marked := fun hn =>
    h.newline_not_mem (List.mem_append_left _ (List.mem_append_right _ hn))
  rcases h.text with htext | ⟨hbehind, htext, -⟩
  · refine .inl ?_
    rw [Diagnostic.spanWidth, htext]
    exact congrArg List.length (firstLine_eq_self hmarked)
  · refine .inr ⟨hbehind, ?_⟩
    have hreturn : '\n' ∉ marked ++ ['\r'] := by simp [hmarked]
    rw [Diagnostic.spanWidth, htext]
    exact (congrArg List.length (firstLine_eq_self hreturn)).trans List.length_append

/-- There is a caret for each character of the marked text. -/
theorem underlineWidth (h : d.Marks source before marked behind) :
    d.underlineWidth source (before ++ marked ++ behind) = marked.length := by
  have hpos := List.length_pos_iff.2 h.ne_nil
  rw [Diagnostic.underlineWidth, h.shownColumn, List.length_append, List.length_append]
  rcases h.spanWidth with hwidth | ⟨rfl, hwidth⟩
  · omega
  · rw [List.length_nil]
    omega

/-- A diagnostic that marks a part of a line is rendered as this line with carets under the part. -/
theorem renderedLines (h : d.Marks source before marked behind) :
    d.renderedLines source = d.markedLines before marked behind := by
  rw [Diagnostic.renderedLines, h.line]
  dsimp only
  rw [snippet, h.underlineWidth, h.shownColumn]
  rfl

end Diagnostic.Marks

/-! ## Where the line is divided -/

/-- A line as it is shown, divided at a text that does not start with a carriage return. -/
theorem exists_shownLine_eq (before after : List Char) (htext : ∃ c r, text = c :: r ∧ c ≠ '\r') :
    ∃ marked behind, shownLine (before ++ text ++ after) = before ++ marked ++ behind ∧
      marked ≠ [] ∧ (text = marked ∨ behind = [] ∧ after = [] ∧ text = marked ++ ['\r']) := by
  obtain ⟨c, r, hcr, hc⟩ := htext
  have hne : text ≠ [] := hcr ▸ List.cons_ne_nil c r
  cases after with
  | cons e tail =>
    -- Whatever ends the line stands behind the text.
    exact ⟨text, _, shownLine_append (List.cons_ne_nil e tail) _, hne, .inl rfl⟩
  | nil =>
    refine ⟨shownLine text, [], by rw [List.append_nil, List.append_nil, shownLine_append hne], ?_, ?_⟩
    · intro hnil
      rcases shownLine_cases text with htext | htext
      · exact hne (htext.symm.trans hnil)
      · rw [hnil, hcr] at htext
        exact hc (List.cons.inj htext).1
    · rcases shownLine_cases text with htext | htext
      · exact .inl htext.symm
      · exact .inr ⟨rfl, rfl, htext⟩

/-- What is wrong stands on one line, and does not start with a carriage return. -/
theorem text_of_fault (hy : y ∈ layout source) (hf : y.piece.finding = .fault cause) :
    '\n' ∉ y.piece.text ∧ ∃ c r, y.piece.text = c :: r ∧ c ≠ '\r' := by
  obtain ⟨front, behind, hp, -⟩ := mem_layout hy
  obtain ⟨-, htrivia, hread⟩ := piece_spec hp
  have hfault := (congrArg Reading.finding hread).trans hf
  have hnewline := newline_not_mem_of_fault hfault
  rw [hread] at hnewline
  obtain ⟨c, r, htext⟩ := List.exists_cons_of_ne_nil
    (text_ne_nil_of_finding hp fun heof => by cases hf.symm.trans heof)
  refine ⟨hnewline, c, r, htext, ?_⟩
  rintro rfl
  rw [htext, List.cons_append, cutTrivia_eq_empty_iff] at htrivia
  cases htrivia.2

/-- The diagnostic of every fault marks a part of its line. -/
theorem exists_marks (hy : y ∈ layout source) (hf : y.piece.finding = .fault cause) (fault : Fault) :
    ∃ before marked behind, (fault.diagnostic y.span).Marks source before marked behind := by
  obtain ⟨front, back, hsource, hstands, -⟩ := reading_of_mem_layout hy
  obtain ⟨hnewline, htext⟩ := text_of_fault hy hf
  have hraw := getElem?_splitLines front (y.piece.text ++ back)
  rw [firstLine_append_of_not_mem hnewline, ← List.append_assoc, ← List.append_assoc, ← hsource] at hraw
  obtain ⟨marked, behind, hshown, hne, hmarked⟩ :=
    exists_shownLine_eq (lastLine front) (firstLine back) htext
  have hline : y.span.line = front.count '\n' + 1 := hstands.line.trans (Nat.add_comm ..)
  have hspan := text?_of_mem_layout hy
  refine ⟨lastLine front, marked, behind, ?_, ?_, hne, ?_⟩
  · rw [← hshown, Fault.diagnostic, hline]
    exact lineText_eq_ok_iff.2 ⟨_, hraw, rfl⟩
  · exact hstands.column.trans (Nat.add_comm ..)
  · rcases hmarked with htext | ⟨hbehind, hback, htext⟩
    · exact .inl (htext ▸ hspan)
    · refine .inr ⟨hbehind, htext ▸ hspan, ?_⟩
      rw [hback, htext, List.append_nil, ← List.append_assoc] at hraw
      rw [Fault.diagnostic, hline]
      exact hraw

/-! ## Each line is one line -/

/-- A run of a character other than a newline is on one line. -/
theorem oneLine_run {c : Char} (hc : c ≠ '\n') (n : Nat) : OneLine (run n c) :=
  oneLine_ofList.2 fun hn => hc (List.eq_of_mem_replicate hn).symm

/-- The summary of a fault holds no more of the source text than what is wrong. -/
theorem oneLine_summary (h : cause.Describes text back) (hn : '\n' ∉ text) :
    OneLine cause.summary := by
  cases cause with
  | unterminatedString => decide
  | unexpectedChar c =>
    have hc : OneLine (toString c) := by
      change OneLine (String.singleton c)
      rw [OneLine, String.toList_singleton]
      exact h ▸ hn
    exact oneLine_append.2 ⟨oneLine_append.2 ⟨by decide, hc⟩, by decide⟩
  | malformedNumeral reported reason =>
    have hreported : OneLine reported := by
      rw [OneLine, ← h]
      exact hn
    exact oneLine_append.2 ⟨oneLine_append.2 ⟨by decide, hreported⟩, by decide⟩

/-- The header of a diagnostic is one line if the summary of its fault is. -/
theorem oneLine_header (h : OneLine cause.summary) (line column : Nat) (span : Span) :
    OneLine ((Fault.mk cause line column).diagnostic span).header := by
  have hcodes : OneLine Code.unterminatedString.shown ∧ OneLine Code.unexpectedChar.shown ∧
      OneLine Code.malformedNumeral.shown := by decide +kernel
  have hcode : OneLine cause.code.shown := by
    cases cause with
    | unterminatedString => exact hcodes.1
    | unexpectedChar => exact hcodes.2.1
    | malformedNumeral => exact hcodes.2.2
  have hlevel : OneLine (Level.name .error) := by decide
  exact oneLine_append.2 ⟨oneLine_append.2 ⟨oneLine_append.2
    ⟨oneLine_append.2 ⟨hlevel, by decide⟩, hcode⟩, by decide⟩, h⟩

/-- The note on a numeral is one of a few wordings. -/
theorem oneLine_notes (h : (reading cs).finding = .fault cause) :
    ∀ note ∈ cause.notes, OneLine note := by
  have hreason (defect : NumeralDefect) : OneLine defect.reason := by
    rcases defect with _ | _ | _ | (_ | _ | _ | _)
    all_goals decide
  cases cs with
  | nil => cases h
  | cons c cs =>
    rcases reading_fault_cases h with ⟨-, rfl⟩ | ⟨-, hfault⟩ | ⟨-, -, -, -, -, rfl⟩
    · decide
    · obtain ⟨defect, -, rfl⟩ := Numeral.finding_eq_fault_iff.1 hfault
      exact List.forall_mem_singleton.2 (hreason defect)
    · exact List.forall_mem_nil _

/-- The help for a fault is one line. -/
theorem oneLine_helps (cause : FaultCause) : ∀ help ∈ cause.helps, OneLine help := by
  cases cause with
  | unterminatedString => decide
  | unexpectedChar | malformedNumeral => exact List.forall_mem_nil _

/-- Every line of a rendered diagnostic is one line, if its header, notes and helps are. -/
theorem oneLine_markedLines (hshown : '\n' ∉ before ++ marked ++ behind) (hheader : OneLine d.header)
    (hnotes : ∀ note ∈ d.notes, OneLine note) (hhelps : ∀ help ∈ d.helps, OneLine help) :
    ∀ line ∈ d.markedLines before marked behind, OneLine line := by
  have hnumber := oneLine_nat d.span.line
  have hblanks (n : Nat) : OneLine (run n ' ') := oneLine_run (by decide) n
  have hcarets : OneLine (run marked.length '^') := oneLine_run (by decide) _
  have hplace : OneLine s!" --> {d.span.line}:{d.span.column}" :=
    oneLine_append.2 ⟨oneLine_append.2 ⟨oneLine_append.2 ⟨by decide, hnumber⟩, by decide⟩,
      oneLine_nat _⟩
  intro line hline
  rw [Diagnostic.markedLines, List.mem_append, List.mem_append] at hline
  rcases hline with (hline | hline) | hline
  · simp only [List.mem_cons, List.not_mem_nil, or_false] at hline
    rcases hline with rfl | rfl | rfl | rfl | rfl
    · exact hheader
    · exact hplace
    · exact oneLine_append.2 ⟨hblanks _, by decide⟩
    · exact oneLine_append.2 ⟨oneLine_append.2 ⟨hnumber, by decide⟩, oneLine_ofList.2 hshown⟩
    · exact oneLine_append.2 ⟨oneLine_append.2 ⟨oneLine_append.2 ⟨hblanks _, by decide⟩, hblanks _⟩,
        hcarets⟩
  · obtain ⟨note, hnote, rfl⟩ := List.mem_map.1 hline
    exact oneLine_append.2 ⟨by decide, hnotes note hnote⟩
  · obtain ⟨help, hhelp, rfl⟩ := List.mem_map.1 hline
    exact oneLine_append.2 ⟨by decide, hhelps help hhelp⟩

end

/-- Diagnostics are shown under the text that is wrong. Each diagnostic of a scan divides a line of the
source text into what is before the text of its span, that text, and what is behind it. It is rendered with
this line, and with as many blanks and carets under it as the first two have characters; these are three
lines, and with the header, the place, the notes and the helps they are all. -/
theorem render_scanRecovering (source : String) :
    ∀ d ∈ (scanRecovering source).2, ∃ before marked behind,
      d.Marks source.toList before marked behind ∧
      splitLines (d.render source).toList =
        (d.markedLines before marked behind).map String.toList ++ [[]] ∧
      (d.markedLines before marked behind).length = 5 + d.notes.length + d.helps.length := by
  intro d hd
  obtain ⟨y, hy, cause, hf, rfl⟩ := exists_placed_of_diagnostic hd
  obtain ⟨before, marked, behind, hmarks⟩ := exists_marks hy hf ⟨cause, y.span.line, y.span.column⟩
  obtain ⟨front, back, -, -, hread⟩ := reading_of_mem_layout hy
  have hfault := (congrArg Reading.finding hread).trans hf
  have hdescribes := describes_reading hfault
  rw [hread] at hdescribes
  have hheader := oneLine_summary hdescribes (text_of_fault hy hf).1
  refine ⟨before, marked, behind, hmarks, ?_, ?_⟩
  · rw [Diagnostic.render, hmarks.renderedLines]
    exact splitLines_join (oneLine_markedLines hmarks.newline_not_mem (oneLine_header hheader _ _ _)
      (oneLine_notes hfault) (oneLine_helps cause))
  · simp only [Diagnostic.markedLines, List.length_append, List.length_map, List.length_cons,
      List.length_nil]

/-- A quote that is not closed covers the carriage return that ends its line, and has no caret for it. -/
theorem render_scanRecovering_return :
    ∃ d before behind, (scanRecovering "x = \"a\r\ny").2 = [d] ∧
      d.span.text? "x = \"a\r\ny".toList = .ok ['"', 'a', '\r'] ∧
      d.Marks "x = \"a\r\ny".toList before ['"', 'a'] behind ∧
      splitLines (d.render "x = \"a\r\ny").toList =
        (d.markedLines before ['"', 'a'] behind).map String.toList ++ [[]] := by
  have hd : (scanRecovering "x = \"a\r\ny").2 =
      [(Fault.mk .unterminatedString 1 5).diagnostic ⟨4, 7, 1, 5⟩] := by
    rw [scanRecovering_eq]
    decide +kernel
  obtain ⟨before, marked, behind, hmarks, hlines, -⟩ :=
    render_scanRecovering "x = \"a\r\ny" _ (hd ▸ List.mem_singleton_self _)
  have hspan : (Span.mk 4 7 1 5).text? "x = \"a\r\ny".toList = .ok ['"', 'a', '\r'] := rfl
  have hline : lineText "x = \"a\r\ny".toList 1 = .ok "x = \"a".toList := rfl
  have hmarked : ['"', 'a'] = marked := by
    rcases hmarks.text with htext | ⟨-, htext, -⟩
    · -- There is no room in the line for all of the span.
      obtain rfl := Except.ok.inj (hspan.symm.trans htext)
      have hlength := congrArg List.length (Except.ok.inj (hline.symm.trans hmarks.line))
      have hcolumn : 5 = before.length + 1 := hmarks.column
      have hshown : "x = \"a".toList.length = 6 := rfl
      simp only [List.length_append, List.length_cons, List.length_nil, hshown] at hlength
      omega
    · exact List.append_cancel_right (Except.ok.inj (hspan.symm.trans htext))
  subst hmarked
  exact ⟨_, before, behind, hd, hspan, hmarks, hlines⟩

end BrightLexer
