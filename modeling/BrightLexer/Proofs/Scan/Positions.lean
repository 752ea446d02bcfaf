import BrightLexer.Proofs.Scan.Coverage
import BrightLexer.Proofs.Scan.Resumption
import BrightLexer.Proofs.Source.Cursor

/-!
# Positions are right everywhere

The lexer counts lines and columns as it moves over a source text, and tokens, faults and diagnostics
copy them at different times. `scan_positions` says that all of them are functions of the text before
(`Span.StandsBehind`): the line is one more than the newlines there, and the column one more than the
characters behind the last of them. A fault has the place of its diagnostic, and the span of the
diagnostic covers the text that is wrong (`Fault.ReportedBy`).

Positions are natural numbers here. The last part of `scan_positions` is that 32 bits are enough for
them: over a source text of fewer than `2 ^ 32 - 1` characters, every cursor of the lexer is the
starting one moved forward, and none of these steps leads to a line or a column of `2 ^ 32`.
-/

namespace BrightLexer

/-- A span starts behind `front`, with the line and the column that `front` ends on. -/
structure Span.StandsBehind (front : List Char) (s : Span) : Prop where
  /-- It starts at the byte behind `front`. -/
  start : s.start = byteLength front
  /-- Its line is one more than the newlines in `front`. -/
  line : s.line = 1 + front.count '\n'
  /-- Its column is one more than the characters behind the last newline in `front`. -/
  column : s.column = 1 + (lastLine front).length

/-- What the diagnostic of a fault says about a source text: it stands at the place of the fault, and
its span covers what the fault is about. -/
structure Fault.ReportedBy (source : List Char) (f : Fault) (d : Diagnostic) : Prop where
  /-- It is the diagnostic of the fault. -/
  diagnostic : d = f.diagnostic d.span
  /-- It has the line of the fault. -/
  line : f.line = d.span.line
  /-- It has the column of the fault. -/
  column : f.column = d.span.column
  /-- Its span stands where the text of the fault does, and covers that text. -/
  place : ∃ front text back, source = front ++ text ++ back ∧ d.span.StandsBehind front ∧
    d.span.text? source = .ok text ∧ f.cause.Describes text back

section
variable {source : List Char} {y : Placed}

/-- A span that starts behind a text stands behind it. -/
theorem standsBehind_between (front : List Char) (p : Position) :
    (Span.between (Position.origin.after front) p).StandsBehind front where
  start := Position.offset_origin_after front
  line := Position.line_origin_after front
  column := Position.column_origin_after front

/-- A piece of a source text is what is read behind all the text before it. -/
theorem reading_of_mem_layout (h : y ∈ layout source) :
    ∃ front back, source = front ++ y.piece.text ++ back ∧ y.span.StandsBehind front ∧
      reading (y.piece.text ++ back) = ⟨⟨y.piece.text, back⟩, y.piece.finding⟩ := by
  obtain ⟨before, after, hp, hs⟩ := mem_layout h
  refine ⟨frontOf source before ++ y.piece.gap, textOf after, source_eq hp, ?_,
    (piece_spec hp).2.2⟩
  rw [Placed.span, hs]
  exact standsBehind_between _ _

/-- The fault of a piece is reported as its cause asks for. -/
theorem reportedBy_of_mem_layout (h : y ∈ layout source) {fault : Fault}
    (hf : y.item = .error fault) : fault.ReportedBy source (fault.diagnostic y.span) := by
  obtain ⟨hline, hcolumn⟩ := Placed.span_of_item_error hf
  obtain ⟨front, back, hsource, hstands, hread⟩ := reading_of_mem_layout h
  have hcause : y.piece.finding = .fault fault.cause := Finding.eq_of_item_error hf
  have hdescribes := describes_reading ((congrArg Reading.finding hread).trans hcause)
  rw [hread] at hdescribes
  exact ⟨rfl, hline.symm, hcolumn.symm, front, _, back, hsource, hstands,
    text?_of_mem_layout h, hdescribes⟩

end

/-- Positions are right everywhere. Each token and each diagnostic of a scan with recovery stands where
the text before it says; each diagnostic is that of a fault which the lexer hands out with that span,
has the place of the fault, and covers the text that is wrong; and so does the first one for the fault
that a scan without recovery gives. No counter of 32 bits overflows on the way. -/
theorem scan_positions (source : String) (h : source.toList.length < 2 ^ 32 - 1) :
    (∀ t ∈ (scanRecovering source).1, t.line = t.span.line ∧
      ∃ front back, source.toList = front ++ back ∧ t.span.StandsBehind front) ∧
    (∀ d ∈ (scanRecovering source).2, ∃ n fault,
      (Lexer.ofSource source).call n = (.error fault, d.span) ∧ fault.ReportedBy source.toList d) ∧
    (∀ fault, scan source = .error fault →
      ∃ d ds, (scanRecovering source).2 = d :: ds ∧ fault.ReportedBy source.toList d) ∧
    (∀ n, ∃ k, ((Lexer.ofSource source).afterCalls n).cursor =
      (Cursor.ofSource source.toList).forward k) ∧
    ∀ k, ((Cursor.ofSource source.toList).forward k).position.Fits32 := by
  refine ⟨?_, ?_, ?_, Lexer.cursor_afterCalls source, fits32_forward h⟩
  · intro t ht
    rw [scanRecovering_eq] at ht
    obtain ⟨y, hy, hyt⟩ := List.mem_filterMap.1 ht
    obtain ⟨front, back, hsource, hstands, -⟩ := reading_of_mem_layout hy
    refine ⟨Placed.line_of_token? hyt, front, y.piece.text ++ back, by rw [hsource, List.append_assoc], ?_⟩
    rwa [Placed.span_of_token? hyt]
  · intro d hd
    rw [scanRecovering_eq] at hd
    obtain ⟨y, hy, hyd⟩ := List.mem_filterMap.1 hd
    obtain ⟨n, hn⟩ := List.getElem?_of_mem hy
    obtain ⟨cause, hf, rfl⟩ := Placed.diagnostic?_eq_some_iff.1 hyd
    have hitem : y.item = .error ⟨cause, y.span.line, y.span.column⟩ := by
      rw [Placed.item, hf]
      rfl
    exact ⟨n, _, (Lexer.call_of_layout hn).trans (by rw [hitem]; rfl),
      reportedBy_of_mem_layout hy hitem⟩
  · intro fault hfault
    rcases tokens_or_first_fault (layout source.toList) with
      ⟨tokens, htokens⟩ | ⟨front, x, back, tokens, first, hl, ht, hx⟩
    · cases (scan_of_tokens htokens).2.1.symm.trans hfault
    · obtain ⟨-, hscan, hrecovering⟩ := scan_of_fault hl ht hx
      cases hscan.symm.trans hfault
      have hmem : x ∈ layout source.toList := by
        rw [hl]
        exact List.mem_append_right _ (List.mem_cons_self ..)
      exact ⟨_, _, congrArg Prod.snd hrecovering, reportedBy_of_mem_layout hmem hx⟩

/-- A byte order mark counts as a column, and a quote that is not closed reports what stands behind it
on its line. -/
theorem scan_positions_mark :
    "\ufeff\"é\n".toList.length < 2 ^ 32 - 1 ∧
      scan "\ufeff\"é\n" = .error ⟨.unterminatedString, 1, 2⟩ ∧
      ∃ d ds, (scanRecovering "\ufeff\"é\n").2 = d :: ds ∧
        (Fault.mk .unterminatedString 1 2).ReportedBy "\ufeff\"é\n".toList d := by
  have hlength : "\ufeff\"é\n".toList.length < 2 ^ 32 - 1 := by decide
  have hl : layout "\ufeff\"é\n".toList =
      [⟨⟨3, 1, 2⟩, ⟨[], ['"', 'é'], .fault .unterminatedString⟩⟩,
        ⟨⟨6, 1, 4⟩, ⟨[], ['\n'], .token .newline none⟩⟩,
        ⟨⟨7, 2, 1⟩, ⟨[], [], .token .eof none⟩⟩] := by
    decide +kernel
  have hscan : scan "\ufeff\"é\n" = .error ⟨.unterminatedString, 1, 2⟩ :=
    (@scan_of_fault "\ufeff\"é\n" [] [_, _] _ [] _ hl rfl rfl).2.1
  exact ⟨hlength, hscan, (scan_positions _ hlength).2.2.1 _ hscan⟩

end BrightLexer
