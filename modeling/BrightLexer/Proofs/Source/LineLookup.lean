import BrightLexer.Proofs.Source.Cursor
import BrightLexer.Proofs.Source.LineEnds

/-!
# A line is found by its number

`lineText` answers for the lines of a text that there are, and for each of them it leaves out at most a
carriage return at its end. So with this returned to them, the lines joined by newlines are the text
again (`LinesOf`). A cursor counts lines and columns while it moves, without a look at the lines as a
whole. `lines_found` says that the two agree: the line that a cursor is on is found by the number it
counts, and what stands in it from the cursor's column on is what the cursor has ahead of it.

Both sides are compared by the text before the cursor, from which the line that it is on is
`getElem?_splitLines`.
-/

namespace BrightLexer

/-- A line of a text. -/
structure SourceLine where
  /-- Its characters, but for a carriage return that ends it. -/
  shown : List Char
  /-- Whether a carriage return ends it. -/
  hasReturn : Bool
deriving DecidableEq

namespace SourceLine

/-- All characters of a line. -/
def whole (line : SourceLine) : List Char :=
  if line.hasReturn then line.shown ++ ['\r'] else line.shown

/-- The line with the given characters. -/
def ofWhole (cs : List Char) : SourceLine := ⟨shownLine cs, cs.getLast? = some '\r'⟩

/-- What is shown of a line and the carriage return behind it are the line. -/
theorem whole_ofWhole (cs : List Char) : (ofWhole cs).whole = cs := by
  unfold whole ofWhole shownLine
  by_cases h : cs.getLast? = some '\r'
  · obtain ⟨front, rfl⟩ := List.getLast?_eq_some_iff.1 h
    simp only [h, decide_true, if_true, List.dropLast_concat]
  · simp only [h, decide_false, Bool.false_eq_true, if_false]

end SourceLine

/-- Some lines are all lines of a text, and `lineText` finds them by their numbers. -/
structure LinesOf (source : List Char) (lines : List SourceLine) : Prop where
  /-- There is one line more than there are newlines. -/
  count : lines.length = source.count '\n' + 1
  /-- Each of them is found as it is shown. -/
  found : ∀ k line, lines[k]? = some line → lineText source (k + 1) = .ok line.shown
  /-- None of them holds a newline. -/
  newline : ∀ line ∈ lines, '\n' ∉ line.shown
  /-- Where nothing is left out, no carriage return was there. -/
  noReturn : ∀ line ∈ lines, line.hasReturn = false → line.shown.getLast? ≠ some '\r'
  /-- With newlines between them they are the text. -/
  joined : ['\n'].intercalate (lines.map SourceLine.whole) = source

/-- A cursor is on a line: the line is found by the cursor's line number, and goes on from the cursor's
column as the text ahead does up to the next newline. -/
structure Cursor.OnLine (source : List Char) (line : SourceLine) (c : Cursor) : Prop where
  /-- The line has the number that the cursor counts. -/
  found : lineText source c.position.line = .ok line.shown
  /-- Columns are counted from one. -/
  column : 1 ≤ c.position.column
  /-- Behind the characters before the cursor stands what is ahead of it. -/
  ahead : line.whole.drop (c.position.column - 1) = firstLine c.rest

section
variable {source : List Char} {c : Cursor}

/-! ## The lines of a text -/

/-- The lines of a text with newlines between them are the text. -/
theorem intercalate_splitLines (cs : List Char) : ['\n'].intercalate (splitLines cs) = cs := by
  induction cs using lines_induction with
  | last a ha => rw [splitLines_eq_singleton ha, List.intercalate_singleton]
  | line a b ha ih =>
    rw [splitLines_line ha, List.intercalate_cons_of_ne_nil (splitLines_ne_nil b), ih,
      List.append_assoc]
    rfl

/-- A line is missing if its number is zero or more than the number of lines. -/
theorem lineText_eq_error_iff {k : Nat} {e : LookupError} : lineText source k = .error e ↔
    (k = 0 ∨ source.count '\n' + 1 < k) ∧ e = .noSuchLine k (source.count '\n' + 1) := by
  rw [← length_splitLines]
  cases k with
  | zero =>
    rw [lineText]
    simp [eq_comm]
  | succ k =>
    rw [lineText]
    cases hline : (splitLines source)[k]? with
    | none =>
      have hmissing : k + 1 = 0 ∨ (splitLines source).length < k + 1 :=
        .inr (Nat.lt_succ_of_le (List.getElem?_eq_none_iff.1 hline))
      rw [and_iff_right hmissing, Except.error.injEq, eq_comm]
    | some line =>
      have hless := (List.getElem?_eq_some_iff.1 hline).1
      refine iff_of_false (fun h => by cases h) ?_
      omega

/-- The lines that a text is split into are all of its lines. -/
theorem linesOf_splitLines (source : List Char) :
    LinesOf source ((splitLines source).map .ofWhole) where
  count := by rw [List.length_map, length_splitLines]
  found := by
    intro k line hline
    rw [List.getElem?_map, Option.map_eq_some_iff] at hline
    obtain ⟨whole, hwhole, rfl⟩ := hline
    exact lineText_eq_ok_iff.2 ⟨whole, hwhole, rfl⟩
  newline := by
    rw [List.forall_mem_map]
    exact fun whole hwhole hmem =>
      newline_not_mem_splitLines source whole hwhole ((shownLine_sublist whole).subset hmem)
  noReturn := by
    rw [List.forall_mem_map]
    intro whole _ hreturn
    have hlast : ¬ whole.getLast? = some '\r' := of_decide_eq_false hreturn
    rwa [SourceLine.ofWhole, shownLine, if_neg hlast]
  joined := by
    have hid : SourceLine.whole ∘ SourceLine.ofWhole = id := funext SourceLine.whole_ofWhole
    rw [List.map_map, hid, List.map_id, intercalate_splitLines]

/-! ## The line of a cursor -/

/-- A cursor in a text is on one of its lines. -/
theorem Cursor.In.exists_onLine (h : c.In source) :
    ∃ line, ((splitLines source).map SourceLine.ofWhole)[c.position.line - 1]? = some line ∧
      c.OnLine source line := by
  obtain ⟨front, hsource, hc⟩ := h
  have hline : c.position.line = front.count '\n' + 1 := by
    rw [hc, Cursor.between, Position.line_origin_after, Nat.add_comm]
  have hcolumn : c.position.column = (lastLine front).length + 1 := by
    rw [hc, Cursor.between, Position.column_origin_after, Nat.add_comm]
  have hwhole : ((splitLines source).map SourceLine.ofWhole)[c.position.line - 1]? =
      some (.ofWhole (lastLine front ++ firstLine c.rest)) := by
    rw [hline, Nat.add_sub_cancel, List.getElem?_map, hsource, getElem?_splitLines]
    rfl
  refine ⟨_, hwhole, ?_, ?_, ?_⟩
  · rw [hline] at hwhole ⊢
    exact (linesOf_splitLines source).found _ _ hwhole
  · rw [hcolumn]
    exact Nat.le_add_left ..
  · rw [SourceLine.whole_ofWhole, hcolumn, Nat.add_sub_cancel, List.drop_left]

end

/-- Lines are found by their numbers, as a cursor counts them. The lookup fails for zero and for numbers
above that of the lines, with this number, and for no others. What it finds holds no newline; a carriage
return at the end of a line is left out once, and with it the lines joined by newlines are the source text.
Behind any operations of a cursor on a source text of fewer than `2 ^ 32 - 1` characters, no counter has
left its 32 bits, and the cursor is on the line that its line number finds, at its column. -/
theorem lines_found (source : List Char) :
    (∀ k, ((∃ e, lineText source k = .error e) ↔ k = 0 ∨ source.count '\n' + 1 < k) ∧
      ∀ e, lineText source k = .error e → e = .noSuchLine k (source.count '\n' + 1)) ∧
    ∃ lines, LinesOf source lines ∧ (source.length < 2 ^ 32 - 1 → ∀ operations,
      let c := (Cursor.ofSource source).movedAll operations
      c.position.Fits32 ∧ ∃ line, lines[c.position.line - 1]? = some line ∧ c.OnLine source line) := by
  refine ⟨fun k => ⟨⟨?_, fun hk => ?_⟩, fun e he => (lineText_eq_error_iff.1 he).2⟩,
    _, linesOf_splitLines source, fun hlength operations => ?_⟩
  · rintro ⟨e, he⟩
    exact (lineText_eq_error_iff.1 he).1
  · exact ⟨_, lineText_eq_error_iff.2 ⟨hk, rfl⟩⟩
  · obtain ⟨n, hn⟩ := (Cursor.ofSource source).exists_forward_movedAll operations
    dsimp only
    rw [hn]
    exact ⟨fits32_forward hlength n, ((Cursor.in_ofSource source).forward n).exists_onLine⟩

/-- Of four carriage returns only the one before the newline is left out, and a cursor behind the first of
them has the other ones ahead. -/
theorem lines_found_returns :
    let source := "é\rx\r\r\r\nb".toList
    let c := (Cursor.ofSource source).movedAll [.advanceWhile (· != '\r'), .matchChar '\r']
    source.length < 2 ^ 32 - 1 ∧ lineText source 1 = .ok "é\rx\r\r".toList ∧
      c.OnLine source ⟨"é\rx\r\r".toList, true⟩ ∧ firstLine c.rest = "x\r\r\r".toList := by
  intro source c
  have hlength : source.length < 2 ^ 32 - 1 := by decide +kernel
  have hfound : lineText source 1 = .ok "é\rx\r\r".toList := by decide +kernel
  have hrest : firstLine c.rest = "x\r\r\r".toList := by decide +kernel
  obtain ⟨-, lines, -, hcursor⟩ := lines_found source
  obtain ⟨-, ⟨shown, hasReturn⟩, -, hline⟩ := hcursor hlength
    [.advanceWhile (· != '\r'), .matchChar '\r']
  cases hline.found.symm.trans hfound
  have hreturn : hasReturn = true := by
    have hahead := hline.ahead.trans hrest
    cases hasReturn with
    | true => rfl
    | false => exact absurd hahead (by decide +kernel)
  subst hreturn
  exact ⟨hlength, hfound, hline, hrest⟩

end BrightLexer
