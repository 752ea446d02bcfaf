import BrightLexer.Diagnostic.Render
import BrightLexer.Proofs.Scan.Lines
import BrightLexer.Proofs.Scan.Positions
import BrightLexer.Proofs.Source.LineEnds
import Mathlib.Data.List.Forall2

/-!
# Both styles of line end are scanned and reported alike

A carriage return before a newline is passed over as a blank, taken into a comment, or taken into a
quoted text that is not closed. In each case the pieces of the line stay the same but for the one that
it goes to (`pieces_append_return`), so the layouts of a text in both styles of line end differ in
byte offsets, in the columns of the newlines, and in the texts of quotes that are not closed
(`sameButReturn_layout`).

Such a quote is the reason why the diagnostics need a closer look: its span covers the carriage return
that is not part of the line shown. It reaches up to the end of that line in either style, so both
underline the line to its end (`underlineWidth_eq`).
-/

namespace BrightLexer

section
variable {a b cs : List Char}

/-! ## A carriage return behind a line -/

/-- A comment goes up to the end of the line. -/
theorem cutLine_eq (h : '\n' ∉ cs) : cutLine cs = ⟨cs, []⟩ := by
  have hall : ∀ c ∈ cs, (c != '\n') = true := by
    intro c hc
    refine bne_iff_ne.2 ?_
    rintro rfl
    exact h hc
  rw [cutLine, cutWhile, List.takeWhile_eq_self_iff.2 hall, List.dropWhile_eq_nil_iff.2 hall]

/-- If all of a line is passed over, a carriage return behind it is too, and otherwise it is left. -/
theorem cutTrivia_append_return (h : '\n' ∉ a) :
    cutTrivia (a ++ ['\r']) =
      if (cutTrivia a).rest = [] then ⟨a ++ ['\r'], []⟩ else (cutTrivia a).followedBy ['\r'] := by
  induction a with
  | nil => rfl
  | cons c a ih =>
    have ho : opensComment (c :: (a ++ ['\r'])) = opensComment (c :: a) :=
      opensComment_append_separator (by decide) (c :: a) []
    rw [List.cons_append, cutTrivia, cutTrivia, ho]
    split
    · have hreturn : '\n' ∉ c :: (a ++ ['\r']) := by simpa using h
      rw [cutLine_eq h, cutLine_eq hreturn]
      rfl
    split
    · rw [ih fun hn => h (List.mem_cons_of_mem c hn), Cut.rest_after]
      split
      · rfl
      · rfl
    · rfl

/-- A quoted text that is not closed goes on up to the end of the text. -/
theorem cutQuotationBody_append_of_open {c : Char} (h : (cutQuotationBody cs).content = none)
    (hr : (cutQuotationBody cs).rest = []) (hq : c ≠ '"') (hn : c ≠ '\n') :
    cutQuotationBody (cs ++ [c]) = ⟨⟨cs ++ [c], []⟩, none⟩ := by
  fun_induction cutQuotationBody cs with
  | case1 =>
    rw [List.nil_append, cutQuotationBody_cons hq hn]
    rfl
  | case2 cs ih =>
    have he := ih (Option.map_eq_none_iff.1 h) hr
    rw [List.cons_append, List.cons_append, cutQuotationBody, he]
    rfl
  | case3 => cases h
  | case4 => cases hr
  | case5 d cs _ hdq hdn ih =>
    have he := ih (Option.map_eq_none_iff.1 h) hr
    rw [List.cons_append, cutQuotationBody_cons hdq hdn, he]
    rfl

/-- A quote that is not closed takes all of its line, and a carriage return behind it. -/
theorem reading_append_return_of_open (h : '\n' ∉ cs)
    (hf : (reading cs).finding = .fault .unterminatedString) :
    (reading cs).rest = [] ∧
      reading (cs ++ ['\r']) = ⟨⟨cs ++ ['\r'], []⟩, .fault .unterminatedString⟩ := by
  have hwhole : (reading cs).taken ++ (reading cs).rest = cs := whole_reading cs
  obtain ⟨body, hbody, -, hend⟩ := describes_reading hf
  have hrest : (reading cs).rest = [] := by
    cases hr : (reading cs).rest with
    | nil => rfl
    | cons c r =>
      rw [hr, hend c r hr] at hwhole
      exact absurd (hwhole ▸ List.mem_append_right _ (List.mem_cons_self ..)) h
  rw [hrest, hbody, List.append_nil] at hwhole
  subst hwhole
  rw [reading_quote] at hf hrest
  have hopen : (cutQuotationBody body).content = none := (Quotation.finding_eq_fault_iff.1 hf).1
  refine ⟨hrest, ?_⟩
  rw [List.cons_append, reading_quote, cutQuotation,
    cutQuotationBody_append_of_open hopen hrest (by decide) (by decide)]
  rfl

/-- The first piece of a line does not see a carriage return behind the line. -/
theorem first_append_return (h : '\n' ∉ a) (hr : (cutTrivia a).rest ≠ [])
    (hf : (firstPiece a).finding ≠ .fault .unterminatedString) :
    firstPiece (a ++ ['\r']) = firstPiece a ∧
      afterPiece (a ++ ['\r']) = afterPiece a ++ ['\r'] := by
  have hcut := (cutTrivia_append_return h).trans (if_neg hr)
  have hread : reading ((cutTrivia a).rest ++ ['\r']) = _ :=
    reading_append_separator (by decide) hr (.inr hf)
  constructor
  · simp only [firstPiece, hcut, Cut.followedBy, hread, Reading.followedBy]
  · simp only [afterPiece, hcut, Cut.followedBy, hread, Reading.followedBy]

/-- A quote that is not closed is the last piece of its line, and takes the carriage return too. -/
theorem first_append_return_of_open (h : '\n' ∉ a) (hr : (cutTrivia a).rest ≠ [])
    (hf : (firstPiece a).finding = .fault .unterminatedString) :
    afterPiece a = [] ∧ afterPiece (a ++ ['\r']) = [] ∧
      firstPiece (a ++ ['\r']) =
        ⟨(firstPiece a).gap, (firstPiece a).text ++ ['\r'], .fault .unterminatedString⟩ := by
  have hcut := (cutTrivia_append_return h).trans (if_neg hr)
  have hrest : '\n' ∉ (cutTrivia a).rest := fun hn =>
    h (whole_cutTrivia a ▸ List.mem_append_right _ hn)
  obtain ⟨hend, hread⟩ := reading_append_return_of_open hrest hf
  have htaken : (reading (cutTrivia a).rest).taken = (cutTrivia a).rest := by
    have hw := whole_reading (cutTrivia a).rest
    rwa [Cut.whole, hend, List.append_nil] at hw
  refine ⟨hend, ?_, ?_⟩
  · simp only [afterPiece, hcut, Cut.followedBy, hread]
  · simp only [firstPiece, hcut, Cut.followedBy, hread, htaken]

/-- A carriage return behind a line goes to the gap before its end, or to the text of a quote that is
not closed. -/
theorem pieces_append_return (h : '\n' ∉ a) :
    ∃ front gap, pieces a = front ++ [⟨gap, [], .token .eof none⟩] ∧
      (pieces (a ++ ['\r']) = front ++ [⟨gap ++ ['\r'], [], .token .eof none⟩] ∨
        ∃ init before text, gap = [] ∧
          front = init ++ [⟨before, text, .fault .unterminatedString⟩] ∧
          pieces (a ++ ['\r']) = init ++ [⟨before, text ++ ['\r'], .fault .unterminatedString⟩,
            ⟨[], [], .token .eof none⟩]) := by
  fun_induction pieces a with
  | case1 a hr =>
    refine ⟨[], a, ?_, .inl ?_⟩
    · rw [firstPiece_of_rest_eq_nil hr, List.nil_append]
    · have hcut := (cutTrivia_append_return h).trans (if_pos hr)
      rw [pieces_of_rest_eq_nil (by rw [hcut]), List.nil_append]
  | case2 a hr ih =>
    have hne : (cutTrivia (a ++ ['\r'])).rest ≠ [] := by
      simp [cutTrivia_append_return h, hr]
    rw [pieces_of_rest_ne_nil hne]
    -- A quote that is not closed is the last piece, so there the induction ends.
    by_cases hf : (firstPiece a).finding = .fault .unterminatedString
    · obtain ⟨hend, hend', hfirst⟩ := first_append_return_of_open h hr hf
      have hnil : pieces [] = [⟨[], [], .token .eof none⟩] := pieces_of_rest_eq_nil rfl
      refine ⟨[firstPiece a], [], ?_, .inr ⟨[], (firstPiece a).gap, (firstPiece a).text, rfl, ?_, ?_⟩⟩
      · rw [hend, hnil, List.singleton_append]
      · rw [← hf, List.nil_append]
      · rw [hend', hfirst, hnil, List.nil_append]
    · obtain ⟨hfirst, hafter⟩ := first_append_return h hr hf
      have hn : '\n' ∉ afterPiece a := fun hn =>
        h (whole_firstPiece_append a ▸ List.mem_append_right _ hn)
      obtain ⟨front, gap, hp, hreturn⟩ := ih hn
      refine ⟨firstPiece a :: front, gap, by rw [hp, List.cons_append], ?_⟩
      rw [hfirst, hafter]
      rcases hreturn with he | ⟨init, before, text, hgap, hfront, he⟩
      · exact .inl (by rw [he, List.cons_append])
      · refine .inr ⟨firstPiece a :: init, before, text, hgap, ?_, ?_⟩
        · rw [hfront, List.cons_append]
        · rw [he, List.cons_append]

end

/-! ## The layouts in both styles -/

/-- Two positions on one line and in one column. -/
structure Position.SamePlace (p q : Position) : Prop where
  /-- They are on one line. -/
  line : q.line = p.line
  /-- They are in one column. -/
  column : q.column = p.column

/-- How many columns a newline moves when it gets a carriage return before it. -/
def Finding.returnColumns : Finding → Nat
  | .token kind _ => if kind = .newline then 1 else 0
  | .fault _ => 0

/-- A piece of a text, and its counterpart in the text with carriage returns: only the column of a
newline and the text of a quote that is not closed are not the same. -/
structure Placed.SameButReturn (x y : Placed) : Prop where
  /-- Both are found to be the same. -/
  finding : y.piece.finding = x.piece.finding
  /-- They start on the same line. -/
  line : y.start.line = x.start.line
  /-- They start in the same column, if they are not newlines. -/
  column : y.start.column = x.start.column + x.piece.finding.returnColumns
  /-- They have the same text, or are a quote that takes the carriage return. -/
  text : y.piece.text = x.piece.text ∨
    x.piece.finding = .fault .unterminatedString ∧ y.piece.text = x.piece.text ++ ['\r']

section
variable {p q : Position} {a cs : List Char}

namespace Position.SamePlace

/-- Places on the same line and column stay so over a character. -/
theorem next (h : p.SamePlace q) (c : Char) : (p.next c).SamePlace (q.next c) := by
  unfold Position.next
  split
  · exact ⟨congrArg (· + 1) h.line, rfl⟩
  · exact ⟨h.line, congrArg (· + 1) h.column⟩

/-- Places on the same line and column stay so over a text. -/
theorem after (h : p.SamePlace q) (cs : List Char) : (p.after cs).SamePlace (q.after cs) := by
  induction cs generalizing p q with
  | nil => exact h
  | cons c cs ih => exact ih (h.next c)

end Position.SamePlace

/-- The same pieces from the same line and column on differ in their offsets only. -/
theorem sameButReturn_place {xs : List Piece} (h : p.SamePlace q)
    (hxs : ∀ x ∈ xs, x.finding.returnColumns = 0) :
    List.Forall₂ Placed.SameButReturn (place p xs) (place q xs) := by
  induction xs generalizing p q with
  | nil => exact .nil
  | cons x xs ih =>
    have hx : x.finding.returnColumns = 0 := hxs x (List.mem_cons_self ..)
    refine .cons ⟨rfl, (h.after _).line, ?_, .inl rfl⟩
      (ih (h.after _) fun y hy => hxs y (List.mem_cons_of_mem x hy))
    rw [hx]
    exact (h.after _).column

/-- A text of one line has no newline among its pieces. -/
theorem returnColumns_of_mem_pieces (h : '\n' ∉ cs) {x : Piece} (hx : x ∈ pieces cs) :
    x.finding.returnColumns = 0 := by
  obtain ⟨before, after, hp⟩ := List.append_of_mem hx
  cases hf : x.finding with
  | fault cause => rfl
  | token kind value =>
    refine if_neg ?_
    rintro rfl
    have hread := (piece_spec hp).2.2
    obtain ⟨r, hr⟩ := eq_newline_of_finding ((congrArg Reading.finding hread).trans hf)
    have htext := textOf_pieces cs
    rw [hp, textOf_append, textOf_cons, Piece.whole, List.append_assoc, hr] at htext
    exact absurd (htext ▸ by simp) h

/-- The pieces of a line, with a carriage return behind it and without. -/
theorem sameButReturn_line (h : '\n' ∉ a) (hpq : p.SamePlace q) :
    ∃ front gap front' gap', pieces a = front ++ [⟨gap, [], .token .eof none⟩] ∧
      pieces (a ++ ['\r']) = front' ++ [⟨gap', [], .token .eof none⟩] ∧
      List.Forall₂ Placed.SameButReturn (place p front) (place q front') := by
  obtain ⟨front, gap, hp, hreturn⟩ := pieces_append_return h
  have hcolumns : ∀ x ∈ front, x.finding.returnColumns = 0 := fun x hx =>
    returnColumns_of_mem_pieces h (hp ▸ List.mem_append_left _ hx)
  rcases hreturn with he | ⟨init, before, text, -, rfl, he⟩
  · exact ⟨front, gap, front, _, hp, he, sameButReturn_place hpq hcolumns⟩
  · refine ⟨_, gap, init ++ [⟨before, text ++ ['\r'], .fault .unterminatedString⟩], [], hp, ?_, ?_⟩
    · rw [he, List.append_assoc]
      rfl
    · rw [place_append, place_append]
      refine List.rel_append
        (sameButReturn_place hpq fun x hx => hcolumns x (List.mem_append_left _ hx)) ?_
      have hinit := (hpq.after (textOf init)).after before
      exact .cons ⟨rfl, hinit.line, hinit.column, .inr ⟨rfl, rfl⟩⟩ .nil

/-- The text before the end token. -/
theorem textOf_append_gap {front : List Piece} {gap : List Char}
    (h : pieces cs = front ++ [⟨gap, [], .token .eof none⟩]) : textOf front ++ gap = cs := by
  have ht := textOf_pieces cs
  rw [h, textOf_append, textOf_cons, textOf_nil, List.append_nil, Piece.whole, List.append_nil] at ht
  exact ht

/-- The pieces of a text in both styles of line end, from one place on. -/
theorem sameButReturn_pieces (cs : List Char) (h : p.SamePlace q) :
    List.Forall₂ Placed.SameButReturn (place p (pieces cs)) (place q (pieces (withReturns cs))) := by
  induction cs using lines_induction generalizing p q with
  | last a ha =>
    rw [withReturns_eq_self ha]
    exact sameButReturn_place h fun x hx => returnColumns_of_mem_pieces ha hx
  | line a b ha ih =>
    obtain ⟨front, gap, front', gap', hp, hp', hfront⟩ := sameButReturn_line ha h
    rw [withReturns_append_newline ha, pieces_append_newline_of_eq hp,
      pieces_append_newline_of_eq hp', place_append_cons, place_append_cons]
    -- The newline stands behind the whole line, whichever piece the carriage return went to.
    simp only [Piece.whole, ← List.append_assoc, textOf_append_gap hp, textOf_append_gap hp']
    simp only [Position.after_append, Position.after_cons, Position.after_nil]
    have hline := h.after a
    refine List.rel_append hfront (.cons ⟨rfl, ?_, ?_, .inl rfl⟩ (ih ⟨?_, rfl⟩))
    · exact hline.line
    · exact congrArg (· + 1) hline.column
    · exact congrArg (· + 1) hline.line

/-- Carriage returns leave the byte order mark of a text as it is. -/
theorem cutMark_withReturns (cs : List Char) :
    cutMark (withReturns cs) = ⟨(cutMark cs).taken, withReturns (cutMark cs).rest⟩ := by
  cases cs with
  | nil => rfl
  | cons c cs =>
    by_cases hc : c = '\n'
    · rw [hc]
      rfl
    · rw [withReturns_cons_of_ne hc, cutMark, cutMark, List.head?_cons, List.head?_cons]
      split
      · rfl
      · exact congrArg (Cut.mk []) (withReturns_cons_of_ne hc cs).symm

/-- The layouts of a text in both styles of line end are the same, piece by piece, but for the carriage
returns. -/
theorem sameButReturn_layout (cs : List Char) :
    List.Forall₂ Placed.SameButReturn (layout cs) (layout (withReturns cs)) := by
  rw [layout, layout, cutMark_withReturns]
  exact sameButReturn_pieces _ ⟨rfl, rfl⟩

end

/-! ## Tokens -/

/-- A token of a text, and its counterpart in the text with carriage returns. -/
structure Token.SameButReturn (t u : Token) : Prop where
  /-- They are of one kind. -/
  kind : u.kind = t.kind
  /-- They have one text. -/
  text : u.text = t.text
  /-- They have one value. -/
  literal : u.literal = t.literal
  /-- They are on the same line. -/
  line : u.line = t.line
  /-- A newline is one column further, any other token in the same column. -/
  column : u.column = t.column + if t.kind = .newline then 1 else 0

/-- Pieces that are the same but for a carriage return are both tokens or both none, and their tokens differ
as allowed. -/
theorem Placed.token?_sameButReturn {x y : Placed} (h : x.SameButReturn y) :
    Option.Rel Token.SameButReturn x.token? y.token? := by
  unfold token? item
  rw [h.finding]
  cases hx : x.piece.finding with
  | token kind value =>
    have htext : y.piece.text = x.piece.text := by
      rcases h.text with ht | ⟨hf, -⟩
      · exact ht
      · rw [hx] at hf
        cases hf
    have hcolumn := h.column
    rw [hx] at hcolumn
    exact .some ⟨rfl, congrArg String.ofList htext, rfl, h.line, hcolumn⟩
  | fault cause => exact .none

/-! ## Diagnostics -/

/-- A diagnostic of `s`, and its counterpart in `t`, where it is shown in the same way. -/
structure Diagnostic.ReportsAlike (s t : String) (d e : Diagnostic) : Prop where
  /-- They are equally grave. -/
  level : e.level = d.level
  /-- They say the same. -/
  message : e.message = d.message
  /-- They have one code. -/
  code : e.code = d.code
  /-- They have the same notes. -/
  notes : e.notes = d.notes
  /-- They have the same helps. -/
  helps : e.helps = d.helps
  /-- They are on the same line. -/
  line : e.span.line = d.span.line
  /-- They are in the same column. -/
  column : e.span.column = d.span.column
  /-- They are rendered in the same way. -/
  rendered : e.render t = d.render s

/-- Two diagnostics for one fault on one line and in one column are rendered in the same way, if their
line is shown in the same way and underlined to the same width. -/
theorem renderedLines_congr {f : Fault} {p q : Span} {s t : List Char} (hline : q.line = p.line)
    (hcolumn : q.column = p.column) (hlines : lineText t p.line = lineText s p.line)
    (hwidth : ∀ line, lineText s p.line = .ok line →
      (f.diagnostic q).underlineWidth t line = (f.diagnostic p).underlineWidth s line) :
    (f.diagnostic q).renderedLines t = (f.diagnostic p).renderedLines s := by
  have hplace : q.place = p.place := by rw [Span.place, hline, hcolumn, Span.place]
  have hsnippet (line : List Char) (hl : lineText s p.line = .ok line) :
      (f.diagnostic q).snippet t line = (f.diagnostic p).snippet s line := by
    rw [Diagnostic.snippet, hwidth line hl]
    simp only [Diagnostic.snippet, Diagnostic.shownColumn, Fault.diagnostic, hline, hcolumn]
  unfold Diagnostic.renderedLines
  simp only [Fault.diagnostic] at hsnippet ⊢
  rw [hline, hlines, hplace]
  cases hl : lineText s p.line with
  | error e => rfl
  | ok line =>
    dsimp only
    rw [hsnippet line hl]
    rfl

/-- A fault stays in its column. -/
theorem Placed.SameButReturn.column_of_fault {x y : Placed} (h : x.SameButReturn y)
    {cause : FaultCause} (hf : x.piece.finding = .fault cause) : y.span.column = x.span.column := by
  have hcolumn := h.column
  rw [hf] at hcolumn
  exact hcolumn

section
variable {s : List Char} {x y : Placed} {line : List Char}

/-- The span of a piece covers as many characters of its first line as the text of the piece has there. -/
theorem spanWidth_of_mem_layout (h : x ∈ layout s) (f : Fault) :
    (f.diagnostic x.span).spanWidth s = (firstLine x.piece.text).length := by
  have htext : (f.diagnostic x.span).span.text? s = .ok x.piece.text := text?_of_mem_layout h
  rw [Diagnostic.spanWidth, htext]
  rfl

/-- A quote that is not closed reaches up to the end of its line as shown. -/
theorem length_line_le_of_open (h : x ∈ layout s)
    (hf : x.piece.finding = .fault .unterminatedString) (hl : lineText s x.span.line = .ok line) :
    x.piece.text ≠ [] ∧ '\n' ∉ x.piece.text ∧
      line.length - (x.span.column - 1) ≤ x.piece.text.length := by
  obtain ⟨front, back, hsource, hstands, hread⟩ := reading_of_mem_layout h
  have hdescribes : FaultCause.unterminatedString.Describes x.piece.text back := by
    have hd := describes_reading ((congrArg Reading.finding hread).trans hf)
    rwa [hread] at hd
  obtain ⟨body, hbody, hn, hend⟩ := hdescribes
  have hnewline : '\n' ∉ x.piece.text := by
    rw [hbody, List.mem_cons, not_or]
    exact ⟨by decide, hn⟩
  refine ⟨by rw [hbody]; exact List.cons_ne_nil _ _, hnewline, ?_⟩
  have hget := getElem?_splitLines front (x.piece.text ++ back)
  rw [firstLine_append hnewline hend, ← List.append_assoc, ← hsource] at hget
  have hline : line = shownLine (lastLine front ++ x.piece.text) := by
    rw [hstands.line, Nat.add_comm, lineText_eq_ok_iff, hget] at hl
    obtain ⟨raw, hraw, rfl⟩ := hl
    rw [Option.some.inj hraw]
  have hle := (shownLine_sublist (lastLine front ++ x.piece.text)).length_le
  rw [← hline, List.length_append] at hle
  have hcolumn := hstands.column
  omega

/-- The fault of a piece is underlined over the same width in both styles of line end. -/
theorem underlineWidth_eq (hx : x ∈ layout s) (hy : y ∈ layout (withReturns s))
    (h : x.SameButReturn y) {cause : FaultCause} (hf : x.piece.finding = .fault cause)
    (hl : lineText s x.span.line = .ok line) (f : Fault) :
    (f.diagnostic y.span).underlineWidth (withReturns s) line =
      (f.diagnostic x.span).underlineWidth s line := by
  have hcolumn := h.column_of_fault hf
  have hshown : (f.diagnostic y.span).shownColumn = (f.diagnostic x.span).shownColumn :=
    congrArg (max · 1) hcolumn
  rw [Diagnostic.underlineWidth, Diagnostic.underlineWidth, spanWidth_of_mem_layout hx,
    spanWidth_of_mem_layout hy, hshown]
  rcases h.text with ht | ⟨hopen, ht⟩
  · rw [ht]
  · obtain ⟨hne, hn, hle⟩ := length_line_le_of_open hx hopen hl
    have hlength : (firstLine y.piece.text).length = x.piece.text.length + 1 := by
      rw [ht, firstLine_eq_self (by simp [hn]), List.length_append, List.length_singleton]
    have hpos := List.length_pos_iff.2 hne
    -- The line shown has no room for the caret that the carriage return would add.
    rw [hlength, firstLine_eq_self hn]
    have hcol : x.span.column ≤ (f.diagnostic x.span).shownColumn := Nat.le_max_left ..
    omega

/-- Pieces that are the same but for a carriage return are both faults or both none, and their diagnostics
report alike. -/
theorem diagnostic?_reportsAlike {s t : String} (ht : t.toList = withReturns s.toList)
    (hs : ¬ ['\r', '\n'] <:+: s.toList) (hx : x ∈ layout s.toList) (hy : y ∈ layout t.toList)
    (h : x.SameButReturn y) :
    Option.Rel (Diagnostic.ReportsAlike s t) x.diagnostic? y.diagnostic? := by
  cases hf : x.piece.finding with
  | token kind value =>
    rw [Placed.diagnostic?_of_finding hf, Placed.diagnostic?_of_finding (h.finding.trans hf)]
    exact .none
  | fault cause =>
    have hcolumn := h.column_of_fault hf
    have hline : y.span.line = x.span.line := h.line
    have hdx := Placed.diagnostic?_eq_some_iff.2 ⟨cause, hf, rfl⟩
    have hdy := Placed.diagnostic?_eq_some_iff.2 ⟨cause, h.finding.trans hf, rfl⟩
    rw [hdx, hdy, hline, hcolumn]
    rw [ht] at hy
    refine .some ⟨rfl, rfl, rfl, rfl, rfl, hline, hcolumn, ?_⟩
    rw [Diagnostic.render, Diagnostic.render, ht, renderedLines_congr hline hcolumn
      (lineText_withReturns hs _) fun line hl => underlineWidth_eq hx hy h hf hl _]

end

/-- Both styles of line end are scanned and reported alike. If no newline of a text has a carriage
return before it, putting one there changes of the tokens only the columns of the newlines, and it
changes nothing of what the diagnostics say, of where they stand, or of how they are shown. -/
theorem scan_withReturns (s t : String) (ht : t.toList = withReturns s.toList)
    (hs : ¬ ['\r', '\n'] <:+: s.toList) :
    List.Forall₂ Token.SameButReturn (scanRecovering s).1 (scanRecovering t).1 ∧
      List.Forall₂ (Diagnostic.ReportsAlike s t) (scanRecovering s).2 (scanRecovering t).2 := by
  have hlayout : List.Forall₂ Placed.SameButReturn (layout s.toList) (layout t.toList) := by
    rw [ht]
    exact sameButReturn_layout s.toList
  have hmem : List.Forall₂ (fun x y => x ∈ layout s.toList ∧ y ∈ layout t.toList ∧
      x.SameButReturn y) (layout s.toList) (layout t.toList) :=
    List.forall₂_iff_zip.2 ⟨hlayout.length_eq, fun hxy =>
      ⟨(List.of_mem_zip hxy).1, (List.of_mem_zip hxy).2, List.forall₂_zip hlayout hxy⟩⟩
  rw [scanRecovering_eq, scanRecovering_eq]
  constructor
  · exact List.rel_filterMap @Placed.token?_sameButReturn hlayout
  · refine List.rel_filterMap ?_ hmem
    rintro x y ⟨hx, hy, hxy⟩
    exact diagnostic?_reportsAlike ht hs hx hy hxy

/-- A quote that is not closed covers one byte more before a carriage return, and is shown in the same
way. -/
theorem scan_withReturns_unclosed :
    "\"a\r\nb".toList = withReturns "\"a\nb".toList ∧ ¬ ['\r', '\n'] <:+: "\"a\nb".toList ∧
      ∃ d e, (scanRecovering "\"a\nb").2 = [d] ∧ (scanRecovering "\"a\r\nb").2 = [e] ∧
        d.span.length = 2 ∧ e.span.length = 3 ∧
        e.render "\"a\r\nb" = d.render "\"a\nb" := by
  have ht : "\"a\r\nb".toList = withReturns "\"a\nb".toList := by decide
  have hs : ¬ ['\r', '\n'] <:+: "\"a\nb".toList := by decide
  obtain ⟨-, hdiagnostics⟩ := scan_withReturns "\"a\nb" "\"a\r\nb" ht hs
  have hd : (scanRecovering "\"a\nb").2 =
      [(Fault.mk .unterminatedString 1 1).diagnostic ⟨0, 2, 1, 1⟩] := by
    rw [scanRecovering_eq]
    decide +kernel
  have he : (scanRecovering "\"a\r\nb").2 =
      [(Fault.mk .unterminatedString 1 1).diagnostic ⟨0, 3, 1, 1⟩] := by
    rw [scanRecovering_eq]
    decide +kernel
  rw [hd, he] at hdiagnostics
  cases hdiagnostics with
  | cons h _ => exact ⟨ht, hs, _, _, hd, he, rfl, rfl, h.rendered⟩

end BrightLexer
