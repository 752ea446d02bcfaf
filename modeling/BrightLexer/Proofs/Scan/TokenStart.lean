import BrightLexer.Proofs.Scan.Agreement
import BrightLexer.Proofs.Scan.Positions

/-!
# Where a token starts, and what is found there

A call of `Lexer.nextToken` passes over a byte order mark, if one is still allowed, and over a gap, and
starts a token behind it. `Lexer.StartsAt` says that it does so where a given text is ahead, and
`Lexer.Finds` what comes of the call: the gap that was passed over, the text that was taken, and what
that text was found to be. Both say it of any lexer, whatever it has read before.

`Lexer.StartsAt.finds` ties the two by `reading`, for a text that starts with no blank and opens no
comment. So a statement about the tokens of some kind needs to know `reading` alone. In the other
direction, the text of every token that is handed out is, on its own, read as this token
(`Token.Scanned.reading_text`).
-/

namespace BrightLexer

/-- `line` goes up to the next newline or to the end of the text, and `back` stands behind it. -/
structure LineEnds (line back : List Char) : Prop where
  /-- The line holds no newline. -/
  newline_not_mem : '\n' ∉ line
  /-- A newline ends the line, or the text does. -/
  ends : ∀ c r, back = c :: r → c = '\n'

section
variable {gap rest line back : List Char}

/-- What is cut off as the rest of a line goes up to where the line ends. -/
theorem lineEnds_cutLine (cs : List Char) : LineEnds (cutLine cs).taken (cutLine cs).rest where
  newline_not_mem := fun hn => by simpa using all_taken_cutWhile _ _ _ hn
  ends := fun c r hr => by simpa using head_rest_cutWhile hr

/-- A gap is what is passed over, if nothing more is passed over behind it. -/
theorem Gap.cutTrivia_eq (h : Gap gap rest) (hrest : cutTrivia rest = .empty rest) :
    cutTrivia (gap ++ rest) = ⟨gap, rest⟩ := by
  induction h with
  | nil => exact hrest
  | @blank c gap rest hb _ ih =>
    have hsep : isSeparator c = true := by rw [isSeparator, hb, Bool.or_true]
    rw [List.cons_append, cutTrivia, opensComment_cons_separator hsep, if_neg Bool.false_ne_true, if_pos hb,
      ih hrest]
    rfl
  | @comment gap rest ho hn hend =>
    have hopen := opensComment_iff.2 ho
    cases gap with
    | nil => exact hrest
    | cons c gap =>
      rw [List.cons_append] at hopen ⊢
      rw [cutTrivia, if_pos hopen, ← List.cons_append]
      refine cutWhile_append_eq (fun d hd => bne_iff_ne.2 fun he => hn (he ▸ hd)) fun d r hr => ?_
      rw [hend d r hr]
      rfl

/-- Only blanks, apostrophes and the letter `r` are passed over, so nothing is before any other
character. -/
theorem cutTrivia_of_head {c : Char} (hb : isBlank c = false) (ha : c ≠ '\'') (hr : c.toLower ≠ 'r')
    (cs : List Char) : cutTrivia (c :: cs) = .empty (c :: cs) := by
  refine cutTrivia_eq_empty_iff.2 ⟨Bool.eq_false_iff.2 fun ho => ?_, hb⟩
  exact (opensComment_iff.1 ho).head.elim ha hr

/-- Where a comment opens behind a gap, the gap goes on to the end of the line. -/
theorem Gap.append_comment (h : Gap gap (line ++ back)) (ho : OpensComment (line ++ back))
    (hline : LineEnds line back) : Gap (gap ++ line) back := by
  generalize hrest : line ++ back = rest at h ho
  induction h with
  | nil => exact .comment (hrest ▸ ho) hline.newline_not_mem hline.ends
  | blank hb _ ih => exact .blank hb (ih hrest ho)
  | comment _ _ hstop =>
    -- Behind a comment the line has ended, so no other comment opens there.
    cases ho with
    | apostrophe cs => exact absurd (hstop _ _ rfl) (by decide)
    | @rem word cs hw _ =>
      obtain ⟨c, word, rfl⟩ : ∃ c w, word = c :: w := by
        cases word with
        | nil => cases hw
        | cons c w => exact ⟨c, w, rfl⟩
      rw [hstop c _ rfl] at hw
      cases (List.cons.inj hw).1

end

namespace Lexer

/-- A call of `nextToken` starts a token where `rest` is ahead, behind `gap`. -/
structure StartsAt (l : Lexer) (gap rest : List Char) : Prop where
  /-- Behind a byte order mark, the gap is ahead, and then the text. -/
  ahead : l.skipMark.rest = gap ++ rest
  /-- The gap is made of blanks and at most one comment, which ends its line. -/
  gap : Gap gap rest

/-- A call of `nextToken` passes over `gap`, takes `text`, and hands out what `text` is found to be. -/
structure Finds (l : Lexer) (gap text : List Char) (finding : Finding) : Prop where
  /-- Behind a byte order mark, the gap was ahead, then the text, and then what is ahead now. -/
  ahead : l.skipMark.rest = gap ++ text ++ l.nextToken.2.rest
  /-- The token starts behind the gap. -/
  start : l.nextToken.2.start = l.skipMark.cursor.position.after gap
  /-- The cursor is behind the text. -/
  position : l.nextToken.2.cursor.position = l.nextToken.2.start.after text
  /-- The token or fault is that of the text. -/
  item : l.nextToken.1 = finding.item text l.nextToken.2.span

section
variable {l : Lexer} {gap rest text : List Char} {finding : Finding}

/-- What a call takes and what it leaves are the text where its token started. -/
theorem Finds.rest_eq (h : l.Finds gap text finding) (hs : l.StartsAt gap rest) :
    rest = text ++ l.nextToken.2.rest := by
  have ha := hs.ahead.symm.trans h.ahead
  rw [List.append_assoc] at ha
  exact List.append_cancel_left ha

/-- Where a token starts with no blank and no comment, the call hands out what is read there. -/
theorem StartsAt.finds (h : l.StartsAt gap rest) (hrest : cutTrivia rest = .empty rest) :
    l.Finds gap (reading rest).taken (reading rest).finding := by
  have hcut := h.gap.cutTrivia_eq hrest
  rw [← h.ahead] at hcut
  have hnext := nextToken_eq l.markAllowed_skipMark
  rw [nextToken_skipMark] at hnext
  have hplaced : l.skipMark.firstPlaced =
      ⟨l.skipMark.cursor.position.after gap, ⟨gap, (reading rest).taken, (reading rest).finding⟩⟩ := by
    rw [firstPlaced, firstPiece, hcut]
  have hstart : l.nextToken.2.start = l.skipMark.firstPlaced.start := by
    rw [hnext]
    exact position_skipTrivia l.skipMark
  have hposition : l.nextToken.2.cursor.position =
      l.skipMark.firstPlaced.start.after l.skipMark.firstPlaced.piece.text := by
    rw [hnext, position_behind, firstPlaced, Piece.whole, Position.after_append]
  refine ⟨?_, ?_, ?_, ?_⟩
  · rw [hnext, rest_behind, afterPiece, hcut, h.ahead, List.append_assoc]
    exact congrArg _ (whole_reading rest).symm
  · rw [hstart, hplaced]
  · rw [hposition, hstart, hplaced]
  · rw [hnext, span_behind, Placed.item, hplaced]

/-- The same, for a text whose reading is known. -/
theorem StartsAt.finds_of_reading (h : l.StartsAt gap rest) (back : List Char)
    (hrest : cutTrivia rest = .empty rest) (hread : reading rest = ⟨⟨text, back⟩, finding⟩) :
    l.Finds gap text finding := by
  have hfinds := h.finds hrest
  rwa [hread] at hfinds

/-- Each call starts a token behind all that it passes over. -/
theorem exists_startsAt (l : Lexer) :
    ∃ gap rest, l.StartsAt gap rest ∧ cutTrivia rest = .empty rest :=
  ⟨_, _, ⟨(whole_cutTrivia l.skipMark.rest).symm, gap_cutTrivia _⟩, cutTrivia_rest _⟩

/-- A token that is handed out is what is read where it starts. -/
theorem exists_reading_of_token {t : Token} (h : l.nextToken.1 = .ok t) :
    ∃ gap, l.StartsAt gap (t.text.toList ++ l.nextToken.2.rest) ∧
      reading (t.text.toList ++ l.nextToken.2.rest) =
        ⟨⟨t.text.toList, l.nextToken.2.rest⟩, .token t.kind t.literal⟩ := by
  obtain ⟨gap, rest, hstart, hrest⟩ := l.exists_startsAt
  have hfinds := hstart.finds hrest
  have hsplit := hfinds.rest_eq hstart
  obtain ⟨hfinding, htext⟩ := Finding.eq_of_item_ok (hfinds.item.symm.trans h)
  have hwhole : (reading rest).taken ++ (reading rest).rest = rest := whole_reading rest
  have hback := List.append_cancel_left (hwhole.trans hsplit)
  rw [htext, String.toList_ofList, ← hsplit, ← hback, ← hfinding]
  exact ⟨gap, hstart, rfl⟩

/-- A fault that is handed out is what is read where a token should start. -/
theorem exists_reading_of_fault {fault : Fault} (h : l.nextToken.1 = .error fault) :
    ∃ gap rest, l.StartsAt gap rest ∧ cutTrivia rest = .empty rest ∧
      (reading rest).finding = .fault fault.cause := by
  obtain ⟨gap, rest, hstart, hrest⟩ := l.exists_startsAt
  have hitem := (hstart.finds hrest).item
  exact ⟨gap, rest, hstart, hrest, Finding.eq_of_item_error (hitem.symm.trans h)⟩

end

end Lexer

/-! ## The text of a token on its own -/

/-- The tokens that a lexer or one of the two scans hands out. -/
inductive Token.Scanned : Token → Prop
  | recovering {source : String} {t : Token} : t ∈ (scanRecovering source).1 → Scanned t
  | strict {source : String} {tokens : List Token} {t : Token} :
      scan source = .ok tokens → t ∈ tokens → Scanned t
  | call {l : Lexer} {t : Token} : l.nextToken.1 = .ok t → Scanned t

section
variable {source : String} {cs : List Char} {t : Token}

/-- A text that was read as a token is, on its own, read as this token. -/
theorem reading_text_of_reading (htext : (reading cs).taken = t.text.toList)
    (hfinding : (reading cs).finding = .token t.kind t.literal) :
    reading t.text.toList = ⟨⟨t.text.toList, []⟩, .token t.kind t.literal⟩ := by
  cases cs with
  | nil =>
    rw [← htext, ← hfinding]
    rfl
  | cons c cs => rw [← htext, ← hfinding, reading_taken (List.cons_ne_nil c cs)]

/-- Scanning without recovery gives tokens that scanning with recovery gives too. -/
theorem mem_scanRecovering_of_scan {tokens : List Token} (h : scan source = .ok tokens)
    (ht : t ∈ tokens) : t ∈ (scanRecovering source).1 := by
  rcases tokens_or_first_fault (layout source.toList) with
    ⟨all, hall⟩ | ⟨front, x, back, before, fault, hl, hbefore, hx⟩
  · obtain ⟨-, hscan, hrecovering⟩ := scan_of_tokens hall
    cases hscan.symm.trans h
    rwa [hrecovering]
  · obtain ⟨-, hscan, -⟩ := scan_of_fault hl hbefore hx
    cases hscan.symm.trans h

/-- The text of a token of a scan is, on its own, read as this token. -/
theorem reading_text_of_mem_scanRecovering (h : t ∈ (scanRecovering source).1) :
    reading t.text.toList = ⟨⟨t.text.toList, []⟩, .token t.kind t.literal⟩ := by
  obtain ⟨y, hy, kind, value, hf, rfl⟩ := exists_placed_of_token h
  obtain ⟨front, back, -, -, hread⟩ := reading_of_mem_layout hy
  refine @reading_text_of_reading (y.piece.text ++ back) _ ?_ ?_
  · rw [hread, String.toList_ofList]
  · rw [hread, hf]

/-- The text of a token that a call hands out is, on its own, read as this token. -/
theorem reading_text_of_nextToken {l : Lexer} (h : l.nextToken.1 = .ok t) :
    reading t.text.toList = ⟨⟨t.text.toList, []⟩, .token t.kind t.literal⟩ := by
  obtain ⟨gap, -, hread⟩ := Lexer.exists_reading_of_token h
  exact reading_text_of_reading (congrArg (·.toCut.taken) hread) (congrArg Reading.finding hread)

/-- The text of a token that is handed out is, on its own, read as this token. -/
theorem Token.Scanned.reading_text (h : t.Scanned) :
    reading t.text.toList = ⟨⟨t.text.toList, []⟩, .token t.kind t.literal⟩ := by
  cases h with
  | recovering h => exact reading_text_of_mem_scanRecovering h
  | strict h ht => exact reading_text_of_mem_scanRecovering (mem_scanRecovering_of_scan h ht)
  | call h => exact reading_text_of_nextToken h

/-! ## The faults of a scan -/

/-- The diagnostics of a scan are those of faults that are read in the source text. -/
theorem exists_reading_of_diagnostic {d : Diagnostic} (h : d ∈ (scanRecovering source).2) :
    ∃ (fault : Fault) (cs : List Char), d = fault.diagnostic d.span ∧
      (reading cs).finding = .fault fault.cause := by
  obtain ⟨y, hy, cause, hf, rfl⟩ := exists_placed_of_diagnostic h
  obtain ⟨front, back, -, -, hread⟩ := reading_of_mem_layout hy
  exact ⟨_, _, rfl, (congrArg Reading.finding hread).trans hf⟩

/-- The fault of a scan is what is read somewhere. -/
theorem exists_reading_of_scan_fault {fault : Fault} (h : scan source = .error fault) :
    ∃ cs, (reading cs).finding = .fault fault.cause := by
  rcases tokens_or_first_fault (layout source.toList) with
    ⟨tokens, htokens⟩ | ⟨front, x, back, tokens, first, hl, ht, hx⟩
  · cases (scan_of_tokens htokens).2.1.symm.trans h
  · cases (scan_of_fault hl ht hx).2.1.symm.trans h
    have hmem : x ∈ layout source.toList := hl ▸ List.mem_append_right _ (List.mem_cons_self ..)
    obtain ⟨-, back, -, -, hread⟩ := reading_of_mem_layout hmem
    exact ⟨_, (congrArg Reading.finding hread).trans (Finding.eq_of_item_error hx)⟩

end

end BrightLexer
