import BrightLexer.Lexer.Scan
import BrightLexer.Proofs.Scan.Piece

/-!
# The lexer goes through the layout

A call of `Lexer.nextToken` hands out the first piece of what is ahead (`Lexer.nextToken_eq`), so each
way to run the lexer is a way to go through the layout of the source text. Scanning with recovery
collects the tokens and the diagnostics of all pieces (`scanRecovering_eq`), and as an iterator the
lexer hands out the pieces up to the first fault or the end token (`iterate_eq`).
-/

namespace BrightLexer

namespace Lexer

variable {l : Lexer}

/-! ## One call -/

/-- The first piece ahead, where it stands. -/
def firstPlaced (l : Lexer) : Placed :=
  ⟨l.cursor.position.after (firstPiece l.rest).gap, firstPiece l.rest⟩

/-- The lexer behind the first piece ahead. -/
def behind (l : Lexer) : Lexer := l.skipTrivia.pass

/-- A lexer that has passed over blanks and comments has the rest of its text ahead. -/
theorem rest_skipTrivia_eq (l : Lexer) : l.skipTrivia.rest = (cutTrivia l.rest).rest := by
  rw [rest_skipTrivia, Cut.drop_length_taken (whole_cutTrivia _)]

/-- A lexer that has passed over blanks and comments stands where its first piece starts. -/
theorem position_skipTrivia (l : Lexer) :
    l.skipTrivia.cursor.position = l.firstPlaced.start := by
  show (l.cursor.forward _).position = _
  rw [Cursor.position_forward, ← rest, Cut.take_length_taken (whole_cutTrivia _)]
  rfl

/-- The lexer behind its first piece has what stands behind the piece ahead. -/
@[simp] theorem rest_behind (l : Lexer) : l.behind.rest = afterPiece l.rest := by
  rw [behind, pass, rest_take, Cut.drop_length_taken (whole_reading _), rest_skipTrivia_eq]
  rfl

/-- The lexer behind its first piece stands behind the whole of the piece, gap included. -/
@[simp] theorem position_behind (l : Lexer) :
    l.behind.cursor.position = l.cursor.position.after (firstPiece l.rest).whole := by
  show (l.skipTrivia.cursor.forward _).position = _
  rw [Cursor.position_forward, ← rest, Cut.take_length_taken (whole_reading _),
    position_skipTrivia, rest_skipTrivia_eq, Piece.whole, Position.after_append]
  rfl

@[simp] theorem finished_behind (l : Lexer) : l.behind.finished = l.finished := rfl

/-- The lexer behind its first piece has the span of the piece as its last one. -/
@[simp] theorem span_behind (l : Lexer) : l.behind.span = l.firstPlaced.span := by
  show Span.between l.skipTrivia.cursor.position l.behind.cursor.position = _
  rw [position_skipTrivia, position_behind, Piece.whole, Position.after_append]
  rfl

/-- A lexer that has passed the place of a byte order mark hands out the first piece ahead and moves
behind it. -/
theorem nextToken_eq (h : l.markAllowed = false) : l.nextToken = (l.firstPlaced.item, l.behind) := by
  have hm : l.skipMark = l := by rw [skipMark, h]; rfl
  rw [nextToken, hm, readToken_eq rfl, ← behind, span_behind, rest_skipTrivia_eq]
  rfl

/-- The pieces ahead are the first one and those behind it. -/
theorem place_firstPiece (l : Lexer) (xs : List Piece) :
    place l.cursor.position (firstPiece l.rest :: xs) =
      l.firstPlaced :: place l.behind.cursor.position xs := by
  rw [position_behind]
  rfl

/-- At the end of the text the first piece is the end token. -/
theorem item_of_rest_eq_nil (h : (cutTrivia l.rest).rest = []) :
    ∃ token, l.firstPlaced.item = .ok token ∧ token.kind = .eof := by
  have hf := congrArg Piece.finding (firstPiece_of_rest_eq_nil h)
  rw [Placed.item, firstPlaced, hf]
  exact ⟨_, rfl, rfl⟩

/-- Before the end of the text the first piece is no end token. -/
theorem kind_ne_eof {token : Token} (h : (cutTrivia l.rest).rest ≠ [])
    (ht : l.firstPlaced.item = .ok token) : token.kind ≠ .eof := by
  have hf := finding_firstPiece_ne_eof h
  rw [Placed.item, firstPlaced] at ht
  cases hfind : (firstPiece l.rest).finding with
  | token kind value =>
    rw [hfind] at ht
    cases ht
    rintro rfl
    exact hf value hfind
  | fault cause => rw [hfind] at ht; cases ht

/-- A lexer looks for a byte order mark only once. -/
theorem markAllowed_skipMark (l : Lexer) : l.skipMark.markAllowed = false := by
  unfold skipMark
  split
  · rfl
  · next h => exact Bool.eq_false_iff.2 h

/-- A byte order mark is passed over by moving the cursor. -/
theorem cursor_skipMark (l : Lexer) : ∃ n, l.skipMark.cursor = l.cursor.forward n := by
  unfold skipMark
  split
  · dsimp only
    split
    · exact ⟨1, rfl⟩
    · exact ⟨0, rfl⟩
  · exact ⟨0, rfl⟩

/-- Passing over a byte order mark first makes no difference. -/
theorem nextToken_skipMark (l : Lexer) : l.skipMark.nextToken = l.nextToken := by
  have hm : l.skipMark.skipMark = l.skipMark := by
    unfold skipMark
    split
    · rfl
    · rfl
  rw [nextToken, hm, nextToken]

/-! ## Scanning with recovery -/

/-- A fault is logged, and the lexer goes on behind it. -/
theorem drain_of_fault {m : Lexer} {fault : Fault} (h : l.nextToken = (.error fault, m))
    (log : Log) : l.drain log = m.drain (log.emit (fault.diagnostic m.span)) := by
  rw [drain]
  split
  · next h' => rw [h] at h'; cases h'; rfl
  · next h' => rw [h] at h'; cases h'

/-- A token is kept, and the lexer goes on behind it unless it is the end token. -/
theorem drain_of_token {m : Lexer} {token : Token} (h : l.nextToken = (.ok token, m))
    (log : Log) :
    l.drain log = if token.kind = .eof then ([token], log)
      else (token :: (m.drain log).1, (m.drain log).2) := by
  rw [drain]
  split
  · next h' => rw [h] at h'; cases h'
  · next h' => rw [h] at h'; cases h'; rfl

/-- Passing over a byte order mark first changes nothing in a recovering scan. -/
theorem drain_skipMark (l : Lexer) (log : Log) : l.skipMark.drain log = l.drain log := by
  rcases h : l.nextToken with ⟨fault | token, m⟩
  · rw [drain_of_fault h, drain_of_fault ((nextToken_skipMark l).trans h)]
  · rw [drain_of_token h, drain_of_token ((nextToken_skipMark l).trans h)]

/-- Scanning on with recovery collects what the pieces ahead are. -/
theorem drain_eq (h : l.markAllowed = false) (log : Log) :
    (l.drain log).1 = (place l.cursor.position (pieces l.rest)).filterMap Placed.token? ∧
      (l.drain log).2.toList =
        log.toList ++ (place l.cursor.position (pieces l.rest)).filterMap Placed.diagnostic? := by
  generalize hcs : l.rest = cs
  fun_induction pieces cs generalizing l log with
  | case1 cs hr =>
    subst hcs
    have hnext := nextToken_eq h
    obtain ⟨token, ht, hk⟩ := item_of_rest_eq_nil hr
    rw [ht] at hnext
    rw [drain_of_token hnext, if_pos hk, place_firstPiece, place]
    simp [Placed.token?, Placed.diagnostic?, ht, Except.toOption]
  | case2 cs hr ih =>
    subst hcs
    have hnext := nextToken_eq h
    have hih := fun log => ih (l := l.behind) h log (rest_behind l)
    rw [place_firstPiece]
    rcases ht : l.firstPlaced.item with fault | token
    · rw [ht] at hnext
      obtain ⟨h1, h2⟩ := hih (log.emit (fault.diagnostic l.behind.span))
      rw [drain_of_fault hnext]
      refine ⟨?_, ?_⟩
      · rw [h1, List.filterMap_cons, Placed.token?, ht]
        rfl
      · rw [h2, List.filterMap_cons, Placed.diagnostic?, ht, span_behind]
        simp
    · rw [ht] at hnext
      obtain ⟨h1, h2⟩ := hih log
      rw [drain_of_token hnext, if_neg (kind_ne_eof hr ht)]
      refine ⟨?_, ?_⟩
      · rw [h1, List.filterMap_cons, Placed.token?, ht]
        rfl
      · rw [h2, List.filterMap_cons, Placed.diagnostic?, ht]

/-! ## Handing out items -/

/-- A lexer that is done has no items left. -/
theorem items_of_next?_none {m : Lexer} (h : l.next? = (none, m)) : l.items = [] := by
  rw [items]
  split
  · rfl
  · next hn => rw [h] at hn; cases hn

/-- A lexer that is done hands out nothing more. -/
theorem items_of_finished (h : l.finished = true) : l.items = [] := by
  refine items_of_next?_none (m := l) ?_
  rw [next?, h]
  rfl

/-- The items of a lexer are the one handed out and those of the lexer behind it. -/
theorem items_of_next? {m : Lexer} {item : Except Fault Token} (h : l.next? = (some item, m)) :
    l.items = item :: m.items := by
  rw [items]
  split
  · next hn => rw [h] at hn; cases hn
  · next hn => rw [h] at hn; cases hn; rfl

/-- An iterator hands out a fault and is done. -/
theorem next?_of_fault {m : Lexer} {fault : Fault} (hf : l.finished = false)
    (h : l.nextToken = (.error fault, m)) :
    l.next? = (some (.error fault), { m with finished := true }) := by
  rw [next?, hf, h]
  rfl

/-- An iterator hands out a token, and is done if it is the end token. -/
theorem next?_of_token {m : Lexer} {token : Token} (hf : l.finished = false)
    (h : l.nextToken = (.ok token, m)) :
    l.next? = (some (.ok token), { m with finished := token.kind == .eof }) := by
  rw [next?, hf, h]
  rfl

/-- Passing over a byte order mark first changes nothing in what an iterator hands out next. -/
theorem next?_skipMark (hf : l.finished = false) : l.skipMark.next? = l.next? := by
  have hf' : l.skipMark.finished = false := by
    unfold skipMark
    split <;> exact hf
  rcases h : l.nextToken with ⟨fault | token, m⟩
  · rw [next?_of_fault hf h, next?_of_fault hf' ((nextToken_skipMark l).trans h)]
  · rw [next?_of_token hf h, next?_of_token hf' ((nextToken_skipMark l).trans h)]

end Lexer

/-- What is handed out of some items: those up to the first fault. -/
def upToFault : List (Except Fault Token) → List (Except Fault Token)
  | [] => []
  | .ok token :: items => .ok token :: upToFault items
  | .error fault :: _ => [.error fault]

namespace Lexer

variable {l : Lexer}

/-- The lexer as an iterator hands out the pieces ahead up to the first fault or the end token. -/
theorem items_eq (h : l.markAllowed = false) (hf : l.finished = false) :
    l.items = upToFault ((place l.cursor.position (pieces l.rest)).map Placed.item) := by
  generalize hcs : l.rest = cs
  fun_induction pieces cs generalizing l with
  | case1 cs hr =>
    subst hcs
    have hnext := nextToken_eq h
    obtain ⟨token, ht, hk⟩ := item_of_rest_eq_nil hr
    rw [ht] at hnext
    rw [items_of_next? (next?_of_token hf hnext), hk, items_of_finished rfl, place_firstPiece,
      place, List.map_cons, ht]
    rfl
  | case2 cs hr ih =>
    subst hcs
    have hnext := nextToken_eq h
    have hih := ih (l := l.behind) h hf (rest_behind l)
    rw [place_firstPiece, List.map_cons]
    rcases ht : l.firstPlaced.item with fault | token
    · rw [ht] at hnext
      rw [items_of_next? (next?_of_fault hf hnext), items_of_finished rfl]
      rfl
    · rw [ht] at hnext
      have hk : (token.kind == .eof) = false := beq_false_of_ne (kind_ne_eof hr ht)
      have hm : { l.behind with finished := false } = l.behind := by
        rw [← hf, ← finished_behind l]
      rw [items_of_next? (next?_of_token hf hnext), hk, hm, hih]
      rfl

/-! ## Over a whole source text -/

/-- The byte order mark of a source text is passed over before the first piece. -/
theorem skipMark_ofSource (source : String) :
    (ofSource source).skipMark.rest = (cutMark source.toList).rest ∧
      (ofSource source).skipMark.cursor.position =
        Position.origin.after (cutMark source.toList).taken := by
  have hc : (Cursor.ofSource source.toList).current? = source.toList.head? :=
    List.head?_eq_getElem?.symm
  unfold skipMark cutMark ofSource rest
  rw [hc]
  cases source.toList with
  | nil => exact ⟨rfl, rfl⟩
  | cons c cs =>
    by_cases hb : (c :: cs).head? = some byteOrderMark
    · simp only [if_pos hb, if_true]
      exact ⟨rfl, rfl⟩
    · simp only [if_neg hb, if_true]
      exact ⟨rfl, rfl⟩

/-- Passing over a byte order mark first changes nothing in the items. -/
theorem items_skipMark (h : l.finished = false) : l.skipMark.items = l.items := by
  rcases hn : l.next? with ⟨_ | item, m⟩
  · rw [items_of_next?_none hn, items_of_next?_none ((next?_skipMark h).trans hn)]
  · rw [items_of_next? hn, items_of_next? ((next?_skipMark h).trans hn)]

end Lexer

/-- Scanning with recovery collects the tokens and the diagnostics of all pieces. -/
theorem scanRecovering_eq (source : String) :
    scanRecovering source =
      ((layout source.toList).filterMap Placed.token?,
        (layout source.toList).filterMap Placed.diagnostic?) := by
  obtain ⟨hrest, hpos⟩ := Lexer.skipMark_ofSource source
  obtain ⟨h1, h2⟩ := (Lexer.ofSource source).skipMark.drain_eq rfl .empty
  rw [Lexer.drain_skipMark, hrest, hpos] at h1 h2
  rw [scanRecovering, scanInto]
  exact Prod.ext h1 h2

/-- The tokens of a scan with recovery are those of the pieces that are tokens. -/
theorem exists_placed_of_token {source : String} {t : Token} (h : t ∈ (scanRecovering source).1) :
    ∃ y ∈ layout source.toList, ∃ kind value, y.piece.finding = .token kind value ∧
      t = ⟨kind, String.ofList y.piece.text, value, y.span.line, y.span⟩ := by
  rw [scanRecovering_eq] at h
  obtain ⟨y, hy, hyt⟩ := List.mem_filterMap.1 h
  exact ⟨y, hy, Placed.token?_eq_some_iff.1 hyt⟩

/-- Its diagnostics are those of the pieces that are faults. -/
theorem exists_placed_of_diagnostic {source : String} {d : Diagnostic}
    (h : d ∈ (scanRecovering source).2) :
    ∃ y ∈ layout source.toList, ∃ cause, y.piece.finding = .fault cause ∧
      d = (Fault.mk cause y.span.line y.span.column).diagnostic y.span := by
  rw [scanRecovering_eq] at h
  obtain ⟨y, hy, hyd⟩ := List.mem_filterMap.1 h
  exact ⟨y, hy, Placed.diagnostic?_eq_some_iff.1 hyd⟩

/-- All of them are errors. -/
theorem isError_of_mem_scanRecovering {source : String} {d : Diagnostic}
    (h : d ∈ (scanRecovering source).2) : d.isError = true := by
  obtain ⟨y, -, cause, -, rfl⟩ := exists_placed_of_diagnostic h
  rfl

/-- The lexer hands out the pieces of a source text up to the first fault. -/
theorem iterate_eq (source : String) :
    iterate source = upToFault ((layout source.toList).map Placed.item) := by
  obtain ⟨hrest, hpos⟩ := Lexer.skipMark_ofSource source
  have h := (Lexer.ofSource source).skipMark.items_eq rfl rfl
  rw [Lexer.items_skipMark rfl, hrest, hpos] at h
  exact h

end BrightLexer
