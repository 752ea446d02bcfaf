import BrightLexer.Proofs.Lexer.Reading

/-!
# A source text as a list of pieces

A source text is a byte order mark, if it has one, and then pieces: a gap, and behind it the text of
a token or fault. `pieces` cuts a text in this way, `textOf_pieces` says that nothing is lost, and
`layout` gives each piece the position where its text starts.

Nothing here runs the lexer: a layout is a function of the text, and what a text is cut into can be
found by induction on its pieces.
-/

namespace BrightLexer

/-- A token or fault of a text, with what stands before it. -/
structure Piece where
  /-- What is passed over before it. -/
  gap : List Char
  /-- The text of the token or fault. -/
  text : List Char
  /-- What it is found to be. -/
  finding : Finding
deriving DecidableEq

/-- All characters of a piece. -/
def Piece.whole (x : Piece) : List Char := x.gap ++ x.text

/-- The first piece of a text. -/
def firstPiece (cs : List Char) : Piece :=
  ⟨(cutTrivia cs).taken, (reading (cutTrivia cs).rest).taken, (reading (cutTrivia cs).rest).finding⟩

/-- What stands behind the first piece of a text. -/
def afterPiece (cs : List Char) : List Char := (reading (cutTrivia cs).rest).rest

/-- The first piece and what stands behind it are the text. -/
theorem whole_firstPiece_append (cs : List Char) : (firstPiece cs).whole ++ afterPiece cs = cs := by
  have ht : (cutTrivia cs).taken ++ (cutTrivia cs).rest = cs := whole_cutTrivia cs
  have hr : (reading (cutTrivia cs).rest).taken ++ (reading (cutTrivia cs).rest).rest =
      (cutTrivia cs).rest := whole_reading _
  rw [Piece.whole, firstPiece, afterPiece, List.append_assoc, hr, ht]

/-- What stands behind a piece with a text in it is shorter than what the piece was cut from. -/
theorem length_afterPiece_lt {cs : List Char} (h : (cutTrivia cs).rest ≠ []) :
    (afterPiece cs).length < cs.length := by
  have hw := congrArg List.length (whole_firstPiece_append cs)
  have ht := List.length_pos_iff.2 (taken_reading_ne_nil h)
  rw [List.length_append, Piece.whole, List.length_append] at hw
  simp only [firstPiece] at hw
  omega

/-- The pieces of a text. The last one is the end token. -/
def pieces (cs : List Char) : List Piece :=
  if _h : (cutTrivia cs).rest = [] then [firstPiece cs] else firstPiece cs :: pieces (afterPiece cs)
termination_by cs.length
decreasing_by exact length_afterPiece_lt _h

section
variable {cs : List Char}

/-- If nothing but a gap is left, the first piece is the end token. -/
theorem firstPiece_of_rest_eq_nil (h : (cutTrivia cs).rest = []) :
    firstPiece cs = ⟨cs, [], .token .eof none⟩ := by
  have hw : (cutTrivia cs).taken ++ (cutTrivia cs).rest = cs := whole_cutTrivia cs
  rw [h, List.append_nil] at hw
  rw [firstPiece, h, hw]
  rfl

/-- A text of blanks and comments only is one piece, whose gap is all of it: the end token. -/
theorem pieces_of_rest_eq_nil (h : (cutTrivia cs).rest = []) :
    pieces cs = [⟨cs, [], .token .eof none⟩] := by
  rw [pieces, dif_pos h, firstPiece_of_rest_eq_nil h]

/-- Where something is left to read, the pieces are the first one and those of what stands behind it. -/
theorem pieces_of_rest_ne_nil (h : (cutTrivia cs).rest ≠ []) :
    pieces cs = firstPiece cs :: pieces (afterPiece cs) := by
  rw [pieces, dif_neg h]

/-- Before the end of the text, no piece is the end token. -/
theorem finding_firstPiece_ne_eof (h : (cutTrivia cs).rest ≠ []) (value : Option Literal) :
    (firstPiece cs).finding ≠ .token .eof value :=
  fun he => h (eq_nil_of_finding_eof he)

/-- The text that a list of pieces covers. -/
def textOf (xs : List Piece) : List Char := xs.flatMap Piece.whole

@[simp] theorem textOf_nil : textOf [] = [] := rfl

@[simp] theorem textOf_cons (x : Piece) (xs : List Piece) :
    textOf (x :: xs) = x.whole ++ textOf xs := rfl

/-- The text of pieces behind others stands behind theirs. -/
@[simp] theorem textOf_append (xs ys : List Piece) : textOf (xs ++ ys) = textOf xs ++ textOf ys :=
  List.flatMap_append

/-- The pieces of a text are the whole text. -/
theorem textOf_pieces (cs : List Char) : textOf (pieces cs) = cs := by
  fun_induction pieces cs with
  | case1 cs h =>
    have hw := whole_firstPiece_append cs
    have ha : afterPiece cs = [] := by rw [afterPiece, h]; rfl
    rw [ha, List.append_nil] at hw
    rw [textOf_cons, textOf_nil, List.append_nil, hw]
  | case2 cs h ih => rw [textOf_cons, ih, whole_firstPiece_append]

/-- The last piece of a text is the end token, and it is the only piece without a text. -/
theorem pieces_eq_append_eof (cs : List Char) :
    ∃ front gap, pieces cs = front ++ [⟨gap, [], .token .eof none⟩] ∧
      ∀ x ∈ front, x.text ≠ [] ∧ ∀ value, x.finding ≠ .token .eof value := by
  fun_induction pieces cs with
  | case1 cs h =>
    refine ⟨[], cs, ?_, by simp⟩
    rw [firstPiece_of_rest_eq_nil h, List.nil_append]
  | case2 cs h ih =>
    obtain ⟨front, gap, hp, hf⟩ := ih
    refine ⟨firstPiece cs :: front, gap, by rw [hp, List.cons_append], ?_⟩
    intro x hx
    rcases List.mem_cons.1 hx with rfl | hx
    · exact ⟨taken_reading_ne_nil h, finding_firstPiece_ne_eof h⟩
    · exact hf x hx

/-- What a piece is among the pieces of a text: behind its gap, nothing more is passed over and its
text is what is read there. -/
theorem piece_spec {before after : List Piece} {x : Piece} (h : pieces cs = before ++ x :: after) :
    Gap x.gap (x.text ++ textOf after) ∧
      cutTrivia (x.text ++ textOf after) = .empty (x.text ++ textOf after) ∧
      reading (x.text ++ textOf after) = ⟨⟨x.text, textOf after⟩, x.finding⟩ := by
  fun_induction pieces cs generalizing before with
  | case1 cs hr =>
    obtain ⟨rfl, rfl, rfl⟩ : before = [] ∧ x = firstPiece cs ∧ after = [] := by
      cases before with
      | nil => exact ⟨rfl, (List.cons.inj h).1.symm, (List.cons.inj h).2.symm⟩
      | cons y before => simp at h
    have hg := gap_cutTrivia cs
    rw [hr] at hg
    simp only [firstPiece, hr]
    exact ⟨hg, rfl, rfl⟩
  | case2 cs hr ih =>
    cases before with
    | nil =>
      obtain ⟨rfl, rfl⟩ := List.cons.inj h
      have hw : (firstPiece cs).text ++ afterPiece cs = (cutTrivia cs).rest := whole_reading _
      rw [textOf_pieces, hw]
      exact ⟨gap_cutTrivia cs, cutTrivia_rest cs, rfl⟩
    | cons y before => exact ih (List.cons.inj h).2

/-- Only the end of a text is a piece without a text. -/
theorem text_ne_nil_of_finding {before after : List Piece} {x : Piece}
    (h : pieces cs = before ++ x :: after) (hx : x.finding ≠ .token .eof none) : x.text ≠ [] := by
  obtain ⟨-, -, hread⟩ := piece_spec h
  intro hnil
  rw [hnil, List.nil_append] at hread
  cases hrest : textOf after with
  | nil =>
    rw [hrest] at hread
    exact hx (congrArg Reading.finding hread).symm
  | cons c r =>
    have hne := taken_reading_ne_nil (List.cons_ne_nil c r)
    rw [← hrest, hread] at hne
    exact hne rfl

/-! ## Where pieces stand -/

/-- A span starts and stops before another one starts. -/
def Span.Before (s t : Span) : Prop := s.start < t.start ∧ s.stop ≤ t.start

/-- A piece, and the position where its text starts. -/
structure Placed where
  /-- The position behind the gap. -/
  start : Position
  /-- The piece. -/
  piece : Piece
deriving DecidableEq

namespace Placed

/-- The span of the text of a piece. -/
def span (x : Placed) : Span := .between x.start (x.start.after x.piece.text)

/-- The token or fault that a piece is. -/
def item (x : Placed) : Except Fault Token := x.piece.finding.item x.piece.text x.span

/-- The token that a piece is, if it is one. -/
def token? (x : Placed) : Option Token := x.item.toOption

/-- The diagnostic for a piece that is a fault. -/
def diagnostic? (x : Placed) : Option Diagnostic :=
  match x.item with
  | .ok _ => none
  | .error fault => some (fault.diagnostic x.span)

/-- A piece in its place is a token just when it was read as one, and this token has the text, the line and
the span of the piece. -/
theorem token?_eq_some_iff {x : Placed} {token : Token} :
    x.token? = some token ↔ ∃ kind value, x.piece.finding = .token kind value ∧
      token = ⟨kind, String.ofList x.piece.text, value, x.span.line, x.span⟩ := by
  unfold token? item
  cases x.piece.finding with
  | token kind value =>
    constructor
    · rintro ⟨⟩
      exact ⟨kind, value, rfl, rfl⟩
    · rintro ⟨_, _, ⟨⟩, rfl⟩
      rfl
  | fault cause =>
    constructor
    · rintro ⟨⟩
    · rintro ⟨_, _, ⟨⟩, -⟩

/-- A piece in its place is a diagnostic just when it was read as a fault, and this is the diagnostic of the
fault at its span. -/
theorem diagnostic?_eq_some_iff {x : Placed} {d : Diagnostic} :
    x.diagnostic? = some d ↔ ∃ cause, x.piece.finding = .fault cause ∧
      d = (Fault.mk cause x.span.line x.span.column).diagnostic x.span := by
  unfold diagnostic? item
  cases x.piece.finding with
  | token kind value =>
    constructor
    · rintro ⟨⟩
    · rintro ⟨_, ⟨⟩, -⟩
  | fault cause =>
    constructor
    · rintro ⟨⟩
      exact ⟨cause, rfl, rfl⟩
    · rintro ⟨_, ⟨⟩, rfl⟩
      rfl

/-- The token of a piece that was read as one. -/
theorem token?_of_finding {x : Placed} {kind : Kind} {value : Option Literal}
    (h : x.piece.finding = .token kind value) :
    x.token? = some ⟨kind, String.ofList x.piece.text, value, x.span.line, x.span⟩ :=
  token?_eq_some_iff.2 ⟨kind, value, h, rfl⟩

/-- A piece that was read as a token is no diagnostic. -/
theorem diagnostic?_of_finding {x : Placed} {kind : Kind} {value : Option Literal}
    (h : x.piece.finding = .token kind value) : x.diagnostic? = none := by
  rw [diagnostic?, item, h]
  rfl

/-- A fault stands where its piece starts. -/
theorem span_of_item_error {x : Placed} {fault : Fault} (h : x.item = .error fault) :
    x.span.line = fault.line ∧ x.span.column = fault.column := by
  unfold item at h
  cases hf : x.piece.finding with
  | token kind value => rw [hf] at h; cases h
  | fault cause => rw [hf] at h; cases h; exact ⟨rfl, rfl⟩

/-- A token has the span of its piece. -/
theorem span_of_token? {x : Placed} {token : Token} (h : x.token? = some token) :
    token.span = x.span := by
  obtain ⟨kind, value, -, rfl⟩ := token?_eq_some_iff.1 h
  rfl

/-- A token is on the line of its span. -/
theorem line_of_token? {x : Placed} {token : Token} (h : x.token? = some token) :
    token.line = token.span.line := by
  obtain ⟨kind, value, -, rfl⟩ := token?_eq_some_iff.1 h
  rfl

/-- A diagnostic has the span of its piece. -/
theorem span_of_diagnostic? {x : Placed} {d : Diagnostic} (h : x.diagnostic? = some d) :
    d.span = x.span := by
  obtain ⟨cause, -, rfl⟩ := diagnostic?_eq_some_iff.1 h
  rfl

end Placed

/-- Pieces that follow each other from a position on. -/
def place (p : Position) : List Piece → List Placed
  | [] => []
  | x :: xs => ⟨p.after x.gap, x⟩ :: place (p.after x.whole) xs

/-- Pieces behind others stand where the text of the others ends. -/
theorem place_append (p : Position) (xs ys : List Piece) :
    place p (xs ++ ys) = place p xs ++ place (p.after (textOf xs)) ys := by
  induction xs generalizing p with
  | nil => rfl
  | cons x xs ih =>
    rw [List.cons_append, place, place, ih, textOf_cons, Position.after_append, List.cons_append]

/-- A piece and those behind it, placed behind the text before them. -/
theorem place_append_cons (p : Position) (xs : List Piece) (x : Piece) (ys : List Piece) :
    place p (xs ++ x :: ys) =
      place p xs ++ ⟨p.after (textOf xs ++ x.gap), x⟩ ::
        place (p.after (textOf xs ++ x.whole)) ys := by
  simp only [place_append, place, Position.after_append]

/-- A piece is placed behind all the text before it. -/
theorem mem_place {p : Position} {xs : List Piece} {y : Placed} (h : y ∈ place p xs) :
    ∃ before after, xs = before ++ y.piece :: after ∧
      y.start = p.after (textOf before ++ y.piece.gap) := by
  induction xs generalizing p with
  | nil => cases h
  | cons x xs ih =>
    rcases List.mem_cons.1 h with rfl | h
    · exact ⟨[], xs, rfl, rfl⟩
    · obtain ⟨before, after, rfl, hs⟩ := ih h
      refine ⟨x :: before, after, rfl, ?_⟩
      rw [hs, textOf_cons, List.append_assoc, Position.after_append p]

/-- Pieces stand one behind the other. -/
theorem pairwise_place (p : Position) (xs : List Piece) :
    (place p xs).Pairwise fun x y => x.span.stop ≤ y.span.start := by
  induction xs generalizing p with
  | nil => exact .nil
  | cons x xs ih =>
    refine List.pairwise_cons.2 ⟨?_, ih _⟩
    intro y hy
    obtain ⟨before, after, -, hs⟩ := mem_place hy
    simp only [Placed.span, Span.between, hs, Piece.whole, Position.offset_after,
      byteLength_append]
    omega

/-- Cuts a byte order mark off the front of a text. -/
def cutMark (cs : List Char) : Cut :=
  if cs.head? = some byteOrderMark then ⟨cs.take 1, cs.tail⟩ else .empty cs

/-- Cutting a byte order mark loses no character. -/
@[simp] theorem whole_cutMark (cs : List Char) : (cutMark cs).whole = cs := by
  unfold cutMark
  split
  · cases cs <;> rfl
  · rfl

/-- The pieces of a source text behind its byte order mark, each where it stands. -/
def layout (source : List Char) : List Placed :=
  place (Position.origin.after (cutMark source).taken) (pieces (cutMark source).rest)

/-- A source text has no byte order mark, or one. -/
theorem taken_cutMark (cs : List Char) :
    (cutMark cs).taken = [] ∨ (cutMark cs).taken = [byteOrderMark] := by
  unfold cutMark
  split
  · next h =>
    obtain ⟨rest, rfl⟩ : ∃ rest, cs = byteOrderMark :: rest := List.head?_eq_some_iff.1 h
    exact .inr rfl
  · exact .inl rfl

/-- The part of a source text before a piece of it. -/
def frontOf (source : List Char) (before : List Piece) : List Char :=
  (cutMark source).taken ++ textOf before

/-- A piece of a source text stands in its layout behind all the characters of the mark and of the pieces
before it. -/
theorem layout_eq {source : List Char} {before after : List Piece} {x : Piece}
    (h : pieces (cutMark source).rest = before ++ x :: after) :
    layout source =
      place (Position.origin.after (cutMark source).taken) before ++
        ⟨Position.origin.after (frontOf source before ++ x.gap), x⟩ ::
          place (Position.origin.after (frontOf source before ++ x.whole)) after := by
  simp only [layout, h, place_append_cons, frontOf, List.append_assoc,
    Position.after_append .origin]

/-- A source text is what stands before a piece, the piece, and what stands behind it. -/
theorem source_eq {source : List Char} {before after : List Piece} {x : Piece}
    (h : pieces (cutMark source).rest = before ++ x :: after) :
    source = frontOf source before ++ x.gap ++ x.text ++ textOf after := by
  have hw : (cutMark source).taken ++ (cutMark source).rest = source := whole_cutMark source
  rw [← textOf_pieces (cutMark source).rest, h, textOf_append, textOf_cons, Piece.whole] at hw
  rw [frontOf]
  simpa using hw.symm

/-- The text of a piece starts behind all that stands before it. -/
theorem start_span_mk (front : List Char) (x : Piece) :
    (Placed.mk (Position.origin.after front) x).span.start = byteLength front := by
  simp [Placed.span, Span.between, Position.origin]

/-- The span of a piece stops behind the bytes of what stands before it and of its text. -/
theorem stop_span_mk (front : List Char) (x : Piece) :
    (Placed.mk (Position.origin.after front) x).span.stop =
      byteLength front + byteLength x.text := by
  simp [Placed.span, Span.between, Position.origin]

/-- A piece of a source text has its place in the layout, behind its gap. -/
theorem placed_mem_layout {source : List Char} {before after : List Piece} {x : Piece}
    (h : pieces (cutMark source).rest = before ++ x :: after) :
    ⟨Position.origin.after (frontOf source before ++ x.gap), x⟩ ∈ layout source := by
  rw [layout_eq h]
  exact List.mem_append_right _ (List.mem_cons_self ..)

/-- A piece of a source text stands behind all the text before it. -/
theorem mem_layout {source : List Char} {y : Placed} (h : y ∈ layout source) :
    ∃ before after, pieces (cutMark source).rest = before ++ y.piece :: after ∧
      y.start = Position.origin.after (frontOf source before ++ y.piece.gap) := by
  obtain ⟨before, after, hp, hs⟩ := mem_place h
  refine ⟨before, after, hp, ?_⟩
  rw [hs, frontOf, List.append_assoc, Position.after_append .origin]

/-- The pieces of a source text stand one behind the other. -/
theorem pairwise_layout (source : List Char) :
    (layout source).Pairwise fun x y => x.span.Before y.span := by
  obtain ⟨front, gap, hp, hf⟩ := pieces_eq_append_eof (cutMark source).rest
  have h := pairwise_place (Position.origin.after (cutMark source).taken)
    (pieces (cutMark source).rest)
  rw [layout]
  rw [hp, place_append, List.pairwise_append] at h ⊢
  have key : ∀ x ∈ place (Position.origin.after (cutMark source).taken) front, ∀ y : Placed,
      x.span.stop ≤ y.span.start → x.span.Before y.span := by
    intro x hx y hxy
    obtain ⟨before, after, hfront, -⟩ := mem_place hx
    have hne := (hf x.piece (by rw [hfront]; simp)).1
    have hlen := length_le_byteLength x.piece.text
    have hpos := List.length_pos_iff.2 hne
    refine ⟨?_, hxy⟩
    simp only [Placed.span, Span.between, Position.offset_after] at hxy ⊢
    omega
  refine ⟨h.1.imp_of_mem fun hx _ hxy => key _ hx _ hxy, List.pairwise_singleton _ _, ?_⟩
  exact fun x hx y hy => key x hx y (h.2.2 x hx y hy)

end

end BrightLexer
