import BrightLexer.Proofs.Scan.Run
import BrightLexer.Proofs.Source.Place

/-!
# Lines are scanned independently

A newline ends what stands before it as the end of the text does: `pieces_append_newline` cuts a text
at a newline, and what stands before and behind it falls into the same pieces as on its own. Where the
pieces behind the newline stand is the only difference, and that is a shift (`place_shift`), which the
tokens and the diagnostics go along with. So `scan_append_newline` takes the scan of a text at a
newline apart into the scans of its two parts.
-/

namespace BrightLexer

/-! ## Shifts -/

/-- The same place in a text with `bytes` more bytes and `lines` more lines before it. -/
def Position.shift (bytes lines : Nat) (p : Position) : Position :=
  ⟨p.offset + bytes, p.line + lines, p.column⟩

/-- The same span in a text with `bytes` more bytes and `lines` more lines before it. -/
def Span.shift (bytes lines : Nat) (s : Span) : Span :=
  ⟨s.start + bytes, s.stop + bytes, s.line + lines, s.column⟩

/-- A token with its line and its span shifted. -/
def Token.shift (bytes lines : Nat) (t : Token) : Token :=
  { t with line := t.line + lines, span := t.span.shift bytes lines }

/-- A diagnostic with its span shifted. -/
def Diagnostic.shift (bytes lines : Nat) (d : Diagnostic) : Diagnostic :=
  { d with span := d.span.shift bytes lines }

/-- A piece with its place shifted. -/
def Placed.shift (bytes lines : Nat) (x : Placed) : Placed :=
  { x with start := x.start.shift bytes lines }

section
variable (bytes lines : Nat)

/-- Going over a character commutes with a shift. -/
theorem Position.next_shift (p : Position) (c : Char) :
    (p.shift bytes lines).next c = (p.next c).shift bytes lines := by
  unfold next shift
  split
  · simp only [Nat.add_right_comm]
  · simp only [Nat.add_right_comm]

/-- Going over a text commutes with a shift. -/
theorem Position.after_shift (p : Position) (cs : List Char) :
    (p.shift bytes lines).after cs = (p.after cs).shift bytes lines := by
  induction cs generalizing p with
  | nil => rfl
  | cons c cs ih => rw [after_cons, after_cons, next_shift, ih]

/-- Pieces that are shifted stand where they stood, shifted. -/
theorem place_shift (p : Position) (xs : List Piece) :
    place (p.shift bytes lines) xs = (place p xs).map (Placed.shift bytes lines) := by
  induction xs generalizing p with
  | nil => rfl
  | cons x xs ih =>
    rw [place, place, Position.after_shift, Position.after_shift, ih, List.map_cons]
    rfl

namespace Placed

/-- The span of a shifted piece is its span shifted. -/
@[simp] theorem span_shift (x : Placed) :
    (x.shift bytes lines).span = x.span.shift bytes lines := by
  rw [span, shift, Position.after_shift]
  rfl

@[simp] theorem piece_shift (x : Placed) : (x.shift bytes lines).piece = x.piece := rfl

/-- The token of a shifted piece is the token shifted. -/
theorem token?_shift (x : Placed) :
    (x.shift bytes lines).token? = x.token?.map (Token.shift bytes lines) := by
  rw [token?, token?, item, item, span_shift, piece_shift]
  cases x.piece.finding with
  | token kind value => rfl
  | fault cause => rfl

/-- The diagnostic of a shifted piece is the diagnostic shifted. -/
theorem diagnostic?_shift (x : Placed) :
    (x.shift bytes lines).diagnostic? = x.diagnostic?.map (Diagnostic.shift bytes lines) := by
  rw [diagnostic?, diagnostic?, item, item, span_shift, piece_shift]
  cases x.piece.finding with
  | token kind value => rfl
  | fault cause => rfl

end Placed

/-- The tokens of shifted pieces are the tokens shifted. -/
theorem filterMap_token?_shift (xs : List Placed) :
    (xs.map (Placed.shift bytes lines)).filterMap Placed.token? =
      (xs.filterMap Placed.token?).map (Token.shift bytes lines) := by
  have h : Placed.token? ∘ Placed.shift bytes lines =
      fun x => x.token?.map (Token.shift bytes lines) :=
    funext fun x => x.token?_shift bytes lines
  rw [List.filterMap_map, List.map_filterMap, h]

/-- The diagnostics of shifted pieces are the diagnostics shifted. -/
theorem filterMap_diagnostic?_shift (xs : List Placed) :
    (xs.map (Placed.shift bytes lines)).filterMap Placed.diagnostic? =
      (xs.filterMap Placed.diagnostic?).map (Diagnostic.shift bytes lines) := by
  have h : Placed.diagnostic? ∘ Placed.shift bytes lines =
      fun x => x.diagnostic?.map (Diagnostic.shift bytes lines) :=
    funext fun x => x.diagnostic?_shift bytes lines
  rw [List.filterMap_map, List.map_filterMap, h]

end

/-- Behind a newline the columns start again. -/
theorem Position.after_newline (cs : List Char) :
    origin.after (cs ++ ['\n']) = origin.shift (byteLength cs + 1) (cs.count '\n' + 1) := by
  rw [after_append, after_cons, after_nil, next, if_pos rfl, offset_after, line_after, shift]
  simp only [origin, Position.mk.injEq, and_true]
  exact ⟨Nat.add_assoc .., Nat.add_assoc ..⟩

/-! ## A text cut at a newline -/

/-- A newline is a piece of its own. The pieces before it are those of the text before it, whose
last gap is the gap of the newline, and the pieces behind it are those of the text behind it. -/
theorem pieces_append_newline (a : List Char) :
    ∃ front gap, pieces a = front ++ [⟨gap, [], .token .eof none⟩] ∧
      ∀ b, pieces (a ++ '\n' :: b) = front ++ ⟨gap, ['\n'], .token .newline none⟩ :: pieces b := by
  fun_induction pieces a with
  | case1 a h =>
    refine ⟨[], a, ?_, fun b => ?_⟩
    · rw [firstPiece_of_rest_eq_nil h, List.nil_append]
    have htaken : (cutTrivia a).taken = a := congrArg Piece.gap (firstPiece_of_rest_eq_nil h)
    have hcut : cutTrivia (a ++ '\n' :: b) = ⟨a, '\n' :: b⟩ := by
      rw [cutTrivia_append_newline, Cut.followedBy, h, htaken, List.nil_append]
    rw [pieces_of_rest_ne_nil (by rw [hcut]; exact List.cons_ne_nil _ _), firstPiece, afterPiece,
      hcut]
    rfl
  | case2 a h ih =>
    obtain ⟨front, gap, hp, hn⟩ := ih
    refine ⟨firstPiece a :: front, gap, by rw [hp, List.cons_append], fun b => ?_⟩
    have hcut := cutTrivia_append_newline a b
    have hread : reading ((cutTrivia a).rest ++ '\n' :: b) = _ :=
      reading_append_separator isSeparator_newline h (.inl rfl)
    have hfirst : firstPiece (a ++ '\n' :: b) = firstPiece a := by
      simp only [firstPiece, hcut, Cut.followedBy, hread, Reading.followedBy]
    have hafter : afterPiece (a ++ '\n' :: b) = afterPiece a ++ '\n' :: b := by
      simp only [afterPiece, hcut, Cut.followedBy, hread, Reading.followedBy]
    rw [pieces_of_rest_ne_nil (by simp [hcut, Cut.followedBy]), hfirst, hafter, hn,
      List.cons_append]

/-- The pieces of a text with a newline behind it, by those of the text. -/
theorem pieces_append_newline_of_eq {a gap : List Char} {front : List Piece}
    (h : pieces a = front ++ [⟨gap, [], .token .eof none⟩]) (b : List Char) :
    pieces (a ++ '\n' :: b) = front ++ ⟨gap, ['\n'], .token .newline none⟩ :: pieces b := by
  obtain ⟨front', gap', hp, hn⟩ := pieces_append_newline a
  obtain ⟨rfl, he⟩ := List.append_inj' (h.symm.trans hp) rfl
  cases he
  exact hn b

/-- A newline and what stands behind it leave the byte order mark of a text as it is. -/
theorem cutMark_append_newline (a b : List Char) :
    cutMark (a ++ '\n' :: b) = (cutMark a).followedBy ('\n' :: b) := by
  cases a with
  | nil => rfl
  | cons c a =>
    by_cases hc : c = byteOrderMark
    · simp [cutMark, hc, Cut.followedBy]
    · simp [cutMark, hc, Cut.followedBy, Cut.empty]

/-- The layout of a text with a newline in it: behind the newline stands, shifted, what the text
there has as its own layout, unless that would start with a byte order mark. -/
theorem layout_append_newline (a : List Char) :
    ∃ front eof, layout a = front ++ [eof] ∧ eof.piece.text = [] ∧
      eof.piece.finding = .token .eof none ∧ eof.start.offset = byteLength a ∧
      ∀ b, b.head? ≠ some byteOrderMark → layout (a ++ '\n' :: b) =
        front ++ ⟨eof.start, ⟨eof.piece.gap, ['\n'], .token .newline none⟩⟩ ::
          (layout b).map (Placed.shift (byteLength a + 1) (a.count '\n' + 1)) := by
  obtain ⟨front, gap, hp, hn⟩ := pieces_append_newline (cutMark a).rest
  have hsource := source_eq hp
  simp only [List.append_nil, textOf_nil] at hsource
  refine ⟨_, _, layout_eq hp, rfl, rfl, ?_, fun b hb => ?_⟩
  · rw [← hsource]
    simp [Position.origin]
  have hcut := cutMark_append_newline a b
  have hcutb : cutMark b = .empty b := if_neg hb
  have hpieces : pieces (cutMark (a ++ '\n' :: b)).rest =
      front ++ ⟨gap, ['\n'], .token .newline none⟩ :: pieces b := by
    rw [hcut]
    exact hn b
  have hfront : frontOf (a ++ '\n' :: b) front = frontOf a front := by
    rw [frontOf, frontOf, hcut]
    rfl
  rw [layout_eq hpieces, hfront, Piece.whole, ← List.append_assoc, ← hsource,
    Position.after_newline, place_shift, hcut]
  rw [layout, hcutb]
  rfl

/-- Scanning with recovery takes a text apart at a newline. The tokens are those of the text before
it without their end token, a newline token where that end token stood, and those of the text behind
it, shifted; and the diagnostics are those of both texts, the latter shifted too. The text behind the
newline must not start with a byte order mark, which would be passed over there only on its own. -/
theorem scan_append_newline (a b : String) (hb : b.toList.head? ≠ some byteOrderMark) :
    ∃ front eof, (scanRecovering a).1 = front ++ [eof] ∧ eof.kind = .eof ∧
      (scanRecovering (a ++ "\n" ++ b)).1 =
        front ++ ⟨.newline, "\n", none, eof.line,
          ⟨byteLength a.toList, byteLength a.toList + 1, eof.line, eof.column⟩⟩ ::
            (scanRecovering b).1.map
              (Token.shift (byteLength a.toList + 1) (a.toList.count '\n' + 1)) ∧
      (scanRecovering (a ++ "\n" ++ b)).2 =
        (scanRecovering a).2 ++ (scanRecovering b).2.map
          (Diagnostic.shift (byteLength a.toList + 1) (a.toList.count '\n' + 1)) := by
  obtain ⟨front, eof, ha, htext, hf, hoffset, hn⟩ := layout_append_newline a.toList
  have htoken : eof.token? = some ⟨.eof, "", none, eof.span.line, eof.span⟩ := by
    rw [Placed.token?_of_finding hf, htext]
  have hdiagnostic : eof.diagnostic? = none := Placed.diagnostic?_of_finding hf
  have hlist : (a ++ "\n" ++ b).toList = a.toList ++ '\n' :: b.toList := by
    simp [String.toList_append]
  have hspan : (Placed.mk eof.start ⟨eof.piece.gap, ['\n'], .token .newline none⟩).span =
      ⟨byteLength a.toList, byteLength a.toList + 1, eof.span.line, eof.span.column⟩ := by
    simp only [Placed.span, Span.between, Position.offset_after, hoffset]
    rfl
  have hnewline : (Placed.mk eof.start ⟨eof.piece.gap, ['\n'], .token .newline none⟩).token? =
      some ⟨.newline, "\n", none, eof.span.line,
        ⟨byteLength a.toList, byteLength a.toList + 1, eof.span.line, eof.span.column⟩⟩ := by
    rw [Placed.token?_of_finding rfl, hspan]
  refine ⟨front.filterMap Placed.token?, ⟨.eof, "", none, eof.span.line, eof.span⟩, ?_, rfl, ?_, ?_⟩
  · rw [scanRecovering_eq, ha, List.filterMap_append, List.filterMap_cons_some htoken,
      List.filterMap_nil]
  · rw [scanRecovering_eq, scanRecovering_eq, hlist, hn _ hb]
    dsimp only
    rw [List.filterMap_append, List.filterMap_cons_some hnewline, filterMap_token?_shift]
    rfl
  · rw [scanRecovering_eq, scanRecovering_eq, scanRecovering_eq, hlist, hn _ hb, ha]
    dsimp only
    rw [List.filterMap_append, List.filterMap_append, List.filterMap_cons_none hdiagnostic,
      List.filterMap_nil, List.append_nil, List.filterMap_cons_none rfl,
      filterMap_diagnostic?_shift]

/-- A quote that is not closed changes nothing on the next line. -/
theorem scan_append_newline_unclosed :
    "y".toList.head? ≠ some byteOrderMark ∧
      (∃ front, (scanRecovering ("\"x" ++ "\n" ++ "y")).1 =
        front ++ (scanRecovering "y").1.map (Token.shift 3 1)) ∧
      (scanRecovering ("\"x" ++ "\n" ++ "y")).2 = (scanRecovering "\"x").2 := by
  have hb : "y".toList.head? ≠ some byteOrderMark := by decide
  have hy : (scanRecovering "y").2 = [] := by rw [scanRecovering_eq]; decide +kernel
  obtain ⟨front, eof, -, -, htokens, hdiagnostics⟩ := scan_append_newline "\"x" "y" hb
  refine ⟨hb, ⟨front ++ [⟨.newline, "\n", none, eof.line, ⟨2, 3, eof.line, eof.column⟩⟩], ?_⟩, ?_⟩
  · rw [htokens, List.append_assoc, List.singleton_append]
    rfl
  · rw [hdiagnostics, hy, List.map_nil, List.append_nil]

end BrightLexer
