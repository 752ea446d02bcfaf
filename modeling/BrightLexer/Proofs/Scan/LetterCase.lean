import BrightLexer.Proofs.Lexer.LetterCase
import BrightLexer.Proofs.Scan.Agreement
import Mathlib.Data.List.Forall2

/-!
# Letter case does not change what a text is scanned into

A text in lower case falls into the same pieces as the text itself, at the same places
(`layout_lowerCase`), and what each of them is found to be is the same in lower case. Two texts that
differ in the case of their letters only are the same in lower case, so they are scanned alike:
`scan_sameButCase` says what of a token and of a diagnostic is the same in both scans, and what may
differ in case.
-/

namespace BrightLexer

/-! ## Pieces and places -/

/-- A piece of the text in lower case. -/
def Piece.lower (x : Piece) : Piece := ⟨lowerCase x.gap, lowerCase x.text, x.finding.lower⟩

/-- A piece of the text in lower case, at the same place. -/
def Placed.lower (x : Placed) : Placed := ⟨x.start, x.piece.lower⟩

/-- A piece in lower case is all of its text in lower case. -/
@[simp] theorem Piece.whole_lower (x : Piece) : x.lower.whole = lowerCase x.whole :=
  (lowerCase_append ..).symm

/-- The first piece of a text in lower case is the first piece in lower case. -/
theorem firstPiece_lowerCase (cs : List Char) :
    firstPiece (lowerCase cs) = (firstPiece cs).lower := by
  rw [firstPiece, cutTrivia_lowerCase, Cut.rest_lower, reading_lowerCase]
  rfl

/-- The first piece of a text in lower case leaves the rest in lower case. -/
theorem afterPiece_lowerCase (cs : List Char) :
    afterPiece (lowerCase cs) = lowerCase (afterPiece cs) := by
  rw [afterPiece, cutTrivia_lowerCase, Cut.rest_lower, reading_lowerCase]
  rfl

/-- A text in lower case falls into the pieces of the text, in lower case. -/
theorem pieces_lowerCase (cs : List Char) :
    pieces (lowerCase cs) = (pieces cs).map Piece.lower := by
  have hrest (cs : List Char) : (cutTrivia (lowerCase cs)).rest = lowerCase (cutTrivia cs).rest := by
    rw [cutTrivia_lowerCase, Cut.rest_lower]
  fun_induction pieces cs with
  | case1 cs h =>
    rw [pieces, dif_pos (by rw [hrest, h, lowerCase_nil]), firstPiece_lowerCase]
    rfl
  | case2 cs h ih =>
    have hne : (cutTrivia (lowerCase cs)).rest ≠ [] := by
      rw [hrest]
      exact fun he => h (List.map_eq_nil_iff.1 he)
    rw [pieces_of_rest_ne_nil hne, firstPiece_lowerCase, afterPiece_lowerCase, ih, List.map_cons]

/-- Letters take one byte. -/
theorem utf8Size_of_isAlpha {c : Char} (h : c.isAlpha = true) : c.utf8Size = 1 := by
  rw [isAlpha_iff] at h
  have hle : c.val ≤ 0x7f := by
    rw [UInt32.le_iff_toNat_le, Char.toNat_val]
    show c.toNat ≤ 127
    omega
  exact if_pos hle

/-- A letter takes as many bytes in either case. -/
theorem utf8Size_toLower (c : Char) : c.toLower.utf8Size = c.utf8Size := by
  cases h : c.isAlpha with
  | true => rw [utf8Size_of_isAlpha h, utf8Size_of_isAlpha ((caseBlind_isAlpha c).trans h)]
  | false => rw [(toLower_eq_iff h).2 rfl]

/-- Going over a letter leads to the same place in either case. -/
theorem Position.next_toLower (p : Position) (c : Char) : p.next c.toLower = p.next c := by
  simp only [next, toLower_eq_iff (show '\n'.isAlpha = false by decide), utf8Size_toLower]

/-- Going over a text leads to the same place in lower case. -/
theorem Position.after_lowerCase (p : Position) (cs : List Char) :
    p.after (lowerCase cs) = p.after cs := by
  induction cs generalizing p with
  | nil => rfl
  | cons c cs ih => rw [lowerCase_cons, after_cons, after_cons, next_toLower, ih]

/-- Pieces in lower case stand where the pieces stand. -/
theorem place_lower (p : Position) (xs : List Piece) :
    place p (xs.map Piece.lower) = (place p xs).map Placed.lower := by
  induction xs generalizing p with
  | nil => rfl
  | cons x xs ih =>
    rw [List.map_cons, place, place, Piece.whole_lower, Position.after_lowerCase, ih, List.map_cons]
    simp only [Piece.lower, Placed.lower, Position.after_lowerCase]

/-- Lower case leaves a byte order mark as it is. -/
theorem cutMark_lowerCase (cs : List Char) : cutMark (lowerCase cs) = (cutMark cs).lower := by
  cases cs with
  | nil => rfl
  | cons c cs =>
    have hc : c.toLower = byteOrderMark ↔ c = byteOrderMark := toLower_eq_iff (by decide)
    simp only [cutMark, lowerCase_cons, List.head?_cons, Option.some.injEq, hc]
    split
    · rfl
    · rfl

/-- The layout of a text in lower case. -/
theorem layout_lowerCase (source : List Char) :
    layout (lowerCase source) = (layout source).map Placed.lower := by
  rw [layout, cutMark_lowerCase, Cut.taken_lower, Cut.rest_lower, Position.after_lowerCase,
    pieces_lowerCase, place_lower, layout]

/-- A piece in lower case has the span of the piece. -/
@[simp] theorem Placed.span_lower (x : Placed) : x.lower.span = x.span := by
  rw [span, span, lower, Piece.lower, Position.after_lowerCase]

/-! ## Tokens and diagnostics -/

/-- Two texts that differ in the case of their letters only. -/
def SameButCase (a b : String) : Prop := lowerCase a.toList = lowerCase b.toList

/-- Two strings that differ in the case of their letters only, or the same number twice. -/
def Literal.SameButCase : Literal → Literal → Prop
  | .string a, .string b => BrightLexer.SameButCase a b
  | l, m => l = m

/-- Two tokens of one kind at one place, whose texts and string values differ in the case of their
letters only. -/
structure Token.SameButCase (t u : Token) : Prop where
  /-- They are of one kind. -/
  kind : t.kind = u.kind
  /-- They are on one line. -/
  line : t.line = u.line
  /-- They have one span. -/
  span : t.span = u.span
  /-- Their texts are the same but for case. -/
  text : BrightLexer.SameButCase t.text u.text
  /-- Neither has a value, or their values are the same but for case. -/
  literal : Option.Rel Literal.SameButCase t.literal u.literal

/-- Two diagnostics that differ in the case of the letters of their messages only. -/
structure Diagnostic.SameButCase (d e : Diagnostic) : Prop where
  /-- They are equally grave. -/
  level : d.level = e.level
  /-- Their messages are the same but for case. -/
  message : BrightLexer.SameButCase d.message e.message
  /-- They have one span. -/
  span : d.span = e.span
  /-- They have one code. -/
  code : d.code = e.code
  /-- They have the same notes. -/
  notes : d.notes = e.notes
  /-- They have the same helps. -/
  helps : d.helps = e.helps

/-- Two placed pieces that are the same in lower case. -/
def Placed.SameButCase (x y : Placed) : Prop := x.lower = y.lower

/-- Literals that are equal in lower case are the same but for letter case. -/
theorem Literal.sameButCase_of_lower {l m : Literal} (h : l.lower = m.lower) :
    l.SameButCase m := by
  cases l with
  | string a =>
    cases m with
    | string b =>
      simp only [lower, string.injEq, String.ofList_inj] at h
      exact h
    | _ => cases h
  | _ =>
    cases m with
    | string b => cases h
    | _ => exact h

namespace Placed

variable {x y : Placed}

/-- Pieces that are the same but for letter case have the same span. -/
theorem SameButCase.span (h : x.SameButCase y) : x.span = y.span := by
  rw [← span_lower x, ← span_lower y, h]

/-- Pieces that are the same but for letter case have equal texts in lower case. -/
theorem SameButCase.text (h : x.SameButCase y) :
    lowerCase x.piece.text = lowerCase y.piece.text :=
  congrArg (fun z : Placed => z.piece.text) h

/-- Pieces that are the same but for letter case were read alike, up to letter case. -/
theorem SameButCase.finding (h : x.SameButCase y) :
    x.piece.finding.lower = y.piece.finding.lower :=
  congrArg (fun z : Placed => z.piece.finding) h

/-- Pieces that are the same but for letter case are both tokens or both none, and their tokens are the same
but for letter case. -/
theorem token?_sameButCase (h : x.SameButCase y) :
    Option.Rel Token.SameButCase x.token? y.token? := by
  have hf := h.finding
  have ht := h.text
  have hs := h.span
  unfold token? item
  cases hx : x.piece.finding with
  | token kind value =>
    cases hy : y.piece.finding with
    | token kind' value' =>
      rw [hx, hy] at hf
      simp only [Finding.lower, Finding.token.injEq] at hf
      refine .some ⟨hf.1, congrArg Span.line hs, hs, ?_, ?_⟩
      · simpa only [BrightLexer.SameButCase, String.toList_ofList] using ht
      · cases value with
        | none =>
          cases value' with
          | none => exact .none
          | some m => cases hf.2
        | some l =>
          cases value' with
          | none => cases hf.2
          | some m => exact .some (Literal.sameButCase_of_lower (Option.some.inj hf.2))
    | fault cause => rw [hx, hy] at hf; cases hf
  | fault cause =>
    cases hy : y.piece.finding with
    | token kind value => rw [hx, hy] at hf; cases hf
    | fault cause' => exact .none

/-- Pieces that are the same but for letter case are both faults or both none, and their diagnostics are the
same but for letter case. -/
theorem diagnostic?_sameButCase (h : x.SameButCase y) :
    Option.Rel Diagnostic.SameButCase x.diagnostic? y.diagnostic? := by
  have hf := h.finding
  have hs := h.span
  unfold diagnostic? item
  cases hx : x.piece.finding with
  | token kind value =>
    cases hy : y.piece.finding with
    | token kind' value' => exact .none
    | fault cause => rw [hx, hy] at hf; cases hf
  | fault cause =>
    cases hy : y.piece.finding with
    | token kind value => rw [hx, hy] at hf; cases hf
    | fault cause' =>
      rw [hx, hy] at hf
      have hc : cause.lower = cause'.lower := Finding.fault.inj hf
      refine .some ⟨rfl, ?_, hs, ?_, ?_, ?_⟩
      · change lowerCase cause.summary.toList = lowerCase cause'.summary.toList
        rw [← cause.summary_lower, hc, cause'.summary_lower]
      · simp only [Fault.diagnostic, ← cause.code_lower, hc, cause'.code_lower]
      · simp only [Fault.diagnostic, ← cause.notes_lower, hc, cause'.notes_lower]
      · simp only [Fault.diagnostic, ← cause.helps_lower, hc, cause'.helps_lower]

end Placed

/-- Two texts that differ in the case of their letters only are scanned into as many tokens and
diagnostics, each the same as its counterpart but for the case of letters in its text; and one of
them has no fault if the other has none. -/
theorem scan_sameButCase (s t : String) (h : SameButCase s t) :
    List.Forall₂ Token.SameButCase (scanRecovering s).1 (scanRecovering t).1 ∧
      List.Forall₂ Diagnostic.SameButCase (scanRecovering s).2 (scanRecovering t).2 ∧
      ((∃ tokens, scan s = .ok tokens) ↔ ∃ tokens, scan t = .ok tokens) := by
  have hmap : (layout s.toList).map Placed.lower = (layout t.toList).map Placed.lower := by
    rw [← layout_lowerCase, ← layout_lowerCase, h]
  have hlayout : List.Forall₂ Placed.SameButCase (layout s.toList) (layout t.toList) := by
    rw [← List.forall₂_eq_eq_eq, List.forall₂_map_left_iff, List.forall₂_map_right_iff] at hmap
    exact hmap
  have htokens : List.Forall₂ Token.SameButCase (scanRecovering s).1 (scanRecovering t).1 := by
    rw [scanRecovering_eq, scanRecovering_eq]
    exact List.rel_filterMap @Placed.token?_sameButCase hlayout
  have hdiagnostics :
      List.Forall₂ Diagnostic.SameButCase (scanRecovering s).2 (scanRecovering t).2 := by
    rw [scanRecovering_eq, scanRecovering_eq]
    exact List.rel_filterMap @Placed.diagnostic?_sameButCase hlayout
  refine ⟨htokens, hdiagnostics, ?_⟩
  rw [exists_scan_eq_ok_iff, exists_scan_eq_ok_iff, ← List.length_eq_zero_iff,
    ← List.length_eq_zero_iff, hdiagnostics.length_eq]

/-- A reserved word, a number with an exponent and a quote that is not closed, in either case. -/
theorem scan_sameButCase_unclosed :
    SameButCase "If 1E2 \"Ab" "iF 1e2 \"aB" ∧
      List.Forall₂ Token.SameButCase (scanRecovering "If 1E2 \"Ab").1
        (scanRecovering "iF 1e2 \"aB").1 ∧
      List.Forall₂ Diagnostic.SameButCase (scanRecovering "If 1E2 \"Ab").2
        (scanRecovering "iF 1e2 \"aB").2 ∧
      ¬ ∃ tokens, scan "iF 1e2 \"aB" = .ok tokens := by
  have h : SameButCase "If 1E2 \"Ab" "iF 1e2 \"aB" := by
    unfold SameButCase
    decide
  have hfault : (scanRecovering "If 1E2 \"Ab").2 ≠ [] := by
    rw [scanRecovering_eq]
    decide +kernel
  obtain ⟨htokens, hdiagnostics, hscan⟩ := scan_sameButCase _ _ h
  exact ⟨h, htokens, hdiagnostics, fun hok => hfault ((exists_scan_eq_ok_iff _).1 (hscan.2 hok))⟩

end BrightLexer
