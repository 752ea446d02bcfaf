import BrightLexer.Proofs.Scan.Run
import BrightLexer.Proofs.Source.Cursor

/-!
# The lexer keeps nothing between tokens

What the lexer does next depends on the text ahead alone. `nextToken_resumes` says so call by call:
once one call was made, every further call gives what it would give from a new lexer on the text
ahead, be the last call's answer a token or a fault. Only the places differ, and they are those of
the new lexer seen from where it starts (`Position.relocate`).

A new lexer may pass over a byte order mark and one that has made a call may not, so the text ahead
must not start with one. `Resumes` is the relation between the two lexers: `Resumes.nextToken` keeps
it through one call, and `Resumes.afterCalls` through all of them.
-/

namespace BrightLexer

/-! ## Places in a text that stands behind another one -/

/-- A line of a text that stands at `p`, counted where the text stands. -/
def Position.relocateLine (p : Position) (line : Nat) : Nat := line + (p.line - 1)

/-- A column of a text that stands at `p`, counted where the text stands: its first line goes on
from the column of `p`, and the other ones start where they are. -/
def Position.relocateColumn (p : Position) (line column : Nat) : Nat :=
  if line = 1 then column + (p.column - 1) else column

/-- A place of a text that stands at `p`, seen from where the text stands. -/
def Position.relocate (p q : Position) : Position :=
  ⟨q.offset + p.offset, p.relocateLine q.line, p.relocateColumn q.line q.column⟩

/-- A span of a text that stands at `p`, seen from where the text stands. -/
def Span.relocate (p : Position) (s : Span) : Span :=
  ⟨s.start + p.offset, s.stop + p.offset, p.relocateLine s.line, p.relocateColumn s.line s.column⟩

/-- A token with its line and its span relocated. -/
def Token.relocate (p : Position) (t : Token) : Token :=
  { t with line := p.relocateLine t.line, span := t.span.relocate p }

/-- A fault with its place relocated. -/
def Fault.relocate (p : Position) (f : Fault) : Fault :=
  ⟨f.cause, p.relocateLine f.line, p.relocateColumn f.line f.column⟩

/-- A token or fault with its place relocated. -/
def relocateItem (p : Position) : Except Fault Token → Except Fault Token
  | .ok token => .ok (token.relocate p)
  | .error fault => .error (fault.relocate p)

namespace Position

variable {p q : Position}

/-- Going over a character keeps lines counted from 1. -/
theorem one_le_line_next (h : 1 ≤ q.line) (c : Char) : 1 ≤ (q.next c).line := by
  unfold next
  split
  · exact Nat.le_add_left ..
  · exact h

/-- Going over a text keeps lines counted from 1. -/
theorem one_le_line_after (h : 1 ≤ q.line) (cs : List Char) : 1 ≤ (q.after cs).line := by
  induction cs generalizing q with
  | nil => exact h
  | cons c cs ih => exact ih (one_le_line_next h c)

/-- Going over a text keeps columns counted from 1. -/
theorem one_le_column_after (h : 1 ≤ q.column) (cs : List Char) : 1 ≤ (q.after cs).column := by
  induction cs generalizing q with
  | nil => exact h
  | cons c cs ih =>
    refine ih ?_
    unfold next
    split
    · exact Nat.le_refl 1
    · exact Nat.le_succ_of_le h

/-- The start of a text is where the text stands. -/
theorem relocate_origin (hl : 1 ≤ p.line) (hc : 1 ≤ p.column) : p.relocate origin = p := by
  simp only [relocate, relocateLine, relocateColumn, origin, if_true, Nat.zero_add,
    Nat.add_sub_of_le hl, Nat.add_sub_of_le hc]

/-- On the first line columns go on from `p`, and a newline ends the first line. -/
theorem next_relocate (h : 1 ≤ q.line) (c : Char) :
    (p.relocate q).next c = p.relocate (q.next c) := by
  by_cases hc : c = '\n'
  · have hline : q.line + 1 ≠ 1 := by omega
    simp only [next, if_pos hc, relocate, relocateLine, relocateColumn, if_neg hline, mk.injEq]
    exact ⟨Nat.add_right_comm .., Nat.add_right_comm .., trivial⟩
  · simp only [next, if_neg hc, relocate, relocateLine, relocateColumn, mk.injEq, true_and]
    refine ⟨Nat.add_right_comm .., ?_⟩
    split
    · exact Nat.add_right_comm ..
    · rfl

/-- Going over a text commutes with seeing the place from where the text stands. -/
theorem after_relocate (h : 1 ≤ q.line) (cs : List Char) :
    (p.relocate q).after cs = p.relocate (q.after cs) := by
  induction cs generalizing q with
  | nil => rfl
  | cons c cs ih => rw [after_cons, after_cons, next_relocate h, ih (one_le_line_next h c)]

end Position

namespace Placed

variable {p : Position} {x : Placed}

/-- A piece with its place relocated. -/
def relocate (p : Position) (x : Placed) : Placed := { x with start := p.relocate x.start }

/-- The span of a relocated piece is the span relocated. -/
theorem span_relocate (h : 1 ≤ x.start.line) : (x.relocate p).span = x.span.relocate p := by
  rw [span, relocate, Position.after_relocate h]
  rfl

/-- The token or fault of a relocated piece is the token or fault relocated. -/
theorem item_relocate (h : 1 ≤ x.start.line) :
    (x.relocate p).item = relocateItem p x.item := by
  rw [item, span_relocate h, item]
  show x.piece.finding.item _ _ = _
  cases x.piece.finding with
  | token kind value => rfl
  | fault cause => rfl

end Placed

namespace Lexer

/-! ## Calls one after the other -/

/-- The lexer behind `n` calls of `nextToken`. -/
def afterCalls (l : Lexer) : Nat → Lexer
  | 0 => l
  | n + 1 => l.nextToken.2.afterCalls n

/-- The answer to call `n` of `nextToken`, the first call at 0, and the span of what the lexer read
for it. -/
def call (l : Lexer) (n : Nat) : Except Fault Token × Span :=
  ((l.afterCalls n).nextToken.1, (l.afterCalls n).nextToken.2.span)

/-- One more call is made on the lexer behind the calls before it. -/
theorem afterCalls_succ (l : Lexer) (n : Nat) :
    l.afterCalls (n + 1) = (l.afterCalls n).nextToken.2 := by
  induction n generalizing l with
  | zero => rfl
  | succ n ih => exact ih l.nextToken.2

/-- Passing over a byte order mark first makes no difference to any call. -/
theorem call_skipMark (l : Lexer) (n : Nat) : l.skipMark.call n = l.call n := by
  cases n with
  | zero => simp only [call, afterCalls, nextToken_skipMark]
  | succ n => simp only [call, afterCalls, nextToken_skipMark]

/-- After a call of `nextToken` no byte order mark is passed over any more. -/
theorem markAllowed_nextToken (l : Lexer) : l.nextToken.2.markAllowed = false := by
  rw [← nextToken_skipMark, nextToken_eq (markAllowed_skipMark l)]
  exact markAllowed_skipMark l

/-- The calls hand out the pieces ahead. -/
theorem call_of_place {l : Lexer} (h : l.markAllowed = false) {n : Nat} {x : Placed}
    (hx : (place l.cursor.position (pieces l.rest))[n]? = some x) : l.call n = (x.item, x.span) := by
  induction n generalizing l with
  | zero =>
    obtain ⟨xs, hxs⟩ : ∃ xs, pieces l.rest = firstPiece l.rest :: xs := by
      rw [pieces]
      split
      · exact ⟨_, rfl⟩
      · exact ⟨_, rfl⟩
    rw [hxs, place_firstPiece] at hx
    cases hx
    simp only [call, afterCalls, nextToken_eq h, span_behind]
  | succ n ih =>
    by_cases hr : (cutTrivia l.rest).rest = []
    · rw [pieces_of_rest_eq_nil hr] at hx
      cases hx
    · rw [pieces_of_rest_ne_nil hr, place_firstPiece, List.getElem?_cons_succ, ← rest_behind] at hx
      have hcall := ih (l := l.behind) h hx
      simpa only [call, afterCalls, nextToken_eq h] using hcall

/-- The calls hand out the pieces of a source text. -/
theorem call_of_layout {source : String} {n : Nat} {x : Placed}
    (hx : (layout source.toList)[n]? = some x) : (ofSource source).call n = (x.item, x.span) := by
  obtain ⟨hrest, hposition⟩ := skipMark_ofSource source
  rw [layout, ← hrest, ← hposition] at hx
  rw [← call_skipMark]
  exact call_of_place rfl hx

/-- A lexer has the text ahead of another one, in a text that stands at `p`. -/
structure Resumes (p : Position) (l m : Lexer) : Prop where
  /-- The lexer is past a byte order mark. -/
  markAllowed : l.markAllowed = false
  /-- So is the other one. -/
  markAllowed' : m.markAllowed = false
  /-- The same text is ahead of both. -/
  rest : l.rest = m.rest
  /-- The lexer is where the other one is, seen from where the text stands. -/
  position : l.cursor.position = p.relocate m.cursor.position
  /-- Lines count from one. -/
  line : 1 ≤ m.cursor.position.line

variable {p : Position} {l m : Lexer}

/-- The first piece of a lexer that resumes another one is that of the other one, relocated. -/
theorem Resumes.firstPlaced (h : Resumes p l m) : l.firstPlaced = m.firstPlaced.relocate p := by
  rw [Lexer.firstPlaced, Lexer.firstPlaced, h.rest, h.position, Position.after_relocate h.line]
  rfl

/-- One call gives the same answer, relocated, and leaves the lexers related. -/
theorem Resumes.nextToken (h : Resumes p l m) :
    l.nextToken.1 = relocateItem p m.nextToken.1 ∧
      l.nextToken.2.span = m.nextToken.2.span.relocate p ∧
      Resumes p l.nextToken.2 m.nextToken.2 := by
  have hline : 1 ≤ m.firstPlaced.start.line := Position.one_le_line_after h.line _
  rw [nextToken_eq h.markAllowed, nextToken_eq h.markAllowed', span_behind, span_behind,
    h.firstPlaced]
  refine ⟨Placed.item_relocate hline, Placed.span_relocate hline, h.markAllowed, h.markAllowed',
    ?_, ?_, ?_⟩
  · rw [rest_behind, rest_behind, h.rest]
  · rw [position_behind, position_behind, h.position, h.rest, Position.after_relocate h.line]
  · rw [position_behind]
    exact Position.one_le_line_after h.line _

/-- A lexer that resumes another one does so after any number of calls. -/
theorem Resumes.afterCalls (h : Resumes p l m) (n : Nat) :
    Resumes p (l.afterCalls n) (m.afterCalls n) := by
  induction n generalizing l m with
  | zero => exact h
  | succ n ih => exact ih h.nextToken.2.2

/-- All calls give the same answers, relocated. -/
theorem Resumes.call (h : Resumes p l m) (n : Nat) :
    l.call n = (relocateItem p (m.call n).1, (m.call n).2.relocate p) := by
  obtain ⟨hitem, hspan, -⟩ := (h.afterCalls n).nextToken
  exact Prod.ext hitem hspan

/-! ## Where the calls lead -/

/-- A call only moves the cursor forward. -/
theorem cursor_nextToken (l : Lexer) : ∃ n, l.nextToken.2.cursor = l.cursor.forward n := by
  obtain ⟨a, ha⟩ := l.cursor_skipMark
  refine ⟨a + (cutTrivia l.skipMark.rest).taken.length +
    (reading l.skipMark.skipTrivia.rest).taken.length, ?_⟩
  rw [nextToken, readToken_eq rfl, Cursor.forward_add, Cursor.forward_add, ← ha]
  rfl

/-- The calls move the cursor forward over the source text. -/
theorem cursor_afterCalls (source : String) (n : Nat) :
    ∃ k, ((ofSource source).afterCalls n).cursor = (Cursor.ofSource source.toList).forward k := by
  induction n with
  | zero => exact ⟨0, rfl⟩
  | succ n ih =>
    obtain ⟨k, hk⟩ := ih
    obtain ⟨m, hm⟩ := cursor_nextToken ((ofSource source).afterCalls n)
    exact ⟨k + m, by rw [afterCalls_succ, hm, hk, Cursor.forward_add]⟩

/-- The text ahead is the source text from the offset of the cursor on. -/
theorem dropBytes?_afterCalls (source : String) (n : Nat) :
    dropBytes? ((ofSource source).afterCalls n).cursor.position.offset source.toList =
      some ((ofSource source).afterCalls n).rest := by
  obtain ⟨k, hk⟩ := cursor_afterCalls source n
  rw [rest, hk]
  exact ((Cursor.in_ofSource source.toList).forward k).dropBytes?_eq

/-- Lines and columns count from one. -/
theorem one_le_afterCalls (source : String) (n : Nat) :
    1 ≤ ((ofSource source).afterCalls n).cursor.position.line ∧
      1 ≤ ((ofSource source).afterCalls n).cursor.position.column := by
  obtain ⟨k, hk⟩ := cursor_afterCalls source n
  rw [hk, Cursor.position_forward]
  exact ⟨Position.one_le_line_after (Nat.le_refl 1) _, Position.one_le_column_after (Nat.le_refl 1) _⟩

/-- A new lexer on the text ahead is where its text starts. -/
theorem resumes_ofSource (h : l.markAllowed = false) (hb : l.rest.head? ≠ some byteOrderMark)
    (hline : 1 ≤ l.cursor.position.line) (hcolumn : 1 ≤ l.cursor.position.column) :
    Resumes l.cursor.position l (ofSource (String.ofList l.rest)).skipMark := by
  have hcut : cutMark (String.ofList l.rest).toList = .empty l.rest := by
    rw [String.toList_ofList]
    exact if_neg hb
  obtain ⟨hrest, hposition⟩ := skipMark_ofSource (String.ofList l.rest)
  rw [hcut] at hrest hposition
  refine ⟨h, rfl, hrest.symm, ?_, ?_⟩
  · rw [hposition]
    exact (Position.relocate_origin hline hcolumn).symm
  · rw [hposition]
    exact Nat.le_refl 1

end Lexer

/-- The lexer is memoryless between tokens. Behind one or more calls of `nextToken`, whatever they
answered, the text ahead is the source text from the offset of the cursor on, which is where the last
token or fault stops; and unless that text starts with a byte order mark, every further call answers
what it would answer on a lexer that starts on that text, each place being seen from the cursor. -/
theorem nextToken_resumes (source : String) (n : Nat)
    (h : ((Lexer.ofSource source).afterCalls (n + 1)).rest.head? ≠ some byteOrderMark) :
    let l := (Lexer.ofSource source).afterCalls (n + 1)
    let fresh := Lexer.ofSource (String.ofList l.rest)
    let p := l.cursor.position
    dropBytes? p.offset source.toList = some l.rest ∧ l.span.stop = p.offset ∧
      ∀ k, l.call k = (relocateItem p (fresh.call k).1, (fresh.call k).2.relocate p) := by
  intro l fresh p
  have hmark : l.markAllowed = false := by
    rw [show l = _ from Lexer.afterCalls_succ ..]
    exact Lexer.markAllowed_nextToken _
  refine ⟨Lexer.dropBytes?_afterCalls source (n + 1), rfl, fun k => ?_⟩
  rw [← Lexer.call_skipMark fresh]
  obtain ⟨hline, hcolumn⟩ := Lexer.one_le_afterCalls source (n + 1)
  exact (Lexer.resumes_ofSource hmark h hline hcolumn).call k

/-- Behind a character of two bytes that starts no token, a numeral on the same line stands three columns
and four bytes further than in the text on its own, and a name on the next line only four bytes. -/
theorem nextToken_resumes_unexpected :
    let l := (Lexer.ofSource "x é 1\ny").afterCalls 2
    l.rest.head? ≠ some byteOrderMark ∧ l.rest = " 1\ny".toList ∧ l.span = ⟨2, 4, 1, 3⟩ ∧
      l.call 0 = (.ok ⟨.number .integer, "1", some (.integer 1), 1, ⟨5, 6, 1, 5⟩⟩, ⟨5, 6, 1, 5⟩) ∧
      l.call 2 = (.ok ⟨.identifier, "y", none, 2, ⟨7, 8, 2, 1⟩⟩, ⟨7, 8, 2, 1⟩) := by
  intro l
  have hrest : l.rest = " 1\ny".toList := by decide +kernel
  have hspan : l.span = ⟨2, 4, 1, 3⟩ := by decide +kernel
  have hposition : l.cursor.position = ⟨4, 1, 4⟩ := by decide +kernel
  have hb : l.rest.head? ≠ some byteOrderMark := by rw [hrest]; decide
  have h0 : (layout " 1\ny".toList)[0]? =
      some ⟨⟨1, 1, 2⟩, ⟨[' '], ['1'], .token (.number .integer) (some (.integer 1))⟩⟩ := by
    decide +kernel
  have h2 : (layout " 1\ny".toList)[2]? =
      some ⟨⟨3, 2, 1⟩, ⟨[], ['y'], .token .identifier none⟩⟩ := by
    decide +kernel
  obtain ⟨-, -, hcall⟩ := nextToken_resumes "x é 1\ny" 1 hb
  rw [show (Lexer.ofSource "x é 1\ny").afterCalls (1 + 1) = l from rfl, hposition, hrest,
    String.ofList_toList] at hcall
  refine ⟨hb, hrest, hspan, ?_, ?_⟩
  · rw [hcall, Lexer.call_of_layout h0]
    rfl
  · rw [hcall, Lexer.call_of_layout h2]
    rfl

end BrightLexer
