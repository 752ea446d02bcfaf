import BrightLexer.Source.Position

/-!
# Spans of a source text

A span is a range of bytes with the line and column it starts on. Two spans merge into the smallest
range that holds both (`Span.merge`), which keeps the line and column of the one that starts first;
when both start together the left one's are kept. `Span.text?` reads the text of a span, which fails
for a range that is reversed, past the end, or cuts a character.
-/

namespace BrightLexer

/-- A range of bytes of a source text, and where it starts. -/
structure Span where
  /-- The byte offset of the first character. -/
  start : Nat
  /-- The byte offset behind the last character. -/
  stop : Nat
  /-- The line the span starts on. -/
  line : Nat
  /-- The column the span starts at. -/
  column : Nat
deriving DecidableEq

/-- Why a lookup in a source text finds nothing. -/
inductive LookupError where
  /-- The text has only `count` lines. -/
  | noSuchLine (line count : Nat)
  /-- The range is not a range of whole characters of a text of `size` bytes. -/
  | outOfBounds (size start stop : Nat)
deriving DecidableEq

/-- The wording of a failed lookup. -/
def LookupError.message : LookupError → String
  | .noSuchLine line count => s!"Invalid line number: {line} (source has {count} lines)"
  | .outOfBounds size start stop =>
    s!"Span out of bounds: source has {size} bytes, span is {start}..{stop}"

namespace Span

/-- The span that stands for no place at all. -/
def nowhere : Span := ⟨0, 0, 0, 0⟩

/-- The empty span at a position. -/
def point (p : Position) : Span := ⟨p.offset, p.offset, p.line, p.column⟩

/-- The span between two positions. -/
def between (p q : Position) : Span := ⟨p.offset, q.offset, p.line, p.column⟩

/-- The number of bytes of a span; a reversed range has none. -/
def length (s : Span) : Nat := s.stop - s.start

/-- Whether a span covers no byte. -/
def isEmpty (s : Span) : Bool := s.length == 0

/-- The smallest range that holds both spans, placed where the earlier of them starts. -/
def merge (a b : Span) : Span :=
  let first := if b.start < a.start then b else a
  ⟨min a.start b.start, max a.stop b.stop, first.line, first.column⟩

/-- Where a span starts, as `line:column`. -/
def place (s : Span) : String := s!"{s.line}:{s.column}"

/-- The text a span covers. -/
def text? (s : Span) (source : List Char) : Except LookupError (List Char) :=
  match slice? source s.start s.stop with
  | some cs => .ok cs
  | none => .error (.outOfBounds (byteLength source) s.start s.stop)

/-- A span merged with itself is unchanged. -/
@[simp] theorem merge_self (s : Span) : s.merge s = s := by
  simp [merge]

/-- The span of a text between two others covers exactly that text. -/
theorem text?_between (a b c : List Char) :
    (between (Position.origin.after a) (Position.origin.after (a ++ b))).text? (a ++ b ++ c)
      = .ok b := by
  have h := slice?_append a b c
  simp only [text?, between, Position.offset_after, byteLength_append]
  simp only [Position.origin, Nat.zero_add]
  rw [h]

end Span

end BrightLexer
