import BrightLexer.Source.Position
import BrightLexer.Text.Cut

/-!
# A cursor over a source text

A cursor splits a source text into the characters already passed and the characters still ahead, and
knows the position between them. Looking ahead never fails: `peek?` says that there is no character,
and the end of the text is told apart from a NUL in it. `sliceFrom?` reads back from the cursor to an
earlier byte offset, and has no answer for an offset behind the cursor or inside a character.

The passed characters are kept last first, so that each move takes constant time.
-/

namespace BrightLexer

/-- A place in a source text, with the text on both sides of it. -/
structure Cursor where
  /-- The characters already passed, the last of them first. -/
  passed : List Char
  /-- The characters still ahead. -/
  rest : List Char
  /-- The place between the two. -/
  position : Position
deriving DecidableEq

namespace Cursor

/-- The cursor before the first character of a source text. -/
def ofSource (source : List Char) : Cursor := ⟨[], source, .origin⟩

/-- The character `k` places ahead, the current one at 0. -/
def peek? (c : Cursor) (k : Nat) : Option Char := c.rest[k]?

/-- The current character. -/
def current? (c : Cursor) : Option Char := c.peek? 0

/-- Whether there is no character ahead. -/
def atEnd (c : Cursor) : Bool := c.rest.isEmpty

/-- Moves past the current character; at the end nothing changes. -/
def advance (c : Cursor) : Cursor :=
  match c.rest with
  | [] => c
  | ch :: rest => ⟨ch :: c.passed, rest, c.position.next ch⟩

/-- Moves past `n` characters, or to the end if there are fewer. -/
def forward (c : Cursor) : Nat → Cursor
  | 0 => c
  | n + 1 => c.advance.forward n

/-- Moves past the longest run of characters ahead that pass `p`. -/
def advanceWhile (c : Cursor) (p : Char → Bool) : Cursor :=
  c.forward (cutWhile p c.rest).taken.length

/-- Whether the current character is `ch`, and the cursor moved past it if it is. -/
def matchChar (c : Cursor) (ch : Char) : Bool × Cursor :=
  if c.current? = some ch then (true, c.advance) else (false, c)

/-- Reads backwards over `passed` until `n` bytes are read; `acc` is what was read so far. -/
def readBack? : Nat → List Char → List Char → Option (List Char)
  | 0, _, acc => some acc
  | _ + 1, [], _ => none
  | n + 1, ch :: passed, acc =>
    if ch.utf8Size ≤ n + 1 then readBack? (n + 1 - ch.utf8Size) passed (ch :: acc) else none

/-- The text from byte offset `start` up to the cursor. -/
def sliceFrom? (c : Cursor) (start : Nat) : Option (List Char) :=
  if start ≤ c.position.offset then readBack? (c.position.offset - start) c.passed [] else none

/-- The source text the cursor stands in. -/
def source (c : Cursor) : List Char := c.passed.reverse ++ c.rest

@[simp] theorem source_ofSource (s : List Char) : (ofSource s).source = s := rfl

@[simp] theorem rest_ofSource (s : List Char) : (ofSource s).rest = s := rfl

@[simp] theorem position_ofSource (s : List Char) : (ofSource s).position = .origin := rfl

/-- A step leaves the source text as it is. -/
@[simp] theorem source_advance (c : Cursor) : c.advance.source = c.source := by
  unfold advance; split
  · rfl
  · next h => simp [source, h]

/-- A step takes one character off the text ahead. -/
@[simp] theorem rest_advance (c : Cursor) : c.advance.rest = c.rest.tail := by
  unfold advance; split <;> simp_all

/-- Some steps leave the source text as it is. -/
@[simp] theorem source_forward (c : Cursor) (n : Nat) : (c.forward n).source = c.source := by
  induction n generalizing c with
  | zero => rfl
  | succ n ih => simp [forward, ih]

/-- Some steps take as many characters off the text ahead. -/
@[simp] theorem rest_forward (c : Cursor) (n : Nat) : (c.forward n).rest = c.rest.drop n := by
  induction n generalizing c with
  | zero => rfl
  | succ n ih => simp [forward, ih]

/-- Moving forward twice is moving forward once. -/
theorem forward_add (c : Cursor) (m n : Nat) : c.forward (m + n) = (c.forward m).forward n := by
  induction m generalizing c with
  | zero => rw [Nat.zero_add, forward]
  | succ m ih => rw [Nat.succ_add, forward, forward, ih]

/-- Moving forward moves the position past what was passed. -/
theorem position_forward (c : Cursor) (n : Nat) :
    (c.forward n).position = c.position.after (c.rest.take n) := by
  induction n generalizing c with
  | zero => simp [forward]
  | succ n ih =>
    rw [forward, ih]
    cases h : c.rest with
    | nil => simp [advance, h]
    | cons ch rest => simp [advance, h]

end Cursor

end BrightLexer
