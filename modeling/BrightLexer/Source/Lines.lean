import BrightLexer.Source.Span

/-!
# The lines of a source text

`splitLines` cuts a text at every newline, so a text with `n` newlines has `n + 1` lines and a final
newline opens an empty last line. A line is shown without the carriage return that may end it
(`shownLine`). `lineText` looks a line up by its number, counted from one.
-/

namespace BrightLexer

/-- The parts of a text between its newlines. -/
def splitLines : List Char → List (List Char)
  | [] => [[]]
  | c :: cs =>
    if c = '\n' then [] :: splitLines cs
    else match splitLines cs with
      | [] => [[c]]
      | line :: lines => (c :: line) :: lines

/-- Every text has a first line. -/
theorem splitLines_ne_nil (cs : List Char) : splitLines cs ≠ [] := by
  cases cs with
  | nil => simp [splitLines]
  | cons c cs =>
    simp only [splitLines]
    split
    · simp
    · split <;> simp

/-- There is one line more than there are newlines. -/
theorem length_splitLines (cs : List Char) :
    (splitLines cs).length = cs.count '\n' + 1 := by
  induction cs with
  | nil => rfl
  | cons c cs ih =>
    by_cases hc : c = '\n'
    · simp [splitLines, hc, ih]
    · simp only [splitLines, hc, if_false]
      split
      · next h => exact absurd h (splitLines_ne_nil cs)
      · next h => simp [h, hc] at ih ⊢; omega

/-- A line without the carriage return that may end it. -/
def shownLine (line : List Char) : List Char :=
  if line.getLast? = some '\r' then line.dropLast else line

/-- The text of line `n`, counted from one. -/
def lineText (source : List Char) (n : Nat) : Except LookupError (List Char) :=
  let lines := splitLines source
  match n with
  | 0 => .error (.noSuchLine 0 lines.length)
  | k + 1 =>
    match lines[k]? with
    | some line => .ok (shownLine line)
    | none => .error (.noSuchLine (k + 1) lines.length)

end BrightLexer
