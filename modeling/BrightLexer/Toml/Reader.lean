/-!
# Readers

A reader takes a value from the front of a text, or fails. A failing reader takes nothing, so another
one can be tried in its place. `many` repeats a reader for as long as it takes something, which makes
it end on every text.
-/

namespace BrightLexer

/-- Takes a value from the front of a text, or fails. -/
abbrev Reader := StateT (List Char) Option

namespace Reader

/-- The next character, which is not taken. -/
def peek : Reader (Option Char) := do return (← get).head?

/-- Takes a character that passes `p`. -/
def char (p : Char → Bool) : Reader Char := do
  match ← get with
  | c :: cs => if p c then set cs; return c else failure
  | [] => failure

/-- Takes the given text. -/
def expect (word : String) : Reader Unit := do
  let cs ← get
  if word.toList.isPrefixOf cs then set (cs.drop word.length) else failure

/-- Takes the longest run of characters that pass `p`, which may be empty. -/
def charsWhile (p : Char → Bool) : Reader (List Char) := do
  let cs ← get
  set (cs.dropWhile p)
  return cs.takeWhile p

/-- Takes exactly `n` characters that pass `p`. -/
def exactly (p : Char → Bool) : Nat → Reader (List Char)
  | 0 => return []
  | n + 1 => do return (← char p) :: (← exactly p n)

/-- Succeeds at the end of the text. -/
def atEnd : Reader Unit := do if (← get).isEmpty then return () else failure

/-- Reads as often as `r` succeeds and takes something, from the text `cs`. -/
def repeatOn {α : Type} (r : Reader α) (cs : List Char) : List α × List Char :=
  match r cs with
  | none => ([], cs)
  | some (a, rest) =>
    if rest.length < cs.length then
      let (as, rest) := repeatOn r rest
      (a :: as, rest)
    else ([], cs)
termination_by cs.length

/-- Reads as often as `r` succeeds and takes something. -/
def many {α : Type} (r : Reader α) : Reader (List α) := do
  let (as, rest) := repeatOn r (← get)
  set rest
  return as

/-- The value `r` takes from a whole text. -/
def whole? {α : Type} (r : Reader α) (cs : List Char) : Option α := (r <* atEnd).run' cs

end Reader

end BrightLexer
