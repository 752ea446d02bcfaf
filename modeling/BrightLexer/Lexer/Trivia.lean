import BrightLexer.Text.CharClass
import BrightLexer.Text.Cut

/-!
# What stands between tokens

Blanks and comments are passed over before a token is read. A comment runs from an apostrophe, or from
the whole word `rem` in any case, up to the end of its line; the line end itself is a token. Since a
comment ends only there, nothing but a line end or the end of the text can follow one, and
`cutTrivia` is done after it.
-/

namespace BrightLexer

/-- Whether a comment starts a text. -/
def opensComment : List Char → Bool
  | '\'' :: _ => true
  | r :: e :: m :: rest =>
    r.toLower == 'r' && e.toLower == 'e' && m.toLower == 'm' && !rest.head?.any isWordChar
  | _ => false

/-- Cuts a text at its first line end. -/
def cutLine (cs : List Char) : Cut := cutWhile (· != '\n') cs

/-- Cuts the blanks and the comment off the front of a text. -/
def cutTrivia : List Char → Cut
  | [] => .empty []
  | c :: cs =>
    if opensComment (c :: cs) then cutLine (c :: cs)
    else if isBlank c then (cutTrivia cs).after [c]
    else .empty (c :: cs)

@[simp] theorem opensComment_nil : opensComment [] = false := rfl

/-- Blanks and a comment lose no character. -/
@[simp] theorem whole_cutTrivia (cs : List Char) : (cutTrivia cs).whole = cs := by
  induction cs with
  | nil => rfl
  | cons c cs ih =>
    simp only [cutTrivia]
    split
    · simp [cutLine]
    · split <;> simp [ih]

end BrightLexer
