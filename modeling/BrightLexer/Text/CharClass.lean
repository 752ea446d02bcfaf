/-!
# Character classes

Names, numerals and blanks are made of ASCII characters only, so every class here is a plain range
test: a letter outside ASCII is in none of them, and neither is NUL.
-/

namespace BrightLexer

/-- A character that may start a name: an ASCII letter or an underscore. -/
def isWordStart (c : Char) : Bool := c.isAlpha || c == '_'

/-- A character that may go on a name: an ASCII letter or digit, or an underscore. -/
def isWordChar (c : Char) : Bool := c.isAlphanum || c == '_'

/-- A character that may end a name to give the type of what it stands for. -/
def isDesignator (c : Char) : Bool := c == '$' || c == '%' || c == '!' || c == '#' || c == '&'

/-- A character between tokens that is part of none: a space, a tab, or a carriage return. A carriage
return is here so that both styles of line end give one newline token. -/
def isBlank (c : Char) : Bool := c == ' ' || c == '\t' || c == '\r'

/-- The byte order mark, which may stand before a text and is not part of it. -/
def byteOrderMark : Char := '\ufeff'

/-- What starts a word can go on one. -/
@[simp] theorem isWordChar_of_isWordStart {c : Char} (h : isWordStart c = true) :
    isWordChar c = true := by
  simp only [isWordStart, isWordChar, Char.isAlphanum, Bool.or_eq_true] at *
  exact h.elim (fun h => .inl (.inl h)) .inr

@[simp] theorem isWordChar_newline : isWordChar '\n' = false := by decide

@[simp] theorem isBlank_newline : isBlank '\n' = false := by decide

/-- A text with its ASCII letters in lower case. -/
def lowerCase (cs : List Char) : List Char := cs.map Char.toLower

end BrightLexer
