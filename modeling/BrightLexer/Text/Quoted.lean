import BrightLexer.Text.GraphemeExtend
import BrightLexer.Text.Printable

/-!
# Quoted text

A text is quoted between double quotes so that every character of it can be seen: quotes and
backslashes are escaped, the common control characters have short escapes, and every character that
cannot be shown, or that would be drawn onto the one before it, is written as its code point in
hexadecimal. An apostrophe needs no escape.
-/

namespace BrightLexer

/-- The digits of a number in base 16, in lower case and without leading zeros. -/
def hexDigits (n : Nat) : List Char := Nat.toDigits 16 n

/-- A character as it stands between double quotes. -/
def escapeChar (c : Char) : List Char :=
  if c = '\x00' then ['\\', '0']
  else if c = '\t' then ['\\', 't']
  else if c = '\r' then ['\\', 'r']
  else if c = '\n' then ['\\', 'n']
  else if c = '\\' ∨ c = '"' then ['\\', c]
  else if isCombining c || !isPrintable c then
    ['\\', 'u', '\x7b'] ++ hexDigits c.toNat ++ ['\x7d']
  else [c]

/-- A text between double quotes, escaped. -/
def quoted (cs : List Char) : List Char := '"' :: cs.flatMap escapeChar ++ ['"']

end BrightLexer
