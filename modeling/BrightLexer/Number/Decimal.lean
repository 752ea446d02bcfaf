import BrightLexer.Text.Cut

/-!
# Decimal numbers and how they are read

A decimal number is a natural coefficient times a power of ten, and it is exact: nothing is rounded
while a text is read. `readDecimal?` reads an unsigned numeral with an optional fraction and an
optional exponent, `readReal?` the same behind an optional sign, and `readInteger?` a run of digits
behind an optional sign. All of them read a whole text or nothing.
-/

namespace BrightLexer

/-- The value of a digit. -/
def digitValue (c : Char) : Nat := c.toNat - '0'.toNat

/-- The number a run of digits denotes. -/
def digitsValue (ds : List Char) : Nat := ds.foldl (fun n d => 10 * n + digitValue d) 0

/-- The digits of a number, without leading zeros. -/
def digitsOf (n : Nat) : List Char := Nat.toDigits 10 n

/-- A number has a digit. -/
theorem digitsOf_ne_nil (n : Nat) : digitsOf n ≠ [] := Nat.toDigits_ne_nil

/-- The digits of a number are digits. -/
theorem isDigit_of_mem_digitsOf {n : Nat} {c : Char} (h : c ∈ digitsOf n) : c.isDigit = true :=
  Nat.isDigit_of_mem_toDigits (by decide) (by decide) h

/-- The digits of a number denote it. -/
theorem digitsValue_digitsOf (n : Nat) : digitsValue (digitsOf n) = n := Nat.ofDigitChars_ten_toDigits

/-- A natural number is shown by its digits. -/
theorem toList_toString_nat (n : Nat) : (toString n).toList = digitsOf n := by
  rw [Nat.toString_eq_ofList_toDigits, String.toList_ofList]
  rfl

/-- The power of ten. -/
def tenPow (n : Nat) : Nat := Nat.pow 10 n

/-- The power of two. -/
def twoPow (n : Nat) : Nat := Nat.pow 2 n

/-- The number `coefficient · 10 ^ exponent`. -/
structure Decimal where
  /-- The digits, as one number. -/
  coefficient : Nat
  /-- The power of ten they are scaled by. -/
  exponent : Int
deriving DecidableEq

/-- Cuts an optional sign off a text; the flag says whether it is a minus. -/
def cutSign : List Char → Bool × List Char
  | '-' :: cs => (true, cs)
  | '+' :: cs => (false, cs)
  | cs => (false, cs)

/-- Reads a run of at least one digit, and nothing else, behind an optional sign. -/
def readInteger? (cs : List Char) : Option Int :=
  let (negative, digits) := cutSign cs
  if digits.isEmpty || !digits.all Char.isDigit then none
  else if negative then some (-(digitsValue digits : Int))
  else some (digitsValue digits)

/-- Reads what follows the digits of a decimal number: nothing, or `e` and a whole number. -/
def readExponent? : List Char → Option Int
  | [] => some 0
  | c :: cs => if c == 'e' || c == 'E' then readInteger? cs else none

/-- Reads an unsigned decimal number. A point may stand before, between or behind the digits, but
there must be a digit. -/
def readDecimal? (cs : List Char) : Option Decimal :=
  let whole := cutWhile Char.isDigit cs
  let fraction := match whole.rest with
    | '.' :: r => cutWhile Char.isDigit r
    | r => Cut.empty r
  if whole.taken.isEmpty && fraction.taken.isEmpty then none
  else (readExponent? fraction.rest).map fun e =>
    ⟨digitsValue (whole.taken ++ fraction.taken), e - fraction.taken.length⟩

/-- Reads a decimal number behind an optional sign; the flag says whether the sign is a minus. -/
def readReal? (cs : List Char) : Option (Bool × Decimal) :=
  let (negative, digits) := cutSign cs
  (readDecimal? digits).map ((negative, ·))

end BrightLexer
