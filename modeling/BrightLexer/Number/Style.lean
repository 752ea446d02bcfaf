import BrightLexer.Number.Shortest

/-!
# Writing numbers

A decimal number is written with its point among or beside its digits (`positional`), or with one
digit before the point and an exponent (`scientific`). A `NumberStyle` holds the choices of one
output format: which of two equally near decimals is taken, which numbers are written positionally,
and whether a whole number shows a fraction.
-/

namespace BrightLexer

/-- The choices a format makes in writing floating point numbers. -/
structure NumberStyle where
  /-- Which of two equally near shortest decimals is written. -/
  tie : Tie
  /-- Whether a number whose first digit counts `10 ^ e` is written without an exponent. -/
  isPositional : Int → Bool
  /-- Whether a whole number is written with `.0`. -/
  pointZero : Bool

/-- Writes digits scaled by a power of ten, with as many zeros as the point needs. -/
def positional (pointZero : Bool) (digits : List Char) (exponent : Int) : List Char :=
  if 0 ≤ exponent then
    digits ++ List.replicate exponent.toNat '0' ++ (if pointZero then ['.', '0'] else [])
  else
    let places := (-exponent).toNat
    if places < digits.length then
      digits.take (digits.length - places) ++ '.' :: digits.drop (digits.length - places)
    else ['0', '.'] ++ List.replicate (places - digits.length) '0' ++ digits

/-- Writes digits with a point behind the first of them, and the power of ten that it counts. -/
def scientific (digits : List Char) (leading : Int) : List Char :=
  let fraction := match digits.tail with
    | [] => []
    | ds => '.' :: ds
  digits.take 1 ++ fraction ++ 'e' :: (if leading < 0 then '-' else '+') :: digitsOf leading.natAbs

namespace NumberStyle

/-- Writes a decimal number. -/
def write (style : NumberStyle) (d : Decimal) : List Char :=
  let digits := digitsOf d.coefficient
  let leading := d.exponent + digits.length - 1
  if style.isPositional leading then positional style.pointZero digits d.exponent
  else scientific digits leading

/-- Writes a finite value in its shortest form. -/
def writeBinary (style : NumberStyle) {F : Format} (x : Binary F) : List Char :=
  (if x.negative then ['-'] else []) ++ style.write (shortest F style.tie x.magnitude)

end NumberStyle

end BrightLexer
