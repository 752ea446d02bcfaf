import BrightLexer.Number.Decimal

/-!
# Binary floating point

The two interchange formats, as far as literals need them: a sign and a *magnitude*, the number that
the exponent and fraction fields make up together. Magnitudes are ordered as the values they stand
for, and from zero to infinity they have no gaps, so rounding a number is computing one magnitude.

`Format.roundRatio` rounds an exact quotient to the nearest magnitude, a tie to the even one, in one
step and in natural numbers only. `Format.roundDecimal` does so for a decimal number; it never
computes a power of ten much larger than the coefficient or the format, since `8 ^ k ≤ 10 ^ k` tells
beforehand when a number is out of range on either side.
-/

namespace BrightLexer

/-- A binary interchange format. -/
structure Format where
  /-- The number of binary digits of a significand. -/
  precision : Nat
  /-- The width of the exponent field. -/
  exponentWidth : Nat
deriving DecidableEq

/-- Single precision: 32 bits. -/
def binary32 : Format := ⟨24, 8⟩

/-- Double precision: 64 bits. -/
def binary64 : Format := ⟨53, 11⟩

/-- The quotient of two numbers, rounded to the nearest whole number and from the middle between two
to the even one. -/
def roundDiv (num den : Nat) : Nat :=
  let q := num / den
  let twice := 2 * (num % den)
  if twice < den then q else if den < twice then q + 1 else q + q % 2

namespace Format

/-- The number of magnitudes that share an exponent. -/
def step (F : Format) : Nat := twoPow (F.precision - 1)

/-- The magnitude of infinity; the larger ones are not numbers. -/
def infinity (F : Format) : Nat := (twoPow F.exponentWidth - 1) * F.step

/-- The number of magnitudes. -/
def codes (F : Format) : Nat := twoPow F.exponentWidth * F.step

/-- The exponent of the smallest positive value. -/
def leastExponent (F : Format) : Int := 3 - twoPow (F.exponentWidth - 1) - F.precision

/-- The power of two at which the format ends. -/
def limit (F : Format) : Nat := twoPow (F.exponentWidth - 1)

/-- The significand of a finite magnitude, as a whole number. -/
def significand (F : Format) (m : Nat) : Nat :=
  if m / F.step ≤ 1 then m else F.step + m % F.step

/-- The power of two that scales the significand of a finite magnitude. -/
def exponent (F : Format) (m : Nat) : Int := F.leastExponent + (m / F.step - 1 : Nat)

/-- A format has codes. -/
theorem codes_pos (F : Format) : 0 < F.codes :=
  Nat.mul_pos (Nat.pow_pos (by decide)) (Nat.pow_pos (by decide))

/-- Infinity has a code. -/
theorem infinity_lt_codes (F : Format) : F.infinity < F.codes :=
  Nat.mul_lt_mul_of_pos_right (Nat.sub_lt (Nat.pow_pos (by decide)) (by decide))
    (Nat.pow_pos (by decide))

/-- The exponent at which `num / den` has `precision` binary digits before the point, or the least
exponent of the format if that is larger. -/
def exponentFor (F : Format) (num den : Nat) : Int :=
  let k : Int := (num.log2 : Int) - den.log2
  let reach := if den * twoPow k.toNat ≤ num * twoPow (-k).toNat then k + 1 else k
  max (reach - F.precision) F.leastExponent

/-- The magnitude nearest to `num / den`, which may lie at infinity or beyond. -/
def roundRatio (F : Format) (num den : Nat) : Nat :=
  if num = 0 then 0
  else
    let q := F.exponentFor num den
    let significand := roundDiv (num * twoPow (-q).toNat) (den * twoPow q.toNat)
    (q - F.leastExponent).toNat * F.step + significand

/-- The magnitude nearest to a decimal number, which may lie at infinity or beyond. -/
def roundDecimal (F : Format) (d : Decimal) : Nat :=
  if d.coefficient = 0 then 0
  else if (F.limit : Int) ≤ 3 * d.exponent then F.infinity
  else if d.coefficient.log2 + 2 - F.leastExponent ≤ -(3 * d.exponent) then 0
  else F.roundRatio (d.coefficient * tenPow d.exponent.toNat) (tenPow (-d.exponent).toNat)

end Format

/-- A value of a binary format. -/
structure Binary (F : Format) where
  /-- Whether the sign bit is set. -/
  negative : Bool
  /-- The exponent and fraction fields, read as one number. -/
  magnitude : Nat
  /-- The fields are as wide as the format says. -/
  magnitude_lt : magnitude < F.codes
deriving DecidableEq

namespace Binary

variable {F : Format}

/-- The value with the given bits. -/
def ofBits (n : Nat) : Binary F :=
  ⟨n / F.codes % 2 == 1, n % F.codes, Nat.mod_lt n F.codes_pos⟩

/-- The bits of a value. -/
def toBits (x : Binary F) : Nat := (if x.negative then F.codes else 0) + x.magnitude

/-- Whether a value is a number and not infinite. -/
def isFinite (x : Binary F) : Bool := decide (x.magnitude < F.infinity)

/-- Whether a value is not a number. -/
def isNaN (x : Binary F) : Bool := decide (F.infinity < x.magnitude)

/-- The finite value nearest to a decimal number, with the given sign; none when the number rounds to
infinity. -/
def ofDecimal? (negative : Bool) (d : Decimal) : Option (Binary F) :=
  let m := F.roundDecimal d
  if h : m < F.infinity then some ⟨negative, m, Nat.lt_trans h F.infinity_lt_codes⟩ else none

end Binary

/-- The finite value of a binary format that a text denotes, if it denotes one. -/
def readBinary? (F : Format) (cs : List Char) : Option (Binary F) :=
  (readReal? cs).bind fun (negative, d) => Binary.ofDecimal? negative d

/-- A single precision value. -/
abbrev Binary32 := Binary binary32

/-- A double precision value. -/
abbrev Binary64 := Binary binary64

end BrightLexer
