import BrightLexer.Number.Decimal
import BrightLexer.Text.CharClass
import BrightLexer.Token.Literal

/-!
# Numerals

A numeral is a run of digits with an optional fraction, exponent and type suffix. Reading one is done
in two halves. `cutNumeral` finds how far it goes and what it is made of, its `NumeralShape`, or why it
goes wrong; `NumeralShape.kind` decides from the shape alone which type of number it is. `numeralValue`
then computes the value from the text, exactly for whole numbers and rounded once for the others.

A point belongs to a numeral only when a digit follows it, but a letter `e` or `d` always does, so a
numeral that runs into such a letter needs digits behind it.
-/

namespace BrightLexer

/-- The letter that opens the exponent of a numeral, by the precision it asks for. -/
inductive ExponentMark where
  /-- The letter `e`. -/
  | single
  /-- The letter `d`. -/
  | double
deriving DecidableEq

/-- The mark a character stands for. -/
def ExponentMark.ofChar? (c : Char) : Option ExponentMark :=
  if c.toLower = 'e' then some .single else if c.toLower = 'd' then some .double else none

/-- The designator that ends a numeral. -/
inductive TypeSuffix where
  /-- `#` -/
  | double
  /-- `!` -/
  | float
  /-- `&` -/
  | long
deriving DecidableEq

/-- The suffix a character stands for. -/
def TypeSuffix.ofChar? (c : Char) : Option TypeSuffix :=
  if c = '#' then some .double else if c = '!' then some .float
  else if c = '&' then some .long else none

/-- What a numeral is made of. -/
structure NumeralShape where
  /-- Whether there is a point. -/
  hasPoint : Bool
  /-- The letter of the exponent. -/
  exponent : Option ExponentMark
  /-- The designator behind the digits. -/
  suffix : Option TypeSuffix
  /-- The number of digits before the point. -/
  digits : Nat
deriving DecidableEq

/-- The type of number that a numeral of this shape stands for. The suffix `!` always gives a float;
`d`, or else `#`, gives a double; `e`, or else a point, gives a float; and without any of these `&`
gives a long integer, and no suffix an integer of up to nine digits or a double of more. -/
def NumeralShape.kind (s : NumeralShape) : NumericKind :=
  match s.exponent, s.suffix with
  | _, some .float => .float
  | some .single, some .long => .float
  | none, some .long => if s.hasPoint then .float else .longInteger
  | some .double, _ => .double
  | _, some .double => .double
  | some .single, none => .float
  | none, none => if s.hasPoint then .float else if 10 ≤ s.digits then .double else .integer

/-- Why a numeral stands for no number. -/
inductive NumeralDefect where
  /-- The letter of an exponent without digits behind it. -/
  | exponentWithoutDigits
  /-- A second point in a plain numeral. -/
  | secondPoint
  /-- A fraction behind a numeral that can have none. -/
  | trailingPoint
  /-- A value that its type cannot hold. -/
  | outOfRange (kind : NumericKind)
deriving DecidableEq

/-- The wording of a defect. -/
def NumeralDefect.reason : NumeralDefect → String
  | .exponentWithoutDigits => "exponent has no digits"
  | .secondPoint => "more than one decimal point"
  | .trailingPoint => "unexpected '.' after numeric literal"
  | .outOfRange .integer => "integer literal out of range"
  | .outOfRange .longInteger => "long integer literal out of range"
  | .outOfRange .float => "float literal is not finite"
  | .outOfRange .double => "double literal is not finite"

/-- A numeral at the front of a text. -/
structure Numeral extends Cut where
  /-- What it is made of, or why it is no numeral. -/
  shape : Except NumeralDefect NumeralShape

/-- Cuts a run of digits off the front of a text. -/
def cutDigits (cs : List Char) : Cut := cutWhile Char.isDigit cs

/-- Whether a text starts with a point and a digit. -/
def startsFraction : List Char → Bool
  | '.' :: c :: _ => c.isDigit
  | _ => false

/-- Cuts a point and the digits behind it off the front of a text, if there are such digits. -/
def cutFraction (cs : List Char) : Cut :=
  if startsFraction cs then (cutDigits cs.tail).after (cs.take 1) else .empty cs

/-- Cuts a sign off the front of a text. -/
def cutOptionalSign : List Char → Cut
  | c :: cs => if c = '+' ∨ c = '-' then ⟨[c], cs⟩ else .empty (c :: cs)
  | [] => .empty []

/-- An exponent at the front of a text: its letter, and whether digits follow it. -/
structure Exponent extends Cut where
  /-- The letter, if there is one. -/
  mark : Option ExponentMark
  /-- Whether the letter lacks the digits that it asks for. -/
  bare : Bool
deriving DecidableEq

/-- Cuts an exponent off the front of a text. Once its letter is there, it and a sign behind it are
taken. -/
def cutExponent (cs : List Char) : Exponent :=
  match cs.head?.bind ExponentMark.ofChar? with
  | none => ⟨.empty cs, none, false⟩
  | some mark =>
    let sign := cutOptionalSign cs.tail
    let digits := cutDigits sign.rest
    ⟨digits.after (cs.take 1 ++ sign.taken), some mark, digits.taken.isEmpty⟩

/-- Cuts a type suffix off the front of a text. -/
def cutSuffix (cs : List Char) : Cut × Option TypeSuffix :=
  match cs.head?.bind TypeSuffix.ofChar? with
  | none => (.empty cs, none)
  | some suffix => (⟨cs.take 1, cs.tail⟩, some suffix)

/-- Cuts a numeral off the front of a text. The run of digits at its front may be empty. -/
def cutNumeral (cs : List Char) : Numeral :=
  let whole := cutDigits cs
  let fraction := cutFraction whole.rest
  let exponent := cutExponent fraction.rest
  let mantissa := whole.taken ++ fraction.taken
  if exponent.bare then ⟨exponent.toCut.after mantissa, .error .exponentWithoutDigits⟩
  else
    let (ending, suffix) := cutSuffix exponent.rest
    let taken := mantissa ++ exponent.taken ++ ending.taken
    let hasPoint := !fraction.taken.isEmpty
    if startsFraction ending.rest then
      let tail := cutWhile (fun c => c.isDigit || c == '.') ending.rest
      let plain := hasPoint && exponent.mark.isNone && suffix.isNone
      ⟨tail.after taken, .error (if plain then .secondPoint else .trailingPoint)⟩
    else
      ⟨ending.after (mantissa ++ exponent.taken),
        .ok ⟨hasPoint, exponent.mark, suffix, whole.taken.length⟩⟩

/-- The text of a numeral without the suffixes behind it. -/
def dropSuffixes (cs : List Char) : List Char :=
  (cs.reverse.dropWhile fun c => c == '#' || c == '!' || c == '&').reverse

/-- The text of a numeral with each exponent letter `d` written as `e`. -/
def unifyExponent (cs : List Char) : List Char :=
  cs.map fun c => if c = 'd' ∨ c = 'D' then 'e' else c

/-- The value that a text denotes as a number of type `kind`. -/
def numeralValue? (kind : NumericKind) (text : List Char) : Option Literal :=
  let digits := dropSuffixes text
  match kind with
  | .integer => do
    let v ← readInteger? digits
    if -twoPow 31 ≤ v ∧ v < twoPow 31 then some (.integer (Int32.ofInt v)) else none
  | .longInteger => do
    let v ← readInteger? digits
    if -twoPow 63 ≤ v ∧ v < twoPow 63 then some (.longInteger (Int64.ofInt v)) else none
  | .float => (readBinary? binary32 (unifyExponent digits)).map .float
  | .double => (readBinary? binary64 (unifyExponent digits)).map .double

/-- The value that a text denotes as a number of type `kind`, or the defect of having none. -/
def numeralValue (kind : NumericKind) (text : List Char) : Except NumeralDefect Literal :=
  match numeralValue? kind text with
  | some literal => .ok literal
  | none => .error (.outOfRange kind)

/-- Cutting digits loses no character. -/
@[simp] theorem whole_cutDigits (cs : List Char) : (cutDigits cs).whole = cs :=
  whole_cutWhile _ cs

/-- Cutting a fraction loses no character. -/
@[simp] theorem whole_cutFraction (cs : List Char) : (cutFraction cs).whole = cs := by
  unfold cutFraction
  split
  · cases cs <;> simp_all [startsFraction]
  · rfl

/-- Cutting a sign that may be missing loses no character. -/
@[simp] theorem whole_cutOptionalSign (cs : List Char) : (cutOptionalSign cs).whole = cs := by
  unfold cutOptionalSign
  split
  · split <;> rfl
  · rfl

/-- Cutting an exponent loses no character. -/
@[simp] theorem whole_cutExponent (cs : List Char) : (cutExponent cs).whole = cs := by
  cases cs with
  | nil => rfl
  | cons c cs =>
    unfold cutExponent
    split
    · rfl
    · have h := whole_cutOptionalSign cs
      simp only [Cut.whole] at h
      simp [h]

/-- Cutting a suffix loses no character. -/
@[simp] theorem whole_cutSuffix (cs : List Char) : (cutSuffix cs).1.whole = cs := by
  unfold cutSuffix
  split
  · rfl
  · cases cs <;> simp_all

/-- Cutting a numeral loses no character. -/
@[simp] theorem whole_cutNumeral (cs : List Char) : (cutNumeral cs).whole = cs := by
  have h1 := whole_cutDigits cs
  have h2 := whole_cutFraction (cutDigits cs).rest
  have h3 := whole_cutExponent (cutFraction (cutDigits cs).rest).rest
  have h4 := whole_cutSuffix (cutExponent (cutFraction (cutDigits cs).rest).rest).rest
  simp only [Cut.whole] at h1 h2 h3 h4
  unfold cutNumeral
  dsimp only
  split
  · simp [Cut.whole, h1, h2, h3]
  · split
    · have h5 := whole_cutWhile (fun c => c.isDigit || c == '.')
        (cutSuffix (cutExponent (cutFraction (cutDigits cs).rest).rest).rest).1.rest
      simp only [Cut.whole] at h5
      simp [Cut.whole, h1, h2, h3, h4, h5]
    · simp [Cut.whole, h1, h2, h3, h4]

/-- A numeral that starts with a digit takes it. -/
theorem taken_cutNumeral_ne_nil {c : Char} (cs : List Char) (h : c.isDigit = true) :
    (cutNumeral (c :: cs)).taken ≠ [] := by
  have hr : (cutDigits (c :: cs)).taken ≠ [] := by simp [cutDigits, cutWhile, h]
  unfold cutNumeral
  dsimp only
  split
  · simp [hr]
  · split <;> simp [hr]

end BrightLexer
