import BrightLexer.Number.Binary
import BrightLexer.Toml.Text
import BrightLexer.Toml.Value

/-!
# Numbers, dates and truth values in TOML

Digits may be grouped by single underscores between them. A whole number must fit into 64 bits with a
sign and has no leading zeros in base ten; in the bases 16, 8 and 2 it has no sign. A floating point
number that overflows upwards is refused. Dates and times must exist in the calendar and on the clock.
-/

namespace BrightLexer.Toml

open Reader

/-- Digits with underscores between them, which are dropped. -/
def digitGroups (p : Char → Bool) : Reader (List Char) := do
  let first ← char p
  let more ← many (char p <|> (expect "_" *> char p))
  return first :: more

/-- Digits in base ten, without leading zeros. -/
def decimalDigits : Reader (List Char) := do
  if (← peek) = some '0' then (fun c => [c]) <$> char (· == '0') else digitGroups Char.isDigit

/-- An optional sign; the value says whether it is a minus. -/
def sign : Reader Bool := (expect "-" *> pure true) <|> (expect "+" *> pure false) <|> pure false

/-- A whole number in a base that is given by its first two characters. -/
def basedInteger (opening : String) (base : Nat) (p : Char → Bool) : Reader Int := do
  expect opening
  return valueInBase base (← digitGroups p)

/-- A whole number in base ten. -/
def decimalInteger : Reader Int := do
  let negative ← sign
  let n := valueInBase 10 (← decimalDigits)
  return if negative then -n else n

/-- A whole number of 64 bits. -/
def integer : Reader Int := do
  let i ← basedInteger "0x" 16 isHexDigit <|> basedInteger "0o" 8 (fun c => '0' ≤ c && c ≤ '7') <|>
    basedInteger "0b" 2 (fun c => c == '0' || c == '1') <|> decimalInteger
  if -twoPow 63 ≤ i ∧ i < twoPow 63 then return i else failure

/-- The digits behind a point. -/
def fractionDigits : Reader (List Char) := expect "." *> digitGroups Char.isDigit

/-- The power of ten behind a letter `e`. -/
def exponentPart : Reader Int := do
  expect "e" <|> expect "E"
  let negative ← sign
  let n := valueInBase 10 (← digitGroups Char.isDigit)
  return if negative then -n else n

/-- A floating point number with a fraction, an exponent, or both. -/
def float : Reader Unit := do
  let negative ← sign
  let whole ← decimalDigits
  let fraction ← optional fractionDigits
  let exponent ← optional exponentPart
  if fraction.isNone && exponent.isNone then failure
  let fraction := fraction.getD []
  let d : Decimal := ⟨digitsValue (whole ++ fraction), exponent.getD 0 - fraction.length⟩
  if !negative && binary64.infinity ≤ binary64.roundDecimal d then failure

/-- An infinity or the value that is no number. -/
def namedFloat : Reader Unit := do
  let _ ← sign
  expect "inf" <|> expect "nan"

/-- A number of `width` digits from `low` to `high`. -/
def ranged (width low high : Nat) : Reader Nat := do
  let n := valueInBase 10 (← exactly Char.isDigit width)
  if low ≤ n ∧ n ≤ high then return n else failure

/-- The number of days of a month. -/
def daysOf (year month : Nat) : Nat :=
  if month = 2 then
    if year % 4 = 0 ∧ (year % 100 ≠ 0 ∨ year % 400 = 0) then 29 else 28
  else if month = 4 ∨ month = 6 ∨ month = 9 ∨ month = 11 then 30
  else 31

/-- A day of the calendar. -/
def date : Reader Unit := do
  let year ← ranged 4 0 9999
  expect "-"
  let month ← ranged 2 1 12
  expect "-"
  let _ ← ranged 2 1 (daysOf year month)

/-- A time of the day. A minute may have a leap second. -/
def time : Reader Unit := do
  let _ ← ranged 2 0 23
  expect ":"
  let _ ← ranged 2 0 59
  expect ":"
  let _ ← ranged 2 0 60
  let second : Reader Unit := do
    expect "."
    let _ ← char Char.isDigit
    let _ ← charsWhile Char.isDigit
  let _ ← optional second

/-- The distance of a clock from universal time. -/
def offset : Reader Unit := do
  let distance : Reader Unit := do
    expect "+" <|> expect "-"
    let _ ← ranged 2 0 23
    expect ":"
    let _ ← ranged 2 0 59
  expect "Z" <|> expect "z" <|> distance

/-- A date, a time, or both, with an offset only if it is both. -/
def dateTime : Reader Unit := do
  let clock : Reader Unit := do
    expect "T" <|> expect "t" <|> expect " "
    time
    let _ ← optional offset
  let day : Reader Unit := do
    date
    let _ ← optional clock
  day <|> time

/-- A value that holds no other values. -/
def scalar : Reader Value :=
  (fun cs => .string (String.ofList cs)) <$> anyString <|>
  (expect "true" *> pure (.boolean true)) <|> (expect "false" *> pure (.boolean false)) <|>
  (dateTime *> pure .dateTime) <|> (float *> pure .float) <|> (namedFloat *> pure .float) <|>
  .integer <$> integer

end BrightLexer.Toml
