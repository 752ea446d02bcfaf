import BrightLexer.Number.Style
import BrightLexer.Text.Quoted
import BrightLexer.Token.Kind

/-!
# Literals

The value a literal token carries, and how it is shown beside the token: a text quoted, a whole number
in decimal, and a floating point number in the fewest digits that read back in its own precision,
never with an exponent.
-/

namespace BrightLexer

/-- The value of a literal token. -/
inductive Literal where
  /-- A text, without its quotes and with each doubled quote taken once. -/
  | string (text : String)
  /-- A whole number of 32 bits. -/
  | integer (value : Int32)
  /-- A whole number of 64 bits. -/
  | longInteger (value : Int64)
  /-- A single precision number. -/
  | float (value : Binary32)
  /-- A double precision number. -/
  | double (value : Binary64)
deriving DecidableEq

/-- Shown numbers have no exponent, a whole number has no point, and of two equally near shortest
decimals the larger one is shown. -/
def shownNumber : NumberStyle := ⟨.up, fun _ => true, false⟩

/-- A floating point number as it is shown. -/
def Binary.shown {F : Format} (x : Binary F) : String :=
  if x.isNaN then "NaN"
  else if x.isFinite then String.ofList (shownNumber.writeBinary x)
  else if x.negative then "-inf"
  else "inf"

namespace Literal

/-- The kind of the tokens that carry this literal. -/
def kind : Literal → Kind
  | .string _ => .string
  | .integer _ => .number .integer
  | .longInteger _ => .number .longInteger
  | .float _ => .number .float
  | .double _ => .number .double

/-- A literal as it is shown beside its token. -/
def shown : Literal → String
  | .string text => String.ofList (quoted text.toList)
  | .integer v => toString v.toInt
  | .longInteger v => toString v.toInt
  | .float v => v.shown
  | .double v => v.shown

@[simp] theorem isLiteral_kind (l : Literal) : l.kind.isLiteral = true := by cases l <;> rfl

end Literal

end BrightLexer
