/-!
# Operators and punctuation

One constructor for each sign of the language that is spelled without letters. `Symbol.spelling` is
its source text and `Symbol.name` the name its tokens are shown under.
-/

namespace BrightLexer

/-- A sign that is spelled without letters. -/
inductive Symbol where
  | leftParen | rightParen | leftBrace | rightBrace | leftSquare | rightSquare | comma | dot
  | colon | semicolon | caret | minus | plus | star | slash | backslash | plusPlus
  | minusMinus | plusEqual | minusEqual | starEqual | slashEqual | backslashEqual
  | leftShiftEqual | rightShiftEqual | leftShift | rightShift | less | lessEqual | greater
  | greaterEqual | equal | lessGreater
deriving DecidableEq

namespace Symbol

/-- Every symbol. -/
def all : List Symbol :=
  [.leftParen, .rightParen, .leftBrace, .rightBrace, .leftSquare, .rightSquare, .comma, .dot,
    .colon, .semicolon, .caret, .minus, .plus, .star, .slash, .backslash, .plusPlus,
    .minusMinus, .plusEqual, .minusEqual, .starEqual, .slashEqual, .backslashEqual,
    .leftShiftEqual, .rightShiftEqual, .leftShift, .rightShift, .less, .lessEqual, .greater,
    .greaterEqual, .equal, .lessGreater]

/-- How a symbol is written in a source text. -/
def spelling : Symbol → String
  | .leftParen => "("
  | .rightParen => ")"
  | .leftBrace => "\x7b"
  | .rightBrace => "\x7d"
  | .leftSquare => "["
  | .rightSquare => "]"
  | .comma => ","
  | .dot => "."
  | .colon => ":"
  | .semicolon => ";"
  | .caret => "^"
  | .minus => "-"
  | .plus => "+"
  | .star => "*"
  | .slash => "/"
  | .backslash => "\\"
  | .plusPlus => "++"
  | .minusMinus => "--"
  | .plusEqual => "+="
  | .minusEqual => "-="
  | .starEqual => "*="
  | .slashEqual => "/="
  | .backslashEqual => "\\="
  | .leftShiftEqual => "<<="
  | .rightShiftEqual => ">>="
  | .leftShift => "<<"
  | .rightShift => ">>"
  | .less => "<"
  | .lessEqual => "<="
  | .greater => ">"
  | .greaterEqual => ">="
  | .equal => "="
  | .lessGreater => "<>"

/-- The name a symbol is shown under. -/
def name : Symbol → String
  | .leftParen => "LeftParen"
  | .rightParen => "RightParen"
  | .leftBrace => "LeftBrace"
  | .rightBrace => "RightBrace"
  | .leftSquare => "LeftSquare"
  | .rightSquare => "RightSquare"
  | .comma => "Comma"
  | .dot => "Dot"
  | .colon => "Colon"
  | .semicolon => "Semicolon"
  | .caret => "Caret"
  | .minus => "Minus"
  | .plus => "Plus"
  | .star => "Star"
  | .slash => "Slash"
  | .backslash => "Backslash"
  | .plusPlus => "PlusPlus"
  | .minusMinus => "MinusMinus"
  | .plusEqual => "PlusEqual"
  | .minusEqual => "MinusEqual"
  | .starEqual => "StarEqual"
  | .slashEqual => "SlashEqual"
  | .backslashEqual => "BackslashEqual"
  | .leftShiftEqual => "LeftShiftEqual"
  | .rightShiftEqual => "RightShiftEqual"
  | .leftShift => "LeftShift"
  | .rightShift => "RightShift"
  | .less => "Less"
  | .lessEqual => "LessEqual"
  | .greater => "Greater"
  | .greaterEqual => "GreaterEqual"
  | .equal => "Equal"
  | .lessGreater => "LessGreater"

/-- The list of all symbols leaves none out. -/
theorem mem_all (s : Symbol) : s ∈ all := by cases s <;> decide

end Symbol

end BrightLexer
