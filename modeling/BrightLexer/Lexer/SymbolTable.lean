import BrightLexer.Token.Kind

/-!
# The table of symbols

Symbols are matched longest first: the table lists every spelling before those that it continues
(`symbolTable_longest_first`), so the first entry that starts a text is the longest one that does. The
question mark is short for the reserved word `print`.
-/

namespace BrightLexer

/-- The spelling of each symbol and the kind of its tokens. -/
def symbolTable : List (String × Kind) :=
  (([.leftShiftEqual, .rightShiftEqual, .lessEqual, .lessGreater, .leftShift, .greaterEqual,
    .rightShift, .plusPlus, .plusEqual, .minusMinus, .minusEqual, .starEqual, .slashEqual,
    .backslashEqual, .leftParen, .rightParen, .leftBrace, .rightBrace, .leftSquare, .rightSquare,
    .comma, .dot, .colon, .semicolon, .caret, .equal, .plus, .minus, .star, .slash, .backslash,
    .less, .greater] : List Symbol).map fun s => (s.spelling, Kind.symbol s)) ++
  [("?", .keyword .print)]

/-- The entry of the longest symbol at the front of a text. -/
def symbolAt? (cs : List Char) : Option (String × Kind) :=
  symbolTable.find? fun entry => entry.1.toList.isPrefixOf cs

/-- No spelling in the table is longer than one listed before it. -/
theorem symbolTable_longest_first :
    symbolTable.Pairwise fun a b => b.1.length ≤ a.1.length := by decide +kernel

/-- Every symbol has a spelling. -/
theorem length_pos_of_symbolAt? {cs : List Char} {entry : String × Kind}
    (h : symbolAt? cs = some entry) : 0 < entry.1.length := by
  have key : ∀ entry ∈ symbolTable, 0 < entry.1.length := by decide +kernel
  exact key entry (List.mem_of_find?_eq_some h)

end BrightLexer
