import BrightLexer.Lexer.Fault
import BrightLexer.Lexer.Numeral
import BrightLexer.Lexer.Quotation
import BrightLexer.Lexer.SymbolTable
import BrightLexer.Lexer.Trivia
import BrightLexer.Lexer.Word
import BrightLexer.Source.Cursor
import BrightLexer.Token.Basic

/-!
# The lexer

A lexer is a cursor together with the place where the current token starts and the text read since
then. `Lexer.nextToken` passes over blanks and comments, marks the start of a token there, and reads
one token or one fault; after a fault the cursor stands behind the offending text. At the end of the
text it answers with the end token, as often as it is asked.

The readers of single tokens (`readWord`, `readNumeral`, `readQuotation`, `readSymbol`) can be called
on their own. They go on from wherever the lexer is and do not start a new token, so the text, the
value and the span of what they read begin at the last token start.

`nextToken_rest` is the progress of the lexer: unless the text is at its end, each call leaves less
of it.
-/

namespace BrightLexer

/-- A lexer over a source text. -/
structure Lexer where
  /-- Where the lexer is in the text. -/
  cursor : Cursor
  /-- Where the current token starts. -/
  start : Position
  /-- What was read of the current token. -/
  text : List Char
  /-- Whether a byte order mark may still be passed over. -/
  markAllowed : Bool
  /-- Whether the end token or a fault was handed out by `next?`. -/
  finished : Bool

namespace Lexer

/-- The lexer at the start of a source text. -/
def ofSource (source : String) : Lexer :=
  ⟨.ofSource source.toList, .origin, [], true, false⟩

/-- The text still ahead. -/
def rest (l : Lexer) : List Char := l.cursor.rest

/-- The span from the start of the current token to the cursor. -/
def span (l : Lexer) : Span := .between l.start l.cursor.position

/-- Reads the next `n` characters into the current token. -/
def take (l : Lexer) (n : Nat) : Lexer :=
  { l with cursor := l.cursor.forward n, text := l.text ++ l.rest.take n }

/-- Marks the place of the cursor as the start of a token. -/
def startToken (l : Lexer) : Lexer := { l with start := l.cursor.position, text := [] }

/-- A token of the given kind made of the text read since the token start. -/
def plainToken (l : Lexer) (kind : Kind) : Token := .plain kind (String.ofList l.text) l.span

/-- A literal token made of the text read since the token start. -/
def literalToken (l : Lexer) (literal : Literal) : Token :=
  .ofLiteral literal (String.ofList l.text) l.span

/-- A fault at the token start. -/
def fault (l : Lexer) (cause : FaultCause) : Fault := .ofPosition l.start cause

/-- The fault of a numeral made of the text read since the token start. -/
def numeralFault (l : Lexer) (defect : NumeralDefect) : Fault :=
  l.fault (.malformedNumeral (String.ofList l.text) defect.reason)

/-- Whether a comment starts at the cursor. -/
def atComment (l : Lexer) : Bool := opensComment l.rest

/-- Reads up to the end of the line. -/
def skipLine (l : Lexer) : Lexer := l.take (cutLine l.rest).taken.length

/-- Reads a word. The reserved words are recognised by all the text since the token start. -/
def readWord (l : Lexer) : Token × Lexer :=
  let word := cutWord l.rest
  let l := l.take word.taken.length
  let kind := if word.designated then .identifier
    else ((Keyword.ofText? l.text).map .keyword).getD .identifier
  (l.plainToken kind, l)

/-- Reads a numeral. Its value is that of all the text since the token start. -/
def readNumeral (l : Lexer) : Except Fault Token × Lexer :=
  let numeral := cutNumeral l.rest
  let l := l.take numeral.taken.length
  match numeral.shape.bind fun shape => numeralValue shape.kind l.text with
  | .ok literal => (.ok (l.literalToken literal), l)
  | .error defect => (.error (l.numeralFault defect), l)

/-- Reads a quoted text. -/
def readQuotation (l : Lexer) : Except Fault Token × Lexer :=
  let quotation := cutQuotation l.rest
  let l := l.take quotation.taken.length
  match quotation.content with
  | some content => (.ok (l.literalToken (.string (String.ofList content))), l)
  | none => (.error (l.fault .unterminatedString), l)

/-- Reads a symbol. A character that starts none is passed over, and the end of the text is reported
as a NUL. -/
def readSymbol (l : Lexer) : Except Fault Token × Lexer :=
  match symbolAt? l.rest with
  | some (spelling, kind) => let l := l.take spelling.length; (.ok (l.plainToken kind), l)
  | none => (.error (l.fault (.unexpectedChar (l.rest.headD '\x00'))), l.take 1)

/-- Reads the token or fault that starts at the cursor. -/
def readToken (l : Lexer) : Except Fault Token × Lexer :=
  match l.rest with
  | [] => (.ok (l.plainToken .eof), l)
  | c :: _ =>
    if c = '\n' then let l := l.take 1; (.ok (l.plainToken .newline), l)
    else if c = '"' then l.readQuotation
    else if c.isDigit then l.readNumeral
    else if isWordStart c then let (token, l) := l.readWord; (.ok token, l)
    else l.readSymbol

/-- Passes over a byte order mark at the cursor, the first time it is asked to. -/
def skipMark (l : Lexer) : Lexer :=
  if l.markAllowed then
    { l with
      markAllowed := false
      cursor := if l.cursor.current? = some byteOrderMark then l.cursor.advance else l.cursor }
  else l

/-- Passes over blanks and comments to where a token starts. -/
def skipTrivia (l : Lexer) : Lexer :=
  { l with cursor := l.cursor.forward (cutTrivia l.rest).taken.length }.startToken

/-- Reads the next token or fault. -/
def nextToken (l : Lexer) : Except Fault Token × Lexer := l.skipMark.skipTrivia.readToken

/-- Hands out the next token or fault, until the end token or a fault was handed out. -/
def next? (l : Lexer) : Option (Except Fault Token) × Lexer :=
  if l.finished then (none, l)
  else match l.nextToken with
    | (.ok token, l) => (some (.ok token), { l with finished := token.kind == .eof })
    | (.error fault, l) => (some (.error fault), { l with finished := true })

@[simp] theorem rest_take (l : Lexer) (n : Nat) : (l.take n).rest = l.rest.drop n := by
  simp [take, rest]

/-- At the end of the text the end token is read, and nothing changes. -/
theorem readToken_of_rest_eq_nil {l : Lexer} (h : l.rest = []) :
    l.readToken = (.ok (l.plainToken .eof), l) := by
  simp [readToken, h]

/-- Before the end of the text, reading a token or fault leaves less of it. -/
theorem length_rest_readToken_lt {l : Lexer} (h : l.rest ≠ []) :
    l.readToken.2.rest.length < l.rest.length := by
  obtain ⟨c, cs, hc⟩ := List.exists_cons_of_ne_nil h
  have take_lt (n : Nat) (hn : 0 < n) : (l.take n).rest.length < l.rest.length := by
    simp [hc]; omega
  simp only [readToken, hc]
  split
  · simp [hc]
  split
  · have := take_lt _ (List.length_pos_iff.2 (taken_cutQuotation_ne_nil c cs))
    simp only [readQuotation, hc] at this ⊢
    split <;> simpa using this
  split
  · next hd =>
    have := take_lt _ (List.length_pos_iff.2 (taken_cutNumeral_ne_nil cs hd))
    simp only [readNumeral, hc] at this ⊢
    split <;> simpa using this
  split
  · next hw =>
    have := take_lt _ (List.length_pos_iff.2
      (taken_cutWord_ne_nil cs (isWordChar_of_isWordStart hw)))
    simpa [readWord, hc] using this
  · simp only [readSymbol]
    split
    · next hs => simpa [hc] using take_lt _ (length_pos_of_symbolAt? hs)
    · simp [hc]

/-- Passing over a byte order mark leaves no more text ahead. -/
@[simp] theorem length_rest_skipMark_le (l : Lexer) : l.skipMark.rest.length ≤ l.rest.length := by
  unfold skipMark rest
  split
  · dsimp only
    split <;> simp
  · exact Nat.le_refl _

/-- Passing over blanks and a comment leaves the text behind them ahead. -/
@[simp] theorem rest_skipTrivia (l : Lexer) :
    l.skipTrivia.rest = l.rest.drop (cutTrivia l.rest).taken.length := by
  simp [skipTrivia, startToken, rest]

/-- A call of `nextToken` answers with the end token, or leaves less of the text. -/
theorem nextToken_rest (l : Lexer) :
    (∃ token, l.nextToken.1 = .ok token ∧ token.kind = .eof) ∨
      l.nextToken.2.rest.length < l.rest.length := by
  by_cases h : l.skipMark.skipTrivia.rest = []
  · rw [nextToken, readToken_of_rest_eq_nil h]
    exact .inl ⟨_, rfl, rfl⟩
  · refine .inr (Nat.lt_of_lt_of_le (length_rest_readToken_lt h) ?_)
    have := length_rest_skipMark_le l
    simp
    omega

end Lexer

end BrightLexer
