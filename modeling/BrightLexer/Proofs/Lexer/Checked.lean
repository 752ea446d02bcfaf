import BrightLexer.Proofs.Scan.Positions
import BrightLexer.Proofs.Source.Cursor

/-!
# A lexer that checks what it does

The lexer cannot fail. It counts lines and columns without a bound, and it keeps the text ahead and the
text of the current token beside the offsets of the two. `Checked` is the same lexer on bounded
counters and on offsets alone. A move has no result when it leads to a line or column that 32 bits
cannot hold; the text ahead and the text of a token are cut out of the source text, which has no result
for an offset inside a character or behind the end; digits are counted by taking one offset from
another; and a token without a value has no result for a kind that asks for one.

`Lexer.Stands` says where the offsets of a lexer are in its source text. As long as it holds, and the
source text has fewer than `2 ^ 32 - 1` characters, nothing in `Checked` is without a result, and each
result is that of the lexer which does not check. The readers are compared here one by one
(`Checked.readWord_eq` and so on), up to `Checked.nextToken_eq`.
-/

namespace BrightLexer

/-! ## The lexer with its checks -/

instance (p : Position) : Decidable p.Fits32 := inferInstanceAs (Decidable (_ ∧ _))

namespace Checked

/-- The text ahead of a cursor, cut out of the source text. -/
def ahead (c : Cursor) : Option (List Char) := dropBytes? c.position.offset c.source

/-- Moves past the current character, if the place behind it can be counted. -/
def advance (c : Cursor) : Option Cursor := do
  match ← ahead c with
  | [] => some c
  | ch :: rest =>
    if (c.position.next ch).Fits32 then some ⟨ch :: c.passed, rest, c.position.next ch⟩ else none

/-- Moves past `n` characters, or to the end if there are fewer, and looks ahead from there. -/
def forward (c : Cursor) : Nat → Option Cursor
  | 0 => (ahead c).map fun _ => c
  | n + 1 => (advance c).bind (forward · n)

/-- How many digits are ahead, counted by the offsets before and behind them. -/
def digitCount (c : Cursor) : Option Nat := do
  let d ← forward c (cutDigits (← ahead c)).taken.length
  if c.position.offset ≤ d.position.offset then some (d.position.offset - c.position.offset) else none

/-- Reads the next `n` characters into the current token, whose text is then cut out anew. -/
def take (l : Lexer) (n : Nat) : Option Lexer := do
  let cursor ← forward l.cursor n
  let text ← cursor.sliceFrom? l.start.offset
  return { l with cursor := cursor, text := text }

/-- A token of the given kind, unless the kind asks for a value. -/
def plainToken (l : Lexer) (kind : Kind) : Option Token :=
  Token.plain? kind (String.ofList l.text) l.span

/-- Reads a word. -/
def readWord (l : Lexer) : Option (Except Fault Token × Lexer) := do
  let word := cutWord (← ahead l.cursor)
  let l ← take l word.taken.length
  let token ← plainToken l <| if word.designated then .identifier
    else ((Keyword.ofText? l.text).map .keyword).getD .identifier
  return (.ok token, l)

/-- Reads a numeral. -/
def readNumeral (l : Lexer) : Option (Except Fault Token × Lexer) := do
  let digits ← digitCount l.cursor
  let numeral := cutNumeral (← ahead l.cursor)
  let l ← take l numeral.taken.length
  match numeral.shape.bind fun shape => numeralValue { shape with digits := digits }.kind l.text with
  | .ok literal => some (.ok (l.literalToken literal), l)
  | .error defect => some (.error (l.numeralFault defect), l)

/-- Reads a quoted text. -/
def readQuotation (l : Lexer) : Option (Except Fault Token × Lexer) := do
  let quotation := cutQuotation (← ahead l.cursor)
  let l ← take l quotation.taken.length
  match quotation.content with
  | some content => some (.ok (l.literalToken (.string (String.ofList content))), l)
  | none => some (.error (l.fault .unterminatedString), l)

/-- Reads a symbol. -/
def readSymbol (l : Lexer) : Option (Except Fault Token × Lexer) := do
  let rest ← ahead l.cursor
  match symbolAt? rest with
  | some (spelling, kind) =>
    let l ← take l spelling.length
    return (.ok (← plainToken l kind), l)
  | none => return (.error (l.fault (.unexpectedChar (rest.headD '\x00'))), ← take l 1)

/-- Reads the token or fault that starts at the cursor. -/
def readToken (l : Lexer) : Option (Except Fault Token × Lexer) := do
  match ← ahead l.cursor with
  | [] => return (.ok (← plainToken l .eof), l)
  | c :: _ =>
    if c = '\n' then
      let l ← take l 1
      return (.ok (← plainToken l .newline), l)
    else if c = '"' then readQuotation l
    else if c.isDigit then readNumeral l
    else if isWordStart c then readWord l
    else readSymbol l

/-- Passes over a byte order mark at the cursor, the first time it is asked to. -/
def skipMark (l : Lexer) : Option Lexer :=
  if l.markAllowed then do
    let rest ← ahead l.cursor
    let cursor ← if rest.head? = some byteOrderMark then advance l.cursor else some l.cursor
    return { l with markAllowed := false, cursor := cursor }
  else some l

/-- Passes over blanks and comments to where a token starts. -/
def skipTrivia (l : Lexer) : Option Lexer := do
  let cursor ← forward l.cursor (cutTrivia (← ahead l.cursor)).taken.length
  return { l with cursor := cursor }.startToken

/-- Reads the next token or fault. -/
def nextToken (l : Lexer) : Option (Except Fault Token × Lexer) := do
  readToken (← skipTrivia (← skipMark l))

/-- Hands out the next token or fault, until the end token or a fault was handed out. -/
def next? (l : Lexer) : Option (Option (Except Fault Token) × Lexer) :=
  if l.finished then some (none, l)
  else do
    match ← nextToken l with
    | (.ok token, l) => return (some (.ok token), { l with finished := token.kind == .eof })
    | (.error fault, l) => return (some (.error fault), { l with finished := true })

end Checked

/-! ## A lexer in its source text -/

/-- The token start of a lexer is behind `front`, the text of the token follows, and then its cursor. -/
structure Lexer.Stands (source front : List Char) (l : Lexer) : Prop where
  /-- The source text is what is before the token start, the text of the token, and what is ahead. -/
  source : source = front ++ l.text ++ l.rest
  /-- The cursor is behind the text of the token. -/
  cursor : l.cursor = .between (front ++ l.text) l.rest
  /-- The token start is before it. -/
  start : l.start = Position.origin.after front

section
variable {source front : List Char} {l : Lexer}

namespace Lexer

/-- A new lexer stands at the start of its source. -/
theorem stands_ofSource (source : String) : (ofSource source).Stands source.toList [] :=
  ⟨rfl, rfl, rfl⟩

/-- The cursor of a lexer that stands in a source is in that source. -/
theorem Stands.cursor_in (h : l.Stands source front) : l.cursor.In source :=
  ⟨front ++ l.text, h.source, h.cursor⟩

/-- Taking characters leaves the start of the token where it is and moves the cursor behind what is taken.
-/
theorem Stands.take (h : l.Stands source front) (n : Nat) : (l.take n).Stands source front where
  source := by
    rw [rest_take, Lexer.take, List.append_assoc, List.append_assoc, List.take_append_drop,
      ← List.append_assoc]
    exact h.source
  cursor := by
    rw [rest_take, Lexer.take, ← List.append_assoc, ← Cursor.forward_between, ← h.cursor]
  start := h.start

/-- A token that is started stands where the cursor does. -/
theorem exists_stands_startToken (h : l.cursor.In source) :
    ∃ front, l.startToken.Stands source front := by
  obtain ⟨front, hsource, hc⟩ := h
  refine ⟨front, ?_, ?_, ?_⟩
  · rw [startToken, List.append_nil]
    exact hsource
  · rw [startToken, List.append_nil]
    exact hc
  · exact congrArg Cursor.position hc

end Lexer

/-! ## What the checks ask for -/

/-- Digits take one byte. -/
theorem byteLength_of_isDigit {cs : List Char} (h : ∀ c ∈ cs, c.isDigit = true) :
    byteLength cs = cs.length := by
  induction cs with
  | nil => rfl
  | cons c cs ih =>
    obtain ⟨hc, hcs⟩ := List.forall_mem_cons.1 h
    have hle : c.val ≤ 0x7f := by
      simp only [Char.isDigit, Bool.and_eq_true, decide_eq_true_eq] at hc
      exact Nat.le_trans hc.2 (by decide)
    have hsize : c.utf8Size = 1 := if_pos hle
    rw [byteLength_cons, hsize, ih hcs, List.length_cons, Nat.add_comm]

/-- The digits of a numeral are those at its front. -/
theorem digits_cutNumeral {cs : List Char} {shape : NumeralShape}
    (h : (cutNumeral cs).shape = .ok shape) : shape.digits = (cutDigits cs).taken.length := by
  unfold cutNumeral at h
  dsimp only at h
  split at h
  · cases h
  · split at h
    · cases h
    · cases h
      rfl

/-! ## No check fails -/

namespace Checked

section
variable {c : Cursor} (h : c.In source)
include h

/-- The offset of the cursor is one at which the source can be cut. -/
theorem ahead_eq : ahead c = some c.rest := by
  rw [ahead, h.source_eq, h.dropBytes?_eq]

variable (hs : source.length < 2 ^ 32 - 1)
include hs

/-- No counter of 32 bits overflows at one character, as the source is not long enough. -/
theorem advance_eq : advance c = some c.advance := by
  rw [advance, ahead_eq h, Option.bind_eq_bind, Option.bind_some, Cursor.advance]
  obtain ⟨front, hsource, hc⟩ := h
  cases hrest : c.rest with
  | nil => rfl
  | cons ch back =>
    have hfits : (c.position.next ch).Fits32 := by
      have hlength : (front ++ [ch]).length < 2 ^ 32 - 1 := by
        rw [hsource, hrest] at hs
        simp only [List.length_append, List.length_cons, List.length_nil] at hs ⊢
        omega
      have hposition := fits32_origin_after hlength
      rw [Position.after_append] at hposition
      rw [hc]
      exact hposition
    exact if_pos hfits

/-- So none does at several characters. -/
theorem forward_eq (n : Nat) : forward c n = some (c.forward n) := by
  induction n generalizing c with
  | zero => rw [forward, ahead_eq h]; rfl
  | succ n ih =>
    rw [forward, advance_eq h hs, Option.bind_some, Cursor.forward]
    exact ih (h.forward 1)

/-- The digits ahead take one byte each, so their offsets count them. -/
theorem digitCount_eq : digitCount c = some (cutDigits c.rest).taken.length := by
  have hbytes := byteLength_of_isDigit (all_taken_cutWhile Char.isDigit c.rest)
  have htaken : c.rest.take (cutDigits c.rest).taken.length = (cutDigits c.rest).taken :=
    Cut.take_length_taken (whole_cutDigits c.rest)
  rw [digitCount, ahead_eq h, Option.bind_eq_bind, Option.bind_some, forward_eq h hs,
    Option.bind_eq_bind, Option.bind_some, Cursor.position_forward, htaken, Position.offset_after,
    if_pos (Nat.le_add_right ..), Nat.add_sub_cancel_left]
  exact congrArg some hbytes

end

/-- The check that a kind asks for no value passes if it does not. -/
theorem plainToken_eq (l : Lexer) {kind : Kind} (h : kind.isLiteral = false) :
    plainToken l kind = some (l.plainToken kind) := by
  rw [plainToken, Token.plain?, h]
  rfl

section
variable (h : l.Stands source front)
include h

/-- The text ahead of a lexer is what its cursor finds ahead. -/
theorem ahead_cursor_eq : ahead l.cursor = some l.rest := ahead_eq h.cursor_in

variable (hs : source.length < 2 ^ 32 - 1)
include hs

/-- Taking characters never fails. -/
theorem take_eq (n : Nat) : take l n = some (l.take n) := by
  have htake := h.take n
  have hcursor : forward l.cursor n = some (l.take n).cursor := forward_eq h.cursor_in hs n
  have htext : (l.take n).cursor.sliceFrom? l.start.offset = some (l.take n).text := by
    rw [htake.cursor, h.start, Position.offset_origin_after, Cursor.sliceFrom?_between]
  rw [take, hcursor, Option.bind_eq_bind, Option.bind_some, htext]
  rfl

/-- A word is never of a kind that asks for a value. -/
theorem readWord_eq : readWord l = some (.ok l.readWord.1, l.readWord.2) := by
  simp only [readWord, ahead_cursor_eq h, take_eq h hs, Option.bind_eq_bind, Option.bind_some]
  rw [plainToken_eq _ (isLiteral_wordKind _ _)]
  rfl

/-- The text and the digits of a numeral are cut off at offsets where the source can be cut. -/
theorem readNumeral_eq : readNumeral l = some l.readNumeral := by
  have hdigits : digitCount l.cursor = some (cutDigits l.rest).taken.length :=
    digitCount_eq h.cursor_in hs
  have hshape : ((cutNumeral l.rest).shape.bind fun shape =>
        numeralValue { shape with digits := (cutDigits l.rest).taken.length }.kind
          (l.take (cutNumeral l.rest).taken.length).text) =
      (cutNumeral l.rest).shape.bind fun shape =>
        numeralValue shape.kind (l.take (cutNumeral l.rest).taken.length).text := by
    cases hc : (cutNumeral l.rest).shape with
    | error defect => rfl
    | ok shape => rw [← digits_cutNumeral hc]; rfl
  simp only [readNumeral, hdigits, ahead_cursor_eq h, take_eq h hs, Option.bind_eq_bind,
    Option.bind_some]
  rw [hshape, Lexer.readNumeral]
  cases (cutNumeral l.rest).shape.bind fun shape =>
      numeralValue shape.kind (l.take (cutNumeral l.rest).taken.length).text with
  | ok literal => rfl
  | error defect => rfl

/-- A quoted text is read as it is without checks. -/
theorem readQuotation_eq : readQuotation l = some l.readQuotation := by
  simp only [readQuotation, ahead_cursor_eq h, take_eq h hs, Option.bind_eq_bind, Option.bind_some]
  rw [Lexer.readQuotation]
  cases (cutQuotation l.rest).content with
  | some content => rfl
  | none => rfl

/-- No symbol is of a kind that asks for a value. -/
theorem readSymbol_eq : readSymbol l = some l.readSymbol := by
  simp only [readSymbol, ahead_cursor_eq h, take_eq h hs, Option.bind_eq_bind, Option.bind_some]
  rw [Lexer.readSymbol]
  cases hsymbol : symbolAt? l.rest with
  | none => rfl
  | some entry =>
    dsimp only
    rw [plainToken_eq _ (isLiteral_of_symbolAt? hsymbol)]
    rfl

/-- None of the readers fails a check, by cases on the first character. -/
theorem readToken_eq : readToken l = some l.readToken := by
  simp only [readToken, ahead_cursor_eq h, take_eq h hs, Option.bind_eq_bind, Option.bind_some]
  rw [Lexer.readToken]
  cases l.rest with
  | nil =>
    dsimp only
    rw [plainToken_eq _ rfl]
    rfl
  | cons c cs =>
    dsimp only
    rw [plainToken_eq _ rfl, readQuotation_eq h hs, readNumeral_eq h hs, readWord_eq h hs,
      readSymbol_eq h hs, apply_ite some, apply_ite some, apply_ite some, apply_ite some]
    rfl

end

/-! ### The next token -/

/-- A byte order mark is passed over without an overflow. -/
theorem skipMark_eq (h : l.cursor.In source) (hs : source.length < 2 ^ 32 - 1) :
    skipMark l = some l.skipMark := by
  have hcurrent : l.cursor.current? = l.cursor.rest.head? := List.head?_eq_getElem?.symm
  rw [skipMark, Lexer.skipMark, hcurrent]
  simp only [ahead_eq h, advance_eq h hs, Option.bind_eq_bind, Option.bind_some]
  split
  · split
    · rfl
    · rfl
  · rfl

/-- So is what stands between tokens. -/
theorem skipTrivia_eq (h : l.cursor.In source) (hs : source.length < 2 ^ 32 - 1) :
    skipTrivia l = some l.skipTrivia := by
  simp only [skipTrivia, ahead_eq h, forward_eq h hs, Option.bind_eq_bind, Option.bind_some]
  rfl

/-- With all checks, the next token is the one that is found without them. -/
theorem nextToken_eq (h : l.cursor.In source) (hs : source.length < 2 ^ 32 - 1) :
    nextToken l = some l.nextToken := by
  obtain ⟨n, hn⟩ := l.cursor_skipMark
  have hmark : l.skipMark.cursor.In source := hn ▸ h.forward n
  -- Between here and the new token start the text of the last token is stale, so `Stands` does not
  -- hold there and only the cursor is followed.
  obtain ⟨front, hfront⟩ := Lexer.exists_stands_startToken (l := { l.skipMark with cursor := _ })
    (hmark.forward (cutTrivia l.skipMark.rest).taken.length)
  rw [nextToken, skipMark_eq h hs, Option.bind_eq_bind, Option.bind_some, skipTrivia_eq hmark hs,
    Option.bind_some]
  exact readToken_eq hfront hs

/-- Behind the end, nothing is read and nothing checked. -/
theorem next?_eq (h : l.cursor.In source) (hs : source.length < 2 ^ 32 - 1) :
    next? l = some l.next? := by
  rw [next?, Lexer.next?, nextToken_eq h hs]
  split
  · rfl
  · rcases l.nextToken with ⟨fault | token, m⟩
    · rfl
    · rfl

end Checked

end

end BrightLexer
