import BrightLexer.Proofs.Lexer.Checked
import BrightLexer.Proofs.Scan.Interleaving

/-!
# Any steps of one lexer

The readers of single tokens can be called in any order and anywhere, also on text that they were not
made for. They do not start a token, so what they read may begin far back, at the last place where one
was started, and a word or a value is then made of everything since that place.

`steps_sound` says what holds all the same: no operation of the lexer is ever without a result
(`Checked`), the cursor never moves back, token start and cursor have the positions of their offsets
(`Lexer.InPlace`), and a token is the text of its span (`Token.ReadBy`). What a step can do is said once,
by `Lexer.Reads`: it may start a token further on, and then reads some more characters into it.
-/

namespace BrightLexer

/-- A step of a lexer. -/
inductive Step where
  /-- A request for the next token. -/
  | request (r : Request)
  /-- `readWord` -/
  | word
  /-- `readNumeral` -/
  | numeral
  /-- `readQuotation` -/
  | quotation
  /-- `readSymbol` -/
  | symbol
  /-- `atComment`, which only looks. -/
  | atComment
  /-- `skipLine` -/
  | skipLine
deriving DecidableEq

/-- What a step answers. -/
inductive Answer where
  /-- Nothing to hand out. -/
  | nothing
  /-- A token or a fault. -/
  | item (item : Except Fault Token)
  /-- Whether a comment starts at the cursor. -/
  | comment (found : Bool)
deriving DecidableEq

/-- The answer to a request. -/
def Answer.ofItem? : Option (Except Fault Token) → Answer
  | some found => .item found
  | none => .nothing

namespace Lexer

/-- What a step answers, and the lexer behind it. -/
def step (l : Lexer) : Step → Answer × Lexer
  | .request r => (.ofItem? (l.serve r).1, (l.serve r).2)
  | .word => (.item (.ok l.readWord.1), l.readWord.2)
  | .numeral => (.item l.readNumeral.1, l.readNumeral.2)
  | .quotation => (.item l.readQuotation.1, l.readQuotation.2)
  | .symbol => (.item l.readSymbol.1, l.readSymbol.2)
  | .atComment => (.comment l.atComment, l)
  | .skipLine => (.nothing, l.skipLine)

/-- What some steps answer, and the lexer behind them. -/
def run (l : Lexer) : List Step → List Answer × Lexer
  | [] => ([], l)
  | s :: steps =>
    let (answers, m) := (l.step s).2.run steps
    ((l.step s).1 :: answers, m)

end Lexer

namespace Checked

/-- A request to the lexer that checks what it does. -/
def serve (l : Lexer) : Request → Option (Option (Except Fault Token) × Lexer)
  | .nextToken => do
    let (item, m) ← nextToken l
    return (some item, m)
  | .next => next? l

/-- A step of the lexer that checks what it does. -/
def step (l : Lexer) : Step → Option (Answer × Lexer)
  | .request r => do
    let (item, m) ← serve l r
    return (.ofItem? item, m)
  | .word => do
    let (item, m) ← readWord l
    return (.item item, m)
  | .numeral => do
    let (item, m) ← readNumeral l
    return (.item item, m)
  | .quotation => do
    let (item, m) ← readQuotation l
    return (.item item, m)
  | .symbol => do
    let (item, m) ← readSymbol l
    return (.item item, m)
  | .atComment => do return (.comment (opensComment (← ahead l.cursor)), l)
  | .skipLine => do return (.nothing, ← take l (cutLine (← ahead l.cursor)).taken.length)

/-- Some steps of the lexer that checks what it does. -/
def run (l : Lexer) : List Step → Option (List Answer × Lexer)
  | [] => some ([], l)
  | s :: steps => do
    let (answer, m) ← step l s
    let (answers, m) ← run m steps
    return (answer :: answers, m)

end Checked

/-! ## What holds behind any steps -/

/-- Where a lexer is in a source text. -/
structure Lexer.InPlace (source : List Char) (l : Lexer) : Prop where
  /-- The token start is at the cursor or before it, and the cursor is in the source text. -/
  ordered : l.start.offset ≤ l.cursor.position.offset ∧
    l.cursor.position.offset ≤ byteLength source
  /-- Both are between characters, and have the line and the column that the text before them ends on.
  Between the two is the text of the current token. -/
  positions : ∃ front back, source = front ++ l.text ++ back ∧ l.rest = back ∧
    l.span.StandsBehind front ∧ (Span.point l.cursor.position).StandsBehind (front ++ l.text)
  /-- The digits ahead, here and further on, are counted by offsets. -/
  digits : ∀ n, Checked.digitCount (l.cursor.forward n) =
    some (cutDigits (l.cursor.forward n).rest).taken.length

/-- What is known of a token of a source text, of which `l` is the lexer behind it. -/
structure Token.ReadBy (source : List Char) (l : Lexer) (t : Token) : Prop where
  /-- Its text is the text of its span. -/
  text : t.span.text? source = .ok t.text.toList
  /-- Its span ends at the cursor. -/
  stop : t.span.stop = l.cursor.position.offset
  /-- Its line is that of its span. -/
  line : t.line = t.span.line
  /-- It has a value if it is a string or a number, and only then. -/
  literal : t.literal.isSome = true ↔ t.kind = .string ∨ ∃ n, t.kind = .number n
  /-- Its kind is that of its value. -/
  kind : ∀ literal, t.literal = some literal → literal.kind = t.kind

/-- What is known of a step. -/
structure Step.Sound (source : List Char) (l : Lexer) (s : Step) : Prop where
  /-- No check fails. -/
  checked : Checked.step l s = some (l.step s)
  /-- The lexer behind it is in its place. -/
  placed : (l.step s).2.InPlace source
  /-- The cursor does not move back. -/
  forward : l.cursor.position.offset ≤ (l.step s).2.cursor.position.offset
  /-- Looking for a comment changes nothing. -/
  comment : s = .atComment → (l.step s).2 = l
  /-- A token is the text of its span. -/
  token : ∀ token, (l.step s).1 = .item (.ok token) → token.ReadBy source (l.step s).2

section
variable {source front : List Char} {l m : Lexer} {item : Except Fault Token}

/-! ## What a step does -/

namespace Lexer

/-- A token is handed out with the text and the span of the lexer behind it. -/
def HandsOut (m : Lexer) (item : Except Fault Token) : Prop :=
  ∀ token, item = .ok token → (∃ kind : Kind, kind.isLiteral = false ∧ token = m.plainToken kind) ∨
    ∃ literal, token = m.literalToken literal

/-- From `l`, the text of the current token was read on as far as `m`, and `item` handed out. -/
structure Reads (l m : Lexer) (item : Except Fault Token) : Prop where
  /-- Some more characters were read. -/
  take : ∃ n, m = l.take n
  /-- A token is made of all that was read. -/
  handsOut : m.HandsOut item

/-- A token without a value is handed out if its kind asks for none. -/
theorem handsOut_plainToken (m : Lexer) {kind : Kind} (h : kind.isLiteral = false) :
    m.HandsOut (.ok (m.plainToken kind)) := by
  rintro token ⟨⟩
  exact .inl ⟨kind, h, rfl⟩

/-- A token with a value may always be handed out. -/
theorem handsOut_literalToken (m : Lexer) (literal : Literal) :
    m.HandsOut (.ok (m.literalToken literal)) := by
  rintro token ⟨⟩
  exact .inr ⟨literal, rfl⟩

/-- A fault is no token. -/
theorem handsOut_fault (m : Lexer) (fault : Fault) : m.HandsOut (.error fault) := by
  rintro token ⟨⟩

/-- Reading a word takes its characters and hands out a token without a value. -/
theorem reads_word (l : Lexer) : Reads l l.readWord.2 (.ok l.readWord.1) where
  take := ⟨_, rfl⟩
  handsOut := handsOut_plainToken _ (isLiteral_wordKind _ _)

/-- Reading a numeral takes its characters, and hands out a number unless it is malformed. -/
theorem reads_numeral (l : Lexer) : Reads l l.readNumeral.2 l.readNumeral.1 := by
  rw [readNumeral]
  split
  · exact ⟨⟨_, rfl⟩, handsOut_literalToken _ _⟩
  · exact ⟨⟨_, rfl⟩, handsOut_fault _ _⟩

/-- Reading a quoted text takes it up to where it ends, and hands out a string if it is closed. -/
theorem reads_quotation (l : Lexer) : Reads l l.readQuotation.2 l.readQuotation.1 := by
  rw [readQuotation]
  split
  · exact ⟨⟨_, rfl⟩, handsOut_literalToken _ _⟩
  · exact ⟨⟨_, rfl⟩, handsOut_fault _ _⟩

/-- Reading a symbol takes its spelling, or a single character that starts none. -/
theorem reads_symbol (l : Lexer) : Reads l l.readSymbol.2 l.readSymbol.1 := by
  rw [readSymbol]
  split
  · next hs => exact ⟨⟨_, rfl⟩, handsOut_plainToken _ (isLiteral_of_symbolAt? hs)⟩
  · exact ⟨⟨_, rfl⟩, handsOut_fault _ _⟩

/-- Taking nothing changes nothing. -/
theorem take_zero (l : Lexer) : l.take 0 = l := by
  rw [take, List.take_zero, List.append_nil]
  rfl

/-- Reading a token is one of these, or takes nothing at the end and one character at a line end. -/
theorem reads_token (l : Lexer) : Reads l l.readToken.2 l.readToken.1 := by
  rw [readToken]
  split
  · exact ⟨⟨0, l.take_zero.symm⟩, handsOut_plainToken _ rfl⟩
  · split
    · exact ⟨⟨1, rfl⟩, handsOut_plainToken _ rfl⟩
    · split
      · exact l.reads_quotation
      · split
        · exact l.reads_numeral
        · split
          · exact l.reads_word
          · exact l.reads_symbol

/-- From `l`, a lexer over a source text, the cursor goes on to `m`. -/
structure GoesOn (source : List Char) (l m : Lexer) : Prop where
  /-- The cursor is moved forward. -/
  cursor : ∃ n, m.cursor = l.cursor.forward n
  /-- The lexer stands in the source text. -/
  stands : ∃ front, m.Stands source front

theorem GoesOn.refl (h : l.Stands source front) : GoesOn source l l := ⟨⟨0, rfl⟩, front, h⟩

/-- Whether the end was handed out has no part in where a lexer stands. -/
theorem GoesOn.withFinished (h : GoesOn source l m) (finished : Bool) :
    GoesOn source l (m.withFinished finished) := by
  obtain ⟨hcursor, front, hstands⟩ := h
  exact ⟨hcursor, front, hstands.source, hstands.cursor, hstands.start⟩

/-- Where a reader takes text, the lexer goes on in the source. -/
theorem Reads.goesOn (h : Reads l m item) (hl : l.Stands source front) : GoesOn source l m := by
  obtain ⟨n, rfl⟩ := h.take
  exact ⟨⟨n, rfl⟩, front, hl.take n⟩

/-- Where a token is started, the text of the one before is forgotten. -/
theorem nextToken_goesOn (h : l.cursor.In source) :
    GoesOn source l l.nextToken.2 ∧ l.nextToken.2.HandsOut l.nextToken.1 := by
  obtain ⟨n, hn⟩ := l.cursor_skipMark
  have hmark : l.skipMark.cursor.In source := hn ▸ h.forward n
  obtain ⟨front, hfront⟩ : ∃ front, l.skipMark.skipTrivia.Stands source front :=
    exists_stands_startToken (hmark.forward _)
  have hreads := l.skipMark.skipTrivia.reads_token
  exact ⟨⟨l.cursor_nextToken, (hreads.goesOn hfront).stands⟩, hreads.handsOut⟩

/-- A request moves the lexer on, and what it hands out is made of the text taken. -/
theorem serve_goesOn (h : l.Stands source front) (r : Request) :
    GoesOn source l (l.serve r).2 ∧
      ∀ item, (l.serve r).1 = some item → (l.serve r).2.HandsOut item := by
  obtain ⟨hgoes, hhands⟩ := nextToken_goesOn h.cursor_in
  rcases l.serve_cases r with ⟨-, -, hs⟩ | ⟨-, -, hs⟩ | ⟨-, hs⟩
  · rw [hs]
    refine ⟨.refl h, ?_⟩
    rintro item ⟨⟩
  all_goals
    rw [hs]
    refine ⟨hgoes.withFinished _, ?_⟩
    rintro item ⟨⟩
    exact hhands

/-- So does every step: to look for a comment moves nothing, and to skip a line hands out nothing. -/
theorem step_goesOn (h : l.Stands source front) (s : Step) :
    GoesOn source l (l.step s).2 ∧
      ∀ item, (l.step s).1 = .item item → (l.step s).2.HandsOut item := by
  have reads : ∀ {m item}, Reads l m item →
      GoesOn source l m ∧ ∀ item', Answer.item item = .item item' → m.HandsOut item' := by
    intro m item hreads
    refine ⟨hreads.goesOn h, ?_⟩
    rintro item' ⟨⟩
    exact hreads.handsOut
  cases s with
  | request r =>
    obtain ⟨hgoes, hhands⟩ := serve_goesOn h r
    refine ⟨hgoes, fun item hitem => hhands item ?_⟩
    rw [step] at hitem
    cases hs : (l.serve r).1 with
    | none => rw [hs] at hitem; cases hitem
    | some found => rw [hs] at hitem; cases hitem; rfl
  | word => exact reads l.reads_word
  | numeral => exact reads l.reads_numeral
  | quotation => exact reads l.reads_quotation
  | symbol => exact reads l.reads_symbol
  | atComment =>
    refine ⟨.refl h, ?_⟩
    rintro item ⟨⟩
  | skipLine =>
    refine ⟨⟨⟨_, rfl⟩, front, h.take _⟩, ?_⟩
    rintro item ⟨⟩

/-- So the lexer stands somewhere in the source after any number of steps. -/
theorem run_stands (h : l.Stands source front) (steps : List Step) :
    ∃ front, (l.run steps).2.Stands source front := by
  induction steps generalizing l front with
  | nil => exact ⟨front, h⟩
  | cons s steps ih =>
    obtain ⟨front', hstands⟩ := (step_goesOn h s).1.stands
    exact ih hstands

end Lexer

/-! ## No step is without a result -/

namespace Checked

/-- Below the limit of the counters, a request is served with all checks as it is without them. -/
theorem serve_eq (h : l.cursor.In source) (hs : source.length < 2 ^ 32 - 1) (r : Request) :
    serve l r = some (l.serve r) := by
  cases r with
  | nextToken => rw [serve, nextToken_eq h hs]; rfl
  | next => exact next?_eq h hs

/-- So is every step. -/
theorem step_eq (h : l.Stands source front) (hs : source.length < 2 ^ 32 - 1) (s : Step) :
    step l s = some (l.step s) := by
  cases s with
  | request r => rw [step, serve_eq h.cursor_in hs]; rfl
  | word => rw [step, readWord_eq h hs]; rfl
  | numeral => rw [step, readNumeral_eq h hs]; rfl
  | quotation => rw [step, readQuotation_eq h hs]; rfl
  | symbol => rw [step, readSymbol_eq h hs]; rfl
  | atComment => rw [step, ahead_cursor_eq h]; rfl
  | skipLine =>
    rw [step, ahead_cursor_eq h, Option.bind_eq_bind, Option.bind_some, take_eq h hs]
    rfl

/-- So is any number of steps, by induction over them from where the lexer stands. -/
theorem run_eq (h : l.Stands source front) (hs : source.length < 2 ^ 32 - 1) (steps : List Step) :
    run l steps = some (l.run steps) := by
  induction steps generalizing l front with
  | nil => rfl
  | cons s steps ih =>
    obtain ⟨front', hstands⟩ := (Lexer.step_goesOn h s).1.stands
    rw [run, step_eq h hs, Option.bind_eq_bind, Option.bind_some]
    dsimp only
    rw [ih hstands]
    rfl

end Checked

/-! ## Places and tokens -/

/-- A lexer that stands in a source is in its place there, with all its counters and offsets right. -/
theorem Lexer.Stands.inPlace (h : l.Stands source front) (hs : source.length < 2 ^ 32 - 1) :
    l.InPlace source where
  ordered := by
    rw [h.start, h.cursor, Position.offset_origin_after, Cursor.offset_between, byteLength_append,
      h.source, byteLength_append, byteLength_append]
    exact ⟨Nat.le_add_right .., Nat.le_add_right ..⟩
  positions := by
    refine ⟨front, l.rest, h.source, rfl, ?_, ?_⟩
    · rw [Lexer.span, h.start]
      exact standsBehind_between _ _
    · rw [h.cursor]
      exact standsBehind_between (front ++ l.text) (Position.origin.after (front ++ l.text))
  digits := fun n => Checked.digitCount_eq (h.cursor_in.forward n) hs

/-- What a lexer has read is what its span covers. -/
theorem Lexer.Stands.text?_span (h : l.Stands source front) :
    l.span.text? source = .ok l.text := by
  have hspan : l.span = .between (Position.origin.after front)
      (Position.origin.after (front ++ l.text)) := by
    rw [Lexer.span, h.start, h.cursor]
    rfl
  rw [hspan, h.source]
  exact Span.text?_between _ _ _

/-- The kinds that ask for a value are those of strings and numbers. -/
theorem Kind.isLiteral_eq_true_iff {kind : Kind} :
    kind.isLiteral = true ↔ kind = .string ∨ ∃ n, kind = .number n := by
  cases kind <;> simp [Kind.isLiteral]

/-- A token that is handed out has the text and line of its span, and a value of its kind. -/
theorem Lexer.HandsOut.readBy {token : Token} (hm : m.Stands source front)
    (h : m.HandsOut (.ok token)) : token.ReadBy source m := by
  have htext : m.span.text? source = .ok (String.ofList m.text).toList := by
    rw [String.toList_ofList]
    exact hm.text?_span
  rcases h token rfl with ⟨kind, hk, rfl⟩ | ⟨literal, rfl⟩
  · refine ⟨htext, rfl, rfl, ?_, nofun⟩
    rw [← Kind.isLiteral_eq_true_iff, show (m.plainToken kind).kind = kind from rfl, hk]
    exact iff_of_false nofun nofun
  · refine ⟨htext, rfl, rfl, ?_, ?_⟩
    · rw [← Kind.isLiteral_eq_true_iff]
      exact iff_of_true rfl literal.isLiteral_kind
    · rintro _ ⟨⟩
      rfl

end

/-- Any steps of one lexer, in any order. Over a source text of fewer than `2 ^ 32 - 1` characters no
operation of the lexer is without a result, whatever the steps; and behind any steps the lexer is in
its place, and so it is behind one more step, which does not move the cursor back and hands out no
token but the text of its span. -/
theorem steps_sound (source : String) (h : source.toList.length < 2 ^ 32 - 1) (steps : List Step) :
    let l := ((Lexer.ofSource source).run steps).2
    Checked.run (.ofSource source) steps = some ((Lexer.ofSource source).run steps) ∧
      l.InPlace source.toList ∧ ∀ s : Step, s.Sound source.toList l := by
  intro l
  obtain ⟨front, hl⟩ := Lexer.run_stands (Lexer.stands_ofSource source) steps
  refine ⟨Checked.run_eq (Lexer.stands_ofSource source) h steps, hl.inPlace h, fun s => ?_⟩
  obtain ⟨⟨⟨n, hn⟩, front', hbehind⟩, hhands⟩ := Lexer.step_goesOn hl s
  refine ⟨Checked.step_eq hl h s, hbehind.inPlace h, ?_, ?_, ?_⟩
  · rw [hn, Cursor.position_forward, Position.offset_after]
    exact Nat.le_add_right ..
  · rintro rfl
    rfl
  · exact fun token htoken => (hhands _ htoken).readBy hbehind

/-- A reserved word, a newline that starts no symbol and two letters are one name of two lines when the
readers are called one after the other. -/
theorem steps_sound_two_lines :
    let l := ((Lexer.ofSource "if\nab").run [.word, .symbol]).2
    let name : Token := ⟨.identifier, "if\nab", none, 1, ⟨0, 5, 1, 1⟩⟩
    "if\nab".toList.length < 2 ^ 32 - 1 ∧ (l.step .word).1 = .item (.ok name) ∧
      Checked.step l .word = some (l.step .word) ∧
      name.span.text? "if\nab".toList = .ok name.text.toList := by
  intro l name
  have hlength : "if\nab".toList.length < 2 ^ 32 - 1 := by decide
  have hname : (l.step .word).1 = .item (.ok name) := by decide +kernel
  obtain ⟨-, -, hsteps⟩ := steps_sound "if\nab" hlength [.word, .symbol]
  exact ⟨hlength, hname, (hsteps .word).checked, ((hsteps .word).token name hname).text⟩

end BrightLexer
