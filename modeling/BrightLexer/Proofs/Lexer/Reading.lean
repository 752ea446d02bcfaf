import BrightLexer.Lexer.Basic
import BrightLexer.Proofs.Lexer.Separator

/-!
# One token or fault

`reading` says what stands at the front of a text: how much of it is taken, and which token or fault
that is. It is a function of the text alone. `Lexer.readToken_eq` ties it to the lexer: the token or
fault that `Lexer.readToken` hands out, and the lexer left behind, are those of the reading.

Two laws say how much of the text decides a reading. `reading_append` is that nothing behind the
part taken and the text given is looked at; so what is taken, read on its own, is read in the same
way (`reading_taken`). `reading_append_separator` is that a newline ends a token or fault as the end
of the text does, and a blank does so for all but a quoted text without its closing quote.
-/

namespace BrightLexer

/-- What a piece of text is found to be. -/
inductive Finding where
  /-- A token, with its value if it is a literal. -/
  | token (kind : Kind) (literal : Option Literal)
  /-- No token, and why. -/
  | fault (cause : FaultCause)
deriving DecidableEq

/-- The token or fault to hand out for a text, and where it stands. -/
def Finding.item (f : Finding) (text : List Char) (span : Span) : Except Fault Token :=
  match f with
  | .token kind literal => .ok ⟨kind, String.ofList text, literal, span.line, span⟩
  | .fault cause => .error ⟨cause, span.line, span.column⟩

/-- A token that is handed out tells what was found, and the text it was found in. -/
theorem Finding.eq_of_item_ok {f : Finding} {text : List Char} {span : Span} {t : Token}
    (h : f.item text span = .ok t) : f = .token t.kind t.literal ∧ t.text = String.ofList text := by
  cases f with
  | fault cause => cases h
  | token kind value =>
    cases h
    exact ⟨rfl, rfl⟩

/-- A fault that is handed out tells its cause. -/
theorem Finding.eq_of_item_error {f : Finding} {text : List Char} {span : Span} {fault : Fault}
    (h : f.item text span = .error fault) : f = .fault fault.cause := by
  cases f with
  | token kind value => cases h
  | fault cause =>
    cases h
    rfl

/-- The token or fault at the front of a text. -/
structure Reading extends Cut where
  /-- What was taken is found to be this. -/
  finding : Finding
deriving DecidableEq

/-- The same reading with more text behind it. -/
def Reading.followedBy (r : Reading) (more : List Char) : Reading :=
  ⟨r.toCut.followedBy more, r.finding⟩

/-- What a quoted text is: a string, if it has its closing quote. -/
def Quotation.finding (q : Quotation) : Finding :=
  match q.content with
  | some content => .token .string (some (.string (String.ofList content)))
  | none => .fault .unterminatedString

/-- The value of a numeral, if its shape is one of a numeral and its type can hold the value. -/
def Numeral.value (n : Numeral) : Except NumeralDefect Literal :=
  n.shape.bind fun shape => numeralValue shape.kind n.taken

/-- What a numeral is: a number, or what keeps it from being one. -/
def Numeral.finding (n : Numeral) : Finding :=
  match n.value with
  | .ok literal => .token literal.kind (some literal)
  | .error defect => .fault (.malformedNumeral (String.ofList n.taken) defect.reason)

/-- What a word is: a reserved word, or else a name. -/
def Word.finding (w : Word) : Finding :=
  .token (if w.designated then .identifier
    else ((Keyword.ofText? w.taken).map .keyword).getD .identifier) none

/-- The symbol at the front of a text, or the character that starts none. -/
def symbolReading (cs : List Char) : Reading :=
  match symbolAt? cs with
  | some (spelling, kind) =>
    ⟨⟨cs.take spelling.length, cs.drop spelling.length⟩, .token kind none⟩
  | none => ⟨⟨cs.take 1, cs.tail⟩, .fault (.unexpectedChar (cs.headD '\x00'))⟩

/-- The token or fault at the front of a text that does not start with a blank or a comment. -/
def reading : List Char → Reading
  | [] => ⟨.empty [], .token .eof none⟩
  | c :: cs =>
    if c = '\n' then ⟨⟨[c], cs⟩, .token .newline none⟩
    else if c = '"' then ⟨(cutQuotation (c :: cs)).toCut, (cutQuotation (c :: cs)).finding⟩
    else if c.isDigit then ⟨(cutNumeral (c :: cs)).toCut, (cutNumeral (c :: cs)).finding⟩
    else if isWordStart c then ⟨(cutWord (c :: cs)).toCut, (cutWord (c :: cs)).finding⟩
    else symbolReading (c :: cs)

section
variable {c t : Char} {cs b more : List Char}

/-! ## By the first character -/

/-- The first character of a text decides who reads it. -/
theorem first_char_cases (c : Char) :
    c = '\n' ∨ c = '"' ∨ c.isDigit = true ∨ isWordStart c = true ∨
      (c ≠ '\n' ∧ c ≠ '"' ∧ c.isDigit = false ∧ isWordStart c = false) := by
  by_cases hn : c = '\n'
  · exact .inl hn
  by_cases hq : c = '"'
  · exact .inr (.inl hq)
  cases hd : c.isDigit with
  | true => exact .inr (.inr (.inl rfl))
  | false =>
    cases hw : isWordStart c with
    | true => exact .inr (.inr (.inr (.inl rfl)))
    | false => exact .inr (.inr (.inr (.inr ⟨hn, hq, rfl, rfl⟩)))

/-- A newline is a token by itself. -/
theorem reading_newline (cs : List Char) :
    reading ('\n' :: cs) = ⟨⟨['\n'], cs⟩, .token .newline none⟩ := rfl

/-- Behind a quote a quoted text is read. -/
theorem reading_quote (cs : List Char) :
    reading ('"' :: cs) = ⟨(cutQuotation ('"' :: cs)).toCut, (cutQuotation ('"' :: cs)).finding⟩ :=
  rfl

/-- A digit starts a numeral. -/
theorem reading_digit (h : c.isDigit = true) (cs : List Char) :
    reading (c :: cs) = ⟨(cutNumeral (c :: cs)).toCut, (cutNumeral (c :: cs)).finding⟩ := by
  have hn : c ≠ '\n' := by rintro rfl; cases h
  have hq : c ≠ '"' := by rintro rfl; cases h
  simp [reading, hn, hq, h]

/-- No digit starts a word. -/
theorem isDigit_of_isWordStart (h : isWordStart c = true) : c.isDigit = false := by
  cases hd : c.isDigit with
  | false => rfl
  | true =>
    change ((decide (65 ≤ c.val ∧ c.val ≤ 90) ||
      (decide (97 ≤ c.val) && decide (c.val ≤ 122))) || c == '_') = true at h
    change (decide (48 ≤ c.val) && decide (c.val ≤ 57)) = true at hd
    simp only [Bool.or_eq_true, Bool.and_eq_true, decide_eq_true_eq, beq_iff_eq,
      UInt32.le_iff_toNat_le] at h hd
    change ((65 ≤ c.toNat ∧ c.toNat ≤ 90) ∨ (97 ≤ c.toNat ∧ c.toNat ≤ 122)) ∨ c = '_' at h
    change 48 ≤ c.toNat ∧ c.toNat ≤ 57 at hd
    rcases h with h | rfl
    · omega
    · exact absurd hd (by decide)

/-- A letter or an underscore starts a word. -/
theorem reading_wordStart (h : isWordStart c = true) (cs : List Char) :
    reading (c :: cs) = ⟨(cutWord (c :: cs)).toCut, (cutWord (c :: cs)).finding⟩ := by
  have hn : c ≠ '\n' := by rintro rfl; cases h
  have hq : c ≠ '"' := by rintro rfl; cases h
  simp [reading, hn, hq, isDigit_of_isWordStart h, h]

/-- Anything else starts a symbol or nothing. -/
theorem reading_symbol (hn : c ≠ '\n') (hq : c ≠ '"') (hd : c.isDigit = false)
    (hw : isWordStart c = false) (cs : List Char) :
    reading (c :: cs) = symbolReading (c :: cs) := by
  simp [reading, hn, hq, hd, hw]

/-- The only thing that can be wrong with a quoted text is that it is not closed. -/
theorem Quotation.finding_eq_fault_iff {q : Quotation} {cause : FaultCause} :
    q.finding = .fault cause ↔ q.content = none ∧ cause = .unterminatedString := by
  unfold finding
  cases q.content with
  | none =>
    constructor
    · rintro ⟨⟩
      exact ⟨rfl, rfl⟩
    · rintro ⟨-, rfl⟩
      rfl
  | some content =>
    constructor
    · rintro ⟨⟩
    · rintro ⟨⟨⟩, -⟩

/-- What is wrong with a numeral is said together with its text. -/
theorem Numeral.finding_eq_fault_iff {n : Numeral} {cause : FaultCause} :
    n.finding = .fault cause ↔
      ∃ defect, n.value = .error defect ∧
        cause = .malformedNumeral (String.ofList n.taken) defect.reason := by
  unfold finding
  cases n.value with
  | ok literal =>
    constructor
    · rintro ⟨⟩
    · rintro ⟨_, ⟨⟩, -⟩
  | error defect =>
    constructor
    · rintro ⟨⟩
      exact ⟨defect, rfl, rfl⟩
    · rintro ⟨_, ⟨⟩, rfl⟩
      rfl

/-! ## What is taken -/

/-- Reading a symbol loses no character. -/
@[simp] theorem whole_symbolReading (cs : List Char) : (symbolReading cs).whole = cs := by
  unfold symbolReading
  split
  · exact List.take_append_drop _ _
  · cases cs <;> rfl

/-- A reading and what it leaves are the text. -/
@[simp] theorem whole_reading (cs : List Char) : (reading cs).whole = cs := by
  cases cs with
  | nil => rfl
  | cons c cs =>
    rcases first_char_cases c with rfl | rfl | hd | hw | ⟨hn, hq, hd, hw⟩
    · rfl
    · exact whole_cutQuotation _
    · rw [reading_digit hd]; exact whole_cutNumeral _
    · rw [reading_wordStart hw]; exact whole_cutWord _
    · rw [reading_symbol hn hq hd hw]; exact whole_symbolReading _

/-- Before the end of the text something is taken. -/
theorem taken_reading_ne_nil (h : cs ≠ []) : (reading cs).taken ≠ [] := by
  obtain ⟨c, cs, rfl⟩ := List.exists_cons_of_ne_nil h
  rcases first_char_cases c with rfl | rfl | hd | hw | ⟨hn, hq, hd, hw⟩
  · exact List.cons_ne_nil '\n' []
  · exact taken_cutQuotation_ne_nil '"' cs
  · rw [reading_digit hd]; exact taken_cutNumeral_ne_nil cs hd
  · rw [reading_wordStart hw]; exact taken_cutWord_ne_nil cs (isWordChar_of_isWordStart hw)
  · rw [reading_symbol hn hq hd hw, symbolReading]
    split
    · next spelling kind hs =>
      have hpos : 0 < spelling.length := length_pos_of_symbolAt? hs
      simp only [ne_eq, List.take_eq_nil_iff]
      rintro (h0 | h0)
      · omega
      · cases h0
    · exact List.cons_ne_nil c []

/-- The symbol at the front of a text is what is taken of it. -/
theorem taken_of_symbolAt? {entry : String × Kind} (h : symbolAt? cs = some entry) :
    cs.take entry.1.length = entry.1.toList := by
  have hp := List.isPrefixOf_iff_prefix.1 (List.find?_eq_some_iff_append.1 h).1
  rw [← String.length_toList]
  exact (List.prefix_iff_eq_take.1 hp).symm

/-- A symbol is taken with its whole spelling. -/
theorem symbolReading_of_some {entry : String × Kind} (h : symbolAt? cs = some entry) :
    symbolReading cs =
      ⟨⟨entry.1.toList, cs.drop entry.1.toList.length⟩, .token entry.2 none⟩ := by
  rw [String.length_toList, ← taken_of_symbolAt? h]
  simp only [symbolReading, h]

/-- Where no symbol starts, one character is taken. -/
theorem symbolReading_of_none (h : symbolAt? (c :: cs) = none) :
    symbolReading (c :: cs) = ⟨⟨[c], cs⟩, .fault (.unexpectedChar c)⟩ := by
  simp only [symbolReading, h]
  rfl

/-! ## How much of the text decides a reading -/

/-- To find a symbol, no character behind its spelling is looked at. -/
theorem symbolReading_append (hcs : cs ≠ [])
    (h : (symbolReading (cs ++ more)).taken.length ≤ cs.length) :
    symbolReading (cs ++ more) = (symbolReading cs).followedBy more := by
  cases hs : symbolAt? (cs ++ more) with
  | some entry =>
    have ht := taken_of_symbolAt? hs
    have hle : entry.1.length ≤ cs.length := by
      rw [← String.length_toList, ← ht]
      simpa [symbolReading, hs] using h
    have hs' := symbolAt?_append hs hle
    simp [symbolReading, hs, hs', Reading.followedBy, Cut.followedBy,
      List.take_append_of_le_length hle, List.drop_append_of_le_length hle]
  | none =>
    have hs' := symbolAt?_append_none hs
    obtain ⟨c, cs, rfl⟩ := List.exists_cons_of_ne_nil hcs
    simp only [List.cons_append] at hs
    simp [symbolReading, hs, hs', Reading.followedBy, Cut.followedBy]

/-- A reading does not depend on text that it does not reach into. -/
theorem reading_append (hcs : cs ≠ []) (h : (reading (cs ++ more)).taken.length ≤ cs.length) :
    reading (cs ++ more) = (reading cs).followedBy more := by
  obtain ⟨c, cs, rfl⟩ := List.exists_cons_of_ne_nil hcs
  rw [List.cons_append] at h ⊢
  rcases first_char_cases c with rfl | rfl | hd | hw | ⟨hn, hq, hd, hw⟩
  · rfl
  · have he : cutQuotation ('"' :: (cs ++ more)) = _ := @cutQuotation_append cs more '"' h
    rw [reading_quote, reading_quote, he]
    rfl
  · rw [reading_digit hd] at h
    have he : cutNumeral (c :: (cs ++ more)) = _ := @cutNumeral_append (c :: cs) more h
    rw [reading_digit hd, reading_digit hd, he]
    rfl
  · rw [reading_wordStart hw] at h
    have he : cutWord (c :: (cs ++ more)) = _ := @cutWord_append (c :: cs) more h
    rw [reading_wordStart hw, reading_wordStart hw, he]
    rfl
  · rw [reading_symbol hn hq hd hw] at h ⊢
    rw [reading_symbol hn hq hd hw]
    exact symbolReading_append hcs h

/-- A reading is known from what it is with more text behind it. -/
theorem Reading.eq_of_followedBy {r q : Reading} (h : q = r.followedBy q.rest) :
    r = ⟨⟨q.taken, []⟩, q.finding⟩ := by
  obtain ⟨⟨taken, rest⟩, finding⟩ := r
  obtain ⟨⟨taken', rest'⟩, finding'⟩ := q
  simp only [Reading.followedBy, Cut.followedBy, Reading.mk.injEq, Cut.mk.injEq,
    List.self_eq_append_left] at h
  obtain ⟨⟨rfl, rfl⟩, rfl⟩ := h
  rfl

/-- What is taken, read on its own, is read in the same way. -/
theorem reading_taken (hcs : cs ≠ []) :
    reading (reading cs).taken = ⟨⟨(reading cs).taken, []⟩, (reading cs).finding⟩ := by
  have hw : (reading cs).taken ++ (reading cs).rest = cs := whole_reading cs
  have hle : (reading ((reading cs).taken ++ (reading cs).rest)).taken.length ≤
      (reading cs).taken.length := by
    simp only [hw, Nat.le_refl]
  have he := reading_append (taken_reading_ne_nil hcs) hle
  rw [hw] at he
  exact Reading.eq_of_followedBy he

/-- What is taken of a text ends before a character that it does not hold. -/
theorem reading_append_of_not_mem (hcs : cs ≠ []) (h : t ∉ (reading (cs ++ t :: b)).taken) :
    reading (cs ++ t :: b) = (reading cs).followedBy (t :: b) :=
  reading_append hcs (length_le_of_not_mem h (whole_reading (cs ++ t :: b)))

/-- A string literal that is closed goes no further than its closing quote. -/
theorem reading_quote_append_of_closed
    (h : (reading ('"' :: cs)).finding ≠ .fault .unterminatedString) (ht : t ≠ '"') :
    reading ('"' :: cs ++ t :: b) = (reading ('"' :: cs)).followedBy (t :: b) := by
  cases hc : (cutQuotationBody cs).content with
  | none => exact absurd (Quotation.finding_eq_fault_iff.2 ⟨hc, rfl⟩) h
  | some content =>
    have he : cutQuotationBody (cs ++ t :: b) = _ :=
      cutQuotationBody_closed hc fun r hr => ht (List.cons.inj hr).1
    rw [List.cons_append, reading_quote, reading_quote, cutQuotation, cutQuotation, he]
    rfl

/-- A newline ends a token or fault as the end of the text does, and so does a blank, unless it
stands in a quoted text. -/
theorem reading_append_separator (ht : isSeparator t = true) (hcs : cs ≠ [])
    (hq : t = '\n' ∨ (reading cs).finding ≠ .fault .unterminatedString) :
    reading (cs ++ t :: b) = (reading cs).followedBy (t :: b) := by
  obtain ⟨c, cs, rfl⟩ := List.exists_cons_of_ne_nil hcs
  rcases first_char_cases c with rfl | rfl | hd | hw | ⟨hn, hqu, hd, hw⟩
  · rfl
  · rcases hq with rfl | hq
    · refine reading_append_of_not_mem hcs ?_
      exact newline_not_mem_cutQuotation (by decide) (cs ++ '\n' :: b)
    · exact reading_quote_append_of_closed hq (by rintro rfl; cases ht)
  · refine reading_append_of_not_mem hcs ?_
    rw [List.cons_append, reading_digit hd]
    exact (solid_cutNumeral _).not_mem ht
  · refine reading_append_of_not_mem hcs ?_
    rw [List.cons_append, reading_wordStart hw]
    exact (solid_cutWord _).not_mem ht
  · cases hs : symbolAt? (c :: cs ++ t :: b) with
    | some entry =>
      refine reading_append_of_not_mem hcs ?_
      rw [List.cons_append] at hs ⊢
      rw [reading_symbol hn hqu hd hw]
      simp only [symbolReading, hs, taken_of_symbolAt? hs]
      exact (solid_symbolAt? hs).not_mem ht
    | none =>
      refine reading_append hcs ?_
      rw [List.cons_append] at hs ⊢
      rw [reading_symbol hn hqu hd hw]
      simp [symbolReading, hs]

/-- A newline is read only as a token of its own. -/
theorem eq_newline_of_mem_taken (h : '\n' ∈ (reading cs).taken) : ∃ r, cs = '\n' :: r := by
  cases cs with
  | nil => cases h
  | cons c cs =>
    rcases first_char_cases c with rfl | rfl | hd | hw | ⟨hn, hq, hd, hw⟩
    · exact ⟨cs, rfl⟩
    · exact absurd h (newline_not_mem_cutQuotation (by decide) cs)
    · rw [reading_digit hd] at h
      exact absurd h ((solid_cutNumeral _).not_mem isSeparator_newline)
    · rw [reading_wordStart hw] at h
      exact absurd h ((solid_cutWord _).not_mem isSeparator_newline)
    · rw [reading_symbol hn hq hd hw, symbolReading] at h
      split at h
      · next hs =>
        rw [taken_of_symbolAt? hs] at h
        exact absurd h ((solid_symbolAt? hs).not_mem isSeparator_newline)
      · exact absurd (List.mem_singleton.1 h).symm hn

/-- No fault takes a newline. -/
theorem newline_not_mem_of_fault {cause : FaultCause} (h : (reading cs).finding = .fault cause) :
    '\n' ∉ (reading cs).taken := by
  intro hn
  obtain ⟨r, rfl⟩ := eq_newline_of_mem_taken hn
  cases h

/-- No other character than a newline starts an end token or a newline token. -/
theorem kind_of_ne_newline (hc : c ≠ '\n') {kind : Kind} {value : Option Literal}
    (h : (reading (c :: cs)).finding = .token kind value) : kind ≠ .eof ∧ kind ≠ .newline := by
  rcases first_char_cases c with rfl | rfl | hd | hw | ⟨hn, hq, hd, hw⟩
  · exact absurd rfl hc
  · rw [reading_quote] at h
    unfold Quotation.finding at h
    split at h <;> cases h
    decide
  · rw [reading_digit hd] at h
    unfold Numeral.finding at h
    split at h
    · next literal _ =>
      rw [← (Finding.token.inj h).1]
      cases literal <;> exact ⟨nofun, nofun⟩
    · cases h
  · rw [reading_wordStart hw] at h
    simp only [Word.finding, Finding.token.injEq] at h
    rw [← h.1]
    split
    · decide
    · cases Keyword.ofText? (cutWord (c :: cs)).taken <;> simp
  · have key : ∀ entry ∈ symbolTable, entry.2 ≠ .eof ∧ entry.2 ≠ .newline := by decide +kernel
    rw [reading_symbol hn hq hd hw, symbolReading] at h
    split at h
    · next spelling kind hs =>
      rw [← (Finding.token.inj h).1]
      exact key _ (List.mem_of_find?_eq_some hs)
    · cases h

/-- Only the end of the text is read as the end token. -/
theorem eq_nil_of_finding_eof {value : Option Literal}
    (h : (reading cs).finding = .token .eof value) : cs = [] := by
  cases cs with
  | nil => rfl
  | cons c cs =>
    by_cases hc : c = '\n'
    · rw [hc, reading_newline] at h
      cases h
    · exact absurd rfl (kind_of_ne_newline hc h).1

/-- Only a newline is read as a newline token. -/
theorem eq_newline_of_finding {value : Option Literal}
    (h : (reading cs).finding = .token .newline value) : ∃ r, cs = '\n' :: r := by
  cases cs with
  | nil => cases h
  | cons c cs =>
    by_cases hc : c = '\n'
    · exact ⟨cs, by rw [hc]⟩
    · exact absurd rfl (kind_of_ne_newline hc h).2

/-! ## What is read as a literal -/

/-- A word is no literal. -/
theorem isLiteral_wordKind (designated : Bool) (keyword : Option Keyword) :
    (if designated then Kind.identifier
      else (keyword.map Kind.keyword).getD .identifier).isLiteral = false := by
  cases designated with
  | true => rfl
  | false =>
    cases keyword with
    | none => rfl
    | some k => rfl

/-- A symbol is no literal. -/
theorem isLiteral_of_symbolAt? {cs : List Char} {entry : String × Kind}
    (h : symbolAt? cs = some entry) : entry.2.isLiteral = false := by
  have key : ∀ entry ∈ symbolTable, entry.2.isLiteral = false := by decide +kernel
  exact key entry (List.mem_of_find?_eq_some h)

/-- A quoted text that is a token has a content, which is its value. -/
theorem Quotation.finding_eq_token_iff {q : Quotation} {kind : Kind} {value : Option Literal} :
    q.finding = .token kind value ↔
      ∃ content, q.content = some content ∧ kind = .string ∧
        value = some (.string (String.ofList content)) := by
  unfold finding
  cases q.content with
  | none =>
    constructor
    · rintro ⟨⟩
    · rintro ⟨content, ⟨⟩, -⟩
  | some content =>
    constructor
    · rintro ⟨⟩
      exact ⟨content, rfl, rfl, rfl⟩
    · rintro ⟨_, ⟨⟩, rfl, rfl⟩
      rfl

/-- The value of a numeral is a number of the type that was asked for. -/
theorem kind_of_numeralValue {kind : NumericKind} {text : List Char} {literal : Literal}
    (h : numeralValue kind text = .ok literal) : literal.kind = .number kind := by
  cases hv : numeralValue? kind text with
  | none =>
    rw [numeralValue, hv] at h
    cases h
  | some value =>
    rw [numeralValue, hv] at h
    obtain rfl := Except.ok.inj h
    unfold numeralValue? at hv
    cases kind with
    | integer | longInteger =>
      obtain ⟨v, -, hv⟩ := Option.bind_eq_some_iff.1 hv
      split at hv
      · cases hv
        rfl
      · cases hv
    | float | double =>
      obtain ⟨v, -, rfl⟩ := Option.map_eq_some_iff.1 hv
      rfl

/-- A numeral that is a token is of the kind that its shape gives, and has a value of this type. -/
theorem Numeral.finding_eq_token_iff {n : Numeral} {kind : Kind} {value : Option Literal} :
    n.finding = .token kind value ↔
      ∃ shape literal, n.shape = .ok shape ∧ numeralValue shape.kind n.taken = .ok literal ∧
        kind = .number shape.kind ∧ value = some literal := by
  cases hshape : n.shape with
  | error defect => simp [finding, Numeral.value, hshape, Except.bind]
  | ok shape =>
    have hvalue : n.value = numeralValue shape.kind n.taken := by rw [Numeral.value, hshape]; rfl
    unfold finding
    rw [hvalue]
    cases hv : numeralValue shape.kind n.taken with
    | error defect => simp [hv]
    | ok literal =>
      constructor
      · rintro ⟨⟩
        exact ⟨shape, literal, rfl, hv, kind_of_numeralValue hv, rfl⟩
      · rintro ⟨_, _, ⟨⟩, hv', rfl, rfl⟩
        cases hv.symm.trans hv'
        exact congrArg (Finding.token · (some literal)) (kind_of_numeralValue hv)

/-- A literal is a quoted text or a numeral. -/
theorem quote_or_digit_of_isLiteral {kind : Kind} {value : Option Literal}
    (h : (reading cs).finding = .token kind value) (hkind : kind.isLiteral = true) :
    ∃ c r, cs = c :: r ∧ (c = '"' ∨ c.isDigit = true) := by
  cases cs with
  | nil =>
    cases h
    cases hkind
  | cons c cs =>
    refine ⟨c, cs, rfl, ?_⟩
    rcases first_char_cases c with rfl | hq | hd | hw | ⟨hn, hq, hd, hw⟩
    · cases h
      cases hkind
    · exact .inl hq
    · exact .inr hd
    · rw [reading_wordStart hw] at h
      obtain ⟨rfl, -⟩ := Finding.token.inj h
      rw [isLiteral_wordKind] at hkind
      cases hkind
    · rw [reading_symbol hn hq hd hw, symbolReading] at h
      split at h
      · next hs =>
        obtain ⟨rfl, -⟩ := Finding.token.inj h
        rw [isLiteral_of_symbolAt? hs] at hkind
        cases hkind
      · cases h

/-! ## What a fault says of the text -/

/-- `cause.Describes text rest` says that `text` is wrong for this cause, with `rest` behind it: a
character that was rejected, a numeral with the text that is reported, or an opening quote and what
follows it up to the next newline or the end. -/
def FaultCause.Describes (text rest : List Char) : FaultCause → Prop
  | .unexpectedChar c => text = [c]
  | .malformedNumeral reported _ => text = reported.toList
  | .unterminatedString => ∃ body, text = '"' :: body ∧ '\n' ∉ body ∧ ∀ c r, rest = c :: r → c = '\n'

/-- A quoted text that is not closed goes up to the next newline or the end. -/
theorem rest_cutQuotationBody_of_open (h : (cutQuotationBody cs).content = none) {r : List Char}
    (hr : (cutQuotationBody cs).rest = c :: r) : c = '\n' := by
  fun_induction cutQuotationBody cs with
  | case1 => cases hr
  | case2 cs ih => exact ih (Option.map_eq_none_iff.1 h) hr
  | case3 => cases h
  | case4 => exact (List.cons.inj hr).1.symm
  | case5 d cs _ _ _ ih => exact ih (Option.map_eq_none_iff.1 h) hr

/-- A quoted text that is not closed is what stands behind its quote on the line. -/
theorem describes_cutQuotation {cause : FaultCause}
    (h : (cutQuotation ('"' :: cs)).finding = .fault cause) :
    cause.Describes (cutQuotation ('"' :: cs)).taken (cutQuotation ('"' :: cs)).rest := by
  obtain ⟨hc, rfl⟩ := Quotation.finding_eq_fault_iff.1 h
  exact ⟨_, rfl, newline_not_mem_cutQuotationBody cs,
    fun c r hr => rest_cutQuotationBody_of_open hc hr⟩

/-- A malformed numeral is reported with its text. -/
theorem describes_cutNumeral {cause : FaultCause} (h : (cutNumeral cs).finding = .fault cause) :
    cause.Describes (cutNumeral cs).taken (cutNumeral cs).rest := by
  obtain ⟨_, -, rfl⟩ := Numeral.finding_eq_fault_iff.1 h
  exact (String.toList_ofList ..).symm

/-- Each cause of a fault has its own first characters: quotes, digits, and those that are left to
symbols. -/
theorem reading_fault_cases {cause : FaultCause}
    (h : (reading (c :: cs)).finding = .fault cause) :
    (c = '"' ∧ cause = .unterminatedString) ∨
      (c.isDigit = true ∧ (cutNumeral (c :: cs)).finding = .fault cause) ∨
      (c ≠ '\n' ∧ c ≠ '"' ∧ c.isDigit = false ∧ isWordStart c = false ∧
        symbolAt? (c :: cs) = none ∧ cause = .unexpectedChar c) := by
  rcases first_char_cases c with rfl | rfl | hd | hw | ⟨hn, hq, hd, hw⟩
  · cases h
  · exact .inl ⟨rfl, (Quotation.finding_eq_fault_iff.1 h).2⟩
  · rw [reading_digit hd] at h
    exact .inr (.inl ⟨hd, h⟩)
  · rw [reading_wordStart hw] at h
    cases h
  · rw [reading_symbol hn hq hd hw] at h
    cases hs : symbolAt? (c :: cs) with
    | some entry =>
      rw [symbolReading_of_some hs] at h
      cases h
    | none =>
      rw [symbolReading_of_none hs] at h
      exact .inr (.inr ⟨hn, hq, hd, hw, rfl, (Finding.fault.inj h).symm⟩)

/-- A fault describes what is taken for it. -/
theorem describes_reading {cause : FaultCause} (h : (reading cs).finding = .fault cause) :
    cause.Describes (reading cs).taken (reading cs).rest := by
  cases cs with
  | nil => cases h
  | cons c cs =>
    rcases reading_fault_cases h with ⟨rfl, -⟩ | ⟨hd, hfault⟩ | ⟨hn, hq, hd, hw, hs, rfl⟩
    · exact describes_cutQuotation h
    · rw [reading_digit hd]
      exact describes_cutNumeral hfault
    · rw [reading_symbol hn hq hd hw, symbolReading_of_none hs]
      rfl

end

/-! ## The lexer reads what is there -/

namespace Lexer

/-- The lexer behind the token or fault at its cursor. -/
def pass (l : Lexer) : Lexer := l.take (reading l.rest).taken.length

/-- Reading the part that a cut takes, the lexer has it as its text. -/
theorem text_take {l : Lexer} {c : Cut} (h : l.text = []) (hc : c.whole = l.rest) :
    (l.take c.taken.length).text = c.taken := by
  rw [take, h]
  exact Cut.take_length_taken hc

section
variable {l : Lexer}

/-- The lexer reads a quoted text where one stands. -/
theorem readQuotation_eq (h : l.text = []) :
    l.readQuotation =
      ((cutQuotation l.rest).finding.item (cutQuotation l.rest).taken
          (l.take (cutQuotation l.rest).taken.length).span,
        l.take (cutQuotation l.rest).taken.length) := by
  have ht := text_take h (whole_cutQuotation l.rest)
  unfold readQuotation Quotation.finding
  dsimp only
  cases (cutQuotation l.rest).content with
  | some content => simp only [Finding.item, literalToken, Token.ofLiteral, Literal.kind, ht]
  | none => rfl

/-- It reads a numeral where one stands. -/
theorem readNumeral_eq (h : l.text = []) :
    l.readNumeral =
      ((cutNumeral l.rest).finding.item (cutNumeral l.rest).taken
          (l.take (cutNumeral l.rest).taken.length).span,
        l.take (cutNumeral l.rest).taken.length) := by
  have ht := text_take h (whole_cutNumeral l.rest)
  unfold readNumeral Numeral.finding
  simp only [ht]
  rw [← Numeral.value]
  cases (cutNumeral l.rest).value with
  | ok literal => simp only [Finding.item, literalToken, Token.ofLiteral, ht]
  | error defect => simp only [Finding.item, numeralFault, ht]; rfl

/-- It reads a word where one stands. -/
theorem readWord_eq (h : l.text = []) :
    (.ok l.readWord.1, l.readWord.2) =
      ((cutWord l.rest).finding.item (cutWord l.rest).taken
          (l.take (cutWord l.rest).taken.length).span,
        l.take (cutWord l.rest).taken.length) := by
  have ht := text_take h (whole_cutWord l.rest)
  simp only [readWord, Word.finding, Finding.item, plainToken, Token.plain, ht]

/-- It reads a symbol, or the character that starts none. -/
theorem readSymbol_eq (h : l.text = []) (hne : l.rest ≠ []) :
    l.readSymbol =
      ((symbolReading l.rest).finding.item (symbolReading l.rest).taken
          (l.take (symbolReading l.rest).taken.length).span,
        l.take (symbolReading l.rest).taken.length) := by
  have ht := text_take h (whole_symbolReading l.rest)
  unfold readSymbol symbolReading at *
  cases hs : symbolAt? l.rest with
  | some entry =>
    have hlen : (l.rest.take entry.1.length).length = entry.1.length := by
      rw [taken_of_symbolAt? hs, String.length_toList]
    simp only [hs, hlen] at ht ⊢
    simp only [Finding.item, plainToken, Token.plain, ht]
  | none =>
    have hlen : (l.rest.take 1).length = 1 := by
      have := List.length_pos_iff.2 hne
      rw [List.length_take]
      omega
    simp only [hlen]
    rfl

/-- At the start of a token, the lexer hands out what is read at its cursor and moves behind it. -/
theorem readToken_eq (h : l.text = []) :
    l.readToken = ((reading l.rest).finding.item (reading l.rest).taken l.pass.span, l.pass) := by
  cases hr : l.rest with
  | nil =>
    have hp : l.pass = l := by
      obtain ⟨cursor, start, text, mark, finished⟩ := l
      cases h
      simp [pass, take, hr, reading, Cursor.forward]
    rw [readToken_of_rest_eq_nil hr, hp]
    simp [reading, Finding.item, plainToken, Token.plain, h]
  | cons c cs =>
    rw [← hr, pass]
    unfold readToken
    rw [hr]
    dsimp only
    rcases first_char_cases c with rfl | rfl | hd | hw | ⟨hn, hq, hd, hw⟩
    · have ht : (l.take 1).text = ['\n'] := text_take (c := ⟨['\n'], cs⟩) h hr.symm
      simp only [if_pos, reading_newline, plainToken, Finding.item, Token.plain, ht]
      rfl
    · rw [if_neg (by decide), if_pos rfl, readQuotation_eq h, hr]
      rfl
    · have hn : c ≠ '\n' := by rintro rfl; cases hd
      have hq : c ≠ '"' := by rintro rfl; cases hd
      rw [if_neg hn, if_neg hq, if_pos hd, readNumeral_eq h, hr, reading_digit hd]
    · have hn : c ≠ '\n' := by rintro rfl; cases hw
      have hq : c ≠ '"' := by rintro rfl; cases hw
      have hd : ¬ c.isDigit = true := Bool.eq_false_iff.1 (isDigit_of_isWordStart hw)
      rw [if_neg hn, if_neg hq, if_neg hd, if_pos hw, readWord_eq h, hr, reading_wordStart hw]
    · rw [if_neg hn, if_neg hq, if_neg (Bool.eq_false_iff.1 hd), if_neg (Bool.eq_false_iff.1 hw),
        readSymbol_eq h (by simp [hr]), hr, reading_symbol hn hq hd hw]

end

end Lexer

end BrightLexer
