import BrightLexer.Proofs.Command.TextDump
import BrightLexer.Proofs.Json.Written
import BrightLexer.Proofs.Scan.Numerals
import BrightLexer.Proofs.Scan.Steps
import BrightLexer.Proofs.Token.ShownNumber

/-!
# A dump in JSON decodes to its tokens

The compact and the indented text of a dump denote the same array of objects, one for each token, and
nothing else. `Token.ToldBy` says what the object of a token tells: its kind, by a name that no other kind
has, its text, line and column, and its value, which is `null` if there is none, the text of a string, exactly
the number of a whole number, and for a floating point number a numeral from which its value can be read
again.

That a floating point number is written as a numeral at all is not so for all values, only for finite ones.
Those of a scan are finite (`Token.Scanned.isFinite_of_literal`), since they are the nearest to a numeral.
-/

namespace BrightLexer

/-- A literal is not a floating point number without a value. -/
def Literal.IsFinite : Literal → Prop
  | .float v => v.isFinite = true
  | .double x => x.isFinite = true
  | .string _ | .integer _ | .longInteger _ => True

/-- What a JSON value tells of the value of a token. -/
inductive Literal.ToldBy : Option Literal → JsonValue → Prop
  | none : ToldBy none .null
  | string {s : String} : ToldBy (some (.string s)) (.string s)
  | integer {v : Int32} {n : SignedNumeral} : n.IsWhole → n.value = v.toInt →
      ToldBy (some (.integer v)) (.number n)
  | longInteger {v : Int64} {n : SignedNumeral} : n.IsWhole → n.value = v.toInt →
      ToldBy (some (.longInteger v)) (.number n)
  | float {v : Binary32} {n : SignedNumeral} : n.negative = v.negative →
      binary32.Rounds v.magnitude |n.value| → readBinary? binary32 n.text = some v →
      ToldBy (some (.float v)) (.number n)
  | double {x : Binary64} {n : SignedNumeral} : n.negative = x.negative →
      binary64.Rounds x.magnitude |n.value| → readBinary? binary64 n.text = some x →
      ToldBy (some (.double x)) (.number n)

/-- What a JSON value tells of a token. The name of its kind is one that no other kind has. -/
inductive Token.ToldBy (t : Token) : JsonValue → Prop
  | object {kind : String} {line column : SignedNumeral} {literal : JsonValue} :
      (∀ k : Kind, k.name = kind ↔ k = t.kind) → line.IsWhole → line.value = t.line →
      column.IsWhole → column.value = t.column → Literal.ToldBy t.literal literal →
      (literal = .null ↔ t.literal = none) →
      ToldBy t (.object [("kind", .string kind), ("text", .string t.text), ("line", .number line),
        ("column", .number column), ("literal", literal)])

/-- The texts of a dump in JSON denote an array of objects that tell the tokens, and nothing else. -/
structure DecodesTo (tokens : List Token) (objects : List JsonValue) : Prop where
  told : List.Forall₂ Token.ToldBy tokens objects
  compact : ∀ v, JsonText (dumpJson tokens).compactText v ↔ v = .array objects
  indented : ∀ v, JsonText (dumpJson tokens).indentedText v ↔ v = .array objects
  /-- So does what is written, which has a line end behind it. -/
  written : ∀ v, JsonText (DumpFormat.json.write tokens) v ↔ v = .array objects

/-- A token has a value of its own kind, or none if its kind asks for none. -/
def Token.HasOwnValue (t : Token) : Prop :=
  t.literal.map Literal.kind = if t.kind.isLiteral = true then some t.kind else none

section
variable {v : Binary32} {x : Binary64} {t : Token} {tokens : List Token} {literal : Literal}

/-! ## Values -/

/-- A finite number is a numeral from which it is read again. -/
theorem Json.denotes_real (hx : x.isFinite = true) :
    ∃ n : SignedNumeral, (Json.real x).Denotes (.number n) ∧ n.negative = x.negative ∧
      n.numeral.value = (shortest binary64 jsonNumber.tie x.magnitude).value := by
  obtain ⟨n, htext, hnegative, hvalue⟩ := Json.exists_real hx
  exact ⟨n, fun layout depth r => .leaf (.number (by rw [htext])), hnegative, hvalue⟩

/-- A finite double is written as a JSON number that tells it. -/
theorem Literal.exists_toldBy_double (hx : x.isFinite = true) :
    ∃ value, (Literal.double x).json.Denotes value ∧ ToldBy (some (.double x)) value := by
  obtain ⟨n, hn, hnegative, hvalue⟩ := Json.denotes_real hx
  have hrounds := Binary.rounds_shortest Format.moderate_binary64 hx jsonNumber.tie
  refine ⟨_, hn, .double hnegative ?_ ?_⟩
  · rwa [n.abs_value, hvalue]
  · rw [n.readBinary?_text Format.regular_binary64 hvalue.symm, hnegative]
    exact Binary.ofDecimal?_shortest Format.moderate_binary64 hx rfl

/-- A finite float is written as a JSON number that tells it. -/
theorem Literal.exists_toldBy_float (hv : v.isFinite = true) :
    ∃ value, (Literal.float v).json.Denotes value ∧ ToldBy (some (.float v)) value := by
  obtain ⟨x, -, hjson, hsign, hfinite, hsame⟩ := Literal.exists_json_float hv
  obtain ⟨n, hn, hnegative, hvalue⟩ := Json.denotes_real hfinite
  have hrounds := Binary.rounds_shortest Format.moderate_binary32 hv shownNumber.tie
  have hnumeral := hvalue.trans hsame
  refine ⟨_, hjson ▸ hn, .float (hnegative.trans hsign) ?_ ?_⟩
  · rwa [n.abs_value, hnumeral]
  · rw [n.readBinary?_text Format.regular_binary32 hnumeral.symm, hnegative, hsign]
    exact Binary.ofDecimal?_shortest Format.moderate_binary32 hv rfl

/-- The value of a token denotes what tells it, and is `null` only if there is none. -/
theorem Literal.exists_toldBy (value : Option Literal) (h : ∀ l, value = some l → l.IsFinite) :
    ∃ told, ((value.map Literal.json).getD .null).Denotes told ∧ ToldBy value told ∧
      (told = .null ↔ value = none) := by
  suffices hsuffices : ∃ told, ((value.map Literal.json).getD .null).Denotes told ∧ ToldBy value told by
    obtain ⟨told, hdenotes, htold⟩ := hsuffices
    refine ⟨told, hdenotes, htold, ?_⟩
    cases htold with
    | none => exact iff_of_true rfl rfl
    | _ => exact iff_of_false nofun nofun
  match value with
  | none => exact ⟨_, Json.denotes_null, .none⟩
  | some (.string s) => exact ⟨_, Json.denotes_string s, .string⟩
  | some (.integer v) =>
    obtain ⟨n, hn, hwhole, hvalue⟩ := Json.denotes_integer v.toInt
    exact ⟨_, hn, .integer hwhole hvalue⟩
  | some (.longInteger v) =>
    obtain ⟨n, hn, hwhole, hvalue⟩ := Json.denotes_integer v.toInt
    exact ⟨_, hn, .longInteger hwhole hvalue⟩
  | some (.float v) => exact exists_toldBy_float (h _ rfl)
  | some (.double x) => exact exists_toldBy_double (h _ rfl)

/-! ## Tokens -/

/-- A token with a finite literal is written as an object that tells it. -/
theorem Token.exists_toldBy (h : ∀ l, t.literal = some l → l.IsFinite) :
    ∃ value, t.record.Denotes value ∧ t.ToldBy value := by
  obtain ⟨line, hline, hlineWhole, hlineValue⟩ := Json.denotes_integer t.line
  obtain ⟨column, hcolumn, hcolumnWhole, hcolumnValue⟩ := Json.denotes_integer t.column
  obtain ⟨literal, hliteral, htold, hnull⟩ := Literal.exists_toldBy t.literal h
  have hkind (k : Kind) : k.name = t.kind.name ↔ k = t.kind := ⟨Kind.name_injective, congrArg Kind.name⟩
  refine ⟨_, Json.denotes_object ?_, .object hkind hlineWhole ?_ hcolumnWhole ?_ htold hnull⟩
  · exact .cons ⟨rfl, Json.denotes_string _⟩ (.cons ⟨rfl, Json.denotes_string _⟩ (.cons ⟨rfl, hline⟩
      (.cons ⟨rfl, hcolumn⟩ (.cons ⟨rfl, hliteral⟩ .nil))))
  · rw [hlineValue, Int.cast_natCast]
  · rw [hcolumnValue, Int.cast_natCast]

/-- The records of tokens denote objects that tell the tokens. -/
theorem exists_objects (h : ∀ t ∈ tokens, ∀ l, t.literal = some l → l.IsFinite) :
    ∃ objects, List.Forall₂ Json.Denotes (tokens.map Token.record) objects ∧
      List.Forall₂ Token.ToldBy tokens objects := by
  induction tokens with
  | nil => exact ⟨[], .nil, .nil⟩
  | cons t tokens ih =>
    obtain ⟨ht, htokens⟩ := List.forall_mem_cons.1 h
    obtain ⟨value, hdenotes, htold⟩ := Token.exists_toldBy ht
    obtain ⟨objects, hall, hallTold⟩ := ih htokens
    exact ⟨value :: objects, .cons hdenotes hall, .cons htold hallTold⟩

/-- Tokens with finite literals are written as an array of objects that tell them. -/
theorem exists_decodesTo (h : ∀ t ∈ tokens, ∀ l, t.literal = some l → l.IsFinite) :
    ∃ objects, DecodesTo tokens objects := by
  obtain ⟨objects, hdenotes, htold⟩ := exists_objects h
  have hdump : (dumpJson tokens).Denotes (.array objects) := Json.denotes_array hdenotes
  have hindented (blanks : String) (hblanks : Blanks blanks.toList []) (v : JsonValue) :
      JsonText ((dumpJson tokens).indentedText ++ blanks) v ↔ v = .array objects :=
    hdump.jsonText_iff .indented 0 hblanks
  refine ⟨objects, htold, fun v => ?_, fun v => ?_, ?_⟩
  · have hcompact := hdump.jsonText_iff .compact 0 (show Blanks "".toList [] from .none) (w := v)
    rwa [String.append_empty] at hcompact
  · have hbare := hindented "" .none v
    rwa [String.append_empty] at hbare
  · exact hindented "\n" (.cons (.inr (.inr (.inl rfl))) .none)

/-! ## The tokens of a scan -/

/-- A token that a lexer hands out has its own value. -/
theorem Lexer.HandsOut.hasOwnValue {m : Lexer} (h : m.HandsOut (.ok t)) : t.HasOwnValue := by
  rcases h t rfl with ⟨kind, hkind, rfl⟩ | ⟨literal, rfl⟩
  · exact (if_neg (ne_true_of_eq_false hkind)).symm
  · exact (if_pos literal.isLiteral_kind).symm

/-- A token that is handed out has its own value. -/
theorem Token.Scanned.hasOwnValue (h : t.Scanned) : t.HasOwnValue := by
  -- A lexer for the text of the token alone reads the token once more, at another place.
  have hitem := congrArg Prod.fst (Lexer.readToken_eq (l := .ofSource t.text) rfl)
  have hrest : (Lexer.ofSource t.text).rest = t.text.toList := rfl
  rw [hrest, h.reading_text] at hitem
  have hhands := (Lexer.ofSource t.text).reads_token.handsOut
  rw [hitem] at hhands
  exact hhands.hasOwnValue

/-- A literal of a scanned token has the kind of the token. -/
theorem Token.Scanned.kind_of_literal (h : t.Scanned) (hliteral : t.literal = some literal) :
    t.kind = literal.kind := by
  have hown := h.hasOwnValue
  rw [HasOwnValue, hliteral, Option.map_some] at hown
  split at hown
  · exact (Option.some.inj hown).symm
  · cases hown

/-- A floating point number in a source text is finite. -/
theorem Token.Scanned.isFinite_of_literal (h : t.Scanned) (hliteral : t.literal = some literal) :
    literal.IsFinite := by
  have hkind := h.kind_of_literal hliteral
  cases literal with
  | string s => trivial
  | integer v => trivial
  | longInteger v => trivial
  | float v =>
    obtain ⟨f, literal, -, -, hvalue, -, hdenotes⟩ := h.exists_numeralForm hkind
    cases hvalue.symm.trans hliteral
    cases hdenotes with
    | float hnearest => exact hnearest.finite
  | double x =>
    obtain ⟨f, literal, -, -, hvalue, -, hdenotes⟩ := h.exists_numeralForm hkind
    cases hvalue.symm.trans hliteral
    cases hdenotes with
    | double hnearest => exact hnearest.finite

end

/-- A dump in JSON decodes to its tokens. Both texts of a dump, and what is written for it, denote one array
and nothing else, with an object for each token that tells the token. This is so for the tokens of every
scan, with recovery or without, whose values are of the kinds of the tokens, and for all other tokens as
long as their floating point numbers are finite: their whole numbers may be any of their type. -/
theorem json_dump_decodes :
    (∀ (source : String) (tokens : List Token), ScannedFrom source tokens →
      (∃ objects, DecodesTo tokens objects) ∧ ∀ t ∈ tokens, t.HasOwnValue) ∧
    ∀ tokens : List Token, (∀ t ∈ tokens, ∀ literal, t.literal = some literal → literal.IsFinite) →
      ∃ objects, DecodesTo tokens objects := by
  refine ⟨fun source tokens h => ⟨?_, fun t ht => (h.scanned t ht).hasOwnValue⟩,
    fun tokens h => exists_decodesTo h⟩
  exact exists_decodesTo fun t ht literal hliteral => (h.scanned t ht).isFinite_of_literal hliteral

/-- Characters that are escaped and one that is not, in a string of a source text, and the least whole
numbers, which no source text has. -/
theorem json_dump_decodes_escapes :
    let tokens : List Token :=
      [⟨.string, "\"a\"\"\\\x01😀\"", some (.string "a\"\\\x01😀"), 1, ⟨0, 11, 1, 1⟩⟩,
        ⟨.eof, "", none, 1, ⟨11, 11, 1, 9⟩⟩]
    let least : List Token :=
      [⟨.number .integer, "", some (.integer Int32.minValue), 1, ⟨0, 0, 1, 1⟩⟩,
        ⟨.number .longInteger, "", some (.longInteger Int64.minValue), 1, ⟨0, 0, 1, 1⟩⟩]
    ScannedFrom "\"a\"\"\\\x01😀\"" tokens ∧ (∃ objects, DecodesTo tokens objects) ∧
      (∀ t ∈ least, ∀ literal, t.literal = some literal → literal.IsFinite) ∧
      ∃ objects, DecodesTo least objects := by
  intro tokens least
  obtain ⟨hscans, hall⟩ := json_dump_decodes
  have hscan : ScannedFrom "\"a\"\"\\\x01😀\"" tokens :=
    .inl (scan_of_tokens (by decide +kernel)).2.1
  have hfinite : ∀ t ∈ least, ∀ literal, t.literal = some literal → literal.IsFinite := by
    intro t ht literal hliteral
    simp only [least, List.mem_cons, List.not_mem_nil, or_false] at ht
    rcases ht with rfl | rfl
    all_goals
      cases hliteral
      trivial
  exact ⟨hscan, (hscans _ tokens hscan).1, hfinite, hall least hfinite⟩

end BrightLexer
