import BrightLexer.Proofs.Command.DumpAgreement
import BrightLexer.Proofs.Scan.TokenStart

/-!
# A dump as text tells its tokens

A dumped line has no quotes around the text of its token and no mark behind it, but it can be read
again. The place and the name of the kind end at the first blanks. What follows is the text, or the text
and a blank, and the lexer itself takes no more of that than the text
(`Token.Scanned.text_eq_reading_tail`): a text is read in the same way on its own and in front of a
blank. A newline is the one text that is not shown as it is, and there the kind tells the text. The text
of a token, in turn, tells its kind and its value. So no two tokens that differ are dumped as the same
line (`Token.Scanned.dumpLine_injective`), and no two lists of tokens as the same text.
-/

namespace BrightLexer

/-- A text is made of lines: cut at every line end, it is these lines and nothing behind the last. -/
def MadeOfLines (s : String) (lines : List String) : Prop :=
  splitLines s.toList = lines.map String.toList ++ [[]]

/-- Tokens that one of the two scans of a source text gives. -/
def ScannedFrom (source : String) (tokens : List Token) : Prop :=
  scan source = .ok tokens ∨ (scanRecovering source).1 = tokens

/-- Two tokens are alike but for their byte offsets. -/
structure Token.SameOnLine (t u : Token) : Prop where
  kind : t.kind = u.kind
  text : t.text = u.text
  literal : t.literal = u.literal
  line : t.line = u.line
  column : t.column = u.column

/-- Tokens of one of the two scans are handed out. -/
theorem ScannedFrom.scanned {source : String} {tokens : List Token} (h : ScannedFrom source tokens) :
    ∀ t ∈ tokens, t.Scanned := by
  intro t ht
  rcases h with h | rfl
  · exact .strict h ht
  · exact .recovering ht

/-! ## Parts that a character ends -/

/-- Where a character ends two parts that do not hold it, equal texts have equal parts. -/
theorem append_cons_injective {c : Char} {a b r s : List Char} (ha : c ∉ a) (hb : c ∉ b)
    (h : a ++ c :: r = b ++ c :: s) : a = b ∧ r = s := by
  have hcut {a : List Char} (ha : c ∉ a) (r : List Char) :
      cutWhile (· != c) (a ++ c :: r) = ⟨a, c :: r⟩ := by
    refine cutWhile_append_eq (fun d hd => bne_iff_ne.2 fun he => ha (he ▸ hd)) fun d s hs => ?_
    rw [← (List.cons.inj hs).1, bne_self_eq_false]
  have heq := congrArg (cutWhile (· != c)) h
  rw [hcut ha, hcut hb] at heq
  obtain ⟨rfl, hrest⟩ := Cut.mk.inj heq
  exact ⟨rfl, (List.cons.inj hrest).2⟩

/-- A number is known from its digits. -/
theorem digitsOf_injective {m n : Nat} (h : digitsOf m = digitsOf n) : m = n := by
  calc m = digitsValue (digitsOf m) := (digitsValue_digitsOf m).symm
    _ = digitsValue (digitsOf n) := by rw [h]
    _ = n := digitsValue_digitsOf n

/-- A character that is no digit is not among the digits of a number. -/
theorem not_mem_digitsOf {c : Char} (hc : c.isDigit = false) (n : Nat) : c ∉ digitsOf n := by
  intro hmem
  rw [isDigit_of_mem_digitsOf hmem] at hc
  cases hc

/-! ## The parts of a line -/

namespace Token

variable {t u : Token}

/-- What a line shows behind the name of the kind: the text, and the value if there is one. -/
def lineTail (t : Token) : List Char :=
  onOneLine t.text.toList ++
    (match t.literal with
    | some literal => " = " ++ literal.shown
    | none => "").toList

/-- The line of a token is its place, its kind and what is shown behind them. -/
theorem toList_dumpLine (t : Token) :
    t.dumpLine.toList =
      digitsOf t.line ++ ':' :: (digitsOf t.column ++ ' ' :: (t.kind.name.toList ++ ' ' :: t.lineTail)) := by
  have hplace : s!"{t.line}:{t.column}".toList = digitsOf t.line ++ ':' :: digitsOf t.column := by
    show (toString t.line ++ ":" ++ toString t.column).toList = _
    rw [String.toList_append, String.toList_append, toList_toString_nat, toList_toString_nat,
      List.append_assoc]
    rfl
  have hline (value : String) : (s!"{t.line}:{t.column}" ++ " " ++ t.kind.name ++ " " ++
      String.ofList (onOneLine t.text.toList) ++ value).toList =
      s!"{t.line}:{t.column}".toList ++ ' ' :: (t.kind.name.toList ++ ' ' ::
        (onOneLine t.text.toList ++ value.toList)) := by
    simp only [String.toList_append, String.toList_ofList, List.append_assoc]
    rfl
  refine (hline _).trans ?_
  rw [hplace, List.append_assoc, List.cons_append, lineTail]
  rfl

/-- No name of a kind holds a blank. -/
theorem space_not_mem_name (k : Kind) : ' ' ∉ k.name.toList := by
  have key : ∀ k ∈ Kind.all, ' ' ∉ k.name.toList := by decide +kernel
  exact key k (Kind.mem_all k)

/-- A line tells the place, the kind and what is shown behind them. -/
theorem parts_of_dumpLine_eq (h : t.dumpLine = u.dumpLine) :
    t.line = u.line ∧ t.column = u.column ∧ t.kind = u.kind ∧ t.lineTail = u.lineTail := by
  have hlist := congrArg String.toList h
  rw [toList_dumpLine, toList_dumpLine] at hlist
  obtain ⟨hline, hlist⟩ :=
    append_cons_injective (not_mem_digitsOf rfl _) (not_mem_digitsOf rfl _) hlist
  obtain ⟨hcolumn, hlist⟩ :=
    append_cons_injective (not_mem_digitsOf rfl _) (not_mem_digitsOf rfl _) hlist
  obtain ⟨hname, htail⟩ :=
    append_cons_injective (space_not_mem_name _) (space_not_mem_name _) hlist
  exact ⟨digitsOf_injective hline, digitsOf_injective hcolumn,
    Kind.name_injective (String.toList_inj.1 hname), htail⟩

/-- A text without a newline is shown as it is. -/
theorem onOneLine_eq_self {cs : List Char} (h : '\n' ∉ cs) : onOneLine cs = cs := by
  rw [onOneLine]
  refine (List.flatMap_congr fun c hc => if_neg ?_).trans (List.flatMap_singleton' cs)
  rintro rfl
  exact h hc

/-! ## The text behind the name -/

/-- A text that starts with a newline is one. -/
theorem Scanned.newline_of_cons (h : t.Scanned) {r : List Char} (hr : t.text.toList = '\n' :: r) :
    t.kind = .newline ∧ t.text = "\n" := by
  have hread := h.reading_text
  rw [hr, reading_newline] at hread
  injection hread with hcut hfinding
  injection hcut with htaken
  exact ⟨(Finding.token.inj hfinding).1.symm, String.toList_inj.1 (hr.trans htaken.symm)⟩

/-- The text of a newline token is a newline. -/
theorem Scanned.text_of_newline (h : t.Scanned) (hkind : t.kind = .newline) : t.text = "\n" := by
  have hread : (reading t.text.toList).finding = .token .newline t.literal := by
    rw [h.reading_text, hkind]
  obtain ⟨r, hr⟩ := eq_newline_of_finding hread
  exact (h.newline_of_cons hr).2

/-- No other token has a newline in its text. -/
theorem Scanned.newline_not_mem (h : t.Scanned) (hkind : t.kind ≠ .newline) :
    '\n' ∉ t.text.toList := by
  intro hmem
  obtain ⟨r, hr⟩ : ∃ r, t.text.toList = '\n' :: r :=
    eq_newline_of_mem_taken (by rwa [h.reading_text])
  exact hkind (h.newline_of_cons hr).1

/-- A token with a value has a text. -/
theorem Scanned.text_ne_nil (h : t.Scanned) {literal : Literal} (hvalue : t.literal = some literal) :
    t.text.toList ≠ [] := by
  intro hnil
  have hread := congrArg Reading.finding h.reading_text
  rw [hnil, hvalue] at hread
  exact absurd (Finding.token.inj hread).2 nofun

/-- Behind the name of the kind, the lexer takes the text of the token and no more. -/
theorem Scanned.text_eq_reading_tail (h : t.Scanned) (hkind : t.kind ≠ .newline) :
    t.text.toList = (reading t.lineTail).taken := by
  have hread := h.reading_text
  rw [lineTail, onOneLine_eq_self (h.newline_not_mem hkind)]
  cases hvalue : t.literal with
  | none =>
    dsimp only
    rw [String.toList_empty, List.append_nil, hread]
  | some literal =>
    have hblank : (" = " ++ literal.shown).toList = ' ' :: ("= ".toList ++ literal.shown.toList) :=
      String.toList_append
    dsimp only
    rw [hblank, reading_append_separator isSeparator_space (h.text_ne_nil hvalue)
      (.inr (by rw [hread]; nofun)), hread]
    rfl

/-- Tokens that are dumped as the same line are alike. -/
theorem Scanned.dumpLine_injective (ht : t.Scanned) (hu : u.Scanned) (h : t.dumpLine = u.dumpLine) :
    t.SameOnLine u := by
  obtain ⟨hline, hcolumn, hkind, htail⟩ := parts_of_dumpLine_eq h
  have htext : t.text = u.text := by
    by_cases hnewline : t.kind = .newline
    · rw [ht.text_of_newline hnewline, hu.text_of_newline (hkind ▸ hnewline)]
    · refine String.toList_inj.1 ?_
      rw [ht.text_eq_reading_tail hnewline, hu.text_eq_reading_tail (hkind ▸ hnewline), htail]
  have hread := congrArg Reading.finding (ht.reading_text)
  rw [htext, hu.reading_text] at hread
  exact ⟨hkind, htext, (Finding.token.inj hread).2.symm, hline, hcolumn⟩

end Token

/-! ## All lines of a dump -/

section
variable {tokens others : List Token}

/-- A dump as text is made of the lines of its tokens. -/
theorem madeOfLines_dumpText (tokens : List Token) :
    MadeOfLines (dumpText tokens) (tokens.map Token.dumpLine) := by
  have hlines : ∀ s ∈ tokens.map Token.dumpLine, OneLine s :=
    List.forall_mem_map.2 fun t _ => oneLine_dumpLine t
  have hsplit := splitLines_join hlines
  rwa [List.map_map] at hsplit

/-- A text is made of its lines in one way. -/
theorem MadeOfLines.unique {s : String} {lines lines' : List String} (h : MadeOfLines s lines)
    (h' : MadeOfLines s lines') : lines = lines' := by
  have hlists := List.append_cancel_right (h.symm.trans h')
  exact List.map_injective_iff.2 (fun _ _ => String.toList_inj.1) hlists

/-- Dumps that are the same text are dumps of tokens that are alike. -/
theorem sameOnLine_of_dumpText_eq (ht : ∀ t ∈ tokens, t.Scanned) (hu : ∀ u ∈ others, u.Scanned)
    (h : dumpText tokens = dumpText others) : List.Forall₂ Token.SameOnLine tokens others := by
  have hlines := (madeOfLines_dumpText tokens).unique (h ▸ madeOfLines_dumpText others)
  have hpointwise : List.Forall₂ (fun t u => t.dumpLine = u.dumpLine) tokens others := by
    rw [← List.forall₂_eq_eq_eq, List.forall₂_map_left_iff, List.forall₂_map_right_iff] at hlines
    exact hlines
  clear h hlines
  induction hpointwise with
  | nil => exact .nil
  | cons hline _ ih =>
    obtain ⟨ht, hts⟩ := List.forall_mem_cons.1 ht
    obtain ⟨hu, hus⟩ := List.forall_mem_cons.1 hu
    exact .cons (ht.dumpLine_injective hu hline) (ih hts hus)

end

/-- A dump as text has one line for each token and loses nothing. What is written for a source text,
without recovery if it has no fault and with recovery in any case, is made of the lines of the tokens, in
their order. If what is written for two lists of scanned tokens is the same, byte for byte, then the lists
are equally long, and token by token they have the same kind, text, value, line and column. -/
theorem dump_tells_tokens :
    (∀ (files : Files) (path source : String), readSource files path = .ok source →
      (∀ tokens, scan source = .ok tokens →
        MadeOfLines (dumpTokens files ⟨path, .text, false⟩).out (tokens.map Token.dumpLine)) ∧
      MadeOfLines (dumpTokens files ⟨path, .text, true⟩).out
        ((scanRecovering source).1.map Token.dumpLine)) ∧
    ∀ (source source' : String) (tokens tokens' : List Token), ScannedFrom source tokens →
      ScannedFrom source' tokens' →
      (DumpFormat.text.write tokens).toByteArray = (DumpFormat.text.write tokens').toByteArray →
      List.Forall₂ Token.SameOnLine tokens tokens' := by
  refine ⟨fun files path source hsource => ⟨fun tokens hscan => ?_, ?_⟩, ?_⟩
  · rw [dumpTokens_of_readSource hsource, dumpSource, if_neg Bool.false_ne_true]
    dsimp only
    rw [hscan]
    exact madeOfLines_dumpText tokens
  · rw [dumpTokens_of_readSource hsource, dumpSource_recovering]
    exact madeOfLines_dumpText _
  · intro source source' tokens tokens' h h' hbytes
    exact sameOnLine_of_dumpText_eq h.scanned h'.scanned (String.toByteArray_inj.1 hbytes)

/-- A string that looks like the end of a line, in front of a comment: the dump shows neither the comment
nor how many bytes it has, but all the rest. -/
theorem dump_tells_tokens_comment :
    let files : Files := fun path => if path = "a" then .file "\" = \"'e".toUTF8 else .missing
    let string : Token := ⟨.string, "\" = \"", some (.string " = "), 1, ⟨0, 5, 1, 1⟩⟩
    let tokens := [string, ⟨.eof, "", none, 1, ⟨7, 7, 1, 8⟩⟩]
    let others := [string, ⟨.eof, "", none, 1, ⟨8, 8, 1, 8⟩⟩]
    readSource files "a" = .ok "\" = \"'e" ∧ scan "\" = \"'e" = .ok tokens ∧
      MadeOfLines (dumpTokens files ⟨"a", .text, false⟩).out (tokens.map Token.dumpLine) ∧
      ScannedFrom "\" = \"'é" others ∧
      (DumpFormat.text.write tokens).toByteArray = (DumpFormat.text.write others).toByteArray ∧
      List.Forall₂ Token.SameOnLine tokens others := by
  intro files string tokens others
  obtain ⟨hlines, hsame⟩ := dump_tells_tokens
  have hsource : readSource files "a" = .ok "\" = \"'e" := readSource_of_toUTF8 (if_pos rfl)
  have hscan : scan "\" = \"'e" = .ok tokens := (scan_of_tokens (by decide +kernel)).2.1
  have hother : scan "\" = \"'é" = .ok others := (scan_of_tokens (by decide +kernel)).2.1
  exact ⟨hsource, hscan, (hlines files "a" _ hsource).1 tokens hscan, .inl hother, rfl,
    hsame _ _ _ _ (.inl hscan) (.inl hother) rfl⟩

end BrightLexer
