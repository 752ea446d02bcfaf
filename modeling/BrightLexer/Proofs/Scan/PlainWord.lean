import BrightLexer.Proofs.Scan.DesignatedWord

/-!
# Words without a type designator

A word that no type designator follows is a reserved word or a name, by its letters alone: it is the
reserved word that is spelled as it is but for case, and a name if there is none
(`Lexer.StartsAt.finds_word`). All of the word is taken, so none of the shorter reserved words at its
front is seen, and neither is `rem`, which opens a comment only as a whole word.

`nextToken_word` also says so in the other direction. A token that is a reserved word is a question mark
or a whole word of the source text, which neither a character of a word nor a designator goes on.
-/

namespace BrightLexer

/-- Neither a character that goes on a word nor a type designator is at the front of a text. -/
def EndsPlainWord (rest : List Char) : Prop :=
  ∀ c r, rest = c :: r → isWordChar c = false ∧ c ∉ ['$', '%', '!', '#', '&']

/-- The kind of a word that has no designator: the reserved word with its spelling, in any case, or
else a name. -/
inductive WordKind (word : List Char) : Kind → Prop
  | keyword {k : Keyword} : lowerCase word = lowerCase k.spelling.toList → WordKind word (.keyword k)
  | identifier : (∀ k : Keyword, lowerCase word ≠ lowerCase k.spelling.toList) →
      WordKind word .identifier

section
variable {word rest gap cs : List Char} {l : Lexer} {k : Keyword} {kind : Kind}

/-- Reserved words are spelled in lower case. -/
theorem Keyword.lowerCase_spelling (k : Keyword) :
    lowerCase k.spelling.toList = k.spelling.toList := by
  cases k <;> rfl

/-- A word is no keyword just when none is spelled like it, in any letter case. -/
theorem Keyword.ofText?_eq_none_iff :
    ofText? word = none ↔ ∀ k : Keyword, lowerCase word ≠ lowerCase k.spelling.toList := by
  rw [Option.eq_none_iff_forall_ne_some]
  simp only [ne_eq, ofText?_eq_some_iff, lowerCase_spelling]

/-- A word has one kind, the one that is found for it. -/
theorem wordKind_iff :
    WordKind word kind ↔ ((Keyword.ofText? word).map Kind.keyword).getD .identifier = kind := by
  constructor
  · intro h
    cases h with
    | keyword hk =>
      rw [Keyword.lowerCase_spelling, ← Keyword.ofText?_eq_some_iff] at hk
      rw [hk]
      rfl
    | identifier hnone =>
      rw [Keyword.ofText?_eq_none_iff.2 hnone]
      rfl
  · rintro rfl
    cases hk : Keyword.ofText? word with
    | none => exact .identifier (Keyword.ofText?_eq_none_iff.1 hk)
    | some k =>
      rw [Keyword.ofText?_eq_some_iff, ← Keyword.lowerCase_spelling] at hk
      exact .keyword hk

/-- Every word has a kind. -/
theorem exists_wordKind (word : List Char) : ∃ kind, WordKind word kind :=
  ⟨_, wordKind_iff.2 rfl⟩

/-- A word that no designator follows is taken alone. -/
theorem cutWord_plain (hw : ∀ c ∈ word, isWordChar c = true) (hrest : EndsPlainWord rest) :
    cutWord (word ++ rest) = ⟨⟨word, rest⟩, false⟩ := by
  have hrun : cutWhile isWordChar (word ++ rest) = ⟨word, rest⟩ :=
    cutWhile_append_eq hw fun c r hr => (hrest c r hr).1
  rw [cutWord, hrun]
  cases rest with
  | nil => rfl
  | cons c r =>
    have hdes : ¬ isDesignator c = true := fun hd => (hrest c r rfl).2 (isDesignator_iff.1 hd)
    exact if_neg hdes

/-- What is cut off as a word ends in a designator, or is a word that none follows. -/
theorem designated_or_plain (cs : List Char) :
    (cutWord cs).designated = true ∨
      cutWord cs = ⟨cutWhile isWordChar cs, false⟩ ∧ EndsPlainWord (cutWhile isWordChar cs).rest := by
  unfold cutWord
  dsimp only
  cases hrest : (cutWhile isWordChar cs).rest with
  | nil => exact .inr ⟨rfl, nofun⟩
  | cons c r =>
    by_cases hd : isDesignator c = true
    · exact .inl (congrArg Word.designated (if_pos hd))
    · refine .inr ⟨if_neg hd, ?_⟩
      intro d tail hdr
      obtain ⟨rfl, -⟩ := List.cons.inj hdr
      exact ⟨head_rest_cutWhile hrest, fun hmem => hd (isDesignator_iff.2 hmem)⟩

/-- A run of word characters that starts as a word is one. -/
theorem isWord_taken_cutWhile {c : Char} (hc : isWordStart c = true) (cs : List Char) :
    IsWord (cutWhile isWordChar (c :: cs)).taken := by
  refine ⟨c, (cutWhile isWordChar cs).taken, ?_, hc, all_taken_cutWhile _ _⟩
  exact List.takeWhile_cons_of_pos (isWordChar_of_isWordStart hc)

/-- Of the symbols, only the question mark is a reserved word. -/
theorem eq_questionMark_of_symbolAt? {entry : String × Kind} (h : symbolAt? cs = some entry)
    (hkind : entry.2 = .keyword k) : entry.1 = "?" := by
  have key : ∀ entry ∈ symbolTable, entry.2.isKeyword = true → entry.1 = "?" := by decide +kernel
  exact key entry (List.mem_of_find?_eq_some h) (by rw [hkind]; rfl)

/-- What is read as a reserved word is a question mark or a whole word. -/
theorem word_of_keyword {value : Option Literal}
    (h : (reading cs).finding = .token (.keyword k) value) :
    (reading cs).taken = ['?'] ∨
      IsWord (reading cs).taken ∧ EndsPlainWord (reading cs).rest ∧
        lowerCase (reading cs).taken = lowerCase k.spelling.toList := by
  cases cs with
  | nil => cases h
  | cons c cs =>
    rcases first_char_cases c with rfl | rfl | hd | hw | ⟨hn, hq, hd, hw⟩
    · cases h
    · rw [reading_quote] at h
      obtain ⟨_, -, hkind, -⟩ := Quotation.finding_eq_token_iff.1 h
      cases hkind
    · rw [reading_digit hd] at h
      obtain ⟨_, _, -, -, hkind, -⟩ := Numeral.finding_eq_token_iff.1 h
      cases hkind
    · rw [reading_wordStart hw] at h ⊢
      rcases designated_or_plain (c :: cs) with hdes | ⟨hcut, hend⟩
      · rw [Word.finding, hdes] at h
        cases h
      · rw [hcut] at h ⊢
        obtain ⟨hkind, -⟩ := Finding.token.inj h
        cases wordKind_iff.2 hkind with
        | keyword hspelling => exact .inr ⟨isWord_taken_cutWhile hw cs, hend, hspelling⟩
    · rw [reading_symbol hn hq hd hw] at h ⊢
      cases hs : symbolAt? (c :: cs) with
      | none =>
        rw [symbolReading_of_none hs] at h
        cases h
      | some entry =>
        rw [symbolReading_of_some hs] at h ⊢
        have hmark := eq_questionMark_of_symbolAt? hs (Finding.token.inj h).1
        exact .inl (congrArg String.toList hmark)

namespace Lexer

/-- A word without a designator is of its kind, unless the word is `rem`. -/
theorem StartsAt.finds_word (h : l.StartsAt gap (word ++ rest)) (hw : IsWord word)
    (hrest : EndsPlainWord rest) (hrem : lowerCase word ≠ ['r', 'e', 'm'])
    (hkind : WordKind word kind) : l.Finds gap word (.token kind none) := by
  have hcut := cutWord_plain hw.isWordChar hrest
  have ho : opensComment (word ++ rest) = false := by
    refine Bool.eq_false_iff.2 fun ho => hrem ?_
    exact (opensComment_word_iff hw fun c r hr => (hrest c r hr).1).1 (opensComment_iff.1 ho)
  obtain ⟨c, r, rfl, hc, -⟩ := hw
  refine h.finds_of_reading rest (cutTrivia_eq_empty_iff.2 ⟨ho, isBlank_of_isWordStart hc⟩) ?_
  rw [List.cons_append] at hcut ⊢
  rw [reading_wordStart hc, hcut, ← wordKind_iff.1 hkind]
  rfl

end Lexer

end

/-- Words without a designator are read whole, and by their spelling. At the start of a token, such a
word is a token of its kind, whose text is the word, and the cursor is left behind it; but the word `rem`
opens a comment, which is passed over, and then the line end is found, or the end of the text. Every token
that is a reserved word is a question mark or such a word. -/
theorem nextToken_word :
    (∀ (l : Lexer) (gap word rest : List Char), IsWord word → EndsPlainWord rest →
      l.StartsAt gap (word ++ rest) →
      (lowerCase word ≠ ['r', 'e', 'm'] →
        ∃ kind, WordKind word kind ∧ (∀ other, WordKind word other → other = kind) ∧
          l.Finds gap word (.token kind none) ∧ l.nextToken.2.rest = rest) ∧
      (lowerCase word = ['r', 'e', 'm'] →
        ∃ line back, word ++ rest = line ++ back ∧ LineEnds line back ∧
          l.Finds (gap ++ line) (back.take 1)
            (.token (if back = [] then .eof else .newline) none))) ∧
    ∀ (l : Lexer) (t : Token) (k : Keyword), l.nextToken.1 = .ok t → t.kind = .keyword k →
      t.text = "?" ∨
        ∃ gap, l.StartsAt gap (t.text.toList ++ l.nextToken.2.rest) ∧ IsWord t.text.toList ∧
          EndsPlainWord l.nextToken.2.rest ∧
          lowerCase t.text.toList = lowerCase k.spelling.toList := by
  refine ⟨?_, ?_⟩
  · intro l gap word rest hw hrest h
    refine ⟨fun hrem => ?_, fun hrem => ?_⟩
    · obtain ⟨kind, hkind⟩ := exists_wordKind word
      have hfinds := h.finds_word hw hrest hrem hkind
      refine ⟨kind, hkind, fun other hother => ?_, hfinds, ?_⟩
      · exact (wordKind_iff.1 hother).symm.trans (wordKind_iff.1 hkind)
      · exact (List.append_cancel_left (hfinds.rest_eq h)).symm
    · have ho : OpensComment (word ++ rest) :=
        (opensComment_word_iff hw fun c r hr => (hrest c r hr).1).2 hrem
      exact ⟨_, _, (whole_cutWhile _ _).symm, lineEnds_cutLine _, h.finds_comment ho⟩
  · intro l t k ht hk
    obtain ⟨gap, hstart, hread⟩ := Lexer.exists_reading_of_token ht
    have hfinding := congrArg Reading.finding hread
    rw [hk] at hfinding
    have hcases := word_of_keyword hfinding
    rw [hread] at hcases
    rcases hcases with hmark | ⟨hw, hend, hspelling⟩
    · exact .inl (String.toList_inj.1 hmark)
    · exact .inr ⟨gap, hstart, hw, hend, hspelling⟩

/-- A reserved word that a name goes on from is not seen in it, nor is `rem`; and a reserved word is found
in any case, also in front of a sign. -/
theorem nextToken_word_longer :
    (Lexer.ofSource "EndIf_2 x").Finds [] "EndIf_2".toList (.token .identifier none) ∧
      (Lexer.ofSource "remark").Finds [] "remark".toList (.token .identifier none) ∧
      (Lexer.ofSource " eNDiF:").Finds [' '] "eNDiF".toList (.token (.keyword .endIf) none) ∧
      IsWord "eNDiF".toList := by
  obtain ⟨hword, hkeyword⟩ := nextToken_word
  have hlonger : WordKind "EndIf_2".toList .identifier :=
    .identifier (Keyword.ofText?_eq_none_iff.1 rfl)
  have hremark : WordKind "remark".toList .identifier :=
    .identifier (Keyword.ofText?_eq_none_iff.1 rfl)
  have hreserved : WordKind "eNDiF".toList (.keyword .endIf) := .keyword (by decide)
  refine ⟨?_, ?_, ?_⟩
  · obtain ⟨kind, -, honly, hfinds, -⟩ := (hword (.ofSource "EndIf_2 x") [] "EndIf_2".toList [' ', 'x']
      ⟨'E', "ndIf_2".toList, rfl, rfl, List.all_eq_true.1 rfl⟩
      (by rintro c r ⟨⟩; decide) ⟨rfl, .nil _⟩).1 (by decide)
    rwa [honly _ hlonger]
  · obtain ⟨kind, -, honly, hfinds, -⟩ := (hword (.ofSource "remark") [] "remark".toList []
      ⟨'r', "emark".toList, rfl, rfl, List.all_eq_true.1 rfl⟩ nofun ⟨rfl, .nil _⟩).1 (by decide)
    rwa [honly _ hremark]
  · obtain ⟨kind, -, honly, hfinds, -⟩ := (hword (.ofSource " eNDiF:") [' '] "eNDiF".toList [':']
      ⟨'e', "NDiF".toList, rfl, rfl, List.all_eq_true.1 rfl⟩
      (by rintro c r ⟨⟩; decide) ⟨rfl, .blank rfl (.nil _)⟩).1 (by decide)
    rw [← honly _ hreserved] at hfinds
    rcases hkeyword _ _ _ hfinds.item rfl with hmark | ⟨_, -, hwhole, -, -⟩
    · exact absurd hmark (by decide)
    · exact ⟨hfinds, hwhole⟩

end BrightLexer
