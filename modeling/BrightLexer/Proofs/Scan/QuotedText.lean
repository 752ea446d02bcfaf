import BrightLexer.Proofs.Lexer.QuoteRuns
import BrightLexer.Proofs.Scan.TokenStart

/-!
# Quoted texts

The token of a quoted text has the text between its quotes as its value, with each doubled quote taken
once, and a text is quoted in one way only: as its `stringForm`. `nextToken_quoted` says so in both
directions. A lexer that stands before the form of a text, with no other quote behind it, reads this text
(`Lexer.StartsAt.finds_string`), and every string token that is handed out is the form of its value
(`Token.Scanned.stringForm`).

It also says which quoted texts are not closed: those where no run of quotes in the line has an odd length
(`Lexer.StartsAt.finds_unterminated`). Everywhere else the token ends with the first odd run
(`Lexer.StartsAt.finds_oddRun`).
-/

namespace BrightLexer

section
variable {l : Lexer} {t : Token} {n : Nat} {gap s rest line back before behind : List Char}

/-- Nothing is passed over before an opening quote. -/
theorem cutTrivia_quote (cs : List Char) : cutTrivia ('"' :: cs) = .empty ('"' :: cs) :=
  cutTrivia_of_head (by decide) (by decide) (by decide) cs

/-- Where the form of a text is ahead and no other quote follows, this text is read. -/
theorem Lexer.StartsAt.finds_string (h : l.StartsAt gap (stringForm s ++ rest)) (hs : '\n' ∉ s)
    (hrest : rest.head? ≠ some '"') :
    l.Finds gap (stringForm s) (.token .string (some (.string (String.ofList s)))) := by
  refine h.finds_of_reading rest (cutTrivia_quote _) ?_
  have hbody := cutQuotationBody_closing hs hrest
  rw [stringForm, List.append_assoc, List.cons_append, List.singleton_append, reading_quote,
    cutQuotation, hbody]
  rfl

/-- Where the line is the form of no text behind its opening quote, the whole line is taken. -/
theorem Lexer.StartsAt.finds_unterminated (h : l.StartsAt gap ('"' :: line ++ back))
    (hline : LineEnds line back) (heven : EvenRuns line) :
    l.Finds gap ('"' :: line) (.fault .unterminatedString) := by
  obtain ⟨s, rfl, hs⟩ := heven.exists_doubleQuotes hline.newline_not_mem
  refine h.finds_of_reading back (cutTrivia_quote _) ?_
  rw [List.cons_append, reading_quote, cutQuotation, cutQuotationBody_open hs hline.ends]
  rfl

/-- A token of a line whose first odd run of quotes is known ends with this run. -/
theorem Lexer.StartsAt.finds_oddRun (h : l.StartsAt gap ('"' :: line ++ back))
    (hline : LineEnds line back) (hrun : FirstOddRun line before n behind) :
    ∃ s, '"' :: before ++ List.replicate n '"' = stringForm s ∧
      l.Finds gap (stringForm s) (.token .string (some (.string (String.ofList s)))) := by
  obtain ⟨s, hform, hs⟩ := hrun.exists_stringForm hline.newline_not_mem
  have hsplit : '"' :: line ++ back = stringForm s ++ (behind ++ back) := by
    rw [← hform, hrun.whole]
    simp only [List.cons_append, List.append_assoc]
  rw [hsplit] at h
  refine ⟨s, hform, h.finds_string hs ?_⟩
  cases behind with
  | cons c behind => exact hrun.right
  | nil =>
    cases back with
    | nil => nofun
    | cons c r =>
      rw [hline.ends c r rfl]
      exact fun he => absurd (Option.some.inj he) (by decide)

/-- Every string token that is handed out is the form of its value, which holds no newline. -/
theorem Token.Scanned.stringForm (h : t.Scanned) (hkind : t.kind = .string) :
    ∃ s : String, t.literal = some (.string s) ∧ t.text.toList = BrightLexer.stringForm s.toList ∧
      '\n' ∉ s.toList := by
  have hread := h.reading_text
  have hfinding := congrArg Reading.finding hread
  obtain ⟨c, cs, hcs, hc⟩ := quote_or_digit_of_isLiteral hfinding (by rw [hkind]; rfl)
  rw [hcs] at hread
  rcases hc with rfl | hc
  · rw [reading_quote] at hread
    injection hread with hcut hfound
    obtain ⟨content, hcontent, -, hvalue⟩ := Quotation.finding_eq_token_iff.1 hfound
    obtain ⟨htaken, hn⟩ := doubleQuotes_of_content hcontent
    refine ⟨String.ofList content, hvalue, ?_, ?_⟩
    · have hbody : '"' :: (cutQuotationBody cs).taken = '"' :: cs := congrArg Cut.taken hcut
      rw [hcs, ← hbody, htaken, String.toList_ofList]
      rfl
    · rwa [String.toList_ofList]
  · rw [reading_digit hc] at hread
    obtain ⟨_, _, -, -, hnumber, -⟩ := Numeral.finding_eq_token_iff.1 (congrArg Reading.finding hread)
    rw [hkind] at hnumber
    cases hnumber

end

/-- Quoted texts are read exactly. The form of a text without newlines is read as this text, wherever no
other quote stands behind it, and each string token that is handed out is the form of its value. Where a
token starts with a quote, it is not closed if and only if every run of quotes in the rest of the line is
even; then the line is taken, up to the newline. Otherwise there is a first run that is odd, and the
token ends with its last quote. -/
theorem nextToken_quoted :
    (∀ (l : Lexer) (gap : List Char) (s : String) (rest : List Char), '\n' ∉ s.toList →
      rest.head? ≠ some '"' → l.StartsAt gap (stringForm s.toList ++ rest) →
      l.Finds gap (stringForm s.toList) (.token .string (some (.string s)))) ∧
    (∀ t : Token, t.Scanned → t.kind = .string →
      ∃ s : String, t.literal = some (.string s) ∧ t.text.toList = stringForm s.toList ∧
        '\n' ∉ s.toList) ∧
    ∀ (l : Lexer) (gap line back : List Char), LineEnds line back →
      l.StartsAt gap ('"' :: line ++ back) →
      ((∃ fault, l.nextToken.1 = .error fault ∧ fault.cause = .unterminatedString) ↔ EvenRuns line) ∧
      (EvenRuns line →
        l.Finds gap ('"' :: line) (.fault .unterminatedString) ∧ l.nextToken.2.rest = back) ∧
      (¬ EvenRuns line → ∃ before n behind, FirstOddRun line before n behind) ∧
      ∀ before n behind, FirstOddRun line before n behind →
        ∃ s : String, '"' :: before ++ List.replicate n '"' = stringForm s.toList ∧
          l.Finds gap (stringForm s.toList) (.token .string (some (.string s))) ∧
          l.nextToken.2.rest = behind ++ back := by
  refine ⟨fun l gap s rest hs hrest h => ?_, fun t ht hkind => ht.stringForm hkind,
    fun l gap line back hline h => ?_⟩
  · have hfinds := h.finds_string hs hrest
    rwa [String.ofList_toList] at hfinds
  have hopen (heven : EvenRuns line) : l.Finds gap ('"' :: line) (.fault .unterminatedString) :=
    h.finds_unterminated hline heven
  refine ⟨⟨fun hfault => ?_, fun heven => ⟨_, (hopen heven).item, rfl⟩⟩, fun heven => ?_,
    exists_firstOddRun, fun before n behind hrun => ?_⟩
  · by_contra hodd
    obtain ⟨before, n, behind, hrun⟩ := exists_firstOddRun hodd
    obtain ⟨s, -, hfinds⟩ := h.finds_oddRun hline hrun
    obtain ⟨fault, hfault, -⟩ := hfault
    rw [hfinds.item] at hfault
    cases hfault
  · exact ⟨hopen heven, (List.append_cancel_left ((hopen heven).rest_eq h)).symm⟩
  · obtain ⟨s, hform, hfinds⟩ := h.finds_oddRun hline hrun
    refine ⟨String.ofList s, by rwa [String.toList_ofList], by rwa [String.toList_ofList], ?_⟩
    have hrest := hfinds.rest_eq h
    rw [← hform, hrun.whole] at hrest
    simp only [List.cons_append, List.append_assoc] at hrest
    exact (List.append_cancel_left (List.append_cancel_left (List.cons.inj hrest).2)).symm

/-- Four quotes are the form of one, also where they are the first odd run of a line; and in front of a
doubled quote at its end, a quoted text is not closed. -/
theorem nextToken_quoted_quotes :
    let l := Lexer.ofSource "\"\"\"\"x\""
    l.Finds [] "\"\"\"\"".toList (.token .string (some (.string "\""))) ∧
      (∃ t : Token, t.Scanned ∧ ∃ s : String, t.literal = some (.string s) ∧
        t.text.toList = stringForm s.toList ∧ '\n' ∉ s.toList) ∧
      (∃ s : String, '"' :: List.replicate 3 '"' = stringForm s.toList ∧ l.nextToken.2.rest = ['x', '"']) ∧
      EvenRuns "a\"\"".toList ∧
      (Lexer.ofSource "\"a\"\"\n").Finds [] "\"a\"\"".toList (.fault .unterminatedString) := by
  intro l
  obtain ⟨hforms, htokens, hlines⟩ := nextToken_quoted
  have hone : l.Finds [] "\"\"\"\"".toList (.token .string (some (.string "\""))) :=
    hforms l [] "\"" "x\"".toList (by decide) (by decide) ⟨rfl, .nil _⟩
  have hscanned := Token.Scanned.call hone.item
  have hrun : FirstOddRun "\"\"\"x\"".toList [] 3 ['x', '"'] :=
    ⟨⟨rfl, by decide, nofun, by decide⟩, rfl, fun _ _ _ _ hlt => absurd hlt (Nat.not_lt_zero _)⟩
  obtain ⟨s, hform, -, hrest⟩ := (hlines l [] _ [] ⟨by decide, nofun⟩ ⟨rfl, .nil _⟩).2.2.2 _ _ _ hrun
  have hopen := hlines (Lexer.ofSource "\"a\"\"\n") [] "a\"\"".toList ['\n']
    ⟨by decide, fun c r hr => (List.cons.inj hr).1.symm⟩ ⟨rfl, .nil _⟩
  have heven := hopen.1.1 ⟨⟨.unterminatedString, 1, 1⟩, by decide +kernel, rfl⟩
  exact ⟨hone, ⟨_, hscanned, htokens _ hscanned rfl⟩, ⟨s, hform, hrest⟩, heven, (hopen.2.1 heven).1⟩

end BrightLexer
