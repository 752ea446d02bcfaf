import BrightLexer.Proofs.Lexer.Lookahead

/-!
# Newlines and blanks between tokens

A separator is a newline or a blank. No word, numeral or symbol holds one (`solid_cutWord`,
`solid_cutNumeral`, `solid_symbolAt?`), and a quoted text holds no newline
(`newline_not_mem_cutQuotation`), so a reader that meets a separator ends there as it does at the end
of the text.

The gap in front of a token is a run of blanks and at most one comment, which reaches up to the end
of its line (`gap_cutTrivia`). What opens a comment is said here without the reader
(`OpensComment`): an apostrophe, or the whole word `rem` in any case.
-/

namespace BrightLexer

/-- A newline or a blank. -/
def isSeparator (c : Char) : Bool := c == '\n' || isBlank c

theorem isSeparator_newline : isSeparator '\n' = true := by decide

theorem isSeparator_space : isSeparator ' ' = true := by decide

/-- There are four separators. -/
theorem isSeparator_iff {c : Char} :
    isSeparator c = true ↔ c = '\n' ∨ c = ' ' ∨ c = '\t' ∨ c = '\r' := by
  simp [isSeparator, isBlank, or_assoc]

/-- There are three blanks. -/
theorem isBlank_iff {c : Char} : isBlank c = true ↔ c = ' ' ∨ c = '\t' ∨ c = '\r' := by
  simp [isBlank, or_assoc]

/-- A test that all four separators fail holds of no separator. -/
theorem not_isSeparator {p : Char → Bool}
    (hp : p '\n' = false ∧ p ' ' = false ∧ p '\t' = false ∧ p '\r' = false) {c : Char}
    (hc : p c = true) : isSeparator c = false := by
  cases hs : isSeparator c with
  | false => rfl
  | true =>
    rcases isSeparator_iff.1 hs with rfl | rfl | rfl | rfl
    · exact absurd (hp.1.symm.trans hc) (by simp)
    · exact absurd (hp.2.1.symm.trans hc) (by simp)
    · exact absurd (hp.2.2.1.symm.trans hc) (by simp)
    · exact absurd (hp.2.2.2.symm.trans hc) (by simp)

/-- A text that holds no separator. -/
def Solid (cs : List Char) : Prop := ∀ c ∈ cs, isSeparator c = false

theorem Solid.nil : Solid [] := fun _ h => nomatch h

/-- Texts without separators have none when they are put together. -/
theorem Solid.append {a b : List Char} (ha : Solid a) (hb : Solid b) : Solid (a ++ b) :=
  fun c hc => (List.mem_append.1 hc).elim (ha c) (hb c)

/-- One character that separates nothing is solid. -/
theorem Solid.singleton {c : Char} (h : isSeparator c = false) : Solid [c] :=
  fun _ hd => List.mem_singleton.1 hd ▸ h

/-- A front part of a text that does not hold `t` ends before the first `t` there. -/
theorem length_le_of_not_mem {a r cs b : List Char} {t : Char} (ha : t ∉ a)
    (h : a ++ r = cs ++ t :: b) : a.length ≤ cs.length := by
  rcases Nat.lt_or_ge cs.length a.length with hlt | hge
  · have hget : (a ++ r)[cs.length]? = some t := by rw [h]; simp
    rw [List.getElem?_append_left hlt] at hget
    exact absurd (List.mem_of_getElem? hget) ha
  · exact hge

/-- A separator is no part of a text without separators. -/
theorem Solid.not_mem {a : List Char} {t : Char} (ha : Solid a) (ht : isSeparator t = true) :
    t ∉ a :=
  fun hm => absurd ((ha t hm).symm.trans ht) (by simp)

/-! ## No reader takes a separator -/

/-- A run of characters with a property that no separator has. -/
theorem solid_cutWhile {p : Char → Bool}
    (hp : p '\n' = false ∧ p ' ' = false ∧ p '\t' = false ∧ p '\r' = false) (cs : List Char) :
    Solid (cutWhile p cs).taken :=
  fun c hc => not_isSeparator hp (all_taken_cutWhile p cs c hc)

/-- A run ends before a character that fails the test, whatever follows that. -/
theorem cutWhile_append_stop {p : Char → Bool} {t : Char} (ht : p t = false) (cs b : List Char) :
    cutWhile p (cs ++ t :: b) = (cutWhile p cs).followedBy (t :: b) := by
  induction cs with
  | nil => simp [cutWhile, Cut.followedBy, ht]
  | cons c cs ih =>
    by_cases hc : p c = true
    · simp only [cutWhile, Cut.followedBy, Cut.mk.injEq] at ih
      simp [cutWhile, Cut.followedBy, hc, ih.1, ih.2]
    · simp [cutWhile, Cut.followedBy, hc]

/-- No separator is a digit. -/
theorem solid_cutDigits (cs : List Char) : Solid (cutDigits cs).taken :=
  solid_cutWhile (by decide) cs

/-- A fraction is a point and digits. -/
theorem solid_cutFraction (cs : List Char) : Solid (cutFraction cs).taken := by
  unfold cutFraction
  split
  · next h =>
    obtain ⟨c, r, rfl, -⟩ := startsFraction_iff.1 h
    exact (Solid.singleton (c := '.') (by decide)).append (solid_cutDigits _)
  · exact .nil

/-- A sign is no separator. -/
theorem solid_cutOptionalSign (cs : List Char) : Solid (cutOptionalSign cs).taken := by
  unfold cutOptionalSign
  split
  · split
    · next hc => rcases hc with rfl | rfl <;> exact .singleton (by decide)
    · exact .nil
  · exact .nil

/-- The first character of a text is solid if it passes a test that no separator passes. -/
theorem solid_take_one {α : Type} {f : Char → Option α} {cs : List Char} {a : α}
    (hf : f '\n' = none ∧ f ' ' = none ∧ f '\t' = none ∧ f '\r' = none)
    (h : cs.head?.bind f = some a) : Solid (cs.take 1) := by
  cases cs with
  | nil => exact .nil
  | cons c cs =>
    have hc : (f c).isSome = true := by
      rw [List.head?_cons, Option.bind_some] at h
      rw [h]; rfl
    refine .singleton (not_isSeparator (p := fun c => (f c).isSome) ?_ hc)
    simp [hf.1, hf.2.1, hf.2.2.1, hf.2.2.2]

/-- An exponent is a letter, a sign and digits. -/
theorem solid_cutExponent (cs : List Char) : Solid (cutExponent cs).taken := by
  unfold cutExponent
  split
  · exact .nil
  · next h =>
    exact ((solid_take_one (by decide) h).append (solid_cutOptionalSign _)).append
      (solid_cutDigits _)

/-- A type suffix is no separator. -/
theorem solid_cutSuffix (cs : List Char) : Solid (cutSuffix cs).1.taken := by
  unfold cutSuffix
  split
  · exact .nil
  · next h => exact solid_take_one (by decide) h

open Numeral in
/-- No numeral holds a separator, not even one that is malformed. -/
theorem solid_cutNumeral (cs : List Char) : Solid (cutNumeral cs).taken := by
  have hm : Solid (mantissa cs) := (solid_cutDigits cs).append (solid_cutFraction _)
  have he : Solid (exponentPart cs).taken := solid_cutExponent _
  have hs : Solid (suffixPart cs).1.taken := solid_cutSuffix _
  cases hb : (exponentPart cs).bare with
  | true => rw [cutNumeral_of_bare hb]; exact hm.append he
  | false =>
    cases hp : startsFraction (suffixPart cs).1.rest with
    | true =>
      rw [cutNumeral_of_point hb hp]
      exact ((hm.append he).append hs).append (solid_cutWhile (by decide) _)
    | false => rw [cutNumeral_of_sound hb hp]; exact (hm.append he).append hs

/-- No word holds a separator. -/
theorem solid_cutWord (cs : List Char) : Solid (cutWord cs).taken := by
  have hr : Solid (cutWhile isWordChar cs).taken := solid_cutWhile (by decide) cs
  unfold cutWord
  dsimp only
  split
  · exact hr
  · split
    · next hd =>
      exact hr.append (.singleton (not_isSeparator (p := isDesignator) (by decide) hd))
    · exact hr

/-- No symbol is spelled with a separator, by going through the table. -/
theorem solid_symbolAt? {cs : List Char} {entry : String × Kind}
    (h : symbolAt? cs = some entry) : Solid entry.1.toList := by
  have key : ∀ entry ∈ symbolTable, entry.1.toList.all (!isSeparator ·) = true := by
    decide +kernel
  intro c hc
  have hall := List.all_eq_true.1 (key entry (List.mem_of_find?_eq_some h)) c hc
  rwa [Bool.not_eq_true'] at hall

/-- What is quoted ends before a line end. -/
theorem newline_not_mem_cutQuotationBody (cs : List Char) :
    '\n' ∉ (cutQuotationBody cs).taken := by
  fun_induction cutQuotationBody cs with
  | case1 => simp
  | case2 cs ih => simpa [Quotation.extend] using ih
  | case3 => simp
  | case4 => simp
  | case5 c cs _ _ hn ih => simpa [Quotation.extend, Ne.symm hn] using ih

/-- So no quoted text holds one. -/
theorem newline_not_mem_cutQuotation {c : Char} (hc : c ≠ '\n') (cs : List Char) :
    '\n' ∉ (cutQuotation (c :: cs)).taken := by
  simpa [cutQuotation, Ne.symm hc] using newline_not_mem_cutQuotationBody cs

/-- A quoted text that is closed is read in the same way before any text that does not start with
another quote. -/
theorem cutQuotationBody_closed {cs more content : List Char}
    (h : (cutQuotationBody cs).content = some content) (hm : ∀ r, more ≠ '"' :: r) :
    cutQuotationBody (cs ++ more) =
      { cutQuotationBody cs with toCut := (cutQuotationBody cs).toCut.followedBy more } := by
  fun_induction cutQuotationBody cs generalizing content with
  | case1 => cases h
  | case2 cs ih =>
    obtain ⟨inner, hi, -⟩ := Option.map_eq_some_iff.1 h
    simp only [List.cons_append, cutQuotationBody, ih hi]
    rfl
  | case3 cs hcs =>
    have hne : ∀ r, cs ++ more ≠ '"' :: r := by
      intro r hr
      cases cs with
      | nil => exact hm r hr
      | cons d cs => exact hcs cs (by rw [(List.cons.inj hr).1])
    rw [List.cons_append, cutQuotationBody_quote hne]
    rfl
  | case4 => cases h
  | case5 c cs _ hq hn ih =>
    obtain ⟨inner, hi, -⟩ := Option.map_eq_some_iff.1 h
    rw [List.cons_append, cutQuotationBody_cons (fun hc => hq hc) hn, ih hi]
    rfl

/-! ## Gaps -/

/-- What opens a comment: an apostrophe, or the word `rem` in any case that no letter, digit or
underscore goes on. -/
inductive OpensComment : List Char → Prop
  | apostrophe (cs : List Char) : OpensComment ('\'' :: cs)
  | rem {word : List Char} (cs : List Char) : lowerCase word = ['r', 'e', 'm'] →
      (∀ c r, cs = c :: r → isWordChar c = false) → OpensComment (word ++ cs)

/-- The reader finds a comment exactly where one opens. -/
theorem opensComment_iff {cs : List Char} : opensComment cs = true ↔ OpensComment cs := by
  constructor
  · intro h
    unfold opensComment at h
    split at h
    · exact .apostrophe _
    · next r e m rest _ =>
      simp only [Bool.and_eq_true, beq_iff_eq, Bool.not_eq_true'] at h
      refine @OpensComment.rem [r, e, m] rest (by simp [lowerCase, h]) ?_
      rintro c tail rfl
      simpa using h.2
    · cases h
  · intro h
    cases h with
    | apostrophe => rfl
    | @rem word cs hw hcs =>
      obtain ⟨r, e, m, rfl⟩ : ∃ r e m, word = [r, e, m] := by
        match word, congrArg List.length hw with
        | [r, e, m], _ => exact ⟨r, e, m, rfl⟩
      simp only [lowerCase, List.map_cons, List.map_nil, List.cons.injEq, and_true] at hw
      have hr : r ≠ '\'' := by rintro rfl; exact absurd hw.1 (by decide)
      have hnext : cs.head?.any isWordChar = false := by
        cases cs with
        | nil => rfl
        | cons c tail => simpa using hcs c tail rfl
      simp [opensComment, hw, hnext]

/-- Only an apostrophe and the letter `r` open a comment. -/
theorem OpensComment.head {c : Char} {cs : List Char} (h : OpensComment (c :: cs)) :
    c = '\'' ∨ c.toLower = 'r' := by
  generalize he : c :: cs = all at h
  cases h with
  | apostrophe => exact .inl (List.cons.inj he).1
  | @rem word rest hw _ =>
    match word, hw with
    | r :: word, hw =>
      simp only [lowerCase, List.map_cons, List.cons.injEq] at hw
      rw [(List.cons.inj he).1]
      exact .inr hw.1

/-- A character whose lower case is a letter is one. -/
theorem isAlpha_of_toLower {c d : Char} (h : c.toLower = d) (hd : d.isLower = true) :
    c.isAlpha = true := by
  unfold Char.toLower at h
  split at h
  · next hc =>
    have hu : c.isUpper = true := decide_eq_true hc
    exact Bool.or_eq_true_iff.2 (.inl hu)
  · rw [h]
    exact Bool.or_eq_true_iff.2 (.inr hd)

/-- The letters of `rem` may stand in a word. -/
theorem isWordChar_of_mem_rem {word : List Char} {c : Char} (hw : lowerCase word = ['r', 'e', 'm'])
    (hc : c ∈ word) : isWordChar c = true := by
  have hl : c.toLower ∈ ['r', 'e', 'm'] := hw ▸ List.mem_map_of_mem hc
  have ha : c.isAlpha = true := by
    simp only [List.mem_cons, List.not_mem_nil, or_false] at hl
    rcases hl with h | h | h <;> exact isAlpha_of_toLower h (by decide)
  rw [isWordChar, Char.isAlphanum, ha]
  rfl

/-- A word is a run of word characters, or ends in a designator. -/
theorem cutWord_cases (cs : List Char) :
    (cutWord cs).toCut = cutWhile isWordChar cs ∨
      ∃ d, isDesignator d = true ∧ (cutWord cs).taken = (cutWhile isWordChar cs).taken ++ [d] := by
  unfold cutWord
  dsimp only
  split
  · exact .inl rfl
  · next d _ _ =>
    split
    · next hd => exact .inr ⟨d, hd, rfl⟩
    · exact .inl rfl

/-- A word that opens a comment on its own does so where it was taken from. -/
theorem OpensComment.of_cutWord {cs : List Char} (h : OpensComment (cutWord cs).taken) :
    OpensComment cs := by
  have hwhole : (cutWord cs).taken ++ (cutWord cs).rest = cs := whole_cutWord cs
  generalize ht : (cutWord cs).taken = taken at h
  rw [ht] at hwhole
  rw [← hwhole]
  cases h with
  | apostrophe tail => exact .apostrophe _
  | @rem word tail hw htail =>
    rw [List.append_assoc]
    refine .rem _ hw ?_
    intro c r hc
    cases tail with
    | cons d tail => exact (List.cons.inj hc).1 ▸ htail d tail rfl
    | nil =>
      rw [List.append_nil] at ht
      rcases cutWord_cases cs with hrun | ⟨d, hd, hrun⟩
      · exact head_rest_cutWhile ((congrArg Cut.rest hrun).symm.trans hc)
      · have hmem : d ∈ word := by rw [← ht, hrun]; simp
        have hchar := isWordChar_of_mem_rem hw hmem
        simp only [isDesignator, Bool.or_eq_true, beq_iff_eq] at hd
        rcases hd with (((rfl | rfl) | rfl) | rfl) | rfl <;> exact absurd hchar (by decide)

/-- A separator hides what stands behind it: a comment opens before it as it does before the end of
the text. -/
theorem opensComment_append_separator {t : Char} (ht : isSeparator t = true) (cs b : List Char) :
    opensComment (cs ++ t :: b) = opensComment cs := by
  have htw : isWordChar t = false := by
    rcases isSeparator_iff.1 ht with rfl | rfl | rfl | rfl <;> decide
  rw [Bool.eq_iff_iff, opensComment_iff, opensComment_iff]
  constructor
  · intro h
    generalize he : cs ++ t :: b = all at h
    cases h with
    | apostrophe rest =>
      cases cs with
      | nil => rw [(List.cons.inj he).1] at ht; exact absurd ht (by decide)
      | cons c cs => rw [(List.cons.inj he).1]; exact .apostrophe cs
    | @rem word rest hw hrest =>
      have hsolid : Solid word := by
        intro c hc
        have hl : c.toLower ∈ ['r', 'e', 'm'] := by
          rw [← hw]; exact List.mem_map_of_mem hc
        refine not_isSeparator (p := fun c => c.toLower ∈ ['r', 'e', 'm']) (by decide) ?_
        simpa using hl
      have hlen := length_le_of_not_mem (hsolid.not_mem ht) he.symm
      obtain ⟨tail, rfl⟩ : ∃ tail, cs = word ++ tail :=
        (List.prefix_of_prefix_length_le (he ▸ List.prefix_append word rest)
          (List.prefix_append cs (t :: b)) hlen).imp fun _ h => h.symm
      rw [List.append_assoc, List.append_cancel_left_eq] at he
      refine .rem tail hw ?_
      rintro c r rfl
      exact hrest c _ he.symm
  · intro h
    cases h with
    | apostrophe cs => exact .apostrophe _
    | @rem word rest hw hrest =>
      rw [List.append_assoc]
      refine .rem _ hw ?_
      intro c r he
      cases rest with
      | nil => exact (List.cons.inj he).1 ▸ htw
      | cons d rest => exact (List.cons.inj he).1 ▸ hrest d rest rfl

/-- No comment opens at a separator. -/
theorem opensComment_cons_separator {t : Char} (ht : isSeparator t = true) (cs : List Char) :
    opensComment (t :: cs) = false :=
  opensComment_append_separator ht [] cs

/-- `Gap gap rest` says that `gap` stands before a token or the end of the text, and `rest` behind
it: blanks, and then at most one comment, which goes up to the end of its line. -/
inductive Gap : List Char → List Char → Prop
  | nil (rest : List Char) : Gap [] rest
  | blank {c : Char} {gap rest : List Char} : isBlank c = true → Gap gap rest → Gap (c :: gap) rest
  | comment {gap rest : List Char} : OpensComment (gap ++ rest) → '\n' ∉ gap →
      (∀ c r, rest = c :: r → c = '\n') → Gap gap rest

/-- What is passed over before a token is a gap. -/
theorem gap_cutTrivia (cs : List Char) : Gap (cutTrivia cs).taken (cutTrivia cs).rest := by
  induction cs with
  | nil => exact .nil []
  | cons c cs ih =>
    unfold cutTrivia
    split
    · next h =>
      have hline : (cutLine (c :: cs)).taken ++ (cutLine (c :: cs)).rest = c :: cs :=
        whole_cutWhile _ _
      refine .comment (by rw [hline]; exact opensComment_iff.1 h) ?_ ?_
      · intro hn
        simpa using all_taken_cutWhile _ _ _ hn
      · intro d r hr
        simpa using head_rest_cutWhile hr
    · split
      · next hb => exact .blank hb ih
      · exact .nil _

/-- No newline is passed over before a token. -/
theorem Gap.newline_not_mem {gap rest : List Char} (h : Gap gap rest) : '\n' ∉ gap := by
  induction h with
  | nil => simp
  | blank hb _ ih =>
    rw [List.mem_cons, not_or]
    exact ⟨fun hc => absurd (hc ▸ hb) (by decide), ih⟩
  | comment _ hn _ => exact hn

/-- Nothing is passed over before a character if it is no blank and opens no comment. -/
theorem cutTrivia_eq_empty_iff {c : Char} {cs : List Char} :
    cutTrivia (c :: cs) = .empty (c :: cs) ↔
      opensComment (c :: cs) = false ∧ isBlank c = false := by
  constructor
  · intro h
    have ht : (cutTrivia (c :: cs)).taken = [] := congrArg Cut.taken h
    unfold cutTrivia at ht
    split at ht
    · next ho =>
      have hc : c = '\n' := by
        by_cases hc : c = '\n'
        · exact hc
        · simp [cutLine, cutWhile, hc] at ht
      rw [hc, opensComment_cons_separator isSeparator_newline] at ho
      cases ho
    · next ho =>
      split at ht
      · cases ht
      · next hb => exact ⟨Bool.eq_false_iff.2 ho, Bool.eq_false_iff.2 hb⟩
  · rintro ⟨ho, hb⟩
    rw [cutTrivia, ho, hb]
    rfl

/-- Nothing is passed over before a newline. -/
theorem cutTrivia_newline (cs : List Char) : cutTrivia ('\n' :: cs) = .empty ('\n' :: cs) :=
  cutTrivia_eq_empty_iff.2 ⟨opensComment_cons_separator isSeparator_newline cs, isBlank_newline⟩

/-- Where a token starts, nothing more is passed over. -/
theorem cutTrivia_rest (cs : List Char) :
    cutTrivia (cutTrivia cs).rest = .empty (cutTrivia cs).rest := by
  fun_induction cutTrivia cs with
  | case1 => rfl
  | case2 c cs ho =>
    cases hr : (cutLine (c :: cs)).rest with
    | nil => rfl
    | cons d rest =>
      have hd : d = '\n' := by simpa using head_rest_cutWhile hr
      rw [hd, cutTrivia_newline]
  | case3 c cs ho hb ih => exact ih
  | case4 c cs ho hb =>
    rw [Cut.rest_empty, cutTrivia, if_neg ho, if_neg hb]

/-- A newline ends what is passed over before a token as the end of the text does. -/
theorem cutTrivia_append_newline (cs b : List Char) :
    cutTrivia (cs ++ '\n' :: b) = (cutTrivia cs).followedBy ('\n' :: b) := by
  induction cs with
  | nil => exact cutTrivia_newline b
  | cons c cs ih =>
    have ho := opensComment_append_separator isSeparator_newline (c :: cs) b
    rw [List.cons_append] at ho ⊢
    unfold cutTrivia
    rw [ho]
    split
    · exact cutWhile_append_stop (by decide) (c :: cs) b
    · split
      · rw [ih]; rfl
      · rfl

end BrightLexer
