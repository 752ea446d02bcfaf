import BrightLexer.Lexer.Numeral
import BrightLexer.Lexer.Quotation
import BrightLexer.Lexer.SymbolTable
import BrightLexer.Lexer.Trivia
import BrightLexer.Lexer.Word

/-!
# How far a reader looks ahead

A reader takes a part from the front of a text, and to decide where that part ends it looks at what
stands behind it. None of the readers looks further than that: if the part taken from `cs ++ more`
lies within `cs`, then `cs` alone is read in the same way, with `more` left over. There is one such
lemma for each reader, from runs of characters (`cutWhile_append`) to whole numerals
(`cutNumeral_append`), words (`cutWord_append`), quoted texts (`cutQuotation_append`) and symbols
(`symbolAt?_append`).

The premise cannot be dropped: `1` is a numeral, but in front of `.5` it is read on.
-/

namespace BrightLexer

/-- The same cut with more text behind it. -/
def Cut.followedBy (c : Cut) (more : List Char) : Cut := ⟨c.taken, c.rest ++ more⟩

@[simp] theorem Cut.taken_followedBy (c : Cut) (more : List Char) :
    (c.followedBy more).taken = c.taken := rfl

@[simp] theorem Cut.rest_followedBy (c : Cut) (more : List Char) :
    (c.followedBy more).rest = c.rest ++ more := rfl

@[simp] theorem Cut.followedBy_after (c : Cut) (front more : List Char) :
    (c.after front).followedBy more = (c.followedBy more).after front := rfl

/-- As many characters as a cut takes are what it takes. -/
theorem Cut.take_length_taken {c : Cut} {cs : List Char} (h : c.whole = cs) :
    cs.take c.taken.length = c.taken := by
  rw [← h, whole, List.take_left]

/-- Behind as many characters as a cut takes is what it leaves. -/
theorem Cut.drop_length_taken {c : Cut} {cs : List Char} (h : c.whole = cs) :
    cs.drop c.taken.length = c.rest := by
  rw [← h, whole, List.drop_left]

section
variable {cs more : List Char}

/-! ## Runs -/

/-- A run that ends within a text ends at a character of it, by induction on the text. -/
theorem cutWhile_append {p : Char → Bool}
    (h : (cutWhile p (cs ++ more)).taken.length ≤ cs.length) :
    cutWhile p (cs ++ more) = (cutWhile p cs).followedBy more := by
  induction cs with
  | nil =>
    have ht : more.takeWhile p = [] := List.eq_nil_of_length_eq_zero (Nat.le_zero.1 h)
    have hd := List.takeWhile_append_dropWhile (p := p) (l := more)
    rw [ht, List.nil_append] at hd
    simp [cutWhile, Cut.followedBy, ht, hd]
  | cons c cs ih =>
    by_cases hc : p c = true
    · have h' := ih (by simpa [cutWhile, hc] using h)
      simp only [cutWhile, Cut.followedBy, Cut.mk.injEq] at h'
      simp [cutWhile, Cut.followedBy, hc, h'.1, h'.2]
    · simp [cutWhile, Cut.followedBy, hc]

/-- So does a run of digits. -/
theorem cutDigits_append (h : (cutDigits (cs ++ more)).taken.length ≤ cs.length) :
    cutDigits (cs ++ more) = (cutDigits cs).followedBy more :=
  cutWhile_append h

/-! ## Numerals -/

/-- A fraction starts with a point and a digit. -/
theorem startsFraction_iff :
    startsFraction cs = true ↔ ∃ c r, cs = '.' :: c :: r ∧ c.isDigit = true := by
  constructor
  · intro h
    unfold startsFraction at h
    split at h
    · next c r => exact ⟨c, r, rfl, h⟩
    · cases h
  · rintro ⟨c, r, rfl, hc⟩
    exact hc

/-- Whether a fraction starts a text is decided by its first two characters. -/
theorem startsFraction_append (h : startsFraction (cs ++ more) = true → 2 ≤ cs.length) :
    startsFraction (cs ++ more) = startsFraction cs := by
  rw [Bool.eq_iff_iff]
  constructor
  · intro hs
    obtain ⟨c, r, he, hc⟩ := startsFraction_iff.1 hs
    match cs, h hs with
    | d :: e :: cs, _ =>
      simp only [List.cons_append, List.cons.injEq] at he
      exact startsFraction_iff.2 ⟨c, cs, by rw [he.1, he.2.1], hc⟩
  · intro hs
    obtain ⟨c, r, rfl, hc⟩ := startsFraction_iff.1 hs
    exact startsFraction_iff.2 ⟨c, r ++ more, rfl, hc⟩

/-- A fraction starts with two characters, and the rest of it is a run of digits. -/
theorem cutFraction_append (h : (cutFraction (cs ++ more)).taken.length ≤ cs.length) :
    cutFraction (cs ++ more) = (cutFraction cs).followedBy more := by
  have hs : startsFraction (cs ++ more) = startsFraction cs := by
    refine startsFraction_append ?_
    intro hf
    obtain ⟨c, r, he, hc⟩ := startsFraction_iff.1 hf
    rw [cutFraction, if_pos hf, he] at h
    simp only [cutDigits, cutWhile, List.tail_cons, List.takeWhile_cons, hc, if_true,
      Cut.taken_after, List.length_append, List.length_take, List.length_cons] at h
    omega
  unfold cutFraction at h ⊢
  rw [hs] at h ⊢
  split
  · next hf =>
    obtain ⟨c, r, rfl, hc⟩ := startsFraction_iff.1 hf
    rw [if_pos hf] at h
    simp only [List.cons_append, List.tail_cons, Cut.taken_after, List.length_append,
      List.length_take, List.length_cons] at h
    have hd : cutDigits (c :: r ++ more) = _ := cutDigits_append (by simp at h ⊢; omega)
    rw [List.cons_append] at hd
    simp [hd]
  · rfl

/-- A sign is the first character or none. -/
theorem cutOptionalSign_append (h : (cutOptionalSign (cs ++ more)).taken.length ≤ cs.length) :
    cutOptionalSign (cs ++ more) = (cutOptionalSign cs).followedBy more := by
  cases cs with
  | cons c cs =>
    simp only [cutOptionalSign, List.cons_append]
    split <;> rfl
  | nil =>
    cases more with
    | nil => rfl
    | cons c more =>
      simp only [cutOptionalSign, List.nil_append] at h ⊢
      split
      · next hc => simp [hc] at h
      · rfl

/-- An exponent is its letter, a sign and a run of digits; where it lacks digits, it does so in both texts.
-/
theorem cutExponent_append (h : (cutExponent (cs ++ more)).taken.length ≤ cs.length) :
    cutExponent (cs ++ more) =
      { cutExponent cs with toCut := (cutExponent cs).toCut.followedBy more } := by
  cases cs with
  | nil =>
    cases more with
    | nil => rfl
    | cons c more =>
      unfold cutExponent at h ⊢
      simp only [List.nil_append, List.head?_cons, List.head?_nil, Option.bind_some,
        Option.bind_none] at h ⊢
      split
      · rfl
      · next hm => simp [hm] at h
  | cons c cs =>
    unfold cutExponent at h ⊢
    simp only [List.cons_append, List.head?_cons, Option.bind_some, List.tail_cons] at h ⊢
    split
    · rfl
    · next hm =>
      simp only [hm, Cut.taken_after, List.take_succ_cons, List.take_zero, List.length_append,
        List.length_cons, List.length_nil] at h
      have hs : cutOptionalSign (cs ++ more) = _ := cutOptionalSign_append (by omega)
      have hl := congrArg List.length (whole_cutOptionalSign cs)
      rw [Cut.whole, List.length_append] at hl
      rw [hs] at h ⊢
      simp only [Cut.rest_followedBy, Cut.taken_followedBy] at h ⊢
      have hd : cutDigits ((cutOptionalSign cs).rest ++ more) = _ := cutDigits_append (by omega)
      rw [hd]
      rfl

/-- A type suffix is the first character or none. -/
theorem cutSuffix_append (h : (cutSuffix (cs ++ more)).1.taken.length ≤ cs.length) :
    cutSuffix (cs ++ more) = ((cutSuffix cs).1.followedBy more, (cutSuffix cs).2) := by
  cases cs with
  | nil =>
    cases more with
    | nil => rfl
    | cons c more =>
      unfold cutSuffix at h ⊢
      simp only [List.nil_append, List.head?_cons, List.head?_nil, Option.bind_some,
        Option.bind_none] at h ⊢
      split
      · rfl
      · next hm => simp [hm] at h
  | cons c cs =>
    unfold cutSuffix
    simp only [List.cons_append, List.head?_cons, Option.bind_some]
    split <;> rfl

namespace Numeral

/-- The digits at the front of a numeral. -/
def wholePart (cs : List Char) : Cut := cutDigits cs

/-- The fraction behind the digits of a numeral. -/
def fractionPart (cs : List Char) : Cut := cutFraction (wholePart cs).rest

/-- The exponent behind the digits and the fraction of a numeral. -/
def exponentPart (cs : List Char) : Exponent := cutExponent (fractionPart cs).rest

/-- The type suffix behind the other parts of a numeral. -/
def suffixPart (cs : List Char) : Cut × Option TypeSuffix := cutSuffix (exponentPart cs).rest

/-- The digits and the fraction of a numeral. -/
def mantissa (cs : List Char) : List Char := (wholePart cs).taken ++ (fractionPart cs).taken

/-- A character that a numeral with one point too many goes on over. -/
def isTailChar (c : Char) : Bool := c.isDigit || c == '.'

end Numeral

open Numeral

/-- A numeral that runs into the letter of an exponent without digits ends there. -/
theorem cutNumeral_of_bare (h : (exponentPart cs).bare = true) :
    cutNumeral cs =
      ⟨(exponentPart cs).toCut.after (mantissa cs), .error .exponentWithoutDigits⟩ := by
  unfold cutNumeral
  exact if_pos h

/-- A numeral that has no place for the fraction behind it takes all digits and points there. -/
theorem cutNumeral_of_point (h : (exponentPart cs).bare = false)
    (hp : startsFraction (suffixPart cs).1.rest = true) :
    cutNumeral cs =
      ⟨(cutWhile isTailChar (suffixPart cs).1.rest).after
          (mantissa cs ++ (exponentPart cs).taken ++ (suffixPart cs).1.taken),
        .error (if !(fractionPart cs).taken.isEmpty && (exponentPart cs).mark.isNone &&
          (suffixPart cs).2.isNone then .secondPoint else .trailingPoint)⟩ := by
  unfold cutNumeral
  refine (if_neg (Bool.eq_false_iff.1 h)).trans ?_
  exact if_pos hp

/-- Any other numeral is made of its four parts. -/
theorem cutNumeral_of_sound (h : (exponentPart cs).bare = false)
    (hp : startsFraction (suffixPart cs).1.rest = false) :
    cutNumeral cs =
      ⟨(suffixPart cs).1.after (mantissa cs ++ (exponentPart cs).taken),
        .ok ⟨!(fractionPart cs).taken.isEmpty, (exponentPart cs).mark, (suffixPart cs).2,
          (wholePart cs).taken.length⟩⟩ := by
  unfold cutNumeral
  refine (if_neg (Bool.eq_false_iff.1 h)).trans ?_
  exact if_neg (Bool.eq_false_iff.1 hp)

/-- The digits, the fraction and the exponent of a numeral are taken in any case. -/
theorem length_mantissa_exponent_le (cs : List Char) :
    (mantissa cs).length + (exponentPart cs).taken.length ≤ (cutNumeral cs).taken.length := by
  cases hb : (exponentPart cs).bare with
  | true => simp [cutNumeral_of_bare hb]
  | false =>
    cases hp : startsFraction (suffixPart cs).1.rest with
    | true => simp [cutNumeral_of_point hb hp]
    | false => simp [cutNumeral_of_sound hb hp]

/-- A numeral whose exponent is whole takes its suffix, and the start of a fraction behind it. -/
theorem length_suffix_le (hb : (exponentPart cs).bare = false) :
    (mantissa cs).length + (exponentPart cs).taken.length + (suffixPart cs).1.taken.length +
        (if startsFraction (suffixPart cs).1.rest then 2 else 0)
      ≤ (cutNumeral cs).taken.length := by
  cases hp : startsFraction (suffixPart cs).1.rest with
  | false => simp [cutNumeral_of_sound hb hp]; omega
  | true =>
    obtain ⟨c, r, he, hc⟩ := startsFraction_iff.1 hp
    have h2 : 2 ≤ (cutWhile isTailChar (suffixPart cs).1.rest).taken.length := by
      simp [he, cutWhile, isTailChar, hc]
    simp [cutNumeral_of_point hb hp]
    omega

/-- The digits at the front of a numeral, and what follows them, are the text. -/
theorem wholePart_append_rest (cs : List Char) : (wholePart cs).taken ++ (wholePart cs).rest = cs :=
  whole_cutDigits cs

/-- The digits and the fraction of a numeral, and what follows them, are the text. -/
theorem mantissa_append_rest (cs : List Char) : mantissa cs ++ (fractionPart cs).rest = cs := by
  have hf : (fractionPart cs).taken ++ (fractionPart cs).rest = (wholePart cs).rest :=
    whole_cutFraction _
  rw [mantissa, List.append_assoc, hf, wholePart_append_rest]

/-- The parts of a numeral up to its exponent, and what follows them, are the text. -/
theorem exponent_append_rest (cs : List Char) :
    mantissa cs ++ (exponentPart cs).taken ++ (exponentPart cs).rest = cs := by
  have he : (exponentPart cs).taken ++ (exponentPart cs).rest = (fractionPart cs).rest :=
    whole_cutExponent _
  rw [List.append_assoc, he, mantissa_append_rest]

/-- The four parts of a numeral, and what follows them, are the text. -/
theorem suffix_append_rest (cs : List Char) :
    mantissa cs ++ (exponentPart cs).taken ++ (suffixPart cs).1.taken ++ (suffixPart cs).1.rest
      = cs := by
  have hs : (suffixPart cs).1.taken ++ (suffixPart cs).1.rest = (exponentPart cs).rest :=
    whole_cutSuffix _
  rw [List.append_assoc, hs, exponent_append_rest]

/-- The digits of a numeral are part of its mantissa. -/
theorem wholePart_append (h : (mantissa (cs ++ more)).length ≤ cs.length) :
    wholePart (cs ++ more) = (wholePart cs).followedBy more := by
  rw [mantissa, List.length_append] at h
  exact cutDigits_append (Nat.le_trans (Nat.le_add_right ..) h)

/-- So is its fraction. -/
theorem fractionPart_append (h : (mantissa (cs ++ more)).length ≤ cs.length) :
    fractionPart (cs ++ more) = (fractionPart cs).followedBy more := by
  have hw := wholePart_append h
  have hl := congrArg List.length (wholePart_append_rest cs)
  rw [mantissa, List.length_append] at h
  unfold fractionPart at h ⊢
  simp only [hw, Cut.rest_followedBy, Cut.taken_followedBy, List.length_append] at h hl ⊢
  exact cutFraction_append (by omega)

/-- A mantissa that lies within a text is the mantissa of that text. -/
theorem mantissa_append (h : (mantissa (cs ++ more)).length ≤ cs.length) :
    mantissa (cs ++ more) = mantissa cs := by
  rw [mantissa, wholePart_append h, fractionPart_append h]
  rfl

/-- If the exponent behind it does so, too, then it is the exponent of that text. -/
theorem exponentPart_append
    (h : (mantissa (cs ++ more)).length + (exponentPart (cs ++ more)).taken.length ≤ cs.length) :
    exponentPart (cs ++ more) =
      { exponentPart cs with toCut := (exponentPart cs).toCut.followedBy more } := by
  have hm : (mantissa (cs ++ more)).length ≤ cs.length := by omega
  have hl := congrArg List.length (mantissa_append_rest cs)
  rw [mantissa_append hm] at h
  unfold exponentPart at h ⊢
  simp only [fractionPart_append hm, Cut.rest_followedBy, List.length_append] at h hl ⊢
  exact cutExponent_append (by omega)

/-- And so it goes for the type suffix, once all parts lie within the text. -/
theorem suffixPart_append
    (h : (mantissa (cs ++ more)).length + (exponentPart (cs ++ more)).taken.length +
      (suffixPart (cs ++ more)).1.taken.length ≤ cs.length) :
    suffixPart (cs ++ more) = ((suffixPart cs).1.followedBy more, (suffixPart cs).2) := by
  have he : exponentPart (cs ++ more) = _ := exponentPart_append (by omega)
  have hl := congrArg List.length (exponent_append_rest cs)
  rw [mantissa_append (by omega)] at h
  unfold suffixPart at h ⊢
  simp only [he, Cut.rest_followedBy, Cut.taken_followedBy, List.length_append] at h hl ⊢
  exact cutSuffix_append (by omega)

/-- A numeral is read in the same way when there is more text behind it, as long as it does not
reach into that text. -/
theorem cutNumeral_append (h : (cutNumeral (cs ++ more)).taken.length ≤ cs.length) :
    cutNumeral (cs ++ more) =
      { cutNumeral cs with toCut := (cutNumeral cs).toCut.followedBy more } := by
  have hme := length_mantissa_exponent_le (cs ++ more)
  have hm : mantissa (cs ++ more) = _ := mantissa_append (by omega)
  have hf : fractionPart (cs ++ more) = _ := fractionPart_append (by omega)
  have he : exponentPart (cs ++ more) = _ := exponentPart_append (by omega)
  cases hb : (exponentPart cs).bare with
  | true =>
    have hb' : (exponentPart (cs ++ more)).bare = true := by rw [he]; exact hb
    rw [cutNumeral_of_bare hb, cutNumeral_of_bare hb', he, hm]
    rfl
  | false =>
    have hb' : (exponentPart (cs ++ more)).bare = false := by rw [he]; exact hb
    have hsl := length_suffix_le hb'
    have hx : suffixPart (cs ++ more) = _ := suffixPart_append (by omega)
    have hl := congrArg List.length (suffix_append_rest cs)
    simp only [he, hm, hx, Cut.taken_followedBy, Cut.rest_followedBy, List.length_append] at hsl hl
    have hp : startsFraction ((suffixPart cs).1.rest ++ more) =
        startsFraction (suffixPart cs).1.rest := by
      refine startsFraction_append ?_
      intro hp
      rw [if_pos hp] at hsl
      omega
    cases hs : startsFraction (suffixPart cs).1.rest with
    | false =>
      have hs' : startsFraction (suffixPart (cs ++ more)).1.rest = false := by
        rw [hx]; exact hp.trans hs
      rw [cutNumeral_of_sound hb hs, cutNumeral_of_sound hb' hs', he, hm, hx, hf,
        wholePart_append (by omega)]
      rfl
    | true =>
      have hs' : startsFraction (suffixPart (cs ++ more)).1.rest = true := by
        rw [hx]; exact hp.trans hs
      have ht : cutWhile isTailChar ((suffixPart cs).1.rest ++ more) =
          (cutWhile isTailChar (suffixPart cs).1.rest).followedBy more := by
        refine cutWhile_append ?_
        rw [cutNumeral_of_point hb' hs'] at h
        simp only [he, hm, hx, Cut.taken_after, Cut.taken_followedBy, Cut.rest_followedBy,
          List.length_append] at h
        omega
      rw [cutNumeral_of_point hb hs, cutNumeral_of_point hb' hs', he, hm, hx, hf]
      simp only [Cut.rest_followedBy, ht]
      rfl

/-! ## Words, quoted texts and symbols -/

/-- A word is a run and perhaps a designator, which has to lie within the text. -/
theorem cutWord_append (h : (cutWord (cs ++ more)).taken.length ≤ cs.length) :
    cutWord (cs ++ more) = { cutWord cs with toCut := (cutWord cs).toCut.followedBy more } := by
  have hle : (cutWhile isWordChar (cs ++ more)).taken.length ≤ (cutWord (cs ++ more)).taken.length := by
    unfold cutWord
    dsimp only
    split
    · exact Nat.le_refl _
    · split <;> simp
  have hr : cutWhile isWordChar (cs ++ more) = _ := cutWhile_append (by omega)
  have hl : ((cutWhile isWordChar cs).taken ++ (cutWhile isWordChar cs).rest).length = cs.length :=
    congrArg List.length (whole_cutWhile isWordChar cs)
  unfold cutWord at h ⊢
  simp only [hr, Cut.taken_followedBy, Cut.rest_followedBy, List.length_append] at h hl ⊢
  cases hcs : (cutWhile isWordChar cs).rest with
  | cons c rest =>
    simp only [List.cons_append]
    split <;> simp [Cut.followedBy, hcs]
  | nil =>
    cases more with
    | nil => simp [hcs, Cut.followedBy]
    | cons c more =>
      have hc : isDesignator c = false := by
        cases hd : isDesignator c with
        | false => rfl
        | true => simp [hcs, hd] at h hl; omega
      simp [hcs, hc, Cut.followedBy]

/-- A quote that no other quote follows ends a quoted text. -/
theorem cutQuotationBody_quote (h : ∀ r, cs ≠ '"' :: r) :
    cutQuotationBody ('"' :: cs) = ⟨⟨['"'], cs⟩, some []⟩ := by
  rw [cutQuotationBody]
  exact fun r hr => h r hr

/-- A character other than a quote and a newline goes into a quoted text as it stands. -/
theorem cutQuotationBody_cons {c : Char} (hq : c ≠ '"') (hn : c ≠ '\n') :
    cutQuotationBody (c :: cs) = (cutQuotationBody cs).extend [c] c := by
  rw [cutQuotationBody, if_neg hn]
  · exact fun _ h _ => hq h
  · exact hq

/-- A quoted text that ends within a text ends there at a single quote or at a line end, by induction on how
it is read. -/
theorem cutQuotationBody_append
    (h : (cutQuotationBody (cs ++ more)).taken.length ≤ cs.length) :
    cutQuotationBody (cs ++ more) =
      { cutQuotationBody cs with toCut := (cutQuotationBody cs).toCut.followedBy more } := by
  fun_induction cutQuotationBody cs with
  | case1 =>
    -- nothing may be taken, so `more` is empty or starts with a newline
    have ht := List.eq_nil_of_length_eq_zero (Nat.le_zero.1 h)
    rw [List.nil_append] at ht ⊢
    fun_cases cutQuotationBody more with
    | case1 => rfl
    | case4 => rfl
    | _ => simp_all [cutQuotationBody, Quotation.extend]
  | case2 cs ih =>
    simp only [List.cons_append, cutQuotationBody, Quotation.extend, Cut.taken_after,
      List.length_append, List.length_cons, List.length_nil] at h ⊢
    rw [ih (by omega)]
    rfl
  | case3 cs hcs =>
    have hmore : ∀ r, cs ++ more ≠ '"' :: r := by
      intro r hr
      cases cs with
      | cons d cs => exact hcs cs (by rw [(List.cons.inj hr).1])
      | nil =>
        rw [List.nil_append] at hr
        rw [hr] at h
        simp [cutQuotationBody, Quotation.extend] at h
    rw [List.cons_append, cutQuotationBody_quote hmore]
    rfl
  | case4 => rfl
  | case5 c cs h1 h2 h3 ih =>
    have hq : c ≠ '"' := fun hc => h2 hc
    rw [List.cons_append, cutQuotationBody_cons hq h3] at h ⊢
    simp only [Quotation.extend, Cut.taken_after, List.length_append, List.length_cons,
      List.length_nil] at h ⊢
    rw [ih (by omega)]
    rfl

/-- So it is with the opening quote before it. -/
theorem cutQuotation_append {c : Char}
    (h : (cutQuotation (c :: cs ++ more)).taken.length ≤ (c :: cs).length) :
    cutQuotation (c :: cs ++ more) =
      { cutQuotation (c :: cs) with toCut := (cutQuotation (c :: cs)).toCut.followedBy more } := by
  simp only [List.cons_append, cutQuotation, Cut.taken_after, List.length_append, List.length_cons,
    List.length_nil] at h ⊢
  rw [cutQuotationBody_append (by omega)]
  rfl

/-- A symbol that lies within a text is the one found there. -/
theorem symbolAt?_append {entry : String × Kind} (h : symbolAt? (cs ++ more) = some entry)
    (hle : entry.1.length ≤ cs.length) : symbolAt? cs = some entry := by
  obtain ⟨before, after, he, hlate⟩ := List.find?_eq_some_iff_append.1 h |>.2
  refine List.find?_eq_some_iff_append.2 ⟨?_, before, after, he, ?_⟩
  · have hp := List.isPrefixOf_iff_prefix.1 (List.find?_eq_some_iff_append.1 h).1
    exact List.isPrefixOf_iff_prefix.2
      (List.prefix_of_prefix_length_le hp (List.prefix_append cs more) (by rwa [String.length_toList]))
  · intro e hmem
    have hn := hlate e hmem
    simp only [Bool.not_eq_true', Bool.eq_false_iff, ne_eq, List.isPrefixOf_iff_prefix] at hn ⊢
    exact fun hp => hn (hp.trans (List.prefix_append cs more))

/-- A text that starts with no symbol does not start with one when it is cut short. -/
theorem symbolAt?_append_none (h : symbolAt? (cs ++ more) = none) : symbolAt? cs = none := by
  refine List.find?_eq_none.2 fun e hmem hp => List.find?_eq_none.1 h e hmem ?_
  rw [List.isPrefixOf_iff_prefix] at hp ⊢
  exact hp.trans (List.prefix_append cs more)

end

end BrightLexer
