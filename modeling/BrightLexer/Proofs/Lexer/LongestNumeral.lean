import BrightLexer.Proofs.Lexer.NumeralForm

/-!
# The longest numeral

The numeral that is read from a text is the longest form of the grammar at its front
(`NumeralForm.LongestIn`). There is one wherever a text starts with a digit
(`NumeralForm.exists_longestIn`), and only one (`NumeralForm.LongestIn.unique`).

What is taken can be more than the form, in two cases: where the letter of an exponent follows that has no
digits (`NumeralForm.LongestIn.cutNumeral_of_missesDigits`), and where a point follows that has some
(`NumeralForm.LongestIn.cutNumeral_of_startsFraction`). Otherwise it is the form
(`NumeralForm.LongestIn.cutNumeral_eq`).

That no form is longer follows from how far the readers look ahead: what they take of a text that starts
with a form is as long as the form, or else they would have read the parts of the form and nothing more
(`NumeralForm.length_text_le`).
-/

namespace BrightLexer

/-- The letter of an exponent at the front of a text, with a sign behind it if there is one. -/
def bareExponent (cs : List Char) : List Char :=
  cs.take 1 ++ (cs.tail.take 1).filter fun c => c = '+' ∨ c = '-'

namespace NumeralForm

/-- The form `f` is the longest one at the front of `r`, with `rest` behind it. -/
structure LongestIn (f : NumeralForm) (r rest : List Char) : Prop where
  whole_eq : r = f.text ++ rest
  longest : ∀ (g : NumeralForm) (more : List Char), r = g.text ++ more → g.text.length ≤ f.text.length

/-- Behind a form without exponent and suffix stands the letter of an exponent. -/
def MissesDigits (f : NumeralForm) (rest : List Char) : Prop :=
  f.exponent = none ∧ f.suffix = none ∧ ∃ c ∈ rest.head?, c ∈ ['e', 'E', 'd', 'D']

variable {f g : NumeralForm} {r rest more : List Char}

/-- A text has one longest form at its front. -/
theorem LongestIn.unique (hf : f.LongestIn r rest) (hg : g.LongestIn r more) : f = g ∧ rest = more := by
  have hlen := Nat.le_antisymm (hg.longest f rest hf.whole_eq) (hf.longest g more hg.whole_eq)
  obtain ⟨htext, hrest⟩ := List.append_inj (hf.whole_eq.symm.trans hg.whole_eq) hlen
  exact ⟨text_injective htext, hrest⟩

/-! ## The longest form is what is read -/

/-- Digits that are cut off a text that starts with one. -/
theorem exists_digits_of_cut {c : Char} (hc : c.isDigit = true) (cs : List Char) :
    ∃ digits : Digits, digits.chars = (cutDigits (c :: cs)).taken :=
  ⟨⟨(cutDigits (c :: cs)).taken, by simp [cutDigits, cutWhile, hc], all_taken_cutWhile _ _⟩, rfl⟩

/-- What is cut off as a fraction is how a fraction, or none, is written. -/
theorem exists_fraction_of_cut (cs : List Char) :
    ∃ fraction : Option Digits, fractionText fraction = (cutFraction cs).taken := by
  by_cases h : startsFraction cs = true
  · obtain ⟨c, r, rfl, hc⟩ := startsFraction_iff.1 h
    obtain ⟨digits, hdigits⟩ := exists_digits_of_cut hc r
    refine ⟨some digits, ?_⟩
    rw [cutFraction, if_pos h, fractionText, hdigits]
    rfl
  · exact ⟨none, by rw [cutFraction, if_neg h]; rfl⟩

/-- What is cut off as a sign is how a sign, or none, is written. -/
theorem exists_sign_of_cut (cs : List Char) :
    ∃ sign : Option Sign, signText sign = (cutOptionalSign cs).taken := by
  cases cs with
  | nil => exact ⟨none, rfl⟩
  | cons c cs =>
    by_cases hc : c = '+' ∨ c = '-'
    · rw [cutOptionalSign, if_pos hc]
      rcases hc with rfl | rfl
      · exact ⟨some .plus, rfl⟩
      · exact ⟨some .minus, rfl⟩
    · exact ⟨none, by rw [cutOptionalSign, if_neg hc]; rfl⟩

/-- What is cut off as an exponent is how an exponent, or none, is written, unless it lacks digits. -/
theorem exists_exponent_of_cut {cs : List Char} (h : (cutExponent cs).bare = false) :
    ∃ e : Option ExponentForm, exponentText e = (cutExponent cs).taken ∧
      e.map ExponentForm.mark = (cutExponent cs).mark := by
  cases hmark : cs.head?.bind ExponentMark.ofChar? with
  | none =>
    refine ⟨none, ?_⟩
    unfold cutExponent
    rw [hmark]
    exact ⟨rfl, rfl⟩
  | some mark =>
    obtain ⟨c, hc, hofChar⟩ := Option.bind_eq_some_iff.1 hmark
    obtain ⟨cs, rfl⟩ := List.head?_eq_some_iff.1 hc
    obtain ⟨upper, rfl⟩ := ExponentMark.ofChar?_eq_some hofChar
    obtain ⟨sign, hsign⟩ := exists_sign_of_cut cs
    unfold cutExponent at h ⊢
    rw [hmark] at h ⊢
    have hdigits : (cutDigits (cutOptionalSign cs).rest).taken ≠ [] := List.isEmpty_eq_false_iff.1 h
    refine ⟨some ⟨mark, upper, sign, ⟨_, hdigits, all_taken_cutWhile _ _⟩⟩, ?_, rfl⟩
    rw [exponentText, hsign]
    rfl

/-- What is cut off as a suffix is how the suffix that is found is written. -/
theorem suffixText_of_cut (cs : List Char) : suffixText (cutSuffix cs).2 = (cutSuffix cs).1.taken := by
  unfold cutSuffix
  cases hsuffix : cs.head?.bind TypeSuffix.ofChar? with
  | none => rfl
  | some suffix =>
    obtain ⟨c, hc, hofChar⟩ := Option.bind_eq_some_iff.1 hsuffix
    obtain ⟨cs, rfl⟩ := List.head?_eq_some_iff.1 hc
    rw [TypeSuffix.ofChar?_eq_some hofChar]
    rfl

/-- The parts that are read of a text are those of the form `f`. -/
structure PartsIn (f : NumeralForm) (r : List Char) : Prop where
  whole : (Numeral.wholePart r).taken = f.whole.chars
  fraction : (Numeral.fractionPart r).taken = fractionText f.fraction
  exponent : (Numeral.exponentPart r).taken = exponentText f.exponent
  mark : (Numeral.exponentPart r).mark = f.exponent.map ExponentForm.mark
  suffix : Numeral.suffixPart r = (⟨suffixText f.suffix, (Numeral.suffixPart r).1.rest⟩, f.suffix)

/-- If the parts are those of a form, so is the mantissa. -/
theorem PartsIn.mantissa_eq (h : f.PartsIn r) : Numeral.mantissa r = f.mantissa := by
  rw [Numeral.mantissa, h.whole, h.fraction, mantissa]

/-- The suffix is taken as the form has it. -/
theorem PartsIn.suffix_taken (h : f.PartsIn r) :
    (Numeral.suffixPart r).1.taken = suffixText f.suffix := by
  rw [h.suffix]

/-- The form stands at the front of the text, and what is left is behind it. -/
theorem PartsIn.whole_eq (h : f.PartsIn r) : r = f.text ++ (Numeral.suffixPart r).1.rest := by
  have hparts := suffix_append_rest r
  rw [h.mantissa_eq, h.exponent, h.suffix_taken] at hparts
  exact hparts.symm

/-- No form at the front of a text is longer than the parts that are read of it. -/
theorem length_text_le (g : NumeralForm) (more : List Char) :
    g.text.length ≤ (Numeral.mantissa (g.text ++ more)).length +
      (Numeral.exponentPart (g.text ++ more)).taken.length +
      (Numeral.suffixPart (g.text ++ more)).1.taken.length := by
  by_contra hlt
  -- Otherwise the parts lie within the form, and then they are its own.
  have hm : Numeral.mantissa (g.text ++ more) = Numeral.mantissa g.text := mantissa_append (by omega)
  have he : Numeral.exponentPart (g.text ++ more) = _ := exponentPart_append (by omega)
  have hs : Numeral.suffixPart (g.text ++ more) = _ := suffixPart_append (by omega)
  rw [hm, he, hs, g.mantissa_text, exponentPart_text, suffixPart_text] at hlt
  simp only [Cut.taken_followedBy, text, unsuffixed, List.length_append] at hlt
  omega

/-- An exponent with digits is whole, whatever follows. -/
theorem bare_exponentText_append (e : ExponentForm) (b : List Char) :
    (cutExponent (exponentText (some e) ++ b)).bare = false := by
  obtain ⟨c, cs, hcs, hc⟩ := e.digits.exists_cons
  have hsign := cutOptionalSign_signText e.sign (e.digits.not_sign (b := b))
  unfold cutExponent
  simp only [exponentText, List.cons_append, List.append_assoc, List.head?_cons, Option.bind_some,
    ExponentMark.ofChar?_letter, List.tail_cons, hsign]
  simp [hcs, cutDigits, cutWhile, hc]

/-- Where the letter of an exponent lacks its digits, no form goes on over it. -/
theorem length_text_le_of_bare (g : NumeralForm) (more : List Char)
    (h : (Numeral.exponentPart (g.text ++ more)).bare = true) :
    g.text.length ≤ (Numeral.mantissa (g.text ++ more)).length := by
  by_contra hlt
  have hm : Numeral.mantissa (g.text ++ more) = Numeral.mantissa g.text := mantissa_append (by omega)
  have hf : Numeral.fractionPart (g.text ++ more) = _ := fractionPart_append (by omega)
  rw [Numeral.exponentPart, hf, fractionPart_text, Cut.rest_followedBy, List.append_assoc] at h
  rw [hm, g.mantissa_text] at hlt
  cases he : g.exponent with
  | some e =>
    rw [he, bare_exponentText_append] at h
    cases h
  | none =>
    cases hs : g.suffix with
    | none =>
      refine hlt ?_
      rw [text, unsuffixed, he, hs]
      simp [exponentText, suffixText]
    | some suffix =>
      rw [he, hs] at h
      have hnone : ExponentMark.ofChar? suffix.char = none :=
        (head_suffixText (some suffix) suffix.char rfl).2.2
      simp [exponentText, suffixText, cutExponent, hnone] at h

/-- A form is as long as its parts together. -/
theorem length_text (f : NumeralForm) :
    f.text.length = f.mantissa.length + (exponentText f.exponent).length + (suffixText f.suffix).length := by
  rw [text, unsuffixed, List.length_append, List.length_append]

/-- The form whose parts are read is the longest at the front of the text. -/
theorem PartsIn.longestIn (h : f.PartsIn r) : f.LongestIn r (Numeral.suffixPart r).1.rest := by
  refine ⟨h.whole_eq, fun g more hg => ?_⟩
  have hle := g.length_text_le more
  rwa [← hg, h.mantissa_eq, h.exponent, h.suffix_taken, ← f.length_text] at hle

section
variable {c : Char} {cs : List Char}

/-- A text that starts with a digit is read as a form, unless the letter of an exponent lacks its
digits. -/
theorem exists_partsIn (hc : c.isDigit = true) (h : (Numeral.exponentPart (c :: cs)).bare = false) :
    ∃ f : NumeralForm, f.PartsIn (c :: cs) := by
  obtain ⟨whole, hwhole⟩ := exists_digits_of_cut hc cs
  obtain ⟨fraction, hfraction⟩ := exists_fraction_of_cut (Numeral.wholePart (c :: cs)).rest
  obtain ⟨exponent, hexponent, hmark⟩ := exists_exponent_of_cut h
  refine ⟨⟨whole, fraction, exponent, (Numeral.suffixPart (c :: cs)).2⟩, hwhole.symm, hfraction.symm,
    hexponent.symm, hmark.symm, ?_⟩
  have hsuffix : suffixText (Numeral.suffixPart (c :: cs)).2 = _ := suffixText_of_cut _
  rw [hsuffix]
  rfl

/-- In that case, the digits and the fraction are the form. -/
theorem exists_longestIn_of_bare (hc : c.isDigit = true)
    (h : (Numeral.exponentPart (c :: cs)).bare = true) :
    ∃ f : NumeralForm, f.LongestIn (c :: cs) (Numeral.fractionPart (c :: cs)).rest ∧
      f.text = Numeral.mantissa (c :: cs) ∧ f.exponent = none ∧ f.suffix = none := by
  obtain ⟨whole, hwhole⟩ := exists_digits_of_cut hc cs
  obtain ⟨fraction, hfraction⟩ := exists_fraction_of_cut (Numeral.wholePart (c :: cs)).rest
  let f : NumeralForm := ⟨whole, fraction, none, none⟩
  have htext : f.text = Numeral.mantissa (c :: cs) := by
    rw [Numeral.mantissa, Numeral.wholePart, Numeral.fractionPart, ← hwhole, ← hfraction]
    simp [f, text, unsuffixed, mantissa, exponentText, suffixText]
  refine ⟨f, ⟨?_, fun g more hg => ?_⟩, htext, rfl, rfl⟩
  · rw [htext, mantissa_append_rest]
  · rw [hg] at h
    rw [htext, hg]
    exact g.length_text_le_of_bare more h

/-- There is a longest form wherever a digit stands. -/
theorem exists_longestIn (hc : c.isDigit = true) (cs : List Char) :
    ∃ (f : NumeralForm) (rest : List Char), f.LongestIn (c :: cs) rest := by
  cases hb : (Numeral.exponentPart (c :: cs)).bare with
  | false =>
    obtain ⟨f, hf⟩ := exists_partsIn hc hb
    exact ⟨f, _, hf.longestIn⟩
  | true =>
    obtain ⟨f, hf, -⟩ := exists_longestIn_of_bare hc hb
    exact ⟨f, _, hf⟩

end

/-- A form starts with a digit. -/
theorem LongestIn.exists_cons (h : f.LongestIn r rest) : ∃ c cs, r = c :: cs ∧ c.isDigit = true := by
  obtain ⟨c, cs, hcs, hc⟩ := f.whole.exists_cons
  refine ⟨c, cs ++ (fractionText f.fraction ++ exponentText f.exponent ++ suffixText f.suffix ++ rest), ?_, hc⟩
  rw [h.whole_eq, text, unsuffixed, mantissa, hcs]
  simp only [List.cons_append, List.append_assoc]

/-- If the exponent that is read lacks no digits, the longest form is what is read. -/
theorem LongestIn.partsIn (h : f.LongestIn r rest) (hb : (Numeral.exponentPart r).bare = false) :
    f.PartsIn r ∧ rest = (Numeral.suffixPart r).1.rest := by
  obtain ⟨c, cs, rfl, hc⟩ := h.exists_cons
  obtain ⟨g, hg⟩ := exists_partsIn hc hb
  obtain ⟨rfl, rfl⟩ := h.unique hg.longestIn
  exact ⟨hg, rfl⟩

/-- If it does, the longest form is what is read before it. -/
theorem LongestIn.of_bare (h : f.LongestIn r rest) (hb : (Numeral.exponentPart r).bare = true) :
    f.text = Numeral.mantissa r ∧ rest = (Numeral.fractionPart r).rest ∧ f.exponent = none ∧
      f.suffix = none := by
  obtain ⟨c, cs, rfl, hc⟩ := h.exists_cons
  obtain ⟨g, hg, htext, he, hs⟩ := exists_longestIn_of_bare hc hb
  obtain ⟨rfl, rfl⟩ := h.unique hg
  exact ⟨htext, rfl, he, hs⟩

/-- The letters that open an exponent are the four with a mark. -/
theorem mem_letters_iff {c : Char} :
    c ∈ ['e', 'E', 'd', 'D'] ↔ ∃ mark, ExponentMark.ofChar? c = some mark := by
  constructor
  · intro h
    simp only [List.mem_cons, List.not_mem_nil, or_false] at h
    rcases h with rfl | rfl | rfl | rfl
    · exact ⟨.single, by decide⟩
    · exact ⟨.single, by decide⟩
    · exact ⟨.double, by decide⟩
    · exact ⟨.double, by decide⟩
  · rintro ⟨mark, h⟩
    obtain ⟨upper, rfl⟩ := ExponentMark.ofChar?_eq_some h
    cases mark <;> cases upper <;> decide

/-- The exponent that is read lacks its digits exactly where its letter stands behind the longest
form. -/
theorem LongestIn.bare_iff (h : f.LongestIn r rest) :
    (Numeral.exponentPart r).bare = true ↔ f.MissesDigits rest := by
  constructor
  · intro hb
    obtain ⟨-, rfl, he, hs⟩ := h.of_bare hb
    refine ⟨he, hs, ?_⟩
    cases hmark : (Numeral.fractionPart r).rest.head?.bind ExponentMark.ofChar? with
    | none =>
      rw [Numeral.exponentPart, cutExponent, hmark] at hb
      cases hb
    | some mark =>
      obtain ⟨c, hc, hofChar⟩ := Option.bind_eq_some_iff.1 hmark
      exact ⟨c, hc, mem_letters_iff.2 ⟨mark, hofChar⟩⟩
  · rintro ⟨he, hs, c, hc, hletter⟩
    by_contra hb
    obtain ⟨hparts, rfl⟩ := h.partsIn (Bool.eq_false_iff.2 hb)
    obtain ⟨mark, hofChar⟩ := mem_letters_iff.1 hletter
    -- Nothing is taken between the fraction and the letter, so the letter is read as a mark.
    have hempty := suffix_append_rest r
    rw [hparts.exponent, hparts.suffix_taken, he, hs] at hempty
    have hrest : (Numeral.fractionPart r).rest = (Numeral.suffixPart r).1.rest := by
      refine List.append_cancel_left ((mantissa_append_rest r).trans hempty.symm |>.trans ?_)
      simp only [exponentText, suffixText, Option.map_none, Option.toList_none, List.append_nil]
    have hmark : (Numeral.exponentPart r).mark = some mark := by
      have hbind : (Numeral.fractionPart r).rest.head?.bind ExponentMark.ofChar? = some mark := by
        rw [hrest, hc, Option.bind_some, hofChar]
      rw [Numeral.exponentPart, cutExponent, hbind]
    rw [hparts.mark, he] at hmark
    cases hmark

/-! ## How much of a text is taken -/

/-- A sign is the first character if that is one. -/
theorem taken_cutOptionalSign (cs : List Char) :
    (cutOptionalSign cs).taken = (cs.take 1).filter fun c => c = '+' ∨ c = '-' := by
  cases cs with
  | nil => rfl
  | cons c cs =>
    by_cases hc : c = '+' ∨ c = '-'
    · simp [cutOptionalSign, hc]
    · simp [cutOptionalSign, hc]

/-- An exponent without digits is taken with its sign. -/
theorem taken_of_bare {cs : List Char} (h : (cutExponent cs).bare = true) :
    (cutExponent cs).taken = bareExponent cs := by
  unfold cutExponent at h ⊢
  cases hmark : cs.head?.bind ExponentMark.ofChar? with
  | none =>
    rw [hmark] at h
    cases h
  | some mark =>
    rw [hmark] at h
    have hdigits : (cutDigits (cutOptionalSign cs.tail).rest).taken = [] := List.isEmpty_iff.1 h
    simp only [Cut.taken_after, hdigits, List.append_nil, taken_cutOptionalSign, bareExponent]

/-- In front of the letter of an exponent that has no digits, the letter and its sign are taken too. -/
theorem LongestIn.cutNumeral_of_missesDigits (h : f.LongestIn r rest) (hd : f.MissesDigits rest) :
    ∃ back, cutNumeral r = ⟨⟨f.text ++ bareExponent rest, back⟩, .error .exponentWithoutDigits⟩ := by
  have hb := h.bare_iff.2 hd
  obtain ⟨htext, rfl, -⟩ := h.of_bare hb
  refine ⟨(Numeral.exponentPart r).rest, ?_⟩
  have htaken : (Numeral.exponentPart r).taken = _ := taken_of_bare hb
  rw [cutNumeral_of_bare hb, htext, ← htaken]
  rfl

/-- In front of a point that has digits behind it, the run of digits and points is taken too. -/
theorem LongestIn.cutNumeral_of_startsFraction (h : f.LongestIn r rest) (hd : ¬ f.MissesDigits rest)
    (hp : startsFraction rest = true) :
    cutNumeral r = ⟨(cutWhile Numeral.isTailChar rest).after f.text,
      .error (if f.fraction.isSome ∧ f.exponent = none ∧ f.suffix = none then .secondPoint
        else .trailingPoint)⟩ := by
  have hb := Bool.eq_false_iff.2 (mt h.bare_iff.1 hd)
  obtain ⟨hparts, rfl⟩ := h.partsIn hb
  have hsuffix := congrArg Prod.snd hparts.suffix
  rw [cutNumeral_of_point hb hp, hparts.mantissa_eq, hparts.exponent, hparts.suffix_taken,
    hparts.fraction, hparts.mark, hsuffix]
  simp [isEmpty_fractionText, text, unsuffixed, and_assoc]

/-- Everywhere else the form alone is taken. -/
theorem LongestIn.cutNumeral_eq (h : f.LongestIn r rest) (hd : ¬ f.MissesDigits rest)
    (hp : startsFraction rest = false) : cutNumeral r = ⟨⟨f.text, rest⟩, .ok f.shape⟩ := by
  have hb := Bool.eq_false_iff.2 (mt h.bare_iff.1 hd)
  obtain ⟨hparts, rfl⟩ := h.partsIn hb
  have hsuffix := congrArg Prod.snd hparts.suffix
  rw [cutNumeral_of_sound hb hp, hparts.mantissa_eq, hparts.exponent, hparts.whole, hparts.fraction,
    hparts.mark, hsuffix]
  simp [isEmpty_fractionText, text, unsuffixed, shape, Cut.after, hparts.suffix_taken]

/-- What is read is the longest form, or has a defect that is none of its value. -/
theorem LongestIn.cutNumeral_cases (h : f.LongestIn r rest) :
    (¬ f.MissesDigits rest ∧ startsFraction rest = false ∧ cutNumeral r = ⟨⟨f.text, rest⟩, .ok f.shape⟩) ∨
      ∃ defect, (cutNumeral r).shape = .error defect ∧ ∀ kind, defect ≠ .outOfRange kind := by
  by_cases hd : f.MissesDigits rest
  · obtain ⟨back, he⟩ := h.cutNumeral_of_missesDigits hd
    exact .inr ⟨_, congrArg Numeral.shape he, nofun⟩
  · cases hp : startsFraction rest with
    | false => exact .inl ⟨hd, rfl, h.cutNumeral_eq hd hp⟩
    | true =>
      refine .inr ⟨_, congrArg Numeral.shape (h.cutNumeral_of_startsFraction hd hp), fun kind => ?_⟩
      split
      · exact nofun
      · exact nofun

end NumeralForm

end BrightLexer
