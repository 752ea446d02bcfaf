import BrightLexer.Proofs.Lexer.LetterCase

/-!
# The grammar of numerals

A `NumeralForm` is a numeral as the grammar has it: digits, with an optional fraction, an optional exponent
and an optional suffix. `NumeralForm.text` writes it down, and `NumeralForm.shape` is what it is made of. The
kind of a shape is the one that a table of eleven rows gives (`NumeralShape.hasKind_iff`).

Read from its text, each part of a form is found as it was written, since no part starts with a character
that goes on the part before it (`NumeralForm.wholePart_text` and so on). So no two forms are written in the
same way (`NumeralForm.text_injective`).
-/

namespace BrightLexer

/-! ## Forms -/

/-- A run of digits. -/
structure Digits where
  chars : List Char
  ne_nil : chars ≠ []
  isDigit : ∀ c ∈ chars, c.isDigit = true

/-- The sign of an exponent. -/
inductive Sign where
  | plus
  | minus

/-- How a sign is written. -/
def Sign.char : Sign → Char
  | .plus => '+'
  | .minus => '-'

/-- How the letter of an exponent is written, in either case. -/
def ExponentMark.letter : ExponentMark → Bool → Char
  | .single, false => 'e'
  | .single, true => 'E'
  | .double, false => 'd'
  | .double, true => 'D'

/-- How a suffix is written. -/
def TypeSuffix.char : TypeSuffix → Char
  | .double => '#'
  | .float => '!'
  | .long => '&'

/-- An exponent: a letter in either case, an optional sign, and digits. -/
structure ExponentForm where
  mark : ExponentMark
  upper : Bool
  sign : Option Sign
  digits : Digits

/-- A numeral of the grammar. -/
structure NumeralForm where
  whole : Digits
  fraction : Option Digits
  exponent : Option ExponentForm
  suffix : Option TypeSuffix

/-- How an optional sign is written. -/
def signText (sign : Option Sign) : List Char := (sign.map Sign.char).toList

/-- How an optional fraction is written. -/
def fractionText : Option Digits → List Char
  | none => []
  | some digits => '.' :: digits.chars

/-- How an optional exponent is written. -/
def exponentText : Option ExponentForm → List Char
  | none => []
  | some e => e.mark.letter e.upper :: (signText e.sign ++ e.digits.chars)

/-- How an optional suffix is written. -/
def suffixText (suffix : Option TypeSuffix) : List Char := (suffix.map TypeSuffix.char).toList

namespace NumeralForm

/-- The digits and the fraction of a form. -/
def mantissa (f : NumeralForm) : List Char := f.whole.chars ++ fractionText f.fraction

/-- A form without its suffix. -/
def unsuffixed (f : NumeralForm) : List Char := f.mantissa ++ exponentText f.exponent

/-- How a form is written. -/
def text (f : NumeralForm) : List Char := f.unsuffixed ++ suffixText f.suffix

/-- What a form is made of. -/
def shape (f : NumeralForm) : NumeralShape :=
  ⟨f.fraction.isSome, f.exponent.map ExponentForm.mark, f.suffix, f.whole.chars.length⟩

end NumeralForm

/-- The kinds of numerals: each row of the table of exponents, suffixes, points and numbers of digits
before the point. -/
inductive NumeralShape.HasKind : NumeralShape → NumericKind → Prop
  | floatSuffix {point exponent digits} : HasKind ⟨point, exponent, some .float, digits⟩ .float
  | singleLong {point digits} : HasKind ⟨point, some .single, some .long, digits⟩ .float
  | pointLong {digits} : HasKind ⟨true, none, some .long, digits⟩ .float
  | doubleLong {point digits} : HasKind ⟨point, some .double, some .long, digits⟩ .double
  | wholeLong {digits} : HasKind ⟨false, none, some .long, digits⟩ .longInteger
  | double {point suffix digits} : suffix = none ∨ suffix = some .double →
      HasKind ⟨point, some .double, suffix, digits⟩ .double
  | doubleSuffix {point exponent digits} : exponent = some .single ∨ exponent = none →
      HasKind ⟨point, exponent, some .double, digits⟩ .double
  | single {point digits} : HasKind ⟨point, some .single, none, digits⟩ .float
  | point {digits} : HasKind ⟨true, none, none, digits⟩ .float
  | manyDigits {digits} : 10 ≤ digits → HasKind ⟨false, none, none, digits⟩ .double
  | fewDigits {digits} : digits < 10 → HasKind ⟨false, none, none, digits⟩ .integer

/-- The table has a row for every shape, and no two rows that differ. -/
theorem NumeralShape.hasKind_iff {s : NumeralShape} {kind : NumericKind} :
    s.HasKind kind ↔ s.kind = kind := by
  constructor
  · intro h
    cases h with
    | double h => rcases h with rfl | rfl <;> rfl
    | doubleSuffix h => rcases h with rfl | rfl <;> rfl
    | manyDigits h => exact if_pos h
    | fewDigits h => exact if_neg (Nat.not_le_of_lt h)
    | singleLong | doubleLong | single => rfl
    | pointLong | wholeLong | point => rfl
    | @floatSuffix _ exponent => cases exponent <;> rfl
  · rintro rfl
    obtain ⟨point, exponent, suffix, digits⟩ := s
    match point, exponent, suffix with
    | _, none, some .float | _, some .single, some .float | _, some .double, some .float =>
      exact .floatSuffix
    | _, some .single, some .long => exact .singleLong
    | _, some .double, some .long => exact .doubleLong
    | true, none, some .long => exact .pointLong
    | false, none, some .long => exact .wholeLong
    | _, some .double, none => exact .double (.inl rfl)
    | _, some .double, some .double => exact .double (.inr rfl)
    | _, some .single, some .double => exact .doubleSuffix (.inl rfl)
    | _, none, some .double => exact .doubleSuffix (.inr rfl)
    | _, some .single, none => exact .single
    | true, none, none => exact .point
    | false, none, none =>
      by_cases hdigits : 10 ≤ digits
      · have hkind : NumeralShape.kind ⟨false, none, none, digits⟩ = .double := if_pos hdigits
        exact hkind ▸ .manyDigits hdigits
      · have hkind : NumeralShape.kind ⟨false, none, none, digits⟩ = .integer := if_neg hdigits
        exact hkind ▸ .fewDigits (Nat.lt_of_not_le hdigits)

/-! ## Reading the parts of a form -/

section
variable {b : List Char}

/-- What starts two texts put together starts one of them. -/
theorem forall_head_append {p : Char → Prop} {a b : List Char} (ha : ∀ c ∈ a.head?, p c)
    (hb : ∀ c ∈ b.head?, p c) : ∀ c ∈ (a ++ b).head?, p c := by
  cases a with
  | nil => exact hb
  | cons c a => exact ha

/-- The letter of an exponent is read as its mark, in both cases. -/
theorem ExponentMark.ofChar?_letter (mark : ExponentMark) (upper : Bool) :
    ofChar? (mark.letter upper) = some mark := by
  cases mark <;> cases upper <;> decide

/-- Four letters open an exponent. -/
theorem ExponentMark.ofChar?_eq_some {c : Char} {mark : ExponentMark} (h : ofChar? c = some mark) :
    ∃ upper, c = mark.letter upper := by
  unfold ofChar? at h
  split at h
  · next he =>
    cases h
    rcases (toLower_eq_lower_iff (by decide)).1 he with rfl | rfl
    · exact ⟨false, rfl⟩
    · exact ⟨true, by decide⟩
  split at h
  · next hd =>
    cases h
    rcases (toLower_eq_lower_iff (by decide)).1 hd with rfl | rfl
    · exact ⟨false, rfl⟩
    · exact ⟨true, by decide⟩
  · cases h

/-- A suffix is read as it is written. -/
theorem TypeSuffix.ofChar?_char (suffix : TypeSuffix) : ofChar? suffix.char = some suffix := by
  cases suffix <;> decide

/-- Each suffix is written in one way only. -/
theorem TypeSuffix.ofChar?_eq_some {c : Char} {suffix : TypeSuffix} (h : ofChar? c = some suffix) :
    c = suffix.char := by
  unfold ofChar? at h
  split at h
  · next hc => cases h; exact hc
  split at h
  · next hc => cases h; exact hc
  split at h
  · next hc => cases h; exact hc
  · cases h

/-- No suffix goes on a part that stands before it. -/
theorem head_suffixText (suffix : Option TypeSuffix) :
    ∀ c ∈ (suffixText suffix).head?, c.isDigit = false ∧ c ≠ '.' ∧ ExponentMark.ofChar? c = none := by
  rintro c hc
  cases suffix with
  | none => cases hc
  | some suffix =>
    obtain rfl := Option.some.inj hc
    cases suffix <;> decide

/-- Nor does an exponent. -/
theorem head_exponentText (e : Option ExponentForm) :
    ∀ c ∈ (exponentText e).head?, c.isDigit = false ∧ c ≠ '.' := by
  rintro c hc
  cases e with
  | none => cases hc
  | some e =>
    obtain rfl := Option.some.inj hc
    generalize e.mark = mark
    generalize e.upper = upper
    cases mark <;> cases upper <;> decide

/-- Nor does a fraction. -/
theorem head_fractionText (fraction : Option Digits) :
    ∀ c ∈ (fractionText fraction).head?, c.isDigit = false := by
  rintro c hc
  cases fraction with
  | none => cases hc
  | some digits =>
    obtain rfl := Option.some.inj hc
    rfl

/-- There is a first digit. -/
theorem Digits.exists_cons (digits : Digits) :
    ∃ c cs, digits.chars = c :: cs ∧ c.isDigit = true := by
  obtain ⟨c, cs, h⟩ := List.exists_cons_of_ne_nil digits.ne_nil
  exact ⟨c, cs, h, digits.isDigit c (h ▸ List.mem_cons_self)⟩

/-- No digit is a sign. -/
theorem Digits.not_sign (digits : Digits) :
    ∀ c ∈ (digits.chars ++ b).head?, c ≠ '+' ∧ c ≠ '-' := by
  intro c hc
  obtain ⟨d, ds, hd, hdigit⟩ := digits.exists_cons
  rw [hd] at hc
  obtain rfl := Option.some.inj hc
  constructor <;> rintro rfl <;> cases hdigit

/-- Digits are cut off as they are written, if no digit follows. -/
theorem cutDigits_chars (digits : Digits) (hb : ∀ c ∈ b.head?, c.isDigit = false) :
    cutDigits (digits.chars ++ b) = ⟨digits.chars, b⟩ :=
  cutWhile_append_eq digits.isDigit fun c r hr => hb c (by rw [hr]; rfl)

/-- A fraction is written as nothing if there is none, and only then. -/
theorem isEmpty_fractionText (fraction : Option Digits) :
    (fractionText fraction).isEmpty = !fraction.isSome := by
  cases fraction with
  | none => rfl
  | some digits => rfl

/-- A fraction is cut off as it is written, if neither a digit nor a point follows. -/
theorem cutFraction_fractionText (fraction : Option Digits)
    (hb : ∀ c ∈ b.head?, c.isDigit = false ∧ c ≠ '.') :
    cutFraction (fractionText fraction ++ b) = ⟨fractionText fraction, b⟩ := by
  cases fraction with
  | none =>
    refine if_neg fun h => ?_
    obtain ⟨c, r, rfl, -⟩ := startsFraction_iff.1 h
    exact (hb '.' rfl).2 rfl
  | some digits =>
    obtain ⟨c, cs, hcs, hc⟩ := digits.exists_cons
    have hstart : startsFraction ('.' :: (digits.chars ++ b)) = true := by
      rw [hcs]
      exact hc
    have hcut := cutDigits_chars digits fun c hc => (hb c hc).1
    rw [fractionText, List.cons_append, cutFraction, if_pos hstart, List.tail_cons, hcut]
    rfl

/-- So is a sign, if no other sign follows. -/
theorem cutOptionalSign_signText (sign : Option Sign) (hb : ∀ c ∈ b.head?, c ≠ '+' ∧ c ≠ '-') :
    cutOptionalSign (signText sign ++ b) = ⟨signText sign, b⟩ := by
  match sign with
  | some .plus => rfl
  | some .minus => rfl
  | none =>
    cases b with
    | nil => rfl
    | cons c b =>
      have hc := hb c rfl
      exact if_neg (not_or.2 hc)

/-- So is an exponent, if neither a digit nor the letter of another exponent follows. -/
theorem cutExponent_exponentText (e : Option ExponentForm)
    (hb : ∀ c ∈ b.head?, c.isDigit = false ∧ ExponentMark.ofChar? c = none) :
    cutExponent (exponentText e ++ b) =
      ⟨⟨exponentText e, b⟩, e.map ExponentForm.mark, false⟩ := by
  cases e with
  | none =>
    have hmark : b.head?.bind ExponentMark.ofChar? = none :=
      Option.bind_eq_none_iff.2 fun c hc => (hb c hc).2
    unfold cutExponent
    rw [exponentText, List.nil_append, hmark]
    rfl
  | some e =>
    obtain ⟨c, cs, hcs, hc⟩ := e.digits.exists_cons
    have hsign := cutOptionalSign_signText e.sign (e.digits.not_sign (b := b))
    have hdigits := cutDigits_chars e.digits fun d hd => (hb d hd).1
    have hempty : e.digits.chars.isEmpty = false := by rw [hcs]; rfl
    unfold cutExponent
    simp only [exponentText, List.cons_append, List.append_assoc, List.head?_cons, Option.bind_some,
      ExponentMark.ofChar?_letter, List.tail_cons, hsign, hdigits, hempty]
    rfl

/-- And so is a suffix at the end. -/
theorem cutSuffix_suffixText (suffix : Option TypeSuffix) :
    cutSuffix (suffixText suffix) = (⟨suffixText suffix, []⟩, suffix) := by
  cases suffix with
  | none => rfl
  | some suffix => simp [suffixText, cutSuffix, suffix.ofChar?_char]

end

namespace NumeralForm

variable {f g : NumeralForm} {r rest more : List Char}

/-- The first part of what is read are the digits of the form. -/
theorem wholePart_text (f : NumeralForm) :
    Numeral.wholePart f.text =
      ⟨f.whole.chars, fractionText f.fraction ++ (exponentText f.exponent ++ suffixText f.suffix)⟩ := by
  have hcut := cutDigits_chars f.whole (forall_head_append (head_fractionText f.fraction)
    (forall_head_append (fun c hc => (head_exponentText f.exponent c hc).1)
      fun c hc => (head_suffixText f.suffix c hc).1))
  rw [Numeral.wholePart, text, unsuffixed, mantissa, ← hcut]
  simp only [List.append_assoc]

/-- The second is its fraction. -/
theorem fractionPart_text (f : NumeralForm) :
    Numeral.fractionPart f.text =
      ⟨fractionText f.fraction, exponentText f.exponent ++ suffixText f.suffix⟩ := by
  rw [Numeral.fractionPart, wholePart_text]
  exact cutFraction_fractionText f.fraction (forall_head_append (head_exponentText f.exponent)
    fun c hc => ⟨(head_suffixText f.suffix c hc).1, (head_suffixText f.suffix c hc).2.1⟩)

/-- The third is its exponent, with its digits. -/
theorem exponentPart_text (f : NumeralForm) :
    Numeral.exponentPart f.text =
      ⟨⟨exponentText f.exponent, suffixText f.suffix⟩, f.exponent.map ExponentForm.mark, false⟩ := by
  rw [Numeral.exponentPart, fractionPart_text]
  exact cutExponent_exponentText f.exponent
    fun c hc => ⟨(head_suffixText f.suffix c hc).1, (head_suffixText f.suffix c hc).2.2⟩

/-- The first two are its mantissa. -/
theorem mantissa_text (f : NumeralForm) : Numeral.mantissa f.text = f.mantissa := by
  rw [Numeral.mantissa, wholePart_text, fractionPart_text, mantissa]

/-- The last is its suffix, with nothing behind it. -/
theorem suffixPart_text (f : NumeralForm) :
    Numeral.suffixPart f.text = (⟨suffixText f.suffix, []⟩, f.suffix) := by
  rw [Numeral.suffixPart, exponentPart_text]
  exact cutSuffix_suffixText f.suffix

/-! ## A form is known from its text -/

/-- A fraction is known from how it is written. -/
theorem fractionText_injective {a b : Option Digits} (h : fractionText a = fractionText b) : a = b := by
  match a, b with
  | none, none => rfl
  | none, some _ | some _, none => cases h
  | some a, some b =>
    obtain ⟨chars, _, _⟩ := a
    obtain ⟨chars', _, _⟩ := b
    obtain rfl : chars = chars' := (List.cons.inj h).2
    rfl

/-- The four letters differ. -/
theorem ExponentMark.letter_injective {mark mark' : ExponentMark} {upper upper' : Bool}
    (h : mark.letter upper = mark'.letter upper') : mark = mark' ∧ upper = upper' := by
  revert h
  cases mark <;> cases mark' <;> cases upper <;> cases upper' <;> decide

/-- No sign is a digit, so the digits of an exponent show where its sign ends. -/
theorem signText_append_injective {a b : Option Sign} {c d : Digits}
    (h : signText a ++ c.chars = signText b ++ d.chars) : a = b ∧ c = d := by
  have notSign (x : Digits) : ∀ y ∈ x.chars.head?, y ≠ '+' ∧ y ≠ '-' := by
    simpa using x.not_sign (b := [])
  have hcut := congrArg cutOptionalSign h
  rw [cutOptionalSign_signText a (notSign c), cutOptionalSign_signText b (notSign d)] at hcut
  obtain ⟨hsign, hdigits⟩ := Cut.mk.inj hcut
  obtain ⟨chars, _, _⟩ := c
  obtain ⟨chars', _, _⟩ := d
  obtain rfl : chars = chars' := hdigits
  refine ⟨?_, rfl⟩
  match a, b with
  | none, none => rfl
  | none, some _ | some _, none => cases hsign
  | some .plus, some .plus | some .minus, some .minus => rfl
  | some .plus, some .minus | some .minus, some .plus => exact absurd (List.cons.inj hsign).1 (by decide)

/-- An exponent is known from how it is written. -/
theorem exponentText_injective {a b : Option ExponentForm} (h : exponentText a = exponentText b) :
    a = b := by
  match a, b with
  | none, none => rfl
  | none, some _ | some _, none => cases h
  | some ⟨mark, upper, sign, digits⟩, some ⟨mark', upper', sign', digits'⟩ =>
    obtain ⟨hletter, htail⟩ := List.cons.inj h
    obtain ⟨rfl, rfl⟩ := ExponentMark.letter_injective hletter
    obtain ⟨rfl, rfl⟩ := signText_append_injective htail
    rfl

/-- No two forms are written in the same way. -/
theorem text_injective (h : f.text = g.text) : f = g := by
  have hwhole := congrArg Numeral.wholePart h
  have hfraction := congrArg Numeral.fractionPart h
  have hexponent := congrArg Numeral.exponentPart h
  have hsuffix := congrArg Numeral.suffixPart h
  rw [wholePart_text, wholePart_text] at hwhole
  rw [fractionPart_text, fractionPart_text] at hfraction
  rw [exponentPart_text, exponentPart_text] at hexponent
  rw [suffixPart_text, suffixPart_text] at hsuffix
  obtain ⟨⟨chars, _, _⟩, fraction, exponent, suffix⟩ := f
  obtain ⟨⟨chars', _, _⟩, fraction', exponent', suffix'⟩ := g
  obtain rfl : chars = chars' := congrArg Cut.taken hwhole
  obtain rfl := fractionText_injective (congrArg Cut.taken hfraction)
  obtain rfl := exponentText_injective (congrArg (·.toCut.taken) hexponent)
  obtain rfl : suffix = suffix' := congrArg Prod.snd hsuffix
  rfl

end NumeralForm

end BrightLexer
