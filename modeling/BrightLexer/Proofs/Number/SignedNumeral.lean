import BrightLexer.Number.Style
import BrightLexer.Proofs.Lexer.NumeralValue
import BrightLexer.Proofs.Number.ReadBack

/-!
# Numbers are written as numerals

A number is written as a numeral without a suffix, behind a minus sign or not, and without leading zeros
(`SignedNumeral`). Each `NumberStyle` writes a decimal number in this way, positionally or with an exponent,
and the numeral denotes the decimal number (`NumberStyle.exists_numeral`). So it does not matter to the
value where the point is written.

Such a numeral is read as the number that it denotes (`SignedNumeral.readReal?_text`), and what follows it
shows where it ends (`SignedNumeral.text_append_injective`).
-/

namespace BrightLexer

/-- A numeral without a suffix and without leading zeros, the exponent of which is opened by an `e`. -/
structure NumeralForm.IsPlain (f : NumeralForm) : Prop where
  suffix : f.suffix = none
  mark : ∀ e, f.exponent = some e → e.mark = .single
  leading : ∀ cs, f.whole.chars = '0' :: cs → cs = []

/-- A numeral behind a minus sign, or without one. -/
structure SignedNumeral where
  negative : Bool
  numeral : NumeralForm
  isPlain : numeral.IsPlain

namespace SignedNumeral

/-- How a numeral is written behind its sign. -/
def text (n : SignedNumeral) : List Char := (if n.negative then ['-'] else []) ++ n.numeral.text

/-- The number that a numeral denotes behind its sign. -/
def value (n : SignedNumeral) : ℚ := (if n.negative then -1 else 1) * n.numeral.value

/-- A numeral is its digits. -/
structure IsWhole (n : SignedNumeral) : Prop where
  fraction : n.numeral.fraction = none
  exponent : n.numeral.exponent = none

end SignedNumeral

/-! ## Digits -/

/-- The digits of a number. -/
def Digits.of (n : Nat) : Digits := ⟨digitsOf n, digitsOf_ne_nil n, fun _ => isDigit_of_mem_digitsOf⟩

/-- Zeros denote zero. -/
theorem digitsValue_zeros (n : Nat) : digitsValue (List.replicate n '0') = 0 := by
  induction n with
  | zero => rfl
  | succ n ih => exact ih

/-- Zeros are digits. -/
theorem isDigit_of_mem_zeros {n : Nat} {c : Char} (h : c ∈ List.replicate n '0') : c.isDigit = true := by
  rw [List.eq_of_mem_replicate h]
  rfl

/-- Only zero has a leading zero, and it has no more than one. -/
theorem leading_digitsOf {n : Nat} {cs : List Char} (h : digitsOf n = '0' :: cs) : n = 0 ∧ cs = [] := by
  have hvalue : n = digitsValue cs := by
    have hn := digitsValue_digitsOf n
    rw [h] at hn
    exact hn.symm
  have hdigits : ∀ c ∈ cs, c.isDigit = true := fun c hc =>
    isDigit_of_mem_digitsOf (h ▸ List.mem_cons_of_mem _ hc)
  by_cases hcs : cs = []
  · rw [hcs] at hvalue
    exact ⟨hvalue, hcs⟩
  · -- A number below this power of ten has fewer digits.
    have hlt := digitsValue_lt hdigits
    rw [← hvalue, ← Nat.length_toDigits_le_iff (by decide) (List.length_pos_iff.2 hcs)] at hlt
    have hlength := congrArg List.length h
    rw [List.length_cons] at hlength
    exact absurd (hlength.symm.trans_le hlt) (Nat.not_succ_le_self _)

/-! ## Writing a decimal number -/

/-- A decimal number with zeros behind its digits. -/
theorem Decimal.value_zeros (c n : Nat) (e : Int) :
    Decimal.value ⟨c * 10 ^ n, e⟩ = Decimal.value ⟨c, e + n⟩ := by
  rw [value, value, zpow_add₀ (by norm_num : (10 : ℚ) ≠ 0), zpow_natCast]
  push_cast
  ring

/-- Digits on both sides of a point make a numeral, and so do digits alone. -/
theorem NumeralForm.exists_of_digits (whole fraction : List Char) (exponent : Option ExponentForm)
    (hwhole : whole ≠ []) (hdigits : ∀ c ∈ whole ++ fraction, c.isDigit = true)
    (hleading : ∀ cs, whole = '0' :: cs → cs = [])
    (hmark : ∀ e, exponent = some e → e.mark = .single) :
    ∃ f : NumeralForm, f.IsPlain ∧
      f.text = whole ++ (if fraction.isEmpty then [] else '.' :: fraction) ++ exponentText exponent ∧
      f.value = Decimal.value ⟨digitsValue (whole ++ fraction), exponentValue exponent - fraction.length⟩ := by
  have hfront : ∀ c ∈ whole, c.isDigit = true := fun c hc => hdigits c (List.mem_append_left _ hc)
  have hback : ∀ c ∈ fraction, c.isDigit = true := fun c hc => hdigits c (List.mem_append_right _ hc)
  cases fraction with
  | nil =>
    refine ⟨⟨⟨whole, hwhole, hfront⟩, none, exponent, none⟩, ⟨rfl, hmark, hleading⟩, ?_, ?_⟩
    · exact List.append_nil _
    · rw [← value_decimal]
      rfl
  | cons c cs =>
    refine ⟨⟨⟨whole, hwhole, hfront⟩, some ⟨c :: cs, List.cons_ne_nil _ _, hback⟩, exponent, none⟩,
      ⟨rfl, hmark, hleading⟩, ?_, ?_⟩
    · exact List.append_nil _
    · rw [← value_decimal]
      rfl

/-- The exponent of a number that is written with one. -/
def ExponentForm.of (e : Int) : ExponentForm :=
  ⟨.single, false, some (if e < 0 then .minus else .plus), .of e.natAbs⟩

/-- The exponent part written for a number denotes it. -/
theorem ExponentForm.value_of (e : Int) : (ExponentForm.of e).value = e := by
  have hdigits : (Digits.of e.natAbs).value = e.natAbs := digitsValue_digitsOf _
  unfold value of
  dsimp only
  rw [hdigits]
  split
  · next h =>
    split at h
    · omega
    · cases h
  · next h =>
    split at h
    · cases h
    · omega
  · next h => cases h

namespace NumberStyle

variable {c : Nat} {e : Int}

/-- Zeros behind the digits, and a fraction of one zero if it is asked for. -/
theorem exists_zerosBehind (pointZero : Bool) (he : 0 ≤ e) (h : c = 0 → e = 0) :
    ∃ f : NumeralForm, f.IsPlain ∧
      f.text = digitsOf c ++ List.replicate e.toNat '0' ++ (if pointZero then ['.', '0'] else []) ∧
      f.value = Decimal.value ⟨c, e⟩ := by
  have hdigits : ∀ d ∈ digitsOf c ++ List.replicate e.toNat '0' ++ (if pointZero then ['0'] else []),
      d.isDigit = true := by
    intro d hd
    rcases List.mem_append.1 hd with hd | hd
    · exact (List.mem_append.1 hd).elim isDigit_of_mem_digitsOf isDigit_of_mem_zeros
    · split at hd
      · rw [List.mem_singleton.1 hd]
        rfl
      · cases hd
  have hleading : ∀ cs, digitsOf c ++ List.replicate e.toNat '0' = '0' :: cs → cs = [] := by
    intro cs hcs
    obtain ⟨d, ds, hds⟩ := List.exists_cons_of_ne_nil (digitsOf_ne_nil c)
    rw [hds, List.cons_append] at hcs
    obtain ⟨rfl, rfl⟩ := List.cons.inj hcs
    obtain ⟨hc, rfl⟩ := leading_digitsOf hds
    rw [h hc]
    rfl
  obtain ⟨f, hf, htext, hvalue⟩ := NumeralForm.exists_of_digits _ _ none
    (List.append_ne_nil_of_left_ne_nil (digitsOf_ne_nil c) _) hdigits hleading nofun
  have hshift : digitsValue (digitsOf c ++ List.replicate e.toNat '0') = c * 10 ^ e.toNat := by
    rw [digitsValue_append, digitsValue_zeros, List.length_replicate, digitsValue_digitsOf, add_zero]
  have hzeros : digitsValue (if pointZero then ['0'] else []) = 0 := by
    cases pointZero with
    | true => rfl
    | false => rfl
  refine ⟨f, hf, htext.trans ?_, hvalue.trans ?_⟩
  · rw [exponentText, List.append_nil]
    cases pointZero with
    | true => rfl
    | false => rfl
  · rw [digitsValue_append, hshift, hzeros, add_zero, Decimal.value_zeros, Decimal.value_zeros]
    congr 2
    rw [exponentValue]
    omega

/-- A point between the digits. -/
theorem exists_pointBetween {places : Nat} (hc : c ≠ 0) (hpos : 0 < places)
    (hplaces : places < (digitsOf c).length) :
    ∃ f : NumeralForm, f.IsPlain ∧
      f.text = (digitsOf c).take ((digitsOf c).length - places) ++
        '.' :: (digitsOf c).drop ((digitsOf c).length - places) ∧
      f.value = Decimal.value ⟨c, -places⟩ := by
  have htake : (digitsOf c).take ((digitsOf c).length - places) ≠ [] := by
    rw [ne_eq, List.take_eq_nil_iff, not_or]
    exact ⟨by omega, digitsOf_ne_nil c⟩
  have hdrop : ((digitsOf c).drop ((digitsOf c).length - places)).isEmpty = false := by
    rw [List.isEmpty_eq_false_iff, ne_eq, List.drop_eq_nil_iff]
    omega
  have hsplit := List.take_append_drop ((digitsOf c).length - places) (digitsOf c)
  -- The digits of a number other than zero have no leading zero.
  have hleading : ∀ cs, (digitsOf c).take ((digitsOf c).length - places) = '0' :: cs → cs = [] := by
    intro cs hcs
    rw [hcs, List.cons_append] at hsplit
    exact absurd (leading_digitsOf hsplit.symm).1 hc
  obtain ⟨f, hf, htext, hvalue⟩ := NumeralForm.exists_of_digits _
    ((digitsOf c).drop ((digitsOf c).length - places)) none htake
    (by rw [hsplit]; exact fun _ => isDigit_of_mem_digitsOf) hleading nofun
  refine ⟨f, hf, htext.trans ?_, hvalue.trans ?_⟩
  · rw [hdrop, exponentText, List.append_nil]
    rfl
  · rw [hsplit, digitsValue_digitsOf, List.length_drop, exponentValue]
    congr 2
    omega

/-- A point before the digits, with zeros around it. -/
theorem exists_pointBefore {places : Nat} (hplaces : (digitsOf c).length ≤ places) :
    ∃ f : NumeralForm, f.IsPlain ∧
      f.text = ['0', '.'] ++ List.replicate (places - (digitsOf c).length) '0' ++ digitsOf c ∧
      f.value = Decimal.value ⟨c, -places⟩ := by
  have hdigits : ∀ d ∈ ['0'] ++ (List.replicate (places - (digitsOf c).length) '0' ++ digitsOf c),
      d.isDigit = true := by
    intro d hd
    rcases List.mem_append.1 hd with hd | hd
    · rw [List.mem_singleton.1 hd]
      rfl
    · exact (List.mem_append.1 hd).elim isDigit_of_mem_zeros isDigit_of_mem_digitsOf
  have hempty : (List.replicate (places - (digitsOf c).length) '0' ++ digitsOf c).isEmpty = false :=
    List.isEmpty_eq_false_iff.2 (List.append_ne_nil_of_right_ne_nil _ (digitsOf_ne_nil c))
  obtain ⟨f, hf, htext, hvalue⟩ := NumeralForm.exists_of_digits _ _ none (List.cons_ne_nil _ _) hdigits
    (fun cs hcs => (List.cons.inj hcs).2.symm) nofun
  have hzeros : digitsValue (['0'] ++ (List.replicate (places - (digitsOf c).length) '0' ++
      digitsOf c)) = c := by
    rw [digitsValue_append, digitsValue_append, digitsValue_zeros, digitsValue_digitsOf]
    simp [digitsValue, digitValue]
  refine ⟨f, hf, htext.trans ?_, hvalue.trans ?_⟩
  · rw [hempty, exponentText, List.append_nil]
    rfl
  · rw [hzeros, List.length_append, List.length_replicate, exponentValue]
    congr 2
    omega

/-- A number is written positionally as a numeral. -/
theorem exists_positional (pointZero : Bool) (h : c = 0 → e = 0) :
    ∃ f : NumeralForm, f.IsPlain ∧ f.text = positional pointZero (digitsOf c) e ∧
      f.value = Decimal.value ⟨c, e⟩ := by
  unfold positional
  split
  · next he => exact exists_zerosBehind pointZero he h
  · next he =>
    have hc : c ≠ 0 := fun hc => he (h hc).ge
    have hexponent : e = -((-e).toNat : Nat) := by omega
    dsimp only
    split
    · next hplaces =>
      obtain ⟨f, hf, htext, hvalue⟩ := exists_pointBetween hc (by omega) hplaces
      exact ⟨f, hf, htext, by rw [hvalue, ← hexponent]⟩
    · next hplaces =>
      obtain ⟨f, hf, htext, hvalue⟩ := exists_pointBefore (not_lt.1 hplaces)
      exact ⟨f, hf, htext, by rw [hvalue, ← hexponent]⟩

/-- With an exponent, a number is written as a numeral too. -/
theorem exists_scientific (c : Nat) (e : Int) :
    ∃ f : NumeralForm, f.IsPlain ∧
      f.text = scientific (digitsOf c) (e + (digitsOf c).length - 1) ∧ f.value = Decimal.value ⟨c, e⟩ := by
  obtain ⟨d, ds, hds⟩ := List.exists_cons_of_ne_nil (digitsOf_ne_nil c)
  have hdigits : ∀ x ∈ [d] ++ ds, x.isDigit = true := fun x hx =>
    isDigit_of_mem_digitsOf (by rw [hds]; exact hx)
  obtain ⟨f, hf, htext, hvalue⟩ := NumeralForm.exists_of_digits [d] ds
    (some (.of (e + (digitsOf c).length - 1))) (List.cons_ne_nil _ _) hdigits
    (fun cs hcs => (List.cons.inj hcs).2.symm) (fun _ he => Option.some.inj he ▸ rfl)
  refine ⟨f, hf, htext.trans ?_, hvalue.trans ?_⟩
  · generalize e + ((digitsOf c).length : Int) - 1 = leading
    have hexponent : exponentText (some (.of leading)) =
        'e' :: (if leading < 0 then '-' else '+') :: digitsOf leading.natAbs := by
      unfold ExponentForm.of
      split
      · rfl
      · rfl
    rw [hexponent, scientific, hds]
    cases ds with
    | nil => rfl
    | cons x xs => rfl
  · have hsame : digitsValue ([d] ++ ds) = c := by
      rw [List.singleton_append, ← hds, digitsValue_digitsOf]
    rw [hsame, exponentValue, ExponentForm.value_of, hds, List.length_cons]
    congr 2
    push_cast
    ring

/-- A decimal number is written as a numeral that denotes it. -/
theorem exists_numeral (style : NumberStyle) {d : Decimal} (h : d.coefficient = 0 → d.exponent = 0) :
    ∃ f : NumeralForm, f.IsPlain ∧ f.text = style.write d ∧ f.value = d.value := by
  unfold write
  dsimp only
  split
  · exact exists_positional style.pointZero h
  · exact exists_scientific d.coefficient d.exponent

end NumberStyle

/-! ## Reading -/

/-- An exponent that is opened by an `e` is read as it is. -/
theorem unifyExponent_exponentText_eq_self {exponent : Option ExponentForm}
    (h : ∀ e, exponent = some e → e.mark = .single) :
    unifyExponent (exponentText exponent) = exponentText exponent := by
  cases exponent with
  | none => rfl
  | some e =>
    obtain ⟨mark, upper, sign, digits⟩ := e
    obtain rfl : mark = .single := h _ rfl
    have hletter : ∀ upper, ExponentMark.single.letter upper ≠ 'd' ∧ ExponentMark.single.letter upper ≠ 'D' := by
      decide
    refine unifyExponent_eq_self fun c hc => ?_
    rcases List.mem_cons.1 hc with rfl | hc
    · exact hletter upper
    rcases List.mem_append.1 hc with hc | hc
    · match sign with
      | none => cases hc
      | some .plus | some .minus =>
        obtain rfl := List.mem_singleton.1 hc
        decide
    · have hdigit := digits.isDigit c hc
      constructor <;> rintro rfl <;> cases hdigit

/-- A plain numeral has no suffix. -/
theorem NumeralForm.IsPlain.text_eq {f : NumeralForm} (hf : f.IsPlain) : f.text = f.unsuffixed := by
  rw [text, hf.suffix]
  exact List.append_nil _

/-- The exponent letter of a plain numeral is left as it is. -/
theorem NumeralForm.IsPlain.unifyExponent_text {f : NumeralForm} (hf : f.IsPlain) :
    unifyExponent f.unsuffixed = f.unsuffixed := by
  rw [unsuffixed, mantissa, unifyExponent_append, unifyExponent_append, unifyExponent_chars,
    unifyExponent_fractionText, unifyExponent_exponentText_eq_self hf.mark]

namespace SignedNumeral

variable {n k : SignedNumeral} {r s : List Char}

/-- A whole number is written as its digits, behind a minus sign if it is negative. -/
theorem exists_toString (i : Int) :
    ∃ n : SignedNumeral, n.text = (toString i).toList ∧ n.IsWhole ∧ n.value = i := by
  have hsigned (negative : Bool) (m : Nat) :
      ∃ n : SignedNumeral, n.text = (if negative then ['-'] else []) ++ digitsOf m ∧ n.IsWhole ∧
        n.value = (if negative then -1 else 1) * (m : ℚ) := by
    let f : NumeralForm := ⟨.of m, none, none, none⟩
    have hf : f.IsPlain :=
      ⟨rfl, fun _ he => absurd he.symm (Option.some_ne_none _), fun _ hcs => (leading_digitsOf hcs).2⟩
    have htext : f.text = digitsOf m := by
      rw [NumeralForm.text, NumeralForm.unsuffixed, NumeralForm.mantissa]
      exact (List.append_nil _).trans ((List.append_nil _).trans (List.append_nil _))
    have hvalue : f.value = m := by
      have hdigits : (Digits.of m).value = m := digitsValue_digitsOf m
      simp [f, NumeralForm.value, hdigits, fractionDigits, exponentValue, digitsValue]
    refine ⟨⟨negative, f, hf⟩, ?_, ⟨rfl, rfl⟩, ?_⟩
    · rw [text, htext]
    · rw [value, hvalue]
  cases i with
  | ofNat m =>
    obtain ⟨n, htext, hwhole, hvalue⟩ := hsigned false m
    refine ⟨n, htext.trans (toList_toString_nat m).symm, hwhole, hvalue.trans ?_⟩
    rw [if_neg Bool.false_ne_true, one_mul]
    rfl
  | negSucc m =>
    obtain ⟨n, htext, hwhole, hvalue⟩ := hsigned true (m + 1)
    have hminus : (toString (Int.negSucc m)).toList = ['-'] ++ (toString (m + 1)).toList :=
      String.toList_append
    refine ⟨n, htext.trans ?_, hwhole, hvalue.trans ?_⟩
    · rw [hminus, toList_toString_nat, if_pos rfl]
    · rw [if_pos rfl, Int.cast_negSucc]
      ring

/-- The sign is told apart from the digits. -/
theorem cutSign_text_append (n : SignedNumeral) (r : List Char) :
    cutSign (n.text ++ r) = (n.negative, n.numeral.text ++ r) := by
  obtain ⟨negative, f, hf⟩ := n
  cases negative with
  | true => rfl
  | false =>
    have hsplit : f.text ++ r =
        f.whole.chars ++ (fractionText f.fraction ++ exponentText f.exponent ++ r) := by
      rw [hf.text_eq, NumeralForm.unsuffixed, NumeralForm.mantissa]
      simp only [List.append_assoc]
    change cutSign (f.text ++ r) = (false, f.text ++ r)
    rw [hsplit]
    exact f.whole.cutSign_append _

/-- A signed numeral is read as the number that it denotes. -/
theorem readReal?_text (n : SignedNumeral) : readReal? n.text = some (n.negative, n.numeral.decimal) := by
  have hsign := n.cutSign_text_append []
  rw [List.append_nil, List.append_nil] at hsign
  have hread : readDecimal? n.numeral.text = some n.numeral.decimal := by
    have hreal := n.numeral.readReal?_unifyExponent
    have hplain := SignedNumeral.cutSign_text_append ⟨false, n.numeral, n.isPlain⟩ []
    rw [List.append_nil, List.append_nil] at hplain
    change cutSign n.numeral.text = (false, n.numeral.text) at hplain
    rw [n.isPlain.unifyExponent_text, ← n.isPlain.text_eq, readReal?, hplain] at hreal
    obtain ⟨d, hd, heq⟩ := Option.map_eq_some_iff.1 hreal
    rw [hd, (Prod.mk.inj heq).2]
  rw [readReal?, hsign]
  dsimp only
  rw [hread]
  rfl

/-- What stands behind a numeral does not go on it. -/
def EndsNumeral (r : List Char) : Prop :=
  ∀ c ∈ r.head?, c.isDigit = false ∧ c ≠ '.' ∧ ExponentMark.ofChar? c = none

/-- Where two numerals end, they are the same if their texts are. -/
theorem text_append_injective (hr : EndsNumeral r) (hs : EndsNumeral s)
    (h : n.text ++ r = k.text ++ s) : n = k ∧ r = s := by
  have hsigns := congrArg cutSign h
  rw [cutSign_text_append, cutSign_text_append] at hsigns
  obtain ⟨negative, ⟨whole, fraction, exponent, suffix⟩, hf⟩ := n
  obtain ⟨negative', ⟨whole', fraction', exponent', suffix'⟩, hf'⟩ := k
  obtain ⟨rfl, htext⟩ : negative = negative' ∧ _ := Prod.mk.inj hsigns
  obtain rfl : suffix = none := hf.suffix
  obtain rfl : suffix' = none := hf'.suffix
  have behindWhole {r : List Char} (fraction exponent) (hr : EndsNumeral r) :
      ∀ c ∈ (fractionText fraction ++ (exponentText exponent ++ r)).head?, c.isDigit = false :=
    forall_head_append (head_fractionText fraction) (forall_head_append
      (fun c hc => (head_exponentText exponent c hc).1) fun c hc => (hr c hc).1)
  have behindFraction {r : List Char} (exponent) (hr : EndsNumeral r) :
      ∀ c ∈ (exponentText exponent ++ r).head?, c.isDigit = false ∧ c ≠ '.' :=
    forall_head_append (head_exponentText exponent) fun c hc => ⟨(hr c hc).1, (hr c hc).2.1⟩
  have behindExponent {r : List Char} (hr : EndsNumeral r) :
      ∀ c ∈ r.head?, c.isDigit = false ∧ ExponentMark.ofChar? c = none :=
    fun c hc => ⟨(hr c hc).1, (hr c hc).2.2⟩
  rw [hf.text_eq, hf'.text_eq] at htext
  simp only [NumeralForm.unsuffixed, NumeralForm.mantissa, List.append_assoc] at htext
  have hwhole := congrArg cutDigits htext
  rw [cutDigits_chars whole (behindWhole fraction exponent hr),
    cutDigits_chars whole' (behindWhole fraction' exponent' hs)] at hwhole
  obtain ⟨hdigits, hrest⟩ := Cut.mk.inj hwhole
  have hfraction := congrArg cutFraction hrest
  rw [cutFraction_fractionText fraction (behindFraction exponent hr),
    cutFraction_fractionText fraction' (behindFraction exponent' hs)] at hfraction
  obtain ⟨hpoint, hrest⟩ := Cut.mk.inj hfraction
  have hexponent := congrArg cutExponent hrest
  rw [cutExponent_exponentText exponent (behindExponent hr),
    cutExponent_exponentText exponent' (behindExponent hs)] at hexponent
  obtain ⟨chars, _, _⟩ := whole
  obtain ⟨chars', _, _⟩ := whole'
  obtain rfl : chars = chars' := hdigits
  obtain rfl := NumeralForm.fractionText_injective hpoint
  obtain rfl := NumeralForm.exponentText_injective (congrArg (·.toCut.taken) hexponent)
  exact ⟨rfl, congrArg (·.toCut.rest) hexponent⟩

/-- The sign apart, a signed numeral denotes what its numeral denotes. -/
theorem abs_value (n : SignedNumeral) : |n.value| = n.numeral.value := by
  have hnonneg : 0 ≤ n.numeral.value := by
    rw [← n.numeral.value_decimal]
    exact mul_nonneg (Nat.cast_nonneg _) (by positivity)
  rw [value]
  cases n.negative with
  | true => rw [if_pos rfl, neg_one_mul, abs_neg, abs_of_nonneg hnonneg]
  | false => rw [if_neg nofun, one_mul, abs_of_nonneg hnonneg]

/-- Which value of a binary format a signed numeral is read as, is known from what it denotes. -/
theorem readBinary?_text {F : Format} (hF : F.Regular) (n : SignedNumeral) {d : Decimal}
    (h : d.value = n.numeral.value) : readBinary? F n.text = Binary.ofDecimal? n.negative d := by
  rw [readBinary?, n.readReal?_text]
  exact Binary.ofDecimal?_congr hF n.negative (n.numeral.value_decimal.trans h.symm)

end SignedNumeral

/-- A finite value is written as a signed numeral that denotes its shortest decimal. -/
theorem NumberStyle.exists_signedNumeral (style : NumberStyle) {F : Format} (hF : F.Moderate) {x : Binary F}
    (hx : x.isFinite = true) :
    ∃ n : SignedNumeral, n.text = style.writeBinary x ∧ n.negative = x.negative ∧
      n.numeral.value = (shortest F style.tie x.magnitude).value := by
  have hzero : (shortest F style.tie x.magnitude).coefficient = 0 →
      (shortest F style.tie x.magnitude).exponent = 0 := by
    intro hcoefficient
    by_cases hm : x.magnitude = 0
    · rw [hm]
      rfl
    · refine absurd ?_ ((Binary.rounds_shortest hF hx style.tie).ne_zero hm)
      rw [Decimal.value, hcoefficient, Nat.cast_zero, zero_mul]
  obtain ⟨f, hf, htext, hvalue⟩ := style.exists_numeral hzero
  refine ⟨⟨x.negative, f, hf⟩, ?_, rfl, hvalue⟩
  rw [SignedNumeral.text, htext]
  rfl

end BrightLexer
