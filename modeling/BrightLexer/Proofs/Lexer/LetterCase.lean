import BrightLexer.Proofs.Lexer.Reading
import Mathlib.Data.List.Find
import Mathlib.Tactic.Conv

/-!
# No reader sees the case of a letter

Every test that a reader makes of a character gives the same answer for a letter in either case. So
reading a text in lower case takes as much of it as reading the text itself, finds the same, and
leaves the same behind, all of it in lower case (`reading_lowerCase`). In particular the number that
a numeral stands for is the same (`numeralValue_lowerCase`): besides digits, signs and points, which
have no case, only the letter of its exponent bears on it.
-/

namespace BrightLexer

/-! ## Characters -/

section
variable {c d : Char} {cs : List Char} {p : Char → Bool}

/-- The letters in upper case are those with the codes of `A` to `Z`. -/
theorem isUpper_iff : c.isUpper = true ↔ 65 ≤ c.toNat ∧ c.toNat ≤ 90 := by
  have h : c.isUpper = true ↔ 'A'.val ≤ c.val ∧ c.val ≤ 'Z'.val := decide_eq_true_iff
  rw [h, UInt32.le_iff_toNat_le, UInt32.le_iff_toNat_le, Char.toNat_val]
  exact Iff.rfl

/-- The letters in lower case are those with the codes of `a` to `z`. -/
theorem isLower_iff : c.isLower = true ↔ 97 ≤ c.toNat ∧ c.toNat ≤ 122 := by
  have h : c.isLower = true ↔ 'a'.val ≤ c.val ∧ c.val ≤ 'z'.val :=
    Bool.and_eq_true_iff.trans (and_congr decide_eq_true_iff decide_eq_true_iff)
  rw [h, UInt32.le_iff_toNat_le, UInt32.le_iff_toNat_le, Char.toNat_val]
  exact Iff.rfl

/-- The letters are those of both ranges. -/
theorem isAlpha_iff : c.isAlpha = true ↔
    (65 ≤ c.toNat ∧ c.toNat ≤ 90) ∨ 97 ≤ c.toNat ∧ c.toNat ≤ 122 :=
  Bool.or_eq_true_iff.trans (or_congr isUpper_iff isLower_iff)

/-- The lower case of a letter in upper case is 32 places behind it. -/
theorem toNat_toLower (c : Char) :
    c.toLower.toNat = if 65 ≤ c.toNat ∧ c.toNat ≤ 90 then c.toNat + 32 else c.toNat := by
  unfold Char.toLower
  split
  · next h =>
    have hrange := isUpper_iff.1 (decide_eq_true h)
    rw [if_pos hrange]
    refine (UInt32.toNat_add _ _).trans (Nat.mod_eq_of_lt ?_)
    rw [Char.toNat_val]
    show c.toNat + 32 < _
    omega
  · next h => rw [if_neg fun hrange => h (of_decide_eq_true (isUpper_iff.2 hrange))]

/-- The upper case of a letter in lower case is 32 places before it. -/
theorem toNat_toUpper (c : Char) :
    c.toUpper.toNat = if 97 ≤ c.toNat ∧ c.toNat ≤ 122 then c.toNat - 32 else c.toNat := by
  unfold Char.toUpper
  split
  · next h =>
    have hrange := isLower_iff.1 (Bool.and_eq_true_iff.2 ⟨decide_eq_true h.1, decide_eq_true h.2⟩)
    rw [if_pos hrange]
    refine (UInt32.toNat_add _ _).trans ?_
    rw [Char.toNat_val]
    show (c.toNat + 4294967264) % 4294967296 = _
    omega
  · next h =>
    refine (if_neg fun hrange => h ?_).symm
    obtain ⟨hlow, hhigh⟩ := Bool.and_eq_true_iff.1 (isLower_iff.2 hrange)
    exact ⟨of_decide_eq_true hlow, of_decide_eq_true hhigh⟩

/-- Only the two cases of a letter have it as their lower case. -/
theorem toLower_eq_lower_iff (hd : d.isLower = true) :
    c.toLower = d ↔ c = d ∨ c = d.toUpper := by
  rw [isLower_iff] at hd
  simp only [← Char.toNat_inj, toNat_toLower, toNat_toUpper]
  split
  all_goals omega

/-- No character has a letter in upper case as its lower case. -/
theorem toLower_ne_of_isUpper (hd : d.isUpper = true) : c.toLower ≠ d := by
  rw [isUpper_iff] at hd
  rw [ne_eq, ← Char.toNat_inj, toNat_toLower]
  split
  all_goals omega

/-- A character that is no letter is the lower case of itself only. -/
theorem toLower_eq_iff (hd : d.isAlpha = false) : c.toLower = d ↔ c = d := by
  rw [← Bool.not_eq_true, isAlpha_iff] at hd
  rw [← Char.toNat_inj, ← Char.toNat_inj, toNat_toLower]
  split
  all_goals omega

/-- The lower case of a letter is a letter, and that of anything else is not. -/
theorem isAlpha_toLower (c : Char) : c.toLower.isAlpha = c.isAlpha := by
  rw [Bool.eq_iff_iff, isAlpha_iff, isAlpha_iff, toNat_toLower]
  split
  all_goals omega

/-- What is in lower case has itself as its lower case. -/
theorem toLower_toLower (c : Char) : c.toLower.toLower = c.toLower := by
  rw [← Char.toNat_inj, toNat_toLower c.toLower]
  refine if_neg ?_
  rw [toNat_toLower]
  split
  all_goals omega

/-- No letter is a digit. -/
theorem isDigit_of_isAlpha (h : c.isAlpha = true) : c.isDigit = false :=
  isDigit_of_isWordStart (by rw [isWordStart, h, Bool.true_or])

/-- A function of characters that does not see the case of a letter. -/
def CaseBlind {α : Type} (f : Char → α) : Prop := ∀ c, f c.toLower = f c

/-- A comparison with a character that is no letter does not see case. -/
theorem caseBlind_beq (hd : d.isAlpha = false) : CaseBlind (· == d) := by
  intro c
  rw [Bool.eq_iff_iff, beq_iff_eq, beq_iff_eq]
  exact toLower_eq_iff hd

/-- Two tests that do not see case can be combined. -/
theorem CaseBlind.or {q : Char → Bool} (hp : CaseBlind p) (hq : CaseBlind q) :
    CaseBlind fun c => p c || q c :=
  fun c => congrArg₂ (· || ·) (hp c) (hq c)

/-- So can such a test be turned around. -/
theorem CaseBlind.not (hp : CaseBlind p) : CaseBlind fun c => !p c :=
  fun c => congrArg (!·) (hp c)

theorem caseBlind_isAlpha : CaseBlind Char.isAlpha := isAlpha_toLower

/-- No letter is a digit, in either case. -/
theorem caseBlind_isDigit : CaseBlind Char.isDigit := by
  intro c
  cases hc : c.isAlpha with
  | true => rw [isDigit_of_isAlpha hc, isDigit_of_isAlpha ((caseBlind_isAlpha c).trans hc)]
  | false => rw [(toLower_eq_iff hc).2 rfl]

/-- A letter starts a word in either case. -/
theorem caseBlind_isWordStart : CaseBlind isWordStart :=
  caseBlind_isAlpha.or (caseBlind_beq (by decide))

/-- A letter goes on with a word in either case. -/
theorem caseBlind_isWordChar : CaseBlind isWordChar :=
  (caseBlind_isAlpha.or caseBlind_isDigit).or (caseBlind_beq (by decide))

/-- No designator is a letter. -/
theorem caseBlind_isDesignator : CaseBlind isDesignator :=
  ((((caseBlind_beq (by decide)).or (caseBlind_beq (by decide))).or
    (caseBlind_beq (by decide))).or (caseBlind_beq (by decide))).or (caseBlind_beq (by decide))

/-- No blank is a letter. -/
theorem caseBlind_isBlank : CaseBlind isBlank :=
  ((caseBlind_beq (by decide)).or (caseBlind_beq (by decide))).or (caseBlind_beq (by decide))

/-- Digits and points, which a malformed numeral runs over, are no letters. -/
theorem caseBlind_isTailChar : CaseBlind Numeral.isTailChar :=
  caseBlind_isDigit.or (caseBlind_beq (by decide))

/-! ## Texts in lower case -/

@[simp] theorem lowerCase_nil : lowerCase [] = [] := rfl

@[simp] theorem lowerCase_cons (c : Char) (cs : List Char) :
    lowerCase (c :: cs) = c.toLower :: lowerCase cs := rfl

/-- A text is put in lower case part by part. -/
@[simp] theorem lowerCase_append (a b : List Char) :
    lowerCase (a ++ b) = lowerCase a ++ lowerCase b :=
  List.map_append

@[simp] theorem length_lowerCase (cs : List Char) : (lowerCase cs).length = cs.length :=
  List.length_map _

@[simp] theorem isEmpty_lowerCase (cs : List Char) : (lowerCase cs).isEmpty = cs.isEmpty :=
  List.isEmpty_map

/-- A text in lower case stays as it is. -/
@[simp] theorem lowerCase_lowerCase (cs : List Char) : lowerCase (lowerCase cs) = lowerCase cs := by
  rw [lowerCase, lowerCase, List.map_map]
  exact List.map_congr_left fun c _ => toLower_toLower c

@[simp] theorem take_lowerCase (n : Nat) (cs : List Char) :
    (lowerCase cs).take n = lowerCase (cs.take n) :=
  List.map_take.symm

@[simp] theorem drop_lowerCase (n : Nat) (cs : List Char) :
    (lowerCase cs).drop n = lowerCase (cs.drop n) :=
  List.map_drop.symm

@[simp] theorem tail_lowerCase (cs : List Char) : (lowerCase cs).tail = lowerCase cs.tail :=
  List.map_tail.symm

/-- What depends on the first character alone, and not on its case, is the same for the text in lower case.
-/
theorem bind_head?_lowerCase {α : Type} {f : Char → Option α} (hf : CaseBlind f)
    (cs : List Char) : (lowerCase cs).head?.bind f = cs.head?.bind f := by
  cases cs with
  | nil => rfl
  | cons c cs => exact hf c

/-- A text without letters is in lower case. -/
theorem lowerCase_eq_self (h : ∀ c ∈ cs, c.isAlpha = false) : lowerCase cs = cs := by
  conv_rhs => rw [← List.map_id cs]
  exact List.map_congr_left fun c hc => (toLower_eq_iff (h c hc)).2 rfl

/-- Digits have no case. -/
theorem lowerCase_digits (h : ∀ c ∈ cs, c.isDigit = true) : lowerCase cs = cs := by
  refine lowerCase_eq_self fun c hc => ?_
  cases ha : c.isAlpha with
  | false => rfl
  | true => exact absurd ((isDigit_of_isAlpha ha).symm.trans (h c hc)) (by decide)

/-- A cut of the text in lower case. -/
def Cut.lower (c : Cut) : Cut := ⟨lowerCase c.taken, lowerCase c.rest⟩

@[simp] theorem Cut.taken_lower (c : Cut) : c.lower.taken = lowerCase c.taken := rfl

@[simp] theorem Cut.rest_lower (c : Cut) : c.lower.rest = lowerCase c.rest := rfl

/-- Putting a text in front of a cut can be done before or after changing the case. -/
@[simp] theorem Cut.lower_after (c : Cut) (front : List Char) :
    c.lower.after (lowerCase front) = (c.after front).lower := by
  simp [after, lower]

/-- A run of characters with a property that does not see case is as long in lower case. -/
theorem cutWhile_lowerCase (hp : CaseBlind p) (cs : List Char) :
    cutWhile p (lowerCase cs) = (cutWhile p cs).lower := by
  have hcomp : p ∘ Char.toLower = p := funext hp
  simp only [cutWhile, lowerCase, List.takeWhile_map, List.dropWhile_map, hcomp, Cut.lower]

/-! ## Numerals -/

/-- Digits are cut off a text in lower case as off the text itself. -/
theorem cutDigits_lowerCase (cs : List Char) : cutDigits (lowerCase cs) = (cutDigits cs).lower :=
  cutWhile_lowerCase caseBlind_isDigit cs

/-- Whether a fraction starts is seen from a point and a digit, which have no case. -/
theorem startsFraction_lowerCase (cs : List Char) :
    startsFraction (lowerCase cs) = startsFraction cs := by
  rw [Bool.eq_iff_iff, startsFraction_iff, startsFraction_iff]
  constructor
  · rintro ⟨d, r, h, hd⟩
    obtain ⟨point, rest, rfl, hpoint, hrest⟩ := List.map_eq_cons_iff.1 h
    obtain ⟨digit, tail, rfl, rfl, -⟩ := List.map_eq_cons_iff.1 hrest
    rw [(toLower_eq_iff (by decide)).1 hpoint]
    exact ⟨digit, tail, rfl, (caseBlind_isDigit digit).symm.trans hd⟩
  · rintro ⟨d, r, rfl, hd⟩
    exact ⟨d.toLower, lowerCase r, rfl, (caseBlind_isDigit d).trans hd⟩

/-- So a fraction is cut off in lower case as it is written. -/
theorem cutFraction_lowerCase (cs : List Char) :
    cutFraction (lowerCase cs) = (cutFraction cs).lower := by
  unfold cutFraction
  rw [startsFraction_lowerCase]
  split
  · rw [tail_lowerCase, cutDigits_lowerCase, take_lowerCase, Cut.lower_after]
  · rfl

/-- A sign has no case. -/
theorem cutOptionalSign_lowerCase (cs : List Char) :
    cutOptionalSign (lowerCase cs) = (cutOptionalSign cs).lower := by
  cases cs with
  | nil => rfl
  | cons c cs =>
    simp only [lowerCase_cons, cutOptionalSign, toLower_eq_iff (show '+'.isAlpha = false by decide),
      toLower_eq_iff (show '-'.isAlpha = false by decide)]
    split
    · rfl
    · rfl

/-- The letter of an exponent is read by its lower case. -/
theorem caseBlind_exponentMark : CaseBlind ExponentMark.ofChar? := by
  intro c
  simp only [ExponentMark.ofChar?, toLower_toLower]

/-- No type suffix is a letter. -/
theorem caseBlind_typeSuffix : CaseBlind TypeSuffix.ofChar? := by
  intro c
  simp only [TypeSuffix.ofChar?, toLower_eq_iff (show '#'.isAlpha = false by decide),
    toLower_eq_iff (show '!'.isAlpha = false by decide),
    toLower_eq_iff (show '&'.isAlpha = false by decide)]

/-- An exponent of the text in lower case. -/
def Exponent.lower (e : Exponent) : Exponent := ⟨e.toCut.lower, e.mark, e.bare⟩

/-- An exponent is cut off in lower case with the same mark, and lacks its digits in the same texts. -/
theorem cutExponent_lowerCase (cs : List Char) :
    cutExponent (lowerCase cs) = (cutExponent cs).lower := by
  unfold cutExponent
  rw [bind_head?_lowerCase caseBlind_exponentMark]
  dsimp only
  split
  · rfl
  · rw [tail_lowerCase, cutOptionalSign_lowerCase, Cut.rest_lower, cutDigits_lowerCase,
      take_lowerCase, Cut.taken_lower, Cut.taken_lower, isEmpty_lowerCase, ← lowerCase_append,
      Cut.lower_after]
    rfl

/-- A type suffix is cut off in lower case as it is written. -/
theorem cutSuffix_lowerCase (cs : List Char) :
    cutSuffix (lowerCase cs) = ((cutSuffix cs).1.lower, (cutSuffix cs).2) := by
  unfold cutSuffix
  rw [bind_head?_lowerCase caseBlind_typeSuffix]
  split
  · rfl
  · rw [take_lowerCase, tail_lowerCase]
    rfl

/-- A numeral of the text in lower case. -/
def Numeral.lower (n : Numeral) : Numeral := ⟨n.toCut.lower, n.shape⟩

open Numeral

/-- A numeral in lower case is the numeral in lower case, part by part. -/
theorem cutNumeral_lowerCase (cs : List Char) :
    cutNumeral (lowerCase cs) = (cutNumeral cs).lower := by
  have hw : wholePart (lowerCase cs) = (wholePart cs).lower := cutDigits_lowerCase cs
  have hf : fractionPart (lowerCase cs) = (fractionPart cs).lower := by
    rw [fractionPart, hw]
    exact cutFraction_lowerCase _
  have he : exponentPart (lowerCase cs) = (exponentPart cs).lower := by
    rw [exponentPart, hf]
    exact cutExponent_lowerCase _
  have hs : suffixPart (lowerCase cs) = ((suffixPart cs).1.lower, (suffixPart cs).2) := by
    rw [suffixPart, he]
    exact cutSuffix_lowerCase _
  have hm : mantissa (lowerCase cs) = lowerCase (mantissa cs) := by
    rw [mantissa, hw, hf, mantissa, lowerCase_append]
    rfl
  -- The parts are the same in lower case, so the same one of the three outcomes applies.
  cases hb : (exponentPart cs).bare with
  | true =>
    have hb' : (exponentPart (lowerCase cs)).bare = true := by rw [he]; exact hb
    rw [cutNumeral_of_bare hb, cutNumeral_of_bare hb', he, hm]
    exact congrArg (Numeral.mk · _) (Cut.lower_after ..)
  | false =>
    have hb' : (exponentPart (lowerCase cs)).bare = false := by rw [he]; exact hb
    have hp : startsFraction (suffixPart (lowerCase cs)).1.rest =
        startsFraction (suffixPart cs).1.rest := by
      rw [hs]
      exact startsFraction_lowerCase _
    cases hs' : startsFraction (suffixPart cs).1.rest with
    | true =>
      rw [cutNumeral_of_point hb hs', cutNumeral_of_point hb' (hp.trans hs'), he, hm, hs, hf]
      simp only [Exponent.lower, Cut.taken_lower, Cut.rest_lower, isEmpty_lowerCase,
        ← lowerCase_append, Numeral.lower, cutWhile_lowerCase caseBlind_isTailChar, Cut.lower_after]
    | false =>
      rw [cutNumeral_of_sound hb hs', cutNumeral_of_sound hb' (hp.trans hs'), he, hm, hs, hf, hw]
      simp only [Exponent.lower, Cut.taken_lower, isEmpty_lowerCase, length_lowerCase,
        ← lowerCase_append, Numeral.lower, Cut.lower_after]

/-! ## The value of a numeral -/

/-- Type suffixes can be dropped before or after changing the case. -/
theorem dropSuffixes_lowerCase (cs : List Char) :
    dropSuffixes (lowerCase cs) = lowerCase (dropSuffixes cs) := by
  have hblind : CaseBlind fun c => c == '#' || c == '!' || c == '&' :=
    ((caseBlind_beq (by decide)).or (caseBlind_beq (by decide))).or (caseBlind_beq (by decide))
  have hcomp : (fun c => c == '#' || c == '!' || c == '&') ∘ Char.toLower = _ := funext hblind
  simp only [dropSuffixes, lowerCase, ← List.map_reverse, List.dropWhile_map, hcomp]

/-- The letter `d` of an exponent is written as `e` in either case. -/
theorem unifyExponent_lowerCase (cs : List Char) :
    unifyExponent (lowerCase cs) = lowerCase (unifyExponent cs) := by
  rw [unifyExponent, lowerCase, List.map_map, unifyExponent, lowerCase, List.map_map]
  refine List.map_congr_left fun c _ => ?_
  -- In lower case the test for `D` never holds, and the one for `d` stands for both.
  have hd : c.toLower = 'd' ↔ c = 'd' ∨ c = 'D' := toLower_eq_lower_iff (by decide)
  have hD : c.toLower ≠ 'D' := toLower_ne_of_isUpper (by decide)
  simp only [Function.comp_apply, hd, hD, or_false]
  split
  · rfl
  · rfl

/-- Only a sign is cut off as one. -/
theorem cutSign_of_ne (hm : c ≠ '-') (hp : c ≠ '+') (cs : List Char) :
    cutSign (c :: cs) = (false, c :: cs) := by
  rw [cutSign]
  · exact fun r h => hm (List.cons.inj h).1
  · exact fun r h => hp (List.cons.inj h).1

/-- A sign in front of a numeral has no case. -/
theorem cutSign_lowerCase (cs : List Char) :
    cutSign (lowerCase cs) = ((cutSign cs).1, lowerCase (cutSign cs).2) := by
  cases cs with
  | nil => rfl
  | cons c cs =>
    by_cases hm : c = '-'
    · rw [hm]; rfl
    by_cases hp : c = '+'
    · rw [hp]; rfl
    rw [lowerCase_cons, cutSign_of_ne hm hp, cutSign_of_ne]
    · rfl
    · exact fun h => hm ((toLower_eq_iff (by decide)).1 h)
    · exact fun h => hp ((toLower_eq_iff (by decide)).1 h)

/-- A text of digits is one in lower case. -/
theorem all_isDigit_lowerCase (cs : List Char) :
    (lowerCase cs).all Char.isDigit = cs.all Char.isDigit := by
  have hcomp : Char.isDigit ∘ Char.toLower = Char.isDigit := funext caseBlind_isDigit
  rw [lowerCase, List.all_map, hcomp]

/-- A whole number is read from its digits, which have no case. -/
theorem readInteger?_lowerCase (cs : List Char) : readInteger? (lowerCase cs) = readInteger? cs := by
  unfold readInteger?
  rw [cutSign_lowerCase]
  dsimp only
  rw [isEmpty_lowerCase, all_isDigit_lowerCase]
  split
  · rfl
  · next h =>
    have hall : ∀ c ∈ (cutSign cs).2, c.isDigit = true := by simp_all
    rw [lowerCase_digits hall]

/-- An exponent is read by its digits and its sign. -/
theorem readExponent?_lowerCase (cs : List Char) :
    readExponent? (lowerCase cs) = readExponent? cs := by
  cases cs with
  | nil => rfl
  | cons c cs =>
    have he : c.toLower = 'e' ↔ c = 'e' ∨ c = 'E' := toLower_eq_lower_iff (by decide)
    have hE : c.toLower ≠ 'E' := toLower_ne_of_isUpper (by decide)
    simp only [lowerCase_cons, readExponent?, Bool.or_eq_true, beq_iff_eq, he, hE, or_false,
      readInteger?_lowerCase]

/-- The digits behind a point, as `readDecimal?` cuts them off. -/
def cutPoint : List Char → Cut
  | '.' :: r => cutWhile Char.isDigit r
  | r => .empty r

/-- Without a point there are no digits behind one. -/
theorem cutPoint_of_ne (h : c ≠ '.') (cs : List Char) : cutPoint (c :: cs) = .empty (c :: cs) := by
  rw [cutPoint]
  exact fun r hr => h (List.cons.inj hr).1

/-- The digits behind a point are cut off in lower case as they are written. -/
theorem cutPoint_lowerCase (cs : List Char) : cutPoint (lowerCase cs) = (cutPoint cs).lower := by
  cases cs with
  | nil => rfl
  | cons c cs =>
    by_cases h : c = '.'
    · rw [h]
      exact cutWhile_lowerCase caseBlind_isDigit cs
    · rw [lowerCase_cons, cutPoint_of_ne h, cutPoint_of_ne]
      · rfl
      · exact fun h' => h ((toLower_eq_iff (by decide)).1 h')

/-- Behind a point there are digits only. -/
theorem all_taken_cutPoint (cs : List Char) : ∀ c ∈ (cutPoint cs).taken, c.isDigit = true := by
  unfold cutPoint
  split
  · exact all_taken_cutWhile _ _
  · nofun

/-- A decimal number is read part by part, with each part cut off where the one before it ends. -/
theorem readDecimal?_eq (cs : List Char) :
    readDecimal? cs =
      (let whole := cutWhile Char.isDigit cs
       let fraction := cutPoint whole.rest
       if whole.taken.isEmpty && fraction.taken.isEmpty then none
       else (readExponent? fraction.rest).map fun e =>
        ⟨digitsValue (whole.taken ++ fraction.taken), e - fraction.taken.length⟩) := by
  rfl

/-- A decimal number is read in lower case as it is written, since only the letter of its exponent has a
case. -/
theorem readDecimal?_lowerCase (cs : List Char) : readDecimal? (lowerCase cs) = readDecimal? cs := by
  have hwhole := lowerCase_digits (all_taken_cutWhile Char.isDigit cs)
  have hfraction := lowerCase_digits (all_taken_cutPoint (cutWhile Char.isDigit cs).rest)
  rw [readDecimal?_eq, readDecimal?_eq]
  simp only [cutWhile_lowerCase caseBlind_isDigit, cutPoint_lowerCase, Cut.taken_lower,
    Cut.rest_lower, hwhole, hfraction, readExponent?_lowerCase]

/-- So the nearest value of a format is the same. -/
theorem readBinary?_lowerCase (F : Format) (cs : List Char) :
    readBinary? F (lowerCase cs) = readBinary? F cs := by
  have hreal : readReal? (lowerCase cs) = readReal? cs := by
    unfold readReal?
    rw [cutSign_lowerCase]
    dsimp only
    rw [readDecimal?_lowerCase]
  rw [readBinary?, hreal, readBinary?]

/-- The value of a numeral of any type is the same in lower case. -/
theorem numeralValue_lowerCase (kind : NumericKind) (text : List Char) :
    numeralValue kind (lowerCase text) = numeralValue kind text := by
  have hvalue : numeralValue? kind (lowerCase text) = numeralValue? kind text := by
    unfold numeralValue?
    simp only [dropSuffixes_lowerCase, unifyExponent_lowerCase, readInteger?_lowerCase,
      readBinary?_lowerCase]
  rw [numeralValue, hvalue, numeralValue]

/-! ## Words, quoted texts and symbols -/

/-- A word of the text in lower case. -/
def Word.lower (w : Word) : Word := ⟨w.toCut.lower, w.designated⟩

/-- A word in lower case is as long, and has a designator if it has one as it is written. -/
theorem cutWord_lowerCase (cs : List Char) : cutWord (lowerCase cs) = (cutWord cs).lower := by
  unfold cutWord
  rw [cutWhile_lowerCase caseBlind_isWordChar]
  dsimp only [Cut.rest_lower]
  cases (cutWhile isWordChar cs).rest with
  | nil => rfl
  | cons c rest =>
    simp only [lowerCase_cons, caseBlind_isDesignator c]
    split
    · simp [Word.lower, Cut.lower]
    · rfl

/-- A reserved word is found by its lower case. -/
theorem ofText?_lowerCase (text : List Char) :
    Keyword.ofText? (lowerCase text) = Keyword.ofText? text := by
  rw [Keyword.ofText?, lowerCase_lowerCase, Keyword.ofText?]

/-- A quoted text of the text in lower case. -/
def Quotation.lower (q : Quotation) : Quotation := ⟨q.toCut.lower, q.content.map lowerCase⟩

/-- A quoted text grows by a character in lower case as it does in its own case. -/
theorem Quotation.lower_extend (q : Quotation) (front : List Char) (c : Char) :
    q.lower.extend (lowerCase front) c.toLower = (q.extend front c).lower := by
  simp only [extend, lower, Cut.lower_after, Option.map_map]
  rfl

/-- What is quoted ends at the same quote, since quotes and line ends are no letters. -/
theorem cutQuotationBody_lowerCase (cs : List Char) :
    cutQuotationBody (lowerCase cs) = (cutQuotationBody cs).lower := by
  fun_induction cutQuotationBody cs with
  | case1 => rfl
  | case2 cs ih =>
    show cutQuotationBody ('"' :: '"' :: lowerCase cs) = _
    rw [cutQuotationBody, ih]
    exact Quotation.lower_extend _ ['"', '"'] '"'
  | case3 cs hcs =>
    show cutQuotationBody ('"' :: lowerCase cs) = _
    refine cutQuotationBody_quote fun r hr => ?_
    obtain ⟨c, rest, rfl, hc, -⟩ := List.map_eq_cons_iff.1 hr
    exact hcs rest (by rw [(toLower_eq_iff (by decide)).1 hc])
  | case4 => rfl
  | case5 c cs _ hq hn ih =>
    have hq' : c.toLower ≠ '"' := fun h => hq ((toLower_eq_iff (by decide)).1 h)
    have hn' : c.toLower ≠ '\n' := fun h => hn ((toLower_eq_iff (by decide)).1 h)
    rw [lowerCase_cons, cutQuotationBody_cons hq' hn', ih]
    exact Quotation.lower_extend _ [c] c

/-- A quoted text is cut off in lower case, with the first quote before it. -/
theorem cutQuotation_lowerCase (c : Char) (cs : List Char) :
    cutQuotation (lowerCase (c :: cs)) = (cutQuotation (c :: cs)).lower := by
  rw [lowerCase_cons, cutQuotation, cutQuotation, cutQuotationBody_lowerCase]
  exact congrArg (Quotation.mk · _) (Cut.lower_after _ [c])

/-- No symbol has a letter in it. -/
theorem isPrefixOf_lowerCase {spelling : List Char} (h : ∀ d ∈ spelling, d.isAlpha = false)
    (cs : List Char) : spelling.isPrefixOf (lowerCase cs) = spelling.isPrefixOf cs := by
  induction spelling generalizing cs with
  | nil => rfl
  | cons d spelling ih =>
    cases cs with
    | nil => rfl
    | cons c cs =>
      have hd : (d == c.toLower) = (d == c) := by
        rw [Bool.eq_iff_iff, beq_iff_eq, beq_iff_eq, eq_comm, toLower_eq_iff, eq_comm]
        exact h d (List.mem_cons_self ..)
      rw [lowerCase_cons, List.isPrefixOf_cons_cons, List.isPrefixOf_cons_cons, hd,
        ih fun e he => h e (List.mem_cons_of_mem _ he)]

/-- No symbol is spelled with a letter. -/
theorem symbolAt?_lowerCase (cs : List Char) : symbolAt? (lowerCase cs) = symbolAt? cs := by
  have key : ∀ entry ∈ symbolTable, entry.1.toList.all (!·.isAlpha) = true := by decide +kernel
  refine List.find?_congr fun entry hmem => isPrefixOf_lowerCase (fun d hd => ?_) cs
  exact Bool.not_eq_true' _ ▸ List.all_eq_true.1 (key entry hmem) d hd

/-! ## Findings and readings -/

/-- The fault of the text in lower case. -/
def FaultCause.lower : FaultCause → FaultCause
  | .unterminatedString => .unterminatedString
  | .unexpectedChar c => .unexpectedChar c.toLower
  | .malformedNumeral text reason =>
    .malformedNumeral (String.ofList (lowerCase text.toList)) reason

/-- The value of the text in lower case. -/
def Literal.lower : Literal → Literal
  | .string text => .string (String.ofList (lowerCase text.toList))
  | number => number

/-- What the text in lower case is found to be. -/
def Finding.lower : Finding → Finding
  | .token kind literal => .token kind (literal.map Literal.lower)
  | .fault cause => .fault cause.lower

/-- The reading of the text in lower case. -/
def Reading.lower (r : Reading) : Reading := ⟨r.toCut.lower, r.finding.lower⟩

section
variable (cause : FaultCause)

@[simp] theorem FaultCause.code_lower : cause.lower.code = cause.code := by cases cause <;> rfl

@[simp] theorem FaultCause.notes_lower : cause.lower.notes = cause.notes := by cases cause <;> rfl

@[simp] theorem FaultCause.helps_lower : cause.lower.helps = cause.helps := by cases cause <;> rfl

/-- The wording of a fault is the same but for the case of the text that it quotes. -/
theorem FaultCause.summary_lower :
    lowerCase cause.lower.summary.toList = lowerCase cause.summary.toList := by
  have quoting (front back a b : String) (h : lowerCase a.toList = lowerCase b.toList) :
      lowerCase (front ++ a ++ back).toList = lowerCase (front ++ b ++ back).toList := by
    simp only [String.toList_append, lowerCase_append, h]
  cases cause with
  | unterminatedString => rfl
  | unexpectedChar c =>
    refine quoting "unexpected character '" "'" (toString c.toLower) (toString c) ?_
    simp only [toString, Char.toString_eq_singleton, String.toList_singleton, lowerCase_cons,
      toLower_toLower]
  | malformedNumeral text reason =>
    refine quoting "malformed numeric literal '" "'" (String.ofList (lowerCase text.toList)) text ?_
    rw [String.toList_ofList, lowerCase_lowerCase]

end

/-- A quoted text is the same finding in lower case, but for the case of what is quoted. -/
theorem finding_lower_quotation (q : Quotation) : q.lower.finding = q.finding.lower := by
  unfold Quotation.finding Quotation.lower
  dsimp only
  cases q.content with
  | none => rfl
  | some content =>
    simp only [Option.map_some, Finding.lower, Literal.lower, String.toList_ofList]

/-- The value of a numeral is a number, which has no case. -/
theorem lower_of_numeralValue {kind : NumericKind} {text : List Char} {literal : Literal}
    (h : numeralValue kind text = .ok literal) : literal.lower = literal := by
  have hkind := kind_of_numeralValue h
  cases literal with
  | string text => cases hkind
  | integer v | longInteger v | float v | double v => rfl

/-- A numeral is the same finding in lower case, with the same value. -/
theorem finding_lower_numeral (n : Numeral) : n.lower.finding = n.finding.lower := by
  have hvalue : n.lower.value = n.value :=
    congrArg n.shape.bind (funext fun shape => numeralValue_lowerCase shape.kind n.taken)
  unfold Numeral.finding
  rw [hvalue]
  cases hv : n.value with
  | error defect =>
    simp only [Finding.lower, FaultCause.lower, String.toList_ofList]
    rfl
  | ok literal =>
    rw [Numeral.value] at hv
    cases hs : n.shape with
    | error defect =>
      rw [hs] at hv
      cases hv
    | ok shape =>
      rw [hs] at hv
      simp only [Finding.lower, Option.map_some, lower_of_numeralValue hv]

/-- A word is the same finding in lower case: a reserved word is known by its lower case. -/
theorem finding_lower_word (w : Word) : w.lower.finding = w.finding.lower := by
  simp only [Word.finding, Word.lower, Finding.lower, Cut.taken_lower, ofText?_lowerCase,
    Option.map_none]

/-- A symbol is read in lower case as it is written, and so is a character that starts none. -/
theorem symbolReading_lowerCase (c : Char) (cs : List Char) :
    symbolReading (lowerCase (c :: cs)) = (symbolReading (c :: cs)).lower := by
  unfold symbolReading
  rw [symbolAt?_lowerCase]
  split
  · rw [take_lowerCase, drop_lowerCase]
    rfl
  · rfl

/-- What stands at the front of a text does not depend on the case of its letters. -/
theorem reading_lowerCase (cs : List Char) : reading (lowerCase cs) = (reading cs).lower := by
  cases cs with
  | nil => rfl
  | cons c cs =>
    rcases first_char_cases c with rfl | rfl | hd | hw | ⟨hn, hq, hd, hw⟩
    · rfl
    · have hc : cutQuotation ('"' :: lowerCase cs) = _ := cutQuotation_lowerCase '"' cs
      show reading ('"' :: lowerCase cs) = _
      rw [reading_quote, reading_quote, hc, finding_lower_quotation]
      rfl
    · have hc : cutNumeral (c.toLower :: lowerCase cs) = _ := cutNumeral_lowerCase (c :: cs)
      rw [lowerCase_cons, reading_digit ((caseBlind_isDigit c).trans hd), reading_digit hd, hc,
        finding_lower_numeral]
      rfl
    · have hc : cutWord (c.toLower :: lowerCase cs) = _ := cutWord_lowerCase (c :: cs)
      rw [lowerCase_cons, reading_wordStart ((caseBlind_isWordStart c).trans hw),
        reading_wordStart hw, hc, finding_lower_word]
      rfl
    · have hn' : c.toLower ≠ '\n' := fun h => hn ((toLower_eq_iff (by decide)).1 h)
      have hq' : c.toLower ≠ '"' := fun h => hq ((toLower_eq_iff (by decide)).1 h)
      rw [lowerCase_cons, reading_symbol hn' hq' ((caseBlind_isDigit c).trans hd)
        ((caseBlind_isWordStart c).trans hw), reading_symbol hn hq hd hw]
      exact symbolReading_lowerCase c cs

/-! ## Blanks and comments -/

/-- Whether a comment starts does not depend on case, neither that of its word nor of what follows. -/
theorem opensComment_lowerCase (cs : List Char) :
    opensComment (lowerCase cs) = opensComment cs := by
  have hnext (rest : List Char) :
      (lowerCase rest).head?.any isWordChar = rest.head?.any isWordChar := by
    cases rest with
    | nil => rfl
    | cons c rest => exact caseBlind_isWordChar c
  cases cs with
  | nil => rfl
  | cons c cs =>
    by_cases hc : c = '\''
    · rw [hc]
      rfl
    have hc' : c.toLower ≠ '\'' := fun h => hc ((toLower_eq_iff (by decide)).1 h)
    -- Without an apostrophe it takes three characters to open a comment.
    match cs with
    | [] => simp [opensComment, hc, hc']
    | [d] => simp [opensComment, hc, hc']
    | d :: e :: rest => simp only [lowerCase_cons, opensComment, hnext, toLower_toLower]

/-- The rest of a line is as long in lower case. -/
theorem cutLine_lowerCase (cs : List Char) : cutLine (lowerCase cs) = (cutLine cs).lower :=
  cutWhile_lowerCase (caseBlind_beq (by decide)).not cs

/-- What stands between tokens is as long in lower case. -/
theorem cutTrivia_lowerCase (cs : List Char) : cutTrivia (lowerCase cs) = (cutTrivia cs).lower := by
  induction cs with
  | nil => rfl
  | cons c cs ih =>
    have hc : opensComment (c.toLower :: lowerCase cs) = _ := opensComment_lowerCase (c :: cs)
    rw [lowerCase_cons, cutTrivia, cutTrivia, hc, caseBlind_isBlank]
    split
    · exact cutLine_lowerCase (c :: cs)
    split
    · rw [ih]
      exact Cut.lower_after _ [c]
    · rfl

end

end BrightLexer
