import BrightLexer.Proofs.Lexer.NumeralForm
import BrightLexer.Proofs.Number.Rounding

/-!
# The value of a numeral

`NumeralForm.value` is the number that a numeral denotes: all of its digits, times ten to the power of its
exponent. What `numeralValue` computes from the text of a numeral is that number, exactly for whole numbers
and rounded once for the others (`Literal.Denotes`), if it is below the bound of its kind
(`NumeralForm.numeralValue_of_lt`). Otherwise it is out of range (`NumeralForm.numeralValue_of_le`).

The text goes through two steps before it is read as a number: its suffix is dropped, and the letter of its
exponent is written as `e`. `NumeralForm.readReal?_unifyExponent` is that the decimal which comes out has
the value of the numeral.
-/

namespace BrightLexer

/-- The number that a run of digits denotes. -/
def Digits.value (digits : Digits) : Nat := digitsValue digits.chars

/-- The power of ten that an exponent denotes. -/
def ExponentForm.value (e : ExponentForm) : Int :=
  match e.sign with
  | some .minus => -e.digits.value
  | some .plus | none => e.digits.value

/-- The digits of an optional fraction. -/
def fractionDigits : Option Digits → List Char
  | none => []
  | some digits => digits.chars

/-- The power of ten that an optional exponent denotes. -/
def exponentValue : Option ExponentForm → Int
  | none => 0
  | some e => e.value

/-- The number that a numeral denotes. -/
def NumeralForm.value (f : NumeralForm) : ℚ :=
  let fraction := fractionDigits f.fraction
  (f.whole.value + digitsValue fraction / 10 ^ fraction.length) * 10 ^ exponentValue f.exponent

/-- A literal has a number as its value: the number itself, or the nearest one there is. -/
inductive Literal.Denotes (q : ℚ) : Literal → Prop
  | integer {v : Int32} : (v.toInt : ℚ) = q → Denotes q (.integer v)
  | longInteger {v : Int64} : (v.toInt : ℚ) = q → Denotes q (.longInteger v)
  | float {x : Binary32} : x.IsNearest q → Denotes q (.float x)
  | double {x : Binary64} : x.IsNearest q → Denotes q (.double x)

/-- A whole number of 32 bits denotes a number by being it. -/
theorem Literal.Denotes.exists_integer {n : Nat} {literal : Literal} (h : literal.Denotes n)
    (hkind : literal.kind = .number .integer) : ∃ v : Int32, literal = .integer v ∧ v.toInt = n := by
  cases h with
  | integer hvalue => exact ⟨_, rfl, by exact_mod_cast hvalue⟩
  | longInteger | float | double => cases hkind

/-- So does one of 64 bits. -/
theorem Literal.Denotes.exists_longInteger {n : Nat} {literal : Literal} (h : literal.Denotes n)
    (hkind : literal.kind = .number .longInteger) :
    ∃ v : Int64, literal = .longInteger v ∧ v.toInt = n := by
  cases h with
  | longInteger hvalue => exact ⟨_, rfl, by exact_mod_cast hvalue⟩
  | integer | float | double => cases hkind

/-- One of single precision denotes a number by being the nearest to it. -/
theorem Literal.Denotes.exists_float {q : ℚ} {literal : Literal} (h : literal.Denotes q)
    (hkind : literal.kind = .number .float) :
    ∃ x : Binary32, literal = .float x ∧ x.IsNearest q := by
  cases h with
  | float hnearest => exact ⟨_, rfl, hnearest⟩
  | integer | longInteger | double => cases hkind

/-- So does one of double precision. -/
theorem Literal.Denotes.exists_double {q : ℚ} {literal : Literal} (h : literal.Denotes q)
    (hkind : literal.kind = .number .double) :
    ∃ x : Binary64, literal = .double x ∧ x.IsNearest q := by
  cases h with
  | double hnearest => exact ⟨_, rfl, hnearest⟩
  | integer | longInteger | float => cases hkind

/-- Numbers from here on are out of range. -/
def NumericKind.bound : NumericKind → ℚ
  | .integer => 2 ^ 31
  | .longInteger => 2 ^ 63
  | .float => 2 ^ 128 - 2 ^ 103
  | .double => 2 ^ 1024 - 2 ^ 970

/-- Single precision overflows half a unit above its largest value. -/
theorem overflow_binary32 : binary32.overflow = 2 ^ 128 - 2 ^ 103 := by
  have hexponent : ((binary32.limit : Int) - binary32.precision - 1) = ((103 : Nat) : Int) := rfl
  rw [Format.overflow, hexponent, zpow_natCast]
  rfl

/-- So does double precision. -/
theorem overflow_binary64 : binary64.overflow = 2 ^ 1024 - 2 ^ 970 := by
  have hexponent : ((binary64.limit : Int) - binary64.precision - 1) = ((970 : Nat) : Int) := rfl
  rw [Format.overflow, hexponent, zpow_natCast]
  rfl

/-! ## Digits -/

/-- Digits in front count for more, by as many powers of ten as there are digits behind them. -/
theorem digitsValue_append (a b : List Char) :
    digitsValue (a ++ b) = digitsValue a * 10 ^ b.length + digitsValue b := by
  have key (n : Nat) : b.foldl (fun n d => 10 * n + digitValue d) n =
      n * 10 ^ b.length + digitsValue b := by
    induction b generalizing n with
    | nil => simp [digitsValue]
    | cons c b ih =>
      rw [digitsValue, List.foldl_cons, List.foldl_cons, ih, ih, List.length_cons]
      ring
  rw [digitsValue, List.foldl_append]
  exact key _

/-- A digit is less than ten. -/
theorem digitValue_lt {c : Char} (h : c.isDigit = true) : digitValue c < 10 := by
  simp only [Char.isDigit, Bool.and_eq_true, decide_eq_true_eq, UInt32.le_iff_toNat_le] at h
  change 48 ≤ c.toNat ∧ c.toNat ≤ 57 at h
  change c.toNat - 48 < 10
  omega

/-- A run of `n` digits denotes a number below `10 ^ n`. -/
theorem digitsValue_lt {cs : List Char} (h : ∀ c ∈ cs, c.isDigit = true) :
    digitsValue cs < 10 ^ cs.length := by
  induction cs using List.reverseRecOn with
  | nil => exact Nat.one_pos
  | append_singleton cs c ih =>
    have hfront := ih fun d hd => h d (List.mem_append_left _ hd)
    have hlast := digitValue_lt (h c (List.mem_append_right _ (List.mem_singleton_self c)))
    have hone : digitsValue [c] = digitValue c := by simp [digitsValue]
    rw [digitsValue_append, hone, List.length_append, List.length_singleton, pow_one, pow_succ]
    omega

/-- The first digit of a run is no sign. -/
theorem Digits.cutSign_append (digits : Digits) (b : List Char) :
    cutSign (digits.chars ++ b) = (false, digits.chars ++ b) := by
  obtain ⟨c, cs, hcs, -⟩ := digits.exists_cons
  obtain ⟨hplus, hminus⟩ := digits.not_sign (b := b) c (by rw [hcs]; rfl)
  rw [hcs, List.cons_append, cutSign_of_ne hminus hplus]

/-- Digits behind a sign are read as a whole number. -/
theorem readInteger?_signText (sign : Option Sign) (digits : Digits) :
    readInteger? (signText sign ++ digits.chars) =
      some (match sign with
        | some .minus => -(digits.value : Int)
        | some .plus | none => digits.value) := by
  have hsign : cutSign (signText sign ++ digits.chars) =
      ((match sign with | some .minus => true | some .plus | none => false), digits.chars) := by
    match sign with
    | some .plus | some .minus => rfl
    | none => simpa [signText] using digits.cutSign_append []
  have hempty : digits.chars.isEmpty = false := List.isEmpty_eq_false_iff.2 digits.ne_nil
  have hall : digits.chars.all Char.isDigit = true := List.all_eq_true.2 digits.isDigit
  rw [readInteger?, hsign]
  dsimp only
  rw [hempty, hall]
  match sign with
  | some .plus | some .minus | none => rfl

/-- Digits are read as a whole number. -/
theorem readInteger?_chars (digits : Digits) : readInteger? digits.chars = some (digits.value : Int) :=
  readInteger?_signText none digits

/-- There is a last digit. -/
theorem Digits.exists_last (digits : Digits) :
    ∃ front c, digits.chars = front ++ [c] ∧ c.isDigit = true :=
  ⟨_, _, (List.dropLast_append_getLast digits.ne_nil).symm,
    digits.isDigit _ (List.getLast_mem digits.ne_nil)⟩

/-! ## The letter of an exponent -/

/-- Letters are rewritten one by one. -/
theorem unifyExponent_append (a b : List Char) :
    unifyExponent (a ++ b) = unifyExponent a ++ unifyExponent b :=
  List.map_append

/-- Only the letter `d` is written in another way. -/
theorem unifyExponent_eq_self {cs : List Char} (h : ∀ c ∈ cs, c ≠ 'd' ∧ c ≠ 'D') :
    unifyExponent cs = cs := by
  refine (List.map_congr_left fun c hc => ?_).trans (List.map_id cs)
  exact if_neg (not_or.2 (h c hc))

/-- Digits hold no letter to rewrite. -/
theorem unifyExponent_chars (digits : Digits) : unifyExponent digits.chars = digits.chars := by
  refine unifyExponent_eq_self fun c hc => ?_
  have hdigit := digits.isDigit c hc
  constructor <;> rintro rfl <;> cases hdigit

/-- Neither does a fraction. -/
theorem unifyExponent_fractionText (fraction : Option Digits) :
    unifyExponent (fractionText fraction) = fractionText fraction := by
  cases fraction with
  | none => rfl
  | some digits => exact congrArg ('.' :: ·) (unifyExponent_chars digits)

/-- An exponent is opened by the letter `e` in one of its cases, and otherwise stays as it is. -/
theorem unifyExponent_exponentText (e : ExponentForm) :
    ∃ c, (c = 'e' ∨ c = 'E') ∧
      unifyExponent (exponentText (some e)) = c :: (signText e.sign ++ e.digits.chars) := by
  obtain ⟨mark, upper, sign, digits⟩ := e
  have hsign : unifyExponent (signText sign) = signText sign := by
    match sign with
    | some .plus | some .minus | none => rfl
  have htail : unifyExponent (signText sign ++ digits.chars) = signText sign ++ digits.chars := by
    rw [unifyExponent_append, hsign, unifyExponent_chars]
  match mark, upper with
  | .single, false | .double, false | .double, true => exact ⟨'e', .inl rfl, congrArg ('e' :: ·) htail⟩
  | .single, true => exact ⟨'E', .inr rfl, congrArg ('E' :: ·) htail⟩

/-- An exponent starts with its letter, also once that is rewritten. -/
theorem head_unifyExponent (e : Option ExponentForm) :
    ∀ c ∈ (unifyExponent (exponentText e)).head?, c.isDigit = false ∧ c ≠ '.' := by
  intro c hc
  cases e with
  | none => cases hc
  | some e =>
    obtain ⟨d, hd, htext⟩ := unifyExponent_exponentText e
    rw [htext] at hc
    obtain rfl := Option.some.inj hc
    rcases hd with rfl | rfl <;> decide

/-- The digits behind a point are those of the fraction. -/
theorem cutPoint_fractionText (fraction : Option Digits) {b : List Char}
    (hb : ∀ c ∈ b.head?, c.isDigit = false ∧ c ≠ '.') :
    cutPoint (fractionText fraction ++ b) = ⟨fractionDigits fraction, b⟩ := by
  cases fraction with
  | some digits => exact cutDigits_chars digits fun c hc => (hb c hc).1
  | none =>
    cases b with
    | nil => rfl
    | cons c b => exact cutPoint_of_ne (hb c rfl).2 b

/-- An exponent is read as the power of ten that it denotes. -/
theorem readExponent?_unifyExponent (e : Option ExponentForm) :
    readExponent? (unifyExponent (exponentText e)) = some (exponentValue e) := by
  cases e with
  | none => rfl
  | some e =>
    obtain ⟨c, hc, htext⟩ := unifyExponent_exponentText e
    have hletter : (c == 'e' || c == 'E') = true := by simpa using hc
    rw [htext, readExponent?, if_pos hletter, readInteger?_signText]
    rfl

namespace NumeralForm

/-! ## What is left of the text -/

/-- A form without its suffix ends with a digit. -/
theorem exists_last_digit (f : NumeralForm) :
    ∃ front c, f.unsuffixed = front ++ [c] ∧ c.isDigit = true := by
  have behind {a b : List Char} (h : ∃ front c, b = front ++ [c] ∧ c.isDigit = true) :
      ∃ front c, a ++ b = front ++ [c] ∧ c.isDigit = true := by
    obtain ⟨front, c, rfl, hc⟩ := h
    exact ⟨a ++ front, c, by rw [List.append_assoc], hc⟩
  rw [unsuffixed, mantissa]
  cases f.exponent with
  | some e => exact behind (behind (a := [_]) (behind e.digits.exists_last))
  | none =>
    rw [exponentText, List.append_nil]
    cases f.fraction with
    | some digits => exact behind (behind (a := ['.']) digits.exists_last)
    | none =>
      rw [fractionText, List.append_nil]
      exact f.whole.exists_last

/-- Nothing but the suffix is dropped. -/
theorem dropSuffixes_text (f : NumeralForm) : dropSuffixes f.text = f.unsuffixed := by
  obtain ⟨front, c, hlast, hc⟩ := f.exists_last_digit
  have hstop : (c == '#' || c == '!' || c == '&') = false := by
    refine Bool.eq_false_iff.2 fun h => ?_
    simp only [Bool.or_eq_true, beq_iff_eq] at h
    rcases h with (rfl | rfl) | rfl <;> cases hc
  rw [dropSuffixes, text, hlast]
  cases f.suffix with
  | none => simp [suffixText, hstop]
  | some suffix => cases suffix <;> simp [suffixText, TypeSuffix.char, hstop]

/-- The digits of a form, as one number, and the power of ten that they are scaled by. -/
def decimal (f : NumeralForm) : Decimal :=
  let fraction := fractionDigits f.fraction
  ⟨digitsValue (f.whole.chars ++ fraction), exponentValue f.exponent - fraction.length⟩

/-- The decimal of a form is its value. -/
theorem value_decimal (f : NumeralForm) : f.decimal.value = f.value := by
  have hten : (10 : ℚ) ≠ 0 := by norm_num
  rw [Decimal.value, value, decimal, digitsValue_append, zpow_sub₀ hten, zpow_natCast, Digits.value]
  push_cast
  field_simp

/-- A form without its suffix is read as its decimal, when its exponent has the letter `e`. -/
theorem readReal?_unifyExponent (f : NumeralForm) :
    readReal? (unifyExponent f.unsuffixed) = some (false, f.decimal) := by
  have htext : unifyExponent f.unsuffixed =
      f.whole.chars ++ (fractionText f.fraction ++ unifyExponent (exponentText f.exponent)) := by
    rw [unsuffixed, mantissa, unifyExponent_append, unifyExponent_append, unifyExponent_chars,
      unifyExponent_fractionText, List.append_assoc]
  have hhead := head_unifyExponent f.exponent
  have hwhole := cutDigits_chars f.whole (forall_head_append (head_fractionText f.fraction)
    fun c hc => (hhead c hc).1)
  have hread : readDecimal? (unifyExponent f.unsuffixed) = some f.decimal := by
    have hempty : f.whole.chars.isEmpty = false := List.isEmpty_eq_false_iff.2 f.whole.ne_nil
    rw [cutDigits] at hwhole
    rw [readDecimal?_eq, htext, hwhole]
    dsimp only
    rw [cutPoint_fractionText f.fraction hhead, hempty, readExponent?_unifyExponent]
    rfl
  rw [readReal?, htext, f.whole.cutSign_append, ← htext]
  dsimp only
  rw [hread]
  rfl

/-! ## The value of a literal -/

section
variable {F : Format}

/-- Below the bound of a format, a form is read as the nearest value of the format. -/
theorem readBinary?_of_lt (hF : F.Regular) (f : NumeralForm) (h : f.value < F.overflow) :
    ∃ x, readBinary? F (unifyExponent f.unsuffixed) = some x ∧ x.IsNearest f.value := by
  rw [← f.value_decimal] at h ⊢
  rw [readBinary?, f.readReal?_unifyExponent]
  exact Binary.ofDecimal?_of_lt hF h

/-- From the bound on it is not read at all. -/
theorem readBinary?_of_le (hF : F.Regular) (f : NumeralForm) (h : F.overflow ≤ f.value) :
    readBinary? F (unifyExponent f.unsuffixed) = none := by
  rw [← f.value_decimal] at h
  rw [readBinary?, f.readReal?_unifyExponent]
  exact Binary.ofDecimal?_of_le hF h

end

/-- A whole number has neither a fraction nor an exponent, so it is its digits. -/
theorem eq_whole (f : NumeralForm) (h : f.shape.kind = .integer ∨ f.shape.kind = .longInteger) :
    f.unsuffixed = f.whole.chars ∧ f.value = f.whole.value := by
  have hparts : f.shape.hasPoint = false ∧ f.shape.exponent = none := by
    generalize f.shape = s at h
    rcases h with h | h
    · cases NumeralShape.hasKind_iff.2 h
      exact ⟨rfl, rfl⟩
    · cases NumeralShape.hasKind_iff.2 h
      exact ⟨rfl, rfl⟩
  have hfraction : f.fraction = none :=
    Option.isNone_iff_eq_none.1 (Option.isSome_eq_false_iff.1 hparts.1)
  have hexponent : f.exponent = none := Option.map_eq_none_iff.1 hparts.2
  simp [unsuffixed, mantissa, value, hfraction, hexponent, fractionText, exponentText, fractionDigits,
    exponentValue, digitsValue]

/-- A number without a sign is never too small. -/
theorem within_twoPow_iff {v n : Nat} : -(twoPow n : Int) ≤ v ∧ (v : Int) < twoPow n ↔ v < 2 ^ n := by
  change -(2 ^ n : Nat) ≤ (v : Int) ∧ (v : Int) < (2 ^ n : Nat) ↔ v < 2 ^ n
  omega

/-- A form that is its digits, but for its suffix, is read as their number. -/
theorem readInteger?_dropSuffixes (f : NumeralForm) (h : f.unsuffixed = f.whole.chars) :
    readInteger? (dropSuffixes f.text) = some (f.whole.value : Int) := by
  rw [f.dropSuffixes_text, h, readInteger?_chars]

/-- A form without fraction and exponent has a value of 32 bits if it is below the bound. -/
theorem numeralValue?_integer (f : NumeralForm) (h : f.unsuffixed = f.whole.chars) :
    numeralValue? .integer f.text =
      if f.whole.value < 2 ^ 31 then some (.integer (Int32.ofInt f.whole.value)) else none := by
  rw [numeralValue?, f.readInteger?_dropSuffixes h, Option.bind_eq_bind, Option.bind_some]
  exact if_congr within_twoPow_iff rfl rfl

/-- It has one of 64 bits if it is below the bound of these. -/
theorem numeralValue?_longInteger (f : NumeralForm) (h : f.unsuffixed = f.whole.chars) :
    numeralValue? .longInteger f.text =
      if f.whole.value < 2 ^ 63 then some (.longInteger (Int64.ofInt f.whole.value)) else none := by
  rw [numeralValue?, f.readInteger?_dropSuffixes h, Option.bind_eq_bind, Option.bind_some]
  exact if_congr within_twoPow_iff rfl rfl

/-- A form of single precision is read without its suffix, and with one letter for its exponent. -/
theorem numeralValue?_float (f : NumeralForm) :
    numeralValue? .float f.text =
      (readBinary? binary32 (unifyExponent f.unsuffixed)).map .float := by
  rw [← f.dropSuffixes_text]
  rfl

/-- So is one of double precision. -/
theorem numeralValue?_double (f : NumeralForm) :
    numeralValue? .double f.text =
      (readBinary? binary64 (unifyExponent f.unsuffixed)).map .double := by
  rw [← f.dropSuffixes_text]
  rfl

/-- A numeral below the bound of its kind has a literal that denotes its value. -/
theorem numeralValue_of_lt (f : NumeralForm) (h : f.value < f.shape.kind.bound) :
    ∃ literal, numeralValue f.shape.kind f.text = .ok literal ∧ literal.Denotes f.value := by
  suffices hsome : ∃ literal, numeralValue? f.shape.kind f.text = some literal ∧
      literal.Denotes f.value by
    obtain ⟨literal, hliteral, hdenotes⟩ := hsome
    exact ⟨literal, by rw [numeralValue, hliteral], hdenotes⟩
  cases hkind : f.shape.kind with
  | integer =>
    obtain ⟨htext, hvalue⟩ := f.eq_whole (.inl hkind)
    rw [hkind, hvalue, NumericKind.bound] at h
    have hlt : f.whole.value < 2 ^ 31 := by exact_mod_cast h
    refine ⟨_, (f.numeralValue?_integer htext).trans (if_pos hlt), .integer ?_⟩
    rw [hvalue, Int32.toInt_ofInt_of_le (by omega) (by omega), Int.cast_natCast]
  | longInteger =>
    obtain ⟨htext, hvalue⟩ := f.eq_whole (.inr hkind)
    rw [hkind, hvalue, NumericKind.bound] at h
    have hlt : f.whole.value < 2 ^ 63 := by exact_mod_cast h
    refine ⟨_, (f.numeralValue?_longInteger htext).trans (if_pos hlt), .longInteger ?_⟩
    rw [hvalue, Int64.toInt_ofInt_of_le (by omega) (by omega), Int.cast_natCast]
  | float =>
    rw [hkind] at h
    obtain ⟨x, hx, hnearest⟩ := readBinary?_of_lt Format.regular_binary32 f (overflow_binary32 ▸ h)
    exact ⟨.float x, by rw [f.numeralValue?_float, hx]; rfl, .float hnearest⟩
  | double =>
    rw [hkind] at h
    obtain ⟨x, hx, hnearest⟩ := readBinary?_of_lt Format.regular_binary64 f (overflow_binary64 ▸ h)
    exact ⟨.double x, by rw [f.numeralValue?_double, hx]; rfl, .double hnearest⟩

/-- Any other numeral is out of range. -/
theorem numeralValue_of_le (f : NumeralForm) (h : f.shape.kind.bound ≤ f.value) :
    numeralValue f.shape.kind f.text = .error (.outOfRange f.shape.kind) := by
  suffices hnone : numeralValue? f.shape.kind f.text = none by rw [numeralValue, hnone]
  cases hkind : f.shape.kind with
  | integer =>
    obtain ⟨htext, hvalue⟩ := f.eq_whole (.inl hkind)
    rw [hkind, hvalue, NumericKind.bound] at h
    have hle : 2 ^ 31 ≤ f.whole.value := by exact_mod_cast h
    rw [f.numeralValue?_integer htext, if_neg (Nat.not_lt_of_le hle)]
  | longInteger =>
    obtain ⟨htext, hvalue⟩ := f.eq_whole (.inr hkind)
    rw [hkind, hvalue, NumericKind.bound] at h
    have hle : 2 ^ 63 ≤ f.whole.value := by exact_mod_cast h
    rw [f.numeralValue?_longInteger htext, if_neg (Nat.not_lt_of_le hle)]
  | float =>
    rw [hkind] at h
    rw [f.numeralValue?_float, readBinary?_of_le Format.regular_binary32 f (overflow_binary32 ▸ h)]
    rfl
  | double =>
    rw [hkind] at h
    rw [f.numeralValue?_double, readBinary?_of_le Format.regular_binary64 f (overflow_binary64 ▸ h)]
    rfl

end NumeralForm

end BrightLexer
