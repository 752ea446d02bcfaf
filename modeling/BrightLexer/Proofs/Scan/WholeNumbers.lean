import BrightLexer.Proofs.Scan.Numerals

/-!
# Whole numbers

Digits alone are an integer, if there are fewer than ten, and digits with `&` behind them are a long
integer, however many there are. The literals of both are the numbers that the digits denote.

An integer is always in range, because nine digits denote a number below `10 ^ 9`
(`NumeralForm.value_lt_of_integer`). So the fault for an integer out of range has a wording but is never
handed out, neither by the lexer nor by a scan (`not_outOfRange_integer`). A long integer is out of range
if its number is, whatever zeros it starts with.
-/

namespace BrightLexer

section
variable {f : NumeralForm} {t : Token} {l : Lexer} {gap r rest : List Char}

/-! ## What whole numbers are made of -/

/-- A form that is an integer is its digits, fewer than ten. -/
theorem NumeralForm.text_of_integer (h : f.shape.HasKind .integer) :
    f.text = f.whole.chars ∧ f.whole.chars.length < 10 := by
  obtain ⟨hunsuffixed, -⟩ := f.eq_whole (.inl (NumeralShape.hasKind_iff.1 h))
  obtain ⟨hsuffix, hdigits⟩ : f.shape.suffix = none ∧ f.shape.digits < 10 := by
    generalize f.shape = s at h
    cases h with
    | fewDigits hlt => exact ⟨rfl, hlt⟩
  have hnone : f.suffix = none := hsuffix
  exact ⟨by rw [text, hunsuffixed, hnone]; exact List.append_nil _, hdigits⟩

/-- A form that is a long integer is its digits and `&`. -/
theorem NumeralForm.text_of_longInteger (h : f.shape.HasKind .longInteger) :
    f.text = f.whole.chars ++ ['&'] := by
  obtain ⟨hunsuffixed, -⟩ := f.eq_whole (.inr (NumeralShape.hasKind_iff.1 h))
  have hsuffix : f.shape.suffix = some .long := by
    generalize f.shape = s at h
    cases h
    rfl
  have hlong : f.suffix = some .long := hsuffix
  rw [text, hunsuffixed, hlong]
  rfl

/-- Nine digits are not enough to leave the range of an integer. -/
theorem NumeralForm.value_lt_of_integer (h : f.shape.HasKind .integer) :
    f.value < NumericKind.integer.bound := by
  obtain ⟨-, hdigits⟩ := f.text_of_integer h
  obtain ⟨-, hvalue⟩ := f.eq_whole (.inl (NumeralShape.hasKind_iff.1 h))
  have hlt : f.whole.value < 2 ^ 31 := calc
    f.whole.value < 10 ^ f.whole.chars.length := digitsValue_lt f.whole.isDigit
    _ ≤ 10 ^ 9 := Nat.pow_le_pow_right (by decide) (Nat.le_of_lt_succ hdigits)
    _ < 2 ^ 31 := by decide
  rw [hvalue, NumericKind.bound]
  exact_mod_cast hlt

/-- A long integer is out of range if its digits denote more than `2 ^ 63 - 1`. -/
theorem NumeralForm.bound_le_iff_of_longInteger (h : f.shape.HasKind .longInteger) :
    NumericKind.longInteger.bound ≤ f.value ↔ 2 ^ 63 - 1 < f.whole.value := by
  obtain ⟨-, hvalue⟩ := f.eq_whole (.inr (NumeralShape.hasKind_iff.1 h))
  have hcast : (2 : ℚ) ^ 63 ≤ f.whole.value ↔ 2 ^ 63 ≤ f.whole.value := by norm_cast
  rw [hvalue, NumericKind.bound, hcast]
  omega

/-! ## Faults that are out of range -/

/-- No text is read as an integer out of range. -/
theorem not_outOfRange_integer (cs : List Char) (reported : String) :
    (reading cs).finding ≠ .fault (.malformedNumeral reported "integer literal out of range") := by
  intro h
  obtain ⟨f, rest, -, -, -, hkind, hle⟩ := exists_form_of_outOfRange .integer h
  exact absurd (f.value_lt_of_integer hkind) (not_lt.2 hle)

/-- The notes on a fault are its reason, or say that a quoted text ends with its line. -/
theorem FaultCause.eq_malformedNumeral_of_mem_notes {cause : FaultCause} {note : String}
    (h : note ∈ cause.notes) (hnote : note ≠ "strings may not span multiple lines") :
    ∃ reported, cause = .malformedNumeral reported note := by
  cases cause with
  | unterminatedString => exact absurd (List.mem_singleton.1 h) hnote
  | unexpectedChar c => cases h
  | malformedNumeral reported reason =>
    obtain rfl := List.mem_singleton.1 h
    exact ⟨reported, rfl⟩

/-! ## Where whole numbers are read -/

/-- An integer that is taken alone is a token with the number of its digits. -/
theorem Lexer.StartsAt.finds_integer (h : l.StartsAt gap r) (hf : f.LongestIn r rest)
    (hd : ¬ f.MissesDigits rest) (hp : startsFraction rest = false)
    (hkind : f.shape.HasKind .integer) :
    ∃ v : Int32, v.toInt = f.whole.value ∧
      l.Finds gap f.text (.token (.number .integer) (some (.integer v))) := by
  obtain ⟨-, hvalue⟩ := f.eq_whole (.inl (NumeralShape.hasKind_iff.1 hkind))
  obtain ⟨literal, hlkind, hdenotes, hfinds⟩ :=
    h.finds_number hf hd hp hkind (f.value_lt_of_integer hkind)
  rw [hvalue] at hdenotes
  obtain ⟨v, rfl, hv⟩ := hdenotes.exists_integer hlkind
  exact ⟨v, hv, hfinds⟩

/-- A long integer in range that is taken alone is a token with the number of its digits. -/
theorem Lexer.StartsAt.finds_longInteger (h : l.StartsAt gap r) (hf : f.LongestIn r rest)
    (hd : ¬ f.MissesDigits rest) (hp : startsFraction rest = false)
    (hkind : f.shape.HasKind .longInteger) (hle : f.whole.value ≤ 2 ^ 63 - 1) :
    ∃ v : Int64, v.toInt = f.whole.value ∧
      l.Finds gap f.text (.token (.number .longInteger) (some (.longInteger v))) := by
  obtain ⟨-, hvalue⟩ := f.eq_whole (.inr (NumeralShape.hasKind_iff.1 hkind))
  have hlt : f.value < NumericKind.longInteger.bound :=
    not_le.1 fun hbound => absurd ((f.bound_le_iff_of_longInteger hkind).1 hbound) (not_lt.2 hle)
  obtain ⟨literal, hlkind, hdenotes, hfinds⟩ := h.finds_number hf hd hp hkind hlt
  rw [hvalue] at hdenotes
  obtain ⟨v, rfl, hv⟩ := hdenotes.exists_longInteger hlkind
  exact ⟨v, hv, hfinds⟩

/-- An integer token has fewer than ten digits for its text, and their number for its literal. -/
theorem Token.Scanned.exists_integer (h : t.Scanned) (hkind : t.kind = .number .integer) :
    ∃ (digits : Digits) (v : Int32), t.text.toList = digits.chars ∧ digits.chars.length < 10 ∧
      t.literal = some (.integer v) ∧ v.toInt = digits.value := by
  obtain ⟨f, literal, htext, hshape, hliteral, hlkind, hdenotes⟩ := h.exists_numeralForm hkind
  rw [(f.eq_whole (.inl hshape)).2] at hdenotes
  obtain ⟨v, rfl, hv⟩ := hdenotes.exists_integer hlkind
  obtain ⟨hchars, hlength⟩ := f.text_of_integer (NumeralShape.hasKind_iff.2 hshape)
  exact ⟨f.whole, v, htext.trans hchars, hlength, hliteral, hv⟩

/-- A long integer token has digits and `&` for its text, and the number of the digits for its literal. -/
theorem Token.Scanned.exists_longInteger (h : t.Scanned) (hkind : t.kind = .number .longInteger) :
    ∃ (digits : Digits) (v : Int64), t.text.toList = digits.chars ++ ['&'] ∧
      t.literal = some (.longInteger v) ∧ v.toInt = digits.value := by
  obtain ⟨f, literal, htext, hshape, hliteral, hlkind, hdenotes⟩ := h.exists_numeralForm hkind
  rw [(f.eq_whole (.inr hshape)).2] at hdenotes
  obtain ⟨v, rfl, hv⟩ := hdenotes.exists_longInteger hlkind
  have hchars := f.text_of_longInteger (NumeralShape.hasKind_iff.2 hshape)
  exact ⟨f.whole, v, htext.trans hchars, hliteral, hv⟩

end

/-- Whole numbers are exact. A form that the table has as an integer is digits, fewer than ten, and always
a token, whose literal is the number of the digits. A form that it has as a long integer is digits with
`&` behind them; it is such a token if the number is at most `2 ^ 63 - 1`, and otherwise, and only then, it
is out of range. The tokens of both kinds are of this form, and so is what is reported as a long integer
out of range. An integer out of range is reported neither by the lexer nor by a scan. -/
theorem nextToken_whole :
    (∀ (l : Lexer) (gap r rest : List Char) (f : NumeralForm), l.StartsAt gap r →
      f.LongestIn r rest → ¬ f.MissesDigits rest → startsFraction rest = false →
      (f.shape.HasKind .integer → f.text = f.whole.chars ∧ f.whole.chars.length < 10 ∧
        ∃ v : Int32, v.toInt = f.whole.value ∧
          l.Finds gap f.text (.token (.number .integer) (some (.integer v)))) ∧
      (f.shape.HasKind .longInteger → f.text = f.whole.chars ++ ['&'] ∧
        (f.whole.value ≤ 2 ^ 63 - 1 → ∃ v : Int64, v.toInt = f.whole.value ∧
          l.Finds gap f.text (.token (.number .longInteger) (some (.longInteger v)))) ∧
        (l.Finds gap f.text (.fault (.malformedNumeral (String.ofList f.text)
          "long integer literal out of range")) ↔ 2 ^ 63 - 1 < f.whole.value))) ∧
    (∀ t : Token, t.Scanned → t.kind = .number .integer →
      ∃ (digits : Digits) (v : Int32), t.text.toList = digits.chars ∧ digits.chars.length < 10 ∧
        t.literal = some (.integer v) ∧ v.toInt = digits.value) ∧
    (∀ t : Token, t.Scanned → t.kind = .number .longInteger →
      ∃ (digits : Digits) (v : Int64), t.text.toList = digits.chars ++ ['&'] ∧
        t.literal = some (.longInteger v) ∧ v.toInt = digits.value) ∧
    (∀ (l : Lexer) (fault : Fault) (reported : String), l.nextToken.1 = .error fault →
      fault.cause ≠ .malformedNumeral reported "integer literal out of range" ∧
      (fault.cause = .malformedNumeral reported "long integer literal out of range" →
        ∃ (gap rest : List Char) (f : NumeralForm), l.StartsAt gap (f.text ++ rest) ∧
          f.LongestIn (f.text ++ rest) rest ∧ f.shape.HasKind .longInteger ∧
          2 ^ 63 - 1 < f.whole.value)) ∧
    (∀ (source : String) (fault : Fault) (reported : String), scan source = .error fault →
      fault.cause ≠ .malformedNumeral reported "integer literal out of range") ∧
    ∀ (source : String) (d : Diagnostic), d ∈ (scanRecovering source).2 →
      "integer literal out of range" ∉ d.notes := by
  refine ⟨?_, fun t ht hkind => ht.exists_integer hkind, fun t ht hkind => ht.exists_longInteger hkind,
    ?_, ?_, ?_⟩
  · intro l gap r rest f h hf hd hp
    refine ⟨fun hkind => ?_, fun hkind => ⟨f.text_of_longInteger hkind, ?_, ?_⟩⟩
    · obtain ⟨htext, hlength⟩ := f.text_of_integer hkind
      exact ⟨htext, hlength, h.finds_integer hf hd hp hkind⟩
    · exact h.finds_longInteger hf hd hp hkind
    · exact (h.finds_outOfRange_iff hf hd hp hkind).trans (f.bound_le_iff_of_longInteger hkind)
  · intro l fault reported herror
    obtain ⟨gap, r, h, -, hfinding⟩ := Lexer.exists_reading_of_fault herror
    refine ⟨fun hcause => ?_, fun hcause => ?_⟩
    · exact not_outOfRange_integer r reported (hcause ▸ hfinding)
    · rw [hcause] at hfinding
      obtain ⟨f, rest, hf, -, -, hkind, hle⟩ := exists_form_of_outOfRange .longInteger hfinding
      obtain rfl := hf.whole_eq
      exact ⟨gap, rest, f, h, hf, hkind, (f.bound_le_iff_of_longInteger hkind).1 hle⟩
  · intro source fault reported herror hcause
    obtain ⟨cs, hfinding⟩ := exists_reading_of_scan_fault herror
    exact not_outOfRange_integer cs reported (hcause ▸ hfinding)
  · intro source d hd hnote
    obtain ⟨fault, cs, hdiagnostic, hfinding⟩ := exists_reading_of_diagnostic hd
    rw [hdiagnostic] at hnote
    obtain ⟨reported, hcause⟩ := FaultCause.eq_malformedNumeral_of_mem_notes hnote (by decide)
    exact not_outOfRange_integer cs reported (hcause ▸ hfinding)

/-- Nine digits are an integer. Zeros in front do not bring a long integer out of range, and one more than
the largest is out of range. -/
theorem nextToken_whole_limits :
    (∃ v : Int32, v.toInt = 999999999 ∧ (Lexer.ofSource "999999999").Finds [] "999999999".toList
        (.token (.number .integer) (some (.integer v)))) ∧
      (∃ t : Token, t.Scanned ∧ ∃ (digits : Digits) (v : Int64),
        t.text.toList = digits.chars ++ ['&'] ∧ t.literal = some (.longInteger v) ∧
          v.toInt = digits.value) ∧
      (Lexer.ofSource "9223372036854775808&").Finds [] "9223372036854775808&".toList
        (.fault (.malformedNumeral "9223372036854775808&" "long integer literal out of range")) ∧
      ∃ f : NumeralForm, f.shape.HasKind .longInteger ∧ 2 ^ 63 - 1 < f.whole.value := by
  obtain ⟨hforms, -, hlongs, hfaults, -, -⟩ := nextToken_whole
  refine ⟨?_, ?_, ?_⟩
  · let f : NumeralForm := ⟨⟨"999999999".toList, nofun, List.all_eq_true.1 rfl⟩, none, none, none⟩
    have hf : f.PartsIn "999999999".toList := ⟨rfl, rfl, rfl, rfl, rfl⟩
    obtain ⟨hinteger, -⟩ := hforms (.ofSource "999999999") [] _ _ f ⟨rfl, .nil _⟩ hf.longestIn
      (by rintro ⟨-, -, c, ⟨⟩, -⟩) rfl
    exact (hinteger (.fewDigits (by decide))).2.2
  · let f : NumeralForm :=
      ⟨⟨"0009223372036854775807".toList, nofun, List.all_eq_true.1 rfl⟩, none, none, some .long⟩
    have hf : f.PartsIn "0009223372036854775807&".toList := ⟨rfl, rfl, rfl, rfl, rfl⟩
    have hvalue : f.whole.value = 9223372036854775807 := rfl
    obtain ⟨-, hlong⟩ := hforms (.ofSource "0009223372036854775807&") [] _ _ f ⟨rfl, .nil _⟩
      hf.longestIn (fun hd => by cases hd.2.1) rfl
    obtain ⟨v, -, hfinds⟩ := (hlong .wholeLong).2.1 (by rw [hvalue]; norm_num)
    exact ⟨_, .call hfinds.item, hlongs _ (.call hfinds.item) rfl⟩
  · let f : NumeralForm :=
      ⟨⟨"9223372036854775808".toList, nofun, List.all_eq_true.1 rfl⟩, none, none, some .long⟩
    have hf : f.PartsIn "9223372036854775808&".toList := ⟨rfl, rfl, rfl, rfl, rfl⟩
    have hvalue : f.whole.value = 9223372036854775808 := rfl
    obtain ⟨-, hlong⟩ := hforms (.ofSource "9223372036854775808&") [] _ _ f ⟨rfl, .nil _⟩
      hf.longestIn (fun hd => by cases hd.2.1) rfl
    have hfault := (hlong .wholeLong).2.2.2 (by rw [hvalue]; norm_num)
    obtain ⟨_, _, g, -, -, hkind, hlt⟩ := (hfaults _ _ _ hfault.item).2 rfl
    exact ⟨hfault, g, hkind, hlt⟩

end BrightLexer
