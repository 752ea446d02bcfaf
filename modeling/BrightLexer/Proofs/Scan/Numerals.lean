import BrightLexer.Proofs.Lexer.LongestNumeral
import BrightLexer.Proofs.Lexer.NumeralValue
import BrightLexer.Proofs.Scan.TokenStart

/-!
# Numerals in a source

Where a token starts with a digit, the longest form of the grammar at the front of the text decides what
comes of the call (`nextToken_numeral`). It is taken alone, and then it is a token of the kind that the
table gives for its shape, with a literal that denotes its value, or it is out of range of this kind. More
is taken in two cases, which are both faults: an exponent without digits behind it, and a point with digits.

`nextToken_rounded` is about the numerals with a floating point value, in both directions. A token of such
a kind is a form of the grammar, and its literal is the value of the format nearest to the number that the
form denotes. A form of such a kind is no token if and only if the number has reached the middle between the
largest value of the format and the power of two behind it.
-/

namespace BrightLexer

section
variable {l : Lexer} {t : Token} {f : NumeralForm} {kind : NumericKind}
  {gap r rest text back : List Char}

/-- Nothing is passed over before a digit. -/
theorem cutTrivia_digit {c : Char} (hc : c.isDigit = true) (cs : List Char) :
    cutTrivia (c :: cs) = .empty (c :: cs) := by
  refine cutTrivia_of_head (Bool.eq_false_iff.2 fun hb => ?_) ?_ (fun hr => ?_) cs
  · rcases isBlank_iff.1 hb with rfl | rfl | rfl <;> cases hc
  · rintro rfl
    cases hc
  · have halpha := isDigit_of_isAlpha (isAlpha_of_toLower hr (by decide))
    rw [hc] at halpha
    cases halpha

/-- Where a form is ahead, the call hands out the numeral that is cut off there. -/
theorem Lexer.StartsAt.finds_cutNumeral {shape : Except NumeralDefect NumeralShape}
    (h : l.StartsAt gap r) (hf : f.LongestIn r rest) (hcut : cutNumeral r = ⟨⟨text, back⟩, shape⟩) :
    l.Finds gap text (Numeral.finding ⟨⟨text, back⟩, shape⟩) := by
  obtain ⟨c, cs, rfl, hc⟩ := hf.exists_cons
  refine h.finds_of_reading back (cutTrivia_digit hc cs) ?_
  rw [reading_digit hc, hcut]

/-- A form that is taken alone and is in the range of its kind is a token of this kind. -/
theorem Lexer.StartsAt.finds_number (h : l.StartsAt gap r) (hf : f.LongestIn r rest)
    (hd : ¬ f.MissesDigits rest) (hp : startsFraction rest = false) (hkind : f.shape.HasKind kind)
    (hlt : f.value < kind.bound) :
    ∃ literal : Literal, literal.kind = .number kind ∧ literal.Denotes f.value ∧
      l.Finds gap f.text (.token (.number kind) (some literal)) := by
  obtain rfl := NumeralShape.hasKind_iff.1 hkind
  obtain ⟨literal, hvalue, hdenotes⟩ := f.numeralValue_of_lt hlt
  refine ⟨literal, kind_of_numeralValue hvalue, hdenotes, ?_⟩
  have hfinds := h.finds_cutNumeral hf (hf.cutNumeral_eq hd hp)
  have hfinding : Numeral.finding ⟨⟨f.text, rest⟩, .ok f.shape⟩ =
      .token (.number f.shape.kind) (some literal) :=
    Numeral.finding_eq_token_iff.2 ⟨f.shape, literal, rfl, hvalue, rfl, rfl⟩
  rwa [hfinding] at hfinds

/-- It is a fault exactly if it is not in this range. -/
theorem Lexer.StartsAt.finds_outOfRange_iff (h : l.StartsAt gap r) (hf : f.LongestIn r rest)
    (hd : ¬ f.MissesDigits rest) (hp : startsFraction rest = false)
    (hkind : f.shape.HasKind kind) :
    l.Finds gap f.text (.fault (.malformedNumeral (String.ofList f.text)
      (NumeralDefect.outOfRange kind).reason)) ↔ kind.bound ≤ f.value := by
  constructor
  · intro hfault
    by_contra hlt
    obtain ⟨literal, -, -, htoken⟩ := h.finds_number hf hd hp hkind (not_le.1 hlt)
    cases hfault.item.symm.trans htoken.item
  · intro hle
    obtain rfl := NumeralShape.hasKind_iff.1 hkind
    have hfinds := h.finds_cutNumeral hf (hf.cutNumeral_eq hd hp)
    have hvalue : Numeral.value ⟨⟨f.text, rest⟩, .ok f.shape⟩ = .error (.outOfRange f.shape.kind) :=
      f.numeralValue_of_le hle
    rwa [Numeral.finding, hvalue] at hfinds

/-- The text of a token that is a number is a form, and its literal denotes the value of this form. -/
theorem Token.Scanned.exists_numeralForm (h : t.Scanned) (hkind : t.kind = .number kind) :
    ∃ (f : NumeralForm) (literal : Literal), t.text.toList = f.text ∧ f.shape.kind = kind ∧
      t.literal = some literal ∧ literal.kind = .number kind ∧ literal.Denotes f.value := by
  have hread := h.reading_text
  have hfinding := congrArg Reading.finding hread
  obtain ⟨c, cs, hcs, hc⟩ := quote_or_digit_of_isLiteral hfinding (by rw [hkind]; rfl)
  rw [hcs] at hread
  rcases hc with rfl | hc
  · rw [reading_quote] at hread
    obtain ⟨_, -, hstring, -⟩ := Quotation.finding_eq_token_iff.1 (congrArg Reading.finding hread)
    rw [hkind] at hstring
    cases hstring
  rw [reading_digit hc] at hread
  injection hread with hcut hfound
  obtain ⟨shape, literal, hshape, hvalue, hnumber, hliteral⟩ := Numeral.finding_eq_token_iff.1 hfound
  obtain ⟨f, rest, hf⟩ := NumeralForm.exists_longestIn hc cs
  -- A numeral with a shape is taken alone.
  obtain ⟨-, -, he⟩ := hf.cutNumeral_cases.resolve_right (by
    rintro ⟨defect, herror, -⟩
    cases hshape.symm.trans herror)
  rw [he] at hcut hshape hvalue
  obtain rfl : f.shape = shape := Except.ok.inj hshape
  have htext : f.text = c :: cs := congrArg Cut.taken hcut
  have hshapeKind : f.shape.kind = kind := by
    rw [hkind] at hnumber
    exact (Kind.number.inj hnumber).symm
  refine ⟨f, literal, hcs.trans htext.symm, hshapeKind, hliteral,
    hshapeKind ▸ kind_of_numeralValue hvalue, ?_⟩
  rcases lt_or_ge f.value f.shape.kind.bound with hlt | hge
  · obtain ⟨other, hother, hdenotes⟩ := f.numeralValue_of_lt hlt
    cases hother.symm.trans hvalue
    exact hdenotes
  · cases (f.numeralValue_of_le hge).symm.trans hvalue

/-- The reason for being out of range is given for this defect alone. -/
theorem NumeralDefect.eq_outOfRange {defect : NumeralDefect}
    (h : defect.reason = (outOfRange kind).reason) : defect = .outOfRange kind := by
  rcases defect with _ | _ | _ | (_ | _ | _ | _)
  all_goals
    cases kind <;> first | rfl | exact absurd h (by decide)

/-- A numeral that is reported as out of range of its kind is a form of this kind that is taken alone, and
its value is out of range. -/
theorem exists_form_of_outOfRange (kind : NumericKind) {cs : List Char} {reported : String}
    (h : (reading cs).finding =
      .fault (.malformedNumeral reported (NumeralDefect.outOfRange kind).reason)) :
    ∃ (f : NumeralForm) (rest : List Char), f.LongestIn cs rest ∧ ¬ f.MissesDigits rest ∧
      startsFraction rest = false ∧ f.shape.HasKind kind ∧ kind.bound ≤ f.value := by
  obtain ⟨c, cs, rfl⟩ : ∃ c r, cs = c :: r := by
    cases cs with
    | nil => cases h
    | cons c r => exact ⟨c, r, rfl⟩
  obtain ⟨hc, hfault⟩ : c.isDigit = true ∧ (cutNumeral (c :: cs)).finding =
      .fault (.malformedNumeral reported (NumeralDefect.outOfRange kind).reason) := by
    rcases reading_fault_cases h with ⟨-, hcause⟩ | hnumeral | ⟨-, -, -, -, -, hcause⟩
    · cases hcause
    · exact hnumeral
    · cases hcause
  obtain ⟨defect, hvalue, hcause⟩ := Numeral.finding_eq_fault_iff.1 hfault
  obtain rfl := NumeralDefect.eq_outOfRange (FaultCause.malformedNumeral.inj hcause).2.symm
  obtain ⟨f, rest, hf⟩ := NumeralForm.exists_longestIn hc cs
  obtain ⟨hd, hp, he⟩ := hf.cutNumeral_cases.resolve_right (by
    rintro ⟨defect, herror, hne⟩
    rw [Numeral.value, herror] at hvalue
    exact hne kind (Except.error.inj hvalue))
  rw [he] at hvalue
  rcases lt_or_ge f.value f.shape.kind.bound with hlt | hge
  · obtain ⟨literal, hliteral, -⟩ := f.numeralValue_of_lt hlt
    cases hliteral.symm.trans hvalue
  · cases (f.numeralValue_of_le hge).symm.trans hvalue
    exact ⟨f, rest, hf, hd, hp, NumeralShape.hasKind_iff.2 rfl, hge⟩

end

/-! ## Numerals follow the grammar and the table -/

/-- Where a token starts with a digit, there is one longest form of the grammar at the front of the text.
If it has neither exponent nor suffix and the letter of an exponent follows, it is malformed up to behind
this letter and its sign. If a point and a digit follow, it is malformed up to the end of all digits and
points. Otherwise the form alone is taken. Its kind is the one that the table has for its shape, and it is
a token of this kind whose literal denotes its value, unless that is out of range. -/
theorem nextToken_numeral (l : Lexer) (gap r : List Char)
    (hr : ∃ c cs, r = c :: cs ∧ c.isDigit = true) (h : l.StartsAt gap r) :
    ∃ (f : NumeralForm) (rest : List Char), f.LongestIn r rest ∧
      (∀ g more, g.LongestIn r more → g = f ∧ more = rest) ∧
      (f.MissesDigits rest →
        l.Finds gap (f.text ++ bareExponent rest)
          (.fault (.malformedNumeral (String.ofList (f.text ++ bareExponent rest))
            "exponent has no digits"))) ∧
      (¬ f.MissesDigits rest → startsFraction rest = true →
        let taken := f.text ++ rest.takeWhile fun c => c.isDigit || c == '.'
        l.Finds gap taken (.fault (.malformedNumeral (String.ofList taken)
          (if f.fraction.isSome ∧ f.exponent = none ∧ f.suffix = none then "more than one decimal point"
            else "unexpected '.' after numeric literal")))) ∧
      (¬ f.MissesDigits rest → startsFraction rest = false →
        ∃ kind, f.shape.HasKind kind ∧ (∀ other, f.shape.HasKind other → other = kind) ∧
          (f.value < kind.bound → ∃ literal : Literal, literal.kind = .number kind ∧
            literal.Denotes f.value ∧ l.Finds gap f.text (.token (.number kind) (some literal))) ∧
          (kind.bound ≤ f.value → l.Finds gap f.text
            (.fault (.malformedNumeral (String.ofList f.text) (NumeralDefect.outOfRange kind).reason)))) := by
  obtain ⟨c, cs, rfl, hc⟩ := hr
  obtain ⟨f, rest, hf⟩ := NumeralForm.exists_longestIn hc cs
  refine ⟨f, rest, hf, fun g more hg => hg.unique hf, fun hd => ?_, fun hd hp => ?_, fun hd hp => ?_⟩
  · obtain ⟨back, hcut⟩ := hf.cutNumeral_of_missesDigits hd
    exact h.finds_cutNumeral hf hcut
  · have hfinds := h.finds_cutNumeral hf (hf.cutNumeral_of_startsFraction hd hp)
    have hreason : (if f.fraction.isSome ∧ f.exponent = none ∧ f.suffix = none
        then NumeralDefect.secondPoint else .trailingPoint).reason =
        if f.fraction.isSome ∧ f.exponent = none ∧ f.suffix = none then "more than one decimal point"
        else "unexpected '.' after numeric literal" := apply_ite _ _ _ _
    rw [← hreason]
    exact hfinds
  · have hkind : f.shape.HasKind f.shape.kind := NumeralShape.hasKind_iff.2 rfl
    exact ⟨f.shape.kind, hkind, fun other hother => (NumeralShape.hasKind_iff.1 hother).symm,
      h.finds_number hf hd hp hkind, (h.finds_outOfRange_iff hf hd hp hkind).2⟩

/-- A float behind which a point without digits stands, and the letter of an exponent with nothing but a
sign. -/
theorem nextToken_numeral_exponents :
    (∃ literal : Literal, literal.kind = .number .float ∧ literal.Denotes 1500 ∧
      (Lexer.ofSource "1.5D+3!.x").Finds [] "1.5D+3!".toList
        (.token (.number .float) (some literal))) ∧
      (Lexer.ofSource "12e+x").Finds [] "12e+".toList
        (.fault (.malformedNumeral "12e+" "exponent has no digits")) := by
  constructor
  · obtain ⟨f, rest, hf, hunique, -, -, hnumber⟩ := nextToken_numeral (Lexer.ofSource "1.5D+3!.x") []
      "1.5D+3!.x".toList ⟨'1', _, rfl, rfl⟩ ⟨rfl, .nil _⟩
    let g : NumeralForm := ⟨⟨['1'], nofun, by simp⟩, some ⟨['5'], nofun, by simp⟩,
      some ⟨.double, true, some .plus, ⟨['3'], nofun, by simp⟩⟩, some .float⟩
    have hparts : g.PartsIn "1.5D+3!.x".toList := ⟨rfl, rfl, rfl, rfl, rfl⟩
    have hdecimal : g.decimal = ⟨15, 2⟩ := rfl
    have hvalue : g.value = 1500 := by
      rw [← g.value_decimal, hdecimal, Decimal.value]
      norm_num
    obtain ⟨rfl, rfl⟩ := hunique g _ hparts.longestIn
    obtain ⟨kind, -, hkind, hlt, -⟩ := hnumber (fun hd => by cases hd.1) rfl
    obtain rfl := hkind .float .floatSuffix
    rw [hvalue] at hlt
    exact hlt (by norm_num [NumericKind.bound])
  · obtain ⟨f, rest, hf, -, hmissing, -, -⟩ := nextToken_numeral (Lexer.ofSource "12e+x") []
      "12e+x".toList ⟨'1', _, rfl, rfl⟩ ⟨rfl, .nil _⟩
    obtain ⟨htext, rfl, he, hs⟩ := hf.of_bare rfl
    have hfinds := hmissing ⟨he, hs, 'e', rfl, by decide⟩
    rw [htext] at hfinds
    exact hfinds

/-! ## Floating point literals are rounded once -/

/-- The literal of a float or a double token is the value of its own format that is nearest to the number
its text denotes. A float is out of range from `2 ^ 128 - 2 ^ 103` on, a double from
`2 ^ 1024 - 2 ^ 970` on, and there are no others. -/
theorem nextToken_rounded :
    (∀ t : Token, t.Scanned → t.kind = .number .float →
      ∃ (f : NumeralForm) (x : Binary32), t.text.toList = f.text ∧ t.literal = some (.float x) ∧
        x.IsNearest f.value) ∧
    (∀ t : Token, t.Scanned → t.kind = .number .double →
      ∃ (f : NumeralForm) (x : Binary64), t.text.toList = f.text ∧ t.literal = some (.double x) ∧
        x.IsNearest f.value) ∧
    ∀ (l : Lexer) (gap r rest : List Char) (f : NumeralForm), l.StartsAt gap r → f.LongestIn r rest →
      ¬ f.MissesDigits rest → startsFraction rest = false →
      (f.shape.HasKind .float →
        (l.Finds gap f.text (.fault (.malformedNumeral (String.ofList f.text)
          "float literal is not finite")) ↔ 2 ^ 128 - 2 ^ 103 ≤ f.value) ∧
        (f.value < 2 ^ 128 - 2 ^ 103 → ∃ x : Binary32, x.IsNearest f.value ∧
          l.Finds gap f.text (.token (.number .float) (some (.float x))))) ∧
      (f.shape.HasKind .double →
        (l.Finds gap f.text (.fault (.malformedNumeral (String.ofList f.text)
          "double literal is not finite")) ↔ 2 ^ 1024 - 2 ^ 970 ≤ f.value) ∧
        (f.value < 2 ^ 1024 - 2 ^ 970 → ∃ x : Binary64, x.IsNearest f.value ∧
          l.Finds gap f.text (.token (.number .double) (some (.double x))))) := by
  refine ⟨fun t ht hkind => ?_, fun t ht hkind => ?_, fun l gap r rest f h hf hd hp => ⟨fun hkind => ?_,
    fun hkind => ?_⟩⟩
  · obtain ⟨f, literal, htext, -, hliteral, hlkind, hdenotes⟩ := ht.exists_numeralForm hkind
    obtain ⟨x, rfl, hnearest⟩ := hdenotes.exists_float hlkind
    exact ⟨f, x, htext, hliteral, hnearest⟩
  · obtain ⟨f, literal, htext, -, hliteral, hlkind, hdenotes⟩ := ht.exists_numeralForm hkind
    obtain ⟨x, rfl, hnearest⟩ := hdenotes.exists_double hlkind
    exact ⟨f, x, htext, hliteral, hnearest⟩
  · refine ⟨h.finds_outOfRange_iff hf hd hp hkind, fun hlt => ?_⟩
    obtain ⟨literal, hlkind, hdenotes, hfinds⟩ := h.finds_number hf hd hp hkind hlt
    obtain ⟨x, rfl, hnearest⟩ := hdenotes.exists_float hlkind
    exact ⟨x, hnearest, hfinds⟩
  · refine ⟨h.finds_outOfRange_iff hf hd hp hkind, fun hlt => ?_⟩
    obtain ⟨literal, hlkind, hdenotes, hfinds⟩ := h.finds_number hf hd hp hkind hlt
    obtain ⟨x, rfl, hnearest⟩ := hdenotes.exists_double hlkind
    exact ⟨x, hnearest, hfinds⟩

/-- A float is read halfway between two values, and none is at the middle behind the largest one. -/
theorem nextToken_rounded_middles :
    (∃ x : Binary32, x.IsNearest 16777217 ∧
      (Lexer.ofSource "16777217!").Finds [] "16777217!".toList
        (.token (.number .float) (some (.float x)))) ∧
      (∃ t : Token, t.Scanned ∧ t.kind = .number .float ∧
        ∃ (f : NumeralForm) (x : Binary32), t.text.toList = f.text ∧ t.literal = some (.float x) ∧
          x.IsNearest f.value) ∧
      (Lexer.ofSource "340282356779733661637539395458142568448!").Finds []
        "340282356779733661637539395458142568448!".toList
        (.fault (.malformedNumeral "340282356779733661637539395458142568448!"
          "float literal is not finite")) := by
  obtain ⟨hfloats, -, hforms⟩ := nextToken_rounded
  let g : NumeralForm := ⟨⟨"16777217".toList, by simp, List.all_eq_true.1 rfl⟩, none, none, some .float⟩
  have hg : g.PartsIn "16777217!".toList := ⟨rfl, rfl, rfl, rfl, rfl⟩
  have hgdecimal : g.decimal = ⟨16777217, 0⟩ := rfl
  have hgvalue : g.value = 16777217 := by
    rw [← g.value_decimal, hgdecimal, Decimal.value]
    norm_num
  obtain ⟨-, htoken⟩ := (hforms (Lexer.ofSource "16777217!") [] _ _ g ⟨rfl, .nil _⟩ hg.longestIn
    (fun hd => by cases hd.2.1) rfl).1 .floatSuffix
  rw [hgvalue] at htoken
  obtain ⟨x, hx, hfinds⟩ := htoken (by norm_num)
  refine ⟨⟨x, hx, hfinds⟩, ⟨_, .call hfinds.item, rfl, hfloats _ (.call hfinds.item) rfl⟩, ?_⟩
  let m : NumeralForm := ⟨⟨"340282356779733661637539395458142568448".toList, by simp,
    List.all_eq_true.1 rfl⟩, none, none, some .float⟩
  have hm : m.PartsIn "340282356779733661637539395458142568448!".toList := ⟨rfl, rfl, rfl, rfl, rfl⟩
  have hmdecimal : m.decimal = ⟨340282356779733661637539395458142568448, 0⟩ := rfl
  have hmvalue : m.value = 340282356779733661637539395458142568448 := by
    rw [← m.value_decimal, hmdecimal, Decimal.value]
    norm_num
  obtain ⟨hfault, -⟩ := (hforms (Lexer.ofSource "340282356779733661637539395458142568448!") [] _ _ m
    ⟨rfl, .nil _⟩ hm.longestIn (fun hd => by cases hd.2.1) rfl).1 .floatSuffix
  rw [hmvalue] at hfault
  exact hfault.2 (by norm_num)

end BrightLexer
