import BrightLexer.Proofs.Number.SignedNumeral
import BrightLexer.Token.Dump

/-!
# Both dumps show the same number

A single precision value is dumped as text in its shortest decimal. In JSON it is first read from that in
double precision, and then written in the shortest decimal there, with another `Tie` and another style.
`float_dumped_alike` says that the numeral which comes out denotes the same number all the same, and so is
read back as the value that was dumped.

Neither numeral says how many digits the other has: what carries the statement is that both are shortest
decimals (`Decimal.IsShortest.value_eq`).
-/

namespace BrightLexer

variable {v : Binary32} {x : Binary64}

/-- A finite value is shown as a signed numeral that denotes its shortest decimal. -/
theorem Binary.exists_shown {F : Format} (hF : F.Moderate) {x : Binary F} (hx : x.isFinite = true) :
    ∃ n : SignedNumeral, n.text = x.shown.toList ∧ n.negative = x.negative ∧
      n.numeral.value = (shortest F shownNumber.tie x.magnitude).value := by
  have hnumber : x.isNaN = false :=
    decide_eq_false (Nat.not_lt_of_lt (of_decide_eq_true hx))
  have hshown : x.shown = String.ofList (shownNumber.writeBinary x) := by
    rw [shown, hnumber, if_neg Bool.false_ne_true, if_pos hx]
  rw [hshown, String.toList_ofList]
  exact shownNumber.exists_signedNumeral hF hx

/-- So is a real in JSON. -/
theorem Json.exists_real (hx : x.isFinite = true) :
    ∃ n : SignedNumeral, (∀ layout depth, ((Json.real x).write layout depth).toList = n.text) ∧
      n.negative = x.negative ∧
      n.numeral.value = (shortest binary64 jsonNumber.tie x.magnitude).value := by
  obtain ⟨n, htext, hnegative, hvalue⟩ := jsonNumber.exists_signedNumeral Format.moderate_binary64 hx
  refine ⟨n, fun layout depth => ?_, hnegative, hvalue⟩
  rw [Json.write, if_pos hx, String.toList_ofList, htext]

/-- In JSON, a single precision value is the double precision value that is read from how it is shown. -/
theorem Literal.exists_json_float (hv : v.isFinite = true) :
    ∃ x : Binary64, readBinary? binary64 v.shown.toList = some x ∧ (Literal.float v).json = .real x ∧
      x.negative = v.negative ∧ x.isFinite = true ∧
      (shortest binary64 jsonNumber.tie x.magnitude).value =
        (shortest binary32 shownNumber.tie v.magnitude).value := by
  obtain ⟨n, htext, hnegative, hvalue⟩ := Binary.exists_shown Format.moderate_binary32 hv
  obtain ⟨x, hx, hsign, hfinite, hsame⟩ := Binary.exists_widened hv shownNumber.tie jsonNumber.tie
  have hread : readBinary? binary64 v.shown.toList = some x := by
    rw [← htext, n.readBinary?_text Format.regular_binary64 hvalue.symm, hnegative, hx]
  refine ⟨x, hread, ?_, hsign, hfinite, hsame⟩
  rw [json, hread]
  rfl

/-- A single precision value is shown as the same number in both dumps. For every finite value, what is
shown as text and what is written in JSON are numerals with the sign of the value that denote the same
number. That number rounds to the value in single precision, and reading the numeral in JSON there gives
back the value, bit for bit. -/
theorem float_dumped_alike (v : Binary32) (hv : v.isFinite = true) :
    ∃ shown json : SignedNumeral,
      (Literal.float v).shown.toList = shown.text ∧
      (∀ layout depth, ((Literal.float v).json.write layout depth).toList = json.text) ∧
      shown.negative = v.negative ∧ json.negative = v.negative ∧ json.value = shown.value ∧
      binary32.Rounds v.magnitude |json.value| ∧ readBinary? binary32 json.text = some v := by
  obtain ⟨shown, hshown, hnegative, hvalue⟩ := Binary.exists_shown Format.moderate_binary32 hv
  obtain ⟨x, -, hjson, hsign, hfinite, hsame⟩ := Literal.exists_json_float hv
  obtain ⟨json, htext, hjsonNegative, hjsonValue⟩ := Json.exists_real hfinite
  have hsigns : json.negative = v.negative := hjsonNegative.trans hsign
  have hnumerals : json.numeral.value = (shortest binary32 shownNumber.tie v.magnitude).value :=
    hjsonValue.trans hsame
  refine ⟨shown, json, hshown.symm, ?_, hnegative, hsigns, ?_, ?_, ?_⟩
  · rw [hjson]
    exact htext
  · rw [SignedNumeral.value, SignedNumeral.value, hsigns, hnegative, hnumerals, hvalue]
  · rw [json.abs_value, hnumerals]
    exact Binary.rounds_shortest Format.moderate_binary32 hv shownNumber.tie
  · rw [json.readBinary?_text Format.regular_binary32 hnumerals.symm, hsigns]
    exact Binary.ofDecimal?_shortest Format.moderate_binary32 hv rfl

/-- The value nearest to the twentieth power of ten: it is shown with all of its digits as text, and with an
exponent in JSON. -/
theorem float_dumped_alike_large :
    let v : Binary32 := .ofBits 0x60ad78ec
    v.isFinite = true ∧ (Literal.float v).shown = "100000000000000000000" ∧
      (Literal.float v).json.write .compact 0 = "1e+20" ∧
      (∃ json : SignedNumeral, json.text = "1e+20".toList ∧ binary32.Rounds v.magnitude |json.value|) ∧
      readBinary? binary32 "1e+20".toList = some v := by
  intro v
  have hfinite : v.isFinite = true := by decide +kernel
  have hshown : (Literal.float v).shown = "100000000000000000000" := by decide +kernel
  have hjson : (Literal.float v).json.write .compact 0 = "1e+20" := by decide +kernel
  obtain ⟨-, json, -, htext, -, -, -, hrounds, hread⟩ := float_dumped_alike v hfinite
  have hsame : json.text = "1e+20".toList := by rw [← htext .compact 0, hjson]
  exact ⟨hfinite, hshown, hjson, ⟨json, hsame, hrounds⟩, hsame ▸ hread⟩

end BrightLexer
