import BrightLexer.Proofs.Source.OneLine
import BrightLexer.Token.Dump

/-!
# A dumped token is one line

A token may stand over several lines of a source text, but it is dumped on one. `oneLine_dumpLine` says
so: a line end in its text is escaped, and neither a place, nor the name of a kind, nor a value as it
is shown has one. So the lines of a dump are as many as the tokens.
-/

namespace BrightLexer

/-! ## Numbers -/

/-- The digits of a number hold no newline. -/
theorem newline_not_mem_digitsOf (n : Nat) : '\n' ∉ digitsOf n :=
  newline_not_mem_toDigits (by decide) (by decide) n

/-- A number written out holds no newline if its digits hold none. -/
theorem newline_not_mem_positional {digits : List Char} (h : '\n' ∉ digits) (pointZero : Bool)
    (exponent : Int) : '\n' ∉ positional pointZero digits exponent := by
  have htake : ∀ n, '\n' ∉ digits.take n := fun n hn => h (List.mem_of_mem_take hn)
  have hdrop : ∀ n, '\n' ∉ digits.drop n := fun n hn => h (List.mem_of_mem_drop hn)
  unfold positional
  split
  · cases pointZero with
    | true => simp [h]
    | false => simp [h]
  · dsimp only
    split
    · simp [htake, hdrop]
    · simp [h]

/-- A number written with an exponent holds no newline if its digits hold none. -/
theorem newline_not_mem_scientific {digits : List Char} (h : '\n' ∉ digits) (leading : Int) :
    '\n' ∉ scientific digits leading := by
  have htake : '\n' ∉ digits.take 1 := fun hn => h (List.mem_of_mem_take hn)
  have htail : '\n' ∉ digits.tail := fun hn => h (List.mem_of_mem_tail hn)
  have hsign : '\n' ≠ if leading < 0 then '-' else '+' := by
    split
    all_goals decide
  unfold scientific
  cases hds : digits.tail with
  | nil => simp [htake, hsign, newline_not_mem_digitsOf]
  | cons d ds =>
    rw [hds] at htail
    simp [htake, hsign, newline_not_mem_digitsOf, List.ne_and_not_mem_of_not_mem_cons htail]

/-- A binary number is written without a newline in any style. -/
theorem newline_not_mem_writeBinary (style : NumberStyle) {F : Format} (x : Binary F) :
    '\n' ∉ style.writeBinary x := by
  have hwrite : ∀ d, '\n' ∉ style.write d := by
    intro d
    unfold NumberStyle.write
    dsimp only
    split
    · exact newline_not_mem_positional (newline_not_mem_digitsOf _) _ _
    · exact newline_not_mem_scientific (newline_not_mem_digitsOf _) _
  rw [NumberStyle.writeBinary, List.mem_append, not_or]
  refine ⟨?_, hwrite _⟩
  split
  all_goals decide

/-- A binary number is shown on one line. -/
theorem oneLine_shown_binary {F : Format} (x : Binary F) : OneLine x.shown := by
  unfold Binary.shown
  split
  · decide
  · split
    · exact oneLine_ofList.2 (newline_not_mem_writeBinary _ _)
    · split
      all_goals decide

/-! ## Texts -/

/-- A text in quotes has its newlines escaped. -/
theorem newline_not_mem_quoted (cs : List Char) : '\n' ∉ quoted cs := by
  have hescape : ∀ c, '\n' ∉ escapeChar c := by
    intro c
    unfold escapeChar
    split
    · decide
    split
    · decide
    split
    · decide
    split
    · decide
    next hn =>
    split
    · next hq =>
      rcases hq with rfl | rfl
      all_goals decide
    split
    · have hdigits : '\n' ∉ hexDigits c.toNat :=
        newline_not_mem_toDigits (by decide) (by decide) _
      simp [hdigits]
    · exact fun h => hn (List.mem_singleton.1 h).symm
  simp [quoted, hescape]

/-- A text that is put on one line holds no newline. -/
theorem newline_not_mem_onOneLine (cs : List Char) : '\n' ∉ onOneLine cs := by
  rw [onOneLine, List.mem_flatMap]
  rintro ⟨c, -, hc⟩
  split at hc
  · revert hc
    decide
  · next hne => exact hne (List.mem_singleton.1 hc).symm

/-! ## Tokens -/

/-- A literal is shown on one line. -/
theorem oneLine_shown (l : Literal) : OneLine l.shown := by
  cases l with
  | string text => exact oneLine_ofList.2 (newline_not_mem_quoted _)
  | integer v => exact oneLine_int _
  | longInteger v => exact oneLine_int _
  | float v => exact oneLine_shown_binary v
  | double v => exact oneLine_shown_binary v

/-- The name of a kind is one line. -/
theorem oneLine_name (k : Kind) : OneLine k.name := by
  have key : ∀ k ∈ Kind.all, OneLine k.name := by decide +kernel
  exact key k (Kind.mem_all k)

/-- A token is dumped without a line end, wherever it stands and whatever its text. -/
theorem oneLine_dumpLine (t : Token) : OneLine t.dumpLine := by
  have htext := oneLine_ofList.2 (newline_not_mem_onOneLine t.text.toList)
  have hplace : OneLine s!"{t.line}:{t.column}" :=
    oneLine_append.2 ⟨oneLine_append.2 ⟨oneLine_nat _, by decide⟩, oneLine_nat _⟩
  have hblank : OneLine " " := by decide
  unfold Token.dumpLine
  refine oneLine_append.2 ⟨oneLine_append.2 ⟨oneLine_append.2 ⟨oneLine_append.2
    ⟨oneLine_append.2 ⟨hplace, hblank⟩, oneLine_name t.kind⟩, hblank⟩, htext⟩, ?_⟩
  cases t.literal with
  | some literal => exact oneLine_append.2 ⟨by decide, oneLine_shown literal⟩
  | none => decide

end BrightLexer
