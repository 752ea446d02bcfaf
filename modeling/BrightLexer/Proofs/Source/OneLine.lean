import BrightLexer.Proofs.Source.LineEnds

/-!
# Texts of one line

A text without a line end is one line, and joined texts are one line if each of them is. Lines that are
each written with a line end are found again as the lines of the whole text, with an empty one behind the
last line end (`splitLines_join`).
-/

namespace BrightLexer

/-- A text without a line end. -/
def OneLine (s : String) : Prop := '\n' ∉ s.toList

instance (s : String) : Decidable (OneLine s) := inferInstanceAs (Decidable (_ ∉ _))

section
variable {s t : String} {cs : List Char}

/-- Two texts one after the other are on one line if both are. -/
theorem oneLine_append : OneLine (s ++ t) ↔ OneLine s ∧ OneLine t := by
  rw [OneLine, String.toList_append, List.mem_append, not_or, OneLine, OneLine]

/-- A text is on one line if no newline is among its characters. -/
theorem oneLine_ofList : OneLine (String.ofList cs) ↔ '\n' ∉ cs := by
  rw [OneLine, String.toList_ofList]

/-! ## Numbers -/

/-- No digit of a number is a newline. -/
theorem newline_not_mem_toDigits {b : Nat} (hb : 1 < b) (hb' : b ≤ 16) (n : Nat) :
    '\n' ∉ Nat.toDigits b n := by
  have hdigit : ∀ d < 16, '\n' ∉ [Nat.digitChar d] := by decide
  induction n using Nat.strongRecOn with
  | ind n ih =>
    rw [Nat.toDigits_eq_if hb]
    split
    · exact hdigit n (by omega)
    · next hn =>
      have hless : n / b < n := Nat.div_lt_self (by omega) hb
      have hmod : n % b < 16 := Nat.lt_of_lt_of_le (Nat.mod_lt n (by omega)) hb'
      rw [List.mem_append, not_or]
      exact ⟨ih _ hless, hdigit _ hmod⟩

/-- A natural number is shown on one line. -/
theorem oneLine_nat (n : Nat) : OneLine (toString n) := by
  rw [Nat.toString_eq_ofList_toDigits, oneLine_ofList]
  exact newline_not_mem_toDigits (by decide) (by decide) n

/-- An integer is shown on one line. -/
theorem oneLine_int (i : Int) : OneLine (toString i) := by
  cases i with
  | ofNat n => exact oneLine_nat n
  | negSucc n => exact oneLine_append.2 ⟨by decide, oneLine_nat (n + 1)⟩

/-! ## Lines that are written one after the other -/

/-- Texts of one line each, with a newline behind each of them, are split into these lines and an empty one.
-/
theorem splitLines_join {lines : List String} (h : ∀ s ∈ lines, OneLine s) :
    splitLines (String.join (lines.map (· ++ "\n"))).toList = lines.map String.toList ++ [[]] := by
  induction lines with
  | nil => rfl
  | cons line lines ih =>
    obtain ⟨hline, hlines⟩ := List.forall_mem_cons.1 h
    rw [List.map_cons, String.join_cons, String.toList_append, String.toList_append, List.append_assoc]
    exact (splitLines_line hline _).trans (congrArg (line.toList :: ·) (ih hlines))

end

end BrightLexer
