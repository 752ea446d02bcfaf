import BrightLexer.Text.CharClass
import BrightLexer.Text.Cut

/-!
# Words

A word is a run of letters, digits and underscores, with at most one type designator behind it. A
word with a designator is always a name; one without may be a reserved word.
-/

namespace BrightLexer

/-- A word at the front of a text. -/
structure Word extends Cut where
  /-- Whether it ends in a type designator. -/
  designated : Bool
deriving DecidableEq

/-- Cuts a word off the front of a text. The run of word characters may be empty. -/
def cutWord (cs : List Char) : Word :=
  let run := cutWhile isWordChar cs
  match run.rest with
  | [] => ⟨run, false⟩
  | c :: rest => if isDesignator c then ⟨⟨run.taken ++ [c], rest⟩, true⟩ else ⟨run, false⟩

/-- Cutting a word loses no character. -/
@[simp] theorem whole_cutWord (cs : List Char) : (cutWord cs).whole = cs := by
  have h := whole_cutWhile isWordChar cs
  unfold cutWord
  dsimp only
  split
  · exact h
  · next c rest hr =>
    split
    · simpa [Cut.whole, hr] using h
    · exact h

/-- A word that starts with a word character takes it. -/
theorem taken_cutWord_ne_nil {c : Char} (cs : List Char) (h : isWordChar c = true) :
    (cutWord (c :: cs)).taken ≠ [] := by
  have hr : (cutWhile isWordChar (c :: cs)).taken ≠ [] := by simp [cutWhile, h]
  unfold cutWord
  dsimp only
  split
  · exact hr
  · split
    · simp
    · exact hr

end BrightLexer
