import BrightLexer.Source.Lines
import BrightLexer.Source.Position
import Mathlib.Data.List.DropRight

/-!
# Lines and columns of a text

A position counts lines and columns as it moves; here they are given by the text before it. Behind a
text the line is one more than the newlines in it (`Position.line_origin_after`), and the column one
more than the characters behind the last of them (`Position.column_origin_after`). `splitLines`
agrees with that count: the line that a position is on is what stands before it behind the last
newline, and what stands behind it before the next one (`getElem?_splitLines`).
-/

namespace BrightLexer

/-- The characters of a text behind its last newline, or all of them if it has none. -/
def lastLine (cs : List Char) : List Char := cs.rtakeWhile (· != '\n')

/-- The characters of a text before its first newline, or all of them if it has none. -/
def firstLine (cs : List Char) : List Char := cs.takeWhile (· != '\n')

section
variable {cs : List Char} {c : Char}

/-- A character that is no newline goes on the last line. -/
theorem lastLine_append_of_ne (h : c ≠ '\n') (cs : List Char) :
    lastLine (cs ++ [c]) = lastLine cs ++ [c] :=
  List.rtakeWhile_concat_pos _ _ _ (bne_iff_ne.2 h)

/-- Behind a newline the last line is empty. -/
theorem lastLine_append_newline (cs : List Char) : lastLine (cs ++ ['\n']) = [] :=
  List.rtakeWhile_concat_neg _ _ _ (by simp)

/-- A character that is no newline goes on the first line. -/
theorem firstLine_cons_of_ne (h : c ≠ '\n') (cs : List Char) :
    firstLine (c :: cs) = c :: firstLine cs :=
  List.takeWhile_cons_of_pos (bne_iff_ne.2 h)

/-- Before a newline the first line is empty. -/
theorem firstLine_newline (cs : List Char) : firstLine ('\n' :: cs) = [] :=
  List.takeWhile_cons_of_neg (by simp)

/-- A text of one line goes on in the first line of what stands behind it. -/
theorem firstLine_append_of_not_mem {a : List Char} (ha : '\n' ∉ a) (b : List Char) :
    firstLine (a ++ b) = a ++ firstLine b := by
  refine List.takeWhile_append_of_pos fun c hc => bne_iff_ne.2 ?_
  rintro rfl
  exact ha hc

/-- A line goes up to the next newline. -/
theorem firstLine_append {a b : List Char} (ha : '\n' ∉ a) (hb : ∀ c r, b = c :: r → c = '\n') :
    firstLine (a ++ b) = a := by
  have hnil : firstLine b = [] := by
    cases b with
    | nil => rfl
    | cons c r => rw [hb c r rfl, firstLine_newline]
  rw [firstLine_append_of_not_mem ha, hnil, List.append_nil]

/-- A text without a newline is its first line. -/
theorem firstLine_eq_self (h : '\n' ∉ cs) : firstLine cs = cs := by
  have hcs := firstLine_append h (b := []) nofun
  rwa [List.append_nil] at hcs

/-! ## The counts of a position -/

namespace Position

/-- Behind a text, as many lines have ended as there are newlines in it. -/
theorem line_after (p : Position) (cs : List Char) :
    (p.after cs).line = p.line + cs.count '\n' := by
  induction cs generalizing p with
  | nil => rfl
  | cons c cs ih =>
    rw [after_cons, ih]
    unfold next
    split
    · next h =>
      rw [h, List.count_cons_self]
      show p.line + 1 + _ = _
      omega
    · next h => rw [List.count_cons_of_ne h]

/-- The line is the number of newlines before, counted from 1. -/
theorem line_origin_after (cs : List Char) : (origin.after cs).line = 1 + cs.count '\n' :=
  line_after origin cs

/-- The column is the number of characters on the last line, counted from 1. -/
theorem column_origin_after (cs : List Char) :
    (origin.after cs).column = 1 + (lastLine cs).length := by
  induction cs using List.reverseRecOn with
  | nil => rfl
  | append_singleton cs c ih =>
    rw [after_append, after_cons, after_nil, next]
    split
    · next hc => rw [hc, lastLine_append_newline]; rfl
    · next hc =>
      rw [lastLine_append_of_ne hc, List.length_append, List.length_singleton, ← Nat.add_assoc,
        ← ih]

/-- The offset is the number of bytes before. -/
theorem offset_origin_after (cs : List Char) : (origin.after cs).offset = byteLength cs := by
  rw [offset_after, origin, Nat.zero_add]

end Position

/-! ## The lines of a text -/

/-- A character that is no newline goes on the first of the lines. -/
theorem splitLines_cons_of_ne (h : c ≠ '\n') (cs : List Char) :
    ∃ line lines, splitLines cs = line :: lines ∧ splitLines (c :: cs) = (c :: line) :: lines := by
  cases hs : splitLines cs with
  | nil => exact absurd hs (splitLines_ne_nil cs)
  | cons line lines => exact ⟨line, lines, rfl, by rw [splitLines, if_neg h, hs]⟩

/-- A newline ends a line and starts the next one. -/
theorem splitLines_append_newline (a b : List Char) :
    splitLines (a ++ '\n' :: b) = splitLines a ++ splitLines b := by
  induction a with
  | nil => rfl
  | cons c a ih =>
    by_cases hc : c = '\n'
    · rw [hc, List.cons_append, splitLines, if_pos rfl, ih, splitLines, if_pos rfl,
        List.cons_append]
    · obtain ⟨line, lines, hl, ha⟩ := splitLines_cons_of_ne hc a
      rw [hl, List.cons_append] at ih
      rw [List.cons_append, ha, splitLines, if_neg hc, ih, List.cons_append]

/-- The first of the lines of a text is its first line. -/
theorem head?_splitLines (cs : List Char) : (splitLines cs)[0]? = some (firstLine cs) := by
  induction cs with
  | nil => rfl
  | cons c cs ih =>
    by_cases hc : c = '\n'
    · rw [hc, firstLine_newline]
      rfl
    · obtain ⟨line, lines, hl, hs⟩ := splitLines_cons_of_ne hc cs
      rw [hl] at ih
      rw [hs, firstLine_cons_of_ne hc, ← Option.some_inj.1 ih]
      rfl

/-- The line behind a text: it goes on what that text ends with. -/
theorem getElem?_splitLines (a b : List Char) :
    (splitLines (a ++ b))[a.count '\n']? = some (lastLine a ++ firstLine b) := by
  induction a using List.reverseRecOn generalizing b with
  | nil => exact head?_splitLines b
  | append_singleton a c ih =>
    rw [List.append_assoc, List.singleton_append, List.count_append]
    by_cases hc : c = '\n'
    · rw [hc, splitLines_append_newline, lastLine_append_newline,
        List.getElem?_append_right (by rw [length_splitLines]; simp), length_splitLines]
      simpa using head?_splitLines b
    · rw [lastLine_append_of_ne hc, List.count_singleton, if_neg (by simpa using hc), Nat.add_zero,
        ih, firstLine_cons_of_ne hc, List.append_assoc, List.singleton_append]

end

end BrightLexer
