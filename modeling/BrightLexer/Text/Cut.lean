/-!
# A text cut in two

A reader takes a part from the front of a text and leaves the rest. `Cut` is that pair, and
`Cut.whole` the text it came from; `cutWhile` takes the longest front part whose characters all pass
a test.
-/

namespace BrightLexer

/-- The front part of a text, and what follows it. -/
structure Cut where
  /-- What was taken from the front. -/
  taken : List Char
  /-- What follows. -/
  rest : List Char
deriving DecidableEq

namespace Cut

/-- The text that was cut. -/
def whole (c : Cut) : List Char := c.taken ++ c.rest

/-- A cut that takes nothing. -/
def empty (cs : List Char) : Cut := ⟨[], cs⟩

/-- The same cut with characters before it that are taken too. -/
def after (front : List Char) (c : Cut) : Cut := ⟨front ++ c.taken, c.rest⟩

@[simp] theorem whole_mk (a b : List Char) : (Cut.mk a b).whole = a ++ b := rfl

@[simp] theorem taken_empty (cs : List Char) : (empty cs).taken = [] := rfl

@[simp] theorem rest_empty (cs : List Char) : (empty cs).rest = cs := rfl

@[simp] theorem whole_empty (cs : List Char) : (empty cs).whole = cs := rfl

@[simp] theorem taken_after (a : List Char) (c : Cut) : (c.after a).taken = a ++ c.taken := rfl

@[simp] theorem rest_after (a : List Char) (c : Cut) : (c.after a).rest = c.rest := rfl

/-- What is put in front of a cut stands in front of all its characters. -/
@[simp] theorem whole_after (a : List Char) (c : Cut) : (c.after a).whole = a ++ c.whole := by
  simp [whole]

end Cut

/-- Takes the longest front part of a text whose characters all pass `p`. -/
def cutWhile (p : Char → Bool) (cs : List Char) : Cut := ⟨cs.takeWhile p, cs.dropWhile p⟩

/-- Cutting a run of characters loses none. -/
@[simp] theorem whole_cutWhile (p : Char → Bool) (cs : List Char) : (cutWhile p cs).whole = cs := by
  simp [cutWhile, List.takeWhile_append_dropWhile]

/-- Every character that `cutWhile` takes passes the test. -/
theorem all_taken_cutWhile (p : Char → Bool) (cs : List Char) :
    ∀ c ∈ (cutWhile p cs).taken, p c = true := by
  induction cs with
  | nil => simp [cutWhile]
  | cons c cs ih =>
    intro d hd
    by_cases hc : p c = true
    · simp only [cutWhile, List.takeWhile_cons, hc, if_true, List.mem_cons] at hd
      exact hd.elim (fun h => h ▸ hc) (ih d)
    · simp [cutWhile, hc] at hd

/-- What `cutWhile` leaves does not start with a character that passes the test. -/
theorem head_rest_cutWhile {p : Char → Bool} {cs r : List Char} {c : Char}
    (h : (cutWhile p cs).rest = c :: r) : p c = false := by
  induction cs with
  | nil => simp [cutWhile] at h
  | cons d ds ih =>
    by_cases hd : p d = true
    · exact ih (by simpa [cutWhile, hd] using h)
    · simp only [cutWhile, List.dropWhile_cons, hd] at h
      simp only [Bool.false_eq_true, if_false, List.cons.injEq] at h
      simpa [h.1] using hd

/-- A part whose characters all pass the test is taken up to a character that does not. -/
theorem cutWhile_append_eq {p : Char → Bool} {a b : List Char} (ha : ∀ c ∈ a, p c = true)
    (hb : ∀ c r, b = c :: r → p c = false) : cutWhile p (a ++ b) = ⟨a, b⟩ := by
  have hfront : cutWhile p b = ⟨[], b⟩ := by
    cases b with
    | nil => rfl
    | cons c r => simp [cutWhile, hb c r rfl]
  simp only [cutWhile, Cut.mk.injEq] at hfront
  rw [cutWhile, List.takeWhile_append_of_pos ha, List.dropWhile_append_of_pos ha, hfront.1, hfront.2,
    List.append_nil]

end BrightLexer
