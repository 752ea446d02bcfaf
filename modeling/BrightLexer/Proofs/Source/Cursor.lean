import BrightLexer.Proofs.Source.Place
import BrightLexer.Source.Cursor
import Mathlib.Algebra.Group.Nat.Defs

/-!
# A cursor in its source text

A cursor holds its place twice, as the text on both sides of it and as a position. `Cursor.between` is
the cursor whose position is that of the text before it, and `Cursor.In` says of a cursor that it is
one, in a given source text. That is so at the start, and moving forward keeps it (`Cursor.In.forward`).
Then the text ahead and the text that was read are found again by their offsets
(`Cursor.In.dropBytes?_eq`, `Cursor.sliceFrom?_between_eq_some_iff`).

`Cursor.perform?` gives for each operation what it answers and the cursor behind it, so that any operations
can be taken one after the other (`Cursor.performAll`).
-/

namespace BrightLexer

/-- What is read where there is no character. It can also stand in a text. -/
def endMark : Char := '\x00'

namespace Cursor

/-- The cursor between two parts of a source text. -/
def between (front back : List Char) : Cursor := ⟨front.reverse, back, Position.origin.after front⟩

section
variable (front text back : List Char)

/-- The offset of a cursor is the number of bytes in front of it. -/
theorem offset_between : (between front back).position.offset = byteLength front :=
  Position.offset_origin_after front

/-- The two parts are the source text of the cursor. -/
theorem source_between : (between front back).source = front ++ back := by
  rw [source, between, List.reverse_reverse]

/-- A step takes the cursor over one character. -/
theorem advance_between (c : Char) :
    (between front (c :: back)).advance = between (front ++ [c]) back := by
  rw [between, between, List.reverse_append, Position.after_append]
  rfl

/-- Some steps take the cursor over as many characters, or to the end of the text. -/
theorem forward_between (n : Nat) :
    (between front back).forward n = between (front ++ back.take n) (back.drop n) := by
  induction n generalizing front back with
  | zero => rw [List.take_zero, List.append_nil]; rfl
  | succ n ih =>
    rw [forward]
    cases back with
    | nil =>
      have hend : (between front []).advance = between front [] := rfl
      rw [hend, ih, List.take_nil, List.take_nil, List.drop_nil, List.drop_nil]
    | cons c back =>
      rw [advance_between, ih, List.append_assoc]
      rfl

/-- As many characters as the text ahead has at its front are passed with it. -/
theorem forward_between_append :
    (between front (text ++ back)).forward text.length = between (front ++ text) back := by
  rw [forward_between, List.take_left, List.drop_left]

/-- Moving under a test takes the cursor over the characters that pass it. -/
theorem advanceWhile_between (p : Char → Bool) :
    (between front back).advanceWhile p =
      between (front ++ back.takeWhile p) (back.dropWhile p) := by
  have hforward := forward_between_append front (back.takeWhile p) (back.dropWhile p)
  rwa [List.takeWhile_append_dropWhile] at hforward

/-- Reading backwards as many bytes as a text has gives the text. -/
theorem readBack?_append (passed acc : List Char) :
    readBack? (byteLength text) (text.reverse ++ passed) acc = some (text ++ acc) := by
  -- The last character is read first, so the induction is from the end of the text.
  induction text using List.reverseRecOn generalizing acc with
  | nil => rw [byteLength_nil, readBack?, List.nil_append]
  | append_singleton text c ih =>
    have hpos := c.utf8Size_pos
    obtain ⟨n, hn⟩ : ∃ n, byteLength (text ++ [c]) = n + 1 :=
      ⟨byteLength text + c.utf8Size - 1, by simp; omega⟩
    have hsize : byteLength text + c.utf8Size = n + 1 := by simpa using hn
    rw [hn, List.reverse_append, List.reverse_singleton, List.cons_append, List.nil_append,
      List.cons_append, readBack?, if_pos (by omega),
      show n + 1 - c.utf8Size = byteLength text by omega, ih, List.append_assoc]
    rfl

/-- What was read since an earlier place is found again by the offset of that place. -/
theorem sliceFrom?_between :
    (between (front ++ text) back).sliceFrom? (byteLength front) = some text := by
  have hread := readBack?_append text front.reverse []
  rw [sliceFrom?, offset_between, byteLength_append, if_pos (Nat.le_add_right ..),
    Nat.add_sub_cancel_left, between, List.reverse_append, hread, List.append_nil]

end

/-- What is read backwards is the text that ends there, and has as many bytes as were asked for. -/
theorem eq_append_of_readBack? {n : Nat} {passed acc read : List Char}
    (h : readBack? n passed acc = some read) :
    ∃ text before, passed = text.reverse ++ before ∧ n = byteLength text ∧ read = text ++ acc := by
  fun_induction readBack? n passed acc with
  | case1 passed acc =>
    cases h
    exact ⟨[], passed, rfl, rfl, rfl⟩
  | case2 => cases h
  | case3 n ch passed acc hle ih =>
    obtain ⟨text, before, hpassed, hn, hread⟩ := ih h
    refine ⟨text ++ [ch], before, ?_, ?_, ?_⟩
    · rw [hpassed, List.reverse_append]
      rfl
    · rw [byteLength_append, ← hn, byteLength_cons, byteLength_nil]
      omega
    · rw [hread, List.append_assoc]
      rfl
  | case4 => cases h

/-- A text that ends at the cursor is found by the offset of its start, and nothing is found elsewhere. -/
theorem sliceFrom?_between_eq_some_iff {front text back : List Char} {start : Nat} :
    (between front back).sliceFrom? start = some text ↔
      ∃ before, front = before ++ text ∧ start = byteLength before := by
  constructor
  · intro h
    rw [sliceFrom?, offset_between] at h
    split at h
    · next hle =>
      obtain ⟨text, before, hfront, hn, rfl⟩ := eq_append_of_readBack? h
      have happend : front = before.reverse ++ text := by
        rw [← List.reverse_reverse front, show front.reverse = text.reverse ++ before from hfront,
          List.reverse_append, List.reverse_reverse]
      refine ⟨before.reverse, by rw [List.append_nil, happend], ?_⟩
      have hlength := congrArg byteLength happend
      rw [byteLength_append] at hlength
      omega
    · cases h
  · rintro ⟨before, rfl, rfl⟩
    exact sliceFrom?_between before text back

/-- A cursor stands in a source text if it is between two parts of it. -/
def In (source : List Char) (c : Cursor) : Prop :=
  ∃ front, source = front ++ c.rest ∧ c = .between front c.rest

section
variable {source : List Char} {c : Cursor}

/-- A cursor that stands in a source text has this source text. -/
theorem In.source_eq (h : c.In source) : c.source = source := by
  obtain ⟨front, hsource, hc⟩ := h
  rw [hc, source_between, ← hsource]

/-- A new cursor stands in its source text. -/
theorem in_ofSource (source : List Char) : (ofSource source).In source := ⟨[], rfl, rfl⟩

/-- A cursor still stands in the source text after some steps. -/
theorem In.forward (h : c.In source) (n : Nat) : (c.forward n).In source := by
  obtain ⟨front, hsource, hc⟩ := h
  refine ⟨front ++ c.rest.take n, ?_, ?_⟩
  · rw [rest_forward, List.append_assoc, List.take_append_drop, ← hsource]
  · rw [rest_forward]
    conv_lhs => rw [hc, forward_between]

/-- The text ahead is what the source text holds from the offset of the cursor on. -/
theorem In.dropBytes?_eq (h : c.In source) : dropBytes? c.position.offset source = some c.rest := by
  obtain ⟨front, hsource, hc⟩ := h
  rw [hsource, hc, offset_between]
  exact dropBytes?_append front c.rest

/-- A cursor with nothing ahead is behind the last byte of the source text. -/
theorem In.offset_of_rest_eq_nil (h : c.In source) (hrest : c.rest = []) :
    c.position.offset = byteLength source := by
  obtain ⟨front, hsource, hc⟩ := h
  rw [hrest] at hsource hc
  rw [hsource, hc, offset_between, List.append_nil]

end

/-! ## Operations -/

/-- An operation of a cursor, of which some only look. -/
inductive Operation where
  /-- `current?` -/
  | current
  /-- `peek?` -/
  | peek (k : Nat)
  /-- `advance` -/
  | advance
  /-- `advanceWhile` -/
  | advanceWhile (p : Char → Bool)
  /-- `matchChar` -/
  | matchChar (ch : Char)
  /-- `atEnd` -/
  | atEnd
  /-- `sliceFrom?` -/
  | sliceFrom (start : Nat)
  /-- `rest` -/
  | remaining

/-- The cursor behind an operation. -/
def moved (c : Cursor) : Operation → Cursor
  | .advance => c.advance
  | .advanceWhile p => c.advanceWhile p
  | .matchChar ch => (c.matchChar ch).2
  | .current | .peek _ | .atEnd | .sliceFrom _ | .remaining => c

/-- The cursor behind some operations. -/
def movedAll (c : Cursor) (operations : List Operation) : Cursor := operations.foldl moved c

/-- An operation moves the cursor forward, if it moves it. -/
theorem exists_forward_moved (c : Cursor) (o : Operation) : ∃ n, c.moved o = c.forward n := by
  cases o with
  | advance => exact ⟨1, rfl⟩
  | advanceWhile p => exact ⟨_, rfl⟩
  | matchChar ch =>
    rw [moved, matchChar]
    split
    · exact ⟨1, rfl⟩
    · exact ⟨0, rfl⟩
  | current | peek | atEnd | sliceFrom | remaining => exact ⟨0, rfl⟩

/-- Operations move the cursor forward, if they move it. -/
theorem exists_forward_movedAll (c : Cursor) (operations : List Operation) :
    ∃ n, c.movedAll operations = c.forward n := by
  induction operations generalizing c with
  | nil => exact ⟨0, rfl⟩
  | cons o operations ih =>
    obtain ⟨m, hm⟩ := c.exists_forward_moved o
    obtain ⟨n, hn⟩ := ih (c.moved o)
    refine ⟨m + n, ?_⟩
    rw [forward_add, ← hm, ← hn]
    rfl

/-- What an operation answers. -/
inductive Answer where
  | nothing
  | char (ch : Char)
  | truth (found : Bool)
  | text (cs : List Char)
deriving DecidableEq

/-- What an operation answers, and the cursor behind it. Only `sliceFrom?` can be without a result. -/
def perform? (c : Cursor) : Operation → Option (Answer × Cursor)
  | .current => some (.char (c.current?.getD endMark), c)
  | .peek k => some (.char ((c.peek? k).getD endMark), c)
  | .advance => some (.char (c.current?.getD endMark), c.advance)
  | .advanceWhile p => some (.nothing, c.advanceWhile p)
  | .matchChar ch => some (.truth (c.matchChar ch).1, (c.matchChar ch).2)
  | .atEnd => some (.truth c.atEnd, c)
  | .sliceFrom start => (c.sliceFrom? start).map fun text => (.text text, c)
  | .remaining => some (.text c.rest, c)

/-- What some operations answer one after the other, and the cursor behind them, for any kind of cursor.
An operation without a result leaves the cursor where it is. -/
def performAll {σ : Type} (perform? : σ → Operation → Option (Answer × σ)) (s : σ) :
    List Operation → List (Option Answer) × σ
  | [] => ([], s)
  | o :: operations =>
    let result := perform? s o
    let (answers, t) := performAll perform? ((result.map Prod.snd).getD s) operations
    (result.map Prod.fst :: answers, t)

/-- The cursor behind an operation, with a result or without. -/
theorem snd_perform? (c : Cursor) (o : Operation) :
    ((c.perform? o).map Prod.snd).getD c = c.moved o := by
  cases o with
  | sliceFrom start =>
    rw [perform?]
    cases c.sliceFrom? start <;> rfl
  | current | peek | advance | advanceWhile | matchChar | atEnd | remaining => rfl

/-- The cursor behind some operations, with results or without. -/
theorem snd_performAll (c : Cursor) (operations : List Operation) :
    (performAll perform? c operations).2 = c.movedAll operations := by
  induction operations generalizing c with
  | nil => rfl
  | cons o operations ih =>
    rw [performAll]
    dsimp only
    rw [c.snd_perform? o, ih]
    rfl

section
variable {source : List Char} {c : Cursor}

/-- A cursor still stands in the source text behind an operation. -/
theorem In.moved (h : c.In source) (o : Operation) : (c.moved o).In source := by
  obtain ⟨n, hn⟩ := c.exists_forward_moved o
  rw [hn]
  exact h.forward n

/-- A cursor still stands in the source text behind any operations. -/
theorem In.movedAll (h : c.In source) (operations : List Operation) :
    (c.movedAll operations).In source := by
  obtain ⟨n, hn⟩ := c.exists_forward_movedAll operations
  rw [hn]
  exact h.forward n

end

end Cursor

/-! ## Counters of 32 bits -/

/-- 32 bits are enough for the line and the column of a position. -/
def Position.Fits32 (p : Position) : Prop := p.line < 2 ^ 32 ∧ p.column < 2 ^ 32

section
variable {source : List Char}

/-- The counters that are needed for a text are at most its length. -/
theorem fits32_origin_after {cs : List Char} (h : cs.length < 2 ^ 32 - 1) :
    (Position.origin.after cs).Fits32 := by
  have hline : cs.count '\n' ≤ cs.length := List.count_le_length
  have hcolumn : (lastLine cs).length ≤ cs.length := (List.rtakeWhile_suffix _ _).length_le
  rw [Position.Fits32, Position.line_origin_after, Position.column_origin_after]
  omega

/-- No counter of 32 bits overflows on the way through a text that is not too long. -/
theorem fits32_forward (h : source.length < 2 ^ 32 - 1) (k : Nat) :
    ((Cursor.ofSource source).forward k).position.Fits32 := by
  have hle : (source.take k).length ≤ source.length := List.length_take_le' k source
  rw [Cursor.position_forward]
  exact fits32_origin_after (Nat.lt_of_le_of_lt hle h)

end

end BrightLexer
