import BrightLexer.Proofs.Source.Cursor
import BrightLexer.Proofs.Source.Encoding

/-!
# A cursor over bytes

`Cursor` keeps the text on both sides of it as characters. `ByteCursor` keeps the source text as a string
and a byte offset into it. It cuts what is ahead out of the string each time it looks, which has no result
where the offset is inside a character, and looks ahead byte by byte as long as the bytes are ASCII.

A cursor in a source text has an encoded form (`Cursor.encoded`), and its operations are those of the
cursor over bytes there: they give the same answers, and move to encoded forms again. Each of them is
compared once (`ByteCursor.perform?_encoded`), and any number of them by induction
(`Cursor.In.performAll_encoded`).
-/

namespace BrightLexer

/-! ## The cursor over bytes -/

/-- A byte offset in a source text, with the line and the column it falls on. These are counted in 32
bits, and start again at zero behind the largest number. -/
structure ByteCursor where
  /-- The source text. -/
  source : String
  /-- The number of bytes already passed. -/
  position : Nat
  /-- The line, counted from one. -/
  line : UInt32
  /-- The column, counted in characters from one. -/
  column : UInt32
deriving DecidableEq

namespace ByteCursor

/-- The cursor before the first byte of a source text. -/
def ofSource (source : String) : ByteCursor := ⟨source, 0, 1, 1⟩

/-- The source text from the cursor on. -/
def remaining? (b : ByteCursor) : Option String :=
  cutString? b.source b.position b.source.utf8ByteSize

/-- The character `k` places ahead, the current one at 0. -/
def peek? (b : ByteCursor) (k : Nat) : Option Char := do
  let rest ← b.remaining?
  return (asciiAt? rest k).getD (rest.toList.getD k endMark)

/-- The current character. -/
def current? (b : ByteCursor) : Option Char := b.peek? 0

/-- The cursor moved past `ch`. -/
def past (b : ByteCursor) (ch : Char) : ByteCursor :=
  if ch = '\n' then ⟨b.source, b.position + ch.utf8Size, b.line + 1, 1⟩
  else ⟨b.source, b.position + ch.utf8Size, b.line, b.column + 1⟩

/-- Moves past the current character and answers with it; at the end nothing changes. -/
def advance? (b : ByteCursor) : Option (Char × ByteCursor) := do
  match (← b.remaining?).toList with
  | [] => return (endMark, b)
  | ch :: _ => return (ch, b.past ch)

/-- Whether the cursor is behind the last byte. -/
def atEnd (b : ByteCursor) : Bool := b.source.utf8ByteSize ≤ b.position

/-- Whether the current character is `ch`, and the cursor moved past it if it is. -/
def matchChar? (b : ByteCursor) (ch : Char) : Option (Bool × ByteCursor) :=
  if b.atEnd then some (false, b)
  else do
    if (← b.current?) = ch then
      let (_, next) ← b.advance?
      return (true, next)
    else return (false, b)

/-- The text from byte offset `start` up to the cursor. -/
def sliceFrom? (b : ByteCursor) (start : Nat) : Option String := cutString? b.source start b.position

/-- Going past a character leaves the source text as it is. -/
@[simp] theorem source_past (b : ByteCursor) (ch : Char) : (b.past ch).source = b.source := by
  unfold past; split <;> rfl

/-- Going past a character takes the offset behind its bytes. -/
@[simp] theorem position_past (b : ByteCursor) (ch : Char) :
    (b.past ch).position = b.position + ch.utf8Size := by
  unfold past; split <;> rfl

/-- What is ahead has as many bytes as the source text has from the cursor on. -/
theorem utf8ByteSize_of_remaining? {b : ByteCursor} {rest : String} (h : b.remaining? = some rest) :
    b.position + rest.utf8ByteSize = b.source.utf8ByteSize := by
  rw [remaining?, ← String.ofList_toList (s := b.source), cutString?_eq_some_iff] at h
  obtain ⟨front, back, -, hstart, hstop, rfl⟩ := h
  rw [← String.ofList_toList (s := b.source), hstart, hstop, utf8ByteSize_ofList, byteLength_append]

/-- Before the end, moving takes the cursor closer to it. -/
theorem utf8ByteSize_sub_advance?_lt {b next : ByteCursor} {ch : Char}
    (h : b.advance? = some (ch, next)) (hend : ¬ b.atEnd = true) :
    next.source.utf8ByteSize - next.position < b.source.utf8ByteSize - b.position := by
  have hless : b.position < b.source.utf8ByteSize := by simpa [atEnd] using hend
  unfold advance? at h
  obtain ⟨rest, hrest, h⟩ := Option.bind_eq_some_iff.1 h
  split at h
  · next hnil =>
    have hsize := utf8ByteSize_of_remaining? hrest
    rw [String.toList_eq_nil_iff.1 hnil] at hsize
    exact absurd hsize (Nat.ne_of_lt hless)
  · have hpos := ch.utf8Size_pos
    cases h
    rw [source_past, position_past]
    omega

/-- Moves past the current character as long as there is one and it passes `p`. -/
def advanceWhile? (b : ByteCursor) (p : Char → Bool) : Option ByteCursor :=
  if hend : b.atEnd then some b
  else
    match b.current? with
    | none => none
    | some ch =>
      if p ch then
        match hadvance : b.advance? with
        | none => none
        | some (_, next) =>
          have := utf8ByteSize_sub_advance?_lt hadvance hend
          next.advanceWhile? p
      else some b
termination_by b.source.utf8ByteSize - b.position

section
variable {b next : ByteCursor} {p : Char → Bool} {ch answer : Char}

/-- At the end the loop stops. -/
theorem advanceWhile?_of_atEnd (h : b.atEnd = true) : b.advanceWhile? p = some b := by
  rw [advanceWhile?, dif_pos h]

/-- It stops in front of a character that fails the test. -/
theorem advanceWhile?_of_fails (hend : b.atEnd = false) (hcurrent : b.current? = some ch)
    (hp : p ch = false) : b.advanceWhile? p = some b := by
  rw [advanceWhile?, dif_neg (Bool.eq_false_iff.1 hend), hcurrent]
  exact if_neg (Bool.eq_false_iff.1 hp)

/-- It goes on behind a character that passes. -/
theorem advanceWhile?_of_passes (hend : b.atEnd = false) (hcurrent : b.current? = some ch)
    (hp : p ch = true) (hadvance : b.advance? = some (answer, next)) :
    b.advanceWhile? p = next.advanceWhile? p := by
  rw [advanceWhile?, dif_neg (Bool.eq_false_iff.1 hend), hcurrent]
  dsimp only
  rw [if_pos hp]
  split
  · next hnone => rw [hadvance] at hnone; cases hnone
  · next hsome => rw [hadvance] at hsome; cases hsome; rfl

end

/-- What an operation answers, and the cursor behind it. -/
def perform? (b : ByteCursor) : Cursor.Operation → Option (Cursor.Answer × ByteCursor)
  | .current => b.current?.map fun ch => (.char ch, b)
  | .peek k => (b.peek? k).map fun ch => (.char ch, b)
  | .advance => b.advance?.map fun (ch, next) => (.char ch, next)
  | .advanceWhile p => (b.advanceWhile? p).map fun next => (.nothing, next)
  | .matchChar ch => (b.matchChar? ch).map fun (found, next) => (.truth found, next)
  | .atEnd => some (.truth b.atEnd, b)
  | .sliceFrom start => (b.sliceFrom? start).map fun text => (.text text.toList, b)
  | .remaining => b.remaining?.map fun text => (.text text.toList, b)

end ByteCursor

/-! ## A cursor in its encoded form -/

namespace Cursor

/-- A cursor as one over the bytes of its source text. -/
def encoded (c : Cursor) : ByteCursor where
  source := .ofList c.source
  position := c.position.offset
  line := .ofNat c.position.line
  column := .ofNat c.position.column

/-- The cursor at the start of a source becomes the one at the start of its bytes. -/
theorem encoded_ofSource (source : String) : (ofSource source.toList).encoded = .ofSource source := by
  rw [encoded, source_ofSource, String.ofList_toList]
  rfl

end Cursor

namespace ByteCursor

section
variable (passed ahead : List Char)

/-- The bytes from the offset on are those of the text ahead. -/
theorem remaining?_encoded :
    (Cursor.between passed ahead).encoded.remaining? = some (.ofList ahead) := by
  rw [remaining?, Cursor.encoded, Cursor.offset_between, Cursor.source_between, utf8ByteSize_ofList]
  exact cutString?_eq_some_iff.2 ⟨passed, ahead, List.prefix_rfl, rfl, rfl, rfl⟩

/-- Looking ahead decodes the characters ahead, and finds the end mark behind the last. -/
theorem peek?_encoded (k : Nat) : (Cursor.between passed ahead).encoded.peek? k =
    some (((Cursor.between passed ahead).peek? k).getD endMark) := by
  rw [peek?, remaining?_encoded, Option.bind_eq_bind, Option.bind_some, String.toList_ofList,
    List.getD_eq_getElem?_getD]
  cases hascii : asciiAt? (.ofList ahead) k with
  | none => rfl
  | some ch =>
    have hpeek : (Cursor.between passed ahead).peek? k = some ch := getElem?_of_asciiAt? hascii
    rw [hpeek]
    rfl

/-- So does looking at the next character. -/
theorem current?_encoded : (Cursor.between passed ahead).encoded.current? =
    some ((Cursor.between passed ahead).current?.getD endMark) :=
  peek?_encoded passed ahead 0

/-- The offset is at the end of the bytes if no text is ahead, and only then, as every character has bytes.
-/
theorem atEnd_encoded :
    (Cursor.between passed ahead).encoded.atEnd = (Cursor.between passed ahead).atEnd := by
  have hlength := length_le_byteLength ahead
  rw [atEnd, Cursor.encoded, Cursor.offset_between, Cursor.source_between, utf8ByteSize_ofList,
    byteLength_append]
  cases ahead with
  | nil => exact decide_eq_true (Nat.le_refl _)
  | cons ch rest =>
    rw [List.length_cons] at hlength
    have hless : ¬ byteLength passed + byteLength (ch :: rest) ≤ byteLength passed := by omega
    exact decide_eq_false hless

/-- Behind a character, offset and counters are those of the cursor behind it. -/
theorem past_encoded (ch : Char) :
    (Cursor.between passed (ch :: ahead)).encoded.past ch =
      (Cursor.between passed (ch :: ahead)).advance.encoded := by
  have hposition : (Cursor.between passed (ch :: ahead)).advance.position =
      (Cursor.between passed (ch :: ahead)).position.next ch := rfl
  rw [Cursor.encoded, Cursor.encoded, Cursor.source_advance, hposition, past, Position.next]
  split
  · rw [UInt32.ofNat_add]
    rfl
  · rw [UInt32.ofNat_add]
    rfl

/-- Advancing yields the next character, and at the end the end mark without moving. -/
theorem advance?_encoded : (Cursor.between passed ahead).encoded.advance? =
    some ((Cursor.between passed ahead).current?.getD endMark,
      (Cursor.between passed ahead).advance.encoded) := by
  rw [advance?, remaining?_encoded, Option.bind_eq_bind, Option.bind_some, String.toList_ofList]
  cases ahead with
  | nil => rfl
  | cons ch rest =>
    dsimp only
    rw [past_encoded]
    rfl

/-- A character is matched if it is the next one. -/
theorem matchChar?_encoded (ch : Char) : (Cursor.between passed ahead).encoded.matchChar? ch =
    some (((Cursor.between passed ahead).matchChar ch).1,
      ((Cursor.between passed ahead).matchChar ch).2.encoded) := by
  rw [matchChar?, atEnd_encoded, current?_encoded, advance?_encoded, Cursor.matchChar]
  cases ahead with
  | nil => rfl
  | cons c rest =>
    have hcurrent : (Cursor.between passed (c :: rest)).current? = some c := rfl
    have hend : (Cursor.between passed (c :: rest)).atEnd = false := rfl
    rw [hcurrent, hend]
    by_cases hc : c = ch
    · simp [hc]
    · simp [hc]

/-- The loop passes over the same characters, be it byte by byte where they are ASCII or not, by induction
on the text ahead. -/
theorem advanceWhile?_encoded (p : Char → Bool) :
    (Cursor.between passed ahead).encoded.advanceWhile? p =
      some ((Cursor.between passed ahead).advanceWhile p).encoded := by
  rw [Cursor.advanceWhile_between]
  induction ahead generalizing passed with
  | nil =>
    rw [List.takeWhile_nil, List.append_nil]
    exact advanceWhile?_of_atEnd (atEnd_encoded passed [])
  | cons ch rest ih =>
    have hend := atEnd_encoded passed (ch :: rest)
    have hcurrent := current?_encoded passed (ch :: rest)
    cases hp : p ch with
    | false =>
      rw [advanceWhile?_of_fails hend hcurrent hp, List.takeWhile_cons_of_neg (Bool.eq_false_iff.1 hp),
        List.dropWhile_cons_of_neg (Bool.eq_false_iff.1 hp), List.append_nil]
    | true =>
      rw [advanceWhile?_of_passes hend hcurrent hp (advance?_encoded passed (ch :: rest)),
        Cursor.advance_between, ih, List.append_assoc, List.takeWhile_cons_of_pos hp,
        List.dropWhile_cons_of_pos hp]
      rfl

/-- A slice that starts inside a character or behind the cursor fails, and any other is the text between. -/
theorem sliceFrom?_encoded (start : Nat) : (Cursor.between passed ahead).encoded.sliceFrom? start =
    ((Cursor.between passed ahead).sliceFrom? start).map String.ofList := by
  ext s
  rw [sliceFrom?, Cursor.encoded, Cursor.offset_between, Cursor.source_between,
    cutString?_eq_some_iff, Option.map_eq_some_iff]
  constructor
  · rintro ⟨before, text, hprefix, rfl, hstop, rfl⟩
    have hpassed : passed = before ++ text :=
      eq_of_byteLength_eq (List.prefix_append passed ahead) hprefix hstop
    exact ⟨text, Cursor.sliceFrom?_between_eq_some_iff.2 ⟨before, hpassed, rfl⟩, rfl⟩
  · rintro ⟨text, htext, rfl⟩
    obtain ⟨before, rfl, rfl⟩ := Cursor.sliceFrom?_between_eq_some_iff.1 htext
    exact ⟨before, text, List.prefix_append _ _, rfl, rfl, rfl⟩

/-- Encoded or not, a cursor gives the same answers and moves alike. -/
theorem perform?_encoded (o : Cursor.Operation) : (Cursor.between passed ahead).encoded.perform? o =
    ((Cursor.between passed ahead).perform? o).map (Prod.map id Cursor.encoded) := by
  cases o with
  | current => rw [perform?, current?_encoded]; rfl
  | peek k => rw [perform?, peek?_encoded]; rfl
  | advance => rw [perform?, advance?_encoded]; rfl
  | advanceWhile p => rw [perform?, advanceWhile?_encoded]; rfl
  | matchChar ch => rw [perform?, matchChar?_encoded]; rfl
  | atEnd => rw [perform?, atEnd_encoded]; rfl
  | sliceFrom start =>
    rw [perform?, sliceFrom?_encoded, Cursor.perform?, Option.map_map, Option.map_map]
    simp [Function.comp_def]
  | remaining =>
    rw [perform?, remaining?_encoded, Option.map_some, String.toList_ofList]
    rfl

end

end ByteCursor

namespace Cursor

section
variable {source : List Char} {c : Cursor}

/-- Every operation has the same answer and leaves cursors that correspond. -/
theorem In.perform?_encoded (h : c.In source) (o : Operation) :
    c.encoded.perform? o = (c.perform? o).map (Prod.map id encoded) := by
  obtain ⟨front, -, hc⟩ := h
  rw [hc]
  exact ByteCursor.perform?_encoded front c.rest o

/-- Through any operations the encoded form of a cursor gives the answers that the cursor gives, and ends in
the encoded form of where that ends. -/
theorem In.performAll_encoded (h : c.In source) (operations : List Operation) :
    performAll ByteCursor.perform? c.encoded operations =
      (performAll perform? c operations).map id encoded := by
  induction operations generalizing c with
  | nil => rfl
  | cons o operations ih =>
    have hanswer : (c.encoded.perform? o).map Prod.fst = (c.perform? o).map Prod.fst := by
      rw [h.perform?_encoded o]
      cases c.perform? o <;> rfl
    have hbehind : ((c.encoded.perform? o).map Prod.snd).getD c.encoded = (c.moved o).encoded := by
      rw [h.perform?_encoded o, ← c.snd_perform? o]
      cases c.perform? o <;> rfl
    rw [performAll, performAll]
    dsimp only
    rw [hanswer, hbehind, c.snd_perform? o, ih (h.moved o)]
    rfl

end

end Cursor

end BrightLexer
