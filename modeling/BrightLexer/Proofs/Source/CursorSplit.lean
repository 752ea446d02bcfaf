import BrightLexer.Proofs.Source.ByteCursor

/-!
# A cursor splits its source text

Whatever a cursor keeps, it stands for a split of the source text, into the characters that were passed and
those that are ahead. `Cursor.Splits` says for each operation what that comes to, in terms of the two lists
alone: what is answered, and which characters go from the one list to the other. `cursor_splits_source` says
that it holds behind any operations, and of both cursors, the one over characters and the one over bytes.

It is shown for characters (`Cursor.splits_between`), and carried over to bytes by `Cursor.Splits.map`.
-/

namespace BrightLexer

/-- What the operations of a cursor give where it splits a source text into the characters that were
passed and those that are ahead. `place` is the cursor between two parts of a text, of any kind, and
`perform?` what an operation answers and the cursor behind it, if it has a result. -/
structure Cursor.Splits {σ : Type} (perform? : σ → Operation → Option (Answer × σ))
    (place : List Char → List Char → σ) (passed ahead : List Char) : Prop where
  /-- The current character is the first one ahead. -/
  current : perform? (place passed ahead) .current =
    some (.char (ahead.headD endMark), place passed ahead)
  /-- Further characters are those ahead in their order. -/
  peek : ∀ k, perform? (place passed ahead) (.peek k) =
    some (.char (ahead.getD k endMark), place passed ahead)
  /-- Moving passes one character and answers with it. -/
  advance : ∀ ch rest, ahead = ch :: rest → perform? (place passed ahead) .advance =
    some (.char ch, place (passed ++ [ch]) rest)
  /-- At the end moving changes nothing. -/
  stay : ahead = [] → perform? (place passed ahead) .advance =
    some (.char endMark, place passed ahead)
  /-- Moving under a test passes the longest part ahead whose characters all pass it. -/
  advanceWhile : ∀ p, ∃ run rest, ahead = run ++ rest ∧ (∀ ch ∈ run, p ch = true) ∧
    (∀ ch ∈ rest.head?, p ch = false) ∧ perform? (place passed ahead) (.advanceWhile p) =
      some (.nothing, place (passed ++ run) rest)
  /-- A character is matched, and passed, if it is the first one ahead. -/
  matched : ∀ ch rest, ahead = ch :: rest → perform? (place passed ahead) (.matchChar ch) =
    some (.truth true, place (passed ++ [ch]) rest)
  /-- No other one is matched, and none at all at the end. -/
  unmatched : ∀ ch, ahead.head? ≠ some ch → perform? (place passed ahead) (.matchChar ch) =
    some (.truth false, place passed ahead)
  /-- The cursor is at the end if nothing is ahead. -/
  atEnd : perform? (place passed ahead) .atEnd = some (.truth ahead.isEmpty, place passed ahead)
  /-- From the end of a prefix of the source text, not behind the cursor, there is a text up to it. -/
  slice : ∀ before after, passed ++ ahead = before ++ after → byteLength before ≤ byteLength passed →
    ∃ text, passed = before ++ text ∧ perform? (place passed ahead) (.sliceFrom (byteLength before)) =
      some (.text text, place passed ahead)
  /-- From any other byte offset there is none. -/
  noSlice : ∀ start, (∀ before after, passed ++ ahead = before ++ after →
    byteLength before ≤ byteLength passed → start ≠ byteLength before) →
      perform? (place passed ahead) (.sliceFrom start) = none
  /-- What is ahead can be read as a whole. -/
  remaining : perform? (place passed ahead) .remaining = some (.text ahead, place passed ahead)

/-- A cursor over bytes and one over characters stand between the same two parts of a source text. -/
structure ByteCursor.Refines (source : String) (b : ByteCursor) (c : Cursor)
    (passed ahead : List Char) : Prop where
  /-- The two parts are the source text. -/
  whole : source.toList = passed ++ ahead
  /-- The cursor over characters is between them. -/
  cursor : c = .between passed ahead
  /-- The cursor over bytes is its encoded form. -/
  encoded : b = c.encoded
  /-- The byte offset is the number of bytes that were passed. -/
  position : b.position = byteLength passed
  /-- As long as 32 bits can count them, line and column are those of the cursor over characters. -/
  counters : source.toList.length < 2 ^ 32 - 1 →
    b.line.toNat = c.position.line ∧ b.column.toNat = c.position.column
  /-- A character that is read off one byte is the one that decoding finds there. -/
  ascii : ∀ rest k ch, b.remaining? = some rest → asciiAt? rest k = some ch → ahead[k]? = some ch
  /-- On characters, the operations move the border between the two parts. -/
  characters : Cursor.Splits Cursor.perform? .between passed ahead
  /-- On bytes they do the same. -/
  bytes : Cursor.Splits ByteCursor.perform? (fun a b => (Cursor.between a b).encoded) passed ahead
  /-- What is read up to the cursor and from there on is the source text. -/
  rejoined : ∃ front back, b.sliceFrom? 0 = some front ∧ b.remaining? = some back ∧
    front ++ back = source

namespace Cursor

section
variable (passed ahead : List Char)

/-- On characters, each operation answers and moves as the two parts of the text say. -/
theorem splits_between : Splits perform? between passed ahead where
  current := by cases ahead <;> rfl
  peek k := by
    rw [List.getD_eq_getElem?_getD]
    rfl
  advance := by
    rintro ch rest rfl
    rw [perform?, advance_between]
    rfl
  stay := by
    rintro rfl
    rfl
  advanceWhile p := by
    refine ⟨ahead.takeWhile p, ahead.dropWhile p, List.takeWhile_append_dropWhile.symm,
      all_taken_cutWhile p ahead, ?_, ?_⟩
    · intro ch hch
      obtain ⟨rest, hrest⟩ := List.head?_eq_some_iff.1 hch
      exact head_rest_cutWhile hrest
    · rw [perform?, advanceWhile_between]
  matched := by
    rintro ch rest rfl
    have hcurrent : (between passed (ch :: rest)).current? = some ch := rfl
    rw [perform?, matchChar, if_pos hcurrent, advance_between]
  unmatched ch h := by
    have hcurrent : (between passed ahead).current? ≠ some ch := by
      rwa [current?, peek?, ← List.head?_eq_getElem?]
    rw [perform?, matchChar, if_neg hcurrent]
  atEnd := rfl
  slice before after happend hle := by
    obtain ⟨text, rfl⟩ :=
      prefix_of_byteLength_le ⟨after, happend.symm⟩ (List.prefix_append passed ahead) hle
    refine ⟨text, rfl, ?_⟩
    rw [perform?, sliceFrom?_between]
    rfl
  noSlice start h := by
    rw [perform?, Option.map_eq_none_iff, Option.eq_none_iff_forall_ne_some]
    intro text htext
    obtain ⟨before, rfl, hstart⟩ := sliceFrom?_between_eq_some_iff.1 htext
    refine h before (text ++ ahead) (List.append_assoc ..) ?_ hstart
    exact byteLength_le_of_prefix (List.prefix_append before text)
  remaining := rfl

/-- What splits the source text still does so in another form in which all operations do the same. -/
theorem Splits.map {σ τ : Type} {perform? : σ → Operation → Option (Answer × σ)}
    {perform?' : τ → Operation → Option (Answer × τ)} {place : List Char → List Char → σ} {f : σ → τ}
    (hf : ∀ o, perform?' (f (place passed ahead)) o =
      (perform? (place passed ahead) o).map (Prod.map id f))
    (h : Splits perform? place passed ahead) :
    Splits perform?' (fun a b => f (place a b)) passed ahead where
  current := by rw [hf, h.current]; rfl
  peek k := by rw [hf, h.peek]; rfl
  advance ch rest hahead := by rw [hf, h.advance ch rest hahead]; rfl
  stay hahead := by rw [hf, h.stay hahead]; rfl
  advanceWhile p := by
    obtain ⟨run, rest, hahead, hrun, hrest, hperform⟩ := h.advanceWhile p
    refine ⟨run, rest, hahead, hrun, hrest, ?_⟩
    rw [hf, hperform]
    rfl
  matched ch rest hahead := by rw [hf, h.matched ch rest hahead]; rfl
  unmatched ch hhead := by rw [hf, h.unmatched ch hhead]; rfl
  atEnd := by rw [hf, h.atEnd]; rfl
  slice before after happend hle := by
    obtain ⟨text, hpassed, hperform⟩ := h.slice before after happend hle
    refine ⟨text, hpassed, ?_⟩
    rw [hf, hperform]
    rfl
  noSlice start hstart := by rw [hf, h.noSlice start hstart]; rfl
  remaining := by rw [hf, h.remaining]; rfl

end

end Cursor

/-- A cursor in a source text and its encoded form split it alike. -/
theorem Cursor.In.refines {source : String} {c : Cursor} (h : c.In source.toList) :
    ∃ passed, ByteCursor.Refines source c.encoded c passed c.rest := by
  obtain ⟨passed, hsource, hc⟩ := h
  have hposition : c.encoded.position = byteLength passed := by
    rw [hc]
    exact offset_between passed c.rest
  have hremaining : c.encoded.remaining? = some (.ofList c.rest) := by
    rw [hc]
    exact ByteCursor.remaining?_encoded passed c.rest
  have hslice : c.encoded.sliceFrom? 0 = some (.ofList passed) := by
    have hwhole : (between passed c.rest).sliceFrom? 0 = some passed :=
      sliceFrom?_between [] passed c.rest
    rw [hc, ByteCursor.sliceFrom?_encoded, hwhole, Option.map_some]
  have hsplits : Splits Cursor.perform? between passed c.rest := splits_between passed c.rest
  refine ⟨passed, hsource, hc, rfl, hposition, ?_, ?_, hsplits,
    .map _ _ (ByteCursor.perform?_encoded passed c.rest) hsplits, _, _, hslice, hremaining, ?_⟩
  · intro hlength
    have hle : passed.length < 2 ^ 32 - 1 := by
      rw [hsource, List.length_append] at hlength
      omega
    obtain ⟨hline, hcolumn⟩ := fits32_origin_after hle
    rw [hc]
    exact ⟨UInt32.toNat_ofNat_of_lt' hline, UInt32.toNat_ofNat_of_lt' hcolumn⟩
  · intro rest k ch hrest hch
    rw [hremaining] at hrest
    cases hrest
    exact getElem?_of_asciiAt? hch
  · rw [← String.ofList_append, ← hsource, String.ofList_toList]

/-- A cursor splits its source text. Behind any operations, those without a result among them, a cursor over
bytes has given the answers that a cursor over characters gives, and both stand between the same two parts
of the source text: the position is the number of bytes of what was passed, and each operation answers and
moves as on the list of characters that is ahead. -/
theorem cursor_splits_source (source : String) (operations : List Cursor.Operation) :
    let b := Cursor.performAll ByteCursor.perform? (.ofSource source) operations
    let c := Cursor.performAll Cursor.perform? (.ofSource source.toList) operations
    b.1 = c.1 ∧ ∃ passed ahead, ByteCursor.Refines source b.2 c.2 passed ahead := by
  intro b c
  have hstart : (Cursor.ofSource source.toList).In source.toList := Cursor.in_ofSource _
  have hb : b = c.map id Cursor.encoded := by
    have hall := hstart.performAll_encoded operations
    rwa [Cursor.encoded_ofSource] at hall
  have hin : c.2.In source.toList := by
    rw [Cursor.snd_performAll]
    exact hstart.movedAll operations
  obtain ⟨passed, hrefines⟩ := hin.refines
  rw [hb]
  exact ⟨rfl, passed, c.2.rest, hrefines⟩

/-- A NUL that is ahead is matched, and the end is not; and there is no text from inside a character. -/
example : (Cursor.performAll ByteCursor.perform? (.ofSource "a\x00é")
      [.peek 2, .peek 3, .advanceWhile (· != '\x00'), .matchChar '\x00', .advance, .matchChar '\x00',
        .sliceFrom 3, .sliceFrom 2]).1 =
    [some (.char 'é'), some (.char '\x00'), some .nothing, some (.truth true), some (.char 'é'),
      some (.truth false), none, some (.text ['é'])] := by decide +kernel

end BrightLexer
