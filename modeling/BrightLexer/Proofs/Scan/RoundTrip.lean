import BrightLexer.Proofs.Scan.Agreement

/-!
# Tokens are read again from their texts

A token was cut out of a source text in front of something that the reader may have looked at. Its
text on its own is read as the same token (`Token.Rereads`, `rereads_of_mem_scanRecovering`): no reader
looks behind what it takes, and no text of a token can turn into a comment. A blank behind the text
changes nothing either, so texts joined by blanks fall into the tokens they came from
(`bare_pieces_intercalate`), and scanning them gives these tokens back (`scan_intercalate`).
-/

namespace BrightLexer

/-- What a token is, wherever it stands. -/
def Token.content (t : Token) : Kind × String × Option Literal := (t.kind, t.text, t.literal)

/-- The text of a token is, on its own, read as this token. -/
structure Token.Rereads (t : Token) : Prop where
  /-- There is something to read. -/
  ne_nil : t.text.toList ≠ []
  /-- It starts with no blank and opens no comment. -/
  start : cutTrivia t.text.toList = .empty t.text.toList
  /-- All of it is the token. -/
  read : reading t.text.toList = ⟨⟨t.text.toList, []⟩, .token t.kind t.literal⟩

/-! ## The text of a token on its own -/

section
variable {text rest : List Char}

/-- What is read where no comment opens does not open one on its own. -/
theorem opensComment_taken (hr : (reading (text ++ rest)).taken = text)
    (h : opensComment (text ++ rest) = false) : opensComment text = false := by
  rw [Bool.eq_false_iff] at h ⊢
  intro hopen
  refine h (opensComment_iff.2 ?_)
  have ho := opensComment_iff.1 hopen
  cases text with
  | nil => cases hopen
  | cons c tail =>
    rcases ho.head with rfl | hc
    · exact .apostrophe _
    · have hw : isWordStart c = true := by
        rw [isWordStart, isAlpha_of_toLower hc (by decide), Bool.true_or]
      rw [List.cons_append, reading_wordStart hw] at hr
      rw [List.cons_append]
      exact .of_cutWord (hr ▸ ho)

/-- Every token of a scan but the end token is read again from its text. -/
theorem rereads_of_mem_scanRecovering {source : String} {t : Token}
    (h : t ∈ (scanRecovering source).1) (hk : t.kind ≠ .eof) : t.Rereads := by
  obtain ⟨y, hy, kind, value, hf, rfl⟩ := exists_placed_of_token h
  obtain ⟨before, after, hp, -⟩ := mem_layout hy
  obtain ⟨-, hstart, hread⟩ := piece_spec hp
  have htext : y.piece.text ≠ [] := text_ne_nil_of_finding hp fun heof => by
    rw [hf] at heof
    exact hk (Finding.token.inj heof).1
  generalize y.piece.text = text at *
  generalize textOf after = rest at *
  rw [hf] at hread
  have htaken : (reading (text ++ rest)).taken = text := by rw [hread]
  have hagain := reading_taken (List.append_ne_nil_of_left_ne_nil htext rest)
  rw [htaken, hread] at hagain
  refine ⟨by simpa using htext, ?_, by simpa using hagain⟩
  rw [String.toList_ofList]
  obtain ⟨c, tail, rfl⟩ := List.exists_cons_of_ne_nil htext
  obtain ⟨ho, hb⟩ := cutTrivia_eq_empty_iff.1 hstart
  exact cutTrivia_eq_empty_iff.2 ⟨opensComment_taken htaken ho, hb⟩

end

/-! ## Texts joined by blanks -/

/-- A piece without its gap. -/
def Piece.bare (x : Piece) : Piece := { x with gap := [] }

/-- The piece that a token is, without a gap. -/
def Token.piece (t : Token) : Piece := ⟨[], t.text.toList, .token t.kind t.literal⟩

section
variable {cs : List Char} {t : Token} {tokens : List Token}

/-- A blank only makes the first gap longer. -/
theorem bare_pieces_space (cs : List Char) :
    (pieces (' ' :: cs)).map Piece.bare = (pieces cs).map Piece.bare := by
  have hcut : cutTrivia (' ' :: cs) = (cutTrivia cs).after [' '] := by
    rw [cutTrivia, opensComment_cons_separator isSeparator_space]
    rfl
  by_cases h : (cutTrivia cs).rest = []
  · rw [pieces_of_rest_eq_nil h, pieces_of_rest_eq_nil (by rw [hcut]; exact h)]
    rfl
  · rw [pieces_of_rest_ne_nil h, pieces_of_rest_ne_nil (by rw [hcut]; exact h)]
    simp only [firstPiece, afterPiece, hcut, Cut.rest_after]
    rfl

/-- At the front of a text that is read as it is, the pieces are a token and those behind it. -/
theorem pieces_of_reading (hstart : cutTrivia cs = .empty cs) (hne : cs ≠ []) {text rest : List Char}
    {finding : Finding} (hread : reading cs = ⟨⟨text, rest⟩, finding⟩) :
    pieces cs = ⟨[], text, finding⟩ :: pieces rest := by
  rw [pieces_of_rest_ne_nil (by rw [hstart]; exact hne), firstPiece, afterPiece, hstart,
    Cut.rest_empty, hread]
  rfl

/-- The text of a token on its own falls into the piece of this token and the end. -/
theorem Token.Rereads.pieces_eq (h : t.Rereads) : pieces t.text.toList = t.piece :: pieces [] :=
  pieces_of_reading h.start h.ne_nil h.read

/-- The text of a token before a blank falls into the piece of this token and what stands from the blank on.
-/
theorem Token.Rereads.pieces_append_space (h : t.Rereads) (cs : List Char) :
    pieces (t.text.toList ++ ' ' :: cs) = t.piece :: pieces (' ' :: cs) := by
  have hread : reading (t.text.toList ++ ' ' :: cs) = _ :=
    reading_append_separator isSeparator_space h.ne_nil (.inr (by rw [h.read]; nofun))
  rw [h.read] at hread
  refine pieces_of_reading ?_ (by simp) hread
  obtain ⟨c, tail, htext⟩ := List.exists_cons_of_ne_nil h.ne_nil
  have hstart := h.start
  rw [htext, cutTrivia_eq_empty_iff] at hstart
  rw [htext, List.cons_append, cutTrivia_eq_empty_iff, ← List.cons_append,
    opensComment_append_separator isSeparator_space]
  exact hstart

/-- Texts of tokens that are joined by blanks fall into these tokens and the end token. -/
theorem bare_pieces_intercalate (h : ∀ t ∈ tokens, t.Rereads) :
    (pieces ([' '].intercalate (tokens.map fun t => t.text.toList))).map Piece.bare =
      tokens.map Token.piece ++ [⟨[], [], .token .eof none⟩] := by
  induction tokens with
  | nil => rw [List.map_nil, List.intercalate_nil, pieces_of_rest_eq_nil rfl]; rfl
  | cons t tokens ih =>
    have ht := h t (List.mem_cons_self ..)
    have hrest := ih fun u hu => h u (List.mem_cons_of_mem _ hu)
    by_cases hnil : tokens = []
    · subst hnil
      rw [List.map_cons, List.map_nil, List.intercalate_singleton, ht.pieces_eq,
        pieces_of_rest_eq_nil rfl]
      rfl
    · rw [List.map_cons, List.intercalate_cons_of_ne_nil (by simpa using hnil), List.append_assoc,
        List.singleton_append, ht.pieces_append_space, List.map_cons, bare_pieces_space, hrest]
      rfl

/-! ## Scanning the joined texts -/

/-- A byte order mark is no token and starts none. -/
theorem Token.Rereads.head?_ne_mark (h : t.Rereads) : t.text.toList.head? ≠ some byteOrderMark := by
  intro hhead
  obtain ⟨tail, htail⟩ := List.head?_eq_some_iff.1 hhead
  have hread := h.read
  rw [htail, reading_symbol (by decide) (by decide) (by decide) (by decide), symbolReading] at hread
  split at hread
  · next spelling kind hs =>
    have key : ∀ entry ∈ symbolTable, byteOrderMark ∉ entry.1.toList := by decide +kernel
    rw [taken_of_symbolAt? hs] at hread
    have htaken : spelling.toList = byteOrderMark :: tail := congrArg (·.taken) hread
    exact key _ (List.mem_of_find?_eq_some hs) (by rw [htaken]; exact List.mem_cons_self ..)
  · cases congrArg Reading.finding hread

/-- The texts of tokens joined by blanks do not start with a byte order mark. -/
theorem cutMark_intercalate (h : ∀ t ∈ tokens, t.Rereads) :
    cutMark ([' '].intercalate (tokens.map fun t => t.text.toList)) =
      .empty ([' '].intercalate (tokens.map fun t => t.text.toList)) := by
  refine if_neg ?_
  cases tokens with
  | nil => nofun
  | cons t tokens =>
    have ht := h t (List.mem_cons_self ..)
    obtain ⟨more, hmore⟩ : ∃ more, [' '].intercalate ((t :: tokens).map fun t => t.text.toList) =
        t.text.toList ++ more := by
      by_cases hnil : tokens = []
      · exact ⟨[], by simp [hnil]⟩
      · rw [List.map_cons, List.intercalate_cons_of_ne_nil (by simpa using hnil), List.append_assoc]
        exact ⟨_, rfl⟩
    obtain ⟨c, tail, htext⟩ := List.exists_cons_of_ne_nil ht.ne_nil
    have hc := ht.head?_ne_mark
    rw [hmore, htext, List.cons_append, List.head?_cons]
    rwa [htext, List.head?_cons] at hc

/-- A piece that is the one of a token up to its gap is this token, at the place of the piece. -/
theorem item_of_bare {y : Placed} (h : y.piece.bare = t.piece) :
    y.item = .ok { t with line := y.span.line, span := y.span } := by
  simp only [Piece.bare, Token.piece, Piece.mk.injEq, true_and] at h
  rw [Placed.item, h.1, h.2, Finding.item, String.ofList_toList]

/-- Pieces that are tokens give these tokens, wherever they are placed. -/
theorem items_of_bare {p : Position} {xs : List Piece}
    (h : xs.map Piece.bare = tokens.map Token.piece) :
    ∃ again : List Token, (place p xs).map Placed.item = again.map .ok ∧
      again.map Token.content = tokens.map Token.content := by
  induction xs generalizing p tokens with
  | nil =>
    cases tokens with
    | nil => exact ⟨[], rfl, rfl⟩
    | cons t tokens => cases h
  | cons x xs ih =>
    cases tokens with
    | nil => cases h
    | cons t tokens =>
      obtain ⟨hx, hxs⟩ := List.cons.inj h
      obtain ⟨again, hitems, hcontent⟩ := ih (p := p.after x.whole) hxs
      let span := Placed.span ⟨p.after x.gap, x⟩
      refine ⟨{ t with line := span.line, span := span } :: again, ?_, ?_⟩
      · rw [place, List.map_cons, hitems, List.map_cons, item_of_bare hx]
      · rw [List.map_cons, List.map_cons, hcontent]
        rfl

/-- Texts of tokens that are read again, joined by blanks, scan to these tokens. -/
theorem scan_of_rereads (h : ∀ t ∈ tokens, t.Rereads) :
    ∃ again eof, scan (" ".intercalate (tokens.map Token.text)) = .ok (again ++ [eof]) ∧
      again.map Token.content = tokens.map Token.content ∧ eof.kind = .eof := by
  have hlist : (" ".intercalate (tokens.map Token.text)).toList =
      [' '].intercalate (tokens.map fun t => t.text.toList) := by
    rw [String.toList_intercalate, List.map_map]
    rfl
  have hbare : (pieces ([' '].intercalate (tokens.map fun t => t.text.toList))).map Piece.bare =
      (tokens ++ [Token.plain .eof "" .nowhere]).map Token.piece := by
    rw [bare_pieces_intercalate h, List.map_append]
    rfl
  obtain ⟨all, hitems, hcontent⟩ := items_of_bare (p := .origin) hbare
  have hlayout : layout (" ".intercalate (tokens.map Token.text)).toList =
      place .origin (pieces ([' '].intercalate (tokens.map fun t => t.text.toList))) := by
    rw [layout, hlist, cutMark_intercalate h]
    rfl
  rw [← hlayout] at hitems
  rw [List.map_append, List.map_eq_append_iff] at hcontent
  obtain ⟨again, last, rfl, hagain, hlast⟩ := hcontent
  obtain ⟨eof, rest, rfl, heof, hrest⟩ := List.map_eq_cons_iff.1 hlast
  obtain rfl := List.map_eq_nil_iff.1 hrest
  exact ⟨again, eof, (scan_of_tokens hitems).2.1, hagain, congrArg Prod.fst heof⟩

end

/-- Tokens of any source texts, in any order, are read again: joined by blanks, their texts scan to
tokens with the same kinds, texts and values, and the end token behind them. In the same way the text
of each of them, on its own, scans to this one token. -/
theorem scan_intercalate (tokens : List Token)
    (h : ∀ t ∈ tokens, t.kind ≠ .eof ∧ ∃ source, t ∈ (scanRecovering source).1) :
    (∃ again eof, scan (" ".intercalate (tokens.map Token.text)) = .ok (again ++ [eof]) ∧
      again.map Token.content = tokens.map Token.content ∧ eof.kind = .eof) ∧
    ∀ t ∈ tokens, ∃ again eof, scan t.text = .ok [again, eof] ∧
      again.content = t.content ∧ eof.kind = .eof := by
  have hreads : ∀ t ∈ tokens, t.Rereads := by
    intro t ht
    obtain ⟨hk, source, hmem⟩ := h t ht
    exact rereads_of_mem_scanRecovering hmem hk
  refine ⟨scan_of_rereads hreads, ?_⟩
  intro t ht
  have hone : ∀ u ∈ [t], u.Rereads := fun u hu => List.mem_singleton.1 hu ▸ hreads t ht
  obtain ⟨again, eof, hscan, hcontent, heof⟩ := scan_of_rereads hone
  obtain ⟨u, rest, rfl, hu, hrest⟩ := List.map_eq_cons_iff.1 hcontent
  obtain rfl := List.map_eq_nil_iff.1 hrest
  rw [List.map_cons, List.map_nil, String.intercalate_singleton] at hscan
  exact ⟨u, eof, hscan, hu, heof⟩

/-- Two strings, and a numeral that stood in front of a point, are read again next to each other. -/
theorem scan_intercalate_strings :
    ∃ again eof, scan "\"a\" \"b\" 1" = .ok (again ++ [eof]) ∧
      again.map Token.content = [(.string, "\"a\"", some (.string "a")),
        (.string, "\"b\"", some (.string "b")), (.number .integer, "1", some (.integer 1))] ∧
      eof.kind = .eof := by
  have htokens : ∀ t ∈ [Token.mk .string "\"a\"" (some (.string "a")) 1 ⟨0, 3, 1, 1⟩,
      Token.mk .string "\"b\"" (some (.string "b")) 1 ⟨2, 5, 1, 3⟩,
      Token.mk (.number .integer) "1" (some (.integer 1)) 1 ⟨0, 1, 1, 1⟩],
      t.kind ≠ .eof ∧ ∃ source, t ∈ (scanRecovering source).1 := by
    intro t ht
    simp only [List.mem_cons, List.not_mem_nil, or_false] at ht
    rcases ht with rfl | rfl | rfl
    · exact ⟨by decide, "\"a\"x", by rw [scanRecovering_eq]; decide +kernel⟩
    · exact ⟨by decide, "@ \"b\"", by rw [scanRecovering_eq]; decide +kernel⟩
    · exact ⟨by decide, "1.x", by rw [scanRecovering_eq]; decide +kernel⟩
  exact (scan_intercalate _ htokens).1

end BrightLexer
