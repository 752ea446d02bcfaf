import BrightLexer.Proofs.Scan.Agreement

/-!
# Every character is accounted for

`Covers` says what the tokens and the diagnostics of a scan make of a source text. Their spans are in
order, have no byte in common and lie between characters; a token has the text of its span; each
newline is a token of its own; the end token is the last one; and a character in none of the spans is
one of those that stand between tokens (`PassedOver`). `scan_covers` is that both ways to scan have
this property.

It is proved for the layout of a source text, where each character is in the gap or in the text of
exactly one piece (`exists_piece_of_textOf`).
-/

namespace BrightLexer

namespace Span

/-- Two spans have no byte in common: one of them lies before the other. -/
def Apart (s t : Span) : Prop := s.Before t ∨ t.Before s

/-- The byte at an offset lies in a span. -/
def Holds (s : Span) (offset : Nat) : Prop := s.start ≤ offset ∧ offset < s.stop

/-- A span of a text starts and stops between two characters of it. -/
def OnCharacters (s : Span) (source : List Char) : Prop :=
  ∃ a b c, source = a ++ b ++ c ∧ s.start = byteLength a ∧ s.stop = byteLength (a ++ b)

/-- Having no byte in common is symmetric. -/
theorem Apart.symm {s t : Span} (h : s.Apart t) : t.Apart s := Or.symm h

/-- A byte in one of two spans that are apart is not in the other. -/
theorem Apart.not_holds {s t : Span} {offset : Nat} (h : s.Apart t) (hs : s.Holds offset) :
    ¬ t.Holds offset := by
  intro ht
  obtain ⟨hs1, hs2⟩ := hs
  obtain ⟨ht1, ht2⟩ := ht
  rcases h with ⟨-, h⟩ | ⟨-, h⟩ <;> omega

end Span

/-- The spans of tokens and of diagnostics. -/
def spansOf (tokens : List Token) (diagnostics : List Diagnostic) : List Span :=
  tokens.map Token.span ++ diagnostics.map Diagnostic.span

/-- Behind `front` a token could start: nothing but blanks stand there behind a span, behind the
start of the source text, or behind its byte order mark. -/
def TokenBoundary (spans : List Span) (front : List Char) : Prop :=
  ∃ before blanks, front = before ++ blanks ∧ (∀ c ∈ blanks, isBlank c = true) ∧
    (before = [] ∨ before = [byteOrderMark] ∨ ∃ s ∈ spans, s.stop = byteLength before)

/-- `PassedOver spans a c b` says that `c`, with `a` before it and `b` behind it, is one of the
characters that stand between tokens: a byte order mark at the very start, a blank, or part of a
comment, which goes from where a token could start up to the end of its line. -/
inductive PassedOver (spans : List Span) : List Char → Char → List Char → Prop
  | mark (b : List Char) : PassedOver spans [] byteOrderMark b
  | blank {a b : List Char} {c : Char} : isBlank c = true → PassedOver spans a c b
  | comment {front l r back : List Char} {c : Char} : TokenBoundary spans front →
      OpensComment (l ++ c :: r ++ back) → '\n' ∉ l ++ c :: r →
      (∀ d rest, back = d :: rest → d = '\n') → PassedOver spans (front ++ l) c (r ++ back)

/-- What the tokens and the diagnostics of a scan make of the source text. -/
structure Covers (source : List Char) (tokens : List Token) (diagnostics : List Diagnostic) :
    Prop where
  /-- The tokens are in order. -/
  orderedTokens : (tokens.map Token.span).Pairwise Span.Before
  /-- The diagnostics are in order. -/
  orderedDiagnostics : (diagnostics.map Diagnostic.span).Pairwise Span.Before
  /-- No two of them all overlap. -/
  apart : (spansOf tokens diagnostics).Pairwise Span.Apart
  /-- None of them cuts a character. -/
  onCharacters : ∀ s ∈ spansOf tokens diagnostics, s.OnCharacters source
  /-- A token has the text that its span covers. -/
  text : ∀ t ∈ tokens, t.span.text? source = .ok t.text.toList
  /-- Each newline is the whole text of one token and lies in nothing else. -/
  newline : ∀ a b, source = a ++ '\n' :: b → ∃ l t r, tokens = l ++ t :: r ∧ t.kind = .newline ∧
    t.text = "\n" ∧ t.span.start = byteLength a ∧ t.span.stop = byteLength a + 1 ∧
    ∀ s ∈ spansOf (l ++ r) diagnostics, ¬ s.Holds (byteLength a)
  /-- The last token, and no other one, is the end token, empty and behind all the text. -/
  ending : ∃ front eof, tokens = front ++ [eof] ∧ (∀ t ∈ front, t.kind ≠ .eof) ∧ eof.kind = .eof ∧
    eof.text = "" ∧ eof.span.start = byteLength source ∧ eof.span.stop = byteLength source
  /-- Each character lies in exactly one of the spans, or in none and is passed over. -/
  character : ∀ a c b, source = a ++ c :: b →
    (∃ l s r, spansOf tokens diagnostics = l ++ s :: r ∧ s.Holds (byteLength a) ∧
      ∀ t ∈ l ++ r, ¬ t.Holds (byteLength a)) ∨
    (∀ s ∈ spansOf tokens diagnostics, ¬ s.Holds (byteLength a)) ∧
      PassedOver (spansOf tokens diagnostics) a c b

section
variable {spans : List Span} {source front a b : List Char} {c : Char}

/-! ## Gaps are passed over -/

/-- A token that could start before a blank could start behind it. -/
theorem TokenBoundary.blank (h : TokenBoundary spans front) (hc : isBlank c = true) :
    TokenBoundary spans (front ++ [c]) := by
  obtain ⟨before, blanks, rfl, hb, hbefore⟩ := h
  refine ⟨before, blanks ++ [c], List.append_assoc .., ?_, hbefore⟩
  intro d hd
  rcases List.mem_append.1 hd with hd | hd
  · exact hb d hd
  · rw [List.mem_singleton.1 hd]
    exact hc

/-- The characters of a gap that starts where a token could start are passed over. -/
theorem Gap.passedOver {gap l r rest : List Char} (h : Gap gap rest) (hg : gap = l ++ c :: r)
    (hb : TokenBoundary spans front) : PassedOver spans (front ++ l) c (r ++ rest) := by
  induction h generalizing l front with
  | nil => simp at hg
  | @blank d gap rest hd _ ih =>
    cases l with
    | nil =>
      obtain ⟨rfl, -⟩ := List.cons.inj hg
      exact .blank hd
    | cons e l =>
      obtain ⟨rfl, hgap⟩ := List.cons.inj hg
      have h := ih hgap (hb.blank hd)
      rwa [List.append_assoc] at h
  | comment ho hn hrest =>
    subst hg
    exact .comment hb ho hn hrest

/-- A character of a text in two parts lies in one of them. -/
theorem cons_split {u v : List Char} (h : u ++ v = a ++ c :: b) :
    (∃ r, u = a ++ c :: r ∧ b = r ++ v) ∨ ∃ l, a = u ++ l ∧ v = l ++ c :: b := by
  rcases List.append_eq_append_iff.1 h with ⟨l, rfl, rfl⟩ | ⟨r, rfl, hr⟩
  · exact .inr ⟨l, rfl, rfl⟩
  · cases r with
    | nil => exact .inr ⟨[], by simp, hr.symm⟩
    | cons d r =>
      obtain ⟨rfl, rfl⟩ := List.cons.inj hr
      exact .inl ⟨r, rfl, rfl⟩

/-- A character of some pieces lies in the gap or in the text of one of them. -/
theorem exists_piece_of_textOf {xs : List Piece} (h : textOf xs = a ++ c :: b) :
    ∃ before x after, xs = before ++ x :: after ∧
      ((∃ l r, x.gap = l ++ c :: r ∧ a = textOf before ++ l ∧ b = r ++ (x.text ++ textOf after)) ∨
        ∃ l r, x.text = l ++ c :: r ∧ a = textOf before ++ x.gap ++ l ∧ b = r ++ textOf after) := by
  induction xs generalizing a with
  | nil => simp at h
  | cons x xs ih =>
    rw [textOf_cons, Piece.whole, List.append_assoc] at h
    rcases cons_split h with ⟨r, hgap, rfl⟩ | ⟨l, rfl, hbehind⟩
    · exact ⟨[], x, xs, rfl, .inl ⟨a, r, hgap, rfl, rfl⟩⟩
    rcases cons_split hbehind with ⟨r, htext, rfl⟩ | ⟨m, rfl, hrest⟩
    · exact ⟨[], x, xs, rfl, .inr ⟨l, r, htext, rfl, rfl⟩⟩
    obtain ⟨before, y, after, rfl, hy⟩ := ih hrest
    refine ⟨x :: before, y, after, rfl, ?_⟩
    simpa [Piece.whole] using hy

/-- A token could start where the gap of a piece starts. -/
theorem tokenBoundary_frontOf {before after : List Piece} {x : Piece}
    (hp : pieces (cutMark source).rest = before ++ x :: after)
    (hs : ∀ y ∈ layout source, y.span ∈ spans) : TokenBoundary spans (frontOf source before) := by
  refine ⟨frontOf source before, [], by simp, by simp, ?_⟩
  rcases List.eq_nil_or_concat before with rfl | ⟨before, y, rfl⟩
  · rw [frontOf, textOf_nil, List.append_nil]
    rcases taken_cutMark source with h | h
    · exact .inl h
    · exact .inr (.inl h)
  · rw [List.concat_eq_append, List.append_assoc, List.singleton_append] at hp
    refine .inr (.inr ⟨_, hs _ (placed_mem_layout hp), ?_⟩)
    simp [stop_span_mk, frontOf, Piece.whole, Nat.add_assoc]

/-- A character of a source text is its byte order mark, or lies in the gap or in the text of one of
its pieces. -/
theorem exists_piece (h : source = a ++ c :: b) :
    (a = [] ∧ c = byteOrderMark) ∨
      ∃ before x after, pieces (cutMark source).rest = before ++ x :: after ∧
        ((∃ l r, x.gap = l ++ c :: r ∧ a = frontOf source before ++ l ∧
            b = r ++ (x.text ++ textOf after)) ∨
          ∃ l r, x.text = l ++ c :: r ∧ a = frontOf source before ++ x.gap ++ l ∧
            b = r ++ textOf after) := by
  have hw : (cutMark source).taken ++ (cutMark source).rest = a ++ c :: b :=
    (whole_cutMark source).trans h
  rcases cons_split hw with ⟨r, htaken, -⟩ | ⟨l, rfl, hrest⟩
  · refine .inl ?_
    rcases taken_cutMark source with hm | hm
    · rw [hm] at htaken
      simp at htaken
    · rw [hm] at htaken
      rcases List.singleton_eq_append_iff.1 htaken with ⟨ha, hc⟩ | ⟨-, hc⟩
      · exact ⟨ha, (List.cons.inj hc).1⟩
      · cases hc
  · refine .inr ?_
    obtain ⟨before, x, after, hp, hx⟩ := exists_piece_of_textOf ((textOf_pieces _).trans hrest)
    refine ⟨before, x, after, hp, ?_⟩
    simpa [frontOf] using hx

/-! ## The spans of a layout -/

/-- The span of a piece is where its text stands. -/
theorem span_of_mem_layout {y : Placed} (h : y ∈ layout source) :
    ∃ a c, source = a ++ y.piece.text ++ c ∧
      y.span = .between (Position.origin.after a) (Position.origin.after (a ++ y.piece.text)) := by
  obtain ⟨before, after, hp, hs⟩ := mem_layout h
  refine ⟨frontOf source before ++ y.piece.gap, textOf after, source_eq hp, ?_⟩
  rw [Placed.span, hs, Position.after_append _ (_ ++ _)]

/-- The span of a piece starts and stops between characters. -/
theorem onCharacters_of_mem_layout {y : Placed} (h : y ∈ layout source) :
    y.span.OnCharacters source := by
  obtain ⟨a, c, hsource, hspan⟩ := span_of_mem_layout h
  refine ⟨a, y.piece.text, c, hsource, ?_, ?_⟩
  · simp [hspan, Span.between, Position.origin]
  · simp [hspan, Span.between, Position.origin]

/-- The source text has at the span of a piece the text of the piece. -/
theorem text?_of_mem_layout {y : Placed} (h : y ∈ layout source) :
    y.span.text? source = .ok y.piece.text := by
  obtain ⟨a, c, hsource, hspan⟩ := span_of_mem_layout h
  rw [hspan, hsource]
  exact Span.text?_between a y.piece.text c

/-- The spans of the tokens and of the diagnostics are those of the pieces. -/
theorem perm_spansOf (xs : List Placed) :
    (spansOf (xs.filterMap Placed.token?) (xs.filterMap Placed.diagnostic?)).Perm
      (xs.map Placed.span) := by
  induction xs with
  | nil => exact .nil
  | cons x xs ih =>
    rw [spansOf] at ih ⊢
    rcases hx : x.item with fault | token
    · have ht : x.token? = none := by rw [Placed.token?, hx]; rfl
      have hd : x.diagnostic? = some (fault.diagnostic x.span) := by rw [Placed.diagnostic?, hx]
      rw [List.filterMap_cons_none ht, List.filterMap_cons_some hd, List.map_cons, List.map_cons]
      exact List.perm_middle.trans (ih.cons _)
    · have ht : x.token? = some token := by rw [Placed.token?, hx]; rfl
      have hd : x.diagnostic? = none := by rw [Placed.diagnostic?, hx]
      rw [List.filterMap_cons_some ht, List.filterMap_cons_none hd, List.map_cons, List.map_cons,
        Placed.span_of_token? ht]
      exact ih.cons _

/-- The spans of the tokens and the diagnostics are those of the pieces in their places. -/
theorem mem_spansOf_layout {s : Span} :
    s ∈ spansOf ((layout source).filterMap Placed.token?)
      ((layout source).filterMap Placed.diagnostic?) ↔ ∃ y ∈ layout source, y.span = s := by
  rw [(perm_spansOf _).mem_iff, List.mem_map]

/-- No two of the tokens and the diagnostics of a source text have a byte in common. -/
theorem apart_layout (source : List Char) :
    (spansOf ((layout source).filterMap Placed.token?)
      ((layout source).filterMap Placed.diagnostic?)).Pairwise Span.Apart := by
  refine ((perm_spansOf _).pairwise_iff Span.Apart.symm).2 (List.pairwise_map.2 ?_)
  exact (pairwise_layout source).imp Or.inl

/-- A span that holds a byte is the only one of some spans apart that does. -/
theorem not_holds_of_pairwise {l r : List Span} {s : Span} {offset : Nat}
    (h : (l ++ s :: r).Pairwise Span.Apart) (hs : s.Holds offset) :
    ∀ t ∈ l ++ r, ¬ t.Holds offset := by
  intro t ht
  rw [List.pairwise_middle Span.Apart.symm, List.pairwise_cons] at h
  exact (h.1 t ht).not_holds hs

/-! ## Both ways to scan cover the source text -/

/-- A newline is a piece of its own. -/
theorem newline_in_layout (h : source = a ++ '\n' :: b) :
    ∃ front y back, layout source = front ++ y :: back ∧ y.piece.text = ['\n'] ∧
      y.piece.finding = .token .newline none ∧ y.span.start = byteLength a ∧
      y.span.stop = byteLength a + 1 := by
  rcases exists_piece h with ⟨-, hc⟩ | ⟨before, x, after, hp, ⟨l, r, hgap, -, -⟩ | ⟨l, r, ht, ha, -⟩⟩
  · exact absurd hc (by decide)
  · exact absurd (hgap ▸ by simp) (piece_spec hp).1.newline_not_mem
  · obtain ⟨-, -, hr⟩ := piece_spec hp
    have hmem : '\n' ∈ (reading (x.text ++ textOf after)).taken := by rw [hr, ht]; simp
    obtain ⟨rest, hrest⟩ := eq_newline_of_mem_taken hmem
    rw [hrest, reading_newline] at hr
    obtain ⟨gap, text, finding⟩ := x
    cases hr
    have hl : l = [] := by
      rcases List.singleton_eq_append_iff.1 ht with ⟨hl, -⟩ | ⟨-, h⟩
      · exact hl
      · cases h
    rw [hl, List.append_nil] at ha
    refine ⟨_, _, _, layout_eq hp, rfl, rfl, ?_, ?_⟩
    · rw [start_span_mk, ha]
    · rw [stop_span_mk, ha]
      rfl

/-- The last piece is the end token, at the end of the source text. -/
theorem eof_in_layout (source : List Char) :
    ∃ front y, layout source = front ++ [y] ∧ (∀ x ∈ front, ∀ value,
        x.piece.finding ≠ .token .eof value) ∧ y.piece.text = [] ∧
      y.piece.finding = .token .eof none ∧ y.span.start = byteLength source ∧
      y.span.stop = byteLength source := by
  obtain ⟨front, gap, hp, hf⟩ := pieces_eq_append_eof (cutMark source).rest
  have hlen : byteLength source = byteLength (frontOf source front ++ gap) := by
    have hsource := source_eq hp
    rw [textOf_nil, List.append_nil, List.append_nil] at hsource
    exact congrArg byteLength hsource
  refine ⟨_, _, layout_eq hp, ?_, rfl, rfl, ?_, ?_⟩
  · intro x hx
    obtain ⟨before, after, hfront, -⟩ := mem_place hx
    exact (hf x.piece (by rw [hfront]; simp)).2
  · rw [start_span_mk, hlen]
  · rw [stop_span_mk, hlen]
    rfl

/-- A character lies in the text of a piece, or it is passed over. -/
theorem held_or_passedOver (h : source = a ++ c :: b) (hs : ∀ y ∈ layout source, y.span ∈ spans) :
    (∃ s ∈ spans, s.Holds (byteLength a)) ∨ PassedOver spans a c b := by
  rcases exists_piece h with ⟨rfl, rfl⟩ | ⟨before, x, after, hp, hx⟩
  · exact .inr (.mark b)
  rcases hx with ⟨l, r, hgap, rfl, rfl⟩ | ⟨l, r, htext, rfl, -⟩
  · exact .inr ((piece_spec hp).1.passedOver hgap (tokenBoundary_frontOf hp hs))
  · have hpos := c.utf8Size_pos
    refine .inl ⟨_, hs _ (placed_mem_layout hp), ?_, ?_⟩
    · rw [start_span_mk, byteLength_append _ l]
      exact Nat.le_add_right ..
    · rw [stop_span_mk, htext, byteLength_append _ l, byteLength_append l, byteLength_cons]
      omega

/-- The tokens and the diagnostics in the layout of a source text account for all of its characters. -/
theorem covers_layout (source : List Char) :
    Covers source ((layout source).filterMap Placed.token?)
      ((layout source).filterMap Placed.diagnostic?) where
  orderedTokens := by
    rw [List.pairwise_map, List.pairwise_filterMap]
    refine (pairwise_layout source).imp ?_
    intro x y hxy t ht u hu
    rwa [Placed.span_of_token? ht, Placed.span_of_token? hu]
  orderedDiagnostics := by
    rw [List.pairwise_map, List.pairwise_filterMap]
    refine (pairwise_layout source).imp ?_
    intro x y hxy d hd e he
    rwa [Placed.span_of_diagnostic? hd, Placed.span_of_diagnostic? he]
  apart := apart_layout source
  onCharacters := by
    intro s hs
    obtain ⟨y, hy, rfl⟩ := mem_spansOf_layout.1 hs
    exact onCharacters_of_mem_layout hy
  text := by
    intro t ht
    obtain ⟨y, hy, hyt⟩ := List.mem_filterMap.1 ht
    obtain ⟨kind, value, -, rfl⟩ := Placed.token?_eq_some_iff.1 hyt
    rw [text?_of_mem_layout hy, String.toList_ofList]
  newline := by
    intro a b h
    obtain ⟨front, y, back, hl, htext, hf, hstart, hstop⟩ := newline_in_layout h
    have ht : y.token? = some ⟨.newline, "\n", none, y.span.line, y.span⟩ := by
      rw [Placed.token?_of_finding hf, htext]
    refine ⟨_, _, _, by rw [hl, List.filterMap_append, List.filterMap_cons_some ht], rfl, rfl,
      hstart, hstop, ?_⟩
    have hp := apart_layout source
    rw [hl, List.filterMap_append, List.filterMap_cons_some ht, spansOf, List.map_append,
      List.map_cons, List.append_assoc, List.cons_append] at hp
    have hholds : y.span.Holds (byteLength a) := by
      rw [Span.Holds, hstart, hstop]
      omega
    have hn := not_holds_of_pairwise hp hholds
    rwa [spansOf, List.map_append, List.append_assoc, hl]
  ending := by
    obtain ⟨front, y, hl, hfront, htext, hf, hstart, hstop⟩ := eof_in_layout source
    have ht : y.token? = some ⟨.eof, "", none, y.span.line, y.span⟩ := by
      rw [Placed.token?_of_finding hf, htext]
    refine ⟨_, _, by rw [hl, List.filterMap_append, List.filterMap_cons_some ht, List.filterMap_nil],
      ?_, rfl, rfl, hstart, hstop⟩
    intro t hmem hk
    obtain ⟨x, hx, hxt⟩ := List.mem_filterMap.1 hmem
    obtain ⟨kind, value, hxf, rfl⟩ := Placed.token?_eq_some_iff.1 hxt
    cases hk
    exact hfront x hx value hxf
  character := by
    intro a c b h
    have hspans : ∀ y ∈ layout source, y.span ∈ spansOf _ _ :=
      fun y hy => mem_spansOf_layout.2 ⟨y, hy, rfl⟩
    by_cases hheld : ∃ s ∈ spansOf ((layout source).filterMap Placed.token?)
        ((layout source).filterMap Placed.diagnostic?), s.Holds (byteLength a)
    · obtain ⟨s, hs, hoff⟩ := hheld
      obtain ⟨l, r, hlr⟩ := List.append_of_mem hs
      exact .inl ⟨l, s, r, hlr, hoff, not_holds_of_pairwise (hlr ▸ apart_layout source) hoff⟩
    · exact .inr ⟨fun s hs hoff => hheld ⟨s, hs, hoff⟩,
        (held_or_passedOver h hspans).resolve_left hheld⟩

end

/-- What a scan with recovery gives covers the source text, and so do the tokens of a scan without
recovery that succeeds. -/
theorem scan_covers (source : String) :
    Covers source.toList (scanRecovering source).1 (scanRecovering source).2 ∧
      ∀ tokens, scan source = .ok tokens → Covers source.toList tokens [] := by
  have hc := covers_layout source.toList
  refine ⟨by rwa [scanRecovering_eq], ?_⟩
  intro tokens h
  rcases tokens_or_first_fault (layout source.toList) with
    ⟨all, ha⟩ | ⟨front, x, back, before, fault, hl, ht, hx⟩
  · obtain ⟨-, hs, -⟩ := scan_of_tokens ha
    obtain ⟨h1, h2⟩ := filterMap_of_tokens ha
    cases hs.symm.trans h
    rwa [h1, h2] at hc
  · cases (scan_of_fault hl ht hx).2.1.symm.trans h

/-- A comment is in no token, and the newline behind it is one. -/
theorem scan_covers_comment :
    ∃ tokens, scan "rem x\ny" = .ok tokens ∧ tokens.map Token.kind = [.newline, .identifier, .eof] ∧
      Covers "rem x\ny".toList tokens [] := by
  have hl : layout "rem x\ny".toList =
      [⟨⟨5, 1, 6⟩, ⟨"rem x".toList, ['\n'], .token .newline none⟩⟩,
        ⟨⟨6, 2, 1⟩, ⟨[], ['y'], .token .identifier none⟩⟩,
        ⟨⟨7, 2, 2⟩, ⟨[], [], .token .eof none⟩⟩] := by
    decide +kernel
  have h : scan "rem x\ny" = .ok [⟨.newline, "\n", none, 1, ⟨5, 6, 1, 6⟩⟩,
      ⟨.identifier, "y", none, 2, ⟨6, 7, 2, 1⟩⟩, ⟨.eof, "", none, 2, ⟨7, 7, 2, 2⟩⟩] := by
    refine (scan_of_tokens ?_).2.1
    rw [hl]
    rfl
  exact ⟨_, h, rfl, (scan_covers "rem x\ny").2 _ h⟩

end BrightLexer
