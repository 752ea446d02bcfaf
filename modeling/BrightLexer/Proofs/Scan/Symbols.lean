import BrightLexer.Proofs.Scan.TokenStart
import Mathlib.Data.List.Nodup

/-!
# Operators and punctuation

A sign is an operator or a punctuation mark, with the kind of its tokens (`IsSign`). Where a character
stands that is left to signs, the longest sign at the front of the text is the token
(`Lexer.StartsAt.finds_sign`), and where there is none the character alone is reported and passed over
(`Lexer.StartsAt.finds_unexpectedChar`). The table of signs is searched in its order, and the first that
fits is the longest one, since none is longer than one listed before it (`longestSign_of_symbolAt?`).

`nextToken_sign` puts this together, with the converse for the reported characters: each of them is left
to signs, and no sign is at the front of the text where it stands.
-/

namespace BrightLexer

/-- How a sign is written, and the kind of its tokens. The question mark is another way to write
`print`. -/
inductive IsSign : List Char → Kind → Prop
  | symbol (s : Symbol) : IsSign s.spelling.toList (.symbol s)
  | questionMark : IsSign ['?'] (.keyword .print)

/-- The longest sign at the front of a text. -/
structure LongestSign (cs sign : List Char) (kind : Kind) : Prop where
  /-- It is a sign of this kind. -/
  isSign : IsSign sign kind
  /-- The text starts with it. -/
  ahead : sign <+: cs
  /-- The text starts with no longer one. -/
  longest : ∀ other k, IsSign other k → other <+: cs → other.length ≤ sign.length

/-- No sign is at the front of a text. -/
def NoSign (cs : List Char) : Prop := ∀ sign kind, IsSign sign kind → ¬ sign <+: cs

/-- A character that is left to signs: it is no blank and no line end, opens no comment and no quoted
text, and starts neither a numeral nor a word. -/
def LeftToSigns (c : Char) : Prop :=
  c ∉ [' ', '\t', '\r', '\n', '"', '\''] ∧ c.isDigit = false ∧ isWordStart c = false

section
variable {cs sign other gap : List Char} {kind k : Kind} {c : Char} {l : Lexer}

/-! ## The table -/

/-- The signs are the entries of the table. -/
theorem isSign_iff :
    IsSign sign kind ↔ ∃ entry ∈ symbolTable, entry.1.toList = sign ∧ entry.2 = kind := by
  constructor
  · intro h
    cases h with
    | symbol s =>
      refine ⟨_, List.mem_append_left _ (List.mem_map_of_mem (a := s) ?_), rfl, rfl⟩
      cases s <;> decide
    | questionMark => exact ⟨_, List.mem_append_right _ (List.mem_singleton_self _), rfl, rfl⟩
  · rintro ⟨entry, hmem, rfl, rfl⟩
    rcases List.mem_append.1 hmem with hsymbol | hmark
    · obtain ⟨s, -, rfl⟩ := List.mem_map.1 hsymbol
      exact .symbol s
    · obtain rfl := List.mem_singleton.1 hmark
      exact .questionMark

/-- Signs of one kind are one sign. -/
theorem IsSign.eq_of_kind (h : IsSign sign kind) (ho : IsSign other kind) : sign = other := by
  cases h with
  | symbol s =>
    cases ho with
    | symbol => rfl
  | questionMark =>
    cases ho with
    | questionMark => rfl

/-- A sign has one kind. -/
theorem IsSign.kind_eq (h : IsSign sign kind) (ho : IsSign sign k) : kind = k := by
  have hnodup : (symbolTable.map Prod.fst).Nodup := by decide +kernel
  obtain ⟨entry, hmem, hsign, rfl⟩ := isSign_iff.1 h
  obtain ⟨entry', hmem', hsign', rfl⟩ := isSign_iff.1 ho
  have hspelling : entry.1 = entry'.1 := String.toList_inj.1 (hsign.trans hsign'.symm)
  rw [List.inj_on_of_nodup_map hnodup hmem hmem' hspelling]

/-- There is at most one longest sign at the front of a text. -/
theorem LongestSign.unique (h : LongestSign cs sign kind) (ho : LongestSign cs other k) :
    other = sign ∧ k = kind := by
  have hlength : other.length = sign.length :=
    Nat.le_antisymm (h.longest _ _ ho.isSign ho.ahead) (ho.longest _ _ h.isSign h.ahead)
  obtain rfl : other = sign := by
    rw [List.prefix_iff_eq_take.1 ho.ahead, hlength, ← List.prefix_iff_eq_take.1 h.ahead]
  exact ⟨rfl, ho.isSign.kind_eq h.isSign⟩

/-- What is found in the table is the longest sign. -/
theorem longestSign_of_symbolAt? {entry : String × Kind} (h : symbolAt? cs = some entry) :
    LongestSign cs entry.1.toList entry.2 := by
  obtain ⟨hahead, before, after, htable, hlate⟩ := List.find?_eq_some_iff_append.1 h
  refine ⟨isSign_iff.2 ⟨entry, List.mem_of_find?_eq_some h, rfl, rfl⟩,
    List.isPrefixOf_iff_prefix.1 hahead, ?_⟩
  intro other k ho hp
  obtain ⟨entry', hmem, rfl, rfl⟩ := isSign_iff.1 ho
  have hsorted := symbolTable_longest_first
  rw [htable] at hmem hsorted
  rcases List.mem_append.1 hmem with hbefore | hafter
  · -- An entry before the one that is found does not fit.
    have hmiss := hlate entry' hbefore
    rw [List.isPrefixOf_iff_prefix.2 hp] at hmiss
    cases hmiss
  · rw [String.length_toList, String.length_toList]
    rcases List.mem_cons.1 hafter with rfl | hafter
    · exact Nat.le_refl _
    · exact List.rel_of_pairwise_cons (List.pairwise_append.1 hsorted).2.1 hafter

/-- No symbol is found just where no sign stands. -/
theorem symbolAt?_eq_none_iff : symbolAt? cs = none ↔ NoSign cs := by
  constructor
  · intro h sign kind hs hp
    obtain ⟨entry, hmem, rfl, rfl⟩ := isSign_iff.1 hs
    exact List.find?_eq_none.1 h entry hmem (List.isPrefixOf_iff_prefix.2 hp)
  · intro h
    refine List.find?_eq_none.2 fun entry hmem hp => ?_
    exact h _ _ (isSign_iff.2 ⟨entry, hmem, rfl, rfl⟩) (List.isPrefixOf_iff_prefix.1 hp)

/-! ## Where signs are read -/

namespace LeftToSigns

/-- What is left to the signs is no blank. -/
theorem isBlank_eq_false (h : LeftToSigns c) : isBlank c = false := by
  refine Bool.eq_false_iff.2 fun hb => h.1 ?_
  rcases isBlank_iff.1 hb with rfl | rfl | rfl
  all_goals decide

/-- Nothing is passed over before a character that is left to signs. -/
theorem cutTrivia_eq (h : LeftToSigns c) (cs : List Char) :
    cutTrivia (c :: cs) = .empty (c :: cs) := by
  refine cutTrivia_of_head h.isBlank_eq_false ?_ (fun hr => ?_) cs
  · rintro rfl
    exact h.1 (by decide)
  · have hw : isWordStart c = true := by
      rw [isWordStart, isAlpha_of_toLower hr (by decide), Bool.true_or]
    rw [h.2.2] at hw
    cases hw

/-- What is left to the signs is read as a sign. -/
theorem reading_eq (h : LeftToSigns c) (cs : List Char) :
    reading (c :: cs) = symbolReading (c :: cs) := by
  refine reading_symbol ?_ ?_ h.2.1 h.2.2 cs
  all_goals
    rintro rfl
    exact h.1 (by decide)

end LeftToSigns

/-- A character that is reported is left to signs, and no sign is there. -/
theorem noSign_of_unexpectedChar (hcs : cutTrivia cs = .empty cs)
    (h : (reading cs).finding = .fault (.unexpectedChar c)) :
    ∃ r, cs = c :: r ∧ LeftToSigns c ∧ NoSign (c :: r) := by
  cases cs with
  | nil => cases h
  | cons d r =>
    rcases reading_fault_cases h with ⟨-, hcause⟩ | ⟨-, hfault⟩ | ⟨hn, hq, hd, hw, hs, hcause⟩
    · cases hcause
    · obtain ⟨_, -, hcause⟩ := Numeral.finding_eq_fault_iff.1 hfault
      cases hcause
    · cases hcause
      obtain ⟨ho, hb⟩ := cutTrivia_eq_empty_iff.1 hcs
      refine ⟨r, rfl, ⟨fun hmem => ?_, hd, hw⟩, symbolAt?_eq_none_iff.1 hs⟩
      simp only [List.mem_cons, List.not_mem_nil, or_false] at hmem
      rcases hmem with rfl | rfl | rfl | rfl | rfl | rfl
      · cases hb
      · cases hb
      · cases hb
      · exact hn rfl
      · exact hq rfl
      · cases ho

namespace Lexer

/-- The longest sign is the token. -/
theorem StartsAt.finds_sign (h : l.StartsAt gap (c :: cs)) (hc : LeftToSigns c)
    (hs : LongestSign (c :: cs) sign kind) : l.Finds gap sign (.token kind none) := by
  cases hat : symbolAt? (c :: cs) with
  | none => exact absurd hs.ahead (symbolAt?_eq_none_iff.1 hat _ _ hs.isSign)
  | some entry =>
    obtain ⟨rfl, rfl⟩ := (longestSign_of_symbolAt? hat).unique hs
    refine h.finds_of_reading ((c :: cs).drop entry.1.toList.length) (hc.cutTrivia_eq cs) ?_
    rw [hc.reading_eq]
    exact symbolReading_of_some hat

/-- Where no sign is, the character is reported, and no more than it is passed over. -/
theorem StartsAt.finds_unexpectedChar (h : l.StartsAt gap (c :: cs)) (hc : LeftToSigns c)
    (hs : NoSign (c :: cs)) : l.Finds gap [c] (.fault (.unexpectedChar c)) := by
  refine h.finds_of_reading cs (hc.cutTrivia_eq cs) ?_
  rw [hc.reading_eq, symbolReading_of_none (symbolAt?_eq_none_iff.2 hs)]

end Lexer

/-- Where some sign stands, there is a longest one. -/
theorem exists_longestSign (hs : IsSign sign kind) (hp : sign <+: cs) :
    ∃ longest k, LongestSign cs longest k := by
  cases hat : symbolAt? cs with
  | none => exact absurd hp (symbolAt?_eq_none_iff.1 hat _ _ hs)
  | some entry => exact ⟨_, _, longestSign_of_symbolAt? hat⟩

end

/-- Signs are matched longest first. At the start of a token, before a character that is left to signs,
the longest sign at the front of the text is the token, if there is any, and the cursor is left behind it;
if there is none, the character is reported, and the cursor is left behind it alone. Different signs have
different kinds. No character is reported anywhere else. -/
theorem nextToken_sign :
    (∀ (l : Lexer) (gap : List Char) (c : Char) (cs : List Char), LeftToSigns c →
      l.StartsAt gap (c :: cs) →
      (∀ other k, IsSign other k → other <+: c :: cs →
        ∃ sign kind, LongestSign (c :: cs) sign kind ∧ l.Finds gap sign (.token kind none) ∧
          c :: cs = sign ++ l.nextToken.2.rest) ∧
      (NoSign (c :: cs) →
        l.Finds gap [c] (.fault (.unexpectedChar c)) ∧ l.nextToken.2.rest = cs)) ∧
    (∀ (sign other : List Char) (kind k : Kind), IsSign sign kind → IsSign other k →
      (sign = other ↔ kind = k)) ∧
    ∀ (l : Lexer) (fault : Fault) (c : Char), l.nextToken.1 = .error fault →
      fault.cause = .unexpectedChar c →
      ∃ gap cs, l.StartsAt gap (c :: cs) ∧ LeftToSigns c ∧ NoSign (c :: cs) ∧
        l.Finds gap [c] (.fault (.unexpectedChar c)) := by
  refine ⟨?_, ?_, ?_⟩
  · intro l gap c cs hc h
    refine ⟨fun other k hother hp => ?_, fun hnone => ?_⟩
    · obtain ⟨sign, kind, hlongest⟩ := exists_longestSign hother hp
      have hfinds := h.finds_sign hc hlongest
      exact ⟨sign, kind, hlongest, hfinds, hfinds.rest_eq h⟩
    · have hfinds := h.finds_unexpectedChar hc hnone
      exact ⟨hfinds, (List.cons.inj (hfinds.rest_eq h)).2.symm⟩
  · intro sign other kind k hs ho
    constructor
    · rintro rfl
      exact hs.kind_eq ho
    · rintro rfl
      exact hs.eq_of_kind ho
  · intro l fault c herror hcause
    obtain ⟨gap, rest, h, hrest, hfinding⟩ := Lexer.exists_reading_of_fault herror
    rw [hcause] at hfinding
    obtain ⟨cs, rfl, hc, hnone⟩ := noSign_of_unexpectedChar hrest hfinding
    exact ⟨gap, cs, h, hc, hnone, h.finds_unexpectedChar hc hnone⟩

/-- A run of signs is cut where the longest one ends, and a character of several bytes is reported
alone. -/
theorem nextToken_sign_greedy :
    (Lexer.ofSource "<<=>").Finds [] "<<=".toList (.token (.symbol .leftShiftEqual) none) ∧
      (Lexer.ofSource "€€").Finds [] ['€'] (.fault (.unexpectedChar '€')) ∧
      LeftToSigns '€' := by
  obtain ⟨hsigns, -, hreported⟩ := nextToken_sign
  have hless : LeftToSigns '<' := ⟨by decide, rfl, rfl⟩
  have heuro : LeftToSigns '€' := ⟨by decide, rfl, rfl⟩
  refine ⟨?_, ?_⟩
  · obtain ⟨sign, kind, hlongest, hfinds, -⟩ := (hsigns (.ofSource "<<=>") [] '<' ['<', '=', '>'] hless
      ⟨rfl, .nil _⟩).1 _ _ (.symbol .leftShiftEqual) ⟨['>'], rfl⟩
    have hat : symbolAt? ['<', '<', '=', '>'] = some ("<<=", .symbol .leftShiftEqual) := rfl
    obtain ⟨rfl, rfl⟩ := (longestSign_of_symbolAt? hat).unique hlongest
    exact hfinds
  · have hnone : NoSign ['€', '€'] := symbolAt?_eq_none_iff.1 rfl
    obtain ⟨hfinds, -⟩ := (hsigns (.ofSource "€€") [] '€' ['€'] heuro ⟨rfl, .nil _⟩).2 hnone
    obtain ⟨-, -, -, hc, -⟩ := hreported _ _ _ hfinds.item rfl
    exact ⟨hfinds, hc⟩

end BrightLexer
