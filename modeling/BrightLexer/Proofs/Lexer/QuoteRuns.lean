import BrightLexer.Proofs.Lexer.Lookahead
import Mathlib.Data.Nat.Find

/-!
# Runs of quotes

In a quoted text every quote is written twice, and a quote that stands alone ends it. So what a reader
makes of a line is a matter of its runs of quotes. If all of them are even, the line is a text with its
quotes doubled and nothing closes it (`EvenRuns.exists_doubleQuotes`). Otherwise there is a first run
that is odd (`exists_firstOddRun`): what stands before it is a text with its quotes doubled
(`FirstOddRun.evenRuns`), and the last quote of the run is the one that stands alone.

`cutQuotationBody_closing` and `cutQuotationBody_open` are the two ways a quoted text is read, from a
text with its quotes doubled; `doubleQuotes_of_content` is the way back.
-/

namespace BrightLexer

/-- A text with each quote written twice. -/
def doubleQuotes (cs : List Char) : List Char :=
  cs.flatMap fun c => if c = '"' then ['"', '"'] else [c]

/-- A text between quotes, with each quote in it written twice. -/
def stringForm (cs : List Char) : List Char := '"' :: doubleQuotes cs ++ ['"']

section
variable {c : Char} {n : Nat} {cs s before behind rest : List Char}

@[simp] theorem doubleQuotes_nil : doubleQuotes [] = [] := rfl

@[simp] theorem doubleQuotes_quote (cs : List Char) :
    doubleQuotes ('"' :: cs) = '"' :: '"' :: doubleQuotes cs := rfl

/-- A character that is no quote stays single. -/
theorem doubleQuotes_cons (h : c ≠ '"') (cs : List Char) :
    doubleQuotes (c :: cs) = c :: doubleQuotes cs := by
  rw [doubleQuotes, List.flatMap_cons, if_neg h]
  rfl

/-- Quotes are doubled part by part. -/
theorem doubleQuotes_append (cs ds : List Char) :
    doubleQuotes (cs ++ ds) = doubleQuotes cs ++ doubleQuotes ds :=
  List.flatMap_append

/-- A run of quotes becomes twice as long. -/
theorem doubleQuotes_replicate (n : Nat) :
    doubleQuotes (List.replicate n '"') = List.replicate (2 * n) '"' := by
  induction n with
  | zero => rfl
  | succ n ih => rw [List.replicate_succ, doubleQuotes_quote, ih]; rfl

/-- Doubling quotes makes no newline, and takes none away. -/
theorem newline_mem_doubleQuotes : '\n' ∈ doubleQuotes cs ↔ '\n' ∈ cs := by
  induction cs with
  | nil => rfl
  | cons c cs ih =>
    by_cases hc : c = '"'
    · subst hc
      simp [ih]
    · simp [doubleQuotes_cons hc, ih]

/-! ## Reading a text with its quotes doubled -/

/-- A text with its quotes doubled goes into the content of what is read behind it. -/
theorem cutQuotationBody_doubleQuotes_append (hs : '\n' ∉ s) (rest : List Char) :
    cutQuotationBody (doubleQuotes s ++ rest) =
      ⟨(cutQuotationBody rest).toCut.after (doubleQuotes s),
        (cutQuotationBody rest).content.map (s ++ ·)⟩ := by
  induction s with
  | nil => simp [Cut.after]
  | cons c s ih =>
    obtain ⟨hc, htail⟩ := not_or.1 (mt List.mem_cons.2 hs)
    by_cases hq : c = '"'
    · subst hq
      rw [doubleQuotes_quote, List.cons_append, List.cons_append, cutQuotationBody, ih htail]
      simp [Quotation.extend, Cut.after, Function.comp_def]
    · rw [doubleQuotes_cons hq, List.cons_append, cutQuotationBody_cons hq (Ne.symm hc), ih htail]
      simp [Quotation.extend, Cut.after, Function.comp_def]

/-- A quote that no other quote follows closes the text before it. -/
theorem cutQuotationBody_closing (hs : '\n' ∉ s) (hrest : rest.head? ≠ some '"') :
    cutQuotationBody (doubleQuotes s ++ '"' :: rest) = ⟨⟨doubleQuotes s ++ ['"'], rest⟩, some s⟩ := by
  have hquote : cutQuotationBody ('"' :: rest) = ⟨⟨['"'], rest⟩, some []⟩ := by
    refine cutQuotationBody_quote fun r hr => hrest ?_
    rw [hr, List.head?_cons]
  rw [cutQuotationBody_doubleQuotes_append hs, hquote]
  simp [Cut.after]

/-- Where the line ends behind a text with its quotes doubled, nothing has closed it. -/
theorem cutQuotationBody_open (hs : '\n' ∉ s) (hrest : ∀ c r, rest = c :: r → c = '\n') :
    cutQuotationBody (doubleQuotes s ++ rest) = ⟨⟨doubleQuotes s, rest⟩, none⟩ := by
  have hend : cutQuotationBody rest = ⟨.empty rest, none⟩ := by
    cases rest with
    | nil => rfl
    | cons c r => rw [hrest c r rfl]; rfl
  rw [cutQuotationBody_doubleQuotes_append hs, hend]
  simp [Cut.after]

/-- The content of a quoted text that is closed, with its quotes doubled, is what was taken. -/
theorem doubleQuotes_of_content (h : (cutQuotationBody cs).content = some s) :
    (cutQuotationBody cs).taken = doubleQuotes s ++ ['"'] ∧ '\n' ∉ s := by
  fun_induction cutQuotationBody cs generalizing s with
  | case1 => cases h
  | case2 cs ih =>
    obtain ⟨s, hs, rfl⟩ := Option.map_eq_some_iff.1 h
    obtain ⟨htaken, hn⟩ := ih hs
    simp [Quotation.extend, htaken, hn]
  | case3 cs _ =>
    obtain rfl := Option.some.inj h
    exact ⟨rfl, List.not_mem_nil⟩
  | case4 => cases h
  | case5 c cs _ hq hn ih =>
    obtain ⟨s, hs, rfl⟩ := Option.map_eq_some_iff.1 h
    obtain ⟨htaken, hs⟩ := ih hs
    refine ⟨?_, fun hmem => ?_⟩
    · rw [doubleQuotes_cons fun hc => hq hc]
      simp [Quotation.extend, htaken]
    · rcases List.mem_cons.1 hmem with he | he
      · exact hn he.symm
      · exact hs he

/-! ## Runs -/

/-- A run of `n` quotes in a text, which no quote makes longer on either side. -/
structure QuoteRun (cs before : List Char) (n : Nat) (behind : List Char) : Prop where
  /-- The run stands in the text. -/
  whole : cs = before ++ List.replicate n '"' ++ behind
  /-- There is a quote in it. -/
  pos : 0 < n
  /-- No quote stands before it. -/
  left : before.getLast? ≠ some '"'
  /-- No quote stands behind it. -/
  right : behind.head? ≠ some '"'

/-- Every run of quotes in a text has an even length. -/
def EvenRuns (cs : List Char) : Prop := ∀ before n behind, QuoteRun cs before n behind → n % 2 = 0

/-- The first run of quotes whose length is odd. -/
structure FirstOddRun (cs before : List Char) (n : Nat) (behind : List Char) : Prop
    extends QuoteRun cs before n behind where
  /-- Its length is odd. -/
  odd : n % 2 = 1
  /-- Every run that starts before it is even. -/
  first : ∀ before' n' behind', QuoteRun cs before' n' behind' → before'.length < before.length →
    n' % 2 = 0

/-- Before the first run is a text without runs of odd length. -/
theorem FirstOddRun.evenRuns (h : FirstOddRun cs before n behind) : EvenRuns before := by
  intro before' n' behind' hrun
  refine h.first before' n' (behind' ++ (List.replicate n '"' ++ behind)) ⟨?_, hrun.pos, hrun.left, ?_⟩ ?_
  · rw [h.whole, hrun.whole]
    simp only [List.append_assoc]
  · cases behind' with
    | cons d behind' => exact hrun.right
    | nil =>
      -- The run would go up to the odd one, and be a part of it.
      refine absurd ?_ h.left
      have hpos := Nat.ne_of_gt hrun.pos
      rw [hrun.whole, List.append_nil, List.getLast?_append, List.getLast?_replicate, if_neg hpos]
      rfl
  · have hlen := congrArg List.length hrun.whole
    have hpos := hrun.pos
    simp only [List.length_append, List.length_replicate] at hlen
    omega

/-- A text in which some run of quotes is odd has a first one. -/
theorem exists_firstOddRun (h : ¬ EvenRuns cs) : ∃ before n behind, FirstOddRun cs before n behind := by
  -- The odd runs are searched by the place where they start.
  have hsome : ∃ k, ∃ before n behind,
      QuoteRun cs before n behind ∧ n % 2 = 1 ∧ before.length = k := by
    simp only [EvenRuns, not_forall] at h
    obtain ⟨before, n, behind, hrun, hodd⟩ := h
    exact ⟨_, before, n, behind, hrun, Nat.mod_two_ne_zero.1 hodd, rfl⟩
  classical
  obtain ⟨before, n, behind, hrun, hodd, hplace⟩ := Nat.find_spec hsome
  refine ⟨before, n, behind, hrun, hodd, fun before' n' behind' hrun' hlt => ?_⟩
  have hnone := Nat.find_min hsome (hplace ▸ hlt)
  exact Nat.mod_two_ne_one.1 fun hodd' => hnone ⟨before', n', behind', hrun', hodd', rfl⟩

/-- A character before a text that is no quote leaves the runs as they are. -/
theorem QuoteRun.cons (h : QuoteRun cs before n behind) (hc : c ≠ '"') :
    QuoteRun (c :: cs) (c :: before) n behind where
  whole := by rw [h.whole]; rfl
  pos := h.pos
  left := by
    cases before with
    | nil => exact fun he => hc (Option.some.inj he)
    | cons d before => exact h.left
  right := h.right

/-- Two quotes before a text make its runs no less even: they go into the run at its front, or stand
apart from all of them. -/
theorem EvenRuns.of_quotes (h : EvenRuns ('"' :: '"' :: cs)) : EvenRuns cs := by
  intro before n behind hrun
  cases before with
  | nil =>
    have hlonger : QuoteRun ('"' :: '"' :: cs) [] (n + 2) behind :=
      ⟨by rw [hrun.whole]; rfl, by omega, nofun, hrun.right⟩
    have heven := h _ _ _ hlonger
    omega
  | cons d before => exact h ('"' :: '"' :: d :: before) n behind ⟨by rw [hrun.whole]; rfl, hrun.pos,
      hrun.left, hrun.right⟩

/-- A line without a run of odd length is some text with its quotes doubled. -/
theorem EvenRuns.exists_doubleQuotes (h : EvenRuns cs) (hn : '\n' ∉ cs) :
    ∃ s, cs = doubleQuotes s ∧ '\n' ∉ s := by
  suffices hs : ∃ s, cs = doubleQuotes s by
    obtain ⟨s, rfl⟩ := hs
    exact ⟨s, rfl, mt newline_mem_doubleQuotes.2 hn⟩
  fun_induction cutQuotationBody cs with
  | case1 => exact ⟨[], rfl⟩
  | case2 cs ih =>
    obtain ⟨s, rfl⟩ := ih h.of_quotes fun hmem => hn (.tail _ (.tail _ hmem))
    exact ⟨'"' :: s, rfl⟩
  | case3 cs hcs =>
    have hright : cs.head? ≠ some '"' := fun he => hcs _ (List.head?_eq_some_iff.1 he).choose_spec
    have hodd := h [] 1 cs ⟨rfl, Nat.one_pos, by simp, hright⟩
    exact absurd hodd (by decide)
  | case4 => exact absurd List.mem_cons_self hn
  | case5 c cs _ hq _ ih =>
    have hc : c ≠ '"' := hq
    obtain ⟨s, rfl⟩ := ih (fun before n behind hrun => h _ _ _ (hrun.cons hc)) fun hmem => hn (.tail _ hmem)
    exact ⟨c :: s, (doubleQuotes_cons hc s).symm⟩

/-- Behind a quote, a line goes up to the end of its first odd run as the form of some text. -/
theorem FirstOddRun.exists_stringForm (h : FirstOddRun cs before n behind) (hn : '\n' ∉ cs) :
    ∃ s, '"' :: before ++ List.replicate n '"' = stringForm s ∧ '\n' ∉ s := by
  have hbefore : '\n' ∉ before := fun hmem => hn (by rw [h.whole]; simp [hmem])
  obtain ⟨s, rfl, hs⟩ := h.evenRuns.exists_doubleQuotes hbefore
  refine ⟨s ++ List.replicate (n / 2) '"', ?_, ?_⟩
  · have hsplit : List.replicate n '"' = List.replicate (2 * (n / 2)) '"' ++ ['"'] := by
      rw [← List.replicate_succ']
      congr 1
      have := h.odd
      omega
    rw [stringForm, doubleQuotes_append, doubleQuotes_replicate, hsplit]
    simp only [List.cons_append, List.append_assoc]
  · simp [hs]

end

end BrightLexer
