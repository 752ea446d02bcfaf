import BrightLexer.Proofs.Scan.TokenStart

/-!
# Words with a type designator

A word is a letter or an underscore with letters, digits and underscores behind it. With a type
designator at its end it is a name, also where the word alone is a reserved one
(`Lexer.StartsAt.finds_designated`).

One word is an exception. What opens a comment is tested first, and that test takes a word to end
before a designator, so `rem` with a designator opens a comment and the rest of its line is lost
(`Lexer.StartsAt.finds_comment`, `rem_designated_not_name`). `nextToken_designated` says for every word
which of the two comes of it.
-/

namespace BrightLexer

/-- A letter or an underscore, and then letters, digits and underscores. -/
def IsWord (cs : List Char) : Prop :=
  ∃ c r, cs = c :: r ∧ isWordStart c = true ∧ ∀ d ∈ r, isWordChar d = true

section
variable {word rest gap : List Char} {d : Char} {l : Lexer}

/-- All characters of a word go on a word. -/
theorem IsWord.isWordChar (h : IsWord word) : ∀ c ∈ word, isWordChar c = true := by
  obtain ⟨c, r, rfl, hc, hr⟩ := h
  exact List.forall_mem_cons.2 ⟨isWordChar_of_isWordStart hc, hr⟩

/-- There are five designators. -/
theorem isDesignator_iff : isDesignator d = true ↔ d ∈ ['$', '%', '!', '#', '&'] := by
  simp [isDesignator, or_assoc]

/-- No designator goes on a word. -/
theorem isWordChar_of_isDesignator (h : isDesignator d = true) : isWordChar d = false := by
  simp only [isDesignator, Bool.or_eq_true, beq_iff_eq] at h
  rcases h with (((rfl | rfl) | rfl) | rfl) | rfl <;> rfl

/-- No word starts with a blank. -/
theorem isBlank_of_isWordStart (h : isWordStart d = true) : isBlank d = false := by
  refine Bool.eq_false_iff.2 fun hb => ?_
  rcases isBlank_iff.1 hb with rfl | rfl | rfl <;> cases h

/-- A word that a designator follows is read up to behind it. -/
theorem cutWord_designated (hw : ∀ c ∈ word, isWordChar c = true) (hd : isDesignator d = true)
    (rest : List Char) : cutWord (word ++ d :: rest) = ⟨⟨word ++ [d], rest⟩, true⟩ := by
  have hrun : cutWhile isWordChar (word ++ d :: rest) = ⟨word, d :: rest⟩ := by
    refine cutWhile_append_eq hw fun c r hr => ?_
    rw [← (List.cons.inj hr).1]
    exact isWordChar_of_isDesignator hd
  rw [cutWord, hrun]
  exact if_pos hd

/-- A whole word opens a comment if it is `rem` in some case, and only then. -/
theorem opensComment_word_iff (hw : IsWord word)
    (hrest : ∀ c r, rest = c :: r → isWordChar c = false) :
    OpensComment (word ++ rest) ↔ lowerCase word = ['r', 'e', 'm'] := by
  refine ⟨fun h => ?_, fun h => .rem rest h hrest⟩
  have hrun := cutWhile_append_eq hw.isWordChar hrest
  obtain ⟨c, r, rfl, hc, -⟩ := hw
  generalize hcs : c :: r ++ rest = cs at h hrun
  cases h with
  | apostrophe =>
    rw [(List.cons.inj hcs).1] at hc
    exact absurd hc (by decide)
  | @rem other tail hother htail =>
    -- Both words are the longest run of word characters at the front of the text.
    rw [cutWhile_append_eq (fun c => isWordChar_of_mem_rem hother) htail] at hrun
    obtain ⟨rfl, -⟩ := Cut.mk.inj hrun
    exact hother

namespace Lexer

/-- A word with a designator is a name, unless the word is `rem`. -/
theorem StartsAt.finds_designated (h : l.StartsAt gap (word ++ d :: rest)) (hw : IsWord word)
    (hd : isDesignator d = true) (hrem : lowerCase word ≠ ['r', 'e', 'm']) :
    l.Finds gap (word ++ [d]) (.token .identifier none) := by
  have hword := hw.isWordChar
  have ho : opensComment (word ++ d :: rest) = false := by
    refine Bool.eq_false_iff.2 fun ho => hrem ?_
    refine (opensComment_word_iff hw fun c r hr => ?_).1 (opensComment_iff.1 ho)
    rw [← (List.cons.inj hr).1]
    exact isWordChar_of_isDesignator hd
  obtain ⟨c, r, rfl, hc, -⟩ := hw
  refine h.finds_of_reading rest (cutTrivia_eq_empty_iff.2 ⟨ho, isBlank_of_isWordStart hc⟩) ?_
  have hcut : cutWord (c :: (r ++ d :: rest)) = ⟨⟨c :: r ++ [d], rest⟩, true⟩ :=
    cutWord_designated hword hd rest
  rw [List.cons_append, reading_wordStart hc, hcut]
  rfl

/-- Where a comment opens, the call goes on to the end of the line, and finds the line end there or
the end of the text. -/
theorem StartsAt.finds_comment (h : l.StartsAt gap rest) (ho : OpensComment rest) :
    l.Finds (gap ++ (cutLine rest).taken) ((cutLine rest).rest.take 1)
      (.token (if (cutLine rest).rest = [] then .eof else .newline) none) := by
  have hwhole : (cutLine rest).taken ++ (cutLine rest).rest = rest := whole_cutWhile _ rest
  have hline := lineEnds_cutLine rest
  have hgap : Gap gap ((cutLine rest).taken ++ (cutLine rest).rest) := hwhole.symm ▸ h.gap
  have hstart : l.StartsAt (gap ++ (cutLine rest).taken) (cutLine rest).rest := by
    refine ⟨?_, hgap.append_comment (hwhole.symm ▸ ho) hline⟩
    rw [h.ahead, List.append_assoc, hwhole]
  cases hback : (cutLine rest).rest with
  | nil =>
    rw [hback] at hstart
    exact hstart.finds_of_reading [] rfl rfl
  | cons c back =>
    rw [hback, hline.ends c back hback] at hstart
    rw [hline.ends c back hback]
    exact hstart.finds_of_reading back (cutTrivia_newline back) (reading_newline back)

end Lexer

end

/-- At the start of a token, a word with a type designator is a name, whose text is the word with its
designator, and the cursor is left behind that. For the word `rem`, in any case, it is not: there a
comment opens, nothing of the line is read, and the line end is found, or the end of the text. -/
theorem nextToken_designated (l : Lexer) (gap word rest : List Char) (d : Char) (hw : IsWord word)
    (hd : d ∈ ['$', '%', '!', '#', '&']) (h : l.StartsAt gap (word ++ d :: rest)) :
    (lowerCase word ≠ ['r', 'e', 'm'] →
      l.Finds gap (word ++ [d]) (.token .identifier none) ∧ l.nextToken.2.rest = rest) ∧
    (lowerCase word = ['r', 'e', 'm'] →
      ∃ line back, word ++ d :: rest = line ++ back ∧ LineEnds line back ∧
        l.Finds (gap ++ line) (back.take 1)
          (.token (if back = [] then .eof else .newline) none)) := by
  have hdes := isDesignator_iff.2 hd
  refine ⟨fun hrem => ?_, fun hrem => ?_⟩
  · have hfinds := h.finds_designated hw hdes hrem
    refine ⟨hfinds, ?_⟩
    have hrest := hfinds.rest_eq h
    rw [List.append_assoc] at hrest
    exact (List.cons.inj (List.append_cancel_left hrest)).2.symm
  · have ho : OpensComment (word ++ d :: rest) := by
      refine (opensComment_word_iff hw fun c r hr => ?_).2 hrem
      rw [← (List.cons.inj hr).1]
      exact isWordChar_of_isDesignator hdes
    exact ⟨_, _, (whole_cutWhile _ _).symm, lineEnds_cutLine _, h.finds_comment ho⟩

/-- A reserved word with a designator is a name, behind blanks and in front of a numeral. -/
theorem nextToken_designated_reserved :
    (Lexer.ofSource " \tEnd#1").StartsAt [' ', '\t'] ("End".toList ++ '#' :: ['1']) ∧
      (Lexer.ofSource " \tEnd#1").Finds [' ', '\t'] "End#".toList (.token .identifier none) := by
  have hstart : (Lexer.ofSource " \tEnd#1").StartsAt [' ', '\t'] ("End".toList ++ '#' :: ['1']) :=
    ⟨rfl, .blank rfl (.blank rfl (.nil _))⟩
  have hword : IsWord "End".toList := ⟨'E', ['n', 'd'], rfl, rfl, List.all_eq_true.1 rfl⟩
  obtain ⟨hname, -⟩ := nextToken_designated _ _ _ _ '#' hword (by decide) hstart
  exact ⟨hstart, (hname (by decide)).1⟩

/-- `rem` with a designator is no name: the assignment to it is passed over as a comment. -/
theorem rem_designated_not_name :
    let l := Lexer.ofSource "rem%=1\ny"
    IsWord "rem".toList ∧ l.StartsAt [] ("rem".toList ++ '%' :: "=1\ny".toList) ∧
      ¬ l.Finds [] "rem%".toList (.token .identifier none) ∧
      (scanRecovering "rem%=1\ny").1.map Token.text = ["\n", "y", ""] := by
  intro l
  have hstart : l.StartsAt [] ("rem".toList ++ '%' :: "=1\ny".toList) := ⟨rfl, .nil _⟩
  refine ⟨⟨'r', ['e', 'm'], rfl, rfl, List.all_eq_true.1 rfl⟩, hstart, fun hname => ?_, ?_⟩
  · have hrest := hname.rest_eq hstart
    have hahead : l.nextToken.2.rest = ['y'] := by decide +kernel
    rw [hahead] at hrest
    exact absurd hrest (by decide)
  · rw [scanRecovering_eq]
    decide +kernel

end BrightLexer
