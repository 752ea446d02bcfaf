import BrightLexer.Proofs.Source.Place
import Mathlib.Data.List.Basic

/-!
# Both styles of line end

`withReturns` puts a carriage return before each newline of a text. A line is shown without the
carriage return that ends it, so a text shows the same lines in both styles of line end
(`lineText_withReturns`), as long as none of its newlines has one to begin with.

Both texts are taken apart line by line: `lines_induction` is the induction over the lines of a text.
-/

namespace BrightLexer

/-- A text with a carriage return before each of its newlines. -/
def withReturns (cs : List Char) : List Char :=
  cs.flatMap fun c => if c = '\n' then ['\r', '\n'] else [c]

section
variable {a b cs : List Char} {c : Char}

/-- A character that is no newline stays as it is. -/
theorem withReturns_cons_of_ne (h : c ≠ '\n') (cs : List Char) :
    withReturns (c :: cs) = c :: withReturns cs := by
  rw [withReturns, List.flatMap_cons, if_neg h]
  rfl

/-- Carriage returns are put into a text part by part. -/
theorem withReturns_append (a b : List Char) :
    withReturns (a ++ b) = withReturns a ++ withReturns b :=
  List.flatMap_append

/-- A text of one line is the same in both styles. -/
theorem withReturns_eq_self (h : '\n' ∉ cs) : withReturns cs = cs := by
  induction cs with
  | nil => rfl
  | cons c cs ih =>
    obtain ⟨hc, hcs⟩ := not_or.1 (mt List.mem_cons.2 h)
    rw [withReturns_cons_of_ne (Ne.symm hc), ih hcs]

/-- The first line of a text, with a carriage return behind it, and the other lines. -/
theorem withReturns_append_newline (h : '\n' ∉ a) (b : List Char) :
    withReturns (a ++ '\n' :: b) = (a ++ ['\r']) ++ '\n' :: withReturns b := by
  rw [withReturns_append, withReturns_eq_self h, List.append_assoc]
  rfl

/-- Induction over the lines of a text: over the last one, which has no newline, and over one that
comes before others. -/
@[elab_as_elim]
theorem lines_induction {motive : List Char → Prop} (cs : List Char)
    (last : ∀ a, '\n' ∉ a → motive a)
    (line : ∀ a b, '\n' ∉ a → motive b → motive (a ++ '\n' :: b)) : motive cs := by
  by_cases h : '\n' ∈ cs
  · obtain ⟨a, b, hcs, ha⟩ := List.eq_append_cons_of_mem h
    have hlt : b.length < cs.length := by
      rw [hcs, List.length_append, List.length_cons]
      omega
    rw [hcs]
    exact line a b ha (lines_induction b last line)
  · exact last cs h
termination_by cs.length

/-! ## The lines shown -/

/-- A text without a newline is its only line. -/
theorem splitLines_eq_singleton (h : '\n' ∉ cs) : splitLines cs = [cs] := by
  have hhead := head?_splitLines cs
  obtain ⟨line, hline⟩ : ∃ line, splitLines cs = [line] :=
    List.length_eq_one_iff.1 (by rw [length_splitLines, List.count_eq_zero.2 h])
  rw [hline, firstLine_eq_self h] at hhead
  rw [hline, Option.some_inj.1 hhead]

/-- The first line of a text and the other ones. -/
theorem splitLines_line (h : '\n' ∉ a) (b : List Char) :
    splitLines (a ++ '\n' :: b) = a :: splitLines b := by
  rw [splitLines_append_newline, splitLines_eq_singleton h]
  rfl

/-- No line holds a newline. -/
theorem newline_not_mem_splitLines (cs : List Char) : ∀ line ∈ splitLines cs, '\n' ∉ line := by
  induction cs using lines_induction with
  | last a ha =>
    rw [splitLines_eq_singleton ha]
    exact List.forall_mem_singleton.2 ha
  | line a b ha ih =>
    rw [splitLines_line ha]
    exact List.forall_mem_cons.2 ⟨ha, ih⟩

/-- One carriage return at the end of a line is not shown. -/
theorem shownLine_append_return (line : List Char) : shownLine (line ++ ['\r']) = line := by
  rw [shownLine, List.getLast?_concat, if_pos rfl, List.dropLast_concat]

/-- How a line is shown depends on its end alone. -/
theorem shownLine_append (hb : b ≠ []) (a : List Char) : shownLine (a ++ b) = a ++ shownLine b := by
  rw [shownLine, shownLine, List.getLast?_append_of_ne_nil a hb, List.dropLast_append_of_ne_nil hb,
    apply_ite (a ++ ·)]

/-- A line is shown as it is, or without the carriage return at its end. -/
theorem shownLine_cases (line : List Char) :
    shownLine line = line ∨ line = shownLine line ++ ['\r'] := by
  unfold shownLine
  split
  · next hlast =>
    obtain ⟨front, rfl⟩ := List.getLast?_eq_some_iff.1 hlast
    exact .inr (by rw [List.dropLast_concat])
  · exact .inl rfl

/-- What is shown of a line is part of it. -/
theorem shownLine_sublist (line : List Char) : (shownLine line).Sublist line := by
  unfold shownLine
  split
  · exact List.dropLast_sublist line
  · exact List.Sublist.refl line

/-- A line is looked up where a text before it ends. -/
theorem lineText_eq_ok_iff {n : Nat} {line : List Char} :
    lineText cs (n + 1) = .ok line ↔ ∃ raw, (splitLines cs)[n]? = some raw ∧ shownLine raw = line := by
  unfold lineText
  dsimp only
  cases (splitLines cs)[n]? with
  | none => simp
  | some raw => simp

/-- A line that is looked up has no newline in it. -/
theorem newline_not_mem_lineText {n : Nat} {line : List Char} (h : lineText cs n = .ok line) :
    '\n' ∉ line := by
  cases n with
  | zero => cases h
  | succ n =>
    obtain ⟨raw, hraw, rfl⟩ := lineText_eq_ok_iff.1 h
    exact fun hn => newline_not_mem_splitLines cs raw (List.mem_of_getElem? hraw)
      ((shownLine_sublist raw).subset hn)

/-- A line that a carriage return does not end is shown whole. -/
theorem shownLine_of_newline (h : ¬ ['\r', '\n'] <:+: a ++ '\n' :: b) : shownLine a = a := by
  refine if_neg fun hlast => h ?_
  obtain ⟨front, rfl⟩ := List.getLast?_eq_some_iff.1 hlast
  exact ⟨front, b, by simp⟩

/-- Both styles of line end show the same lines. -/
theorem map_shownLine_withReturns (h : ¬ ['\r', '\n'] <:+: cs) :
    (splitLines (withReturns cs)).map shownLine = (splitLines cs).map shownLine := by
  induction cs using lines_induction with
  | last a ha => rw [withReturns_eq_self ha]
  | line a b ha ih =>
    have hb : ¬ ['\r', '\n'] <:+: b := fun hb =>
      h (hb.trans ((List.suffix_cons '\n' b).trans (List.suffix_append a _)).isInfix)
    have hreturn : '\n' ∉ a ++ ['\r'] := by simp [ha]
    rw [withReturns_append_newline ha, splitLines_line hreturn, splitLines_line ha, List.map_cons,
      List.map_cons, ih hb, shownLine_append_return, shownLine_of_newline h]

/-- A line is looked up among the lines shown. -/
theorem lineText_congr (h : (splitLines a).map shownLine = (splitLines b).map shownLine) (n : Nat) :
    lineText a n = lineText b n := by
  have hlength : (splitLines a).length = (splitLines b).length := by
    simpa only [List.length_map] using congrArg List.length h
  cases n with
  | zero => rw [lineText, lineText, hlength]
  | succ k =>
    have hk : (splitLines a)[k]?.map shownLine = (splitLines b)[k]?.map shownLine := by
      rw [← List.getElem?_map, h, List.getElem?_map]
    simp only [lineText, hlength]
    cases ha : (splitLines a)[k]? with
    | none =>
      cases hb : (splitLines b)[k]? with
      | none => rfl
      | some line => rw [ha, hb] at hk; cases hk
    | some line =>
      cases hb : (splitLines b)[k]? with
      | none => rw [ha, hb] at hk; cases hk
      | some line' =>
        rw [ha, hb] at hk
        exact congrArg Except.ok (Option.some_inj.1 hk)

/-- Lines are looked up alike in both styles of line end, if carriage returns end no line yet. -/
theorem lineText_withReturns (h : ¬ ['\r', '\n'] <:+: cs) (n : Nat) :
    lineText (withReturns cs) n = lineText cs n :=
  lineText_congr (map_shownLine_withReturns h) n

end

end BrightLexer
