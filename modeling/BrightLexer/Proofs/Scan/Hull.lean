import BrightLexer.Proofs.Scan.Positions
import BrightLexer.Proofs.Source.Encoding
import Mathlib.Data.List.Perm.Basic

/-!
# Spans merge into their hull

`Span.merge` keeps the line and the column of the span that starts first, and of the left one if both
start together. So it is associative, but which comes first matters for spans that start together and
are placed differently. The spans of a scan never are: each of them lies between two prefixes of the
source text (`Span.LiesIn`), and a prefix is known by its length in bytes, so the place of such a span
is a function of where it starts. `merge_gives_hull` says that they have one hull, which is what they
merge into in any order and however they are grouped.

A way to merge is a tree of spans (`Merging`). What it comes to starts and stops at the outermost ends
of its spans (`Merging.isHull_result`), and lies in the source text if they do
(`Merging.liesIn_result`); together this leaves one span (`Span.LiesIn.eq_of_ends`).
-/

namespace BrightLexer

/-! ## Two spans -/

namespace Span

/-- However three spans are grouped, they merge into the same one. -/
theorem merge_assoc (a b c : Span) : (a.merge b).merge c = a.merge (b.merge c) := by
  -- Both sides keep the place of the leftmost of the spans with the least start.
  unfold merge
  grind

/-- A span lies between two prefixes of a text: it starts behind the one, with the line and the column
that this ends on, and stops behind the other. -/
def LiesIn (source : List Char) (s : Span) : Prop :=
  ∃ a b, a <+: source ∧ b <+: source ∧ byteLength a ≤ byteLength b ∧
    s = .between (Position.origin.after a) (Position.origin.after b)

section
variable {source a b c d : List Char} {s t : Span}

/-- A span between two prefixes of a text starts behind the bytes of the first. -/
theorem start_between_origin (a b : List Char) :
    (between (Position.origin.after a) (Position.origin.after b)).start = byteLength a :=
  Position.offset_origin_after a

/-- A span between two prefixes of a text stops behind the bytes of the second. -/
theorem stop_between_origin (a b : List Char) :
    (between (Position.origin.after a) (Position.origin.after b)).stop = byteLength b :=
  Position.offset_origin_after b

/-- Spans between prefixes of a text merge into the span from the shorter start to the longer end. -/
theorem merge_between (a b c d : List Char) :
    (between (Position.origin.after a) (Position.origin.after b)).merge
        (between (Position.origin.after c) (Position.origin.after d)) =
      between (Position.origin.after (if byteLength c < byteLength a then c else a))
        (Position.origin.after (if byteLength b ≤ byteLength d then d else b)) := by
  have hstart : min (byteLength a) (byteLength c) =
      byteLength (if byteLength c < byteLength a then c else a) := by
    split <;> omega
  have hstop : max (byteLength b) (byteLength d) =
      byteLength (if byteLength b ≤ byteLength d then d else b) := by
    split <;> omega
  simp only [merge, between, Position.offset_origin_after, hstart, hstop, Span.mk.injEq, true_and]
  split
  · exact ⟨rfl, rfl⟩
  · exact ⟨rfl, rfl⟩

/-- Spans that lie in a text merge into a span that lies in it. -/
theorem LiesIn.merge (hs : s.LiesIn source) (ht : t.LiesIn source) : (s.merge t).LiesIn source := by
  obtain ⟨a, b, ha, hb, hab, rfl⟩ := hs
  obtain ⟨c, d, hc, hd, hcd, rfl⟩ := ht
  refine ⟨_, _, ?_, ?_, ?_, merge_between a b c d⟩
  · split
    · exact hc
    · exact ha
  · split
    · exact hd
    · exact hb
  · split_ifs <;> omega

/-- A span that lies in a text is known by its ends. -/
theorem LiesIn.eq_of_ends (hs : s.LiesIn source) (ht : t.LiesIn source) (hstart : s.start = t.start)
    (hstop : s.stop = t.stop) : s = t := by
  obtain ⟨a, b, ha, hb, -, rfl⟩ := hs
  obtain ⟨c, d, hc, hd, -, rfl⟩ := ht
  rw [start_between_origin, start_between_origin] at hstart
  rw [stop_between_origin, stop_between_origin] at hstop
  rw [eq_of_byteLength_eq ha hc hstart, eq_of_byteLength_eq hb hd hstop]

/-- A span that lies in a text covers a part of it. -/
theorem LiesIn.exists_text (h : s.LiesIn source) :
    ∃ front text back, source = front ++ text ++ back ∧ s.StandsBehind front ∧
      s.stop = byteLength (front ++ text) ∧ s.text? source = .ok text := by
  obtain ⟨front, b, hfront, ⟨back, rfl⟩, hle, rfl⟩ := h
  obtain ⟨text, rfl⟩ := prefix_of_byteLength_le hfront (List.prefix_append b back) hle
  exact ⟨front, text, back, rfl, standsBehind_between _ _, stop_between_origin _ _,
    text?_between front text back⟩

/-- The tokens and diagnostics of a scan lie in the source text. -/
theorem liesIn_of_mem_spansOf {source : String}
    (h : s ∈ spansOf (scanRecovering source).1 (scanRecovering source).2) :
    s.LiesIn source.toList := by
  rw [scanRecovering_eq] at h
  obtain ⟨y, hy, rfl⟩ := mem_spansOf_layout.1 h
  obtain ⟨front, back, hsource, hspan⟩ := span_of_mem_layout hy
  refine ⟨front, front ++ y.piece.text, ?_, ⟨back, hsource.symm⟩, ?_, hspan⟩
  · rw [hsource, List.append_assoc]
    exact List.prefix_append _ _
  · exact byteLength_le_of_prefix (List.prefix_append _ _)

end

end Span

/-! ## Many spans -/

/-- A way to merge spans: in some order, and grouped somehow. -/
inductive Merging where
  /-- A span by itself. -/
  | one (s : Span)
  /-- Two groups, each merged before. -/
  | both (left right : Merging)

namespace Merging

/-- The spans that are merged, from left to right. -/
def spans : Merging → List Span
  | one s => [s]
  | both left right => left.spans ++ right.spans

/-- What they merge into. -/
def result : Merging → Span
  | one s => s
  | both left right => left.result.merge right.result

end Merging

/-- A span starts where the first of some spans starts, and stops where the last of them stops. -/
structure Span.IsHull (spans : List Span) (hull : Span) : Prop where
  /-- No span starts before it. -/
  le_start : ∀ s ∈ spans, hull.start ≤ s.start
  /-- One of them starts there. -/
  start_mem : ∃ s ∈ spans, s.start = hull.start
  /-- No span stops behind it. -/
  stop_le : ∀ s ∈ spans, s.stop ≤ hull.stop
  /-- One of them stops there. -/
  stop_mem : ∃ s ∈ spans, s.stop = hull.stop

section
variable {source : List Char} {spans : List Span} {hull other : Span}

/-- All hulls of some spans have the same ends. -/
theorem Span.IsHull.ends_eq (h : hull.IsHull spans) (ho : other.IsHull spans) :
    hull.start = other.start ∧ hull.stop = other.stop := by
  obtain ⟨s, hs, hstart⟩ := h.start_mem
  obtain ⟨t, ht, hstop⟩ := h.stop_mem
  obtain ⟨s', hs', hstart'⟩ := ho.start_mem
  obtain ⟨t', ht', hstop'⟩ := ho.stop_mem
  have h1 := h.le_start s' hs'
  have h2 := ho.le_start s hs
  have h3 := h.stop_le t' ht'
  have h4 := ho.stop_le t ht
  omega

/-- The hull of some spans is their hull in any order. -/
theorem Span.IsHull.of_perm {others : List Span} (h : hull.IsHull spans) (hp : spans.Perm others) :
    hull.IsHull others := by
  obtain ⟨s, hs, hstart⟩ := h.start_mem
  obtain ⟨t, ht, hstop⟩ := h.stop_mem
  exact ⟨fun s hs => h.le_start s (hp.mem_iff.2 hs), ⟨s, hp.mem_iff.1 hs, hstart⟩,
    fun s hs => h.stop_le s (hp.mem_iff.2 hs), ⟨t, hp.mem_iff.1 ht, hstop⟩⟩

/-- The hulls of two groups merge into the hull of both. -/
theorem Span.IsHull.merge {others : List Span} (h : hull.IsHull spans) (ho : other.IsHull others) :
    (hull.merge other).IsHull (spans ++ others) where
  le_start := by
    rw [List.forall_mem_append]
    exact ⟨fun s hs => Nat.le_trans (Nat.min_le_left ..) (h.le_start s hs),
      fun s hs => Nat.le_trans (Nat.min_le_right ..) (ho.le_start s hs)⟩
  start_mem := by
    obtain ⟨s, hs, hstart⟩ := h.start_mem
    obtain ⟨t, ht, hstart'⟩ := ho.start_mem
    have hmerge : (hull.merge other).start = min hull.start other.start := rfl
    rcases Nat.le_total hull.start other.start with hle | hle
    · exact ⟨s, List.mem_append_left _ hs, by omega⟩
    · exact ⟨t, List.mem_append_right _ ht, by omega⟩
  stop_le := by
    rw [List.forall_mem_append]
    exact ⟨fun s hs => Nat.le_trans (h.stop_le s hs) (Nat.le_max_left ..),
      fun s hs => Nat.le_trans (ho.stop_le s hs) (Nat.le_max_right ..)⟩
  stop_mem := by
    obtain ⟨s, hs, hstop⟩ := h.stop_mem
    obtain ⟨t, ht, hstop'⟩ := ho.stop_mem
    have hmerge : (hull.merge other).stop = max hull.stop other.stop := rfl
    rcases Nat.le_total hull.stop other.stop with hle | hle
    · exact ⟨t, List.mem_append_right _ ht, by omega⟩
    · exact ⟨s, List.mem_append_left _ hs, by omega⟩

namespace Merging

/-- What spans merge into is their hull. -/
theorem isHull_result (m : Merging) : m.result.IsHull m.spans := by
  induction m with
  | one s =>
    have hmem : s ∈ [s] := List.mem_singleton_self s
    exact ⟨List.forall_mem_singleton.2 (Nat.le_refl _), ⟨s, hmem, rfl⟩,
      List.forall_mem_singleton.2 (Nat.le_refl _), ⟨s, hmem, rfl⟩⟩
  | both left right ihl ihr => exact ihl.merge ihr

/-- Spans that lie in a text merge, in any way, into a span that lies in it. -/
theorem liesIn_result {m : Merging} (h : ∀ s ∈ m.spans, s.LiesIn source) : m.result.LiesIn source := by
  induction m with
  | one s => exact h s (List.mem_singleton_self s)
  | both left right ihl ihr =>
    obtain ⟨hl, hr⟩ := List.forall_mem_append.1 h
    exact (ihl hl).merge (ihr hr)

/-- Merging one span after the other is a way to merge them. -/
theorem exists_foldl (m : Merging) (spans : List Span) :
    ∃ n : Merging, n.spans = m.spans ++ spans ∧ n.result = spans.foldl Span.merge m.result := by
  induction spans generalizing m with
  | nil => exact ⟨m, (List.append_nil _).symm, rfl⟩
  | cons s spans ih =>
    obtain ⟨n, hspans, hresult⟩ := ih (.both m (.one s))
    refine ⟨n, ?_, hresult⟩
    rw [hspans, Merging.spans, Merging.spans, List.append_assoc]
    rfl

end Merging

end

/-- Merging spans gives their hull. Merging is associative and idempotent on all spans. Some spans of
tokens and diagnostics of a source text, given one or more times, merge into one and the same span in
any order and however they are grouped, and so they do one after the other. It goes from where the first
of them starts to where the last one stops, has the line and the column of the place where it starts,
and covers the source text between the two. -/
theorem merge_gives_hull :
    (∀ a b c : Span, (a.merge b).merge c = a.merge (b.merge c)) ∧ (∀ s : Span, s.merge s = s) ∧
    ∀ (source : String) (spans : List Span), spans ≠ [] →
      (∀ s ∈ spans, s ∈ spansOf (scanRecovering source).1 (scanRecovering source).2) →
      ∃ hull : Span, (∀ m : Merging, m.spans.Perm spans → m.result = hull) ∧
        (∀ s others, (s :: others).Perm spans → others.foldl Span.merge s = hull) ∧
        hull.IsHull spans ∧
        ∃ front text back, source.toList = front ++ text ++ back ∧ hull.StandsBehind front ∧
          hull.stop = byteLength (front ++ text) ∧ hull.text? source.toList = .ok text := by
  refine ⟨Span.merge_assoc, Span.merge_self, fun source spans hne hspans => ?_⟩
  obtain ⟨s, others, rfl⟩ := List.exists_cons_of_ne_nil hne
  obtain ⟨first, hfirst, -⟩ := Merging.exists_foldl (.one s) others
  have hlies {m : Merging} (hm : m.spans.Perm (s :: others)) : m.result.LiesIn source.toList :=
    Merging.liesIn_result fun t ht => Span.liesIn_of_mem_spansOf (hspans t (hm.mem_iff.1 ht))
  have hhull {m : Merging} (hm : m.spans.Perm (s :: others)) : m.result.IsHull (s :: others) :=
    m.isHull_result.of_perm hm
  have hperm : first.spans.Perm (s :: others) := .of_eq hfirst
  have hresult : ∀ m : Merging, m.spans.Perm (s :: others) → m.result = first.result := fun m hm =>
    have hends := (hhull hm).ends_eq (hhull hperm)
    (hlies hm).eq_of_ends (hlies hperm) hends.1 hends.2
  refine ⟨first.result, hresult, fun t rest ht => ?_, hhull hperm, (hlies hperm).exists_text⟩
  obtain ⟨m, hm, hfold⟩ := Merging.exists_foldl (.one t) rest
  exact hfold.symm.trans (hresult m ((List.Perm.of_eq hm).trans ht))

/-- A name, a character of two bytes that starts no token, and the end token behind the name, which
starts where the name stops: whatever comes first, they merge into the part of the line that they stand
on. -/
theorem merge_gives_hull_touching :
    let fault : Span := ⟨3, 5, 2, 2⟩
    let name : Span := ⟨6, 7, 2, 4⟩
    let ending : Span := ⟨7, 7, 2, 5⟩
    [ending, name, fault] ≠ [] ∧
      (∀ s ∈ [ending, name, fault],
        s ∈ spansOf (scanRecovering "x\n é y").1 (scanRecovering "x\n é y").2) ∧
      (∀ m : Merging, m.spans.Perm [ending, name, fault] → m.result = ⟨3, 7, 2, 2⟩) ∧
      (Span.mk 3 7 2 2).text? "x\n é y".toList = .ok "é y".toList := by
  intro fault name ending
  have hl : layout "x\n é y".toList =
      [⟨⟨0, 1, 1⟩, ⟨[], ['x'], .token .identifier none⟩⟩,
        ⟨⟨1, 1, 2⟩, ⟨[], ['\n'], .token .newline none⟩⟩,
        ⟨⟨3, 2, 2⟩, ⟨[' '], ['é'], .fault (.unexpectedChar 'é')⟩⟩,
        ⟨⟨6, 2, 4⟩, ⟨[' '], ['y'], .token .identifier none⟩⟩,
        ⟨⟨7, 2, 5⟩, ⟨[], [], .token .eof none⟩⟩] := by
    decide +kernel
  have hmem : ∀ s ∈ [ending, name, fault],
      s ∈ spansOf (scanRecovering "x\n é y").1 (scanRecovering "x\n é y").2 := by
    rw [scanRecovering_eq, hl]
    decide +kernel
  have hne : [ending, name, fault] ≠ [] := List.cons_ne_nil _ _
  obtain ⟨-, -, hmerge⟩ := merge_gives_hull
  obtain ⟨hull, hany, hfold, -⟩ := hmerge "x\n é y" [ending, name, fault] hne hmem
  have hhull : (⟨3, 7, 2, 2⟩ : Span) = hull := hfold ending [name, fault] (.refl _)
  exact ⟨hne, hmem, fun m hm => (hany m hm).trans hhull.symm, by decide +kernel⟩

end BrightLexer
