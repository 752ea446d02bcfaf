import BrightLexer.Proofs.Scan.Run

/-!
# Scanning with and without recovery

`scan` stops at the first fault, `scanRecovering` goes on behind it, and the lexer as an iterator
hands out what `scan` sees. All three go through the same layout, so they agree up to the first
fault: `scan_agrees` says what each of them gives when there is no fault, and what `scan` and the
iterator have seen of the whole when there is one.

What an iterator hands out is said call by call (`Lexer.answer`), since its calls go on after the last
item: from there on every answer is none.
-/

namespace BrightLexer

/-- The answer of the lexer to call `n` of `next?`, the first call at 0. -/
def Lexer.answer (l : Lexer) : Nat → Option (Except Fault Token)
  | 0 => l.next?.1
  | n + 1 => l.next?.2.answer n

/-- A lexer that hands out nothing stays as it is. -/
theorem Lexer.eq_of_next?_none {l m : Lexer} (h : l.next? = (none, m)) : m = l := by
  unfold next? at h
  split at h
  · cases h; rfl
  · split at h <;> cases h

/-- The calls are answered with the items in turn, and then with none for ever. -/
theorem Lexer.answer_eq (l : Lexer) (n : Nat) : l.answer n = l.items[n]? := by
  induction n generalizing l with
  | zero =>
    rcases h : l.next? with ⟨_ | item, m⟩
    · rw [answer, h, items_of_next?_none h]; rfl
    · rw [answer, h, items_of_next? h]; rfl
  | succ n ih =>
    rw [answer, ih]
    rcases h : l.next? with ⟨_ | item, m⟩
    · rw [eq_of_next?_none h, items_of_next?_none h]; rfl
    · rw [items_of_next? h]; rfl

/-! ## Items up to the first fault -/

/-- Items without a fault are all up to the first fault. -/
theorem upToFault_ok (tokens : List Token) :
    upToFault (tokens.map .ok) = tokens.map .ok := by
  induction tokens with
  | nil => rfl
  | cons token tokens ih => rw [List.map_cons, upToFault, ih]

/-- The items up to the first fault are the tokens before it and the fault. -/
theorem upToFault_fault (tokens : List Token) (fault : Fault) (items : List (Except Fault Token)) :
    upToFault (tokens.map .ok ++ .error fault :: items) = tokens.map .ok ++ [.error fault] := by
  induction tokens with
  | nil => rfl
  | cons token tokens ih => rw [List.map_cons, List.cons_append, upToFault, ih, List.cons_append]

/-- Items without a fault are gathered into their tokens. -/
theorem mapM_id_ok (tokens : List Token) :
    (tokens.map Except.ok).mapM (id : Except Fault Token → Except Fault Token) = .ok tokens := by
  induction tokens with
  | nil => rfl
  | cons token tokens ih => rw [List.map_cons, List.mapM_cons, ih]; rfl

/-- Gathering items stops at the first fault. -/
theorem mapM_id_fault (tokens : List Token) (fault : Fault) :
    (tokens.map Except.ok ++ [Except.error fault]).mapM
      (id : Except Fault Token → Except Fault Token) = .error fault := by
  induction tokens with
  | nil => rfl
  | cons token tokens ih => rw [List.map_cons, List.cons_append, List.mapM_cons, ih]; rfl

/-- Pieces either are all tokens, or have a first fault behind some tokens. -/
theorem tokens_or_first_fault (xs : List Placed) :
    (∃ tokens : List Token, xs.map Placed.item = tokens.map .ok) ∨
      ∃ front x back, ∃ (tokens : List Token) (fault : Fault), xs = front ++ x :: back ∧
        front.map Placed.item = tokens.map .ok ∧ x.item = .error fault := by
  induction xs with
  | nil => exact .inl ⟨[], rfl⟩
  | cons x xs ih =>
    rcases hx : x.item with fault | token
    · exact .inr ⟨[], x, xs, [], fault, rfl, rfl, hx⟩
    · rcases ih with ⟨tokens, ht⟩ | ⟨front, y, back, tokens, fault, rfl, ht, hy⟩
      · exact .inl ⟨token :: tokens, by rw [List.map_cons, ht, hx, List.map_cons]⟩
      · refine .inr ⟨x :: front, y, back, token :: tokens, fault, rfl, ?_, hy⟩
        rw [List.map_cons, ht, hx, List.map_cons]

/-- Pieces that are all tokens give these tokens and no diagnostic. -/
theorem filterMap_of_tokens {xs : List Placed} {tokens : List Token}
    (h : xs.map Placed.item = tokens.map .ok) :
    xs.filterMap Placed.token? = tokens ∧ xs.filterMap Placed.diagnostic? = [] := by
  induction xs generalizing tokens with
  | nil =>
    cases tokens with
    | nil => exact ⟨rfl, rfl⟩
    | cons token tokens => cases h
  | cons x xs ih =>
    cases tokens with
    | nil => cases h
    | cons token tokens =>
      rw [List.map_cons, List.map_cons, List.cons.injEq] at h
      obtain ⟨h1, h2⟩ := ih h.2
      constructor
      · rw [List.filterMap_cons, Placed.token?, h.1, h1]; rfl
      · rw [List.filterMap_cons, Placed.diagnostic?, h.1, h2]

/-! ## The three ways to scan -/

/-- A source text without faults, for all three ways to scan it. -/
theorem scan_of_tokens {source : String} {tokens : List Token}
    (h : (layout source.toList).map Placed.item = tokens.map .ok) :
    iterate source = tokens.map .ok ∧ scan source = .ok tokens ∧
      scanRecovering source = (tokens, []) := by
  have hi : iterate source = tokens.map .ok := by rw [iterate_eq, h, upToFault_ok]
  obtain ⟨ht, hd⟩ := filterMap_of_tokens h
  exact ⟨hi, by rw [scan, hi, mapM_id_ok], by rw [scanRecovering_eq, ht, hd]⟩

/-- A source text with a first fault, for all three ways to scan it. -/
theorem scan_of_fault {source : String} {front back : List Placed} {x : Placed}
    {tokens : List Token} {fault : Fault} (hl : layout source.toList = front ++ x :: back)
    (ht : front.map Placed.item = tokens.map .ok) (hx : x.item = .error fault) :
    iterate source = tokens.map .ok ++ [.error fault] ∧ scan source = .error fault ∧
      scanRecovering source = (tokens ++ back.filterMap Placed.token?,
        fault.diagnostic x.span :: back.filterMap Placed.diagnostic?) := by
  have hi : iterate source = tokens.map .ok ++ [.error fault] := by
    rw [iterate_eq, hl, List.map_append, ht, List.map_cons, hx, upToFault_fault]
  obtain ⟨h1, h2⟩ := filterMap_of_tokens ht
  refine ⟨hi, by rw [scan, hi, mapM_id_fault], ?_⟩
  rw [scanRecovering_eq, hl, List.filterMap_append, List.filterMap_append, h1, h2,
    List.filterMap_cons, List.filterMap_cons, Placed.token?, Placed.diagnostic?, hx]
  rfl

/-- Scanning without recovery succeeds if scanning with recovery reports nothing, and only then. -/
theorem exists_scan_eq_ok_iff (source : String) :
    (∃ tokens, scan source = .ok tokens) ↔ (scanRecovering source).2 = [] := by
  rcases tokens_or_first_fault (layout source.toList) with
    ⟨tokens, h⟩ | ⟨front, x, back, tokens, fault, hl, ht, hx⟩
  · obtain ⟨-, hs, hr⟩ := scan_of_tokens h
    simp only [hs, hr, Except.ok.injEq, exists_eq']
  · obtain ⟨-, hs, hr⟩ := scan_of_fault hl ht hx
    simp only [hs, hr, reduceCtorEq, exists_false]

/-- Without a fault both scans give the same tokens. -/
theorem scanRecovering_of_scan_ok {source : String} {tokens : List Token}
    (h : scan source = .ok tokens) : scanRecovering source = (tokens, []) := by
  rcases tokens_or_first_fault (layout source.toList) with
    ⟨_, ht⟩ | ⟨_, _, _, _, _, hl, ht, hx⟩
  · obtain ⟨-, hs, hr⟩ := scan_of_tokens ht
    cases hs.symm.trans h
    exact hr
  · cases (scan_of_fault hl ht hx).2.1.symm.trans h

/-- The fault that scanning stops at is the first that scanning with recovery reports. -/
theorem scanRecovering_of_scan_error {source : String} {fault : Fault}
    (h : scan source = .error fault) :
    ∃ span later, (scanRecovering source).2 = fault.diagnostic span :: later := by
  rcases tokens_or_first_fault (layout source.toList) with
    ⟨_, ht⟩ | ⟨_, x, _, _, _, hl, ht, hx⟩
  · cases (scan_of_tokens ht).2.1.symm.trans h
  · obtain ⟨-, hs, hr⟩ := scan_of_fault hl ht hx
    cases hs.symm.trans h
    exact ⟨x.span, _, by rw [hr]⟩

/-- Scanning without recovery, scanning with recovery and iterating agree. Without a fault all three
give the same tokens. Otherwise the iterator hands out the tokens before the first fault, the fault
that `scan` gives, and then nothing; the recovering scan goes on from those tokens, and everything
that it adds, its first diagnostic being for that same fault, lies behind them. -/
theorem scan_agrees (source : String) :
    (∀ tokens, scan source = .ok tokens ↔ scanRecovering source = (tokens, [])) ∧
    (∀ tokens, scan source = .ok tokens →
      ∀ n, (Lexer.ofSource source).answer n = (tokens.map Except.ok)[n]?) ∧
    ∀ fault, scan source = .error fault →
      ∃ front later span diagnostics,
        (∀ n, (Lexer.ofSource source).answer n =
          (front.map Except.ok ++ [Except.error fault])[n]?) ∧
        scanRecovering source = (front ++ later, fault.diagnostic span :: diagnostics) ∧
        span.line = fault.line ∧ span.column = fault.column ∧
        (∀ t ∈ front, t.span.stop ≤ span.start) ∧
        (∀ t ∈ later, span.stop ≤ t.span.start) ∧
        ∀ d ∈ diagnostics, span.stop ≤ d.span.start := by
  have hanswer := fun n => (Lexer.ofSource source).answer_eq n
  rcases tokens_or_first_fault (layout source.toList) with
    ⟨tokens, h⟩ | ⟨front, x, back, tokens, fault, hl, ht, hx⟩
  · obtain ⟨hi, hs, hr⟩ := scan_of_tokens h
    rw [iterate] at hi
    refine ⟨?_, ?_, ?_⟩
    · intro u
      rw [hs, hr]
      simp
    · intro u hu n
      cases hs.symm.trans hu
      rw [hanswer, hi]
    · intro f hf
      cases hs.symm.trans hf
  · obtain ⟨hi, hs, hr⟩ := scan_of_fault hl ht hx
    rw [iterate] at hi
    refine ⟨?_, ?_, ?_⟩
    · intro u
      rw [hs, hr]
      simp
    · intro u hu
      cases hs.symm.trans hu
    · intro f hf
      cases hs.symm.trans hf
      have hp := pairwise_layout source.toList
      rw [hl, List.pairwise_append, List.pairwise_cons] at hp
      have hx' := Placed.span_of_item_error hx
      refine ⟨tokens, _, x.span, _, fun n => by rw [hanswer, hi], hr, hx'.1, hx'.2, ?_, ?_, ?_⟩
      · intro t hmem
        rw [← (filterMap_of_tokens ht).1] at hmem
        obtain ⟨y, hy, hyt⟩ := List.mem_filterMap.1 hmem
        rw [Placed.span_of_token? hyt]
        exact (hp.2.2 y hy x (List.mem_cons_self ..)).2
      · intro t hmem
        obtain ⟨y, hy, hyt⟩ := List.mem_filterMap.1 hmem
        rw [Placed.span_of_token? hyt]
        exact (hp.2.1.1 y hy).2
      · intro d hmem
        obtain ⟨y, hy, hyd⟩ := List.mem_filterMap.1 hmem
        rw [Placed.span_of_diagnostic? hyd]
        exact (hp.2.1.1 y hy).2

/-- Behind a character that starts no token the iterator is done, and the recovering scan is not. -/
theorem scan_agrees_unexpected :
    scan "1 @" = .error ⟨.unexpectedChar '@', 1, 3⟩ ∧
      ∃ front later span diagnostics,
        (∀ n, (Lexer.ofSource "1 @").answer n =
          (front.map Except.ok ++ [Except.error ⟨.unexpectedChar '@', 1, 3⟩])[n]?) ∧
        scanRecovering "1 @" =
          (front ++ later, (Fault.mk (.unexpectedChar '@') 1 3).diagnostic span :: diagnostics) := by
  have hl : layout "1 @".toList =
      [⟨⟨0, 1, 1⟩, ⟨[], ['1'], .token (.number .integer) (some (.integer 1))⟩⟩,
        ⟨⟨2, 1, 3⟩, ⟨[' '], ['@'], .fault (.unexpectedChar '@')⟩⟩,
        ⟨⟨3, 1, 4⟩, ⟨[], [], .token .eof none⟩⟩] := by
    decide +kernel
  have h : scan "1 @" = .error ⟨.unexpectedChar '@', 1, 3⟩ :=
    (@scan_of_fault "1 @" [_] [_] _ [_] _ hl rfl rfl).2.1
  obtain ⟨front, later, span, diagnostics, hanswer, hrecovering, -⟩ :=
    (scan_agrees "1 @").2.2 _ h
  exact ⟨h, front, later, span, diagnostics, hanswer, hrecovering⟩

end BrightLexer
