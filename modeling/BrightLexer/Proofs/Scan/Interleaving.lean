import BrightLexer.Proofs.Scan.Coverage
import BrightLexer.Proofs.Scan.Resumption
import Mathlib.Data.List.ReduceOption

/-!
# Calls to one lexer, in any order

A lexer can be asked for its next token in two ways. `nextToken` always answers; `next?` is an
iterator, and is done after the end token or a fault. `requests_served` says what any sequence of
such calls leads to, in any order: each call before the end of the text moves on, so there are at most
as many tokens and faults as characters; the end token is final; the iterator is done because of its
own answers only; and the answers are those that a new lexer gives to calls of `nextToken` alone.

The two ways share everything but the flag that says whether the iterator is done, and `nextToken`
does not look at it (`Lexer.nextToken_withFinished`). So a lexer behind some requests is a lexer behind
some calls of `nextToken`, up to this flag (`Lexer.served_eq`). `Lexer.serve_cases` is all that one
request can do.
-/

namespace BrightLexer

/-- A way to ask a lexer for its next token. -/
inductive Request where
  /-- `nextToken`, which always answers. -/
  | nextToken
  /-- `next?`, which is done after the end token or a fault. -/
  | next
deriving DecidableEq

/-- Whether an answer is the end token. -/
def isEnd : Except Fault Token → Bool
  | .ok token => token.kind == .eof
  | .error _ => false

/-- Whether an answer is the last one of an iterator. -/
def isLast : Except Fault Token → Bool
  | .ok token => token.kind == .eof
  | .error _ => true

/-- The diagnostic for an answer to a call, if it is a fault. -/
def diagnosticOf? : Except Fault Token × Span → Option Diagnostic
  | (.ok _, _) => none
  | (.error fault, span) => some (fault.diagnostic span)

/-- An answer is the end token just when it is a token of this kind. -/
theorem isEnd_eq_true_iff {item : Except Fault Token} :
    isEnd item = true ↔ ∃ token, item = .ok token ∧ token.kind = .eof := by
  cases item with
  | error fault => simp [isEnd]
  | ok token => simp [isEnd]

namespace Lexer

/-- The answer to a request, and the lexer behind it. -/
def serve (l : Lexer) : Request → Option (Except Fault Token) × Lexer
  | .nextToken => (some l.nextToken.1, l.nextToken.2)
  | .next => l.next?

/-- The answers to some requests. -/
def replies (l : Lexer) : List Request → List (Option (Except Fault Token))
  | [] => []
  | r :: requests => (l.serve r).1 :: (l.serve r).2.replies requests

/-- The lexer behind some requests. -/
def served (l : Lexer) : List Request → Lexer
  | [] => l
  | r :: requests => (l.serve r).2.served requests

/-- The same lexer, but for whether `next?` is done. -/
def withFinished (l : Lexer) (finished : Bool) : Lexer := { l with finished := finished }

section
variable {l m : Lexer}

/-- Requests are served one after another. -/
theorem served_append (l : Lexer) (before later : List Request) :
    l.served (before ++ later) = (l.served before).served later := by
  induction before generalizing l with
  | nil => rfl
  | cons r before ih => exact ih _

/-! ## One request -/

/-- Whether `next?` is done makes no difference to `nextToken`. -/
theorem nextToken_withFinished (l : Lexer) (finished : Bool) :
    (l.withFinished finished).nextToken = (l.nextToken.1, l.nextToken.2.withFinished finished) := by
  have hmark : (l.withFinished finished).skipMark = l.skipMark.withFinished finished := by
    unfold skipMark withFinished
    split
    · rfl
    · rfl
  have hallowed : (l.skipMark.withFinished finished).markAllowed = false := markAllowed_skipMark l
  rw [← nextToken_skipMark, hmark, nextToken_eq hallowed, ← nextToken_skipMark l,
    nextToken_eq (markAllowed_skipMark l)]
  rfl

/-- `nextToken` leaves the flag of the iterator as it is. -/
theorem finished_nextToken (l : Lexer) : l.nextToken.2.finished = l.finished := by
  have h : l.nextToken.2.finished = (l.withFinished l.finished).nextToken.2.finished := rfl
  rw [h, nextToken_withFinished]
  rfl

/-- What a request can do: the iterator is done and nothing changes, or the next token is read, and
the iterator remembers whether that was its last answer. -/
theorem serve_cases (l : Lexer) (r : Request) :
    (r = .next ∧ l.finished = true ∧ l.serve r = (none, l)) ∨
      (r = .next ∧ l.finished = false ∧
        l.serve r = (some l.nextToken.1, l.nextToken.2.withFinished (isLast l.nextToken.1))) ∨
      r = .nextToken ∧
        l.serve r = (some l.nextToken.1, l.nextToken.2.withFinished l.finished) := by
  cases r with
  | nextToken =>
    refine .inr (.inr ⟨rfl, ?_⟩)
    rw [← finished_nextToken l]
    rfl
  | next =>
    cases hf : l.finished with
    | true => exact .inl ⟨rfl, rfl, by rw [serve, next?, hf]; rfl⟩
    | false =>
      refine .inr (.inl ⟨rfl, rfl, ?_⟩)
      rcases h : l.nextToken with ⟨fault | token, m⟩
      · exact next?_of_fault hf h
      · exact next?_of_token hf h

/-- A request that is answered reads the next token. -/
theorem serve_of_some {r : Request} {item : Except Fault Token} (h : (l.serve r).1 = some item) :
    item = l.nextToken.1 ∧ ∃ finished, (l.serve r).2 = l.nextToken.2.withFinished finished := by
  rcases l.serve_cases r with ⟨-, -, hs⟩ | ⟨-, -, hs⟩ | ⟨-, hs⟩
  · rw [hs] at h
    cases h
  · rw [hs] at h ⊢
    exact ⟨(Option.some_inj.1 h).symm, _, rfl⟩
  · rw [hs] at h ⊢
    exact ⟨(Option.some_inj.1 h).symm, _, rfl⟩

/-! ## Progress -/

/-- Reading a token or a fault leaves less of the text. -/
theorem length_rest_nextToken_le (l : Lexer) :
    l.nextToken.2.rest.length + (if isEnd l.nextToken.1 then 0 else 1) ≤ l.rest.length := by
  split
  · obtain ⟨n, hn⟩ := l.cursor_nextToken
    rw [rest, hn, Cursor.rest_forward, List.length_drop]
    exact Nat.sub_le ..
  · next h => exact (nextToken_rest l).resolve_left fun he => h (isEnd_eq_true_iff.2 he)

/-- Reading a token or a fault moves the cursor on by at least a byte. -/
theorem offset_nextToken_lt (h : isEnd l.nextToken.1 = false) :
    l.cursor.position.offset < l.nextToken.2.cursor.position.offset := by
  obtain ⟨n, hn⟩ := l.cursor_nextToken
  have hless := l.length_rest_nextToken_le
  rw [h, if_neg Bool.false_ne_true, rest, hn, Cursor.rest_forward, List.length_drop] at hless
  have htaken : 0 < (l.cursor.rest.take n).length := by
    have hrest : l.rest.length = l.cursor.rest.length := rfl
    rw [List.length_take]
    omega
  have hbytes := length_le_byteLength (l.cursor.rest.take n)
  rw [hn, Cursor.position_forward, Position.offset_after]
  omega

/-- Each answer but the end token is paid for with a character. -/
theorem countP_replies_le (l : Lexer) (requests : List Request) :
    (l.replies requests).countP (·.any (!isEnd ·)) + (l.served requests).rest.length ≤
      l.rest.length := by
  induction requests generalizing l with
  | nil => simp [replies, served]
  | cons r requests ih =>
    have hless := l.length_rest_nextToken_le
    have hread : ∀ finished, l.serve r = (some l.nextToken.1, l.nextToken.2.withFinished finished) →
        (l.replies (r :: requests)).countP (·.any (!isEnd ·)) +
          (l.served (r :: requests)).rest.length ≤ l.rest.length := by
      intro finished hs
      have hrest := ih (l.nextToken.2.withFinished finished)
      have hsame : (l.nextToken.2.withFinished finished).rest = l.nextToken.2.rest := rfl
      rw [hsame] at hrest
      rw [replies, served, hs, List.countP_cons, Option.any_some]
      dsimp only
      cases he : isEnd l.nextToken.1 with
      | true =>
        rw [he, if_pos rfl] at hless
        rw [Bool.not_true, if_neg Bool.false_ne_true]
        omega
      | false =>
        rw [he, if_neg Bool.false_ne_true] at hless
        rw [Bool.not_false, if_pos rfl]
        omega
    rcases l.serve_cases r with ⟨-, -, hs⟩ | ⟨-, -, hs⟩ | ⟨-, hs⟩
    · rw [replies, served, hs, List.countP_cons]
      exact ih l
    · exact hread _ hs
    · exact hread _ hs

/-! ## The end token is final -/

/-- If nothing but a gap is left, the lexer goes to the end and hands out the end token. -/
theorem behind_of_rest_eq_nil (h : (cutTrivia l.rest).rest = []) :
    l.behind = l.skipTrivia ∧ l.firstPlaced.item = .ok ⟨.eof, "", none, l.skipTrivia.span.line, l.skipTrivia.span⟩ := by
  have hrest : l.skipTrivia.rest = [] := (rest_skipTrivia_eq l).trans h
  have hbehind : l.behind = l.skipTrivia := by
    rw [behind, pass, hrest]
    simp [take, reading, Cursor.forward]
  refine ⟨hbehind, ?_⟩
  rw [← hbehind, span_behind, Placed.item, firstPlaced, firstPiece_of_rest_eq_nil h]
  rfl

/-- Behind the end token nothing is left, and the end token is handed out again without a change. -/
theorem nextToken_of_isEnd (h : isEnd l.nextToken.1 = true) :
    l.nextToken.2.rest = [] ∧ l.nextToken.2.nextToken = (l.nextToken.1, l.nextToken.2) := by
  obtain ⟨token, ht, hk⟩ := isEnd_eq_true_iff.1 h
  rw [← nextToken_skipMark l, nextToken_eq (markAllowed_skipMark l)] at ht ⊢
  generalize hm : l.skipMark = m at ht ⊢
  have hallowed : m.markAllowed = false := hm ▸ markAllowed_skipMark l
  have hcut : (cutTrivia m.rest).rest = [] :=
    Decidable.byContradiction fun hne => kind_ne_eof hne ht hk
  -- The end token leaves the lexer at `m.skipTrivia`, where nothing is left to pass over.
  obtain ⟨hbehind, hitem⟩ := behind_of_rest_eq_nil hcut
  have hrest : m.skipTrivia.rest = [] := (rest_skipTrivia_eq m).trans hcut
  obtain ⟨hagain, hitem'⟩ := behind_of_rest_eq_nil (l := m.skipTrivia) (by rw [hrest]; rfl)
  have hstays : m.skipTrivia.skipTrivia = m.skipTrivia := by
    calc m.skipTrivia.skipTrivia
      _ = startToken { m.skipTrivia with
            cursor := m.skipTrivia.cursor.forward (cutTrivia m.skipTrivia.rest).taken.length } := rfl
      _ = m.skipTrivia := by rw [hrest]; rfl
  rw [hbehind]
  refine ⟨hrest, ?_⟩
  rw [nextToken_eq (l := m.skipTrivia) hallowed, hagain, hitem', hstays, hitem]

/-- Requests do not change that the end token was reached. -/
theorem nextToken_served_of_end {token : Token} (h : l.nextToken = (.ok token, l))
    (requests : List Request) :
    (l.served requests).nextToken = (.ok token, l.served requests) := by
  induction requests generalizing l with
  | nil => exact h
  | cons r requests ih =>
    rw [served]
    refine ih ?_
    rcases l.serve_cases r with ⟨-, -, hs⟩ | ⟨-, -, hs⟩ | ⟨-, hs⟩
    · rw [hs]
      exact h
    all_goals rw [hs, nextToken_withFinished, h, h]

/-- Once the end token was handed out, it is handed out without a change. -/
theorem nextToken_served_of_mem {token : Token} {requests : List Request}
    (h : some (.ok token) ∈ l.replies requests) (hk : token.kind = .eof) :
    (l.served requests).nextToken = (.ok token, l.served requests) := by
  induction requests generalizing l with
  | nil => cases h
  | cons r requests ih =>
    rw [served]
    rcases List.mem_cons.1 h with h | h
    · obtain ⟨hitem, finished, hs⟩ := serve_of_some h.symm
      have hend : isEnd l.nextToken.1 = true := isEnd_eq_true_iff.2 ⟨token, hitem.symm, hk⟩
      refine nextToken_served_of_end ?_ requests
      rw [hs, nextToken_withFinished, (nextToken_of_isEnd hend).2, hitem]
    · exact ih h

/-! ## When the iterator is done -/

/-- The iterator gives nothing just when it is done. -/
theorem next?_eq_none_iff : l.next?.1 = none ↔ l.finished = true := by
  rcases l.serve_cases .next with ⟨-, hf, hs⟩ | ⟨-, hf, hs⟩ | ⟨h, -⟩
  · rw [show l.next? = _ from hs, hf]
    exact iff_of_true rfl rfl
  · rw [show l.next? = _ from hs, hf]
    exact iff_of_false nofun nofun
  · cases h

/-- The iterator is done because of an answer of its own. -/
theorem finished_served_iff (l : Lexer) (requests : List Request) :
    (l.served requests).finished = true ↔ l.finished = true ∨
      ∃ item, (.next, some item) ∈ requests.zip (l.replies requests) ∧ isLast item = true := by
  induction requests generalizing l with
  | nil => simp [served, replies]
  | cons r requests ih =>
    rw [served, ih, replies, List.zip_cons_cons]
    rcases l.serve_cases r with ⟨rfl, hf, hs⟩ | ⟨rfl, hf, hs⟩ | ⟨rfl, hs⟩
    · simp [hs, hf]
    · simp [hs, hf, withFinished, or_and_right, exists_or]
    · simp [hs, withFinished]

/-- Once it is done, it stays so and changes nothing. -/
theorem next?_served_of_none (h : l.next?.1 = none) (requests : List Request) :
    (l.served requests).next? = (none, l.served requests) := by
  have hf := (finished_served_iff l requests).2 (.inl (next?_eq_none_iff.1 h))
  rw [next?, if_pos hf]

/-! ## The answers are those of calls to `nextToken` -/

/-- The answers, and the lexer behind them up to whether the iterator is done. -/
theorem served_eq (l : Lexer) (finished : Bool) (requests : List Request) :
    ∃ n done, ((l.withFinished finished).replies requests).reduceOption =
        (List.range n).map (fun k => (l.call k).1) ∧
      (l.withFinished finished).served requests = (l.afterCalls n).withFinished done := by
  -- The flag is general: it differs behind a request to the iterator, and `nextToken` keeps it.
  induction requests generalizing l finished with
  | nil => exact ⟨0, finished, rfl, rfl⟩
  | cons r requests ih =>
    have hnext := nextToken_withFinished l finished
    have hread : ∀ done, (l.withFinished finished).serve r =
          (some l.nextToken.1, l.nextToken.2.withFinished done) →
        ∃ n done, ((l.withFinished finished).replies (r :: requests)).reduceOption =
            (List.range n).map (fun k => (l.call k).1) ∧
          (l.withFinished finished).served (r :: requests) = (l.afterCalls n).withFinished done := by
      intro done hs
      obtain ⟨n, done, hreplies, hserved⟩ := ih l.nextToken.2 done
      refine ⟨n + 1, done, ?_, ?_⟩
      · rw [replies, hs, List.reduceOption_cons_of_some, hreplies, List.range_succ_eq_map,
          List.map_cons, List.map_map]
        rfl
      · rw [served, hs, hserved]
        rfl
    rcases (l.withFinished finished).serve_cases r with ⟨-, -, hs⟩ | ⟨-, -, hs⟩ | ⟨-, hs⟩
    · obtain ⟨n, done, hreplies, hserved⟩ := ih l finished
      refine ⟨n, done, ?_, ?_⟩
      · rw [replies, hs, List.reduceOption_cons_of_none, hreplies]
      · rw [served, hs, hserved]
    · rw [hnext] at hs
      exact hread _ hs
    · rw [hnext] at hs
      exact hread _ hs

/-! ## How many calls there are before the end -/

/-- Calls that do not reach the end leave as many characters less. -/
theorem length_rest_afterCalls_le {n : Nat} (h : ∀ k < n, isEnd (l.call k).1 = false) :
    (l.afterCalls n).rest.length + n ≤ l.rest.length := by
  induction n generalizing l with
  | zero => exact Nat.le_refl _
  | succ n ih =>
    have hfirst : isEnd l.nextToken.1 = false := h 0 (Nat.succ_pos n)
    have hless := l.length_rest_nextToken_le
    have hrest := ih (l := l.nextToken.2) fun k hk => h (k + 1) (Nat.succ_lt_succ hk)
    rw [hfirst, if_neg Bool.false_ne_true] at hless
    rw [afterCalls]
    omega

/-! ## Where the lexer is -/

/-- Whatever the requests, the cursor stands in the source text. -/
theorem cursor_in_served (source : String) (requests : List Request) :
    ((ofSource source).served requests).cursor.In source.toList := by
  obtain ⟨n, done, -, hserved⟩ := (ofSource source).served_eq false requests
  obtain ⟨k, hk⟩ := cursor_afterCalls source n
  rw [show ofSource source = (ofSource source).withFinished false from rfl, hserved]
  show Cursor.In source.toList ((ofSource source).afterCalls n).cursor
  rw [hk]
  exact (Cursor.in_ofSource source.toList).forward k

end

end Lexer

/-! ## The theorem -/

/-- What is known of a lexer over a source text that is behind some requests, and of the answers it
gave to them. -/
structure Lexer.Orderly (source : String) (requests : List Request) (l : Lexer)
    (answers : List (Option (Except Fault Token))) : Prop where
  /-- What it answers to the next request is the end token at the end of the text, or it moves on by at
  least a byte. -/
  progress : ∀ r item, (l.serve r).1 = some item → if isEnd item then
      (l.serve r).2.rest = [] ∧ (l.serve r).2.cursor.position.offset = byteLength source.toList
    else l.cursor.position.offset < (l.serve r).2.cursor.position.offset
  /-- At most as many answers as there are characters were not the end token. -/
  bounded : answers.countP (·.any (!isEnd ·)) ≤ source.toList.length
  /-- Once the end token was an answer, it is the next token again, and reading it changes nothing. -/
  ending : ∀ token, some (.ok token) ∈ answers → token.kind = .eof → l.nextToken = (.ok token, l)
  /-- As an iterator it is done if a request to the iterator was answered by the end token or a
  fault, and only then. -/
  done : l.next?.1 = none ↔
    ∃ item, (.next, some item) ∈ requests.zip answers ∧ isLast item = true
  /-- Done it stays, whatever the requests, and it then changes nothing. -/
  forever : l.next?.1 = none → ∀ later, (l.served later).next? = (none, l.served later)
  /-- The answers are those of a new lexer to as many calls of `nextToken`. -/
  inOrder : ∃ n, answers.reduceOption = (List.range n).map fun k => ((ofSource source).call k).1

/-- Scanning with recovery is some calls of `nextToken`, no more than there are characters and one for
the end token, which is the answer to the last of them and to no other. -/
theorem Lexer.scanRecovering_eq_calls (source : String) :
    ∃ n ≤ source.toList.length, isEnd ((ofSource source).call n).1 = true ∧
      (∀ k < n, isEnd ((ofSource source).call k).1 = false) ∧
      scanRecovering source =
        (((List.range (n + 1)).map (ofSource source).call).filterMap (·.1.toOption),
          ((List.range (n + 1)).map (ofSource source).call).filterMap diagnosticOf?) := by
  obtain ⟨front, y, hl, hfront, -, hy, -, -⟩ := eof_in_layout source.toList
  have hcalls : (List.range (front.length + 1)).map (ofSource source).call =
      (layout source.toList).map fun x => (x.item, x.span) := by
    refine List.ext_getElem? fun k => ?_
    rw [List.getElem?_map, List.getElem?_map]
    rcases hx : (layout source.toList)[k]? with _ | x
    · rw [hl, List.getElem?_eq_none_iff, List.length_append] at hx
      rw [List.getElem?_eq_none (by rw [List.length_range]; exact hx)]
      rfl
    · have hk : k < front.length + 1 := by
        have hlt := (List.getElem?_eq_some_iff.1 hx).1
        rwa [hl, List.length_append] at hlt
      rw [List.getElem?_range hk, Option.map_some, call_of_layout hx]
      rfl
  have hbefore : ∀ k < front.length, isEnd ((ofSource source).call k).1 = false := by
    intro k hk
    have hx : (layout source.toList)[k]? = some front[k] := by
      rw [hl, List.getElem?_append_left hk, List.getElem?_eq_getElem hk]
    have hne := hfront _ (List.getElem_mem hk)
    rw [call_of_layout hx, Placed.item]
    rcases hf : front[k].piece.finding with ⟨kind, value⟩ | cause
    · refine beq_eq_false_iff_ne.2 fun he => hne value ?_
      rw [hf, show kind = .eof from he]
    · rfl
  have hlast : (layout source.toList)[front.length]? = some y := by
    rw [hl, List.getElem?_append_right (Nat.le_refl _), Nat.sub_self]
    rfl
  refine ⟨front.length, ?_, ?_, hbefore, ?_⟩
  · exact Nat.le_trans (Nat.le_add_left ..) (length_rest_afterCalls_le hbefore)
  · rw [call_of_layout hlast, Placed.item, hy]
    rfl
  · have hdiagnostic : (diagnosticOf? ∘ fun x : Placed => (x.item, x.span)) = Placed.diagnostic? := by
      funext x
      rw [Function.comp_apply, Placed.diagnostic?]
      cases x.item with
      | ok token => rfl
      | error fault => rfl
    rw [scanRecovering_eq, hcalls, List.filterMap_map, List.filterMap_map, hdiagnostic]
    rfl

/-- Calls to one lexer, in any order. Behind any requests a lexer is orderly: it moves on with each
answer, the end token is final, the iterator is done because of its own answers only, and the answers
are those to calls of `nextToken` alone. Scanning with recovery is such calls, and as few as there are
characters and the end token. -/
theorem requests_served (source : String) (requests : List Request) :
    Lexer.Orderly source requests ((Lexer.ofSource source).served requests)
      ((Lexer.ofSource source).replies requests) ∧
    ∃ n ≤ source.toList.length, isEnd ((Lexer.ofSource source).call n).1 = true ∧
      (∀ k < n, isEnd ((Lexer.ofSource source).call k).1 = false) ∧
      scanRecovering source =
        (((List.range (n + 1)).map (Lexer.ofSource source).call).filterMap (·.1.toOption),
          ((List.range (n + 1)).map (Lexer.ofSource source).call).filterMap diagnosticOf?) := by
  refine ⟨⟨?_, ?_, ?_, ?_, ?_, ?_⟩, Lexer.scanRecovering_eq_calls source⟩
  · intro r item hanswer
    obtain ⟨rfl, finished, hs⟩ := Lexer.serve_of_some hanswer
    rw [hs]
    split
    · next hend =>
      have hrest := (Lexer.nextToken_of_isEnd hend).1
      have hcursor := Lexer.cursor_in_served source (requests ++ [r])
      rw [Lexer.served_append, Lexer.served, Lexer.served, hs] at hcursor
      exact ⟨hrest, hcursor.offset_of_rest_eq_nil hrest⟩
    · next hend => exact Lexer.offset_nextToken_lt (Bool.eq_false_iff.2 hend)
  · exact Nat.le_trans (Nat.le_add_right ..) ((Lexer.ofSource source).countP_replies_le requests)
  · exact fun token hmem hk => Lexer.nextToken_served_of_mem hmem hk
  · rw [Lexer.next?_eq_none_iff, Lexer.finished_served_iff]
    exact or_iff_right Bool.false_ne_true
  · exact fun hnone later => Lexer.next?_served_of_none hnone later
  · obtain ⟨n, done, hreplies, -⟩ := (Lexer.ofSource source).served_eq false requests
    exact ⟨n, hreplies⟩

/-- A fault that `nextToken` answers does not make the iterator done, and the end token that the
iterator answers does; `nextToken` still answers with it. -/
theorem requests_served_unexpected :
    let requests : List Request := [.nextToken, .next, .next, .next, .nextToken]
    let l := (Lexer.ofSource "@ 1").served requests
    let eof : Token := ⟨.eof, "", none, 1, ⟨3, 3, 1, 4⟩⟩
    (Lexer.ofSource "@ 1").replies requests =
      [some (.error ⟨.unexpectedChar '@', 1, 1⟩),
        some (.ok ⟨.number .integer, "1", some (.integer 1), 1, ⟨2, 3, 1, 3⟩⟩),
        some (.ok eof), none, some (.ok eof)] ∧
      l.nextToken = (.ok eof, l) ∧ l.next? = (none, l) := by
  intro requests l eof
  have hreplies : (Lexer.ofSource "@ 1").replies requests =
      [some (.error ⟨.unexpectedChar '@', 1, 1⟩),
        some (.ok ⟨.number .integer, "1", some (.integer 1), 1, ⟨2, 3, 1, 3⟩⟩),
        some (.ok eof), none, some (.ok eof)] := by
    decide +kernel
  obtain ⟨horderly, -⟩ := requests_served "@ 1" requests
  rw [hreplies] at horderly
  have hdone : l.next?.1 = none := horderly.done.2 ⟨.ok eof, by simp [requests], rfl⟩
  exact ⟨hreplies, horderly.ending eof (by simp) rfl, horderly.forever hdone []⟩

end BrightLexer
