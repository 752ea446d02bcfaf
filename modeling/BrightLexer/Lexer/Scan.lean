import BrightLexer.Diagnostic.Log
import BrightLexer.Lexer.Basic

/-!
# Scanning a whole source text

There are two ways to read a whole text. `scan` stops at the first fault. `scanInto` emits a
diagnostic for each fault into a log and goes on behind it, so what it returns has gaps there; it
always ends with the end token. Both end because each call of `Lexer.nextToken` before the end leaves
less of the text (`Lexer.nextToken_rest`).
-/

namespace BrightLexer

namespace Lexer

/-- How much there is left to hand out: nothing once the lexer is finished. -/
def remaining (l : Lexer) : Nat := if l.finished then 0 else l.rest.length + 1

/-- Whatever `next?` hands out, there is less left behind it. -/
theorem remaining_next?_lt {l l' : Lexer} {item : Except Fault Token}
    (h : l.next? = (some item, l')) : l'.remaining < l.remaining := by
  unfold next? at h
  split at h
  · simp at h
  · next hf =>
    split at h
    · next token m hm =>
      have hp := l.nextToken_rest
      simp only [Prod.mk.injEq] at h
      rw [← h.2]
      simp only [remaining, hf]
      by_cases hk : token.kind = .eof
      · simp [hk]
      · simp only [hm, Except.ok.injEq, exists_eq_left', hk, false_or] at hp
        simp only [beq_iff_eq, hk, if_false, Bool.false_eq_true]
        exact Nat.succ_lt_succ hp
    · simp only [Prod.mk.injEq] at h
      rw [← h.2]
      simp [remaining, hf]

/-- Everything `next?` hands out from here on. -/
def items (l : Lexer) : List (Except Fault Token) :=
  match _h : l.next? with
  | (none, _) => []
  | (some item, l') => item :: l'.items
termination_by l.remaining
decreasing_by exact remaining_next?_lt _h

/-- Reads to the end of the text, emitting a diagnostic for each fault. -/
def drain (l : Lexer) (log : Log) : List Token × Log :=
  match _h : l.nextToken with
  | (.error fault, l') => l'.drain (log.emit (fault.diagnostic l'.span))
  | (.ok token, l') =>
    if token.kind = .eof then ([token], log)
    else
      let (tokens, log) := l'.drain log
      (token :: tokens, log)
termination_by l.rest.length
decreasing_by
  all_goals
    rcases l.nextToken_rest with ⟨t, ht, he⟩ | h
    · simp_all
    · simpa [_h] using h

end Lexer

/-- Everything that a lexer over a source text hands out. -/
def iterate (source : String) : List (Except Fault Token) := (Lexer.ofSource source).items

/-- The tokens of a source text, or its first fault. -/
def scan (source : String) : Except Fault (List Token) := (iterate source).mapM id

/-- The tokens of a source text, with a diagnostic for each fault put into a log. -/
def scanInto (log : Log) (source : String) : List Token × Log :=
  (Lexer.ofSource source).drain log

/-- The tokens of a source text, and a diagnostic for each fault. -/
def scanRecovering (source : String) : List Token × List Diagnostic :=
  let (tokens, log) := scanInto .empty source
  (tokens, log.toList)

end BrightLexer
