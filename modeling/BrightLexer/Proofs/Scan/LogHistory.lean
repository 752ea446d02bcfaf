import BrightLexer.Proofs.Scan.Run
import Mathlib.Data.List.DropRight

/-!
# A log through its history

One log can be used for many source texts, beside what others emit into it, and be emptied in between.
`log_keeps_history` says that nothing but this history is seen in it: behind any operations it holds, in
order, what was emitted since it was last emptied, and counts the errors among that. Scanning neither
looks at a log nor changes what is in it. So a scan emits what it emits into an empty log, all of it
errors, and its tokens are the same (`scanInto_eq`).

What one operation does to a log is said by `Log.toList_perform`, and for a whole history it is the same
recursion on both sides, from the end (`Log.toList_performAll`).
-/

namespace BrightLexer

/-- What a scan does with a log: it puts behind it what it puts into an empty one. -/
theorem scanInto_eq (log : Log) (source : String) :
    (scanInto log source).1 = (scanRecovering source).1 ∧
      (scanInto log source).2.toList = log.toList ++ (scanRecovering source).2 := by
  obtain ⟨hrest, hposition⟩ := Lexer.skipMark_ofSource source
  obtain ⟨htokens, hlog⟩ :=
    Lexer.drain_eq (Lexer.markAllowed_skipMark (Lexer.ofSource source)) log
  rw [Lexer.drain_skipMark, hrest, hposition] at htokens hlog
  rw [scanRecovering_eq]
  exact ⟨htokens, hlog⟩

namespace Log

/-- An operation on a log. -/
inductive Operation where
  /-- `emit` -/
  | emit (d : Diagnostic)
  /-- `scanInto` -/
  | scan (source : String)
  /-- `clear` -/
  | clear
  /-- `takeAll` -/
  | takeAll

/-- What an operation answers. -/
inductive Answer where
  | nothing
  | tokens (tokens : List Token)
  | diagnostics (diagnostics : List Diagnostic)
deriving DecidableEq

/-- What an operation answers, and the log behind it. -/
def perform (log : Log) : Operation → Answer × Log
  | .emit d => (.nothing, log.emit d)
  | .scan source => (.tokens (scanInto log source).1, (scanInto log source).2)
  | .clear => (.nothing, log.clear)
  | .takeAll => (.diagnostics log.takeAll.1, log.takeAll.2)

/-- The log behind some operations. -/
def performAll (log : Log) : List Operation → Log
  | [] => log
  | o :: operations => (log.perform o).2.performAll operations

namespace Operation

/-- Whether an operation empties the log. -/
def empties : Operation → Bool
  | clear | takeAll => true
  | _ => false

/-- What an operation emits, for a scan the diagnostics of the source text by itself. -/
def emits : Operation → List Diagnostic
  | emit d => [d]
  | scan source => (scanRecovering source).2
  | _ => []

end Operation

/-- What was emitted in a history since the log was last emptied. -/
def emittedSince (history : List Operation) : List Diagnostic :=
  (history.rtakeWhile fun o => !o.empties).flatMap Operation.emits

section
variable {o : Operation}

/-- An operation that empties the log leaves nothing of what was emitted before it. -/
theorem emittedSince_append_of_empties (h : o.empties = true) (history : List Operation) :
    emittedSince (history ++ [o]) = [] := by
  rw [emittedSince, List.rtakeWhile_concat_neg _ _ _ (by simp [h])]
  rfl

/-- An operation that does not empty the log adds what it emits. -/
theorem emittedSince_append (h : o.empties = false) (history : List Operation) :
    emittedSince (history ++ [o]) = emittedSince history ++ o.emits := by
  rw [emittedSince, List.rtakeWhile_concat_pos _ _ _ (by simp [h]), List.flatMap_append,
    List.flatMap_singleton, emittedSince]

/-- One operation empties the log, or puts behind it what it emits. -/
theorem toList_perform (log : Log) (o : Operation) :
    (log.perform o).2.toList = if o.empties then [] else log.toList ++ o.emits := by
  cases o with
  | emit d => exact toList_emit log d
  | scan source => exact (scanInto_eq log source).2
  | clear => rfl
  | takeAll => rfl

/-- Operations are performed one after another. -/
theorem performAll_append (log : Log) (before later : List Operation) :
    log.performAll (before ++ later) = (log.performAll before).performAll later := by
  induction before generalizing log with
  | nil => rfl
  | cons o before ih => exact ih _

/-- A log holds what was emitted since it was last emptied. -/
theorem toList_performAll (history : List Operation) :
    (Log.empty.performAll history).toList = emittedSince history := by
  -- From the end, as the last operation decides whether the earlier ones are still seen.
  induction history using List.reverseRecOn with
  | nil => rfl
  | append_singleton history o ih =>
    have hlast : (Log.empty.performAll (history ++ [o])).toList =
        if o.empties then [] else emittedSince history ++ o.emits := by
      rw [performAll_append, ← ih]
      exact toList_perform _ o
    rw [hlast]
    split
    · next h => rw [emittedSince_append_of_empties h]
    · next h => rw [emittedSince_append (Bool.eq_false_iff.2 h)]

/-- A scan adds as many errors as diagnostics. -/
theorem errorCount_scanInto (log : Log) (source : String) :
    (scanInto log source).2.errorCount = log.errorCount + (scanRecovering source).2.length := by
  have herrors : (scanRecovering source).2.countP Diagnostic.isError =
      (scanRecovering source).2.length :=
    List.countP_eq_length.2 fun d hd => isError_of_mem_scanRecovering hd
  rw [errorCount, (scanInto_eq log source).2, List.countP_append, herrors, errorCount]

end

/-- What is known of a log behind a history of operations. -/
structure Records (history : List Operation) (log : Log) : Prop where
  /-- It holds, in order, what was emitted since it was last emptied. -/
  entries : log.toList = emittedSince history
  /-- It counts the errors in that. -/
  errorCount : log.errorCount = ((emittedSince history).filter fun d => d.level = .error).length
  /-- It has errors if it counts any. -/
  hasErrors : log.hasErrors = true ↔ 0 < log.errorCount
  /-- Scanning a source text next gives the tokens that a scan with an empty log gives. -/
  tokens : ∀ source, (log.perform (.scan source)).1 = .tokens (scanRecovering source).1
  /-- It adds the diagnostics of such a scan, and changes nothing else. -/
  added : ∀ source, (log.perform (.scan source)).2.toList = log.toList ++ (scanRecovering source).2
  /-- For each of them there is one more error. -/
  counted : ∀ source, (log.perform (.scan source)).2.errorCount =
    log.errorCount + (scanRecovering source).2.length
  /-- Taking all diagnostics out next gives what the log holds. -/
  taken : (log.perform .takeAll).1 = .diagnostics (emittedSince history)

end Log

/-- A log keeps its history. Behind any operations, in any order, it holds what was emitted since it was
last emptied and counts the errors among that; and a scan next gives the tokens of a scan with an empty
log, adds the diagnostics of such a scan, and adds as many errors. -/
theorem log_keeps_history (history : List Log.Operation) :
    (Log.empty.performAll history).Records history := by
  have hentries := Log.toList_performAll history
  refine ⟨hentries, ?_, decide_eq_true_iff, fun source => ?_, fun source => (scanInto_eq _ source).2,
    fun source => Log.errorCount_scanInto _ source, ?_⟩
  · rw [Log.errorCount, hentries, List.countP_eq_length_filter]
    rfl
  · exact congrArg Log.Answer.tokens (scanInto_eq _ source).1
  · exact congrArg Log.Answer.diagnostics hentries

end BrightLexer
