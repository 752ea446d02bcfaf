import BrightLexer.Text.CharClass

/-!
# Reserved words

The reserved words of the language, each with its spelling in lower case and the name its tokens are
shown under. A word is looked up without regard to the case of its ASCII letters. A constructor ends
in an underscore where its word is taken in this file's own language. `rem` is no reserved word: as a
whole word it opens a comment.
-/

namespace BrightLexer

/-- A reserved word. -/
inductive Keyword where
  | and_ | box | dim | each | else_ | elseIf | end_ | endFunction | endFor | endIf | endSub
  | endWhile | exit | exitFor | exitWhile | false_ | for_ | forEach | function | goto | if_
  | in_ | invalid | let_ | mod | next | not_ | or_ | print | return_ | step | stop | sub
  | then_ | to | true_ | while_
deriving DecidableEq

namespace Keyword

/-- Every reserved word. -/
def all : List Keyword :=
  [.and_, .box, .dim, .each, .else_, .elseIf, .end_, .endFunction, .endFor, .endIf, .endSub,
    .endWhile, .exit, .exitFor, .exitWhile, .false_, .for_, .forEach, .function, .goto, .if_,
    .in_, .invalid, .let_, .mod, .next, .not_, .or_, .print, .return_, .step, .stop, .sub,
    .then_, .to, .true_, .while_]

/-- How a reserved word is written, in lower case. -/
def spelling : Keyword → String
  | .and_ => "and"
  | .box => "box"
  | .dim => "dim"
  | .each => "each"
  | .else_ => "else"
  | .elseIf => "elseif"
  | .end_ => "end"
  | .endFunction => "endfunction"
  | .endFor => "endfor"
  | .endIf => "endif"
  | .endSub => "endsub"
  | .endWhile => "endwhile"
  | .exit => "exit"
  | .exitFor => "exitfor"
  | .exitWhile => "exitwhile"
  | .false_ => "false"
  | .for_ => "for"
  | .forEach => "foreach"
  | .function => "function"
  | .goto => "goto"
  | .if_ => "if"
  | .in_ => "in"
  | .invalid => "invalid"
  | .let_ => "let"
  | .mod => "mod"
  | .next => "next"
  | .not_ => "not"
  | .or_ => "or"
  | .print => "print"
  | .return_ => "return"
  | .step => "step"
  | .stop => "stop"
  | .sub => "sub"
  | .then_ => "then"
  | .to => "to"
  | .true_ => "true"
  | .while_ => "while"

/-- The name a reserved word is shown under. -/
def name : Keyword → String
  | .and_ => "And"
  | .box => "Box"
  | .dim => "Dim"
  | .each => "Each"
  | .else_ => "Else"
  | .elseIf => "ElseIf"
  | .end_ => "End"
  | .endFunction => "EndFunction"
  | .endFor => "EndFor"
  | .endIf => "EndIf"
  | .endSub => "EndSub"
  | .endWhile => "EndWhile"
  | .exit => "Exit"
  | .exitFor => "ExitFor"
  | .exitWhile => "ExitWhile"
  | .false_ => "False"
  | .for_ => "For"
  | .forEach => "ForEach"
  | .function => "Function"
  | .goto => "Goto"
  | .if_ => "If"
  | .in_ => "In"
  | .invalid => "Invalid"
  | .let_ => "Let"
  | .mod => "Mod"
  | .next => "Next"
  | .not_ => "Not"
  | .or_ => "Or"
  | .print => "Print"
  | .return_ => "Return"
  | .step => "Step"
  | .stop => "Stop"
  | .sub => "Sub"
  | .then_ => "Then"
  | .to => "To"
  | .true_ => "True"
  | .while_ => "While"

/-- The reserved word that a text spells in any case. -/
def ofText? (cs : List Char) : Option Keyword :=
  let word := String.ofList (lowerCase cs)
  all.find? fun k => k.spelling == word

/-- The list of all reserved words leaves none out. -/
theorem mem_all (k : Keyword) : k ∈ all := by cases k <;> decide

/-- No two reserved words are spelled alike. -/
theorem spelling_injective {j k : Keyword} (h : j.spelling = k.spelling) : j = k := by
  have key : ∀ j ∈ all, ∀ k ∈ all, j.spelling = k.spelling → j = k := by decide +kernel
  exact key j (mem_all j) k (mem_all k) h

/-- Looking a text up finds the reserved word whose spelling is the text in lower case, if there is
one. -/
theorem ofText?_eq_some_iff {cs : List Char} {k : Keyword} :
    ofText? cs = some k ↔ lowerCase cs = k.spelling.toList := by
  constructor
  · intro h
    have h := List.find?_some h
    have h : k.spelling = String.ofList (lowerCase cs) := by simpa using h
    simp [h]
  · intro h
    have hk : k.spelling = String.ofList (lowerCase cs) := by simp [h]
    unfold ofText?
    cases hf : all.find? fun k => k.spelling == String.ofList (lowerCase cs) with
    | none => exact absurd hk (by simpa using List.find?_eq_none.1 hf k (mem_all k))
    | some j =>
      have hj : j.spelling = String.ofList (lowerCase cs) := by simpa using List.find?_some hf
      exact congrArg some (spelling_injective (hj.trans hk.symm))

end Keyword

end BrightLexer
