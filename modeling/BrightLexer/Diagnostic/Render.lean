import BrightLexer.Diagnostic.Basic
import BrightLexer.Source.Lines

/-!
# Showing a diagnostic in its source text

A diagnostic is rendered as its header, the place it points to, the source line with carets under the
characters of its span, and its notes and suggestions. A line number that the text does not have
leaves the source line out.

The carets never reach past the shown line, except that there is always at least one
(`one_le_underlineWidth`): a span that covers several lines is underlined on its first, and one that
cannot be read from the text is underlined by a single caret.
-/

namespace BrightLexer

/-- A run of `n` copies of a character. -/
def run (n : Nat) (c : Char) : String := String.ofList (List.replicate n c)

namespace Diagnostic

/-- The column a diagnostic is shown at; a column before the first counts as the first. -/
def shownColumn (d : Diagnostic) : Nat := max d.span.column 1

/-- The number of characters of a span before the first line end in it; one if the span cannot be
read. -/
def spanWidth (d : Diagnostic) (source : List Char) : Nat :=
  match d.span.text? source with
  | .ok cs => (cs.takeWhile (· != '\n')).length
  | .error _ => 1

/-- The number of carets under a source line. -/
def underlineWidth (d : Diagnostic) (source line : List Char) : Nat :=
  max 1 (min (d.spanWidth source) (max (line.length - (d.shownColumn - 1)) 1))

/-- The source line with the carets under it. -/
def snippet (d : Diagnostic) (source line : List Char) : List String :=
  let gutter := toString d.span.line
  let pad := run gutter.length ' '
  let indent := run (d.shownColumn - 1) ' '
  let carets := run (d.underlineWidth source line) '^'
  [s!"{pad} |", s!"{gutter} | {String.ofList line}", s!"{pad} | {indent}{carets}"]

/-- The lines a diagnostic is rendered as. -/
def renderedLines (d : Diagnostic) (source : List Char) : List String :=
  let shown := match lineText source d.span.line with
    | .ok line => d.snippet source line
    | .error _ => []
  [d.header, s!" --> {d.span.place}"] ++ shown ++
    d.notes.map (fun note => s!"  = note: {note}") ++
    d.helps.map (fun help => s!"  = help: {help}")

/-- A diagnostic rendered against its source text, each line with a line end. -/
def render (d : Diagnostic) (source : String) : String :=
  String.join ((d.renderedLines source.toList).map (· ++ "\n"))

/-- There is always a caret. -/
theorem one_le_underlineWidth (d : Diagnostic) (source line : List Char) :
    1 ≤ d.underlineWidth source line :=
  Nat.le_max_left ..

end Diagnostic

end BrightLexer
