import BrightLexer.Command.Outcome
import BrightLexer.Lexer.Scan
import BrightLexer.Token.Dump

/-!
# Writing the tokens of a file

`dumpTokens` writes all tokens of a file or, when it has to stop at a fault, nothing. With recovery it
always writes the tokens that there are; the faults then go to the error stream, and the command fails
if there was one.
-/

namespace BrightLexer

/-- Tokens in one of the formats. -/
def DumpFormat.write (tokens : List Token) : DumpFormat → String
  | .text => dumpText tokens
  | .json => (dumpJson tokens).indentedText ++ "\n"

/-- What the command for writing tokens was asked for. -/
structure DumpRequest where
  /-- The source file. -/
  path : String
  /-- How tokens are written. -/
  format : DumpFormat
  /-- Whether scanning goes on after a fault. -/
  recover : Bool
deriving DecidableEq

/-- Writes the tokens of a source text that was read from a path. -/
def dumpSource (request : DumpRequest) (source : String) : Outcome :=
  if request.recover then
    let (tokens, log) := scanInto .empty source
    let out := request.format.write tokens
    if log.hasErrors then
      let diagnostics := log.toList
      ⟨out, renderAll request.path source diagnostics,
        some (.validation s!"{diagnostics.length} lexical error(s) in {request.path}")⟩
    else ⟨out, "", none⟩
  else
    match scan source with
    | .ok tokens => ⟨request.format.write tokens, "", none⟩
    | .error fault => .failed (.lexical request.path fault)

/-- Writes the tokens of a file. -/
def dumpTokens (files : Files) (request : DumpRequest) : Outcome :=
  match readSource files request.path with
  | .ok source => dumpSource request source
  | .error failure => .failed failure

end BrightLexer
