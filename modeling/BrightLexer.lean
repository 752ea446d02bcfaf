import BrightLexer.Main
import BrightLexer.Proofs.Lexer.Lookahead
import BrightLexer.Proofs.Lexer.Separator
import BrightLexer.Proofs.Lexer.Reading
import BrightLexer.Proofs.Scan.Piece
import BrightLexer.Proofs.Scan.Run
import BrightLexer.Proofs.Scan.Agreement
import BrightLexer.Proofs.Scan.Coverage
import BrightLexer.Proofs.Scan.Lines
import BrightLexer.Proofs.Scan.RoundTrip
import BrightLexer.Proofs.Scan.Resumption
import BrightLexer.Proofs.Scan.Positions
import BrightLexer.Proofs.Lexer.LetterCase
import BrightLexer.Proofs.Scan.LetterCase
import BrightLexer.Proofs.Scan.LineEnds
import BrightLexer.Proofs.Scan.Interleaving
import BrightLexer.Proofs.Lexer.Checked
import BrightLexer.Proofs.Command.DumpAgreement
import BrightLexer.Proofs.Scan.Steps
import BrightLexer.Proofs.Command.Workers
import BrightLexer.Proofs.Scan.TokenStart
import BrightLexer.Proofs.Scan.DesignatedWord
import BrightLexer.Proofs.Lexer.QuoteRuns
import BrightLexer.Proofs.Scan.QuotedText
import BrightLexer.Proofs.Number.Magnitude
import BrightLexer.Proofs.Number.Rounding
import BrightLexer.Proofs.Lexer.NumeralForm
import BrightLexer.Proofs.Lexer.NumeralValue
import BrightLexer.Proofs.Scan.Numerals
import BrightLexer.Proofs.Scan.PlainWord
import BrightLexer.Proofs.Scan.Symbols
import BrightLexer.Proofs.Scan.WholeNumbers
import BrightLexer.Proofs.Source.OneLine
import BrightLexer.Proofs.Scan.Snippet
import BrightLexer.Proofs.Command.TextDump
import BrightLexer.Proofs.Command.DumpModes
import BrightLexer.Proofs.Number.ShortestDecimal
import BrightLexer.Proofs.Number.ReadBack
import BrightLexer.Proofs.Number.SignedNumeral
import BrightLexer.Proofs.Token.ShownNumber
import BrightLexer.Proofs.Json.Written
import BrightLexer.Proofs.Command.JsonDump
import BrightLexer.Proofs.Scan.Hull
import BrightLexer.Proofs.Scan.LogHistory
import BrightLexer.Proofs.Source.LineLookup
import BrightLexer.Proofs.Command.OptionValues
import BrightLexer.Proofs.Command.SettingsChoice
import BrightLexer.Proofs.Source.CursorSplit
