import MonkeyTokens.Vocabulary.Kind
import MonkeyTokens.Vocabulary.Spelling
import MonkeyTokens.Vocabulary.Token
import MonkeyTokens.Vocabulary.Located
import MonkeyTokens.Vocabulary.Lexeme
import MonkeyTokens.Source.Fault
import MonkeyTokens.Source.Span
import MonkeyTokens.Source.Bytes
import MonkeyTokens.Source.Cursor
import MonkeyTokens.Source.Placed
import MonkeyTokens.Text.Ranges
import MonkeyTokens.Text.NonGraphic
import MonkeyTokens.Text.ExtendingMarks
import MonkeyTokens.Text.Hidden
import MonkeyTokens.Text.Quoted
import MonkeyTokens.Log.Event
import MonkeyTokens.Scan.ByteClass
import MonkeyTokens.Scan.Token
import MonkeyTokens.Scan.Scanner
import MonkeyTokens.Scan.Stream
import MonkeyTokens.Scan.Strict
import MonkeyTokens.Scan.Iteration
import MonkeyTokens.Scan.Call
import MonkeyTokens.Diagnostic.LexicalError
import MonkeyTokens.Diagnostic.Debug
import MonkeyTokens.Reading
import MonkeyTokens.Proofs.Encoding
import MonkeyTokens.Proofs.Between
import MonkeyTokens.Proofs.Boundaries
import MonkeyTokens.Proofs.Positions
import MonkeyTokens.Proofs.Runs
import MonkeyTokens.Proofs.Slices
import MonkeyTokens.Proofs.Spelling
import MonkeyTokens.Proofs.Reading
import MonkeyTokens.Proofs.Refinement
import MonkeyTokens.Proofs.Steps
import MonkeyTokens.Proofs.Gluing
import MonkeyTokens.Proofs.Printing
import MonkeyTokens.Proofs.Partition
import MonkeyTokens.Proofs.Guarded
import MonkeyTokens.Proofs.Safety
import MonkeyTokens.Proofs.Progress
import MonkeyTokens.Proofs.Resumption
import MonkeyTokens.Proofs.Ending
import MonkeyTokens.Proofs.Separators
import MonkeyTokens.Proofs.Illegal
import MonkeyTokens.Proofs.Strict
import MonkeyTokens.Proofs.Appending
import MonkeyTokens.Proofs.Reports
import MonkeyTokens.Proofs.Agreement
import MonkeyTokens.Proofs.ReservedWords
import MonkeyTokens.Proofs.Longest
import MonkeyTokens.Proofs.Rounds
import MonkeyTokens.Proofs.Hull
import MonkeyTokens.Proofs.Merging
import MonkeyTokens.Proofs.Descriptions
import MonkeyTokens.Proofs.Readers
import MonkeyTokens.Proofs.Diagnostics
import MonkeyTokens.Proofs.Slices
