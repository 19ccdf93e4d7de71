import Recase.Character.Word
import Recase.Character.Uppercase
import Recase.Token.Lexer
import Recase.Json.Printer
import Recase.Json.Reader
import Recase.Config
import Recase.Tree
import Recase.Tree.Building
import Recase.Tree.Document
import Recase.World
import Recase.Config.File
import Recase.Run
import Recase.Envelope
import Recase.CommandLine
import Recase.Main
import Recase.Proofs.Cutting
import Recase.Proofs.Guarding
import Recase.Proofs.Capitals
import Recase.Proofs.Renaming
import Recase.Proofs.Contents
import Recase.Proofs.Effect
import Recase.Proofs.Rejection
import Recase.Proofs.Separation
import Recase.Proofs.Words
import Recase.Proofs.Runs
import Recase.Proofs.Lookahead
import Recase.Proofs.Relexing
import Recase.Proofs.Bounds
import Recase.Proofs.Marks
import Recase.Proofs.Tokens
import Recase.Proofs.Changes
import Recase.Proofs.Overwriting
import Recase.Proofs.Placeholders
import Recase.Proofs.Restoring
import Recase.Proofs.Shielding
import Recase.Proofs.Identifiers
import Recase.Proofs.Prediction
import Recase.Proofs.RestoredRuns
import Recase.Proofs.Marking
import Recase.Proofs.Numerals
import Recase.Proofs.Agreement
import Recase.Proofs.Visits
import Recase.Proofs.Listing
import Recase.Proofs.Grammar
import Recase.Proofs.Reading
import Recase.Proofs.Printing
import Recase.Proofs.Loading
import Recase.Proofs.Gaps
import Recase.Proofs.Headers
import Recase.Proofs.Occurrences
import Recase.Proofs.Pieces
import Recase.Proofs.Canonical
import Recase.Proofs.NewIdentifiers
import Recase.Proofs.Exceptions
import Recase.Proofs.Explanations
import Recase.Proofs.ByteOrder
import Recase.Proofs.Directories
import Recase.Proofs.Entries
import Recase.Proofs.Selecting
import Recase.Proofs.HomePaths
import Recase.Proofs.Letters
import Recase.Proofs.Staging
import Recase.Proofs.Envelopes
import Recase.Proofs.Statuses
import Recase.Proofs.Directives
import Recase.Proofs.Terminators
