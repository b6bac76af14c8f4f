import Lexline.Command.Args
import Lexline.Command.Options
import Lexline.Command.Run
import Lexline.Console.Feed
import Lexline.Console.Log
import Lexline.Console.Loop
import Lexline.Cursor.Basic
import Lexline.Cursor.Move
import Lexline.Cursor.Scanner
import Lexline.Cursor.Tokens
import Lexline.Datum.Basic
import Lexline.Datum.Calendar
import Lexline.Decimal.Binary64
import Lexline.Decimal.Notation
import Lexline.Decimal.Shortest
import Lexline.Files.FileSystem
import Lexline.Files.Path
import Lexline.Files.Tree
import Lexline.Limit
import Lexline.Main
import Lexline.Record
import Lexline.Report
import Lexline.Server
import Lexline.Text.Character
import Lexline.Text.Escape
import Lexline.Text.Line
import Lexline.Text.Numeral
import Lexline.Text.Utf8
import Lexline.Token.Basic
import Lexline.Token.Kind
import Lexline.Token.Lexicon
import Lexline.Toml.Document
import Lexline.Toml.Fault
import Lexline.Toml.Lexeme
import Lexline.Toml.Nest
import Lexline.Toml.Scalar
import Lexline.Toml.Value
import Lexline.Proofs.Arguments
import Lexline.Proofs.Lexicon
import Lexline.Proofs.Movement
import Lexline.Proofs.Refinement
import Lexline.Proofs.Dissection
import Lexline.Proofs.Lines
import Lexline.Proofs.LineCuts
import Lexline.Proofs.Placement
import Lexline.Proofs.Locality
import Lexline.Proofs.LineByLine
import Lexline.Proofs.Encoding
import Lexline.Proofs.Sightings
import Lexline.Proofs.FrontEnds
import Lexline.Proofs.Alphabet
import Lexline.Proofs.Session
import Lexline.Proofs.LoopListing
import Lexline.Proofs.RoundTrip
import Lexline.Proofs.StrictListing
import Lexline.Proofs.Concatenation
import Lexline.Proofs.Diagnosis
import Lexline.Proofs.Units
import Lexline.Proofs.Freshness
import Lexline.Proofs.Endings
import Lexline.Proofs.Escapes
import Lexline.Proofs.TextRecords
import Lexline.Proofs.JsonReading
import Lexline.Proofs.JsonRecords
import Lexline.Proofs.Reports
import Lexline.Proofs.Caret
import Lexline.Proofs.Pulling
import Lexline.Proofs.Resumption
import Lexline.Proofs.ByteLines
import Lexline.Proofs.BadBytes
import Lexline.Proofs.Layers
