import Netlist.Text.Printable
import Netlist.Text.Extending
import Netlist.Text.Quoted
import Netlist.Text.Dump
import Netlist.Token
import Netlist.Fault
import Netlist.Source
import Netlist.Source.Utf8
import Netlist.Journal
import Netlist.Lexer
import Netlist.PinRange
import Netlist.Program
import Netlist.Program.Render
import Netlist.Program.Dump
import Netlist.Failure
import Netlist.Cursor
import Netlist.Grammar.Rule
import Netlist.Grammar.Element
import Netlist.Grammar.Statement
import Netlist.Reading
import Netlist.Command
import Netlist.Main
import Netlist.Proofs.Lexing.Lexeme
import Netlist.Proofs.Lexing.Mirror
import Netlist.Proofs.Lexing.Significant
import Netlist.Proofs.Lexing.Text
import Netlist.Proofs.Lexing.Tokenization
import Netlist.Proofs.Plain.Element
import Netlist.Proofs.Plain.Statement
import Netlist.Proofs.Refinement.Rule
import Netlist.Proofs.Refinement.Statement
import Netlist.Proofs.Session
import Netlist.Proofs.Language.Reads
import Netlist.Proofs.Language.Program
import Netlist.Proofs.RoundTrip.WellFormed
import Netlist.Proofs.RoundTrip.Canonical
import Netlist.Proofs.RoundTrip.Printed
import Netlist.Proofs.Stream.Characters
import Netlist.Proofs.Stream.Encoded
import Netlist.Proofs.Stream.Reading
import Netlist.Proofs.Diagnosis.Statement
import Netlist.Proofs.Lexing.Place
import Netlist.Proofs.Diagnosis.Culprit
import Netlist.Proofs.Lexing.Meant
import Netlist.Proofs.Lexing.Insertion
import Netlist.Proofs.Language.Ends
import Netlist.Proofs.Insertion
import Netlist.Proofs.Language.Cut
import Netlist.Proofs.Lexing.Prefix
import Netlist.Proofs.Truncation
import Netlist.Proofs.Language.Entries
import Netlist.Proofs.Conservation
import Netlist.Proofs.Selection
import Netlist.Proofs.RoundTrip.Followed
import Netlist.Proofs.Streaming
import Netlist.Proofs.Normalization
import Netlist.Proofs.Lexing.Recorded
import Netlist.Proofs.Places
import Netlist.Proofs.Lexing.Pulled
import Netlist.Proofs.Lexing.Behind
import Netlist.Proofs.Locality
import Netlist.Proofs.Stream.Decoding
import Netlist.Proofs.Stream.Ending
import Netlist.Proofs.Lexing.Renaming
import Netlist.Proofs.Renaming
import Netlist.Proofs.Journal.Looks
import Netlist.Proofs.Journal.Account
import Netlist.Proofs.Text.Quoted
import Netlist.Proofs.Journal.Lines
import Netlist.Proofs.Accounting
import Netlist.Proofs.Language.Numbers
import Netlist.Proofs.Diagnosis.Asked
import Netlist.Proofs.Diagnosis.Numbers
import Netlist.Proofs.Exactness
import Netlist.Proofs.Guarded.Supply
import Netlist.Proofs.Guarded.Outcome
import Netlist.Proofs.Guarded.Lexer
import Netlist.Proofs.Guarded.Rule
import Netlist.Proofs.Guarded.Grammar
import Netlist.Proofs.Pushback
import Netlist.Proofs.Termination
import Netlist.Proofs.Widths
