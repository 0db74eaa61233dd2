import ScopeLang.Text.Blank
import ScopeLang.Text.Bytes
import ScopeLang.Text.Lines
import ScopeLang.Text.Decimal
import ScopeLang.Text.Control
import ScopeLang.Span
import ScopeLang.Token
import ScopeLang.Token.Cursor
import ScopeLang.Literal
import ScopeLang.Fault
import ScopeLang.Log
import ScopeLang.Event
import ScopeLang.Frame
import ScopeLang.Trace
import ScopeLang.Memory
import ScopeLang.Memory.Operation
import ScopeLang.Statement
import ScopeLang.Execution
import ScopeLang.Capture
import ScopeLang.Process
import ScopeLang.Session
import ScopeLang.CommandLine.Options
import ScopeLang.CommandLine.Reply
import ScopeLang.CommandLine.Parse
import ScopeLang.Directory
import ScopeLang.World
import ScopeLang.Host
import ScopeLang.Request
import ScopeLang.Program
import ScopeLang.Main
import ScopeLang.Proofs.Layout
import ScopeLang.Proofs.Lexing
import ScopeLang.Proofs.Environment
import ScopeLang.Proofs.Script
import ScopeLang.Proofs.Runs
import ScopeLang.Proofs.Verdict
import ScopeLang.Proofs.Printing
import ScopeLang.Proofs.Observations
import ScopeLang.Proofs.Blocks
import ScopeLang.Proofs.Excerpts
import ScopeLang.Proofs.Blame
import ScopeLang.Proofs.Depth
import ScopeLang.Proofs.Online
import ScopeLang.Proofs.Steps
import ScopeLang.Proofs.Conservation
import ScopeLang.Proofs.Stopping
import ScopeLang.Proofs.Reruns
import ScopeLang.Proofs.Sources
import ScopeLang.Proofs.Outcomes
import ScopeLang.Proofs.Verbosity
import ScopeLang.Proofs.EntryPoints
import ScopeLang.Proofs.Numerals
import ScopeLang.Proofs.Arrangement
import ScopeLang.Proofs.Atomicity
import ScopeLang.Proofs.Places
import ScopeLang.Proofs.Renaming
import ScopeLang.Proofs.Equivalence
import ScopeLang.Proofs.Chronicle
import ScopeLang.Proofs.Independence
import ScopeLang.Proofs.Provenance
import ScopeLang.Proofs.Grammar
