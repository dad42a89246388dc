import SmallScheme.Main
import SmallScheme.Machine.Run
import SmallScheme.Proofs.Agreement
import SmallScheme.Proofs.Text.Decimal
import SmallScheme.Proofs.Session.Order
import SmallScheme.Proofs.Session.Loop
import SmallScheme.Proofs.Compiler.Scope
import SmallScheme.Proofs.Session.Forms
import SmallScheme.Proofs.Session.Trace
import SmallScheme.Proofs.Session.Reads
import SmallScheme.Proofs.Compiler.Emission
import SmallScheme.Proofs.Compiler.Statements
import SmallScheme.Proofs.Machine.Library
import SmallScheme.Proofs.Data.Equality
import SmallScheme.Proofs.Compiler.Expressions
import SmallScheme.Proofs.Machine.Frames
import SmallScheme.Proofs.Compiler.Calls
import SmallScheme.Proofs.Compiler.Loops
import SmallScheme.Proofs.Compiler.Simulation
import SmallScheme.Proofs.Compiler.Kinds
import SmallScheme.Proofs.Compiler.Runs
import SmallScheme.Proofs.Compiler.Preservation
import SmallScheme.Proofs.Session.Missing
import SmallScheme.Proofs.Session.Effects
import SmallScheme.Proofs.Compiler.Globals
import SmallScheme.Proofs.Token.Pattern
import SmallScheme.Proofs.Tree.Reports
import SmallScheme.Proofs.Token.Kinds
import SmallScheme.Proofs.Token.Lexeme
import SmallScheme.Proofs.Program.ReadBack
import SmallScheme.Proofs.Compiler.Checks
import SmallScheme.Proofs.Compiler.RuledOut
import SmallScheme.Proofs.Tree.Grammar
import SmallScheme.Proofs.Tree.Recognition
import SmallScheme.Proofs.Tree.Proper
import SmallScheme.Proofs.Program.Grammar
import SmallScheme.Proofs.Program.Forms
import SmallScheme.Proofs.Program.Plain
import SmallScheme.Proofs.Code.Names
import SmallScheme.Proofs.Compiler.Identifiers
import SmallScheme.Proofs.Compiler.Coverage
import SmallScheme.Proofs.Compiler.Closed
import SmallScheme.Proofs.Token.Lines
import SmallScheme.Proofs.Tree.Lines
import SmallScheme.Proofs.Session.Lines
import SmallScheme.Proofs.Tree.Layout
import SmallScheme.Proofs.Program.Layout
import SmallScheme.Proofs.Program.Groups
import SmallScheme.Proofs.Session.Failure
import SmallScheme.Proofs.Scoping
import SmallScheme.Proofs.Tree.Lossless
import SmallScheme.Proofs.Token.Tiling
import SmallScheme.Proofs.Program.Typed
import SmallScheme.Proofs.Tree.Inside
import SmallScheme.Proofs.Tree.Respelling
import SmallScheme.Proofs.Tree.Requoting
import SmallScheme.Proofs.Program.Places
import SmallScheme.Proofs.Program.Quotations
import SmallScheme.Proofs.Session.Lookups
import SmallScheme.Proofs.Code.Literals
import SmallScheme.Proofs.Code.Denotation
import SmallScheme.Proofs.Code.Layout
import SmallScheme.Proofs.Compiler.QuotedData
import SmallScheme.Proofs.Text.Lines
import SmallScheme.Proofs.Compiler.Rendering
