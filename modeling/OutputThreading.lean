import OutputThreading.Accumulator
import OutputThreading.Block
import OutputThreading.Call.Argument
import OutputThreading.Call.Basic
import OutputThreading.Call.Threading
import OutputThreading.Character.Alphabetic
import OutputThreading.Character.Class
import OutputThreading.Character.Mark
import OutputThreading.Character.Number
import OutputThreading.Character.Ranges
import OutputThreading.Character.Recent
import OutputThreading.Command.Options
import OutputThreading.Command.Run
import OutputThreading.Comment
import OutputThreading.Compile
import OutputThreading.Config
import OutputThreading.Config.Reader
import OutputThreading.Cursor
import OutputThreading.Error
import OutputThreading.Files.Disk
import OutputThreading.Files.Folder
import OutputThreading.Files.Listing
import OutputThreading.Files.Path
import OutputThreading.Json.Literal
import OutputThreading.Json.Token
import OutputThreading.Json.Value
import OutputThreading.Keyword
import OutputThreading.Layout
import OutputThreading.Line
import OutputThreading.Main
import OutputThreading.Marker
import OutputThreading.NameSupply
import OutputThreading.Print
import OutputThreading.Program.Basic
import OutputThreading.Program.Extraction
import OutputThreading.Program.Threading
import OutputThreading.Proofs.Block
import OutputThreading.Proofs.Block.Matching
import OutputThreading.Proofs.Block.Nesting
import OutputThreading.Proofs.Call.Argument
import OutputThreading.Proofs.Call.Balance
import OutputThreading.Proofs.Call.Conservation
import OutputThreading.Proofs.Call.Lines
import OutputThreading.Proofs.Call.Locality
import OutputThreading.Proofs.Call.Reading
import OutputThreading.Proofs.Call.Scope
import OutputThreading.Proofs.Call.Setup
import OutputThreading.Proofs.Call.Statements
import OutputThreading.Proofs.Call.Values
import OutputThreading.Proofs.Command.Run
import OutputThreading.Proofs.Comment
import OutputThreading.Proofs.Comment.Remainder
import OutputThreading.Proofs.Files.Disk
import OutputThreading.Proofs.Files.Listing
import OutputThreading.Proofs.Form
import OutputThreading.Proofs.Form.Occurrences
import OutputThreading.Proofs.Layout
import OutputThreading.Proofs.Line
import OutputThreading.Proofs.Line.Rewrapping
import OutputThreading.Proofs.Marker
import OutputThreading.Proofs.Marker.Placement
import OutputThreading.Proofs.NameSupply
import OutputThreading.Proofs.NameSupply.Agreement
import OutputThreading.Proofs.NameSupply.Capture
import OutputThreading.Proofs.NameSupply.Repetition
import OutputThreading.Proofs.NameSupply.Stem
import OutputThreading.Proofs.Offset.Block
import OutputThreading.Proofs.Offset.Call
import OutputThreading.Proofs.Offset.Compile
import OutputThreading.Proofs.Offset.Cut
import OutputThreading.Proofs.Offset.Extraction
import OutputThreading.Proofs.Offset.Layout
import OutputThreading.Proofs.Offset.Naming
import OutputThreading.Proofs.Offset.Threading
import OutputThreading.Proofs.Output
import OutputThreading.Proofs.Output.LoneCall
import OutputThreading.Proofs.Print
import OutputThreading.Proofs.Program.Agreement
import OutputThreading.Proofs.Program.Blocks
import OutputThreading.Proofs.Program.Comments
import OutputThreading.Proofs.Program.Delimited
import OutputThreading.Proofs.Program.ErrorLines
import OutputThreading.Proofs.Program.Errors
import OutputThreading.Proofs.Program.Extraction
import OutputThreading.Proofs.Program.Output
import OutputThreading.Proofs.Program.Partition
import OutputThreading.Proofs.Program.Prints
import OutputThreading.Proofs.Program.Promotion
import OutputThreading.Proofs.Program.Reassembly
import OutputThreading.Proofs.Program.Relocation
import OutputThreading.Proofs.Program.Statements
import OutputThreading.Proofs.Program.UndefinedCalls
import OutputThreading.Proofs.Program.UndefinedLines
import OutputThreading.Proofs.Return
import OutputThreading.Proofs.Statement.Block
import OutputThreading.Proofs.Statement.Delimited
import OutputThreading.Proofs.Statement.Kinds
import OutputThreading.Proofs.Statement.Layout
import OutputThreading.Proofs.Statement.Reading
import OutputThreading.Proofs.Statement.Shown
import OutputThreading.Proofs.Template.Blocks
import OutputThreading.Proofs.Template.Calls
import OutputThreading.Proofs.Template.Passes
import OutputThreading.Proofs.Template.Promotion
import OutputThreading.Proofs.Template.ReturnDepth
import OutputThreading.Proofs.Template.Returns
import OutputThreading.Proofs.Template.Sweep
import OutputThreading.Proofs.Text.Flat
import OutputThreading.Proofs.Text.Occurrence
import OutputThreading.Proofs.Text.Space
import OutputThreading.Proofs.Variable
import OutputThreading.Return
import OutputThreading.Signature
import OutputThreading.Statement
import OutputThreading.Template.Basic
import OutputThreading.Template.Promotion
import OutputThreading.Template.Threading
import OutputThreading.Text.Basic
import OutputThreading.Text.Form
import OutputThreading.Variable
import OutputThreading.Proofs.Call.Closing
import OutputThreading.Proofs.Files.Enumeration
import OutputThreading.Proofs.Offset.Sites
