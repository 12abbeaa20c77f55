import InstallAssistant.Action
import InstallAssistant.Chat.Conversation
import InstallAssistant.Chat.Prompt
import InstallAssistant.Chat.Template
import InstallAssistant.Chat.Tools
import InstallAssistant.Command.Compile
import InstallAssistant.Command.Evaluate
import InstallAssistant.Command.Serve
import InstallAssistant.Command.Setup
import InstallAssistant.Command.Show
import InstallAssistant.Command.Sweep
import InstallAssistant.CommandLine.Flag
import InstallAssistant.CommandLine.Invocation
import InstallAssistant.CommandLine.Run
import InstallAssistant.Config.Address
import InstallAssistant.Config.Basic
import InstallAssistant.Config.Yaml
import InstallAssistant.Decimal.Binary
import InstallAssistant.Decimal.Reading
import InstallAssistant.Decimal.Shortest
import InstallAssistant.Decimal.Style
import InstallAssistant.Device.Block
import InstallAssistant.Device.Guard
import InstallAssistant.Device.Mention
import InstallAssistant.Duration
import InstallAssistant.Encoder.Basic
import InstallAssistant.Encoder.Bytes
import InstallAssistant.Encoder.Load
import InstallAssistant.Encoder.Words
import InstallAssistant.Engine.Answer
import InstallAssistant.Engine.Basic
import InstallAssistant.Engine.Completion
import InstallAssistant.Engine.Query
import InstallAssistant.Evaluation.Case
import InstallAssistant.Evaluation.Run
import InstallAssistant.Evaluation.Summary
import InstallAssistant.Facts.Basic
import InstallAssistant.Facts.Probe
import InstallAssistant.Failure
import InstallAssistant.Host.Basic
import InstallAssistant.Host.Directory
import InstallAssistant.Host.Path
import InstallAssistant.Host.Status
import InstallAssistant.Json.Literal
import InstallAssistant.Json.Printer
import InstallAssistant.Json.Reader
import InstallAssistant.Json.Token
import InstallAssistant.Json.Tree
import InstallAssistant.Json.Value
import InstallAssistant.Main
import InstallAssistant.Markup
import InstallAssistant.Program
import InstallAssistant.Reply
import InstallAssistant.Server
import InstallAssistant.Text.Blank
import InstallAssistant.Text.Case
import InstallAssistant.Text.CaseTable
import InstallAssistant.Text.Lines
import InstallAssistant.Text.Ordered
import InstallAssistant.Text.Utf8
import InstallAssistant.Training.Compiler
import InstallAssistant.Training.Plan
import InstallAssistant.Training.Record
import InstallAssistant.Training.Row
import InstallAssistant.Training.Shuffle
import InstallAssistant.Training.Split
import InstallAssistant.Training.Sweep
import InstallAssistant.Yaml.Cursor
import InstallAssistant.Yaml.Node
import InstallAssistant.Yaml.Printer
import InstallAssistant.Yaml.Reader
import InstallAssistant.Yaml.Resolve
import InstallAssistant.Yaml.Scalar
import InstallAssistant.Yaml.Token
import InstallAssistant.Proofs.Json.Mark
import InstallAssistant.Proofs.Json.Tree
import InstallAssistant.Proofs.Markup
import InstallAssistant.Proofs.Text
import InstallAssistant.Proofs.Reply.Call
import InstallAssistant.Proofs.Reply.Content
import InstallAssistant.Proofs.Reply.Reasoning
import InstallAssistant.Proofs.Reply.Target
import InstallAssistant.Proofs.Reply.Cut
import InstallAssistant.Proofs.Encoder.Bytes
import InstallAssistant.Proofs.Chat.Template
import InstallAssistant.Proofs.Training.Row
import InstallAssistant.Proofs.Training.Compiler
import InstallAssistant.Proofs.Training.Target
import InstallAssistant.Proofs.Chat.Prompt
import InstallAssistant.Proofs.Device.Guard
import InstallAssistant.Proofs.Engine.Query
import InstallAssistant.Proofs.Engine.Prompt
import InstallAssistant.Proofs.Device.Mention
import InstallAssistant.Proofs.Device.Word
import InstallAssistant.Proofs.Device.Quoting
import InstallAssistant.Proofs.Reply.Aside
import InstallAssistant.Proofs.Text.Occurrence
import InstallAssistant.Proofs.Chat.Marker
import InstallAssistant.Proofs.Json.Print
import InstallAssistant.Proofs.Action
import InstallAssistant.Proofs.Reply.Record
import InstallAssistant.Proofs.Text.Slice
import InstallAssistant.Proofs.Markup.Slice
import InstallAssistant.Proofs.Reply.Slice
import InstallAssistant.Proofs.Device.Slice
import InstallAssistant.Proofs.Json.Reader
import InstallAssistant.Proofs.Facts.Context
import InstallAssistant.Proofs.Training.Record
import InstallAssistant.Proofs.Json.Number
import InstallAssistant.Proofs.Host.Session
import InstallAssistant.Proofs.Host.Directory
import InstallAssistant.Proofs.Host.Folder
import InstallAssistant.Proofs.Training.Split
import InstallAssistant.Proofs.Training.Load
import InstallAssistant.Proofs.Training.Tally
import InstallAssistant.Proofs.Command.Compile
import InstallAssistant.Proofs.Command.Accounts
import InstallAssistant.Proofs.Command.Rows
import InstallAssistant.Proofs.Command.Sweep
import InstallAssistant.Proofs.Training.Outcome
import InstallAssistant.Proofs.Device.Separator
import InstallAssistant.Proofs.Device.Expansion
import InstallAssistant.Proofs.Chat.Conversation
import InstallAssistant.Proofs.Engine.Wire
import InstallAssistant.Proofs.Server
import InstallAssistant.Proofs.Reply.Seam
import InstallAssistant.Proofs.Reply.Residue
import InstallAssistant.Proofs.Training.TurnEnd
import InstallAssistant.Proofs.Decimal.Compare
import InstallAssistant.Proofs.Training.Partition
import InstallAssistant.Proofs.Chat.Placement
import InstallAssistant.Proofs.Json.Value
import InstallAssistant.Proofs.Facts.Saved
import InstallAssistant.Proofs.Decimal.Rounding
import InstallAssistant.Proofs.Decimal.Shortest
import InstallAssistant.Proofs.Json.Scale
import InstallAssistant.Proofs.Json.Float
import InstallAssistant.Proofs.Reply.Encoded
import InstallAssistant.Proofs.Config.Validate
import InstallAssistant.Proofs.Training.Plan
import InstallAssistant.Proofs.Training.Accumulation
import InstallAssistant.Proofs.Markup.Span
import InstallAssistant.Proofs.Evaluation.Summary
