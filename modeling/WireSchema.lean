import WireSchema.Code
import WireSchema.Command.Arguments
import WireSchema.Command.Basic
import WireSchema.Command.Disk
import WireSchema.Command.Report
import WireSchema.Command.Run
import WireSchema.Generate
import WireSchema.Issue
import WireSchema.Json.Basic
import WireSchema.Json.Format
import WireSchema.Json.Reader
import WireSchema.Layout.Basic
import WireSchema.Layout.Codec
import WireSchema.Layout.Document
import WireSchema.Layout.Protobuf
import WireSchema.Main
import WireSchema.Managed.Exchange
import WireSchema.Managed.Method
import WireSchema.Managed.Source
import WireSchema.Managed.Support
import WireSchema.Managed.TypeName
import WireSchema.Message
import WireSchema.Native.Exchange
import WireSchema.Native.Method
import WireSchema.Native.Name
import WireSchema.Native.Source
import WireSchema.Native.Support
import WireSchema.Number.Binary
import WireSchema.Number.Bytes
import WireSchema.Number.Decimal
import WireSchema.Number.Width
import WireSchema.Program.Basic
import WireSchema.Program.Codec
import WireSchema.Program.Lower
import WireSchema.Program.Spelling
import WireSchema.Proofs.Json.Records
import WireSchema.Proofs.Layout.Protobuf
import WireSchema.Proofs.Layout.Trees
import WireSchema.Proofs.Message.Emitted
import WireSchema.Proofs.Message.Endpoints
import WireSchema.Proofs.Message.Numbering
import WireSchema.Proofs.Native.Default
import WireSchema.Proofs.Native.Expressible
import WireSchema.Proofs.Number.Bytes
import WireSchema.Proofs.Outcome
import WireSchema.Proofs.Program.Declared
import WireSchema.Proofs.Program.Decoder
import WireSchema.Proofs.Program.Encoder
import WireSchema.Proofs.Program.Levels
import WireSchema.Proofs.Program.Loops
import WireSchema.Proofs.Program.Narrow
import WireSchema.Proofs.Program.Pointers
import WireSchema.Proofs.Program.Receiving
import WireSchema.Proofs.Program.Scope
import WireSchema.Proofs.Program.Sending
import WireSchema.Proofs.Program.StaticSize
import WireSchema.Proofs.Program.Trees
import WireSchema.Proofs.Program.Typing
import WireSchema.Proofs.Program.WellFormed
import WireSchema.Proofs.Program.Widths
import WireSchema.Proofs.Schema.Checked
import WireSchema.Proofs.Schema.Markers
import WireSchema.Proofs.Schema.Pointers
import WireSchema.Proofs.Schema.Trees
import WireSchema.Proofs.Text.Words
import WireSchema.Proofs.Value.Conforms
import WireSchema.Proofs.Value.Keys
import WireSchema.Proofs.Value.Tree
import WireSchema.Proofs.Wire.Agreement
import WireSchema.Proofs.Wire.ComesBack
import WireSchema.Proofs.Wire.Culprits
import WireSchema.Proofs.Wire.Delimited
import WireSchema.Proofs.Wire.Exact
import WireSchema.Proofs.Wire.Fewest
import WireSchema.Proofs.Wire.Fits
import WireSchema.Proofs.Wire.Form
import WireSchema.Proofs.Wire.MinWidth
import WireSchema.Proofs.Wire.Nodes
import WireSchema.Proofs.Wire.Normal
import WireSchema.Proofs.Wire.Order
import WireSchema.Proofs.Wire.Partial
import WireSchema.Proofs.Wire.Parts
import WireSchema.Proofs.Wire.Reading
import WireSchema.Proofs.Wire.Resolved
import WireSchema.Proofs.Wire.RoundTrip
import WireSchema.Proofs.Wire.Settled
import WireSchema.Proofs.Wire.Slot
import WireSchema.Proofs.Wire.Spots
import WireSchema.Proofs.Wire.Tours
import WireSchema.Proofs.Wire.Walk
import WireSchema.Proofs.Wire.Yields
import WireSchema.Protobuf
import WireSchema.Record
import WireSchema.Schema.Check
import WireSchema.Schema.Codec
import WireSchema.Schema.Descriptor
import WireSchema.Schema.Document
import WireSchema.Schema.Load
import WireSchema.Text.Blank
import WireSchema.Text.Case
import WireSchema.Text.Hex
import WireSchema.Text.Naming
import WireSchema.Text.Quoted
import WireSchema.Text.Utf8
import WireSchema.Value.Basic
import WireSchema.Value.Json
import WireSchema.Wire.Codec
import WireSchema.Wire.Error
import WireSchema.Wire.Read
import WireSchema.Wire.Scalar
import WireSchema.Wire.Write
import WireSchema.Yaml.Cursor
import WireSchema.Yaml.Format
import WireSchema.Yaml.Node
import WireSchema.Yaml.Scalar
import WireSchema.Yaml.Tag
import WireSchema.Yaml.Token
import WireSchema.Yaml.Writer
