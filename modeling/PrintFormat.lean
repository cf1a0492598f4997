import PrintFormat.Address
import PrintFormat.Address.Reading
import PrintFormat.Argument
import PrintFormat.Binary64
import PrintFormat.Bytes
import PrintFormat.Calendar
import PrintFormat.Calendar.Text
import PrintFormat.Command
import PrintFormat.Command.Failure
import PrintFormat.Command.Run
import PrintFormat.Command.Verify
import PrintFormat.Context
import PrintFormat.Conversion
import PrintFormat.Conversion.Extended
import PrintFormat.Conversion.Standard
import PrintFormat.Decimal.Fixed
import PrintFormat.Decimal.Reading
import PrintFormat.Decimal.Shortest
import PrintFormat.Directive
import PrintFormat.Directive.Spelling
import PrintFormat.Error
import PrintFormat.Field
import PrintFormat.Fixture
import PrintFormat.Fixture.Argument
import PrintFormat.Fixture.Case
import PrintFormat.Fixture.Files
import PrintFormat.Host
import PrintFormat.Host.Memory
import PrintFormat.Journal
import PrintFormat.Journal.Emitter
import PrintFormat.Journal.Entry
import PrintFormat.Journal.Validation
import PrintFormat.Json
import PrintFormat.Json.Layout
import PrintFormat.Json.Normal
import PrintFormat.Json.Number
import PrintFormat.Json.Numeral
import PrintFormat.Json.Quoted
import PrintFormat.Json.Record
import PrintFormat.Json.Token
import PrintFormat.LogLevel
import PrintFormat.Logger
import PrintFormat.Main
import PrintFormat.Numeral
import PrintFormat.Numeral.Reading
import PrintFormat.Options
import PrintFormat.Program
import PrintFormat.Proofs.Action
import PrintFormat.Proofs.Conversion.Extended
import PrintFormat.Proofs.Conversion.Integer
import PrintFormat.Proofs.Conversion.Layout
import PrintFormat.Proofs.Conversion.Overflow
import PrintFormat.Proofs.Conversion.Padding
import PrintFormat.Proofs.Decimal.Finite
import PrintFormat.Proofs.Directive.Reading
import PrintFormat.Proofs.Numeral.Digits
import PrintFormat.Proofs.Render.Arguments
import PrintFormat.Proofs.Render.Concatenation
import PrintFormat.Proofs.Render.Failure
import PrintFormat.Proofs.Render.Measures
import PrintFormat.Proofs.Render.Overflow
import PrintFormat.Proofs.Render.Padding
import PrintFormat.Proofs.Render.Transcript
import PrintFormat.Proofs.Scratch.Spans
import PrintFormat.Proofs.Segment.Cut
import PrintFormat.Proofs.Session.Bound
import PrintFormat.Proofs.Sink.Writing
import PrintFormat.Scratch
import PrintFormat.Segment
import PrintFormat.Session
import PrintFormat.Settings
import PrintFormat.Sha256
import PrintFormat.Sink
import PrintFormat.Sink.Percent
import PrintFormat.Sink.Writer
import PrintFormat.Text.Parts
import PrintFormat.Text.Shown
import PrintFormat.Text.Utf8
import PrintFormat.Verification
import PrintFormat.Proofs.Render.Reuse
import PrintFormat.Proofs.Program.Shared
import PrintFormat.Proofs.Render.Verbatim
import PrintFormat.Proofs.Text.Utf8
import PrintFormat.Proofs.Verification
import PrintFormat.Proofs.Checked.Computation
import PrintFormat.Proofs.Checked.Decimal
import PrintFormat.Proofs.Checked.Directive
import PrintFormat.Proofs.Checked.Extended
import PrintFormat.Proofs.Checked.Render
import PrintFormat.Proofs.Checked.Session
import PrintFormat.Proofs.Render.Integer
import PrintFormat.Proofs.Render.Interchange
import PrintFormat.Proofs.Directive.Grammar
import PrintFormat.Proofs.Directive.Modifier
import PrintFormat.Proofs.Logger
import PrintFormat.Proofs.Render.Width
import PrintFormat.Proofs.Render.Percent
import PrintFormat.Proofs.Logger.Line
import PrintFormat.Proofs.Text.Parts
import PrintFormat.Proofs.Address.Reading
import PrintFormat.Proofs.Calendar.Date
import PrintFormat.Proofs.Calendar.Reading
import PrintFormat.Proofs.Render.Plain
import PrintFormat.Proofs.Fixture.Argument
import PrintFormat.Proofs.Json.Quoted
import PrintFormat.Proofs.Json.Numeral
import PrintFormat.Proofs.Json.Reading
import PrintFormat.Proofs.Json.Value
import PrintFormat.Proofs.Journal.Entry
import PrintFormat.Proofs.Journal.Run
import PrintFormat.Proofs.Numeral.Reading
import PrintFormat.Proofs.Program.Settings
import PrintFormat.Proofs.Command.Events
import PrintFormat.Proofs.Command.Verify
import PrintFormat.Proofs.Decimal.Exact
import PrintFormat.Proofs.Render.Float
import PrintFormat.Proofs.Conversion.Effects
import PrintFormat.Proofs.Directive.Recognized
import PrintFormat.Proofs.Render.Stars
import PrintFormat.Proofs.Numeral.Words
import PrintFormat.Proofs.Journal.Timestamp
import PrintFormat.Proofs.Render.Groups
import PrintFormat.Proofs.Render.Quoting
import PrintFormat.Proofs.Render.Clock
import PrintFormat.Proofs.Calendar.Acceptance
import PrintFormat.Proofs.Json.Normal
import PrintFormat.Proofs.Journal.Revalidation
import PrintFormat.Proofs.Text.Layout
import PrintFormat.Proofs.Render.CodePoints
import PrintFormat.Proofs.Sink.Splitting
import PrintFormat.Proofs.Journal.Numbering
import PrintFormat.Proofs.Journal.Emitter
import PrintFormat.Proofs.Scratch.Operations
