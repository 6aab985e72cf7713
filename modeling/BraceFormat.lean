import BraceFormat.Call
import BraceFormat.Proofs.Output.Appending
import BraceFormat.Proofs.Output.Destinations
import BraceFormat.Proofs.ArgId
import BraceFormat.Proofs.Formatter
import BraceFormat.Proofs.Template.Concatenation
import BraceFormat.Proofs.Specifier.Grammar
import BraceFormat.Proofs.Specifier.Reading
import BraceFormat.Proofs.Substitution.Pasting
import BraceFormat.Proofs.Specifier.Supplied
import BraceFormat.Proofs.Specifier.Adjacency
import BraceFormat.Proofs.Substitution.Unpasting
import BraceFormat.Proofs.Handler.Failure
import BraceFormat.Proofs.Handler.Display
import BraceFormat.Proofs.Handler.IndirectCounts
import BraceFormat.Proofs.Call.DigitLimit
import BraceFormat.Proofs.Guarded.Bytes
import BraceFormat.Proofs.Guarded.ArgId
import BraceFormat.Proofs.Guarded.Template
import BraceFormat.Proofs.Guarded.Specifier
import BraceFormat.Proofs.Guarded.Digits
import BraceFormat.Proofs.Guarded.Substitution
import BraceFormat.Proofs.Guarded.Limit
import BraceFormat.Proofs.Guarded.Decimal
import BraceFormat.Proofs.Guarded.Float
import BraceFormat.Proofs.Guarded.Rendering
import BraceFormat.Proofs.Guarded.Attempt
import BraceFormat.Proofs.Guarded.Words
import BraceFormat.Proofs.Call.Consecutive
import BraceFormat.Proofs.Guarded.Sink
import BraceFormat.Proofs.Guarded.Requests
import BraceFormat.Proofs.Guarded.Handler
import BraceFormat.Proofs.Guarded.Call
import BraceFormat.Proofs.Numbering
import BraceFormat.Proofs.Specifier.Uniqueness
import BraceFormat.Proofs.Template.Acceptance
import BraceFormat.Proofs.Template.Partition
import BraceFormat.Proofs.Reference.Mention
import BraceFormat.Proofs.Reference.Reading
import BraceFormat.Proofs.Reference.Conflict
import BraceFormat.Proofs.Reference.Explicit
import BraceFormat.Proofs.Call.ExplicitReferences
import BraceFormat.Proofs.Place.Boundary
import BraceFormat.Proofs.Place.Template
import BraceFormat.Proofs.Place.Specifier
import BraceFormat.Proofs.Place.Substitution
import BraceFormat.Proofs.Place.Field
import BraceFormat.Proofs.Call.Progress
import BraceFormat.Proofs.Call.ErrorPlace
import BraceFormat.Proofs.Call.AllOrNothing
import BraceFormat.Proofs.Rendering.Legal
import BraceFormat.Proofs.Rendering.Padding
import BraceFormat.Proofs.Number.Overflow
import BraceFormat.Proofs.Rendering.Numeral
import BraceFormat.Proofs.Rendering.FloatText
import BraceFormat.Proofs.Template.Escaping
import BraceFormat.Proofs.Output.Contents
import BraceFormat.Proofs.Output.Position
import BraceFormat.Proofs.Number.Nearest
import BraceFormat.Proofs.Number.Shortest
import BraceFormat.Proofs.Rendering.Denotation
import BraceFormat.Proofs.Rendering.RoundTrip
import BraceFormat.Proofs.Rendering.IntegerText
import BraceFormat.Proofs.Number.Radix
import BraceFormat.Proofs.Substitution.Tracing
import BraceFormat.Proofs.Specifier.ReferenceFree
import BraceFormat.Proofs.Handler.Streaming
import BraceFormat.Proofs.Rendering.Locale
import BraceFormat.Proofs.Call.Locale
import BraceFormat.Proofs.Rendering.Grouping
import BraceFormat.Proofs.Number.Rounded
import BraceFormat.Proofs.Rendering.General
import BraceFormat.Proofs.Specifier.Inlining
import BraceFormat.Proofs.Reference.Resolution
import BraceFormat.Proofs.Call.Resolution
import BraceFormat.Proofs.Call.Exchange
import BraceFormat.Proofs.Call.IntegerWidth
import BraceFormat.Proofs.Call.Alone
import BraceFormat.Proofs.Guarded.Scanning
import BraceFormat.Proofs.Utf8
import BraceFormat.Proofs.Utf8.Sequences
import BraceFormat.Proofs.Utf8.Lossy
import BraceFormat.Proofs.Call.ByteText
import BraceFormat.Proofs.Guarded.Exponent
import BraceFormat.Proofs.Rendering.Layout
