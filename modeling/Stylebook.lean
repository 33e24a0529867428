import Stylebook.Cascade
import Stylebook.Color.Basic
import Stylebook.Color.Hex
import Stylebook.Color.Named
import Stylebook.Content.Basic
import Stylebook.Content.Comments
import Stylebook.Content.Reader
import Stylebook.Decimal.Double
import Stylebook.Decimal.Numeral
import Stylebook.Decimal.Shortest
import Stylebook.Duration
import Stylebook.Event
import Stylebook.Font.Basic
import Stylebook.Font.Style
import Stylebook.Geometry.Basic
import Stylebook.Geometry.Braces
import Stylebook.Geometry.Transform
import Stylebook.Location
import Stylebook.Notifier
import Stylebook.ParseError
import Stylebook.PollFeed
import Stylebook.PollTimer
import Stylebook.Property.Basic
import Stylebook.Property.KeywordTable
import Stylebook.Reference
import Stylebook.Registry
import Stylebook.Repository.Basic
import Stylebook.Repository.Loading
import Stylebook.Repository.Polling
import Stylebook.Repository.Refreshing
import Stylebook.Repository.Unloading
import Stylebook.Revision
import Stylebook.Scalar.Basic
import Stylebook.Scalar.Double
import Stylebook.Scalar.Rational
import Stylebook.Selector.Basic
import Stylebook.Selector.Reader
import Stylebook.Sheet.Basic
import Stylebook.Sheet.Scope
import Stylebook.Source.Basic
import Stylebook.Source.Disk
import Stylebook.Source.Memory
import Stylebook.Source.Standard
import Stylebook.StyleError
import Stylebook.Table
import Stylebook.Text.Alphanumeric
import Stylebook.Text.AlphanumericRanges
import Stylebook.Text.Blank
import Stylebook.Text.Bytes
import Stylebook.Text.CaseRanges
import Stylebook.Text.CaseRuns
import Stylebook.Text.Lowercase
import Stylebook.Text.Quoted
import Stylebook.Text.Quotes
import Stylebook.Text.Search
import Stylebook.Text.Split
import Stylebook.Text.Truth
import Stylebook.Text.UnprintableRanges
import Stylebook.Token.Basic
import Stylebook.Token.Lexer
import Stylebook.Value.Basic
import Stylebook.Value.Color
import Stylebook.Value.Dimension
import Stylebook.Value.Error
import Stylebook.Value.Figure
import Stylebook.Value.Font
import Stylebook.Value.Keywords
import Stylebook.Value.Plain
import Stylebook.Value.Reading
import Stylebook.Value.Transform
import Stylebook.Value.Type
import Stylebook.Variables
import Stylebook.WatchBoard
import Stylebook.WatchGuard
import Stylebook.Proofs.Repository.Outline
import Stylebook.Proofs.Repository.Index
import Stylebook.Proofs.Text.Trimming
import Stylebook.Proofs.Text.Lowercase
import Stylebook.Proofs.Token.Cutting
import Stylebook.Proofs.Token.Spelling
import Stylebook.Proofs.Selector.Written
import Stylebook.Proofs.Selector.Canonical
import Stylebook.Proofs.Content.Balanced
import Stylebook.Proofs.Content.Enclosed
import Stylebook.Proofs.Content.Values
import Stylebook.Proofs.Content.Written
import Stylebook.Proofs.Content.Quoted
import Stylebook.Proofs.Value.Blind
import Stylebook.Proofs.Token.Blanks
import Stylebook.Proofs.Value.Keywords
import Stylebook.Proofs.Value.Ends
import Stylebook.Proofs.Variables.Segments
import Stylebook.Proofs.Variables.Substitution
import Stylebook.Proofs.Variables.References
import Stylebook.Proofs.Variables.Typed
import Stylebook.Proofs.Source.Shared
import Stylebook.Proofs.Repository.Freshness
import Stylebook.Proofs.Repository.Watches
import Stylebook.Proofs.Repository.Monitoring
import Stylebook.Proofs.Content.Sealed
import Stylebook.Proofs.Content.Locality
import Stylebook.Proofs.Content.Comments
import Stylebook.Proofs.Content.Concatenation
import Stylebook.Proofs.Content.Progress
import Stylebook.Proofs.Cascade.Declarations
import Stylebook.Proofs.Variables.Cycles
import Stylebook.Proofs.Repository.Refreshes
import Stylebook.Proofs.Repository.Announcements
import Stylebook.Proofs.Repository.Evolution
import Stylebook.Proofs.Repository.Delivery
import Stylebook.Proofs.Repository.Changes
import Stylebook.Proofs.Repository.Draining
import Stylebook.Proofs.Variables.Locality
import Stylebook.Proofs.Variables.Reachability
import Stylebook.Proofs.Repository.Attempts
import Stylebook.Proofs.Repository.Framing
import Stylebook.Proofs.Repository.History
import Stylebook.Proofs.Repository.Backoff
import Stylebook.Proofs.Repository.Failures
import Stylebook.Proofs.Repository.Timing
import Stylebook.Proofs.Token.Pattern
import Stylebook.Proofs.Token.Coverage
import Stylebook.Proofs.Geometry.Written
import Stylebook.Proofs.Value.Displayed
import Stylebook.Proofs.Token.Words
import Stylebook.Proofs.Token.Separated
import Stylebook.Proofs.Token.Loops
import Stylebook.Proofs.Value.Dimension
import Stylebook.Proofs.Value.Steps
import Stylebook.Proofs.Value.Calls
import Stylebook.Proofs.Font.Expression
import Stylebook.Proofs.Font.Composition
import Stylebook.Proofs.Font.Sizes
import Stylebook.Proofs.Value.Literal
import Stylebook.Proofs.Scalar.Exact
import Stylebook.Proofs.Color.Wheel
import Stylebook.Proofs.Color.Hsb
import Stylebook.Proofs.Value.Rows
import Stylebook.Proofs.Value.Figure
import Stylebook.Proofs.Value.Units
import Stylebook.Proofs.Value.Arguments
import Stylebook.Proofs.Value.Backtracking
import Stylebook.Proofs.Font.Attempts
import Stylebook.Proofs.Color.Expression
import Stylebook.Proofs.Color.Composition
import Stylebook.Proofs.Color.Range
import Stylebook.Proofs.Transform.Affine
import Stylebook.Proofs.Transform.Calls
import Stylebook.Proofs.Color.Canonical
import Stylebook.Proofs.Repository.Arrival
import Stylebook.Proofs.Variables.Lookup
import Stylebook.Proofs.Variables.Descent
import Stylebook.Proofs.Cascade.Application
import Stylebook.Proofs.Cascade.Selectors
import Stylebook.Proofs.Property.Mask
import Stylebook.Proofs.Text.Seam
import Stylebook.Proofs.Property.Prefix
import Stylebook.Proofs.Property.Names
import Stylebook.Proofs.Sheet.Membership
import Stylebook.Proofs.Notifier.Delivery
