import Colloquy.Distinct
import Colloquy.Error
import Colloquy.Event.Basic
import Colloquy.Event.Hub
import Colloquy.Event.Rendering
import Colloquy.Extraction
import Colloquy.Flowchart.Basic
import Colloquy.Flowchart.Compile
import Colloquy.Flowchart.Document
import Colloquy.Flowchart.File
import Colloquy.Flowchart.Kind
import Colloquy.Flowchart.Order
import Colloquy.Flowchart.Spec
import Colloquy.Flowchart.Tables
import Colloquy.Json.Basic
import Colloquy.Json.Document
import Colloquy.Json.Form
import Colloquy.Json.Parser
import Colloquy.Json.Printer
import Colloquy.Json.Problem
import Colloquy.Json.Reader
import Colloquy.Json.Token
import Colloquy.Model
import Colloquy.Number.Decimal
import Colloquy.Number.Floating
import Colloquy.Number.Layout
import Colloquy.Number.Scaled
import Colloquy.Number.Shortest
import Colloquy.OrderedMap
import Colloquy.Persona.Assistant
import Colloquy.Persona.Basic
import Colloquy.Persona.Bundled
import Colloquy.Persona.Turn
import Colloquy.Prompt
import Colloquy.Proofs.Bundled.WeekReview
import Colloquy.Proofs.Checks
import Colloquy.Proofs.Event.Hub
import Colloquy.Proofs.Extraction
import Colloquy.Proofs.Flowchart.Arrangement
import Colloquy.Proofs.Flowchart.Compile
import Colloquy.Proofs.Flowchart.Document
import Colloquy.Proofs.Flowchart.Order
import Colloquy.Proofs.Flowchart.Pairing
import Colloquy.Proofs.Flowchart.Pairs
import Colloquy.Proofs.Flowchart.Reach
import Colloquy.Proofs.Flowchart.Ready
import Colloquy.Proofs.Flowchart.Rearranged
import Colloquy.Proofs.Flowchart.Shape
import Colloquy.Proofs.Flowchart.Sorting
import Colloquy.Proofs.Flowchart.Tables
import Colloquy.Proofs.Flowchart.Valid
import Colloquy.Proofs.Flowchart.WellFormed
import Colloquy.Proofs.Flowchart.Worklist
import Colloquy.Proofs.Json.Literals
import Colloquy.Proofs.Json.Members
import Colloquy.Proofs.Json.Parser
import Colloquy.Proofs.Json.Presented
import Colloquy.Proofs.Json.Printer
import Colloquy.Proofs.Json.Records
import Colloquy.Proofs.Json.Reread
import Colloquy.Proofs.Number
import Colloquy.Proofs.Number.Layout
import Colloquy.Proofs.Number.Nearest
import Colloquy.Proofs.Number.Rounding
import Colloquy.Proofs.Number.Shortest
import Colloquy.Proofs.OrderedMap
import Colloquy.Proofs.OrderedMap.History
import Colloquy.Proofs.Persona
import Colloquy.Proofs.Run.Absence
import Colloquy.Proofs.Run.Alike
import Colloquy.Proofs.Run.Arrangement
import Colloquy.Proofs.Run.Audit
import Colloquy.Proofs.Run.Bound
import Colloquy.Proofs.Run.Config
import Colloquy.Proofs.Run.Course
import Colloquy.Proofs.Run.Events
import Colloquy.Proofs.Run.Faults
import Colloquy.Proofs.Run.Guards
import Colloquy.Proofs.Run.Id
import Colloquy.Proofs.Run.Legal
import Colloquy.Proofs.Run.Limit
import Colloquy.Proofs.Run.Loops
import Colloquy.Proofs.Run.Measure
import Colloquy.Proofs.Run.Outcome
import Colloquy.Proofs.Run.Progress
import Colloquy.Proofs.Run.Prompts
import Colloquy.Proofs.Run.Replay
import Colloquy.Proofs.Run.Requests
import Colloquy.Proofs.Run.Settling
import Colloquy.Proofs.Run.Stack
import Colloquy.Proofs.Run.Straight
import Colloquy.Proofs.Run.Visit
import Colloquy.Proofs.Run.Walk
import Colloquy.Proofs.Run.WeekReview
import Colloquy.Proofs.Schema.Alike
import Colloquy.Proofs.Schema.Check
import Colloquy.Proofs.Schema.Conformance
import Colloquy.Proofs.Schema.Described
import Colloquy.Proofs.Schema.Names
import Colloquy.Proofs.Schema.Pruning
import Colloquy.Proofs.Schema.Published
import Colloquy.Proofs.Schema.Reading
import Colloquy.Proofs.Schema.Rendering
import Colloquy.Proofs.Template
import Colloquy.Proofs.Template.Parts
import Colloquy.Proofs.Text.Blank
import Colloquy.Proofs.Text.Pattern
import Colloquy.Proofs.Time.Instant
import Colloquy.Proofs.Trace
import Colloquy.Run.Basic
import Colloquy.Run.Config
import Colloquy.Run.Id
import Colloquy.Run.Record
import Colloquy.Run.Scope
import Colloquy.Run.Visit
import Colloquy.Schema.Basic
import Colloquy.Schema.Document
import Colloquy.Schema.Published
import Colloquy.Schema.Value
import Colloquy.Schema.Violation
import Colloquy.Script
import Colloquy.Template
import Colloquy.Text.Alphanumeric
import Colloquy.Text.Blank
import Colloquy.Text.Pattern
import Colloquy.Text.Printable
import Colloquy.Text.Quoted
import Colloquy.Text.Ranges
import Colloquy.Time.Date
import Colloquy.Time.Duration
import Colloquy.Time.Instant
import Colloquy.Trace
