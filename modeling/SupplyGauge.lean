import SupplyGauge.CommandLine.Options
import SupplyGauge.CommandLine.Program
import SupplyGauge.CommandLine.Usage
import SupplyGauge.Config.Document
import SupplyGauge.Config.Lexeme
import SupplyGauge.Config.Loader
import SupplyGauge.Config.Parser
import SupplyGauge.Config.Scalar
import SupplyGauge.Config.Settings
import SupplyGauge.Config.Token
import SupplyGauge.Daemon.Run
import SupplyGauge.Daemon.State
import SupplyGauge.Files.Change
import SupplyGauge.Files.Path
import SupplyGauge.Files.Tree
import SupplyGauge.History.Scene
import SupplyGauge.History.Schedule
import SupplyGauge.History.Timer
import SupplyGauge.Json.Value
import SupplyGauge.Log.Entry
import SupplyGauge.Log.Field
import SupplyGauge.Log.Journal
import SupplyGauge.Log.Line
import SupplyGauge.Log.LogFile
import SupplyGauge.Log.Setup
import SupplyGauge.Log.Template
import SupplyGauge.Main
import SupplyGauge.Metric.Sample
import SupplyGauge.Mqtt.Broker
import SupplyGauge.Mqtt.Client
import SupplyGauge.Mqtt.Delivery
import SupplyGauge.Mqtt.Passage
import SupplyGauge.Mqtt.Topics
import SupplyGauge.Number.Binary64
import SupplyGauge.Number.Decimal
import SupplyGauge.Number.Notation
import SupplyGauge.Number.Numeral
import SupplyGauge.Number.Power
import SupplyGauge.Number.Shortest
import SupplyGauge.Pattern.CharTest
import SupplyGauge.Pattern.Code
import SupplyGauge.Pattern.Match
import SupplyGauge.Pattern.Parser
import SupplyGauge.Pattern.Search
import SupplyGauge.Pattern.Syntax
import SupplyGauge.Supply.Cycle
import SupplyGauge.Supply.Device
import SupplyGauge.Supply.Vocabulary
import SupplyGauge.Text.Blank
import SupplyGauge.Text.CharName
import SupplyGauge.Text.Digit
import SupplyGauge.Text.LetterCase
import SupplyGauge.Text.Line
import SupplyGauge.Text.Printable
import SupplyGauge.Text.Quoted
import SupplyGauge.Text.Ranges
import SupplyGauge.Text.Utf8
import SupplyGauge.Text.Word
import SupplyGauge.Proofs.Mqtt.Passage
import SupplyGauge.Proofs.Mqtt.Endurance
import SupplyGauge.Proofs.Mqtt.Shutdown
import SupplyGauge.Proofs.Mqtt.QueueOrder
import SupplyGauge.Proofs.Mqtt.SessionBalance
import SupplyGauge.Proofs.Config.Grammar
import SupplyGauge.Proofs.Config.Derivation
import SupplyGauge.Proofs.Daemon.Phases
import SupplyGauge.Proofs.Daemon.Shutdown
import SupplyGauge.Proofs.Mqtt.Shared
import SupplyGauge.Proofs.Daemon.Attended
import SupplyGauge.Proofs.Supply.Reading
import SupplyGauge.Proofs.Supply.Collection
import SupplyGauge.Proofs.Files.Trail
import SupplyGauge.Proofs.Mqtt.FirstTurns
import SupplyGauge.Proofs.Supply.Isolation
import SupplyGauge.Proofs.Config.Numerals
import SupplyGauge.Proofs.Config.Lexing
import SupplyGauge.Proofs.Config.Rendering
import SupplyGauge.Proofs.Config.Conversions
import SupplyGauge.Proofs.Text.Utf8
import SupplyGauge.Proofs.Files.LookUp
import SupplyGauge.Proofs.Config.Failures
import SupplyGauge.Proofs.Config.TokenPattern
import SupplyGauge.Proofs.Config.Coverage
import SupplyGauge.Proofs.Config.Fields
import SupplyGauge.Proofs.Config.Locality
import SupplyGauge.Proofs.Config.Typing
import SupplyGauge.Proofs.Number.Rounding
import SupplyGauge.Proofs.History.Moments
import SupplyGauge.Proofs.Mqtt.Waits
import SupplyGauge.Proofs.Mqtt.Spacing
import SupplyGauge.Proofs.Mqtt.Pacing
import SupplyGauge.Proofs.Mqtt.Attempts
import SupplyGauge.Proofs.Config.Tidiness
import SupplyGauge.Proofs.Config.Reloading
import SupplyGauge.Proofs.Number.Digits
import SupplyGauge.Proofs.Number.Nearness
import SupplyGauge.Proofs.Number.Shortest
import SupplyGauge.Proofs.Json.Grammar
import SupplyGauge.Proofs.Json.Texts
import SupplyGauge.Proofs.Json.Numbers
import SupplyGauge.Proofs.Json.Rendering
import SupplyGauge.Proofs.Mqtt.Topics
import SupplyGauge.Proofs.Mqtt.Payloads
import SupplyGauge.Proofs.Daemon.Cycles
import SupplyGauge.Proofs.Config.Viability
import SupplyGauge.Proofs.Mqtt.Presence
import SupplyGauge.Proofs.Log.Layout
import SupplyGauge.Proofs.Log.Outlets
import SupplyGauge.Proofs.Daemon.Limit
import SupplyGauge.Proofs.CommandLine.LogChoice
import SupplyGauge.Proofs.CommandLine.Endings
import SupplyGauge.Proofs.Number.Undefined
import SupplyGauge.Proofs.Config.Intervals
import SupplyGauge.Proofs.Metric.Exposition
import SupplyGauge.Proofs.Config.Boundaries
import SupplyGauge.Proofs.Config.Unlined
import SupplyGauge.Proofs.Config.Trivia
import SupplyGauge.Proofs.Number.Order
import SupplyGauge.Proofs.History.HeapOrder
import SupplyGauge.Proofs.History.Punctuality
import SupplyGauge.Proofs.Mqtt.Slumber
import SupplyGauge.Proofs.Mqtt.Backoff
import SupplyGauge.Proofs.Mqtt.Shifts
import SupplyGauge.Proofs.Text.Replacement
import SupplyGauge.Proofs.Supply.FirstLine
import SupplyGauge.Proofs.Files.Overlong
import SupplyGauge.Proofs.Supply.Access
import SupplyGauge.Proofs.Mqtt.Room
import SupplyGauge.Proofs.Daemon.Roots
import SupplyGauge.Proofs.Supply.Results
import SupplyGauge.Proofs.Number.Integers
import SupplyGauge.Proofs.Supply.Integers
import SupplyGauge.Proofs.Config.Escapes
