import Runbook.App.Sharing
import Runbook.Cli.Program
import Runbook.Host.Deploy
import Runbook.Host.Registrar
import Runbook.Host.Stock
import Runbook.Json.Reader
import Runbook.Main
import Runbook.Proofs.App.Gate
import Runbook.Proofs.App.Sharing
import Runbook.Proofs.Cli.Bindings
import Runbook.Proofs.Cli.ExitCodes
import Runbook.Proofs.Cli.Phases
import Runbook.Proofs.Cli.Prediction
import Runbook.Proofs.Cli.Printed
import Runbook.Proofs.Cli.Sources
import Runbook.Proofs.Decimal.Read
import Runbook.Proofs.Host.Registrations
import Runbook.Proofs.Json.Reading
import Runbook.Proofs.Json.Unambiguous
import Runbook.Proofs.Log.History
import Runbook.Proofs.Log.Lines
import Runbook.Proofs.Run.Commuting
import Runbook.Proofs.Run.Dataflow
import Runbook.Proofs.Run.Duration
import Runbook.Proofs.Run.Failure
import Runbook.Proofs.Run.Records
import Runbook.Proofs.Run.Sequence
import Runbook.Proofs.Run.Timing
import Runbook.Proofs.Run.Unchecked
import Runbook.Proofs.Script.Collection
import Runbook.Proofs.Script.Concatenation
import Runbook.Proofs.Script.Layout
import Runbook.Proofs.Script.Pairing
import Runbook.Proofs.Script.Quoting
import Runbook.Proofs.Script.RoundTrip
import Runbook.Proofs.Settings.EnvFile
import Runbook.Proofs.Settings.Precedence
import Runbook.Proofs.Source.Boundary
import Runbook.Proofs.Source.Failing
import Runbook.Proofs.Source.Lossless
import Runbook.Proofs.Source.Offsets
import Runbook.Proofs.Source.Recognition
import Runbook.Proofs.Source.Relaid
import Runbook.Proofs.Source.Viable
import Runbook.Proofs.Text.Utf8
import Runbook.Proofs.Value.Form
import Runbook.Proofs.Value.Normal
