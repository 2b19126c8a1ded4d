import DiffGate.Main
import DiffGate.Proofs.Assoc
import DiffGate.Proofs.Diff.Scan
import DiffGate.Proofs.Diff.Segment
import DiffGate.Proofs.Diff.Change
import DiffGate.Proofs.Text.Utf8
import DiffGate.Proofs.Diff.Printed
import DiffGate.Proofs.Diff.Marker
import DiffGate.Proofs.Diff.Append
import DiffGate.Proofs.Diff.Block
import DiffGate.Proofs.Filter
import DiffGate.Proofs.Path
import DiffGate.Proofs.Check
import DiffGate.Proofs.Check.Ignored
import DiffGate.Proofs.Ruff
import DiffGate.Proofs.Ruff.Protocol
import DiffGate.Proofs.FileTree
import DiffGate.Proofs.Setup
import DiffGate.Proofs.Setup.Hook
import DiffGate.Proofs.Setup.Again
import DiffGate.Proofs.Datum
import DiffGate.Proofs.Yaml.Document
import DiffGate.Proofs.Setup.Config
import DiffGate.Proofs.Filter.Printed
import DiffGate.Proofs.Ruff.Reason
import DiffGate.Proofs.Diff.Range
import DiffGate.Proofs.Ignore.Glob
import DiffGate.Proofs.Ignore.Segment
import DiffGate.Proofs.Ignore.Slash
import DiffGate.Proofs.Ignore.Shell
import DiffGate.Proofs.Ignore.Rule
import DiffGate.Proofs.Yaml.Writer
import DiffGate.Proofs.Config
import DiffGate.Proofs.Config.Sound
import DiffGate.Proofs.ConfigFile
import DiffGate.Proofs.ConfigFile.Reload
import DiffGate.Proofs.ConfigFile.Explained
import DiffGate.Proofs.Setup.Coping
import DiffGate.Proofs.Message
import DiffGate.Proofs.Filter.Report
import DiffGate.Proofs.Filter.Monotone
import DiffGate.Proofs.Ruff.Order
import DiffGate.Proofs.Diff.Header
import DiffGate.Proofs.Diff.Independent
import DiffGate.Proofs.Diff.LineEnding
import DiffGate.Proofs.Check.Lookup
import DiffGate.Proofs.Ruff.Family
import DiffGate.Proofs.Diff.Overlong
import DiffGate.Proofs.Diff.Rendered
import DiffGate.Proofs.Check.Shortcut
import DiffGate.Proofs.Ignore.Lead
