import ImagePull.Command.Arguments
import ImagePull.Command.Error
import ImagePull.Command.Output
import ImagePull.Command.Run
import ImagePull.Config.Basic
import ImagePull.Config.Decode
import ImagePull.Config.Discovery
import ImagePull.Credentials.Basic
import ImagePull.Credentials.DockerConfig
import ImagePull.Credentials.Store
import ImagePull.Daemon.Endpoint
import ImagePull.Daemon.Error
import ImagePull.Daemon.Exchange
import ImagePull.Daemon.Query
import ImagePull.Daemon.Report
import ImagePull.Digest
import ImagePull.Duration.Basic
import ImagePull.Duration.Parser
import ImagePull.Duration.Unit
import ImagePull.Event.Basic
import ImagePull.Event.Classify
import ImagePull.Files
import ImagePull.Flavor
import ImagePull.ImageRef
import ImagePull.Json.Basic
import ImagePull.Json.Form
import ImagePull.Json.Parser
import ImagePull.Json.Printer
import ImagePull.Json.Strict
import ImagePull.Layer.Basic
import ImagePull.Layer.Table
import ImagePull.Main
import ImagePull.Manifest
import ImagePull.Number.Approximation
import ImagePull.Number.Binary64
import ImagePull.Number.Decimal
import ImagePull.Platform
import ImagePull.Progress
import ImagePull.Proofs.Command.Conclusion
import ImagePull.Proofs.Command.Warnings
import ImagePull.Proofs.Config.Overrides
import ImagePull.Proofs.Config.Registries
import ImagePull.Proofs.Credentials.Domain
import ImagePull.Proofs.Credentials.Header
import ImagePull.Proofs.Credentials.Resolution
import ImagePull.Proofs.Credentials.StoredLogin
import ImagePull.Proofs.Daemon.Target
import ImagePull.Proofs.Digest
import ImagePull.Proofs.Digest.Grammar
import ImagePull.Proofs.Duration
import ImagePull.Proofs.Event.Classification
import ImagePull.Proofs.Event.Extraction
import ImagePull.Proofs.Event.Trailing
import ImagePull.Proofs.ImageRef
import ImagePull.Proofs.Json.Bounds
import ImagePull.Proofs.Json.Built
import ImagePull.Proofs.Json.Grammar
import ImagePull.Proofs.Json.Members
import ImagePull.Proofs.Json.Printing
import ImagePull.Proofs.Layer.Correlation
import ImagePull.Proofs.Layer.Fold
import ImagePull.Proofs.Layer.Lifecycle
import ImagePull.Proofs.Layer.Table
import ImagePull.Proofs.Manifest
import ImagePull.Proofs.Outcome
import ImagePull.Proofs.Pull.Bytes
import ImagePull.Proofs.Pull.Changes
import ImagePull.Proofs.Pull.Completion
import ImagePull.Proofs.Pull.Correlation
import ImagePull.Proofs.Pull.Failures
import ImagePull.Proofs.Pull.Isolation
import ImagePull.Proofs.Pull.Snapshots
import ImagePull.Proofs.Pull.Steps
import ImagePull.Proofs.Pull.Totals
import ImagePull.Proofs.Pull.View
import ImagePull.Proofs.Record
import ImagePull.Proofs.Stream.Blanks
import ImagePull.Proofs.Stream.Breaks
import ImagePull.Proofs.Stream.Contexts
import ImagePull.Proofs.Stream.Digests
import ImagePull.Proofs.Stream.Display
import ImagePull.Proofs.Stream.Drain
import ImagePull.Proofs.Stream.Flavors
import ImagePull.Proofs.Stream.Folds
import ImagePull.Proofs.Stream.Framing
import ImagePull.Proofs.Stream.Growth
import ImagePull.Proofs.Stream.Inference
import ImagePull.Proofs.Stream.Interleaving
import ImagePull.Proofs.Stream.Items
import ImagePull.Proofs.Stream.Outlook
import ImagePull.Proofs.Stream.Received
import ImagePull.Proofs.Stream.Records
import ImagePull.Proofs.Stream.Replay
import ImagePull.Proofs.Stream.Statuses
import ImagePull.Proofs.Stream.Warnings
import ImagePull.Proofs.Stream.Wire
import ImagePull.Proofs.Text.Base64
import ImagePull.Proofs.Text.Blank
import ImagePull.Proofs.Text.Percent
import ImagePull.Proofs.Text.Trim
import ImagePull.Proofs.Text.Utf8
import ImagePull.Pull.Basic
import ImagePull.Pull.View
import ImagePull.Pull.Warning
import ImagePull.Record
import ImagePull.Session
import ImagePull.Size
import ImagePull.Stream.Channel
import ImagePull.Stream.Framer
import ImagePull.Stream.Producer
import ImagePull.Stream.Tracker
import ImagePull.Text.Base64
import ImagePull.Text.Blank
import ImagePull.Text.Digits
import ImagePull.Text.Trim
import ImagePull.Text.Url
import ImagePull.Text.Utf8
import ImagePull.Yaml.Basic
import ImagePull.Yaml.Block
import ImagePull.Yaml.Document
import ImagePull.Yaml.Flow
import ImagePull.Yaml.Place
import ImagePull.Yaml.Token
import ImagePull.Yaml.Tree
import ImagePull.Yaml.Value
