import Stepwise.Client.Basic
import Stepwise.Client.Error
import Stepwise.Client.Operation
import Stepwise.Client.Phase
import Stepwise.Client.Request
import Stepwise.Client.Response
import Stepwise.Client.Tree
import Stepwise.Console.Arguments
import Stepwise.Console.Input
import Stepwise.Console.Panel
import Stepwise.Console.Report
import Stepwise.Console.Session
import Stepwise.Json.Basic
import Stepwise.Json.Number
import Stepwise.Json.Parser
import Stepwise.Json.Printer
import Stepwise.Json.Token
import Stepwise.KeyMap
import Stepwise.Main
import Stepwise.Number.Binary64
import Stepwise.Number.Decimal
import Stepwise.Number.Hex
import Stepwise.Number.Shortest
import Stepwise.Process.Account
import Stepwise.Process.Request
import Stepwise.Process.Script
import Stepwise.Process.ServiceError
import Stepwise.Process.Settings
import Stepwise.Process.Snapshot
import Stepwise.Project.Files
import Stepwise.Project.Folder
import Stepwise.Project.Load
import Stepwise.Server.Account
import Stepwise.Server.Basic
import Stepwise.Server.Execution
import Stepwise.Server.Services
import Stepwise.Server.Validation
import Stepwise.Service.Basic
import Stepwise.Service.Capability
import Stepwise.Shell.Action
import Stepwise.Shell.Basic
import Stepwise.Shell.Error
import Stepwise.Shell.Panel
import Stepwise.Shell.Pump
import Stepwise.Shell.Session
import Stepwise.Text.Blank
import Stepwise.Text.Reader
import Stepwise.Timestamp
import Stepwise.Toml.Document
import Stepwise.Toml.Scalar
import Stepwise.Toml.Value
import Stepwise.Uuid
import Stepwise.View.Basic
import Stepwise.View.Board
import Stepwise.View.Recording
import Stepwise.Wire.Account
import Stepwise.Wire.Record
import Stepwise.Wire.Request
import Stepwise.Wire.Script
import Stepwise.Wire.ServiceError
import Stepwise.Wire.Settings
import Stepwise.Wire.Snapshot
import Stepwise.Yaml.Cursor
import Stepwise.Yaml.Decode
import Stepwise.Yaml.Node
import Stepwise.Yaml.Plain
import Stepwise.Yaml.Scalar
import Stepwise.Yaml.Token
import Stepwise.Proofs.Client.Calls
import Stepwise.Proofs.Client.Reception
import Stepwise.Proofs.Client.Reaction
import Stepwise.Proofs.Client.Descent
import Stepwise.Proofs.Client.History
import Stepwise.Proofs.Client.Standing
import Stepwise.Proofs.Client.Cancelling
import Stepwise.Proofs.View.Recording
import Stepwise.Proofs.View.Veil
import Stepwise.Proofs.Client.Drawing
import Stepwise.Proofs.Client.Display
import Stepwise.Proofs.Client.Tree
import Stepwise.Proofs.Client.Run
import Stepwise.Proofs.Client.Lifecycle
import Stepwise.Proofs.Client.Annals
import Stepwise.Proofs.Client.Survival
import Stepwise.Proofs.Client.Closing
import Stepwise.Proofs.Client.Offering
import Stepwise.Proofs.Client.Pausing
import Stepwise.Proofs.Client.Stalling
import Stepwise.Proofs.Client.Draft
import Stepwise.Proofs.Client.Keeping
import Stepwise.Proofs.Client.Drafting
import Stepwise.Proofs.Server.Lineage
import Stepwise.Proofs.Server.Running
import Stepwise.Proofs.Server.Spawning
import Stepwise.Proofs.Server.Answering
import Stepwise.Proofs.Server.Failing
import Stepwise.Proofs.Server.Spending
import Stepwise.Proofs.Server.Weight
import Stepwise.Proofs.Server.Outcome
import Stepwise.Proofs.Server.Dropping
import Stepwise.Proofs.Server.Replies
import Stepwise.Proofs.Server.Refusing
import Stepwise.Proofs.Server.Promising
import Stepwise.Proofs.Server.Rearing
import Stepwise.Proofs.Server.Accounting
import Stepwise.Proofs.Client.Carrying
import Stepwise.Proofs.Client.Exchange
import Stepwise.Proofs.Joint.Mirror
import Stepwise.Proofs.KeyMap
import Stepwise.Proofs.Joint.Hosting
import Stepwise.Proofs.Joint.Agreement
import Stepwise.Proofs.Joint.Run
import Stepwise.Proofs.Joint.Ending
import Stepwise.Proofs.Client.Forwarding
import Stepwise.Proofs.Client.Leaving
import Stepwise.Proofs.Shell.Calls
import Stepwise.Proofs.Shell.Registry
import Stepwise.Proofs.Shell.Resting
import Stepwise.Proofs.Wire.Timestamp
import Stepwise.Proofs.Wire.RoundTrip
import Stepwise.Proofs.Wire.Edits
import Stepwise.Proofs.Wire.Tolerance
import Stepwise.Proofs.Client.Accepting
import Stepwise.Proofs.Client.Branching
import Stepwise.Proofs.Client.Routing
import Stepwise.Proofs.Client.Commuting
import Stepwise.Proofs.Shell.Mirroring
import Stepwise.Proofs.Number.Numeral
import Stepwise.Proofs.Server.Validating
import Stepwise.Proofs.Client.Declining
import Stepwise.Proofs.Client.Undelivered
import Stepwise.Proofs.Server.Remembering
import Stepwise.Proofs.Server.Persisting
import Stepwise.Proofs.Project.Loading
