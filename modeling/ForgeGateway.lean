import ForgeGateway.Admin.Health
import ForgeGateway.Admin.Pages
import ForgeGateway.Agent.Cursor
import ForgeGateway.Agent.Desk
import ForgeGateway.Agent.Error
import ForgeGateway.Agent.Exchange
import ForgeGateway.Agent.Frame
import ForgeGateway.Agent.Message
import ForgeGateway.Approval.HttpGate
import ForgeGateway.Approval.Request
import ForgeGateway.Approval.Verdict
import ForgeGateway.Arrivals
import ForgeGateway.Bytes
import ForgeGateway.Bytes.Base64
import ForgeGateway.Bytes.Hex
import ForgeGateway.Bytes.Sha256
import ForgeGateway.Bytes.Sha512
import ForgeGateway.Bytes.Utf8
import ForgeGateway.Clock
import ForgeGateway.CommandLine
import ForgeGateway.Forge.Opening
import ForgeGateway.Forge.Stream
import ForgeGateway.Git.ExecLine
import ForgeGateway.Git.Packet
import ForgeGateway.HostKey
import ForgeGateway.HostPins
import ForgeGateway.Http.Exchange
import ForgeGateway.Http.Status
import ForgeGateway.Http.Url
import ForgeGateway.Identity.File
import ForgeGateway.Identity.KeyLine
import ForgeGateway.Identity.Store
import ForgeGateway.Identity.User
import ForgeGateway.Json.Literal
import ForgeGateway.Json.Value
import ForgeGateway.Key.Blob
import ForgeGateway.Key.Curve
import ForgeGateway.Key.Der
import ForgeGateway.Key.Ed25519
import ForgeGateway.Key.Pem
import ForgeGateway.Key.Private
import ForgeGateway.Key.Public
import ForgeGateway.Key.Residue
import ForgeGateway.Key.Rsa
import ForgeGateway.Key.Wire
import ForgeGateway.Main
import ForgeGateway.Metrics.Exposition
import ForgeGateway.Metrics.Registry
import ForgeGateway.Metrics.Tally
import ForgeGateway.Net.SocketAddress
import ForgeGateway.Program
import ForgeGateway.Proofs.Agent.Answers
import ForgeGateway.Proofs.Agent.Cancellation
import ForgeGateway.Proofs.Agent.Cursor
import ForgeGateway.Proofs.Agent.DeskRun
import ForgeGateway.Proofs.Agent.Exchange
import ForgeGateway.Proofs.Agent.Operations
import ForgeGateway.Proofs.Agent.Progress
import ForgeGateway.Proofs.Agent.Reading
import ForgeGateway.Proofs.Agent.Serialised
import ForgeGateway.Proofs.Agent.Stream
import ForgeGateway.Proofs.Agent.Understood
import ForgeGateway.Proofs.Approval.FailsClosed
import ForgeGateway.Proofs.Approval.Recovery
import ForgeGateway.Proofs.Approval.Verdicts
import ForgeGateway.Proofs.Arrivals
import ForgeGateway.Proofs.Bytes.Base64
import ForgeGateway.Proofs.Bytes.Hex
import ForgeGateway.Proofs.Bytes.Utf8
import ForgeGateway.Proofs.Forge.Channel
import ForgeGateway.Proofs.Forge.OpeningOrder
import ForgeGateway.Proofs.Git.Advertisement
import ForgeGateway.Proofs.Git.CommandLine
import ForgeGateway.Proofs.Git.Decoding
import ForgeGateway.Proofs.Git.ExecLine
import ForgeGateway.Proofs.Git.Grammar
import ForgeGateway.Proofs.Git.NormalForm
import ForgeGateway.Proofs.Git.Shell
import ForgeGateway.Proofs.Git.WireForm
import ForgeGateway.Proofs.Identity.KeyLine
import ForgeGateway.Proofs.Identity.Ownership
import ForgeGateway.Proofs.Json.Grammar
import ForgeGateway.Proofs.Json.Reading
import ForgeGateway.Proofs.Json.Writing
import ForgeGateway.Proofs.Metrics.Recording
import ForgeGateway.Proofs.Positions
import ForgeGateway.Proofs.Relay.Accounts
import ForgeGateway.Proofs.Relay.Approved
import ForgeGateway.Proofs.Relay.Capture
import ForgeGateway.Proofs.Relay.Deadlines
import ForgeGateway.Proofs.Relay.Ending
import ForgeGateway.Proofs.Relay.LifeCycle
import ForgeGateway.Proofs.Relay.Measured
import ForgeGateway.Proofs.Relay.PackBuffer
import ForgeGateway.Proofs.Relay.PackLimits
import ForgeGateway.Proofs.Relay.Prefetching
import ForgeGateway.Proofs.Relay.Pull
import ForgeGateway.Proofs.Relay.PullFailures
import ForgeGateway.Proofs.Relay.PullOutput
import ForgeGateway.Proofs.Relay.PullRelay
import ForgeGateway.Proofs.Relay.Push
import ForgeGateway.Proofs.Relay.PushGate
import ForgeGateway.Proofs.Relay.PushOutput
import ForgeGateway.Proofs.Relay.PushStatus
import ForgeGateway.Proofs.Relay.Trace
import ForgeGateway.Proofs.Relay.VerdictCounts
import ForgeGateway.Proofs.Scenario.EndedChannels
import ForgeGateway.Proofs.Scenario.Refusal
import ForgeGateway.Proofs.Scenario.Replies
import ForgeGateway.Proofs.Session.Authorisation
import ForgeGateway.Proofs.Session.Commands
import ForgeGateway.Proofs.Session.Environment
import ForgeGateway.Proofs.Session.LoginTime
import ForgeGateway.Proofs.Session.Routing
import ForgeGateway.Proofs.Session.Step
import ForgeGateway.Proofs.Settings.Deadlines
import ForgeGateway.Proofs.Settings.Pinning
import ForgeGateway.Proofs.Text.Blank
import ForgeGateway.Proofs.Text.Letter
import ForgeGateway.Proofs.Text.Split
import ForgeGateway.Relay.Capture
import ForgeGateway.Relay.Command
import ForgeGateway.Relay.Failure
import ForgeGateway.Relay.Flow
import ForgeGateway.Relay.PackBuffer
import ForgeGateway.Relay.Prefetch
import ForgeGateway.Relay.Request
import ForgeGateway.Relay.Skip
import ForgeGateway.Scenario.AgentChannel
import ForgeGateway.Scenario.AgentDesk
import ForgeGateway.Scenario.Connection
import ForgeGateway.Scenario.ForgeServer
import ForgeGateway.Scenario.Gateway
import ForgeGateway.Scenario.HttpPeer
import ForgeGateway.Scenario.NamedKey
import ForgeGateway.Scenario.ProgramRun
import ForgeGateway.Scenario.Script
import ForgeGateway.Scenario.Solo
import ForgeGateway.Scenario.Surroundings
import ForgeGateway.Scenario.Visit
import ForgeGateway.Session
import ForgeGateway.Session.Watch
import ForgeGateway.Settings.Basic
import ForgeGateway.Settings.Reading
import ForgeGateway.Settings.Validity
import ForgeGateway.Text.Blank
import ForgeGateway.Text.Elapsed
import ForgeGateway.Text.Number
import ForgeGateway.Text.Printable
import ForgeGateway.Text.Quoted
import ForgeGateway.Text.ShortestDecimal
import ForgeGateway.Text.Split
import ForgeGateway.Yaml.Node
import ForgeGateway.Yaml.Scalar
import ForgeGateway.Yaml.Shape
import ForgeGateway.Yaml.Source
import ForgeGateway.Yaml.Token
import ForgeGateway.Proofs.Relay.Capture
import ForgeGateway.Proofs.Text.Words
import ForgeGateway.Proofs.Identity.DeclaredType
import ForgeGateway.Proofs.Key.Public
import ForgeGateway.Proofs.Forge.KeySelection
