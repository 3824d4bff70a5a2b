import GameHall.Address
import GameHall.App
import GameHall.Assoc
import GameHall.Bundle.Fingerprint
import GameHall.Bundle.Tree
import GameHall.Cbor.Head
import GameHall.Cbor.Item
import GameHall.Cbor.Value
import GameHall.Clock
import GameHall.CommandLine
import GameHall.Config
import GameHall.Connection
import GameHall.Digest.Sha256
import GameHall.Discovery
import GameHall.Engine.Endpoint
import GameHall.Engine.Greeting
import GameHall.Engine.HostCall
import GameHall.Fault
import GameHall.Hall.Admission
import GameHall.Hall.Basic
import GameHall.Hall.Lobby
import GameHall.Hall.Rooms
import GameHall.Hall.Service
import GameHall.Hall.Step
import GameHall.Hall.Traffic
import GameHall.Hall.Upkeep
import GameHall.Json.Basic
import GameHall.Json.Reader
import GameHall.Json.Writer
import GameHall.Main
import GameHall.Messaging.Router
import GameHall.Messaging.Waiting
import GameHall.Number.Double
import GameHall.Number.Duration
import GameHall.Number.Shortest
import GameHall.Octets
import GameHall.Player
import GameHall.Rehearsal.Crew
import GameHall.Rehearsal.HallStage
import GameHall.Rehearsal.PoolStage
import GameHall.Rehearsal.RouterStage
import GameHall.Scheduler.Basic
import GameHall.Scheduler.Pool
import GameHall.Scheduler.Signal
import GameHall.Scheduler.Step
import GameHall.Scheduler.Timers
import GameHall.Scheduler.Worker
import GameHall.Settings
import GameHall.SignUp
import GameHall.Text.Blank
import GameHall.Text.CaseTable
import GameHall.Text.LowerCase
import GameHall.Text.Utf8
import GameHall.Toml.Reader
import GameHall.Toml.Scalar
import GameHall.Toml.Table
import GameHall.Toml.Value
import GameHall.Wire.Assembler
import GameHall.Wire.Fault
import GameHall.Wire.Frame
import GameHall.Wire.Packet
import GameHall.Wire.Payload
import GameHall.Wire.Record
import GameHall.Proofs.Hall.Registry
import GameHall.Proofs.Hall.Agreement
import GameHall.Proofs.Hall.Endings
import GameHall.Proofs.Hall.Consistency
import GameHall.Proofs.Hall.Ledger
import GameHall.Proofs.Hall.Hosting
import GameHall.Proofs.Hall.NewRooms
import GameHall.Proofs.Hall.Accounts
import GameHall.Proofs.Text.Utf8
import GameHall.Proofs.Cbor.Forms
import GameHall.Proofs.Wire.Prefix
import GameHall.Proofs.Wire.Chunks
import GameHall.Proofs.Wire.RoundTrip
import GameHall.Proofs.Wire.Following
import GameHall.Proofs.Wire.Grammar
import GameHall.Proofs.Engine.Histories
import GameHall.Proofs.Engine.Answers
import GameHall.Proofs.Hall.Calls
import GameHall.Proofs.Hall.Deeds
import GameHall.Proofs.Hall.Turns
import GameHall.Proofs.Hall.Fewer
import GameHall.Proofs.Hall.Requests
import GameHall.Proofs.Messaging.Replies
import GameHall.Proofs.Hall.Waning
import GameHall.Proofs.Hall.Draining
import GameHall.Proofs.Hall.Abandonment
import GameHall.Proofs.Hall.Stances
import GameHall.Proofs.Hall.Tracked
import GameHall.Proofs.Hall.Whereabouts
import GameHall.Proofs.Connection.Reports
import GameHall.Proofs.Hall.Deals
import GameHall.Proofs.Hall.Conversation
import GameHall.Proofs.Wire.Packets
import GameHall.Proofs.Hall.Views
import GameHall.Proofs.Hall.Limits
import GameHall.Proofs.Wire.Stream
import GameHall.Proofs.Connection.Histories
import GameHall.Proofs.Connection.Loops
import GameHall.Proofs.Connection.Delivery
import GameHall.Proofs.Messaging.Release
import GameHall.Proofs.Messaging.Wakeups
import GameHall.Proofs.Hall.Docket
import GameHall.Proofs.Hall.Tallies
import GameHall.Proofs.Hall.Bans
import GameHall.Proofs.Scheduler.Timers
import GameHall.Proofs.Scheduler.Deeds
import GameHall.Proofs.Scheduler.Alarms
import GameHall.Proofs.Scheduler.RoomTimers
import GameHall.Proofs.Scheduler.Outgoing
import GameHall.Proofs.Scheduler.Given
import GameHall.Proofs.Scheduler.Ordered
import GameHall.Proofs.Scheduler.Turning
import GameHall.Proofs.Scheduler.Order
import GameHall.Proofs.Scheduler.Farewell
import GameHall.Proofs.Scheduler.Posts
import GameHall.Proofs.Hall.Routers
import GameHall.Proofs.Hall.Jobs
import GameHall.Proofs.Scheduler.Liaison
import GameHall.Proofs.Hall.Dossiers
import GameHall.Proofs.Hall.Bystanders
import GameHall.Proofs.Hall.Breakdown
import GameHall.Proofs.Hall.Fates
import GameHall.Proofs.Hall.Cues
import GameHall.Proofs.Hall.Advances
import GameHall.Proofs.Hall.Correspondence
import GameHall.Proofs.Hall.Numbers
import GameHall.Proofs.Hall.Sweeping
import GameHall.Proofs.Hall.Refresh
import GameHall.Proofs.Hall.Placement
import GameHall.Proofs.Hall.SignUps
import GameHall.Proofs.Hall.Finale
import GameHall.Proofs.Text.LowerCase
import GameHall.Proofs.Settings.BannedWords
import GameHall.Proofs.Bundle.Tree
import GameHall.Proofs.Bundle.Fingerprint
import GameHall.Proofs.Engine.Handshake
import GameHall.Proofs.Engine.Signatures
import GameHall.Proofs.Scheduler.Refusals
import GameHall.Proofs.Wire.Items
import GameHall.Proofs.Wire.Registers
import GameHall.Proofs.Wire.OwnOctets
import GameHall.Proofs.Wire.Payloads
import GameHall.Proofs.Json.RoundTrip
import GameHall.Proofs.Discovery
import GameHall.Proofs.Hall.Doom
import GameHall.Proofs.Deadlines
