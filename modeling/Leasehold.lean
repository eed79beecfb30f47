import Leasehold.Arguments
import Leasehold.Audit.Event
import Leasehold.Audit.Trail
import Leasehold.Command.Invocation
import Leasehold.Command.Record
import Leasehold.Command.Run
import Leasehold.Command.Transfer
import Leasehold.Database
import Leasehold.Failure
import Leasehold.FileSystem.Call
import Leasehold.FileSystem.Failure
import Leasehold.FileSystem.Path
import Leasehold.FileSystem.Replace
import Leasehold.FileSystem.Tree
import Leasehold.Home
import Leasehold.Host
import Leasehold.Json.Decode
import Leasehold.Json.Number
import Leasehold.Json.Printer
import Leasehold.Json.Raw
import Leasehold.Json.Reader
import Leasehold.Json.Token
import Leasehold.Json.Value
import Leasehold.Keyspace.Basic
import Leasehold.Keyspace.Codec
import Leasehold.Keyspace.Key
import Leasehold.Lock.Claimant
import Leasehold.Lock.Guard
import Leasehold.Lock.Heartbeat
import Leasehold.Lock.Record
import Leasehold.Lock.Standing
import Leasehold.Lock.Status
import Leasehold.Log
import Leasehold.LogLine
import Leasehold.Machine
import Leasehold.Main
import Leasehold.Number.Binary64
import Leasehold.Number.Rounding
import Leasehold.Number.Shortest
import Leasehold.Procedure
import Leasehold.Program
import Leasehold.Prompt
import Leasehold.Proofs.Lock.Acquisition
import Leasehold.Proofs.Lock.Exclusion
import Leasehold.Proofs.Lock.Lease
import Leasehold.Proofs.Lock.Operation
import Leasehold.Proofs.Lock.Seat
import Leasehold.Proofs.Program.Contract
import Leasehold.Proofs.Protected.Discipline
import Leasehold.Proofs.Protected.Flow
import Leasehold.Proofs.Protected.Serialization
import Leasehold.Proofs.Protected.Transfer
import Leasehold.Proofs.Sharing.Commons
import Leasehold.Proofs.Sharing.Lease
import Leasehold.Proofs.Sharing.Procedure
import Leasehold.Proofs.Store.History
import Leasehold.Proofs.Store.TimedMap
import Leasehold.Proofs.Store.View
import Leasehold.Proofs.Time.Order
import Leasehold.Protected
import Leasehold.Scenario.Contention
import Leasehold.Scenario.Step
import Leasehold.Scenario.World
import Leasehold.Settings
import Leasehold.Snapshot
import Leasehold.Store
import Leasehold.Text.Blank
import Leasehold.Text.Decimal
import Leasehold.Text.Quoted
import Leasehold.Text.Split
import Leasehold.TextMap
import Leasehold.Time.Calendar
import Leasehold.Time.Duration
import Leasehold.Time.Instant
import Leasehold.Time.Seconds
import Leasehold.Time.Timestamp
import Leasehold.Transfer
import Leasehold.Yaml.Block
import Leasehold.Yaml.Character
import Leasehold.Yaml.Document
import Leasehold.Yaml.Gap
import Leasehold.Yaml.Meaning
import Leasehold.Yaml.Node
import Leasehold.Yaml.Plain
import Leasehold.Yaml.Printer
import Leasehold.Yaml.Quoted
import Leasehold.Yaml.Stream
import Leasehold.Yaml.Tag
import Leasehold.Yaml.Token
import Leasehold.Proofs.Lock.Foreign
import Leasehold.Proofs.Prompt
import Leasehold.Proofs.Protected.Answer
import Leasehold.Proofs.Protected.Displacement
import Leasehold.Proofs.Program.Run
import Leasehold.Proofs.Lock.Abandoned
import Leasehold.Proofs.Lock.Healing
import Leasehold.Proofs.Surroundings.Basic
import Leasehold.Proofs.Protected.Course
import Leasehold.Proofs.Protected.Stages
import Leasehold.Proofs.Protected.Confirmation
import Leasehold.Proofs.Lock.Tally
import Leasehold.Proofs.Protected.Release
import Leasehold.Proofs.FileSystem.Place
import Leasehold.Proofs.FileSystem.Change
import Leasehold.Proofs.FileSystem.Replacement
import Leasehold.Proofs.Protected.Aside
import Leasehold.Proofs.Transfer.Whole
import Leasehold.Proofs.Keyspace.Replacement
import Leasehold.Proofs.Database.Memory
import Leasehold.Proofs.Command.Assignment
import Leasehold.Proofs.Host.Machine
import Leasehold.Proofs.Command.Record
import Leasehold.Proofs.Command.Overlay
import Leasehold.Proofs.Command.Save
import Leasehold.Proofs.Command.Effect
import Leasehold.Proofs.Command.Account
import Leasehold.Proofs.Lock.Duty
import Leasehold.Proofs.Lock.Post
import Leasehold.Proofs.Lock.Shape
import Leasehold.Proofs.Lock.Touch
import Leasehold.Proofs.FileSystem.Parent
import Leasehold.Proofs.FileSystem.Above
import Leasehold.Proofs.FileSystem.Alike
import Leasehold.Proofs.FileSystem.Disk
import Leasehold.Proofs.FileSystem.Attempt
import Leasehold.Proofs.Database.Attempt
import Leasehold.Proofs.Database.Failure
import Leasehold.Proofs.Lock.Company
import Leasehold.Proofs.Lock.Attempt
import Leasehold.Proofs.Lock.Renewal
import Leasehold.Proofs.Lock.Spelling
import Leasehold.Proofs.Lock.Ownership
import Leasehold.Proofs.Lock.Contest
import Leasehold.Proofs.Lock.Fortune
import Leasehold.Proofs.Lock.Setback
import Leasehold.Proofs.Lock.Tenant
import Leasehold.Proofs.Lock.Guarded
import Leasehold.Proofs.Lock.Session
import Leasehold.Proofs.Lock.Vigil
import Leasehold.Proofs.Snapshot.RoundTrip
import Leasehold.Proofs.Snapshot.File
import Leasehold.Proofs.Audit.Event
import Leasehold.Proofs.Audit.Trail
import Leasehold.Proofs.FileSystem.Entire
import Leasehold.Proofs.Database.RoundTrip
import Leasehold.Proofs.Keyspace.Expiry
import Leasehold.Proofs.Keyspace.Mark
import Leasehold.Proofs.Lock.Sighting
