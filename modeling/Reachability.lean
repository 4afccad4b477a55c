import Reachability.Circuit
import Reachability.Clock
import Reachability.CommandLine.Command
import Reachability.CommandLine.Failure
import Reachability.CommandLine.Parse
import Reachability.CommandLine.Session
import Reachability.CommandLine.Setting
import Reachability.CommandLine.Table
import Reachability.Disk.Fault
import Reachability.Disk.Path
import Reachability.Disk.Program
import Reachability.Disk.Tree
import Reachability.Engine.Batch
import Reachability.Engine.Process
import Reachability.Engine.Reports
import Reachability.Engine.Retry
import Reachability.Engine.World
import Reachability.Guard
import Reachability.Json.Indented
import Reachability.Json.Numeral
import Reachability.Json.Quoted
import Reachability.Json.Reader
import Reachability.Json.Value
import Reachability.Link
import Reachability.Log.Entry
import Reachability.Log.File
import Reachability.Log.Segment
import Reachability.Log.SegmentName
import Reachability.Net.Address
import Reachability.Net.Network
import Reachability.Permits
import Reachability.Probe
import Reachability.Proofs.Disk.Path
import Reachability.Proofs.Disk.Program
import Reachability.Proofs.Disk.Tree
import Reachability.Proofs.Json.Numeral
import Reachability.Proofs.Json.Prefix
import Reachability.Proofs.Json.Reader
import Reachability.Proofs.Json.Text
import Reachability.Proofs.Log.Action
import Reachability.Proofs.Log.Entry
import Reachability.Proofs.Log.Ledger
import Reachability.Proofs.Log.Order
import Reachability.Proofs.Log.Replay
import Reachability.Proofs.Log.Rotation
import Reachability.Proofs.Log.Segment
import Reachability.Proofs.Log.SegmentName
import Reachability.Proofs.Log.Shelf
import Reachability.Proofs.Store.Basic
import Reachability.Proofs.Store.Index
import Reachability.Proofs.Table
import Reachability.Proofs.Text.Numeral
import Reachability.Proofs.Text.Utf8
import Reachability.Proofs.Time.CivilDate
import Reachability.Proofs.Time.Timestamp
import Reachability.Report.Text
import Reachability.Schedule
import Reachability.Span
import Reachability.Store.Basic
import Reachability.Store.Error
import Reachability.Store.Index
import Reachability.Store.Service
import Reachability.Table
import Reachability.Task
import Reachability.Text.Blank
import Reachability.Text.Numeral
import Reachability.Text.Utf8
import Reachability.Time.CivilDate
import Reachability.Time.Timestamp
import Reachability.Unicode.Direction
import Reachability.Unicode.DirectionData
import Reachability.Unicode.Joining
import Reachability.Unicode.JoiningData
import Reachability.Unicode.Mapping
import Reachability.Unicode.MappingData
import Reachability.Unicode.MarkData
import Reachability.Unicode.Normal
import Reachability.Unicode.NormalData
import Reachability.Unicode.RangeTable
import Reachability.Url.Basic
import Reachability.Url.Domain
import Reachability.Url.Host
import Reachability.Url.Parse
import Reachability.Url.Punycode
import Reachability.Main
import Reachability.Proofs.Store.Agreement
import Reachability.Proofs.Log.Recovery
import Reachability.Proofs.Store.Recovery
import Reachability.Proofs.Log.Pruning
import Reachability.Proofs.Store.Ids
import Reachability.Proofs.Link
import Reachability.Proofs.Log.Framing
import Reachability.Proofs.Circuit
import Reachability.Proofs.Probe.Course
import Reachability.Proofs.Probe.Law
import Reachability.Proofs.Probe.Stages
import Reachability.Proofs.Permits
import Reachability.Proofs.Schedule
import Reachability.Proofs.Log.Room
import Reachability.Proofs.Store.Service
import Reachability.Proofs.Store.Books
import Reachability.Proofs.Store.Account
import Reachability.Proofs.Engine.Turns
import Reachability.Proofs.Engine.Accounts
import Reachability.Proofs.Engine.Order
import Reachability.Proofs.Engine.Runs
import Reachability.Proofs.Engine.Progress
import Reachability.Proofs.Engine.Persistence
import Reachability.Proofs.Engine.Handover
import Reachability.Proofs.Engine.Schedules
import Reachability.Proofs.Net.Address
import Reachability.Proofs.Guard
import Reachability.Proofs.Trail
import Reachability.Proofs.Probe.Target
import Reachability.Proofs.Engine.Checks
import Reachability.Proofs.Engine.Targets
import Reachability.Proofs.Engine.Permits
import Reachability.Proofs.Engine.Merging
import Reachability.Proofs.Engine.Acts
import Reachability.Proofs.Engine.Steady
import Reachability.Proofs.Engine.Deadline
import Reachability.Proofs.Circuit.History
import Reachability.Proofs.Probe.Series
import Reachability.Proofs.Store.Readers
import Reachability.Proofs.Probe.Verdict
import Reachability.Proofs.Engine.Independence
import Reachability.Proofs.Log.Damage
import Reachability.Proofs.Log.Found
import Reachability.Proofs.Log.Corruption
import Reachability.Proofs.Log.Mending
import Reachability.Proofs.Engine.Attending
import Reachability.Proofs.Engine.Orders
import Reachability.Proofs.Engine.Punctual
import Reachability.Proofs.Report.Text
import Reachability.Proofs.Engine.Veil
import Reachability.Proofs.Engine.Listing
import Reachability.Proofs.Engine.Reporting
import Reachability.Proofs.Report.Lines
import Reachability.Proofs.Url.Spelling
import Reachability.Proofs.Link.Host
import Reachability.Proofs.Probe.Lookups
import Reachability.Proofs.Disk.Attempt
import Reachability.Proofs.Log.Attempt
import Reachability.Proofs.Log.Contents
import Reachability.Proofs.Store.Failure
import Reachability.Proofs.Store.Loading
import Reachability.Proofs.Log.Cause
import Reachability.Proofs.Store.Lifetime
import Reachability.Proofs.Engine.Retries
import Reachability.Proofs.Engine.Draining
import Reachability.Proofs.Disk.Grounded
import Reachability.Proofs.Log.Footprint
import Reachability.Proofs.Store.Footprint
import Reachability.Proofs.Text.Blank
import Reachability.Proofs.Span
import Reachability.Proofs.Log.CleanPart
import Reachability.Proofs.Log.SegmentKey
