import EventServer.Address
import EventServer.CommandLine
import EventServer.Connections.Basic
import EventServer.Endpoint
import EventServer.Engine
import EventServer.Errno
import EventServer.Events
import EventServer.Failure
import EventServer.Fault
import EventServer.Host.Basic
import EventServer.Host.Stream
import EventServer.Http.Answer
import EventServer.Http.Body
import EventServer.Http.Date
import EventServer.Http.Exchange
import EventServer.Http.Failure
import EventServer.Http.Grammar
import EventServer.Http.Head
import EventServer.Http.Inflow
import EventServer.Http.Protocol
import EventServer.Http.Service
import EventServer.Http.Target
import EventServer.Http.Transport
import EventServer.Interest
import EventServer.IpAddress
import EventServer.Journal.Entry
import EventServer.Journal.Filter
import EventServer.Journal.FilterRule
import EventServer.Journal.Note
import EventServer.Journal.Noted
import EventServer.Main
import EventServer.Nonblocking
import EventServer.Notifier
import EventServer.ParkingSlot
import EventServer.Poll
import EventServer.Proofs.Accepting
import EventServer.Proofs.Agreement
import EventServer.Proofs.Alertness
import EventServer.Proofs.Answering
import EventServer.Proofs.Apart
import EventServer.Proofs.Arguments
import EventServer.Proofs.Asking
import EventServer.Proofs.Attention
import EventServer.Proofs.Belonging
import EventServer.Proofs.Berth
import EventServer.Proofs.Bystanders
import EventServer.Proofs.Coalescence
import EventServer.Proofs.Conduct
import EventServer.Proofs.Confinement
import EventServer.Proofs.Conversing
import EventServer.Proofs.Custody
import EventServer.Proofs.Delivery
import EventServer.Proofs.Dialogue
import EventServer.Proofs.Elsewhere
import EventServer.Proofs.Ends
import EventServer.Proofs.Endurance
import EventServer.Proofs.Fairness
import EventServer.Proofs.Faithful
import EventServer.Proofs.Farewell
import EventServer.Proofs.Flow
import EventServer.Proofs.Hailing
import EventServer.Proofs.Hearing
import EventServer.Proofs.Idleness
import EventServer.Proofs.Inbound
import EventServer.Proofs.Interchange
import EventServer.Proofs.Ledger
import EventServer.Proofs.Lifetimes
import EventServer.Proofs.Locality
import EventServer.Proofs.Loop
import EventServer.Proofs.Noninterference
import EventServer.Proofs.Operations
import EventServer.Proofs.Parking
import EventServer.Proofs.Passage
import EventServer.Proofs.Piecemeal
import EventServer.Proofs.Pumping
import EventServer.Proofs.Quiescence
import EventServer.Proofs.Quoting
import EventServer.Proofs.Reclaiming
import EventServer.Proofs.Refusal
import EventServer.Proofs.Registration
import EventServer.Proofs.Reordering
import EventServer.Proofs.Reporting
import EventServer.Proofs.Retained
import EventServer.Proofs.Retrying
import EventServer.Proofs.Schedule
import EventServer.Proofs.Seclusion
import EventServer.Proofs.Session
import EventServer.Proofs.Steady
import EventServer.Proofs.Stream
import EventServer.Proofs.Table
import EventServer.Proofs.Teardown
import EventServer.Proofs.Thrift
import EventServer.Proofs.Traffic
import EventServer.Proofs.Turning
import EventServer.Proofs.Twins
import EventServer.Proofs.Undisturbed
import EventServer.Proofs.Unrest
import EventServer.Proofs.Waiting
import EventServer.Proofs.Wakefulness
import EventServer.Proofs.Watching
import EventServer.Proofs.WouldBlock
import EventServer.Readiness
import EventServer.Scenario.Basic
import EventServer.Scenario.Descriptors
import EventServer.Scenario.Failures
import EventServer.Scenario.Parking
import EventServer.Scenario.Scheduling
import EventServer.Scenario.Serving
import EventServer.Scenario.Signals
import EventServer.Scenario.Table
import EventServer.Server
import EventServer.Settings
import EventServer.Signal
import EventServer.SignalSource
import EventServer.Slots
import EventServer.Tasks
import EventServer.Text.Alphanumeric
import EventServer.Text.Blank
import EventServer.Text.Bytes
import EventServer.Text.Numeral
import EventServer.Text.Pattern
import EventServer.Text.Quoted
import EventServer.Text.Spelled
import EventServer.Text.Unprintable
import EventServer.Token
