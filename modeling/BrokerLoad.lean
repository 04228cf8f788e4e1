import BrokerLoad.Action
import BrokerLoad.Client.Connection
import BrokerLoad.Client.Handler
import BrokerLoad.Client.Network
import BrokerLoad.Client.Program
import BrokerLoad.Client.Publisher
import BrokerLoad.Client.Report
import BrokerLoad.Client.Schedule
import BrokerLoad.Client.Session
import BrokerLoad.Client.Subscriber
import BrokerLoad.CommandLine.Outcome
import BrokerLoad.CommandLine.Parse
import BrokerLoad.CommandLine.Settings
import BrokerLoad.CommandLine.Syntax
import BrokerLoad.CommandLine.Token
import BrokerLoad.Config.Broker
import BrokerLoad.Config.Plan
import BrokerLoad.Config.Settings
import BrokerLoad.Fault
import BrokerLoad.Files.Directory
import BrokerLoad.Files.Landmark
import BrokerLoad.Files.Search
import BrokerLoad.Fleet.Build
import BrokerLoad.Fleet.Host
import BrokerLoad.Fleet.Output
import BrokerLoad.Fleet.Program
import BrokerLoad.Fleet.Record
import BrokerLoad.Fleet.Run
import BrokerLoad.Log
import BrokerLoad.Main
import BrokerLoad.Number.Double
import BrokerLoad.Number.Fixed
import BrokerLoad.Number.Numeral
import BrokerLoad.Number.Rounding
import BrokerLoad.Number.Shortest
import BrokerLoad.Rehearsal.Clock
import BrokerLoad.Rehearsal.Machine
import BrokerLoad.Rehearsal.Network
import BrokerLoad.Rehearsal.Session
import BrokerLoad.Results.Chart
import BrokerLoad.Results.Rates
import BrokerLoad.Results.Series
import BrokerLoad.Table.Csv
import BrokerLoad.Table.Sheet
import BrokerLoad.Text.Blank
import BrokerLoad.Text.Digit
import BrokerLoad.Text.Glob
import BrokerLoad.Text.Printable
import BrokerLoad.Text.Quoted
import BrokerLoad.Text.ShellWords
import BrokerLoad.Time
import BrokerLoad.Proofs.Contract
import BrokerLoad.Proofs.Text.Lines
import BrokerLoad.Proofs.Fleet.Step
import BrokerLoad.Proofs.Fleet.Rules
import BrokerLoad.Proofs.Fleet.Parts
import BrokerLoad.Proofs.Fleet.Spawn
import BrokerLoad.Proofs.Fleet.Phases
import BrokerLoad.Proofs.Fleet.Sweep
import BrokerLoad.Proofs.Fleet.Ledger
import BrokerLoad.Proofs.Fleet.Bench
import BrokerLoad.Proofs.Fleet.Order
import BrokerLoad.Proofs.Fleet.Pending
import BrokerLoad.Proofs.Fleet.Legible
import BrokerLoad.Proofs.Fleet.Limits
import BrokerLoad.Proofs.Fleet.Return
import BrokerLoad.Proofs.Fleet.Rounds
import BrokerLoad.Proofs.Fleet.Loops
import BrokerLoad.Proofs.Fleet.Replay
import BrokerLoad.Proofs.Fleet.Account
import BrokerLoad.Proofs.Fleet.Duration
import BrokerLoad.Proofs.Fleet.InTurn
import BrokerLoad.Proofs.Fleet.Teardown
import BrokerLoad.Proofs.Fleet.Barrier
import BrokerLoad.Proofs.Number.Integers
import BrokerLoad.Proofs.Fleet.Told
import BrokerLoad.Proofs.Config.Broker
import BrokerLoad.Proofs.CommandLine.Values
import BrokerLoad.Proofs.Client.Arguments
import BrokerLoad.Proofs.Client.Replies
import BrokerLoad.Proofs.Client.Requests
import BrokerLoad.Proofs.Client.Course
import BrokerLoad.Proofs.Client.Loops
import BrokerLoad.Proofs.Client.LifeCycle
import BrokerLoad.Proofs.Client.Exchanges
import BrokerLoad.Proofs.Client.Answers
import BrokerLoad.Proofs.Client.Dialogue
import BrokerLoad.Proofs.Client.Release
import BrokerLoad.Proofs.Client.Drain
import BrokerLoad.Proofs.Client.Hears
import BrokerLoad.Proofs.Client.Pace
import BrokerLoad.Proofs.Client.Turns
import BrokerLoad.Proofs.Client.Publishing
import BrokerLoad.Proofs.Number.Places
import BrokerLoad.Proofs.Client.Count
import BrokerLoad.Proofs.Client.Printed
import BrokerLoad.Proofs.Text.Glob
import BrokerLoad.Proofs.Table.Csv
import BrokerLoad.Proofs.Table.Sheet
import BrokerLoad.Proofs.Number.Written
import BrokerLoad.Proofs.Files.Directory
import BrokerLoad.Proofs.CommandLine.Read
import BrokerLoad.Proofs.CommandLine.Plans
import BrokerLoad.Proofs.Fleet.Returned
import BrokerLoad.Proofs.Fleet.Heard
import BrokerLoad.Proofs.Results.Tables
import BrokerLoad.Proofs.Results.Series
import BrokerLoad.Proofs.Fleet.Runner
import BrokerLoad.Proofs.Fleet.External
import BrokerLoad.Proofs.Client.Stints
import BrokerLoad.Proofs.Client.Bounds
import BrokerLoad.Proofs.Client.Spacing
import BrokerLoad.Proofs.Client.Ending
import BrokerLoad.Proofs.Number.Order
import BrokerLoad.Proofs.Number.Quotient
import BrokerLoad.Proofs.Number.Nearness
import BrokerLoad.Proofs.Number.Reprint
import BrokerLoad.Proofs.Number.WholeQuotient
import BrokerLoad.Proofs.Client.Rounded
import BrokerLoad.Proofs.Client.LastDue
import BrokerLoad.Proofs.Client.Lone
import BrokerLoad.Proofs.Client.Overshoot
import BrokerLoad.Proofs.Client.Verdict
import BrokerLoad.Proofs.Client.Handshake
import BrokerLoad.Proofs.Client.Standing
import BrokerLoad.Proofs.Client.Grants
import BrokerLoad.Proofs.Client.Subscription
import BrokerLoad.Proofs.Client.MessageLog
