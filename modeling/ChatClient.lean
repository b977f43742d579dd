import ChatClient.Bytes
import ChatClient.Text.Utf8
import ChatClient.Opcode
import ChatClient.ReturnCode
import ChatClient.Request
import ChatClient.Response
import ChatClient.Frame.Error
import ChatClient.Frame.Writer
import ChatClient.Frame.Buffer
import ChatClient.Frame.Reader
import ChatClient.Frame.Extent
import ChatClient.Frame.Stream
import ChatClient.Text.Blank
import ChatClient.Shell.Instruction
import ChatClient.Outstanding
import ChatClient.Network.Fault
import ChatClient.Event
import ChatClient.Json.Scan
import ChatClient.Json.Number
import ChatClient.Json.Skip
import ChatClient.Json.Record
import ChatClient.Json.Writer
import ChatClient.Config
import ChatClient.Config.Reader
import ChatClient.Config.Writer
import ChatClient.Files
import ChatClient.Config.Load
import ChatClient.Network.Dial
import ChatClient.Network.Socket
import ChatClient.Session.State
import ChatClient.Session.Error
import ChatClient.Session
import ChatClient.Connection
import ChatClient.Client
import ChatClient.Client.Caller
import ChatClient.Client.Script
import ChatClient.Network.Exchange
import ChatClient.Shell.Console
import ChatClient.Shell.Run
import ChatClient.Shell.Program
import ChatClient.Main
import ChatClient.Proofs.Except
import ChatClient.Proofs.Text.Utf8
import ChatClient.Proofs.Network.Underway
import ChatClient.Proofs.Network.Transit
import ChatClient.Proofs.Text.Blank
import ChatClient.Proofs.Shell.Grammar
import ChatClient.Proofs.Frame.Delimiting
import ChatClient.Proofs.Frame.Chunking
import ChatClient.Proofs.Frame.Retention
import ChatClient.Proofs.Frame.Requests
import ChatClient.Proofs.Frame.Transfer
import ChatClient.Proofs.Frame.Overlong
import ChatClient.Proofs.Client.Move
import ChatClient.Proofs.Session.Coupling
import ChatClient.Proofs.Client.Intake
import ChatClient.Proofs.Client.Reception
import ChatClient.Proofs.Client.Cramped
import ChatClient.Proofs.Client.History
import ChatClient.Proofs.Client.Effect
import ChatClient.Proofs.Session.Shift
import ChatClient.Proofs.Session.Endings
import ChatClient.Proofs.Client.Decoding
import ChatClient.Proofs.Client.Flight
import ChatClient.Proofs.Session.Authentication
import ChatClient.Proofs.Client.Retention
import ChatClient.Proofs.Client.Wire
import ChatClient.Proofs.Client.Arrival
import ChatClient.Proofs.Session.Counts
import ChatClient.Proofs.Client.Target
import ChatClient.Proofs.Session.Retired
import ChatClient.Proofs.Client.Handshake
import ChatClient.Proofs.Client.Past
import ChatClient.Proofs.Session.Renewal
import ChatClient.Proofs.Client.Release
import ChatClient.Proofs.Client.Delivery
import ChatClient.Proofs.Client.Holding
import ChatClient.Proofs.Shell.Course
import ChatClient.Proofs.Shell.Stages
import ChatClient.Proofs.Shell.Leads
import ChatClient.Proofs.Shell.Progress
import ChatClient.Proofs.Shell.Schedule
import ChatClient.Proofs.Shell.Outgoing
import ChatClient.Proofs.Shell.Answers
import ChatClient.Proofs.Shell.Contract
import ChatClient.Proofs.Session.Posting
import ChatClient.Proofs.Session.Backlog
import ChatClient.Proofs.Session.Bookkeeping
import ChatClient.Frame.Cursor
import ChatClient.Proofs.Frame.Cursor
import ChatClient.Proofs.Frame.Agreement
import ChatClient.Proofs.Frame.Exhaustion
import ChatClient.Proofs.Session.Refusal
import ChatClient.Proofs.Json.Spelling
import ChatClient.Proofs.Json.Reading
import ChatClient.Proofs.Json.Outcome
import ChatClient.Proofs.Json.Numeral
import ChatClient.Proofs.Json.Skipping
import ChatClient.Proofs.Config.RoundTrip
import ChatClient.Proofs.Config.Overrides
