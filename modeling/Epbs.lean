import Epbs.Machine.Guarded
import Epbs.Machine.Fifo
import Epbs.Machine.Printf
import Epbs.Machine.Words
import Epbs.Server.Tables
import Epbs.Server.Queue
import Epbs.Server.Messages
import Epbs.Server.Waiting
import Epbs.Server.Master
import Epbs.Cluster.Network
import Epbs.Cluster.Ledger
import Epbs.Cluster.Exclusivity
import Epbs.Cluster.JobLife
import Epbs.Cluster.Numbering
import Epbs.Cluster.Slots
import Epbs.Cluster.Completion
import Epbs.Cluster.Processes
import Epbs.Cluster.CancelQueued
import Epbs.Cluster.Cancel
import Epbs.Cluster.Endpoints
import Epbs.Transfer.ETransfer
import Epbs.Transfer.ServiceLoop
import Epbs.Transfer.Intake
import Epbs.Server.Results
import Epbs.Server.Rounds
import Epbs.Cluster.Running
import Epbs.Transfer.Descriptors
import Epbs.Wire.Requests
import Epbs.Transfer.Segments
import Epbs.Transfer.Endings
import Epbs.Transfer.Writes
import Epbs.Wire.Submit
import Epbs.Wire.Command
import Epbs.Cluster.Usage
import Epbs.Wire.Reports
import Epbs.Transfer.Reports
import Epbs.Transfer.HostReports
import Epbs.Wire.JobReplies
import Epbs.Wire.HostReplies
import Epbs.Wire.Leaks
import Epbs.Wire.DataMessages
import Epbs.Machine.Strings
import Epbs.Startup.HostFile
import Epbs.Startup.Bounds
import Epbs.Startup.Identity
import Epbs.Startup.Inputs
import Epbs.Machine.Locks
import Epbs.Server.Locking
import Epbs.Wire.Lookup
import Epbs.Wire.RoundTrip
import Epbs.Wire.HostQuery
import Epbs.Startup.Entries
import Epbs.Transfer.Select
import Epbs.Transfer.Bookkeeping
import Epbs.Machine.Pieces
import Epbs.Machine.Text
import Epbs.Transfer.InitTcp
import Epbs.Transfer.SockTcp
import Epbs.Transfer.ParseUrl
import Epbs.Cluster.Accounts
import Epbs.Cluster.Order
import Epbs.Cluster.Progress
import Epbs.Wire.JobHistory
import Epbs.Machine.Batch
import Epbs.Cluster.Scheduler
import Epbs.Wire.CommandLine
import Epbs.Cluster.Traffic
import Epbs.Cluster.Drain
import Epbs.Cluster.Lost
import Epbs.Wire.SubmitReply
import Epbs.Cluster.Delay
import Epbs.Wire.NodeStates
import Epbs.Wire.QueuePush
import Epbs.Cluster.Times
import Epbs.Machine.Ownership
import Epbs.Transfer.Sockets
import Epbs.Cluster.Inside
