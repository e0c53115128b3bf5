import CloudTiering.App.Conf
import CloudTiering.App.ConfFailures
import CloudTiering.App.ConfFields
import CloudTiering.App.ConfOrder
import CloudTiering.App.Descriptors
import CloudTiering.App.ErrorDetails
import CloudTiering.App.File
import CloudTiering.App.Locations
import CloudTiering.App.Log
import CloudTiering.App.ObjectId
import CloudTiering.App.ObjectIdHistory
import CloudTiering.App.Ops
import CloudTiering.App.Outline
import CloudTiering.App.PutCallback
import CloudTiering.App.Retries
import CloudTiering.App.RetryLoops
import CloudTiering.App.ReturnCodes
import CloudTiering.App.S3Ops
import CloudTiering.App.S3Outline
import CloudTiering.Client.Descriptors
import CloudTiering.Client.Open
import CloudTiering.Client.Processes
import CloudTiering.Client.Startup
import CloudTiering.Concurrency.Attributes
import CloudTiering.Concurrency.Eviction
import CloudTiering.Concurrency.Locking
import CloudTiering.Concurrency.ObjectIds
import CloudTiering.Concurrency.Orphans
import CloudTiering.Concurrency.Parties
import CloudTiering.Concurrency.Phases
import CloudTiering.Concurrency.Requests
import CloudTiering.Concurrency.TruncatingOpen
import CloudTiering.Concurrency.Waiting
import CloudTiering.Daemon.Instances
import CloudTiering.Daemon.Loop
import CloudTiering.Daemon.Scan
import CloudTiering.Daemon.ScanThread
import CloudTiering.Daemon.Start
import CloudTiering.Daemon.Transfer
import CloudTiering.Foundations.AtomicObject
import CloudTiering.Foundations.DirectoryTree
import CloudTiering.Foundations.Fairness
import CloudTiering.Foundations.Holes
import CloudTiering.Foundations.LittleEndian
import CloudTiering.Foundations.Mutex
import CloudTiering.Foundations.Program
import CloudTiering.Foundations.SlotMemory
import CloudTiering.Foundations.SparseBytes
import CloudTiering.Foundations.Streams
import CloudTiering.Foundations.Threads
import CloudTiering.Foundations.Traces
import CloudTiering.Foundations.Transition
import CloudTiering.Foundations.TruncatedText
import CloudTiering.Foundations.WriteLog
import CloudTiering.Pass.Completion
import CloudTiering.Pass.Scan
import CloudTiering.Pass.Upload
import CloudTiering.Queue.Cancellation
import CloudTiering.Queue.Capacity
import CloudTiering.Queue.Exclusion
import CloudTiering.Queue.Fifo
import CloudTiering.Queue.Layout
import CloudTiering.Queue.Linearizability
import CloudTiering.Queue.Machine
import CloudTiering.Queue.Mapping
import CloudTiering.Queue.Progress
import CloudTiering.Queue.Publication
import CloudTiering.Queue.Sequential
import CloudTiering.Queue.TryOperations
import CloudTiering.Recovery.Alone
import CloudTiering.Recovery.Content
import CloudTiering.Recovery.Crashes
import CloudTiering.Recovery.Failures
import CloudTiering.Recovery.Isolation
import CloudTiering.Recovery.RoundTrip
import CloudTiering.System.Answers
import CloudTiering.System.Kernel
import CloudTiering.System.World
import CloudTiering.Tiering.Answers
import CloudTiering.Tiering.Invariant
import CloudTiering.Tiering.Stages
import CloudTiering.Tiering.Steps
import CloudTiering.Tiering.Transparency
