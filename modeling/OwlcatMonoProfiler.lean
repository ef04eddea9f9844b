import OwlcatMonoProfiler.Library.Dict
import OwlcatMonoProfiler.Library.Fifo
import OwlcatMonoProfiler.Library.Run
import OwlcatMonoProfiler.Library.Progress
import OwlcatMonoProfiler.Library.AllocLog
import OwlcatMonoProfiler.Library.Worklist
import OwlcatMonoProfiler.Library.LittleEndian
import OwlcatMonoProfiler.Library.Sorting
import OwlcatMonoProfiler.Library.Blocks
import OwlcatMonoProfiler.Library.Grouping
import OwlcatMonoProfiler.Library.Recent
import OwlcatMonoProfiler.Library.Attempts
import OwlcatMonoProfiler.Library.Forest
import OwlcatMonoProfiler.Library.Nearest
import OwlcatMonoProfiler.Library.Csv
import OwlcatMonoProfiler.Library.RawVector
import OwlcatMonoProfiler.Library.Sql
import OwlcatMonoProfiler.Common.MemoryStream
import OwlcatMonoProfiler.Common.ReaderRuns
import OwlcatMonoProfiler.Common.Fields
import OwlcatMonoProfiler.Common.Sequences
import OwlcatMonoProfiler.Server.WorkerThread
import OwlcatMonoProfiler.Server.Collector
import OwlcatMonoProfiler.Server.References
import OwlcatMonoProfiler.Server.Runs
import OwlcatMonoProfiler.Server.Accounting
import OwlcatMonoProfiler.Server.Transparency
import OwlcatMonoProfiler.Server.Collections
import OwlcatMonoProfiler.Server.Requests
import OwlcatMonoProfiler.Server.Reachability
import OwlcatMonoProfiler.Server.Answers
import OwlcatMonoProfiler.Server.Freshness
import OwlcatMonoProfiler.Server.Interleaving
import OwlcatMonoProfiler.Server.StoppedWorker
import OwlcatMonoProfiler.Server.StopList
import OwlcatMonoProfiler.Server.MonoProfiler
import OwlcatMonoProfiler.Server.Frames
import OwlcatMonoProfiler.Server.Exclusion
import OwlcatMonoProfiler.Server.Settling
import OwlcatMonoProfiler.Server.Connections
import OwlcatMonoProfiler.Server.Watchdog
import OwlcatMonoProfiler.Network.Protocol
import OwlcatMonoProfiler.Network.RoundTrip
import OwlcatMonoProfiler.Network.Wire
import OwlcatMonoProfiler.Network.Connection
import OwlcatMonoProfiler.Client.Database
import OwlcatMonoProfiler.Client.Details
import OwlcatMonoProfiler.Client.Recording
import OwlcatMonoProfiler.Client.Integers
import OwlcatMonoProfiler.Client.Ingestion
import OwlcatMonoProfiler.Client.Sessions
import OwlcatMonoProfiler.Client.Stopping
import OwlcatMonoProfiler.Client.LiveObjects
import OwlcatMonoProfiler.Client.Windows
import OwlcatMonoProfiler.Client.FrameStats
import OwlcatMonoProfiler.Client.FrameWindows
import OwlcatMonoProfiler.Client.SignedWindows
import OwlcatMonoProfiler.Client.Migrations
import OwlcatMonoProfiler.Client.Traces
import OwlcatMonoProfiler.Client.Isolation
import OwlcatMonoProfiler.Client.Decoding
import OwlcatMonoProfiler.Client.Commands
import OwlcatMonoProfiler.Client.SharedCommands
import OwlcatMonoProfiler.Client.BrokenEvents
import OwlcatMonoProfiler.Client.Saving
import OwlcatMonoProfiler.Client.Statements
import OwlcatMonoProfiler.Client.Cursors
import OwlcatMonoProfiler.Client.Tables
import OwlcatMonoProfiler.Ui.GraphsData
import OwlcatMonoProfiler.Ui.Picking
import OwlcatMonoProfiler.Ui.LiveObjectsData
import OwlcatMonoProfiler.Ui.LiveLists
import OwlcatMonoProfiler.Ui.Export
import OwlcatMonoProfiler.Ui.TraceFiles
import OwlcatMonoProfiler.Ui.PrevSettings
import OwlcatMonoProfiler.Ui.SearchResultsData
import OwlcatMonoProfiler.Client.Queries
import OwlcatMonoProfiler.Client.QueryTables
import OwlcatMonoProfiler.Client.QueryAnswers
import OwlcatMonoProfiler.Ui.ObjectReferencesModel
import OwlcatMonoProfiler.Ui.LatestReferences
import OwlcatMonoProfiler.Ui.TreeIndex
import OwlcatMonoProfiler.EndToEnd
import OwlcatMonoProfiler.Totals
import OwlcatMonoProfiler.Profiling
import OwlcatMonoProfiler.ReferenceTree
import OwlcatMonoProfiler.Reopening
import OwlcatMonoProfiler.ListMessages
