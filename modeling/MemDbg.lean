import MemDbg.Scan.Fault
import MemDbg.Scan.Segments
import MemDbg.Scan.Progress
import MemDbg.Daemon.ScanJobs
import MemDbg.FlashScan.Buffers
import MemDbg.Daemon.HelloSessions
import MemDbg.Daemon.Arena
import MemDbg.Scan.Alias
import MemDbg.Daemon.ElfLoader
import MemDbg.Debug.Ownership
import MemDbg.Daemon.LastClient
import MemDbg.Debug.Transparent
import MemDbg.Process.Mutations
import MemDbg.Frontend.Framed
import MemDbg.Util.Lz4Bound
import MemDbg.Util.Lz4Reference
import MemDbg.Frontend.Stop
import MemDbg.Frontend.Requests
import MemDbg.Pal.FdCache
import MemDbg.Daemon.ClientLoop
import MemDbg.Legacy.InStep
import MemDbg.Legacy.Disconnect
import MemDbg.Tauri.Overlap
import MemDbg.FlashScan.ParallelStream
import MemDbg.FlashScan.Windows
import MemDbg.Daemon.Acceptor
import MemDbg.Scan.Augment
import MemDbg.Scan.Physical
import MemDbg.Daemon.ThreadPool
import MemDbg.Daemon.BatchWrite
import MemDbg.Daemon.StackWalk
import MemDbg.Debug.Stops
import MemDbg.Frontend.Repository
import MemDbg.Frontend.Pool
import MemDbg.Tauri.Framer
import MemDbg.Gdb.Transfer
import MemDbg.Legacy.Breakpoints
import MemDbg.Frontend.Rematch
import MemDbg.Frontend.RepositoryFiles
import MemDbg.Tracer.Lifecycle
import MemDbg.FlashScan.Isolation
import MemDbg.Debug.Xrefs
import MemDbg.Tracer.PollRing
import MemDbg.Frontend.CrashReport
import MemDbg.Daemon.Services
import MemDbg.Pal.Network
import MemDbg.FlashScan.Store
import MemDbg.FlashScan.Slots
import MemDbg.Core.RegionMatch
import MemDbg.Tools.X64Session
import MemDbg.Frontend.PatchStudio
import MemDbg.Frontend.Quoting
import MemDbg.Frontend.UnknownScan
import MemDbg.Tauri.Responses
import MemDbg.Daemon.Instance
