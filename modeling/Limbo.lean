import Limbo.Aio.Counters
import Limbo.Aio.Requests
import Limbo.Aio.ThreadPool
import Limbo.Aio.Transfer
import Limbo.Aio.VectoredIo
import Limbo.Drawing.Coverage
import Limbo.Drawing.Invariant
import Limbo.Drawing.Overlap
import Limbo.Drawing.OverlappingCopy
import Limbo.Drawing.Ownership
import Limbo.Drawing.Pool
import Limbo.Drawing.RectList
import Limbo.Drawing.Termination
import Limbo.Executor.Argv
import Limbo.Executor.ArgvCount
import Limbo.Executor.ArgvFill
import Limbo.Executor.VMExecutor
import Limbo.Lib.Bytes
import Limbo.Lib.CString
import Limbo.Lib.Counting
import Limbo.Lib.Held
import Limbo.Lib.Keyed
import Limbo.Lib.Loop
import Limbo.Lib.Meets
import Limbo.Lib.Memory
import Limbo.Lib.Moves
import Limbo.Lib.Preserves
import Limbo.Lib.Ring
import Limbo.Lib.Run
import Limbo.Lib.Segments
import Limbo.Lib.Words
import Limbo.Lib.WriteLog
import Limbo.Machines.Cells
import Limbo.Machines.Connection
import Limbo.Machines.Csv
import Limbo.Machines.DriveSpinners
import Limbo.Machines.Identity
import Limbo.Machines.Import
import Limbo.Machines.ImportedDrives
import Limbo.Machines.Isolation
import Limbo.Machines.Table
import Limbo.Monitor.Parse
import Limbo.Monitor.SaveState
import Limbo.Qcow2.AllocBytes
import Limbo.Qcow2.ByteRanges
import Limbo.Qcow2.ByteRuns
import Limbo.Qcow2.NoAbort
import Limbo.Qcow2.RefcountAllocation
import Limbo.Qcow2.RefcountBlocks
import Limbo.Qcow2.RefcountRanges
import Limbo.Qcow2.RefcountReports
import Limbo.Qcow2.RefcountUndo
import Limbo.Qcow2.Refcounts
import Limbo.Qcow2.SnapshotCodec
import Limbo.Qcow2.SnapshotFailures
import Limbo.Qcow2.SnapshotRefcount
import Limbo.Qcow2.SnapshotTable
import Limbo.Qcow2.TableGrowth
import Limbo.Qcow2.TableSwitch
import Limbo.Session.LifeCycle
import Limbo.Session.SaveProgress
import Limbo.Session.StatusListener
import Limbo.Slirp.Dhcp
import Limbo.Slirp.Dns
import Limbo.Slirp.OutputOrder
import Limbo.Slirp.OutputQueues
import Limbo.Slirp.Reassembly
import Limbo.Slirp.Records
import Limbo.Slirp.RoundTrip
import Limbo.Slirp.SocketBuffer
import Limbo.Slirp.SocketFifo
import Limbo.Slirp.State
import Limbo.Slirp.StreamDelivery
import Limbo.Slirp.StreamPieces
import Limbo.Snapshot.Block
import Limbo.Snapshot.Buffering
import Limbo.Snapshot.FailedSave
import Limbo.Snapshot.Lookup
import Limbo.Snapshot.NewSnapshots
import Limbo.Snapshot.QemuFile
import Limbo.Snapshot.QemuFileRead
import Limbo.Snapshot.SaveLoad
import Limbo.Snapshot.SavedName
import Limbo.Snapshot.Savevm
import Limbo.Snapshot.SavingState
import Limbo.Snapshot.SeveralDisks
import Limbo.Snapshot.VmState
import Limbo.Topology.FlatView
import Limbo.Topology.Freshness
import Limbo.Topology.Listeners
import Limbo.Topology.Rendering
import Limbo.Topology.Resolution
import Limbo.Topology.System
import Limbo.Topology.Updates
import Limbo.Util.ByteBufferStack
import Limbo.Vnc.Authentication
import Limbo.Vnc.Canvas
import Limbo.Vnc.Capabilities
import Limbo.Vnc.Cells
import Limbo.Vnc.Confinement
import Limbo.Vnc.Content
import Limbo.Vnc.D3des
import Limbo.Vnc.Decoders
import Limbo.Vnc.DesCipher
import Limbo.Vnc.DesInverse
import Limbo.Vnc.DesText
import Limbo.Vnc.DrawWindow
import Limbo.Vnc.Encoding
import Limbo.Vnc.Events
import Limbo.Vnc.Framing
import Limbo.Vnc.HeldModifiers
import Limbo.Vnc.Hextile
import Limbo.Vnc.Image
import Limbo.Vnc.InStream
import Limbo.Vnc.InStreamExact
import Limbo.Vnc.InStreamRefill
import Limbo.Vnc.KeyExchange
import Limbo.Vnc.Keyboard
import Limbo.Vnc.LongBytes
import Limbo.Vnc.Paint
import Limbo.Vnc.Password
import Limbo.Vnc.Picture
import Limbo.Vnc.Pointer
import Limbo.Vnc.Protocol
import Limbo.Vnc.Rectangles
import Limbo.Vnc.Resize
import Limbo.Vnc.Scroll
import Limbo.Vnc.Subrectangles
import Limbo.Vnc.TileDecoder
import Limbo.Vnc.TileExact
import Limbo.Vnc.Touched
import Limbo.Vnc.Update
import Limbo.Vnc.Zlib
import Limbo.Vnc.ZlibInStream
import Limbo.Vnc.Zrle
import Limbo.Vnc.ZrleStream
import Limbo.VncServer.Blits
import Limbo.VncServer.ClientMessages
import Limbo.VncServer.ClientStream
import Limbo.VncServer.Display
import Limbo.VncServer.GuestModifiers
import Limbo.VncServer.Hextile
import Limbo.VncServer.HextileRows
import Limbo.VncServer.Keys
import Limbo.VncServer.PixelFormat
import Limbo.VncServer.PixelSizes
import Limbo.VncServer.Sharing
import Limbo.VncServer.Staleness
import Limbo.Lib.Radix
import Limbo.Pages.PhysMap
import Limbo.Pages.PhysPageSet
import Limbo.Pages.Sections
