import FpcReader.Native.FeatureBudget
import FpcReader.Native.FrameGrammar
import FpcReader.Native.BoxFilter
import FpcReader.Wire.TlsKey
import FpcReader.Lib.Cbc
import FpcReader.Native.SpatialFairness
import FpcReader.Native.ScoreOrder
import FpcReader.Native.RankFrames
import FpcReader.Lib.Insertion
import FpcReader.Lib.Window
import FpcReader.Native.Projection
import FpcReader.Lib.Orbit
import FpcReader.Native.SwapCaptures
import FpcReader.Lib.Swaps
import FpcReader.Lib.Quicksort
import FpcReader.Native.PayloadCodec
import FpcReader.Native.GroupedSessions
import FpcReader.Native.Grouping
import FpcReader.Lib.Components
import FpcReader.Lib.Crc
import FpcReader.Native.Defects
import FpcReader.Storage.InitialGraph
import FpcReader.Lib.Bubble
import FpcReader.Native.Resize
import FpcReader.Native.AffinePatch
import FpcReader.Lib.Loops
import FpcReader.Native.Coverage
import FpcReader.Native.Metrics
import FpcReader.Native.Normalize
import FpcReader.Native.Preparation
import FpcReader.Native.Warp
import FpcReader.Native.Masks
import FpcReader.Lib.PackedBits
import FpcReader.Lib.BitCount
import FpcReader.Daemon.Reopening
import FpcReader.Daemon.Recovery
import FpcReader.Usb.TransferSound
import FpcReader.Usb.Transfer
import FpcReader.Daemon.LoadedReader
import FpcReader.Daemon.Registry
import FpcReader.Storage.Enrolled
import FpcReader.Native.EnrollmentRuns
import FpcReader.Native.Enrollment
import FpcReader.Native.GeometryAccount
import FpcReader.Native.FitAccuracy
import FpcReader.Storage.Retaining
import FpcReader.Native.Replacement
import FpcReader.Lib.Triangle
import FpcReader.Wire.EventFramer
import FpcReader.Native.AcceptSound
import FpcReader.Native.MatchOrder
import FpcReader.Storage.Atomicity
import FpcReader.Storage.VerifyTotal
import FpcReader.Native.LoaderSafe
import FpcReader.Daemon.Replies
import FpcReader.Daemon.Tombstones
import FpcReader.Daemon.ClaimWatch
import FpcReader.Daemon.ImageOrigin
import FpcReader.Daemon.ClaimEnd
import FpcReader.Daemon.ClaimIsolation
import FpcReader.Daemon.FreshImages
import FpcReader.Daemon.Stranded
import FpcReader.Daemon.SignalFilter
import FpcReader.Native.GroupPayload
import FpcReader.Native.PairPayload
import FpcReader.Native.CaptureMask
import FpcReader.Native.FeatureDetection
import FpcReader.Wire.Tunnel
import FpcReader.Native.Orientation
import FpcReader.Native.AngleAccuracy
import FpcReader.Native.Extraction
