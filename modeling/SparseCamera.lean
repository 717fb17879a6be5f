import SparseCamera.Camera.Band
import SparseCamera.Camera.Basic
import SparseCamera.Camera.Lifecycle
import SparseCamera.Camera.Mock
import SparseCamera.Camera.Pacing
import SparseCamera.Ini.Basic
import SparseCamera.Ini.Comment
import SparseCamera.Ini.Grammar
import SparseCamera.Ini.Lines
import SparseCamera.Ini.ReadOnly
import SparseCamera.Ini.Reader
import SparseCamera.Ini.RoundTrip
import SparseCamera.Ini.Typed
import SparseCamera.Ini.Unsigned
import SparseCamera.Lib.Binary32
import SparseCamera.Lib.CString
import SparseCamera.Lib.CharArray
import SparseCamera.Lib.Decimal
import SparseCamera.Lib.Dependencies
import SparseCamera.Lib.Execution
import SparseCamera.Lib.ExtRat
import SparseCamera.Lib.Fairness
import SparseCamera.Lib.FixedWidth
import SparseCamera.Lib.KeyedHistory
import SparseCamera.Lib.KeyedTable
import SparseCamera.Lib.LineReader
import SparseCamera.Lib.LittleEndian
import SparseCamera.Lib.LossyStream
import SparseCamera.Lib.Memory
import SparseCamera.Lib.Nonfinite
import SparseCamera.Lib.Numerals
import SparseCamera.Lib.Pacing
import SparseCamera.Lib.Pointwise
import SparseCamera.Lib.RelativeError
import SparseCamera.Lib.Resources
import SparseCamera.Lib.Rounding
import SparseCamera.Lib.Running
import SparseCamera.Lib.Simulation
import SparseCamera.Lib.Tiling
import SparseCamera.Pipeline.Basic
import SparseCamera.Pipeline.Delivery
import SparseCamera.Pipeline.EndToEnd
import SparseCamera.Pipeline.Link
import SparseCamera.Pipeline.Mock
import SparseCamera.Pipeline.Punctual
import SparseCamera.Pipeline.Schedule
import SparseCamera.Pipeline.Wireless
import SparseCamera.Sink.Accounting
import SparseCamera.Sink.Atomic
import SparseCamera.Sink.Basic
import SparseCamera.Sink.Bounds
import SparseCamera.Sink.Cadence
import SparseCamera.Sink.Decode
import SparseCamera.Sink.DecodeBuffer
import SparseCamera.Sink.Expect
import SparseCamera.Sink.Foreign
import SparseCamera.Sink.Jitter
import SparseCamera.Sink.Lifecycle
import SparseCamera.Sink.Lookup
import SparseCamera.Sink.Reference
import SparseCamera.Sink.Run
import SparseCamera.Sink.Table
import SparseCamera.Sink.Verdict
import SparseCamera.Smoke.Accepted
import SparseCamera.Smoke.Agreement
import SparseCamera.Smoke.Backends
import SparseCamera.Smoke.Basic
import SparseCamera.Smoke.Buffers
import SparseCamera.Smoke.Build
import SparseCamera.Smoke.Config
import SparseCamera.Smoke.Delivery
import SparseCamera.Smoke.Exit
import SparseCamera.Smoke.Geometry
import SparseCamera.Smoke.Grid
import SparseCamera.Smoke.Invariant
import SparseCamera.Smoke.Main
import SparseCamera.Smoke.Mock
import SparseCamera.Smoke.MockBuild
import SparseCamera.Smoke.Numbers
import SparseCamera.Smoke.Pictures
import SparseCamera.Smoke.Program
import SparseCamera.Smoke.Progress
import SparseCamera.Smoke.Punctual
import SparseCamera.Smoke.Quiet
import SparseCamera.Smoke.Rearranged
import SparseCamera.Smoke.Refinement
import SparseCamera.Smoke.Release
import SparseCamera.Smoke.Schedule
import SparseCamera.Smoke.Sections
import SparseCamera.Smoke.Started
import SparseCamera.Smoke.Stopping
import SparseCamera.Smoke.Termination
import SparseCamera.Smoke.Tolerance
import SparseCamera.Webcam.Acquire
import SparseCamera.Webcam.Basic
import SparseCamera.Webcam.BlockMean
import SparseCamera.Webcam.Brighter
import SparseCamera.Webcam.Rounded
import SparseCamera.Webcam.Sequence
import SparseCamera.Webcam.Signal
import SparseCamera.Webcam.Sparse
import SparseCamera.Webcam.Streaming
import SparseCamera.Webcam.Stride
import SparseCamera.Webcam.Teardown
import SparseCamera.Wire.Format
import SparseCamera.Wire.Frame
import SparseCamera.Wire.FrameRef
import SparseCamera.Wire.RoundTrip
