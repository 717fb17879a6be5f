import SparseCamera.Lib.ExtRat
import SparseCamera.Wire.Format

/-!
# The fan-in sink

Every camera sends to one sink. The sink decodes each message into a buffer it reuses, checks the
frame against what the same camera sent before, and counts what it finds. Nothing is rejected: the
verdict is read off the counters at the end.

What the checks read and write is the `Ledger`: the bounds, the counters, one record per camera in
a table of sixteen slots and the table of configured cameras. The `Sink` is the ledger with its
decode buffer. Printing, and the `verbose` flag that only chooses what is printed, are left out.

## The construction

A check looks at one frame and one record. What it counts (`judge`) and what it makes of the record
(`advance`) are two functions, although the source does both in one pass: the counters are written
and never read by a check. `sink_validate` then finds the slot and applies both.
-/

namespace SparseCamera

/-- `SINK_MAX_CAMERAS`. -/
def sinkMaxCameras : ℕ := 16

/-- `sink_check_t`: the bounds of a camera without a spec. -/
structure SinkCheck where
  expectPeriodMs : ExtRat
  tol : ExtRat
  maxSites : UInt32
deriving DecidableEq

/-- `sink_cam_spec_t`. -/
structure SinkCamSpec where
  cameraId : UInt32
  maxSites : UInt32
  expectPeriodMs : ExtRat
deriving DecidableEq

/-- `sink_stats_t`. -/
structure SinkStats where
  received : UInt64
  badParse : UInt64
  backwards : UInt64
  jitter : UInt64
  seqGaps : UInt64
  seqLost : UInt64
  badIndex : UInt64
  badValue : UInt64
  camerasSeen : UInt32
  unexpectedCams : UInt32
deriving DecidableEq

def SinkStats.zero : SinkStats := ⟨0, 0, 0, 0, 0, 0, 0, 0, 0, 0⟩

/-- `cam_state_t`. -/
structure CamState where
  seen : Bool
  specKnown : Bool
  cameraId : UInt32
  maxSites : UInt32
  expectPeriodMs : ExtRat
  frames : UInt64
  lastTNs : Int64
  lastSeq : UInt64
  dtMinMs : ExtRat
  dtMaxMs : ExtRat
  dtSumMs : ExtRat
  dtN : UInt64
deriving DecidableEq

/-- A slot as `calloc` leaves it. -/
def CamState.blank : CamState where
  seen := false
  specKnown := false
  cameraId := 0
  maxSites := 0
  expectPeriodMs := .fin 0
  frames := 0
  lastTNs := 0
  lastSeq := 0
  dtMinMs := .fin 0
  dtMaxMs := .fin 0
  dtSumMs := .fin 0
  dtN := 0

/-- `struct sink` without its sockets and its decode buffer. `specs` holds the first `n_specs`
entries of the array. -/
structure Ledger where
  check : SinkCheck
  stats : SinkStats
  cams : List CamState
  specs : List SinkCamSpec
deriving DecidableEq

/-- `struct sink` without its sockets. -/
structure Sink extends Ledger where
  decoded : Frame
deriving DecidableEq

/-! ## The camera table

`cam_find` searches twice, for the camera and for a free slot. A slot that is taken gets the bounds
of the camera's spec, or the sink's own if there is none. -/

/-- What `cam_find` writes into the free slot it takes for a new camera. -/
def openCam (check : SinkCheck) (specs : List SinkCamSpec) (cam : CamState) (id : UInt32) :
    CamState :=
  let cam := { cam with
    seen := true
    cameraId := id
    dtMinMs := .fin (10 ^ 18)
    dtMaxMs := .fin (-10 ^ 18)
    maxSites := check.maxSites
    expectPeriodMs := check.expectPeriodMs }
  match specs.find? fun spec ↦ spec.cameraId == id with
  | some spec => { cam with
      maxSites := spec.maxSites
      expectPeriodMs := spec.expectPeriodMs
      specKnown := true }
  | none => cam

/-- `cam_find`: the slot of a camera and the ledger with that slot taken, or `none` if the camera
is new and every slot is taken. -/
def camFind (sink : Ledger) (id : UInt32) : Option (ℕ × Ledger) :=
  match sink.cams.findIdx? fun cam ↦ cam.seen && cam.cameraId == id with
  | some i => some (i, sink)
  | none =>
    match sink.cams.findIdx? fun cam ↦ !cam.seen with
    | some i =>
      let cam := openCam sink.check sink.specs (sink.cams.getD i .blank) id
      let stats :=
        if sink.specs ≠ [] ∧ cam.specKnown = false then
          { sink.stats with unexpectedCams := sink.stats.unexpectedCams + 1 }
        else sink.stats
      some (i, { sink with
        cams := sink.cams.set i cam
        stats := { stats with camerasSeen := stats.camerasSeen + 1 } })
    | none => none

/-! ## The checks -/

/-- The time from one stamp to the next in milliseconds. The subtraction is in `int64_t`; where it
overflows, which C leaves undefined, it wraps. -/
def deltaMs (tNs lastTNs : Int64) : ExtRat := .fin (tNs - lastTNs).toInt / .fin (10 ^ 6)

/-- The counters after the stamp check of a camera that has sent before. -/
def checkStamp (check : SinkCheck) (cam : CamState) (f : Contents) (stats : SinkStats) :
    SinkStats :=
  let dtMs := deltaMs f.tNs cam.lastTNs
  if f.tNs ≤ cam.lastTNs then { stats with backwards := stats.backwards + 1 }
  else if ExtRat.lt (.fin 0) cam.expectPeriodMs then
    let p := cam.expectPeriodMs
    let tol := check.tol
    if dtMs.lt (p * (.fin 1 - tol)) || (p * (.fin 1 + tol)).lt dtMs then
      { stats with jitter := stats.jitter + 1 }
    else stats
  else stats

/-- The counters after the sequence check of a camera that has sent before. -/
def checkSequence (cam : CamState) (f : Contents) (stats : SinkStats) : SinkStats :=
  if f.sequence ≠ cam.lastSeq + 1 then
    let lost := if cam.lastSeq < f.sequence then f.sequence - cam.lastSeq - 1 else 0
    { stats with seqGaps := stats.seqGaps + 1, seqLost := stats.seqLost + lost }
  else stats

/-- The delta statistics of a camera that has sent before. -/
def recordDelta (cam : CamState) (tNs : Int64) : CamState :=
  let dtMs := deltaMs tNs cam.lastTNs
  if ExtRat.lt (.fin 0) dtMs then { cam with
    dtMinMs := if dtMs.lt cam.dtMinMs then dtMs else cam.dtMinMs
    dtMaxMs := if cam.dtMaxMs.lt dtMs then dtMs else cam.dtMaxMs
    dtSumMs := cam.dtSumMs + dtMs
    dtN := cam.dtN + 1 }
  else cam

/-- A support index the bound does not allow; the bound 0 allows every index. -/
def indexBad (maxSites : UInt32) (s : UInt32) : Bool := maxSites ≠ 0 && maxSites ≤ s

/-- A signal value that is not finite or not in `[0, 1]`. -/
def valueBad (v : Binary32) : Bool := !v.isFinite || v.toRat < 0 || 1 < v.toRat

/-- The counters after the loop over the live entries. -/
def checkEntries (cam : CamState) (f : Contents) (stats : SinkStats) : SinkStats :=
  let idxBad := f.support.any (indexBad cam.maxSites)
  let valBad := f.signal.any valueBad
  let stats := if idxBad then { stats with badIndex := stats.badIndex + 1 } else stats
  if valBad then { stats with badValue := stats.badValue + 1 } else stats

/-- The counters after a frame was judged against its camera's record. -/
def judge (check : SinkCheck) (cam : CamState) (f : Contents) (stats : SinkStats) : SinkStats :=
  let stats :=
    if 0 < cam.frames then checkSequence cam f (checkStamp check cam f stats) else stats
  checkEntries cam f stats

/-- The record of a camera after one of its frames. -/
def advance (cam : CamState) (f : Contents) : CamState :=
  let cam := if 0 < cam.frames then recordDelta cam f.tNs else cam
  { cam with frames := cam.frames + 1, lastTNs := f.tNs, lastSeq := f.sequence }

/-- `sink_validate`, which reads only the live part of a frame. -/
def validate (sink : Ledger) (f : Contents) : Ledger :=
  match camFind sink f.cameraId with
  | none => sink
  | some (i, sink) =>
    let cam := sink.cams.getD i .blank
    { sink with
      stats := judge sink.check cam f sink.stats
      cams := sink.cams.set i (advance cam f) }

/-! ## The interface

What a message does to the ledger is `observe`, once it is known what was decoded from it.
Decoding may ask the allocator for room, so its answer is an argument of `sinkRecv`. -/

/-- `sink_new`, with its allocations and sockets granted. -/
def sinkNew (check : Option SinkCheck) : Option Sink :=
  let check := check.getD ⟨.fin 0, .fin 0, 0⟩
  let check := if check.tol.le (.fin 0) then { check with tol := .fin (1 / 2) } else check
  match newFrames (if check.maxSites ≠ 0 then check.maxSites.toUInt64 else 4096) with
  | none => none
  | some decoded => some
      { check := check
        stats := .zero
        cams := List.replicate sinkMaxCameras .blank
        specs := []
        decoded := decoded }

/-- The widest frame a table allows. -/
def largestSpec (specs : List SinkCamSpec) : UInt32 :=
  specs.foldl (fun largest spec ↦ if largest < spec.maxSites then spec.maxSites else largest) 0

/-- `sink_expect`; `granted` says whether the allocator can serve it. The table is replaced before
the buffer is grown. -/
def sinkExpect (granted : Bool) (sink : Sink) (specs : List SinkCamSpec) : ℤ × Sink :=
  if sinkMaxCameras < specs.length then (-1, sink)
  else
    let largest := largestSpec specs
    let sink := { sink with specs := specs }
    if largest ≠ 0 then
      let (rc, decoded) := frameReserve granted sink.decoded largest.toUInt64
      let sink := { sink with decoded := decoded }
      if rc ≠ 0 then (-1, sink) else (0, sink)
    else (0, sink)

/-- What `zmq_poll` and `zmq_msg_recv` can hand to one `sink_recv`. -/
inductive SocketEvent where
  /-- Nothing came within the timeout, or the wait or the receive was interrupted. -/
  | nothing
  | pollFailed
  | recvFailed
  | message (msg : Bytes)
deriving DecidableEq

/-- The decoding in `sink_recv`: a frame too wide for the buffer is tried again after growing it. -/
def sinkDecode (granted : Bool) (msg : Bytes) (decoded : Frame) : FrameWireStatus × Frame :=
  let (status, decoded) := frameWireUnpack msg decoded
  if status = .errCapacity then
    let (rc, decoded) := frameReserve granted decoded decoded.count.toUInt64
    if rc = 0 then frameWireUnpack msg decoded else (status, decoded)
  else (status, decoded)

/-- Every message counts as received, before it is known whether it decoded. -/
def countReceived (sink : Ledger) : Ledger :=
  { sink with stats := { sink.stats with received := sink.stats.received + 1 } }

/-- What one message does to the ledger, given the frame that was decoded from it. -/
def observe (sink : Ledger) (outcome : Option Contents) : Ledger :=
  let sink := countReceived sink
  match outcome with
  | none => { sink with stats := { sink.stats with badParse := sink.stats.badParse + 1 } }
  | some f => validate sink f

/-- `sink_recv`: its return code and the sink afterwards. -/
def sinkRecv (granted : Bool) (sink : Sink) : SocketEvent → ℤ × Sink
  | .nothing => (1, sink)
  | .pollFailed => (-2, sink)
  | .recvFailed => (-3, sink)
  | .message msg =>
    let (status, decoded) := sinkDecode granted msg sink.decoded
    let outcome := if status = .ok then some decoded.contents else none
    (0, { toLedger := observe sink.toLedger outcome, decoded := decoded })

/-- `sink_report`: 0 if nothing failed. Jitter is counted but does not fail a run. -/
def sinkReport (sink : Ledger) : ℤ :=
  let s := sink.stats
  let failed := s.received = 0 ∨ s.badParse ≠ 0 ∨ s.backwards ≠ 0 ∨ s.seqGaps ≠ 0 ∨
    s.badIndex ≠ 0 ∨ s.badValue ≠ 0 ∨ s.unexpectedCams ≠ 0
  if failed then 1 else 0

end SparseCamera
