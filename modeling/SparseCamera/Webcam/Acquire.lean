import SparseCamera.Camera.Basic
import SparseCamera.Webcam.Sparse

/-!
# Frames from the webcam

One acquisition waits for the driver, takes a buffer off its queue, turns the picture in it into
sites and gives the buffer back. The driver stamps and numbers the pictures; its number has 32 bits.

## The construction

What the driver does in one acquisition is an argument: whether `poll` finds a picture, which buffer
it is in, what is in the buffer, and whether the buffer is taken back. An acquisition that gets no
buffer leaves the frame and the context as they were. One that gets a buffer fills the frame, even
if the buffer is not taken back, and the sites are a function of the context and the bytes alone
(`sparseSites`).
-/

namespace SparseCamera

open Memory

/-- What `poll` comes to. -/
inductive PollOutcome where
  | ready
  | timeout
  | failed
deriving DecidableEq

/-- What `VIDIOC_DQBUF` fills in. -/
structure V4l2Buffer where
  index : UInt32
  /-- The seconds of the time stamp. -/
  tvSec : Int64
  tvUsec : Int64
  sequence : UInt32
deriving DecidableEq

/-- What `VIDIOC_DQBUF` comes to. -/
inductive DequeueOutcome where
  | filled (buf : V4l2Buffer)
  /-- `EAGAIN`. -/
  | again
  | failed
deriving DecidableEq

/-- What the driver contributes to one acquisition; `raw` is what it left in the buffer. -/
structure V4l2AcquireEnv where
  poll : PollOutcome
  dqBuf : DequeueOutcome
  raw : Bytes
  /-- The buffer is taken back. -/
  qBuf : Bool
deriving DecidableEq

/-- The time stamp of a buffer in nanoseconds. -/
def V4l2Buffer.tNs (buf : V4l2Buffer) : Int64 := buf.tvSec * 1000000000 + buf.tvUsec * 1000

/-- The frame with the sites, the stamp and the number of a picture. -/
def fillFrame (ctx : V4l2Ctx) (raw : Bytes) (buf : V4l2Buffer) (out : Frame) : Frame :=
  let sparse := yuyvToSparse ctx raw out
  { sparse.2 with count := sparse.1, tNs := buf.tNs, sequence := buf.sequence.toUInt64 }

/-- The context once a frame was filled in. -/
def V4l2Ctx.filled (ctx : V4l2Ctx) : V4l2Ctx :=
  { ctx with
    stampChecked := true
    debugValid := ctx.debugValid || ctx.debugFrame
    frameId := ctx.frameId + 1 }

/-- The time `v4l2_acquire` gives to `poll`, in milliseconds. -/
def V4l2Ctx.timeout (ctx : V4l2Ctx) : Int32 :=
  if ctx.cfg.timeoutMs ≠ 0 then ctx.cfg.timeoutMs.toInt32 else 2000

/-- `v4l2_acquire`. -/
def v4l2Acquire (env : V4l2AcquireEnv) (ctx : V4l2Ctx) (out : Frame) : ℤ × Frame × V4l2Ctx :=
  if ctx.fd < 0 then (-1, out, ctx)
  else
    match env.poll with
    | .timeout => (1, out, ctx)
    | .failed => (-2, out, ctx)
    | .ready =>
      match env.dqBuf with
      | .again => (1, out, ctx)
      | .failed => (-3, out, ctx)
      | .filled buf =>
        if ctx.nBuffers ≤ buf.index then (-4, out, ctx)
        else (if env.qBuf then 0 else -5, fillFrame ctx env.raw buf out, ctx.filled)

/-- The acquisition of `v4l2_camera_interface`. -/
def v4l2CameraInterface : Backend V4l2Ctx V4l2AcquireEnv := ⟨v4l2Acquire, fun _ _ ↦ true⟩

/-! ## What it fills in

The sites are those of the cells above the threshold, as many as the frame has room for. They
overwrite the front of its arrays, and what lies behind them stays. -/

section Acquire

variable {env : V4l2AcquireEnv} {ctx : V4l2Ctx} {out : Frame}

/-- The sites of a picture in a frame with some room. -/
def sparseSites (ctx : V4l2Ctx) (raw : Bytes) (capacity : UInt32) : List (UInt32 × Binary32) :=
  (litCells ctx raw (gridCells (v4l2InfoFromCtx ctx))).take capacity.toNat

private theorem length_sparseSites_le (ctx : V4l2Ctx) (raw : Bytes) (capacity : UInt32) :
    (sparseSites ctx raw capacity).length ≤ capacity.toNat := List.length_take_le _ _

theorem toNat_length_sparseSites (ctx : V4l2Ctx) (raw : Bytes) (capacity : UInt32) :
    (UInt32.ofNat (sparseSites ctx raw capacity).length).toNat
      = (sparseSites ctx raw capacity).length :=
  UInt32.toNat_ofNat_of_lt' ((length_sparseSites_le ctx raw capacity).trans_lt capacity.toNat_lt)

/-- **What `yuyv_to_sparse` writes.** -/
theorem yuyvToSparse_eq (raw : Bytes) (hsized : out.Sized) :
    yuyvToSparse ctx raw out = (.ofNat (sparseSites ctx raw out.capacity).length, { out with
      support := overwrite out.support 0 ((sparseSites ctx raw out.capacity).map Prod.fst)
      signal := overwrite out.signal 0 ((sparseSites ctx raw out.capacity).map fun cell ↦
        Binary32.div cell.2 fullScale) }) := by
  have hfill := @fillCells_eq ctx raw (gridCells (v4l2InfoFromCtx ctx)) 0 out hsized
    UInt32.zero_le
  have hzero : (0 : UInt32).toNat = 0 := rfl
  simp only [hzero, Nat.sub_zero, Nat.zero_add] at hfill
  refine Prod.ext (UInt32.toNat_inj.mp ?_) hfill.2
  rw [toNat_length_sparseSites]
  exact hfill.1

/-- **The frame of an acquisition.** -/
theorem fillFrame_eq (raw : Bytes) (buf : V4l2Buffer) (hsized : out.Sized) :
    fillFrame ctx raw buf out = { out with
      support := overwrite out.support 0 ((sparseSites ctx raw out.capacity).map Prod.fst)
      signal := overwrite out.signal 0 ((sparseSites ctx raw out.capacity).map fun cell ↦
        Binary32.div cell.2 fullScale)
      count := .ofNat (sparseSites ctx raw out.capacity).length
      tNs := buf.tNs
      sequence := buf.sequence.toUInt64 } := by
  rw [fillFrame, yuyvToSparse_eq raw hsized]

theorem sized_fillFrame (raw : Bytes) (buf : V4l2Buffer) (hsized : out.Sized) :
    (fillFrame ctx raw buf out).Sized ∧ (fillFrame ctx raw buf out).capacity = out.capacity ∧
      (fillFrame ctx raw buf out).cameraId = out.cameraId ∧
      (fillFrame ctx raw buf out).count ≤ out.capacity := by
  have hle := length_sparseSites_le ctx raw out.capacity
  rw [fillFrame_eq raw buf hsized]
  refine ⟨⟨?_, ?_⟩, rfl, rfl, ?_⟩
  · rw [length_overwrite (by have := hsized.support; rw [List.length_map]; omega)]
    exact hsized.support
  · rw [length_overwrite (by have := hsized.signal; rw [List.length_map]; omega)]
    exact hsized.signal
  · rw [UInt32.le_iff_toNat_le, toNat_length_sparseSites]
    exact hle

theorem contents_fillFrame (raw : Bytes) (buf : V4l2Buffer) (hsized : out.Sized) :
    (fillFrame ctx raw buf out).contents =
      { cameraId := out.cameraId
        tNs := buf.tNs
        sequence := buf.sequence.toUInt64
        support := (sparseSites ctx raw out.capacity).map Prod.fst
        signal := (sparseSites ctx raw out.capacity).map fun cell ↦
          Binary32.div cell.2 fullScale } := by
  have hsupport := take_overwrite_zero out.support
    ((sparseSites ctx raw out.capacity).map Prod.fst)
  have hsignal := take_overwrite_zero out.signal
    ((sparseSites ctx raw out.capacity).map fun cell ↦ Binary32.div cell.2 fullScale)
  rw [List.length_map] at hsupport hsignal
  rw [fillFrame_eq raw buf hsized, Frame.contents]
  simp only [toNat_length_sparseSites, hsupport, hsignal]

/-- An acquisition gives up before it touches anything, or takes a buffer off the queue and puts its
sites into the frame. -/
theorem v4l2Acquire_cases :
    (∃ rc, rc ≠ 0 ∧ v4l2Acquire env ctx out = (rc, out, ctx)) ∨
    ∃ buf, env.poll = .ready ∧ env.dqBuf = .filled buf ∧ buf.index < ctx.nBuffers ∧ 0 ≤ ctx.fd ∧
      v4l2Acquire env ctx out
        = (if env.qBuf then 0 else -5, fillFrame ctx env.raw buf out, ctx.filled) := by
  by_cases hfd : ctx.fd < 0
  · exact Or.inl ⟨-1, by decide, if_pos hfd⟩
  have hopen : v4l2Acquire env ctx out = _ := if_neg hfd
  rw [hopen]
  cases env.poll with
  | timeout => exact Or.inl ⟨1, by decide, rfl⟩
  | failed => exact Or.inl ⟨-2, by decide, rfl⟩
  | ready =>
    cases env.dqBuf with
    | again => exact Or.inl ⟨1, by decide, rfl⟩
    | failed => exact Or.inl ⟨-3, by decide, rfl⟩
    | filled buf =>
      by_cases hindex : ctx.nBuffers ≤ buf.index
      · exact Or.inl ⟨-4, by decide, if_pos hindex⟩
      · exact Or.inr ⟨buf, rfl, rfl, UInt32.not_le.mp hindex, not_lt.mp hfd, if_neg hindex⟩

theorem fills_v4l2CameraInterface : v4l2CameraInterface.Fills where
  frame := by
    intro env ctx out hsized
    change (v4l2Acquire env ctx out).2.1.Sized ∧
      (v4l2Acquire env ctx out).2.1.capacity = out.capacity ∧
      (v4l2Acquire env ctx out).2.1.cameraId = out.cameraId
    rcases @v4l2Acquire_cases env ctx out with ⟨rc, -, heq⟩ | ⟨buf, -, -, -, -, heq⟩
    · rw [heq]
      exact ⟨hsized, rfl, rfl⟩
    · obtain ⟨hsized', hcap, hid, -⟩ := @sized_fillFrame ctx out env.raw buf hsized
      rw [heq]
      exact ⟨hsized', hcap, hid⟩

theorem v4l2Acquire_zero {frame : Frame} {ctx' : V4l2Ctx}
    (h : v4l2Acquire env ctx out = (0, frame, ctx')) :
    ∃ buf, env.dqBuf = .filled buf ∧ frame = fillFrame ctx env.raw buf out ∧
      ctx' = ctx.filled := by
  rcases @v4l2Acquire_cases env ctx out with ⟨rc, hrc, heq⟩ | ⟨buf, -, hdequeue, -, -, heq⟩
  · exact absurd (congrArg Prod.fst (heq.symm.trans h)) hrc
  · have hrest := congrArg Prod.snd (heq.symm.trans h)
    exact ⟨buf, hdequeue, (congrArg Prod.fst hrest).symm, (congrArg Prod.snd hrest).symm⟩

end Acquire

end SparseCamera
