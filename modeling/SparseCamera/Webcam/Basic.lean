import SparseCamera.Lib.CString
import SparseCamera.Lib.Resources
import SparseCamera.Wire.Frame
import SparseCamera.Wire.Format

/-!
# The webcam

A V4L2 device is brought up in a dozen calls of which any can fail, and torn down by one function
that reads off the context how far the bring-up came. What the kernel holds for the program, the
descriptor and the mappings, is not in the context, so here every call that changes it leaves an
entry in a log.

An address is a number and 0 is the null pointer. Printing is left out.

## The construction

Every call that can fail has an answer in `BringUpEnv`, and the functions of the source are followed
call by call. A failed step leaves the context in the state it had reached, which is what the
teardown will find. The log has successful acquisitions and attempted releases: giving back what is
not there is an entry, too.
-/

namespace SparseCamera

open Resources

/-- `v4l2_config_t`. -/
structure V4l2Config where
  device : Bytes
  width : UInt32
  height : UInt32
  /-- 0 = no downsample. -/
  gridRows : UInt32
  gridCols : UInt32
  nBuffers : UInt32
  /-- 0 defaults to 2000. -/
  timeoutMs : UInt32
  threshold : UInt8
deriving DecidableEq

/-- `mmap_buf_t`. -/
structure MmapBuf where
  start : UInt64
  length : UInt64
deriving DecidableEq

/-- An entry as `calloc` leaves it. -/
def MmapBuf.null : MmapBuf := ⟨0, 0⟩

/-- `MAP_FAILED`, which is `(void*)-1`. -/
def mapFailed : UInt64 := 0xffffffffffffffff

/-- `struct v4l2_ctx`. Of the debug frame only its presence is kept, nothing reads it. -/
structure V4l2Ctx where
  cfg : V4l2Config
  /-- -1 if the device is not open. -/
  fd : ℤ
  buffers : Option (List MmapBuf)
  nBuffers : UInt32
  width : UInt32
  height : UInt32
  pixelformat : UInt32
  frameId : UInt64
  debugFrame : Bool
  streaming : Bool
  stampChecked : Bool
  debugValid : Bool
deriving DecidableEq

/-- `v4l2_ctx_create`, with its allocation granted. -/
def v4l2CtxCreate (cfg : V4l2Config) : V4l2Ctx where
  cfg := cfg
  fd := -1
  buffers := none
  nBuffers := 0
  width := 0
  height := 0
  pixelformat := 0
  frameId := 0
  debugFrame := false
  streaming := false
  stampChecked := false
  debugValid := false

/-! ## What the driver answers

An address that `mmap` returns is neither null nor `MAP_FAILED`. This is part of its type, and the
failure is a missing address. -/

/-- What `VIDIOC_S_FMT` fills in. -/
structure V4l2PixFormat where
  width : UInt32
  height : UInt32
  pixelformat : UInt32
deriving DecidableEq

/-- An address at which `mmap` can place a mapping when it is free to choose. -/
def Mapping : Type := {start : UInt64 // start ≠ 0 ∧ start ≠ mapFailed}

/-- What the calls for one buffer come to; `queryBuf` is the length the driver gives. -/
structure MapEnv where
  queryBuf : Option UInt32
  mmap : Option Mapping
  qBuf : Bool

/-- What the calls of `v4l2_init` come to, `none` and `false` being failure. -/
structure BringUpEnv where
  /-- `open`. -/
  fd : Option ℕ
  /-- `VIDIOC_QUERYCAP`. -/
  capabilities : Option UInt32
  /-- `VIDIOC_S_FMT`. -/
  format : Option V4l2PixFormat
  /-- `VIDIOC_REQBUFS`: the number of buffers granted. -/
  granted : Option UInt32
  calloc : Bool
  map : ℕ → MapEnv
  /-- `VIDIOC_STREAMON`. -/
  streamOn : Bool
  malloc : Bool

/-- A successful call that changes what the kernel holds for the program, or an attempt to give
something back. -/
inductive V4l2Call where
  | opened (fd : ℤ)
  | mapped (buf : MmapBuf)
  | streamOn (fd : ℤ)
  | streamOff (fd : ℤ)
  | munmap (buf : MmapBuf)
  | close (fd : ℤ)
deriving DecidableEq

/-! ## Bring-up -/

/-- `V4L2_CAP_VIDEO_CAPTURE`. -/
def v4l2CapVideoCapture : UInt32 := 0x00000001

/-- `V4L2_CAP_STREAMING`. -/
def v4l2CapStreaming : UInt32 := 0x04000000

/-- `V4L2_PIX_FMT_YUYV`. -/
def v4l2PixFmtYuyv : UInt32 := 0x56595559

/-- `v4l2_check_capabilities`. -/
def v4l2CheckCapabilities : Option UInt32 → ℤ
  | none => 1
  | some capabilities =>
    if capabilities &&& v4l2CapVideoCapture = 0 ∨ capabilities &&& v4l2CapStreaming = 0 then 2
    else 0

/-- `v4l2_set_fmt`. A size other than the one asked for is taken as it is. -/
def v4l2SetFmt (format : Option V4l2PixFormat) (ctx : V4l2Ctx) : ℤ × V4l2Ctx :=
  match format with
  | none => (1, ctx)
  | some pix =>
    if pix.pixelformat ≠ v4l2PixFmtYuyv then (2, ctx)
    else (0, { ctx with
      width := pix.width
      height := pix.height
      pixelformat := pix.pixelformat })

/-- `v4l2_req_buffers`. -/
def v4l2ReqBuffers (granted : Option UInt32) (calloc : Bool) (ctx : V4l2Ctx) : ℤ × V4l2Ctx :=
  match granted with
  | none => (1, ctx)
  | some count =>
    if count < 2 then (2, ctx)
    else if calloc then
      (0, { ctx with
        buffers := some (List.replicate count.toNat .null)
        nBuffers := count })
    else (3, { ctx with buffers := none })

/-- Write one entry of `ctx->buffers`. -/
def V4l2Ctx.setBuffer (ctx : V4l2Ctx) (i : ℕ) (buf : MmapBuf) : V4l2Ctx :=
  { ctx with buffers := ctx.buffers.map fun buffers ↦ buffers.set i buf }

/-- The loop of `v4l2_map_buffers` from buffer `i` on, with `k` of them left. -/
def mapBuffersFrom (env : ℕ → MapEnv) (ctx : V4l2Ctx) (i : ℕ) :
    ℕ → ℤ × V4l2Ctx × List V4l2Call
  | 0 => (0, ctx, [])
  | k + 1 =>
    match (env i).queryBuf with
    | none => (1, ctx, [])
    | some length =>
      match (env i).mmap with
      | none => (2, ctx.setBuffer i ⟨mapFailed, length.toUInt64⟩, [])
      | some mapping =>
        let buf := ⟨mapping.1, length.toUInt64⟩
        if (env i).qBuf then
          let (rc, ctx, calls) := mapBuffersFrom env (ctx.setBuffer i buf) (i + 1) k
          (rc, ctx, .mapped buf :: calls)
        else (3, ctx.setBuffer i buf, [.mapped buf])

/-- `v4l2_map_buffers`. -/
def v4l2MapBuffers (env : ℕ → MapEnv) (ctx : V4l2Ctx) : ℤ × V4l2Ctx × List V4l2Call :=
  mapBuffersFrom env ctx 0 ctx.nBuffers.toNat

/-- `v4l2_validate_streamon`. -/
def v4l2ValidateStreamon (streamOn : Bool) (ctx : V4l2Ctx) : ℤ × List V4l2Call :=
  if streamOn then (0, [.streamOn ctx.fd]) else (1, [])

/-- `v4l2_init`. -/
def v4l2Init (env : BringUpEnv) (ctx : V4l2Ctx) : ℤ × V4l2Ctx × List V4l2Call :=
  match env.fd with
  | none => (-1, { ctx with fd := -1 }, [])
  | some fd =>
    let ctx := { ctx with fd := fd }
    if v4l2CheckCapabilities env.capabilities ≠ 0 then (-1, ctx, [.opened fd])
    else
      let (rc, ctx) := v4l2SetFmt env.format ctx
      if rc ≠ 0 then (-1, ctx, [.opened fd])
      else
        let (rc, ctx) := v4l2ReqBuffers env.granted env.calloc ctx
        if rc ≠ 0 then (-1, ctx, [.opened fd])
        else
          let (rc, ctx, mapped) := v4l2MapBuffers env.map ctx
          if rc ≠ 0 then (-1, ctx, .opened fd :: mapped)
          else
            let (rc, started) := v4l2ValidateStreamon env.streamOn ctx
            if rc ≠ 0 then (-1, ctx, .opened fd :: mapped ++ started)
            else
              let ctx := { ctx with debugFrame := env.malloc }
              (if env.malloc then 0 else -1, ctx, .opened fd :: mapped ++ started)

/-! ## Teardown -/

/-- The loop of `v4l2_release` over the buffers. -/
def unmapBuffers (buffers : List MmapBuf) : List V4l2Call :=
  (buffers.filter fun buf ↦ buf.start ≠ 0).map .munmap

/-- `v4l2_release`. -/
def v4l2Release (ctx : V4l2Ctx) : V4l2Ctx × List V4l2Call :=
  let stopped := if ctx.streaming then [.streamOff ctx.fd] else []
  let unmapped := ctx.buffers.elim [] fun buffers ↦ unmapBuffers (buffers.take ctx.nBuffers.toNat)
  let closed := if 0 ≤ ctx.fd then [.close ctx.fd] else []
  ({ ctx with
      streaming := false
      buffers := none
      fd := -1
      debugFrame := false
      debugValid := false
      nBuffers := 0 },
    stopped ++ unmapped ++ closed)

/-- `v4l2_deinit`. -/
def v4l2Deinit (ctx : V4l2Ctx) : V4l2Ctx × List V4l2Call := v4l2Release ctx

/-- `v4l2_ctx_destroy`; the context is gone afterwards. -/
def v4l2CtxDestroy (ctx : V4l2Ctx) : List V4l2Call := (v4l2Release ctx).2

/-! ## How far the bring-up came

These predicates are read off the answers of the driver, and not off what the program made of them.
Claims about bring-ups have their conditions in these terms. -/

/-- The descriptor is open, the format is set and the table of buffers is there. -/
def BringUpEnv.Prepared (env : BringUpEnv) (count : UInt32) : Prop :=
  env.fd.isSome = true ∧ v4l2CheckCapabilities env.capabilities = 0 ∧
    (∃ pix, env.format = some pix ∧ pix.pixelformat = v4l2PixFmtYuyv) ∧
    env.granted = some count ∧ 2 ≤ count ∧ env.calloc = true

/-- The buffer is mapped and queued. -/
def MapEnv.done (env : MapEnv) : Bool := env.queryBuf.isSome && env.mmap.isSome && env.qBuf

/-- The loop over `n` buffers ends because a buffer could not be mapped. -/
def MmapFails (env : ℕ → MapEnv) (n : ℕ) : Prop :=
  ∃ i < n, (∀ j < i, (env j).done = true) ∧ (env i).queryBuf.isSome = true ∧ (env i).mmap = none

/-- The bring-up ends because a buffer could not be mapped. -/
def BringUpEnv.MmapFails (env : BringUpEnv) : Prop :=
  ∃ count, env.Prepared count ∧ SparseCamera.MmapFails env.map count.toNat

/-- The bring-up gets as far as a stream that was started. -/
def BringUpEnv.StartsStreaming (env : BringUpEnv) : Prop :=
  ∃ count, env.Prepared count ∧ (∀ i < count.toNat, (env.map i).done = true) ∧ env.streamOn = true

/-- A context with nothing to give back. -/
structure V4l2Ctx.Closed (ctx : V4l2Ctx) : Prop where
  fd : ctx.fd = -1
  buffers : ctx.buffers = none
  nBuffers : ctx.nBuffers = 0
  debugFrame : ctx.debugFrame = false
  streaming : ctx.streaming = false

theorem closed_v4l2CtxCreate (cfg : V4l2Config) : (v4l2CtxCreate cfg).Closed :=
  ⟨rfl, rfl, rfl, rfl, rfl⟩

/-- Whatever it is given, `v4l2_release` leaves nothing in the context. -/
theorem closed_v4l2Release (ctx : V4l2Ctx) : (v4l2Release ctx).1.Closed := ⟨rfl, rfl, rfl, rfl, rfl⟩

theorem V4l2Ctx.Closed.release {ctx : V4l2Ctx} (h : ctx.Closed) : (v4l2Release ctx).2 = [] := by
  simp [v4l2Release, h.fd, h.buffers, h.streaming]

end SparseCamera
