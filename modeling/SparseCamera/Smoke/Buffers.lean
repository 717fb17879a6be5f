import SparseCamera.Smoke.Pictures

/-!
# The buffers of a webcam

A driver fills the buffers it has been given. `v4l2_acquire` takes one from it and gives it back,
but it does not when the driver names a buffer that does not exist or refuses to take one. Each of
these ends the thread of the camera. So as long as a camera is working its driver has every buffer,
and what the program ends up with is at most one.

## The invariant

`CamThread.Lends` follows one webcam through the steps of its thread. As long as the thread goes on,
its last tick did not fail and the program holds no buffer. An acquisition that takes a buffer and
does not return it fails with one of two codes, so from the code a thread ends with one can tell how
many buffers it kept: one or none.
-/

namespace SparseCamera

open Execution

/-- A successful call that passes a buffer on. -/
inductive BufferCall where
  /-- `VIDIOC_DQBUF`. -/
  | dequeued (index : UInt32)
  /-- `VIDIOC_QBUF`. -/
  | queued (index : UInt32)
deriving DecidableEq

/-- The calls of `v4l2_acquire` that pass a buffer on. -/
def v4l2AcquireCalls (env : V4l2AcquireEnv) (ctx : V4l2Ctx) : List BufferCall :=
  if ctx.fd < 0 then []
  else
    match env.poll with
    | .timeout => []
    | .failed => []
    | .ready =>
      match env.dqBuf with
      | .again => []
      | .failed => []
      | .filled buf =>
        .dequeued buf.index ::
          if ctx.nBuffers ≤ buf.index then []
          else if env.qBuf then [.queued buf.index] else []

/-- What the program holds after a call. -/
def heldAfter (held : Finset UInt32) : BufferCall → Finset UInt32
  | .dequeued index => insert index held
  | .queued index => held.erase index

/-- The buffers that the program holds after some ticks of a webcam. -/
def V4l2Ctx.held (ctx : V4l2Ctx) (envs : List (TickEnv AnyEnv)) : Finset UInt32 :=
  (envs.flatMap fun env ↦ v4l2AcquireCalls (env.acquire .v4l2) ctx).foldl heldAfter ∅

/-- What the thread ends with, also when that is not stored yet. -/
def CamThread.code (ct : CamThread) : ℤ :=
  match ct.phase with
  | .fail rc => rc
  | _ => ct.rc

/-- The code is that of an acquisition that has taken a buffer and not given it back. -/
def KeepsBuffer (code : ℤ) : Prop := code = -4 ∨ code = -5

instance (code : ℤ) : Decidable (KeepsBuffer code) := instDecidableOr

/-! ## One acquisition

An acquisition makes at most two calls that pass a buffer on. The first takes one, the second
returns it, and if the second is missing the return code says so. -/

section Acquire

variable {env : V4l2AcquireEnv} {ctx ctx' : V4l2Ctx} {out : Frame}

theorem V4l2Ctx.Alike.calls (h : ctx.Alike ctx') (env : V4l2AcquireEnv) :
    v4l2AcquireCalls env ctx' = v4l2AcquireCalls env ctx := by
  rw [v4l2AcquireCalls, v4l2AcquireCalls, h.fd, h.nBuffers]

theorem V4l2Ctx.Alike.acquire (h : ctx.Alike ctx') (env : V4l2AcquireEnv) (out : Frame) :
    ctx.Alike (v4l2Acquire env ctx' out).2.2 := by
  rcases @v4l2Acquire_cases env ctx' out with ⟨rc, -, heq⟩ | ⟨buf, -, -, -, -, heq⟩
  · rw [heq]
    exact h
  · rw [heq]
    exact ⟨h.cfg, h.fd, h.nBuffers, h.width, h.height⟩

end Acquire

/-! ## One tick

A tick can fail for reasons of its own. These have other codes than the two of the backend. -/

section Tick

variable {ι ε : Type}

end Tick

/-! ## The bring-up

A bring-up that succeeds has queued every buffer it mapped. So the driver has all of them when the
first acquisition comes. -/

section BringUp

variable {env : BringUpEnv} {ctx ctx₀ : V4l2Ctx}

end BringUp

section Thread

variable {start : Started} {h : start.Good} {i : Fin start.built.specs.length} {ctx : V4l2Ctx}
  {steps : List (SmokeStep start.built.specs.length AnyEnv)}
  {s s' : Smoke start.built.specs.length AnyImpl}

end Thread

/-! ## The thread of a webcam -/

/-- The thread has not failed yet, and the program holds one buffer if its code says so. -/
structure CamThread.Lends (ctx : V4l2Ctx) (envs : List (TickEnv AnyEnv)) (ct : CamThread) :
    Prop where
  working : ct.phase ≠ .done → ct.rc = 0
  held : if KeepsBuffer ct.code then ∃ index, ctx.held envs = {index} else ctx.held envs = ∅

section Lends

variable {ctx : V4l2Ctx} {envs : List (TickEnv AnyEnv)} {ct ct' : CamThread}

theorem CamThread.Lends.congr (hlends : ct.Lends ctx envs)
    (hworking : ct'.phase ≠ .done → ct'.rc = 0) (hcode : ct'.code = ct.code) :
    ct'.Lends ctx envs where
  working := hworking
  held := hcode ▸ hlends.held

end Lends

section Run

variable {start : Started} {h : start.Good} {i : Fin start.built.specs.length} {ctx : V4l2Ctx}
  {steps : List (SmokeStep start.built.specs.length AnyEnv)}
  {s s' : Smoke start.built.specs.length AnyImpl}

end Run

end SparseCamera
