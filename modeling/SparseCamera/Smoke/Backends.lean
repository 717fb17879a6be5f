import SparseCamera.Smoke.Agreement

/-!
# Cameras of several kinds

A configuration may ask for mock cameras and webcams in one test. `camera_tick` reaches each of them
through its table of function pointers, so all of them are cameras of one backend: the one that
looks up which backend a context belongs to and calls that. Nothing is gained or lost on the way, a
tick through the table is a tick of the backend it finds.

## The construction

A context with its backend is a dependent pair, and `anyBackend` looks at the first component. So a
camera of one backend can be put among cameras of all (`CameraCtx.toAny`), and a tick there is the
tick it would have made by itself. A program that knows cameras of all kinds only is then the same
program as one that knows a single kind, for that kind.
-/

namespace SparseCamera

/-- A context together with the backend it belongs to. -/
def AnyImpl : Type := (b : BackendKind) × b.Impl

/-- What the outside world contributes to one `acquire`, whichever backend is asked. -/
def AnyEnv : Type := (b : BackendKind) → b.AcquireEnv

/-- The `interface->acquire` of a context. -/
def anyBackend : Backend AnyImpl AnyEnv where
  acquire env impl out :=
    let (rc, out, impl') := impl.1.interface.acquire (env impl.1) impl.2 out
    (rc, out, ⟨impl.1, impl'⟩)
  allowed env impl := impl.1.interface.allowed (env impl.1) impl.2

/-- A camera of one backend among cameras of all. -/
def CameraCtx.toAny {b : BackendKind} (camera : CameraCtx b.Impl) : CameraCtx AnyImpl where
  frame := camera.frame
  scratch := camera.scratch
  scratchCap := camera.scratchCap
  cameraId := camera.cameraId
  sent := camera.sent
  dropped := camera.dropped
  implCtx := ⟨b, camera.implCtx⟩

/-- What one backend gets of it. -/
def TickEnv.only (env : TickEnv AnyEnv) (b : BackendKind) : TickEnv b.AcquireEnv where
  acquire := env.acquire b
  stamp := env.stamp
  send := env.send

theorem fills_anyBackend : anyBackend.Fills where
  frame {env impl _} hsized := (fills_interface impl.1).frame (e := env impl.1) hsized

section Any

variable {b : BackendKind} {camera : CameraCtx b.Impl}

/-- **A tick through the table** is a tick of the backend it finds. -/
theorem cameraTick_toAny (env : TickEnv AnyEnv) (camera : CameraCtx b.Impl) :
    cameraTick anyBackend env camera.toAny
      = ((cameraTick b.interface.toBackend (env.only b) camera).1,
          (cameraTick b.interface.toBackend (env.only b) camera).2.1.toAny,
          (cameraTick b.interface.toBackend (env.only b) camera).2.2) := by
  cases hacquire : b.interface.acquire (env.acquire b) camera.implCtx
    { frameReset camera.frame with cameraId := camera.cameraId } with
  | mk rc rest =>
  obtain ⟨frame, impl⟩ := rest
  have hany : anyBackend.acquire env.acquire camera.toAny.implCtx
      { frameReset camera.toAny.frame with cameraId := camera.toAny.cameraId }
      = (rc, frame, ⟨b, impl⟩) := by
    change (_, _, (⟨b, _⟩ : AnyImpl)) = _
    simp only [CameraCtx.toAny, hacquire]
    rfl
  have honly : b.interface.toBackend.acquire (env.only b).acquire camera.implCtx
      { frameReset camera.frame with cameraId := camera.cameraId } = (rc, frame, impl) := hacquire
  simp only [cameraTick, hany, honly]
  by_cases hrc : rc ≠ 0
  · rw [if_pos hrc, if_pos hrc]
    rfl
  · rw [if_neg hrc, if_neg hrc]
    generalize hstamp : (if frame.tNs = 0 then timestampFrame env.stamp frame else frame) = g
    have hpack : (if frame.tNs = 0 then timestampFrame (env.only b).stamp frame else frame) = g :=
      hstamp
    rw [hpack]
    have hany : frameWirePack g camera.toAny.scratch camera.toAny.scratchCap
        = frameWirePack g camera.scratch camera.scratchCap := rfl
    rw [hany]
    by_cases hn : (frameWirePack g camera.scratch camera.scratchCap).1 = 0
    · rw [if_pos hn, if_pos hn]
      rfl
    · rw [if_neg hn, if_neg hn]
      simp only [TickEnv.only]
      cases env.send with
      | failed => rfl
      | again => rfl
      | sent => rfl

private theorem ready_toAny (h : camera.Ready) :
    camera.toAny.Ready := ⟨h.sized, h.scratchCap, h.scratch⟩

end Any

/-- A camera of some backend that agrees with the spec the sink has of it. -/
def AnyFits (spec : SinkCamSpec) (camera : CameraCtx AnyImpl) : Prop :=
  ∃ b, ∃ ctx : CameraCtx b.Impl, camera = ctx.toAny ∧ Fits b spec ctx

/-- A message with a frame of this camera that keeps to its spec. -/
def SinkCamSpec.Carried (spec : SinkCamSpec) (msg : Bytes) : Prop :=
  ∃ g : Frame, msg = g.image ∧ g.Holds g.count.toNat ∧ g.cameraId = spec.cameraId ∧
    g.count ≤ spec.maxSites ∧ ∀ s ∈ g.contents.support, s < spec.maxSites

section Fits

variable {spec : SinkCamSpec} {camera : CameraCtx AnyImpl}

theorem AnyFits.ready (h : AnyFits spec camera) : camera.Ready := by
  obtain ⟨b, ctx, rfl, hfits⟩ := h
  exact ready_toAny hfits.ready

theorem AnyFits.cameraId (h : AnyFits spec camera) : camera.cameraId = spec.cameraId := by
  obtain ⟨b, ctx, rfl, hfits⟩ := h
  exact hfits.cameraId

/-- **A tick** leaves a camera that fits, and what it sends keeps to the spec. -/
theorem AnyFits.tick (h : AnyFits spec camera) (env : TickEnv AnyEnv) :
    AnyFits spec (cameraTick anyBackend env camera).2.1 ∧
      ∀ msg ∈ (cameraTick anyBackend env camera).2.2, spec.Carried msg := by
  obtain ⟨b, ctx, rfl, hfits⟩ := h
  rw [cameraTick_toAny]
  refine ⟨⟨b, _, rfl, hfits.tick _⟩, fun msg hmsg ↦ ?_⟩
  have hacquires : ctx.acquires b.interface.toBackend (env.only b) = true := by
    -- no message without a frame
    by_contra hnot
    rw [CameraCtx.acquires, decide_eq_true_eq] at hnot
    simp only [cameraTick] at hmsg
    rw [if_pos hnot] at hmsg
    cases hmsg
  obtain ⟨hid, hcount, hsupport, -, himage⟩ := hfits.acquired hacquires
  have hafter := hfits.tick (env.only b)
  have hcount' : (cameraTick b.interface.toBackend (env.only b) ctx).2.1.frame.count
      ≤ spec.maxSites := by rwa [hafter.capacity] at hcount
  exact ⟨_, himage msg hmsg, hafter.ready.sized.mono (UInt32.le_iff_toNat_le.mp hcount), hid,
    hcount', hsupport⟩

end Fits

end SparseCamera
