import SparseCamera.Wire.RoundTrip

/-!
# Cameras

A camera is a capture backend behind a publisher. One tick acquires a frame, packs it into a
scratch buffer of fixed size and hands it to a socket that either takes it, is full, or fails. The
backend is an interface: whatever it does with its own context and with the frame it is given, and
whatever it needs from outside to decide that.

Only the messages leave a camera, so a tick is a function from the camera to a return code, the
camera afterwards and at most one message.

## The invariant

A camera is `Ready` when its frame has the capacity it claims and its scratch buffer holds the
largest message that such a frame can make. `camera_new` establishes this and every tick keeps it. A
backend contributes one promise, `Backend.Fills`: it writes into the frame it is given and neither
resizes nor renames it. Such a frame can be packed exactly when it does not claim more entries than
it has room for, and after that only the socket can lose it.
-/

namespace SparseCamera

open Memory

/-- `camera_interface_t`. `ε` is what the outside world contributes to one `acquire`: a clock
reading, the driver's answer. -/
structure Backend (ι ε : Type) where
  /-- Fills a frame; 0 on success, 1 on timeout, negative on a hard error. -/
  acquire : ε → ι → Frame → ℤ × Frame × ι
  /-- The contributions the outside world can make in a given state. -/
  allowed : ε → ι → Bool

/-- What every backend keeps to: it fills the buffers of the frame it is given, and neither resizes
nor renames it. -/
structure Backend.Fills {ι ε : Type} (backend : Backend ι ε) : Prop where
  frame : ∀ {e : ε} {impl : ι} {out : Frame}, out.Sized →
    (backend.acquire e impl out).2.1.Sized ∧
      (backend.acquire e impl out).2.1.capacity = out.capacity ∧
      (backend.acquire e impl out).2.1.cameraId = out.cameraId

/-- `struct camera_ctx` without its sockets. -/
structure CameraCtx (ι : Type) where
  frame : Frame
  scratch : Bytes
  scratchCap : UInt64
  cameraId : UInt32
  sent : UInt64
  dropped : UInt64
  implCtx : ι

/-- `camera_new`, with its allocations and sockets granted; `init` is the backend's. -/
def cameraNew {ι : Type} (cameraId : UInt32) (frameCap : UInt64) (init : ι → ℤ × ι) (implCtx : ι) :
    Option (CameraCtx ι) :=
  match newFrames frameCap with
  | none => none
  | some frame =>
    let frame := { frame with cameraId := cameraId }
    let scratchCap := frameWireLength frame.capacity
    let (rc, implCtx) := init implCtx
    if rc ≠ 0 then none
    else some
      { frame := frame
        scratch := List.replicate scratchCap.toNat 0
        scratchCap := scratchCap
        cameraId := cameraId
        sent := 0
        dropped := 0
        implCtx := implCtx }

/-- What became of a `zmq_send`. -/
inductive SendOutcome where
  | sent
  /-- The queue is full, `EAGAIN`. -/
  | again
  | failed
deriving DecidableEq

/-- What the outside world contributes to one tick. -/
structure TickEnv (ε : Type) where
  acquire : ε
  /-- The clock, should the frame have to be stamped here. -/
  stamp : Int64
  send : SendOutcome

/-- `timestamp_frame`, given the clock. -/
def timestampFrame (stamp : Int64) (frame : Frame) : Frame := { frame with tNs := stamp }

/-- `camera_tick`: its return code, the camera afterwards and the message that left it. -/
def cameraTick {ι ε : Type} (backend : Backend ι ε) (env : TickEnv ε) (camera : CameraCtx ι) :
    ℤ × CameraCtx ι × Option Bytes :=
  let frame := { frameReset camera.frame with cameraId := camera.cameraId }
  let (rc, frame, implCtx) := backend.acquire env.acquire camera.implCtx frame
  let camera := { camera with frame := frame, implCtx := implCtx }
  if rc ≠ 0 then (rc, camera, none)
  else
    -- the backend did not stamp the frame
    let frame := if frame.tNs = 0 then timestampFrame env.stamp frame else frame
    let (n, scratch) := frameWirePack frame camera.scratch camera.scratchCap
    let camera := { camera with frame := frame, scratch := scratch }
    if n = 0 then (-2, camera, none)
    else
      match env.send with
      | .failed => (-3, camera, none)
      | .again => (1, { camera with dropped := camera.dropped + 1 }, none)
      | .sent => (0, { camera with sent := camera.sent + 1 }, some (scratch.take n.toNat))

/-- The backend fills a frame in this tick. -/
def CameraCtx.acquires {ι ε : Type} (camera : CameraCtx ι) (backend : Backend ι ε)
    (env : TickEnv ε) : Bool :=
  (backend.acquire env.acquire camera.implCtx
    { frameReset camera.frame with cameraId := camera.cameraId }).1 = 0

/-! ## What a tick does

One equation for a tick that has a frame, and from it the cases: no frame, a hard error, a drop,
a message. What a tick keeps is proved from these. -/

/-- The frame is as large as it says and the scratch buffer holds the largest message. -/
structure CameraCtx.Ready {ι : Type} (camera : CameraCtx ι) : Prop where
  sized : camera.frame.Sized
  scratchCap : camera.scratchCap = frameWireLength camera.frame.capacity
  scratch : camera.scratchCap.toNat ≤ camera.scratch.length

section Tick

variable {ι ε : Type} {backend : Backend ι ε} {env : TickEnv ε} {camera : CameraCtx ι}

theorem ready_cameraNew {cameraId : UInt32} {frameCap : UInt64} {init : ι → ℤ × ι} {implCtx : ι}
    (h : cameraNew cameraId frameCap init implCtx = some camera) (hlt : frameCap.toNat < 2 ^ 32) :
    camera.Ready ∧ camera.frame.capacity.toNat = frameCap.toNat ∧ camera.cameraId = cameraId ∧
      camera.sent = 0 ∧ camera.dropped = 0 ∧ init implCtx = (0, camera.implCtx) := by
  rw [cameraNew] at h
  split at h
  · cases h
  · next frame hnew =>
    obtain ⟨hsized, hcap⟩ := sized_newFrames hnew hlt
    simp only at h
    split_ifs at h with hrc
    obtain rfl := Option.some.inj h
    refine ⟨⟨⟨hsized.support, hsized.signal⟩, rfl, ?_⟩, hcap, rfl, rfl, rfl, ?_⟩
    · exact (List.length_replicate).ge
    · exact Prod.ext (not_not.mp hrc) rfl

theorem CameraCtx.Ready.pack (hready : camera.Ready) {g : Frame} (hsized : g.Sized)
    (hcap : g.capacity = camera.frame.capacity) (hcount : g.count ≤ g.capacity) :
    frameWirePack g camera.scratch camera.scratchCap
        = (frameWireSize g, overwrite camera.scratch 0 g.image) ∧
      frameWireSize g ≠ 0 ∧
      (overwrite camera.scratch 0 g.image).take (frameWireSize g).toNat = g.image ∧
      (overwrite camera.scratch 0 g.image).length = camera.scratch.length := by
  have hcount' := UInt32.le_iff_toNat_le.mp hcount
  have hholds : g.Holds g.count.toNat := hsized.mono hcount'
  -- the scratch buffer was made for a full frame
  have hneed : 32 + 8 * g.count.toNat ≤ camera.scratchCap.toNat := by
    rw [hready.scratchCap, toNat_frameWireLength, ← hcap]
    omega
  refine ⟨frameWirePack_of_le hholds hready.scratch hneed, ?_, ?_, length_overwrite ?_⟩
  · intro hzero
    have hnat := congrArg UInt64.toNat hzero
    rw [frameWireSize, toNat_frameWireLength] at hnat
    exact absurd hnat (by simp)
  · rw [frameWireSize, toNat_frameWireLength, ← length_image hholds, take_overwrite_zero]
  · rw [length_image hholds, Nat.zero_add]
    exact hneed.trans hready.scratch

theorem CameraCtx.Ready.pack_of_lt (hready : camera.Ready) {g : Frame}
    (hcap : g.capacity = camera.frame.capacity) (hcount : g.capacity < g.count) :
    frameWirePack g camera.scratch camera.scratchCap = (0, camera.scratch) := by
  apply frameWirePack_of_lt
  have hcount' := UInt32.lt_iff_toNat_lt.mp hcount
  rw [hready.scratchCap, toNat_frameWireLength, ← hcap]
  omega

/-- The frame that is packed: the one the backend filled in, stamped here if it did not. -/
def stampedFrame (stamp : Int64) (frame : Frame) : Frame :=
  if frame.tNs = 0 then timestampFrame stamp frame else frame

theorem stampedFrame_eq (stamp : Int64) (frame : Frame) :
    ∃ tNs, stampedFrame stamp frame = { frame with tNs := tNs } := by
  rw [stampedFrame]
  split_ifs
  · exact ⟨stamp, rfl⟩
  · exact ⟨frame.tNs, rfl⟩

theorem cameraTick_stamped (hready : camera.Ready) {frame : Frame} {implCtx : ι}
    (hacquire : backend.acquire env.acquire camera.implCtx
      { frameReset camera.frame with cameraId := camera.cameraId } = (0, frame, implCtx))
    (hsized : frame.Sized) (hcap : frame.capacity = camera.frame.capacity)
    (hcount : frame.count ≤ frame.capacity) :
    cameraTick backend env camera =
      let camera' := { camera with
        frame := stampedFrame env.stamp frame
        implCtx := implCtx
        scratch := overwrite camera.scratch 0 (stampedFrame env.stamp frame).image }
      match env.send with
      | .failed => (-3, camera', none)
      | .again => (1, { camera' with dropped := camera.dropped + 1 }, none)
      | .sent =>
        (0, { camera' with sent := camera.sent + 1 },
          some (stampedFrame env.stamp frame).image) := by
  have hfold : (if frame.tNs = 0 then timestampFrame env.stamp frame else frame)
      = stampedFrame env.stamp frame := rfl
  obtain ⟨tNs, hstamped⟩ := stampedFrame_eq env.stamp frame
  have hfits : (stampedFrame env.stamp frame).Sized ∧
      (stampedFrame env.stamp frame).capacity = camera.frame.capacity ∧
      (stampedFrame env.stamp frame).count ≤ (stampedFrame env.stamp frame).capacity := by
    rw [hstamped]
    exact ⟨⟨hsized.support, hsized.signal⟩, hcap, hcount⟩
  obtain ⟨hpack, hne, htake, -⟩ := hready.pack hfits.1 hfits.2.1 hfits.2.2
  simp only [cameraTick, hacquire, hfold, if_false, hpack, hne, ne_eq, not_true_eq_false, htake]

theorem cameraTick_acquired (hready : camera.Ready) {frame : Frame} {implCtx : ι}
    (hacquire : backend.acquire env.acquire camera.implCtx
      { frameReset camera.frame with cameraId := camera.cameraId } = (0, frame, implCtx))
    (hsized : frame.Sized) (hcap : frame.capacity = camera.frame.capacity)
    (hcount : frame.count ≤ frame.capacity) (hstamp : frame.tNs ≠ 0) :
    cameraTick backend env camera =
      let camera' := { camera with
        frame := frame
        implCtx := implCtx
        scratch := overwrite camera.scratch 0 frame.image }
      match env.send with
      | .failed => (-3, camera', none)
      | .again => (1, { camera' with dropped := camera.dropped + 1 }, none)
      | .sent => (0, { camera' with sent := camera.sent + 1 }, some frame.image) := by
  have hstamped : stampedFrame env.stamp frame = frame := if_neg hstamp
  rw [cameraTick_stamped hready hacquire hsized hcap hcount, hstamped]

/-- The outcomes of a tick: the backend had no frame, the frame was lost to a hard error, it was
dropped, or it was sent. The camera counts the last two. -/
theorem cameraTick_counted :
    (camera.acquires backend env = false ∧ (cameraTick backend env camera).2.2 = none ∧
      (cameraTick backend env camera).2.1.sent = camera.sent ∧
      (cameraTick backend env camera).2.1.dropped = camera.dropped) ∨
    (camera.acquires backend env = true ∧ (cameraTick backend env camera).2.2 = none ∧
      (cameraTick backend env camera).1 < 0 ∧
      (cameraTick backend env camera).2.1.sent = camera.sent ∧
      (cameraTick backend env camera).2.1.dropped = camera.dropped) ∨
    (camera.acquires backend env = true ∧ (cameraTick backend env camera).2.2 = none ∧
      (cameraTick backend env camera).1 = 1 ∧
      (cameraTick backend env camera).2.1.sent = camera.sent ∧
      (cameraTick backend env camera).2.1.dropped = camera.dropped + 1) ∨
    (camera.acquires backend env = true ∧ (cameraTick backend env camera).2.2.isSome = true ∧
      (cameraTick backend env camera).1 = 0 ∧
      (cameraTick backend env camera).2.1.sent = camera.sent + 1 ∧
      (cameraTick backend env camera).2.1.dropped = camera.dropped) := by
  cases hacquire : backend.acquire env.acquire camera.implCtx
    { frameReset camera.frame with cameraId := camera.cameraId } with
  | mk rc rest =>
  simp only [cameraTick, CameraCtx.acquires, hacquire]
  by_cases hrc : rc = 0
  · generalize frameWirePack (if rest.1.tNs = 0 then timestampFrame env.stamp rest.1 else rest.1)
      camera.scratch camera.scratchCap = packed
    by_cases hn : packed.1 = 0
    · simp [hrc, hn]
    · cases env.send <;> simp [hrc, hn]
  · simp [hrc]

theorem cameraTick_cases :
    (camera.acquires backend env = false ∧ (cameraTick backend env camera).2.2 = none) ∨
    (camera.acquires backend env = true ∧ (cameraTick backend env camera).2.2 = none ∧
      (cameraTick backend env camera).1 < 0) ∨
    (camera.acquires backend env = true ∧ (cameraTick backend env camera).2.2 = none ∧
      (cameraTick backend env camera).1 = 1) ∨
    (camera.acquires backend env = true ∧ (cameraTick backend env camera).2.2.isSome = true ∧
      (cameraTick backend env camera).1 = 0) := by
  rcases @cameraTick_counted _ _ backend env camera with ⟨hacq, hnone, -⟩ |
    ⟨hacq, hnone, hrc, -⟩ | ⟨hacq, hnone, hrc, -⟩ | ⟨hacq, hsome, hrc, -⟩
  · exact Or.inl ⟨hacq, hnone⟩
  · exact Or.inr (Or.inl ⟨hacq, hnone, hrc⟩)
  · exact Or.inr (Or.inr (Or.inl ⟨hacq, hnone, hrc⟩))
  · exact Or.inr (Or.inr (Or.inr ⟨hacq, hsome, hrc⟩))

/-- The backend's context changes in `acquire` only. -/
theorem implCtx_cameraTick : (cameraTick backend env camera).2.1.implCtx
    = (backend.acquire env.acquire camera.implCtx
        { frameReset camera.frame with cameraId := camera.cameraId }).2.2 := by
  simp only [cameraTick]
  split_ifs
  · rfl
  -- the frame may be stamped here and may not fit the buffer
  all_goals first
    | rfl
    | cases env.send <;> rfl

theorem frame_cameraTick : ∃ tNs, (cameraTick backend env camera).2.1.frame
    = { (backend.acquire env.acquire camera.implCtx
        { frameReset camera.frame with cameraId := camera.cameraId }).2.1 with tNs := tNs } := by
  cases hacquire : backend.acquire env.acquire camera.implCtx
    { frameReset camera.frame with cameraId := camera.cameraId } with
  | mk rc rest =>
  obtain ⟨frame, implCtx⟩ := rest
  have hfold : (if frame.tNs = 0 then timestampFrame env.stamp frame else frame)
      = stampedFrame env.stamp frame := rfl
  simp only [cameraTick, hacquire, hfold]
  split_ifs with hrc hn
  · exact ⟨frame.tNs, rfl⟩
  · exact stampedFrame_eq env.stamp frame
  · cases env.send <;> exact stampedFrame_eq env.stamp frame

/-- **Whatever the backend answers**, a tick of a ready camera leaves it ready under its id, and a
message that leaves it carries that id. -/
theorem cameraTick_fills (hfills : backend.Fills) (hready : camera.Ready) :
    (cameraTick backend env camera).2.1.Ready ∧
      (cameraTick backend env camera).2.1.cameraId = camera.cameraId ∧
      ∀ msg ∈ (cameraTick backend env camera).2.2, ∀ f, parse msg = some f →
        f.cameraId = camera.cameraId := by
  have hreset : Frame.Sized { frameReset camera.frame with cameraId := camera.cameraId } :=
    ⟨hready.sized.support, hready.sized.signal⟩
  obtain ⟨hsized, hcap, hid⟩ := @hfills.frame env.acquire camera.implCtx _ hreset
  cases hacquire : backend.acquire env.acquire camera.implCtx
    { frameReset camera.frame with cameraId := camera.cameraId } with
  | mk rc rest =>
  obtain ⟨frame, implCtx⟩ := rest
  rw [hacquire] at hsized hcap hid
  have hcap : frame.capacity = camera.frame.capacity := hcap
  have hready' (g : Frame) (hg : g.Sized) (hgcap : g.capacity = camera.frame.capacity)
      (scratch : Bytes) (hscratch : scratch.length = camera.scratch.length)
      (sent dropped : UInt64) :
      CameraCtx.Ready { camera with
        frame := g, scratch := scratch, sent := sent, dropped := dropped, implCtx := implCtx } :=
    ⟨hg, by rw [hready.scratchCap, hgcap], hscratch ▸ hready.scratch⟩
  simp only [cameraTick, hacquire]
  by_cases hrc : rc ≠ 0
  · rw [if_pos hrc]
    exact ⟨hready' frame hsized hcap _ rfl _ _, rfl, by simp⟩
  rw [if_neg hrc]
  generalize hg : (if frame.tNs = 0 then timestampFrame env.stamp frame else frame) = g
  obtain ⟨hgsized, hgcap, hgid⟩ : g.Sized ∧ g.capacity = camera.frame.capacity ∧
      g.cameraId = camera.cameraId := by
    rw [← hg]
    split_ifs
    · exact ⟨⟨hsized.support, hsized.signal⟩, hcap, hid⟩
    · exact ⟨hsized, hcap, hid⟩
  by_cases hcount : g.count ≤ g.capacity
  · obtain ⟨hpack, hne, htake, hlen⟩ := hready.pack hgsized hgcap hcount
    have himage (f : Contents) (hf : parse g.image = some f) : f.cameraId = camera.cameraId := by
      rw [parse_image (hgsized.mono (UInt32.le_iff_toNat_le.mp hcount))] at hf
      rw [← Option.some.inj hf]
      exact hgid
    rw [hpack]
    simp only [hne, if_false]
    cases env.send with
    | failed => exact ⟨hready' g hgsized hgcap _ hlen _ _, rfl, by simp⟩
    | again => exact ⟨hready' g hgsized hgcap _ hlen _ _, rfl, by simp⟩
    | sent =>
      refine ⟨hready' g hgsized hgcap _ hlen _ _, rfl, fun msg hmsg ↦ ?_⟩
      rw [← Option.some.inj hmsg, htake]
      exact himage
  · rw [hready.pack_of_lt hgcap (UInt32.not_le.mp hcount)]
    exact ⟨hready' g hgsized hgcap _ rfl _ _, rfl, by simp⟩

theorem ready_cameraTick_acquired (hready : camera.Ready) {frame : Frame}
    (hsized : frame.Sized) (hcap : frame.capacity = camera.frame.capacity)
    (hcount : frame.count ≤ frame.capacity) (implCtx : ι) (sent dropped : UInt64) :
    CameraCtx.Ready { camera with
      frame := frame
      implCtx := implCtx
      scratch := overwrite camera.scratch 0 frame.image
      sent := sent
      dropped := dropped } := by
  obtain ⟨-, -, -, hlen⟩ := hready.pack hsized hcap hcount
  exact ⟨hsized, by rw [hready.scratchCap, hcap], hlen ▸ hready.scratch⟩

end Tick

end SparseCamera
