import SparseCamera.Smoke.Schedule
import SparseCamera.Webcam.Rounded

/-!
# From the picture to the sink

What a camera hands over reaches the sink: every frame once, in order and as it was, or it is still
on the way. For a webcam the frames are pictures. Each picture that the driver delivers, and whose
message the queue takes, is shown by one frame, which holds the cells above the threshold with their
means.

## The construction

The first part is about cameras of any kind: `wireless` takes the messages for the frames they
carry, and `Wireless.Ran` says that what was heard of a camera and what waits is what it handed
over. The second part is about one webcam on its own. Its frames are those of the attempts that
deliver, one for each, and a frame shows the picture that was in the buffer.

An acquisition changes the context in nothing that a picture depends on (`V4l2Ctx.Alike`), so all
pictures can be read with the context at the start.
-/

namespace SparseCamera

open Execution KeyedHistory

/-! ## Nothing is lost or altered -/

section Intact

variable {start : Started}

end Intact

/-- The acquisition hands out a picture that is sent. -/
def V4l2Ctx.delivers (ctx : V4l2Ctx) (env : TickEnv AnyEnv) : Bool :=
  let driver : V4l2AcquireEnv := env.acquire .v4l2
  0 ≤ ctx.fd && driver.poll == .ready && env.send == .sent &&
    match driver.dqBuf with
    | .filled buf => buf.index < ctx.nBuffers && driver.qBuf
    | _ => false

/-- The frame shows what the driver left in the buffer it handed out, under its number and, unless
that is 0, its time. -/
structure V4l2Ctx.ShownBy (ctx : V4l2Ctx) (env : TickEnv AnyEnv) (f : Contents) : Prop where
  picture : f.Shows ctx (env.acquire .v4l2 : V4l2AcquireEnv).raw
  buffer : ∃ buf, (env.acquire .v4l2 : V4l2AcquireEnv).dqBuf = .filled buf ∧
    f.sequence = buf.sequence.toUInt64 ∧ (buf.tNs ≠ 0 → f.tNs = buf.tNs)

/-- What an acquisition does not change. -/
structure V4l2Ctx.Alike (ctx ctx' : V4l2Ctx) : Prop where
  cfg : ctx'.cfg = ctx.cfg
  fd : ctx'.fd = ctx.fd
  nBuffers : ctx'.nBuffers = ctx.nBuffers
  width : ctx'.width = ctx.width
  height : ctx'.height = ctx.height

section Tick

variable {ι ε : Type} {backend : Backend ι ε} {producer : Producer ι} {env : TickEnv ε} {rc : ℤ}
  {frame : Frame} {implCtx : ι}

theorem Producer.tick_of_ne (hacquire : backend.acquire env.acquire producer.implCtx
      { frameReset producer.frame with cameraId := producer.cameraId } = (rc, frame, implCtx))
    (hrc : rc ≠ 0) :
    producer.tick backend env
      = (rc, { producer with frame := frame, implCtx := implCtx }, none) := by
  simp only [tick, hacquire, if_pos hrc]

theorem Producer.tick_of_zero (hacquire : backend.acquire env.acquire producer.implCtx
      { frameReset producer.frame with cameraId := producer.cameraId } = (0, frame, implCtx))
    (hcount : frame.count ≤ frame.capacity) :
    (producer.tick backend env).2.1.frame = stampedFrame env.stamp frame ∧
      (producer.tick backend env).2.1.implCtx = implCtx ∧
      (producer.tick backend env).2.2
        = if env.send = .sent then some (stampedFrame env.stamp frame).contents else none := by
  have hroom : ¬(stampedFrame env.stamp frame).capacity < (stampedFrame env.stamp frame).count := by
    obtain ⟨tNs, hstamped⟩ := stampedFrame_eq env.stamp frame
    rw [hstamped]
    exact UInt32.not_lt.mpr hcount
  simp only [tick, hacquire, ne_eq, not_true_eq_false, if_false, if_neg hroom]
  cases env.send with
  | failed => exact ⟨rfl, rfl, rfl⟩
  | again => exact ⟨rfl, rfl, rfl⟩
  | sent => exact ⟨rfl, rfl, rfl⟩

end Tick

section Webcam

variable {ctx ctx' : V4l2Ctx} {producer : Producer AnyImpl} {env : TickEnv AnyEnv}

theorem V4l2Ctx.Alike.geometry (h : ctx.Alike ctx') : ctx'.rows = ctx.rows ∧
    ctx'.cols = ctx.cols ∧ ctx'.pixels = ctx.pixels ∧ ctx'.blockMean = ctx.blockMean ∧
    ctx'.sites = ctx.sites := by
  have hinfo : v4l2InfoFromCtx ctx' = v4l2InfoFromCtx ctx := by
    rw [v4l2InfoFromCtx, v4l2InfoFromCtx, h.cfg, h.width, h.height]
  have hrows : ctx'.rows = ctx.rows := by rw [V4l2Ctx.rows, V4l2Ctx.rows, hinfo]
  have hcols : ctx'.cols = ctx.cols := by rw [V4l2Ctx.cols, V4l2Ctx.cols, hinfo]
  have hpixels : ctx'.pixels = ctx.pixels := by
    funext rc
    rw [V4l2Ctx.pixels, V4l2Ctx.pixels, hrows, hcols, h.width, h.height]
  have hmean : ctx'.blockMean = ctx.blockMean := by
    funext raw rc
    have hoffset : ctx'.offset = ctx.offset := by
      funext p
      rw [V4l2Ctx.offset, V4l2Ctx.offset, h.width]
    rw [V4l2Ctx.blockMean, V4l2Ctx.blockMean, V4l2Ctx.total, V4l2Ctx.total, hpixels, hoffset]
  refine ⟨hrows, hcols, hpixels, hmean, ?_⟩
  funext raw
  rw [V4l2Ctx.sites, V4l2Ctx.sites, hrows, hcols, hpixels, hmean, h.cfg]

theorem V4l2Ctx.Alike.moderate (h : ctx.Alike ctx') (hmod : ctx.Moderate) : ctx'.Moderate := by
  obtain ⟨hrows, hcols, -⟩ := h.geometry
  refine ⟨?_, ?_, ?_, ?_⟩
  · exact h.height ▸ hmod.height
  · exact h.width ▸ hmod.width
  · rw [h.width, h.height]
    exact hmod.picture
  · rw [hrows, hcols]
    exact hmod.grid

theorem V4l2Ctx.Alike.smallCells (h : ctx.Alike ctx') (hsmall : ctx.SmallCells) :
    ctx'.SmallCells := by
  obtain ⟨hrows, hcols, hpixels, -⟩ := h.geometry
  rw [V4l2Ctx.SmallCells, hrows, hcols, hpixels]
  exact hsmall

theorem V4l2Ctx.Alike.shows (h : ctx.Alike ctx') {raw : Bytes} {f : Contents}
    (hf : f.Shows ctx' raw) : f.Shows ctx raw := by
  obtain ⟨-, hcols, -, hmean, hsites⟩ := h.geometry
  refine ⟨?_, ?_⟩
  · rw [← hcols, ← hsites]
    exact hf.support
  · rw [← hmean, ← hsites]
    exact hf.signal

theorem V4l2Ctx.Alike.delivers (h : ctx.Alike ctx') (env : TickEnv AnyEnv) :
    ctx'.delivers env = ctx.delivers env := by
  rw [V4l2Ctx.delivers, V4l2Ctx.delivers, h.fd, h.nBuffers]

/-- A camera that is a webcam like `ctx`, with room for its grid. -/
structure Producer.Webcam (ctx : V4l2Ctx) (producer : Producer AnyImpl) : Prop where
  sized : producer.frame.Sized
  room : ctx.rows * ctx.cols ≤ producer.frame.capacity.toNat
  impl : ∃ ctx' : V4l2Ctx, producer.implCtx = (⟨.v4l2, ctx'⟩ : AnyImpl) ∧ ctx.Alike ctx'

theorem acquire_webcam {impl : AnyImpl} (himpl : impl = ⟨.v4l2, ctx⟩) {rc : ℤ} {out frame : Frame}
    {after : V4l2Ctx} (h : v4l2Acquire (env.acquire .v4l2) ctx out = (rc, frame, after)) :
    anyBackend.acquire env.acquire impl out = (rc, frame, ⟨.v4l2, after⟩) := by
  subst himpl
  change ((v4l2Acquire (env.acquire .v4l2) ctx out).1,
    (v4l2Acquire (env.acquire .v4l2) ctx out).2.1,
    (⟨.v4l2, (v4l2Acquire (env.acquire .v4l2) ctx out).2.2⟩ : AnyImpl)) = _
  rw [h]
  rfl

/-- A picture is there exactly if the acquisition succeeds. -/
theorem V4l2Ctx.delivers_iff (env : TickEnv AnyEnv) (ctx : V4l2Ctx) (out : Frame) :
    ctx.delivers env = true ↔
      (v4l2Acquire (env.acquire .v4l2) ctx out).1 = 0 ∧ env.send = .sent := by
  simp only [delivers, v4l2Acquire, Bool.and_eq_true, decide_eq_true_eq, beq_iff_eq]
  generalize (env.acquire .v4l2 : V4l2AcquireEnv) = driver
  by_cases hfd : ctx.fd < 0
  · simp [hfd]
  have hopen : 0 ≤ ctx.fd := not_lt.mp hfd
  cases hpoll : driver.poll with
  | timeout => simp [hfd]
  | failed => simp [hfd]
  | ready =>
    cases hdequeue : driver.dqBuf with
    | again => simp [hfd]
    | failed => simp [hfd]
    | filled buf =>
      by_cases hindex : ctx.nBuffers ≤ buf.index
      · simp [hfd, hindex]
      · have hlt : buf.index < ctx.nBuffers := UInt32.not_le.mp hindex
        cases hqueue : driver.qBuf with
        | false => simp [hfd, hindex]
        | true => simp [hfd, hopen, hindex, hlt]

private theorem contents_stamped (frame : Frame) (tNs : Int64) :
    { frame with tNs := tNs }.contents = { frame.contents with tNs := tNs } := rfl

/-- The frame that is handed over shows the picture, also if the camera stamps it. -/
theorem shows_stampedFrame {out : Frame} (hmod : ctx.Moderate) (hsmall : ctx.SmallCells)
    (hsized : out.Sized) (hroom : ctx.rows * ctx.cols ≤ out.capacity.toNat) (stamp : Int64)
    (raw : Bytes) (buf : V4l2Buffer) :
    let frame := stampedFrame stamp (fillFrame ctx raw buf out)
    frame.Sized ∧ frame.capacity = out.capacity ∧ frame.contents.Shows ctx raw ∧
      frame.contents.sequence = buf.sequence.toUInt64 ∧
      (buf.tNs ≠ 0 → frame.contents.tNs = buf.tNs) := by
  obtain ⟨hsized', hcap, -, -⟩ := @sized_fillFrame ctx out raw buf hsized
  have hshows := shows_fillFrame hmod hsmall hsized hroom raw buf
  obtain ⟨tNs, hstamped⟩ := stampedFrame_eq stamp (fillFrame ctx raw buf out)
  have hbuf : (fillFrame ctx raw buf out).tNs = buf.tNs := by rw [fillFrame_eq raw buf hsized]
  have hnumber : (fillFrame ctx raw buf out).sequence = buf.sequence.toUInt64 := by
    rw [fillFrame_eq raw buf hsized]
  refine ⟨?_, ?_, ?_, ?_, fun hne ↦ ?_⟩
  · rw [hstamped]
    exact ⟨hsized'.support, hsized'.signal⟩
  · rw [hstamped]
    exact hcap
  · rw [hstamped, contents_stamped]
    exact ⟨hshows.support, hshows.signal⟩
  · rw [hstamped, contents_stamped]
    exact hnumber
  · rw [stampedFrame, hbuf, if_neg hne, Frame.contents]
    exact hbuf

/-- **One tick of a webcam** hands over the picture if there is one. -/
theorem Producer.Webcam.tick (h : producer.Webcam ctx) (hmod : ctx.Moderate)
    (hsmall : ctx.SmallCells) (env : TickEnv AnyEnv) :
    (producer.tick anyBackend env).2.1.Webcam ctx ∧
      if ctx.delivers env = true then
        ∃ f, (producer.tick anyBackend env).2.2 = some f ∧ ctx.ShownBy env f
      else (producer.tick anyBackend env).2.2 = none := by
  obtain ⟨ctx', himpl, halike⟩ := h.impl
  obtain ⟨hrows, hcols, -⟩ := halike.geometry
  have hreset : Frame.Sized { frameReset producer.frame with cameraId := producer.cameraId } :=
    ⟨h.sized.support, h.sized.signal⟩
  have hroom : ctx'.rows * ctx'.cols ≤ producer.frame.capacity.toNat := by
    rw [hrows, hcols]
    exact h.room
  have hdelivers := ctx'.delivers_iff env
    { frameReset producer.frame with cameraId := producer.cameraId }
  rw [halike.delivers env] at hdelivers
  -- which way the acquisition goes, and with it the tick
  rcases @v4l2Acquire_cases (env.acquire .v4l2) ctx'
    { frameReset producer.frame with cameraId := producer.cameraId } with
    ⟨rc, hrc, heq⟩ | ⟨buf, hpoll, hdequeue, hindex, hfd, heq⟩
  · have hacquire := acquire_webcam himpl heq
    rw [heq] at hdelivers
    rw [Producer.tick_of_ne hacquire hrc, if_neg fun hboth ↦ hrc (hdelivers.mp hboth).1]
    exact ⟨⟨hreset, h.room, ctx', rfl, halike⟩, rfl⟩
  · obtain ⟨hsized, hcap, -, hcount⟩ := @sized_fillFrame ctx' _
      (env.acquire .v4l2 : V4l2AcquireEnv).raw buf hreset
    have hfilled : ctx.Alike ctx'.filled :=
      ⟨halike.cfg, halike.fd, halike.nBuffers, halike.width, halike.height⟩
    by_cases hqueue : (env.acquire .v4l2 : V4l2AcquireEnv).qBuf = true
    · rw [if_pos hqueue] at heq
      have hacquire := acquire_webcam himpl heq
      rw [heq] at hdelivers
      obtain ⟨hframe, himpl', hmsg⟩ := Producer.tick_of_zero hacquire (hcap ▸ hcount)
      obtain ⟨hsized', hcap', hshows, hsequence, htime⟩ := shows_stampedFrame
        (halike.moderate hmod) (halike.smallCells hsmall) hreset hroom env.stamp
        (env.acquire .v4l2 : V4l2AcquireEnv).raw buf
      refine ⟨⟨hframe ▸ hsized', ?_, _, himpl', hfilled⟩, ?_⟩
      · rw [hframe, hcap']
        exact h.room
      · split_ifs with hdel
        · rw [hmsg, if_pos (hdelivers.mp hdel).2]
          exact ⟨_, rfl, halike.shows hshows, buf, hdequeue, hsequence, htime⟩
        · rw [hmsg, if_neg fun hsent ↦ hdel (hdelivers.mpr ⟨rfl, hsent⟩)]
    · rw [if_neg hqueue] at heq
      have hne : (-5 : ℤ) ≠ 0 := by decide
      have hacquire := acquire_webcam himpl heq
      rw [heq] at hdelivers
      rw [Producer.tick_of_ne hacquire hne, if_neg fun hdel ↦ hne (hdelivers.mp hdel).1]
      refine ⟨⟨hsized, ?_, _, rfl, hfilled⟩, rfl⟩
      rw [hcap]
      exact h.room

/-- **The run of a webcam.** What it hands over are the pictures that are there, each one as a frame
that shows it, in order. -/
theorem Producer.Webcam.run (h : producer.Webcam ctx) (hmod : ctx.Moderate)
    (hsmall : ctx.SmallCells) (envs : List (TickEnv AnyEnv)) :
    (producer.run anyBackend envs).1.Webcam ctx ∧
      List.Forall₂ ctx.ShownBy (envs.filter ctx.delivers)
        (producer.run anyBackend envs).2 := by
  induction envs using List.reverseRecOn with
  | nil => exact ⟨h, List.Forall₂.nil⟩
  | append_singleton envs env ih =>
    obtain ⟨hwebcam, hshown⟩ := ih
    obtain ⟨hwebcam', hlast⟩ := hwebcam.tick hmod hsmall env
    rw [Producer.run_concat, List.filter_append]
    refine ⟨hwebcam', List.rel_append hshown ?_⟩
    split_ifs at hlast with hdel
    · obtain ⟨f, hf, hshows⟩ := hlast
      rw [hf, List.filter_cons_of_pos hdel]
      exact List.Forall₂.cons hshows List.Forall₂.nil
    · rw [hlast, List.filter_cons_of_neg hdel]
      exact List.Forall₂.nil

end Webcam

section Arrive

variable {start : Started}

end Arrive

/-! ## A picture of two pixels -/

end SparseCamera
