import SparseCamera.Sink.Foreign
import SparseCamera.Webcam.Signal

/-!
# The number of a picture

The driver numbers its pictures with 32 bits and the number travels in 64. A camera that loses
nothing sends numbers that advance by one until the driver's counter wraps. The sink compares with
the 64-bit successor, takes the wrap for a gap and counts it.

## The construction

`Numbered` describes the frames of a camera that loses nothing: each number is the 32-bit successor
of the one before. As 64-bit numbers they are successors too, except behind 4294967295. The sink
compares in 64 bits, so a gap is counted at that place and nowhere else. What else the sink receives
does not matter, as the camera's own stream decides once it has a slot.
-/

namespace SparseCamera

open KeyedHistory KeyedTable

/-- The messages that leave a camera in some ticks. -/
def sentMessages {ι ε : Type} (backend : Backend ι ε) :
    CameraCtx ι → List (TickEnv ε) → List Bytes
  | _, [] => []
  | camera, env :: envs =>
    (cameraTick backend env camera).2.2.toList ++
      sentMessages backend (cameraTick backend env camera).2.1 envs

/-- Every tick acquires and sends, and the driver numbers the pictures one by one. -/
def LosesNothing : UInt32 → CameraCtx V4l2Ctx → List (TickEnv V4l2AcquireEnv) → Prop
  | _, _, [] => True
  | number, camera, env :: envs =>
    (cameraTick v4l2CameraInterface env camera).1 = 0 ∧
      (∃ buf, env.acquire.dqBuf = .filled buf ∧ buf.sequence = number) ∧
      LosesNothing (number + 1) (cameraTick v4l2CameraInterface env camera).2.1 envs

/-- The frames of one camera, numbered by a 32-bit counter. -/
def Numbered (id : UInt32) : UInt32 → List Contents → Prop
  | _, [] => True
  | number, f :: frames =>
    f.cameraId = id ∧ f.sequence = number.toUInt64 ∧ Numbered id (number + 1) frames

/-! ## What the camera sends -/

section Send

variable {camera : CameraCtx V4l2Ctx} {env : TickEnv V4l2AcquireEnv}

/-- **A tick that succeeds** sends the driver's number. -/
theorem cameraTick_sent (hready : camera.Ready)
    (hzero : (cameraTick v4l2CameraInterface env camera).1 = 0) {buf : V4l2Buffer}
    (hdequeue : env.acquire.dqBuf = .filled buf) :
    ∃ msg f, (cameraTick v4l2CameraInterface env camera).2.2 = some msg ∧ parse msg = some f ∧
      f.cameraId = camera.cameraId ∧ f.sequence = buf.sequence.toUInt64 := by
  have hreset : Frame.Sized { frameReset camera.frame with cameraId := camera.cameraId } :=
    ⟨hready.sized.support, hready.sized.signal⟩
  cases hacquire : v4l2CameraInterface.acquire env.acquire camera.implCtx
    { frameReset camera.frame with cameraId := camera.cameraId } with
  | mk rc rest =>
  obtain ⟨frame, implCtx⟩ := rest
  obtain rfl : rc = 0 := by
    by_contra hrc
    simp only [cameraTick, hacquire, if_pos hrc] at hzero
    exact hrc hzero
  obtain ⟨buf', hdequeue', hframe, -⟩ := v4l2Acquire_zero hacquire
  obtain rfl := DequeueOutcome.filled.inj (hdequeue.symm.trans hdequeue')
  obtain ⟨hsized, hcap, hid, hcount⟩ := @sized_fillFrame camera.implCtx _ env.acquire.raw buf hreset
  have hsequence : frame.sequence = buf.sequence.toUInt64 := by rw [hframe, fillFrame]
  rw [← hframe] at hsized hcap hid hcount
  have hcount' : frame.count ≤ frame.capacity := hcap.symm ▸ hcount
  rw [cameraTick_stamped hready hacquire hsized hcap hcount'] at hzero ⊢
  cases hsend : env.send with
  | sent =>
    -- the stamp is the driver's or, if that is 0, taken here
    obtain ⟨tNs, hstamped⟩ := stampedFrame_eq env.stamp frame
    refine ⟨_, (stampedFrame env.stamp frame).contents, rfl, parse_image ?_, ?_, ?_⟩
    · rw [hstamped]
      have hholds := hsized.mono (UInt32.le_iff_toNat_le.mp hcount')
      exact ⟨hholds.support, hholds.signal⟩
    · rw [hstamped]
      exact hid
    · rw [hstamped]
      exact hsequence
  | again =>
    rw [hsend] at hzero
    exact absurd (show (1 : ℤ) = 0 from hzero) (by decide)
  | failed =>
    rw [hsend] at hzero
    exact absurd (show (-3 : ℤ) = 0 from hzero) (by decide)

/-- **What a camera that loses nothing sends** is numbered by the driver's counter. -/
theorem framesOf_sentMessages {camera : CameraCtx V4l2Ctx} (hready : camera.Ready)
    {number : UInt32} {envs : List (TickEnv V4l2AcquireEnv)}
    (h : LosesNothing number camera envs) :
    Numbered camera.cameraId number (framesOf (sentMessages v4l2CameraInterface camera envs)) ∧
      (framesOf (sentMessages v4l2CameraInterface camera envs)).length = envs.length := by
  induction envs generalizing camera number with
  | nil => exact ⟨trivial, rfl⟩
  | cons env envs ih =>
    obtain ⟨hzero, ⟨buf, hdequeue, hnumber⟩, hrest⟩ := h
    obtain ⟨msg, f, hmsg, hparse, hid, hsequence⟩ := cameraTick_sent hready hzero hdequeue
    obtain ⟨hready', hid', -⟩ :=
      @cameraTick_fills _ _ _ env _ fills_v4l2CameraInterface hready
    obtain ⟨hnumbered, hlength⟩ := ih hready' hrest
    have hframes : framesOf (sentMessages v4l2CameraInterface camera (env :: envs))
        = f :: framesOf (sentMessages v4l2CameraInterface
          (cameraTick v4l2CameraInterface env camera).2.1 envs) := by
      rw [sentMessages, hmsg, Option.toList_some, List.singleton_append, framesOf, List.map_cons,
        hparse, List.reduceOption_cons_of_some]
      rfl
    rw [hframes, List.length_cons, List.length_cons, hlength]
    rw [hid'] at hnumbered
    exact ⟨⟨hid, hnumber ▸ hsequence, hnumbered⟩, rfl⟩

end Send

/-! ## What the sink makes of it

The checks of the camera's frames are those of its stream, whatever comes in between
(`recorded_eq_stream`), as long as there is a slot when the first one comes. -/

section Gaps

variable {id : UInt32} {check : SinkCheck} {frames : List Contents}

private theorem seq_faultsOf (check : SinkCheck) (cam : CamState) (f : Contents) :
    (faultsOf check cam f).seqGaps
        = (if 0 < cam.frames ∧ f.sequence ≠ cam.lastSeq + 1 then 1 else 0) ∧
      (faultsOf check cam f).seqLost
        = if 0 < cam.frames ∧ f.sequence ≠ cam.lastSeq + 1 ∧ cam.lastSeq < f.sequence then
            f.sequence - cam.lastSeq - 1
          else 0 := by
  obtain ⟨jitter, hjudge⟩ := judge_eq check cam f .zero
  rw [faultsOf, hjudge]
  simp [SinkStats.since, SinkStats.zero]

private theorem seq_found_of_isChain {p : Policy Contents UInt32 CamState}
    (hp : p.advance = advance)
    {cam : CamState} (hchain : frames.IsChain Follows)
    (hfirst : ∀ f ∈ frames.head?, 0 < cam.frames → f.sequence = cam.lastSeq + 1) :
    ∀ look ∈ p.found (some cam) frames,
      (checkOf check look).added.seqGaps = 0 ∧ (checkOf check look).added.seqLost = 0 := by
  induction frames generalizing cam with
  | nil => exact fun look hlook ↦ absurd hlook List.not_mem_nil
  | cons f frames ih =>
    intro look hlook
    rw [Policy.found] at hlook
    rcases List.mem_cons.mp hlook with rfl | hlook
    · obtain ⟨hgaps, hlost⟩ := seq_faultsOf check cam f
      have hsequence := hfirst f rfl
      change (faultsOf check cam f).seqGaps = 0 ∧ (faultsOf check cam f).seqLost = 0
      rw [hgaps, hlost, if_neg fun h ↦ h.2 (hsequence h.1), if_neg fun h ↦ h.2.1 (hsequence h.1)]
      exact ⟨rfl, rfl⟩
    · refine ih hchain.tail ?_ look hlook
      intro g hg _
      rw [hp, lastSeq_advance]
      cases frames with
      | nil => cases hg
      | cons g' frames =>
        obtain rfl := Option.some.inj hg
        exact (List.isChain_cons_cons.mp hchain).1

theorem Numbered.stream_eq {number : UInt32} (h : Numbered id number frames) :
    stream Contents.cameraId frames id = frames := by
  refine List.filter_eq_self.mpr fun f hf ↦ decide_eq_true ?_
  induction frames generalizing number with
  | nil => cases hf
  | cons g frames ih =>
    rcases List.mem_cons.mp hf with rfl | hf
    · exact h.1
    · exact ih h.2.2 hf

theorem Numbered.isChain {number : UInt32} (h : Numbered id number frames)
    (hle : number.toNat + frames.length ≤ 2 ^ 32) : frames.IsChain Follows := by
  induction frames generalizing number with
  | nil => exact .nil
  | cons f frames ih =>
    cases frames with
    | nil => exact .singleton f
    | cons g frames =>
      rw [List.length_cons, List.length_cons] at hle
      have hnext : (number + 1).toNat = number.toNat + 1 := by
        rw [UInt32.toNat_add]
        exact Nat.mod_eq_of_lt (by change number.toNat + 1 < 2 ^ 32; omega)
      refine List.isChain_cons_cons.mpr ⟨?_, ih h.2.2 (by rw [hnext, List.length_cons]; omega)⟩
      rw [Follows, h.2.2.2.1, h.2.1, ← UInt64.toNat_inj, UInt32.toNat_toUInt64, hnext,
        UInt64.toNat_add, UInt32.toNat_toUInt64]
      exact (Nat.mod_eq_of_lt (by omega)).symm

theorem Numbered.exists_wrap {number : UInt32} (h : Numbered id number frames)
    (hlt : 2 ^ 32 < number.toNat + frames.length) :
    ∃ before a b after, frames = before ++ a :: b :: after ∧ before.length < 2 ^ 32 ∧
      a.sequence = 0xffffffff ∧ b.sequence = 0 := by
  obtain ⟨before, a, b, after, hsplit, hlength, ha, hb⟩ : ∃ before a b after,
      frames = before ++ a :: b :: after ∧ number.toNat + before.length < 2 ^ 32 ∧
        a.sequence = 0xffffffff ∧ b.sequence = 0 := by
    induction frames generalizing number with
    | nil => exact absurd hlt (not_lt.mpr number.toNat_lt.le)
    | cons f frames ih =>
      by_cases hlast : number = 0xffffffff
      · subst hlast
        cases frames with
        | nil =>
          rw [List.length_singleton] at hlt
          exact absurd hlt (by decide)
        | cons g frames => exact ⟨[], f, g, frames, rfl, by decide, h.2.1, h.2.2.2.1⟩
      · have hmax : number.toNat ≠ 2 ^ 32 - 1 := fun heq ↦ hlast (UInt32.toNat_inj.mp heq)
        have hnumber := number.toNat_lt
        have hnext : (number + 1).toNat = number.toNat + 1 := by
          rw [UInt32.toNat_add]
          exact Nat.mod_eq_of_lt (by change number.toNat + 1 < 2 ^ 32; omega)
        obtain ⟨before, a, b, after, rfl, hlength, ha, hb⟩ := ih h.2.2 (by
          rw [hnext]
          rw [List.length_cons] at hlt
          omega)
        refine ⟨f :: before, a, b, after, rfl, ?_, ha, hb⟩
        rw [List.length_cons]
        omega
  exact ⟨before, a, b, after, hsplit, lt_of_le_of_lt (Nat.le_add_left _ _) hlength, ha, hb⟩

private theorem seq_found_of_wrap (sink : Ledger) (before : List Contents) {a b : Contents}
    (after : List Contents) (hlength : before.length < 2 ^ 32) (ha : a.sequence = 0xffffffff)
    (hb : b.sequence = 0) :
    ∃ look ∈ sink.policy.found (some (openCam sink.check sink.specs .blank id))
        (before ++ a :: b :: after), (checkOf check look).added.seqGaps = 1 := by
  have hsplit : before ++ a :: b :: after = (before ++ [a]) ++ b :: after := by simp
  have hmem := @Policy.mem_found _ _ _ sink.policy (openCam sink.check sink.specs .blank id)
    (before ++ [a]) b after
  rw [hsplit]
  refine ⟨_, hmem, ?_⟩
  have hrecord : (before ++ [a]).foldl sink.policy.advance
      (openCam sink.check sink.specs .blank id)
      = recordOf sink.check sink.specs id (before ++ [a]) := rfl
  have hframes : 0 < (recordOf sink.check sink.specs id (before ++ [a])).frames := by
    refine (frames_recordOf_pos sink.check sink.specs id ?_).mpr (by simp)
    rw [List.length_append, List.length_singleton]
    exact (Nat.succ_le_of_lt hlength).trans_lt (by norm_num)
  have hgap : b.sequence ≠ (recordOf sink.check sink.specs id (before ++ [a])).lastSeq + 1 := by
    rw [(last_recordOf sink.check sink.specs id before a).2, ha, hb]
    decide
  rw [hrecord]
  change (faultsOf check (recordOf sink.check sink.specs id (before ++ [a])) b).seqGaps = 1
  rw [(seq_faultsOf _ _ _).1, if_pos ⟨hframes, hgap⟩]

theorem Numbered.getsSlot {number : UInt32} (h : Numbered id number frames) {sink : Ledger}
    (hroom : sink.table.keys.card < sinkMaxCameras) : sink.GetsSlot frames id := by
  have hnone : frames.takeWhile (fun f ↦ sink.policy.key f ≠ id) = [] := by
    cases frames with
    | nil => rfl
    | cons f frames =>
      have hid : sink.policy.key f = id := h.1
      exact List.takeWhile_cons_of_neg (by simp [hid])
  apply Or.inr
  rw [hnone, keySet_nil, Finset.union_empty]
  exact hroom

end Gaps

/-- No frame of the camera is counted as a gap. -/
def NeverGapped (id : UInt32) (sink : Sink) (messages : List Bytes) : Prop :=
  ∀ check ∈ (recorded id sink messages).2, check.added.seqGaps = 0 ∧ check.added.seqLost = 0

section Run

variable {check : Option SinkCheck} {sink : Sink} {camera : CameraCtx V4l2Ctx} {number : UInt32}
  {envs : List (TickEnv V4l2AcquireEnv)} {messages : List Bytes}

/-- The frames of a camera the sink has not heard of are checked against what they make of a fresh
record, if they get one. -/
theorem checks_sentMessages (hserved : Served check sink) (hready : camera.Ready)
    (hnew : sink.record camera.cameraId = none) (h : LosesNothing number camera envs)
    (hins : Inserted (Foreign camera.cameraId)
      (sentMessages v4l2CameraInterface camera envs) messages) :
    (recorded camera.cameraId sink messages).2 = (sink.policy.found
      (if sink.GetsSlot (framesOf messages) camera.cameraId then
        some (openCam sink.check sink.specs .blank camera.cameraId) else none)
      (framesOf (sentMessages v4l2CameraInterface camera envs))).map (checkOf sink.check) := by
  obtain ⟨htabled, hsized⟩ := hserved.tabled
  obtain ⟨hnumbered, -⟩ := framesOf_sentMessages hready h
  have hstream : stream Contents.cameraId (framesOf messages) camera.cameraId
      = framesOf (sentMessages v4l2CameraInterface camera envs) := by
    rw [← hnumbered.stream_eq]
    exact @Policy.stream_of_inserted _ _ _ _ sink.policy _ _ _ (inserted_framesOf hins)
  have hmem : camera.cameraId ∉ sink.table.keys := by
    rw [mem_keys_iff_record htabled, hnew]
    exact Bool.false_ne_true
  rw [recorded_eq htabled hsized, Policy.looks_eq, ← hstream, Policy.start, if_neg hmem]
  rfl

/-- No gap is counted before the driver's counter wraps. -/
theorem neverGapped_of_le (hserved : Served check sink) (hready : camera.Ready)
    (hnew : sink.record camera.cameraId = none) (h : LosesNothing number camera envs)
    (hins : Inserted (Foreign camera.cameraId)
      (sentMessages v4l2CameraInterface camera envs) messages)
    (hle : number.toNat + envs.length ≤ 2 ^ 32 ∨
      ¬sink.GetsSlot (framesOf messages) camera.cameraId) :
    NeverGapped camera.cameraId sink messages := by
  obtain ⟨hnumbered, hlength⟩ := framesOf_sentMessages hready h
  rw [NeverGapped, checks_sentMessages hserved hready hnew h hins, List.forall_mem_map]
  by_cases hslot : sink.GetsSlot (framesOf messages) camera.cameraId
  · rw [or_iff_left (not_not.mpr hslot), ← hlength] at hle
    rw [if_pos hslot]
    refine seq_found_of_isChain rfl (hnumbered.isChain hle) ?_
    intro f _ hframes
    have hzero : (openCam sink.check sink.specs .blank camera.cameraId).frames = 0 :=
      frames_recordOf sink.check sink.specs camera.cameraId []
    rw [hzero] at hframes
    exact absurd hframes (by decide)
  · rw [if_neg hslot, Policy.found_none_eq]
    intro look hlook
    obtain ⟨f, -, rfl⟩ := List.mem_map.mp hlook
    exact ⟨rfl, rfl⟩

private theorem not_neverGapped_of_lt (hserved : Served check sink) (hready : camera.Ready)
    (hnew : sink.record camera.cameraId = none) (h : LosesNothing number camera envs)
    (hins : Inserted (Foreign camera.cameraId)
      (sentMessages v4l2CameraInterface camera envs) messages)
    (hlt : 2 ^ 32 < number.toNat + envs.length)
    (hslot : sink.GetsSlot (framesOf messages) camera.cameraId) :
    ¬NeverGapped camera.cameraId sink messages := by
  obtain ⟨hnumbered, hlength⟩ := framesOf_sentMessages hready h
  rw [NeverGapped, checks_sentMessages hserved hready hnew h hins, List.forall_mem_map,
    if_pos hslot]
  intro hnone
  obtain ⟨before, a, b, after, hsplit, hbefore, ha, hb⟩ := hnumbered.exists_wrap (hlength ▸ hlt)
  obtain ⟨look, hlook, hgap⟩ := @seq_found_of_wrap camera.cameraId sink.check sink.toLedger before
    a b after hbefore ha hb
  rw [hsplit] at hnone
  rw [(hnone look hlook).1] at hgap
  exact absurd hgap (by decide)

/-- **When a camera that loses nothing is never reported as gapped**: when the driver's counter does
not wrap during the run, or the sink has no slot for the camera. -/
theorem neverGapped_iff (hserved : Served check sink) (hready : camera.Ready)
    (hnew : sink.record camera.cameraId = none) (h : LosesNothing number camera envs)
    (hins : Inserted (Foreign camera.cameraId)
      (sentMessages v4l2CameraInterface camera envs) messages) :
    NeverGapped camera.cameraId sink messages ↔
      number.toNat + envs.length ≤ 2 ^ 32 ∨
        ¬sink.GetsSlot (framesOf messages) camera.cameraId := by
  refine ⟨fun hnever ↦ ?_, neverGapped_of_le hserved hready hnew h hins⟩
  by_contra hboth
  obtain ⟨hlt, hslot⟩ := not_or.mp hboth
  exact not_neverGapped_of_lt hserved hready hnew h hins (not_le.mp hlt) (not_not.mp hslot) hnever

end Run

/-! ## Two pictures -/

/-- A camera on a device that streams. -/
def streamingCamera : CameraCtx V4l2Ctx where
  frame := oneSite
  scratch := List.replicate 40 0
  scratchCap := 40
  cameraId := 7
  sent := 0
  dropped := 0
  implCtx := { oneCell 2 1 with nBuffers := 2 }

/-- A tick in which everything works. -/
def tickNumbered (number : UInt32) : TickEnv V4l2AcquireEnv where
  acquire :=
    { poll := .ready
      dqBuf := .filled ⟨0, 1, 0, number⟩
      raw := [0, 128, 255, 128]
      qBuf := true }
  stamp := 0
  send := .sent

private theorem ready_streamingCamera : streamingCamera.Ready :=
  ⟨⟨by decide, by decide⟩, by decide, by decide⟩

private theorem cameraTick_tickNumbered {camera : CameraCtx V4l2Ctx} (hready : camera.Ready)
    (hfd : 0 ≤ camera.implCtx.fd) (hbuffers : 0 < camera.implCtx.nBuffers) (number : UInt32) :
    (cameraTick v4l2CameraInterface (tickNumbered number) camera).1 = 0 ∧
      (cameraTick v4l2CameraInterface (tickNumbered number) camera).2.1.implCtx
        = camera.implCtx.filled := by
  have hreset : Frame.Sized { frameReset camera.frame with cameraId := camera.cameraId } :=
    ⟨hready.sized.support, hready.sized.signal⟩
  obtain ⟨hsized, hcap, -, hcount⟩ :=
    @sized_fillFrame camera.implCtx _ [0, 128, 255, 128] ⟨0, 1, 0, number⟩ hreset
  have hacquire : v4l2CameraInterface.acquire (tickNumbered number).acquire camera.implCtx
      { frameReset camera.frame with cameraId := camera.cameraId }
      = (0, fillFrame camera.implCtx [0, 128, 255, 128] ⟨0, 1, 0, number⟩
          { frameReset camera.frame with cameraId := camera.cameraId }, camera.implCtx.filled) := by
    have hinterface : v4l2CameraInterface.acquire = v4l2Acquire := rfl
    simp only [hinterface, v4l2Acquire, tickNumbered]
    rw [if_neg (not_lt.mpr hfd), if_neg (UInt32.not_le.mpr hbuffers)]
    rfl
  have hstamp : (fillFrame camera.implCtx [0, 128, 255, 128] ⟨0, 1, 0, number⟩
      { frameReset camera.frame with cameraId := camera.cameraId }).tNs ≠ 0 := by
    rw [fillFrame]
    change (1 : Int64) * 1000000000 + 0 * 1000 ≠ 0
    decide
  rw [cameraTick_acquired hready hacquire hsized hcap (hcap.symm ▸ hcount) hstamp]
  exact ⟨rfl, rfl⟩

private theorem losesNothing_two (number : UInt32) : LosesNothing number streamingCamera
    [tickNumbered number, tickNumbered (number + 1)] := by
  obtain ⟨hzero, hctx⟩ :=
    cameraTick_tickNumbered ready_streamingCamera (by decide) (by decide) number
  obtain ⟨hready, -, -⟩ := @cameraTick_fills _ _ _ (tickNumbered number) _
    fills_v4l2CameraInterface ready_streamingCamera
  obtain ⟨hzero', -⟩ := cameraTick_tickNumbered hready (by rw [hctx]; decide)
    (by rw [hctx]; decide) (number + 1)
  exact ⟨hzero, ⟨_, rfl, rfl⟩, hzero', ⟨_, rfl, rfl⟩, trivial⟩

/-- The first two pictures, with a message of another camera before them. -/
theorem neverGapped_two :
    ∃ sink, sinkNew (some ⟨.fin 0, .fin 1, 4⟩) = some sink ∧
      NeverGapped 7 sink (emptyMessage 3 10 0 :: sentMessages v4l2CameraInterface streamingCamera
        [tickNumbered 0, tickNumbered 1]) := by
  have hnew : sinkNew (some ⟨.fin 0, .fin 1, 4⟩) = some _ := rfl
  refine ⟨_, hnew, (neverGapped_iff (.new hnew) ready_streamingCamera (by decide +kernel)
    (losesNothing_two 0) (.add (foreign_emptyMessage (by decide) 10 0) (.refl _))).mpr ?_⟩
  exact Or.inl (by decide)

/-- The counter wraps from the first picture to the second, and the second is counted as a gap. -/
theorem not_neverGapped_wrap :
    ∃ sink, sinkNew (some ⟨.fin 0, .fin 1, 4⟩) = some sink ∧
      LosesNothing 0xffffffff streamingCamera [tickNumbered 0xffffffff, tickNumbered 0] ∧
      ¬NeverGapped 7 sink (sentMessages v4l2CameraInterface streamingCamera
        [tickNumbered 0xffffffff, tickNumbered 0]) := by
  have hnew : sinkNew (some ⟨.fin 0, .fin 1, 4⟩) = some _ := rfl
  refine ⟨_, hnew, losesNothing_two 0xffffffff, ?_⟩
  refine not_neverGapped_of_lt (.new hnew) ready_streamingCamera (by decide +kernel)
    (losesNothing_two 0xffffffff) (.refl _) (by decide) ?_
  exact (framesOf_sentMessages ready_streamingCamera
    (losesNothing_two 0xffffffff)).1.getsSlot (by decide +kernel)

end SparseCamera
