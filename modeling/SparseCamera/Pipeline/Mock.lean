import Mathlib.Data.Bool.Count
import SparseCamera.Camera.Mock
import SparseCamera.Lib.LossyStream
import SparseCamera.Lib.Pointwise

/-!
# Mock cameras as the program builds them

A configuration gives each mock camera an id, a grid, a number of sites and a rate.
`buildMockCameras` accepts or rejects it as `build_cameras` does and yields the cameras with the
table of specs for the sink. Here is also what an accepted camera does over all its ticks:
`Producing` relates it to the list of frames it got rid of.

## The invariant

`Producing` says of a mock camera after some ticks what the ticks were and what it made. `sends` has
an entry for each tick, whether its message was taken. The numbers of the frames that were taken are
the positions of these ticks, since a mock camera numbers a frame before it is sent and a drop
leaves a hole. The stamps rise and stay below the next deadline, and the next stamp cannot lie
before that.
-/

namespace SparseCamera

open Memory LossyStream

/-- The values of the keys of an enabled section with the mock backend. -/
structure MockSection where
  id : UInt32
  rows : UInt32
  cols : UInt32
  sites : UInt32
  fps : ExtRat
deriving DecidableEq

/-- `mock_from_ini`, from where the values are read; `parse_grid` rejects an empty grid. -/
def mockFromIni (sec : MockSection) : Option MockCtx :=
  if sec.rows = 0 ∨ sec.cols = 0 then none
  else if sec.fps.le (.fin 0) then none
  else if sec.sites = 0 then none
  else mockCtxCreate { rows := sec.rows, cols := sec.cols, sites := sec.sites, fps := sec.fps }

/-- The body of the loop of `build_cameras` for a new id; `now` is the clock `init` reads. -/
def buildMockCamera (now : Int64) (sec : MockSection) :
    Option (CameraCtx MockCtx × SinkCamSpec) :=
  match mockFromIni sec with
  | none => none
  | some impl =>
    let maxSites := mockMaxSites impl
    -- a frame counts its sites in 32 bits
    if maxSites = 0 ∨ 0xffffffff < maxSites then none
    else
      match cameraNew sec.id maxSites (mockInit now) impl with
      | none => none
      | some camera => some (camera,
          { cameraId := sec.id
            maxSites := maxSites.toUInt32
            expectPeriodMs :=
              if ExtRat.lt (.fin 0) sec.fps then .fin 1000 / sec.fps else .fin 0 })

/-- `build_cameras` on sections with the mock backend. -/
def buildMockCameras (sections : List (MockSection × Int64)) :
    Option (List (CameraCtx MockCtx × SinkCamSpec)) :=
  sections.foldlM (fun built sec ↦
    if sinkMaxCameras ≤ built.length then none
    else if built.any fun cam ↦ cam.2.cameraId == sec.1.id then none
    else (buildMockCamera sec.2 sec.1).map fun cam ↦ built ++ [cam]) []

/-! ## What a mock camera puts out -/

/-- A frame of a mock camera with a grid of `total` cells. -/
structure MockFrame (id : UInt32) (total : ℕ) (f : Contents) : Prop where
  cameraId : f.cameraId = id
  length : f.support.length ≤ total
  support : ∀ s ∈ f.support, s.toNat < total
  values : ValuesGood f

/-- A mock camera with a grid of `total` cells whose ticks so far did or did not get rid of a
frame, as `sends` says, and the frames it got rid of. -/
structure Producing (id : UInt32) (total : ℕ) (camera : CameraCtx MockCtx) (sends : List Bool)
    (produced : List Contents) : Prop where
  ready : camera.Ready
  capacity : camera.frame.capacity.toNat = total
  cameraId : camera.cameraId = id
  running : camera.implCtx.Running total sends.length
  sent : camera.sent = UInt64.ofNat (sends.count true)
  dropped : camera.dropped = UInt64.ofNat (sends.count false)
  sequences : produced.map Contents.sequence = (positions 0 sends).map UInt64.ofNat
  stamps : produced.IsChain Advances
  past : ∀ f ∈ produced, f.tNs < camera.implCtx.nextNs
  frames : ∀ f ∈ produced, MockFrame id total f

section Producing

variable {id : UInt32} {total : ℕ} {camera : CameraCtx MockCtx} {sends : List Bool}
  {produced : List Contents}

theorem Producing.length_eq (h : Producing id total camera sends produced) :
    produced.length = sends.count true := by
  have := congrArg List.length h.sequences
  rwa [List.length_map, List.length_map, length_positions] at this

theorem Producing.positive (h : Producing id total camera sends produced) : 0 < total :=
  h.running.pos

/-- Nothing is lost between the counters: every frame the backend numbered was sent or dropped. -/
theorem Producing.sent_add_dropped (h : Producing id total camera sends produced)
    (hlt : sends.length < 2 ^ 64) :
    camera.sent.toNat + camera.dropped.toNat = sends.length ∧
      camera.implCtx.sequence.toNat = sends.length := by
  have hlen := List.count_true_add_count_false sends
  have hsent : sends.count true < 2 ^ 64 := by omega
  have hdropped : sends.count false < 2 ^ 64 := by omega
  rw [h.sent, h.dropped, h.running.sequence, UInt64.toNat_ofNat_of_lt' hsent,
    UInt64.toNat_ofNat_of_lt' hdropped, UInt64.toNat_ofNat_of_lt' hlt]
  exact ⟨hlen, rfl⟩

private theorem isChain_concat_advances {f : Contents} (hchain : produced.IsChain Advances)
    (hlast : ∀ g ∈ produced, g.tNs < f.tNs) : (produced ++ [f]).IsChain Advances := by
  refine hchain.append (List.isChain_singleton f) ?_
  intro g hg g' hg'
  obtain rfl := List.mem_singleton.mp (List.mem_of_mem_head? hg')
  exact hlast g (List.mem_of_mem_getLast? hg)

/-- **One tick of a mock camera** acquires a frame. If the socket takes the message it carries that
frame, and if not the frame is counted as dropped. -/
theorem Producing.tick (h : Producing id total camera sends produced) (env : TickEnv Int64)
    (hallowed : camera.implCtx.allowed env.acquire = true) (hsend : env.send ≠ .failed) :
    ∃ rc camera' image f,
      cameraTick mockCameraInterface env camera
        = (rc, camera', if env.send = .sent then some image else none) ∧
      parse image = some f ∧ MockFrame id total f ∧
      Producing id total camera' (sends ++ [decide (env.send = .sent)])
        (if env.send = .sent then produced ++ [f] else produced) := by
  have hreset : Frame.Sized { frameReset camera.frame with cameraId := camera.cameraId } :=
    ⟨h.ready.sized.support, h.ready.sized.signal⟩
  obtain ⟨frame, ctx', hacquire, hsized, hcap, hcount, hstamp, hid, hseq, hsupport, hvalues,
    hrunning, hnext⟩ := mockAcquire_running h.running hallowed hreset
  have hfits : frame.Holds frame.count.toNat := hsized.mono (UInt32.le_iff_toNat_le.mp hcount)
  have hallowed' := hallowed
  simp only [MockCtx.allowed, Bool.and_eq_true, decide_eq_true_eq] at hallowed'
  -- the backend stamped the frame, with a time after the start of the clock
  have hpos : frame.tNs ≠ 0 := by
    rw [hstamp]
    rintro hzero
    exact absurd hallowed'.1.1.2 (by rw [hzero]; decide)
  have htick := @cameraTick_acquired _ _ mockCameraInterface env _ h.ready _ _ hacquire hsized hcap
    hcount hpos
  have hframe : MockFrame id total frame.contents := by
    refine ⟨hid.trans h.cameraId, ?_, hsupport, hvalues⟩
    rw [length_support_contents hfits, ← h.capacity]
    exact (UInt32.le_iff_toNat_le.mp hcount).trans_eq (congrArg UInt32.toNat hcap)
  -- a tick is never before its deadline, and every frame so far was
  have hpast (g : Contents) (hg : g ∈ produced) : g.tNs < env.acquire :=
    Int64.lt_of_lt_of_le (h.past g hg) hallowed'.1.1.1
  have hready := ready_cameraTick_acquired h.ready hsized hcap hcount ctx'
  have hcapacity : frame.capacity.toNat = total := by
    rw [hcap]
    exact h.capacity
  have hlen : (sends ++ [decide (env.send = .sent)]).length = sends.length + 1 := by simp
  cases hout : env.send with
  | failed => exact absurd hout hsend
  | again =>
    rw [hout] at htick
    refine ⟨_, _, frame.image, frame.contents, htick, parse_image hfits, hframe, hready _ _,
      hcapacity, h.cameraId, ?_, ?_, ?_, ?_, h.stamps, ?_, h.frames⟩
    · simpa using hrunning
    · simpa using h.sent
    · simp [h.dropped, UInt64.ofNat_add]
    · simp [positions_concat, h.sequences]
    · intro g hg
      exact Int64.lt_trans (hpast g hg) hnext
  | sent =>
    rw [hout] at htick
    refine ⟨_, _, frame.image, frame.contents, htick, parse_image hfits, hframe, hready _ _,
      hcapacity, h.cameraId, ?_, ?_, ?_, ?_, ?_, ?_, ?_⟩
    · simpa using hrunning
    · simp [h.sent, UInt64.ofNat_add]
    · simpa using h.dropped
    · simp [positions_concat, h.sequences, Frame.contents, hseq]
    · refine isChain_concat_advances h.stamps ?_
      intro g hg
      exact (hpast g hg).trans_eq hstamp.symm
    · intro g hg
      rcases List.mem_append.mp hg with hg | hg
      · exact Int64.lt_trans (hpast g hg) hnext
      · obtain rfl := List.mem_singleton.mp hg
        exact hstamp.trans_lt hnext
    · intro g hg
      rcases List.mem_append.mp hg with hg | hg
      · exact h.frames g hg
      · obtain rfl := List.mem_singleton.mp hg
        exact hframe

end Producing

/-! ## An accepted configuration

What the checks of `build_cameras` are for: the number of cells fits 32 bits, so the grid, the frame
and the table agree on it, and no two cameras share an id. -/

/-- The grid in 32 bits is the grid, when it has at most `2 ^ 32 - 1` cells. -/
theorem toNat_grid {ctx : MockCtx} (h : ¬0xffffffff < mockMaxSites ctx) :
    (ctx.cfg.rows * ctx.cfg.cols).toNat = (mockMaxSites ctx).toNat := by
  have hsites : (mockMaxSites ctx).toNat = ctx.cfg.rows.toNat * ctx.cfg.cols.toNat :=
    toNat_mul_toUInt64 _ _
  have hle := UInt64.le_iff_toNat_le.mp (UInt64.not_lt.mp h)
  rw [hsites] at hle ⊢
  rw [UInt32.toNat_mul, Nat.mod_eq_of_lt]
  exact Nat.lt_of_le_of_lt hle (by decide)

/-- A camera that was built is running, and its spec bounds the sites it emits by its grid. -/
theorem buildMockCamera_spec {now : Int64} {sec : MockSection}
    {cam : CameraCtx MockCtx × SinkCamSpec} (h : buildMockCamera now sec = some cam) :
    cam.2.cameraId = sec.id ∧
      Producing cam.2.cameraId cam.2.maxSites.toNat cam.1 [] [] := by
  simp only [buildMockCamera] at h
  split at h
  · cases h
  · next impl himpl =>
    by_cases hsites : mockMaxSites impl = 0 ∨ 0xffffffff < mockMaxSites impl
    · rw [if_pos hsites] at h
      cases h
    rw [if_neg hsites] at h
    split at h
    · cases h
    · next camera hcamera =>
      obtain rfl := Option.some.inj h
      obtain ⟨hzero, hmax⟩ := not_or.mp hsites
      have himpl' : 0 < impl.periodNs := by
        simp only [mockFromIni] at himpl
        split_ifs at himpl
        exact (mockCtxCreate_spec himpl).2
      have hle := UInt64.le_iff_toNat_le.mp (UInt64.not_lt.mp hmax)
      have hlt : (mockMaxSites impl).toNat < 2 ^ 32 := Nat.lt_of_le_of_lt hle (by decide)
      have hpos : 0 < (mockMaxSites impl).toNat := by
        refine Nat.pos_of_ne_zero fun hnat ↦ hzero ?_
        exact UInt64.toNat_inj.mp hnat
      have htotal : (mockMaxSites impl).toUInt32.toNat = (mockMaxSites impl).toNat := by
        rw [UInt64.toNat_toUInt32, Nat.mod_eq_of_lt hlt]
      obtain ⟨hready, hcap, hid, hsent, hdropped, hinit⟩ := ready_cameraNew hcamera hlt
      rw [mockInit, if_neg (Int64.not_le.mpr himpl')] at hinit
      have hctx := congrArg Prod.snd hinit
      simp only at hctx
      refine ⟨rfl, hready, hcap.trans htotal.symm, hid, ⟨?_, ?_, ?_, ?_, ?_⟩, hsent, hdropped, rfl,
        List.IsChain.nil, ?_, ?_⟩
      · rw [← hctx]
      · rw [← hctx]
        exact himpl'
      · rw [← hctx, htotal]
        exact toNat_grid hmax
      · rw [htotal]
        exact hpos
      · rw [← hctx]
        rfl
      · simp
      · simp

section Cameras

variable {sections : List (MockSection × Int64)} {built : List (CameraCtx MockCtx × SinkCamSpec)}

private theorem buildMockCameras_concat {sec : MockSection × Int64} :
    buildMockCameras (sections ++ [sec]) = some built ↔
      ∃ front cam, buildMockCameras sections = some front ∧ front.length < sinkMaxCameras ∧
        (∀ cam' ∈ front, cam'.2.cameraId ≠ sec.1.id) ∧
        buildMockCamera sec.2 sec.1 = some cam ∧ built = front ++ [cam] := by
  have hstep (front : List (CameraCtx MockCtx × SinkCamSpec)) :
      (if sinkMaxCameras ≤ front.length then none
        else if front.any fun cam ↦ cam.2.cameraId == sec.1.id then none
        else (buildMockCamera sec.2 sec.1).map fun cam ↦ front ++ [cam]) = some built ↔
      ∃ cam, front.length < sinkMaxCameras ∧ (∀ cam' ∈ front, cam'.2.cameraId ≠ sec.1.id) ∧
        buildMockCamera sec.2 sec.1 = some cam ∧ built = front ++ [cam] := by
    split_ifs with hroom hnew
    · exact iff_of_false not_false fun ⟨_, hlt, _⟩ ↦ absurd hlt (not_lt.mpr hroom)
    · obtain ⟨cam', hcam', hid⟩ := List.any_eq_true.mp hnew
      exact iff_of_false not_false
        fun ⟨_, _, hne, _⟩ ↦ hne cam' hcam' (beq_iff_eq.mp hid)
    · rw [Option.map_eq_some_iff]
      refine exists_congr fun cam ↦ ⟨fun ⟨hcam, heq⟩ ↦ ⟨not_le.mp hroom, ?_, hcam, heq.symm⟩,
        fun ⟨_, _, hcam, heq⟩ ↦ ⟨hcam, heq.symm⟩⟩
      exact fun cam' hcam' hid ↦ hnew (List.any_eq_true.mpr ⟨cam', hcam', beq_iff_eq.mpr hid⟩)
  rw [buildMockCameras, List.foldlM_append]
  simp only [List.foldlM_cons, List.foldlM_nil, Option.pure_def, Option.bind_eq_bind,
    Option.bind_fun_some, Option.bind_eq_some_iff, hstep]
  exact exists_congr fun front ↦ (exists_and_left).symm

/-- **What `build_cameras` accepts**: at most sixteen sections with ids of their own, if a camera
can be built from each. -/
theorem buildMockCameras_eq_some : buildMockCameras sections = some built ↔
    List.Forall₂ (fun sec cam ↦ buildMockCamera sec.2 sec.1 = some cam) sections built ∧
      built.length ≤ sinkMaxCameras ∧ (built.map fun cam ↦ cam.2.cameraId).Nodup := by
  induction sections using List.reverseRecOn generalizing built with
  | nil =>
    rw [List.forall₂_nil_left_iff]
    constructor
    · intro h
      obtain rfl := Option.some.inj h
      exact ⟨rfl, Nat.zero_le _, List.nodup_nil⟩
    · rintro ⟨rfl, -⟩
      rfl
  | append_singleton sections sec ih =>
    rw [buildMockCameras_concat, forall₂_concat_left]
    constructor
    · rintro ⟨front, cam, hfront, hroom, hnew, hcam, rfl⟩
      obtain ⟨hall, -, hnodup⟩ := ih.mp hfront
      refine ⟨⟨front, cam, hall, hcam, rfl⟩, ?_, ?_⟩
      · rw [List.length_append, List.length_singleton]
        exact hroom
      · rw [List.map_append, List.nodup_append]
        refine ⟨hnodup, List.nodup_singleton _, fun a ha b hb heq ↦ ?_⟩
        obtain ⟨cam', hcam', rfl⟩ := List.mem_map.mp ha
        obtain rfl := List.mem_singleton.mp hb
        exact hnew cam' hcam' (heq.trans (buildMockCamera_spec hcam).1)
    · rintro ⟨⟨front, cam, hall, hcam, rfl⟩, hlen, hnodup⟩
      rw [List.length_append, List.length_singleton] at hlen
      rw [List.map_append, List.nodup_append] at hnodup
      obtain ⟨hfront, -, hne⟩ := hnodup
      refine ⟨front, cam, ih.mpr ⟨hall, Nat.le_of_succ_le hlen, hfront⟩, hlen, fun cam' hcam' ↦ ?_,
        hcam, rfl⟩
      rw [← (buildMockCamera_spec hcam).1]
      exact hne _ (List.mem_map_of_mem hcam') _ (List.mem_singleton_self _)

theorem buildMockCameras_spec (h : buildMockCameras sections = some built) :
    built.length ≤ sinkMaxCameras ∧ (built.map fun cam ↦ cam.2.cameraId).Nodup ∧
      ∀ cam ∈ built, Producing cam.2.cameraId cam.2.maxSites.toNat cam.1 [] [] := by
  obtain ⟨hall, hlen, hnodup⟩ := buildMockCameras_eq_some.mp h
  refine ⟨hlen, hnodup, fun cam hcam ↦ ?_⟩
  obtain ⟨sec, -, hbuilt⟩ := exists_of_mem_right hall hcam
  exact (buildMockCamera_spec hbuilt).2

end Cameras

end SparseCamera
