import SparseCamera.Smoke.Program
import SparseCamera.Smoke.Refinement

/-!
# What an accepted configuration rules out

The sink looks out for messages that are malformed, for sites outside a camera's grid and for
cameras it was not told of. If `main` accepts a configuration, it sees none of these, whatever kinds
of cameras there are and in whatever order things happen: every camera keeps to the spec the sink
has of it, and so does every message on the way. So what is left to the verdict is what was lost,
when it came and the values.

## The invariant

A pipeline is `Fitting` when every camera keeps to its spec, every message on the way carries a
frame that does, and the sink has counted nothing of the kind the specs rule out. The three go
together: a tick of a fitting camera puts a fitting message on the way, and a fitting message is
received without a complaint. The sink's table must have one entry for each id, since it takes the
first it finds.
-/

namespace SparseCamera

open Execution

/-! ## One message

The message parses, its frame fits the decode buffer, its sites lie below the bound, and its camera
is in the table. -/

section Message

variable {sink : Sink} {spec : SinkCamSpec} {msg : Bytes}

theorem Sink.Ready.image_ledger (h : sink.Ready) (granted : Bool) {g : Frame}
    (hholds : g.Holds g.count.toNat) (hfits : g.count ≤ sink.decoded.capacity) :
    (sinkRecv granted sink (.message g.image)).2.toLedger
      = observe sink.toLedger (some g.contents) := by
  obtain ⟨hledger, -, -⟩ := serve_message h.sized granted g.image
  have hroom : ¬sink.decoded.capacity < (FrameWireHeader.ofBytes g.image).count := by
    rw [ofBytes_image]
    exact UInt32.not_lt.mpr hfits
  rw [serve, decodeOutcome, if_neg fun hbad ↦ hroom hbad.2, parse_image hholds] at hledger
  exact hledger

/-- **A message that keeps to its spec** is counted in none of the three ways, and the buffer stays
as large as it is. -/
theorem SinkCamSpec.Carried.recv (h : spec.Carried msg) (hready : sink.Ready)
    (hdistinct : (sink.specs.map SinkCamSpec.cameraId).Nodup) (hmem : spec ∈ sink.specs)
    (hroom : spec.maxSites ≤ sink.decoded.capacity) (granted : Bool) :
    let sink' := (sinkRecv granted sink (.message msg)).2
    sink'.decoded.capacity = sink.decoded.capacity ∧
      sink'.stats.badParse = sink.stats.badParse ∧ sink'.stats.badIndex = sink.stats.badIndex ∧
      sink'.stats.unexpectedCams = sink.stats.unexpectedCams := by
  obtain ⟨g, rfl, hholds, hid, hcount, hsupport⟩ := h
  have hfits : g.count ≤ sink.decoded.capacity := UInt32.le_trans hcount hroom
  have hbound : boundOf sink.check sink.specs g.contents.cameraId = spec.maxSites := by
    rw [← boundOf_of_mem hdistinct hmem, ← hid]
    rfl
  obtain ⟨-, hcap, hparse, hindex⟩ := hready.image granted hholds hfits fun s hs ↦ by
    rw [hbound]
    exact Or.inr (hsupport s hs)
  refine ⟨hcap, hparse, hindex, ?_⟩
  rw [hready.image_ledger granted hholds hfits]
  by_contra hmoved
  obtain ⟨-, -, -, hnot⟩ := (unexpectedCams_observe hready.tabled g.contents).mp hmoved
  exact hnot ⟨spec, hmem, hid.symm⟩

end Message

/-! ## The pipeline -/

variable {n : ℕ}

/-- Every camera keeps to its spec and so does every message on the way, and the sink has seen
nothing else. -/
structure Pipeline.Fitting (specs : Fin n → SinkCamSpec) (sink : Sink) (p : Pipeline n AnyImpl) :
    Prop where
  cams : ∀ i, AnyFits (specs i) (p.cams i)
  pipes : ∀ i, ∀ msg ∈ p.pipes i, (specs i).Carried msg
  ready : p.sink.Ready
  table : p.sink.specs = sink.specs
  capacity : p.sink.decoded.capacity = sink.decoded.capacity
  badParse : p.sink.stats.badParse = 0
  badIndex : p.sink.stats.badIndex = 0
  unexpected : p.sink.stats.unexpectedCams = 0

section Fitting

variable {specs : Fin n → SinkCamSpec} {sink : Sink} {p p' : Pipeline n AnyImpl}

theorem Pipeline.Fitting.tick (h : p.Fitting specs sink) {i : Fin n} {env : TickEnv AnyEnv}
    {rc : ℤ} (htick : p.tick (fun _ ↦ anyBackend) i env = some (rc, p')) :
    p'.Fitting specs sink := by
  rw [Pipeline.tick] at htick
  split_ifs at htick
  obtain ⟨-, rfl⟩ := Prod.mk.inj (Option.some.inj htick)
  obtain ⟨hfits, hcarried⟩ := (h.cams i).tick env
  refine ⟨?_, ?_, h.ready, h.table, h.capacity, h.badParse, h.badIndex, h.unexpected⟩
  · rw [Function.forall_update_iff p.cams fun j camera ↦ AnyFits (specs j) camera]
    exact ⟨hfits, fun j _ ↦ h.cams j⟩
  · rw [Function.forall_update_iff p.pipes fun j pipe ↦ ∀ msg ∈ pipe, (specs j).Carried msg]
    refine ⟨fun msg hmsg ↦ ?_, fun j _ ↦ h.pipes j⟩
    rcases List.mem_append.mp hmsg with hmsg | hmsg
    · exact h.pipes i msg hmsg
    · exact hcarried msg (Option.mem_toList.mp hmsg)

theorem Pipeline.Fitting.recv (h : p.Fitting specs sink)
    (hdistinct : (sink.specs.map SinkCamSpec.cameraId).Nodup) (hmem : ∀ i, specs i ∈ sink.specs)
    (hroom : ∀ i, (specs i).maxSites ≤ sink.decoded.capacity) {i : Fin n} {granted : Bool}
    {rc : ℤ} (hrecv : p.recv i granted = some (rc, p')) : p'.Fitting specs sink := by
  rw [Pipeline.recv] at hrecv
  split at hrecv
  · cases hrecv
  · next msg rest hpipe =>
    obtain ⟨-, rfl⟩ := Prod.mk.inj (Option.some.inj hrecv)
    have hcarried : (specs i).Carried msg := h.pipes i msg (hpipe ▸ List.mem_cons_self)
    obtain ⟨hcap, hparse, hindex, hcams⟩ := hcarried.recv h.ready (h.table ▸ hdistinct)
      (h.table ▸ hmem i) (h.capacity ▸ hroom i) granted
    obtain ⟨hready, -, hspecs, -⟩ := h.ready.message granted msg
    refine ⟨h.cams, ?_, hready, hspecs.trans h.table, hcap.trans h.capacity,
      hparse.trans h.badParse, hindex.trans h.badIndex, hcams.trans h.unexpected⟩
    rw [Function.forall_update_iff p.pipes fun j pipe ↦ ∀ msg ∈ pipe, (specs j).Carried msg]
    refine ⟨fun msg' hmsg' ↦ h.pipes i msg' ?_, fun j _ ↦ h.pipes j⟩
    rw [hpipe]
    exact List.mem_cons_of_mem msg hmsg'

/-- **Any execution of the pipeline.** -/
theorem fitting_exec (hdistinct : (sink.specs.map SinkCamSpec.cameraId).Nodup)
    (hmem : ∀ i, specs i ∈ sink.specs) (hroom : ∀ i, (specs i).maxSites ≤ sink.decoded.capacity)
    (h : p.Fitting specs sink) {moves : List (PipelineStep n AnyEnv)}
    (hexec : exec (Pipeline.step fun _ ↦ anyBackend) p moves = some p') :
    p'.Fitting specs sink := by
  refine invariant (I := fun _ q ↦ q.Fitting specs sink) h ?_ hexec
  intro _ q move q' _ hq hstep
  cases move with
  | tick i env =>
    obtain ⟨⟨rc, q''⟩, htick, rfl⟩ := Option.map_eq_some_iff.mp hstep
    exact hq.tick htick
  | recv i granted =>
    obtain ⟨⟨rc, q''⟩, hrecv, rfl⟩ := Option.map_eq_some_iff.mp hstep
    exact hq.recv hdistinct hmem hroom hrecv

end Fitting

/-! ## The program -/

section Accepted

variable {start : Started}

theorem Started.Good.table (h : start.Good) : start.sink.specs = start.built.specs ∧
    (start.sink.specs.map SinkCamSpec.cameraId).Nodup ∧
    ∀ i, (start.built.specs.get i).maxSites ≤ start.sink.decoded.capacity := by
  obtain ⟨sections, hbuild⟩ := h.built
  obtain ⟨built, hmade⟩ := made_buildCameras hbuild
  obtain ⟨sink, granted, -, hexpect⟩ := h.sink
  obtain ⟨-, hspecs, hwide⟩ := sinkExpect_zero hexpect
  refine ⟨hspecs, ?_, fun i ↦ hwide _ (List.get_mem _ i)⟩
  rw [hspecs]
  exact hmade.distinct

/-- **What an accepted configuration rules out.** Whatever file `main` has accepted, with whatever
kinds of cameras, and whatever the backends, the connections and the scheduler do: no message is
malformed, no site is out of bounds, no camera is unknown, and the decode buffer is never grown.
When `main` returns, the status is 0 exactly if time did not run out, something was received, no
stamp went backwards, no frame was missed and every value was in range. -/
theorem accepted_verdict (h : start.Good)
    {steps : List (SmokeStep start.built.specs.length AnyEnv)}
    {s : Smoke start.built.specs.length AnyImpl}
    (hexec : exec (Smoke.step (start.launch h)) (.start (start.launch h)) steps = some s) :
    s.sink.stats.badParse = 0 ∧ s.sink.stats.badIndex = 0 ∧ s.sink.stats.unexpectedCams = 0 ∧
      s.sink.decoded.capacity = start.sink.decoded.capacity ∧
      ∀ why status, s.main = .returned why status →
        (status = 0 ↔ why ≠ .deadline ∧ s.sink.stats.received ≠ 0 ∧ s.sink.stats.backwards = 0 ∧
          s.sink.stats.seqGaps = 0 ∧ s.sink.stats.badValue = 0) := by
  obtain ⟨htable, hdistinct, hroom⟩ := h.table
  have hmem (i : Fin start.built.specs.length) :
      start.built.specs.get i ∈ start.sink.specs := by
    rw [htable]
    exact List.get_mem _ i
  have hfirst : (Smoke.start (start.launch h)).toPipeline.Fitting start.built.specs.get
      start.sink.toSink :=
    ⟨h.fits, fun _ _ hmsg ↦ absurd hmsg List.not_mem_nil, h.fresh.ready, rfl, rfl,
      congrArg SinkStats.badParse h.fresh.stats, congrArg SinkStats.badIndex h.fresh.stats,
      congrArg SinkStats.unexpectedCams h.fresh.stats⟩
  have hlast := fitting_exec hdistinct hmem hroom hfirst (exec_movesOf hexec)
  refine ⟨hlast.badParse, hlast.badIndex, hlast.unexpected, hlast.capacity, ?_⟩
  intro why status hmain
  rw [returned_exec hexec hmain]
  by_cases hlate : why = .deadline
  · rw [if_pos hlate]
    exact iff_of_false (by decide) fun hboth ↦ hboth.1 hlate
  · rw [if_neg hlate, sinkReport]
    simp only [hlast.badParse, hlast.badIndex, hlast.unexpected]
    split_ifs with hfailed
    · refine iff_of_false (by decide) ?_
      rintro ⟨-, hreceived, hbackwards, hgaps, hvalue⟩
      simp [hreceived, hbackwards, hgaps, hvalue] at hfailed
    · refine iff_of_true rfl ⟨hlate, ?_⟩
      simpa using hfailed

end Accepted

/-- With a mock camera and a webcam the status is 0, although the webcam sent nothing. -/
theorem accepted_verdict_twoKinds :
    ∃ s, exec (Smoke.step twoKindsLaunch) (.start twoKindsLaunch) twoKindsSteps = some s ∧
      s.sink.stats.badIndex = 0 ∧ s.sink.stats.received ≠ 0 ∧ s.sink.stats.seqGaps = 0 := by
  obtain ⟨s, hs, hmain⟩ := Option.map_eq_some_iff.mp exec_twoKinds
  obtain ⟨-, hindex, -, -, hverdict⟩ := accepted_verdict good_twoKinds hs
  obtain ⟨-, hreceived, -, hgaps, -⟩ := (hverdict _ _ hmain).mp rfl
  exact ⟨s, hs, hindex, hreceived, hgaps⟩

end SparseCamera
