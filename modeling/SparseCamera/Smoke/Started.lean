import SparseCamera.Smoke.Main

/-!
# What the start leaves

The start of `main` has seven ways to fail, and on each of them everything is given back, in an
order in which nothing outlives what it needs. If it does not fail, the store, the sink, the shared
context and the cameras are held, and what was built is a smoke test that can be launched.

## The construction

Each way out of the start has a log, and the logs share their beginnings. So the log is shown to
take nothing to what is standing piece by piece, one `Takes` for each thing that `main` obtains, and
a way out is the piece that goes back from there. What is obtained by the sink and by
`build_cameras` was settled with these, and is used under the names that `main` has for it.
-/

namespace SparseCamera

open CString Execution Resources

/-- What is held besides the cameras and the threads. -/
def standing : List MainResource := .zmqCtx :: sinkResources.map .sink ++ [.ini]

def entryResources (entries : List CamEntry) : List MainResource :=
  (entries.flatMap CamEntry.resources).map .startUp

/-! ## Needs

Most resources need nothing. A camera needs the shared context and its own, a webcam's context the
store, a thread its camera. -/

/-- Only cameras and threads need what is built from the configuration. -/
theorem needs_startUp {a : MainResource} (hcamera : ∀ k, a ≠ .startUp (.camera k))
    (hthread : ∀ k, a ≠ .thread k) {p : MainResource → Bool} (hp : p ∈ a.needs)
    (r : StartUpResource) : p (.startUp r) = false := by
  cases a with
  | file => cases hp
  | ini => cases hp
  | zmqCtx => cases hp
  | sink r' =>
    obtain ⟨q, -, rfl⟩ := List.mem_map.mp hp
    rfl
  | thread k => exact absurd rfl (hthread k)
  | startUp r' =>
    cases r' with
    | camera k => exact absurd rfl (hcamera k)
    | impl backend k =>
      cases backend with
      | mock => cases hp
      | v4l2 =>
        obtain rfl := List.mem_singleton.mp hp
        rfl

private theorem needs_camera {k : ℕ} {p : MainResource → Bool}
    (hp : p ∈ (MainResource.startUp (.camera k)).needs) (r : StartUpResource) :
    p (.startUp r) = true → ∃ backend, r = .impl backend k := by
  rcases List.mem_cons.mp hp with rfl | hp
  · intro hbad
    cases hbad
  · obtain rfl := List.mem_singleton.mp hp
    cases r with
    | camera k' =>
      intro hbad
      cases hbad
    | impl backend k' =>
      intro hsame
      exact ⟨backend, congrArg _ (eq_of_beq hsame)⟩

private theorem ne_of_mem_standing {a : MainResource} (ha : a ∈ standing) (r : StartUpResource) :
    a ≠ .startUp r := by
  rintro rfl
  simp [standing, sinkResources] at ha

private theorem ne_thread_of_mem_standing {a : MainResource} (ha : a ∈ standing) (k : ℕ) :
    a ≠ .thread k := by
  rintro rfl
  simp [standing, sinkResources] at ha

/-! ## The store and the sink -/

section Parts

variable {env : MainEnv} {log : List (Use MainResource)}

private theorem iniLoadLog_error {err : IniErr} (h : iniLoadLog env = (.error err, log)) :
    Takes MainResource.needs 0 log 0 := by
  rw [iniLoadLog] at h
  split at h
  · rw [← (Prod.mk.inj h).2]
    decide
  · split_ifs at h
    · rw [← (Prod.mk.inj h).2]
      decide
    · split at h
      · rw [← (Prod.mk.inj h).2]
        decide
      · next hload =>
        rw [hload] at h
        cases h

private theorem iniLoadLog_ok {ini : Ini} (h : iniLoadLog env = (.ok ini, log)) :
    ini.WellFormed ∧ Takes MainResource.needs 0 log {.ini} := by
  have hload : iniLoad env.fopen env.ini (some env.path) = .ok ini := by
    rw [iniLoadLog] at h
    split at h
    · exact (Prod.mk.inj h).1
    · split_ifs at h
      · exact (Prod.mk.inj h).1
      · split at h
        · exact (Prod.mk.inj h).1
        · exact (Prod.mk.inj h).1
  obtain ⟨hgranted, path, contents, hpath, hopen, hwell, -⟩ := iniLoad_ok_iff.mp hload
  refine ⟨hwell, ?_⟩
  obtain rfl := Option.some.inj hpath
  rw [hgranted] at hload
  simp only [iniLoadLog, hopen, hload, hgranted, Bool.true_eq_false, if_false] at h
  rw [← (Prod.mk.inj h).2]
  decide

private theorem takes_sink {sinkLog : List (Use SinkResource)} {s t : Multiset SinkResource}
    (h : Takes SinkResource.needs s sinkLog t) :
    Takes MainResource.needs (s.map .sink + {.ini}) (sinkLog.map (Use.map .sink))
      (t.map .sink + {.ini}) := by
  refine (h.map (fun _ _ ↦ MainResource.sink.inj) fun r p hp ↦ ?_).add (by decide)
  obtain ⟨q, hq, rfl⟩ := List.mem_map.mp hp
  exact ⟨q, hq, fun _ hb ↦ hb⟩

theorem takes_closeDown {sink : OpenSink}
    (hparts : sinkDel sink.parts = sinkResources.reverse.map .release) :
    Takes MainResource.needs standing (closeDown sink) 0 := by
  rw [closeDown, hparts]
  decide

end Parts

/-! ## The cameras -/

section Cameras

variable {s : Multiset MainResource} {entry : CamEntry} {k i : ℕ} {st : StartUp}
  {entries : List CamEntry}

private theorem takes_entry (hs : Grounded MainResource.needs s) (hini : .ini ∈ s)
    (hctx : .zmqCtx ∈ s)
    (h : entry.Made k) :
    Takes MainResource.needs s ((entryResources [entry]).map .acquire)
      ((entryResources [entry] : Multiset MainResource) + s) := by
  have himpl (backend : BackendKind) : Takes MainResource.needs s
      [.acquire (.startUp (.impl backend k))] (.startUp (.impl backend k) ::ₘ s) := by
    refine takes_acquire hs fun p hp ↦ ?_
    cases backend with
    | mock => cases hp
    | v4l2 =>
      obtain rfl := List.mem_singleton.mp hp
      exact ⟨.ini, hini, rfl⟩
  rw [entryResources, List.flatMap_singleton]
  rcases h with hnone | ⟨backend, hone | htwo⟩
  · rw [hnone, List.map_nil, Multiset.coe_nil, zero_add]
    exact takes_nil hs
  · rw [hone, List.map_singleton, Multiset.coe_singleton, Multiset.singleton_add]
    exact himpl backend
  · rw [htwo, List.map_cons, List.map_singleton, ← Multiset.cons_coe, Multiset.coe_singleton,
      Multiset.cons_add, Multiset.singleton_add]
    have hcamera := @takes_acquire _ _ _ _ (.startUp (.camera k)) (himpl backend).grounded ?_
    · have hboth := (himpl backend).append hcamera
      rw [Multiset.cons_swap] at hboth
      exact hboth
    · intro p hp
      rcases List.mem_cons.mp hp with rfl | hp
      · exact ⟨.zmqCtx, Multiset.mem_cons_of_mem hctx, rfl⟩
      · obtain rfl := List.mem_singleton.mp hp
        exact ⟨.startUp (.impl backend k), Multiset.mem_cons_self _ _, beq_self_eq_true k⟩

private theorem entryResources_cons (entry : CamEntry) (entries : List CamEntry) :
    entryResources (entry :: entries) = entryResources [entry] ++ entryResources entries := by
  rw [entryResources, entryResources, entryResources, List.flatMap_cons, List.flatMap_singleton,
    List.map_append]

/-- **All entries are filled.** -/
theorem takes_entries (hs : Grounded MainResource.needs s)
    (hini : .ini ∈ s) (hctx : .zmqCtx ∈ s) (h : ∀ entry ∈ entries, ∃ k, entry.Made k) :
    Takes MainResource.needs s ((entryResources entries).map .acquire)
      ((entryResources entries : Multiset MainResource) + s) := by
  induction entries generalizing s with
  | nil =>
    rw [entryResources, List.flatMap_nil, List.map_nil, Multiset.coe_nil, zero_add]
    exact takes_nil hs
  | cons entry entries ih =>
    obtain ⟨k, hmade⟩ := h entry List.mem_cons_self
    have hfirst := takes_entry hs hini hctx hmade
    have hrest := ih hfirst.grounded (Multiset.mem_add.mpr (Or.inr hini))
      (Multiset.mem_add.mpr (Or.inr hctx)) fun entry' hentry' ↦
        h entry' (List.mem_cons_of_mem entry hentry')
    have hall := hfirst.append hrest
    rw [← add_assoc, add_comm (entryResources entries : Multiset MainResource)] at hall
    rw [entryResources_cons, List.map_append, ← Multiset.coe_add]
    exact hall

private theorem takes_built (hs : Grounded MainResource.needs s) (hini : .ini ∈ s)
    (hctx : .zmqCtx ∈ s)
    (h : st.Holding i entries) :
    Takes MainResource.needs s (st.log.map (Use.map .startUp))
      ((entryResources entries : Multiset MainResource) + s) := by
  rw [h.log, map_acquires]
  refine takes_entries hs hini hctx fun entry hentry ↦ ?_
  obtain ⟨k, -, hmade⟩ := h.made entry hentry
  exact ⟨k, hmade⟩

/-- **`cams_release`** gives back what is in the table, a camera before its context. -/
theorem takes_released (h : st.Holding i entries) {m : ℕ} (hm : entries.length ≤ m)
    (hall : Grounded MainResource.needs ((entryResources entries : Multiset MainResource) + s))
    (hs : ∀ a ∈ s, (∀ r, a ≠ .startUp r) ∧ ∀ k, a ≠ .thread k) :
    Takes MainResource.needs ((entryResources entries : Multiset MainResource) + s)
      ((camsRelease st.cams m).2.map (Use.map .startUp)) s := by
  have hperm : ((entries.flatMap fun entry ↦ entry.resources.reverse).map
      MainResource.startUp).Perm (entryResources entries) :=
    (List.Perm.flatMap_left entries fun entry _ ↦ List.reverse_perm _).map _
  rw [(h.released hm).1, map_releases]
  rw [← Multiset.coe_eq_coe.mpr hperm] at hall ⊢
  refine takes_releases hall ?_ ?_
  · rw [List.pairwise_map, List.pairwise_flatMap]
    refine ⟨fun entry hentry ↦ ?_, h.apart.imp ?_⟩
    · -- within an entry the camera goes first
      obtain ⟨k, -, hnone | ⟨backend, hone | htwo⟩⟩ := h.made entry hentry
      · simp [hnone]
      · simp [hone]
      · rw [htwo]
        refine List.pairwise_pair.mpr fun p hp ↦ ?_
        exact needs_startUp (by simp) (by simp) hp _
    · -- cameras of different sections have nothing to do with each other
      intro a b hapart r hr r' hr' p hp
      have hne := hapart r (List.mem_reverse.mp hr) r' (List.mem_reverse.mp hr')
      cases r' with
      | impl backend k => exact needs_startUp (by simp) (by simp) hp r
      | camera k =>
        rw [← Bool.not_eq_true]
        intro hneeds
        obtain ⟨backend, rfl⟩ := needs_camera hp r hneeds
        exact hne rfl
  · intro r hr a ha p hp
    obtain ⟨r', -, rfl⟩ := List.mem_map.mp hr
    obtain ⟨hstart, hthread⟩ := hs a ha
    exact needs_startUp (fun k ↦ hstart _) hthread hp r'

/-- **`build_cameras` and `cams_release`**, beside what is held anyway. -/
theorem takes_buildCameras (env : ℕ → SectionEnv) (ini : Ini) (sc : SinkConf) :
    let result := buildCameras env ini sc
    ∃ entries, Takes MainResource.needs standing (result.1.log.map (Use.map .startUp))
        ((entryResources entries : Multiset MainResource) + standing) ∧
      entries.length ≤ sinkMaxCameras ∧
      (∀ m, entries.length ≤ m → Takes MainResource.needs
        ((entryResources entries : Multiset MainResource) + standing)
        ((camsRelease result.1.cams m).2.map (Use.map .startUp)) standing) ∧
      (result.2 = none → entries = result.1.cams.take result.1.specs.length ∧
        entries.length = result.1.specs.length) := by
  intro result
  obtain ⟨i, entries, h, hcount⟩ :=
    @holding_buildCamerasFrom ini sc .start 0 [] env ini.sections holding_start rfl
  have htakes := takes_built (s := standing) (by decide) (by decide) (by decide) h
  refine ⟨entries, htakes, h.few, fun m hm ↦ ?_, fun hnone ↦ ?_⟩
  · exact takes_released h hm htakes.grounded fun a ha ↦
      ⟨ne_of_mem_standing ha, ne_thread_of_mem_standing ha⟩
  · have hlen : result.1.specs.length = entries.length := hcount hnone
    have hcams : result.1.cams
        = entries ++ List.replicate (sinkMaxCameras - entries.length) .blank := h.cams
    rw [hlen, hcams, List.take_left]
    exact ⟨rfl, rfl⟩

end Cameras

/-! ## The start -/

/-- What is known when the first thread is about to be created. -/
structure Started.Good (start : Started) : Prop where
  wellFormed : start.ini.WellFormed
  conf : loadSinkConf start.ini = .ok start.conf
  built : ∃ sections, buildCameras sections start.ini start.conf = (start.built, none)
  cameras : start.built.specs.length ≠ 0
  sink : ∃ sink granted, sinkNew (some start.conf.check) = some sink ∧
    sinkExpect granted sink start.built.specs = (0, start.sink.toSink)
  parts : sinkDel start.sink.parts = sinkResources.reverse.map .release

def Started.entries (start : Started) : List CamEntry :=
  start.built.cams.take start.built.specs.length

/-- Nothing is left of a start that fails, and one that succeeds leaves the standing resources and
the cameras. -/
def Leaves (result : Except StartErr Started × List (Use MainResource)) : Prop :=
  (∀ err, result.1 = .error err → Takes MainResource.needs 0 result.2 0) ∧
  ∀ start, result.1 = .ok start → start.Good ∧ Takes MainResource.needs 0 result.2
    ((entryResources start.entries : Multiset MainResource) + standing)

section Start

variable {env : MainEnv} {log : List (Use MainResource)}

private theorem leaves_error {err : StartErr} (h : Takes MainResource.needs 0 log 0) :
    Leaves (.error err, log) :=
  ⟨fun _ _ ↦ h, fun _ hok ↦ by cases hok⟩

/-- **On every way out of the start.** -/
theorem leaves_mainStart (env : MainEnv) : Leaves (mainStart env) := by
  have hfree : Takes MainResource.needs {.ini} [.release .ini] 0 := by decide
  rw [mainStart]
  cases hload : iniLoadLog env with
  | mk result log =>
  cases result with
  | error err => exact leaves_error (iniLoadLog_error hload)
  | ok ini =>
  obtain ⟨hwell, hini⟩ := iniLoadLog_ok hload
  simp only
  cases hconf : loadSinkConf ini with
  | error err => exact leaves_error (hini.append hfree)
  | ok conf =>
  simp only
  cases hopen : sinkNewWith env.sink conf.endpoint (some conf.check) with
  | mk result sinkLog =>
  cases result with
  | none =>
    have hnone := takes_sink (sinkNewWith_none hopen)
    rw [Multiset.map_zero, zero_add] at hnone
    exact leaves_error ((hini.append hnone).append hfree)
  | some sink =>
  obtain ⟨hnew, hlog, hparts⟩ := sinkNewWith_some hopen
  have hsink := takes_sink takes_sinkResources
  rw [Multiset.map_zero, zero_add, ← hlog] at hsink
  have hobtained := hini.append hsink
  simp only
  by_cases hctx : env.zmqCtx = false
  · rw [if_pos hctx]
    refine leaves_error ((hobtained.append ?_).append hfree)
    rw [hparts]
    decide
  rw [if_neg hctx]
  have hstanding : Takes MainResource.needs 0
      (log ++ sinkLog.map (Use.map .sink) ++ [.acquire .zmqCtx]) standing :=
    hobtained.append (takes_acquire hobtained.grounded fun p hp ↦ by cases hp)
  have hclose (told : Sink) : Takes MainResource.needs standing
      (closeDown { toSink := told, parts := sink.parts }) 0 := takes_closeDown hparts
  obtain ⟨entries, hbuilt, hfew, hreleased, hcount⟩ := takes_buildCameras env.sections ini conf
  have hall := hstanding.append hbuilt
  cases hbuild : buildCameras env.sections ini conf with
  | mk built err =>
  rw [hbuild] at hbuilt hreleased hcount hall
  cases err with
  | some err => exact leaves_error ((hall.append (hreleased _ hfew)).append (hclose sink.toSink))
  | none =>
  obtain ⟨hentries, hlen⟩ := hcount rfl
  simp only
  by_cases hnone : built.specs.length = 0
  · -- no camera, so the table is empty
    rw [if_pos hnone]
    obtain rfl : entries = [] := List.length_eq_zero_iff.mp (hlen.trans hnone)
    exact leaves_error (hall.append (hclose sink.toSink))
  rw [if_neg hnone]
  cases hexpect : sinkExpect env.expect sink.toSink built.specs with
  | mk rc told =>
  simp only
  by_cases hrc : rc ≠ 0
  · rw [if_pos hrc]
    exact leaves_error ((hall.append (hreleased _ hlen.le)).append (hclose told))
  · rw [if_neg hrc]
    refine ⟨fun err herr ↦ absurd herr (by simp), fun start hstart ↦ ?_⟩
    obtain rfl := Except.ok.inj hstart
    rw [not_not.mp hrc] at hexpect
    refine ⟨⟨hwell, hconf, ⟨env.sections, hbuild⟩, hnone, ⟨_, _, hnew, hexpect⟩, hparts⟩, ?_⟩
    rw [Started.entries, ← hentries]
    exact hall

end Start

end SparseCamera
