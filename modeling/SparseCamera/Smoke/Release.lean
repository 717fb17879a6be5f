import SparseCamera.Smoke.Build

/-!
# A failed start gives everything back

Whatever section `build_cameras` stops at, what it has obtained is in the table, and the entries it
did not get to are blank. So `cams_release` over the whole table finds all of it, and over the
entries that are counted when nothing went wrong.

## The invariant

`StartUp.Holding` says of the table and the log that they agree: what was obtained is what the
entries point to, entry by entry and in order. The entries behind them are blank and point to
nothing. Each section uses its own number, so no two entries share a resource.
-/

namespace SparseCamera

open CString Resources

/-- The number a resource goes by. -/
def StartUpResource.handle : StartUpResource → ℕ
  | impl _ handle => handle
  | camera handle => handle

/-- What an entry points to, in the order in which it was obtained. -/
def CamEntry.resources (entry : CamEntry) : List StartUpResource :=
  entry.attached.elim [] fun attached ↦
    (attached.impl.toList.map fun impl ↦ .impl attached.backend impl.handle) ++
      attached.camera.toList.map fun camera ↦ .camera camera.handle

/-- The entry of section `i`: nothing came of it, or a context, or a context with a camera. -/
def CamEntry.Made (i : ℕ) (entry : CamEntry) : Prop :=
  entry.resources = [] ∨ ∃ backend, entry.resources = [.impl backend i] ∨
    entry.resources = [.impl backend i, .camera i]

section Entry

variable {env : SectionEnv} {ini : Ini} {sc : SinkConf} {i : ℕ} {name : Bytes}
  {request : CamRequest} {entry : CamEntry}

private theorem buildEntry_resources :
    (buildEntry env ini sc i name request).2.1
        = (buildEntry env ini sc i name request).1.resources.map .acquire ∧
      (buildEntry env ini sc i name request).1.Made i := by
  simp only [buildEntry]
  split
  · exact ⟨rfl, Or.inl rfl⟩
  · split
    · exact ⟨rfl, Or.inr ⟨_, Or.inl rfl⟩⟩
    · split
      · exact ⟨rfl, Or.inr ⟨_, Or.inl rfl⟩⟩
      · exact ⟨rfl, Or.inr ⟨_, Or.inr rfl⟩⟩

/-- An entry is given back in the opposite order, and nothing is left in it. -/
theorem camRelease_resources (entry : CamEntry) :
    (camRelease entry).2 = entry.resources.reverse.map .release ∧
      (camRelease entry).1.resources = [] := by
  obtain ⟨label, want, attached⟩ := entry
  cases attached with
  | none => exact ⟨rfl, rfl⟩
  | some attached =>
    obtain ⟨backend, impl, camera⟩ := attached
    refine ⟨?_, rfl⟩
    cases impl with
    | none => cases camera <;> rfl
    | some impl => cases camera <;> rfl

theorem CamEntry.Made.handle_eq (h : entry.Made i) {r : StartUpResource}
    (hr : r ∈ entry.resources) : r.handle = i := by
  rcases h with hnone | ⟨backend, himpl | hboth⟩
  · simp [hnone] at hr
  · rw [himpl, List.mem_singleton] at hr
    rw [hr]
    rfl
  · rw [hboth, List.mem_cons, List.mem_singleton] at hr
    rcases hr with rfl | rfl
    · rfl
    · rfl

theorem CamEntry.Made.nodup (h : entry.Made i) : entry.resources.Nodup := by
  rcases h with hnone | ⟨backend, himpl | hboth⟩
  · simp [hnone]
  · simp [himpl]
  · simp [hboth]

end Entry

/-! ## The table -/

/-- The first entries of the table hold what was obtained up to section `i`, each what one section
came to, and the rest is blank. -/
structure StartUp.Holding (st : StartUp) (i : ℕ) (built : List CamEntry) : Prop where
  cams : st.cams = built ++ List.replicate (sinkMaxCameras - built.length) .blank
  few : built.length ≤ sinkMaxCameras
  log : st.log = (built.flatMap CamEntry.resources).map .acquire
  made : ∀ entry ∈ built, ∃ k < i, entry.Made k
  apart : built.Pairwise fun a b ↦ ∀ r ∈ a.resources, ∀ r' ∈ b.resources, r.handle ≠ r'.handle

section Table

variable {ini : Ini} {sc : SinkConf} {st : StartUp} {i : ℕ} {built : List CamEntry}

theorem holding_start : StartUp.start.Holding 0 [] where
  cams := rfl
  few := Nat.zero_le _
  log := rfl
  made := by simp
  apart := List.Pairwise.nil

theorem StartUp.Holding.mono (h : st.Holding i built) : st.Holding (i + 1) built where
  cams := h.cams
  few := h.few
  log := h.log
  made entry hentry := by
    obtain ⟨k, hk, hmade⟩ := h.made entry hentry
    exact ⟨k, Nat.lt_succ_of_lt hk, hmade⟩
  apart := h.apart

theorem StartUp.Holding.concat (h : st.Holding i built) (hroom : built.length < sinkMaxCameras)
    {entry : CamEntry} (hmade : entry.Made i) (specs : List SinkCamSpec) :
    StartUp.Holding
      { cams := st.cams.set built.length entry
        specs := specs
        log := st.log ++ entry.resources.map .acquire } (i + 1) (built ++ [entry]) where
  cams := by rw [h.cams, set_blank hroom]
  few := by
    rw [List.length_append, List.length_singleton]
    exact hroom
  log := by
    rw [h.log, List.flatMap_append, List.map_append, List.flatMap_singleton]
  made := by
    rw [List.forall_mem_append]
    refine ⟨h.mono.made, ?_⟩
    intro entry' hentry'
    obtain rfl := List.mem_singleton.mp hentry'
    exact ⟨i, Nat.lt_succ_self i, hmade⟩
  apart := by
    refine List.pairwise_append.mpr ⟨h.apart, List.pairwise_singleton _ _, ?_⟩
    intro a ha b hb r hr r' hr'
    obtain rfl := List.mem_singleton.mp hb
    obtain ⟨k, hk, hmade'⟩ := h.made a ha
    rw [hmade'.handle_eq hr, hmade.handle_eq hr']
    exact hk.ne

/-- **One section**, whether a camera comes of it or not. -/
theorem holding_buildSection (env : SectionEnv) (name : Bytes) (h : st.Holding i built)
    (hlen : st.specs.length = built.length) :
    ∃ built', (st.buildSection env ini sc i name).1.Holding (i + 1) built' ∧
      ((st.buildSection env ini sc i name).2 = none →
        (st.buildSection env ini sc i name).1.specs.length = built'.length) := by
  simp only [StartUp.buildSection]
  split
  · exact ⟨built, h.mono, fun _ ↦ hlen⟩
  · exact ⟨built, h.mono, fun _ ↦ hlen⟩
  · next request hread =>
    obtain ⟨-, -, hroom, -⟩ := readCamera_some hread
    obtain ⟨hlog, hmade⟩ := @buildEntry_resources env ini sc i name request
    rw [hlen] at hroom
    rw [hlen, hlog]
    refine ⟨built ++ [(buildEntry env ini sc i name request).1], ?_⟩
    split
    · exact ⟨h.concat hroom hmade _, fun hnone ↦ by cases hnone⟩
    · refine ⟨h.concat hroom hmade _, fun _ ↦ ?_⟩
      rw [List.length_append, List.length_append, hlen]
      rfl

theorem holding_buildCamerasFrom (env : ℕ → SectionEnv) (sections : List IniSection)
    (h : st.Holding i built) (hlen : st.specs.length = built.length) :
    ∃ i' built', (buildCamerasFrom env ini sc st i sections).1.Holding i' built' ∧
      ((buildCamerasFrom env ini sc st i sections).2 = none →
        (buildCamerasFrom env ini sc st i sections).1.specs.length = built'.length) := by
  induction sections generalizing st i built with
  | nil => exact ⟨i, built, h, fun _ ↦ hlen⟩
  | cons sec rest ih =>
    obtain ⟨built', hsection, hcount⟩ :=
      @holding_buildSection ini sc st i built (env i) sec.name h hlen
    rw [buildCamerasFrom]
    split
    · next st' err heq =>
      rw [heq] at hsection
      exact ⟨i + 1, built', hsection, fun hnone ↦ by cases hnone⟩
    · next st' heq =>
      rw [heq] at hsection hcount
      exact ih hsection (hcount rfl)

/-! ## Release

The entries are released from the first to the last, and within an entry the camera goes before the
context it was built on. -/

theorem StartUp.Holding.nodup (h : st.Holding i built) :
    (built.flatMap CamEntry.resources).Nodup := by
  refine List.nodup_flatMap.mpr ⟨fun entry hentry ↦ ?_, h.apart.imp fun hne r hr hr' ↦ ?_⟩
  · obtain ⟨k, -, hmade⟩ := h.made entry hentry
    exact hmade.nodup
  · exact hne r hr r hr' rfl

theorem StartUp.Holding.released (h : st.Holding i built) {n : ℕ} (hn : built.length ≤ n) :
    (camsRelease st.cams n).2
        = (built.flatMap fun entry ↦ entry.resources.reverse).map .release ∧
      ∀ entry ∈ (camsRelease st.cams n).1, entry.resources = [] := by
  have hblank (k : ℕ) : (List.replicate k CamEntry.blank).flatMap
      (fun entry ↦ (camRelease entry).2) = [] := by
    rw [List.flatMap_eq_nil_iff]
    intro entry hentry
    rw [List.eq_of_mem_replicate hentry]
    rfl
  refine ⟨?_, fun entry hentry ↦ ?_⟩
  · rw [camsRelease, h.cams, List.take_append, List.take_of_length_le hn, List.flatMap_append,
      List.take_replicate, hblank, List.append_nil, List.map_flatMap]
    exact List.flatMap_congr fun entry _ ↦ (camRelease_resources entry).1
  · rcases List.mem_append.mp hentry with hmem | hmem
    · obtain ⟨entry', -, rfl⟩ := List.mem_map.mp hmem
      exact (camRelease_resources entry').2
    · rw [h.cams, List.drop_append, List.drop_of_length_le hn, List.nil_append,
        List.drop_replicate] at hmem
      rw [List.eq_of_mem_replicate hmem]
      rfl

/-- A camera is given back before the context it is built on. -/
theorem StartUp.Holding.camera_first (h : st.Holding i built) {k : ℕ}
    (hk : .camera k ∈ built.flatMap CamEntry.resources) :
    ∃ backend, .impl backend k ∈ built.flatMap CamEntry.resources ∧
      [StartUpResource.camera k, .impl backend k].Sublist
        (built.flatMap fun entry ↦ entry.resources.reverse) := by
  obtain ⟨entry, hentry, hmem⟩ := List.mem_flatMap.mp hk
  obtain ⟨k', -, hmade⟩ := h.made entry hentry
  obtain rfl : k = k' := hmade.handle_eq hmem
  rcases hmade with hnone | ⟨backend, himpl | hboth⟩
  · simp [hnone] at hmem
  · simp [himpl] at hmem
  · refine ⟨backend, List.mem_flatMap.mpr ⟨entry, hentry, by simp [hboth]⟩, ?_⟩
    obtain ⟨pre, post, rfl⟩ := List.append_of_mem hentry
    have hpair : [StartUpResource.camera k, .impl backend k] = entry.resources.reverse := by
      rw [hboth]
      rfl
    rw [hpair, List.flatMap_append, List.flatMap_cons]
    exact (List.sublist_append_left _ _).trans (List.sublist_append_right _ _)

end Table

/-- **A start that fails gives everything back**, and so does one that succeeds when it is over. For
every configuration, well-formed or not, and wherever `build_cameras` stops: everything that some
`create` or `camera_new` returned is given back exactly once and nothing else is, a context by the
`destroy` of the backend that created it and a camera before the context it is built on, and no
entry points to anything afterwards. -/
theorem settled_buildCameras (env : ℕ → SectionEnv) (ini : Ini) (sc : SinkConf) :
    let result := buildCameras env ini sc
    let released := camsRelease result.1.cams (releaseCount result)
    Settled (result.1.log ++ released.2) ∧
    (∀ r, .release r ∉ result.1.log ∧ .acquire r ∉ released.2 ∧
      released.2.count (.release r) = result.1.log.count (.acquire r) ∧
      result.1.log.count (.acquire r) ≤ 1) ∧
    (∀ i, .acquire (.camera i) ∈ result.1.log → ∃ backend,
      .acquire (.impl backend i) ∈ result.1.log ∧
      [.release (.camera i), .release (.impl backend i)].Sublist released.2) ∧
    ∀ entry ∈ released.1, entry.resources = [] := by
  intro result released
  obtain ⟨i, built, h, hcount⟩ :=
    @holding_buildCamerasFrom ini sc .start 0 [] env ini.sections holding_start rfl
  have hn : built.length ≤ releaseCount result := by
    rw [releaseCount]
    split_ifs with herr
    · exact h.few
    · exact (hcount (Option.not_isSome_iff_eq_none.mp herr)).ge
  obtain ⟨hreleased, hcleared⟩ := h.released hn
  have hlog : result.1.log = (built.flatMap CamEntry.resources).map .acquire := h.log
  have hback : released.2 = (built.flatMap fun entry ↦ entry.resources.reverse).map .release :=
    hreleased
  -- what is given back is what was obtained, in another order
  have hperm : (built.flatMap fun entry ↦ entry.resources.reverse).Perm
      (built.flatMap CamEntry.resources) :=
    List.Perm.flatMap_left built fun entry _ ↦ List.reverse_perm _
  refine ⟨?_, fun r ↦ ⟨?_, ?_, ?_, ?_⟩, fun k hk ↦ ?_, hcleared⟩
  · rw [hlog, hback]
    apply held_of_append (held_acquires 0 _)
    rw [← Multiset.coe_eq_coe.mpr hperm]
    exact held_releases 0 _
  · rw [hlog]
    simp
  · rw [hback]
    simp
  · rw [hlog, hback, List.count_map_of_injective _ _ fun _ _ ↦ Use.release.inj,
      List.count_map_of_injective _ _ fun _ _ ↦ Use.acquire.inj]
    exact hperm.count_eq r
  · rw [hlog, List.count_map_of_injective _ _ fun _ _ ↦ Use.acquire.inj]
    exact List.nodup_iff_count_le_one.mp h.nodup r
  · rw [hlog, List.mem_map_of_injective fun _ _ ↦ Use.acquire.inj] at hk
    obtain ⟨backend, himpl, hsub⟩ := h.camera_first hk
    refine ⟨backend, ?_, ?_⟩
    · rw [hlog]
      exact List.mem_map_of_mem himpl
    · rw [hback]
      exact hsub.map _

end SparseCamera
