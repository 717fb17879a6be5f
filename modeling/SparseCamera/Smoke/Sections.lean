import SparseCamera.Smoke.Agreement

/-!
# Sections on their own

`build_cameras` reads the sections of a file one after the other and stops at the first one it does
not accept. What it looks at besides the section are the cameras it has already: that there are not
too many, and that none of them has the id of the new one. So a file is accepted exactly if each
section would be accepted as the only one and these two conditions hold for all of them, and then
the tables are those of the single sections, put together.

## The construction

Each section is built on its own, into an empty table, and the tables are put together. The loop,
with the sections before it already in the table, does the same to the next section as long as there
is room and its id is new. So the loop and the concatenation go side by side, and the two conditions
on all sections are what is left of the dependence between them.
-/

namespace SparseCamera

open CString Resources

/-- What `build_cameras` makes of one section with nothing before it. -/
def onItsOwn (env : ℕ → SectionEnv) (ini : Ini) (sc : SinkConf) (sec : IniSection × ℕ) :
    StartUp × Option ConfErr :=
  StartUp.start.buildSection (env sec.2) ini sc sec.2 sec.1.name

/-- The entries of the table that are in use. -/
def StartUp.inUse (st : StartUp) : List CamEntry := st.cams.take st.specs.length

def together (parts : List StartUp) : StartUp where
  cams := parts.flatMap StartUp.inUse ++
    List.replicate (sinkMaxCameras - (parts.flatMap StartUp.specs).length) .blank
  specs := parts.flatMap StartUp.specs
  log := parts.flatMap StartUp.log

/-- There are not too many cameras, and their ids are distinct. -/
structure StartUp.Admissible (st : StartUp) : Prop where
  few : st.specs.length ≤ sinkMaxCameras
  distinct : (st.specs.map SinkCamSpec.cameraId).Nodup

/-! ## Reading a section -/

section Read

variable {ini : Ini} {specs specs' : List SinkCamSpec} {name : Bytes} {request : CamRequest}

/-- Whether a section is passed over does not depend on what there is already. -/
theorem readCamera_none_iff : readCamera ini specs name = .ok none ↔
    isCamSection name = false ∨ iniGetBool ini name (ascii "enabled") true = .ok false := by
  refine ⟨readCamera_none, fun h ↦ ?_⟩
  rw [readCamera]
  by_cases hcam : isCamSection name = false
  · rw [if_pos hcam]
  · rw [if_neg hcam, h.resolve_left hcam]
    rfl

private theorem readCamera_congr (h : readCamera ini specs name = .ok (some request))
    (hroom : specs'.length < sinkMaxCameras)
    (hfresh : ∀ spec ∈ specs', spec.cameraId ≠ request.id) :
    readCamera ini specs' name = .ok (some request) := by
  have hused : ¬(specs'.any fun spec ↦ spec.cameraId == request.id) = true := by
    simpa using hfresh
  rw [readCamera] at h ⊢
  by_cases hcam : isCamSection name = false
  · rw [if_pos hcam] at h
    cases h
  rw [if_neg hcam] at h ⊢
  obtain ⟨enabled, henabled, h⟩ := bind_eq_ok.mp h
  refine bind_eq_ok.mpr ⟨enabled, henabled, ?_⟩
  cases enabled with
  | false => cases h
  | true =>
    rw [if_neg Bool.noConfusion] at h ⊢
    rw [if_neg (not_le.mpr hroom)]
    split_ifs at h
    obtain ⟨value, hvalue, h⟩ := bind_eq_ok.mp h
    refine bind_eq_ok.mpr ⟨value, hvalue, ?_⟩
    split at h
    · cases h
    · next value =>
      split at h
      · cases h
      · next backend hbackend =>
        obtain ⟨id, hid, h⟩ := bind_eq_ok.mp h
        obtain ⟨fps, hfps, h⟩ := bind_eq_ok.mp h
        split_ifs at h
        obtain rfl := Option.some.inj (Except.ok.inj h)
        refine bind_eq_ok.mpr ⟨id, hid, bind_eq_ok.mpr ⟨fps, hfps, ?_⟩⟩
        rw [if_neg hused]

/-- **What a section asks for** next to other cameras. -/
theorem readCamera_some_iff : readCamera ini specs name = .ok (some request) ↔
    readCamera ini [] name = .ok (some request) ∧ specs.length < sinkMaxCameras ∧
      ∀ spec ∈ specs, spec.cameraId ≠ request.id := by
  constructor
  · intro h
    obtain ⟨-, -, hroom, -, -, -, hfresh⟩ := readCamera_some h
    exact ⟨readCamera_congr h (by decide) (by simp), hroom, hfresh⟩
  · rintro ⟨h, hroom, hfresh⟩
    exact readCamera_congr h hroom hfresh

end Read

/-! ## One section

A section adds an entry and a spec, or a complaint, or nothing. Only the complaints about room and
about the id depend on what is there already. -/

section Section

variable {env : SectionEnv} {ini : Ini} {sc : SinkConf} {st st' : StartUp} {i : ℕ} {name : Bytes}
  {request : CamRequest} {spec : SinkCamSpec}

private theorem buildSection_none (hread : readCamera ini st.specs name = .ok none) :
    st.buildSection env ini sc i name = (st, none) := by
  rw [StartUp.buildSection, hread]

private theorem buildSection_some (hread : readCamera ini st.specs name = .ok (some request))
    (hspec : (buildEntry env ini sc i name request).2.2 = .ok spec) :
    st.buildSection env ini sc i name =
      (⟨st.cams.set st.specs.length (buildEntry env ini sc i name request).1,
        st.specs ++ [spec], st.log ++ (buildEntry env ini sc i name request).2.1⟩, none) := by
  rw [StartUp.buildSection, hread]
  simp only [hspec]

private theorem buildSection_cases (h : (st.buildSection env ini sc i name).2 = none) :
    readCamera ini st.specs name = .ok none ∨
      ∃ request spec, readCamera ini st.specs name = .ok (some request) ∧
        (buildEntry env ini sc i name request).2.2 = .ok spec := by
  rw [StartUp.buildSection] at h
  split at h
  · cases h
  · next hread => exact Or.inl hread
  · next request hread =>
    cases hspec : (buildEntry env ini sc i name request).2.2 with
    | error err =>
      simp only [hspec] at h
      cases h
    | ok spec => exact Or.inr ⟨request, spec, hread, hspec⟩

end Section

/-! ## Tables put together

The entries in use come first, and those behind them are blank. Putting tables together keeps
that. -/

section Together

variable {env : ℕ → SectionEnv} {ini : Ini} {sc : SinkConf} {sec : IniSection × ℕ}
  {parts : List StartUp} {own st : StartUp}

/-- There is an entry for each spec. -/
def StartUp.Filled (st : StartUp) : Prop := st.specs.length ≤ st.cams.length

theorem length_inUse (h : own.Filled) : own.inUse.length = own.specs.length := by
  rw [StartUp.inUse, List.length_take, Nat.min_eq_left h]

theorem length_flatMap_inUse (h : ∀ part ∈ parts, part.Filled) :
    (parts.flatMap StartUp.inUse).length = (parts.flatMap StartUp.specs).length := by
  rw [List.length_flatMap, List.length_flatMap]
  exact congrArg List.sum (List.map_congr_left fun part hpart ↦ length_inUse (h part hpart))

private theorem together_skip : together (parts ++ [StartUp.start]) = together parts := by
  simp [together, StartUp.inUse, StartUp.start]

private theorem together_camera (h : ∀ part ∈ parts, part.Filled)
    (hroom : (together parts).specs.length < sinkMaxCameras) (entry : CamEntry)
    (spec : SinkCamSpec) (log : List (Use StartUpResource)) :
    together (parts ++ [⟨StartUp.start.cams.set 0 entry, [spec], log⟩]) =
      ⟨(together parts).cams.set (together parts).specs.length entry,
        (together parts).specs ++ [spec], (together parts).log ++ log⟩ := by
  have hlen := length_flatMap_inUse h
  have hset := set_blank (hlen ▸ hroom) entry
  have hfirst : StartUp.inUse ⟨StartUp.start.cams.set 0 entry, [spec], log⟩ = [entry] := rfl
  simp only [together, List.flatMap_append, List.flatMap_singleton, hfirst]
  rw [← hlen, hset, List.length_append, List.length_append, hlen, List.length_singleton,
    List.length_singleton]

private theorem onItsOwn_none (hread : readCamera ini [] sec.1.name = .ok none) :
    onItsOwn env ini sc sec = (StartUp.start, none) := buildSection_none hread

private theorem onItsOwn_some {request : CamRequest} {spec : SinkCamSpec}
    (hread : readCamera ini [] sec.1.name = .ok (some request))
    (hspec : (buildEntry (env sec.2) ini sc sec.2 sec.1.name request).2.2 = .ok spec) :
    onItsOwn env ini sc sec =
      (⟨StartUp.start.cams.set 0 (buildEntry (env sec.2) ini sc sec.2 sec.1.name request).1, [spec],
        (buildEntry (env sec.2) ini sc sec.2 sec.1.name request).2.1⟩, none) := by
  rw [onItsOwn, @buildSection_some _ _ _ StartUp.start _ _ _ _ hread hspec]
  rfl

theorem filled_onItsOwn (h : (onItsOwn env ini sc sec).2 = none) :
    (onItsOwn env ini sc sec).1.Filled := by
  rcases buildSection_cases h with hread | ⟨request, spec, hread, hspec⟩
  · rw [onItsOwn_none hread]
    exact Nat.zero_le _
  · rw [onItsOwn_some hread hspec, StartUp.Filled, List.length_set]
    change 1 ≤ StartUp.start.cams.length
    decide

/-- **One section next to others** is accepted if it is on its own and the tables stay admissible.
Then its tables are added. -/
theorem buildSection_together (hparts : ∀ part ∈ parts, part.Filled)
    (hadm : (together parts).Admissible) :
    (together parts).buildSection (env sec.2) ini sc sec.2 sec.1.name = (st, none) ↔
      (onItsOwn env ini sc sec).2 = none ∧
        st = together (parts ++ [(onItsOwn env ini sc sec).1]) ∧ st.Admissible := by
  constructor
  · intro hbuild
    rcases buildSection_cases (congrArg Prod.snd hbuild) with hread | ⟨request, spec, hread, hspec⟩
    · have hown : onItsOwn env ini sc sec = (StartUp.start, none) :=
        onItsOwn_none (readCamera_none_iff.mpr (readCamera_none_iff.mp hread))
      rw [buildSection_none hread] at hbuild
      obtain rfl := congrArg Prod.fst hbuild
      rw [hown, together_skip]
      exact ⟨rfl, rfl, hadm⟩
    · obtain ⟨halone, hroom, hfresh⟩ := readCamera_some_iff.mp hread
      have hown := onItsOwn_some halone hspec
      rw [buildSection_some hread hspec] at hbuild
      obtain rfl := congrArg Prod.fst hbuild
      obtain ⟨-, -, -, -, -, -, -, -, -, hid, -⟩ := buildEntry_eq_ok hspec
      rw [hown, together_camera hparts hroom]
      refine ⟨rfl, rfl, ?_, ?_⟩
      · rw [List.length_append, List.length_singleton]
        exact hroom
      · rw [nodup_map_concat]
        exact ⟨hadm.distinct, fun spec' hspec' ↦ hid ▸ hfresh spec' hspec'⟩
  · rintro ⟨haccepted, rfl, hadm'⟩
    rcases buildSection_cases haccepted with hread | ⟨request, spec, hread, hspec⟩
    · have hown : onItsOwn env ini sc sec = (StartUp.start, none) := onItsOwn_none hread
      rw [hown, together_skip]
      exact buildSection_none (readCamera_none_iff.mpr (readCamera_none_iff.mp hread))
    · have hown := onItsOwn_some hread hspec
      have hspecs : (together (parts ++ [(onItsOwn env ini sc sec).1])).specs
          = (together parts).specs ++ [spec] := by
        rw [hown]
        simp only [together, List.flatMap_append, List.flatMap_singleton]
      have hroom := hadm'.few
      have hdistinct := hadm'.distinct
      rw [hspecs, List.length_append, List.length_singleton] at hroom
      rw [hspecs, nodup_map_concat] at hdistinct
      obtain ⟨-, -, -, -, -, -, -, -, -, hid, -⟩ := buildEntry_eq_ok hspec
      have hnext := readCamera_some_iff.mpr
        ⟨hread, hroom, fun spec' hspec' ↦ hid ▸ hdistinct.2 spec' hspec'⟩
      rw [buildSection_some hnext hspec, hown, together_camera hparts hroom]

private theorem admissible_of_append {rest : List StartUp}
    (h : (together (parts ++ rest)).Admissible) :
    (together parts).Admissible := by
  have hspecs : (together (parts ++ rest)).specs
      = (together parts).specs ++ (together rest).specs := List.flatMap_append
  obtain ⟨hfew, hdistinct⟩ := h
  rw [hspecs, List.length_append] at hfew
  rw [hspecs, List.map_append] at hdistinct
  exact ⟨(Nat.le_add_right _ _).trans hfew, hdistinct.of_append_left⟩

theorem buildCamerasFrom_together {sections : List IniSection} {i : ℕ}
    (hparts : ∀ part ∈ parts, part.Filled) (hadm : (together parts).Admissible) :
    buildCamerasFrom env ini sc (together parts) i sections = (st, none) ↔
      (∀ sec ∈ sections.zipIdx i, (onItsOwn env ini sc sec).2 = none) ∧
        st = together (parts ++ (sections.zipIdx i).map fun sec ↦ (onItsOwn env ini sc sec).1) ∧
        st.Admissible := by
  induction sections generalizing parts i with
  | nil =>
    rw [buildCamerasFrom, List.zipIdx_nil, List.map_nil, List.append_nil]
    constructor
    · intro h
      obtain rfl := congrArg Prod.fst h
      exact ⟨fun _ hsec ↦ absurd hsec List.not_mem_nil, rfl, hadm⟩
    · rintro ⟨-, rfl, -⟩
      rfl
  | cons sec rest ih =>
    rw [List.zipIdx_cons, List.map_cons, List.forall_mem_cons]
    have hstep (st₁ : StartUp) := @buildSection_together env ini sc (sec, i) parts st₁ hparts hadm
    -- the parts with that of this section
    have hnext (haccepted : (onItsOwn env ini sc (sec, i)).2 = none) :
        ∀ part ∈ parts ++ [(onItsOwn env ini sc (sec, i)).1], part.Filled := by
      rw [List.forall_mem_append, List.forall_mem_singleton]
      exact ⟨hparts, filled_onItsOwn haccepted⟩
    have hsplit : parts ++ (onItsOwn env ini sc (sec, i)).1 ::
          (rest.zipIdx (i + 1)).map (fun sec ↦ (onItsOwn env ini sc sec).1)
        = (parts ++ [(onItsOwn env ini sc (sec, i)).1]) ++
          (rest.zipIdx (i + 1)).map fun sec ↦ (onItsOwn env ini sc sec).1 := by
      rw [List.append_assoc, List.singleton_append]
    rw [hsplit, buildCamerasFrom]
    constructor
    · intro h
      split at h
      · cases h
      · next st₁ hsection =>
        obtain ⟨haccepted, rfl, hadm₁⟩ := (hstep st₁).mp hsection
        obtain ⟨hall, hst, hadm'⟩ := (ih (hnext haccepted) hadm₁).mp h
        exact ⟨⟨haccepted, hall⟩, hst, hadm'⟩
    · rintro ⟨⟨haccepted, hall⟩, hst, hadm'⟩
      have hadm₁ := admissible_of_append (hst ▸ hadm')
      rw [(hstep _).mpr ⟨haccepted, rfl, hadm₁⟩]
      exact (ih (hnext haccepted) hadm₁).mpr ⟨hall, hst, hadm'⟩

end Together

/-- **`build_cameras` puts sections together**: it accepts a store exactly if it would accept each
section on its own, there are no more than 16 cameras in all and their ids are distinct. Then its
tables and what it has obtained are those of the single sections, in the order of the file. -/
theorem buildCameras_eq_iff {env : ℕ → SectionEnv} {ini : Ini} {sc : SinkConf} {st : StartUp} :
    buildCameras env ini sc = (st, none) ↔
      (∀ sec ∈ ini.sections.zipIdx, (onItsOwn env ini sc sec).2 = none) ∧
        st = together (ini.sections.zipIdx.map fun sec ↦ (onItsOwn env ini sc sec).1) ∧
        st.specs.length ≤ sinkMaxCameras ∧ (st.specs.map SinkCamSpec.cameraId).Nodup := by
  have hrun := @buildCamerasFrom_together env ini sc [] st ini.sections 0
    (fun _ hpart ↦ absurd hpart List.not_mem_nil) ⟨Nat.zero_le _, List.nodup_nil⟩
  rw [List.nil_append] at hrun
  refine hrun.trans ?_
  constructor
  · rintro ⟨hall, hst, hadm⟩
    exact ⟨hall, hst, hadm.few, hadm.distinct⟩
  · rintro ⟨hall, hst, hfew, hdistinct⟩
    exact ⟨hall, hst, hfew, hdistinct⟩

end SparseCamera
