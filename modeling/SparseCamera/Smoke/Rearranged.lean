import SparseCamera.Smoke.Sections

/-!
# The order of a file

A user may write the sections of a file, and the keys of a section, in any order. What is looked up
does not depend on it, and neither does what is accepted: the sink is set up alike, and the cameras
are the same ones in another order. What can differ is which complaint comes first.

## The construction

Two well-formed stores are rearrangements of each other if they have the same sections up to order,
each with the same pairs up to order. In such stores every lookup finds the same value, as names and
keys are distinct. So each section, taken on its own, is read alike in both. That this is enough is
the subject of `Sections`: a file is accepted section by section, but for two conditions on all of
them that do not depend on an order either.

Complaints are left out of the comparison (`Except.toOption`).
-/

namespace SparseCamera

open CString Resources

/-- The same sections with the same keys and values, in any order. -/
structure Ini.Rearranged (ini ini' : Ini) : Prop where
  wellFormed : ini.WellFormed
  other : ini'.WellFormed
  names : (ini.sections.map IniSection.name).Perm (ini'.sections.map IniSection.name)
  pairs : ∀ sec ∈ ini.sections, ∀ sec' ∈ ini'.sections, sec.name = sec'.name →
    sec.pairs.Perm sec'.pairs

/-- What the attempts to allocate and to bring up the cameras come to, if that depends on the names
of the sections and not on their places. -/
def byName (outcomes : Bytes → SectionEnv) (ini : Ini) (i : ℕ) : SectionEnv :=
  outcomes ((iniSectionName ini i).getD [])

/-- The objects behind the pointers of an entry. -/
abbrev CamObjects : Type :=
  Bytes × UInt64 × Option ((b : BackendKind) × Option b.Impl × Option (Camera b.Impl))

def CamEntry.objects (entry : CamEntry) : CamObjects :=
  (entry.label, entry.want, entry.attached.map fun ⟨backend, impl, camera⟩ ↦
    ⟨backend, impl.map Object.state, camera.map Object.state⟩)

def StartUp.cameras (st : StartUp) : List (CamObjects × SinkCamSpec) :=
  (st.inUse.map CamEntry.objects).zip st.specs

/-- The cameras of one section with nothing before it, if it is accepted. -/
def camerasOf (env : SectionEnv) (ini : Ini) (sc : SinkConf) (i : ℕ) (name : Bytes) :
    Option (List (CamObjects × SinkCamSpec)) :=
  match StartUp.start.buildSection env ini sc i name with
  | (st, none) => some st.cameras
  | (_, some _) => none

/-! ## Results up to their complaints -/

section Results

variable {ε α β : Type} {x y : Except ε α} {f g : α → Except ε β}

private theorem toOption_bind_congr (hx : x.toOption = y.toOption)
    (hf : ∀ a, (f a).toOption = (g a).toOption) : (x >>= f).toOption = (y >>= g).toOption := by
  cases x with
  | error e =>
    cases y with
    | error e' => rfl
    | ok b => cases hx
  | ok a =>
    cases y with
    | error e' => cases hx
    | ok b =>
      obtain rfl := Option.some.inj hx
      exact hf a

private theorem toOption_eq_toOption_iff {x y : Except ε Unit} :
    x.toOption = y.toOption ↔ (x = .ok () ↔ y = .ok ()) := by
  cases x <;> cases y <;> simp [Except.toOption]

end Results

/-! ## Lookups -/

namespace Ini.Rearranged

variable {ini ini' : Ini}

protected theorem refl (h : ini.WellFormed) : ini.Rearranged ini where
  wellFormed := h
  other := h
  names := List.Perm.refl _
  pairs sec hsec sec' hsec' hname := by
    rw [List.inj_on_of_nodup_map h.distinct hsec hsec' hname]

protected theorem symm (h : ini.Rearranged ini') : ini'.Rearranged ini where
  wellFormed := h.other
  other := h.wellFormed
  names := h.names.symm
  pairs sec hsec sec' hsec' hname := (h.pairs sec' hsec' sec hsec hname.symm).symm

private theorem exists_section (h : ini.Rearranged ini') {sec : IniSection}
    (hsec : sec ∈ ini.sections) :
    ∃ sec' ∈ ini'.sections, sec'.name = sec.name ∧ sec.pairs.Perm sec'.pairs := by
  obtain ⟨sec', hsec', hname⟩ :=
    List.mem_map.mp (h.names.mem_iff.mp (List.mem_map_of_mem hsec))
  exact ⟨sec', hsec', hname, h.pairs sec hsec sec' hsec' hname.symm⟩

private theorem iniGet_some (h : ini.Rearranged ini') {name key value : Bytes}
    (hget : iniGet ini name key = some value) : iniGet ini' name key = some value := by
  obtain ⟨sec, hsec, hname, hpair⟩ := (iniGet_eq_some_iff h.wellFormed).mp hget
  obtain ⟨sec', hsec', hname', hperm⟩ := h.exists_section hsec
  exact (iniGet_eq_some_iff h.other).mpr
    ⟨sec', hsec', hname'.trans hname, hperm.mem_iff.mp hpair⟩

/-- **Every lookup finds the same.** -/
theorem iniGet_eq (h : ini.Rearranged ini') : iniGet ini = iniGet ini' := by
  funext name key
  exact Option.ext fun value ↦ ⟨h.iniGet_some, h.symm.iniGet_some⟩

private theorem iniGetWith_eq (h : ini.Rearranged ini') (α : Type) :
    @iniGetWith α ini = @iniGetWith α ini' := by
  funext name key dflt read
  rw [iniGetWith, iniGetWith, h.iniGet_eq]

private theorem iniGetStr_eq (h : ini.Rearranged ini') : iniGetStr ini = iniGetStr ini' := by
  funext name key dflt
  rw [iniGetStr, iniGetStr, h.iniGetWith_eq]

theorem iniGetU32_eq (h : ini.Rearranged ini') : iniGetU32 ini = iniGetU32 ini' := by
  funext name key dflt
  rw [iniGetU32, iniGetU32, h.iniGetWith_eq]

theorem iniGetF64_eq (h : ini.Rearranged ini') : iniGetF64 ini = iniGetF64 ini' := by
  funext name key dflt
  rw [iniGetF64, iniGetF64, h.iniGetWith_eq]

private theorem iniGetBool_eq (h : ini.Rearranged ini') : iniGetBool ini = iniGetBool ini' := by
  funext name key dflt
  rw [iniGetBool, iniGetBool, h.iniGetWith_eq]

private theorem iniHasSection_eq (h : ini.Rearranged ini') (name : Bytes) :
    iniHasSection ini name = iniHasSection ini' name := by
  rw [iniHasSection, iniHasSection, Bool.eq_iff_iff, findSection_isSome, findSection_isSome,
    ← List.mem_map, ← List.mem_map]
  exact h.names.mem_iff

private theorem iniCheckKeys_ok (h : ini.Rearranged ini') {name : Bytes} {allowed : List Bytes}
    (hcheck : iniCheckKeys ini name allowed = .ok ()) :
    iniCheckKeys ini' name allowed = .ok () := by
  obtain ⟨sec, hfind, hkeys⟩ := iniCheckKeys_eq_ok.mp hcheck
  obtain ⟨hsec, hname⟩ := (find?_eq_some_of_nodup h.wellFormed.distinct).mp hfind
  obtain ⟨sec', hsec', hname', hperm⟩ := h.exists_section hsec
  refine iniCheckKeys_eq_ok.mpr ⟨sec', ?_, fun pair hpair ↦ hkeys pair (hperm.mem_iff.mpr hpair)⟩
  exact (find?_eq_some_of_nodup h.other.distinct).mpr ⟨hsec', hname'.trans hname⟩

/-- The keys of a section pass or do not, but the key that is named can be another one. -/
theorem toOption_iniCheckKeys (h : ini.Rearranged ini') (name : Bytes) (allowed : List Bytes) :
    (iniCheckKeys ini name allowed).toOption = (iniCheckKeys ini' name allowed).toOption :=
  toOption_eq_toOption_iff.mpr ⟨h.iniCheckKeys_ok, h.symm.iniCheckKeys_ok⟩

/-! ## Readers -/

private theorem toOption_loadSinkConf (h : ini.Rearranged ini') :
    (loadSinkConf ini).toOption = (loadSinkConf ini').toOption := by
  rw [loadSinkConf, loadSinkConf, h.iniHasSection_eq]
  split_ifs
  · rfl
  · refine toOption_bind_congr (h.toOption_iniCheckKeys _ _) fun _ ↦ ?_
    rw [h.iniGetStr_eq, h.iniGetU32_eq, h.iniGetF64_eq, h.iniGetBool_eq]

private theorem toOption_create (h : ini.Rearranged ini') (b : BackendKind) (name : Bytes)
    (granted : Bool) :
    (b.create ini name granted).toOption = (b.create ini' name granted).toOption := by
  cases b with
  | mock =>
    change (ini.mockFromIni name granted).toOption = (ini'.mockFromIni name granted).toOption
    rw [mockFromIni, mockFromIni, h.iniGetStr_eq, h.iniGetU32_eq, h.iniGetF64_eq]
    exact toOption_bind_congr (h.toOption_iniCheckKeys _ _) fun _ ↦ rfl
  | v4l2 =>
    change (ini.v4l2FromIni name granted).toOption = (ini'.v4l2FromIni name granted).toOption
    rw [v4l2FromIni, v4l2FromIni, h.iniGetStr_eq, h.iniGetU32_eq]
    exact toOption_bind_congr (h.toOption_iniCheckKeys _ _) fun _ ↦ rfl

private theorem readCamera_eq (h : ini.Rearranged ini') : readCamera ini = readCamera ini' := by
  funext specs name
  rw [readCamera, readCamera, h.iniGetBool_eq, h.iniGetStr_eq, h.iniGetU32_eq, h.iniGetF64_eq]

end Ini.Rearranged

/-! ## One section -/

section Section

variable {env : SectionEnv} {ini ini' : Ini} {sc : SinkConf} {i j : ℕ} {name : Bytes}
  {request : CamRequest}

/-- The objects and the spec of a camera, if it comes to one. -/
def builtCamera (built : CamEntry × List (Use StartUpResource) × Except ConfErr SinkCamSpec) :
    Option (CamObjects × SinkCamSpec) :=
  built.2.2.toOption.map fun spec ↦ (built.1.objects, spec)

/-- A camera is the same whatever the order of the file and wherever its section is. -/
theorem builtCamera_buildEntry (h : ini.Rearranged ini') :
    builtCamera (buildEntry env ini sc i name request)
      = builtCamera (buildEntry env ini' sc j name request) := by
  have hcreate := h.toOption_create request.backend name env.create
  simp only [buildEntry]
  cases himpl : request.backend.create ini name env.create with
  | error err =>
    cases himpl' : request.backend.create ini' name env.create with
    | error err' => rfl
    | ok impl' =>
      rw [himpl, himpl'] at hcreate
      cases hcreate
  | ok impl =>
    cases himpl' : request.backend.create ini' name env.create with
    | error err' =>
      rw [himpl, himpl'] at hcreate
      cases hcreate
    | ok impl' =>
      rw [himpl, himpl'] at hcreate
      obtain rfl := Option.some.inj hcreate
      simp only
      by_cases hsites : request.backend.maxSites impl = 0 ∨
          0xffffffff < request.backend.maxSites impl
      · rw [if_pos hsites, if_pos hsites]
        rfl
      · rw [if_neg hsites, if_neg hsites]
        split <;> rfl

private theorem camerasOf_eq (hread : readCamera ini [] name = .ok (some request)) :
    camerasOf env ini sc i name
      = (builtCamera (buildEntry env ini sc i name request)).map fun cam ↦ [cam] := by
  have hread' : readCamera ini StartUp.start.specs name = .ok (some request) := hread
  rw [camerasOf, StartUp.buildSection, hread']
  simp only [builtCamera]
  cases (buildEntry env ini sc i name request).2.2 with
  | error err => rfl
  | ok spec => rfl

/-- **One section** makes the same cameras whatever the order of the file and wherever it is. -/
theorem camerasOf_congr (h : ini.Rearranged ini') :
    camerasOf env ini sc i name = camerasOf env ini' sc j name := by
  cases hread : readCamera ini [] name with
  | error err =>
    have hread' : readCamera ini StartUp.start.specs name = .error err := hread
    rw [camerasOf, camerasOf, StartUp.buildSection, StartUp.buildSection, ← h.readCamera_eq,
      hread']
  | ok result =>
    cases result with
    | none =>
      have hread' : readCamera ini StartUp.start.specs name = .ok none := hread
      rw [camerasOf, camerasOf, StartUp.buildSection, StartUp.buildSection, ← h.readCamera_eq,
        hread']
    | some request =>
      rw [camerasOf_eq hread, camerasOf_eq (h.readCamera_eq ▸ hread), builtCamera_buildEntry h]

end Section

/-! ## All sections

A section is named by its place in the file, and the place changes. The objects in an entry do not
say where they came from. -/

section All

variable {outcomes : Bytes → SectionEnv} {ini ini' : Ini} {sc : SinkConf}

/-- What the sections make, each on its own. -/
def camerasFrom (outcomes : Bytes → SectionEnv) (ini : Ini) (sc : SinkConf) :
    List (Option (List (CamObjects × SinkCamSpec))) :=
  (ini.sections.map IniSection.name).map fun name ↦ camerasOf (outcomes name) ini sc 0 name

private theorem byName_zipIdx {sec : IniSection × ℕ} (hsec : sec ∈ ini.sections.zipIdx) :
    byName outcomes ini sec.2 = outcomes sec.1.name := by
  rw [byName, iniSectionName, List.mem_zipIdx_iff_getElem?.mp hsec]
  rfl

private theorem camerasOf_zipIdx (hwell : ini.WellFormed) {sec : IniSection × ℕ}
    (hsec : sec ∈ ini.sections.zipIdx) :
    camerasOf (outcomes sec.1.name) ini sc 0 sec.1.name
      = camerasOf (byName outcomes ini sec.2) ini sc sec.2 sec.1.name := by
  rw [byName_zipIdx hsec]
  exact camerasOf_congr (.refl hwell)

private theorem camerasOf_isSome_iff (hwell : ini.WellFormed) {sec : IniSection × ℕ}
    (hsec : sec ∈ ini.sections.zipIdx) :
    (camerasOf (outcomes sec.1.name) ini sc 0 sec.1.name).isSome = true ↔
      (onItsOwn (byName outcomes ini) ini sc sec).2 = none := by
  rw [camerasOf_zipIdx hwell hsec, camerasOf]
  change _ ↔ (StartUp.start.buildSection _ _ _ _ _).2 = none
  rcases StartUp.start.buildSection (byName outcomes ini sec.2) ini sc sec.2 sec.1.name with
    ⟨st, _ | err⟩
  · exact iff_of_true rfl rfl
  · exact iff_of_false (fun h ↦ by cases h) (fun h ↦ by cases h)

private theorem camerasOf_of_onItsOwn (hwell : ini.WellFormed) {sec : IniSection × ℕ}
    (hsec : sec ∈ ini.sections.zipIdx)
    (hown : (onItsOwn (byName outcomes ini) ini sc sec).2 = none) :
    camerasOf (outcomes sec.1.name) ini sc 0 sec.1.name
      = some (onItsOwn (byName outcomes ini) ini sc sec).1.cameras := by
  have hbuild : StartUp.start.buildSection (byName outcomes ini sec.2) ini sc sec.2 sec.1.name
      = ((onItsOwn (byName outcomes ini) ini sc sec).1, none) := Prod.ext rfl hown
  rw [camerasOf_zipIdx hwell hsec, camerasOf, hbuild]

private theorem camerasFrom_eq_zipIdx :
    camerasFrom outcomes ini sc = ini.sections.zipIdx.map fun sec ↦
    camerasOf (outcomes sec.1.name) ini sc 0 sec.1.name := by
  conv_lhs => rw [camerasFrom, ← List.zipIdx_map_fst 0 ini.sections]
  rw [List.map_map, List.map_map]
  rfl

private theorem perm_camerasFrom (h : ini.Rearranged ini') :
    (camerasFrom outcomes ini sc).Perm (camerasFrom outcomes ini' sc) := by
  have hsame : (fun name ↦ camerasOf (outcomes name) ini' sc 0 name)
      = fun name ↦ camerasOf (outcomes name) ini sc 0 name :=
    funext fun name ↦ (camerasOf_congr h).symm
  rw [camerasFrom, camerasFrom, hsame]
  exact h.names.map _

end All

/-! ## All of them together

How many cameras there are and whether two share an id can be asked of the cameras in any order. -/

section Together

variable {outcomes : Bytes → SectionEnv} {ini ini' : Ini} {sc : SinkConf} {parts : List StartUp}
  {st : StartUp}

private theorem specs_eq_cameras (h : st.Filled) : st.specs = st.cameras.map Prod.snd := by
  rw [StartUp.cameras, List.map_snd_zip]
  rw [List.length_map, length_inUse h]

private theorem inUse_together (h : ∀ part ∈ parts, part.Filled) :
    (together parts).inUse = parts.flatMap StartUp.inUse := by
  rw [StartUp.inUse, together]
  exact List.take_left' (length_flatMap_inUse h)

private theorem filled_together (h : ∀ part ∈ parts, part.Filled) : (together parts).Filled := by
  simp only [StartUp.Filled, together, List.length_append, length_flatMap_inUse h]
  exact Nat.le_add_right _ _

private theorem cameras_together (h : ∀ part ∈ parts, part.Filled) :
    (together parts).cameras = parts.flatMap StartUp.cameras := by
  rw [StartUp.cameras, inUse_together h]
  simp only [together]
  induction parts with
  | nil => rfl
  | cons part rest ih =>
    obtain ⟨hpart, hrest⟩ := List.forall_mem_cons.mp h
    have hlen : (part.inUse.map CamEntry.objects).length = part.specs.length := by
      rw [List.length_map, length_inUse hpart]
    rw [List.flatMap_cons, List.flatMap_cons, List.flatMap_cons, List.map_append,
      List.zip_append hlen, ih hrest]
    rfl

private theorem admissible_iff_cameras (h : st.Filled) : st.Admissible ↔
    st.cameras.length ≤ sinkMaxCameras ∧ (st.cameras.map fun cam ↦ cam.2.cameraId).Nodup := by
  have hids : st.specs.map SinkCamSpec.cameraId = st.cameras.map fun cam ↦ cam.2.cameraId := by
    rw [specs_eq_cameras h, List.map_map]
    rfl
  have hlen : st.specs.length = st.cameras.length := by
    rw [specs_eq_cameras h, List.length_map]
  exact ⟨fun ⟨hfew, hdistinct⟩ ↦ ⟨hlen ▸ hfew, hids ▸ hdistinct⟩,
    fun ⟨hfew, hdistinct⟩ ↦ ⟨hlen ▸ hfew, hids ▸ hdistinct⟩⟩

/-- **All sections**: the store is accepted if each section makes something, there are not too many
cameras, and their ids are distinct. -/
theorem buildCameras_camerasFrom (hwell : ini.WellFormed) {cams : List (CamObjects × SinkCamSpec)} :
    (∃ st, buildCameras (byName outcomes ini) ini sc = (st, none) ∧ st.cameras = cams) ↔
      (∀ result ∈ camerasFrom outcomes ini sc, result.isSome = true) ∧
        cams = (camerasFrom outcomes ini sc).flatMap (Option.getD · []) ∧
        cams.length ≤ sinkMaxCameras ∧ (cams.map fun cam ↦ cam.2.cameraId).Nodup := by
  have hrun (st : StartUp) := @buildCamerasFrom_together (byName outcomes ini) ini sc [] st
    ini.sections 0 (fun _ hpart ↦ absurd hpart List.not_mem_nil) ⟨Nat.zero_le _, List.nodup_nil⟩
  have hsome : (∀ result ∈ camerasFrom outcomes ini sc, result.isSome = true) ↔
      ∀ sec ∈ ini.sections.zipIdx, (onItsOwn (byName outcomes ini) ini sc sec).2 = none := by
    rw [camerasFrom_eq_zipIdx, List.forall_mem_map]
    exact forall₂_congr fun sec hsec ↦ camerasOf_isSome_iff hwell hsec
  rw [hsome]
  by_cases hall : ∀ sec ∈ ini.sections.zipIdx,
      (onItsOwn (byName outcomes ini) ini sc sec).2 = none
  · -- the tables that the sections make together
    set parts := ini.sections.zipIdx.map fun sec ↦ (onItsOwn (byName outcomes ini) ini sc sec).1
      with hparts
    have hfilled : ∀ part ∈ parts, part.Filled := by
      rw [hparts, List.forall_mem_map]
      exact fun sec hsec ↦ filled_onItsOwn (hall sec hsec)
    have hcams : (together parts).cameras
        = (camerasFrom outcomes ini sc).flatMap (Option.getD · []) := by
      rw [cameras_together hfilled, camerasFrom_eq_zipIdx, hparts, List.flatMap_map,
        List.flatMap_map]
      refine List.flatMap_congr fun sec hsec ↦ ?_
      rw [camerasOf_of_onItsOwn hwell hsec (hall sec hsec)]
      rfl
    have hadm := admissible_iff_cameras (filled_together hfilled)
    constructor
    · rintro ⟨st, hbuild, rfl⟩
      obtain ⟨-, rfl, hst⟩ := (hrun st).mp hbuild
      exact ⟨hall, hcams, hadm.mp hst⟩
    · rintro ⟨-, rfl, hrest⟩
      rw [← hcams] at hrest ⊢
      exact ⟨together parts, (hrun _).mpr ⟨hall, rfl, hadm.mpr hrest⟩, rfl⟩
  · refine iff_of_false ?_ fun h ↦ hall h.1
    rintro ⟨st, hbuild, -⟩
    exact hall ((hrun st).mp hbuild).1

private theorem buildCameras_perm (h : ini.Rearranged ini')
    (hbuild : buildCameras (byName outcomes ini) ini sc = (st, none)) :
    ∃ st', buildCameras (byName outcomes ini') ini' sc = (st', none) ∧
      st.cameras.Perm st'.cameras := by
  obtain ⟨hall, hcams, hfew, hdistinct⟩ :=
    (buildCameras_camerasFrom h.wellFormed).mp ⟨st, hbuild, rfl⟩
  have hperm := @perm_camerasFrom outcomes _ _ sc h
  have hflat := hperm.flatMap_right (Option.getD · [])
  rw [← hcams] at hflat
  obtain ⟨st', hbuild', hcams'⟩ := (buildCameras_camerasFrom h.other).mpr
    ⟨fun result hresult ↦ hall result (hperm.mem_iff.mpr hresult), rfl,
      hflat.length_eq ▸ hfew, (hflat.map _).nodup_iff.mp hdistinct⟩
  exact ⟨st', hbuild', hcams' ▸ hflat⟩

end Together

/-- **The order of a file does not matter**: from two stores with the same sections, keys and values
in different orders the sink is set up alike, `build_cameras` accepts both or neither, and the
cameras it makes of them are the same ones, objects and specs, in another order. -/
theorem order_irrelevant {ini ini' : Ini} (h : ini.Rearranged ini')
    (outcomes : Bytes → SectionEnv) (sc : SinkConf) :
    (loadSinkConf ini).toOption = (loadSinkConf ini').toOption ∧
      ((buildCameras (byName outcomes ini) ini sc).2 = none ↔
        (buildCameras (byName outcomes ini') ini' sc).2 = none) ∧
      ((buildCameras (byName outcomes ini) ini sc).2 = none →
        (buildCameras (byName outcomes ini) ini sc).1.cameras.Perm
          (buildCameras (byName outcomes ini') ini' sc).1.cameras) := by
  refine ⟨h.toOption_loadSinkConf, ⟨fun hnone ↦ ?_, fun hnone ↦ ?_⟩, fun hnone ↦ ?_⟩
  · obtain ⟨st', hbuild', -⟩ := buildCameras_perm h (Prod.ext rfl hnone)
    exact congrArg Prod.snd hbuild'
  · obtain ⟨st, hbuild, -⟩ := buildCameras_perm h.symm (Prod.ext rfl hnone)
    exact congrArg Prod.snd hbuild
  · obtain ⟨st', hbuild', hperm⟩ := buildCameras_perm h (Prod.ext rfl hnone)
    rw [hbuild']
    exact hperm

/-- `twoKinds` with the webcam before the mock camera, and some keys the other way round. -/
def twoKindsSwapped : Ini where
  sections :=
    [{ name := ascii "cam.c"
       pairs :=
          [{ key := ascii "id", value := ascii "1" },
            { key := ascii "grid", value := ascii "4x4" },
            { key := ascii "backend", value := ascii "v4l2" }] },
      { name := ascii "cam.b"
        pairs :=
          [{ key := ascii "enabled", value := ascii "no" },
            { key := ascii "backend", value := ascii "v4l2" }] },
      { name := ascii "cam.a"
        pairs :=
          [{ key := ascii "grid", value := ascii "2x3" },
            { key := ascii "backend", value := ascii "mock" }] },
      { name := ascii "sink", pairs := [] }]

theorem order_irrelevant_twoKinds :
    twoKinds.Rearranged twoKindsSwapped ∧
      (buildCameras (byName (fun _ ↦ allGranted 0) twoKinds) twoKinds defaultConf).2 = none ∧
      (buildCameras (byName (fun _ ↦ allGranted 0) twoKinds) twoKinds defaultConf).1.cameras.Perm
        (buildCameras (byName (fun _ ↦ allGranted 0) twoKindsSwapped) twoKindsSwapped
          defaultConf).1.cameras ∧
      (buildCameras (byName (fun _ ↦ allGranted 0) twoKindsSwapped) twoKindsSwapped
        defaultConf).1.specs.map SinkCamSpec.cameraId = [1, 0] := by
  have hsame : twoKinds.Rearranged twoKindsSwapped :=
    ⟨by decide +kernel, by decide +kernel, by decide +kernel, by decide +kernel⟩
  have hbuilt : (buildCameras (byName (fun _ ↦ allGranted 0) twoKinds) twoKinds defaultConf).2
      = none := by decide +kernel
  obtain ⟨-, -, hperm⟩ := order_irrelevant hsame (fun _ ↦ allGranted 0) defaultConf
  exact ⟨hsame, hbuilt, hperm hbuilt, by decide +kernel⟩

end SparseCamera
