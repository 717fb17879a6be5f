import SparseCamera.Camera.Basic
import SparseCamera.Lib.Resources

/-!
# Creating and deleting a camera

`camera_new` takes six steps that can fail. All of them end in `camera_del`, which finds out from
the fields of the structure what there is to give back.

Whatever is obtained and given back goes to a log. Of a backend, what is obtained is the right and
the duty to tear it down: `init` was attempted.

## The construction

The six steps fall into three parts: what happens before there is a structure, the steps before
`init`, and `init`. In each part the log of a failure has one shape, and the statement about all
outcomes is the case distinction. The part in the middle is where it goes wrong: `camera_del` calls
`deinit` on a backend whose `init` was not reached, because it does not look at the field that tells
the two apart.
-/

namespace SparseCamera

open Resources

/-- `camera_interface_t`. `κ` is what the outside world contributes to `init`. -/
structure CameraInterface (ι κ ε : Type) extends Backend ι ε where
  /-- Brings the device up; 0 on success. -/
  init : Option (κ → ι → ℤ × ι)
  /-- Tears it down, also after a failed `init`. -/
  deinit : Option (ι → ι)

/-- `camera_config_t` without the queue depth. -/
structure CameraConfig where
  endpoint : Option Bytes
  /-- A shared context is given. -/
  zmqCtx : Bool
  cameraId : UInt32
  frameCap : UInt64
deriving DecidableEq

/-- What the steps of `camera_new` come to. -/
structure CameraNewEnv (κ : Type) where
  /-- The structure is allocated. -/
  camera : Bool
  frame : Bool
  scratch : Bool
  zmqCtx : Bool
  socket : Bool
  connect : Bool
  init : κ

inductive CameraResource where
  | camera
  | frame
  | scratch
  | zmqCtx
  | socket
  | backend
deriving DecidableEq

/-- The parts of a `struct camera_ctx` by which `camera_del` goes. -/
structure CameraParts where
  frame : Bool
  scratch : Bool
  zmqCtx : Bool
  socket : Bool
  /-- The context is the camera's own. -/
  ownsCtx : Bool
  /-- `init` was attempted. -/
  backendUp : Bool
deriving DecidableEq

/-- The structure as `calloc` leaves it. -/
def CameraParts.blank : CameraParts := ⟨false, false, false, false, false, false⟩

/-- A `struct camera_ctx` that was built. -/
structure Camera (ι : Type) extends CameraCtx ι where
  parts : CameraParts

variable {ι κ ε : Type}

def releaseIf (there : Bool) (r : CameraResource) : List (Use CameraResource) :=
  if there then [.release r] else []

/-- `camera_del`: the backend's context afterwards and what is given back. -/
def cameraDel (interface : CameraInterface ι κ ε) (parts : CameraParts) (implCtx : ι) :
    ι × List (Use CameraResource) :=
  let implCtx := interface.deinit.elim implCtx fun deinit ↦ deinit implCtx
  (implCtx, releaseIf interface.deinit.isSome .backend ++ releaseIf parts.socket .socket ++
    releaseIf (parts.ownsCtx && parts.zmqCtx) .zmqCtx ++ releaseIf parts.frame .frame ++
    releaseIf parts.scratch .scratch ++ [.release .camera])

/-- `camera_release`, after what was obtained so far. -/
def cameraRelease (interface : CameraInterface ι κ ε) (parts : CameraParts) (implCtx : ι)
    (obtained : List (Use CameraResource)) : Option (Camera ι) × ι × List (Use CameraResource) :=
  let (implCtx, released) := cameraDel interface parts implCtx
  (none, implCtx, obtained ++ released)

/-- `camera_new` with steps that can fail: the camera, the backend's context and the log. -/
def cameraNewWith (interface : CameraInterface ι κ ε) (env : CameraNewEnv κ) (cfg : CameraConfig)
    (implCtx : ι) : Option (Camera ι) × ι × List (Use CameraResource) :=
  if cfg.endpoint = none ∨ cfg.frameCap = 0 then (none, implCtx, [])
  else if env.camera = false then (none, implCtx, [])
  else
    let parts := CameraParts.blank
    let log : List (Use CameraResource) := [.acquire .camera]
    match if env.frame then newFrames cfg.frameCap else none with
    | none => cameraRelease interface parts implCtx log
    | some frame =>
      let parts := { parts with frame := true }
      let log := log ++ [.acquire .frame]
      let frame := { frame with cameraId := cfg.cameraId }
      let scratchCap := frameWireLength frame.capacity
      if env.scratch = false then cameraRelease interface parts implCtx log
      else
        let parts := { parts with scratch := true }
        let log := log ++ [.acquire .scratch]
        if cfg.zmqCtx = false ∧ env.zmqCtx = false then cameraRelease interface parts implCtx log
        else
          let parts := { parts with zmqCtx := true, ownsCtx := !cfg.zmqCtx }
          let log := log ++ if cfg.zmqCtx then [] else [.acquire .zmqCtx]
          if env.socket = false then cameraRelease interface parts implCtx log
          else
            let parts := { parts with socket := true }
            let log := log ++ [.acquire .socket]
            if env.connect = false then cameraRelease interface parts implCtx log
            else
              let camera (parts : CameraParts) (implCtx : ι) : Camera ι :=
                { frame := frame
                  scratch := List.replicate scratchCap.toNat 0
                  scratchCap := scratchCap
                  cameraId := cfg.cameraId
                  sent := 0
                  dropped := 0
                  implCtx := implCtx
                  parts := parts }
              match interface.init with
              | none => (some (camera parts implCtx), implCtx, log)
              | some init =>
                let parts := { parts with backendUp := true }
                let log := log ++ [.acquire .backend]
                let (rc, implCtx) := init env.init implCtx
                if rc ≠ 0 then cameraRelease interface parts implCtx log
                else (some (camera parts implCtx), implCtx, log)

/-! ## Every way it can go

A log is settled if it can be replayed to the end with nothing held. So a release of something that
was never obtained counts like a leak. -/

section Cases

variable {interface : CameraInterface ι κ ε} {env : CameraNewEnv κ} {cfg : CameraConfig}
  {implCtx : ι}

/-- The arguments are accepted and the structure is allocated. -/
def CameraNewEnv.Begins (env : CameraNewEnv κ) (cfg : CameraConfig) : Prop :=
  cfg.endpoint ≠ none ∧ cfg.frameCap ≠ 0 ∧ env.camera = true

/-- Every step before `init` succeeds. -/
def CameraNewEnv.Connects (env : CameraNewEnv κ) (cfg : CameraConfig) : Prop :=
  env.frame = true ∧ env.scratch = true ∧ (cfg.zmqCtx = true ∨ env.zmqCtx = true) ∧
    env.socket = true ∧ env.connect = true

/-- The log of a camera that is created and, if that succeeded, deleted again. -/
def cameraLifecycle (interface : CameraInterface ι κ ε) (env : CameraNewEnv κ)
    (cfg : CameraConfig) (implCtx : ι) : List (Use CameraResource) :=
  let (camera, implCtx, log) := cameraNewWith interface env cfg implCtx
  log ++ camera.elim [] fun camera ↦ (cameraDel interface camera.parts implCtx).2

private theorem cameraLifecycle_of_not_begins (h : ¬env.Begins cfg) :
    cameraLifecycle interface env cfg implCtx = [] := by
  rw [cameraLifecycle, cameraNewWith]
  by_cases hargs : cfg.endpoint = none ∨ cfg.frameCap = 0
  · rw [if_pos hargs]
    rfl
  · obtain ⟨hendpoint, hcap⟩ := not_or.mp hargs
    have hcamera : env.camera = false := Bool.eq_false_iff.mpr fun hcamera ↦
      h ⟨hendpoint, hcap, hcamera⟩
    rw [if_neg hargs, if_pos hcamera]
    rfl

private theorem cameraLifecycle_of_not_connects (hbegins : env.Begins cfg) (h : ¬env.Connects cfg)
    (hdeinit : interface.deinit.isSome = true) :
    .release .backend ∈ cameraLifecycle interface env cfg implCtx ∧
      .acquire .backend ∉ cameraLifecycle interface env cfg implCtx := by
  obtain ⟨hendpoint, hcap, hcamera⟩ := hbegins
  have hargs : ¬(cfg.endpoint = none ∨ cfg.frameCap = 0) := not_or.mpr ⟨hendpoint, hcap⟩
  have hcamera' : ¬env.camera = false := by simp [hcamera]
  simp only [cameraLifecycle, cameraNewWith, if_neg hargs, if_neg hcamera', cameraRelease,
    cameraDel, hdeinit]
  cases hframe : env.frame with
  | false => simp [releaseIf, CameraParts.blank]
  | true =>
    simp only [if_true, newFrames, if_neg hcap]
    cases hscratch : env.scratch with
    | false => simp [releaseIf, CameraParts.blank]
    | true =>
      by_cases hctx : cfg.zmqCtx = false ∧ env.zmqCtx = false
      · simp [releaseIf, CameraParts.blank, hctx]
      · simp only [if_neg hctx]
        cases hsocket : env.socket with
        | false => cases cfg.zmqCtx <;> simp [releaseIf, CameraParts.blank]
        | true =>
          cases hconnect : env.connect with
          | false => cases cfg.zmqCtx <;> simp [releaseIf]
          | true =>
            refine absurd ⟨hframe, hscratch, ?_, hsocket, hconnect⟩ h
            rw [← Bool.not_eq_false, ← Bool.not_eq_false, ← not_and_or]
            exact hctx

private theorem settled_cameraLifecycle (hbegins : env.Begins cfg) (h : env.Connects cfg)
    (hinit : interface.init.isSome = true) (hdeinit : interface.deinit.isSome = true) :
    Settled (cameraLifecycle interface env cfg implCtx) := by
  obtain ⟨hendpoint, hcap, hcamera⟩ := hbegins
  obtain ⟨hframe, hscratch, hctx, hsocket, hconnect⟩ := h
  obtain ⟨init, hinit⟩ := Option.isSome_iff_exists.mp hinit
  have hargs : ¬(cfg.endpoint = none ∨ cfg.frameCap = 0) := not_or.mpr ⟨hendpoint, hcap⟩
  have hctx' : ¬(cfg.zmqCtx = false ∧ env.zmqCtx = false) := by
    rw [not_and_or, Bool.not_eq_false, Bool.not_eq_false]
    exact hctx
  simp only [cameraLifecycle, cameraNewWith, if_neg hargs, hcamera, hframe, newFrames, if_neg hcap,
    hscratch, if_neg hctx', hsocket, hconnect, hinit, cameraRelease, cameraDel, hdeinit,
    Bool.true_eq_false, if_false, if_true]
  -- the log is the same whether `init` succeeds or not
  by_cases hrc : (init env.init implCtx).1 = 0
  · rw [if_neg (not_not.mpr hrc)]
    cases cfg.zmqCtx <;> simp [releaseIf, Settled, held_release]
  · rw [if_pos hrc]
    cases cfg.zmqCtx <;> simp [releaseIf, Settled, held_release]

/-- **When everything that was obtained is given back once and nothing else is**: if the structure
is not allocated, or every step before `init` succeeds. -/
theorem settled_cameraLifecycle_iff (hinit : interface.init.isSome = true)
    (hdeinit : interface.deinit.isSome = true) :
    Settled (cameraLifecycle interface env cfg implCtx) ↔
      (env.Begins cfg → env.Connects cfg) := by
  constructor
  · intro hsettled hbegins
    by_contra hconnects
    obtain ⟨hdown, hup⟩ := @cameraLifecycle_of_not_connects _ _ _ interface env cfg implCtx hbegins
      hconnects hdeinit
    have hcount := hsettled.count_release .backend
    rw [List.count_eq_zero.mpr hup] at hcount
    exact List.count_eq_zero.mp hcount hdown
  · intro h
    by_cases hbegins : env.Begins cfg
    · exact settled_cameraLifecycle hbegins (h hbegins) hinit hdeinit
    · rw [cameraLifecycle_of_not_begins hbegins]
      rfl

theorem cameraNewWith_some {camera : Camera ι} {implCtx' : ι} {log : List (Use CameraResource)}
    (h : cameraNewWith interface env cfg implCtx = (some camera, implCtx', log)) :
    cameraNew cfg.cameraId cfg.frameCap
        (fun implCtx ↦ interface.init.elim (0, implCtx) fun init ↦ init env.init implCtx) implCtx
      = some camera.toCameraCtx ∧ implCtx' = camera.implCtx := by
  rw [cameraNewWith] at h
  by_cases hargs : cfg.endpoint = none ∨ cfg.frameCap = 0
  · rw [if_pos hargs] at h
    cases h
  rw [if_neg hargs] at h
  by_cases hcamera : env.camera = false
  · rw [if_pos hcamera] at h
    cases h
  rw [if_neg hcamera] at h
  -- every failure ends in `camera_release`, which returns no camera
  have hfails (parts : CameraParts) (impl : ι) (obtained : List (Use CameraResource)) :
      cameraRelease interface parts impl obtained ≠ (some camera, implCtx', log) := by
    intro heq
    cases heq
  cases hframe : env.frame with
  | false =>
    rw [hframe] at h
    exact absurd h (hfails _ _ _)
  | true =>
    rw [hframe, if_pos rfl] at h
    rw [cameraNew]
    cases hnew : newFrames cfg.frameCap with
    | none =>
      rw [hnew] at h
      exact absurd h (hfails _ _ _)
    | some frame =>
      rw [hnew] at h
      simp only at h
      by_cases hscratch : env.scratch = false
      · rw [if_pos hscratch] at h
        exact absurd h (hfails _ _ _)
      by_cases hctx : cfg.zmqCtx = false ∧ env.zmqCtx = false
      · rw [if_neg hscratch, if_pos hctx] at h
        exact absurd h (hfails _ _ _)
      by_cases hsocket : env.socket = false
      · rw [if_neg hscratch, if_neg hctx, if_pos hsocket] at h
        exact absurd h (hfails _ _ _)
      by_cases hconnect : env.connect = false
      · rw [if_neg hscratch, if_neg hctx, if_neg hsocket, if_pos hconnect] at h
        exact absurd h (hfails _ _ _)
      rw [if_neg hscratch, if_neg hctx, if_neg hsocket, if_neg hconnect] at h
      cases hinit : interface.init with
      | none =>
        rw [hinit] at h
        obtain ⟨hcam, hrest⟩ := Prod.mk.inj h
        obtain rfl := Option.some.inj hcam
        exact ⟨rfl, (Prod.mk.inj hrest).1.symm⟩
      | some init =>
        rw [hinit] at h
        simp only [Option.elim_some] at h ⊢
        by_cases hrc : (init env.init implCtx).1 ≠ 0
        · rw [if_pos hrc] at h
          exact absurd h (hfails _ _ _)
        · rw [if_neg hrc] at h
          obtain ⟨hcam, hrest⟩ := Prod.mk.inj h
          obtain rfl := Option.some.inj hcam
          exact ⟨if_neg hrc, (Prod.mk.inj hrest).1.symm⟩

end Cases

/-! ## A backend that does nothing -/

/-- A backend without a device; its `init` fails if it is told to. -/
def nullInterface : CameraInterface Unit Bool Unit where
  acquire := fun _ impl out ↦ (1, out, impl)
  allowed := fun _ _ ↦ true
  init := some fun up impl ↦ (if up then 0 else -1, impl)
  deinit := some id

/-- A camera with one site and a context of its own. -/
def nullConfig : CameraConfig where
  endpoint := some []
  zmqCtx := false
  cameraId := 0
  frameCap := 1

/-- A failed `init` is torn down like one that succeeded. -/
theorem settled_cameraLifecycle_initFails :
    Settled (cameraLifecycle nullInterface ⟨true, true, true, true, true, true, false⟩
      nullConfig ()) :=
  (settled_cameraLifecycle_iff rfl rfl).mpr fun _ ↦ ⟨rfl, rfl, Or.inr rfl, rfl, rfl⟩

/-- When the socket cannot be connected, the backend is torn down and `init` was never called. -/
theorem not_settled_cameraLifecycle_connectFails :
    .release .backend ∈ cameraLifecycle nullInterface ⟨true, true, true, true, true, false, true⟩
        nullConfig () ∧
      .acquire .backend ∉ cameraLifecycle nullInterface ⟨true, true, true, true, true, false, true⟩
        nullConfig () ∧
      ¬Settled (cameraLifecycle nullInterface ⟨true, true, true, true, true, false, true⟩
        nullConfig ()) := by
  decide +kernel

end SparseCamera
