import SparseCamera.Lib.Nonfinite
import SparseCamera.Sink.Cadence
import SparseCamera.Smoke.Config

/-!
# The tolerance

The tolerance of the cadence check comes from the configuration, as a number that has to be
positive. The checks ask whether it is at most zero, and a NaN is not; nor is an infinity. Both are
words that `strtod` reads, and with either of them no time is ever out of tolerance. These words are
the only values that go wrong (`watched_iff`).

## The construction

What is asked of the check is that it can ever count: for a camera with a period there must be times
that are out of tolerance. With a finite positive tolerance all long ones are. With an infinity or a
NaN none is, as every comparison in `countsJitter` comes out false. The rest is about text: the
value of the key is one of these exactly when it is written as one (`strtod_nonfinite_iff`).
-/

namespace SparseCamera

open CString

/-- A value for an infinity or a NaN; blanks may stand around it. -/
def NamesNonfinite (raw : Bytes) : Prop :=
  ∃ t r, SpellsNonfinite t ∧ r.all isspace = true ∧ raw = t ++ r

/-- **The cadence check is alive**: the tolerance is a positive number, and for every camera with a
period there is a time beyond which every longer one counts as jitter. -/
structure Watched (sc : SinkConf) (sink : Sink) : Prop where
  tol : ∃ tol, sc.tol = .fin tol ∧ 0 < tol
  alive : ∀ (cam : CamState) (p : ℚ), cam.expectPeriodMs = .fin p → 0 < p →
    ∃ bound : ℚ, ∀ d > bound, countsJitter sink.check cam (.fin d) = true ∧
      ∀ f : Contents, 0 < cam.frames → cam.lastTNs < f.tNs →
        deltaMs f.tNs cam.lastTNs = .fin d → (faultsOf sink.check cam f).jitter = 1

/-! ## The configuration -/

section Load

variable {ini : Ini} {sc : SinkConf} {name key : Bytes}

private theorem trim_eq_nil_iff {s : Bytes} : trim s = [] ↔ s.all isspace = true := by
  rw [trim, List.strip_eq_nil_iff, List.all_eq_true]

/-- What `ini_get_f64` yields: the default, or what `strtod` makes of the whole value. -/
theorem iniGetF64_eq_ok {dflt v : ExtRat} :
    iniGetF64 ini name key dflt = .ok v ↔ (iniGet ini name key = none ∧ dflt = v) ∨
      ∃ raw rest, iniGet ini name key = some raw ∧ strtod raw = some ⟨v, false, rest⟩ ∧
        rest.all isspace = true := by
  rw [iniGetF64, iniGetWith_eq_ok]
  refine or_congr_right (exists_congr fun raw ↦ ?_)
  rw [exists_and_left]
  refine and_congr_right fun _ ↦ ?_
  cases hread : strtod raw with
  | none =>
    refine iff_of_false (fun h ↦ by cases h) ?_
    rintro ⟨rest, h, -⟩
    cases h
  | some c =>
    obtain ⟨value, erange, rest⟩ := c
    simp only
    constructor
    · intro h
      split_ifs at h with hbad
      rw [not_or, not_not, Bool.not_eq_true] at hbad
      obtain ⟨hrest, rfl⟩ := hbad
      obtain rfl := Except.ok.inj h
      exact ⟨rest, rfl, trim_eq_nil_iff.mp hrest⟩
    · rintro ⟨rest', h, hrest⟩
      obtain ⟨rfl, rfl, rfl⟩ := Converted.mk.inj (Option.some.inj h)
      rw [if_neg]
      rw [not_or, not_not]
      exact ⟨trim_eq_nil_iff.mpr hrest, Bool.false_ne_true⟩

theorem loadSinkConf_eq_ok (h : loadSinkConf ini = .ok sc) :
    iniGetU32 ini (ascii "sink") (ascii "frames") 100 = .ok sc.frames ∧
      iniGetF64 ini (ascii "sink") (ascii "tol") (.fin (1 / 2)) = .ok sc.tol ∧
      iniGetU32 ini (ascii "sink") (ascii "timeout_s") 60 = .ok sc.timeoutS ∧
      ¬sc.tol.le (.fin 0) = true := by
  rw [loadSinkConf] at h
  split_ifs at h
  obtain ⟨⟨⟩, -, h⟩ := bind_eq_ok.mp h
  obtain ⟨endpoint, -, h⟩ := bind_eq_ok.mp h
  obtain ⟨frames, hframes, h⟩ := bind_eq_ok.mp h
  obtain ⟨tol, htol, h⟩ := bind_eq_ok.mp h
  obtain ⟨timeoutS, htimeout, h⟩ := bind_eq_ok.mp h
  obtain ⟨verbose, -, h⟩ := bind_eq_ok.mp h
  split_ifs at h with hpos
  obtain rfl := Except.ok.inj h
  exact ⟨hframes, htol, htimeout, hpos⟩

/-- An accepted tolerance is finite unless it is spelled as an infinity or a NaN. -/
theorem tol_finite_iff (h : loadSinkConf ini = .ok sc) : (∃ tol, sc.tol = .fin tol ∧ 0 < tol) ↔
    ∀ raw, iniGet ini (ascii "sink") (ascii "tol") = some raw → ¬NamesNonfinite raw := by
  obtain ⟨-, htol, -, hpos⟩ := loadSinkConf_eq_ok h
  rw [iniGetF64_eq_ok] at htol
  constructor
  · rintro ⟨tol, hfin, -⟩ raw hraw hnames
    obtain ⟨v, rest, hread, -, hv⟩ := strtod_nonfinite_iff.mpr hnames
    obtain ⟨hnone, -⟩ | ⟨raw', rest', hraw', hread', -⟩ := htol
    · rw [hnone] at hraw
      cases hraw
    · obtain rfl := Option.some.inj (hraw.symm.trans hraw')
      obtain ⟨rfl, -⟩ := Converted.mk.inj (Option.some.inj (hread.symm.trans hread'))
      exact hv tol hfin
  · intro hnot
    have hfin : ∃ tol, sc.tol = .fin tol := by
      by_contra hnone
      obtain ⟨-, hdflt⟩ | ⟨raw, rest, hraw, hread, hrest⟩ := htol
      · exact hnone ⟨_, hdflt.symm⟩
      · exact hnot raw hraw
          (strtod_nonfinite_iff.mp ⟨_, rest, hread, hrest, fun q hq ↦ hnone ⟨q, hq⟩⟩)
    obtain ⟨tol, hfin⟩ := hfin
    rw [hfin, ExtRat.le_fin, decide_eq_true_eq, not_le] at hpos
    exact ⟨tol, hfin, hpos⟩

end Load

/-! ## The sink -/

section Serve

variable {ini : Ini} {sc : SinkConf} {check : SinkCheck} {sink : Sink}

private theorem check_observe (ledger : Ledger) (outcome : Option Contents) :
    (observe ledger outcome).check = ledger.check := by
  cases outcome with
  | none => rfl
  | some f => exact (validate_fixed (countReceived ledger) f).1

private theorem check_serve (granted : Bool) (sink : Sink) (request : SinkRequest) :
    (serve granted sink request).2.check = sink.check := by
  cases request with
  | expect specs => exact (congrArg Ledger.check (sinkExpect_ledger granted sink specs)).trans rfl
  | recv event =>
    cases event with
    | message msg => exact check_observe sink.toLedger _
    | nothing => rfl
    | pollFailed => rfl
    | recvFailed => rfl

theorem Served.check_eq (h : Served (some check) sink) (hpos : ¬check.tol.le (.fin 0) = true) :
    sink.check = check := by
  induction h with
  | new h =>
    rw [sinkNew, Option.getD_some, if_neg hpos] at h
    split at h
    · cases h
    · rw [← Option.some.inj h]
  | serve _ granted request ih => rw [check_serve, ih]

/-- **When an accepted tolerance keeps the cadence check alive**: when it is not spelled as an
infinity or a NaN. -/
theorem watched_iff (hload : loadSinkConf ini = .ok sc) (hserved : Served (some sc.check) sink) :
    Watched sc sink ↔
      ∀ raw, iniGet ini (ascii "sink") (ascii "tol") = some raw → ¬NamesNonfinite raw := by
  rw [← tol_finite_iff hload]
  refine ⟨Watched.tol, fun htol ↦ ⟨htol, fun cam p hperiod hp ↦ ?_⟩⟩
  obtain ⟨tol, hfin, -⟩ := htol
  have hcheck : sink.check.tol = .fin tol := by
    rw [hserved.check_eq (loadSinkConf_eq_ok hload).2.2.2]
    exact hfin
  refine ⟨p * (1 + tol), fun d hd ↦ ?_⟩
  have hout : countsJitter sink.check cam (.fin d) = true :=
    (countsJitter_iff hperiod hp hcheck).mpr fun hmem ↦ absurd hmem.2 (not_le.mpr hd)
  refine ⟨hout, fun f hframes hadv hdelta ↦ ?_⟩
  rw [faultsOf_jitter hframes, hdelta, if_pos ⟨hadv, hout⟩]

end Serve

def oneTol (value : Bytes) : Ini := ⟨[⟨ascii "sink", [⟨ascii "tol", value⟩]⟩]⟩

def tolConf (tol : ExtRat) : SinkConf :=
  { endpoint := some (ascii "ipc:///tmp/frames.sock")
    frames := 100
    tol := tol
    timeoutS := 60
    verbose := true }

theorem watched_quarter :
    loadSinkConf (oneTol (ascii "0.25")) = .ok (tolConf (.fin (1 / 4))) ∧
      ∃ sink, Served (some (tolConf (.fin (1 / 4))).check) sink ∧
        Watched (tolConf (.fin (1 / 4))) sink := by
  have hload : loadSinkConf (oneTol (ascii "0.25")) = .ok (tolConf (.fin (1 / 4))) := by
    decide +kernel
  obtain ⟨sink, hnew⟩ := Option.isSome_iff_exists.mp
    (show (sinkNew (some (tolConf (.fin (1 / 4))).check)).isSome = true by decide +kernel)
  refine ⟨hload, sink, .new hnew, (watched_iff hload (.new hnew)).mpr ?_⟩
  intro raw hraw hnames
  have hread : strtod raw = some ⟨.fin (1 / 4), false, []⟩ := by
    rw [← Option.some.inj hraw]
    decide +kernel
  obtain ⟨v, rest, hread', -, hv⟩ := strtod_nonfinite_iff.mpr hnames
  obtain ⟨rfl, -⟩ := Converted.mk.inj (Option.some.inj (hread.symm.trans hread'))
  exact hv (1 / 4) rfl

/-- **NaN is accepted as a tolerance**, and with it no time counts as jitter for any camera. -/
theorem watched_nan :
    loadSinkConf (oneTol (ascii "nan")) = .ok (tolConf .nan) ∧
      ∃ sink, Served (some (tolConf .nan).check) sink ∧
        (∀ cam dtMs, countsJitter sink.check cam dtMs = false) ∧ ¬Watched (tolConf .nan) sink := by
  have hload : loadSinkConf (oneTol (ascii "nan")) = .ok (tolConf .nan) := by
    decide +kernel
  obtain ⟨sink, hnew⟩ := Option.isSome_iff_exists.mp
    (show (sinkNew (some (tolConf .nan).check)).isSome = true by decide +kernel)
  have hcheck : sink.check = (tolConf .nan).check :=
    Served.check_eq (.new hnew) (loadSinkConf_eq_ok hload).2.2.2
  refine ⟨hload, sink, .new hnew, ?_, ?_⟩
  · intro cam dtMs
    have hless : ExtRat.fin 1 - .nan = .nan := rfl
    have hmore : ExtRat.fin 1 + .nan = .nan := rfl
    rw [countsJitter, hcheck, SinkConf.check, tolConf, hless, hmore, ExtRat.mul_nan, ExtRat.lt_nan,
      ExtRat.nan_lt, Bool.or_false, Bool.and_false]
  · rintro ⟨⟨tol, htol, -⟩, -⟩
    cases htol

end SparseCamera
