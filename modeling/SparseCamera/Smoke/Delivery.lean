import SparseCamera.Smoke.Exit

/-!
# Exact delivery

A tick that does not fail ends in one of three ways: the frame is sent, it is dropped because the
queue is full, or there was none in time. The camera counts the first two, its thread counts all
three together, and the sink counts what it receives, each at a moment of its own. Between these
moments the counts still add up: what the cameras have counted as sent is received or on the way,
and what a thread has counted as attempts is what its camera did with them.

No camera makes more attempts than it was asked for. So when the sink has received as many frames as
all cameras together were asked for, each one has sent its share and nothing else happened.

## The invariant

`Smoke.Tallied` relates the counters of a camera and the attempts of its thread to the outcomes of
its ticks so far. It is about the two ends of one thread and needs nothing about the sink. `Flowing`
has the rest of the way, from the sends to the receives, and the two meet in the number of sends.
-/

namespace SparseCamera

open Execution

variable {n : ℕ} {ι ε : Type}

/-- What became of a tick. -/
inductive TickOutcome where
  | sent
  /-- The queue was full. -/
  | dropped
  /-- The backend had no frame in time. -/
  | timedOut
  | failed
deriving DecidableEq

/-- What becomes of a tick of this camera. -/
def CameraCtx.outcome (camera : CameraCtx ι) (backend : Backend ι ε) (env : TickEnv ε) :
    TickOutcome :=
  if (cameraTick backend env camera).1 < 0 then .failed
  else if camera.acquires backend env = false then .timedOut
  else if (cameraTick backend env camera).2.2.isSome then .sent
  else .dropped

/-- The outcome of a tick, as an event of its own. -/
def Smoke.attempt (launch : Launch n ι ε) (s : Smoke n ι) :
    SmokeStep n ε → Option (Fin n × TickOutcome)
  | .run i env =>
    if (s.threads i).phase = .tick then some (i, (s.cams i).outcome (launch.backend i) env)
    else none
  | _ => none

/-- The outcomes of the ticks of an execution. -/
def attemptsOf (launch : Launch n ι ε) (steps : List (SmokeStep n ε)) :
    List (Fin n × TickOutcome) :=
  trace (Smoke.step launch) (Smoke.attempt launch) (.start launch) steps

/-- How often the backend of camera `i` had no frame in time. -/
def timedOutOf (i : Fin n) (attempts : List (Fin n × TickOutcome)) : ℕ :=
  attempts.count (i, .timedOut)

/-! ## One tick -/

section Tick

variable {backend : Backend ι ε} {env : TickEnv ε} {camera : CameraCtx ι}

/-- A tick that does not fail has one outcome, and the camera counts it if it sent or dropped a
frame. -/
theorem cameraTick_outcome :
    ((cameraTick backend env camera).1 < 0 ∧ camera.outcome backend env = .failed ∧
      (cameraTick backend env camera).2.1.sent = camera.sent ∧
      (cameraTick backend env camera).2.1.dropped = camera.dropped ∧
      (cameraTick backend env camera).2.2 = none) ∨
    (0 ≤ (cameraTick backend env camera).1 ∧ camera.outcome backend env = .timedOut ∧
      (cameraTick backend env camera).2.1.sent = camera.sent ∧
      (cameraTick backend env camera).2.1.dropped = camera.dropped ∧
      (cameraTick backend env camera).2.2 = none) ∨
    (0 ≤ (cameraTick backend env camera).1 ∧ camera.outcome backend env = .dropped ∧
      (cameraTick backend env camera).2.1.sent = camera.sent ∧
      (cameraTick backend env camera).2.1.dropped = camera.dropped + 1 ∧
      (cameraTick backend env camera).2.2 = none) ∨
    (0 ≤ (cameraTick backend env camera).1 ∧ camera.outcome backend env = .sent ∧
      (cameraTick backend env camera).2.1.sent = camera.sent + 1 ∧
      (cameraTick backend env camera).2.1.dropped = camera.dropped ∧
      (cameraTick backend env camera).2.2.isSome = true) := by
  rw [CameraCtx.outcome]
  rcases @cameraTick_counted _ _ backend env camera with ⟨hacq, hnone, hs, hd⟩ |
    ⟨hacq, hnone, hrc, hs, hd⟩ | ⟨hacq, hnone, hrc, hs, hd⟩ | ⟨hacq, hsome, hrc, hs, hd⟩
  · by_cases hneg : (cameraTick backend env camera).1 < 0
    · exact Or.inl ⟨hneg, if_pos hneg, hs, hd, hnone⟩
    · rw [if_neg hneg, if_pos hacq]
      exact Or.inr (Or.inl ⟨not_lt.mp hneg, rfl, hs, hd, hnone⟩)
  · exact Or.inl ⟨hrc, if_pos hrc, hs, hd, hnone⟩
  · have hneg : ¬(cameraTick backend env camera).1 < 0 := by omega
    refine Or.inr (Or.inr (Or.inl ⟨not_lt.mp hneg, ?_, hs, hd, hnone⟩))
    simp [hneg, hacq, hnone]
  · have hneg : ¬(cameraTick backend env camera).1 < 0 := by omega
    refine Or.inr (Or.inr (Or.inr ⟨not_lt.mp hneg, ?_, hs, hd, hsome⟩))
    simp [hneg, hacq, hsome]

private theorem counters_cameraTick :
    (cameraTick backend env camera).2.1.sent = camera.sent +
        UInt64.ofNat (if camera.outcome backend env = .sent then 1 else 0) ∧
      (cameraTick backend env camera).2.1.dropped = camera.dropped +
        UInt64.ofNat (if camera.outcome backend env = .dropped then 1 else 0) := by
  rcases @cameraTick_outcome _ _ backend env camera with
    ⟨-, ho, hs, hd, -⟩ | ⟨-, ho, hs, hd, -⟩ | ⟨-, ho, hs, hd, -⟩ | ⟨-, ho, hs, hd, -⟩
  all_goals rw [ho, hs, hd]
  · exact ⟨(UInt64.add_zero _).symm, (UInt64.add_zero _).symm⟩
  · exact ⟨(UInt64.add_zero _).symm, (UInt64.add_zero _).symm⟩
  · exact ⟨(UInt64.add_zero _).symm, rfl⟩
  · exact ⟨rfl, (UInt64.add_zero _).symm⟩

end Tick

/-! ## The counts

A thread counts an attempt one step after the tick. In between the tick is done and the attempt is
not counted yet, and `attempts` includes it. -/

/-- The counters of the cameras and of their threads, as the outcomes have it. -/
structure Smoke.Tallied (attempts : List (Fin n × TickOutcome)) (s : Smoke n ι) : Prop where
  sent : ∀ i, (s.cams i).sent = UInt64.ofNat (attempts.count (i, .sent))
  dropped : ∀ i, (s.cams i).dropped = UInt64.ofNat (attempts.count (i, .dropped))
  attempts : ∀ i, attempts.count (i, .sent) + attempts.count (i, .dropped) +
    timedOutOf i attempts = (s.threads i).attempts

section Tallied

variable {launch : Launch n ι ε} {s s' : Smoke n ι} {tr : List (Fin n × TickOutcome)}
  {l : SmokeStep n ε}

private theorem tallied_start
    (hzero : ∀ i, (launch.cams i).sent = 0 ∧ (launch.cams i).dropped = 0) :
    (Smoke.start launch).Tallied [] where
  sent i := (hzero i).1
  dropped i := (hzero i).2
  attempts _ := rfl

theorem Smoke.Tallied.congr (h : s.Tallied tr) (hcams : s'.cams = s.cams)
    (hattempts : ∀ i, (s'.threads i).attempts = (s.threads i).attempts) : s'.Tallied tr where
  sent := hcams ▸ h.sent
  dropped := hcams ▸ h.dropped
  attempts i := (h.attempts i).trans (hattempts i).symm

private theorem attempts_update {i : Fin n} {ct : CamThread}
    (h : ct.attempts = (s.threads i).attempts) (j : Fin n) :
    (Function.update s.threads i ct j).attempts = (s.threads j).attempts := by
  rcases eq_or_ne j i with rfl | hj
  · rw [Function.update_self, h]
  · rw [Function.update_of_ne hj]

/-- **A tick** is counted once: by the camera, by the outcomes, and by the thread that is about to
count it. -/
theorem Smoke.Tallied.tick (h : s.Tallied tr) {i : Fin n} {env : TickEnv ε}
    (hphase : (s.threads i).phase = .tick)
    (hcams : s'.cams
      = Function.update s.cams i (cameraTick (launch.backend i) env (s.cams i)).2.1)
    (hthreads : s'.threads = Function.update s.threads i { s.threads i with
      phase := if (cameraTick (launch.backend i) env (s.cams i)).1 < 0 then
          .fail (cameraTick (launch.backend i) env (s.cams i)).1
        else .count }) :
    s'.Tallied (tr ++ [(i, (s.cams i).outcome (launch.backend i) env)]) := by
  have hold : (s.threads i).attempts = (s.threads i).ticks.toNat := by
    simp [CamThread.attempts, hphase]
  have hsum := h.attempts i
  rw [hold] at hsum
  have hother (j : Fin n) (hj : j ≠ i) (o : TickOutcome) :
      (tr ++ [(i, (s.cams i).outcome (launch.backend i) env)]).count (j, o) = tr.count (j, o) := by
    simp [List.count_append, Ne.symm hj]
  have hself (o : TickOutcome) :
      (tr ++ [(i, (s.cams i).outcome (launch.backend i) env)]).count (i, o)
        = tr.count (i, o) + if (s.cams i).outcome (launch.backend i) env = o then 1 else 0 := by
    simp [List.count_append, List.count_singleton]
  obtain ⟨hsent, hdropped⟩ := @counters_cameraTick _ _ (launch.backend i) env (s.cams i)
  refine ⟨fun j ↦ ?_, fun j ↦ ?_, fun j ↦ ?_⟩
  · rw [hcams]
    rcases eq_or_ne j i with rfl | hj
    · rw [Function.update_self, hself, UInt64.ofNat_add, ← h.sent j]
      exact hsent
    · rw [Function.update_of_ne hj, hother j hj]
      exact h.sent j
  · rw [hcams]
    rcases eq_or_ne j i with rfl | hj
    · rw [Function.update_self, hself, UInt64.ofNat_add, ← h.dropped j]
      exact hdropped
    · rw [Function.update_of_ne hj, hother j hj]
      exact h.dropped j
  · rw [hthreads, timedOutOf]
    rcases eq_or_ne j i with rfl | hj
    · rw [Function.update_self, hself, hself, hself]
      rw [timedOutOf] at hsum
      rcases @cameraTick_outcome _ _ (launch.backend j) env (s.cams j) with
        ⟨hrc, ho, -⟩ | ⟨hrc, ho, -⟩ | ⟨hrc, ho, -⟩ | ⟨hrc, ho, -⟩
      · rw [if_pos hrc, ho]
        simpa [CamThread.attempts] using hsum
      all_goals
        rw [if_neg (not_lt.mpr hrc), ho]
        simp only [CamThread.attempts, if_true, reduceCtorEq, if_false]
        omega
    · rw [Function.update_of_ne hj, hother j hj, hother j hj, hother j hj]
      exact h.attempts j

theorem Smoke.Tallied.skip (h : s.Tallied tr) (hnone : s.attempt launch l = none)
    (hcams : s'.cams = s.cams) (hattempts : ∀ i, (s'.threads i).attempts = (s.threads i).attempts) :
    s'.Tallied (tr ++ (s.attempt launch l).toList) := by
  rw [hnone, Option.toList_none, List.append_nil]
  exact h.congr hcams hattempts

theorem Smoke.Tallied.polled (h : s.Tallied tr) (hnone : s.attempt launch l = none) {t : Smoke n ι}
    (hcams : t.cams = s.cams) (hthreads : t.threads = s.threads) (rc : ℤ) :
    (t.polled launch rc).Tallied (tr ++ (s.attempt launch l).toList) := by
  refine h.skip hnone ?_ fun i ↦ ?_
  · rw [toPipeline_polled]
    exact hcams
  · rw [(threads_polled t rc).1, hthreads]

private theorem tallied_step {events : List (SmokeEvent n)} (hwork : s.Working launch events)
    (h : s.Tallied tr) (hstep : s.step launch l = some s') :
    s'.Tallied (tr ++ (s.attempt launch l).toList) := by
  have hmoves := Smoke.moves_of_step hstep
  generalize s.event launch l = e at hmoves
  have hquiet {i : Fin n} {env : TickEnv ε} (hphase : (s.threads i).phase ≠ .tick) :
      s.attempt launch (.run i env) = none := if_neg hphase
  cases hmoves with
  | @tick i env rc camera message hphase htick =>
    rw [Smoke.attempt, if_pos hphase, Option.toList_some]
    refine h.tick hphase ?_ ?_
    · rw [htick]
      rfl
    · rw [htick]
      rfl
  | @created k hmain hk =>
    have hphase := hwork.unstarted _ (hwork.unborn k hmain ⟨k, hk⟩ le_rfl)
    refine h.skip rfl rfl (attempts_update ?_)
    simp [CamThread.attempts, hphase]
  | @enter i env hphase hmore =>
    refine h.skip (hquiet (by simp [hphase])) rfl (attempts_update ?_)
    simp [CamThread.attempts, hphase]
  | @finish i env hphase =>
    refine h.skip (hquiet (by simp [hphase])) rfl (attempts_update ?_)
    simp [CamThread.attempts, hphase]
  | @store i env rc hphase =>
    refine h.skip (hquiet (by simp [hphase])) rfl (attempts_update ?_)
    simp [CamThread.attempts, hphase]
  | @tally i env hphase =>
    refine h.skip (hquiet (by simp [hphase])) rfl (attempts_update ?_)
    exact (hwork.worked i).attempts_tally hphase
  | recv hmain hpipe =>
    refine h.polled ?_ ?_ ?_ 0
    · rfl
    · rfl
    · rfl
  | silence hmain hempty => exact h.polled rfl rfl rfl 1
  | fault hmain hrc => exact h.polled rfl rfl rfl _
  | _ => exact h.skip rfl rfl fun _ ↦ rfl

private theorem tallied_exec (hframes : launch.frames ≠ 0)
    (hzero : ∀ i, (launch.cams i).sent = 0 ∧ (launch.cams i).dropped = 0)
    {steps : List (SmokeStep n ε)}
    (hexec : exec (Smoke.step launch) (.start launch) steps = some s) :
    s.Tallied (attemptsOf launch steps) := by
  refine invariant (I := fun steps s ↦ s.Tallied (attemptsOf launch steps)) (tallied_start hzero)
    ?_ hexec
  intro steps s l s' hsteps hI hstep
  rw [attemptsOf, trace_concat l hsteps]
  exact tallied_step (invariants_exec hframes hsteps).2.1 hI hstep

end Tallied

/-! ## What is on the way -/

section Delivery

variable {launch : Launch n ι ε} {steps : List (SmokeStep n ε)} {s : Smoke n ι}

/-- The two ways to look at a step agree on what it sent. -/
theorem count_attempt (l : SmokeStep n ε) (i : Fin n) :
    (s.attempt launch l).toList.count (i, .sent) = sentOf i (s.event launch l).toList := by
  cases l with
  | run j env =>
    by_cases hphase : (s.threads j).phase = .tick
    · rw [Smoke.attempt, Smoke.event, if_pos hphase, if_pos hphase]
      have hsent : (s.cams j).outcome (launch.backend j) env = .sent ↔
          (cameraTick (launch.backend j) env (s.cams j)).2.2.isSome = true := by
        rcases @cameraTick_outcome _ _ (launch.backend j) env (s.cams j) with
          ⟨-, ho, -, -, hnone⟩ | ⟨-, ho, -, -, hnone⟩ | ⟨-, ho, -, -, hnone⟩ | ⟨-, ho, -, -, hsome⟩
        · simp [ho, hnone]
        · simp [ho, hnone]
        · simp [ho, hnone]
        · simp [ho, hsome]
      rw [Option.toList_some, Option.toList_some, sentOf, List.countP_singleton,
        List.count_singleton]
      refine if_congr ?_ rfl rfl
      rw [beq_iff_eq, Prod.mk.injEq, hsent, Bool.and_eq_true, decide_eq_true_iff]
    · rw [Smoke.attempt, Smoke.event, if_neg hphase, if_neg hphase]
      rfl
  | recv j granted =>
    cases hpipe : s.pipes j <;> simp [Smoke.attempt, Smoke.event, sentOf, hpipe]
  | spawn created => rfl
  | socket event => rfl
  | main => rfl
  | clock late => rfl
  | sigint => rfl

private theorem count_attemptsOf (hexec : exec (Smoke.step launch) (.start launch) steps = some s)
    (i : Fin n) : (attemptsOf launch steps).count (i, .sent)
      = sentOf i (trace (Smoke.step launch) (Smoke.event launch) (.start launch) steps) := by
  refine invariant (I := fun steps _ ↦ (attemptsOf launch steps).count (i, .sent)
    = sentOf i (trace (Smoke.step launch) (Smoke.event launch) (.start launch) steps)) rfl ?_ hexec
  intro steps s l s' hsteps hI hstep
  rw [attemptsOf, trace_concat l hsteps, trace_concat l hsteps, List.count_append, sentOf,
    List.countP_append]
  exact congrArg₂ (· + ·) hI (count_attempt l i)

/-- The counters of the cameras do not wrap: they count attempts. -/
theorem Smoke.Tallied.toNat (hwork : s.Working launch (trace (Smoke.step launch)
      (Smoke.event launch) (.start launch) steps)) (h : s.Tallied (attemptsOf launch steps))
    (i : Fin n) :
    (s.cams i).sent.toNat = (attemptsOf launch steps).count (i, .sent) ∧
      (s.cams i).dropped.toNat = (attemptsOf launch steps).count (i, .dropped) := by
  have hle := (hwork.worked i).attempts_le
  have hlt := launch.frames.toUInt64.toNat_lt
  have hsum := h.attempts i
  refine ⟨?_, ?_⟩
  · rw [h.sent i]
    exact UInt64.toNat_ofNat_of_lt' (by change _ < 2 ^ 64; omega)
  · rw [h.dropped i]
    exact UInt64.toNat_ofNat_of_lt' (by change _ < 2 ^ 64; omega)

end Delivery

/-- **Exact delivery.** For every launch of cameras that have counted nothing yet, and every
interleaving of their threads with `main`: what the cameras have counted as sent is received or on
the way; a camera's counts add up to its thread's attempts, of which the last may not be counted
yet, and there are no more of these than it was asked for; and if `main` left because the total had
arrived, every frame of every camera has arrived, and none was dropped or late. -/
theorem exact_delivery {launch : Launch n ι ε} (hframes : launch.frames ≠ 0)
    (hzero : ∀ i, (launch.cams i).sent = 0 ∧ (launch.cams i).dropped = 0)
    {steps : List (SmokeStep n ε)} {s : Smoke n ι}
    (hexec : exec (Smoke.step launch) (.start launch) steps = some s) :
    s.sink.stats.received.toNat + ∑ i, (s.pipes i).length = ∑ i, (s.cams i).sent.toNat ∧
    (∀ i, (s.cams i).sent.toNat + (s.cams i).dropped.toNat + timedOutOf i (attemptsOf launch steps)
        = (s.threads i).ticks.toNat + (if (s.threads i).phase = .count then 1 else 0) ∧
      (s.cams i).sent.toNat + (s.cams i).dropped.toNat + timedOutOf i (attemptsOf launch steps)
        ≤ launch.frames.toNat) ∧
    (s.LeftBy .total → s.sink.stats.received.toNat = n * launch.frames.toNat ∧
      (∀ i, s.pipes i = []) ∧ ∀ i, (s.cams i).sent.toNat = launch.frames.toNat ∧
        (s.cams i).dropped = 0 ∧ timedOutOf i (attemptsOf launch steps) = 0) := by
  obtain ⟨hflow, hwork, hreason⟩ := invariants_exec hframes hexec
  have htally := tallied_exec hframes hzero hexec
  have hsent (i : Fin n) := (htally.toNat hwork i).1.trans (count_attemptsOf hexec i)
  have hsum (i : Fin n) : (s.cams i).sent.toNat + (s.cams i).dropped.toNat +
      timedOutOf i (attemptsOf launch steps) = (s.threads i).attempts := by
    rw [(htally.toNat hwork i).1, (htally.toNat hwork i).2]
    exact htally.attempts i
  have hle (i : Fin n) : (s.threads i).attempts ≤ launch.frames.toNat := by
    have hle := (hwork.worked i).attempts_le
    rwa [UInt32.toNat_toUInt64] at hle
  refine ⟨?_, fun i ↦ ⟨hsum i, (hsum i).trans_le (hle i)⟩, fun hleft ↦ ?_⟩
  · rw [received_eq hflow hwork, ← Finset.sum_add_distrib]
    exact Finset.sum_congr rfl fun i _ ↦ ((hsent i).trans (hflow.conserved i)).symm
  · have htotal : launch.wantTotal ≤ s.sink.stats.received := by
      rcases hleft with hmain | ⟨status, hmain⟩
      · rw [Smoke.Reasoned, hmain] at hreason
        exact hreason.2
      · rw [Smoke.Reasoned, hmain] at hreason
        exact hreason.1.2
    have hall := complete_of_total hflow hwork htotal
    refine ⟨?_, fun i ↦ ?_, fun i ↦ ?_⟩
    · rw [received_eq hflow hwork, Finset.sum_congr rfl fun i _ ↦ (hall i).2.2.2,
        Finset.sum_const, Finset.card_univ, Fintype.card_fin, nsmul_eq_mul, Nat.cast_id]
    · have hconserved := hflow.conserved i
      obtain ⟨-, -, hs, hd⟩ := hall i
      rw [hs, hd] at hconserved
      exact List.length_eq_zero_iff.mp (by omega)
    · -- the camera sent its whole share, so no attempt is left for anything else
      have hs := (hsent i).trans (hall i).2.2.1
      have hsum := hsum i
      have hle := hle i
      refine ⟨hs, ?_, ?_⟩
      · exact UInt64.toNat_inj.mp (show (s.cams i).dropped.toNat = 0 by omega)
      · omega

private theorem buildMockCameras_zero {sections : List (MockSection × Int64)}
    {built : List (CameraCtx MockCtx × SinkCamSpec)}
    (hbuild : buildMockCameras sections = some built) (i : Fin built.length) :
    (built.get i).1.sent = 0 ∧ (built.get i).1.dropped = 0 := by
  have hproducing := (buildMockCameras_spec hbuild).2.2 _ (List.get_mem built i)
  exact ⟨hproducing.sent, hproducing.dropped⟩

/-- One camera and one frame: it was sent and received, and nothing is left. -/
theorem exact_delivery_solo :
    ∃ s, exec (Smoke.step soloLaunch) (.start soloLaunch) soloArrives = some s ∧
      s.sink.stats.received = 1 ∧ s.pipes solo = [] ∧ (s.cams solo).sent = 1 ∧
      (s.cams solo).dropped = 0 := by
  have hrun : (exec (Smoke.step soloLaunch) (.start soloLaunch) soloArrives).map Smoke.main
      = some (.returned .total 0) := by decide +kernel
  obtain ⟨s, hs, hmain⟩ := Option.map_eq_some_iff.mp hrun
  have hzero (i) : (soloLaunch.cams i).sent = 0 ∧ (soloLaunch.cams i).dropped = 0 :=
    buildMockCameras_zero (buildMockCameras_small _) i
  obtain ⟨-, -, htotal⟩ := exact_delivery (by decide) hzero hs
  obtain ⟨hreceived, hpipes, hcams⟩ := htotal (Or.inr ⟨0, hmain⟩)
  obtain ⟨hsent, hdropped, -⟩ := hcams solo
  have hshare : (smallBuilt buildMockCameras_one).length * soloLaunch.frames.toNat = 1 := by
    decide +kernel
  refine ⟨s, hs, UInt64.toNat_inj.mp ?_, hpipes solo, UInt64.toNat_inj.mp hsent, hdropped⟩
  exact hreceived.trans hshare

end SparseCamera
