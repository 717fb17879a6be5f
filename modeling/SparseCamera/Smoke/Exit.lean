import SparseCamera.Smoke.Invariant
import SparseCamera.Smoke.Quiet

/-!
# The exit status

`main` returns what the sink reports, or 1 if time ran out. The report is about what arrived, so
the status says little about a camera that sent nothing. It says everything when `main` left the
loop because the total had arrived: no camera can make up for another, since none sends more than
its share.

## The construction

The status is read off the last step, and why `main` left the loop is part of the state
(`Smoke.Reasoned`). If it left because of the total, the sum of what was received is the sum of what
was asked for. No term can be larger than its share, so each is equal to it, and then nothing is
missing from any camera.
-/

namespace SparseCamera

open Execution KeyedHistory

variable {n : ℕ} {ι ε : Type}

section Invariants

variable {launch : Launch n ι ε} {steps : List (SmokeStep n ε)} {s : Smoke n ι}

theorem invariants_exec (hframes : launch.frames ≠ 0)
    (hexec : exec (Smoke.step launch) (.start launch) steps = some s) :
    s.Flowing launch (trace (Smoke.step launch) (Smoke.event launch) (.start launch) steps) ∧
    s.Working launch (trace (Smoke.step launch) (Smoke.event launch) (.start launch) steps) ∧
    s.Reasoned launch := by
  refine invariant_trace (P := fun _ ↦ True)
    (I := fun tr s ↦ s.Flowing launch tr ∧ s.Working launch tr ∧ s.Reasoned launch)
    ⟨flowing_start launch, working_start launch, reasoned_start launch⟩ ?_ hexec
    fun _ _ ↦ trivial
  rintro tr s l s' - ⟨hflow, hwork, hreason⟩ hstep
  refine ⟨flowing_step hflow hstep, working_step hframes hwork hstep, ?_⟩
  exact reasoned_step hwork hreason hstep

variable {tr : List (SmokeEvent n)}

/-- A camera delivers no more than it sends, and sends no more than its share. -/
theorem delivered_le (hflow : s.Flowing launch tr) (hwork : s.Working launch tr) (i : Fin n) :
    deliveredOf i tr ≤ sentOf i tr ∧ sentOf i tr ≤ launch.frames.toNat := by
  have hconserved := hflow.conserved i
  have hattempts := (hwork.worked i).attempts_le
  have hsent := (hwork.worked i).sent_le
  rw [UInt32.toNat_toUInt64] at hattempts
  omega

private theorem length_messagesOf_lt (hflow : s.Flowing launch tr) (hwork : s.Working launch tr) :
    (messagesOf tr).length ≤ n * launch.frames.toNat ∧ n * launch.frames.toNat < 2 ^ 64 := by
  have hsum : ∑ i, deliveredOf i tr ≤ n * launch.frames.toNat := by
    refine (Finset.sum_le_card_nsmul Finset.univ _ launch.frames.toNat fun i _ ↦ ?_).trans ?_
    · obtain ⟨hdelivered, hsent⟩ := delivered_le hflow hwork i
      exact hdelivered.trans hsent
    · simp
  have hfew := launch.few
  have hlt := launch.frames.toNat_lt
  refine ⟨length_messagesOf tr ▸ hsum, ?_⟩
  calc n * launch.frames.toNat ≤ sinkMaxCameras * launch.frames.toNat :=
        Nat.mul_le_mul_right _ hfew
    _ < 2 ^ 64 := by
        rw [sinkMaxCameras]
        omega

theorem received_eq (hflow : s.Flowing launch tr) (hwork : s.Working launch tr) :
    s.sink.stats.received.toNat = ∑ i, deliveredOf i tr := by
  obtain ⟨history, hmessages, hsink⟩ := hflow.heard
  obtain ⟨hle, hlt⟩ := length_messagesOf_lt hflow hwork
  have hlen : history.length = ∑ i, deliveredOf i tr := by
    rw [← length_messagesOf, ← hmessages, List.length_map]
  have hlt' : history.length < 2 ^ 64 := by
    rw [hlen, ← length_messagesOf]
    omega
  have hacc := accounts_receive launch.fresh history hlt'
  rw [hsink, hacc.received, length_decodeHistory, UInt64.toNat_ofNat_of_lt' hlt', hlen]

/-- When the total has arrived, every camera has sent its share and nothing was lost. -/
theorem complete_of_total (hflow : s.Flowing launch tr) (hwork : s.Working launch tr)
    (htotal : launch.wantTotal ≤ s.sink.stats.received) (i : Fin n) :
    (s.threads i).rc = 0 ∧ acquiredOf i tr = launch.frames.toNat ∧
      sentOf i tr = launch.frames.toNat ∧ deliveredOf i tr = launch.frames.toNat := by
  obtain ⟨-, hlt⟩ := length_messagesOf_lt hflow hwork
  have hwant : launch.wantTotal.toNat = n * launch.frames.toNat := by
    have hn : n < 2 ^ 64 := Nat.lt_of_le_of_lt launch.few (by decide)
    rw [Launch.wantTotal, UInt64.toNat_mul, UInt32.toNat_toUInt64, UInt64.toNat_ofNat_of_lt' hn,
      Nat.mul_comm]
    exact Nat.mod_eq_of_lt hlt
  have hle := UInt64.le_iff_toNat_le.mp htotal
  rw [hwant, received_eq hflow hwork] at hle
  have hdelivered : deliveredOf i tr = launch.frames.toNat := by
    -- one camera that fell short would leave the sum short
    by_contra hshort
    have hbound (j : Fin n) : deliveredOf j tr ≤ launch.frames.toNat :=
      (delivered_le hflow hwork j).1.trans (delivered_le hflow hwork j).2
    have hsum : ∑ j, deliveredOf j tr < ∑ _j : Fin n, launch.frames.toNat :=
      Finset.sum_lt_sum (fun j _ ↦ hbound j)
        ⟨i, Finset.mem_univ i, lt_of_le_of_ne (hbound i) hshort⟩
    rw [Finset.sum_const, Finset.card_univ, Fintype.card_fin, nsmul_eq_mul, Nat.cast_id] at hsum
    omega
  obtain ⟨hdelivered_le, hsent_le⟩ := delivered_le hflow hwork i
  have hworked := hwork.worked i
  have hattempts_le := hworked.attempts_le
  rw [UInt32.toNat_toUInt64] at hattempts_le
  have hsent := hworked.sent_le
  have hacquired := hworked.sent_le_acquired
  have hattempts : (s.threads i).attempts = launch.frames.toNat := by omega
  -- a failed thread is short of one attempt
  have hlive : ¬(s.threads i).Failed := by
    intro hfailed
    have hlt := hworked.attempts_lt (Or.inr hfailed)
    rw [UInt32.toNat_toUInt64] at hlt
    omega
  have hacquired_le := hworked.acquired_le hlive
  have hrc : ¬(s.threads i).rc < 0 := fun hrc ↦ hlive (Or.inl hrc)
  have hnonpos := hworked.nonpos
  refine ⟨?_, ?_, ?_, hdelivered⟩
  · omega
  · omega
  · omega

end Invariants

/-- **What a zero exit status means.** Time did not run out, something arrived, and everything that
arrived passed validation. If `main` left the loop because the total had arrived, no camera failed
and every frame that any camera acquired arrived, one for each attempt; if it left because of the
silence, every camera had made its attempts or failed. -/
theorem exit_zero {launch : Launch n ι ε} (hframes : launch.frames ≠ 0)
    {steps : List (SmokeStep n ε)} {s : Smoke n ι}
    (hexec : exec (Smoke.step launch) (.start launch) steps = some s) {why : ExitReason}
    (hreturned : s.main = .returned why 0) :
    let tr := trace (Smoke.step launch) (Smoke.event launch) (.start launch) steps
    why ≠ .deadline ∧ Clean launch.sink.check launch.sink.specs (messagesOf tr) ∧
    (why = .total → ∀ i, (s.threads i).rc = 0 ∧ acquiredOf i tr = launch.frames.toNat ∧
      sentOf i tr = launch.frames.toNat ∧ deliveredOf i tr = launch.frames.toNat) ∧
    (why = .quiet → ∀ i, (s.threads i).rc < 0 ∨
      (s.threads i).ticks.toNat = launch.frames.toNat) := by
  intro tr
  obtain ⟨hflow, hwork, hreason⟩ := invariants_exec hframes hexec
  rw [Smoke.Reasoned, hreturned] at hreason
  obtain ⟨hholds, hstatus, -⟩ := hreason
  have htime : why ≠ .deadline := by
    rintro rfl
    rw [if_pos rfl] at hstatus
    omega
  rw [if_neg htime] at hstatus
  refine ⟨htime, ?_, ?_, ?_⟩
  · obtain ⟨history, hmessages, hsink⟩ := hflow.heard
    obtain ⟨hle, hlt⟩ := length_messagesOf_lt hflow hwork
    have hlen : history.length < 2 ^ 64 := by
      have hmap : (history.map Prod.fst).length = history.length := List.length_map _
      rw [hmessages] at hmap
      omega
    rw [hsink] at hstatus
    have hmessages' : history.map Prod.fst = messagesOf tr := hmessages
    rw [← hmessages']
    refine clean_of_sinkReport launch.fresh history hlen ?_ hstatus.symm
    -- the ids are those of the cameras
    have hsub : keySet Contents.cameraId (framesOf (history.map Prod.fst))
        ⊆ Finset.univ.image fun i ↦ (launch.cams i).cameraId := by
      intro id hid
      obtain ⟨f, hf, rfl⟩ := (mem_keySet _).mp hid
      obtain ⟨msg, hmsg, hparse⟩ := List.mem_map.mp (List.reduceOption_mem_iff.mp hf)
      obtain ⟨i, hi⟩ := hflow.heardNamed msg (hmessages ▸ hmsg) f hparse
      exact Finset.mem_image.mpr ⟨i, Finset.mem_univ i, hi.symm⟩
    refine (Finset.card_le_card hsub).trans (Finset.card_image_le.trans ?_)
    rw [Finset.card_univ, Fintype.card_fin]
    exact launch.few
  · rintro rfl
    exact complete_of_total hflow hwork hholds.2
  · rintro rfl i
    refine (hholds i).imp id ?_
    intro hticks
    have hle := (hwork.worked i).attempts_le
    have hticks := UInt64.le_iff_toNat_le.mp hticks
    rw [(hwork.worked i).want_eq] at hticks
    rw [CamThread.attempts] at hle
    rw [UInt32.toNat_toUInt64] at hle hticks
    omega

/-! ## Two cameras of which one fails -/

/-- The only frame of the camera is sent and received. -/
def soloArrives : List (SmokeStep (smallBuilt buildMockCameras_one).length Int64) :=
  [.spawn true, .main, .main, soloRun .sent, soloRun .sent, soloRun .sent, soloRun .sent,
    .recv solo true, .main]

/-- Then the status is 0, and the frame was validated. -/
theorem exit_zero_solo :
    ∃ s, exec (Smoke.step soloLaunch) (.start soloLaunch) soloArrives = some s ∧
      (s.threads solo).rc = 0 ∧ deliveredOf solo
        (trace (Smoke.step soloLaunch) (Smoke.event soloLaunch) (.start soloLaunch) soloArrives)
          = 1 := by
  have hrun : (exec (Smoke.step soloLaunch) (.start soloLaunch) soloArrives).map Smoke.main
      = some (.returned .total 0) := by decide +kernel
  obtain ⟨s, hs, hmain⟩ := Option.map_eq_some_iff.mp hrun
  obtain ⟨-, -, htotal, -⟩ := exit_zero (by decide) hs hmain
  obtain ⟨hrc, -, -, hdelivered⟩ := htotal rfl solo
  exact ⟨s, hs, hrc, hdelivered⟩

def duoLaunch := smallLaunch buildMockCameras_two 1

def duoFirst : Fin (smallBuilt buildMockCameras_two).length := ⟨0, by decide +kernel⟩

def duoSecond : Fin (smallBuilt buildMockCameras_two).length := ⟨1, by decide +kernel⟩

/-- A step of a camera's thread half a second after the start. -/
def duoRun (i : Fin (smallBuilt buildMockCameras_two).length) (send : SendOutcome) :
    SmokeStep (smallBuilt buildMockCameras_two).length Int64 :=
  .run i { acquire := 500000000, stamp := 0, send := send }

/-- The first camera's frame arrives, the second camera's cannot be sent, and the socket stays
silent. -/
def duoFails : List (SmokeStep (smallBuilt buildMockCameras_two).length Int64) :=
  [.spawn true, .spawn true, .main, .main] ++
  [duoRun duoFirst .sent, duoRun duoFirst .sent, duoRun duoFirst .sent, duoRun duoFirst .sent] ++
  [duoRun duoSecond .failed, duoRun duoSecond .failed, duoRun duoSecond .failed] ++
  [.recv duoFirst true, .main, .main, .main, .clock false, .main] ++
  [.socket .nothing, .main, .main, .main, .clock false, .main] ++
  [.socket .nothing, .main, .main, .main, .main]

/-- **The status is 0 all the same**, though the second camera failed and nothing came from it. -/
theorem exit_zero_failed :
    ∃ s, exec (Smoke.step duoLaunch) (.start duoLaunch) duoFails = some s ∧
      (∀ l ∈ duoFails, l ≠ .sigint) ∧ 0 < duoLaunch.frames ∧ s.main = .returned .quiet 0 ∧
      (s.threads duoSecond).rc < 0 ∧ deliveredOf duoSecond
        (trace (Smoke.step duoLaunch) (Smoke.event duoLaunch) (.start duoLaunch) duoFails) = 0 := by
  have hrun : (exec (Smoke.step duoLaunch) (.start duoLaunch) duoFails).map
      (fun s ↦ (s.main, (s.threads duoSecond).rc)) = some (.returned .quiet 0, -3) := by
    decide +kernel
  obtain ⟨s, hs, hfacts⟩ := Option.map_eq_some_iff.mp hrun
  obtain ⟨hmain, hrc⟩ := Prod.mk.inj hfacts
  refine ⟨s, hs, by simp [duoFails, duoRun], by decide, hmain, ?_, by decide +kernel⟩
  rw [hrc]
  decide

end SparseCamera
