import SparseCamera.Lib.Fairness
import SparseCamera.Smoke.Quiet
import SparseCamera.Smoke.Invariant

/-!
# Stopping

The stop flag is set by a signal, by a `pthread_create` that fails and by leaving the drain loop,
and it is never cleared. From then on a thread is at most one tick away from its end and `main` at
most one turn of its loop: every step but a signal brings both closer, and until `main` has returned
there is a step that can be taken.

## The rank

Once the flag is set, a thread takes at most three steps: it comes back from its tick, counts it,
and leaves at the loop condition. `main` finishes the turn it is in, leaves, joins and returns.
`Smoke.stopRank` adds these up, and each step but a signal brings it down by one or more. That is
termination without any assumption about the scheduler.
-/

namespace SparseCamera

open Execution

variable {n : ℕ} {ι ε : Type}

/-! ## The distance to the end

The rank is a sum over the threads, and a step changes one term of it. -/

/-- The steps of a thread until it returns, once the stop flag is set. -/
def CamThread.stopRank (ct : CamThread) : ℕ :=
  match ct.phase with
  | .idle | .done => 0
  | .loop | .fail _ => 1
  | .count => 2
  | .tick => 3

/-- The steps of `main` until it returns, the threads it has yet to create included. -/
def MainPhase.stopRank (n : ℕ) : MainPhase → ℕ
  | .spawn k => 2 * (n - k) + 3
  | .loop => 2
  | .poll => n + 5
  | .scan k => n - k + 4
  | .clock => 3
  | .join _ => 1
  | .returned _ _ => 0

def Smoke.stopRank (s : Smoke n ι) : ℕ := s.main.stopRank n + ∑ i, (s.threads i).stopRank

/-- A step that no party of the program takes. -/
def SmokeStep.isSignal : SmokeStep n ε → Bool
  | .sigint => true
  | _ => false

theorem sum_update_add {β : Type*} (w : β → ℕ) (g : Fin n → β) (i : Fin n) (a : β) :
    ∑ j, w (Function.update g i a j) + w (g i) = ∑ j, w (g j) + w a := by
  have hrest : ∑ j ∈ Finset.univ.erase i, w (Function.update g i a j)
      = ∑ j ∈ Finset.univ.erase i, w (g j) := by
    refine Finset.sum_congr rfl fun j hj ↦ ?_
    rw [Function.update_of_ne (Finset.ne_of_mem_erase hj)]
  rw [← Finset.add_sum_erase _ _ (Finset.mem_univ i), ← Finset.add_sum_erase _ (fun j ↦ w (g j))
    (Finset.mem_univ i), Function.update_self, hrest]
  omega

section Rank

variable {launch : Launch n ι ε} {s s' : Smoke n ι} {l : SmokeStep n ε}

private theorem stopRank_le (s : Smoke n ι) : s.stopRank ≤ 5 * n + 5 := by
  have hthread (i : Fin n) : (s.threads i).stopRank ≤ 3 := by
    rw [CamThread.stopRank]
    split <;> omega
  have hthreads : ∑ i, (s.threads i).stopRank ≤ n * 3 := by
    refine (Finset.sum_le_card_nsmul Finset.univ _ 3 fun i _ ↦ hthread i).trans ?_
    simp
  have hmain : s.main.stopRank n ≤ 2 * n + 5 := by
    rw [MainPhase.stopRank.eq_def]
    split <;> omega
  rw [Smoke.stopRank]
  omega

private theorem stopRank_setThread {i : Fin n} {ct : CamThread}
    (hthreads : s'.threads = Function.update s.threads i ct) (hmain : s'.main = s.main)
    (hless : ct.stopRank < (s.threads i).stopRank) : s'.stopRank < s.stopRank := by
  have hsum := sum_update_add CamThread.stopRank s.threads i ct
  rw [Smoke.stopRank, Smoke.stopRank, hthreads, hmain]
  omega

private theorem stopRank_goto (hthreads : s'.threads = s.threads)
    (hless : s'.main.stopRank n < s.main.stopRank n) : s'.stopRank < s.stopRank := by
  rw [Smoke.stopRank, Smoke.stopRank, hthreads]
  omega

/-- A thread whose loop begins after the flag was set returns. -/
theorem camRun_of_stop (hstop : s.gStop = true) {i : Fin n} {env : TickEnv ε}
    (hphase : (s.threads i).phase = .loop) :
    s.camRun launch i env = some (s.setThread i { s.threads i with phase := .done }) := by
  simp [Smoke.camRun, hphase, hstop]

private theorem main_polled (s : Smoke n ι) (rc : ℤ) :
    (∃ why, (s.polled launch rc).main = .join why) ∨ (s.polled launch rc).main = .scan 0 := by
  rcases s.polled_cases launch rc with ⟨-, heq⟩ | ⟨-, -, -, heq⟩ | ⟨-, heq⟩
  · rw [heq]
    exact Or.inl ⟨.fault, rfl⟩
  · rw [heq]
    exact Or.inl ⟨.total, rfl⟩
  · rw [heq]
    exact Or.inr rfl

theorem gStop_polled {t : Smoke n ι} (hstop : t.gStop = true) (rc : ℤ) :
    (t.polled launch rc).gStop = true := by
  rcases t.polled_cases launch rc with ⟨-, heq⟩ | ⟨-, -, -, heq⟩ | ⟨-, heq⟩
  · rw [heq]
    rfl
  · rw [heq]
    rfl
  · rw [heq]
    exact hstop

/-- What was taken off the socket does not matter. -/
theorem stopRank_polled (hmain : s.main = .poll) {t : Smoke n ι} (hthreads : t.threads = s.threads)
    (rc : ℤ) : (t.polled launch rc).stopRank < s.stopRank := by
  refine stopRank_goto ((threads_polled t rc).1.trans hthreads) ?_
  rw [hmain]
  rcases @main_polled _ _ _ launch t rc with ⟨why, heq⟩ | heq
  · rw [heq, MainPhase.stopRank, MainPhase.stopRank]
    omega
  · rw [heq, MainPhase.stopRank, MainPhase.stopRank]
    omega

/-- **One step after the flag was set**: it stays set, and all but a signal bring the end closer. -/
theorem stopRank_step (hstop : s.gStop = true) (hstep : s.step launch l = some s') :
    s'.gStop = true ∧
      ((l.isSignal = true ∧ s' = s) ∨ (l.isSignal = false ∧ s'.stopRank < s.stopRank)) := by
  have hmoves := Smoke.moves_of_step hstep
  generalize s.event launch l = e at hmoves
  cases hmoves with
  | @created k hmain hk =>
    refine ⟨hstop, Or.inr ⟨rfl, ?_⟩⟩
    have hsum := sum_update_add CamThread.stopRank s.threads ⟨k, hk⟩
      { s.threads ⟨k, hk⟩ with started := true, phase := .loop }
    rw [Smoke.stopRank, Smoke.stopRank, hmain, MainPhase.stopRank, MainPhase.stopRank]
    change _ = _ + 1 at hsum
    change _ + ∑ j, (Function.update s.threads ⟨k, hk⟩ _ j).stopRank < _
    omega
  | @notCreated k hmain hk =>
    refine ⟨rfl, Or.inr ⟨rfl, stopRank_goto rfl ?_⟩⟩
    rw [hmain, MainPhase.stopRank, MainPhase.stopRank]
    omega
  | @enter i env hphase hmore =>
    -- with the flag set the loop is not entered
    have hdone := Option.some.inj ((camRun_of_stop hstop hphase).symm.trans hstep)
    have hbad := congrArg (fun s : Smoke n ι ↦ (s.threads i).phase) hdone
    simp [Smoke.setThread] at hbad
  | @finish i env hphase =>
    refine ⟨hstop, Or.inr ⟨rfl, stopRank_setThread rfl rfl ?_⟩⟩
    simp [CamThread.stopRank, hphase]
  | @tick i env rc camera message hphase htick =>
    refine ⟨hstop, Or.inr ⟨rfl, stopRank_setThread rfl rfl ?_⟩⟩
    rw [CamThread.stopRank, CamThread.stopRank, hphase]
    split_ifs <;> simp
  | @store i env rc hphase =>
    refine ⟨hstop, Or.inr ⟨rfl, stopRank_setThread rfl rfl ?_⟩⟩
    simp [CamThread.stopRank, hphase]
  | @tally i env hphase =>
    refine ⟨hstop, Or.inr ⟨rfl, stopRank_setThread rfl rfl ?_⟩⟩
    simp [CamThread.stopRank, hphase]
  | recv hmain hpipe =>
    refine ⟨gStop_polled ?_ 0, Or.inr ⟨rfl, stopRank_polled hmain ?_ 0⟩⟩
    · exact hstop
    · rfl
  | silence hmain hempty => exact ⟨gStop_polled hstop _, Or.inr ⟨rfl, stopRank_polled hmain rfl _⟩⟩
  | fault hmain hrc => exact ⟨gStop_polled hstop _, Or.inr ⟨rfl, stopRank_polled hmain rfl _⟩⟩
  | started hmain hk =>
    refine ⟨hstop, Or.inr ⟨rfl, stopRank_goto rfl ?_⟩⟩
    rw [hmain, MainPhase.stopRank, MainPhase.stopRank]
    omega
  | stop hmain hgo =>
    refine ⟨rfl, Or.inr ⟨rfl, stopRank_goto rfl ?_⟩⟩
    rw [hmain]
    simp [Smoke.leave, MainPhase.stopRank]
  | poll hmain hgo =>
    rw [hstop] at hgo
    cases hgo
  | producing hmain =>
    refine ⟨hstop, Or.inr ⟨rfl, stopRank_goto rfl ?_⟩⟩
    rw [hmain, MainPhase.stopRank, MainPhase.stopRank]
    omega
  | idle hmain hk hidle =>
    refine ⟨hstop, Or.inr ⟨rfl, stopRank_goto rfl ?_⟩⟩
    rw [hmain, MainPhase.stopRank, MainPhase.stopRank]
    omega
  | quiet hmain hk hquiet =>
    refine ⟨rfl, Or.inr ⟨rfl, stopRank_goto rfl ?_⟩⟩
    rw [hmain]
    simp only [Smoke.leave, MainPhase.stopRank]
    omega
  | joined hmain hdone =>
    refine ⟨hstop, Or.inr ⟨rfl, stopRank_goto rfl ?_⟩⟩
    rw [hmain, MainPhase.stopRank, MainPhase.stopRank]
    omega
  | late hmain =>
    refine ⟨rfl, Or.inr ⟨rfl, stopRank_goto rfl ?_⟩⟩
    rw [hmain]
    simp [Smoke.leave, MainPhase.stopRank]
  | early hmain =>
    refine ⟨hstop, Or.inr ⟨rfl, stopRank_goto rfl ?_⟩⟩
    rw [hmain]
    simp [MainPhase.stopRank]
  | sigint =>
    refine ⟨rfl, Or.inl ⟨rfl, ?_⟩⟩
    obtain ⟨p, threads, gStop, quiet, main⟩ := s
    rw [show gStop = true from hstop]

end Rank

/-! ## There is always a next step

`main` waits for a thread in one place only, and that thread is at work or has ended. A thread never
waits for anybody. -/

/-- A thread has begun exactly if it was started, those `main` has yet to create have not begun, and
when `main` has returned all have come to their end. -/
structure Smoke.Rostered (s : Smoke n ι) : Prop where
  begun : ∀ i, (s.threads i).started = true ↔ (s.threads i).phase ≠ .idle
  unborn : ∀ k, s.main = .spawn k → ∀ i : Fin n, k ≤ i → (s.threads i).phase = .idle
  ended : ∀ why status, s.main = .returned why status →
    ∀ i, (s.threads i).phase = .idle ∨ (s.threads i).phase = .done

/-- Every `acquire` that is under way can come back. -/
def Smoke.Answered (launch : Launch n ι ε) (s : Smoke n ι) : Prop :=
  ∀ i, ∃ e, (s.threads i).phase = .tick → (launch.backend i).allowed e (s.cams i).implCtx = true

section Next

variable {launch : Launch n ι ε} {s s' : Smoke n ι} {l : SmokeStep n ε}

private theorem rostered_start (launch : Launch n ι ε) : (Smoke.start launch).Rostered where
  begun _ := by simp [Smoke.start]
  unborn _ _ _ _ := rfl
  ended _ _ h := by simp [Smoke.start] at h

theorem Smoke.Rostered.setThread (h : s.Rostered) {i : Fin n} {ct : CamThread}
    (hthreads : s'.threads = Function.update s.threads i ct) (hmain : s'.main = s.main)
    (hstarted : ct.started = (s.threads i).started) (hbusy : (s.threads i).phase ≠ .idle)
    (hlive : (s.threads i).phase ≠ .done) (hphase : ct.phase ≠ .idle) : s'.Rostered where
  begun := by
    rw [hthreads, Function.forall_update_iff s.threads fun _ ct ↦
      ct.started = true ↔ ct.phase ≠ .idle]
    refine ⟨?_, fun j _ ↦ h.begun j⟩
    rw [hstarted, h.begun i]
    exact iff_of_true hbusy hphase
  unborn k hk j hj := by
    have hidle := h.unborn k (hmain ▸ hk) j hj
    rw [hthreads]
    rcases eq_or_ne j i with rfl | hne
    · exact absurd hidle hbusy
    · rwa [Function.update_of_ne hne]
  ended why status hret := by
    rcases h.ended why status (hmain ▸ hret) i with hidle | hdone
    · exact absurd hidle hbusy
    · exact absurd hdone hlive

theorem Smoke.Rostered.goto (h : s.Rostered) (hthreads : s'.threads = s.threads)
    (hspawn : ∀ k, s'.main ≠ .spawn k) (hreturned : ∀ why status, s'.main ≠ .returned why status) :
    s'.Rostered where
  begun := hthreads ▸ h.begun
  unborn k hk := absurd hk (hspawn k)
  ended why status hret := absurd hret (hreturned why status)

theorem Smoke.Rostered.polled (h : s.Rostered) {t : Smoke n ι} (hthreads : t.threads = s.threads)
    (rc : ℤ) : (t.polled launch rc).Rostered := by
  refine h.goto ((threads_polled t rc).1.trans hthreads) (threads_polled t rc).2 ?_
  intro why status
  rcases @main_polled _ _ _ launch t rc with ⟨why', heq⟩ | heq
  · rw [heq]
    exact MainPhase.noConfusion
  · rw [heq]
    exact MainPhase.noConfusion

private theorem rostered_step (h : s.Rostered) (hstep : s.step launch l = some s') :
    s'.Rostered := by
  have hmoves := Smoke.moves_of_step hstep
  generalize s.event launch l = e at hmoves
  cases hmoves with
  | @created k hmain hk =>
    have hidle := h.unborn k hmain
    refine ⟨?_, fun k' hk' j hj ↦ ?_, by simp⟩
    · simp only [Smoke.setThread]
      rw [Function.forall_update_iff s.threads fun _ ct ↦ ct.started = true ↔ ct.phase ≠ .idle]
      exact ⟨by simp, fun j _ ↦ h.begun j⟩
    · obtain rfl := MainPhase.spawn.inj hk'
      have hne : j ≠ ⟨k, hk⟩ := by
        rintro rfl
        exact absurd hj (Nat.not_succ_le_self k)
      simp only [Smoke.setThread, Function.update_of_ne hne]
      exact hidle j (Nat.le_of_succ_le hj)
  | notCreated hmain hk => exact h.goto rfl (by simp) (by simp)
  | enter hphase hmore =>
    exact h.setThread rfl rfl rfl (by simp [hphase]) (by simp [hphase]) (by simp)
  | finish hphase => exact h.setThread rfl rfl rfl (by simp [hphase]) (by simp [hphase]) (by simp)
  | tick hphase htick =>
    refine h.setThread rfl rfl rfl (by simp [hphase]) (by simp [hphase]) ?_
    split_ifs <;> simp
  | store hphase => exact h.setThread rfl rfl rfl (by simp [hphase]) (by simp [hphase]) (by simp)
  | tally hphase => exact h.setThread rfl rfl rfl (by simp [hphase]) (by simp [hphase]) (by simp)
  | recv hmain hpipe =>
    apply h.polled
    rfl
  | silence hmain hempty => exact h.polled rfl _
  | fault hmain hrc => exact h.polled rfl _
  | joined hmain hdone =>
    refine ⟨h.begun, by simp, fun _ _ _ i ↦ ?_⟩
    by_cases hphase : (s.threads i).phase = .idle
    · exact Or.inl hphase
    · exact Or.inr (hdone i ((h.begun i).mpr hphase))
  | sigint => exact ⟨h.begun, h.unborn, h.ended⟩
  | _ => exact h.goto rfl (by simp [Smoke.leave]) (by simp [Smoke.leave])

theorem rostered_exec {steps : List (SmokeStep n ε)}
    (hexec : exec (Smoke.step launch) (.start launch) steps = some s) : s.Rostered :=
  invariant (I := fun _ s ↦ s.Rostered) (rostered_start launch)
    (fun _ _ _ _ _ hI hstep ↦ rostered_step hI hstep) hexec

/-- The party of thread `i`. -/
def SmokeStep.ofThread (i : Fin n) : SmokeStep n ε → Prop
  | .run j _ => j = i
  | _ => False

/-- The party of `main`. -/
def SmokeStep.ofMain : SmokeStep n ε → Prop
  | .run _ _ | .sigint => False
  | _ => True

theorem canMove_thread (hanswered : s.Answered launch) {i : Fin n}
    (hbusy : (s.threads i).phase ≠ .idle) (hlive : (s.threads i).phase ≠ .done) :
    CanMove (Smoke.step launch) (SmokeStep.ofThread i) s := by
  obtain ⟨e, he⟩ := hanswered i
  refine ⟨.run i ⟨e, 0, .sent⟩, rfl, ?_⟩
  simp only [Smoke.step, Smoke.camRun]
  split
  · next hphase => exact absurd hphase hbusy
  · split_ifs <;> rfl
  · next hphase =>
    rw [Pipeline.tick, if_pos (he hphase)]
    rfl
  · rfl
  · rfl
  · next hphase => exact absurd hphase hlive

theorem canMove_main (hrost : s.Rostered) (hreturned : ∀ why status, s.main ≠ .returned why status)
    (hjoin : ∀ why, s.main = .join why →
      ∀ i, (s.threads i).phase = .idle ∨ (s.threads i).phase = .done) :
    CanMove (Smoke.step launch) SmokeStep.ofMain s := by
  cases hmain : s.main with
  | spawn k =>
    by_cases hk : k < n
    · exact ⟨.spawn true, trivial, by simp [Smoke.step, Smoke.spawn, hmain, hk]⟩
    · exact ⟨.main, trivial, by simp [Smoke.step, Smoke.mainStep, hmain, hk]⟩
  | loop =>
    refine ⟨.main, trivial, ?_⟩
    simp only [Smoke.step, Smoke.mainStep, hmain]
    split_ifs <;> rfl
  | poll =>
    by_cases hempty : ∀ i, s.pipes i = []
    · exact ⟨.socket .nothing, trivial, by simp [Smoke.step, Smoke.canReturn, hmain, hempty]⟩
    · -- a message is waiting
      obtain ⟨i, hi⟩ := not_forall.mp hempty
      obtain ⟨msg, rest, hpipe⟩ := List.exists_cons_of_ne_nil hi
      exact ⟨.recv i true, trivial, by simp [Smoke.step, Pipeline.recv, hmain, hpipe]⟩
  | scan k =>
    refine ⟨.main, trivial, ?_⟩
    simp only [Smoke.step, Smoke.mainStep, hmain]
    split_ifs <;> rfl
  | clock => exact ⟨.clock false, trivial, by simp [Smoke.step, hmain]⟩
  | join why =>
    have hdone : ∀ i, (s.threads i).started = true → (s.threads i).phase = .done := by
      intro i hi
      exact (hjoin why hmain i).resolve_left ((hrost.begun i).mp hi)
    refine ⟨.main, trivial, ?_⟩
    simp only [Smoke.step, Smoke.mainStep, hmain]
    rw [if_pos hdone]
    rfl
  | returned why status => exact absurd hmain (hreturned why status)

/-- **No deadlock**: until `main` has returned, some step of the program can be taken. -/
theorem exists_step (hrost : s.Rostered) (hanswered : s.Answered launch)
    (hreturned : ∀ why status, s.main ≠ .returned why status) :
    ∃ l : SmokeStep n ε, l.isSignal = false ∧ (s.step launch l).isSome = true := by
  by_cases hquiet : ∀ i, (s.threads i).phase = .idle ∨ (s.threads i).phase = .done
  · obtain ⟨l, hl, hsome⟩ := canMove_main hrost hreturned fun _ _ ↦ hquiet
    refine ⟨l, ?_, hsome⟩
    cases l with
    | sigint => exact hl.elim
    | _ => rfl
  · obtain ⟨i, hi⟩ := not_forall.mp hquiet
    obtain ⟨hbusy, hlive⟩ := not_or.mp hi
    obtain ⟨l, hl, hsome⟩ := canMove_thread hanswered hbusy hlive
    refine ⟨l, ?_, hsome⟩
    cases l with
    | run => rfl
    | _ => exact hl.elim

/-- When `main` has returned and all threads are through, nothing is left to do. -/
theorem step_of_returned {why : ExitReason} {status : ℤ} (hmain : s.main = .returned why status)
    (hdone : ∀ i, (s.threads i).phase = .idle ∨ (s.threads i).phase = .done)
    (hl : l.isSignal = false) : s.step launch l = none := by
  cases l with
  | spawn created => simp [Smoke.step, Smoke.spawn, hmain]
  | run i env =>
    simp only [Smoke.step, Smoke.camRun]
    rcases hdone i with hphase | hphase
    · rw [hphase]
    · rw [hphase]
  | recv i granted => simp [Smoke.step, hmain]
  | socket event => simp [Smoke.step, hmain]
  | main => simp [Smoke.step, Smoke.mainStep, hmain]
  | clock late => simp [Smoke.step, hmain]
  | sigint => cases hl

/-- After the flag was set, the steps of an execution are paid for by the rank. -/
theorem stopRank_exec {steps : List (SmokeStep n ε)} (hstop : s.gStop = true)
    (hexec : exec (Smoke.step launch) s steps = some s') :
    s'.gStop = true ∧ steps.countP (fun l ↦ !l.isSignal) + s'.stopRank ≤ s.stopRank := by
  refine invariant (I := fun ls t ↦ t.gStop = true ∧
    ls.countP (fun l ↦ !l.isSignal) + t.stopRank ≤ s.stopRank) ⟨hstop, by simp⟩ ?_ hexec
  rintro ls t l t' - ⟨ht, hle⟩ hstep
  obtain ⟨ht', hcase⟩ := stopRank_step ht hstep
  refine ⟨ht', ?_⟩
  rw [List.countP_append, List.countP_singleton]
  rcases hcase with ⟨hsignal, rfl⟩ | ⟨hsignal, hlt⟩
  · simpa [hsignal] using hle
  · simp only [hsignal, Bool.not_false, if_true]
    omega

end Next

/-- **The stop flag ends the program.** Whatever has happened before, with or without a number of
frames to send: once the flag is set, every way the threads and `main` can go on is over after at
most `5 n + 5` steps, and it does not get stuck before: where only signals are left and every
`acquire` under way comes back, `main` has returned and no thread is still at work. -/
theorem stop_returns {launch : Launch n ι ε} {steps more : List (SmokeStep n ε)} {s s' : Smoke n ι}
    (hexec : exec (Smoke.step launch) (.start launch) steps = some s) (hstop : s.gStop = true)
    (hmore : exec (Smoke.step launch) s more = some s') :
    more.countP (fun l ↦ !l.isSignal) ≤ 5 * n + 5 ∧
      (s'.Answered launch → (∀ l, l.isSignal = false → s'.step launch l = none) →
        (∃ why status, s'.main = .returned why status) ∧
        ∀ i, (s'.threads i).started = true → (s'.threads i).phase = .done) := by
  obtain ⟨-, hcount⟩ := stopRank_exec hstop hmore
  have hle := stopRank_le s
  refine ⟨by omega, fun hanswered hstuck ↦ ?_⟩
  have hrost : s'.Rostered := by
    apply @rostered_exec _ _ _ launch _ (steps ++ more)
    rw [exec_append, hexec, Option.bind_some, hmore]
  have hreturned : ∃ why status, s'.main = .returned why status := by
    by_contra hnot
    obtain ⟨l, hl, hsome⟩ := exists_step hrost hanswered fun why status hmain ↦
      hnot ⟨why, status, hmain⟩
    rw [hstuck l hl] at hsome
    cases hsome
  refine ⟨hreturned, fun i hi ↦ ?_⟩
  obtain ⟨why, status, hmain⟩ := hreturned
  exact (hrost.ended why status hmain i).resolve_left ((hrost.begun i).mp hi)

/-- A camera that would run for ever. -/
def endlessLaunch := smallLaunch buildMockCameras_one 0

/-- A signal comes while `main` waits for a message. -/
def endlessStops : List (SmokeStep (smallBuilt buildMockCameras_one).length Int64) :=
  [.spawn true, .main, soloRun .sent, .main, .sigint]

def endlessEnds : List (SmokeStep (smallBuilt buildMockCameras_one).length Int64) :=
  [.socket .nothing, .main, soloRun .sent, .clock false, soloRun .sent, .main, soloRun .sent, .main]

/-- After the signal a few steps bring the test to its end. -/
theorem stop_returns_endless :
    ∃ s s', exec (Smoke.step endlessLaunch) (.start endlessLaunch) endlessStops = some s ∧
      exec (Smoke.step endlessLaunch) s endlessEnds = some s' ∧
      (∀ l, l.isSignal = false → s'.step endlessLaunch l = none) ∧
      (∃ why status, s'.main = .returned why status) := by
  have hrun : (exec (Smoke.step endlessLaunch) (.start endlessLaunch) endlessStops).map
      Smoke.gStop = some true := by decide +kernel
  obtain ⟨s, hs, hstop⟩ := Option.map_eq_some_iff.mp hrun
  have hend : ((exec (Smoke.step endlessLaunch) (.start endlessLaunch) endlessStops).bind
      fun s ↦ exec (Smoke.step endlessLaunch) s endlessEnds).map
        (fun s ↦ (s.main, decide (∀ i, (s.threads i).phase = .done)))
        = some (.returned .stop 1, true) := by decide +kernel
  rw [hs, Option.bind_some] at hend
  obtain ⟨s', hs', hfacts⟩ := Option.map_eq_some_iff.mp hend
  obtain ⟨hmain, hdone⟩ := Prod.mk.inj hfacts
  have hphase := of_decide_eq_true hdone
  have hstuck : ∀ l, l.isSignal = false → s'.step endlessLaunch l = none :=
    fun l hl ↦ step_of_returned hmain (fun i ↦ Or.inr (hphase i)) hl
  have hanswered : s'.Answered endlessLaunch := fun i ↦ ⟨(0 : Int64), by simp [hphase i]⟩
  obtain ⟨-, hends⟩ := stop_returns hs hstop hs'
  exact ⟨s, s', hs, hs', hstuck, (hends hanswered hstuck).1⟩

end SparseCamera
