import SparseCamera.Smoke.Exit
import SparseCamera.Smoke.Stopping

/-!
# Every fair run ends

A camera that is to send a number of frames makes as many attempts at most. When all cameras are
through, what is left is on the way to the sink, and every call of `sink_recv` takes a message off
or counts one silence; two silences in a row end the loop. So a scheduler that keeps nobody waiting
for ever brings `main` to its end, however slow the cameras are, in whatever order the messages
arrive, and whether the total is reached or not.

## The construction

The argument has two halves with a rank each. First the threads: `workRank` bounds the steps they
have left, attempts included, and no step of another party raises it. So in a fair run they come to
rest, which means that all of them have ended. Then `main`: nobody sends any more, so what is on the
way can only become less, and `drainRank` bounds the calls of `sink_recv`. Both ranks come down
under the ranking rule for fair runs.
-/

namespace SparseCamera

open Execution

variable {n : ℕ} {ι ε : Type}

/-! ## What the threads have to do -/

/-- The steps of a thread until it returns, if its ticks do not fail. -/
def CamThread.workRank (ct : CamThread) : ℕ :=
  let left := ct.want.toNat - ct.ticks.toNat
  match ct.phase with
  | .idle => 3 * left + 2
  | .loop => 3 * left + 1
  | .tick => 3 * left
  | .count => 3 * left - 1
  | .fail _ => 1
  | .done => 0

def Smoke.workRank (s : Smoke n ι) : ℕ := ∑ i, (s.threads i).workRank

section Work

variable {launch : Launch n ι ε} {s s' : Smoke n ι} {tr : List (SmokeEvent n)}
  {l : SmokeStep n ε}

private theorem workRank_setThread {i : Fin n} {ct : CamThread}
    (hthreads : s'.threads = Function.update s.threads i ct)
    (hless : ct.workRank < (s.threads i).workRank) : s'.workRank < s.workRank := by
  have hsum := sum_update_add CamThread.workRank s.threads i ct
  rw [Smoke.workRank, Smoke.workRank, hthreads]
  omega

/-- **A thread that moves has less to do**, and so has one that is created; nobody else touches the
threads. -/
theorem workRank_step (hwork : s.Working launch tr) (hrost : s.Rostered)
    (hstep : s.step launch l = some s') :
    s'.workRank < s.workRank ∨ (s'.threads = s.threads ∧ ∀ i, ¬l.ofThread i) := by
  have hmoves := Smoke.moves_of_step hstep
  generalize s.event launch l = e at hmoves
  cases hmoves with
  | @created k hmain hk =>
    refine Or.inl (workRank_setThread rfl ?_)
    have hidle := hrost.unborn k hmain ⟨k, hk⟩ le_rfl
    simp [CamThread.workRank, hidle]
  | @enter i env hphase hmore =>
    refine Or.inl (workRank_setThread rfl ?_)
    simp [CamThread.workRank, hphase]
  | @finish i env hphase =>
    refine Or.inl (workRank_setThread rfl ?_)
    simp [CamThread.workRank, hphase]
  | @tick i env rc camera message hphase htick =>
    refine Or.inl (workRank_setThread rfl ?_)
    have hlt := (hwork.worked i).attempts_lt (Or.inl hphase)
    rw [CamThread.attempts, if_neg (by simp [hphase]), ← (hwork.worked i).want_eq] at hlt
    simp only [CamThread.workRank, hphase]
    split_ifs
    · simp only
      omega
    · simp only
      omega
  | @store i env rc hphase =>
    refine Or.inl (workRank_setThread rfl ?_)
    simp [CamThread.workRank, hphase]
  | @tally i env hphase =>
    refine Or.inl (workRank_setThread rfl ?_)
    have hsame := (hwork.worked i).attempts_tally hphase
    have hle := (hwork.worked i).attempts_le
    rw [← (hwork.worked i).want_eq] at hle
    simp only [CamThread.attempts, hphase, if_true, reduceCtorEq, if_false, Nat.add_zero]
      at hsame hle
    simp only [CamThread.workRank, hphase]
    omega
  | recv hmain hpipe => exact Or.inr ⟨(threads_polled _ _).1, fun _ ↦ id⟩
  | silence hmain hempty => exact Or.inr ⟨(threads_polled _ _).1, fun _ ↦ id⟩
  | fault hmain hrc => exact Or.inr ⟨(threads_polled _ _).1, fun _ ↦ id⟩
  | _ => exact Or.inr ⟨rfl, fun _ ↦ id⟩

/-! ## Threads that are through

`main` sees a thread as producing by what it has stored. A thread that has ended has stored a
failure or its full count, or the flag is set. -/

/-- A thread that is through is not taken to be producing, unless the stop flag is set. -/
def Smoke.Halted (s : Smoke n ι) : Prop :=
  ∀ i, (s.threads i).phase = .done → s.gStop = true ∨ (s.threads i).producing = false

private theorem halted_start (launch : Launch n ι ε) : (Smoke.start launch).Halted :=
  fun _ hdone ↦ absurd hdone (by simp [Smoke.start])

theorem Smoke.Halted.setThread (h : s.Halted) {i : Fin n} {ct : CamThread}
    (hthreads : s'.threads = Function.update s.threads i ct)
    (hstop : s.gStop = true → s'.gStop = true)
    (hct : ct.phase = .done → s'.gStop = true ∨ ct.producing = false) : s'.Halted := by
  rw [Smoke.Halted, hthreads, Function.forall_update_iff s.threads fun _ ct ↦
    ct.phase = .done → s'.gStop = true ∨ ct.producing = false]
  exact ⟨hct, fun j _ hdone ↦ (h j hdone).imp hstop id⟩

private theorem camRun_loop {i : Fin n} {env : TickEnv ε} (hphase : (s.threads i).phase = .loop)
    (hstep : s.camRun launch i env
      = some (s.setThread i { s.threads i with phase := .done })) :
    s.gStop = true ∨ (s.threads i).producing = false := by
  by_cases hmore : s.gStop = false ∧ ((s.threads i).want = 0 ∨
    (s.threads i).ticks < (s.threads i).want)
  · -- then it would have gone on
    simp only [Smoke.camRun, hphase, if_pos hmore] at hstep
    have hbad := congrArg (fun s : Smoke n ι ↦ (s.threads i).phase) (Option.some.inj hstep)
    simp [Smoke.setThread] at hbad
  · rcases not_and_or.mp hmore with hstop | hend
    · exact Or.inl (Bool.not_eq_false _ ▸ hstop)
    · obtain ⟨hwant, hticks⟩ := not_or.mp hend
      exact Or.inr (by simp [CamThread.producing, hwant, hticks])

private theorem halted_step (hwork : s.Working launch tr) (h : s.Halted)
    (hstep : s.step launch l = some s') : s'.Halted := by
  have hmoves := Smoke.moves_of_step hstep
  generalize s.event launch l = e at hmoves
  have hkeep (hthreads : s'.threads = s.threads) (hstop : s.gStop = true → s'.gStop = true) :
      s'.Halted := fun i hdone ↦ by
    rw [hthreads] at hdone ⊢
    exact (h i hdone).imp hstop id
  cases hmoves with
  | created hmain hk => exact h.setThread rfl id (by simp)
  | enter hphase hmore => exact h.setThread rfl id (by simp)
  | @finish i env hphase =>
    exact h.setThread rfl id fun _ ↦ camRun_loop hphase hstep
  | tick hphase htick =>
    refine h.setThread rfl id ?_
    split_ifs <;> simp
  | @store i env rc hphase =>
    have hneg := (hwork.worked i).negative rc hphase
    exact h.setThread rfl id fun _ ↦ Or.inr (by simp [CamThread.producing, hneg.ne])
  | tally hphase => exact h.setThread rfl id (by simp)
  | recv hmain hpipe =>
    refine hkeep (threads_polled _ 0).1 fun hstop ↦ gStop_polled ?_ 0
    exact hstop
  | silence hmain hempty => exact hkeep (threads_polled _ _).1 fun hstop ↦ gStop_polled hstop _
  | fault hmain hrc => exact hkeep (threads_polled _ _).1 fun hstop ↦ gStop_polled hstop _
  | notCreated hmain hk | stop hmain hstop | quiet hmain hk hquiet | late hmain | sigint =>
    exact hkeep rfl fun _ ↦ rfl
  | _ => exact hkeep rfl id

end Work

/-! ## What `main` has to do then

Each receive takes one message off, and each silence counts. A message resets the count, but there
are only so many messages. -/

def Smoke.inFlight (s : Smoke n ι) : ℕ := ∑ i, (s.pipes i).length

/-- How often `main` calls `sink_recv` before it leaves the loop, when nothing more is sent: once
for each message, and twice or what is left of it for the silence. -/
def Smoke.pollsLeft (s : Smoke n ι) : ℕ := if s.inFlight = 0 then 2 - s.quiet else s.inFlight + 2

/-- The steps of `main` until it returns, when nothing more is sent and the stop flag is not set. -/
def MainPhase.drainRank (n pollsLeft quiet : ℕ) : MainPhase → ℕ
  | .spawn _ => (n + 5) * max 1 pollsLeft + 2 * n + 4
  | .loop => (n + 5) * max 1 pollsLeft + 2
  | .poll => (n + 5) * max 1 pollsLeft + 1
  | .scan k => (if 2 ≤ quiet then 0 else (n + 5) * pollsLeft) + (n - k) + 4
  | .clock => (n + 5) * max 1 pollsLeft + 3
  | .join _ => 1
  | .returned _ _ => 0

def Smoke.drainRank (s : Smoke n ι) : ℕ :=
  if s.gStop then s.main.stopRank n else s.main.drainRank n s.pollsLeft s.quiet

/-- No thread is at work. -/
def Smoke.Through (s : Smoke n ι) : Prop :=
  ∀ i, (s.threads i).phase = .idle ∨ (s.threads i).phase = .done

section Drain

variable {launch : Launch n ι ε} {s s' : Smoke n ι} {tr : List (SmokeEvent n)}
  {l : SmokeStep n ε}

theorem Smoke.Through.producing (h : s.Through) (hrost : s.Rostered) (hhalted : s.Halted)
    (hstop : s.gStop = false) (i : Fin n) : (s.threads i).producing = false := by
  rcases h i with hidle | hdone
  · have hnot : ¬(s.threads i).started = true := fun hstarted ↦ (hrost.begun i).mp hstarted hidle
    simp [CamThread.producing, Bool.eq_false_iff.mpr hnot]
  · refine (hhalted i hdone).resolve_left ?_
    rw [hstop]
    exact Bool.false_ne_true

private theorem le_turns (s : Smoke n ι) : n + 5 ≤ (n + 5) * max 1 s.pollsLeft := by
  apply Nat.le_mul_of_pos_right
  exact Nat.lt_of_lt_of_le Nat.one_pos (le_max_left _ _)

private theorem drainRank_stop (s : Smoke n ι) :
    Smoke.drainRank { s with gStop := true } ≤ s.drainRank := by
  have hturn := le_turns s
  rw [Smoke.drainRank, if_pos rfl, Smoke.drainRank]
  by_cases hstop : s.gStop = true
  · rw [if_pos hstop]
  · rw [if_neg hstop]
    cases s.main with
    | spawn k | loop | poll | scan k | clock =>
      simp only [MainPhase.stopRank, MainPhase.drainRank]
      omega
    | join why => exact le_rfl
    | returned why status => exact le_rfl

private theorem drainRank_leave (s : Smoke n ι) (why : ExitReason) :
    (s.leave why).drainRank = 1 := rfl

private theorem drainRank_going (hstop : s.gStop = false) :
    s.drainRank = s.main.drainRank n s.pollsLeft s.quiet := by
  rw [Smoke.drainRank, hstop]
  rfl

private theorem drainRank_goto (hstop : s.gStop = false) (hstop' : s'.gStop = false)
    (hpolls : s'.pollsLeft = s.pollsLeft) (hquiet : s'.quiet = s.quiet)
    (hless : s'.main.drainRank n s.pollsLeft s.quiet < s.main.drainRank n s.pollsLeft s.quiet) :
    s'.drainRank < s.drainRank := by
  rwa [drainRank_going hstop, drainRank_going hstop', hpolls, hquiet]

/-- **After `sink_recv`**, when what it did to the socket brought the polls that are left down. -/
theorem drainRank_polled (hmain : s.main = .poll) (hstop : s.gStop = false) {t : Smoke n ι}
    {rc : ℤ} (htstop : t.gStop = false)
    (hfewer : ∀ u : Smoke n ι, u.toPipeline = t.toPipeline →
      u.quiet = (if rc = 1 then t.quiet + 1 else 0) →
      2 ≤ u.quiet ∨ u.pollsLeft < max 1 s.pollsLeft) :
    (t.polled launch rc).drainRank < s.drainRank := by
  have hrank := drainRank_going hstop
  rw [hmain, MainPhase.drainRank] at hrank
  have hlast := le_turns s
  rcases t.polled_cases launch rc with ⟨-, heq⟩ | ⟨-, -, -, heq⟩ | ⟨-, heq⟩
  · rw [heq, drainRank_leave]
    omega
  · rw [heq, drainRank_leave]
    omega
  · rw [heq, hrank]
    generalize hu : ({ t with quiet := if rc = 1 then t.quiet + 1 else 0, main := .scan 0 } :
      Smoke n ι) = u
    obtain ⟨hpipeline, hquiet, hgo, hplace⟩ : u.toPipeline = t.toPipeline ∧
        (u.quiet = if rc = 1 then t.quiet + 1 else 0) ∧ u.gStop = false ∧ u.main = .scan 0 :=
      hu ▸ ⟨rfl, rfl, htstop, rfl⟩
    rw [drainRank_going hgo, hplace, MainPhase.drainRank]
    by_cases htwo : 2 ≤ u.quiet
    · rw [if_pos htwo]
      omega
    · have hless := (hfewer u hpipeline hquiet).resolve_left htwo
      have hturn := Nat.mul_le_mul_left (n + 5) hless
      rw [Nat.mul_succ] at hturn
      rw [if_neg htwo]
      omega

private theorem inFlight_recv {i : Fin n} {msg : Bytes} {rest : List Bytes}
    (hpipe : s.pipes i = msg :: rest) (hpipes : s'.pipes = Function.update s.pipes i rest) :
    s'.inFlight + 1 = s.inFlight := by
  have hsum := sum_update_add List.length s.pipes i rest
  rw [hpipe, List.length_cons] at hsum
  rw [Smoke.inFlight, Smoke.inFlight, hpipes]
  omega

private theorem inFlight_eq_zero : s.inFlight = 0 ↔ ∀ i, s.pipes i = [] := by
  rw [Smoke.inFlight, Finset.sum_eq_zero_iff]
  simp

private theorem mainStep_scan {k : ℕ} (hmain : s.main = .scan k)
    (hidle : ∀ i, (s.threads i).producing = false) :
    s.mainStep = if k < n then some { s with main := .scan (k + 1) }
      else if 2 ≤ s.quiet then some (s.leave .quiet) else some { s with main := .clock } := by
  rw [Smoke.mainStep, hmain]
  by_cases hk : k < n
  · simp [hk, hidle ⟨k, hk⟩]
  · simp [hk]

private theorem one_le_pollsLeft (hquiet : ¬2 ≤ s.quiet) : 1 ≤ s.pollsLeft := by
  rw [Smoke.pollsLeft]
  split_ifs
  · omega
  · omega

theorem Smoke.Through.camRun (h : s.Through) (i : Fin n) (env : TickEnv ε) :
    s.camRun launch i env = none := by
  simp only [Smoke.camRun]
  rcases h i with hphase | hphase
  · rw [hphase]
  · rw [hphase]

private theorem drainRank_recv (hmain : s.main = .poll) (hstop : s.gStop = false) {i : Fin n}
    {msg : Bytes} {rest : List Bytes} (hpipe : s.pipes i = msg :: rest) {t : Smoke n ι}
    (hpipes : t.pipes = Function.update s.pipes i rest) (htstop : t.gStop = false) :
    (t.polled launch 0).drainRank < s.drainRank := by
  refine drainRank_polled hmain hstop htstop fun u hu hquiet ↦ Or.inr ?_
  have hpipes' : u.pipes = Function.update s.pipes i rest := by rw [hu, hpipes]
  have hfewer := inFlight_recv hpipe hpipes'
  rw [if_neg (by decide)] at hquiet
  rw [Smoke.pollsLeft, Smoke.pollsLeft, hquiet]
  split_ifs
  all_goals omega

private theorem drainRank_silence (hmain : s.main = .poll) (hstop : s.gStop = false)
    (hempty : ∀ i, s.pipes i = []) : (s.polled launch 1).drainRank < s.drainRank := by
  refine drainRank_polled hmain hstop hstop fun u hu hquiet ↦ ?_
  have hnone : s.inFlight = 0 := inFlight_eq_zero.mpr hempty
  have hnone' : u.inFlight = 0 := inFlight_eq_zero.mpr fun i ↦ by rw [hu]; exact hempty i
  rw [if_pos rfl] at hquiet
  rw [Smoke.pollsLeft, Smoke.pollsLeft, if_pos hnone, if_pos hnone', hquiet]
  omega

/-- **One step when no thread is at work**: `main` comes closer to its end, or it is a signal, which
does not put the end off. -/
theorem drainRank_step (hthrough : s.Through) (hrost : s.Rostered) (hhalted : s.Halted)
    (hstep : s.step launch l = some s') (hthreads : s'.threads = s.threads) :
    s'.drainRank < s.drainRank ∨ (l.isSignal = true ∧ s'.drainRank ≤ s.drainRank) := by
  cases hstop : s.gStop with
  | true =>
    obtain ⟨hstop', hcase⟩ := stopRank_step hstop hstep
    have hsame : ∑ i, (s'.threads i).stopRank = ∑ i, (s.threads i).stopRank := by rw [hthreads]
    rw [Smoke.drainRank, if_pos hstop', Smoke.drainRank, if_pos hstop]
    rcases hcase with ⟨hsignal, rfl⟩ | ⟨hsignal, hlt⟩
    · exact Or.inr ⟨hsignal, le_rfl⟩
    · rw [Smoke.stopRank, Smoke.stopRank] at hlt
      exact Or.inl (by omega)
  | false =>
    have hidle := hthrough.producing hrost hhalted hstop
    have hturn := le_turns s
    have hrank := drainRank_going hstop
    have hmoves := Smoke.moves_of_step hstep
    generalize s.event launch l = e at hmoves
    cases hmoves with
    | @created k hmain hk =>
      -- a thread that was created would be at work
      have hphase := congrArg (fun threads ↦ (threads ⟨k, hk⟩).phase) hthreads
      simp only [Smoke.setThread, Function.update_self] at hphase
      rw [hrost.unborn k hmain ⟨k, hk⟩ le_rfl] at hphase
      cases hphase
    | enter | finish | tick | store | tally =>
      rw [Smoke.step, hthrough.camRun] at hstep
      cases hstep
    | notCreated hmain hk =>
      rw [hmain, MainPhase.drainRank] at hrank
      refine Or.inl ?_
      change 2 < s.drainRank
      omega
    | recv hmain hpipe => exact Or.inl (drainRank_recv hmain hstop hpipe rfl hstop)
    | silence hmain hempty =>
      refine Or.inl (drainRank_silence hmain hstop (hempty.resolve_left ?_))
      rw [hstop]
      exact Bool.false_ne_true
    | @fault event rc hmain hrc =>
      rw [hmain, MainPhase.drainRank] at hrank
      refine Or.inl ?_
      rw [Smoke.polled, if_pos hrc, drainRank_leave]
      omega
    | started hmain hk =>
      refine Or.inl (drainRank_goto hstop hstop rfl rfl ?_)
      rw [hmain, MainPhase.drainRank, MainPhase.drainRank]
      omega
    | stop hmain hgo =>
      rw [hstop] at hgo
      cases hgo
    | poll hmain hgo =>
      refine Or.inl (drainRank_goto hstop hstop rfl rfl ?_)
      rw [hmain, MainPhase.drainRank, MainPhase.drainRank]
      omega
    | @producing k hmain =>
      -- no camera is producing, so all have been looked at and the silence is not yet twofold
      rw [Smoke.step, mainStep_scan hmain hidle] at hstep
      have hclock := congrArg (Option.map Smoke.main) hstep
      by_cases hk : k < n
      · simp [hk] at hclock
      by_cases hquiet : 2 ≤ s.quiet
      · simp [hk, hquiet, Smoke.leave] at hclock
      have hpolls := one_le_pollsLeft hquiet
      refine Or.inl (drainRank_goto hstop hstop rfl rfl ?_)
      rw [hmain, MainPhase.drainRank, MainPhase.drainRank, if_neg hquiet, max_eq_right hpolls]
      omega
    | idle hmain hk hproducing =>
      refine Or.inl (drainRank_goto hstop hstop rfl rfl ?_)
      rw [hmain, MainPhase.drainRank, MainPhase.drainRank]
      omega
    | quiet hmain hk hquiet | late hmain =>
      rw [hmain, MainPhase.drainRank] at hrank
      refine Or.inl ?_
      rw [drainRank_leave]
      omega
    | joined hmain hdone =>
      refine Or.inl (drainRank_goto hstop hstop rfl rfl ?_)
      rw [hmain, MainPhase.drainRank, MainPhase.drainRank]
      omega
    | early hmain =>
      refine Or.inl (drainRank_goto hstop hstop rfl rfl ?_)
      rw [hmain, MainPhase.drainRank, MainPhase.drainRank]
      omega
    | sigint => exact Or.inr ⟨rfl, drainRank_stop s⟩

end Drain

/-! ## Fair runs -/

section Runs

variable {launch : Launch n ι ε} {r : Run (Smoke.step launch)} {t : ℕ}

private theorem run_invariants (hframes : launch.frames ≠ 0) (hstart : r.state 0 = .start launch)
    (t : ℕ) :
    (∃ tr, (r.state t).Working launch tr) ∧ (r.state t).Rostered ∧ (r.state t).Halted := by
  have hexec := r.exec_state t
  rw [hstart] at hexec
  refine ⟨⟨_, (invariants_exec hframes hexec).2.1⟩, rostered_exec hexec, ?_⟩
  have h := @invariant_trace _ _ _ _ (Smoke.event launch)
    (fun tr s ↦ s.Working launch tr ∧ s.Halted) (fun _ ↦ True) _
    ⟨working_start launch, halted_start launch⟩
    (fun tr s l s' _ hI hstep ↦ ⟨working_step hframes hI.1 hstep, halted_step hI.1 hI.2 hstep⟩)
    _ _ hexec fun _ _ ↦ trivial
  exact h.2

/-- Where the threads stay as they are from some time on, none is at work: it would be its turn. -/
theorem through_of_rest (hanswered : ∀ t, (r.state t).Answered launch)
    (hfair : ∀ i, r.Fair (SmokeStep.ofThread i))
    (hrest : ∀ t', t ≤ t' → (r.state t').threads = (r.state t).threads ∧
      ∀ i, ¬(r.label t').ofThread i) : (r.state t).Through := by
  by_contra hbusy
  obtain ⟨i, hi⟩ := not_forall.mp hbusy
  obtain ⟨hidle, hlive⟩ := not_or.mp hi
  obtain ⟨u, hu, hmoves⟩ := hfair i t fun t' ht' ↦ by
    rw [← (hrest t' ht').1] at hidle hlive
    exact canMove_thread (hanswered t') hidle hlive
  exact (hrest u hu).2 i hmoves

private theorem not_isSignal_of_ofMain {l : SmokeStep n ε} (h : l.ofMain) : ¬l.isSignal = true := by
  cases l with
  | sigint => exact h.elim
  | _ => exact Bool.false_ne_true

private theorem returns_of_stop (hstart : r.state 0 = .start launch)
    (hanswered : ∀ t, (r.state t).Answered launch) (hmain : r.Fair SmokeStep.ofMain)
    (hthreads : ∀ i, r.Fair (SmokeStep.ofThread i)) (hstop : (r.state t).gStop = true) :
    ∃ t why status, (r.state t).main = .returned why status := by
  have hstops (t' : ℕ) (ht' : t ≤ t') : (r.state t').gStop = true :=
    @Run.stays _ _ _ r (fun s ↦ s.gStop = true)
      (fun _ _ _ h hstep ↦ (stopRank_step h hstep).1) _ _ ht' hstop
  obtain ⟨u, hu, hrest⟩ := r.settles Smoke.stopRank t fun t' ht' ↦ by
    rcases (stopRank_step (hstops t' ht') (r.next t')).2 with ⟨-, heq⟩ | ⟨-, hlt⟩
    · rw [heq]
    · exact hlt.le
  -- from then on there are only signals, and they change nothing
  have hsignal (t' : ℕ) (ht' : u ≤ t') :
      (r.label t').isSignal = true ∧ r.state (t' + 1) = r.state t' := by
    rcases (stopRank_step (hstops t' (hu.trans ht')) (r.next t')).2 with hsame | ⟨-, hlt⟩
    · exact hsame
    · rw [hrest t' ht', hrest (t' + 1) (Nat.le_succ_of_le ht')] at hlt
      exact absurd hlt (Nat.lt_irrefl _)
  have hsame (t' : ℕ) (ht' : u ≤ t') : r.state t' = r.state u := by
    induction t', ht' using Nat.le_induction with
    | base => rfl
    | succ v hv ih => exact (hsignal v hv).2.trans ih
  have hthrough := through_of_rest hanswered hthreads fun t' ht' ↦ by
    refine ⟨congrArg Smoke.threads (hsame t' ht'), fun i hi ↦ ?_⟩
    have hsig := (hsignal t' ht').1
    cases hlabel : r.label t' with
    | run j env =>
      rw [hlabel] at hsig
      cases hsig
    | _ =>
      rw [hlabel] at hi
      exact hi.elim
  by_contra hnever
  have hrost : (r.state u).Rostered := by
    have hexec := r.exec_state u
    rw [hstart] at hexec
    exact rostered_exec hexec
  have hcan : CanMove (Smoke.step launch) SmokeStep.ofMain (r.state u) :=
    canMove_main hrost (fun why status h ↦ hnever ⟨u, why, status, h⟩) fun _ _ ↦ hthrough
  obtain ⟨v, hv, hmoves⟩ := hmain u fun t' ht' ↦ by
    rw [hsame t' ht']
    exact hcan
  exact not_isSignal_of_ofMain hmoves (hsignal v hv).1

/-- With a number of frames to send, the threads come to their end, and then `main` does. -/
theorem returns_of_frames (hframes : launch.frames ≠ 0) (hstart : r.state 0 = .start launch)
    (hanswered : ∀ t, (r.state t).Answered launch) (hmain : r.Fair SmokeStep.ofMain)
    (hthreads : ∀ i, r.Fair (SmokeStep.ofThread i)) :
    ∃ t why status, (r.state t).main = .returned why status := by
  have hinv := run_invariants hframes hstart
  have hwork (t : ℕ) : (r.state (t + 1)).workRank < (r.state t).workRank ∨
      ((r.state (t + 1)).threads = (r.state t).threads ∧ ∀ i, ¬(r.label t).ofThread i) := by
    obtain ⟨⟨tr, hwork⟩, hrost, -⟩ := hinv t
    exact workRank_step hwork hrost (r.next t)
  obtain ⟨u, -, hrest⟩ := r.settles Smoke.workRank 0 fun t _ ↦ by
    rcases hwork t with hlt | ⟨hsame, -⟩
    · exact hlt.le
    · rw [Smoke.workRank, hsame, Smoke.workRank]
  have hstill (t : ℕ) (ht : u ≤ t) := (hwork t).resolve_left (by
    rw [hrest t ht, hrest (t + 1) (Nat.le_succ_of_le ht)]
    exact Nat.lt_irrefl _)
  have hsame (t : ℕ) (ht : u ≤ t) : (r.state t).threads = (r.state u).threads := by
    induction t, ht using Nat.le_induction with
    | base => rfl
    | succ v hv ih => exact (hstill v hv).1.trans ih
  have hthrough (t : ℕ) (ht : u ≤ t) : (r.state t).Through := by
    refine through_of_rest hanswered hthreads fun t' ht' ↦ ⟨?_, (hstill t' (ht.trans ht')).2⟩
    rw [hsame t ht, hsame t' (ht.trans ht')]
  have hdrain (t : ℕ) (ht : u ≤ t) := drainRank_step (hthrough t ht) (hinv t).2.1 (hinv t).2.2
    (r.next t) (hstill t ht).1
  obtain ⟨t, -, why, status, hreturned⟩ := Run.reaches hmain
    (fun s ↦ ∃ why status, s.main = .returned why status) Smoke.drainRank u
    (fun t ht hnot ↦ canMove_main (hinv t).2.1 (fun why status h ↦ hnot ⟨why, status, h⟩)
      fun _ _ ↦ hthrough t ht)
    (fun t ht _ hmoves ↦ (hdrain t ht).resolve_right fun h ↦ not_isSignal_of_ofMain hmoves h.1)
    (fun t ht _ _ ↦ (hdrain t ht).elim le_of_lt And.right)
  exact ⟨t, why, status, hreturned⟩

end Runs

/-- **Every fair run ends.** If a number of frames is to be sent, or the stop flag is set at some
time, and every `acquire` comes back, then under every scheduler that keeps neither `main` nor a
thread waiting for ever, whatever the backends and the socket do and however many signals arrive,
`main` returns, and then no thread is at work. -/
theorem fair_run_returns {launch : Launch n ι ε} {r : Run (Smoke.step launch)}
    (hstart : r.state 0 = .start launch)
    (hends : launch.frames ≠ 0 ∨ ∃ t, (r.state t).gStop = true)
    (hanswered : ∀ t, (r.state t).Answered launch) (hmain : r.Fair SmokeStep.ofMain)
    (hthreads : ∀ i, r.Fair (SmokeStep.ofThread i)) :
    ∃ t why status, (r.state t).main = .returned why status ∧
      ∀ i, ((r.state t).threads i).started = true → ((r.state t).threads i).phase = .done := by
  have hreturns : ∃ t why status, (r.state t).main = .returned why status := by
    rcases hends with hframes | ⟨t, hstop⟩
    · exact returns_of_frames hframes hstart hanswered hmain hthreads
    · exact returns_of_stop hstart hanswered hmain hthreads hstop
  obtain ⟨t, why, status, hreturned⟩ := hreturns
  have hexec := r.exec_state t
  rw [hstart] at hexec
  have hrost := rostered_exec hexec
  refine ⟨t, why, status, hreturned, fun i hi ↦ ?_⟩
  exact (hrost.ended why status hreturned i).resolve_left ((hrost.begun i).mp hi)

/-- A camera that sends its only frame, and signals for ever after. -/
theorem fair_run_returns_solo :
    ∃ r : Run (Smoke.step soloLaunch), r.state 0 = .start soloLaunch ∧
      ∃ t why status, (r.state t).main = .returned why status := by
  have hrun : (exec (Smoke.step soloLaunch) (.start soloLaunch) soloArrives).map
      (fun s ↦ (s.main, s.gStop, decide (∀ i, (s.threads i).phase = .done)))
      = some (.returned .total 0, true, true) := by decide +kernel
  obtain ⟨s, hs, hfacts⟩ := Option.map_eq_some_iff.mp hrun
  obtain ⟨hmain, hrest⟩ := Prod.mk.inj hfacts
  obtain ⟨hstop, hdone⟩ := Prod.mk.inj hrest
  have hidle : s.step soloLaunch .sigint = some s := by
    change some { s with gStop := true } = some s
    rw [← hstop]
  have hnone (P : SmokeStep _ Int64 → Prop) (hP : ∀ l, P l → l.isSignal = false) :
      ¬CanMove (Smoke.step soloLaunch) P s := by
    rintro ⟨l, hl, hsome⟩
    rw [step_of_returned hmain (fun i ↦ Or.inr (of_decide_eq_true hdone i)) (hP l hl)] at hsome
    cases hsome
  -- at every time the clock can reach the camera's deadline
  have hclock : ∀ t < soloArrives.length, ((exec (Smoke.step soloLaunch) (.start soloLaunch)
      (soloArrives.take t)).any fun s ↦ decide (∀ i, (s.threads i).phase = .tick →
        MockCtx.allowed 500000000 (s.cams i).implCtx = true)) = true := by decide +kernel
  have hanswered (t : ℕ) : ((Run.ofExec hs hidle).state t).Answered soloLaunch := by
    refine fun i ↦ ⟨(500000000 : Int64), fun hphase ↦ ?_⟩
    by_cases ht : t < soloArrives.length
    · obtain ⟨u, hu, hallowed⟩ := (Option.any_eq_true _ _).mp (hclock t ht)
      have hstate : (Run.ofExec hs hidle).state t = u := by
        change (exec _ _ (soloArrives.take t)).getD s = u
        rw [hu, Option.getD_some]
      rw [hstate] at hphase ⊢
      exact of_decide_eq_true hallowed i hphase
    · rw [Run.ofExec_state hs hidle (not_lt.mp ht), of_decide_eq_true hdone i] at hphase
      cases hphase
  have hmainFair : (Run.ofExec hs hidle).Fair SmokeStep.ofMain :=
    Run.fair_ofExec hs hidle (hnone _ fun _ hl ↦ Bool.eq_false_iff.mpr (not_isSignal_of_ofMain hl))
  have hthreadFair (i : Fin _) : (Run.ofExec hs hidle).Fair (SmokeStep.ofThread i) := by
    refine Run.fair_ofExec hs hidle (hnone _ fun l hl ↦ ?_)
    cases l with
    | run => rfl
    | _ => exact hl.elim
  obtain ⟨t, why, status, hreturned, -⟩ := fair_run_returns (Run.ofExec_state_zero hs hidle)
    (Or.inl (by decide)) hanswered hmainFair hthreadFair
  exact ⟨Run.ofExec hs hidle, rfl, t, why, status, hreturned⟩

end SparseCamera
