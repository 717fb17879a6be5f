import SparseCamera.Smoke.Progress

/-!
# The smoke test, step by step

Three invariants of every execution, whatever the cameras, the socket and the scheduler do.
`Flowing` follows the messages from the cameras to the sink, `Working` counts for every thread, and
`Reasoned` says at each place of `main` why it got there.

## The invariants

`Flowing` and `Working` are about the trace and hold of every state that can be reached. The first
says that what was sent by a camera is received or in its connection, and that the sink is what
these messages make of it. The second has a `Worked` for each thread, and what `main` has yet to
create.

`Reasoned` has a clause for each place of `main`. A clause about all cameras is built up one camera
after the other while `main` scans them. It survives the steps of the others because it speaks of
what cannot be undone: a thread that is finished stays finished.
-/

namespace SparseCamera

open Execution

variable {n : ℕ} {ι ε : Type}

/-! ## Messages -/

/-- What was sent is received or on the way, and it carries the id of the camera it came from. -/
structure Smoke.Flowing (launch : Launch n ι ε) (tr : List (SmokeEvent n)) (s : Smoke n ι) :
    Prop where
  ready : ∀ i, (s.cams i).Ready
  ids : ∀ i, (s.cams i).cameraId = (launch.cams i).cameraId
  named : ∀ i, ∀ msg ∈ s.pipes i, ∀ f, parse msg = some f →
    f.cameraId = (launch.cams i).cameraId
  conserved : ∀ i, sentOf i tr = deliveredOf i tr + (s.pipes i).length
  heard : ∃ history, history.map Prod.fst = messagesOf tr ∧ s.sink = receive launch.sink history
  heardNamed : ∀ msg ∈ messagesOf tr, ∀ f, parse msg = some f →
    ∃ i, f.cameraId = (launch.cams i).cameraId

section Flowing

variable {launch : Launch n ι ε} {s s' : Smoke n ι} {tr : List (SmokeEvent n)}
  {l : SmokeStep n ε}

theorem flowing_start (launch : Launch n ι ε) : (Smoke.start launch).Flowing launch [] where
  ready := launch.ready
  ids _ := rfl
  named _ _ hmsg := absurd hmsg List.not_mem_nil
  conserved _ := rfl
  heard := ⟨[], rfl, rfl⟩
  heardNamed _ hmsg := absurd hmsg List.not_mem_nil

theorem Smoke.Flowing.congr (h : s.Flowing launch tr) (hpipeline : s'.toPipeline = s.toPipeline) :
    s'.Flowing launch tr where
  ready := hpipeline ▸ h.ready
  ids := hpipeline ▸ h.ids
  named := hpipeline ▸ h.named
  conserved := hpipeline ▸ h.conserved
  heard := hpipeline ▸ h.heard
  heardNamed := h.heardNamed

theorem toPipeline_polled (s : Smoke n ι) (rc : ℤ) :
    (s.polled launch rc).toPipeline = s.toPipeline := by
  rcases s.polled_cases launch rc with ⟨-, heq⟩ | ⟨-, -, -, heq⟩ | ⟨-, heq⟩
  · rw [heq]
    rfl
  · rw [heq]
    rfl
  · rw [heq]

theorem Smoke.Flowing.tick (h : s.Flowing launch tr) {i : Fin n} {env : TickEnv ε} {rc : ℤ}
    {camera : CameraCtx ι} {message : Option Bytes} {acquired : Bool}
    (htick : cameraTick (launch.backend i) env (s.cams i) = (rc, camera, message))
    (hcams : s'.cams = Function.update s.cams i camera)
    (hpipes : s'.pipes = Function.update s.pipes i (s.pipes i ++ message.toList))
    (hsink : s'.sink = s.sink) : s'.Flowing launch (tr ++ [.tick i acquired message.isSome]) := by
  obtain ⟨hready, hid, hnamed⟩ :=
    @cameraTick_fills _ _ _ env _ (launch.fills i) (h.ready i)
  rw [htick] at hready hid hnamed
  rw [h.ids i] at hid hnamed
  refine ⟨?_, ?_, ?_, fun j ↦ ?_, ?_, ?_⟩
  · rw [hcams, Function.forall_update_iff s.cams fun _ camera ↦ camera.Ready]
    exact ⟨hready, fun j _ ↦ h.ready j⟩
  · rw [hcams, Function.forall_update_iff s.cams fun j camera ↦
      camera.cameraId = (launch.cams j).cameraId]
    exact ⟨hid, fun j _ ↦ h.ids j⟩
  · rw [hpipes, Function.forall_update_iff s.pipes fun j pipe ↦ ∀ msg ∈ pipe, ∀ f,
      parse msg = some f → f.cameraId = (launch.cams j).cameraId]
    refine ⟨?_, fun j _ ↦ h.named j⟩
    intro msg hmsg
    rcases List.mem_append.mp hmsg with hmsg | hmsg
    · exact h.named i msg hmsg
    · exact hnamed msg (Option.mem_toList.mp hmsg)
  · rw [hpipes]
    rcases eq_or_ne j i with rfl | hj
    · rw [Function.update_self, sentOf_tick_self, deliveredOf_tick, h.conserved j,
        List.length_append]
      cases message <;> simp [Nat.add_assoc]
    · rw [Function.update_of_ne hj, sentOf_tick_of_ne (Ne.symm hj), deliveredOf_tick]
      exact h.conserved j
  · rw [messagesOf_tick, hsink]
    exact h.heard
  · rw [messagesOf_tick]
    exact h.heardNamed

/-- A receive takes the oldest message of one camera off its connection. -/
theorem Smoke.Flowing.recv (h : s.Flowing launch tr) {i : Fin n} (granted : Bool) {msg : Bytes}
    {rest : List Bytes} (hpipe : s.pipes i = msg :: rest) (hcams : s'.cams = s.cams)
    (hpipes : s'.pipes = Function.update s.pipes i rest)
    (hsink : s'.sink = (sinkRecv granted s.sink (.message msg)).2) :
    s'.Flowing launch (tr ++ [.recv (some (i, msg))]) := by
  have hmem : msg ∈ s.pipes i := by
    rw [hpipe]
    exact List.mem_cons_self
  refine ⟨hcams ▸ h.ready, hcams ▸ h.ids, ?_, fun j ↦ ?_, ?_, ?_⟩
  · rw [hpipes, Function.forall_update_iff s.pipes fun j pipe ↦ ∀ msg ∈ pipe, ∀ f,
      parse msg = some f → f.cameraId = (launch.cams j).cameraId]
    refine ⟨?_, fun j _ ↦ h.named j⟩
    intro msg' hmsg'
    apply h.named i msg'
    rw [hpipe]
    exact List.mem_cons_of_mem msg hmsg'
  · rw [hpipes, sentOf_recv, deliveredOf_recv_some, h.conserved j]
    rcases eq_or_ne j i with rfl | hj
    · rw [Function.update_self, hpipe, List.length_cons, if_pos rfl]
      omega
    · rw [Function.update_of_ne hj, if_neg (Ne.symm hj), Nat.add_zero]
  · obtain ⟨history, hmessages, hreceive⟩ := h.heard
    refine ⟨history ++ [(msg, granted)], ?_, ?_⟩
    · rw [messagesOf_recv_some, List.map_append, hmessages]
      rfl
    · rw [hsink, hreceive, receive, receive, List.foldl_append]
      rfl
  · rw [messagesOf_recv_some]
    intro msg' hmsg' f hf
    rcases List.mem_append.mp hmsg' with hmsg' | hmsg'
    · exact h.heardNamed msg' hmsg' f hf
    · obtain rfl := List.mem_singleton.mp hmsg'
      exact ⟨i, h.named i msg' hmem f hf⟩

theorem Smoke.Flowing.recv_none (h : s.Flowing launch tr)
    (hpipeline : s'.toPipeline = s.toPipeline) : s'.Flowing launch (tr ++ [.recv none]) := by
  have h' := h.congr hpipeline
  refine ⟨h'.ready, h'.ids, h'.named, fun j ↦ ?_, ?_, ?_⟩
  · rw [sentOf_recv, deliveredOf_recv_none]
    exact h'.conserved j
  · rw [messagesOf_recv_none]
    exact h'.heard
  · rw [messagesOf_recv_none]
    exact h'.heardNamed

theorem flowing_step (h : s.Flowing launch tr) (hstep : s.step launch l = some s') :
    s'.Flowing launch (tr ++ (s.event launch l).toList) := by
  have hmoves := Smoke.moves_of_step hstep
  generalize s.event launch l = e at hmoves
  have hnone : s.Flowing launch (tr ++ (none : Option (SmokeEvent n)).toList) := by simpa using h
  cases hmoves with
  | tick hphase htick => exact h.tick htick rfl rfl rfl
  | @recv i granted msg rest hmain hpipe =>
    refine h.recv granted hpipe ?_ ?_ ?_
    · rw [toPipeline_polled]
    · rw [toPipeline_polled]
    · rw [toPipeline_polled]
  | silence hmain hempty => exact h.recv_none (toPipeline_polled _ _)
  | fault hmain hrc => exact h.recv_none (toPipeline_polled _ _)
  | _ => exact hnone.congr rfl

end Flowing

/-! ## Threads

A thread is idle until it is created, and it is created once. What it does after that is the
business of `CamThread.Worked`. -/

/-- Every thread makes its attempts, and no other thread is at work. -/
structure Smoke.Working (launch : Launch n ι ε) (tr : List (SmokeEvent n)) (s : Smoke n ι) :
    Prop where
  worked : ∀ i, (s.threads i).Worked launch.frames.toUInt64 (acquiredOf i tr) (sentOf i tr)
  unstarted : ∀ i, (s.threads i).started = false → (s.threads i).phase = .idle
  unborn : ∀ k, s.main = .spawn k → ∀ i : Fin n, k ≤ i → (s.threads i).started = false

section Working

variable {launch : Launch n ι ε} {s s' : Smoke n ι} {tr tr' : List (SmokeEvent n)}
  {l : SmokeStep n ε}

theorem working_start (launch : Launch n ι ε) : (Smoke.start launch).Working launch [] where
  worked i :=
    { want_eq := rfl
      sent_le_acquired := le_rfl
      sent_le := Nat.zero_le _
      acquired_le := fun _ ↦ Nat.zero_le _
      attempts_le := Nat.zero_le _
      attempts_lt := by
        rintro (hbad | hbad | ⟨rc, hbad⟩)
        · cases hbad
        · exact absurd hbad (lt_irrefl (0 : ℤ))
        · cases hbad
      done := fun hbad ↦ absurd hbad (lt_irrefl (0 : ℤ))
      negative := fun rc hbad ↦ by cases hbad
      nonpos := le_rfl }
  unstarted _ _ := rfl
  unborn _ _ _ _ := rfl

theorem Smoke.Working.setThread (h : s.Working launch tr) (i : Fin n) {ct : CamThread}
    (hthreads : s'.threads = Function.update s.threads i ct) (hmain : s'.main = s.main)
    (hphase : (s.threads i).phase ≠ .idle) (hstarted : ct.started = (s.threads i).started)
    (hworked : ct.Worked launch.frames.toUInt64 (acquiredOf i tr') (sentOf i tr'))
    (hother : ∀ j, j ≠ i → acquiredOf j tr' = acquiredOf j tr ∧ sentOf j tr' = sentOf j tr) :
    s'.Working launch tr' where
  worked j := by
    rw [hthreads]
    rcases eq_or_ne j i with rfl | hj
    · rwa [Function.update_self]
    · rw [Function.update_of_ne hj, (hother j hj).1, (hother j hj).2]
      exact h.worked j
  unstarted := by
    rw [hthreads, Function.forall_update_iff s.threads fun _ ct ↦
      ct.started = false → ct.phase = .idle]
    refine ⟨?_, fun j _ ↦ h.unstarted j⟩
    intro hnot
    rw [hstarted] at hnot
    exact absurd (h.unstarted i hnot) hphase
  unborn k hk j hj := by
    rw [hmain] at hk
    have hborn := h.unborn k hk j hj
    rw [hthreads]
    rcases eq_or_ne j i with rfl | hne
    · rw [Function.update_self, hstarted]
      exact hborn
    · rw [Function.update_of_ne hne]
      exact hborn

theorem Smoke.Working.goto (h : s.Working launch tr) (hthreads : s'.threads = s.threads)
    (hmain : ∀ k, s'.main ≠ .spawn k)
    (hcounts : ∀ j, acquiredOf j tr' = acquiredOf j tr ∧ sentOf j tr' = sentOf j tr) :
    s'.Working launch tr' where
  worked j := by
    rw [hthreads, (hcounts j).1, (hcounts j).2]
    exact h.worked j
  unstarted := hthreads ▸ h.unstarted
  unborn k hk := absurd hk (hmain k)

theorem Smoke.Working.created (h : s.Working launch tr) {k : ℕ} (hmain : s.main = .spawn k)
    (hk : k < n) :
    Smoke.Working launch tr
      { s.setThread ⟨k, hk⟩ { s.threads ⟨k, hk⟩ with started := true, phase := .loop } with
        main := .spawn (k + 1) } where
  worked j := by
    have hidle := h.unborn k hmain ⟨k, hk⟩ le_rfl
    have hphase := h.unstarted _ hidle
    have hworked := h.worked ⟨k, hk⟩
    have hlive := hworked.not_failed (by simp [hphase]) (by simp [hphase])
    simp only [Smoke.setThread]
    rcases eq_or_ne j ⟨k, hk⟩ with rfl | hj
    · rw [Function.update_self]
      exact hworked.move hlive (by simp [hphase]) (by simp) (by simp) (by simp)
    · rw [Function.update_of_ne hj]
      exact h.worked j
  unstarted := by
    simp only [Smoke.setThread]
    rw [Function.forall_update_iff s.threads fun _ ct ↦ ct.started = false → ct.phase = .idle]
    refine ⟨?_, fun j _ ↦ h.unstarted j⟩
    rintro ⟨⟩
  unborn k' hk' j hj := by
    obtain rfl := MainPhase.spawn.inj hk'
    have hne : j ≠ ⟨k, hk⟩ := by
      rintro rfl
      exact absurd hj (Nat.not_succ_le_self k)
    simp only [Smoke.setThread, Function.update_of_ne hne]
    exact h.unborn k hmain j (Nat.le_of_succ_le hj)

theorem threads_polled (s : Smoke n ι) (rc : ℤ) :
    (s.polled launch rc).threads = s.threads ∧ ∀ k, (s.polled launch rc).main ≠ .spawn k := by
  rcases s.polled_cases launch rc with ⟨-, heq⟩ | ⟨-, -, -, heq⟩ | ⟨-, heq⟩
  all_goals
    rw [heq]
    exact ⟨rfl, fun k ↦ by simp [Smoke.leave]⟩

theorem Smoke.Working.started (h : s.Working launch tr) {i : Fin n}
    (hphase : (s.threads i).phase ≠ .idle) : (s.threads i).started = true := by
  by_contra hnot
  exact hphase (h.unstarted i (Bool.eq_false_iff.mpr hnot))

theorem working_step (hframes : launch.frames ≠ 0) (h : s.Working launch tr)
    (hstep : s.step launch l = some s') : s'.Working launch (tr ++ (s.event launch l).toList) := by
  have hmoves := Smoke.moves_of_step hstep
  generalize s.event launch l = e at hmoves
  have hnone (j : Fin n) :
      acquiredOf j (tr ++ (none : Option (SmokeEvent n)).toList) = acquiredOf j tr ∧
        sentOf j (tr ++ (none : Option (SmokeEvent n)).toList) = sentOf j tr := by simp
  have hrecv (taken : Option (Fin n × Bytes)) (j : Fin n) :
      acquiredOf j (tr ++ [.recv taken]) = acquiredOf j tr ∧
        sentOf j (tr ++ [.recv taken]) = sentOf j tr := by simp
  have hwant : launch.frames.toUInt64 ≠ 0 := fun hzero ↦ hframes (by
    have := congrArg UInt64.toNat hzero
    rw [UInt32.toNat_toUInt64] at this
    exact UInt32.toNat_inj.mp this)
  cases hmoves with
  | @created k hmain hk =>
    rw [Option.toList_none, List.append_nil]
    exact h.created hmain hk
  | notCreated hmain hk => exact h.goto rfl (by simp) hnone
  | @enter i env hphase hmore =>
    have hlive := (h.worked i).not_failed (by simp [hphase]) (by simp [hphase])
    refine h.setThread i rfl rfl (by simp [hphase]) rfl ?_ fun j _ ↦ hnone j
    rw [(hnone i).1, (hnone i).2]
    refine (h.worked i).move hlive (by simp [hphase]) (by simp) (by simp) ?_
    intro _
    rw [(h.worked i).want_eq] at hmore
    -- `want` is zero only for a run without end
    exact hmore.resolve_left hwant
  | @finish i env hphase =>
    have hlive := (h.worked i).not_failed (by simp [hphase]) (by simp [hphase])
    refine h.setThread i rfl rfl (by simp [hphase]) rfl ?_ fun j _ ↦ hnone j
    rw [(hnone i).1, (hnone i).2]
    exact (h.worked i).move hlive (by simp [hphase]) (by simp) (by simp) (by simp)
  | @tick i env rc camera message hphase htick =>
    have hcases := @cameraTick_cases _ _ (launch.backend i) env (s.cams i)
    rw [htick] at hcases
    refine h.setThread i rfl rfl (by simp [hphase]) rfl ?_ fun j hj ↦ ?_
    · rw [Option.toList_some, acquiredOf_tick_self, sentOf_tick_self]
      exact (h.worked i).tick hphase hcases
    · rw [Option.toList_some, acquiredOf_tick_of_ne (Ne.symm hj), sentOf_tick_of_ne (Ne.symm hj)]
      exact ⟨rfl, rfl⟩
  | @store i env rc hphase =>
    refine h.setThread i rfl rfl (by simp [hphase]) rfl ?_ fun j _ ↦ hnone j
    rw [(hnone i).1, (hnone i).2]
    exact (h.worked i).store hphase
  | @tally i env hphase =>
    refine h.setThread i rfl rfl (by simp [hphase]) rfl ?_ fun j _ ↦ hnone j
    rw [(hnone i).1, (hnone i).2]
    exact (h.worked i).tally hphase
  | recv hmain hpipe => exact h.goto (threads_polled _ _).1 (threads_polled _ _).2 (hrecv _)
  | silence hmain hempty => exact h.goto (threads_polled _ _).1 (threads_polled _ _).2 (hrecv _)
  | fault hmain hrc => exact h.goto (threads_polled _ _).1 (threads_polled _ _).2 (hrecv _)
  | sigint =>
    refine ⟨fun j ↦ ?_, h.unstarted, h.unborn⟩
    rw [(hnone j).1, (hnone j).2]
    exact h.worked j
  | _ => exact h.goto rfl (by simp [Smoke.leave]) hnone

end Working

/-! ## Reasons

`main` may leave the loop for five reasons, and each is a fact about the state at that moment. The
facts that are needed later are those that last. -/

/-- The thread will make no more attempts. -/
def CamThread.Finished (ct : CamThread) : Prop := ct.rc < 0 ∨ ct.want ≤ ct.ticks

/-- What is so when `main` leaves the loop for a reason, and stays so. -/
def ExitReason.Holds (launch : Launch n ι ε) (s : Smoke n ι) : ExitReason → Prop
  | .total => launch.wantTotal ≠ 0 ∧ launch.wantTotal ≤ s.sink.stats.received
  | .quiet => ∀ i, (s.threads i).Finished
  | .stop | .fault | .deadline => True

/-- What is so at each place of `main`. -/
def Smoke.Reasoned (launch : Launch n ι ε) (s : Smoke n ι) : Prop :=
  match s.main with
  | .spawn k => ∀ i : Fin n, i < k → (s.threads i).started = true
  | .loop => s.gStop = true ∨ ∀ i, (s.threads i).started = true
  | .poll | .clock => ∀ i, (s.threads i).started = true
  | .scan k => (∀ i, (s.threads i).started = true) ∧ ∀ i : Fin n, i < k → (s.threads i).Finished
  | .join why => why.Holds launch s
  | .returned why status => why.Holds launch s ∧
    status = (if why = .deadline then 1 else sinkReport s.sink.toLedger) ∧
    ∀ i, (s.threads i).started = true → (s.threads i).phase = .done

section Reasoned

variable {launch : Launch n ι ε} {s s' : Smoke n ι} {tr : List (SmokeEvent n)}
  {l : SmokeStep n ε}

theorem reasoned_start (launch : Launch n ι ε) : (Smoke.start launch).Reasoned launch :=
  fun _ hlt ↦ absurd hlt (Nat.not_lt_zero _)

theorem CamThread.Worked.not_finished {ct : CamThread} {acquired sent : ℕ}
    (h : ct.Worked launch.frames.toUInt64 acquired sent) (hphase : ct.phase = .count) :
    ¬ct.Finished := by
  rintro (hrc | hticks)
  · exact absurd (h.done hrc) (by simp [hphase])
  · have hle := h.attempts_le
    have hticks := UInt64.le_iff_toNat_le.mp hticks
    rw [h.want_eq] at hticks
    simp only [CamThread.attempts, hphase, if_true] at hle
    omega

/-- A camera that was started and produces nothing has failed or made all its attempts. -/
theorem CamThread.Worked.finished_of_idle {ct : CamThread} {acquired sent : ℕ}
    (h : ct.Worked launch.frames.toUInt64 acquired sent) (hborn : ct.started = true)
    (hidle : ct.producing = false) : ct.Finished := by
  by_cases hrc : ct.rc = 0
  · apply Or.inr
    simp only [CamThread.producing, hborn, hrc, beq_self_eq_true, Bool.true_and,
      Bool.or_eq_false_iff, decide_eq_false_iff_not] at hidle
    exact UInt64.not_lt.mp hidle.2
  · exact Or.inl (lt_of_le_of_ne h.nonpos hrc)

theorem ExitReason.Holds.thread {why : ExitReason} (h : why.Holds launch s)
    (hsink : s'.sink = s.sink)
    (hfinished : ∀ i, (s.threads i).Finished → (s'.threads i).Finished) : why.Holds launch s' := by
  cases why with
  | total =>
    rw [Holds, hsink]
    exact h
  | quiet => exact fun i ↦ hfinished i (h i)
  | stop => trivial
  | fault => trivial
  | deadline => trivial

theorem Smoke.Reasoned.setThread (h : s.Reasoned launch) (i : Fin n) {ct : CamThread}
    (hthreads : s'.threads = Function.update s.threads i ct) (hmain : s'.main = s.main)
    (hsink : s'.sink = s.sink) (hstop : s'.gStop = s.gStop)
    (hstarted : ct.started = true) (hold : (s.threads i).started = true)
    (hfinished : (s.threads i).Finished → ct.Finished) (hbusy : (s.threads i).phase ≠ .done) :
    s'.Reasoned launch := by
  have hborn (j : Fin n) (hj : (s.threads j).started = true) : (s'.threads j).started = true := by
    rw [hthreads]
    rcases eq_or_ne j i with rfl | hne
    · rwa [Function.update_self]
    · rwa [Function.update_of_ne hne]
  have hdone (j : Fin n) (hj : (s.threads j).Finished) : (s'.threads j).Finished := by
    rw [hthreads]
    rcases eq_or_ne j i with rfl | hne
    · rw [Function.update_self]
      exact hfinished hj
    · rwa [Function.update_of_ne hne]
  rw [Reasoned] at h ⊢
  rw [hmain]
  cases hplace : s.main with
  | spawn k =>
    rw [hplace] at h
    exact fun j hj ↦ hborn j (h j hj)
  | loop =>
    rw [hplace] at h
    exact h.imp (fun hgo ↦ hstop.trans hgo) fun hall j ↦ hborn j (hall j)
  | poll =>
    rw [hplace] at h
    exact fun j ↦ hborn j (h j)
  | clock =>
    rw [hplace] at h
    exact fun j ↦ hborn j (h j)
  | scan k =>
    rw [hplace] at h
    exact ⟨fun j ↦ hborn j (h.1 j), fun j hj ↦ hdone j (h.2 j hj)⟩
  | join why =>
    rw [hplace] at h
    exact ExitReason.Holds.thread h hsink hdone
  | returned why status =>
    -- all threads are through, so none can move
    rw [hplace] at h
    exact absurd (h.2.2 i hold) hbusy

theorem Smoke.Reasoned.polled (hall : ∀ i, (s.threads i).started = true) (rc : ℤ) :
    (s.polled launch rc).Reasoned launch := by
  rcases s.polled_cases launch rc with ⟨-, heq⟩ | ⟨-, hne, hle, heq⟩ | ⟨-, heq⟩
  · rw [heq]
    trivial
  · rw [heq]
    exact ⟨hne, hle⟩
  · rw [heq]
    exact ⟨hall, fun _ hlt ↦ absurd hlt (Nat.not_lt_zero _)⟩

theorem Smoke.Reasoned.created (h : s.Reasoned launch) {k : ℕ} (hmain : s.main = .spawn k)
    (hk : k < n) : Smoke.Reasoned launch
      { s.setThread ⟨k, hk⟩ { s.threads ⟨k, hk⟩ with started := true, phase := .loop } with
        main := .spawn (k + 1) } := by
  rw [Reasoned, hmain] at h
  intro i hi
  simp only [Smoke.setThread]
  rcases eq_or_ne i ⟨k, hk⟩ with rfl | hne
  · rw [Function.update_self]
  · rw [Function.update_of_ne hne]
    exact h i (lt_of_le_of_ne (Nat.lt_succ_iff.mp hi) fun heq ↦ hne (Fin.ext heq))

/-- A signal sets the flag, which is a reason for being at the loop again and for nothing else. -/
theorem Smoke.Reasoned.sigint (h : s.Reasoned launch) :
    Smoke.Reasoned launch { s with gStop := true } := by
  rw [Reasoned] at h ⊢
  cases hplace : s.main with
  | loop => exact Or.inl rfl
  | join why =>
    rw [hplace] at h
    exact ExitReason.Holds.thread h rfl fun _ ↦ id
  | returned why status =>
    rw [hplace] at h
    exact ⟨h.1.thread rfl fun _ ↦ id, h.2⟩
  | _ =>
    rw [hplace] at h
    exact h

theorem reasoned_step (hwork : s.Working launch tr) (h : s.Reasoned launch)
    (hstep : s.step launch l = some s') : s'.Reasoned launch := by
  have hmoves := Smoke.moves_of_step hstep
  generalize s.event launch l = e at hmoves
  have hreason := h
  rw [Smoke.Reasoned] at hreason
  cases hmoves with
  | created hmain hk => exact h.created hmain hk
  | notCreated hmain hk => exact Or.inl rfl
  | @enter i env hphase hmore =>
    have hstarted : (s.threads i).started = true := hwork.started (by simp [hphase])
    exact h.setThread i rfl rfl rfl rfl hstarted hstarted id (by simp [hphase])
  | @finish i env hphase =>
    have hstarted : (s.threads i).started = true := hwork.started (by simp [hphase])
    exact h.setThread i rfl rfl rfl rfl hstarted hstarted id (by simp [hphase])
  | @tick i env rc camera message hphase htick =>
    have hstarted : (s.threads i).started = true := hwork.started (by simp [hphase])
    exact h.setThread i rfl rfl rfl rfl hstarted hstarted id (by simp [hphase])
  | @store i env rc hphase =>
    have hstarted : (s.threads i).started = true := hwork.started (by simp [hphase])
    exact h.setThread i rfl rfl rfl rfl hstarted hstarted
      (fun _ ↦ Or.inl ((hwork.worked i).negative rc hphase)) (by simp [hphase])
  | @tally i env hphase =>
    have hstarted : (s.threads i).started = true := hwork.started (by simp [hphase])
    exact h.setThread i rfl rfl rfl rfl hstarted hstarted
      (fun hfinished ↦ absurd hfinished ((hwork.worked i).not_finished hphase)) (by simp [hphase])
  | recv hmain hpipe =>
    rw [hmain] at hreason
    refine .polled ?_ 0
    exact hreason
  | silence hmain hempty =>
    rw [hmain] at hreason
    exact .polled hreason 1
  | fault hmain hrc =>
    rw [hmain] at hreason
    exact .polled hreason _
  | @started k hmain hk =>
    rw [hmain] at hreason
    exact Or.inr fun i ↦ hreason i (i.isLt.trans_le hk)
  | stop hmain hstop => trivial
  | poll hmain hstop =>
    rw [hmain] at hreason
    -- if a thread was missing the flag would be set
    apply hreason.resolve_left
    rw [hstop]
    exact Bool.false_ne_true
  | producing hmain =>
    rw [hmain] at hreason
    exact hreason.1
  | @idle k hmain hk hidle =>
    rw [hmain] at hreason
    refine ⟨hreason.1, fun i hi ↦ ?_⟩
    rcases Nat.lt_succ_iff_lt_or_eq.mp hi with hlt | heq
    · exact hreason.2 i hlt
    · obtain rfl : i = ⟨k, hk⟩ := Fin.ext heq
      exact (hwork.worked ⟨k, hk⟩).finished_of_idle (hreason.1 ⟨k, hk⟩) hidle
  | quiet hmain hk hquiet =>
    rw [hmain] at hreason
    exact fun i ↦ hreason.2 i (i.isLt.trans_le hk)
  | joined hmain hdone =>
    rw [hmain] at hreason
    exact ⟨hreason.thread rfl fun _ ↦ id, rfl, hdone⟩
  | late hmain => trivial
  | early hmain =>
    rw [hmain] at hreason
    exact Or.inr hreason
  | sigint => exact h.sigint

end Reasoned

end SparseCamera
