import SparseCamera.Smoke.Mock

/-!
# The quiet rule

`main` gives up waiting for the total when the socket was silent twice in a row and no camera is
producing any more. It looks at the socket first and at the cameras afterwards, so a camera that
sends its last frame in between is seen as done while that frame is still on the way.

Without signals the rule is right exactly when no send is the last word: each one is followed by
another `sink_recv`.

## The invariant

`Smoke.Silent` compares two things while `main` counts silences: that nothing is on the way, and
that every send so far was followed by a receive. A `sink_recv` that finds nothing makes both true.
A send after it makes both false, and they stay false until the next `sink_recv`. What `main` does
in between, looking at the cameras, touches neither.
-/

namespace SparseCamera

open Execution

variable {n : ℕ} {ι ε : Type}

/-- The message of a tick was taken by the socket. -/
def SmokeEvent.IsSend : SmokeEvent n → Prop
  | .tick _ _ sent => sent = true
  | .recv _ => False

/-- `main` called `sink_recv`. -/
def SmokeEvent.IsRecv : SmokeEvent n → Prop
  | .tick _ _ _ => False
  | .recv _ => True

/-- While `main` has counted silence, what is on the way is what was sent since the last
`sink_recv`. -/
structure Smoke.Silent (tr : List (SmokeEvent n)) (s : Smoke n ι) : Prop where
  running : s.Inside → s.gStop = false
  empty_iff : ¬s.LeftBy .fault → 0 < s.quiet →
    ((∀ i, s.pipes i = []) ↔ FollowedBy SmokeEvent.IsSend SmokeEvent.IsRecv tr)
  twice : s.LeftBy .quiet → 2 ≤ s.quiet

section Silent

variable {launch : Launch n ι ε} {s s' : Smoke n ι} {tr : List (SmokeEvent n)}
  {l : SmokeStep n ε}

private theorem silent_start (launch : Launch n ι ε) : (Smoke.start launch).Silent [] where
  running := fun _ ↦ rfl
  empty_iff := fun _ h ↦ absurd h (by simp [Smoke.start])
  twice := fun h ↦ absurd h (by simp [Smoke.start, Smoke.LeftBy])

theorem Smoke.Silent.congr (h : s.Silent tr) (hstop : s'.gStop = s.gStop)
    (hpipes : s'.pipes = s.pipes) (hquiet : s'.quiet = s.quiet) (hmain : s'.main = s.main) :
    s'.Silent tr where
  running := by
    rw [Smoke.Inside, hmain, hstop]
    exact h.running
  empty_iff := by
    rw [Smoke.LeftBy, hmain, hquiet, hpipes]
    exact h.empty_iff
  twice := by
    rw [Smoke.LeftBy, hmain, hquiet]
    exact h.twice

theorem Smoke.Silent.goto (h : s.Silent tr) (hpipes : s'.pipes = s.pipes)
    (hquiet : s'.quiet = s.quiet) (hfault : s.LeftBy .fault → s'.LeftBy .fault)
    (hrunning : s'.Inside → s'.gStop = false) (htwice : s'.LeftBy .quiet → 2 ≤ s.quiet) :
    s'.Silent tr where
  running := hrunning
  empty_iff := by
    intro hnot hpos
    rw [hpipes]
    exact h.empty_iff (mt hfault hnot) (hquiet ▸ hpos)
  twice := by
    rw [hquiet]
    exact htwice

theorem Smoke.Silent.leave (h : s.Silent tr) (hfault : ¬s.LeftBy .fault) {why : ExitReason}
    (htwice : why = .quiet → 2 ≤ s.quiet) : (s.leave why).Silent tr := by
  refine h.goto rfl rfl (fun hleft ↦ absurd hleft hfault) ?_ ?_
  · exact fun hin ↦ absurd hin (not_inside_leave _ _)
  · exact fun hquiet ↦ htwice ((leftBy_leave s why .quiet).mp hquiet)

/-- A message that was taken is on the way, and nothing followed it yet. -/
theorem Smoke.Silent.tick (h : s.Silent tr) {i : Fin n} {acquired : Bool} {message : Option Bytes}
    (hstop : s'.gStop = s.gStop) (hquiet : s'.quiet = s.quiet) (hmain : s'.main = s.main)
    (hpipes : s'.pipes = Function.update s.pipes i (s.pipes i ++ message.toList)) :
    s'.Silent (tr ++ [.tick i acquired message.isSome]) where
  running := by
    rw [Smoke.Inside, hmain, hstop]
    exact h.running
  empty_iff := by
    rw [Smoke.LeftBy, hmain, hquiet, hpipes, followedBy_concat]
    intro hnot hpos
    cases message with
    | none =>
      rw [Option.toList_none, List.append_nil, Function.update_eq_self, h.empty_iff hnot hpos]
      simp [SmokeEvent.IsSend, SmokeEvent.IsRecv]
    | some msg =>
      -- a send that is the last word is still on the way
      refine iff_of_false (fun hempty ↦ ?_) fun hlast ↦ hlast.1 rfl
      have hself := hempty i
      rw [Function.update_self] at hself
      simp at hself
  twice := by
    rw [Smoke.LeftBy, hmain, hquiet]
    exact h.twice

theorem Smoke.Silent.recv (h : s.gStop = false) : (s.polled launch 0).Silent tr := by
  rcases s.polled_cases launch 0 with ⟨hneg, -⟩ | ⟨-, -, -, heq⟩ | ⟨-, heq⟩
  · exact absurd hneg (by decide)
  · rw [heq]
    refine ⟨fun hin ↦ absurd hin (not_inside_leave _ _), fun _ hpos ↦ ?_, by simp⟩
    exact absurd hpos (by simp [Smoke.leave])
  · rw [heq]
    exact ⟨fun _ ↦ h, fun _ hpos ↦ absurd hpos (by simp), by simp [Smoke.LeftBy]⟩

theorem Smoke.Silent.silence (h : s.gStop = false) (hempty : ∀ i, s.pipes i = []) :
    (s.polled launch 1).Silent (tr ++ [.recv none]) := by
  have hfollowed : FollowedBy SmokeEvent.IsSend SmokeEvent.IsRecv (tr ++ [.recv none]) :=
    followedBy_concat.mpr ⟨id, Or.inl trivial⟩
  rcases s.polled_cases launch 1 with ⟨hneg, -⟩ | ⟨-, -, -, heq⟩ | ⟨-, heq⟩
  · exact absurd hneg (by decide)
  · rw [heq]
    exact ⟨fun hin ↦ absurd hin (not_inside_leave _ _), fun _ _ ↦ iff_of_true hempty hfollowed,
      by simp⟩
  · rw [heq]
    exact ⟨fun _ ↦ h, fun _ _ ↦ iff_of_true hempty hfollowed, by simp [Smoke.LeftBy]⟩

private theorem silent_step (hl : l ≠ .sigint) (h : s.Silent tr)
    (hstep : s.step launch l = some s') :
    s'.Silent (tr ++ (s.event launch l).toList) := by
  have hmoves := Smoke.moves_of_step hstep
  generalize s.event launch l = e at hmoves
  have hnone : s.Silent (tr ++ (none : Option (SmokeEvent n)).toList) := by simpa using h
  cases hmoves with
  | created hmain hk | notCreated hmain hk | started hmain hk =>
    refine hnone.goto rfl rfl ?_ ?_ ?_
    · simp [Smoke.LeftBy, hmain]
    · simp [Smoke.Inside]
    · simp [Smoke.LeftBy]
  | enter hphase hmore => exact hnone.congr rfl rfl rfl rfl
  | finish hphase => exact hnone.congr rfl rfl rfl rfl
  | tick hphase htick => exact h.tick rfl rfl rfl rfl
  | store hphase => exact hnone.congr rfl rfl rfl rfl
  | tally hphase => exact hnone.congr rfl rfl rfl rfl
  | recv hmain hpipe => exact .recv (h.running (Or.inl hmain))
  | silence hmain hempty =>
    have hgo := h.running (Or.inl hmain)
    -- without a stop the socket is silent only when it is empty
    refine .silence hgo (hempty.resolve_left ?_)
    rw [hgo]
    exact Bool.false_ne_true
  | @fault event rc hmain hrc =>
    rcases s.polled_cases launch rc with ⟨-, heq⟩ | ⟨hpos, -⟩ | ⟨hpos, -⟩
    · rw [heq]
      exact ⟨fun hin ↦ absurd hin (not_inside_leave _ _),
        fun hnot ↦ absurd ((leftBy_leave s .fault .fault).mpr rfl) hnot, by simp⟩
    · omega
    · omega
  | stop hmain hstop => exact hnone.leave (by simp [Smoke.LeftBy, hmain]) (by simp)
  | poll hmain hstop =>
    refine hnone.goto rfl rfl ?_ (fun _ ↦ hstop) ?_
    · simp [Smoke.LeftBy, hmain]
    · simp [Smoke.LeftBy]
  | producing hmain =>
    refine hnone.goto rfl rfl ?_ (fun _ ↦ h.running (Or.inr (Or.inr ⟨_, hmain⟩))) ?_
    · simp [Smoke.LeftBy, hmain]
    · simp [Smoke.LeftBy]
  | idle hmain hk hidle =>
    refine hnone.goto rfl rfl ?_ (fun _ ↦ h.running (Or.inr (Or.inr ⟨_, hmain⟩))) ?_
    · simp [Smoke.LeftBy, hmain]
    · simp [Smoke.LeftBy]
  | quiet hmain hk hquiet => exact hnone.leave (by simp [Smoke.LeftBy, hmain]) fun _ ↦ hquiet
  | @joined why hmain hdone =>
    -- joining the threads does not change why `main` left
    have hleft : ∀ why', Smoke.LeftBy { s with
        main := .returned why (if why = .deadline then 1 else sinkReport s.sink.toLedger) } why' →
        s.LeftBy why' := by
      intro why' hleft
      simp only [Smoke.LeftBy, reduceCtorEq, false_or, MainPhase.returned.injEq, exists_and_left]
        at hleft
      exact Or.inl (hleft.1 ▸ hmain)
    refine hnone.goto rfl rfl ?_ ?_ fun hq ↦ h.twice (hleft .quiet hq)
    · simp [Smoke.LeftBy, hmain]
    · simp [Smoke.Inside]
  | late hmain => exact hnone.leave (by simp [Smoke.LeftBy, hmain]) (by simp)
  | early hmain =>
    refine hnone.goto rfl rfl ?_ ?_ ?_
    · simp [Smoke.LeftBy, hmain]
    · simp [Smoke.Inside]
    · simp [Smoke.LeftBy]
  | sigint => exact absurd rfl hl

end Silent

/-- **The quiet rule loses a frame exactly when a send has the last word.** In every execution
without a signal in which `main` leaves by the quiet rule, nothing is on the way from any camera if
and only if every send that was taken is followed by a call of `sink_recv`. -/
theorem quiet_exit {launch : Launch n ι ε} {steps : List (SmokeStep n ε)} {s : Smoke n ι}
    (hexec : exec (Smoke.step launch) (.start launch) steps = some s)
    (hsigint : ∀ l ∈ steps, l ≠ .sigint) (hleft : s.LeftBy .quiet) :
    (∀ i, s.pipes i = []) ↔ FollowedBy SmokeEvent.IsSend SmokeEvent.IsRecv
      (trace (Smoke.step launch) (Smoke.event launch) (.start launch) steps) := by
  have h : s.Silent (trace (Smoke.step launch) (Smoke.event launch) (.start launch) steps) := by
    refine invariant_trace (I := fun tr s ↦ s.Silent tr) (silent_start launch) ?_ hexec hsigint
    intro tr s l s' hl hI hstep
    exact silent_step hl hI hstep
  refine h.empty_iff (fun hfault ↦ ?_) (Nat.lt_of_lt_of_le Nat.two_pos (h.twice hleft))
  rcases hleft with hleft | ⟨_, hleft⟩
  · simp [Smoke.LeftBy, hleft] at hfault
  · simp [Smoke.LeftBy, hleft] at hfault

/-! ## A camera that is slow -/

/-- One camera that has to send one frame. -/
def soloLaunch := smallLaunch buildMockCameras_one 1

def solo : Fin (smallBuilt buildMockCameras_one).length := ⟨0, by decide +kernel⟩

/-- A step of the camera's thread half a second after the start. -/
def soloRun (send : SendOutcome) :
    SmokeStep (smallBuilt buildMockCameras_one).length Int64 :=
  .run solo { acquire := 500000000, stamp := 0, send := send }

/-- A whole attempt of the thread. -/
def soloAttempt (tNs : Int64) (send : SendOutcome) :
    List (SmokeStep (smallBuilt buildMockCameras_one).length Int64) :=
  List.replicate 3 (.run solo { acquire := tNs, stamp := 0, send := send })

/-- Up to the first silence, with the thread about to take its frame. -/
def soloWaits : List (SmokeStep (smallBuilt buildMockCameras_one).length Int64) :=
  [.spawn true, .main, .main, .socket .nothing, soloRun .sent, .main, .clock false, .main]

/-- The same camera with two frames to send. -/
def twiceLaunch := smallLaunch buildMockCameras_one 2

/-- The first frame is sent and received, the second is dropped because the queue is full, and the
socket stays silent. -/
def twiceDrops : List (SmokeStep (smallBuilt buildMockCameras_one).length Int64) :=
  [.spawn true, .main, .main] ++ soloAttempt 500000000 .sent ++ [.recv solo true, .main] ++
    soloAttempt 1000000000 .again ++ [.clock false, .main, .socket .nothing, .main, .main] ++
    [.clock false, .main, .socket .nothing, .main, .main]

/-- Then nothing is left behind. -/
theorem quiet_exit_twice :
    ∃ s, exec (Smoke.step twiceLaunch) (.start twiceLaunch) twiceDrops = some s ∧
      s.LeftBy .quiet ∧ (s.cams solo).sent = 1 ∧ (s.cams solo).dropped = 1 ∧
      s.sink.stats.received = 1 ∧ ∀ i, s.pipes i = [] := by
  have hrun : (exec (Smoke.step twiceLaunch) (.start twiceLaunch) twiceDrops).map
      (fun s ↦ (s.main, (s.cams solo).sent, (s.cams solo).dropped, s.sink.stats.received))
      = some (.join .quiet, 1, 1, 1) := by decide +kernel
  obtain ⟨s, hs, hfacts⟩ := Option.map_eq_some_iff.mp hrun
  simp only [Prod.mk.injEq] at hfacts
  obtain ⟨hmain, hsent, hdropped, hreceived⟩ := hfacts
  refine ⟨s, hs, Or.inl hmain, hsent, hdropped, hreceived, ?_⟩
  rw [quiet_exit hs (by simp [twiceDrops, soloAttempt]) (Or.inl hmain)]
  -- the last event is a silence, and with it `sink_recv` was called after the send
  have hlast : (trace (Smoke.step twiceLaunch) (Smoke.event twiceLaunch) (.start twiceLaunch)
      twiceDrops).getLast? = some (.recv none) := by decide +kernel
  obtain ⟨front, htrace⟩ := List.getLast?_eq_some_iff.mp hlast
  rw [htrace, followedBy_concat]
  exact ⟨id, Or.inl trivial⟩

/-- The camera sends its only frame between the second silence and the look at its progress. -/
def soloLate : List (SmokeStep (smallBuilt buildMockCameras_one).length Int64) :=
  soloWaits ++ [.socket .nothing, soloRun .sent, soloRun .sent, .main, .main]

/-- **That frame is left behind.** -/
theorem quiet_exit_late :
    ∃ s, exec (Smoke.step soloLaunch) (.start soloLaunch) soloLate = some s ∧
      (∀ l ∈ soloLate, l ≠ .sigint ∧ l ≠ .clock true) ∧ 0 < soloLaunch.frames ∧ s.LeftBy .quiet ∧
      s.pipes solo ≠ [] := by
  have hrun : (exec (Smoke.step soloLaunch) (.start soloLaunch) soloLate).map
      (fun s ↦ (s.main, (s.pipes solo).length)) = some (.join .quiet, 1) := by decide +kernel
  obtain ⟨s, hs, hfacts⟩ := Option.map_eq_some_iff.mp hrun
  obtain ⟨hmain, hlen⟩ := Prod.mk.inj hfacts
  refine ⟨s, hs, by simp [soloLate, soloWaits, soloRun], by decide, Or.inl hmain, fun hnil ↦ ?_⟩
  rw [hnil] at hlen
  exact absurd hlen (by decide)

end SparseCamera
