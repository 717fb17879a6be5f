import SparseCamera.Lib.Execution
import SparseCamera.Webcam.Acquire
import SparseCamera.Webcam.Teardown

/-!
# The streaming flag

`ctx->streaming` is there to tell `v4l2_release` whether the device streams. Whether it does is in
the log: the last call on the descriptor that bears on it. No function sets the flag, so the two
agree along a run exactly as long as no stream is started.

## The invariant

No function of the source writes `true` into the flag. So the flag is false in every state of a run
(`V4l2Run.Unflagged`), and it says what the device does as long as no stream is started. A bring-up
that starts one leaves the device streaming and the flag as it was.
-/

namespace SparseCamera

open Execution

/-- The entry points of the backend. -/
inductive V4l2Op where
  | init (env : BringUpEnv)
  | acquire (env : V4l2AcquireEnv) (out : Frame)
  | deinit
  | destroy

/-- A context and the calls made for it. There is none once it has been destroyed. -/
structure V4l2Run where
  ctx : Option V4l2Ctx
  calls : List V4l2Call

def V4l2Run.start (cfg : V4l2Config) : V4l2Run := ⟨some (v4l2CtxCreate cfg), []⟩

def V4l2Run.step (run : V4l2Run) : V4l2Op → Option V4l2Run
  | .init env => run.ctx.map fun ctx ↦
    { ctx := some (v4l2Init env ctx).2.1, calls := run.calls ++ (v4l2Init env ctx).2.2 }
  | .acquire env out => run.ctx.map fun ctx ↦
    { ctx := some (v4l2Acquire env ctx out).2.2, calls := run.calls }
  | .deinit => run.ctx.map fun ctx ↦
    { ctx := some (v4l2Deinit ctx).1, calls := run.calls ++ (v4l2Deinit ctx).2 }
  | .destroy => run.ctx.map fun ctx ↦
    { ctx := none, calls := run.calls ++ v4l2CtxDestroy ctx }

/-- Whether a descriptor streams after a call, given whether it did before. -/
def streamsAfter (fd : ℤ) (on : Bool) : V4l2Call → Bool
  | .streamOn fd' => if fd' = fd then true else on
  | .streamOff fd' | .opened fd' | .close fd' => if fd' = fd then false else on
  | .mapped _ | .munmap _ => on

/-- A `STREAMON` has succeeded on this descriptor since it was opened, and no `STREAMOFF` has
followed. -/
def streams (fd : ℤ) (calls : List V4l2Call) : Bool := calls.foldl (streamsAfter fd) false

/-- The flag says what the device does, and a release would stop the stream once and first if there
is one, and not at all if there is none. -/
structure V4l2Ctx.Tracks (ctx : V4l2Ctx) (calls : List V4l2Call) : Prop where
  flag : ctx.streaming = streams ctx.fd calls
  release : ∃ rest, (v4l2Release ctx).2
      = (if streams ctx.fd calls then [.streamOff ctx.fd] else []) ++ rest ∧
    ∀ fd, .streamOff fd ∉ rest

/-- A context that is still there tracks its device. -/
def V4l2Run.Tracks (run : V4l2Run) : Prop := ∀ ctx ∈ run.ctx, ctx.Tracks run.calls

/-! ## The flag -/

section Flag

variable {ctx : V4l2Ctx} {calls : List V4l2Call} {env : BringUpEnv}

private theorem v4l2Release_eq (ctx : V4l2Ctx) :
    ∃ rest, (v4l2Release ctx).2 = (if ctx.streaming then [.streamOff ctx.fd] else []) ++ rest ∧
      (∀ fd, .streamOff fd ∉ rest) ∧ ∀ fd, .streamOn fd ∉ rest := by
  refine ⟨ctx.buffers.elim [] (fun buffers ↦ unmapBuffers (buffers.take ctx.nBuffers.toNat)) ++
    if 0 ≤ ctx.fd then [.close ctx.fd] else [], ?_, fun fd ↦ ?_, fun fd ↦ ?_⟩
  · simp only [v4l2Release, List.append_assoc]
  all_goals
    cases ctx.buffers with
    | none => split_ifs <;> simp
    | some buffers => split_ifs <;> simp [unmapBuffers]

private theorem tracks_iff : ctx.Tracks calls ↔ ctx.streaming = streams ctx.fd calls := by
  refine ⟨V4l2Ctx.Tracks.flag, fun hflag ↦ ⟨hflag, ?_⟩⟩
  obtain ⟨rest, hrelease, hstop, -⟩ := v4l2Release_eq ctx
  rw [hflag] at hrelease
  exact ⟨rest, hrelease, hstop⟩

private theorem streams_eq_false (h : ∀ fd, .streamOn fd ∉ calls) (fd : ℤ) :
    streams fd calls = false := by
  induction calls using List.reverseRecOn with
  | nil => rfl
  | append_singleton calls call ih =>
    have hbefore := ih fun fd hmem ↦ h fd (List.mem_append_left _ hmem)
    rw [streams] at hbefore
    rw [streams, List.foldl_append, hbefore]
    cases call with
    | streamOn fd' => exact absurd (List.mem_append_right _ List.mem_cons_self) (h fd')
    | mapped buf => rfl
    | munmap buf => rfl
    | _ => exact ite_self false

/-- **A bring-up** leaves the flag alone, and starts a stream if it gets that far. -/
theorem v4l2Init_streaming (env : BringUpEnv) (ctx : V4l2Ctx) :
    (v4l2Init env ctx).2.1.streaming = ctx.streaming ∧
      (env.StartsStreaming → ∃ before, (v4l2Init env ctx).2.2
        = before ++ [.streamOn (v4l2Init env ctx).2.1.fd]) ∧
      (¬env.StartsStreaming → ∀ fd, .streamOn fd ∉ (v4l2Init env ctx).2.2) := by
  by_cases hprepared : ∃ count, env.Prepared count
  · obtain ⟨count, hprepared⟩ := hprepared
    obtain ⟨fd, bufs, rest, started, ctx', hinit, hfd, -, -, hstreaming, -, -, -, hstarted⟩ :=
      v4l2Init_of_prepared hprepared ctx
    rw [hinit, hfd]
    refine ⟨hstreaming, fun hstarts ↦ ?_, fun hnot ↦ ?_⟩
    · rcases hstarted with ⟨-, rfl⟩ | ⟨hnot, -⟩
      · exact ⟨_, rfl⟩
      · exact absurd hstarts hnot
    · rcases hstarted with ⟨hstarts, -⟩ | ⟨-, rfl⟩
      · exact absurd hstarts hnot
      · simp
  · have hnot : ∀ count, ¬env.Prepared count := not_exists.mp hprepared
    obtain ⟨ctx', hinit, -, -, -, -, hstreaming⟩ := v4l2Init_of_not_prepared hnot ctx
    rw [hinit]
    refine ⟨hstreaming, fun ⟨count, hstarts, _⟩ ↦ absurd hstarts (hnot count), fun _ fd ↦ ?_⟩
    cases env.fd <;> simp

end Flag

/-! ## Runs

A run is any order of the four entry points. What a bring-up comes to is part of the step. -/

section Run

variable {cfg : V4l2Config} {ops : List V4l2Op} {run run' : V4l2Run} {op : V4l2Op}

/-- The step of a run that starts a stream. -/
def V4l2Op.StartsStreaming : V4l2Op → Prop
  | .init env => env.StartsStreaming
  | .acquire _ _ | .deinit | .destroy => False

/-- Nothing sets the flag. -/
def V4l2Run.Unflagged (run : V4l2Run) : Prop := ∀ ctx ∈ run.ctx, ctx.streaming = false

private theorem unflagged_step (h : run.Unflagged) (hstep : run.step op = some run') :
    run'.Unflagged := by
  cases op with
  | init env =>
    obtain ⟨ctx, hctx, rfl⟩ := Option.map_eq_some_iff.mp hstep
    rintro ctx' ⟨⟩
    rw [(v4l2Init_streaming env ctx).1]
    exact h ctx hctx
  | acquire env out =>
    obtain ⟨ctx, hctx, rfl⟩ := Option.map_eq_some_iff.mp hstep
    rintro ctx' ⟨⟩
    rcases @v4l2Acquire_cases env ctx out with ⟨rc, -, heq⟩ | ⟨buf, -, -, -, -, heq⟩
    · rw [heq]
      exact h ctx hctx
    · rw [heq]
      exact h ctx hctx
  | deinit =>
    obtain ⟨ctx, hctx, rfl⟩ := Option.map_eq_some_iff.mp hstep
    rintro ctx' ⟨⟩
    exact (closed_v4l2Release ctx).streaming
  | destroy =>
    obtain ⟨ctx, hctx, rfl⟩ := Option.map_eq_some_iff.mp hstep
    rintro ctx' ⟨⟩

private theorem unflagged_exec (hexec : exec V4l2Run.step (.start cfg) ops = some run) :
    run.Unflagged := by
  refine invariant (I := fun _ run ↦ run.Unflagged) ?_
    (fun _ _ _ _ _ h hstep ↦ unflagged_step h hstep) hexec
  rintro ctx ⟨⟩
  rfl

private theorem no_streamOn_step (h : ∀ fd, .streamOn fd ∉ run.calls) (hunflagged : run.Unflagged)
    (hop : ¬op.StartsStreaming) (hstep : run.step op = some run') :
    ∀ fd, .streamOn fd ∉ run'.calls := by
  have hrelease {ctx : V4l2Ctx} (hctx : ctx ∈ run.ctx) (fd : ℤ) :
      .streamOn fd ∉ run.calls ++ (v4l2Release ctx).2 := by
    obtain ⟨rest, hcalls, -, hnone⟩ := v4l2Release_eq ctx
    rw [hunflagged ctx hctx, if_neg Bool.false_ne_true, List.nil_append] at hcalls
    rw [hcalls, List.mem_append, not_or]
    exact ⟨h fd, hnone fd⟩
  cases op with
  | init env =>
    obtain ⟨ctx, hctx, rfl⟩ := Option.map_eq_some_iff.mp hstep
    intro fd
    rw [List.mem_append, not_or]
    exact ⟨h fd, (v4l2Init_streaming env ctx).2.2 hop fd⟩
  | acquire env out =>
    obtain ⟨ctx, hctx, rfl⟩ := Option.map_eq_some_iff.mp hstep
    exact h
  | deinit =>
    obtain ⟨ctx, hctx, rfl⟩ := Option.map_eq_some_iff.mp hstep
    exact hrelease hctx
  | destroy =>
    obtain ⟨ctx, hctx, rfl⟩ := Option.map_eq_some_iff.mp hstep
    exact hrelease hctx

private theorem no_streamOn_exec (hops : ∀ op ∈ ops, ¬op.StartsStreaming)
    (hexec : exec V4l2Run.step (.start cfg) ops = some run) : ∀ fd, .streamOn fd ∉ run.calls := by
  refine invariant (I := fun ops run ↦ (∀ op ∈ ops, ¬V4l2Op.StartsStreaming op) →
    ∀ fd, .streamOn fd ∉ run.calls) (fun _ _ ↦ List.not_mem_nil) ?_ hexec hops
  intro ops run op run' hexec h hstep hops
  refine no_streamOn_step (h fun op hop ↦ hops op (List.mem_append_left _ hop))
    (unflagged_exec hexec) (hops op (by simp)) hstep

end Run

/-- **When the flag tracks the device**: along a run it does in every state reached exactly when no
call of the run starts a stream. -/
theorem tracks_exec {cfg : V4l2Config} {ops : List V4l2Op} {run : V4l2Run}
    (hexec : exec V4l2Run.step (.start cfg) ops = some run) :
    (∀ pre, pre <+: ops → ∀ run', exec V4l2Run.step (.start cfg) pre = some run' → run'.Tracks) ↔
      ∀ op ∈ ops, ¬op.StartsStreaming := by
  constructor
  · intro htracks op hop hstarts
    obtain ⟨pre, post, rfl⟩ := List.append_of_mem hop
    cases op with
    | init env =>
      -- right after this call the device streams and the flag is not set
      have hsplit : pre ++ .init env :: post = (pre ++ [.init env]) ++ post := by simp
      rw [hsplit, exec_append] at hexec
      obtain ⟨run', hrun', -⟩ := Option.bind_eq_some_iff.mp hexec
      have hflag := htracks (pre ++ [.init env]) ⟨post, hsplit.symm⟩ run' hrun'
      have hunflagged := unflagged_exec hrun'
      obtain ⟨before, -, hstep⟩ := exec_concat_eq_some.mp hrun'
      obtain ⟨ctx, -, rfl⟩ := Option.map_eq_some_iff.mp hstep
      obtain ⟨calls, hcalls⟩ := (v4l2Init_streaming env ctx).2.1 hstarts
      have hflag' := (hflag _ rfl).flag
      rw [hunflagged _ rfl, hcalls, ← List.append_assoc, streams, List.foldl_append] at hflag'
      simp [streamsAfter] at hflag'
    | _ => exact hstarts
  · intro hops pre hpre run' hrun' ctx hctx
    have hpre' : ∀ op ∈ pre, ¬op.StartsStreaming := fun op hop ↦ hops op (hpre.subset hop)
    rw [tracks_iff, streams_eq_false (no_streamOn_exec hpre' hrun')]
    exact unflagged_exec hrun' ctx hctx

/-- The driver does not queue the first buffer, so no stream is started. -/
theorem tracks_queueFails :
    ∃ run, exec V4l2Run.step (.start webcamConfig) [.init queueFails, .deinit] = some run ∧
      run.Tracks := by
  have hexec : exec V4l2Run.step (.start webcamConfig) [.init queueFails, .deinit] = some _ := rfl
  refine ⟨_, hexec, (tracks_exec hexec).mpr ?_ _ List.prefix_rfl _ hexec⟩
  intro op hop hstarts
  rcases List.mem_cons.mp hop with rfl | hop
  · obtain ⟨count, hprepared, hdone, -⟩ := hstarts
    obtain rfl := Option.some.inj hprepared.2.2.2.1
    exact absurd (hdone 0 (by decide)) (by decide)
  · obtain rfl := List.mem_singleton.mp hop
    exact hstarts

def nothingFails : BringUpEnv := twoBuffers fun _ ↦ ⟨some 614400, some firstMapping, true⟩

/-- The device streams, the flag says that it does not, and the release closes it without a
`STREAMOFF`. -/
theorem not_tracks_nothingFails :
    ∃ run ctx, exec V4l2Run.step (.start webcamConfig) [.init nothingFails] = some run ∧
      run.ctx = some ctx ∧ streams ctx.fd run.calls = true ∧ ctx.streaming = false ∧
      (∀ fd, .streamOff fd ∉ (v4l2Release ctx).2) ∧ ¬run.Tracks := by
  refine ⟨_, _, rfl, rfl, by decide +kernel, by decide +kernel, fun fd ↦ ?_, fun htracks ↦ ?_⟩
  · have hcalls : (v4l2Release (v4l2Init nothingFails (v4l2CtxCreate webcamConfig)).2.1).2
        = [.munmap ⟨firstMapping.1, 614400⟩, .munmap ⟨firstMapping.1, 614400⟩, .close 3] := by
      decide +kernel
    rw [hcalls]
    simp
  · exact absurd (htracks _ rfl).flag (by decide +kernel)

end SparseCamera
