import SparseCamera.Webcam.Basic

/-!
# Tearing the webcam down

`v4l2_release` has to work from any point of a bring-up. What it has to give back are the descriptor
and the mappings; whether it does can be read off the log of both.

## The construction

The table of buffers is filled from the front. After a bring-up it consists of the buffers that were
mapped and, behind them, of entries that were never written (`Leftover`), with one exception: if a
mapping failed, its entry holds `MAP_FAILED`. The teardown unmaps what is not null, so it attempts
to unmap that entry, and this is the only way for the log not to be settled.
-/

namespace SparseCamera

open Resources

/-- What the kernel holds for the program. -/
inductive V4l2Resource where
  | descriptor (fd : ℤ)
  | mapping (buf : MmapBuf)
deriving DecidableEq

/-- What a call acquires or releases. -/
def V4l2Call.use : V4l2Call → Option (Use V4l2Resource)
  | opened fd => some (.acquire (.descriptor fd))
  | mapped buf => some (.acquire (.mapping buf))
  | munmap buf => some (.release (.mapping buf))
  | close fd => some (.release (.descriptor fd))
  | streamOn _ | streamOff _ => none

def v4l2Uses (calls : List V4l2Call) : List (Use V4l2Resource) := calls.filterMap V4l2Call.use

/-! ## The mapping loop

The loop is followed buffer by buffer. What it leaves in the table is known at each of the three
calls at which it can end. -/

section Loop

variable {env : ℕ → MapEnv}

private theorem mmapFails_succ (env : ℕ → MapEnv) (k : ℕ) :
    MmapFails env (k + 1) ↔
      ((env 0).queryBuf.isSome = true ∧ (env 0).mmap = none) ∨
      ((env 0).done = true ∧ MmapFails (fun i ↦ env (i + 1)) k) := by
  constructor
  · rintro ⟨i, hi, hdone, hquery, hmmap⟩
    cases i with
    | zero => exact Or.inl ⟨hquery, hmmap⟩
    | succ i =>
      refine Or.inr ⟨hdone 0 (Nat.succ_pos i), i, Nat.lt_of_succ_lt_succ hi, ?_, hquery, hmmap⟩
      exact fun j hj ↦ hdone (j + 1) (Nat.succ_lt_succ hj)
  · rintro (⟨hquery, hmmap⟩ | ⟨hzero, i, hi, hdone, hquery, hmmap⟩)
    · exact ⟨0, Nat.succ_pos k, fun j hj ↦ absurd hj (Nat.not_lt_zero j), hquery, hmmap⟩
    · refine ⟨i + 1, Nat.succ_lt_succ hi, fun j hj ↦ ?_, hquery, hmmap⟩
      cases j with
      | zero => exact hzero
      | succ j => exact hdone j (Nat.lt_of_succ_lt_succ hj)

/-- What the mapping loop leaves in the table behind the buffers it mapped: entries it did not come
to, perhaps after one where `mmap` failed. -/
def Leftover (failed : Prop) (rest : List MmapBuf) : Prop :=
  (¬failed ∧ ∃ m, rest = List.replicate m .null) ∨
  (failed ∧ ∃ length m, rest = ⟨mapFailed, length⟩ :: List.replicate m .null)

/-- **One round** of the mapping loop: it stops at one of its three calls, or it goes on with a
buffer that is mapped and queued. -/
theorem mapBuffersFrom_succ (env : ℕ → MapEnv) (ctx : V4l2Ctx) (i k : ℕ) :
    ((env i).queryBuf = none ∧ mapBuffersFrom env ctx i (k + 1) = (1, ctx, [])) ∨
    (∃ length, (env i).queryBuf = some length ∧ (env i).mmap = none ∧
      mapBuffersFrom env ctx i (k + 1)
        = (2, ctx.setBuffer i ⟨mapFailed, length.toUInt64⟩, [])) ∨
    ∃ buf : MmapBuf, (buf.start ≠ 0 ∧ buf.start ≠ mapFailed) ∧ (env i).mmap ≠ none ∧
      (((env i).done = false ∧
          mapBuffersFrom env ctx i (k + 1) = (3, ctx.setBuffer i buf, [.mapped buf])) ∨
        ((env i).done = true ∧
          mapBuffersFrom env ctx i (k + 1)
            = ((mapBuffersFrom env (ctx.setBuffer i buf) (i + 1) k).1,
              (mapBuffersFrom env (ctx.setBuffer i buf) (i + 1) k).2.1,
              .mapped buf :: (mapBuffersFrom env (ctx.setBuffer i buf) (i + 1) k).2.2))) := by
  rw [mapBuffersFrom, MapEnv.done]
  cases hquery : (env i).queryBuf with
  | none => exact Or.inl ⟨rfl, rfl⟩
  | some length =>
    cases hmmap : (env i).mmap with
    | none => exact Or.inr (Or.inl ⟨length, rfl, rfl, rfl⟩)
    | some mapping =>
      refine Or.inr (Or.inr ⟨⟨mapping.1, length.toUInt64⟩, mapping.2, Option.some_ne_none _, ?_⟩)
      cases hqueue : (env i).qBuf with
      | false => exact Or.inl ⟨rfl, rfl⟩
      | true => exact Or.inr ⟨rfl, rfl⟩

private theorem forall_done_succ (env : ℕ → MapEnv) (i k : ℕ) :
    (∀ j < k + 1, (env (i + j)).done = true) ↔
      (env i).done = true ∧ ∀ j < k, (env (i + 1 + j)).done = true := by
  constructor
  · intro h
    refine ⟨h 0 (Nat.succ_pos k), fun j hj ↦ ?_⟩
    rw [Nat.add_assoc, Nat.add_comm 1 j]
    exact h (j + 1) (Nat.succ_lt_succ hj)
  · rintro ⟨hfirst, hrest⟩ j hj
    cases j with
    | zero => exact hfirst
    | succ j =>
      rw [Nat.add_comm j 1, ← Nat.add_assoc]
      exact hrest j (Nat.lt_of_succ_lt_succ hj)

private theorem mmapFails_from_succ (env : ℕ → MapEnv) (i k : ℕ) :
    MmapFails (fun j ↦ env (i + j)) (k + 1) ↔
      ((env i).queryBuf.isSome = true ∧ (env i).mmap = none) ∨
        ((env i).done = true ∧ MmapFails (fun j ↦ env (i + 1 + j)) k) := by
  have hshift : (fun j ↦ env (i + 1 + j)) = fun j ↦ env (i + (j + 1)) := by
    funext j
    rw [Nat.add_assoc, Nat.add_comm 1 j]
  rw [hshift]
  exact mmapFails_succ (fun j ↦ env (i + j)) k

private theorem setBuffer_next {i k : ℕ} {ctx : V4l2Ctx} {front : List MmapBuf}
    (hi : front.length = i)
    (hbuffers : ctx.buffers = some (front ++ List.replicate (k + 1) .null)) (buf : MmapBuf) :
    ctx.setBuffer i buf
      = { ctx with buffers := some (front ++ [buf] ++ List.replicate k .null) } := by
  rw [V4l2Ctx.setBuffer, hbuffers, Option.map_some, ← hi, List.replicate_succ,
    List.set_append_right _ _ le_rfl, Nat.sub_self, List.set_cons_zero, List.append_assoc]
  rfl

/-- **The mapping loop**: it maps some of its buffers and enters each of them in the table. -/
theorem mapBuffersFrom_spec (k : ℕ) {i : ℕ} {ctx : V4l2Ctx} {front : List MmapBuf}
    (hi : front.length = i) (hbuffers : ctx.buffers = some (front ++ List.replicate k .null)) :
    ∃ bufs rest, (mapBuffersFrom env ctx i k).2
        = ({ ctx with buffers := some (front ++ bufs ++ rest) }, bufs.map .mapped) ∧
      (∀ buf ∈ bufs, buf.start ≠ 0 ∧ buf.start ≠ mapFailed) ∧
      bufs.length + rest.length = k ∧ Leftover (MmapFails (fun j ↦ env (i + j)) k) rest ∧
      ((mapBuffersFrom env ctx i k).1 = 0 ↔ ∀ j < k, (env (i + j)).done = true) := by
  induction k generalizing i ctx front with
  | zero =>
    refine ⟨[], [], ?_, by simp, rfl, Or.inl ⟨?_, 0, rfl⟩, by simp [mapBuffersFrom]⟩
    · have hsame : ctx.buffers = some (front ++ [] ++ []) := by simpa using hbuffers
      rw [mapBuffersFrom, ← hsame, List.map_nil]
    · rintro ⟨j, hj, -⟩
      exact absurd hj (Nat.not_lt_zero j)
  | succ k ih =>
    have hctx := setBuffer_next hi hbuffers
    rw [mmapFails_from_succ, forall_done_succ]
    rcases mapBuffersFrom_succ env ctx i k with ⟨hquery, heq⟩ | ⟨length, hquery, hmmap, heq⟩ |
      ⟨buf, hbuf, hmmap, ⟨hdone, heq⟩ | ⟨hdone, heq⟩⟩
    · have hdone : (env i).done = false := by simp [MapEnv.done, hquery]
      refine ⟨[], List.replicate (k + 1) .null, ?_, by simp, by simp, Or.inl ⟨?_, k + 1, rfl⟩, ?_⟩
      · rw [heq, List.append_nil, ← hbuffers, List.map_nil]
      · simp [hdone, hquery]
      · simp [heq, hdone]
    · have hdone : (env i).done = false := by simp [MapEnv.done, hmmap]
      refine ⟨[], ⟨mapFailed, length.toUInt64⟩ :: List.replicate k .null, ?_, by simp, by simp,
        Or.inr ⟨Or.inl ⟨?_, hmmap⟩, length.toUInt64, k, rfl⟩, ?_⟩
      · rw [heq, hctx, List.append_nil, List.append_assoc, List.singleton_append, List.map_nil]
      · rw [hquery, Option.isSome_some]
      · simp [heq, hdone]
    · refine ⟨[buf], List.replicate k .null, ?_, ?_, ?_, Or.inl ⟨?_, k, rfl⟩, ?_⟩
      · rw [heq, hctx, List.map_singleton]
      · rwa [List.forall_mem_singleton]
      · rw [List.length_singleton, List.length_replicate, Nat.add_comm]
      · simp [hdone, hmmap]
      · simp [heq, hdone]
    · -- the buffer is mapped and queued, the loop goes on
      have hlength : (front ++ [buf]).length = i + 1 := by
        rw [List.length_append, hi, List.length_singleton]
      obtain ⟨bufs, rest, hloop, hvalid, hcount, hrest, hrc⟩ :=
        ih hlength (congrArg V4l2Ctx.buffers (hctx buf))
      refine ⟨buf :: bufs, rest, ?_, ?_, ?_, ?_, ?_⟩
      · rw [heq, congrArg Prod.fst hloop, congrArg Prod.snd hloop, List.append_assoc front]
        rfl
      · rw [List.forall_mem_cons]
        exact ⟨hbuf, hvalid⟩
      · rw [List.length_cons]
        omega
      · simpa [hdone, hmmap] using hrest
      · rw [heq, hrc, and_iff_right hdone]

end Loop

/-! ## The bring-up -/

section BringUp

variable {env : BringUpEnv} {ctx : V4l2Ctx}

theorem v4l2Init_of_not_prepared (h : ∀ count, ¬env.Prepared count) (ctx : V4l2Ctx) :
    ∃ ctx', (v4l2Init env ctx).2 = (ctx', env.fd.toList.map fun fd ↦ .opened fd) ∧
      ctx'.fd = env.fd.elim (-1) Nat.cast ∧ (ctx'.buffers = ctx.buffers ∨ ctx'.buffers = none) ∧
      ctx'.nBuffers = ctx.nBuffers ∧ ctx'.debugFrame = ctx.debugFrame ∧
      ctx'.streaming = ctx.streaming := by
  cases hfd : env.fd with
  | none =>
    refine ⟨{ ctx with fd := -1 }, ?_, rfl, Or.inl rfl, rfl, rfl, rfl⟩
    simp only [v4l2Init, hfd]
    rfl
  | some fd =>
    simp only [v4l2Init, hfd]
    by_cases hcap : v4l2CheckCapabilities env.capabilities = 0
    · rw [if_neg (not_not.mpr hcap)]
      cases hformat : env.format with
      | none => exact ⟨_, rfl, rfl, Or.inl rfl, rfl, rfl, rfl⟩
      | some pix =>
        by_cases hyuyv : pix.pixelformat = v4l2PixFmtYuyv
        · rw [v4l2SetFmt, if_neg (not_not.mpr hyuyv)]
          cases hgranted : env.granted with
          | none => exact ⟨_, rfl, rfl, Or.inl rfl, rfl, rfl, rfl⟩
          | some count =>
            by_cases hcount : count < 2
            · simp only [v4l2ReqBuffers, if_pos hcount]
              exact ⟨_, rfl, rfl, Or.inl rfl, rfl, rfl, rfl⟩
            · have hcalloc : ¬env.calloc = true := fun hcalloc ↦ h count
                ⟨by rw [hfd]; rfl, hcap, ⟨pix, hformat, hyuyv⟩, hgranted,
                  UInt32.not_lt.mp hcount, hcalloc⟩
              simp only [v4l2ReqBuffers, if_neg hcount, if_neg hcalloc]
              exact ⟨_, rfl, rfl, Or.inr rfl, rfl, rfl, rfl⟩
        · rw [v4l2SetFmt, if_pos hyuyv]
          exact ⟨_, rfl, rfl, Or.inl rfl, rfl, rfl, rfl⟩
    · rw [if_pos hcap]
      exact ⟨_, rfl, rfl, Or.inl rfl, rfl, rfl, rfl⟩

theorem v4l2Init_of_prepared {count : UInt32} (h : env.Prepared count) (ctx : V4l2Ctx) :
    ∃ fd : ℕ, ∃ bufs rest started ctx', (v4l2Init env ctx).2
        = (ctx', .opened fd :: bufs.map .mapped ++ started) ∧
      ctx'.fd = fd ∧ ctx'.buffers = some (bufs ++ rest) ∧ ctx'.nBuffers = count ∧
      ctx'.streaming = ctx.streaming ∧
      (∀ buf ∈ bufs, buf.start ≠ 0 ∧ buf.start ≠ mapFailed) ∧
      bufs.length + rest.length = count.toNat ∧ Leftover env.MmapFails rest ∧
      (env.StartsStreaming ∧ started = [.streamOn fd] ∨ ¬env.StartsStreaming ∧ started = []) := by
  obtain ⟨hfd, hcap, ⟨pix, hformat, hyuyv⟩, hgranted, hcount, hcalloc⟩ := h
  obtain ⟨fd, hfd'⟩ := Option.isSome_iff_exists.mp hfd
  have hprepared (count' : UInt32) : env.Prepared count' ↔ count' = count := by
    constructor
    · rintro ⟨-, -, -, hgranted', -, -⟩
      exact Option.some.inj (hgranted'.symm.trans hgranted)
    · rintro rfl
      exact ⟨hfd, hcap, ⟨pix, hformat, hyuyv⟩, hgranted, hcount, hcalloc⟩
  have hfails : env.MmapFails ↔ MmapFails (fun j ↦ env.map (0 + j)) count.toNat := by
    simp [BringUpEnv.MmapFails, hprepared]
  have hstarts : env.StartsStreaming ↔
      (∀ j < count.toNat, (env.map (0 + j)).done = true) ∧ env.streamOn = true := by
    simp [BringUpEnv.StartsStreaming, hprepared]
  -- the context the mapping loop starts from
  set prepared : V4l2Ctx := { ctx with
    fd := fd
    width := pix.width
    height := pix.height
    pixelformat := pix.pixelformat
    buffers := some (List.replicate count.toNat .null)
    nBuffers := count } with hpre
  obtain ⟨bufs, rest, hloop, hvalid, hlength, hrest, hrc⟩ :=
    @mapBuffersFrom_spec env.map count.toNat 0 prepared [] rfl (by rw [List.nil_append])
  rw [List.nil_append] at hloop
  rw [hstarts, hfails]
  refine ⟨fd, bufs, rest, ?_⟩
  have hctx := congrArg Prod.fst hloop
  have hcalls := congrArg Prod.snd hloop
  simp only at hctx hcalls
  simp only [v4l2Init, hfd', v4l2SetFmt, hformat, v4l2ReqBuffers, hgranted, hcalloc,
    if_neg (not_not.mpr hcap), if_neg (not_not.mpr hyuyv), if_neg (UInt32.not_lt.mpr hcount),
    ne_eq, not_true_eq_false, if_false, if_true, v4l2MapBuffers, ← hpre]
  rw [hcalls, hctx]
  by_cases hdone : ∀ j < count.toNat, (env.map (0 + j)).done = true
  · rw [if_neg (not_not.mpr (hrc.mpr hdone))]
    by_cases hon : env.streamOn = true
    · refine ⟨[.streamOn fd],
        { prepared with buffers := some (bufs ++ rest), debugFrame := env.malloc }, ?_,
        rfl, rfl, rfl, rfl, hvalid, hlength, hrest, Or.inl ⟨⟨hdone, hon⟩, rfl⟩⟩
      simp only [v4l2ValidateStreamon, hon, if_true, not_true_eq_false, if_false]
      rfl
    · refine ⟨[], { prepared with buffers := some (bufs ++ rest) }, ?_,
        rfl, rfl, rfl, rfl, hvalid, hlength, hrest, Or.inr ⟨fun h ↦ hon h.2, rfl⟩⟩
      simp only [v4l2ValidateStreamon, if_neg hon, one_ne_zero, not_false_eq_true, if_true]
  · rw [if_pos (mt hrc.mp hdone)]
    refine ⟨[], { prepared with buffers := some (bufs ++ rest) }, ?_,
      rfl, rfl, rfl, rfl, hvalid, hlength, hrest, Or.inr ⟨fun h ↦ hdone h.1, rfl⟩⟩
    rw [List.append_nil]

end BringUp

/-! ## Bring-up and teardown

Up to the table of buffers there is a descriptor to close and nothing else. After that the log of
the teardown mirrors the one of the loop. -/

section Teardown

variable {env : BringUpEnv} {ctx : V4l2Ctx}

@[simp] theorem v4l2Uses_append (calls calls' : List V4l2Call) :
    v4l2Uses (calls ++ calls') = v4l2Uses calls ++ v4l2Uses calls' := List.filterMap_append

@[simp] theorem v4l2Uses_mapped (bufs : List MmapBuf) :
    v4l2Uses (bufs.map .mapped) = (bufs.map V4l2Resource.mapping).map .acquire := by
  simp [v4l2Uses, List.filterMap_map, V4l2Call.use, Function.comp_def]

@[simp] theorem v4l2Uses_munmap (bufs : List MmapBuf) :
    v4l2Uses (bufs.map .munmap) = (bufs.map V4l2Resource.mapping).map .release := by
  simp [v4l2Uses, List.filterMap_map, V4l2Call.use, Function.comp_def]

private theorem unmapBuffers_append_null {bufs : List MmapBuf} (h : ∀ buf ∈ bufs, buf.start ≠ 0)
    (m : ℕ) :
    unmapBuffers (bufs ++ List.replicate m .null) = bufs.map .munmap := by
  have hblank : (List.replicate m MmapBuf.null).filter (fun buf ↦ buf.start ≠ 0) = [] := by
    rw [List.filter_eq_nil_iff]
    intro buf hbuf
    rw [List.eq_of_mem_replicate hbuf]
    decide
  rw [unmapBuffers, List.filter_append, hblank, List.append_nil, List.filter_eq_self.mpr]
  intro buf hbuf
  simpa using h buf hbuf

private theorem not_settled_of_munmap {calls : List V4l2Call} (buf : MmapBuf)
    (hnever : .mapped buf ∉ calls) (hmunmap : .munmap buf ∈ calls) :
    ¬Settled (v4l2Uses calls) := by
  intro hsettled
  have hcount := hsettled.count_release (.mapping buf)
  have hreleased : Use.release (.mapping buf) ∈ v4l2Uses calls :=
    List.mem_filterMap.mpr ⟨.munmap buf, hmunmap, rfl⟩
  have hacquired : Use.acquire (.mapping buf) ∉ v4l2Uses calls := by
    intro hmem
    obtain ⟨call, hcall, huse⟩ := List.mem_filterMap.mp hmem
    cases call with
    | mapped buf' =>
      obtain rfl := V4l2Resource.mapping.inj (Use.acquire.inj (Option.some.inj huse))
      exact hnever hcall
    | _ => cases huse
  have hpos := List.count_pos_iff.mpr hreleased
  rw [hcount, List.count_eq_zero.mpr hacquired] at hpos
  exact absurd hpos (lt_irrefl 0)

/-- What a teardown owes after a bring-up: everything that was acquired has been given back and
nothing else, the context is empty, and tearing it down again does nothing. -/
structure TornDown (env : BringUpEnv) (ctx : V4l2Ctx) : Prop where
  settled : Settled (v4l2Uses
    ((v4l2Init env ctx).2.2 ++ (v4l2Release (v4l2Init env ctx).2.1).2))
  closed : (v4l2Release (v4l2Init env ctx).2.1).1.Closed
  again : (v4l2Release (v4l2Release (v4l2Init env ctx).2.1).1).2 = []

/-- A bring-up that did not come as far as the buffers has at most the descriptor to give back. -/
theorem settled_of_not_prepared (h : ctx.Closed) (hnot : ∀ count, ¬env.Prepared count) :
    Settled (v4l2Uses
      ((v4l2Init env ctx).2.2 ++ (v4l2Release (v4l2Init env ctx).2.1).2)) := by
  obtain ⟨ctx', hinit, hfd, hbuffers, hcount, hdebug, hstreaming⟩ :=
    v4l2Init_of_not_prepared hnot ctx
  rw [h.buffers, or_self] at hbuffers
  rw [h.streaming] at hstreaming
  rw [hinit]
  cases hopen : env.fd with
  | none =>
    rw [hopen] at hfd
    simp [v4l2Release, hstreaming, hbuffers, hfd, v4l2Uses, Settled]
  | some fd =>
    rw [hopen, Option.elim_some] at hfd
    have hcalls : [V4l2Call.opened fd] ++ (v4l2Release ctx').2 = [.opened fd, .close fd] := by
      simp [v4l2Release, hstreaming, hbuffers, hfd]
    exact (congrArg (fun calls ↦ Settled (v4l2Uses calls)) hcalls).mpr (held_release_cons 0 _ [])

/-- A bring-up that came as far as the buffers has left entries in the table that are unmapped with
the others if `mmap` failed. -/
theorem settled_iff_of_prepared (h : ctx.Closed) {count : UInt32}
    (hprepared : env.Prepared count) :
    Settled (v4l2Uses ((v4l2Init env ctx).2.2 ++ (v4l2Release (v4l2Init env ctx).2.1).2)) ↔
      ¬env.MmapFails := by
  obtain ⟨fd, bufs, rest, started, ctx', hinit, hfd, hbuffers, hcount, hstreaming, hvalid,
    hlength, hrest, hstarted⟩ := v4l2Init_of_prepared hprepared ctx
  have hcalls : (v4l2Init env ctx).2.2 = [.opened fd] ++ bufs.map .mapped ++ started :=
    congrArg Prod.snd hinit
  have hall : (bufs ++ rest).take ctx'.nBuffers.toNat = bufs ++ rest := by
    rw [hcount, ← hlength, ← List.length_append, List.take_length]
  have hrelease : (v4l2Release ctx').2 = unmapBuffers (bufs ++ rest) ++ [.close fd] := by
    simp [v4l2Release, hstreaming, h.streaming, hbuffers, hall, hfd]
  rw [congrArg Prod.fst hinit, hcalls, hrelease]
  rcases hrest with ⟨hnot, m, rfl⟩ | ⟨hfails, length, m, rfl⟩
  · refine iff_of_true ?_ hnot
    have hstarted' : v4l2Uses started = [] := by
      rcases hstarted with ⟨-, rfl⟩ | ⟨-, rfl⟩
      · rfl
      · rfl
    rw [v4l2Uses_append, v4l2Uses_append, v4l2Uses_append, v4l2Uses_append, hstarted',
      List.append_nil, v4l2Uses_mapped,
      unmapBuffers_append_null fun buf hbuf ↦ (hvalid buf hbuf).1, v4l2Uses_munmap]
    have hbring := held_acquires {V4l2Resource.descriptor fd} (bufs.map .mapping)
    have hunmap := held_releases {V4l2Resource.descriptor fd} (bufs.map .mapping)
    refine held_of_append (t := (bufs.map V4l2Resource.mapping : Multiset V4l2Resource) +
      {.descriptor fd}) (held_of_append rfl hbring) (held_of_append hunmap ?_)
    exact held_release_cons 0 _ []
  · refine iff_of_false ?_ (not_not.mpr hfails)
    -- the value `mmap` failed with is handed to `munmap`
    refine not_settled_of_munmap ⟨mapFailed, length⟩ ?_ ?_
    · have hmapped : (⟨mapFailed, length⟩ : MmapBuf) ∉ bufs := fun hmem ↦ (hvalid _ hmem).2 rfl
      rcases hstarted with ⟨-, rfl⟩ | ⟨-, rfl⟩
      · simp [unmapBuffers, hmapped]
      · simp [unmapBuffers, hmapped]
    · have hne : mapFailed ≠ 0 := by decide
      simp [unmapBuffers, hne]

/-- **When teardown gives back exactly what was acquired**: unless the bring-up ended because a
buffer could not be mapped. -/
theorem tornDown_iff (h : ctx.Closed) : TornDown env ctx ↔ ¬env.MmapFails := by
  have hsettled : TornDown env ctx ↔ Settled (v4l2Uses
      ((v4l2Init env ctx).2.2 ++ (v4l2Release (v4l2Init env ctx).2.1).2)) :=
    ⟨TornDown.settled, fun hsettled ↦
      ⟨hsettled, closed_v4l2Release _, (closed_v4l2Release _).release⟩⟩
  rw [hsettled]
  by_cases hprepared : ∃ count, env.Prepared count
  · obtain ⟨count, hprepared⟩ := hprepared
    exact settled_iff_of_prepared h hprepared
  · have hnot : ∀ count, ¬env.Prepared count := not_exists.mp hprepared
    exact iff_of_true (settled_of_not_prepared h hnot) fun hfails ↦ hnot _ hfails.choose_spec.1

end Teardown

/-! ## Two buffers -/

/-- Where the first buffer is mapped. -/
def firstMapping : Mapping := ⟨0x7f0000000000, by decide, by decide⟩

/-- A device that grants two buffers and does everything else it is asked to. -/
def twoBuffers (map : ℕ → MapEnv) : BringUpEnv where
  fd := some 3
  capabilities := some (v4l2CapVideoCapture ||| v4l2CapStreaming)
  format := some ⟨640, 480, v4l2PixFmtYuyv⟩
  granted := some 2
  calloc := true
  map := map
  streamOn := true
  malloc := true

def webcamConfig : V4l2Config where
  device := CString.ascii "/dev/video0"
  width := 640
  height := 480
  gridRows := 64
  gridCols := 64
  nBuffers := 2
  timeoutMs := 2000
  threshold := 32

/-- The driver does not queue the first buffer. -/
def queueFails : BringUpEnv := twoBuffers fun _ ↦ ⟨some 614400, some firstMapping, false⟩

/-- The second buffer cannot be mapped. -/
def secondMapFails : BringUpEnv :=
  twoBuffers fun i ↦ ⟨some 614400, if i = 0 then some firstMapping else none, true⟩

theorem tornDown_queueFails : TornDown queueFails (v4l2CtxCreate webcamConfig) := by
  apply (tornDown_iff (closed_v4l2CtxCreate webcamConfig)).mpr
  rintro ⟨count, -, i, -, -, -, hmmap⟩
  cases hmmap

/-- The value `mmap` failed with is unmapped like an address. -/
theorem not_tornDown_secondMapFails :
    .munmap ⟨mapFailed, 614400⟩ ∈
        (v4l2Release (v4l2Init secondMapFails (v4l2CtxCreate webcamConfig)).2.1).2 ∧
      ¬TornDown secondMapFails (v4l2CtxCreate webcamConfig) := by
  refine ⟨by decide +kernel, fun h ↦ ?_⟩
  refine not_settled_of_munmap ⟨mapFailed, 614400⟩ ?_ ?_ h.settled
  · decide +kernel
  · decide +kernel

end SparseCamera
