import SparseCamera.Pipeline.Basic
import SparseCamera.Pipeline.Mock

/-!
# What mock cameras and the sink agree on

Along every execution the frames of a camera are a queue: the sink heard a first part of them, in
order, and the rest waits in the camera's connection. `Linked` says so, and carries what each end
knows about its part. A tick appends at one end, a receive moves the oldest waiting frame over.

## The invariant

What a camera made splits in two, `stream heard ++ waiting`. The first part is what the sink's
`Accounts` are about, the second is what lies in the connection, as bytes. The decode buffer is at
least as wide as the grid of every camera, so no receive asks the allocator for anything.

A tick lengthens the second part at its end, if it sends. A receive moves the head of the second
part to the end of the first, and the concatenation stays what it was.
-/

namespace SparseCamera

open Execution KeyedHistory

/-- After `steps`, the sink has heard the frames `heard`, and of camera `i` the frames `waiting i`
are still on the way. -/
structure Linked {n : ℕ} (check : SinkCheck) (specs : List SinkCamSpec) (ids : Fin n → UInt32)
    (totals : Fin n → ℕ) (steps : List (PipelineStep n Int64)) (heard : List Contents)
    (waiting : Fin n → List Contents) (p : Pipeline n MockCtx) : Prop where
  cameras : ∀ i, Producing (ids i) (totals i) (p.cams i) (sendsOf i steps)
    (stream Contents.cameraId heard (ids i) ++ waiting i)
  pipes : ∀ i, (p.pipes i).map parse = (waiting i).map some
  received : ∀ i, (stream Contents.cameraId heard (ids i)).length = receivedOf i steps
  known : ∀ f ∈ heard, ∃ i, f.cameraId = ids i
  accounts : Accounts check specs (heard.map some) p.sink.toLedger
  sized : p.sink.decoded.Sized
  wide : ∀ i, totals i ≤ p.sink.decoded.capacity.toNat

section Linked

variable {n : ℕ} {check : SinkCheck} {specs : List SinkCamSpec} {ids : Fin n → UInt32}
  {totals : Fin n → ℕ} {steps : List (PipelineStep n Int64)} {heard : List Contents}
  {waiting : Fin n → List Contents} {p : Pipeline n MockCtx} {i : Fin n}

@[simp] theorem reduceOption_map_some {α : Type} (l : List α) :
    (l.map some).reduceOption = l := by
  induction l with
  | nil => rfl
  | cons a l ih => rw [List.map_cons, List.reduceOption_cons_of_some, ih]

theorem Linked.length_stream_le (h : Linked check specs ids totals steps heard waiting p)
    (i : Fin n) :
    (stream Contents.cameraId heard (ids i)).length ≤ (sendsOf i steps).length := by
  have hproduced := (h.cameras i).length_eq
  have hcount : (sendsOf i steps).count true ≤ (sendsOf i steps).length := List.count_le_length
  rw [List.length_append] at hproduced
  omega

/-- No per-camera counter of the sink wraps before the camera has ticked `2 ^ 64` times. -/
theorem Linked.bounded (h : Linked check specs ids totals steps heard waiting p)
    (hlt : ∀ i, (sendsOf i steps).length < 2 ^ 64) : Bounded (heard.map some) := by
  intro id
  rw [reduceOption_map_some]
  by_cases hid : id ∈ keySet Contents.cameraId heard
  · obtain ⟨f, hf, rfl⟩ := (mem_keySet _).mp hid
    obtain ⟨i, hi⟩ := h.known f hf
    rw [hi]
    exact (h.length_stream_le i).trans_lt (hlt i)
  · rw [(stream_eq_nil _).mpr hid]
    exact Nat.two_pow_pos 64

theorem Linked.tick (h : Linked check specs ids totals steps heard waiting p)
    {env : TickEnv Int64} (hallowed : (p.cams i).implCtx.allowed env.acquire = true)
    (hsend : env.send ≠ .failed) :
    ∃ waiting', Linked check specs ids totals (steps ++ [.tick i env]) heard waiting' { p with
      cams := Function.update p.cams i (cameraTick mockCameraInterface env (p.cams i)).2.1
      pipes := Function.update p.pipes i
        (p.pipes i ++ (cameraTick mockCameraInterface env (p.cams i)).2.2.toList) } := by
  obtain ⟨rc, camera, image, f, htick, hparse, -, hproducing⟩ :=
    (h.cameras i).tick env hallowed hsend
  refine ⟨Function.update waiting i
    (if env.send = .sent then waiting i ++ [f] else waiting i), ?_, ?_, ?_, h.known, h.accounts,
    h.sized, h.wide⟩
  · intro j
    simp only [htick, sendsOf_append]
    by_cases hj : j = i
    · subst hj
      rw [Function.update_self, Function.update_self, sendsOf_tick_cons, if_pos rfl, sendsOf_nil]
      split_ifs at hproducing ⊢ with hout
      · rwa [← List.append_assoc]
      · exact hproducing
    · rw [Function.update_of_ne hj, Function.update_of_ne hj, sendsOf_tick_cons,
        if_neg (Ne.symm hj), sendsOf_nil, List.append_nil]
      exact h.cameras j
  · intro j
    simp only [htick]
    by_cases hj : j = i
    · subst hj
      rw [Function.update_self, Function.update_self, List.map_append, h.pipes j]
      split_ifs
      · rw [List.map_append, Option.toList_some, List.map_singleton, List.map_singleton, hparse]
      · rw [Option.toList_none, List.map_nil, List.append_nil]
    · rw [Function.update_of_ne hj, Function.update_of_ne hj]
      exact h.pipes j
  · intro j
    rw [receivedOf_append, receivedOf_tick_cons, receivedOf_nil, Nat.add_zero]
    exact h.received j

theorem Linked.recv (h : Linked check specs ids totals steps heard waiting p)
    (hinj : Function.Injective ids) (hlt : ∀ i, (sendsOf i steps).length < 2 ^ 64)
    {msg : Bytes} {rest : List Bytes} (hpipe : p.pipes i = msg :: rest) (granted : Bool) :
    ∃ f waiting', Linked check specs ids totals (steps ++ [.recv i granted]) (heard ++ [f]) waiting'
      { p with
        pipes := Function.update p.pipes i rest
        sink := (sinkRecv granted p.sink (.message msg)).2 } := by
  have hpipes := h.pipes i
  rw [hpipe, List.map_cons] at hpipes
  -- the message at the front of the connection is the frame that waited longest
  obtain ⟨f, later, hwaiting, hparse, hlater⟩ := List.map_eq_cons_iff.mp hpipes.symm
  have hmem : f ∈ stream Contents.cameraId heard (ids i) ++ waiting i := by
    rw [hwaiting]
    exact List.mem_append_right _ List.mem_cons_self
  have hframe := (h.cameras i).frames f hmem
  obtain ⟨-, hledger, hsized, hcap⟩ := sinkRecv_of_parse granted h.sized
    hparse.symm (hframe.length.trans (h.wide i))
  have hself : stream Contents.cameraId (heard ++ [f]) (ids i)
      = stream Contents.cameraId heard (ids i) ++ [f] := by
    rw [← hframe.cameraId]
    exact stream_concat_self _ _ _
  -- the other cameras have other ids
  have hother {j : Fin n} (hj : j ≠ i) : stream Contents.cameraId (heard ++ [f]) (ids j)
      = stream Contents.cameraId heard (ids j) :=
    stream_concat_of_ne _ fun hid ↦ hj (hinj (hid.symm.trans hframe.cameraId))
  refine ⟨f, Function.update waiting i later, ?_, ?_, ?_, ?_, ?_, hsized, ?_⟩
  · intro j
    have hcamera := h.cameras j
    simp only [sendsOf_append, sendsOf_recv_cons, sendsOf_nil, List.append_nil]
    by_cases hj : j = i
    · subst hj
      rw [hwaiting] at hcamera
      rwa [hself, Function.update_self, List.append_assoc, List.singleton_append]
    · rwa [hother hj, Function.update_of_ne hj]
  · intro j
    by_cases hj : j = i
    · subst hj
      simpa only [Function.update_self] using hlater.symm
    · simpa only [Function.update_of_ne hj] using h.pipes j
  · intro j
    rw [receivedOf_append, receivedOf_recv_cons, receivedOf_nil, Nat.zero_add]
    by_cases hj : j = i
    · subst hj
      rw [hself, List.length_append, if_pos rfl, h.received j, List.length_singleton]
    · rw [hother hj, if_neg (Ne.symm hj), Nat.add_zero]
      exact h.received j
  · intro g hg
    rcases List.mem_append.mp hg with hg | hg
    · exact h.known g hg
    · obtain rfl := List.mem_singleton.mp hg
      exact ⟨i, hframe.cameraId⟩
  · rw [hledger, List.map_append]
    exact accounts_concat h.accounts (h.bounded hlt) (some f)
  · intro j
    rw [hcap]
    exact h.wide j

/-- **The ends stay linked along every execution** whose sends do not fail. -/
theorem linked_exec {start : Pipeline n MockCtx}
    (hstart : Linked check specs ids totals [] [] (fun _ ↦ []) start)
    (hinj : Function.Injective ids)
    (hexec : exec (Pipeline.step fun _ ↦ mockCameraInterface) start steps = some p)
    (hsend : ∀ i env, .tick i env ∈ steps → env.send ≠ .failed)
    (hlt : ∀ i, (sendsOf i steps).length < 2 ^ 64) :
    ∃ heard waiting, Linked check specs ids totals steps heard waiting p := by
  have hrule := @invariant _ _ (Pipeline.step fun _ ↦ mockCameraInterface)
    (fun steps p ↦ (∀ i env, .tick i env ∈ steps → env.send ≠ .failed) →
      (∀ i, (sendsOf i steps).length < 2 ^ 64) →
      ∃ heard waiting, Linked check specs ids totals steps heard waiting p)
    start (fun _ _ ↦ ⟨[], fun _ ↦ [], hstart⟩) ?_ _ _ hexec
  · exact hrule hsend hlt
  · intro steps p step p' _ ih hstep hsend hlt
    -- the run so far is within the same bounds
    have hlt' (i : Fin n) : (sendsOf i steps).length < 2 ^ 64 := by
      have := hlt i
      rw [sendsOf_append, List.length_append] at this
      omega
    obtain ⟨heard, waiting, hlinked⟩ :=
      ih (fun i env hmem ↦ hsend i env (List.mem_append_left _ hmem)) hlt'
    cases step with
    | tick i env =>
      obtain ⟨hallowed, rfl⟩ := Pipeline.step_tick_eq_some.mp hstep
      have hout := hsend i env (List.mem_append_right _ List.mem_cons_self)
      obtain ⟨waiting', hlinked'⟩ := hlinked.tick hallowed hout
      exact ⟨heard, waiting', hlinked'⟩
    | recv i granted =>
      obtain ⟨msg, rest, hpipe, rfl⟩ := Pipeline.step_recv_eq_some.mp hstep
      obtain ⟨f, waiting', hlinked'⟩ := hlinked.recv hinj hlt' hpipe granted
      exact ⟨heard ++ [f], waiting', hlinked'⟩

end Linked

end SparseCamera
