import SparseCamera.Lib.Execution
import SparseCamera.Sink.Run
import SparseCamera.Wire.FrameRef

/-!
# The sink's decode buffer

The sink keeps one frame for its whole life and grows it in two places, in `sink_expect` and when a
message turns out too wide. Here that frame is held by its pointers. As long as no growth is split
by the allocator the sink in memory does what the sink on values does; after a split its decode
buffer names an array that is gone.

## The invariant

A run keeps the decode buffer alive as long as no call is split (`Splits`). Whether a call is split
depends on the width it asks for, the present capacity and the two answers of the allocator, so the
condition can be checked before the call. From the first split on the buffer is `Dangling`.
-/

namespace SparseCamera

open Execution Memory

/-- `struct sink` with its decode buffer held by pointers. -/
structure SinkRef extends Ledger where
  decoded : FrameRef

/-- The sink and the memory it lives in. -/
structure SinkMemory where
  sink : SinkRef
  store : Store Block

/-- The sink behind the pointers, if they are live. -/
def SinkMemory.view (mem : SinkMemory) : Option Sink :=
  (mem.sink.decoded.view mem.store).map fun decoded ↦
    { toLedger := mem.sink.toLedger, decoded := decoded }

/-- The decode buffer only names live buffers. -/
def SinkMemory.Live (mem : SinkMemory) : Prop := mem.sink.decoded.Live mem.store

/-- The decode buffer names a support array that is gone. -/
def SinkMemory.Dangling (mem : SinkMemory) : Prop := mem.store.block mem.sink.decoded.support = none

/-! ## Operations -/

/-- `sink_new` in a given memory: the decode buffer gets two fresh arrays. -/
def sinkNewRef (store : Store Block) (check : Option SinkCheck) : Option SinkMemory :=
  (sinkNew check).map fun sink ↦
    let store₁ := store.alloc (.words sink.decoded.support)
    { sink :=
        { toLedger := sink.toLedger
          decoded :=
            { support := store.next
              signal := store₁.next
              tNs := sink.decoded.tNs
              sequence := sink.decoded.sequence
              cameraId := sink.decoded.cameraId
              count := sink.decoded.count
              capacity := sink.decoded.capacity } }
      store := store₁.alloc (.floats sink.decoded.signal) }

/-- `sink_expect`; `first` and `second` are the allocator's answers. -/
def sinkExpectRef (first second : Bool) (mem : SinkMemory) (specs : List SinkCamSpec) :
    Option (ℤ × SinkMemory) :=
  if sinkMaxCameras < specs.length then some (-1, mem)
  else
    let largest := largestSpec specs
    let sink := { mem.sink with specs := specs }
    if largest ≠ 0 then
      (frameReserveRef first second mem.store sink.decoded largest.toUInt64).map
        fun (rc, decoded, store) ↦
          (if rc ≠ 0 then -1 else 0, { sink := { sink with decoded := decoded }, store := store })
    else some (0, { mem with sink := sink })

/-- The decoding in `sink_recv`. -/
def sinkDecodeRef (first second : Bool) (msg : Bytes) (store : Store Block) (decoded : FrameRef) :
    Option (FrameWireStatus × FrameRef × Store Block) :=
  (frameWireUnpackRef msg store decoded).bind fun (status, decoded, store) ↦
    if status = .errCapacity then
      (frameReserveRef first second store decoded decoded.count.toUInt64).bind
        fun (rc, decoded, store) ↦
          if rc = 0 then frameWireUnpackRef msg store decoded else some (status, decoded, store)
    else some (status, decoded, store)

/-- `sink_recv`. -/
def sinkRecvRef (first second : Bool) (mem : SinkMemory) : SocketEvent → Option (ℤ × SinkMemory)
  | .nothing => some (1, mem)
  | .pollFailed => some (-2, mem)
  | .recvFailed => some (-3, mem)
  | .message msg =>
    (sinkDecodeRef first second msg mem.store mem.sink.decoded).bind
      fun (status, decoded, store) ↦
        if status = .ok then
          (decoded.view store).map fun f ↦
            (0, { sink :=
                    { toLedger := observe mem.sink.toLedger (some f.contents), decoded := decoded }
                  store := store })
        else some (0,
          { sink := { toLedger := observe mem.sink.toLedger none, decoded := decoded }
            store := store })

inductive SinkRequest where
  | expect (specs : List SinkCamSpec)
  | recv (event : SocketEvent)

/-- A call of the sink's interface: a request, and the answers of the allocator should it be
asked. -/
structure SinkCall where
  request : SinkRequest
  first : Bool
  second : Bool

def serve (granted : Bool) (sink : Sink) : SinkRequest → ℤ × Sink
  | .expect specs => sinkExpect granted sink specs
  | .recv event => sinkRecv granted sink event

def serveRef (first second : Bool) (mem : SinkMemory) : SinkRequest → Option (ℤ × SinkMemory)
  | .expect specs => sinkExpectRef first second mem specs
  | .recv event => sinkRecvRef first second mem event

def sinkCall (mem : SinkMemory) (call : SinkCall) : Option SinkMemory :=
  (serveRef call.first call.second mem call.request).map Prod.snd

/-- The width a request asks the decode buffer to have. -/
def SinkRequest.width : SinkRequest → UInt32
  | .expect specs => if sinkMaxCameras < specs.length then 0 else largestSpec specs
  | .recv (.message msg) => if WellFramed msg then (FrameWireHeader.ofBytes msg).count else 0
  | .recv _ => 0

/-- The call has to grow the decode buffer, and the allocator serves the first half of it only. -/
def Splits (mem : SinkMemory) (call : SinkCall) : Prop :=
  mem.sink.decoded.capacity < call.request.width ∧ call.first = true ∧ call.second = false

/-! ## Decoding through the pointers

The first attempt can fail because the frame is too wide. Then the buffer grows, and the second
attempt runs on the buffer that the growth has left. -/

section Decode

variable {msg : Bytes} {store : Store Block} {ref : FrameRef} {f : Frame}

private theorem sinkDecodeRef_refines (first second : Bool) (h : ref.view store = some f)
    (hsplit : ¬(WellFramed msg ∧ ref.capacity < (FrameWireHeader.ofBytes msg).count ∧
      first = true ∧ second = false)) :
    ∃ ref' store', sinkDecodeRef first second msg store ref
        = some ((sinkDecode (first && second) msg f).1, ref', store') ∧
      ref'.view store' = some (sinkDecode (first && second) msg f).2 := by
  obtain ⟨ref₁, store₁, hunpack, hview₁⟩ := frameWireUnpackRef_refines msg h
  simp only [sinkDecodeRef, hunpack, Option.bind_some, sinkDecode]
  by_cases hstatus : (frameWireUnpack msg f).1 = .errCapacity
  · -- only a well-framed message can be too wide
    have hframed : WellFramed msg := by
      by_contra hframed
      rw [frameWireUnpack_of_not_wellFramed hframed, frameWirePeek_eq] at hstatus
      split_ifs at hstatus
    have hwide : f.capacity < (FrameWireHeader.ofBytes msg).count := by
      by_contra hwide
      rw [frameWireUnpack_of_wellFramed hframed, if_neg hwide] at hstatus
      cases hstatus
    have hcount : (frameWireUnpack msg f).2.count = ref₁.count :=
      congrArg Frame.count (view_eq_some hview₁).2.2
    have hcount' : ref₁.count = (FrameWireHeader.ofBytes msg).count := by
      rw [← hcount, frameWireUnpack_of_wellFramed hframed, if_pos hwide]
    have hcap : ref₁.capacity = ref.capacity := by
      rw [← capacity_view hview₁, ← capacity_view h, frameWireUnpack_of_wellFramed hframed,
        if_pos hwide]
    obtain ⟨ref₂, store₂, hreserve, hview₂⟩ :=
      frameReserveRef_refines first second ref₁.count.toUInt64 hview₁ fun hbad ↦ by
        refine hsplit ⟨hframed, ?_, hbad.2⟩
        rw [toUInt64_le_toUInt64, hcap, hcount'] at hbad
        exact UInt32.not_le.mp hbad.1
    rw [if_pos hstatus, if_pos hstatus, hreserve, Option.bind_some, hcount]
    by_cases hrc : (frameReserve (first && second) (frameWireUnpack msg f).2
        ref₁.count.toUInt64).1 = 0
    · -- the message is decoded a second time, into the larger buffer
      obtain ⟨ref₃, store₃, hretry, hview₃⟩ := frameWireUnpackRef_refines msg hview₂
      simp only [hrc, if_true]
      exact ⟨ref₃, store₃, hretry, hview₃⟩
    · simp only [hrc, if_false]
      exact ⟨ref₂, store₂, rfl, hview₂⟩
  · rw [if_neg hstatus, if_neg hstatus]
    exact ⟨ref₁, store₁, rfl, hview₁⟩

/-- A split leaves the decode buffer with a dead pointer. -/
theorem sinkDecodeRef_split (h : ref.view store = some f) (hframed : WellFramed msg)
    (hwide : ref.capacity < (FrameWireHeader.ofBytes msg).count) :
    ∃ ref' store', sinkDecodeRef true false msg store ref = some (.errCapacity, ref', store') ∧
      store'.block ref'.support = none := by
  obtain ⟨ref₁, store₁, hunpack, hview₁⟩ := frameWireUnpackRef_refines msg h
  have hout : frameWireUnpack msg f
      = (.errCapacity, { f with count := (FrameWireHeader.ofBytes msg).count }) := by
    rw [frameWireUnpack_of_wellFramed hframed, capacity_view h, if_pos hwide]
  rw [hout] at hunpack hview₁
  have hcount : (FrameWireHeader.ofBytes msg).count = ref₁.count :=
    congrArg Frame.count (view_eq_some hview₁).2.2
  have hcap : ref.capacity = ref₁.capacity := by
    rw [← capacity_view hview₁, ← capacity_view h]
  obtain ⟨store₂, hreserve, hdead⟩ :=
    frameReserveRef_split ref₁.count.toUInt64 hview₁ fun hle ↦ by
      rw [toUInt64_le_toUInt64, ← hcap, ← hcount] at hle
      exact UInt32.not_le.mpr hwide hle
  refine ⟨ref₁, store₂, ?_, hdead⟩
  simp only [sinkDecodeRef, hunpack, Option.bind_some, if_true, hreserve]
  rfl

end Decode

/-! ## Serving through the pointers

A call that is not split has the same answer from the allocator as a call on values: granted if both
halves were, refused otherwise. -/

section Serve

variable {mem : SinkMemory} {sink : Sink}

private theorem view_mk {sink : SinkRef} {store : Store Block} {f : Frame}
    (h : sink.decoded.view store = some f) :
    SinkMemory.view ⟨sink, store⟩ = some { toLedger := sink.toLedger, decoded := f } := by
  rw [SinkMemory.view, h]
  rfl

theorem SinkMemory.Dangling.view (h : mem.Dangling) : mem.view = none := by
  rw [SinkMemory.view, view_of_dead h]
  rfl

theorem sinkExpectRef_refines (first second : Bool) (specs : List SinkCamSpec)
    (h : mem.view = some sink)
    (hsplit : ¬(mem.sink.decoded.capacity < (SinkRequest.expect specs).width ∧ first = true ∧
      second = false)) :
    ∃ mem', sinkExpectRef first second mem specs
        = some ((sinkExpect (first && second) sink specs).1, mem') ∧
      mem'.view = some (sinkExpect (first && second) sink specs).2 := by
  obtain ⟨f, hview, rfl⟩ := Option.map_eq_some_iff.mp h
  simp only [SinkRequest.width] at hsplit
  simp only [sinkExpectRef, sinkExpect]
  by_cases hlen : sinkMaxCameras < specs.length
  · rw [if_pos hlen, if_pos hlen]
    exact ⟨mem, rfl, h⟩
  rw [if_neg hlen] at hsplit
  rw [if_neg hlen, if_neg hlen]
  by_cases hlargest : largestSpec specs = 0
  · rw [if_neg (not_not.mpr hlargest), if_neg (not_not.mpr hlargest)]
    exact ⟨_, rfl, view_mk hview⟩
  obtain ⟨ref', store', hreserve, hview'⟩ :=
    frameReserveRef_refines first second (largestSpec specs).toUInt64 hview fun hbad ↦ by
      rw [toUInt64_le_toUInt64, UInt32.not_le] at hbad
      exact hsplit hbad
  rw [if_pos hlargest, if_pos hlargest, hreserve, Option.map_some]
  simp only
  split_ifs with hrc
  · refine ⟨_, rfl, ?_⟩
    exact view_mk hview'
  · refine ⟨_, rfl, ?_⟩
    exact view_mk hview'

theorem sinkRecvRef_refines (first second : Bool) (event : SocketEvent)
    (h : mem.view = some sink)
    (hsplit : ¬(mem.sink.decoded.capacity < (SinkRequest.recv event).width ∧ first = true ∧
      second = false)) :
    ∃ mem', sinkRecvRef first second mem event
        = some ((sinkRecv (first && second) sink event).1, mem') ∧
      mem'.view = some (sinkRecv (first && second) sink event).2 := by
  obtain ⟨f, hview, rfl⟩ := Option.map_eq_some_iff.mp h
  cases event with
  | nothing => exact ⟨mem, rfl, h⟩
  | pollFailed => exact ⟨mem, rfl, h⟩
  | recvFailed => exact ⟨mem, rfl, h⟩
  | message msg =>
    obtain ⟨ref', store', hdecode, hview'⟩ :=
      sinkDecodeRef_refines first second hview fun hbad ↦ by
        rw [SinkRequest.width, if_pos hbad.1] at hsplit
        exact hsplit hbad.2
    simp only [sinkRecvRef, hdecode, Option.bind_some, sinkRecv, hview', Option.map_some]
    split_ifs with hok
    · exact ⟨_, rfl, view_mk hview'⟩
    · exact ⟨_, rfl, view_mk hview'⟩

/-- **Without a split the sink in memory refines the sink**: it answers the same and stands for the
same state. -/
theorem serveRef_refines (call : SinkCall) (h : mem.view = some sink) (hsplit : ¬Splits mem call) :
    ∃ mem', serveRef call.first call.second mem call.request
        = some ((serve (call.first && call.second) sink call.request).1, mem') ∧
      mem'.view = some (serve (call.first && call.second) sink call.request).2 := by
  obtain ⟨request, first, second⟩ := call
  cases request with
  | expect specs => exact sinkExpectRef_refines first second specs h hsplit
  | recv event => exact sinkRecvRef_refines first second event h hsplit

theorem sinkCall_split (call : SinkCall) (h : mem.view = some sink) (hsplit : Splits mem call) :
    ∃ mem', sinkCall mem call = some mem' ∧ mem'.Dangling := by
  obtain ⟨f, hview, rfl⟩ := Option.map_eq_some_iff.mp h
  obtain ⟨request, first, second⟩ := call
  obtain ⟨hwide, hfirst, hsecond⟩ := hsplit
  simp only at hwide hfirst hsecond
  subst hfirst hsecond
  cases request with
  | expect specs =>
    simp only [SinkRequest.width] at hwide
    split_ifs at hwide with hlen
    · exact absurd hwide (UInt32.not_lt_zero)
    have hlargest : largestSpec specs ≠ 0 := by
      intro hzero
      rw [hzero] at hwide
      exact absurd hwide UInt32.not_lt_zero
    obtain ⟨store', hreserve, hdead⟩ :=
      frameReserveRef_split (largestSpec specs).toUInt64 hview (not_toUInt64_le_of_lt hwide)
    simp only [sinkCall, serveRef, sinkExpectRef, if_neg hlen, if_pos hlargest, hreserve]
    exact ⟨_, rfl, hdead⟩
  | recv event =>
    cases event with
    | message msg =>
      simp only [SinkRequest.width] at hwide
      split_ifs at hwide with hframed
      · obtain ⟨ref', store', hdecode, hdead⟩ := sinkDecodeRef_split hview hframed hwide
        simp only [sinkCall, serveRef, sinkRecvRef, hdecode, Option.bind_some]
        exact ⟨_, rfl, hdead⟩
      · exact absurd hwide UInt32.not_lt_zero
    | nothing => exact absurd hwide UInt32.not_lt_zero
    | pollFailed => exact absurd hwide UInt32.not_lt_zero
    | recvFailed => exact absurd hwide UInt32.not_lt_zero

end Serve

/-! ## Runs in memory -/

theorem sized_serve (granted : Bool) {sink : Sink} (h : sink.decoded.Sized)
    (request : SinkRequest) : (serve granted sink request).2.decoded.Sized := by
  cases request with
  | expect specs => exact sized_sinkExpect granted h specs
  | recv event =>
    cases event with
    | message msg => exact (sinkDecode_eq granted msg h).2.1
    | nothing => exact h
    | pollFailed => exact h
    | recvFailed => exact h

theorem live_iff_view {mem : SinkMemory} :
    mem.Live ↔ ∃ sink, mem.view = some sink ∧ sink.decoded.Sized := by
  constructor
  · rintro ⟨f, hview, hsized⟩
    exact ⟨_, view_mk hview, hsized⟩
  · rintro ⟨sink, hview, hsized⟩
    obtain ⟨f, hf, rfl⟩ := Option.map_eq_some_iff.mp hview
    exact ⟨f, hf, hsized⟩

theorem not_live_of_dangling {mem : SinkMemory} (h : mem.Dangling) : ¬mem.Live := by
  intro hlive
  obtain ⟨sink, hview, -⟩ := live_iff_view.mp hlive
  rw [h.view] at hview
  cases hview

theorem live_sinkNewRef {store : Store Block} {check : Option SinkCheck} {mem : SinkMemory}
    (h : sinkNewRef store check = some mem) : mem.Live := by
  obtain ⟨sink, hnew, rfl⟩ := Option.map_eq_some_iff.mp h
  have hsized := (fresh_sinkNew hnew).sized
  refine ⟨sink.decoded, ?_, hsized⟩
  rw [view_of_blocks (Store.alloc_block_of_live _ _ (Store.alloc_block_next _ _))
    (Store.alloc_block_next _ _)]

/-- **A growth is all or nothing exactly when it does not split or wrap, and the decode buffer of a
sink only names live buffers exactly as long as no call splits.** The first part is about any frame
in any memory, the second about any run of a sink opened in any memory. -/
theorem frameReserve_allOrNothing (first second : Bool) (store : Store Block) (ref : FrameRef)
    (capacity : UInt64) (hlive : ref.Live store) (heap : Store Block) (check : Option SinkCheck)
    (mem : SinkMemory) (hnew : sinkNewRef heap check = some mem) (calls : List SinkCall) :
    (AllOrNothing first second store ref capacity ↔
      capacity ≤ ref.capacity.toUInt64 ∨ first = false ∨
        (second = true ∧ capacity.toNat < 2 ^ 62)) ∧
    ((∀ pre, pre <+: calls → ∃ mem', exec sinkCall mem pre = some mem' ∧ mem'.Live) ↔
      ∀ pre call post, calls = pre ++ call :: post →
        ∀ mem', exec sinkCall mem pre = some mem' → ¬Splits mem' call) := by
  refine ⟨allOrNothing_iff first second hlive, ?_⟩
  refine survives_iff (fun mem call hlive hsplit ↦ ?_) (fun mem call hlive hsplit ↦ ?_)
    (live_sinkNewRef hnew) calls
  · obtain ⟨sink, hview, hsized⟩ := live_iff_view.mp hlive
    obtain ⟨mem', hserve, hview'⟩ := serveRef_refines call hview hsplit
    refine ⟨mem', ?_, live_iff_view.mpr ⟨_, hview', sized_serve _ hsized _⟩⟩
    rw [sinkCall, hserve]
    rfl
  · obtain ⟨sink, hview, -⟩ := live_iff_view.mp hlive
    obtain ⟨mem', hcall, hdead⟩ := sinkCall_split call hview hsplit
    refine ⟨mem', hcall, fun hlive' ↦ ?_⟩
    exact not_live_of_dangling hdead hlive'

/-- A table that asks for one site more than the buffer has, with an allocator that can serve it. -/
theorem frameReserve_allOrNothing_five :
    ∃ mem, sinkNewRef .empty (some ⟨.fin 0, .fin 1, 4⟩) = some mem ∧
      AllOrNothing true true mem.store mem.sink.decoded 5 ∧
      ∃ mem', sinkCall mem ⟨.expect [⟨0, 5, .fin 0⟩], true, true⟩ = some mem' ∧ mem'.Live := by
  obtain ⟨mem, hnew⟩ : ∃ mem, sinkNewRef .empty (some ⟨.fin 0, .fin 1, 4⟩) = some mem := ⟨_, rfl⟩
  obtain ⟨hcall, hrun⟩ := frameReserve_allOrNothing true true mem.store mem.sink.decoded 5
    (live_sinkNewRef hnew) .empty _ mem hnew [⟨.expect [⟨0, 5, .fin 0⟩], true, true⟩]
  refine ⟨mem, hnew, hcall.mpr (.inr (.inr ⟨rfl, by decide⟩)), ?_⟩
  obtain ⟨mem', hexec, hlive⟩ := hrun.mpr (fun pre call post hcalls mem' _ hsplit ↦ by
      have hmem : call ∈ [(⟨.expect [⟨0, 5, .fin 0⟩], true, true⟩ : SinkCall)] := by
        rw [hcalls]
        simp
      rw [List.mem_singleton.mp hmem] at hsplit
      exact absurd hsplit.2.2 (by decide)) _ (List.prefix_refl _)
  exact ⟨mem', by simpa [exec_cons] using hexec, hlive⟩

/-- The same table, with an allocator that serves the first array and not the second. -/
theorem frameReserve_splits_five :
    ∃ mem, sinkNewRef .empty (some ⟨.fin 0, .fin 1, 4⟩) = some mem ∧ mem.Live ∧
      ¬AllOrNothing true false mem.store mem.sink.decoded 5 ∧
      ∃ mem', sinkCall mem ⟨.expect [⟨0, 5, .fin 0⟩], true, false⟩ = some mem' ∧ ¬mem'.Live := by
  obtain ⟨mem, hnew, hcap⟩ : ∃ mem, sinkNewRef .empty (some ⟨.fin 0, .fin 1, 4⟩) = some mem ∧
      mem.sink.decoded.capacity = 4 := ⟨_, rfl, rfl⟩
  have hlive := live_sinkNewRef hnew
  refine ⟨mem, hnew, hlive, fun h ↦ ?_, ?_⟩
  · have hgood := (allOrNothing_iff true false hlive).mp h
    rw [hcap] at hgood
    exact absurd hgood (by decide)
  · obtain ⟨sink, hview, -⟩ := live_iff_view.mp hlive
    obtain ⟨mem', hcall, hdead⟩ := sinkCall_split ⟨.expect [⟨0, 5, .fin 0⟩], true, false⟩ hview
      ⟨by rw [hcap]; decide, rfl, rfl⟩
    refine ⟨mem', hcall, fun hlive' ↦ ?_⟩
    exact not_live_of_dangling hdead hlive'

end SparseCamera
