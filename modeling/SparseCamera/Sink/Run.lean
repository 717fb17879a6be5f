import SparseCamera.Sink.Accounting

/-!
# Runs of the sink

What a message decodes to depends on the messages before it only through the width of the decode
buffer, and on that only when the allocator refuses to grow it. A run of the sink is therefore a
walk over decode outcomes, and with an allocator that never refuses these are what the messages
say.

## The construction

`decodeOutcome` and `decodeCapacity` follow the decode buffer through a history by its width alone.
What is in the buffer is overwritten by each message and not read before that, so the width is all
that one message leaves to the next.
-/

namespace SparseCamera

open KeyedHistory

/-! ## Decoding with a buffer that grows

The cases of a decoding: the message is not well framed, it fits, it does not fit and the buffer
grows, or the allocator refuses. -/

/-- What one `sink_recv` decodes, given the width of the buffer. -/
def decodeOutcome (capacity : UInt32) (granted : Bool) (msg : Bytes) : Option Contents :=
  if granted = false ∧ capacity < (FrameWireHeader.ofBytes msg).count then none else parse msg

/-- The width of the buffer afterwards. -/
def decodeCapacity (capacity : UInt32) (granted : Bool) (msg : Bytes) : UInt32 :=
  if WellFramed msg ∧ granted = true ∧ capacity < (FrameWireHeader.ofBytes msg).count then
    (FrameWireHeader.ofBytes msg).count
  else capacity

section Decode

variable {msg : Bytes} {decoded : Frame}

/-- The checks before the copy do not know how wide the destination is. -/
theorem frameWirePeek_ne_errCapacity (msg : Bytes) (hdr : FrameWireHeader) :
    (frameWirePeek msg hdr).1 ≠ .errCapacity := by
  rw [frameWirePeek_eq]
  split_ifs <;> simp

theorem sinkDecode_of_not_wellFramed (granted : Bool) (hframed : ¬WellFramed msg) :
    sinkDecode granted msg decoded = ((frameWirePeek msg .uninit).1, decoded) := by
  rw [sinkDecode, frameWireUnpack_of_not_wellFramed hframed]
  simp only [frameWirePeek_ne_errCapacity msg .uninit, if_false]

theorem sinkDecode_of_fits (granted : Bool) (hframed : WellFramed msg)
    (hfits : ¬decoded.capacity < (FrameWireHeader.ofBytes msg).count) :
    sinkDecode granted msg decoded = (.ok, unpacked msg decoded) := by
  rw [sinkDecode, frameWireUnpack_of_wellFramed hframed, if_neg hfits]
  rfl

/-- A frame wider than the buffer when the allocator can serve it: the second attempt has room. -/
theorem sinkDecode_grown (hframed : WellFramed msg)
    (hwide : decoded.capacity < (FrameWireHeader.ofBytes msg).count) :
    ∃ f : Frame, sinkDecode true msg decoded = (.ok, unpacked msg f) ∧
      f.capacity = (FrameWireHeader.ofBytes msg).count ∧ (decoded.Sized → f.Sized) := by
  have hgrow := not_toUInt64_le_of_lt hwide
  obtain ⟨f, hreserve, hcap⟩ : ∃ f : Frame, frameReserve true
      { decoded with count := (FrameWireHeader.ofBytes msg).count }
        (FrameWireHeader.ofBytes msg).count.toUInt64 = (0, f) ∧
      f.capacity = (FrameWireHeader.ofBytes msg).count := by
    rw [frameReserve, if_neg hgrow, if_pos rfl]
    exact ⟨_, rfl, UInt32.toUInt32_toUInt64 _⟩
  have hretry : frameWireUnpack msg f = (.ok, unpacked msg f) := by
    rw [frameWireUnpack_of_wellFramed hframed, hcap, if_neg (UInt32.lt_irrefl _)]
  refine ⟨f, ?_, hcap, ?_⟩
  · rw [sinkDecode, frameWireUnpack_of_wellFramed hframed, if_pos hwide]
    simp only [↓reduceIte]
    rw [hreserve]
    simp only [↓reduceIte]
    exact hretry
  · intro hsized
    have hsized' : Frame.Sized { decoded with count := (FrameWireHeader.ofBytes msg).count } :=
      ⟨hsized.support, hsized.signal⟩
    obtain ⟨f', hf', hfsized, -⟩ :=
      frameReserve_granted hsized' (FrameWireHeader.ofBytes msg).count
    rw [hreserve] at hf'
    exact (Prod.mk.inj hf').2 ▸ hfsized

private theorem sinkDecode_refused (hframed : WellFramed msg)
    (hwide : decoded.capacity < (FrameWireHeader.ofBytes msg).count) :
    sinkDecode false msg decoded
      = (.errCapacity, { decoded with count := (FrameWireHeader.ofBytes msg).count }) := by
  have hgrow := not_toUInt64_le_of_lt hwide
  rw [sinkDecode, frameWireUnpack_of_wellFramed hframed, if_pos hwide]
  simp only [if_true]
  rw [frameReserve, if_neg hgrow]
  rfl

/-- Decoding a message: the outcome and the buffer it leaves. -/
theorem sinkDecode_eq (granted : Bool) (msg : Bytes) (hsized : decoded.Sized) :
    (if (sinkDecode granted msg decoded).1 = .ok then
        some (sinkDecode granted msg decoded).2.contents else none)
      = decodeOutcome decoded.capacity granted msg ∧
    (sinkDecode granted msg decoded).2.Sized ∧
    (sinkDecode granted msg decoded).2.capacity
      = decodeCapacity decoded.capacity granted msg := by
  by_cases hframed : WellFramed msg
  · by_cases hwide : decoded.capacity < (FrameWireHeader.ofBytes msg).count
    · cases granted with
      | true =>
        obtain ⟨f, hf, hcap, hkeep⟩ := sinkDecode_grown hframed hwide
        have hcount : (FrameWireHeader.ofBytes msg).count.toNat ≤ f.capacity.toNat := by rw [hcap]
        rw [hf, if_pos rfl, decodeOutcome, if_neg (by simp), parse, if_pos hframed,
          contents_unpacked, decodeCapacity, if_pos ⟨hframed, rfl, hwide⟩]
        exact ⟨rfl, holds_unpacked (hkeep hsized) hcount, hcap⟩
      | false =>
        rw [sinkDecode_refused hframed hwide, if_neg (by simp), decodeOutcome,
          if_pos ⟨rfl, hwide⟩, decodeCapacity, if_neg (by simp)]
        exact ⟨rfl, ⟨hsized.support, hsized.signal⟩, rfl⟩
    · have hfit := UInt32.le_iff_toNat_le.mp (UInt32.not_lt.mp hwide)
      rw [sinkDecode_of_fits granted hframed hwide, if_pos rfl, decodeOutcome,
        if_neg fun h ↦ hwide h.2, parse, if_pos hframed, contents_unpacked, decodeCapacity,
        if_neg fun h ↦ hwide h.2.2]
      exact ⟨rfl, holds_unpacked hsized hfit, rfl⟩
  · have hstatus : (frameWirePeek msg .uninit).1 ≠ .ok :=
      fun h ↦ hframed ((frameWirePeek_ok_iff msg .uninit).mp h)
    rw [sinkDecode_of_not_wellFramed granted hframed, if_neg hstatus, decodeOutcome,
      parse_eq_none.mpr hframed, ite_self, decodeCapacity, if_neg fun h ↦ hframed h.1]
    exact ⟨rfl, hsized, rfl⟩

end Decode

/-! ## Runs -/

/-- A sink receiving messages, each with the allocator's answer should it be asked. -/
def receive (sink : Sink) (history : List (Bytes × Bool)) : Sink :=
  history.foldl (fun sink message ↦ (sinkRecv message.2 sink (.message message.1)).2) sink

/-- What a history of messages decodes to. -/
def decodeHistory (capacity : UInt32) : List (Bytes × Bool) → List (Option Contents)
  | [] => []
  | (msg, granted) :: history =>
    decodeOutcome capacity granted msg ::
      decodeHistory (decodeCapacity capacity granted msg) history

section Run

variable {sink : Sink} {history : List (Bytes × Bool)}

@[simp] theorem length_decodeHistory (capacity : UInt32) (history : List (Bytes × Bool)) :
    (decodeHistory capacity history).length = history.length := by
  induction history generalizing capacity with
  | nil => rfl
  | cons message history ih => rw [decodeHistory, List.length_cons, ih, List.length_cons]

theorem decodeHistory_granted (capacity : UInt32) (h : ∀ message ∈ history, message.2 = true) :
    decodeHistory capacity history = history.map fun message ↦ parse message.1 := by
  induction history generalizing capacity with
  | nil => rfl
  | cons message history ih =>
    have hmessage : message.2 = true := h message List.mem_cons_self
    rw [decodeHistory, ih _ fun m hm ↦ h m (List.mem_cons_of_mem _ hm), List.map_cons,
      decodeOutcome, hmessage, if_neg (by simp)]

/-- A history in which everything was decoded says what its messages say, too. -/
theorem decodeHistory_of_notMem (capacity : UInt32) (h : none ∉ decodeHistory capacity history) :
    decodeHistory capacity history = history.map fun message ↦ parse message.1 := by
  induction history generalizing capacity with
  | nil => rfl
  | cons message history ih =>
    obtain ⟨hmessage, hrest⟩ := not_or.mp (mt List.mem_cons.mpr h)
    rw [decodeHistory, ih _ hrest, List.map_cons, decodeOutcome]
    split_ifs with hrefused
    · rw [decodeOutcome, if_pos hrefused] at hmessage
      exact absurd rfl hmessage
    · rfl

/-- **A run walks over the decode outcomes**, and its buffer stays as large as it says. -/
theorem receive_eq (hsized : sink.decoded.Sized) :
    (receive sink history).toLedger
        = (decodeHistory sink.decoded.capacity history).foldl observe sink.toLedger ∧
      (receive sink history).decoded.Sized := by
  induction history generalizing sink with
  | nil => exact ⟨rfl, hsized⟩
  | cons message history ih =>
    obtain ⟨houtcome, hsized', hcap⟩ := sinkDecode_eq message.2 message.1 hsized
    have hstep : (sinkRecv message.2 sink (.message message.1)).2.toLedger
        = observe sink.toLedger (decodeOutcome sink.decoded.capacity message.2 message.1) := by
      rw [← houtcome]
      rfl
    have hnext : (sinkRecv message.2 sink (.message message.1)).2.decoded.Sized := hsized'
    obtain ⟨hrun, hrunSized⟩ := ih hnext
    refine ⟨?_, hrunSized⟩
    rw [hstep] at hrun
    rw [decodeHistory, List.foldl_cons, ← hcap]
    exact hrun

end Run

/-! ## The sinks a run starts from

A sink may have its table registered or not when the first message comes. Both are `Fresh`: nothing
is counted and no slot is taken. -/

/-- A sink as `sink_new` makes it, with a table registered by `sink_expect` or without one. -/
inductive Opened (check : Option SinkCheck) : Sink → Prop
  | new {sink : Sink} (h : sinkNew check = some sink) : Opened check sink
  | expect {sink sink' : Sink} {granted : Bool} {specs : List SinkCamSpec} (h : Opened check sink)
      (hexpect : sinkExpect granted sink specs = (0, sink')) : Opened check sink'

structure Sink.Fresh (sink : Sink) : Prop where
  cams : sink.cams = List.replicate sinkMaxCameras .blank
  stats : sink.stats = .zero
  specs : sink.specs.length ≤ sinkMaxCameras
  sized : sink.decoded.Sized

theorem fresh_sinkNew {check : Option SinkCheck} {sink : Sink} (h : sinkNew check = some sink) :
    sink.Fresh := by
  simp only [sinkNew] at h
  split at h
  · cases h
  · next decoded hnew =>
    obtain rfl := Option.some.inj h
    refine ⟨rfl, rfl, Nat.zero_le _, (sized_newFrames hnew ?_).1⟩
    split_ifs with hsites hsites
    all_goals first
      | exact UInt32.toNat_lt _
      | decide

private theorem sized_frameReserve (granted : Bool) {f : Frame} (hf : f.Sized) (capacity : UInt32) :
    (frameReserve granted f capacity.toUInt64).2.Sized := by
  cases granted with
  | true =>
    obtain ⟨f', hf', hsized, -⟩ := frameReserve_granted hf capacity
    rw [hf']
    exact hsized
  | false =>
    rw [frameReserve, if_neg Bool.false_ne_true]
    split_ifs
    · exact hf
    · exact hf

/-- `sink_expect` touches the table of configured cameras and the decode buffer only. -/
theorem sinkExpect_ledger (granted : Bool) (sink : Sink) (specs : List SinkCamSpec) :
    (sinkExpect granted sink specs).2.toLedger
      = { sink.toLedger with
          specs := if sinkMaxCameras < specs.length then sink.specs else specs } := by
  simp only [sinkExpect]
  split_ifs <;> rfl

theorem sized_sinkExpect (granted : Bool) {sink : Sink} (h : sink.decoded.Sized)
    (specs : List SinkCamSpec) : (sinkExpect granted sink specs).2.decoded.Sized := by
  simp only [sinkExpect]
  split_ifs
  · exact h
  · exact sized_frameReserve granted h _
  · exact sized_frameReserve granted h _
  · exact h

private theorem capacity_of_frameReserve {granted : Bool} {f f' : Frame} {capacity : UInt32}
    (h : frameReserve granted f capacity.toUInt64 = (0, f')) : capacity ≤ f'.capacity := by
  rw [frameReserve] at h
  split_ifs at h with hle hgranted
  · obtain rfl := (Prod.mk.inj h).2
    exact toUInt64_le_toUInt64.mp hle
  · obtain rfl := (Prod.mk.inj h).2
    exact UInt32.le_of_eq (UInt32.toUInt32_toUInt64 capacity).symm
  · exact absurd (Prod.mk.inj h).1 (by decide)

theorem le_largestSpec {specs : List SinkCamSpec} {spec : SinkCamSpec} (h : spec ∈ specs) :
    spec.maxSites ≤ largestSpec specs := by
  induction specs using List.reverseRecOn with
  | nil => exact absurd h List.not_mem_nil
  | append_singleton specs last ih =>
    have hlast : largestSpec (specs ++ [last])
        = if largestSpec specs < last.maxSites then last.maxSites else largestSpec specs := by
      rw [largestSpec, List.foldl_append]
      rfl
    rw [hlast]
    rcases List.mem_append.mp h with hmem | hmem
    · split_ifs with hlt
      · exact UInt32.le_trans (ih hmem) (UInt32.le_of_lt hlt)
      · exact ih hmem
    · obtain rfl := List.mem_singleton.mp hmem
      split_ifs with hlt
      · exact UInt32.le_refl _
      · exact UInt32.not_lt.mp hlt

theorem sinkExpect_granted {sink : Sink} (hsized : sink.decoded.Sized) (specs : List SinkCamSpec)
    (hlen : specs.length ≤ sinkMaxCameras) : ∃ sink', sinkExpect true sink specs = (0, sink') := by
  obtain ⟨f, hf, -⟩ := frameReserve_granted hsized (largestSpec specs)
  simp only [sinkExpect, if_neg (not_lt.mpr hlen)]
  split_ifs with hlargest hrc
  · exact absurd (congrArg Prod.fst hf) hrc
  · exact ⟨_, rfl⟩
  · exact ⟨_, rfl⟩

theorem sinkExpect_zero {granted : Bool} {sink sink' : Sink} {specs : List SinkCamSpec}
    (h : sinkExpect granted sink specs = (0, sink')) :
    sink'.check = sink.check ∧ sink'.specs = specs ∧
      ∀ spec ∈ specs, spec.maxSites ≤ sink'.decoded.capacity := by
  simp only [sinkExpect] at h
  split_ifs at h with hlen hlargest hrc
  · exact absurd (Prod.mk.inj h).1 (by decide)
  · exact absurd (Prod.mk.inj h).1 (by decide)
  · obtain rfl := (Prod.mk.inj h).2
    refine ⟨rfl, rfl, fun spec hspec ↦ UInt32.le_trans (le_largestSpec hspec) ?_⟩
    exact @capacity_of_frameReserve granted sink.decoded _ _ (Prod.ext (not_not.mp hrc) rfl)
  · obtain rfl := (Prod.mk.inj h).2
    refine ⟨rfl, rfl, fun spec hspec ↦ ?_⟩
    have hle := le_largestSpec hspec
    rw [not_not.mp hlargest] at hle
    exact UInt32.le_trans hle UInt32.zero_le

theorem fresh_sinkExpect (granted : Bool) {sink : Sink} (h : sink.Fresh)
    (specs : List SinkCamSpec) : (sinkExpect granted sink specs).2.Fresh := by
  have hledger := sinkExpect_ledger granted sink specs
  refine ⟨(congrArg Ledger.cams hledger).trans h.cams,
    (congrArg Ledger.stats hledger).trans h.stats, ?_, sized_sinkExpect granted h.sized specs⟩
  rw [hledger]
  split_ifs with hlen
  · exact h.specs
  · exact not_lt.mp hlen

theorem Opened.fresh {check : Option SinkCheck} {sink : Sink} (h : Opened check sink) :
    sink.Fresh := by
  induction h with
  | new h => exact fresh_sinkNew h
  | @expect sink sink' granted specs _ hexpect ih =>
    have := fresh_sinkExpect granted ih specs
    rwa [hexpect] at this

theorem accounts_receive {sink : Sink} (h : sink.Fresh) (history : List (Bytes × Bool))
    (hlt : history.length < 2 ^ 64) :
    Accounts sink.check sink.specs (decodeHistory sink.decoded.capacity history)
      (receive sink history).toLedger := by
  rw [(receive_eq h.sized).1]
  have := accounts_foldl (accounts_nil h.cams h.stats)
    (decodeHistory sink.decoded.capacity history) (bounded_of_length_lt (by simpa using hlt))
  rwa [List.nil_append] at this

end SparseCamera
