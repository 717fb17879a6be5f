import SparseCamera.Sink.Run

/-!
# Decoding, and decoding again

The sink does not know how wide a frame is before it has looked at the message. It tries the decode
buffer it has; if the frame is too wide it finds the width in the half-failed buffer, grows to it
and tries again. So it should look as if the buffer had been wide enough from the start, and what it
asks the allocator for is the width of a message that has already arrived.
-/

namespace SparseCamera

/-- The size `sink_recv` asks `frame_reserve` for, if the first attempt was short. -/
def reserveRequest (msg : Bytes) (decoded : Frame) : Option UInt64 :=
  let (status, decoded) := frameWireUnpack msg decoded
  if status = .errCapacity then some decoded.count.toUInt64 else none

/-- What `sink_recv` decodes is what a wide buffer would have got. -/
structure DecodesDirectly (msg : Bytes) (decoded : Frame) : Prop where
  /-- The status is that of `frame_wire_peek`. -/
  status : ∀ hdr, (sinkDecode true msg decoded).1 = (frameWirePeek msg hdr).1
  settled : (sinkDecode true msg decoded).1 ≠ .errCapacity
  direct : (sinkDecode true msg decoded).1 = .ok → ∀ wide : Frame,
    (FrameWireHeader.ofBytes msg).count ≤ wide.capacity →
      (frameWireUnpack msg wide).1 = .ok ∧
      (sinkDecode true msg decoded).2.contents = (frameWireUnpack msg wide).2.contents ∧
      (sinkDecode true msg decoded).2.count = (frameWireUnpack msg wide).2.count
  counted : (sinkDecode true msg decoded).1 = .ok →
    (sinkDecode true msg decoded).2.count ≤ (sinkDecode true msg decoded).2.capacity
  /-- A message that is dropped leaves no trace. -/
  unchanged : (sinkDecode true msg decoded).1 ≠ .ok → (sinkDecode true msg decoded).2 = decoded
  /-- The buffer never shrinks, and never grows beyond what a message carries. -/
  grows : decoded.capacity ≤ (sinkDecode true msg decoded).2.capacity
  bounded : (sinkDecode true msg decoded).2.capacity.toNat
    ≤ max decoded.capacity.toNat ((msg.length - 32) / 8)
  asked : ∀ size ∈ reserveRequest msg decoded, size.toNat = (msg.length - 32) / 8

section Decode

variable {msg : Bytes} {decoded : Frame}

private theorem frameWirePeek_fst (msg : Bytes) (hdr hdr' : FrameWireHeader) :
    (frameWirePeek msg hdr).1 = (frameWirePeek msg hdr').1 := by
  rw [frameWirePeek_eq, frameWirePeek_eq]
  split_ifs <;> rfl

/-- The number of entries of a well-framed message is in its length. -/
theorem WellFramed.count_eq (h : WellFramed msg) :
    (FrameWireHeader.ofBytes msg).count.toNat = (msg.length - 32) / 8 := by
  have hlength := h.length
  omega

private theorem reserveRequest_of_wide (hframed : WellFramed msg)
    (hwide : decoded.capacity < (FrameWireHeader.ofBytes msg).count) :
    reserveRequest msg decoded = some (FrameWireHeader.ofBytes msg).count.toUInt64 := by
  rw [reserveRequest, frameWireUnpack_of_wellFramed hframed, if_pos hwide]
  rfl

private theorem reserveRequest_of_not_wide (h : ¬(WellFramed msg ∧
    decoded.capacity < (FrameWireHeader.ofBytes msg).count)) :
    reserveRequest msg decoded = none := by
  by_cases hframed : WellFramed msg
  · rw [reserveRequest, frameWireUnpack_of_wellFramed hframed,
      if_neg fun hwide ↦ h ⟨hframed, hwide⟩]
    rfl
  · rw [reserveRequest, frameWireUnpack_of_not_wellFramed hframed]
    exact if_neg (frameWirePeek_ne_errCapacity msg .uninit)

private theorem decodesDirectly_of_unpacked {f : Frame} (h : WellFramed msg)
    (hdecode : sinkDecode true msg decoded = (.ok, unpacked msg f))
    (hcount : (FrameWireHeader.ofBytes msg).count ≤ f.capacity)
    (hgrows : decoded.capacity ≤ f.capacity)
    (hbounded : f.capacity.toNat ≤ max decoded.capacity.toNat ((msg.length - 32) / 8))
    (hasked : ∀ size ∈ reserveRequest msg decoded, size.toNat = (msg.length - 32) / 8) :
    DecodesDirectly msg decoded := by
  have hstatus : (sinkDecode true msg decoded).1 = .ok := congrArg Prod.fst hdecode
  have hframe : (sinkDecode true msg decoded).2 = unpacked msg f := congrArg Prod.snd hdecode
  refine ⟨?_, ?_, ?_, ?_, fun hne ↦ absurd hstatus hne, ?_, ?_, hasked⟩
  · intro hdr
    rw [hstatus, (frameWirePeek_ok_iff msg hdr).mpr h]
  · rw [hstatus]
    simp
  · intro _ wide hwide
    rw [hframe, frameWireUnpack_of_wellFramed h, if_neg (UInt32.not_lt.mpr hwide),
      contents_unpacked, contents_unpacked]
    exact ⟨rfl, rfl, rfl⟩
  · intro _
    rw [hframe]
    exact hcount
  · rw [hframe]
    exact hgrows
  · rw [hframe]
    exact hbounded

/-- **Growing and retrying agrees with decoding directly**, for every message and whatever the
decode buffer holds, as long as the allocator serves it. -/
theorem decodesDirectly (msg : Bytes) (decoded : Frame) : DecodesDirectly msg decoded := by
  have hnone (h : ¬(WellFramed msg ∧ decoded.capacity < (FrameWireHeader.ofBytes msg).count)) :
      ∀ size ∈ reserveRequest msg decoded, size.toNat = (msg.length - 32) / 8 := by
    rw [reserveRequest_of_not_wide h]
    rintro size ⟨⟩
  by_cases h : WellFramed msg
  · by_cases hwide : decoded.capacity < (FrameWireHeader.ofBytes msg).count
    · obtain ⟨f, hdecode, hcap, -⟩ := sinkDecode_grown h hwide
      refine decodesDirectly_of_unpacked h hdecode ?_ ?_ ?_ ?_
      · rw [hcap]
        exact UInt32.le_refl _
      · rw [hcap]
        exact UInt32.le_of_lt hwide
      · rw [hcap, h.count_eq]
        exact le_max_right _ _
      · rw [reserveRequest_of_wide h hwide]
        rintro size ⟨⟩
        rw [UInt32.toNat_toUInt64, h.count_eq]
    · exact decodesDirectly_of_unpacked h (sinkDecode_of_fits true h hwide)
        (UInt32.not_lt.mp hwide) (UInt32.le_refl _) (le_max_left _ _) (hnone fun hw ↦ hwide hw.2)
  · have hdecode := @sinkDecode_of_not_wellFramed msg decoded true h
    have hstatus : (sinkDecode true msg decoded).1 = (frameWirePeek msg .uninit).1 :=
      congrArg Prod.fst hdecode
    have hframe : (sinkDecode true msg decoded).2 = decoded := congrArg Prod.snd hdecode
    have hne : (sinkDecode true msg decoded).1 ≠ .ok := by
      rw [hstatus]
      exact fun hok ↦ h ((frameWirePeek_ok_iff msg .uninit).mp hok)
    refine ⟨?_, ?_, fun hok ↦ absurd hok hne, fun hok ↦ absurd hok hne, fun _ ↦ hframe, ?_, ?_,
      hnone fun hw ↦ h hw.1⟩
    · intro hdr
      rw [hstatus, frameWirePeek_fst]
    · rw [hstatus]
      exact frameWirePeek_ne_errCapacity msg .uninit
    · rw [hframe]
      exact UInt32.le_refl _
    · rw [hframe]
      exact le_max_left _ _

end Decode

end SparseCamera
