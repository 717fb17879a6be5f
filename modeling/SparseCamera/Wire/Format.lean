import SparseCamera.Lib.LittleEndian
import SparseCamera.Wire.Frame

/-!
# The wire format

One message holds one frame: a packed 32-byte header, then `count` site indices, then `count`
values, all little-endian. The header comes first so that a consumer can read the count before it
knows how long the message should be.

The host is little-endian with a 64-bit `size_t`, so a header field is its `Codec`, a `memcpy`
into the message is an `overwrite`, and sizes are computed in `UInt64`.

## The construction

A header is a record on one side and 32 bytes on the other, and the fields are converted by codecs
with a width each. Whether a message parses depends on its length and its header (`WellFramed`), and
what it says, `messageContents`, does not depend on where it is decoded to. `frame_wire_unpack` is
then described by these two and the capacity of its destination.
-/

namespace SparseCamera

open LittleEndian Memory

abbrev Bytes := List UInt8

/-- The codec of a `float`. -/
def f32 : Codec Binary32 := u32.congr Binary32.bitsEquiv

@[simp] theorem width_f32 : f32.width = 4 := rfl

/-! ## The header -/

/-- "FRM1". -/
def frameWireFormat : UInt32 := 0x314d5246

def frameWireVersion : UInt16 := 1

/-- `sizeof(frame_wire_header_t)`; the struct is packed. -/
def frameWireHeaderSize : ℕ := 32

/-- `frame_wire_header_t`. -/
structure FrameWireHeader where
  format : UInt32
  version : UInt16
  flags : UInt16
  cameraId : UInt32
  count : UInt32
  tNs : Int64
  sequence : UInt64
deriving DecidableEq, Repr

/-- The header as it lies in memory. -/
def FrameWireHeader.toBytes (h : FrameWireHeader) : Bytes :=
  u32.encode h.format ++ (u16.encode h.version ++ (u16.encode h.flags ++
    (u32.encode h.cameraId ++ (u32.encode h.count ++ (i64.encode h.tNs ++ u64.encode h.sequence)))))

/-- The header at the start of a message. -/
def FrameWireHeader.ofBytes (msg : Bytes) : FrameWireHeader where
  format := u32.readAt 0 msg
  version := u16.readAt 4 msg
  flags := u16.readAt 6 msg
  cameraId := u32.readAt 8 msg
  count := u32.readAt 12 msg
  tNs := i64.readAt 16 msg
  sequence := u64.readAt 24 msg

/-! ## Packing -/

/-- The bytes a header announces: itself and two arrays of four-byte entries. -/
def frameWireLength (count : UInt32) : UInt64 := 32 + count.toUInt64 * (4 + 4)

/-- `frame_wire_size`. -/
def frameWireSize (frame : Frame) : UInt64 := frameWireLength frame.count

/-- `frame_wire_pack`: the bytes written, or 0 if `cap` is too small, and the buffer afterwards. -/
def frameWirePack (frame : Frame) (out : Bytes) (cap : UInt64) : UInt64 × Bytes :=
  let need := frameWireSize frame
  if cap < need then (0, out)
  else
    let hdr : FrameWireHeader :=
      { format := frameWireFormat
        version := frameWireVersion
        flags := 0
        cameraId := frame.cameraId
        count := frame.count
        tNs := frame.tNs
        sequence := frame.sequence }
    let p := 0
    let out := overwrite out p hdr.toBytes
    let p := p + frameWireHeaderSize
    let out := overwrite out p (u32.encodeAll (frame.support.take frame.count.toNat))
    let p := p + frame.count.toNat * 4
    let out := overwrite out p (f32.encodeAll (frame.signal.take frame.count.toNat))
    (need, out)

/-! ## Unpacking -/

/-- `frame_wire_status_t`. -/
inductive FrameWireStatus where
  | ok
  | errShort
  | errFormat
  | errVersion
  | errLength
  | errCapacity
deriving DecidableEq, Repr

/-- The value of the enumerator. -/
def FrameWireStatus.code : FrameWireStatus → ℤ
  | ok => 0
  | errShort => -1
  | errFormat => -2
  | errVersion => -3
  | errLength => -4
  | errCapacity => -5

/-- `frame_wire_peek`: the status of a message, and the header it copied out. -/
def frameWirePeek (msg : Bytes) (hdr : FrameWireHeader) : FrameWireStatus × FrameWireHeader :=
  if msg.length < frameWireHeaderSize then (.errShort, hdr)
  else
    let hdr := FrameWireHeader.ofBytes msg
    if hdr.format ≠ frameWireFormat then (.errFormat, hdr)
    else if frameWireVersion < hdr.version then (.errVersion, hdr)
    else if msg.length ≠ (frameWireLength hdr.count).toNat then (.errLength, hdr)
    else (.ok, hdr)

/-- The header before `frame_wire_peek` fills it. -/
def FrameWireHeader.uninit : FrameWireHeader := ⟨0, 0, 0, 0, 0, 0, 0⟩

/-- `frame_wire_unpack`. On a short destination the count is still stored, so that the caller
knows how much it needs. -/
def frameWireUnpack (msg : Bytes) (out : Frame) : FrameWireStatus × Frame :=
  let (status, hdr) := frameWirePeek msg .uninit
  if status ≠ .ok then (status, out)
  else if out.capacity < hdr.count then (.errCapacity, { out with count := hdr.count })
  else
    let p := msg.drop frameWireHeaderSize
    let support := overwrite out.support 0 (u32.decodeAll hdr.count.toNat p)
    let p := p.drop (hdr.count.toNat * 4)
    let signal := overwrite out.signal 0 (f32.decodeAll hdr.count.toNat p)
    (.ok, { out with
      support := support
      signal := signal
      cameraId := hdr.cameraId
      count := hdr.count
      tNs := hdr.tNs
      sequence := hdr.sequence })

/-! ## Sizes -/

theorem toNat_frameWireLength (count : UInt32) :
    (frameWireLength count).toNat = 32 + 8 * count.toNat := by
  have h := count.toNat_lt
  have hmul : (count.toUInt64 * (4 + 4)).toNat = count.toNat * 8 := by
    rw [UInt64.toNat_mul, UInt32.toNat_toUInt64]
    exact Nat.mod_eq_of_lt (by change count.toNat * 8 < _; omega)
  rw [frameWireLength, UInt64.toNat_add, hmul]
  change (32 + count.toNat * 8) % 2 ^ 64 = _
  omega

@[simp] theorem length_toBytes (h : FrameWireHeader) : h.toBytes.length = 32 := by
  simp [FrameWireHeader.toBytes]

/-! ## The header is a bijection with its 32 bytes -/

theorem ofBytes_toBytes (h : FrameWireHeader) (rest : Bytes) :
    FrameWireHeader.ofBytes (h.toBytes ++ rest) = h := by
  have hfmt : u32.readAt 0 (h.toBytes ++ rest) = h.format := by
    simp only [FrameWireHeader.toBytes, List.append_assoc]
    exact @Codec.readAt_append _ u32 0 [] rfl _ _
  have hver : u16.readAt 4 (h.toBytes ++ rest) = h.version := by
    simp only [FrameWireHeader.toBytes, List.append_assoc]
    exact u16.readAt_append (by simp) _ _
  have hflags : u16.readAt 6 (h.toBytes ++ rest) = h.flags := by
    simp only [FrameWireHeader.toBytes, List.append_assoc]
    rw [← List.append_assoc]
    exact u16.readAt_append (by simp) _ _
  have hid : u32.readAt 8 (h.toBytes ++ rest) = h.cameraId := by
    simp only [FrameWireHeader.toBytes, List.append_assoc]
    rw [← List.append_assoc, ← List.append_assoc]
    exact u32.readAt_append (by simp) _ _
  have hcount : u32.readAt 12 (h.toBytes ++ rest) = h.count := by
    simp only [FrameWireHeader.toBytes, List.append_assoc]
    rw [← List.append_assoc, ← List.append_assoc, ← List.append_assoc]
    exact u32.readAt_append (by simp) _ _
  have ht : i64.readAt 16 (h.toBytes ++ rest) = h.tNs := by
    simp only [FrameWireHeader.toBytes, List.append_assoc]
    rw [← List.append_assoc, ← List.append_assoc, ← List.append_assoc, ← List.append_assoc]
    exact i64.readAt_append (by simp) _ _
  have hseq : u64.readAt 24 (h.toBytes ++ rest) = h.sequence := by
    simp only [FrameWireHeader.toBytes, List.append_assoc]
    rw [← List.append_assoc, ← List.append_assoc, ← List.append_assoc, ← List.append_assoc,
      ← List.append_assoc]
    exact u64.readAt_append (by simp) _ _
  rw [FrameWireHeader.ofBytes, hfmt, hver, hflags, hid, hcount, ht, hseq]

private theorem take_drop_append (msg : Bytes) (off a b : ℕ) :
    (msg.drop off).take a ++ (msg.drop (off + a)).take b = (msg.drop off).take (a + b) := by
  rw [List.take_add, List.drop_drop]

theorem toBytes_ofBytes {msg : Bytes} (h : 32 ≤ msg.length) :
    (FrameWireHeader.ofBytes msg).toBytes = msg.take 32 := by
  have hfield {α : Type} (c : Codec α) (off : ℕ) (hoff : off + c.width ≤ 32) :
      c.encode (c.readAt off msg) = (msg.drop off).take c.width :=
    c.encode_readAt (hoff.trans h)
  simp only [FrameWireHeader.toBytes, FrameWireHeader.ofBytes]
  rw [hfield u32 0 (by simp), hfield u16 4 (by simp), hfield u16 6 (by simp),
    hfield u32 8 (by simp), hfield u32 12 (by simp), hfield i64 16 (by simp),
    hfield u64 24 (by simp)]
  simp only [width_u16, width_u32, width_u64, width_i64]
  -- the fields are glued together from the last one on
  rw [take_drop_append msg 16 8 8, take_drop_append msg 12 4 16, take_drop_append msg 8 4 20,
    take_drop_append msg 6 2 24, take_drop_append msg 4 2 26, take_drop_append msg 0 4 28,
    List.drop_zero]

/-! ## What the checks establish

The four checks of `frame_wire_peek` follow each other, and a later one may rely on the earlier
ones: the header is there, so its count can be read. -/

/-- The messages `frame_wire_peek` lets through. -/
structure WellFramed (msg : Bytes) : Prop where
  long : 32 ≤ msg.length
  format : (FrameWireHeader.ofBytes msg).format = frameWireFormat
  version : (FrameWireHeader.ofBytes msg).version ≤ frameWireVersion
  length : msg.length = 32 + 8 * (FrameWireHeader.ofBytes msg).count.toNat

/-- The checks in order, with the length check in plain arithmetic. -/
theorem frameWirePeek_eq (msg : Bytes) (hdr : FrameWireHeader) :
    frameWirePeek msg hdr
      = if msg.length < 32 then (.errShort, hdr)
        else if (FrameWireHeader.ofBytes msg).format ≠ frameWireFormat then
          (.errFormat, .ofBytes msg)
        else if frameWireVersion < (FrameWireHeader.ofBytes msg).version then
          (.errVersion, .ofBytes msg)
        else if msg.length ≠ 32 + 8 * (FrameWireHeader.ofBytes msg).count.toNat then
          (.errLength, .ofBytes msg)
        else (.ok, .ofBytes msg) := by
  rw [← toNat_frameWireLength]
  rfl

theorem frameWirePeek_ok_iff (msg : Bytes) (hdr : FrameWireHeader) :
    (frameWirePeek msg hdr).1 = .ok ↔ WellFramed msg := by
  rw [frameWirePeek_eq]
  split_ifs with hshort hfmt hver hlen
  · exact ⟨fun h ↦ absurd h (by simp), fun h ↦ absurd h.long (by omega)⟩
  · exact ⟨fun h ↦ absurd h (by simp), fun h ↦ absurd h.format hfmt⟩
  · exact ⟨fun h ↦ absurd h (by simp), fun h ↦ absurd hver (UInt16.not_lt.mpr h.version)⟩
  · exact ⟨fun h ↦ absurd h (by simp), fun h ↦ absurd h.length hlen⟩
  · exact ⟨fun _ ↦ ⟨not_lt.mp hshort, not_not.mp hfmt, UInt16.not_lt.mp hver, not_not.mp hlen⟩,
      fun _ ↦ rfl⟩

private theorem frameWirePeek_snd {msg : Bytes} {hdr : FrameWireHeader}
    (h : (frameWirePeek msg hdr).1 = .ok) : (frameWirePeek msg hdr).2 = .ofBytes msg := by
  have hlong := ((frameWirePeek_ok_iff msg hdr).mp h).long
  rw [frameWirePeek_eq, if_neg (by omega)]
  split_ifs <;> rfl

instance (msg : Bytes) : Decidable (WellFramed msg) :=
  decidable_of_iff _ (frameWirePeek_ok_iff msg .uninit)

/-- What a message says, whatever buffer it is decoded into. -/
def messageContents (msg : Bytes) : Contents :=
  let hdr := FrameWireHeader.ofBytes msg
  { cameraId := hdr.cameraId
    tNs := hdr.tNs
    sequence := hdr.sequence
    support := u32.decodeAll hdr.count.toNat (msg.drop 32)
    signal := f32.decodeAll hdr.count.toNat (msg.drop (32 + 4 * hdr.count.toNat)) }

/-- The frame a message carries, if it parses. -/
def parse (msg : Bytes) : Option Contents :=
  if WellFramed msg then some (messageContents msg) else none

theorem parse_eq_none {msg : Bytes} : parse msg = none ↔ ¬WellFramed msg := by
  rw [parse]
  split_ifs with h
  · simp [h]
  · simp [h]

/-- The destination after a well-framed message that fits was copied into it. -/
def unpacked (msg : Bytes) (out : Frame) : Frame :=
  { out with
    support := overwrite out.support 0 (messageContents msg).support
    signal := overwrite out.signal 0 (messageContents msg).signal
    cameraId := (messageContents msg).cameraId
    count := (FrameWireHeader.ofBytes msg).count
    tNs := (messageContents msg).tNs
    sequence := (messageContents msg).sequence }

/-! ## The outcomes of an unpack

A message that is not well framed leaves the destination alone. One that does not fit leaves its
count there, and the sink relies on that. -/

section Unpack

variable {msg : Bytes} {out : Frame}

theorem frameWireUnpack_of_not_wellFramed (h : ¬WellFramed msg) :
    frameWireUnpack msg out = ((frameWirePeek msg .uninit).1, out) := by
  have hstatus : (frameWirePeek msg .uninit).1 ≠ .ok :=
    fun hok ↦ h ((frameWirePeek_ok_iff msg .uninit).mp hok)
  rw [frameWireUnpack]
  simp only
  rw [if_pos hstatus]

theorem frameWireUnpack_of_wellFramed (h : WellFramed msg) :
    frameWireUnpack msg out
      = if out.capacity < (FrameWireHeader.ofBytes msg).count then
          (.errCapacity, { out with count := (FrameWireHeader.ofBytes msg).count })
        else (.ok, unpacked msg out) := by
  have hstatus := (frameWirePeek_ok_iff msg .uninit).mpr h
  have hdrop : (msg.drop frameWireHeaderSize).drop ((FrameWireHeader.ofBytes msg).count.toNat * 4)
      = msg.drop (32 + 4 * (FrameWireHeader.ofBytes msg).count.toNat) := by
    rw [List.drop_drop, frameWireHeaderSize, Nat.mul_comm]
  rw [frameWireUnpack]
  simp only
  rw [if_neg (not_not.mpr hstatus), frameWirePeek_snd hstatus, hdrop]
  rfl

theorem frameWireUnpack_ok_iff :
    (frameWireUnpack msg out).1 = .ok
      ↔ WellFramed msg ∧ (FrameWireHeader.ofBytes msg).count ≤ out.capacity := by
  by_cases h : WellFramed msg
  · rw [frameWireUnpack_of_wellFramed h]
    split_ifs with hcap
    · exact ⟨fun hc ↦ absurd hc (by simp), fun hc ↦ absurd hcap (UInt32.not_lt.mpr hc.2)⟩
    · exact ⟨fun _ ↦ ⟨h, UInt32.not_lt.mp hcap⟩, fun _ ↦ rfl⟩
  · rw [frameWireUnpack_of_not_wellFramed h, frameWirePeek_ok_iff]
    exact ⟨fun hc ↦ absurd hc h, fun hc ↦ absurd hc.1 h⟩

theorem length_support_messageContents (msg : Bytes) :
    (messageContents msg).support.length = (FrameWireHeader.ofBytes msg).count.toNat :=
  u32.length_decodeAll _ _

private theorem length_signal_messageContents (msg : Bytes) :
    (messageContents msg).signal.length = (FrameWireHeader.ofBytes msg).count.toNat :=
  f32.length_decodeAll _ _

theorem contents_unpacked : (unpacked msg out).contents = messageContents msg := by
  have hsupport := take_overwrite_zero out.support (messageContents msg).support
  have hsignal := take_overwrite_zero out.signal (messageContents msg).signal
  rw [length_support_messageContents] at hsupport
  rw [length_signal_messageContents] at hsignal
  rw [Frame.contents, unpacked]
  simp only
  rw [hsupport, hsignal]

theorem holds_unpacked {n : ℕ} (h : out.Holds n)
    (hcount : (FrameWireHeader.ofBytes msg).count.toNat ≤ n) : (unpacked msg out).Holds n := by
  have hsupport := length_support_messageContents msg
  have hsignal := length_signal_messageContents msg
  have hfit (k : ℕ) {α : Type} {dst src : List α} (hsrc : src.length = k) (hdst : n ≤ dst.length)
      (hk : k ≤ n) : n ≤ (overwrite dst 0 src).length := by
    rw [length_overwrite (by omega)]
    exact hdst
  exact ⟨hfit _ hsupport h.support hcount, hfit _ hsignal h.signal hcount⟩

end Unpack

end SparseCamera
