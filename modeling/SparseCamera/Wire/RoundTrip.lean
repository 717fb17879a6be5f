import SparseCamera.Wire.Format

/-!
# Packing and unpacking are inverse

`frameWirePack` and `frameWireUnpack` are written independently of each other. What makes them
meet is one byte string, `Frame.image`: packing copies it to the front of the output, and it is
well framed with the frame's own contents. In the other direction a well-framed message is the
image of whatever it decodes to, up to the four bytes a reader ignores: any accepted version
becomes the current one, and the reserved flags become zero.

## The construction

The image of a frame is written down once, as a header and two arrays. One half of the proof is
about packing: the three copies of `frame_wire_pack` lie side by side, so together they are one copy
of the image (`overwrite_overwrite`). The other half is about well-framed messages, without a frame
in sight: cutting such a message into header, indices and values and putting the parts together
again gives it back, up to the bytes that are ignored.
-/

namespace SparseCamera

open LittleEndian Memory

/-! ## The image of a frame -/

/-- The header `frame_wire_pack` writes. -/
def Frame.header (f : Frame) : FrameWireHeader where
  format := frameWireFormat
  version := frameWireVersion
  flags := 0
  cameraId := f.cameraId
  count := f.count
  tNs := f.tNs
  sequence := f.sequence

/-- The bytes `frame_wire_pack` writes. -/
def Frame.image (f : Frame) : Bytes :=
  f.header.toBytes ++ (u32.encodeAll f.contents.support ++ f32.encodeAll f.contents.signal)

section Image

variable {f : Frame}

theorem length_support_contents (hf : f.Holds f.count.toNat) :
    f.contents.support.length = f.count.toNat := by
  rw [Frame.contents, List.length_take, min_eq_left hf.support]

private theorem length_signal_contents (hf : f.Holds f.count.toNat) :
    f.contents.signal.length = f.count.toNat := by
  rw [Frame.contents, List.length_take, min_eq_left hf.signal]

theorem length_image (hf : f.Holds f.count.toNat) : f.image.length = 32 + 8 * f.count.toNat := by
  rw [Frame.image, List.length_append, List.length_append, length_toBytes,
    Codec.length_encodeAll, Codec.length_encodeAll, length_support_contents hf,
    length_signal_contents hf, width_u32, width_f32]
  omega

theorem ofBytes_image : FrameWireHeader.ofBytes f.image = f.header := ofBytes_toBytes _ _

theorem wellFramed_image (hf : f.Holds f.count.toNat) : WellFramed f.image where
  long := by rw [length_image hf]; omega
  format := by rw [ofBytes_image]; rfl
  version := by rw [ofBytes_image]; exact UInt16.le_refl _
  length := by rw [length_image hf, ofBytes_image]; rfl

private theorem messageContents_image (hf : f.Holds f.count.toNat) :
    messageContents f.image = f.contents := by
  have hhdr : f.header.toBytes.length = 32 := length_toBytes _
  have hsup : (u32.encodeAll f.contents.support).length = 4 * f.count.toNat := by
    rw [Codec.length_encodeAll, length_support_contents hf, width_u32]
  have hdrop : f.image.drop 32
      = u32.encodeAll f.contents.support ++ f32.encodeAll f.contents.signal := by
    rw [Frame.image, List.drop_left' hhdr]
  -- the signal lies behind the support
  have hdrop' : f.image.drop (32 + 4 * f.count.toNat) = f32.encodeAll f.contents.signal ++ [] := by
    rw [← List.drop_drop, hdrop, List.drop_left' hsup, List.append_nil]
  have hsupport := u32.decodeAll_encodeAll_append f.contents.support
    (f32.encodeAll f.contents.signal)
  have hsignal := f32.decodeAll_encodeAll_append f.contents.signal []
  rw [length_support_contents hf] at hsupport
  rw [length_signal_contents hf] at hsignal
  rw [messageContents, ofBytes_image]
  simp only [Frame.header]
  rw [hdrop, hdrop', hsupport, hsignal]
  rfl

theorem parse_image (hf : f.Holds f.count.toNat) : parse f.image = some f.contents := by
  rw [parse, if_pos (wellFramed_image hf), messageContents_image hf]

end Image

/-! ## Packing copies the image -/

section Pack

variable {f : Frame} {out : Bytes} {cap : UInt64}

theorem frameWirePack_of_lt (h : cap.toNat < 32 + 8 * f.count.toNat) :
    frameWirePack f out cap = (0, out) := by
  rw [frameWirePack]
  exact if_pos (UInt64.lt_iff_toNat_lt.mpr (by rwa [frameWireSize, toNat_frameWireLength]))

theorem frameWirePack_of_le (hf : f.Holds f.count.toNat) (hout : cap.toNat ≤ out.length)
    (h : 32 + 8 * f.count.toNat ≤ cap.toNat) :
    frameWirePack f out cap = (frameWireSize f, overwrite out 0 f.image) := by
  have hlt : ¬cap < frameWireSize f := by
    rw [UInt64.lt_iff_toNat_lt, frameWireSize, toNat_frameWireLength]
    omega
  have hsup := length_support_contents hf
  have hhdr : f.header.toBytes.length = 32 := length_toBytes _
  have hpre : (f.header.toBytes ++ u32.encodeAll f.contents.support).length
      = 32 + f.count.toNat * 4 := by
    rw [List.length_append, hhdr, Codec.length_encodeAll, hsup, width_u32, Nat.mul_comm]
  have hfirst : overwrite (overwrite out 0 f.header.toBytes) (0 + 32)
        (u32.encodeAll f.contents.support)
      = overwrite out 0 (f.header.toBytes ++ u32.encodeAll f.contents.support) := by
    rw [← hhdr]
    exact overwrite_overwrite (by omega)
  have hboth : overwrite (overwrite out 0 (f.header.toBytes ++ u32.encodeAll f.contents.support))
        (0 + 32 + f.count.toNat * 4) (f32.encodeAll f.contents.signal)
      = overwrite out 0 f.image := by
    rw [Nat.zero_add, ← hpre, ← Nat.zero_add (List.length _), overwrite_overwrite (by omega),
      List.append_assoc, Frame.image]
  rw [← hboth, ← hfirst, frameWirePack]
  exact if_neg hlt

end Pack

/-- **Decode undoes encode**, for every frame, every output capacity and every destination that is
large enough. -/
theorem frameWireUnpack_frameWirePack (f : Frame) (hf : f.Holds f.count.toNat) (out : Bytes)
    (cap : UInt64) (hout : cap.toNat ≤ out.length) :
    (cap.toNat < 32 + 8 * f.count.toNat → frameWirePack f out cap = (0, out)) ∧
    (32 + 8 * f.count.toNat ≤ cap.toNat →
      (frameWirePack f out cap).1.toNat = 32 + 8 * f.count.toNat ∧
      (frameWirePack f out cap).2.length = out.length ∧
      (frameWirePack f out cap).2.drop (32 + 8 * f.count.toNat)
        = out.drop (32 + 8 * f.count.toNat) ∧
      ∀ dst : Frame, dst.Sized → f.count ≤ dst.capacity →
        ∃ g, frameWireUnpack ((frameWirePack f out cap).2.take (32 + 8 * f.count.toNat)) dst
            = (.ok, g) ∧
          g.cameraId = f.cameraId ∧ g.count = f.count ∧ g.tNs = f.tNs ∧
          g.sequence = f.sequence ∧
          g.support.take f.count.toNat = f.support.take f.count.toNat ∧
          g.signal.take f.count.toNat = f.signal.take f.count.toNat ∧
          g.capacity = dst.capacity ∧
          g.support.drop f.count.toNat = dst.support.drop f.count.toNat ∧
          g.signal.drop f.count.toNat = dst.signal.drop f.count.toNat) := by
  refine ⟨frameWirePack_of_lt, fun hcap ↦ ?_⟩
  have hlen := length_image hf
  rw [frameWirePack_of_le hf hout hcap]
  have htake : (overwrite out 0 f.image).take (32 + 8 * f.count.toNat) = f.image := by
    rw [← hlen, take_overwrite_zero]
  refine ⟨by rw [frameWireSize, toNat_frameWireLength], length_overwrite (by omega), ?_, ?_⟩
  · rw [← hlen, drop_overwrite_zero]
  · intro dst hdst hfit
    have hcount : (FrameWireHeader.ofBytes f.image).count = f.count := by rw [ofBytes_image]; rfl
    have hcontents : (unpacked f.image dst).contents = f.contents := by
      rw [contents_unpacked, messageContents_image hf]
    have hunpacked : (unpacked f.image dst).count = f.count := hcount
    have hlsup : (messageContents f.image).support.length = f.count.toNat := by
      rw [messageContents_image hf, length_support_contents hf]
    have hlsig : (messageContents f.image).signal.length = f.count.toNat := by
      rw [messageContents_image hf, length_signal_contents hf]
    refine ⟨unpacked f.image dst, ?_, congrArg Contents.cameraId hcontents, hunpacked,
      congrArg Contents.tNs hcontents, congrArg Contents.sequence hcontents, ?_, ?_, rfl, ?_, ?_⟩
    · rw [htake, frameWireUnpack_of_wellFramed (wellFramed_image hf), hcount,
        if_neg (UInt32.not_lt.mpr hfit)]
    · have h := congrArg Contents.support hcontents
      rwa [Frame.contents, hunpacked] at h
    · have h := congrArg Contents.signal hcontents
      rwa [Frame.contents, hunpacked] at h
    · rw [← hlsup]
      exact drop_overwrite_zero dst.support _
    · rw [← hlsig]
      exact drop_overwrite_zero dst.signal _

/-- One site, packed into a buffer with room to spare. -/
theorem frameWireUnpack_frameWirePack_one :
    let f : Frame := ⟨[7], [⟨0x7fc00001⟩], -3, 5, 2, 1, 1⟩
    (frameWirePack f (List.replicate 48 0) 48).1.toNat = 40 ∧
      ∃ g, frameWireUnpack ((frameWirePack f (List.replicate 48 0) 48).2.take 40) f = (.ok, g) ∧
        g.cameraId = 2 ∧ g.signal.take 1 = [⟨0x7fc00001⟩] := by
  intro f
  have hf : f.Holds f.count.toNat := ⟨by decide, by decide⟩
  obtain ⟨hlen, -, -, hdst⟩ :=
    (frameWireUnpack_frameWirePack f hf (List.replicate 48 0) 48 (by decide)).2 (by decide)
  obtain ⟨g, hg, hid, -, -, -, -, hsig, -⟩ := hdst f ⟨by decide, by decide⟩ (by decide)
  exact ⟨hlen, g, hg, hid, hsig⟩

/-! ## The bytes a reader ignores

A reader looks at the version to reject newer ones and does not look at the flags. Two messages with
the same contents can differ in nothing else. -/

/-- The message with the version set to the current one and the flags cleared. -/
def normalized (msg : Bytes) : Bytes := msg.take 4 ++ [1, 0, 0, 0] ++ msg.drop 8

private theorem length_normalized {msg : Bytes} (h : 32 ≤ msg.length) :
    (normalized msg).length = msg.length := by
  rw [normalized, List.length_append, List.length_append, List.length_take, List.length_drop]
  simp only [List.length_cons, List.length_nil]
  omega

private theorem normalized_inj {a b : Bytes} (ha : 32 ≤ a.length) (hb : 32 ≤ b.length)
    (h : normalized a = normalized b) : a.take 4 = b.take 4 ∧ a.drop 8 = b.drop 8 := by
  have hlen : (a.take 4).length = (b.take 4).length := by
    rw [List.length_take, List.length_take]
    omega
  rw [normalized, normalized, List.append_assoc, List.append_assoc] at h
  obtain ⟨htake, hrest⟩ := List.append_inj h hlen
  exact ⟨htake, List.append_cancel_left hrest⟩

section Decoded

variable {msg : Bytes} {f : Frame}

private theorem toBytes_header (h : WellFramed msg) (hf : f.contents = messageContents msg)
    (hcount : f.count = (FrameWireHeader.ofBytes msg).count) :
    f.header.toBytes = msg.take 4 ++ [1, 0, 0, 0] ++ (msg.drop 8).take 24 := by
  have hbytes := toBytes_ofBytes h.long
  have hfields : f.header
      = { FrameWireHeader.ofBytes msg with version := frameWireVersion, flags := 0 } := by
    have hid : f.cameraId = (FrameWireHeader.ofBytes msg).cameraId := congrArg Contents.cameraId hf
    have ht : f.tNs = (FrameWireHeader.ofBytes msg).tNs := congrArg Contents.tNs hf
    have hseq : f.sequence = (FrameWireHeader.ofBytes msg).sequence := congrArg Contents.sequence hf
    rw [Frame.header, hid, ht, hseq, hcount, ← h.format]
  rw [FrameWireHeader.toBytes] at hbytes
  have hfmt : u32.encode (FrameWireHeader.ofBytes msg).format = msg.take 4 := by
    have h4 := congrArg (List.take 4) hbytes
    have hwidth : (u32.encode (FrameWireHeader.ofBytes msg).format).length = 4 :=
      u32.length_encode _
    rwa [List.take_left' hwidth, List.take_take] at h4
  -- behind the flags the header is the one in the message
  have htail := congrArg (List.drop 8) hbytes
  rw [← List.append_assoc, ← List.append_assoc, List.drop_left' (by simp), List.drop_take] at htail
  rw [hfields, FrameWireHeader.toBytes, hfmt]
  simp only
  rw [htail, List.append_assoc, List.append_right_inj]
  rfl

/-- **Encode undoes decode**: a well-framed message is the image of what it decodes to. -/
theorem image_eq_normalized (h : WellFramed msg) (hf : f.contents = messageContents msg)
    (hcount : f.count = (FrameWireHeader.ofBytes msg).count) : f.image = normalized msg := by
  have hlen := h.length
  rw [← hcount] at hlen
  have hsupport : u32.encodeAll f.contents.support
      = (msg.drop 32).take (4 * f.count.toNat) := by
    rw [hf, messageContents, ← u32.decodeAll_take, width_u32, ← hcount]
    apply u32.encodeAll_decodeAll
    rw [List.length_take, List.length_drop, width_u32]
    omega
  have hsignal : f32.encodeAll f.contents.signal = msg.drop (32 + 4 * f.count.toNat) := by
    rw [hf, messageContents, ← hcount]
    apply f32.encodeAll_decodeAll
    rw [List.length_drop, width_f32]
    omega
  rw [Frame.image, toBytes_header h hf hcount, hsupport, hsignal, ← List.drop_drop,
    List.take_append_drop, normalized, List.append_assoc (msg.take 4 ++ [1, 0, 0, 0]),
    show (32 : ℕ) = 8 + 24 from rfl, ← List.drop_drop, List.take_append_drop]

variable {out : Frame}

private theorem wellFramed_iff : WellFramed msg ↔
    32 ≤ msg.length ∧ (FrameWireHeader.ofBytes msg).format = 0x314d5246 ∧
      (FrameWireHeader.ofBytes msg).version ≤ 1 ∧
      msg.length = 32 + 8 * (FrameWireHeader.ofBytes msg).count.toNat :=
  ⟨fun h ↦ ⟨h.long, h.format, h.version, h.length⟩, fun ⟨h1, h2, h3, h4⟩ ↦ ⟨h1, h2, h3, h4⟩⟩

private theorem frameWireUnpack_status (msg : Bytes) (out : Frame) : (frameWireUnpack msg out).1
    = if msg.length < 32 then .errShort
      else if (FrameWireHeader.ofBytes msg).format ≠ 0x314d5246 then .errFormat
      else if 1 < (FrameWireHeader.ofBytes msg).version then .errVersion
      else if msg.length ≠ 32 + 8 * (FrameWireHeader.ofBytes msg).count.toNat then .errLength
      else if out.capacity < (FrameWireHeader.ofBytes msg).count then .errCapacity
      else .ok := by
  by_cases h : WellFramed msg
  · obtain ⟨h1, h2, h3, h4⟩ := wellFramed_iff.mp h
    rw [frameWireUnpack_of_wellFramed h, if_neg (not_lt.mpr h1), if_neg (not_not.mpr h2),
      if_neg (UInt16.not_lt.mpr h3), if_neg (not_not.mpr h4)]
    split_ifs <;> rfl
  · rw [frameWireUnpack_of_not_wellFramed h, frameWirePeek_eq, frameWireFormat, frameWireVersion]
    split_ifs with h1 h2 h3 h4
    all_goals first
      | rfl
      | exact absurd (wellFramed_iff.mpr ⟨not_lt.mp h1, not_not.mp h2, UInt16.not_lt.mp h3,
          not_not.mp h4⟩) h

private theorem frameWireUnpack_snd_of_malformed
    (h : (frameWireUnpack msg out).1 ∈ [.errShort, .errFormat, .errVersion, .errLength]) :
    (frameWireUnpack msg out).2 = out := by
  by_cases hframed : WellFramed msg
  · rw [frameWireUnpack_of_wellFramed hframed] at h
    split_ifs at h <;> simp at h
  · rw [frameWireUnpack_of_not_wellFramed hframed]

private theorem frameWireUnpack_snd_of_large (h : (frameWireUnpack msg out).1 = .errCapacity) :
    (frameWireUnpack msg out).2 = { out with count := (FrameWireHeader.ofBytes msg).count } := by
  by_cases hframed : WellFramed msg
  · rw [frameWireUnpack_of_wellFramed hframed] at h ⊢
    split_ifs at h ⊢
    rfl
  · rw [frameWireUnpack_of_not_wellFramed hframed, frameWirePeek_eq] at h
    split_ifs at h

/-- A decoded frame, wherever it was decoded, has the normalized message as its image. -/
theorem image_frameWireUnpack (h : (frameWireUnpack msg out).1 = .ok) :
    (frameWireUnpack msg out).2.image = normalized msg ∧
      (frameWireUnpack msg out).2.count = (FrameWireHeader.ofBytes msg).count := by
  obtain ⟨hframed, hcap⟩ := frameWireUnpack_ok_iff.mp h
  rw [frameWireUnpack_of_wellFramed hframed, if_neg (UInt32.not_lt.mpr hcap)]
  exact ⟨image_eq_normalized hframed contents_unpacked rfl, rfl⟩

private theorem frameWirePack_unpacked (hout : out.Sized) (h : (frameWireUnpack msg out).1 = .ok)
    {buf : Bytes} {cap : UInt64} (hcap : msg.length ≤ cap.toNat) (hbuf : cap.toNat ≤ buf.length) :
    (frameWirePack (frameWireUnpack msg out).2 buf cap).1.toNat = msg.length ∧
      (frameWirePack (frameWireUnpack msg out).2 buf cap).2
        = normalized msg ++ buf.drop msg.length := by
  obtain ⟨himg, hcount⟩ := image_frameWireUnpack h
  obtain ⟨hframed, hfits⟩ := frameWireUnpack_ok_iff.mp h
  have hsize : msg.length = 32 + 8 * (frameWireUnpack msg out).2.count.toNat := by
    rw [hcount]
    exact hframed.length
  have hholds : (frameWireUnpack msg out).2.Holds (frameWireUnpack msg out).2.count.toNat := by
    rw [hcount, frameWireUnpack_of_wellFramed hframed, if_neg (UInt32.not_lt.mpr hfits)]
    exact (holds_unpacked hout (UInt32.le_iff_toNat_le.mp hfits)).mono
      (UInt32.le_iff_toNat_le.mp hfits)
  rw [frameWirePack_of_le hholds hbuf (by omega)]
  refine ⟨by rw [frameWireSize, toNat_frameWireLength, ← hsize], ?_⟩
  rw [himg, overwrite_zero, length_normalized hframed.long]

/-- Messages that decode to the same frame differ in the bytes a reader ignores only. -/
theorem unpacked_inj {msg' : Bytes} {out' : Frame} (h : (frameWireUnpack msg out).1 = .ok)
    (h' : (frameWireUnpack msg' out').1 = .ok)
    (hcontents : (frameWireUnpack msg' out').2.contents = (frameWireUnpack msg out).2.contents)
    (hcount : (frameWireUnpack msg' out').2.count = (frameWireUnpack msg out).2.count) :
    msg'.take 4 = msg.take 4 ∧ msg'.drop 8 = msg.drop 8 := by
  obtain ⟨hframed, -⟩ := frameWireUnpack_ok_iff.mp h
  obtain ⟨hframed', -⟩ := frameWireUnpack_ok_iff.mp h'
  have hid := congrArg Contents.cameraId hcontents
  have ht := congrArg Contents.tNs hcontents
  have hseq := congrArg Contents.sequence hcontents
  simp only [Frame.contents] at hid ht hseq
  -- equal frames have equal images
  apply normalized_inj hframed'.long hframed.long
  rw [← (image_frameWireUnpack h').1, ← (image_frameWireUnpack h).1, Frame.image, Frame.image,
    hcontents, Frame.header, Frame.header, hid, ht, hseq, hcount]

end Decoded

/-- **The decoder accepts exactly the frame format**, tells the five failures apart in order, and
encoding undoes it on what it accepts. -/
theorem frameWireUnpack_format (m : Bytes) (out : Frame) (hout : out.Sized) :
    (frameWireUnpack m out).1
        = (if m.length < 32 then .errShort
          else if (FrameWireHeader.ofBytes m).format ≠ 0x314d5246 then .errFormat
          else if 1 < (FrameWireHeader.ofBytes m).version then .errVersion
          else if m.length ≠ 32 + 8 * (FrameWireHeader.ofBytes m).count.toNat then .errLength
          else if out.capacity < (FrameWireHeader.ofBytes m).count then .errCapacity
          else .ok) ∧
    ((frameWireUnpack m out).1 = .ok ↔
      32 ≤ m.length ∧ (FrameWireHeader.ofBytes m).format = 0x314d5246 ∧
      (FrameWireHeader.ofBytes m).version ≤ 1 ∧
      m.length = 32 + 8 * (FrameWireHeader.ofBytes m).count.toNat ∧
      (FrameWireHeader.ofBytes m).count ≤ out.capacity) ∧
    ((frameWireUnpack m out).1 ∈ [.errShort, .errFormat, .errVersion, .errLength] →
      (frameWireUnpack m out).2 = out) ∧
    ((frameWireUnpack m out).1 = .errCapacity →
      (frameWireUnpack m out).2 = { out with count := (FrameWireHeader.ofBytes m).count }) ∧
    ((frameWireUnpack m out).1 = .ok →
      (∀ (buf : Bytes) (cap : UInt64), m.length ≤ cap.toNat → cap.toNat ≤ buf.length →
        (frameWirePack (frameWireUnpack m out).2 buf cap).1.toNat = m.length ∧
        (frameWirePack (frameWireUnpack m out).2 buf cap).2
          = m.take 4 ++ [1, 0, 0, 0] ++ m.drop 8 ++ buf.drop m.length) ∧
      ∀ (m' : Bytes) (out' : Frame), (frameWireUnpack m' out').1 = .ok →
        (frameWireUnpack m' out').2.contents = (frameWireUnpack m out).2.contents →
        (frameWireUnpack m' out').2.count = (frameWireUnpack m out).2.count →
        m'.take 4 = m.take 4 ∧ m'.drop 8 = m.drop 8) := by
  refine ⟨frameWireUnpack_status m out, ?_, frameWireUnpack_snd_of_malformed,
    frameWireUnpack_snd_of_large, fun hok ↦ ⟨?_, ?_⟩⟩
  · rw [frameWireUnpack_ok_iff, wellFramed_iff, and_assoc, and_assoc, and_assoc]
  · intro buf cap hcap hbuf
    exact frameWirePack_unpacked hout hok hcap hbuf
  · intro m' out' hok' hcontents hcount
    exact unpacked_inj hok hok' hcontents hcount

/-- A version-0 message of one site, decoded into a one-entry frame. -/
theorem frameWireUnpack_format_one :
    let m : Bytes := [0x46, 0x52, 0x4d, 0x31, 0, 0, 9, 9, 2, 0, 0, 0, 1, 0, 0, 0] ++
      List.replicate 16 0 ++ [7, 0, 0, 0, 0, 0, 0, 0]
    let out : Frame := ⟨[0], [⟨0⟩], 0, 0, 0, 0, 1⟩
    (frameWirePack (frameWireUnpack m out).2 (List.replicate 40 0) 40).2
      = m.take 4 ++ [1, 0, 0, 0] ++ m.drop 8 ++ [] := by
  intro m out
  have hok : (frameWireUnpack m out).1 = .ok := by decide +kernel
  exact (((frameWireUnpack_format m out ⟨by decide, by decide⟩).2.2.2.2 hok).1
    (List.replicate 40 0) 40 (by decide) (by decide)).2

end SparseCamera
