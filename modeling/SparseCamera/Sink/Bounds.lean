import SparseCamera.Sink.Expect
import SparseCamera.Wire.RoundTrip

/-!
# Messages that keep to their camera's spec

A sink that was told its cameras before the first message came in checks each of them against its
spec, for as long as it runs. A message with no more sites than its spec allows fits the buffer from
the start, and if they are where the spec allows them nothing is counted.
-/

namespace SparseCamera

open KeyedHistory KeyedTable

/-- Every record has the bounds in force. -/
def Ledger.Bounded (sink : Ledger) : Prop :=
  ∀ id cam, sink.table.held id = some cam → cam.BoundedBy sink.check sink.specs id

section Bounded

variable {sink : Ledger} {id : UInt32} {cam : CamState}

theorem Ledger.Bounded.slot (h : sink.Bounded)
    (hslot : sink.policy.slot sink.table id = some cam) :
    cam.BoundedBy sink.check sink.specs id := by
  by_cases hmem : id ∈ sink.table.keys
  · apply h id cam
    rw [Policy.slot_of_mem hmem] at hslot
    rw [Table.held, if_pos hmem, hslot]
  · by_cases hroom : sink.table.keys.card < sink.policy.room
    · rw [Policy.slot_of_room hmem hroom] at hslot
      rw [← Option.some.inj hslot]
      exact openCam_boundedBy sink.check sink.specs id
    · rw [Policy.slot_of_full hmem hroom] at hslot
      cases hslot

private theorem bounded_observe (htabled : sink.Tabled) (h : sink.Bounded)
    (outcome : Option Contents) :
    (observe sink outcome).Bounded := by
  obtain ⟨-, hcheck, hspecs, htable⟩ := observe_tabled htabled outcome
  rw [Ledger.Bounded, hcheck, hspecs, htable]
  cases outcome with
  | none => exact h
  | some f =>
    intro id cam hheld
    rw [Option.elim_some] at hheld
    by_cases hid : sink.policy.key f = id
    · subst hid
      rw [Policy.held_step_self] at hheld
      obtain ⟨cam', hslot, rfl⟩ := Option.map_eq_some_iff.mp hheld
      exact (boundedBy_advance _ _ _ _ _).mpr (h.slot hslot)
    · rw [Policy.held_step_of_ne hid] at hheld
      exact h id cam hheld

private theorem bounded_of_cams (h : sink.cams = List.replicate sinkMaxCameras .blank) :
    sink.Tabled ∧ sink.Bounded := by
  have hby : sink.TabledBy [] fun id ↦ openCam sink.check sink.specs .blank id :=
    ⟨by rw [tableOf_nil, h], openCam_named _ _, List.nodup_nil, Nat.zero_le _⟩
  refine ⟨⟨_, _, hby⟩, fun id cam hheld ↦ ?_⟩
  rw [held_table hby, record_eq hby, if_neg List.not_mem_nil] at hheld
  cases hheld

private theorem observe_within (htabled : sink.Tabled) (h : sink.Bounded) {f : Contents}
    (hgood : IndicesGood sink.check sink.specs f) :
    (observe sink (some f)).stats.badParse = sink.stats.badParse ∧
      (observe sink (some f)).stats.badIndex = sink.stats.badIndex := by
  rw [stats_observe htabled]
  cases hslot : sink.policy.slot sink.table f.cameraId with
  | none => exact ⟨rfl, rfl⟩
  | some cam =>
    have hsites := (h.slot hslot).1
    have hindex : f.support.any (indexBad cam.maxSites) = false := by
      rw [List.any_eq_false]
      intro s hs
      rcases hgood s hs with hzero | hlt
      · simp [indexBad, hsites, hzero]
      · simp [indexBad, hsites, UInt32.not_le.mpr hlt]
    -- taking a slot moves neither counter
    have htake : (takeSlot sink.specs cam (countReceived sink).stats).badParse
        = sink.stats.badParse ∧
        (takeSlot sink.specs cam (countReceived sink).stats).badIndex = sink.stats.badIndex := by
      rw [takeSlot]
      split_ifs
      · exact ⟨rfl, rfl⟩
      · exact ⟨rfl, rfl⟩
    have hjudge (stats : SinkStats) : (judge sink.check cam f stats).badParse = stats.badParse ∧
        (judge sink.check cam f stats).badIndex = stats.badIndex := by
      obtain ⟨jitter, heq⟩ := @judge_eq sink.check cam f stats
      rw [heq, hindex]
      exact ⟨rfl, UInt64.add_zero _⟩
    rw [Option.elim_some, (hjudge _).1, (hjudge _).2]
    split_ifs
    · exact ⟨rfl, rfl⟩
    · exact htake

end Bounded

/-! ## Runs

No message has to be wide to be received, so the decode buffer never grows and the allocator does
not come into it. -/

/-- A sink that serves what comes in without having to look back. -/
structure Sink.Ready (sink : Sink) : Prop where
  tabled : sink.toLedger.Tabled
  bounded : sink.toLedger.Bounded
  sized : sink.decoded.Sized

section Run

variable {sink : Sink}

theorem Sink.Fresh.ready (h : sink.Fresh) : sink.Ready :=
  ⟨(bounded_of_cams h.cams).1, (bounded_of_cams h.cams).2, h.sized⟩

theorem Sink.Ready.message (h : sink.Ready) (granted : Bool) (msg : Bytes) :
    (sinkRecv granted sink (.message msg)).2.Ready ∧
      (sinkRecv granted sink (.message msg)).2.check = sink.check ∧
      (sinkRecv granted sink (.message msg)).2.specs = sink.specs ∧
      sink.decoded.capacity ≤ (sinkRecv granted sink (.message msg)).2.decoded.capacity := by
  obtain ⟨hledger, hsized, hcap⟩ := serve_message h.sized granted msg
  rw [serve] at hledger hsized hcap
  obtain ⟨htabled, hcheck, hspecs, -⟩ :=
    observe_tabled h.tabled (decodeOutcome sink.decoded.capacity granted msg)
  have hbounded :=
    bounded_observe h.tabled h.bounded (decodeOutcome sink.decoded.capacity granted msg)
  rw [← hledger] at htabled hcheck hspecs hbounded
  refine ⟨⟨htabled, hbounded, hsized⟩, hcheck, hspecs, ?_⟩
  rw [hcap, decodeCapacity]
  split_ifs with hgrow
  · exact UInt32.le_of_lt hgrow.2.2
  · exact UInt32.le_refl _

theorem Sink.Ready.receive (h : sink.Ready) (history : List (Bytes × Bool)) :
    (receive sink history).Ready ∧ (receive sink history).check = sink.check ∧
      (receive sink history).specs = sink.specs ∧
      sink.decoded.capacity ≤ (receive sink history).decoded.capacity := by
  induction history generalizing sink with
  | nil => exact ⟨h, rfl, rfl, UInt32.le_refl _⟩
  | cons message history ih =>
    obtain ⟨hready, hcheck, hspecs, hcap⟩ := h.message message.2 message.1
    obtain ⟨hready', hcheck', hspecs', hcap'⟩ := ih hready
    exact ⟨hready', hcheck'.trans hcheck, hspecs'.trans hspecs, UInt32.le_trans hcap hcap'⟩

/-- **A frame that fits the buffer and keeps to its bound** is decoded at the first attempt, into
the buffer as it is, and is counted neither as malformed nor as out of bounds. -/
theorem Sink.Ready.image (h : sink.Ready) (granted : Bool) {g : Frame}
    (hholds : g.Holds g.count.toNat) (hfits : g.count ≤ sink.decoded.capacity)
    (hgood : IndicesGood sink.check sink.specs g.contents) :
    (frameWireUnpack g.image sink.decoded).1 = .ok ∧
      (sinkRecv granted sink (.message g.image)).2.decoded.capacity = sink.decoded.capacity ∧
      (sinkRecv granted sink (.message g.image)).2.stats.badParse = sink.stats.badParse ∧
      (sinkRecv granted sink (.message g.image)).2.stats.badIndex = sink.stats.badIndex := by
  obtain ⟨hledger, -, hcap⟩ := serve_message h.sized granted g.image
  rw [serve] at hledger hcap
  have hcount : (FrameWireHeader.ofBytes g.image).count = g.count := by
    rw [ofBytes_image]
    rfl
  have hroom : ¬sink.decoded.capacity < (FrameWireHeader.ofBytes g.image).count := by
    rw [hcount]
    exact UInt32.not_lt.mpr hfits
  have houtcome : decodeOutcome sink.decoded.capacity granted g.image = some g.contents := by
    rw [decodeOutcome, if_neg fun hbad ↦ hroom hbad.2, parse_image hholds]
  obtain ⟨hparse, hindex⟩ := observe_within h.tabled h.bounded hgood
  rw [houtcome] at hledger
  refine ⟨?_, ?_, ?_, ?_⟩
  · exact frameWireUnpack_ok_iff.mpr ⟨wellFramed_image hholds, UInt32.not_lt.mp hroom⟩
  · rw [hcap, decodeCapacity, if_neg fun hbad ↦ hroom hbad.2.2]
  · rw [hledger]
    exact hparse
  · rw [hledger]
    exact hindex

end Run

end SparseCamera
