import SparseCamera.Lib.KeyedTable
import SparseCamera.Sink.DecodeBuffer
import SparseCamera.Sink.Reference

/-!
# Looking up a camera

However a sink has come about, its slots hold one record for each camera that got one. It is a table
with room for sixteen keys, and a frame finds the record of its camera, takes a fresh one, or finds
none and is not checked. A check compares the frame with the record and adds to the counters, and
what it adds does not depend on what they say.

## The construction

`Ledger.table` reads the slots as a table in the sense of `KeyedTable`, and `sinkPolicy` says how
the sink keeps it. That a frame acts on the slots as the policy acts on the table holds for every
sink whose slots were taken in order (`Ledger.Tabled`), however it has come about. So this is not
limited to runs from an empty table, as `Accounts` is, and tables registered in between do no harm.
-/

namespace SparseCamera

open KeyedHistory KeyedTable

/-! ## What a check adds

The counters only ever grow by what a check finds. `Faults` is what one check finds, apart from the
counters it is added to. -/

/-- The counters of what can be wrong with a frame. -/
structure Faults where
  backwards : UInt64
  jitter : UInt64
  seqGaps : UInt64
  seqLost : UInt64
  badIndex : UInt64
  badValue : UInt64
deriving DecidableEq

def Faults.zero : Faults := ⟨0, 0, 0, 0, 0, 0⟩

def Faults.add (a b : Faults) : Faults where
  backwards := a.backwards + b.backwards
  jitter := a.jitter + b.jitter
  seqGaps := a.seqGaps + b.seqGaps
  seqLost := a.seqLost + b.seqLost
  badIndex := a.badIndex + b.badIndex
  badValue := a.badValue + b.badValue

def SinkStats.since (after before : SinkStats) : Faults where
  backwards := after.backwards - before.backwards
  jitter := after.jitter - before.jitter
  seqGaps := after.seqGaps - before.seqGaps
  seqLost := after.seqLost - before.seqLost
  badIndex := after.badIndex - before.badIndex
  badValue := after.badValue - before.badValue

def SinkStats.add (stats : SinkStats) (faults : Faults) : SinkStats :=
  { stats with
    backwards := stats.backwards + faults.backwards
    jitter := stats.jitter + faults.jitter
    seqGaps := stats.seqGaps + faults.seqGaps
    seqLost := stats.seqLost + faults.seqLost
    badIndex := stats.badIndex + faults.badIndex
    badValue := stats.badValue + faults.badValue }

/-- What judging a frame against a record adds. -/
def faultsOf (check : SinkCheck) (cam : CamState) (f : Contents) : Faults :=
  (judge check cam f .zero).since .zero

section Judge

variable (check : SinkCheck) (cam : CamState) (f : Contents)

theorem SinkStats.since_add (stats : SinkStats) (faults : Faults) :
    (stats.add faults).since stats = faults := by
  have hcancel (a b : UInt64) : a + b - a = b := by rw [UInt64.add_comm, UInt64.add_sub_cancel]
  simp only [SinkStats.since, SinkStats.add, hcancel]

theorem SinkStats.add_zero (stats : SinkStats) : stats.add .zero = stats := by
  simp only [SinkStats.add, Faults.zero, UInt64.add_zero]

theorem SinkStats.add_add (stats : SinkStats) (a b : Faults) :
    (stats.add a).add b = stats.add (a.add b) := by
  simp only [SinkStats.add, Faults.add, UInt64.add_assoc]

private theorem checkStamp_add :
    ∃ faults, ∀ stats, checkStamp check cam f stats = stats.add faults := by
  simp only [checkStamp]
  split_ifs
  · exact ⟨{ Faults.zero with backwards := 1 }, fun stats ↦ by
      simp only [SinkStats.add, Faults.zero, UInt64.add_zero]⟩
  · exact ⟨{ Faults.zero with jitter := 1 }, fun stats ↦ by
      simp only [SinkStats.add, Faults.zero, UInt64.add_zero]⟩
  · exact ⟨.zero, fun stats ↦ stats.add_zero.symm⟩
  · exact ⟨.zero, fun stats ↦ stats.add_zero.symm⟩

private theorem checkSequence_add :
    ∃ faults, ∀ stats, checkSequence cam f stats = stats.add faults :=
  ⟨{ Faults.zero with
      seqGaps := if f.sequence ≠ cam.lastSeq + 1 then 1 else 0
      seqLost := if f.sequence ≠ cam.lastSeq + 1 ∧ cam.lastSeq < f.sequence then
          f.sequence - cam.lastSeq - 1
        else 0 }, fun stats ↦ by
    simp only [checkSequence_eq, SinkStats.add, Faults.zero, UInt64.add_zero]⟩

private theorem checkEntries_add : ∃ faults, ∀ stats, checkEntries cam f stats = stats.add faults :=
  ⟨{ Faults.zero with
      badIndex := if f.support.any (indexBad cam.maxSites) then 1 else 0
      badValue := if f.signal.any valueBad then 1 else 0 }, fun stats ↦ by
    simp only [checkEntries_eq, SinkStats.add, Faults.zero, UInt64.add_zero]⟩

/-- **What a check adds** does not depend on the counters. -/
theorem judge_eq_add (stats : SinkStats) :
    judge check cam f stats = stats.add (faultsOf check cam f) := by
  obtain ⟨stamp, hstamp⟩ := checkStamp_add check cam f
  obtain ⟨sequence, hsequence⟩ := checkSequence_add cam f
  obtain ⟨entries, hentries⟩ := checkEntries_add cam f
  obtain ⟨faults, hfaults⟩ : ∃ faults, ∀ stats, judge check cam f stats = stats.add faults := by
    by_cases hframes : 0 < cam.frames
    · refine ⟨stamp.add (sequence.add entries), fun stats ↦ ?_⟩
      rw [judge, if_pos hframes, hstamp, hsequence, hentries, SinkStats.add_add, SinkStats.add_add]
    · refine ⟨entries, fun stats ↦ ?_⟩
      rw [judge, if_neg hframes, hentries]
  rw [faultsOf, hfaults, hfaults, SinkStats.since_add]

end Judge

/-! ## The table

A slot is found by a search from the front. As no camera has two of them, the search finds the one
there is. -/

/-- How the sink keeps its table. -/
def sinkPolicy (check : SinkCheck) (specs : List SinkCamSpec) :
    Policy Contents UInt32 CamState where
  key := Contents.cameraId
  room := sinkMaxCameras
  fresh := fun id ↦ openCam check specs .blank id
  advance := advance

def Ledger.record (sink : Ledger) (id : UInt32) : Option CamState :=
  sink.cams.find? fun cam ↦ cam.seen && cam.cameraId == id

/-- The record a frame of a camera is checked against. -/
def Ledger.against (sink : Ledger) (id : UInt32) : Option CamState :=
  (camFind sink id).map fun slot ↦ slot.2.cams.getD slot.1 .blank

/-- The slots read as a table. -/
def Ledger.table (sink : Ledger) : Table UInt32 CamState where
  keys := (sink.records.map CamState.cameraId).toFinset
  record := fun id ↦ (sink.record id).getD .blank

def Ledger.policy (sink : Ledger) : Policy Contents UInt32 CamState :=
  sinkPolicy sink.check sink.specs

/-- The camera has a record, or fewer than sixteen cameras have one or send something before it
does. -/
def Ledger.GetsSlot (sink : Ledger) (frames : List Contents) (id : UInt32) : Prop :=
  sink.policy.HasRoom sink.table frames id

instance (sink : Ledger) (frames : List Contents) (id : UInt32) :
    Decidable (sink.GetsSlot frames id) :=
  inferInstanceAs (Decidable (sink.policy.HasRoom _ _ _))

/-- The slots hold one record for each of these cameras and are blank from there on. -/
structure Ledger.TabledBy (sink : Ledger) (ids : List UInt32) (rec : UInt32 → CamState) :
    Prop where
  cams : sink.cams = tableOf ids rec
  named : ∀ id, (rec id).seen = true ∧ (rec id).cameraId = id
  nodup : ids.Nodup
  length : ids.length ≤ sinkMaxCameras

/-- The slots were taken in order, each by another camera. -/
def Ledger.Tabled (sink : Ledger) : Prop := ∃ ids rec, sink.TabledBy ids rec

section Table

variable {sink : Ledger} {ids : List UInt32} {rec : UInt32 → CamState}

private theorem keys_table (h : sink.TabledBy ids rec) : sink.table.keys = ids.toFinset := by
  have hids : ids.map (CamState.cameraId ∘ rec) = ids :=
    (List.map_congr_left fun id _ ↦ (h.named id).2).trans (List.map_id _)
  rw [Ledger.table, Ledger.records, h.cams, filter_tableOf h.named, List.map_map, hids]

theorem record_eq (h : sink.TabledBy ids rec) (id : UInt32) :
    sink.record id = if id ∈ ids then some (rec id) else none := by
  rw [Ledger.record, h.cams, List.find?_eq_bind_findIdx?_getElem?, findIdx?_tableOf h.named]
  split_ifs with hmem
  · have hlt : ids.idxOf id < (ids.map rec).length := by
      rw [List.length_map]
      exact List.idxOf_lt_length_of_mem hmem
    rw [Option.bind_some, tableOf, List.getElem?_append_left hlt, List.getElem?_map,
      List.getElem?_idxOf hmem]
    rfl
  · rfl

private theorem mem_keys_table (h : sink.TabledBy ids rec) {id : UInt32} :
    id ∈ sink.table.keys ↔ id ∈ ids := by rw [keys_table h, List.mem_toFinset]

private theorem record_table (h : sink.TabledBy ids rec) {id : UInt32} (hmem : id ∈ ids) :
    sink.table.record id = rec id := by
  change (sink.record id).getD .blank = rec id
  rw [record_eq h, if_pos hmem, Option.getD_some]

private theorem card_keys_table (h : sink.TabledBy ids rec) :
    sink.table.keys.card = ids.length := by
  rw [keys_table h, List.toFinset_card_of_nodup h.nodup]

theorem held_table (h : sink.TabledBy ids rec) (id : UInt32) :
    sink.table.held id = sink.record id := by
  by_cases hid : id ∈ ids
  · rw [Table.held, if_pos ((mem_keys_table h).mpr hid), record_table h hid, record_eq h,
      if_pos hid]
  · rw [Table.held, if_neg (mt (mem_keys_table h).mp hid), record_eq h, if_neg hid]

theorem mem_keys_iff_record (h : sink.Tabled) {id : UInt32} :
    id ∈ sink.table.keys ↔ (sink.record id).isSome = true := by
  obtain ⟨ids, rec, h⟩ := h
  rw [mem_keys_table h, record_eq h]
  split_ifs with hmem
  · exact iff_of_true hmem rfl
  · exact iff_of_false hmem Bool.false_ne_true

private theorem named_update (hnamed : ∀ i, (rec i).seen = true ∧ (rec i).cameraId = i)
    {id : UInt32}
    {cam : CamState} (hcam : cam.seen = true ∧ cam.cameraId = id) (i : UInt32) :
    (Function.update rec id cam i).seen = true ∧ (Function.update rec id cam i).cameraId = i := by
  by_cases hi : i = id
  · subst hi
    rw [Function.update_self]
    exact hcam
  · rw [Function.update_of_ne hi]
    exact hnamed i

theorem Ledger.TabledBy.choose (h : sink.TabledBy ids rec) {id : UInt32} (hmem : id ∉ ids)
    {cam : CamState} (hcam : cam.seen = true ∧ cam.cameraId = id) :
    sink.TabledBy ids (Function.update rec id cam) where
  cams := by
    rw [h.cams, tableOf, tableOf]
    congr 1
    refine List.map_congr_left ?_
    intro i hi
    rw [Function.update_of_ne]
    rintro rfl
    exact hmem hi
  named := named_update h.named hcam
  nodup := h.nodup
  length := h.length

theorem Ledger.TabledBy.concat (h : sink.TabledBy ids rec) {id : UInt32} (hmem : id ∉ ids)
    (hroom : ids.length < sinkMaxCameras) {sink' : Ledger} {rec' : UInt32 → CamState}
    (hcams : sink'.cams = tableOf (ids ++ [id]) rec')
    (hnamed : ∀ i, (rec' i).seen = true ∧ (rec' i).cameraId = i) :
    sink'.TabledBy (ids ++ [id]) rec' where
  cams := hcams
  named := hnamed
  nodup := by
    refine List.nodup_append.mpr ⟨h.nodup, List.nodup_singleton _, ?_⟩
    intro i hi j hj
    rintro rfl
    exact hmem (List.mem_singleton.mp hj ▸ hi)
  length := by
    rw [List.length_append, List.length_singleton]
    exact hroom

theorem openCam_named (check : SinkCheck) (specs : List SinkCamSpec) (id : UInt32) :
    (openCam check specs .blank id).seen = true ∧
      (openCam check specs .blank id).cameraId = id := by
  obtain ⟨hseen, hid, -⟩ := openCam_taken check specs id
  exact ⟨hseen, hid⟩

private theorem against_eq (h : sink.TabledBy ids rec) (id : UInt32) :
    sink.against id = sink.policy.slot sink.table id := by
  by_cases hid : id ∈ ids
  · have hfind : camFind sink id = some (ids.idxOf id, sink) := by
      rw [camFind, h.cams, findIdx?_tableOf h.named, if_pos hid]
    rw [Ledger.against, hfind, Option.map_some, h.cams, getD_tableOf hid,
      Policy.slot_of_mem ((mem_keys_table h).mpr hid), record_table h hid]
  · by_cases hroom : ids.length < sinkMaxCameras
    · have hlt : ids.length < sink.cams.length := by
        rw [h.cams, tableOf, List.length_append, List.length_map, List.length_replicate]
        omega
      have hslot : sink.policy.slot sink.table id
          = some (openCam sink.check sink.specs .blank id) :=
        Policy.slot_of_room (mt (mem_keys_table h).mp hid) (by rw [card_keys_table h]; exact hroom)
      rw [hslot, Ledger.against, camFind, h.cams, findIdx?_tableOf h.named, if_neg hid,
        findIdx?_free h.named, if_pos hroom, ← h.cams]
      simp only [Option.map_some]
      rw [List.getD_eq_getElem?_getD, List.getElem?_set_self hlt, h.cams, getD_free hroom]
      rfl
    · have hslot : sink.policy.slot sink.table id = none :=
        Policy.slot_of_full (mt (mem_keys_table h).mp hid) (by rw [card_keys_table h]; exact hroom)
      rw [hslot, Ledger.against, camFind, h.cams, findIdx?_tableOf h.named, if_neg hid,
        findIdx?_free h.named, if_neg hroom]
      rfl

private theorem table_eq (h : sink.TabledBy ids rec) :
    sink.table = ⟨ids.toFinset, fun id ↦ if id ∈ ids then rec id else .blank⟩ := by
  have hrecord : sink.table.record = fun id ↦ if id ∈ ids then rec id else .blank := by
    funext id
    change (sink.record id).getD .blank = _
    rw [record_eq h]
    split_ifs
    · rfl
    · rfl
  exact congr (congrArg Table.mk (keys_table h)) hrecord

private theorem table_update (h : sink.TabledBy ids rec) {sink' : Ledger} {ids' : List UInt32}
    {id : UInt32} {cam : CamState} (h' : sink'.TabledBy ids' (Function.update rec id cam))
    (hids : ∀ i, i ∈ ids' ↔ i = id ∨ i ∈ ids) :
    sink'.table = ⟨insert id sink.table.keys, Function.update sink.table.record id cam⟩ := by
  rw [table_eq h', table_eq h]
  congr 1
  · ext i
    rw [List.mem_toFinset, hids, Finset.mem_insert, List.mem_toFinset]
  · funext i
    by_cases hi : i = id
    · subst hi
      rw [if_pos ((hids i).mpr (Or.inl rfl)), Function.update_self, Function.update_self]
    · simp only [hids, hi, false_or, Function.update_of_ne hi]

/-- **One frame**: the table takes the step of its policy, and the counters grow by what the frame
was found to be. -/
theorem validate_tabled (h : sink.Tabled) (f : Contents) :
    (validate sink f).Tabled ∧ (validate sink f).table = sink.policy.step sink.table f ∧
      (validate sink f).stats = (sink.policy.slot sink.table f.cameraId).elim sink.stats
        fun cam ↦ judge sink.check cam f
          (if f.cameraId ∈ sink.table.keys then sink.stats
            else takeSlot sink.specs cam sink.stats) := by
  obtain ⟨ids, rec, h⟩ := h
  have hadvance (cam : CamState) (hcam : cam.seen = true ∧ cam.cameraId = f.cameraId) :
      (advance cam f).seen = true ∧ (advance cam f).cameraId = f.cameraId := by
    obtain ⟨hseen, -, hid, -⟩ := advance_fixed cam f
    rw [hseen, hid]
    exact hcam
  by_cases hid : f.cameraId ∈ ids
  · -- the camera has a slot
    have hmem : f.cameraId ∈ sink.table.keys := (mem_keys_table h).mpr hid
    have hslot : sink.policy.slot sink.table f.cameraId = some (rec f.cameraId) := by
      rw [← record_table h hid]
      exact Policy.slot_of_mem hmem
    have hvalidate := validate_of_mem h.cams h.named h.nodup hid
    have h' : (validate sink f).TabledBy ids
        (Function.update rec f.cameraId (advance (rec f.cameraId) f)) :=
      ⟨congrArg Ledger.cams hvalidate, named_update h.named (hadvance _ (h.named _)), h.nodup,
        h.length⟩
    refine ⟨⟨_, _, h'⟩, ?_, ?_⟩
    · rw [@Policy.step_of_slot _ _ _ _ sink.policy _ f _ hslot]
      refine table_update h h' fun i ↦ ⟨Or.inr, ?_⟩
      rintro (rfl | hi)
      · exact hid
      · exact hi
    · rw [hslot, Option.elim_some, if_pos hmem]
      exact congrArg Ledger.stats hvalidate
  have hmem : f.cameraId ∉ sink.table.keys := mt (mem_keys_table h).mp hid
  by_cases hroom : ids.length < sinkMaxCameras
  · -- it takes one
    have hfresh := openCam_named sink.check sink.specs f.cameraId
    have h₀ := h.choose hid hfresh
    have hself : Function.update rec f.cameraId (openCam sink.check sink.specs .blank f.cameraId)
        f.cameraId = openCam sink.check sink.specs .blank f.cameraId := Function.update_self _ _ _
    have hslot : sink.policy.slot sink.table f.cameraId
        = some (openCam sink.check sink.specs .blank f.cameraId) :=
      Policy.slot_of_room hmem (by rw [card_keys_table h]; exact hroom)
    have hvalidate := validate_of_not_mem h₀.cams h₀.named h₀.nodup hid hroom hself
    rw [hself, Function.update_idem] at hvalidate
    have hids : ∀ i, i ∈ ids ++ [f.cameraId] ↔ i = f.cameraId ∨ i ∈ ids := by
      intro i
      rw [List.mem_append, List.mem_singleton, or_comm]
    have h' : (validate sink f).TabledBy (ids ++ [f.cameraId]) (Function.update rec f.cameraId
        (advance (openCam sink.check sink.specs .blank f.cameraId) f)) :=
      h.concat hid hroom (congrArg Ledger.cams hvalidate)
        (named_update h.named (hadvance _ hfresh))
    refine ⟨⟨_, _, h'⟩, ?_, ?_⟩
    · rw [@Policy.step_of_slot _ _ _ _ sink.policy _ f _ hslot]
      exact table_update h h' hids
    · rw [hslot, Option.elim_some, if_neg hmem]
      exact congrArg Ledger.stats hvalidate
  · -- there is none left
    have hslot : sink.policy.slot sink.table f.cameraId = none :=
      Policy.slot_of_full hmem (by rw [card_keys_table h]; exact hroom)
    rw [validate_of_full h.cams h.named hid hroom, hslot]
    exact ⟨⟨ids, rec, h⟩, (@Policy.step_of_none _ _ _ _ sink.policy _ f hslot).symm, rfl⟩

/-- A frame changes neither the bounds nor the table of configured cameras. -/
theorem validate_fixed (sink : Ledger) (f : Contents) :
    (validate sink f).check = sink.check ∧ (validate sink f).specs = sink.specs := by
  have hfind (i : ℕ) (sink' : Ledger) (h : camFind sink f.cameraId = some (i, sink')) :
      sink'.check = sink.check ∧ sink'.specs = sink.specs := by
    rw [camFind] at h
    split at h
    · obtain rfl := (Prod.mk.inj (Option.some.inj h)).2
      exact ⟨rfl, rfl⟩
    · split at h
      · obtain rfl := (Prod.mk.inj (Option.some.inj h)).2
        exact ⟨rfl, rfl⟩
      · cases h
  rw [validate]
  split
  · exact ⟨rfl, rfl⟩
  · next i sink' h => exact hfind i sink' h

end Table

/-! ## A history

The checks of one camera, in order, each with the record it found and what it added. This is what
the claims about single cameras are stated with. -/

/-- A frame that came in: the record it was checked against, if any, and what that added to the
counters. -/
structure Check where
  against : Option CamState
  added : Faults
deriving DecidableEq

/-- The checks of one camera's frames while a history of decode outcomes is observed. -/
def checksOf (id : UInt32) : Ledger → List (Option Contents) → List Check
  | _, [] => []
  | sink, none :: outcomes => checksOf id (observe sink none) outcomes
  | sink, some f :: outcomes =>
    (if f.cameraId = id then
        [⟨sink.against id, (observe sink (some f)).stats.since sink.stats⟩]
      else []) ++ checksOf id (observe sink (some f)) outcomes

/-- A check, from the frame and the record it finds. -/
def checkOf (check : SinkCheck) (look : Contents × Option CamState) : Check :=
  ⟨look.2, look.2.elim .zero fun cam ↦ faultsOf check cam look.1⟩

section Run

variable {sink : Ledger}

private theorem countReceived_tabled (h : sink.Tabled) : (countReceived sink).Tabled := by
  obtain ⟨ids, rec, h⟩ := h
  exact ⟨ids, rec, h.cams, h.named, h.nodup, h.length⟩

theorem observe_tabled (h : sink.Tabled) (outcome : Option Contents) :
    (observe sink outcome).Tabled ∧ (observe sink outcome).check = sink.check ∧
      (observe sink outcome).specs = sink.specs ∧
      (observe sink outcome).table = outcome.elim sink.table (sink.policy.step sink.table) := by
  have h' := countReceived_tabled h
  cases outcome with
  | none =>
    obtain ⟨ids, rec, h'⟩ := h'
    exact ⟨⟨ids, rec, h'.cams, h'.named, h'.nodup, h'.length⟩, rfl, rfl, rfl⟩
  | some f =>
    obtain ⟨htabled, htable, -⟩ := validate_tabled h' f
    obtain ⟨hcheck, hspecs⟩ := validate_fixed (countReceived sink) f
    exact ⟨htabled, hcheck, hspecs, htable⟩

theorem stats_observe (h : sink.Tabled) (f : Contents) :
    (observe sink (some f)).stats
      = (sink.policy.slot sink.table f.cameraId).elim (countReceived sink).stats fun cam ↦
        judge sink.check cam f (if f.cameraId ∈ sink.table.keys then (countReceived sink).stats
          else takeSlot sink.specs cam (countReceived sink).stats) :=
  (validate_tabled (countReceived_tabled h) f).2.2

/-- What a frame adds. -/
theorem observe_since (h : sink.Tabled) (f : Contents) :
    (observe sink (some f)).stats.since sink.stats
      = (sink.policy.slot sink.table f.cameraId).elim .zero fun cam ↦
        faultsOf sink.check cam f := by
  have hself (stats : SinkStats) : stats.since stats = .zero := by
    simp only [SinkStats.since, UInt64.sub_self, Faults.zero]
  -- neither the number of messages nor that of cameras is one of these counters
  have hslots (stats : SinkStats) (cam : CamState) : stats.since (countReceived sink).stats
      = stats.since sink.stats ∧ stats.since (takeSlot sink.specs cam (countReceived sink).stats)
      = stats.since sink.stats := by
    rw [takeSlot]
    split_ifs
    · exact ⟨rfl, rfl⟩
    · exact ⟨rfl, rfl⟩
  rw [stats_observe h]
  cases sink.policy.slot sink.table f.cameraId with
  | none =>
    rw [Option.elim_none, Option.elim_none, ← (hslots _ .blank).1, hself]
  | some cam =>
    rw [Option.elim_some, Option.elim_some]
    split_ifs
    · rw [← (hslots _ cam).1, judge_eq_add]
      exact SinkStats.since_add _ _
    · rw [← (hslots _ cam).2, judge_eq_add]
      exact SinkStats.since_add _ _

/-- **A history of messages** runs the table over the frames. -/
theorem foldl_observe_tabled (h : sink.Tabled) (outcomes : List (Option Contents)) :
    (outcomes.foldl observe sink).Tabled ∧ (outcomes.foldl observe sink).check = sink.check ∧
      (outcomes.foldl observe sink).specs = sink.specs ∧
      (outcomes.foldl observe sink).table
        = sink.policy.run sink.table outcomes.reduceOption := by
  induction outcomes generalizing sink with
  | nil => exact ⟨h, rfl, rfl, rfl⟩
  | cons outcome outcomes ih =>
    obtain ⟨htabled, hcheck, hspecs, htable⟩ := observe_tabled h outcome
    obtain ⟨hrun, hrunCheck, hrunSpecs, hrunTable⟩ := ih htabled
    refine ⟨hrun, hrunCheck.trans hcheck, hrunSpecs.trans hspecs, ?_⟩
    rw [List.foldl_cons, hrunTable, Ledger.policy, hcheck, hspecs, htable]
    cases outcome with
    | none => rw [List.reduceOption_cons_of_none, Option.elim_none, Ledger.policy]
    | some f =>
      rw [List.reduceOption_cons_of_some, Option.elim_some, Policy.run_cons, Ledger.policy]

theorem checksOf_eq (h : sink.Tabled) (id : UInt32) (outcomes : List (Option Contents)) :
    checksOf id sink outcomes
      = (sink.policy.looks id sink.table outcomes.reduceOption).map (checkOf sink.check) := by
  induction outcomes generalizing sink with
  | nil => rfl
  | cons outcome outcomes ih =>
    obtain ⟨htabled, hcheck, hspecs, htable⟩ := observe_tabled h outcome
    have hrest := ih htabled
    rw [hcheck, Ledger.policy, hcheck, hspecs, htable] at hrest
    cases outcome with
    | none =>
      rw [checksOf, hrest, List.reduceOption_cons_of_none, Option.elim_none, Ledger.policy]
    | some f =>
      rw [checksOf, hrest, List.reduceOption_cons_of_some, Option.elim_some, Policy.looks,
        List.map_append]
      congr 1
      have hkey : sink.policy.key f = f.cameraId := rfl
      rw [hkey]
      split_ifs with hid
      · subst hid
        obtain ⟨ids, rec, hby⟩ := h
        rw [List.map_singleton, checkOf, observe_since ⟨ids, rec, hby⟩, against_eq hby]
      · rfl

end Run

/-! ## Sinks

Every sink that can be reached by requests has its slots in order, since the only thing that writes
to them is a frame. -/

/-- A sink after some requests, with whatever the allocator answered. -/
inductive Served (check : Option SinkCheck) : Sink → Prop
  | new {sink : Sink} (h : sinkNew check = some sink) : Served check sink
  | serve {sink : Sink} (h : Served check sink) (granted : Bool) (request : SinkRequest) :
      Served check (serve granted sink request).2

theorem tabled_serve {sink : Sink} (h : sink.toLedger.Tabled) (granted : Bool)
    (request : SinkRequest) : (serve granted sink request).2.toLedger.Tabled := by
  cases request with
  | expect specs =>
    have hledger := sinkExpect_ledger granted sink specs
    obtain ⟨ids, rec, h⟩ := h
    rw [serve, hledger]
    exact ⟨ids, rec, h.cams, h.named, h.nodup, h.length⟩
  | recv event =>
    cases event with
    | message msg => exact (observe_tabled h _).1
    | nothing => exact h
    | pollFailed => exact h
    | recvFailed => exact h

theorem tabled_sinkNew {check : Option SinkCheck} {sink : Sink} (h : sinkNew check = some sink) :
    sink.toLedger.Tabled := by
  refine ⟨[], fun id ↦ openCam sink.check sink.specs .blank id, ?_, fun id ↦ ?_,
    List.nodup_nil, Nat.zero_le _⟩
  · rw [tableOf_nil]
    exact (fresh_sinkNew h).cams
  · exact openCam_named _ _ id

theorem Served.tabled {check : Option SinkCheck} {sink : Sink} (h : Served check sink) :
    sink.toLedger.Tabled ∧ sink.decoded.Sized := by
  induction h with
  | new h => exact ⟨tabled_sinkNew h, (fresh_sinkNew h).sized⟩
  | serve _ granted request ih =>
    exact ⟨tabled_serve ih.1 granted request, sized_serve granted ih.2 request⟩

theorem toLedger_receive_granted {sink : Sink} (hsized : sink.decoded.Sized)
    (history : List Bytes) : (receive sink (history.map fun msg ↦ (msg, true))).toLedger
      = (history.map parse).foldl observe sink.toLedger := by
  rw [(receive_eq hsized).1, decodeHistory_granted _ (by simp), List.map_map]
  rfl

end SparseCamera
