import SparseCamera.Lib.KeyedHistory
import SparseCamera.Sink.Basic

/-!
# The camera table

Slots are taken in the order in which cameras appear and are never given back. So the table is a
list of ids with one record each, followed by blank slots, and it is determined by the history: the
ids are the first sixteen to appear and each record is what its camera's own frames made of it.

## The construction

The first loop of `cam_find` is a search for an id in `tableOf ids rec`, the second one a search for
a blank slot. Where they end is known from the list of ids: at the place of the id, or right behind
the last one. Everything else is about one slot.
-/

namespace SparseCamera

open KeyedHistory

/-! ## A table of records -/

section Table

/-- The table that holds the records of some cameras in order. -/
def tableOf (ids : List UInt32) (rec : UInt32 → CamState) : List CamState :=
  ids.map rec ++ List.replicate (sinkMaxCameras - ids.length) .blank

variable {ids : List UInt32} {rec : UInt32 → CamState} {id : UInt32}

@[simp] theorem tableOf_nil : tableOf [] rec = List.replicate sinkMaxCameras .blank := rfl

theorem findIdx?_tableOf (hrec : ∀ i, (rec i).seen = true ∧ (rec i).cameraId = i) :
    (tableOf ids rec).findIdx? (fun cam ↦ cam.seen && cam.cameraId == id)
      = if id ∈ ids then some (ids.idxOf id) else none := by
  have hblank : (List.replicate (sinkMaxCameras - ids.length) CamState.blank).findIdx?
      (fun cam ↦ cam.seen && cam.cameraId == id) = none := by
    rw [List.findIdx?_eq_none_iff]
    intro cam hcam
    rw [List.eq_of_mem_replicate hcam]
    rfl
  have hseen : (ids.map rec).findIdx? (fun cam ↦ cam.seen && cam.cameraId == id)
      = if id ∈ ids then some (ids.idxOf id) else none := by
    have hcomp : (fun cam ↦ cam.seen && cam.cameraId == id) ∘ rec = fun i ↦ i == id := by
      funext i
      simp [hrec i]
    rw [List.findIdx?_map, hcomp]
    split_ifs with hmem
    · refine List.findIdx?_eq_some_iff_findIdx_eq.mpr ⟨?_, rfl⟩
      exact List.idxOf_lt_length_of_mem hmem
    · exact List.idxOf?_eq_none_iff.mpr hmem
  rw [tableOf, List.findIdx?_append, hblank, hseen]
  simp

theorem findIdx?_free (hrec : ∀ i, (rec i).seen = true ∧ (rec i).cameraId = i) :
    (tableOf ids rec).findIdx? (fun cam ↦ !cam.seen)
      = if ids.length < sinkMaxCameras then some ids.length else none := by
  have hseen : (ids.map rec).findIdx? (fun cam ↦ !cam.seen) = none := by
    rw [List.findIdx?_eq_none_iff]
    intro cam hcam
    obtain ⟨i, -, rfl⟩ := List.mem_map.mp hcam
    simp [hrec i]
  rw [tableOf, List.findIdx?_append, hseen]
  by_cases hlt : ids.length < sinkMaxCameras
  · obtain ⟨k, hk⟩ := Nat.exists_eq_add_of_lt hlt
    rw [if_pos hlt, hk, Nat.add_assoc, Nat.add_sub_cancel_left]
    simp [List.replicate_succ, List.findIdx?_cons, CamState.blank]
  · rw [if_neg hlt, Nat.sub_eq_zero_of_le (not_lt.mp hlt)]
    rfl

theorem filter_tableOf (hrec : ∀ i, (rec i).seen = true ∧ (rec i).cameraId = i) :
    (tableOf ids rec).filter CamState.seen = ids.map rec := by
  have hblank : (List.replicate (sinkMaxCameras - ids.length) CamState.blank).filter
      CamState.seen = [] := by
    rw [List.filter_eq_nil_iff]
    intro cam hcam
    rw [List.eq_of_mem_replicate hcam]
    exact Bool.false_ne_true
  rw [tableOf, List.filter_append, hblank, List.append_nil, List.filter_eq_self]
  intro cam hcam
  obtain ⟨id, -, rfl⟩ := List.mem_map.mp hcam
  exact (hrec id).1

theorem getD_tableOf (hmem : id ∈ ids) :
    (tableOf ids rec).getD (ids.idxOf id) .blank = rec id := by
  have hlt : ids.idxOf id < ids.length := List.idxOf_lt_length_of_mem hmem
  rw [tableOf, List.getD_eq_getElem?_getD, List.getElem?_append_left (by simpa using hlt),
    List.getElem?_map, List.getElem?_idxOf hmem]
  rfl

private theorem set_tableOf (hnodup : ids.Nodup) (hmem : id ∈ ids) (cam : CamState) :
    (tableOf ids rec).set (ids.idxOf id) cam = tableOf ids (Function.update rec id cam) := by
  have hlt : ids.idxOf id < ids.length := List.idxOf_lt_length_of_mem hmem
  have hset : (ids.map rec).set (ids.idxOf id) cam = ids.map (Function.update rec id cam) := by
    refine List.ext_getElem (by simp) ?_
    intro i hi hi'
    rw [List.getElem_set, List.getElem_map, List.getElem_map]
    have hi_lt : i < ids.length := by simpa using hi'
    by_cases h : ids.idxOf id = i
    · subst h
      rw [if_pos rfl, List.getElem_idxOf, Function.update_self]
    · rw [if_neg h, Function.update_of_ne]
      intro hid
      exact h (hid ▸ hnodup.idxOf_getElem i hi_lt)
  rw [tableOf, List.set_append_left _ _ (by simpa using hlt), hset, tableOf]

private theorem set_free (hlt : ids.length < sinkMaxCameras) :
    (tableOf ids rec).set ids.length (rec id) = tableOf (ids ++ [id]) rec := by
  obtain ⟨k, hk⟩ := Nat.exists_eq_add_of_lt hlt
  have hfree : sinkMaxCameras - ids.length = k + 1 := by omega
  have hrest : sinkMaxCameras - (ids ++ [id]).length = k := by
    rw [List.length_append, List.length_singleton]
    omega
  rw [tableOf, tableOf, hfree, hrest, List.set_append_right _ _ (by simp), List.length_map,
    Nat.sub_self, List.replicate_succ, List.set_cons_zero, List.map_append, List.append_assoc]
  rfl

theorem getD_free (hlt : ids.length < sinkMaxCameras) :
    (tableOf ids rec).getD ids.length .blank = .blank := by
  rw [tableOf, List.getD_eq_getElem?_getD, List.getElem?_append_right (by simp), List.length_map,
    Nat.sub_self, List.getElem?_replicate_of_lt (by omega)]
  rfl

end Table

/-! ## One frame

The three cases of a frame: its camera has a slot, it can get one, or the table is full. -/

/-- The counters after a camera took a slot. -/
def takeSlot (specs : List SinkCamSpec) (cam : CamState) (stats : SinkStats) : SinkStats :=
  let stats :=
    if specs ≠ [] ∧ cam.specKnown = false then
      { stats with unexpectedCams := stats.unexpectedCams + 1 }
    else stats
  { stats with camerasSeen := stats.camerasSeen + 1 }

section Step

variable {sink : Ledger} {ids : List UInt32} {rec : UInt32 → CamState}

/-- A frame of a camera that has a record changes the counters and that record. -/
theorem validate_of_mem (hcams : sink.cams = tableOf ids rec)
    (hrec : ∀ i, (rec i).seen = true ∧ (rec i).cameraId = i) (hnodup : ids.Nodup) {f : Contents}
    (hmem : f.cameraId ∈ ids) :
    validate sink f = { sink with
      stats := judge sink.check (rec f.cameraId) f sink.stats
      cams := tableOf ids (Function.update rec f.cameraId (advance (rec f.cameraId) f)) } := by
  have hfind : camFind sink f.cameraId = some (ids.idxOf f.cameraId, sink) := by
    rw [camFind, hcams, findIdx?_tableOf hrec, if_pos hmem]
  rw [validate, hfind]
  simp only [hcams]
  rw [getD_tableOf hmem, set_tableOf hnodup hmem]

theorem validate_of_not_mem (hcams : sink.cams = tableOf ids rec)
    (hrec : ∀ i, (rec i).seen = true ∧ (rec i).cameraId = i) (hnodup : ids.Nodup) {f : Contents}
    (hmem : f.cameraId ∉ ids) (hlt : ids.length < sinkMaxCameras)
    (hopen : rec f.cameraId = openCam sink.check sink.specs .blank f.cameraId) :
    validate sink f = { sink with
      stats := judge sink.check (rec f.cameraId) f
        (takeSlot sink.specs (rec f.cameraId) sink.stats)
      cams := tableOf (ids ++ [f.cameraId])
        (Function.update rec f.cameraId (advance (rec f.cameraId) f)) } := by
  have hnodup' : (ids ++ [f.cameraId]).Nodup := by
    rw [List.nodup_append]
    refine ⟨hnodup, List.nodup_singleton _, fun i hi j hj ↦ ?_⟩
    rw [List.mem_singleton] at hj
    rintro rfl
    exact hmem (hj ▸ hi)
  have hself : f.cameraId ∈ ids ++ [f.cameraId] := by simp
  have hidx : (ids ++ [f.cameraId]).idxOf f.cameraId = ids.length := by
    rw [List.idxOf_append_of_notMem hmem]
    simp
  -- the search ends at the first free slot, which is behind the last record
  have hfind : camFind sink f.cameraId = some (ids.length, { sink with
      cams := tableOf (ids ++ [f.cameraId]) rec
      stats := takeSlot sink.specs (rec f.cameraId) sink.stats }) := by
    rw [camFind, hcams, findIdx?_tableOf hrec, if_neg hmem, findIdx?_free hrec, if_pos hlt]
    simp only [getD_free hlt]
    rw [← hopen, set_free hlt]
    rfl
  rw [validate, hfind]
  simp only
  rw [← hidx, getD_tableOf hself, set_tableOf hnodup' hself]

/-- With the table full a frame of a new camera is not looked at. -/
theorem validate_of_full (hcams : sink.cams = tableOf ids rec)
    (hrec : ∀ i, (rec i).seen = true ∧ (rec i).cameraId = i) {f : Contents}
    (hmem : f.cameraId ∉ ids) (hfull : ¬ids.length < sinkMaxCameras) : validate sink f = sink := by
  have hfind : camFind sink f.cameraId = none := by
    rw [camFind, hcams, findIdx?_tableOf hrec, if_neg hmem, findIdx?_free hrec, if_neg hfull]
  rw [validate, hfind]

end Step

/-! ## The record a history leaves

A record is a fold over the frames of its camera. The bounds in it are those of the fresh slot, and
the last stamp and number are those of the last frame. -/

section Record

variable (check : SinkCheck) (specs : List SinkCamSpec)

/-- What the frames of one camera make of a fresh slot. -/
def recordOf (id : UInt32) (frames : List Contents) : CamState :=
  frames.foldl advance (openCam check specs .blank id)

variable (id : UInt32)

@[simp] theorem recordOf_nil : recordOf check specs id [] = openCam check specs .blank id := rfl

theorem recordOf_concat (frames : List Contents) (f : Contents) :
    recordOf check specs id (frames ++ [f]) = advance (recordOf check specs id frames) f := by
  rw [recordOf, List.foldl_append]
  rfl

theorem advance_fixed (cam : CamState) (f : Contents) :
    (advance cam f).seen = cam.seen ∧ (advance cam f).specKnown = cam.specKnown ∧
      (advance cam f).cameraId = cam.cameraId ∧ (advance cam f).maxSites = cam.maxSites ∧
      (advance cam f).expectPeriodMs = cam.expectPeriodMs := by
  rw [advance, recordDelta]
  split_ifs <;> exact ⟨rfl, rfl, rfl, rfl, rfl⟩

@[simp] theorem frames_advance (cam : CamState) (f : Contents) :
    (advance cam f).frames = cam.frames + 1 := by
  rw [advance, recordDelta]
  split_ifs <;> rfl

@[simp] theorem lastTNs_advance (cam : CamState) (f : Contents) :
    (advance cam f).lastTNs = f.tNs := rfl

@[simp] theorem lastSeq_advance (cam : CamState) (f : Contents) :
    (advance cam f).lastSeq = f.sequence := rfl

theorem openCam_taken :
    (openCam check specs .blank id).seen = true ∧ (openCam check specs .blank id).cameraId = id ∧
      (openCam check specs .blank id).frames = 0 := by
  rw [openCam]
  cases specs.find? fun spec ↦ spec.cameraId == id with
  | none => exact ⟨rfl, rfl, rfl⟩
  | some spec => exact ⟨rfl, rfl, rfl⟩

/-- The bounds of a record are chosen when its slot is taken. -/
theorem recordOf_fixed (frames : List Contents) :
    (recordOf check specs id frames).seen = true ∧
      (recordOf check specs id frames).specKnown
        = (openCam check specs .blank id).specKnown ∧
      (recordOf check specs id frames).cameraId = id ∧
      (recordOf check specs id frames).maxSites = (openCam check specs .blank id).maxSites ∧
      (recordOf check specs id frames).expectPeriodMs
        = (openCam check specs .blank id).expectPeriodMs := by
  induction frames using List.reverseRecOn with
  | nil =>
    obtain ⟨hseen, hid, -⟩ := openCam_taken check specs id
    exact ⟨hseen, rfl, hid, rfl, rfl⟩
  | append_singleton frames f ih =>
    obtain ⟨hseen, hknown, hid, hsites, hperiod⟩ := advance_fixed (recordOf check specs id frames) f
    rw [recordOf_concat, hseen, hknown, hid, hsites, hperiod]
    exact ih

theorem frames_recordOf (frames : List Contents) :
    (recordOf check specs id frames).frames = UInt64.ofNat frames.length := by
  induction frames using List.reverseRecOn with
  | nil => exact (openCam_taken check specs id).2.2
  | append_singleton frames f ih =>
    rw [recordOf_concat, frames_advance, ih, List.length_append, UInt64.ofNat_add]
    rfl

theorem last_recordOf (frames : List Contents) (f : Contents) :
    (recordOf check specs id (frames ++ [f])).lastTNs = f.tNs ∧
      (recordOf check specs id (frames ++ [f])).lastSeq = f.sequence := by
  rw [recordOf_concat]
  exact ⟨rfl, rfl⟩

theorem frames_recordOf_pos {frames : List Contents} (hlt : frames.length < 2 ^ 64) :
    0 < (recordOf check specs id frames).frames ↔ frames ≠ [] := by
  rw [frames_recordOf, UInt64.lt_iff_toNat_lt, UInt64.toNat_ofNat_of_lt' hlt]
  exact List.length_pos_iff

end Record

end SparseCamera
