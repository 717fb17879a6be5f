import SparseCamera.Webcam.Rounded

/-!
# Brighter pictures

Where a picture is at least as bright as another one, its frame is at least as bright: every site of
the darker picture is one of the brighter picture, with a value that is no smaller. A higher
threshold takes sites away, and chrominance does not count at all. This is so on `float`, whatever
the size of the cells, since none of its roundings turns an order around.

## The construction

For two numbers that are computed alike, one from a sum that is no smaller, each step keeps the
order: the conversion to `float`, both divisions, the comparison with the threshold. The number of
samples is the same in both pictures. So what holds of a cell holds without regard to how the
roundings come out, and cell by cell a frame is a part of the other.
-/

namespace SparseCamera

open Binary32 Memory Tiling

/-- The same webcam with another threshold. -/
def V4l2Ctx.withThreshold (ctx : V4l2Ctx) (threshold : UInt8) : V4l2Ctx :=
  { ctx with cfg := { ctx.cfg with threshold := threshold } }

/-- No pixel is brighter in the first picture. -/
def V4l2Ctx.Darker (ctx : V4l2Ctx) (raw raw' : Bytes) : Prop :=
  ∀ y < ctx.height.toNat, ∀ x < ctx.width.toNat,
    raw.getD (ctx.offset (y, x)) 0 ≤ raw'.getD (ctx.offset (y, x)) 0

instance (ctx : V4l2Ctx) (raw raw' : Bytes) : Decidable (ctx.Darker raw raw') :=
  inferInstanceAs (Decidable (∀ y < ctx.height.toNat, ∀ x < ctx.width.toNat, _))

/-- The sites of a frame with their values. -/
def Contents.lit (f : Contents) : List (UInt32 × Binary32) := f.support.zip f.signal

/-- The same site with a value that is no smaller. -/
def Dimmer (site site' : UInt32 × Binary32) : Prop :=
  site.1 = site'.1 ∧ site.2.toRat ≤ site'.2.toRat

/-! ## The threshold -/

section Threshold

variable (ctx : V4l2Ctx) (threshold : UInt8)

private theorem info_withThreshold :
    (v4l2InfoFromCtx (ctx.withThreshold threshold)).rows = (v4l2InfoFromCtx ctx).rows ∧
      (v4l2InfoFromCtx (ctx.withThreshold threshold)).cols = (v4l2InfoFromCtx ctx).cols ∧
      (v4l2InfoFromCtx (ctx.withThreshold threshold)).thr = Binary32.ofNat threshold.toNat := by
  simp only [v4l2InfoFromCtx, V4l2Ctx.withThreshold]
  exact ⟨rfl, rfl, trivial⟩

private theorem grid_withThreshold :
    (ctx.withThreshold threshold).rows = ctx.rows ∧
      (ctx.withThreshold threshold).cols = ctx.cols ∧
      gridCells (v4l2InfoFromCtx (ctx.withThreshold threshold))
        = gridCells (v4l2InfoFromCtx ctx) := by
  obtain ⟨hrows, hcols, -⟩ := info_withThreshold ctx threshold
  refine ⟨?_, ?_, ?_⟩
  · rw [V4l2Ctx.rows, V4l2Ctx.rows, hrows]
  · rw [V4l2Ctx.cols, V4l2Ctx.cols, hcols]
  · rw [gridCells, gridCells, hrows, hcols]

private theorem cellSum_withThreshold (raw : Bytes) (r c : UInt64) :
    cellSum (ctx.withThreshold threshold) raw r c = cellSum ctx raw r c := by
  obtain ⟨hrows, hcols, -⟩ := info_withThreshold ctx threshold
  have hheight : (ctx.withThreshold threshold).height = ctx.height := rfl
  have hwidth : (ctx.withThreshold threshold).width = ctx.width := rfl
  simp only [cellSum, hrows, hcols, hheight, hwidth, blockSum, luma]

private theorem cellValue_withThreshold (raw : Bytes) (r c : UInt64) :
    cellValue (ctx.withThreshold threshold) raw r c
      = if (cellSum ctx raw r c).2 = 0 then none
        else if (cellMean (cellSum ctx raw r c).1 (cellSum ctx raw r c).2).toRat
          ≤ (Binary32.ofNat threshold.toNat).toRat then none
        else some (cellMean (cellSum ctx raw r c).1 (cellSum ctx raw r c).2) := by
  rw [cellValue, cellSum_withThreshold, (info_withThreshold ctx threshold).2.2]

end Threshold

/-! ## One cell

`float` division rounds the exact quotient, and rounding is monotone. Nothing is said about by how
much the results differ. -/

section Cell

variable {sum sum' : UInt64} {n : UInt32}

private theorem cellMean_nonneg (hn : n ≠ 0) : 0 ≤ (cellMean sum n).toRat := by
  by_cases hsum : sum = 0
  · rw [hsum, cellMean_zero]
  · obtain ⟨hval, hspos, hnpos, -, -⟩ := toRat_cellMean hsum hn
    rw [hval]
    exact (roundBits_pos (div_pos hspos hnpos) (by norm_num)).le

/-- **The mean** of as many samples grows with their sum. -/
theorem cellMean_mono (hn : n ≠ 0) (h : sum ≤ sum') :
    (cellMean sum n).toRat ≤ (cellMean sum' n).toRat := by
  by_cases hsum : sum = 0
  · rw [hsum, cellMean_zero]
    exact cellMean_nonneg hn
  · have hspos : 0 < sum.toNat := Nat.pos_of_ne_zero fun h ↦ hsum (UInt64.toNat_inj.mp h)
    have hle : sum.toNat ≤ sum'.toNat := UInt64.le_iff_toNat_le.mp h
    have hsum' : sum' ≠ 0 := by
      rintro rfl
      exact absurd (hspos.trans_le hle) (by decide)
    obtain ⟨hval, hspos', hnpos, -, -⟩ := toRat_cellMean hsum hn
    obtain ⟨hval', -⟩ := toRat_cellMean hsum' hn
    have hround : roundBits 24 sum.toNat ≤ roundBits 24 sum'.toNat :=
      roundBits_mono (by exact_mod_cast hspos) (by norm_num) (by exact_mod_cast hle)
    rw [hval, hval']
    exact roundBits_mono (div_pos hspos' hnpos) (by norm_num) (by gcongr)

private theorem toRat_stored (hsum : sum ≠ 0) (hn : n ≠ 0) :
    (Binary32.div (cellMean sum n) fullScale).toRat = roundBits 24 ((cellMean sum n).toRat / 255) ∧
      0 < (cellMean sum n).toRat := by
  obtain ⟨hval, hspos, hnpos, hlo, hhi⟩ := toRat_cellMean hsum hn
  have hlow : (2 : ℚ) ^ (-40 : ℤ) ≤ (cellMean sum n).toRat := by
    rw [hval]
    exact zpow_le_roundBits (by norm_num) hlo
  have hhigh : (cellMean sum n).toRat ≤ 2 ^ (66 : ℤ) := by
    rw [hval]
    refine (roundBits_le_two_mul (div_pos hspos hnpos) (by norm_num)).trans ?_
    norm_num at hhi ⊢
    linarith
  rw [Binary32.div, toRat_fullScale]
  refine ⟨(toRat_ofRat_normal ?_ ?_).2, lt_of_lt_of_le (by positivity) hlow⟩
  · rw [le_div_iff₀ (by norm_num)]
    norm_num at hlow ⊢
    linarith
  · rw [div_lt_iff₀ (by norm_num)]
    norm_num at hhigh ⊢
    linarith

/-- **What is stored** grows with it. -/
theorem stored_mono (hn : n ≠ 0) (h : sum ≤ sum') :
    (Binary32.div (cellMean sum n) fullScale).toRat
      ≤ (Binary32.div (cellMean sum' n) fullScale).toRat := by
  have hmean := cellMean_mono hn h
  by_cases hsum' : sum' = 0
  · have hsum : sum = 0 := UInt64.le_antisymm (hsum' ▸ h) UInt64.zero_le
    rw [hsum, hsum']
  obtain ⟨hval', hpos'⟩ := toRat_stored hsum' hn
  by_cases hsum : sum = 0
  · have hzero : (Binary32.div (cellMean 0 n) fullScale).toRat = 0 := by
      rw [Binary32.div, cellMean_zero, zero_div]
      decide +kernel
    rw [hsum, hzero, hval']
    exact (roundBits_pos (div_pos hpos' (by norm_num)) (by norm_num)).le
  · obtain ⟨hval, hpos⟩ := toRat_stored hsum hn
    rw [hval, hval']
    exact roundBits_mono (div_pos hpos (by norm_num)) (by norm_num) (by gcongr)

end Cell

/-! ## The cells -/

section Cells

variable {ctx : V4l2Ctx} {raw raw' : Bytes}

private theorem total_mono (h : ctx.Darker raw raw') {r c : ℕ} (hr : r < ctx.rows)
    (hc : c < ctx.cols) :
    ctx.total raw (r, c) ≤ ctx.total raw' (r, c) := by
  refine Finset.sum_le_sum fun p hp ↦ ?_
  obtain ⟨hy, hx⟩ := lt_of_mem_cell hr hc hp
  exact UInt8.le_iff_toNat_le.mp (h p.1 hy p.2 hx)

private theorem cellSum_mono (hmod : ctx.Moderate) (h : ctx.Darker raw raw') {r c : ℕ}
    (hr : r < ctx.rows)
    (hc : c < ctx.cols) :
    (cellSum ctx raw (.ofNat r) (.ofNat c)).1 ≤ (cellSum ctx raw' (.ofNat r) (.ofNat c)).1 ∧
      (cellSum ctx raw (.ofNat r) (.ofNat c)).2 = (cellSum ctx raw' (.ofNat r) (.ofNat c)).2 := by
  obtain ⟨hsum, hnumber⟩ := cellSum_toNat hmod raw hr hc
  obtain ⟨hsum', hnumber'⟩ := cellSum_toNat hmod raw' hr hc
  refine ⟨UInt64.le_iff_toNat_le.mpr ?_, UInt32.toNat_inj.mp (hnumber.trans hnumber'.symm)⟩
  rw [hsum, hsum']
  exact total_mono h hr hc

/-- A cell above a threshold in the darker picture is above every lower one in the brighter
picture. -/
theorem cellValue_mono (hmod : ctx.Moderate) (h : ctx.Darker raw raw') {t t' : UInt8} (ht : t' ≤ t)
    {r c : ℕ} (hr : r < ctx.rows) (hc : c < ctx.cols) {v : Binary32}
    (hv : cellValue (ctx.withThreshold t) raw (.ofNat r) (.ofNat c) = some v) :
    ∃ v', cellValue (ctx.withThreshold t') raw' (.ofNat r) (.ofNat c) = some v' ∧
      (Binary32.div v fullScale).toRat ≤ (Binary32.div v' fullScale).toRat ∧
      (ctx.Darker raw' raw → v' = v) := by
  obtain ⟨hsum, hnumber⟩ := cellSum_mono hmod h hr hc
  rw [cellValue_withThreshold] at hv ⊢
  rw [← hnumber]
  split_ifs at hv with hzero hbelow
  obtain rfl := Option.some.inj hv
  have hthreshold : (Binary32.ofNat t'.toNat).toRat ≤ (Binary32.ofNat t.toNat).toRat := by
    rw [toRat_ofNat_of_lt (t.toNat_lt.trans (by norm_num)),
      toRat_ofNat_of_lt (t'.toNat_lt.trans (by norm_num))]
    exact_mod_cast UInt8.le_iff_toNat_le.mp ht
  have hmean := cellMean_mono hzero hsum
  rw [if_neg hzero, if_neg fun hle ↦ hbelow (hmean.trans (hle.trans hthreshold))]
  refine ⟨_, rfl, stored_mono hzero hsum, fun hback ↦ ?_⟩
  rw [UInt64.le_antisymm (cellSum_mono hmod hback hr hc).1 hsum]

private theorem sublistForall₂_filterMap {α β γ : Type*} {f : α → Option β} {g : α → Option γ}
    {R : β → γ → Prop} {l : List α} (h : ∀ a ∈ l, ∀ b, f a = some b → ∃ c, g a = some c ∧ R b c) :
    List.SublistForall₂ R (l.filterMap f) (l.filterMap g) := by
  induction l with
  | nil => exact .nil
  | cons a l ih =>
    have hrest := ih fun a' ha' ↦ h a' (List.mem_cons_of_mem a ha')
    cases hf : f a with
    | none =>
      rw [List.filterMap_cons_none hf]
      cases hg : g a with
      | none => rwa [List.filterMap_cons_none hg]
      | some c =>
        rw [List.filterMap_cons_some hg]
        exact .cons_right hrest
    | some b =>
      obtain ⟨c, hg, hR⟩ := h a List.mem_cons_self b hf
      rw [List.filterMap_cons_some hf, List.filterMap_cons_some hg]
      exact .cons hR hrest

/-- **The cells that are emitted**, in the darker picture and in the brighter one. -/
theorem litCells_mono (hmod : ctx.Moderate) (h : ctx.Darker raw raw') {t t' : UInt8} (ht : t' ≤ t) :
    List.SublistForall₂ (fun site site' ↦ site.1 = site'.1 ∧
        (Binary32.div site.2 fullScale).toRat ≤ (Binary32.div site'.2 fullScale).toRat ∧
        (ctx.Darker raw' raw → site'.2 = site.2))
      (litCells (ctx.withThreshold t) raw (gridCells (v4l2InfoFromCtx ctx)))
      (litCells (ctx.withThreshold t') raw' (gridCells (v4l2InfoFromCtx ctx))) := by
  refine sublistForall₂_filterMap fun cell hcell site hsite ↦ ?_
  rw [gridCells_eq] at hcell
  obtain ⟨⟨r, c⟩, hrc, rfl⟩ := List.mem_map.mp hcell
  obtain ⟨hr, hc⟩ := mem_grid.mp hrc
  obtain ⟨v, hv, rfl⟩ := Option.map_eq_some_iff.mp hsite
  obtain ⟨v', hv', hle, hsame⟩ := cellValue_mono hmod h ht hr hc hv
  refine ⟨_, Option.map_eq_some_iff.mpr ⟨v', hv', rfl⟩, ?_, hle, hsame⟩
  simp only [(info_withThreshold ctx t).2.1, (info_withThreshold ctx t').2.1]

end Cells

/-! ## A frame -/

section Frame

variable {ctx : V4l2Ctx} {raw raw' : Bytes} {out out' : Frame} {buf buf' : V4l2Buffer}

private theorem lit_fillFrame (raw : Bytes) (buf : V4l2Buffer) (hsized : out.Sized)
    (hroom : ctx.rows * ctx.cols ≤ out.capacity.toNat) :
    (fillFrame ctx raw buf out).contents.lit
      = (litCells ctx raw (gridCells (v4l2InfoFromCtx ctx))).map fun cell ↦
        (cell.1, Binary32.div cell.2 fullScale) := by
  have hall : sparseSites ctx raw out.capacity
      = litCells ctx raw (gridCells (v4l2InfoFromCtx ctx)) := by
    refine List.take_of_length_le (le_trans ?_ hroom)
    refine (List.length_filterMap_le _ _).trans_eq ?_
    rw [gridCells_eq, List.length_map, List.length_product, List.length_range, List.length_range]
  rw [contents_fillFrame raw buf hsized, Contents.lit, hall]
  exact List.zip_map'

private theorem lit_withThreshold (raw : Bytes) (buf : V4l2Buffer) (hsized : out.Sized)
    (hroom : ctx.rows * ctx.cols ≤ out.capacity.toNat) (threshold : UInt8) :
    (fillFrame (ctx.withThreshold threshold) raw buf out).contents.lit
      = (litCells (ctx.withThreshold threshold) raw (gridCells (v4l2InfoFromCtx ctx))).map
        fun cell ↦ (cell.1, Binary32.div cell.2 fullScale) := by
  obtain ⟨hrows, hcols, hcells⟩ := grid_withThreshold ctx threshold
  rw [lit_fillFrame raw buf hsized (by rwa [hrows, hcols]), hcells]

/-- **Brighter pictures have brighter frames**, and a lower threshold has more sites: whatever the
size of the picture and the cells, if no pixel is darker in the second picture and the threshold is
no higher, every site of the first frame is one of the second frame, in the same order and with a
value that is no smaller. If no pixel is brighter either, the values are the same, so nothing but
luminance counts and a threshold changes no value. -/
theorem fillFrame_brighter (hmod : ctx.Moderate) (hdarker : ctx.Darker raw raw') {t t' : UInt8}
    (ht : t' ≤ t) (hsized : out.Sized) (hsized' : out'.Sized)
    (hroom : ctx.rows * ctx.cols ≤ out.capacity.toNat)
    (hroom' : ctx.rows * ctx.cols ≤ out'.capacity.toNat) :
    List.SublistForall₂ Dimmer (fillFrame (ctx.withThreshold t) raw buf out).contents.lit
        (fillFrame (ctx.withThreshold t') raw' buf' out').contents.lit ∧
      (ctx.Darker raw' raw → (fillFrame (ctx.withThreshold t) raw buf out).contents.lit.Sublist
        (fillFrame (ctx.withThreshold t') raw' buf' out').contents.lit) := by
  have hlit := litCells_mono hmod hdarker ht
  rw [lit_withThreshold raw buf hsized hroom, lit_withThreshold raw' buf' hsized' hroom']
  constructor
  · rw [List.sublistForall₂_map_left_iff, List.sublistForall₂_map_right_iff]
    obtain ⟨kept, hall, hsub⟩ := List.sublistForall₂_iff.mp hlit
    exact List.sublistForall₂_iff.mpr ⟨kept, hall.imp fun _ _ hR ↦ ⟨hR.1, hR.2.1⟩, hsub⟩
  · intro hback
    obtain ⟨kept, hall, hsub⟩ := List.sublistForall₂_iff.mp hlit
    have hkept : litCells (ctx.withThreshold t) raw (gridCells (v4l2InfoFromCtx ctx)) = kept := by
      rw [← List.forall₂_eq_eq_eq]
      exact hall.imp fun _ _ hR ↦ Prod.ext hR.1 (hR.2.2 hback).symm
    exact (hkept ▸ hsub).map _

end Frame

def fourSites : Frame := ⟨List.replicate 4 0, List.replicate 4 ⟨0⟩, 0, 0, 0, 0, 4⟩

/-- Two cells above 40, and a third one above 32 once it has more light. -/
theorem fillFrame_brighter_uneven :
    let buf : V4l2Buffer := ⟨0, 5, 0, 9⟩
    let darker := (fillFrame (unevenCtx.withThreshold 40)
      [100, 128, 20, 128, 30, 128, 0, 128, 50, 128, 60, 128] buf fourSites).contents
    let brighter := (fillFrame (unevenCtx.withThreshold 32)
      [200, 90, 50, 90, 60, 90, 0, 90, 50, 90, 60, 90] buf fourSites).contents
    darker.support = [0, 3] ∧ brighter.support = [0, 1, 3] ∧
      List.SublistForall₂ Dimmer darker.lit brighter.lit := by
  refine ⟨by decide +kernel, by decide +kernel, ?_⟩
  exact (fillFrame_brighter ⟨by decide, by decide, by decide, by decide⟩ (by decide +kernel)
    (by decide) ⟨by decide, by decide⟩ ⟨by decide, by decide⟩ (by decide) (by decide)).1

end SparseCamera
