import Mathlib.Algebra.Order.BigOperators.Group.Finset
import SparseCamera.Lib.Tiling
import SparseCamera.Webcam.Sparse

/-!
# The thresholded block mean

What `yuyv_to_sparse` is for: the picture is divided into the cells of a grid, each pixel lies in
one cell, and the cells whose mean luminance is above the threshold are emitted in order. The cells
are the rectangles of a tiling by floor division, so they need not divide the picture evenly, and
some are empty when the grid is finer than the picture.

The means are read as exact rationals here. The loop is the program's own, `fillCellsWith`, with
these numbers in the place of `float`.

## The construction

The loops of the program run over 64-bit block limits, the tiling is about naturals, and the two
meet in `toNat_blockStart`: the limits do not overflow, since both factors have 32 bits. From there
a cell is a set of pixels, its sum a sum over the set, and the loop over the cells is known from
`Sparse`. `Moderate` keeps the number of pixels below 2^32, and with it every sum below 2^64.
-/

namespace SparseCamera

open Memory Tiling

/-- Exact numbers. -/
def exactArith : CellArith ℚ where
  mean sum n := sum.toNat / n.toNat
  le value threshold := value ≤ threshold.toNat
  normalize value := value / 255

/-- `yuyv_to_sparse` with exact numbers: whether it came to a site for which there was no room, the
number of sites, and the frame they were written to. -/
def yuyvToSparseExact (ctx : V4l2Ctx) (raw : Bytes) (out : SparseFrame ℚ) :
    Bool × UInt32 × SparseFrame ℚ :=
  fillCellsWith exactArith ctx raw (gridCells (v4l2InfoFromCtx ctx)) 0 out

/-- The positions in the buffer that the loops over a cell read, in order. -/
def cellOffsets (ctx : V4l2Ctx) (r c : UInt64) : List ℕ :=
  let gi := v4l2InfoFromCtx ctx
  let y0 := blockStart r ctx.height gi.rows
  let y1 := blockStart (r + 1) ctx.height gi.rows
  let x0 := blockStart c ctx.width gi.cols
  let x1 := blockStart (c + 1) ctx.width gi.cols
  (List.range' y0.toNat (y1.toNat - y0.toNat)).flatMap fun y ↦
    (List.range' x0.toNat (x1.toNat - x0.toNat)).map fun x ↦
      (2 * UInt64.ofNat y * ctx.width.toUInt64).toNat + (UInt64.ofNat x * 2).toNat

/-! ## What it should do

The specification: a cell is a set of pixels, it is emitted if it has pixels and their mean exceeds
the threshold, and the cells come row by row. -/

namespace V4l2Ctx

variable (ctx : V4l2Ctx) (raw : Bytes)

def rows : ℕ := (v4l2InfoFromCtx ctx).rows.toNat

def cols : ℕ := (v4l2InfoFromCtx ctx).cols.toNat

def pixels (rc : ℕ × ℕ) : Finset (ℕ × ℕ) :=
  cell ctx.height.toNat ctx.width.toNat ctx.rows ctx.cols rc.1 rc.2

/-- Where the luminance of a pixel is. -/
def offset (p : ℕ × ℕ) : ℕ := 2 * (p.1 * ctx.width.toNat + p.2)

def total (rc : ℕ × ℕ) : ℕ := ∑ p ∈ ctx.pixels rc, (raw.getD (ctx.offset p) 0).toNat

def blockMean (rc : ℕ × ℕ) : ℚ := ctx.total raw rc / (ctx.pixels rc).card

/-- The cells to emit, row by row. -/
def sites : List (ℕ × ℕ) :=
  (List.range ctx.rows ×ˢ List.range ctx.cols).filter fun rc ↦
    (ctx.pixels rc).Nonempty ∧ (ctx.cfg.threshold.toNat : ℚ) < ctx.blockMean raw rc

/-- The picture has pixels, and neither it nor the grid has 2^32. -/
structure Moderate : Prop where
  height : 0 < ctx.height.toNat
  width : 0 < ctx.width.toNat
  picture : ctx.width.toNat * ctx.height.toNat < 2 ^ 32
  grid : ctx.rows * ctx.cols < 2 ^ 32

/-- The address of no pixel wraps. -/
def Addressable : Prop := 2 * ctx.width.toNat * ctx.height.toNat ≤ 2 ^ 64

end V4l2Ctx

/-- `yuyv_to_sparse` is the thresholded block mean. -/
structure BlockMeans (ctx : V4l2Ctx) (raw : Bytes) (out : SparseFrame ℚ) : Prop where
  /-- Each pixel lies in one cell. -/
  partition : ∀ y < ctx.height.toNat, ∀ x < ctx.width.toNat,
    ∃! rc : ℕ × ℕ, rc.1 < ctx.rows ∧ rc.2 < ctx.cols ∧ (y, x) ∈ ctx.pixels rc
  /-- The loops over a cell add up its pixels and count them. -/
  summed : ∀ r < ctx.rows, ∀ c < ctx.cols,
    (cellSum ctx raw (.ofNat r) (.ofNat c)).1.toNat = ctx.total raw (r, c) ∧
      (cellSum ctx raw (.ofNat r) (.ofNat c)).2.toNat = (ctx.pixels (r, c)).card
  /-- In all, the luminance of each pixel is read once, and nothing else. -/
  reads : ((gridCells (v4l2InfoFromCtx ctx)).flatMap fun cell ↦ cellOffsets ctx cell.1 cell.2).Perm
    ((List.range ctx.height.toNat ×ˢ List.range ctx.width.toNat).map ctx.offset)
  inBuffer : ∀ cell ∈ gridCells (v4l2InfoFromCtx ctx), ∀ o ∈ cellOffsets ctx cell.1 cell.2,
    Even o ∧ o < raw.length
  noOverflow : (yuyvToSparseExact ctx raw out).1 = false
  count : (yuyvToSparseExact ctx raw out).2.1.toNat = (ctx.sites raw).length
  support : (yuyvToSparseExact ctx raw out).2.2.support.take (ctx.sites raw).length
    = (ctx.sites raw).map fun rc ↦ UInt32.ofNat (rc.1 * ctx.cols + rc.2)
  increasing : ((ctx.sites raw).map fun rc ↦ UInt32.ofNat (rc.1 * ctx.cols + rc.2)).Pairwise (· < ·)
  signal : (yuyvToSparseExact ctx raw out).2.2.signal.take (ctx.sites raw).length
    = (ctx.sites raw).map fun rc ↦ ctx.blockMean raw rc / 255

/-! ## The grid

A grid of zero rows or columns stands for one cell for each line or column of pixels. -/

section Grid

variable {ctx : V4l2Ctx}

theorem rows_eq (ctx : V4l2Ctx) :
    ctx.rows = if ctx.cfg.gridRows = 0 then ctx.height.toNat else ctx.cfg.gridRows.toNat := by
  rw [V4l2Ctx.rows, v4l2InfoFromCtx]
  simp only [ne_eq, ite_not]
  split_ifs
  · rfl
  · rfl

theorem cols_eq (ctx : V4l2Ctx) :
    ctx.cols = if ctx.cfg.gridCols = 0 then ctx.width.toNat else ctx.cfg.gridCols.toNat := by
  rw [V4l2Ctx.cols, v4l2InfoFromCtx]
  simp only [ne_eq, ite_not]
  split_ifs
  · rfl
  · rfl

theorem pos_of_ne_zero {n : UInt32} (h : n ≠ 0) : 0 < n.toNat :=
  Nat.pos_of_ne_zero fun hzero ↦ h (UInt32.toNat_inj.mp hzero)

private theorem rows_lt (ctx : V4l2Ctx) : ctx.rows < 2 ^ 32 := by
  rw [rows_eq]
  split_ifs
  · exact ctx.height.toNat_lt
  · exact ctx.cfg.gridRows.toNat_lt

private theorem cols_lt (ctx : V4l2Ctx) : ctx.cols < 2 ^ 32 := by
  rw [cols_eq]
  split_ifs
  · exact ctx.width.toNat_lt
  · exact ctx.cfg.gridCols.toNat_lt

theorem rows_pos (h : 0 < ctx.height.toNat) : 0 < ctx.rows := by
  rw [rows_eq]
  split_ifs with hzero
  · exact h
  · exact pos_of_ne_zero hzero

theorem cols_pos (h : 0 < ctx.width.toNat) : 0 < ctx.cols := by
  rw [cols_eq]
  split_ifs with hzero
  · exact h
  · exact pos_of_ne_zero hzero

theorem gridCells_eq (ctx : V4l2Ctx) : gridCells (v4l2InfoFromCtx ctx)
    = (List.range ctx.rows ×ˢ List.range ctx.cols).map fun rc ↦
      (UInt64.ofNat rc.1, UInt64.ofNat rc.2) := by
  change _ = ((List.range ctx.rows).flatMap _).map _
  rw [List.map_flatMap, gridCells]
  simp only [List.map_map]
  rfl

theorem mem_grid {n m : ℕ} {rc : ℕ × ℕ} :
    rc ∈ List.range n ×ˢ List.range m ↔ rc.1 < n ∧ rc.2 < m := by
  obtain ⟨r, c⟩ := rc
  exact List.mem_product.trans (and_congr List.mem_range List.mem_range)

/-- A block begins where the tiling says; the product does not wrap. -/
theorem toNat_blockStart {k : ℕ} {extent : UInt32} {parts : UInt64} (hk : k ≤ parts.toNat)
    (hparts : parts.toNat < 2 ^ 32) :
    (blockStart (.ofNat k) extent parts).toNat = start extent.toNat parts.toNat k := by
  have hextent := extent.toNat_lt
  have hprod : k * extent.toNat < 2 ^ 64 := by
    calc k * extent.toNat ≤ 2 ^ 32 * extent.toNat := Nat.mul_le_mul_right _ (by omega)
      _ < 2 ^ 32 * 2 ^ 32 := Nat.mul_lt_mul_of_pos_left hextent (by decide)
      _ = 2 ^ 64 := by norm_num
  have hofNat : (UInt64.ofNat k).toNat = k :=
    UInt64.toNat_ofNat_of_lt' (by change k < 2 ^ 64; omega)
  rw [blockStart, UInt64.toNat_div, UInt64.toNat_mul, hofNat, UInt32.toNat_toUInt64,
    Nat.mod_eq_of_lt hprod, start]

theorem V4l2Ctx.Moderate.addressable (h : ctx.Moderate) : ctx.Addressable := by
  have hpicture := h.picture
  rw [V4l2Ctx.Addressable, Nat.mul_assoc]
  omega

/-- The loops over a cell visit its pixels, row by row. -/
theorem cellOffsets_eq (h : ctx.Addressable) {r c : ℕ} (hr : r < ctx.rows) (hc : c < ctx.cols) :
    cellOffsets ctx (.ofNat r) (.ofNat c)
      = (cellList ctx.height.toNat ctx.width.toNat ctx.rows ctx.cols r c).map ctx.offset := by
  have hnext (k : ℕ) : UInt64.ofNat k + 1 = UInt64.ofNat (k + 1) := by
    rw [UInt64.ofNat_add]
    rfl
  have hrow {k : ℕ} (hk : k ≤ ctx.rows) : (blockStart (.ofNat k) ctx.height
      (v4l2InfoFromCtx ctx).rows).toNat = start ctx.height.toNat ctx.rows k :=
    toNat_blockStart hk (rows_lt ctx)
  have hcol {k : ℕ} (hk : k ≤ ctx.cols) : (blockStart (.ofNat k) ctx.width
      (v4l2InfoFromCtx ctx).cols).toNat = start ctx.width.toNat ctx.cols k :=
    toNat_blockStart hk (cols_lt ctx)
  change _ = ((blockList _ _ _).flatMap _).map _
  simp only [cellOffsets, hnext]
  rw [hrow (Nat.le_of_lt hr), hrow hr, hcol (Nat.le_of_lt hc), hcol hc, List.map_flatMap]
  refine List.flatMap_congr ?_
  intro y hy
  rw [List.map_map]
  refine List.map_congr_left ?_
  intro x hx
  -- the address of a pixel of the picture does not wrap
  have hy' : y < ctx.height.toNat := lt_extent_of_mem_block hr (mem_blockList.mp hy)
  have hx' : x < ctx.width.toNat := lt_extent_of_mem_block hc (mem_blockList.mp hx)
  have hheight := ctx.height.toNat_lt
  have hwidth := ctx.width.toNat_lt
  have hyw : 2 * (y * ctx.width.toNat) < 2 ^ 64 := by
    calc 2 * (y * ctx.width.toNat) < 2 * (y * ctx.width.toNat + ctx.width.toNat) := by omega
      _ = 2 * ((y + 1) * ctx.width.toNat) := by rw [Nat.succ_mul y]
      _ ≤ 2 * (ctx.height.toNat * ctx.width.toNat) :=
          Nat.mul_le_mul_left _ (Nat.mul_le_mul_right _ hy')
      _ = 2 * ctx.width.toNat * ctx.height.toNat := by
          rw [Nat.mul_comm ctx.height.toNat, Nat.mul_assoc]
      _ ≤ 2 ^ 64 := h
  have hofy : (UInt64.ofNat y).toNat = y :=
    UInt64.toNat_ofNat_of_lt' (by change y < 2 ^ 64; omega)
  have hofx : (UInt64.ofNat x).toNat = x :=
    UInt64.toNat_ofNat_of_lt' (by change x < 2 ^ 64; omega)
  have htwo : (2 : UInt64).toNat = 2 := rfl
  have hy2 : (2 * UInt64.ofNat y).toNat = 2 * y := by
    rw [UInt64.toNat_mul, hofy, htwo]
    exact Nat.mod_eq_of_lt (by omega)
  have hx2 : (UInt64.ofNat x * 2).toNat = 2 * x := by
    rw [UInt64.toNat_mul, hofx, htwo, Nat.mul_comm]
    exact Nat.mod_eq_of_lt (by omega)
  rw [hx2, UInt64.toNat_mul, hy2, UInt32.toNat_toUInt64, Nat.mul_assoc,
    Nat.mod_eq_of_lt hyw, Function.comp_apply, V4l2Ctx.offset, Nat.mul_add]

private theorem cellSamples_eq_map (ctx : V4l2Ctx) (raw : Bytes) (r c : UInt64) :
    cellSamples ctx raw r c = (cellOffsets ctx r c).map fun o ↦ raw.getD o 0 := by
  rw [cellSamples, cellOffsets, blockSamples]
  simp only [List.map_flatMap, List.map_map]
  rfl

/-! ## The sums -/

theorem card_pixels_le {r c : ℕ} (hr : r < ctx.rows) (hc : c < ctx.cols) :
    (ctx.pixels (r, c)).card ≤ ctx.width.toNat * ctx.height.toNat := by
  have hsub : ctx.pixels (r, c) ⊆
      Finset.range ctx.height.toNat ×ˢ Finset.range ctx.width.toNat := by
    intro p hp
    obtain ⟨hy, hx⟩ := lt_of_mem_cell hr hc hp
    exact Finset.mem_product.mpr ⟨Finset.mem_range.mpr hy, Finset.mem_range.mpr hx⟩
  have hcard := Finset.card_le_card hsub
  rw [Finset.card_product, Finset.card_range, Finset.card_range, Nat.mul_comm] at hcard
  exact hcard

theorem total_le (ctx : V4l2Ctx) (raw : Bytes) (rc : ℕ × ℕ) :
    ctx.total raw rc ≤ (ctx.pixels rc).card * 255 :=
  Finset.sum_le_card_nsmul _ _ 255 fun _ _ ↦ Nat.le_of_lt_succ (UInt8.toNat_lt _)

theorem cellSum_eq_total (h : ctx.Addressable) (raw : Bytes) {r c : ℕ} (hr : r < ctx.rows)
    (hc : c < ctx.cols) : cellSum ctx raw (.ofNat r) (.ofNat c)
      = (UInt64.ofNat (ctx.total raw (r, c)), UInt32.ofNat (ctx.pixels (r, c)).card) := by
  rw [cellSum_eq, cellSamples_eq_map, cellOffsets_eq h hr hc, List.map_map, List.map_map,
    sum_cellList, List.length_map, List.length_map, length_cellList]
  rfl

/-- Neither the sum nor the number of the samples wraps. -/
theorem cellSum_toNat (h : ctx.Moderate) (raw : Bytes) {r c : ℕ} (hr : r < ctx.rows)
    (hc : c < ctx.cols) :
    (cellSum ctx raw (.ofNat r) (.ofNat c)).1.toNat = ctx.total raw (r, c) ∧
      (cellSum ctx raw (.ofNat r) (.ofNat c)).2.toNat = (ctx.pixels (r, c)).card := by
  have hcard := (card_pixels_le hr hc).trans_lt h.picture
  have htotal := total_le ctx raw (r, c)
  rw [cellSum_eq_total h.addressable raw hr hc]
  refine ⟨UInt64.toNat_ofNat_of_lt' ?_, UInt32.toNat_ofNat_of_lt' hcard⟩
  change ctx.total raw (r, c) < 2 ^ 64
  omega

theorem cellMeanWith_eq {α : Type} (A : CellArith α) (h : ctx.Addressable) (raw : Bytes) {r c : ℕ}
    (hr : r < ctx.rows) (hc : c < ctx.cols) (hcard : (ctx.pixels (r, c)).card < 2 ^ 32) :
    cellMeanWith A ctx raw (.ofNat r) (.ofNat c) =
      if (ctx.pixels (r, c)).Nonempty then
        some (A.mean (.ofNat (ctx.total raw (r, c))) (.ofNat (ctx.pixels (r, c)).card))
      else none := by
  have hzero : UInt32.ofNat (ctx.pixels (r, c)).card = 0 ↔ ¬(ctx.pixels (r, c)).Nonempty := by
    rw [Finset.not_nonempty_iff_eq_empty, ← Finset.card_eq_zero, ← UInt32.toNat_inj,
      UInt32.toNat_ofNat_of_lt' hcard]
    rfl
  rw [cellMeanWith, cellSum_eq_total h raw hr hc]
  simp only [hzero, ite_not]

/-- The value of a cell is its mean, if there is one and it is above the threshold. -/
theorem cellValueWith_exact (h : ctx.Moderate) (raw : Bytes) {r c : ℕ} (hr : r < ctx.rows)
    (hc : c < ctx.cols) : cellValueWith exactArith ctx raw (.ofNat r) (.ofNat c) =
      if (ctx.pixels (r, c)).Nonempty ∧ (ctx.cfg.threshold.toNat : ℚ) < ctx.blockMean raw (r, c)
      then some (ctx.blockMean raw (r, c)) else none := by
  have hcard := (card_pixels_le hr hc).trans_lt h.picture
  have hmean : exactArith.mean (.ofNat (ctx.total raw (r, c))) (.ofNat (ctx.pixels (r, c)).card)
      = ctx.blockMean raw (r, c) := by
    obtain ⟨hsum, hnumber⟩ := cellSum_toNat h raw hr hc
    rw [cellSum_eq_total h.addressable raw hr hc] at hsum hnumber
    simp only at hsum hnumber
    simp only [exactArith, hsum, hnumber, V4l2Ctx.blockMean]
  have hle : exactArith.le (ctx.blockMean raw (r, c)) ctx.cfg.threshold = true ↔
      ¬(ctx.cfg.threshold.toNat : ℚ) < ctx.blockMean raw (r, c) :=
    decide_eq_true_iff.trans not_lt.symm
  rw [cellValueWith_eq_bind, cellMeanWith_eq exactArith h.addressable raw hr hc hcard, hmean,
    ite_and]
  by_cases hpixels : (ctx.pixels (r, c)).Nonempty
  · simp only [if_pos hpixels, Option.bind_some, hle, ite_not]
  · simp only [if_neg hpixels, Option.bind_none]

/-! ## The sites -/

private theorem filterMap_ite_eq {α β : Type*} {p : α → Bool} {f : α → β} (l : List α) :
    l.filterMap (fun a ↦ if p a = true then some (f a) else none) = (l.filter p).map f := by
  induction l with
  | nil => rfl
  | cons a l ih =>
    by_cases ha : p a = true
    · simp only [List.filterMap_cons, if_pos ha, List.filter_cons_of_pos ha, List.map_cons, ih]
    · simp only [List.filterMap_cons, if_neg ha, List.filter_cons_of_neg ha, ih]

theorem siteIndex_eq (ctx : V4l2Ctx) (r c : ℕ) :
    (UInt64.ofNat r * (v4l2InfoFromCtx ctx).cols + UInt64.ofNat c).toUInt32
      = UInt32.ofNat (r * ctx.cols + c) := by
  have hcols : (v4l2InfoFromCtx ctx).cols = UInt64.ofNat ctx.cols := UInt64.ofNat_toNat.symm
  rw [hcols, ← UInt64.ofNat_mul, ← UInt64.ofNat_add]
  exact UInt64.toUInt32_ofNat' _

theorem litCellsWith_exact (h : ctx.Moderate) (raw : Bytes) :
    litCellsWith exactArith ctx raw (gridCells (v4l2InfoFromCtx ctx)) = (ctx.sites raw).map
      fun rc ↦ (UInt32.ofNat (rc.1 * ctx.cols + rc.2), ctx.blockMean raw rc) := by
  rw [litCellsWith, gridCells_eq, List.filterMap_map, V4l2Ctx.sites, ← filterMap_ite_eq]
  refine List.filterMap_congr ?_
  rintro ⟨r, c⟩ hrc
  obtain ⟨hr, hc⟩ := mem_grid.mp hrc
  rw [Function.comp_apply]
  simp only [decide_eq_true_iff]
  rw [cellValueWith_exact h raw hr hc, siteIndex_eq]
  split_ifs
  · rfl
  · rfl

private theorem map_siteIndex_sublist (ctx : V4l2Ctx) (raw : Bytes) :
    ((ctx.sites raw).map fun rc ↦ rc.1 * ctx.cols + rc.2).Sublist
      (List.range (ctx.rows * ctx.cols)) := by
  rw [← map_index_product]
  exact List.filter_sublist.map _

theorem length_sites_le (ctx : V4l2Ctx) (raw : Bytes) :
    (ctx.sites raw).length ≤ ctx.rows * ctx.cols := by
  have hle := (map_siteIndex_sublist ctx raw).length_le
  rw [List.length_map, List.length_range] at hle
  exact hle

private theorem sites_increasing (h : ctx.Moderate) (raw : Bytes) :
    ((ctx.sites raw).map fun rc ↦ UInt32.ofNat (rc.1 * ctx.cols + rc.2)).Pairwise (· < ·) := by
  have hsub := map_siteIndex_sublist ctx raw
  have hbound : ∀ i ∈ (ctx.sites raw).map fun rc ↦ rc.1 * ctx.cols + rc.2, i < 2 ^ 32 := by
    intro i hi
    exact (List.mem_range.mp (hsub.subset hi)).trans h.grid
  have hsorted := List.Pairwise.sublist hsub List.pairwise_lt_range
  have hmap : (ctx.sites raw).map (fun rc ↦ UInt32.ofNat (rc.1 * ctx.cols + rc.2))
      = ((ctx.sites raw).map fun rc ↦ rc.1 * ctx.cols + rc.2).map UInt32.ofNat := by
    rw [List.map_map]
    rfl
  rw [hmap, List.pairwise_map]
  refine hsorted.imp_of_mem ?_
  intro i j hi hj hlt
  rw [UInt32.lt_iff_toNat_lt, UInt32.toNat_ofNat_of_lt' (hbound i hi),
    UInt32.toNat_ofNat_of_lt' (hbound j hj)]
  exact hlt

/-! ## The reads

Each sample lies at an even position in the buffer. As the rectangles tile the picture, the loops
read each of these positions once. -/

theorem offset_lt {p : ℕ × ℕ} (hy : p.1 < ctx.height.toNat) (hx : p.2 < ctx.width.toNat) :
    ctx.offset p < 2 * ctx.width.toNat * ctx.height.toNat := by
  have hindex : p.1 * ctx.width.toNat + p.2 < ctx.width.toNat * ctx.height.toNat := by
    calc p.1 * ctx.width.toNat + p.2 < p.1 * ctx.width.toNat + ctx.width.toNat :=
          Nat.add_lt_add_left hx _
      _ = (p.1 + 1) * ctx.width.toNat := (Nat.succ_mul _ _).symm
      _ ≤ ctx.height.toNat * ctx.width.toNat := Nat.mul_le_mul_right _ hy
      _ = ctx.width.toNat * ctx.height.toNat := Nat.mul_comm _ _
  rw [V4l2Ctx.offset, Nat.mul_assoc]
  omega

private theorem cellOffsets_inBuffer (h : ctx.Moderate) {r c : ℕ} (hr : r < ctx.rows)
    (hc : c < ctx.cols) :
    ∀ o ∈ cellOffsets ctx (.ofNat r) (.ofNat c),
      Even o ∧ o < 2 * ctx.width.toNat * ctx.height.toNat := by
  intro o ho
  rw [cellOffsets_eq h.addressable hr hc] at ho
  obtain ⟨p, hp, rfl⟩ := List.mem_map.mp ho
  obtain ⟨hy, hx⟩ := lt_of_mem_cell hr hc (mem_cellList.mp hp)
  exact ⟨even_two_mul _, offset_lt hy hx⟩

/-- The whole run reads the luminance of each pixel once. -/
theorem cellOffsets_perm (h : ctx.Moderate) :
    ((gridCells (v4l2InfoFromCtx ctx)).flatMap fun cell ↦ cellOffsets ctx cell.1 cell.2).Perm
      ((List.range ctx.height.toNat ×ˢ List.range ctx.width.toNat).map ctx.offset) := by
  have hcells : ((gridCells (v4l2InfoFromCtx ctx)).flatMap fun cell ↦
      cellOffsets ctx cell.1 cell.2) = ((List.range ctx.rows ×ˢ List.range ctx.cols).flatMap
        fun rc ↦ cellList ctx.height.toNat ctx.width.toNat ctx.rows ctx.cols rc.1 rc.2).map
          ctx.offset := by
    rw [gridCells_eq, List.flatMap_map, List.map_flatMap]
    refine List.flatMap_congr ?_
    intro rc hrc
    exact cellOffsets_eq h.addressable (mem_grid.mp hrc).1 (mem_grid.mp hrc).2
  rw [hcells]
  exact (cells_perm (rows_pos h.height) (cols_pos h.width)).map _

end Grid

/-! ## What it does -/

/-- **`yuyv_to_sparse` is the thresholded block mean**, for every picture, every grid and every
frame with room for the grid. -/
theorem blockMeans {ctx : V4l2Ctx} {raw : Bytes} {out : SparseFrame ℚ} (h : ctx.Moderate)
    (hraw : raw.length = 2 * ctx.width.toNat * ctx.height.toNat) (hsized : out.Sized)
    (hroom : ctx.rows * ctx.cols ≤ out.capacity.toNat) : BlockMeans ctx raw out := by
  have hlit := litCellsWith_exact h raw
  have hfits := (length_sites_le ctx raw).trans hroom
  have hzero : (0 : UInt32).toNat = 0 := rfl
  obtain ⟨hover, hcount, hframe⟩ := @fillCellsWith_eq _ exactArith ctx raw
    (gridCells (v4l2InfoFromCtx ctx)) 0 out hsized UInt32.zero_le
  -- there is room for all sites
  have hall : (litCellsWith exactArith ctx raw (gridCells (v4l2InfoFromCtx ctx))).take
      out.capacity.toNat = (ctx.sites raw).map
        fun rc ↦ (UInt32.ofNat (rc.1 * ctx.cols + rc.2), ctx.blockMean raw rc) := by
    rw [hlit, List.take_of_length_le (by rw [List.length_map]; exact hfits)]
  rw [hzero, Nat.sub_zero, hlit, List.length_map] at hover
  rw [hzero, Nat.sub_zero, Nat.zero_add, hall, List.length_map] at hcount
  rw [hzero, Nat.sub_zero, hall, List.map_map, List.map_map] at hframe
  refine ⟨?_, ?_, cellOffsets_perm h, ?_, ?_, hcount, ?_, sites_increasing h raw, ?_⟩
  · intro y hy x hx
    exact existsUnique_cell (rows_pos h.height) (cols_pos h.width) hy hx
  · intro r hr c hc
    exact cellSum_toNat h raw hr hc
  · rw [gridCells_eq, List.forall_mem_map, hraw]
    intro rc hrc
    exact cellOffsets_inBuffer h (mem_grid.mp hrc).1 (mem_grid.mp hrc).2
  · exact Bool.eq_false_iff.mpr fun htrue ↦ absurd (hover.mp htrue) (not_lt.mpr hfits)
  · have htake := take_overwrite_zero out.support
      ((ctx.sites raw).map fun rc ↦ UInt32.ofNat (rc.1 * ctx.cols + rc.2))
    rw [List.length_map] at htake
    rw [yuyvToSparseExact, hframe]
    exact htake
  · have htake := take_overwrite_zero out.signal
      ((ctx.sites raw).map fun rc ↦ ctx.blockMean raw rc / 255)
    rw [List.length_map] at htake
    rw [yuyvToSparseExact, hframe]
    exact htake

/-- A picture of two rows and three columns, with a grid of two columns. -/
def unevenCtx : V4l2Ctx :=
  { v4l2CtxCreate
      { device := []
        width := 3
        height := 2
        gridRows := 0
        gridCols := 2
        nBuffers := 2
        timeoutMs := 0
        threshold := 32 } with
    width := 3
    height := 2 }

theorem blockMeans_uneven :
    BlockMeans unevenCtx [10, 128, 20, 128, 30, 128, 40, 128, 50, 128, 60, 128]
      ⟨4, [0, 0, 0, 0], [0, 0, 0, 0]⟩ :=
  blockMeans ⟨by decide, by decide, by decide, by decide⟩ rfl ⟨by decide, by decide⟩ (by decide)

end SparseCamera
