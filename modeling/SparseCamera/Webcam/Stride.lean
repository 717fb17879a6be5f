import SparseCamera.Webcam.BlockMean

/-!
# The stride of the driver

A driver may end every line of a picture with padding. How many bytes a line takes is one of the
things `VIDIOC_S_FMT` fills in, but `v4l2_set_fmt` takes over the width and the height only, and
`yuyv_to_sparse` goes on as if a line took two bytes for each of its pixels.

So the first line is read as it is, and from then on each line is read too early by the padding of
those above it. The luminance of the last pixel is not read at all.

## The construction

Two layouts are compared: where the driver puts a pixel, and where the program looks for it. If
lines are padded, the last pixel lies behind everything the program reads. So a picture that is dark
but for that pixel tells the two apart, whatever the grid. If they are not padded, the layouts
agree, and what is left is whether the program can count the pixels of a cell.
-/

namespace SparseCamera

open Tiling

/-- The format a driver settles on, with the number of bytes a line takes. -/
structure DriverFormat extends V4l2PixFormat where
  bytesperline : UInt32
  /-- A line has room for its pixels. -/
  room : 2 * width.toNat ≤ bytesperline.toNat

namespace DriverFormat

variable (fmt : DriverFormat)

/-- Where the driver puts the luminance of a pixel. -/
def offset (p : ℕ × ℕ) : ℕ := p.1 * fmt.bytesperline.toNat + 2 * p.2

def size : ℕ := fmt.bytesperline.toNat * fmt.height.toNat

/-- The sum of the luminances of some pixels. -/
def total (raw : Bytes) (pixels : Finset (ℕ × ℕ)) : ℕ :=
  ∑ p ∈ pixels, (raw.getD (fmt.offset p) 0).toNat

end DriverFormat

/-- **The values of the cells are the means of what the driver delivered**, the exact ones and, but
for rounding, those of the program. -/
structure ReadsDriver (fmt : DriverFormat) (ctx : V4l2Ctx) (raw : Bytes) : Prop where
  mean : ∀ r < ctx.rows, ∀ c < ctx.cols,
    cellMeanWith exactArith ctx raw (.ofNat r) (.ofNat c) =
      if (ctx.pixels (r, c)).Nonempty then
        some ((fmt.total raw (ctx.pixels (r, c)) : ℚ) / (ctx.pixels (r, c)).card)
      else none
  float : ∀ r < ctx.rows, ∀ c < ctx.cols,
    cellMeanWith floatArith ctx raw (.ofNat r) (.ofNat c) =
      if (ctx.pixels (r, c)).Nonempty then
        some (Binary32.div (.ofNat (fmt.total raw (ctx.pixels (r, c))))
          (.ofNat (ctx.pixels (r, c)).card))
      else none

/-! ## The layout of the program -/

section Layout

variable {fmt : DriverFormat} {ctx₀ ctx : V4l2Ctx} {raw : Bytes}

private theorem v4l2SetFmt_zero {pix : V4l2PixFormat} (h : v4l2SetFmt (some pix) ctx₀ = (0, ctx)) :
    ctx.width = pix.width ∧ ctx.height = pix.height := by
  rw [v4l2SetFmt] at h
  split_ifs at h
  · exact absurd (Prod.mk.inj h).1 (by decide)
  · obtain rfl := (Prod.mk.inj h).2
    exact ⟨rfl, rfl⟩

/-- A line has fewer than `2 ^ 32` bytes, so no address of a pixel wraps. -/
theorem addressable_of_room (hwidth : ctx.width = fmt.width) : ctx.Addressable := by
  have hroom := fmt.room
  have hline := fmt.bytesperline.toNat_lt
  rw [V4l2Ctx.Addressable, hwidth]
  calc 2 * fmt.width.toNat * ctx.height.toNat ≤ 2 ^ 32 * 2 ^ 32 :=
        Nat.mul_le_mul (hroom.trans hline.le) ctx.height.toNat_lt.le
    _ = 2 ^ 64 := by norm_num

private theorem readsDriver_of_offset (h : ctx.Addressable)
    (hoffset : ∀ p : ℕ × ℕ, p.1 < ctx.height.toNat → p.2 < ctx.width.toNat →
      ctx.offset p = fmt.offset p)
    (hcard : ∀ r < ctx.rows, ∀ c < ctx.cols, (ctx.pixels (r, c)).card < 2 ^ 32) (raw : Bytes) :
    ReadsDriver fmt ctx raw := by
  have htotal {r c : ℕ} (hr : r < ctx.rows) (hc : c < ctx.cols) :
      ctx.total raw (r, c) = fmt.total raw (ctx.pixels (r, c)) := by
    refine Finset.sum_congr rfl fun p hp ↦ ?_
    obtain ⟨hy, hx⟩ := lt_of_mem_cell hr hc hp
    rw [hoffset p hy hx]
  have hsum {r c : ℕ} (hr : r < ctx.rows) (hc : c < ctx.cols) :
      (UInt64.ofNat (ctx.total raw (r, c))).toNat = fmt.total raw (ctx.pixels (r, c)) := by
    have hle := total_le ctx raw (r, c)
    have hlt := hcard r hr c hc
    rw [UInt64.toNat_ofNat_of_lt' (by change ctx.total raw (r, c) < 2 ^ 64; omega), htotal hr hc]
  refine ⟨fun r hr c hc ↦ ?_, fun r hr c hc ↦ ?_⟩
  · rw [cellMeanWith_eq exactArith h raw hr hc (hcard r hr c hc)]
    simp only [exactArith, hsum hr hc, UInt32.toNat_ofNat_of_lt' (hcard r hr c hc)]
  · rw [cellMeanWith_eq floatArith h raw hr hc (hcard r hr c hc)]
    simp only [floatArith, cellMean, hsum hr hc, UInt32.toNat_ofNat_of_lt' (hcard r hr c hc)]

/-! ## A padded line -/

/-- With padding, and a second line, no pixel is read as far back as the last one lies. -/
theorem offset_lt_last (hwidth : ctx.width = fmt.width) (hheight : ctx.height = fmt.height)
    (hpadded : 2 * fmt.width.toNat < fmt.bytesperline.toNat) (hlines : 1 < fmt.height.toNat)
    {p : ℕ × ℕ} (hy : p.1 < ctx.height.toNat) (hx : p.2 < ctx.width.toNat) :
    ctx.offset p < fmt.offset (fmt.height.toNat - 1, fmt.width.toNat - 1) := by
  rw [hheight] at hy
  rw [hwidth] at hx
  calc ctx.offset p = 2 * (p.1 * fmt.width.toNat + p.2) := by rw [V4l2Ctx.offset, hwidth]
    _ ≤ 2 * ((fmt.height.toNat - 1) * fmt.width.toNat + (fmt.width.toNat - 1)) :=
        Nat.mul_le_mul_left _ (Nat.add_le_add
          (Nat.mul_le_mul_right _ (Nat.le_sub_one_of_lt hy)) (Nat.le_sub_one_of_lt hx))
    _ = (fmt.height.toNat - 1) * (2 * fmt.width.toNat) + 2 * (fmt.width.toNat - 1) := by
        rw [Nat.mul_add, Nat.mul_left_comm]
    _ < (fmt.height.toNat - 1) * fmt.bytesperline.toNat + 2 * (fmt.width.toNat - 1) :=
        Nat.add_lt_add_right
          (Nat.mul_lt_mul_of_pos_left hpadded (Nat.sub_pos_of_lt hlines)) _

private theorem offset_last_lt (hwidth : 0 < fmt.width.toNat) (hheight : 0 < fmt.height.toNat) :
    fmt.offset (fmt.height.toNat - 1, fmt.width.toNat - 1) < fmt.size := by
  have hroom := fmt.room
  calc (fmt.height.toNat - 1) * fmt.bytesperline.toNat + 2 * (fmt.width.toNat - 1)
      < (fmt.height.toNat - 1) * fmt.bytesperline.toNat + fmt.bytesperline.toNat := by omega
    _ = (fmt.height.toNat - 1 + 1) * fmt.bytesperline.toNat := (Nat.succ_mul _ _).symm
    _ = fmt.size := by rw [Nat.sub_add_cancel hheight, DriverFormat.size, Nat.mul_comm]

/-- A picture that is dark except for its last pixel. -/
def lastLit (fmt : DriverFormat) : Bytes :=
  (List.replicate fmt.size 0).set (fmt.offset (fmt.height.toNat - 1, fmt.width.toNat - 1)) 255

private theorem not_readsDriver_lastLit
    (hset : v4l2SetFmt (some fmt.toV4l2PixFormat) ctx₀ = (0, ctx))
    (hpadded : 2 * fmt.width.toNat < fmt.bytesperline.toNat) (hlines : 1 < fmt.height.toNat)
    (hpixels : 0 < fmt.width.toNat) : ¬ReadsDriver fmt ctx (lastLit fmt) := by
  intro hreads
  obtain ⟨hwidth, hheight⟩ := v4l2SetFmt_zero hset
  have hlines' : 0 < fmt.height.toNat := Nat.zero_lt_of_lt hlines
  have haddr : ctx.Addressable := addressable_of_room hwidth
  -- the cell of the last pixel
  obtain ⟨⟨r, c⟩, ⟨hr, hc, hlast⟩, -⟩ := @existsUnique_cell ctx.height.toNat ctx.width.toNat
    ctx.rows ctx.cols (rows_pos (hheight ▸ hlines')) (cols_pos (hwidth ▸ hpixels))
    (fmt.height.toNat - 1, fmt.width.toNat - 1)
    (by rw [hheight]; exact Nat.sub_lt hlines' Nat.one_pos)
    (by rw [hwidth]; exact Nat.sub_lt hpixels Nat.one_pos)
  have hdark : ctx.total (lastLit fmt) (r, c) = 0 := by
    refine Finset.sum_eq_zero fun p hp ↦ ?_
    obtain ⟨hy, hx⟩ := lt_of_mem_cell hr hc hp
    have hne := (offset_lt_last hwidth hheight hpadded hlines hy hx).ne
    rw [lastLit, List.getD_eq_getElem?_getD, List.getElem?_set_ne hne.symm,
      List.getElem?_replicate]
    split_ifs <;> rfl
  have hlit : 0 < fmt.total (lastLit fmt) (ctx.pixels (r, c)) := by
    refine Finset.sum_pos' (fun _ _ ↦ Nat.zero_le _) ⟨_, hlast, ?_⟩
    rw [lastLit, List.getD_eq_getElem?_getD, List.getElem?_set_self (by
      rw [List.length_replicate]; exact offset_last_lt hpixels hlines')]
    decide
  have hmean := hreads.mean r hr c hc
  rw [if_pos ⟨_, hlast⟩, cellMeanWith, cellSum_eq_total haddr _ hr hc, hdark] at hmean
  simp only at hmean
  split_ifs at hmean
  have hzero : (0 : ℚ)
      = fmt.total (lastLit fmt) (ctx.pixels (r, c)) / (ctx.pixels (r, c)).card := by
    rw [← Option.some.inj hmean]
    exact (zero_div _).symm
  have hcard := Finset.card_ne_zero_of_mem hlast
  exact div_ne_zero (Nat.cast_ne_zero.mpr hlit.ne') (Nat.cast_ne_zero.mpr hcard) hzero.symm

/-! ## A cell too large to count

The count has 32 bits. It wraps to less than there are, and the mean comes out too large, or it
wraps to zero and the cell is taken for an empty one. -/

private theorem offset_of_unpadded (hwidth : ctx.width = fmt.width)
    (hline : fmt.bytesperline.toNat = 2 * fmt.width.toNat) (p : ℕ × ℕ) :
    ctx.offset p = fmt.offset p := by
  rw [DriverFormat.offset, V4l2Ctx.offset, hline, hwidth, Nat.mul_add, Nat.mul_left_comm]

private theorem total_ones (hwidth : ctx.width = fmt.width) (hheight : ctx.height = fmt.height)
    (hline : fmt.bytesperline.toNat = 2 * fmt.width.toNat) {r c : ℕ} (hr : r < ctx.rows)
    (hc : c < ctx.cols) :
    ctx.total (List.replicate fmt.size 1) (r, c) = (ctx.pixels (r, c)).card := by
  rw [V4l2Ctx.total, Finset.card_eq_sum_ones]
  refine Finset.sum_congr rfl fun p hp ↦ ?_
  obtain ⟨hy, hx⟩ := lt_of_mem_cell hr hc hp
  have hlt : ctx.offset p < fmt.size := by
    rw [DriverFormat.size, hline, ← hwidth, ← hheight]
    exact offset_lt hy hx
  rw [List.getD_eq_getElem?_getD, List.getElem?_replicate, if_pos hlt]
  rfl

/-- The number of pixels wraps and the mean is too large, or the cell is taken for an empty one. -/
theorem not_readsDriver_ones (hset : v4l2SetFmt (some fmt.toV4l2PixFormat) ctx₀ = (0, ctx))
    (hline : fmt.bytesperline.toNat = 2 * fmt.width.toNat) {r c : ℕ} (hr : r < ctx.rows)
    (hc : c < ctx.cols) (hcard : 2 ^ 32 ≤ (ctx.pixels (r, c)).card) :
    ¬ReadsDriver fmt ctx (List.replicate fmt.size 1) := by
  intro hreads
  obtain ⟨hwidth, hheight⟩ := v4l2SetFmt_zero hset
  have haddr : ctx.Addressable := addressable_of_room hwidth
  have htotal := total_ones hwidth hheight hline hr hc
  have hdriver : fmt.total (List.replicate fmt.size 1) (ctx.pixels (r, c))
      = (ctx.pixels (r, c)).card := by
    rw [← htotal]
    exact Finset.sum_congr rfl fun p _ ↦ by rw [offset_of_unpadded hwidth hline]
  have hpos : 0 < (ctx.pixels (r, c)).card := Nat.lt_of_lt_of_le (by decide) hcard
  have hlarge : (ctx.pixels (r, c)).card < 2 ^ 64 := by
    have hle := card_pixels_le hr hc
    rw [V4l2Ctx.Addressable, Nat.mul_assoc] at haddr
    omega
  have hmean := hreads.mean r hr c hc
  rw [if_pos (Finset.card_pos.mp hpos), cellMeanWith, cellSum_eq_total haddr _ hr hc, htotal,
    hdriver] at hmean
  generalize (ctx.pixels (r, c)).card = k at hcard hpos hlarge hmean
  simp only at hmean
  split_ifs at hmean
  have hone : (k : ℚ) / (k % 2 ^ 32 : ℕ) = 1 := by
    calc (k : ℚ) / (k % 2 ^ 32 : ℕ) = exactArith.mean (.ofNat k) (.ofNat k) := by
          simp only [exactArith, UInt64.toNat_ofNat_of_lt' hlarge, UInt32.toNat_ofNat']
      _ = k / k := Option.some.inj hmean
      _ = 1 := div_self (Nat.cast_ne_zero.mpr hpos.ne')
  have hne : ((k % 2 ^ 32 : ℕ) : ℚ) ≠ 0 := by
    intro hzero
    rw [hzero, div_zero] at hone
    exact zero_ne_one hone
  have hwrap : k = k % 2 ^ 32 := Nat.cast_injective ((div_eq_one_iff_eq hne).mp hone)
  omega

end Layout

/-! ## Which formats are read -/

/-- **The formats that are read as the driver delivers them**: those without padding, as long as no
cell has `2 ^ 32` pixels, and those where no line follows another. -/
theorem readsDriver_iff (fmt : DriverFormat) {ctx₀ ctx : V4l2Ctx}
    (hset : v4l2SetFmt (some fmt.toV4l2PixFormat) ctx₀ = (0, ctx)) :
    (∀ raw : Bytes, raw.length = fmt.size → ReadsDriver fmt ctx raw) ↔
      fmt.width = 0 ∨ fmt.height ≤ 1 ∨
        (fmt.bytesperline.toNat = 2 * fmt.width.toNat ∧
          ∀ r < ctx.rows, ∀ c < ctx.cols, (ctx.pixels (r, c)).card < 2 ^ 32) := by
  obtain ⟨hwidth, hheight⟩ := v4l2SetFmt_zero hset
  have haddr : ctx.Addressable := addressable_of_room hwidth
  constructor
  · intro hreads
    by_contra hbad
    obtain ⟨hpixels, hbad⟩ := not_or.mp hbad
    obtain ⟨hlines, hbad⟩ := not_or.mp hbad
    by_cases hline : fmt.bytesperline.toNat = 2 * fmt.width.toNat
    · obtain ⟨r, hr, c, hc, hcard⟩ : ∃ r < ctx.rows, ∃ c < ctx.cols,
          2 ^ 32 ≤ (ctx.pixels (r, c)).card := by
        by_contra hnone
        refine hbad ⟨hline, fun r hr c hc ↦ ?_⟩
        by_contra hcard
        exact hnone ⟨r, hr, c, hc, not_lt.mp hcard⟩
      exact not_readsDriver_ones hset hline hr hc hcard (hreads _ (by simp))
    · refine not_readsDriver_lastLit hset (lt_of_le_of_ne fmt.room (Ne.symm hline)) ?_
        (pos_of_ne_zero hpixels) (hreads _ ?_)
      · exact UInt32.lt_iff_toNat_lt.mp (UInt32.not_le.mp hlines)
      · rw [lastLit, List.length_set, List.length_replicate]
  · rintro hgood raw -
    rcases hgood with hpixels | hlines | ⟨hline, hcard⟩
    · -- no cell has a pixel
      have hpixels' : ctx.width.toNat = 0 := by rw [hwidth, hpixels]; rfl
      refine readsDriver_of_offset haddr (fun p _ hx ↦ ?_) (fun r hr c hc ↦ ?_) raw
      · rw [hpixels'] at hx
        exact absurd hx (Nat.not_lt_zero _)
      · have hle := card_pixels_le hr hc
        rw [hpixels', Nat.zero_mul] at hle
        omega
    · -- every pixel is in the first line
      have hlines' : ctx.height.toNat ≤ 1 := by
        rw [hheight]
        exact UInt32.le_iff_toNat_le.mp hlines
      refine readsDriver_of_offset haddr (fun p hy _ ↦ ?_) (fun r hr c hc ↦ ?_) raw
      · have hfirst : p.1 = 0 := by omega
        rw [DriverFormat.offset, V4l2Ctx.offset, hfirst, Nat.zero_mul, Nat.zero_mul, Nat.zero_add,
          Nat.zero_add]
      · calc (ctx.pixels (r, c)).card ≤ ctx.width.toNat * ctx.height.toNat := card_pixels_le hr hc
          _ ≤ ctx.width.toNat * 1 := Nat.mul_le_mul_left _ hlines'
          _ = ctx.width.toNat := Nat.mul_one _
          _ < 2 ^ 32 := ctx.width.toNat_lt
    · exact readsDriver_of_offset haddr (fun p _ _ ↦ offset_of_unpadded hwidth hline p) hcard raw

/-- A camera that is to give two lines of two pixels, without a grid. -/
def fourPixelCtx : V4l2Ctx :=
  v4l2CtxCreate
    { device := []
      width := 2
      height := 2
      gridRows := 0
      gridCols := 0
      nBuffers := 2
      timeoutMs := 0
      threshold := 0 }

/-- The driver gives them, in lines of so many bytes. -/
def fourPixelFormat (bytesperline : UInt32) (room : 4 ≤ bytesperline.toNat) : DriverFormat where
  width := 2
  height := 2
  pixelformat := v4l2PixFmtYuyv
  bytesperline := bytesperline
  room := room

def fourPixels : V4l2Ctx :=
  { fourPixelCtx with
    width := 2
    height := 2
    pixelformat := v4l2PixFmtYuyv }

theorem readsDriver_unpadded : ReadsDriver (fourPixelFormat 4 (by decide)) fourPixels
    [10, 128, 20, 128, 30, 128, 40, 128] := by
  refine (@readsDriver_iff _ fourPixelCtx fourPixels rfl).mpr (Or.inr (Or.inr ⟨rfl, ?_⟩)) _ rfl
  intro r hr c hc
  exact (card_pixels_le hr hc).trans_lt (by decide)

/-- With two bytes of padding behind each line, the third pixel is taken to be the padding of the
first line. -/
theorem not_readsDriver_padded :
    v4l2SetFmt (some (fourPixelFormat 6 (by decide)).toV4l2PixFormat) fourPixelCtx
        = (0, fourPixels) ∧
      cellMeanWith exactArith fourPixels [10, 128, 20, 128, 0, 0, 30, 128, 40, 128, 0, 0] 1 0
        = some 0 ∧
      (fourPixelFormat 6 (by decide)).total [10, 128, 20, 128, 0, 0, 30, 128, 40, 128, 0, 0]
        (fourPixels.pixels (1, 0)) = 30 ∧
      (fourPixelFormat 6 (by decide)).size = 12 ∧
      ¬ReadsDriver (fourPixelFormat 6 (by decide)) fourPixels
        [10, 128, 20, 128, 0, 0, 30, 128, 40, 128, 0, 0] := by
  refine ⟨rfl, by decide +kernel, by decide +kernel, rfl, fun hreads ↦ ?_⟩
  have hmean := hreads.mean 1 (by decide) 0 (by decide)
  revert hmean
  decide +kernel

end SparseCamera
