import SparseCamera.Lib.Pointwise
import SparseCamera.Lib.RelativeError
import SparseCamera.Webcam.BlockMean
import SparseCamera.Webcam.Signal

/-!
# The block means in `float`

The loop over the cells runs on `float`. The sum, the number, their quotient and what it is divided
by 255 are rounded, and the rounded mean is what is compared with the threshold. If no cell has more
than 65793 pixels, the sum and the number are not rounded at all, and then the rounding of the
quotient never moves it across the threshold, which is an integer. So the program emits the cells it
should, and each value is off by the error of two roundings.

## The construction

65793 is the largest number of pixels of which the sum, 255 at most for each, has 24 bits. Then the
numerator, the denominator and their comparison with the threshold are exact, and only the quotient
is rounded (`roundBits_div_le_iff`). The stored value goes through one more division, and the two
errors add up (`CloseTo.trans`).
-/

namespace SparseCamera

open Binary32 Memory

/-- No cell has so many pixels that its sum could take more than 24 bits. -/
def V4l2Ctx.SmallCells (ctx : V4l2Ctx) : Prop :=
  ∀ r < ctx.rows, ∀ c < ctx.cols, 255 * (ctx.pixels (r, c)).card < 2 ^ 24

instance (ctx : V4l2Ctx) : Decidable ctx.SmallCells :=
  inferInstanceAs (Decidable (∀ r < ctx.rows, ∀ c < ctx.cols, _))

/-- A stored value for the exact one. -/
def StoredFor (v : Binary32) (value : ℚ) : Prop :=
  v.isFinite = true ∧ CloseTo (1 / 2 ^ 22) v.toRat value

/-- The frame shows the picture: its sites are the cells that should be emitted, and their values
are the means of these cells, up to rounding. -/
structure Contents.Shows (ctx : V4l2Ctx) (raw : Bytes) (f : Contents) : Prop where
  support : f.support = (ctx.sites raw).map fun rc ↦ UInt32.ofNat (rc.1 * ctx.cols + rc.2)
  signal : List.Forall₂ (fun v rc ↦ StoredFor v (ctx.blockMean raw rc / 255)) f.signal
    (ctx.sites raw)

/-! ## One cell -/

section Cell

variable {sum : UInt64} {n : UInt32}

private theorem toRat_cellMean_small (hsum : sum ≠ 0) (hn : n ≠ 0) (hsmall : sum.toNat < 2 ^ 24)
    (hnsmall : n.toNat < 2 ^ 24) :
    (cellMean sum n).toRat = roundBits 24 (sum.toNat / n.toNat) := by
  have hspos : 0 < sum.toNat := Nat.pos_of_ne_zero fun h ↦ hsum (UInt64.toNat_inj.mp h)
  have hnpos : 0 < n.toNat := Nat.pos_of_ne_zero fun h ↦ hn (UInt32.toNat_inj.mp h)
  rw [(toRat_cellMean hsum hn).1, roundBits_natCast hspos hsmall, roundBits_natCast hnpos hnsmall]

/-- **The comparison with the threshold** comes out as it should. -/
theorem cellMean_le_threshold_iff (hn : n ≠ 0) (hle : sum.toNat ≤ 255 * n.toNat)
    (hsmall : 255 * n.toNat < 2 ^ 24) (threshold : UInt8) :
    (cellMean sum n).toRat ≤ (Binary32.ofNat threshold.toNat).toRat ↔
      (sum.toNat / n.toNat : ℚ) ≤ threshold.toNat := by
  have hbyte := threshold.toNat_lt
  have hnpos : 0 < n.toNat := Nat.pos_of_ne_zero fun h ↦ hn (UInt32.toNat_inj.mp h)
  have hnq : (0 : ℚ) < n.toNat := by exact_mod_cast hnpos
  rw [toRat_ofNat_of_lt (hbyte.trans (by norm_num))]
  by_cases hsum : sum = 0
  · subst hsum
    have hzero : (0 : UInt64).toNat = 0 := rfl
    rw [cellMean_zero, hzero, Nat.cast_zero, zero_div]
  · have hspos : 0 < sum.toNat := Nat.pos_of_ne_zero fun h ↦ hsum (UInt64.toNat_inj.mp h)
    have hbound : threshold.toNat * n.toNat < 2 ^ 24 :=
      (Nat.mul_le_mul_right _ (Nat.le_of_lt_succ hbyte)).trans_lt hsmall
    rw [toRat_cellMean_small hsum hn (by omega) (by omega),
      roundBits_div_le_iff hspos hnpos (by omega) hbound, div_le_iff₀ hnq]
    exact_mod_cast Iff.rfl

/-- **What is stored** for a cell that is emitted. -/
theorem storedFor_cellMean (hsum : sum ≠ 0) (hn : n ≠ 0) (hle : sum.toNat ≤ 255 * n.toNat)
    (hsmall : 255 * n.toNat < 2 ^ 24) :
    StoredFor (Binary32.div (cellMean sum n) fullScale) (sum.toNat / n.toNat / 255) := by
  have hspos : 0 < sum.toNat := Nat.pos_of_ne_zero fun h ↦ hsum (UInt64.toNat_inj.mp h)
  have hnpos : 0 < n.toNat := Nat.pos_of_ne_zero fun h ↦ hn (UInt32.toNat_inj.mp h)
  have hspos' : (0 : ℚ) < sum.toNat := by exact_mod_cast hspos
  have hnpos' : (0 : ℚ) < n.toNat := by exact_mod_cast hnpos
  have hmean : (0 : ℚ) < sum.toNat / n.toNat := div_pos hspos' hnpos'
  have hval := toRat_cellMean_small hsum hn (by omega) (by omega)
  have hclose : CloseTo (1 / 2 ^ 24) (cellMean sum n).toRat (sum.toNat / n.toNat) :=
    hval ▸ closeTo_roundBits hmean (by norm_num)
  -- the mean is not too small to be a normal number once divided
  have hlow : (2 : ℚ) ^ (-24 : ℤ) ≤ (cellMean sum n).toRat := by
    rw [hval]
    refine zpow_le_roundBits (by norm_num) ?_
    have hone : (1 : ℚ) ≤ sum.toNat := by exact_mod_cast hspos
    have hn24 : (n.toNat : ℚ) ≤ 2 ^ (24 : ℤ) := by exact_mod_cast (by omega : n.toNat ≤ 2 ^ 24)
    rw [zpow_neg, ← one_div, div_le_div_iff₀ (by positivity) hnpos', one_mul]
    calc (n.toNat : ℚ) ≤ 2 ^ (24 : ℤ) := hn24
      _ ≤ sum.toNat * 2 ^ (24 : ℤ) := le_mul_of_one_le_left (by positivity) hone
  have hhigh : (cellMean sum n).toRat ≤ 255 * 2 := by
    have hsum' : (sum.toNat / n.toNat : ℚ) ≤ 255 := by
      rw [div_le_iff₀ hnpos']
      exact_mod_cast hle
    have hround := roundBits_le_two_mul hmean (by norm_num : 0 < 24)
    rw [← hval] at hround
    linarith
  have hpos : (0 : ℚ) < (cellMean sum n).toRat := lt_of_lt_of_le (by positivity) hlow
  have hqlo : 2 ^ (-126 : ℤ) ≤ (cellMean sum n).toRat / 255 := by
    rw [le_div_iff₀ (by norm_num)]
    norm_num at hlow ⊢
    linarith
  have hqhi : (cellMean sum n).toRat / 255 < 2 ^ (126 : ℤ) := by
    rw [div_lt_iff₀ (by norm_num)]
    norm_num
    linarith
  obtain ⟨hfin, hround⟩ := toRat_ofRat_normal hqlo hqhi
  rw [StoredFor, Binary32.div, toRat_fullScale]
  refine ⟨hfin, ?_⟩
  have hlast : CloseTo (1 / 2 ^ 24) (ofRat ((cellMean sum n).toRat / 255)).toRat
      ((cellMean sum n).toRat / 255) :=
    hround ▸ closeTo_roundBits (div_pos hpos (by norm_num)) (by norm_num)
  exact (hlast.trans (hclose.div (by norm_num)) (by norm_num)).mono (by norm_num)
    (div_pos hmean (by norm_num)).le

end Cell

/-! ## The cells

The exact loop and the loop on `float` make the same decision at every cell, so their lists have the
same cells in the same order. -/

section Cells

variable {ctx : V4l2Ctx} {raw : Bytes}

private theorem forall₂_filterMap_filter {α β : Type*} {f : α → Option β} {p : α → Prop}
    [DecidablePred p]
    {R : β → α → Prop} {l : List α}
    (h : ∀ a ∈ l, if p a then ∃ b, f a = some b ∧ R b a else f a = none) :
    List.Forall₂ R (l.filterMap f) (l.filter p) := by
  induction l with
  | nil => exact List.Forall₂.nil
  | cons a l ih =>
    have hrest := ih fun b hb ↦ h b (List.mem_cons_of_mem a hb)
    have ha := h a List.mem_cons_self
    split_ifs at ha with hp
    · obtain ⟨b, hb, hR⟩ := ha
      rw [List.filterMap_cons_some hb, List.filter_cons_of_pos (by simpa using hp)]
      exact List.Forall₂.cons hR hrest
    · rw [List.filterMap_cons_none ha, List.filter_cons_of_neg (by simpa using hp)]
      exact hrest

/-- **The cells that are emitted** are those whose mean is above the threshold. -/
theorem litCells_forall₂ (h : ctx.Moderate) (hsmall : ctx.SmallCells) (raw : Bytes) :
    List.Forall₂ (fun site rc ↦ site.1 = UInt32.ofNat (rc.1 * ctx.cols + rc.2) ∧
        StoredFor (Binary32.div site.2 fullScale) (ctx.blockMean raw rc / 255))
      (litCells ctx raw (gridCells (v4l2InfoFromCtx ctx))) (ctx.sites raw) := by
  rw [litCells, gridCells_eq, List.filterMap_map, V4l2Ctx.sites]
  refine forall₂_filterMap_filter ?_
  rintro ⟨r, c⟩ hrc
  obtain ⟨hr, hc⟩ := mem_grid.mp hrc
  obtain ⟨hsum, hnumber⟩ := cellSum_toNat h raw hr hc
  have hle : (cellSum ctx raw (.ofNat r) (.ofNat c)).1.toNat
      ≤ 255 * (cellSum ctx raw (.ofNat r) (.ofNat c)).2.toNat := by
    rw [hsum, hnumber, Nat.mul_comm]
    exact total_le ctx raw (r, c)
  have hbound : 255 * (cellSum ctx raw (.ofNat r) (.ofNat c)).2.toNat < 2 ^ 24 := by
    rw [hnumber]
    exact hsmall r hr c hc
  have hmean : ((cellSum ctx raw (.ofNat r) (.ofNat c)).1.toNat
      / (cellSum ctx raw (.ofNat r) (.ofNat c)).2.toNat : ℚ) = ctx.blockMean raw (r, c) := by
    rw [V4l2Ctx.blockMean, hsum, hnumber]
  have hzero : (cellSum ctx raw (.ofNat r) (.ofNat c)).2 = 0 ↔ ¬(ctx.pixels (r, c)).Nonempty := by
    rw [Finset.not_nonempty_iff_eq_empty, ← Finset.card_eq_zero, ← hnumber, ← UInt32.toNat_inj]
    rfl
  simp only [Function.comp_apply, cellValue]
  by_cases hn : (cellSum ctx raw (.ofNat r) (.ofNat c)).2 = 0
  · rw [if_neg fun hboth ↦ hzero.mp hn hboth.1, if_pos hn]
    rfl
  have hthr : (cellMean (cellSum ctx raw (.ofNat r) (.ofNat c)).1
      (cellSum ctx raw (.ofNat r) (.ofNat c)).2).toRat ≤ (v4l2InfoFromCtx ctx).thr.toRat ↔
        ctx.blockMean raw (r, c) ≤ ctx.cfg.threshold.toNat := by
    rw [← hmean]
    exact cellMean_le_threshold_iff hn hle hbound ctx.cfg.threshold
  rw [if_neg hn]
  by_cases hlit : (ctx.cfg.threshold.toNat : ℚ) < ctx.blockMean raw (r, c)
  · rw [if_pos ⟨not_not.mp (mt hzero.mpr hn), hlit⟩,
      if_neg fun hbelow ↦ not_le.mpr hlit (hthr.mp hbelow)]
    refine ⟨_, rfl, siteIndex_eq ctx r c, ?_⟩
    rw [← hmean]
    refine storedFor_cellMean (fun hsum0 ↦ ?_) hn hle hbound
    -- a cell without light is not above any threshold
    rw [← hmean, hsum0] at hlit
    have hnot : ((0 : UInt64).toNat / (cellSum ctx raw (.ofNat r) (.ofNat c)).2.toNat : ℚ) = 0 := by
      rw [show (0 : UInt64).toNat = 0 from rfl, Nat.cast_zero, zero_div]
    rw [hnot] at hlit
    exact absurd hlit (not_lt.mpr (Nat.cast_nonneg _))
  · rw [if_neg fun hboth ↦ hlit hboth.2, if_pos (hthr.mpr (not_lt.mp hlit))]
    rfl

end Cells

/-! ## A frame -/

section Frame

variable {ctx : V4l2Ctx} {raw : Bytes} {out : Frame}

/-- **A frame with room for the grid shows the picture.** -/
theorem shows_fillFrame (h : ctx.Moderate) (hsmall : ctx.SmallCells) (hsized : out.Sized)
    (hroom : ctx.rows * ctx.cols ≤ out.capacity.toNat) (raw : Bytes) (buf : V4l2Buffer) :
    (fillFrame ctx raw buf out).contents.Shows ctx raw := by
  have hlit := litCells_forall₂ h hsmall raw
  have hall : sparseSites ctx raw out.capacity
      = litCells ctx raw (gridCells (v4l2InfoFromCtx ctx)) :=
    List.take_of_length_le (hlit.length_eq.trans_le ((length_sites_le ctx raw).trans hroom))
  rw [contents_fillFrame raw buf hsized, hall]
  refine ⟨map_eq_map_of_forall₂ hlit fun _ _ hR ↦ hR.1, ?_⟩
  rw [List.forall₂_map_left_iff]
  exact hlit.imp fun _ _ hR ↦ hR.2

/-- **`float` agrees with exact numbers.** For every picture and grid in which no cell has more than
65793 pixels, and whether or not the frame has room for all sites: the loop on `float` and the loop
on exact numbers emit the same sites, and each value on `float` is finite and within a fraction of
`2 ^ -22` of the exact one. -/
theorem yuyvToSparse_agrees {outExact : SparseFrame ℚ} (h : ctx.Moderate) (hsmall : ctx.SmallCells)
    (hsized : out.Sized) (hsized' : outExact.Sized) (hcap : out.capacity = outExact.capacity)
    (raw : Bytes) :
    let n := (yuyvToSparse ctx raw out).1.toNat
    (yuyvToSparseExact ctx raw outExact).2.1.toNat = n ∧
      (yuyvToSparse ctx raw out).2.support.take n
        = (yuyvToSparseExact ctx raw outExact).2.2.support.take n ∧
      List.Forall₂ StoredFor ((yuyvToSparse ctx raw out).2.signal.take n)
        ((yuyvToSparseExact ctx raw outExact).2.2.signal.take n) := by
  have hzero : (0 : UInt32).toNat = 0 := rfl
  obtain ⟨-, hnumber, hframe⟩ := @fillCellsWith_eq _ exactArith ctx raw
    (gridCells (v4l2InfoFromCtx ctx)) 0 outExact hsized' UInt32.zero_le
  rw [hzero, Nat.sub_zero, ← hcap] at hnumber hframe
  rw [Nat.zero_add] at hnumber
  -- the sites that were stored, cell by cell
  have hstored : List.Forall₂ (fun site exact ↦ site.1 = exact.1 ∧
      StoredFor (Binary32.div site.2 fullScale) (exactArith.normalize exact.2))
      (sparseSites ctx raw out.capacity)
      ((litCellsWith exactArith ctx raw (gridCells (v4l2InfoFromCtx ctx))).take
        out.capacity.toNat) := by
    rw [litCellsWith_exact h raw, sparseSites]
    refine List.forall₂_take _ ?_
    rw [List.forall₂_map_right_iff]
    exact litCells_forall₂ h hsmall raw
  have hlen := hstored.length_eq
  have hn : (yuyvToSparse ctx raw out).1.toNat = (sparseSites ctx raw out.capacity).length := by
    rw [yuyvToSparse_eq raw hsized, toNat_length_sparseSites]
  have htake {α β : Type} (dst : List α) (l : List β) (f : β → α) :
      (overwrite dst 0 (l.map f)).take l.length = l.map f := by
    have hlead := take_overwrite_zero dst (l.map f)
    rwa [List.length_map] at hlead
  intro n
  refine ⟨hnumber.trans (hlen.symm.trans hn.symm), ?_, ?_⟩
  · rw [yuyvToSparseExact, hframe]
    simp only [n, hn, yuyvToSparse_eq raw hsized]
    rw [htake, hlen, htake]
    exact map_eq_map_of_forall₂ hstored fun _ _ hR ↦ hR.1
  · rw [yuyvToSparseExact, hframe]
    simp only [n, hn, yuyvToSparse_eq raw hsized]
    rw [htake, hlen, htake, List.forall₂_map_left_iff, List.forall₂_map_right_iff]
    exact hstored.imp fun _ _ hR ↦ hR.2

end Frame

/-- The only site there is room for, a cell with a mean of 100. -/
theorem yuyvToSparse_agrees_uneven :
    let raw := [100, 128, 20, 128, 30, 128, 0, 128, 50, 128, 60, 128]
    let n := (yuyvToSparse unevenCtx raw oneSite).1.toNat
    List.Forall₂ StoredFor ((yuyvToSparse unevenCtx raw oneSite).2.signal.take n) [20 / 51] := by
  intro raw n
  have hsized : SparseFrame.Sized (⟨1, [0], [0]⟩ : SparseFrame ℚ) := ⟨by decide, by decide⟩
  have hexact : (yuyvToSparseExact unevenCtx raw ⟨1, [0], [0]⟩).2.2.signal.take n = [20 / 51] := by
    decide +kernel
  rw [← hexact]
  exact (yuyvToSparse_agrees ⟨by decide, by decide, by decide, by decide⟩ (by decide +kernel)
    ⟨by decide, by decide⟩ hsized rfl raw).2.2

end SparseCamera
