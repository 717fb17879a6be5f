import SparseCamera.Lib.Rounding
import SparseCamera.Sink.Accounting
import SparseCamera.Webcam.Acquire

/-!
# The values the webcam emits

A site carries the mean luminance of its block divided by 255. The sum of the samples and their
number are rounded to `float` before they are divided, the quotient is rounded, and so is what it is
divided by 255. A sum that takes more than 24 bits can round up while the number does not, and then
the mean of a saturated block comes out above 255.

Each of these roundings is `roundBits 24`, since all values are normal. So whether a value ends up
in the unit interval is a question about the samples of its block, `SamplesFit`.
-/

namespace SparseCamera

open Binary32 Memory

/-- The rounded sum over the rounded number is at most 255 and half a bit of the last place. -/
def BlockFits (sum : UInt64) (n : UInt32) : Prop :=
  roundBits 24 sum.toNat * 2 ^ 17 ≤ (255 * 2 ^ 17 + 1) * roundBits 24 n.toNat

/-- A block without samples, or one whose sum and number, as the loops count them, fit. -/
def SamplesFit (samples : List UInt8) : Prop :=
  UInt32.ofNat samples.length ≠ 0 →
    BlockFits (.ofNat (samples.map UInt8.toNat).sum) (.ofNat samples.length)

theorem toRat_fullScale : fullScale.toRat = 255 := by
  rw [fullScale, toRat_ofNat_of_lt (by norm_num)]
  norm_num

/-! ## One block -/

section Block

variable {sum : UInt64} {n : UInt32}

theorem cellMean_zero (n : UInt32) : (cellMean 0 n).toRat = 0 := by
  have hzero : (ofNat (0 : UInt64).toNat).toRat = 0 := by decide +kernel
  rw [cellMean, Binary32.div, hzero, zero_div]
  decide +kernel

/-- The mean is the rounded quotient of the rounded sum and the rounded number. -/
theorem toRat_cellMean (hsum : sum ≠ 0) (hn : n ≠ 0) :
    (cellMean sum n).toRat = roundBits 24 (roundBits 24 sum.toNat / roundBits 24 n.toNat) ∧
      0 < roundBits 24 sum.toNat ∧ 0 < roundBits 24 n.toNat ∧
      2 ^ (-40 : ℤ) ≤ roundBits 24 sum.toNat / roundBits 24 n.toNat ∧
      roundBits 24 sum.toNat / roundBits 24 n.toNat ≤ 2 ^ (65 : ℤ) := by
  have hsum1 : 1 ≤ sum.toNat := Nat.one_le_iff_ne_zero.mpr fun h ↦ hsum (UInt64.toNat_inj.mp h)
  have hn1 : 1 ≤ n.toNat := Nat.one_le_iff_ne_zero.mpr fun h ↦ hn (UInt32.toNat_inj.mp h)
  have hsum_lt := sum.toNat_lt
  have hn_lt := n.toNat_lt
  have hsumq : (1 : ℚ) ≤ sum.toNat := by exact_mod_cast hsum1
  have hnq : (1 : ℚ) ≤ n.toNat := by exact_mod_cast hn1
  have hslo : 1 ≤ roundBits 24 sum.toNat := zpow_le_roundBits (k := 0) (by norm_num) hsumq
  have hnlo : 1 ≤ roundBits 24 n.toNat := zpow_le_roundBits (k := 0) (by norm_num) hnq
  have hshi : roundBits 24 sum.toNat ≤ 2 ^ (65 : ℤ) := by
    apply (roundBits_le_two_mul (by linarith) (by norm_num)).trans
    have hcast : (sum.toNat : ℚ) < 2 ^ 64 := by exact_mod_cast hsum_lt
    rw [show (2 : ℚ) ^ (65 : ℤ) = 2 * 2 ^ 64 from by norm_num]
    linarith
  have hnhi : roundBits 24 n.toNat ≤ 2 ^ (33 : ℤ) := by
    apply (roundBits_le_two_mul (by linarith) (by norm_num)).trans
    have hcast : (n.toNat : ℚ) < 2 ^ 32 := by exact_mod_cast hn_lt
    rw [show (2 : ℚ) ^ (33 : ℤ) = 2 * 2 ^ 32 from by norm_num]
    linarith
  have hspos : 0 < roundBits 24 sum.toNat := by linarith
  have hnpos : 0 < roundBits 24 n.toNat := by linarith
  have hlo : 2 ^ (-40 : ℤ) ≤ roundBits 24 sum.toNat / roundBits 24 n.toNat := by
    rw [le_div_iff₀ hnpos]
    norm_num at hnhi ⊢
    linarith
  have hhi : roundBits 24 sum.toNat / roundBits 24 n.toNat ≤ 2 ^ (65 : ℤ) := by
    rw [div_le_iff₀ hnpos]
    norm_num at hshi ⊢
    linarith
  refine ⟨?_, hspos, hnpos, hlo, hhi⟩
  rw [cellMean, Binary32.div, toRat_ofNat (hsum_lt.trans (by norm_num)),
    toRat_ofNat (hn_lt.trans (by norm_num))]
  refine (toRat_ofRat_normal ((zpow_le_zpow_right₀ (by norm_num) (by norm_num)).trans hlo) ?_).2
  exact hhi.trans_lt (zpow_lt_zpow_right₀ (by norm_num) (by norm_num))

/-- **When the mean is at most full scale.** 255 has an even significand, so a tie goes down. -/
theorem cellMean_le_iff (hn : n ≠ 0) : (cellMean sum n).toRat ≤ 255 ↔ BlockFits sum n := by
  by_cases hsum : sum = 0
  · subst hsum
    have hnonneg : 0 ≤ roundBits 24 n.toNat := by rw [roundBits]; positivity
    have hzero : roundBits 24 (0 : UInt64).toNat = 0 := roundBits_zero 24
    apply iff_of_true (by rw [cellMean_zero]; norm_num)
    rw [BlockFits, hzero, zero_mul]
    positivity
  · obtain ⟨hval, hspos, hnpos, -, -⟩ := toRat_cellMean hsum hn
    have hsig : (255 : ℚ) = ((255 * 2 ^ 16 : ℕ) : ℚ) * 2 ^ (-16 : ℤ) := by norm_num
    rw [hval, hsig, roundBits_le_iff (div_pos hspos hnpos) (by norm_num) (by norm_num)
      (by norm_num) (by norm_num), div_le_iff₀ hnpos, BlockFits]
    norm_num
    constructor
    · intro h
      linarith
    · intro h
      linarith

/-- **When the value is in the unit interval.** -/
theorem signal_mem_unit_iff (hn : n ≠ 0) :
    ((Binary32.div (cellMean sum n) fullScale).isFinite = true ∧
      0 ≤ (Binary32.div (cellMean sum n) fullScale).toRat ∧
      (Binary32.div (cellMean sum n) fullScale).toRat ≤ 1) ↔ BlockFits sum n := by
  rw [← cellMean_le_iff hn, Binary32.div, toRat_fullScale]
  by_cases hsum : sum = 0
  · subst hsum
    rw [cellMean_zero]
    decide +kernel
  · obtain ⟨hval, hspos, hnpos, hlo, hhi⟩ := toRat_cellMean hsum hn
    have hmlo : 2 ^ (-40 : ℤ) ≤ (cellMean sum n).toRat := by
      rw [hval]
      exact zpow_le_roundBits (by norm_num) hlo
    have hmhi : (cellMean sum n).toRat ≤ 2 ^ (66 : ℤ) := by
      rw [hval]
      apply (roundBits_le_two_mul (div_pos hspos hnpos) (by norm_num)).trans
      norm_num at hhi ⊢
      linarith
    have hqlo : 2 ^ (-126 : ℤ) ≤ (cellMean sum n).toRat / 255 := by
      rw [le_div_iff₀ (by norm_num)]
      norm_num at hmlo ⊢
      linarith
    have hqhi : (cellMean sum n).toRat / 255 < 2 ^ (126 : ℤ) := by
      rw [div_lt_iff₀ (by norm_num)]
      norm_num at hmhi ⊢
      linarith
    have hqpos : 0 < (cellMean sum n).toRat / 255 := lt_of_lt_of_le (by positivity) hqlo
    obtain ⟨hfin, hround⟩ := toRat_ofRat_normal hqlo hqhi
    have hone : (1 : ℚ) = ((2 ^ 23 : ℕ) : ℚ) * 2 ^ (-23 : ℤ) := by norm_num
    rw [hround, hfin]
    constructor
    · rintro ⟨-, -, hle⟩
      rw [hone, roundBits_le_iff hqpos (by norm_num) (by norm_num) (by norm_num) (by norm_num)]
        at hle
      -- a mean above 255 is above it by a bit of the last place, and that is too much
      by_contra hgt
      have hsig : (255 : ℚ) = ((255 * 2 ^ 16 : ℕ) : ℚ) * 2 ^ (-16 : ℤ) := by norm_num
      rw [not_le, hval, hsig] at hgt
      have hnext := succ_le_roundBits (div_pos hspos hnpos) (by norm_num) (by norm_num)
        (by norm_num) hgt
      rw [← hval] at hnext
      norm_num at hle hnext
      linarith
    · intro hle
      refine ⟨rfl, (roundBits_pos hqpos (by norm_num)).le, ?_⟩
      rw [hone, roundBits_le_iff hqpos (by norm_num) (by norm_num) (by norm_num) (by norm_num)]
      norm_num
      linarith

/-- A block of up to 65793 pixels fits: its sum has at most 24 bits. -/
theorem samplesFit_of_length_le {samples : List UInt8} (h : samples.length ≤ 65793) :
    SamplesFit samples := by
  intro _
  have hle : (samples.map UInt8.toNat).sum ≤ samples.length * 255 := by
    refine (List.sum_le_card_nsmul _ 255 fun k hk ↦ ?_).trans_eq (by simp)
    obtain ⟨v, -, rfl⟩ := List.mem_map.mp hk
    exact Nat.le_of_lt_succ v.toNat_lt
  have hsum : (samples.map UInt8.toNat).sum < 2 ^ 24 := by omega
  have hsum' : (UInt64.ofNat (samples.map UInt8.toNat).sum).toNat
      = (samples.map UInt8.toNat).sum :=
    UInt64.toNat_ofNat_of_lt' (hsum.trans (by decide))
  have hlen' : (UInt32.ofNat samples.length).toNat = samples.length :=
    UInt32.toNat_ofNat_of_lt' (Nat.lt_of_le_of_lt h (by decide))
  have hexact {k : ℕ} (hk : k < 2 ^ 24) : roundBits 24 (k : ℚ) = k :=
    (toRat_ofNat (hk.trans (by norm_num))).symm.trans (toRat_ofNat_of_lt hk)
  rw [BlockFits, hsum', hlen', hexact hsum, hexact (by omega)]
  have hcast : ((samples.map UInt8.toNat).sum : ℚ) ≤ samples.length * 255 := by exact_mod_cast hle
  have hnonneg : (0 : ℚ) ≤ samples.length := Nat.cast_nonneg _
  linarith

end Block

/-! ## A frame

Only the cells that are stored count. A cell that is below the threshold, empty, or behind those
there is room for may have any sum. -/

section Frame

variable {ctx : V4l2Ctx} {raw : Bytes} {out : Frame}

/-- The values `yuyv_to_sparse` stores. -/
def storedSignals (ctx : V4l2Ctx) (raw : Bytes) (out : Frame) : List Binary32 :=
  (yuyvToSparse ctx raw out).2.signal.take (yuyvToSparse ctx raw out).1.toNat

/-- What is stored is finite and in the unit interval. -/
def SignalsGood (ctx : V4l2Ctx) (raw : Bytes) (out : Frame) : Prop :=
  ∀ v ∈ storedSignals ctx raw out, v.isFinite = true ∧ 0 ≤ v.toRat ∧ v.toRat ≤ 1

private theorem storedSignals_eq (raw : Bytes) (hsized : out.Sized) :
    storedSignals ctx raw out
      = (sparseSites ctx raw out.capacity).map fun cell ↦ Binary32.div cell.2 fullScale := by
  have hlen := toNat_length_sparseSites ctx raw out.capacity
  have hsignal := take_overwrite_zero out.signal
    ((sparseSites ctx raw out.capacity).map fun cell ↦ Binary32.div cell.2 fullScale)
  rw [List.length_map] at hsignal
  rw [storedSignals, yuyvToSparse_eq raw hsized]
  simp only [hlen, hsignal]

private theorem cellValue_eq_some {r c : UInt64} {value : Binary32}
    (h : cellValue ctx raw r c = some value) :
    (cellSum ctx raw r c).2 ≠ 0 ∧
      value = cellMean (cellSum ctx raw r c).1 (cellSum ctx raw r c).2 := by
  simp only [cellValue] at h
  split_ifs at h with hn hthr
  exact ⟨hn, (Option.some.inj h).symm⟩

private theorem cellValue_of_lt {r c : UInt64} {sum : UInt64} {n : UInt32}
    (h : cellSum ctx raw r c = (sum, n)) (hn : n ≠ 0)
    (hthr : (v4l2InfoFromCtx ctx).thr.toRat < (cellMean sum n).toRat) :
    cellValue ctx raw r c = some (cellMean sum n) := by
  simp only [cellValue, h]
  rw [if_neg hn, if_neg (not_le.mpr hthr)]

private theorem samplesFit_iff (r c : UInt64) :
    SamplesFit (cellSamples ctx raw r c) ↔ ((cellSum ctx raw r c).2 ≠ 0 →
      BlockFits (cellSum ctx raw r c).1 (cellSum ctx raw r c).2) := by
  rw [SamplesFit, cellSum_eq]

private theorem signal_mem_unit_iff_samplesFit {r c : UInt64} {value : Binary32}
    (h : cellValue ctx raw r c = some value) :
    ((Binary32.div value fullScale).isFinite = true ∧ 0 ≤ (Binary32.div value fullScale).toRat ∧
      (Binary32.div value fullScale).toRat ≤ 1) ↔ SamplesFit (cellSamples ctx raw r c) := by
  obtain ⟨hn, rfl⟩ := cellValue_eq_some h
  rw [signal_mem_unit_iff hn, samplesFit_iff]
  exact ⟨fun hfits _ ↦ hfits, fun hfits ↦ hfits hn⟩

/-- A cell that is not emitted is empty or has a mean of at most the threshold. -/
theorem samplesFit_of_cellValue_eq_none {r c : UInt64} (h : cellValue ctx raw r c = none) :
    SamplesFit (cellSamples ctx raw r c) := by
  rw [samplesFit_iff]
  intro hn
  simp only [cellValue, if_neg hn] at h
  split_ifs at h with hthr
  rw [← cellMean_le_iff hn]
  apply hthr.trans
  have hbyte := ctx.cfg.threshold.toNat_lt
  rw [v4l2InfoFromCtx, toRat_ofNat_of_lt (hbyte.trans (by norm_num))]
  exact_mod_cast Nat.le_of_lt_succ hbyte

section Lit

variable {cell : UInt64 × UInt64}

private theorem litCells_cons_none (h : cellValue ctx raw cell.1 cell.2 = none)
    (cells : List (UInt64 × UInt64)) :
    litCells ctx raw (cell :: cells) = litCells ctx raw cells := by
  rw [← cellValueWith_float] at h
  rw [← litCellsWith_float, ← litCellsWith_float, litCellsWith_cons_none h]

private theorem litCells_cons_some {value : Binary32}
    (h : cellValue ctx raw cell.1 cell.2 = some value)
    (cells : List (UInt64 × UInt64)) : litCells ctx raw (cell :: cells)
      = ((cell.1 * (v4l2InfoFromCtx ctx).cols + cell.2).toUInt32, value)
        :: litCells ctx raw cells := by
  rw [← cellValueWith_float] at h
  rw [← litCellsWith_float, ← litCellsWith_float, litCellsWith_cons_some h]

end Lit

/-- The sites of a frame come from the cells before which there was room. -/
theorem mem_take_litCells_iff (cells : List (UInt64 × UInt64)) (k : ℕ)
    (site : UInt32 × Binary32) :
    site ∈ (litCells ctx raw cells).take k ↔ ∃ before cell after,
      cells = before ++ cell :: after ∧ (litCells ctx raw before).length < k ∧
      site.1 = (cell.1 * (v4l2InfoFromCtx ctx).cols + cell.2).toUInt32 ∧
      cellValue ctx raw cell.1 cell.2 = some site.2 := by
  induction cells generalizing k with
  | nil => simp [litCells]
  | cons first cells ih =>
    cases hvalue : cellValue ctx raw first.1 first.2 with
    | none =>
      have hskip := @litCells_cons_none _ _ _ hvalue
      rw [hskip, ih]
      constructor
      · rintro ⟨before, cell, after, rfl, hlt, hsite⟩
        exact ⟨first :: before, cell, after, rfl, by rw [hskip]; exact hlt, hsite⟩
      · rintro ⟨before, cell, after, hcells, hlt, hindex, hlit⟩
        cases before with
        | nil =>
          obtain ⟨rfl, -⟩ := List.cons.inj hcells
          rw [hvalue] at hlit
          exact absurd hlit (by simp)
        | cons first' before =>
          obtain ⟨rfl, rfl⟩ := List.cons.inj hcells
          rw [hskip] at hlt
          exact ⟨before, cell, after, rfl, hlt, hindex, hlit⟩
    | some value =>
      have hcons := @litCells_cons_some _ _ _ _ hvalue
      cases k with
      | zero => simp
      | succ k =>
        rw [hcons, List.take_succ_cons, List.mem_cons, ih]
        constructor
        · rintro (rfl | ⟨before, cell, after, rfl, hlt, hsite⟩)
          · exact ⟨[], first, cells, rfl, k.succ_pos, rfl, hvalue⟩
          · exact ⟨first :: before, cell, after, rfl,
              by rw [hcons, List.length_cons]; omega, hsite⟩
        · rintro ⟨before, cell, after, hcells, hlt, hindex, hlit⟩
          cases before with
          | nil =>
            obtain ⟨rfl, -⟩ := List.cons.inj hcells
            rw [hvalue] at hlit
            exact .inl (Prod.ext hindex (Option.some.inj hlit).symm)
          | cons first' before =>
            obtain ⟨rfl, rfl⟩ := List.cons.inj hcells
            rw [hcons, List.length_cons] at hlt
            exact .inr ⟨before, cell, after, rfl, by omega, hindex, hlit⟩

/-- The values of an acquired frame are those that were stored, so the check of the sink finds
nothing exactly when they are good. -/
theorem any_valueBad_fillFrame (buf : V4l2Buffer) (hsized : out.Sized) :
    (fillFrame ctx raw buf out).contents.signal.any valueBad = false ↔
      SignalsGood ctx raw out := by
  rw [any_valueBad, decide_eq_false_iff_not, not_not, ValuesGood, SignalsGood,
    contents_fillFrame raw buf hsized, storedSignals_eq raw hsized]

/-- **When every stored value is in the unit interval**: when the block of every cell that the loop
comes to before the frame is full fits. Then, and only then, the check of the sink finds nothing in
the acquired frame. -/
theorem signalsGood_iff (hsized : out.Sized) :
    (SignalsGood ctx raw out ↔
      ∀ before cell after, gridCells (v4l2InfoFromCtx ctx) = before ++ cell :: after →
        (litCells ctx raw before).length < out.capacity.toNat →
        SamplesFit (cellSamples ctx raw cell.1 cell.2)) ∧
    ∀ buf, (fillFrame ctx raw buf out).contents.signal.any valueBad = false ↔
      SignalsGood ctx raw out := by
  refine ⟨?_, fun buf ↦ any_valueBad_fillFrame buf hsized⟩
  rw [SignalsGood, storedSignals_eq raw hsized]
  constructor
  · intro hgood before cell after hcells hroom
    cases hvalue : cellValue ctx raw cell.1 cell.2 with
    | none => exact samplesFit_of_cellValue_eq_none hvalue
    | some value =>
      rw [← signal_mem_unit_iff_samplesFit hvalue]
      have hsite : ((cell.1 * (v4l2InfoFromCtx ctx).cols + cell.2).toUInt32, value)
          ∈ sparseSites ctx raw out.capacity :=
        (mem_take_litCells_iff _ _ _).mpr ⟨before, cell, after, hcells, hroom, rfl, hvalue⟩
      exact hgood _ (List.mem_map.mpr ⟨_, hsite, rfl⟩)
  · intro hfits v hv
    obtain ⟨site, hsite, rfl⟩ := List.mem_map.mp hv
    obtain ⟨before, cell, after, hcells, hroom, -, hvalue⟩ :=
      (mem_take_litCells_iff _ _ _).mp hsite
    exact (signal_mem_unit_iff_samplesFit hvalue).mpr (hfits before cell after hcells hroom)

private theorem storedSignals_single {value : Binary32} (hsized : out.Sized)
    (hroom : 1 ≤ out.capacity)
    (hcells : gridCells (v4l2InfoFromCtx ctx) = [(0, 0)])
    (hvalue : cellValue ctx raw 0 0 = some value) :
    storedSignals ctx raw out = [Binary32.div value fullScale] := by
  rw [storedSignals_eq raw hsized, sparseSites, hcells, litCells]
  simp only [List.filterMap_cons, List.filterMap_nil, hvalue, Option.map_some]
  rw [List.take_of_length_le (UInt32.le_iff_toNat_le.mp hroom)]
  rfl

end Frame

/-! ## One block -/

/-- A device with pictures of this size and a grid of one cell. -/
def oneCell (width height : UInt32) : V4l2Ctx :=
  { v4l2CtxCreate
      { device := []
        width := width
        height := height
        gridRows := 1
        gridCols := 1
        nBuffers := 2
        timeoutMs := 0
        threshold := 32 } with
    fd := 3
    width := width
    height := height }

def oneSite : Frame := ⟨[0], [⟨0⟩], 0, 0, 0, 0, 1⟩

/-- Two pixels, one black and one white, in a frame that the sink finds nothing wrong with. -/
theorem signalsGood_two :
    SignalsGood (oneCell 2 1) [0, 128, 255, 128] oneSite ∧
      ∀ buf, (fillFrame (oneCell 2 1) [0, 128, 255, 128] buf oneSite).contents.signal.any valueBad
        = false := by
  obtain ⟨hiff, hchecked⟩ :=
    @signalsGood_iff (oneCell 2 1) [0, 128, 255, 128] oneSite ⟨by decide, by decide⟩
  suffices h : SignalsGood (oneCell 2 1) [0, 128, 255, 128] oneSite from
    ⟨h, fun buf ↦ (hchecked buf).mpr h⟩
  refine hiff.mpr ?_
  intro before cell after hcells _
  have hgrid : gridCells (v4l2InfoFromCtx (oneCell 2 1)) = [(0, 0)] := by decide
  have hmem : cell ∈ gridCells (v4l2InfoFromCtx (oneCell 2 1)) := by
    rw [hcells]
    exact List.mem_append_right _ List.mem_cons_self
  rw [hgrid] at hmem
  obtain rfl := List.mem_singleton.mp hmem
  exact samplesFit_of_length_le (by decide)

private theorem cellSum_white :
    cellSum (oneCell 65797 1) (List.replicate 131594 255) 0 0 = (16778235, 65797) := by
  have hsamples : cellSamples (oneCell 65797 1) (List.replicate 131594 255) 0 0
      = List.replicate 65797 255 := by
    have hblock : cellSamples (oneCell 65797 1) (List.replicate 131594 255) 0 0
        = (List.range' 0 1).flatMap fun y ↦ (List.range' 0 65797).map fun x ↦
          luma (oneCell 65797 1) (List.replicate 131594 255) (.ofNat y) (.ofNat x) := rfl
    rw [hblock, List.range'_one, List.flatMap_singleton]
    refine List.eq_replicate_iff.mpr ⟨by rw [List.length_map, List.length_range'], fun v hv ↦ ?_⟩
    obtain ⟨x, hx, rfl⟩ := List.mem_map.mp hv
    have hlt : x < 0 + 65797 := (List.mem_range'_1.mp hx).2
    have hx' : (UInt64.ofNat x * 2).toNat = x * 2 := by
      rw [UInt64.toNat_mul, UInt64.toNat_ofNat_of_lt' (Nat.lt_trans hlt (by decide))]
      exact Nat.mod_eq_of_lt (by change x * 2 < 2 ^ 64; omega)
    have hy : (2 * UInt64.ofNat 0 * (oneCell 65797 1).width.toUInt64).toNat = 0 := by decide
    rw [luma, hx', hy, List.getD_eq_getElem?_getD, List.getElem?_replicate_of_lt (by omega)]
    rfl
  rw [cellSum_eq, hsamples, List.map_replicate, List.sum_replicate, List.length_replicate]
  rfl

/-- The sum of a saturated block of 65797 pixels rounds up, and the value it gives is above 1. -/
theorem not_signalsGood_white :
    (∃ v ∈ storedSignals (oneCell 65797 1) (List.replicate 131594 255) oneSite,
      1 < v.toRat ∧ valueBad v = true) ∧
    ¬SignalsGood (oneCell 65797 1) (List.replicate 131594 255) oneSite := by
  have hvalue := cellValue_of_lt cellSum_white (by decide) (by decide +kernel)
  have hstored : Binary32.div (cellMean 16778235 65797) fullScale
      ∈ storedSignals (oneCell 65797 1) (List.replicate 131594 255) oneSite := by
    rw [storedSignals_single ⟨by decide, by decide⟩ (by decide) (by decide) hvalue]
    exact List.mem_singleton_self _
  have habove : 1 < (Binary32.div (cellMean 16778235 65797) fullScale).toRat := by decide +kernel
  exact ⟨⟨_, hstored, habove, by decide +kernel⟩,
    fun hgood ↦ absurd (hgood _ hstored).2.2 (not_le.mpr habove)⟩

end SparseCamera
