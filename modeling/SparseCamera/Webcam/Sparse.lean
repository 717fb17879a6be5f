import SparseCamera.Lib.Binary32
import SparseCamera.Webcam.Basic

/-!
# From pixels to sites

`yuyv_to_sparse` divides a picture into the blocks of a grid, takes the mean luminance of each block
and emits the blocks above a threshold. It walks over the blocks row by row, and over the pixels of
a block likewise, with a 64-bit sum and a 32-bit count.

`uint_fast32_t` has 64 bits, as on the machines the program is written for.

## The construction

The two loops over the cells are one recursion over the list of cells, and the two loops over a
block one over the list of its samples. The arithmetic of the loop is a parameter, `CellArith`, so
that the same loop can be run on `float` and on exact numbers. `fillCells` is the program's, and it
is the instance with `float` (`fillCells_eq_with`).
-/

namespace SparseCamera

open Memory

/-- `grid_info_t`. -/
structure GridInfo where
  rows : UInt64
  cols : UInt64
  /-- The threshold to listen for. -/
  thr : Binary32
deriving DecidableEq

/-- `v4l2_info_from_ctx`. -/
def v4l2InfoFromCtx (ctx : V4l2Ctx) : GridInfo where
  rows := if ctx.cfg.gridRows ≠ 0 then ctx.cfg.gridRows.toUInt64 else ctx.height.toUInt64
  cols := if ctx.cfg.gridCols ≠ 0 then ctx.cfg.gridCols.toUInt64 else ctx.width.toUInt64
  thr := Binary32.ofNat ctx.cfg.threshold.toNat

/-- `v4l2_max_sites`. -/
def v4l2MaxSites (ctx : V4l2Ctx) : UInt64 :=
  (v4l2InfoFromCtx ctx).rows * (v4l2InfoFromCtx ctx).cols

/-! ## One block -/

/-- Where block `k` of `parts` begins, in pixels. -/
def blockStart (k : UInt64) (extent : UInt32) (parts : UInt64) : UInt64 :=
  k * extent.toUInt64 / parts

def luma (ctx : V4l2Ctx) (raw : Bytes) (y x : UInt64) : UInt8 :=
  raw.getD ((2 * y * ctx.width.toUInt64).toNat + (x * 2).toNat) 0

/-- The two loops over a block: the sum of its samples and their number. -/
def blockSum (ctx : V4l2Ctx) (raw : Bytes) (y0 y1 x0 x1 : UInt64) : UInt64 × UInt32 :=
  (List.range' y0.toNat (y1.toNat - y0.toNat)).foldl (fun acc y ↦
    (List.range' x0.toNat (x1.toNat - x0.toNat)).foldl (fun (sum, n) x ↦
      (sum + (luma ctx raw (.ofNat y) (.ofNat x)).toUInt64, n + 1)) acc) (0, 0)

/-- The sum and the number of the samples in the cell in row `r` and column `c`. -/
def cellSum (ctx : V4l2Ctx) (raw : Bytes) (r c : UInt64) : UInt64 × UInt32 :=
  let gi := v4l2InfoFromCtx ctx
  blockSum ctx raw (blockStart r ctx.height gi.rows) (blockStart (r + 1) ctx.height gi.rows)
    (blockStart c ctx.width gi.cols) (blockStart (c + 1) ctx.width gi.cols)

def cellMean (sum : UInt64) (n : UInt32) : Binary32 :=
  Binary32.div (Binary32.ofNat sum.toNat) (Binary32.ofNat n.toNat)

/-- The value of a cell, unless it is empty or not above the threshold. -/
def cellValue (ctx : V4l2Ctx) (raw : Bytes) (r c : UInt64) : Option Binary32 :=
  let block := cellSum ctx raw r c
  if block.2 = 0 then none
  else
    let value := cellMean block.1 block.2
    if value.toRat ≤ (v4l2InfoFromCtx ctx).thr.toRat then none else some value

/-! ## The loop over the cells -/

/-- `float` 255. -/
def fullScale : Binary32 := Binary32.ofNat 255

/-- The two loops over the cells, from some cell on; a frame that is full ends them. -/
def fillCells (ctx : V4l2Ctx) (raw : Bytes) :
    List (UInt64 × UInt64) → UInt32 → Frame → UInt32 × Frame
  | [], count, out => (count, out)
  | (r, c) :: cells, count, out =>
    match cellValue ctx raw r c with
    | none => fillCells ctx raw cells count out
    | some value =>
      if out.capacity ≤ count then (count, out)
      else
        fillCells ctx raw cells (count + 1) { out with
          support := out.support.set count.toNat (r * (v4l2InfoFromCtx ctx).cols + c).toUInt32
          signal := out.signal.set count.toNat (Binary32.div value fullScale) }

/-- The cells of a grid, row by row. -/
def gridCells (gi : GridInfo) : List (UInt64 × UInt64) :=
  (List.range gi.rows.toNat).flatMap fun r ↦
    (List.range gi.cols.toNat).map fun c ↦ (.ofNat r, .ofNat c)

/-- `yuyv_to_sparse`: the number of sites and the frame they were written to. -/
def yuyvToSparse (ctx : V4l2Ctx) (raw : Bytes) (out : Frame) : UInt32 × Frame :=
  fillCells ctx raw (gridCells (v4l2InfoFromCtx ctx)) 0 out

/-! ## The samples of a block

The sum has 64 bits and the count 32. Both are the wrapped values of what the list of samples
has. -/

/-- The samples in the order in which the two loops come to them. -/
def blockSamples (ctx : V4l2Ctx) (raw : Bytes) (y0 y1 x0 x1 : UInt64) : List UInt8 :=
  (List.range' y0.toNat (y1.toNat - y0.toNat)).flatMap fun y ↦
    (List.range' x0.toNat (x1.toNat - x0.toNat)).map fun x ↦ luma ctx raw (.ofNat y) (.ofNat x)

/-- **The loops over a block** add up its samples and count them, each in its own width. -/
theorem blockSum_eq (ctx : V4l2Ctx) (raw : Bytes) (y0 y1 x0 x1 : UInt64) :
    blockSum ctx raw y0 y1 x0 x1
      = (UInt64.ofNat ((blockSamples ctx raw y0 y1 x0 x1).map UInt8.toNat).sum,
        UInt32.ofNat (blockSamples ctx raw y0 y1 x0 x1).length) := by
  have hloop (samples : List UInt8) (s k : ℕ) :
      samples.foldl (fun (acc : UInt64 × UInt32) v ↦ (acc.1 + v.toUInt64, acc.2 + 1))
          (UInt64.ofNat s, UInt32.ofNat k)
        = (UInt64.ofNat (s + (samples.map UInt8.toNat).sum),
          UInt32.ofNat (k + samples.length)) := by
    induction samples generalizing s k with
    | nil => rfl
    | cons v samples ih =>
      have hv : UInt64.ofNat s + v.toUInt64 = UInt64.ofNat (s + v.toNat) := by
        rw [UInt64.ofNat_add]
        congr 1
        exact UInt64.toNat_inj.mp (by simp)
      have hk : UInt32.ofNat k + 1 = UInt32.ofNat (k + 1) := by
        rw [UInt32.ofNat_add]
        rfl
      rw [List.foldl_cons, hv, hk, ih, List.map_cons, List.sum_cons, List.length_cons,
        Nat.add_assoc, Nat.add_assoc, Nat.add_comm 1]
  have hflat : blockSum ctx raw y0 y1 x0 x1
      = (blockSamples ctx raw y0 y1 x0 x1).foldl
        (fun (acc : UInt64 × UInt32) v ↦ (acc.1 + v.toUInt64, acc.2 + 1)) (0, 0) := by
    rw [blockSamples, List.foldl_flatMap, blockSum]
    simp only [List.foldl_map]
  have hstart := hloop (blockSamples ctx raw y0 y1 x0 x1) 0 0
  rw [Nat.zero_add, Nat.zero_add] at hstart
  rw [hflat]
  exact hstart

/-- The block of a cell. -/
def cellSamples (ctx : V4l2Ctx) (raw : Bytes) (r c : UInt64) : List UInt8 :=
  let gi := v4l2InfoFromCtx ctx
  blockSamples ctx raw (blockStart r ctx.height gi.rows) (blockStart (r + 1) ctx.height gi.rows)
    (blockStart c ctx.width gi.cols) (blockStart (c + 1) ctx.width gi.cols)

theorem cellSum_eq (ctx : V4l2Ctx) (raw : Bytes) (r c : UInt64) :
    cellSum ctx raw r c = (UInt64.ofNat ((cellSamples ctx raw r c).map UInt8.toNat).sum,
      UInt32.ofNat (cellSamples ctx raw r c).length) := blockSum_eq ctx raw _ _ _ _

/-! ## The loop over any numbers

The loop emits a cell or skips it and never looks back, so what it writes is a list of cells, cut to
the room there is. -/

/-- What the loop over the cells does with numbers. -/
structure CellArith (α : Type) where
  /-- The mean of so many samples with this sum. -/
  mean : UInt64 → UInt32 → α
  /-- It is at most the threshold. -/
  le : α → UInt8 → Bool
  /-- It is divided by full scale. -/
  normalize : α → α

def floatArith : CellArith Binary32 where
  mean := cellMean
  le value threshold := value.toRat ≤ (Binary32.ofNat threshold.toNat).toRat
  normalize value := Binary32.div value fullScale

/-- A frame as far as the loop uses it. -/
structure SparseFrame (α : Type) where
  capacity : UInt32
  support : List UInt32
  signal : List α

/-- The arrays are as long as `capacity` says. -/
structure SparseFrame.Sized {α : Type} (out : SparseFrame α) : Prop where
  support : out.capacity.toNat ≤ out.support.length
  signal : out.capacity.toNat ≤ out.signal.length

section With

variable {α : Type} (A : CellArith α) (ctx : V4l2Ctx) (raw : Bytes)

/-- `cellValue` over any numbers. -/
def cellValueWith (r c : UInt64) : Option α :=
  let block := cellSum ctx raw r c
  if block.2 = 0 then none
  else
    let value := A.mean block.1 block.2
    if A.le value ctx.cfg.threshold then none else some value

/-- The value of a cell, before it is compared to the threshold. -/
def cellMeanWith (r c : UInt64) : Option α :=
  let block := cellSum ctx raw r c
  if block.2 = 0 then none else some (A.mean block.1 block.2)

/-- `fillCells` over any numbers; it says whether it came to a site for which there was no room. -/
def fillCellsWith : List (UInt64 × UInt64) → UInt32 → SparseFrame α → Bool × UInt32 × SparseFrame α
  | [], count, out => (false, count, out)
  | (r, c) :: cells, count, out =>
    match cellValueWith A ctx raw r c with
    | none => fillCellsWith cells count out
    | some value =>
      if out.capacity ≤ count then (true, count, out)
      else
        fillCellsWith cells (count + 1) { out with
          support := out.support.set count.toNat (r * (v4l2InfoFromCtx ctx).cols + c).toUInt32
          signal := out.signal.set count.toNat (A.normalize value) }

/-- The cells above the threshold, each with its index and its mean. -/
def litCellsWith (cells : List (UInt64 × UInt64)) : List (UInt32 × α) :=
  cells.filterMap fun (r, c) ↦ (cellValueWith A ctx raw r c).map fun value ↦
    ((r * (v4l2InfoFromCtx ctx).cols + c).toUInt32, value)

theorem cellValueWith_eq_bind (r c : UInt64) :
    cellValueWith A ctx raw r c = (cellMeanWith A ctx raw r c).bind fun value ↦
      if A.le value ctx.cfg.threshold then none else some value := by
  simp only [cellValueWith, cellMeanWith]
  split_ifs <;> simp [*]

section Lit

variable {A ctx raw} {cell : UInt64 × UInt64}

theorem litCellsWith_cons_none (h : cellValueWith A ctx raw cell.1 cell.2 = none)
    (cells : List (UInt64 × UInt64)) :
    litCellsWith A ctx raw (cell :: cells) = litCellsWith A ctx raw cells := by
  simp [litCellsWith, h]

theorem litCellsWith_cons_some {value : α} (h : cellValueWith A ctx raw cell.1 cell.2 = some value)
    (cells : List (UInt64 × UInt64)) : litCellsWith A ctx raw (cell :: cells)
      = ((cell.1 * (v4l2InfoFromCtx ctx).cols + cell.2).toUInt32, value)
        :: litCellsWith A ctx raw cells := by
  simp [litCellsWith, h]

end Lit

private theorem overwrite_set {α : Type*} {dst : List α} {i : ℕ} (h : i < dst.length) (a : α)
    (src : List α) : overwrite (dst.set i a) (i + 1) src = overwrite dst i (a :: src) := by
  have hset : dst.set i a = overwrite dst i [a] := by
    rw [List.set_eq_take_append_cons_drop, if_pos h, overwrite, List.append_assoc]
    rfl
  rw [hset]
  exact overwrite_overwrite (Nat.succ_le_of_lt h)

private theorem overwrite_nil {α : Type*} (dst : List α) (i : ℕ) : overwrite dst i [] = dst := by
  rw [overwrite, List.append_nil, List.length_nil, Nat.add_zero, List.take_append_drop]

variable {A ctx raw}

/-- **The loop over the cells** writes as many of those above the threshold as the frame has room
for. -/
theorem fillCellsWith_eq (cells : List (UInt64 × UInt64)) {count : UInt32} {out : SparseFrame α}
    (hsized : out.Sized) (hcount : count ≤ out.capacity) :
    let lit := litCellsWith A ctx raw cells
    let stored := lit.take (out.capacity.toNat - count.toNat)
    let res := fillCellsWith A ctx raw cells count out
    (res.1 = true ↔ out.capacity.toNat - count.toNat < lit.length) ∧
      res.2.1.toNat = count.toNat + stored.length ∧
      res.2.2 = { out with
        support := overwrite out.support count.toNat (stored.map Prod.fst)
        signal := overwrite out.signal count.toNat
          (stored.map fun cell ↦ A.normalize cell.2) } := by
  intro lit stored res
  induction cells generalizing count out with
  | nil =>
    have hstored : stored = [] := List.take_nil
    have hres : res = (false, count, out) := rfl
    rw [hstored, hres, List.map_nil, List.map_nil, overwrite_nil, overwrite_nil]
    exact ⟨iff_of_false Bool.false_ne_true (Nat.not_lt_zero _), rfl, rfl⟩
  | cons cell cells ih =>
    have hres : res = fillCellsWith A ctx raw (cell :: cells) count out := rfl
    have hlit : lit = litCellsWith A ctx raw (cell :: cells) := rfl
    have hstored : stored = lit.take (out.capacity.toNat - count.toNat) := rfl
    rw [fillCellsWith] at hres
    cases hvalue : cellValueWith A ctx raw cell.1 cell.2 with
    | none =>
      rw [hvalue] at hres
      rw [hres, hstored, hlit, litCellsWith_cons_none hvalue]
      exact ih hsized hcount
    | some value =>
      rw [litCellsWith_cons_some hvalue] at hlit
      simp only [hvalue] at hres
      by_cases hfull : out.capacity ≤ count
      · -- there is no room for it
        have hle := UInt32.le_iff_toNat_le.mp hfull
        rw [if_pos hfull] at hres
        rw [hres, hstored, Nat.sub_eq_zero_of_le hle, List.take_zero, List.map_nil, List.map_nil,
          overwrite_nil, overwrite_nil, hlit]
        exact ⟨iff_of_true rfl (Nat.succ_pos _), rfl, rfl⟩
      · have hlt := UInt32.lt_iff_toNat_lt.mp (UInt32.not_le.mp hfull)
        have hwrap : (count + 1).toNat = count.toNat + 1 := by
          have := out.capacity.toNat_lt
          rw [UInt32.toNat_add]
          exact Nat.mod_eq_of_lt (by change count.toNat + 1 < 2 ^ 32; omega)
        have hroom : out.capacity.toNat - count.toNat
            = out.capacity.toNat - (count + 1).toNat + 1 := by omega
        rw [if_neg hfull] at hres
        set next : SparseFrame α := { out with
          support := out.support.set count.toNat
            (cell.1 * (v4l2InfoFromCtx ctx).cols + cell.2).toUInt32
          signal := out.signal.set count.toNat (A.normalize value) } with hnext
        have hsized' : next.Sized := ⟨by simpa [hnext] using hsized.support,
          by simpa [hnext] using hsized.signal⟩
        have hcap : next.capacity = out.capacity := rfl
        obtain ⟨hover, hnumber, hframe⟩ := @ih (count + 1) next hsized'
          (UInt32.le_iff_toNat_le.mpr (by rw [hwrap]; exact hlt))
        rw [hcap] at hover hnumber hframe
        rw [hres, hstored, hroom, hlit, List.take_succ_cons, hnumber, hframe, hover, hwrap,
          List.length_cons, List.length_cons]
        refine ⟨by omega, by omega, ?_⟩
        rw [hnext]
        simp only
        rw [overwrite_set (lt_of_lt_of_le hlt hsized.support),
          overwrite_set (lt_of_lt_of_le hlt hsized.signal)]
        rfl

end With

/-! ## What it writes -/

/-- The cells above the threshold, each with its index and its mean. -/
def litCells (ctx : V4l2Ctx) (raw : Bytes) (cells : List (UInt64 × UInt64)) :
    List (UInt32 × Binary32) :=
  cells.filterMap fun (r, c) ↦ (cellValue ctx raw r c).map fun value ↦
    ((r * (v4l2InfoFromCtx ctx).cols + c).toUInt32, value)

section Fill

variable {ctx : V4l2Ctx} {raw : Bytes}

theorem cellValueWith_float (r c : UInt64) :
    cellValueWith floatArith ctx raw r c = cellValue ctx raw r c := by
  simp only [cellValueWith, cellValue, floatArith, decide_eq_true_iff]
  rfl

theorem litCellsWith_float (cells : List (UInt64 × UInt64)) :
    litCellsWith floatArith ctx raw cells = litCells ctx raw cells := by
  simp only [litCellsWith, litCells, cellValueWith_float]

theorem fillCells_eq_with (cells : List (UInt64 × UInt64)) (count : UInt32) (out : Frame) :
    fillCells ctx raw cells count out =
      let res :=
        fillCellsWith floatArith ctx raw cells count ⟨out.capacity, out.support, out.signal⟩
      (res.2.1, { out with support := res.2.2.support, signal := res.2.2.signal }) := by
  induction cells generalizing count out with
  | nil => rfl
  | cons cell cells ih =>
    rw [fillCells, fillCellsWith, cellValueWith_float]
    cases cellValue ctx raw cell.1 cell.2 with
    | none => exact ih count out
    | some value =>
      simp only
      split_ifs with hfull
      · rfl
      · rw [ih]
        rfl

/-- **The loop over the cells** writes as many of those above the threshold as the frame has room
for. -/
theorem fillCells_eq (cells : List (UInt64 × UInt64)) {count : UInt32} {out : Frame}
    (hsized : out.Sized) (hcount : count ≤ out.capacity) :
    let lit := (litCells ctx raw cells).take (out.capacity.toNat - count.toNat)
    (fillCells ctx raw cells count out).1.toNat = count.toNat + lit.length ∧
    (fillCells ctx raw cells count out).2 = { out with
      support := overwrite out.support count.toNat (lit.map Prod.fst)
      signal := overwrite out.signal count.toNat
        (lit.map fun cell ↦ Binary32.div cell.2 fullScale) } := by
  obtain ⟨-, hnumber, hframe⟩ := @fillCellsWith_eq _ floatArith ctx raw cells count
    ⟨out.capacity, out.support, out.signal⟩ ⟨hsized.support, hsized.signal⟩ hcount
  rw [litCellsWith_float] at hnumber hframe
  rw [fillCells_eq_with]
  simp only [hframe]
  exact ⟨hnumber, rfl⟩

end Fill

end SparseCamera
