import SparseCamera.Lib.Binary32
import SparseCamera.Lib.Memory

/-!
# Frames

A frame is a sparse snapshot of one camera image: `support` holds flat site indices, `signal` the
value at each of them. Only the first `count` entries are live, and `capacity` is the allocated
length the code believes in.

Here the two arrays are held by value, so an operation on a frame is a function. What this hides,
that they are buffers an allocator may move or refuse to grow, is the subject of `FrameRef`.
-/

namespace SparseCamera

open Memory

/-- `frame_t`. -/
structure Frame where
  support : List UInt32
  signal : List Binary32
  tNs : Int64
  sequence : UInt64
  cameraId : UInt32
  count : UInt32
  capacity : UInt32
deriving DecidableEq, Repr

/-- Both arrays hold at least `n` entries. -/
structure Frame.Holds (f : Frame) (n : ℕ) : Prop where
  support : n ≤ f.support.length
  signal : n ≤ f.signal.length

/-- The arrays are as long as `capacity` says. -/
def Frame.Sized (f : Frame) : Prop := f.Holds f.capacity.toNat

theorem Frame.Holds.mono {f : Frame} {m n : ℕ} (h : f.Holds n) (hm : m ≤ n) : f.Holds m :=
  ⟨hm.trans h.support, hm.trans h.signal⟩

/-! ## What a frame says -/

/-- The live part of a frame: what is left of it once the buffers are forgotten. -/
structure Contents where
  cameraId : UInt32
  tNs : Int64
  sequence : UInt64
  support : List UInt32
  signal : List Binary32
deriving DecidableEq, Repr

def Frame.contents (f : Frame) : Contents where
  cameraId := f.cameraId
  tNs := f.tNs
  sequence := f.sequence
  support := f.support.take f.count.toNat
  signal := f.signal.take f.count.toNat

/-! ## Operations -/

/-- The number of entries in an array of `capacity * sizeof(uint32_t)` bytes. The product is
computed in `size_t`; both element types are four bytes wide. -/
def entries (capacity : UInt64) : ℕ := (capacity * 4).toNat / 4

theorem entries_of_lt {capacity : UInt64} (h : capacity.toNat < 2 ^ 62) :
    entries capacity = capacity.toNat := by
  have hmul : (capacity * 4).toNat = capacity.toNat * 4 := by
    rw [UInt64.toNat_mul]
    exact Nat.mod_eq_of_lt (by change capacity.toNat * 4 < _; omega)
  rw [entries, hmul, Nat.mul_div_cancel _ (by norm_num)]

/-- Past `2 ^ 62` entries the size computation wraps, and the array is too short. -/
theorem entries_lt {capacity : UInt64} (h : 2 ^ 62 ≤ capacity.toNat) :
    entries capacity < capacity.toNat := by
  have hlt := capacity.toNat_lt
  have hmul : (capacity * 4).toNat < 2 ^ 64 := (capacity * 4).toNat_lt
  have hmod : (capacity * 4).toNat = capacity.toNat * 4 % 2 ^ 64 := by
    rw [UInt64.toNat_mul]
    rfl
  rw [entries, hmod]
  omega

def frameReset (frame : Frame) : Frame := { frame with count := 0, tNs := 0, sequence := 0 }

/-- `new_frames` with both allocations granted; `none` is the null pointer. The contents of fresh
memory are indeterminate in C and zero here. -/
def newFrames (capacity : UInt64) : Option Frame :=
  if capacity = 0 then none
  else some
    { support := List.replicate (entries capacity) 0
      signal := List.replicate (entries capacity) ⟨0⟩
      tNs := 0
      sequence := 0
      cameraId := 0
      count := 0
      capacity := capacity.toUInt32 }

/-- `frame_reserve`, where `granted` says whether the allocator can serve it. -/
def frameReserve (granted : Bool) (frame : Frame) (capacity : UInt64) : ℤ × Frame :=
  if capacity ≤ frame.capacity.toUInt64 then (0, frame)
  else if granted then
    (0, { frame with
          support := resize 0 (entries capacity) frame.support
          signal := resize ⟨0⟩ (entries capacity) frame.signal
          capacity := capacity.toUInt32 })
  else (-1, frame)

/-! ## What they keep

A frame that was allocated for a 32-bit number of entries is as large as it says, and growing it
keeps it so. -/

theorem toUInt64_le_toUInt64 {a b : UInt32} : a.toUInt64 ≤ b.toUInt64 ↔ a ≤ b := by
  rw [UInt64.le_iff_toNat_le, UInt32.toNat_toUInt64, UInt32.toNat_toUInt64, UInt32.le_iff_toNat_le]

theorem not_toUInt64_le_of_lt {a b : UInt32} (h : b < a) : ¬a.toUInt64 ≤ b.toUInt64 := by
  rw [toUInt64_le_toUInt64]
  exact UInt32.not_le.mpr h

/-- Neither factor has more than 32 bits, so the product in 64 is exact. -/
theorem toNat_mul_toUInt64 (rows cols : UInt32) :
    (rows.toUInt64 * cols.toUInt64).toNat = rows.toNat * cols.toNat := by
  have hrows := rows.toNat_lt
  have hcols := cols.toNat_lt
  rw [UInt64.toNat_mul, UInt32.toNat_toUInt64, UInt32.toNat_toUInt64]
  apply Nat.mod_eq_of_lt
  calc rows.toNat * cols.toNat ≤ (2 ^ 32 - 1) * (2 ^ 32 - 1) :=
        Nat.mul_le_mul (Nat.le_sub_one_of_lt hrows) (Nat.le_sub_one_of_lt hcols)
    _ < 2 ^ 64 := by norm_num

theorem sized_newFrames {capacity : UInt64} {f : Frame} (h : newFrames capacity = some f)
    (hlt : capacity.toNat < 2 ^ 32) : f.Sized ∧ f.capacity.toNat = capacity.toNat := by
  rw [newFrames] at h
  split_ifs at h with h0
  obtain rfl := Option.some.inj h
  have hcap : capacity.toUInt32.toNat = capacity.toNat := by
    rw [UInt64.toNat_toUInt32]
    omega
  refine ⟨⟨?_, ?_⟩, hcap⟩
  · simp [hcap, entries_of_lt (show capacity.toNat < 2 ^ 62 by omega)]
  · simp [hcap, entries_of_lt (show capacity.toNat < 2 ^ 62 by omega)]

theorem frameReserve_granted {f : Frame} (hf : f.Sized) (capacity : UInt32) :
    ∃ f', frameReserve true f capacity.toUInt64 = (0, f') ∧ f'.Sized ∧
      f'.capacity.toNat = max f.capacity.toNat capacity.toNat ∧
      f' = { f with support := f'.support, signal := f'.signal, capacity := f'.capacity } := by
  rw [frameReserve, if_pos rfl]
  by_cases hle : capacity ≤ f.capacity
  · rw [if_pos (toUInt64_le_toUInt64.mpr hle)]
    exact ⟨f, rfl, hf, (max_eq_left (UInt32.le_iff_toNat_le.mp hle)).symm, rfl⟩
  · rw [if_neg (mt toUInt64_le_toUInt64.mp hle)]
    rw [UInt32.le_iff_toNat_le] at hle
    have hcap := capacity.toNat_lt
    have hentries : entries capacity.toUInt64 = capacity.toNat := by
      rw [entries_of_lt (by rw [UInt32.toNat_toUInt64]; omega), UInt32.toNat_toUInt64]
    refine ⟨_, rfl, ⟨?_, ?_⟩, ?_, rfl⟩
    · simp [hentries]
    · simp [hentries]
    · simpa using (max_eq_right (not_le.mp hle).le).symm

end SparseCamera
