import Mathlib.Algebra.BigOperators.Group.Finset.Basic
import Mathlib.Algebra.GroupWithZero.Nat
import Mathlib.Data.Finset.Prod
import Mathlib.Data.List.ProdSigma
import Mathlib.Order.Interval.Finset.Nat

/-!
# Tilings by floor division

An extent is divided into a number of blocks: block `k` begins at `k * extent / parts` and ends
where the next one begins. A block may be empty, but every point of the extent lies in exactly one
block (`existsUnique_block`), whether or not the division is even. With two extents the blocks are
rectangles, and they tile the whole (`cells_perm`).
-/

namespace Tiling

/-- Where block `k` begins. -/
def start (extent parts k : ℕ) : ℕ := k * extent / parts

/-- The points of block `k`. -/
def block (extent parts k : ℕ) : Finset ℕ :=
  Finset.Ico (start extent parts k) (start extent parts (k + 1))

/-- The points of the rectangle in row `r` and column `c`. -/
def cell (height width rows cols r c : ℕ) : Finset (ℕ × ℕ) :=
  block height rows r ×ˢ block width cols c

def blockList (extent parts k : ℕ) : List ℕ :=
  List.range' (start extent parts k) (start extent parts (k + 1) - start extent parts k)

def cellList (height width rows cols r c : ℕ) : List (ℕ × ℕ) :=
  blockList height rows r ×ˢ blockList width cols c

/-! ## Blocks

The beginnings of the blocks rise from 0 to the whole extent, and a point belongs to the last block
that begins at or before it. -/

section Block

variable {extent parts k j x : ℕ}

@[simp] theorem start_zero : start extent parts 0 = 0 := by
  rw [start, Nat.zero_mul, Nat.zero_div]

private theorem start_parts (hparts : 0 < parts) : start extent parts parts = extent :=
  Nat.mul_div_cancel_left extent hparts

theorem start_mono (extent parts : ℕ) : Monotone (start extent parts) :=
  fun _ _ h ↦ Nat.div_le_div_right (Nat.mul_le_mul_right extent h)

theorem mem_block : x ∈ block extent parts k ↔
    start extent parts k ≤ x ∧ x < start extent parts (k + 1) := Finset.mem_Ico

theorem lt_extent_of_mem_block (hk : k < parts) (hx : x ∈ block extent parts k) : x < extent := by
  have hle := start_mono extent parts (Nat.succ_le_of_lt hk)
  rw [start_parts (Nat.zero_lt_of_lt hk)] at hle
  exact (mem_block.mp hx).2.trans_le hle

theorem exists_mem_block (hx : x < start extent parts j) : ∃ k < j, x ∈ block extent parts k := by
  induction j with
  | zero => simp at hx
  | succ j ih =>
    by_cases hlt : x < start extent parts j
    · obtain ⟨k, hk, hmem⟩ := ih hlt
      exact ⟨k, hk.trans (Nat.lt_succ_self j), hmem⟩
    · exact ⟨j, Nat.lt_succ_self j, mem_block.mpr ⟨not_lt.mp hlt, hx⟩⟩

private theorem eq_of_mem_block (hk : x ∈ block extent parts k) (hj : x ∈ block extent parts j) :
    k = j := by
  rw [mem_block] at hk hj
  by_contra hne
  rcases Nat.lt_or_gt_of_ne hne with hlt | hlt
  · have hle : start extent parts (k + 1) ≤ start extent parts j := start_mono extent parts hlt
    omega
  · have hle : start extent parts (j + 1) ≤ start extent parts k := start_mono extent parts hlt
    omega

/-- **The blocks tile the extent.** -/
theorem existsUnique_block (hparts : 0 < parts) (hx : x < extent) :
    ∃! k, k < parts ∧ x ∈ block extent parts k := by
  rw [← @start_parts extent parts hparts] at hx
  obtain ⟨k, hk, hmem⟩ := exists_mem_block hx
  exact ⟨k, ⟨hk, hmem⟩, fun j hj ↦ eq_of_mem_block hj.2 hmem⟩

theorem mem_blockList : x ∈ blockList extent parts k ↔ x ∈ block extent parts k := by
  have hle := start_mono extent parts (Nat.le_succ k)
  rw [blockList, List.mem_range'_1, mem_block]
  omega

private theorem nodup_blockList : (blockList extent parts k).Nodup := List.nodup_range'

end Block

/-! ## Rectangles -/

section Cell

variable {height width rows cols r c : ℕ}

theorem mem_cell {p : ℕ × ℕ} : p ∈ cell height width rows cols r c ↔
    p.1 ∈ block height rows r ∧ p.2 ∈ block width cols c := Finset.mem_product

theorem mem_cellList {p : ℕ × ℕ} :
    p ∈ cellList height width rows cols r c ↔ p ∈ cell height width rows cols r c := by
  obtain ⟨y, x⟩ := p
  rw [cellList, mem_cell]
  exact List.mem_product.trans (and_congr mem_blockList mem_blockList)

theorem nodup_cellList : (cellList height width rows cols r c).Nodup :=
  nodup_blockList.product nodup_blockList

theorem toFinset_cellList :
    (cellList height width rows cols r c).toFinset = cell height width rows cols r c := by
  ext p
  rw [List.mem_toFinset, mem_cellList]

theorem length_cellList :
    (cellList height width rows cols r c).length = (cell height width rows cols r c).card := by
  rw [← toFinset_cellList, List.toFinset_card_of_nodup nodup_cellList]

theorem sum_cellList (f : ℕ × ℕ → ℕ) :
    ((cellList height width rows cols r c).map f).sum
      = ∑ p ∈ cell height width rows cols r c, f p := by
  rw [← toFinset_cellList, List.sum_toFinset f nodup_cellList]

theorem lt_of_mem_cell {p : ℕ × ℕ} (hr : r < rows) (hc : c < cols)
    (hp : p ∈ cell height width rows cols r c) : p.1 < height ∧ p.2 < width := by
  rw [mem_cell] at hp
  exact ⟨lt_extent_of_mem_block hr hp.1, lt_extent_of_mem_block hc hp.2⟩

/-- **The rectangles tile the whole.** -/
theorem existsUnique_cell (hrows : 0 < rows) (hcols : 0 < cols) {p : ℕ × ℕ} (hy : p.1 < height)
    (hx : p.2 < width) : ∃! rc : ℕ × ℕ, rc.1 < rows ∧ rc.2 < cols ∧
      p ∈ cell height width rows cols rc.1 rc.2 := by
  obtain ⟨r, ⟨hr, hyr⟩, hrow⟩ := existsUnique_block hrows hy
  obtain ⟨c, ⟨hc, hxc⟩, hcol⟩ := existsUnique_block hcols hx
  refine ⟨(r, c), ⟨hr, hc, mem_cell.mpr ⟨hyr, hxc⟩⟩, ?_⟩
  rintro ⟨r', c'⟩ ⟨hr', hc', hmem⟩
  rw [mem_cell] at hmem
  rw [hrow r' ⟨hr', hmem.1⟩, hcol c' ⟨hc', hmem.2⟩]

theorem cells_perm (hrows : 0 < rows) (hcols : 0 < cols) :
    ((List.range rows ×ˢ List.range cols).flatMap fun rc ↦
        cellList height width rows cols rc.1 rc.2).Perm
      (List.range height ×ˢ List.range width) := by
  have hgrid : (List.range rows ×ˢ List.range cols).Nodup :=
    List.nodup_range.product List.nodup_range
  have hmem {n m : ℕ} {p : ℕ × ℕ} : p ∈ List.range n ×ˢ List.range m ↔ p.1 < n ∧ p.2 < m := by
    obtain ⟨a, b⟩ := p
    exact List.mem_product.trans (and_congr List.mem_range List.mem_range)
  refine (List.perm_ext_iff_of_nodup ?_ (List.nodup_range.product List.nodup_range)).mpr ?_
  · refine List.nodup_flatMap.mpr ⟨fun _ _ ↦ nodup_cellList, hgrid.pairwise_of_forall_ne ?_⟩
    -- two rectangles with a common point are the same
    intro rc _ rc' _ hne p hp hp'
    rw [mem_cellList, mem_cell] at hp hp'
    exact hne (Prod.ext (eq_of_mem_block hp.1 hp'.1) (eq_of_mem_block hp.2 hp'.2))
  · intro p
    rw [List.mem_flatMap, hmem]
    constructor
    · rintro ⟨rc, hrc, hp⟩
      rw [hmem] at hrc
      exact lt_of_mem_cell hrc.1 hrc.2 (mem_cellList.mp hp)
    · rintro ⟨hy, hx⟩
      obtain ⟨rc, ⟨hr, hc, hp⟩, -⟩ := existsUnique_cell hrows hcols hy hx
      exact ⟨rc, hmem.mpr ⟨hr, hc⟩, mem_cellList.mpr hp⟩

theorem map_index_product (rows cols : ℕ) :
    (List.range rows ×ˢ List.range cols).map (fun rc ↦ rc.1 * cols + rc.2)
      = List.range (rows * cols) := by
  induction rows with
  | zero => rw [Nat.zero_mul]; rfl
  | succ rows ih =>
    have hsplit : List.range (rows + 1) ×ˢ List.range cols
        = List.range rows ×ˢ List.range cols ++ (List.range cols).map fun c ↦ (rows, c) := by
      change (List.range (rows + 1)).flatMap _ = _
      rw [List.range_succ, List.flatMap_append, List.flatMap_singleton]
      rfl
    rw [hsplit, List.map_append, ih, List.map_map, Nat.succ_mul, List.range_add]
    rfl

end Cell

end Tiling
