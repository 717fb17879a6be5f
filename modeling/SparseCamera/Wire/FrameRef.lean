import SparseCamera.Wire.Format

/-!
# Frames in memory

A frame really holds two pointers. `FrameRef` is that frame, its arrays being handles into a store
of typed buffers, and `FrameRef.view` is the frame it stands for as long as both handles are live.
On such frames the operations compute what the operations on values compute, with one exception:
when the first `realloc` of `frame_reserve` succeeds and the second fails, the frame keeps a handle
that has just died.

## The construction

An operation on pointers may find one of them dead, which is undefined behaviour in C and `none`
here. The statements are of the form that from a live frame the operation is defined, and that the
frame it leaves has the view that the operation on values computes. `frame_reserve` breaks this in
one branch. It is told apart by the two answers of the allocator, which the operation takes as
arguments.
-/

namespace SparseCamera

open LittleEndian Memory

/-- The contents of a buffer, with its element type. -/
inductive Block where
  | words (l : List UInt32)
  | floats (l : List Binary32)

/-- What `realloc` to `n` entries does to a buffer. -/
def Block.resize (n : ℕ) : Block → Block
  | words l => words (Memory.resize 0 n l)
  | floats l => floats (Memory.resize ⟨0⟩ n l)

/-- `frame_t` with its two pointers. -/
structure FrameRef where
  support : ℕ
  signal : ℕ
  tNs : Int64
  sequence : UInt64
  cameraId : UInt32
  count : UInt32
  capacity : UInt32
deriving DecidableEq

/-- The frame behind the pointers, if both are live. -/
def FrameRef.view (ref : FrameRef) (store : Store Block) : Option Frame :=
  match store.block ref.support, store.block ref.signal with
  | some (.words support), some (.floats signal) => some
    { support := support
      signal := signal
      tNs := ref.tNs
      sequence := ref.sequence
      cameraId := ref.cameraId
      count := ref.count
      capacity := ref.capacity }
  | _, _ => none

/-- Both pointers name live buffers of at least `capacity` entries. -/
def FrameRef.Live (ref : FrameRef) (store : Store Block) : Prop :=
  ∃ f, ref.view store = some f ∧ f.Sized

/-! ## Operations -/

/-- `frame_reserve`; `first` and `second` are the allocator's answers. `none` is a `realloc` of a
dead pointer. -/
def frameReserveRef (first second : Bool) (store : Store Block) (frame : FrameRef)
    (capacity : UInt64) : Option (ℤ × FrameRef × Store Block) :=
  if capacity ≤ frame.capacity.toUInt64 then some (0, frame, store)
  else
    match store.realloc frame.support first (Block.resize (entries capacity)) with
    | none => none
    | some (none, store) => some (-1, frame, store)
    | some (some support, store) =>
      match store.realloc frame.signal second (Block.resize (entries capacity)) with
      | none => none
      | some (none, store) => some (-1, frame, store)
      | some (some signal, store) =>
        some (0, { frame with
          support := support
          signal := signal
          capacity := capacity.toUInt32 }, store)

/-- `frame_wire_unpack` through the pointers. `none` is a copy to a dead pointer. -/
def frameWireUnpackRef (msg : Bytes) (store : Store Block) (out : FrameRef) :
    Option (FrameWireStatus × FrameRef × Store Block) :=
  let (status, hdr) := frameWirePeek msg .uninit
  if status ≠ .ok then some (status, out, store)
  else if out.capacity < hdr.count then
    some (.errCapacity, { out with count := hdr.count }, store)
  else
    let p := msg.drop frameWireHeaderSize
    match store.block out.support with
    | some (.words support) =>
      let support := overwrite support 0 (u32.decodeAll hdr.count.toNat p)
      match store.write out.support (.words support) with
      | none => none
      | some store =>
        let p := p.drop (hdr.count.toNat * 4)
        match store.block out.signal with
        | some (.floats signal) =>
          let signal := overwrite signal 0 (f32.decodeAll hdr.count.toNat p)
          match store.write out.signal (.floats signal) with
          | none => none
          | some store =>
            some (.ok, { out with
              cameraId := hdr.cameraId
              count := hdr.count
              tNs := hdr.tNs
              sequence := hdr.sequence }, store)
        | _ => none
    | _ => none

/-! ## Reading through the pointers -/

section View

variable {ref : FrameRef} {store : Store Block} {f : Frame}

theorem view_eq_some (h : ref.view store = some f) :
    store.block ref.support = some (.words f.support) ∧
      store.block ref.signal = some (.floats f.signal) ∧
      f = { f with
        tNs := ref.tNs
        sequence := ref.sequence
        cameraId := ref.cameraId
        count := ref.count
        capacity := ref.capacity } := by
  rw [FrameRef.view] at h
  split at h
  · next support signal hsupport hsignal =>
    obtain rfl := Option.some.inj h
    exact ⟨hsupport, hsignal, rfl⟩
  · cases h

theorem view_of_blocks {support : List UInt32} {signal : List Binary32}
    (hsupport : store.block ref.support = some (.words support))
    (hsignal : store.block ref.signal = some (.floats signal)) :
    ref.view store = some
      { support := support
        signal := signal
        tNs := ref.tNs
        sequence := ref.sequence
        cameraId := ref.cameraId
        count := ref.count
        capacity := ref.capacity } := by
  rw [FrameRef.view, hsupport, hsignal]

theorem view_of_dead (hsupport : store.block ref.support = none) : ref.view store = none := by
  rw [FrameRef.view, hsupport]

theorem capacity_view (h : ref.view store = some f) : f.capacity = ref.capacity :=
  congrArg Frame.capacity (view_eq_some h).2.2

/-- The two arrays have different element types, so they are two buffers. -/
theorem support_ne_signal (h : ref.view store = some f) : ref.support ≠ ref.signal := by
  obtain ⟨hsupport, hsignal, -⟩ := view_eq_some h
  intro heq
  rw [heq, hsignal] at hsupport
  cases hsupport

end View

/-! ## Growing a frame

There are three cases: nothing happens, both arrays are replaced, or one is and the frame still
names the old one. -/

section Reserve

variable {ref : FrameRef} {store : Store Block} {f : Frame} {capacity : UInt64}

theorem frameReserveRef_unchanged (first second : Bool) (h : ref.view store = some f)
    (hkeep : capacity ≤ ref.capacity.toUInt64 ∨ first = false) :
    frameReserveRef first second store ref capacity
      = some (if capacity ≤ ref.capacity.toUInt64 then 0 else -1, ref, store) := by
  rw [frameReserveRef]
  split_ifs with hcap
  · rfl
  · obtain rfl := hkeep.resolve_left hcap
    rw [Store.realloc_denied store _ (view_eq_some h).1]

private theorem realloc_support (h : ref.view store = some f) (grow : Block → Block) :
    ∃ store', store.realloc ref.support true grow = some (some store.next, store') ∧
      store'.block ref.support = none ∧
      store'.block store.next = some (grow (.words f.support)) ∧
      store'.block ref.signal = some (.floats f.signal) := by
  obtain ⟨hsupport, hsignal, -⟩ := view_eq_some h
  exact ⟨_, store.realloc_granted grow hsupport, store.realloc_block_old grow hsupport,
    store.realloc_block_new grow,
    store.realloc_block_other grow hsignal (support_ne_signal h).symm⟩

theorem frameReserveRef_granted (h : ref.view store = some f)
    (hcap : ¬capacity ≤ ref.capacity.toUInt64) :
    ∃ ref' store', frameReserveRef true true store ref capacity = some (0, ref', store') ∧
      ref'.view store' = some (frameReserve true f capacity).2 := by
  obtain ⟨store₁, hrealloc, -, hsupport, hsignal⟩ :=
    realloc_support h (Block.resize (entries capacity))
  have hlt := store.lt_next (view_eq_some h).2.1
  have hsupport' := store₁.realloc_block_other (Block.resize (entries capacity))
    (b := .floats f.signal) hsupport hlt.ne'
  have hsignal' := store₁.realloc_block_new (h := ref.signal) (b := .floats f.signal)
    (Block.resize (entries capacity))
  rw [frameReserveRef, if_neg hcap, hrealloc]
  simp only
  rw [store₁.realloc_granted _ hsignal]
  refine ⟨_, _, rfl, ?_⟩
  rw [view_of_blocks hsupport' hsignal', frameReserve, capacity_view h, if_neg hcap, if_pos rfl,
    (view_eq_some h).2.2]

/-- **The split.** The first answer is yes and the second is no: the frame is handed back with a
pointer to the array that was just given up. -/
theorem frameReserveRef_split (capacity : UInt64) (h : ref.view store = some f)
    (hcap : ¬capacity ≤ ref.capacity.toUInt64) :
    ∃ store', frameReserveRef true false store ref capacity = some (-1, ref, store') ∧
      store'.block ref.support = none := by
  obtain ⟨store₁, hrealloc, hdead, -, hsignal⟩ :=
    realloc_support h (Block.resize (entries capacity))
  rw [frameReserveRef, if_neg hcap, hrealloc]
  simp only
  -- the new array has no owner: the frame still has the old pointer
  rw [store₁.realloc_denied _ hsignal]
  exact ⟨store₁, rfl, hdead⟩

/-- **Without a split the pointers refine the value**: growing the frame in memory is growing the
frame it stands for, with an allocator that can serve it if both answers are yes. -/
theorem frameReserveRef_refines (first second : Bool) (capacity : UInt64)
    (h : ref.view store = some f)
    (hsplit : ¬(¬capacity ≤ ref.capacity.toUInt64 ∧ first = true ∧ second = false)) :
    ∃ ref' store', frameReserveRef first second store ref capacity
        = some ((frameReserve (first && second) f capacity).1, ref', store') ∧
      ref'.view store' = some (frameReserve (first && second) f capacity).2 := by
  by_cases hkeep : capacity ≤ ref.capacity.toUInt64 ∨ first = false
  · refine ⟨ref, store, ?_, ?_⟩
    · rw [frameReserveRef_unchanged first second h hkeep, frameReserve, capacity_view h]
      split_ifs with hcap hboth
      · rfl
      · exact absurd hboth (by simp [hkeep.resolve_left hcap])
      · rfl
    · rw [frameReserve, capacity_view h]
      split_ifs with hcap hboth
      · exact h
      · exact absurd hboth (by simp [hkeep.resolve_left hcap])
      · exact h
  · obtain ⟨hcap, hfirst⟩ := not_or.mp hkeep
    obtain rfl : first = true := by simpa using hfirst
    obtain rfl : second = true := by
      cases second with
      | true => rfl
      | false => exact absurd ⟨hcap, rfl, rfl⟩ hsplit
    obtain ⟨ref', store', hcall, hview⟩ := frameReserveRef_granted h hcap
    refine ⟨ref', store', hcall.trans ?_, hview⟩
    rw [frameReserve, capacity_view h, if_neg hcap]
    rfl

end Reserve

/-! ## All or nothing

The comment in the header promises a usable frame after a failure. The frame is usable if its view
is there and holds what it held. -/

/-- `f'` still holds at least `n` entries, with the old contents of `f` in front, and says the
same. -/
structure Preserved (n : ℕ) (f f' : Frame) : Prop where
  holds : f'.Holds n
  support : f'.support.take f.capacity.toNat = f.support.take f.capacity.toNat
  signal : f'.signal.take f.capacity.toNat = f.signal.take f.capacity.toNat
  tNs : f'.tNs = f.tNs
  sequence : f'.sequence = f.sequence
  cameraId : f'.cameraId = f.cameraId
  count : f'.count = f.count

private theorem preserved_self {f : Frame} {n : ℕ} (h : f.Holds n) : Preserved n f f :=
  ⟨h, rfl, rfl, rfl, rfl, rfl, rfl⟩

/-- What the contract of `frame_reserve` promises about one call: on success there is room for what
was asked, on failure the frame is left usable. -/
def AllOrNothing (first second : Bool) (store : Store Block) (ref : FrameRef) (capacity : UInt64) :
    Prop :=
  ∃ f, ref.view store = some f ∧ ∃ rc ref' store',
    frameReserveRef first second store ref capacity = some (rc, ref', store') ∧
    (rc = 0 ∨ rc = -1) ∧
    (rc = -1 → ∃ f', ref'.view store' = some f' ∧ Preserved f.capacity.toNat f f' ∧
      f'.capacity = f.capacity) ∧
    (rc = 0 → ∃ f', ref'.view store' = some f' ∧
      Preserved (max f.capacity.toNat capacity.toNat) f f')

section AllOrNothing

variable {f : Frame} {capacity : UInt64}

private theorem toNat_le_of_le {f : Frame} {capacity : UInt64}
    (h : capacity ≤ f.capacity.toUInt64) :
    capacity.toNat ≤ f.capacity.toNat := by
  rwa [UInt64.le_iff_toNat_le, UInt32.toNat_toUInt64] at h

private theorem preserved_frameReserve (hf : f.Sized) (hcap : ¬capacity ≤ f.capacity.toUInt64)
    (hlt : capacity.toNat < 2 ^ 62) :
    Preserved (max f.capacity.toNat capacity.toNat) f (frameReserve true f capacity).2 := by
  have hle : f.capacity.toNat ≤ capacity.toNat := by
    rw [UInt64.le_iff_toNat_le, UInt32.toNat_toUInt64] at hcap
    omega
  have hentries := entries_of_lt hlt
  rw [frameReserve, if_neg hcap, if_pos rfl]
  refine ⟨⟨?_, ?_⟩, ?_, ?_, rfl, rfl, rfl, rfl⟩
  · simp [hentries, hle]
  · simp [hentries, hle]
  · exact take_resize (hle.trans hentries.ge) hf.support
  · exact take_resize (hle.trans hentries.ge) hf.signal

/-- From `2 ^ 62` entries on, the arrays of a grown frame are too short. -/
theorem not_preserved_frameReserve (hcap : ¬capacity ≤ f.capacity.toUInt64)
    (hlarge : 2 ^ 62 ≤ capacity.toNat) :
    ¬Preserved (max f.capacity.toNat capacity.toNat) f (frameReserve true f capacity).2 := by
  intro h
  -- the byte count of the array wraps
  have hlen := h.holds.support
  rw [frameReserve, if_neg hcap, if_pos rfl, length_resize] at hlen
  exact absurd ((le_max_right _ _).trans hlen) (entries_lt hlarge).not_ge

/-- **Growing a frame is all or nothing** unless the two answers of the allocator differ in the bad
order, or the size in bytes wraps. -/
theorem allOrNothing_iff (first second : Bool) {store : Store Block} {ref : FrameRef}
    (hlive : ref.Live store) :
    AllOrNothing first second store ref capacity ↔
      capacity ≤ ref.capacity.toUInt64 ∨ first = false ∨
        (second = true ∧ capacity.toNat < 2 ^ 62) := by
  obtain ⟨f, hview, hsized⟩ := hlive
  have hcapacity := capacity_view hview
  constructor
  · rintro ⟨f', hview', rc, ref', store', hcall, -, hfail, hgrown⟩
    obtain rfl := Option.some.inj (hview.symm.trans hview')
    by_contra hbad
    rw [not_or, not_or, not_and, Bool.not_eq_false] at hbad
    obtain ⟨hcap, rfl, hlarge⟩ := hbad
    cases second with
    | false =>
      -- the call fails and the frame points at a dead array
      obtain ⟨store'', hcall', hdead⟩ := frameReserveRef_split capacity hview hcap
      obtain ⟨rfl, rfl, rfl⟩ : -1 = rc ∧ ref = ref' ∧ store'' = store' := by
        simpa using hcall'.symm.trans hcall
      obtain ⟨f', hf', -⟩ := hfail rfl
      rw [view_of_dead hdead] at hf'
      cases hf'
    | true =>
      -- the call succeeds with arrays that are too short
      obtain ⟨ref'', store'', hcall', hview''⟩ := frameReserveRef_granted hview hcap
      obtain ⟨rfl, rfl, rfl⟩ : 0 = rc ∧ ref'' = ref' ∧ store'' = store' := by
        simpa using hcall'.symm.trans hcall
      obtain ⟨f', hf', hpreserved⟩ := hgrown rfl
      obtain rfl := Option.some.inj (hview''.symm.trans hf')
      exact not_preserved_frameReserve (hcapacity ▸ hcap) (not_lt.mp (hlarge rfl)) hpreserved
  · intro hgood
    by_cases hkeep : capacity ≤ ref.capacity.toUInt64 ∨ first = false
    · refine ⟨f, hview, _, ref, store, frameReserveRef_unchanged first second hview hkeep, ?_, ?_,
        ?_⟩
      · split_ifs <;> simp
      · exact fun _ ↦ ⟨f, hview, preserved_self hsized, rfl⟩
      · intro hrc
        split_ifs at hrc with hcap
        have hle := toNat_le_of_le (hcapacity ▸ hcap)
        exact ⟨f, hview, preserved_self (by rwa [max_eq_left hle])⟩
    · obtain ⟨hcap, hfirst⟩ := not_or.mp hkeep
      obtain ⟨rfl, hlt⟩ := (hgood.resolve_left hcap).resolve_left hfirst
      obtain rfl : first = true := by simpa using hfirst
      obtain ⟨ref', store', hcall, hview'⟩ := frameReserveRef_granted hview hcap
      refine ⟨f, hview, 0, ref', store', hcall, Or.inl rfl, fun h ↦ absurd h (by decide), ?_⟩
      exact fun _ ↦ ⟨_, hview', preserved_frameReserve hsized (hcapacity ▸ hcap) hlt⟩

end AllOrNothing

/-! ## Decoding

Decoding writes through both pointers, one after the other. The second write does not undo the
first, as the arrays are different buffers. -/

theorem frameWireUnpackRef_refines (msg : Bytes) {store : Store Block} {ref : FrameRef} {f : Frame}
    (h : ref.view store = some f) :
    ∃ ref' store', frameWireUnpackRef msg store ref
        = some ((frameWireUnpack msg f).1, ref', store') ∧
      ref'.view store' = some (frameWireUnpack msg f).2 := by
  obtain ⟨hsupport, hsignal, hfields⟩ := view_eq_some h
  simp only [frameWireUnpackRef, frameWireUnpack]
  obtain ⟨status, hdr⟩ := frameWirePeek msg .uninit
  simp only
  by_cases hstatus : status = .ok
  · rw [if_neg (not_not.mpr hstatus), if_neg (not_not.mpr hstatus), capacity_view h]
    by_cases hcap : ref.capacity < hdr.count
    · rw [if_pos hcap, if_pos hcap]
      refine ⟨_, store, rfl, ?_⟩
      simp only [FrameRef.view, hsupport, hsignal]
      rw [hfields]
    · rw [if_neg hcap, if_neg hcap, hsupport]
      obtain ⟨store₁, hwrite₁, hsupport₁, hother₁, -⟩ := store.exists_write hsupport
        (.words (overwrite f.support 0
          (u32.decodeAll hdr.count.toNat (msg.drop frameWireHeaderSize))))
      have hsignal₁ : store₁.block ref.signal = some (.floats f.signal) :=
        (hother₁ _ (support_ne_signal h).symm).trans hsignal
      -- writing one array leaves the other alone
      obtain ⟨store₂, hwrite₂, hsignal₂, hother₂, -⟩ := store₁.exists_write hsignal₁
        (.floats (overwrite f.signal 0 (f32.decodeAll hdr.count.toNat
          ((msg.drop frameWireHeaderSize).drop (hdr.count.toNat * 4)))))
      have hsupport₂ := (hother₂ _ (support_ne_signal h)).trans hsupport₁
      simp only [hwrite₁, hsignal₁, hwrite₂]
      refine ⟨_, store₂, rfl, ?_⟩
      simp only [FrameRef.view, hsupport₂, hsignal₂]
  · rw [if_pos hstatus, if_pos hstatus]
    exact ⟨ref, store, rfl, h⟩

end SparseCamera
