import SparseCamera.Sink.DecodeBuffer
import SparseCamera.Sink.Foreign

/-!
# A table that could not be registered

`sink_expect` writes the new table first and grows the decode buffer after that, and it does not
take the table back when the growth fails. The caller is told -1 and the new table is in force. The
growth itself can also fail half way, which leaves the fields of the decode buffer as they were and
one of them pointing at an array that is gone.

So a failed call changes nothing as long as it fails on its arguments, or fails in the first
`realloc` with the table that is registered already.

## The construction

All or nothing is about the fields of the sink and about its behaviour: after a failed call it is
the sink it was, and it answers every later call as it would have before. With another table it is
not the sink it was, and with a dead decode buffer it fails at the next message. Where the table is
the same and the growth failed in the first `realloc`, nothing has happened.
-/

namespace SparseCamera

open Execution Memory

/-- The table a caller gives: the first `n` entries behind its pointer, `none` for null. -/
def givenSpecs (specs : Option (List SinkCamSpec)) (n : ℕ) : List SinkCamSpec :=
  (specs.getD []).take n

/-- The arguments `sink_expect` turns down. -/
def BadArguments (specs : Option (List SinkCamSpec)) (n : ℕ) : Prop :=
  (n ≠ 0 ∧ specs = none) ∨ sinkMaxCameras < n

instance (specs : Option (List SinkCamSpec)) (n : ℕ) : Decidable (BadArguments specs n) :=
  inferInstanceAs (Decidable ((n ≠ 0 ∧ specs = none) ∨ sinkMaxCameras < n))

/-- `sink_expect` with its arguments as they come. -/
def sinkExpectArgs (first second : Bool) (mem : SinkMemory) (specs : Option (List SinkCamSpec))
    (n : ℕ) : Option (ℤ × SinkMemory) :=
  if BadArguments specs n then some (-1, mem)
  else sinkExpectRef first second mem (givenSpecs specs n)

/-- The ledger after some calls, unless one of them touches an array that is gone. -/
def ledgerAfter (mem : SinkMemory) (calls : List SinkCall) : Option Ledger :=
  (exec sinkCall mem calls).map fun mem ↦ mem.sink.toLedger

/-- Nothing happened to the sink: neither to its fields nor to what it makes of later calls. -/
structure Untouched (mem mem' : SinkMemory) : Prop where
  specs : mem'.sink.specs = mem.sink.specs
  decoded : mem'.sink.decoded = mem.sink.decoded
  later : ∀ calls, ledgerAfter mem' calls = ledgerAfter mem calls

/-- The table is in force and the decode buffer has room for it. -/
structure Registered (table : List SinkCamSpec) (mem mem' : SinkMemory) : Prop where
  specs : mem'.sink.specs = table
  room : ∀ spec ∈ table, spec.maxSites ≤ mem'.sink.decoded.capacity
  grown : mem.sink.decoded.capacity ≤ mem'.sink.decoded.capacity

/-- The answer of a call that either registered the table or did nothing. -/
def AtomicAnswer (mem : SinkMemory) (table : List SinkCamSpec)
    (answer : Option (ℤ × SinkMemory)) : Prop :=
  ∃ rc mem', answer = some (rc, mem') ∧ (rc = 0 ∨ rc = -1) ∧
    (rc = -1 → Untouched mem mem') ∧ (rc = 0 → Registered table mem mem')

/-- **A call is all or nothing**: it registers the table or nothing happens. -/
def ExpectAtomic (first second : Bool) (mem : SinkMemory) (specs : Option (List SinkCamSpec))
    (n : ℕ) : Prop :=
  AtomicAnswer mem (givenSpecs specs n) (sinkExpectArgs first second mem specs n)

private theorem untouched_self (mem : SinkMemory) : Untouched mem mem := ⟨rfl, rfl, fun _ ↦ rfl⟩

private theorem atomicAnswer_zero {mem mem' : SinkMemory} {table : List SinkCamSpec}
    (h : Registered table mem mem') : AtomicAnswer mem table (some (0, mem')) :=
  ⟨0, mem', rfl, Or.inl rfl, fun hrc ↦ absurd hrc (by decide), fun _ ↦ h⟩

private theorem atomicAnswer_failed_iff {mem mem' : SinkMemory} {table : List SinkCamSpec} :
    AtomicAnswer mem table (some (-1, mem')) ↔ Untouched mem mem' := by
  constructor
  · rintro ⟨rc, mem'', hanswer, -, hfail, -⟩
    obtain ⟨rfl, rfl⟩ := by simpa using hanswer
    exact hfail rfl
  · intro h
    exact ⟨-1, mem', rfl, Or.inr rfl, fun _ ↦ h, fun hrc ↦ absurd hrc (by decide)⟩

/-- A call that does not come back is not all or nothing. -/
theorem not_atomicAnswer_none {mem : SinkMemory} {table : List SinkCamSpec} :
    ¬AtomicAnswer mem table none := by
  rintro ⟨rc, mem', hanswer, -⟩
  cases hanswer

/-! ## After a split

A dangling decode buffer can neither grow nor be written to, and it stays as it is. So no message
is decoded any more, and even one without sites is undefined behaviour. -/

section Dangling

variable {msg : Bytes} {store store' : Store Block} {ref ref' : FrameRef}

private theorem frameReserveRef_dangling (first second : Bool) (h : store.block ref.support = none)
    (capacity : UInt64) : frameReserveRef first second store ref capacity
      = if capacity ≤ ref.capacity.toUInt64 then some (0, ref, store) else none := by
  rw [frameReserveRef, Store.realloc, h]

private theorem frameWireUnpackRef_dangling (h : store.block ref.support = none)
    {status : FrameWireStatus}
    (hunpack : frameWireUnpackRef msg store ref = some (status, ref', store')) :
    status ≠ .ok ∧ ref'.support = ref.support ∧ store' = store := by
  simp only [frameWireUnpackRef, h] at hunpack
  split_ifs at hunpack with hstatus hcap
  · obtain ⟨rfl, rfl, rfl⟩ := by simpa using hunpack
    exact ⟨hstatus, rfl, rfl⟩
  · obtain ⟨rfl, rfl, rfl⟩ := by simpa using hunpack
    exact ⟨by decide, rfl, rfl⟩

private theorem sinkDecodeRef_dangling (first second : Bool) (h : store.block ref.support = none)
    {status : FrameWireStatus}
    (hdecode : sinkDecodeRef first second msg store ref = some (status, ref', store')) :
    status ≠ .ok ∧ ref'.support = ref.support ∧ store' = store := by
  obtain ⟨⟨status₁, ref₁, store₁⟩, hunpack, hrest⟩ := Option.bind_eq_some_iff.mp hdecode
  obtain ⟨hstatus, hsupport, rfl⟩ := frameWireUnpackRef_dangling h hunpack
  have h₁ : store₁.block ref₁.support = none := hsupport ▸ h
  simp only [frameReserveRef_dangling first second h₁] at hrest
  split_ifs at hrest with hwide hle
  · obtain ⟨hstatus', hsupport', hstore⟩ := frameWireUnpackRef_dangling h₁ hrest
    exact ⟨hstatus', hsupport'.trans hsupport, hstore⟩
  · cases hrest
  · obtain ⟨rfl, rfl, rfl⟩ := by simpa using hrest
    exact ⟨hstatus, hsupport, rfl⟩

private theorem dangling_sinkCall {mem mem' : SinkMemory} (h : mem.Dangling) (call : SinkCall)
    (hcall : sinkCall mem call = some mem') : mem'.Dangling := by
  obtain ⟨request, first, second⟩ := call
  obtain ⟨⟨rc, mem'⟩, hserve, rfl⟩ := Option.map_eq_some_iff.mp hcall
  cases request with
  | expect specs =>
    simp only [serveRef, sinkExpectRef, frameReserveRef_dangling first second h] at hserve
    split_ifs at hserve with hlen hlargest hle
    · obtain ⟨rfl, rfl⟩ := by simpa using hserve
      exact h
    · obtain ⟨rfl, rfl⟩ := by simpa using hserve
      exact h
    · cases hserve
    · obtain ⟨rfl, rfl⟩ := by simpa using hserve
      exact h
  | recv event =>
    cases event with
    | message msg =>
      obtain ⟨⟨status, ref, store⟩, hdecode, hserve⟩ := Option.bind_eq_some_iff.mp hserve
      obtain ⟨hstatus, hsupport, rfl⟩ := sinkDecodeRef_dangling first second h hdecode
      simp only [if_neg hstatus] at hserve
      obtain ⟨rfl, rfl⟩ := by simpa using hserve
      exact (congrArg _ hsupport).trans h
    | nothing | pollFailed | recvFailed =>
      obtain ⟨rfl, rfl⟩ := by simpa using hserve
      exact h

end Dangling

/-- The decode buffer of a sink is live, or a split has taken its support array. -/
theorem live_or_dangling {heap : Store Block} {check : Option SinkCheck} {mem₀ mem : SinkMemory}
    (hnew : sinkNewRef heap check = some mem₀) {calls : List SinkCall}
    (hexec : exec sinkCall mem₀ calls = some mem) : mem.Live ∨ mem.Dangling := by
  refine invariant (I := fun _ mem ↦ mem.Live ∨ mem.Dangling) (Or.inl (live_sinkNewRef hnew)) ?_
    hexec
  rintro - mem call mem' - (hlive | hdangling) hcall
  · obtain ⟨sink, hview, hsized⟩ := live_iff_view.mp hlive
    by_cases hsplit : Splits mem call
    · obtain ⟨mem'', hcall', hdangling⟩ := sinkCall_split call hview hsplit
      obtain rfl := Option.some.inj (hcall'.symm.trans hcall)
      exact Or.inr hdangling
    · obtain ⟨mem'', hserve, hview'⟩ := serveRef_refines call hview hsplit
      rw [sinkCall, hserve] at hcall
      obtain rfl := Option.some.inj hcall
      exact Or.inl (live_iff_view.mpr ⟨_, hview', sized_serve _ hsized _⟩)
  · exact Or.inr (dangling_sinkCall hdangling call hcall)

/-! ## One call

The cases follow the two answers of the allocator. Each of them names the memory that is left, and
whether it is the same can be read off. -/

section Call

variable {mem mem' : SinkMemory} {specs : List SinkCamSpec} {first second : Bool}

/-- Without growing the decode buffer a table is registered, whatever the allocator would say. -/
theorem sinkExpectRef_of_le (first second : Bool) (hlen : specs.length ≤ sinkMaxCameras)
    (hle : largestSpec specs ≤ mem.sink.decoded.capacity) :
    sinkExpectRef first second mem specs
      = some (0, { mem with sink := { mem.sink with specs := specs } }) := by
  simp only [sinkExpectRef, if_neg (not_lt.mpr hlen), frameReserveRef,
    if_pos (toUInt64_le_toUInt64.mpr hle)]
  split_ifs <;> rfl

private theorem sinkExpectRef_of_lt (first second : Bool) (hlen : specs.length ≤ sinkMaxCameras)
    (hlt : mem.sink.decoded.capacity < largestSpec specs) :
    sinkExpectRef first second mem specs
      = (frameReserveRef first second mem.store mem.sink.decoded (largestSpec specs).toUInt64).map
        fun (rc, decoded, store) ↦ (if rc ≠ 0 then -1 else 0,
          ⟨{ mem.sink with specs := specs, decoded := decoded }, store⟩) := by
  have hlargest : largestSpec specs ≠ 0 := by
    intro hzero
    rw [hzero] at hlt
    exact UInt32.not_lt_zero hlt
  simp only [sinkExpectRef, if_neg (not_lt.mpr hlen), if_pos hlargest]

private theorem sinkExpectRef_denied (second : Bool) (hlen : specs.length ≤ sinkMaxCameras)
    (hlive : mem.Live) (hlt : mem.sink.decoded.capacity < largestSpec specs) :
    sinkExpectRef false second mem specs
      = some (-1, { mem with sink := { mem.sink with specs := specs } }) := by
  obtain ⟨f, hview, -⟩ := hlive
  rw [sinkExpectRef_of_lt false second hlen hlt,
    frameReserveRef_unchanged false second hview (Or.inr rfl), if_neg (not_toUInt64_le_of_lt hlt)]
  rfl

private theorem sinkExpectRef_granted (hlen : specs.length ≤ sinkMaxCameras) (hlive : mem.Live)
    (hlt : mem.sink.decoded.capacity < largestSpec specs) :
    ∃ mem', sinkExpectRef true true mem specs = some (0, mem') ∧ Registered specs mem mem' := by
  obtain ⟨f, hview, -⟩ := hlive
  have hcap := not_toUInt64_le_of_lt hlt
  obtain ⟨ref, store, hreserve, hview'⟩ := frameReserveRef_granted hview hcap
  have hwide : ref.capacity = largestSpec specs := by
    rw [← capacity_view hview', frameReserve, capacity_view hview, if_neg hcap, if_pos rfl]
    exact UInt32.toUInt32_toUInt64 _
  rw [sinkExpectRef_of_lt true true hlen hlt, hreserve]
  refine ⟨_, rfl, rfl, fun spec hspec ↦ ?_, ?_⟩
  · exact UInt32.le_trans (le_largestSpec hspec) (UInt32.le_of_eq hwide.symm)
  · exact UInt32.le_of_lt (hwide ▸ hlt)

/-- A split: the call fails and the decode buffer names an array that is gone. -/
theorem sinkExpectRef_split (hlen : specs.length ≤ sinkMaxCameras) (hlive : mem.Live)
    (hlt : mem.sink.decoded.capacity < largestSpec specs) :
    ∃ mem', sinkExpectRef true false mem specs = some (-1, mem') ∧ mem'.Dangling := by
  obtain ⟨f, hview, -⟩ := hlive
  obtain ⟨store, hreserve, hdead⟩ :=
    frameReserveRef_split (largestSpec specs).toUInt64 hview (not_toUInt64_le_of_lt hlt)
  rw [sinkExpectRef_of_lt true false hlen hlt, hreserve]
  exact ⟨_, rfl, hdead⟩

private theorem frameWireUnpackRef_emptyMessage (hdangling : mem.Dangling) :
    frameWireUnpackRef (emptyMessage 0 0 0) mem.store mem.sink.decoded = none := by
  have hpeek : frameWirePeek (emptyMessage 0 0 0) .uninit
      = (.ok, FrameWireHeader.ofBytes (emptyMessage 0 0 0)) := by decide +kernel
  have hcount : (FrameWireHeader.ofBytes (emptyMessage 0 0 0)).count = 0 := by decide +kernel
  rw [SinkMemory.Dangling] at hdangling
  simp only [frameWireUnpackRef, hpeek, hdangling, hcount, if_neg (not_not.mpr rfl),
    if_neg UInt32.not_lt_zero]

private theorem not_untouched_of_dangling (hlive : mem.Live) (hdangling : mem'.Dangling) :
    ¬Untouched mem mem' := by
  intro h
  set call : SinkCall := ⟨.recv (.message (emptyMessage 0 0 0)), true, true⟩ with hcall
  obtain ⟨sink, hview, -⟩ := live_iff_view.mp hlive
  have hwhole : ¬Splits mem call := fun hsplit ↦ Bool.false_ne_true hsplit.2.2.symm
  obtain ⟨mem'', hserve, -⟩ := serveRef_refines call hview hwhole
  have hbefore : ledgerAfter mem [call] = some mem''.sink.toLedger := by
    rw [ledgerAfter, exec_cons, sinkCall, hserve]
    rfl
  have hafter : ledgerAfter mem' [call] = none := by
    simp only [ledgerAfter, exec_cons, sinkCall, serveRef, hcall, sinkRecvRef, sinkDecodeRef,
      frameWireUnpackRef_emptyMessage hdangling, Option.bind_none, Option.map_none]
  rw [h.later [call], hbefore] at hafter
  cases hafter

private theorem atomicAnswer_growing (hlen : specs.length ≤ sinkMaxCameras) (hlive : mem.Live)
    (hlt : mem.sink.decoded.capacity < largestSpec specs) :
    AtomicAnswer mem specs (sinkExpectRef first second mem specs) ↔
      (first = true ∧ second = true) ∨ (first = false ∧ specs = mem.sink.specs) := by
  cases first with
  | false =>
    rw [sinkExpectRef_denied second hlen hlive hlt, atomicAnswer_failed_iff]
    constructor
    · intro huntouched
      exact Or.inr ⟨rfl, huntouched.specs⟩
    · rintro (⟨hfirst, -⟩ | ⟨-, rfl⟩)
      · cases hfirst
      · exact untouched_self mem
  | true =>
    cases second with
    | false =>
      obtain ⟨mem', hcall, hdangling⟩ := sinkExpectRef_split hlen hlive hlt
      rw [hcall, atomicAnswer_failed_iff]
      exact iff_of_false (not_untouched_of_dangling hlive hdangling) (by simp)
    | true =>
      obtain ⟨mem', hcall, hregistered⟩ := sinkExpectRef_granted hlen hlive hlt
      rw [hcall]
      exact iff_of_true (atomicAnswer_zero hregistered) (Or.inl ⟨rfl, rfl⟩)

end Call

/-- **When a call is all or nothing.** It fails on its arguments, or the decode buffer has the room,
or it is live and both arrays can be grown, or it is live, the first of them cannot and the table is
the one in force. -/
theorem expectAtomic_iff {heap : Store Block} {check : Option SinkCheck} {mem₀ mem : SinkMemory}
    (hnew : sinkNewRef heap check = some mem₀) {calls : List SinkCall}
    (hexec : exec sinkCall mem₀ calls = some mem) (first second : Bool)
    (specs : Option (List SinkCamSpec)) (n : ℕ) :
    ExpectAtomic first second mem specs n ↔
      BadArguments specs n ∨ largestSpec (givenSpecs specs n) ≤ mem.sink.decoded.capacity ∨
        (mem.Live ∧ ((first = true ∧ second = true) ∨
          (first = false ∧ givenSpecs specs n = mem.sink.specs))) := by
  rw [ExpectAtomic, sinkExpectArgs]
  by_cases hbad : BadArguments specs n
  · rw [if_pos hbad]
    exact iff_of_true (atomicAnswer_failed_iff.mpr (untouched_self mem)) (Or.inl hbad)
  have hlen : (givenSpecs specs n).length ≤ sinkMaxCameras :=
    (List.length_take_le _ _).trans (not_lt.mp (not_or.mp hbad).2)
  rw [if_neg hbad, or_iff_right hbad]
  generalize givenSpecs specs n = table at hlen
  by_cases hle : largestSpec table ≤ mem.sink.decoded.capacity
  · rw [sinkExpectRef_of_le first second hlen hle]
    refine iff_of_true (atomicAnswer_zero ⟨rfl, fun spec hspec ↦ ?_, UInt32.le_refl _⟩)
      (Or.inl hle)
    exact UInt32.le_trans (le_largestSpec hspec) hle
  have hlt := UInt32.not_le.mp hle
  rw [or_iff_right hle]
  rcases live_or_dangling hnew hexec with hlive | hdangling
  · rw [and_iff_right hlive]
    exact atomicAnswer_growing hlen hlive hlt
  · -- the call would touch the array that is gone
    rw [sinkExpectRef_of_lt first second hlen hlt,
      frameReserveRef_dangling first second hdangling, if_neg (not_toUInt64_le_of_lt hlt)]
    exact iff_of_false not_atomicAnswer_none fun h ↦ not_live_of_dangling hdangling h.1

/-- A table with one site more than the buffer has, and an allocator that can serve it. -/
theorem expectAtomic_five :
    ∃ mem, sinkNewRef .empty (some ⟨.fin 0, .fin 1, 4⟩) = some mem ∧ mem.Live ∧
      ExpectAtomic true true mem (some [⟨3, 5, .fin 0⟩]) 1 := by
  obtain ⟨mem, hnew⟩ : ∃ mem, sinkNewRef .empty (some ⟨.fin 0, .fin 1, 4⟩) = some mem := ⟨_, rfl⟩
  have hlive := live_sinkNewRef hnew
  exact ⟨mem, hnew, hlive, (expectAtomic_iff hnew (exec_nil mem) true true _ 1).mpr
    (Or.inr (Or.inr ⟨hlive, Or.inl ⟨rfl, rfl⟩⟩))⟩

/-- The same table, and an allocator that cannot: the call returns -1, the table is in force, and
the next camera that is not in it is counted. -/
theorem not_expectAtomic_five :
    ∃ mem mem', sinkNewRef .empty (some ⟨.fin 0, .fin 1, 4⟩) = some mem ∧
      sinkExpectArgs false false mem (some [⟨3, 5, .fin 0⟩]) 1 = some (-1, mem') ∧
      mem.sink.specs = [] ∧ mem'.sink.specs = [⟨3, 5, .fin 0⟩] ∧
      (ledgerAfter mem [⟨.recv (.message (emptyMessage 7 10 0)), true, true⟩]).map
        (fun sink ↦ sink.stats.unexpectedCams) = some 0 ∧
      (ledgerAfter mem' [⟨.recv (.message (emptyMessage 7 10 0)), true, true⟩]).map
        (fun sink ↦ sink.stats.unexpectedCams) = some 1 ∧
      ¬ExpectAtomic false false mem (some [⟨3, 5, .fin 0⟩]) 1 := by
  refine ⟨_, _, rfl, rfl, rfl, rfl, by decide +kernel, by decide +kernel, ?_⟩
  intro h
  have hspecs := (atomicAnswer_failed_iff.mp h).specs
  cases hspecs

end SparseCamera
