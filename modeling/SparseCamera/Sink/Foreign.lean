import SparseCamera.Sink.Lookup
import SparseCamera.Sink.Verdict
import SparseCamera.Wire.RoundTrip

/-!
# Foreign traffic

Messages of other cameras and messages that do not parse go through the same decode buffer and the
same table as those of a camera. All they can do to it is to take the slots before it sends
anything: then its frames are not checked at all.

## The construction

The table is kept by a policy, and for a policy it is known what other keys can do to a key: they
can use up the room before it appears (`start_inserted_iff`). What is left is to read a run of the
sink as a history of that table. Messages that do not parse are no entries of the history, and the
decode buffer has no say with an allocator that never refuses.
-/

namespace SparseCamera

open KeyedHistory KeyedTable

/-- The record a camera has after some messages and how each of its frames was checked, with an
allocator that never refuses. -/
def recorded (id : UInt32) (sink : Sink) (messages : List Bytes) :
    Option CamState × List Check :=
  ((receive sink (messages.map fun msg ↦ (msg, true))).record id,
    checksOf id sink.toLedger (messages.map parse))

/-- A message that does not parse or is another camera's. -/
def Foreign (id : UInt32) (msg : Bytes) : Prop := ∀ f, parse msg = some f → f.cameraId ≠ id

section Recorded

variable {sink : Sink} {id : UInt32} {messages messages' : List Bytes}

theorem recorded_eq (htabled : sink.toLedger.Tabled) (hsized : sink.decoded.Sized) :
    recorded id sink messages
      = ((sink.policy.run sink.table (framesOf messages)).held id,
        (sink.policy.looks id sink.table (framesOf messages)).map (checkOf sink.check)) := by
  obtain ⟨hrun, -, -, htable⟩ := foldl_observe_tabled htabled (messages.map parse)
  have hchecks := checksOf_eq htabled id (messages.map parse)
  rw [← toLedger_receive_granted hsized] at hrun htable
  obtain ⟨ids, rec, hby⟩ := hrun
  rw [recorded, hchecks, ← held_table hby, htable, framesOf]

/-- What is recorded of a camera depends on its own stream and the record it starts from. -/
theorem recorded_eq_stream (htabled : sink.toLedger.Tabled) (hsized : sink.decoded.Sized) :
    recorded id sink messages
      = (if stream Contents.cameraId (framesOf messages) id = [] then sink.table.held id
          else (sink.policy.start sink.table (framesOf messages) id).map fun r ↦
            (stream Contents.cameraId (framesOf messages) id).foldl advance r,
        (sink.policy.found (sink.policy.start sink.table (framesOf messages) id)
          (stream Contents.cameraId (framesOf messages) id)).map (checkOf sink.check)) := by
  rw [recorded_eq htabled hsized, Policy.held_run, Policy.looks_eq]
  rfl

private theorem start_of_checks {p : Policy Contents UInt32 CamState} {check : SinkCheck}
    {frames : List Contents} {r r' : Option CamState} (hne : frames ≠ [])
    (h : (p.found r frames).map (checkOf check) = (p.found r' frames).map (checkOf check)) :
    r = r' := by
  cases frames with
  | nil => exact absurd rfl hne
  | cons f frames =>
    rw [Policy.found, Policy.found, List.map_cons, List.map_cons] at h
    exact congrArg Check.against (List.cons.inj h).1

theorem inserted_framesOf (h : Inserted (Foreign id) messages messages') :
    Inserted (fun f : Contents ↦ f.cameraId ≠ id) (framesOf messages) (framesOf messages') := by
  induction h with
  | nil => exact .nil
  | keep msg _ ih =>
    rw [framesOf, framesOf, List.map_cons, List.map_cons]
    cases parse msg with
    | none =>
      rw [List.reduceOption_cons_of_none, List.reduceOption_cons_of_none]
      exact ih
    | some f =>
      rw [List.reduceOption_cons_of_some, List.reduceOption_cons_of_some]
      exact .keep f ih
  | @add msg hforeign _ _ _ ih =>
    have hcons (msgs : List Bytes) : framesOf (msg :: msgs)
        = (parse msg).toList ++ framesOf msgs := by
      rw [framesOf, List.map_cons]
      cases parse msg with
      | none => rw [List.reduceOption_cons_of_none]; rfl
      | some f => rw [List.reduceOption_cons_of_some]; rfl
    rw [hcons]
    cases hparse : parse msg with
    | none => exact ih
    | some f =>
      exact @Inserted.add _ (fun f : Contents ↦ f.cameraId ≠ id) f (hforeign f hparse) _ _ ih

/-- **When foreign traffic does not change what is recorded about a camera**: when it leaves the
camera a slot, or the camera found none even without it, or sent nothing. -/
theorem recorded_inserted_iff {check : Option SinkCheck} (hserved : Served check sink)
    (h : Inserted (Foreign id) messages messages') :
    recorded id sink messages = recorded id sink messages' ↔
      stream Contents.cameraId (framesOf messages) id = [] ∨ sink.GetsSlot (framesOf messages') id ∨
        ¬sink.GetsSlot (framesOf messages) id := by
  obtain ⟨htabled, hsized⟩ := hserved.tabled
  have hins : Inserted (fun f ↦ sink.policy.key f ≠ id) (framesOf messages) (framesOf messages') :=
    inserted_framesOf h
  have hstream : stream Contents.cameraId (framesOf messages') id
      = stream Contents.cameraId (framesOf messages) id := Policy.stream_of_inserted hins
  have hstart := @Policy.start_inserted_iff _ _ _ _ _ sink.table _ _ _ hins
  rw [recorded_eq_stream htabled hsized, recorded_eq_stream htabled hsized, hstream,
    Ledger.GetsSlot, Ledger.GetsSlot, ← hstart, Prod.mk.injEq]
  by_cases hnil : stream Contents.cameraId (framesOf messages) id = []
  · rw [hnil]
    exact iff_of_true ⟨rfl, rfl⟩ (Or.inl rfl)
  · constructor
    · rintro ⟨-, hchecks⟩
      exact Or.inr (start_of_checks hnil hchecks)
    · rintro (hnil' | heq)
      · exact absurd hnil' hnil
      · rw [heq]
        exact ⟨rfl, rfl⟩

end Recorded

/-! ## Sixteen strangers -/

private theorem parse_emptyMessage (id : UInt32) (tNs : Int64) (sequence : UInt64) :
    parse (emptyMessage id tNs sequence) = some ⟨id, tNs, sequence, [], []⟩ :=
  @parse_image ⟨[], [], tNs, sequence, id, 0, 0⟩ ⟨Nat.le_refl _, Nat.le_refl _⟩

theorem foreign_emptyMessage {id id' : UInt32} (h : id' ≠ id) (tNs : Int64) (sequence : UInt64) :
    Foreign id (emptyMessage id' tNs sequence) := by
  intro f hf
  rw [parse_emptyMessage] at hf
  obtain rfl := Option.some.inj hf
  exact h

/-- A camera sends between two messages that are not its own. -/
theorem recorded_inserted_two :
    ∃ sink, Served (some ⟨.fin 0, .fin 1, 4⟩) sink ∧ Configured sink.specs 16 ∧
      recorded 16 sink [emptyMessage 16 10 0, emptyMessage 16 11 1]
        = recorded 16 sink
          [[0], emptyMessage 16 10 0, emptyMessage 3 12 7, emptyMessage 16 11 1] := by
  have hnew : sinkNew (some ⟨.fin 0, .fin 1, 4⟩) = some _ := rfl
  have hserved := Served.serve (.new hnew) true (.expect [⟨16, 4, .fin 0⟩])
  refine ⟨_, hserved, by decide +kernel, ?_⟩
  have hshort : Foreign 16 [0] := by
    intro f hf
    rw [parse_eq_none.mpr fun h ↦ absurd h.long (by decide)] at hf
    cases hf
  refine (recorded_inserted_iff hserved (.add hshort (.keep _ (.add
    (foreign_emptyMessage (by decide) 12 7) (.keep _ .nil))))).mpr (Or.inr (Or.inl ?_))
  decide +kernel

/-- Sixteen strangers take all slots before the one configured camera sends: it has a record
without them and none with them. -/
theorem recorded_sixteen_strangers :
    ∃ sink, Served (some ⟨.fin 0, .fin 1, 4⟩) sink ∧ Configured sink.specs 16 ∧
      Inserted (Foreign 16) [emptyMessage 16 10 0] seventeenMessages ∧
      (recorded 16 sink [emptyMessage 16 10 0]).1.isSome = true ∧
      (recorded 16 sink seventeenMessages).1 = none := by
  have hnew : sinkNew (some ⟨.fin 0, .fin 1, 4⟩) = some _ := rfl
  have hserved := Served.serve (.new hnew) true (.expect [⟨16, 4, .fin 0⟩])
  refine ⟨_, hserved, by decide +kernel, ?_, by decide +kernel, by decide +kernel⟩
  refine @Inserted.append _ _ ((List.range 16).map fun i ↦ emptyMessage (.ofNat i) 10 0) ?_ _
  intro msg hmsg
  obtain ⟨i, hi, rfl⟩ := List.mem_map.mp hmsg
  refine foreign_emptyMessage (fun heq ↦ ?_) 10 0
  have hlt := List.mem_range.mp hi
  have hnat := congrArg UInt32.toNat heq
  rw [UInt32.toNat_ofNat_of_lt' (hlt.trans (by decide))] at hnat
  exact absurd hnat (Nat.ne_of_lt hlt)

end SparseCamera
