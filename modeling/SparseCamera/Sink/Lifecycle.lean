import SparseCamera.Lib.Dependencies
import SparseCamera.Sink.Basic

/-!
# Opening and closing the sink

`sink_new` takes five steps that can fail. All but the first of them end in `sink_del`, which finds
out from the fields of the structure what there is to give back. Unlike a camera, the sink has
nothing that is torn down before it was brought up.
-/

namespace SparseCamera

open Resources

/-- What the steps of `sink_new` come to. -/
structure SinkNewEnv where
  /-- The structure is allocated. -/
  sink : Bool
  decoded : Bool
  zmqCtx : Bool
  socket : Bool
  bind : Bool

inductive SinkResource where
  | sink
  | decoded
  | zmqCtx
  | socket
deriving DecidableEq

/-- The parts of a `struct sink` by which `sink_del` goes. -/
structure SinkParts where
  decoded : Bool
  zmqCtx : Bool
  socket : Bool
deriving DecidableEq

/-- The structure as `calloc` leaves it. -/
def SinkParts.blank : SinkParts := ⟨false, false, false⟩

/-- A `struct sink` that was built. -/
structure OpenSink extends Sink where
  parts : SinkParts

/-- `sink_del`: what is given back. -/
def sinkDel (parts : SinkParts) : List (Use SinkResource) :=
  (if parts.socket then [.release .socket] else []) ++
    (if parts.zmqCtx then [.release .zmqCtx] else []) ++
    (if parts.decoded then [.release .decoded] else []) ++ [.release .sink]

/-- `sink_release`, after what was obtained so far. -/
def sinkRelease (parts : SinkParts) (obtained : List (Use SinkResource)) :
    Option OpenSink × List (Use SinkResource) :=
  (none, obtained ++ sinkDel parts)

/-- `sink_new` with steps that can fail: the sink and the log. -/
def sinkNewWith (env : SinkNewEnv) (endpoint : Option Bytes) (check : Option SinkCheck) :
    Option OpenSink × List (Use SinkResource) :=
  if endpoint = none then (none, [])
  else if env.sink = false then (none, [])
  else
    let parts := SinkParts.blank
    let log : List (Use SinkResource) := [.acquire .sink]
    let check := check.getD ⟨.fin 0, .fin 0, 0⟩
    let check := if check.tol.le (.fin 0) then { check with tol := .fin (1 / 2) } else check
    match
      if env.decoded then newFrames (if check.maxSites ≠ 0 then check.maxSites.toUInt64 else 4096)
      else none with
    | none => sinkRelease parts log
    | some decoded =>
      let parts := { parts with decoded := true }
      let log := log ++ [.acquire .decoded]
      if env.zmqCtx = false then sinkRelease parts log
      else
        let parts := { parts with zmqCtx := true }
        let log := log ++ [.acquire .zmqCtx]
        if env.socket = false then sinkRelease parts log
        else
          let parts := { parts with socket := true }
          let log := log ++ [.acquire .socket]
          if env.bind = false then sinkRelease parts log
          else
            let sink : OpenSink :=
              { check := check
                stats := .zero
                cams := List.replicate sinkMaxCameras .blank
                specs := []
                decoded := decoded
                parts := parts }
            (some sink, log)

/-- What a part of the sink needs: the structure, and the socket its context. -/
def SinkResource.needs : SinkResource → List (SinkResource → Bool)
  | sink => []
  | decoded => [(· == sink)]
  | zmqCtx => [(· == sink)]
  | socket => [(· == sink), (· == zmqCtx)]

/-- What a sink obtains, in this order. -/
def sinkResources : List SinkResource := [.sink, .decoded, .zmqCtx, .socket]

section Cases

variable {env : SinkNewEnv} {endpoint : Option Bytes} {check : Option SinkCheck}
  {log : List (Use SinkResource)}

/-- **A sink that was not opened** has given everything back, a part before what it needs. -/
theorem sinkNewWith_none (h : sinkNewWith env endpoint check = (none, log)) :
    Takes SinkResource.needs 0 log 0 := by
  have hnothing (h : ([] : List (Use SinkResource)) = log) :
      Takes SinkResource.needs 0 log 0 := by
    rw [← h]
    decide
  -- `sink_del` undoes what was done, however far it got
  have hundo {parts : SinkParts} {obtained : List (Use SinkResource)}
      (hgood : Takes SinkResource.needs 0 (obtained ++ sinkDel parts) 0)
      (h : sinkRelease parts obtained = (none, log)) :
      Takes SinkResource.needs 0 log 0 := by
    rw [← (Prod.mk.inj h).2]
    exact hgood
  rw [sinkNewWith] at h
  by_cases hendpoint : endpoint = none
  · rw [if_pos hendpoint] at h
    exact hnothing (Prod.mk.inj h).2
  by_cases hsink : env.sink = false
  · rw [if_neg hendpoint, if_pos hsink] at h
    exact hnothing (Prod.mk.inj h).2
  rw [if_neg hendpoint, if_neg hsink] at h
  simp only at h
  split at h
  · exact hundo (by decide) h
  · by_cases hctx : env.zmqCtx = false
    · rw [if_pos hctx] at h
      exact hundo (by decide) h
    by_cases hsocket : env.socket = false
    · rw [if_neg hctx, if_pos hsocket] at h
      exact hundo (by decide) h
    by_cases hbind : env.bind = false
    · rw [if_neg hctx, if_neg hsocket, if_pos hbind] at h
      exact hundo (by decide) h
    · rw [if_neg hctx, if_neg hsocket, if_neg hbind] at h
      cases h

/-- **A sink that was opened** is the sink that `sinkNew` makes, and holds all its parts. -/
theorem sinkNewWith_some {sink : OpenSink}
    (h : sinkNewWith env endpoint check = (some sink, log)) :
    sinkNew check = some sink.toSink ∧ log = sinkResources.map .acquire ∧
      sinkDel sink.parts = sinkResources.reverse.map .release := by
  rw [sinkNewWith] at h
  by_cases hendpoint : endpoint = none
  · rw [if_pos hendpoint] at h
    cases h
  by_cases hsink : env.sink = false
  · rw [if_neg hendpoint, if_pos hsink] at h
    cases h
  rw [if_neg hendpoint, if_neg hsink] at h
  simp only at h
  cases hdecoded : env.decoded with
  | false =>
    rw [hdecoded] at h
    cases h
  | true =>
    rw [hdecoded, if_pos rfl] at h
    split at h
    · cases h
    · next decoded hnew =>
      by_cases hctx : env.zmqCtx = false
      · rw [if_pos hctx] at h
        cases h
      by_cases hsocket : env.socket = false
      · rw [if_neg hctx, if_pos hsocket] at h
        cases h
      by_cases hbind : env.bind = false
      · rw [if_neg hctx, if_neg hsocket, if_pos hbind] at h
        cases h
      rw [if_neg hctx, if_neg hsocket, if_neg hbind] at h
      obtain ⟨hopen, rfl⟩ := Prod.mk.inj h
      obtain rfl := Option.some.inj hopen
      refine ⟨?_, rfl, rfl⟩
      rw [sinkNew]
      simp only [hnew]

end Cases

theorem takes_sinkResources :
    Takes SinkResource.needs 0 (sinkResources.map .acquire) sinkResources := by
  decide

end SparseCamera
