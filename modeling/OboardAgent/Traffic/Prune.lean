import OboardAgent.Traffic.Observe

/-!
# Pruning

`pruneTrafficStreamsLocked`: the streams that leave the state. A stream that a pending report
refers to stays. Of the others, those leave whose identity is incomplete, and those that have not
been observed for two weeks and whose bytes are all accepted.
-/

namespace OboardAgent.Traffic

open GoStrings

def trafficStreamRetention : Int := 14 * 24 * 60 * 60 * 1000000000

namespace TrafficStreamState

/-- The identity the Controller stores a stream under is complete. -/
def identityComplete (stream : TrafficStreamState) : Bool :=
  trimSpace stream.snapshotKey ≠ "" && trimSpace stream.counterEpoch ≠ "" &&
    trimSpace stream.periodKey ≠ "" && 0 < stream.userID

def prune (stream : TrafficStreamState) (now : Int) : Option TrafficStreamState :=
  if !stream.identityComplete then none
  else if trimSpace stream.lastObservedAt = "" then
    some { stream with lastObservedAt := Rfc3339.format now }
  else
    match Rfc3339.parse stream.lastObservedAt with
    | none => some { stream with lastObservedAt := Rfc3339.format now }
    | some observedAt =>
      if now - observedAt < trafficStreamRetention then some stream
      else if stream.observed ≠ stream.accepted then some stream
      else none

end TrafficStreamState

namespace TrafficLocalState

variable (st : TrafficLocalState)

def referenced (streamID : String) : Bool :=
  st.pendingReports.anyVal fun p => p.streamID = streamID

def pruneStream (now : Int) (streamID : String)
    (stream : TrafficStreamState) : Option TrafficStreamState :=
  if st.referenced streamID then some stream else stream.prune now

def pruneTrafficStreams (now : Int) : TrafficLocalState × Bool :=
  ({ st with streams := st.streams.filterMap (st.pruneStream now) },
    st.streams.entries.any fun e => st.pruneStream now e.1 e.2 ≠ some e.2)

end TrafficLocalState

/-! ## What pruning does to one stream -/

theorem TrafficLocalState.lookup_prune (st : TrafficLocalState) (now : Int) (streamID : String) :
    (st.pruneTrafficStreams now).1.streams.lookup streamID
      = (st.streams.lookup streamID).bind (st.pruneStream now streamID) :=
  GoMap.lookup_filterMap _ _ _

theorem TrafficStreamState.prune_some {stream stream' : TrafficStreamState} {now : Int}
    (h : stream.prune now = some stream') :
    ∃ date, stream' = { stream with lastObservedAt := date } := by
  revert h
  fun_cases TrafficStreamState.prune stream now with
  | case1 | case6 => exact nofun
  | case2 | case3 | case4 | case5 =>
    rintro ⟨⟩
    exact ⟨_, rfl⟩

theorem TrafficLocalState.pruneStream_some {st : TrafficLocalState} {now : Int} {streamID : String}
    {stream stream' : TrafficStreamState} (h : st.pruneStream now streamID stream = some stream') :
    ∃ date, stream' = { stream with lastObservedAt := date } := by
  unfold TrafficLocalState.pruneStream at h
  split at h
  · rw [Option.some.injEq] at h
    exact ⟨stream.lastObservedAt, h.symm⟩
  · exact TrafficStreamState.prune_some h

theorem TrafficStreamState.prune_none {stream : TrafficStreamState} {now : Int}
    (h : stream.prune now = none) :
    stream.identityComplete = false ∨ stream.observed = stream.accepted := by
  revert h
  fun_cases TrafficStreamState.prune stream now with
  | case1 hid => exact fun _ => Or.inl (by simpa using hid)
  | case6 _ _ _ _ _ hall => exact fun _ => Or.inr (by simpa using hall)
  | case2 | case3 | case4 | case5 => exact nofun

end OboardAgent.Traffic
