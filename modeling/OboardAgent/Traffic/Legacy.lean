import OboardAgent.Traffic.Observe
import OboardAgent.Lib.Run

/-!
# Reports of the ledger's first version

`convertLegacyPendingToRangesLocked` and `finishLegacyTrafficBridgeLocked`. A state file of the
first version holds pending reports as amounts of bytes, together with the counters they were
taken from. Each becomes a range once the epoch of its stream is known; until then it stays in
the list. When the list is empty, what the first version knew of every other counter becomes a
stream.

The two loops are runs (`Run.exec`) of a function of one element, so that what an iteration does
is said at the state it starts from.
-/

namespace OboardAgent.Traffic

open GoStrings

namespace TrafficLocalState

def legacySource (st : TrafficLocalState) (key : String) : String :=
  match st.last.lookup key with
  | none => trafficSourceCore
  | some last => if trimSpace last.source ≠ "" then last.source else trafficSourceCore

def legacyEpoch (st : TrafficLocalState) (key streamEpoch : String) : String :=
  if streamEpoch ≠ "" then streamEpoch
  else
    match st.last.lookup key with
    | none => ""
    | some last => last.counterEpoch

end TrafficLocalState

def legacyFrom (p : TrafficPendingReport) : Counters :=
  let upload := int64 (p.cumulative.upload - p.bytes.upload)
  let download := int64 (p.cumulative.download - p.bytes.download)
  { upload := if upload < 0 then 0 else upload
    download := if download < 0 then 0 else download }

def legacyStream (st : TrafficLocalState) (streamID : String) (p : TrafficPendingReport) :
    TrafficStreamState :=
  let stream := (st.streams.lookup streamID).getD
    { source := st.legacySource p.snapshotKey, snapshotKey := p.snapshotKey, userID := p.userID
      status := .healthy }
  { stream with
    inboundID := p.inboundID.getD stream.inboundID
    pathID := p.pathID.getD stream.pathID
    accepted := if stream.accepted = 0 then legacyFrom p else stream.accepted
    observed := p.cumulative
    periodKey := if stream.periodKey = "" then p.periodKey else stream.periodKey }

namespace Runner

variable (r : Runner) (st : TrafficLocalState) (p : TrafficPendingReport)

def legacyStreamID : String :=
  r.trafficStreamID (st.legacySource p.snapshotKey) p.snapshotKey

def legacyRange (epoch : String) : TrafficPendingRange :=
  let report : TrafficPendingRange :=
    { reportID := p.reportID, source := st.legacySource p.snapshotKey
      streamID := r.legacyStreamID st p, counterEpoch := epoch, periodKey := p.periodKey
      userID := p.userID, inboundID := p.inboundID, pathID := p.pathID
      fromBytes := legacyFrom p, toBytes := p.cumulative
      startedAt := p.startedAt, endedAt := p.endedAt, snapshotKey := p.snapshotKey }
  if trimSpace p.reportID = "" then { report with reportID := r.trafficRangeReportID report }
  else report

def convertEpoch : String :=
  st.legacyEpoch p.snapshotKey (legacyStream st (r.legacyStreamID st p) p).counterEpoch

/-- The range an iteration of the conversion queues. Without an inbound the report can never be
accounted; it is dropped. -/
def convertedRange : Option TrafficPendingRange :=
  if r.convertEpoch st p = "" then none
  else if p.inboundID.getD 0 ≤ 0 then none
  else some (r.legacyRange st p (r.convertEpoch st p))

def convertedStream : TrafficStreamState :=
  let stream := legacyStream st (r.legacyStreamID st p) p
  match r.convertedRange st p with
  | none => stream
  | some _ => { stream with counterEpoch := r.convertEpoch st p }

def convertOne : TrafficLocalState :=
  { st with
    streams := st.streams.insert (r.legacyStreamID st p) (r.convertedStream st p) }.queue
      (r.convertedRange st p)

def legacyRemaining (r : Runner) : TrafficLocalState → List TrafficPendingReport →
    List TrafficPendingReport
  | _, [] => []
  | st, p :: ps =>
    let rest := legacyRemaining r (r.convertOne st p) ps
    if r.convertEpoch st p = "" then p :: rest else rest

def convertChanges : Bool :=
  (st.streams.lookup (r.legacyStreamID st p)).isNone ||
    (r.convertedRange st p).isSome

def convertAnyChange (r : Runner) : TrafficLocalState → List TrafficPendingReport → Bool
  | _, [] => false
  | st, p :: ps => r.convertChanges st p || convertAnyChange r (r.convertOne st p) ps

def lastSource (last : TrafficSnapshotItem) : String :=
  if last.source = "" then trafficSourceCore else last.source

def bridgedCheckpoint (key : String) (last : TrafficSnapshotItem) : Counters :=
  match st.acknowledged.lookup key with
  | some ack => ack.counters
  | none => last.counters

def bridgeOne (entry : Σ _ : String, TrafficSnapshotItem) : TrafficLocalState :=
  let key := entry.1
  let last := entry.2
  if last.counterEpoch = "" then st
  else
    let streamID := r.trafficStreamID (lastSource last) key
    let stream := (st.streams.lookup streamID).getD {}
    let bridged := { stream with
      source := lastSource last
      snapshotKey := key
      counterEpoch := last.counterEpoch
      periodKey := last.periodKey
      userID := last.userID
      inboundID := last.inboundID
      pathID := last.pathID
      observed := last.counters
      accepted := bridgedCheckpoint st key last
      status := .healthy }
    { st with streams := st.streams.insert streamID bridged }

def finishLegacyTrafficBridge : TrafficLocalState :=
  if st.pending ≠ [] then st
  else Run.exec r.bridgeOne { st with schemaVersion := trafficStateSchemaV2 } st.last.entries

def convertedRanges : List TrafficPendingRange :=
  Run.outputs r.convertOne (fun st p => (r.convertedRange st p).toList) st st.pending

/-- `convertLegacyPendingToRangesLocked`: the state, and whether anything changed. -/
def convertLegacyPendingToRanges : TrafficLocalState × Bool :=
  if st.pending = [] then (st, false)
  else
    let st' := { Run.exec r.convertOne st st.pending with
      pending := r.legacyRemaining st st.pending }
    if st'.pending = [] then (r.finishLegacyTrafficBridge st', true)
    else (st', r.convertAnyChange st st.pending)

def bridgeStart : TrafficLocalState :=
  { Run.exec r.convertOne st st.pending with
    pending := r.legacyRemaining st st.pending
    schemaVersion := trafficStateSchemaV2 }

/-- **The rule for the conversion.** A property of the streams and pending reports that every
iteration of the two loops keeps is kept by the conversion. -/
theorem convert_rule {I : TrafficLocalState → Prop}
    {P : TrafficLocalState → TrafficPendingReport → Prop}
    {Q : TrafficLocalState → (Σ _ : String, TrafficSnapshotItem) → Prop}
    (hone : ∀ st p, I st → P st p → I (r.convertOne st p))
    (hbridge : ∀ st e, I st → Q st e → I (r.bridgeOne st e))
    (hledger : ∀ st st', I st → st'.streams = st.streams →
      st'.pendingReports = st.pendingReports → I st')
    {st : TrafficLocalState} (h : I st) (hP : Run.Along r.convertOne P st st.pending)
    (hQ : st.pending ≠ [] → r.legacyRemaining st st.pending = [] →
      Run.Along r.bridgeOne Q (r.bridgeStart st) (r.bridgeStart st).last.entries) :
    I (r.convertLegacyPendingToRanges st).1 := by
  have hconverted := Run.invariant hone h hP
  unfold convertLegacyPendingToRanges
  simp only
  split
  · exact h
  · rename_i hsome
    split
    · rename_i hnone
      unfold finishLegacyTrafficBridge
      rw [if_neg (not_not.mpr hnone)]
      have hstart : I (r.bridgeStart st) := hledger _ _ hconverted rfl rfl
      exact Run.invariant hbridge hstart (hQ hsome hnone)
    · exact hledger _ _ hconverted rfl rfl

end Runner

end OboardAgent.Traffic
