import OboardAgent.Traffic.Controller

/-!
# What identifies an item of a request

The Controller keeps source, stream, epoch, period and user as one identity.
`trafficStreamWireBatch` leaves out an observation that misses a part of it.
`trafficLedgerReportBatch` looks at the inbound only, and a counter that has no period yet can have
queued a range.
-/

namespace OboardAgent.Traffic

open GoStrings TrafficLocalState

structure TrafficStreamWire where
  source : String
  streamID : String
  counterEpoch : String
  periodKey : String
  userID : Int
  inboundID : Int
  pathID : Int
  current : Counters
  status : TrafficStatus
deriving DecidableEq, Repr

namespace Runner

/-- `add` of `trafficStreamWireBatch`, but for the streams it has seen; the item's fields and a
status. -/
def wireOf (r : Runner) (item : TrafficSnapshotItem) (status : TrafficStatus) : Option TrafficStreamWire :=
  let source := if item.source = "" then trafficSourceCore else item.source
  if item.key = "" ∨ item.counterEpoch = "" ∨ trimSpace item.periodKey = "" ∨ item.userID ≤ 0 then none
  else
    some
      { source := source, streamID := r.trafficStreamID source item.key, counterEpoch := item.counterEpoch
        periodKey := item.periodKey, userID := item.userID, inboundID := item.inboundID, pathID := item.pathID
        current := item.counters, status := status }

def itemOf (stream : TrafficStreamState) : TrafficSnapshotItem where
  key := stream.snapshotKey
  counterEpoch := stream.counterEpoch
  source := stream.source
  userID := stream.userID
  inboundID := stream.inboundID
  pathID := stream.pathID
  periodKey := stream.periodKey
  counters := stream.observed

def firstOfStream : List String → List TrafficStreamWire → List TrafficStreamWire
  | _, [] => []
  | seen, w :: ws =>
    if w.streamID ∈ seen then firstOfStream seen ws else w :: firstOfStream (w.streamID :: seen) ws

def trafficStreamWireBatch (r : Runner) (st : TrafficLocalState) (items : List TrafficSnapshotItem) :
    List TrafficStreamWire :=
  (firstOfStream [] (items.filterMap (r.wireOf · .unset) ++
    st.streams.values.filterMap fun stream => r.wireOf (itemOf stream) stream.status)).take 1000

theorem mem_of_firstOfStream {w : TrafficStreamWire} {ws : List TrafficStreamWire} {seen : List String}
    (h : w ∈ firstOfStream seen ws) : w ∈ ws := by
  fun_induction firstOfStream seen ws with
  | case1 => exact h
  | case2 seen v ws hseen ih => exact List.mem_cons_of_mem _ (ih h)
  | case3 seen v ws hnew ih => exact List.mem_cons.mpr ((List.mem_cons.mp h).imp_right ih)

end Runner

/-- An item that names its stream, epoch, period and user. -/
structure Identified (streamID counterEpoch periodKey : String) (userID : Int) : Prop where
  stream : streamID ≠ ""
  epoch : counterEpoch ≠ ""
  period : periodKey ≠ ""
  user : 0 < userID

theorem trafficStreamID_ne_empty (r : Runner) (source key : String) : r.trafficStreamID source key ≠ "" := by
  simp [Runner.trafficStreamID]

theorem identified_wire {r : Runner} {st : TrafficLocalState} {items : List TrafficSnapshotItem}
    {w : TrafficStreamWire} (h : w ∈ r.trafficStreamWireBatch st items) :
    Identified w.streamID w.counterEpoch w.periodKey w.userID := by
  have hone : ∃ item status, r.wireOf item status = some w := by
    rcases List.mem_append.mp (Runner.mem_of_firstOfStream (List.mem_of_mem_take h)) with hw | hw
    · obtain ⟨item, -, hitem⟩ := List.mem_filterMap.mp hw
      exact ⟨item, _, hitem⟩
    · obtain ⟨stream, -, hstream⟩ := List.mem_filterMap.mp hw
      exact ⟨_, _, hstream⟩
  obtain ⟨item, status, hwire⟩ := hone
  unfold Runner.wireOf at hwire
  simp only at hwire
  split at hwire
  · cases hwire
  · rename_i hparts
    obtain ⟨-, hepoch, hperiod, huser⟩ : _ ∧ _ ∧ _ ∧ _ := by simpa only [not_or] using hparts
    obtain rfl := Option.some.inj hwire
    refine ⟨trafficStreamID_ne_empty r _ _, hepoch, fun h => hperiod ?_, not_le.mp huser⟩
    rw [show item.periodKey = "" from h]
    decide

/-- A pending range of which every request could be made. -/
def TrafficPendingRange.Named (p : TrafficPendingRange) : Prop :=
  Identified p.streamID p.counterEpoch p.periodKey p.userID

/-- A counter that is observed when a range could be queued for it has its period. So has a report
of the first version that is converted, and its user. -/
def HasPeriods (r : Runner) (a : Agent) : AgentEvent → Prop
  | .observe _ recovering item =>
    recovering = false → a.memory.recoveryRequired = false → 0 < item.inboundID →
      a.memory.pendingExists (r.itemStream item) item = false → trimSpace item.periodKey ≠ ""
  | .convert => ∀ p ∈ a.memory.pending, 0 < p.inboundID.getD 0 → p.periodKey ≠ "" ∧ 0 < p.userID
  | _ => True

theorem named_convertedRange {r : Runner} {st : TrafficLocalState} {p : TrafficPendingReport}
    {q : TrafficPendingRange} (h : r.convertedRange st p = some q)
    (hp : 0 < p.inboundID.getD 0 → p.periodKey ≠ "" ∧ 0 < p.userID) : q.Named := by
  unfold Runner.convertedRange at h
  split at h
  · cases h
  rename_i hepoch
  split at h
  · cases h
  rename_i hinbound
  obtain ⟨hperiod, huser⟩ := hp (not_le.mp hinbound)
  obtain rfl := Option.some.inj h
  unfold Runner.legacyRange
  simp only
  split <;> exact ⟨trafficStreamID_ne_empty r _ _, hepoch, hperiod, huser⟩

theorem named_queuedBy {r : Runner} {a : Agent} {ev : AgentEvent} (hev : HasPeriods r a ev)
    {p : TrafficPendingRange} (hp : p ∈ a.queuedBy r ev) : p.Named := by
  obtain ⟨now, recovering, item, rfl, hrange⟩ | ⟨rfl, hconverted⟩ := Agent.mem_queuedBy hp
  · obtain ⟨-, -, hnone⟩ | ⟨hcounts, o, hset, -, ho⟩ := a.observe_cases r now recovering item
    · rw [hnone] at hrange
      cases hrange
    · obtain ⟨hrec, hfree, rfl, -, -, hin⟩ := hset.range p (ho.symm.trans hrange)
      rw [Bool.or_eq_false_iff] at hrec
      simp only [itemCounts, Bool.and_eq_true, decide_eq_true_eq] at hcounts
      exact ⟨trafficStreamID_ne_empty r _ _, hcounts.2, hev hrec.1 hrec.2 hin hfree, hcounts.1.2⟩
  · refine Run.forall_outputs.mpr ?_ p hconverted
    refine Run.Along.mono (fun st p hp q hq => ?_) (Run.Along.of_forall
      (Q := fun p : TrafficPendingReport => 0 < p.inboundID.getD 0 → p.periodKey ≠ "" ∧ 0 < p.userID) hev)
    exact named_convertedRange (Option.mem_toList.mp hq) hp

/-- **Every item of a request is identified**, in every state that is reached from named reports by
events with periods. -/
theorem request_items_identified (r : Runner) (a : Agent) (evs : List AgentEvent)
    (hstart : a.Holds (EachPending TrafficPendingRange.Named))
    (hevs : Run.Along (Agent.step r) (HasPeriods r) a evs)
    (items : List TrafficSnapshotItem) (order : List String) :
    let st := (Run.exec (Agent.step r) a evs).memory
    (∀ x ∈ trafficLedgerReportBatch st.pendingReports order,
      Identified x.streamID x.counterEpoch x.periodKey x.userID ∧ 0 < x.inboundID.getD 0) ∧
    ∀ w ∈ r.trafficStreamWireBatch st items, Identified w.streamID w.counterEpoch w.periodKey w.userID := by
  have hall : (Run.exec (Agent.step r) a evs).Holds (EachPending TrafficPendingRange.Named) :=
    Run.invariant (fun a ev h hev => h.step (EachPending.ledgerOnly _)
      (EachPending.act h fun p hp => named_queuedBy hev hp)) hstart hevs
  refine ⟨?_, fun w hw => identified_wire hw⟩
  intro x hx
  obtain ⟨p, hp, rfl⟩ := List.mem_map.mp (List.mem_of_mem_take hx)
  obtain ⟨hmem, hinbound⟩ := List.mem_filter.mp hp
  obtain ⟨id, -, hid⟩ := List.mem_filterMap.mp hmem
  exact ⟨hall.memory id p hid, of_decide_eq_true hinbound⟩

/-- A counter of a hundred bytes, observed in a blank state. -/
def observed (period : String) : List AgentEvent :=
  [.observe 0 false { counterAt "e" 100 with periodKey := period }]

/-- The reports of the request after it. -/
def requested (period : String) : List TrafficLedgerReportItem :=
  let st := (Run.exec (Agent.step .plain) .blank (observed period)).memory
  trafficLedgerReportBatch st.pendingReports st.pendingReports.keys

theorem identified_with_period : (requested "p").length = 1 ∧
    ∀ x ∈ requested "p", Identified x.streamID x.counterEpoch x.periodKey x.userID := by
  have hblank : Agent.blank.Holds (EachPending TrafficPendingRange.Named) := by
    refine ⟨(EachPending.ledgerOnly _).empty _ rfl rfl, ?_⟩
    rintro content (h | h)
    · cases h
      exact (EachPending.ledgerOnly _).empty _ rfl rfl
    · cases h
  refine ⟨by decide, fun x hx => ?_⟩
  exact ((request_items_identified .plain .blank (observed "p") hblank
    ⟨fun _ _ _ _ => (by decide : trimSpace "p" ≠ ""), trivial⟩ [] _).1 x hx).1

/-- Before its policy has come, the counter is reported without a period. -/
theorem reported_without_period : (requested "").map (·.periodKey) = [""] := by decide

end OboardAgent.Traffic
