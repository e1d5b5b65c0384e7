import OboardAgent.Traffic.State
import OboardAgent.Lib.Rfc3339

/-!
# Observing a snapshot

`observeTrafficSnapshotLocked`: what one kernel snapshot does to the streams, and which ranges it
queues. The loop handles one item at a time and looks at nothing but the item's own stream and
the pending reports, so the model is a function of one item (`observeItem`), built on a function
of one stream (`observeStream`); the snapshot is its fold.

The branches of the source come in a fixed order, and most later results are about one of them
coming before another: an epoch change forgets the accepted checkpoint; a regression within the
epoch is noticed before anything else; recovery and the blocking statuses end the item; a range is
queued last, when no other is pending for the stream.
-/

namespace OboardAgent.Traffic

open GoStrings

def itemSource (item : TrafficSnapshotItem) : String :=
  if trimSpace item.source = "" then trafficSourceCore else trimSpace item.source

/-- An item the loop does not skip. -/
def itemCounts (item : TrafficSnapshotItem) : Bool :=
  item.key ≠ "" && 0 < item.userID && item.counterEpoch ≠ ""

variable (r : Runner)

def Runner.itemStream (item : TrafficSnapshotItem) : String :=
  r.trafficStreamID (itemSource item) item.key

variable (now : String) (known : Option TrafficStreamState)

/-- The stream as the item names it; an unknown one starts in recovery. -/
def identify (item : TrafficSnapshotItem) : TrafficStreamState :=
  let stream := known.getD { status := .recovering }
  { stream with
    source := itemSource item
    snapshotKey := item.key
    userID := item.userID
    inboundID := item.inboundID
    pathID := item.pathID
    lastObservedAt := now }

/-- Another epoch forgets the accepted checkpoint, and a regression with it. -/
def enterEpoch (stream : TrafficStreamState) (item : TrafficSnapshotItem) : TrafficStreamState :=
  if stream.counterEpoch ≠ "" ∧ stream.counterEpoch ≠ item.counterEpoch then
    if stream.status = .counterRegression then
      { stream with accepted := 0, status := .healthy, lastError := "" }
    else { stream with accepted := 0 }
  else stream

def Runner.newRange (streamID : String) (stream : TrafficStreamState)
    (item : TrafficSnapshotItem) : TrafficPendingRange :=
  let report : TrafficPendingRange :=
    { reportID := "", source := itemSource item, streamID := streamID
      counterEpoch := item.counterEpoch, periodKey := trimSpace item.periodKey
      userID := item.userID
      inboundID := if 0 < item.inboundID then some item.inboundID else none
      pathID := if 0 < item.pathID then some item.pathID else none
      fromBytes := stream.accepted, toBytes := item.counters
      startedAt := now, endedAt := now, snapshotKey := item.key }
  { report with reportID := r.trafficRangeReportID report }

structure Observed where
  stream : TrafficStreamState
  range : Option TrafficPendingRange := none
  changed : Bool := true

/-- After the item is taken over: recovery and blocks end it, a range is queued last. -/
def Runner.settle (recovering pendingExists : Bool) (streamID : String)
    (stream : TrafficStreamState) (item : TrafficSnapshotItem) : Observed :=
  if recovering then
    { stream :=
        if stream.status = .unset ∨ stream.status = .healthy then
          { stream with status := .recovering }
        else stream }
  else if stream.status.blocked then { stream := stream }
  else if item.counters.below stream.accepted then
    { stream := { stream with
        status := .counterRegression
        lastError := "observed counters are below the accepted checkpoint" } }
  else if item.counters = stream.accepted then
    { stream := { stream with status := .healthy }, changed := stream.status ≠ .healthy }
  else if pendingExists then { stream := stream, changed := false }
  else if item.inboundID ≤ 0 ∨ item.userID ≤ 0 then
    -- A counter without an inbound can never be accounted; it stays observable only.
    { stream := { stream with status := .healthy }, changed := false }
  else
    { stream := { stream with status := .healthy }
      range := some (r.newRange now streamID stream item) }

/-- A counter that went back within the epoch is noticed before anything else. -/
def Runner.observeStream (recovering pendingExists : Bool) (streamID : String)
    (known : Option TrafficStreamState) (item : TrafficSnapshotItem) : Observed :=
  let stream := enterEpoch (identify now known item) item
  if stream.counterEpoch = item.counterEpoch ∧ stream.periodKey = trimSpace item.periodKey ∧
      item.counters.below stream.observed then
    { stream := { stream with
        status := .counterRegression
        lastError := "counter regression in the same epoch"
        observed := item.counters } }
  else
    r.settle now recovering pendingExists streamID
      { stream with
        counterEpoch := item.counterEpoch
        periodKey := trimSpace item.periodKey
        observed := item.counters }
      item

namespace TrafficLocalState

variable (st : TrafficLocalState)

def pendingExists (streamID : String) (item : TrafficSnapshotItem) : Bool :=
  st.pendingReports.anyVal (fun p => p.streamID = streamID) ||
    st.pending.any (fun p => p.snapshotKey = item.key)

def queue : Option TrafficPendingRange → TrafficLocalState
  | none => st
  | some p => { st with pendingReports := st.pendingReports.insert p.reportID p }

@[simp] theorem queue_streams (o : Option TrafficPendingRange) :
    (st.queue o).streams = st.streams := by
  cases o with
  | none => rfl
  | some p => rfl

theorem lookup_queue {st : TrafficLocalState} {o : Option TrafficPendingRange} {id : String}
    {p : TrafficPendingRange} (h : (st.queue o).pendingReports.lookup id = some p) :
    st.pendingReports.lookup id = some p ∨ (o = some p ∧ p.reportID = id) := by
  cases o with
  | none => exact Or.inl h
  | some q =>
    have hlook : (st.pendingReports.insert q.reportID q).lookup id = some p := h
    rcases GoMap.lookup_of_insert hlook with ⟨hid, rfl⟩ | hlook
    · exact Or.inr ⟨rfl, hid.symm⟩
    · exact Or.inl hlook

@[simp] theorem queue_recoveryRequired (o : Option TrafficPendingRange) :
    (st.queue o).recoveryRequired = st.recoveryRequired := by
  cases o with
  | none => rfl
  | some p => rfl

end TrafficLocalState

namespace Runner

def observeItem (r : Runner) (now : String) (recovering : Bool) (st : TrafficLocalState)
    (item : TrafficSnapshotItem) : TrafficLocalState × Bool :=
  if itemCounts item then
    let streamID := r.itemStream item
    let known := st.streams.lookup streamID
    let o := r.observeStream now (recovering || st.recoveryRequired)
      (st.pendingExists streamID item) streamID known item
    ({ st with streams := st.streams.insert streamID o.stream }.queue o.range,
      known.isNone || o.changed)
  else (st, false)

def observeTrafficSnapshot (r : Runner) (now : String) (recovering : Bool)
    (st : TrafficLocalState) (items : List TrafficSnapshotItem) : TrafficLocalState × Bool :=
  items.foldl (fun acc item =>
    let next := r.observeItem now recovering acc.1 item
    (next.1, acc.2 || next.2)) (st, false)

end Runner

/-! ## What one item does -/

/-- The item shows a counter below the last value of the same epoch and period. -/
def Regresses (stream : TrafficStreamState) (item : TrafficSnapshotItem) : Prop :=
  stream.counterEpoch = item.counterEpoch ∧ stream.periodKey = trimSpace item.periodKey ∧
    item.counters.below stream.observed = true

instance (stream : TrafficStreamState) (item : TrafficSnapshotItem) :
    Decidable (Regresses stream item) := inferInstanceAs (Decidable (_ ∧ _ ∧ _))

/-- The checkpoint an item starts from: none in an epoch that is new to the stream. -/
def acceptedAfter (item : TrafficSnapshotItem) : Counters :=
  match known with
  | none => 0
  | some stream =>
    if stream.counterEpoch ≠ "" ∧ stream.counterEpoch ≠ item.counterEpoch then 0
    else stream.accepted

@[simp] theorem identify_counterEpoch (stream : TrafficStreamState) (item : TrafficSnapshotItem) :
    (identify now (some stream) item).counterEpoch = stream.counterEpoch := by
  simp only [identify, Option.getD_some]

@[simp] theorem identify_status (stream : TrafficStreamState)
    (item : TrafficSnapshotItem) : (identify now (some stream) item).status = stream.status := by
  simp only [identify, Option.getD_some]

variable {item : TrafficSnapshotItem} {stream : TrafficStreamState}

theorem Regresses.identify (h : Regresses stream item) (now : String) :
    Regresses (Traffic.identify now (some stream) item) item := by
  unfold Regresses Traffic.identify
  simp only [Option.getD_some]
  exact h

theorem enterEpoch_accepted (item : TrafficSnapshotItem) :
    (enterEpoch (identify now known item) item).accepted = acceptedAfter known item := by
  cases known with
  | none => simp [identify, enterEpoch, acceptedAfter]
  | some stream =>
    have hsame := identify_counterEpoch now stream item
    simp only [enterEpoch, acceptedAfter, hsame]
    by_cases h : stream.counterEpoch ≠ "" ∧ stream.counterEpoch ≠ item.counterEpoch
    · rw [if_pos h, if_pos h]
      split <;> rfl
    · rw [if_neg h, if_neg h]
      rfl

theorem enterEpoch_of_same
    (h : stream.counterEpoch = item.counterEpoch) : enterEpoch stream item = stream := by
  unfold enterEpoch
  rw [if_neg]
  rintro ⟨-, hne⟩
  exact hne h

/-- What an item leaves of its stream, and when it queues a range. -/
structure Settled (r : Runner) (now : String) (recovering pendingExists : Bool) (streamID : String)
    (known : Option TrafficStreamState) (item : TrafficSnapshotItem) (o : Observed) : Prop where
  counterEpoch : o.stream.counterEpoch = item.counterEpoch
  periodKey : o.stream.periodKey = trimSpace item.periodKey
  snapshotKey : o.stream.snapshotKey = item.key
  observed : o.stream.observed = item.counters
  accepted : o.stream.accepted = acceptedAfter known item
  lastObservedAt : o.stream.lastObservedAt = now
  blocked : (enterEpoch (identify now known item) item).status.blocked = true →
    o.stream.status.blocked = true ∧ o.range = none
  regresses : Regresses (enterEpoch (identify now known item) item) item →
    o.stream.status = .counterRegression ∧ o.range = none
  /-- A range is queued outside recovery, when none is pending, from the accepted checkpoint to
  the counters shown, and never an empty one. -/
  range : ∀ p, o.range = some p →
    recovering = false ∧ pendingExists = false ∧ p = r.newRange now streamID o.stream item ∧
      o.stream.accepted ≤ item.counters ∧ o.stream.accepted ≠ item.counters ∧ 0 < item.inboundID

theorem Runner.settle_keeps (recovering pendingExists : Bool)
    (streamID : String) (stream : TrafficStreamState) (item : TrafficSnapshotItem) :
    ∃ status lastError, (r.settle now recovering pendingExists streamID stream item).stream
      = { stream with status := status, lastError := lastError } := by
  unfold Runner.settle
  split
  · split
    · exact ⟨_, _, rfl⟩
    · exact ⟨_, _, rfl⟩
  split
  · exact ⟨_, _, rfl⟩
  split
  · exact ⟨_, _, rfl⟩
  split
  · exact ⟨_, _, rfl⟩
  split
  · exact ⟨_, _, rfl⟩
  split
  · exact ⟨_, _, rfl⟩
  · exact ⟨_, _, rfl⟩

theorem Runner.settle_blocked {r : Runner} {now : String} {recovering pendingExists : Bool}
    {streamID : String} (h : stream.status.blocked = true) :
    (r.settle now recovering pendingExists streamID stream item).stream.status.blocked = true ∧
      (r.settle now recovering pendingExists streamID stream item).range = none := by
  unfold Runner.settle
  split
  · split
    · rename_i hs
      rcases hs with hs | hs <;> simp [hs, TrafficStatus.blocked] at h
    · exact ⟨h, rfl⟩
  · exact ⟨h, rfl⟩

theorem Runner.settle_range {r : Runner} {now : String} {recovering pendingExists : Bool}
    {streamID : String} {p : TrafficPendingRange}
    (h : (r.settle now recovering pendingExists streamID stream item).range = some p) :
    recovering = false ∧ pendingExists = false ∧ p = r.newRange now streamID stream item ∧
      stream.accepted ≤ item.counters ∧ stream.accepted ≠ item.counters ∧ 0 < item.inboundID := by
  unfold Runner.settle at h
  split_ifs at h with hrec _ hbelow hequal hpending hinbound
  rw [Option.some.injEq] at h
  refine ⟨by simpa using hrec, by simpa using hpending, h.symm, ?_, fun he => hequal he.symm,
    by omega⟩
  exact Counters.below_eq_false.mp (by simpa using hbelow)

/-- Nothing stands in the way of a range. -/
theorem Runner.settle_queues {r : Runner} {now streamID : String}
    (hblocked : stream.status.blocked = false) (hle : stream.accepted ≤ item.counters)
    (hnew : item.counters ≠ stream.accepted) (hin : 0 < item.inboundID) (huser : 0 < item.userID) :
    (r.settle now false false streamID stream item).range
      = some (r.newRange now streamID stream item) := by
  unfold Runner.settle
  rw [if_neg Bool.false_ne_true, if_neg (by rw [hblocked]; exact Bool.false_ne_true),
    if_neg (by rw [Counters.below_eq_false.mpr hle]; exact Bool.false_ne_true), if_neg hnew,
    if_neg Bool.false_ne_true, if_neg (by omega)]

theorem Runner.observeStream_settled (recovering pendingExists : Bool)
    (streamID : String) (known : Option TrafficStreamState) (item : TrafficSnapshotItem) :
    Settled r now recovering pendingExists streamID known item
      (r.observeStream now recovering pendingExists streamID known item) := by
  have haccepted := enterEpoch_accepted now known item
  have hkey : (enterEpoch (identify now known item) item).snapshotKey = item.key ∧
      (enterEpoch (identify now known item) item).lastObservedAt = now := by
    unfold enterEpoch
    split
    · split <;> exact ⟨rfl, rfl⟩
    · exact ⟨rfl, rfl⟩
  unfold Runner.observeStream
  simp only
  split
  · rename_i hreg
    exact
      { counterEpoch := hreg.1, periodKey := hreg.2.1, snapshotKey := hkey.1, observed := rfl
        accepted := haccepted, lastObservedAt := hkey.2
        blocked := fun _ => ⟨rfl, rfl⟩, regresses := fun _ => ⟨rfl, rfl⟩
        range := by simp }
  · rename_i hreg
    obtain ⟨status, lastError, hkeep⟩ := r.settle_keeps now recovering pendingExists streamID
      { enterEpoch (identify now known item) item with
        counterEpoch := item.counterEpoch
        periodKey := trimSpace item.periodKey
        observed := item.counters } item
    refine
      { counterEpoch := by rw [hkeep], periodKey := by rw [hkeep], snapshotKey := ?_
        observed := by rw [hkeep], accepted := ?_, lastObservedAt := ?_
        blocked := fun h => Runner.settle_blocked h, regresses := fun h => absurd h hreg
        range := ?_ }
    · rw [hkeep]; exact hkey.1
    · rw [hkeep]; exact haccepted
    · rw [hkeep]; exact hkey.2
    · intro p hp
      obtain ⟨h₁, h₂, h₃, h₄⟩ := Runner.settle_range hp
      rw [hkeep]
      exact ⟨h₁, h₂, h₃, h₄⟩

end OboardAgent.Traffic
