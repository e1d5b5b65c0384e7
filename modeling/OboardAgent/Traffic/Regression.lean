import OboardAgent.Traffic.Collect

/-!
# A counter that goes back

Within an epoch the kernel's counters only grow, so a lower value means that something is wrong
with them, and the stream is to be *blocked*: observed, and not billed, until the Controller has
said where it stands.

The block is the stream's status, and the status is also where the answers to the stream's
reports go. A report that was pending when the counter went back is answered later, and an
acceptance makes the stream healthy (`acceptance_lifts_the_block`); so does a refusal of the kind
`rejected`, which is no blocking status. A lower value under another period key is not noticed at
all.
-/

namespace OboardAgent.Traffic

namespace TrafficLocalState

def lifts (st : TrafficLocalState) (streamID : String) (a : TrafficAcceptedReport) : Bool :=
  match st.pendingReports.lookup a.reportID with
  | none => false
  | some report =>
    report.streamID = streamID &&
      (a.status.acknowledges || (a.status = .rejected && !a.terminal))

def Blocked (st : TrafficLocalState) (streamID epoch : String) : Prop :=
  ∃ stream, st.streams.lookup streamID = some stream ∧
    (stream.counterEpoch = epoch → stream.status.blocked = true)

variable {streamID epoch : String}

theorem Blocked.of_lookup_eq {st st' : TrafficLocalState} (h : st.Blocked streamID epoch)
    (heq : st'.streams.lookup streamID = st.streams.lookup streamID) :
    st'.Blocked streamID epoch := by
  obtain ⟨stream, hs, hb⟩ := h
  exact ⟨stream, heq.trans hs, hb⟩

theorem Blocked.of_insert {st st' : TrafficLocalState} {streamID epoch other : String}
    {stream : TrafficStreamState} (h : st.Blocked streamID epoch)
    (heq : st'.streams = st.streams.insert other stream)
    (hnew : other = streamID → stream.counterEpoch = epoch → stream.status.blocked = true) :
    st'.Blocked streamID epoch := by
  by_cases hsid : other = streamID
  · subst hsid
    refine ⟨stream, ?_, hnew rfl⟩
    rw [heq]
    exact AList.lookup_insert _
  · apply h.of_lookup_eq
    rw [heq]
    exact AList.lookup_insert_ne (Ne.symm hsid)

theorem blocked_checkpoint (st : TrafficLocalState) (c : TrafficStreamCheckpoint)
    (h : st.Blocked streamID epoch)
    (hc : ∀ sid ∈ (if checkpointConflicts (checkpointStream st c) c then [] else [c.streamID]),
      sid ≠ streamID) : (st.applyCheckpoint c).Blocked streamID epoch := by
  apply h.of_insert (applyCheckpoint_spec st c).1
  intro hsid _
  cases hconf : checkpointConflicts (checkpointStream st c) c with
  | true =>
    rw [(checkpointed_of_conflict hconf).2.2]
    rfl
  | false =>
    rw [hconf] at hc
    exact absurd hsid (hc c.streamID (by simp))

theorem blocked_answer (st : TrafficLocalState)
    (a : TrafficAcceptedReport) (h : st.Blocked streamID epoch)
    (ha : st.lifts streamID a = false) : (st.applyAnswer a).Blocked streamID epoch := by
  cases applyAnswer_answers st a with
  | ignored streams => exact h.of_lookup_eq (by rw [streams])
  | dropped report pending streams => exact h.of_lookup_eq (by rw [streams])
  | acknowledged report stream pending known status streams =>
    apply h.of_insert streams
    intro hsid _
    simp [lifts, pending, hsid, status] at ha
  | refused report stream pending known status terminal streams =>
    apply h.of_insert streams
    intro hsid _
    simp only [lifts, pending, hsid, terminal, decide_true, Bool.true_and, Bool.not_false,
      Bool.and_true, Bool.or_eq_false_iff, decide_eq_false_iff_not] at ha
    -- What is left of the refusals are the blocking statuses.
    show a.status.blocked = true
    revert status ha
    cases a.status <;> simp [TrafficStatus.refuses, TrafficStatus.blocked]

end TrafficLocalState

open TrafficLocalState

namespace Agent

/-- The step leaves the block of the stream alone. The epoch that was left does not come back; no
Controller checkpoint of the stream is applied, and no answer writes another status over it; the
stream is not pruned, and the agent is not restarted. -/
def LeavesBlock (r : Runner) (streamID epoch : String) (a : Agent) : AgentEvent → Prop
  | .observe _ _ item =>
    r.itemStream item = streamID → item.counterEpoch = epoch →
    ((a.memory.streams.lookup streamID).map TrafficStreamState.counterEpoch) = some epoch
  | .convert => a.memory.pending = []
  | .prune now => ((a.memory.pruneTrafficStreams now).1.streams.lookup streamID).isSome
  | .respond _ resp =>
    (∀ sid ∈ a.memory.appliedCheckpoints resp.streamCheckpoints, sid ≠ streamID) ∧
    Run.Along applyAnswer (fun st ans => st.lifts streamID ans = false)
      (Run.exec applyCheckpoint a.memory resp.streamCheckpoints) resp.acceptedReports
  | .fail _ | .save _ => True
  | .restart => False

instance (r : Runner) (streamID epoch : String) (a : Agent) :
    ∀ ev, Decidable (LeavesBlock r streamID epoch a ev)
  | .observe _ _ _ => inferInstanceAs (Decidable (_ → _ → _ = _))
  | .convert => inferInstanceAs (Decidable (a.memory.pending = []))
  | .prune _ => inferInstanceAs (Decidable (_ = true))
  | .respond _ _ => inferInstanceAs (Decidable (_ ∧ _))
  | .fail _ | .save _ => .isTrue trivial
  | .restart => .isFalse id

variable {r : Runner} {streamID epoch : String}

theorem blocked_observe {a : Agent} {now : Int}
    {recovering : Bool} {item : TrafficSnapshotItem} (h : a.memory.Blocked streamID epoch)
    (hev : LeavesBlock r streamID epoch a (.observe now recovering item)) :
    (a.act r (.observe now recovering item)).Blocked streamID epoch ∧
      ∀ p, a.observedRange r now recovering item = some p →
        ¬(p.streamID = streamID ∧ p.counterEpoch = epoch) := by
  obtain ⟨-, hsame, hnone⟩ | ⟨-, o, hset, hact, hrange⟩ := a.observe_cases r now recovering item
  · exact ⟨h.of_lookup_eq (by rw [hsame]), fun p hp => absurd (hnone.symm.trans hp) (by simp)⟩
  have hstreams : (a.act r (.observe now recovering item)).streams
      = a.memory.streams.insert (r.itemStream item) o.stream := by
    rw [hact, queue_streams]
  by_cases hitem : r.itemStream item = streamID ∧ item.counterEpoch = epoch
  · obtain ⟨hsid, hepoch⟩ := hitem
    obtain ⟨stream, hs, hb⟩ := id h
    have hcur := hev hsid hepoch
    rw [hs, Option.map_some, Option.some.injEq] at hcur
    have hstay : (enterEpoch (identify (Rfc3339.format now)
        (a.memory.streams.lookup (r.itemStream item)) item) item).status.blocked = true := by
      rw [hsid, hs, enterEpoch_of_same]
      · rw [identify_status]
        exact hb hcur
      · rw [identify_counterEpoch]
        exact hcur.trans hepoch.symm
    obtain ⟨hblocked, hnone⟩ := hset.blocked hstay
    refine ⟨h.of_insert hstreams fun _ _ => hblocked, ?_⟩
    intro p hp
    rw [hrange, hnone] at hp
    cases hp
  · constructor
    · apply h.of_insert hstreams
      intro hsid hepoch
      exact absurd ⟨hsid, hset.counterEpoch.symm.trans hepoch⟩ hitem
    · rintro p hp ⟨hsid, hepoch⟩
      obtain ⟨-, -, -, hpsid, hpepoch, -⟩ := observedRange_some hp
      exact hitem ⟨hpsid.symm.trans hsid, hpepoch.symm.trans hepoch⟩

theorem blocked_respond {a : Agent} {now : Int} {resp : TrafficReportResponse}
    (h : a.memory.Blocked streamID epoch) (hev : LeavesBlock r streamID epoch a (.respond now resp))
    : (a.memory.applyTrafficLedgerResponse now resp).Blocked streamID epoch := by
  have hcheckpoints := Run.invariant blocked_checkpoint h (Run.forall_outputs.mp hev.1)
  have hanswers := Run.invariant blocked_answer hcheckpoints hev.2
  apply Blocked.of_lookup_eq hanswers
  rw [(applyResponse_sameLedger a.memory now resp).streams]
  rfl

theorem blocked_step (a : Agent) (ev : AgentEvent) (h : a.memory.Blocked streamID epoch)
    (hev : LeavesBlock r streamID epoch a ev) : (a.step r ev).memory.Blocked streamID epoch := by
  cases ev with
  | observe now recovering item => exact (blocked_observe h hev).1
  | convert =>
    apply h.of_lookup_eq
    show (r.convertLegacyPendingToRanges a.memory).1.streams.lookup streamID = _
    rw [(r.convert_of_none hev).1]
  | prune now =>
    obtain ⟨stream, hs, hb⟩ := h
    obtain ⟨left, hleft⟩ := Option.isSome_iff_exists.mp hev
    refine ⟨left, hleft, ?_⟩
    rw [lookup_prune, hs, Option.bind_some] at hleft
    obtain ⟨date, rfl⟩ := pruneStream_some hleft
    exact hb
  | respond now resp => exact blocked_respond h hev
  | fail error => exact h
  | save w => exact h
  | restart => exact absurd hev id

theorem blocked_queues {a : Agent} {ev : AgentEvent}
    (h : a.memory.Blocked streamID epoch) (hev : LeavesBlock r streamID epoch a ev) :
    ∀ p ∈ a.queuedBy r ev, ¬(p.streamID = streamID ∧ p.counterEpoch = epoch) := by
  intro p hp
  obtain ⟨now, recovering, item, rfl, hrange⟩ | ⟨rfl, hconv⟩ := mem_queuedBy hp
  · exact (blocked_observe h hev).2 p hrange
  · rw [(r.convert_of_none hev).2] at hconv
    cases hconv

theorem blocked_of_regresses {r : Runner} {a : Agent} {stream : TrafficStreamState}
    {item : TrafficSnapshotItem} (now : Int) (recovering : Bool) (hcounts : itemCounts item = true)
    (hknown : a.memory.streams.lookup (r.itemStream item) = some stream)
    (hback : Regresses stream item) :
    (a.step r (.observe now recovering item)).memory.Blocked (r.itemStream item)
      item.counterEpoch := by
  obtain ⟨hskip, -, -⟩ | ⟨-, o, hset, hact, -⟩ := a.observe_cases r now recovering item
  · rw [hskip] at hcounts
    cases hcounts
  · have hstatus : o.stream.status = .counterRegression := by
      refine (hset.regresses ?_).1
      rw [hknown, enterEpoch_of_same]
      · exact hback.identify _
      · rw [identify_counterEpoch]
        exact hback.1
    refine ⟨o.stream, ?_, fun _ => by rw [hstatus]; rfl⟩
    show (a.act r (.observe now recovering item)).streams.lookup _ = _
    rw [hact, queue_streams]
    exact AList.lookup_insert _

/-- **A counter that went back is not billed.** Once a snapshot shows a counter below a value of
the same epoch and period, no step of a run that leaves the block alone queues a range of the
stream in that epoch. -/
theorem regression_stops_billing (r : Runner) (a : Agent) (now : Int) (recovering : Bool)
    (item : TrafficSnapshotItem) (hcounts : itemCounts item = true) (stream : TrafficStreamState)
    (hknown : a.memory.streams.lookup (r.itemStream item) = some stream)
    (hback : Regresses stream item) (es : List AgentEvent)
    (hrun : Run.Along (step r) (LeavesBlock r (r.itemStream item) item.counterEpoch)
      (a.step r (.observe now recovering item)) es) :
    ∀ p ∈ Run.outputs (step r) (queuedBy r) (a.step r (.observe now recovering item)) es,
      ¬(p.streamID = r.itemStream item ∧ p.counterEpoch = item.counterEpoch) := by
  have hstart := blocked_of_regresses now recovering hcounts hknown hback
  refine Run.forall_outputs.mpr ?_
  apply Run.Along.mono _ (Run.along_invariant blocked_step hstart hrun)
  rintro s ev ⟨hblocked, hev⟩
  exact blocked_queues hblocked hev

/-! One counter, from an empty state: 100 bytes, then 50, then 150. -/

def hundredPending : Agent :=
  Runner.plain.cycle .blank
    (cycleAt 0 (counterAt "ce_1" 100) (.failed "controller_request: timeout" .both))

/-- As long as no answer comes, a counter that went back to 50 and has reached 150 since is not
billed. -/
theorem regression_stops_billing_at_fifty :
    (∃ stream, hundredPending.memory.streams.lookup (Runner.plain.itemStream (counterAt "ce_1" 50))
        = some stream ∧ Regresses stream (counterAt "ce_1" 50)) ∧
      ∀ p ∈ Run.outputs (step .plain) (queuedBy .plain)
        (hundredPending.step .plain (.observe 0 false (counterAt "ce_1" 50)))
        [.observe 0 false (counterAt "ce_1" 150), .prune 0, .fail "controller_request: timeout"],
        ¬(p.streamID = Runner.plain.itemStream (counterAt "ce_1" 50) ∧ p.counterEpoch = "ce_1") :=
  ⟨⟨_, rfl, by decide⟩, regression_stops_billing .plain hundredPending 0 false
    (counterAt "ce_1" 50) (by decide) _ rfl (by decide) _ (by decide)⟩

/-- The counter goes back to 50 while a report of 100 bytes is pending, and the report is
accepted. No checkpoint of the stream has come, and the next cycle bills the range from 100. -/
theorem acceptance_lifts_the_block :
    let es := Runner.plain.cycleEvents hundredPending
      [cycleAt 0 (counterAt "ce_1" 50) (.answered 0 hundredPending.acceptAll .both none .both),
        cycleAt 0 (counterAt "ce_1" 150) .cancelled]
    (∃ stream, hundredPending.memory.streams.lookup (Runner.plain.itemStream (counterAt "ce_1" 50))
        = some stream ∧ Regresses stream (counterAt "ce_1" 50)) ∧
      Run.outputs (step .plain) reconciledBy hundredPending es = [] ∧
      ∃ p ∈ Run.outputs (step .plain) (queuedBy .plain) hundredPending es,
        p.streamID = Runner.plain.itemStream (counterAt "ce_1" 50) ∧ p.counterEpoch = "ce_1" ∧
          p.fromBytes = ⟨100, 0⟩ ∧ p.toBytes = ⟨150, 0⟩ := by
  refine ⟨⟨_, rfl, by decide⟩, by decide, by decide⟩

end Agent

end OboardAgent.Traffic
