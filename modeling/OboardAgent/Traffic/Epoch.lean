import OboardAgent.Traffic.Controller

/-!
# Whose checkpoint a stream holds

A stream's accepted checkpoint is a counter value, and counter values of two epochs have nothing
to do with each other. So the checkpoint should *belong* to the stream's epoch: be a value up to
which the Controller has accepted the stream in that epoch.

A stream checkpoint in a response names its epoch, and one of another epoch is refused. An answer
to a report names its epoch too, and it is not looked at: when the kernel was restarted while a
report was pending, the answer to that report is written into a stream that is in the next epoch
(`late_answer_crosses_epochs`). Reports of
the first version of the ledger carry no epoch, so whether what they store belongs to the epoch
they are converted under is a matter of their data.
-/

namespace OboardAgent.Traffic

/-- The answer writes an accepted value into the stream of its report. -/
def TrafficAcceptedReport.writes (a : TrafficAcceptedReport) : Bool :=
  a.status.acknowledges || (a.status.refuses && a.status ≠ .rejected)

def TrafficLocalState.answerMatches (st : TrafficLocalState) (a : TrafficAcceptedReport) : Bool :=
  match st.pendingReports.lookup a.reportID with
  | none => true
  | some report =>
    match st.streams.lookup report.streamID with
    | none => true
    | some stream => !a.writes || a.counterEpoch = stream.counterEpoch

open TrafficLocalState

/-! ## What a state must satisfy -/

/-- Every checkpoint belongs to the epoch of its stream, and every pending report is one that was
created, under its own id. -/
structure Sound (c : Controller) (created : List TrafficPendingRange) (st : TrafficLocalState) :
    Prop where
  belongs : ∀ sid stream, st.streams.lookup sid = some stream → stream.counterEpoch ≠ "" →
    c.Belongs sid stream.counterEpoch stream.accepted
  tracked : ∀ id p, st.pendingReports.lookup id = some p → p.reportID = id ∧ p ∈ created

variable {c : Controller} {created : List TrafficPendingRange} {st st' : TrafficLocalState}

theorem Sound.of_empty (hs : st.streams = ∅) (hp : st.pendingReports = ∅) : Sound c created st := by
  constructor
  · simp [hs]
  · simp [hp]

theorem sound_ledgerOnly (c : Controller) (created : List TrafficPendingRange) :
    LedgerOnly (Sound c created) where
  empty := fun _ hs hp => Sound.of_empty hs hp
  mono := by
    intro st st' h hs hp
    refine ⟨?_, fun id p hl => h.tracked id p (hp id p hl)⟩
    intro sid stream hl
    rw [hs] at hl
    exact h.belongs sid stream hl

theorem Sound.grow {c' : Controller} {created' : List TrafficPendingRange}
    (h : Sound c created st) (hc : ∀ sid e v, c.Belongs sid e v → c'.Belongs sid e v)
    (hcreated : created ⊆ created') : Sound c' created' st :=
  ⟨fun sid stream hl he => hc _ _ _ (h.belongs sid stream hl he),
    fun id p hl => ⟨(h.tracked id p hl).1, hcreated (h.tracked id p hl).2⟩⟩

theorem Sound.insert {sid : String} {stream : TrafficStreamState} (h : Sound c created st)
    (hs : st'.streams = st.streams.insert sid stream)
    (hb : stream.counterEpoch ≠ "" → c.Belongs sid stream.counterEpoch stream.accepted)
    (hp : ∀ id p, st'.pendingReports.lookup id = some p →
      st.pendingReports.lookup id = some p ∨ (p.reportID = id ∧ p ∈ created)) :
    Sound c created st' := by
  constructor
  · intro sid' stream' hl
    rw [hs] at hl
    rcases GoMap.lookup_of_insert hl with ⟨rfl, rfl⟩ | hl
    · exact hb
    · exact h.belongs sid' stream' hl
  · intro id p hl
    cases hp id p hl with
    | inl hold => exact h.tracked id p hold
    | inr hnew => exact hnew

/-! ## One lemma per loop of the response -/

def Controller.Tells (c : Controller) (k : TrafficStreamCheckpoint) : Prop :=
  c.Belongs k.streamID k.counterEpoch k.accepted ∧ (k.counterEpoch = "" → k.accepted = 0)

theorem sound_checkpoint (st : TrafficLocalState) (k : TrafficStreamCheckpoint)
    (h : Sound c created st) (hk : c.Tells k) : Sound c created (st.applyCheckpoint k) := by
  obtain ⟨hstreams, hpending, -, -⟩ := applyCheckpoint_spec st k
  refine h.insert hstreams ?_ (fun id p hl => Or.inl (by rw [← hpending]; exact hl))
  cases hconf : checkpointConflicts (checkpointStream st k) k with
  | true =>
    obtain ⟨hepoch, haccepted, -⟩ := checkpointed_of_conflict hconf
    rw [hepoch, haccepted]
    unfold checkpointStream
    cases hl : st.streams.lookup k.streamID with
    | none => exact fun hne => absurd rfl hne
    | some stream => exact h.belongs k.streamID stream hl
  | false =>
    obtain ⟨haccepted, hepoch⟩ := checkpointed_of_agree hconf
    rw [haccepted]
    intro _
    by_cases hempty : k.counterEpoch = ""
    · rw [hk.2 hempty]
      exact c.belongs_zero _ _
    · rw [hepoch hempty]
      exact hk.1

def World.TellsAnswer (w : World) (a : TrafficAcceptedReport) : Prop :=
  ∃ x ∈ w.sent, x.reportID = a.reportID ∧ x.streamID = a.streamID ∧
    (a.status.acknowledges = true →
      a.counterEpoch = x.counterEpoch ∧ (a.accepted = 0 → x ∈ w.controller.accepted)) ∧
    (a.writes = true → w.controller.Belongs a.streamID a.counterEpoch a.accepted)

def World.SentCreated (w : World) : Prop := ∀ x ∈ w.sent, ∃ p ∈ w.created, p.wire = x

variable {w : World}

theorem World.Distinct.sameRange (hd : w.Distinct) (hsent : w.SentCreated)
    {p : TrafficPendingRange} (hp : p ∈ w.created) {x : TrafficLedgerReportItem} (hx : x ∈ w.sent)
    (hid : x.reportID = p.reportID) : x.SameRange p.wire := by
  obtain ⟨q, hq, rfl⟩ := hsent x hx
  exact hd _ (List.mem_append_left _ (List.mem_map_of_mem hq)) _
    (List.mem_append_left _ (List.mem_map_of_mem hp)) hid

theorem sound_answer (hd : w.Distinct) (hsent : w.SentCreated)
    (st : TrafficLocalState) (a : TrafficAcceptedReport)
    (h : Sound w.controller w.created st) (ha : w.TellsAnswer a ∧ st.answerMatches a = true) :
    Sound w.controller w.created (st.applyAnswer a) := by
  obtain ⟨⟨x, hx, hid, hxsid, hack, hwrites⟩, hmatch⟩ := ha
  have herase : ∀ id p, (st.pendingReports.erase a.reportID).lookup id = some p →
      st.pendingReports.lookup id = some p ∨ (p.reportID = id ∧ p ∈ w.created) :=
    fun id p hl => Or.inl (GoMap.lookup_of_erase hl)
  -- The report the answer is about, and the one that was sent under its id.
  have hsame : ∀ report, st.pendingReports.lookup a.reportID = some report →
      x.SameRange report.wire := by
    intro report hl
    obtain ⟨hkey, hmem⟩ := h.tracked _ report hl
    exact hd.sameRange hsent hmem hx (hid.trans hkey.symm)
  have hepoch : ∀ report stream, st.pendingReports.lookup a.reportID = some report →
      st.streams.lookup report.streamID = some stream → a.writes = true →
      a.counterEpoch = stream.counterEpoch := by
    intro report stream hl hs hw
    simpa [answerMatches, hl, hs, hw] using hmatch
  cases applyAnswer_answers st a with
  | ignored streams pendingReports =>
    apply (sound_ledgerOnly _ _).mono st _ h streams
    rw [pendingReports]
    exact fun id p hl => hl
  | dropped report pending streams pendingReports =>
    apply (sound_ledgerOnly _ _).mono st _ h streams
    rw [pendingReports]
    exact fun id p hl => GoMap.lookup_of_erase hl
  | acknowledged report stream pending known status streams pendingReports =>
    refine h.insert streams ?_ (by rw [pendingReports]; exact herase)
    intro _
    have hw : a.writes = true := by simp [TrafficAcceptedReport.writes, status]
    obtain ⟨hsid, hxepoch, -, hto⟩ := hsame report pending
    show w.controller.Belongs report.streamID stream.counterEpoch
      (if a.accepted = 0 then report.toBytes else a.accepted)
    rw [← hepoch report stream pending known hw]
    split
    · rename_i hzero
      have hb := Controller.belongs_of_accepted ((hack status).2 hzero)
      rw [hsid, hto, ← (hack status).1] at hb
      exact hb
    · have hb := hwrites hw
      rw [← hxsid, hsid] at hb
      exact hb
  | refused report stream pending known status terminal streams pendingReports =>
    refine h.insert streams ?_ (by rw [pendingReports]; exact herase)
    intro hne
    show w.controller.Belongs report.streamID stream.counterEpoch
      (if a.status ≠ .rejected then a.accepted else stream.accepted)
    by_cases hrej : a.status = .rejected
    · rw [if_neg (not_not.mpr hrej)]
      exact h.belongs _ stream known hne
    · rw [if_pos hrej]
      have hw : a.writes = true := by simp [TrafficAcceptedReport.writes, status, hrej]
      rw [← hepoch report stream pending known hw]
      have hb := hwrites hw
      rw [← hxsid, (hsame report pending).1] at hb
      exact hb

/-! ## One lemma per event -/

/-- The checkpoint an item leaves belongs to the item's epoch. The source takes over the value of
a stream that has no epoch yet. -/
theorem Sound.acceptedAfter {sid : String} {item : TrafficSnapshotItem} (h : Sound c created st)
    (hempty : ∀ stream ∈ st.streams.lookup sid, stream.counterEpoch = "" →
      c.Belongs sid item.counterEpoch stream.accepted) :
    c.Belongs sid item.counterEpoch (acceptedAfter (st.streams.lookup sid) item) := by
  unfold Traffic.acceptedAfter
  cases hl : st.streams.lookup sid with
  | none => exact c.belongs_zero _ _
  | some stream =>
    simp only
    by_cases hnone : stream.counterEpoch = ""
    · rw [if_neg (fun hch => hch.1 hnone)]
      exact hempty stream hl hnone
    · by_cases hsame : stream.counterEpoch = item.counterEpoch
      · rw [if_neg (fun hch => hch.2 hsame), ← hsame]
        exact h.belongs sid stream hl hnone
      · rw [if_pos ⟨hnone, hsame⟩]
        exact c.belongs_zero _ _

theorem sound_observe {r : Runner} {a : Agent} {now : Int} {recovering : Bool}
    {item : TrafficSnapshotItem} (h : Sound c created a.memory)
    (hempty : ∀ stream ∈ a.memory.streams.lookup (r.itemStream item), stream.counterEpoch = "" →
      c.Belongs (r.itemStream item) item.counterEpoch stream.accepted) :
    Sound c (created ++ a.queuedBy r (.observe now recovering item))
      (a.act r (.observe now recovering item)) := by
  have hgrow := h.grow (fun _ _ _ hb => hb) (List.subset_append_left created
    (a.queuedBy r (.observe now recovering item)))
  obtain ⟨-, hsame, -⟩ | ⟨-, o, hset, hact, hrange⟩ := a.observe_cases r now recovering item
  · rw [hsame]
    exact hgrow
  · rw [hact]
    refine hgrow.insert (queue_streams _ _) ?_ ?_
    · intro _
      rw [hset.counterEpoch, hset.accepted]
      exact h.acceptedAfter hempty
    · intro id p hl
      refine (lookup_queue hl).imp_right ?_
      rintro ⟨ho, hid⟩
      refine ⟨hid, List.mem_append_right _ ?_⟩
      exact Option.mem_toList.mpr (hrange.trans ho)

theorem sound_prune (now : Int) (h : Sound c created st) :
    Sound c created (st.pruneTrafficStreams now).1 := by
  refine ⟨?_, h.tracked⟩
  intro sid stream hl
  rw [lookup_prune, Option.bind_eq_some_iff] at hl
  obtain ⟨stream₀, hl₀, hkeep⟩ := hl
  obtain ⟨date, rfl⟩ := pruneStream_some hkeep
  exact h.belongs sid stream₀ hl₀

theorem sound_respond (hd : w.Distinct) (hsent : w.SentCreated) (now : Int)
    {resp : TrafficReportResponse} (h : Sound w.controller w.created st)
    (hchecks : ∀ k ∈ resp.streamCheckpoints, w.controller.Tells k)
    (hanswers : ∀ a ∈ resp.acceptedReports, w.TellsAnswer a)
    (hmatch : Run.Along applyAnswer (fun st a => st.answerMatches a = true)
      (Run.exec applyCheckpoint st resp.streamCheckpoints) resp.acceptedReports) :
    Sound w.controller w.created (st.applyTrafficLedgerResponse now resp) := by
  have hfirst := Run.invariant sound_checkpoint h (Run.Along.of_forall hchecks)
  have hsecond := Run.invariant (sound_answer hd hsent) hfirst
    ((Run.Along.of_forall hanswers).and hmatch)
  have hledger := applyResponse_sameLedger st now resp
  apply (sound_ledgerOnly _ _).mono _ _ hsecond hledger.streams
  rw [hledger.pendingReports]
  exact fun id p hl => hl

/-- The epoch a stream is in once a report of the first version was converted: its own, or else
that of the last snapshot when the report names an inbound. -/
def Runner.legacyEpochAfter (r : Runner) (st : TrafficLocalState) (p : TrafficPendingReport) :
    String :=
  let own := ((st.streams.lookup (r.legacyStreamID st p)).getD {}).counterEpoch
  if 0 < p.inboundID.getD 0 then st.legacyEpoch p.snapshotKey own else own

/-- The value the stream stands at then: its own, or else where the report starts. -/
def Runner.legacyStart (r : Runner) (st : TrafficLocalState) (p : TrafficPendingReport) : Counters :=
  let own := ((st.streams.lookup (r.legacyStreamID st p)).getD {}).accepted
  if own = 0 then legacyFrom p else own

/-- What reports of the first version store belongs to the epoch they are converted under, and so
do the checkpoints that the bridge takes over. -/
def Runner.LegacyBelongs (r : Runner) (c : Controller) (st : TrafficLocalState) : Prop :=
  Run.Along r.convertOne (fun st p => r.legacyEpochAfter st p ≠ "" →
    c.Belongs (r.legacyStreamID st p) (r.legacyEpochAfter st p) (r.legacyStart st p))
    st st.pending ∧
  (st.pending ≠ [] → r.legacyRemaining st st.pending = [] →
    Run.Along r.bridgeOne (fun st e => e.2.counterEpoch ≠ "" →
      c.Belongs (r.trafficStreamID (Runner.lastSource e.2) e.1) e.2.counterEpoch
        (Runner.bridgedCheckpoint st e.1 e.2)) (r.bridgeStart st) (r.bridgeStart st).last.entries)

instance (r : Runner) (c : Controller) (st : TrafficLocalState) :
    Decidable (r.LegacyBelongs c st) := inferInstanceAs (Decidable (_ ∧ (_ → _ → _)))

theorem convertedStream_eq (r : Runner) (st : TrafficLocalState) (p : TrafficPendingReport) :
    (r.convertedStream st p).counterEpoch = r.legacyEpochAfter st p ∧
      (r.convertedStream st p).accepted = r.legacyStart st p := by
  have hstream : (legacyStream st (r.legacyStreamID st p) p).counterEpoch
      = ((st.streams.lookup (r.legacyStreamID st p)).getD {}).counterEpoch ∧
      (legacyStream st (r.legacyStreamID st p) p).accepted = r.legacyStart st p := by
    unfold legacyStream Runner.legacyStart
    cases st.streams.lookup (r.legacyStreamID st p) <;> exact ⟨rfl, rfl⟩
  unfold Runner.convertedStream Runner.convertedRange Runner.legacyEpochAfter Runner.convertEpoch
  simp only [hstream.1]
  by_cases hin : 0 < p.inboundID.getD 0
  · rw [if_pos hin, if_neg (not_le.mpr hin)]
    by_cases hnone : st.legacyEpoch p.snapshotKey
        ((st.streams.lookup (r.legacyStreamID st p)).getD {}).counterEpoch = ""
    · rw [if_pos hnone, hnone]
      refine ⟨hstream.1.trans ?_, hstream.2⟩
      -- No epoch is found only when the stream has none.
      by_contra hown
      rw [legacyEpoch, if_pos hown] at hnone
      exact hown hnone
    · rw [if_neg hnone]
      exact ⟨rfl, hstream.2⟩
  · rw [if_neg hin, if_pos (not_lt.mp hin), ite_self]
    exact hstream

theorem sound_convertOne {r : Runner} (st : TrafficLocalState) (p : TrafficPendingReport)
    (h : Sound c created st)
    (hp : (r.legacyEpochAfter st p ≠ "" →
      c.Belongs (r.legacyStreamID st p) (r.legacyEpochAfter st p) (r.legacyStart st p)) ∧
        ∀ q ∈ (r.convertedRange st p).toList, q ∈ created) :
    Sound c created (r.convertOne st p) := by
  obtain ⟨hepoch, haccepted⟩ := convertedStream_eq r st p
  refine h.insert (queue_streams _ _) (by rw [hepoch, haccepted]; exact hp.1) ?_
  intro id q hl
  refine (lookup_queue hl).imp_right ?_
  rintro ⟨ho, hid⟩
  exact ⟨hid, hp.2 q (Option.mem_toList.mpr ho)⟩

theorem sound_bridgeOne {r : Runner} (st : TrafficLocalState)
    (e : Σ _ : String, TrafficSnapshotItem) (h : Sound c created st)
    (he : e.2.counterEpoch ≠ "" →
      c.Belongs (r.trafficStreamID (Runner.lastSource e.2) e.1) e.2.counterEpoch
        (Runner.bridgedCheckpoint st e.1 e.2)) : Sound c created (r.bridgeOne st e) := by
  unfold Runner.bridgeOne
  simp only
  split
  · exact h
  · exact h.insert rfl he fun id p hl => Or.inl hl

theorem sound_convert {r : Runner} (h : Sound c created st) (hlegacy : r.LegacyBelongs c st) :
    Sound c (created ++ r.convertedRanges st) (r.convertLegacyPendingToRanges st).1 := by
  have hqueued : ∀ q ∈ Run.outputs r.convertOne (fun st p => (r.convertedRange st p).toList) st
      st.pending, q ∈ created ++ r.convertedRanges st :=
    fun q hq => List.mem_append_right _ hq
  have hgrow := h.grow (fun _ _ _ hb => hb)
    (List.subset_append_left created (r.convertedRanges st))
  apply r.convert_rule sound_convertOne sound_bridgeOne _ hgrow
    (hlegacy.1.and (Run.forall_outputs.mp hqueued)) hlegacy.2
  intro st₁ st₂ h₁ hs hp
  apply (sound_ledgerOnly _ _).mono st₁ st₂ h₁ hs
  rw [hp]
  exact fun id p hl => hl

/-! ## Runs -/

namespace World

/-- The step writes no value into a stream of another epoch: an answer comes while its stream is
still in the epoch the answer names, a stream without an epoch gets the one its value belongs to,
and so do the reports of the first version. -/
def EpochsMatch (r : Runner) (w : World) : WorldEvent → Prop
  | .agent (.observe _ _ item) =>
    ∀ stream ∈ w.agent.memory.streams.lookup (r.itemStream item), stream.counterEpoch = "" →
      w.controller.Belongs (r.itemStream item) item.counterEpoch stream.accepted
  | .agent .convert => r.LegacyBelongs w.controller w.agent.memory
  | .agent (.respond _ resp) =>
    Run.Along applyAnswer (fun st a => st.answerMatches a = true)
      (Run.exec applyCheckpoint w.agent.memory resp.streamCheckpoints) resp.acceptedReports
  | _ => True

instance (r : Runner) (w : World) : ∀ ev, Decidable (EpochsMatch r w ev)
  | .agent (.observe _ _ _) => inferInstanceAs (Decidable (∀ stream ∈ _, _ → _))
  | .agent .convert => inferInstanceAs (Decidable (r.LegacyBelongs _ _))
  | .agent (.respond _ _) => inferInstanceAs (Decidable (Run.Along _ _ _ _))
  | .send _ | .adopt _ _ | .accept _ | .give _ | .agent (.prune _) | .agent (.fail _)
  | .agent (.save _) | .agent .restart => .isTrue trivial

/-- The agent knows no stream and no pending report yet; it may hold reports of the first version,
and the Controller any ledger. -/
structure Fresh (w : World) : Prop where
  agent : w.agent.Holds fun st => st.streams = ∅ ∧ st.pendingReports = ∅
  created : w.created = []
  sent : w.sent = []
  responses : w.responses = []

structure Consistent (w : World) : Prop where
  agent : w.agent.Holds (Sound w.controller w.created)
  sent : w.SentCreated
  checkpoints : ∀ resp ∈ w.responses, ∀ k ∈ resp.streamCheckpoints, w.controller.Tells k
  answers : ∀ resp ∈ w.responses, ∀ a ∈ resp.acceptedReports, w.TellsAnswer a

theorem Fresh.consistent (h : w.Fresh) : w.Consistent where
  agent := h.agent.imp fun _ hst => Sound.of_empty hst.1 hst.2
  sent := by simp [SentCreated, h.sent]
  checkpoints := by simp [h.responses]
  answers := by simp [h.responses]

theorem HonestAnswer.tells {a : TrafficAcceptedReport} (h : w.HonestAnswer a) :
    w.TellsAnswer a := by
  obtain ⟨x, hx, hid, hsid, hack, href⟩ := h
  refine ⟨x, hx, hid, hsid, ?_, ?_⟩
  · intro hs
    obtain ⟨hepoch, ⟨hacc, -⟩ | ⟨-, -, hne, -⟩⟩ := hack hs
    · exact ⟨hepoch, fun _ => hacc⟩
    · exact ⟨hepoch, fun hzero => absurd hzero hne⟩
  · intro hw
    rw [TrafficAcceptedReport.writes, Bool.or_eq_true] at hw
    cases hw with
    | inl hs =>
      obtain ⟨hepoch, ⟨hacc, hv | hv | hv⟩ | ⟨-, -, -, hv⟩⟩ := hack hs
      · rw [hv]
        exact w.controller.belongs_zero _ _
      · rw [hv, ← hsid, hepoch]
        exact Controller.belongs_of_accepted hacc
      · rw [hv, ← hsid, hepoch]
        exact w.controller.belongs_checkpoint _ _
      · rw [hv, ← hsid, hepoch]
        exact w.controller.belongs_checkpoint _ _
    | inr hr =>
      rw [Bool.and_eq_true, decide_eq_true_eq] at hr
      rw [href hr.1 hr.2]
      exact w.controller.belongs_checkpoint _ _

theorem HonestCheckpoint.tells {k : TrafficStreamCheckpoint}
    (h : w.HonestCheckpoint k) : w.controller.Tells k := by
  refine ⟨?_, h.1⟩
  by_cases hempty : k.counterEpoch = ""
  · rw [h.1 hempty]
    exact w.controller.belongs_zero _ _
  · rw [h.2 hempty]
    exact w.controller.belongs_checkpoint _ _

theorem sound_act {r : Runner} {ev : AgentEvent} (h : w.Consistent)
    (hlegal : w.Legal (.agent ev)) (hd : w.Distinct) (hmatch : w.EpochsMatch r (.agent ev)) :
    Sound w.controller (w.created ++ w.agent.queuedBy r ev) (w.agent.act r ev) := by
  cases ev with
  | observe now recovering item => exact sound_observe h.agent.memory hmatch
  | convert => exact sound_convert h.agent.memory hmatch
  | prune now =>
    simp only [Agent.queuedBy, List.append_nil]
    exact sound_prune now h.agent.memory
  | respond now resp =>
    simp only [Agent.queuedBy, List.append_nil]
    exact sound_respond hd h.sent now h.agent.memory (h.checkpoints resp hlegal)
      (h.answers resp hlegal) hmatch
  | fail error =>
    simp only [Agent.queuedBy, List.append_nil]
    exact (sound_ledgerOnly _ _).mono _ _ h.agent.memory rfl fun id p hl => hl
  | save w' =>
    simp only [Agent.queuedBy, List.append_nil]
    exact h.agent.memory
  | restart =>
    simp only [Agent.queuedBy, List.append_nil]
    exact h.agent.restart (sound_ledgerOnly _ _) r

theorem TellsAnswer.accept {a : TrafficAcceptedReport} (h : w.TellsAnswer a)
    (x : TrafficLedgerReportItem) :
    ({ w with controller := w.controller.accept x } : World).TellsAnswer a := by
  obtain ⟨y, hy, hid, hsid, hack, hwrites⟩ := h
  refine ⟨y, hy, hid, hsid, fun hs => ⟨(hack hs).1, ?_⟩, fun hw => (hwrites hw).accept x⟩
  exact fun hzero => List.mem_cons_of_mem _ ((hack hs).2 hzero)

theorem consistent_step {r : Runner} (w : World) (ev : WorldEvent) (h : w.Consistent)
    (hev : w.Legal ev ∧ w.Distinct ∧ w.EpochsMatch r ev) : (w.step r ev).Consistent := by
  obtain ⟨hlegal, hd, hmatch⟩ := hev
  cases ev with
  | agent ev =>
    have hgrow := h.agent.imp fun st hst => hst.grow (fun _ _ _ hb => hb)
      (List.subset_append_left w.created (w.agent.queuedBy r ev))
    refine ⟨hgrow.step (sound_ledgerOnly _ _) (sound_act h hlegal hd hmatch), ?_, h.checkpoints,
      h.answers⟩
    intro x hx
    obtain ⟨p, hp, hwire⟩ := h.sent x hx
    exact ⟨p, List.mem_append_left _ hp, hwire⟩
  | send order =>
    refine ⟨h.agent, List.forall_mem_append.mpr ⟨h.sent, fun x hnew => ?_⟩, h.checkpoints, ?_⟩
    · obtain ⟨id, p, hl, rfl⟩ := mem_trafficLedgerReportBatch hnew
      exact ⟨p, (h.agent.memory.tracked id p hl).2, rfl⟩
    · intro resp hr a ha
      obtain ⟨x, hx, htells⟩ := h.answers resp hr a ha
      exact ⟨x, List.mem_append_left _ hx, htells⟩
  | accept x =>
    refine ⟨?_, h.sent, ?_, ?_⟩
    · exact h.agent.imp fun st hst => hst.grow (fun _ _ _ hb => hb.accept x) (List.Subset.refl _)
    · intro resp hr k hk
      obtain ⟨hb, hzero⟩ := h.checkpoints resp hr k hk
      exact ⟨hb.accept x, hzero⟩
    · exact fun resp hr a ha => (h.answers resp hr a ha).accept x
  | adopt streamID epoch =>
    -- The epochs are no part of what belongs to them.
    exact ⟨h.agent.imp fun st hst => hst.grow (fun _ _ _ hb => hb) (List.Subset.refl _), h.sent,
      h.checkpoints, h.answers⟩
  | give resp =>
    refine ⟨h.agent, h.sent, ?_, ?_⟩
    · exact List.forall_mem_cons.mpr ⟨fun k hk => (hlegal.2 k hk).tells, h.checkpoints⟩
    · exact List.forall_mem_cons.mpr ⟨fun a ha => (hlegal.1 a ha).tells, h.answers⟩

/-- **A checkpoint belongs to its epoch.** In every world reached from a fresh one with an honest
Controller, along steps that write no value into a stream of another epoch, the checkpoint of
every stream is a value up to which the Controller has accepted it in the stream's epoch. -/
theorem checkpoint_belongs_to_epoch (r : Runner) (w : World) (hfresh : w.Fresh)
    (es : List WorldEvent)
    (hrun : Run.Along (step r) (fun w ev => w.Legal ev ∧ w.Distinct ∧ w.EpochsMatch r ev) w es) :
    ∀ sid stream,
      (Run.exec (step r) w es).agent.memory.streams.lookup sid = some stream →
      stream.counterEpoch ≠ "" →
      (Run.exec (step r) w es).controller.Belongs sid stream.counterEpoch stream.accepted :=
  (Run.invariant consistent_step hfresh.consistent hrun).agent.memory.belongs

/-! The kernel is restarted while a report is pending. -/

def blank : World := { agent := .blank }

theorem blank_fresh : blank.Fresh where
  agent := by
    refine ⟨⟨rfl, rfl⟩, ?_⟩
    intro content hc
    cases hc with
    | inl hp => exact (TrafficFile.holds.inj hp) ▸ ⟨rfl, rfl⟩
    | inr hb => exact absurd hb (by simp [blank, Agent.blank])
  created := rfl
  sent := rfl
  responses := rfl

def firstReport : TrafficLedgerReportItem :=
  (Runner.plain.newRange (Rfc3339.format 0) (Runner.plain.itemStream (counterAt "ce_1" 0)) {}
    (counterAt "ce_1" 100)).wire

def firstAnswer (status : TrafficStatus) : TrafficReportResponse where
  acceptedReports := [{ reportID := firstReport.reportID, status := status
                        streamID := firstReport.streamID, counterEpoch := "ce_1", periodKey := "p"
                        accepted := ⟨100, 0⟩ }]

def firstHundred : List WorldEvent :=
  [.agent (.observe 0 false (counterAt "ce_1" 100)), .agent (.save .both),
    .adopt firstReport.streamID "ce_1", .send [firstReport.reportID], .accept firstReport]

def timelyAnswer : List WorldEvent :=
  firstHundred ++ [.give (firstAnswer .accepted), .agent (.respond 0 (firstAnswer .accepted))]

theorem timely_answer_belongs :
    ∃ stream, (Run.exec (step .plain) blank timelyAnswer).agent.memory.streams.lookup
        firstReport.streamID = some stream ∧ stream.accepted = ⟨100, 0⟩ ∧
      (Run.exec (step .plain) blank timelyAnswer).controller.Belongs firstReport.streamID
        stream.counterEpoch stream.accepted :=
  ⟨_, rfl, by decide, checkpoint_belongs_to_epoch .plain blank blank_fresh timelyAnswer (by decide)
    firstReport.streamID _ rfl (by decide)⟩

/-- The answer is lost. The kernel is restarted and shows 30 bytes of its next epoch; then the
report is sent again and answered as a duplicate, and the 100 bytes of the old epoch become the
checkpoint of the new one. -/
theorem late_answer_crosses_epochs :
    let es := firstHundred ++
      [.agent (.observe 0 false (counterAt "ce_2" 30)), .send [firstReport.reportID],
        .give (firstAnswer .duplicate), .agent (.respond 0 (firstAnswer .duplicate))]
    Run.Along (step .plain) (fun w ev => w.Legal ev ∧ w.Distinct) blank es ∧
      ∃ stream, (Run.exec (step .plain) blank es).agent.memory.streams.lookup firstReport.streamID
          = some stream ∧
        stream.counterEpoch = "ce_2" ∧ stream.accepted = ⟨100, 0⟩ ∧
        ¬(Run.exec (step .plain) blank es).controller.Belongs firstReport.streamID "ce_2"
          stream.accepted := by
  refine ⟨by decide, _, rfl, by decide, by decide, by decide⟩

end World

end OboardAgent.Traffic
