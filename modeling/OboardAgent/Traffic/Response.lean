import OboardAgent.Traffic.State
import OboardAgent.Lib.Run
import OboardAgent.Lib.Rfc3339

/-!
# The Controller's answer

`applyTrafficLedgerResponse`. The response carries stream checkpoints and answers to single
reports. The checkpoints come first, then the answers, each loop a run of a function of one
element; then the recovery flag and the synchronisation status are settled from what is left.

Two details of the source carry much of what follows. A checkpoint of another epoch than the
stream's is refused, while an answer to a report is written into the stream whatever its epoch;
and *any* stream checkpoint ends the recovery of the whole state.
-/

namespace OboardAgent.Traffic

open GoStrings

/-- `terminalTrafficRejectionReason`: the report can never be accounted. -/
def terminalTrafficRejectionReason (reason : String) : Bool :=
  ["user_deleted", "user_inactive", "binding_removed", "inbound_deleted", "inbound_disabled",
    "path_removed", "invalid_report", "unattributable_traffic", "legal_tail", "unauthorized",
    "forbidden"].contains (trimSpace reason)

namespace TrafficStatus

/-- A status after which the report is taken off and its end accepted. -/
def acknowledges : TrafficStatus → Bool
  | .unset | .accepted | .duplicate | .covered => true
  | _ => false

/-- A status after which the report is taken off, not accounted, and its stream shows it. -/
def refuses : TrafficStatus → Bool
  | .checkpointGap | .checkpointOverlap | .epochConflict | .rejected => true
  | _ => false

/-- A status of a stream that puts the whole state into recovery. -/
def alarming : TrafficStatus → Bool
  | .counterRegression | .checkpointGap | .checkpointOverlap | .epochConflict | .stateCorrupt =>
    true
  | _ => false

end TrafficStatus

variable (stream : TrafficStreamState) (a : TrafficAcceptedReport)

def TrafficAcceptedReport.terminal : Bool :=
  a.status = .rejected && terminalTrafficRejectionReason a.reason

/-- The end of the report counts only where the answer names no value of its own. -/
def TrafficStreamState.acknowledged (report : TrafficPendingRange) : TrafficStreamState :=
  { stream with
    accepted := if a.accepted = 0 then report.toBytes else a.accepted
    status := .healthy
    lastError := "" }

def TrafficStreamState.refused : TrafficStreamState :=
  { stream with
    status := a.status
    lastError := a.status.text
    accepted := if a.status ≠ .rejected then a.accepted else stream.accepted }

variable (c : TrafficStreamCheckpoint)

def checkpointStatus : TrafficStatus :=
  if c.status ≠ .unset then c.status
  else if stream.status = .recovering ∨ stream.status = .stateCorrupt then .healthy
  else stream.status

/-- Both name an epoch, and not the same. -/
def checkpointConflicts : Bool :=
  c.counterEpoch ≠ "" && stream.counterEpoch ≠ "" && c.counterEpoch ≠ stream.counterEpoch

def TrafficStreamState.checkpointed : TrafficStreamState :=
  if checkpointConflicts stream c then
    { stream with
      status := .epochConflict
      lastError := "controller epoch does not match local counters" }
  else
    { stream with
      counterEpoch := if c.counterEpoch ≠ "" then c.counterEpoch else stream.counterEpoch
      periodKey := if c.periodKey ≠ "" then c.periodKey else stream.periodKey
      accepted := c.accepted
      status := checkpointStatus stream c }

def checkpointStream (st : TrafficLocalState) (c : TrafficStreamCheckpoint) : TrafficStreamState :=
  (st.streams.lookup c.streamID).getD { source := c.source }

namespace TrafficLocalState

variable (st : TrafficLocalState)

def acknowledge (key : String) (c : TrafficCounterCheckpoint) : TrafficLocalState :=
  if key = "" then st else { st with acknowledged := st.acknowledged.insert key c }

/-- One iteration of the loop over the stream checkpoints. -/
def applyCheckpoint (c : TrafficStreamCheckpoint) : TrafficLocalState :=
  let stream := checkpointStream st c
  let stream' := stream.checkpointed c
  let st' := { st with streams := st.streams.insert c.streamID stream' }
  if checkpointConflicts stream c then st'
  else
    st'.acknowledge stream'.snapshotKey
      { counterEpoch := stream'.counterEpoch, periodKey := stream'.periodKey
        counters := stream'.accepted }

def answered (reportID : String) : TrafficLocalState :=
  { st with pendingReports := st.pendingReports.erase reportID }

variable (a : TrafficAcceptedReport)

def acknowledgeReport (report : TrafficPendingRange) : TrafficLocalState :=
  match st.streams.lookup report.streamID with
  | none => st.answered a.reportID
  | some stream =>
    let stream' := stream.acknowledged a report
    ({ st with streams := st.streams.insert report.streamID stream' }.acknowledge
      report.snapshotKey
      { counterEpoch := report.counterEpoch, periodKey := report.periodKey
        counters := stream'.accepted }).answered a.reportID

def refuseReport (report : TrafficPendingRange) : TrafficLocalState :=
  match st.streams.lookup report.streamID with
  | none => st.answered a.reportID
  | some stream =>
    if a.terminal then st.answered a.reportID
    else { st with streams := st.streams.insert report.streamID (stream.refused a) }.answered
      a.reportID

/-- One iteration of the loop over the answers to single reports. -/
def applyAnswer : TrafficLocalState :=
  if a.status.acknowledges then
    match st.pendingReports.lookup a.reportID with
    | none => st
    | some report => st.acknowledgeReport a report
  else if a.status.refuses then
    let st' :=
      match st.pendingReports.lookup a.reportID with
      | none => st
      | some report => st.refuseReport a report
    if a.terminal then st' else { st' with recoveryRequired := true }
  else st

def settleSync (now : Int) (checkpoints : Bool) : TrafficLocalState :=
  let st₁ :=
    if checkpoints then
      { st with
        recoveryRequired := false
        sync := { st.sync with
          status := if st.sync.status = .stateCorrupt then .recovering else st.sync.status } }
    else st
  { st₁ with
    sync :=
      { status :=
          if !st₁.recoveryRequired && st₁.sync.status ≠ .counterRegression &&
              st₁.sync.status ≠ .stateCorrupt then .healthy
          else st₁.sync.status
        lastSuccess := Rfc3339.format now
        lastError := "" } }

/-- The last loop: a stream in an alarming status puts the state into recovery. Go's map order is
unspecified; the order of the entries stands for it. -/
def raiseAlarm (entry : Σ _ : String, TrafficStreamState) : TrafficLocalState :=
  if entry.2.status.alarming then
    { st with
      sync := { st.sync with status := entry.2.status, lastError := entry.2.lastError }
      recoveryRequired := true }
  else st

def appliedCheckpoints (cs : List TrafficStreamCheckpoint) : List String :=
  Run.outputs applyCheckpoint
    (fun st c => if checkpointConflicts (checkpointStream st c) c then [] else [c.streamID]) st cs

def applyTrafficLedgerResponse (now : Int) (resp : TrafficReportResponse) : TrafficLocalState :=
  let st₁ := Run.exec applyCheckpoint st resp.streamCheckpoints
  let st₂ := Run.exec applyAnswer st₁ resp.acceptedReports
  let st₃ := st₂.settleSync now (resp.streamCheckpoints ≠ [])
  Run.exec raiseAlarm st₃ st₃.streams.entries

end TrafficLocalState

/-! ## What each iteration can do -/

namespace TrafficLocalState

/-- Streams and pending reports are the same. -/
structure SameLedger (st st' : TrafficLocalState) : Prop where
  streams : st'.streams = st.streams
  pendingReports : st'.pendingReports = st.pendingReports
  pending : st'.pending = st.pending

theorem checkpointed_of_conflict {stream : TrafficStreamState} {c : TrafficStreamCheckpoint}
    (h : checkpointConflicts stream c = true) :
    (stream.checkpointed c).counterEpoch = stream.counterEpoch ∧
      (stream.checkpointed c).accepted = stream.accepted ∧
      (stream.checkpointed c).status = .epochConflict := by
  unfold TrafficStreamState.checkpointed
  rw [h]
  exact ⟨rfl, rfl, rfl⟩

theorem checkpointed_of_agree {stream : TrafficStreamState} {c : TrafficStreamCheckpoint}
    (h : checkpointConflicts stream c = false) :
    (stream.checkpointed c).accepted = c.accepted ∧
      (c.counterEpoch ≠ "" → (stream.checkpointed c).counterEpoch = c.counterEpoch) := by
  unfold TrafficStreamState.checkpointed
  rw [h]
  exact ⟨rfl, fun hne => if_pos hne⟩

variable (st : TrafficLocalState)

theorem applyCheckpoint_spec (c : TrafficStreamCheckpoint) :
    (st.applyCheckpoint c).streams
        = st.streams.insert c.streamID ((checkpointStream st c).checkpointed c) ∧
      (st.applyCheckpoint c).pendingReports = st.pendingReports ∧
      (st.applyCheckpoint c).pending = st.pending ∧
      (st.applyCheckpoint c).recoveryRequired = st.recoveryRequired := by
  unfold applyCheckpoint acknowledge
  simp only
  split
  · exact ⟨rfl, rfl, rfl, rfl⟩
  · split <;> exact ⟨rfl, rfl, rfl, rfl⟩

/-- What an answer can do: nothing, drop its report, acknowledge it or refuse it. -/
inductive Answers (st : TrafficLocalState) (a : TrafficAcceptedReport) (st' : TrafficLocalState) :
    Prop
  | ignored (streams : st'.streams = st.streams)
      (pendingReports : st'.pendingReports = st.pendingReports)
  | dropped (report : TrafficPendingRange)
      (pending : st.pendingReports.lookup a.reportID = some report)
      (streams : st'.streams = st.streams)
      (pendingReports : st'.pendingReports = st.pendingReports.erase a.reportID)
      (why : a.terminal = true ∨ st.streams.lookup report.streamID = none)
  | acknowledged (report : TrafficPendingRange) (stream : TrafficStreamState)
      (pending : st.pendingReports.lookup a.reportID = some report)
      (known : st.streams.lookup report.streamID = some stream)
      (status : a.status.acknowledges = true)
      (streams : st'.streams
        = st.streams.insert report.streamID (stream.acknowledged a report))
      (pendingReports : st'.pendingReports = st.pendingReports.erase a.reportID)
  | refused (report : TrafficPendingRange) (stream : TrafficStreamState)
      (pending : st.pendingReports.lookup a.reportID = some report)
      (known : st.streams.lookup report.streamID = some stream)
      (status : a.status.refuses = true) (terminal : a.terminal = false)
      (streams : st'.streams = st.streams.insert report.streamID (stream.refused a))
      (pendingReports : st'.pendingReports = st.pendingReports.erase a.reportID)

theorem applyAnswer_answers (a : TrafficAcceptedReport) : Answers st a (st.applyAnswer a) := by
  unfold applyAnswer
  by_cases hack : a.status.acknowledges = true
  · rw [if_pos hack]
    cases hr : st.pendingReports.lookup a.reportID with
    | none => exact .ignored rfl rfl
    | some report =>
      simp only
      unfold acknowledgeReport
      cases hs : st.streams.lookup report.streamID with
      | none => exact .dropped report hr rfl rfl (Or.inr hs)
      | some stream =>
        unfold acknowledge
        simp only
        split <;> exact .acknowledged report stream hr hs hack rfl rfl
  · rw [if_neg hack]
    by_cases href : a.status.refuses = true
    · rw [if_pos href]
      cases hr : st.pendingReports.lookup a.reportID with
      | none =>
        simp only
        split <;> exact .ignored rfl rfl
      | some report =>
        simp only
        unfold refuseReport
        cases hs : st.streams.lookup report.streamID with
        | none =>
          simp only
          split <;> exact .dropped report hr rfl rfl (Or.inr hs)
        | some stream =>
          cases ht : a.terminal with
          | true => exact .dropped report hr rfl rfl (Or.inl ht)
          | false => exact .refused report stream hr hs href ht rfl rfl
    · rw [if_neg href]
      exact .ignored rfl rfl

section Answers

variable {st} {a : TrafficAcceptedReport} {st' : TrafficLocalState} (h : Answers st a st')
include h

/-- An answer leaves the streams alone that its report is not of. -/
theorem Answers.lookup_streams {sid : String}
    (hne : ∀ r, st.pendingReports.lookup a.reportID = some r → sid ≠ r.streamID) :
    st'.streams.lookup sid = st.streams.lookup sid := by
  cases h with
  | ignored streams => rw [streams]
  | dropped _ _ streams => rw [streams]
  | acknowledged report _ pending _ _ streams =>
    rw [streams]
    exact AList.lookup_insert_ne (hne report pending)
  | refused report _ pending _ _ _ streams =>
    rw [streams]
    exact AList.lookup_insert_ne (hne report pending)

theorem Answers.pendingReports_cases : st'.pendingReports = st.pendingReports ∨
    st'.pendingReports = st.pendingReports.erase a.reportID := by
  cases h with
  | ignored _ pendingReports => exact Or.inl pendingReports
  | dropped _ _ _ pendingReports => exact Or.inr pendingReports
  | acknowledged _ _ _ _ _ _ pendingReports => exact Or.inr pendingReports
  | refused _ _ _ _ _ _ _ pendingReports => exact Or.inr pendingReports

theorem Answers.lookup_pending {id : String} (hne : id ≠ a.reportID) :
    st'.pendingReports.lookup id = st.pendingReports.lookup id := by
  rcases h.pendingReports_cases with hp | hp
  · rw [hp]
  · rw [hp, AList.lookup_erase_ne hne]

end Answers

theorem raiseAlarm_spec (entries : List (Σ _ : String, TrafficStreamState)) :
    ∀ st : TrafficLocalState, SameLedger st (Run.exec raiseAlarm st entries) ∧
      (Run.exec raiseAlarm st entries).recoveryRequired
        = (st.recoveryRequired || entries.any fun e => e.2.status.alarming) := by
  induction entries with
  | nil => intro st; exact ⟨⟨rfl, rfl, rfl⟩, by simp⟩
  | cons e es ih =>
    intro st
    obtain ⟨hsame, hrec⟩ := ih (st.raiseAlarm e)
    rw [Run.exec_cons]
    unfold raiseAlarm at hsame hrec ⊢
    split at hsame
    · rename_i h
      simp only [h, if_true] at hrec hsame ⊢
      exact ⟨⟨hsame.streams, hsame.pendingReports, hsame.pending⟩, by rw [hrec]; simp [h]⟩
    · rename_i h
      simp only [h] at hrec hsame ⊢
      exact ⟨hsame, by rw [hrec]; simp [h]⟩

/-- The two loops that change streams and reports; what follows them only settles flags. -/
def answerLoops (resp : TrafficReportResponse) : TrafficLocalState :=
  Run.exec applyAnswer (Run.exec applyCheckpoint st resp.streamCheckpoints) resp.acceptedReports

theorem applyResponse_sameLedger (now : Int) (resp : TrafficReportResponse) :
    SameLedger (st.answerLoops resp) (st.applyTrafficLedgerResponse now resp) := by
  unfold applyTrafficLedgerResponse
  obtain ⟨hsame, -⟩ := raiseAlarm_spec
    ((st.answerLoops resp).settleSync now (resp.streamCheckpoints ≠ [])).streams.entries
    ((st.answerLoops resp).settleSync now (resp.streamCheckpoints ≠ []))
  have hsync : SameLedger (st.answerLoops resp)
      ((st.answerLoops resp).settleSync now (resp.streamCheckpoints ≠ [])) := by
    unfold settleSync
    simp only
    split <;> exact ⟨rfl, rfl, rfl⟩
  exact ⟨hsame.streams.trans hsync.streams, hsame.pendingReports.trans hsync.pendingReports,
    hsame.pending.trans hsync.pending⟩

end TrafficLocalState

end OboardAgent.Traffic
