import OboardAgent.Traffic.Collect

/-!
# Recovery from a missing or corrupt state

When the state file is missing or corrupt the counters of the kernel are known and the accepted
checkpoints are not, so nothing may be billed until the Controller has said where each stream
stands. The state carries one flag for that, and the flag is cleared by the first response that
carries any stream checkpoint at all. A stream the response does not mention is billed from zero
(`unreconciled_stream_is_billed`).
-/

namespace OboardAgent.Traffic

/-! ## What a response does to the flag -/

namespace TrafficLocalState

/-- A checkpoint that does not conflict with the stream as the response finds it is applied, by
itself or because an earlier checkpoint of the stream in the response was. -/
theorem mem_appliedCheckpoints {c : TrafficStreamCheckpoint} {cs : List TrafficStreamCheckpoint} :
    ∀ {st : TrafficLocalState}, c ∈ cs → checkpointConflicts (checkpointStream st c) c = false →
      c.streamID ∈ st.appliedCheckpoints cs := by
  induction cs with
  | nil => exact nofun
  | cons k ks ih =>
    intro st hc hagrees
    have hepoch : k.streamID = c.streamID →
        (checkpointStream st k).counterEpoch = (checkpointStream st c).counterEpoch := by
      intro hsid
      unfold checkpointStream
      rw [hsid]
      cases st.streams.lookup c.streamID <;> rfl
    unfold appliedCheckpoints Run.outputs
    by_cases hdone : k.streamID = c.streamID ∧
        checkpointConflicts (checkpointStream st k) k = false
    · rw [hdone.2]
      exact List.mem_append_left _ (List.mem_singleton.mpr hdone.1.symm)
    refine List.mem_append_right _ (ih ?_ ?_)
    · refine (List.mem_cons.mp hc).resolve_left ?_
      rintro rfl
      exact hdone ⟨rfl, hagrees⟩
    · -- The epoch of the stream is what it was: the first checkpoint is of another stream, or it
      -- conflicts.
      have hsame : (checkpointStream (st.applyCheckpoint k) c).counterEpoch
          = (checkpointStream st c).counterEpoch := by
        unfold checkpointStream
        rw [(applyCheckpoint_spec st k).1]
        by_cases hsid : k.streamID = c.streamID
        · have hconf := checkpointed_of_conflict (by simpa [hsid] using hdone)
          rw [← hsid, AList.lookup_insert, Option.getD_some, hconf.1, hsid]
          exact hepoch hsid
        · rw [AList.lookup_insert_ne (Ne.symm hsid)]
      unfold checkpointConflicts at hagrees ⊢
      rw [hsame]
      exact hagrees

theorem applyAnswer_recovering (st : TrafficLocalState) (a : TrafficAcceptedReport)
    (h : st.recoveryRequired = true) : (st.applyAnswer a).recoveryRequired = true := by
  have hanswered : ∀ report, (st.acknowledgeReport a report).recoveryRequired = true ∧
      (st.refuseReport a report).recoveryRequired = true := by
    intro report
    unfold acknowledgeReport refuseReport
    cases st.streams.lookup report.streamID with
    | none => exact ⟨h, h⟩
    | some stream =>
      simp only [acknowledge]
      refine ⟨?_, ?_⟩
      · split <;> exact h
      · split <;> exact h
  unfold applyAnswer
  cases st.pendingReports.lookup a.reportID with
  | none =>
    simp only
    split_ifs <;> first | exact h | rfl
  | some report =>
    simp only
    split_ifs
    · exact (hanswered report).1
    · exact (hanswered report).2
    · rfl
    · exact h

/-- Only a stream checkpoint ends the recovery. -/
theorem applyResponse_recovering {st : TrafficLocalState} {resp : TrafficReportResponse}
    (h : st.recoveryRequired = true) (hnone : resp.streamCheckpoints = []) (now : Int) :
    (st.applyTrafficLedgerResponse now resp).recoveryRequired = true := by
  unfold applyTrafficLedgerResponse
  rw [hnone]
  have hanswers : (Run.exec applyAnswer st resp.acceptedReports).recoveryRequired = true :=
    Run.invariant_all applyAnswer_recovering h
  simp only [(raiseAlarm_spec _ _).2, settleSync, Run.exec_nil, ne_eq, not_true_eq_false,
    decide_false, Bool.false_eq_true, if_false, hanswers, Bool.true_or]

end TrafficLocalState

/-! ## Runs -/

/-- The agent, and the streams a checkpoint of the Controller was applied to: since the state was
last found missing or corrupt, and as of the state in the file. -/
structure Recovery where
  agent : Agent
  reconciled : List String
  filed : List String

namespace Recovery

/-- The agent starts and reads its files. -/
def start (files : TrafficFiles) : Recovery where
  agent := { memory := loadTrafficState files.primary files.backup, files := files }
  reconciled := []
  filed := []

/-- A restart forgets what was reconciled in memory. What the file was saved with is left, and
nothing when the file cannot be read. -/
def step (r : Runner) (s : Recovery) (ev : AgentEvent) : Recovery where
  agent := s.agent.step r ev
  reconciled :=
    match ev with
    | .restart =>
      match readTrafficStateFile s.agent.files.primary with
      | .ok _ => s.filed
      | .error _ => []
    | ev => s.reconciled ++ s.agent.reconciledBy ev
  filed :=
    match ev with
    | .save w => if saves s.agent.memory w then s.reconciled else s.filed
    | _ => s.filed

/-- The step does not end the recovery behind the stream's back: while it lasts and no checkpoint
of the stream was applied, a response that carries checkpoints carries one of the stream, in its
epoch. There is no report of the first version to convert. -/
def Reconciles (streamID : String) (s : Recovery) : AgentEvent → Prop
  | .convert => s.agent.memory.pending = []
  | .respond _ resp =>
    s.agent.memory.recoveryRequired = true → streamID ∉ s.reconciled →
    resp.streamCheckpoints ≠ [] → ∃ c ∈ resp.streamCheckpoints, c.streamID = streamID ∧
      checkpointConflicts (checkpointStream s.agent.memory c) c = false
  | _ => True

instance (streamID : String) (s : Recovery) : ∀ ev, Decidable (Reconciles streamID s ev)
  | .convert => inferInstanceAs (Decidable (s.agent.memory.pending = []))
  | .respond _ _ => inferInstanceAs (Decidable (_ → _ → _ → ∃ c ∈ _, _ ∧ _))
  | .observe .. | .prune _ | .fail _ | .save _ | .restart => .isTrue trivial

structure Waits (streamID : String) (s : Recovery) : Prop where
  memory : s.agent.memory.recoveryRequired = true ∨ streamID ∈ s.reconciled
  files : ∀ st, readTrafficStateFile s.agent.files.primary = .ok st →
    st.recoveryRequired = true ∨ streamID ∈ s.filed

theorem waits_start {files : TrafficFiles} {e : TrafficStateError}
    (h : readTrafficStateFile files.primary = .error e) (streamID : String) :
    Waits streamID (start files) where
  memory := Or.inl (loadTrafficState_recovering h)
  files := by
    intro st hst
    have hread : readTrafficStateFile files.primary = .ok st := hst
    rw [h] at hread
    cases hread

variable {streamID : String}

theorem memory_step {r : Runner} {s : Recovery} {ev : AgentEvent}
    (hw : Waits streamID s) (hev : Reconciles streamID s ev) :
    (s.agent.act r ev).recoveryRequired = true ∨ streamID ∈ (s.step r ev).reconciled := by
  cases ev with
  | observe now recovering item =>
    refine hw.memory.imp ?_ (List.mem_append_left _)
    intro hrec
    exact (s.agent.observe_recoveryRequired r now recovering item).trans hrec
  | convert =>
    have hsame := (r.convert_of_none hev).1
    refine hw.memory.imp ?_ (List.mem_append_left _)
    intro hrec
    exact (congrArg TrafficLocalState.recoveryRequired hsame).trans hrec
  | prune now => exact hw.memory.imp id (List.mem_append_left _)
  | fail error => exact hw.memory.imp id (List.mem_append_left _)
  | save w => exact hw.memory.imp id (List.mem_append_left _)
  | respond now resp =>
    by_cases hdone : streamID ∈ s.reconciled
    · exact Or.inr (List.mem_append_left _ hdone)
    have hrec := hw.memory.resolve_right hdone
    by_cases hnone : resp.streamCheckpoints = []
    · exact Or.inl (TrafficLocalState.applyResponse_recovering hrec hnone now)
    · obtain ⟨c, hc, rfl, hagrees⟩ := hev hrec hdone hnone
      exact Or.inr (List.mem_append_right _
        (TrafficLocalState.mem_appliedCheckpoints hc hagrees))
  | restart =>
    have hreconciled : (s.step r .restart).reconciled =
        match readTrafficStateFile s.agent.files.primary with
        | .ok _ => s.filed
        | .error _ => [] := rfl
    rw [hreconciled]
    cases hread : readTrafficStateFile s.agent.files.primary with
    | error e => exact Or.inl (loadTrafficState_recovering hread)
    | ok st =>
      refine (hw.files st hread).imp ?_ id
      intro hrec
      show s.agent.reload.recoveryRequired = true
      rw [Agent.reload, loadTrafficState_of_ok hread, migrateLoadedTrafficState_recoveryRequired]
      exact hrec

theorem files_step {r : Runner} {s : Recovery} {ev : AgentEvent}
    (hw : Waits streamID s) {st : TrafficLocalState}
    (hread : readTrafficStateFile (s.step r ev).agent.files.primary = .ok st) :
    st.recoveryRequired = true ∨ streamID ∈ (s.step r ev).filed := by
  cases ev with
  | save w =>
    have hfiled : (s.step r (.save w)).filed
        = if saves s.agent.memory w then s.reconciled else s.filed := rfl
    have hfile : readTrafficStateFile (s.agent.files.saveTrafficState s.agent.memory w).primary
        = .ok st := hread
    rw [hfiled]
    unfold TrafficFiles.saveTrafficState at hfile
    unfold saves
    cases hv : validateTrafficState (savedForm s.agent.memory) with
    | error e =>
      rw [hv] at hfile
      exact hw.files st hfile
    | ok u =>
      rw [hv] at hfile
      cases w with
      | none => exact hw.files st hfile
      | backup => exact hw.files st hfile
      | both =>
        simp only [readTrafficStateFile, hv, Except.ok.injEq] at hfile
        rw [← hfile, savedForm_recoveryRequired]
        exact hw.memory
  | _ => exact hw.files st hread

theorem queued_step {r : Runner} {s : Recovery} {ev : AgentEvent}
    (hw : Waits streamID s) (hev : Reconciles streamID s ev) {p : TrafficPendingRange}
    (hp : p ∈ s.agent.queuedBy r ev) : streamID ∈ s.reconciled := by
  obtain ⟨now, recovering, item, rfl, hrange⟩ | ⟨rfl, hconv⟩ := Agent.mem_queuedBy hp
  · obtain ⟨-, hrec, -⟩ := Agent.observedRange_some hrange
    cases hw.memory with
    | inl hstill =>
      rw [hrec] at hstill
      cases hstill
    | inr hdone => exact hdone
  · rw [(r.convert_of_none hev).2] at hconv
    cases hconv

theorem waits_step {r : Runner} (s : Recovery) (ev : AgentEvent)
    (hw : Waits streamID s) (hev : Reconciles streamID s ev) : Waits streamID (s.step r ev) where
  memory := memory_step hw hev
  files := fun _ hread => files_step hw hread

/-- The ranges a step queues, each with the streams that are reconciled by then. -/
def queues (r : Runner) (s : Recovery) (ev : AgentEvent) :
    List (TrafficPendingRange × List String) :=
  (s.agent.queuedBy r ev).map fun p => (p, s.reconciled)

/-- **Nothing is billed before it is reconciled.** From a missing or corrupt state file, along
every run in which no response with checkpoints ends the recovery before one of the stream was
applied: whenever a range is queued for the stream, a checkpoint of it has been applied since the
state was found missing or corrupt. -/
theorem queued_only_reconciled (r : Runner) (files : TrafficFiles) (e : TrafficStateError)
    (hbad : readTrafficStateFile files.primary = .error e) (streamID : String)
    (es : List AgentEvent) (hrun : Run.Along (step r) (Reconciles streamID) (start files) es) :
    ∀ q ∈ Run.outputs (step r) (queues r) (start files) es, q.1.streamID = streamID →
      streamID ∈ q.2 := by
  have hwaits := Run.along_invariant waits_step (waits_start hbad streamID) hrun
  refine Run.forall_outputs.mpr (hwaits.mono ?_)
  rintro s ev ⟨hw, hev⟩ q hq -
  obtain ⟨p, hp, rfl⟩ := List.mem_map.mp hq
  exact queued_step hw hev hp

/-! Two users behind one inbound, seen by an agent whose state file is missing. -/

def twoItems : List TrafficSnapshotItem :=
  [{ key := "alice", counterEpoch := "ce_1", userID := 1, inboundID := 1, periodKey := "p"
     counters := ⟨100, 0⟩ },
   { key := "bob", counterEpoch := "ce_1", userID := 2, inboundID := 1, periodKey := "p"
     counters := ⟨500, 0⟩ }]

def answeredWith (cs : List TrafficStreamCheckpoint) : Cycle where
  now := 0
  snapshot := some twoItems
  observedAt := 0
  reply := .answered 0 { streamCheckpoints := cs } .both none .both

def allAccepted (key : String) (counters : Counters) : TrafficStreamCheckpoint where
  source := "core"
  streamID := Runner.plain.trafficStreamID "core" key
  counterEpoch := "ce_1"
  periodKey := "p"
  accepted := counters
  status := .unset

def billed (cs : List TrafficStreamCheckpoint) : List (TrafficPendingRange × List String) :=
  let s := start ⟨.missing, .missing⟩
  Run.outputs (step .plain) (queues .plain) s
    (Runner.plain.collectAndReportTraffic s.agent (answeredWith cs))

/-- A stream that waits for its checkpoint is billed after it has come: 500 bytes are observed,
the Controller says 400. -/
theorem reconciled_stream_is_billed_from_its_checkpoint :
    ∃ q ∈ billed [allAccepted "bob" ⟨400, 0⟩],
      q.1.streamID = Runner.plain.trafficStreamID "core" "bob" ∧ q.1.fromBytes = ⟨400, 0⟩ ∧
        Runner.plain.trafficStreamID "core" "bob" ∈ q.2 := by
  have hqueued : ∃ q ∈ billed [allAccepted "bob" ⟨400, 0⟩],
      q.1.streamID = Runner.plain.trafficStreamID "core" "bob" ∧ q.1.fromBytes = ⟨400, 0⟩ := by
    decide
  obtain ⟨q, hq, hsid, hfrom⟩ := hqueued
  exact ⟨q, hq, hsid, hfrom, queued_only_reconciled .plain ⟨.missing, .missing⟩ .notExist rfl _ _
    (by decide) q hq hsid⟩

/-- The Controller's response has a checkpoint for one of the two streams. It ends the recovery of
both, and the other is billed from zero. -/
theorem unreconciled_stream_is_billed :
    ∃ q ∈ billed [allAccepted "alice" ⟨100, 0⟩],
      q.1.streamID = Runner.plain.trafficStreamID "core" "bob" ∧ q.1.fromBytes = 0 ∧
        q.1.toBytes = ⟨500, 0⟩ ∧ q.1.streamID ∉ q.2 := by
  decide

end Recovery

end OboardAgent.Traffic
