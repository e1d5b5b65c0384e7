import OboardAgent.Traffic.Machine

/-!
# A collect cycle

`collectAndReportTraffic` with `reportTrafficLedger`: the order in which a cycle converts, prunes,
observes, saves and reports. A cycle is the list of agent events it takes, computed from the state
it starts in and from what the environment decides (`Cycle`), so every run of cycles is a run of
the machine (`cycles_run`), and what holds of all runs of the machine holds of it.

The Controller's reply also carries an authorization and traffic policies. Applying either can
fail, before the ledger response is applied or after it; `Reply` keeps that and nothing else of
them. A `Reply` may pair outcomes that do not occur together (a save that failed, and no error
after it), so the cycles here are more than those of the source, never fewer.
-/

namespace OboardAgent.Traffic

inductive Reply where
  | cancelled
  | failed (error : String) (w : Writes)
  | interrupted (now : Int) (resp : TrafficReportResponse) (w : Writes)
  /-- The response was applied; `later` is an error after that. -/
  | answered (now : Int) (resp : TrafficReportResponse) (w : Writes) (later : Option String)
      (w' : Writes)

namespace Reply

def events : Reply → List AgentEvent
  | .cancelled => []
  | .failed error w => [.fail error, .save w]
  | .interrupted now resp w => [.respond now resp, .save w]
  | .answered now resp w none w' => [.respond now resp, .save w, .save w']
  | .answered now resp w (some error) w' => [.respond now resp, .save w, .fail error, .save w']

/-- Whether `reportTrafficLedger` returns nil. -/
def ok : Reply → Bool
  | .answered _ _ _ none _ => true
  | _ => false

end Reply

/-- What the environment decides in one cycle: the clock, the snapshot (`none` when the kernel
cannot be asked and there is no SSH counter), how far the saves come, and the replies. -/
structure Cycle where
  now : Int
  snapshot : Option (List TrafficSnapshotItem)
  pruneSave : Writes := .both
  observedAt : Int
  observeSave : Writes := .both
  reply : Reply
  resumedAt : Int := 0
  resumeSave : Writes := .both
  resumeReply : Reply := .cancelled

def observeAll (now : Int) (recovering : Bool) (items : List TrafficSnapshotItem) :
    List AgentEvent := items.map (.observe now recovering)

theorem observe_snapshot (r : Runner) (now : Int) (recovering : Bool)
    (items : List TrafficSnapshotItem) (a : Agent) :
    Run.exec (Agent.step r) a (observeAll now recovering items)
      = { a with
          memory :=
            (r.observeTrafficSnapshot (Rfc3339.format now) recovering a.memory items).1 } := by
  have hfold : ∀ (items : List TrafficSnapshotItem) (st : TrafficLocalState) (b : Bool),
      Run.exec (Agent.step r) { a with memory := st } (observeAll now recovering items)
        = { a with
            memory := (items.foldl (fun acc item =>
              let next := r.observeItem (Rfc3339.format now) recovering acc.1 item
              (next.1, acc.2 || next.2)) (st, b)).1 } := by
    intro items
    induction items with
    | nil => intro st b; rfl
    | cons item rest ih =>
      intro st b
      exact ih _ _
  exact hfold items a.memory false

namespace Runner

variable (r : Runner)

/-- The rest of a cycle in recovery, once the request was answered: when the answer ended the
recovery, the snapshot is observed again and reported. -/
def resume (a : Agent) (c : Cycle) (items : List TrafficSnapshotItem) : List AgentEvent :=
  if a.memory.recoveryRequired then []
  else
    let observed := observeAll c.resumedAt false items ++ [.convert]
    let a' := Run.exec (Agent.step r) a observed
    observed ++ .save c.resumeSave ::
      (if saves a'.memory c.resumeSave && !a'.memory.pendingReports.entries.isEmpty then
        c.resumeReply.events
      else [])

def collectRecovering (a : Agent) (c : Cycle) (items : List TrafficSnapshotItem) :
    List AgentEvent :=
  let observed := observeAll c.observedAt true items ++ [.convert]
  let a₁ := Run.exec (Agent.step r) a observed
  let reported := observed ++ .save c.observeSave ::
    (if saves a₁.memory c.observeSave then c.reply.events else [])
  if saves a₁.memory c.observeSave && c.reply.ok then
    reported ++ r.resume (Run.exec (Agent.step r) a reported) c items
  else reported

/-- A cycle outside recovery, from the snapshot on. `pruned` says whether pruning changed
anything. -/
def collectHealthy (a : Agent) (c : Cycle) (items : List TrafficSnapshotItem)
    (pruned : Bool) : List AgentEvent :=
  let observed := observeAll c.observedAt false items
  let a₁ := Run.exec (Agent.step r) a observed
  let changed :=
    (r.observeTrafficSnapshot (Rfc3339.format c.observedAt) false a.memory items).2
  let converted := (r.convertLegacyPendingToRanges a₁.memory).2
  let a₂ := a₁.step r .convert
  if changed || converted || pruned then
    observed ++ .convert :: .save c.observeSave ::
      (if saves a₂.memory c.observeSave then c.reply.events else [])
  else observed ++ .convert :: c.reply.events

/-- `collectAndReportTraffic`: the events of one cycle. -/
def collectAndReportTraffic (a : Agent) (c : Cycle) : List AgentEvent :=
  let a₁ := a.step r .convert
  let pruned := (a₁.memory.pruneTrafficStreams c.now).2
  let a₂ := a₁.step r (.prune c.now)
  match c.snapshot with
  | none =>
    -- Without a snapshot the cycle still saves what was pruned and asks for the policies.
    if pruned then
      [.convert, .prune c.now, .save c.pruneSave] ++
        (if saves a₂.memory c.pruneSave then c.reply.events else [])
    else [.convert, .prune c.now] ++ c.reply.events
  | some items =>
    if a₂.memory.recoveryRequired || a₂.memory.sync.status = .stateCorrupt then
      [.convert, .prune c.now] ++ r.collectRecovering a₂ c items
    else [.convert, .prune c.now] ++ r.collectHealthy a₂ c items pruned

def cycle (a : Agent) (c : Cycle) : Agent :=
  Run.exec (Agent.step r) a (r.collectAndReportTraffic a c)

def cycleEvents (r : Runner) : Agent → List Cycle → List AgentEvent
  | _, [] => []
  | a, c :: cs => r.collectAndReportTraffic a c ++ cycleEvents r (r.cycle a c) cs

end Runner

theorem cycles_run (r : Runner) (cs : List Cycle) : ∀ a : Agent,
    Run.exec r.cycle a cs = Run.exec (Agent.step r) a (r.cycleEvents a cs) := by
  induction cs with
  | nil => intro a; rfl
  | cons c cs ih =>
    intro a
    rw [Run.exec_cons, ih, Runner.cycleEvents, Run.exec_append]
    rfl

/-! ## A counter to compute with -/

def Agent.blank : Agent :=
  let st : TrafficLocalState := { schemaVersion := trafficStateSchemaV2 }
  { memory := st, files := ⟨.holds st, .missing⟩ }

def counterAt (epoch : String) (upload : Int) : TrafficSnapshotItem where
  key := "alice"
  counterEpoch := epoch
  userID := 1
  inboundID := 1
  periodKey := "p"
  counters := ⟨upload, 0⟩

def cycleAt (now : Int) (item : TrafficSnapshotItem) (reply : Reply) : Cycle where
  now := now
  snapshot := some [item]
  observedAt := now
  reply := reply

def Agent.acceptAll (a : Agent) : TrafficReportResponse where
  acceptedReports := a.memory.pendingReports.values.map fun p =>
    { reportID := p.reportID, status := .accepted, streamID := p.streamID
      counterEpoch := p.counterEpoch, periodKey := p.periodKey, accepted := p.toBytes }

/-! ## What a restart reads -/

theorem Runner.namesInbound_of_converted (r : Runner) {st : TrafficLocalState}
    {p : TrafficPendingReport} {q : TrafficPendingRange} (h : r.convertedRange st p = some q) :
    namesInbound q = true := by
  unfold Runner.convertedRange at h
  split_ifs at h with hepoch hinbound
  cases h
  unfold Runner.legacyRange namesInbound
  split_ifs <;> exact decide_eq_true (Int.not_le.mp hinbound)

namespace Agent

/-- The state file can be read, and every pending report, in memory and in the files, names an
inbound. -/
structure Filed (a : Agent) : Prop where
  readable : ∃ st, readTrafficStateFile a.files.primary = .ok st
  named : a.Holds (TrafficLocalState.EachPending (namesInbound · = true))

theorem Filed.step {r : Runner} {a : Agent} (h : a.Filed) (ev : AgentEvent) :
    (a.step r ev).Filed where
  readable := by
    obtain ⟨st, hst⟩ := h.readable
    cases ev with
    | save w => exact (reload_save hst).1
    | _ => exact ⟨st, hst⟩
  named := by
    refine h.named.step (TrafficLocalState.EachPending.ledgerOnly _) ?_
    refine TrafficLocalState.EachPending.act h.named fun p hp => ?_
    rcases mem_queuedBy hp with ⟨now, recovering, item, -, hrange⟩ | ⟨-, hconverted⟩
    · obtain ⟨-, -, -, -, -, -, -, -, -, hnamed⟩ := observedRange_some hrange
      exact hnamed
    · refine (Run.forall_outputs (Q := fun q => namesInbound q = true)).mpr ?_ p hconverted
      refine Run.Along.mono (fun st p _ q hq => ?_)
        (Run.Along.of_forall (Q := fun _ => True) fun _ _ => trivial)
      exact r.namesInbound_of_converted (Option.mem_toList.mp hq)

/-- **A restart reads what was saved, or what it would have read before.** In every run from a state
file that can be read, with saves that may fail at every point, a save loses neither a stream nor a
pending report. Over a state file that cannot be read it is not so: the save copies the file over
the good backup before it writes the new one. -/
theorem save_survives_restart (r : Runner) (a : Agent) (hfiled : a.Filed) (evs : List AgentEvent)
    (w : Writes) :
    let b := Run.exec (step r) a evs
    (b.step r (.save w)).reload = b.reload ∨
      ((b.step r (.save w)).reload.streams = b.memory.streams ∧
        ∀ id, (b.step r (.save w)).reload.pendingReports.lookup id
          = b.memory.pendingReports.lookup id) := by
  intro b
  have hb : b.Filed := Run.invariant_all (fun _ ev h => h.step ev) hfiled
  obtain ⟨st, hst⟩ := hb.readable
  refine (reload_save hst).2.imp_right fun ⟨hstreams, hpending⟩ => ⟨hstreams, fun id => ?_⟩
  refine Option.ext fun p => (hpending id p).trans (and_iff_left_of_imp fun hp => ?_)
  exact hb.named.memory id p hp

theorem blank_filed : blank.Filed := by
  refine ⟨⟨_, rfl⟩, (TrafficLocalState.EachPending.ledgerOnly _).empty _ rfl rfl, ?_⟩
  rintro content (hc | hc)
  · cases hc
    exact (TrafficLocalState.EachPending.ledgerOnly _).empty _ rfl rfl
  · cases hc

/-- The first bytes of a stream are observed, and the save that follows writes the backup only. -/
theorem half_a_save_survives_restart :
    let b := Run.exec (step .plain) blank [.observe 0 false
      { key := "alice", counterEpoch := "ce_1", periodKey := "p", userID := 1, inboundID := 1
        counters := ⟨100, 0⟩ }]
    (b.step .plain (.save .backup)).reload = b.reload ∨
      ((b.step .plain (.save .backup)).reload.streams = b.memory.streams ∧
        ∀ id, (b.step .plain (.save .backup)).reload.pendingReports.lookup id
          = b.memory.pendingReports.lookup id) :=
  save_survives_restart .plain blank blank_filed _ .backup

end Agent

end OboardAgent.Traffic
