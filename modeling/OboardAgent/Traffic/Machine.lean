import OboardAgent.Traffic.Legacy
import OboardAgent.Traffic.Persist
import OboardAgent.Traffic.Prune
import OboardAgent.Traffic.Response

/-!
# The agent's side as a machine

`trafficMu` serialises everything that touches the traffic state, so the agent's side of the
ledger is a machine over the state in memory and the state file, and what the environment decides
is in the events: the clock, the items of a snapshot, the Controller's response, and whether a
write succeeds (an unsuccessful save is no event).

A snapshot is observed item by item, so a statement about all runs of this machine covers every
snapshot, and what holds between two items of one.
-/

namespace OboardAgent.Traffic

/-- A runner to compute with: its digest is the text itself, which no two texts share. -/
def Runner.plain : Runner where
  agentID := "agent"
  digest := id

/-- The state in memory, and the files a restart reads. -/
structure Agent where
  memory : TrafficLocalState
  files : TrafficFiles

inductive AgentEvent where
  | observe (now : Int) (recovering : Bool) (item : TrafficSnapshotItem)
  | convert
  | prune (now : Int)
  | respond (now : Int) (resp : TrafficReportResponse)
  | fail (error : String)
  | save (w : Writes)
  | restart

namespace Agent

/-- The state a restart reads. -/
def reload (a : Agent) : TrafficLocalState := loadTrafficState a.files.primary a.files.backup

def act (r : Runner) (a : Agent) : AgentEvent → TrafficLocalState
  | .observe now recovering item =>
    (r.observeItem (Rfc3339.format now) recovering a.memory item).1
  | .convert => (r.convertLegacyPendingToRanges a.memory).1
  | .prune now => (a.memory.pruneTrafficStreams now).1
  | .respond now resp => a.memory.applyTrafficLedgerResponse now resp
  | .fail error =>
    -- The deferred handler of `reportTrafficLedger` after an error.
    { a.memory with sync := { a.memory.sync with status := .stale, lastError := error } }
  | .save _ => a.memory
  | .restart => a.reload

def step (r : Runner) (a : Agent) (ev : AgentEvent) : Agent where
  memory := a.act r ev
  files :=
    match ev with
    | .save w => a.files.saveTrafficState a.memory w
    | _ => a.files

def observedRange (r : Runner) (a : Agent) (now : Int) (recovering : Bool)
    (item : TrafficSnapshotItem) : Option TrafficPendingRange :=
  if itemCounts item then
    (r.observeStream (Rfc3339.format now) (recovering || a.memory.recoveryRequired)
      (a.memory.pendingExists (r.itemStream item) item) (r.itemStream item)
      (a.memory.streams.lookup (r.itemStream item)) item).range
  else none

def queuedBy (r : Runner) (a : Agent) : AgentEvent → List TrafficPendingRange
  | .observe now recovering item => (a.observedRange r now recovering item).toList
  | .convert => r.convertedRanges a.memory
  | _ => []

def reconciledBy (a : Agent) : AgentEvent → List String
  | .respond _ resp => a.memory.appliedCheckpoints resp.streamCheckpoints
  | _ => []

end Agent

/-! ## One lemma per event -/

/-- **What one item does to the agent.** It is skipped, or it rewrites its own stream and queues
at most one range, for that stream. -/
theorem Agent.observe_cases (r : Runner) (a : Agent) (now : Int) (recovering : Bool)
    (item : TrafficSnapshotItem) :
    (itemCounts item = false ∧ a.act r (.observe now recovering item) = a.memory ∧
      a.observedRange r now recovering item = none) ∨
    (itemCounts item = true ∧ ∃ o,
      Settled r (Rfc3339.format now) (recovering || a.memory.recoveryRequired)
        (a.memory.pendingExists (r.itemStream item) item) (r.itemStream item)
        (a.memory.streams.lookup (r.itemStream item)) item o ∧
      a.act r (.observe now recovering item)
        = { a.memory with streams := a.memory.streams.insert (r.itemStream item) o.stream }.queue
            o.range ∧
      a.observedRange r now recovering item = o.range) := by
  have hact : a.act r (.observe now recovering item)
      = (r.observeItem (Rfc3339.format now) recovering a.memory item).1 := rfl
  rw [hact]
  unfold Agent.observedRange Runner.observeItem
  cases hc : itemCounts item with
  | false => exact Or.inl ⟨rfl, rfl, rfl⟩
  | true => exact Or.inr ⟨rfl, _, r.observeStream_settled _ _ _ _ _ _, rfl, rfl⟩

theorem Agent.observe_recoveryRequired (r : Runner) (a : Agent) (now : Int) (recovering : Bool)
    (item : TrafficSnapshotItem) :
    (a.act r (.observe now recovering item)).recoveryRequired = a.memory.recoveryRequired := by
  obtain ⟨-, h, -⟩ | ⟨-, o, -, h, -⟩ := a.observe_cases r now recovering item
  · rw [h]
  · rw [h, TrafficLocalState.queue_recoveryRequired]

theorem Agent.observedRange_some {r : Runner} {a : Agent} {now : Int} {recovering : Bool}
    {item : TrafficSnapshotItem} {p : TrafficPendingRange}
    (h : a.observedRange r now recovering item = some p) :
    recovering = false ∧ a.memory.recoveryRequired = false ∧
      a.memory.pendingExists (r.itemStream item) item = false ∧
      p.streamID = r.itemStream item ∧ p.counterEpoch = item.counterEpoch ∧
      p.fromBytes = acceptedAfter (a.memory.streams.lookup (r.itemStream item)) item ∧
      p.toBytes = item.counters ∧ p.fromBytes ≤ p.toBytes ∧ p.fromBytes ≠ p.toBytes ∧
      namesInbound p = true := by
  obtain ⟨-, -, hnone⟩ | ⟨-, o, hset, -, hrange⟩ := a.observe_cases r now recovering item
  · rw [hnone] at h
    cases h
  · obtain ⟨hrec, hpend, hp, hle, hne, hin⟩ := hset.range p (hrange.symm.trans h)
    rw [Bool.or_eq_false_iff] at hrec
    subst hp
    refine ⟨hrec.1, hrec.2, hpend, rfl, rfl, hset.accepted, rfl, hle, hne, ?_⟩
    simp [namesInbound, Runner.newRange, hin]

theorem Agent.mem_queuedBy {r : Runner} {a : Agent} {ev : AgentEvent} {p : TrafficPendingRange}
    (h : p ∈ a.queuedBy r ev) :
    (∃ now recovering item, ev = .observe now recovering item ∧
      a.observedRange r now recovering item = some p) ∨
    (ev = .convert ∧ p ∈ r.convertedRanges a.memory) := by
  cases ev with
  | observe now recovering item =>
    exact Or.inl ⟨now, recovering, item, rfl, Option.mem_toList.mp h⟩
  | convert => exact Or.inr ⟨rfl, h⟩
  | _ => exact absurd h (List.not_mem_nil)

theorem Runner.convert_of_none (r : Runner) {st : TrafficLocalState} (h : st.pending = []) :
    (r.convertLegacyPendingToRanges st).1 = st ∧ r.convertedRanges st = [] := by
  unfold Runner.convertLegacyPendingToRanges Runner.convertedRanges
  rw [h, if_pos rfl]
  exact ⟨rfl, rfl⟩

/-- Over a state file that can be read, a save leaves what a restart reads as it was, or makes it
the state in memory without the reports that name no inbound. -/
theorem Agent.reload_save {r : Runner} {a : Agent} {w : Writes} {st₀ : TrafficLocalState}
    (hread : readTrafficStateFile a.files.primary = .ok st₀) :
    (∃ st, readTrafficStateFile (a.step r (.save w)).files.primary = .ok st) ∧
      ((a.step r (.save w)).reload = a.reload ∨
        ((a.step r (.save w)).reload.streams = a.memory.streams ∧
          ∀ id p, (a.step r (.save w)).reload.pendingReports.lookup id = some p ↔
            a.memory.pendingReports.lookup id = some p ∧ namesInbound p = true)) := by
  have hfiles : (a.step r (.save w)).files = a.files.saveTrafficState a.memory w := rfl
  unfold Agent.reload
  rw [hfiles]
  unfold TrafficFiles.saveTrafficState
  cases hv : validateTrafficState (savedForm a.memory) with
  | error e => exact ⟨⟨st₀, hread⟩, Or.inl rfl⟩
  | ok u =>
    cases w with
    | none => exact ⟨⟨st₀, hread⟩, Or.inl rfl⟩
    | backup =>
      refine ⟨⟨st₀, hread⟩, Or.inl ?_⟩
      rw [loadTrafficState_of_ok hread, loadTrafficState_of_ok hread]
    | both =>
      have hnew : readTrafficStateFile (.holds (savedForm a.memory)) = .ok (savedForm a.memory) := by
        simp only [readTrafficStateFile, hv]
      refine ⟨⟨_, hnew⟩, Or.inr ?_⟩
      rw [loadTrafficState_of_ok hnew, migrateLoadedTrafficState_streams]
      refine ⟨(savedForm_ledger a.memory).1, ?_⟩
      intro id p
      rw [lookup_migrateLoadedTrafficState, (savedForm_ledger a.memory).2]

/-! ## What holds in memory and in the files -/

def TrafficFiles.Contains (files : TrafficFiles) (content : TrafficLocalState) : Prop :=
  files.primary = .holds content ∨ files.backup = .holds content

theorem TrafficFiles.contains_save {files : TrafficFiles} {st content : TrafficLocalState}
    {w : Writes} (h : (files.saveTrafficState st w).Contains content) :
    files.Contains content ∨ content = savedForm st := by
  unfold TrafficFiles.saveTrafficState at h
  cases hv : validateTrafficState (savedForm st) with
  | error e =>
    rw [hv] at h
    exact Or.inl h
  | ok u =>
    rw [hv] at h
    -- The new backup is the old primary or the old backup.
    have hcopy : ∀ content, (if files.primary.hasContent then files.primary else files.backup)
        = .holds content → files.Contains content := by
      intro content hc
      split at hc
      · exact Or.inl hc
      · exact Or.inr hc
    cases w with
    | none => exact Or.inl h
    | backup =>
      cases h with
      | inl hp => exact Or.inl (Or.inl hp)
      | inr hb => exact Or.inl (hcopy content hb)
    | both =>
      cases h with
      | inl hp => exact Or.inr (TrafficFile.holds.inj hp).symm
      | inr hb => exact Or.inl (hcopy content hb)

/-- A property of the streams and pending reports of a state that a save and a restart keep:
it survives the loss of pending reports, and holds when there is nothing. -/
structure LedgerOnly (I : TrafficLocalState → Prop) : Prop where
  empty : ∀ st, st.streams = ∅ → st.pendingReports = ∅ → I st
  mono : ∀ st st', I st → st'.streams = st.streams →
    (∀ id p, st'.pendingReports.lookup id = some p → st.pendingReports.lookup id = some p) → I st'

/-- The property holds of the state in memory and of every state a restart could read. -/
structure Agent.Holds (I : TrafficLocalState → Prop) (a : Agent) : Prop where
  memory : I a.memory
  files : ∀ content, a.files.Contains content → I content

namespace Agent.Holds

variable {I : TrafficLocalState → Prop} {a : Agent}

theorem imp {J : TrafficLocalState → Prop} (h : a.Holds I) (hIJ : ∀ st, I st → J st) : a.Holds J :=
  ⟨hIJ _ h.memory, fun content hc => hIJ _ (h.files content hc)⟩

theorem restart (hI : LedgerOnly I) (h : a.Holds I) (r : Runner) : I (a.act r .restart) := by
  show I a.reload
  unfold Agent.reload
  cases loadTrafficState_ledger a.files.primary a.files.backup with
  | inl hempty => exact hI.empty _ hempty.1 hempty.2
  | inr hfile =>
    obtain ⟨content, hc, hstreams, hpending⟩ := hfile
    exact hI.mono content _ (h.files content hc) hstreams fun id p hl => ((hpending id p).mp hl).1

theorem step (hI : LedgerOnly I) (h : a.Holds I) {r : Runner} {ev : AgentEvent}
    (hact : I (a.act r ev)) : (a.step r ev).Holds I := by
  refine ⟨hact, ?_⟩
  intro content hc
  cases ev with
  | save w =>
    cases TrafficFiles.contains_save hc with
    | inl hold => exact h.files content hold
    | inr hnew =>
      subst hnew
      apply hI.mono _ _ h.memory (savedForm_ledger a.memory).1
      rw [(savedForm_ledger a.memory).2]
      exact fun id p hp => hp
  | _ => exact h.files content hc

end Agent.Holds

/-! ## What every pending report has -/

/-- Every pending report has the property. -/
def TrafficLocalState.EachPending (Q : TrafficPendingRange → Prop) (st : TrafficLocalState) : Prop :=
  ∀ id p, st.pendingReports.lookup id = some p → Q p

namespace TrafficLocalState.EachPending

variable {Q : TrafficPendingRange → Prop} {st : TrafficLocalState}

theorem ledgerOnly (Q : TrafficPendingRange → Prop) : LedgerOnly (EachPending Q) where
  empty := by
    intro st _ hp id p hl
    rw [hp] at hl
    cases hl
  mono := fun _ _ h _ hp id p hl => h id p (hp id p hl)

theorem queue (h : st.EachPending Q) {o : Option TrafficPendingRange} (ho : ∀ p, o = some p → Q p) :
    (st.queue o).EachPending Q := by
  intro id p hl
  cases lookup_queue hl with
  | inl hold => exact h id p hold
  | inr hnew => exact ho p hnew.1

theorem respond (h : st.EachPending Q) (now : Int) (resp : TrafficReportResponse) :
    (st.applyTrafficLedgerResponse now resp).EachPending Q := by
  have hfirst : (Run.exec applyCheckpoint st resp.streamCheckpoints).EachPending Q := by
    refine Run.invariant_all (fun st k hst => ?_) h
    intro id p hl
    rw [(applyCheckpoint_spec st k).2.1] at hl
    exact hst id p hl
  have hsecond : (st.answerLoops resp).EachPending Q := by
    refine Run.invariant_all (fun st a hst => ?_) hfirst
    intro id p hl
    rcases (applyAnswer_answers st a).pendingReports_cases with hp | hp
    · exact hst id p (hp ▸ hl)
    · exact hst id p (GoMap.lookup_of_erase (hp ▸ hl))
  intro id p hl
  rw [(applyResponse_sameLedger st now resp).pendingReports] at hl
  exact hsecond id p hl

theorem convert {r : Runner} (h : st.EachPending Q) (hranges : ∀ p ∈ r.convertedRanges st, Q p) :
    (r.convertLegacyPendingToRanges st).1.EachPending Q := by
  refine r.convert_rule (Q := fun _ _ => True) ?_ ?_ ?_ h (Run.forall_outputs.mp hranges) ?_
  · intro st p hst hp
    refine queue ?_ fun q hq => hp q (Option.mem_toList.mpr hq)
    exact fun id q hl => hst id q hl
  · intro st e hst _
    unfold Runner.bridgeOne
    simp only
    split
    · exact hst
    · exact fun id p hl => hst id p hl
  · intro st₁ st₂ hst _ hp id p hl
    rw [hp] at hl
    exact hst id p hl
  · exact fun _ _ => Run.Along.of_forall fun _ _ => trivial

theorem act {r : Runner} {a : Agent} {ev : AgentEvent} (h : a.Holds (EachPending Q))
    (hqueued : ∀ p ∈ a.queuedBy r ev, Q p) : (a.act r ev).EachPending Q := by
  cases ev with
  | observe now recovering item =>
    obtain ⟨-, hsame, -⟩ | ⟨-, o, -, hact, hrange⟩ := a.observe_cases r now recovering item
    · rw [hsame]
      exact h.memory
    · rw [hact]
      refine queue ?_ fun p hp => hqueued p (Option.mem_toList.mpr (hrange.trans hp))
      exact fun id p hl => h.memory id p hl
  | convert => exact convert h.memory hqueued
  | prune now => exact h.memory
  | respond now resp => exact respond h.memory now resp
  | fail error => exact h.memory
  | save w => exact h.memory
  | restart => exact h.restart (ledgerOnly Q) r

end TrafficLocalState.EachPending

end OboardAgent.Traffic
