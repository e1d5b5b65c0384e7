import OboardAgent.Traffic.Collect

/-!
# What pruning forgets

A stream is pruned together with its accepted checkpoint. When the kernel still runs the counter
in that epoch, the next observation makes the stream up again with nothing accepted, and bills
what was billed before.

The rule for stale streams goes by the time of the last observation, and a cycle prunes *before*
it observes. After the agent was stopped for two weeks every settled stream looks abandoned,
whatever the kernel still counts (`stopped_agent_bills_again`).
-/

namespace OboardAgent.Traffic

structure PrunedStream where
  streamID : String
  stream : TrafficStreamState
  referenced : Bool
deriving DecidableEq, Repr

def TrafficLocalState.prunedBy (st : TrafficLocalState) (now : Int) : List PrunedStream :=
  (st.streams.entries.filter fun e => (st.pruneStream now e.1 e.2).isNone).map
    fun e => { streamID := e.1, stream := e.2, referenced := st.referenced e.1 }

def Agent.prunedBy (a : Agent) : AgentEvent → List PrunedStream
  | .prune now => a.memory.prunedBy now
  | _ => []

theorem Agent.mem_prunedBy {a : Agent} {ev : AgentEvent} {x : PrunedStream}
    (h : x ∈ a.prunedBy ev) : ∃ now, ev = .prune now ∧ x ∈ a.memory.prunedBy now := by
  cases ev with
  | prune now => exact ⟨now, rfl, h⟩
  | _ => cases h

def PrunedStream.rebilledBy (x : PrunedStream) (p : TrafficPendingRange) : Bool :=
  x.streamID = p.streamID && x.stream.counterEpoch = p.counterEpoch && x.stream.accepted ≠ 0 &&
    p.fromBytes.below x.stream.accepted

/-- The agent next to the kernel. A counter runs in the kernel from the moment it begins in an
epoch until it ends in it; `pruned` and `rebilled` are the history of the run. -/
structure Retention where
  agent : Agent
  live : List (String × String) := []
  ended : List (String × String) := []
  pruned : List PrunedStream := []
  rebilled : List TrafficPendingRange := []

inductive RetentionEvent where
  | begins (streamID epoch : String)
  | ends (streamID epoch : String)
  | agent (ev : AgentEvent)

namespace Retention

def step (r : Runner) (s : Retention) : RetentionEvent → Retention
  | .begins streamID epoch => { s with live := (streamID, epoch) :: s.live }
  | .ends streamID epoch =>
    { s with
      live := s.live.filter (· ≠ (streamID, epoch))
      ended := (streamID, epoch) :: s.ended }
  | .agent ev =>
    { s with
      agent := s.agent.step r ev
      pruned := s.pruned ++ s.agent.prunedBy ev
      rebilled := s.rebilled ++
        (s.agent.queuedBy r ev).filter fun p => s.pruned.any (·.rebilledBy p) }

/-- The kernel keeps its counters and epochs: a counter that ended in an epoch does not come back
in it, and a snapshot shows running counters. -/
def Kernel (r : Runner) (s : Retention) : RetentionEvent → Prop
  | .begins streamID epoch => (streamID, epoch) ∉ s.ended
  | .agent (.observe _ _ item) => (r.itemStream item, item.counterEpoch) ∈ s.live
  | _ => True

instance (r : Runner) (s : Retention) : ∀ ev, Decidable (Kernel r s ev)
  | .begins _ _ => inferInstanceAs (Decidable (_ ∉ _))
  | .ends _ _ => .isTrue trivial
  | .agent (.observe _ _ _) => inferInstanceAs (Decidable (_ ∈ _))
  | .agent .convert | .agent (.prune _) | .agent (.respond _ _) | .agent (.fail _)
  | .agent (.save _) | .agent .restart => .isTrue trivial

/-- What is pruned with bytes accepted has ended in the kernel, and there are no reports of the
first version to convert. -/
def PrunesEnded (s : Retention) : RetentionEvent → Prop
  | .agent (.prune now) => ∀ x ∈ s.agent.memory.prunedBy now,
    x.stream.accepted ≠ 0 → (x.streamID, x.stream.counterEpoch) ∈ s.ended
  | .agent .convert => s.agent.memory.pending = []
  | _ => True

instance (s : Retention) : ∀ ev, Decidable (PrunesEnded s ev)
  | .agent (.prune _) => inferInstanceAs (Decidable (∀ x ∈ _, _ → _))
  | .agent .convert => inferInstanceAs (Decidable (s.agent.memory.pending = []))
  | .begins _ _ | .ends _ _ | .agent (.observe _ _ _) | .agent (.respond _ _) | .agent (.fail _)
  | .agent (.save _) | .agent .restart => .isTrue trivial

/-- What was pruned in the run, and what the kernel shows, in one respect each: a pruned stream
with accepted bytes has ended, and what has ended is not shown. -/
structure Safe (s : Retention) : Prop where
  ended : ∀ x ∈ s.pruned, x.stream.accepted ≠ 0 → (x.streamID, x.stream.counterEpoch) ∈ s.ended
  shown : ∀ k ∈ s.live, k ∉ s.ended
  rebilled : s.rebilled = []

theorem queued_live {r : Runner} {s : Retention} {ev : AgentEvent} {p : TrafficPendingRange}
    (hk : Kernel r s (.agent ev)) (hp : PrunesEnded s (.agent ev))
    (hq : p ∈ s.agent.queuedBy r ev) : (p.streamID, p.counterEpoch) ∈ s.live := by
  obtain ⟨now, recovering, item, rfl, hrange⟩ | ⟨rfl, hconv⟩ := Agent.mem_queuedBy hq
  · obtain ⟨-, -, -, hsid, hepoch, -⟩ := Agent.observedRange_some hrange
    rw [hsid, hepoch]
    exact hk
  · rw [(r.convert_of_none hp).2] at hconv
    cases hconv

theorem rebills_nothing {r : Runner} {s : Retention} {ev : AgentEvent} (hs : Safe s)
    (hk : Kernel r s (.agent ev)) (hp : PrunesEnded s (.agent ev)) :
    (s.agent.queuedBy r ev).filter (fun p => s.pruned.any (·.rebilledBy p)) = [] := by
  rw [List.filter_eq_nil_iff]
  intro p hq hany
  obtain ⟨x, hx, hre⟩ := List.any_eq_true.mp hany
  simp only [PrunedStream.rebilledBy, Bool.and_eq_true, decide_eq_true_eq] at hre
  obtain ⟨⟨⟨hsid, hepoch⟩, hacc⟩, -⟩ := hre
  have hended := hs.ended x hx hacc
  rw [hsid, hepoch] at hended
  exact hs.shown _ (queued_live hk hp hq) hended

theorem safe_step {r : Runner} (s : Retention) (ev : RetentionEvent) (hs : Safe s)
    (hev : Kernel r s ev ∧ PrunesEnded s ev) : Safe (s.step r ev) := by
  obtain ⟨hk, hp⟩ := hev
  cases ev with
  | begins streamID epoch =>
    exact ⟨hs.ended, List.forall_mem_cons.mpr ⟨hk, hs.shown⟩, hs.rebilled⟩
  | ends streamID epoch =>
    refine ⟨fun x hx hacc => List.mem_cons_of_mem _ (hs.ended x hx hacc), ?_, hs.rebilled⟩
    intro k hlive
    obtain ⟨hold, hne⟩ := List.mem_filter.mp hlive
    intro hended
    cases List.mem_cons.mp hended with
    | inl heq => exact (of_decide_eq_true hne) heq
    | inr hmem => exact hs.shown k hold hmem
  | agent ev =>
    refine ⟨?_, hs.shown, ?_⟩
    · refine List.forall_mem_append.mpr ⟨hs.ended, fun x hnew => ?_⟩
      obtain ⟨now, rfl, hmem⟩ := Agent.mem_prunedBy hnew
      exact hp x hmem
    · show s.rebilled ++ _ = []
      rw [hs.rebilled, rebills_nothing hs hk hp]
      rfl

theorem prunedBy_settled {st : TrafficLocalState} {now : Int} :
    ∀ x ∈ st.prunedBy now, x.referenced = false ∧
      (x.stream.identityComplete = true → x.stream.observed = x.stream.accepted) := by
  intro x hx
  obtain ⟨e, he, rfl⟩ := List.mem_map.mp hx
  have hnone := (List.mem_filter.mp he).2
  rw [Option.isNone_iff_eq_none] at hnone
  unfold TrafficLocalState.pruneStream at hnone
  split at hnone
  · cases hnone
  · rename_i href
    refine ⟨by simpa using href, ?_⟩
    intro hid
    cases TrafficStreamState.prune_none hnone with
    | inl hinc =>
      rw [hid] at hinc
      cases hinc
    | inr hall => exact hall

theorem pruned_settled_step {r : Runner} (s : Retention) (ev : RetentionEvent)
    (h : ∀ x ∈ s.pruned, x.referenced = false ∧
      (x.stream.identityComplete = true → x.stream.observed = x.stream.accepted)) :
    ∀ x ∈ (s.step r ev).pruned, x.referenced = false ∧
      (x.stream.identityComplete = true → x.stream.observed = x.stream.accepted) := by
  cases ev with
  | begins streamID epoch => exact h
  | ends streamID epoch => exact h
  | agent ev =>
    refine List.forall_mem_append.mpr ⟨h, fun x hnew => ?_⟩
    obtain ⟨now, rfl, hmem⟩ := Agent.mem_prunedBy hnew
    exact prunedBy_settled x hmem

/-- **Pruning does not bill twice.** Along every run in which the kernel keeps its epochs: when
what was pruned with accepted bytes had ended, no range queued afterwards starts below what was
accepted for its stream and epoch. And along every run, whatever was pruned, no pending report
referred to it, and if its identity was complete all of its bytes were accepted. -/
theorem pruning_never_rebills (r : Runner) (a : Agent) (es : List RetentionEvent)
    (hkernel : Run.Along (step r) (Kernel r) { agent := a } es) :
    (Run.Along (step r) PrunesEnded { agent := a } es →
      (Run.exec (step r) { agent := a } es).rebilled = []) ∧
    ∀ x ∈ (Run.exec (step r) { agent := a } es).pruned, x.referenced = false ∧
      (x.stream.identityComplete = true → x.stream.observed = x.stream.accepted) := by
  constructor
  · intro hended
    have hstart : Safe { agent := a } :=
      ⟨fun x hx => absurd hx (by simp), nofun, rfl⟩
    exact (Run.invariant safe_step hstart (hkernel.and hended)).rebilled
  · refine Run.invariant_all (fun s ev h => pruned_settled_step s ev h) ?_
    intro x hx
    cases hx

/-! One counter that reaches 100 bytes, and an agent that is stopped for fifteen days. -/

def day : Int := 24 * 60 * 60 * 1000000000

def aliceStream : String := Runner.plain.itemStream (counterAt "ce_1" 0)

def settledCycle : Cycle :=
  let pending := Runner.plain.cycle .blank (cycleAt 0 (counterAt "ce_1" 100) .cancelled)
  cycleAt 0 (counterAt "ce_1" 100) (.answered 0 pending.acceptAll .both none .both)

def stoppedFor15Days (kernel : List RetentionEvent) (item : TrafficSnapshotItem) :
    List RetentionEvent :=
  let first := Runner.plain.collectAndReportTraffic .blank settledCycle
  let later := Runner.plain.collectAndReportTraffic (Runner.plain.cycle .blank settledCycle)
    (cycleAt (15 * day) item .cancelled)
  .begins aliceStream "ce_1" :: first.map .agent ++ kernel ++ later.map .agent

/-- The kernel was restarted in between: the stream is pruned, and the new epoch starts at
zero. -/
theorem restarted_kernel_is_not_rebilled :
    (Run.exec (step .plain) { agent := .blank }
      (stoppedFor15Days [.ends aliceStream "ce_1", .begins aliceStream "ce_2"]
        (counterAt "ce_2" 30))).rebilled = [] ∧
    (Run.exec (step .plain) { agent := .blank }
      (stoppedFor15Days [.ends aliceStream "ce_1", .begins aliceStream "ce_2"]
        (counterAt "ce_2" 30))).pruned ≠ [] :=
  ⟨(pruning_never_rebills .plain .blank _ (by decide)).1 (by decide), by decide⟩

/-- The kernel went on counting. The stream is pruned before it is observed, and the 100 bytes
that were accepted are billed a second time. -/
theorem stopped_agent_bills_again :
    Run.Along (step .plain) (Kernel .plain) { agent := .blank }
      (stoppedFor15Days [] (counterAt "ce_1" 150)) ∧
    ∃ p ∈ (Run.exec (step .plain) { agent := .blank }
        (stoppedFor15Days [] (counterAt "ce_1" 150))).rebilled,
      p.streamID = aliceStream ∧ p.counterEpoch = "ce_1" ∧ p.fromBytes = 0 ∧
        p.toBytes = ⟨150, 0⟩ := by
  decide

end Retention

end OboardAgent.Traffic
