import OboardAgent.Lib.Spans
import OboardAgent.Traffic.Collect

/-!
# The agent and an honest Controller

The agent, the Controller, and the messages between them. The Controller is not part of the
repository, so it is any Controller that keeps to what the protocol says about it: it accepts a
report only when the report's epoch is the one it has for the stream and the report starts at its
checkpoint, it accepts a report id once, and its answers and checkpoints tell what it has
accepted.

Messages are never removed. A request that was sent may be processed at any time or never, and a
response that was given may be delivered at any time, again, or never; so a run of this world
loses, delays and repeats messages as it likes.

`created`, `sent` and `shown` are the history of the run.
-/

namespace OboardAgent.Traffic

/-! ## Requests -/

def trafficReportBatchSize : Nat := 200

def TrafficPendingRange.wire (p : TrafficPendingRange) : TrafficLedgerReportItem where
  reportID := p.reportID
  source := p.source
  streamID := p.streamID
  counterEpoch := p.counterEpoch
  periodKey := p.periodKey
  userID := p.userID
  inboundID := p.inboundID
  pathID := p.pathID
  fromBytes := p.fromBytes
  toBytes := p.toBytes
  startedAt := p.startedAt
  endedAt := p.endedAt

/-- `trafficLedgerReportBatch`, over the order in which Go happens to visit the map. -/
def trafficLedgerReportBatch (pending : GoMap String TrafficPendingRange) (order : List String) :
    List TrafficLedgerReportItem :=
  (((order.filterMap fun id => pending.lookup id).filter namesInbound).map
    TrafficPendingRange.wire).take trafficReportBatchSize

theorem mem_trafficLedgerReportBatch {pending : GoMap String TrafficPendingRange}
    {order : List String} {x : TrafficLedgerReportItem}
    (h : x ∈ trafficLedgerReportBatch pending order) :
    ∃ id p, pending.lookup id = some p ∧ x = p.wire := by
  obtain ⟨p, hp, rfl⟩ := List.mem_map.mp (List.mem_of_mem_take h)
  obtain ⟨id, -, hid⟩ := List.mem_filterMap.mp (List.mem_filter.mp hp).1
  exact ⟨id, p, hid, rfl⟩

def TrafficLedgerReportItem.SameRange (x y : TrafficLedgerReportItem) : Prop :=
  x.streamID = y.streamID ∧ x.counterEpoch = y.counterEpoch ∧ x.fromBytes = y.fromBytes ∧
    x.toBytes = y.toBytes

instance (x y : TrafficLedgerReportItem) : Decidable (x.SameRange y) :=
  inferInstanceAs (Decidable (_ ∧ _ ∧ _ ∧ _))

/-! ## The Controller -/

structure Controller where
  epochs : GoMap String String := ∅
  accepted : List TrafficLedgerReportItem := []

namespace Controller

variable (c : Controller) (x : TrafficLedgerReportItem) (streamID epoch : String)

def spans : List (Span Counters) :=
  (c.accepted.filter fun x => x.streamID = streamID && x.counterEpoch = epoch).map
    fun x => ⟨x.fromBytes, x.toBytes⟩

def checkpoint : Counters := Span.tip 0 (c.spans streamID epoch)

/-- A value is, or once was, its checkpoint of the stream in the epoch. -/
def Belongs (v : Counters) : Prop :=
  v = 0 ∨ ∃ s ∈ c.spans streamID epoch, s.hi = v

instance (v : Counters) : Decidable (c.Belongs streamID epoch v) :=
  inferInstanceAs (Decidable (_ ∨ _))

def Accepts : Prop :=
  c.epochs.lookup x.streamID = some x.counterEpoch ∧
    x.fromBytes = c.checkpoint x.streamID x.counterEpoch ∧ x.fromBytes ≤ x.toBytes ∧
    ∀ y ∈ c.accepted, y.reportID ≠ x.reportID

instance : Decidable (c.Accepts x) := inferInstanceAs (Decidable (_ ∧ _ ∧ _ ∧ _))

/-- The ledger with one more report. -/
def accept : Controller := { c with accepted := x :: c.accepted }

def Has (id : String) : Prop := ∃ x ∈ c.accepted, x.reportID = id

/-- What it has accepted of any stream in any epoch is a chain from zero. -/
def Tiled : Prop := ∀ streamID epoch, Span.Chain 0 (c.spans streamID epoch)

theorem belongs_zero : c.Belongs streamID epoch 0 := Or.inl rfl

theorem belongs_checkpoint : c.Belongs streamID epoch (c.checkpoint streamID epoch) :=
  Span.tip_mem _ _

theorem spans_accept :
    (c.accept x).spans streamID epoch =
      if x.streamID = streamID ∧ x.counterEpoch = epoch then
        ⟨x.fromBytes, x.toBytes⟩ :: c.spans streamID epoch
      else c.spans streamID epoch := by
  unfold spans accept
  rw [List.filter_cons]
  by_cases h : x.streamID = streamID ∧ x.counterEpoch = epoch
  · rw [if_pos h, if_pos (by simp [h.1, h.2]), List.map_cons]
  · rw [if_neg h, if_neg (by simpa using h)]

theorem has_accepted : (c.accept x).Has x.reportID := ⟨x, List.mem_cons_self, rfl⟩

theorem checkpoint_accept : (c.accept x).checkpoint x.streamID x.counterEpoch = x.toBytes := by
  unfold checkpoint
  rw [spans_accept, if_pos ⟨rfl, rfl⟩]
  rfl

variable {c x streamID epoch}

theorem mem_spans (h : x ∈ c.accepted) :
    ⟨x.fromBytes, x.toBytes⟩ ∈ c.spans x.streamID x.counterEpoch :=
  List.mem_map.mpr ⟨x, List.mem_filter.mpr ⟨h, by simp⟩, rfl⟩

theorem belongs_of_accepted (h : x ∈ c.accepted) : c.Belongs x.streamID x.counterEpoch x.toBytes :=
  Or.inr ⟨_, mem_spans h, rfl⟩

theorem Belongs.accept {v : Counters} (h : c.Belongs streamID epoch v) (x : TrafficLedgerReportItem)
    : (c.accept x).Belongs streamID epoch v := by
  refine h.imp id ?_
  rintro ⟨s, hs, hhi⟩
  refine ⟨s, ?_, hhi⟩
  rw [spans_accept]
  split
  · exact List.mem_cons_of_mem _ hs
  · exact hs

theorem exists_of_mem_spans {s : Span Counters} (h : s ∈ c.spans streamID epoch) :
    ∃ x ∈ c.accepted, x.streamID = streamID ∧ x.counterEpoch = epoch ∧ x.fromBytes = s.lo ∧
      x.toBytes = s.hi := by
  obtain ⟨x, hx, rfl⟩ := List.mem_map.mp h
  obtain ⟨hacc, hsame⟩ := List.mem_filter.mp hx
  rw [Bool.and_eq_true, decide_eq_true_eq, decide_eq_true_eq] at hsame
  exact ⟨x, hacc, hsame.1, hsame.2, rfl, rfl⟩

theorem Has.accept {id : String} (h : c.Has id) (x : TrafficLedgerReportItem) :
    (c.accept x).Has id := by
  obtain ⟨y, hy, hid⟩ := h
  exact ⟨y, List.mem_cons_of_mem _ hy, hid⟩

theorem checkpoint_accept_of_ne (h : ¬(x.streamID = streamID ∧ x.counterEpoch = epoch)) :
    (c.accept x).checkpoint streamID epoch = c.checkpoint streamID epoch := by
  unfold checkpoint
  rw [spans_accept, if_neg h]

theorem checkpoint_eq_zero (h : ∀ x ∈ c.accepted, x.streamID = streamID → x.counterEpoch ≠ epoch) :
    c.checkpoint streamID epoch = 0 := by
  cases Span.tip_mem 0 (c.spans streamID epoch) with
  | inl hzero => exact hzero
  | inr hsome =>
    obtain ⟨s, hs, -⟩ := hsome
    obtain ⟨x, hx, hsid, hepoch, -⟩ := exists_of_mem_spans hs
    exact absurd hepoch (h x hx hsid)

theorem checkpoint_le_accept (hx : c.Accepts x) (streamID epoch : String) :
    c.checkpoint streamID epoch ≤ (c.accept x).checkpoint streamID epoch := by
  by_cases hsame : x.streamID = streamID ∧ x.counterEpoch = epoch
  · obtain ⟨rfl, rfl⟩ := hsame
    rw [checkpoint_accept, ← hx.2.1]
    exact hx.2.2.1
  · rw [checkpoint_accept_of_ne hsame]

theorem Tiled.le_checkpoint (h : c.Tiled)
    (hx : x ∈ c.accepted) : x.toBytes ≤ c.checkpoint x.streamID x.counterEpoch :=
  (h _ _).hi_le_tip _ (mem_spans hx)

theorem Tiled.apart (h : c.Tiled) {y : TrafficLedgerReportItem}
    (hx : x ∈ c.accepted) (hy : y ∈ c.accepted) (hsid : x.streamID = y.streamID)
    (hepoch : x.counterEpoch = y.counterEpoch) :
    x = y ∨ x.toBytes ≤ y.fromBytes ∨ y.toBytes ≤ x.fromBytes := by
  have hpair := (h y.streamID y.counterEpoch).pairwise
  unfold spans at hpair
  rw [List.pairwise_map] at hpair
  have hmem : ∀ z ∈ c.accepted, z.streamID = y.streamID → z.counterEpoch = y.counterEpoch →
      z ∈ c.accepted.filter fun z => z.streamID = y.streamID && z.counterEpoch = y.counterEpoch :=
    fun z hz hs he => List.mem_filter.mpr ⟨hz, by simp [hs, he]⟩
  have hsymm : Std.Symm fun x y : TrafficLedgerReportItem =>
      x.toBytes ≤ y.fromBytes ∨ y.toBytes ≤ x.fromBytes := ⟨fun _ _ h => h.symm⟩
  by_cases heq : x = y
  · exact Or.inl heq
  · have hapart : (c.accepted.filter fun z => z.streamID = y.streamID &&
        z.counterEpoch = y.counterEpoch).Pairwise fun x y =>
          x.toBytes ≤ y.fromBytes ∨ y.toBytes ≤ x.fromBytes := hpair.imp fun hle => Or.inr hle
    exact Or.inr (hapart.forall (hmem x hx hsid hepoch) (hmem y hy rfl rfl) heq)

theorem Tiled.continues (h : c.Tiled)
    (hx : x ∈ c.accepted) : x.fromBytes = 0 ∨ ∃ y ∈ c.accepted, y.streamID = x.streamID ∧
      y.counterEpoch = x.counterEpoch ∧ y.toBytes = x.fromBytes := by
  refine ((h _ _).lo_cases _ (mem_spans hx)).imp_right ?_
  rintro ⟨t, ht, hhi⟩
  obtain ⟨y, hy, hsid, hepoch, -, hto⟩ := exists_of_mem_spans ht
  exact ⟨y, hy, hsid, hepoch, hto.trans hhi⟩

theorem checkpoint_cases (c : Controller) (streamID epoch : String) :
    c.checkpoint streamID epoch = 0 ∨ ∃ y ∈ c.accepted, y.streamID = streamID ∧
      y.counterEpoch = epoch ∧ y.toBytes = c.checkpoint streamID epoch := by
  refine (Span.tip_mem 0 (c.spans streamID epoch)).imp_right ?_
  rintro ⟨t, ht, hhi⟩
  obtain ⟨y, hy, hsid, hepoch, -, hto⟩ := exists_of_mem_spans ht
  exact ⟨y, hy, hsid, hepoch, hto.trans hhi⟩

theorem Tiled.accept (h : c.Tiled) (hx : c.Accepts x) : (c.accept x).Tiled := by
  intro streamID epoch
  rw [spans_accept]
  split
  · rename_i hsame
    obtain ⟨rfl, rfl⟩ := hsame
    exact ⟨hx.2.1, hx.2.2.1, h _ _⟩
  · exact h _ _

end Controller

/-! ## The world -/

structure World where
  agent : Agent
  controller : Controller := {}
  created : List TrafficPendingRange := []
  sent : List TrafficLedgerReportItem := []
  responses : List TrafficReportResponse := []
  shown : List TrafficSnapshotItem := []

inductive WorldEvent where
  /-- A step of the agent; a response is one that was given. -/
  | agent (ev : AgentEvent)
  | send (order : List String)
  | accept (x : TrafficLedgerReportItem)
  | adopt (streamID epoch : String)
  | give (resp : TrafficReportResponse)

namespace World

def shownBy : AgentEvent → List TrafficSnapshotItem
  | .observe _ _ item => if itemCounts item then [item] else []
  | _ => []

def step (r : Runner) (w : World) : WorldEvent → World
  | .agent ev =>
    { w with
      agent := w.agent.step r ev
      created := w.created ++ w.agent.queuedBy r ev
      shown := shownBy ev ++ w.shown }
  | .send order =>
    { w with sent := w.sent ++ trafficLedgerReportBatch w.agent.memory.pendingReports order }
  | .accept x => { w with controller := w.controller.accept x }
  | .adopt streamID epoch =>
    { w with controller :=
      { w.controller with epochs := w.controller.epochs.insert streamID epoch } }
  | .give resp => { w with responses := resp :: w.responses }

/-- An answer that tells what the Controller has accepted. An acknowledgement is one of an
accepted report, or of one whose bytes were accepted otherwise; a refusal comes with the
checkpoint of the epoch it names. -/
def HonestAnswer (w : World) (a : TrafficAcceptedReport) : Prop :=
  ∃ x ∈ w.sent, x.reportID = a.reportID ∧ x.streamID = a.streamID ∧
    (a.status.acknowledges = true → a.counterEpoch = x.counterEpoch ∧
      ((x ∈ w.controller.accepted ∧ (a.accepted = 0 ∨ a.accepted = x.toBytes ∨
        a.accepted = w.controller.checkpoint x.streamID x.counterEpoch)) ∨
       (a.status = .covered ∧ x.toBytes ≤ a.accepted ∧ a.accepted ≠ 0 ∧
        a.accepted = w.controller.checkpoint x.streamID x.counterEpoch))) ∧
    (a.status.refuses = true → a.status ≠ .rejected →
      a.accepted = w.controller.checkpoint a.streamID a.counterEpoch)

def HonestCheckpoint (w : World) (c : TrafficStreamCheckpoint) : Prop :=
  (c.counterEpoch = "" → c.accepted = 0) ∧
    (c.counterEpoch ≠ "" → c.accepted = w.controller.checkpoint c.streamID c.counterEpoch)

def Honest (w : World) (resp : TrafficReportResponse) : Prop :=
  (∀ a ∈ resp.acceptedReports, w.HonestAnswer a) ∧
    ∀ c ∈ resp.streamCheckpoints, w.HonestCheckpoint c

instance (w : World) (a : TrafficAcceptedReport) : Decidable (w.HonestAnswer a) :=
  inferInstanceAs (Decidable (∃ x ∈ w.sent, _ ∧ _ ∧ (_ → _) ∧ (_ → _ → _)))

instance (w : World) (c : TrafficStreamCheckpoint) : Decidable (w.HonestCheckpoint c) :=
  inferInstanceAs (Decidable (_ ∧ _))

instance (w : World) (resp : TrafficReportResponse) : Decidable (w.Honest resp) :=
  inferInstanceAs (Decidable (_ ∧ _))

/-- What the world lets happen: the Controller is honest, and a response that is delivered was
given. -/
def Legal (w : World) : WorldEvent → Prop
  | .agent (.respond _ resp) => resp ∈ w.responses
  | .accept x => x ∈ w.sent ∧ w.controller.Accepts x
  | .give resp => w.Honest resp
  | _ => True

instance (w : World) : ∀ ev, Decidable (w.Legal ev)
  | .agent (.respond _ _) => inferInstanceAs (Decidable (_ ∈ _))
  | .accept _ => inferInstanceAs (Decidable (_ ∧ _))
  | .give _ => inferInstanceAs (Decidable (w.Honest _))
  | .send _ | .adopt _ _ | .agent (.observe _ _ _) | .agent .convert | .agent (.prune _)
  | .agent (.fail _) | .agent (.save _) | .agent .restart => .isTrue trivial

/-- No two reports of the run share an id and are of different bytes: the digest of the report
ids has not collided. -/
def Distinct (w : World) : Prop :=
  ∀ x ∈ w.created.map TrafficPendingRange.wire ++ w.controller.accepted,
    ∀ y ∈ w.created.map TrafficPendingRange.wire ++ w.controller.accepted,
      x.reportID = y.reportID → x.SameRange y

instance (w : World) : Decidable w.Distinct :=
  inferInstanceAs (Decidable (∀ x ∈ _, ∀ y ∈ _, _ → _))

end World

end OboardAgent.Traffic
