import OboardAgent.Lib.Run
import OboardAgent.Lib.Rfc3339
import OboardAgent.Lib.GoStrings
import Mathlib.Algebra.BigOperators.Group.List.Basic
import Mathlib.Data.Int.Basic

/-!
# Presence on its way to the Controller

Once a second the agent polls for presence events, its own and those of the kernel, and sends them
over the connection to the Controller (`internal/agent/presence.go`). Each event gets a number. A
poll is written as messages of at most 500 events; what a failed write leaves over waits in a buffer
of at most 4096 events, for the next poll to send before its own. Events are dropped when they are
too old and when the buffer overflows, and the number of dropped events is sent along.

Nothing ever changes places: the events that were sent, that wait, and that come with a poll are
always one list in the order of their numbers, and a step cuts it at another point or takes events
out. What was drained is read off the polls (`drainedBy`), not off the sender.

Auditing is enabled, and there is one poll at a time. Numbers are not bounded here: the clock that
they are made from reads between 1970 and 2262, so that they do not wrap. What the kernel answers,
if it does, is part of the step; so is the outcome of each write.
-/

namespace OboardAgent.Presence

open GoStrings (trimSpace toLower)

def connectionPresenceDeltaBatchSize : Nat := 500
def maxPendingPresenceEvents : Nat := 4096
def connectionPresenceEventMaxAge : Int := 300000000000

/-- `connectionPresenceEvent`; its `At` is `time` here. -/
structure ConnectionPresenceEvent where
  sequence : Nat := 0
  userID : Int
  inboundID : Int
  pathID : Int
  deviceIDHash : String
  credentialEpoch : Int
  serverID : Int := 0
  sourceIP : String
  network : String
  event : String
  state : String
  activeConnections : Int
  meaningful : Bool
  payloadLastAt : String
  time : String
  deriving DecidableEq, Repr

@[ext] structure ConnectionPresenceDelta where
  events : List ConnectionPresenceEvent
  droppedCount : Int
  deriving DecidableEq, Repr

def fromCore (item : ConnectionPresenceEvent) : ConnectionPresenceEvent :=
  { item with
    sequence := 0
    serverID := 0
    deviceIDHash := trimSpace item.deviceIDHash
    sourceIP := trimSpace item.sourceIP
    network := toLower (trimSpace item.network) }

/-- A poll: what it drains, what its clocks read, and which of its writes succeed. -/
structure Poll where
  drained : ConnectionPresenceDelta
  core : Option ConnectionPresenceDelta
  serverID : Int
  /-- The clock at each number. -/
  readings : List Nat
  now : Int
  writes : List Bool

/-- The events of a poll, those of the agent before those of the kernel. -/
def Poll.events (p : Poll) : List ConnectionPresenceEvent :=
  p.drained.events ++ p.core.elim [] fun d => d.events.map fromCore

/-- How many events were dropped before they could be drained, as the poll is told. -/
def Poll.dropped (p : Poll) : Int := p.drained.droppedCount + p.core.elim 0 (·.droppedCount)

structure Write where
  message : ConnectionPresenceDelta
  ok : Bool

def written (ws : List Write) : List ConnectionPresenceDelta := (ws.filter (·.ok)).map (·.message)

/-- The events of messages, and the number of dropped events that they tell. -/
def eventsOf (ms : List ConnectionPresenceDelta) : List ConnectionPresenceEvent :=
  ms.flatMap (·.events)

def droppedOf (ms : List ConnectionPresenceDelta) : Int := (ms.map (·.droppedCount)).sum

/-- The sender, with the events it has dropped and the messages it has written. -/
structure Sender where
  presenceSequence : Nat := 0
  pendingEvents : List ConnectionPresenceEvent := []
  pendingDropped : Int := 0
  lost : List ConnectionPresenceEvent := []
  writes : List Write := []

def nextConnectionPresenceSequence (current reading : Nat) : Nat :=
  if reading ≤ current then current + 1 else reading

def number (serverID : Int) :
    Nat → List Nat → List ConnectionPresenceEvent → List ConnectionPresenceEvent × Nat
  | current, _, [] => ([], current)
  | current, readings, e :: es =>
    let next := nextConnectionPresenceSequence current (readings.headD 0)
    let x := number serverID next readings.tail es
    ({ e with sequence := next, serverID := serverID } :: x.1, x.2)

def isExpired (now : Int) (e : ConnectionPresenceEvent) : Bool :=
  match Rfc3339.parse (trimSpace e.time) with
  | none => true
  | some time => connectionPresenceEventMaxAge < now - time

/-- `sendConnectionPresenceDelta`: its writes, and what a failed one leaves over. -/
def send (events : List ConnectionPresenceEvent) (dropped : Int) (writes : List Bool) :
    List Write × Option ConnectionPresenceDelta :=
  let batch := ⟨events.take connectionPresenceDeltaBatchSize, dropped⟩
  if writes.headD true then
    let rest := events.drop connectionPresenceDeltaBatchSize
    if _h : rest = [] then ([⟨batch, true⟩], none)
    else
      let x := send rest 0 writes.tail
      (⟨batch, true⟩ :: x.1, x.2)
  else ([⟨batch, false⟩], some ⟨events, dropped⟩)
termination_by events.length
decreasing_by
  have hlt := List.length_pos_of_ne_nil _h
  rw [List.length_drop] at hlt ⊢
  unfold connectionPresenceDeltaBatchSize at hlt ⊢
  omega

namespace Sender

def requeue (s : Sender) (events : List ConnectionPresenceEvent) (dropped : Int) : Sender :=
  if events = [] ∧ dropped = 0 then s
  else
    let merged := events ++ s.pendingEvents
    let overflow := merged.length - maxPendingPresenceEvents
    { s with
      pendingEvents := merged.drop overflow
      pendingDropped := s.pendingDropped + dropped + overflow
      lost := s.lost ++ merged.take overflow }

def collect (s : Sender) (p : Poll) : Sender × ConnectionPresenceDelta :=
  let numbered := number p.serverID s.presenceSequence p.readings p.events
  let events := s.pendingEvents ++ numbered.1
  let expired := events.filter (isExpired p.now)
  ({ s with
      presenceSequence := numbered.2
      pendingEvents := []
      pendingDropped := 0
      lost := s.lost ++ expired },
    ⟨events.filter fun e => !isExpired p.now e, p.dropped + s.pendingDropped + expired.length⟩)

/-- One turn of the loop: a poll, and its messages if there is anything to send. -/
def step (s : Sender) (p : Poll) : Sender :=
  let x := s.collect p
  if x.2.events = [] ∧ x.2.droppedCount = 0 then x.1
  else
    let y := send x.2.events x.2.droppedCount p.writes
    let s := { x.1 with writes := x.1.writes ++ y.1 }
    match y.2 with
    | none => s
    | some rest => s.requeue rest.events rest.droppedCount

def delivered (s : Sender) : List ConnectionPresenceDelta := written s.writes

end Sender

/-- What polls drain, one after the other, with the numbers it gets. -/
def drainedBy : Nat → List Poll → List ConnectionPresenceEvent
  | _, [] => []
  | current, p :: ps =>
    let numbered := number p.serverID current p.readings p.events
    numbered.1 ++ drainedBy numbered.2 ps

/-! ## Numbers -/

def InOrder (events : List ConnectionPresenceEvent) : Prop :=
  events.Pairwise fun a b => a.sequence < b.sequence

theorem InOrder.sublist {as bs : List ConnectionPresenceEvent} (h : InOrder bs)
    (hs : as.Sublist bs) : InOrder as := List.Pairwise.sublist hs h

theorem lt_nextConnectionPresenceSequence (current reading : Nat) :
    current < nextConnectionPresenceSequence current reading := by
  unfold nextConnectionPresenceSequence
  split_ifs <;> omega

theorem number_bounds (serverID : Int) (events : List ConnectionPresenceEvent) (current : Nat)
    (readings : List Nat) :
    current ≤ (number serverID current readings events).2 ∧
      ∀ e ∈ (number serverID current readings events).1,
        current < e.sequence ∧ e.sequence ≤ (number serverID current readings events).2 := by
  induction events generalizing current readings with
  | nil => exact ⟨Nat.le_refl _, fun e he => absurd he List.not_mem_nil⟩
  | cons e es ih =>
    have hlt := lt_nextConnectionPresenceSequence current (readings.headD 0)
    obtain ⟨hle, hes⟩ :=
      ih (nextConnectionPresenceSequence current (readings.headD 0)) readings.tail
    exact ⟨Nat.le_trans (Nat.le_of_lt hlt) hle, List.forall_mem_cons.mpr
      ⟨⟨hlt, hle⟩, fun x hx => ⟨Nat.lt_trans hlt (hes x hx).1, (hes x hx).2⟩⟩⟩

theorem inOrder_number (serverID : Int) (events : List ConnectionPresenceEvent) (current : Nat)
    (readings : List Nat) : InOrder (number serverID current readings events).1 := by
  induction events generalizing current readings with
  | nil => exact List.Pairwise.nil
  | cons e es ih =>
    refine List.pairwise_cons.mpr ⟨fun x hx => ?_, ih _ _⟩
    exact ((number_bounds serverID es _ readings.tail).2 x hx).1

theorem InOrder.append {as bs : List ConnectionPresenceEvent} {n : Nat} (ha : InOrder as)
    (hb : InOrder bs) (hle : ∀ a ∈ as, a.sequence ≤ n) (hlt : ∀ b ∈ bs, n < b.sequence) :
    InOrder (as ++ bs) :=
  List.pairwise_append.mpr ⟨ha, hb, fun a hma b hmb => Nat.lt_of_le_of_lt (hle a hma) (hlt b hmb)⟩

/-! ## Messages -/

theorem written_append (as bs : List Write) : written (as ++ bs) = written as ++ written bs := by
  simp [written]

theorem eventsOf_append (as bs : List ConnectionPresenceDelta) :
    eventsOf (as ++ bs) = eventsOf as ++ eventsOf bs := by
  simp [eventsOf]

theorem droppedOf_append (as bs : List ConnectionPresenceDelta) :
    droppedOf (as ++ bs) = droppedOf as + droppedOf bs := by
  simp [droppedOf]

theorem written_cons_ok (m : ConnectionPresenceDelta) (ws : List Write) :
    written (⟨m, true⟩ :: ws) = [m] ++ written ws := by
  simp [written]

/-- Nothing to send. -/
def ConnectionPresenceDelta.none : ConnectionPresenceDelta := ⟨[], 0⟩

theorem send_conserves (events : List ConnectionPresenceEvent) (dropped : Int) (writes : List Bool) :
    let sent := send events dropped writes
    eventsOf (written sent.1) ++ (sent.2.getD .none).events = events ∧
      droppedOf (written sent.1) + (sent.2.getD .none).droppedCount = dropped := by
  intro sent
  unfold sent
  fun_induction send events dropped writes with
  | case1 events dropped writes batch hok rest hrest =>
    have hall : events.take connectionPresenceDeltaBatchSize = events := by
      conv_rhs => rw [← List.take_append_drop connectionPresenceDeltaBatchSize events]
      rw [show events.drop connectionPresenceDeltaBatchSize = [] from hrest, List.append_nil]
    simp [written, eventsOf, droppedOf, batch, hall, ConnectionPresenceDelta.none]
  | case2 events dropped writes batch hok rest hrest x ih =>
    obtain ⟨hevents, hdropped⟩ := ih
    rw [written_cons_ok, eventsOf_append, droppedOf_append, List.append_assoc, hevents]
    refine ⟨?_, ?_⟩
    · simp [eventsOf, batch, rest]
    · rw [show droppedOf [batch] = dropped from Int.add_zero _, Int.add_assoc, hdropped, Int.add_zero]
  | case3 events dropped writes batch hok => simp [written, eventsOf, droppedOf]

theorem send_batches (events : List ConnectionPresenceEvent) (dropped : Int) (writes : List Bool) :
    ∀ w ∈ (send events dropped writes).1, w.message.events.length ≤ connectionPresenceDeltaBatchSize := by
  fun_induction send events dropped writes with
  | case1 events dropped writes batch hok rest hrest =>
    exact List.forall_mem_singleton.mpr (List.length_take_le _ _)
  | case2 events dropped writes batch hok rest hrest x ih =>
    exact List.forall_mem_cons.mpr ⟨List.length_take_le _ _, ih⟩
  | case3 events dropped writes batch hok =>
    exact List.forall_mem_singleton.mpr (List.length_take_le _ _)

/-! ## What is sent, what waits, what comes -/

namespace Sender

/-- What the sender and the `hand` between its steps hold, when the events `drained` have come and
`before` events were dropped before they could. -/
structure Holding (drained : List ConnectionPresenceEvent) (before : Int) (s : Sender)
    (hand : ConnectionPresenceDelta) : Prop where
  order : InOrder (eventsOf s.delivered ++ (hand.events ++ s.pendingEvents))
  drainedOrder : InOrder drained
  numbers : ∀ e ∈ drained, e.sequence ≤ s.presenceSequence
  conserved : (eventsOf s.delivered ++ (hand.events ++ s.pendingEvents) ++ s.lost).Perm drained
  counted : droppedOf s.delivered + (hand.droppedCount + s.pendingDropped) = before + s.lost.length
  batches : ∀ w ∈ s.writes, w.message.events.length ≤ connectionPresenceDeltaBatchSize
  buffer : s.pendingEvents.length ≤ maxPendingPresenceEvents

theorem holding_init : Holding [] 0 {} .none where
  order := List.Pairwise.nil
  drainedOrder := List.Pairwise.nil
  numbers := by simp
  conserved := by simp [delivered, written, eventsOf, ConnectionPresenceDelta.none]
  counted := by simp [delivered, written, droppedOf, ConnectionPresenceDelta.none]
  batches := by simp
  buffer := by simp

variable {s : Sender} {hand : ConnectionPresenceDelta} {drained : List ConnectionPresenceEvent}
  {before : Int}

theorem Holding.numbered (h : Holding drained before s hand) {e : ConnectionPresenceEvent}
    (he : e ∈ eventsOf s.delivered ++ (hand.events ++ s.pendingEvents)) :
    e.sequence ≤ s.presenceSequence :=
  h.numbers e (h.conserved.subset (List.mem_append_left _ he))

theorem filter_perm (q : ConnectionPresenceEvent → Bool) (es : List ConnectionPresenceEvent) :
    (es.filter (fun e => !q e) ++ es.filter q).Perm es :=
  List.perm_append_comm.trans (List.filter_append_perm q es)

/-- A poll adds its events, with their numbers, to those that have come. -/
theorem Holding.collect (h : Holding drained before s .none) (p : Poll) :
    Holding (drained ++ (number p.serverID s.presenceSequence p.readings p.events).1)
      (before + p.dropped) (s.collect p).1 (s.collect p).2 := by
  let fresh := (number p.serverID s.presenceSequence p.readings p.events).1
  obtain ⟨hle, hfresh⟩ := number_bounds p.serverID p.events s.presenceSequence p.readings
  have hall : InOrder (eventsOf s.delivered ++ s.pendingEvents ++ fresh) :=
    h.order.append (inOrder_number _ _ _ _) (fun e he => h.numbered he) fun e he => (hfresh e he).1
  have hcounted := h.counted
  refine ⟨?_, ?_, ?_, ?_, ?_, h.batches, Nat.zero_le _⟩
  · refine hall.sublist ?_
    rw [List.append_assoc]
    refine List.Sublist.append (List.Sublist.refl _) ?_
    exact (List.append_nil _).symm ▸ List.filter_sublist
  · exact h.drainedOrder.append (inOrder_number _ _ _ _) h.numbers fun e he => (hfresh e he).1
  · exact List.forall_mem_append.mpr
      ⟨fun e he => Nat.le_trans (h.numbers e he) hle, fun e he => (hfresh e he).2⟩
  · have hkept := filter_perm (isExpired p.now) (s.pendingEvents ++ fresh)
    have hmoved : (eventsOf s.delivered ++ (s.lost ++ (s.pendingEvents ++ fresh))).Perm
        (drained ++ fresh) := by
      refine ((List.perm_append_comm_assoc s.lost s.pendingEvents fresh).append_left
        (eventsOf s.delivered)).trans ?_
      have hconserved := h.conserved.append_right fresh
      simp only [ConnectionPresenceDelta.none, List.nil_append, List.append_assoc] at hconserved
      exact hconserved
    refine List.Perm.trans ?_ hmoved
    refine List.Perm.trans ?_ ((hkept.append_left s.lost).append_left (eventsOf s.delivered))
    simp only [Sender.collect, List.append_nil, List.append_assoc]
    exact (List.perm_append_comm_assoc _ s.lost _).append_left _
  · simp only [Sender.collect, delivered, ConnectionPresenceDelta.none, List.length_append,
      Nat.cast_add] at hcounted ⊢
    omega

theorem Holding.send (h : Holding drained before s hand) (writes : List Bool) :
    let sent := Presence.send hand.events hand.droppedCount writes
    Holding drained before { s with writes := s.writes ++ sent.1 } (sent.2.getD .none) := by
  intro sent
  obtain ⟨hevents, hdropped⟩ := send_conserves hand.events hand.droppedCount writes
  have hdelivered : ({ s with writes := s.writes ++ sent.1 } : Sender).delivered =
      s.delivered ++ written sent.1 := written_append _ _
  have hline : eventsOf (s.delivered ++ written sent.1) ++
      ((sent.2.getD .none).events ++ s.pendingEvents) =
      eventsOf s.delivered ++ (hand.events ++ s.pendingEvents) := by
    conv_rhs => rw [← hevents]
    rw [eventsOf_append]
    simp only [List.append_assoc, sent]
  have hcounted := h.counted
  refine ⟨?_, h.drainedOrder, h.numbers, ?_, ?_, ?_, h.buffer⟩
  · rw [hdelivered, hline]
    exact h.order
  · rw [hdelivered, hline]
    exact h.conserved
  · rw [hdelivered, droppedOf_append]
    dsimp only [sent]
    omega
  · exact List.forall_mem_append.mpr ⟨h.batches, send_batches _ _ _⟩

theorem Holding.cut (h : Holding drained before s hand) (k : Nat)
    (hk : ((hand.events ++ s.pendingEvents).drop k).length ≤ maxPendingPresenceEvents) :
    Holding drained before
      { s with
        pendingEvents := (hand.events ++ s.pendingEvents).drop k
        pendingDropped := s.pendingDropped + hand.droppedCount +
          ((hand.events ++ s.pendingEvents).take k).length
        lost := s.lost ++ (hand.events ++ s.pendingEvents).take k } .none := by
  have hcounted := h.counted
  refine ⟨?_, h.drainedOrder, h.numbers, ?_, ?_, h.batches, hk⟩
  · exact h.order.sublist (List.Sublist.append (List.Sublist.refl _) (List.drop_sublist k _))
  · refine List.Perm.trans ?_ h.conserved
    conv_rhs => rw [← List.take_append_drop k (hand.events ++ s.pendingEvents)]
    simp only [ConnectionPresenceDelta.none, List.nil_append, List.append_assoc]
    refine List.Perm.append_left _ ?_
    rw [← List.append_assoc _ s.lost]
    exact List.perm_append_comm
  · simp only [delivered, ConnectionPresenceDelta.none, List.length_append, Nat.cast_add]
      at hcounted ⊢
    omega

theorem Holding.requeue (h : Holding drained before s hand) :
    Holding drained before (s.requeue hand.events hand.droppedCount) .none := by
  unfold Sender.requeue
  split_ifs with hnothing
  · rw [show hand = .none from ConnectionPresenceDelta.ext hnothing.1 hnothing.2] at h
    exact h
  · have hcut := h.cut ((hand.events ++ s.pendingEvents).length - maxPendingPresenceEvents)
      (by rw [List.length_drop]; omega)
    rw [List.length_take, Nat.min_eq_left (Nat.sub_le _ _)] at hcut
    exact hcut

theorem presenceSequence_step (s : Sender) (p : Poll) : (s.step p).presenceSequence =
    (number p.serverID s.presenceSequence p.readings p.events).2 := by
  have hrequeue : ∀ (s : Sender) events dropped,
      (s.requeue events dropped).presenceSequence = s.presenceSequence := by
    intro s events dropped
    unfold Sender.requeue
    split_ifs <;> rfl
  unfold Sender.step
  dsimp only
  split_ifs
  · rfl
  · split
    · rfl
    · exact hrequeue _ _ _

theorem Holding.step (h : Holding drained before s .none) (p : Poll) :
    Holding (drained ++ (number p.serverID s.presenceSequence p.readings p.events).1)
      (before + p.dropped) (s.step p) .none := by
  have hcollect := h.collect p
  unfold Sender.step
  dsimp only
  split_ifs with hnothing
  · rw [show (s.collect p).2 = .none from
      ConnectionPresenceDelta.ext hnothing.1 hnothing.2] at hcollect
    exact hcollect
  · have hsend := hcollect.send p.writes
    dsimp only at hsend
    cases hrest : (Presence.send (s.collect p).2.events (s.collect p).2.droppedCount p.writes).2 with
    | none =>
      rw [hrest] at hsend
      exact hsend
    | some rest =>
      rw [hrest] at hsend
      exact hsend.requeue

theorem Holding.exec {ps : List Poll} : ∀ {s : Sender} {drained : List ConnectionPresenceEvent}
    {before : Int}, Holding drained before s .none →
    Holding (drained ++ drainedBy s.presenceSequence ps) (before + (ps.map Poll.dropped).sum)
      (Run.exec Sender.step s ps) .none := by
  induction ps with
  | nil =>
    intro s drained before h
    simpa [drainedBy] using h
  | cons p ps ih =>
    intro s drained before h
    have hrest := ih (h.step p)
    rw [presenceSequence_step, List.append_assoc, Int.add_assoc] at hrest
    exact hrest

/-- **Presence is conserved.** In every run of polls: the events that the polls drained, with their
numbers, are those of the messages that were written, those in the buffer and those that were
dropped, and no two of these are the same; the dropped events, and those that the polls were told
were dropped before, are as many as the written messages and the buffer tell; messages and buffer
keep to their sizes; and the numbers of the written events grow. -/
theorem presence_is_conserved (ps : List Poll) :
    let s := Run.exec step {} ps
    (eventsOf s.delivered ++ s.pendingEvents ++ s.lost).Perm (drainedBy 0 ps) ∧
      (drainedBy 0 ps).Nodup ∧
      droppedOf s.delivered + s.pendingDropped = (ps.map Poll.dropped).sum + s.lost.length ∧
      (∀ w ∈ s.writes, w.message.events.length ≤ connectionPresenceDeltaBatchSize) ∧
      s.pendingEvents.length ≤ maxPendingPresenceEvents ∧
      (eventsOf s.delivered).Pairwise fun a b => a.sequence < b.sequence := by
  intro s
  have h : Holding ([] ++ drainedBy 0 ps) (0 + (ps.map Poll.dropped).sum) s .none :=
    holding_init.exec
  rw [List.nil_append, Int.zero_add] at h
  refine ⟨h.conserved, ?_, ?_, h.batches, h.buffer,
    h.order.sublist (List.sublist_append_left _ _)⟩
  · exact h.drainedOrder.imp fun hlt heq =>
      absurd (congrArg ConnectionPresenceEvent.sequence heq) (Nat.ne_of_lt hlt)
  · have hcounted := h.counted
    simp only [ConnectionPresenceDelta.none] at hcounted
    omega

end Sender

end OboardAgent.Presence
