import OboardAgent.Audit.Generations

/-!
# The presence of connections in the agent's SSH recorder

`internal/agent/connection_audit.go`, the second recorder of connections: for the SSH inbounds,
which the agent serves itself. It has the tables of the kernel, with its own keys (the presence key
has the inbound and the path too) and half the room. A session that finishes takes the lock twice,
for its bucket and for its presence, so these are two events. What a call loads before it takes the
lock is in `Loaded`.
-/

namespace OboardAgent.Audit

open Tally (Holder Edge held)

def maxAgentAuditBuckets : Nat := 2048
def maxAgentPresenceEvents : Nat := 2048
def agentPresenceRefreshInterval : Int := 30000000000

/-- `connectionAuditAccumulator`; a snapshot item and a bucket are one record here. -/
structure ConnectionAuditAccumulator where
  enabled : Bool := true
  collection : Option CollectionPolicy := none
  buckets : GoMap String ConnectionAuditBucket := ∅
  activeByIdentity : GoMap String Nat := ∅
  generation : Nat := 0
  dropped : Nat := 0
  presenceSeq : Nat := 0
  presenceStates : GoMap String ConnectionPresenceState := ∅
  presenceEvents : List ConnectionPresenceEvent := []
  presenceDropped : Nat := 0
  windowStart : Option Int := none

/-- `connectionAuditSession`, of a connection that is recorded. -/
structure ConnectionAuditSession where
  userID : Int
  key : String
  presenceKey : String
  started : Int
deriving DecidableEq, Repr

structure Loaded where
  enabled : Bool := true
  collection : Option CollectionPolicy := none

namespace ConnectionAuditAccumulator

variable (a : ConnectionAuditAccumulator)

/-! ## Switching -/

def swapEnabled (enabled : Bool) : ConnectionAuditAccumulator :=
  { a with enabled := enabled }

def openWindow (now : Int) : ConnectionAuditAccumulator :=
  { a with windowStart := some now, dropped := 0 }

def dropTables : ConnectionAuditAccumulator :=
  { a with
    buckets := ∅, activeByIdentity := ∅, presenceStates := ∅, presenceEvents := []
    presenceDropped := 0
    generation := a.generation + 1
    dropped := 0
    windowStart := none }

def setEnabled (enabled : Bool) (now : Int) : ConnectionAuditAccumulator :=
  if enabled then
    if a.enabled then a.swapEnabled true else (a.swapEnabled true).openWindow now
  else (a.swapEnabled false).dropTables

def setCollectionPolicy (p : CollectionPolicy) : ConnectionAuditAccumulator :=
  { a with
    collection := some p
    buckets := ∅, activeByIdentity := ∅, presenceStates := ∅, presenceEvents := []
    generation := a.generation + 1 }

/-! ## Presence -/

def enqueuePresenceEvent (s : ConnectionPresenceState) (kind : PresenceKind) (time : Int) :
    ConnectionAuditAccumulator × ConnectionPresenceState :=
  let item := { s.event with event := some kind, time := some time }
  (if maxAgentPresenceEvents ≤ a.presenceEvents.length then
      { a with presenceDropped := a.presenceDropped + 1 }
    else { a with presenceEvents := a.presenceEvents ++ [item] },
    { event := item, lastEmittedAt := some time })

def announce (key : String) (s : ConnectionPresenceState) (kind : PresenceKind) (time : Int) :
    ConnectionAuditAccumulator :=
  let x := a.enqueuePresenceEvent s kind time
  { x.1 with presenceStates := x.1.presenceStates.insert key x.2 }

/-- The parts of `agentConnectionPresenceKey`. -/
def presenceKey (userID inboundID pathID : Int) (deviceIDHash : String) (credentialEpoch : Int)
    (sourceIP network : String) : String :=
  "\x00".intercalate [toString userID, toString inboundID, toString pathID,
    GoStrings.trimSpace deviceIDHash, toString credentialEpoch, GoStrings.trimSpace sourceIP,
    GoStrings.toLower (GoStrings.trimSpace network)]

variable (b : ConnectionAuditBucket) (loaded : Loaded) (item : ConnectionAuditBucket)

def agentConnectionPresenceKey : String :=
  presenceKey item.userID item.inboundID item.pathID item.deviceIDHash item.credentialEpoch
    item.sourceIP item.network

def presenceEvent (state : PresenceState) : ConnectionPresenceEvent :=
  { userID := item.userID, inboundID := item.inboundID, pathID := item.pathID
    deviceIDHash := item.deviceIDHash, credentialEpoch := item.credentialEpoch
    sourceIP := item.sourceIP, network := item.network, state := state }

/-! ## Sessions -/

/-- The item of a connection, with the name of its network. -/
def named : ConnectionAuditBucket :=
  let network := GoStrings.toLower (GoStrings.trimSpace item.network)
  { item with network := if network = "" then "tcp" else network }

def bucketKey (item : ConnectionAuditBucket) : String :=
  toString a.generation ++ "\x00" ++ "\x00".intercalate [toString item.userID, toString item.inboundID,
    toString item.pathID, item.deviceIDHash, item.sourceIP, item.network]

def bucketFor (item : ConnectionAuditBucket) (now : Int) :
    ConnectionAuditAccumulator × Option ConnectionAuditBucket :=
  let key := a.bucketKey item
  match a.buckets.lookup key with
  | some b => (a, some b)
  | none =>
    if GoMap.size a.buckets < maxAgentAuditBuckets then
      ({ a with presenceSeq := a.presenceSeq + 1 },
        some
          { item with
            startedAt := some now
            presenceSequence := a.presenceSeq + 1
            key := key
            activeIdentity :=
              connectionAuditActiveIdentity item.userID item.deviceIDHash item.sourceIP })
    else ({ a with dropped := a.dropped + 1 }, none)

/-- One session more in the bucket; `identityActive` are those of its identity. -/
def joined (identityActive : Nat) (now : Int) : ConnectionAuditBucket :=
  { b with
    connectionCount := b.connectionCount + 1
    active := b.active + 1
    activePeak := max b.activePeak identityActive
    endedAt := some now }

def startPresence (started : Int) : ConnectionAuditAccumulator :=
  let key := agentConnectionPresenceKey item
  let s := (a.presenceStates.lookup key).getD { event := presenceEvent item .active }
  let s := { s with event := { s.event with activeConnections := s.event.activeConnections + 1 } }
  if s.event.activeConnections = 1 then a.announce key s .firstAuthenticated started
  else { a with presenceStates := a.presenceStates.insert key s }

def startSession (clock : ConnectionAudit.StartClock) :
    ConnectionAuditAccumulator × Option ConnectionAuditSession :=
  if !loaded.enabled || item.userID ≤ 0 then (a, none)
  else if !allows loaded.collection item.userID clock.check || GoStrings.trimSpace item.sourceIP = "" then
    (a, none)
  else
    let item := named item
    if !a.enabled || !allows a.collection item.userID clock.recheck then (a, none)
    else
      let key := a.bucketKey item
      match a.bucketFor item clock.now with
      | (a, none) => (a, none)
      | (a, some b) =>
        let identityActive := (a.activeByIdentity.lookup b.activeIdentity).getD 0 + 1
        let a :=
          { a with
            activeByIdentity := a.activeByIdentity.insert b.activeIdentity identityActive
            buckets := a.buckets.insert key (joined b identityActive clock.now) }
        (a.startPresence item clock.now,
          some
            { userID := item.userID, key := key, presenceKey := agentConnectionPresenceKey item
              started := clock.now })

def moved (upload : Bool) (bytes : Nat) (now : Int) : ConnectionAuditBucket :=
  { b with
    uploadBytes := if upload then b.uploadBytes + bytes else b.uploadBytes
    downloadBytes := if upload then b.downloadBytes else b.downloadBytes + bytes
    payloadFirstAt := b.payloadFirstAt.or (some now)
    payloadLastAt := some now
    endedAt := some now }

def trafficPresence (key : String) (now later : Int) : ConnectionAuditAccumulator :=
  match a.presenceStates.lookup key with
  | none => a
  | some s =>
    let s' := { s with event := { s.event with meaningful := true, payloadLastAt := some now } }
    if s.event.meaningful then { a with presenceStates := a.presenceStates.insert key s' }
    else a.announce key s' .firstMeaningfulPayload later

def addTraffic (s : ConnectionAuditSession) (upload : Bool) (bytes : Int)
    (check now later : Int) : ConnectionAuditAccumulator :=
  if bytes ≤ 0 || !allows loaded.collection s.userID check then a
  else
    let a :=
      match a.buckets.lookup s.key with
      | none => a
      | some b => { a with buckets := a.buckets.insert s.key (moved b upload bytes.toNat now) }
    a.trafficPresence s.presenceKey now later

def release (b : ConnectionAuditBucket) : GoMap String Nat :=
  if 0 < b.active then
    let active := (a.activeByIdentity.lookup b.activeIdentity).getD 0
    if 1 < active then a.activeByIdentity.insert b.activeIdentity (active - 1)
    else a.activeByIdentity.erase b.activeIdentity
  else a.activeByIdentity

def closed (started now : Int) : ConnectionAuditBucket :=
  let duration := durationMS started now
  let b :=
    { b with
      active := b.active - 1
      closedCount := b.closedCount + 1
      durationTotalMS := b.durationTotalMS + duration
      durationMaxMS := max b.durationMaxMS duration
      endedAt := some now }
  if duration ≤ 1000 then { b with durationLE1SCount := b.durationLE1SCount + 1 }
  else if duration ≤ 5000 then { b with durationLE5SCount := b.durationLE5SCount + 1 }
  else if duration ≤ 20000 then { b with durationLE20SCount := b.durationLE20SCount + 1 }
  else { b with durationGT20SCount := b.durationGT20SCount + 1 }

/-- `end`, the first half of `finish`. -/
def endBucket (key : String) (started now : Int) : ConnectionAuditAccumulator :=
  match a.buckets.lookup key with
  | none => a
  | some b =>
    { a with
      activeByIdentity := a.release b
      buckets := a.buckets.insert key (closed b started now) }

/-- `endPresence`, the second half of `finish`. -/
def endPresence (key : String) (later : Int) : ConnectionAuditAccumulator :=
  match a.presenceStates.lookup key with
  | none => a
  | some s =>
    let s := { s with event := { s.event with activeConnections := s.event.activeConnections - 1 } }
    if s.event.activeConnections = 0 then
      let s := { s with event := { s.event with state := .inactive } }
      let a := (a.enqueuePresenceEvent s .lastConnectionClosed later).1
      { a with presenceStates := a.presenceStates.erase key }
    else { a with presenceStates := a.presenceStates.insert key s }

def recordCredentialRejected (check now : Int) : ConnectionAuditAccumulator :=
  if !loaded.enabled || item.userID ≤ 0 || GoStrings.trimSpace item.sourceIP = "" ||
      !allows loaded.collection item.userID check then a
  else
    let item := { item with network := if item.network = "" then "tcp" else item.network }
    (a.enqueuePresenceEvent { event := presenceEvent item .rejected } .credentialRejected now).1

/-! ## Drains -/

def drainPresenceEvents (now : Int) :
    ConnectionAuditAccumulator × List ConnectionPresenceEvent × Nat :=
  if !loaded.enabled then (a, [], 0)
  else
    let a := a.presenceStates.entries.foldl (fun a e =>
      if 0 < e.2.event.activeConnections ∧
          e.2.lastEmittedAt.elim true (fun t => agentPresenceRefreshInterval ≤ now - t) then
        a.announce e.1 e.2 .activityRefresh now
      else a) a
    ({ a with presenceEvents := [], presenceDropped := 0 }, a.presenceEvents, a.presenceDropped)

def drainBody (now : Int) (s : ConnectionAudit.DrainLoop)
    (b : ConnectionAuditBucket) : ConnectionAudit.DrainLoop × Option ConnectionAuditBucket :=
  let items := if 0 < b.connectionCount ∨ 0 < b.active then
      s.items ++ [{ b with
        activeAtEnd := b.active, active := 0, key := "", endedAt := b.endedAt.or (some now) }]
    else s.items
  if b.active = 0 then ({ s with items := items }, none)
  else
    ({ items := items, sequence := s.sequence + 1 },
      some (ConnectionAudit.nextWindow b (s.sequence + 1)
        ((a.activeByIdentity.lookup b.activeIdentity).getD 0) now))

/-- `drain`; what the source writes into every item is said once. -/
def drain (now : Int) : ConnectionAuditAccumulator × ConnectionAudit.ConnectionAuditDrain :=
  if !loaded.enabled then (a, { bucketCapacity := maxAgentAuditBuckets })
  else
    let x := GoMap.range (fun s _ b => a.drainBody now s b) { sequence := a.presenceSeq } a.buckets
    ({ a with
        buckets := x.2
        presenceSeq := x.1.sequence
        dropped := 0
        windowStart := some now },
      { items := x.1.items
        collectionGeneration := a.generation
        bucketCapacity := maxAgentAuditBuckets
        droppedBucketCount := a.dropped
        collectionStartedAt := some (a.windowStart.getD now)
        collectionEndedAt := some now })

/-! ## What the calls do to the tables -/

/-- The key of the state that an event is about. -/
def presenceKeyOf (e : ConnectionPresenceEvent) : String :=
  presenceKey e.userID e.inboundID e.pathID e.deviceIDHash e.credentialEpoch e.sourceIP e.network

theorem stable_presenceKeyOf : Stable presenceKeyOf := fun _ _ _ _ _ _ _ _ => rfl

def tables : Tables := ⟨a.presenceStates, a.presenceEvents⟩

def Told (t : Tables) (a' : ConnectionAuditAccumulator) : Prop :=
  ∃ dropped, a' =
    { a with presenceStates := t.states, presenceEvents := t.events, presenceDropped := dropped }

theorem told_enqueuePresenceEvent (s : ConnectionPresenceState) (kind : PresenceKind) (time : Int) :
    a.Told (a.tables.say maxAgentPresenceEvents (stamped s kind time id).event)
      (a.enqueuePresenceEvent s kind time).1 := by
  unfold enqueuePresenceEvent Tables.say enqueued
  by_cases hfull : maxAgentPresenceEvents ≤ a.tables.events.length
  · rw [if_pos hfull]
    exact ⟨_, if_pos hfull⟩
  · rw [if_neg hfull]
    exact ⟨_, if_neg hfull⟩

theorem told_announce (k : String) (s : ConnectionPresenceState) (kind : PresenceKind) (time : Int) :
    a.Told (a.tables.announce maxAgentPresenceEvents k (stamped s kind time id))
      (a.announce k s kind time) := by
  obtain ⟨dropped, h⟩ := a.told_enqueuePresenceEvent s kind time
  unfold announce
  dsimp only
  rw [h]
  exact ⟨dropped, rfl⟩

theorem told_startPresence (started : Int) :
    a.Told (a.tables.join maxAgentPresenceEvents (agentConnectionPresenceKey item) id
      (presenceEvent item .active) started) (a.startPresence item started) := by
  unfold startPresence Tables.join
  dsimp only [Audit.joined, tables]
  split
  · exact a.told_announce ..
  · exact ⟨_, rfl⟩

theorem told_trafficPresence (k : String) (now later : Int) :
    a.Told (a.tables.touch maxAgentPresenceEvents k id now later) (a.trafficPresence k now later) := by
  unfold trafficPresence Tables.touch
  dsimp only [tables]
  cases a.presenceStates.lookup k with
  | none => exact ⟨_, rfl⟩
  | some s =>
    dsimp only
    split
    · exact ⟨_, rfl⟩
    · exact a.told_announce ..

theorem told_endPresence (k : String) (later : Int) :
    a.Told (a.tables.leave maxAgentPresenceEvents k id later) (a.endPresence k later) := by
  unfold endPresence Tables.leave
  dsimp only [tables]
  cases a.presenceStates.lookup k with
  | none => exact ⟨_, rfl⟩
  | some s =>
    dsimp only
    split
    · obtain ⟨dropped, hsaid⟩ := a.told_enqueuePresenceEvent _ .lastConnectionClosed later
      rw [hsaid]
      exact ⟨dropped, rfl⟩
    · exact ⟨_, rfl⟩

def view (delivered : List ConnectionPresenceEvent) (holders : List (Holder String)) : View :=
  ⟨a.presenceStates, delivered ++ a.presenceEvents, holders, a.generation⟩

def SameBuckets (a a' : ConnectionAuditAccumulator) : Prop :=
  a'.buckets = a.buckets ∧ a'.generation = a.generation

variable {a} {t : Tables} {a' : ConnectionAuditAccumulator}

theorem Told.sameBuckets (h : a.Told t a') : SameBuckets a a' := by
  obtain ⟨_, rfl⟩ := h
  exact ⟨rfl, rfl⟩

theorem Told.tables_eq (h : a.Told t a') : a'.tables = t := by
  obtain ⟨_, rfl⟩ := h
  rfl

theorem shows_view (delivered : List ConnectionPresenceEvent) (holders : List (Holder String))
    (h : a.tables = t) : Shows delivered t (a.view delivered holders) := by
  subst h
  exact ⟨rfl, rfl⟩

theorem endPresence_eq_self {k : String} (hnone : a.presenceStates.lookup k = none) (later : Int) :
    a.endPresence k later = a := by
  rw [endPresence, hnone]

variable {delivered : List ConnectionPresenceEvent} {holders : List (Holder String)}

theorem recordCredentialRejected_cases
    (check now : Int) : a.recordCredentialRejected loaded item check now = a ∨
      ∃ s, a.Told (a.tables.say maxAgentPresenceEvents (stamped s .credentialRejected now id).event)
        (a.recordCredentialRejected loaded item check now) := by
  unfold recordCredentialRejected
  split
  · exact Or.inl rfl
  · exact Or.inr ⟨_, a.told_enqueuePresenceEvent ..⟩

theorem sameBuckets_drainPresenceEvents (now : Int) :
    SameBuckets a (a.drainPresenceEvents loaded now).1 := by
  unfold drainPresenceEvents
  split
  · exact ⟨rfl, rfl⟩
  · refine List.foldlRecOn (motive := fun a' => SameBuckets a a') _ _ ⟨rfl, rfl⟩ fun a' h e _ => ?_
    split
    · have h' := (a'.told_announce e.1 e.2 .activityRefresh now).sameBuckets
      exact ⟨h'.1.trans h.1, h'.2.trans h.2⟩
    · exact h

theorem quiet_drainPresenceEvents (hkeyed : Keyed presenceKeyOf a.presenceStates) (loaded : Loaded)
    (now : Int) : Quiet presenceKeyOf (a.view delivered holders)
      ((a.drainPresenceEvents loaded now).1.view
        (delivered ++ (a.drainPresenceEvents loaded now).2.1) holders) := by
  unfold drainPresenceEvents
  split
  · exact Quiet.of_eq hkeyed rfl (by simp [view])
  · refine Tables.quiet_refresh tables maxAgentPresenceEvents now stable_presenceKeyOf hkeyed
      (fun a' e => ?_) (shows_view delivered holders rfl) ⟨rfl, rfl⟩
    split
    · exact Or.inr ⟨_, (a'.told_announce ..).tables_eq⟩
    · exact Or.inl rfl

theorem endBucket_frame (a : ConnectionAuditAccumulator) (key : String) (started now : Int) :
    (a.endBucket key started now).tables = a.tables ∧
      (a.endBucket key started now).generation = a.generation := by
  unfold endBucket
  split <;> exact ⟨rfl, rfl⟩

theorem startSession_cases (clock : ConnectionAudit.StartClock) (a : ConnectionAuditAccumulator) :
    (∃ a', a.startSession loaded item clock = (a', none) ∧ a'.tables = a.tables ∧ SameBuckets a a') ∨
    ∃ (a₀ : ConnectionAuditAccumulator) (b : ConnectionAuditBucket),
      a.startSession loaded item clock
        = (a₀.startPresence (named item) clock.now,
            some ⟨(named item).userID, a.bucketKey (named item),
              agentConnectionPresenceKey (named item), clock.now⟩) ∧
      a₀.tables = a.tables ∧ a₀.generation = a.generation ∧
      a₀.buckets = a.buckets.insert (a.bucketKey (named item)) b := by
  unfold startSession
  split
  · exact Or.inl ⟨a, rfl, rfl, rfl, rfl⟩
  split
  · exact Or.inl ⟨a, rfl, rfl, rfl, rfl⟩
  dsimp only
  split
  · exact Or.inl ⟨a, rfl, rfl, rfl, rfl⟩
  have hfor : (a.bucketFor (named item) clock.now).1.tables = a.tables ∧
      SameBuckets a (a.bucketFor (named item) clock.now).1 := by
    unfold bucketFor
    dsimp only
    split
    · exact ⟨rfl, rfl, rfl⟩
    · split <;> exact ⟨rfl, rfl, rfl⟩
  rcases hb : a.bucketFor (named item) clock.now with ⟨a', _ | b⟩
  · rw [hb] at hfor
    exact Or.inl ⟨a', rfl, hfor⟩
  · rw [hb] at hfor
    obtain ⟨htables, hbuckets, hgeneration⟩ := hfor
    let identityActive := (a'.activeByIdentity.lookup b.activeIdentity).getD 0 + 1
    refine Or.inr ⟨{ a' with
        activeByIdentity := a'.activeByIdentity.insert b.activeIdentity identityActive
        buckets := a'.buckets.insert (a.bucketKey (named item))
          (joined b identityActive clock.now) },
      joined b identityActive clock.now, rfl, htables, hgeneration, ?_⟩
    exact congrArg (fun m : GoMap String ConnectionAuditBucket => m.insert _ _) hbuckets

theorem addTraffic_cases (s : ConnectionAuditSession) (upload : Bool)
    (bytes check now later : Int) (a : ConnectionAuditAccumulator) :
    a.addTraffic loaded s upload bytes check now later = a ∨
    ∃ buckets : GoMap String ConnectionAuditBucket,
      (∀ k b, buckets.lookup k = some b → ∃ b', a.buckets.lookup k = some b') ∧
      a.addTraffic loaded s upload bytes check now later
        = ({ a with buckets := buckets } : ConnectionAuditAccumulator).trafficPresence
            s.presenceKey now later := by
  unfold addTraffic
  split
  · exact Or.inl rfl
  · right
    dsimp only
    cases hb : a.buckets.lookup s.key with
    | none => exact ⟨a.buckets, fun _ b hb => ⟨b, hb⟩, rfl⟩
    | some b =>
      refine ⟨_, fun k b' hb' => ?_, rfl⟩
      rcases GoMap.lookup_of_insert hb' with ⟨rfl, -⟩ | hb'
      · exact ⟨b, hb⟩
      · exact ⟨b', hb'⟩

end ConnectionAuditAccumulator

end OboardAgent.Audit
