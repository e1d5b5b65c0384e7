import OboardAgent.Lib.GoRange
import OboardAgent.Quota.Period

/-!
# The connection audit of the kernel

`minibox/connection_audit.go`: connections are summed up in buckets, one for each state, source and
network. A connection start finds or makes its bucket and returns a handle; payload and the end of
the connection find the bucket by the handle's key. A drain hands over the buckets and starts a new
window: a bucket with connections that are still open stays, emptied, so that their end finds it,
and any other is deleted.

Times are nanoseconds, and none is the empty string or the zero time. Texts of times are only ever
parsed back, so the times stand for them. A handle is the record of the four parts that the source
joins with a byte which is in no UTF-8 text. A Go map has no order; only the presence numbers that a
drain hands out depend on the one taken here.
-/

namespace OboardAgent.Audit

open Quota (RuntimeUserLimit)

def maxConnectionAuditBuckets : Nat := 4096
def maxConnectionPresenceEvents : Nat := 4096
def connectionPresenceRefresh : Int := 30000000000

/-! ## Which users are collected -/

inductive Mode where
  | light
  | standard
  | diagnostic
deriving DecidableEq, Repr

structure CollectionPolicy where
  mode : Mode
  baseMode : Option Mode := none
  diagnosticUserIDs : List Int := []
  diagnosticUntil : Int := 0
deriving DecidableEq, Repr

/-- `Allows`; there may be no policy. -/
def allows (p : Option CollectionPolicy) (user now : Int) : Bool :=
  match p with
  | none => false
  | some p =>
    match p.mode with
    | .standard => true
    | .light => false
    | .diagnostic =>
      if p.diagnosticUntil ≤ now then p.baseMode = some .standard
      else p.diagnosticUserIDs = [] || user ∈ p.diagnosticUserIDs

/-! ## Buckets -/

structure ConnectionAuditBucket where
  userID : Int
  inboundID : Int
  pathID : Int
  deviceIDHash : String
  credentialEpoch : Int
  sourceIP : String
  sourceGeoCode : String
  network : String
  connectionCount : Nat := 0
  closedCount : Nat := 0
  durationTotalMS : Nat := 0
  durationMaxMS : Nat := 0
  uploadBytes : Nat := 0
  downloadBytes : Nat := 0
  payloadFirstAt : Option Int := none
  payloadLastAt : Option Int := none
  durationLE1SCount : Nat := 0
  durationLE5SCount : Nat := 0
  durationLE20SCount : Nat := 0
  durationGT20SCount : Nat := 0
  probeState : String := ""
  internalProbe : Bool := false
  presenceSequence : Nat := 0
  activePeak : Nat := 0
  activeAtEnd : Nat := 0
  startedAt : Option Int := none
  endedAt : Option Int := none
  active : Nat := 0
  key : String := ""
  activeIdentity : String := ""
deriving DecidableEq, Repr

variable (b : ConnectionAuditBucket)

/-- `advanceAuditEnd`: the window end moves forward, to the start and the last payload at least. -/
def advanceAuditEnd (now : Int) : ConnectionAuditBucket :=
  let ended := max (max (max now (b.endedAt.getD now)) (b.startedAt.getD now))
    (b.payloadLastAt.getD now)
  { b with endedAt := some ended }

/-- `normalizeAuditItemWindow`: the times of an item, moved into the window of the collection. -/
def normalizeAuditItemWindow (item : ConnectionAuditBucket) (collectionStarted collectionEnded : Int) :
    ConnectionAuditBucket :=
  let started := min (max (item.startedAt.getD collectionStarted) collectionStarted) collectionEnded
  let ended := max (item.endedAt.getD started) started
  match item.payloadFirstAt.or item.payloadLastAt, item.payloadLastAt.or item.payloadFirstAt with
  | some first, some last =>
    let first := max first started
    let last := min (max last first) collectionEnded
    let first := min first last
    let ended := min (max ended last) collectionEnded
    { item with
      payloadFirstAt := some first, payloadLastAt := some last
      startedAt := some (min started ended), endedAt := some ended }
  | _, _ =>
    let ended := min ended collectionEnded
    { item with startedAt := some (min started ended), endedAt := some ended }

def connectionAuditActiveIdentity (userID : Int) (deviceIDHash sourceIP : String) : String :=
  let deviceIDHash := GoStrings.trimSpace deviceIDHash
  if deviceIDHash ≠ "" then toString userID ++ "\x00device:" ++ deviceIDHash
  else toString userID ++ "\x00legacy:" ++ GoStrings.trimSpace sourceIP

/-- One connection more in the bucket; `identityActive` are those of its identity. -/
def ConnectionAuditBucket.opened (identityActive : Nat) (now : Int) : ConnectionAuditBucket :=
  advanceAuditEnd
    { b with
      connectionCount := b.connectionCount + 1
      active := b.active + 1
      activePeak := max b.activePeak identityActive } now

def ConnectionAuditBucket.moved (upload download : Nat) (now : Int) : ConnectionAuditBucket :=
  advanceAuditEnd
    { b with
      payloadFirstAt := b.payloadFirstAt.or (some now)
      payloadLastAt := some now
      uploadBytes := b.uploadBytes + upload
      downloadBytes := b.downloadBytes + download } now

def durationMS (started now : Int) : Nat := ((now - started) / 1000000).toNat

def ConnectionAuditBucket.closed (started now : Int) : ConnectionAuditBucket :=
  let b := { b with active := b.active - 1 }
  let b :=
    if 0 < started then
      let duration := durationMS started now
      let b :=
        { b with
          closedCount := b.closedCount + 1
          durationTotalMS := b.durationTotalMS + duration
          durationMaxMS := max b.durationMaxMS duration }
      if duration ≤ 1000 then { b with durationLE1SCount := b.durationLE1SCount + 1 }
      else if duration ≤ 5000 then { b with durationLE5SCount := b.durationLE5SCount + 1 }
      else if duration ≤ 20000 then { b with durationLE20SCount := b.durationLE20SCount + 1 }
      else { b with durationGT20SCount := b.durationGT20SCount + 1 }
    else b
  advanceAuditEnd b now

/-! ## Presence -/

inductive PresenceKind where
  | firstAuthenticated
  | credentialRejected
  | firstMeaningfulPayload
  | lastConnectionClosed
  | activityRefresh
deriving DecidableEq, Repr

inductive PresenceState where
  | active
  | rejected
  | inactive
deriving DecidableEq, Repr

/-- `ConnectionPresenceEvent`; its `At` is `time` here. -/
structure ConnectionPresenceEvent where
  sequence : Nat := 0
  userID : Int
  inboundID : Int
  pathID : Int
  deviceIDHash : String
  credentialEpoch : Int
  sourceIP : String
  network : String
  event : Option PresenceKind := none
  state : PresenceState
  activeConnections : Nat := 0
  meaningful : Bool := false
  payloadLastAt : Option Int := none
  time : Option Int := none
deriving DecidableEq, Repr

structure ConnectionPresenceState where
  event : ConnectionPresenceEvent
  lastEmittedAt : Option Int := none
deriving DecidableEq, Repr

def connectionPresenceKey (userID : Int) (deviceIDHash : String) (credentialEpoch : Int)
    (sourceIP network : String) : String :=
  "\x00".intercalate [toString userID, GoStrings.trimSpace deviceIDHash, toString credentialEpoch,
    GoStrings.trimSpace sourceIP, GoStrings.toLower (GoStrings.trimSpace network)]

/-- What the tracker holds of the audit. -/
structure ConnectionAudit where
  enabled : Bool := true
  diagnostics : Bool := true
  collection : Option CollectionPolicy := none
  buckets : GoMap String ConnectionAuditBucket := ∅
  activeByIdentity : GoMap String Nat := ∅
  generation : Nat := 0
  dropped : Nat := 0
  windowStart : Option Int := none
  presenceSequence : Nat := 0
  presenceStates : GoMap String ConnectionPresenceState := ∅
  presenceEvents : List ConnectionPresenceEvent := []
  presenceDropped : Nat := 0

structure Handle where
  key : String
  started : Int
  presenceKey : String
  admitted : Bool
deriving DecidableEq, Repr

namespace ConnectionAudit

variable (a : ConnectionAudit)

/-- `enqueuePresenceEventLocked`: after it, and the state with the number and time it was given. -/
def enqueuePresenceEvent (s : ConnectionPresenceState) (kind : PresenceKind) (time : Int) :
    ConnectionAudit × ConnectionPresenceState :=
  let item :=
    { s.event with event := some kind, time := some time, sequence := a.presenceSequence + 1 }
  let a := { a with presenceSequence := a.presenceSequence + 1 }
  (if maxConnectionPresenceEvents ≤ a.presenceEvents.length then
      { a with presenceDropped := a.presenceDropped + 1 }
    else { a with presenceEvents := a.presenceEvents ++ [item] },
    { event := item, lastEmittedAt := some time })

def announce (key : String) (s : ConnectionPresenceState) (kind : PresenceKind) (time : Int) :
    ConnectionAudit :=
  let x := a.enqueuePresenceEvent s kind time
  { x.1 with presenceStates := x.1.presenceStates.insert key x.2 }

/-! ## The calls of a connection -/

structure Attempt where
  stateKey : String
  policy : RuntimeUserLimit
  /-- The text of the unmapped source address, if it is valid. -/
  source : Option String
  network : String
  metadataNetwork : String := ""
  sourceGeoIPCode : String := ""
  admitted : Bool := true
deriving DecidableEq, Repr

namespace Attempt

def networkName (x : Attempt) : String :=
  let network := if x.network = "" then GoStrings.trimSpace x.metadataNetwork else x.network
  if network = "" then "tcp" else network

def geoCode (x : Attempt) : String :=
  let code := GoStrings.toUpper (GoStrings.trimSpace x.sourceGeoIPCode)
  if code.utf8ByteSize = 2 then code else ""

def presenceEvent (x : Attempt) (sourceIP : String) (state : PresenceState) :
    ConnectionPresenceEvent :=
  { userID := x.policy.userID, inboundID := x.policy.inboundID, pathID := x.policy.pathID
    deviceIDHash := x.policy.deviceIDHash, credentialEpoch := x.policy.credentialEpoch
    sourceIP := sourceIP, network := x.networkName, state := state }

end Attempt

def bucketKey (x : Attempt) (sourceIP : String) : String :=
  toString a.generation ++ "\x00" ++ "\x00".intercalate [x.stateKey, sourceIP, x.networkName]

def bucketFor (x : Attempt) (sourceIP : String) (now : Int) :
    ConnectionAudit × Option ConnectionAuditBucket :=
  let key := a.bucketKey x sourceIP
  match a.buckets.lookup key with
  | some b => (a, some b)
  | none =>
    if maxConnectionAuditBuckets ≤ GoMap.size a.buckets then
      ({ a with dropped := a.dropped + 1 }, none)
    else
      ({ a with presenceSequence := a.presenceSequence + 1 },
        some
          { userID := x.policy.userID, inboundID := x.policy.inboundID, pathID := x.policy.pathID
            deviceIDHash := x.policy.deviceIDHash, credentialEpoch := x.policy.credentialEpoch
            sourceIP := sourceIP, sourceGeoCode := x.geoCode, network := x.networkName
            presenceSequence := a.presenceSequence + 1
            startedAt := some now
            key := key
            activeIdentity :=
              connectionAuditActiveIdentity x.policy.userID x.policy.deviceIDHash sourceIP })

def startPresence (x : Attempt) (sourceIP presenceKey : String) (now : Int) : ConnectionAudit :=
  if x.admitted then
    let s := (a.presenceStates.lookup presenceKey).getD { event := x.presenceEvent sourceIP .active }
    let s := { s with event := { s.event with activeConnections := s.event.activeConnections + 1 } }
    if s.event.activeConnections = 1 then a.announce presenceKey s .firstAuthenticated now
    else { a with presenceStates := a.presenceStates.insert presenceKey s }
  else
    (a.enqueuePresenceEvent { event := x.presenceEvent sourceIP .rejected } .credentialRejected now).1

structure StartClock where
  check : Int
  now : Int
  recheck : Int
deriving DecidableEq, Repr

def recordConnectionStart (x : Attempt) (clock : StartClock) : ConnectionAudit × Option Handle :=
  if !a.enabled || !a.diagnostics then (a, none)
  else if x.policy.userID ≤ 0 || !allows a.collection x.policy.userID clock.check then (a, none)
  else
    match x.source with
    | none => (a, none)
    | some sourceIP =>
      if !allows a.collection x.policy.userID clock.recheck then (a, none)
      else
        match a.bucketFor x sourceIP clock.now with
        | (a, none) => (a, none)
        | (a, some b) =>
          let key := a.bucketKey x sourceIP
          let identityActive := (a.activeByIdentity.lookup b.activeIdentity).getD 0 + 1
          let presenceKey := connectionPresenceKey x.policy.userID x.policy.deviceIDHash
            x.policy.credentialEpoch sourceIP x.networkName
          let a :=
            { a with
              activeByIdentity := a.activeByIdentity.insert b.activeIdentity identityActive
              buckets := a.buckets.insert key (b.opened identityActive clock.now) }
          (a.startPresence x sourceIP presenceKey clock.now,
            some
              { key := key, started := clock.now, presenceKey := presenceKey, admitted := x.admitted })

def payloadPresence (h : Handle) (now later : Int) : ConnectionAudit :=
  match h.admitted, a.presenceStates.lookup h.presenceKey with
  | true, some s =>
    let s' := { s with event := { s.event with meaningful := true, payloadLastAt := some now } }
    if s.event.meaningful then
      { a with presenceStates := a.presenceStates.insert h.presenceKey s' }
    else a.announce h.presenceKey s' .firstMeaningfulPayload later
  | _, _ => a

def recordConnectionPayload (h : Handle) (upload download : Int) (now later : Int) : ConnectionAudit :=
  if upload < 0 ∨ download < 0 ∨ upload + download ≤ 0 then a
  else
    match a.buckets.lookup h.key with
    | none => a
    | some b =>
      if !allows a.collection b.userID now then a
      else
        let a :=
          { a with buckets := a.buckets.insert h.key (b.moved upload.toNat download.toNat now) }
        a.payloadPresence h now later

variable (b : ConnectionAuditBucket)

def release : GoMap String Nat :=
  if 0 < b.active then
    let active := (a.activeByIdentity.lookup b.activeIdentity).getD 0
    if 1 < active then a.activeByIdentity.insert b.activeIdentity (active - 1)
    else a.activeByIdentity.erase b.activeIdentity
  else a.activeByIdentity

def endPresence (h : Handle) (later : Int) : ConnectionAudit :=
  match h.admitted, a.presenceStates.lookup h.presenceKey with
  | true, some s =>
    let s := { s with event := { s.event with activeConnections := s.event.activeConnections - 1 } }
    if s.event.activeConnections = 0 then
      let s := { s with event := { s.event with state := .inactive } }
      let a := (a.enqueuePresenceEvent s .lastConnectionClosed later).1
      { a with presenceStates := a.presenceStates.erase h.presenceKey }
    else { a with presenceStates := a.presenceStates.insert h.presenceKey s }
  | _, _ => a

def recordConnectionEnd (h : Handle) (now later : Int) : ConnectionAudit :=
  let a :=
    match a.buckets.lookup h.key with
    | none => a
    | some b =>
      { a with
        activeByIdentity := a.release b
        buckets := a.buckets.insert h.key (b.closed h.started now) }
  a.endPresence h later

/-! ## Drains -/

def drainItem (started now : Int) : ConnectionAuditBucket :=
  normalizeAuditItemWindow
    { b with
      activeAtEnd := b.active
      active := 0
      key := ""
      endedAt := b.endedAt.or (some now) } started now

def nextWindow (sequence peak : Nat) (now : Int) : ConnectionAuditBucket :=
  { b with
    connectionCount := 0, closedCount := 0, durationTotalMS := 0, durationMaxMS := 0
    uploadBytes := 0, downloadBytes := 0, payloadFirstAt := none, payloadLastAt := none
    durationLE1SCount := 0, durationLE5SCount := 0, durationLE20SCount := 0, durationGT20SCount := 0
    probeState := "", internalProbe := false
    presenceSequence := sequence, activePeak := peak, activeAtEnd := 0
    startedAt := some now, endedAt := some now }

structure DrainLoop where
  items : List ConnectionAuditBucket := []
  sequence : Nat

def drainBody (started now : Int) (s : DrainLoop) (b : ConnectionAuditBucket) :
    DrainLoop × Option ConnectionAuditBucket :=
  let items := if 0 < b.connectionCount ∨ 0 < b.active then s.items ++ [drainItem b started now]
    else s.items
  if b.active = 0 then ({ s with items := items }, none)
  else
    ({ items := items, sequence := s.sequence + 1 },
      some (nextWindow b (s.sequence + 1) ((a.activeByIdentity.lookup b.activeIdentity).getD 0) now))

def itemLE (a b : ConnectionAuditBucket) : Bool :=
  if a.userID ≠ b.userID then a.userID < b.userID
  else if a.sourceIP ≠ b.sourceIP then a.sourceIP < b.sourceIP
  else a.network ≤ b.network

structure ConnectionAuditDrain where
  items : List ConnectionAuditBucket := []
  collectionGeneration : Nat := 0
  bucketCapacity : Nat := maxConnectionAuditBuckets
  droppedBucketCount : Nat := 0
  collectionStartedAt : Option Int := none
  collectionEndedAt : Option Int := none
deriving DecidableEq, Repr

def drainStart (now : Int) : Int := min (a.windowStart.getD now) now

def drainConnectionAuditSnapshot (now : Int) : ConnectionAudit × ConnectionAuditDrain :=
  if !a.enabled then (a, {})
  else
    let started := a.drainStart now
    let x := GoMap.range (fun s _ b => a.drainBody started now s b)
      { sequence := a.presenceSequence } a.buckets
    ({ a with
        buckets := x.2
        presenceSequence := x.1.sequence
        dropped := 0
        windowStart := some now },
      { items := x.1.items.mergeSort itemLE
        collectionGeneration := a.generation
        droppedBucketCount := a.dropped
        collectionStartedAt := some started
        collectionEndedAt := some now })

def drainConnectionPresenceEvents (now : Int) :
    ConnectionAudit × List ConnectionPresenceEvent × Nat :=
  if !a.enabled then (a, [], 0)
  else
    let a := a.presenceStates.entries.foldl (fun a e =>
      if 0 < e.2.event.activeConnections ∧
          e.2.lastEmittedAt.elim true (fun t => connectionPresenceRefresh ≤ now - t) then
        a.announce e.1 e.2 .activityRefresh now
      else a) a
    ({ a with presenceEvents := [], presenceDropped := 0 }, a.presenceEvents, a.presenceDropped)

end ConnectionAudit

end OboardAgent.Audit
