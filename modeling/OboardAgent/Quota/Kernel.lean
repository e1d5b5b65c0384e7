import OboardAgent.Quota.Period

/-!
# The kernel's rate-limit tracker

`RateLimitTracker` keeps one `runtimeState` per authenticated user and per inbound. A state holds
a policy and points to two things: its counters, which a period change may replace by fresh ones,
and the usage of its user, which all states of that user share and which keeps a tally per period.
Quota is decided on the usage; what the Controller is told, and acknowledges, is the counters.

The pointers are explicit. Counters live in a heap under the epoch they were made with, usages
under a number, so a connection that still holds replaced counters is a holder of an old epoch.

The functions of one state take the state and the heap. What `Snapshot`, `UpdatePolicies` and
`AcknowledgeTraffic` do to each state they come to is here; the loops around it are not, nor is
what they do about connections and Snell parents.
-/

namespace OboardAgent.Quota

open Traffic (Counters)

/-- What states point to. Epochs from `epochs` on are not in use yet. -/
structure Heap where
  counters : Tallies Nat := ∅
  usage : Tallies (Nat × String) := ∅
  epochs : Nat := 0
deriving DecidableEq

structure RuntimeConfig where
  policy : RuntimeUserLimit
  counters : Nat
deriving DecidableEq, Repr

structure RuntimeState where
  key : String
  user : String
  inbound : String
  usage : Option Nat
  config : RuntimeConfig
deriving DecidableEq, Repr

/-! ## One state -/

namespace RuntimeState

def storePolicyLocked (s : RuntimeState) (h : Heap) (policy : RuntimeUserLimit)
    (resetTraffic : Bool) : RuntimeState × Heap :=
  if resetTraffic then
    ({ s with config := ⟨policy, h.epochs⟩ }, { h with epochs := h.epochs + 1 })
  else ({ s with config := ⟨policy, s.config.counters⟩ }, h)

def rolledOver (zones : Zones) (now : Int) (p : RuntimeUserLimit) : RuntimeUserLimit :=
  p.carriedInto
    (runtimeTrafficWindow now p.resetMode p.resetDay (policyAnchor p) (policyLocation zones p))

def unnamed (p : RuntimeUserLimit) (periodKey : String) : Bool :=
  p.previousPeriodKey = "" || p.previousPeriodKey ≠ periodKey

/-- `currentConfig`: the configuration, carried into a new period where the old one has ended. -/
def currentConfig (zones : Zones) (r : Readings) (s : RuntimeState) (h : Heap) :
    RuntimeState × Heap :=
  let p := s.config.policy
  if r.expired p then
    s.storePolicyLocked h (rolledOver zones r.window p) (unnamed p p.periodKey)
  else (s, h)

/-- The second half of `addTraffic`, for the configuration the first half has fetched. -/
def record (config : RuntimeConfig) (usage : Option Nat) (h : Heap) (amount : Counters) : Heap :=
  let p := config.policy
  if !p.billable || p.userID ≤ 0 then h
  else
    { h with
      counters := h.counters.modify config.counters (·.record amount)
      usage := match usage with
        | none => h.usage
        | some u => h.usage.modify (u, p.periodKey) (·.record amount) }

def addTraffic (zones : Zones) (r : Readings) (amount : Counters) (s : RuntimeState) (h : Heap) :
    RuntimeState × Heap :=
  let x := s.currentConfig zones r h
  (x.1, record x.1.config x.1.usage x.2 amount)

/-- `unacknowledged`: of the usage where there is one, of the state's own counters else. -/
def unacknowledged (s : RuntimeState) (h : Heap) : Int :=
  match s.usage with
  | some u => (h.usage.get (u, s.config.policy.periodKey)).unacknowledged
  | none => (h.counters.get s.config.counters).unacknowledged

def runtimeConfigDenied (p : RuntimeUserLimit) (unacknowledged : Int) : Bool :=
  if normalizeCredentialStatus p.credentialStatus ≠ "active" then true
  else if !p.billable || p.userID ≤ 0 then false
  else if p.quotaState = "quota_exceeded" then true
  else if p.trafficLimitBytes ≤ 0 then false
  else effectiveCap p ≤ p.usedBaselineBytes + unacknowledged

def quotaDeniedFor (admitted : Bool) (s : RuntimeState) (h : Heap) : Bool :=
  let status := normalizeCredentialStatus s.config.policy.credentialStatus
  if status = "active" then runtimeConfigDenied s.config.policy (s.unacknowledged h)
  else if status = "reject_new" then !admitted
  else true

def concerns (a : TrafficCounterAcknowledgement) (s : RuntimeState) : Bool :=
  a.periodKey ≠ "" && s.config.policy.periodKey = a.periodKey &&
    match a.counterEpoch with
    | none => true
    | some e => e = s.config.counters

def acknowledge (a : TrafficCounterAcknowledgement) (s : RuntimeState) (h : Heap) : Heap :=
  if concerns a s then
    let before := h.counters.get s.config.counters
    let after := before.acknowledge a.value
    { h with
      counters := h.counters.modify s.config.counters (·.acknowledge a.value)
      usage := match s.usage with
        | none => h.usage
        | some u => h.usage.modify (u, a.periodKey) (·.follow before after) }
  else h

def updatePolicy (policy : RuntimeUserLimit) (s : RuntimeState) (h : Heap) : RuntimeState × Heap :=
  let current := s.config.policy
  let periodChanged :=
    current.periodKey ≠ "" && policy.periodKey ≠ "" && current.periodKey ≠ policy.periodKey
  s.storePolicyLocked h policy (periodChanged && unnamed policy current.periodKey)

def report (s : RuntimeState) (h : Heap) : Option TrafficCounter :=
  let value := (h.counters.get s.config.counters).recorded
  if value.upload = 0 ∧ value.download = 0 then none
  else
    let p := s.config.policy
    some
      { key := s.key, counterEpoch := s.config.counters, user := s.user, inbound := s.inbound
        userID := p.userID, inboundID := p.inboundID, pathID := p.pathID, periodKey := p.periodKey
        value := value }

end RuntimeState

def newRuntimeState (key user inbound : String) (usage : Option Nat) (policy : RuntimeUserLimit)
    (h : Heap) : RuntimeState × Heap :=
  (⟨key, user, inbound, usage, ⟨policy, h.epochs⟩⟩, { h with epochs := h.epochs + 1 })

/-! ## Installed users -/

structure UserCredential where
  uuid : String := ""
  password : String := ""
  userKey : String := ""
  psk : String := ""
  flow : String := ""
deriving DecidableEq, Repr

structure UserIdentity where
  userID : Int := 0
  inboundID : Int := 0
  pathID : Int := 0
  deviceIDHash : String := ""
  credentialEpoch : Int := 0
  credentialStatus : String := ""
deriving DecidableEq, Repr

structure UserInstallEntry where
  inboundTag : String
  authUser : String
  credential : UserCredential := {}
  authorizationKey : String := ""
  identity : UserIdentity := {}
  routeOutbound : String := ""
  policy : RuntimeUserLimit := {}
deriving DecidableEq, Repr

def UserInstallEntry.scopedPolicy (entry : UserInstallEntry) : RuntimeUserLimit :=
  let policy := entry.policy
  let id := entry.identity
  let userID := if 0 < id.userID then id.userID else policy.userID
  { policy with
    authorizationKey :=
      if entry.authorizationKey ≠ "" then entry.authorizationKey else policy.authorizationKey
    userID := userID
    inboundID := if 0 < id.inboundID then id.inboundID else policy.inboundID
    pathID := id.pathID
    deviceIDHash := id.deviceIDHash
    credentialEpoch := id.credentialEpoch
    credentialStatus := id.credentialStatus
    billable := policy.billable || decide (0 < userID) }

def mergeRuntimeIdentity (current update : RuntimeUserLimit) : RuntimeUserLimit :=
  { current with
    authorizationKey :=
      if update.authorizationKey ≠ "" then update.authorizationKey else current.authorizationKey
    userID := if 0 < update.userID then update.userID else current.userID
    inboundID := if 0 < update.inboundID then update.inboundID else current.inboundID
    pathID := update.pathID
    deviceIDHash := update.deviceIDHash
    credentialEpoch := update.credentialEpoch
    credentialStatus := update.credentialStatus
    speedLimitMbps :=
      if update.speedLimitMbps ≠ 0 then update.speedLimitMbps else current.speedLimitMbps
    trafficLimitBytes :=
      if update.trafficLimitBytes ≠ 0 then update.trafficLimitBytes else current.trafficLimitBytes
    leaseBytes := if update.leaseBytes ≠ 0 then update.leaseBytes else current.leaseBytes
    billable := update.billable || current.billable
    leaseEnforced := update.leaseEnforced || current.leaseEnforced }

/-- `mergeRuntimePolicy`: a policy update leaves the identity alone. -/
def mergeRuntimePolicy (current update : RuntimeUserLimit) : RuntimeUserLimit :=
  { update with
    inboundID := current.inboundID
    userID := current.userID
    authorizationKey := current.authorizationKey
    deviceIDHash := current.deviceIDHash
    credentialEpoch := current.credentialEpoch
    credentialStatus := current.credentialStatus
    pathID := current.pathID }

/-! ## The tracker -/

/-- `RateLimitTracker`, as far as quota goes. Usages from `usages` on are not in use yet. -/
structure RateLimitTracker where
  states : GoMap String RuntimeState := ∅
  heap : Heap := {}
  usages : Nat := 0
deriving DecidableEq

namespace RateLimitTracker

variable (t : RateLimitTracker)

def put (key : String) (x : RuntimeState × Heap) : RateLimitTracker :=
  { t with states := t.states.insert key x.1, heap := x.2 }

/-- `stateForKey`, and what is done to the state it finds. -/
def onState (key : String) (f : RuntimeState → Heap → RuntimeState × Heap) : RateLimitTracker :=
  match t.states.lookup key with
  | none => t
  | some s => t.put key (f s t.heap)

def usageOf (userID : Int) : Option Nat :=
  (GoMap.values t.states).findSome? fun s => if s.config.policy.userID = userID then s.usage else none

def create (key user inbound : String) (policy : RuntimeUserLimit) : RateLimitTracker :=
  if policy.userID ≤ 0 then t.put key (newRuntimeState key user inbound none policy t.heap)
  else
    match t.usageOf policy.userID with
    | some u => t.put key (newRuntimeState key user inbound (some u) policy t.heap)
    | none =>
      { t with usages := t.usages + 1 }.put key
        (newRuntimeState key user inbound (some t.usages) policy t.heap)

/-- `newRateLimitTracker`: the states of the users of the configuration, then those of its
inbounds. The constructor keeps the usages it has made in a map by user; finding them through the
states made so far is the same, because no state has changed its user yet. -/
def newRateLimitTracker (users inbounds : GoMap String RuntimeUserLimit) : RateLimitTracker :=
  let t := users.entries.foldl (fun t e =>
    if e.1 = "" then t
    else t.create ("user:" ++ e.1) e.1 "" { e.2 with billable := e.2.billable || decide (0 < e.2.userID) }) {}
  inbounds.entries.foldl (fun t e =>
    if e.1 = "" then t else t.create ("inbound:" ++ e.1) "" e.1 e.2) t

/-- One entry of `ReplaceScopedUsers`. -/
def installUser (entry : UserInstallEntry) : RateLimitTracker :=
  let user := GoStrings.trimSpace entry.authUser
  if user = "" then t
  else
    let key := "user:" ++ user
    match t.states.lookup key with
    | some s =>
      t.put key
        (s.updatePolicy (mergeRuntimeIdentity s.config.policy entry.scopedPolicy) t.heap)
    | none => t.create key user "" entry.scopedPolicy

/-- `ReplaceScopedUsers`; it does nothing with the scope. -/
def replaceScopedUsers (entries : List UserInstallEntry) : RateLimitTracker :=
  entries.foldl installUser t

def touch (zones : Zones) (key : String) (r : Readings) (t : RateLimitTracker) : RateLimitTracker :=
  t.onState key (RuntimeState.currentConfig zones r)

/-- One state of `Snapshot`: what it leaves behind, and what it reports. -/
def snapshot (zones : Zones) (key : String) (r : Readings) (t : RateLimitTracker) :
    RateLimitTracker × Option TrafficCounter :=
  let t := t.touch zones key r
  (t, (t.states.lookup key).bind fun s => s.report t.heap)

end RateLimitTracker

end OboardAgent.Quota
