import OboardAgent.Lib.GoMap
import OboardAgent.Lib.GoStrings
import Mathlib.Order.Basic

/-!
# The traffic ledger's state

The types of `internal/agent/traffic.go` that hold the agent's side of the traffic ledger, and
the two identities derived by hashing.

A *stream* is one counter of the kernel, named by the hash of its source and key. Its counters
run from zero within a *counter epoch*, which the kernel renews when it restarts. What the agent
reports are ranges of a counter within an epoch, from the accepted checkpoint to the value
observed; the *pending* ones are unanswered so far.

The upload and the download counter of the source always travel together, as `Counters`. A map
entry that is a nil pointer is an absent entry here. Left out are the fields no function of this
development reads: the agent instance id and the traffic policies with their revision.
-/

namespace OboardAgent.Traffic

/-! ## Counters -/

@[ext] structure Counters where
  upload : Int
  download : Int
deriving DecidableEq, Repr

namespace Counters

instance : Zero Counters := ⟨⟨0, 0⟩⟩

/-- Both counters are at most the other's. -/
instance : PartialOrder Counters where
  le a b := a.upload ≤ b.upload ∧ a.download ≤ b.download
  le_refl _ := ⟨Int.le_refl _, Int.le_refl _⟩
  le_trans _ _ _ h₁ h₂ := ⟨Int.le_trans h₁.1 h₂.1, Int.le_trans h₁.2 h₂.2⟩
  le_antisymm _ _ h₁ h₂ :=
    Counters.ext (Int.le_antisymm h₁.1 h₂.1) (Int.le_antisymm h₁.2 h₂.2)

theorem le_def {a b : Counters} : a ≤ b ↔ a.upload ≤ b.upload ∧ a.download ≤ b.download := Iff.rfl

instance (a b : Counters) : Decidable (a ≤ b) := inferInstanceAs (Decidable (_ ∧ _))

def below (a b : Counters) : Bool := a.upload < b.upload || a.download < b.download

theorem below_eq_false {a b : Counters} : a.below b = false ↔ b ≤ a := by
  simp [below, le_def]

end Counters

/-! ## Statuses -/

/-- The status words of the ledger: those of a stream, of the synchronisation, and of the
Controller's answers. The Controller may send others. -/
inductive TrafficStatus where
  | unset
  | healthy
  | recovering
  | stale
  | stateCorrupt
  | counterRegression
  | checkpointGap
  | checkpointOverlap
  | epochConflict
  | rejected
  | accepted
  | duplicate
  | covered
  | other (word : String)
deriving DecidableEq, Repr

namespace TrafficStatus

def text : TrafficStatus → String
  | .unset => ""
  | .healthy => "healthy"
  | .recovering => "recovering"
  | .stale => "stale"
  | .stateCorrupt => "state_corrupt"
  | .counterRegression => "counter_regression"
  | .checkpointGap => "checkpoint_gap"
  | .checkpointOverlap => "checkpoint_overlap"
  | .epochConflict => "epoch_conflict"
  | .rejected => "rejected"
  | .accepted => "accepted"
  | .duplicate => "duplicate"
  | .covered => "covered"
  | .other word => word

def blocked : TrafficStatus → Bool
  | .counterRegression | .checkpointGap | .checkpointOverlap | .epochConflict => true
  | _ => false

end TrafficStatus

/-! ## What the kernel, the Controller and the state file say -/

structure TrafficSnapshotItem where
  key : String
  counterEpoch : String
  source : String := ""
  userID : Int
  inboundID : Int
  pathID : Int := 0
  periodKey : String
  counters : Counters
deriving DecidableEq, Repr

/-- A stream as the agent knows it. -/
structure TrafficStreamState where
  source : String := ""
  snapshotKey : String := ""
  counterEpoch : String := ""
  periodKey : String := ""
  userID : Int := 0
  inboundID : Int := 0
  pathID : Int := 0
  observed : Counters := 0
  accepted : Counters := 0
  status : TrafficStatus := .unset
  lastError : String := ""
  lastObservedAt : String := ""
deriving DecidableEq, Repr

structure TrafficPendingRange where
  reportID : String
  source : String
  streamID : String
  counterEpoch : String
  periodKey : String
  userID : Int
  inboundID : Option Int
  pathID : Option Int
  fromBytes : Counters
  toBytes : Counters
  startedAt : String
  endedAt : String
  snapshotKey : String
deriving DecidableEq, Repr

structure TrafficSyncState where
  status : TrafficStatus := .unset
  lastSuccess : String := ""
  lastError : String := ""
deriving DecidableEq, Repr

structure TrafficCounterCheckpoint where
  counterEpoch : String := ""
  periodKey : String
  counters : Counters
deriving DecidableEq, Repr

structure TrafficPendingReport where
  reportID : String
  userID : Int
  inboundID : Option Int
  pathID : Option Int
  periodKey : String
  bytes : Counters
  startedAt : String
  endedAt : String
  snapshotKey : String
  cumulative : Counters
deriving DecidableEq, Repr

structure TrafficLocalState where
  schemaVersion : Int := 0
  last : GoMap String TrafficSnapshotItem := ∅
  pending : List TrafficPendingReport := []
  acknowledged : GoMap String TrafficCounterCheckpoint := ∅
  streams : GoMap String TrafficStreamState := ∅
  pendingReports : GoMap String TrafficPendingRange := ∅
  sync : TrafficSyncState := {}
  recoveryRequired : Bool := false

structure TrafficLedgerReportItem where
  reportID : String
  source : String
  streamID : String
  counterEpoch : String
  periodKey : String
  userID : Int
  inboundID : Option Int
  pathID : Option Int
  fromBytes : Counters
  toBytes : Counters
  startedAt : String
  endedAt : String
deriving DecidableEq, Repr

structure TrafficAcceptedReport where
  reportID : String
  status : TrafficStatus
  reason : String := ""
  streamID : String := ""
  counterEpoch : String := ""
  periodKey : String := ""
  accepted : Counters := 0
deriving DecidableEq, Repr

structure TrafficStreamCheckpoint where
  source : String
  streamID : String
  counterEpoch : String
  periodKey : String
  accepted : Counters
  status : TrafficStatus
deriving DecidableEq, Repr

structure TrafficReportResponse where
  acceptedReports : List TrafficAcceptedReport := []
  streamCheckpoints : List TrafficStreamCheckpoint := []
deriving DecidableEq, Repr

/-! ## Identities -/

def trafficSourceCore : String := "core"

def trafficStateSchemaV2 : Int := 2

/-- What the ledger takes from the runner: the agent's id, and SHA-256 in unpadded URL base64. -/
structure Runner where
  agentID : String
  digest : String → String

namespace Runner

def trafficStreamID (r : Runner) (source snapshotKey : String) : String :=
  "ts_" ++ r.digest (source ++ "\x00" ++ snapshotKey)

def rangePayload (r : Runner) (p : TrafficPendingRange) : String :=
  "range\x00" ++ r.agentID ++ "\x00" ++ p.streamID ++ "\x00" ++ p.counterEpoch ++ "\x00" ++
    p.periodKey ++ "\x00" ++ toString p.fromBytes.upload ++ "\x00" ++
    toString p.toBytes.upload ++ "\x00" ++ toString p.fromBytes.download ++ "\x00" ++
    toString p.toBytes.download

def trafficRangeReportID (r : Runner) (p : TrafficPendingRange) : String :=
  "tr_" ++ r.digest (r.rangePayload p)

end Runner

end OboardAgent.Traffic
