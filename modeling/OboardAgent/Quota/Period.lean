import OboardAgent.Lib.GoTime
import OboardAgent.Traffic.State

/-!
# Quota policies and their periods

What the kernel's per-user state (`ratelimit.go`) and the agent's SSH counter (`ssh_inbounds.go`)
have in common: the policy the Controller sends, the window a policy's period falls into, the cap,
and the accounting of bytes that are recorded and acknowledged. The two files carry their own
copies of these functions; where the copies are the same text the model has one definition, under
both names.

Byte counts are integers without a bound; a counter would have to pass `2 ^ 63` bytes to differ.
-/

namespace OboardAgent.Quota

open Traffic (Counters)
open GoTime (Location)

/-! ## Policies -/

inductive ResetMode where
  | never
  | anniversaryMonth
  | monthDay
  | other (word : String)
deriving DecidableEq, Repr

/-- `RuntimeUserLimit`, which is `TrafficRuntimePolicy` for the agent. -/
structure RuntimeUserLimit where
  authorizationKey : String := ""
  userID : Int := 0
  inboundID : Int := 0
  pathID : Int := 0
  deviceIDHash : String := ""
  credentialEpoch : Int := 0
  credentialStatus : String := ""
  billable : Bool := false
  speedLimitMbps : Int := 0
  trafficLimitBytes : Int := 0
  usedBaselineBytes : Int := 0
  leaseBytes : Int := 0
  resetLeaseBytes : Int := 0
  leaseEnforced : Bool := false
  periodKey : String := ""
  periodStart : String := ""
  periodEnd : String := ""
  resetMode : ResetMode := .other ""
  resetDay : Int := 0
  resetAnchor : String := ""
  previousPeriodKey : String := ""
  timezone : String := ""
  quotaState : String := ""
deriving DecidableEq, Repr

/-! ## Windows -/

/-- `runtimeClampedMonthDay`, `agentClampedMonthDay`. -/
def clampedMonthDay (year month day : Int) : Int :=
  let last := (Rfc3339.civilInt (GoTime.dayOf year (month + 1) 0 + Rfc3339.epochDay)).2.2
  if (last : Int) < day then last else if day < 1 then 1 else day

/-- `runtimeAnniversaryBoundary`, `agentAnniversaryBoundary`. -/
def anniversaryBoundary (anchor : Int) (months : Int) (loc : Location) : Int :=
  let a := GoTime.inLocation anchor loc
  let monthStart := GoTime.inLocation
    (GoTime.date a.year (a.month + months) 1 a.hour a.minute a.second a.nanosecond loc) loc
  let day := clampedMonthDay monthStart.year monthStart.month a.day
  GoTime.date monthStart.year monthStart.month day a.hour a.minute a.second a.nanosecond loc

/-- `runtimeAnniversaryWindow`, `agentAnniversaryWindow`. -/
def anniversaryWindow (now anchor : Int) (loc : Location) : Int × Int :=
  if now < anchor then (anchor, anniversaryBoundary anchor 1 loc)
  else
    let n := GoTime.inLocation now loc
    let a := GoTime.inLocation anchor loc
    let months := (n.year - a.year) * 12 + (n.month - a.month)
    let start := anniversaryBoundary anchor months loc
    if now < start then
      (anniversaryBoundary anchor (months - 1) loc, anniversaryBoundary anchor months loc)
    else (start, anniversaryBoundary anchor (months + 1) loc)

/-- The key, the start and the end of the period that `now` falls into. -/
def trafficWindow (now : Int) (mode : ResetMode) (day : Int) (anchor : Int) (loc : Location) :
    String × Int × Int :=
  let day := if day < 1 then 1 else day
  let day := if 31 < day then 31 else day
  let anchor := if anchor = GoTime.zero then now else anchor
  match mode with
  | .never =>
    (Rfc3339.format anchor, anchor, GoTime.date 9999 12 31 23 59 59 0 loc)
  | .anniversaryMonth =>
    let w := anniversaryWindow now anchor loc
    (Rfc3339.format w.1, w.1, w.2)
  | .monthDay =>
    let n := GoTime.inLocation now loc
    let start := GoTime.date n.year n.month (clampedMonthDay n.year n.month day) 0 0 0 0 loc
    let start :=
      if now < start then
        let prev := GoTime.inLocation (GoTime.addMonths start (-1) loc) loc
        GoTime.date prev.year prev.month (clampedMonthDay prev.year prev.month day) 0 0 0 0 loc
      else start
    let next := GoTime.inLocation (GoTime.addMonths start 1 loc) loc
    (GoTime.formatDate start loc, start,
      GoTime.date next.year next.month (clampedMonthDay next.year next.month day) 0 0 0 0 loc)
  | .other _ =>
    let n := GoTime.inLocation now loc
    let start := GoTime.date n.year n.month 1 0 0 0 0 loc
    (GoTime.formatDate start loc, start, GoTime.addMonths start 1 loc)

def runtimeTrafficWindow := trafficWindow

/-- The agent's copy; its check for a nil location has no counterpart here. -/
def agentTrafficWindow := trafficWindow

/-- What `time.LoadLocation` finds in the zone database. -/
abbrev Zones : Type := String → Option Location

def policyLocation (zones : Zones) (p : RuntimeUserLimit) : Location :=
  let shanghai := GoTime.fixedZone (8 * 3600)
  if p.timezone ≠ "" then (zones p.timezone).getD shanghai else shanghai

variable (p : RuntimeUserLimit)

def policyAnchor : Int :=
  if p.resetAnchor ≠ "" then (Rfc3339.parse p.resetAnchor).getD GoTime.zero else GoTime.zero

def trafficPolicyExpired (now : Int) : Bool :=
  p.periodEnd ≠ "" &&
    match Rfc3339.parse p.periodEnd with
    | none => false
    | some finish => finish ≤ now

structure Readings where
  check : Int
  recheck : Int
  window : Int
deriving DecidableEq, Repr

def Readings.at (now : Int) : Readings := ⟨now, now, now⟩

def Readings.expired (r : Readings) (p : RuntimeUserLimit) : Bool :=
  trafficPolicyExpired p r.check && trafficPolicyExpired p r.recheck

def RuntimeUserLimit.carriedInto (window : String × Int × Int) : RuntimeUserLimit :=
  { p with
    periodKey := window.1
    periodStart := Rfc3339.format window.2.1
    periodEnd := Rfc3339.format window.2.2
    usedBaselineBytes := 0
    leaseBytes := if p.leaseEnforced then p.resetLeaseBytes else p.leaseBytes
    quotaState := "active" }

/-! ## The cap -/

def normalizeCredentialStatus (value : String) : String :=
  let value := GoStrings.toLower (GoStrings.trimSpace value)
  if value = "" then "active" else value

/-- `runtimeEffectiveCap`. -/
def effectiveCap : Int :=
  if p.trafficLimitBytes ≤ 0 then 0
  else if !p.leaseEnforced then p.trafficLimitBytes
  else
    let leaseBytes := if p.leaseBytes < 0 then 0 else p.leaseBytes
    let leaseCap := p.usedBaselineBytes + leaseBytes
    if leaseCap < p.trafficLimitBytes then leaseCap else p.trafficLimitBytes

/-! ## Recorded and acknowledged bytes -/

inductive Direction where
  | upload
  | download
deriving DecidableEq, Repr

instance (p : Direction → Prop) [DecidablePred p] : Decidable (∀ d, p d) :=
  decidable_of_iff (p .upload ∧ p .download)
    ⟨fun h d => by cases d; exacts [h.1, h.2], fun h => ⟨h .upload, h .download⟩⟩

def side (c : Counters) : Direction → Int
  | .upload => c.upload
  | .download => c.download

def both (f : Direction → Int) : Counters := ⟨f .upload, f .download⟩

@[simp] theorem side_both (f : Direction → Int) (d : Direction) : side (both f) d = f d := by
  cases d <;> rfl

def only (d : Direction) (n : Int) : Counters := both fun d' => if d' = d then n else 0

theorem counters_ext {a b : Counters} (h : ∀ d, side a d = side b d) : a = b :=
  Counters.ext (h .upload) (h .download)

@[simp] theorem side_zero (d : Direction) : side 0 d = 0 := by
  cases d <;> rfl

theorem le_iff_side {a b : Counters} : a ≤ b ↔ ∀ d, side a d ≤ side b d := by
  constructor
  · rintro ⟨hu, hd⟩ (_ | _)
    · exact hu
    · exact hd
  · exact fun h => ⟨h .upload, h .download⟩

/-- Bytes that were recorded, and how many of them were acknowledged. -/
structure Tally where
  recorded : Counters := 0
  acknowledged : Counters := 0
deriving DecidableEq, Repr

/-- `runtimePositiveDifference`, `positiveDifference`. -/
def positiveDifference (total acknowledged : Int) : Int :=
  if total ≤ acknowledged then 0 else total - acknowledged

namespace Tally

def unacknowledged (t : Tally) : Int :=
  positiveDifference t.recorded.upload t.acknowledged.upload +
    positiveDifference t.recorded.download t.acknowledged.download

def record (t : Tally) (amount : Counters) : Tally :=
  { t with
    recorded := both fun d =>
      if 0 < side amount d then side t.recorded d + side amount d else side t.recorded d }

theorem side_record (t : Tally) (amount : Counters) (d : Direction) :
    side (t.record amount).recorded d = side t.recorded d + (side amount d).toNat := by
  simp only [record, side_both]
  split <;> omega

def mark (value recorded previous : Int) : Int :=
  let v := if value < recorded then value else recorded
  let v := if v < 0 then 0 else v
  if v < previous then previous else v

theorem mark_eq_max {value recorded previous : Int} (h0 : 0 ≤ value) (h : value ≤ recorded) :
    mark value recorded previous = max previous value := by
  have hv : (if value < recorded then value else recorded) = value := by
    split <;> omega
  simp only [mark, hv]
  split <;> omega

def acknowledge (t : Tally) (value : Counters) : Tally :=
  { t with acknowledged := both fun d => mark (side value d) (side t.recorded d) (side t.acknowledged d) }

def follow (u : Tally) (before after : Tally) : Tally :=
  { u with
    acknowledged := both fun d =>
      side u.acknowledged d + (side after.acknowledged d - side before.acknowledged d) }

end Tally

abbrev Tallies (κ : Type) : Type := GoMap κ Tally

namespace Tallies

variable {κ : Type} [DecidableEq κ]

def get (m : Tallies κ) (k : κ) : Tally := (m.lookup k).getD {}

def modify (m : Tallies κ) (k : κ) (f : Tally → Tally) : Tallies κ := m.insert k (f (m.get k))

@[simp] theorem get_modify (m : Tallies κ) (k k' : κ) (f : Tally → Tally) :
    (m.modify k f).get k' = if k' = k then f (m.get k) else m.get k' := by
  unfold modify get
  rw [GoMap.lookup_insert_eq]
  by_cases h : k' = k
  · rw [if_pos h, if_pos h]
    rfl
  · rw [if_neg h, if_neg h]

end Tallies

/-- An acknowledgement of counters, as the agent passes it on. An epoch is a random text that is
made anew with each set of counters; here it is the number of that set, and none for the empty
text. -/
structure TrafficCounterAcknowledgement where
  counterEpoch : Option Nat := none
  periodKey : String
  value : Counters
deriving DecidableEq, Repr

structure TrafficCounter where
  key : String
  counterEpoch : Nat
  user : String := ""
  inbound : String := ""
  userID : Int := 0
  inboundID : Int := 0
  pathID : Int := 0
  periodKey : String
  value : Counters
deriving DecidableEq, Repr

end OboardAgent.Quota
