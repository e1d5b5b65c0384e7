import OboardAgent.Lib.AckLog
import OboardAgent.Lib.Run
import OboardAgent.Quota.Usage

/-!
# Runs of the tracker, and a ledger beside it

A run is a list of events on single states: policies, traffic, snapshots, acknowledgements, users
that are installed, and looks at a state, each with the clock readings it makes.

Beside the tracker runs a ledger. Every byte is logged under its counters' epoch with the user
and the period it was recorded for, and an acknowledgement of the value `v` covers the first `v`
bytes of the epoch it names. What is `outstanding` for a user in a period is then read off the
ledger, without the totals the tracker keeps.
-/

namespace OboardAgent.Quota

open Traffic (Counters)
open RateLimitTracker (owner Wired)
open Finset (range)

/-! ## The ledger -/

abbrev Account : Type := Int × String

/-- The account the bytes of a state are recorded for. -/
def RuntimeState.account (s : RuntimeState) : Account := (owner s, s.config.policy.periodKey)

abbrev Ledger : Type := Nat → Direction → AckLog Account

namespace Ledger

def record (l : Ledger) (epoch : Nat) (account : Account) (amount : Counters) : Ledger :=
  fun e d => if e = epoch then (l e d).push (side amount d).toNat account else l e d

def cover (l : Ledger) (a : TrafficCounterAcknowledgement) : Ledger :=
  fun e d => if a.counterEpoch = some e then (l e d).ack (side a.value d).toNat else l e d

/-- The bytes of an account that no acknowledgement has covered, in one direction, over the
counters with an epoch below `n`. -/
def pending (l : Ledger) (n : Nat) (d : Direction) (account : Account) : Nat :=
  ∑ e ∈ range n, (l e d).pending.count account

variable {l : Ledger} {n e : Nat}

theorem pending_eq_zero {d : Direction} {account : Account}
    (h : ∀ e, account ∉ (l e d).items) : l.pending n d account = 0 := by
  unfold pending
  refine Finset.sum_eq_zero fun e _ => ?_
  exact List.count_eq_zero.mpr fun hmem => h e (AckLog.mem_pending hmem)

theorem pending_record (he : e < n) {d : Direction} (hle : (l e d).acked ≤ (l e d).items.length)
    (account other : Account) (amount : Counters) :
    ((l.record e account amount).pending n d other : Int)
      = l.pending n d other + if other = account then ((side amount d).toNat : Int) else 0 := by
  have hrest : ∀ i, i ≠ e → (l.record e account amount i d).pending.count other
      = (l i d).pending.count other := fun i hi => by simp only [record, if_neg hi]
  unfold pending
  rw [Finset.sum_range_change he hrest]
  simp only [record, if_true, AckLog.count_pending_push hle]
  split <;> omega

theorem pending_cover (he : e < n) {d : Direction} {account : Account}
    (huniform : (l e d).Uniform account) {a : TrafficCounterAcknowledgement}
    (ha : a.counterEpoch = some e) (hle : (side a.value d).toNat ≤ (l e d).items.length)
    (hacked : (l e d).acked ≤ (l e d).items.length) (other : Account) :
    ((l.cover a).pending n d other : Int) = l.pending n d other -
      if other = account then (max (l e d).acked (side a.value d).toNat : Int) - (l e d).acked
      else 0 := by
  have hrest : ∀ i, i ≠ e → (l.cover a i d).pending.count other = (l i d).pending.count other := by
    intro i hi
    have hne : a.counterEpoch ≠ some i := fun h => hi (Option.some.inj (h.symm.trans ha))
    simp only [cover, if_neg hne]
  unfold pending
  rw [Finset.sum_range_change he hrest]
  simp only [cover, if_pos ha]
  by_cases hother : other = account
  · rw [if_pos hother, hother, (huniform.ack _).count_eq, huniform.count_eq]
    simp only [AckLog.ack]
    omega
  · rw [if_neg hother, (huniform.ack _).count_other hother, huniform.count_other hother]
    omega

end Ledger

/-! ## Runs -/

/-- The tracker, the ledger of what it has recorded, and what it has reported. -/
structure World where
  tracker : RateLimitTracker
  ledger : Ledger := fun _ _ => {}
  reports : List TrafficCounter := []

inductive Event where
  /-- A policy for one state, as `UpdatePolicies` merges it. -/
  | policy (key : String) (p : RuntimeUserLimit)
  | touch (key : String) (r : Readings)
  | traffic (key : String) (r : Readings) (amount : Counters)
  | snapshot (key : String) (r : Readings)
  | acknowledge (key : String) (a : TrafficCounterAcknowledgement)
  | install (entry : UserInstallEntry)

namespace World

abbrev heap (w : World) : Heap := w.tracker.heap

abbrev lookup (w : World) (key : String) : Option RuntimeState := w.tracker.states.lookup key

/-- The second half of `addTraffic`, and its entry in the ledger. -/
def record (w : World) (key : String) (amount : Counters) : World :=
  match w.lookup key with
  | none => w
  | some s =>
    { w with
      tracker := w.tracker.put key (s, RuntimeState.record s.config s.usage w.heap amount)
      ledger :=
        if !s.config.policy.billable || owner s ≤ 0 then w.ledger
        else w.ledger.record s.config.counters s.account amount }

def step (zones : Zones) (w : World) : Event → World
  | .policy key p =>
    { w with tracker := w.tracker.onState key fun s =>
      s.updatePolicy (mergeRuntimePolicy s.config.policy p) }
  | .touch key r => { w with tracker := w.tracker.touch zones key r }
  | .traffic key r amount => record { w with tracker := w.tracker.touch zones key r } key amount
  | .snapshot key r =>
    let x := w.tracker.snapshot zones key r
    { w with tracker := x.1, reports := w.reports ++ x.2.toList }
  | .acknowledge key a =>
    { w with
      tracker := w.tracker.onState key fun s h => (s, s.acknowledge a h)
      ledger := w.ledger.cover a }
  | .install entry => { w with tracker := w.tracker.installUser entry }

/-- The tracker of a step with traffic is the one `addTraffic` leaves behind. -/
theorem tracker_traffic (zones : Zones) (w : World) (key : String) (r : Readings)
    (amount : Counters) :
    (w.step zones (.traffic key r amount)).tracker =
      w.tracker.onState key (RuntimeState.addTraffic zones r amount) := by
  simp only [step, record, RateLimitTracker.touch, RateLimitTracker.onState]
  cases hs : w.tracker.states.lookup key with
  | none => simp only [lookup, hs]
  | some s =>
    simp only [lookup, RateLimitTracker.lookup_put, if_true, RateLimitTracker.put_put]
    rfl

def pending (w : World) (d : Direction) (account : Account) : Nat :=
  w.ledger.pending w.heap.epochs d account

/-- The bytes recorded for an account that no acknowledgement has covered. -/
def outstanding (w : World) (account : Account) : Int :=
  w.pending .upload account + w.pending .download account

/-- `ReplaceScopedUsers` is a run of single entries. -/
theorem tracker_replaceScopedUsers (zones : Zones) (entries : List UserInstallEntry) (w : World) :
    (Run.exec (step zones) w (entries.map .install)).tracker
      = w.tracker.replaceScopedUsers entries := by
  induction entries generalizing w with
  | nil => rfl
  | cons e l ih =>
    rw [List.map_cons, Run.exec_cons, ih]
    simp only [RateLimitTracker.replaceScopedUsers, List.foldl_cons, step]

end World

end OboardAgent.Quota
