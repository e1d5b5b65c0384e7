import OboardAgent.Lib.Run
import OboardAgent.Quota.Kernel

/-!
# The SSH counter, and the kernel's state beside it

`sshInboundCounter` is the agent's own copy of the quota rule, for the inbounds that do not run
in the kernel. It keeps its counters in itself and zeroes them where the kernel takes fresh ones.

The two are run side by side on the same policies, amounts, acknowledgements and clock readings
(`Twins`). They stay the same as long as no period ends inside itself: when the window a rollover
computes has the key the policy has already, the kernel starts fresh counters and the SSH counter
goes on (`same_verdict`, `twins_part`).
-/

namespace OboardAgent.Quota

open Traffic (Counters)
open RuntimeState (unnamed)

/-! ## The SSH counter -/

/-- `sshInboundCounter`. The usage of the user, and the epochs handed out, are in a heap as the
kernel's are; the counters are in the counter. -/
structure SshInboundCounter where
  epoch : Nat
  policy : RuntimeUserLimit := {}
  tally : Tally := {}
  usage : Option Nat
deriving DecidableEq, Repr

namespace SshInboundCounter

variable (c : SshInboundCounter)

def resetCountersLocked (h : Heap) : SshInboundCounter × Heap :=
  ({ c with epoch := h.epochs, tally := {} }, { h with epochs := h.epochs + 1 })

/-- A policy is stored, after the counters were reset or not. -/
def store (h : Heap) (policy : RuntimeUserLimit) (reset : Bool) : SshInboundCounter × Heap :=
  let x := if reset then c.resetCountersLocked h else (c, h)
  ({ x.1 with policy := policy }, x.2)

def setPolicy (policy : RuntimeUserLimit) (c : SshInboundCounter) (h : Heap) :
    SshInboundCounter × Heap :=
  let previous := c.policy
  let periodChanged :=
    previous.periodKey ≠ "" && policy.periodKey ≠ "" && previous.periodKey ≠ policy.periodKey
  c.store h policy (periodChanged && unnamed policy previous.periodKey)

def rolledOver (zones : Zones) (now : Int) (p : RuntimeUserLimit) : RuntimeUserLimit :=
  p.carriedInto
    (agentTrafficWindow now p.resetMode p.resetDay (policyAnchor p) (policyLocation zones p))

/-- `currentPolicy`. Here a rollover resets the counters only where the period key changes. -/
def currentPolicy (zones : Zones) (r : Readings) (c : SshInboundCounter) (h : Heap) :
    SshInboundCounter × Heap :=
  let p := c.policy
  if r.expired p then
    let next := rolledOver zones r.window p
    c.store h next (p.periodKey ≠ next.periodKey && unnamed p p.periodKey)
  else (c, h)

def unacknowledged (h : Heap) : Int :=
  match c.usage with
  | some u => (h.usage.get (u, c.policy.periodKey)).unacknowledged
  | none => c.tally.unacknowledged

def quotaExceeded (h : Heap) : Bool :=
  let p := c.policy
  if p.quotaState = "quota_exceeded" then true
  else if p.trafficLimitBytes ≤ 0 then false
  else
    let capBytes :=
      if p.leaseEnforced then
        let leaseBytes := if p.leaseBytes < 0 then 0 else p.leaseBytes
        let leaseCap := p.usedBaselineBytes + leaseBytes
        if leaseCap < p.trafficLimitBytes then leaseCap else p.trafficLimitBytes
      else p.trafficLimitBytes
    capBytes ≤ p.usedBaselineBytes + c.unacknowledged h

/-- `addTraffic`. An amount that is not positive is dropped before the policy is looked at. -/
def addTraffic (zones : Zones) (r : Readings) (d : Direction) (bytes : Int)
    (c : SshInboundCounter) (h : Heap) : SshInboundCounter × Heap :=
  if bytes ≤ 0 then (c, h)
  else
    let x := c.currentPolicy zones r h
    ({ x.1 with tally := x.1.tally.record (only d bytes) },
      { x.2 with
        usage := match x.1.usage with
          | none => x.2.usage
          | some u => x.2.usage.modify (u, x.1.policy.periodKey) (·.record (only d bytes)) })

def concerns (a : TrafficCounterAcknowledgement) (c : SshInboundCounter) : Bool :=
  a.periodKey ≠ "" && c.policy.periodKey = a.periodKey &&
    match a.counterEpoch with
    | none => true
    | some e => e = c.epoch

def acknowledge (a : TrafficCounterAcknowledgement) (c : SshInboundCounter) (h : Heap) :
    SshInboundCounter × Heap :=
  if concerns a c then
    ({ c with tally := c.tally.acknowledge a.value },
      { h with
        usage := match c.usage with
          | none => h.usage
          | some u =>
            h.usage.modify (u, a.periodKey) (·.follow c.tally (c.tally.acknowledge a.value)) })
  else (c, h)

def report : Option (Nat × String × Counters) :=
  if c.tally.recorded.upload = 0 ∧ c.tally.recorded.download = 0 then none
  else some (c.epoch, c.policy.periodKey, c.tally.recorded)

end SshInboundCounter

/-! ## Side by side -/

structure Twins where
  kernel : RuntimeState
  kernelHeap : Heap
  ssh : SshInboundCounter
  sshHeap : Heap

namespace Twins

/-- What both are given. -/
inductive Event where
  | policy (p : RuntimeUserLimit)
  | look (r : Readings)
  | traffic (r : Readings) (d : Direction) (bytes : Int)
  | acknowledge (a : TrafficCounterAcknowledgement)
  /-- Other states of the user change the usage they share with this one. -/
  | elsewhere (period : String) (f : Tally → Tally)

def step (zones : Zones) (t : Twins) : Event → Twins
  | .policy p =>
    let k := t.kernel.updatePolicy (mergeRuntimePolicy t.kernel.config.policy p) t.kernelHeap
    let c := t.ssh.setPolicy p t.sshHeap
    ⟨k.1, k.2, c.1, c.2⟩
  | .look r =>
    let k := t.kernel.currentConfig zones r t.kernelHeap
    let c := t.ssh.currentPolicy zones r t.sshHeap
    ⟨k.1, k.2, c.1, c.2⟩
  | .traffic r d bytes =>
    let k := t.kernel.addTraffic zones r (only d bytes) t.kernelHeap
    let c := t.ssh.addTraffic zones r d bytes t.sshHeap
    ⟨k.1, k.2, c.1, c.2⟩
  | .acknowledge a =>
    let c := t.ssh.acknowledge a t.sshHeap
    ⟨t.kernel, t.kernel.acknowledge a t.kernelHeap, c.1, c.2⟩
  | .elsewhere period f =>
    { t with
      kernelHeap := { t.kernelHeap with usage := t.kernelHeap.usage.modify (0, period) f }
      sshHeap := { t.sshHeap with usage := t.sshHeap.usage.modify (0, period) f } }

/-- Both as they are set up for a user with the policy given. -/
def start (key user inbound : String) (policy : RuntimeUserLimit) : Twins :=
  let k := newRuntimeState key user inbound (some 0) policy {}
  let c := SshInboundCounter.setPolicy policy { epoch := 0, usage := some 0 } { epochs := 1 }
  ⟨k.1, k.2, c.1, c.2⟩

/-- Both decide the same, and report the same counters, epoch and period key. -/
structure Alike (t : Twins) : Prop where
  verdict : ∀ admitted, t.kernel.quotaDeniedFor admitted t.kernelHeap = t.ssh.quotaExceeded t.sshHeap
  reports : (t.kernel.report t.kernelHeap).map (fun c => (c.counterEpoch, c.periodKey, c.value))
    = t.ssh.report
  epoch : t.kernel.config.counters = t.ssh.epoch
  periodKey : t.kernel.config.policy.periodKey = t.ssh.policy.periodKey

/-- The user is billable and active. -/
def Billable (p : RuntimeUserLimit) : Prop :=
  p.billable = true ∧ 0 < p.userID ∧ normalizeCredentialStatus p.credentialStatus = "active"

def LeavesPeriod (zones : Zones) (r : Readings) (p : RuntimeUserLimit) : Prop :=
  r.expired p = true → unnamed p p.periodKey = true →
    (RuntimeState.rolledOver zones r.window p).periodKey ≠ p.periodKey

/-- No period ends inside itself, and traffic of no bytes finds the period running. -/
def Clean (zones : Zones) (t : Twins) : Event → Prop
  | .policy _ | .acknowledge _ | .elsewhere .. => True
  | .look r => LeavesPeriod zones r t.ssh.policy
  | .traffic r _ bytes =>
    LeavesPeriod zones r t.ssh.policy ∧ (bytes ≤ 0 → r.expired t.ssh.policy = false)

/-- Every policy that arrives is for a billable user. -/
def StaysBillable : Event → Prop
  | .policy p => p.billable = true
  | _ => True

instance (p : RuntimeUserLimit) : Decidable (Billable p) := inferInstanceAs (Decidable (_ ∧ _ ∧ _))

instance (zones : Zones) (r : Readings) (p : RuntimeUserLimit) : Decidable (LeavesPeriod zones r p) :=
  inferInstanceAs (Decidable (_ → _ → _))

instance (zones : Zones) (t : Twins) : ∀ e, Decidable (Clean zones t e)
  | .policy _ | .acknowledge _ | .elsewhere .. => .isTrue trivial
  | .look r => inferInstanceAs (Decidable (LeavesPeriod zones r t.ssh.policy))
  | .traffic .. => inferInstanceAs (Decidable (_ ∧ (_ → _)))

/-! ## They stay the same -/

structure Same (id : RuntimeUserLimit) (t : Twins) : Prop where
  billable : Billable t.kernel.config.policy
  policy : t.kernel.config.policy = mergeRuntimePolicy id t.ssh.policy
  epoch : t.kernel.config.counters = t.ssh.epoch
  epochs : t.kernelHeap.epochs = t.sshHeap.epochs
  epoch_lt : t.kernel.config.counters < t.kernelHeap.epochs
  unused : ∀ e, t.kernelHeap.epochs ≤ e → t.kernelHeap.counters.get e = {}
  tally : t.kernelHeap.counters.get t.kernel.config.counters = t.ssh.tally
  kernelUsage : t.kernel.usage = some 0
  sshUsage : t.ssh.usage = some 0
  usage : ∀ period, t.kernelHeap.usage.get (0, period) = t.sshHeap.usage.get (0, period)

variable {id : RuntimeUserLimit} {t : Twins} {zones : Zones}

section

variable (h : Same id t)
include h

theorem Same.store {p : RuntimeUserLimit} (hp : Billable (mergeRuntimePolicy id p)) (reset : Bool) :
    Same id ⟨(t.kernel.storePolicyLocked t.kernelHeap (mergeRuntimePolicy id p) reset).1,
      (t.kernel.storePolicyLocked t.kernelHeap (mergeRuntimePolicy id p) reset).2,
      (t.ssh.store t.sshHeap p reset).1, (t.ssh.store t.sshHeap p reset).2⟩ := by
  cases reset with
  | false => exact { h with billable := hp, policy := rfl }
  | true =>
    exact
      { billable := hp
        policy := rfl
        epoch := h.epochs
        epochs := congrArg (· + 1) h.epochs
        epoch_lt := Nat.lt_succ_self _
        unused := fun e he => h.unused e (Nat.le_of_succ_le he)
        tally := h.unused _ (Nat.le_refl _)
        kernelUsage := h.kernelUsage
        sshUsage := h.sshUsage
        usage := h.usage }

theorem Same.look {r : Readings} (hleaves : LeavesPeriod zones r t.ssh.policy) :
    Same id (t.step zones (.look r)) := by
  simp only [step, RuntimeState.currentConfig, SshInboundCounter.currentPolicy, h.policy]
  have hexpired : r.expired (mergeRuntimePolicy id t.ssh.policy) = r.expired t.ssh.policy := rfl
  rw [hexpired]
  by_cases hr : r.expired t.ssh.policy = true
  · rw [if_pos hr, if_pos hr]
    -- Both roll over to the same policy; they reset together because the key changes.
    have hreset : (decide (t.ssh.policy.periodKey ≠
          (SshInboundCounter.rolledOver zones r.window t.ssh.policy).periodKey) &&
        unnamed t.ssh.policy t.ssh.policy.periodKey)
        = unnamed t.ssh.policy t.ssh.policy.periodKey := by
      cases hu : unnamed t.ssh.policy t.ssh.policy.periodKey with
      | false => rw [Bool.and_false]
      | true =>
        have hne := hleaves hr hu
        rw [Bool.and_true, decide_eq_true]
        exact fun heq => hne heq.symm
    rw [hreset]
    have hbill := h.billable
    rw [h.policy] at hbill
    exact h.store (p := SshInboundCounter.rolledOver zones r.window t.ssh.policy) hbill _
  · rw [if_neg hr, if_neg hr]
    exact h

theorem Same.periodKey : t.kernel.config.policy.periodKey = t.ssh.policy.periodKey := by
  rw [h.policy]
  rfl

theorem Same.unused_modify (f : Tally → Tally) {e : Nat} (he : t.kernelHeap.epochs ≤ e) :
    (t.kernelHeap.counters.modify t.kernel.config.counters f).get e = {} := by
  have hne : e ≠ t.kernel.config.counters := fun heq => absurd h.epoch_lt (Nat.not_lt.mpr (heq ▸ he))
  rw [Tallies.get_modify, if_neg hne]
  exact h.unused e he

theorem Same.record (d : Direction) (bytes : Int) :
    Same id
      { t with
        kernelHeap := RuntimeState.record t.kernel.config t.kernel.usage t.kernelHeap (only d bytes)
        ssh := { t.ssh with tally := t.ssh.tally.record (only d bytes) }
        sshHeap := { t.sshHeap with
          usage := match t.ssh.usage with
            | none => t.sshHeap.usage
            | some u =>
              t.sshHeap.usage.modify (u, t.ssh.policy.periodKey) (·.record (only d bytes)) } } := by
  have hrecord : RuntimeState.record t.kernel.config t.kernel.usage t.kernelHeap (only d bytes)
      = { t.kernelHeap with
          counters := t.kernelHeap.counters.modify t.kernel.config.counters (·.record (only d bytes))
          usage := t.kernelHeap.usage.modify (0, t.ssh.policy.periodKey) (·.record (only d bytes)) } := by
    simp [RuntimeState.record, h.billable.1, Int.not_le.mpr h.billable.2.1, h.kernelUsage, h.periodKey]
  rw [hrecord]
  refine { h with unused := fun e he => h.unused_modify _ he, tally := ?_, usage := fun period => ?_ }
  · rw [Tallies.get_modify, if_pos rfl, h.tally]
  · simp only [h.sshUsage, Tallies.get_modify, h.usage]

theorem Same.traffic {r : Readings} {d : Direction} {bytes : Int}
    (hclean : Clean zones t (.traffic r d bytes)) : Same id (t.step zones (.traffic r d bytes)) := by
  have hlook := h.look hclean.1
  by_cases hpos : bytes ≤ 0
  · -- The kernel looks at the policy and records nothing; the SSH counter does not even look.
    have hnone : r.expired t.ssh.policy = false := hclean.2 hpos
    have hkernel : t.kernel.currentConfig zones r t.kernelHeap = (t.kernel, t.kernelHeap) := by
      have hexpired : ¬ r.expired t.kernel.config.policy = true := by
        rw [h.policy]
        show ¬ r.expired t.ssh.policy = true
        simp [hnone]
      simp only [RuntimeState.currentConfig, if_neg hexpired]
    have hzero : ∀ tally : Tally, tally.record (only d bytes) = tally := by
      intro tally
      have hrec : (tally.record (only d bytes)).recorded = tally.recorded := by
        refine counters_ext fun d' => ?_
        rw [Tally.side_record, only, side_both]
        split <;> omega
      exact congrArg (fun c => ({ tally with recorded := c } : Tally)) hrec
    have hrec := h.record d bytes
    simp only [step, RuntimeState.addTraffic, SshInboundCounter.addTraffic, hkernel, if_pos hpos]
    refine { hrec with tally := ?_, usage := fun period => ?_ }
    · rw [← hzero t.ssh.tally]
      exact hrec.tally
    · refine (hrec.usage period).trans ?_
      simp only [h.sshUsage, Tallies.get_modify, hzero]
      split
      · rename_i heq
        rw [heq]
      · rfl
  · simp only [step, RuntimeState.addTraffic, SshInboundCounter.addTraffic, if_neg hpos]
    exact hlook.record d bytes

theorem Same.acknowledge (a : TrafficCounterAcknowledgement) :
    Same id (t.step zones (.acknowledge a)) := by
  have hconcerns : RuntimeState.concerns a t.kernel = SshInboundCounter.concerns a t.ssh := by
    simp only [RuntimeState.concerns, SshInboundCounter.concerns, h.policy, h.epoch]
    rfl
  simp only [step, RuntimeState.acknowledge, SshInboundCounter.acknowledge, hconcerns]
  by_cases hc : SshInboundCounter.concerns a t.ssh = true
  · simp only [if_pos hc]
    refine { h with unused := fun e he => h.unused_modify _ he, tally := ?_, usage := fun period => ?_ }
    · rw [Tallies.get_modify, if_pos rfl, h.tally]
    · simp only [h.kernelUsage, h.sshUsage, h.tally, Tallies.get_modify, h.usage]
  · simp only [if_neg hc]
    exact h

theorem Same.step {e : Event} (hb : StaysBillable e) (hc : Clean zones t e) :
    Same id (t.step zones e) := by
  cases e with
  | policy p =>
    have hmerge : mergeRuntimePolicy t.kernel.config.policy p = mergeRuntimePolicy id p := by
      rw [h.policy]
      rfl
    have hbill : Billable (mergeRuntimePolicy id p) := by
      have := h.billable
      rw [h.policy] at this
      exact ⟨hb, this.2⟩
    simp only [Twins.step, RuntimeState.updatePolicy, SshInboundCounter.setPolicy, hmerge]
    rw [h.policy]
    exact h.store hbill _
  | look r => exact h.look hc
  | traffic r d bytes => exact h.traffic hc
  | acknowledge a => exact h.acknowledge a
  | elsewhere period f =>
    refine { h with usage := fun period' => ?_ }
    simp only [Twins.step, Tallies.get_modify, h.usage]

theorem Same.alike : Alike t where
  verdict admitted := by
    have hactive := h.billable.2.2
    have hunack : t.kernel.unacknowledged t.kernelHeap = t.ssh.unacknowledged t.sshHeap := by
      simp only [RuntimeState.unacknowledged, SshInboundCounter.unacknowledged, h.kernelUsage,
        h.sshUsage, h.periodKey, h.usage]
    have hbill : ¬ (!t.kernel.config.policy.billable ||
        decide (t.kernel.config.policy.userID ≤ 0)) = true := by
      simp [h.billable.1, h.billable.2.1]
    simp only [RuntimeState.quotaDeniedFor, RuntimeState.runtimeConfigDenied, ne_eq,
      hactive, not_true_eq_false, if_false, if_neg hbill, hunack]
    rw [h.policy]
    show (if t.ssh.policy.quotaState = "quota_exceeded" then true
      else if t.ssh.policy.trafficLimitBytes ≤ 0 then false
      else decide (effectiveCap t.ssh.policy ≤
        t.ssh.policy.usedBaselineBytes + t.ssh.unacknowledged t.sshHeap)) = _
    simp only [SshInboundCounter.quotaExceeded]
    split
    · rfl
    · split
      · rfl
      · rename_i hlimit
        simp only [effectiveCap, if_neg hlimit]
        cases t.ssh.policy.leaseEnforced <;> rfl
  reports := by
    simp only [RuntimeState.report, SshInboundCounter.report, h.tally]
    split
    · rfl
    · rw [Option.map_some, h.epoch, h.policy]
      rfl
  epoch := h.epoch
  periodKey := by
    rw [h.policy]
    rfl

end

theorem same_start (key user inbound : String) {policy : RuntimeUserLimit} (h : Billable policy) :
    Same policy (start key user inbound policy) where
  billable := h
  policy := rfl
  epoch := rfl
  epochs := rfl
  epoch_lt := Nat.lt_succ_self 0
  unused _ _ := rfl
  tally := rfl
  kernelUsage := rfl
  sshUsage := rfl
  usage _ := rfl

/-- For a billable, active user the two decide the same and report the same in every state of
every run in which no period ends inside itself. -/
theorem same_verdict {key user inbound : String} {policy : RuntimeUserLimit} {es : List Event}
    (hpolicy : Billable policy) (hbillable : ∀ e ∈ es, StaysBillable e)
    (hclean : Run.Along (step zones) (Clean zones) (start key user inbound policy) es) :
    Alike (Run.exec (step zones) (start key user inbound policy) es) := by
  have hstays : Run.Along (step zones) (fun _ e => StaysBillable e)
      (start key user inbound policy) es := Run.Along.of_forall hbillable
  exact (Run.invariant (fun _ _ h hp => h.step hp.1 hp.2) (same_start key user inbound hpolicy)
    (hstays.and hclean)).alike

def sixBytes : RuntimeUserLimit :=
  { userID := 7, billable := true, trafficLimitBytes := 6, periodKey := "1970-01-01"
    periodEnd := "1970-01-10T00:00:00Z" }

def noonOf (day : Int) : Readings := .at ((day * 86400 + 43200) * 1000000000)

def lookedAtOn (day : Int) : List Event :=
  [.traffic (noonOf 4) .upload 6, .look (noonOf day), .acknowledge ⟨some 0, "1970-01-01", ⟨6, 0⟩⟩]

/-- Looked at in February, both have started a new period. -/
theorem same_verdict_in_february :
    Billable sixBytes ∧
      Run.Along (step fun _ => none) (Clean fun _ => none) (start "user:alice" "alice" "" sixBytes)
        (lookedAtOn 45) ∧
      Alike (Run.exec (step fun _ => none) (start "user:alice" "alice" "" sixBytes)
        (lookedAtOn 45)) := by
  have hbill : Billable sixBytes := by decide
  have hclean : Run.Along (step fun _ => none) (Clean fun _ => none)
      (start "user:alice" "alice" "" sixBytes) (lookedAtOn 45) := by decide +kernel
  refine ⟨hbill, hclean, same_verdict hbill ?_ hclean⟩
  intro e he
  simp only [lookedAtOn, List.mem_cons, List.not_mem_nil, or_false] at he
  rcases he with rfl | rfl | rfl <;> trivial

def halfway : Twins :=
  Run.exec (step fun _ => none) (start "user:alice" "alice" "" sixBytes) (lookedAtOn 15)

/-- The kernel has started fresh counters under the same key and the SSH counter has not: the
acknowledgement reaches the one and not the other, and one denies what the other allows. -/
theorem twins_part :
    (Billable sixBytes ∧ ∀ e ∈ lookedAtOn 15, StaysBillable e) ∧
      halfway.kernel.config.counters = 1 ∧ halfway.ssh.epoch = 0 ∧
      halfway.kernel.quotaDeniedFor true halfway.kernelHeap = true ∧
      halfway.ssh.quotaExceeded halfway.sshHeap = false := by
  refine ⟨⟨by decide, fun e he => ?_⟩, by decide +kernel, by decide +kernel, by decide +kernel,
    by decide +kernel⟩
  simp only [lookedAtOn, List.mem_cons, List.not_mem_nil, or_false] at he
  rcases he with rfl | rfl | rfl <;> trivial

end Twins

end OboardAgent.Quota
