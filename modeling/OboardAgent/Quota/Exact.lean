import OboardAgent.Quota.Ssh

/-!
# The verdict in 64 bits

`runtimeConfigDenied` and `quotaExceeded` once more, with every sum as an `int64` holds it. `Used`
is the verdict over unbounded integers, and `Tells` says exactly when the two are the same. A sum
that leaves 64 bits comes out below zero: a user far over the limit is let through, and one whose
lease ends beyond them is denied although nothing was used.
-/

namespace OboardAgent.Quota

open GoStrings (int64)
open Twins (Billable sixBytes)

def maxInt64 : Int := 9223372036854775807

/-- Up to three counters are added, so a sum wraps at most once. -/
theorem int64_sum {x : Int} (h0 : 0 ≤ x) (h : x ≤ 3 * maxInt64) :
    int64 x = if x ≤ maxInt64 then x else x - 18446744073709551616 := by
  unfold maxInt64 at *
  unfold int64 Int.bmod
  simp only [Nat.cast_ofNat]
  split_ifs <;> omega

def Tally.unacknowledged64 (t : Tally) : Int :=
  int64 (positiveDifference t.recorded.upload t.acknowledged.upload +
    positiveDifference t.recorded.download t.acknowledged.download)

def leasedCap64 (p : RuntimeUserLimit) : Int :=
  if p.leaseEnforced then
    let leaseBytes := if p.leaseBytes < 0 then 0 else p.leaseBytes
    let leaseCap := int64 (p.usedBaselineBytes + leaseBytes)
    if leaseCap < p.trafficLimitBytes then leaseCap else p.trafficLimitBytes
  else p.trafficLimitBytes

/-- `quotaExceeded`, of the agent. -/
def quotaExceeded64 (p : RuntimeUserLimit) (t : Tally) : Bool :=
  if p.quotaState = "quota_exceeded" then true
  else if p.trafficLimitBytes ≤ 0 then false
  else leasedCap64 p ≤ int64 (p.usedBaselineBytes + t.unacknowledged64)

/-- `runtimeConfigDenied`, of the kernel. -/
def runtimeConfigDenied64 (p : RuntimeUserLimit) (t : Tally) : Bool :=
  if normalizeCredentialStatus p.credentialStatus ≠ "active" then true
  else if !p.billable || p.userID ≤ 0 then false
  else if p.quotaState = "quota_exceeded" then true
  else if p.trafficLimitBytes ≤ 0 then false
  else leasedCap64 p ≤ int64 (p.usedBaselineBytes + t.unacknowledged64)

/-- What the user may use: the limit, or the smaller of it and the lease's end. -/
def allowance (p : RuntimeUserLimit) : Int :=
  if p.leaseEnforced then min p.trafficLimitBytes (p.usedBaselineBytes + p.leaseBytes)
  else p.trafficLimitBytes

def usedBytes (p : RuntimeUserLimit) (t : Tally) : Int :=
  p.usedBaselineBytes + (max 0 (t.recorded.upload - t.acknowledged.upload) +
    max 0 (t.recorded.download - t.acknowledged.download))

/-- The verdict over unbounded integers. A limit of zero is no limit. -/
def Used (p : RuntimeUserLimit) (t : Tally) : Prop :=
  p.quotaState = "quota_exceeded" ∨ 0 < p.trafficLimitBytes ∧ allowance p ≤ usedBytes p t

def Counter (x : Int) : Prop := 0 ≤ x ∧ x ≤ maxInt64

/-- Every value is one that a counter can have. -/
structure InRange (p : RuntimeUserLimit) (t : Tally) : Prop where
  limit : Counter p.trafficLimitBytes
  baseline : Counter p.usedBaselineBytes
  lease : Counter p.leaseBytes
  recorded : Counter t.recorded.upload ∧ Counter t.recorded.download
  acknowledged : Counter t.acknowledged.upload ∧ Counter t.acknowledged.download

/-- The sums that are compared fit, or come out on the right side although they do not. -/
def Tells (p : RuntimeUserLimit) (t : Tally) : Prop :=
  p.quotaState = "quota_exceeded" ∨ p.trafficLimitBytes = 0 ∨
  if p.leaseEnforced ∧ maxInt64 < p.usedBaselineBytes + p.leaseBytes then
    -- The lease's end is below zero: everything that fits is denied.
    p.trafficLimitBytes ≤ usedBytes p t ∧ (usedBytes p t ≤ maxInt64 ∨
      p.usedBaselineBytes + p.leaseBytes ≤ usedBytes p t ∨ 18446744073709551616 ≤ usedBytes p t)
  else
    -- What was used is below zero, and denied only when it has come round to the allowance again.
    usedBytes p t ≤ maxInt64 ∨ 18446744073709551616 + allowance p ≤ usedBytes p t

instance (p : RuntimeUserLimit) (t : Tally) : Decidable (Used p t) :=
  inferInstanceAs (Decidable (_ ∨ _ ∧ _))

instance (x : Int) : Decidable (Counter x) := inferInstanceAs (Decidable (_ ∧ _))

instance (p : RuntimeUserLimit) (t : Tally) : Decidable (Tells p t) :=
  inferInstanceAs (Decidable (_ ∨ _ ∨ ite _ _ _))

variable {p : RuntimeUserLimit} {t : Tally}

theorem InRange.used64 (h : InRange p t) :
    0 ≤ usedBytes p t ∧ usedBytes p t ≤ 3 * maxInt64 ∧
    int64 (p.usedBaselineBytes + t.unacknowledged64) =
      if usedBytes p t ≤ maxInt64 then usedBytes p t else usedBytes p t - 18446744073709551616 := by
  obtain ⟨-, ⟨hb0, hb⟩, -, ⟨⟨hu0, hu⟩, hd0, hd⟩, ⟨hau0, hau⟩, had0, had⟩ := h
  have hrange : 0 ≤ usedBytes p t ∧ usedBytes p t ≤ 3 * maxInt64 := by
    unfold usedBytes
    omega
  refine ⟨hrange.1, hrange.2, ?_⟩
  have hsum : int64 (p.usedBaselineBytes + t.unacknowledged64) = int64 (usedBytes p t) := by
    have hdiff : ∀ a b, positiveDifference a b = max 0 (a - b) := by
      intro a b
      unfold positiveDifference
      split <;> omega
    unfold Tally.unacknowledged64 usedBytes
    rw [hdiff, hdiff]
    exact Int.add_bmod_bmod
  rw [hsum, int64_sum hrange.1 hrange.2]

theorem InRange.leasedCap64 (h : InRange p t) : leasedCap64 p =
    if p.leaseEnforced ∧ maxInt64 < p.usedBaselineBytes + p.leaseBytes then
      p.usedBaselineBytes + p.leaseBytes - 18446744073709551616
    else allowance p := by
  obtain ⟨⟨hl0, hl⟩, ⟨hb0, hb⟩, ⟨hlease0, hlease⟩, -, -⟩ := h
  unfold Quota.leasedCap64 allowance
  rw [if_neg (not_lt.mpr hlease0)]
  simp only [int64_sum (add_nonneg hb0 hlease0) (by omega)]
  unfold maxInt64 at *
  cases p.leaseEnforced with
  | false => simp
  | true => simp only [true_and, if_true]; split_ifs <;> omega

/-- **The verdict is exact where the sums tell.** Kernel and agent deny a billable, active user
exactly when the quota is used, on every policy and all counters for which the condition holds, and
on no others. -/
theorem denied_iff_used (p : RuntimeUserLimit) (t : Tally) (hbill : Billable p) (h : InRange p t) :
    ((runtimeConfigDenied64 p t = true ↔ Used p t) ∧ (quotaExceeded64 p t = true ↔ Used p t)) ↔
      Tells p t := by
  have hkernel : runtimeConfigDenied64 p t = quotaExceeded64 p t := by
    obtain ⟨hb, hu, hs⟩ := hbill
    simp [runtimeConfigDenied64, quotaExceeded64, hb, hs, not_le.mpr hu]
  rw [hkernel, and_self_iff]
  obtain ⟨hused0, hused3, hused⟩ := h.used64
  have hlimit := h.limit
  have hbaseline := h.baseline
  have hlease := h.lease
  unfold quotaExceeded64 Used Tells
  rw [hused, h.leasedCap64]
  by_cases hstate : p.quotaState = "quota_exceeded"
  · simp [hstate]
  by_cases hzero : p.trafficLimitBytes = 0
  · simp [hstate, hzero]
  have hpos : 0 < p.trafficLimitBytes := lt_of_le_of_ne hlimit.1 (Ne.symm hzero)
  have hallow : 0 ≤ allowance p ∧ allowance p ≤ p.trafficLimitBytes := by
    unfold allowance Counter at *
    split <;> omega
  simp only [hstate, hzero, if_false, not_le.mpr hpos, false_or, hpos, true_and, decide_eq_true_eq]
  have hcap : p.leaseEnforced = true ∧ maxInt64 < p.usedBaselineBytes + p.leaseBytes →
      allowance p = p.trafficLimitBytes := by
    rintro ⟨henforced, hwraps⟩
    unfold allowance Counter at *
    rw [if_pos henforced]
    omega
  unfold Counter maxInt64 at *
  split_ifs with hleased hfits
  · rw [hcap hleased]
    omega
  · rw [hcap hleased]
    omega
  · omega
  · omega

/-- Five of six bytes are used, and then all of them. -/
theorem denied_at_the_sixth_byte :
    quotaExceeded64 { sixBytes with usedBaselineBytes := 5 } {} = false ∧
      quotaExceeded64 sixBytes { recorded := ⟨4, 2⟩ } = true := by
  have hfive := (denied_iff_used { sixBytes with usedBaselineBytes := 5 } {} (by decide)
    ⟨by decide, by decide, by decide, by decide, by decide⟩).mpr (by decide)
  have hsix := (denied_iff_used sixBytes { recorded := ⟨4, 2⟩ } (by decide)
    ⟨by decide, by decide, by decide, by decide, by decide⟩).mpr (by decide)
  exact ⟨Bool.eq_false_iff.mpr fun h => absurd (hfive.2.mp h) (by decide), hsix.2.mpr (by decide)⟩

/-- A sum beyond 64 bits flips the verdict both ways: one byte more than can be counted is let
through, and with a lease that ends beyond them a user who has used nothing is denied. -/
theorem sums_wrap_both_ways :
    let full := { sixBytes with trafficLimitBytes := maxInt64, usedBaselineBytes := maxInt64 }
    let one : Tally := { recorded := ⟨1, 0⟩ }
    let leased := { sixBytes with trafficLimitBytes := maxInt64, usedBaselineBytes := 1
                                  leaseEnforced := true, leaseBytes := maxInt64 }
    (Billable full ∧ InRange full one ∧ Used full one ∧
      runtimeConfigDenied64 full one = false ∧ quotaExceeded64 full one = false) ∧
    (Billable leased ∧ InRange leased {} ∧ ¬Used leased {} ∧
      runtimeConfigDenied64 leased {} = true ∧ quotaExceeded64 leased {} = true) := by
  refine ⟨⟨by decide, ⟨by decide, by decide, by decide, by decide, by decide⟩, by decide⟩,
    by decide, ⟨by decide, by decide, by decide, by decide, by decide⟩, by decide⟩

end OboardAgent.Quota
