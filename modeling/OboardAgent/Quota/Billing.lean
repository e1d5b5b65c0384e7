import OboardAgent.Quota.Runs

/-!
# What quota counts, against what was billed

The amount the kernel adds to a policy's baseline should be the bytes recorded for the user in
the period at hand that the Controller has not acknowledged yet.

A usage follows its counters: bytes go to the usage of the period they are recorded in, and an
acknowledgement goes to the usage of the period it arrives in. The two are the same period unless
counters with unacknowledged bytes are carried under another key, or an acknowledgement arrives
when its counters are gone. `Careful` runs do neither.
-/

namespace OboardAgent.Quota

open Traffic (Counters)
open RateLimitTracker (owner Wired)
open Finset (range)

namespace World

/-! ## Careful runs -/

/-- The acknowledgement is of a value that was reported, under the epoch and the period it was
reported with. -/
def Genuine (w : World) : Event → Prop
  | .acknowledge key a =>
    ∃ c ∈ w.reports, c.key = key ∧ a = ⟨some c.counterEpoch, c.periodKey, c.value⟩
  | _ => True

/-- Nothing the state has recorded is waiting for an acknowledgement. -/
def Settled (h : Heap) (s : RuntimeState) : Prop :=
  (h.counters.get s.config.counters).recorded = (h.counters.get s.config.counters).acknowledged

/-- No event carries unacknowledged bytes under another key: where a policy or an ended period
brings another one, the counters are fresh or settled. None moves a state to another user, and no
acknowledgement that covers bytes comes too late to be taken notice of. -/
def Careful (zones : Zones) (w : World) : Event → Prop
  | .policy key p =>
    ∀ s ∈ w.lookup key,
      s.Replaces p ∨ p.periodKey = s.config.policy.periodKey ∨ Settled w.heap s
  | .touch key r | .traffic key r _ | .snapshot key r =>
    ∀ s ∈ w.lookup key, r.expired s.config.policy = true →
      s.RollsOver r ∨
      (RuntimeState.rolledOver zones r.window s.config.policy).periodKey
        = s.config.policy.periodKey ∨
      Settled w.heap s
  | .install entry =>
    ∀ s ∈ w.lookup ("user:" ++ GoStrings.trimSpace entry.authUser),
      0 < entry.scopedPolicy.userID → entry.scopedPolicy.userID = owner s
  | .acknowledge key a =>
    ∀ e ∈ a.counterEpoch, (∃ s ∈ w.lookup key, s.concerns a = true) ∨
      ∀ d, (side a.value d).toNat ≤ (w.ledger e d).acked

instance (w : World) : ∀ e, Decidable (w.Genuine e)
  | .acknowledge key a =>
    inferInstanceAs (Decidable
      (∃ c ∈ w.reports, c.key = key ∧ a = ⟨some c.counterEpoch, c.periodKey, c.value⟩))
  | .policy .. | .touch .. | .traffic .. | .snapshot .. | .install .. => .isTrue trivial

instance (h : Heap) (s : RuntimeState) : Decidable (Settled h s) :=
  inferInstanceAs (Decidable (_ = _))

instance (zones : Zones) (w : World) : ∀ e, Decidable (w.Careful zones e)
  | .policy .. => inferInstanceAs (Decidable (∀ s ∈ w.lookup _, _ ∨ _ ∨ _))
  | .touch .. | .traffic .. | .snapshot .. =>
    inferInstanceAs (Decidable (∀ s ∈ w.lookup _, _ → _ ∨ _ ∨ _))
  | .install .. => inferInstanceAs (Decidable (∀ s ∈ w.lookup _, _ → _ = _))
  | .acknowledge key a =>
    inferInstanceAs (Decidable (∀ e ∈ a.counterEpoch, (∃ s ∈ w.lookup key, s.concerns a = true) ∨
      ∀ d, (side a.value d).toNat ≤ (w.ledger e d).acked))

/-- What the totals ask of a stored policy. -/
def Carries (h : Heap) (s s' : RuntimeState) : Prop :=
  owner s' = owner s ∧
    (s'.config.counters ≠ s.config.counters ∨
      s'.config.policy.periodKey = s.config.policy.periodKey ∨ Settled h s)

variable {t : RateLimitTracker} {k : String} {s : RuntimeState}

theorem carries_updatePolicy (hw : Wired t) (hs : t.states.lookup k = some s)
    {p q : RuntimeUserLimit} (hkey : q.periodKey = p.periodKey)
    (hprev : q.previousPeriodKey = p.previousPeriodKey) (huser : q.userID = owner s)
    (h : s.Replaces p ∨ p.periodKey = s.config.policy.periodKey ∨ Settled t.heap s) :
    Carries t.heap s (s.updatePolicy q t.heap).1 := by
  have hpolicy : (s.updatePolicy q t.heap).1.config.policy = q := by
    simp only [RuntimeState.updatePolicy, RuntimeState.storePolicyLocked]
    split <;> rfl
  refine ⟨(congrArg RuntimeUserLimit.userID hpolicy).trans huser, h.imp (fun hrep => ?_) ?_⟩
  · have hrep : s.Replaces q := by
      rw [RuntimeState.Replaces, hkey, hprev]
      exact hrep
    rw [RuntimeState.updatePolicy_counters, if_pos hrep]
    exact Nat.ne_of_gt (hw.epoch_lt hs)
  · rw [hpolicy, hkey]
    exact id

theorem carries_currentConfig (hw : Wired t) (hs : t.states.lookup k = some s) {zones : Zones}
    {r : Readings}
    (h : r.expired s.config.policy = true → s.RollsOver r ∨
      (RuntimeState.rolledOver zones r.window s.config.policy).periodKey
        = s.config.policy.periodKey ∨ Settled t.heap s) :
    Carries t.heap s (s.currentConfig zones r t.heap).1 := by
  by_cases hexp : r.expired s.config.policy = true
  · have hpolicy : (s.currentConfig zones r t.heap).1.config.policy
        = RuntimeState.rolledOver zones r.window s.config.policy := by
      simp only [RuntimeState.currentConfig, if_pos hexp, RuntimeState.storePolicyLocked]
      split <;> rfl
    refine ⟨?_, (h hexp).imp (fun hroll => ?_) ?_⟩
    · show (RuntimeState.currentConfig zones r s t.heap).1.config.policy.userID = owner s
      rw [hpolicy]
      rfl
    · rw [RuntimeState.currentConfig_counters, if_pos hroll]
      exact Nat.ne_of_gt (hw.epoch_lt hs)
    · rw [hpolicy]
      exact id
  · simp only [RuntimeState.currentConfig, if_neg hexp]
    exact ⟨rfl, Or.inr (Or.inl rfl)⟩

/-! ## The totals are right -/

structure Booked (w : World) : Prop where
  recorded : ∀ e d, side (w.heap.counters.get e).recorded d = (w.ledger e d).items.length
  acknowledged : ∀ e d, side (w.heap.counters.get e).acknowledged d = (w.ledger e d).acked
  acked_le : ∀ e d, (w.ledger e d).acked ≤ (w.ledger e d).items.length
  unused : ∀ e d, w.heap.epochs ≤ e → (w.ledger e d).items = []
  uniform : ∀ {k s}, w.lookup k = some s → ∀ d, (w.ledger s.config.counters d).Uniform s.account
  owned : ∀ e d, ∀ x ∈ (w.ledger e d).items, ∃ k s, w.lookup k = some s ∧ owner s = x.1
  usage_unused : ∀ u period, w.tracker.usages ≤ u → w.heap.usage.get (u, period) = {}
  balance : ∀ {k s u}, w.lookup k = some s → s.usage = some u → ∀ period d,
    side (w.heap.usage.get (u, period)).recorded d -
      side (w.heap.usage.get (u, period)).acknowledged d = w.pending d (owner s, period)
  reported : ∀ c ∈ w.reports, ∀ d, 0 ≤ side c.value d ∧
    side c.value d ≤ side (w.heap.counters.get c.counterEpoch).recorded d

theorem Booked.unacknowledged {w : World} (hb : Booked w) (hw : Wired w.tracker) {key : String}
    (hs : w.lookup key = some s) (huser : 0 < owner s) :
    s.unacknowledged w.heap = w.outstanding s.account := by
  obtain ⟨u, hu⟩ := Option.isSome_iff_exists.mp ((hw.usage_iff hs).mpr huser)
  have hup := hb.balance hs hu s.config.policy.periodKey .upload
  have hdown := hb.balance hs hu s.config.policy.periodKey .download
  simp only [side] at hup hdown
  simp only [RuntimeState.unacknowledged, hu, Tally.unacknowledged, positiveDifference,
    outstanding, RuntimeState.account]
  split <;> split <;> omega

variable {w : World} {key : String}

theorem Booked.pending_unused (hb : Booked w) {e : Nat} (he : w.heap.epochs ≤ e) (d : Direction)
    (account : Account) : (w.ledger e d).pending.count account = 0 := by
  rw [AckLog.pending, hb.unused e d he, List.drop_nil]
  rfl

theorem Booked.uniform_unused (hb : Booked w) (d : Direction) (account : Account) :
    (w.ledger w.heap.epochs d).Uniform account := by
  refine AckLog.uniform_of_settled ?_ account
  rw [hb.unused _ d (Nat.le_refl _)]
  exact Nat.zero_le _

theorem Booked.rewrite (hb : Booked w) {x : RuntimeState × Heap}
    (hs : w.lookup key = some s) (hx : RuntimeState.Rewrites s w.heap x)
    (hc : Carries w.heap s x.1) : Booked { w with tracker := w.tracker.put key x } := by
  have hcounters : x.2.counters = w.heap.counters := hx.heap_counters
  have husage : x.2.usage = w.heap.usage := hx.heap_usage
  have hpending : ∀ d account,
      World.pending { w with tracker := w.tracker.put key x } d account = w.pending d account := by
    intro d account
    cases hx with
    | keep p => rfl
    | fresh p =>
      show ∑ e ∈ range (w.heap.epochs + 1), _ = _
      rw [Finset.sum_range_succ, hb.pending_unused (Nat.le_refl _) d account, Nat.add_zero]
      rfl
  constructor
  · exact fun e d => (congrArg (fun m => side (Tallies.get m e).recorded d) hcounters).trans
      (hb.recorded e d)
  · exact fun e d => (congrArg (fun m => side (Tallies.get m e).acknowledged d) hcounters).trans
      (hb.acknowledged e d)
  · exact hb.acked_le
  · exact fun e d he => hb.unused e d (Nat.le_trans hx.epochs_le he)
  · intro k s' hk d
    rcases GoMap.lookup_of_insert hk with ⟨-, rfl⟩ | hk
    · obtain ⟨hid, hcarry⟩ := hc
      cases hx with
      | fresh p => exact hb.uniform_unused d _
      | keep p =>
        rcases hcarry with hne | hperiod | hsettled
        · exact absurd rfl hne
        · have haccount : ({ s with config := ⟨p, s.config.counters⟩ } : RuntimeState).account
              = s.account := Prod.ext hid hperiod
          rw [haccount]
          exact hb.uniform hs d
        · refine AckLog.uniform_of_settled ?_ _
          have hr := hb.recorded s.config.counters d
          have ha := hb.acknowledged s.config.counters d
          rw [hsettled] at hr
          show (w.ledger s.config.counters d).items.length ≤ (w.ledger s.config.counters d).acked
          omega
    · exact hb.uniform hk d
  · intro e d y hy
    obtain ⟨k, s', hk, hid⟩ := hb.owned e d y hy
    by_cases hkey : k = key
    · have hsame : s' = s := by
        rw [hkey, hs] at hk
        exact (Option.some.inj hk).symm
      exact ⟨key, x.1, by simp [lookup], by rw [hc.1, ← hid, hsame]⟩
    · exact ⟨k, s', by simpa [lookup, hkey] using hk, hid⟩
  · intro u period hu
    show x.2.usage.get (u, period) = {}
    rw [husage]
    exact hb.usage_unused u period hu
  · intro k s' u hk hu period d
    rw [hpending]
    show side (x.2.usage.get (u, period)).recorded d - side (x.2.usage.get (u, period)).acknowledged d = _
    rw [husage]
    rcases GoMap.lookup_of_insert hk with ⟨-, rfl⟩ | hk
    · rw [hc.1]
      exact hb.balance hs (hx.usage ▸ hu) period d
    · exact hb.balance hk hu period d
  · intro c hmem d
    show _ ∧ _ ≤ side (x.2.counters.get c.counterEpoch).recorded d
    rw [hcounters]
    exact hb.reported c hmem d

theorem Booked.update (hb : Booked w) (hw : Wired w.tracker) (hs : w.lookup key = some s) {h : Heap}
    {ledger : Ledger} (hepochs : h.epochs = w.heap.epochs)
    (hothers : ∀ e, e ≠ s.config.counters → h.counters.get e = w.heap.counters.get e ∧ ledger e = w.ledger e)
    (hrecorded : ∀ d, side (h.counters.get s.config.counters).recorded d
      = (ledger s.config.counters d).items.length)
    (hacked : ∀ d, side (h.counters.get s.config.counters).acknowledged d
      = (ledger s.config.counters d).acked ∧
      (ledger s.config.counters d).acked ≤ (ledger s.config.counters d).items.length)
    (huniform : ∀ d, (ledger s.config.counters d).Uniform s.account)
    (hgrows : ∀ d, ∃ n, (ledger s.config.counters d).items
      = (w.ledger s.config.counters d).items ++ List.replicate n s.account)
    (hunused : ∀ v period, w.tracker.usages ≤ v → h.usage.get (v, period) = {})
    (hbalance : ∀ {k s' v}, w.lookup k = some s' → s'.usage = some v → ∀ period d,
      side (h.usage.get (v, period)).recorded d - side (h.usage.get (v, period)).acknowledged d =
        ledger.pending w.heap.epochs d (owner s', period)) :
    Booked { w with tracker := { w.tracker with heap := h }, ledger := ledger } where
  recorded e d := by
    by_cases he : e = s.config.counters
    · exact he ▸ hrecorded d
    · simpa only [World.heap, hothers e he] using hb.recorded e d
  acknowledged e d := by
    by_cases he : e = s.config.counters
    · exact he ▸ (hacked d).1
    · simpa only [World.heap, hothers e he] using hb.acknowledged e d
  acked_le e d := by
    by_cases he : e = s.config.counters
    · exact he ▸ (hacked d).2
    · simpa only [hothers e he] using hb.acked_le e d
  unused e d he := by
    have hle : w.heap.epochs ≤ e := hepochs ▸ he
    have hne : e ≠ s.config.counters := fun h => absurd (h ▸ hw.epoch_lt hs) (Nat.not_lt.mpr hle)
    simpa only [hothers e hne] using hb.unused e d hle
  uniform {k s'} hk d := by
    by_cases he : s'.config.counters = s.config.counters
    · obtain rfl := hw.epoch_inj hk hs he
      obtain rfl : s' = s := Option.some.inj (hk.symm.trans hs)
      exact huniform d
    · simpa only [hothers _ he] using hb.uniform hk d
  owned e d x hx := by
    by_cases he : e = s.config.counters
    · subst he
      obtain ⟨n, hn⟩ := hgrows d
      rw [hn, List.mem_append] at hx
      rcases hx with hold | hnew
      · exact hb.owned _ d x hold
      · exact ⟨key, s, hs, by rw [List.eq_of_mem_replicate hnew]; rfl⟩
    · simp only [hothers e he] at hx
      exact hb.owned e d x hx
  usage_unused := hunused
  balance hk hv period d := by
    simp only [pending, World.heap, hepochs]
    exact hbalance hk hv period d
  reported c hc d := by
    obtain ⟨hnonneg, hle⟩ := hb.reported c hc d
    refine ⟨hnonneg, ?_⟩
    by_cases he : c.counterEpoch = s.config.counters
    · obtain ⟨n, hn⟩ := hgrows d
      have hgrown := congrArg List.length hn
      have hold := hb.recorded s.config.counters d
      simp only [World.heap, he, hrecorded, List.length_append] at hle hold hgrown ⊢
      omega
    · simpa only [World.heap, hothers _ he] using hle

theorem usage_eq_iff (hw : Wired w.tracker) (hs : w.lookup key = some s) {u v : Nat}
    (hu : s.usage = some u) {k : String}
    {s' : RuntimeState} (hk : w.lookup k = some s') (hv : s'.usage = some v) (period : String) :
    (v, period) = (u, s.config.policy.periodKey) ↔ (owner s', period) = s.account := by
  simp only [RuntimeState.account, Prod.mk.injEq]
  refine and_congr_left fun _ => ?_
  rw [← hw.shared hs hk hu, hv, Option.some.injEq]

theorem Booked.enter (hb : Booked w) (hw : Wired w.tracker) {u : Nat}
    (hs : w.lookup key = some s) (hu : s.usage = some u) (amount : Counters) :
    Booked { w with
        tracker := { w.tracker with heap := { w.heap with
          counters := w.heap.counters.modify s.config.counters (·.record amount)
          usage := w.heap.usage.modify (u, s.config.policy.periodKey) (·.record amount) } }
        ledger := w.ledger.record s.config.counters s.account amount } := by
  have hself : ∀ d, w.ledger.record s.config.counters s.account amount s.config.counters d =
      (w.ledger s.config.counters d).push (side amount d).toNat s.account := fun d => if_pos rfl
  refine hb.update hw hs rfl (fun e he => ?_) (fun d => ?_) (fun d => ?_) (fun d => ?_)
    (fun d => ⟨(side amount d).toNat, by rw [hself]; rfl⟩) (fun v period hv => ?_)
      (fun {k s' v} hk hv period d => ?_)
  · exact ⟨by simp only [Tallies.get_modify, if_neg he], funext fun d => if_neg he⟩
  · have hr := hb.recorded s.config.counters d
    simp only [hself, Tallies.get_modify, if_true, Tally.side_record, AckLog.push,
      List.length_append, List.length_replicate]
    omega
  · have hle := hb.acked_le s.config.counters d
    have ha := hb.acknowledged s.config.counters d
    simp only [hself, Tallies.get_modify, if_true, Tally.record, AckLog.push, List.length_append]
    exact ⟨ha, by omega⟩
  · rw [hself]
    exact (hb.uniform hs d).push (hb.acked_le _ d) _
  · have hne : (v, period) ≠ (u, s.config.policy.periodKey) := fun h =>
      absurd (hw.usage_lt hs hu) (Nat.not_lt.mpr ((Prod.mk.inj h).1 ▸ hv))
    simpa only [Tallies.get_modify, if_neg hne] using hb.usage_unused v period hv
  · have hbal := hb.balance hk hv period d
    have hiff := usage_eq_iff hw hs hu hk hv period
    rw [Ledger.pending_record (hw.epoch_lt hs) (hb.acked_le s.config.counters d) s.account
      (owner s', period) amount]
    simp only [pending, World.heap] at hbal ⊢
    by_cases hsame : (v, period) = (u, s.config.policy.periodKey)
    · rw [if_pos (hiff.mp hsame), Tallies.get_modify, if_pos hsame, ← hsame, Tally.side_record]
      simp only [Tally.record]
      omega
    · rw [if_neg (fun h => hsame (hiff.mpr h)), Tallies.get_modify, if_neg hsame, hbal, Int.add_zero]

theorem Booked.settle (hb : Booked w) (hw : Wired w.tracker)
    (hs : w.lookup key = some s) {a : TrafficCounterAcknowledgement}
    (ha : a.counterEpoch = some s.config.counters) (hc : s.concerns a = true)
    (hval : ∀ d, 0 ≤ side a.value d ∧
      side a.value d ≤ side (w.heap.counters.get s.config.counters).recorded d) :
    Booked { w with
        tracker := { w.tracker with heap := s.acknowledge a w.heap }
        ledger := w.ledger.cover a } := by
  have hperiod : s.config.policy.periodKey = a.periodKey := by
    simp only [RuntimeState.concerns, Bool.and_eq_true, decide_eq_true_eq] at hc
    exact hc.1.2
  have hself : ∀ d, w.ledger.cover a s.config.counters d =
      (w.ledger s.config.counters d).ack (side a.value d).toNat := fun d => if_pos ha
  have hlen : ∀ d, (side a.value d).toNat ≤ (w.ledger s.config.counters d).items.length := by
    intro d
    have hle := (hval d).2
    have hr := hb.recorded s.config.counters d
    omega
  -- The mark of the counters is the mark of the ledger.
  have hmark : ∀ d, side ((w.heap.counters.get s.config.counters).acknowledge a.value).acknowledged d
      = max (w.ledger s.config.counters d).acked (side a.value d).toNat := by
    intro d
    rw [Tally.acknowledge, side_both, Tally.mark_eq_max (hval d).1 (hval d).2,
      hb.acknowledged s.config.counters d]
    have := (hval d).1
    omega
  simp only [RuntimeState.acknowledge, if_pos hc]
  refine hb.update hw hs rfl (fun e he => ?_) (fun d => ?_) (fun d => ?_) (fun d => ?_)
    (fun d => ⟨0, by rw [hself]; simp [AckLog.ack]⟩) (fun v period hv => ?_)
      (fun {k s' v} hk hv period d => ?_)
  · have hne : a.counterEpoch ≠ some e := fun h => he (Option.some.inj (h.symm.trans ha))
    exact ⟨by simp only [Tallies.get_modify, if_neg he], funext fun d => if_neg hne⟩
  · rw [hself, Tallies.get_modify, if_pos rfl]
    exact hb.recorded s.config.counters d
  · rw [hself, Tallies.get_modify, if_pos rfl]
    exact ⟨hmark d, Nat.max_le.mpr ⟨hb.acked_le _ d, hlen d⟩⟩
  · rw [hself]
    exact (hb.uniform hs d).ack _
  · cases hu : s.usage with
    | none => exact hb.usage_unused v period hv
    | some u =>
      have hne : (v, period) ≠ (u, a.periodKey) := fun h =>
        absurd (hw.usage_lt hs hu) (Nat.not_lt.mpr ((Prod.mk.inj h).1 ▸ hv))
      simpa only [Tallies.get_modify, if_neg hne] using hb.usage_unused v period hv
  · have hbal := hb.balance hk hv period d
    rw [Ledger.pending_cover (hw.epoch_lt hs) (hb.uniform hs d) ha (hlen d) (hb.acked_le s.config.counters d)
      (owner s', period)]
    simp only [pending, World.heap] at hbal ⊢
    cases hu : s.usage with
    | none =>
      -- Bytes without a usage are of no user; the account of a state with a usage is another.
      have hne : (owner s', period) ≠ s.account := by
        intro h
        have hpos := (hw.usage_iff hk).mp (by simp [hv])
        have hnone := (hw.usage_iff hs).mpr ((Prod.mk.inj h).1 ▸ hpos)
        rw [hu] at hnone
        cases hnone
      rw [if_neg hne, Int.sub_zero]
      exact hbal
    | some u =>
      have hiff := usage_eq_iff hw hs hu hk hv period
      rw [hperiod] at hiff
      by_cases hsame : (v, period) = (u, a.periodKey)
      · rw [if_pos (hiff.mp hsame), Tallies.get_modify, if_pos hsame, ← hsame]
        simp only [Tally.follow, side_both]
        rw [hmark d, hb.acknowledged s.config.counters d]
        omega
      · rw [if_neg (fun h => hsame (hiff.mpr h)), Tallies.get_modify, if_neg hsame, hbal,
          Int.sub_zero]

theorem Booked.create (hb : Booked w) (hw : Wired w.tracker) (hnone : w.lookup key = none)
    (name inbound : String) (p : RuntimeUserLimit) :
    Booked { w with tracker := w.tracker.create key name inbound p } := by
  obtain ⟨hsome, hle, hjoin⟩ := hw.joined p.userID
  rw [RateLimitTracker.create_eq]
  have hpending : ∀ d account,
      w.ledger.pending (w.heap.epochs + 1) d account = w.pending d account := by
    intro d account
    show ∑ e ∈ range (w.heap.epochs + 1), _ = _
    rw [Finset.sum_range_succ, hb.pending_unused (Nat.le_refl _) d account, Nat.add_zero]
    rfl
  constructor
  · exact hb.recorded
  · exact hb.acknowledged
  · exact hb.acked_le
  · exact fun e d he => hb.unused e d (Nat.le_of_succ_le he)
  · intro k s hk d
    rcases GoMap.lookup_of_insert hk with ⟨-, rfl⟩ | hk
    · exact hb.uniform_unused d _
    · exact hb.uniform hk d
  · intro e d x hx
    obtain ⟨k, s, hk, hid⟩ := hb.owned e d x hx
    have hne : k ≠ key := fun h => absurd (hnone.symm.trans (h ▸ hk)) (by simp)
    exact ⟨k, s, by simpa [lookup, hne] using hk, hid⟩
  · exact fun u period hu => hb.usage_unused u period (Nat.le_trans hle hu)
  · intro k s u hk hu period d
    show side (w.heap.usage.get (u, period)).recorded d -
      side (w.heap.usage.get (u, period)).acknowledged d
      = (w.ledger.pending (w.heap.epochs + 1) d _ : Int)
    rw [hpending]
    rcases GoMap.lookup_of_insert hk with ⟨-, rfl⟩ | hk
    · obtain ⟨-, hshared, hfound | hfresh⟩ := hjoin u hu
      · obtain ⟨k', s', hk', hu'⟩ := hfound
        have hid : owner s' = p.userID := (hshared hk').mp hu'
        show _ = (w.pending d (p.userID, period) : Int)
        rw [← hid]
        exact hb.balance hk' hu' period d
      · -- A user without a state has no bytes in the ledger.
        have hzero : w.pending d (p.userID, period) = 0 := by
          refine Ledger.pending_eq_zero fun e hmem => ?_
          obtain ⟨k', s', hk', hid⟩ := hb.owned e d _ hmem
          have hused := hw.usage_lt hk' ((hshared hk').mpr hid)
          omega
        show _ = (w.pending d (p.userID, period) : Int)
        rw [hzero, hb.usage_unused u period hfresh]
        simp
    · exact hb.balance hk hu period d
  · exact hb.reported

/-- The wiring and the totals, together. -/
structure Sound (w : World) : Prop where
  wired : Wired w.tracker
  booked : Booked w

section

variable (h : Sound w)
include h

theorem Sound.rewrite {x : RuntimeState × Heap}
    (hs : w.lookup key = some s) (hx : RuntimeState.Rewrites s w.heap x)
    (hc : Carries w.heap s x.1) : Sound { w with tracker := w.tracker.put key x } :=
  ⟨h.wired.rewrite hs hx hc.1, h.booked.rewrite hs hx hc⟩

theorem Sound.onState {f : RuntimeState → Heap → RuntimeState × Heap}
    (hf : ∀ s, RuntimeState.Rewrites s w.heap (f s w.heap))
    (hc : ∀ s ∈ w.lookup key, Carries w.heap s (f s w.heap).1) :
    Sound { w with tracker := w.tracker.onState key f } := by
  unfold RateLimitTracker.onState
  split
  · exact h
  · rename_i s hs
    exact h.rewrite hs (hf s) (hc s hs)

theorem Sound.same (hs : w.lookup key = some s) :
    Sound { w with tracker := w.tracker.put key (s, w.heap) } :=
  h.rewrite hs (.keep s.config.policy) ⟨rfl, Or.inr (Or.inl rfl)⟩

theorem Sound.record (key : String) (amount : Counters) : Sound (w.record key amount) := by
  unfold World.record
  split
  · exact h
  · rename_i s hs
    have hsame := h.same hs
    by_cases hbill : (!s.config.policy.billable || decide (owner s ≤ 0)) = true
    · simpa only [RuntimeState.record, if_pos hbill] using hsame
    · have hpos : 0 < owner s := by
        simp only [Bool.or_eq_true, decide_eq_true_eq, not_or] at hbill
        omega
      obtain ⟨u, hu⟩ := Option.isSome_iff_exists.mp ((h.wired.usage_iff hs).mpr hpos)
      simp only [RuntimeState.record, if_neg hbill, hu]
      exact ⟨hsame.wired.heap rfl, hsame.booked.enter hsame.wired
        (show World.lookup _ key = some s by simp [lookup]) hu amount⟩

theorem Sound.touch {zones : Zones} {r : Readings} (hc : w.Careful zones (.touch key r)) :
    Sound { w with tracker := w.tracker.touch zones key r } :=
  h.onState (fun s => RuntimeState.currentConfig_rewrites zones r s w.heap)
    fun s hs => carries_currentConfig h.wired hs (hc s hs)

theorem Sound.report (key : String) :
    Sound { w with reports := w.reports ++ ((w.lookup key).bind fun s => s.report w.heap).toList } := by
  refine ⟨h.wired, { h.booked with reported := ?_ }⟩
  intro c hmem d
  rw [List.mem_append] at hmem
  cases hmem with
  | inl hold => exact h.booked.reported c hold d
  | inr hnew =>
    rw [Option.mem_toList, Option.bind_eq_some_iff] at hnew
    obtain ⟨s, -, hc⟩ := hnew
    simp only [RuntimeState.report] at hc
    split at hc
    · cases hc
    · obtain rfl := Option.some.inj hc
      refine ⟨?_, Int.le_refl _⟩
      show 0 ≤ side (w.heap.counters.get s.config.counters).recorded d
      rw [h.booked.recorded]
      exact Int.natCast_nonneg _

theorem Sound.acknowledge {a : TrafficCounterAcknowledgement} (hg : Genuine w (.acknowledge key a))
    (hlate : ∀ e ∈ a.counterEpoch, (∃ s ∈ w.lookup key, s.concerns a = true) ∨
      ∀ d, (side a.value d).toNat ≤ (w.ledger e d).acked) :
    Sound
      { w with
        tracker := w.tracker.onState key fun s h => (s, s.acknowledge a h)
        ledger := w.ledger.cover a } := by
  obtain ⟨c, hmem, -, rfl⟩ := hg
  by_cases hc : ∃ s ∈ w.lookup key, s.concerns ⟨some c.counterEpoch, c.periodKey, c.value⟩ = true
  · obtain ⟨s, hs, hconcerns⟩ := hc
    have hepoch : c.counterEpoch = s.config.counters := by
      simp only [RuntimeState.concerns, Bool.and_eq_true, decide_eq_true_eq] at hconcerns
      exact hconcerns.2
    have hsame := h.same hs
    have hs' : w.tracker.states.lookup key = some s := hs
    have hepochs : ∀ b, (s.acknowledge b w.heap).epochs = w.heap.epochs := by
      intro b
      unfold RuntimeState.acknowledge
      split <;> rfl
    simp only [RateLimitTracker.onState, hs']
    refine ⟨hsame.wired.heap (hepochs _), ?_⟩
    refine hsame.booked.settle hsame.wired (show World.lookup _ key = some s by simp [lookup])
      (by rw [hepoch]) hconcerns ?_
    exact fun d => hepoch ▸ h.booked.reported c hmem d
  · -- The tracker takes no notice, and the ledger has nothing left to cover.
    have hcovered := (hlate c.counterEpoch rfl).resolve_left hc
    have hcover : w.ledger.cover ⟨some c.counterEpoch, c.periodKey, c.value⟩ = w.ledger := by
      funext e d
      by_cases he : c.counterEpoch = e
      · subst he
        simp only [Ledger.cover, if_true]
        exact AckLog.ack_of_le (hcovered d)
      · simp only [Ledger.cover, Option.some.injEq, if_neg he]
    rw [hcover]
    unfold RateLimitTracker.onState
    split
    · exact h
    · rename_i s hs
      have hno : ¬ s.concerns ⟨some c.counterEpoch, c.periodKey, c.value⟩ = true :=
        fun hyes => hc ⟨s, hs, hyes⟩
      simpa only [RuntimeState.acknowledge, if_neg hno] using h.same hs

theorem Sound.install {zones : Zones} {entry : UserInstallEntry}
    (hc : w.Careful zones (.install entry)) :
    Sound { w with tracker := w.tracker.installUser entry } := by
  simp only [RateLimitTracker.installUser]
  split
  · exact h
  · split
    · rename_i s hs
      refine h.rewrite hs (RuntimeState.updatePolicy_rewrites _ s w.heap) ?_
      -- The merged policy keeps the period, so only its user could be another one.
      refine carries_updatePolicy h.wired hs rfl rfl ?_ (Or.inr (Or.inl rfl))
      simp only [mergeRuntimeIdentity]
      split
      · rename_i hpos
        exact hc s hs hpos
      · rfl
    · rename_i hnone
      exact ⟨h.wired.create _ _ _, h.booked.create h.wired hnone _ _ _⟩

theorem Sound.step {zones : Zones} {e : Event} (hg : w.Genuine e)
    (hc : w.Careful zones e) : Sound (w.step zones e) := by
  cases e with
  | policy key p =>
    exact h.onState (fun s => RuntimeState.updatePolicy_rewrites _ s w.heap)
      fun s hs => carries_updatePolicy h.wired hs rfl rfl rfl (hc s hs)
  | touch key r => exact h.touch hc
  | traffic key r amount => exact (h.touch hc).record key amount
  | snapshot key r => exact (h.touch hc).report key
  | acknowledge key a => exact h.acknowledge hg hc
  | install entry => exact h.install hc

end

variable (users inbounds : GoMap String RuntimeUserLimit)

/-- The kernel with a new tracker. -/
def start : World :=
  { tracker := .newRateLimitTracker users inbounds }

theorem heap_newRateLimitTracker :
    (RateLimitTracker.newRateLimitTracker users inbounds).heap.counters = ∅ ∧
      (RateLimitTracker.newRateLimitTracker users inbounds).heap.usage = ∅ := by
  refine RateLimitTracker.newRateLimitTracker_induction
    (P := fun t => t.heap.counters = ∅ ∧ t.heap.usage = ∅) ⟨rfl, rfl⟩ ?_ users inbounds
  intro t key name inbound p ht
  rw [RateLimitTracker.create_eq]
  exact ht

theorem sound_start : Sound (start users inbounds) := by
  obtain ⟨hcounters, husage⟩ := heap_newRateLimitTracker users inbounds
  have hget : ∀ e, (start users inbounds).heap.counters.get e = {} := fun e => by
    simp only [heap, start, hcounters]
    rfl
  have huse : ∀ k, (start users inbounds).heap.usage.get k = {} := fun k => by
    simp only [heap, start, husage]
    rfl
  refine ⟨RateLimitTracker.wired_newRateLimitTracker users inbounds, ?_⟩
  constructor
  · exact fun e d => by rw [hget]; exact side_zero d
  · exact fun e d => by rw [hget]; exact side_zero d
  · exact fun e d => Nat.le_refl _
  · exact fun e d _ => rfl
  · exact fun _ d => AckLog.uniform_of_settled (Nat.le_refl _) _
  · exact nofun
  · exact fun u period _ => huse _
  · intro k s u _ _ period d
    have hzero : (start users inbounds).pending d (owner s, period) = 0 :=
      Ledger.pending_eq_zero fun e => List.not_mem_nil
    rw [hzero, huse]
    simp
  · exact nofun

/-- In every state of a run that is careful, and for every user, the amount that the kernel adds
to the policy's baseline is the bytes recorded for the user in the period at hand that no
acknowledgement has covered. -/
theorem unacknowledged_eq_outstanding {zones : Zones}
    {users inbounds : GoMap String RuntimeUserLimit} {es : List Event}
    (hrun : Run.Along (step zones) (fun w e => w.Genuine e ∧ w.Careful zones e)
      (start users inbounds) es) {key : String} {s : RuntimeState}
    (hs : (Run.exec (step zones) (start users inbounds) es).lookup key = some s)
    (huser : 0 < owner s) :
    s.unacknowledged (Run.exec (step zones) (start users inbounds) es).heap
      = (Run.exec (step zones) (start users inbounds) es).outstanding s.account := by
  have hsound : Sound (Run.exec (step zones) (start users inbounds) es) :=
    Run.invariant (fun _ _ h hp => h.step hp.1 hp.2) (sound_start users inbounds) hrun
  exact hsound.booked.unacknowledged hsound.wired hs huser

def seven (period previous : String) : RuntimeUserLimit :=
  { userID := 7, billable := true, periodKey := period, previousPeriodKey := previous }

def twoStates : World :=
  start (AList.insert "alice" (seven "P1" "") ∅) (AList.insert "edge" (seven "P1" "") ∅)

def amounts (w : World) (key : String) : Option (Int × Int) :=
  (w.lookup key).map fun s => (s.unacknowledged w.heap, w.outstanding s.account)

def acknowledgedFirst : List Event :=
  [ .traffic "user:alice" (.at 0) ⟨6, 0⟩, .traffic "inbound:edge" (.at 0) ⟨0, 4⟩,
    .snapshot "user:alice" (.at 0), .acknowledge "user:alice" ⟨some 0, "P1", ⟨6, 0⟩⟩,
    .policy "user:alice" (seven "P2" "P1"), .policy "inbound:edge" (seven "P2" ""),
    .traffic "user:alice" (.at 0) ⟨5, 0⟩, .traffic "inbound:edge" (.at 0) ⟨0, 2⟩ ]

theorem acknowledged_before_rename :
    Run.Along (step fun _ => none) (fun w e => w.Genuine e ∧ w.Careful (fun _ => none) e) twoStates
      acknowledgedFirst ∧
    ∃ s, (Run.exec (step fun _ => none) twoStates acknowledgedFirst).lookup "user:alice" = some s ∧
      0 < owner s ∧
      s.unacknowledged (Run.exec (step fun _ => none) twoStates acknowledgedFirst).heap
        = (Run.exec (step fun _ => none) twoStates acknowledgedFirst).outstanding s.account ∧
      (Run.exec (step fun _ => none) twoStates acknowledgedFirst).outstanding s.account = 7 := by
  have hrun : Run.Along (step fun _ => none)
      (fun w e => w.Genuine e ∧ w.Careful (fun _ => none) e) twoStates acknowledgedFirst := by
    decide +kernel
  refine ⟨hrun, ⟨"user:alice", "alice", "", some 0, ⟨seven "P2" "P1", 0⟩⟩, by decide +kernel,
    by decide, ?_, by decide +kernel⟩
  exact unacknowledged_eq_outstanding hrun
    (show World.lookup _ "user:alice" = some _ by decide +kernel) (by decide)

def renamedFirst : List Event :=
  [ .traffic "user:alice" (.at 0) ⟨6, 0⟩, .policy "user:alice" (seven "P2" "P1"),
    .snapshot "user:alice" (.at 0), .acknowledge "user:alice" ⟨some 0, "P2", ⟨6, 0⟩⟩,
    .traffic "user:alice" (.at 0) ⟨5, 0⟩ ]

def acknowledgedLate : List Event :=
  [ .traffic "user:alice" (.at 0) ⟨6, 0⟩, .snapshot "user:alice" (.at 0),
    .policy "user:alice" (seven "P2" ""), .policy "user:alice" (seven "P1" ""),
    .acknowledge "user:alice" ⟨some 0, "P1", ⟨6, 0⟩⟩ ]

/-- In the first run the acknowledgement of the six bytes swallows the five: quota counts nothing.
In the second it is ignored, and quota counts the billed bytes for good. -/
theorem acknowledgement_misses_its_bytes :
    (Run.Along (step fun _ => none) Genuine twoStates renamedFirst ∧
      amounts (Run.exec (step fun _ => none) twoStates renamedFirst) "user:alice" = some (0, 5)) ∧
    (Run.Along (step fun _ => none) Genuine twoStates acknowledgedLate ∧
      amounts (Run.exec (step fun _ => none) twoStates acknowledgedLate) "user:alice"
        = some (6, 0)) := by
  refine ⟨⟨?_, ?_⟩, ?_, ?_⟩ <;> decide +kernel

end World

end OboardAgent.Quota
