import OboardAgent.Quota.Kernel

/-!
# Which states share what

Quota is one per user because the states of a user point to one usage, and billing is one per
state because no two states point to the same counters. Both hold of a new tracker and stay true
as long as no state changes its user (`Wired`).

Whatever stores a policy, an update, a rollover or an install, does one of two things to a state:
it keeps the counters, or it takes fresh ones (`Rewrites`). Everything that follows about policies
is said about these two cases.
-/

namespace OboardAgent.Quota

/-! ## What storing a policy does -/

namespace RuntimeState

/-- A state keeps its counters under another policy, or gets fresh ones under a new epoch. -/
inductive Rewrites (s : RuntimeState) (h : Heap) : RuntimeState × Heap → Prop
  | keep (p : RuntimeUserLimit) : Rewrites s h ({ s with config := ⟨p, s.config.counters⟩ }, h)
  | fresh (p : RuntimeUserLimit) :
    Rewrites s h ({ s with config := ⟨p, h.epochs⟩ }, { h with epochs := h.epochs + 1 })

theorem storePolicyLocked_rewrites (s : RuntimeState) (h : Heap) (p : RuntimeUserLimit)
    (reset : Bool) : Rewrites s h (s.storePolicyLocked h p reset) := by
  cases reset
  · exact .keep p
  · exact .fresh p

theorem currentConfig_rewrites (zones : Zones) (r : Readings) (s : RuntimeState) (h : Heap) :
    Rewrites s h (s.currentConfig zones r h) := by
  simp only [currentConfig]
  split
  · exact storePolicyLocked_rewrites s h _ _
  · exact .keep s.config.policy

theorem updatePolicy_rewrites (p : RuntimeUserLimit) (s : RuntimeState) (h : Heap) :
    Rewrites s h (s.updatePolicy p h) :=
  storePolicyLocked_rewrites s h p _

/-- A policy for another period starts fresh counters, unless it names the period the counters
are in as the one it comes from. -/
def Replaces (s : RuntimeState) (p : RuntimeUserLimit) : Prop :=
  s.config.policy.periodKey ≠ "" ∧ p.periodKey ≠ "" ∧ s.config.policy.periodKey ≠ p.periodKey ∧
    p.previousPeriodKey ≠ s.config.policy.periodKey

/-- A look at a period that has ended starts fresh counters, unless the policy names that very
period as the one it comes from. -/
def RollsOver (s : RuntimeState) (r : Readings) : Prop :=
  r.expired s.config.policy = true ∧ unnamed s.config.policy s.config.policy.periodKey = true

instance (s : RuntimeState) (p : RuntimeUserLimit) : Decidable (s.Replaces p) :=
  inferInstanceAs (Decidable (_ ∧ _))

instance (s : RuntimeState) (r : Readings) : Decidable (s.RollsOver r) :=
  inferInstanceAs (Decidable (_ ∧ _))

/-- Which counters a policy update leaves the state with. -/
theorem updatePolicy_counters (p : RuntimeUserLimit) (s : RuntimeState) (h : Heap) :
    (s.updatePolicy p h).1.config.counters
      = if s.Replaces p then h.epochs else s.config.counters := by
  have hreset : (decide (s.config.policy.periodKey ≠ "") && decide (p.periodKey ≠ "") &&
      decide (s.config.policy.periodKey ≠ p.periodKey) &&
      unnamed p s.config.policy.periodKey) = true ↔ s.Replaces p := by
    simp only [Replaces, unnamed, Bool.and_eq_true, Bool.or_eq_true, decide_eq_true_eq, and_assoc]
    refine and_congr_right fun hkey => and_congr_right fun _ => and_congr_right fun _ => ?_
    exact ⟨fun h heq => h.elim (fun hnil => hkey (heq ▸ hnil)) fun hne => hne heq, Or.inr⟩
  simp only [updatePolicy, storePolicyLocked, hreset]
  split <;> rfl

/-- Which counters a look at the state leaves it with. -/
theorem currentConfig_counters (zones : Zones) (r : Readings) (s : RuntimeState) (h : Heap) :
    (s.currentConfig zones r h).1.config.counters
      = if s.RollsOver r then h.epochs else s.config.counters := by
  by_cases hexp : r.expired s.config.policy = true
  · have hroll : s.RollsOver r ↔ unnamed s.config.policy s.config.policy.periodKey = true :=
      and_iff_right hexp
    simp only [currentConfig, storePolicyLocked, if_pos hexp, hroll]
    split <;> rfl
  · simp only [currentConfig, if_neg hexp, if_neg fun hroll : s.RollsOver r => hexp hroll.1]

variable {s : RuntimeState} {h : Heap} {x : RuntimeState × Heap}

theorem Rewrites.usage (hx : Rewrites s h x) : x.1.usage = s.usage := by
  cases hx <;> rfl

theorem Rewrites.heap_counters (hx : Rewrites s h x) : x.2.counters = h.counters := by
  cases hx <;> rfl

theorem Rewrites.heap_usage (hx : Rewrites s h x) : x.2.usage = h.usage := by
  cases hx <;> rfl

theorem Rewrites.epochs_le (hx : Rewrites s h x) : h.epochs ≤ x.2.epochs := by
  cases hx
  · exact Nat.le_refl _
  · exact Nat.le_succ _

end RuntimeState

/-! ## Sharing -/

namespace RateLimitTracker

@[simp] theorem lookup_put (t : RateLimitTracker) (key k : String) (x : RuntimeState × Heap) :
    (t.put key x).states.lookup k = if k = key then some x.1 else t.states.lookup k :=
  GoMap.lookup_insert_eq _ _ _ _

@[simp] theorem put_put (t : RateLimitTracker) (key : String) (x y : RuntimeState × Heap) :
    (t.put key x).put key y = t.put key y := by
  simp only [put, AList.insert_insert]

abbrev owner (s : RuntimeState) : Int := s.config.policy.userID

/-- Every state has its own counters, and the states of one user, and only they, share a usage. -/
structure Wired (t : RateLimitTracker) : Prop where
  usage_iff : ∀ {k : String} {s : RuntimeState}, t.states.lookup k = some s →
    (s.usage.isSome ↔ 0 < owner s)
  shared : ∀ {k k' : String} {s s' : RuntimeState} {u : Nat}, t.states.lookup k = some s →
    t.states.lookup k' = some s' → s.usage = some u → (s'.usage = some u ↔ owner s' = owner s)
  usage_lt : ∀ {k : String} {s : RuntimeState} {u : Nat}, t.states.lookup k = some s →
    s.usage = some u → u < t.usages
  epoch_lt : ∀ {k : String} {s : RuntimeState}, t.states.lookup k = some s →
    s.config.counters < t.heap.epochs
  epoch_inj : ∀ {k k' : String} {s s' : RuntimeState}, t.states.lookup k = some s →
    t.states.lookup k' = some s' → s.config.counters = s'.config.counters → k = k'

variable {t : RateLimitTracker} {key : String}

theorem Wired.heap (h : Wired t) {heap : Heap} (he : heap.epochs = t.heap.epochs) :
    Wired { t with heap := heap } where
  usage_iff := h.usage_iff
  shared := h.shared
  usage_lt := h.usage_lt
  epoch_lt hk := by
    rw [he]
    exact h.epoch_lt hk
  epoch_inj := h.epoch_inj

/-- Storing a policy keeps the sharing, as long as the state stays with its user. -/
theorem Wired.rewrite {s : RuntimeState} {x : RuntimeState × Heap} (h : Wired t)
    (hs : t.states.lookup key = some s) (hx : RuntimeState.Rewrites s t.heap x)
    (huser : owner x.1 = owner s) : Wired (t.put key x) := by
  have husage : x.1.usage = s.usage := hx.usage
  -- Every state of the new tracker is one of the old, or the rewritten one in its place.
  have hold : ∀ {k s'}, (t.put key x).states.lookup k = some s' →
      ∃ s₀, t.states.lookup k = some s₀ ∧ s'.usage = s₀.usage ∧ owner s' = owner s₀ ∧
        (s'.config.counters = s₀.config.counters ∨
          (k = key ∧ s'.config.counters = t.heap.epochs ∧ x.2.epochs = t.heap.epochs + 1)) := by
    intro k s' hk
    rcases GoMap.lookup_of_insert hk with ⟨heq, rfl⟩ | hk
    · refine ⟨s, heq ▸ hs, husage, huser, ?_⟩
      cases hx with
      | keep p => exact Or.inl rfl
      | fresh p => exact Or.inr ⟨heq, rfl, rfl⟩
    · exact ⟨s', hk, rfl, rfl, Or.inl rfl⟩
  constructor
  · intro k s' hk
    obtain ⟨s₀, h₀, hu, hid, -⟩ := hold hk
    rw [hu, hid]
    exact h.usage_iff h₀
  · intro k k' s₁ s₂ u hk hk' hu
    obtain ⟨s₁', h₁, hu₁, hid₁, -⟩ := hold hk
    obtain ⟨s₂', h₂, hu₂, hid₂, -⟩ := hold hk'
    rw [hu₂, hid₁, hid₂]
    exact h.shared h₁ h₂ (hu₁ ▸ hu)
  · intro k s' u hk hu
    obtain ⟨s₀, h₀, hu₀, -⟩ := hold hk
    exact h.usage_lt h₀ (hu₀ ▸ hu)
  · intro k s' hk
    obtain ⟨s₀, h₀, -, -, hc⟩ := hold hk
    show s'.config.counters < x.2.epochs
    cases hc with
    | inl hc =>
      rw [hc]
      exact Nat.lt_of_lt_of_le (h.epoch_lt h₀) hx.epochs_le
    | inr hc =>
      rw [hc.2.1, hc.2.2]
      exact Nat.lt_succ_self _
  · intro k k' s₁ s₂ hk hk' heq
    obtain ⟨s₁', h₁, -, -, hc₁⟩ := hold hk
    obtain ⟨s₂', h₂, -, -, hc₂⟩ := hold hk'
    have hlt₁ := h.epoch_lt h₁
    have hlt₂ := h.epoch_lt h₂
    rcases hc₁ with hc₁ | ⟨hk₁, hc₁, -⟩ <;> rcases hc₂ with hc₂ | ⟨hk₂, hc₂, -⟩
    · exact h.epoch_inj h₁ h₂ (hc₁ ▸ hc₂ ▸ heq)
    · omega
    · omega
    · rw [hk₁, hk₂]

/-! ## New states -/

theorem usageOf_some {userID : Int} {u : Nat} (h : t.usageOf userID = some u) :
    ∃ k s, t.states.lookup k = some s ∧ owner s = userID ∧ s.usage = some u := by
  obtain ⟨s, hmem, hs⟩ := List.exists_of_findSome?_eq_some h
  obtain ⟨k, hk⟩ := GoMap.mem_values.mp hmem
  split at hs
  · rename_i hid
    exact ⟨k, s, hk, hid, hs⟩
  · cases hs

theorem usageOf_none {userID : Int} (h : t.usageOf userID = none) {k : String} {s : RuntimeState}
    (hk : t.states.lookup k = some s) (hid : owner s = userID) : s.usage = none := by
  have hs := List.findSome?_eq_none_iff.mp h s (GoMap.mem_values.mpr ⟨k, hk⟩)
  rwa [if_pos hid] at hs

/-- The usage a new state of the user joins, and how many there are then. -/
def joined (t : RateLimitTracker) (userID : Int) : Option Nat × Nat :=
  if userID ≤ 0 then (none, t.usages)
  else
    match t.usageOf userID with
    | some u => (some u, t.usages)
    | none => (some t.usages, t.usages + 1)

theorem create_eq (t : RateLimitTracker) (key user inbound : String) (p : RuntimeUserLimit) :
    t.create key user inbound p =
      { t with usages := (t.joined p.userID).2 }.put key
        (newRuntimeState key user inbound (t.joined p.userID).1 p t.heap) := by
  unfold create joined
  split
  · rfl
  · cases t.usageOf p.userID <;> rfl

/-- A new state joins the usage of its user, or one that no state has. -/
theorem Wired.joined (h : Wired t) (userID : Int) :
    ((t.joined userID).1.isSome ↔ 0 < userID) ∧
      t.usages ≤ (t.joined userID).2 ∧
      ∀ u, (t.joined userID).1 = some u → u < (t.joined userID).2 ∧
        (∀ {k s}, t.states.lookup k = some s → (s.usage = some u ↔ owner s = userID)) ∧
        ((∃ k s, t.states.lookup k = some s ∧ s.usage = some u) ∨ t.usages ≤ u) := by
  unfold RateLimitTracker.joined
  split
  · rename_i hle
    exact ⟨by simp [hle], Nat.le_refl _, nofun⟩
  · rename_i hpos
    cases hj : t.usageOf userID with
    | some v =>
      obtain ⟨k₀, s₀, h₀, hid, hv⟩ := usageOf_some hj
      refine ⟨by simpa using hpos, Nat.le_refl _, fun u hu => ?_⟩
      obtain rfl : v = u := Option.some.inj hu
      exact ⟨h.usage_lt h₀ hv, fun hk => hid ▸ h.shared h₀ hk hv, Or.inl ⟨k₀, s₀, h₀, hv⟩⟩
    | none =>
      refine ⟨by simpa using hpos, Nat.le_succ _, fun u hu => ?_⟩
      obtain rfl : t.usages = u := Option.some.inj hu
      refine ⟨Nat.lt_succ_self _, fun hk => ⟨fun hu => ?_, fun hid => ?_⟩, Or.inr (Nat.le_refl _)⟩
      · exact absurd (h.usage_lt hk hu) (Nat.lt_irrefl _)
      · -- A state of this user would have a usage, and the search would have found it.
        have hnone := usageOf_none hj hk hid
        have hsome := (h.usage_iff hk).mpr (by omega)
        rw [hnone] at hsome
        cases hsome

theorem Wired.create (h : Wired t) (name inbound : String) (p : RuntimeUserLimit) :
    Wired (t.create key name inbound p) := by
  obtain ⟨hsome, hle, hjoin⟩ := h.joined p.userID
  rw [create_eq]
  constructor
  · intro k s hk
    rcases GoMap.lookup_of_insert hk with ⟨-, rfl⟩ | hk
    · exact hsome
    · exact h.usage_iff hk
  · intro k k' s s' u hk hk' hu
    rcases GoMap.lookup_of_insert hk with ⟨-, rfl⟩ | hk <;>
      rcases GoMap.lookup_of_insert hk' with ⟨-, rfl⟩ | hk'
    · exact ⟨fun _ => rfl, fun _ => hu⟩
    · exact (hjoin u hu).2.1 hk'
    · -- The new state is on `u` exactly when it belongs to the user `u` is for.
      constructor
      · intro hnew
        exact (((hjoin u hnew).2.1 hk).mp hu).symm
      · intro hid
        have hid : p.userID = owner s := hid
        have hpos : 0 < owner s := (h.usage_iff hk).mp (by simp [hu])
        obtain ⟨v, hv⟩ := Option.isSome_iff_exists.mp (hsome.mpr (hid ▸ hpos))
        have hsv : s.usage = some v := ((hjoin v hv).2.1 hk).mpr hid.symm
        show (t.joined p.userID).1 = some u
        rw [hv, ← hsv, hu]
    · exact h.shared hk hk' hu
  · intro k s u hk hu
    rcases GoMap.lookup_of_insert hk with ⟨-, rfl⟩ | hk
    · exact (hjoin u hu).1
    · exact Nat.lt_of_lt_of_le (h.usage_lt hk hu) hle
  · intro k s hk
    rcases GoMap.lookup_of_insert hk with ⟨-, rfl⟩ | hk
    · exact Nat.lt_succ_self _
    · exact Nat.lt_succ_of_lt (h.epoch_lt hk)
  · intro k k' s s' hk hk' heq
    rcases GoMap.lookup_of_insert hk with ⟨h₁, rfl⟩ | hk <;>
      rcases GoMap.lookup_of_insert hk' with ⟨h₂, rfl⟩ | hk'
    · rw [h₁, h₂]
    · exact absurd heq.symm (Nat.ne_of_lt (h.epoch_lt hk'))
    · exact absurd heq (Nat.ne_of_lt (h.epoch_lt hk))
    · exact h.epoch_inj hk hk' heq

theorem wired_empty : Wired {} where
  usage_iff hk := absurd hk (by simp)
  shared hk := absurd hk (by simp)
  usage_lt hk := absurd hk (by simp)
  epoch_lt hk := absurd hk (by simp)
  epoch_inj hk := absurd hk (by simp)

/-- A tracker is made of nothing by creating one state after the other. -/
theorem newRateLimitTracker_induction {P : RateLimitTracker → Prop} (h0 : P {})
    (hcreate : ∀ t key user inbound p, P t → P (t.create key user inbound p))
    (users inbounds : GoMap String RuntimeUserLimit) : P (newRateLimitTracker users inbounds) := by
  have hfold : ∀ (f : RateLimitTracker → (Σ _ : String, RuntimeUserLimit) → RateLimitTracker)
      (_ : ∀ t e, P t → P (f t e)) (l : List (Σ _ : String, RuntimeUserLimit)) (t : RateLimitTracker),
      P t → P (l.foldl f t) := by
    intro f hf l
    induction l with
    | nil => exact fun _ ht => ht
    | cons e l ih => exact fun t ht => ih _ (hf t e ht)
  unfold newRateLimitTracker
  refine hfold _ (fun t e ht => ?_) _ _ (hfold _ (fun t e ht => ?_) _ _ h0)
  all_goals
    split
    · exact ht
    · exact hcreate t _ _ _ _ ht

theorem wired_newRateLimitTracker (users inbounds : GoMap String RuntimeUserLimit) :
    Wired (newRateLimitTracker users inbounds) :=
  newRateLimitTracker_induction wired_empty (fun _ _ name inbound p h => h.create name inbound p)
    users inbounds

end RateLimitTracker

end OboardAgent.Quota
