import OboardAgent.Lib.Run
import OboardAgent.Quota.Usage

/-!
# Counters that are replaced

A snapshot reports the counters a state has when it looks. An ended period, or a policy for
another one, gives the state fresh counters unless the policy names the period it comes from, and
nobody reads the old ones again. So a byte is lost to the Controller in one of two ways: it was
not reported when its counters were replaced, or it was added to counters that had been replaced
since the connection looked.

Here the two halves of `addTraffic` and the three of `snapshot` are steps of their own, so that
anything may happen in between. `kept_iff` says that there is no third way.
-/

namespace OboardAgent.Quota

open Traffic (Counters)

structure Meter where
  state : RuntimeState
  heap : Heap
  /-- Additions that have fetched their configuration, with what is still to be added. -/
  adding : List (RuntimeConfig × Counters) := []
  /-- Snapshots that have fetched their configuration, with the upload they have read. -/
  reading : List (RuntimeConfig × Option Int) := []
  reported : Nat → Counters := fun _ => 0

namespace Meter

inductive Event where
  /-- `updatePolicy`, with whatever was merged. -/
  | policy (p : RuntimeUserLimit)
  /-- `currentConfig` alone, as in a decision. -/
  | look (r : Readings)
  | fetchAdd (r : Readings) (amount : Counters)
  | add (i : Nat) (d : Direction)
  | fetchSnapshot (r : Readings)
  | readUpload (i : Nat)
  | readDownload (i : Nat)

def live (m : Meter) : Nat := m.state.config.counters

/-- What the counters of an epoch hold. -/
def recorded (m : Meter) (e : Nat) : Counters := (m.heap.counters.get e).recorded

/-- A policy was stored, or was not. -/
def store (m : Meter) (x : RuntimeState × Heap) : Meter := { m with state := x.1, heap := x.2 }

def without (d : Direction) (amount : Counters) : Counters :=
  both fun d' => if d' = d then 0 else side amount d'

def report (m : Meter) (e : Nat) (value : Counters) : Nat → Counters :=
  fun e' => if e' = e then both fun d => max (side (m.reported e) d) (side value d) else m.reported e'

def step (zones : Zones) (m : Meter) : Event → Meter
  | .policy p => m.store (m.state.updatePolicy p m.heap)
  | .look r => m.store (m.state.currentConfig zones r m.heap)
  | .fetchAdd r amount =>
    let m := m.store (m.state.currentConfig zones r m.heap)
    { m with adding := m.adding ++ [(m.state.config, amount)] }
  | .add i d =>
    match m.adding[i]? with
    | none => m
    | some a =>
      { m with
        heap := RuntimeState.record a.1 m.state.usage m.heap (only d (side a.2 d))
        adding := m.adding.set i (a.1, without d a.2) }
  | .fetchSnapshot r =>
    let m := m.store (m.state.currentConfig zones r m.heap)
    { m with reading := m.reading ++ [(m.state.config, none)] }
  | .readUpload i =>
    match m.reading[i]? with
    | none => m
    | some a =>
      { m with reading := m.reading.set i (a.1, some (m.recorded a.1.counters).upload) }
  | .readDownload i =>
    match m.reading[i]? with
    | some (config, some upload) =>
      { m with
        reading := m.reading.eraseIdx i
        reported := m.report config.counters ⟨upload, (m.recorded config.counters).download⟩ }
    | _ => m

variable (key user inbound : String) (policy : RuntimeUserLimit)

/-- A new state, before anything has happened to it. -/
def start : Meter :=
  let x := newRuntimeState key user inbound (some 0) policy {}
  { state := x.1, heap := x.2 }

/-! ## Nothing is lost -/

/-- The counters that were replaced hold nothing that was not reported. -/
def Kept (m : Meter) : Prop :=
  ∀ e, e ≠ m.live → m.recorded e ≤ m.reported e

/-- The counters of the state hold nothing that was not reported. -/
def Drained (m : Meter) : Prop := m.recorded m.live ≤ m.reported m.live

def Stale (m : Meter) (i : Nat) (d : Direction) : Prop :=
  ∃ a ∈ m.adding[i]?, a.1.counters ≠ m.live ∧ a.1.policy.billable = true ∧
    0 < a.1.policy.userID ∧ 0 < side a.2 d

/-- What the state, its policy and the clock say about the counters: a policy for another period
and a look at an ended one start fresh counters, unless the period they come from is named. -/
def Replaces (m : Meter) : Event → Prop
  | .policy p => m.state.Replaces p
  | .look r | .fetchAdd r _ | .fetchSnapshot r => m.state.RollsOver r
  | _ => False

/-- The event replaces no counters that are not drained, and adds nothing to replaced ones. -/
def Orderly (m : Meter) (e : Event) : Prop :=
  (m.Replaces e → m.Drained) ∧
    match e with
    | .add i d => ¬ m.Stale i d
    | _ => True

/-! ## The states of a run -/

/-- What is true whatever the interleaving: counters that are not in use yet are empty, and
nothing is reported that was not recorded. -/
structure Valid (m : Meter) : Prop where
  live_lt : m.live < m.heap.epochs
  unused : ∀ e, m.heap.epochs ≤ e → m.recorded e = 0
  reported_le : ∀ e, 0 ≤ m.reported e ∧ m.reported e ≤ m.recorded e
  adding_lt : ∀ a ∈ m.adding, a.1.counters < m.heap.epochs
  reading_le : ∀ a ∈ m.reading, ∀ u ∈ a.2, u ≤ (m.recorded a.1.counters).upload

variable {m : Meter} {zones : Zones}

theorem recorded_store {x : RuntimeState × Heap} (hx : m.state.Rewrites m.heap x) (e : Nat) :
    (m.store x).recorded e = m.recorded e := by
  simp only [recorded, store, hx.heap_counters]

theorem Valid.store (h : Valid m) {x : RuntimeState × Heap} (hx : m.state.Rewrites m.heap x) :
    Valid (m.store x) where
  live_lt := by
    cases hx with
    | keep p => exact h.live_lt
    | fresh p => exact Nat.lt_succ_self _
  unused e he := by
    rw [recorded_store hx]
    exact h.unused e (Nat.le_trans hx.epochs_le he)
  reported_le e := by
    rw [recorded_store hx]
    exact h.reported_le e
  adding_lt a ha := Nat.lt_of_lt_of_le (h.adding_lt a ha) hx.epochs_le
  reading_le a ha u hu := by
    rw [recorded_store hx]
    exact h.reading_le a ha u hu

variable (config : RuntimeConfig)

theorem recorded_record (amount : Counters) (d : Direction) (e : Nat) (d' : Direction) :
    side ((RuntimeState.record config m.state.usage m.heap (only d (side amount d))).counters.get
      e).recorded d'
      = side (m.recorded e) d' +
        if e = config.counters ∧ d' = d ∧ config.policy.billable = true ∧ 0 < config.policy.userID
        then ((side amount d).toNat : Int) else 0 := by
  by_cases hbill : config.policy.billable = true ∧ 0 < config.policy.userID
  · have hcounters : (RuntimeState.record config m.state.usage m.heap (only d (side amount d))).counters
        = m.heap.counters.modify config.counters (·.record (only d (side amount d))) := by
      simp [RuntimeState.record, hbill.1, Int.not_le.mpr hbill.2]
    rw [hcounters, Tallies.get_modify]
    by_cases he : e = config.counters
    · rw [if_pos he, Tally.side_record, only, side_both, ← he]
      by_cases hd : d' = d
      · simp [hd, he, hbill, recorded]
      · simp [hd, recorded]
    · simp [he, recorded]
  · have hskip : RuntimeState.record config m.state.usage m.heap (only d (side amount d)) = m.heap := by
      have hyes : config.policy.billable = false ∨ config.policy.userID ≤ 0 := by
        rw [Classical.not_and_iff_not_or_not, Bool.not_eq_true, Int.not_lt] at hbill
        exact hbill
      simp only [RuntimeState.record, Bool.or_eq_true, Bool.not_eq_true', decide_eq_true_eq,
        if_pos hyes]
    rw [hskip, if_neg (fun h => hbill h.2.2), Int.add_zero]
    rfl

theorem le_recorded_record (amount : Counters) (d : Direction) (e : Nat) :
    m.recorded e ≤
      ((RuntimeState.record config m.state.usage m.heap (only d (side amount d))).counters.get
        e).recorded := by
  refine le_iff_side.mpr fun d' => ?_
  rw [recorded_record]
  split <;> omega

theorem epochs_record (usage : Option Nat) (h : Heap) (amount : Counters) :
    (RuntimeState.record config usage h amount).epochs = h.epochs := by
  simp only [RuntimeState.record]
  split <;> rfl

theorem Valid.add (h : Valid m) (i : Nat) (d : Direction) : Valid (m.step zones (.add i d)) := by
  simp only [step]
  split
  · exact h
  · rename_i a ha
    have hmem : a ∈ m.adding := List.mem_of_getElem? ha
    constructor
    · show m.live < _
      rw [epochs_record]
      exact h.live_lt
    · intro e he
      rw [epochs_record] at he
      refine counters_ext fun d' => ?_
      have hne : e ≠ a.1.counters := fun heq =>
        absurd (h.adding_lt a hmem) (Nat.not_lt.mpr (heq ▸ he))
      refine (recorded_record a.1 a.2 d e d').trans ?_
      rw [h.unused e he, if_neg (fun hc => hne hc.1), Int.add_zero]
    · intro e
      exact ⟨(h.reported_le e).1, le_trans (h.reported_le e).2 (le_recorded_record a.1 a.2 d e)⟩
    · intro b hb
      rw [epochs_record]
      cases List.mem_or_eq_of_mem_set hb with
      | inl hold => exact h.adding_lt b hold
      | inr hnew => exact hnew ▸ h.adding_lt a hmem
    · intro b hb u hu
      exact le_trans (h.reading_le b hb u hu) (le_recorded_record a.1 a.2 d b.1.counters).1

theorem Valid.read (h : Valid m) (i : Nat) :
    Valid (m.step zones (.readUpload i)) ∧ Valid (m.step zones (.readDownload i)) := by
  constructor
  · simp only [step]
    split
    · exact h
    · rename_i a ha
      refine { h with reading_le := fun b hb u hu => ?_ }
      cases List.mem_or_eq_of_mem_set hb with
      | inl hold => exact h.reading_le b hold u hu
      | inr hnew =>
        subst hnew
        exact le_of_eq (Option.some.inj hu).symm
  · simp only [step]
    split
    · rename_i config upload ha
      have hmem : (config, some upload) ∈ m.reading := List.mem_of_getElem? ha
      refine { h with reported_le := fun e => ?_, reading_le := fun b hb u hu => ?_ }
      · obtain ⟨h0, hle⟩ := h.reported_le e
        simp only [report]
        split
        · rename_i heq
          subst heq
          rw [le_iff_side] at h0 hle ⊢
          rw [le_iff_side]
          refine ⟨fun d => ?_, fun d => ?_⟩
          · rw [side_both]
            exact le_trans (h0 d) (le_max_left _ _)
          · rw [side_both]
            refine max_le (hle d) ?_
            cases d with
            | upload => exact h.reading_le _ hmem upload rfl
            | download => exact le_refl _
        · exact ⟨h0, hle⟩
      · exact h.reading_le b (List.mem_of_mem_eraseIdx hb) u hu
    · exact h

theorem Valid.step (h : Valid m) (e : Event) : Valid (m.step zones e) := by
  have hlook := fun r => h.store (RuntimeState.currentConfig_rewrites zones r m.state m.heap)
  cases e with
  | policy p => exact h.store (RuntimeState.updatePolicy_rewrites p m.state m.heap)
  | look r => exact hlook r
  | fetchAdd r amount =>
    exact { hlook r with
      adding_lt := List.forall_mem_append.mpr
        ⟨(hlook r).adding_lt, List.forall_mem_singleton.mpr (hlook r).live_lt⟩ }
  | add i d => exact h.add i d
  | fetchSnapshot r =>
    exact { hlook r with
      reading_le := List.forall_mem_append.mpr ⟨(hlook r).reading_le, List.forall_mem_singleton.mpr nofun⟩ }
  | readUpload i => exact (h.read i).1
  | readDownload i => exact (h.read i).2

/-! ## One step -/

instance (m : Meter) : ∀ e, Decidable (m.Replaces e)
  | .policy p => inferInstanceAs (Decidable (m.state.Replaces p))
  | .look r | .fetchAdd r _ | .fetchSnapshot r => inferInstanceAs (Decidable (m.state.RollsOver r))
  | .add .. | .readUpload .. | .readDownload .. => .isFalse id

theorem live_step (zones : Zones) (m : Meter) (e : Event) :
    (m.step zones e).live = if m.Replaces e then m.heap.epochs else m.live := by
  have hlook := fun r => RuntimeState.currentConfig_counters zones r m.state m.heap
  cases e with
  | policy p => exact RuntimeState.updatePolicy_counters p m.state m.heap
  | look r => exact hlook r
  | fetchAdd r amount => exact hlook r
  | fetchSnapshot r => exact hlook r
  | add i d =>
    simp only [Meter.step]
    split <;> exact (if_neg id).symm
  | readUpload i =>
    simp only [Meter.step]
    split <;> exact (if_neg id).symm
  | readDownload i =>
    simp only [Meter.step]
    split <;> exact (if_neg id).symm

theorem Valid.live_ne_iff (h : Valid m) (e : Event) :
    (m.step zones e).live ≠ m.live ↔ m.Replaces e := by
  rw [live_step]
  split
  · rename_i hrep
    exact iff_of_true (Nat.ne_of_gt h.live_lt) hrep
  · rename_i hkeep
    exact iff_of_false (fun hne => hne rfl) hkeep

/-- Counters that a state takes are empty. -/
theorem Valid.recorded_replaced (h : Valid m) {e : Event} (hrep : m.Replaces e) :
    (m.step zones e).recorded (m.step zones e).live = 0 := by
  have hfresh : m.recorded m.heap.epochs = 0 := h.unused _ (Nat.le_refl _)
  have hlook := fun r =>
    recorded_store (RuntimeState.currentConfig_rewrites zones r m.state m.heap) m.heap.epochs
  rw [live_step, if_pos hrep]
  cases e with
  | policy p =>
    exact (recorded_store (RuntimeState.updatePolicy_rewrites p m.state m.heap) _).trans hfresh
  | look r => exact (hlook r).trans hfresh
  | fetchAdd r amount => exact (hlook r).trans hfresh
  | fetchSnapshot r => exact (hlook r).trans hfresh
  | _ => exact hrep.elim

theorem kept_store (hk : Kept m) {x : RuntimeState × Heap}
    (hx : m.state.Rewrites m.heap x) : Kept (m.store x) ↔ ((m.store x).live ≠ m.live → Drained m) := by
  constructor
  · intro hkept hne
    have := hkept m.live (Ne.symm hne)
    rwa [recorded_store hx] at this
  · intro hdrained e he
    rw [recorded_store hx]
    by_cases hlive : e = m.live
    · subst hlive
      exact hdrained (Ne.symm he)
    · exact hk e hlive

theorem Valid.kept_add (h : Valid m) (hk : Kept m) (i : Nat) (d : Direction) :
    Kept (m.step zones (.add i d)) ↔ ¬ m.Stale i d := by
  simp only [Meter.step]
  split
  · rename_i hnone
    refine ⟨fun _ => ?_, fun _ => hk⟩
    rintro ⟨a, ha, -⟩
    rw [hnone] at ha
    cases ha
  · rename_i a ha
    constructor
    · rintro hkept ⟨b, hb, hne, hbill, huser, hpos⟩
      obtain rfl : a = b := Option.some.inj (ha.symm.trans hb)
      have hle := le_iff_side.mp (hkept a.1.counters hne) d
      have hrep := le_iff_side.mp (h.reported_le a.1.counters).2 d
      have hadd := recorded_record (m := m) a.1 a.2 d a.1.counters d
      rw [if_pos ⟨rfl, rfl, hbill, huser⟩] at hadd
      simp only [recorded] at hle hrep hadd
      omega
    · intro hfresh e he
      refine le_iff_side.mpr fun d' => ?_
      have hadd := recorded_record (m := m) a.1 a.2 d e d'
      have hold := le_iff_side.mp (hk e he) d'
      have hzero : (if e = a.1.counters ∧ d' = d ∧ a.1.policy.billable = true ∧
          0 < a.1.policy.userID then ((side a.2 d).toNat : Int) else 0) = 0 := by
        split
        · rename_i hc
          have hnot : ¬ 0 < side a.2 d := fun hpos =>
            hfresh ⟨a, ha, hc.1 ▸ he, hc.2.2.1, hc.2.2.2, hpos⟩
          omega
        · rfl
      rw [hzero, Int.add_zero] at hadd
      exact le_trans (le_of_eq hadd) hold

theorem kept_report (hk : Kept m) (e : Nat) (value : Counters) :
    Kept { m with reported := m.report e value } := by
  intro e' he'
  have hold := hk e' he'
  simp only [report]
  split
  · rename_i heq
    subst heq
    refine le_iff_side.mpr fun d => ?_
    rw [side_both]
    exact le_trans (le_iff_side.mp hold d) (le_max_left _ _)
  · exact hold

theorem Valid.kept_step (h : Valid m) (hk : Kept m) (e : Event) :
    Kept (m.step zones e) ↔ m.Orderly e := by
  have hlook := fun r =>
    kept_store hk (RuntimeState.currentConfig_rewrites zones r m.state m.heap)
  -- What a store asks for is asked where the counters are other ones.
  have hstored : ((m.step zones e).live ≠ m.live → Drained m) ↔ (m.Replaces e → Drained m) :=
    imp_congr_left (h.live_ne_iff e)
  cases e with
  | policy p =>
    exact ((kept_store hk (RuntimeState.updatePolicy_rewrites p m.state m.heap)).trans
      hstored).trans (and_iff_left trivial).symm
  | look r => exact ((hlook r).trans hstored).trans (and_iff_left trivial).symm
  | fetchAdd r amount => exact ((hlook r).trans hstored).trans (and_iff_left trivial).symm
  | fetchSnapshot r => exact ((hlook r).trans hstored).trans (and_iff_left trivial).symm
  | add i d => exact (h.kept_add hk i d).trans (and_iff_right False.elim).symm
  | readUpload i =>
    have hsame : Kept (m.step zones (.readUpload i)) := by
      simp only [Meter.step]
      split <;> exact hk
    exact iff_of_true hsame ⟨False.elim, trivial⟩
  | readDownload i =>
    have hsame : Kept (m.step zones (.readDownload i)) := by
      simp only [Meter.step]
      split
      · exact kept_report hk _ _
      · exact hk
    exact iff_of_true hsame ⟨False.elim, trivial⟩

/-! ## Whole runs -/

theorem recorded_start (e : Nat) :
    (start key user inbound policy).recorded e = 0 := rfl

theorem valid_start : Valid (start key user inbound policy) where
  live_lt := Nat.lt_succ_self 0
  unused e _ := recorded_start key user inbound policy e
  reported_le e := ⟨le_refl _, le_of_eq (recorded_start key user inbound policy e).symm⟩
  adding_lt _ ha := absurd ha List.not_mem_nil
  reading_le _ ha := absurd ha List.not_mem_nil

theorem drained_of_snapshot (m : Meter) (zones : Zones) (r : Readings) :
    Drained (Run.exec (step zones) m
      [.fetchSnapshot r, .readUpload m.reading.length, .readDownload m.reading.length]) := by
  let m₁ := m.step zones (.fetchSnapshot r)
  let up := (m₁.recorded m₁.live).upload
  have hfetched : m₁.reading[m.reading.length]? = some (m₁.state.config, none) :=
    List.getElem?_concat_length
  have hread : m₁.step zones (.readUpload m.reading.length)
      = { m₁ with reading := m₁.reading.set m.reading.length (m₁.state.config, some up) } := by
    simp only [step, hfetched]
    rfl
  have hset : (m₁.reading.set m.reading.length (m₁.state.config, some up))[m.reading.length]?
      = some (m₁.state.config, some up) :=
    List.getElem?_set_self (List.getElem?_eq_some_iff.mp hfetched).1
  show Drained ((m₁.step zones (.readUpload m.reading.length)).step zones
    (.readDownload m.reading.length))
  rw [hread]
  simp only [step, hset]
  show m₁.recorded m₁.live ≤ m₁.report m₁.live ⟨up, (m₁.recorded m₁.live).download⟩ m₁.live
  simp only [report, if_true]
  refine le_iff_side.mpr fun d => ?_
  rw [side_both]
  cases d <;> exact le_max_right _ _

/-- In every state of a run, an event gives the state other counters exactly when its policy or
the clock says so, and those are empty. The replaced counters hold nothing unreported all along
the run exactly when every replacement finds the counters drained and no addition comes too late
for the counters it has fetched. A snapshot that nothing comes between drains the counters it
finds. -/
theorem kept_iff (zones : Zones) (key user inbound : String) (policy : RuntimeUserLimit)
    (es : List Event) :
    let m := Run.exec (step zones) (start key user inbound policy) es
    (∀ e, ((m.step zones e).live ≠ m.live ↔ m.Replaces e) ∧
      (m.Replaces e → (m.step zones e).recorded (m.step zones e).live = 0)) ∧
    ((∀ pre, pre <+: es → Kept (Run.exec (step zones) (start key user inbound policy) pre)) ↔
      Run.Along (step zones) Orderly (start key user inbound policy) es) ∧
    ∀ r, Drained (Run.exec (step zones) m
      [.fetchSnapshot r, .readUpload m.reading.length, .readDownload m.reading.length]) := by
  intro m
  have hvalid : Valid m :=
    Run.invariant_all (fun _ e h => h.step e) (valid_start key user inbound policy)
  refine ⟨fun e => ⟨hvalid.live_ne_iff e, hvalid.recorded_replaced⟩, ?_,
    fun r => drained_of_snapshot m zones r⟩
  refine Run.always_iff (fun _ e h => h.step e) (fun _ e h hk => h.kept_step hk e)
    (valid_start key user inbound policy) ?_
  exact fun e _ => le_of_eq (recorded_start key user inbound policy e)

/-- **Nothing is reported that was not recorded**, in any interleaving of additions, snapshots and
policies: the reports of an epoch are within what its counters hold. -/
theorem reports_within_records (zones : Zones) (key user inbound : String) (policy : RuntimeUserLimit)
    (es : List Event) (e : Nat) :
    let m := Run.exec (step zones) (start key user inbound policy) es
    0 ≤ m.reported e ∧ m.reported e ≤ m.recorded e :=
  (Run.invariant_all (fun _ e h => h.step e) (valid_start key user inbound policy)).reported_le e

def endsAtMidnight : RuntimeUserLimit :=
  { userID := 7, billable := true, periodKey := "1969-12-01", periodEnd := "1970-01-01T00:00:00Z" }

def overMidnight : List Event :=
  [.fetchAdd (.at (-1)) ⟨6, 0⟩, .add 0 .upload, .look (.at 0)]

def heldUp : List Event :=
  [.fetchAdd (.at (-1)) ⟨6, 0⟩, .look (.at 0), .add 0 .upload]

def firstCounters (es : List Event) : Nat × Counters × Counters :=
  let m := Run.exec (step fun _ => none) (start "user:alice" "alice" "" endsAtMidnight) es
  (m.live, m.recorded 0, m.reported 0)

/-- Both times the bytes are in counters the state no longer has, and were never reported. -/
theorem bytes_lost_over_midnight :
    firstCounters overMidnight = (1, ⟨6, 0⟩, 0) ∧ firstCounters heldUp = (1, ⟨6, 0⟩, 0) := by
  decide +kernel

end Meter

end OboardAgent.Quota
