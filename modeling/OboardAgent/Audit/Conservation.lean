import OboardAgent.Audit.Presence
import Mathlib.Algebra.Order.BigOperators.Group.List
import Mathlib.Algebra.Order.Pi
import Mathlib.Data.List.Sort

/-!
# What the connection audit conserves

Beside the tracker runs a ledger: the connections that have started, what has been drained, and the
totals of what was recorded. A bucket counts the connections that are open in it (`Tracked`), so the
bucket of an open connection is there when its payload and its end look for it.

What is drained and what is resident add up to what was recorded, as long as a drain finds no bucket
that has had its connections counted in an earlier window, has none open now, and holds something.
Such a bucket is deleted without an item: its bytes, its closes and their durations are lost.
-/

namespace OboardAgent.Audit

inductive Metric where
  | connections
  | closed
  | upload
  | download
  | duration
  | le1s
  | le5s
  | le20s
  | gt20s
deriving DecidableEq, Repr

abbrev Totals : Type := Metric → Nat

def ConnectionAuditBucket.totals (b : ConnectionAuditBucket) : Totals
  | .connections => b.connectionCount
  | .closed => b.closedCount
  | .upload => b.uploadBytes
  | .download => b.downloadBytes
  | .duration => b.durationTotalMS
  | .le1s => b.durationLE1SCount
  | .le5s => b.durationLE5SCount
  | .le20s => b.durationLE20SCount
  | .gt20s => b.durationGT20SCount

namespace Totals

def ofStart : Totals
  | .connections => 1
  | _ => 0

def ofPayload (upload download : Nat) : Totals
  | .upload => upload
  | .download => download
  | _ => 0

def histogram (duration : Nat) : Metric :=
  if duration ≤ 1000 then .le1s
  else if duration ≤ 5000 then .le5s
  else if duration ≤ 20000 then .le20s
  else .gt20s

def ofDuration (duration : Nat) (m : Metric) : Nat :=
  if m = .closed ∨ m = histogram duration then 1 else if m = .duration then duration else 0

def ofEnd (started now : Int) : Totals := if 0 < started then ofDuration (durationMS started now) else 0

end Totals

/-! ## What the operations do to a bucket -/

namespace ConnectionAuditBucket

variable (b : ConnectionAuditBucket)

theorem totals_opened (peak : Nat) (now : Int) :
    (b.opened peak now).totals = b.totals + Totals.ofStart := by
  funext m
  cases m <;> rfl

theorem totals_moved (upload download : Nat) (now : Int) :
    (b.moved upload download now).totals = b.totals + Totals.ofPayload upload download := by
  funext m
  cases m <;> rfl

theorem totals_closed (started now : Int) :
    (b.closed started now).totals = b.totals + Totals.ofEnd started now := by
  unfold ConnectionAuditBucket.closed Totals.ofEnd
  by_cases hs : 0 < started
  · simp only [if_pos hs]
    generalize durationMS started now = d
    funext m
    show _ = b.totals m + Totals.ofDuration d m
    unfold Totals.ofDuration Totals.histogram
    by_cases h1 : d ≤ 1000
    · simp only [if_pos h1]
      cases m <;> rfl
    by_cases h5 : d ≤ 5000
    · simp only [if_neg h1, if_pos h5]
      cases m <;> rfl
    by_cases h20 : d ≤ 20000
    · simp only [if_neg h1, if_neg h5, if_pos h20]
      cases m <;> rfl
    · simp only [if_neg h1, if_neg h5, if_neg h20]
      cases m <;> rfl
  · simp only [if_neg hs]
    funext m
    cases m <;> rfl

theorem active_closed (started now : Int) : (b.closed started now).active = b.active - 1 := by
  unfold ConnectionAuditBucket.closed
  dsimp only [advanceAuditEnd]
  split_ifs <;> rfl

end ConnectionAuditBucket

theorem totals_normalizeAuditItemWindow (b : ConnectionAuditBucket) (started ended : Int) :
    (normalizeAuditItemWindow b started ended).totals = b.totals := by
  unfold normalizeAuditItemWindow
  dsimp only
  split <;> rfl

namespace ConnectionAudit

variable (b : ConnectionAuditBucket)

theorem totals_drainItem (started now : Int) : (drainItem b started now).totals = b.totals := by
  unfold drainItem
  rw [totals_normalizeAuditItemWindow]
  rfl

theorem totals_nextWindow (sequence peak : Nat) (now : Int) :
    (nextWindow b sequence peak now).totals = 0 := by
  funext m
  cases m <;> rfl

/-! ## What the calls do to the presence -/

variable (a : ConnectionAudit)

def tables : Tables := ⟨a.presenceStates, a.presenceEvents⟩

def Told (t : Tables) (a' : ConnectionAudit) : Prop :=
  ∃ sequence dropped, a' =
    { a with
      presenceStates := t.states, presenceEvents := t.events
      presenceSequence := sequence, presenceDropped := dropped }

def nextNumber : Nat → Nat := fun _ => a.presenceSequence + 1

theorem told_enqueuePresenceEvent (s : ConnectionPresenceState) (kind : PresenceKind) (time : Int) :
    a.Told (a.tables.say maxConnectionPresenceEvents (stamped s kind time a.nextNumber).event)
      (a.enqueuePresenceEvent s kind time).1 := by
  unfold enqueuePresenceEvent Tables.say enqueued
  by_cases hfull : maxConnectionPresenceEvents ≤ a.tables.events.length
  · rw [if_pos hfull]
    exact ⟨_, _, if_pos hfull⟩
  · rw [if_neg hfull]
    exact ⟨_, _, if_neg hfull⟩

theorem told_announce (k : String) (s : ConnectionPresenceState) (kind : PresenceKind) (time : Int) :
    a.Told (a.tables.announce maxConnectionPresenceEvents k (stamped s kind time a.nextNumber))
      (a.announce k s kind time) := by
  obtain ⟨sequence, dropped, h⟩ := a.told_enqueuePresenceEvent s kind time
  unfold announce
  dsimp only
  rw [h]
  exact ⟨sequence, dropped, rfl⟩

theorem told_startPresence (x : Attempt) (sourceIP k : String) (now : Int) :
    a.Told (if x.admitted then a.tables.join maxConnectionPresenceEvents k a.nextNumber
          (x.presenceEvent sourceIP .active) now
        else a.tables.say maxConnectionPresenceEvents
          (stamped { event := x.presenceEvent sourceIP .rejected } .credentialRejected now
            a.nextNumber).event)
      (a.startPresence x sourceIP k now) := by
  unfold startPresence Tables.join
  split
  · dsimp only [joined, tables]
    split
    · exact a.told_announce ..
    · exact ⟨_, _, rfl⟩
  · exact a.told_enqueuePresenceEvent ..

theorem told_payloadPresence (h : Handle) (now later : Int) :
    a.Told (if h.admitted then a.tables.touch maxConnectionPresenceEvents h.presenceKey a.nextNumber now
        later else a.tables) (a.payloadPresence h now later) := by
  unfold payloadPresence Tables.touch
  cases h.admitted with
  | false => exact ⟨_, _, rfl⟩
  | true =>
    dsimp only [tables]
    cases a.presenceStates.lookup h.presenceKey with
    | none => exact ⟨_, _, rfl⟩
    | some s =>
      rw [if_pos rfl]
      dsimp only
      split
      · exact ⟨_, _, rfl⟩
      · exact a.told_announce ..

theorem told_endPresence (h : Handle) (later : Int) :
    a.Told (if h.admitted then a.tables.leave maxConnectionPresenceEvents h.presenceKey a.nextNumber
        later else a.tables) (a.endPresence h later) := by
  unfold endPresence Tables.leave
  cases h.admitted with
  | false => exact ⟨_, _, rfl⟩
  | true =>
    dsimp only [tables]
    cases a.presenceStates.lookup h.presenceKey with
    | none => exact ⟨_, _, rfl⟩
    | some s =>
      rw [if_pos rfl]
      dsimp only
      split
      · obtain ⟨sequence, dropped, hsaid⟩ := a.told_enqueuePresenceEvent _ .lastConnectionClosed later
        rw [hsaid]
        exact ⟨sequence, dropped, rfl⟩
      · exact ⟨_, _, rfl⟩

variable {a} {t : Tables} {a' : ConnectionAudit}

theorem Told.buckets (h : a.Told t a') : a'.buckets = a.buckets := by
  obtain ⟨_, _, rfl⟩ := h
  rfl

theorem Told.generation (h : a.Told t a') : a'.generation = a.generation := by
  obtain ⟨_, _, rfl⟩ := h
  rfl

theorem Told.tables_eq (h : a.Told t a') : a'.tables = t := by
  obtain ⟨_, _, rfl⟩ := h
  rfl

variable (a)

theorem drainConnectionPresenceEvents_frame (now : Int) :
    (a.drainConnectionPresenceEvents now).1.buckets = a.buckets ∧
    (a.drainConnectionPresenceEvents now).1.generation = a.generation := by
  unfold drainConnectionPresenceEvents
  split
  · exact ⟨rfl, rfl⟩
  · refine List.foldlRecOn (motive := fun a' : ConnectionAudit =>
      a'.buckets = a.buckets ∧ a'.generation = a.generation) _ _ ⟨rfl, rfl⟩ fun a' ha' e _ => ?_
    split
    · have htold := a'.told_announce e.1 e.2 .activityRefresh now
      exact ⟨htold.buckets.trans ha'.1, htold.generation.trans ha'.2⟩
    · exact ha'

/-! ## What the calls do to the buckets -/

theorem bucketFor_cases (x : Attempt) (sourceIP : String) (now : Int) :
    (a.bucketFor x sourceIP now).1.buckets = a.buckets ∧
    (a.bucketFor x sourceIP now).1.generation = a.generation ∧
    (a.bucketFor x sourceIP now).1.tables = a.tables ∧
    ∀ b, (a.bucketFor x sourceIP now).2 = some b →
      b.totals = (a.buckets.lookup (a.bucketKey x sourceIP)).elim 0 (·.totals) ∧
      b.active = (a.buckets.lookup (a.bucketKey x sourceIP)).elim 0 (·.active) := by
  cases hlookup : a.buckets.lookup (a.bucketKey x sourceIP) with
  | some b =>
    simp only [bucketFor, hlookup]
    refine ⟨trivial, trivial, trivial, fun b' hb' => ?_⟩
    cases hb'
    exact ⟨rfl, rfl⟩
  | none =>
    simp only [bucketFor, hlookup]
    split
    · exact ⟨rfl, rfl, rfl, fun b hb => absurd hb (by simp)⟩
    · refine ⟨rfl, rfl, rfl, fun b hb => ?_⟩
      cases hb
      refine ⟨?_, rfl⟩
      funext m
      cases m <;> rfl

theorem start_cases (x : Attempt) (clock : StartClock) :
    (∃ a' : ConnectionAudit, a.recordConnectionStart x clock = (a', none) ∧
      a'.buckets = a.buckets ∧ a'.generation = a.generation ∧ a'.tables = a.tables) ∨
    ∃ (sourceIP : String) (a₀ : ConnectionAudit) (b : ConnectionAuditBucket) (peak : Nat) (h : Handle),
      a.recordConnectionStart x clock
        = (a₀.startPresence x sourceIP h.presenceKey clock.now, some h) ∧
      h.key = a.bucketKey x sourceIP ∧ h.admitted = x.admitted ∧
      h.presenceKey = connectionPresenceKey x.policy.userID x.policy.deviceIDHash
        x.policy.credentialEpoch sourceIP x.networkName ∧
      a₀.buckets = a.buckets.insert h.key (b.opened peak clock.now) ∧
      a₀.generation = a.generation ∧ a₀.tables = a.tables ∧
      b.totals = (a.buckets.lookup h.key).elim 0 (·.totals) ∧
      b.active = (a.buckets.lookup h.key).elim 0 (·.active) := by
  unfold recordConnectionStart
  split
  · exact Or.inl ⟨a, rfl, rfl, rfl, rfl⟩
  split
  · exact Or.inl ⟨a, rfl, rfl, rfl, rfl⟩
  split
  · exact Or.inl ⟨a, rfl, rfl, rfl, rfl⟩
  rename_i sourceIP _
  split
  · exact Or.inl ⟨a, rfl, rfl, rfl, rfl⟩
  obtain ⟨hbuckets, hgeneration, htables, hb⟩ := a.bucketFor_cases x sourceIP clock.now
  rcases heq : a.bucketFor x sourceIP clock.now with ⟨a', _ | b⟩
  · rw [heq] at hbuckets hgeneration htables
    exact Or.inl ⟨a', rfl, hbuckets, hgeneration, htables⟩
  · rw [heq] at hbuckets hgeneration htables hb
    have hkey : a'.bucketKey x sourceIP = a.bucketKey x sourceIP := by
      simp only [bucketKey, show a'.generation = a.generation from hgeneration]
    let identityActive := (a'.activeByIdentity.lookup b.activeIdentity).getD 0 + 1
    refine Or.inr ⟨sourceIP,
      { a' with
        activeByIdentity := a'.activeByIdentity.insert b.activeIdentity identityActive
        buckets := a'.buckets.insert (a'.bucketKey x sourceIP) (b.opened identityActive clock.now) },
      b, identityActive,
      { key := a'.bucketKey x sourceIP, started := clock.now
        presenceKey := connectionPresenceKey x.policy.userID x.policy.deviceIDHash
          x.policy.credentialEpoch sourceIP x.networkName
        admitted := x.admitted },
      rfl, hkey, rfl, rfl, ?_, hgeneration, htables, ?_⟩
    · exact congrArg (fun m : GoMap String ConnectionAuditBucket => m.insert _ _) hbuckets
    · dsimp only
      rw [hkey]
      exact hb b rfl

def takesPayload (h : Handle) (upload download now : Int) : Bool :=
  0 ≤ upload && 0 ≤ download && 0 < upload + download &&
    (a.buckets.lookup h.key).elim false fun b => allows a.collection b.userID now

theorem payload_cases (h : Handle) (upload download now later : Int) :
    (a.takesPayload h upload download now = false ∧
      (a.recordConnectionPayload h upload download now later).buckets = a.buckets) ∨
    ∃ b, a.takesPayload h upload download now = true ∧ a.buckets.lookup h.key = some b ∧
      (a.recordConnectionPayload h upload download now later).buckets
        = a.buckets.insert h.key (b.moved upload.toNat download.toNat now) := by
  unfold recordConnectionPayload takesPayload
  split
  · rename_i hbad
    refine Or.inl ⟨?_, rfl⟩
    rw [Bool.and_eq_false_iff, Bool.and_eq_false_iff, Bool.and_eq_false_iff]
    simp only [decide_eq_false_iff_not]
    omega
  · rename_i hgood
    have hpos : (decide (0 ≤ upload) && decide (0 ≤ download) && decide (0 < upload + download)) = true := by
      simp only [Bool.and_eq_true, decide_eq_true_eq]
      omega
    rw [hpos, Bool.true_and]
    split
    · rename_i hb
      rw [hb]
      exact Or.inl ⟨rfl, rfl⟩
    · rename_i b hb
      rw [hb]
      simp only [Option.elim_some]
      cases hallows : allows a.collection b.userID now with
      | false => exact Or.inl ⟨rfl, rfl⟩
      | true => exact Or.inr ⟨b, rfl, rfl, (told_payloadPresence ..).buckets⟩

theorem buckets_recordConnectionEnd (h : Handle) (now later : Int) :
    (a.recordConnectionEnd h now later).buckets
      = match a.buckets.lookup h.key with
        | none => a.buckets
        | some b => a.buckets.insert h.key (b.closed h.started now) := by
  unfold recordConnectionEnd
  rw [(told_endPresence ..).buckets]
  cases a.buckets.lookup h.key <;> rfl

/-! ## What a drain does to the buckets -/

def emits : Bool := 0 < b.connectionCount || 0 < b.active

theorem drainLoop_items (started now : Int) : ∀ (l : List (Σ _ : String, ConnectionAuditBucket))
    (s : DrainLoop), (l.foldl (fun s e => (a.drainBody started now s e.2).1) s).items
      = s.items ++ ((l.map (·.2)).filter emits).map fun b => drainItem b started now
  | [], s => (List.append_nil _).symm
  | e :: l, s => by
    have hitems : (a.drainBody started now s e.2).1.items
        = s.items ++ ([e.2].filter emits).map fun b => drainItem b started now := by
      unfold drainBody emits
      by_cases hemits : 0 < e.2.connectionCount ∨ 0 < e.2.active
      · have htrue : (decide (0 < e.2.connectionCount) || decide (0 < e.2.active)) = true := by
          simpa using hemits
        simp only [if_pos hemits, List.filter_cons, htrue, if_true, List.filter_nil, List.map_cons,
          List.map_nil]
        split <;> rfl
      · have hfalse : (decide (0 < e.2.connectionCount) || decide (0 < e.2.active)) = false := by
          simpa using hemits
        simp only [if_neg hemits, List.filter_cons, hfalse, Bool.false_eq_true, if_false,
          List.filter_nil, List.map_nil, List.append_nil]
        split <;> rfl
    rw [List.foldl_cons, drainLoop_items started now l, hitems, List.append_assoc, ← List.map_append,
      ← List.filter_append]
    rfl

/-- The totals of the buckets that a drain deletes without an item. -/
def lost : Totals := (((GoMap.values a.buckets).filter fun b => !emits b).map (·.totals)).sum

def itemTotals (l : List ConnectionAuditBucket) : Totals := (l.map (·.totals)).sum

theorem sum_filter_add_sum_filter_not (p : ConnectionAuditBucket → Bool)
    (l : List ConnectionAuditBucket) :
    itemTotals (l.filter p) + itemTotals (l.filter fun b => !p b) = itemTotals l := by
  unfold itemTotals
  rw [← List.sum_append, ← List.map_append]
  exact ((List.filter_append_perm p l).map _).sum_eq

theorem drain_totals (now : Int) (henabled : a.enabled = true) :
    itemTotals (a.drainConnectionAuditSnapshot now).2.items + a.lost
      = GoMap.sum (·.totals) a.buckets := by
  have hitems : (a.drainConnectionAuditSnapshot now).2.items
      = (((GoMap.values a.buckets).filter emits).map fun b =>
          drainItem b (a.drainStart now) now).mergeSort itemLE := by
    unfold drainConnectionAuditSnapshot
    simp only [henabled, Bool.not_true, Bool.false_eq_true, if_false, GoMap.range_fst]
    rw [a.drainLoop_items (a.drainStart now) now]
    rfl
  have htotals : itemTotals (a.drainConnectionAuditSnapshot now).2.items
      = itemTotals ((GoMap.values a.buckets).filter emits) := by
    rw [hitems]
    unfold itemTotals
    rw [((List.mergeSort_perm _ _).map _).sum_eq, List.map_map]
    congr 1
    refine List.map_congr_left fun b _ => ?_
    exact totals_drainItem b _ _
  rw [htotals]
  exact sum_filter_add_sum_filter_not emits (GoMap.values a.buckets)

theorem drain_lookup {now : Int} {k : String} {b' : ConnectionAuditBucket}
    (henabled : a.enabled = true)
    (h : (a.drainConnectionAuditSnapshot now).1.buckets.lookup k = some b') :
    ∃ b, a.buckets.lookup k = some b ∧ b'.active = b.active ∧ b'.totals = 0 := by
  unfold drainConnectionAuditSnapshot at h
  simp only [henabled, Bool.not_true, Bool.false_eq_true, if_false] at h
  obtain ⟨s, b, hb, hbody⟩ := GoMap.lookup_of_range h
  unfold drainBody at hbody
  dsimp only at hbody
  split at hbody
  · cases hbody
  · cases hbody
    exact ⟨b, hb, rfl, totals_nextWindow ..⟩

theorem drain_keeps (now : Int) {k : String} {b : ConnectionAuditBucket}
    (h : a.buckets.lookup k = some b) (hactive : b.active ≠ 0) :
    ∃ b', (a.drainConnectionAuditSnapshot now).1.buckets.lookup k = some b' := by
  unfold drainConnectionAuditSnapshot
  split
  · exact ⟨b, h⟩
  · obtain ⟨s, b', hb', -⟩ := GoMap.lookup_range
      (f := fun s _ b => a.drainBody (a.drainStart now) now s b)
      (s := { sequence := a.presenceSequence }) h fun s => by
        simp only [drainBody, if_neg hactive, Option.isSome_some]
    exact ⟨b', hb'⟩

theorem drain_active (now : Int) (k : String) :
    ((a.drainConnectionAuditSnapshot now).1.buckets.lookup k).elim 0 (·.active)
      = (a.buckets.lookup k).elim 0 (·.active) := by
  by_cases henabled : a.enabled = true
  · cases hnew : (a.drainConnectionAuditSnapshot now).1.buckets.lookup k with
    | some b' =>
      obtain ⟨b, hb, hactive, -⟩ := a.drain_lookup henabled hnew
      rw [hb]
      exact hactive
    | none =>
      cases hold : a.buckets.lookup k with
      | none => rfl
      | some b =>
        by_cases hactive : b.active = 0
        · exact hactive.symm
        · obtain ⟨b', hb'⟩ := a.drain_keeps now hold hactive
          cases hnew.symm.trans hb'
  · simp only [drainConnectionAuditSnapshot, henabled, Bool.not_false, if_true]

end ConnectionAudit

/-! ## The ledger -/

structure Connection where
  handle : Handle
  isOpen : Bool := true
deriving DecidableEq, Repr

/-- The tracker, its connections, what it has drained and the totals it was given to record. -/
structure World where
  audit : ConnectionAudit
  connections : List Connection := []
  drained : List ConnectionAuditBucket := []
  recorded : Totals := 0

inductive Event where
  | start (x : ConnectionAudit.Attempt) (clock : ConnectionAudit.StartClock)
  | payload (connection : Nat) (upload download : Int) (now later : Int)
  | finish (connection : Nat) (now later : Int)
  | drain (now : Int)
  | drainPresence (now : Int)

namespace World

/-- Connections are closed once; payload may still come for one that is closed. -/
def step (w : World) : Event → World
  | .start x clock =>
    match w.audit.recordConnectionStart x clock with
    | (a, none) => { w with audit := a }
    | (a, some h) =>
      { w with
        audit := a
        connections := w.connections ++ [{ handle := h }]
        recorded := w.recorded + Totals.ofStart }
  | .payload i upload download now later =>
    match w.connections[i]? with
    | none => w
    | some c =>
      { w with
        audit := w.audit.recordConnectionPayload c.handle upload download now later
        recorded := w.recorded +
          if w.audit.takesPayload c.handle upload download now
          then Totals.ofPayload upload.toNat download.toNat else 0 }
  | .finish i now later =>
    match w.connections[i]? with
    | some ⟨h, true⟩ =>
      { w with
        audit := w.audit.recordConnectionEnd h now later
        connections := w.connections.set i ⟨h, false⟩
        recorded := w.recorded + Totals.ofEnd h.started now }
    | _ => w
  | .drain now =>
    let x := w.audit.drainConnectionAuditSnapshot now
    { w with audit := x.1, drained := w.drained ++ x.2.items }
  | .drainPresence now => { w with audit := (w.audit.drainConnectionPresenceEvents now).1 }

/-- A tracker with any settings, that has no buckets yet. -/
def start (a : ConnectionAudit) : World := { audit := { a with buckets := ∅ } }

/-- What is drained and what is resident is what was recorded. -/
def Conserved (w : World) : Prop :=
  ConnectionAudit.itemTotals w.drained + GoMap.sum (·.totals) w.audit.buckets = w.recorded

/-- A drain finds no bucket that holds something, has no open connection, and has none that started
in the window. -/
def NothingOverdue (w : World) : Event → Prop
  | .drain _ => w.audit.enabled = true → ∀ k b, w.audit.buckets.lookup k = some b →
      b.connectionCount = 0 → b.active = 0 → b.totals = 0
  | _ => True

/-! ## Buckets count the open connections -/

def openCount (w : World) (k : String) : Nat :=
  w.connections.countP fun c => c.isOpen && c.handle.key = k

def Tracked (w : World) : Prop :=
  ∀ k, (w.audit.buckets.lookup k).elim 0 (·.active) = w.openCount k

theorem tracked_start (a : ConnectionAudit) : Tracked (start a) := fun _ => rfl

variable {w : World}

theorem Tracked.lookup (h : Tracked w) {c : Connection} (hc : c ∈ w.connections)
    (hopen : c.isOpen = true) :
    ∃ b, w.audit.buckets.lookup c.handle.key = some b ∧ 0 < b.active := by
  have hpos : 0 < w.openCount c.handle.key :=
    List.countP_pos_iff.mpr ⟨c, hc, by simp [hopen]⟩
  rw [← h] at hpos
  cases hb : w.audit.buckets.lookup c.handle.key with
  | none =>
    rw [hb] at hpos
    exact absurd hpos (lt_irrefl 0)
  | some b =>
    rw [hb] at hpos
    exact ⟨b, rfl, hpos⟩

theorem step_start_cases (w : World) (x : ConnectionAudit.Attempt) (clock : ConnectionAudit.StartClock) :
    (∃ a : ConnectionAudit, a.buckets = w.audit.buckets ∧
      w.step (.start x clock) = { w with audit := a }) ∨
    ∃ (a : ConnectionAudit) (hd : Handle) (b : ConnectionAuditBucket) (peak : Nat),
      a.buckets = w.audit.buckets.insert hd.key (ConnectionAuditBucket.opened b peak clock.now) ∧
      b.totals = (w.audit.buckets.lookup hd.key).elim 0 (·.totals) ∧
      b.active = (w.audit.buckets.lookup hd.key).elim 0 (·.active) ∧
      w.step (.start x clock)
        = { w with
            audit := a
            connections := w.connections ++ [{ handle := hd }]
            recorded := w.recorded + Totals.ofStart } := by
  simp only [step]
  rcases w.audit.start_cases x clock with ⟨a, hstart, hbuckets, -⟩ |
    ⟨sourceIP, a₀, b, peak, hd, hstart, -, -, -, hbuckets, -, -, htotals, hactive⟩
  · rw [hstart]
    exact Or.inl ⟨a, hbuckets, rfl⟩
  · rw [hstart]
    exact Or.inr ⟨_, hd, b, peak, (ConnectionAudit.told_startPresence ..).buckets.trans hbuckets, htotals,
      hactive, rfl⟩

theorem Tracked.start (h : Tracked w) (x : ConnectionAudit.Attempt)
    (clock : ConnectionAudit.StartClock) : Tracked (w.step (.start x clock)) := by
  intro k
  rcases step_start_cases w x clock with ⟨a, hbuckets, hstep⟩ | ⟨a, hd, b, peak, hbuckets, -, hactive, hstep⟩
  · rw [hstep]
    show (a.buckets.lookup k).elim 0 (·.active) = w.openCount k
    rw [hbuckets]
    exact h k
  · rw [hstep]
    show (a.buckets.lookup k).elim 0 (·.active)
      = (w.connections ++ [({ handle := hd } : Connection)]).countP _
    rw [hbuckets, GoMap.lookup_insert_eq, List.countP_append]
    by_cases hk : k = hd.key
    · subst hk
      rw [if_pos rfl, ← World.openCount, ← h]
      simp [ConnectionAuditBucket.opened, advanceAuditEnd, hactive]
    · rw [if_neg hk, h k]
      simp [openCount, Ne.symm hk]

theorem Tracked.payload (h : Tracked w) (i : Nat) (upload download now later : Int) :
    Tracked (w.step (.payload i upload download now later)) := by
  intro k
  simp only [step]
  split
  · exact h k
  · rename_i c hc
    show ((w.audit.recordConnectionPayload c.handle upload download now later).buckets.lookup k).elim 0
      (·.active) = w.openCount k
    rcases w.audit.payload_cases c.handle upload download now later with
      ⟨-, hbuckets⟩ | ⟨b, -, hb, hbuckets⟩
    · rw [hbuckets]
      exact h k
    · rw [hbuckets, GoMap.lookup_insert_eq, ← h k]
      split
      · rename_i hk
        rw [hk, hb]
        rfl
      · rfl

theorem Tracked.finish (h : Tracked w) (i : Nat) (now later : Int) :
    Tracked (w.step (.finish i now later)) := by
  intro k
  simp only [step]
  split
  · rename_i hd hi
    obtain ⟨hlt, hget⟩ := List.getElem?_eq_some_iff.mp hi
    obtain ⟨b, hb, hpos⟩ := h.lookup (List.getElem_mem hlt) (by rw [hget])
    rw [hget] at hb
    show ((w.audit.recordConnectionEnd hd now later).buckets.lookup k).elim 0 (·.active)
      = (w.connections.set i ⟨hd, false⟩).countP _
    rw [ConnectionAudit.buckets_recordConnectionEnd, hb]
    dsimp only
    rw [List.countP_set hlt, hget, GoMap.lookup_insert_eq]
    have hk := h k
    unfold World.openCount at hk
    by_cases hkey : k = hd.key
    · subst hkey
      rw [hb] at hk
      simp only [Option.elim_some] at hk
      simp [ConnectionAuditBucket.active_closed, ← hk]
    · simp [if_neg hkey, hk, Ne.symm hkey]
  · exact h k

theorem Tracked.step (h : Tracked w) (e : Event) : Tracked (w.step e) := by
  cases e with
  | start x clock => exact h.start x clock
  | payload i upload download now later => exact h.payload i upload download now later
  | finish i now later => exact h.finish i now later
  | drain now => exact fun k => (w.audit.drain_active now k).trans (h k)
  | drainPresence now =>
    intro k
    simp only [World.step, (w.audit.drainConnectionPresenceEvents_frame now).1]
    exact h k

/-! ## What one call does to the totals -/

theorem Conserved.add (h : Conserved w) {a : ConnectionAudit} {connections : List Connection}
    {k : String} {b : ConnectionAuditBucket} {d : Totals}
    (hbuckets : a.buckets = w.audit.buckets.insert k b)
    (htotals : b.totals = (w.audit.buckets.lookup k).elim 0 (·.totals) + d) :
    Conserved
      { w with audit := a, connections := connections, recorded := w.recorded + d } := by
  show ConnectionAudit.itemTotals w.drained + GoMap.sum (·.totals) a.buckets = w.recorded + d
  rw [hbuckets, GoMap.sum_insert_add htotals, ← add_assoc]
  exact congrArg (· + d) h

theorem Conserved.start (h : Conserved w) (x : ConnectionAudit.Attempt)
    (clock : ConnectionAudit.StartClock) : Conserved (w.step (.start x clock)) := by
  rcases step_start_cases w x clock with ⟨a, hbuckets, hstep⟩ | ⟨a, hd, b, peak, hbuckets, htotals, -, hstep⟩
  · rw [hstep]
    unfold Conserved
    rw [hbuckets]
    exact h
  · rw [hstep]
    exact h.add hbuckets (by rw [ConnectionAuditBucket.totals_opened, htotals])

theorem Conserved.payload (h : Conserved w) (i : Nat) (upload download now later : Int) :
    Conserved (w.step (.payload i upload download now later)) := by
  simp only [World.step]
  split
  · exact h
  · rename_i c hc
    rcases w.audit.payload_cases c.handle upload download now later with
      ⟨htakes, hbuckets⟩ | ⟨b, htakes, hb, hbuckets⟩
    · rw [if_neg (by simp [htakes]), add_zero]
      unfold Conserved
      dsimp only
      rw [hbuckets]
      exact h
    · rw [if_pos htakes]
      exact h.add hbuckets (by rw [ConnectionAuditBucket.totals_moved, hb]; rfl)

theorem Conserved.finish (h : Conserved w) (htracked : Tracked w) (i : Nat) (now later : Int) :
    Conserved (w.step (.finish i now later)) := by
  simp only [World.step]
  split
  · rename_i hd hi
    obtain ⟨b, hb, -⟩ := htracked.lookup (List.mem_of_getElem? hi) rfl
    have hbuckets : (w.audit.recordConnectionEnd hd now later).buckets
        = w.audit.buckets.insert hd.key (b.closed hd.started now) := by
      rw [ConnectionAudit.buckets_recordConnectionEnd, hb]
    exact h.add hbuckets (by rw [ConnectionAuditBucket.totals_closed, hb]; rfl)
  · exact h

theorem lost_eq_zero_iff (a : ConnectionAudit) :
    a.lost = 0 ↔ ∀ k b, a.buckets.lookup k = some b → b.connectionCount = 0 → b.active = 0 →
      b.totals = 0 := by
  have hemits : ∀ b : ConnectionAuditBucket, ConnectionAudit.emits b = false ↔
      b.connectionCount = 0 ∧ b.active = 0 := by
    intro b
    simp [ConnectionAudit.emits]
  unfold ConnectionAudit.lost
  constructor
  · intro h k b hb hcount hactive
    have hmem : b.totals ∈ ((GoMap.values a.buckets).filter
        fun b => !ConnectionAudit.emits b).map (·.totals) :=
      List.mem_map_of_mem (List.mem_filter.mpr
        ⟨GoMap.mem_values.mpr ⟨k, hb⟩, by rw [(hemits b).mpr ⟨hcount, hactive⟩]; rfl⟩)
    exact List.sum_eq_zero_iff.mp h _ hmem
  · intro h
    refine List.sum_eq_zero fun t ht => ?_
    obtain ⟨b, hb, rfl⟩ := List.mem_map.mp ht
    obtain ⟨hval, hno⟩ := List.mem_filter.mp hb
    obtain ⟨k, hk⟩ := GoMap.mem_values.mp hval
    obtain ⟨hcount, hactive⟩ := (hemits b).mp (by simpa using hno)
    exact h k b hk hcount hactive

theorem Conserved.drain_iff (h : Conserved w) (now : Int) :
    Conserved (w.step (.drain now)) ↔ NothingOverdue w (.drain now) := by
  simp only [NothingOverdue]
  by_cases henabled : w.audit.enabled = true
  · have hresident : GoMap.sum (·.totals) (w.audit.drainConnectionAuditSnapshot now).1.buckets
        = (0 : Totals) :=
      GoMap.sum_eq_zero fun k b hb => by
        obtain ⟨_, -, -, hzero⟩ := w.audit.drain_lookup henabled hb
        exact hzero
    have hdrained : ConnectionAudit.itemTotals
        (w.drained ++ (w.audit.drainConnectionAuditSnapshot now).2.items)
        = ConnectionAudit.itemTotals w.drained
          + ConnectionAudit.itemTotals (w.audit.drainConnectionAuditSnapshot now).2.items := by
      simp [ConnectionAudit.itemTotals]
    have hall := w.audit.drain_totals now henabled
    have hbefore : ConnectionAudit.itemTotals w.drained + GoMap.sum (·.totals) w.audit.buckets
        = w.recorded := h
    have hafter : Conserved (w.step (.drain now)) ↔
        ConnectionAudit.itemTotals w.drained
          + ConnectionAudit.itemTotals (w.audit.drainConnectionAuditSnapshot now).2.items
          = w.recorded := by
      simp only [Conserved, World.step, hdrained, hresident, add_zero]
    rw [hafter, ← hbefore, ← hall, ← add_assoc, left_eq_add, lost_eq_zero_iff]
    exact ⟨fun hlost _ => hlost, fun hlost => hlost henabled⟩
  · have hsame : w.step (.drain now) = w := by
      simp [World.step, ConnectionAudit.drainConnectionAuditSnapshot, henabled]
    rw [hsame]
    exact iff_of_true h fun hno => absurd hno henabled

theorem Conserved.step_iff (h : Conserved w) (htracked : Tracked w) (e : Event) :
    Conserved (w.step e) ↔ NothingOverdue w e := by
  cases e with
  | start x clock => exact iff_of_true (h.start x clock) trivial
  | payload i upload download now later =>
    exact iff_of_true (h.payload i upload download now later) trivial
  | finish i now later => exact iff_of_true (h.finish htracked i now later) trivial
  | drain now => exact h.drain_iff now
  | drainPresence now =>
    refine iff_of_true ?_ trivial
    unfold Conserved
    simp only [World.step, (w.audit.drainConnectionPresenceEvents_frame now).1]
    exact h

/-- **Conservation.** For every tracker and every run of connection starts, payload, ends and
drains, with any clock: the bucket of an open connection is always there; and what is drained and
what is resident adds up to what was recorded in every state of the run, if and only if no drain
finds a bucket with something in it, no connection that started in the window and none open. -/
theorem conserved_iff (a : ConnectionAudit) (es : List Event) :
    (∀ pre, pre <+: es → ∀ c ∈ (Run.exec World.step (World.start a) pre).connections,
      c.isOpen = true →
      ((Run.exec World.step (World.start a) pre).audit.buckets.lookup c.handle.key).isSome) ∧
    ((∀ pre, pre <+: es → Conserved (Run.exec World.step (World.start a) pre)) ↔
      Run.Along World.step NothingOverdue (World.start a) es) := by
  have htracked : ∀ pre, Tracked (Run.exec World.step (World.start a) pre) := fun pre =>
    Run.invariant_all (fun _ e h => h.step e) (tracked_start a)
  constructor
  · intro pre _ c hc hopen
    obtain ⟨b, hb, -⟩ := (htracked pre).lookup hc hopen
    rw [hb]
    rfl
  · exact Run.always_iff (fun _ e h => h.step e) (fun _ e h hc => hc.step_iff h e) (tracked_start a) rfl

/-- **A bucket counts the connections that are open in it**, in every state of every run, whatever
is drained in between. -/
theorem active_eq_open_connections (a : ConnectionAudit) (es : List Event) (k : String) :
    let w := Run.exec World.step (World.start a) es
    (w.audit.buckets.lookup k).elim 0 (·.active) = w.openCount k :=
  Run.invariant_all (I := Tracked) (fun _ e h => h.step e) (tracked_start a) k

def attempt : ConnectionAudit.Attempt :=
  { stateKey := "user:alice", policy := { userID := 7 }, source := some "198.51.100.10"
    network := "tcp" }

def second : Int := 1000000000

def overdueClose : List Event :=
  [.start attempt ⟨second, second, second⟩, .drain (2 * second),
    .payload 0 5 0 (3 * second) (3 * second), .finish 0 (4 * second) (4 * second), .drain (5 * second)]

def afterOverdueClose : World :=
  Run.exec World.step (World.start { collection := some { mode := .standard } }) overdueClose

/-- The five bytes, the close and its three seconds are recorded, and then neither drained nor
resident. -/
theorem close_after_drain_is_lost :
    [Metric.connections, .upload, .closed, .duration, .le5s].map afterOverdueClose.recorded
      = [1, 5, 1, 3000, 1] ∧
    afterOverdueClose.drained.map (fun b =>
      [Metric.connections, .upload, .closed, .duration, .le5s].map b.totals) = [[1, 0, 0, 0, 0]] ∧
    afterOverdueClose.audit.buckets.entries = [] := by
  decide +kernel

end World

end OboardAgent.Audit
