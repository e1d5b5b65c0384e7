import OboardAgent.Lib.Run
import Mathlib.Data.List.Sort

/-!
# The queues of metric and latency reports

The agent keeps its metric reports (`internal/agent/metric_report.go`) and its latency reports
(`internal/agent/latency_probe.go`) until the Controller acknowledges them. Each queue is in memory,
with a copy in a file: the file is read at the first call after a start, and written by every call
that changes the queue. The two were written separately and differ. The metric queue is sorted, and
an acknowledgement of a report that is not the first changes nothing. The latency queue is in the
order of arrival, and an acknowledgement removes every report with its id, and writes the file in
any case.

What goes wrong is the same in both. The first call marks the queue as read before it reads the
file, and goes on with an empty queue if it cannot; the next write then removes the reports in the
file.

A report here is its id, the time it is of, and the rest. The number of pruned reports, which is
only logged, and the probe plan in the file of the latency queue are left out.
-/

namespace OboardAgent.Reports

structure Report (β : Type) where
  reportID : String
  /-- `SampledAt`, and `CheckedAt`. -/
  time : Int
  body : β
  deriving DecidableEq, Repr

/-- Of both queues. -/
def maxPending : Nat := 2048
def retention : Int := 3024000000000000

inductive Kind
  | metric
  | latency
  deriving DecidableEq, Repr

variable {β : Type}

def isExpired (now : Int) (r : Report β) : Bool := r.time < now - retention

def sampledBefore (a b : Report β) :
    Prop := a.time < b.time ∨ a.time = b.time ∧ a.reportID ≤ b.reportID

instance : DecidableRel (@sampledBefore β) := fun a b =>
    inferInstanceAs (Decidable (a.time < b.time ∨ _))

def newest (pending : List (Report β)) :
    List (Report β) := pending.drop (pending.length - maxPending)

def pruneMetricReportState (now : Int) (pending : List (Report β)) : List (Report β) :=
  newest ((pending.filter fun r => !isExpired now r).insertionSort sampledBefore)

def pruneLatencyProbeState (now : Int) (pending : List (Report β)) : List (Report β) :=
  newest (pending.filter fun r => !isExpired now r)

def Kind.prune : Kind → Int → List (Report β) → List (Report β)
  | .metric => pruneMetricReportState
  | .latency => pruneLatencyProbeState

def ackedMetric (reportID : String) : List (Report β) → Option (List (Report β))
  | [] => none
  | r :: rest => if r.reportID ≠ reportID then none else some rest

def ackedLatency (reportID : String) (pending : List (Report β)) : Option (List (Report β)) :=
  some (pending.filter fun r => r.reportID ≠ reportID)

def Kind.acked : Kind → String → List (Report β) → Option (List (Report β))
  | .metric => ackedMetric
  | .latency => ackedLatency

/-- A queue, with its file. The histories are the reports whose queueing succeeded, and the ids
whose acknowledgement did. -/
structure Queue (β : Type) where
  loaded : Bool := false
  pending : List (Report β) := []
  file : Option (List (Report β)) := none
  accepted : List (Report β) := []
  acks : List String := []

structure Access where
  now : Int
  readable : Bool

inductive Call (β : Type)
  | queue (report : Report β) (now : Int) (access : Access) (ok : Bool)
  | next (access : Access)
  | ack (reportID : String) (access : Access) (ok : Bool)
  | restart

namespace Queue

/-- `loadMetricReportStateLocked` and `loadLatencyProbeStateLocked`. -/
def load (kind : Kind) (q : Queue β) (access : Access) : Queue β :=
  if q.loaded then q
  else
    let q := { q with loaded := true }
    if !access.readable then q
    else
      match q.file with
      | none => q
      | some items => { q with pending := kind.prune access.now items }

def persist (q : Queue β) (pending : List (Report β)) (ok : Bool) : Queue β :=
  if ok then { q with pending := pending, file := some pending } else q

/-- `queueMetricReport` and `queueLatencyProbeReport`. -/
def queueReport (kind : Kind) (q : Queue β) (report : Report β) (now : Int) (ok : Bool) : Queue β :=
  let q := q.persist (kind.prune now (q.pending ++ [report])) ok
  if ok then { q with accepted := report :: q.accepted } else q

/-- `ackMetricReport` and `ackLatencyProbeReport`. -/
def ackReport (kind : Kind) (q : Queue β) (reportID : String) (ok : Bool) : Queue β :=
  match kind.acked reportID q.pending with
  | none => q
  | some pending =>
    let q := q.persist pending ok
    if ok then { q with acks := reportID :: q.acks } else q

def step (kind : Kind) (q : Queue β) : Call β → Queue β
  | .queue report now access ok => (q.load kind access).queueReport kind report now ok
  | .next access => q.load kind access
  | .ack reportID access ok => (q.load kind access).ackReport kind reportID ok
  | .restart => { q with loaded := false, pending := [] }

/-- `nextPendingMetricReport` and `nextPendingLatencyProbeReport` return the first report. -/
def nextReport (q : Queue β) : Option (Report β) := q.pending.head?

def offered (q : Queue β) : List (Report β) := if q.loaded then q.pending else q.file.getD []

end Queue

def Call.access : Call β → Option Access
  | .queue _ _ access _ => some access
  | .next access => some access
  | .ack _ access _ => some access
  | .restart => none

def Call.failed : Call β → Option Access
  | .queue _ _ access false => some access
  | .ack _ access false => some access
  | _ => none

namespace Queue

/-- The reports in memory and in the file. -/
def stored (q : Queue β) : List (Report β) := q.pending ++ q.file.getD []

/-- No report is expired at the call, and there is room for one more. -/
def Within (q : Queue β) : Call β → Prop
  | .queue report now access _ =>
    (∀ r ∈ q.stored, isExpired access.now r = false) ∧
      (∀ r ∈ report :: q.stored, isExpired now r = false) ∧
      q.offered.length < maxPending
  | .next access => ∀ r ∈ q.stored, isExpired access.now r = false
  | .ack _ access _ => ∀ r ∈ q.stored, isExpired access.now r = false
  | .restart => True

/-- A first read that fails finds no report that waits for its acknowledgement. -/
def Readable (q : Queue β) (c : Call β) : Prop :=
  ∀ access ∈ c.access, q.loaded = false → access.readable = false →
    ∀ r ∈ q.accepted, r.reportID ∈ q.acks

instance (q : Queue β) : ∀ c, Decidable (q.Within c)
  | .queue _ _ _ _ => inferInstanceAs (Decidable (_ ∧ _ ∧ _))
  | .next access => inferInstanceAs (Decidable (∀ r ∈ q.stored, isExpired access.now r = false))
  | .ack _ access _ => inferInstanceAs (Decidable (∀ r ∈ q.stored, isExpired access.now r = false))
  | .restart => .isTrue trivial

instance (q : Queue β) (c : Call β) : Decidable (q.Readable c) :=
  inferInstanceAs (Decidable (∀ access ∈ c.access, q.loaded = false → access.readable = false →
    ∀ r ∈ q.accepted, r.reportID ∈ q.acks))

/-- What is wanted of a queue in a state. -/
structure Durable (kind : Kind) (q : Queue β) : Prop where
  offered : ∀ r ∈ q.accepted, r.reportID ∈ q.acks ∨ r ∈ q.offered
  filed : ∀ r ∈ q.accepted, r.reportID ∈ q.acks ∨ r ∈ q.file.getD []
  restored : ∀ c access, c.failed = some access →
    (q.step kind c).pending = (q.load kind access).pending ∧ (q.step kind c).file = q.file
  others : ∀ reportID access ok, ∀ r ∈ (q.load kind access).pending, r.reportID ≠ reportID →
    r ∈ (q.step kind (.ack reportID access ok)).pending

end Queue

/-! ## Lists -/

theorem newest_of_le {l : List (Report β)} (h : l.length ≤ maxPending) : newest l = l := by
  rw [newest, Nat.sub_eq_zero_of_le h, List.drop_zero]

theorem length_newest (l : List (Report β)) : (newest l).length ≤ maxPending := by
  rw [newest, List.length_drop]
  omega

theorem length_prune (kind : Kind) (now : Int) (l : List (Report β)) :
    (kind.prune now l).length ≤ maxPending := by
  cases kind with
  | metric =>
    rw [Kind.prune, pruneMetricReportState]
    exact length_newest _
  | latency =>
    rw [Kind.prune, pruneLatencyProbeState]
    exact length_newest _

theorem prune_perm (kind : Kind) {now : Int} {l : List (Report β)}
    (hl : ∀ r ∈ l, isExpired now r = false)
    (hlen : l.length ≤ maxPending) : (kind.prune now l).Perm l := by
  have hkeep : l.filter (fun r => !isExpired now r) = l :=
      List.filter_eq_self.mpr fun r hr => by rw [hl r hr]; rfl
  cases kind with
  | metric =>
    have hsort := List.perm_insertionSort sampledBefore l
    rw [Kind.prune, pruneMetricReportState, hkeep, newest_of_le (hsort.length_eq ▸ hlen)]
    exact hsort
  | latency => rw [Kind.prune, pruneLatencyProbeState, hkeep, newest_of_le hlen]

theorem prune_subperm (kind : Kind) (now : Int) (l : List (Report β)) :
    (kind.prune now l).Subperm l := by
  have hnewest : ∀ m : List (Report β), (newest m).Subperm m := fun m =>
      (List.drop_sublist _ _).subperm
  cases kind with
  | metric =>
    rw [Kind.prune, pruneMetricReportState]
    refine (hnewest _).trans ?_
    exact (List.perm_insertionSort sampledBefore _).subperm.trans List.filter_sublist.subperm
  | latency =>
    rw [Kind.prune, pruneLatencyProbeState]
    exact (hnewest _).trans List.filter_sublist.subperm

theorem acked_spec {kind : Kind} {reportID : String} {l pending : List (Report β)}
    (h : kind.acked reportID l = some pending) :
    pending.length ≤ l.length ∧ ∀ r ∈ l, r.reportID ≠ reportID → r ∈ pending := by
  cases kind with
  | metric =>
    cases l with
    | nil => cases h
    | cons x rest =>
      simp only [Kind.acked, ackedMetric] at h
      split_ifs at h with hx
      cases h
      refine ⟨Nat.le_succ _, fun r hr hid => (List.mem_cons.mp hr).resolve_left fun heq => ?_⟩
      exact hid (heq ▸ not_not.mp hx)
  | latency =>
    cases h
    exact ⟨List.length_filter_le _ _, fun r hr hid => List.mem_filter.mpr ⟨hr, by simpa using hid⟩⟩

/-! ## Calls -/

namespace Queue

variable {kind : Kind} {q : Queue β}

structure Shaped (q : Queue β) : Prop where
  pending : q.pending.length ≤ maxPending
  file : (q.file.getD []).length ≤ maxPending
  unread : q.loaded = false → q.pending = []

/-- Every report that was queued and not acknowledged is in both copies. -/
structure Safe (q : Queue β) : Prop where
  offered : ∀ r ∈ q.accepted, r.reportID ∈ q.acks ∨ r ∈ q.offered
  filed : ∀ r ∈ q.accepted, r.reportID ∈ q.acks ∨ r ∈ q.file.getD []

theorem load_loaded (kind : Kind) (q : Queue β) (access : Access) :
    (q.load kind access).loaded = true := by
  unfold load
  split_ifs with hloaded
  · exact hloaded
  · rfl
  · dsimp only
    split <;> rfl

theorem load_rest (kind : Kind) (q : Queue β) (access : Access) :
    (q.load kind access).file = q.file ∧ (q.load kind access).accepted = q.accepted ∧
      (q.load kind access).acks = q.acks := by
  unfold load
  split_ifs
  · exact ⟨rfl, rfl, rfl⟩
  · exact ⟨rfl, rfl, rfl⟩
  · dsimp only
    split <;> exact ⟨rfl, rfl, rfl⟩

theorem Shaped.load (h : q.Shaped) (kind : Kind) (access : Access) :
    (q.load kind access).Shaped := by
  refine ⟨?_, ?_, fun hunread => ?_⟩
  · unfold Queue.load
    split_ifs
    · exact h.pending
    · exact h.pending
    · dsimp only
      split
      · exact h.pending
      · exact length_prune _ _ _
  · rw [(load_rest kind q access).1]
    exact h.file
  · rw [load_loaded] at hunread
    cases hunread

theorem mem_load (h : q.Shaped) (kind : Kind) {access : Access}
    (hread : q.loaded = false → access.readable = true)
    (hfresh : ∀ r ∈ q.stored, isExpired access.now r = false) (r : Report β) :
    r ∈ (q.load kind access).pending ↔ r ∈ q.offered := by
  unfold Queue.load Queue.offered
  split_ifs with hloaded hunreadable
  · rfl
  · rw [hread (by simpa using hloaded)] at hunreadable
    cases hunreadable
  · dsimp only
    cases hfile : q.file with
    | none => simp [h.unread (by simpa using hloaded)]
    | some items =>
      have hitems : ∀ r ∈ items, r ∈ q.stored := fun r hr =>
          List.mem_append_right _ (by rw [hfile]; exact hr)
      have hlen := h.file
      rw [hfile] at hlen
      exact (prune_perm kind (fun r hr => hfresh r (hitems r hr)) hlen).mem_iff

theorem load_subperm (h : q.Shaped) (kind : Kind) (access : Access) :
    (q.load kind access).pending.Subperm q.offered := by
  unfold Queue.load Queue.offered
  split_ifs with hloaded
  · exact List.Subperm.refl _
  · rw [h.unread (by simpa using hloaded)]
    exact List.nil_subperm
  · dsimp only
    cases hfile : q.file with
    | none =>
      rw [h.unread (by simpa using hloaded)]
      exact List.nil_subperm
    | some items => exact prune_subperm kind access.now items

theorem offered_subset_stored (q : Queue β) : q.offered ⊆ q.stored := by
  unfold offered stored
  split_ifs
  · exact List.subset_append_left _ _
  · exact List.subset_append_right _ _

theorem Safe.load (h : q.Safe) (hs : q.Shaped) {access : Access}
    (hfresh : ∀ r ∈ q.stored, isExpired access.now r = false)
    (hread : q.loaded = false → access.readable = false → ∀ r ∈ q.accepted, r.reportID ∈ q.acks) :
    (q.load kind access).Safe := by
  obtain ⟨hfile, haccepted, hacks⟩ := load_rest kind q access
  refine ⟨fun r hr => ?_, fun r hr => ?_⟩
  · rw [haccepted] at hr
    rw [hacks]
    by_cases hlost : q.loaded = false ∧ access.readable = false
    · exact .inl (hread hlost.1 hlost.2 r hr)
    · rw [Queue.offered, if_pos (load_loaded kind q access),
        mem_load hs kind (fun hl => by simpa [hl] using hlost) hfresh r]
      exact h.offered r hr
  · rw [haccepted] at hr
    rw [hacks, hfile]
    exact h.filed r hr

theorem Safe.persist (h : q.Safe) (hl : q.loaded = true) (pending : List (Report β))
    (hkeep : ∀ r ∈ q.accepted, r.reportID ∉ q.acks → r ∈ q.pending → r ∈ pending) (ok : Bool) :
    (q.persist pending ok).Safe := by
  unfold Queue.persist
  split_ifs
  · have hall : ∀ r ∈ q.accepted, r.reportID ∈ q.acks ∨ r ∈ pending := by
      intro r hr
      by_cases hack : r.reportID ∈ q.acks
      · exact .inl hack
      · have hoffered := (h.offered r hr).resolve_left hack
        rw [Queue.offered, if_pos hl] at hoffered
        exact .inr (hkeep r hr hack hoffered)
    refine ⟨fun r hr => ?_, hall⟩
    rw [Queue.offered, if_pos hl]
    exact hall r hr
  · exact h

theorem Shaped.persist (h : q.Shaped) (hl : q.loaded = true) {pending : List (Report β)}
    (hlen : pending.length ≤ maxPending) (ok : Bool) : (q.persist pending ok).Shaped := by
  unfold Queue.persist
  split_ifs
  · exact ⟨hlen, hlen, fun hunread => absurd (hl.symm.trans hunread) (by simp)⟩
  · exact h

theorem Shaped.step (h : q.Shaped) (c : Call β) : (q.step kind c).Shaped := by
  cases c with
  | queue report now access ok =>
    have hload := h.load kind access
    have hwritten := hload.persist (load_loaded kind q access)
        (length_prune kind now ((q.load kind access).pending ++ [report])) ok
    simp only [Queue.step, Queue.queueReport]
    split_ifs
    · exact ⟨hwritten.pending, hwritten.file, hwritten.unread⟩
    · exact hwritten
  | next access => exact h.load kind access
  | ack reportID access ok =>
    have hload := h.load kind access
    simp only [Queue.step, Queue.ackReport]
    cases hacked : kind.acked reportID (q.load kind access).pending with
    | none => exact hload
    | some pending =>
      have hwritten := hload.persist (load_loaded kind q access)
        (Nat.le_trans (acked_spec hacked).1 hload.pending) ok
      dsimp only
      split_ifs
      · exact ⟨hwritten.pending, hwritten.file, hwritten.unread⟩
      · exact hwritten
  | restart => exact ⟨Nat.zero_le _, h.file, fun _ => rfl⟩

theorem Safe.queueReport (h : q.Safe) (hl : q.loaded = true) {report : Report β} {now : Int}
    (hfresh : ∀ r ∈ q.pending ++ [report], isExpired now r = false)
    (hlen : q.pending.length < maxPending) (ok : Bool) :
    (q.queueReport kind report now ok).Safe := by
  have hperm := prune_perm kind hfresh (by rw [List.length_append]; exact hlen)
  have hwritten := h.persist hl (kind.prune now (q.pending ++ [report]))
    (fun r _ _ hr => hperm.mem_iff.mpr (List.mem_append_left _ hr)) ok
  unfold Queue.queueReport
  dsimp only
  split_ifs with hok
  · have hnew : report ∈ kind.prune now (q.pending ++ [report]) := hperm.mem_iff.mpr (by simp)
    subst hok
    refine ⟨List.forall_mem_cons.mpr ⟨Or.inr ?_, hwritten.offered⟩,
      List.forall_mem_cons.mpr ⟨.inr hnew, hwritten.filed⟩⟩
    rw [Queue.offered]
    simp only [Queue.persist, if_true, hl]
    exact hnew
  · exact hwritten

theorem Safe.ackReport (h : q.Safe) (hl : q.loaded = true) (reportID : String) (ok : Bool) :
    (q.ackReport kind reportID ok).Safe := by
  have hacked : ({ q with acks := reportID :: q.acks }).Safe :=
    ⟨fun r hr => (h.offered r hr).imp_left (List.mem_cons_of_mem _),
      fun r hr => (h.filed r hr).imp_left (List.mem_cons_of_mem _)⟩
  unfold Queue.ackReport
  cases hpending : kind.acked reportID q.pending with
  | none => exact h
  | some pending =>
    cases ok with
    | false => exact h
    | true =>
      refine hacked.persist hl pending (fun r _ hack hr => ?_) true
      exact (acked_spec hpending).2 r hr fun heq => hack (heq ▸ List.mem_cons_self)

theorem Safe.step (h : q.Safe) (hs : q.Shaped) {c : Call β}
    (hwithin : q.Within c) (hread : q.Readable c) : (q.step kind c).Safe := by
  cases c with
  | queue report now access ok =>
    obtain ⟨hloadFresh, hfresh, hroom⟩ := hwithin
    refine (h.load hs hloadFresh (hread access rfl)).queueReport
      (load_loaded kind q access) ?_ ?_ ok
    · refine List.forall_mem_append.mpr ⟨fun r hr =>
        ?_, List.forall_mem_singleton.mpr (hfresh report List.mem_cons_self)⟩
      exact hfresh r (List.mem_cons_of_mem _
        (offered_subset_stored q ((load_subperm hs kind access).subset hr)))
    · exact Nat.lt_of_le_of_lt (load_subperm hs kind access).length_le hroom
  | next access => exact h.load hs hwithin (hread access rfl)
  | ack reportID access ok =>
    exact (h.load hs hwithin (hread access rfl)).ackReport (load_loaded kind q access) reportID ok
  | restart => exact ⟨h.filed, h.filed⟩

theorem safe_init : ({} : Queue β).Safe := ⟨by simp, by simp⟩

theorem shaped_init : ({} : Queue β).Shaped := ⟨Nat.zero_le _, Nat.zero_le _, fun _ => rfl⟩

theorem restored (kind : Kind) (q : Queue β) {c : Call β} {access : Access}
    (h : c.failed = some access) :
    (q.step kind c).pending = (q.load kind access).pending ∧ (q.step kind c).file = q.file := by
  obtain ⟨hfile, -⟩ := load_rest kind q access
  cases c with
  | queue report now access' ok =>
    cases ok with
    | true => cases h
    | false =>
      cases h
      exact ⟨rfl, hfile⟩
  | next access' => cases h
  | ack reportID access' ok =>
    cases ok with
    | true => cases h
    | false =>
      cases h
      simp only [Queue.step, Queue.ackReport]
      split <;> exact ⟨rfl, hfile⟩
  | restart => cases h

theorem others_kept (kind : Kind) (q : Queue β) (reportID : String) (access : Access) (ok : Bool)
    {r : Report β} (hr : r ∈ (q.load kind access).pending) (hid : r.reportID ≠ reportID) :
    r ∈ (q.step kind (.ack reportID access ok)).pending := by
  simp only [Queue.step, Queue.ackReport]
  cases hacked : kind.acked reportID (q.load kind access).pending with
  | none => exact hr
  | some pending =>
    dsimp only [Queue.persist]
    split_ifs
    · exact (acked_spec hacked).2 r hr hid
    · exact hr

/-- Both queues are durable in every run in which no first read after a start fails while a report
waits for its acknowledgement. -/
theorem queue_durable (kind : Kind) (cs : List (Call β))
    (hwithin : Run.Along (step kind) Within {} cs)
    (hread : Run.Along (step kind) Readable {} cs) : (Run.exec (step kind) {} cs).Durable kind := by
  have hinv : (Run.exec (step kind) {} cs).Shaped ∧ (Run.exec (step kind) {} cs).Safe :=
    Run.invariant (I := fun q : Queue β => q.Shaped ∧ q.Safe)
      (fun q c hq hc => ⟨hq.1.step c, hq.2.step hq.1 hc.1 hc.2⟩)
      ⟨shaped_init, safe_init⟩ (hwithin.and hread)
  exact ⟨hinv.2.offered, hinv.2.filed, fun c access hc =>
    restored kind _ hc, fun reportID access ok r hr hid =>
    others_kept kind _ reportID access ok hr hid⟩

def firstReport : Report Unit := ⟨"first", 86400000000000, ()⟩
def secondReport : Report Unit := ⟨"second", 86460000000000, ()⟩

def restarted (readable : Bool) : List (Call Unit) :=
  [.queue firstReport 86400000000000 ⟨86400000000000, true⟩ true, .restart,
    .queue secondReport 86460000000000 ⟨86460000000000, readable⟩ true]

theorem restarted_durable : (Run.exec (step .metric) {} (restarted true)).Durable .metric ∧
    (Run.exec (step .latency) {} (restarted true)).Durable .latency :=
  ⟨queue_durable .metric _ (by decide +kernel) (by decide +kernel),
    queue_durable .latency _ (by decide +kernel) (by decide +kernel)⟩

/-- The second start cannot read the file: the first report is not offered, and is no longer in the
file. -/
theorem unread_file_is_overwritten :
    firstReport ∈ (Run.exec (step .metric) {} (restarted false)).accepted ∧
      (Run.exec (step .metric) {} (restarted false)).acks = [] ∧
      (Run.exec (step .metric) {} (restarted false)).offered = [secondReport] ∧
      (Run.exec (step .metric) {} (restarted false)).file = some [secondReport] ∧
      firstReport ∈ (Run.exec (step .latency) {} (restarted false)).accepted ∧
        (Run.exec (step .latency) {} (restarted false)).acks = [] ∧
      (Run.exec (step .latency) {} (restarted false)).offered = [secondReport] ∧
      (Run.exec (step .latency) {} (restarted false)).file = some [secondReport] := by
  decide +kernel

end Queue

/-! ## What every run leaves in the queues -/

instance : Std.Total (@sampledBefore β) where
  total a b := by
    rcases Int.lt_trichotomy a.time b.time with h | h | h
    · exact Or.inl (Or.inl h)
    · exact (String.le_total a.reportID b.reportID).imp (fun hid => Or.inr ⟨h, hid⟩) fun hid =>
        Or.inr ⟨h.symm, hid⟩
    · exact Or.inr (Or.inl h)

instance : IsTrans (Report β) sampledBefore where
  trans a b c hab hbc := by
    unfold sampledBefore at hab hbc ⊢
    rcases hab with hab | ⟨hab, hid⟩ <;> rcases hbc with hbc | ⟨hbc, hid'⟩
    · omega
    · omega
    · omega
    · exact Or.inr ⟨hab.trans hbc, String.le_trans hid hid'⟩

theorem prune_in_order {kind : Kind} (h : kind = .metric) (now : Int) (l : List (Report β)) :
    (kind.prune now l).Pairwise sampledBefore := by
  rw [h, Kind.prune, pruneMetricReportState]
  exact (List.pairwise_insertionSort sampledBefore _).sublist (List.drop_sublist _ _)

theorem acked_sublist {kind : Kind} {reportID : String} {l pending : List (Report β)}
    (h : kind.acked reportID l = some pending) : pending.Sublist l := by
  cases kind with
  | metric =>
    cases l with
    | nil => cases h
    | cons x rest =>
      simp only [Kind.acked, ackedMetric] at h
      split_ifs at h
      cases h
      exact List.sublist_cons_self _ _
  | latency =>
    cases h
    exact List.filter_sublist

namespace Queue

variable {kind : Kind} {q : Queue β}

/-- Each copy holds reports that were queued, none of them more often than that, and the metric
queue is sorted. -/
structure Genuine (kind : Kind) (q : Queue β) : Prop where
  pending : q.pending.Subperm q.accepted
  file : (q.file.getD []).Subperm q.accepted
  sorted : kind = .metric → q.pending.Pairwise sampledBefore

theorem Genuine.load (h : q.Genuine kind) (access : Access) :
    (q.load kind access).Genuine kind := by
  unfold Queue.load
  split_ifs
  · exact h
  · exact ⟨h.pending, h.file, h.sorted⟩
  · dsimp only
    split
    · exact ⟨h.pending, h.file, h.sorted⟩
    · rename_i items hfile
      have hitems : items.Subperm q.accepted := by simpa [hfile] using h.file
      exact ⟨(prune_subperm kind access.now items).trans hitems, h.file, fun hkind =>
        prune_in_order hkind _ _⟩

theorem Genuine.step (h : q.Genuine kind) (c : Call β) : (q.step kind c).Genuine kind := by
  cases c with
  | queue report now access ok =>
    have hload := h.load access
    simp only [Queue.step, Queue.queueReport]
    generalize q.load kind access = q at hload ⊢
    cases ok with
    | false => exact hload
    | true =>
      have hnew : (kind.prune now (q.pending ++ [report])).Subperm (report :: q.accepted) := by
        refine (prune_subperm kind now _).trans ((List.perm_append_singleton _ _).subperm.trans ?_)
        exact (List.subperm_cons report).mpr hload.pending
      exact ⟨hnew, hnew, fun hkind => prune_in_order hkind _ _⟩
  | next access => exact h.load access
  | ack reportID access ok =>
    have hload := h.load access
    simp only [Queue.step, Queue.ackReport]
    generalize q.load kind access = q at hload ⊢
    cases hacked : kind.acked reportID q.pending with
    | none => exact ⟨hload.pending, hload.file, hload.sorted⟩
    | some pending =>
      cases ok with
      | false => exact ⟨hload.pending, hload.file, hload.sorted⟩
      | true =>
        have hrest := (acked_sublist hacked).subperm.trans hload.pending
        exact ⟨hrest, hrest, fun hkind => (hload.sorted hkind).sublist (acked_sublist hacked)⟩
  | restart => exact ⟨List.nil_subperm, h.file, fun _ => List.Pairwise.nil⟩

theorem genuine_exec (kind : Kind) (calls : List (Call β)) :
    (Run.exec (step kind) {} calls).Genuine kind :=
  Run.invariant_all (fun _ c h => h.step c) ⟨List.nil_subperm, List.nil_subperm, fun _ =>
    List.Pairwise.nil⟩

/-- **The queues invent and repeat nothing**, in every run, also where reads and writes fail: what
is in memory or in the file was queued, and is there no more often than that. -/
theorem queue_invents_nothing (kind : Kind) (calls : List (Call β)) :
    let q := Run.exec (step kind) {} calls
    q.pending.Subperm q.accepted ∧ (q.file.getD []).Subperm q.accepted :=
  ⟨(genuine_exec kind calls).pending, (genuine_exec kind calls).file⟩

/-- **The metric queue sends the oldest sample first**, in every run. -/
theorem metric_queue_in_order (calls : List (Call β)) :
    (Run.exec (step .metric) {} calls).pending.Pairwise sampledBefore :=
  (genuine_exec .metric calls).sorted rfl

/-- **No queue outgrows its bound**, in memory or in its file, in any run. -/
theorem queue_is_bounded (kind : Kind) (calls : List (Call β)) :
    let q := Run.exec (step kind) {} calls
    q.pending.length ≤ maxPending ∧ (q.file.getD []).length ≤ maxPending := by
  have hshaped : (Run.exec (step kind) {} calls).Shaped :=
      Run.invariant_all (fun _ c h => h.step c) shaped_init
  exact ⟨hshaped.pending, hshaped.file⟩

end Queue

end OboardAgent.Reports
