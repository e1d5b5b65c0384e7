import OboardAgent.Traffic.Orderly

/-!
# One event on a state in step

What an item of a snapshot, a stream checkpoint and an answer do to a state that is in step with
the Controller. Each keeps it in step when it tells of the current epoch: the item shows it, the
checkpoint is the Controller's, and the answer says that its report was accepted and names the
epoch its stream is in. The last is the condition that matters. An answer is looked up by report
id alone, so without it a value of one epoch is stored into another.
-/

namespace OboardAgent.Traffic

open TrafficLocalState

/-- The Controller has the report, as sent. -/
def TrafficStatus.settles : TrafficStatus → Bool
  | .unset | .accepted | .duplicate => true
  | _ => false

theorem TrafficStatus.acknowledges_of_settles {s : TrafficStatus} (h : s.settles = true) :
    s.acknowledges = true ∧ s ≠ .covered := by
  cases s <;> simp_all [TrafficStatus.settles, TrafficStatus.acknowledges]

/-- The answer is to no pending report, or settles one and names the epoch its stream is in. -/
def TrafficLocalState.answerSettles (st : TrafficLocalState) (a : TrafficAcceptedReport) : Bool :=
  match st.pendingReports.lookup a.reportID with
  | none => true
  | some report =>
    a.status.settles &&
      match st.streams.lookup report.streamID with
      | none => true
      | some stream => a.counterEpoch = stream.counterEpoch

theorem answerMatches_of_settles {st : TrafficLocalState} {a : TrafficAcceptedReport}
    (h : st.answerSettles a = true) : st.answerMatches a = true := by
  unfold answerSettles at h
  unfold answerMatches
  cases hl : st.pendingReports.lookup a.reportID with
  | none => rfl
  | some report =>
    rw [hl] at h
    simp only at h ⊢
    cases hs : st.streams.lookup report.streamID with
    | none => rfl
    | some stream =>
      rw [hs, Bool.and_eq_true] at h
      simp only
      rw [Bool.or_eq_true]
      exact Or.inr h.2

variable {c : Controller} {sent : List TrafficLedgerReportItem}
  {current : String → Option String} {st : TrafficLocalState}

/-! ## One lemma per event -/

/-- With nothing pending in its epoch, an item starts from the Controller's checkpoint. -/
theorem Orderly.acceptedAfter {sid : String} {item : TrafficSnapshotItem}
    (h : Orderly c sent current st) (haccepted : ∀ y ∈ c.accepted, y ∈ sent)
    (hcur : current sid = some item.counterEpoch)
    (hnone : ∀ id p, st.pendingReports.lookup id = some p → p.streamID = sid →
      p.counterEpoch ≠ item.counterEpoch) :
    acceptedAfter (st.streams.lookup sid) item = c.checkpoint sid item.counterEpoch := by
  -- A stream that is not in the epoch, known or not, has sent nothing of it.
  have hzero : (∀ s, st.streams.lookup sid = some s → s.counterEpoch ≠ item.counterEpoch) →
      c.checkpoint sid item.counterEpoch = 0 := by
    intro hnot
    apply Controller.checkpoint_eq_zero
    intro y hy
    exact h.behind sid _ hcur hnot y (haccepted y hy)
  unfold Traffic.acceptedAfter
  cases hl : st.streams.lookup sid with
  | none => exact (hzero fun s hs => absurd (hl.symm.trans hs) (by simp)).symm
  | some s =>
    simp only
    by_cases hsame : s.counterEpoch = item.counterEpoch
    · rw [if_neg (fun hch => hch.2 hsame)]
      have hset := h.settled sid s hl (hsame ▸ hcur) (hsame ▸ hnone)
      rw [hset, hsame]
    · rw [if_pos ⟨h.epochs sid s hl, hsame⟩]
      refine (hzero fun s' hs' => ?_).symm
      rw [hl, Option.some.injEq] at hs'
      exact hs' ▸ hsame

/-- An item of the current epoch queues the next range or none. -/
theorem Orderly.observe {r : Runner} {a : Agent} {now : Int} {recovering : Bool}
    {item : TrafficSnapshotItem} (h : Orderly c sent current a.memory)
    (haccepted : ∀ y ∈ c.accepted, y ∈ sent) (hcounts : itemCounts item = true)
    (hcur : current (r.itemStream item) = some item.counterEpoch)
    (hkey : ∀ p, a.observedRange r now recovering item = some p →
      (∀ id q, a.memory.pendingReports.lookup id = some q → q.streamID ≠ p.streamID) →
      a.memory.pendingReports.lookup p.reportID = none) :
    Orderly c sent current (a.act r (.observe now recovering item)) := by
  obtain ⟨hskip, -, -⟩ | ⟨-, o, hset, hact, hrange⟩ := a.observe_cases r now recovering item
  · rw [hskip] at hcounts
    cases hcounts
  have hepoch : item.counterEpoch ≠ "" := by
    simp only [itemCounts, Bool.and_eq_true, decide_eq_true_eq] at hcounts
    exact hcounts.2
  have hstream : Orderly c sent current
      { a.memory with streams := a.memory.streams.insert (r.itemStream item) o.stream } := by
    refine h.insert rfl rfl (hset.counterEpoch ▸ hepoch) ?_ ?_ ?_
    · rw [hset.counterEpoch, hset.accepted]
      exact fun _ hnone => h.acceptedAfter haccepted hcur hnone
    · intro e he hne
      rw [hcur, Option.some.injEq] at he
      exact absurd (hset.counterEpoch.trans he) hne
    · intro id p _ _ he
      rw [hcur, Option.some.injEq] at he
      exact hset.counterEpoch.trans he
  rw [hact]
  cases ho : o.range with
  | none => exact hstream
  | some p =>
    obtain ⟨-, -, hpend, hsid, hpe, hfrom, -, -, -, hin⟩ :=
      Agent.observedRange_some (hrange.trans ho)
    have hnone : ∀ id q, a.memory.pendingReports.lookup id = some q → q.streamID ≠ p.streamID := by
      rw [pendingExists, Bool.or_eq_false_iff, GoMap.anyVal_eq_false_iff] at hpend
      intro id q hq
      rw [hsid]
      exact of_decide_eq_false (hpend.1 id q hq)
    refine hstream.queue hin (hkey p (hrange.trans ho) hnone) hnone ?_ ?_
    · rw [hfrom, hsid, hpe]
      apply h.acceptedAfter haccepted hcur
      intro id q hq hqs
      exact absurd (hqs.trans hsid.symm) (hnone id q hq)
    · rw [hsid, hpe]
      exact ⟨o.stream, AList.lookup_insert _, hset.counterEpoch⟩

/-- A checkpoint that is the Controller's own keeps the state in step. -/
theorem Orderly.checkpoint (st : TrafficLocalState) (k : TrafficStreamCheckpoint)
    (h : Orderly c sent current st)
    (hk : k.counterEpoch ≠ "" ∧ k.accepted = c.checkpoint k.streamID k.counterEpoch) :
    Orderly c sent current (st.applyCheckpoint k) := by
  obtain ⟨hstreams, hpending, -, -⟩ := applyCheckpoint_spec st k
  cases hl : st.streams.lookup k.streamID with
  | none =>
    -- The stream is made up from the checkpoint.
    have hmade : checkpointStream st k = { source := k.source } := by
      unfold checkpointStream
      rw [hl]
      rfl
    have hconf : checkpointConflicts (checkpointStream st k) k = false := by
      rw [hmade]
      simp [checkpointConflicts]
    obtain ⟨haccepted, htaken⟩ := checkpointed_of_agree hconf
    have hepoch := htaken hk.1
    refine h.insert_same_epoch hstreams hpending (hepoch ▸ hk.1) ?_
      fun s hs => absurd (hl.symm.trans hs) (by simp)
    rw [hepoch, haccepted]
    exact fun _ _ => hk.2
  | some s =>
    have hfound : checkpointStream st k = s := by
      unfold checkpointStream
      rw [hl]
      rfl
    rw [hfound] at hstreams
    have hne := h.epochs _ s hl
    cases hconf : checkpointConflicts s k with
    | true =>
      obtain ⟨hepoch, haccepted, -⟩ := checkpointed_of_conflict hconf
      refine h.insert_same_epoch hstreams hpending (hepoch ▸ hne) ?_ ?_
      · rw [hepoch, haccepted]
        exact h.settled _ s hl
      · intro s' hs'
        rw [hl, Option.some.injEq] at hs'
        exact hs' ▸ hepoch
    | false =>
      have hsame : k.counterEpoch = s.counterEpoch := by
        simpa [checkpointConflicts, hk.1, hne] using hconf
      obtain ⟨haccepted, htaken⟩ := checkpointed_of_agree hconf
      have hepoch := (htaken hk.1).trans hsame
      refine h.insert_same_epoch hstreams hpending (hepoch ▸ hne) ?_ ?_
      · rw [hepoch, haccepted, hk.2, hsame]
        exact fun _ _ => rfl
      · intro s' hs'
        rw [hl, Option.some.injEq] at hs'
        exact hs' ▸ hepoch

/-- A settled report is taken off, and its stream goes on from the Controller's checkpoint. -/
theorem Orderly.answer {a : TrafficAcceptedReport} (h : Orderly c sent current st)
    (hset : st.answerSettles a = true)
    (hvalue : ∀ report, st.pendingReports.lookup a.reportID = some report →
      a.status.settles = true → c.Has a.reportID ∧ a.counterEpoch = report.counterEpoch ∧
        (if a.accepted = 0 then report.toBytes else a.accepted)
          = c.checkpoint report.streamID report.counterEpoch) :
    Orderly c sent current (st.applyAnswer a) := by
  cases hl : st.pendingReports.lookup a.reportID with
  | none =>
    cases applyAnswer_answers st a with
    | ignored streams pendingReports =>
      exact h.congr (fun sid => by rw [streams]) (fun id => by rw [pendingReports])
    | dropped report pending => exact absurd (hl.symm.trans pending) (by simp)
    | acknowledged report stream pending => exact absurd (hl.symm.trans pending) (by simp)
    | refused report stream pending => exact absurd (hl.symm.trans pending) (by simp)
  | some report =>
    have hstatus : a.status.settles = true := by
      unfold answerSettles at hset
      rw [hl, Bool.and_eq_true] at hset
      exact hset.1
    obtain ⟨hhas, hepoch, hval⟩ := hvalue report hl hstatus
    cases applyAnswer_answers st a with
    | ignored streams pendingReports =>
      exact h.congr (fun sid => by rw [streams]) (fun id => by rw [pendingReports])
    | dropped report' pending streams pendingReports why =>
      rw [hl, Option.some.injEq] at pending
      subst pending
      have hunknown : st.streams.lookup report.streamID = none := by
        refine why.resolve_left fun hterm => ?_
        rw [TrafficAcceptedReport.terminal, Bool.and_eq_true, decide_eq_true_eq] at hterm
        rw [hterm.1] at hstatus
        exact absurd hstatus (by simp [TrafficStatus.settles])
      refine h.answered hl hhas pendingReports (fun sid _ => by rw [streams]) ?_ ?_
      · intro s' hs'
        rw [streams, hunknown] at hs'
        cases hs'
      · intro s hs
        rw [hunknown] at hs
        cases hs
    | acknowledged report' stream pending known status streams pendingReports =>
      rw [hl, Option.some.injEq] at pending
      subst pending
      have hstream : a.counterEpoch = stream.counterEpoch := by
        unfold answerSettles at hset
        rw [hl] at hset
        simpa [known, hstatus] using hset
      have hself : (st.applyAnswer a).streams.lookup report.streamID
          = some (stream.acknowledged a report) := by
        rw [streams]
        exact AList.lookup_insert _
      refine h.answered hl hhas pendingReports ?_ ?_ ?_
      · intro sid hne
        rw [streams]
        exact AList.lookup_insert_ne hne
      · intro s' hs'
        rw [hself, Option.some.injEq] at hs'
        subst hs'
        refine ⟨stream, known, rfl, ?_⟩
        rw [← hstream, hepoch]
        exact hval
      · intro s hs
        rw [known, Option.some.injEq] at hs
        subst hs
        exact ⟨_, hself, rfl⟩
    | refused report' stream pending known status terminal =>
      revert status hstatus
      cases a.status <;> simp [TrafficStatus.refuses, TrafficStatus.settles]

end OboardAgent.Traffic
