import OboardAgent.Traffic.Epoch

/-!
# The tail of an epoch

While a range of a stream is pending, what the kernel shows of the stream is remembered and not
queued. So there can be a *tail*: bytes observed after the pending range ends. The next range
takes it up, unless the kernel is restarted first. Then the stream moves to the new epoch and the
tail of the old one is forgotten (`tail_is_dropped`).

So it depends on when the last observation of an epoch comes. If it comes when a range can be
queued, or shows nothing beyond the pending range, there is no tail (`Reached`), and none appears
as long as no response takes the stream back. Then nothing is lost. The checkpoint of the stream
belongs to the old epoch, a pending range starts at a value that belongs to its epoch, and what the
Controller has accepted is a chain from zero; so what was accepted and what is pending cover every
byte up to the last one observed.
-/

namespace OboardAgent.Traffic

open TrafficLocalState

/-! ## Where pending ranges start -/

def Anchored (c : Controller) (st : TrafficLocalState) : Prop :=
  ∀ id p, st.pendingReports.lookup id = some p →
    c.Belongs p.streamID p.counterEpoch p.fromBytes

variable {c : Controller} {created : List TrafficPendingRange} {st st' : TrafficLocalState}

theorem anchored_ledgerOnly (c : Controller) : LedgerOnly (Anchored c) := EachPending.ledgerOnly _

namespace World

/-! ## What is covered -/

/-- The byte is one of a range the Controller has accepted, or of one that is pending, in the
coordinate `f`. -/
def Accounted (w : World) (streamID epoch : String) (f : Counters → Int) (x : Int) : Prop :=
  (∃ y ∈ w.controller.accepted, y.streamID = streamID ∧ y.counterEpoch = epoch ∧
    f y.fromBytes ≤ x ∧ x < f y.toBytes) ∨
  ∃ id p, w.agent.memory.pendingReports.lookup id = some p ∧ p.streamID = streamID ∧
    p.counterEpoch = epoch ∧ f p.fromBytes ≤ x ∧ x < f p.toBytes

/-- Every uploaded and every downloaded byte up to the counters is accounted for. -/
def Covered (w : World) (streamID epoch : String) (v : Counters) : Prop :=
  (∀ x, 0 ≤ x → x < v.upload → w.Accounted streamID epoch Counters.upload x) ∧
    ∀ x, 0 ≤ x → x < v.download → w.Accounted streamID epoch Counters.download x

theorem accounted_of_belongs {w : World} (htiled : w.controller.Tiled) {streamID epoch : String}
    {v : Counters} (hb : w.controller.Belongs streamID epoch v) (f : Counters → Int)
    (hzero : f 0 = 0) {x : Int} (hx : 0 ≤ x) (hlt : x < f v) : w.Accounted streamID epoch f x := by
  cases hb with
  | inl hv =>
    rw [hv, hzero] at hlt
    exact absurd hlt (not_lt_of_ge hx)
  | inr hv =>
    obtain ⟨s, hs, rfl⟩ := hv
    obtain ⟨t, ht, hlo, hhi⟩ := (htiled streamID epoch).covers f hs (hzero.le.trans hx) hlt
    obtain ⟨y, hy, hsid, hepoch, hfrom, hto⟩ := Controller.exists_of_mem_spans ht
    refine Or.inl ⟨y, hy, hsid, hepoch, ?_, ?_⟩
    · rw [hfrom]
      exact hlo
    · rw [hto]
      exact hhi

theorem accounted_of_pending {w : World} (htiled : w.controller.Tiled)
    (hanchored : Anchored w.controller w.agent.memory) {id : String} {p : TrafficPendingRange}
    (hp : w.agent.memory.pendingReports.lookup id = some p) (f : Counters → Int) (hzero : f 0 = 0)
    {x : Int} (hx : 0 ≤ x) (hlt : x < f p.toBytes) : w.Accounted p.streamID p.counterEpoch f x := by
  by_cases hin : f p.fromBytes ≤ x
  · exact Or.inr ⟨id, p, hp, rfl, rfl, hin, hlt⟩
  · exact accounted_of_belongs htiled (hanchored id p hp) f hzero hx (lt_of_not_ge hin)

/-! ## When a stream has no tail -/

/-- Everything observed of the stream is accepted, or within a range that is pending for it. The
range has an epoch and an inbound, so a restart keeps it. -/
def Reaches (sid : String) (st : TrafficLocalState) (stream : TrafficStreamState) : Prop :=
  stream.observed ≤ stream.accepted ∨
    ∃ id p, st.pendingReports.lookup id = some p ∧ p.streamID = sid ∧
      p.counterEpoch = stream.counterEpoch ∧ stream.observed ≤ p.toBytes ∧
      p.counterEpoch ≠ "" ∧ namesInbound p = true

def Reached (sid : String) (st : TrafficLocalState) : Prop :=
  ∀ stream, st.streams.lookup sid = some stream → Reaches sid st stream

/-- Nothing keeps a range for the item from being queued: no recovery, no range of the stream
pending, no block, and counters that have not gone back. -/
def Free (r : Runner) (st : TrafficLocalState) (recovering : Bool) (item : TrafficSnapshotItem) :
    Prop :=
  recovering = false ∧ st.recoveryRequired = false ∧
    st.pendingExists (r.itemStream item) item = false ∧ 0 < item.inboundID ∧
    acceptedAfter (st.streams.lookup (r.itemStream item)) item ≤ item.counters ∧
    ∀ stream ∈ st.streams.lookup (r.itemStream item), stream.status.blocked = false ∧
      (stream.counterEpoch = item.counterEpoch → stream.observed ≤ item.counters)

/-- The item shows nothing new, nothing beyond a range that is pending in its epoch, or it comes
when a range can be queued. -/
def Timely (r : Runner) (st : TrafficLocalState) (recovering : Bool) (item : TrafficSnapshotItem) :
    Prop :=
  item.counters ≤ acceptedAfter (st.streams.lookup (r.itemStream item)) item ∨
    (∃ id p, st.pendingReports.lookup id = some p ∧ p.streamID = r.itemStream item ∧
      p.counterEpoch = item.counterEpoch ∧ item.counters ≤ p.toBytes ∧ namesInbound p = true) ∨
    Free r st recovering item

/-- A checkpoint of the stream does not take it back. -/
def Raises (sid : String) (st : TrafficLocalState) (k : TrafficStreamCheckpoint) : Prop :=
  k.streamID = sid → checkpointConflicts (checkpointStream st k) k = false →
    (checkpointStream st k).accepted ≤ k.accepted

/-- The answer does not refuse a pending report of the stream. An acknowledgement is of the whole
report, and does not take the stream back. -/
def Completes (sid : String) (st : TrafficLocalState) (a : TrafficAcceptedReport) : Prop :=
  ∀ report, st.pendingReports.lookup a.reportID = some report → report.streamID = sid →
    a.status.refuses = false ∧ (a.accepted ≠ 0 → report.toBytes ≤ a.accepted) ∧
    ∀ stream, st.streams.lookup sid = some stream →
      stream.accepted ≤ if a.accepted = 0 then report.toBytes else a.accepted

/-- The step shows nothing of the stream and no response takes it back; the agent is restarted only
when the file holds what is in memory. -/
def KeepsTail (r : Runner) (sid : String) (w : World) : WorldEvent → Prop
  | .agent (.observe _ _ item) => itemCounts item = true → r.itemStream item ≠ sid
  | .agent (.respond _ resp) =>
    Run.Along applyCheckpoint (Raises sid) w.agent.memory resp.streamCheckpoints ∧
      Run.Along applyAnswer (Completes sid)
        (Run.exec applyCheckpoint w.agent.memory resp.streamCheckpoints) resp.acceptedReports
  | .agent .restart =>
    readTrafficStateFile w.agent.files.primary = .ok (savedForm w.agent.memory)
  | _ => True

/-- There is no report of the first version to convert. -/
def Current (w : World) : WorldEvent → Prop
  | .agent .convert => w.agent.memory.pending = []
  | _ => True

instance (w : World) : ∀ ev, Decidable (Current w ev)
  | .agent .convert => inferInstanceAs (Decidable (w.agent.memory.pending = []))
  | .send _ | .adopt _ _ | .accept _ | .give _ | .agent (.observe _ _ _) | .agent (.prune _)
  | .agent (.fail _) | .agent (.respond _ _) | .agent (.save _) | .agent .restart => .isTrue trivial

/-! ## One lemma per event -/

variable {sid : String}

theorem Reached.congr (h : Reached sid st) (hs : st'.streams.lookup sid = st.streams.lookup sid)
    (hp : ∀ id p, st.pendingReports.lookup id = some p → p.streamID = sid →
      namesInbound p = true → st'.pendingReports.lookup id = some p) : Reached sid st' := by
  intro stream hl
  refine (h stream (hs ▸ hl)).imp_right ?_
  rintro ⟨id, p, hlook, hsid, hepoch, hto, hne, hin⟩
  exact ⟨id, p, hp id p hlook hsid hin, hsid, hepoch, hto, hne, hin⟩

/-- **A range is queued.** When nothing stands in the way and there is something to account, the
item queues a range. -/
theorem Free.queues {r : Runner} {a : Agent} {recovering : Bool} {item : TrafficSnapshotItem}
    (hfree : Free r a.memory recovering item) (hcounts : itemCounts item = true)
    (hnew : item.counters ≠ acceptedAfter (a.memory.streams.lookup (r.itemStream item)) item)
    (now : Int) : ∃ p, a.observedRange r now recovering item = some p := by
  obtain ⟨rfl, hreq, hpend, hin, hle, hstream⟩ := hfree
  simp only [itemCounts, Bool.and_eq_true, decide_eq_true_eq] at hcounts
  have haccepted := enterEpoch_accepted (Rfc3339.format now)
    (a.memory.streams.lookup (r.itemStream item)) item
  have hfine : (enterEpoch (identify (Rfc3339.format now)
      (a.memory.streams.lookup (r.itemStream item)) item) item).status.blocked = false ∧
      ¬Regresses (enterEpoch (identify (Rfc3339.format now)
        (a.memory.streams.lookup (r.itemStream item)) item) item) item := by
    cases hl : a.memory.streams.lookup (r.itemStream item) with
    | none =>
      refine ⟨by simp [enterEpoch, identify, TrafficStatus.blocked], fun hreg => hcounts.2 ?_⟩
      simpa [enterEpoch, identify] using hreg.1.symm
    | some stream =>
      obtain ⟨hblocked, hforward⟩ := hstream stream hl
      unfold enterEpoch
      split
      · rename_i hmoves
        refine ⟨?_, fun hreg => hmoves.2 ?_⟩
        · split
          · rfl
          · exact hblocked
        · split at hreg <;> exact hreg.1
      · refine ⟨hblocked, fun hreg => ?_⟩
        have hbelow := Counters.below_eq_false.mpr (hforward hreg.1)
        rw [show item.counters.below stream.observed = true from hreg.2.2] at hbelow
        cases hbelow
  unfold Agent.observedRange
  rw [if_pos (by simp [itemCounts, hcounts]), hreq, hpend]
  unfold Runner.observeStream
  simp only
  rw [if_neg (show ¬(_ ∧ _ ∧ _) from hfine.2)]
  exact ⟨_, Runner.settle_queues hfine.1 (haccepted ▸ hle) (haccepted ▸ hnew) hin hcounts.1.2⟩

/-- **A timely observation leaves no tail.** -/
theorem Timely.reached {r : Runner} {a : Agent} {recovering : Bool} {item : TrafficSnapshotItem}
    (htimely : Timely r a.memory recovering item) (hcounts : itemCounts item = true) (now : Int) :
    Reached (r.itemStream item) (a.act r (.observe now recovering item)) := by
  obtain ⟨hskip, -, -⟩ | ⟨-, o, hset, hact, hrange⟩ := a.observe_cases r now recovering item
  · rw [hskip] at hcounts
    cases hcounts
  have hepoch : item.counterEpoch ≠ "" := by
    simp only [itemCounts, Bool.and_eq_true, decide_eq_true_eq] at hcounts
    exact hcounts.2
  rw [hact]
  intro stream hl
  rw [queue_streams] at hl
  obtain rfl : o.stream = stream := Option.some.inj ((AList.lookup_insert _).symm.trans hl)
  unfold Reaches
  rw [hset.observed, hset.accepted, hset.counterEpoch]
  rcases htimely with hall | ⟨id, p, hp, hsid, hpe, hto, hin⟩ | hfree
  · exact Or.inl hall
  · refine Or.inr ⟨id, p, ?_, hsid, hpe, hto, hpe ▸ hepoch, hin⟩
    -- While it is pending no other range of the stream is queued.
    have hexists : a.memory.pendingExists (r.itemStream item) item = true :=
      Bool.or_eq_true_iff.mpr (Or.inl (GoMap.anyVal_iff.mpr ⟨id, p, hp, decide_eq_true hsid⟩))
    cases ho : o.range with
    | none => exact hp
    | some q =>
      rw [(hset.range q ho).2.1] at hexists
      cases hexists
  · by_cases hnew : item.counters = acceptedAfter (a.memory.streams.lookup (r.itemStream item)) item
    · exact Or.inl (le_of_eq hnew)
    · obtain ⟨p, hp⟩ := hfree.queues hcounts hnew now
      obtain ⟨-, -, -, hsid, hpe, -, hto, -, -, hin⟩ := Agent.observedRange_some hp
      refine Or.inr ⟨p.reportID, p, ?_, hsid, hpe, le_of_eq hto.symm, hpe ▸ hepoch, hin⟩
      rw [← hrange, hp]
      exact AList.lookup_insert _

/-- A range that is queued for another stream replaces none of this one: its id is its own. -/
theorem reached_observe {r : Runner} {w : World} {now : Int} {recovering : Bool}
    {item : TrafficSnapshotItem} (h : Reached sid w.agent.memory)
    (hsound : Sound w.controller w.created w.agent.memory)
    (hd : (w.step r (.agent (.observe now recovering item))).Distinct)
    (hother : itemCounts item = true → r.itemStream item ≠ sid) :
    Reached sid (w.agent.act r (.observe now recovering item)) := by
  obtain ⟨-, hsame, -⟩ | ⟨hcounts, o, -, hact, hrange⟩ :=
    w.agent.observe_cases r now recovering item
  · rw [hsame]
    exact h
  rw [hact]
  refine h.congr ?_ fun id q hl hq _ => ?_
  · rw [queue_streams]
    exact AList.lookup_insert_ne (hother hcounts).symm
  · cases ho : o.range with
    | none => exact hl
    | some p =>
      show (w.agent.memory.pendingReports.insert p.reportID p).lookup id = some q
      rw [GoMap.lookup_insert_eq, if_neg ?_]
      · exact hl
      · intro hid
        obtain ⟨-, -, -, hp, -⟩ := Agent.observedRange_some (hrange.trans ho)
        obtain ⟨hkey, hmem⟩ := hsound.tracked id q hl
        have hpmem : p ∈ w.agent.queuedBy r (.observe now recovering item) :=
          Option.mem_toList.mpr (hrange.trans ho)
        have hsame := hd q.wire
          (List.mem_append_left _ (List.mem_map_of_mem (List.mem_append_left _ hmem))) p.wire
          (List.mem_append_left _ (List.mem_map_of_mem (List.mem_append_right _ hpmem)))
          (hkey.trans hid)
        exact hother hcounts (hp.symm.trans (hsame.1.symm.trans hq))

theorem reached_checkpoint (st : TrafficLocalState) (k : TrafficStreamCheckpoint)
    (h : Reached sid st) (hk : Raises sid st k) : Reached sid (st.applyCheckpoint k) := by
  obtain ⟨hstreams, hpending, -, -⟩ := applyCheckpoint_spec st k
  by_cases hsid : sid = k.streamID
  · subst hsid
    intro stream hl
    rw [hstreams, AList.lookup_insert] at hl
    obtain rfl := Option.some.inj hl
    have hbefore : Reaches k.streamID st (checkpointStream st k) := by
      unfold checkpointStream
      cases hknown : st.streams.lookup k.streamID with
      | none => exact Or.inl (le_refl _)
      | some known => exact h known hknown
    unfold Reaches TrafficStreamState.checkpointed
    rw [hpending]
    cases hconf : checkpointConflicts (checkpointStream st k) k with
    | true => exact hbefore
    | false =>
      rcases hbefore with hle | ⟨id, p, hp, hsid, hepoch, hto, hne, hin⟩
      · exact Or.inl (hle.trans (hk rfl hconf))
      · -- The stream of a pending range has an epoch, and an agreeing checkpoint keeps it.
        refine Or.inr ⟨id, p, hp, hsid, ?_, hto, hne, hin⟩
        show p.counterEpoch = if k.counterEpoch ≠ "" then k.counterEpoch
          else (checkpointStream st k).counterEpoch
        split
        · rename_i hk'
          simp only [checkpointConflicts, hk', hepoch ▸ hne, ne_eq, not_false_eq_true, decide_true,
            Bool.true_and, decide_not, Bool.not_eq_false', decide_eq_true_eq] at hconf
          exact hepoch.trans hconf.symm
        · exact hepoch
  · refine h.congr ?_ fun id p hl _ _ => ?_
    · rw [hstreams]
      exact AList.lookup_insert_ne hsid
    · rw [hpending]
      exact hl

theorem reached_answer (st : TrafficLocalState) (a : TrafficAcceptedReport) (h : Reached sid st)
    (ha : Completes sid st a) : Reached sid (st.applyAnswer a) := by
  have hanswers := applyAnswer_answers st a
  by_cases hmine : ∃ report, st.pendingReports.lookup a.reportID = some report ∧
      report.streamID = sid
  swap
  · refine h.congr (hanswers.lookup_streams fun r hr hsid => hmine ⟨r, hr, hsid.symm⟩) ?_
    intro id p hp hpsid _
    rw [hanswers.lookup_pending]
    · exact hp
    · rintro rfl
      exact hmine ⟨p, hp, hpsid⟩
  obtain ⟨report, hreport, rfl⟩ := hmine
  obtain ⟨hrefuses, hwhole, hraises⟩ := ha report hreport rfl
  cases hanswers with
  | ignored streams pendingReports =>
    exact h.congr (by rw [streams]) fun id p hp _ _ => by rw [pendingReports]; exact hp
  | dropped report' pending streams pendingReports why =>
    cases hreport.symm.trans pending
    intro stream hl
    rw [streams] at hl
    rcases why with hterminal | hunknown
    · simp only [TrafficAcceptedReport.terminal, Bool.and_eq_true, decide_eq_true_eq] at hterminal
      rw [hterminal.1] at hrefuses
      cases hrefuses
    · cases hl.symm.trans hunknown
  | acknowledged report' stream pending known status streams pendingReports =>
    cases hreport.symm.trans pending
    intro stream' hl
    rw [streams, AList.lookup_insert] at hl
    obtain rfl := Option.some.inj hl
    rcases h stream known with hle | ⟨id, p, hp, hrest⟩
    · exact Or.inl (hle.trans (hraises stream known))
    · by_cases hanswered : id = a.reportID
      · -- The report that reaches so far is the one that is answered.
        subst hanswered
        cases hreport.symm.trans hp
        refine Or.inl (hrest.2.2.1.trans ?_)
        show report.toBytes ≤ if a.accepted = 0 then report.toBytes else a.accepted
        split
        · exact le_refl _
        · rename_i hzero
          exact hwhole hzero
      · refine Or.inr ⟨id, p, ?_, hrest⟩
        rw [(applyAnswer_answers st a).lookup_pending hanswered, hp]
  | refused report' stream pending known status =>
    rw [status] at hrefuses
    cases hrefuses

theorem reached_act {r : Runner} {w : World} {ev : AgentEvent} (h : Reached sid w.agent.memory)
    (hsound : Sound w.controller w.created w.agent.memory)
    (hd : (w.step r (.agent ev)).Distinct) (hcurrent : w.Current (.agent ev))
    (htail : w.KeepsTail r sid (.agent ev)) : Reached sid (w.agent.act r ev) := by
  cases ev with
  | observe now recovering item => exact reached_observe h hsound hd htail
  | convert =>
    show Reached sid (r.convertLegacyPendingToRanges w.agent.memory).1
    rw [(r.convert_of_none hcurrent).1]
    exact h
  | prune now =>
    intro stream hl
    have hbound := (lookup_prune w.agent.memory now sid).symm.trans hl
    obtain ⟨stream₀, hl₀, hkeep⟩ := Option.bind_eq_some_iff.mp hbound
    obtain ⟨date, rfl⟩ := pruneStream_some hkeep
    exact h stream₀ hl₀
  | respond now resp =>
    have hfirst := Run.invariant reached_checkpoint h htail.1
    have hsecond := Run.invariant reached_answer hfirst htail.2
    have hledger := applyResponse_sameLedger w.agent.memory now resp
    exact hsecond.congr (congrArg (AList.lookup sid) hledger.streams) fun id p hp _ _ =>
      (congrArg (AList.lookup id) hledger.pendingReports).trans hp
  | fail error => exact h
  | save w' => exact h
  | restart =>
    show Reached sid (loadTrafficState w.agent.files.primary w.agent.files.backup)
    rw [loadTrafficState_of_ok htail]
    obtain ⟨hstreams, hpending⟩ := savedForm_ledger w.agent.memory
    refine h.congr ?_ fun id p hp _ hin => ?_
    · rw [migrateLoadedTrafficState_streams, hstreams]
    · exact lookup_migrateLoadedTrafficState.mpr ⟨hpending ▸ hp, hin⟩

/-! ## What holds of every world that is reached -/

structure Ledgered (w : World) : Prop where
  consistent : w.Consistent
  anchored : w.agent.Holds (Anchored w.controller)
  tiled : w.controller.Tiled

theorem Fresh.ledgered {w : World} (h : w.Fresh) (htiled : w.controller.Tiled) : w.Ledgered :=
  ⟨h.consistent, h.agent.imp fun st hst => (anchored_ledgerOnly _).empty st hst.1 hst.2, htiled⟩

theorem anchored_act {r : Runner} {w : World} {ev : AgentEvent} (h : w.Ledgered)
    (hmatch : w.EpochsMatch r (.agent ev)) (hcurrent : w.Current (.agent ev)) :
    Anchored w.controller (w.agent.act r ev) := by
  refine EachPending.act h.anchored fun p hp => ?_
  obtain ⟨now, recovering, item, rfl, hrange⟩ | ⟨rfl, hconverted⟩ := Agent.mem_queuedBy hp
  · obtain ⟨-, -, -, hsid, hepoch, hfrom, -, -⟩ := Agent.observedRange_some hrange
    rw [hsid, hepoch, hfrom]
    exact h.consistent.agent.memory.acceptedAfter hmatch
  · rw [(r.convert_of_none hcurrent).2] at hconverted
    cases hconverted

theorem ledgered_step {r : Runner} (w : World) (ev : WorldEvent) (h : w.Ledgered)
    (hev : (w.Legal ev ∧ w.Distinct ∧ w.EpochsMatch r ev) ∧ w.Current ev) :
    (w.step r ev).Ledgered := by
  obtain ⟨hcond, hcurrent⟩ := hev
  have hconsistent := consistent_step w ev h.consistent hcond
  cases ev with
  | agent ev =>
    exact ⟨hconsistent,
      h.anchored.step (anchored_ledgerOnly _) (anchored_act h hcond.2.2 hcurrent), h.tiled⟩
  | send order => exact ⟨hconsistent, h.anchored, h.tiled⟩
  | accept x =>
    exact ⟨hconsistent, h.anchored.imp fun st hst id p hl => (hst id p hl).accept x,
      h.tiled.accept hcond.1.2⟩
  | adopt streamID epoch => exact ⟨hconsistent, h.anchored, h.tiled⟩
  | give resp => exact ⟨hconsistent, h.anchored, h.tiled⟩

/-- Without a tail, everything observed of the stream is covered. -/
theorem Ledgered.covered {w : World} (h : w.Ledgered) (hreached : Reached sid w.agent.memory)
    {stream : TrafficStreamState} (hl : w.agent.memory.streams.lookup sid = some stream)
    (hne : stream.counterEpoch ≠ "") : w.Covered sid stream.counterEpoch stream.observed := by
  -- Each coordinate by itself: below the checkpoint, or below the end of a pending range.
  have hcover : ∀ f : Counters → Int, f 0 = 0 → (∀ u v : Counters, u ≤ v → f u ≤ f v) →
      ∀ x, 0 ≤ x → x < f stream.observed → w.Accounted sid stream.counterEpoch f x := by
    intro f hzero hmono x hx hlt
    rcases hreached stream hl with hall | ⟨id, p, hp, hsid, hepoch, hto, -⟩
    · have hb := h.consistent.agent.memory.belongs _ stream hl hne
      exact accounted_of_belongs h.tiled hb f hzero hx (hlt.trans_le (hmono _ _ hall))
    · rw [← hsid, ← hepoch]
      exact accounted_of_pending h.tiled h.anchored.memory hp f hzero hx
        (hlt.trans_le (hmono _ _ hto))
  exact ⟨hcover _ rfl fun _ _ huv => huv.1, hcover _ rfl fun _ _ huv => huv.2⟩

/-- The invariant of the steps after the last observation of the stream. The ranges queued by the
last step are part of `Distinct` from the next state on. -/
theorem tailless_step {r : Runner} (w : World) (ev : WorldEvent)
    (h : w.Ledgered ∧ (w.Distinct → Reached sid w.agent.memory))
    (hev : ((w.Legal ev ∧ w.Distinct ∧ w.EpochsMatch r ev) ∧ w.Current ev) ∧ w.KeepsTail r sid ev) :
    (w.step r ev).Ledgered ∧ ((w.step r ev).Distinct → Reached sid (w.step r ev).agent.memory) := by
  refine ⟨ledgered_step w ev h.1 hev.1, fun hd => ?_⟩
  have hreached := h.2 hev.1.1.2.1
  cases ev with
  | agent ev => exact reached_act hreached h.1.consistent.agent.memory hd hev.1.2 hev.2
  | send order => exact hreached
  | accept x => exact hreached
  | adopt streamID epoch => exact hreached
  | give resp => exact hreached

theorem blank_tiled : blank.controller.Tiled := fun _ _ => trivial

end World

end OboardAgent.Traffic
