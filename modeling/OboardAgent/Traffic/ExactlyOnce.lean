import OboardAgent.Traffic.Settle

/-!
# Every byte is sent once

With an honest Controller, for every stream and epoch, the ranges that are *sent* are a chain from
zero: two of them are the same report, with the same id and the same bounds, or they have no byte
in common, and each starts where another one ended. This is what makes a retry harmless.

It is not so for the ranges that are *created*: one that was created and not saved is forgotten by
a restart, and the next one has other bounds (`forgotten_range_is_recreated`). So a range may be
sent only when it is pending in the saved state too.
-/

namespace OboardAgent.Traffic

open TrafficLocalState

namespace World

/-! ## What holds of every world that is reached -/

def epochOf (r : Runner) (w : World) (sid : String) : Option String :=
  (w.shown.find? fun i => r.itemStream i = sid).map TrafficSnapshotItem.counterEpoch

def Shown (r : Runner) (w : World) (sid epoch : String) (v : Counters) : Prop :=
  ∃ i ∈ w.shown, r.itemStream i = sid ∧ i.counterEpoch = epoch ∧ i.counters = v

def SettlesAnswer (w : World) (a : TrafficAcceptedReport) : Prop :=
  a.status.settles = true → ∃ y ∈ w.controller.accepted, y.reportID = a.reportID ∧
    y.counterEpoch = a.counterEpoch ∧
    (a.accepted = 0 ∨ (y.toBytes ≤ a.accepted ∧
      a.accepted ≤ w.controller.checkpoint y.streamID y.counterEpoch))

structure Exact (r : Runner) (w : World) : Prop where
  consistent : w.Consistent
  tiled : w.controller.Tiled
  distinct : w.Distinct
  accepted : ∀ y ∈ w.controller.accepted, y ∈ w.sent
  created : ∀ p ∈ w.created, p.fromBytes ≤ p.toBytes ∧ p.fromBytes ≠ p.toBytes ∧
    w.Shown r p.streamID p.counterEpoch p.toBytes
  answers : ∀ resp ∈ w.responses, ∀ a ∈ resp.acceptedReports, w.SettlesAnswer a
  readable : ∃ st, readTrafficStateFile w.agent.files.primary = .ok st
  memory : Orderly w.controller w.sent (w.epochOf r) w.agent.memory
  reload : Orderly w.controller w.sent (w.epochOf r) w.agent.reload

variable {w : World} {y x : TrafficLedgerReportItem} {r : Runner} {st : TrafficLocalState}

theorem HonestAnswer.settles {a : TrafficAcceptedReport} (htiled : w.controller.Tiled)
    (h : w.HonestAnswer a) : w.SettlesAnswer a := by
  intro hs
  obtain ⟨x, -, hid, -, hack, -⟩ := h
  obtain ⟨hack', hcov⟩ := TrafficStatus.acknowledges_of_settles hs
  obtain ⟨hepoch, ⟨hacc, hv⟩ | ⟨hc, -⟩⟩ := hack hack'
  · have hle := htiled.le_checkpoint hacc
    refine ⟨x, hacc, hid, hepoch.symm, ?_⟩
    obtain hv | hv | hv := hv
    · exact Or.inl hv
    · exact Or.inr ⟨hv ▸ le_refl _, hv ▸ hle⟩
    · exact Or.inr ⟨hv ▸ hle, hv ▸ le_refl _⟩
  · exact absurd hc hcov

theorem Distinct.of_accepted (hd : w.Distinct)
    (hy : y ∈ w.controller.accepted) {p : TrafficPendingRange} (hp : p ∈ w.created)
    (hid : y.reportID = p.reportID) : y.SameRange p.wire :=
  hd y (List.mem_append_right _ hy) p.wire
    (List.mem_append_left _ (List.mem_map_of_mem hp)) hid

theorem Exact.accepted_last (h : Exact r w) (hsound : Sound w.controller w.created st)
    (hord : Orderly w.controller w.sent (w.epochOf r) st) {id : String}
    {report : TrafficPendingRange} (hl : st.pendingReports.lookup id = some report)
    (hy : y ∈ w.controller.accepted) (hid : y.reportID = id) :
    report.toBytes = w.controller.checkpoint report.streamID report.counterEpoch := by
  obtain ⟨hkey, hmem⟩ := hsound.tracked id report hl
  obtain ⟨hsid, hepoch, -, hto⟩ := h.distinct.of_accepted hy hmem (hid.trans hkey.symm)
  cases hord.placed id report hl with
  | inr hlast => exact hlast.2
  | inl hnext =>
    -- It would start where it ended, and no range is empty.
    have hle := h.tiled.le_checkpoint hy
    rw [hsid, hepoch, hto] at hle
    obtain ⟨hfrom, hne, -⟩ := h.created report hmem
    exact absurd (le_antisymm hfrom (hle.trans (le_of_eq hnext.symm))) hne

theorem Exact.value (h : Exact r w) (hsound : Sound w.controller w.created st)
    (hord : Orderly w.controller w.sent (w.epochOf r) st) {a : TrafficAcceptedReport}
    (ha : w.SettlesAnswer a) (report : TrafficPendingRange)
    (hl : st.pendingReports.lookup a.reportID = some report) (hs : a.status.settles = true) :
    w.controller.Has a.reportID ∧ a.counterEpoch = report.counterEpoch ∧
      (if a.accepted = 0 then report.toBytes else a.accepted)
        = w.controller.checkpoint report.streamID report.counterEpoch := by
  obtain ⟨y, hy, hid, hye, hv⟩ := ha hs
  obtain ⟨hkey, hmem⟩ := hsound.tracked _ report hl
  obtain ⟨hsid, hepoch, -, hto⟩ := h.distinct.of_accepted hy hmem (hid.trans hkey.symm)
  have hlast := h.accepted_last hsound hord hl hy hid
  refine ⟨⟨y, hy, hid⟩, hye.symm.trans hepoch, ?_⟩
  split
  · exact hlast
  · rename_i hne
    obtain ⟨hlo, hhi⟩ := hv.resolve_left hne
    rw [hsid, hepoch] at hhi
    rw [hto] at hlo
    exact le_antisymm hhi (hlast ▸ hlo)

theorem Exact.unknown (h : Exact r w) (hsound : Sound w.controller w.created st) {sid e : String}
    (hne : e ≠ "") (hfresh : ∀ i ∈ w.shown, r.itemStream i = sid → i.counterEpoch ≠ e) :
    (∀ x ∈ w.sent, x.streamID = sid → x.counterEpoch ≠ e) ∧
      (∀ id p, st.pendingReports.lookup id = some p → p.streamID = sid → p.counterEpoch ≠ e) ∧
      ∀ s, st.streams.lookup sid = some s → s.counterEpoch = e →
        s.accepted = w.controller.checkpoint sid e := by
  have hcreated : ∀ p ∈ w.created, p.streamID = sid → p.counterEpoch ≠ e := by
    intro p hp hs he
    obtain ⟨-, -, i, hi, his, hie, -⟩ := h.created p hp
    exact hfresh i hi (his.trans hs) (hie.trans he)
  have hsent : ∀ x ∈ w.sent, x.streamID = sid → x.counterEpoch ≠ e := by
    intro x hx
    obtain ⟨p, hp, rfl⟩ := h.consistent.sent x hx
    exact hcreated p hp
  have haccepted : ∀ y ∈ w.controller.accepted, y.streamID = sid → y.counterEpoch ≠ e :=
    fun y hy => hsent y (h.accepted y hy)
  refine ⟨hsent, fun id p hl => hcreated p (hsound.tracked id p hl).2, ?_⟩
  intro s hl hse
  rw [Controller.checkpoint_eq_zero haccepted]
  cases hsound.belongs sid s hl (hse ▸ hne) with
  | inl hzero => exact hzero
  | inr hsome =>
    obtain ⟨t, ht, -⟩ := hsome
    obtain ⟨y, hy, hys, hye, -⟩ := Controller.exists_of_mem_spans ht
    exact absurd (hye.trans hse) (haccepted y hy hys)

/-! ## Runs -/

/-- The step keeps agent and Controller in step. What is sent is pending in the saved state too;
the kernel does not return to an epoch it has left; an answer to a pending report says that it was
accepted, in the epoch the stream is in; a stream checkpoint is the current one; nothing is
converted or pruned. -/
def InStep (r : Runner) (w : World) : WorldEvent → Prop
  | .send order =>
    ∀ x ∈ trafficLedgerReportBatch w.agent.memory.pendingReports order,
      (w.agent.reload.pendingReports.lookup x.reportID).isSome
  | .agent (.observe _ _ item) =>
    itemCounts item = true → w.epochOf r (r.itemStream item) = some item.counterEpoch ∨
      ∀ i ∈ w.shown, r.itemStream i = r.itemStream item → i.counterEpoch ≠ item.counterEpoch
  | .agent (.respond _ resp) =>
    (∀ k ∈ resp.streamCheckpoints, k.counterEpoch ≠ "" ∧
      k.accepted = w.controller.checkpoint k.streamID k.counterEpoch) ∧
    Run.Along applyAnswer (fun st a => st.answerSettles a = true)
      (Run.exec applyCheckpoint w.agent.memory resp.streamCheckpoints) resp.acceptedReports
  | .agent .convert => w.agent.memory.pending = []
  | .agent (.prune _) => False
  | _ => True

instance (r : Runner) (w : World) : ∀ ev, Decidable (InStep r w ev)
  | .send _ => inferInstanceAs (Decidable (∀ x ∈ _, _ = true))
  | .agent (.observe _ _ _) => inferInstanceAs (Decidable (_ → _ ∨ ∀ i ∈ _, _ → _))
  | .agent (.respond _ _) => inferInstanceAs (Decidable (_ ∧ _))
  | .agent .convert => inferInstanceAs (Decidable (w.agent.memory.pending = []))
  | .agent (.prune _) => .isFalse id
  | .adopt _ _ | .accept _ | .give _ | .agent (.fail _) | .agent (.save _) | .agent .restart =>
    .isTrue trivial

section

variable (h : Exact r w)
include h

theorem InStep.epochsMatch {ev : WorldEvent} (hev : w.InStep r ev) : w.EpochsMatch r ev := by
  cases ev with
  | agent ev =>
    cases ev with
    | observe now recovering item =>
      intro stream hl hempty
      exact absurd hempty (h.memory.epochs _ stream hl)
    | convert =>
      have hnone : w.agent.memory.pending = [] := hev
      refine ⟨?_, fun hsome => absurd hnone hsome⟩
      rw [hnone]
      trivial
    | respond now resp => exact hev.2.mono fun _ _ hs => answerMatches_of_settles hs
    | _ => trivial
  | _ => trivial

theorem Exact.quiet {ev : AgentEvent}
    (hcons : (w.step r (.agent ev)).Consistent) (hdist : (w.step r (.agent ev)).Distinct)
    (hqueued : w.agent.queuedBy r ev = []) (hshown : shownBy ev = [])
    (hread : ∃ st, readTrafficStateFile (w.agent.step r ev).files.primary = .ok st)
    (hmem : Orderly w.controller w.sent (w.epochOf r) (w.agent.act r ev))
    (hreload : Orderly w.controller w.sent (w.epochOf r) (w.agent.step r ev).reload) :
    Exact r (w.step r (.agent ev)) := by
  have hs : (w.step r (.agent ev)).shown = w.shown := by
    show shownBy ev ++ w.shown = w.shown
    rw [hshown]
    rfl
  have hc : (w.step r (.agent ev)).created = w.created := by
    show w.created ++ w.agent.queuedBy r ev = w.created
    rw [hqueued, List.append_nil]
  have he : (w.step r (.agent ev)).epochOf r = w.epochOf r := by
    unfold epochOf
    rw [hs]
  refine ⟨hcons, h.tiled, hdist, h.accepted, ?_, h.answers, hread, ?_, ?_⟩
  · unfold Shown
    rw [hc, hs]
    exact h.created
  · rw [he]
    exact hmem
  · rw [he]
    exact hreload

theorem exact_observe {now : Int} {recovering : Bool} {item : TrafficSnapshotItem}
    (hcons : (w.step r (.agent (.observe now recovering item))).Consistent)
    (hdist : (w.step r (.agent (.observe now recovering item))).Distinct)
    (hev : w.InStep r (.agent (.observe now recovering item))) :
    Exact r (w.step r (.agent (.observe now recovering item))) := by
  obtain ⟨hskip, hact, hrange⟩ | ⟨hcounts, -⟩ := w.agent.observe_cases r now recovering item
  · refine h.quiet hcons hdist ?_ ?_ h.readable ?_ h.reload
    · simp [Agent.queuedBy, hrange]
    · simp [shownBy, hskip]
    · rw [hact]
      exact h.memory
  have hepoch : item.counterEpoch ≠ "" := by
    simp only [itemCounts, Bool.and_eq_true, decide_eq_true_eq] at hcounts
    exact hcounts.2
  have hshown : (w.step r (.agent (.observe now recovering item))).shown = item :: w.shown := by
    simp [step, shownBy, hcounts]
  have hcurrent : ∀ sid, (w.step r (.agent (.observe now recovering item))).epochOf r sid
      = if sid = r.itemStream item then some item.counterEpoch else w.epochOf r sid := by
    intro sid
    unfold epochOf
    rw [hshown, List.find?_cons]
    by_cases hsid : r.itemStream item = sid
    · simp [hsid]
    · simp [hsid, Ne.symm hsid]
  have hshows : ∀ st, Sound w.controller w.created st →
      Orderly w.controller w.sent (w.epochOf r) st →
      Orderly w.controller w.sent
        ((w.step r (.agent (.observe now recovering item))).epochOf r) st := by
    intro st hsound hord
    exact hord.shows hcurrent ((hev hcounts).imp_right fun hfresh => h.unknown hsound hepoch hfresh)
  have hold := h.consistent.agent
  refine ⟨hcons, h.tiled, hdist, h.accepted, ?_, h.answers, h.readable, ?_, ?_⟩
  · refine List.forall_mem_append.mpr ⟨fun p hmem => ?_, fun p hnew => ?_⟩
    · obtain ⟨hle, hne, i, hi, hfacts⟩ := h.created p hmem
      exact ⟨hle, hne, i, hshown ▸ List.mem_cons_of_mem _ hi, hfacts⟩
    · have hrange := Option.mem_toList.mp hnew
      obtain ⟨-, -, -, hsid, hpe, -, hto, hle, hne, -⟩ := Agent.observedRange_some hrange
      exact ⟨hle, hne, item, hshown ▸ List.mem_cons_self, hsid.symm, hpe.symm, hto.symm⟩
  · refine (hshows _ hold.memory h.memory).observe h.accepted hcounts ?_ ?_
    · rw [hcurrent, if_pos rfl]
    · -- A pending report under the new range's id would be one of the same stream.
      intro p hp hnone
      cases hl : w.agent.memory.pendingReports.lookup p.reportID with
      | none => rfl
      | some q =>
        obtain ⟨hkey, hmem⟩ := hold.memory.tracked _ q hl
        have hsame := hdist q.wire
          (List.mem_append_left _ (List.mem_map_of_mem (List.mem_append_left _ hmem))) p.wire
          (List.mem_append_left _ (List.mem_map_of_mem
            (List.mem_append_right _ (Option.mem_toList.mpr hp)))) hkey
        exact absurd hsame.1 (hnone _ q hl)
  · exact hshows _ (hold.restart (sound_ledgerOnly _ _) r) h.reload

theorem exact_respond {now : Int} {resp : TrafficReportResponse}
    (hlegal : w.Legal (.agent (.respond now resp))) (hev : w.InStep r (.agent (.respond now resp)))
    : Orderly w.controller w.sent (w.epochOf r) (w.agent.act r (.respond now resp)) := by
  obtain ⟨hchecks, hanswers⟩ := hev
  have hfirst := Run.invariant Orderly.checkpoint h.memory (Run.Along.of_forall hchecks)
  have hsound := Run.invariant sound_checkpoint h.consistent.agent.memory
    (Run.Along.of_forall (h.consistent.checkpoints resp hlegal))
  -- Both loop invariants together, because where a value belongs decides what it settles.
  have hboth := Run.invariant
    (I := fun st => Sound w.controller w.created st ∧
      Orderly w.controller w.sent (w.epochOf r) st)
    (P := fun st a => (w.TellsAnswer a ∧ w.SettlesAnswer a) ∧ st.answerSettles a = true)
    (fun st a hI hP =>
      ⟨sound_answer h.distinct h.consistent.sent st a hI.1
          ⟨hP.1.1, answerMatches_of_settles hP.2⟩,
        hI.2.answer hP.2 (h.value hI.1 hI.2 hP.1.2)⟩)
    ⟨hsound, hfirst⟩
    ((Run.Along.of_forall fun a ha =>
      ⟨h.consistent.answers resp hlegal a ha, h.answers resp hlegal a ha⟩).and hanswers)
  have hledger := applyResponse_sameLedger w.agent.memory now resp
  apply hboth.2.congr
  · intro sid
    show (w.agent.memory.applyTrafficLedgerResponse now resp).streams.lookup sid = _
    rw [hledger.streams]
    rfl
  · intro id
    show (w.agent.memory.applyTrafficLedgerResponse now resp).pendingReports.lookup id = _
    rw [hledger.pendingReports]
    rfl

theorem exact_save (w' : Writes) :
    (∃ st, readTrafficStateFile (w.agent.step r (.save w')).files.primary = .ok st) ∧
      Orderly w.controller w.sent (w.epochOf r) (w.agent.step r (.save w')).reload := by
  obtain ⟨st₀, hread⟩ := h.readable
  obtain ⟨hstill, hreload⟩ := Agent.reload_save (r := r) (a := w.agent) (w := w') hread
  refine ⟨hstill, ?_⟩
  cases hreload with
  | inl hsame =>
    rw [hsame]
    exact h.reload
  | inr hnew =>
    obtain ⟨hstreams, hpending⟩ := hnew
    apply h.memory.congr
    · intro sid
      rw [hstreams]
    · intro id
      apply Option.ext
      intro p
      refine (hpending id p).trans ⟨fun hp => hp.1, fun hp => ⟨hp, h.memory.inbound id p hp⟩⟩

theorem exact_agent {ev : AgentEvent} (hlegal : w.Legal (.agent ev))
    (hcons : (w.step r (.agent ev)).Consistent) (hdist : (w.step r (.agent ev)).Distinct)
    (hev : w.InStep r (.agent ev)) : Exact r (w.step r (.agent ev)) := by
  cases ev with
  | observe now recovering item => exact exact_observe h hcons hdist hev
  | convert =>
    obtain ⟨hsame, hnone⟩ := r.convert_of_none hev
    refine h.quiet hcons hdist hnone rfl h.readable ?_ h.reload
    show Orderly _ _ _ (r.convertLegacyPendingToRanges w.agent.memory).1
    rw [hsame]
    exact h.memory
  | prune now => exact absurd hev id
  | respond now resp =>
    exact h.quiet hcons hdist rfl rfl h.readable (exact_respond h hlegal hev) h.reload
  | fail error =>
    exact h.quiet hcons hdist rfl rfl h.readable
      (h.memory.congr (fun _ => rfl) fun _ => rfl) h.reload
  | save w' =>
    obtain ⟨hread, hreload⟩ := exact_save (r := r) h w'
    exact h.quiet hcons hdist rfl rfl hread h.memory hreload
  | restart => exact h.quiet hcons hdist rfl rfl h.readable h.reload h.reload

theorem exact_send {order : List String}
    (hcons : (w.step r (.send order)).Consistent) (hdist : (w.step r (.send order)).Distinct)
    (hev : w.InStep r (.send order)) : Exact r (w.step r (.send order)) := by
  have hmemory : ∀ x ∈ trafficLedgerReportBatch w.agent.memory.pendingReports order,
      ∃ p, w.agent.memory.pendingReports.lookup x.reportID = some p ∧ x = p.wire ∧
        p ∈ w.created := by
    intro x hx
    obtain ⟨id, p, hl, rfl⟩ := mem_trafficLedgerReportBatch hx
    obtain ⟨hkey, hmem⟩ := h.consistent.agent.memory.tracked id p hl
    have hid : p.wire.reportID = id := hkey
    exact ⟨p, by rw [hid]; exact hl, rfl, hmem⟩
  refine ⟨hcons, h.tiled, hdist, fun y hy => List.mem_append_left _ (h.accepted y hy), h.created,
    h.answers, h.readable, ?_, ?_⟩
  · refine h.memory.send fun x hx => ?_
    obtain ⟨p, hl, rfl, -⟩ := hmemory x hx
    exact ⟨p, hl, rfl, rfl, rfl, rfl⟩
  · refine h.reload.send fun x hx => ?_
    obtain ⟨p, -, rfl, hp⟩ := hmemory x hx
    obtain ⟨q, hq⟩ := Option.isSome_iff_exists.mp (hev _ hx)
    have hsound := h.consistent.agent.restart (sound_ledgerOnly _ _) r
    obtain ⟨hkey, hmem⟩ := hsound.tracked _ q hq
    refine ⟨q, hq, h.distinct _ (List.mem_append_left _ (List.mem_map_of_mem hp)) _
      (List.mem_append_left _ (List.mem_map_of_mem hmem)) hkey.symm⟩

theorem exact_accept (hlegal : w.Legal (.accept x)) (hcons : (w.step r (.accept x)).Consistent)
    (hdist : (w.step r (.accept x)).Distinct) : Exact r (w.step r (.accept x)) := by
  obtain ⟨hx, hacc⟩ := hlegal
  have haccept : ∀ st, Sound w.controller w.created st →
      Orderly w.controller w.sent (w.epochOf r) st →
      Orderly (w.controller.accept x) w.sent (w.epochOf r) st := by
    intro st hsound hord
    refine hord.accept hx hacc fun q hq => ?_
    obtain ⟨hkey, hmem⟩ := hsound.tracked _ q hq
    exact h.distinct.sameRange h.consistent.sent hmem hx hkey.symm
  have hold := h.consistent.agent
  refine ⟨hcons, h.tiled.accept hacc, hdist, ?_, h.created, ?_, h.readable,
    haccept _ hold.memory h.memory, haccept _ (hold.restart (sound_ledgerOnly _ _) r) h.reload⟩
  · exact List.forall_mem_cons.mpr ⟨hx, h.accepted⟩
  · intro resp hr a ha hs
    obtain ⟨y, hy, hid, hepoch, hv⟩ := h.answers resp hr a ha hs
    refine ⟨y, List.mem_cons_of_mem _ hy, hid, hepoch, hv.imp_right fun ⟨hlo, hhi⟩ => ⟨hlo, ?_⟩⟩
    exact hhi.trans (Controller.checkpoint_le_accept hacc _ _)

end

theorem exact_step (w : World) (ev : WorldEvent) (h : Exact r w)
    (hev : w.Legal ev ∧ (w.step r ev).Distinct ∧ w.InStep r ev) : Exact r (w.step r ev) := by
  obtain ⟨hlegal, hdist, hin⟩ := hev
  have hcons := consistent_step w ev h.consistent ⟨hlegal, h.distinct, hin.epochsMatch h⟩
  cases ev with
  | agent ev => exact exact_agent h hlegal hcons hdist hin
  | send order => exact exact_send h hcons hdist hin
  | accept x => exact exact_accept h hlegal hcons hdist
  | adopt streamID epoch =>
    exact ⟨hcons, h.tiled, hdist, h.accepted, h.created, h.answers, h.readable,
      { h.memory with }, { h.reload with }⟩
  | give resp =>
    refine ⟨hcons, h.tiled, hdist, h.accepted, h.created, ?_, h.readable, h.memory, h.reload⟩
    exact List.forall_mem_cons.mpr ⟨fun a ha => (hlegal.1 a ha).settles h.tiled, h.answers⟩

/-- Nothing is known, sent or accepted yet, and the state file can be read. -/
structure Unused (w : World) : Prop extends Fresh w where
  accepted : w.controller.accepted = []
  shown : w.shown = []
  readable : ∃ st, readTrafficStateFile w.agent.files.primary = .ok st

theorem Unused.exact (h : w.Unused) : Exact r w := by
  have hempty : ∀ {m : GoMap String TrafficPendingRange}, m = ∅ → ∀ id, m.lookup id = none :=
    fun hm id => by rw [hm]; exact AList.lookup_empty id
  have horderly : ∀ st : TrafficLocalState, st.streams = ∅ ∧
      (∀ id, st.pendingReports.lookup id = none) →
      Orderly w.controller w.sent (w.epochOf r) st := by
    rintro st ⟨hs, hp⟩
    rw [h.sent]
    exact Orderly.of_empty (fun sid => by rw [hs]; exact AList.lookup_empty sid) hp
  have hreload : w.agent.reload.streams = ∅ ∧
      ∀ id, w.agent.reload.pendingReports.lookup id = none := by
    refine (h.agent.imp fun st hst => ⟨hst.1, hempty hst.2⟩).restart (I := fun st =>
      st.streams = ∅ ∧ ∀ id, st.pendingReports.lookup id = none) ⟨fun st hs hp => ⟨hs, hempty hp⟩, ?_⟩ r
    intro st st' hst hs hp
    refine ⟨hs.trans hst.1, fun id => ?_⟩
    cases hl : st'.pendingReports.lookup id with
    | none => rfl
    | some p => exact absurd ((hst.2 id).symm.trans (hp id p hl)) (by simp)
  constructor
  case consistent => exact h.toFresh.consistent
  case tiled =>
    intro sid epoch
    simp [Controller.spans, h.accepted, Span.Chain]
  case distinct => simp [Distinct, h.created, h.accepted]
  case accepted => simp [h.accepted]
  case created => simp [h.created]
  case answers => simp [h.responses]
  case readable => exact h.readable
  case memory => exact horderly _ ⟨h.agent.memory.1, hempty h.agent.memory.2⟩
  case reload => exact horderly _ hreload

/-! ## The account -/

section

variable (h : Exact r w)
include h

theorem Exact.retried (hsound : Sound w.controller w.created st)
    (hord : Orderly w.controller w.sent (w.epochOf r) st)
    (hx : x ∈ w.sent) (hnot : ¬w.controller.Has x.reportID) :
    ∃ p, st.pendingReports.lookup x.reportID = some p ∧ x.SameRange p.wire := by
  obtain ⟨p, hl⟩ := hord.kept x hx hnot
  obtain ⟨hkey, hmem⟩ := hsound.tracked _ p hl
  exact ⟨p, hl, h.distinct.sameRange h.consistent.sent hmem hx hkey.symm⟩

theorem Exact.sent_cases (hx : x ∈ w.sent) :
    (∃ y ∈ w.controller.accepted, y.reportID = x.reportID ∧ x.SameRange y) ∨
      (x.fromBytes = w.controller.checkpoint x.streamID x.counterEpoch ∧
        ∃ p, w.agent.memory.pendingReports.lookup x.reportID = some p ∧ x.SameRange p.wire) := by
  by_cases hacc : w.controller.Has x.reportID
  · obtain ⟨y, hy, hid⟩ := hacc
    obtain ⟨p, hp, rfl⟩ := h.consistent.sent x hx
    exact Or.inl ⟨y, hy, hid, h.distinct _ (List.mem_append_left _ (List.mem_map_of_mem hp)) y
      (List.mem_append_right _ hy) hid.symm⟩
  · obtain ⟨p, hl, hsame⟩ := h.retried h.consistent.agent.memory h.memory hx hacc
    refine Or.inr ⟨?_, p, hl, hsame⟩
    obtain ⟨hsid, hepoch, hfrom, -⟩ := hsame
    rw [hsid, hepoch, hfrom]
    exact (h.memory.placed _ p hl).resolve_right fun hhas => hacc hhas.1

/-- What exactly-once accounting asks of the world. -/
structure SentOnce (r : Runner) (w : World) : Prop where
  single : ∀ id p id' p', w.agent.memory.pendingReports.lookup id = some p →
    w.agent.memory.pendingReports.lookup id' = some p' → p.streamID = p'.streamID → id = id'
  disjoint : ∀ x ∈ w.sent, ∀ y ∈ w.sent, x.streamID = y.streamID →
    x.counterEpoch = y.counterEpoch →
    (x.reportID = y.reportID ∧ x.SameRange y) ∨ x.toBytes ≤ y.fromBytes ∨
      y.toBytes ≤ x.fromBytes
  contiguous : ∀ x ∈ w.sent, x.fromBytes = 0 ∨ ∃ y ∈ w.sent, y.streamID = x.streamID ∧
    y.counterEpoch = x.counterEpoch ∧ y.toBytes = x.fromBytes
  retried : ∀ x ∈ w.sent, ¬w.controller.Has x.reportID →
    (∃ p, w.agent.memory.pendingReports.lookup x.reportID = some p ∧ x.SameRange p.wire) ∧
      ∃ p, w.agent.reload.pendingReports.lookup x.reportID = some p ∧ x.SameRange p.wire
  bounded : ∀ sid epoch, w.controller.checkpoint sid epoch = 0 ∨
    w.Shown r sid epoch (w.controller.checkpoint sid epoch)
  credited : ∀ sid stream, w.agent.memory.streams.lookup sid = some stream →
    stream.accepted = 0 ∨ w.Shown r sid stream.counterEpoch stream.accepted

theorem Exact.shown_of_accepted (hy : y ∈ w.controller.accepted) :
    w.Shown r y.streamID y.counterEpoch y.toBytes := by
  obtain ⟨p, hp, rfl⟩ := h.consistent.sent y (h.accepted y hy)
  exact (h.created p hp).2.2

theorem Exact.disjoint (hx : x ∈ w.sent) (hy : y ∈ w.sent)
    (hsid : x.streamID = y.streamID) (hepoch : x.counterEpoch = y.counterEpoch) :
    (x.reportID = y.reportID ∧ x.SameRange y) ∨ x.toBytes ≤ y.fromBytes ∨
      y.toBytes ≤ x.fromBytes := by
  -- An accepted report ends at or before the checkpoint, and a pending one starts there.
  have hbefore : ∀ {u v : TrafficLedgerReportItem}, (∃ u' ∈ w.controller.accepted,
      u'.reportID = u.reportID ∧ u.SameRange u') →
      v.fromBytes = w.controller.checkpoint v.streamID v.counterEpoch →
      u.streamID = v.streamID → u.counterEpoch = v.counterEpoch → u.toBytes ≤ v.fromBytes := by
    rintro u v ⟨u', hu', -, hs, he, -, hto⟩ hv hsid hepoch
    rw [hv, hto, ← hsid, ← hepoch, hs, he]
    exact h.tiled.le_checkpoint hu'
  cases h.sent_cases hx with
  | inl hxacc =>
    cases h.sent_cases hy with
    | inl hyacc =>
      obtain ⟨x', hx', hidx, hsx, hex, hfx, htx⟩ := hxacc
      obtain ⟨y', hy', hidy, hsy, hey, hfy, hty⟩ := hyacc
      rw [hfx, htx, hfy, hty]
      refine (h.tiled.apart hx' hy' (hsx.symm.trans (hsid.trans hsy))
        (hex.symm.trans (hepoch.trans hey))).imp_left ?_
      rintro rfl
      exact ⟨hidx.symm.trans hidy, hsid, hepoch, hfx.trans hfy.symm, htx.trans hty.symm⟩
    | inr hypend => exact Or.inr (Or.inl (hbefore hxacc hypend.1 hsid hepoch))
  | inr hxpend =>
    cases h.sent_cases hy with
    | inl hyacc => exact Or.inr (Or.inr (hbefore hyacc hxpend.1 hsid.symm hepoch.symm))
    | inr hypend =>
      obtain ⟨-, p, hp, hsp, hep, hfp, htp⟩ := hxpend
      obtain ⟨-, q, hq, hsq, heq, hfq, htq⟩ := hypend
      have hid : x.reportID = y.reportID :=
        h.memory.single _ p _ q hp hq (hsp.symm.trans (hsid.trans hsq))
      rw [hid] at hp
      obtain rfl := Option.some.inj (hp.symm.trans hq)
      exact Or.inl ⟨hid, hsid, hepoch, hfp.trans hfq.symm, htp.trans htq.symm⟩

theorem Exact.contiguous
    (hx : x ∈ w.sent) : x.fromBytes = 0 ∨ ∃ y ∈ w.sent, y.streamID = x.streamID ∧
      y.counterEpoch = x.counterEpoch ∧ y.toBytes = x.fromBytes := by
  cases h.sent_cases hx with
  | inl hacc =>
    obtain ⟨x', hx', -, hs, he, hf, -⟩ := hacc
    rw [hs, he, hf]
    refine (h.tiled.continues hx').imp_right ?_
    exact fun ⟨y, hy, hrest⟩ => ⟨y, h.accepted y hy, hrest⟩
  | inr hpend =>
    rw [hpend.1]
    refine (w.controller.checkpoint_cases _ _).imp_right ?_
    exact fun ⟨y, hy, hrest⟩ => ⟨y, h.accepted y hy, hrest⟩

theorem Exact.sentOnce : SentOnce r w where
  single := h.memory.single
  disjoint := fun _ hx _ hy hsid hepoch => h.disjoint hx hy hsid hepoch
  contiguous := fun _ hx => h.contiguous hx
  retried := fun _ hx hnot => ⟨h.retried h.consistent.agent.memory h.memory hx hnot,
    h.retried (h.consistent.agent.restart (sound_ledgerOnly _ _) r) h.reload hx hnot⟩
  bounded := by
    intro sid epoch
    refine (w.controller.checkpoint_cases sid epoch).imp_right ?_
    rintro ⟨y, hy, rfl, rfl, hto⟩
    exact hto ▸ h.shown_of_accepted hy
  credited := by
    intro sid stream hl
    refine (h.consistent.agent.memory.belongs sid stream hl (h.memory.epochs sid stream hl)).imp_right
      ?_
    rintro ⟨t, ht, hhi⟩
    obtain ⟨y, hy, rfl, hepoch, -, hto⟩ := Controller.exists_of_mem_spans ht
    rw [← hepoch, ← hhi, ← hto]
    exact h.shown_of_accepted hy

end

/-- **Every byte is sent once**, whatever is lost, repeated or restarted. -/
theorem every_byte_is_sent_once (r : Runner) (w : World) (hunused : w.Unused) (es : List WorldEvent)
    (hrun : Run.Along (step r)
      (fun w ev => w.Legal ev ∧ (w.step r ev).Distinct ∧ w.InStep r ev) w es) :
    SentOnce r (Run.exec (step r) w es) :=
  (Run.invariant exact_step hunused.exact hrun).sentOnce

theorem blank_unused : blank.Unused :=
  { blank_fresh with accepted := rfl, shown := rfl, readable := ⟨_, rfl⟩ }

def secondReport : TrafficLedgerReportItem :=
  (Runner.plain.newRange (Rfc3339.format 0) firstReport.streamID { accepted := ⟨100, 0⟩ }
    (counterAt "ce_1" 150)).wire

def retriedHundred : List WorldEvent :=
  firstHundred ++
    [.agent .restart, .send [firstReport.reportID], .give (firstAnswer .duplicate),
      .agent (.respond 0 (firstAnswer .duplicate)), .agent (.save .both),
      .agent (.observe 0 false (counterAt "ce_1" 150)), .agent (.save .both),
      .send [secondReport.reportID]]

theorem retried_hundred_is_sent_once :
    (Run.exec (step .plain) blank retriedHundred).sent
        = [firstReport, firstReport, secondReport] ∧
      SentOnce .plain (Run.exec (step .plain) blank retriedHundred) :=
  ⟨by decide, every_byte_is_sent_once .plain blank blank_unused retriedHundred (by decide)⟩

/-- A range of 100 bytes is created and not saved, and the agent is restarted: the range it creates
of 150 bytes has the same start, another end and another id. -/
theorem forgotten_range_is_recreated :
    let es : List WorldEvent := [.agent (.observe 0 false (counterAt "ce_1" 100)), .agent .restart,
      .agent (.observe 0 false (counterAt "ce_1" 150))]
    Run.Along (step .plain) (fun w ev => w.Legal ev ∧ (w.step .plain ev).Distinct) blank es ∧
      ∃ p ∈ (Run.exec (step .plain) blank es).created,
        ∃ q ∈ (Run.exec (step .plain) blank es).created,
          p.streamID = q.streamID ∧ p.counterEpoch = q.counterEpoch ∧ p.reportID ≠ q.reportID ∧
            ¬(p.toBytes ≤ q.fromBytes ∨ q.toBytes ≤ p.fromBytes) := by
  decide

end World

end OboardAgent.Traffic
