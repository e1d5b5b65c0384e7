import OboardAgent.Traffic.Epoch

/-!
# States in step with the Controller

What a state of the agent must satisfy so that every range it sends is the next one. It is said
of the state in memory and of the state a restart would read, both against what the Controller has
accepted and against what was sent, because a restart exchanges the one for the other.

Everything turns on the current epoch of a stream, the one the kernel showed last. A state whose
stream is in it and has no range of it pending stands at the Controller's checkpoint (`settled`).
A state whose stream is not in it has never sent anything of it (`behind`), so the Controller's
checkpoint is zero, which is where the stream starts when it enters the epoch. A range that was
sent and not accepted is pending in both states (`kept`), and there is one pending range to a
stream (`single`), so the range the Controller accepts next is the pending one.
-/

namespace OboardAgent.Traffic

open TrafficLocalState

/-- The state is in step with what the Controller has accepted and what was sent; `current` is the
epoch the kernel showed last of a stream. -/
structure Orderly (c : Controller) (sent : List TrafficLedgerReportItem)
    (current : String → Option String) (st : TrafficLocalState) : Prop where
  inbound : ∀ id p, st.pendingReports.lookup id = some p → namesInbound p = true
  single : ∀ id p id' p', st.pendingReports.lookup id = some p →
    st.pendingReports.lookup id' = some p' → p.streamID = p'.streamID → id = id'
  placed : ∀ id p, st.pendingReports.lookup id = some p →
    p.fromBytes = c.checkpoint p.streamID p.counterEpoch ∨
      (c.Has id ∧ p.toBytes = c.checkpoint p.streamID p.counterEpoch)
  kept : ∀ x ∈ sent, ¬c.Has x.reportID → ∃ p, st.pendingReports.lookup x.reportID = some p
  epochs : ∀ sid s, st.streams.lookup sid = some s → s.counterEpoch ≠ ""
  settled : ∀ sid s, st.streams.lookup sid = some s → current sid = some s.counterEpoch →
    (∀ id p, st.pendingReports.lookup id = some p → p.streamID = sid →
      p.counterEpoch ≠ s.counterEpoch) →
    s.accepted = c.checkpoint sid s.counterEpoch
  behind : ∀ sid e, current sid = some e →
    (∀ s, st.streams.lookup sid = some s → s.counterEpoch ≠ e) →
    ∀ x ∈ sent, x.streamID = sid → x.counterEpoch ≠ e
  home : ∀ id p, st.pendingReports.lookup id = some p →
    current p.streamID = some p.counterEpoch →
    ∃ s, st.streams.lookup p.streamID = some s ∧ s.counterEpoch = p.counterEpoch

namespace Orderly

variable {c : Controller} {sent : List TrafficLedgerReportItem}
  {current current' : String → Option String} {st st' : TrafficLocalState}

theorem of_empty (hs : ∀ sid, st.streams.lookup sid = none)
    (hp : ∀ id, st.pendingReports.lookup id = none) : Orderly c [] current st := by
  have hnostream : ∀ sid s, st.streams.lookup sid ≠ some s := fun sid s => by simp [hs sid]
  have hnopending : ∀ id p, st.pendingReports.lookup id ≠ some p := fun id p => by simp [hp id]
  constructor
  case inbound => exact fun id p hl => absurd hl (hnopending id p)
  case single => exact fun id p _ _ hl => absurd hl (hnopending id p)
  case placed => exact fun id p hl => absurd hl (hnopending id p)
  case kept => exact fun _ hx => absurd hx List.not_mem_nil
  case epochs => exact fun sid s hl => absurd hl (hnostream sid s)
  case settled => exact fun sid s hl => absurd hl (hnostream sid s)
  case behind => exact fun _ _ _ _ _ hx => absurd hx List.not_mem_nil
  case home => exact fun id p hl => absurd hl (hnopending id p)

variable (h : Orderly c sent current st)
include h

theorem congr (hs : ∀ sid, st'.streams.lookup sid = st.streams.lookup sid)
    (hp : ∀ id, st'.pendingReports.lookup id = st.pendingReports.lookup id) :
    Orderly c sent current st' := by
  refine ⟨?_, ?_, ?_, ?_, ?_, ?_, ?_, ?_⟩ <;> simp only [hs, hp]
  exacts [h.inbound, h.single, h.placed, h.kept, h.epochs, h.settled, h.behind, h.home]

/-- **The Controller accepts.** The report was sent and is pending, so it is the one pending range
of its stream. -/
theorem accept {x : TrafficLedgerReportItem} (hx : x ∈ sent) (hacc : c.Accepts x)
    (hsame : ∀ p, st.pendingReports.lookup x.reportID = some p → x.SameRange p.wire) :
    Orderly (c.accept x) sent current st := by
  have hnew : ¬c.Has x.reportID := fun ⟨y, hy, hid⟩ => hacc.2.2.2 y hy hid
  obtain ⟨p, hp⟩ := h.kept x hx hnew
  obtain ⟨hsid, hepoch, -, hto⟩ := hsame p hp
  have hp_epoch : p.counterEpoch = x.counterEpoch := hepoch.symm
  refine ⟨h.inbound, h.single, ?_, ?_, h.epochs, ?_, h.behind, h.home⟩
  · intro id q hq
    by_cases hstream : x.streamID = q.streamID
    · have hid : id = x.reportID := h.single id q _ p hq hp (hstream.symm.trans hsid)
      subst hid
      cases hp.symm.trans hq
      refine Or.inr ⟨c.has_accepted x, ?_⟩
      rw [← hstream, hp_epoch, Controller.checkpoint_accept]
      exact hto.symm
    · rw [Controller.checkpoint_accept_of_ne fun heq => hstream heq.1]
      exact (h.placed id q hq).imp_right fun ⟨hhas, hq⟩ => ⟨hhas.accept x, hq⟩
  · intro y hy hno
    exact h.kept y hy fun hhas => hno (hhas.accept x)
  · intro sid s hl hcur hnone
    rw [Controller.checkpoint_accept_of_ne]
    · exact h.settled sid s hl hcur hnone
    · rintro ⟨hxs, hxe⟩
      exact hnone _ p hp (hsid.symm.trans hxs) (hp_epoch.trans hxe)

theorem send {new : List TrafficLedgerReportItem}
    (hnew : ∀ x ∈ new, ∃ p, st.pendingReports.lookup x.reportID = some p ∧ x.SameRange p.wire) :
    Orderly c (sent ++ new) current st := by
  refine ⟨h.inbound, h.single, h.placed, ?_, h.epochs, h.settled, ?_, h.home⟩
  · refine List.forall_mem_append.mpr ⟨h.kept, fun x hin _ => ?_⟩
    obtain ⟨p, hp, -⟩ := hnew x hin
    exact ⟨p, hp⟩
  · intro sid e hcur hnot
    refine List.forall_mem_append.mpr ⟨h.behind sid e hcur hnot, fun x hin hsid hepoch => ?_⟩
    -- A range of the current epoch is pending, so the stream is in it.
    obtain ⟨p, hp, hxsid, hxepoch, -, -⟩ := hnew x hin
    have hps : p.streamID = sid := hxsid.symm.trans hsid
    have hpe : p.counterEpoch = e := hxepoch.symm.trans hepoch
    obtain ⟨s, hl, hs⟩ := h.home _ p hp (by rw [hps, hpe]; exact hcur)
    rw [hps] at hl
    exact hnot s hl (hs.trans hpe)

theorem shows {sid e : String}
    (hcurrent' : ∀ sid', current' sid' = if sid' = sid then some e else current sid')
    (hfresh : current sid = some e ∨
      ((∀ x ∈ sent, x.streamID = sid → x.counterEpoch ≠ e) ∧
        (∀ id p, st.pendingReports.lookup id = some p → p.streamID = sid → p.counterEpoch ≠ e) ∧
        ∀ s, st.streams.lookup sid = some s → s.counterEpoch = e →
          s.accepted = c.checkpoint sid e)) : Orderly c sent current' st := by
  cases hfresh with
  | inl hsame =>
    have heq : current' = current := by
      funext sid'
      rw [hcurrent']
      split
      · rename_i hs
        rw [hs, hsame]
      · rfl
    rw [heq]
    exact h
  | inr hnew =>
    obtain ⟨hsent, hpending, hstream⟩ := hnew
    have hcases : ∀ {sid' e'}, current' sid' = some e' →
        (sid' = sid ∧ e' = e) ∨ current sid' = some e' := by
      intro sid' e' hcur
      rw [hcurrent'] at hcur
      split at hcur
      · exact Or.inl ⟨‹_›, (Option.some.inj hcur).symm⟩
      · exact Or.inr hcur
    refine ⟨h.inbound, h.single, h.placed, h.kept, h.epochs, ?_, ?_, ?_⟩
    · intro sid' s hl hcur hnone
      rcases hcases hcur with ⟨rfl, he⟩ | hcur
      · exact he ▸ hstream s hl he
      · exact h.settled sid' s hl hcur hnone
    · intro sid' e' hcur hnot
      rcases hcases hcur with ⟨rfl, rfl⟩ | hcur
      · exact hsent
      · exact h.behind sid' e' hcur hnot
    · intro id p hl hcur
      rcases hcases hcur with ⟨hs, he⟩ | hcur
      · exact absurd he (hpending id p hl hs)
      · exact h.home id p hl hcur

section Insert

variable {sid : String} {s' : TrafficStreamState} (hs : st'.streams = st.streams.insert sid s')
  (hp : st'.pendingReports = st.pendingReports) (hne : s'.counterEpoch ≠ "")
  (hset : current sid = some s'.counterEpoch →
    (∀ id p, st.pendingReports.lookup id = some p → p.streamID = sid →
      p.counterEpoch ≠ s'.counterEpoch) → s'.accepted = c.checkpoint sid s'.counterEpoch)
include hs hp hne hset

theorem insert (hbehind : ∀ e, current sid = some e → s'.counterEpoch ≠ e →
      ∀ x ∈ sent, x.streamID = sid → x.counterEpoch ≠ e)
    (hhome : ∀ id p, st.pendingReports.lookup id = some p → p.streamID = sid →
      current sid = some p.counterEpoch → s'.counterEpoch = p.counterEpoch) :
    Orderly c sent current st' := by
  have hlook : ∀ sid₁, st'.streams.lookup sid₁
      = if sid₁ = sid then some s' else st.streams.lookup sid₁ := by
    intro sid₁
    rw [hs, GoMap.lookup_insert_eq]
  have hself : st'.streams.lookup sid = some s' := by rw [hlook, if_pos rfl]
  refine ⟨?_, ?_, ?_, ?_, ?_, ?_, ?_, ?_⟩
  · rw [hp]; exact h.inbound
  · rw [hp]; exact h.single
  · rw [hp]; exact h.placed
  · rw [hp]; exact h.kept
  · intro sid₁ s₁ hl
    rcases GoMap.lookup_of_insert (hs ▸ hl) with ⟨-, rfl⟩ | hl
    · exact hne
    · exact h.epochs sid₁ s₁ hl
  · intro sid₁ s₁ hl hcur hnone
    rw [hp] at hnone
    rcases GoMap.lookup_of_insert (hs ▸ hl) with ⟨rfl, rfl⟩ | hl
    · exact hset hcur hnone
    · exact h.settled sid₁ s₁ hl hcur hnone
  · intro sid₁ e hcur hnot
    by_cases heq : sid₁ = sid
    · subst heq
      exact hbehind e hcur (hnot s' hself)
    · apply h.behind sid₁ e hcur
      intro s₁ hl
      exact hnot s₁ (by rw [hlook, if_neg heq]; exact hl)
  · intro id p hl hcur
    rw [hp] at hl
    by_cases heq : p.streamID = sid
    · rw [heq] at hcur ⊢
      exact ⟨s', hself, hhome id p hl heq hcur⟩
    · obtain ⟨s₁, hl₁, he⟩ := h.home id p hl hcur
      exact ⟨s₁, by rw [hlook, if_neg heq]; exact hl₁, he⟩

theorem insert_same_epoch
    (hsame : ∀ s, st.streams.lookup sid = some s → s'.counterEpoch = s.counterEpoch) :
    Orderly c sent current st' := by
  refine h.insert hs hp hne hset ?_ ?_
  · intro e hcur hnot
    apply h.behind sid e hcur
    intro s hl
    rw [← hsame s hl]
    exact hnot
  · intro id p hl hsid hcur
    rw [← hsid] at hcur
    obtain ⟨s, hls, hse⟩ := h.home id p hl hcur
    rw [hsid] at hls
    exact (hsame s hls).trans hse

end Insert

/-- **A range is queued.** It is the next one, and the only one of its stream. -/
theorem queue {p : TrafficPendingRange}
    (hin : namesInbound p = true) (hkey : st.pendingReports.lookup p.reportID = none)
    (hnone : ∀ id q, st.pendingReports.lookup id = some q → q.streamID ≠ p.streamID)
    (hfrom : p.fromBytes = c.checkpoint p.streamID p.counterEpoch)
    (hhome : ∃ s, st.streams.lookup p.streamID = some s ∧ s.counterEpoch = p.counterEpoch) :
    Orderly c sent current (st.queue (some p)) := by
  have hlook : ∀ id, (st.queue (some p)).pendingReports.lookup id
      = if id = p.reportID then some p else st.pendingReports.lookup id :=
    fun id => GoMap.lookup_insert_eq _ _ _ _
  -- What is found is the new range or was there before; nothing was overwritten.
  have hcases : ∀ id q, (st.queue (some p)).pendingReports.lookup id = some q →
      (id = p.reportID ∧ p = q) ∨ st.pendingReports.lookup id = some q :=
    fun _ _ hl => GoMap.lookup_of_insert hl
  have hold : ∀ id q, st.pendingReports.lookup id = some q →
      (st.queue (some p)).pendingReports.lookup id = some q := by
    intro id q hl
    rw [hlook, if_neg]
    · exact hl
    · rintro rfl
      rw [hkey] at hl
      cases hl
  refine ⟨?_, ?_, ?_, ?_, h.epochs, ?_, h.behind, ?_⟩
  · intro id q hl
    obtain ⟨-, rfl⟩ | hq := hcases id q hl
    · exact hin
    · exact h.inbound id q hq
  · intro id q id' q' hl hl' hsid
    obtain ⟨rfl, rfl⟩ | hq := hcases id q hl
    · obtain ⟨rfl, -⟩ | hq' := hcases id' q' hl'
      · rfl
      · exact absurd hsid.symm (hnone id' q' hq')
    · obtain ⟨-, rfl⟩ | hq' := hcases id' q' hl'
      · exact absurd hsid (hnone id q hq)
      · exact h.single id q id' q' hq hq' hsid
  · intro id q hl
    obtain ⟨-, rfl⟩ | hq := hcases id q hl
    · exact Or.inl hfrom
    · exact h.placed id q hq
  · intro x hx hno
    obtain ⟨q, hq⟩ := h.kept x hx hno
    exact ⟨q, hold _ q hq⟩
  · intro sid s hl hcur hno
    exact h.settled sid s hl hcur fun id q hq => hno id q (hold id q hq)
  · intro id q hl hcur
    obtain ⟨-, rfl⟩ | hq := hcases id q hl
    · exact hhome
    · exact h.home id q hq hcur

/-- **A pending range is answered** that the Controller has accepted: the stream, if it is known,
is taken to the checkpoint. -/
theorem answered {id : String} {report : TrafficPendingRange}
    (hl : st.pendingReports.lookup id = some report) (hhas : c.Has id)
    (hp : st'.pendingReports = st.pendingReports.erase id)
    (hother : ∀ sid, sid ≠ report.streamID → st'.streams.lookup sid = st.streams.lookup sid)
    (hself : ∀ s', st'.streams.lookup report.streamID = some s' →
      ∃ s, st.streams.lookup report.streamID = some s ∧ s'.counterEpoch = s.counterEpoch ∧
        s'.accepted = c.checkpoint report.streamID s.counterEpoch)
    (hknown : ∀ s, st.streams.lookup report.streamID = some s →
      ∃ s', st'.streams.lookup report.streamID = some s' ∧ s'.counterEpoch = s.counterEpoch) :
    Orderly c sent current st' := by
  have hlook : ∀ id₁, st'.pendingReports.lookup id₁
      = if id₁ = id then none else st.pendingReports.lookup id₁ := by
    intro id₁
    rw [hp, GoMap.lookup_erase_eq]
  have hsub : ∀ id₁ q, st'.pendingReports.lookup id₁ = some q →
      st.pendingReports.lookup id₁ = some q := by
    intro id₁ q hq
    rw [hp] at hq
    exact GoMap.lookup_of_erase hq
  -- The streams keep their epochs, in both directions.
  have hback : ∀ sid s', st'.streams.lookup sid = some s' →
      ∃ s, st.streams.lookup sid = some s ∧ s'.counterEpoch = s.counterEpoch := by
    intro sid s' hs'
    by_cases hsid : sid = report.streamID
    · subst hsid
      obtain ⟨s, hs, he, -⟩ := hself s' hs'
      exact ⟨s, hs, he⟩
    · rw [hother sid hsid] at hs'
      exact ⟨s', hs', rfl⟩
  have hforth : ∀ sid s, st.streams.lookup sid = some s →
      ∃ s', st'.streams.lookup sid = some s' ∧ s'.counterEpoch = s.counterEpoch := by
    intro sid s hs
    by_cases hsid : sid = report.streamID
    · subst hsid
      exact hknown s hs
    · exact ⟨s, (hother sid hsid).trans hs, rfl⟩
  refine ⟨?_, ?_, ?_, ?_, ?_, ?_, ?_, ?_⟩
  · exact fun id₁ q hq => h.inbound id₁ q (hsub id₁ q hq)
  · exact fun id₁ q id₂ q' hq hq' => h.single id₁ q id₂ q' (hsub id₁ q hq) (hsub id₂ q' hq')
  · exact fun id₁ q hq => h.placed id₁ q (hsub id₁ q hq)
  · intro x hx hno
    obtain ⟨q, hq⟩ := h.kept x hx hno
    refine ⟨q, ?_⟩
    rw [hlook, if_neg]
    · exact hq
    · rintro rfl
      exact hno hhas
  · intro sid s' hs'
    obtain ⟨s, hs, he⟩ := hback sid s' hs'
    rw [he]
    exact h.epochs sid s hs
  · intro sid s' hs' hcur hnone
    by_cases hsid : sid = report.streamID
    · subst hsid
      obtain ⟨s, -, he, hacc⟩ := hself s' hs'
      rw [he]
      exact hacc
    · rw [hother sid hsid] at hs'
      refine h.settled sid s' hs' hcur fun id₁ q hq hqs => hnone id₁ q ?_ hqs
      rw [hlook, if_neg]
      · exact hq
      · rintro rfl
        cases hl.symm.trans hq
        exact hsid hqs.symm
  · intro sid e hcur hnot
    apply h.behind sid e hcur
    intro s hs
    obtain ⟨s', hs', he⟩ := hforth sid s hs
    rw [← he]
    exact hnot s' hs'
  · intro id₁ q hq hcur
    obtain ⟨s, hs, he⟩ := h.home id₁ q (hsub id₁ q hq) hcur
    obtain ⟨s', hs', he'⟩ := hforth _ s hs
    exact ⟨s', hs', he'.trans he⟩

end Orderly

end OboardAgent.Traffic
