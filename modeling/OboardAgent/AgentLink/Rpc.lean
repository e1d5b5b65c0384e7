import OboardAgent.Lib.Run
import Mathlib.Logic.Function.Basic

/-!
# Requests over the agent link

Any number of goroutines call `Request` on one session (`internal/agentlink/session.go`). A call
puts a channel into the table of pending requests, sends its frame and waits: for its context, for
its channel, for the end of the session. The loop `Run` (`internal/agentlink/client.go`) takes the
channel of a response out of the table and sends the response to it. The shutdown sets the write
error, closes the signal for the end, and then closes and removes all pending channels.

Each of these is a step here, and the steps of all goroutines interleave in any order. The channel
of a request is named by its id.

The steps under one lock are one step. The frame of a request is marshalled from a body that was
marshalled before, which cannot fail.
-/

namespace OboardAgent.AgentLink

structure Response where
  id : Int
  body : List UInt8
  deriving DecidableEq, Repr

inductive Channel
  | empty
  | filled (r : Response)
  | closed
  deriving DecidableEq, Repr

/-- After a receive: a closed channel stays so. -/
def Channel.taken : Channel → Channel
  | .closed => .closed
  | _ => .empty

inductive RpcError
  | marshal
  | write
  | context
  | closed
  deriving DecidableEq, Repr

inductive Outcome
  | response (r : Response) (decodes : Bool)
  | error (e : RpcError)
  | missing
  /-- The body of no response is read: the process ends. -/
  | crash
  deriving DecidableEq, Repr

inductive Stage
  | absent
  | registered
  | waiting
  /-- About to remove its entry and to return the error. -/
  | leaving (e : RpcError)
  | returned (o : Outcome)
  deriving DecidableEq, Repr

inductive Phase
  | running
  | failing
  | signalled
  | swept
  deriving DecidableEq, Repr

structure Rpc where
  nextReqId : Int
  pending : List Int
  channels : Int → Channel
  stages : Int → Stage
  /-- The call has somewhere to decode the body to. -/
  decodesInto : Int → Bool
  /-- The response that the loop has taken out of the table for a channel, and not sent yet. -/
  held : Option Response
  writeErr : Bool
  phase : Phase

def Rpc.init : Rpc where
  nextReqId := 0
  pending := []
  channels _ := .empty
  stages _ := .absent
  decodesInto _ := false
  held := none
  writeErr := false
  phase := .running

inductive RpcEvent
  | call (decodesInto : Bool)
  /-- The body does not marshal, or there is no padding for the frame. -/
  | marshalFails (id : Int)
  | write (id : Int) (ok : Bool)
  | cancelled (id : Int)
  | leave (id : Int)
  | receive (id : Int) (decodes : Bool)
  | seeClosed (id : Int)
  /-- The loop reads a response and takes its channel out of the table, if there is one. -/
  | arrive (r : Response)
  | deliver
  | fail
  | signal
  | sweep
  deriving DecidableEq, Repr

variable (s : Rpc)

def Rpc.setStage (id : Int) (stage : Stage) :
    Rpc := { s with stages := Function.update s.stages id stage }

def Rpc.remove (id : Int) : Rpc := { s with pending := s.pending.filter (· ≠ id) }

def Rpc.register (decodesInto : Bool) : Rpc :=
  { s with
    nextReqId := s.nextReqId + 1
    pending := (s.nextReqId + 1) :: s.pending
    channels := Function.update s.channels (s.nextReqId + 1) .empty
    stages := Function.update s.stages (s.nextReqId + 1) .registered
    decodesInto := Function.update s.decodesInto (s.nextReqId + 1) decodesInto }

def Rpc.outcomeOf (id : Int) (decodes : Bool) : Channel → Option Outcome
  | .empty => none
  | .filled r => some (.response r (!s.decodesInto id || r.body.isEmpty || decodes))
  | .closed => some (if s.decodesInto id then .crash else .missing)

/-- One step. An event that cannot happen changes nothing. -/
def Rpc.step (s : Rpc) : RpcEvent → Rpc
  | .call decodesInto => s.register decodesInto
  | .marshalFails id => if s.stages id = .registered then s.setStage id (.leaving .marshal) else s
  | .write id ok =>
    if s.stages id = .registered then
      if s.writeErr then s.setStage id (.leaving .write)
      else if ok then s.setStage id .waiting
      else { s.setStage id (.leaving .write) with writeErr := true }
    else s
  | .cancelled id => if s.stages id = .waiting then s.setStage id (.leaving .context) else s
  | .leave id =>
    match s.stages id with
    | .leaving e => (s.remove id).setStage id (.returned (.error e))
    | _ => s
  | .receive id decodes =>
    if s.stages id = .waiting then
      match s.outcomeOf id decodes (s.channels id) with
      | some o => { s.setStage id (.returned o) with
          channels := Function.update s.channels id (s.channels id).taken }
      | none => s
    else s
  | .seeClosed id =>
    if s.stages id = .waiting ∧ (s.phase = .signalled ∨ s.phase = .swept) then s.setStage id
      (.returned (.error .closed)) else s
  | .arrive r =>
    if s.held = none ∧ r.id ∈ s.pending then { s.remove r.id with held := some r } else s
  | .deliver =>
    match s.held with
    | some r => if s.channels r.id = .empty then
        { s with channels := Function.update s.channels r.id (.filled r), held := none } else s
    | none => s
  | .fail => if s.phase = .running then { s with phase := .failing, writeErr := true } else s
  | .signal => if s.phase = .failing then { s with phase := .signalled } else s
  | .sweep =>
    if s.phase = .signalled then
      { s with phase := .swept, pending := [], channels := fun id =>
        if id ∈ s.pending then .closed else s.channels id }
    else s

/-! ## What is wanted -/

def Stage.inFlight : Stage → Bool
  | .registered | .waiting | .leaving _ => true
  | .absent | .returned _ => false

/-- A return of the call with this id: the response to it, or an error. -/
def Outcome.Good (id : Int) : Outcome → Prop
  | .response r _ => r.id = id
  | .error _ => True
  | .missing => False
  | .crash => False

def Stage.Good (id : Int) : Stage → Prop
  | .returned o => o.Good id
  | _ => True

/-- Every call that returned did so with its own response or an error, and the table holds calls in
flight only. -/
structure Rpc.Sound (s : Rpc) : Prop where
  good : ∀ id, (s.stages id).Good id
  inFlight : ∀ id ∈ s.pending, (s.stages id).inFlight = true

/-- The steps that go wrong, left out: no waiting call takes a closed channel, and none returns for
the end of the session while the table still has its entry. -/
def Rpc.Careful (s : Rpc) : RpcEvent → Prop
  | .receive id _ => s.stages id = .waiting → s.channels id ≠ .closed
  | .seeClosed id => s.stages id = .waiting → s.phase = .signalled ∨ s.phase = .swept →
      id ∉ s.pending
  | _ => True

/-! ## Channels and the table -/

structure Rpc.Linked (s : Rpc) : Prop where
  numbered : ∀ id ∈ s.pending, id ≤ s.nextReqId
  heldNumbered : ∀ r ∈ s.held, r.id ≤ s.nextReqId
  pendingEmpty : ∀ id ∈ s.pending, s.channels id = .empty
  pendingFree : ∀ r ∈ s.held, r.id ∉ s.pending
  heldEmpty : ∀ r ∈ s.held, s.channels r.id = .empty
  filled : ∀ id r, s.channels id = .filled r → r.id = id

theorem linked_init : Rpc.init.Linked where
  numbered := by simp [Rpc.init]
  heldNumbered := by simp [Rpc.init]
  pendingEmpty := by simp [Rpc.init]
  pendingFree := by simp [Rpc.init]
  heldEmpty := by simp [Rpc.init]
  filled := by simp [Rpc.init]

variable {s : Rpc}

theorem mem_remove {id id' : Int} : id' ∈ (s.remove id).pending ↔ id' ∈ s.pending ∧ id' ≠ id := by
  simp [Rpc.remove]

theorem setStage_stages (s : Rpc) (id : Int) (stage : Stage) :
    (s.setStage id stage).stages = Function.update s.stages id stage :=
  rfl

theorem Rpc.Linked.setStage (h : s.Linked) (id : Int) (stage : Stage) :
    (s.setStage id stage).Linked :=
  ⟨h.numbered, h.heldNumbered, h.pendingEmpty, h.pendingFree, h.heldEmpty, h.filled⟩

theorem Rpc.Linked.setStatus (h : s.Linked) (writeErr : Bool) (phase : Phase) :
    ({ s with writeErr := writeErr, phase := phase }).Linked :=
  ⟨h.numbered, h.heldNumbered, h.pendingEmpty, h.pendingFree, h.heldEmpty, h.filled⟩

theorem Rpc.Linked.remove (h : s.Linked) (id : Int) : (s.remove id).Linked where
  numbered id' hid := h.numbered id' (mem_remove.mp hid).1
  heldNumbered := h.heldNumbered
  pendingEmpty id' hid := h.pendingEmpty id' (mem_remove.mp hid).1
  pendingFree r hr hid := h.pendingFree r hr (mem_remove.mp hid).1
  heldEmpty := h.heldEmpty
  filled := h.filled

theorem register_channels (s : Rpc) (decodesInto : Bool) :
    (s.register decodesInto).channels = Function.update s.channels (s.nextReqId + 1) .empty :=
  rfl

theorem register_stages (s : Rpc) (decodesInto : Bool) :
    (s.register decodesInto).stages = Function.update s.stages (s.nextReqId + 1) .registered :=
  rfl

theorem Rpc.Linked.register (h : s.Linked) (decodesInto : Bool) :
    (s.register decodesInto).Linked where
  numbered id hid := by
    rcases List.mem_cons.mp hid with rfl | hid
    · exact Int.le_refl _
    · have hle := h.numbered id hid
      simp only [Rpc.register]
      omega
  heldNumbered r hr := by
    have hle := h.heldNumbered r hr
    simp only [Rpc.register]
    omega
  pendingEmpty id hid := by
    by_cases hnew : id = s.nextReqId + 1
    · rw [hnew]
      exact Function.update_self _ _ _
    · rw [register_channels, Function.update_of_ne hnew]
      exact h.pendingEmpty id ((List.mem_cons.mp hid).resolve_left hnew)
  pendingFree r hr hid := by
    rcases List.mem_cons.mp hid with heq | hid
    · have hle := h.heldNumbered r hr
      omega
    · exact h.pendingFree r hr hid
  heldEmpty r hr := by
    have hle := h.heldNumbered r hr
    rw [register_channels, Function.update_of_ne (by omega)]
    exact h.heldEmpty r hr
  filled id r hr := by
    by_cases hnew : id = s.nextReqId + 1
    · rw [hnew, register_channels, Function.update_self] at hr
      cases hr
    · rw [register_channels, Function.update_of_ne hnew] at hr
      exact h.filled id r hr

theorem Rpc.Linked.take (h : s.Linked) (id : Int) :
    ({ s with channels := Function.update s.channels id (s.channels id).taken }).Linked := by
  have hchannel : ∀ id', s.channels id' = .empty →
      Function.update s.channels id (s.channels id).taken id' = .empty := by
    intro id' hempty
    by_cases heq : id' = id
    · rw [heq] at hempty ⊢
      rw [Function.update_self, hempty]
      rfl
    · rw [Function.update_of_ne heq, hempty]
  refine ⟨h.numbered, h.heldNumbered, fun id' hid =>
    hchannel id' (h.pendingEmpty id' hid), h.pendingFree,
    fun r hr => hchannel r.id (h.heldEmpty r hr), fun id' r hr => ?_⟩
  dsimp only at hr
  by_cases heq : id' = id
  · rw [heq, Function.update_self] at hr
    cases hc : s.channels id <;> simp [hc, Channel.taken] at hr
  · rw [Function.update_of_ne heq] at hr
    exact h.filled id' r hr

theorem Rpc.Linked.deliver (h : s.Linked) {r : Response} (hheld : s.held = some r) :
    ({ s with channels := Function.update s.channels r.id (.filled r), held := none }).Linked where
  numbered := h.numbered
  heldNumbered := by simp
  pendingEmpty id hid := by
    have hne : id ≠ r.id := fun heq => h.pendingFree r hheld (heq ▸ hid)
    dsimp only
    rw [Function.update_of_ne hne]
    exact h.pendingEmpty id hid
  pendingFree := by simp
  heldEmpty := by simp
  filled id r' hr := by
    dsimp only at hr
    by_cases heq : id = r.id
    · rw [heq, Function.update_self] at hr
      rw [heq, Channel.filled.inj hr]
    · rw [Function.update_of_ne heq] at hr
      exact h.filled id r' hr

theorem Rpc.Linked.arrive (h : s.Linked) {r : Response} (hr : r.id ∈ s.pending) :
    ({ s.remove r.id with held := some r }).Linked where
  numbered := (h.remove r.id).numbered
  heldNumbered r' hr' := by
    cases hr'
    exact h.numbered r.id hr
  pendingEmpty := (h.remove r.id).pendingEmpty
  pendingFree r' hr' hid := by
    cases hr'
    exact (mem_remove.mp hid).2 rfl
  heldEmpty r' hr' := by
    cases hr'
    exact h.pendingEmpty r.id hr
  filled := h.filled

theorem Rpc.Linked.sweep (h : s.Linked) (phase : Phase) :
    ({ s with phase := phase, pending := [], channels := fun id => if id ∈ s.pending
      then .closed else s.channels id }).Linked where
  numbered := by simp
  heldNumbered := h.heldNumbered
  pendingEmpty := by simp
  pendingFree := by simp
  heldEmpty r hr := by
    dsimp only
    rw [if_neg (h.pendingFree r hr)]
    exact h.heldEmpty r hr
  filled id r hr := by
    dsimp only at hr
    split_ifs at hr with hid
    exact h.filled id r hr

theorem linked_step (s : Rpc) (e : RpcEvent) (h : s.Linked) : (s.step e).Linked := by
  cases e with
  | call decodesInto => exact h.register decodesInto
  | marshalFails id =>
    simp only [Rpc.step]
    split_ifs
    · exact h.setStage _ _
    · exact h
  | write id ok =>
    simp only [Rpc.step]
    split_ifs
    · exact h.setStage _ _
    · exact h.setStage _ _
    · exact (h.setStage _ _).setStatus _ _
    · exact h
  | cancelled id =>
    simp only [Rpc.step]
    split_ifs
    · exact h.setStage _ _
    · exact h
  | leave id =>
    simp only [Rpc.step]
    split
    · exact (h.remove _).setStage _ _
    · exact h
  | receive id decodes =>
    simp only [Rpc.step]
    split_ifs
    · split
      · exact (h.take id).setStage id _
      · exact h
    · exact h
  | seeClosed id =>
    simp only [Rpc.step]
    split_ifs
    · exact h.setStage _ _
    · exact h
  | arrive r =>
    simp only [Rpc.step]
    split_ifs with harrive
    · exact h.arrive harrive.2
    · exact h
  | deliver =>
    simp only [Rpc.step]
    split
    · rename_i r hheld
      split_ifs
      · exact h.deliver hheld
      · exact h
    · exact h
  | fail =>
    simp only [Rpc.step]
    split_ifs
    · exact h.setStatus _ _
    · exact h
  | signal =>
    simp only [Rpc.step]
    split_ifs
    · exact h.setStatus _ _
    · exact h
  | sweep =>
    simp only [Rpc.step]
    split_ifs
    · exact h.sweep _
    · exact h

/-! ## Sound states -/

theorem sound_init : Rpc.init.Sound where
  good _ := trivial
  inFlight _ hid := absurd hid List.not_mem_nil

theorem Rpc.Sound.of_eq {s s' : Rpc} (h : s.Sound) (hstages : s'.stages = s.stages)
    (hpending : ∀ id ∈ s'.pending, id ∈ s.pending) : s'.Sound where
  good id := by
    rw [hstages]
    exact h.good id
  inFlight id hid := by
    rw [hstages]
    exact h.inFlight id (hpending id hid)

theorem sound_setStage_iff (h : s.Sound) (id : Int) (stage : Stage) :
    (s.setStage id stage).Sound ↔ stage.Good id ∧ (id ∈ s.pending → stage.inFlight = true) := by
  constructor
  · intro hsound
    have hgood := hsound.good id
    have hflight := hsound.inFlight id
    rw [setStage_stages, Function.update_self] at hgood hflight
    exact ⟨hgood, hflight⟩
  · rintro ⟨hgood, hflight⟩
    refine ⟨fun id' => ?_, fun id' hid => ?_⟩
    · by_cases heq : id' = id
      · rw [heq, setStage_stages, Function.update_self]
        exact hgood
      · rw [setStage_stages, Function.update_of_ne heq]
        exact h.good id'
    · by_cases heq : id' = id
      · rw [heq] at hid ⊢
        rw [setStage_stages, Function.update_self]
        exact hflight hid
      · rw [setStage_stages, Function.update_of_ne heq]
        exact h.inFlight id' hid

theorem Rpc.Sound.inFlightStage (h : s.Sound) (id : Int) (stage : Stage)
    (hstage : stage.inFlight = true) : (s.setStage id stage).Sound := by
  refine (sound_setStage_iff h id stage).mpr ⟨?_, fun _ => hstage⟩
  cases stage with
  | returned o => cases hstage
  | _ => trivial

theorem Rpc.Sound.remove (h : s.Sound) (id : Int) : (s.remove id).Sound :=
  h.of_eq rfl fun _ hid => (mem_remove.mp hid).1

theorem Rpc.Sound.register (h : s.Sound) (decodesInto : Bool) : (s.register decodesInto).Sound := by
  have hstage := h.inFlightStage (s.nextReqId + 1) .registered rfl
  refine ⟨hstage.good, fun id hid => ?_⟩
  rcases List.mem_cons.mp hid with rfl | hid
  · rw [register_stages, Function.update_self]
    rfl
  · exact hstage.inFlight id hid

theorem Rpc.Sound.leave (h : s.Sound) (id : Int) (e : RpcError) :
    ((s.remove id).setStage id (.returned (.error e))).Sound :=
  (sound_setStage_iff (h.remove id) id _).mpr ⟨trivial, fun hid => absurd rfl (mem_remove.mp hid).2⟩

theorem sound_receive_iff (hl : s.Linked) (h : s.Sound) (id : Int) (decodes : Bool)
    (hwaiting : s.stages id = .waiting) :
    (s.step (.receive id decodes)).Sound ↔ s.channels id ≠ .closed := by
  simp only [Rpc.step, if_pos hwaiting]
  cases hchannel : s.channels id with
  | empty => simpa [Rpc.outcomeOf] using h
  | filled r =>
    have hfree : id ∉ s.pending := fun hid => by simp [hl.pendingEmpty id hid] at hchannel
    have hsound :=
        (sound_setStage_iff h id
        (.returned (.response r (!s.decodesInto id || r.body.isEmpty || decodes)))).mpr
      ⟨hl.filled id r hchannel, fun hid => absurd hid hfree⟩
    exact iff_of_true (hsound.of_eq rfl fun _ hid => hid) (by simp)
  | closed =>
    simp only [Rpc.outcomeOf, ne_eq, not_true_eq_false, iff_false]
    intro hsound
    have hgood := hsound.good id
    rw [setStage_stages, Function.update_self] at hgood
    split_ifs at hgood <;> exact hgood

theorem sound_seeClosed_iff (h : s.Sound) (id : Int) (hwaiting : s.stages id = .waiting)
    (hclosed : s.phase = .signalled ∨ s.phase = .swept) : (s.step (.seeClosed id)).Sound ↔
      id ∉ s.pending := by
  simp only [Rpc.step, if_pos (And.intro hwaiting hclosed), sound_setStage_iff h]
  simp [Stage.Good, Outcome.Good, Stage.inFlight]

theorem sound_step_iff (s : Rpc) (e : RpcEvent) (hl : s.Linked) (h : s.Sound) : (s.step e).Sound ↔
    s.Careful e := by
  cases e with
  | receive id decodes =>
    by_cases hwaiting : s.stages id = .waiting
    · rw [sound_receive_iff hl h id decodes hwaiting]
      exact ⟨fun hc _ => hc, fun hc => hc hwaiting⟩
    · simp [Rpc.step, Rpc.Careful, hwaiting, h]
  | seeClosed id =>
    by_cases hend : s.stages id = .waiting ∧ (s.phase = .signalled ∨ s.phase = .swept)
    · rw [sound_seeClosed_iff h id hend.1 hend.2]
      exact ⟨fun hc _ _ => hc, fun hc => hc hend.1 hend.2⟩
    · refine iff_of_true ?_ fun hwaiting hclosed => absurd ⟨hwaiting, hclosed⟩ hend
      rwa [Rpc.step, if_neg hend]
  | call decodesInto => exact iff_of_true (h.register decodesInto) trivial
  | marshalFails id =>
    refine iff_of_true ?_ trivial
    simp only [Rpc.step]
    split_ifs
    · exact h.inFlightStage _ _ rfl
    · exact h
  | write id ok =>
    refine iff_of_true ?_ trivial
    simp only [Rpc.step]
    split_ifs
    · exact h.inFlightStage _ _ rfl
    · exact h.inFlightStage _ _ rfl
    · exact (h.inFlightStage id (.leaving .write) rfl).of_eq rfl fun _ hid => hid
    · exact h
  | cancelled id =>
    refine iff_of_true ?_ trivial
    simp only [Rpc.step]
    split_ifs
    · exact h.inFlightStage _ _ rfl
    · exact h
  | leave id =>
    refine iff_of_true ?_ trivial
    simp only [Rpc.step]
    split
    · exact h.leave _ _
    · exact h
  | arrive r =>
    refine iff_of_true ?_ trivial
    simp only [Rpc.step]
    split_ifs
    · exact (h.remove r.id).of_eq rfl fun _ hid => hid
    · exact h
  | deliver =>
    refine iff_of_true ?_ trivial
    simp only [Rpc.step]
    split
    · split_ifs
      · exact h.of_eq rfl fun _ hid => hid
      · exact h
    · exact h
  | fail =>
    refine iff_of_true ?_ trivial
    simp only [Rpc.step]
    split_ifs
    · exact h.of_eq rfl fun _ hid => hid
    · exact h
  | signal =>
    refine iff_of_true ?_ trivial
    simp only [Rpc.step]
    split_ifs
    · exact h.of_eq rfl fun _ hid => hid
    · exact h
  | sweep =>
    refine iff_of_true ?_ trivial
    simp only [Rpc.step]
    split_ifs
    · exact h.of_eq rfl nofun
    · exact h

/-- In every run, all calls that returned did so with their own response or an error, and the table
holds calls in flight only, exactly when no waiting call takes a closed channel and none sees the
end of the session before the table is swept. -/
theorem requests_sound_iff (es : List RpcEvent) :
    (∀ pre, pre <+: es → (Run.exec Rpc.step Rpc.init pre).Sound) ↔
      Run.Along Rpc.step Rpc.Careful Rpc.init es :=
  Run.always_iff linked_step sound_step_iff linked_init sound_init

/-- A shutdown while one call waits: it returns no response and no error, or it reads the body of no
response, or it returns with its entry still in the table. -/
theorem shutdown_while_waiting :
    (Run.exec Rpc.step Rpc.init [.call false, .write 1 true, .fail, .signal, .sweep,
      .receive 1 true]).stages 1 = .returned .missing ∧
      (Run.exec Rpc.step Rpc.init [.call true, .write 1 true, .fail, .signal, .sweep,
        .receive 1 true]).stages 1 = .returned .crash ∧
      (Run.exec Rpc.step Rpc.init [.call true, .write 1 true, .fail, .signal, .seeClosed 1]).stages
        1 = .returned (.error .closed) ∧
      1 ∈ (Run.exec Rpc.step Rpc.init [.call true, .write 1 true, .fail, .signal,
        .seeClosed 1]).pending := by
  decide

/-- **The loop is never held up**: in every interleaving of calls, responses and shutdown, a
response that it has taken out of the table goes into its channel with the next step. -/
theorem loop_is_never_held_up {es : List RpcEvent} {r : Response}
    (h : (Run.exec Rpc.step .init es).held = some r) :
    let s := (Run.exec Rpc.step .init es).step .deliver
    s.held = none ∧ s.channels r.id = .filled r := by
  have hlinked : (Run.exec Rpc.step .init es).Linked := Run.invariant_all linked_step linked_init
  simp only [Rpc.step, h, if_pos (hlinked.heldEmpty r h), Function.update_self, and_self]

theorem loop_is_never_held_up_by_cancelled_call :
    let s := (Run.exec Rpc.step .init [.call true, .write 1 true, .cancelled 1, .arrive ⟨1, []⟩,
        .leave 1]).step .deliver
    s.held = none ∧ s.channels 1 = .filled ⟨1, []⟩ :=
  loop_is_never_held_up (r := ⟨1, []⟩) (by decide)

/-- The responses that calls returned were theirs. -/
def Rpc.Own (s : Rpc) : Prop := ∀ id r d, s.stages id = .returned (.response r d) → r.id = id

theorem Rpc.Own.set {s : Rpc} (h : s.Own) (id : Int) (stage : Stage)
    (hstage : ∀ r d, stage = .returned (.response r d) → r.id = id) :
    (s.setStage id stage).Own := by
  intro id' r d hr
  by_cases heq : id' = id
  · rw [heq, setStage_stages, Function.update_self] at hr
    exact (hstage r d hr).trans heq.symm
  · rw [setStage_stages, Function.update_of_ne heq] at hr
    exact h id' r d hr

theorem own_step (s : Rpc) (e : RpcEvent) (h : s.Linked ∧ s.Own) :
    (s.step e).Linked ∧ (s.step e).Own := by
  refine ⟨linked_step s e h.1, ?_⟩
  cases e with
  | call decodesInto => exact h.2.set (s.nextReqId + 1) .registered nofun
  | receive id decodes =>
    simp only [Rpc.step]
    split_ifs
    · cases hc : s.channels id with
      | empty => exact h.2
      | filled r =>
        refine h.2.set id _ fun r' d hr => ?_
        cases hr
        exact h.1.filled id r hc
      | closed => exact h.2.set id _ fun r d hr => by split_ifs at hr <;> cases hr
    · exact h.2
  | _ =>
    -- no other step returns a response
    simp only [Rpc.step]
    repeat' split
    all_goals first | exact h.2 | exact h.2.set _ _ nofun

/-- **No call returns the response to another call**, in any interleaving, the shutdown included. -/
theorem response_is_own (es : List RpcEvent) {id : Int} {r : Response} {d : Bool}
    (h : (Run.exec Rpc.step .init es).stages id = .returned (.response r d)) : r.id = id :=
  (Run.invariant_all own_step ⟨linked_init, nofun⟩ : (Run.exec Rpc.step .init es).Linked ∧
    _).2 id r d h

theorem response_is_own_out_of_order :
    let s := Run.exec Rpc.step .init
      [.call true, .call true, .write 1 true, .write 2 true, .arrive ⟨2, []⟩, .deliver, .fail,
        .receive 2 true]
    s.stages 2 = .returned (.response ⟨2, []⟩ true) ∧ (⟨2, []⟩ : Response).id = 2 := by
  intro s
  have hreturned : s.stages 2 = .returned (.response ⟨2, []⟩ true) := by decide
  exact ⟨hreturned, response_is_own _ hreturned⟩

end OboardAgent.AgentLink
