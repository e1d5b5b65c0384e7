import OboardAgent.Lib.GoMap
import OboardAgent.Lib.Run

/-!
# The table of terminal sessions

`runTerminalSession` (`internal/agent/remote_terminal.go`) counts the entries under the lock, lets
go of it to start a terminal and to dial the controller, and takes it again to enter the session
under its id. At its end, and when all sessions are closed, what is under the id is taken out under
the lock and closed after it. Each part under the lock is one event, and so is each thing that a
session does in between.
-/

namespace OboardAgent.Terminals

def interactiveMaxSessions : Nat := 2

inductive Phase
  | starting
  | dialing
  | serving
  | ended
  deriving DecidableEq, Repr

inductive Pty
  | absent
  | running
  | closing
  deriving DecidableEq, Repr

structure Session where
  id : String
  phase : Phase := .starting
  pty : Pty := .absent
  deriving DecidableEq, Repr

/-- The sessions by the order of their requests. -/
structure World where
  next : Nat := 0
  sessions : Nat → Session := fun _ => { id := "", phase := .ended }
  terminalSessions : GoMap String Nat := ∅

inductive Event
  | prepare (id : String)
  | start (i : Nat)
  | fail (i : Nat)
  | register (i : Nat)
  | finish (i : Nat)
  /-- One round of `closeAllTerminalSessions`. -/
  | close (id : String)
  | closed (i : Nat)
  deriving DecidableEq, Repr

namespace World

variable (w : World)

def set (i : Nat) (s : Session) : World := { w with sessions := Function.update w.sessions i s }

/-- The part of `closeTerminalSession` under the lock. -/
def closeTerminalSession (id : String) : World :=
  match w.terminalSessions.lookup id with
  | none => w
  | some i => { w.set i { w.sessions i with pty := .closing } with
      terminalSessions := w.terminalSessions.erase id }

def step (w : World) : Event → World
  | .prepare id =>
    if interactiveMaxSessions ≤ w.terminalSessions.size then w else
      { w.set w.next { id := id } with next := w.next + 1 }
  | .start i =>
    if (w.sessions i).phase = .starting then w.set i { w.sessions i with phase := .dialing, pty :=
      .running } else w
  | .fail i =>
    if (w.sessions i).phase = .starting ∨ (w.sessions i).phase = .dialing then
      w.set i { w.sessions i with phase := .ended, pty := .absent }
    else w
  | .register i =>
    if (w.sessions i).phase = .dialing then
      { w.set i { w.sessions i with phase := .serving } with
        terminalSessions := w.terminalSessions.insert (w.sessions i).id i }
    else w
  | .finish i =>
    if (w.sessions i).phase = .serving then
      let w' := w.closeTerminalSession (w.sessions i).id
      w'.set i { w'.sessions i with phase := .ended }
    else w
  | .close id => w.closeTerminalSession id
  | .closed i => if (w.sessions i).pty = .closing then w.set i { w.sessions i with pty := .absent } else w

end World

/-! ## Room -/

@[simp] def Session.isOpen (s : Session) : Bool := s.pty ≠ .absent

@[simp] def Session.busy (s : Session) : Bool := s.phase = .starting || s.isOpen

def World.count (w : World) (p : Session → Bool) : Nat := (List.range w.next).countP fun i => p (w.sessions i)

/-- A request that passes the check finds fewer sessions with a terminal, or about to start one,
than the limit, and none of its id that has not ended. -/
def World.HasRoom (w : World) : Event → Prop
  | .prepare id => w.terminalSessions.size < interactiveMaxSessions →
      w.count Session.busy < interactiveMaxSessions ∧ ∀ i < w.next, (w.sessions i).id = id →
        (w.sessions i).phase = .ended
  | _ => True

instance (w : World) (e : Event) : Decidable (w.HasRoom e) := by
  cases e <;> unfold World.HasRoom <;> infer_instance

@[simp, grind =] def Session.Entered (s : Session) : Prop := s.phase = .serving ∧ s.pty = .running

/-- A terminal runs while its session dials, and then as long as it is in the table. -/
@[simp, grind =] def Session.Fits (s : Session) : Prop :=
  (s.phase = .dialing → s.pty = .running) ∧ (s.pty = .running → s.phase = .dialing ∨ s.phase = .serving)

structure Kept (w : World) : Prop where
  fresh : ∀ i, w.next ≤ i → (w.sessions i).phase = .ended
  fits : ∀ i, (w.sessions i).Fits
  entry : ∀ id i, w.terminalSessions.lookup id = some i ↔ (w.sessions i).id = id ∧ (w.sessions i).Entered
  unique : ∀ i j, (w.sessions i).phase ≠ .ended → (w.sessions j).phase ≠ .ended →
    (w.sessions i).id = (w.sessions j).id → i = j
  few : w.count Session.busy ≤ interactiveMaxSessions

section
variable {w : World} {i : Nat} {s : Session}

theorem Kept.change (h : Kept w) {table : GoMap String Nat} (hid : s.id = (w.sessions i).id) (hfits : s.Fits)
    (hended : (w.sessions i).phase = .ended → s.phase = .ended)
    (hbusy : s.busy = true → (w.sessions i).busy = true)
    (htable : ∀ id j, table.lookup id = some j ↔
      if j = i then s.id = id ∧ s.Entered else w.terminalSessions.lookup id = some j) :
    Kept { w.set i s with terminalSessions := table } := by
  obtain ⟨hfresh, hfit, hentry, hunique, hfew⟩ := h
  refine ⟨?_, ?_, ?_, ?_, Nat.le_trans (List.countP_mono_left fun j _ hj => ?_) hfew⟩
  -- each is about this session or about another one
  all_goals simp only [World.set, Function.update_apply] at *
  · grind
  · grind
  · grind
  · grind
  · grind

theorem Kept.set (h : Kept w) (hid : s.id = (w.sessions i).id) (hfits : s.Fits)
    (hended : (w.sessions i).phase = .ended → s.phase = .ended) (hbusy : s.busy = true →
      (w.sessions i).busy = true)
    (hout : ¬(w.sessions i).Entered) (hout' : ¬s.Entered) : Kept (w.set i s) := by
  refine h.change hid hfits hended hbusy fun id j => ?_
  have hentry := h.entry id j
  grind

theorem Kept.begin (h : Kept w) {id : String} (hbusy : w.count Session.busy < interactiveMaxSessions)
    (hnew : ∀ i < w.next, (w.sessions i).id = id → (w.sessions i).phase = .ended) :
    Kept { w.set w.next { id := id } with next := w.next + 1 } := by
  have hsame : (List.range w.next).countP (fun i => (Function.update w.sessions w.next { id := id } i).busy)
      = w.count Session.busy := by
    refine List.countP_congr fun i hi => ?_
    rw [Function.update_of_ne (Nat.ne_of_lt (List.mem_range.mp hi))]
  obtain ⟨hfresh, hfit, hentry, hunique, -⟩ := h
  have hlive : ∀ i, (w.sessions i).phase ≠ .ended → (w.sessions i).id ≠ id ∧ i ≠ w.next := by grind
  refine ⟨?_, ?_, ?_, ?_, ?_⟩
  rotate_right
  · dsimp only [World.set, World.count] at hsame ⊢
    rw [List.range_succ, List.countP_append, hsame]
    exact Nat.le_trans (Nat.add_le_add_left List.countP_le_length _) hbusy
  all_goals simp only [World.set, Function.update_apply]
  · grind
  · grind
  · grind
  · grind

theorem Kept.close (h : Kept w) (id : String) : Kept (w.closeTerminalSession id) := by
  unfold World.closeTerminalSession
  split
  · exact h
  · rename_i i hi
    obtain ⟨hid, hserving, hpty⟩ := (h.entry id i).mp hi
    refine h.change rfl (by simp [hserving]) (fun hp => hp) (by simp [hpty]) fun id' j => ?_
    have hentry := h.entry id' j
    rw [GoMap.lookup_erase_eq]
    grind

theorem Kept.close_own (h : Kept w) (hserving : (w.sessions i).phase = .serving) :
    let w' := w.closeTerminalSession (w.sessions i).id
    (w'.sessions i).pty ≠ .running ∧ ∀ j ≠ i, w'.sessions j = w.sessions j ∧
      ∀ id, w.terminalSessions.lookup id = some j → w'.terminalSessions.lookup id = some j := by
  have hunique := h.unique i
  have hentry := h.entry
  dsimp only
  unfold World.closeTerminalSession
  split
  · have hnone := hentry (w.sessions i).id i
    grind
  · simp only [World.set, GoMap.lookup_erase_eq, Function.update_apply]
    grind

theorem Kept.step (h : Kept w) (e : Event) (hroom : w.HasRoom e) : Kept (w.step e) := by
  cases e with
  | prepare id =>
    dsimp only [World.step]
    split_ifs with hfull
    · exact h
    · obtain ⟨hbusy, hnew⟩ := hroom (Nat.lt_of_not_le hfull)
      exact h.begin hbusy hnew
  | start i =>
    dsimp only [World.step]
    split_ifs with hphase
    · exact h.set rfl (by simp) (by simp [hphase]) (by simp [hphase]) (by simp [hphase]) (by simp)
    · exact h
  | fail i =>
    dsimp only [World.step]
    split_ifs with hphase
    · exact h.set rfl (by simp) (by simp) (by simp) (by grind) (by simp)
    · exact h
  | register i =>
    dsimp only [World.step]
    split_ifs with hphase
    · have hpty := (h.fits i).1 hphase
      refine h.change rfl (by simp) (by simp [hphase]) (by simp [hpty]) fun id j => ?_
      have hentry := h.entry id j
      have hunique := h.unique i j
      rw [GoMap.lookup_insert_eq]
      grind
    · exact h
  | finish i =>
    dsimp only [World.step]
    split_ifs with hserving
    · have hpty := (h.close_own hserving).1
      exact (h.close _).set rfl (by simp [hpty]) (by simp) (by simp; tauto) (by simp [hpty]) (by simp)
    · exact h
  | close id => exact h.close id
  | closed i =>
    dsimp only [World.step]
    split_ifs with hpty
    · have hfits := h.fits i
      exact h.set rfl (by simp; grind) (fun hp => hp) (by simp; tauto) (by simp [hpty]) (by simp)
    · exact h

end

/-- In every run in which a request that passes the check finds room and its id free, no more
terminals are open than the limit, each that runs is the one under its session's id or its session
still dials, and the end of a session leaves the terminal and the entry of every other. -/
theorem terminals_keep_apart (es : List Event) (w : World) (hw : w = Run.exec World.step {} es)
    (h : Run.Along World.step World.HasRoom {} es) :
    w.count Session.isOpen ≤ interactiveMaxSessions ∧
    (∀ i, (w.sessions i).pty = .running →
      (w.sessions i).phase = .dialing ∨ w.terminalSessions.lookup (w.sessions i).id = some i) ∧
    ∀ i j, j ≠ i → (w.step (.finish i)).sessions j = w.sessions j ∧
      ∀ id, w.terminalSessions.lookup id = some j →
        (w.step (.finish i)).terminalSessions.lookup id = some j := by
  have hkept : Kept w := by
    rw [hw]
    refine Run.invariant (fun w e hkept hroom => hkept.step e hroom) ?_ h
    exact ⟨fun _ _ => rfl, by simp, by simp, by simp, by decide⟩
  refine ⟨Nat.le_trans (List.countP_mono_left fun j _ hj => ?_) hkept.few, fun i hrun =>
    ?_, fun i j hne => ?_⟩
  · simp only [Session.busy, hj, Bool.or_true]
  · rcases (hkept.fits i).2 hrun with hdialing | hserving
    · exact .inl hdialing
    · exact .inr ((hkept.entry _ i).mpr ⟨rfl, hserving, hrun⟩)
  · dsimp only [World.step]
    split_ifs with hserving
    · obtain ⟨hsame, hentry⟩ := (hkept.close_own hserving).2 j hne
      exact ⟨(Function.update_of_ne hne _ _).trans hsame, hentry⟩
    · exact ⟨rfl, fun _ hid => hid⟩

/-- Two sessions at once, and a third after the first. -/
theorem three_terminals_keep_apart :
    let es : List Event := [.prepare "a", .start 0, .prepare "b", .register 0,
        .start 1, .register 1, .finish 0, .closed 0,
      .prepare "a", .start 2]
    (Run.exec World.step {} es).count Session.isOpen ≤ interactiveMaxSessions :=
  (terminals_keep_apart _ _ rfl (by decide +kernel)).1

/-- Three requests pass the check before the first is entered. Two of one id: the end of the first
takes the terminal of the second out of the table, and leaves its own running. -/
theorem requests_pass_together :
    (Run.exec World.step {} [.prepare "a", .prepare "b", .prepare "c", .start 0, .start 1,
      .start 2]).count Session.isOpen = 3 ∧
    let w := Run.exec World.step {} [.prepare "a", .prepare "a", .start 0, .start 1, .register 0,
        .register 1, .finish 0]
    (w.sessions 0).pty = .running ∧ (w.sessions 1).pty = .closing ∧ w.terminalSessions.lookup "a" = none := by
  decide +kernel

end OboardAgent.Terminals
