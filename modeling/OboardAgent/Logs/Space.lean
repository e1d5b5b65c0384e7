import Mathlib.Algebra.Order.BigOperators.Group.Finset
import Mathlib.Order.Interval.Finset.Nat
import OboardAgent.Lib.Run
import OboardAgent.Stealth.Layout

/-!
# The space of a service's log

`internal/agent/logs.go` and `truncateLogToTail` (`internal/agent/storage.go`): the log of one
service, in bytes. The service appends to the file it has open. A sweep copies the tail of a file
that is too long to its first backup and truncates it; in an emergency the file is replaced by its
tail, and the service goes on writing to the one it has open.

The sweep looks for the log under the name of the service. The units of a hidden layout name another
file.
-/

namespace OboardAgent.Logs

open Stealth (Identity)

inductive Service where
  | agent
  | core

inductive Layout where
  | standard
  | hidden (i : Identity)

def Layout.service : Layout → Service → String
  | .standard, .agent => "oboard-agent"
  | .standard, .core => "oboard-sb"
  | .hidden i, .agent => i.agentName
  | .hidden i, .core => i.coreName

def serviceLogPath (service : String) : String := "/var/log/" ++ service ++ ".log"

def Layout.unitLog : Layout → Service → String
  | .standard, s => serviceLogPath (Layout.standard.service s)
  | .hidden i, .agent => serviceLogPath i.agentLogName
  | .hidden i, .core => serviceLogPath i.coreLogName

def Layout.managed (l : Layout) (s : Service) : Bool := serviceLogPath (l.service s) = l.unitLog s

structure Policy where
  maxBytes : Nat
  backups : Nat
  safeTail : Nat

structure Log where
  current : Nat := 0
  /-- By number; a file that is not there has no bytes. -/
  backups : Nat → Nat := fun _ => 0
  /-- The file that the service has open is the one at the path. -/
  opened : Bool := true
  /-- The bytes of the one it has open otherwise. -/
  deleted : Nat := 0
  /-- Written since the last sweep without an error began. -/
  since : Nat := 0

def Log.held (g : Log) : Nat := g.current + ∑ i ∈ Finset.Icc 1 20, g.backups i + g.deleted

def Log.write (g : Log) (n : Nat) : Log :=
  if g.opened then { g with current := g.current + n, since := g.since + n }
  else { g with deleted := g.deleted + n, since := g.since + n }

inductive Fault where
  | prune (last : Nat)
  | stat
  | shift (renamed : Nat)
  | copy
  | truncate
deriving DecidableEq

/-- What fails, and what the service writes before the size is read, before it is read again, until
the copy is done, and until the file is truncated. -/
structure Env where
  fault : Option Fault := none
  first : Nat := 0
  before : Nat := 0
  during : Nat := 0
  after : Nat := 0

/-- The last number that is pruned. -/
def Env.last (e : Env) : Nat :=
  match e.fault with
  | some (.prune last) => min last 20
  | _ => 20

def pruneLogBackups (keep last : Nat) (g : Log) : Log :=
  { g with backups := fun i => if keep < i ∧ i ≤ last then 0 else g.backups i }

/-- The backups up to `i` move up by one, the last first. -/
def renameBackups (f : Nat → Nat) : Nat → Nat → Nat → Nat
  | i + 1, steps + 1 => renameBackups (Function.update (Function.update f (i + 2) (f (i + 1)))
      (i + 1) 0) i steps
  | _, _ => f

/-- With the number of renames that succeed; none if the oldest backup cannot be removed. -/
def shiftLogBackups (backups : Nat) (f : Nat → Nat) : Nat → Nat → Nat
  | 0 => f
  | steps + 1 => renameBackups (Function.update f backups 0) (backups - 1) steps

def truncate (e : Env) (g : Log) : Log × Bool :=
  let g := g.write e.after
  if e.fault = some .truncate then (g, false) else ({ g with current := 0 }, true)

def rotateLogFile (p : Policy) (e : Env) (g : Log) : Log × Bool :=
  if p.maxBytes = 0 ∨ 20 < p.backups then (g, false)
  else
    let g := pruneLogBackups p.backups e.last (g.write e.before)
    match e.fault with
    | some (.prune _) | some .stat => (g, false)
    | fault =>
      if g.current = 0 then (g, true)
      else if p.backups = 0 then truncate e g
      else
        match fault with
        | some (.shift steps) => ({ g with backups := shiftLogBackups p.backups g.backups steps }, false)
        | fault =>
          let start := g.current - p.maxBytes
          let g := { g with backups := shiftLogBackups p.backups g.backups (p.backups + 1) }.write e.during
          if fault = some .copy then (g, false)
          else truncate e { g with backups := Function.update g.backups 1 (g.current - start) }

def enforceLogLimits (p : Policy) (force : Bool) (e : Env) (g : Log) : Log × Bool :=
  if 20 < p.backups then (g, false)
  else
    let g := pruneLogBackups p.backups e.last (g.write e.first)
    match e.fault with
    | some (.prune _) | some .stat => (g, false)
    | _ => if p.maxBytes < g.current ∨ force ∧ 0 < g.current then rotateLogFile p e g else (g, true)

def clearLogFile (e : Env) (g : Log) : Log :=
  if e.fault = some .truncate then g
  else pruneLogBackups 0 e.last { g with current := 0 }

/-- The log's part of `enforceEmergencyDiskCleanup`. -/
def enforceEmergencyDiskCleanup (p : Policy) (e : Env) (g : Log) : Log :=
  let g := pruneLogBackups 0 e.last g
  if g.current ≤ p.safeTail ∨ e.fault = some .copy then g
  else if g.opened then { g with current := p.safeTail, deleted := g.current, opened := false }
  else { g with current := p.safeTail }

inductive Event where
  | write (bytes : Nat)
  | sweep (force : Bool) (e : Env)
  | rotate (e : Env)
  | clear (e : Env)
  | emergency (e : Env)
  | reopen

/-- The log, and whether there was a sweep without an error. -/
structure World where
  log : Log := {}
  swept : Bool := false

def step (managed : Bool) (p : Policy) (w : World) : Event → World
  | .write bytes => { w with log := w.log.write bytes }
  | .reopen => { w with log := { w.log with opened := true, deleted := 0 } }
  | .sweep force e =>
    let g := { w.log with since := 0 }
    -- under the other name there is no file, which is no error
    let r := if managed then enforceLogLimits p force e g else (g.write e.first, e.fault.isNone)
    if r.2 then ⟨r.1, true⟩ else { w with log := { r.1 with since := w.log.since + r.1.since } }
  | .rotate e => if managed then { w with log := (rotateLogFile p e w.log).1 } else w
  | .clear e => if managed then { w with log := clearLogFile e w.log } else w
  | .emergency e => if managed then { w with log := enforceEmergencyDiskCleanup p e w.log } else w

/-- Nothing is written while a tail is copied, and no log is replaced by its tail. -/
def Undisturbed (p : Policy) (w : World) : Event → Prop
  | .sweep _ e | .rotate e => e.during = 0
  | .emergency _ => w.log.current ≤ p.safeTail
  | _ => True

/-! ## Bounds -/

def Policy.cap (p : Policy) (swept : Bool) (i : Nat) : Nat :=
  if swept ∧ p.backups < i ∧ i ≤ 20 then 0 else p.maxBytes

/-- The service writes to the log that is swept, and the log is not longer than `c` and what is
written. -/
structure Within (p : Policy) (swept : Bool) (c : Nat) (g : Log) : Prop where
  small : ∀ i, g.backups i ≤ p.cap swept i
  current : g.current ≤ c + g.since
  opened : g.opened = true
  deleted : g.deleted = 0

variable {p : Policy} {swept : Bool} {c : Nat} {g : Log} {e : Env}

theorem cap_le (i : Nat) : p.cap swept i ≤ p.maxBytes := by
  unfold Policy.cap
  split
  · exact Nat.zero_le _
  · exact le_refl _

theorem cap_of_le {i : Nat} (h : i ≤ p.backups) : p.cap swept i = p.maxBytes :=
  if_neg fun hi => absurd hi.2.1 (Nat.not_lt.mpr h)

namespace Within

section

variable (h : Within p swept c g)
include h

theorem write (n : Nat) : Within p swept c (g.write n) := by
  unfold Log.write
  rw [if_pos h.opened]
  refine ⟨h.small, ?_, h.opened, h.deleted⟩
  have := h.current
  dsimp only
  omega

theorem prune (keep last : Nat) : Within p swept c (pruneLogBackups keep last g) := by
  refine ⟨fun i => ?_, h.current, h.opened, h.deleted⟩
  unfold pruneLogBackups
  dsimp only
  split
  · exact Nat.zero_le _
  · exact h.small i

theorem clear : Within p swept c { g with current := 0 } :=
  ⟨h.small, Nat.zero_le _, h.opened, h.deleted⟩

theorem truncate : Within p swept c (truncate e g).1 := by
  unfold Logs.truncate
  dsimp only
  split
  · exact h.write _
  · exact (h.write _).clear

end

theorem rename {i : Nat} (hi : i < p.backups) (steps : Nat) {f : Nat → Nat} (h : ∀ j, f j ≤ p.cap swept j) :
    ∀ j, renameBackups f i steps j ≤ p.cap swept j := by
  induction i generalizing f steps with
  | zero => exact h
  | succ i ih =>
    cases steps with
    | zero => exact h
    | succ steps =>
      refine ih (by omega) steps fun j => ?_
      have hmoved := h (i + 1)
      rw [cap_of_le (by omega)] at hmoved
      rw [Function.update_apply, Function.update_apply]
      split_ifs with h₁ h₂
      · exact Nat.zero_le _
      · rw [h₂, cap_of_le (by omega)]
        exact hmoved
      · exact h j

theorem shift (h : Within p swept c g) (hp : p.backups ≠ 0) (steps : Nat) :
    Within p swept c { g with backups := shiftLogBackups p.backups g.backups steps } := by
  refine ⟨?_, h.current, h.opened, h.deleted⟩
  cases steps with
  | zero => exact h.small
  | succ steps =>
    refine rename (by omega) steps fun j => ?_
    rw [Function.update_apply]
    split
    · exact Nat.zero_le _
    · exact h.small j

theorem rotate (h : Within p swept c g) (he : e.during = 0) : Within p swept c (rotateLogFile p e g).1 := by
  unfold rotateLogFile
  split
  · exact h
  have hbegin := (h.write e.before).prune p.backups e.last
  dsimp only
  generalize pruneLogBackups p.backups e.last (g.write e.before) = g₁ at hbegin ⊢
  split
  · exact hbegin
  · exact hbegin
  split
  · exact hbegin
  split
  · exact hbegin.truncate
  rename_i hp
  split
  · exact hbegin.shift hp _
  have hcopied := (hbegin.shift hp (p.backups + 1)).write e.during
  split
  · exact hcopied
  -- nothing was written during the copy, so it is the tail
  refine truncate ⟨fun i => ?_, hcopied.current, hcopied.opened, hcopied.deleted⟩
  dsimp only
  rw [Function.update_apply]
  split_ifs with hi
  · rw [hi, cap_of_le (by omega)]
    simp only [Log.write, he, hbegin.opened, if_true]
    omega
  · exact hcopied.small i

theorem enforce (h : Within p swept c g) (he : e.during = 0) (force : Bool) :
    Within p swept c (enforceLogLimits p force e g).1 := by
  unfold enforceLogLimits
  split
  · exact h
  have hbegin := (h.write e.first).prune p.backups e.last
  dsimp only
  split
  · exact hbegin
  · exact hbegin
  split
  · exact hbegin.rotate he
  · exact hbegin

end Within

theorem rotate_ok (h : (rotateLogFile p e g).2 = true) : (rotateLogFile p e g).1.current = 0 := by
  have htruncate : ∀ g', (truncate e g').2 = true → (truncate e g').1.current = 0 := by
    intro g' h'
    unfold truncate at h' ⊢
    grind
  unfold rotateLogFile at h ⊢
  grind

/-- **A sweep without an error** leaves no backup too many, and a log within the limit. -/
theorem enforce_ok (hg : Within p swept c g) (he : e.during = 0) {force : Bool}
    (h : (enforceLogLimits p force e g).2 = true) :
    Within p true p.maxBytes (enforceLogLimits p force e g).1 := by
  have hbegin := (hg.write e.first).prune p.backups e.last
  unfold enforceLogLimits at h ⊢
  split at h
  · cases h
  rename_i hcount
  rw [if_neg hcount]
  dsimp only at h ⊢
  split at h
  · cases h
  · cases h
  rename_i hprune hstat
  have hcap : ∀ i, (pruneLogBackups p.backups e.last (g.write e.first)).backups i ≤ p.cap true i := by
    intro i
    have hlast : e.last = 20 := by
      unfold Env.last
      split
      · exact absurd ‹_› (hprune _)
      · rfl
    simp only [pruneLogBackups, Policy.cap, hlast, true_and]
    split
    · exact le_refl _
    · exact ((hg.write e.first).small i).trans (cap_le i)
  have hpruned : Within p true c (pruneLogBackups p.backups e.last (g.write e.first)) :=
    ⟨hcap, hbegin.current, hbegin.opened, hbegin.deleted⟩
  split at h
  · rename_i hlong
    rw [if_pos hlong]
    have hrotated := hpruned.rotate he
    exact ⟨hrotated.small, (rotate_ok h).trans_le (Nat.zero_le _), hrotated.opened, hrotated.deleted⟩
  · rename_i hlong
    rw [if_neg hlong]
    have hshort := Nat.not_lt.mp fun hlt => hlong (Or.inl hlt)
    exact ⟨hcap, hshort.trans (Nat.le_add_right _ _), hbegin.opened, hbegin.deleted⟩

def World.Fits (p : Policy) (w : World) : Prop :=
  ∃ c, (w.swept = true → c = p.maxBytes) ∧ Within p w.swept c w.log

theorem fits_step {w : World} (hw : w.Fits p) {ev : Event} (h : Undisturbed p w ev) :
    (step true p w ev).Fits p := by
  obtain ⟨c, hc, hg⟩ := hw
  cases ev with
  | write n => exact ⟨c, hc, hg.write n⟩
  | sweep force e =>
    have hfresh : Within p w.swept (c + w.log.since) { w.log with since := 0 } :=
      ⟨hg.small, hg.current, hg.opened, hg.deleted⟩
    simp only [step, if_true]
    split
    · exact ⟨_, fun _ => rfl, enforce_ok hfresh h ‹_›⟩
    · have hswept := hfresh.enforce h force
      exact ⟨c, hc, hswept.small, hswept.current.trans_eq (Nat.add_assoc _ _ _), hswept.opened,
        hswept.deleted⟩
  | rotate e => exact ⟨c, hc, hg.rotate h⟩
  | clear e =>
    refine ⟨c, hc, ?_⟩
    simp only [step, clearLogFile, if_true]
    split
    · exact hg
    · exact hg.clear.prune 0 _
  | emergency e =>
    have hkept : enforceEmergencyDiskCleanup p e w.log = pruneLogBackups 0 e.last w.log := if_pos (Or.inl h)
    refine ⟨c, hc, ?_⟩
    simp only [step, hkept, if_true]
    exact hg.prune 0 _
  | reopen => exact ⟨c, hc, hg.small, hg.current, rfl, rfl⟩

theorem Within.held_le (hg : Within p true p.maxBytes g) :
    g.held ≤ p.maxBytes * (1 + p.backups) + g.since := by
  have hcurrent := hg.current
  have hsum : ∑ i ∈ Finset.Icc 1 20, g.backups i ≤ p.backups * p.maxBytes := by
    calc ∑ i ∈ Finset.Icc 1 20, g.backups i
        ≤ ∑ i ∈ Finset.Icc 1 20, if i ≤ p.backups then p.maxBytes else 0 := by
          refine Finset.sum_le_sum fun i hi => (hg.small i).trans ?_
          unfold Policy.cap
          grind
      _ = ((Finset.Icc 1 20).filter (· ≤ p.backups)).card * p.maxBytes := by
          rw [← Finset.sum_filter]
          exact Finset.sum_const_nat fun _ _ => rfl
      _ ≤ p.backups * p.maxBytes := by
          refine Nat.mul_le_mul_right _
            ((Finset.card_le_card fun i hi => ?_).trans_eq (Nat.card_Icc 1 p.backups))
          simp only [Finset.mem_filter, Finset.mem_Icc] at hi ⊢
          exact ⟨hi.1.1, hi.2⟩
  unfold Log.held
  rw [hg.deleted, Nat.mul_add, Nat.mul_one, Nat.mul_comm p.maxBytes]
  omega

/-- **The space of a log is bounded** where the sweep finds it, as long as nothing is written while
a tail is copied and no log is replaced under the service. -/
theorem space_bounded {l : Layout} {s : Service} {es : List Event} (hl : l.managed s = true)
    (h : Run.Along (step (l.managed s) p) (Undisturbed p) {} es) :
    let w := Run.exec (step (l.managed s) p) {} es
    w.swept = true → w.log.held ≤ p.maxBytes * (1 + p.backups) + w.log.since := by
  rw [hl] at h ⊢
  intro w hw
  have hinitial : World.Fits p {} :=
      ⟨0, fun h => (Bool.false_ne_true h).elim, fun _ => Nat.zero_le _, le_refl _, rfl, rfl⟩
  obtain ⟨c, hc, hg⟩ : w.Fits p := Run.invariant (P := Undisturbed p)
    (fun _ _ hw h => fits_step hw h) hinitial h
  rw [hw, hc hw] at hg
  exact hg.held_le

def small : Policy := ⟨1048576, 1, 1048576⟩

theorem small_log_bounded :
    let w := Run.exec (step (Layout.standard.managed .agent) small) {}
        [.write 5000000, .sweep false {}, .write 7]
    w.log.since = 7 ∧ w.log.held ≤ small.maxBytes * (1 + small.backups) + w.log.since :=
  ⟨by decide +kernel, space_bounded rfl ⟨trivial, rfl, trivial, trivial⟩ (by decide +kernel)⟩

/-- The log of a hidden layout is not found; a log that was replaced goes on growing; and what is
written during the copy goes into the backup. -/
theorem space_exceeded :
    [(Layout.hidden Stealth.sampleIdentity, [Event.write 5000000, .sweep false {}]),
      (.standard, [.write 5000000, .emergency {}, .sweep false {}]),
      (.standard, [.write 5000000, .sweep false { during := 2000000 }, .sweep false {}])].all fun run =>
    let w := Run.exec (step (run.1.managed .agent) small) {} run.2
    w.swept && w.log.since = 0 && small.maxBytes * (1 + small.backups) < w.log.held := by
  decide +kernel

end OboardAgent.Logs
