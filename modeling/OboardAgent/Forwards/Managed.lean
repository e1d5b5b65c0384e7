import Mathlib.Data.List.Infix
import Mathlib.Data.PNat.Defs
import OboardAgent.Lib.GoStrings
import OboardAgent.Lib.Run

/-!
# Records of managed processes

`stopManagedProcess` (`internal/agent/forwards.go`). For each tunnel and forwarder there is a file
with the id of its process, its command and its start token. To stop it, the agent asks whether the
process under the id is the recorded one, and kills what then has the id. If it is another one, the
agent refuses and keeps the record.

The table of processes is the environment's: it changes at any time, also between the question and
the kill. A process has a start token, and with its id that says which process it is. Records are
the ones that are written with a token.
-/

namespace OboardAgent.Managed

open GoStrings (base)

structure Process where
  startToken : String
  fields : List String
  named : startToken ≠ ""

abbrev Table := ℕ+ → Option Process

structure Record where
  pid : ℕ+
  command : String
  startToken : String
  named : startToken ≠ ""

/-- On Unix `executableBase` is `filepath.Base`. -/
def Process.runs (p : Process) (expected : String) : Bool :=
  p.fields.any fun field => base field = expected || ("/" ++ expected).toList.isSuffixOf field.toList

def managedProcessMatches (procs : Table) (pid : ℕ+) (expected startToken : String) : Bool :=
  match procs pid with
  | none => false
  | some p =>
    if startToken ≠ "" ∧ p.startToken ≠ startToken then false
    else if expected = "" then startToken ≠ ""
    else p.runs expected

def Record.expected (r : Record) (pidPath : String) : String :=
  if r.command ≠ "" then r.command
  else if "ssh-".toList <+: (base pidPath).toList then "ssh"
  else if "realm".toList <:+: (base pidPath).toList then "realm"
  else ""

/-- What a stop did with a record: whether it succeeded, which removes the file, and what it
killed. -/
structure Report where
  record : Record
  procs : Table
  ok : Bool
  killed : Option Process

/-- The table is `procs` at the question, `next` at what follows, which is the kill or
`processAlive`, and `last` when the process was last looked for, within three seconds. -/
def stopManagedProcess (pidPath : String) (r : Record) (procs next last : Table) : Report :=
  let expected := r.expected pidPath
  if managedProcessMatches procs r.pid expected r.startToken then
    { record := r, procs, killed := next r.pid
      ok := !managedProcessMatches last r.pid expected r.startToken }
  else { record := r, procs, ok := (next r.pid).isNone, killed := none }

/-! ## Runs -/

structure World where
  procs : Table := fun _ => none
  records : String → Option Record := fun _ => none

/-- Processes end, others get their ids, the host boots; a process is started and recorded; one is
stopped. A restart of the agent changes nothing here. -/
inductive Event where
  | processes (procs : Table)
  | start (pidPath command : String) (pid : ℕ+) (p : Process)
  | stop (pidPath : String) (next last : Table)

def out (w : World) : Event → List Report
  | .stop pidPath next last =>
    ((w.records pidPath).map fun r => stopManagedProcess pidPath r w.procs next last).toList
  | _ => []

def step (w : World) (e : Event) : World :=
  match e with
  | .processes procs => { w with procs }
  | .start pidPath command pid p =>
    { procs := Function.update w.procs pid (some p)
      records := Function.update w.records pidPath (some ⟨pid, command, p.startToken, p.named⟩) }
  | .stop pidPath _ last =>
    { procs := last
      records :=
        if ∃ r ∈ out w e, r.ok then Function.update w.records pidPath none else w.records }

def Record.IsOf (r : Record) (p : Process) : Prop := p.startToken = r.startToken

instance (r : Record) (p : Process) : Decidable (r.IsOf p) := inferInstanceAs (Decidable (_ = _))

/-- No other process is killed, and the record of a process that is gone is removed. -/
structure Report.Good (r : Report) : Prop where
  safe : ∀ p ∈ r.killed, r.record.IsOf p
  free : (∀ p ∈ r.procs r.record.pid, ¬ r.record.IsOf p) → r.ok ∧ r.killed = none

/-- Nothing comes under the id of a record: where its process is gone, the id is free when it is
looked at again, and where it runs, no other process has the id at the kill. -/
def Unshared (w : World) : Event → Prop
  | .stop pidPath next _ => ∀ r ∈ w.records pidPath,
    ((∀ p ∈ w.procs r.pid, ¬ r.IsOf p) → next r.pid = none) ∧
      ∀ p ∈ w.procs r.pid, r.IsOf p → (r.expected pidPath = "" ∨ p.runs (r.expected pidPath)) →
        ∀ q ∈ next r.pid, r.IsOf q
  | _ => True

theorem managedProcessMatches_iff (procs : Table) (r : Record) (expected : String) :
    managedProcessMatches procs r.pid expected r.startToken = true ↔
      ∃ p ∈ procs r.pid, r.IsOf p ∧ (expected = "" ∨ p.runs expected = true) := by
  have hnamed := r.named
  unfold managedProcessMatches Record.IsOf
  cases procs r.pid with
  | none => simp
  | some p => grind

theorem good_stop_iff (w : World) (e : Event) : (∀ r ∈ out w e, r.Good) ↔ Unshared w e := by
  cases e with
  | processes | start => simp [out, Unshared]
  | stop pidPath next last =>
    cases hr : w.records pidPath with
    | none => simp [out, Unshared, hr]
    | some r =>
      simp only [out, Unshared, hr, Option.map_some, Option.toList_some, List.mem_singleton, forall_eq,
        Option.mem_some_iff, forall_eq']
      have hmatch := managedProcessMatches_iff w.procs r (r.expected pidPath)
      unfold stopManagedProcess
      by_cases hmatches : managedProcessMatches w.procs r.pid (r.expected pidPath) r.startToken = true
      · -- It is the recorded process that was found, so only the kill can go wrong.
        obtain ⟨p, hp, his, hruns⟩ := hmatch.mp hmatches
        simp only [if_pos hmatches]
        constructor
        · exact fun h => ⟨fun hgone => absurd his (hgone p hp), fun _ _ _ _ => h.safe⟩
        · exact fun h => ⟨h.2 p hp his hruns, fun hgone => absurd his (hgone p hp)⟩
      · simp only [if_neg hmatches]
        constructor
        · intro h
          refine ⟨fun hgone => Option.isNone_iff_eq_none.mp (h.free hgone).1, ?_⟩
          exact fun p hp his hruns => absurd (hmatch.mpr ⟨p, hp, his, hruns⟩) hmatches
        · exact fun h => ⟨nofun, fun hgone => ⟨Option.isNone_iff_eq_none.mpr (h.1 hgone), rfl⟩⟩

/-- **Stops are safe and never stuck** in exactly the runs where no other process comes under the id
of a record. -/
theorem stops_good_iff (es : List Event) :
    (∀ r ∈ Run.outputs step out {} es, r.Good) ↔ Run.Along step Unshared {} es := by
  rw [Run.forall_outputs]
  exact ⟨Run.Along.mono fun w e => (good_stop_iff w e).mp, Run.Along.mono fun w e => (good_stop_iff w e).mpr⟩

/-- **The host boots, and another process gets the id**: the stop fails, and the record stays for
ever. A process that ends between the question and the kill leaves its id to another, and that one
is killed. -/
theorem id_of_another :
    let started := Event.start "ssh-1.pid" "ssh" 7 ⟨"100", ["/usr/bin/ssh"], by decide⟩
    let other : Table := fun pid => if pid = 7 then some ⟨"200", ["/usr/bin/nginx"], by decide⟩ else none
    let booted := [started, .processes other, .stop "ssh-1.pid" other other]
    let raced := [started, .stop "ssh-1.pid" other other]
    let reports := fun es => (Run.outputs step out {} es).map fun r =>
      (r.record.startToken, r.ok, r.killed.map (·.startToken))
    reports booted = [("100", false, none)] ∧
      ((Run.exec step {} booted).records "ssh-1.pid").isSome ∧
      reports raced = [("100", true, some "200")] := by
  decide +kernel

end OboardAgent.Managed
