import OboardAgent.Lib.GoMap
import OboardAgent.Lib.GoStrings
import OboardAgent.Lib.Run

/-!
# The journal of remote commands

`executeRemoteExecTask` of `internal/agent/remote_exec.go` and
`internal/agent/remote_exec_journal.go`. A command is run after a record of its request was written,
and the record gets its result when the command has ended. A later delivery is answered from the
record. The name of the file keeps only some characters of the request id, and the files are pruned
by age and by number.

The digest in a record is the SHA-256 of the payload, with the request id in it. It stands here as
the payload. Times are nanoseconds.
-/

namespace OboardAgent.Remote

/-! ## Requests and records -/

/-- The payload of a task that was accepted, as far as the journal goes: `body` is what is not the
request id. -/
structure Payload where
  requestId : String
  body : String
  named : GoStrings.trimSpace requestId ≠ ""
  short : requestId.utf8ByteSize ≤ 128
  deriving DecidableEq

structure Result where
  error : String
  rest : String
  deriving DecidableEq

inductive Status where
  | succeeded
  | failed
  deriving DecidableEq

inductive State where
  | running
  | completed (result : Result)
  deriving DecidableEq

structure Record where
  requestId : String
  digest : Payload
  state : State
  startedAt : Nat
  deriving DecidableEq

structure File where
  mod : Nat
  record : Record
  deriving DecidableEq

abbrev Files := GoMap String File

def remoteExecJournalTTL : Nat := 86400000000000

def remoteExecJournalKeep : Nat := 100

def safeChar (c : Char) : Bool :=
  ('a' ≤ c && c ≤ 'z') || ('A' ≤ c && c ≤ 'Z') || ('0' ≤ c && c ≤ '9') || c = '-' || c = '_'

def path (requestId : String) : String :=
  let safe := String.ofList (requestId.toList.filter safeChar)
  (if safe = "" then "invalid" else safe) ++ ".json"

/-! ## The journal -/

def unexpired (now : Nat) (files : Files) : Files :=
  GoMap.filterMap (fun _ f => if f.mod + remoteExecJournalTTL < now then none else some f) files

/-- The names of the files, the oldest first. Files of the same time come in the order of `tie`,
which the sort does not fix. -/
def byAge (tie : String → Nat) (files : Files) : List String :=
  (files.entries.mergeSort fun e e' =>
    decide (e.2.mod < e'.2.mod ∨ (e.2.mod = e'.2.mod ∧ tie e.1 ≤ tie e'.1))).map Sigma.fst

def pruneLocked (now : Nat) (tie : String → Nat) (files : Files) : Files :=
  let keep := unexpired now files
  if keep.size ≤ remoteExecJournalKeep then keep
  else ((byAge tie keep).take (keep.size - remoteExecJournalKeep)).foldl
    (fun files name => files.erase name) keep

inductive Begun where
  | started
  | conflict
  | running
  | completed (result : Result)
  | failed
  deriving DecidableEq

/-- `Begin`; the record of a new request is written if `writes`. -/
def Begin (now : Nat) (tie : String → Nat) (writes : Bool) (p : Payload) (files : Files) : Files × Begun :=
  let files := pruneLocked now tie files
  match files.lookup (path p.requestId) with
  | some f =>
    (files,
      if f.record.digest ≠ p then .conflict
      else match f.record.state with
        | .running => .running
        | .completed result => .completed result)
  | none =>
    if writes then (files.insert (path p.requestId) ⟨now, p.requestId, p, .running, now⟩, .started)
      else (files, .failed)

def Complete (now : Nat) (writes : Bool) (p : Payload) (result : Result) (files : Files) : Files :=
  let startedAt := ((files.lookup (path p.requestId)).map fun f => f.record.startedAt).getD now
  if writes then files.insert (path p.requestId)
    ⟨now, p.requestId, p, .completed result, startedAt⟩ else files

/-! ## Tasks -/

inductive Reply where
  | started
  | answered (status : Status) (result : Result)
  | rejected (code : String)
  deriving DecidableEq

def replyOf : Begun → Reply
  | .started => .started
  | .completed result => .answered .succeeded result
  | .running => .rejected "already_running"
  | .conflict => .rejected "request_id_conflict"
  | .failed => .rejected "request_id_conflict"

/-- The result and the status of a command that has ended; `runErr` is the error of the run. -/
def settle (result : Result) (runErr : Option String) : Result × Status :=
  match runErr with
  | some err => (if result.error = "" then { result with error := err } else result, .failed)
  | none => (result, if result.error = "" then .succeeded else .failed)

structure Exec where
  payload : Payload
  since : Nat
  deriving DecidableEq

inductive Entry where
  | started (exec : Exec)
  | finished (exec : Exec) (status : Status) (result : Result)
  deriving DecidableEq

structure World where
  now : Nat
  files : Files
  running : List Exec
  log : List Entry

def World.init : World := ⟨0, ∅, [], []⟩

inductive Event where
  | wait (elapsed : Nat)
  | deliver (p : Payload) (tie : String → Nat) (writes : Bool)
  | finish (exec : Exec) (result : Result) (runErr : Option String) (writes : Bool)
  | restart

namespace World

variable (w : World)

def reply (p : Payload) (tie : String → Nat) (writes : Bool) :
    Reply := replyOf (Begin w.now tie writes p w.files).2

/-- `executeRemoteExecTask`, up to the start of the command. -/
def deliver (p : Payload) (tie : String → Nat) (writes : Bool) : World :=
  let begun := Begin w.now tie writes p w.files
  match begun.2 with
  | .started =>
    { w with
      files := begun.1
      running := ⟨p, w.now⟩ :: w.running
      log := w.log ++ [.started ⟨p, w.now⟩] }
  | _ => { w with files := begun.1 }

/-- `executeRemoteExecTask`, from the end of the command. -/
def finish (exec : Exec) (result : Result) (runErr : Option String) (writes : Bool) : World :=
  if exec ∈ w.running then
    let settled := settle result runErr
    { w with
      files := Complete w.now writes exec.payload settled.1 w.files
      running := w.running.filter (· ≠ exec)
      log := w.log ++ [.finished exec settled.2 settled.1] }
  else w

def step : Event → World
  | .wait elapsed => { w with now := w.now + elapsed }
  | .deliver p tie writes => w.deliver p tie writes
  | .finish exec result runErr writes => w.finish exec result runErr writes
  -- Commands of a process that has gone are not heard of again.
  | .restart => { w with running := [] }

/-- The command is started once in 24 hours; a repeated delivery of a finished request is answered
as the first; and a request that was not started before is not held up. -/
structure Idempotent (p : Payload) (tie : String → Nat) (writes : Bool) : Prop where
  once : ∀ exec, Entry.started exec ∈ w.log → exec.payload.requestId = p.requestId →
    w.now < exec.since + remoteExecJournalTTL → w.reply p tie writes ≠ .started
  same : ∀ exec status result, Entry.finished exec status result ∈ w.log → exec.payload = p →
    w.now < exec.since + remoteExecJournalTTL → w.reply p tie writes = .answered status result
  apart : (∀ exec, Entry.started exec ∈ w.log → exec.payload.requestId ≠ p.requestId) →
    w.reply p tie writes = if writes then .started else .rejected "request_id_conflict"

/-- A delivery when there are at most 100 records of the last 24 hours and the file of the request
is not that of another request; and the end of a command within 24 hours, with a record, and for the
request `p` without an error. -/
def Safe (p : Payload) : Event → Prop
  | .deliver q _ _ =>
    (unexpired w.now w.files).size ≤ remoteExecJournalKeep ∧
      ∀ f ∈ w.files.lookup (path q.requestId), f.record.requestId = q.requestId
  | .finish exec result runErr writes =>
    w.now < exec.since + remoteExecJournalTTL ∧ writes = true ∧
      (exec.payload = p → result.error = "" ∧ runErr = none)
  | _ => True

end World

/-! ## The invariant -/

section Invariant

variable {w : World} {p : Payload} {tie : String → Nat} {writes : Bool}

def Recorded (w : World) (exec : Exec) (f : File) : Prop :=
  w.files.lookup (path exec.payload.requestId) = some f ∧ exec.since ≤ f.mod ∧
    f.record.requestId = exec.payload.requestId ∧ f.record.digest = exec.payload

structure Journaled (w : World) : Prop where
  past : ∀ exec, Entry.started exec ∈ w.log → exec.since ≤ w.now
  started : ∀ exec, Entry.started exec ∈ w.log → w.now < exec.since + remoteExecJournalTTL →
    ∃ f, Recorded w exec f
  single : ∀ exec exec', Entry.started exec ∈ w.log → Entry.started exec' ∈ w.log →
    exec.payload.requestId = exec'.payload.requestId → w.now < exec.since + remoteExecJournalTTL →
    w.now < exec'.since + remoteExecJournalTTL → exec = exec'
  finished : ∀ exec status result, Entry.finished exec status result ∈ w.log →
    Entry.started exec ∈ w.log ∧ (w.now < exec.since + remoteExecJournalTTL →
      ∃ f, Recorded w exec f ∧ f.record.state = .completed result)
  running : ∀ exec ∈ w.running, Entry.started exec ∈ w.log ∧
    ∀ status result, Entry.finished exec status result ∉ w.log
  known : ∀ name f, w.files.lookup name = some f →
    f.record.digest.requestId = f.record.requestId ∧ ∃ since, Entry.started ⟨f.record.digest, since⟩ ∈ w.log

theorem journaled_init : Journaled World.init where
  past := nofun
  started := nofun
  single := nofun
  finished := nofun
  running := nofun
  known := nofun

theorem lookup_unexpired {now : Nat} {files : Files} {name : String} {f : File} :
    (unexpired now files).lookup name = some f ↔ files.lookup name = some f ∧
      now ≤ f.mod + remoteExecJournalTTL := by
  unfold unexpired
  rw [GoMap.lookup_filterMap, Option.bind_eq_some_iff]
  constructor
  · rintro ⟨g, hg, hf⟩
    split_ifs at hf with hold
    cases hf
    exact ⟨hg, by omega⟩
  · rintro ⟨hf, hage⟩
    exact ⟨f, hf, if_neg (by omega)⟩

theorem pruneLocked_of_few {now : Nat} {files : Files}
    (h : (unexpired now files).size ≤ remoteExecJournalKeep) :
    pruneLocked now tie files = unexpired now files := if_pos h

theorem Recorded.unexpired {exec : Exec} {f : File} (h : Recorded w exec f)
    (hrecent : w.now < exec.since + remoteExecJournalTTL) :
    Recorded { w with files := unexpired w.now w.files } exec f := by
  obtain ⟨hlookup, hsince, hrest⟩ := h
  exact ⟨lookup_unexpired.mpr ⟨hlookup, by omega⟩, hsince, hrest⟩

theorem Recorded.insert {exec : Exec} {f g : File} {name : String} (h : Recorded w exec f)
    (hother : path exec.payload.requestId ≠ name) :
    Recorded { w with files := w.files.insert name g } exec f := by
  obtain ⟨hlookup, hrest⟩ := h
  exact ⟨(AList.lookup_insert_ne hother).trans hlookup, hrest⟩

theorem Journaled.unexpired (h : Journaled w) : Journaled { w with files := unexpired w.now w.files } where
  past := h.past
  started exec hexec hrecent := by
    obtain ⟨f, hf⟩ := h.started exec hexec hrecent
    exact ⟨f, hf.unexpired hrecent⟩
  single := h.single
  finished exec status result hexec := by
    obtain ⟨hstarted, hrecord⟩ := h.finished exec status result hexec
    refine ⟨hstarted, fun hrecent => ?_⟩
    obtain ⟨f, hf, hstate⟩ := hrecord hrecent
    exact ⟨f, hf.unexpired hrecent, hstate⟩
  running := h.running
  known name f hf := h.known name f (lookup_unexpired.mp hf).1

theorem Journaled.wait (h : Journaled w) (elapsed : Nat) : Journaled { w with now := w.now + elapsed } where
  past exec hexec := Nat.le_add_right_of_le (h.past exec hexec)
  started exec hexec hrecent := h.started exec hexec (Nat.lt_of_le_of_lt (Nat.le_add_right _ _) hrecent)
  single exec exec' hexec hexec' hid hrecent hrecent' :=
    h.single exec exec' hexec hexec' hid (Nat.lt_of_le_of_lt (Nat.le_add_right _ _) hrecent)
      (Nat.lt_of_le_of_lt (Nat.le_add_right _ _) hrecent')
  finished exec status result hexec := by
    obtain ⟨hstarted, hrecord⟩ := h.finished exec status result hexec
    exact ⟨hstarted, fun hrecent => hrecord (Nat.lt_of_le_of_lt (Nat.le_add_right _ _) hrecent)⟩
  running := h.running
  known := h.known

theorem Journaled.start (h : Journaled w) (hfree : w.files.lookup (path p.requestId) = none) :
    Journaled { w with
      files := w.files.insert (path p.requestId) ⟨w.now, p.requestId, p, .running, w.now⟩
      running := ⟨p, w.now⟩ :: w.running
      log := w.log ++ [.started ⟨p, w.now⟩] } := by
  -- A command of the last 24 hours has a file, and there is none of this name.
  have hother : ∀ exec, Entry.started exec ∈ w.log → w.now < exec.since + remoteExecJournalTTL →
      path exec.payload.requestId ≠ path p.requestId := by
    intro exec hexec hrecent hsame
    obtain ⟨f, hf, -⟩ := h.started exec hexec hrecent
    rw [hsame, hfree] at hf
    cases hf
  have hnew : w.now < w.now + remoteExecJournalTTL := Nat.lt_add_of_pos_right (by decide)
  have hlog : ∀ {exec}, Entry.started exec ∈ w.log ++ [.started ⟨p, w.now⟩] →
      Entry.started exec ∈ w.log ∨ exec = ⟨p, w.now⟩ := by
    intro exec hexec
    simpa using hexec
  refine ⟨?_, ?_, ?_, ?_, ?_, ?_⟩
  · intro exec hexec
    rcases hlog hexec with hexec | rfl
    · exact h.past exec hexec
    · exact Nat.le_refl _
  · intro exec hexec hrecent
    rcases hlog hexec with hexec | rfl
    · obtain ⟨f, hf⟩ := h.started exec hexec hrecent
      exact ⟨f, hf.insert (hother exec hexec hrecent)⟩
    · exact ⟨_, AList.lookup_insert _, Nat.le_refl _, rfl, rfl⟩
  · intro exec exec' hexec hexec' hid hrecent hrecent'
    rcases hlog hexec with hexec | rfl <;> rcases hlog hexec' with hexec' | rfl
    · exact h.single exec exec' hexec hexec' hid hrecent hrecent'
    · exact absurd (congrArg path hid) (hother exec hexec hrecent)
    · exact absurd (congrArg path hid.symm) (hother exec' hexec' hrecent')
    · rfl
  · intro exec status result hexec
    have hexec : Entry.finished exec status result ∈ w.log := by simpa using hexec
    obtain ⟨hstarted, hrecord⟩ := h.finished exec status result hexec
    refine ⟨List.mem_append_left _ hstarted, fun hrecent => ?_⟩
    obtain ⟨f, hf, hstate⟩ := hrecord hrecent
    exact ⟨f, hf.insert (hother exec hstarted hrecent), hstate⟩
  · intro exec hexec
    rcases List.mem_cons.mp hexec with rfl | hexec
    · refine ⟨by simp, fun status result hfinished => ?_⟩
      have hfinished : Entry.finished ⟨p, w.now⟩ status result ∈ w.log := by simpa using hfinished
      exact hother _ (h.finished _ _ _ hfinished).1 hnew rfl
    · obtain ⟨hstarted, hunfinished⟩ := h.running exec hexec
      exact ⟨List.mem_append_left _ hstarted, fun status result hfinished =>
        hunfinished status result (by simpa using hfinished)⟩
  · intro name f hf
    rcases GoMap.lookup_of_insert hf with ⟨rfl, rfl⟩ | hf
    · exact ⟨rfl, w.now, by simp⟩
    · obtain ⟨hid, since, hsince⟩ := h.known name f hf
      exact ⟨hid, since, List.mem_append_left _ hsince⟩

theorem Journaled.complete (h : Journaled w) {exec : Exec} (hexec : exec ∈ w.running)
    (hrecent : w.now < exec.since + remoteExecJournalTTL) (result : Result) (status : Status)
    (startedAt : Nat) :
    Journaled { w with
      files := w.files.insert (path exec.payload.requestId)
        ⟨w.now, exec.payload.requestId, exec.payload, .completed result, startedAt⟩
      running := w.running.filter (· ≠ exec)
      log := w.log ++ [.finished exec status result] } := by
  obtain ⟨hstarted, hunfinished⟩ := h.running exec hexec
  -- Another command of the last 24 hours with this file would be of the same request.
  have hother : ∀ exec', Entry.started exec' ∈ w.log → w.now < exec'.since + remoteExecJournalTTL →
      exec' ≠ exec →
      path exec'.payload.requestId ≠ path exec.payload.requestId := by
    intro exec' hexec' hrecent' hne hsame
    obtain ⟨f, hf, -, hid, -⟩ := h.started exec hstarted hrecent
    obtain ⟨f', hf', -, hid', -⟩ := h.started exec' hexec' hrecent'
    rw [hsame, hf] at hf'
    cases hf'
    exact hne (h.single exec' exec hexec' hstarted (hid'.symm.trans hid) hrecent' hrecent)
  have hlog : ∀ {e : Exec}, Entry.started e ∈ w.log ++ [.finished exec status result] →
      Entry.started e ∈ w.log := by
    intro e he
    simpa using he
  refine ⟨?_, ?_, ?_, ?_, ?_, ?_⟩
  · exact fun e he => h.past e (hlog he)
  · intro e he hrecent'
    by_cases hsame : e = exec
    · subst hsame
      exact ⟨_, AList.lookup_insert _, h.past e hstarted, rfl, rfl⟩
    · obtain ⟨f, hf⟩ := h.started e (hlog he) hrecent'
      exact ⟨f, hf.insert (hother e (hlog he) hrecent' hsame)⟩
  · exact fun e e' he he' => h.single e e' (hlog he) (hlog he')
  · intro e status' result' he
    rcases List.mem_append.mp he with he | he
    · obtain ⟨hstarted', hrecord⟩ := h.finished e status' result' he
      refine ⟨List.mem_append_left _ hstarted', fun hrecent' => ?_⟩
      obtain ⟨f, hf, hstate⟩ := hrecord hrecent'
      have hne : e ≠ exec := fun hsame => hunfinished status' result' (hsame ▸ he)
      exact ⟨f, hf.insert (hother e hstarted' hrecent' hne), hstate⟩
    · cases List.mem_singleton.mp he
      exact ⟨List.mem_append_left _ hstarted,
        fun _ => ⟨_, ⟨AList.lookup_insert _, h.past _ hstarted, rfl, rfl⟩, rfl⟩⟩
  · intro e he
    obtain ⟨hrunning, hne⟩ := List.mem_filter.mp he
    obtain ⟨hstarted', hunfinished'⟩ := h.running e hrunning
    refine ⟨List.mem_append_left _ hstarted', fun status' result' hfinished => ?_⟩
    rcases List.mem_append.mp hfinished with hfinished | hfinished
    · exact hunfinished' status' result' hfinished
    · cases List.mem_singleton.mp hfinished
      simp at hne
  · intro name f hf
    rcases GoMap.lookup_of_insert hf with ⟨rfl, rfl⟩ | hf
    · exact ⟨rfl, exec.since, List.mem_append_left _ hstarted⟩
    · obtain ⟨hid, since, hsince⟩ := h.known name f hf
      exact ⟨hid, since, List.mem_append_left _ hsince⟩

theorem journaled_step {q : Payload} (w : World) (e : Event) (h : Journaled w) (hsafe : w.Safe q e) :
    Journaled (w.step e) := by
  cases e with
  | wait elapsed => exact h.wait elapsed
  | restart => exact ⟨h.past, h.started, h.single, h.finished, nofun, h.known⟩
  | deliver p tie writes =>
    have hpruned := h.unexpired
    change Journaled (w.deliver p tie writes)
    unfold World.deliver Begin
    rw [pruneLocked_of_few hsafe.1]
    dsimp only
    cases hfile : (unexpired w.now w.files).lookup (path p.requestId) with
    | some f =>
      dsimp only
      split_ifs with hdigest
      · exact hpruned
      · cases f.record.state with
        | running => exact hpruned
        | completed result => exact hpruned
    | none =>
      cases writes with
      | true => exact hpruned.start hfile
      | false => exact hpruned
  | finish exec result runErr writes =>
    obtain ⟨hrecent, hwrites, -⟩ := hsafe
    subst hwrites
    change Journaled (w.finish exec result runErr true)
    unfold World.finish
    split_ifs with hrunning
    · exact h.complete hrunning hrecent _ _ _
    · exact h

/-- The commands of the request that have ended were successful. -/
def Successful (p : Payload) (w : World) : Prop :=
  ∀ exec status result, Entry.finished exec status result ∈ w.log → exec.payload = p →
    status = .succeeded

theorem successful_step (w : World) (e : Event) (h : Successful p w) (hsafe : w.Safe p e) :
    Successful p (w.step e) := by
  cases e with
  | wait elapsed => exact h
  | restart => exact h
  | deliver q tie writes =>
    change Successful p (w.deliver q tie writes)
    unfold World.deliver
    dsimp only
    split
    · exact fun exec status result hexec => h exec status result (by simpa using hexec)
    · exact h
  | finish exec result runErr writes =>
    change Successful p (w.finish exec result runErr writes)
    unfold World.finish
    split_ifs with hrunning
    · intro exec' status result' hexec hpayload
      rcases List.mem_append.mp hexec with hexec | hexec
      · exact h exec' status result' hexec hpayload
      · cases List.mem_singleton.mp hexec
        obtain ⟨herror, rfl⟩ := hsafe.2.2 hpayload
        exact if_pos herror
    · exact h

/-! ## Deliveries -/

theorem reply_of_record (hfew : (unexpired w.now w.files).size ≤ remoteExecJournalKeep) {f : File}
    (hf : (unexpired w.now w.files).lookup (path p.requestId) = some f) :
    w.reply p tie writes = if f.record.digest ≠ p then .rejected "request_id_conflict"
      else match f.record.state with
        | .running => .rejected "already_running"
        | .completed result => .answered .succeeded result := by
  unfold World.reply Begin
  rw [pruneLocked_of_few hfew]
  dsimp only
  rw [hf]
  dsimp only
  split_ifs
  · rfl
  · cases f.record.state <;> rfl

/-- **Remote commands are idempotent**: in a state that a run of safe steps has reached, a safe
delivery does not start again what was started less than 24 hours ago, repeats the first answer, and
is not held up by other requests. -/
theorem remote_exec_idempotent {es : List Event}
    (h : Run.Along World.step (World.Safe · p) World.init (es ++ [.deliver p tie writes])) :
    (Run.exec World.step World.init es).Idempotent p tie writes := by
  obtain ⟨hbefore, ⟨hfew, hown⟩, -⟩ := Run.Along.append.mp h
  have hj : Journaled (Run.exec World.step World.init es) :=
    Run.invariant journaled_step journaled_init hbefore
  have hsucceeded : Successful p (Run.exec World.step World.init es) :=
    Run.invariant successful_step nofun hbefore
  generalize Run.exec World.step World.init es = w at hfew hown hj hsucceeded
  refine ⟨?_, ?_, ?_⟩
  · intro exec hexec hid hrecent
    obtain ⟨f, hf⟩ := hj.started exec hexec hrecent
    have hfile := (hf.unexpired hrecent).1
    rw [hid] at hfile
    rw [reply_of_record hfew hfile]
    split_ifs
    · exact nofun
    · cases f.record.state <;> exact nofun
  · rintro exec status result hexec rfl hrecent
    obtain ⟨-, hrecord⟩ := hj.finished exec status result hexec
    obtain ⟨f, hf, hstate⟩ := hrecord hrecent
    rw [reply_of_record hfew (hf.unexpired hrecent).1, if_neg (not_not.mpr hf.2.2.2), hstate,
      hsucceeded exec status result hexec rfl]
  · intro hfirst
    have hnone : (unexpired w.now w.files).lookup (path p.requestId) = none := by
      cases hfile : (unexpired w.now w.files).lookup (path p.requestId) with
      | none => rfl
      | some f =>
        have hf := (lookup_unexpired.mp hfile).1
        obtain ⟨hid, since, hsince⟩ := hj.known _ f hf
        exact absurd (hid.trans (hown f hf)) (hfirst _ hsince)
    unfold World.reply Begin
    rw [pruneLocked_of_few hfew]
    dsimp only
    rw [hnone]
    cases writes <;> rfl

end Invariant

/-! ## Two requests -/

def firstRequest : Payload := ⟨"req.1", "", by decide +kernel, by decide⟩

def secondRequest : Payload := ⟨"req1", "", by decide +kernel, by decide⟩

def firstRun (result : Result) : List Event :=
  [.deliver firstRequest (fun _ => 0) true, .wait 1000,
    .finish ⟨firstRequest, 0⟩ result none true, .wait 1000]

theorem repeated_request_is_answered :
    (Run.exec World.step World.init (firstRun ⟨"", "ok"⟩)).reply firstRequest (fun _ => 0) true
      = .answered .succeeded ⟨"", "ok"⟩ ∧
      (Run.exec World.step World.init (firstRun ⟨"", "ok"⟩)).Idempotent firstRequest (fun _ => 0) true := by
  refine ⟨by decide +kernel, remote_exec_idempotent ?_⟩
  exact ⟨⟨by decide +kernel, by decide +kernel⟩, trivial, ⟨by decide, rfl, fun _ => ⟨rfl, rfl⟩⟩, trivial,
    ⟨by decide +kernel, by decide +kernel⟩, trivial⟩

/-- A command that failed is reported as a success when the request comes again; and a request is
refused because of another whose id has the same letters and digits. -/
theorem failure_becomes_success_and_ids_collide :
    ¬(Run.exec World.step World.init (firstRun ⟨"remote_exec_timeout", ""⟩)).Idempotent firstRequest
      (fun _ => 0) true ∧
      ¬(Run.exec World.step World.init (firstRun ⟨"", "ok"⟩)).Idempotent secondRequest (fun _ => 0) true := by
  constructor
  · intro h
    have hsame := h.same ⟨firstRequest, 0⟩ .failed ⟨"remote_exec_timeout", ""⟩
        (by decide +kernel) rfl (by decide)
    exact absurd hsame (by decide +kernel)
  · intro h
    have hlog : (Run.exec World.step World.init (firstRun ⟨"", "ok"⟩)).log =
        [.started ⟨firstRequest, 0⟩, .finished ⟨firstRequest, 0⟩ .succeeded ⟨"", "ok"⟩] := by decide +kernel
    refine absurd (h.apart fun exec hexec => ?_) (by decide +kernel)
    rw [hlog] at hexec
    simp only [List.mem_cons, List.not_mem_nil, Entry.started.injEq, reduceCtorEq, or_false] at hexec
    rw [hexec]
    decide

end OboardAgent.Remote
