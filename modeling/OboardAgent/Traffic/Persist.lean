import OboardAgent.Traffic.State

/-!
# The traffic state file

`loadTrafficState`, `validateTrafficState` and `saveTrafficState`. A file is absent, cannot be
read, has no content, holds what is no state, or holds a state, which the reader still validates.
A missing or corrupt file puts the ledger into recovery, with the streams of the backup copy when
that one can be read.

A save copies the old content to the backup before it writes the new one, and either write may
fail; `Writes` says how far it came.
-/

namespace OboardAgent.Traffic

open GoStrings

inductive TrafficFile where
  | missing
  | failing
  | empty
  | garbage
  | holds (content : TrafficLocalState)

/-- Why a state is not written or not taken from its file. -/
inductive TrafficStateError where
  | notExist
  | readFailed
  | empty
  | syntaxError
  | schemaVersion (version : Int)
  | reportIdentity
  | reportRange

def TrafficStateError.text : TrafficStateError → String
  | .notExist => "file does not exist"
  | .readFailed => "reading traffic state"
  | .empty => "traffic state is empty"
  | .syntaxError => "decoding traffic state"
  | .schemaVersion version => "unsupported traffic state schema_version " ++ toString version
  | .reportIdentity => "pending traffic report identity is invalid"
  | .reportRange => "pending traffic report range is invalid"

def validateReport (id : String) (report : TrafficPendingRange) : Except TrafficStateError Unit :=
  if trimSpace report.reportID = "" ∨ report.reportID ≠ id then .error .reportIdentity
  else if report.toBytes.below report.fromBytes then .error .reportRange
  else .ok ()

def validateReports : List (Σ _ : String, TrafficPendingRange) → Except TrafficStateError Unit
  | [] => .ok ()
  | e :: es =>
    match validateReport e.1 e.2 with
    | .error err => .error err
    | .ok () => validateReports es

variable (st : TrafficLocalState)

def validateTrafficState : Except TrafficStateError Unit :=
  if st.schemaVersion < 0 ∨ trafficStateSchemaV2 < st.schemaVersion then
    .error (.schemaVersion st.schemaVersion)
  else validateReports st.pendingReports.entries

def readTrafficStateFile : TrafficFile → Except TrafficStateError TrafficLocalState
  | .missing => .error .notExist
  | .failing => .error .readFailed
  | .empty => .error .empty
  | .garbage => .error .syntaxError
  | .holds content =>
    match validateTrafficState content with
    | .error e => .error e
    | .ok () => .ok content

def namesInbound (report : TrafficPendingRange) : Bool := 0 < report.inboundID.getD 0

/-- `migrateLoadedTrafficState`: a pending report without an inbound can never be accepted. -/
def migrateLoadedTrafficState (missing : Bool) : TrafficLocalState :=
  let st' := { st with
    pendingReports := st.pendingReports.filterMap fun _ p => if namesInbound p then some p else none }
  if trafficStateSchemaV2 ≤ st'.schemaVersion then st'
  else if missing && st'.last.entries.isEmpty && st'.pending.isEmpty &&
      st'.pendingReports.entries.isEmpty then
    { st' with schemaVersion := trafficStateSchemaV2 }
  else st'

def corruptTrafficState (reason : String) : TrafficLocalState :=
  { schemaVersion := trafficStateSchemaV2, recoveryRequired := true
    sync := { status := .stateCorrupt, lastError := reason } }

/-- `loadTrafficState`, from the state file and its backup. -/
def loadTrafficState (primary backup : TrafficFile) : TrafficLocalState :=
  match readTrafficStateFile primary with
  | .ok st => migrateLoadedTrafficState st false
  | .error .notExist =>
    match readTrafficStateFile backup with
    | .ok st =>
      let migrated := migrateLoadedTrafficState st false
      { migrated with
        recoveryRequired := true
        sync := { migrated.sync with status := .recovering } }
    | .error _ =>
      let empty := migrateLoadedTrafficState {} true
      { empty with recoveryRequired := true, sync := { empty.sync with status := .recovering } }
  | .error _ =>
    match readTrafficStateFile backup with
    | .ok st =>
      { migrateLoadedTrafficState st false with
        recoveryRequired := true
        sync := { (migrateLoadedTrafficState st false).sync with
          status := .recovering, lastError := "primary traffic-state.json was unreadable" } }
    | .error _ => corruptTrafficState "traffic-state.json is corrupt"

def savedForm : TrafficLocalState :=
  if st.schemaVersion = 0 ∧ st.pending = [] then { st with schemaVersion := trafficStateSchemaV2 }
  else st

/-- The state file and its backup. -/
structure TrafficFiles where
  primary : TrafficFile
  backup : TrafficFile

/-- How far the two writes of a save came. -/
inductive Writes where
  | none
  | backup
  | both
deriving DecidableEq, Repr

def TrafficFile.hasContent : TrafficFile → Bool
  | .garbage | .holds _ => true
  | _ => false

/-- `saveTrafficState`: what the files are after it. -/
def TrafficFiles.saveTrafficState (files : TrafficFiles) (st : TrafficLocalState) (w : Writes) :
    TrafficFiles :=
  match validateTrafficState (savedForm st) with
  | .error _ => files
  | .ok () =>
    let backup := if files.primary.hasContent then files.primary else files.backup
    match w with
    | .none => files
    | .backup => { files with backup := backup }
    | .both => { primary := .holds (savedForm st), backup := backup }

def saves (w : Writes) : Bool :=
  match validateTrafficState (savedForm st) with
  | .error _ => false
  | .ok () => w = .both

/-! ## What loading leaves -/

theorem loadTrafficState_recovering {primary backup : TrafficFile} {e : TrafficStateError}
    (h : readTrafficStateFile primary = .error e) :
    (loadTrafficState primary backup).recoveryRequired = true := by
  unfold loadTrafficState
  rw [h]
  cases readTrafficStateFile backup with
  | ok st => cases e <;> rfl
  | error e' => cases e <;> rfl

theorem loadTrafficState_of_ok {primary backup : TrafficFile} {st : TrafficLocalState}
    (h : readTrafficStateFile primary = .ok st) :
    loadTrafficState primary backup = migrateLoadedTrafficState st false := by
  unfold loadTrafficState
  rw [h]

theorem migrateLoadedTrafficState_recoveryRequired (missing : Bool) :
    (migrateLoadedTrafficState st missing).recoveryRequired = st.recoveryRequired := by
  unfold migrateLoadedTrafficState
  simp only
  split
  · rfl
  · split
    · rfl
    · rfl

theorem migrateLoadedTrafficState_streams (missing : Bool) :
    (migrateLoadedTrafficState st missing).streams = st.streams := by
  unfold migrateLoadedTrafficState
  simp only
  split
  · rfl
  · split
    · rfl
    · rfl

theorem lookup_migrateLoadedTrafficState {st : TrafficLocalState} {missing : Bool} {id : String}
    {p : TrafficPendingRange} :
    (migrateLoadedTrafficState st missing).pendingReports.lookup id = some p ↔
      st.pendingReports.lookup id = some p ∧ namesInbound p = true := by
  have hsame : (migrateLoadedTrafficState st missing).pendingReports
      = st.pendingReports.filterMap fun _ p => if namesInbound p then some p else none := by
    unfold migrateLoadedTrafficState
    simp only
    split
    · rfl
    · split
      · rfl
      · rfl
  rw [hsame, GoMap.lookup_filterMap]
  cases st.pendingReports.lookup id with
  | none => simp
  | some q =>
    rw [Option.bind_some]
    split
    · rename_i hq
      constructor
      · intro h
        rw [Option.some.injEq] at h
        subst h
        exact ⟨rfl, hq⟩
      · exact fun h => h.1
    · rename_i hq
      constructor
      · intro h
        cases h
      · rintro ⟨h, hp⟩
        rw [Option.some.injEq] at h
        exact absurd (h ▸ hp) hq

theorem readTrafficStateFile_ok {file : TrafficFile} {st : TrafficLocalState}
    (h : readTrafficStateFile file = .ok st) : file = .holds st := by
  cases file with
  | missing => exact absurd h (by simp [readTrafficStateFile])
  | failing => exact absurd h (by simp [readTrafficStateFile])
  | empty => exact absurd h (by simp [readTrafficStateFile])
  | garbage => exact absurd h (by simp [readTrafficStateFile])
  | holds content =>
    simp only [readTrafficStateFile] at h
    cases hv : validateTrafficState content with
    | error e =>
      rw [hv] at h
      cases h
    | ok u =>
      rw [hv] at h
      exact congrArg TrafficFile.holds (Except.ok.inj h)

theorem loadTrafficState_ledger (primary backup : TrafficFile) :
    ((loadTrafficState primary backup).streams = ∅ ∧
      (loadTrafficState primary backup).pendingReports = ∅) ∨
    ∃ content, (primary = .holds content ∨ backup = .holds content) ∧
      (loadTrafficState primary backup).streams = content.streams ∧
      ∀ id p, (loadTrafficState primary backup).pendingReports.lookup id = some p ↔
        content.pendingReports.lookup id = some p ∧ namesInbound p = true := by
  unfold loadTrafficState
  split
  · rename_i st hread
    exact Or.inr ⟨st, Or.inl (readTrafficStateFile_ok hread),
      migrateLoadedTrafficState_streams st false, fun _ _ => lookup_migrateLoadedTrafficState⟩
  all_goals
    split
    · rename_i st hread
      exact Or.inr ⟨st, Or.inr (readTrafficStateFile_ok hread),
        migrateLoadedTrafficState_streams st false, fun _ _ => lookup_migrateLoadedTrafficState⟩
    · exact Or.inl ⟨rfl, rfl⟩

/-! ## What saving writes -/

theorem savedForm_ledger :
    (savedForm st).streams = st.streams ∧ (savedForm st).pendingReports = st.pendingReports := by
  unfold savedForm
  split <;> exact ⟨rfl, rfl⟩

theorem savedForm_recoveryRequired : (savedForm st).recoveryRequired = st.recoveryRequired := by
  unfold savedForm
  split
  · rfl
  · rfl

end OboardAgent.Traffic
