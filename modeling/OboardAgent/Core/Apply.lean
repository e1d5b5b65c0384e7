import OboardAgent.Stealth.Envelope

/-!
# Applying a kernel configuration

`applyCoreConfigUnlocked` (`internal/agent/agent.go`), for what it does to the configuration file.
The new configuration is written before the kernel is asked to take it, so every step that fails
later has to put the previous one back. Three ways to do that, or not to, are in the code:

* `restoreCoreConfigFile`, through `stateWritePath`, which encrypts in the hidden layout;
* `rollbackConfig` and the forward hand-over, through `atomicWriteFile`, which does not;
* none at all, when the authorization, the verification or the shared policy of the running kernel
  fails, and for every failure of a restart that is made to recover from a drift.
-/

namespace OboardAgent.Core

open Stealth (Aead Bytes Mode Nonce plainKey plainNonce)

inductive Step where
  /-- The lock, the staged authorization, the state directory, reading the current file. -/
  | prepare
  | backup
  | candidate
  | validation
  | overwrite
  | compare
  | policyParse
  | policyPush
  | forwardHandoff
  | restart
  | stability
  | forwardCommit
  | verification
  | authorization
  | sharedPolicy
deriving DecidableEq, Repr

structure Disk where
  current : Option Bytes := none
  lastGood : Option Bytes := none

/-- What an apply meets. -/
structure Env where
  aead : Aead
  mode : Mode
  trimSpace : Bytes → Bytes
  forceRestart : Bool := false
  /-- `coreRuntimeMetadataOnlyChange`: only the runtime policy differs. -/
  metadataOnly : Bool := false
  /-- The running kernel first reports another configuration than the one wanted. -/
  stale : Bool := false
  /-- The new configuration removes or changes an address that is listened on. -/
  listenerRemoved : Bool := false
  hotReload : Bool := false
  fails : Option Step := none
  restored : Bool := true
  nonce : Nonce
  undoNonce : Nonce

structure Outcome where
  disk : Disk
  ok : Bool
  strategy : String

namespace Env

variable (env : Env)

/-- `restoreCoreConfigFile`: `stateWritePath`, or the file is removed. -/
def restoreCoreConfigFile (previous : Bytes) (disk : Disk) : Disk :=
  if !env.restored then disk
  else if previous.isEmpty then { disk with current := none }
  else
    match env.mode.write env.aead env.undoNonce previous with
    | none => disk
    | some raw => { disk with current := some raw }

/-- `rollbackConfig`: `atomicWriteFile`, or the file is removed. -/
def rollbackConfig (previous : Bytes) (disk : Disk) : Disk :=
  if !env.restored then disk
  else if previous.isEmpty then { disk with current := none }
  else { disk with current := some previous }

def finishOperationalApply (disk : Disk) (reported strategy : String) : Outcome :=
  if env.fails = some .authorization then { disk, ok := false, strategy := reported }
  else if env.fails = some .sharedPolicy then { disk, ok := false, strategy }
  else { disk, ok := true, strategy }

def recoverRuntimeDrift (disk : Disk) : Outcome :=
  if env.fails = some .restart ∨ env.fails = some .stability ∨ env.fails = some .verification then
    { disk, ok := false, strategy := "runtime_drift_restart_failed" }
  else env.finishOperationalApply disk "pending" "runtime_drift_restart"

def pushRuntimePolicy (previous : Bytes) (disk : Disk) : Outcome :=
  if env.stale then env.recoverRuntimeDrift disk
  else if env.fails = some .policyParse then
    { disk := env.restoreCoreConfigFile previous disk, ok := false, strategy :=
      "runtime_policy_parse_failed" }
  else if env.fails = some .policyPush then
    { disk := env.restoreCoreConfigFile previous disk, ok := false, strategy := "runtime_policy_sync_failed" }
  else if env.fails = some .authorization then
    { disk, ok := false, strategy := "runtime_authorization_sync_failed" }
  else { disk, ok := true, strategy := "runtime_policy_only" }

def reloadOrRestart (previous : Bytes) (disk : Disk) : Outcome :=
  if env.fails = some .forwardHandoff then
    { disk := env.rollbackConfig previous disk, ok := false, strategy := "forward_handoff_failed" }
  else if !env.listenerRemoved && env.hotReload then
    if env.fails = some .forwardCommit then
      { disk := env.rollbackConfig previous disk, ok := false, strategy := "rollback" }
    else if env.stale then env.recoverRuntimeDrift disk
    else env.finishOperationalApply disk "pending" "hot_reload"
  else if env.fails = some .restart ∨ env.fails = some .stability ∨ env.fails = some .forwardCommit then
    { disk := env.rollbackConfig previous disk, ok := false, strategy := "rollback" }
  else if env.fails = some .verification then
    { disk, ok := false, strategy := "restart_verification_failed" }
  else
    env.finishOperationalApply disk (if env.listenerRemoved then "restart_required" else "pending")
      "restart_fallback"

def activate (previous : Bytes) (disk : Disk) : Outcome :=
  if env.fails = some .compare then
    { disk := env.restoreCoreConfigFile previous disk, ok := false, strategy := "metadata_compare_failed" }
  else if env.metadataOnly && !env.forceRestart then env.pushRuntimePolicy previous disk
  else env.reloadOrRestart previous disk

def Unchanged (previous config : Bytes) : Prop :=
  env.forceRestart = false ∧ previous ≠ [] ∧ env.trimSpace previous = env.trimSpace config

instance (previous config : Bytes) : Decidable (env.Unchanged previous config) :=
  inferInstanceAs (Decidable (_ ∧ _))

def saveLastGood (previous : Bytes) (disk : Disk) : Option Disk :=
  if previous.isEmpty then some disk
  else if env.fails = some .backup then none
  else (env.mode.write env.aead env.nonce previous).map fun raw => { disk with lastGood := some raw }

def applyCoreConfigUnlocked (config : Bytes) (disk : Disk) : Outcome :=
  if env.fails = some .prepare then { disk, ok := false, strategy := "pending" }
  else
    -- a file that cannot be read ends the apply as well
    match disk.current.elim (some []) (env.mode.read env.aead) with
    | none => { disk, ok := false, strategy := "pending" }
    | some previous =>
      if env.Unchanged previous config then
        if env.stale then env.recoverRuntimeDrift disk
        else env.finishOperationalApply disk "pending" "unchanged"
      else
        match env.saveLastGood previous disk with
        | none => { disk, ok := false, strategy := "pending" }
        | some disk =>
          if env.fails = some .candidate then { disk, ok := false, strategy := "pending" }
          else if env.fails = some .validation then { disk, ok := false, strategy := "validation_failed" }
          else if env.fails = some .overwrite then { disk, ok := false, strategy := "pending" }
          else
            match env.mode.write env.aead env.nonce config with
            | none => { disk, ok := false, strategy := "pending" }
            | some raw => env.activate previous { disk with current := some raw }

/-! ## What a failed apply leaves behind -/

/-- The file is not touched: it is right already, or the new configuration is too large to be
stored. -/
def KeepsFile (previous config : Bytes) : Prop :=
  env.Unchanged previous config ∨ env.mode.write env.aead env.nonce config = none

/-- The plain rollback gives back what was there: there is nothing to encrypt. -/
def PlainlyUndone (previous : Option Bytes) (config : Bytes) : Prop :=
  if env.restored = true then env.mode = .standard ∨ previous = none else previous = some config

def Recovers : Prop :=
  (env.metadataOnly = true ∧ env.forceRestart = false) ∨ (env.listenerRemoved = false ∧ env.hotReload = true)

/-- The step that fails is one before the file is written, one that is undone, or there is nothing
to undo. -/
def Undone (previous : Option Bytes) (config : Bytes) : Prop :=
  match env.fails with
  | none | some .prepare | some .backup | some .candidate | some .validation | some .overwrite => True
  | some .compare | some .policyParse | some .policyPush => env.restored = true ∨ previous = some config
  | some .forwardHandoff | some .forwardCommit => env.PlainlyUndone previous config
  | some .restart | some .stability =>
    (env.Recovers ∧ previous = some config) ∨ (¬env.Recovers ∧ env.PlainlyUndone previous config)
  | some .verification | some .authorization | some .sharedPolicy => previous = some config

variable {env} {previous : Option Bytes} {config raw : Bytes} {disk before : Disk}

def FailsLate (env : Env) : Prop :=
  env.fails = some .verification ∨ env.fails = some .authorization ∨ env.fails = some .sharedPolicy

def FailsRestart (env : Env) : Prop := env.fails = some .restart ∨ env.fails = some .stability

theorem finish_failed {reported strategy : String} :
    (env.finishOperationalApply disk reported strategy).ok = false →
    (env.finishOperationalApply disk reported strategy).disk = disk ∧ env.FailsLate := by
  unfold finishOperationalApply
  split_ifs with hauthorization hpolicy
  · exact fun _ => ⟨rfl, Or.inr (Or.inl hauthorization)⟩
  · exact fun _ => ⟨rfl, Or.inr (Or.inr hpolicy)⟩
  · exact nofun

theorem recover_failed : (env.recoverRuntimeDrift disk).ok = false →
    (env.recoverRuntimeDrift disk).disk = disk ∧ (env.FailsLate ∨ env.FailsRestart) := by
  unfold recoverRuntimeDrift
  split_ifs with hfails
  · intro _
    refine ⟨rfl, ?_⟩
    rcases hfails with hfails | hfails | hfails
    · exact Or.inr (Or.inl hfails)
    · exact Or.inr (Or.inr hfails)
    · exact Or.inl (Or.inl hfails)
  · exact fun h => (finish_failed h).imp_right Or.inl

inductive Ended (env : Env) (previous : Bytes) (disk : Disk) : Disk → Prop
  | restored (h : env.fails = some .compare ∨ env.fails = some .policyParse ∨ env.fails = some .policyPush) :
      Ended env previous disk (env.restoreCoreConfigFile previous disk)
  | rolledBack (h : env.fails = some .forwardHandoff ∨ env.fails = some .forwardCommit ∨
      (env.FailsRestart ∧ ¬env.Recovers)) : Ended env previous disk (env.rollbackConfig previous disk)
  | kept (h : env.FailsLate ∨ (env.FailsRestart ∧ env.Recovers)) : Ended env previous disk disk

variable {content : Bytes}

theorem ended_of_recover (hrecovers : env.Recovers) (h : (env.recoverRuntimeDrift disk).ok = false) :
    Ended env content disk (env.recoverRuntimeDrift disk).disk := by
  obtain ⟨hdisk, hfails⟩ := recover_failed h
  rw [hdisk]
  exact .kept (hfails.imp_right fun hrestart => ⟨hrestart, hrecovers⟩)

theorem ended_of_finish {reported strategy : String}
    (h : (env.finishOperationalApply disk reported strategy).ok = false) :
    Ended env content disk (env.finishOperationalApply disk reported strategy).disk := by
  obtain ⟨hdisk, hfails⟩ := finish_failed h
  rw [hdisk]
  exact .kept (Or.inl hfails)

theorem ended_of_pushRuntimePolicy (hrecovers : env.Recovers) :
    (env.pushRuntimePolicy content disk).ok = false →
    Ended env content disk (env.pushRuntimePolicy content disk).disk := by
  unfold pushRuntimePolicy
  split_ifs with hstale hparse hpush hauthorization
  · exact ended_of_recover hrecovers
  · exact fun _ => .restored (Or.inr (Or.inl hparse))
  · exact fun _ => .restored (Or.inr (Or.inr hpush))
  · exact fun _ => .kept (Or.inl (Or.inr (Or.inl hauthorization)))
  · exact nofun

theorem ended_of_reloadOrRestart (hmeta : ¬(env.metadataOnly = true ∧ env.forceRestart = false)) :
    (env.reloadOrRestart content disk).ok = false →
      Ended env content disk (env.reloadOrRestart content disk).disk := by
  have hiff : env.Recovers ↔ (!env.listenerRemoved && env.hotReload) = true := by simp [Recovers, hmeta]
  unfold reloadOrRestart
  split_ifs with hhandoff hhot hcommit hstale hrestart hverification
  · exact fun _ => .rolledBack (Or.inl hhandoff)
  · exact fun _ => .rolledBack (Or.inr (Or.inl hcommit))
  · exact ended_of_recover (hiff.mpr hhot)
  · exact ended_of_finish
  · intro _
    refine .rolledBack (Or.inr ?_)
    rcases hrestart with hfails | hfails | hfails
    · exact Or.inr ⟨Or.inl hfails, fun h => hhot (hiff.mp h)⟩
    · exact Or.inr ⟨Or.inr hfails, fun h => hhot (hiff.mp h)⟩
    · exact Or.inl hfails
  · exact fun _ => .kept (Or.inl (Or.inl hverification))
  · exact ended_of_finish
  · exact ended_of_finish

theorem ended_of_activate : (env.activate content disk).ok = false →
    Ended env content disk (env.activate content disk).disk := by
  unfold activate
  split_ifs with hcompare hmeta
  · exact fun _ => .restored (Or.inl hcompare)
  · exact ended_of_pushRuntimePolicy (Or.inl (by simpa using hmeta))
  · exact ended_of_reloadOrRestart (by simpa using hmeta)

section Written

variable (hbefore : env.mode.Holds env.aead before.current previous)
  (hwrite : env.mode.write env.aead env.nonce config = some raw)
include hbefore hwrite

theorem holds_written : env.mode.Holds env.aead (some raw) previous ↔ previous = some config := by
  constructor
  · intro h
    cases previous with
    | none => cases h
    | some content =>
      obtain ⟨raw', hraw', hread, -⟩ := h
      cases hraw'
      have hlimit := Mode.limit_of_read hread
      rw [Mode.read_of_write hwrite, if_neg hlimit] at hread
      rw [(Stealth.openRuntimeState_eq_some.mp hread).1]
  · rintro rfl
    obtain ⟨raw', hwrite', hholds⟩ := hbefore.rewrite env.nonce
    rw [hwrite] at hwrite'
    cases hwrite'
    exact hholds

variable (hne : previous ≠ some []) (hdisk : disk.current = some raw)
include hne hdisk

theorem holds_restored :
    env.mode.Holds env.aead (env.restoreCoreConfigFile (previous.getD []) disk).current previous ↔
      (env.restored = true ∨ previous = some config) := by
  unfold restoreCoreConfigFile
  cases hrestored : env.restored with
  | false => simpa [hdisk] using holds_written hbefore hwrite
  | true =>
    cases previous with
    | none => simp [Mode.Holds]
    | some content =>
      obtain ⟨raw', hwrite', hholds⟩ := hbefore.rewrite env.undoNonce
      have hfull : content.isEmpty = false := by simpa using hne
      simpa [hfull, hwrite'] using hholds

theorem holds_rolledBack :
    env.mode.Holds env.aead (env.rollbackConfig (previous.getD []) disk).current previous ↔
      env.PlainlyUndone previous config := by
  unfold rollbackConfig PlainlyUndone
  cases hrestored : env.restored with
  | false => simpa [hdisk] using holds_written hbefore hwrite
  | true =>
    cases previous with
    | none => simp [Mode.Holds]
    | some content =>
      have hfull : content.isEmpty = false := by simpa using hne
      have hcurrent : (if !true then disk
          else if ((some content).getD []).isEmpty then { disk with current := none }
          else { disk with current := some ((some content).getD []) }).current = some content := by
        simp [hfull]
      rw [hcurrent]
      cases hmode : env.mode with
      | standard =>
        rw [hmode] at hbefore
        obtain ⟨raw', -, hread, hprotects⟩ := hbefore
        simp only [if_true, true_or, iff_true]
        obtain rfl : raw' = content := (Mode.opened_of_read hread hprotects).2
        exact ⟨raw', rfl, hread, trivial⟩
      | stealth key => simpa using Mode.not_holds_plain

theorem Ended.holds_iff {after : Disk} (h : Ended env (previous.getD []) disk after) :
    env.mode.Holds env.aead after.current previous ↔ env.Undone previous config := by
  cases h with
  | restored hfails =>
    rw [holds_restored hbefore hwrite hne hdisk]
    rcases hfails with hfails | hfails | hfails <;> simp only [Undone, hfails]
  | rolledBack hfails =>
    rw [holds_rolledBack hbefore hwrite hne hdisk]
    rcases hfails with hfails | hfails | ⟨hfails | hfails, hnot⟩ <;> simp only [Undone, hfails]
    · simp [hnot]
    · simp [hnot]
  | kept hfails =>
    rw [hdisk, holds_written hbefore hwrite]
    rcases hfails with (hfails | hfails | hfails) | ⟨hfails | hfails, hrecovers⟩ <;>
      simp only [Undone, hfails]
    · simp [hrecovers]
    · simp [hrecovers]

end Written

theorem current_of_saveLastGood {disk' : Disk} (h : env.saveLastGood content disk = some disk') :
    disk'.current = disk.current := by
  unfold saveLastGood at h
  split at h
  · cases h
    rfl
  split at h
  · cases h
  · obtain ⟨raw, -, rfl⟩ := Option.map_eq_some_iff.mp h
    rfl

theorem read_of_holds (h : env.mode.Holds env.aead disk.current previous) :
    disk.current.elim (some []) (env.mode.read env.aead) = some (previous.getD []) := by
  cases previous with
  | none =>
    have hnone : disk.current = none := h
    rw [hnone]
    rfl
  | some content =>
    obtain ⟨raw, hraw, hread, -⟩ := h
    rw [hraw]
    exact hread

theorem fails_of_saveLastGood (hbefore : env.mode.Holds env.aead disk.current previous)
    (h : env.saveLastGood (previous.getD []) disk = none) : env.fails = some .backup := by
  unfold saveLastGood at h
  split at h
  · cases h
  rename_i hfull
  split at h
  · assumption
  · cases previous with
    | none => exact absurd rfl hfull
    | some content =>
      obtain ⟨raw, hwrite, -⟩ := hbefore.rewrite env.nonce
      rw [Option.getD_some, hwrite] at h
      cases h

theorem apply_failed (hbefore : env.mode.Holds env.aead disk.current previous)
    (h : (env.applyCoreConfigUnlocked config disk).ok = false) :
    ((env.applyCoreConfigUnlocked config disk).disk.current = disk.current ∧
      (env.KeepsFile (previous.getD []) config ∨ env.Undone previous config)) ∨
    ∃ raw disk', env.mode.write env.aead env.nonce config = some raw ∧ disk'.current = some raw ∧
      ¬env.KeepsFile (previous.getD []) config ∧
      Ended env (previous.getD []) disk' (env.applyCoreConfigUnlocked config disk).disk := by
  revert h
  unfold applyCoreConfigUnlocked
  simp only [read_of_holds hbefore]
  split
  · next hprepare => exact fun _ => Or.inl ⟨rfl, Or.inr (by simp only [Undone, hprepare])⟩
  split
  · next hunchanged =>
    split_ifs
    · exact fun h => Or.inl ⟨by rw [(recover_failed h).1], Or.inl (Or.inl hunchanged)⟩
    · exact fun h => Or.inl ⟨by rw [(finish_failed h).1], Or.inl (Or.inl hunchanged)⟩
  rename_i hunchanged
  cases hsave : env.saveLastGood (previous.getD []) disk with
  | none =>
    have hbackup := fails_of_saveLastGood hbefore hsave
    exact fun _ => Or.inl ⟨rfl, Or.inr (by simp only [Undone, hbackup])⟩
  | some disk' =>
    have hcurrent := current_of_saveLastGood hsave
    cases hwrite : env.mode.write env.aead env.nonce config with
    | none =>
      refine fun _ => Or.inl ⟨?_, Or.inl (Or.inr hwrite)⟩
      dsimp only
      split_ifs <;> exact hcurrent
    | some raw =>
      dsimp only
      split_ifs with hcandidate hvalidation hoverwrite
      · exact fun _ => Or.inl ⟨hcurrent, Or.inr (by simp only [Undone, hcandidate])⟩
      · exact fun _ => Or.inl ⟨hcurrent, Or.inr (by simp only [Undone, hvalidation])⟩
      · exact fun _ => Or.inl ⟨hcurrent, Or.inr (by simp only [Undone, hoverwrite])⟩
      intro h
      refine Or.inr ⟨raw, { disk' with current := some raw }, rfl, rfl, ?_, ended_of_activate h⟩
      rintro (hkeeps | hnone)
      · exact hunchanged hkeeps
      · cases hwrite.symm.trans hnone

/-- **What a failed apply leaves behind.** The previous configuration, stored as the layout asks
for, exactly if the file was not written or the step that failed is undone in that form. -/
theorem previous_config_left_iff (env : Env) (config : Bytes) (previous : Option Bytes) (disk : Disk)
    (hbefore : env.mode.Holds env.aead disk.current previous) (hne : previous ≠ some [])
    (hfail : (env.applyCoreConfigUnlocked config disk).ok = false) :
    env.mode.Holds env.aead (env.applyCoreConfigUnlocked config disk).disk.current previous ↔
      env.KeepsFile (previous.getD []) config ∨ env.Undone previous config := by
  rcases apply_failed hbefore hfail with ⟨hcurrent, hcondition⟩ | ⟨raw, disk', hwrite, hraw, hkeeps, hended⟩
  · rw [hcurrent]
    exact iff_of_true hbefore hcondition
  · rw [hended.holds_iff hbefore hwrite hne hraw]
    exact (or_iff_right hkeeps).symm

def failingAt (mode : Mode) (step : Step) : Env :=
  { aead := Stealth.tagOnly, mode, trimSpace := id, fails := some step, nonce :=
    plainNonce, undoNonce := plainNonce }

def sealedConfig : Bytes := (Stealth.encrypt Stealth.tagOnly plainKey plainNonce [1, 2, 3]).getD []

/-- The metadata cannot be compared: the previous configuration is back, encrypted. -/
theorem restored_after_failed_compare :
    let env := failingAt (.stealth plainKey) .compare
    (env.applyCoreConfigUnlocked [4, 5] { current := some sealedConfig }).ok = false ∧
      env.mode.Holds env.aead (env.applyCoreConfigUnlocked [4, 5]
        { current := some sealedConfig }).disk.current
        (some [1, 2, 3]) := by
  intro env
  have hfail : (env.applyCoreConfigUnlocked [4, 5] { current := some sealedConfig }).ok
      = false := by decide +kernel
  refine ⟨hfail, (previous_config_left_iff env [4, 5] (some [1, 2, 3]) _ ?_ (by decide) hfail).mpr ?_⟩
  · exact ⟨sealedConfig, rfl, by decide +kernel, by decide +kernel⟩
  · exact Or.inr (Or.inl rfl)

/-- In the hidden layout a failing restart leaves the previous configuration readable on disk; and
in either layout a failing verification leaves the new one. -/
theorem restart_leaves_plain_and_verification_leaves_new :
    let restart := (failingAt (.stealth plainKey) .restart).applyCoreConfigUnlocked [4, 5]
        { current := some sealedConfig }
    let verification := (failingAt .standard .verification).applyCoreConfigUnlocked [4, 5]
        { current := some [1, 2, 3] }
    Stealth.isEncrypted sealedConfig = true ∧
      (Mode.stealth plainKey).read Stealth.tagOnly sealedConfig = some [1, 2, 3] ∧
      (restart.ok = false ∧ restart.disk.current = some [1, 2, 3] ∧ Stealth.isEncrypted [1, 2, 3] = false) ∧
      (verification.ok = false ∧ verification.disk.current = some [4, 5]) := by
  decide +kernel

end Env

end OboardAgent.Core
