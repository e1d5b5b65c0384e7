import OboardAgent.Deploy.Assets
import OboardAgent.Lib.Attempt
import OboardAgent.Stealth.Layout
import OboardAgent.Stealth.Migrate

/-!
# Configuration tasks

`applyCoreConfigTask` of `internal/agent/agent.go`, `executeDeploymentTask` of
`internal/agent/deployment.go` and the gate they share (`internal/agent/version_state.go`). Both
fetch the assets, install the configuration, record the version and prune the assets, in different
orders; a task that fails leaves what it did before. A crash leaves what a failure at the same place
leaves.

The record of a version holds the SHA-256 of the task's type and payload. It stands here as the two
themselves.
-/

namespace OboardAgent.Deploy

open Files (Path Node Tree)
open Stealth (Bytes Hmac Config physicalName)

/-! ## What a task carries -/

inductive TaskKind where
  | coreConfig
  | deployment
  deriving DecidableEq

/-- What the steps below read of a payload. `rest` is the remaining JSON text; `ssh` says whether a
core configuration task has SSH inbounds. -/
structure Payload where
  config : Option CoreConfig
  assets : List Reference
  ssh : Bool
  forceRefresh : Bool
  configChanged : Bool
  rest : String
  deriving DecidableEq

/-- `appliedVersionState`. -/
structure Applied where
  version : Int
  kind : TaskKind
  payload : Payload
  deriving DecidableEq

/-- The text of a configuration file: that of the payload, with the WARP outbounds and the asset
paths. -/
structure Content where
  text : String
  warp : String
  named : List Named
  deriving DecidableEq

/-- The core configuration on disk, with the task that it came with. -/
structure Installed where
  version : Int
  kind : TaskKind
  payload : Payload
  content : Content
  deriving DecidableEq

/-- A node: where things are, the managed assets, `state.json` if it can be read, the core
configuration and the record of the applied version. -/
structure Machine where
  cfg : Config
  tree : Tree
  recorded : Option (List Reference)
  core : Option Installed
  applied : Option Applied

/-- How `applyCoreConfigUnlocked` ended: with a success, with an error and the previous file, or
with an error and the new file. -/
inductive Ending where
  | done
  | undone
  | left
  deriving DecidableEq

/-- What a task meets. -/
structure Env where
  readable : Bool
  converged : Bool
  authorized : Bool
  response : Option (List Asset)
  writes : Nat
  warp : Option String
  apply : Ending
  ssh : Bool
  later : Bool
  persist : Bool
  save : Bool
  prunes : Nat

structure Task where
  kind : TaskKind
  version : Int
  payload : Payload
  env : Env

/-! ## The gate -/

inductive Verdict where
  | apply
  | replay
  | superseded
  deriving DecidableEq

/-- `checkAppliedVersion`; an error is `none`. A node without a record is at version 0. -/
def checkAppliedVersion (task : Task) (applied : Option Applied) : Option Verdict :=
  if task.version ≤ 0 ∨ task.env.readable = false then none
  else
    match applied with
    | none => some .apply
    | some state =>
      if task.version < state.version then some .superseded
      else if task.version = state.version then
        if state.kind ≠ task.kind ∨ state.payload ≠ task.payload then none else some .replay
      else some .apply

/-! ## The steps -/

section Steps

variable (d : Digest) (hmac : Hmac)

def managedAssetsRoot (cfg : Config) : Path :=
  cfg.stateDir ++ [match cfg.stealthKey with
    | some key => physicalName hmac key "managed-assets"
    | none => "managed-assets"]

namespace Task

variable (task : Task)

def sync : Attempt Machine (List Named × Bool) := fun m =>
  let synced := syncManagedAssets d (managedAssetsRoot hmac m.cfg) task.env.response
      task.env.writes m.recorded
    task.payload.assets task.payload.config m.tree
  ({ m with tree := synced.1 }, synced.2)

def prune : Attempt Machine Unit := fun m =>
  let pruned := cleanupManagedAssets d (managedAssetsRoot hmac m.cfg) task.env.save task.env.prunes m.recorded
    task.payload.assets m.tree
  ({ m with tree := pruned.1, recorded := pruned.2.1 }, if pruned.2.2 then some () else none)

def installed (content : Content) : Installed := ⟨task.version, task.kind, task.payload, content⟩

/-- `applyCoreConfigUnlocked`; a configuration that is there already is not written again. -/
def applyCoreConfigUnlocked (content : Content) (forceRestart : Bool) : Attempt Machine Unit := fun m =>
  if forceRestart = false ∧ m.core.any (·.content = content) then
    (m, if task.env.apply = .done then some () else none)
  else
    match task.env.apply with
    | .done => ({ m with core := some (task.installed content) }, some ())
    | .left => ({ m with core := some (task.installed content) }, none)
    | .undone => (m, none)

def persistAppliedVersion : Attempt Machine Unit := do
  Attempt.ensure task.env.persist
  Attempt.update fun m => { m with applied := some ⟨task.version, task.kind, task.payload⟩ }

def text : String := (task.payload.config.map CoreConfig.text).getD ""

def gated (confirmable : Bool) (confirm fully : Attempt Machine Unit) : Attempt Machine Unit := fun m =>
  match checkAppliedVersion task m.applied with
  | none => (m, none)
  | some .superseded => (m, some ())
  | some .replay => if confirmable then confirm m else fully m
  | some .apply => fully m

/-- `applyCoreConfigTask`, past the gate. -/
def applyCoreConfigFully : Attempt Machine Unit := do
  let (named, _) ← task.sync d hmac
  task.applyCoreConfigUnlocked ⟨task.text, "", named⟩ false
  Attempt.ensure (!task.payload.ssh || task.env.ssh)
  task.persistAppliedVersion
  task.prune d hmac

def confirmCoreConfig : Attempt Machine Unit := do
  Attempt.ensure task.env.authorized
  task.prune d hmac

def applyCoreConfigTask : Attempt Machine Unit :=
  task.gated (!task.payload.ssh && task.env.converged) (task.confirmCoreConfig d hmac)
    (task.applyCoreConfigFully d hmac)

def deployConfig (warp : String) (named : List Named) (changed : Bool) : Attempt Machine Unit :=
  match task.payload.config with
  | none => Attempt.ensure (!(task.payload.configChanged || task.payload.forceRefresh || changed))
  | some config => task.applyCoreConfigUnlocked ⟨config.text, warp, named⟩ task.payload.forceRefresh

/-- `executeDeploymentTask`, past the gate. -/
def deployFully : Attempt Machine Unit := do
  let (named, changed) ← task.sync d hmac
  Attempt.ensure task.env.warp.isSome
  task.deployConfig (task.env.warp.getD "") named changed
  task.prune d hmac
  -- Port forwards, tunnels and SSH inbounds.
  Attempt.ensure task.env.later
  task.persistAppliedVersion

def executeDeploymentTask : Attempt Machine Unit :=
  task.gated (!task.payload.forceRefresh && task.env.converged)
    (Attempt.ensure (task.payload.config.isNone || task.env.authorized)) (task.deployFully d hmac)

def run : Attempt Machine Unit :=
  match task.kind with
  | .coreConfig => task.applyCoreConfigTask d hmac
  | .deployment => task.executeDeploymentTask d hmac

end Task

end Steps

/-! ## What the gate lets through -/

section Gate

variable {task : Task} {applied : Option Applied} {verdict : Verdict}

def Admits (applied : Option Applied) (task : Task) : Prop :=
  ∀ state, applied = some state → state.version < task.version ∨
    (state.version = task.version ∧ state.kind = task.kind ∧ state.payload = task.payload)

theorem admits_of_verdict (h : checkAppliedVersion task applied = some verdict)
    (hverdict : verdict ≠ .superseded) : Admits applied task := by
  intro state hstate
  subst hstate
  unfold checkAppliedVersion at h
  split_ifs at h with hbad
  dsimp only at h
  split_ifs at h with hlower hequal hother
  · exact absurd (Option.some.inj h).symm hverdict
  · rw [not_or, not_not, not_not] at hother
    exact Or.inr ⟨hequal.symm, hother⟩
  · exact Or.inl (by omega)

/-- **What the gate does.** -/
theorem gated_cases {confirmable : Bool} {confirm fully : Attempt Machine Unit} (m : Machine) :
    (task.gated confirmable confirm fully m).1 = m ∨
      (checkAppliedVersion task m.applied = some .replay ∧ confirmable = true ∧
        task.gated confirmable confirm fully m = confirm m) ∨
      (Admits m.applied task ∧ task.gated confirmable confirm fully m = fully m) := by
  unfold Task.gated
  cases hverdict : checkAppliedVersion task m.applied with
  | none => exact Or.inl rfl
  | some verdict =>
    cases verdict with
    | superseded => exact Or.inl rfl
    | apply => exact Or.inr (Or.inr ⟨admits_of_verdict hverdict (by decide), rfl⟩)
    | replay =>
      cases confirmable with
      | true => exact Or.inr (Or.inl ⟨rfl, rfl, rfl⟩)
      | false => exact Or.inr (Or.inr ⟨admits_of_verdict hverdict (by decide), rfl⟩)

end Gate

end OboardAgent.Deploy
