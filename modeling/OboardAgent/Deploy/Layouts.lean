import OboardAgent.Deploy.Versions
import OboardAgent.Stealth.Cleanup

/-!
# Managed assets across tasks and layouts

A node takes up configuration tasks and switches its layout. The paths of the managed assets are
written into the core configuration when it is installed, and stay there when the layout changes. Of
the file system, a node's tree holds the managed assets; the switch copies them with the rest of the
state directory.
-/

namespace OboardAgent.Deploy

open Files (Path Node Tree)
open Stealth (Aead Hmac Bytes Nonce Config Draw Manager PreviousLayout Settings)

/-! ## Events -/

/-- What happens to a node. A switch of the layout that is interrupted has copied some entries. -/
inductive Event where
  | task (task : Task)
  | enable (draw : Draw) (self : Path) (interrupted : Option Nat)
  | start (stops : String → Bool) (nonce : Nonce) (self : Path)
  | disable (self : Path) (interrupted : Option Nat)

def reached {ι : Type} (interrupted : Option Nat) (l : List ι) : List ι :=
  match interrupted with
  | none => l
  | some count => l.take count

section Events

variable (d : Digest) (aead : Aead) (hmac : Hmac) (manager : Manager) (encode : Config → Bytes)

/-- `enableStealthLocked`, as far as managed assets go. The new state directory has a name that is
not taken. -/
def enable (draw : Draw) (self : Path) (interrupted : Option Nat) (m : Machine) : Machine :=
  let stateDir := (m.cfg.hiddenLayout self draw.identity).stateDir
  if m.cfg.stealthOn ∨ m.tree.entries.any (fun e => stateDir.isPrefixOf e.1) then m
  else
    match Tree.copyAll (Stealth.encryptEntry aead hmac draw.key draw.nonce)
        (reached interrupted (Stealth.below m.cfg.stateDir m.tree).entries) ∅ with
    | none => m
    | some copied =>
      { m with
        tree := Stealth.graft stateDir copied m.tree
        cfg := if interrupted.isNone then m.cfg.hidden self draw.identity draw.key else m.cfg }

/-- `disableStealthLocked`, as far as managed assets go. -/
def disable (self : Path) (interrupted : Option Nat) (m : Machine) : Machine :=
  match m.cfg.stealthKey, m.cfg.stealth with
  | some key, some settings =>
    let stateDir := (Config.originPaths self settings).2.1
    let hidden := Stealth.below m.cfg.stateDir m.tree
    match Tree.copyAll (Stealth.restoreEntry aead hmac key hidden)
      (reached interrupted (Stealth.restoreJobs hidden))
        (Stealth.below stateDir m.tree) with
    | none => m
    | some restored =>
      { m with
        tree := Stealth.graft stateDir restored m.tree
        cfg := if interrupted.isNone then m.cfg.standard self settings else m.cfg }
  | _, _ => m

/-- The clean-up when an agent starts. -/
def start (stops : String → Bool) (nonce : Nonce) (self : Path) (m : Machine) : Machine :=
  let cleaned := Stealth.reconcileStealthSwitchCleanup aead manager encode stops nonce self m.cfg m.tree
  { m with tree := cleaned.1, cfg := cleaned.2 }

def happen (m : Machine) : Event → Machine
  | .task task => step d hmac m task
  | .enable draw self interrupted => enable aead hmac draw self interrupted m
  | .start stops nonce self => start aead manager encode stops nonce self m
  | .disable self interrupted => disable aead hmac self interrupted m

end Events

/-! ## What the configuration on disk names -/

/-- The asset paths in the core configuration on disk. -/
def Machine.named (m : Machine) : List Named := (m.core.map fun c => c.content.named).getD []

section Conditions

variable (d : Digest) (hmac : Hmac) (manager : Manager)

def AllHeld (m : Machine) : Prop := ∀ e ∈ m.named, Held d m.tree e

def PrunesOnly (m : Machine) (task : Task) : Prop :=
  match task.kind with
  | .coreConfig => checkAppliedVersion task m.applied = some .replay ∧ task.payload.ssh = false ∧
      task.env.converged = true
  | .deployment => task.payload.config = none

structure Clear (agent : Path) (cfg : Config) (settings : Settings) (previous : PreviousLayout)
    (q : Path) : Prop where
  recorded : ∀ p, some p ∈ previous.recorded → p ∉ cfg.currentPaths agent settings → p ≠ [] → ¬p <+: q
  configDir : ¬previous.configDir <+: q
  unit : ∀ service, q ≠ Stealth.serviceUnitPath manager service
  obag : q ≠ previous.installDir ++ ["obag"]
  installDir : q ≠ previous.installDir
  config : ¬q <+: cfg.configPath

/-- A step that the assets survive: a task whose rule sets are delivered under the names they are
used by, and that names what is there if it only prunes; a clean-up clear of the assets; a restored
layout that has none of them. -/
def Safe (m : Machine) : Event → Prop
  | .task task =>
    Delivered d (managedAssetsRoot hmac m.cfg) task.env.response m.tree task.payload.assets
      task.payload.config ∧
      (PrunesOnly m task → ∀ e ∈ m.named, Spared d (managedAssetsRoot hmac m.cfg) task.payload.assets e)
  | .enable _ _ _ => True
  | .start _ _ self =>
    ∀ settings previous, m.cfg.stealth = some settings → settings.previous = some previous →
      ∀ e ∈ m.named, ∀ name, Clear manager self m.cfg settings previous
        (managedAssetDir d e.root e.reference ++ [name])
  | .disable self _ =>
    ∀ settings, m.cfg.stealth = some settings →
      ∀ e ∈ m.named, ∀ name, ¬(Config.originPaths self settings).2.1 <+: managedAssetDir d e.root
        e.reference ++ [name]

end Conditions

/-! ## Tasks -/

section Tasks

open Attempt

variable {d : Digest} {hmac : Hmac} {task : Task} {m : Machine}

structure Prunable (d : Digest) (hmac : Hmac) (task : Task) (m : Machine) : Prop where
  held : AllHeld d m
  spared : ∀ e ∈ m.named, Spared d (managedAssetsRoot hmac m.cfg) task.payload.assets e

structure Resolved (d : Digest) (hmac : Hmac) (task : Task) (named : List Named) (m : Machine) : Prop where
  held : ∀ e ∈ named, Held d m.tree e
  spared : ∀ e ∈ named, Spared d (managedAssetsRoot hmac m.cfg) task.payload.assets e

theorem prune_held : Triple (Prunable d hmac task) (task.prune d hmac) (fun _ => AllHeld d) (AllHeld d) :=
  Triple.state fun _ hm e he => held_cleanup (hm.held e he) (hm.spared e he)

theorem apply_held {content : Content} {forceRestart : Bool} :
    Triple (fun m => Resolved d hmac task content.named m ∧ AllHeld d m)
      (task.applyCoreConfigUnlocked content forceRestart)
      (fun _ => Prunable d hmac task) (AllHeld d) := by
  rintro m ⟨hresolved, hheld⟩
  have hinstalled : Prunable d hmac task { m with core := some (task.installed content) } :=
    ⟨hresolved.held, hresolved.spared⟩
  have hend : AllHeld d (task.applyCoreConfigUnlocked content forceRestart m).1 ∧
      ((task.applyCoreConfigUnlocked content forceRestart m).2.isSome →
        Prunable d hmac task (task.applyCoreConfigUnlocked content forceRestart m).1) := by
    unfold Task.applyCoreConfigUnlocked
    by_cases hsame : forceRestart = false ∧ m.core.any (·.content = content)
    · -- The file on disk names what the task names.
      rw [if_pos hsame]
      obtain ⟨c, hc, hcontent⟩ := (Option.any_eq_true _ _).mp hsame.2
      have hnamed : m.named = content.named := by
        unfold Machine.named
        rw [hc]
        exact congrArg Content.named (of_decide_eq_true hcontent)
      exact ⟨hheld, fun _ => ⟨hheld, hnamed ▸ hresolved.spared⟩⟩
    · rw [if_neg hsame]
      cases task.env.apply with
      | done => exact ⟨hinstalled.held, fun _ => hinstalled⟩
      | left => exact ⟨hinstalled.held, nofun⟩
      | undone => exact ⟨hheld, nofun⟩
  constructor
  · intro m' value hrun
    rw [hrun] at hend
    exact hend.2 rfl
  · intro m' hrun
    rw [hrun] at hend
    exact hend.1

theorem persist_held :
    Triple (Prunable d hmac task) task.persistAppliedVersion (fun _ => Prunable d hmac task) (AllHeld d) := by
  refine Triple.ensure_bind (fun _ _ hm => hm.held) fun _ => ?_
  exact Triple.update fun _ hm => ⟨hm.held, hm.spared⟩

variable (hheld : AllHeld d m)
  (hdelivered : Delivered d (managedAssetsRoot hmac m.cfg) task.env.response m.tree
    task.payload.assets task.payload.config)
include hheld hdelivered

theorem sync_held :
    Triple (· = m) (task.sync d hmac)
      (fun synced m' => Resolved d hmac task synced.1 m' ∧ AllHeld d m' ∧ m'.core = m.core ∧
        m'.cfg = m.cfg) (AllHeld d) := by
  intro start hstart
  subst hstart
  have hkept : AllHeld d (task.sync d hmac start).1 := fun e he => held_sync (hheld e he)
  constructor
  · intro m' synced hrun
    have hvalue : (task.sync d hmac start).2 = some synced := congrArg Prod.snd hrun
    obtain rfl : (task.sync d hmac start).1 = m' := congrArg Prod.fst hrun
    have hnamed : ∀ e ∈ synced.1, _ := fun e he => named_sync hvalue hdelivered he
    exact ⟨⟨fun e he => (hnamed e he).1, fun e he => Or.inl (hnamed e he).2⟩, hkept, rfl, rfl⟩
  · intro m' hrun
    rwa [hrun] at hkept

theorem coreConfig_held :
    Triple (· = m) (task.applyCoreConfigFully d hmac) (fun _ => AllHeld d) (AllHeld d) := by
  refine Triple.bind (sync_held hheld hdelivered) fun synced => ?_
  refine Triple.bind (apply_held.pre fun _ hm => ⟨hm.1, hm.2.1⟩) fun _ => ?_
  refine Triple.ensure_bind (fun _ _ hm => hm.held) fun _ => ?_
  exact Triple.bind persist_held fun _ => prune_held

theorem deployment_held (hspared : task.payload.config = none → ∀ e ∈ m.named,
      Spared d (managedAssetsRoot hmac m.cfg) task.payload.assets e) :
    Triple (· = m) (task.deployFully d hmac) (fun _ => AllHeld d) (AllHeld d) := by
  refine Triple.bind (sync_held hheld hdelivered) fun synced => ?_
  refine Triple.ensure_bind (fun _ _ hm => hm.2.1) fun _ => ?_
  have hconfig : Triple (fun m' => Resolved d hmac task synced.1 m' ∧ AllHeld d m' ∧
      m'.core = m.core ∧ m'.cfg = m.cfg)
      (task.deployConfig (task.env.warp.getD "") synced.1 synced.2) (fun _ => Prunable d hmac task)
        (AllHeld d) := by
    unfold Task.deployConfig
    cases hpayload : task.payload.config with
    | none =>
      -- Nothing is installed, so what is on disk is what was there before.
      refine (Triple.state fun m' hm' => ?_).post (fun _ _ hm => hm) fun _ hm => hm.held
      obtain ⟨-, hheld', hcore, hcfg⟩ := hm'
      refine ⟨hheld', ?_⟩
      change ∀ e ∈ m'.named, Spared d (managedAssetsRoot hmac m'.cfg) task.payload.assets e
      unfold Machine.named
      rw [hcore, hcfg]
      exact hspared hpayload
    | some config => exact apply_held.pre fun _ hm => ⟨hm.1, hm.2.1⟩
  refine Triple.bind hconfig fun _ => ?_
  refine Triple.bind prune_held fun _ => ?_
  refine Triple.ensure_bind (fun _ _ hm => hm) fun _ => ?_
  refine Triple.ensure_bind (fun _ _ hm => hm) fun _ => ?_
  exact Triple.update fun _ hm => hm

theorem task_held (hspared : PrunesOnly m task → ∀ e ∈ m.named,
      Spared d (managedAssetsRoot hmac m.cfg) task.payload.assets e) :
    AllHeld d (step d hmac m task) := by
  unfold step Task.run
  unfold PrunesOnly at hspared
  cases hkind : task.kind with
  | coreConfig =>
    rw [hkind] at hspared
    change AllHeld d (task.applyCoreConfigTask d hmac m).1
    unfold Task.applyCoreConfigTask
    rcases gated_cases m with hsame | ⟨hreplay, hconfirmable, hrun⟩ | ⟨-, hrun⟩
    · rw [hsame]
      exact hheld
    · rw [hrun]
      rw [Bool.and_eq_true, Bool.not_eq_true'] at hconfirmable
      refine Triple.ends (P := (· = m))
        (Triple.ensure_bind (fun _ m' hm' => hm'.symm ▸ hheld) fun _ => ?_) rfl
      exact prune_held.pre fun m' hm' => hm'.symm ▸ ⟨hheld, hspared ⟨hreplay, hconfirmable⟩⟩
    · rw [hrun]
      exact (coreConfig_held hheld hdelivered).ends rfl
  | deployment =>
    rw [hkind] at hspared
    change AllHeld d (task.executeDeploymentTask d hmac m).1
    unfold Task.executeDeploymentTask
    rcases gated_cases m with hsame | ⟨-, -, hrun⟩ | ⟨-, hrun⟩
    · rw [hsame]
      exact hheld
    · rw [hrun]
      exact hheld
    · rw [hrun]
      exact (deployment_held hheld hdelivered hspared).ends rfl

end Tasks

/-! ## Switches -/

section Switches

variable {d : Digest} {aead : Aead} {hmac : Hmac} {manager : Manager} {encode : Config → Bytes} {m : Machine}

theorem lookup_graft {dir q : Path} {sub t : Tree} (h : ¬dir <+: q) :
    (Stealth.graft dir sub t).lookup q = t.lookup q := by
  have hfold : ∀ (l : List (Σ _ : Path, Node)) (t : Tree),
      (l.foldl (fun t e => t.insert (dir ++ e.1) e.2) t).lookup q = t.lookup q := by
    intro l
    induction l with
    | nil => exact fun _ => rfl
    | cons e rest ih =>
      intro t
      rw [List.foldl_cons, ih, GoMap.lookup_insert_eq, if_neg]
      rintro rfl
      exact h (List.prefix_append dir e.1)
  exact hfold sub.entries t

theorem enable_held {draw : Draw} {self : Path} {interrupted : Option Nat} (hheld : AllHeld d m) :
    AllHeld d (enable aead hmac draw self interrupted m) := by
  unfold enable
  dsimp only
  by_cases hrefused : m.cfg.stealthOn ∨ m.tree.entries.any fun e =>
      (m.cfg.hiddenLayout self draw.identity).stateDir.isPrefixOf e.1
  · rw [if_pos hrefused]
    exact hheld
  · rw [if_neg hrefused]
    split
    · exact hheld
    · intro e he
      apply (hheld e he).mono
      intro name n hn
      -- The new state directory has nothing in it, so the file that is there is not below it.
      refine (lookup_graft fun hbelow => hrefused (Or.inr ?_)).trans hn
      exact List.any_eq_true.mpr ⟨⟨_, n⟩, AList.mem_lookup_iff.mp hn, List.isPrefixOf_iff_prefix.mpr hbelow⟩

theorem disable_held {self : Path} {interrupted : Option Nat} (hheld : AllHeld d m)
    (hclear : ∀ settings, m.cfg.stealth = some settings →
      ∀ e ∈ m.named, ∀ name, ¬(Config.originPaths self settings).2.1 <+: managedAssetDir d e.root
        e.reference ++ [name]) : AllHeld d (disable aead hmac self interrupted m) := by
  unfold disable
  split
  · next key settings _ hsettings =>
    dsimp only
    split
    · exact hheld
    · intro e he
      apply (hheld e he).mono
      intro name n hn
      exact (lookup_graft (hclear settings hsettings e he name)).trans hn
  · exact hheld

theorem Clear.lookup_cleanupFiles {self q : Path} {cfg : Config} {settings : Settings}
    {previous : PreviousLayout} {t : Tree} {n : Node}
    (h : Clear manager self cfg settings previous q) (hn : t.lookup q = some n) :
    (Stealth.cleanupFiles manager self cfg settings previous t).lookup q = some n := by
  unfold Stealth.cleanupFiles
  dsimp only
  rw [Stealth.lookup_cleanupInstallDir h.obag h.installDir]
  have hrecorded : (previous.recorded.foldl (Stealth.removeIfNotIn (cfg.currentPaths self settings))
      (Stealth.cleanupUnits manager cfg previous t)).lookup q = some n := by
    rw [Stealth.lookup_foldl_removeIfNotIn, Stealth.lookup_cleanupUnits h.unit]
    exact ⟨hn, h.recorded⟩
  split_ifs
  · exact hrecorded
  · rw [Stealth.lookup_removeIfNotIn]
    refine ⟨hrecorded, ?_⟩
    rintro p ⟨⟩ - -
    exact h.configDir

theorem start_held {stops : String → Bool} {nonce : Nonce} {self : Path} (hheld : AllHeld d m)
    (hclear : ∀ settings previous, m.cfg.stealth = some settings → settings.previous = some previous →
      ∀ e ∈ m.named, ∀ name, Clear manager self m.cfg settings previous
        (managedAssetDir d e.root e.reference ++ [name])) :
    AllHeld d (start aead manager encode stops nonce self m) := by
  intro e he
  apply (hheld e he).mono
  intro name n hn
  change (Stealth.reconcileStealthSwitchCleanup aead manager encode stops nonce self m.cfg
    m.tree).1.lookup _ = some n
  unfold Stealth.reconcileStealthSwitchCleanup
  cases hsettings : m.cfg.stealth with
  | none => exact hn
  | some settings =>
    dsimp only
    cases hprevious : settings.previous with
    | none => exact hn
    | some previous =>
      dsimp only
      have hq := hclear settings previous hsettings hprevious e he name
      have hfiles := hq.lookup_cleanupFiles hn
      split_ifs
      · exact hn
      · exact hn
      · split
        · next saved hsaved =>
          obtain ⟨stored, -, rfl⟩ := Option.map_eq_some_iff.mp hsaved
          have hbelow : ¬managedAssetDir d e.root
              e.reference ++ [name] <+: (m.cfg.settled settings).configPath.dropLast :=
            fun h => hq.config (h.trans (List.dropLast_prefix _))
          rw [GoMap.lookup_insert_eq, if_neg, Tree.lookup_mkdirAll hbelow]
          · exact hfiles
          · intro hsame
            exact hq.config (hsame ▸ List.prefix_refl _)
        · exact hfiles

end Switches

/-! ## Runs -/

section Runs

variable {d : Digest} {aead : Aead} {hmac : Hmac} {manager : Manager} {encode : Config → Bytes}

theorem happen_held (m : Machine) (e : Event) (hheld : AllHeld d m) (hsafe : Safe d hmac manager m e) :
    AllHeld d (happen d aead hmac manager encode m e) := by
  cases e with
  | task task => exact task_held hheld hsafe.1 hsafe.2
  | enable draw self interrupted => exact enable_held hheld
  | start stops nonce self => exact start_held hheld hsafe
  | disable self interrupted => exact disable_held hheld hsafe

/-- **The managed files that the configuration on disk names are there, with the content of their
revision**, after every run of safe steps from a node without a configuration. -/
theorem named_assets_present {m : Machine} {es : List Event} (hm : m.core = none)
    (h : Run.Along (happen d aead hmac manager encode) (Safe d hmac manager) m es) :
    ∀ e ∈ (Run.exec (happen d aead hmac manager encode) m es).named,
      Present d (Run.exec (happen d aead hmac manager encode) m es).tree e := by
  have hstart : AllHeld d m := by
    intro e he
    unfold Machine.named at he
    rw [hm] at he
    cases he
  intro e he
  exact (Run.invariant happen_held hstart h e he).present

end Runs

/-! ## A certificate and a switch -/

def sampleCertificate : Reference := ⟨.certificate, 1, "A\x00B", by decide⟩

def certificateDeployment : Task where
  kind := .deployment
  version := 1
  payload := ⟨some ⟨"one", some [["certificate", "1", "fullchain.pem"], ["certificate", "1", "privkey.pem"]]⟩,
    [sampleCertificate], false, false, true, ""⟩
  env := { smoothEnv with
    response :=
      some [⟨sampleCertificate, [⟨"fullchain.pem", 384, some [65]⟩,
      ⟨"privkey.pem", 384, some [66]⟩]⟩] }

def enabling : Event := .enable Stealth.sampleDraw ["opt", "oboard", "oboard-agent"] none

def restarting : Event := .start (fun _ => true) Stealth.plainNonce ["opt", "bbbbbbbbbb", "aaaaaaaaaa"]

def sampleRun (es : List Event) : Machine :=
  Run.exec (happen plainDigest Stealth.tagOnly Stealth.indexHmac .systemd fun _ => [123, 125]) emptyNode es

theorem named_assets_present_after_switch :
    (sampleRun [.task certificateDeployment, enabling]).named.length = 2 ∧
      ∀ e ∈ (sampleRun [.task certificateDeployment, enabling]).named,
        Present plainDigest (sampleRun [.task certificateDeployment, enabling]).tree e := by
  refine ⟨by decide +kernel, named_assets_present rfl ⟨⟨?_, nofun⟩, trivial, trivial⟩⟩
  intro named hnamed e he hkind
  -- Both placeholders are of the certificate.
  have hall : (resolveConfig (managedAssetsRoot Stealth.indexHmac emptyNode.cfg)
      certificateDeployment.payload.assets
      certificateDeployment.payload.config).all fun named => named.all fun e =>
        e.reference.kind = .certificate := by
    decide +kernel
  rw [hnamed, Option.all_some, List.all_eq_true] at hall
  rw [of_decide_eq_true (hall e he)] at hkind
  exact absurd hkind (by decide)

/-- The clean-up after the switch deletes the files that the configuration names. -/
theorem named_assets_lost_at_start :
    ∃ e ∈ (sampleRun [.task certificateDeployment, enabling, restarting]).named,
      ¬Present plainDigest (sampleRun [.task certificateDeployment, enabling, restarting]).tree e := by
  have hlost : (sampleRun [.task certificateDeployment, enabling, restarting]).named.any fun e =>
      e.reference.kind = .certificate &&
        ((sampleRun [.task certificateDeployment, enabling, restarting]).tree.lookup
          (managedAssetDir plainDigest e.root e.reference ++ ["fullchain.pem"])).isNone := by decide +kernel
  obtain ⟨e, he, hnone⟩ := List.any_eq_true.mp hlost
  rw [Bool.and_eq_true, decide_eq_true_eq, Option.isNone_iff_eq_none] at hnone
  refine ⟨e, he, ?_⟩
  unfold Present
  rw [hnone.1]
  rintro ⟨-, fullchain, privateKey, hfullchain, -⟩
  rw [hnone.2] at hfullchain
  cases hfullchain

end OboardAgent.Deploy
