import OboardAgent.Lib.Attempt
import OboardAgent.Lib.Run
import OboardAgent.Stealth.Layout

/-!
# The hand-over between the layouts

`applyStealthTask`, `enableStealthLocked`, `disableStealthLocked` and `switchCoreService` of
`internal/agent/stealth.go`, with every step that can fail. The configuration that the agent holds
is part of the state: the names of the services are read from it, and both switches replace it
before the core is switched. The enabling switch then asks for the core service of the new
configuration where it means the old one.
-/

namespace OboardAgent.Stealth

open Files (Path)

/-! ## The state of the node -/

/-- What is done to a service; `verify` stands for the checks that end a switch of the core. -/
inductive Action where
  | start (service : String)
  | stop (service : String)
  | verify (service : String)
  deriving DecidableEq

abbrev Services := String → Bool

def perform (services : Services) (a : Action) : Services := fun service =>
  match a with
  | .start s => if s = service then true else services service
  | .stop s => if s = service then false else services service
  | .verify _ => services service

structure Finalizer where
  oldService : String
  newService : String
  oldCore : String
  newCore : String
  restoreCore : Bool

structure Host where
  config : Config
  /-- The configurations on the disk that can be loaded, by path. -/
  saved : GoMap Path Config
  /-- The core configuration in a state directory, in plain form. -/
  core : GoMap Path Bytes
  pending : Option Finalizer
  log : List Action

namespace Host

def stateRead (h : Host) : Option Bytes := h.core.lookup h.config.stateDir

def deployed (h : Host) : Bool := h.stateRead.any (! ·.isEmpty)

def storeConfig (cfg : Config) (h : Host) : Host := { h with config := cfg }

def saveConfig (cfg : Config) (h : Host) :
    Host := { h with saved := h.saved.insert cfg.configPath cfg }

def migrate (source target : Path) (h : Host) : Host :=
  match h.core.lookup source with
  | some data => { h with core := h.core.insert target data }
  | none => h

def act (a : Action) (h : Host) : Host := { h with log := h.log ++ [a] }

def arm (oldService newService : String) (h : Host) : Host :=
  let previous := h.config.stealth.bind (·.previous)
  let finalizer : Finalizer :=
    { oldService := oldService
      newService := newService
      oldCore := previous.elim "" (·.coreService)
      newCore := h.config.coreServiceName
      restoreCore := previous.isSome && h.deployed }
  { h with pending := some finalizer }

end Host

/-! ## The steps -/

inductive Step where
  | payload
  | root
  | managedRestart
  | serviceManager
  | hostLock
  | selfExecutable
  | generateIdentity
  | hiddenDir
  | generateKey
  | managedProcesses
  | installDir
  | copyBinaries
  | configDir
  | stateDir
  | saveKey
  | migrateState
  | migrateSecurity
  | validate
  | saveConfig
  | loadConfig
  | writeUnits
  | enableUnits
  | loadRestored
  | stopRestored
  | stopPrevious
  | readDeployed
  | stopOld
  | startNew
  | stable
  | readDesired
  | runtime
  | disableUnits
  deriving DecidableEq

/-- The surroundings of a switch. -/
structure Env where
  self : Path
  identity : Identity
  key : Key
  fault : Option Step
  /-- A start that failed has started the service all the same. -/
  lands : Bool
  stuck : Bool

namespace Env

variable (env : Env)

def check (steps : List Step) : Attempt Host Unit :=
  Attempt.ensure (steps.all fun s => env.fault ≠ some s)

/-- `stealthServiceAction`: a stop that fails leaves the service as it was. -/
def stealthServiceAction (s : Step) (a : Action) : Attempt Host Unit := fun h =>
  if env.fault = some s then
    match a with
    | .start _ => (if env.lands then h.act a else h, none)
    | _ => (h, none)
  else (h.act a, some ())

def switchCoreService (oldService newService : String) : Attempt Host Unit :=
  if oldService = newService then pure ()
  else do
    let h ← Attempt.read
    -- A file that cannot be read counts as none.
    if env.fault = some .readDeployed ∨ h.deployed = false then pure ()
    else do
      env.stealthServiceAction .stopOld (.stop oldService)
      env.stealthServiceAction .startNew (.start newService)
      env.check [.stable, .readDesired, .runtime]
      Attempt.update (Host.act (.verify newService))

inductive Outcome where
  | done
  | already
  deriving DecidableEq

def nested : Bool := env.self.dropLast ≠ [] && env.self.dropLast.dropLast ≠ []

def enableStealthLocked : Attempt Host Outcome := do
  let cfg := (← Attempt.read).config
  if cfg.stealthOn then pure .already
  else do
    let layout := cfg.hiddenLayout env.self env.identity
    let next := cfg.hidden env.self env.identity env.key
    env.check [.selfExecutable]
    Attempt.ensure env.nested
    env.check [.generateIdentity, .hiddenDir, .generateKey, .managedProcesses, .copyBinaries,
      .configDir, .stateDir, .saveKey,
      .migrateState]
    Attempt.update (Host.migrate cfg.stateDir layout.stateDir)
    env.check [.migrateSecurity, .validate, .saveConfig]
    Attempt.update (Host.saveConfig next)
    env.check [.loadConfig, .writeUnits, .enableUnits]
    Attempt.update (Host.storeConfig next)
    -- The service name is read from the configuration that was just stored.
    let oldService := (← Attempt.read).config.coreServiceName
    env.switchCoreService oldService layout.coreService
    Attempt.update (Host.arm "oboard-agent" layout.agentService)
    pure .done

def rollback (cfg : Config) (h : Host) : Host :=
  if h.config.coreServiceName ≠ cfg.coreService ∧ env.stuck then h.storeConfig cfg
  else
    let h := if h.config.coreServiceName ≠ cfg.coreService then
        (h.act (.stop "oboard-sb")).storeConfig cfg else h
    if h.deployed then h.act (.start cfg.coreService) else h

def foreign (cfg : Config) (settings : Settings) (restored : Settings × PreviousLayout) : Bool :=
  restored.2.configPath ≠ cfg.configPath || restored.1.identity ≠ settings.identity

def restored (configPath : Path) (h : Host) : Option (Settings × PreviousLayout) :=
  if env.fault = some .loadRestored then none
  else (h.saved.lookup configPath).bind fun cfg => cfg.stealth.bind fun settings =>
    settings.previous.map fun previous => (settings, previous)

def restoreStandard (cfg : Config) (settings : Settings) : Attempt Host Outcome := do
  let next := cfg.standard env.self settings
  env.check [.managedProcesses, .installDir, .copyBinaries, .configDir, .stateDir, .migrateState]
  Attempt.update (Host.migrate cfg.stateDir next.stateDir)
  env.check [.migrateSecurity, .validate, .saveConfig]
  Attempt.update (Host.saveConfig next)
  env.check [.loadConfig, .writeUnits, .enableUnits]
  Attempt.update (Host.storeConfig next)
  env.switchCoreService cfg.coreService "oboard-sb"
  env.check [.disableUnits]
  Attempt.update (Host.arm cfg.agentService "oboard-agent")
  pure .done

def stopRestored (cfg : Config) (settings : Settings) (h : Host) : Attempt Host Unit :=
  match env.restored (Config.originPaths env.self settings).1 h with
  | none => pure ()
  | some restored => do
    Attempt.ensure (!foreign cfg settings restored)
    env.stealthServiceAction .stopRestored (.stop "oboard-sb")

def disableStealthLocked : Attempt Host Outcome := do
  let h ← Attempt.read
  let cfg := h.config
  match cfg.stealth with
  | none => pure .already
  | some settings =>
    if cfg.stealthOn = false then pure .already
    else do
      env.check [.selfExecutable]
      env.stopRestored cfg settings h
      env.stealthServiceAction .stopPrevious (.stop cfg.coreService)
      (env.restoreStandard cfg settings).onFailure (env.rollback cfg)

def applyStealthTask (enable : Bool) : Attempt Host Outcome := do
  env.check [.payload, .root, .managedRestart, .serviceManager, .hostLock]
  if enable then env.enableStealthLocked else env.disableStealthLocked

end Env

/-! ## A clean hand-over -/

/-- The services after what was logged. -/
def Host.running (services : Services) (h : Host) : Services := Run.exec perform services h.log

/-- At no moment were both services started. -/
def Apart (services : Services) (old new : String) (log : List Action) : Prop :=
  ∀ past, past <+: log → ¬(Run.exec perform services past old = true ∧
    Run.exec perform services past new = true)

def Env.newCore (env : Env) (enable : Bool) :
    String := if enable then env.identity.coreName else "oboard-sb"

/-- A node before a switch: it is in the other layout, its own core has a configuration if it runs,
and the core of the new layout is not started. -/
structure Installed (env : Env) (enable : Bool) (services : Services) (h : Host) : Prop where
  log : h.log = []
  layout : h.config.stealthOn = !enable
  settings : enable = false → h.config.stealth.isSome
  named : enable = false → h.config.coreService ≠ ""
  identity : env.identity.coreName ≠ ""
  apart : h.config.coreServiceName ≠ env.newCore enable
  idle : services (env.newCore enable) = false
  serving : services h.config.coreServiceName = true → h.deployed = true

/-- A clean hand-over, whether it succeeds or fails. -/
structure CleanHandover (env : Env) (enable : Bool) (services : Services) (h : Host) : Prop where
  apart : Apart services h.config.coreServiceName (env.newCore enable)
    (env.applyStealthTask enable h).1.log
  switched : (env.applyStealthTask enable h).2 = some .done → h.deployed = true →
    (env.applyStealthTask enable h).1.running services h.config.coreServiceName = false ∧
      (env.applyStealthTask enable h).1.running services (env.newCore enable) = true ∧
      .verify (env.newCore enable) ∈ (env.applyStealthTask enable h).1.log
  config : (env.applyStealthTask enable h).2 = none →
    (env.applyStealthTask enable h).1.config = h.config
  pending : (env.applyStealthTask enable h).2 = none →
    (env.applyStealthTask enable h).1.pending = h.pending
  core : (env.applyStealthTask enable h).2 = none → services h.config.coreServiceName = true →
    (env.applyStealthTask enable h).1.running services h.config.coreServiceName = true ∨
      env.stuck = true
  retried : (env.applyStealthTask enable h).2 = none →
    ∀ later : Env, (later.applyStealthTask enable (env.applyStealthTask enable h).1).2
      ≠ some .already

section Rules

open Attempt (Triple)

variable {env : Env} {services : Services} {old new : String} {h : Host} {log : List Action}

theorem running_act {a : Action} : (h.act a).running services = perform (h.running services) a := by
  unfold Host.running Host.act
  rw [Run.exec_append]
  rfl

theorem apart_concat {a : Action} : Apart services old new (log ++ [a]) ↔
    Apart services old new log ∧
      ¬(Run.exec perform services (log ++ [a]) old = true ∧
        Run.exec perform services (log ++ [a]) new = true) := by
  constructor
  · intro hapart
    exact ⟨fun past hpast => hapart past (hpast.trans (List.prefix_append _ _)),
      hapart _ List.prefix_rfl⟩
  · rintro ⟨hlog, hlast⟩ past hpast
    rcases List.prefix_concat_iff.mp hpast with rfl | hpast
    · exact hlast
    · exact hlog past hpast

theorem apart_act {a : Action} (hapart : Apart services old new h.log)
    (hlast : perform (h.running services) a old = false ∨
      perform (h.running services) a new = false) : Apart services old new (h.act a).log := by
  refine apart_concat.mpr ⟨hapart, ?_⟩
  change ¬((h.act a).running services old = true ∧ (h.act a).running services new = true)
  rw [running_act]
  rintro ⟨hold, hnew⟩
  rcases hlast with hlast | hlast
  · rw [hlast] at hold
    cases hold
  · rw [hlast] at hnew
    cases hnew

variable {α : Type} {P R E : Host → Prop} {Q : α → Host → Prop} {steps : List Step}
  {f : Unit → Attempt Host α}

theorem check_bind (hno : ∀ s ∈ steps, env.fault = some s → ∀ h, P h → E h)
    (hf : (∀ s ∈ steps, env.fault ≠ some s) → Triple P (f ()) Q E) :
    Triple P (env.check steps >>= f) Q E := by
  refine Triple.ensure_bind (fun hfalse h hP => ?_) fun htrue => hf ?_
  · obtain ⟨s, hs, hfault⟩ := List.all_eq_false.mp hfalse
    exact hno s hs (by simpa using hfault) h hP
  · intro s hs
    simpa using List.all_eq_true.mp htrue s hs

theorem fault_ne {s other : Step} (hother : other ∉ steps) (hs : s ∈ steps)
    (hfault : env.fault = some s) : env.fault ≠ some other := by
  rw [hfault]
  rintro ⟨⟩
  exact hother hs

theorem stop_triple {s : Step} {service : String} (hno : env.fault = some s → ∀ h, P h → E h)
    (hact : ∀ h, P h → R (h.act (.stop service))) :
    Triple P (env.stealthServiceAction s (.stop service))
      (fun _ h => env.fault ≠ some s ∧ R h) E := by
  intro h hP
  unfold Env.stealthServiceAction
  dsimp only
  split_ifs with hfault
  · exact Attempt.ends_none (hno hfault h hP)
  · exact Attempt.ends_some ⟨hfault, hact h hP⟩

theorem stop_bind {s : Step} {service : String} (hno : env.fault = some s → ∀ h, P h → E h)
    (hact : ∀ h, P h → R (h.act (.stop service))) (hf : env.fault ≠ some s → Triple R (f ()) Q E) :
    Triple P (env.stealthServiceAction s (.stop service) >>= f) Q E :=
  Triple.bind (stop_triple hno hact) fun _ h hR => hf hR.1 h hR.2

theorem start_bind {s : Step} {service : String}
    (hno : env.fault = some s → ∀ h, P h → E h ∧ E (h.act (.start service)))
    (hact : ∀ h, P h → R (h.act (.start service))) (hf : env.fault ≠ some s → Triple R (f ()) Q E) :
    Triple P (env.stealthServiceAction s (.start service) >>= f) Q E := by
  refine Triple.bind (M := fun _ h => env.fault ≠ some s ∧ R h) (fun h hP => ?_) fun _ h hR =>
    hf hR.1 h hR.2
  unfold Env.stealthServiceAction
  dsimp only
  split_ifs with hfault hlands
  · exact Attempt.ends_none (hno hfault h hP).2
  · exact Attempt.ends_none (hno hfault h hP).1
  · exact Attempt.ends_some ⟨hfault, hact h hP⟩

/-! ### Enabling -/

def enableSteps : List Step :=
  [.payload, .root, .managedRestart, .serviceManager, .hostLock] ++ ([.selfExecutable] ++
    ([.generateIdentity, .hiddenDir, .generateKey, .managedProcesses, .copyBinaries, .configDir,
      .stateDir, .saveKey,
      .migrateState] ++ ([.migrateSecurity, .validate, .saveConfig] ++ [.loadConfig, .writeUnits,
        .enableUnits])))

/-- An enabling switch that fails. -/
def Env.FailsEarly (env : Env) : Prop := env.nested = false ∨ ∃ s ∈ enableSteps, env.fault = some s

theorem coreServiceName_hidden {cfg : Config} (hname : env.identity.coreName ≠ "") :
    (cfg.hidden env.self env.identity env.key).coreServiceName
      = (cfg.hiddenLayout env.self env.identity).coreService := by
  unfold Config.coreServiceName
  exact if_neg hname

structure Unmoved (h t : Host) : Prop where
  config : t.config = h.config
  pending : t.pending = h.pending
  log : t.log = h.log

/-- **Enabling** does nothing to the core services. If it fails, it has changed nothing that the
agent holds. -/
theorem enable_triple (hoff : h.config.stealthOn = false) (hname : env.identity.coreName ≠ "") :
    Triple (· = h) (env.applyStealthTask true)
      (fun a t => a = .done ∧ t.log = h.log ∧ ¬env.FailsEarly) fun t => Unmoved h t ∧
        env.FailsEarly := by
  -- Up to the new configuration only the disk changes.
  have hfails : ∀ {steps : List Step}, (∀ s ∈ steps, s ∈ enableSteps) →
      ∀ s ∈ steps, env.fault = some s →
      ∀ t, Unmoved h t → Unmoved h t ∧ env.FailsEarly :=
    fun hsteps s hs hfault t ht => ⟨ht, Or.inr ⟨s, hsteps s hs, hfault⟩⟩
  refine Triple.pre (M := Unmoved h) ?_ fun t ht => ht ▸ ⟨rfl, rfl, rfl⟩
  refine check_bind (hfails (by decide)) fun htask => ?_
  refine Triple.read_bind fun s hs => ?_
  rw [hs.config, if_neg (by rw [hoff]; decide)]
  refine Triple.pre (M := Unmoved h) ?_ fun t ht => ht ▸ hs
  refine check_bind (hfails (by decide)) fun hself => ?_
  refine Triple.ensure_bind (fun hnested t ht => ⟨ht, Or.inl hnested⟩) fun hnested => ?_
  refine check_bind (hfails (by decide)) fun hprepare => ?_
  refine Triple.update_bind (R := Unmoved h) ?_ ?_
  · intro t ht
    unfold Host.migrate
    split <;> exact ⟨ht.config, ht.pending, ht.log⟩
  refine check_bind (hfails (by decide)) fun hvalid => ?_
  refine Triple.update_bind (R := Unmoved h) (fun _ ht => ⟨ht.config, ht.pending, ht.log⟩) ?_
  refine check_bind (hfails (by decide)) fun hunits => ?_
  refine Triple.update_bind
    (R := fun t => t.config = h.config.hidden env.self env.identity env.key ∧ t.log = h.log)
      (fun _ ht => ⟨rfl, ht.log⟩) ?_
  refine Triple.read_bind fun t ht => ?_
  -- Now the old service has the name of the new one.
  have hskip : env.switchCoreService t.config.coreServiceName
      (h.config.hiddenLayout env.self env.identity).coreService =
      pure () := by
    unfold Env.switchCoreService
    rw [ht.1, coreServiceName_hidden hname, if_pos rfl]
  dsimp only
  rw [hskip]
  refine Triple.bind (M := fun _ u => u.log = h.log) (Triple.pure fun u hu => hu ▸ ht.2) fun _ => ?_
  refine Triple.update_bind (R := fun u => u.log = h.log) (fun _ hu => hu)
    (Triple.pure fun u hu => ⟨rfl, hu, ?_⟩)
  rintro (hnot | ⟨s, hs, hfault⟩)
  · rw [hnested] at hnot
    cases hnot
  · unfold enableSteps at hs
    simp only [List.mem_append] at hs
    rcases hs with hs | hs | hs | hs | hs
    · exact htask s hs hfault
    · exact hself s hs hfault
    · exact hprepare s hs hfault
    · exact hvalid s hs hfault
    · exact hunits s hs hfault

/-! ### Disabling -/

structure Between (services : Services) (old new : String) (held : Config)
    (pending : Option Finalizer) (home : Path)
    (data : Option Bytes) (h : Host) : Prop where
  config : h.config = held
  pending : h.pending = pending
  core : h.core.lookup home = data
  apart : Apart services old new h.log
  stopped : h.running services old = false

variable {held cfg : Config} {pending : Option Finalizer} {home : Path} {data : Option Bytes}

theorem Between.act {a : Action} (hbetween : Between services old new held pending home data h)
    (ha : a ≠ .start old) : Between services old new held pending home data (h.act a) := by
  have hstopped : perform (h.running services) a old = false := by
    have hold := hbetween.stopped
    cases a with
    | start s => simp [perform, show s ≠ old from fun hs => ha (hs ▸ rfl), hold]
    | stop s => simp [perform, hold]
    | verify s => exact hold
  refine ⟨hbetween.config, hbetween.pending, hbetween.core,
    apart_act hbetween.apart (Or.inl hstopped), ?_⟩
  rw [running_act]
  exact hstopped

def Served (env : Env) (services : Services) (new : String) (t : Host) : Prop :=
  (env.fault = some .readDeployed ∧ t.running services new = false) ∨
    (env.fault ≠ some .readDeployed ∧ t.running services new = true ∧ .verify new ∈ t.log)

/-- **The switch of the core**: a configuration that is deployed is served by the new core, unless
it could not be read. -/
theorem switch_triple (hne : old ≠ new) {deployed : Bool} :
    Triple
      (fun t => Between services old new held pending home data t ∧ t.running services new = false ∧
        (deployed = true → t.deployed = true))
      (env.switchCoreService old new)
      (fun _ t => Between services old new held pending home data t ∧
        (deployed = true → Served env services new t))
      (fun t => Between services old new held pending home data t ∧
        env.fault ≠ some .readDeployed) := by
  unfold Env.switchCoreService
  rw [if_neg hne]
  refine Triple.read_bind fun s hs => ?_
  obtain ⟨hbetween, hidle, hdeployed⟩ := hs
  split_ifs with hskip
  · refine Triple.pure fun t ht => ht ▸ ⟨hbetween, fun hd => Or.inl ⟨?_, hidle⟩⟩
    refine hskip.resolve_right ?_
    rw [hdeployed hd]
    decide
  obtain ⟨hread, -⟩ := not_or.mp hskip
  refine stop_bind (R := Between services old new held pending home data)
    (fun _ t ht => ht ▸ ⟨hbetween, hread⟩)
    (fun t ht => ht ▸ hbetween.act (by simp)) fun _ => ?_
  have hstart : Action.start new ≠ .start old := fun heq => hne (Action.start.inj heq).symm
  refine start_bind (R := fun t => Between services old new held pending home data t ∧
    t.running services new = true)
    (fun _ t ht => ⟨⟨ht, hread⟩, ht.act hstart, hread⟩)
      (fun t ht => ⟨ht.act hstart, ?_⟩) fun _ => ?_
  · rw [running_act]
    simp [perform]
  refine check_bind (fun _ _ _ t ht => ⟨ht.1, hread⟩) fun _ => ?_
  refine Triple.update fun t ht =>
    ⟨ht.1.act (by simp), fun _ => Or.inr ⟨hread, ?_, by simp [Host.act]⟩⟩
  rw [running_act]
  exact ht.2

theorem lookup_migrate (target : Path) {source : Path} (hdata : h.core.lookup source = data) :
    (h.migrate source target).core.lookup source = data ∧
      (data.isSome → (h.migrate source target).core.lookup target = data) := by
  subst hdata
  unfold Host.migrate
  cases hlookup : h.core.lookup source with
  | none => exact ⟨hlookup, fun hsome => by cases hsome⟩
  | some content =>
    dsimp only
    refine ⟨?_, fun _ => AList.lookup_insert _⟩
    by_cases heq : source = target
    · subst heq
      exact AList.lookup_insert _
    · rw [AList.lookup_insert_ne heq]
      exact hlookup

theorem Between.migrate {target : Path}
    (hbetween : Between services old new held pending home data h) :
    Between services old new held pending home data (h.migrate home target) := by
  have hcore := (lookup_migrate target hbetween.core).1
  obtain ⟨hconfig, hpending, -, hapart, hstopped⟩ := hbetween
  unfold Host.migrate at hcore ⊢
  split at hcore <;> exact ⟨hconfig, hpending, hcore, hapart, hstopped⟩

def Down (services : Services) (cfg : Config) (pending : Option Finalizer) (data : Option Bytes)
    (t : Host) : Prop :=
  Between services cfg.coreService "oboard-sb" cfg pending cfg.stateDir data t ∧
    t.running services "oboard-sb" = false

def Midway (env : Env) (services : Services) (cfg : Config) (settings : Settings)
    (pending : Option Finalizer) (data : Option Bytes) (t : Host) : Prop :=
  (Down services cfg pending data t ∨
    Between services cfg.coreService "oboard-sb" (cfg.standard env.self settings) pending
      cfg.stateDir data t) ∧
    env.fault ≠ some .readDeployed

theorem restore_triple (settings : Settings) (hold : cfg.coreService ≠ "oboard-sb") :
    Triple (Down services cfg pending data) (env.restoreStandard cfg settings)
      (fun a t => a = .done ∧ Apart services cfg.coreService "oboard-sb" t.log ∧
        t.running services cfg.coreService = false ∧
          (data.any (! ·.isEmpty) = true → Served env services "oboard-sb" t))
      (Midway env services cfg settings pending data) := by
  refine check_bind (fun s hs hfault t ht => ⟨Or.inl ht, fault_ne (by decide) hs hfault⟩)
    fun _ => ?_
  refine Triple.update_bind (R := fun t => Down services cfg pending data t ∧
    (data.any (! ·.isEmpty) = true → t.core.lookup (cfg.standard env.self settings).stateDir
      = data)) ?_ ?_
  · rintro t ⟨hbetween, hidle⟩
    refine ⟨⟨hbetween.migrate, ?_⟩, fun hd => (lookup_migrate _ hbetween.core).2 ?_⟩
    · unfold Host.migrate
      split <;> exact hidle
    · cases data with
      | none => cases hd
      | some content => rfl
  refine check_bind (fun s hs hfault t ht => ⟨Or.inl ht.1, fault_ne (by decide) hs hfault⟩)
    fun _ => ?_
  refine Triple.update_bind (R := fun t => Down services cfg pending data t ∧
    (data.any (! ·.isEmpty) = true → t.core.lookup (cfg.standard env.self settings).stateDir
      = data)) ?_ ?_
  · rintro t ⟨⟨hbetween, hidle⟩, hmoved⟩
    exact ⟨⟨⟨hbetween.config, hbetween.pending, hbetween.core, hbetween.apart, hbetween.stopped⟩,
      hidle⟩, hmoved⟩
  refine check_bind (fun s hs hfault t ht => ⟨Or.inl ht.1, fault_ne (by decide) hs hfault⟩)
    fun _ => ?_
  -- From here the agent holds the new configuration.
  refine Triple.update_bind
    (R := fun t => Between services cfg.coreService "oboard-sb"
      (cfg.standard env.self settings) pending cfg.stateDir data t ∧
      t.running services "oboard-sb" = false ∧
        (data.any (! ·.isEmpty) = true → t.deployed = true)) ?_ ?_
  · rintro t ⟨⟨hbetween, hidle⟩, hmoved⟩
    refine ⟨⟨rfl, hbetween.pending, hbetween.core, hbetween.apart, hbetween.stopped⟩,
      hidle, fun hd => ?_⟩
    unfold Host.deployed Host.stateRead Host.storeConfig
    dsimp only
    rw [hmoved hd, hd]
  refine Triple.bind ((switch_triple hold).post (fun _ _ hQ => hQ) fun t ht =>
    ⟨Or.inr ht.1, ht.2⟩) fun _ => ?_
  refine check_bind (fun s hs hfault t ht => ⟨Or.inr ht.1, fault_ne (by decide) hs hfault⟩)
    fun _ => ?_
  exact Triple.update_bind (fun t ht => ⟨rfl, ht.1.apart, ht.1.stopped, ht.2⟩)
    (Triple.pure fun _ ht => ht)

structure RolledBack (env : Env) (services : Services) (cfg : Config) (pending : Option Finalizer)
    (data : Option Bytes)
    (t : Host) : Prop where
  config : t.config = cfg
  pending : t.pending = pending
  apart : Apart services cfg.coreService "oboard-sb" t.log
  core : data.any (! ·.isEmpty) = true → t.running services cfg.coreService = true ∨
    env.stuck = true

theorem rollback_spec (hnamed : cfg.coreServiceName = cfg.coreService)
    (hold : cfg.coreService ≠ "oboard-sb")
    (hbetween : Between services cfg.coreService "oboard-sb" held pending cfg.stateDir data h)
    (hheld : held = cfg ∧ h.running services "oboard-sb" = false ∨
      held.coreServiceName = "oboard-sb") :
    RolledBack env services cfg pending data (env.rollback cfg h) := by
  -- Once the new core is not started and the agent holds the old configuration, the old core is
  -- started.
  have hrestart : ∀ t, Down services cfg pending data t →
      RolledBack env services cfg pending data
        (if t.deployed then t.act (.start cfg.coreService) else t) := by
    rintro t ⟨ht, hidle⟩
    have hdeployed : t.deployed = data.any (! ·.isEmpty) := by
      unfold Host.deployed Host.stateRead
      rw [ht.config, ht.core]
    split_ifs with hd
    · refine ⟨ht.config, ht.pending, apart_act ht.apart (Or.inr ?_), fun _ => Or.inl ?_⟩
      · simp [perform, hold, hidle]
      · rw [running_act]
        simp [perform]
    · exact ⟨ht.config, ht.pending, ht.apart, fun hdata => absurd (hdeployed.trans hdata) hd⟩
  unfold Env.rollback
  dsimp only
  rcases hheld with ⟨rfl, hidle⟩ | hheld
  · have hsame : ¬h.config.coreServiceName ≠ held.coreService := by
      rw [hbetween.config, hnamed]
      exact not_not.mpr rfl
    rw [if_neg fun hstuck => hsame hstuck.1, if_neg hsame]
    exact hrestart h ⟨hbetween, hidle⟩
  · have hdiffers : h.config.coreServiceName ≠ cfg.coreService := by
      rw [hbetween.config, hheld]
      exact hold.symm
    by_cases hstuck : h.config.coreServiceName ≠ cfg.coreService ∧ env.stuck = true
    · rw [if_pos hstuck]
      exact ⟨rfl, hbetween.pending, hbetween.apart, fun _ => Or.inr hstuck.2⟩
    · rw [if_neg hstuck, if_pos hdiffers]
      have hstop := hbetween.act (a := .stop "oboard-sb") (by simp)
      refine hrestart ((h.act (.stop "oboard-sb")).storeConfig cfg)
        ⟨⟨rfl, hstop.pending, hstop.core, hstop.apart, hstop.stopped⟩, ?_⟩
      change (h.act (.stop "oboard-sb")).running services "oboard-sb" = false
      rw [running_act]
      simp [perform]

/-- The restored layout on the disk belongs to another installation. -/
def Env.Foreign (env : Env) (h : Host) : Prop :=
  ∃ settings restored, h.config.stealth = some settings ∧
    env.restored (Config.originPaths env.self settings).1 h = some restored ∧
    Env.foreign h.config settings restored = true

structure Failed (env : Env) (services : Services) (h t : Host) : Prop where
  config : t.config = h.config
  pending : t.pending = h.pending
  apart : Apart services h.config.coreService "oboard-sb" t.log
  core : services h.config.coreService = true → t.running services h.config.coreService = true ∨
    env.stuck = true
  cause : env.fault = some .readDeployed → env.Foreign h

structure Untouched (services : Services) (h t : Host) : Prop where
  config : t.config = h.config
  pending : t.pending = h.pending
  core : t.core = h.core
  apart : Apart services h.config.coreService "oboard-sb" t.log
  running : t.running services h.config.coreService = services h.config.coreService
  idle : t.running services "oboard-sb" = false

theorem Untouched.failed {t : Host} (ht : Untouched services h t)
    (hcause : env.fault = some .readDeployed → env.Foreign h) : Failed env services h t := by
  refine ⟨ht.config, ht.pending, ht.apart, fun hserving => Or.inl ?_, hcause⟩
  rw [ht.running]
  exact hserving

theorem Installed.untouched (hinst : Installed env false services h) : Untouched services h h := by
  have hrunning : h.running services = services := by
    unfold Host.running
    rw [hinst.log]
    rfl
  have hidle : services "oboard-sb" = false := hinst.idle
  refine ⟨rfl, rfl, rfl, ?_, by rw [hrunning], by rw [hrunning, hidle]⟩
  intro past hpast hboth
  rw [hinst.log, List.prefix_nil] at hpast
  rw [hpast, Run.exec_nil, hidle] at hboth
  cases hboth.2

theorem Untouched.stop_new {t : Host} (hold : h.config.coreService ≠ "oboard-sb")
    (ht : Untouched services h t) : Untouched services h (t.act (.stop "oboard-sb")) := by
  have hrunning : (t.act (.stop "oboard-sb")).running services = perform (t.running services)
      (.stop "oboard-sb") := running_act
  refine ⟨ht.config, ht.pending, ht.core, apart_act ht.apart (Or.inr ?_), ?_, ?_⟩
  · simp [perform]
  · rw [hrunning]
    simp [perform, hold.symm, ht.running]
  · rw [hrunning]
    simp [perform]

theorem Untouched.stop_old {t : Host} (ht : Untouched services h t) :
    Down services h.config h.pending h.stateRead (t.act (.stop h.config.coreService)) := by
  have hrunning : (t.act (.stop h.config.coreService)).running services =
      perform (t.running services) (.stop h.config.coreService) := running_act
  refine ⟨⟨ht.config, ht.pending, ?_, apart_act ht.apart (Or.inl ?_), ?_⟩, ?_⟩
  · exact ht.core ▸ rfl
  · simp [perform]
  · rw [hrunning]
    simp [perform]
  · rw [hrunning]
    simp [perform, ht.idle]

theorem stopRestored_triple {settings : Settings} (hsettings : h.config.stealth = some settings)
    (hold : h.config.coreService ≠ "oboard-sb") :
    Triple (Untouched services h) (env.stopRestored h.config settings h)
      (fun _ t => Untouched services h t ∧ ¬env.Foreign h) (Failed env services h) := by
  unfold Env.stopRestored
  cases hfound : env.restored (Config.originPaths env.self settings).1 h with
  | none => exact Triple.pure fun t ht => ⟨ht, by simp [Env.Foreign, hsettings, hfound]⟩
  | some restored =>
    have hforeign : env.Foreign h ↔ Env.foreign h.config settings restored = true := by
      simp [Env.Foreign, hsettings, hfound, -Prod.exists]
    refine Triple.ensure_bind (fun hother t ht => ht.failed fun _ =>
      hforeign.mpr (by simpa using hother)) fun hown => ?_
    refine (stop_triple (R := Untouched services h) (fun hfault t ht => ?_) fun t ht =>
      ht.stop_new hold).post
      (fun _ t ht => ⟨ht.2, ?_⟩) fun _ ht => ht
    · exact ht.failed fun hread => by rw [hfault] at hread; cases hread
    · rw [hforeign]
      simpa using hown

/-- **Disabling.** A switch that succeeds has stopped the old core, and the new one serves what is
deployed unless it could not be read; one that fails has restored what the agent held. -/
theorem disable_triple (hinst : Installed env false services h) :
    Triple (· = h) (env.applyStealthTask false)
      (fun a t => a = .done ∧ Apart services h.config.coreService "oboard-sb" t.log ∧
        t.running services h.config.coreService = false ∧ ¬env.Foreign h ∧
        (h.deployed = true → Served env services "oboard-sb" t))
      (Failed env services h) := by
  obtain ⟨settings, hsettings⟩ := Option.isSome_iff_exists.mp (hinst.settings rfl)
  have hnamed : h.config.coreServiceName = h.config.coreService := if_neg (hinst.named rfl)
  have hold : h.config.coreService ≠ "oboard-sb" := hnamed ▸ hinst.apart
  have hearly : ∀ {steps : List Step}, Step.readDeployed ∉ steps → ∀ s ∈ steps, env.fault = some s →
      ∀ t, Untouched services h t → Failed env services h t :=
    fun hsteps s hs hfault t ht => ht.failed fun hread => absurd hread (fault_ne hsteps hs hfault)
  refine check_bind (fun s hs hfault t ht =>
    hearly (by decide) s hs hfault t (ht ▸ hinst.untouched)) fun _ => ?_
  refine Triple.read_bind fun s hs => ?_
  subst hs
  dsimp only
  rw [hsettings]
  dsimp only
  rw [if_neg (by rw [hinst.layout]; decide)]
  refine Triple.pre (M := Untouched services s) ?_ fun t ht => ht ▸ hinst.untouched
  refine check_bind (hearly (by decide)) fun _ => ?_
  refine Triple.bind (stopRestored_triple hsettings hold) fun _ => ?_
  refine stop_bind (R := fun t => Down services s.config s.pending s.stateRead t ∧
    ¬env.Foreign s) ?_
    (fun t ht => ⟨ht.1.stop_old, ht.2⟩) fun _ => ?_
  · intro hfault t ht
    exact ht.1.failed fun hread => by rw [hfault] at hread; cases hread
  refine Triple.onFailure (F := Midway env services s.config settings s.pending s.stateRead) ?_ ?_
  · -- The frame: whether the restored layout is foreign was settled before.
    intro t ht
    obtain ⟨hsome, hnone⟩ := restore_triple settings hold t ht.1
    refine ⟨fun u a hrun => ?_, hnone⟩
    obtain ⟨hdone, hapart, hstopped, hserved⟩ := hsome u a hrun
    exact ⟨hdone, hapart, hstopped, ht.2, hserved⟩
  · rintro t ⟨hbetween, hread⟩
    have hrolled : RolledBack env services s.config s.pending s.stateRead
        (env.rollback s.config t) := by
      rcases hbetween with ⟨hbetween, hidle⟩ | hbetween
      · exact rollback_spec hnamed hold hbetween (Or.inl ⟨rfl, hidle⟩)
      · exact rollback_spec hnamed hold hbetween (Or.inr rfl)
    refine ⟨hrolled.config, hrolled.pending, hrolled.apart, fun hserving =>
      hrolled.core (hinst.serving ?_),
      fun hfault => absurd hfault hread⟩
    rw [hnamed]
    exact hserving

end Rules

/-! ## When a hand-over is clean -/

section Main

variable {env : Env} {enable : Bool} {services : Services} {h : Host}

open Attempt (Triple)

theorem not_already (hlayout : h.config.stealthOn = !enable)
    (hsettings : enable = false → h.config.stealth.isSome) :
    Triple (· = h) (env.applyStealthTask enable) (fun a _ => a ≠ .already) fun _ => True := by
  refine check_bind (fun _ _ _ _ _ => trivial) fun _ => ?_
  cases enable with
  | true =>
    refine Triple.read_bind fun s hs => ?_
    subst hs
    dsimp only
    rw [if_neg (by rw [hlayout]; decide)]
    iterate 11 refine Triple.last fun _ => ?_
    exact Triple.pure fun _ _ => by decide
  | false =>
    refine Triple.read_bind fun s hs => ?_
    subst hs
    obtain ⟨settings, hsome⟩ := Option.isSome_iff_exists.mp (hsettings rfl)
    dsimp only
    rw [hsome]
    dsimp only
    rw [if_neg (by rw [hlayout]; decide)]
    iterate 3 refine Triple.last fun _ => ?_
    refine Triple.onFailure (F := fun _ => True) ?_ fun _ _ => trivial
    iterate 9 refine Triple.last fun _ => ?_
    exact Triple.pure fun _ _ => by decide

/-- **A hand-over is clean** when no core configuration is deployed. When one is, an enabling switch
is clean only if it fails, and a disabling switch unless the failure is that the deployed
configuration cannot be read. -/
theorem cleanHandover_iff (hinst : Installed env enable services h) :
    CleanHandover env enable services h ↔
      (h.deployed = true → (enable = true → env.FailsEarly) ∧
        (enable = false → env.fault = some .readDeployed → env.Foreign h)) := by
  have hretried : ∀ t : Host, t.config = h.config →
      ∀ later : Env, (later.applyStealthTask enable t).2 ≠ some .already := by
    intro t hconfig later halready
    rcases (not_already (h := t) (hconfig ▸ hinst.layout) fun hoff =>
      hconfig ▸ hinst.settings hoff).apply rfl
      with ⟨a, ha, hne⟩ | ⟨hnone, -⟩
    · rw [ha] at halready
      exact hne (Option.some.inj halready)
    · rw [hnone] at halready
      cases halready
  cases enable with
  | true =>
    -- Nothing is done to the services, whether the switch succeeds or fails.
    have hquiet : ∀ t : Host, t.log = h.log → t.running services = services := by
      intro t hlog
      unfold Host.running
      rw [hlog, hinst.log]
      rfl
    have hapart : ∀ t : Host, t.log = h.log →
        Apart services h.config.coreServiceName (env.newCore true) t.log := by
      intro t hlog past hpast hboth
      rw [hlog, hinst.log, List.prefix_nil] at hpast
      rw [hpast, Run.exec_nil, hinst.idle] at hboth
      cases hboth.2
    rcases (enable_triple hinst.layout hinst.identity).apply rfl with
      ⟨a, ha, rfl, hlog, hearly⟩ | ⟨hnone, ⟨hconfig, hpending, hlog⟩, hearly⟩
    · constructor
      · intro hclean hdeployed
        have hstarted := (hclean.switched ha hdeployed).2.1
        rw [hquiet _ hlog, hinst.idle] at hstarted
        cases hstarted
      · intro hcondition
        refine ⟨hapart _ hlog, fun _ hdeployed => absurd ((hcondition hdeployed).1 rfl) hearly,
          ?_, ?_, ?_, ?_⟩
        all_goals
          intro hnone
          rw [ha] at hnone
          cases hnone
    · refine ⟨fun _ _ => ⟨fun _ => hearly, nofun⟩, fun _ =>
        ⟨hapart _ hlog, ?_, fun _ => hconfig, fun _ => hpending, ?_, ?_⟩⟩
      · intro hdone
        rw [hnone] at hdone
        cases hdone
      · intro _ hserving
        rw [hquiet _ hlog]
        exact Or.inl hserving
      · exact fun _ => hretried _ hconfig
  | false =>
    have hnamed : h.config.coreServiceName = h.config.coreService := if_neg (hinst.named rfl)
    rcases (disable_triple hinst).apply rfl with
      ⟨a, ha, rfl, hapart, hstopped, hown, hserved⟩ | ⟨hnone, hfailed⟩
    · constructor
      · intro hclean hdeployed
        refine ⟨nofun, fun _ hread => ?_⟩
        have hstarted := (hclean.switched ha hdeployed).2.1
        rcases hserved hdeployed with ⟨-, hidle⟩ | ⟨hother, -⟩
        · change (env.applyStealthTask false h).1.running services "oboard-sb" = true at hstarted
          rw [hidle] at hstarted
          cases hstarted
        · exact absurd hread hother
      · intro hcondition
        refine ⟨hnamed ▸ hapart, fun _ hdeployed => ?_, ?_, ?_, ?_, ?_⟩
        · rcases hserved hdeployed with ⟨hread, -⟩ | ⟨-, hserving⟩
          · exact absurd ((hcondition hdeployed).2 rfl hread) hown
          · exact ⟨hnamed ▸ hstopped, hserving⟩
        all_goals
          intro hnone
          rw [ha] at hnone
          cases hnone
    · refine ⟨fun _ _ => ⟨nofun, fun _ => hfailed.cause⟩, fun _ =>
        ⟨hnamed ▸ hfailed.apart, ?_, fun _ => hfailed.config,
        fun _ => hfailed.pending, ?_, fun _ => hretried _ hfailed.config⟩⟩
      · intro hdone
        rw [hnone] at hdone
        cases hdone
      · rw [hnamed]
        exact fun _ => hfailed.core

end Main

/-! ## A node with a deployed configuration -/

def sampleHost (cfg : Config) : Host where
  config := cfg
  saved := ∅
  core := AList.singleton cfg.stateDir [123, 125]
  pending := none
  log := []

def standardConfig : Config := sampleConfig ["etc", "oboard-agent", "config.json"]

def hiddenConfig : Config := standardConfig.hidden
    ["opt", "oboard", "oboard-agent"] sampleIdentity plainKey

def coreOf (cfg : Config) : Services := fun service => service = cfg.coreServiceName

def sampleEnv (self : Path) (fault : Option Step) : Env where
  self := self
  identity := sampleIdentity
  key := plainKey
  fault := fault
  lands := true
  stuck := false

def enabling (fault : Option Step) : Env := sampleEnv ["opt", "oboard", "oboard-agent"] fault

def disabling (fault : Option Step) : Env := sampleEnv ["opt", "bbbbbbbbbb", "aaaaaaaaaa"] fault

/-- The new core fails to start, though it was started: it is stopped again, and the old one
runs. -/
theorem cleanHandover_of_failed_start :
    ((disabling (some .startNew)).applyStealthTask false (sampleHost hiddenConfig)).2 = none ∧
      CleanHandover (disabling (some .startNew)) false (coreOf hiddenConfig)
        (sampleHost hiddenConfig) := by
  have hinst : Installed (disabling (some .startNew)) false (coreOf hiddenConfig)
      (sampleHost hiddenConfig) := by
    constructor <;> decide +kernel
  refine ⟨by decide +kernel, (cleanHandover_iff hinst).mpr fun _ => ⟨nofun, fun _ hread => ?_⟩⟩
  cases hread

/-- Enabling succeeds, and the core has not been switched. Disabling succeeds when the deployed
configuration cannot be read, and no core runs. -/
theorem core_not_switched :
    (((enabling none).applyStealthTask true (sampleHost standardConfig)).2 = some .done ∧
      ((enabling none).applyStealthTask true (sampleHost standardConfig)).1.running
        (coreOf standardConfig) "oboard-sb" = true ∧
      ((enabling none).applyStealthTask true (sampleHost standardConfig)).1.running
        (coreOf standardConfig) "cccccccccc" = false) ∧
    ((disabling (some .readDeployed)).applyStealthTask false (sampleHost hiddenConfig)).2
      = some .done ∧
      ((disabling (some .readDeployed)).applyStealthTask false (sampleHost hiddenConfig)).1.running
        (coreOf hiddenConfig)
        "cccccccccc" = false ∧
      ((disabling (some .readDeployed)).applyStealthTask false (sampleHost hiddenConfig)).1.running
        (coreOf hiddenConfig)
        "oboard-sb" = false := by
  decide +kernel

end OboardAgent.Stealth
