import OboardAgent.Deploy.Tasks
import OboardAgent.Lib.Run

/-!
# The order in which configurations are installed

The gate compares a task with the record of the last task that went through. The record is written
at the end of a task and the configuration in the middle, so the gate is right about the
configuration on disk only while the record is not behind it.
-/

namespace OboardAgent.Deploy

open Stealth (Hmac)

variable (d : Digest) (hmac : Hmac)

/-- A node takes up a task. -/
def step (m : Machine) (task : Task) : Machine := (task.run d hmac m).1

/-- The configuration that a task puts on disk. -/
def installs (m : Machine) (task : Task) : List Installed :=
  if (step d hmac m task).core = m.core then [] else (step d hmac m task).core.toList

/-- One configuration may replace another: it is of a later version, or of the same version and
task. -/
def Follows (c c' : Installed) : Prop :=
  c.version ≤ c'.version ∧ (c.version = c'.version → c.kind = c'.kind ∧ c.payload = c'.payload)

instance (c c' : Installed) : Decidable (Follows c c') :=
  inferInstanceAs (Decidable (c.version ≤ c'.version ∧
    (c.version = c'.version → c.kind = c'.kind ∧ c.payload = c'.payload)))

/-- The record is not behind the configuration on disk. -/
def Covered (m : Machine) : Prop :=
  ∀ c ∈ m.core, ∃ state ∈ m.applied, c.version < state.version ∨
    (c.version = state.version ∧ c.kind = state.kind ∧ c.payload = state.payload)

/-- The record is not behind when the task is taken up, or the task is newer than what is on disk,
or it is the one that what is on disk is of. -/
def Careful (m : Machine) (task : Task) : Prop :=
  Covered m ∨ ∀ c ∈ m.core, c.version < task.version ∨
    (c.version = task.version ∧ c.kind = task.kind ∧ c.payload = task.payload)

instance (m : Machine) : Decidable (Covered m) :=
  inferInstanceAs (Decidable (∀ c ∈ m.core, ∃ state ∈ m.applied, _))

instance (m : Machine) (task : Task) : Decidable (Careful m task) :=
  inferInstanceAs (Decidable (Covered m ∨ ∀ c ∈ m.core, _ ∨ _))

variable {d hmac} {m : Machine} {task : Task}

theorem Follows.trans {c c' c'' : Installed} (h : Follows c c') (h' : Follows c' c'') : Follows c c'' := by
  refine ⟨Int.le_trans h.1 h'.1, fun heq => ?_⟩
  have hmid : c.version = c'.version := Int.le_antisymm h.1 (heq ▸ h'.1)
  obtain ⟨hkind, hpayload⟩ := h.2 hmid
  obtain ⟨hkind', hpayload'⟩ := h'.2 (hmid.symm.trans heq)
  exact ⟨hkind.trans hkind', hpayload.trans hpayload'⟩

/-! ## What a task does to the configuration and the record -/

structure Progress (task : Task) (before m : Machine) : Prop where
  core : m.core = before.core ∨ ∃ content, m.core = some (task.installed content)
  applied : m.applied = before.applied ∨ m.applied = some ⟨task.version, task.kind, task.payload⟩

section Progress

open Attempt

variable {before : Machine}

theorem Progress.refl : Progress task before before := ⟨Or.inl rfl, Or.inl rfl⟩

theorem sync_progress : Keeps (Progress task before) (task.sync d hmac) :=
  Triple.state fun _ hm => ⟨hm.core, hm.applied⟩

theorem prune_progress : Keeps (Progress task before) (task.prune d hmac) :=
  Triple.state fun _ hm => ⟨hm.core, hm.applied⟩

theorem apply_progress {content : Content} {forceRestart : Bool} :
    Keeps (Progress task before) (task.applyCoreConfigUnlocked content forceRestart) := by
  apply Triple.state
  intro m hm
  unfold Task.applyCoreConfigUnlocked
  by_cases hsame : forceRestart = false ∧ m.core.any (·.content = content)
  · rw [if_pos hsame]
    exact hm
  · rw [if_neg hsame]
    cases task.env.apply with
    | done => exact ⟨Or.inr ⟨content, rfl⟩, hm.applied⟩
    | left => exact ⟨Or.inr ⟨content, rfl⟩, hm.applied⟩
    | undone => exact hm

theorem persist_progress : Keeps (Progress task before) task.persistAppliedVersion := by
  refine Triple.ensure_bind (fun _ m hm => hm) fun _ => ?_
  exact Triple.update fun m hm => ⟨hm.core, Or.inr rfl⟩

theorem coreConfig_progress : Keeps (Progress task before) (task.applyCoreConfigFully d hmac) := by
  refine Triple.bind sync_progress fun synced => ?_
  refine Triple.bind apply_progress fun _ => ?_
  refine Triple.ensure_bind (fun _ m hm => hm) fun _ => ?_
  exact Triple.bind persist_progress fun _ => prune_progress

theorem deployConfig_progress {warp : String} {named : List Named} {changed : Bool} :
    Keeps (Progress task before) (task.deployConfig warp named changed) := by
  unfold Task.deployConfig
  cases task.payload.config with
  | none => exact Triple.state fun _ hm => hm
  | some config => exact apply_progress

theorem deployment_progress : Keeps (Progress task before) (task.deployFully d hmac) := by
  refine Triple.bind sync_progress fun synced => ?_
  refine Triple.ensure_bind (fun _ m hm => hm) fun _ => ?_
  refine Triple.bind deployConfig_progress fun _ => ?_
  refine Triple.bind prune_progress fun _ => ?_
  exact Triple.ensure_bind (fun _ m hm => hm) fun _ => persist_progress

theorem confirm_progress : Keeps (Progress task before) (task.confirmCoreConfig d hmac) :=
  Triple.ensure_bind (fun _ _ hm => hm) fun _ => prune_progress

end Progress

/-- **What a task does.** Only a task that the gate lets through puts a configuration on disk. -/
theorem step_progress (d : Digest) (hmac : Hmac) (m : Machine) (task : Task) :
    Progress task m (step d hmac m task) ∧ ((step d hmac m task).core = m.core ∨ Admits m.applied task) := by
  have hgated : ∀ {confirmable : Bool} {confirm fully : Attempt Machine Unit}, Progress task m (confirm m).1 →
      Progress task m (fully m).1 → Progress task m (task.gated confirmable confirm fully m).1 ∧
        ((task.gated confirmable confirm fully m).1.core = m.core ∨ Admits m.applied task) := by
    intro confirmable confirm fully hconfirm hfully
    rcases gated_cases m with hsame | ⟨hreplay, -, hrun⟩ | ⟨hadmits, hrun⟩
    · rw [hsame]
      exact ⟨Progress.refl, Or.inl rfl⟩
    · rw [hrun]
      exact ⟨hconfirm, Or.inr (admits_of_verdict hreplay (by decide))⟩
    · rw [hrun]
      exact ⟨hfully, Or.inr hadmits⟩
  unfold step Task.run
  cases task.kind with
  | coreConfig => exact hgated (confirm_progress.ends Progress.refl) (coreConfig_progress.ends Progress.refl)
  | deployment => exact hgated Progress.refl (deployment_progress.ends Progress.refl)

/-! ## Runs -/

theorem follows_of_careful {c c' : Installed} (hcareful : Careful m task) (hc : m.core = some c)
    (hc' : (step d hmac m task).core = some c') (hne : (step d hmac m task).core ≠ m.core) :
    Follows c c' := by
  obtain ⟨hprogress, hgate⟩ := step_progress d hmac m task
  have hadmits := hgate.resolve_left hne
  obtain ⟨content, hinstalled⟩ := hprogress.core.resolve_left hne
  obtain rfl : task.installed content = c' := Option.some.inj (hinstalled.symm.trans hc')
  rcases hcareful with hcovered | hnewer
  · obtain ⟨state, hstate, hrecord⟩ := hcovered c hc
    -- What is on disk is no newer than the record, and the record no newer than the task.
    rcases hadmits state hstate with hlater | ⟨hversion, hkind, hpayload⟩
    · have hle : c.version ≤ state.version := by
        rcases hrecord with h | ⟨h, -⟩ <;> omega
      exact ⟨Int.le_of_lt (Int.lt_of_le_of_lt hle hlater), fun h =>
        absurd h (Int.ne_of_lt (Int.lt_of_le_of_lt hle hlater))⟩
    · rcases hrecord with hlater | ⟨hversion', hkind', hpayload'⟩
      · rw [hversion] at hlater
        exact ⟨Int.le_of_lt hlater, fun h => absurd h (Int.ne_of_lt hlater)⟩
      · exact ⟨Int.le_of_eq (hversion'.trans hversion), fun _ =>
          ⟨hkind'.trans hkind, hpayload'.trans hpayload⟩⟩
  · rcases hnewer c hc with hlater | ⟨hversion, hsame⟩
    · exact ⟨Int.le_of_lt hlater, fun h => absurd h (Int.ne_of_lt hlater)⟩
    · exact ⟨Int.le_of_eq hversion, fun _ => hsame⟩

theorem installs_eq : installs d hmac m task = [] ∧ (step d hmac m task).core = m.core ∨
    ∃ c', installs d hmac m task = [c'] ∧ (step d hmac m task).core = some c' ∧
      (step d hmac m task).core ≠ m.core := by
  unfold installs
  split_ifs with hsame
  · exact Or.inl ⟨rfl, hsame⟩
  · obtain ⟨content, hinstalled⟩ := (step_progress d hmac m task).1.core.resolve_left hsame
    exact Or.inr ⟨task.installed content, by rw [hinstalled]; rfl, hinstalled, hsame⟩

theorem ordered_of_careful {tasks : List Task} (h : Run.Along (step d hmac) Careful m tasks) :
    (∀ c ∈ m.core, ∀ c' ∈ Run.outputs (step d hmac) (installs d hmac) m tasks, Follows c c') ∧
      (Run.outputs (step d hmac) (installs d hmac) m tasks).Pairwise Follows := by
  induction tasks generalizing m with
  | nil => exact ⟨fun c _ c' hc' => absurd hc' List.not_mem_nil, List.Pairwise.nil⟩
  | cons task rest ih =>
    obtain ⟨hcareful, hrest⟩ := h
    obtain ⟨hafter, hpairs⟩ := ih hrest
    rcases installs_eq (d := d) (m := m) with ⟨hnone, hsame⟩ | ⟨c', hone, hcore, hne⟩
    · rw [Run.outputs, hnone, List.nil_append]
      exact ⟨hsame ▸ hafter, hpairs⟩
    · rw [Run.outputs, hone, List.singleton_append]
      have hlater := hafter c' hcore
      refine ⟨fun c hc => ?_, List.pairwise_cons.mpr ⟨hlater, hpairs⟩⟩
      have hfollows := follows_of_careful hcareful hc hcore hne
      rw [List.forall_mem_cons]
      exact ⟨hfollows, fun c'' hc'' => hfollows.trans (hlater c'' hc'')⟩

/-- **Configurations are installed in the order of their versions**, and one version with one
payload, in every run whose record is not behind the disk when a task is taken up that is neither
newer than what is there nor a repeat. -/
theorem installs_in_order {tasks : List Task} (h : Run.Along (step d hmac) Careful m tasks) :
    (m.core.toList ++ Run.outputs (step d hmac) (installs d hmac) m tasks).Pairwise Follows := by
  obtain ⟨hfirst, hpairs⟩ := ordered_of_careful h
  cases hcore : m.core with
  | none => exact hpairs
  | some c => exact List.pairwise_cons.mpr ⟨hfirst c hcore, hpairs⟩

/-! ## What the record rules out -/

theorem step_of_not_admits (h : ¬Admits m.applied task) : step d hmac m task = m := by
  have hgated : ∀ {confirmable : Bool} {confirm fully : Attempt Machine Unit},
      (task.gated confirmable confirm fully m).1 = m := by
    intro confirmable confirm fully
    rcases gated_cases m with hsame | ⟨hreplay, -, -⟩ | ⟨hadmits, -⟩
    · exact hsame
    · exact absurd (admits_of_verdict hreplay (by decide)) h
    · exact absurd hadmits h
  unfold step Task.run
  cases task.kind with
  | coreConfig => exact hgated
  | deployment => exact hgated

/-- The record is this one, or of a later version. -/
def Records (state : Applied) (m : Machine) :
    Prop := ∃ state' ∈ m.applied, state.version < state'.version ∨ state = state'

theorem Records.step {state : Applied} (h : Records state m) : Records state (step d hmac m task) := by
  by_cases hadmits : Admits m.applied task
  · rcases (step_progress d hmac m task).1.applied with hsame | hnew
    · unfold Records
      rw [hsame]
      exact h
    · obtain ⟨state', hstate', hle⟩ := h
      refine ⟨_, hnew, ?_⟩
      rcases hadmits state' hstate' with hlater | ⟨hversion, hkind, hpayload⟩
      · rcases hle with hle | rfl
        · exact Or.inl (Int.lt_trans hle hlater)
        · exact Or.inl hlater
      · rwa [← hversion, ← hkind, ← hpayload]
  · rwa [step_of_not_admits hadmits]

/-- **A recorded version is final.** Whatever tasks follow, and wherever they fail, an older task or
another task of that version then changes nothing on the node. -/
theorem recorded_version_is_final (state : Applied) (tasks : List Task) (hrecord : m.applied = some state)
    (hversion : task.version ≤ state.version) (hother : state ≠ ⟨task.version, task.kind, task.payload⟩) :
    step d hmac (Run.exec (step d hmac) m tasks) task = Run.exec (step d hmac) m tasks := by
  have hrun : Records state (Run.exec (step d hmac) m tasks) :=
    Run.invariant_all (fun _ _ h => h.step) ⟨state, hrecord, Or.inr rfl⟩
  obtain ⟨state', hstate', hle⟩ := hrun
  refine step_of_not_admits fun hadmits => ?_
  rcases hadmits state' hstate' with hlater | ⟨hsame, hkind, hpayload⟩
  · rcases hle with hle | rfl <;> omega
  · rcases hle with hle | rfl
    · omega
    · exact hother (by rw [← hsame, ← hkind, ← hpayload])

section Sample

def plainDigest : Digest where
  content := fun bytes => String.ofList (bytes.map fun byte => Char.ofNat byte.toNat)
  dirName := id
  dirName_injective := Function.injective_id

def emptyNode : Machine where
  cfg := Stealth.sampleConfig ["etc", "oboard-agent", "config.json"]
  tree := ∅
  recorded := some []
  core := none
  applied := none

def smoothEnv : Env where
  readable := true
  converged := true
  authorized := true
  response := none
  writes := 100
  warp := some ""
  apply := .done
  ssh := true
  later := true
  persist := true
  save := true
  prunes := 100

def plainDeployment (version : Int) (text : String) (env : Env) : Task where
  kind := .deployment
  version := version
  payload := ⟨some ⟨text, some []⟩, [], false, false, true, ""⟩
  env := env

theorem installs_in_order_of_two_deployments :
    (Run.outputs (step plainDigest Stealth.indexHmac) (installs plainDigest Stealth.indexHmac) emptyNode
        [plainDeployment 1 "one" smoothEnv, plainDeployment 2 "two" smoothEnv]).map
          Installed.version = [1, 2] ∧
      (emptyNode.core.toList ++ Run.outputs (step plainDigest Stealth.indexHmac)
        (installs plainDigest Stealth.indexHmac)
        emptyNode [plainDeployment 1 "one" smoothEnv, plainDeployment 2 "two" smoothEnv]).Pairwise Follows :=
  ⟨by decide +kernel, installs_in_order (by decide +kernel)⟩

/-- A deployment of version 2 whose port forwards fail is followed by one of version 1, which
replaces it; and the deployment of version 2 is followed by another payload under its version. -/
theorem older_version_installed :
    ¬(Run.outputs (step plainDigest Stealth.indexHmac) (installs plainDigest Stealth.indexHmac) emptyNode
        [plainDeployment 2 "two" { smoothEnv with later := false },
          plainDeployment 1 "one" smoothEnv]).Pairwise Follows ∧
      (Run.outputs (step plainDigest Stealth.indexHmac) (installs plainDigest Stealth.indexHmac) emptyNode
        [plainDeployment 2 "two" { smoothEnv with later := false }, plainDeployment 1 "one" smoothEnv]).map
          (fun c => (c.version, c.content.text)) = [(2, "two"), (1, "one")] ∧
      (Run.outputs (step plainDigest Stealth.indexHmac) (installs plainDigest Stealth.indexHmac) emptyNode
        [plainDeployment 2 "two" { smoothEnv with persist := false },
          plainDeployment 2 "other" smoothEnv]).map
          (fun c => (c.version, c.content.text)) = [(2, "two"), (2, "other")] := by
  decide +kernel

def atVersionTwo : Machine :=
  Run.exec (step plainDigest Stealth.indexHmac) emptyNode [plainDeployment 2 "two" smoothEnv]

/-- Version 3 fails at its port forwards; another payload for version 2 still changes nothing. -/
theorem recorded_version_is_final_after_failure :
    let m := Run.exec (step plainDigest Stealth.indexHmac) atVersionTwo
      [plainDeployment 3 "three" { smoothEnv with later := false }]
    step plainDigest Stealth.indexHmac m (plainDeployment 2 "other" smoothEnv) = m :=
  recorded_version_is_final ⟨2, .deployment, (plainDeployment 2 "two" smoothEnv).payload⟩ _
    (by decide +kernel)
    (by decide) (by decide)

end Sample

end OboardAgent.Deploy
