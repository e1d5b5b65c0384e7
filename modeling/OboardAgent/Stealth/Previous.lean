import Mathlib.Data.List.Dedup
import Mathlib.Data.List.Sort
import OboardAgent.Lib.GoStrings
import OboardAgent.Stealth.Layout

/-!
# Previous installations

`internal/agent/stealth_reinstall.go`. Before a reinstallation starts its replacement, the services
of the previous installations are listed; once it runs, they are stopped and their units and files
removed. Both go through the units and verify the hidden layouts. Of the two standard units, the
listing asks of each whether it runs the standard binary. The clean-up asks whether the agent's unit
can be read, and takes both.

Paths are texts. The parent directories are clean and not the root, so that a join puts a slash
between. The search in a unit, the keys and configurations, and `filepath.Dir` are parameters.
-/

namespace OboardAgent.Reinstall

open Stealth (Identity Manager validName)

/-- What the line of a unit begins with that names the program. -/
def command : Manager → String
  | .systemd => "ExecStart="
  | .openrc => "command="

inductive File where
  | missing
  | unreadable
  | text (content : String)

structure Config where
  identity : Option Identity
  coreBinary : String
  stateDir : String

structure Host (κ : Type) where
  entries : List String
  unit : String → File
  /-- `stealthUnitConfig`: the configuration and the key that a unit names. -/
  findConfig : String → Option (String × String)
  loadKey : String → Option κ
  loadConfigWithKey : String → κ → Option Config
  loadConfig : String → Option Config
  dir : String → String
  configParent : String := "/etc"
  stateParent : String := "/var/lib"

/-- `Validate`; only the name of the installation directory may be missing. -/
def accepted (i : Identity) : Bool :=
  let names := if i.installDirName = "" then i.names.eraseIdx 1 else i.names
  names.all validName && decide names.Nodup

abbrev Accepted := { i : Identity // accepted i }

theorem Accepted.validName (i : Accepted) : validName i.val.agentName ∧ validName i.val.coreName := by
  have hi := i.property
  simp only [accepted, Bool.and_eq_true, List.all_eq_true] at hi
  constructor
  · exact hi.1 _ (by split <;> simp [Identity.names])
  · exact hi.1 _ (by split <;> simp [Identity.names])

def Config.accepted (cfg : Config) : Option Accepted :=
  cfg.identity.bind fun i => if hi : Reinstall.accepted i then some ⟨i, hi⟩ else none

inductive Found where
  | skipped
  | kept
  | old (i : Accepted)
deriving DecidableEq

/-- `AgentService` and `CoreService` of the layout. -/
def services (i : Identity) : List String := [i.agentName, i.coreName]

section

variable {κ : Type} (h : Host κ) (m : Manager) (keepConfig : String)

def Host.readConfig (configPath keyPath : String) : Option Config := do
  let key ← h.loadKey keyPath
  (h.loadConfigWithKey configPath key).or (h.loadConfig configPath)

/-- `ConfigPath` of the layout. -/
def Host.configPath (i : Identity) : String :=
  h.configParent ++ "/" ++ i.configDirName ++ "/" ++ i.configFileName

def Host.keyPath (i : Identity) : String :=
  h.configParent ++ "/" ++ i.configDirName ++ "/" ++ i.keyFileName

def Host.consistent (i : Identity) (configPath keyPath : String) (cfg : Config) : Bool :=
  configPath = h.configPath i && keyPath = h.keyPath i &&
    cfg.coreBinary = h.dir cfg.coreBinary ++ "/" ++ i.coreName &&
    cfg.stateDir = h.stateParent ++ "/" ++ i.stateDirName

def Host.commandIn (i : Identity) (cfg : Config) (unit : String) : Bool :=
  let binary := h.dir cfg.coreBinary ++ "/" ++ i.agentName
  let expected := command m ++ binary ++ match m with
    | .systemd => " -config " ++ h.configPath i ++ " -key " ++ h.keyPath i
    | .openrc => ""
  ("\n" ++ expected ++ "\n").toList <:+: ("\n" ++ unit).toList

/-- The last steps of both, for a configuration that was read and fits the unit's name. -/
def Host.verified (name unit configPath keyPath : String) (i : Accepted) (cfg : Config) :
    Except String Found :=
  if !h.consistent i.val configPath keyPath cfg then .error ("inconsistent managed layout in " ++ name)
  else if !h.commandIn m i.val cfg unit then .error ("unexpected managed command in " ++ name)
  else .ok (if configPath = keepConfig then .kept else .old i)

def listEntry (name : String) : Except String Found :=
  match h.unit name with
  | .text unit =>
    match h.findConfig unit with
    | none => .ok .skipped
    | some (configPath, keyPath) =>
      let stem := String.ofList (name.toList.take (name.length - m.suffix.length))
      if ¬(m.suffix.toList <:+ name.toList ∧ validName stem ∧
          (h.configParent ++ "/").toList <+: configPath.toList) then .ok .skipped
      else
        match h.readConfig configPath keyPath with
        | none => .error ("cannot verify managed service " ++ name)
        | some cfg =>
          match cfg.accepted with
          | none => .error ("invalid managed service identity in " ++ name)
          | some i =>
            if name ≠ i.val.agentName ++ m.suffix then .error ("inconsistent managed layout in " ++ name)
            else h.verified m keepConfig name unit configPath keyPath i cfg
  | _ => .error "read"

def cleanupEntry (name : String) : Except String Found :=
  match h.unit name with
  | .text unit =>
    match h.findConfig unit with
    | none => .ok .skipped
    | some (configPath, keyPath) =>
      match h.readConfig configPath keyPath with
      | none => .ok .skipped
      | some cfg =>
        match cfg.accepted with
        | none => .ok .skipped
        | some i =>
          if name ≠ i.val.agentName ++ m.suffix then .ok .skipped
          else h.verified m keepConfig name unit configPath keyPath i cfg
  | _ => .error "read"

def collect (f : String → Except String Found) : List String → Except String (List Found)
  | [] => .ok []
  | name :: names => do
    let found ← f name
    let rest ← collect f names
    .ok (found :: rest)

def identities (found : List Found) : List Accepted :=
  found.filterMap fun
    | .old i => some i
    | _ => none

def runsOwn (unit service : String) : Bool :=
  (unit.toList.splitOn '\n').any fun line => (command m).toList.isPrefixOf line &&
    (GoStrings.fields (line.drop (command m).length)).head?.any (GoStrings.base · = service)

def Host.standardUnit (service : String) : Except String Bool :=
  match h.unit (service ++ m.suffix) with
  | .missing => .ok false
  | .unreadable => .error "read"
  | .text unit => .ok (runsOwn m unit service)

def listPreviousAgentServices : Except String (List String) := do
  let found ← collect (listEntry h m keepConfig) h.entries
  if .kept ∉ found then .error "replacement installation could not be verified"
  else
    let agent ← h.standardUnit m "oboard-agent"
    let core ← h.standardUnit m "oboard-sb"
    let agents := (identities found).map (·.val.agentName) ++ if agent then ["oboard-agent"] else []
    let cores := (identities found).map (·.val.coreName) ++ if core then ["oboard-sb"] else []
    .ok (agents.dedup.insertionSort (· ≤ ·) ++ cores.dedup.insertionSort (· ≤ ·))

/-- The services that are stopped and whose units are removed. `runs` says that the replacement runs
and that no command and no removal fails. -/
def cleanupPreviousAgentInstalls (runs : Bool) : Except String (List String) := do
  let found ← collect (cleanupEntry h m keepConfig) h.entries
  if .kept ∉ found
    then .error "replacement installation could not be verified; keeping previous installations"
  else if !runs then .error "replacement is not running"
  else
    let stopped := (identities found).flatMap fun i => services i.val
    -- the units of those layouts are gone when the standard one is read
    let standard : Bool := match h.unit ("oboard-agent" ++ m.suffix) with
      | .text _ => "oboard-agent" ∉ stopped
      | _ => false
    .ok (stopped ++ if standard then ["oboard-agent", "oboard-sb"] else [])

variable {h m keepConfig}

theorem verified_ok {name unit configPath keyPath : String} {i : Accepted} {cfg : Config} {a : Found}
    (ha : h.verified m keepConfig name unit configPath keyPath i cfg = .ok a) :
    configPath = h.configPath i.val := by
  unfold Host.verified at ha
  split at ha
  · cases ha
  rename_i hcons
  simp only [Host.consistent, Bool.not_eq_true', Bool.not_eq_false, Bool.and_eq_true,
    decide_eq_true_eq] at hcons
  exact hcons.1.1.1

/-- **What both find in a unit is the same**, where neither fails: the listing passes over no unit
that the clean-up verifies. -/
theorem entry_agrees {name : String} {a b : Found} (ha : listEntry h m keepConfig name = .ok a)
    (hb : cleanupEntry h m keepConfig name = .ok b) : a = b := by
  unfold listEntry at ha
  unfold cleanupEntry at hb
  cases hu : h.unit name with
  | missing | unreadable => simp [hu] at ha
  | text unit =>
    cases hf : h.findConfig unit with
    | none => simp_all
    | some paths =>
      simp only [hu, hf] at ha hb
      cases hc : h.readConfig paths.1 paths.2 with
      | none =>
        simp only [hc] at ha hb
        split at ha <;> simp_all
      | some cfg =>
        cases hi : cfg.accepted with
        | none =>
          simp only [hc, hi] at ha hb
          split at ha <;> simp_all
        | some i =>
          simp only [hc, hi] at ha hb
          by_cases hname : name = i.val.agentName ++ m.suffix
          · rw [if_neg (not_not.mpr hname)] at ha hb
            have hpath := verified_ok hb
            rw [if_neg] at ha
            · exact Except.ok.inj (ha.symm.trans hb)
            · subst hname
              rw [hpath, String.toList_append, String.length_append, Nat.add_sub_cancel,
                ← String.length_toList,
                List.take_left, String.ofList_toList, not_not]
              exact ⟨List.suffix_append _ _, i.validName.1, by simp [Host.configPath]⟩
          · split at ha <;> simp_all

theorem collect_ok {f : String → Except String Found} :
    ∀ {names : List String} {as : List Found}, collect f names = .ok as →
      List.Forall₂ (fun name a => f name = .ok a) names as
  | [], _, ha => by
    cases ha
    exact .nil
  | name :: names, as, ha => by
    simp only [collect, bind, Except.bind] at ha
    split at ha
    · cases ha
    split at ha
    · cases ha
    cases ha
    exact .cons ‹_› (collect_ok ‹_›)

theorem found_agrees {names : List String} {as bs : List Found}
    (ha : List.Forall₂ (fun name a => listEntry h m keepConfig name = .ok a) names as)
    (hb : List.Forall₂ (fun name b => cleanupEntry h m keepConfig name = .ok b) names bs) : as = bs := by
  induction ha generalizing bs with
  | nil =>
    cases hb
    rfl
  | cons ha _ ih =>
    cases hb with
    | cons hb hbs => rw [entry_agrees ha hb, ih hbs]

theorem not_standard {i : Accepted} {service : String} (hs : service ∈ services i.val) :
    service ≠ "oboard-agent" ∧ service ≠ "oboard-sb" := by
  have hservice : validName service := by
    rcases List.mem_pair.mp hs with rfl | rfl
    · exact i.validName.1
    · exact i.validName.2
  constructor
  · rintro rfl
    exact absurd hservice (by decide +kernel)
  · rintro rfl
    exact absurd hservice (by decide +kernel)

theorem mem_listed {listed : List String} (hlist : listPreviousAgentServices h m keepConfig = .ok listed) :
    ∃ found agent core, collect (listEntry h m keepConfig) h.entries = .ok found ∧
      h.standardUnit m "oboard-agent" = .ok agent ∧ h.standardUnit m "oboard-sb" = .ok core ∧
      ∀ s, s ∈ listed ↔ (∃ i ∈ identities found, s ∈ services i.val) ∨
        s = "oboard-agent" ∧ agent ∨ s = "oboard-sb" ∧ core := by
  simp only [listPreviousAgentServices, bind, Except.bind] at hlist
  split at hlist
  · cases hlist
  split at hlist
  · cases hlist
  split at hlist
  · cases hlist
  split at hlist
  · cases hlist
  rename_i found _ _ _ agent hagent _ core hcore
  cases hlist
  refine ⟨found, agent, core, ‹_›, hagent, hcore, fun s => ?_⟩
  simp only [services, List.mem_append, List.mem_insertionSort, List.mem_dedup, List.mem_map]
  cases agent <;> cases core <;> grind

theorem mem_stopped {runs : Bool} {stopped : List String}
    (hclean : cleanupPreviousAgentInstalls h m keepConfig runs = .ok stopped) :
    ∃ found, collect (cleanupEntry h m keepConfig) h.entries = .ok found ∧
      ∀ s, s ∈ stopped ↔ (∃ i ∈ identities found, s ∈ services i.val) ∨
        (∃ t, h.unit ("oboard-agent" ++ m.suffix) = .text t) ∧ (s = "oboard-agent" ∨ s = "oboard-sb") := by
  simp only [cleanupPreviousAgentInstalls, bind, Except.bind] at hclean
  split at hclean
  · cases hclean
  split at hclean
  · cases hclean
  split at hclean
  · cases hclean
  rename_i found hfound _ _
  have hnew : "oboard-agent" ∉ (identities found).flatMap fun i => services i.val := by
    rw [List.mem_flatMap]
    rintro ⟨i, -, hs⟩
    exact (not_standard hs).1 rfl
  cases hclean
  refine ⟨found, hfound, fun s => ?_⟩
  rw [List.mem_append, List.mem_flatMap]
  cases h.unit ("oboard-agent" ++ m.suffix) with
  | text t =>
    simp only [hnew, not_false_eq_true, decide_true, if_true, File.text.injEq, exists_eq', true_and,
      List.mem_pair]
  | missing | unreadable => simp

/-- The clean-up takes both standard services with the agent's unit; the listing names each that
runs its own binary. -/
def Host.Paired (h : Host κ) (m : Manager) : Prop :=
  ∀ service ∈ ["oboard-agent", "oboard-sb"],
    (h.standardUnit m service = .ok true ↔ ∃ t, h.unit ("oboard-agent" ++ m.suffix) = .text t)

/-- **Listing and clean-up agree** on the hidden layouts, and on the standard one exactly if its
units are paired. -/
theorem listed_iff_stopped {runs : Bool} {listed stopped : List String}
    (hlist : listPreviousAgentServices h m keepConfig = .ok listed)
    (hclean : cleanupPreviousAgentInstalls h m keepConfig runs = .ok stopped) :
    (∀ s, s ∈ listed ↔ s ∈ stopped) ↔ h.Paired m := by
  obtain ⟨found, agent, core, hfound, hagent, hcore, hlisted⟩ := mem_listed hlist
  obtain ⟨found', hfound', hstopped⟩ := mem_stopped hclean
  obtain rfl := found_agrees (collect_ok hfound) (collect_ok hfound')
  have hhidden : ∀ s, s = "oboard-agent" ∨ s = "oboard-sb" → ¬ ∃ i ∈ identities found,
      s ∈ services i.val := by
    rintro s hs ⟨i, -, hi⟩
    exact hs.elim (not_standard hi).1 (not_standard hi).2
  simp only [hlisted, hstopped, Host.Paired, List.mem_cons, List.not_mem_nil, or_false, forall_eq_or_imp,
    forall_eq, hagent, hcore, Except.ok.injEq]
  constructor
  · intro heq
    simpa [hhidden] using And.intro (heq "oboard-agent") (heq "oboard-sb")
  · rintro ⟨h₁, h₂⟩ s
    rw [← h₁]
    grind

end

def replaced (agentUnit coreUnit : String) : Host Unit where
  entries := ["aaaaaaaaaa.service"]
  unit name :=
    if name = "oboard-agent.service" then .text agentUnit
    else if name = "oboard-sb.service" then .text coreUnit
    else .text ("ExecStart=/opt/new/aaaaaaaaaa -config /etc/eeeeeeeeee/jjjjjjjjjj" ++
      " -key /etc/eeeeeeeeee/kkkkkkkkkk\n")
  findConfig _ := some ("/etc/eeeeeeeeee/jjjjjjjjjj", "/etc/eeeeeeeeee/kkkkkkkkkk")
  loadKey _ := some ()
  loadConfigWithKey _ _ := some ⟨some Stealth.sampleIdentity, "/opt/new/cccccccccc", "/var/lib/ffffffffff"⟩
  loadConfig _ := none
  dir _ := "/opt/new"

theorem standard_units_listed :
    let h := replaced "ExecStart=/opt/oboard/oboard-agent run" "ExecStart=/opt/oboard/oboard-sb"
    let keep := "/etc/eeeeeeeeee/jjjjjjjjjj"
    let units := ["oboard-agent", "oboard-sb"]
    listPreviousAgentServices h .systemd keep = .ok units ∧
      cleanupPreviousAgentInstalls h .systemd keep true = .ok units ∧ h.Paired .systemd := by
  intro h keep units
  have hlist : listPreviousAgentServices h .systemd keep = .ok units := by decide +kernel
  have hclean : cleanupPreviousAgentInstalls h .systemd keep true = .ok units := by decide +kernel
  exact ⟨hlist, hclean, (listed_iff_stopped hlist hclean).mp fun _ => Iff.rfl⟩

/-- **A unit that starts the agent through another program** is stopped and removed, and was not
listed. -/
theorem wrapped_agent_not_listed :
    let h := replaced "ExecStart=/usr/bin/env /opt/oboard/oboard-agent" "ExecStart=/opt/oboard/oboard-sb"
    let keep := "/etc/eeeeeeeeee/jjjjjjjjjj"
    listPreviousAgentServices h .systemd keep = .ok ["oboard-sb"] ∧
      cleanupPreviousAgentInstalls h .systemd keep true = .ok ["oboard-agent", "oboard-sb"] := by
  decide +kernel

end OboardAgent.Reinstall
