import OboardAgent.Stealth.Layout
import OboardAgent.Stealth.Migrate

/-!
# The clean-up after a layout switch

`enableStealthLocked` as far as files go, and `reconcileStealthSwitchCleanup`, which the agent that
starts after the switch runs once: it deletes what the record of the previous layout names. Paths
that are exactly those of the current layout are left alone. A path above the current layout is not,
and the hidden configuration directory is created inside the one that is recorded.
-/

namespace OboardAgent.Stealth

open Files (Path Node Tree)

/-! ## Enabling -/

variable (manager : Manager)

def serviceUnitPath (service : String) : Path :=
  match manager with
  | .systemd => ["etc", "systemd", "system", service ++ ".service"]
  | .openrc => ["etc", "init.d", service]

/-- `taken`, for the places that `enableStealthLocked` asks about. -/
def taken (self : Path) (cfg : Config) (t : Tree) (name : String) : Bool :=
  [self.dropLast ++ [name], self.dropLast.dropLast ++ [name], cfg.configPath.dropLast ++ [name],
    cfg.stateDir.dropLast ++ [name], ["var", "log", name ++ ".log"], ["run", name ++ ".sock"],
    serviceUnitPath manager name].any fun p => (t.lookup p).isSome

/-- The places where `validateManagedPath` allows no state directory. -/
def blockedDirs : List Path :=
  [["etc"], ["bin"], ["sbin"], ["usr"], ["usr", "bin"], ["usr", "sbin"], ["boot"], ["dev"],
    ["proc"], ["sys"], ["root"]]

/-- `validateManagedPath`, for a state directory. -/
def validStateDir (dir : Path) : Bool :=
  dir ≠ [] && blockedDirs.all fun blocked =>
    !(blocked.isPrefixOf dir) || (blocked = ["usr"] && ["usr", "local"].isPrefixOf dir)

/-- What the switch draws: names, a key and nonces. -/
structure Draw where
  identity : Identity
  key : Key
  nonce : Path → Nonce

/-- `copyFileMode`, for a target that is not there. -/
def copyBinary (t : Tree) (pair : Path × Path) : Option Tree :=
  match t.lookup pair.1, t.lookup pair.2 with
  | some (.file data), none => some (t.insert pair.2 (.file data))
  | _, _ => none

def below (dir : Path) (t : Tree) : Tree :=
  t.entries.foldl (fun sub e => if dir.isPrefixOf e.1 && dir
    ≠ e.1 then sub.insert (e.1.drop dir.length) e.2 else sub) ∅

def graft (dir : Path) (sub t : Tree) : Tree := sub.entries.foldl (fun t e => t.insert (dir ++ e.1) e.2) t

def localSecurityPath (configPath : Path) : Path := configPath.dropLast ++ ["local-security.json"]

section Enable

variable (aead : Aead) (hmac : Hmac) (manager : Manager) (encode : Config → Bytes)

def migrateLocalSecurity (draw : Draw) (configPath configDir : Path) (t : Tree) : Option Tree :=
  match t.lookup (localSecurityPath configPath) with
  | some (.file data) =>
    if data.isEmpty then some t
    else (encrypt aead draw.key (draw.nonce configDir) data).map fun stored =>
      t.insert (configDir ++ [physicalName hmac draw.key "local-security.json"]) (.file stored)
  | some _ => none
  | none => some t

/-- `saveConfigBytes`, at the path that the configuration says; `encode` is the JSON text. -/
def saveConfig (key : Option Key) (nonce : Nonce) (cfg : Config) (t : Tree) : Option Tree :=
  (match key with
    | some key => encrypt aead key nonce (encode cfg)
    | none => some (encode cfg)).map fun stored =>
    (t.mkdirAll cfg.configPath.dropLast).insert cfg.configPath (.file stored)

/-- The files of `enableStealthLocked`: the tree and the configuration after a switch that
succeeds. -/
def enableStealth (draw : Draw) (self : Path) (cfg : Config) (t : Tree) : Option (Tree × Config) :=
  let installDir := self.dropLast
  let layout := cfg.hiddenLayout self draw.identity
  let next := cfg.hidden self draw.identity draw.key
  if cfg.stealthOn ∨ installDir = [] ∨ installDir.dropLast = [] then none
  else if draw.identity.validate = false ∨ draw.identity.names.any (taken manager self cfg t) then none
  else do
    let t := t.insert (installDir.dropLast ++ [draw.identity.installDirName]) .dir
    let t ← [(self, layout.agentBinary), (cfg.coreBinary, layout.coreBinary),
      (cfg.realmBinary self, layout.realmBinary)].foldlM copyBinary t
    let t := (t.mkdirAll layout.configDir).mkdirAll layout.stateDir
    let t := t.insert layout.keyPath (.file draw.key.val)
    let state ← migrateStateTreeEncrypt aead hmac draw.key draw.nonce (below cfg.stateDir t) ∅
    let t ← migrateLocalSecurity aead hmac draw cfg.configPath layout.configDir
        (graft layout.stateDir state t)
    if validStateDir next.stateDir = false then none
    else do
      let t ← saveConfig aead encode next.stealthKey (draw.nonce layout.configPath) next t
      some ((t.insert (serviceUnitPath manager layout.agentService) (.file [])).insert
        (serviceUnitPath manager layout.coreService) (.file []), next)

end Enable

/-! ## Cleaning up -/

/-- `removeIfNotIn`; an empty path is `none`. -/
def removeIfNotIn (keep : List Path) (t : Tree) (p : Option Path) : Tree :=
  match p with
  | none => t
  | some p => if p ∈ keep ∨ p = [] then t else t.removeAll p

/-- The paths of the previous layout that are removed, with what is below them. -/
def PreviousLayout.recorded (previous : PreviousLayout) : List (Option Path) :=
  [some previous.agentBinary, some previous.coreBinary, some previous.realmBinary, some previous.configPath,
    previous.keyPath, some previous.stateDir, some previous.agentLog, some previous.coreLog,
      some previous.coreSocket]

/-- `current`: the paths that are not removed. -/
def Config.currentPaths (cfg : Config) (self : Path) (settings : Settings) : List Path :=
  [self, cfg.coreBinary, cfg.realmBinary self, cfg.configPath, cfg.stateDir, localSecurityPath cfg.configPath,
    settings.keyPath]

def cleanupUnits (cfg : Config) (previous : PreviousLayout) (t : Tree) : Tree :=
  [previous.agentService, previous.coreService].foldl (fun t service =>
    if service = "" ∨ service = cfg.agentServiceName ∨ service = cfg.coreServiceName then t
    else t.remove (serviceUnitPath manager service)) t

def cleanupInstallDir (self : Path) (previous : PreviousLayout) (t : Tree) : Tree :=
  if previous.installDir = [] ∨ previous.installDir = self.dropLast then t
  else
    let obag := previous.installDir ++ ["obag"]
    (if t.lookup obag = some (.link previous.agentBinary) then t.remove obag else t).remove
      previous.installDir

def cleanupFiles (self : Path) (cfg : Config) (settings : Settings) (previous : PreviousLayout)
    (t : Tree) : Tree :=
  let keep := cfg.currentPaths self settings
  let t := previous.recorded.foldl (removeIfNotIn keep) (cleanupUnits manager cfg previous t)
  let t := if previous.configDir = cfg.configPath.dropLast then t else removeIfNotIn keep t
      (some previous.configDir)
  cleanupInstallDir self previous t

/-- `reconcileStealthSwitchCleanup` of the agent that runs from `self`; `stops` says which services
could be stopped. -/
def reconcileStealthSwitchCleanup (aead : Aead) (manager : Manager) (encode : Config → Bytes)
    (stops : String → Bool)
    (nonce : Nonce) (self : Path) (cfg : Config) (t : Tree) : Tree × Config :=
  match cfg.stealth with
  | none => (t, cfg)
  | some settings =>
    match settings.previous with
    | none => (t, cfg)
    | some previous =>
      if previous.agentBinary = self then (t, cfg)
      else if (previous.agentService ≠ "" ∧ previous.agentService ≠ cfg.agentServiceName ∧
          stops previous.agentService = false) ∨
          (previous.coreService ≠ "" ∧ previous.coreService ≠ cfg.coreServiceName ∧
          stops previous.coreService = false) then (t, cfg)
      else
        let t := cleanupFiles manager self cfg settings previous t
        match saveConfig aead encode cfg.stealthKey nonce (cfg.settled settings) t with
        | some t => (t, cfg.settled settings)
        | none => (t, cfg)

/-! ## What a switch that succeeds says -/

structure Installation where
  self : Path
  cfg : Config
  tree : Tree
  closed : ∀ q, (tree.lookup q).isSome → ∀ p, p <+: q → (tree.lookup p).isSome
  hasConfig : (tree.lookup cfg.configPath).isSome
  hasAgent : (tree.lookup self).isSome

theorem Installation.there_installDir (inst : Installation) : (inst.tree.lookup inst.self.dropLast).isSome :=
  inst.closed _ inst.hasAgent _ (List.dropLast_prefix _)

theorem Installation.there_configParent (inst : Installation) :
    (inst.tree.lookup inst.cfg.configPath.dropLast).isSome :=
  inst.closed _ inst.hasConfig _ (List.dropLast_prefix _)

/-- The names are valid and free where they are used, and the new state directory is an allowed
one. -/
structure Fresh (inst : Installation) (i : Identity) : Prop where
  valid : ∀ name ∈ i.names, validName name = true
  distinct : i.names.Nodup
  installDir : inst.tree.lookup (inst.self.dropLast.dropLast ++ [i.installDirName]) = none
  configDir : inst.tree.lookup (inst.cfg.configPath.dropLast ++ [i.configDirName]) = none
  stateDir : inst.tree.lookup (inst.cfg.stateDir.dropLast ++ [i.stateDirName]) = none
  allowed : validStateDir (inst.cfg.stateDir.dropLast ++ [i.stateDirName]) = true

theorem fresh_of_enable {aead : Aead} {hmac : Hmac} {manager : Manager} {encode : Config → Bytes}
    {draw : Draw} {inst : Installation} {t : Tree} {next : Config}
    (h : enableStealth aead hmac manager encode draw inst.self inst.cfg inst.tree = some (t, next))
    : next = inst.cfg.hidden inst.self draw.identity draw.key ∧ Fresh inst draw.identity := by
  unfold enableStealth at h
  dsimp only at h
  simp only [Option.ite_none_left_eq_some, Option.bind_eq_bind, Option.bind_eq_some_iff] at h
  obtain ⟨-, hidentity, t₁, -, state, -, t₂, -, hallowed, t₃, -, h⟩ := h
  obtain ⟨hvalidate, htaken⟩ := not_or.mp hidentity
  simp only [Bool.not_eq_false] at hvalidate hallowed
  unfold Identity.validate at hvalidate
  rw [Bool.and_eq_true, List.all_eq_true, decide_eq_true_eq] at hvalidate
  have hfree : ∀ name ∈ draw.identity.names, ∀ p ∈ [inst.self.dropLast.dropLast ++ [name],
      inst.cfg.configPath.dropLast ++ [name], inst.cfg.stateDir.dropLast ++ [name]],
        inst.tree.lookup p = none := by
    intro name hname p hp
    simp only [Bool.not_eq_true, List.any_eq_false] at htaken
    have hname := htaken name hname
    unfold taken at hname
    simp only [Bool.not_eq_true, List.any_eq_false] at hname
    exact Option.isSome_eq_false_iff.mp
      (hname p (List.mem_cons_of_mem _ (List.mem_append_left _ hp))) |> Option.isNone_iff_eq_none.mp
  cases h
  refine ⟨rfl, ⟨hvalidate.1, hvalidate.2, ?_, ?_, ?_, hallowed⟩⟩
  · exact hfree _ (by simp [Identity.names]) _ List.mem_cons_self
  · exact hfree _ (by simp [Identity.names]) _ (List.mem_cons_of_mem _ List.mem_cons_self)
  · exact hfree _ (by simp [Identity.names]) _
      (List.mem_cons_of_mem _ (List.mem_cons_of_mem _ List.mem_cons_self))

/-! ## The layout in use -/

section Current

variable (hmac : Hmac) (self : Path) (cfg : Config) (settings : Settings) (key : Key)

def fixedFiles : List Path :=
  [self, cfg.coreBinary, cfg.realmBinary self, localSecurityPath cfg.configPath, settings.keyPath,
    cfg.configPath.dropLast ++ [physicalName hmac key "local-security.json"]]

/-- A path of the layout in use, the configuration apart. -/
def Current (p : Path) : Prop := p ∈ fixedFiles hmac self cfg settings key ∨ cfg.stateDir <+: p

def AboveCurrent (p : Path) : Prop := p <+: cfg.configPath ∨
    ∃ q, Current hmac self cfg settings key q ∧ p <+: q

end Current

/-- The clean-up keeps the layout in use and removes the previous one. The installation directory
counts as the layout's when nothing else is in it. -/
structure LayoutKept (hmac : Hmac) (key : Key) (self : Path) (cfg : Config) (settings : Settings)
    (previous : PreviousLayout) (stored : Bytes) (before after : Tree) : Prop where
  files : ∀ p, Current hmac self cfg settings key p → after.lookup p = before.lookup p
  config : after.lookup cfg.configPath = some (.file stored)
  gone : ∀ p, some p ∈ previous.recorded ∨ p = previous.configDir →
    ¬AboveCurrent hmac self cfg settings key p →
    ∀ q, p <+: q → after.lookup q = none
  installDir : ¬AboveCurrent hmac self cfg settings key previous.installDir →
    (∀ q n, before.lookup q = some n → previous.installDir <+: q → q ≠ previous.installDir →
      (∃ p, some p ∈ previous.recorded ∧ p <+: q ∧ ¬AboveCurrent hmac self cfg settings key p) ∨
        (q = previous.installDir ++ ["obag"] ∧ n = .link previous.agentBinary)) →
    after.lookup previous.installDir = none

/-! ## One pass of the clean-up -/

variable {t : Tree} {q : Path}

theorem lookup_cleanupUnits {manager : Manager} {cfg : Config} {previous : PreviousLayout}
    (h : ∀ service, q ≠ serviceUnitPath manager service) :
    (cleanupUnits manager cfg previous t).lookup q = t.lookup q := by
  unfold cleanupUnits
  simp only [List.foldl_cons, List.foldl_nil]
  split_ifs <;> simp only [Tree.lookup_remove_of_ne (h _)]

theorem lookup_of_cleanupUnits {manager : Manager} {cfg : Config} {previous : PreviousLayout} {n : Node}
    (h : (cleanupUnits manager cfg previous t).lookup q = some n) : t.lookup q = some n := by
  unfold cleanupUnits at h
  simp only [List.foldl_cons, List.foldl_nil] at h
  split_ifs at h
  · exact h
  · exact Tree.lookup_of_remove h
  · exact Tree.lookup_of_remove h
  · exact Tree.lookup_of_remove (Tree.lookup_of_remove h)

theorem lookup_cleanupInstallDir {self : Path} {previous : PreviousLayout}
    (hobag : q ≠ previous.installDir ++ ["obag"]) (hdir : q ≠ previous.installDir) :
    (cleanupInstallDir self previous t).lookup q = t.lookup q := by
  unfold cleanupInstallDir
  dsimp only
  split_ifs
  · rfl
  · rw [Tree.lookup_remove_of_ne hdir, Tree.lookup_remove_of_ne hobag]
  · rw [Tree.lookup_remove_of_ne hdir]

theorem lookup_of_cleanupInstallDir {self : Path} {previous : PreviousLayout} {n : Node}
    (h : (cleanupInstallDir self previous t).lookup q = some n) : t.lookup q = some n := by
  unfold cleanupInstallDir at h
  dsimp only at h
  split_ifs at h
  · exact h
  · exact Tree.lookup_of_remove (Tree.lookup_of_remove h)
  · exact Tree.lookup_of_remove h

theorem lookup_removeIfNotIn {keep : List Path} {p : Option Path} {n : Node} :
    (removeIfNotIn keep t p).lookup q = some n ↔
      t.lookup q = some n ∧ ∀ r, p = some r → r ∉ keep → r ≠ [] → ¬r <+: q := by
  cases p with
  | none => simp [removeIfNotIn]
  | some p =>
    unfold removeIfNotIn
    dsimp only
    split_ifs with hkept
    · refine ⟨fun h => ⟨h, ?_⟩, And.left⟩
      rintro r ⟨⟩ hkeep hroot
      exact absurd hkept (not_or.mpr ⟨hkeep, hroot⟩)
    · rw [Tree.lookup_removeAll]
      obtain ⟨hkeep, hroot⟩ := not_or.mp hkept
      by_cases hp : p <+: q
      · simp [hp, hkeep, hroot]
      · simp [hp]

theorem lookup_foldl_removeIfNotIn {keep : List Path} {l : List (Option Path)} {n : Node} :
    (l.foldl (removeIfNotIn keep) t).lookup q = some n ↔
      t.lookup q = some n ∧ ∀ p, some p ∈ l → p ∉ keep → p ≠ [] → ¬p <+: q := by
  induction l generalizing t with
  | nil => simp
  | cons p rest ih =>
    rw [List.foldl_cons, ih, lookup_removeIfNotIn, and_assoc]
    refine and_congr_right fun _ => ⟨?_, ?_⟩
    · rintro ⟨hp, hrest⟩ r hr
      exact (List.mem_cons.mp hr).elim (fun heq => hp r heq.symm) (hrest r)
    · intro h
      exact ⟨fun r hr => h r (hr ▸ List.mem_cons_self), fun r hr => h r (List.mem_cons_of_mem _ hr)⟩

/-! ## The new paths are apart from the old ones -/

theorem length_of_validName {name : String} (h : validName name = true) : name.toList.length = 10 := by
  unfold validName at h
  split at h
  · cases h
  · next c rest hlist =>
    simp only [Bool.and_eq_true, decide_eq_true_eq] at h
    rw [hlist, List.length_cons, h.1.2]

namespace Fresh

variable {inst : Installation} {i : Identity} (hmac : Hmac) (key : Key) (h : Fresh inst i)
variable (inst i) in
def binDir : Path := inst.self.dropLast.dropLast ++ [i.installDirName]

variable (inst i) in
def confDir : Path := inst.cfg.configPath.dropLast ++ [i.configDirName]

variable (inst i) in
def dataDir : Path := inst.cfg.stateDir.dropLast ++ [i.stateDirName]

variable (inst i) in
def InUse (p : Path) : Prop :=
  p ∈ [binDir inst i ++ [i.agentName], binDir inst i ++ [i.coreName], binDir inst i ++ [i.realmName],
    confDir inst i ++ ["local-security.json"], confDir inst i ++ [i.keyFileName],
    confDir inst i ++ [physicalName hmac key "local-security.json"]] ∨ dataDir inst i <+: p

variable {hmac key}

include h

theorem ne_of_length {name other : String} (hname : name ∈ i.names) (hother : other.toList.length ≠ 10) :
    name ≠ other := by
  rintro rfl
  exact hother (length_of_validName (h.valid _ hname))

theorem physicalName_ne {name logical : String} (hname : name ∈ i.names) :
    name ≠ physicalName hmac key logical :=
  h.ne_of_length hname (by rw [length_physicalName]; decide)

theorem apart {q p : Path} (hq : (inst.tree.lookup q).isSome)
    (hp : p = binDir inst i ∨ p = confDir inst i ∨ p = dataDir inst i) : ¬p <+: q := by
  intro hprefix
  have hthere := inst.closed q hq p hprefix
  rcases hp with rfl | rfl | rfl
  · exact absurd hthere (by rw [binDir, h.installDir]; decide)
  · exact absurd hthere (by rw [confDir, h.configDir]; decide)
  · exact absurd hthere (by rw [dataDir, h.stateDir]; decide)

omit h in
theorem above_inUse (hq : InUse inst i hmac key q) :
    ∃ p, (p = binDir inst i ∨ p = confDir inst i ∨ p = dataDir inst i) ∧ p <+: q := by
  rcases hq with hq | hq
  · simp only [List.mem_cons, List.not_mem_nil, or_false] at hq
    rcases hq with rfl | rfl | rfl | rfl | rfl | rfl
    all_goals first
      | exact ⟨binDir inst i, Or.inl rfl, List.prefix_append _ _⟩
      | exact ⟨confDir inst i, Or.inr (Or.inl rfl), List.prefix_append _ _⟩
  · exact ⟨dataDir inst i, Or.inr (Or.inr rfl), hq⟩

theorem not_inUse_of_there {q x : Path} (hx : (inst.tree.lookup x).isSome) (hq : InUse inst i hmac key q) :
    ¬q <+: x := by
  obtain ⟨p, hp, hpq⟩ := above_inUse hq
  exact fun hqx => h.apart hx hp (hpq.trans hqx)

omit h in
theorem inUse_concat {dir : Path} {last : String} (hq : InUse inst i hmac key (dir ++ [last])) :
    (dir = binDir inst i ∧ last ∈ [i.agentName, i.coreName, i.realmName]) ∨
      (dir = confDir inst i ∧ last ∈ ["local-security.json", i.keyFileName,
        physicalName hmac key "local-security.json"]) ∨
      dir ++ [last] = dataDir inst i ∨ dataDir inst i <+: dir := by
  rcases hq with hq | hq
  · simp only [List.mem_cons, List.not_mem_nil, or_false, List.append_singleton_inj] at hq ⊢
    tauto
  · rcases List.prefix_concat_iff.mp hq with hq | hq
    · exact Or.inr (Or.inr (Or.inl hq.symm))
    · exact Or.inr (Or.inr (Or.inr hq))

theorem eq_of_inUse_concat {dir : Path} {last : String} (hthere : (inst.tree.lookup dir).isSome)
    (hq : InUse inst i hmac key (dir ++ [last])) : last = i.stateDirName := by
  rcases inUse_concat hq with ⟨hdir, -⟩ | ⟨hdir, -⟩ | hdir | hdir
  · exact absurd (hdir ▸ List.prefix_rfl) (h.apart hthere (Or.inl rfl))
  · exact absurd (hdir ▸ List.prefix_rfl) (h.apart hthere (Or.inr (Or.inl rfl)))
  · exact (List.append_singleton_inj.mp hdir).2
  · exact absurd hdir (h.apart hthere (Or.inr (Or.inr rfl)))

theorem inUse_ne_obag (hq : InUse inst i hmac key q) : q ≠ inst.self.dropLast ++ ["obag"] := by
  rintro rfl
  exact h.ne_of_length (by simp [Identity.names]) (by decide)
    (h.eq_of_inUse_concat inst.there_installDir hq).symm

theorem not_dataDir_above {rest : Path} : ¬dataDir inst i <+: "etc" :: rest := by
  intro hprefix
  have hallowed := h.allowed
  obtain ⟨tail, htail⟩ := hprefix
  unfold dataDir at htail
  cases hdir : inst.cfg.stateDir.dropLast ++ [i.stateDirName] with
  | nil => simp at hdir
  | cons head rest' =>
    rw [hdir] at htail hallowed
    obtain rfl := (List.cons.inj htail).1
    simp [validStateDir, blockedDirs] at hallowed

theorem inUse_ne_unit (manager : Manager) (service : String) (hq : InUse inst i hmac key q) :
    q ≠ serviceUnitPath manager service := by
  rintro rfl
  -- The directory of the units is none of the new directories, whose names are ten characters long.
  have hunit : ∃ start last name, serviceUnitPath manager service = ("etc" :: start ++ [last]) ++ [name] ∧
      last.toList.length ≠ 10 := by
    cases manager with
    | systemd => exact ⟨["systemd"], "system", service ++ ".service", rfl, by decide⟩
    | openrc => exact ⟨[], "init.d", service, rfl, by decide⟩
  obtain ⟨start, last, name, hunit, hlast⟩ := hunit
  rw [hunit] at hq
  rcases inUse_concat hq with ⟨hdir, -⟩ | ⟨hdir, -⟩ | hdir | hdir
  · exact h.ne_of_length (by simp [Identity.names]) hlast (List.append_singleton_inj.mp hdir).2.symm
  · exact h.ne_of_length (by simp [Identity.names]) hlast (List.append_singleton_inj.mp hdir).2.symm
  · have hprefix : dataDir inst i <+: "etc" :: (start ++ [last] ++ [name]) := hdir ▸ List.prefix_refl _
    exact h.not_dataDir_above hprefix
  · exact h.not_dataDir_above hdir

theorem names_ne : i.stateDirName ≠ i.configDirName ∧ i.stateDirName ≠ i.configFileName ∧
    i.configFileName ∉ [i.agentName, i.coreName, i.realmName] ∧ i.configFileName ≠ i.keyFileName := by
  have hdistinct := h.distinct
  simp only [Identity.names, List.nodup_cons, List.mem_cons, List.not_mem_nil, or_false,
    not_or] at hdistinct ⊢
  simp only [ne_eq, eq_comm] at hdistinct ⊢
  tauto

theorem not_dataDir_above_confDir : ¬dataDir inst i <+: confDir inst i := by
  intro hprefix
  rcases List.prefix_concat_iff.mp hprefix with heq | hprefix
  · exact h.names_ne.1 (List.append_singleton_inj.mp heq).2
  · exact h.apart inst.there_configParent (Or.inr (Or.inr rfl)) hprefix

theorem inUse_not_above_confDir (hq : InUse inst i hmac key q) : ¬q <+: confDir inst i := by
  intro hprefix
  have hthere := inst.there_configParent
  rcases List.prefix_concat_iff.mp hprefix with rfl | hprefix
  · exact h.names_ne.1 (h.eq_of_inUse_concat hthere hq).symm
  · exact h.not_inUse_of_there hthere hq hprefix

theorem inUse_ne_config (hq : InUse inst i hmac key q) : q ≠ confDir inst i ++ [i.configFileName] := by
  rintro rfl
  obtain ⟨-, hstate, hbinaries, hkey⟩ := h.names_ne
  rcases inUse_concat hq with ⟨-, hlast⟩ | ⟨-, hlast⟩ | hdir | hdir
  · exact hbinaries hlast
  · simp only [List.mem_cons, List.not_mem_nil, or_false] at hlast
    rcases hlast with hlast | hlast | hlast
    · exact h.ne_of_length (by simp [Identity.names]) (by decide) hlast
    · exact hkey hlast
    · exact h.physicalName_ne (by simp [Identity.names]) hlast
  · exact hstate (List.append_singleton_inj.mp hdir).2.symm
  · exact h.not_dataDir_above_confDir hdir

end Fresh

/-! ## The clean-up after enabling -/

section Handover

variable {hmac : Hmac} {key : Key} {inst : Installation} {i : Identity}

def Installation.next (inst : Installation) (i : Identity) (key : Key) :
    Config := inst.cfg.hidden inst.self i key

def Installation.newSelf (inst : Installation) (i : Identity) :
    Path := (inst.cfg.hiddenLayout inst.self i).agentBinary

def Installation.settings (inst : Installation) (i : Identity) :
    Settings := inst.cfg.hiddenSettings inst.self i

def Installation.previous (inst : Installation) : PreviousLayout := inst.cfg.standardLayout inst.self

theorem next_configPath : (inst.next i key).configPath = Fresh.confDir inst i ++ [i.configFileName] := by
  simp [Installation.next, Config.hidden, Config.hiddenLayout, resolveLayout, Fresh.confDir]

theorem next_configDir : (inst.next i key).configPath.dropLast = Fresh.confDir inst i := by
  rw [next_configPath, List.dropLast_concat]

theorem settings_keyPath : (inst.settings i).keyPath = Fresh.confDir inst i ++ [i.keyFileName] := by
  simp [Installation.settings, Config.hiddenSettings, Config.hiddenLayout, resolveLayout, Fresh.confDir]

theorem newSelf_eq : inst.newSelf i = Fresh.binDir inst i ++ [i.agentName] := rfl

theorem next_realmBinary : (inst.next i key).realmBinary (inst.newSelf i)
    = Fresh.binDir inst i ++ [i.realmName] := by
  rw [newSelf_eq]
  unfold Config.realmBinary
  rw [List.dropLast_concat]
  rfl

theorem current_iff {p : Path} :
    Current hmac (inst.newSelf i) (inst.next i key) (inst.settings i) key p ↔
      Fresh.InUse inst i hmac key p := by
  unfold Current Fresh.InUse fixedFiles localSecurityPath
  rw [next_configDir, next_realmBinary, settings_keyPath]
  rfl

/-- The clean-up removes at `q`: a recorded path is there or above, and is neither a current path
nor the root. -/
def Removes (inst : Installation) (i : Identity) (key : Key) (q : Path) : Prop :=
  ∃ p, (some p ∈ inst.previous.recorded ∨ p = inst.previous.configDir) ∧
    p ∉ (inst.next i key).currentPaths (inst.newSelf i) (inst.settings i) ∧ p ≠ [] ∧ p <+: q

theorem previous_configDir_ne : inst.previous.configDir ≠ (inst.next i key).configPath.dropLast := by
  rw [next_configDir]
  intro heq
  have hlength := congrArg List.length heq
  simp [Fresh.confDir, Installation.previous, Config.standardLayout, Config.leaving] at hlength

def withoutRecorded (manager : Manager) (inst : Installation) (i : Identity) (key : Key) (t : Tree) : Tree :=
  let keep := (inst.next i key).currentPaths (inst.newSelf i) (inst.settings i)
  removeIfNotIn keep (inst.previous.recorded.foldl (removeIfNotIn keep)
    (cleanupUnits manager (inst.next i key) inst.previous t)) (some inst.previous.configDir)

theorem lookup_withoutRecorded {manager : Manager} {n : Node} :
    (withoutRecorded manager inst i key t).lookup q = some n ↔
      (cleanupUnits manager (inst.next i key) inst.previous t).lookup q = some n ∧ ¬Removes inst i key q := by
  unfold withoutRecorded
  dsimp only
  rw [lookup_removeIfNotIn, lookup_foldl_removeIfNotIn, and_assoc]
  refine and_congr_right fun _ => ⟨?_, ?_⟩
  · rintro ⟨hrecorded, hconfig⟩ ⟨p, hp | rfl, hkeep, hroot, hprefix⟩
    · exact hrecorded p hp hkeep hroot hprefix
    · exact hconfig _ rfl hkeep hroot hprefix
  · intro h
    refine ⟨fun p hp hkeep hroot hprefix => h ⟨p, Or.inl hp, hkeep, hroot, hprefix⟩, ?_⟩
    rintro r ⟨⟩ hkeep hroot hprefix
    exact h ⟨_, Or.inr rfl, hkeep, hroot, hprefix⟩

theorem cleanupFiles_eq (manager : Manager) (t : Tree) :
    cleanupFiles manager (inst.newSelf i) (inst.next i key) (inst.settings i) inst.previous t =
      cleanupInstallDir (inst.newSelf i) inst.previous (withoutRecorded manager inst i key t) := by
  unfold cleanupFiles withoutRecorded
  dsimp only
  rw [if_neg previous_configDir_ne]

theorem lookup_cleanupFiles (h : Fresh inst i) (manager : Manager) {n : Node}
    (hq : Fresh.InUse inst i hmac key q) :
    (cleanupFiles manager (inst.newSelf i) (inst.next i key)
      (inst.settings i) inst.previous t).lookup q = some n ↔
      t.lookup q = some n ∧ ¬Removes inst i key q := by
  have hdir : q ≠ inst.previous.installDir := by
    rintro rfl
    exact h.not_inUse_of_there inst.there_installDir hq List.prefix_rfl
  rw [cleanupFiles_eq, lookup_cleanupInstallDir (h.inUse_ne_obag hq) hdir, lookup_withoutRecorded,
    lookup_cleanupUnits fun service => h.inUse_ne_unit manager service hq]

theorem lookup_cleanupFiles_of_removes (manager : Manager) (hq : Removes inst i key q) :
    (cleanupFiles manager (inst.newSelf i) (inst.next i key)
      (inst.settings i) inst.previous t).lookup q = none := by
  rw [cleanupFiles_eq, Option.eq_none_iff_forall_ne_some]
  intro n hn
  exact (lookup_withoutRecorded.mp (lookup_of_cleanupInstallDir hn)).2 hq

theorem inUse_of_mem_currentPaths (hmac : Hmac) {p : Path}
    (hp : p ∈ (inst.next i key).currentPaths (inst.newSelf i) (inst.settings i)) :
    Fresh.InUse inst i hmac key p ∨ p = (inst.next i key).configPath := by
  unfold Config.currentPaths localSecurityPath at hp
  rw [next_configDir, next_realmBinary, settings_keyPath] at hp
  simp only [List.mem_cons, List.not_mem_nil, or_false] at hp
  unfold Fresh.InUse
  rcases hp with rfl | rfl | rfl | rfl | rfl | rfl | rfl
  · exact Or.inl (Or.inl (by simp [newSelf_eq]))
  · exact Or.inl
      (Or.inl
      (by simp [Installation.next, Config.hidden, Config.hiddenLayout, resolveLayout,
      Fresh.binDir]))
  · exact Or.inl (Or.inl (by simp))
  · exact Or.inr rfl
  · exact Or.inl (Or.inr List.prefix_rfl)
  · exact Or.inl (Or.inl (by simp))
  · exact Or.inl (Or.inl (by simp))

theorem aboveCurrent_of_mem_currentPaths {p : Path}
    (hp : p ∈ (inst.next i key).currentPaths (inst.newSelf i) (inst.settings i)) :
    AboveCurrent hmac (inst.newSelf i) (inst.next i key) (inst.settings i) key p := by
  rcases inUse_of_mem_currentPaths hmac hp with hp | rfl
  · exact Or.inr ⟨p, current_iff.mpr hp, List.prefix_rfl⟩
  · exact Or.inl List.prefix_rfl

theorem removes_of_not_aboveCurrent {p q : Path}
    (hp : some p ∈ inst.previous.recorded ∨ p = inst.previous.configDir)
    (habove : ¬AboveCurrent hmac (inst.newSelf i) (inst.next i key) (inst.settings i) key p) (hq : p <+: q) :
    Removes inst i key q := by
  refine ⟨p, hp, fun hkeep => habove (aboveCurrent_of_mem_currentPaths hkeep), ?_, hq⟩
  rintro rfl
  exact habove (Or.inl List.nil_prefix)

end Handover

/-! ## The clean-up and the configuration it saves -/

section Reconcile

variable {aead : Aead} {hmac : Hmac} {manager : Manager} {encode : Config → Bytes}
  {stops : String → Bool} {nonce : Nonce}
  {key : Key} {inst : Installation} {i : Identity} {stored : Bytes} {before : Tree}

theorem reconcile_eq (h : Fresh inst i) (hstops : ∀ service, stops service = true)
    (hstored : encrypt aead key nonce (encode ((inst.next i key).settled (inst.settings i))) = some stored) :
    (reconcileStealthSwitchCleanup aead manager encode stops nonce (inst.newSelf i)
      (inst.next i key) before).1 =
      ((cleanupFiles manager (inst.newSelf i) (inst.next i key)
        (inst.settings i) inst.previous before).mkdirAll
        (Fresh.confDir inst i)).insert (inst.next i key).configPath (.file stored) := by
  have hself : inst.previous.agentBinary ≠ inst.newSelf i := by
    intro heq
    have hself : inst.self = Fresh.binDir inst i ++ [i.agentName] := heq
    exact h.apart inst.hasAgent (Or.inl rfl) (hself ▸ List.prefix_append _ _)
  have hsave : ∀ t, saveConfig aead encode (inst.next i key).stealthKey nonce
      ((inst.next i key).settled (inst.settings i)) t =
        some ((t.mkdirAll (Fresh.confDir inst i)).insert (inst.next i key).configPath (.file stored)) := by
    intro t
    unfold saveConfig
    have hkey : (inst.next i key).stealthKey = some key := rfl
    have hpath : ((inst.next i key).settled (inst.settings i)).configPath
        = (inst.next i key).configPath := rfl
    rw [hkey]
    dsimp only
    rw [hstored, hpath, next_configDir, Option.map_some]
  unfold reconcileStealthSwitchCleanup
  have hsettings : (inst.next i key).stealth = some (inst.settings i) := rfl
  have hprevious : (inst.settings i).previous = some inst.previous := rfl
  rw [hsettings]
  dsimp only
  rw [hprevious]
  dsimp only
  rw [if_neg hself, if_neg (by simp [hstops]), hsave]

theorem lookup_saved_of_inUse (h : Fresh inst i) (hq : Fresh.InUse inst i hmac key q) :
    ((t.mkdirAll (Fresh.confDir inst i)).insert (inst.next i key).configPath (.file stored)).lookup
      q = t.lookup q := by
  rw [AList.lookup_insert_ne (next_configPath ▸ h.inUse_ne_config hq),
    Tree.lookup_mkdirAll (h.inUse_not_above_confDir hq)]

theorem lookup_saved_of_not_aboveCurrent {p q : Path}
    (habove : ¬AboveCurrent hmac (inst.newSelf i) (inst.next i key) (inst.settings i) key p) (hpq : p <+: q) :
    ((t.mkdirAll (Fresh.confDir inst i)).insert (inst.next i key).configPath (.file stored)).lookup
      q = t.lookup q := by
  have hconfig : q ≠ (inst.next i key).configPath := by
    rintro rfl
    exact habove (Or.inl hpq)
  have hdir : ¬q <+: Fresh.confDir inst i := by
    intro hq
    have hparent : Fresh.confDir inst i <+: (inst.next i key).configPath :=
        next_configPath ▸ List.prefix_append _ _
    exact habove (Or.inl (hpq.trans (hq.trans hparent)))
  rw [AList.lookup_insert_ne hconfig, Tree.lookup_mkdirAll hdir]

theorem lookup_installDir (habove : ¬AboveCurrent hmac (inst.newSelf i) (inst.next i key)
      (inst.settings i) key inst.previous.installDir)
    (honly : ∀ q n, before.lookup q = some n → inst.previous.installDir <+: q → q ≠ inst.previous.installDir →
      Removes inst i key q ∨ (q = inst.previous.installDir ++ ["obag"] ∧
        n = .link inst.previous.agentBinary)) :
    (cleanupFiles manager (inst.newSelf i) (inst.next i key) (inst.settings i) inst.previous before).lookup
      inst.previous.installDir = none := by
  rw [cleanupFiles_eq]
  -- What is left in the directory when its turn comes is the link.
  have hleft : ∀ q n, (withoutRecorded manager inst i key before).lookup q = some n →
      inst.previous.installDir <+: q → q ≠ inst.previous.installDir →
      q = inst.previous.installDir ++ ["obag"] ∧ n = .link inst.previous.agentBinary := by
    intro q n hn hq hne
    obtain ⟨hn, hremoves⟩ := lookup_withoutRecorded.mp hn
    exact (honly q n (lookup_of_cleanupUnits hn) hq hne).resolve_left hremoves
  unfold cleanupInstallDir
  dsimp only
  have hother : ¬(inst.previous.installDir = [] ∨ inst.previous.installDir = (inst.newSelf i).dropLast) := by
    rintro (hroot | hbin)
    · exact habove (hroot ▸ Or.inl List.nil_prefix)
    · refine habove (Or.inr ⟨inst.newSelf i, Or.inl List.mem_cons_self, ?_⟩)
      exact hbin ▸ List.dropLast_prefix _
  rw [if_neg hother]
  refine Tree.lookup_remove_self fun q n hn hq => ?_
  by_contra hne
  split_ifs at hn with hlink
  · obtain ⟨rfl, -⟩ := hleft q n (Tree.lookup_of_remove hn) hq hne
    rw [Tree.lookup_remove_self] at hn
    · cases hn
    · intro r m hr hprefix
      refine (hleft r m hr (hq.trans hprefix) ?_).1
      rintro rfl
      have hlength := hprefix.length_le
      rw [List.length_append, List.length_singleton] at hlength
      omega
  · obtain ⟨rfl, rfl⟩ := hleft q n hn hq hne
    exact hlink hn

/-- **The clean-up after enabling.** Every later start of the new agent cleans up without harm to
the layout in use exactly when the configuration was a file of the root directory, and no recorded
path is above something of the layout. -/
theorem cleanup_keeps_layout_iff {draw : Draw} {t : Tree} {next : Config}
    (henable : enableStealth aead hmac manager encode draw inst.self inst.cfg inst.tree = some (t, next))
    (hkey : (before.lookup (inst.settings draw.identity).keyPath).isSome)
    (hstops : ∀ service, stops service = true)
    (hstored : encrypt aead draw.key nonce (encode (next.settled (inst.settings draw.identity)))
      = some stored) :
    LayoutKept hmac draw.key (inst.newSelf draw.identity) next
      (inst.settings draw.identity) inst.previous stored before
        (reconcileStealthSwitchCleanup aead manager encode stops nonce
          (inst.newSelf draw.identity) next before).1 ↔
      inst.cfg.configPath.dropLast = [] ∧
        ∀ p, some p ∈ inst.previous.recorded → p ≠ [] →
          p ∉ next.currentPaths (inst.newSelf draw.identity) (inst.settings draw.identity) →
          ∀ q, Current hmac (inst.newSelf draw.identity) next (inst.settings draw.identity) draw.key q →
            (before.lookup q).isSome → ¬p <+: q := by
  obtain ⟨rfl, h⟩ := fresh_of_enable henable
  rw [show inst.cfg.hidden inst.self draw.identity draw.key
    = inst.next draw.identity draw.key from rfl] at hstored ⊢
  rw [reconcile_eq h hstops hstored]
  constructor
  · rintro ⟨hfiles, -, -, -⟩
    -- What the clean-up keeps it does not remove.
    have hclear : ∀ q, Current hmac (inst.newSelf draw.identity) (inst.next draw.identity draw.key)
        (inst.settings draw.identity) draw.key q → (before.lookup q).isSome →
          ¬Removes inst draw.identity draw.key q := by
      intro q hq hsome
      obtain ⟨n, hn⟩ := Option.isSome_iff_exists.mp hsome
      have hafter := (hfiles q hq).trans hn
      rw [lookup_saved_of_inUse h (current_iff.mp hq)] at hafter
      exact ((lookup_cleanupFiles h manager (current_iff.mp hq)).mp hafter).2
    refine ⟨?_, fun p hp hroot hkeep q hq hsome hpq => hclear q hq hsome ⟨p, Or.inl hp, hkeep, hroot, hpq⟩⟩
    by_contra hroot
    -- The key file is inside the recorded configuration directory.
    refine hclear (inst.settings draw.identity).keyPath (Or.inl (by simp [fixedFiles])) hkey
      ⟨inst.previous.configDir, Or.inr rfl, fun hkeep => ?_, hroot, ?_⟩
    · have hthere : (inst.tree.lookup inst.previous.configDir).isSome := inst.there_configParent
      rcases inUse_of_mem_currentPaths hmac hkeep with hin | hconfig
      · exact h.not_inUse_of_there hthere hin List.prefix_rfl
      · refine h.apart hthere (Or.inr (Or.inl rfl)) ?_
        rw [hconfig, next_configPath]
        exact List.prefix_append _ _
    · rw [settings_keyPath, Fresh.confDir, List.append_assoc]
      exact List.prefix_append _ _
  · rintro ⟨hroot, hclear⟩
    have hremoves : ∀ q, Current hmac (inst.newSelf draw.identity) (inst.next draw.identity draw.key)
        (inst.settings draw.identity) draw.key q → (before.lookup q).isSome →
          ¬Removes inst draw.identity draw.key q := by
      rintro q hq hsome ⟨p, hp | rfl, hkeep, hne, hpq⟩
      · exact hclear p hp hne hkeep q hq hsome hpq
      · exact hne hroot
    refine ⟨fun q hq => ?_, AList.lookup_insert _, fun p hp habove q hpq => ?_, fun habove honly => ?_⟩
    · rw [lookup_saved_of_inUse h (current_iff.mp hq)]
      refine Option.ext fun n => ?_
      rw [lookup_cleanupFiles h manager (current_iff.mp hq)]
      exact ⟨And.left, fun hn => ⟨hn, hremoves q hq (hn ▸ rfl)⟩⟩
    · rw [lookup_saved_of_not_aboveCurrent habove hpq]
      exact lookup_cleanupFiles_of_removes manager (removes_of_not_aboveCurrent hp habove hpq)
    · rw [lookup_saved_of_not_aboveCurrent habove List.prefix_rfl]
      refine lookup_installDir habove fun q n hn hq hne => ?_
      rcases honly q n hn hq hne with ⟨p, hp, hpq, habove⟩ | hlink
      · exact Or.inl (removes_of_not_aboveCurrent (Or.inl hp) habove hpq)
      · exact Or.inr hlink

end Reconcile

/-! ## Two installations -/

theorem closed_of_inits {t : Tree} (h : ∀ e ∈ t.entries, ∀ p ∈ e.1.inits, (t.lookup p).isSome) :
    ∀ q, (t.lookup q).isSome → ∀ p, p <+: q → (t.lookup p).isSome := by
  intro q hq p hp
  obtain ⟨n, hn⟩ := Option.isSome_iff_exists.mp hq
  exact h ⟨q, n⟩ (AList.mem_lookup_iff.mp hn) p ((List.mem_inits p q).mpr hp)

def sampleTree (configPath : Path) : Tree :=
  [configPath, ["opt", "oboard", "oboard-agent"], ["opt", "oboard", "oboard-sb"],
    ["opt", "oboard", "oboard-realm"],
    ["var", "lib", "oboard-agent", "state.json"]].foldl
      (fun t p => (t.mkdirAll p.dropLast).insert p (.file [123, 125])) ∅

def sampleDraw : Draw where
  identity := sampleIdentity
  key := plainKey
  nonce := fun _ => plainNonce

def usualInstallation : Installation where
  self := ["opt", "oboard", "oboard-agent"]
  cfg := sampleConfig ["etc", "oboard-agent", "config.json"]
  tree := sampleTree ["etc", "oboard-agent", "config.json"]
  closed := closed_of_inits (by decide +kernel)
  hasConfig := by decide +kernel
  hasAgent := by decide +kernel

def rootInstallation : Installation where
  self := ["opt", "oboard", "oboard-agent"]
  cfg := sampleConfig ["config.json"]
  tree := sampleTree ["config.json"]
  closed := closed_of_inits (by decide +kernel)
  hasConfig := by decide +kernel
  hasAgent := by decide +kernel

def switched (inst : Installation) : Option (Tree × Config) :=
  enableStealth tagOnly indexHmac .systemd (fun _ => [123, 125]) sampleDraw inst.self inst.cfg inst.tree

theorem cleanup_keeps_layout_of_root :
    ∃ t next stored, switched rootInstallation = some (t, next) ∧
      LayoutKept indexHmac sampleDraw.key (rootInstallation.newSelf sampleDraw.identity) next
        (rootInstallation.settings sampleDraw.identity) rootInstallation.previous stored t
        (reconcileStealthSwitchCleanup tagOnly .systemd (fun _ => [123, 125]) (fun _ => true) plainNonce
          (rootInstallation.newSelf sampleDraw.identity) next t).1 := by
  have hkey : (switched rootInstallation).any fun r =>
      (r.1.lookup (rootInstallation.settings sampleDraw.identity).keyPath).isSome := by decide +kernel
  obtain ⟨⟨t, next⟩, henable, hkey⟩ := (Option.any_eq_true _ _).mp hkey
  obtain ⟨stored, hstored⟩ : ∃ stored, encrypt tagOnly sampleDraw.key plainNonce [123, 125] = some stored :=
    Option.isSome_iff_exists.mp (by decide +kernel)
  refine ⟨t, next, stored, henable,
    (cleanup_keeps_layout_iff henable hkey (fun _ => rfl) hstored).mpr ⟨rfl, ?_⟩⟩
  obtain ⟨rfl, -⟩ := fresh_of_enable henable
  -- No recorded path is above a fixed file, and none is above the state directory or in it.
  intro p hp hroot hkeep q hq hsome hpq
  have hfixed : ∀ p ∈ rootInstallation.previous.recorded.filterMap id, ∀ q ∈ fixedFiles indexHmac
      (rootInstallation.newSelf sampleDraw.identity)
        (rootInstallation.next sampleDraw.identity sampleDraw.key)
      (rootInstallation.settings sampleDraw.identity) sampleDraw.key, ¬p <+: q := by decide +kernel
  have hstate : ∀ p ∈ rootInstallation.previous.recorded.filterMap id,
      ¬p <+: (rootInstallation.next sampleDraw.identity sampleDraw.key).stateDir ∧
        ¬(rootInstallation.next sampleDraw.identity sampleDraw.key).stateDir <+: p := by decide +kernel
  have hmem : p ∈ rootInstallation.previous.recorded.filterMap id := List.mem_filterMap.mpr ⟨some p, hp, rfl⟩
  rcases hq with hq | hq
  · exact hfixed p hmem q hq hpq
  · rcases List.prefix_or_prefix_of_prefix hpq hq with hpq | hpq
    · exact (hstate p hmem).1 hpq
    · exact (hstate p hmem).2 hpq

/-- The clean-up of a usual installation deletes the key file of the layout in use. -/
theorem cleanup_loses_key :
    ∃ t next, switched usualInstallation = some (t, next) ∧
      (t.lookup (usualInstallation.settings sampleDraw.identity).keyPath).isSome ∧
      (reconcileStealthSwitchCleanup tagOnly .systemd (fun _ => [123, 125]) (fun _ => true) plainNonce
        (usualInstallation.newSelf sampleDraw.identity) next t).1.lookup
          (usualInstallation.settings sampleDraw.identity).keyPath = none := by
  have hrun : (switched usualInstallation).any fun r =>
      (r.1.lookup (usualInstallation.settings sampleDraw.identity).keyPath).isSome &&
        ((reconcileStealthSwitchCleanup tagOnly .systemd (fun _ => [123, 125]) (fun _ => true) plainNonce
          (usualInstallation.newSelf sampleDraw.identity) r.2 r.1).1.lookup
            (usualInstallation.settings sampleDraw.identity).keyPath).isNone := by decide +kernel
  obtain ⟨⟨t, next⟩, henable, hrun⟩ := (Option.any_eq_true _ _).mp hrun
  rw [Bool.and_eq_true, Option.isNone_iff_eq_none] at hrun
  exact ⟨t, next, henable, hrun⟩

end OboardAgent.Stealth
