import OboardAgent.Lib.FileTree
import OboardAgent.Stealth.Envelope

/-!
# The two layouts of an installation

`internal/stealth/identity.go`, and the configurations that `enableStealthLocked` and
`disableStealthLocked` of `internal/agent/stealth.go` build. A hidden layout has random names below
the parents of the standard one; the configuration of either records the layout that was left
behind, for the clean-up, and the standard layout it all began with.

Paths are absolute and cleaned, and hold no links.
-/

namespace OboardAgent.Stealth

open Files (Path Node Tree)

/-! ## Names -/

/-- `ValidName`: a lower-case letter and nine lower-case letters or digits. -/
def validName (name : String) : Bool :=
  match name.toList with
  | [] => false
  | c :: rest => c.isLower && rest.length = 9 && rest.all fun c => c.isLower || c.isDigit

structure Identity where
  agentName : String
  installDirName : String
  coreName : String
  realmName : String
  configDirName : String
  stateDirName : String
  agentLogName : String
  coreLogName : String
  socketName : String
  sshdName : String
  sshName : String
  stagingPrefix : String
  configFileName : String
  keyFileName : String
  deriving DecidableEq

namespace Identity

def names (i : Identity) : List String :=
  [i.agentName, i.installDirName, i.coreName, i.realmName, i.configDirName, i.stateDirName,
    i.agentLogName, i.coreLogName, i.socketName, i.sshdName, i.sshName, i.stagingPrefix,
    i.configFileName, i.keyFileName]

def validate (i : Identity) : Bool := i.names.all validName && decide i.names.Nodup

end Identity

inductive Manager where
  | systemd
  | openrc
  deriving DecidableEq

def Manager.suffix : Manager → String
  | .systemd => ".service"
  | .openrc => ""

/-! ## Paths -/

structure Layout where
  agentBinary : Path
  coreBinary : Path
  realmBinary : Path
  agentService : String
  coreService : String
  configDir : Path
  stateDir : Path
  configPath : Path
  keyPath : Path
  agentLog : Path
  coreLog : Path
  coreSocket : Path

def resolveLayout (i : Identity) (installDir configParent stateParent : Path) : Layout where
  agentBinary := installDir ++ [i.agentName]
  coreBinary := installDir ++ [i.coreName]
  realmBinary := installDir ++ [i.realmName]
  agentService := i.agentName
  coreService := i.coreName
  configDir := configParent ++ [i.configDirName]
  stateDir := stateParent ++ [i.stateDirName]
  configPath := configParent ++ [i.configDirName, i.configFileName]
  keyPath := configParent ++ [i.configDirName, i.keyFileName]
  agentLog := ["var", "log", i.agentLogName ++ ".log"]
  coreLog := ["var", "log", i.coreLogName ++ ".log"]
  coreSocket := ["run", i.socketName ++ ".sock"]

/-- `PreviousLayout`; an empty path is `none`. -/
structure PreviousLayout where
  installDir : Path
  agentBinary : Path
  coreBinary : Path
  realmBinary : Path
  agentService : String
  coreService : String
  configDir : Path
  configPath : Path
  keyPath : Option Path
  stateDir : Path
  agentLog : Path
  coreLog : Path
  coreSocket : Path

structure Settings where
  identity : Identity
  keyPath : Path
  previous : Option PreviousLayout
  origin : Option PreviousLayout

/-- The fields of the agent's configuration that say where things are. -/
structure Config where
  configPath : Path
  stateDir : Path
  coreBinary : Path
  coreService : String
  agentService : String
  coreSocket : Option Path
  stealth : Option Settings
  stealthKey : Option Key

def coreAPISocket : Path := ["run", "oboard-sb.sock"]

def realmProcessName : String := "oboard-realm"

namespace Config

variable (cfg : Config)

def stealthOn : Bool := cfg.stealthKey.isSome

/-- `agentService`. -/
def agentServiceName : String := if cfg.agentService = "" then "oboard-agent" else cfg.agentService

/-- `coreService`. -/
def coreServiceName : String := if cfg.coreService = "" then "oboard-sb" else cfg.coreService

def agentLogPath : Path := ["var", "log", cfg.agentServiceName ++ ".log"]

def coreLogPath : Path := ["var", "log", cfg.coreServiceName ++ ".log"]

def coreSocketOrDefault : Path := cfg.coreSocket.getD coreAPISocket

variable (self : Path)

/-- `realmBinary`, of the agent that runs from `self`. -/
def realmBinary : Path :=
  match cfg.stealth with
  | some settings =>
    self.dropLast ++ [if cfg.stealthOn then settings.identity.realmName else realmProcessName]
  | none => self.dropLast ++ [realmProcessName]

def leaving (agentService coreService : String) (keyPath : Option Path) : PreviousLayout where
  installDir := self.dropLast
  agentBinary := self
  coreBinary := cfg.coreBinary
  realmBinary := cfg.realmBinary self
  agentService := agentService
  coreService := coreService
  configDir := cfg.configPath.dropLast
  configPath := cfg.configPath
  keyPath := keyPath
  stateDir := cfg.stateDir
  agentLog := cfg.agentLogPath
  coreLog := cfg.coreLogPath
  coreSocket := cfg.coreSocketOrDefault

def hiddenLayout (i : Identity) : Layout :=
  resolveLayout i (self.dropLast.dropLast ++ [i.installDirName]) cfg.configPath.dropLast cfg.stateDir.dropLast

/-- The record of the standard layout that `enableStealthLocked` makes. -/
def standardLayout : PreviousLayout := cfg.leaving self "oboard-agent" cfg.coreServiceName none

def hiddenSettings (i : Identity) : Settings where
  identity := i
  keyPath := (cfg.hiddenLayout self i).keyPath
  previous := some (cfg.standardLayout self)
  origin := some (cfg.standardLayout self)

/-- The configuration that `enableStealthLocked` ends with. -/
def hidden (i : Identity) (key : Key) : Config :=
  let layout := cfg.hiddenLayout self i
  { configPath := layout.configPath
    stateDir := layout.stateDir
    coreBinary := layout.coreBinary
    coreService := layout.coreService
    agentService := layout.agentService
    coreSocket := some layout.coreSocket
    stealth := some (cfg.hiddenSettings self i)
    stealthKey := some key }

/-- The standard paths that `disableStealthLocked` restores: those of the origin, or the
defaults. -/
def originPaths (settings : Settings) : Path × Path × Path :=
  match settings.origin with
  | some origin => (origin.configPath, origin.stateDir, origin.coreBinary)
  | none => (["etc", "oboard-agent", "config.json"], ["var", "lib", "oboard-agent"],
      self.dropLast ++ ["oboard-sb"])

/-- The configuration that `disableStealthLocked` ends with. -/
def standard (settings : Settings) : Config :=
  let (configPath, stateDir, coreBinary) := originPaths self settings
  { configPath := configPath
    stateDir := stateDir
    coreBinary := coreBinary
    coreService := "oboard-sb"
    agentService := "oboard-agent"
    coreSocket := none
    stealth := some { settings with
      previous := some (cfg.leaving self cfg.agentService cfg.coreService (some settings.keyPath)) }
    stealthKey := none }

/-- The configuration without the record of the previous layout. -/
def settled (settings : Settings) : Config := { cfg with stealth := some { settings with previous := none } }

end Config

/-! ## A sample -/

def sampleIdentity : Identity where
  agentName := "aaaaaaaaaa"
  installDirName := "bbbbbbbbbb"
  coreName := "cccccccccc"
  realmName := "dddddddddd"
  configDirName := "eeeeeeeeee"
  stateDirName := "ffffffffff"
  agentLogName := "gggggggggg"
  coreLogName := "hhhhhhhhhh"
  socketName := "iiiiiiiiii"
  sshdName := "llllllllll"
  sshName := "mmmmmmmmmm"
  stagingPrefix := "nnnnnnnnnn"
  configFileName := "jjjjjjjjjj"
  keyFileName := "kkkkkkkkkk"

def sampleConfig (configPath : Path) : Config where
  configPath := configPath
  stateDir := ["var", "lib", "oboard-agent"]
  coreBinary := ["opt", "oboard", "oboard-sb"]
  coreService := "oboard-sb"
  agentService := "oboard-agent"
  coreSocket := none
  stealth := none
  stealthKey := none

end OboardAgent.Stealth
