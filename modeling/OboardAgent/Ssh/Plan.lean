import OboardAgent.Policies.Wire
import OboardAgent.Lib.GoSlice

/-!
# SSH inbound plans

The plan of the agent's own SSH listeners (`internal/model/types.go`), its validation, and what a
running manager is compared with before a plan is applied (`internal/agent/ssh_inbounds.go`).

SHA-256 in hexadecimal and `net.ParseIP` are parameters. A Go map is visited in any order, which
shows in `checkDrift`: the order is a parameter of it.
-/

namespace OboardAgent.Ssh

open Policies (TrafficRuntimePolicy)
open GoStrings (trimSpace)

/-! ## The plan -/

structure SSHInboundUser where
  authorizationKey : String := ""
  userID : Int := 0
  username : String := ""
  password : String := ""
  deviceIDHash : String := ""
  credentialEpoch : Int := 0
  credentialStatus : String := ""
  pathID : Int := 0
  routeKind : String := ""
  outboundTag : String := ""
  routeInboundTag : String := ""
  routeAuthUser : String := ""
  enabled : Bool := false
deriving DecidableEq, Repr

structure SSHInbound where
  inboundID : Int := 0
  serverID : Int := 0
  name : String := ""
  listenIP : String := ""
  address : String := ""
  port : Int := 0
  enabled : Bool := false
  users : List SSHInboundUser := []
  policies : GoMap String TrafficRuntimePolicy := ∅

/-- `model.SSHInboundPlan`, as it is in a file. -/
structure SSHInboundPlan where
  version : Int := 0
  inbounds : List SSHInbound := []

def findInboundByID (inbounds : List SSHInbound) (id : Int) : SSHInbound :=
  (inbounds.find? fun inbound => inbound.inboundID = id).getD {}

/-! ## Validation -/

variable (value : String)

def validSSHInboundUsername : Bool :=
  0 < value.utf8ByteSize && value.utf8ByteSize ≤ 64 &&
    value.toList.all fun c =>
      ('a' ≤ c && c ≤ 'z') || ('A' ≤ c && c ≤ 'Z') || ('0' ≤ c && c ≤ '9') || c = '-' || c = '_' || c = '.'

/-- `^[A-Za-z0-9_-]{16,128}$`. -/
def sshDeviceIDHashPattern : Bool :=
  16 ≤ value.length && value.length ≤ 128 &&
    value.toList.all fun c =>
      ('a' ≤ c && c ≤ 'z') || ('A' ≤ c && c ≤ 'Z') || ('0' ≤ c && c ≤ '9') || c = '_' || c = '-'

/-- `^in-[1-9][0-9]*$`. -/
def sshRouteInboundPattern : Bool :=
  match value.toList with
  | 'i' :: 'n' :: '-' :: c :: digits =>
    ('1' ≤ c && c ≤ '9') && digits.all fun d => '0' ≤ d && d ≤ '9'
  | _ => false

/-- `^u[0-9a-f]{32}$`. -/
def sshRouteAuthUserPattern : Bool :=
  match value.toList with
  | 'u' :: digits =>
    digits.length = 32 && digits.all fun d => ('0' ≤ d && d ≤ '9') || ('a' ≤ d && d ≤ 'f')
  | _ => false

def credentialStatusOf (user : SSHInboundUser) : String :=
  if trimSpace user.credentialStatus = "" then "active" else trimSpace user.credentialStatus

def joinHostPort (host : String) (port : Int) : String :=
  if host.toList.contains ':' then "[" ++ host ++ "]:" ++ toString port else host ++ ":" ++ toString port

def listenIPOf (inbound : SSHInbound) : String :=
  if trimSpace inbound.listenIP = "" then "0.0.0.0" else trimSpace inbound.listenIP

def validateUser (inbound : SSHInbound) (seenUsers : List String) (user : SSHInboundUser) :
    Except String Unit := do
  let who := "SSH inbound user \"" ++ user.username ++ "\" "
  if user.userID ≤ 0 || !validSSHInboundUsername user.username then
    throw ("SSH inbound " ++ toString inbound.inboundID ++ " has an invalid user")
  if seenUsers.contains user.username then
    throw ("SSH inbound " ++ toString inbound.inboundID ++ " repeats username \"" ++ user.username ++ "\"")
  if trimSpace user.password = "" then throw (who ++ "has no password")
  if trimSpace user.deviceIDHash = "" then
    if user.credentialEpoch ≠ 0 then
      throw ("SSH inbound legacy user \"" ++ user.username ++ "\" has invalid device credential metadata")
  else if !sshDeviceIDHashPattern (trimSpace user.deviceIDHash) || user.credentialEpoch ≤ 0 then
    throw (who ++ "has invalid device credential metadata")
  if !(["active", "reject_new", "disconnect_and_reject", "revoked", "disabled"].contains
      (credentialStatusOf user)) then
    throw (who ++ "has invalid credential_status")
  if user.pathID ≤ 0 then throw (who ++ "has no path_id")
  if user.routeKind ≠ "kernel" || trimSpace user.outboundTag ≠ "" then
    throw (who ++ "has an invalid route_kind")
  if !sshRouteInboundPattern (trimSpace user.routeInboundTag) then
    throw (who ++ "has an invalid route inbound tag")
  if !sshRouteAuthUserPattern user.routeAuthUser || user.routeAuthUser ≠ user.username ||
      user.authorizationKey.utf8ByteSize ≠ 32 then
    throw (who ++ "has an invalid route auth user")

def validateUsers (inbound : SSHInbound) : List String → List SSHInboundUser → Except String Unit
  | _, [] => .ok ()
  | seen, user :: users =>
    if !user.enabled then validateUsers inbound seen users
    else do
      validateUser inbound seen user
      validateUsers inbound (user.username :: seen) users

def validateInbounds (parseIP : String → Bool) : List Int → List String → List SSHInbound → Except String Unit
  | _, _, [] => .ok ()
  | ids, endpoints, inbound :: rest => do
    let id := toString inbound.inboundID
    if inbound.inboundID ≤ 0 then throw "SSH inbound requires a valid inbound_id"
    if ids.contains inbound.inboundID then throw ("SSH inbound_id " ++ id ++ " is duplicated")
    if inbound.serverID ≤ 0 then throw ("SSH inbound " ++ id ++ " requires a valid server_id")
    if !inbound.enabled then validateInbounds parseIP (inbound.inboundID :: ids) endpoints rest
    else
      if inbound.port < 1 || inbound.port > 65535 then throw ("SSH inbound " ++ id ++ " has invalid port")
      if !parseIP (listenIPOf inbound) then throw ("SSH inbound " ++ id ++ " has invalid listen_ip")
      let endpoint := joinHostPort (listenIPOf inbound) inbound.port
      if endpoints.contains endpoint then throw ("SSH inbound listener " ++ endpoint ++ " is duplicated")
      validateUsers inbound [] inbound.users
      validateInbounds parseIP (inbound.inboundID :: ids) (endpoint :: endpoints) rest

def validateSSHInboundPlan (parseIP : String → Bool) (inbounds : List SSHInbound) : Except String Unit :=
  validateInbounds parseIP [] [] inbounds

def validateSSHInboundServerIDs (serverID : Int) (inbounds : List SSHInbound) : Except String Unit :=
  if serverID = 0 then .ok ()
  else
    match inbounds.find? fun inbound => inbound.serverID ≠ serverID with
    | none => .ok ()
    | some inbound =>
      .error ("SSH inbound " ++ toString inbound.inboundID ++ " belongs to server " ++
        toString inbound.serverID ++ ", enrolled server is " ++ toString serverID)

/-! ## The manager -/

structure SshInboundCredential where
  authorizationKey : String
  userID : Int
  password : String
  deviceIDHash : String
  credentialEpoch : Int
  credentialStatus : String
  pathID : Int
  routeKind : String
  routeInboundTag : String
  routeAuthUser : String
deriving DecidableEq, Repr

def credentialOf (user : SSHInboundUser) : SshInboundCredential where
  authorizationKey := user.authorizationKey
  userID := user.userID
  password := user.password
  deviceIDHash := trimSpace user.deviceIDHash
  credentialEpoch := user.credentialEpoch
  credentialStatus := credentialStatusOf user
  pathID := user.pathID
  routeKind := user.routeKind
  routeInboundTag := user.routeInboundTag
  routeAuthUser := user.routeAuthUser

def sshInboundCredentials (users : List SSHInboundUser) : GoMap String SshInboundCredential :=
  users.foldl (fun out user => if user.enabled then out.insert user.username (credentialOf user) else out) ∅

/-- `managedSSHInbound`: its plan, the address its listener reports, the credentials, and the policy
of each user's counter. -/
structure ManagedSSHInbound where
  plan : SSHInbound
  listener : Option (String × Int) := none
  auth : GoMap String SshInboundCredential
  counters : GoMap Int TrafficRuntimePolicy

structure SshInboundManager where
  listeners : GoMap Int ManagedSSHInbound := ∅

def policyIsFor (userID : Int) (key : String) (policy : TrafficRuntimePolicy) : Bool :=
  policy.userID = userID || key = "user:" ++ toString userID || key = toString userID

def sshInboundPolicyForUser (policies : GoMap String TrafficRuntimePolicy) (userID : Int) :
    Option TrafficRuntimePolicy :=
  (policies.entries.find? fun e => policyIsFor userID e.1 e.2).map fun e => { e.2 with userID := userID }

/-- `newManagedSSHInbound`. A counter without a policy has the zero policy, which limits nothing. -/
def newManagedSSHInbound (plan : SSHInbound) : ManagedSSHInbound where
  plan := plan
  auth := sshInboundCredentials plan.users
  counters :=
    plan.users.foldl (fun counters user =>
      if user.enabled then
        counters.insert user.userID ((sshInboundPolicyForUser plan.policies user.userID).getD {})
      else counters) ∅

/-! ## Drift -/

def boolText (b : Bool) : String := if b then "true" else "false"

variable (digest : String → String)

/-- `sshInboundUserFingerprint`; `digest` is SHA-256. -/
def sshInboundUserFingerprint (user : SSHInboundUser) : String :=
  String.intercalate "|"
    [user.authorizationKey, toString user.userID, user.username, digest user.password,
      trimSpace user.deviceIDHash, toString user.credentialEpoch, trimSpace user.credentialStatus,
      toString user.pathID, user.routeKind, user.routeInboundTag, user.routeAuthUser]

def sortStrings (l : List String) : List String := l.mergeSort fun a b => decide (a ≤ b)

def sshInboundFingerprint (inbound : SSHInbound) : String :=
  let users := (inbound.users.filter (·.enabled)).map (sshInboundUserFingerprint digest)
  digest (String.intercalate "|"
    [toString inbound.inboundID, trimSpace inbound.listenIP, toString inbound.port, boolText inbound.enabled,
      String.intercalate ";" (sortStrings users), String.intercalate "," (sortStrings inbound.policies.keys),
      toString users.length])

def desiredSSHInboundFingerprints (inbounds : List SSHInbound) : GoMap Int String :=
  inbounds.foldl (fun out inbound =>
    if inbound.enabled then out.insert inbound.inboundID (sshInboundFingerprint digest inbound) else out) ∅

def liveUser (username : String) (cred : SshInboundCredential) : SSHInboundUser where
  authorizationKey := cred.authorizationKey
  userID := cred.userID
  username := username
  password := cred.password
  deviceIDHash := cred.deviceIDHash
  credentialEpoch := cred.credentialEpoch
  credentialStatus := cred.credentialStatus
  pathID := cred.pathID
  routeKind := cred.routeKind
  routeInboundTag := cred.routeInboundTag
  routeAuthUser := cred.routeAuthUser
  enabled := true

def ManagedSSHInbound.live (inbound : ManagedSSHInbound) : SSHInbound :=
  { inbound.plan with
    users := inbound.auth.entries.map fun e => liveUser e.1 e.2
    listenIP := (inbound.listener.map (·.1)).getD inbound.plan.listenIP
    port := (inbound.listener.map (·.2)).getD inbound.plan.port }

/-- `liveSSHInboundFingerprints`. -/
def SshInboundManager.liveFingerprints (m : SshInboundManager) : GoMap Int String :=
  GoMap.filterMap (fun _ inbound => some (sshInboundFingerprint digest inbound.live)) m.listeners

structure SshDriftCheck where
  noDrift : Bool := false
  listenerDrift : Bool := false
  credentialDrift : Bool := false
  policyDrift : Bool := false
  missing : List Int := []
  extra : List Int := []
deriving DecidableEq, Repr

def SshInboundManager.compare (m : SshInboundManager) (inbounds : List SSHInbound)
    (desired live : GoMap Int String) (id : Int) : Option SshDriftCheck :=
  match desired.lookup id, live.lookup id with
  | none, _ => none
  | some _, none => some { listenerDrift := true, missing := [id] }
  | some desiredFP, some liveFP =>
    if desiredFP = liveFP then none
    else
      let wanted := findInboundByID inbounds id
      match m.listeners.lookup id with
      | none => some { credentialDrift := true }
      | some inbound =>
        if trimSpace wanted.listenIP ≠ trimSpace inbound.live.listenIP || wanted.port ≠ inbound.live.port then
          some { listenerDrift := true }
        else some { credentialDrift := true }

/-- `checkDrift`. The ids of the desired inbounds are visited in the given order, those it does not
name last. -/
def SshInboundManager.checkDrift (m : SshInboundManager) (digest : String → String) (order : List Int)
    (inbounds : List SSHInbound) : SshDriftCheck :=
  let desired := desiredSSHInboundFingerprints digest inbounds
  let live := m.liveFingerprints digest
  if desired.keys.isEmpty && live.keys.isEmpty then { noDrift := true }
  else if desired.keys.length ≠ live.keys.length then
    { listenerDrift := true
      missing := desired.keys.filter fun id => id ∉ live
      extra := live.keys.filter fun id => id ∉ desired }
  else ((order ++ desired.keys).findSome? (m.compare inbounds desired live)).getD { noDrift := true }

end OboardAgent.Ssh
