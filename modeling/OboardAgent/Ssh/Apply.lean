import OboardAgent.Ssh.Plan

/-!
# Applying an SSH inbound plan

`applySSHInbounds` (`internal/agent/ssh_inbounds.go`), with its two ways to leave the listeners
alone, the credential-only update, the full start and every rollback.

The plan is passed by value, but its inbounds are a slice. `sshInboundDesiredStateID` computes the
identity of a plan from a copy whose policies it clears, and the copy shares the slice: what is
written, started and pushed after that has no policies any more. So the inbounds of a plan are kept
in a memory here (`Lib/GoSlice`).
-/

namespace OboardAgent.Ssh

open Policies (TrafficRuntimePolicy Wire RawPolicy pushTrafficPolicies SameButLease sshHalf)
open GoSlice (Memory Slice)

/-- `model.SSHInboundPlan`, as it is passed around. -/
structure PlanRef where
  version : Int := 0
  inbounds : Slice

def PlanRef.value (plan : PlanRef) (mem : Memory SSHInbound) : SSHInboundPlan :=
  { version := plan.version, inbounds := GoSlice.read mem plan.inbounds }

def clearPolicies (inbound : SSHInbound) : SSHInbound := { inbound with policies := ∅ }

/-- `sshInboundDesiredStateID`: `hash` is that of the JSON. -/
def sshInboundDesiredStateID (hash : SSHInboundPlan → String) (mem : Memory SSHInbound) (plan : PlanRef) :
    Memory SSHInbound × String :=
  let copy : PlanRef := { plan with version := 0 }
  let mem := GoSlice.update clearPolicies mem copy.inbounds
  (mem, hash (copy.value mem))

/-! ## Starting a manager -/

structure Attempt where
  /-- The policies in the kernel's configuration, if it can be read. -/
  core : Option (GoMap String TrafficRuntimePolicy) := some ∅
  accepted : Bool := true
  relay : Bool := true
  /-- The address the listener of an inbound reports, if it can be bound. -/
  bound : SSHInbound → Option (String × Int)

/-- `currentCoreTrafficPolicyUsers`. -/
def Attempt.coreUsers (a : Attempt) : Option (Int → Bool) :=
  a.core.map fun core userID => core.entries.any fun e => 0 < e.2.userID && e.2.userID = userID

def sshShare (coreUsers : Int → Bool) (inbound : SSHInbound) : SSHInbound :=
  { inbound with
    policies := GoMap.filterMap (fun _ policy =>
      some (if coreUsers policy.userID && policy.leaseEnforced then sshHalf policy else policy))
        inbound.policies }

/-- `partitionSSHInboundPlanPolicies`, which copies the slice first. -/
def partitionSSHInboundPlanPolicies (coreUsers : Option (Int → Bool)) (mem : Memory SSHInbound)
    (plan : PlanRef) : Option (Memory SSHInbound × PlanRef) :=
  coreUsers.map fun users =>
    let copy := GoSlice.alloc mem (GoSlice.read mem plan.inbounds)
    (GoSlice.update (sshShare users) copy.1 copy.2, { plan with inbounds := copy.2 })

def newSSHInboundManager (a : Attempt) (mem : Memory SSHInbound) (plan : PlanRef) :
    Option (Memory SSHInbound × SshInboundManager) :=
  match partitionSSHInboundPlanPolicies a.coreUsers mem plan with
  | none => none
  | some (mem, plan) =>
    let inbounds := GoSlice.read mem plan.inbounds
    let needsRelay := inbounds.any fun inbound => inbound.users.any (·.enabled)
    if needsRelay && !a.relay then none
    else
      some (mem, { listeners := inbounds.foldl (fun listeners inbound =>
        if inbound.enabled then listeners.insert inbound.inboundID (newManagedSSHInbound inbound)
        else listeners) ∅ })

namespace SshInboundManager

variable (m : SshInboundManager)

def close : SshInboundManager :=
  { m with listeners := GoMap.filterMap (fun _ inbound =>
    some { inbound with listener := none }) m.listeners }

/-- `start`: every listener is bound, or all are closed again. -/
def start (bound : SSHInbound → Option (String × Int)) (m : SshInboundManager) : SshInboundManager × Bool :=
  if m.listeners.entries.all fun e => (bound e.2.plan).isSome then
    ({ m with listeners := GoMap.filterMap (fun _ inbound =>
        some { inbound with listener := bound inbound.plan }) m.listeners }, true)
  else (m.close, false)

def trafficPolicyUsers (userID : Int) : Bool :=
  m.listeners.entries.any fun e => userID ∈ e.2.counters

def setPolicy (inbound : ManagedSSHInbound) (policy : TrafficRuntimePolicy) : ManagedSSHInbound :=
  if policy.inboundID ≠ 0 && policy.inboundID ≠ inbound.plan.inboundID then inbound
  else if policy.userID ∈ inbound.counters then
    { inbound with counters := inbound.counters.insert policy.userID policy }
  else inbound

def updatePolicies (parsed : List TrafficRuntimePolicy) (m : SshInboundManager) : SshInboundManager :=
  { m with listeners := GoMap.filterMap (fun _ inbound => some (parsed.foldl setPolicy inbound)) m.listeners }

def updateInbounds (f : ManagedSSHInbound → SSHInbound → ManagedSSHInbound) (inbounds : List SSHInbound)
    (m : SshInboundManager) : SshInboundManager :=
  { m with
    listeners := inbounds.foldl (fun listeners inbound =>
      if !inbound.enabled then listeners
      else
        match listeners.lookup inbound.inboundID with
        | none => listeners
        | some live => listeners.insert inbound.inboundID (f live inbound)) m.listeners }

def reconcileInPlace : List SSHInbound → SshInboundManager → SshInboundManager :=
  updateInbounds fun live inbound =>
    { live with auth := sshInboundCredentials inbound.users, plan := inbound }

/-- `ensureSSHInboundCounters`: a new counter has the zero policy. -/
def ensureSSHInboundCounters (inbound : ManagedSSHInbound) (planned : SSHInbound) : ManagedSSHInbound :=
  { inbound with
    counters := planned.users.foldl (fun counters user =>
      if user.enabled && user.userID ∉ counters then counters.insert user.userID {} else counters)
      inbound.counters }

def applyCredentialStates : List SSHInbound → SshInboundManager → SshInboundManager :=
  updateInbounds fun live inbound =>
    ensureSSHInboundCounters { live with auth := sshInboundCredentials inbound.users, plan :=
      inbound } inbound

def credentialStateOnlyCompatible (inbounds : List SSHInbound) : Bool :=
  let enabled := inbounds.filter (·.enabled)
  (enabled.all fun planned =>
    match m.listeners.lookup planned.inboundID with
    | none => false
    | some current =>
      current.plan.inboundID = planned.inboundID && current.plan.serverID = planned.serverID &&
        current.plan.name = planned.name && current.plan.listenIP = planned.listenIP &&
        current.plan.address = planned.address && current.plan.port = planned.port &&
        current.plan.enabled = planned.enabled) &&
    enabled.length = m.listeners.keys.length

/-- The policy that the counter of a user has. -/
def running (inboundID userID : Int) : Option TrafficRuntimePolicy :=
  (m.listeners.lookup inboundID).bind fun inbound => inbound.counters.lookup userID

end SshInboundManager

/-! ## Pushing the policies of a plan -/

def collectSSHInboundTrafficPolicies (inbounds : List SSHInbound) : Wire :=
  inbounds.foldl (fun policies inbound =>
    inbound.policies.entries.foldl (fun policies e =>
      policies.insert ("ssh-inbound:" ++ toString inbound.inboundID ++ ":" ++ e.1) (.typed e.2)) policies) ∅

def runtimePolicyUsers (policies : Wire) (userID : Int) : Bool :=
  policies.entries.any fun e =>
    match e.2.decode with
    | none => false
    | some policy => 0 < policy.userID && policy.userID = userID

def Attempt.push (a : Attempt) (policies : Wire) (manager : Option SshInboundManager) :
    Option SshInboundManager × Bool :=
  let sshUsers := fun userID => manager.any fun m => m.trafficPolicyUsers userID
  let x := pushTrafficPolicies a.coreUsers sshUsers policies a.accepted
  (manager.map (·.updatePolicies x.ssh), x.ok)

def Attempt.reconcile (a : Attempt) (inbounds : List SSHInbound) (manager : Option SshInboundManager) :
    Option SshInboundManager × Bool :=
  match a.core with
  | none => (manager, false)
  | some core =>
    let explicit := collectSSHInboundTrafficPolicies inbounds
    let policies := core.entries.foldl (fun policies e =>
      if runtimePolicyUsers explicit e.2.userID then policies
      else policies.insert ("core:" ++ e.1) (.typed e.2)) explicit
    if policies.entries.isEmpty then (manager, true) else a.push policies manager

/-! ## The agent -/

inductive PlanFile where
  | absent
  /-- Bytes that are no plan; with none at all, the file is empty. -/
  | garbage (empty : Bool)
  | plan (doc : SSHInboundPlan)

namespace PlanFile

def hasBytes : PlanFile → Bool
  | .absent => false
  | .garbage empty => !empty
  | .plan _ => true

/-- `json.Unmarshal`. -/
def decode : PlanFile → Option SSHInboundPlan
  | .plan doc => some doc
  | _ => none

end PlanFile

/-- What the functions below keep of the agent. -/
structure Agent where
  memory : Memory SSHInbound := []
  current : PlanFile := .absent
  lastGood : PlanFile := .absent
  desiredState : String := ""
  manager : Option SshInboundManager := none

/-- What one call meets. -/
structure Env where
  hash : SSHInboundPlan → String
  digest : String → String
  parseIP : String → Bool
  serverID : Int := 0
  order : List Int := []
  readable : Bool := true
  ready : Bool := true
  backupSaved : Bool := true
  currentSaved : Bool := true
  /-- Every probe of the listeners is answered as the credential asks for. -/
  answered : Bool := true
  attempt : Attempt
  restored : Bool := true
  undo : Attempt

def Env.valid (env : Env) (inbounds : List SSHInbound) : Bool :=
  (validateSSHInboundPlan env.parseIP inbounds).isOk
    && (validateSSHInboundServerIDs env.serverID inbounds).isOk

namespace Agent

def load (r : Agent) (doc : SSHInboundPlan) : Agent × PlanRef :=
  let x := GoSlice.alloc r.memory doc.inbounds
  ({ r with memory := x.1 }, { version := doc.version, inbounds := x.2 })

def reconcile (a : Attempt) (plan : PlanRef) (r : Agent) : Agent × Bool :=
  let x := a.reconcile (GoSlice.read r.memory plan.inbounds) r.manager
  ({ r with manager := x.1 }, x.2)

def restoreSSHInboundPlanFile (restored : Bool) (previous : PlanFile) (r : Agent) : Agent × Bool :=
  if !restored then (r, false)
  else ({ r with current := if previous.hasBytes then previous else .absent }, true)

def restoreSSHInboundPlanLocked (env : Env) (previous : PlanFile) (r : Agent) : Agent × Bool :=
  if !previous.hasBytes then ({ r with manager := none, desiredState := "" }, true)
  else
    match previous.decode with
    | none => (r, false)
    | some doc =>
      let (r, plan) := r.load doc
      if !env.valid doc.inbounds then (r, false)
      else
        match newSSHInboundManager env.undo r.memory plan with
        | none => (r, false)
        | some (mem, manager) =>
          let x := manager.start env.undo.bound
          if !x.2 then ({ r with memory := mem, manager := some x.1.close }, false)
          else
            let id := sshInboundDesiredStateID env.hash mem plan
            ({ r with memory := id.1, manager := some x.1, desiredState := id.2 }, true)

/-- `restoreLastGoodSSHInboundsLocked`, whose error is only reported. -/
def restoreLastGoodSSHInboundsLocked (env : Env) (r : Agent) : Agent :=
  (r.restoreSSHInboundPlanLocked env r.lastGood).1

def updateCredentials (env : Env) (plan : PlanRef) (desiredState : String) (m : SshInboundManager)
    (doc : SSHInboundPlan) (r : Agent) : Agent × Bool :=
  let previous := r.current
  let (r, old) := r.load doc
  if !env.currentSaved then (r, false)
  else
    let r := { r with current := .plan (plan.value r.memory)
                      manager := some (m.applyCredentialStates (plan.value r.memory).inbounds) }
    let x := r.reconcile env.attempt plan
    if x.2 then ({ x.1 with desiredState := desiredState }, true)
    else
      let r := (x.1.restoreSSHInboundPlanFile env.restored previous).1
      let r := { r with manager := r.manager.map (SshInboundManager.applyCredentialStates doc.inbounds) }
      ((r.reconcile env.undo old).1, false)

def replaceManager (env : Env) (plan : PlanRef) (desiredState : String) (r : Agent) : Agent × Bool :=
  let previous := r.current
  match newSSHInboundManager env.attempt r.memory plan with
  | none => (r, false)
  | some (mem, manager) =>
    let x := manager.start env.attempt.bound
    let r := { r with memory := mem, manager := some x.1 }
    if !x.2 then ({ r with manager := some x.1.close }.restoreLastGoodSSHInboundsLocked env, false)
    else if !env.currentSaved then
      ({ r with manager := some x.1.close }.restoreLastGoodSSHInboundsLocked env, false)
    else
      let r := { r with current := .plan (plan.value r.memory), desiredState := desiredState }
      let y := r.reconcile env.attempt plan
      if y.2 then y
      else
        let r := (y.1.restoreSSHInboundPlanFile env.restored previous).1
        ((r.restoreSSHInboundPlanLocked env previous).1, false)

def deploy (env : Env) (plan : PlanRef) (desiredState : String) (r : Agent) : Agent × Bool :=
  let inbounds := GoSlice.read r.memory plan.inbounds
  if !env.valid inbounds then (r, false)
  else if !env.backupSaved then (r, false)
  else
    let r := { r with lastGood := r.current }
    match r.current.decode, r.manager with
    | some doc, some m =>
      if m.credentialStateOnlyCompatible inbounds then r.updateCredentials env plan desiredState m doc
      else r.replaceManager env plan desiredState
    | _, _ => r.replaceManager env plan desiredState

/-- The credentials of the live inbounds are set, the listeners stay, and the file is written only
if there is none. A failing write is ignored. -/
def reconcileInPlace (env : Env) (plan : PlanRef) (m : SshInboundManager) (r : Agent) : Agent × Bool :=
  let r := { r with manager := some (m.reconcileInPlace (GoSlice.read r.memory plan.inbounds)) }
  let x := r.reconcile env.attempt plan
  if !x.2 then x
  else if x.1.current.hasBytes || !env.currentSaved then x
  else ({ x.1 with current := .plan (plan.value x.1.memory) }, true)

def attempt (env : Env) (plan : PlanRef) (r : Agent) : Agent × Bool :=
  if !env.ready then (r, false)
  else
    let id := sshInboundDesiredStateID env.hash r.memory plan
    let r := { r with memory := id.1 }
    let inbounds := GoSlice.read r.memory plan.inbounds
    if id.2 ≠ "" ∧ id.2 = r.desiredState then
      match r.manager with
      | some m =>
        let drift := m.checkDrift env.digest env.order inbounds
        if drift.noDrift then r.reconcile env.attempt plan
        else if !drift.listenerDrift then r.reconcileInPlace env plan m
        else r.deploy env plan id.2
      | none => if inbounds.isEmpty then r.reconcile env.attempt plan else r.deploy env plan id.2
    else r.deploy env plan id.2

def verifySSHAuthentication (answered : Bool) (plan : PlanRef) (r : Agent) : Bool :=
  (GoSlice.read r.memory plan.inbounds).all fun inbound =>
    !inbound.enabled ||
      match r.manager.bind fun m => m.listeners.lookup inbound.inboundID with
      | none => false
      | some live => inbound.users.all fun user =>
          !user.enabled ||
            (live.auth.lookup user.username = some (credentialOf user) && live.listener.isSome && answered)

def rollBack (env : Env) (previous : PlanFile) (r : Agent) : Agent :=
  let r := (r.restoreSSHInboundPlanFile env.restored previous).1
  let x := r.restoreSSHInboundPlanLocked env previous
  if !x.2 then x.1
  else
    let (r, plan) := x.1.load (previous.decode.getD {})
    (r.reconcile env.undo plan).1

/-- `applySSHInbounds`: the agent, and whether it succeeded. -/
def applySSHInbounds (env : Env) (plan : PlanRef) (r : Agent) : Agent × Bool :=
  if !env.readable then (r, false)
  else
    let previous := r.current
    let x := r.attempt env plan
    if !x.2 then x
    else if x.1.verifySSHAuthentication env.answered plan then x
    else (x.1.rollBack env previous, false)

/-! ## What a success leaves behind -/

variable {env : Env} {plan : PlanRef} {r : Agent}

/-- The current file is kept: the plan is the one applied last, and either nothing has drifted, or
no listener has and there is a file or none can be written. -/
def KeepsFile (env : Env) (plan : PlanRef) (r : Agent) : Prop :=
  let id := sshInboundDesiredStateID env.hash r.memory plan
  let inbounds := GoSlice.read id.1 plan.inbounds
  (id.2 ≠ "" ∧ id.2 = r.desiredState) ∧
    match r.manager with
    | none => inbounds = []
    | some m =>
      let drift := m.checkDrift env.digest env.order inbounds
      drift.noDrift = true ∨ drift.listenerDrift = false ∧
        (r.current.hasBytes = true ∨ env.currentSaved = false)

/-- The plan as it is when it is written: without policies. -/
def written (plan : PlanRef) (r : Agent) : SSHInboundPlan :=
  { version := plan.version, inbounds := (GoSlice.read r.memory plan.inbounds).map clearPolicies }

variable {r' : Agent}

theorem current_of_reconcile {a : Attempt} {ok : Bool} (h : r.reconcile a plan = (r', ok)) :
    r'.current = r.current := by
  cases h
  rfl

theorem current_of_updateCredentials {desiredState : String} {m : SshInboundManager} {doc : SSHInboundPlan}
    (hvalid : GoSlice.Valid r.memory plan.inbounds)
    (h : r.updateCredentials env plan desiredState m doc = (r', true)) :
    r'.current = .plan (plan.value r.memory) := by
  have hread : plan.value (r.load doc).1.memory = plan.value r.memory := by
    unfold PlanRef.value load
    rw [GoSlice.read_alloc hvalid]
  unfold updateCredentials at h
  dsimp only at h
  split_ifs at h
  · cases h
  · cases h
    exact congrArg PlanFile.plan hread
  · cases h

theorem read_partition {coreUsers : Option (Int → Bool)} {mem : Memory SSHInbound}
    {x : Memory SSHInbound × PlanRef} (hvalid : GoSlice.Valid mem plan.inbounds)
    (h : partitionSSHInboundPlanPolicies coreUsers mem plan = some x) :
    GoSlice.read x.1 plan.inbounds = GoSlice.read mem plan.inbounds := by
  obtain ⟨users, -, rfl⟩ := Option.map_eq_some_iff.mp h
  have hne : plan.inbounds ≠ (GoSlice.alloc mem (GoSlice.read mem plan.inbounds)).2 := by
    intro heq
    have haddr : plan.inbounds.addr = mem.length := congrArg Slice.addr heq
    exact Nat.ne_of_lt hvalid haddr
  exact (GoSlice.read_update_other hne).trans (GoSlice.read_alloc hvalid)

theorem read_newSSHInboundManager {a : Attempt} {mem : Memory SSHInbound}
    {x : Memory SSHInbound × SshInboundManager} (hvalid : GoSlice.Valid mem plan.inbounds)
    (h : newSSHInboundManager a mem plan = some x) :
    GoSlice.read x.1 plan.inbounds = GoSlice.read mem plan.inbounds := by
  unfold newSSHInboundManager at h
  split at h
  · cases h
  · next hpart =>
    dsimp only at h
    split_ifs at h
    cases h
    exact read_partition hvalid hpart

theorem current_of_replaceManager {desiredState : String} (hvalid : GoSlice.Valid r.memory plan.inbounds)
    (h : r.replaceManager env plan desiredState = (r', true)) :
    r'.current = .plan (plan.value r.memory) := by
  unfold replaceManager at h
  dsimp only at h
  split at h
  · cases h
  rename_i mem manager hnew
  split_ifs at h
  · cases h
  · cases h
  · rw [current_of_reconcile h]
    refine congrArg PlanFile.plan ?_
    unfold PlanRef.value
    rw [read_newSSHInboundManager hvalid hnew]
  · cases h

theorem current_of_deploy {desiredState : String} (hvalid : GoSlice.Valid r.memory plan.inbounds)
    (h : r.deploy env plan desiredState = (r', true)) : r'.current = .plan (plan.value r.memory) := by
  unfold deploy at h
  dsimp only at h
  split at h
  · cases h
  split at h
  · cases h
  split at h
  · split at h
    · exact current_of_updateCredentials (r := { r with lastGood := r.current }) hvalid h
    · exact current_of_replaceManager (r := { r with lastGood := r.current }) hvalid h
  · exact current_of_replaceManager (r := { r with lastGood := r.current }) hvalid h

theorem current_of_reconcileInPlace {m : SshInboundManager}
    (h : r.reconcileInPlace env plan m = (r', true)) :
    r'.current = if r.current.hasBytes || !env.currentSaved then r.current
      else .plan (plan.value r.memory) := by
  unfold reconcileInPlace at h
  dsimp only at h
  split_ifs at h with hfailed hkept
  · rw [h] at hfailed
    cases hfailed
  · exact (current_of_reconcile h).trans (if_pos hkept).symm
  · cases h
    exact (if_neg hkept).symm

variable (env) in
theorem value_after_identity :
    plan.value (sshInboundDesiredStateID env.hash r.memory plan).1 = written plan r := by
  unfold PlanRef.value sshInboundDesiredStateID written
  rw [GoSlice.read_update]

/-- **What a success leaves on disk**: the file of before, or the plan without its policies. -/
theorem current_of_attempt (hvalid : GoSlice.Valid r.memory plan.inbounds)
    (h : r.attempt env plan = (r', true)) : (r.KeepsFile env plan ∧ r'.current = r.current) ∨
      (¬r.KeepsFile env plan ∧ r'.current = .plan (written plan r)) := by
  have hvalid' : GoSlice.Valid (sshInboundDesiredStateID env.hash r.memory plan).1 plan.inbounds :=
    GoSlice.valid_update.mpr hvalid
  rw [← value_after_identity env]
  unfold attempt at h
  unfold KeepsFile
  cases hm : r.manager with
  | none =>
    simp only [hm] at h ⊢
    split_ifs at h with hready hsame hempty
    · cases h
    · exact Or.inl ⟨⟨hsame, List.isEmpty_iff.mp hempty⟩, (current_of_reconcile h).trans rfl⟩
    · exact Or.inr ⟨fun hkeeps => hempty (List.isEmpty_iff.mpr hkeeps.2), current_of_deploy hvalid' h⟩
    · exact Or.inr ⟨fun hkeeps => hsame hkeeps.1, current_of_deploy hvalid' h⟩
  | some m =>
    simp only [hm] at h ⊢
    split_ifs at h with hready hsame hnone hlistener
    · cases h
    · exact Or.inl ⟨⟨hsame, Or.inl hnone⟩, (current_of_reconcile h).trans rfl⟩
    · have hcurrent := current_of_reconcileInPlace h
      split_ifs at hcurrent with hkept
      · exact Or.inl ⟨⟨hsame, Or.inr ⟨by simpa using hlistener, by simpa using hkept⟩⟩, hcurrent⟩
      · refine Or.inr ⟨?_, hcurrent⟩
        rintro ⟨-, hdrift | ⟨-, hfile⟩⟩
        · exact hnone hdrift
        · exact hkept (by simpa using hfile)
    · refine Or.inr ⟨?_, current_of_deploy hvalid' h⟩
      rintro ⟨-, hdrift | ⟨hfalse, -⟩⟩
      · exact hnone hdrift
      · exact hlistener (by simpa using hfalse)
    · exact Or.inr ⟨fun hkeeps => hsame hkeeps.1, current_of_deploy hvalid' h⟩

theorem attempt_of_applySSHInbounds (h : r.applySSHInbounds env plan = (r', true)) :
    r.attempt env plan = (r', true) := by
  unfold applySSHInbounds at h
  dsimp only at h
  split_ifs at h with hreadable hfailed
  · cases h
  · rw [h] at hfailed
    cases hfailed
  · exact h
  · cases h

/-! ## The policies of a plan -/

/-- The policy of a plan at an inbound and key. -/
def policyAt (inbounds : List SSHInbound) (id : Int) (key : String) : Option TrafficRuntimePolicy :=
  (findInboundByID inbounds id).policies.lookup key

def GivenFor (inbound : SSHInbound) (user : SSHInboundUser) (policy : TrafficRuntimePolicy) : Prop :=
  ∃ key p, inbound.policies.lookup key = some p ∧ policyIsFor user.userID key p = true ∧
    policy = { p with userID := user.userID }

/-- The plan is honoured by a call: its identity leaves it as it is, the file read back has its
policies, and every credential it gives a policy runs with such a policy, the lease being the share
of the SSH listeners. -/
structure Honoured (env : Env) (plan : PlanRef) (r r' : Agent) : Prop where
  unchanged : plan.value (sshInboundDesiredStateID env.hash r.memory plan).1 = plan.value r.memory
  persisted : ∃ doc, r'.current.decode = some doc ∧
    ∀ id key, policyAt doc.inbounds id key = policyAt (plan.value r.memory).inbounds id key
  enforced : ∀ inbound ∈ (plan.value r.memory).inbounds, inbound.enabled = true →
    ∀ user ∈ inbound.users, user.enabled = true → (∃ policy, GivenFor inbound user policy) →
      ∃ policy m live, GivenFor inbound user policy ∧ r'.manager = some m ∧
        m.running inbound.inboundID user.userID = some live ∧ SameButLease policy live

def NoPolicies (inbounds : List SSHInbound) : Prop := ∀ inbound ∈ inbounds, inbound.policies = ∅

theorem map_clearPolicies {inbounds : List SSHInbound} :
    inbounds.map clearPolicies = inbounds ↔ NoPolicies inbounds := by
  have hone : ∀ inbound : SSHInbound, clearPolicies inbound = inbound ↔ inbound.policies = ∅ := by
    intro inbound
    cases inbound
    simp only [clearPolicies, SSHInbound.mk.injEq, true_and]
    exact eq_comm
  induction inbounds with
  | nil => exact ⟨nofun, fun _ => rfl⟩
  | cons inbound rest ih =>
    unfold NoPolicies at ih ⊢
    rw [List.map_cons, List.cons.injEq, List.forall_mem_cons]
    exact and_congr (hone inbound) ih

theorem NoPolicies.policyAt {inbounds : List SSHInbound} (h : NoPolicies inbounds) (id : Int) (key : String) :
    policyAt inbounds id key = none := by
  unfold Agent.policyAt findInboundByID
  cases hfind : inbounds.find? fun inbound => inbound.inboundID = id with
  | none => rfl
  | some inbound =>
    rw [Option.getD_some, h inbound (List.mem_of_find?_eq_some hfind)]
    rfl

/-- **When a plan is honoured.** Exactly when it has no policies, and the file, if it is kept, has
none either. -/
theorem honoured_iff_no_policies (env : Env) (plan : PlanRef) (r : Agent)
    (hvalid : GoSlice.Valid r.memory plan.inbounds) (hok : (r.applySSHInbounds env plan).2 = true) :
    Honoured env plan r (r.applySSHInbounds env plan).1 ↔
      NoPolicies (plan.value r.memory).inbounds ∧
        (r.KeepsFile env plan → ∃ doc, r.current.decode = some doc ∧
          ∀ id key, policyAt doc.inbounds id key = none) := by
  obtain ⟨r', hr'⟩ : ∃ r', r.applySSHInbounds env plan = (r', true) := ⟨_, Prod.ext rfl hok⟩
  rw [hr']
  have hattempt := attempt_of_applySSHInbounds hr'
  have hunchanged : plan.value (sshInboundDesiredStateID env.hash r.memory plan).1 = plan.value r.memory ↔
      NoPolicies (plan.value r.memory).inbounds := by
    rw [value_after_identity, ← map_clearPolicies]
    exact ⟨fun h => congrArg SSHInboundPlan.inbounds h, fun h => congrArg (SSHInboundPlan.mk plan.version) h⟩
  constructor
  · intro h
    have hnone := hunchanged.mp h.unchanged
    refine ⟨hnone, fun hkeeps => ?_⟩
    obtain ⟨doc, hdoc, hsame⟩ := h.persisted
    rcases current_of_attempt hvalid hattempt with ⟨-, hcurrent⟩ | ⟨hnot, -⟩
    · exact ⟨doc, hcurrent ▸ hdoc, fun id key => (hsame id key).trans (hnone.policyAt id key)⟩
    · exact absurd hkeeps hnot
  · rintro ⟨hnone, hfile⟩
    refine ⟨hunchanged.mpr hnone, ?_, ?_⟩
    · rcases current_of_attempt hvalid hattempt with ⟨hkeeps, hcurrent⟩ | ⟨-, hcurrent⟩
      · obtain ⟨doc, hdoc, hempty⟩ := hfile hkeeps
        refine ⟨doc, hcurrent ▸ hdoc, fun id key => ?_⟩
        rw [hempty, hnone.policyAt]
      · refine ⟨written plan r, by rw [hcurrent]; rfl, fun id key => ?_⟩
        rw [← value_after_identity env, hunchanged.mpr hnone]
    · rintro inbound hmem - user - - ⟨_, key, p, hp, -⟩
      rw [hnone inbound hmem] at hp
      cases hp

def inbound17 (policies : GoMap String TrafficRuntimePolicy) : SSHInbound :=
  { inboundID := 17, serverID := 1, name := "ssh", listenIP := "127.0.0.1", port := 2222, enabled := true
    users := [{ authorizationKey := "0123456789abcdef0123456789abcdef", userID := 7, password := "secret"
                username := "u0123456789abcdef0123456789abcdef", pathID := 3, routeKind := "kernel"
                routeInboundTag := "in-17", routeAuthUser := "u0123456789abcdef0123456789abcdef"
                enabled := true }]
    policies := policies }

def smoothEnv : Env :=
  { hash := fun plan => toString (plan.inbounds.map (·.inboundID)), digest := id, parseIP := fun _ => true
    attempt := { bound := fun inbound => some (inbound.listenIP, inbound.port) }
    undo := { bound := fun inbound => some (inbound.listenIP, inbound.port) } }

def handed (policies : GoMap String TrafficRuntimePolicy) : Agent := { memory := [[inbound17 policies]] }

def handedPlan : PlanRef := { version := 1, inbounds := ⟨0⟩ }

/-- A plan without policies is started and honoured. -/
theorem plan_without_policies_honoured :
    ((handed ∅).applySSHInbounds smoothEnv handedPlan).2 = true ∧
      Honoured smoothEnv handedPlan (handed ∅) ((handed ∅).applySSHInbounds smoothEnv handedPlan).1 := by
  have hok : ((handed ∅).applySSHInbounds smoothEnv handedPlan).2 = true := by decide +kernel
  refine ⟨hok, (honoured_iff_no_policies smoothEnv handedPlan (handed ∅) (by decide) hok).mpr ⟨?_, ?_⟩⟩
  · intro inbound hmem
    rw [List.mem_singleton.mp (show inbound ∈ [inbound17 ∅] from hmem)]
    rfl
  · rintro ⟨⟨-, hsame⟩, -⟩
    exact absurd hsame (by decide +kernel)

def quota7 : GoMap String TrafficRuntimePolicy :=
  AList.singleton "user:7" { userID := 7, inboundID := 17, billable := true, trafficLimitBytes := 1000 }

/-- A plan with a quota is applied with success. The file has no policy for the user, its counter
has the zero policy, which limits nothing, and the caller's plan has lost the quota too. -/
theorem quota_lost_on_success :
    let x := (handed quota7).applySSHInbounds smoothEnv handedPlan
    x.2 = true ∧
      policyAt (handedPlan.value (handed quota7).memory).inbounds 17 "user:7"
        = some { userID := 7, inboundID := 17, billable := true, trafficLimitBytes := 1000 } ∧
      x.1.current.decode.map (fun doc => policyAt doc.inbounds 17 "user:7") = some none ∧
      x.1.manager.bind (fun m => m.running 17 7) = some {} ∧
      policyAt (handedPlan.value (sshInboundDesiredStateID smoothEnv.hash
        (handed quota7).memory handedPlan).1).inbounds
        17 "user:7" = none := by
  decide +kernel

end Agent

end OboardAgent.Ssh
