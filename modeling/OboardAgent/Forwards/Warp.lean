import OboardAgent.Lib.GoStrings
import OboardAgent.Lib.NetIp
import OboardAgent.Lib.Run

/-!
# The saved WARP identity

`requestWARPConfig` (`internal/agent/warp.go`, `warp_registration.go`). The first request of a
profile registers a WARP device and saves the endpoint; the later ones take the saved endpoint, put
in it what the plan asks for and save it again if that changed it. A constraint on the underlay
replaces the bindings of the endpoint. A plan without one leaves them as they are.

An endpoint is written as JSON and read back as it was, so the file holds the endpoint. No endpoint
that is built here has a detour.
-/

namespace OboardAgent.Warp

open GoStrings (trimSpace toLower)

structure DialConstraint where
  mode : String
  interfaceName : String := ""
  sourceAddress : String := ""
  family : String := ""

structure WARPRequestPlan where
  profileID : Int
  mtu : Int := 0
  dnsStrategy : String := ""
  underlay : Option DialConstraint := none

/-- What a registration gives: the private key stands for all that is only handed on. -/
structure Identity where
  privateKey : String
  peerAddresses : List String
deriving DecidableEq

/-- `bind_interface`, `inet4_bind_address` and `inet6_bind_address`. -/
structure Binding where
  interface : Option String := none
  inet4 : Option String := none
  inet6 : Option String := none
deriving DecidableEq

structure Endpoint where
  identity : Identity
  mtu : Int
  /-- The strategy of `domain_resolver`. -/
  resolver : Option String
  binding : Binding := {}
deriving DecidableEq

def warpTunnelMTU : Int := 1280

def warpMTU (requested : Int) : Int :=
  if requested ≤ 0 ∨ warpTunnelMTU < requested then warpTunnelMTU else requested

def warpDomainResolver (plan : WARPRequestPlan) : Option String :=
  let strategy :=
    match plan.underlay with
    | some dc =>
      let family := trimSpace dc.family
      if dc.mode = "interface" ∧ (family = "ipv4_only" ∨ family = "ipv6_only") then family
      else trimSpace plan.dnsStrategy
    | none => trimSpace plan.dnsStrategy
  if strategy = "" ∨ toLower strategy = "auto" then none else some strategy

section

-- `core.ValidateNetworkInterfaceName`
variable (validName : String → Bool)

def conflicts (family address : String) : Bool :=
  match NetIp.parseAddr address.toList with
  | none => false
  | some a => family = "ipv6_only" && a.unmap.is4 || family = "ipv4_only" && !a.unmap.is4

def sourceBinding (interface : Option String) (source family : String) : Except String Binding :=
  if source = "" then .ok { interface }
  else
    match NetIp.parseAddr source.toList with
    | none => .error "underlay source address must be an exact IP address"
    | some a =>
      let a := a.unmap
      if !a.isGlobalUnicast || a.isLoopback then
        .error "underlay source address must be a unicast address"
      else if family = "ipv4_only" ∧ !a.is4 then
        .error "family ipv4_only conflicts with IPv6 source_address"
      else if family = "ipv6_only" ∧ a.is4 then
        .error "family ipv6_only conflicts with IPv4 source_address"
      else if a.is4 then .ok { interface, inet4 := some (String.ofList a.text) }
      else .ok { interface, inet6 := some (String.ofList a.text) }

def bindingOf (peerAddresses : List String) (dc : DialConstraint) : Except String Binding :=
  if trimSpace dc.mode = "auto" then
    if dc.interfaceName ≠ "" ∨ dc.sourceAddress ≠ "" ∨ dc.family ≠ "" ∧ dc.family ≠ "auto" then
      .error "automatic WARP underlay cannot contain explicit bindings"
    else .ok {}
  else if trimSpace dc.mode ≠ "interface" then .error "invalid WARP underlay mode"
  else
    let interface := trimSpace dc.interfaceName
    let source := trimSpace dc.sourceAddress
    let family := toLower (trimSpace dc.family)
    if interface = "" ∧ source = "" then
      .error "WARP underlay requires interface or exact source address"
    else if family ∉ ["", "auto", "ipv4_only", "ipv6_only"] then .error "invalid WARP underlay family"
    else if peerAddresses.any (conflicts family) then
      .error "underlay_family_mismatch: WARP peer address conflicts with underlay"
    else if interface ≠ "" ∧ !validName interface then .error "invalid underlay interface"
    else sourceBinding (if interface = "" then none else some interface) source family

def applyDialConstraintToEndpoint (e : Endpoint) : Option DialConstraint → Except String Endpoint
  | none => .ok e
  | some dc =>
    (bindingOf validName e.identity.peerAddresses dc).map fun binding => { e with binding }

/-- The endpoint of a registration. -/
def registered (plan : WARPRequestPlan) (identity : Identity) : Except String Endpoint :=
  applyDialConstraintToEndpoint validName
    { identity, mtu := warpMTU plan.mtu, resolver := warpDomainResolver plan } plan.underlay

/-- `loadPersistedWARPConfig`, from the endpoint in the file. -/
def reused (plan : WARPRequestPlan) (e : Endpoint) : Except String Endpoint :=
  applyDialConstraintToEndpoint validName
    { e with mtu := warpMTU plan.mtu, resolver := warpDomainResolver plan } plan.underlay

/-- What a request meets: the profile's own binding may conflict with the plan's, the file may not
be read or written, and a registration may fail. -/
structure Env where
  bindingOk : Bool := true
  readable : Bool := true
  writable : Bool := true
  registration : Option Identity := none

def persistReadyWARPReport (env : Env) (saved : Option Endpoint) (e : Endpoint) :
    Except String Endpoint × Option Endpoint :=
  if env.writable then (.ok e, some e) else (.error "write", saved)

def requestWARPConfig (saved : Option Endpoint) (plan : WARPRequestPlan) (env : Env) :
    Except String Endpoint × Option Endpoint :=
  if plan.profileID = 0 then (.error "profile_id required", saved)
  else
    match applyDialConstraintToEndpoint validName ⟨⟨"", []⟩, 0, none, {}⟩ plan.underlay with
    | .error message => (.error message, saved)
    | .ok _ =>
      if !env.bindingOk then (.error "warp_identity_underlay_conflict", saved)
      else
        match saved with
        | some e =>
          if !env.readable then (.error "reuse WARP identity", saved)
          else
            match reused validName plan e with
            | .error message => (.error ("reuse WARP identity: " ++ message), saved)
            | .ok e' => if e' = e then (.ok e, saved) else persistReadyWARPReport env saved e'
        | none =>
          match env.registration with
          | none => (.error "registration", saved)
          | some identity =>
            match registered validName plan identity with
            | .error message => (.error message, saved)
            | .ok e => persistReadyWARPReport env saved e

/-! ## Requests one after another -/

abbrev Request := WARPRequestPlan × Env

def step (saved : Option Endpoint) (r : Request) : Option Endpoint :=
  (requestWARPConfig validName saved r.1 r.2).2

/-- The ready reports, each with the plan and the file after it. -/
def out (saved : Option Endpoint) (r : Request) :
    List (WARPRequestPlan × Endpoint × Option Endpoint) :=
  match requestWARPConfig validName saved r.1 r.2 with
  | (.ok e, saved) => [(r.1, e, saved)]
  | (.error _, _) => []

/-- The endpoint is what a registration of its identity would make for the plan, and so is the
file. -/
def Current (o : WARPRequestPlan × Endpoint × Option Endpoint) : Prop :=
  registered validName o.1 o.2.1.identity = .ok o.2.1 ∧ o.2.2 = some o.2.1

/-- A plan without an underlay that is served from a saved endpoint finds no binding in it. -/
def Unbound (saved : Option Endpoint) (r : Request) : Prop :=
  ∀ e ∈ saved, r.1.underlay = none → r.1.profileID ≠ 0 → r.2.bindingOk → r.2.readable →
    (r.2.writable ∨ e.mtu = warpMTU r.1.mtu ∧ e.resolver = warpDomainResolver r.1) → e.binding = {}

variable {validName}

theorem reused_eq_registered (plan : WARPRequestPlan) (e : Endpoint)
    (h : plan.underlay.isSome ∨ e.binding = {}) :
    reused validName plan e = registered validName plan e.identity := by
  unfold reused registered
  cases hu : plan.underlay with
  | some dc => rfl
  | none =>
    have hb : e.binding = {} := h.resolve_left (by simp [hu])
    simp [applyDialConstraintToEndpoint, ← hb]

theorem identity_registered {plan : WARPRequestPlan} {identity : Identity} {e : Endpoint}
    (h : registered validName plan identity = .ok e) : e.identity = identity := by
  unfold registered applyDialConstraintToEndpoint at h
  split at h
  · cases h
    rfl
  · cases hb : bindingOf validName identity.peerAddresses ‹_› <;> simp only [hb, Except.map] at h
    · cases h
    · cases h
      rfl

variable {saved : Option Endpoint} {plan : WARPRequestPlan} {env : Env}

theorem persist_ok {old : Option Endpoint} {e e' : Endpoint} {file : Option Endpoint}
    (h : persistReadyWARPReport env old e = (.ok e', file)) : e' = e ∧ file = some e ∧ env.writable := by
  unfold persistReadyWARPReport at h
  split at h
  · cases h
    exact ⟨rfl, rfl, ‹_›⟩
  · cases h

theorem ready_cases {e : Endpoint} {file : Option Endpoint}
    (h : requestWARPConfig validName saved plan env = (.ok e, file)) :
    file = some e ∧
      ((∃ identity, registered validName plan identity = .ok e) ∨
        ∃ old, saved = some old ∧ reused validName plan old = .ok e ∧ plan.profileID ≠ 0 ∧
          env.bindingOk ∧ env.readable ∧ (env.writable ∨ e = old)) := by
  revert h
  fun_cases requestWARPConfig validName saved plan env with
  | case1 | case2 | case3 | case4 | case5 | case8 | case9 => simp
  | case6 hid _ _ hbinding hreadable old hreused =>
    rintro ⟨⟩
    exact ⟨rfl, .inr ⟨e, rfl, hreused, hid, by simpa using hbinding, by simpa using hreadable, .inr rfl⟩⟩
  | case7 hid _ _ hbinding old hreadable e' hreused =>
    intro h
    obtain ⟨rfl, hfile, hwritable⟩ := persist_ok h
    exact ⟨hfile, .inr ⟨old, rfl, hreused, hid, by simpa using hbinding, by simpa using hreadable,
      .inl hwritable⟩⟩
  | case10 _ _ _ _ identity _ e' hregistered =>
    intro h
    obtain ⟨rfl, hfile, -⟩ := persist_ok h
    exact ⟨hfile, .inl ⟨identity, hregistered⟩⟩

theorem ready_of_saved {old : Endpoint} (hu : plan.underlay = none) (hid : plan.profileID ≠ 0)
    (hbinding : env.bindingOk) (hreadable : env.readable)
    (hwrite : env.writable ∨ old.mtu = warpMTU plan.mtu ∧ old.resolver = warpDomainResolver plan) :
    requestWARPConfig validName (some old) plan env =
      (.ok { old with mtu := warpMTU plan.mtu, resolver := warpDomainResolver plan },
        some { old with mtu := warpMTU plan.mtu, resolver := warpDomainResolver plan }) := by
  simp only [requestWARPConfig, reused, applyDialConstraintToEndpoint, hu, hid, hbinding, hreadable,
    persistReadyWARPReport, if_false, Bool.not_true, Bool.false_eq_true]
  split
  · rename_i heq
    rw [heq]
  · rename_i hne
    have hwritable : env.writable := hwrite.resolve_right fun h => hne (by rw [← h.1, ← h.2])
    rw [if_pos hwritable]

theorem current_iff (saved : Option Endpoint) (r : Request) :
    (∀ o ∈ out validName saved r, Current validName o) ↔ Unbound saved r := by
  constructor
  · intro h old hold hu hid hbinding hreadable hwrite
    have hready : requestWARPConfig validName (some old) r.1 r.2 = _ :=
      ready_of_saved hu hid hbinding hreadable hwrite
    have hcurrent := (h _ (by rw [out, hold, hready]; exact List.mem_singleton_self _)).1
    simp only [registered, applyDialConstraintToEndpoint, hu, Except.ok.injEq, Endpoint.mk.injEq] at hcurrent
    exact hcurrent.2.2.2.symm
  · intro hunbound o ho
    unfold out at ho
    split at ho
    · rename_i e file h
      obtain rfl := List.mem_singleton.mp ho
      obtain ⟨hfile, ⟨identity, hregistered⟩ | ⟨old, rfl, hreused, hid, hbinding, hreadable, hwrite⟩⟩ :=
        ready_cases h
      · exact ⟨identity_registered hregistered ▸ hregistered, hfile⟩
      · have hb : r.1.underlay.isSome ∨ old.binding = {} := by
          cases hu : r.1.underlay with
          | some => exact .inl rfl
          | none =>
            simp only [reused, applyDialConstraintToEndpoint, hu, Except.ok.injEq] at hreused
            refine .inr (hunbound old rfl hu hid hbinding hreadable (hwrite.imp_right ?_))
            rintro rfl
            rw [← hreused]
            exact ⟨rfl, rfl⟩
        rw [reused_eq_registered _ _ hb] at hreused
        exact ⟨identity_registered hreused ▸ hreused, hfile⟩
    · cases ho

/-- **A reused identity is served as the plan asks** in exactly the runs where no plan without an
underlay finds a binding of an earlier plan. -/
theorem reports_current_iff (saved : Option Endpoint) (rs : List Request) :
    (∀ o ∈ Run.outputs (step validName) (out validName) saved rs, Current validName o) ↔
      Run.Along (step validName) Unbound saved rs := by
  rw [Run.forall_outputs]
  exact ⟨Run.Along.mono fun s r => (current_iff s r).mp, Run.Along.mono fun s r => (current_iff s r).mpr⟩

end

/-- **A binding of an earlier plan remains**: the first plan binds to an interface, the second one
has no underlay. -/
theorem binding_remains :
    let bound : WARPRequestPlan := { profileID := 1, underlay := some ⟨"interface", "eth1", "", ""⟩ }
    let env : Env := { registration := some ⟨"key", ["engage.cloudflareclient.com"]⟩ }
    (Run.outputs (step fun _ => true) (out fun _ => true) none
        [(bound, env), ({ profileID := 1 }, env)]).map (fun o => o.2.1.binding.interface) =
      [some "eth1", some "eth1"] := by
  decide +kernel

end OboardAgent.Warp
