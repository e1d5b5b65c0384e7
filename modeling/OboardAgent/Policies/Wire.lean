import OboardAgent.Lib.GoMap
import OboardAgent.Lib.GoStrings
import OboardAgent.Lib.Texts

/-!
# Traffic policies on their way to the two runtimes

`pushTrafficPolicies` and what it calls (`internal/agent/traffic.go`). The Controller allots one
lease per user and server. Two runtimes on the server may serve the user, the kernel and the agent's
own SSH listeners, and each enforces the lease it is given by itself; so a lease that goes to both
is split.

A policy is carried as an `interface{}`: a typed policy, or the JSON object it came as. All that the
functions ask of such an object is what `encoding/json` decodes from it, so that stands for it here.
-/

namespace OboardAgent.Policies

open GoStrings (int64)

structure TrafficRuntimePolicy where
  userID : Int := 0
  inboundID : Int := 0
  pathID : Int := 0
  deviceIDHash : String := ""
  credentialEpoch : Int := 0
  credentialStatus : String := ""
  billable : Bool := false
  speedLimitMbps : Int := 0
  trafficLimitBytes : Int := 0
  usedBaselineBytes : Int := 0
  leaseBytes : Int := 0
  resetLeaseBytes : Int := 0
  leaseEnforced : Bool := false
  periodKey : String := ""
  periodStart : String := ""
  periodEnd : String := ""
  resetMode : String := ""
  resetDay : Int := 0
  resetAnchor : String := ""
  previousPeriodKey : String := ""
  timezone : String := ""
  quotaState : String := ""
  policyRevision : Int := 0
deriving DecidableEq, Repr

inductive RawPolicy where
  | typed (p : TrafficRuntimePolicy)
  | json (p : TrafficRuntimePolicy)
  /-- A JSON value that does not; its `user_id` may still decode. -/
  | other (userID : Option Int)
deriving DecidableEq, Repr

namespace RawPolicy

/-- The policy that `json.Unmarshal` finds in it. -/
def decode : RawPolicy → Option TrafficRuntimePolicy
  | .typed p => some p
  | .json p => some p
  | .other _ => none

/-- What `json.Unmarshal` finds when asked for the `user_id` alone. -/
def userID : RawPolicy → Option Int
  | .typed p => some p.userID
  | .json p => some p.userID
  | .other u => u

theorem userID_of_decode {raw : RawPolicy} {p : TrafficRuntimePolicy} (h : raw.decode = some p) :
    raw.userID = some p.userID := by
  cases raw with
  | typed q => cases h; rfl
  | json q => cases h; rfl
  | other u => cases h

end RawPolicy

/-- `map[string]interface{}`, of policies. -/
abbrev Wire := GoMap String RawPolicy

def trafficPoliciesToWire (policies : GoMap String TrafficRuntimePolicy) : Wire :=
  GoMap.filterMap (fun _ p => some (.json p)) policies

variable (policies : Wire)

/-- `trafficPoliciesFromWire`: what does not decode is left out. -/
def trafficPoliciesFromWire : GoMap String TrafficRuntimePolicy :=
  GoMap.filterMap (fun _ raw => raw.decode) policies

/-! ## The split -/

variable (p : TrafficRuntimePolicy)

def coreHalf : TrafficRuntimePolicy :=
  { p with
    leaseBytes := (int64 (p.leaseBytes + 1)).tdiv 2
    resetLeaseBytes := (int64 (p.resetLeaseBytes + 1)).tdiv 2 }

def sshHalf : TrafficRuntimePolicy :=
  { p with leaseBytes := p.leaseBytes.tdiv 2, resetLeaseBytes := p.resetLeaseBytes.tdiv 2 }

variable (coreUsers sshUsers : Int → Bool)

/-- What the kernel and the SSH runtime get of one entry. -/
def shares (raw : RawPolicy) : Option RawPolicy × Option RawPolicy :=
  match raw.decode with
  | none => (some raw, some raw)
  | some p =>
    if p.userID ≤ 0 then (some raw, some raw)
    else
      -- a user that neither runtime has yet is treated as one that both have
      let neither := !coreUsers p.userID && !sshUsers p.userID
      let hasCore := coreUsers p.userID || neither
      let hasSSH := sshUsers p.userID || neither
      let split := hasCore && hasSSH && p.leaseEnforced
      (if hasCore then some (.typed (if split then coreHalf p else p)) else none,
        if hasSSH then some (.typed (if split then sshHalf p else p)) else none)

def partitionRuntimePolicyLeases : Wire × Wire :=
  (GoMap.filterMap (fun _ raw => (shares coreUsers sshUsers raw).1) policies,
    GoMap.filterMap (fun _ raw => (shares coreUsers sshUsers raw).2) policies)

/-! ## The push -/

def coreKey (userID : Int) : String := "user:" ++ toString userID

def convertEntry (converted : Wire) (raw : RawPolicy) : Option Wire :=
  match raw.userID with
  | none => none
  | some u => if u ≤ 0 then some converted else some (converted.insert (coreKey u) raw)

def convertCorePolicies : Option Wire :=
  policies.entries.foldlM (fun converted e => convertEntry converted e.2) ∅

def parsedPolicies : List TrafficRuntimePolicy :=
  policies.entries.filterMap fun e => e.2.decode.filter fun p => 0 < p.userID

structure Push where
  core : Wire
  ssh : List TrafficRuntimePolicy
  ok : Bool

/-- `pushTrafficPolicies`. The users of the kernel are read from its configuration file, which may
fail (`none`); the SSH manager is told only after the kernel has accepted its policies. -/
def pushTrafficPolicies (coreUsers : Option (Int → Bool)) (sshUsers : Int → Bool) (policies : Wire)
    (accepted : Bool) : Push :=
  let x :=
    match coreUsers with
    | none => (policies, policies)
    | some users => partitionRuntimePolicyLeases policies users sshUsers
  match convertCorePolicies x.1 with
  | none => { core := ∅, ssh := [], ok := false }
  | some converted =>
    if accepted then { core := converted, ssh := parsedPolicies x.2, ok := true }
    else { core := converted, ssh := [], ok := false }

namespace Push

def coreFor (x : Push) (u : Int) : Option TrafficRuntimePolicy :=
  (x.core.lookup (coreKey u)).bind (·.decode)

/-- The policy of a user that the SSH manager is handed last. An inbound takes the last of those
that are for it (`setPolicy`); those of a user all carry the same lease. -/
def sshFor (x : Push) (u : Int) : Option TrafficRuntimePolicy :=
  (x.ssh.filter (·.userID = u)).getLast?

def leaseBytes (x : Push) (u : Int) : Int :=
  (x.coreFor u).elim 0 (·.leaseBytes) + (x.sshFor u).elim 0 (·.leaseBytes)

def resetLeaseBytes (x : Push) (u : Int) : Int :=
  (x.coreFor u).elim 0 (·.resetLeaseBytes) + (x.sshFor u).elim 0 (·.resetLeaseBytes)

end Push

/-- `partitionSSHInboundPlanPolicies`, for one policy: the SSH manager starts with its own share. -/
def startPolicy (coreUsers : Int → Bool) (p : TrafficRuntimePolicy) : TrafficRuntimePolicy :=
  if coreUsers p.userID && p.leaseEnforced then sshHalf p else p

/-! ## What the runtimes are handed -/

def SameButLease (p q : TrafficRuntimePolicy) : Prop :=
  { q with leaseBytes := p.leaseBytes, resetLeaseBytes := p.resetLeaseBytes } = p

/-- A policy of the wire. -/
def Given : Prop :=
  ∃ k raw, policies.lookup k = some raw ∧ raw.decode = some p

section Entries

variable {policies : Wire} {u : Int}

theorem coreKey_inj {v : Int} (hu : 0 < u) (hv : 0 < v) (h : coreKey u = coreKey v) : u = v := by
  obtain ⟨n, rfl⟩ := Int.eq_ofNat_of_zero_le (Int.le_of_lt hu)
  obtain ⟨m, rfl⟩ := Int.eq_ofNat_of_zero_le (Int.le_of_lt hv)
  have hlists := congrArg String.toList h
  simp only [coreKey, String.toList_append] at hlists
  have htexts : toString n = toString m := String.toList_inj.mp (List.append_cancel_left hlists)
  rw [Texts.toString_inj htexts]

theorem lookup_convert (hu : 0 < u) : ∀ (l : List (Σ _ : String, RawPolicy)) (c₀ c : Wire),
    l.foldlM (fun converted e => convertEntry converted e.2) c₀ = some c →
    c.lookup (coreKey u)
      = ((l.map (·.2)).filter (·.userID = some u)).getLast?.or (c₀.lookup (coreKey u))
  | [], c₀, c, h => by
    cases h
    rfl
  | e :: l, c₀, c, h => by
    rw [List.foldlM_cons] at h
    obtain ⟨c₁, h₁, hrest⟩ := Option.bind_eq_some_iff.mp h
    rw [lookup_convert hu l c₁ c hrest, List.map_cons, List.filter_cons]
    unfold convertEntry at h₁
    cases hid : e.2.userID with
    | none =>
      rw [hid] at h₁
      cases h₁
    | some v =>
      simp only [hid] at h₁
      by_cases hv : v ≤ 0
      · rw [if_pos hv] at h₁
        cases h₁
        have hne : some v ≠ some u := by
          intro heq
          cases heq
          omega
        rw [if_neg (by simpa using hne)]
      · rw [if_neg hv] at h₁
        cases h₁
        rw [GoMap.lookup_insert_eq]
        by_cases hvu : v = u
        · subst hvu
          rw [if_pos rfl, if_pos (by simp), List.getLast?_cons]
          cases ((l.map (·.2)).filter (·.userID = some v)).getLast? <;> rfl
        · have hkey : coreKey u ≠ coreKey v := fun heq => hvu (coreKey_inj (by omega) hu heq.symm)
          rw [if_neg hkey, if_neg (by simpa using hvu)]

theorem convert_user {c : Wire} (hu : 0 < u) (h : convertCorePolicies policies = some c) :
    (∀ raw, c.lookup (coreKey u) = some raw →
      raw.userID = some u ∧ ∃ k, policies.lookup k = some raw) ∧
    (∀ k raw, policies.lookup k = some raw → raw.userID = some u →
      ∃ raw', c.lookup (coreKey u) = some raw') := by
  have hlast := lookup_convert hu policies.entries ∅ c h
  rw [AList.lookup_empty, Option.or_none] at hlast
  constructor
  · intro raw hraw
    rw [hlast] at hraw
    obtain ⟨hmem, huser⟩ := List.mem_filter.mp (List.mem_of_getLast? hraw)
    obtain ⟨e, he, rfl⟩ := List.mem_map.mp hmem
    exact ⟨by simpa using huser, e.1, AList.mem_lookup_iff.mpr he⟩
  · intro k raw hraw huser
    rw [hlast]
    have hmem : raw ∈ (policies.entries.map (·.2)).filter (·.userID = some u) := by
      refine List.mem_filter.mpr ⟨?_, by simpa using huser⟩
      exact List.mem_map.mpr ⟨⟨k, raw⟩, AList.mem_lookup_iff.mp hraw, rfl⟩
    exact Option.isSome_iff_exists.mp (by simpa using List.ne_nil_of_mem hmem)

theorem mem_parsedPolicies {p : TrafficRuntimePolicy} :
    p ∈ parsedPolicies policies ↔ Given policies p ∧ 0 < p.userID := by
  unfold parsedPolicies
  rw [List.mem_filterMap]
  constructor
  · rintro ⟨e, he, hp⟩
    obtain ⟨hdecode, hpos⟩ := Option.filter_eq_some_iff.mp hp
    exact ⟨⟨e.1, e.2, AList.mem_lookup_iff.mpr he, hdecode⟩, by simpa using hpos⟩
  · rintro ⟨⟨k, raw, hraw, hdecode⟩, hpos⟩
    exact ⟨⟨k, raw⟩, AList.mem_lookup_iff.mp hraw,
      Option.filter_eq_some_iff.mpr ⟨hdecode, by simpa using hpos⟩⟩

end Entries

/-! ## One policy, split -/

theorem halves_add {n : Int} (hmin : -9223372036854775808 ≤ n) (hmax : n ≤ 9223372036854775807) :
    (int64 (n + 1)).tdiv 2 + n.tdiv 2 = n ↔ 0 ≤ n ∧ n < 9223372036854775807 := by
  unfold int64
  by_cases hlast : n = 9223372036854775807
  · subst hlast
    decide
  · have hsame : (n + 1).bmod 18446744073709551616 = n + 1 :=
      Int.bmod_eq_of_le (by omega) (by omega)
    rw [hsame]
    by_cases hn : 0 ≤ n
    · rw [Int.tdiv_eq_ediv_of_nonneg (by omega), Int.tdiv_eq_ediv_of_nonneg hn]
      omega
    · -- below zero both halves are rounded towards it
      have hcore : (n + 1).tdiv 2 = -((-(n + 1)) / 2) := by
        rw [← Int.tdiv_eq_ediv_of_nonneg (by omega), Int.neg_tdiv, Int.neg_neg]
      have hssh : n.tdiv 2 = -((-n) / 2) := by
        rw [← Int.tdiv_eq_ediv_of_nonneg (by omega), Int.neg_tdiv, Int.neg_neg]
      rw [hcore, hssh]
      omega

def hasCore (u : Int) : Bool := coreUsers u || !sshUsers u

def hasSSH (u : Int) : Bool := sshUsers u || !coreUsers u

section Split

variable {coreUsers sshUsers : Int → Bool} {raw raw' : RawPolicy} {p : TrafficRuntimePolicy}

theorem shares_of_decode (h : raw.decode = some p) (hpos : 0 < p.userID) :
    shares coreUsers sshUsers raw =
      (if hasCore coreUsers sshUsers p.userID then
          some (.typed (if hasSSH coreUsers sshUsers p.userID && p.leaseEnforced then coreHalf p else p))
        else none,
        if hasSSH coreUsers sshUsers p.userID then
          some (.typed (if hasCore coreUsers sshUsers p.userID && p.leaseEnforced then sshHalf p else p))
        else none) := by
  have hnot : ¬p.userID ≤ 0 := by omega
  simp only [shares, h, if_neg hnot, hasCore, hasSSH]
  rcases Bool.eq_false_or_eq_true (coreUsers p.userID) with hc | hc <;>
    rcases Bool.eq_false_or_eq_true (sshUsers p.userID) with hs | hs <;> simp [hc, hs]

theorem shares_of_other (h : raw.decode = none ∨ ∃ p, raw.decode = some p ∧ p.userID ≤ 0) :
    shares coreUsers sshUsers raw = (some raw, some raw) := by
  rcases h with h | ⟨p, h, hle⟩
  · simp only [shares, h]
  · simp only [shares, h, if_pos hle]

theorem share_same (h : (shares coreUsers sshUsers raw).1 = some raw' ∨
      (shares coreUsers sshUsers raw).2 = some raw') :
    raw'.userID = raw.userID ∧
      ∀ q, raw'.decode = some q → ∃ p, raw.decode = some p ∧ SameButLease p q := by
  cases hp : raw.decode with
  | none =>
    rw [shares_of_other (Or.inl hp)] at h
    obtain rfl : raw = raw' := by simpa using h
    exact ⟨rfl, fun q hq => absurd hq (by simp [hp])⟩
  | some p =>
    by_cases hle : p.userID ≤ 0
    · rw [shares_of_other (Or.inr ⟨p, hp, hle⟩)] at h
      obtain rfl : raw = raw' := by simpa using h
      refine ⟨rfl, fun q hq => ⟨p, rfl, ?_⟩⟩
      obtain rfl : p = q := by simpa [hp] using hq
      rfl
    · rw [shares_of_decode hp (by omega)] at h
      -- in every case the share is `p` with other leases
      have htyped : ∃ q, raw' = .typed q ∧ q.userID = p.userID ∧ SameButLease p q := by
        rcases h with h | h
        all_goals
          dsimp only at h
          split at h
          · cases h
            refine ⟨_, rfl, ?_⟩
            split <;> exact ⟨rfl, rfl⟩
          · cases h
      obtain ⟨q, rfl, huser, hsame⟩ := htyped
      rw [RawPolicy.userID_of_decode hp]
      refine ⟨congrArg some huser, fun q' hq' => ⟨p, rfl, ?_⟩⟩
      cases hq'
      exact hsame

end Split

/-! ## The allotment of a user -/

/-- The wire has policies of the user, and all of them enforce the lease the Controller allots. -/
structure Allots (policies : Wire) (u leaseBytes resetLeaseBytes : Int) : Prop where
  given : ∃ p, Given policies p ∧ p.userID = u
  all : ∀ k raw, policies.lookup k = some raw → raw.userID = some u →
    ∃ p, raw.decode = some p ∧ p.leaseEnforced = true ∧ p.leaseBytes = leaseBytes ∧
      p.resetLeaseBytes = resetLeaseBytes

/-- The kernel's users are known, and the lease goes to one runtime only or can be split; or there
is no lease to split. -/
def SplitsExactly (coreUsers : Option (Int → Bool)) (sshUsers : Int → Bool)
    (u leaseBytes resetLeaseBytes : Int) : Prop :=
  match coreUsers with
  | none => leaseBytes = 0 ∧ resetLeaseBytes = 0
  | some users => users u ≠ sshUsers u ∨
      (0 ≤ leaseBytes ∧ leaseBytes < 9223372036854775807) ∧
      (0 ≤ resetLeaseBytes ∧ resetLeaseBytes < 9223372036854775807)

section Push

variable {coreUsers : Option (Int → Bool)} {sshUsers : Int → Bool} {policies : Wire} {accepted : Bool}
  {u leaseBytes resetLeaseBytes : Int} {x : Push}

def handed (coreUsers : Option (Int → Bool)) (sshUsers : Int → Bool) (policies : Wire) : Wire × Wire :=
  match coreUsers with
  | none => (policies, policies)
  | some users => partitionRuntimePolicyLeases policies users sshUsers

theorem push_ok (hx : pushTrafficPolicies coreUsers sshUsers policies accepted = x) (h : x.ok = true) :
    convertCorePolicies (handed coreUsers sshUsers policies).1 = some x.core ∧
      x.ssh = parsedPolicies (handed coreUsers sshUsers policies).2 := by
  unfold pushTrafficPolicies at hx
  change (match convertCorePolicies (handed coreUsers sshUsers policies).1 with
    | none => _
    | some converted => if accepted then
        { ssh := parsedPolicies (handed coreUsers sshUsers policies).2, .. } else _) = x at hx
  cases hconvert : convertCorePolicies (handed coreUsers sshUsers policies).1 with
  | none =>
    rw [hconvert] at hx
    cases hx
    cases h
  | some converted =>
    rw [hconvert] at hx
    cases accepted with
    | true =>
      cases hx
      exact ⟨rfl, rfl⟩
    | false =>
      cases hx
      cases h

def Carries (u leaseBytes resetLeaseBytes : Int) (p : TrafficRuntimePolicy) : Prop :=
  p.userID = u ∧ p.leaseEnforced = true ∧ p.leaseBytes = leaseBytes ∧ p.resetLeaseBytes = resetLeaseBytes

variable {side : Wire} {f : RawPolicy → Option RawPolicy}

theorem Allots.origin (h : Allots policies u leaseBytes resetLeaseBytes)
    (hside : ∀ k, side.lookup k = (policies.lookup k).bind f)
    (hf : ∀ raw raw', f raw = some raw' → raw'.userID = raw.userID) {k : String} {raw' : RawPolicy}
    (hraw' : side.lookup k = some raw') (huser : raw'.userID = some u) :
    ∃ raw p, f raw = some raw' ∧ raw.decode = some p ∧ Carries u leaseBytes resetLeaseBytes p := by
  rw [hside] at hraw'
  obtain ⟨raw, hraw, hfraw⟩ := Option.bind_eq_some_iff.mp hraw'
  have hsame : raw.userID = some u := (hf raw raw' hfraw).symm.trans huser
  obtain ⟨p, hdecode, henforced, hlease, hreset⟩ := h.all k raw hraw hsame
  have hid : p.userID = u := by
    have := (RawPolicy.userID_of_decode hdecode).symm.trans hsame
    exact Option.some.inj this
  exact ⟨raw, p, hfraw, hdecode, hid, henforced, hlease, hreset⟩

theorem Allots.found {g : TrafficRuntimePolicy → Option TrafficRuntimePolicy}
    (h : Allots policies u leaseBytes resetLeaseBytes) (hu : 0 < u)
    (hside : ∀ k, side.lookup k = (policies.lookup k).bind f)
    (hf : ∀ raw raw', f raw = some raw' → raw'.userID = raw.userID)
    (hg : ∀ raw p, raw.decode = some p → Carries u leaseBytes resetLeaseBytes p →
      (f raw).bind (·.decode) = g p) :
    (∀ c, convertCorePolicies side = some c →
      ∃ p, Carries u leaseBytes resetLeaseBytes p ∧ (c.lookup (coreKey u)).bind (·.decode) = g p) ∧
    ∃ p, Carries u leaseBytes resetLeaseBytes p ∧
      ((parsedPolicies side).filter (·.userID = u)).getLast? = g p := by
  obtain ⟨p₀, ⟨k₀, raw₀, hraw₀, hdecode₀⟩, hid₀⟩ := h.given
  have huser₀ : raw₀.userID = some u := (RawPolicy.userID_of_decode hdecode₀).trans (congrArg some hid₀)
  have hcarries₀ : Carries u leaseBytes resetLeaseBytes p₀ := by
    obtain ⟨p, hdecode, hrest⟩ := h.all k₀ raw₀ hraw₀ huser₀
    obtain rfl : p₀ = p := Option.some.inj (hdecode₀.symm.trans hdecode)
    exact ⟨hid₀, hrest⟩
  have hlookup₀ : side.lookup k₀ = f raw₀ := by
    rw [hside, hraw₀]
    rfl
  constructor
  · intro c hc
    obtain ⟨hof, hsome⟩ := convert_user hu hc
    cases hraw' : c.lookup (coreKey u) with
    | some raw' =>
      obtain ⟨huser', k', hk'⟩ := hof raw' hraw'
      obtain ⟨raw, p, hfraw, hdecode, hcarries⟩ := h.origin hside hf hk' huser'
      exact ⟨p, hcarries, by rw [← hg raw p hdecode hcarries, hfraw]⟩
    | none =>
      -- the side has nothing of the policy that is given
      refine ⟨p₀, hcarries₀, ?_⟩
      rw [← hg raw₀ p₀ hdecode₀ hcarries₀]
      cases hf₀ : f raw₀ with
      | none => rfl
      | some raw₁ =>
        obtain ⟨raw', hraw''⟩ := hsome k₀ raw₁ (hlookup₀.trans hf₀) ((hf raw₀ raw₁ hf₀).trans huser₀)
        cases hraw'.symm.trans hraw''
  · cases hq : ((parsedPolicies side).filter (·.userID = u)).getLast? with
    | some q =>
      obtain ⟨hparsed, huserq⟩ := List.mem_filter.mp (List.mem_of_getLast? hq)
      obtain ⟨⟨k, raw', hraw', hdecodeq⟩, -⟩ := mem_parsedPolicies.mp hparsed
      have huser' : raw'.userID = some u :=
        (RawPolicy.userID_of_decode hdecodeq).trans (congrArg some (by simpa using huserq))
      obtain ⟨raw, p, hfraw, hdecode, hcarries⟩ := h.origin hside hf hraw' huser'
      refine ⟨p, hcarries, ?_⟩
      rw [← hg raw p hdecode hcarries, hfraw]
      exact hdecodeq.symm
    | none =>
      refine ⟨p₀, hcarries₀, ?_⟩
      rw [← hg raw₀ p₀ hdecode₀ hcarries₀]
      cases hb : (f raw₀).bind (·.decode) with
      | none => rfl
      | some q =>
        obtain ⟨raw₁, hf₁, hdecode₁⟩ := Option.bind_eq_some_iff.mp hb
        have hid : q.userID = u := Option.some.inj
          ((RawPolicy.userID_of_decode hdecode₁).symm.trans ((hf raw₀ raw₁ hf₁).trans huser₀))
        have hmem : q ∈ parsedPolicies side :=
          mem_parsedPolicies.mpr ⟨⟨k₀, raw₁, hlookup₀.trans hf₁, hdecode₁⟩, hid ▸ hu⟩
        have hnil := List.filter_eq_nil_iff.mp (List.getLast?_eq_none_iff.mp hq) q hmem
        exact absurd (by simpa using hid) hnil

/-- What the two runtimes are handed of a lease of `n` bytes. -/
def handedBytes (coreUsers : Option (Int → Bool)) (sshUsers : Int → Bool) (u n : Int) : Int :=
  match coreUsers with
  | none => n + n
  | some users => if users u = sshUsers u then (int64 (n + 1)).tdiv 2 + n.tdiv 2 else n

theorem leaseBytes_push (hu : 0 < u) (h : Allots policies u leaseBytes resetLeaseBytes)
    (hx : pushTrafficPolicies coreUsers sshUsers policies accepted = x) (hok : x.ok = true) :
    x.leaseBytes u = handedBytes coreUsers sshUsers u leaseBytes ∧
      x.resetLeaseBytes u = handedBytes coreUsers sshUsers u resetLeaseBytes := by
  obtain ⟨hcore, hssh⟩ := push_ok hx hok
  unfold Push.leaseBytes Push.resetLeaseBytes Push.coreFor Push.sshFor
  rw [hssh]
  cases coreUsers with
  | none =>
    have hsame : ∀ k, policies.lookup k = (policies.lookup k).bind some := fun k => by
      cases policies.lookup k <;> rfl
    obtain ⟨hcoreFor, q, ⟨-, -, hq, hq'⟩, hsshFor⟩ := h.found (f := some) (g := some) hu hsame
      (by rintro raw _ ⟨⟩; rfl) (fun raw p hdecode _ => hdecode)
    obtain ⟨p, ⟨-, -, hp, hp'⟩, hcoreFor⟩ := hcoreFor _ hcore
    dsimp only [handed]
    rw [hcoreFor, hsshFor]
    simp [handedBytes, hp, hp', hq, hq']
  | some users =>
    have hshares : ∀ raw p, raw.decode = some p → Carries u leaseBytes resetLeaseBytes p →
        ((shares users sshUsers raw).1.bind (·.decode) = if hasCore users sshUsers u then
            some (if hasSSH users sshUsers u then coreHalf p else p) else none) ∧
        ((shares users sshUsers raw).2.bind (·.decode) = if hasSSH users sshUsers u then
            some (if hasCore users sshUsers u then sshHalf p else p) else none) := by
      rintro raw p hdecode ⟨hid, henforced, -, -⟩
      rw [shares_of_decode hdecode (hid ▸ hu), hid, henforced]
      simp only [Bool.and_true]
      constructor <;> split <;> rfl
    obtain ⟨p, ⟨-, -, hp, hp'⟩, hcoreFor⟩ := (h.found hu
      (fun k => GoMap.lookup_filterMap (fun _ raw => (shares users sshUsers raw).1) policies k)
      (fun raw raw' h => (share_same (Or.inl h)).1) (fun raw p hd hp => (hshares raw p hd hp).1)).1 _ hcore
    obtain ⟨q, ⟨-, -, hq, hq'⟩, hsshFor⟩ := (h.found hu
      (fun k => GoMap.lookup_filterMap (fun _ raw => (shares users sshUsers raw).2) policies k)
      (fun raw raw' h => (share_same (Or.inr h)).1) (fun raw p hd hp => (hshares raw p hd hp).2)).2
    dsimp only [handed, partitionRuntimePolicyLeases]
    rw [hcoreFor, hsshFor]
    cases hc : users u <;> cases hs : sshUsers u <;>
      simp [handedBytes, hasCore, hasSSH, hc, hs, coreHalf, sshHalf, hp, hp', hq, hq']

theorem given_of_handed (coreUsers : Option (Int → Bool)) (sshUsers : Int → Bool)
    {q : TrafficRuntimePolicy}
    (h : Given (handed coreUsers sshUsers policies).1 q ∨ Given (handed coreUsers sshUsers policies).2 q) :
    ∃ p, Given policies p ∧ SameButLease p q := by
  cases coreUsers with
  | none => exact ⟨q, or_self_iff.mp h, rfl⟩
  | some users =>
    have hshare : ∃ k raw raw', policies.lookup k = some raw ∧ raw'.decode = some q ∧
        ((shares users sshUsers raw).1 = some raw' ∨ (shares users sshUsers raw).2 = some raw') := by
      rcases h with ⟨k, raw', hraw', hdecode⟩ | ⟨k, raw', hraw', hdecode⟩
      · obtain ⟨raw, hraw, hf⟩ := Option.bind_eq_some_iff.mp ((GoMap.lookup_filterMap _ _ k).symm.trans hraw')
        exact ⟨k, raw, raw', hraw, hdecode, Or.inl hf⟩
      · obtain ⟨raw, hraw, hf⟩ := Option.bind_eq_some_iff.mp ((GoMap.lookup_filterMap _ _ k).symm.trans hraw')
        exact ⟨k, raw, raw', hraw, hdecode, Or.inr hf⟩
    obtain ⟨k, raw, raw', hraw, hdecode, hf⟩ := hshare
    obtain ⟨p, hp, hsame⟩ := (share_same hf).2 q hdecode
    exact ⟨p, ⟨k, raw, hraw, hp⟩, hsame⟩

theorem handed_same (hx : pushTrafficPolicies coreUsers sshUsers policies accepted = x) (hok : x.ok = true)
    {v : Int} (hv : 0 < v) {q : TrafficRuntimePolicy} (hq : x.coreFor v = some q ∨ x.sshFor v = some q) :
    ∃ p, Given policies p ∧ SameButLease p q := by
  obtain ⟨hcore, hssh⟩ := push_ok hx hok
  refine given_of_handed coreUsers sshUsers (hq.imp (fun hq => ?_) fun hq => ?_)
  · obtain ⟨raw, hraw, hdecode⟩ := Option.bind_eq_some_iff.mp hq
    obtain ⟨-, k, hk⟩ := (convert_user hv hcore).1 raw hraw
    exact ⟨k, raw, hk, hdecode⟩
  · have hmem := List.mem_of_getLast? hq
    rw [hssh] at hmem
    exact (mem_parsedPolicies.mp (List.mem_filter.mp hmem).1).1

end Push

theorem startPolicy_eq_share {coreUsers sshUsers : Int → Bool} {p : TrafficRuntimePolicy}
    (hpos : 0 < p.userID) (hssh : sshUsers p.userID = true) :
    (shares coreUsers sshUsers (.typed p)).2 = some (.typed (startPolicy coreUsers p)) := by
  rw [shares_of_decode rfl hpos]
  simp [hasCore, hasSSH, hssh, startPolicy]

/-- **The split of a lease.** A push that succeeds hands the two runtimes, together, exactly the
lease and the reset lease that the Controller allots to a user, if and only if the kernel's users
are known and the lease goes to one runtime or is one that the halves of 64-bit numbers add up to
(or there is nothing to split). No other field is changed. The SSH manager is started with the share
that a push would hand it. -/
theorem leases_split_exactly (coreUsers : Option (Int → Bool)) (sshUsers : Int → Bool) (policies : Wire)
    (accepted : Bool) {u leaseBytes resetLeaseBytes : Int} (hu : 0 < u)
    (hlease : -9223372036854775808 ≤ leaseBytes ∧ leaseBytes ≤ 9223372036854775807)
    (hreset : -9223372036854775808 ≤ resetLeaseBytes ∧ resetLeaseBytes ≤ 9223372036854775807)
    (h : Allots policies u leaseBytes resetLeaseBytes)
    (hok : (pushTrafficPolicies coreUsers sshUsers policies accepted).ok = true) :
    (((pushTrafficPolicies coreUsers sshUsers policies accepted).leaseBytes u = leaseBytes ∧
        (pushTrafficPolicies coreUsers sshUsers policies accepted).resetLeaseBytes u = resetLeaseBytes) ↔
      SplitsExactly coreUsers sshUsers u leaseBytes resetLeaseBytes) ∧
    (∀ v q, 0 < v → ((pushTrafficPolicies coreUsers sshUsers policies accepted).coreFor v = some q ∨
        (pushTrafficPolicies coreUsers sshUsers policies accepted).sshFor v = some q) →
      ∃ p, Given policies p ∧ SameButLease p q) ∧
    (∀ users p, coreUsers = some users → 0 < p.userID → sshUsers p.userID = true →
      (shares users sshUsers (.typed p)).2 = some (.typed (startPolicy users p))) := by
  refine ⟨?_, fun v q hv hq => handed_same rfl hok hv hq, fun users p _ hpos hssh =>
    startPolicy_eq_share hpos hssh⟩
  obtain ⟨hleaseSum, hresetSum⟩ := leaseBytes_push hu h rfl hok
  rw [hleaseSum, hresetSum]
  cases coreUsers with
  | none =>
    simp only [SplitsExactly, handedBytes]
    omega
  | some users =>
    simp only [SplitsExactly, handedBytes]
    by_cases hboth : users u = sshUsers u
    · rw [if_pos hboth, if_pos hboth, halves_add hlease.1 hlease.2, halves_add hreset.1 hreset.2]
      exact (or_iff_right (not_not_intro hboth)).symm
    · rw [if_neg hboth, if_neg hboth]
      exact iff_of_true ⟨rfl, rfl⟩ (Or.inl hboth)

def leased : TrafficRuntimePolicy :=
  { userID := 7, billable := true, leaseEnforced := true, leaseBytes := 101, resetLeaseBytes := 51 }

def leasedWire : Wire := AList.insert "user:7" (.json leased) ∅

theorem allots_leasedWire : Allots leasedWire 7 101 51 where
  given := ⟨leased, ⟨"user:7", .json leased, by decide, rfl⟩, rfl⟩
  all := by
    intro k raw hraw huser
    have hone : raw = .json leased := by
      rw [leasedWire, GoMap.lookup_insert_eq] at hraw
      split at hraw
      · exact (Option.some.inj hraw).symm
      · cases hraw
    subst hone
    exact ⟨leased, rfl, rfl, rfl, rfl⟩

/-- Both runtimes have the user: 51 and 50 bytes. -/
theorem leased_split :
    let x := pushTrafficPolicies (some fun u => u = 7) (fun u => u = 7) leasedWire true
    (x.leaseBytes 7 = 101 ∧ x.resetLeaseBytes 7 = 51) ∧
      (x.coreFor 7).map (·.leaseBytes) = some 51 ∧ (x.sshFor 7).map (·.leaseBytes) = some 50 := by
  refine ⟨?_, by decide +kernel⟩
  exact (leases_split_exactly (some fun u => u = 7) (fun u => u = 7) leasedWire true (by decide)
    (by decide) (by decide) allots_leasedWire (by decide +kernel)).1.mpr (Or.inr (by decide))

/-- The configuration of the kernel cannot be read: both runtimes get the whole lease. And the
largest lease is not split into halves that add up to it. -/
theorem whole_lease_twice :
    (pushTrafficPolicies none (fun u => u = 7) leasedWire true).leaseBytes 7 = 202 ∧
    (pushTrafficPolicies (some fun u => u = 7) (fun u => u = 7)
      (AList.insert "user:7" (.typed { leased with leaseBytes := 9223372036854775807 }) ∅) true).leaseBytes 7
        = -1 := by
  decide +kernel

end OboardAgent.Policies
