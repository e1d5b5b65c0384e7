import OboardAgent.Ssh.Plan
import OboardAgent.Lib.NetIp

/-!
# Where restricted SSH users may go

A restricted SSH user names a host and a port. The agent resolves the host and refuses what is not
public (`internal/agent/ssh_inbounds.go`). It then asks the kernel for a connection, over HTTP on a
local socket: the headers carry the host and the addresses that it found
(`internal/agent/outbound_relay.go`). The kernel checks them once more
(`cmd/oboard-sb/route_relay.go`), and checks again where it resolves the name itself
(`internal/protocol/familyselector/outbound.go`).

The two checks are not the same function. The agent's is the kernel's and a list of prefixes for
special purposes.

The type of the kernel's destinations is from a library and is seen through its methods.
-/

namespace OboardAgent.Ssh

open NetIp
open GoStrings (isSpace trimSpace)

def trim (cs : List Char) : List Char := (cs.dropWhile isSpace).rdropWhile isSpace

/-! ## The agent -/

def net4 (a b c d : Fin 256) (bits : Nat) : Net := ⟨.v4 ⟨a, b, c, d⟩, bits⟩

def net6 (a b c : Fin 65536) (bits : Nat) : Net := ⟨.v6 ⟨[a, b, c, 0, 0, 0, 0, 0], rfl⟩ "", bits⟩

def blockedSSHDestinationPrefixes : List Net :=
  [net4 0 0 0 0 8, net4 100 64 0 0 10, net4 192 0 0 0 24, net4 192 0 2 0 24, net4 192 88 99 0 24,
    net4 198 18 0 0 15,
    net4 198 51 100 0 24, net4 203 0 113 0 24, net4 240 0 0 0 4, net6 0x2001 2 0 48,
      net6 0x2001 0x10 0 28, net6 0x2001 0xdb8 0 32]

/-- On the agent's list of prefixes for special purposes. -/
def isSpecial (address : Addr) : Bool := blockedSSHDestinationPrefixes.any fun p =>
    p.contains address.unmap

def isPermittedSSHDestination (address : Addr) : Bool :=
  let a := address.unmap
  if !a.isValid || !a.isGlobalUnicast || a.isPrivate || a.isLoopback || a.isUnspecified ||
    a.isLinkLocalUnicast ||
      a.isLinkLocalMulticast || a.isMulticast then false
  else !isSpecial address

def isHostnameChar (c : Char) : Bool := c.isAlphanum || c = '-'

def validLabel (label : List Char) : Bool :=
  label ≠ [] && label.length ≤ 63 && label.head? ≠ some '-' && label.getLast?
    ≠ some '-' && label.all isHostnameChar

def validSSHInboundHostname (host : List Char) : Bool :=
  host.length ≤ 253 && host.getLast? ≠ some '.' && (host.splitOn '.').all validLabel

/-- `resolvePermittedSSHDestination`, given what the resolver answers for a name. -/
def resolvePermittedSSHDestination (lookup : String → Option (List Addr)) (host : String)
    (port : Nat) : Option (List Addr) :=
  let host := trimSpace host
  if host = "" ∨ port = 0 ∨ 65535 < port then none
  else
    match parseAddr host.toList with
    | some parsed => if isPermittedSSHDestination parsed.unmap then some [parsed.unmap] else none
    | none =>
      if !validSSHInboundHostname host.toList then none
      else
        match lookup host with
        | none => none
        | some resolved =>
          if resolved = [] then none
          else if resolved.all fun a => isPermittedSSHDestination a.unmap
            then some (resolved.map Addr.unmap)
          else none

/-- The identity of a user's route, as the validation of a plan leaves it. -/
structure Route where
  inboundTag : String
  authUser : String
  inboundTag_ok : sshRouteInboundPattern (trimSpace inboundTag) = true
  authUser_ok : sshRouteAuthUserPattern authUser = true

structure RelayRequest where
  inboundTag : String
  authUser : String
  destination : String
  resolvedAddresses : String

def dialCoreRouteRelay (route : Route) (destination : String) (resolved : List Addr) :
    RelayRequest where
  inboundTag := route.inboundTag
  authUser := route.authUser
  destination := destination
  resolvedAddresses := String.ofList ([','].intercalate (resolved.map fun a => a.unmap.text))

/-- What is asked for on a TCP channel. -/
def tcpRequest (route : Route) (host : String) (port : Nat) (resolved : List Addr) : RelayRequest :=
  dialCoreRouteRelay route (joinHostPort (trimSpace host) port) resolved

/-- What is asked for on a datagram: `AddrPort.String` is the address and the port. -/
def udpRequest (route : Route) (address : Addr) (port : Nat) : RelayRequest :=
  dialCoreRouteRelay route (joinHostPort (String.ofList address.text) port) [address]

/-! ## The kernel -/

/-- `restrictedtarget.Public`. -/
def isPublic (address : Addr) : Bool :=
  let a := address.unmap
  a.isValid && a.isGlobalUnicast && !a.isPrivate && !a.isLoopback

/-- A destination, as the methods of the library's type show it. -/
structure Socksaddr where
  isValid : Bool
  isIP : Bool
  isDomain : Bool
  addr : Addr
  port : Nat

def routeInboundTagPattern (value : String) : Bool := sshRouteInboundPattern value
def routeAuthUserPattern (value : String) : Bool := sshRouteAuthUserPattern value

def relayAddress (part : List Char) : Option Addr :=
  match parseAddr (trim part) with
  | none => none
  | some address => if isPublic address.unmap then some address.unmap else none

def relayAddresses : List (List Char) → List Addr → Option (List Addr)
  | [], addresses => some addresses
  | part :: parts, addresses =>
    match relayAddress part with
    | none => none
    | some address => relayAddresses parts
        (if address ∈ addresses then addresses else addresses ++ [address])

def parseRouteRelayAddresses (value : List Char) : Option (List Addr) :=
  let parts := (trim value).splitOn ','
  if parts = [[]] then some []
  else if 32 < parts.length then none
  else relayAddresses parts []

/-- What the relay hands to the router. -/
structure InboundContext where
  destination : Socksaddr
  destinationAddresses : List Addr

/-- `newRouteRelayHandler`, for a `CONNECT` request. -/
def routeRelay (parseSocksaddr : String → Socksaddr) (request : RelayRequest) :
    Option InboundContext :=
  if !routeInboundTagPattern (trimSpace request.inboundTag) || !routeAuthUserPattern
    (trimSpace request.authUser) then none
  else
    let destination := parseSocksaddr (trimSpace request.destination)
    if !destination.isValid || destination.port = 0 then none
    else
      match parseRouteRelayAddresses request.resolvedAddresses.toList with
      | none => none
      | some resolved =>
        if destination.isDomain && resolved = [] then none
        else if destination.isIP then
          let address := destination.addr.unmap
          if !isPublic address then none
          else some ⟨destination, if resolved = [] then [address] else resolved⟩
        else some ⟨destination, resolved⟩

def maxAddressesPerFamily : Nat := 8

structure Candidates where
  ipv4 : List Addr
  ipv6 : List Addr

def appendBounded (addresses : List Addr) (address : Addr) : List Addr :=
  if addresses.length < maxAddressesPerFamily then addresses ++ [address] else addresses

def addCandidate (state : List Addr × Candidates) (address : Addr) : List Addr × Candidates :=
  let address := address.unmap
  if !address.isValid || address ∈ state.1 then state
  else if address.is4 then (address :: state.1,
    { state.2 with ipv4 := appendBounded state.2.ipv4 address })
  else (address :: state.1, { state.2 with ipv6 := appendBounded state.2.ipv6 address })

/-- `candidates` of the family selector: the addresses that may be dialled for a destination. -/
def candidates (restricted : Bool) (destination : Socksaddr) (lookup : Option (List Addr)) :
    Option Candidates :=
  if restricted && destination.isIP && !isPublic destination.addr then none
  else if destination.isIP then
    if destination.addr.is4 then some ⟨[destination.addr], []⟩ else some ⟨[], [destination.addr]⟩
  else
    match lookup with
    | none => none
    | some addresses =>
      if restricted && addresses.any (fun a => !isPublic a) then none
      else
        let found := (addresses.foldl addCandidate ([], ⟨[], []⟩)).2
        if found.ipv4 = [] ∧ found.ipv6 = [] then none else some found

/-! ## The two boundaries -/

@[simp] theorem isPublic_unmap (a : Addr) : isPublic a.unmap = isPublic a := by
  simp [isPublic]

@[simp] theorem isSpecial_unmap (a : Addr) : isSpecial a.unmap = isSpecial a := by
  simp [isSpecial]

/-- **The agent's boundary is the kernel's, less the special prefixes.** -/
theorem isPermitted_iff (a : Addr) : isPermittedSSHDestination a = true ↔
    isPublic a = true ∧ isSpecial a = false := by
  cases hglobal : a.unmap.isGlobalUnicast with
  | false => simp [isPermittedSSHDestination, isPublic, hglobal]
  | true =>
    obtain ⟨hunspecified, hlink, hlinkMulticast, hmulticast⟩ := class_of_globalUnicast hglobal
    simp [isPermittedSSHDestination, isPublic, hglobal, hunspecified, hlink,
      hlinkMulticast, hmulticast]

@[simp] theorem isPermitted_unmap (a : Addr) :
    isPermittedSSHDestination a.unmap = isPermittedSSHDestination a := by
  rw [Bool.eq_iff_iff, isPermitted_iff, isPermitted_iff, isPublic_unmap, isSpecial_unmap]

variable {a : Addr} {as addresses : List Addr} {parseSocksaddr : String → Socksaddr}

theorem isValid_of_isPublic (h : isPublic a = true) : a.unmap.isValid = true := by
  simp only [isPublic, Bool.and_eq_true] at h
  exact h.1.1.1

/-! ## Texts that trimming leaves alone -/

structure Tight (cs : List Char) : Prop where
  first : ∃ c, cs.head? = some c ∧ isSpace c = false
  last : ∃ c, cs.getLast? = some c ∧ isSpace c = false

theorem Tight.trim {cs : List Char} (h : Tight cs) : trim cs = cs := by
  obtain ⟨c, hc, hspace⟩ := h.first
  obtain ⟨d, hd, hdspace⟩ := h.last
  have hdrop : cs.dropWhile isSpace = cs := by
    cases cs with
    | nil => rfl
    | cons x cs =>
      cases hc
      rw [List.dropWhile_cons_of_neg (by simp [hspace])]
  unfold Ssh.trim
  rw [hdrop, List.rdropWhile_eq_self_iff]
  intro hne
  rw [List.getLast?_eq_some_getLast hne] at hd
  cases hd
  simp [hdspace]

theorem Tight.ne_nil {cs : List Char} (h : Tight cs) : cs ≠ [] := by
  rintro rfl
  obtain ⟨c, hc, -⟩ := h.first
  cases hc

theorem Tight.append {x y : List Char} (hx : Tight x) (sep : List Char)
    (hy : ∃ c, y.getLast? = some c ∧ isSpace c = false) : Tight (x ++ sep ++ y) where
  first := by
    obtain ⟨c, hc, hspace⟩ := hx.first
    exact ⟨c, by rw [List.append_assoc, List.head?_append, hc]; rfl, hspace⟩
  last := by
    obtain ⟨c, hc, hspace⟩ := hy
    exact ⟨c, by rw [List.getLast?_append, hc]; rfl, hspace⟩

theorem tight_of_forall {cs : List Char} (hne : cs ≠ []) (h : ∀ c ∈ cs, isSpace c = false) :
    Tight cs where
  first := ⟨cs.head hne, List.head?_eq_some_head hne, h _ (List.head_mem hne)⟩
  last := ⟨cs.getLast hne, List.getLast?_eq_some_getLast hne, h _ (List.getLast_mem hne)⟩

theorem tight_intercalate {xs : List (List Char)} (hne : xs ≠ []) (h : ∀ x ∈ xs, Tight x) :
    Tight ([','].intercalate xs) := by
  induction xs with
  | nil => exact absurd rfl hne
  | cons x xs ih =>
    cases xs with
    | nil => simpa [List.intercalate] using h x List.mem_cons_self
    | cons y xs =>
      have hrest := ih (List.cons_ne_nil _ _) (fun z hz => h z (List.mem_cons_of_mem _ hz))
      rw [List.intercalate_cons_cons]
      exact (h x List.mem_cons_self).append [','] hrest.last

theorem trimSpace_eq (s : String) : trimSpace s = String.ofList (trim s.toList) := rfl

theorem tight_trim {cs : List Char} (h : trim cs ≠ []) : Tight (trim cs) := by
  refine ⟨⟨(trim cs).head h, List.head?_eq_some_head h, ?_⟩,
    ⟨(trim cs).getLast h, List.getLast?_eq_some_getLast h, ?_⟩⟩
  · have hstart : trim cs <+: cs.dropWhile isSpace := List.rdropWhile_prefix isSpace _
    rw [hstart.head h]
    exact List.head_dropWhile_not isSpace _
  · exact Bool.eq_false_iff.mpr (List.rdropWhile_last_not isSpace _ h)

/-! ## The list of addresses in the header -/

/-- What Go's HTTP refuses in the value of a header, or replaces. -/
def isControl (c : Char) : Bool := (c.toNat < 32 && c ≠ '\t') || c.toNat = 127

/-- A zone that the list can carry: no comma in it and no control character, and no space at its
end. -/
def PlainZone (a : Addr) : Prop :=
  ',' ∉ a.zone.toList ∧ (∀ c ∈ a.zone.toList.getLast?, isSpace c = false) ∧
    ∀ c ∈ a.zone.toList, isControl c = false

/-- A host that a header can carry and the library reads back: no brackets in it and no control
character, and a name is not all digits and dots. -/
def PlainHost (host : String) : Prop :=
  (∀ c ∈ host.toList, c ≠ '[' ∧ c ≠ ']' ∧ isControl c = false) ∧
    (parseAddr host.toList = none → ∃ c ∈ host.toList, c.isAlpha = true ∨ c = '-')

instance (host : String) : Decidable (PlainHost host) := inferInstanceAs (Decidable (_ ∧ _))

theorem range_of_isBare {c : Char} (h : isBare c = true) : 46 ≤ c.toNat ∧ c.toNat ≤ 102 := by
  simp only [isBare, isHex, Bool.or_eq_true, decide_eq_true_eq] at h
  rcases h with (h | rfl) | rfl
  · unfold hexVal? at h
    split_ifs at h with hdigit hlower hupper
    · rw [Char.isDigit, Bool.and_eq_true, decide_eq_true_eq, decide_eq_true_eq, ge_iff_le,
        UInt32.le_iff_toNat_le, UInt32.le_iff_toNat_le] at hdigit
      exact ⟨Nat.le_trans (by decide) hdigit.1, Nat.le_trans hdigit.2 (by decide)⟩
    · exact ⟨Nat.le_trans (by decide) hlower.1, hlower.2⟩
    · exact ⟨Nat.le_trans (by decide) hupper.1, Nat.le_trans hupper.2 (by decide)⟩
    · cases h
  · decide
  · decide

theorem isSpace_of_isBare {c : Char} (h : isBare c = true) : isSpace c = false := by
  have hrange := range_of_isBare h
  exact GoStrings.isSpace_of_printable (by omega) (by omega)

theorem isControl_of_isBare {c : Char} (h : isBare c = true) : isControl c = false := by
  have hrange := range_of_isBare h
  have hlow : ¬c.toNat < 32 := by omega
  have hhigh : c.toNat ≠ 127 := by omega
  simp [isControl, hlow, hhigh]

theorem text_plain (ha : a.isValid = true) (hz : PlainZone a) : ',' ∉ a.text ∧ Tight a.text := by
  obtain ⟨cs, htext, hne, hbare⟩ := text_eq_bare ha
  have htight : Tight cs := tight_of_forall hne fun c hc => isSpace_of_isBare (hbare c hc)
  have hcomma : ',' ∉ cs := fun hc => absurd (hbare ',' hc) (by decide)
  rw [htext]
  by_cases hzone : a.zone = ""
  · rw [zoneText, if_pos hzone, List.append_nil]
    exact ⟨hcomma, htight⟩
  · have hlast := List.getLast?_eq_some_getLast (l := a.zone.toList) (by simpa using hzone)
    rw [zoneText, if_neg hzone, List.append_cons]
    exact ⟨by simpa [hcomma] using hz.1, htight.append ['%'] ⟨_, hlast, hz.2.1 _ hlast⟩⟩

theorem relayAddress_text (ha : isPublic a = true)
    (hz : PlainZone a.unmap) : relayAddress a.unmap.text = some a.unmap := by
  have hvalid := isValid_of_isPublic ha
  unfold relayAddress
  rw [(text_plain hvalid hz).2.trim, parseAddr_text hvalid]
  simp [ha]

theorem relayAddresses_texts (acc : List Addr)
    (h : ∀ a ∈ as, isPublic a = true ∧ PlainZone a.unmap) :
    ∃ out, relayAddresses (as.map fun a => a.unmap.text) acc = some out ∧ ∀ a, a ∈ out ↔
      a ∈ acc ∨ ∃ b ∈ as, b.unmap = a := by
  induction as generalizing acc with
  | nil => exact ⟨acc, rfl, by simp⟩
  | cons b as ih =>
    obtain ⟨hpublic, hzone⟩ := h b List.mem_cons_self
    obtain ⟨out, hout, hmem⟩ := ih (if b.unmap ∈ acc then acc else acc ++ [b.unmap])
      (fun b hb => h b (List.mem_cons_of_mem _ hb))
    refine ⟨out, ?_, fun a => ?_⟩
    · simp only [List.map_cons, relayAddresses, relayAddress_text hpublic hzone, hout]
    · have hacc : a ∈ (if b.unmap ∈ acc then acc else acc ++ [b.unmap]) ↔
          a ∈ acc ∨ b.unmap = a := by
        split_ifs with hb
        · exact ⟨.inl, fun h => h.elim id (fun heq => heq ▸ hb)⟩
        · simp [eq_comm]
      rw [hmem, hacc, List.exists_mem_cons_iff, or_assoc]

theorem splitOn_texts (hne : as ≠ []) (h : ∀ a ∈ as, isPublic a = true ∧ PlainZone a.unmap) :
    (trim ([','].intercalate (as.map fun a => a.unmap.text))).splitOn ','
      = (as.map fun a => a.unmap.text) ∧
      as.map (fun a => a.unmap.text) ≠ [[]] := by
  have hplain : ∀ x ∈ as.map (fun a => a.unmap.text), ',' ∉ x ∧ Tight x := by
    intro x hx
    obtain ⟨a, ha, rfl⟩ := List.mem_map.mp hx
    exact text_plain (isValid_of_isPublic (h a ha).1) (h a ha).2
  have hmap : as.map (fun a => a.unmap.text) ≠ [] := by simpa using hne
  constructor
  · rw [(tight_intercalate hmap fun x hx => (hplain x hx).2).trim]
    exact List.splitOn_intercalate ',' (fun x hx => (hplain x hx).1) hmap
  · intro heq
    exact (hplain [] (heq ▸ List.mem_cons_self)).2.ne_nil rfl

/-- **The header carries up to thirty-two public addresses.** -/
theorem parseRouteRelayAddresses_texts (hne : as ≠ []) (hlen : as.length ≤ 32)
    (h : ∀ a ∈ as, isPublic a = true ∧ PlainZone a.unmap) :
    ∃ out, parseRouteRelayAddresses ([','].intercalate (as.map fun a => a.unmap.text)) = some out ∧
      ∀ a, a ∈ out ↔ ∃ b ∈ as, b.unmap = a := by
  obtain ⟨hsplit, hparts⟩ := splitOn_texts hne h
  obtain ⟨out, hout, hmem⟩ := relayAddresses_texts [] h
  refine ⟨out, ?_, fun a => by simpa using hmem a⟩
  unfold parseRouteRelayAddresses
  rw [hsplit]
  dsimp only
  rw [if_neg hparts, if_neg (by rw [List.length_map]; omega), hout]

theorem parseRouteRelayAddresses_long (hlen : 32 < as.length)
    (h : ∀ a ∈ as, isPublic a = true ∧ PlainZone a.unmap) :
    parseRouteRelayAddresses ([','].intercalate (as.map fun a => a.unmap.text)) = none := by
  have hne : as ≠ [] := List.ne_nil_of_length_pos (by omega)
  obtain ⟨hsplit, hparts⟩ := splitOn_texts hne h
  unfold parseRouteRelayAddresses
  rw [hsplit]
  dsimp only
  rw [if_neg hparts, if_pos (by rw [List.length_map]; exact hlen)]

theorem isPublic_of_relayAddresses {parts : List (List Char)} {acc : List Addr}
    (hacc : ∀ a ∈ acc, isPublic a = true)
    (h : relayAddresses parts acc = some as) : ∀ a ∈ as, isPublic a = true := by
  fun_induction relayAddresses parts acc with
  | case1 =>
    cases h
    exact hacc
  | case2 => cases h
  | case3 acc part parts address hpart ih =>
    have hpublic : isPublic address = true := by
      unfold relayAddress at hpart
      split at hpart
      · cases hpart
      · split_ifs at hpart with hb
        cases hpart
        exact hb
    refine ih ?_ h
    split_ifs with hmem
    · exact hacc
    · exact List.forall_mem_append.mpr ⟨hacc, List.forall_mem_singleton.mpr hpublic⟩

/-! ## What the kernel dials -/

theorem mem_appendBounded {address : Addr} (h : a ∈ appendBounded addresses address) :
    a ∈ addresses ∨ a = address := by
  unfold appendBounded at h
  split_ifs at h with hroom
  · simpa using h
  · exact .inl h

theorem mem_addCandidate {state : List Addr × Candidates} {address : Addr}
    (h : a ∈ (addCandidate state address).2.ipv4 ++ (addCandidate state address).2.ipv6) :
    a ∈ state.2.ipv4 ++ state.2.ipv6 ∨ a = address.unmap := by
  unfold addCandidate at h
  dsimp only at h
  rw [List.mem_append]
  split_ifs at h with hskip hfour
  · exact .inl (List.mem_append.mp h)
  · rcases List.mem_append.mp h with h | h
    · rcases mem_appendBounded h with h | h
      · exact .inl (.inl h)
      · exact .inr h
    · exact .inl (.inr h)
  · rcases List.mem_append.mp h with h | h
    · exact .inl (.inl h)
    · rcases mem_appendBounded h with h | h
      · exact .inl (.inr h)
      · exact .inr h

theorem mem_foldl_addCandidate {state : List Addr × Candidates}
    (h : a ∈ (addresses.foldl addCandidate state).2.ipv4 ++
      (addresses.foldl addCandidate state).2.ipv6) :
    a ∈ state.2.ipv4 ++ state.2.ipv6 ∨ ∃ b ∈ addresses, a = b.unmap := by
  induction addresses generalizing state with
  | nil => exact .inl h
  | cons b addresses ih =>
    rcases ih h with h | ⟨d, hd, h⟩
    · rcases mem_addCandidate h with h | h
      · exact .inl h
      · exact .inr ⟨b, List.mem_cons_self, h⟩
    · exact .inr ⟨d, List.mem_cons_of_mem _ hd, h⟩

/-- **What the kernel may dial for a restricted user is public**, also where it resolves the name
itself. -/
theorem isPublic_of_mem_candidates {destination : Socksaddr} {lookup : Option (List Addr)}
    {found : Candidates} (h : candidates true destination lookup = some found) :
    ∀ a ∈ found.ipv4 ++ found.ipv6, isPublic a = true := by
  intro a ha
  unfold candidates at h
  split_ifs at h with hrefused hip hfour
  · cases h
    have hself : a = destination.addr := by simpa using ha
    simpa [hip, hself] using hrefused
  · cases h
    have hself : a = destination.addr := by simpa using ha
    simpa [hip, hself] using hrefused
  · cases lookup with
    | none => simp at h
    | some addresses =>
      dsimp only at h
      split_ifs at h with hbad hnone
      cases h
      rcases mem_foldl_addCandidate ha with hmem | ⟨b, hb, rfl⟩
      · simp at hmem
      · rw [isPublic_unmap]
        by_contra hprivate
        exact hbad (by simpa using ⟨b, hb, by simpa using hprivate⟩)

/-! ## What the agent asks for -/

/-- What the library makes of a host and a port: an address if the host is one, else a name. A host
with brackets is not read back from between brackets, and a name of digits and dots may be none. -/
structure ReadsHosts (parseSocksaddr : String → Socksaddr) : Prop where
  literal : ∀ (host : String) (a : Addr) (port : Nat), parseAddr host.toList = some a →
    PlainHost host → 0 < port → port ≤ 65535 →
    parseSocksaddr (joinHostPort host port) = ⟨true, true, false, a, port⟩
  name : ∀ (host : String) (port : Nat), parseAddr host.toList = none →
    validSSHInboundHostname host.toList = true → PlainHost host → 0 < port → port ≤ 65535 →
    (parseSocksaddr (joinHostPort host port)).isValid = true ∧
      (parseSocksaddr (joinHostPort host port)).isIP = false ∧
      (parseSocksaddr (joinHostPort host port)).port = port

theorem resolvePermitted_cases {lookup : String → Option (List Addr)} {host : String} {port : Nat}
    (h : resolvePermittedSSHDestination lookup host port = some addresses) :
    trimSpace host ≠ "" ∧ 0 < port ∧ port ≤ 65535 ∧ addresses ≠ [] ∧
      (∀ a ∈ addresses, isPermittedSSHDestination a = true ∧ a.unmap = a) ∧
      ((∃ a, parseAddr (trimSpace host).toList = some a ∧ addresses = [a.unmap]) ∨
        (parseAddr (trimSpace host).toList = none ∧
          validSSHInboundHostname (trimSpace host).toList = true)) := by
  unfold resolvePermittedSSHDestination at h
  dsimp only at h
  by_cases hbad : trimSpace host = "" ∨ port = 0 ∨ 65535 < port
  · rw [if_pos hbad] at h
    cases h
  rw [if_neg hbad] at h
  simp only [not_or, Nat.not_lt] at hbad
  refine ⟨hbad.1, Nat.pos_of_ne_zero hbad.2.1, hbad.2.2, ?_⟩
  cases hparse : parseAddr (trimSpace host).toList with
  | some parsed =>
    simp only [hparse] at h
    split_ifs at h with hpermitted
    cases h
    exact ⟨by simp, by simpa using hpermitted, .inl ⟨parsed, rfl, rfl⟩⟩
  | none =>
    simp only [hparse] at h
    by_cases hname : (!validSSHInboundHostname (trimSpace host).toList) = true
    · rw [if_pos hname] at h
      cases h
    rw [if_neg hname] at h
    cases hlookup : lookup (trimSpace host) with
    | none => simp [hlookup] at h
    | some resolved =>
      simp only [hlookup] at h
      split_ifs at h with hempty hall
      cases h
      refine ⟨by simpa using hempty, ?_, .inr ⟨rfl, by simpa using hname⟩⟩
      intro a ha
      obtain ⟨b, hb, rfl⟩ := List.mem_map.mp ha
      exact ⟨by simpa using List.all_eq_true.mp hall b hb, unmap_unmap b⟩

theorem toList_toString (n : Nat) : (toString (n : Int)).toList = Nat.toDigits 10 n := by
  rw [show toString (n : Int) = toString n from rfl, Nat.toString_eq_repr, Nat.toList_repr]

theorem tight_toString (n : Nat) : Tight (toString (n : Int)).toList := by
  rw [toList_toString]
  refine tight_of_forall Nat.toDigits_ne_nil (fun c hc => isSpace_of_isBare ?_)
  have hdigit := Nat.isDigit_of_mem_toDigits (by decide) (by decide) hc
  simp [isBare, isHex, hexVal?, hdigit]

theorem tight_joinHostPort {host : String} (h : Tight host.toList) (port : Nat) :
    Tight (joinHostPort host port).toList := by
  unfold joinHostPort
  split_ifs with hcolon
  · have hopen : Tight ['['] := tight_of_forall (by simp)
        (List.forall_mem_singleton.mpr (by decide))
    simpa using hopen.append (host.toList ++ [']', ':']) (tight_toString port).last
  · simpa using h.append [':'] (tight_toString port).last

theorem trimSpace_eq_of_tight {s : String} (h : Tight s.toList) : trimSpace s = s := by
  rw [trimSpace_eq, h.trim, String.ofList_toList]

theorem tight_authUser {value : String} (h : sshRouteAuthUserPattern value = true) :
    Tight value.toList := by
  unfold sshRouteAuthUserPattern at h
  split at h
  · rename_i digits heq
    rw [heq]
    refine tight_of_forall (by simp) ?_
    intro c hc
    rcases List.mem_cons.mp hc with rfl | hc
    · decide
    · have hdigit := List.all_eq_true.mp (Bool.and_eq_true_iff.mp h).2 c hc
      simp only [Bool.or_eq_true, Bool.and_eq_true, decide_eq_true_eq] at hdigit
      rcases hdigit with ⟨hlow, hhigh⟩ | ⟨hlow, hhigh⟩ <;>
        exact GoStrings.isSpace_of_printable (Nat.le_trans (by decide) hlow)
          (Nat.le_trans hhigh (by decide))
  · cases h

/-- **The relay takes what it can read and finds public**, and hands on the addresses. -/
theorem routeRelay_accepts (parseSocksaddr : String → Socksaddr) (route : Route)
    {destination : String} (resolved : List Addr)
    (hdestination : Tight destination.toList) (hvalid : (parseSocksaddr destination).isValid = true)
    (hport : (parseSocksaddr destination).port ≠ 0)
    (hip : (parseSocksaddr destination).isIP = true →
      isPublic (parseSocksaddr destination).addr = true)
    (hne : resolved ≠ []) (hlen : resolved.length ≤ 32)
    (hresolved : ∀ a ∈ resolved, isPublic a = true ∧ PlainZone a.unmap) :
    ∃ context, routeRelay parseSocksaddr (dialCoreRouteRelay route destination resolved)
      = some context ∧
      ∀ a, a ∈ context.destinationAddresses ↔ ∃ b ∈ resolved, b.unmap = a := by
  obtain ⟨out, hout, hmem⟩ := parseRouteRelayAddresses_texts hne hlen hresolved
  have houtne : out ≠ [] := by
    obtain ⟨a, as, rfl⟩ := List.exists_cons_of_ne_nil hne
    exact List.ne_nil_of_mem ((hmem a.unmap).mpr ⟨a, List.mem_cons_self, rfl⟩)
  have htag : routeInboundTagPattern (trimSpace route.inboundTag) = true := route.inboundTag_ok
  have huser : routeAuthUserPattern (trimSpace route.authUser) = true := by
    rw [trimSpace_eq_of_tight (tight_authUser route.authUser_ok)]
    exact route.authUser_ok
  refine ⟨⟨parseSocksaddr destination, out⟩, ?_, hmem⟩
  unfold routeRelay dialCoreRouteRelay
  dsimp only
  rw [trimSpace_eq_of_tight hdestination, String.toList_ofList, hout]
  simp only [htag, huser, hvalid, hport, houtne, Bool.not_true, Bool.or_self, Bool.false_eq_true,
    if_false, decide_false, Bool.and_false,
    isPublic_unmap]
  by_cases hliteral : (parseSocksaddr destination).isIP = true
  · simp only [hliteral, hip hliteral, if_true, Bool.not_true, Bool.false_eq_true, if_false]
  · simp only [hliteral, Bool.false_eq_true, if_false]

theorem routeRelay_refuses (parseSocksaddr : String → Socksaddr) (route : Route)
    (destination : String) {resolved : List Addr} (hlen : 32 < resolved.length)
    (hresolved : ∀ a ∈ resolved, isPublic a = true ∧ PlainZone a.unmap) :
    routeRelay parseSocksaddr (dialCoreRouteRelay route destination resolved) = none := by
  unfold routeRelay dialCoreRouteRelay
  simp only [String.toList_ofList, parseRouteRelayAddresses_long hlen hresolved, ite_self]

theorem isPublic_of_routeRelay {request : RelayRequest} {context : InboundContext}
    (h : routeRelay parseSocksaddr request = some context) :
    ∀ a ∈ context.destinationAddresses, isPublic a = true := by
  unfold routeRelay at h
  cases hresolved : parseRouteRelayAddresses request.resolvedAddresses.toList with
  | none => simp [hresolved] at h
  | some resolved =>
    have hpublic : ∀ a ∈ resolved, isPublic a = true := by
      unfold parseRouteRelayAddresses at hresolved
      dsimp only at hresolved
      split_ifs at hresolved with hempty hlong
      · cases hresolved
        simp
      · exact isPublic_of_relayAddresses (by simp) hresolved
    simp only [hresolved] at h
    split_ifs at h with hidentity hinvalid hnone hip hrefused hempty
    · cases h
      simpa using hrefused
    · cases h
      exact hpublic
    · cases h
      exact hpublic

theorem permitted_or_special
    (h : isPublic a = true) : isPermittedSSHDestination a = true ∨ isSpecial a = true := by
  cases hspecial : isSpecial a with
  | true => exact .inr rfl
  | false => exact .inl ((isPermitted_iff a).mpr ⟨h, hspecial⟩)

theorem relay_of_resolved (hreads : ReadsHosts parseSocksaddr) (route : Route)
    {lookup : String → Option (List Addr)} {host : String} {port : Nat}
    (h : resolvePermittedSSHDestination lookup host port = some addresses)
    (hlen : addresses.length ≤ 32)
    (hzones : ∀ a ∈ addresses, PlainZone a) (hplain : PlainHost (trimSpace host)) :
    ∃ context, routeRelay parseSocksaddr (tcpRequest route host port addresses) = some context ∧
      ∀ a, a ∈ context.destinationAddresses ↔ a ∈ addresses := by
  obtain ⟨hhost, hpos, hle, hne, hall, hcases⟩ := resolvePermitted_cases h
  have htight : Tight (trimSpace host).toList := by
    rw [trimSpace_eq, String.toList_ofList]
    refine tight_trim fun hnil => hhost ?_
    rw [trimSpace_eq, hnil]
  have hpublic : ∀ a ∈ addresses, isPublic a = true := fun a ha =>
      ((isPermitted_iff a).mp (hall a ha).1).1
  have hview : ∃ d, parseSocksaddr (joinHostPort (trimSpace host) port) = d ∧ d.isValid = true ∧
      d.port = port ∧
      (d.isIP = true → isPublic d.addr = true) := by
    rcases hcases with ⟨a, hparse, rfl⟩ | ⟨hparse, hname⟩
    · have hread := hreads.literal _ a port hparse hplain hpos hle
      exact ⟨_, hread, rfl, rfl, fun _ => by simpa using hpublic _ List.mem_cons_self⟩
    · obtain ⟨hvalid, hip, hport⟩ := hreads.name _ port hparse hname hplain hpos hle
      exact ⟨_, rfl, hvalid, hport, fun h => absurd h (by simp [hip])⟩
  obtain ⟨_, rfl, hvalid, hport, hip⟩ := hview
  obtain ⟨context, hcontext, hmem⟩ :=
    routeRelay_accepts parseSocksaddr route addresses (tight_joinHostPort htight port)
    hvalid (by rw [hport]; exact Nat.ne_of_gt hpos) hip hne hlen
    (fun a ha => ⟨hpublic a ha, by rw [(hall a ha).2]; exact hzones a ha⟩)
  refine ⟨context, hcontext, fun a => (hmem a).trans ⟨?_, fun ha => ⟨a, ha, (hall a ha).2⟩⟩⟩
  rintro ⟨b, hb, rfl⟩
  rw [(hall b hb).2]
  exact hb

theorem zone_unmap (h : a.zone = "") : a.unmap.zone = "" := by
  cases a with
  | invalid => rfl
  | v4 ip => rfl
  | v6 ip zone =>
    simp only [Addr.unmap]
    split_ifs
    · rfl
    · exact h

theorem plainZone_of_empty (h : a.zone = "") : PlainZone a := by
  simp [PlainZone, h]

theorem isValid_of_unmap (h : a.unmap.isValid = true) : a.isValid = true := by
  cases a with
  | invalid => exact h
  | v4 ip => rfl
  | v6 ip zone => rfl

theorem relay_of_address (hreads : ReadsHosts parseSocksaddr) (route : Route) {address : Addr}
    {port : Nat} (h : isPermittedSSHDestination address = true) (hzone : address.zone = "")
    (hpos : 0 < port) (hle : port ≤ 65535) :
    ∃ context, routeRelay parseSocksaddr (udpRequest route address port) = some context ∧
      ∀ a, a ∈ context.destinationAddresses ↔ a = address.unmap := by
  have hpublic := ((isPermitted_iff address).mp h).1
  have hvalid := isValid_of_unmap (isValid_of_isPublic hpublic)
  have hplain := (text_plain hvalid (plainZone_of_empty hzone)).2
  obtain ⟨cs, htext, -, hbare⟩ := text_eq_bare hvalid
  have hchars : ∀ c ∈ address.text, isBare c = true := by
    rw [htext, hzone]
    simpa [zoneText] using hbare
  have hparse : parseAddr (String.ofList address.text).toList = some address := by
    rw [String.toList_ofList, parseAddr_text hvalid]
  have hhost : PlainHost (String.ofList address.text) := by
    refine ⟨fun c hc => ?_, fun hnone => absurd (hnone.symm.trans hparse) nofun⟩
    rw [String.toList_ofList] at hc
    have hbare := hchars c hc
    refine ⟨?_, ?_, isControl_of_isBare hbare⟩ <;>
    · rintro rfl
      exact absurd hbare (by decide)
  have hview := hreads.literal (String.ofList address.text) address port hparse hhost hpos hle
  obtain ⟨context, hcontext, hmem⟩ := routeRelay_accepts parseSocksaddr route [address]
    (tight_joinHostPort (by rw [String.toList_ofList]; exact hplain) port) (by rw [hview])
      (by rw [hview]; exact Nat.ne_of_gt hpos)
    (by rw [hview]; exact fun _ => hpublic) (by simp) (by simp)
    (by simpa using ⟨hpublic, plainZone_of_empty (zone_unmap hzone)⟩)
  exact ⟨context, hcontext, fun a => by rw [hmem]; simp [eq_comm]⟩

/-! ## A reader of hosts -/

def readHostPort (text : String) : Socksaddr :=
  let cs := text.toList
  let host := if cs.head? = some '[' then (cs.drop 1).takeWhile (· ≠ ']')
      else cs.takeWhile (· ≠ ':')
  let digits := if cs.head? = some '[' then ((cs.drop 1).dropWhile (· ≠ ']')).drop 2 else
      (cs.dropWhile (· ≠ ':')).drop 1
  match parseAddr host with
  | some a => ⟨true, true, false, a, Nat.ofDigitChars 10 digits 0⟩
  | none => ⟨true, false, true, .invalid, Nat.ofDigitChars 10 digits 0⟩

theorem readHostPort_join {host : String} (port : Nat) (hplain : PlainHost host) :
    readHostPort (joinHostPort host port) =
      match parseAddr host.toList with
      | some a => ⟨true, true, false, a, port⟩
      | none => ⟨true, false, true, .invalid, port⟩ := by
  have hopen : '[' ∉ host.toList := fun hc => (hplain.1 _ hc).1 rfl
  have hclose : ']' ∉ host.toList := fun hc => (hplain.1 _ hc).2.1 rfl
  have hstop : ∀ {d : Char}, d ∉ host.toList → ∀ c ∈ host.toList, decide (c ≠ d) = true := by
    intro d hd c hc
    have hne : c ≠ d := fun heq => hd (heq ▸ hc)
    simp [hne]
  unfold readHostPort joinHostPort
  split_ifs with hcolon
  · have hcs : ("[" ++ host ++ "]:" ++ toString (port : Int)).toList
        = '[' :: (host.toList ++ ']' :: ':' :: Nat.toDigits 10 port) := by
      simp only [String.toList_append, toList_toString]
      simp
    have hread := hstop hclose
    simp only [hcs, List.head?_cons, if_true, List.drop_succ_cons, List.drop_zero,
      List.takeWhile_append_of_pos hread,
      List.dropWhile_append_of_pos hread]
    simp
  · have hcs : (host ++ ":" ++ toString (port : Int)).toList
        = host.toList ++ ':' :: Nat.toDigits 10 port := by
      simp only [String.toList_append, toList_toString]
      simp
    have hread := hstop (d := ':') (by simpa using hcolon)
    have hhead : (host.toList ++ ':' :: Nat.toDigits 10 port).head? ≠ some '[' := by
      intro hbracket
      cases hhost : host.toList with
      | nil => simp [hhost] at hbracket
      | cons c rest =>
        rw [hhost] at hbracket hopen
        simp at hbracket hopen
        exact hopen.1 hbracket.symm
    simp only [hcs, hhead, if_false, List.takeWhile_append_of_pos hread,
      List.dropWhile_append_of_pos hread]
    simp

theorem readsHosts_readHostPort : ReadsHosts readHostPort where
  literal host a port hparse hplain _ _ := by
    rw [readHostPort_join port hplain, hparse]
  name host port hparse _ hplain _ _ := by
    rw [readHostPort_join port hplain, hparse]
    exact ⟨rfl, rfl, rfl⟩

/-! ## The boundary -/

/-- **The boundary of the agent and that of the kernel.** The kernel's holds the agent's, and
outside the special prefixes the two are one. The relay takes each request of the agent for a
destination that the agent permits, with up to thirty-two addresses whose zones fit the headers, and
it hands on just these addresses. And no address that the relay hands on, or that the kernel finds
when it resolves the name again, is one that the agent would refuse, but for the special
prefixes. -/
theorem destination_boundary {parseSocksaddr : String → Socksaddr}
    (hreads : ReadsHosts parseSocksaddr) :
    (∀ a, isPermittedSSHDestination a = true → isPublic a = true) ∧
    (∀ a, isSpecial a = false → (isPublic a = true ↔ isPermittedSSHDestination a = true)) ∧
    (∀ (route : Route) (lookup : String → Option (List Addr)) (host : String) (port : Nat)
      (addresses : List Addr), resolvePermittedSSHDestination lookup host port = some addresses →
      addresses.length ≤ 32 → (∀ a ∈ addresses, PlainZone a) → PlainHost (trimSpace host) →
      ∃ context, routeRelay parseSocksaddr (tcpRequest route host port addresses) = some context ∧
        ∀ a, a ∈ context.destinationAddresses ↔ a ∈ addresses) ∧
    (∀ (route : Route) (address : Addr) (port : Nat), isPermittedSSHDestination address = true →
      address.zone = "" → 0 < port → port ≤ 65535 →
      ∃ context, routeRelay parseSocksaddr (udpRequest route address port) = some context ∧
        ∀ a, a ∈ context.destinationAddresses ↔ a = address.unmap) ∧
    (∀ (request : RelayRequest) (context : InboundContext),
      routeRelay parseSocksaddr request = some context →
      ∀ a ∈ context.destinationAddresses, isPermittedSSHDestination a = true ∨ isSpecial a = true) ∧
    (∀ (destination : Socksaddr) (answer : Option (List Addr)) (found : Candidates),
      candidates true destination answer = some found →
      ∀ a ∈ found.ipv4 ++ found.ipv6, isPermittedSSHDestination a = true ∨ isSpecial a = true) := by
  refine ⟨fun a ha => ((isPermitted_iff a).mp ha).1, ?_, ?_, ?_, ?_, ?_⟩
  · intro a hspecial
    rw [isPermitted_iff]
    exact ⟨fun h => ⟨h, hspecial⟩, fun h => h.1⟩
  · intro route lookup host port addresses h hlen hzones hplain
    exact relay_of_resolved hreads route h hlen hzones hplain
  · intro route address port h hzone hpos hle
    exact relay_of_address hreads route h hzone hpos hle
  · intro request context h a ha
    exact permitted_or_special (isPublic_of_routeRelay h a ha)
  · intro destination answer found h a ha
    exact permitted_or_special (isPublic_of_mem_candidates h a ha)

def sampleRoute : Route where
  inboundTag := "in-17"
  authUser := "u0123456789abcdef0123456789abcdef"
  inboundTag_ok := by decide +kernel
  authUser_ok := by decide +kernel

def twoAddresses : List Addr :=
  [.v4 ⟨1, 1, 1, 1⟩, .v6 ⟨[0x2606, 0x4700, 0x4700, 0, 0, 0, 0, 0x1111], rfl⟩ ""]

theorem destination_boundary_of_name :
    resolvePermittedSSHDestination (fun _ => some twoAddresses) "example.com" 443
      = some twoAddresses ∧
      ∃ context, routeRelay readHostPort (tcpRequest sampleRoute "example.com" 443 twoAddresses)
        = some context ∧
        ∀ a, a ∈ context.destinationAddresses ↔ a ∈ twoAddresses :=
  have h : resolvePermittedSSHDestination (fun _ => some twoAddresses) "example.com" 443
      = some twoAddresses := by decide +kernel
  have hhost : PlainHost (trimSpace "example.com") := by
    rw [show trimSpace "example.com" = "example.com" by decide +kernel]
    exact ⟨by simp [isControl], fun _ => ⟨'e', by simp, Or.inl rfl⟩⟩
  ⟨h, (destination_boundary readsHosts_readHostPort).2.2.1 sampleRoute _ _ _ _ h (by decide)
    (fun a ha => plainZone_of_empty ((by decide : ∀ a ∈ twoAddresses, a.zone = "") a ha)) hhost⟩

def sharedAddress : Addr := .v4 ⟨100, 64, 0, 1⟩

def manyAddresses : List Addr := (List.range 33).map fun i => .v4 ⟨1, 1, 1, Fin.ofNat 256 i⟩

def commaZone : Addr := .v6 ⟨[0x2606, 0x4700, 0, 0, 0, 0, 0, 1], rfl⟩ "a,b"

/-- The kernel takes an address that the agent refuses, and dials it when a name leads to it; and
the relay refuses a name that the agent permits, for its many addresses, and an address, for the
comma in its zone. -/
theorem boundaries_differ :
    (isPublic sharedAddress = true ∧ isPermittedSSHDestination sharedAddress = false) ∧
      (candidates true ⟨true, false, true, .invalid, 443⟩ (some [sharedAddress])).map
        Candidates.ipv4 = some [sharedAddress] ∧
      (resolvePermittedSSHDestination (fun _ => some manyAddresses) "example.com" 443
        = some manyAddresses ∧
        routeRelay readHostPort (tcpRequest sampleRoute "example.com" 443 manyAddresses) = none) ∧
      resolvePermittedSSHDestination (fun _ => none) "2606:4700::1%a,b" 443 = some [commaZone] ∧
      (routeRelay readHostPort (tcpRequest sampleRoute "2606:4700::1%a,b" 443 [commaZone])).isNone
        = true :=
  have hmany : ∀ a ∈ manyAddresses, isPublic a = true ∧ a.unmap.zone = "" := by decide +kernel
  ⟨by decide +kernel, by decide +kernel,
    ⟨by decide +kernel, routeRelay_refuses _ _ _
      (by decide) fun a ha => ⟨(hmany a ha).1, plainZone_of_empty (hmany a ha).2⟩⟩,
    by decide +kernel, by decide +kernel⟩

end OboardAgent.Ssh
