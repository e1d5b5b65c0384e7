import OboardAgent.Lib.Run
import OboardAgent.Users.Store

/-!
# Whose connection it is

The user table of an inbound is replaced while it runs. A connection is authenticated against the
table of that moment, and the name that routing, quota and authorization go by is given to it later,
when it is routed. VLESS, Hysteria2 and Snell (`internal/protocol/*/inbound.go`) leave the name in
the care of the library, which hands it back. Multi-user Shadowsocks
(`internal/boxnet/protocol/shadowsocks/inbound_multi.go`) gives the library the position of a user
instead, and looks the name up at the end.

The libraries are outside: they authenticate against one table and hand back what is stored with the
credential that matched, so a handshake says which row that was. An update of Shadowsocks gives the
library its table before it replaces the names, under the lock that the lookup takes too; these are
two events.
-/

namespace OboardAgent.Attribution

open GoStrings (trimSpace)
open Users (Spec)
open Users.Live (specsOf)

inductive Protocol
  | vless
  | hysteria2
  | shadowsocks
  | snell
  deriving DecidableEq, Repr

/-- A row of a user table. -/
structure User where
  name : String
  credential : String
  deriving DecidableEq, Repr

inductive UpdateError
  /-- "... runtime user requires name and ..." -/
  | incomplete
  /-- "... user name is required" -/
  | unnamed
  | duplicate (name : String)
  deriving DecidableEq, Repr

/-! ## The tables -/

def converted (credential : Spec → String) (specs : List Spec) : Except UpdateError (List User) :=
  specs.mapM fun s =>
    if trimSpace s.name = "" || trimSpace (credential s) = "" then .error .incomplete
    else .ok ⟨trimSpace s.name, credential s⟩

/-- `applyVLESSUsers` and `applyHysteria2Users`, up to the call of the library. -/
def distinct : List String → List User → Except UpdateError (List User)
  | _, [] => .ok []
  | seen, u :: users =>
    let name := trimSpace u.name
    if name = "" then .error .unnamed
    else if name ∈ seen then .error (.duplicate name)
    else do return ⟨name, u.credential⟩ :: (← distinct (name :: seen) users)

/-- The loop of Shadowsocks makes both checks of a user before it goes on to the next. -/
def shadowsocksUsers : List String → List Spec → Except UpdateError (List User)
  | _, [] => .ok []
  | seen, s :: specs =>
    let name := trimSpace s.name
    if name = "" || trimSpace s.credential.password = "" then .error .incomplete
    else if name ∈ seen then .error (.duplicate name)
    else do return ⟨name, s.credential.password⟩ :: (← shadowsocksUsers (name :: seen) specs)

def snellUsers (specs : List Spec) : Except UpdateError (List User) :=
  specs.mapM fun s =>
    let c := s.credential
    if c.userKey ≠ "" || c.password ≠ "" || c.uuid ≠ "" || trimSpace s.name = "" || c.psk = "" then
      .error .incomplete
    else .ok ⟨s.name, c.psk⟩

def usersOf (p : Protocol) (specs : List Spec) : Except UpdateError (List User) :=
  match p with
  | .vless => do distinct [] (← converted (·.credential.uuid) specs)
  | .hysteria2 => do distinct [] (← converted (·.credential.password) specs)
  | .shadowsocks => shadowsocksUsers [] specs
  | .snell => snellUsers specs

def takes (p : Protocol) (accepted : Bool) : Bool :=
  match p with
  | .vless => true
  | .hysteria2 => true
  | .shadowsocks => accepted
  | .snell => accepted

/-! ## The inbound -/

inductive Identity
  | name (name : String)
  | position (i : Nat)
  deriving DecidableEq, Repr

def Identity.index : Identity → Option Nat
  | .name _ => none
  | .position i => some i

def identityOf (p : Protocol) (row : Nat) (u : User) : Identity :=
  match p with
  | .shadowsocks => .position row
  | _ => .name u.name

structure Connection where
  /-- History: the name in the row that authenticated it. -/
  authenticated : String
  identity : Identity
  /-- `metadata.User`, from when it is routed. -/
  user : Option String := none
  deriving DecidableEq, Repr

structure Inbound where
  tag : String
  protocol : Protocol
  service : List User
  users : List String
  /-- The names of an update that holds `usersAccess` and has not replaced `users` yet. -/
  updating : Option (List String) := none
  connections : List Connection := []

inductive Event
  | handshake (row : Nat)
  | update (entries : List Quota.UserInstallEntry) (accepted : Bool)
  | updated
  | route (connection : Nat)

namespace Inbound

def opened (tag : String) (p : Protocol) (table : List User) : Inbound :=
  { tag := tag, protocol := p, service := table, users := table.map (·.name) }

def userName (h : Inbound) (i : Nat) : String := h.users.getD i ""

/-- `UpdateRuntimeUsers`, of Shadowsocks up to where the library has its table. -/
def update (h : Inbound) (specs : List Spec) (accepted : Bool) : Inbound :=
  match usersOf h.protocol specs with
  | .error _ => h
  | .ok table =>
    if !takes h.protocol accepted then h
    else
      match h.protocol with
      | .shadowsocks => { h with service := table, updating := some (table.map (·.name)) }
      | _ => { h with service := table }

def give (h : Inbound) (i : Nat) (c : Connection) (user : String) : Inbound :=
  { h with connections := h.connections.set i { c with user := some user } }

/-- A connection is routed. The lookup of a position waits for the lock; an empty name is given as
none is. -/
def route (h : Inbound) (i : Nat) (c : Connection) : Inbound :=
  match c.user, c.identity with
  | some _, _ => h
  | none, .name name => h.give i c name
  | none, .position k => if h.updating.isSome then h else h.give i c (h.userName k)

def step (h : Inbound) : Event → Inbound
  | .handshake row =>
    match h.service[row]? with
    | none => h
    | some u => { h with connections := h.connections ++ [⟨u.name, identityOf h.protocol row u, none⟩] }
  | .update entries accepted => if h.updating.isSome then h else h.update (specsOf entries h.tag) accepted
  | .updated =>
    match h.updating with
    | none => h
    | some names => { h with users := names, updating := none }
  | .route i =>
    match h.connections[i]? with
    | none => h
    | some c => h.route i c

/-- An update of Shadowsocks leaves, at the position of each connection that is still to be routed,
the name that authenticated it. -/
def Keeps (h : Inbound) : Event → Prop
  | .update entries _ => h.protocol = .shadowsocks →
      ∀ table ∈ (usersOf .shadowsocks (specsOf entries h.tag)).toOption,
      ∀ c ∈ h.connections, c.user = none → ∀ k ∈ c.identity.index,
        (table.map (·.name))[k]? = some c.authenticated
  | _ => True

instance Keeps.decidable (h : Inbound) (e : Event) : Decidable (h.Keeps e) := by
  cases e <;> unfold Keeps <;> infer_instance

/-! ## What every step keeps -/

def names (h : Inbound) : List String := h.updating.getD h.users

def Known (names : List String) (c : Connection) : Prop :=
  match c.identity with
  | .name name => name = c.authenticated
  | .position k => names[k]? = some c.authenticated

structure Sound (h : Inbound) : Prop where
  table : h.protocol = .shadowsocks → h.service.map (·.name) = h.names
  known : ∀ c ∈ h.connections, c.user = none → Known h.names c
  given : ∀ c ∈ h.connections, ∀ user, c.user = some user → user = c.authenticated

variable {h : Inbound}

theorem sound_opened (tag : String) (p : Protocol) (table : List User) : Sound (opened tag p table) :=
  ⟨fun _ => rfl, nofun, nofun⟩

section

variable (hs : Sound h)
include hs

theorem Sound.handshake (row : Nat) : Sound (h.step (.handshake row)) := by
  simp only [step]
  cases hrow : h.service[row]? with
  | none => exact hs
  | some u =>
    refine ⟨hs.table, fun c hc hwaits => ?_, fun c hc user huser => ?_⟩
    · rcases List.mem_append.mp hc with hold | hnew
      · exact hs.known c hold hwaits
      · rw [List.mem_singleton.mp hnew]
        cases hp : h.protocol with
        | shadowsocks =>
          -- the row is at the same place among the names
          change h.names[row]? = some u.name
          rw [← hs.table hp, List.getElem?_map, hrow]
          rfl
        | vless => rfl
        | hysteria2 => rfl
        | snell => rfl
    · rcases List.mem_append.mp hc with hold | hnew
      · exact hs.given c hold user huser
      · rw [List.mem_singleton.mp hnew] at huser
        cases huser

theorem Sound.update {entries : List Quota.UserInstallEntry} {accepted : Bool}
    (hkeeps : h.Keeps (.update entries accepted)) : Sound (h.step (.update entries accepted)) := by
  simp only [step]
  split
  · exact hs
  rename_i hfree
  unfold Inbound.update
  split
  · exact hs
  rename_i table htable
  split
  · exact hs
  split
  · rename_i hp
    refine ⟨fun _ => rfl, fun c hc hwaits => ?_, hs.given⟩
    have hknown := hs.known c hc hwaits
    have hposition := hkeeps hp table (by rw [← hp, htable]; rfl) c hc hwaits
    unfold Known at hknown ⊢
    split at hknown
    · exact hknown
    · rename_i k hk
      exact hposition k (by rw [hk]; rfl)
  · rename_i hp
    exact ⟨fun h' => absurd h' hp, hs.known, hs.given⟩

theorem Sound.updated : Sound (h.step .updated) := by
  simp only [step]
  cases hupdating : h.updating with
  | none => exact hs
  | some names =>
    have hnames : h.names = names := by rw [Inbound.names, hupdating]; rfl
    exact ⟨fun hp => (hs.table hp).trans hnames, fun c hc hwaits => hnames ▸ hs.known c hc hwaits, hs.given⟩

theorem Sound.give (i : Nat) {c : Connection} {user : String}
    (huser : user = c.authenticated) : Sound (h.give i c user) := by
  refine ⟨hs.table, fun d hd hwaits => ?_, fun d hd given hgiven => ?_⟩
  · rcases List.mem_or_eq_of_mem_set hd with hold | rfl
    · exact hs.known d hold hwaits
    · cases hwaits
  · rcases List.mem_or_eq_of_mem_set hd with hold | rfl
    · exact hs.given d hold given hgiven
    · cases hgiven
      exact huser

theorem Sound.route (i : Nat) : Sound (h.step (.route i)) := by
  simp only [step]
  split
  · exact hs
  rename_i c hc
  unfold Inbound.route
  split
  · exact hs
  · rename_i name huser hidentity
    have hknown := hs.known c (List.mem_of_getElem? hc) huser
    rw [Known, hidentity] at hknown
    exact hs.give i hknown
  · rename_i k huser hidentity
    split
    · exact hs
    · rename_i hfree
      have hknown := hs.known c (List.mem_of_getElem? hc) huser
      have hnames : h.names = h.users := by rw [names, Option.not_isSome_iff_eq_none.mp hfree]; rfl
      rw [Known, hidentity, hnames] at hknown
      refine hs.give i ?_
      rw [userName, List.getD_eq_getElem?_getD, hknown]
      rfl

theorem Sound.step {e : Event} (hkeeps : h.Keeps e) : Sound (h.step e) := by
  cases e with
  | handshake row => exact hs.handshake row
  | update entries accepted => exact hs.update hkeeps
  | updated => exact hs.updated
  | route i => exact hs.route i

end

end Inbound

open Inbound (opened)

/-- **A connection goes by the name it was authenticated with**, however handshakes, updates and the
routing of connections interleave, on every inbound; on multi-user Shadowsocks as long as no update
moves a user whose connection is still to be routed. -/
theorem connections_keep_their_user (tag : String) (p : Protocol) (table : List User) (es : List Event)
    (hkeeps : Run.Along Inbound.step Inbound.Keeps (opened tag p table) es) :
    ∀ c ∈ (Run.exec Inbound.step (opened tag p table) es).connections, ∀ user, c.user = some user →
      user = c.authenticated := by
  have hsound := Run.invariant (I := Inbound.Sound) (fun _ _ hs hk => hs.step hk)
      (Inbound.sound_opened tag p table)
    hkeeps
  exact hsound.given

def entryOf (name : String) : Quota.UserInstallEntry :=
  { inboundTag := "ss", authUser := name, credential := { password := name } }

def twoUsers : Inbound := opened "ss" .shadowsocks [⟨"alice", "alice"⟩, ⟨"bob", "bob"⟩]

def orderly : List Event :=
  [.handshake 0, .handshake 1, .route 0, .update [entryOf "carol", entryOf "bob"] true, .updated, .route 1]

theorem routed_before_the_update :
    Run.Along Inbound.step Inbound.Keeps twoUsers orderly ∧
      ∀ c ∈ (Run.exec Inbound.step twoUsers orderly).connections, ∀ user, c.user = some user →
        user = c.authenticated := by
  have hkeeps : Run.Along Inbound.step Inbound.Keeps twoUsers orderly := by decide +kernel
  exact ⟨hkeeps, connections_keep_their_user _ _ _ _ hkeeps⟩

/-- The two change places between the handshake of the first and its routing: the connection goes by
the name of the other one. -/
theorem reordered_users_take_over :
    (Run.exec Inbound.step twoUsers
      [.handshake 0, .update [entryOf "bob", entryOf "alice"] true, .updated, .route 0]).connections
        = [⟨"alice", .position 0, some "bob"⟩] := by decide +kernel

end OboardAgent.Attribution
