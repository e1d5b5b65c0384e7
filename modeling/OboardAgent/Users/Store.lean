import OboardAgent.Quota.Kernel
import OboardAgent.Lib.GoRange

/-!
# The runtime users of the kernel

`minibox/runtime_users.go` and the tables it keeps: the users that the inbounds accept are installed
without a restart. An install brings a snapshot, whole or as a change to the current one, in one
request or in chunks. It is written to the file as a candidate, published inbound by inbound, and
written again as the current one. At the next start the file's current snapshot is restored; a
candidate is not.

A hash stands for SHA-256 over the canonical JSON (`Codec`). The keys `tag + "\x00" + user` of the
source are pairs: a tag has no NUL. JSON that the store has written itself is read back as it was,
but for a part of a chunked install that has not come: it is written as `null`, and read as the text
`null`.
-/

namespace OboardAgent.Users

open Quota (RuntimeUserLimit UserCredential UserIdentity UserInstallEntry RateLimitTracker)

def maxUserInstallEntries : Nat := 8192
def maxUserInstallChunks : Nat := 64
/-- `32 << 20`. -/
def maxUserInstallBytes : Nat := 33554432

inductive InstallError where
  | illegal
  | incomplete
  | digest
  | base
  | capability
  | snellPSK
  | snellCredentialLimitExceeded
  | snellDuplicatePSK
  | update
  | io
deriving DecidableEq, Repr

inductive Mode where
  | full
  | delta
  | other (text : String)
deriving DecidableEq, Repr

structure UserInstallChunk where
  index : Int
  total : Int
  sha256 : String
deriving DecidableEq, Repr

structure UserInstallRequest where
  scope : List String
  usersRevision : Int
  usersDigest : String
  mode : Mode
  baseRevision : Int := 0
  chunk : Option UserInstallChunk := none
  entries : List UserInstallEntry
  /-- The list is nil and not only empty; its JSON is `null` then. -/
  entriesNil : Bool := false
deriving DecidableEq, Repr

structure UserSnapshot where
  revision : Int
  digest : String
  scope : List String
  entries : List UserInstallEntry
deriving DecidableEq, Repr

inductive Part where
  | null
  | list (entries : List UserInstallEntry)
deriving DecidableEq, Repr

def Part.entries : Part → List UserInstallEntry
  | .null => []
  | .list entries => entries

variable (codec : Codec) (req : UserInstallRequest)

/-- `json.Marshal` of the entries of a request. -/
def UserInstallRequest.payload : Part :=
  if req.entriesNil then .null else .list req.entries

/-- `chunkBuffer`; a part that has not come is none. -/
structure ChunkBuffer where
  revision : Int
  digest : String
  mode : Mode
  base : Int
  scope : List String
  total : Int
  parts : List (Option Part)
deriving DecidableEq, Repr

/-- The buffer as it is read back from the file. `json.RawMessage` writes a part that has not come
as `null`, and reads that as a text of four bytes: the part is not empty any more. -/
def ChunkBuffer.reloaded (b : ChunkBuffer) : ChunkBuffer :=
  { b with parts := b.parts.map fun part => some (part.getD .null) }

inductive Commit where
  | none
  | chunks
  | candidate
  | current
deriving DecidableEq, Repr

structure PersistedUsers where
  current : Option UserSnapshot := none
  candidate : Option UserSnapshot := none
  commit : Commit := .none
  chunks : Option ChunkBuffer := none
deriving DecidableEq, Repr

/-! ## Digests -/

structure Canonical where
  revision : Int
  scope : List String
  entries : List UserInstallEntry
deriving DecidableEq, Repr

/-- SHA-256 over JSON, in hexadecimal, and the length of the JSON of a chunk. -/
structure Codec where
  hash : Canonical → String
  chunkHash : Part → String
  chunkBytes : Part → Nat

def uniqueSorted (values : List String) : List String :=
  (((values.map GoStrings.trimSpace).filter (· ≠ "")).eraseDups).insertionSort (· ≤ ·)

def entryLE (a b : UserInstallEntry) : Bool :=
  if a.inboundTag ≠ b.inboundTag then a.inboundTag < b.inboundTag else a.authUser ≤ b.authUser

def usersDigest (revision : Int) (scope : List String) (entries : List UserInstallEntry) : String :=
  codec.hash ⟨revision, uniqueSorted scope, entries.insertionSort (entryLE · ·)⟩

def userSnapshotDigest (s : UserSnapshot) : String :=
  usersDigest codec s.revision s.scope s.entries

variable (entry : UserInstallEntry)

def stable : UserInstallEntry :=
  { entry with
    policy := { entry.policy with usedBaselineBytes := 0, leaseBytes := 0, resetLeaseBytes := 0 } }

/-- What of a snapshot a revision stands for. -/
def stableContent (s : UserSnapshot) : Canonical :=
  ⟨0, uniqueSorted s.scope, (s.entries.map stable).insertionSort (entryLE · ·)⟩

def userSnapshotContentDigest (s : UserSnapshot) : String :=
  codec.hash (stableContent s)

/-! ## Requests -/

def validateUserInstall : Bool :=
  0 < req.usersRevision && GoStrings.trimSpace req.usersDigest ≠ "" &&
    req.usersDigest.utf8ByteSize ≤ 128 &&
    (req.mode = .full || req.mode = .delta) &&
    req.scope ≠ [] && req.scope.length ≤ 256 && req.scope.all (GoStrings.trimSpace · ≠ "") &&
    (match req.chunk with
      | none => true
      | some c => 1 ≤ c.total && c.total ≤ maxUserInstallChunks && 0 ≤ c.index && c.index < c.total &&
          c.sha256 ≠ "") &&
    req.entries.length ≤ maxUserInstallEntries

def bufferFor (c : UserInstallChunk) (chunks : Option ChunkBuffer) : ChunkBuffer :=
  let fresh : ChunkBuffer :=
    { revision := req.usersRevision, digest := req.usersDigest, mode := req.mode
      base := req.baseRevision, scope := req.scope, total := c.total
      parts := List.replicate c.total.toNat none }
  match chunks with
  | none => fresh
  | some b =>
    if b.revision = req.usersRevision ∧ b.digest = req.usersDigest ∧ b.total = c.total then b else fresh

def acceptChunk (c : UserInstallChunk) (chunks : Option ChunkBuffer) :
    Option ChunkBuffer × Except InstallError (Option (List UserInstallEntry)) :=
  if ¬ (1 ≤ c.total ∧ c.total ≤ maxUserInstallChunks) then (chunks, .error .illegal)
  else if codec.chunkHash req.payload ≠ GoStrings.toLower c.sha256 ∧
      codec.chunkHash req.payload ≠ c.sha256 then (chunks, .error .digest)
  else
    let b := bufferFor req c chunks
    let others := (b.parts.eraseIdx c.index.toNat).filterMap id
    if b.mode ≠ req.mode ∨ b.base ≠ req.baseRevision ∨ uniqueSorted b.scope ≠ uniqueSorted req.scope then
      (some b, .error .illegal)
    else if (b.parts[c.index.toNat]?.join).any (· ≠ req.payload) then (some b, .error .illegal)
    else if maxUserInstallBytes < codec.chunkBytes req.payload + (others.map codec.chunkBytes).sum ∨
        maxUserInstallEntries < req.entries.length + (others.map (·.entries.length)).sum then
      (some b, .error .illegal)
    else
      let b := { b with parts := b.parts.set c.index.toNat (some req.payload) }
      if b.parts.all Option.isSome then
        let assembled := (b.parts.filterMap id).flatMap Part.entries
        if maxUserInstallEntries < assembled.length then (some b, .error .illegal)
        else (some b, .ok (some assembled))
      else (some b, .ok none)

def keyOf : String × String := (entry.inboundTag, entry.authUser)

def deletes : Bool :=
  entry.credential = {} && entry.authorizationKey = ""

def mergeEntry (x : GoMap (String × String) UserInstallEntry × List (String × String))
    (entry : UserInstallEntry) : GoMap (String × String) UserInstallEntry × List (String × String) :=
  let order := if (x.1.lookup (keyOf entry)).isSome then x.2 else x.2 ++ [keyOf entry]
  if deletes entry then (x.1.erase (keyOf entry), order) else (x.1.insert (keyOf entry) entry, order)

def mergeUserEntries (base delta : List UserInstallEntry) : List UserInstallEntry :=
  let index : GoMap (String × String) UserInstallEntry :=
    base.foldl (fun m entry => m.insert (keyOf entry) entry) ∅
  let x := delta.foldl mergeEntry (index, base.map keyOf)
  x.2.eraseDups.filterMap x.1.lookup

/-- An entry as `buildSnapshot` cleans it. -/
def cleanEntry : UserInstallEntry :=
  { entry with
    inboundTag := GoStrings.trimSpace entry.inboundTag
    authUser := GoStrings.trimSpace entry.authUser }

/-- A cleaned entry is well formed. -/
def entryLegal (mode : Mode) (scope : List String) (entry : UserInstallEntry) : Bool :=
  let deleted := entry.credential = {}
  entry.inboundTag ≠ "" && entry.authUser ≠ "" &&
    (deleted || GoStrings.trimSpace entry.authorizationKey ≠ "") &&
    (!deleted || (mode = .delta && entry.authorizationKey = "" && entry.identity = {} &&
      entry.policy = {} && entry.routeOutbound = "")) &&
    scope.contains entry.inboundTag

def buildSnapshot (entries : List UserInstallEntry)
    (current : Option UserSnapshot) : Except InstallError UserSnapshot :=
  let scope := uniqueSorted req.scope
  let cleaned := entries.map cleanEntry
  if !(cleaned.all (entryLegal req.mode scope) && decide (cleaned.map keyOf).Nodup) then .error .illegal
  else
    let cleaned := cleaned.insertionSort (entryLE · ·)
    let merged : Except InstallError (List UserInstallEntry) :=
      if req.mode = .delta then
        match current with
        | none => .error .base
        | some c =>
          if c.revision = req.baseRevision then .ok (mergeUserEntries c.entries cleaned)
          else .error .base
      else .ok cleaned
    match merged with
    | .error e => .error e
    | .ok entries =>
      let digest := usersDigest codec req.usersRevision scope entries
      if digest = req.usersDigest then
        .ok { revision := req.usersRevision, digest := digest, scope := scope, entries := entries }
      else .error .digest

/-! ## What the inbounds accept -/

inductive Capability where
  | vless
  | hysteria2
  | shadowsocksMulti
  | snellPSK
deriving DecidableEq, Repr

/-- The kernel's configuration: the inbounds declared for runtime users, what each inbound can do,
and the outbounds. -/
structure Node where
  declared : List String
  capability : String → Option Capability
  hasOutbound : String → Bool
  hasSelector : String → Bool
  validPSK : String → String → Bool

structure Spec where
  name : String
  credential : UserCredential
deriving DecidableEq, Repr

/-- `snellIdentity`, with the PSK itself for its hash. -/
structure SnellIdentity where
  authorizationKey : String
  psk : String
deriving DecidableEq, Repr

structure Live where
  tables : GoMap String (List Spec) := ∅
  routes : GoMap String (GoMap String String) := ∅
  tracker : RateLimitTracker := {}
  snellUsers : GoMap (String × String) SnellIdentity := ∅
  snellRetired : GoMap String Unit := ∅
  usersFailed : Bool := false

structure SnellSeen where
  counts : GoMap String Nat := ∅
  psks : List (String × String) := []

def validateSnell (node : Node) (entry : UserInstallEntry) (seen : SnellSeen) :
    Except InstallError SnellSeen :=
  let c := entry.credential
  if c.psk.utf8ByteSize < 8 ∨ 255 < c.psk.utf8ByteSize ∨ c.userKey ≠ "" ∨ c.password ≠ "" ∨
      c.uuid ≠ "" ∨ c.flow ≠ "" then .error .illegal
  else if !node.validPSK entry.inboundTag c.psk then .error .snellPSK
  else
    let count := (seen.counts.lookup entry.inboundTag).getD 0 + 1
    if 64 < count then .error .snellCredentialLimitExceeded
    else if seen.psks.contains (entry.inboundTag, c.psk) then .error .snellDuplicatePSK
    else
      .ok
        { counts := seen.counts.insert entry.inboundTag count
          psks := (entry.inboundTag, c.psk) :: seen.psks }

def foreignState (t : RateLimitTracker) (entry : UserInstallEntry) : Bool :=
  match t.states.lookup ("user:" ++ entry.authUser) with
  | none => false
  | some s =>
    let p := s.config.policy
    0 < p.userID && (p.userID ≠ entry.identity.userID || p.inboundID ≠ entry.identity.inboundID ||
      p.pathID ≠ entry.identity.pathID)

def validateEntries (node : Node) (t : RateLimitTracker) (scope : List String) :
    List UserInstallEntry → List String → SnellSeen → Except InstallError Unit
  | [], _, _ => .ok ()
  | entry :: rest, names, seen =>
    if !scope.contains entry.inboundTag || entry.authorizationKey = "" ||
        GoStrings.trimSpace entry.authUser ≠ entry.authUser || entry.authUser = "" ||
        names.contains entry.authUser || foreignState t entry || !node.hasOutbound entry.routeOutbound then
      .error .illegal
    else if node.capability entry.inboundTag = some .snellPSK then
      match validateSnell node entry seen with
      | .error e => .error e
      | .ok seen => validateEntries node t scope rest (entry.authUser :: names) seen
    else validateEntries node t scope rest (entry.authUser :: names) seen

def validateSnapshot (node : Node) (t : RateLimitTracker) (s : UserSnapshot) :
    Except InstallError Unit :=
  if s.scope.all fun tag => node.declared.contains tag && (node.capability tag).isSome then
    validateEntries node t s.scope s.entries [] {}
  else .error .capability

namespace Live

/-! ## Publishing -/

structure Publication where
  order : List String := []
  inboundFails : String → Bool := fun _ => false
  selectorFails : String → Bool := fun _ => false
  connected : String → Bool := fun _ => false

def Publication.walk (p : Publication) (scope : List String) : List String :=
  (p.order.filter scope.contains).eraseDups ++ scope.filter fun tag => !p.order.contains tag

variable (entries : List UserInstallEntry)

def entriesOf (tag : String) : List UserInstallEntry :=
  entries.filter fun entry => entry.inboundTag = tag

def specsOf (tag : String) : List Spec :=
  (entriesOf entries tag).map fun entry => ⟨entry.authUser, entry.credential⟩

def routesOf (tag : String) : GoMap String String :=
  (entriesOf entries tag).foldl (fun m entry =>
    if entry.routeOutbound ≠ "" then m.insert entry.authUser entry.routeOutbound else m) ∅

/-- The loop of `publishLocked` over the inbounds: the tables after it, and the error it stops with.
An update that fails leaves its table as it was. -/
def publishInbounds (node : Node) (p : Publication) (entries : List UserInstallEntry) :
    List String → Live → Live × Option InstallError
  | [], l => (l, none)
  | tag :: rest, l =>
    if (node.declared ≠ [] ∧ ¬ tag ∈ node.declared) ∨ node.capability tag = none then
      (l, some .capability)
    else if p.inboundFails tag then (l, some .update)
    else
      let l := { l with tables := l.tables.insert tag (specsOf entries tag) }
      if !node.hasSelector tag then publishInbounds node p entries rest l
      else if p.selectorFails tag then (l, some .update)
      else
        publishInbounds node p entries rest
          { l with routes := l.routes.insert tag (routesOf entries tag) }

def retire (scope : List String) (l : Live) : Live :=
  { l with
    snellUsers := GoMap.filterMap (fun k id => if scope.contains k.1 then none else some id) l.snellUsers
    snellRetired := (l.snellUsers.keys.filter fun k => scope.contains k.1).foldl
      (fun m k => m.insert ("user:" ++ k.2) ()) l.snellRetired }

def enlist (l : Live) (entry : UserInstallEntry) : Live :=
  if entry.credential.psk ≠ "" then
    { l with
      snellRetired := l.snellRetired.erase ("user:" ++ entry.authUser)
      snellUsers := l.snellUsers.insert (keyOf entry) ⟨entry.authorizationKey, entry.credential.psk⟩ }
  else l

def publishSnellUsers (s : UserSnapshot) (l : Live) : Live :=
  s.entries.foldl enlist (l.retire s.scope)

def publish (node : Node) (p : Publication) (s : UserSnapshot) (l : Live) : Live × Option InstallError :=
  match publishInbounds node p s.entries (p.walk s.scope) l with
  | (l, some e) => (l, some e)
  | (l, none) =>
    let l := { l with tracker := l.tracker.replaceScopedUsers s.entries }
    (l.publishSnellUsers s, none)

/-- The counters of the state are acknowledged to the byte. -/
def settled (t : RateLimitTracker) (s : Quota.RuntimeState) : Bool :=
  let c := t.heap.counters.get s.config.counters
  c.recorded = c.acknowledged

def pruneKey (connected : String → Bool) (l : Live) (key : String) : Live :=
  match l.tracker.states.lookup key with
  | none => { l with snellRetired := l.snellRetired.erase key }
  | some s =>
    if connected key || !settled l.tracker s then l
    else
      { l with
        tracker := { l.tracker with states := l.tracker.states.erase key }
        snellRetired := l.snellRetired.erase key }

def pruneSnellCounters (connected : String → Bool) (l : Live) : Live :=
  l.snellRetired.keys.foldl (pruneKey connected) l

end Live

/-! ## The file -/

/-- What becomes of a write: it is done, it fails before or after the file was replaced (the
directory may be impossible to open or to sync), or the process ends before or after that. -/
inductive Write where
  | done
  | failed
  | unsynced
  | diedBefore
  | diedAfter
deriving DecidableEq, Repr

/-- `persist`: the file after it. A file that was replaced stays so. -/
def PersistedUsers.persist (file : PersistedUsers) (w : Write) (state : PersistedUsers) : PersistedUsers :=
  match w with
  | .done | .unsynced | .diedAfter => state
  | .failed | .diedBefore => file

theorem PersistedUsers.persist_of {P : PersistedUsers → Prop} {file state : PersistedUsers} (w : Write)
    (hfile : P file) (hstate : P state) : P (file.persist w state) := by
  cases w <;> assumption

/-! ## Install -/

/-- `RuntimeUsers`, with the tables of the instance and the tracker. -/
structure RuntimeUsers where
  current : Option UserSnapshot := none
  chunks : Option ChunkBuffer := none
  live : Live := {}

inductive Outcome where
  | ok
  | error (e : InstallError)
  | died
deriving DecidableEq, Repr

def Write.ending : Write → Option Outcome
  | .done => none
  | .failed | .unsynced => some (.error .io)
  | .diedBefore | .diedAfter => some .died

/-- The environment of an `Install`. -/
structure InstallEnv where
  chunkWrite : Write := .done
  candidateWrite : Write := .done
  publication : Live.Publication := {}
  commitWrite : Write := .done

structure Called where
  users : RuntimeUsers
  file : PersistedUsers
  outcome : Outcome
  published : Option UserSnapshot := none

namespace RuntimeUsers

variable (codec : Codec)

def prepare (req : UserInstallRequest) (r : RuntimeUsers) :
    Option ChunkBuffer × Except InstallError (Option UserSnapshot) :=
  if !validateUserInstall req then (r.chunks, .error .illegal)
  else
    match req.chunk with
    | none => (r.chunks, (buildSnapshot codec req req.entries r.current).map some)
    | some c =>
      match acceptChunk codec req c r.chunks with
      | (chunks, .error e) => (chunks, .error e)
      | (chunks, .ok none) => (chunks, .ok none)
      | (chunks, .ok (some entries)) =>
        (chunks, (buildSnapshot codec req entries r.current).map some)

variable (node : Node)

def judge (req : UserInstallRequest) (s : UserSnapshot)
    (r : RuntimeUsers) : Option (Except InstallError Unit) :=
  let valid := validateSnapshot node r.live.tracker s
  match r.current with
  | none => some valid
  | some c =>
    if s.revision < c.revision then some (.error .base)
    else if s.revision = c.revision then
      if s.digest = c.digest ∧ r.live.usersFailed = false then
        match valid with
        | .error e => some (.error e)
        | .ok () => none
      else if req.mode ≠ .full then some (.error .digest)
      else if userSnapshotContentDigest codec c ≠ userSnapshotContentDigest codec s then
        some (.error .digest)
      else some valid
    else some valid

def fail (env : InstallEnv) (r : RuntimeUsers) : RuntimeUsers :=
  { r with live :=
      Live.pruneSnellCounters env.publication.connected { r.live with usersFailed := true } }

/-- The last part of `Install`: candidate, publication, commit. -/
def commit (node : Node) (env : InstallEnv) (s : UserSnapshot) (r : RuntimeUsers)
    (file : PersistedUsers) : Called :=
  let file := file.persist env.candidateWrite
    { current := r.current, candidate := some s, commit := .candidate }
  match env.candidateWrite.ending with
  | some outcome => ⟨r, file, outcome, none⟩
  | none =>
    match r.live.publish node env.publication s with
    | (live, some e) => ⟨{ r with live := live }.fail env, file, .error e, none⟩
    | (live, none) =>
      let r := { r with live := live }
      let file := file.persist env.commitWrite { current := some s, commit := .current }
      match env.commitWrite.ending with
      | some outcome => ⟨r.fail env, file, outcome, some s⟩
      | none =>
        ⟨{ current := some s
           chunks := none
           live := Live.pruneSnellCounters env.publication.connected
             { r.live with usersFailed := false } }, file, .ok, some s⟩

def install (env : InstallEnv) (req : UserInstallRequest)
    (r : RuntimeUsers) (file : PersistedUsers) : Called :=
  match r.prepare codec req with
  | (chunks, .error e) => ⟨{ r with chunks := chunks }, file, .error e, none⟩
  | (chunks, .ok none) =>
    let file := file.persist env.chunkWrite
      { current := r.current, chunks := chunks, commit := .chunks }
    ⟨{ r with chunks := chunks }, file, env.chunkWrite.ending.getD (.error .incomplete), none⟩
  | (chunks, .ok (some s)) =>
    let r := { r with chunks := chunks }
    match r.judge codec node req s with
    | none => ⟨r, file, .ok, none⟩
    | some (.error e) => ⟨r, file, .error e, none⟩
    | some (.ok ()) => r.commit node env s file

/-! ## Restore -/

structure RestoreEnv where
  readFails : Bool := false
  publication : Live.Publication := {}
  write : Write := .done

def partRequest (b : ChunkBuffer) (index : Nat) (part : Part) : UserInstallRequest :=
  { scope := b.scope, usersRevision := b.revision, usersDigest := b.digest, mode := b.mode
    baseRevision := b.base, entries := part.entries, entriesNil := part = .null
    chunk := some ⟨index, b.total, codec.chunkHash part⟩ }

def restoreParts (codec : Codec) (b : ChunkBuffer) :
    List (Option Part) → Nat → Option ChunkBuffer → Option ChunkBuffer × Option InstallError
  | [], _, chunks => (chunks, none)
  | none :: rest, i, chunks => restoreParts codec b rest (i + 1) chunks
  | some part :: rest, i, chunks =>
    let req := partRequest codec b i part
    if !validateUserInstall req then (chunks, some .illegal)
    else
      match acceptChunk codec req ⟨i, b.total, codec.chunkHash part⟩ chunks with
      | (chunks, .error e) => (chunks, some e)
      | (chunks, .ok _) => restoreParts codec b rest (i + 1) chunks

def restoreChunks (state : PersistedUsers) (chunks : Option ChunkBuffer) :
    Option ChunkBuffer × Option InstallError :=
  match state.chunks.map ChunkBuffer.reloaded with
  | none => (chunks, none)
  | some b =>
    if state.current.all (fun c => c.revision < b.revision) then
      if b.total < 1 ∨ (maxUserInstallChunks : Int) < b.total ∨ (b.parts.length : Int) ≠ b.total then
        (chunks, some .illegal)
      else restoreParts codec b b.parts 0 chunks
    else (chunks, none)

def canRestoreUser (entry : UserInstallEntry) : Bool :=
  let c := entry.credential
  node.hasOutbound entry.routeOutbound &&
    match node.capability entry.inboundTag with
    | some .snellPSK => c.psk ≠ "" && c.password = "" && c.uuid = "" && c.userKey = "" && c.flow = ""
    | some .vless => c.uuid ≠ "" && c.password = "" && c.psk = "" && c.userKey = ""
    | some .hysteria2 | some .shadowsocksMulti =>
      c.password ≠ "" && c.uuid = "" && c.psk = "" && c.userKey = "" && c.flow = ""
    | none => false

def surviving (s : UserSnapshot) : UserSnapshot :=
  let scope := s.scope.filter node.declared.contains
  { s with
    scope := scope
    entries := s.entries.filter fun entry => scope.contains entry.inboundTag && canRestoreUser node entry }

/-- `Restore`. The process does not survive an error: `main` ends with it. -/
def restore (env : RestoreEnv) (r : RuntimeUsers) (file : PersistedUsers) : Called :=
  if env.readFails then ⟨r, file, .died, none⟩
  else
    match restoreChunks codec file r.chunks with
    | (chunks, some _) => ⟨{ r with chunks := chunks }, file, .died, none⟩
    | (chunks, none) =>
      let r := { r with chunks := chunks }
      match file.current with
      | none =>
        ⟨{ r with live := { r.live with usersFailed := r.live.usersFailed || file.candidate.isSome } },
          file, .ok, none⟩
      | some s =>
        if userSnapshotDigest codec s ≠ s.digest then ⟨r, file, .died, none⟩
        else
          match validateSnapshot node r.live.tracker (surviving node s) with
          | .error _ => ⟨r, file, .died, none⟩
          | .ok () =>
            match r.live.publish node env.publication (surviving node s) with
            | (live, some _) => ⟨{ r with live := live }, file, .died, none⟩
            | (live, none) =>
              let r := { r with current := some s, live := { live with usersFailed := false } }
              if file.commit = .current then ⟨r, file, .ok, some s⟩
              else
                let file := file.persist env.write { current := some s, commit := .current }
                ⟨r, file, if env.write = .done then .ok else .died, some s⟩

end RuntimeUsers

/-! ## What an install can do -/

theorem Write.ending_cases {w : Write} {o : Outcome} (h : w.ending = some o) :
    o = .error .io ∨ o = .died := by
  cases w <;> simp_all [Write.ending]

theorem Write.ending_eq_io {w : Write} (h : w.ending = some (.error .io)) :
    w = .failed ∨ w = .unsynced := by
  cases w <;> simp_all [Write.ending]

theorem Write.ending_eq_none {w : Write} : w.ending = none ↔ w = .done := by
  cases w <;> simp [Write.ending]

namespace RuntimeUsers

/-- The snapshot that a request completes, if it does. -/
def completes (codec : Codec) (req : UserInstallRequest) (r : RuntimeUsers) (s : UserSnapshot) : Prop :=
  (r.prepare codec req).2 = .ok (some s)

section

variable {codec : Codec} {node : Node} {req : UserInstallRequest} {s : UserSnapshot} {r : RuntimeUsers}

theorem admitted_of_judge (h : r.judge codec node req s = some (.ok ())) :
    validateSnapshot node r.live.tracker s = .ok () ∧ ∀ c, r.current = some c →
      c.revision < s.revision ∨ (c.revision = s.revision ∧
        userSnapshotContentDigest codec s = userSnapshotContentDigest codec c) := by
  cases hcur : r.current with
  | none =>
    simp only [judge, hcur] at h
    exact ⟨Option.some.inj h, nofun⟩
  | some cur =>
    simp only [judge, hcur] at h
    simp only [Option.some.injEq, forall_eq']
    split_ifs at h with hold heq hsame hmode hcontent
    · cases h
    · split at h <;> cases h
    · cases h
    · cases h
    · exact ⟨Option.some.inj h, Or.inr ⟨heq.symm, (not_not.mp hcontent).symm⟩⟩
    · exact ⟨Option.some.inj h, Or.inl (by omega)⟩

theorem same_of_judge_none (h : r.judge codec node req s = none) :
    ∃ c, r.current = some c ∧ c.revision = s.revision ∧ c.digest = s.digest ∧
      r.live.usersFailed = false := by
  simp only [judge] at h
  split at h
  · cases h
  · rename_i c hc
    split_ifs at h with hold hrev hsame
    exact ⟨c, hc, hrev.symm, hsame.1.symm, hsame.2⟩

end

inductive Installs (codec : Codec) (node : Node) (env : InstallEnv) (req : UserInstallRequest)
    (r : RuntimeUsers) (file : PersistedUsers) : Called → Prop
  | stays (chunks : Option ChunkBuffer) (w : Write) (state : PersistedUsers) (outcome : Outcome)
      (hstate : state.current = r.current) (hok : outcome ≠ .ok) :
      Installs codec node env req r file
        ⟨{ r with chunks := chunks }, file.persist w state, outcome, none⟩
  | same (chunks : Option ChunkBuffer) (s cur : UserSnapshot) (hs : completes codec req r s)
      (hcur : r.current = some cur) (hrevision : cur.revision = s.revision)
      (hdigest : cur.digest = s.digest) (hup : r.live.usersFailed = false) :
      Installs codec node env req r file ⟨{ r with chunks := chunks }, file, .ok, none⟩
  | stops (chunks : Option ChunkBuffer) (s : UserSnapshot) (live : Live) (e : InstallError)
      (hs : completes codec req r s)
      (hjudge : judge codec node req s { r with chunks := chunks } = some (.ok ()))
      (hpublish : r.live.publish node env.publication s = (live, some e)) :
      Installs codec node env req r file
        ⟨{ r with chunks := chunks, live := live }.fail env,
          file.persist .done { current := r.current, candidate := some s, commit := .candidate },
          .error e, none⟩
  | uncommitted (chunks : Option ChunkBuffer) (s : UserSnapshot) (live : Live) (outcome : Outcome)
      (hs : completes codec req r s)
      (hjudge : judge codec node req s { r with chunks := chunks } = some (.ok ()))
      (hpublish : r.live.publish node env.publication s = (live, none))
      (hcommit : env.commitWrite.ending = some outcome) :
      Installs codec node env req r file
        ⟨{ r with chunks := chunks, live := live }.fail env,
          (file.persist .done
            { current := r.current, candidate := some s, commit := .candidate }).persist
            env.commitWrite { current := some s, commit := .current }, outcome, some s⟩
  | commits (chunks : Option ChunkBuffer) (s : UserSnapshot) (live : Live)
      (hs : completes codec req r s)
      (hjudge : judge codec node req s { r with chunks := chunks } = some (.ok ()))
      (hpublish : r.live.publish node env.publication s = (live, none))
      (hcommit : env.commitWrite = .done) :
      Installs codec node env req r file
        ⟨{ current := some s
           live := Live.pruneSnellCounters env.publication.connected { live with usersFailed := false } },
          (file.persist .done
            { current := r.current, candidate := some s, commit := .candidate }).persist
            env.commitWrite { current := some s, commit := .current }, .ok, some s⟩

theorem commit_installs {codec : Codec} {node : Node} {env : InstallEnv} {req : UserInstallRequest}
    {r : RuntimeUsers} {chunks : Option ChunkBuffer} {s : UserSnapshot} (file : PersistedUsers)
    (hs : completes codec req r s)
    (hjudge : judge codec node req s { r with chunks := chunks } = some (.ok ())) :
    Installs codec node env req r file (commit node env s { r with chunks := chunks } file) := by
  simp only [commit]
  cases hcandidate : env.candidateWrite.ending with
  | some outcome =>
    refine .stays chunks env.candidateWrite _ outcome rfl ?_
    rcases Write.ending_cases hcandidate with rfl | rfl <;> simp
  | none =>
    rw [Write.ending_eq_none.mp hcandidate]
    cases hpublish : r.live.publish node env.publication s with
    | mk live err =>
    cases err with
    | some e => exact .stops chunks s live e hs hjudge hpublish
    | none =>
      cases hcommit : env.commitWrite.ending with
      | some outcome => exact .uncommitted chunks s live outcome hs hjudge hpublish hcommit
      | none => exact .commits chunks s live hs hjudge hpublish (Write.ending_eq_none.mp hcommit)

theorem install_installs (codec : Codec) (node : Node) (env : InstallEnv) (req : UserInstallRequest)
    (r : RuntimeUsers) (file : PersistedUsers) :
    Installs codec node env req r file (r.install codec node env req file) := by
  cases hprepare : r.prepare codec req with
  | mk chunks result =>
  cases result with
  | error e =>
    simp only [install, hprepare]
    exact .stays chunks .failed { current := r.current } (.error e) rfl (by simp)
  | ok complete =>
  cases complete with
  | none =>
    simp only [install, hprepare]
    refine .stays chunks env.chunkWrite _ _ rfl ?_
    cases env.chunkWrite <;> simp [Write.ending]
  | some s =>
  have hs : completes codec req r s := by rw [completes, hprepare]
  simp only [install, hprepare]
  cases hjudge : judge codec node req s { r with chunks := chunks } with
  | none =>
    obtain ⟨cur, hcur, hrevision, hdigest, hup⟩ := same_of_judge_none hjudge
    exact .same chunks s cur hs hcur hrevision hdigest hup
  | some verdict =>
    cases verdict with
    | error e => exact .stays chunks .failed { current := r.current } (.error e) rfl (by simp)
    | ok u => exact commit_installs file hs hjudge

structure Restores (codec : Codec) (r : RuntimeUsers) (file : PersistedUsers) (c : Called) : Prop where
  fileCurrent : c.file.current = file.current
  fileChunks : file.chunks = none → c.file.chunks = none
  outcome : c.outcome = .died ∨
    (c.outcome = .ok ∧ c.users.current = file.current.or r.current ∧
      c.users.chunks = (restoreChunks codec file r.chunks).1)

theorem restore_cases (codec : Codec) (node : Node) (env : RestoreEnv) (r : RuntimeUsers)
    (file : PersistedUsers) : Restores codec r file (r.restore codec node env file) := by
  unfold restore
  split
  · exact ⟨rfl, id, Or.inl rfl⟩
  cases hchunks : restoreChunks codec file r.chunks with
  | mk chunks failed =>
  cases failed with
  | some e => exact ⟨rfl, id, Or.inl rfl⟩
  | none =>
  dsimp only
  split
  · rename_i hfile
    exact ⟨rfl, id, Or.inr ⟨rfl, by simp [hfile], by rw [hchunks]⟩⟩
  · rename_i s hfile
    split
    · exact ⟨rfl, id, Or.inl rfl⟩
    split
    · exact ⟨rfl, id, Or.inl rfl⟩
    split
    · exact ⟨rfl, id, Or.inl rfl⟩
    split
    · exact ⟨rfl, id, Or.inr ⟨rfl, by simp [hfile], by rw [hchunks]⟩⟩
    · refine ⟨PersistedUsers.persist_of (P := (·.current = file.current)) env.write rfl hfile.symm,
        fun hnone => PersistedUsers.persist_of (P := (·.chunks = none)) env.write hnone rfl, ?_⟩
      dsimp only
      split
      · exact Or.inr ⟨rfl, by simp [hfile], by rw [hchunks]⟩
      · exact Or.inl rfl

end RuntimeUsers

/-! ## A small configuration -/

def twoInbounds : Node :=
  { declared := ["in-1", "in-2"]
    capability := fun tag => if tag = "in-1" ∨ tag = "in-2" then some .vless else none
    hasOutbound := fun tag => tag = "direct"
    hasSelector := fun _ => true
    validPSK := fun _ _ => true }

def showRevision : Codec :=
  { hash := fun c => "users-" ++ toString c.revision
    chunkHash := fun _ => ""
    chunkBytes := fun _ => 0 }

def user (tag name : String) (credential : UserCredential) : UserInstallEntry :=
  { inboundTag := tag, authUser := name, authorizationKey := "key-" ++ name, credential := credential
    routeOutbound := "direct" }

/-- The users given, on the inbounds given, as the revision. -/
def installs (revision : Int) (scope : List String) (entries : List UserInstallEntry) : UserInstallRequest :=
  { scope := scope, usersRevision := revision, usersDigest := "users-" ++ toString revision
    mode := .full, entries := entries }

def alice : UserInstallEntry := user "in-1" "alice" { uuid := "11111111-1111-1111-1111-111111111111" }

def bob : UserInstallEntry := user "in-2" "bob" { uuid := "22222222-2222-2222-2222-222222222222" }

end OboardAgent.Users
