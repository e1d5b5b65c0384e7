import OboardAgent.Lib.FileTree
import OboardAgent.Stealth.Envelope

/-!
# State migration between the layouts

`migrateStateTreeEncrypt` and `migrateStateTreeDecrypt` of `internal/agent/stealth.go`. The way into
the hidden layout walks over whatever is in the state directory; the way back goes by lists of
names, since a physical name cannot be reversed without knowing the logical one. Two files that the
agent writes are on no list, and a file that is stored in plain is taken for an envelope on the way
back when it begins like one.

HMAC-SHA256 is a parameter. Nothing is assumed of it but what a theorem says.
-/

namespace OboardAgent.Stealth

open Files (Path Node Tree)

/-! ## Names -/

abbrev Hmac := Key → String → { d : Bytes // d.length = 32 }

def nameDomain : String := "oboard-stealth-name-v1:"

def hexDigits : List Char := ['0', '1', '2', '3', '4', '5', '6', '7', '8', '9', 'a', 'b', 'c', 'd', 'e', 'f']

def hexEncode (data : Bytes) : List Char :=
  data.flatMap fun b => [hexDigits.getD (b.toNat / 16) '0', hexDigits.getD (b.toNat % 16) '0']

def physicalName (hmac : Hmac) (key : Key) (logical : String) : String :=
  String.ofList (hexEncode ((hmac key (nameDomain ++ logical)).val.take 8))

def stateTopLevelFiles : List String :=
  ["runtime-security.json", "runtime-security-pending.json", "runtime-security-desired.json",
    "runtime-secrets.key",
    "runtime-storage-ready.json", "runtime-security-report.json", "runtime-release-proof.json",
      "sing-box.json",
    "sing-box.last-good.json", "last-applied-version.json", "controller-link.json", "core-watchdog.json",
    "traffic-state.json", "metric-reports.json", "latency-probe.json", "connection-audit-state.json",
    "authorization.json", "kernel-authorization.json", "kernel-users.json", "kernel-proxy-dscp.json",
    "runtime-users.json", "ssh-inbounds.json", "ssh-inbounds.last-good.json", "ssh-inbounds-host-key",
    "port-forwards.json", "port-forwards.last-good.json", "realm.toml", "realm.pid", "realm.log",
      "tunnels.json",
    "tunnels.last-good.json", "dns-benchmark.json", "runtime-clock.json", "socket-tuning.json",
    "host-power-journal.json", "core-lifecycle.lock"]

def stateTopLevelDirs : List String := ["tunnels", "warp", "managed-assets", "remote-exec", "acme"]

def allStateTopLevelFiles : List String :=
  stateTopLevelFiles ++
    ["traffic-state.json.bak", "authorization.json.denied.json", "kernel-authorization.json.denied.json"]

def statePhysicalName (hmac : Hmac) (key : Key) (logical : String) : String :=
  if logical = "traffic-state.json.bak" then physicalName hmac key "traffic-state.json" ++ ".bak"
  else if logical = "authorization.json.denied.json"
    then physicalName hmac key "authorization.json" ++ ".denied.json"
  else if logical = "kernel-authorization.json.denied.json" then
    physicalName hmac key "kernel-authorization.json" ++ ".denied.json"
  else physicalName hmac key logical

/-- The state files that the agent writes and the lists do not have
(`collectAndReportAccountActivity`, `persistVPNGateLocked`). -/
def unlistedFiles : List String := ["account-activity-pending.json", "vpngate-pools.json"]

/-- The names that `PhysicalName` is asked for. -/
def logicalNames : List String := stateTopLevelFiles ++ unlistedFiles ++ stateTopLevelDirs

/-! ## Encrypting -/

def hasPrefix (text start : String) : Bool := start.toList.isPrefixOf text.toList

def hasSuffix (text ending : String) : Bool := ending.toList.isSuffixOf text.toList

def plaintextStateFile (name : String) : Bool := hasSuffix name ".pid" || name = "core-lifecycle.lock"

def isCandidate (name : String) : Bool :=
  hasPrefix name "sing-box." && hasSuffix name ".json" && name != "sing-box.json" && name !=
    "sing-box.last-good.json"

def skipped (p : Path) (n : Node) : Bool :=
  match p with
  | [] => true
  | name :: rest =>
    hasPrefix name "." ||
      match n with
      | .dir => false
      | .file _ => rest.isEmpty && isCandidate name
      | .link _ => true
      | .special => true

/-- Where an entry goes in the hidden layout: a file at the top under its physical name, with the
variants, anything else below the physical name of its directory. -/
def hiddenPath (hmac : Hmac) (key : Key) (p : Path) (n : Node) : Path :=
  match p, n with
  | [], _ => []
  | [name], .file _ => [statePhysicalName hmac key name]
  | name :: rest, _ => physicalName hmac key name :: rest

def verbatim (p : Path) : Bool :=
  match p with
  | [] => false
  | [name] => plaintextStateFile name
  | name :: rest => name = "acme" || plaintextStateFile (rest.getLastD "")

variable (aead : Aead) (hmac : Hmac) (key : Key)

def sealNode (nonce : Nonce) (p : Path) (n : Node) : Option Node :=
  match n with
  | .file data => if verbatim p then some (.file data) else (encrypt aead key nonce data).map .file
  | n => some n

variable (nonce : Path → Nonce)

def encryptEntry (e : (_ : Path) × Node) : Option (Option (Path × Node)) :=
  if skipped e.1 e.2 then some none
  else (sealNode aead key (nonce e.1) e.1 e.2).map fun n => some (hiddenPath hmac key e.1 e.2, n)

/-- `migrateStateTreeEncrypt`, with the nonces that are drawn. -/
def migrateStateTreeEncrypt (src dst : Tree) : Option Tree :=
  Tree.copyAll (encryptEntry aead hmac key nonce) src.entries dst

/-! ## Decrypting -/

/-- `decrypted`: what does not begin like an envelope is taken as it is. -/
def decrypted (data : Bytes) : Option Bytes := if isEncrypted data then decrypt aead key data else some data

inductive Job where
  | file (name : String)
  | entry (name : String) (q : Path) (n : Node)

def openNode (p : Path) (n : Node) : Option (Option Node) :=
  match n with
  | .dir => some (some .dir)
  | .file data => if verbatim p then some (some (.file data)) else (decrypted aead key data).map
      fun plain => some (.file plain)
  | .link _ => some none
  | .special => some none

def restoreEntry (src : Tree) (job : Job) : Option (Option (Path × Node)) :=
  match job with
  | .file name =>
    match src.lookup [statePhysicalName hmac key name] with
    | none => some none
    | some (.file data) => (decrypted aead key data).map fun plain => some ([name], .file plain)
    | some _ => none
  | .entry _ [] _ => some none
  | .entry name (head :: rest) n =>
    if head = physicalName hmac key name then
      (openNode aead key (name :: rest) n).map fun opened => opened.map fun n => (name :: rest, n)
    else some none

def restoreJobs (src : Tree) : List Job :=
  allStateTopLevelFiles.map .file ++ stateTopLevelDirs.flatMap fun name => src.entries.map fun e =>
    .entry name e.1 e.2

def migrateStateTreeDecrypt (src dst : Tree) : Option Tree :=
  Tree.copyAll (restoreEntry aead hmac key src) (restoreJobs src) dst

/-! ## State directories -/

inductive Written : Path → Node → Prop
  | file {name : String} {data : Bytes} (h : name ∈ allStateTopLevelFiles ++ unlistedFiles) :
      Written [name] (.file data)
  | dir {name : String} (h : name ∈ stateTopLevelDirs) : Written [name] .dir
  | inside {name : String} {rest : Path} {n : Node} (h : name ∈ stateTopLevelDirs) (hrest : rest ≠ []) :
      Written (name :: rest) n

/-- A standard state directory: what is carried over at all was written by the agent or the
kernel. -/
structure StateDir where
  tree : Tree
  written : ∀ p n, tree.lookup p = some n → skipped p n = false → Written p n

/-- The way there and back yields everything again, and nothing else. -/
def RoundTrip (src : StateDir) : Prop :=
  ∃ hidden back, migrateStateTreeEncrypt aead hmac key nonce src.tree ∅ = some hidden ∧
    migrateStateTreeDecrypt aead hmac key hidden ∅ = some back ∧
    ∀ p n, back.lookup p = some n ↔ src.tree.lookup p = some n ∧ skipped p n = false

/-- The files are on the list, those that are encrypted are small enough for it, and those that are
not and are at the top do not begin like an envelope. -/
structure Restorable (src : StateDir) : Prop where
  listed : ∀ name data, src.tree.lookup [name] = some (.file data) → skipped [name] (.file data) = false →
    name ∈ allStateTopLevelFiles
  small : ∀ p data, src.tree.lookup p = some (.file data) → skipped p (.file data) = false →
    verbatim p = false →
    data.length ≤ maxSealPlaintext
  plain : ∀ name data, src.tree.lookup [name] = some (.file data) → skipped [name] (.file data) = false →
    plaintextStateFile name = true → isEncrypted data = false

/-! ## Physical names -/

section Names

variable {hmac key}

theorem length_hexEncode (data : Bytes) : (hexEncode data).length = 2 * data.length := by
  unfold hexEncode
  induction data with
  | nil => rfl
  | cons b rest ih =>
    rw [List.flatMap_cons, List.length_append, ih, List.length_cons, List.length_cons,
      List.length_cons, List.length_nil]
    omega

theorem length_physicalName (logical : String) : (physicalName hmac key logical).toList.length = 16 := by
  unfold physicalName
  rw [String.toList_ofList, length_hexEncode, List.length_take, (hmac key _).property]
  rfl

def writtenNames : List String := allStateTopLevelFiles ++ unlistedFiles ++ stateTopLevelDirs

theorem statePhysicalName_of_logical {name : String} (h : name ∈ logicalNames) :
    statePhysicalName hmac key name = physicalName hmac key name := by
  have hvariants : ∀ n ∈ logicalNames, n ≠ "traffic-state.json.bak" ∧ n ≠ "authorization.json.denied.json" ∧
      n ≠ "kernel-authorization.json.denied.json" := by decide
  obtain ⟨hbak, hdenied, hkernel⟩ := hvariants name h
  unfold statePhysicalName
  rw [if_neg hbak, if_neg hdenied, if_neg hkernel]

theorem statePhysicalName_of_dir {name : String} (h : name ∈ stateTopLevelDirs) :
    statePhysicalName hmac key name = physicalName hmac key name :=
  statePhysicalName_of_logical (List.mem_append_right _ h)

theorem exists_base (hmac : Hmac) (key : Key) {name : String} (h : name ∈ writtenNames) :
    ∃ base ∈ logicalNames, ∃ ending, name = base ++ ending ∧
      statePhysicalName hmac key name = physicalName hmac key base ++ ending := by
  by_cases hlogical : name ∈ logicalNames
  · refine ⟨name, hlogical, "", (String.append_empty).symm, ?_⟩
    rw [statePhysicalName_of_logical hlogical, String.append_empty]
  · have hvariant : name = "traffic-state.json.bak" ∨ name = "authorization.json.denied.json" ∨
        name = "kernel-authorization.json.denied.json" := by
      simp only [writtenNames, allStateTopLevelFiles, logicalNames, List.mem_append, not_or] at h hlogical
      simpa [hlogical] using h
    rcases hvariant with rfl | rfl | rfl
    · exact ⟨"traffic-state.json", by decide, ".bak", by decide, rfl⟩
    · exact ⟨"authorization.json", by decide, ".denied.json", by decide, rfl⟩
    · exact ⟨"kernel-authorization.json", by decide, ".denied.json", by decide, rfl⟩

/-- `PhysicalName` is injective on the logical names. -/
def NamesInjective (hmac : Hmac) (key : Key) : Prop :=
  ∀ a ∈ logicalNames, ∀ b ∈ logicalNames, physicalName hmac key a = physicalName hmac key b → a = b

theorem statePhysicalName_inj (hinj : NamesInjective hmac key) {a b : String} (ha : a ∈ writtenNames)
    (hb : b ∈ writtenNames) (h : statePhysicalName hmac key a = statePhysicalName hmac key b) : a = b := by
  obtain ⟨base, hbase, ending, rfl, hphysical⟩ := exists_base hmac key ha
  obtain ⟨base', hbase', ending', rfl, hphysical'⟩ := exists_base hmac key hb
  rw [hphysical, hphysical', ← String.toList_inj, String.toList_append, String.toList_append] at h
  obtain ⟨hnames, hendings⟩ := List.append_inj h
    ((length_physicalName base).trans (length_physicalName base').symm)
  rw [hinj base hbase base' hbase' (String.toList_inj.mp hnames), String.toList_inj.mp hendings]

theorem not_dir_of_file {name : String} (h : name ∈ allStateTopLevelFiles ++ unlistedFiles) :
    name ∉ stateTopLevelDirs := by
  have hdisjoint : ∀ n ∈ allStateTopLevelFiles ++ unlistedFiles, n ∉ stateTopLevelDirs := by decide
  exact hdisjoint name h

theorem hiddenPath_of_written (hmac : Hmac) (key : Key) {p : Path} {n : Node} (h : Written p n) :
    ∃ name rest, p = name :: rest ∧ name ∈ writtenNames ∧
      hiddenPath hmac key p n = statePhysicalName hmac key name :: rest := by
  cases h with
  | @file name data h => exact ⟨name, [], rfl, List.mem_append_left _ h, rfl⟩
  | @dir name h =>
    exact ⟨name, [], rfl, List.mem_append_right _ h, by rw [statePhysicalName_of_dir h]; rfl⟩
  | @inside name rest n h hrest =>
    refine ⟨name, rest, rfl, List.mem_append_right _ h, ?_⟩
    rw [statePhysicalName_of_dir h]
    obtain ⟨next, rest, rfl⟩ := List.exists_cons_of_ne_nil hrest
    rfl

end Names

/-! ## There and back -/

section RoundTrip

variable {aead hmac key} {nonce : Path → Nonce} {src : StateDir} {hidden back : Tree}

variable {m : Node} {name : String}

theorem encryptEntry_eq_some {e : (_ : Path) × Node} {q : Path} :
    encryptEntry aead hmac key nonce e = some (some (q, m)) ↔
      skipped e.1 e.2 = false ∧ sealNode aead key (nonce e.1) e.1 e.2 = some m ∧
        q = hiddenPath hmac key e.1 e.2 := by
  unfold encryptEntry
  split_ifs with h
  · simp [h]
  · simp only [Bool.not_eq_true] at h
    cases sealNode aead key (nonce e.1) e.1 e.2 <;> simp [h, eq_comm, and_comm]

theorem writes_encrypt_iff (hinj : NamesInjective hmac key) (hname : name ∈ writtenNames)
    {rest : Path} :
    Tree.Writes (encryptEntry aead hmac key nonce) src.tree.entries
      (statePhysicalName hmac key name :: rest) m ↔
      ∃ n, src.tree.lookup (name :: rest) = some n ∧ skipped (name :: rest) n = false ∧
        sealNode aead key (nonce (name :: rest)) (name :: rest) n = some m := by
  constructor
  · rintro ⟨⟨p, n⟩, he, hwrite⟩
    obtain ⟨hskipped, hseal, hpath⟩ := encryptEntry_eq_some.mp hwrite
    have hlookup : src.tree.lookup p = some n := AList.mem_lookup_iff.mpr he
    obtain ⟨name', rest', rfl, hname', hhidden⟩ :=
      hiddenPath_of_written hmac key (src.written p n hlookup hskipped)
    rw [hhidden] at hpath
    obtain ⟨hphysical, rfl⟩ := List.cons.inj hpath
    obtain rfl := statePhysicalName_inj hinj hname hname' hphysical
    exact ⟨n, hlookup, hskipped, hseal⟩
  · rintro ⟨n, hlookup, hskipped, hseal⟩
    obtain ⟨name', rest', hp, -, hhidden⟩ := hiddenPath_of_written hmac key (src.written _ n hlookup hskipped)
    obtain ⟨rfl, rfl⟩ := List.cons.inj hp
    exact ⟨⟨name :: rest, n⟩, AList.mem_lookup_iff.mp hlookup,
      encryptEntry_eq_some.mpr ⟨hskipped, hseal, hhidden.symm⟩⟩

theorem openNode_of_sealNode {p : Path} {n : Node} (hskipped : skipped p n = false)
    (h : sealNode aead key (nonce p) p n = some m) : openNode aead key p m = some (some n) := by
  cases n with
  | dir =>
    cases h
    rfl
  | file data =>
    unfold sealNode at h
    dsimp only at h
    split_ifs at h with hverbatim
    · cases h
      simp [openNode, hverbatim]
    · obtain ⟨sealed, hencrypt, rfl⟩ := Option.map_eq_some_iff.mp h
      simp [openNode, hverbatim, decrypted, isEncrypted_of_encrypt hencrypt, decrypt_of_encrypt hencrypt]
  | link target => cases p <;> simp [skipped] at hskipped
  | special => cases p <;> simp [skipped] at hskipped

theorem decrypted_of_sealNode {data : Bytes}
    (hplain : plaintextStateFile name = true → isEncrypted data = false)
    (h : sealNode aead key (nonce [name]) [name] (.file data) = some m) :
    ∃ stored, m = .file stored ∧ decrypted aead key stored = some data := by
  unfold sealNode at h
  dsimp only at h
  split_ifs at h with hverbatim
  · cases h
    exact ⟨data, rfl, by simp [decrypted, hplain hverbatim]⟩
  · obtain ⟨sealed, hencrypt, rfl⟩ := Option.map_eq_some_iff.mp h
    exact ⟨sealed, rfl, by simp [decrypted, isEncrypted_of_encrypt hencrypt, decrypt_of_encrypt hencrypt]⟩

theorem decrypted_ne_of_isEncrypted {data : Bytes} (h : isEncrypted data = true) :
    decrypted aead key data ≠ some data := by
  unfold decrypted
  rw [if_pos h]
  intro hdecrypt
  have hlength := length_of_decrypt hdecrypt
  omega

inductive Restores (aead : Aead) (hmac : Hmac) (key : Key) (hidden : Tree) : Path → Node → Prop
  | file {name : String} {data plain : Bytes} (hname : name ∈ allStateTopLevelFiles)
      (hdata : hidden.lookup [statePhysicalName hmac key name] = some (.file data))
      (hplain : decrypted aead key data = some plain) : Restores aead hmac key hidden [name] (.file plain)
  | entry {name : String} {rest : Path} {m n : Node} (hname : name ∈ stateTopLevelDirs)
      (hm : hidden.lookup (physicalName hmac key name :: rest) = some m)
      (hopen : openNode aead key (name :: rest) m = some (some n)) : Restores aead hmac key hidden
        (name :: rest) n

theorem writes_restore_iff {p : Path} {n : Node} :
    Tree.Writes (restoreEntry aead hmac key hidden) (restoreJobs hidden) p n ↔
      Restores aead hmac key hidden p n := by
  unfold Tree.Writes restoreJobs
  simp only [List.mem_append, List.mem_map, List.mem_flatMap]
  constructor
  · rintro ⟨job, ⟨name, hname, rfl⟩ | ⟨name, hname, ⟨q, m⟩, hmem, rfl⟩, hwrite⟩
    · unfold restoreEntry at hwrite
      dsimp only at hwrite
      split at hwrite
      · cases hwrite
      · next data hdata =>
        obtain ⟨plain, hplain, heq⟩ := Option.map_eq_some_iff.mp hwrite
        cases heq
        exact .file hname hdata hplain
      · cases hwrite
    · cases q with
      | nil => cases hwrite
      | cons head rest =>
        unfold restoreEntry at hwrite
        dsimp only at hwrite
        split_ifs at hwrite with hhead
        · obtain ⟨opened, hopen, heq⟩ := Option.map_eq_some_iff.mp hwrite
          obtain ⟨n', rfl, hpair⟩ := Option.map_eq_some_iff.mp heq
          cases hpair
          subst hhead
          exact .entry hname (AList.mem_lookup_iff.mpr hmem) hopen
        · exact nomatch Option.some.inj hwrite
  · rintro (⟨hname, hdata, hplain⟩ | ⟨hname, hm, hopen⟩)
    · exact ⟨.file _, Or.inl ⟨_, hname, rfl⟩, by simp [restoreEntry, hdata, hplain]⟩
    · refine ⟨.entry _ _ _, Or.inr ⟨_, hname, ⟨_, _⟩, AList.mem_lookup_iff.mp hm, rfl⟩, ?_⟩
      simp [restoreEntry, hopen]

theorem Restores.unique {p : Path} {n n' : Node} (h : Restores aead hmac key hidden p n)
    (h' : Restores aead hmac key hidden p n') : n = n' := by
  have hdisjoint : ∀ name ∈ allStateTopLevelFiles, name ∉ stateTopLevelDirs :=
    fun name hname => not_dir_of_file (List.mem_append_left _ hname)
  cases h with
  | file hname hdata hplain =>
    cases h' with
    | file _ hdata' hplain' =>
      cases hdata.symm.trans hdata'
      rw [Option.some.inj (hplain.symm.trans hplain')]
    | entry hname' => exact absurd hname' (hdisjoint _ hname)
  | entry hname hm hopen =>
    cases h' with
    | file hname' => exact absurd hname (hdisjoint _ hname')
    | entry _ hm' hopen' =>
      cases hm.symm.trans hm'
      exact Option.some.inj (Option.some.inj (hopen.symm.trans hopen'))

theorem isSome_sealNode_iff {p : Path} {data : Bytes} :
    (sealNode aead key (nonce p) p (.file data)).isSome ↔
      (verbatim p = false → data.length ≤ maxSealPlaintext) := by
  unfold sealNode encrypt
  dsimp only
  by_cases hverbatim : verbatim p = true
  · simp [hverbatim]
  · by_cases hlong : maxSealPlaintext < data.length
    · simp [hverbatim, hlong]
    · simp [hverbatim, hlong, not_lt.mp hlong]

theorem encrypt_exists_iff :
    (∃ hidden, migrateStateTreeEncrypt aead hmac key nonce src.tree ∅ = some hidden) ↔
      ∀ p data, src.tree.lookup p = some (.file data) → skipped p (.file data) = false → verbatim p = false →
        data.length ≤ maxSealPlaintext := by
  unfold migrateStateTreeEncrypt
  rw [Tree.copyAll_exists_iff]
  constructor
  · intro h p data hlookup hskipped
    have hentry := h ⟨p, .file data⟩ (AList.mem_lookup_iff.mp hlookup)
    simp only [encryptEntry, hskipped, Bool.false_eq_true, if_false, Option.isSome_map] at hentry
    exact isSome_sealNode_iff.mp hentry
  · intro h e he
    unfold encryptEntry
    split_ifs with hskipped
    · rfl
    · rw [Option.isSome_map]
      obtain ⟨p, n⟩ := e
      cases n with
      | file data =>
        refine isSome_sealNode_iff.mpr (h p data (AList.mem_lookup_iff.mpr he) ?_)
        simpa using hskipped
      | _ => rfl

theorem sealed_of_encrypt (h : migrateStateTreeEncrypt aead hmac key nonce src.tree ∅ = some hidden)
    {p : Path} {n : Node} (hlookup : src.tree.lookup p = some n) (hskipped : skipped p n = false) :
    ∃ m, sealNode aead key (nonce p) p n = some m := by
  have hentry := Tree.copyAll_exists_iff.mp ⟨hidden, h⟩ ⟨p, n⟩ (AList.mem_lookup_iff.mp hlookup)
  simp only [encryptEntry, hskipped, Bool.false_eq_true, if_false, Option.isSome_map] at hentry
  exact Option.isSome_iff_exists.mp hentry

theorem file_of_written {n : Node} (h : Written [name] n) (hname : name ∉ stateTopLevelDirs) :
    ∃ data, n = .file data := by
  cases h with
  | file h => exact ⟨_, rfl⟩
  | dir h => exact absurd h hname
  | inside h hrest => exact absurd rfl hrest

section Hidden

variable (hinj : NamesInjective hmac key)
  (h : migrateStateTreeEncrypt aead hmac key nonce src.tree ∅ = some hidden)

include hinj h

theorem lookup_hidden (hname : name ∈ writtenNames) {rest : Path} :
    hidden.lookup (statePhysicalName hmac key name :: rest) = some m ↔
      ∃ n, src.tree.lookup (name :: rest) = some n ∧ skipped (name :: rest) n = false ∧
        sealNode aead key (nonce (name :: rest)) (name :: rest) n = some m := by
  rw [Tree.lookup_copyAll_empty h, writes_encrypt_iff hinj hname]
  rintro q m m' ⟨⟨p, n⟩, he, hwrite⟩ hwrites'
  obtain ⟨hskipped, hseal, rfl⟩ := encryptEntry_eq_some.mp hwrite
  have hlookup : src.tree.lookup p = some n := AList.mem_lookup_iff.mpr he
  obtain ⟨name', rest', rfl, hname', hhidden⟩ :=
    hiddenPath_of_written hmac key (src.written p n hlookup hskipped)
  rw [hhidden, writes_encrypt_iff hinj hname'] at hwrites'
  obtain ⟨n', hlookup', -, hseal'⟩ := hwrites'
  cases hlookup.symm.trans hlookup'
  exact Option.some.inj (hseal.symm.trans hseal')

theorem hidden_file (hrestorable : Restorable src) (hname : name ∈ allStateTopLevelFiles)
    (hm : hidden.lookup [statePhysicalName hmac key name] = some m) :
    ∃ data stored, src.tree.lookup [name] = some (.file data) ∧ skipped [name] (.file data) = false ∧
      m = .file stored ∧ decrypted aead key stored = some data := by
  have hwritten : name ∈ writtenNames := List.mem_append_left _ (List.mem_append_left _ hname)
  obtain ⟨n, hlookup, hskipped, hseal⟩ := (lookup_hidden hinj h hwritten).mp hm
  obtain ⟨data, rfl⟩ := file_of_written (src.written _ n hlookup hskipped)
    (not_dir_of_file (List.mem_append_left _ hname))
  obtain ⟨stored, rfl, hstored⟩ := decrypted_of_sealNode (hrestorable.plain name data hlookup hskipped) hseal
  exact ⟨data, stored, hlookup, hskipped, rfl, hstored⟩

theorem hidden_entry (hname : name ∈ stateTopLevelDirs) {rest : Path}
    (hm : hidden.lookup (physicalName hmac key name :: rest) = some m) :
    ∃ n, src.tree.lookup (name :: rest) = some n ∧ skipped (name :: rest) n = false ∧
      openNode aead key (name :: rest) m = some (some n) := by
  rw [← statePhysicalName_of_dir hname] at hm
  obtain ⟨n, hlookup, hskipped, hseal⟩ := (lookup_hidden hinj h (List.mem_append_right _ hname)).mp hm
  exact ⟨n, hlookup, hskipped, openNode_of_sealNode hskipped hseal⟩

theorem decrypt_exists (hrestorable : Restorable src) :
    ∃ back, migrateStateTreeDecrypt aead hmac key hidden ∅ = some back := by
  unfold migrateStateTreeDecrypt
  rw [Tree.copyAll_exists_iff]
  intro job hjob
  unfold restoreJobs at hjob
  simp only [List.mem_append, List.mem_map, List.mem_flatMap] at hjob
  rcases hjob with ⟨name, hname, rfl⟩ | ⟨name, hname, ⟨q, m⟩, hmem, rfl⟩
  · unfold restoreEntry
    dsimp only
    cases hm : hidden.lookup [statePhysicalName hmac key name] with
    | none => rfl
    | some m =>
      obtain ⟨data, stored, -, -, rfl, hstored⟩ := hidden_file hinj h hrestorable hname hm
      simp [hstored]
  · cases q with
    | nil => rfl
    | cons head rest =>
      unfold restoreEntry
      dsimp only
      split_ifs with hhead
      · subst hhead
        obtain ⟨n, -, -, hopen⟩ := hidden_entry hinj h hname (AList.mem_lookup_iff.mpr hmem)
        simp [hopen]
      · rfl

end Hidden

theorem lookup_back (h : migrateStateTreeDecrypt aead hmac key hidden ∅ = some back) {p : Path} {n : Node} :
    back.lookup p = some n ↔ Restores aead hmac key hidden p n := by
  rw [Tree.lookup_copyAll_empty h, writes_restore_iff]
  intro q n n' hn hn'
  exact (writes_restore_iff.mp hn).unique (writes_restore_iff.mp hn')

theorem roundTrip_of_restorable (hinj : NamesInjective hmac key) (hrestorable : Restorable src) :
    RoundTrip aead hmac key nonce src := by
  obtain ⟨hidden, hhidden⟩ : ∃ hidden, migrateStateTreeEncrypt aead hmac key nonce src.tree ∅ = some hidden :=
    encrypt_exists_iff.mpr hrestorable.small
  obtain ⟨back, hback⟩ := decrypt_exists hinj hhidden hrestorable
  refine ⟨hidden, back, hhidden, hback, fun p n => (lookup_back hback).trans ⟨?_, ?_⟩⟩
  · rintro (⟨hname, hm, hplain⟩ | ⟨hname, hm, hopen⟩)
    · obtain ⟨data, stored', hlookup, hskipped, ⟨⟩, hdata⟩ := hidden_file hinj hhidden hrestorable hname hm
      cases hdata.symm.trans hplain
      exact ⟨hlookup, hskipped⟩
    · obtain ⟨n', hlookup, hskipped, hopen'⟩ := hidden_entry hinj hhidden hname hm
      cases hopen'.symm.trans hopen
      exact ⟨hlookup, hskipped⟩
  · rintro ⟨hlookup, hskipped⟩
    obtain ⟨m, hseal⟩ := sealed_of_encrypt hhidden hlookup hskipped
    have hwritten := src.written p n hlookup hskipped
    obtain ⟨name, rest, rfl, hname, -⟩ := hiddenPath_of_written hmac key hwritten
    have hm := (lookup_hidden hinj hhidden hname).mpr ⟨n, hlookup, hskipped, hseal⟩
    by_cases hdir : name ∈ stateTopLevelDirs
    · rw [statePhysicalName_of_dir hdir] at hm
      exact .entry hdir hm (openNode_of_sealNode hskipped hseal)
    · cases hwritten with
      | @file _ data h =>
        obtain ⟨stored, rfl, hstored⟩ :=
          decrypted_of_sealNode (hrestorable.plain name data hlookup hskipped) hseal
        exact .file (hrestorable.listed name data hlookup hskipped) hm hstored
      | dir h => exact absurd h hdir
      | inside h => exact absurd h hdir

theorem restorable_of_roundTrip (hinj : NamesInjective hmac key) (h : RoundTrip aead hmac key nonce src) :
    Restorable src := by
  obtain ⟨hidden, back, hhidden, hback, hsame⟩ := h
  -- A file at the top that comes back is on the list, and comes back by the list.
  have htop : ∀ name data, src.tree.lookup [name] = some (.file data) → skipped [name] (.file data) = false →
      name ∈ allStateTopLevelFiles ∧ ∃ stored,
        hidden.lookup [statePhysicalName hmac key name] = some (.file stored) ∧
          decrypted aead key stored = some data := by
    intro name data hlookup hskipped
    cases (lookup_back hback).mp ((hsame [name] (.file data)).mpr ⟨hlookup, hskipped⟩) with
    | file hname hm hplain => exact ⟨hname, _, hm, hplain⟩
    | entry hname =>
      cases src.written _ _ hlookup hskipped with
      | file hfile => exact absurd hname (not_dir_of_file hfile)
      | inside hdir hrest => exact absurd rfl hrest
  refine ⟨fun name data hlookup hskipped => (htop name data hlookup hskipped).1,
    encrypt_exists_iff.mp ⟨hidden, hhidden⟩,
    fun name data hlookup hskipped hplain => ?_⟩
  obtain ⟨hname, stored, hm, hstored⟩ := htop name data hlookup hskipped
  obtain ⟨n, hn, -, hseal⟩ :=
    (lookup_hidden hinj hhidden (List.mem_append_left _ (List.mem_append_left _ hname))).mp hm
  cases hlookup.symm.trans hn
  have hverbatim : verbatim [name] = true := hplain
  simp only [sealNode, hverbatim, if_true, Option.some.injEq, Node.file.injEq] at hseal
  subst hseal
  rcases Bool.eq_false_or_eq_true (isEncrypted data) with hmagic | hmagic
  · exact absurd hstored (decrypted_ne_of_isEncrypted hmagic)
  · exact hmagic

/-- **State comes back from the hidden layout exactly when its files are on the list, are small
enough to be encrypted, and do not begin like an envelope where they are stored in plain at the
top.** -/
theorem roundTrip_iff (hinj : NamesInjective hmac key) (src : StateDir) :
    RoundTrip aead hmac key nonce src ↔ Restorable src :=
  ⟨restorable_of_roundTrip hinj, roundTrip_of_restorable hinj⟩

end RoundTrip

/-- A stand-in for HMAC-SHA256 to evaluate the model with: the first byte is the number of the
name. -/
def indexHmac : Hmac := fun _ text =>
  ⟨UInt8.ofNat ((logicalNames.map fun name => nameDomain ++ name).idxOf text) :: List.replicate 31 0, by simp⟩

theorem namesInjective_indexHmac : NamesInjective indexHmac plainKey := by
  unfold NamesInjective
  decide +kernel

def oneFile (name : String) (h : name ∈ allStateTopLevelFiles ++ unlistedFiles) (data : Bytes) :
    StateDir where
  tree := AList.singleton [name] (.file data)
  written p n hlookup _ := by
    have hmem : (⟨p, n⟩ : (_ : Path) × Node) ∈ [⟨[name], Node.file data⟩] := AList.mem_lookup_iff.mp hlookup
    cases List.mem_singleton.mp hmem
    exact .file h

/-- A deployed configuration comes back. -/
theorem roundTrip_sing_box :
    NamesInjective indexHmac plainKey ∧
      RoundTrip tagOnly indexHmac plainKey (fun _ => plainNonce)
        (oneFile "sing-box.json" (by decide) [123, 125]) := by
  refine ⟨namesInjective_indexHmac, (roundTrip_iff namesInjective_indexHmac _).mpr ?_⟩
  have hentry : ∀ p data, (oneFile "sing-box.json" (by decide) [123, 125]).tree.lookup p = some (.file data) →
      p = ["sing-box.json"] ∧ data = [123, 125] := by
    intro p data hlookup
    have hmem : (⟨p, .file data⟩ : (_ : Path) × Node) ∈ [⟨["sing-box.json"], Node.file [123, 125]⟩] :=
      AList.mem_lookup_iff.mp hlookup
    cases List.mem_singleton.mp hmem
    exact ⟨rfl, rfl⟩
  refine ⟨fun name data hlookup _ => ?_, fun p data hlookup _ _ => ?_, fun name data hlookup _ _ => ?_⟩
  · obtain ⟨hname, -⟩ := hentry _ _ hlookup
    obtain rfl := (List.cons.inj hname).1
    decide
  · obtain ⟨-, rfl⟩ := hentry _ _ hlookup
    decide
  · obtain ⟨-, rfl⟩ := hentry _ _ hlookup
    decide

/-- The pools of VPN Gate and the pending activity reports are lost, and a PID file that begins like
an envelope does not come back. -/
theorem pools_and_activity_lost :
    ¬ RoundTrip tagOnly indexHmac plainKey (fun _ => plainNonce)
      (oneFile "vpngate-pools.json" (by decide) [123, 125]) ∧
    ¬ RoundTrip tagOnly indexHmac plainKey (fun _ => plainNonce)
      (oneFile "account-activity-pending.json" (by decide) [91, 93]) ∧
    ¬ RoundTrip tagOnly indexHmac plainKey (fun _ => plainNonce)
      (oneFile "realm.pid" (by decide) envelopeMagic) := by
  refine ⟨fun h => ?_, fun h => ?_, fun h => ?_⟩
  · have hlisted := (restorable_of_roundTrip namesInjective_indexHmac h).listed "vpngate-pools.json"
        [123, 125] rfl rfl
    revert hlisted
    decide
  · have hlisted := (restorable_of_roundTrip namesInjective_indexHmac h).listed
        "account-activity-pending.json" [91, 93] rfl rfl
    revert hlisted
    decide
  · have hplain := (restorable_of_roundTrip namesInjective_indexHmac h).plain "realm.pid"
        envelopeMagic rfl rfl rfl
    revert hplain
    decide

end OboardAgent.Stealth
