import Mathlib.Data.List.Dedup
import Mathlib.Data.List.Perm.Subperm
import OboardAgent.Lib.FileTree
import OboardAgent.Lib.GoStrings
import OboardAgent.Lib.Texts
import OboardAgent.Stealth.Envelope

/-!
# Managed assets

`internal/agent/managed_assets.go`: certificates and routing rule sets that a configuration names by
placeholders. They are fetched before the configuration is installed (`syncManagedAssets`) and
pruned after it (`cleanupManagedAssets`), each in a directory of its own kind, id and revision. The
digest of a content and the directory name of a revision are SHA-256; all that is used of it is that
two revisions do not share a directory.

A tree holds the files that are there; a directory is there when something is in it.
-/

namespace OboardAgent.Deploy

open Files (Path Node Tree)
open Stealth (Bytes)

/-! ## References -/

inductive Kind where
  | certificate
  | routingRuleSet
  deriving DecidableEq

def Kind.text : Kind → String
  | .certificate => "certificate"
  | .routingRuleSet => "routing_rule_set"

/-- The kind of a placeholder; the hyphenated form is an old spelling. -/
def Kind.ofText (text : String) : Option Kind :=
  if text = "certificate" then some .certificate
  else if text = "routing_rule_set" ∨ text = "routing-rule-set" then some .routingRuleSet
  else none

def managedAssetFileNames : Kind → List String
  | .certificate => ["fullchain.pem", "privkey.pem"]
  | .routingRuleSet => ["rules.json", "rules.srs"]

def limit : Kind → Nat
  | .certificate => 1048576
  | .routingRuleSet => 8388608

structure Reference where
  kind : Kind
  id : Nat
  revision : String
  int64 : id ≤ 9223372036854775807
  deriving DecidableEq

/-- `managedAssetKey`. -/
def Reference.key (r : Reference) : Kind × Nat := (r.kind, r.id)

def validateManagedAssetReferences (references : List Reference) : Bool :=
  references.all (fun r => 0 < r.id && GoStrings.trimSpace r.revision ≠ "") && decide
    (references.map Reference.key).Nodup

structure Digest where
  content : Bytes → String
  dirName : String → String
  dirName_injective : Function.Injective dirName

/-- `strconv.ParseInt`, and the check that the id is positive. -/
def parseId (name : String) : Option Nat :=
  let digits := match name.toList with
    | '+' :: rest => rest
    | rest => rest
  let id := Nat.ofDigitChars 10 digits 0
  if digits ≠ [] ∧ digits.all Char.isDigit ∧ 0 < id ∧
    id ≤ 9223372036854775807 then some id else none

section Store

variable (d : Digest) (root : Path)

def managedAssetIDDir (r : Reference) : Path := root ++ [r.kind.text, toString r.id]

def managedAssetDir (r : Reference) :
    Path := root ++ [r.kind.text, toString r.id, d.dirName r.revision]

/-! ## What is there -/

def sized (kind : Kind) (content : Bytes) : Bool := !content.isEmpty && content.length ≤ limit kind

def managedCertificateRevision (fullchain privateKey : Bytes) :
    String := d.content (fullchain ++ 0 :: privateKey)

def managedAssetFilesReady (t : Tree) (r : Reference) : Bool :=
  match r.kind with
  | .certificate =>
    match t.lookup (managedAssetDir d root r ++ ["fullchain.pem"]),
      t.lookup (managedAssetDir d root r ++ ["privkey.pem"]) with
    | some (.file fullchain), some (.file privateKey) =>
      sized .certificate fullchain && sized .certificate privateKey &&
        managedCertificateRevision d fullchain privateKey = r.revision
    | _, _ => false
  | .routingRuleSet =>
    match t.lookup (managedAssetDir d root r ++ ["rules.json"]),
      t.lookup (managedAssetDir d root r ++ ["rules.srs"]) with
    | some (.file content), none => sized .routingRuleSet content && d.content content = r.revision
    | none, some (.file content) => sized .routingRuleSet content && d.content content = r.revision
    | _, _ => false

/-! ## Fetching -/

/-- A file of the Controller's answer; a content that is not base64 is `none`. -/
structure AssetFile where
  name : String
  mode : Nat
  content : Option Bytes

structure Asset where
  reference : Reference
  files : List AssetFile

def acceptFiles (kind : Kind) : List AssetFile → GoMap String Bytes → Option (GoMap String Bytes)
  | [], files => some files
  | f :: rest, files =>
    if f.name ∈ managedAssetFileNames kind ∧ f.name ∉ files ∧ f.mode = 384 then
      match f.content with
      | some content => if sized kind content then acceptFiles kind rest
          (files.insert f.name content) else none
      | none => none
    else none

def managedAssetContentMatches (r : Reference) (files : GoMap String Bytes) : Bool :=
  match r.kind with
  | .certificate =>
    match files.lookup "fullchain.pem", files.lookup "privkey.pem" with
    | some fullchain, some privateKey =>
      files.size = 2 && managedCertificateRevision d fullchain privateKey = r.revision
    | _, _ => false
  | .routingRuleSet =>
    files.size = 1 && ((files.lookup "rules.json").or (files.lookup "rules.srs")).any
      (d.content · = r.revision)

/-- The files that an asset of the answer is to be installed with. -/
def accepted (wanted : List Reference) (seen : List (Kind × Nat)) (a : Asset) :
    Option (GoMap String Bytes) :=
  if a.reference ∈ wanted ∧ a.reference.key ∉ seen then
    (acceptFiles a.reference.kind a.files ∅).filter (managedAssetContentMatches d a.reference)
  else none

/-- `ensurePrivateAssetDirectory`, for the directories of an asset: none of them is something
else. -/
def directoriesFree (t : Tree) (r : Reference) : Bool :=
  [root, root ++ [r.kind.text], managedAssetIDDir root r, managedAssetDir d root r].all fun dir =>
    (t.lookup dir).all (· = .dir)

def writeFiles (r : Reference) (files : List (Σ _ : String, Bytes)) (t : Tree) : Tree :=
  files.foldl (fun t f => t.insert (managedAssetDir d root r ++ [f.1]) (.file f.2)) t

def installLoop (wanted : List Reference) :
    List Asset → List (Kind × Nat) → Nat → Tree → Tree × Bool
  | [], _, _, t => (t, true)
  | a :: rest, seen, writes, t =>
    match accepted d wanted seen a with
    | none => (t, false)
    | some files =>
      if directoriesFree d root t a.reference = false then (t, false)
      else if files.entries.length ≤ writes then
        installLoop wanted rest (a.reference.key :: seen) (writes - files.entries.length)
          (writeFiles d root a.reference files.entries t)
      else (writeFiles d root a.reference (files.entries.take writes) t, false)

def installManagedAssets (wanted : List Reference) (assets : List Asset) (writes : Nat) (t : Tree) :
    Tree × Bool :=
  if assets.length ≠ wanted.length then (t, false) else installLoop d root wanted assets [] writes t

/-! ## Placeholders -/

/-- A string of a configuration that begins with `oboard-asset://`: what follows, split at the
slashes. -/
abbrev Placeholder := List String

structure CoreConfig where
  text : String
  placeholders : Option (List Placeholder)
  deriving DecidableEq

/-- An asset path in a configuration, with what it was resolved from. -/
structure Named where
  root : Path
  reference : Reference
  name : String
  deriving DecidableEq

def Named.path (e : Named) : Path := managedAssetDir d e.root e.reference ++ [e.name]

variable (desired : List Reference)

/-- `resolveManagedAssetValue`, at a placeholder. -/
def resolvePlaceholder : Placeholder → Option Named
  | [kind, id, name] =>
    (Kind.ofText kind).bind fun kind =>
      if name ∈ managedAssetFileNames kind then
        (desired.find? fun r => r.kind = kind && toString r.id = id && parseId id = some r.id).map
          fun r => ⟨root, r, name⟩
      else none
  | _ => none

/-- `resolveManagedAssetPlaceholders`. -/
def resolvePlaceholders (desired : List Reference) : List Placeholder → Option (List Named)
  | [] => some []
  | p :: rest =>
    (resolvePlaceholder root desired p).bind fun e =>
      (resolvePlaceholders desired rest).map fun es => e :: es

def managedAssetStateMatches (recorded desired : List Reference) : Bool :=
  recorded.length = desired.length && desired.all (· ∈ recorded)

def fetchMissing (response : Option (List Asset)) (writes : Nat) (missing : List Reference)
    (t : Tree) : Tree × Bool :=
  if missing.isEmpty then (t, true)
  else
    match response with
    | none => (t, false)
    | some assets => installManagedAssets d root missing assets writes t

def missingAssets (references : List Reference) (t : Tree) : List Reference :=
  references.filter fun r => !managedAssetFilesReady d root t r

def resolveConfig (references : List Reference) : Option CoreConfig → Option (List Named)
  | none => if references.isEmpty then some [] else none
  | some config => config.placeholders.bind (resolvePlaceholders root references)

/-- `syncManagedAssets`: the tree, and unless it failed the asset paths of the configuration and
whether the assets changed. `recorded` is what `loadManagedAssetState` gave. -/
def syncManagedAssets (response : Option (List Asset)) (writes : Nat)
    (recorded : Option (List Reference)) (references : List Reference) (config : Option CoreConfig)
    (t : Tree) : Tree × Option (List Named × Bool) :=
  match recorded with
  | none => (t, none)
  | some recorded =>
    if validateManagedAssetReferences references = false then (t, none)
    else
      let missing := missingAssets d root references t
      let fetched := fetchMissing d root response writes missing t
      (fetched.1,
        if fetched.2 then
          (resolveConfig root references config).map fun named =>
            (named, !missing.isEmpty || !managedAssetStateMatches recorded references)
        else none)

/-! ## Pruning -/

def childNames (dir : Path) (t : Tree) : List String :=
  (t.entries.filterMap fun e => if dir.isPrefixOf e.1 then (e.1.drop dir.length).head?
    else none).dedup

def staleOf (t : Tree) (kind : Kind) (name : String) : Option (List Path) :=
  (parseId name).bind fun id =>
    match desired.find? fun r => r.kind = kind && r.id = id with
    | none => some [root ++ [kind.text, name]]
    | some r =>
      if (t.lookup (root ++ [kind.text, name])).all (· = .dir) then
        some (((childNames (root ++ [kind.text, name]) t).filter (· ≠ d.dirName r.revision)).map
          fun revision =>
          root ++ [kind.text, name, revision])
      else none

def staleEntries (t : Tree) : List (Option (List Path)) :=
  [Kind.certificate, Kind.routingRuleSet].flatMap fun kind =>
    (childNames (root ++ [kind.text]) t).map (staleOf d root desired t kind)

/-- The removals of `cleanupManagedAssets`, up to an entry that is not the directory of an id. -/
def stalePaths (t : Tree) : List Path :=
  ((staleEntries d root desired t).takeWhile Option.isSome).flatMap fun entry => entry.getD []

/-- `cleanupManagedAssets`: the tree, the recorded assets, and whether it succeeded. The record is
written if `save`, and after `prunes` removals one fails. -/
def cleanupManagedAssets (save : Bool) (prunes : Nat) (recorded : Option (List Reference))
    (references : List Reference) (t : Tree) : Tree × Option (List Reference) × Bool :=
  if validateManagedAssetReferences references = false ∨
    missingAssets d root references t ≠ [] then (t, recorded, false)
  else
    match recorded with
    | none => (t, none, false)
    | some known =>
      if managedAssetStateMatches known references = false ∧ save = false then (t, recorded, false)
      else
        let stale := stalePaths d root references t
        ((stale.take prunes).foldl (fun t p => t.removeAll p) t,
          some (if managedAssetStateMatches known references then known else references),
          stale.length ≤ prunes && (staleEntries d root references t).all Option.isSome)

end Store

/-! ## Paths -/

section Paths

variable {d : Digest} {root root' : Path} {r r' : Reference} {name name' : String}

theorem Kind.text_injective : Function.Injective Kind.text := by
  intro k k' h
  cases k <;> cases k' <;> first | rfl | exact absurd h (by decide)

theorem asset_path_inj
    (h : managedAssetDir d root r ++ [name] = managedAssetDir d root' r' ++ [name']) :
    root = root' ∧ r = r' ∧ name = name' := by
  obtain ⟨hdir, hname⟩ := List.append_inj' h rfl
  obtain ⟨hroot, hparts⟩ := List.append_inj' hdir rfl
  simp only [List.cons.injEq, and_true] at hparts hname
  obtain ⟨hkind, hid, hrevision⟩ := hparts
  refine ⟨hroot, ?_, hname⟩
  have hkind := Kind.text_injective hkind
  have hid := Texts.toString_inj hid
  have hrevision := d.dirName_injective hrevision
  cases r
  cases r'
  simp_all

theorem parseId_toString {id : Nat} (hpos : 0 < id) (hmax : id ≤ 9223372036854775807) :
    parseId (toString id) = some id := by
  have hdigit : ∀ c ∈ Nat.toDigits 10 id, c.isDigit = true := fun c hc =>
      Texts.isDigit_of_mem_toDigits hc
  have hplain : (match Nat.toDigits 10 id with | '+' :: rest => rest | rest => rest)
      = Nat.toDigits 10 id := by
    split
    · next rest hplus =>
      rw [hplus] at hdigit
      exact absurd (hdigit '+' List.mem_cons_self) (by decide)
    · rfl
  unfold parseId
  simp only [Texts.toList_toString, hplain, Nat.ofDigitChars_ten_toDigits]
  rw [if_pos ⟨Nat.toDigits_ne_nil, List.all_eq_true.mpr hdigit, hpos, hmax⟩]

theorem find_of_mem {references : List Reference}
    (hvalid : validateManagedAssetReferences references = true)
    (hr : r ∈ references) : (references.find? fun x => x.kind = r.kind && x.id = r.id)
      = some r := by
  unfold validateManagedAssetReferences at hvalid
  rw [Bool.and_eq_true, decide_eq_true_eq] at hvalid
  cases hfind : references.find? fun x => x.kind = r.kind && x.id = r.id with
  | none =>
    have hnone := List.find?_eq_none.mp hfind r hr
    simp at hnone
  | some x =>
    have hkey : x.key = r.key := by
      have hx := List.find?_some hfind
      simp only [Bool.and_eq_true, decide_eq_true_eq] at hx
      exact Prod.ext hx.1 hx.2
    exact congrArg some (List.inj_on_of_nodup_map hvalid.2
      (List.mem_of_find?_eq_some hfind) hr hkey)

theorem pos_of_mem {references : List Reference}
    (hvalid : validateManagedAssetReferences references = true)
    (hr : r ∈ references) : 0 < r.id := by
  unfold validateManagedAssetReferences at hvalid
  rw [Bool.and_eq_true, List.all_eq_true] at hvalid
  have hpos := hvalid.1 r hr
  rw [Bool.and_eq_true, decide_eq_true_eq] at hpos
  exact hpos.1

end Paths

/-! ## What a named path holds -/

section Held

variable (d : Digest)

/-- The files that a named path needs are there, with the content of the revision. -/
def Present (t : Tree) (e : Named) : Prop :=
  match e.reference.kind with
  | .certificate =>
    e.name ∈ managedAssetFileNames .certificate ∧
      ∃ fullchain privateKey, t.lookup (managedAssetDir d e.root e.reference ++ ["fullchain.pem"])
        = some (.file fullchain) ∧
        t.lookup (managedAssetDir d e.root e.reference ++ ["privkey.pem"])
          = some (.file privateKey) ∧
        managedCertificateRevision d fullchain privateKey = e.reference.revision
  | .routingRuleSet => ∃ content, t.lookup (e.path d) = some (.file content) ∧
      d.content content = e.reference.revision

/-- What is kept: a named certificate is one that is not fetched again. Were it fetched, a write
that fails between the two files would leave a chain and a key of different revisions. -/
def Held (t : Tree) (e : Named) : Prop :=
  match e.reference.kind with
  | .certificate => e.name ∈ managedAssetFileNames .certificate ∧
      managedAssetFilesReady d e.root t e.reference = true
  | .routingRuleSet => Present d t e

end Held

section Kept

variable {d : Digest} {root : Path} {t t' : Tree} {r : Reference} {e : Named}

theorem ready_certificate (hkind : r.kind = .certificate) :
    managedAssetFilesReady d root t r = true ↔
      ∃ fullchain privateKey, t.lookup (managedAssetDir d root r ++ ["fullchain.pem"])
        = some (.file fullchain) ∧
        t.lookup (managedAssetDir d root r ++ ["privkey.pem"]) = some (.file privateKey) ∧
        sized .certificate fullchain = true ∧ sized .certificate privateKey = true ∧
        managedCertificateRevision d fullchain privateKey = r.revision := by
  unfold managedAssetFilesReady
  rw [hkind]
  dsimp only
  constructor
  · intro hready
    split at hready
    · next fullchain privateKey hfullchain hprivateKey =>
      simp only [Bool.and_eq_true, decide_eq_true_eq] at hready
      exact ⟨fullchain, privateKey, hfullchain, hprivateKey, hready.1.1, hready.1.2, hready.2⟩
    · cases hready
  · rintro ⟨fullchain, privateKey, hfullchain, hprivateKey, hsized, hsized', hrevision⟩
    simp [hfullchain, hprivateKey, hsized, hsized', hrevision]

theorem content_of_ready (hkind : r.kind = .routingRuleSet)
    (hready : managedAssetFilesReady d root t r = true) {name : String}
    (hname : name ∈ managedAssetFileNames .routingRuleSet)
    (hthere : (t.lookup (managedAssetDir d root r ++ [name])).isSome) :
    ∃ content, t.lookup (managedAssetDir d root r ++ [name]) = some (.file content) ∧
      d.content content = r.revision := by
  unfold managedAssetFilesReady at hready
  rw [hkind] at hready
  dsimp only at hready
  simp only [managedAssetFileNames, List.mem_cons, List.not_mem_nil, or_false] at hname
  split at hready
  · next content hjson hsrs =>
    simp only [Bool.and_eq_true, decide_eq_true_eq] at hready
    rcases hname with rfl | rfl
    · exact ⟨content, hjson, hready.2⟩
    · simp [hsrs] at hthere
  · next content hjson hsrs =>
    simp only [Bool.and_eq_true, decide_eq_true_eq] at hready
    rcases hname with rfl | rfl
    · simp [hjson] at hthere
    · exact ⟨content, hsrs, hready.2⟩
  · cases hready

theorem Held.present (h : Held d t e) : Present d t e := by
  unfold Held at h
  unfold Present
  cases hkind : e.reference.kind with
  | certificate =>
    rw [hkind] at h
    obtain ⟨fullchain, privateKey, hfullchain, hprivateKey, -, -, hrevision⟩ :=
      (ready_certificate hkind).mp h.2
    exact ⟨h.1, fullchain, privateKey, hfullchain, hprivateKey, hrevision⟩
  | routingRuleSet =>
    rw [hkind] at h
    unfold Present at h
    rw [hkind] at h
    exact h

theorem held_ruleSet (hkind : e.reference.kind = .routingRuleSet) :
    Held d t e ↔ ∃ content, t.lookup (e.path d) = some (.file content) ∧
      d.content content = e.reference.revision := by
  unfold Held Present
  rw [hkind]

theorem held_certificate (hkind : e.reference.kind = .certificate) :
    Held d t e ↔ e.name ∈ managedAssetFileNames .certificate ∧
      managedAssetFilesReady d e.root t e.reference = true := by
  unfold Held
  rw [hkind]

theorem Held.mono (h : Held d t e)
    (hsame : ∀ name n, t.lookup (managedAssetDir d e.root e.reference ++ [name]) = some n →
    t'.lookup (managedAssetDir d e.root e.reference ++ [name]) = some n) : Held d t' e := by
  cases hkind : e.reference.kind with
  | certificate =>
    rw [held_certificate hkind, ready_certificate hkind] at h ⊢
    obtain ⟨hname, fullchain, privateKey, hfullchain, hprivateKey, hrest⟩ := h
    exact ⟨hname, fullchain, privateKey, hsame _ _ hfullchain, hsame _ _ hprivateKey, hrest⟩
  | routingRuleSet =>
    rw [held_ruleSet hkind] at h ⊢
    obtain ⟨content, hcontent, hrevision⟩ := h
    exact ⟨content, hsame _ _ hcontent, hrevision⟩

end Kept

/-! ## Fetching keeps what is there -/

section Fetched

variable {d : Digest} {root : Path} {t : Tree} {r : Reference}

theorem lookup_writeFiles (files : List (Σ _ : String, Bytes)) (q : Path) :
    (writeFiles d root r files t).lookup q = t.lookup q ∨
      ∃ f ∈ files, q = managedAssetDir d root r ++ [f.1] ∧
        (writeFiles d root r files t).lookup q = some (.file f.2) := by
  induction files generalizing t with
  | nil => exact Or.inl rfl
  | cons f rest ih =>
    have hrec : writeFiles d root r (f :: rest) t =
        writeFiles d root r rest (t.insert (managedAssetDir d root r ++ [f.1]) (.file f.2)) := rfl
    rw [hrec]
    rcases ih (t := t.insert (managedAssetDir d root r ++ [f.1]) (.file f.2)) with
      hkept | ⟨g, hg, hq, hwritten⟩
    · rw [hkept, GoMap.lookup_insert_eq]
      by_cases hq : q = managedAssetDir d root r ++ [f.1]
      · exact Or.inr ⟨f, List.mem_cons_self, hq, if_pos hq⟩
      · exact Or.inl (if_neg hq)
    · exact Or.inr ⟨g, List.mem_cons_of_mem f hg, hq, hwritten⟩

theorem lookup_writeFiles_of_mem {files : List (Σ _ : String, Bytes)} (hnodup : files.NodupKeys)
    {f : Σ _ : String, Bytes}
    (hf : f ∈ files) : (writeFiles d root r files t).lookup (managedAssetDir d root r ++ [f.1])
      = some (.file f.2) := by
  induction files generalizing t with
  | nil => cases hf
  | cons g rest ih =>
    obtain ⟨hfresh, hrest⟩ := List.nodupKeys_cons.mp hnodup
    rcases List.mem_cons.mp hf with rfl | hf
    · -- The other files have other names, so the head is not written over.
      have hafter : (writeFiles d root r rest
          (t.insert (managedAssetDir d root r ++ [f.1]) (.file f.2))).lookup
          (managedAssetDir d root r ++ [f.1]) = _ ∨ _ := lookup_writeFiles rest _
      rcases hafter with hkept | ⟨g, hg, hq, -⟩
      · refine hkept.trans ?_
        rw [GoMap.lookup_insert_eq, if_pos rfl]
      · obtain ⟨-, -, hname⟩ := asset_path_inj hq
        exact absurd (hname ▸ List.mem_keys_of_mem hg) hfresh
    · exact ih hrest hf

variable {files : GoMap String Bytes} {seen : List (Kind × Nat)} {wanted : List Reference}
  {assets : List Asset} {writes : Nat}

theorem accepted_eq_some {a : Asset} :
    accepted d wanted seen a = some files ↔ a.reference ∈ wanted ∧ a.reference.key ∉ seen ∧
      acceptFiles a.reference.kind a.files ∅ = some files ∧
        managedAssetContentMatches d a.reference files = true := by
  unfold accepted
  split_ifs with hwanted
  · rw [Option.filter_eq_some_iff]
    exact ⟨fun h => ⟨hwanted.1, hwanted.2, h⟩, fun h => h.2.2⟩
  · exact ⟨nofun, fun h => absurd ⟨h.1, h.2.1⟩ hwanted⟩

def Fetches (d : Digest) (root : Path) (wanted : List Reference) (seen : List (Kind × Nat))
    (q : Path) (n : Option Node) : Prop :=
  ∃ r files name content, r ∈ wanted ∧ r.key ∉ seen ∧ managedAssetContentMatches d r files = true ∧
    files.lookup name = some content ∧ q = managedAssetDir d root r ++ [name] ∧
      n = some (.file content)

theorem lookup_installLoop (wanted : List Reference) (assets : List Asset)
    (seen : List (Kind × Nat)) (writes : Nat) (q : Path) :
    (installLoop d root wanted assets seen writes t).1.lookup q = t.lookup q ∨
      Fetches d root wanted seen q
        ((installLoop d root wanted assets seen writes t).1.lookup q) := by
  have hfetches : ∀ {seen a files}, accepted d wanted seen a = some files →
      ∀ (l : List (Σ _ : String, Bytes)) (t : Tree),
      l ⊆ files.entries → (writeFiles d root a.reference l t).lookup q = t.lookup q ∨
        Fetches d root wanted seen q ((writeFiles d root a.reference l t).lookup q) := by
    intro seen a files haccepted l t hsub
    obtain ⟨hwanted, hseen, -, hmatches⟩ := accepted_eq_some.mp haccepted
    rcases lookup_writeFiles (t := t) (r := a.reference) l q with hkept | ⟨f, hf, hq, hwritten⟩
    · exact Or.inl hkept
    · exact Or.inr ⟨a.reference, files, f.1, f.2, hwanted, hseen, hmatches,
        AList.mem_lookup_iff.mpr (hsub hf), hq, hwritten⟩
  fun_induction installLoop d root wanted assets seen writes t with
  | case1 => exact Or.inl rfl
  | case2 => exact Or.inl rfl
  | case3 => exact Or.inl rfl
  | case4 a rest seen writes t files haccepted _ _ ih =>
    rcases ih with hkept | ⟨r, files', name, content, hr, hnotSeen, hrest⟩
    · rw [hkept]
      exact hfetches haccepted files.entries t (List.Subset.refl _)
    · exact Or.inr ⟨r, files', name, content, hr, fun h =>
        hnotSeen (List.mem_cons_of_mem _ h), hrest⟩
  | case5 a rest seen writes t files haccepted =>
    exact hfetches haccepted _ t (List.take_subset _ _)

theorem lookup_installLoop_of_seen (hseen : r.key ∈ seen) (name : String) :
    (installLoop d root wanted assets seen writes t).1.lookup (managedAssetDir d root r ++ [name]) =
      t.lookup (managedAssetDir d root r ++ [name]) := by
  rcases lookup_installLoop wanted assets seen writes (managedAssetDir d root r ++ [name])
    with hkept | ⟨r', files, name', content, -, hnotSeen, -, -, hq, -⟩
  · exact hkept
  · obtain ⟨-, rfl, -⟩ := asset_path_inj hq
    exact absurd hseen hnotSeen

theorem installed_of_loop (hok : (installLoop d root wanted assets seen writes t).2 = true)
    {a : Asset} (ha : a ∈ assets) :
    ∃ files, acceptFiles a.reference.kind a.files ∅ = some files ∧
      managedAssetContentMatches d a.reference files = true ∧
      ∀ name content, files.lookup name = some content →
        (installLoop d root wanted assets seen writes t).1.lookup
          (managedAssetDir d root a.reference ++ [name]) =
          some (.file content) := by
  fun_induction installLoop d root wanted assets seen writes t with
  | case1 => cases ha
  | case2 => cases hok
  | case3 => cases hok
  | case4 b rest seen writes t files haccepted _ _ ih =>
    rcases List.mem_cons.mp ha with rfl | ha
    · obtain ⟨-, -, haccept, hmatches⟩ := accepted_eq_some.mp haccepted
      refine ⟨files, haccept, hmatches, fun name content hcontent => ?_⟩
      rw [lookup_installLoop_of_seen List.mem_cons_self]
      exact lookup_writeFiles_of_mem files.nodupKeys (AList.mem_lookup_iff.mp hcontent)
    · exact ih hok ha
  | case5 => cases hok

theorem references_of_loop (hok : (installLoop d root wanted assets seen writes t).2 = true) :
    (∀ a ∈ assets, a.reference ∈ wanted ∧ a.reference.key ∉ seen) ∧
      (assets.map Asset.reference).Nodup := by
  fun_induction installLoop d root wanted assets seen writes t with
  | case1 => exact ⟨nofun, List.nodup_nil⟩
  | case2 => cases hok
  | case3 => cases hok
  | case4 b rest seen writes t files haccepted _ _ ih =>
    obtain ⟨hwanted, hseen, -, -⟩ := accepted_eq_some.mp haccepted
    obtain ⟨hrest, hnodup⟩ := ih hok
    constructor
    · rw [List.forall_mem_cons]
      exact ⟨⟨hwanted, hseen⟩, fun a ha =>
        ⟨(hrest a ha).1, fun h => (hrest a ha).2 (List.mem_cons_of_mem _ h)⟩⟩
    · rw [List.map_cons, List.nodup_cons]
      refine ⟨?_, hnodup⟩
      intro hmem
      obtain ⟨a, ha, heq⟩ := List.mem_map.mp hmem
      exact (hrest a ha).2 (heq ▸ List.mem_cons_self)
  | case5 => cases hok

theorem acceptFiles_spec {kind : Kind} {fs : List AssetFile} {out : GoMap String Bytes}
    (h : acceptFiles kind fs files = some out)
    (hsized : ∀ name content, files.lookup name = some content → sized kind content = true) :
    (∀ name content, out.lookup name = some content → sized kind content = true) ∧
      (∀ name, name ∈ files → name ∈ out) ∧ ∀ f ∈ fs, f.name ∈ out := by
  fun_induction acceptFiles kind fs files with
  | case1 files =>
    cases h
    exact ⟨hsized, fun name hname => hname, nofun⟩
  | case2 f rest files _ content _ hsize ih =>
    have hinsert : ∀ name c, (files.insert f.name content).lookup name = some c →
        sized kind c = true := by
      intro name c hc
      rcases GoMap.lookup_of_insert hc with ⟨rfl, rfl⟩ | hc
      · exact hsize
      · exact hsized name c hc
    obtain ⟨hout, hkept, hrest⟩ := ih h hinsert
    refine ⟨hout, fun name hname => hkept name ((AList.mem_insert _).mpr (Or.inr hname)), ?_⟩
    rw [List.forall_mem_cons]
    exact ⟨hkept f.name ((AList.mem_insert _).mpr (Or.inl rfl)), hrest⟩
  | case3 => cases h
  | case4 => cases h
  | case5 => cases h

theorem unique_of_size_one (hsize : files.size = 1) {name name' : String} {content content' : Bytes}
    (h : files.lookup name = some content) (h' : files.lookup name' = some content') :
    content = content' := by
  obtain ⟨key, hkeys⟩ := List.length_eq_one_iff.mp hsize
  have hname : ∀ {n c}, files.lookup n = some c → n = key := by
    intro n c hn
    have hmem : n ∈ files.keys := AList.mem_keys.mp (GoMap.mem_iff_lookup.mpr ⟨c, hn⟩)
    rw [hkeys] at hmem
    exact List.mem_singleton.mp hmem
  rw [hname h] at h
  rw [hname h', h] at h'
  exact Option.some.inj h'

theorem content_of_matches (hkind : r.kind = .routingRuleSet)
    (hmatches : managedAssetContentMatches d r files = true) {name : String} {content : Bytes}
    (hcontent : files.lookup name = some content) : d.content content = r.revision := by
  unfold managedAssetContentMatches at hmatches
  rw [hkind] at hmatches
  dsimp only at hmatches
  rw [Bool.and_eq_true, decide_eq_true_eq, Option.any_eq_true] at hmatches
  obtain ⟨hsize, found, hfound, hrevision⟩ := hmatches
  obtain ⟨name', hname'⟩ : ∃ name', files.lookup name' = some found := by
    rcases Option.or_eq_some_iff.mp hfound with h | ⟨-, h⟩
    · exact ⟨_, h⟩
    · exact ⟨_, h⟩
  rw [unique_of_size_one hsize hcontent hname']
  exact of_decide_eq_true hrevision

theorem lookup_fetchMissing (response : Option (List Asset)) (writes : Nat)
    (missing : List Reference) (q : Path) :
    (fetchMissing d root response writes missing t).1.lookup q = t.lookup q ∨
      Fetches d root missing [] q ((fetchMissing d root response writes missing t).1.lookup q) := by
  unfold fetchMissing installManagedAssets
  split_ifs
  · exact Or.inl rfl
  · cases response with
    | none => exact Or.inl rfl
    | some assets =>
      dsimp only
      split_ifs
      · exact Or.inl rfl
      · exact lookup_installLoop missing assets [] writes q

/-- **Fetching keeps what is held.** -/
theorem held_fetch {response : Option (List Asset)} {references : List Reference} {e : Named}
    (h : Held d t e) :
    Held d (fetchMissing d root response writes (missingAssets d root references t) t).1 e := by
  have hlookup : ∀ q, (fetchMissing d root response writes
      (missingAssets d root references t) t).1.lookup q = _ ∨ _ :=
    lookup_fetchMissing response writes (missingAssets d root references t)
  cases hkind : e.reference.kind with
  | certificate =>
    apply h.mono
    intro name n hn
    rcases hlookup (managedAssetDir d e.root e.reference ++ [name]) with
      hkept | ⟨r, files, name', content, hr, -, -, -, hq, -⟩
    · exact hkept.trans hn
    · -- A certificate that is ready is not missing.
      obtain ⟨hroot, hreference, -⟩ := asset_path_inj hq
      have hready := ((held_certificate hkind).mp h).2
      have hmissing := (List.mem_filter.mp hr).2
      rw [hroot, hreference] at hready
      simp [hready] at hmissing
  | routingRuleSet =>
    rw [held_ruleSet hkind] at h ⊢
    rcases hlookup (e.path d) with hkept | ⟨r, files, name', content, -, -, hmatches, hcontent,
      hq, hwritten⟩
    · rwa [hkept]
    · obtain ⟨-, hreference, -⟩ := asset_path_inj hq
      rw [hreference] at hkind ⊢
      exact ⟨content, hwritten, content_of_matches hkind hmatches hcontent⟩

theorem answered {response : Option (List Asset)} {missing : List Reference}
    (hok : (fetchMissing d root response writes missing t).2 = true) (hr : r ∈ missing) :
    ∃ assets, response = some assets ∧ fetchMissing d root response writes missing t
      = installLoop d root missing assets [] writes t ∧
      ∃ a ∈ assets, a.reference = r := by
  unfold fetchMissing installManagedAssets at hok ⊢
  rw [if_neg (by rw [List.isEmpty_iff]; exact List.ne_nil_of_mem hr)] at hok ⊢
  cases response with
  | none => simp at hok
  | some assets =>
    dsimp only at hok ⊢
    split_ifs at hok ⊢ with hlength
    obtain ⟨hwanted, hnodup⟩ := references_of_loop hok
    have hsubset : assets.map Asset.reference ⊆ missing := by
      intro r' hr'
      obtain ⟨a, ha, rfl⟩ := List.mem_map.mp hr'
      exact (hwanted a ha).1
    have hperm := (List.Nodup.subperm hnodup hsubset).perm_of_length_le
        (by rw [List.length_map]; omega)
    obtain ⟨a, ha, hreference⟩ := List.mem_map.mp (hperm.mem_iff.mpr hr)
    exact ⟨assets, rfl, rfl, a, ha, hreference⟩

theorem ready_of_fetched {missing : List Reference}
    (hok : (installLoop d root missing assets [] writes t).2 = true) {a : Asset} (ha : a ∈ assets)
    (hkind : a.reference.kind = .certificate) :
    managedAssetFilesReady d root (installLoop d root missing assets [] writes t).1 a.reference
      = true := by
  obtain ⟨files, haccept, hmatches, hthere⟩ := installed_of_loop hok ha
  obtain ⟨hsized, -, -⟩ := acceptFiles_spec haccept (nofun)
  rw [hkind] at hsized
  unfold managedAssetContentMatches at hmatches
  rw [hkind] at hmatches
  dsimp only at hmatches
  split at hmatches
  · next fullchain privateKey hfullchain hprivateKey =>
    rw [Bool.and_eq_true, decide_eq_true_eq, decide_eq_true_eq] at hmatches
    rw [ready_certificate hkind]
    exact ⟨fullchain, privateKey, hthere _ _ hfullchain, hthere _ _ hprivateKey,
      hsized _ _ hfullchain, hsized _ _ hprivateKey,
      hmatches.2⟩
  · cases hmatches

end Fetched

/-! ## A synchronised configuration names what is held -/

section Synced

variable {d : Digest} {root : Path} {t : Tree} {references : List Reference}

def Available (d : Digest) (root : Path) (response : Option (List Asset)) (t : Tree)
    (e : Named) : Prop :=
  if managedAssetFilesReady d root t e.reference then (t.lookup (e.path d)).isSome = true
  else ∃ a ∈ response.getD [], a.reference = e.reference ∧ ∃ f ∈ a.files, f.name = e.name

variable {e : Named} {named : List Named}

theorem resolvePlaceholder_spec {p : Placeholder}
    (h : resolvePlaceholder root references p = some e) :
    e.root = root ∧ e.reference ∈ references ∧ e.name ∈ managedAssetFileNames e.reference.kind := by
  unfold resolvePlaceholder at h
  split at h
  · next kindText id name =>
    obtain ⟨kind, -, hkind⟩ := Option.bind_eq_some_iff.mp h
    split_ifs at hkind with hname
    obtain ⟨r, hfind, rfl⟩ := Option.map_eq_some_iff.mp hkind
    have hr := List.find?_some hfind
    simp only [Bool.and_eq_true, decide_eq_true_eq] at hr
    exact ⟨rfl, List.mem_of_find?_eq_some hfind, hr.1.1 ▸ hname⟩
  · cases h

theorem resolvePlaceholders_spec {ps : List Placeholder}
    (h : resolvePlaceholders root references ps = some named) (he : e ∈ named) :
    ∃ p ∈ ps, resolvePlaceholder root references p = some e := by
  induction ps generalizing named with
  | nil =>
    cases h
    cases he
  | cons p rest ih =>
    obtain ⟨e', he', hrest⟩ := Option.bind_eq_some_iff.mp h
    obtain ⟨es, hes, rfl⟩ := Option.map_eq_some_iff.mp hrest
    rcases List.mem_cons.mp he with rfl | he
    · exact ⟨p, List.mem_cons_self, he'⟩
    · obtain ⟨p', hp', hresolved⟩ := ih hes he
      exact ⟨p', List.mem_cons_of_mem p hp', hresolved⟩

def Delivered (d : Digest) (root : Path) (response : Option (List Asset)) (t : Tree)
    (references : List Reference) (config : Option CoreConfig) : Prop :=
  ∀ named, resolveConfig root references config = some named →
    ∀ e ∈ named, e.reference.kind = .routingRuleSet → Available d root response t e

theorem resolveConfig_spec {config : Option CoreConfig}
    (h : resolveConfig root references config = some named)
    (he : e ∈ named) : e.root = root ∧ e.reference ∈ references ∧
      e.name ∈ managedAssetFileNames e.reference.kind := by
  unfold resolveConfig at h
  cases config with
  | none =>
    dsimp only at h
    split_ifs at h
    cases h
    cases he
  | some config =>
    obtain ⟨ps, -, hps⟩ := Option.bind_eq_some_iff.mp h
    obtain ⟨p, -, hp⟩ := resolvePlaceholders_spec hps he
    exact resolvePlaceholder_spec hp

/-- **What a synchronised configuration names is held.** -/
theorem held_of_resolved {response : Option (List Asset)} {writes : Nat}
    {config : Option CoreConfig}
    (hok : (fetchMissing d root response writes (missingAssets d root references t) t).2 = true)
    (hnamed : resolveConfig root references config = some named)
    (hdelivered : Delivered d root response t references config) (he : e ∈ named) :
    Held d (fetchMissing d root response writes (missingAssets d root references t) t).1 e := by
  obtain ⟨hroot, hreference, hname⟩ := resolveConfig_spec hnamed he
  by_cases hready : managedAssetFilesReady d root t e.reference = true
  · apply held_fetch
    cases hkind : e.reference.kind with
    | certificate => exact (held_certificate hkind).mpr ⟨hkind ▸ hname, hroot.symm ▸ hready⟩
    | routingRuleSet =>
      have havailable := hdelivered named hnamed e he hkind
      unfold Available at havailable
      rw [if_pos hready] at havailable
      unfold Named.path at havailable
      rw [hroot] at havailable
      rw [held_ruleSet hkind]
      unfold Named.path
      rw [hroot]
      exact content_of_ready hkind hready (hkind ▸ hname) havailable
  · have hmissing : e.reference ∈ missingAssets d root references t :=
      List.mem_filter.mpr ⟨hreference, by simpa using hready⟩
    obtain ⟨assets, hresponse, hfetch, a, ha, haReference⟩ := answered hok hmissing
    rw [hfetch] at hok ⊢
    cases hkind : e.reference.kind with
    | certificate =>
      rw [held_certificate hkind, hroot, ← haReference]
      exact ⟨hkind ▸ hname, ready_of_fetched hok ha (haReference ▸ hkind)⟩
    | routingRuleSet =>
      have havailable := hdelivered named hnamed e he hkind
      unfold Available at havailable
      rw [if_neg hready, hresponse] at havailable
      obtain ⟨b, hb, hbReference, f, hf, hfName⟩ := havailable
      obtain ⟨files, haccept, hmatches, hthere⟩ := installed_of_loop hok hb
      obtain ⟨-, -, hfiles⟩ := acceptFiles_spec haccept (nofun)
      obtain ⟨content, hcontent⟩ := GoMap.mem_iff_lookup.mp (hfiles f hf)
      rw [hfName] at hcontent
      rw [hbReference] at hthere hmatches
      rw [held_ruleSet hkind]
      refine ⟨content, ?_, content_of_matches hkind hmatches hcontent⟩
      unfold Named.path
      rw [hroot]
      exact hthere e.name content hcontent

variable {response : Option (List Asset)} {writes : Nat} {recorded : Option (List Reference)}
  {config : Option CoreConfig}

theorem held_sync (h : Held d t e) :
    Held d (syncManagedAssets d root response writes recorded references config t).1 e := by
  unfold syncManagedAssets
  cases recorded with
  | none => exact h
  | some recorded =>
    dsimp only
    split_ifs
    · exact h
    all_goals exact held_fetch h

theorem named_sync {changed : Bool}
    (hsome : (syncManagedAssets d root response writes recorded references config t).2
      = some (named, changed))
    (hdelivered : Delivered d root response t references config) (he : e ∈ named) :
    Held d (syncManagedAssets d root response writes recorded references config t).1 e ∧
      e.root = root ∧ e.reference ∈ references := by
  unfold syncManagedAssets at hsome ⊢
  cases recorded with
  | none => cases hsome
  | some recorded =>
    dsimp only at hsome ⊢
    split_ifs at hsome ⊢ with hinvalid hok
    obtain ⟨named', hresolved, hpair⟩ := Option.map_eq_some_iff.mp hsome
    obtain rfl : named' = named := congrArg Prod.fst hpair
    obtain ⟨hroot, hreference, -⟩ := resolveConfig_spec hresolved he
    exact ⟨held_of_resolved hok hresolved hdelivered he, hroot, hreference⟩

end Synced

/-! ## Pruning keeps what is wanted -/

section Pruned

variable {d : Digest} {root : Path} {t : Tree} {references : List Reference}

theorem mem_stalePaths {p : Path} (hp : p ∈ stalePaths d root references t) :
    ∃ (kind : Kind) (name : String) (id : Nat), parseId name = some id ∧
      (((references.find? fun r => r.kind = kind && r.id = id) = none ∧
        p = root ++ [kind.text, name]) ∨
        ∃ r revision, (references.find? fun r => r.kind = kind && r.id = id) = some r ∧
          revision ≠ d.dirName r.revision ∧
          p = root ++ [kind.text, name, revision]) := by
  obtain ⟨entry, hentry, hmem⟩ := List.mem_flatMap.mp hp
  obtain ⟨kind, -, hchild⟩ := List.mem_flatMap.mp (List.takeWhile_subset _ hentry)
  obtain ⟨name, -, rfl⟩ := List.mem_map.mp hchild
  unfold staleOf at hmem
  cases hid : parseId name with
  | none => simp [hid] at hmem
  | some id =>
    refine ⟨kind, name, id, hid, ?_⟩
    simp only [hid, Option.bind_some] at hmem
    split at hmem
    · next hnone =>
      exact Or.inl ⟨hnone, List.mem_singleton.mp hmem⟩
    · next r hsome =>
      split_ifs at hmem
      · rw [Option.getD_some] at hmem
        obtain ⟨revision, hrevision, rfl⟩ := List.mem_map.mp hmem
        exact Or.inr ⟨r, revision, hsome, of_decide_eq_true (List.mem_filter.mp hrevision).2, rfl⟩
      · cases hmem

theorem not_stale_above (hvalid : validateManagedAssetReferences references = true) {r : Reference}
    (hr : r ∈ references) {name : String} {p : Path} (hp : p ∈ stalePaths d root references t) :
    ¬p <+: managedAssetDir d root r ++ [name] := by
  intro habove
  have hpath : managedAssetDir d root r ++ [name]
      = root ++ [r.kind.text, toString r.id, d.dirName r.revision, name] := by
    simp [managedAssetDir]
  rw [hpath] at habove
  have hparse := parseId_toString (pos_of_mem hvalid hr) r.int64
  obtain ⟨kind, idName, id, hid, ⟨hnone, rfl⟩ | ⟨r', revision, hsome, hrevision, rfl⟩⟩ :=
    mem_stalePaths hp
  · rw [List.prefix_append_right_inj] at habove
    simp only [List.cons_prefix_cons, List.nil_prefix, and_true] at habove
    obtain ⟨hkind, rfl⟩ := habove
    rw [hparse] at hid
    rw [Kind.text_injective hkind, ← Option.some.inj hid, find_of_mem hvalid hr] at hnone
    cases hnone
  · rw [List.prefix_append_right_inj] at habove
    simp only [List.cons_prefix_cons, List.nil_prefix, and_true] at habove
    obtain ⟨hkind, rfl, rfl⟩ := habove
    rw [hparse] at hid
    rw [Kind.text_injective hkind, ← Option.some.inj hid, find_of_mem hvalid hr] at hsome
    exact hrevision (by rw [Option.some.inj hsome])

theorem not_stale_outside {dir : Path} (houtside : ¬root <+: dir) {name : String} {p : Path}
    (hp : p ∈ stalePaths d root references t) : ¬p <+: dir ++ [name] := by
  intro habove
  have hbelow : ∃ kind next rest, p = root ++ kind :: next :: rest := by
    obtain ⟨kind, idName, id, -, ⟨-, rfl⟩ | ⟨r', revision, -, -, rfl⟩⟩ := mem_stalePaths hp
    · exact ⟨_, _, [], rfl⟩
    · exact ⟨_, _, [revision], rfl⟩
  obtain ⟨kind, next, rest, rfl⟩ := hbelow
  have hlength := habove.length_le
  simp only [List.length_append, List.length_cons, List.length_nil] at hlength
  exact houtside (List.prefix_of_prefix_length_le ((List.prefix_append root _).trans habove)
    (List.prefix_append dir [name])
    (by omega))

theorem lookup_foldl_removeAll {l : List Path} {q : Path} (h : ∀ p ∈ l, ¬p <+: q) :
    (l.foldl (fun t p => t.removeAll p) t).lookup q = t.lookup q := by
  induction l generalizing t with
  | nil => rfl
  | cons p rest ih =>
    rw [List.foldl_cons, ih fun p' hp' => h p' (List.mem_cons_of_mem p hp'), Tree.lookup_removeAll,
      if_neg (h p List.mem_cons_self)]

def Spared (d : Digest) (root : Path) (references : List Reference) (e : Named) : Prop :=
  (e.root = root ∧ e.reference ∈ references) ∨ ¬root <+: managedAssetDir d e.root e.reference

/-- **Pruning keeps what is held and spared.** -/
theorem held_cleanup {save : Bool} {prunes : Nat} {recorded : Option (List Reference)} {e : Named}
    (h : Held d t e) (hspared : Spared d root references e) :
    Held d (cleanupManagedAssets d root save prunes recorded references t).1 e := by
  unfold cleanupManagedAssets
  split_ifs with hinvalid
  · exact h
  · cases recorded with
    | none => exact h
    | some known =>
      dsimp only
      split_ifs
      · exact h
      all_goals
        apply h.mono
        intro name n hn
        refine (lookup_foldl_removeAll fun p hp => ?_).trans hn
        rcases hspared with ⟨hroot, hreference⟩ | houtside
        · rw [hroot]
          exact not_stale_above (by simpa using (not_or.mp hinvalid).1) hreference
            (List.mem_of_mem_take hp)
        · exact not_stale_outside houtside (List.mem_of_mem_take hp)

end Pruned

end OboardAgent.Deploy
