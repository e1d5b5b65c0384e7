import Mathlib.Data.List.Pairwise
import Mathlib.Tactic.SplitIfs
import OboardAgent.Lib.Inodes

/-!
# Installing a verified release

The release files are copied beside their targets, the old files are kept beside them, and then each
copy takes the place of its target (`internal/agent/self_update.go`). An old file is kept by a hard
link, or where there are none by renaming it; a later failure renames it back. The proof of the
release is recorded first and put back after a failure
(`internal/agent/runtime_security_integrity.go`).

Two ways out of the staging leave files behind: a directory that cannot be made ends it without the
cleaning, and an empty file that reserves a backup name stays if it cannot be removed.

The names beside a target are a kind of their own (`Sidecar`): no release file and no target has
one. The number in a name is chosen at random for each. The undoing renames and removals succeed.
-/

namespace OboardAgent.Release

open Inodes (File Store)

/-! ## Names -/

structure FilePath where
  dir : String
  name : String
  deriving DecidableEq, Repr

inductive Kind
  | new
  | backup
  deriving DecidableEq, Repr

/-- A file beside a target: `<staging>-new.<suffix>` or `<staging>-backup.<suffix>`. -/
structure Sidecar where
  dir : String
  staging : String
  kind : Kind
  suffix : String
  deriving DecidableEq, Repr

inductive Path
  | file (p : FilePath)
  | sidecar (p : Sidecar)
  deriving DecidableEq, Repr

theorem Path.file_ne_sidecar (p : FilePath) (q : Sidecar) : Path.file p ≠ .sidecar q := nofun

/-! ## What can fail -/

inductive Step
  | mkdir
  | copy
  | stat
  | reserve
  | unreserve
  | retire
  | replace
  deriving DecidableEq, Repr

inductive Fault
  | readProof
  | recordProof
  | item (i : Nat) (step : Step)
  deriving DecidableEq, Repr

structure Env where
  windows : Bool
  /-- Whether the file system of the target has hard links. -/
  links : Nat → Bool
  suffix : Nat → Kind → String
  fault : Option Fault

def Env.fails (env : Env) (i : Nat) (step : Step) : Bool := env.fault = some (.item i step)

theorem Env.fails_iff {env : Env} {i : Nat} {step : Step} :
    env.fails i step = true ↔ env.fault = some (.item i step) :=
  decide_eq_true_iff

/-! ## The items -/

structure StagedReleaseFile where
  source : FilePath
  target : FilePath
  stage : Option Sidecar
  backup : Option Sidecar
  hadOld : Bool
  linked : Bool
  deriving DecidableEq, Repr

def StagedReleaseFile.of (source target : FilePath) :
    StagedReleaseFile := ⟨source, target, none, none, false, false⟩

section Install

variable (env : Env) (staging : String)

variable (i : Nat) (items : List StagedReleaseFile) (s : Store Path) (item : StagedReleaseFile)

def sidecar (kind : Kind) : Sidecar :=
  ⟨item.target.dir, staging, kind, env.suffix i kind⟩

/-! ## The code -/

def removeStaleReleaseSidecars (dir : String) (s : Store Path) : Store Path :=
  if dir = "" ∨ dir = "." then s
  else
    { s with
      files := fun p =>
        match p with
        | .file _ => s.files p
        | .sidecar q => if q.dir = dir ∧ (q.staging = staging ∨ q.staging = ".oboard-update")
            then none else s.files p }

def cleanDirectories : List String → List StagedReleaseFile → Store Path → Store Path
  | _, [], s => s
  | cleaned, item :: items, s =>
    if item.target.dir ∈ cleaned then cleanDirectories cleaned items s
    else cleanDirectories (item.target.dir :: cleaned) items
      (removeStaleReleaseSidecars staging item.target.dir s)

/-- A copy that fails is removed by the deferred function. -/
def copyReleaseFileBeside (s : Store Path) : Option (Sidecar × Store Path) :=
  match s.files (.file item.source) with
  | none => none
  | some f =>
    if env.fails i .copy then none
    else some (sidecar env staging i item .new,
      s.create (.sidecar (sidecar env staging i item .new)) f.data)

def reservedTempPath (s : Store Path) : Except Step Sidecar × Store Path :=
  let name := sidecar env staging i item .backup
  if env.fails i .reserve then (.error .reserve, s)
  else if env.fails i .unreserve then (.error .unreserve, s.create (.sidecar name) [])
  else (.ok name, (s.create (.sidecar name) []).remove (.sidecar name))

def linkOld (backup : Sidecar) (s : Store Path) : Option (Store Path) :=
  if env.windows || !env.links i then none else s.link (.file item.target) (.sidecar backup)

def preserveExistingReleaseFile (s : Store Path) : Except Step StagedReleaseFile × Store Path :=
  if env.fails i .stat then (.error .stat, s)
  else
    match s.files (.file item.target) with
    | none => (.ok item, s)
    | some _ =>
      match reservedTempPath env staging i item s with
      | (.error step, s) => (.error step, s)
      | (.ok backup, s) =>
        match linkOld env i item backup s with
        | some s => (.ok { item with backup := some backup, hadOld := true, linked := true }, s)
        | none => (.ok { item with backup := some backup, hadOld := true }, s)

def removeListed : Option Sidecar → Store Path
  | none => s
  | some p => s.remove (.sidecar p)

def cleanupStagedReleaseFiles : Store Path :=
  items.foldl (fun s item => removeListed (removeListed s item.stage) item.backup) s

/-- The second loop of the installation; `done` are the items that are staged. -/
def stageAll : Nat → List StagedReleaseFile → List StagedReleaseFile → Store Path →
    Except (Nat × Step) (List StagedReleaseFile) × Store Path
  | _, done, [], s => (.ok done, s)
  | i, done, item :: items, s =>
    -- This way out does not clean.
    if env.fails i .mkdir then (.error (i, .mkdir), s)
    else
      match copyReleaseFileBeside env staging i item s with
      | none => (.error (i, .copy), cleanupStagedReleaseFiles (done ++ item :: items) s)
      | some (stage, s) =>
        let item := { item with stage := some stage }
        match preserveExistingReleaseFile env staging i item s with
        | (.error step, s) =>
          (.error (i, step), cleanupStagedReleaseFiles (done ++ item :: items) s)
        | (.ok item, s) => stageAll (i + 1) (done ++ [item]) items s

def renameToTarget (from_ : Option Sidecar) (s : Store Path) : Option (Store Path) :=
  from_.bind fun p => s.rename (.sidecar p) (.file item.target)

def retireOld (s : Store Path) : Option (Store Path) :=
  if item.hadOld && !item.linked then
    if env.fails i .retire then none else item.backup.bind fun b =>
      s.rename (.file item.target) (.sidecar b)
  else some s

def commitStagedReleaseFile (s : Store Path) : Except Step StagedReleaseFile × Store Path :=
  match retireOld env i item s with
  | none => (.error .retire, s)
  | some s =>
    match if env.fails i .replace then none else renameToTarget item item.stage s with
    | some s => (.ok { item with stage := none }, s)
    | none =>
      (.error .replace, if item.hadOld && !item.linked then
        (renameToTarget item item.backup s).getD s else s)

def restoreStagedReleaseFile : Store Path :=
  if item.hadOld then (renameToTarget item item.backup s).getD s else s.remove (.file item.target)

def restoreStagedReleaseFiles : Store Path :=
  items.foldl restoreStagedReleaseFile s

/-- `commitStagedReleaseFiles`; `done` are the items that are committed. The items are given back as
they are then. -/
def commitAll : Nat → List StagedReleaseFile → List StagedReleaseFile → Store Path →
    Option (Nat × Step) × List StagedReleaseFile × Store Path
  | _, done, [], s => (none, done, s)
  | i, done, item :: items, s =>
    match commitStagedReleaseFile env i item s with
    | (.error step, s) => (some (i, step), done ++ item :: items, restoreStagedReleaseFiles done s)
    | (.ok item, s) => commitAll (i + 1) (done ++ [item]) items s

def installVerifiedReleaseFiles : Option (Nat × Step) × Store Path :=
  match stageAll env staging 0 [] items (cleanDirectories staging [] items s) with
  | (.error e, s) => (some e, s)
  | (.ok items, s) =>
    match commitAll env 0 [] items s with
    | (outcome, items, s) => (outcome, cleanupStagedReleaseFiles items s)

/-- The files of a node, and the recorded proof of its release as the state reader gives it. -/
structure Node where
  files : Store Path
  proof : Option (List UInt8)

inductive InstallError
  | evidenceUnavailable
  | recordFailed
  | failed (i : Nat) (step : Step)
  deriving DecidableEq, Repr

def restoreProof (old : Option (List UInt8)) (n : Node) : Node :=
  match old with
  | none => { n with proof := none }
  | some raw => { n with proof := some raw }

/-- `installVerifiedReleaseWithProof`, for a proof that passes its checks. -/
def installVerifiedReleaseWithProof (proof : List UInt8) (n : Node) : Option InstallError × Node :=
  if env.fault = some .readProof then (some .evidenceUnavailable, n)
  else if env.fault = some .recordProof then (some .recordFailed, n)
  else
    match installVerifiedReleaseFiles env staging items n.files with
    | (none, files) => (none, ⟨files, some proof⟩)
    | (some (i, step), files) => (some (.failed i step), restoreProof n.proof ⟨files, some proof⟩)

end Install

/-! ## What is kept beside the targets -/

section Proofs

variable {env : Env} {staging : String} {before s t : Store Path}
  {items done todo : List StagedReleaseFile}
  {item it : StagedReleaseFile}

/-- The sidecars that an item knows, and that the cleaning removes. -/
def StagedReleaseFile.Lists (item : StagedReleaseFile) (q : Sidecar) :
    Prop := item.stage = some q ∨ item.backup = some q

theorem StagedReleaseFile.Lists.of_unstaged {q : Sidecar}
    (h : { item with stage := none }.Lists q) : item.Lists q := by
  rcases h with hq | hq
  · exact nomatch hq
  · exact .inr hq

/-- Two items share neither the target nor a sidecar. -/
def Apart (a b : StagedReleaseFile) : Prop := a.target ≠ b.target ∧ ∀ q, a.Lists q → ¬b.Lists q

theorem sidecar_ne (env : Env) (staging : String) (i : Nat) (item : StagedReleaseFile) :
    Path.sidecar (sidecar env staging i item .new)
      ≠ .sidecar (sidecar env staging i item .backup) := by
  intro heq
  exact nomatch congrArg Sidecar.kind (Path.sidecar.inj heq)

theorem Apart.symm {a b : StagedReleaseFile} (h : Apart a b) : Apart b a :=
  ⟨h.1.symm, fun q hb ha => h.2 q ha hb⟩

theorem Apart.unstaged {a b : StagedReleaseFile} (h : Apart a b) :
    Apart a { b with stage := none } :=
  ⟨h.1, fun q ha hb => h.2 q ha hb.of_unstaged⟩

theorem removeListed_of_ne {l : Option Sidecar} {p : Path} (h : ∀ q, l = some q → p ≠ .sidecar q) :
    (removeListed s l).files p = s.files p := by
  cases l with
  | none => rfl
  | some q => exact Store.remove_of_ne (h q rfl)

theorem removeListed_none {l : Option Sidecar} {p : Path}
    (h : s.files p = none ∨ ∃ q, l = some q ∧ p = .sidecar q) :
    (removeListed s l).files p = none := by
  cases l with
  | none => exact h.resolve_right fun ⟨q, hq, _⟩ => nomatch hq
  | some q =>
    by_cases hp : p = .sidecar q
    · rw [hp]
      exact Store.remove_self _ _
    · rw [removeListed, Store.remove_of_ne hp]
      exact h.resolve_right fun ⟨r, hr, hpr⟩ => hp (hpr.trans (by rw [Option.some.inj hr]))

theorem cleanup_cons : cleanupStagedReleaseFiles (it :: items) s =
    cleanupStagedReleaseFiles items (removeListed (removeListed s it.stage) it.backup) := rfl

theorem cleanup_of_unlisted {p : Path} (h : ∀ it ∈ items, ∀ q, it.Lists q → p ≠ .sidecar q) :
    (cleanupStagedReleaseFiles items s).files p = s.files p := by
  induction items generalizing s with
  | nil => rfl
  | cons it items ih =>
    have hit := h it List.mem_cons_self
    rw [cleanup_cons, ih fun it' hmem => h it' (List.mem_cons_of_mem _ hmem), removeListed_of_ne
      fun q hq => hit q (.inr hq), removeListed_of_ne fun q hq => hit q (.inl hq)]

theorem cleanup_of_none {p : Path} (h : s.files p = none) :
    (cleanupStagedReleaseFiles items s).files p = none := by
  induction items generalizing s with
  | nil => exact h
  | cons it items ih => exact ih (removeListed_none (.inl (removeListed_none (.inl h))))

theorem cleanup_of_listed (hit : it ∈ items) {q : Sidecar} (hq : it.Lists q) :
    (cleanupStagedReleaseFiles items s).files (.sidecar q) = none := by
  induction items generalizing s with
  | nil => exact nomatch hit
  | cons it' items ih =>
    rw [cleanup_cons]
    rcases List.mem_cons.mp hit with rfl | hmem
    · refine cleanup_of_none ?_
      rcases hq with hstage | hbackup
      · exact removeListed_none (.inl (removeListed_none (.inr ⟨q, hstage, rfl⟩)))
      · exact removeListed_none (.inr ⟨q, hbackup, rfl⟩)
    · exact ih hmem

/-! ## Where an installation stands -/

/-- A target that has its new file, and the old one at hand. -/
structure Installed (before : Store Path) (item : StagedReleaseFile) (s : Store Path) : Prop where
  new : ∃ f src, s.files (.file item.target) = some f ∧
    before.files (.file item.source) = some src ∧ f.data = src.data ∧
    before.next ≤ f.inode
  old : item.hadOld = true → (before.files (.file item.target)).isSome ∧
    ∃ b, item.backup = some b ∧ s.files (.sidecar b) = before.files (.file item.target)
  absent : item.hadOld = false → before.files (.file item.target) = none

structure Ready (before : Store Path) (item : StagedReleaseFile) (s : Store Path) : Prop where
  staged : ∃ q f src, item.stage = some q ∧ s.files (.sidecar q) = some f ∧
    before.files (.file item.source) = some src ∧
    f.data = src.data ∧ before.next ≤ f.inode
  distinct : ∀ q, item.stage = some q → item.backup ≠ some q
  old : item.hadOld = true → (before.files (.file item.target)).isSome ∧
    ∃ b, item.backup = some b ∧ s.files (.sidecar b) = if item.linked then before.files
      (.file item.target) else none
  absent : item.hadOld = false → before.files (.file item.target) = none ∧ item.backup = none

/-- Of the files, only the targets of `done` and the sidecars that `items` list differ from
before. -/
structure Changed (before : Store Path) (items done : List StagedReleaseFile)
    (s : Store Path) : Prop where
  frame : ∀ p, (∀ it ∈ done, p ≠ .file it.target) →
    (∀ it ∈ items, ∀ q, it.Lists q → p ≠ .sidecar q) →
    s.files p = before.files p
  fresh : ∀ it ∈ items, ∀ q, it.Lists q → before.files (.sidecar q) = none
  installed : ∀ it ∈ done, Installed before it s

theorem Installed.congr (h : Installed before it s)
    (htarget : t.files (.file it.target) = s.files (.file it.target))
    (hlisted : ∀ q, it.Lists q → t.files (.sidecar q) = s.files (.sidecar q)) :
    Installed before it t := by
  refine ⟨?_, ?_, h.absent⟩
  · rw [htarget]
    exact h.new
  · intro hold
    obtain ⟨hsome, b, hb, hfiles⟩ := h.old hold
    exact ⟨hsome, b, hb, (hlisted b (.inr hb)).trans hfiles⟩

theorem Ready.congr (h : Ready before it s)
    (hlisted : ∀ q, it.Lists q → t.files (.sidecar q) = s.files (.sidecar q)) :
    Ready before it t := by
  refine ⟨?_, h.distinct, ?_, h.absent⟩
  · obtain ⟨q, f, src, hq, hf, hrest⟩ := h.staged
    exact ⟨q, f, src, hq, (hlisted q (.inl hq)).trans hf, hrest⟩
  · intro hold
    obtain ⟨hsome, b, hb, hfiles⟩ := h.old hold
    exact ⟨hsome, b, hb, (hlisted b (.inr hb)).trans hfiles⟩

theorem Changed.congr (h : Changed before items done s) (hfiles : t.files = s.files) :
    Changed before items done t := by
  refine ⟨?_, h.fresh, ?_⟩
  · rw [hfiles]
    exact h.frame
  · intro it hit
    exact (h.installed it hit).congr (by rw [hfiles]) fun q _ => by rw [hfiles]

theorem Changed.file (h : Changed before items done s) {p : FilePath}
    (hp : ∀ it ∈ done, p ≠ it.target) : s.files (.file p) = before.files (.file p) :=
  h.frame _ (fun it hit heq => hp it hit (Path.file.inj heq)) nofun

theorem Changed.extend {extra : List StagedReleaseFile} (h : Changed before done [] s)
    (hsame : ∀ p, (∀ it ∈ extra, ∀ q, it.Lists q → p ≠ .sidecar q) → t.files p = s.files p)
    (hfresh : ∀ it ∈ extra, ∀ q, it.Lists q → before.files (.sidecar q) = none) :
    Changed before (done ++ extra) [] t := by
  refine ⟨?_, ?_, nofun⟩
  · intro p _ hun
    rw [hsame p fun it hit => hun it (List.mem_append_right _ hit)]
    exact h.frame p nofun fun it hit => hun it (List.mem_append_left _ hit)
  · exact List.forall_mem_append.mpr ⟨h.fresh, hfresh⟩

theorem Changed.cleanup (h : Changed before items [] s) :
    (cleanupStagedReleaseFiles items s).files = before.files := by
  funext p
  by_cases hlisted : ∃ it ∈ items, ∃ q, it.Lists q ∧ p = .sidecar q
  · obtain ⟨it, hit, q, hq, rfl⟩ := hlisted
    rw [cleanup_of_listed hit hq, h.fresh it hit q hq]
  · have hun : ∀ it ∈ items, ∀ q, it.Lists q → p ≠ .sidecar q := fun it hit q hq hp =>
        hlisted ⟨it, hit, q, hq, hp⟩
    rw [cleanup_of_unlisted hun]
    exact h.frame p nofun hun

/-! ## Staging -/

structure Preserved (item item' : StagedReleaseFile) (name : Sidecar)
    (s s' : Store Path) : Prop where
  source : item'.source = item.source
  target : item'.target = item.target
  stage : item'.stage = item.stage
  frame : ∀ p, p ≠ .sidecar name → s'.files p = s.files p
  next : s.next ≤ s'.next
  old : (item'.hadOld = false ∧ item'.backup = none ∧ s.files (.file item.target) = none ∧
      s'.files (.sidecar name) = s.files (.sidecar name)) ∨
    (item'.hadOld = true ∧ item'.backup = some name ∧ (s.files (.file item.target)).isSome ∧
      s'.files (.sidecar name) = if item'.linked then s.files (.file item.target) else none)

theorem linkOld_some {i : Nat} {name : Sidecar} (h : linkOld env i item name s = some t) :
    ∃ f, s.files (.file item.target) = some f ∧ t = s.set (.sidecar name) (some f) := by
  unfold linkOld at h
  split_ifs at h
  exact Store.link_some h

theorem reserve_frees {name : Sidecar} (hfree : s.files (.sidecar name) = none) (p : Path) :
    ((s.create (.sidecar name) []).remove (.sidecar name)).files p = s.files p := by
  by_cases hp : p = .sidecar name
  · rw [hp, Store.remove_self, hfree]
  · rw [Store.remove_of_ne hp, Store.create_of_ne hp]

theorem reservedTempPath_cases (env : Env) (staging : String) (i : Nat) (item : StagedReleaseFile)
    (s : Store Path) :
    (env.fails i .reserve = true ∧ reservedTempPath env staging i item s = (.error .reserve, s)) ∨
    (env.fails i .unreserve = true ∧ reservedTempPath env staging i item s =
      (.error .unreserve, s.create (.sidecar (sidecar env staging i item .backup)) [])) ∨
    (env.fails i .unreserve = false ∧ reservedTempPath env staging i item s =
      (.ok (sidecar env staging i item .backup),
        (s.create (.sidecar (sidecar env staging i item .backup)) []).remove
          (.sidecar (sidecar env staging i item .backup)))) := by
  unfold reservedTempPath
  split_ifs with hreserve hunreserve
  · exact .inl ⟨hreserve, rfl⟩
  · exact .inr (.inl ⟨hunreserve, rfl⟩)
  · exact .inr (.inr ⟨Bool.eq_false_iff.mpr hunreserve, rfl⟩)

theorem preserve_cases {i : Nat}
    (hblank : item.hadOld = false ∧ item.backup = none ∧ item.linked = false)
    (hfree : s.files (.sidecar (sidecar env staging i item .backup)) = none) :
    (∃ item' t, preserveExistingReleaseFile env staging i item s = (.ok item', t) ∧
      Preserved item item' (sidecar env staging i item .backup) s t ∧
      (env.fails i .unreserve = true → s.files (.file item.target) = none)) ∨
    (∃ step, env.fails i step = true ∧ step ≠ .mkdir ∧ step ≠ .unreserve ∧
      preserveExistingReleaseFile env staging i item s = (.error step, s)) ∨
    (env.fails i .unreserve = true ∧ s.files (.file item.target) ≠ none ∧
      preserveExistingReleaseFile env staging i item s =
      (.error .unreserve, s.create (.sidecar (sidecar env staging i item .backup)) [])) := by
  unfold preserveExistingReleaseFile
  by_cases hstat : env.fails i .stat = true
  · exact .inr (.inl ⟨.stat, hstat, by decide, by decide, by rw [if_pos hstat]⟩)
  rw [if_neg hstat]
  cases htarget : s.files (.file item.target) with
  | none =>
    refine .inl ⟨item, s, rfl, ⟨rfl, rfl, rfl, fun _ _ => rfl, Nat.le_refl _, ?_⟩, fun _ => rfl⟩
    exact .inl ⟨hblank.1, hblank.2.1, htarget, rfl⟩
  | some old =>
    dsimp only
    rcases reservedTempPath_cases env staging i item s with
      ⟨hfails, hrun⟩ | ⟨hfails, hrun⟩ | ⟨hfails, hrun⟩
    · exact .inr (.inl ⟨.reserve, hfails, by decide, by decide, by rw [hrun]⟩)
    · exact .inr (.inr ⟨hfails, nofun, by rw [hrun]⟩)
    · left
      rw [hrun]
      dsimp only
      have hsome : (s.files (.file item.target)).isSome := by rw [htarget]; rfl
      have habsurd : env.fails i .unreserve = true → some old = none := fun h =>
          nomatch hfails.symm.trans h
      split
      · -- kept by a link
        rename_i linked hlink
        obtain ⟨f, hf, rfl⟩ := linkOld_some hlink
        rw [reserve_frees hfree] at hf
        refine ⟨_, _, rfl, ⟨rfl, rfl, rfl, ?_, Nat.le_succ _, .inr ⟨rfl, rfl, hsome, ?_⟩⟩, habsurd⟩
        · intro p hp
          rw [Store.set_of_ne hp, reserve_frees hfree]
        · rw [Store.set_self, if_pos rfl, hf]
      · refine ⟨_, _, rfl, ⟨rfl, rfl, rfl, fun p _ =>
          reserve_frees hfree p, Nat.le_succ _, .inr ⟨rfl, rfl, hsome, ?_⟩⟩,
          habsurd⟩
        rw [reserve_frees hfree, hfree, if_neg (by rw [hblank.2.2]; decide)]

structure Staging (env : Env) (before : Store Path) (done : List StagedReleaseFile)
    (s : Store Path) : Prop where
  changed : Changed before done [] s
  ready : ∀ it ∈ done, Ready before it s
  apart : done.Pairwise Apart
  named : ∀ it ∈ done, ∀ q, it.Lists q → ∃ j < done.length, q.suffix = env.suffix j q.kind
  next : before.next ≤ s.next

theorem Staging.unlisted (h : Staging env before done s)
    (hsuffix : ∀ kind, Function.Injective (env.suffix · kind))
    (staging : String) (kind : Kind) (item : StagedReleaseFile) :
    ∀ it ∈ done, ∀ q, it.Lists q → q ≠ sidecar env staging done.length item kind := by
  rintro it hit q hq rfl
  obtain ⟨j, hj, hname⟩ := h.named it hit _ hq
  exact Nat.ne_of_gt hj (hsuffix kind hname)

variable {item' : StagedReleaseFile}

theorem Preserved.lists {name new q : Sidecar} (h : Preserved item item' name s t)
    (hstage : item.stage = some new) (hq : item'.Lists q) :
    q = new ∨ (q = name ∧ item'.backup = some name) := by
  rcases hq with hq | hq
  · rw [h.stage, hstage] at hq
    exact .inl (Option.some.inj hq).symm
  · rcases h.old with ⟨-, hbackup, -⟩ | ⟨-, hbackup, -⟩
    · exact nomatch hbackup.symm.trans hq
    · exact .inr ⟨(Option.some.inj (hbackup.symm.trans hq)).symm, hbackup⟩

theorem Staging.add (h : Staging env before done s)
    (hsuffix : ∀ kind, Function.Injective (env.suffix · kind))
    (hfree : ∀ kind, before.files (.sidecar (sidecar env staging done.length item kind)) = none)
    {src : File} (hsource : before.files (.file item.source) = some src)
    (htargets : ∀ it ∈ done, it.target ≠ item.target)
    (hp : Preserved { item with stage := some (sidecar env staging done.length item .new) } item'
      (sidecar env staging done.length item .backup)
      (s.create (.sidecar (sidecar env staging done.length item .new)) src.data) t) :
    Staging env before (done ++ [item']) t := by
  have hunlisted := h.unlisted hsuffix staging
  have hne := sidecar_ne env staging done.length item
  generalize hnew : sidecar env staging done.length item .new = new at *
  generalize hbak : sidecar env staging done.length item .backup = bak at *
  have hlists : ∀ q, item'.Lists q → q = new ∨ (q = bak ∧ item'.backup = some bak) := fun q hq =>
      hp.lists rfl hq
  have hfresh : ∀ q, item'.Lists q → before.files (.sidecar q) = none := by
    intro q hq
    rcases hlists q hq with rfl | ⟨rfl, -⟩
    · rw [← hnew]
      exact hfree .new
    · rw [← hbak]
      exact hfree .backup
  have hsame : ∀ p, p ≠ .sidecar new → p ≠ .sidecar bak → t.files p = s.files p := fun p hpn hpb =>
    (hp.frame p hpb).trans (Store.create_of_ne hpn _)
  have holder : ∀ it ∈ done, ∀ q, it.Lists q → t.files (.sidecar q) = s.files (.sidecar q) := by
    intro it hit q hq
    refine hsame _ ?_ ?_
    · exact fun heq => hunlisted .new item it hit q hq ((Path.sidecar.inj heq).trans hnew.symm)
    · exact fun heq => hunlisted .backup item it hit q hq ((Path.sidecar.inj heq).trans hbak.symm)
  have htarget : item'.target = item.target := hp.target
  have hold : (s.create (.sidecar new) src.data).files (.file item.target)
      = before.files (.file item.target) := by
    rw [Store.create_of_ne (Path.file_ne_sidecar _ _)]
    exact h.changed.file nofun
  constructor
  · refine h.changed.extend ?_ ?_
    · intro p hun
      have hitem := hun item' List.mem_cons_self
      by_cases hpb : p = .sidecar bak
      · -- The name of the backup is not listed, so there is none.
        rcases hp.old with ⟨-, -, -, hbackup⟩ | ⟨-, hbackup, -⟩
        · rw [hpb, hbackup, Store.create_of_ne hne.symm]
        · exact absurd hpb (hitem bak (.inr hbackup))
      · exact hsame p (hitem new (.inl hp.stage)) hpb
    · intro it hit
      rw [List.mem_singleton.mp hit]
      exact hfresh
  · intro it hit
    rcases List.mem_append.mp hit with hit | hit
    · exact (h.ready it hit).congr (holder it hit)
    · rw [List.mem_singleton.mp hit]
      refine ⟨⟨new, ⟨s.next, src.data⟩, src, hp.stage, ?_, ?_, rfl, h.next⟩, ?_, ?_, ?_⟩
      · rw [hp.frame _ hne, Store.create_self]
      · rw [hp.source]
        exact hsource
      · intro q hq hq'
        rw [hp.stage] at hq
        rcases hp.old with ⟨-, hbackup, -⟩ | ⟨-, hbackup, -⟩
        · exact nomatch hbackup.symm.trans hq'
        · exact hne (congrArg Path.sidecar
            ((Option.some.inj hq).trans (Option.some.inj (hbackup.symm.trans hq')).symm))
      · intro hyes
        rcases hp.old with ⟨hno, -⟩ | ⟨-, hbackup, hsome, hfile⟩
        · exact nomatch hno.symm.trans hyes
        · rw [htarget, ← hold]
          exact ⟨hsome, bak, hbackup, hfile⟩
      · intro hno
        rcases hp.old with ⟨-, hbackup, habsent, -⟩ | ⟨hyes, -⟩
        · rw [htarget, ← hold]
          exact ⟨habsent, hbackup⟩
        · exact nomatch hyes.symm.trans hno
  · rw [List.pairwise_append]
    refine ⟨h.apart, List.pairwise_singleton _ _, ?_⟩
    intro it hit x hx
    rw [List.mem_singleton.mp hx]
    refine ⟨by rw [htarget]; exact htargets it hit, ?_⟩
    intro q hq hq'
    rcases hlists q hq' with rfl | ⟨rfl, -⟩
    · exact hunlisted .new item it hit _ hq hnew.symm
    · exact hunlisted .backup item it hit _ hq hbak.symm
  · intro it hit q hq
    rw [List.length_append, List.length_singleton]
    rcases List.mem_append.mp hit with hit | hit
    · obtain ⟨j, hj, hname⟩ := h.named it hit q hq
      exact ⟨j, Nat.lt_succ_of_lt hj, hname⟩
    · rw [List.mem_singleton.mp hit] at hq
      refine ⟨done.length, Nat.lt_succ_self _, ?_⟩
      rcases hlists q hq with rfl | ⟨rfl, -⟩
      · rw [← hnew]
        rfl
      · rw [← hbak]
        rfl
  · exact Nat.le_trans h.next (Nat.le_trans (Nat.le_succ _) hp.next)

def StagedReleaseFile.Blank (item : StagedReleaseFile) : Prop := item = .of item.source item.target

theorem StagedReleaseFile.Blank.unlisted (h : item.Blank) (q : Sidecar) : ¬item.Lists q := by
  rw [h]
  rintro (hq | hq) <;> exact nomatch hq

def Left (before s : Store Path) : Prop := ∃ q f, s.files (.sidecar q) = some f ∧
    before.next ≤ f.inode

def Leaves (k : Nat) (step : Step) : Prop := (step = .mkdir ∧ 0 < k) ∨ step = .unreserve

def StageResult (env : Env) (before : Store Path) (i : Nat) (items todo : List StagedReleaseFile) :
    Except (Nat × Step) (List StagedReleaseFile) × Store Path → Prop
  | (.ok out, t) =>
    Staging env before out t ∧ out.map (fun it => (it.source, it.target))
      = items.map (fun it => (it.source, it.target)) ∧
      ∀ j it, todo[j]? = some it → env.fails (i + j) .mkdir = false ∧
        (env.fails (i + j) .unreserve = true → before.files (.file it.target) = none)
  | (.error (k, step), t) =>
    env.fails k step = true ∧
      (∃ j it, k = i + j ∧ todo[j]? = some it ∧
        (step = .unreserve → before.files (.file it.target) ≠ none)) ∧
      (Leaves k step → Left before t) ∧ (¬Leaves k step → t.files = before.files)

theorem Staging.mkdir_fails (h : Staging env before done s)
    (hfails : env.fails done.length .mkdir = true) :
    StageResult env before done.length items (item :: todo) (.error (done.length, .mkdir), s) := by
  refine ⟨hfails, ⟨0, item, rfl, rfl, nofun⟩, ?_⟩
  cases done with
  | nil =>
    refine ⟨?_, ?_⟩
    · rintro (⟨-, hpos⟩ | hstep)
      · exact absurd hpos (Nat.lt_irrefl 0)
      · exact nomatch hstep
    · intro _
      funext p
      exact h.changed.frame p nofun fun _ hmem => nomatch hmem
  | cons it rest =>
    refine ⟨fun _ => ?_, fun hno => absurd (.inl ⟨rfl, Nat.succ_pos _⟩) hno⟩
    obtain ⟨q, f, _, _, hf, _, _, hinode⟩ := (h.ready it List.mem_cons_self).staged
    exact ⟨q, f, hf, hinode⟩

theorem Staging.gives_up (h : Staging env before done s) {step : Step}
    (hfails : env.fails done.length step = true) (hmkdir : step ≠ .mkdir)
    (hunreserve : step ≠ .unreserve) (hblank : ∀ it ∈ todo, ∀ q, ¬it.Lists q)
    (hsame : ∀ p, (∀ q, item.Lists q → p ≠ .sidecar q) → t.files p = s.files p)
    (hfresh : ∀ q, item.Lists q → before.files (.sidecar q) = none) :
    StageResult env before done.length items (it :: todo)
      (.error (done.length, step), cleanupStagedReleaseFiles (done ++ item :: todo) t) := by
  refine ⟨hfails, ⟨0, it, rfl, rfl, fun hstep => absurd hstep hunreserve⟩, ?_, fun _ =>
    Changed.cleanup (h.changed.extend ?_ ?_)⟩
  · rintro (⟨hstep, -⟩ | hstep)
    · exact absurd hstep hmkdir
    · exact absurd hstep hunreserve
  · exact fun p hun => hsame p (hun item List.mem_cons_self)
  · exact List.forall_mem_cons.mpr ⟨hfresh, fun it hit q hq => absurd hq (hblank it hit q)⟩

theorem Staging.unreserve_fails (h : Staging env before done s)
    (hfails : env.fails done.length .unreserve = true)
    (hold : before.files (.file it.target) ≠ none) {name : Sidecar}
    (hname : ∀ x ∈ done ++ item :: todo, ∀ q, x.Lists q → q ≠ name) (hnext : s.next ≤ t.next) :
    StageResult env before done.length items (it :: todo)
      (.error (done.length, .unreserve), cleanupStagedReleaseFiles (done ++ item :: todo)
        (t.create (.sidecar name) [])) := by
  refine ⟨hfails, ⟨0, it, rfl, rfl, fun _ => hold⟩, fun _ =>
    ⟨name, ⟨t.next, []⟩, ?_, Nat.le_trans h.next hnext⟩, fun hno => absurd (.inr rfl) hno⟩
  rw [cleanup_of_unlisted fun x hx q hq heq => hname x hx q hq (Path.sidecar.inj heq).symm,
    Store.create_self]

theorem StageResult.next (hsource : item'.source = item.source)
    (htarget : item'.target = item.target) (hmkdir : env.fails done.length .mkdir = false)
    (hunreserve : env.fails done.length .unreserve = true → before.files (.file item.target) = none)
    {result : Except (Nat × Step) (List StagedReleaseFile) × Store Path}
    (h : StageResult env before (done ++ [item']).length (done ++ [item'] ++ todo) todo result) :
    StageResult env before done.length (done ++ item :: todo) (item :: todo) result := by
  obtain ⟨outcome, t⟩ := result
  rw [List.length_append, List.length_singleton] at h
  cases outcome with
  | error e =>
    obtain ⟨hfails, ⟨j, it, hk, hit, hold⟩, hleaves⟩ := h
    exact ⟨hfails, ⟨j + 1, it, by omega, hit, hold⟩, hleaves⟩
  | ok out =>
    obtain ⟨hstaging, hmap, hsteps⟩ := h
    refine ⟨hstaging, ?_, ?_⟩
    · rw [hmap, List.append_assoc, List.singleton_append, List.map_append, List.map_append,
        List.map_cons, List.map_cons,
        hsource, htarget]
    · intro j it hit
      cases j with
      | zero =>
        cases Option.some.inj hit
        exact ⟨hmkdir, hunreserve⟩
      | succ j =>
        rw [← Nat.add_assoc, Nat.add_right_comm]
        exact hsteps j it hit

theorem stageAll_spec (h : Staging env before done s)
    (hsuffix : ∀ kind, Function.Injective (env.suffix · kind)) (hblank : ∀ it ∈ todo, it.Blank)
    (hfree : ∀ j it kind, todo[j]? = some it →
      before.files (.sidecar (sidecar env staging (done.length + j) it kind)) = none)
    (hsources : ∀ it ∈ todo, ∃ src, before.files (.file it.source) = some src)
    (htargets : ((done ++ todo).map StagedReleaseFile.target).Nodup) :
    StageResult env before done.length (done ++ todo)
      todo (stageAll env staging done.length done todo s) := by
  induction todo generalizing done s with
  | nil =>
    refine ⟨h, by rw [List.append_nil], ?_⟩
    intro j it hit
    exact nomatch hit
  | cons item todo ih =>
    have hitem := hblank item List.mem_cons_self
    have hrest : ∀ it ∈ todo, ∀ q, ¬it.Lists q := fun it hit =>
        (hblank it (List.mem_cons_of_mem _ hit)).unlisted
    have hfree0 : ∀ kind, before.files (.sidecar (sidecar env staging done.length item kind))
        = none :=
      fun kind => hfree 0 item kind rfl
    have hfile : ∀ p, s.files (.file p) = before.files (.file p) := fun p => h.changed.file nofun
    unfold stageAll
    by_cases hmkdir : env.fails done.length .mkdir = true
    · rw [if_pos hmkdir]
      exact h.mkdir_fails hmkdir
    rw [if_neg hmkdir, copyReleaseFileBeside]
    obtain ⟨src, hsrc⟩ := hsources item List.mem_cons_self
    rw [(hfile item.source).trans hsrc]
    dsimp only
    by_cases hcopy : env.fails done.length .copy = true
    · rw [if_pos hcopy]
      exact h.gives_up hcopy (by decide) (by decide) hrest (fun _ _ => rfl) fun q hq =>
        absurd hq (hitem.unlisted q)
    rw [if_neg hcopy]
    dsimp only
    -- The copy is in place; the old file comes next.
    have hlisted : ∀ q,
        { item with stage := some (sidecar env staging done.length item .new) }.Lists q →
        q = sidecar env staging done.length item .new := by
      rintro q (hq | hq)
      · exact (Option.some.inj hq).symm
      · exact absurd (.inr hq) (hitem.unlisted q)
    have hbackup : (s.create (.sidecar (sidecar env staging done.length item .new)) src.data).files
        (.sidecar (sidecar env staging done.length item .backup)) = none := by
      rw [Store.create_of_ne (sidecar_ne env staging done.length item).symm]
      rw [h.changed.frame _ nofun
        fun it hit q hq heq => h.unlisted hsuffix staging .backup item it hit q hq
          (Path.sidecar.inj heq).symm]
      exact hfree0 .backup
    have hfields : item.hadOld = false ∧ item.backup = none ∧ item.linked = false := by
      rw [hitem]
      exact ⟨rfl, rfl, rfl⟩
    have htarget : (s.create (.sidecar (sidecar env staging done.length item .new)) src.data).files
        (.file item.target) =
        before.files (.file item.target) :=
      (Store.create_of_ne (Path.file_ne_sidecar _ _) _).trans (hfile _)
    rcases @preserve_cases env staging
      (s.create (.sidecar (sidecar env staging done.length item .new)) src.data)
        { item with stage := some (sidecar env staging done.length item .new) } done.length hfields
          hbackup with
      ⟨item', t, hrun, hpreserved, hunreserve⟩ | ⟨step, hfails, hne, hne',
        hrun⟩ | ⟨hfails, hold, hrun⟩
    · rw [hrun]
      dsimp only
      have hapart : ∀ it ∈ done, it.target ≠ item.target := by
        rw [List.map_append, List.nodup_append] at htargets
        exact fun it hit => htargets.2.2 _ (List.mem_map_of_mem hit) _ List.mem_cons_self
      have hadded := h.add hsuffix hfree0 hsrc hapart hpreserved
      have hnext := ih hadded (fun it hit => hblank it (List.mem_cons_of_mem _ hit)) ?_
        (fun it hit => hsources it (List.mem_cons_of_mem _ hit)) ?_
      · have hsource' : item'.source = item.source := hpreserved.source
        have htarget' : item'.target = item.target := hpreserved.target
        refine StageResult.next hsource' htarget' (Bool.eq_false_iff.mpr hmkdir) ?_ ?_
        · exact fun hfails => htarget.symm.trans (hunreserve hfails)
        · have hlength : (done ++ [item']).length
              = done.length + 1 := by rw [List.length_append, List.length_singleton]
          rw [hlength] at hnext ⊢
          exact hnext
      · intro j it kind hit
        rw [List.length_append, List.length_singleton, Nat.add_assoc, Nat.add_comm 1 j]
        exact hfree (j + 1) it kind hit
      · rw [List.append_assoc, List.singleton_append, List.map_append, List.map_cons,
          hpreserved.target]
        rw [List.map_append, List.map_cons] at htargets
        exact htargets
    · rw [hrun]
      refine h.gives_up hfails hne hne' hrest ?_ ?_
      · exact fun p hun => Store.create_of_ne (hun _ (.inl rfl)) _
      · intro q hq
        rw [hlisted q hq]
        exact hfree0 .new
    · rw [hrun]
      refine h.unreserve_fails hfails (fun hnone => hold (htarget.trans hnone)) ?_ (Nat.le_succ _)
      refine List.forall_mem_append.mpr ⟨h.unlisted hsuffix staging .backup item,
        List.forall_mem_cons.mpr
        ⟨fun q hq => ?_, fun x hx q hq => absurd hq (hrest x hx q)⟩⟩
      rw [hlisted q hq]
      exact fun heq => sidecar_ne env staging done.length item (congrArg Path.sidecar heq)

end Proofs
end OboardAgent.Release
