import OboardAgent.Deploy.Release

/-!
# A release is installed as a whole

The commits of the staged files, their undoing when a later one fails, and the whole installation
with its proof.
-/

namespace OboardAgent.Release

open Inodes (File Store)

section Proofs

variable {env : Env} {staging : String} {before s t : Store Path} {items done todo : List StagedReleaseFile}
  {item it : StagedReleaseFile}

/-! ## Undoing -/

theorem renameToTarget_moves {q : Sidecar} {f : File} {l : Option Sidecar} (hl : l = some q)
    (hfile : s.files (.sidecar q) = some f)
    (hother : ∀ g, s.files (.file item.target) = some g → g.inode ≠ f.inode) :
    ∃ t, renameToTarget item l s = some t ∧ Store.Moved s (.sidecar q) (.file item.target) f t := by
  subst hl
  exact Store.rename_moves nofun hfile hother

section

variable (hwf : before.WellFormed)
include hwf

theorem Changed.restore_one (hit : it ∈ items) (hapart : ∀ x ∈ done, Apart it x)
    (h : Changed before items (it :: done) s) :
    Changed before items done (restoreStagedReleaseFile s it) := by
  have hinstalled := h.installed it List.mem_cons_self
  obtain ⟨f, _, hf, _, _, hinode⟩ := hinstalled.new
  unfold restoreStagedReleaseFile
  split_ifs with hold
  · -- The old file goes back from its backup.
    obtain ⟨hsome, b, hb, hfile⟩ := hinstalled.old hold
    obtain ⟨old, holdfile⟩ := Option.isSome_iff_exists.mp hsome
    obtain ⟨t, hrun, hmoved⟩ := renameToTarget_moves hb (hfile.trans holdfile) (by
      intro g hg
      have hlt := hwf _ _ holdfile
      cases hf.symm.trans hg
      omega)
    rw [hrun]
    refine ⟨?_, h.fresh, ?_⟩
    · intro p hp hun
      by_cases hpt : p = .file it.target
      · rw [hpt, Option.getD_some, hmoved.arrived, holdfile]
      · rw [Option.getD_some, hmoved.others p (hun it hit b (.inr hb)) hpt]
        exact h.frame p (List.forall_mem_cons.mpr ⟨hpt, hp⟩) hun
    · intro x hx
      refine (h.installed x (List.mem_cons_of_mem _ hx)).congr ?_ ?_
      · exact hmoved.others _ nofun fun heq => (hapart x hx).1 (Path.file.inj heq).symm
      · intro q hq
        refine hmoved.others _ ?_ nofun
        exact fun heq => (hapart x hx).2 b (.inr hb) (Path.sidecar.inj heq ▸ hq)
  · have habsent := hinstalled.absent (Bool.eq_false_iff.mpr hold)
    refine ⟨?_, h.fresh, ?_⟩
    · intro p hp hun
      by_cases hpt : p = .file it.target
      · rw [hpt, Store.remove_self, habsent]
      · rw [Store.remove_of_ne hpt]
        exact h.frame p (List.forall_mem_cons.mpr ⟨hpt, hp⟩) hun
    · intro x hx
      refine (h.installed x (List.mem_cons_of_mem _ hx)).congr ?_ fun q _ => Store.remove_of_ne nofun
      exact Store.remove_of_ne fun heq => (hapart x hx).1 (Path.file.inj heq).symm

theorem Changed.restore (hsub : ∀ it ∈ done, it ∈ items)
    (hapart : done.Pairwise Apart)
    (h : Changed before items done s) : Changed before items [] (restoreStagedReleaseFiles done s) := by
  induction done generalizing s with
  | nil => exact h
  | cons it done ih =>
    rw [List.pairwise_cons] at hapart
    exact ih (fun x hx => hsub x (List.mem_cons_of_mem _ hx)) hapart.2
      (h.restore_one hwf (hsub it List.mem_cons_self) hapart.1)

/-! ## Committing -/

structure Committed (before : Store Path) (item : StagedReleaseFile) (s t : Store Path) : Prop where
  installed : Installed before { item with stage := none } t
  stage : ∀ q, item.stage = some q → t.files (.sidecar q) = none
  frame : ∀ p, p ≠ .file item.target → (∀ q, item.Lists q → p ≠ .sidecar q) → t.files p = s.files p

structure Retired (before : Store Path) (item : StagedReleaseFile) (s t : Store Path) : Prop where
  target : ∀ g, t.files (.file item.target) = some g → g.inode < before.next
  old : item.hadOld = true → ∃ b, item.backup = some b ∧
    t.files (.sidecar b) = before.files (.file item.target)
  frame : ∀ p, p ≠ .file item.target → (∀ b, item.backup = some b → p ≠ .sidecar b) → t.files p = s.files p
  undo : (if item.hadOld && !item.linked then (renameToTarget item item.backup t).getD t
    else t).files = s.files

theorem retireOld_cases (hready : Ready before item s)
    (htarget : s.files (.file item.target) = before.files (.file item.target)) {i : Nat} :
    (env.fails i .retire = true ∧ retireOld env i item s = none) ∨
    ∃ t, retireOld env i item s = some t ∧ Retired before item s t := by
  unfold retireOld
  by_cases hkeep : (item.hadOld && !item.linked) = true
  · rw [if_pos hkeep]
    by_cases hfails : env.fails i .retire = true
    · exact .inl ⟨hfails, by rw [if_pos hfails]⟩
    · right
      rw [if_neg hfails]
      obtain ⟨hold, hlinked⟩ := (Bool.and_eq_true_iff).mp hkeep
      obtain ⟨hsome, b, hb, hfile⟩ := hready.old hold
      rw [Bool.not_eq_true'] at hlinked
      rw [hlinked, if_neg (by decide)] at hfile
      obtain ⟨old, holdfile⟩ := Option.isSome_iff_exists.mp hsome
      have hmove : ∃ t, s.rename (.file item.target) (.sidecar b) = some t ∧
          Store.Moved s (.file item.target) (.sidecar b) old t :=
        Store.rename_moves nofun (htarget.trans holdfile) fun g hg => nomatch hfile.symm.trans hg
      obtain ⟨t, hrun, hmoved⟩ := hmove
      refine ⟨t, by rw [hb]; exact hrun, ?_, fun _ => ⟨b, hb, hmoved.arrived.trans holdfile.symm⟩, ?_, ?_⟩
      · exact fun g hg => nomatch hmoved.gone.symm.trans hg
      · exact fun p hpt hpb => hmoved.others p hpt (hpb b hb)
      · obtain ⟨back, hback, hrestored⟩ :=
          renameToTarget_moves hb hmoved.arrived fun g hg => nomatch hmoved.gone.symm.trans hg
        rw [if_pos hkeep, hback, Option.getD_some]
        funext p
        by_cases hpt : p = .file item.target
        · rw [hpt, hrestored.arrived, htarget, holdfile]
        by_cases hpb : p = .sidecar b
        · rw [hpb, hrestored.gone, hfile]
        · rw [hrestored.others p hpb hpt, hmoved.others p hpt hpb]
  · right
    rw [if_neg hkeep]
    refine ⟨s, rfl, fun g hg => hwf _ g (htarget.symm.trans hg), ?_, fun _ _ _ => rfl, by rw [if_neg hkeep]⟩
    intro hold
    obtain ⟨-, b, hb, hfile⟩ := hready.old hold
    have hlinked : item.linked = true := by
      by_contra hno
      exact hkeep (by rw [hold, Bool.eq_false_iff.mpr hno]; rfl)
    rw [hlinked, if_pos rfl] at hfile
    exact ⟨b, hb, hfile⟩

theorem commit_cases (hready : Ready before item s)
    (htarget : s.files (.file item.target) = before.files (.file item.target)) {i : Nat} :
    (∃ t, commitStagedReleaseFile env i item s = (.ok { item with stage := none }, t) ∧
      Committed before item s t) ∨
    ∃ step t, commitStagedReleaseFile env i item s = (.error step, t) ∧ env.fails i step = true ∧
      (step = .retire ∨ step = .replace) ∧ t.files = s.files := by
  unfold commitStagedReleaseFile
  rcases retireOld_cases hwf hready htarget with ⟨hfails, hrun⟩ | ⟨mid, hrun, hretired⟩
  · exact .inr ⟨.retire, s, by rw [hrun], hfails, .inl rfl, rfl⟩
  rw [hrun]
  dsimp only
  by_cases hfails : env.fails i .replace = true
  · right
    rw [if_pos hfails]
    exact ⟨.replace, _, rfl, hfails, .inr rfl, hretired.undo⟩
  · left
    rw [if_neg hfails]
    obtain ⟨q, f, src, hq, hf, hsrc, hdata, hinode⟩ := hready.staged
    have hqb : ∀ b, item.backup = some b → Path.sidecar q ≠ .sidecar b := by
      intro b hb heq
      exact hready.distinct q hq (hb.trans (by rw [Path.sidecar.inj heq]))
    have hmid : mid.files (.sidecar q) = some f := (hretired.frame (.sidecar q) nofun hqb).trans hf
    obtain ⟨t, hmove, hmoved⟩ := renameToTarget_moves hq hmid fun g hg => by
      have hlt := hretired.target g hg
      omega
    rw [hmove]
    refine ⟨t, rfl, ⟨⟨f, src, hmoved.arrived, hsrc, hdata, hinode⟩, ?_, fun hno =>
      (hready.absent hno).1⟩, ?_, ?_⟩
    · intro hold
      obtain ⟨b, hb, hfile⟩ := hretired.old hold
      exact ⟨(hready.old hold).1, b, hb, (hmoved.others _ (hqb b hb).symm nofun).trans hfile⟩
    · intro q' hq'
      rw [← Option.some.inj (hq.symm.trans hq')]
      exact hmoved.gone
    · intro p hpt hun
      rw [hmoved.others p (hun q (.inl hq)) hpt]
      exact hretired.frame p hpt fun b hb => hun b (.inr hb)

end

def CommitResult (env : Env) (before : Store Path) (items : List StagedReleaseFile) :
    Option (Nat × Step) × List StagedReleaseFile × Store Path → Prop
  | (none, out, t) =>
    Changed before out out t ∧ out.map (fun it => (it.source, it.target))
      = items.map (fun it => (it.source, it.target))
  | (some (k, step), out, t) => env.fails k step = true ∧ (step = .retire ∨ step = .replace) ∧
      Changed before out [] t

theorem CommitResult.of_map {items' : List StagedReleaseFile}
    {result : Option (Nat × Step) × List StagedReleaseFile × Store Path}
    (h : CommitResult env before items' result)
    (hmap : items'.map (fun it => (it.source, it.target)) = items.map (fun it => (it.source, it.target))) :
    CommitResult env before items result := by
  obtain ⟨outcome, out, t⟩ := result
  cases outcome with
  | none => exact ⟨h.1, h.2.trans hmap⟩
  | some e => exact h

theorem Changed.commit (h : Changed before (done ++ item :: todo) done s) (hdone : ∀ x ∈ done, Apart x item)
    (hcommitted : Committed before item s t) :
    Changed before (done ++ [{ item with stage := none }] ++ todo)
      (done ++ [{ item with stage := none }]) t := by
  refine ⟨?_, ?_, ?_⟩
  · intro p hp hun
    by_cases hlisted : ∃ q, item.Lists q ∧ p = .sidecar q
    · -- It was the copy, which is not listed any more.
      obtain ⟨q, hq, rfl⟩ := hlisted
      rcases hq with hq | hq
      · rw [hcommitted.stage q hq, h.fresh item (by simp) q (.inl hq)]
      · exact absurd rfl (hun { item with stage := none } (by simp) q (.inr hq))
    · have hitem : ∀ q, item.Lists q → p ≠ .sidecar q := fun q hq hpq => hlisted ⟨q, hq, hpq⟩
      rw [hcommitted.frame p (hp { item with stage := none } (by simp)) hitem]
      refine h.frame p (fun it hit => hp it (List.mem_append_left _ hit)) ?_
      intro it hit
      rcases List.mem_append.mp hit with hit | hit
      · exact hun it (by simp [hit])
      · rcases List.mem_cons.mp hit with rfl | hit
        · exact hitem
        · exact hun it (by simp [hit])
  · intro it hit q hq
    rw [List.append_assoc, List.mem_append, List.singleton_append, List.mem_cons] at hit
    rcases hit with hit | rfl | hit
    · exact h.fresh it (List.mem_append_left _ hit) q hq
    · exact h.fresh item (by simp) q hq.of_unstaged
    · exact h.fresh it (by simp [hit]) q hq
  · intro it hit
    rcases List.mem_append.mp hit with hit | hit
    · refine (h.installed it hit).congr ?_ ?_
      · exact hcommitted.frame _ (fun heq => (hdone it hit).1 (Path.file.inj heq)) nofun
      · intro q hq
        refine hcommitted.frame _ nofun fun q' hq' heq => ?_
        exact (hdone it hit).2 q hq (Path.sidecar.inj heq ▸ hq')
    · rw [List.mem_singleton.mp hit]
      exact hcommitted.installed

theorem commitAll_spec (hwf : before.WellFormed) {i : Nat} (hapart : (done ++ todo).Pairwise Apart)
    (hready : ∀ it ∈ todo, Ready before it s) (h : Changed before (done ++ todo) done s) :
    CommitResult env before (done ++ todo) (commitAll env i done todo s) := by
  induction todo generalizing done s i with
  | nil =>
    rw [List.append_nil] at h ⊢
    exact ⟨h, rfl⟩
  | cons item todo ih =>
    obtain ⟨hdone, htodo, hcross⟩ := List.pairwise_append.mp hapart
    rw [List.pairwise_cons] at htodo
    have hitem : ∀ x ∈ done, Apart x item := fun x hx => hcross x hx item List.mem_cons_self
    have htarget : s.files (.file item.target) = before.files (.file item.target) :=
      h.file fun x hx => (hitem x hx).1.symm
    unfold commitAll
    rcases commit_cases hwf (hready item List.mem_cons_self) htarget with
      ⟨t, hrun, hcommitted⟩ | ⟨step, t, hrun, hfails, hstep, hsame⟩
    · rw [hrun]
      dsimp only
      have hnext : CommitResult env before (done ++ [{ item with stage := none }] ++ todo)
          (commitAll env (i + 1) (done ++ [{ item with stage := none }]) todo t) := by
        refine ih ?_ ?_ (h.commit hitem hcommitted)
        · rw [List.append_assoc, List.singleton_append, List.pairwise_append, List.pairwise_cons]
          refine ⟨hdone, ⟨fun x hx => (htodo.1 x hx).symm.unstaged.symm, htodo.2⟩, ?_⟩
          exact fun x hx => List.forall_mem_cons.mpr
            ⟨(hitem x hx).unstaged, fun y hy => hcross x hx y (List.mem_cons_of_mem _ hy)⟩
        · intro x hx
          refine (hready x (List.mem_cons_of_mem _ hx)).congr fun q hq => ?_
          refine hcommitted.frame (.sidecar q) nofun fun q' hq' heq => ?_
          exact (htodo.1 x hx).2 q' hq' (Path.sidecar.inj heq ▸ hq)
      exact hnext.of_map (by simp)
    · rw [hrun]
      dsimp only
      refine ⟨hfails, hstep, Changed.restore hwf (fun it hit => List.mem_append_left _ hit) hdone ?_⟩
      exact h.congr hsame

/-! ## The installation -/

theorem removeStale_spec (staging dir : String) (s : Store Path) :
    (removeStaleReleaseSidecars staging dir s).next = s.next ∧
    ∀ p, (removeStaleReleaseSidecars staging dir s).files p = s.files p ∨
      (∃ q, p = .sidecar q) ∧ (removeStaleReleaseSidecars staging dir s).files p = none := by
  unfold removeStaleReleaseSidecars
  split_ifs
  · exact ⟨rfl, fun p => .inl rfl⟩
  · refine ⟨rfl, fun p => ?_⟩
    cases p with
    | file p => exact .inl rfl
    | sidecar q =>
      dsimp only
      split_ifs
      · exact .inr ⟨⟨q, rfl⟩, rfl⟩
      · exact .inl rfl

theorem cleanDirectories_spec (staging : String) (cleaned : List String)
    (items : List StagedReleaseFile) (s : Store Path) :
    (cleanDirectories staging cleaned items s).next = s.next ∧
    ∀ p, (cleanDirectories staging cleaned items s).files p = s.files p ∨
      (∃ q, p = .sidecar q) ∧ (cleanDirectories staging cleaned items s).files p = none := by
  fun_induction cleanDirectories staging cleaned items s with
  | case1 => exact ⟨rfl, fun p => .inl rfl⟩
  | case2 cleaned item items s hcleaned ih => exact ih
  | case3 cleaned item items s hnew ih =>
    obtain ⟨hnext, hstale⟩ := removeStale_spec staging item.target.dir s
    refine ⟨ih.1.trans hnext, fun p => ?_⟩
    rcases ih.2 p with hrest | hrest
    · rw [hrest]
      exact hstale p
    · exact .inr hrest

theorem cleanDirectories_file (staging : String) (cleaned : List String)
    (items : List StagedReleaseFile) (s : Store Path)
    (p : FilePath) : (cleanDirectories staging cleaned items s).files (.file p) = s.files (.file p) := by
  rcases (cleanDirectories_spec staging cleaned items s).2 (.file p) with hsame | ⟨⟨q, hq⟩, -⟩
  · exact hsame
  · exact absurd hq (Path.file_ne_sidecar p q)

def InstallResult (env : Env) (before : Store Path) (items : List StagedReleaseFile) :
    Option (Nat × Step) × Store Path → Prop
  | (none, t) =>
    (∀ it ∈ items, ∃ f src, t.files (.file it.target) = some f ∧ before.files (.file it.source) = some src ∧
      f.data = src.data) ∧
    ∀ j it, items[j]? = some it → env.fails j .mkdir = false ∧
      (env.fails j .unreserve = true → before.files (.file it.target) = none)
  | (some (k, step), t) =>
    env.fails k step = true ∧ ((¬Leaves k step ∧ t.files = before.files) ∨ (Leaves k step ∧ Left before t ∧
      ∃ it, items[k]? = some it ∧ (step = .unreserve → before.files (.file it.target) ≠ none)))

theorem Changed.installed_all (h : Changed before done done s)
    (hmap : done.map (fun it => (it.source, it.target)) = items.map (fun it => (it.source, it.target))) :
    ∀ it ∈ items, ∃ f src, (cleanupStagedReleaseFiles done s).files (.file it.target) = some f ∧
      before.files (.file it.source) = some src ∧ f.data = src.data := by
  intro it hit
  have hmem : (it.source, it.target) ∈ done.map (fun it => (it.source, it.target)) :=
    hmap ▸ List.mem_map_of_mem (f := fun it : StagedReleaseFile => (it.source, it.target)) hit
  obtain ⟨x, hx, hpair⟩ := List.mem_map.mp hmem
  obtain ⟨hsource, htarget⟩ := Prod.mk.inj hpair
  obtain ⟨f, src, hf, hsrc, hdata, -⟩ := (h.installed x hx).new
  rw [cleanup_of_unlisted fun _ _ q _ => Path.file_ne_sidecar _ q, ← htarget, ← hsource]
  exact ⟨f, src, hf, hsrc, hdata⟩

theorem install_spec (hwf : s.WellFormed) (hsuffix : ∀ kind, Function.Injective (env.suffix · kind))
    (hblank : ∀ it ∈ items, it.Blank)
    (hfree : ∀ j it kind, items[j]? = some it →
      (cleanDirectories staging [] items s).files (.sidecar (sidecar env staging j it kind)) = none)
    (hsources : ∀ it ∈ items, ∃ src, s.files (.file it.source) = some src)
    (htargets : (items.map StagedReleaseFile.target).Nodup) :
    InstallResult env (cleanDirectories staging [] items s) items
      (installVerifiedReleaseFiles env staging items s) := by
  unfold installVerifiedReleaseFiles
  have hcleaned : (cleanDirectories staging [] items s).WellFormed := by
    intro p f hf
    obtain ⟨hnext, hfiles⟩ := cleanDirectories_spec staging [] items s
    rw [hnext]
    rcases hfiles p with hsame | ⟨-, hnone⟩
    · exact hwf p f (hsame.symm.trans hf)
    · exact nomatch hnone.symm.trans hf
  have hsources' : ∀ it ∈ items, ∃ src, (cleanDirectories staging [] items s).files
      (.file it.source) = some src :=
    fun it hit => (hsources it hit).imp fun src hsrc => (cleanDirectories_file ..).trans hsrc
  generalize cleanDirectories staging [] items s = cleaned at *
  have hstart : Staging env cleaned [] cleaned := by
    refine ⟨⟨fun _ _ _ => rfl, ?_, ?_⟩, ?_, List.Pairwise.nil, ?_, Nat.le_refl _⟩ <;> exact nofun
  have hstaged : StageResult env cleaned 0 items items (stageAll env staging 0 [] items cleaned) := by
    refine stageAll_spec hstart hsuffix hblank ?_ hsources' htargets
    intro j it kind hit
    rw [List.length_nil, Nat.zero_add]
    exact hfree j it kind hit
  cases hrun : stageAll env staging 0 [] items cleaned with
  | mk outcome t =>
    rw [hrun] at hstaged
    cases outcome with
    | error e =>
      obtain ⟨k, step⟩ := e
      obtain ⟨hfails, ⟨j, it, hk, hit, hold⟩, hleaves, hnot⟩ := hstaged
      rw [Nat.zero_add] at hk
      subst hk
      refine ⟨hfails, ?_⟩
      by_cases hl : Leaves k step
      · exact .inr ⟨hl, hleaves hl, it, hit, hold⟩
      · exact .inl ⟨hl, hnot hl⟩
    | ok out =>
      obtain ⟨hstaging, hmap, hsteps⟩ := hstaged
      have hcommitted : CommitResult env cleaned out (commitAll env 0 [] out t) :=
        commitAll_spec hcleaned hstaging.apart hstaging.ready hstaging.changed
      dsimp only
      cases hcommit : commitAll env 0 [] out t with
      | mk outcome rest =>
        obtain ⟨final, u⟩ := rest
        rw [hcommit] at hcommitted
        cases outcome with
        | none =>
          refine ⟨hcommitted.1.installed_all (hcommitted.2.trans hmap), ?_⟩
          intro j it hit
          have hstep := hsteps j it hit
          rw [Nat.zero_add] at hstep
          exact hstep
        | some e =>
          obtain ⟨k, step⟩ := e
          obtain ⟨hfails, hstep, hchanged⟩ := hcommitted
          refine ⟨hfails, .inl ⟨?_, hchanged.cleanup⟩⟩
          rcases hstep with rfl | rfl <;> exact fun hl => by rcases hl with ⟨hl, -⟩ | hl <;> exact nomatch hl

end Proofs

/-! ## All or nothing -/

def Node.data (n : Node) (p : Path) : Option (List UInt8) := (n.files.files p).map File.data

variable (files : List (FilePath × FilePath))

/-- The items of an installation, from the release files and their targets. -/
def itemsOf : List StagedReleaseFile := files.map fun f => .of f.1 f.2

structure Unchanged (files : List (FilePath × FilePath)) (before after : Node) : Prop where
  targets : ∀ f ∈ files, after.data (.file f.2) = before.data (.file f.2)
  proof : after.proof = before.proof
  sidecars : ∀ q, after.files.files (.sidecar q) ≠ none →
    after.files.files (.sidecar q) = before.files.files (.sidecar q)

structure Updated (files : List (FilePath × FilePath)) (proof : List UInt8) (before after : Node) : Prop where
  targets : ∀ f ∈ files, ∃ data, before.data (.file f.1) = some data ∧ after.data (.file f.2) = some data
  proof : after.proof = some proof

def AllOrNothing (proof : List UInt8) (before : Node) : Option InstallError × Node → Prop
  | (none, after) => Updated files proof before after
  | (some _, after) => Unchanged files before after

/-- A release that can be installed: its files exist, its targets are distinct, and the names that
are chosen beside the targets are new and differ. -/
structure Installable (env : Env) (staging : String) (files : List (FilePath × FilePath))
    (before : Store Path) : Prop where
  wellFormed : before.WellFormed
  sources : ∀ f ∈ files, ∃ src, before.files (.file f.1) = some src
  targets : (files.map Prod.snd).Nodup
  suffixes : ∀ kind, Function.Injective (env.suffix · kind)
  free : ∀ j f kind, files[j]? = some f →
    (cleanDirectories staging [] (itemsOf files) before).files
      (.sidecar (sidecar env staging j (.of f.1 f.2) kind)) = none

/-- What fails is neither the directory of a file that is not the first, nor the removal of the file
that reserves a backup. -/
def CleansUp (env : Env) (files : List (FilePath × FilePath)) (before : Store Path) : Prop :=
  ∀ i f, files[i]? = some f → (env.fault = some (.item i .mkdir) → i = 0) ∧
    (env.fault = some (.item i .unreserve) → before.files (.file f.2) = none)

theorem itemsOf_blank : ∀ it ∈ itemsOf files, it.Blank := by
  intro it hit
  obtain ⟨f, -, rfl⟩ := List.mem_map.mp hit
  rfl

theorem Installable.install {env : Env} {staging : String} {files : List (FilePath × FilePath)}
    {before : Store Path} (h : Installable env staging files before) :
    InstallResult env (cleanDirectories staging [] (itemsOf files) before) (itemsOf files)
      (installVerifiedReleaseFiles env staging (itemsOf files) before) := by
  refine install_spec h.wellFormed h.suffixes (itemsOf_blank files) ?_ ?_ ?_
  · intro j it kind hit
    rw [itemsOf, List.getElem?_map] at hit
    obtain ⟨f, hf, rfl⟩ := Option.map_eq_some_iff.mp hit
    exact h.free j f kind hf
  · intro it hit
    obtain ⟨f, hf, rfl⟩ := List.mem_map.mp hit
    exact h.sources f hf
  · have htargets : (itemsOf files).map StagedReleaseFile.target = files.map Prod.snd := by
      rw [itemsOf, List.map_map]
      rfl
    rw [htargets]
    exact h.targets

section AllOrNothing

variable {env : Env} {staging : String} {files : List (FilePath × FilePath)} {n : Node}
  {t : Store Path} {k : Nat} {step : Step}

theorem Unchanged.refl (files : List (FilePath × FilePath)) (n : Node) : Unchanged files n n :=
  ⟨fun _ _ => rfl, rfl, fun _ _ => rfl⟩

theorem restoreProof_eq (old : Option (List UInt8)) (n : Node) :
    restoreProof old n = { n with proof := old } := by
  cases old <;> rfl

theorem unchanged_of_cleaned (h : t.files = (cleanDirectories staging [] (itemsOf files) n.files).files) :
    Unchanged files n ⟨t, n.proof⟩ := by
  refine ⟨?_, rfl, ?_⟩
  · intro f _
    unfold Node.data
    rw [h, cleanDirectories_file]
  · intro q hq
    rw [h] at hq ⊢
    rcases (cleanDirectories_spec staging [] (itemsOf files) n.files).2 (.sidecar q) with hsame | ⟨-, hnone⟩
    · exact hsame
    · exact absurd hnone hq

theorem not_unchanged_of_left (hwf : n.files.WellFormed)
    (h : Left (cleanDirectories staging [] (itemsOf files) n.files) t) : ¬Unchanged files n ⟨t, n.proof⟩ := by
  obtain ⟨q, f, hf, hinode⟩ := h
  rw [(cleanDirectories_spec ..).1] at hinode
  intro hunchanged
  have hbefore := hunchanged.sidecars q (by dsimp only; rw [hf]; exact nofun)
  have hlt := hwf _ f (hbefore.symm.trans hf)
  omega

theorem cleansUp_of_fault (hfault : env.fault = some (.item k step)) (hleaves : ¬Leaves k step) :
    CleansUp env files n.files := by
  intro i f _
  rw [hfault]
  refine ⟨?_, ?_⟩
  · intro heq
    injection Option.some.inj heq with hk hstep
    subst hk hstep
    by_contra hne
    exact hleaves (.inl ⟨rfl, Nat.pos_of_ne_zero hne⟩)
  · intro heq
    injection Option.some.inj heq with _ hstep
    exact absurd (.inr hstep) hleaves

theorem getElem?_itemsOf {f : FilePath × FilePath} {i : Nat} (h : files[i]? = some f) :
    (itemsOf files)[i]? = some (.of f.1 f.2) := by
  rw [itemsOf, List.getElem?_map, h]
  rfl

theorem not_cleansUp_of_leaves (hfault : env.fault = some (.item k step)) (hleaves : Leaves k step)
    {it : StagedReleaseFile} (hit : (itemsOf files)[k]? = some it)
    (hold : step = .unreserve → n.files.files (.file it.target) ≠ none) :
    ¬CleansUp env files n.files := by
  intro hclean
  rw [itemsOf, List.getElem?_map] at hit
  obtain ⟨f, hf, rfl⟩ := Option.map_eq_some_iff.mp hit
  rcases hleaves with ⟨rfl, hpos⟩ | rfl
  · exact absurd ((hclean k f hf).1 hfault) (Nat.ne_of_gt hpos)
  · exact hold rfl ((hclean k f hf).2 hfault)

/-- **An installation is all or nothing exactly when it does not end at one of the two steps that
leave files behind.** -/
theorem release_all_or_nothing_iff (h : Installable env staging files n.files) (proof : List UInt8) :
    AllOrNothing files proof n (installVerifiedReleaseWithProof env staging (itemsOf files) proof n) ↔
      CleansUp env files n.files := by
  unfold installVerifiedReleaseWithProof
  by_cases hread : env.fault = some .readProof
  · rw [if_pos hread]
    refine iff_of_true (Unchanged.refl files n) fun i f _ => ⟨?_, ?_⟩ <;>
      exact fun hfault => nomatch hread.symm.trans hfault
  by_cases hrecord : env.fault = some .recordProof
  · rw [if_neg hread, if_pos hrecord]
    refine iff_of_true (Unchanged.refl files n) fun i f _ => ⟨?_, ?_⟩ <;>
      exact fun hfault => nomatch hrecord.symm.trans hfault
  rw [if_neg hread, if_neg hrecord]
  have hresult := h.install
  cases hrun : installVerifiedReleaseFiles env staging (itemsOf files) n.files with
  | mk outcome t =>
    rw [hrun] at hresult
    cases outcome with
    | none =>
      obtain ⟨hinstalled, hsteps⟩ := hresult
      refine iff_of_true ⟨?_, rfl⟩ ?_
      · intro f hf
        obtain ⟨g, src, hg, hsrc, hdata⟩ := hinstalled (.of f.1 f.2) (List.mem_map.mpr ⟨f, hf, rfl⟩)
        rw [cleanDirectories_file] at hsrc
        refine ⟨src.data, congrArg (Option.map File.data) hsrc, ?_⟩
        exact (congrArg (Option.map File.data) hg).trans (congrArg some hdata)
      · intro i f hf
        obtain ⟨hmkdir, hunreserve⟩ := hsteps i _ (getElem?_itemsOf hf)
        rw [cleanDirectories_file] at hunreserve
        refine ⟨?_, fun hfault => hunreserve (Env.fails_iff.mpr hfault)⟩
        exact fun hfault => nomatch hmkdir.symm.trans (Env.fails_iff.mpr hfault)
    | some e =>
      obtain ⟨k, step⟩ := e
      obtain ⟨hfails, hcases⟩ := hresult
      dsimp only
      rw [restoreProof_eq]
      rcases hcases with ⟨hleaves, hsame⟩ | ⟨hleaves, hleft, it, hit, hold⟩
      · exact iff_of_true (unchanged_of_cleaned hsame) (cleansUp_of_fault (Env.fails_iff.mp hfails) hleaves)
      · rw [cleanDirectories_file] at hold
        exact iff_of_false (not_unchanged_of_left h.wellFormed hleft)
          (not_cleansUp_of_leaves (Env.fails_iff.mp hfails) hleaves hit hold)

def twoFiles : List (FilePath × FilePath) :=
  [(⟨"/tmp/update", "oboard-agent"⟩, ⟨"/usr/bin", "oboard-agent"⟩),
    (⟨"/tmp/update", "oboard-sb"⟩, ⟨"/opt/oboard", "oboard-sb"⟩)]

def twoFilesNode : Node where
  files :=
    { files := fun p =>
        if p = .file ⟨"/tmp/update", "oboard-agent"⟩ then some ⟨0, [1]⟩
        else if p = .file ⟨"/tmp/update", "oboard-sb"⟩ then some ⟨1, [2]⟩
        else if p = .file ⟨"/usr/bin", "oboard-agent"⟩ then some ⟨2, [0]⟩
        else none
      next := 3 }
  proof := none

def twoFilesEnv (fault : Option Fault) : Env where
  windows := false
  links := fun _ => true
  suffix := fun i _ => String.ofList (List.replicate i '0')
  fault := fault

/-- The directory of the second file cannot be made, and the copy of the first one stays. -/
theorem mkdir_failure_leaves_copy :
    ¬AllOrNothing twoFiles [9] twoFilesNode
      (installVerifiedReleaseWithProof (twoFilesEnv (some (.item 1 .mkdir))) ".oboard-update"
        (itemsOf twoFiles) [9]
        twoFilesNode) := by
  intro h
  have hsame := h.sidecars ⟨"/usr/bin", ".oboard-update", .new, ""⟩ (by decide)
  exact absurd hsame (by decide)

theorem twoFiles_installable (fault : Option Fault) :
    Installable (twoFilesEnv fault) ".oboard-update" twoFiles twoFilesNode.files := by
  refine ⟨?_, ?_, by decide, ?_, ?_⟩
  · intro p f hf
    unfold twoFilesNode at hf ⊢
    dsimp only at hf ⊢
    split_ifs at hf <;> cases hf <;> decide
  · intro f hf
    simp only [twoFiles, List.mem_cons, List.not_mem_nil, or_false] at hf
    rcases hf with rfl | rfl
    · exact ⟨_, rfl⟩
    · exact ⟨_, rfl⟩
  · intro kind i j hij
    have hlength := congrArg String.length hij
    simpa [twoFilesEnv] using hlength
  · intro j f kind hf
    rcases (cleanDirectories_spec ".oboard-update" [] (itemsOf twoFiles) twoFilesNode.files).2
      (.sidecar (sidecar (twoFilesEnv fault) ".oboard-update" j (.of f.1 f.2) kind)) with hsame | ⟨-, hnone⟩
    · rw [hsame]
      rfl
    · exact hnone

/-- The second file cannot be put in place, and the first target has its old file again. -/
theorem failed_commit_is_undone :
    AllOrNothing twoFiles [9] twoFilesNode
      (installVerifiedReleaseWithProof (twoFilesEnv (some (.item 1 .replace))) ".oboard-update"
        (itemsOf twoFiles) [9]
        twoFilesNode) := by
  refine (release_all_or_nothing_iff (twoFiles_installable _) [9]).mpr ?_
  intro i f _
  refine ⟨?_, ?_⟩ <;> exact nofun

end AllOrNothing

end OboardAgent.Release
