import OboardAgent.Lib.Run
import OboardAgent.Users.Store

/-!
# The revision that is installed

Beside the store run the snapshots that have become the current one, and what the next `Restore` may
come up with: the snapshot that was current when the process ended, or the one an interrupted
install had published.

The store keeps its revisions in order by comparing with the current snapshot. That comparison is
void while there is none, and a process has none until `Restore` has run, although its API already
takes installs: such an install may bring an older revision, or other users under the same one, and
overwrites the file. Installs that do not come before their `Restore` are `InTurn`, and then the
revisions are in order.
-/

namespace OboardAgent.Users

open Quota (UserInstallEntry)

/-- The snapshot may take the place of the older one: its revision is higher, or the same with the
same stable content. -/
def Follows (codec : Codec) (s older : UserSnapshot) : Prop :=
  older.revision < s.revision ∨
    (older.revision = s.revision ∧
      userSnapshotContentDigest codec s = userSnapshotContentDigest codec older)

theorem Follows.refl (codec : Codec) (s : UserSnapshot) : Follows codec s s := Or.inr ⟨rfl, rfl⟩

theorem Follows.trans {codec : Codec} {a b c : UserSnapshot} (hab : Follows codec a b)
    (hbc : Follows codec b c) : Follows codec a c := by
  rcases hab with hab | ⟨hab, hab'⟩
  · rcases hbc with hbc | ⟨hbc, -⟩
    · exact Or.inl (lt_trans hbc hab)
    · exact Or.inl (hbc ▸ hab)
  · rcases hbc with hbc | ⟨hbc, hbc'⟩
    · exact Or.inl (hab ▸ hbc)
    · exact Or.inr ⟨hbc.trans hab, hab'.trans hbc'⟩

/-! ## What an install can do -/

namespace RuntimeUsers

variable {codec : Codec} {node : Node} {req : UserInstallRequest} {r : RuntimeUsers}

structure Stays (r : RuntimeUsers) (file : PersistedUsers) (c : Called) : Prop where
  published : c.published = none
  current : c.users.current = r.current
  written : ∃ w state, state.current = r.current ∧ c.file = file.persist w state
  ok : c.outcome = .ok → r.current ≠ none

structure Publishes (codec : Codec) (env : InstallEnv) (r : RuntimeUsers) (file : PersistedUsers)
    (s : UserSnapshot) (c : Called) : Prop where
  published : c.published = some s
  follows : ∀ c₀, r.current = some c₀ → Follows codec s c₀
  written : ∃ state, state.current = r.current ∧
    c.file = (file.persist .done state).persist env.commitWrite { current := some s, commit := .current }
  outcome : (env.commitWrite = .done ∧ c.outcome = .ok ∧ c.users.current = some s) ∨
    ((env.commitWrite = .failed ∨ env.commitWrite = .unsynced) ∧ c.outcome = .error .io ∧
      c.users.current = r.current) ∨
    c.outcome = .died

theorem install_cases (codec : Codec) (node : Node) (env : InstallEnv) (req : UserInstallRequest)
    (r : RuntimeUsers) (file : PersistedUsers) :
    Stays r file (r.install codec node env req file) ∨
      ∃ s, Publishes codec env r file s (r.install codec node env req file) := by
  have h := install_installs codec node env req r file
  generalize r.install codec node env req file = c at h ⊢
  cases h with
  | stays chunks w state outcome hstate hok =>
    exact Or.inl ⟨rfl, rfl, ⟨w, state, hstate, rfl⟩, fun h => absurd h hok⟩
  | same chunks s cur hs hcur hrevision hdigest hup =>
    refine Or.inl ⟨rfl, rfl, ⟨.failed, { current := r.current }, rfl, rfl⟩, fun _ => ?_⟩
    rw [hcur]
    simp
  | stops chunks s live e hs hjudge hpublish =>
    exact Or.inl ⟨rfl, rfl, ⟨.done, _, rfl, rfl⟩, nofun⟩
  | uncommitted chunks s live outcome hs hjudge hpublish hcommit =>
    have hfollows := (admitted_of_judge hjudge).2
    refine Or.inr ⟨s, rfl, hfollows, ⟨_, rfl, rfl⟩, ?_⟩
    rcases Write.ending_cases hcommit with rfl | rfl
    · exact Or.inr (Or.inl ⟨Write.ending_eq_io hcommit, rfl, rfl⟩)
    · exact Or.inr (Or.inr rfl)
  | commits chunks s live hs hjudge hpublish hcommit =>
    have hfollows := (admitted_of_judge hjudge).2
    exact Or.inr ⟨s, rfl, hfollows, ⟨_, rfl, rfl⟩, Or.inl ⟨hcommit, rfl, rfl⟩⟩

end RuntimeUsers

/-! ## Runs -/

/-- A machine with the store on it: its process, the file, the snapshots that have become the
current one (newest first), what the next restore may come up with, and what restores have come up
with, with what they might have. -/
structure World where
  node : Node
  users : RuntimeUsers := {}
  running : Bool := false
  restored : Bool := false
  file : PersistedUsers
  installed : List UserSnapshot := []
  possible : List (Option UserSnapshot)
  restores : List (Option UserSnapshot × List (Option UserSnapshot)) := []

inductive Event where
  | start (node : Node) (live : Live)
  | install (env : InstallEnv) (req : UserInstallRequest)
  | restore (env : RuntimeUsers.RestoreEnv)

namespace World

def called (w : World) (c : Called) : World :=
  match c.outcome with
  | .ok =>
    { w with
      users := c.users, file := c.file
      installed := c.published.toList ++ w.installed
      possible := [c.users.current] }
  | .error _ => { w with users := c.users, file := c.file }
  | .died =>
    { w with
      running := false, file := c.file
      possible := w.possible ++ c.published.toList.map some }

def recovered (w : World) (c : Called) : World :=
  match c.outcome with
  | .ok =>
    { w with
      users := c.users, file := c.file, restored := true
      installed := c.users.current.toList ++ w.installed
      possible := [c.users.current]
      restores := (c.users.current, w.possible) :: w.restores }
  | _ => { w with running := false, file := c.file }

def step (codec : Codec) (w : World) : Event → World
  | .start node live =>
    { w with node := node, users := { live := live }, running := true, restored := false }
  | .install env req =>
    if w.running then w.called (w.users.install codec w.node env req w.file) else w
  | .restore env =>
    if w.running && !w.restored then w.recovered (w.users.restore codec w.node env w.file) else w

/-- A machine with some file, and no process yet. -/
def begin (node : Node) (file : PersistedUsers) : World :=
  { node := node, file := file, possible := [file.current] }

/-- An install does not find the store without a current snapshot while the file still has one that
has to be restored. -/
def InTurn (w : World) : Event → Prop
  | .install _ _ => w.running = true →
      w.restored = true ∨ w.users.current ≠ none ∨ w.file.current = none
  | _ => True

instance InTurn.decidable (w : World) : ∀ e, Decidable (InTurn w e)
  | .install _ _ => inferInstanceAs (Decidable (w.running = true →
      w.restored = true ∨ w.users.current ≠ none ∨ w.file.current = none))
  | .start _ _ | .restore _ => .isTrue trivial

/-- No commit fails after it has replaced the file. -/
def Settles (_ : World) : Event → Prop
  | .install env _ => env.commitWrite ≠ .unsynced
  | _ => True

instance Settles.decidable (w : World) : ∀ e, Decidable (Settles w e)
  | .install env _ => inferInstanceAs (Decidable (env.commitWrite ≠ .unsynced))
  | .start _ _ | .restore _ => .isTrue trivial

/-! ## The revisions are in order -/

def Covers (codec : Codec) (current : Option UserSnapshot) (l : List UserSnapshot) : Prop :=
  ∀ b ∈ l, ∃ d, current = some d ∧ Follows codec d b

structure Ordered (codec : Codec) (w : World) : Prop where
  inFile : Covers codec w.file.current w.installed
  inMemory : w.running = true → ∀ c, w.users.current = some c → w.installed.head? = some c
  restored : w.running = true → w.restored = true → w.users.current = none → w.installed = []
  inOrder : w.installed.Pairwise (Follows codec)

variable {codec : Codec} {w : World}

theorem ordered_begin (codec : Codec) (node : Node) (file : PersistedUsers) :
    Ordered codec (begin node file) where
  inFile b hb := absurd hb List.not_mem_nil
  inMemory hrunning := absurd hrunning (by simp [begin])
  restored hrunning := absurd hrunning (by simp [begin])
  inOrder := List.Pairwise.nil

theorem Ordered.covers_current (h : Ordered codec w) (hrunning : w.running = true)
    (hturn : w.restored = true ∨ w.users.current ≠ none ∨ w.file.current = none) :
    Covers codec w.users.current w.installed := by
  intro b hb
  cases hc : w.users.current with
  | some c =>
    refine ⟨c, rfl, ?_⟩
    have hhead := h.inMemory hrunning c hc
    have horder := h.inOrder
    cases hl : w.installed with
    | nil =>
      rw [hl] at hb
      cases hb
    | cons x l =>
      rw [hl] at hb hhead horder
      obtain rfl := Option.some.inj hhead
      rcases List.mem_cons.mp hb with rfl | hmem
      · exact Follows.refl codec b
      · exact (List.pairwise_cons.mp horder).1 b hmem
  | none =>
    -- With nothing current, nothing has been installed yet.
    rcases hturn with hrestored | hsome | hfile
    · rw [h.restored hrunning hrestored hc] at hb
      cases hb
    · exact absurd hc hsome
    · obtain ⟨d, hd, -⟩ := h.inFile b hb
      cases hfile.symm.trans hd

variable {l : List UserSnapshot}

theorem Covers.persist {file state : PersistedUsers} (wr : Write)
    (hfile : Covers codec file.current l) (hstate : Covers codec state.current l) :
    Covers codec (file.persist wr state).current l := by
  exact PersistedUsers.persist_of (P := fun f => Covers codec f.current l) wr hfile hstate

theorem Covers.cons {s : UserSnapshot} (h : Covers codec (some s) l) :
    Covers codec (some s) (s :: l) := by
  exact List.forall_mem_cons.mpr ⟨⟨s, rfl, Follows.refl codec s⟩, h⟩

theorem Covers.pairwise {s : UserSnapshot} (h : Covers codec (some s) l)
    (hl : l.Pairwise (Follows codec)) : (s :: l).Pairwise (Follows codec) := by
  refine List.Pairwise.cons (fun b hb => ?_) hl
  obtain ⟨d, hd, hfollows⟩ := h b hb
  exact Option.some.inj hd ▸ hfollows

theorem Covers.follow {current : Option UserSnapshot} {s : UserSnapshot}
    (h : Covers codec current l) (hs : ∀ c, current = some c → Follows codec s c) :
    Covers codec (some s) l := by
  intro b hb
  obtain ⟨d, hd, hfollows⟩ := h b hb
  exact ⟨s, rfl, (hs d hd).trans hfollows⟩

theorem Covers.eq_nil (h : Covers codec none l) : l = [] :=
  List.eq_nil_iff_forall_not_mem.mpr fun b hb => by simpa using h b hb

theorem Ordered.install (h : Ordered codec w) (env : InstallEnv) (req : UserInstallRequest)
    (hturn : InTurn w (.install env req)) : Ordered codec (w.step codec (.install env req)) := by
  simp only [step]
  split
  · rename_i hrunning
    have hcovers := h.covers_current hrunning (hturn hrunning)
    have hcases := RuntimeUsers.install_cases codec w.node env req w.users w.file
    generalize w.users.install codec w.node env req w.file = c at hcases ⊢
    rcases hcases with hstays | ⟨s, hpub⟩
    · obtain ⟨wr, state, hstate, hwritten⟩ := hstays.written
      have hfile : Covers codec c.file.current w.installed := by
        rw [hwritten]
        exact h.inFile.persist wr (hstate ▸ hcovers)
      simp only [called, hstays.published, Option.toList_none, List.nil_append]
      split
      case h_3 => exact ⟨hfile, nofun, nofun, h.inOrder⟩
      all_goals exact ⟨hfile, fun _ => hstays.current ▸ h.inMemory hrunning,
        fun _ => hstays.current ▸ h.restored hrunning, h.inOrder⟩
    · obtain ⟨state, hstate, hwritten⟩ := hpub.written
      have hs : Covers codec (some s) w.installed := hcovers.follow hpub.follows
      have hfile : Covers codec c.file.current w.installed := by
        rw [hwritten]
        exact (h.inFile.persist .done (hstate ▸ hcovers)).persist _ hs
      simp only [called, hpub.published, Option.toList_some, List.singleton_append]
      rcases hpub.outcome with ⟨hdone, hok, hcurrent⟩ | ⟨-, herror, hcurrent⟩ | hdied
      · rw [hok]
        refine ⟨?_, fun _ d hd => ?_, fun _ _ hno => ?_, hs.pairwise h.inOrder⟩
        · dsimp only
          rw [hwritten, hdone]
          exact hs.cons
        · exact hcurrent.symm.trans hd
        · cases hcurrent.symm.trans hno
      · rw [herror]
        exact ⟨hfile, fun _ => hcurrent ▸ h.inMemory hrunning,
          fun _ => hcurrent ▸ h.restored hrunning, h.inOrder⟩
      · rw [hdied]
        exact ⟨hfile, nofun, nofun, h.inOrder⟩
  · exact h

theorem Ordered.restore (h : Ordered codec w) (env : RuntimeUsers.RestoreEnv) :
    Ordered codec (w.step codec (.restore env)) := by
  simp only [step]
  split
  · rename_i hrunning
    have hrestores := RuntimeUsers.restore_cases codec w.node env w.users w.file
    generalize w.users.restore codec w.node env w.file = c at hrestores ⊢
    have hsame := hrestores.fileCurrent
    rcases hrestores.outcome with hdied | ⟨hok, hcurrent, -⟩
    · simp only [recovered, hdied]
      exact ⟨hsame ▸ h.inFile, nofun, nofun, h.inOrder⟩
    · simp only [recovered, hok]
      cases hfile : w.file.current with
      | some s =>
        rw [hfile, Option.some_or] at hcurrent
        have hs : Covers codec (some s) w.installed := hfile ▸ h.inFile
        rw [hcurrent]
        refine ⟨?_, fun _ d hd => hcurrent.symm.trans hd, fun _ _ hno => ?_, hs.pairwise h.inOrder⟩
        · dsimp only
          rw [hsame, hfile]
          exact hs.cons
        · cases hcurrent.symm.trans hno
      | none =>
        -- Nothing is in the file, so nothing has been installed, and nothing is current.
        have hnone : w.installed = [] := (hfile ▸ h.inFile : Covers codec none _).eq_nil
        have hempty : w.users.current = none := by
          refine Option.eq_none_iff_forall_ne_some.mpr fun d hd => ?_
          have hhead := h.inMemory (Bool.and_eq_true_iff.mp hrunning).1 d hd
          rw [hnone] at hhead
          cases hhead
        rw [hfile, Option.none_or, hempty] at hcurrent
        rw [hcurrent, hnone]
        exact ⟨nofun, fun _ d hd => (nomatch hcurrent.symm.trans hd), fun _ _ _ => rfl, List.Pairwise.nil⟩
  · exact h

theorem Ordered.step (h : Ordered codec w) {e : Event} (hturn : InTurn w e) :
    Ordered codec (w.step codec e) := by
  cases e with
  | start node live =>
    exact ⟨h.inFile, nofun, nofun, h.inOrder⟩
  | install env req => exact h.install env req hturn
  | restore env => exact h.restore env

/-! ## What a restore comes up with -/

structure Answers (w : World) : Prop where
  inFile : w.file.current ∈ w.possible
  inMemory : w.running = true → (w.restored = true ∨ w.users.current ≠ none) →
    w.possible = [w.users.current]
  restores : ∀ x ∈ w.restores, x.1 ∈ x.2

theorem answers_begin (node : Node) (file : PersistedUsers) : Answers (begin node file) where
  inFile := List.mem_singleton_self _
  inMemory hrunning := absurd hrunning (by simp [begin])
  restores x hx := absurd hx List.not_mem_nil

theorem Answers.current_mem (h : Answers w) (hrunning : w.running = true)
    (hturn : w.restored = true ∨ w.users.current ≠ none ∨ w.file.current = none) :
    w.users.current ∈ w.possible := by
  by_cases hknown : w.restored = true ∨ w.users.current ≠ none
  · rw [h.inMemory hrunning hknown]
    exact List.mem_singleton_self _
  · have hnone : w.users.current = none := not_not.mp fun hsome => hknown (Or.inr hsome)
    rcases hturn with hrestored | hsome | hfile
    · exact absurd (Or.inl hrestored) hknown
    · exact absurd (Or.inr hsome) hknown
    · rw [hnone, ← hfile]
      exact h.inFile

theorem Answers.install (h : Answers w) (env : InstallEnv) (req : UserInstallRequest)
    (hturn : InTurn w (.install env req)) (hsettles : Settles w (.install env req)) :
    Answers (w.step codec (.install env req)) := by
  simp only [step]
  split
  · rename_i hrunning
    have hcurrent := h.current_mem hrunning (hturn hrunning)
    have hcases := RuntimeUsers.install_cases codec w.node env req w.users w.file
    generalize w.users.install codec w.node env req w.file = c at hcases ⊢
    rcases hcases with hstays | ⟨s, hpub⟩
    · obtain ⟨wr, state, hstate, hwritten⟩ := hstays.written
      have hfile : c.file.current ∈ w.possible := by
        rw [hwritten]
        exact PersistedUsers.persist_of (P := (·.current ∈ w.possible)) wr h.inFile (hstate ▸ hcurrent)
      simp only [called, hstays.published]
      split
      · rename_i hok
        have hpossible := h.inMemory hrunning (Or.inr (hstays.ok hok))
        rw [hpossible] at hfile
        exact ⟨by rw [hstays.current]; exact hfile, fun _ _ => rfl, h.restores⟩
      · exact ⟨hfile, fun _ => hstays.current ▸ h.inMemory hrunning, h.restores⟩
      · exact ⟨List.mem_append_left _ hfile, nofun, h.restores⟩
    · obtain ⟨state, hstate, hwritten⟩ := hpub.written
      simp only [called, hpub.published]
      rcases hpub.outcome with ⟨hdone, hok, hnew⟩ | ⟨hfailed, herror, hsame⟩ | hdied
      · rw [hok]
        refine ⟨?_, fun _ _ => rfl, h.restores⟩
        dsimp only
        rw [hwritten, hdone, hnew]
        exact List.mem_singleton_self _
      · rw [herror]
        refine ⟨?_, fun _ => hsame ▸ h.inMemory hrunning, h.restores⟩
        dsimp only
        rcases hfailed with hfailed | hunsynced
        · rw [hwritten, hfailed]
          exact hstate ▸ hcurrent
        · exact absurd hunsynced hsettles
      · rw [hdied]
        refine ⟨?_, nofun, h.restores⟩
        dsimp only
        rw [hwritten]
        refine PersistedUsers.persist_of (P := (·.current ∈ w.possible ++ [some s])) env.commitWrite ?_ ?_
        · exact List.mem_append_left _ (hstate ▸ hcurrent)
        · exact List.mem_append_right _ (List.mem_singleton_self _)
  · exact h

theorem Answers.restore (h : Answers w) (env : RuntimeUsers.RestoreEnv) :
    Answers (w.step codec (.restore env)) := by
  simp only [step]
  split
  · rename_i hrunning
    have hruns : w.running = true := (Bool.and_eq_true_iff.mp hrunning).1
    have hrestores := RuntimeUsers.restore_cases codec w.node env w.users w.file
    generalize w.users.restore codec w.node env w.file = c at hrestores ⊢
    have hsame := hrestores.fileCurrent
    rcases hrestores.outcome with hdied | ⟨hok, hcurrent, -⟩
    · simp only [recovered, hdied]
      exact ⟨hsame ▸ h.inFile, nofun, h.restores⟩
    · have hnew : c.users.current = w.file.current := by
        rw [hcurrent]
        cases hfile : w.file.current with
        | some s => rfl
        | none =>
          rw [Option.none_or]
          by_contra hsome
          have hpossible := h.inMemory hruns (Or.inr hsome)
          have hmem := h.inFile
          rw [hpossible, hfile, List.mem_singleton] at hmem
          exact hsome hmem.symm
      simp only [recovered, hok]
      refine ⟨?_, fun _ _ => rfl, fun x hx => ?_⟩
      · dsimp only
        rw [hsame, hnew]
        exact List.mem_singleton_self _
      · rcases List.mem_cons.mp hx with rfl | hx
        · rw [hnew]
          exact h.inFile
        · exact h.restores x hx
  · exact h

theorem Answers.step (h : Answers w) {e : Event} (hturn : InTurn w e) (hsettles : Settles w e) :
    Answers (w.step codec e) := by
  cases e with
  | start node live =>
    refine ⟨h.inFile, fun _ hknown => ?_, h.restores⟩
    exact absurd hknown (by simp [World.step])
  | install env req => exact h.install env req hturn hsettles
  | restore env => exact h.restore env

/-- **Revisions are in order, over every start.** In every run whose installs do not come before
their restore, the snapshots that have become current are in order: a later one has a higher
revision, or the same one with the same stable content (if the hash has no collisions). And if no
commit fails after it has replaced the file, every restore comes up with the snapshot that was
current before, or with the one that an interrupted install had published. -/
theorem revisions_in_order (codec : Codec) (node : Node) (file : PersistedUsers) (es : List Event)
    (hturn : Run.Along (World.step codec) InTurn (World.begin node file) es) :
    (∀ c, (Run.exec (World.step codec) (World.begin node file) es).running = true →
      (Run.exec (World.step codec) (World.begin node file) es).users.current = some c →
      (Run.exec (World.step codec) (World.begin node file) es).installed.head? = some c) ∧
    (Run.exec (World.step codec) (World.begin node file) es).installed.Pairwise
      (fun newer older => older.revision < newer.revision ∨ (older.revision = newer.revision ∧
        (Function.Injective codec.hash → stableContent newer = stableContent older))) ∧
    (Run.Along (World.step codec) Settles (World.begin node file) es →
      ∀ x ∈ (Run.exec (World.step codec) (World.begin node file) es).restores, x.1 ∈ x.2) := by
  have hordered : Ordered codec (Run.exec (World.step codec) (World.begin node file) es) :=
    Run.invariant (fun _ _ hw he => hw.step he) (ordered_begin codec node file) hturn
  refine ⟨fun c hrunning hc => hordered.inMemory hrunning c hc, ?_, fun hsettles => ?_⟩
  · refine hordered.inOrder.imp fun hfollows => ?_
    rcases hfollows with hlt | ⟨heq, hcontent⟩
    · exact Or.inl hlt
    · exact Or.inr ⟨heq, fun hinjective => hinjective hcontent⟩
  · have hanswers : Answers (Run.exec (World.step codec) (World.begin node file) es) :=
      Run.invariant (fun _ _ hw he => hw.step he.1 he.2) (answers_begin node file)
        (hturn.and hsettles)
    exact hanswers.restores

def oneInbound : Node :=
  { declared := ["in-1"]
    capability := fun tag => if tag = "in-1" then some .vless else none
    hasOutbound := fun tag => tag = "direct"
    hasSelector := fun _ => false
    validPSK := fun _ _ => true }

def fullInstall (revision : Int) : UserInstallRequest :=
  { scope := ["in-1"], usersRevision := revision, usersDigest := "users-" ++ toString revision
    mode := .full
    entries := [{ inboundTag := "in-1", authUser := "alice", authorizationKey := "key"
                  credential := { uuid := "11111111-1111-1111-1111-111111111111" }
                  routeOutbound := "direct" }] }

def revisions (w : World) : List Int := w.installed.map (·.revision)

def restoredRevisions (w : World) : List (Option Int × List (Option Int)) :=
  w.restores.map fun x => (x.1.map (·.revision), x.2.map (Option.map (·.revision)))

/-- A start with its restore. -/
def boot : List Event := [.start oneInbound {}, .restore {}]

def interrupted : List Event :=
  boot ++ [.install {} (fullInstall 1), .install { commitWrite := .diedAfter } (fullInstall 2)] ++ boot ++
    [.install {} (fullInstall 3)]

theorem interrupted_in_order :
    revisions (Run.exec (World.step showRevision) (World.begin oneInbound {}) interrupted) = [3, 2, 1] ∧
    ∀ x ∈ (Run.exec (World.step showRevision) (World.begin oneInbound {}) interrupted).restores,
      x.1 ∈ x.2 :=
  ⟨by decide +kernel,
    (revisions_in_order showRevision oneInbound {} interrupted (by decide +kernel)).2.2
      (by decide +kernel)⟩

def beforeRestore : List Event :=
  boot ++ [.install {} (fullInstall 5), .start oneInbound {}, .install {} (fullInstall 3)]

def unsyncedCommit : List Event :=
  boot ++ [.install {} (fullInstall 1), .install { commitWrite := .unsynced } (fullInstall 2),
    .install { candidateWrite := .diedBefore } (fullInstall 3)] ++ boot

/-- Revision 3 takes the place of revision 5; and a restore comes up with revision 2, where revision
1 was current and the install of revision 3 was interrupted. -/
theorem older_revision_installed_and_other_restored :
    revisions (Run.exec (World.step showRevision) (World.begin oneInbound {}) beforeRestore) = [3, 5] ∧
    restoredRevisions (Run.exec (World.step showRevision) (World.begin oneInbound {}) unsyncedCommit)
      = [(some 2, [some 1]), (none, [none])] := by
  decide +kernel

end World

end OboardAgent.Users
