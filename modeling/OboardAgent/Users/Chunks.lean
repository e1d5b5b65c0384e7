import OboardAgent.Lib.Gather
import OboardAgent.Lib.Run
import OboardAgent.Users.Store

/-!
# A users install in chunks

A large install comes in chunks, in any order and with repeats. The kernel keeps the parts that it
has, and writes them to its file after each of them; with the last one it does what it would do with
the whole request. As long as the kernel runs, the chunks are the whole.

After a restart in between, the parts that are missing come back from the file as `null`: every part
is there then.
-/

namespace OboardAgent.Users
namespace Chunked

open Gather (arrived)
open Quota (UserInstallEntry)

section Split

variable (codec : Codec) (req : UserInstallRequest) (parts : List Part) (sha : Nat → String)

def chunkOf (i : Nat) : UserInstallRequest :=
  { req with
    chunk := some ⟨i, parts.length, sha i⟩
    entries := (parts.getD i .null).entries
    entriesNil := parts.getD i .null = .null }

/-- The parts are the entries of the request, which is within the limits, and the hashes are
theirs. -/
structure Splits : Prop where
  whole : req.chunk = none
  entries : parts.flatMap Part.entries = req.entries
  nonempty : 1 ≤ parts.length
  few : parts.length ≤ maxUserInstallChunks
  hashed : ∀ i part, parts[i]? = some part → sha i ≠ "" ∧
    (codec.chunkHash part = GoStrings.toLower (sha i) ∨ codec.chunkHash part = sha i)
  entriesFit : req.entries.length ≤ maxUserInstallEntries
  bytesFit : (parts.map codec.chunkBytes).sum ≤ maxUserInstallBytes

def bufferOf (d : List Nat) : ChunkBuffer :=
  { revision := req.usersRevision, digest := req.usersDigest, mode := req.mode, base := req.baseRevision
    scope := req.scope, total := parts.length, parts := arrived parts d }

end Split

variable {codec : Codec} {node : Node} {req : UserInstallRequest} {parts : List Part} {sha : Nat → String}
  {i : Nat} {part : Part} {d : List Nat}

/-! ## One chunk -/

theorem chunkOf_chunk : (chunkOf req parts sha i).chunk = some ⟨i, parts.length, sha i⟩ := rfl

/-- The buffers that a chunk may find: none, or one with some of the chunks. -/
def Kept (req : UserInstallRequest) (parts : List Part) (d : List Nat) (chunks : Option ChunkBuffer) : Prop :=
  (chunks = none ∧ d = []) ∨ chunks = some (bufferOf req parts d)

theorem Kept.bufferFor {chunks : Option ChunkBuffer} (h : Kept req parts d chunks) :
    bufferFor (chunkOf req parts sha i) ⟨i, parts.length, sha i⟩ chunks = bufferOf req parts d := by
  rcases h with ⟨rfl, rfl⟩ | rfl
  · unfold Users.bufferFor bufferOf
    rw [Gather.arrived_nil]
    rfl
  · exact if_pos ⟨rfl, rfl, rfl⟩

section

variable (h : Splits codec req parts sha) (hp : parts[i]? = some part)

include hp in
theorem chunkOf_payload : (chunkOf req parts sha i).payload = part := by
  unfold UserInstallRequest.payload chunkOf
  rw [List.getD_eq_getElem?_getD, hp]
  cases part with
  | null => rfl
  | list entries => rfl

include hp in
theorem chunkOf_entries : (chunkOf req parts sha i).entries = part.entries := by
  unfold chunkOf
  rw [List.getD_eq_getElem?_getD, hp]
  rfl

include h hp

theorem Splits.entries_le : part.entries.length ≤ req.entries.length := by
  have hle := Gather.sum_others_le (fun p : Part => p.entries.length) (Gather.arrived_of parts []) hp
  rw [← h.entries, List.length_flatMap]
  omega

/-- **A chunk is well formed exactly when the request is.** -/
theorem Splits.validate : validateUserInstall (chunkOf req parts sha i) = validateUserInstall req := by
  have hi : i < parts.length := (List.getElem?_eq_some_iff.mp hp).1
  have hfew := h.few
  have hle : (chunkOf req parts sha i).entries.length ≤ maxUserInstallEntries := by
    rw [chunkOf_entries hp]
    exact Nat.le_trans (h.entries_le hp) h.entriesFit
  have hchunk : (1 ≤ (parts.length : Int) && (parts.length : Int) ≤ maxUserInstallChunks && 0 ≤ (i : Int) &&
      (i : Int) < parts.length && sha i ≠ "") = true := by
    have hsha := (h.hashed i part hp).1
    simp only [Bool.and_eq_true, decide_eq_true_eq]
    refine ⟨⟨⟨⟨?_, ?_⟩, ?_⟩, ?_⟩, hsha⟩ <;> omega
  unfold validateUserInstall
  rw [h.whole, decide_eq_true hle, decide_eq_true h.entriesFit, chunkOf_chunk]
  dsimp only
  rw [hchunk]
  rfl

/-- **What the kernel does with a chunk**: it is kept, and with the last one the entries are those
of the request. -/
theorem Splits.acceptChunk {chunks : Option ChunkBuffer} (hkept : Kept req parts d chunks) :
    acceptChunk codec (chunkOf req parts sha i) ⟨i, parts.length, sha i⟩ chunks =
      (some (bufferOf req parts (i :: d)),
        .ok (if (∀ k < parts.length, k ∈ i :: d) then some req.entries else none)) := by
  have htotal : ¬¬(1 ≤ (parts.length : Int) ∧ (parts.length : Int) ≤ maxUserInstallChunks) := by
    have hfew := h.few
    have hsome := h.nonempty
    rw [not_not]
    omega
  have hhash : ¬(codec.chunkHash part ≠ GoStrings.toLower (sha i) ∧ codec.chunkHash part ≠ sha i) := by
    rintro ⟨hlower, hsame⟩
    exact ((h.hashed i part hp).2).elim hlower hsame
  have hsame : ¬((arrived parts d)[i]?.join.any (· ≠ part)) = true := by
    rw [Gather.getElem?_arrived, hp]
    by_cases hi : i ∈ d
    · simp [hi]
    · simp [hi]
  have hlimits : ¬(maxUserInstallBytes < codec.chunkBytes part +
        ((((arrived parts d).eraseIdx i).filterMap id).map codec.chunkBytes).sum ∨
      maxUserInstallEntries < part.entries.length +
        ((((arrived parts d).eraseIdx i).filterMap id).map (·.entries.length)).sum) := by
    have hbytes := Gather.sum_others_le codec.chunkBytes (Gather.arrived_of parts d) hp
    have hentries := Gather.sum_others_le (fun p : Part => p.entries.length) (Gather.arrived_of parts d) hp
    have hfit := h.entriesFit
    have hbfit := h.bytesFit
    rw [← h.entries, List.length_flatMap] at hfit
    omega
  unfold Users.acceptChunk
  rw [if_neg htotal, chunkOf_payload hp, if_neg hhash]
  dsimp only
  rw [hkept.bufferFor]
  have hmatch : ¬((bufferOf req parts d).mode ≠ (chunkOf req parts sha i).mode ∨
      (bufferOf req parts d).base ≠ (chunkOf req parts sha i).baseRevision ∨
      uniqueSorted (bufferOf req parts d).scope ≠ uniqueSorted (chunkOf req parts sha i).scope) := by
    rintro (hne | hne | hne) <;> exact hne rfl
  have hparts : (bufferOf req parts d).parts = arrived parts d := rfl
  rw [if_neg hmatch, Int.toNat_natCast, hparts, if_neg hsame, chunkOf_entries hp, if_neg hlimits,
    Gather.arrived_set hp]
  by_cases hall : ∀ k < parts.length, k ∈ i :: d
  · have hassembled : ((arrived parts (i :: d)).filterMap id).flatMap Part.entries = req.entries := by
      rw [Gather.arrived_all hall, h.entries]
    rw [if_pos (Gather.all_arrived.mpr hall), hassembled, if_neg (Nat.not_lt.mpr h.entriesFit), if_pos hall]
    rfl
  · rw [if_neg (mt Gather.all_arrived.mp hall), if_neg hall]
    rfl

end

/-! ## One call -/

/-- The outcome of two calls is the same: their answer, what is installed and published, and the
file. -/
structure SameOutcome (a b : Called) : Prop where
  outcome : a.outcome = b.outcome
  current : a.users.current = b.users.current
  live : a.users.live = b.users.live
  published : a.published = b.published
  file : a.file = b.file

/-- What `Install` does with a snapshot that is complete. -/
def finish (codec : Codec) (node : Node) (env : InstallEnv) (req : UserInstallRequest) (r : RuntimeUsers)
    (file : PersistedUsers) (s : Except InstallError UserSnapshot) : Called :=
  match s with
  | .error e => ⟨r, file, .error e, none⟩
  | .ok s =>
    match r.judge codec node req s with
    | none => ⟨r, file, .ok, none⟩
    | some (.error e) => ⟨r, file, .error e, none⟩
    | some (.ok ()) => r.commit node env s file

theorem finish_same (codec : Codec) (node : Node) (env : InstallEnv) {req' : UserInstallRequest}
    (hmode : req.mode = req'.mode) (r : RuntimeUsers) (chunks chunks' : Option ChunkBuffer)
    (file : PersistedUsers) (s : Except InstallError UserSnapshot) :
    SameOutcome (finish codec node env req { r with chunks := chunks } file s)
      (finish codec node env req' { r with chunks := chunks' } file s) := by
  cases s with
  | error e => exact ⟨rfl, rfl, rfl, rfl, rfl⟩
  | ok s =>
    have hjudge : RuntimeUsers.judge codec node req s { r with chunks := chunks } =
        RuntimeUsers.judge codec node req' s { r with chunks := chunks' } := by
      unfold RuntimeUsers.judge
      rw [hmode]
    unfold finish
    dsimp only
    rw [hjudge]
    cases RuntimeUsers.judge codec node req' s { r with chunks := chunks' } with
    | none => exact ⟨rfl, rfl, rfl, rfl, rfl⟩
    | some verdict =>
      cases verdict with
      | error e => exact ⟨rfl, rfl, rfl, rfl, rfl⟩
      | ok u =>
        unfold RuntimeUsers.commit
        dsimp only
        cases env.candidateWrite.ending with
        | some outcome => exact ⟨rfl, rfl, rfl, rfl, rfl⟩
        | none =>
          dsimp only
          cases r.live.publish node env.publication s with
          | mk live failed =>
            cases failed with
            | some e => exact ⟨rfl, rfl, rfl, rfl, rfl⟩
            | none =>
              dsimp only
              cases env.commitWrite.ending with
              | some outcome => exact ⟨rfl, rfl, rfl, rfl, rfl⟩
              | none => exact ⟨rfl, rfl, rfl, rfl, rfl⟩

variable {env : InstallEnv} {file : PersistedUsers} {r : RuntimeUsers}

theorem install_invalid (h : validateUserInstall req = false) :
    r.install codec node env req file = ⟨r, file, .error .illegal, none⟩ := by
  unfold RuntimeUsers.install RuntimeUsers.prepare
  rw [h]
  rfl

theorem install_whole (h : validateUserInstall req = true) (hwhole : req.chunk = none) :
    r.install codec node env req file = finish codec node env req r file
      (buildSnapshot codec req req.entries r.current) := by
  unfold RuntimeUsers.install RuntimeUsers.prepare
  rw [h, hwhole]
  cases buildSnapshot codec req req.entries r.current with
  | error e => rfl
  | ok s => rfl

section

variable (h : Splits codec req parts sha) (hp : parts[i]? = some part)
include h hp

theorem Splits.install_kept (hvalid : validateUserInstall req = true) (hkept : Kept req parts d r.chunks)
    (hmissing : ¬∀ k < parts.length, k ∈ i :: d) :
    r.install codec node env (chunkOf req parts sha i) file =
      ⟨{ r with chunks := some (bufferOf req parts (i :: d)) },
        file.persist env.chunkWrite
          { current := r.current, chunks := some (bufferOf req parts (i :: d)), commit := .chunks },
        env.chunkWrite.ending.getD (.error .incomplete), none⟩ := by
  have haccept := h.acceptChunk hp hkept
  rw [if_neg hmissing] at haccept
  unfold RuntimeUsers.install RuntimeUsers.prepare
  rw [h.validate hp, hvalid, chunkOf_chunk]
  dsimp only
  rw [haccept]
  rfl

theorem Splits.install_complete (hvalid : validateUserInstall req = true) (hkept : Kept req parts d r.chunks)
    (hall : ∀ k < parts.length, k ∈ i :: d) :
    r.install codec node env (chunkOf req parts sha i) file =
      finish codec node env (chunkOf req parts sha i)
        { r with chunks := some (bufferOf req parts (i :: d)) } file
        (buildSnapshot codec req req.entries r.current) := by
  have haccept := h.acceptChunk hp hkept
  rw [if_pos hall] at haccept
  have hbuild : buildSnapshot codec (chunkOf req parts sha i) req.entries r.current =
      buildSnapshot codec req req.entries r.current := rfl
  unfold RuntimeUsers.install RuntimeUsers.prepare
  rw [h.validate hp, hvalid, chunkOf_chunk]
  dsimp only
  rw [haccept]
  dsimp only
  rw [hbuild]
  cases buildSnapshot codec req req.entries r.current with
  | error e => rfl
  | ok s => rfl

/-- **The last missing chunk has the outcome of the whole request.** -/
theorem Splits.same_outcome (env : InstallEnv) (file : PersistedUsers)
    (hkept : validateUserInstall req = true → Kept req parts d r.chunks)
    (hall : ∀ k < parts.length, k ∈ i :: d) :
    SameOutcome (r.install codec node env (chunkOf req parts sha i) file)
      ({ r with chunks := none }.install codec node env req file) := by
  cases hvalid : validateUserInstall req with
  | false =>
    rw [install_invalid ((h.validate hp).trans hvalid), install_invalid hvalid]
    exact ⟨rfl, rfl, rfl, rfl, rfl⟩
  | true =>
    rw [h.install_complete hp hvalid (hkept hvalid) hall, install_whole hvalid h.whole]
    exact finish_same codec node env rfl r _ _ file _

end

/-! ## Runs -/

inductive Event where
  | deliver (i : Nat) (env : InstallEnv)
  | restart (live : Live) (env : RuntimeUsers.RestoreEnv)

/-- The store and its file, the chunks that have come, and what was installed. -/
structure World where
  users : RuntimeUsers
  file : PersistedUsers
  delivered : List Nat := []
  published : List UserSnapshot := []

/-- After the call for a chunk. -/
def World.after (w : World) (i : Nat) (c : Called) : World :=
  ⟨c.users, c.file, i :: w.delivered, w.published ++ c.published.toList⟩

def step (codec : Codec) (node : Node) (req : UserInstallRequest) (parts : List Part)
    (sha : Nat → String) (w : World) :
    Event → World
  | .deliver i env => w.after i (w.users.install codec node env (chunkOf req parts sha i) w.file)
  | .restart live env =>
    let c := ({ live := live } : RuntimeUsers).restore codec node env w.file
    { w with users := c.users, file := c.file }

/-- The events that the runs are about: a chunk of the install comes and the file can be written;
the kernel comes up again. -/
def Delivers (codec : Codec) (node : Node) (parts : List Part) (w : World) : Event → Prop
  | .deliver i env => i < parts.length ∧ env.chunkWrite = .done
  | .restart live env => (({ live := live } : RuntimeUsers).restore codec node env w.file).outcome = .ok

/-- The kernel does not restart while it has some of the chunks but not all. -/
def Unbroken (w : World) : Event → Prop
  | .deliver _ _ => True
  | .restart _ _ => ∀ b, w.users.chunks = some b → b.parts.all Option.isSome = true

/-- Before the first chunk. -/
structure Start (w : World) : Prop where
  chunks : w.users.chunks = none
  file : w.file.current = w.users.current
  fileChunks : w.file.chunks = none
  delivered : w.delivered = []
  published : w.published = []

structure Waiting (req : UserInstallRequest) (parts : List Part) (before : Option UserSnapshot)
    (w : World) : Prop where
  current : w.users.current = before
  file : w.file.current = before
  published : w.published = []
  invalid : validateUserInstall req = false → w.users.chunks = none ∧ w.file.chunks = none
  valid : validateUserInstall req = true → Kept req parts w.delivered w.users.chunks
  fileChunks : w.users.chunks = none → w.file.chunks = none

theorem Start.waiting {w : World} (h : Start w) : Waiting req parts w.users.current w :=
  ⟨rfl, h.file, h.published, fun _ => ⟨h.chunks, h.fileChunks⟩, fun _ => .inl ⟨h.chunks, h.delivered⟩,
    fun _ => h.fileChunks⟩

theorem restore_without_chunks {live : Live} {env : RuntimeUsers.RestoreEnv} {c : Called}
    (hc : ({ live := live } : RuntimeUsers).restore codec node env file = c)
    (hchunks : file.chunks = none) (hok : c.outcome = .ok) :
    c.users.current = file.current ∧ c.users.chunks = none ∧ c.file.current = file.current ∧
      c.file.chunks = none := by
  have hrestores := RuntimeUsers.restore_cases codec node env { live := live } file
  rw [hc] at hrestores
  have hrestore : (RuntimeUsers.restoreChunks codec file none).1 = none := by
    unfold RuntimeUsers.restoreChunks
    rw [hchunks]
    rfl
  rcases hrestores.outcome with hdied | ⟨-, hcurrent, hkept⟩
  · cases hok.symm.trans hdied
  · exact ⟨hcurrent.trans (Option.or_none ..), hkept.trans hrestore, hrestores.fileCurrent,
      hrestores.fileChunks hchunks⟩

section Runs

variable {w : World} {before : Option UserSnapshot}

theorem Waiting.deliver (h : Waiting req parts before w) (hsplit : Splits codec req parts sha)
    (hp : parts[i]? = some part) {env : InstallEnv} (hwrite : env.chunkWrite = .done)
    (hmissing : ¬∀ k < parts.length, k ∈ i :: w.delivered) :
    Waiting req parts before (step codec node req parts sha w (.deliver i env)) := by
  change Waiting req parts before
    (w.after i (w.users.install codec node env (chunkOf req parts sha i) w.file))
  cases hvalid : validateUserInstall req with
  | false =>
    obtain ⟨hchunks, hfile⟩ := h.invalid hvalid
    rw [install_invalid ((hsplit.validate hp).trans hvalid)]
    refine ⟨h.current, h.file, ?_, fun _ => ⟨hchunks, hfile⟩, ?_, fun _ => hfile⟩
    · exact congrArg (· ++ []) h.published
    · exact fun hyes => nomatch hvalid.symm.trans hyes
  | true =>
    rw [hsplit.install_kept hp hvalid (h.valid hvalid) hmissing, hwrite]
    refine ⟨h.current, h.current, congrArg (· ++ []) h.published, ?_, fun _ => .inr rfl, ?_⟩
    · exact fun hno => nomatch hvalid.symm.trans hno
    · exact nofun

theorem Waiting.restart (h : Waiting req parts before w) (hchunks : w.users.chunks = none) {live : Live}
    {env : RuntimeUsers.RestoreEnv}
    (hok : (({ live := live } : RuntimeUsers).restore codec node env w.file).outcome = .ok) :
    Waiting req parts before (step codec node req parts sha w (.restart live env)) := by
  obtain ⟨hcurrent, hchunks', hfile, hfilechunks⟩ := restore_without_chunks rfl (h.fileChunks hchunks) hok
  refine ⟨hcurrent.trans h.file, hfile.trans h.file, h.published, fun _ => ⟨hchunks', hfilechunks⟩, ?_,
    fun _ => hfilechunks⟩
  intro hvalid
  rcases h.valid hvalid with ⟨-, hnone⟩ | hsome
  · exact .inl ⟨hchunks', hnone⟩
  · exact nomatch hchunks.symm.trans hsome

/-- **One event**: all chunks have come, or nothing is installed yet. -/
theorem step_waiting (hsplit : Splits codec req parts sha) (e : Event)
    (hdelivers : Delivers codec node parts w e)
    (hunbroken : Unbroken w e) (h : (∀ k < parts.length, k ∈ w.delivered) ∨ Waiting req parts before w) :
    (∀ k < parts.length, k ∈ (step codec node req parts sha w e).delivered) ∨
      Waiting req parts before (step codec node req parts sha w e) := by
  cases e with
  | deliver i env =>
    rcases h with hall | hwaiting
    · exact .inl fun k hk => List.mem_cons_of_mem _ (hall k hk)
    · by_cases hall : ∀ k < parts.length, k ∈ i :: w.delivered
      · exact .inl hall
      · exact .inr (hwaiting.deliver hsplit (List.getElem?_eq_getElem hdelivers.1) hdelivers.2 hall)
  | restart live env =>
    rcases h with hall | hwaiting
    · exact .inl hall
    · cases hchunks : w.users.chunks with
      | none => exact .inr (hwaiting.restart hchunks hdelivers)
      | some b =>
        -- A buffer that is complete: all chunks have come.
        left
        cases hvalid : validateUserInstall req with
        | false => exact nomatch hchunks.symm.trans (hwaiting.invalid hvalid).1
        | true =>
          rcases hwaiting.valid hvalid with ⟨hnone, -⟩ | hsome
          · exact nomatch hchunks.symm.trans hnone
          · exact Gather.all_arrived.mp (hunbroken _ hsome)

/-- **Chunks are the whole, in every run in which the kernel does not restart while it has some of
them.** As long as a chunk is missing nothing is installed or published; and when the one that is
missing comes, what happens is what the whole request would do. -/
theorem chunked_install_is_whole {w₀ : World} (hstart : Start w₀)
    (hsplit : Splits codec req parts sha) {es : List Event}
    (hrun : Run.Along (step codec node req parts sha)
      (fun w e => Delivers codec node parts w e ∧ Unbroken w e) w₀ es) (w : World)
    (hw : w = Run.exec (step codec node req parts sha) w₀ es) (hmissing : i < parts.length)
    (hnot : i ∉ w.delivered) :
    w.users.current = w₀.users.current ∧ w.published = [] ∧
      ((∀ k < parts.length, k ≠ i → k ∈ w.delivered) → ∀ env,
        SameOutcome (w.users.install codec node env (chunkOf req parts sha i) w.file)
          ({ w.users with chunks := none }.install codec node env req w.file)) := by
  have hinvariant : (∀ k < parts.length, k ∈ w.delivered) ∨ Waiting req parts w₀.users.current w := by
    rw [hw]
    exact Run.invariant (I := fun w => (∀ k < parts.length, k ∈ w.delivered) ∨
      Waiting req parts w₀.users.current w)
      (fun w e h hP => step_waiting hsplit e hP.1 hP.2 h) (.inr hstart.waiting) hrun
  rcases hinvariant with hall | hwaiting
  · exact absurd (hall i hmissing) hnot
  · refine ⟨hwaiting.current, hwaiting.published, fun hothers env => ?_⟩
    refine hsplit.same_outcome (List.getElem?_eq_getElem hmissing) env w.file hwaiting.valid ?_
    intro k hk
    by_cases hki : k = i
    · rw [hki]
      exact List.mem_cons_self
    · exact List.mem_cons_of_mem _ (hothers k hk hki)

end Runs

/-! ## Two chunks -/

/-- Hashes that show the revision of a snapshot, and whether a part is `null`. -/
def showParts : Codec :=
  { hash := fun c => "users-" ++ toString c.revision
    chunkHash := fun part => if part = .null then "null" else "part"
    chunkBytes := fun _ => 4 }

def bothUsers : UserInstallRequest := installs 2 ["in-1", "in-2"] [alice, bob]

def oneEach : List Part := [.list [alice], .list [bob]]

def afterRestart : World :=
  Run.exec (step showParts twoInbounds bothUsers oneEach fun _ => "part") ⟨{}, {}, [], []⟩
    [.deliver 0 {}, .restart {} {}]

/-- The kernel restarts between the two chunks. The second one is refused, and the whole request is
not. -/
theorem restart_between_chunks :
    (afterRestart.users.install showParts twoInbounds {} (chunkOf bothUsers oneEach (fun _ => "part") 1)
        afterRestart.file).outcome = .error .illegal ∧
      ({ afterRestart.users with chunks := none }.install showParts twoInbounds {} bothUsers
        afterRestart.file).outcome = .ok := by
  constructor
  · decide
  · decide

theorem oneEach_splits : Splits showParts bothUsers oneEach fun _ => "part" := by
  refine ⟨rfl, rfl, by decide, by decide, ?_, by decide, by decide⟩
  intro i part hp
  refine ⟨by decide, .inr ?_⟩
  have hmem := List.mem_of_getElem? hp
  simp only [oneEach, List.mem_cons, List.not_mem_nil, or_false] at hmem
  rcases hmem with rfl | rfl <;> rfl

def secondTwice : World :=
  Run.exec (step showParts twoInbounds bothUsers oneEach fun _ => "part") ⟨{}, {}, [], []⟩
    [.deliver 1 {}, .deliver 1 {}]

theorem reversed_chunks_are_whole :
    SameOutcome
      (secondTwice.users.install showParts twoInbounds {}
        (chunkOf bothUsers oneEach (fun _ => "part") 0) secondTwice.file)
      ({ secondTwice.users with chunks := none }.install showParts twoInbounds
        {} bothUsers secondTwice.file) := by
  have hrun : Run.Along (step showParts twoInbounds bothUsers oneEach fun _ => "part")
      (fun w e => Delivers showParts twoInbounds oneEach w e ∧ Unbroken w e) ⟨{}, {}, [], []⟩
      [.deliver 1 {}, .deliver 1 {}] :=
    ⟨⟨⟨by decide, rfl⟩, trivial⟩, ⟨⟨by decide, rfl⟩, trivial⟩, trivial⟩
  exact (chunked_install_is_whole ⟨rfl, rfl, rfl, rfl, rfl⟩ oneEach_splits hrun secondTwice rfl
    (by decide) (by decide)).2.2
    (by decide) {}

end Chunked
end OboardAgent.Users
