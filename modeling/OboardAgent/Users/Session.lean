import OboardAgent.Lib.Run
import OboardAgent.Users.Store

/-!
# User installs in the control session

The controller sends users as signed envelopes. The reader of the session puts them into a queue of
64; a goroutine takes them out, and holds one back for a moment, in case another follows. What it
holds back is given up for whatever it takes next.

That is right where the next one is a whole table that replaces the one held back. It is not where
the next one is a change to it, a chunk, or an envelope that does not verify: what was held back is
then lost, and a change that builds on it is refused by the kernel. A queue that is full loses its
oldest envelope, whichever it is, and a session that ends loses what it has not applied.
-/

namespace OboardAgent.Users

open Quota (UserCredential UserInstallEntry)

/-! ## Envelopes -/

structure UsersInstallRequest extends UserInstallRequest where
  contentDigest : String := ""
deriving DecidableEq, Repr

structure UsersEnvelope where
  messageID : String := ""
  serverID : Int
  usersJSON : String
  signature : String
deriving DecidableEq, Repr

/-- Why `verifyUsersEnvelope` refuses an envelope. -/
inductive Refusal where
  | serverID
  | missing
  | json
  | signature
  | illegal
  | deletion
  | snellCredential
  | snellDuplicatePSK
  | snellCredentialLimitExceeded
deriving DecidableEq, Repr

/-- What the session is set up with: the enrolled server, the decoders of the JSON and of the chunk
that the reader peeks at, the check of the signature over the envelope, the revision and the digest;
and the kernel. -/
structure Setting where
  serverID : Int
  decode : String → Option UsersInstallRequest
  peekChunk : String → Bool
  signed : UsersEnvelope → Int → String → Bool
  codec : Codec
  node : Node

def validatePSKEntry (mode : Mode) (entry : UserInstallEntry) (seen : List (String × String)) :
    Except Refusal (List (String × String)) :=
  let c := entry.credential
  if c = {} then
    if mode ≠ .delta ∨ entry.authorizationKey ≠ "" then .error .deletion else .ok seen
  else if c.psk = "" then .ok seen
  else if c.psk.utf8ByteSize < 8 ∨ 255 < c.psk.utf8ByteSize ∨ c.userKey ≠ "" ∨ c.password ≠ "" ∨
      c.uuid ≠ "" ∨ c.flow ≠ "" ∨ GoStrings.trimSpace entry.authUser = "" ∨
      entry.authorizationKey = "" then .error .snellCredential
  else if (entry.inboundTag, c.psk) ∈ seen then .error .snellDuplicatePSK
  else
    let seen := (entry.inboundTag, c.psk) :: seen
    if 64 < (seen.filter fun k => k.1 = entry.inboundTag).length then
      .error .snellCredentialLimitExceeded
    else .ok seen

def validatePSKInstall (mode : Mode) :
    List UserInstallEntry → List (String × String) → Except Refusal Unit
  | [], _ => .ok ()
  | entry :: rest, seen =>
    match validatePSKEntry mode entry seen with
    | .error e => .error e
    | .ok seen => validatePSKInstall mode rest seen

variable (set : Setting)

def verifyUsersEnvelope (e : UsersEnvelope) : Except Refusal UsersInstallRequest :=
  if 0 < set.serverID ∧ e.serverID ≠ set.serverID then .error .serverID
  else if GoStrings.trimSpace e.usersJSON = "" ∨ GoStrings.trimSpace e.signature = "" then .error .missing
  else
    match set.decode e.usersJSON with
    | none => .error .json
    | some req =>
      if !set.signed e req.usersRevision req.usersDigest then .error .signature
      else if req.usersRevision ≤ 0 ∨ GoStrings.trimSpace req.usersDigest = "" ∨
          (req.mode ≠ .full ∧ req.mode ≠ .delta) then .error .illegal
      else (validatePSKInstall req.mode req.entries []).map fun _ => req

variable (req : UsersInstallRequest)

def usersInstallIsRevoke : Bool :=
  (req.entries.isEmpty && req.mode = .full) || req.entries.any fun entry => entry.credential = {}

/-! ## Applying -/

structure UsersAppliedSnapshot where
  revision : Int
  digest : String
  bootID : String
  contentDigest : String
deriving DecidableEq, Repr

def usersRevisionConflict (applied : UsersAppliedSnapshot) : Option String :=
  if req.contentDigest ≠ "" ∧ applied.contentDigest ≠ "" then
    if req.contentDigest ≠ applied.contentDigest then some "content digest" else none
  else if req.contentDigest ≠ "" then none
  else if req.usersDigest ≠ applied.digest then some "digest"
  else none

/-- What the runner knows of the users, and the kernel with its file. -/
structure Applied where
  current : Option UsersInstallRequest := none
  bootID : String := ""
  applied : Option UsersAppliedSnapshot := none
  kernel : RuntimeUsers := {}
  file : PersistedUsers := {}

structure ApplyEnv where
  supports : Bool := true
  supportsPSK : Bool := true
  reached : Bool := true
  answered : Bool := true
  install : InstallEnv := {}
  statusRead : Bool := true
  bootID : String := "boot"
  persisted : Bool := true

inductive ApplyOutcome where
  | refused (r : Refusal)
  | superseded
  | conflict (identity : String)
  | pskUnsupported
  | unsupported
  | unreachable
  | incomplete
  | rejected (e : InstallError)
  | readbackFailed
  | mismatch
  | persistFailed
  | verified
deriving DecidableEq, Repr

def revisionGate (applied : Option UsersAppliedSnapshot) (req : UsersInstallRequest) :
    Option ApplyOutcome :=
  match applied with
  | none => none
  | some a =>
    if a.revision ≤ 0 then none
    else if req.usersRevision < a.revision then some .superseded
    else if req.usersRevision = a.revision ∧ req.mode = .full ∧ req.chunk = none then
      (usersRevisionConflict req a).map .conflict
    else none

def confirms (kernel : RuntimeUsers) : Bool :=
  kernel.current.any fun s => s.revision = req.usersRevision && s.digest = req.usersDigest

def applyRuntimeUsers (env : ApplyEnv) (req : UsersInstallRequest) (s : Applied) :
    Applied × ApplyOutcome :=
  match validatePSKInstall req.mode req.entries [] with
  | .error r => (s, .refused r)
  | .ok () =>
    match revisionGate s.applied req with
    | some outcome => (s, outcome)
    | none =>
      if (req.entries.any fun entry => entry.credential.psk ≠ "") && !env.supportsPSK then
        (s, .pskUnsupported)
      else if !env.supports then (s, .unsupported)
      else if !env.reached then (s, .unreachable)
      else
        let c := s.kernel.install set.codec set.node env.install req.toUserInstallRequest s.file
        let s := { s with kernel := c.users, file := c.file }
        match c.outcome, env.answered with
        | .died, _ => ({ s with kernel := {} }, .unreachable)
        | _, false => (s, .unreachable)
        | .error .incomplete, true => (s, .incomplete)
        | .error e, true => (s, .rejected e)
        | .ok, true =>
          if !env.statusRead then (s, .readbackFailed)
          else if !confirms req s.kernel || env.bootID = "" then (s, .mismatch)
          else if !env.persisted then (s, .persistFailed)
          else
            ({ s with
                current := if req.chunk = none ∧ req.mode = .full then some req else none
                bootID := env.bootID
                applied := some ⟨req.usersRevision, req.usersDigest, env.bootID, req.contentDigest⟩ },
              .verified)

/-- The requests, applied one by one. -/
def replay (s : Applied) (l : List (UsersInstallRequest × ApplyEnv)) : Applied :=
  l.foldl (fun s x => (applyRuntimeUsers set x.2 x.1 s).1) s

/-! ## The session -/

def usersQueueLength : Nat := 64

/-- The session: the queue, the envelope that the reader waits to put there, the one held back, and
what is applied. Beside it run the envelopes received and taken, and the requests applied, each with
the environment of its application. -/
structure Session where
  queue : List UsersEnvelope := []
  blocked : Option UsersEnvelope := none
  pending : Option UsersEnvelope := none
  live : Bool := true
  state : Applied
  received : List UsersEnvelope := []
  taken : List UsersEnvelope := []
  applied : List (UsersInstallRequest × ApplyEnv) := []

/-- An envelope arrives, is taken out of the queue, the timer fires, or the session ends. -/
inductive SessionEvent where
  | arrive (e : UsersEnvelope)
  | take (env : ApplyEnv)
  | fire (env : ApplyEnv)
  | stop

namespace Session

variable (set : Setting)

variable (w : Session)

/-- The reader, with an envelope in its hands: a chunk waits for room in the queue; any other makes
room by dropping the oldest. -/
def enqueue (e : UsersEnvelope) : Session :=
  let w := { w with received := w.received ++ [e] }
  if w.queue.length < usersQueueLength then { w with queue := w.queue ++ [e] }
  else if set.peekChunk e.usersJSON then { w with blocked := some e }
  else { w with queue := w.queue.tail ++ [e] }

def applyUsersEnvelope (env : ApplyEnv) (e : UsersEnvelope) : Session :=
  match verifyUsersEnvelope set e with
  | .error _ => w
  | .ok req =>
    { w with
      state := (applyRuntimeUsers set env req w.state).1
      applied := w.applied ++ [(req, env)] }

/-- The goroutine, with an envelope from the queue in its hands. -/
def handle (env : ApplyEnv) (e : UsersEnvelope) : Session :=
  match verifyUsersEnvelope set e with
  | .error _ => { w with pending := none }.applyUsersEnvelope set env e
  | .ok req =>
    if usersInstallIsRevoke req || req.chunk.isSome then
      { w with pending := none }.applyUsersEnvelope set env e
    else { w with pending := some e }

def step : SessionEvent → Session
  | .arrive e => if !w.live || w.blocked.isSome then w else w.enqueue set e
  | .take env =>
    match w.queue with
    | [] => w
    | e :: rest =>
      { w with queue := rest ++ w.blocked.toList, blocked := none, taken := w.taken ++ [e] }.handle set env e
  | .fire env =>
    match w.pending with
    | none => w
    | some e => { w with pending := none }.applyUsersEnvelope set env e
  | .stop => { w with queue := [], blocked := none, pending := none, live := false }

/-- A session that begins, with what is applied so far. -/
def begin (s : Applied) : Session := { state := s }

/-- What the reader takes of an arrival: nothing once the session has ended, or while it waits. -/
def reads : SessionEvent → List UsersEnvelope
  | .arrive e => if !w.live || w.blocked.isSome then [] else [e]
  | _ => []

/-- The envelopes received are the arrivals that the reader takes. -/
theorem received_exec (start : Applied) (es : List SessionEvent) :
    (Run.exec (step set) (begin start) es).received
      = Run.outputs (step set) reads (begin start) es := by
  have happly : ∀ env e (w : Session), (w.applyUsersEnvelope set env e).received = w.received := by
    intro env e w
    unfold applyUsersEnvelope
    split <;> rfl
  refine Run.log_exec Session.received fun w e => ?_
  cases e with
  | arrive e =>
    simp only [step, reads, enqueue]
    split_ifs <;> simp
  | take env =>
    simp only [step, reads, List.append_nil]
    split
    · rfl
    · unfold handle
      split
      · rw [happly]
      · split_ifs
        · rw [happly]
        · rfl
  | fire env =>
    simp only [step, reads, List.append_nil]
    split
    · rfl
    · rw [happly]
  | stop => exact (List.append_nil _).symm

/-- Nothing that was received waits to be applied. -/
def Idle : Prop := w.queue = [] ∧ w.blocked = none ∧ w.pending = none

instance Idle.decidable (w : Session) : Decidable (Idle w) :=
  inferInstanceAs (Decidable (_ ∧ _ ∧ _))

end Session

/-! ## What may be left out -/

def Replaces (y x : UsersInstallRequest) : Prop :=
  y.mode = .full ∧ y.chunk = none ∧
    (x.usersRevision < y.usersRevision ∨
      (x.usersRevision = y.usersRevision ∧
        usersRevisionConflict y ⟨x.usersRevision, x.usersDigest, "", x.contentDigest⟩ = none))

instance Replaces.decidable (y x : UsersInstallRequest) : Decidable (Replaces y x) :=
  inferInstanceAs (Decidable (_ ∧ _ ∧ (_ ∨ _ ∧ _)))

/-- The second list is the first, where each may be left out that is no revocation and that the next
one replaces. -/
inductive Coalesces : List UsersInstallRequest → List UsersInstallRequest → Prop
  | nil : Coalesces [] []
  | keep {xs ys : List UsersInstallRequest} (x : UsersInstallRequest) (h : Coalesces xs ys) :
      Coalesces (xs ++ [x]) (ys ++ [x])
  | replace {xs ys : List UsersInstallRequest} {x y : UsersInstallRequest}
      (h : Coalesces xs (ys ++ [x])) (hrevoke : usersInstallIsRevoke x = false)
      (hreplaces : Replaces y x) : Coalesces (xs ++ [y]) (ys ++ [y])

theorem Coalesces.revocations {xs ys : List UsersInstallRequest} (h : Coalesces xs ys) :
    ys.filter usersInstallIsRevoke = xs.filter usersInstallIsRevoke := by
  induction h with
  | nil => rfl
  | keep x _ ih => rw [List.filter_append, List.filter_append, ih]
  | replace _ hrevoke _ ih =>
    have hlast : ∀ x, usersInstallIsRevoke x = false → [x].filter usersInstallIsRevoke = [] := by
      intro x hx
      simp [hx]
    rw [List.filter_append, hlast _ hrevoke, List.append_nil] at ih
    rw [List.filter_append, List.filter_append, ih]

/-- The requests of the envelopes that verify. -/
def verified (es : List UsersEnvelope) : List UsersInstallRequest :=
  es.filterMap fun e => (verifyUsersEnvelope set e).toOption

@[simp] theorem verified_nil : verified set [] = [] := rfl

theorem verified_append (es fs : List UsersEnvelope) :
    verified set (es ++ fs) = verified set es ++ verified set fs := List.filterMap_append

theorem verified_singleton {set : Setting} {e : UsersEnvelope} {req : UsersInstallRequest}
    (h : verifyUsersEnvelope set e = .ok req) : verified set [e] = [req] := by
  simp [verified, h, Except.toOption]

theorem verified_singleton_error {set : Setting} {e : UsersEnvelope} {r : Refusal}
    (h : verifyUsersEnvelope set e = .error r) : verified set [e] = [] := by
  simp [verified, h, Except.toOption]

theorem replay_append (s : Applied) (l : List (UsersInstallRequest × ApplyEnv))
    (x : UsersInstallRequest × ApplyEnv) :
    replay set s (l ++ [x]) = (applyRuntimeUsers set x.2 x.1 (replay set s l)).1 := by
  rw [replay, List.foldl_append]
  rfl

namespace Session

variable {set : Setting} {start : Applied} {w : Session}

def Supersedes (set : Setting) (e : UsersEnvelope) (pending : Option UsersEnvelope) : Prop :=
  ∀ p ∈ pending, ∀ x ∈ verified set [p], ∃ y ∈ verified set [e], Replaces y x

instance Supersedes.decidable (set : Setting) (e : UsersEnvelope) (pending : Option UsersEnvelope) :
    Decidable (Supersedes set e pending) :=
  inferInstanceAs (Decidable (∀ p ∈ pending, ∀ x ∈ verified set [p], ∃ y ∈ verified set [e], Replaces y x))

/-- There is room for what arrives, or it is a chunk; what comes out of the queue replaces what is
held back; and the session ends when nothing waits. -/
def Lossless (set : Setting) (w : Session) : SessionEvent → Prop
  | .arrive e => w.queue.length < usersQueueLength ∨ set.peekChunk e.usersJSON = true
  | .take _ => ∀ e ∈ w.queue.head?, Supersedes set e w.pending
  | .fire _ => True
  | .stop => Idle w

instance Lossless.decidable (set : Setting) (w : Session) : ∀ e, Decidable (Lossless set w e)
  | .arrive _ => inferInstanceAs (Decidable (_ ∨ _))
  | .take _ => inferInstanceAs (Decidable (∀ e ∈ w.queue.head?, Supersedes set e w.pending))
  | .fire _ => inferInstanceAs (Decidable True)
  | .stop => inferInstanceAs (Decidable (Idle w))

/-- What has been received is taken or waits; the state is that of the requests applied; and those,
with the one held back, are the ones taken, coalesced. -/
structure Kept (set : Setting) (start : Applied) (w : Session) : Prop where
  queued : w.received = w.taken ++ w.queue ++ w.blocked.toList
  state : w.state = replay set start w.applied
  held : ∀ p ∈ w.pending, ∃ x, verifyUsersEnvelope set p = .ok x ∧ usersInstallIsRevoke x = false
  coalesced : Coalesces (verified set w.taken)
    (w.applied.map (·.1) ++ verified set w.pending.toList)

theorem kept_begin (set : Setting) (start : Applied) : Kept set start (begin start) :=
  ⟨rfl, rfl, nofun, Coalesces.nil⟩

section

variable (h : Kept set start w)
include h

theorem Kept.enqueue {e : UsersEnvelope} (hblocked : w.blocked = none)
    (hroom : w.queue.length < usersQueueLength ∨ set.peekChunk e.usersJSON = true) :
    Kept set start (w.enqueue set e) := by
  have hqueued : w.received = w.taken ++ w.queue := by
    rw [h.queued, hblocked, Option.toList_none, List.append_nil]
  unfold Session.enqueue
  by_cases hshort : w.queue.length < usersQueueLength
  · simp only [if_pos hshort]
    refine ⟨?_, h.state, h.held, h.coalesced⟩
    simp [hqueued, hblocked]
  · simp only [if_neg hshort, hroom.resolve_left hshort, if_true]
    refine ⟨?_, h.state, h.held, h.coalesced⟩
    simp [hqueued]

theorem Kept.coalesced_take {e : UsersEnvelope} {y : UsersInstallRequest}
    (hy : verifyUsersEnvelope set e = .ok y) (hsupersedes : Supersedes set e w.pending) :
    Coalesces (verified set (w.taken ++ [e])) (w.applied.map (·.1) ++ [y]) := by
  rw [verified_append, verified_singleton hy]
  have hcoalesced := h.coalesced
  cases hp : w.pending with
  | none =>
    rw [hp, Option.toList_none] at hcoalesced
    exact Coalesces.keep y (by simpa using hcoalesced)
  | some p =>
    obtain ⟨x, hx, hrevoke⟩ := h.held p (by rw [hp]; rfl)
    rw [hp, Option.toList_some, verified_singleton hx] at hcoalesced
    obtain ⟨y', hy', hreplaces⟩ := hsupersedes p (by rw [hp]; rfl) x
      (by rw [verified_singleton hx]; exact List.mem_singleton_self x)
    rw [verified_singleton hy, List.mem_singleton] at hy'
    exact Coalesces.replace hcoalesced hrevoke (hy' ▸ hreplaces)

theorem Kept.take (env : ApplyEnv) {e : UsersEnvelope} {rest : List UsersEnvelope}
    (hqueue : w.queue = e :: rest) (hsupersedes : Supersedes set e w.pending) :
    Kept set start
      (({ w with queue := rest ++ w.blocked.toList, blocked := none, taken := w.taken ++ [e] } :
        Session).handle set env e) := by
  have hqueued : w.received = w.taken ++ [e] ++ (rest ++ w.blocked.toList) ++ [] := by
    rw [h.queued, hqueue]
    simp
  unfold handle
  cases hy : verifyUsersEnvelope set e with
  | error r =>
    -- The envelope replaces nothing, so nothing is held back that its arrival could drop.
    have hnone : w.pending = none := by
      rw [Option.eq_none_iff_forall_not_mem]
      intro p hp
      obtain ⟨x, hx, -⟩ := h.held p hp
      obtain ⟨y, hy', -⟩ := hsupersedes p hp x
        (by rw [verified_singleton hx]; exact List.mem_singleton_self x)
      rw [verified_singleton_error hy] at hy'
      cases hy'
    simp only [applyUsersEnvelope, hy]
    refine ⟨hqueued, h.state, nofun, ?_⟩
    rw [verified_append, verified_singleton_error hy, List.append_nil]
    have hcoalesced := h.coalesced
    rwa [hnone] at hcoalesced
  | ok y =>
    have hcoalesced := h.coalesced_take hy hsupersedes
    dsimp only
    split
    · simp only [applyUsersEnvelope, hy]
      refine ⟨hqueued, ?_, nofun, ?_⟩
      · rw [replay_append, h.state]
      · simpa using hcoalesced
    · rename_i hcalm
      have hrevoke : usersInstallIsRevoke y = false := by
        simp only [Bool.or_eq_true, not_or, Bool.not_eq_true] at hcalm
        exact hcalm.1
      refine ⟨hqueued, h.state, fun p hp => ?_, ?_⟩
      · obtain rfl : e = p := Option.some.inj hp
        exact ⟨y, hy, hrevoke⟩
      · rw [Option.toList_some, verified_singleton hy]
        exact hcoalesced

theorem Kept.fire (env : ApplyEnv) {p : UsersEnvelope} (hp : w.pending = some p) :
    Kept set start (({ w with pending := none } : Session).applyUsersEnvelope set env p) := by
  obtain ⟨x, hx, -⟩ := h.held p (by rw [hp]; rfl)
  have hcoalesced := h.coalesced
  rw [hp, Option.toList_some, verified_singleton hx] at hcoalesced
  simp only [applyUsersEnvelope, hx]
  refine ⟨h.queued, ?_, nofun, ?_⟩
  · rw [replay_append, h.state]
  · simpa using hcoalesced

theorem Kept.step {e : SessionEvent} (hlossless : Lossless set w e) :
    Kept set start (Session.step set w e) := by
  cases e with
  | arrive e =>
    simp only [Session.step]
    split
    · exact h
    · rename_i hopen
      simp only [Bool.or_eq_true, not_or, Bool.not_eq_true, Option.isSome_eq_false_iff,
        Option.isNone_iff_eq_none] at hopen
      exact h.enqueue hopen.2 hlossless
  | take env =>
    cases hqueue : w.queue with
    | nil =>
      simp only [Session.step, hqueue]
      exact h
    | cons e rest =>
      simp only [Session.step, hqueue]
      exact h.take env hqueue (hlossless e (by rw [hqueue]; rfl))
  | fire env =>
    cases hp : w.pending with
    | none =>
      simp only [Session.step, hp]
      exact h
    | some p =>
      simp only [Session.step, hp]
      exact h.fire env hp
  | stop =>
    obtain ⟨hqueue, hblocked, hpending⟩ := hlossless
    have hqueued := h.queued
    have hcoalesced := h.coalesced
    rw [hqueue, hblocked] at hqueued
    rw [hpending] at hcoalesced
    exact ⟨hqueued, h.state, nofun, hcoalesced⟩

end

/-- **Coalescing loses nothing.** In every run of a session where there is room in the queue for
what arrives, or it is a chunk, where what comes out of the queue replaces what is held back, and
that does not end while something waits: the state is that of applying, one by one, the requests
that were applied; and once nothing waits, these are the verified ones received, in order, each but
those that are no revocation and that the next one replaces; so every revocation is among them. -/
theorem coalescing_is_lossless (set : Setting) (start : Applied) (es : List SessionEvent)
    (hlossless : Run.Along (Session.step set) (Lossless set) (begin start) es) :
    (Run.exec (Session.step set) (begin start) es).state
      = replay set start (Run.exec (Session.step set) (begin start) es).applied ∧
    (Idle (Run.exec (Session.step set) (begin start) es) →
      Coalesces (verified set (Run.exec (Session.step set) (begin start) es).received)
        ((Run.exec (Session.step set) (begin start) es).applied.map (·.1)) ∧
      ((Run.exec (Session.step set) (begin start) es).applied.map (·.1)).filter usersInstallIsRevoke
        = (verified set (Run.exec (Session.step set) (begin start) es).received).filter
            usersInstallIsRevoke) := by
  have hkept : Kept set start (Run.exec (Session.step set) (begin start) es) :=
    Run.invariant (fun _ _ hw he => hw.step he) (kept_begin set start) hlossless
  refine ⟨hkept.state, fun ⟨hqueue, hblocked, hpending⟩ => ?_⟩
  have hcoalesced := hkept.coalesced
  have hqueued := hkept.queued
  rw [hqueue, hblocked, Option.toList_none, List.append_nil, List.append_nil] at hqueued
  rw [hpending, Option.toList_none, verified_nil, List.append_nil, ← hqueued] at hcoalesced
  exact ⟨hcoalesced, hcoalesced.revocations⟩

def aliceAndBob (revision : Int) : UsersInstallRequest :=
  { installs revision ["in-1", "in-2"] [alice, bob] with }

def addCarol : UsersInstallRequest :=
  { installs 2 ["in-1", "in-2"]
      [user "in-1" "carol" { uuid := "33333333-3333-3333-3333-333333333333" }] with
    mode := .delta, baseRevision := 1 }

def revokeAlice : UsersInstallRequest :=
  { installs 3 ["in-1", "in-2"] [{ inboundTag := "in-1", authUser := "alice" }] with
    mode := .delta, baseRevision := 2 }

def twoInboundsSession : Setting :=
  { serverID := 1
    decode := fun text =>
      if text = "full-1" then some (aliceAndBob 1)
      else if text = "full-2" then some (aliceAndBob 2)
      else if text = "carol" then some addCarol
      else if text = "revoke" then some revokeAlice
      else none
    peekChunk := fun _ => false
    signed := fun e _ _ => e.signature = "signed"
    codec := showRevision
    node := twoInbounds }

def envelope (text : String) : UsersEnvelope := { serverID := 1, usersJSON := text, signature := "signed" }

def forged : UsersEnvelope := { serverID := 1, usersJSON := "full-2", signature := "forged" }

def installedRevision (s : Applied) : Option Int := s.kernel.current.map (·.revision)

def oneByOne (w : Session) : Option Int :=
  installedRevision (replay twoInboundsSession {} ((verified twoInboundsSession w.received).map (·, {})))

def replaced : List SessionEvent :=
  [.arrive (envelope "full-1"), .take {}, .arrive (envelope "full-2"), .take {}, .fire {},
   .arrive forged, .arrive (envelope "revoke"), .take {}, .take {}]

theorem replaced_loses_nothing :
    installedRevision (Run.exec (Session.step twoInboundsSession) (begin {}) replaced).state = some 3 ∧
    Coalesces (verified twoInboundsSession
      (Run.exec (Session.step twoInboundsSession) (begin {}) replaced).received)
      ((Run.exec (Session.step twoInboundsSession) (begin {}) replaced).applied.map (·.1)) :=
  ⟨by decide +kernel,
    ((coalescing_is_lossless twoInboundsSession {} replaced (by decide +kernel)).2 (by decide +kernel)).1⟩

def changeHeldBack : List SessionEvent :=
  [.arrive (envelope "full-1"), .take {}, .fire {}, .arrive (envelope "carol"), .take {},
   .arrive (envelope "revoke"), .take {}]

def forgedBehind : List SessionEvent :=
  [.arrive (envelope "full-1"), .take {}, .arrive forged, .take {}]

def queueOverflows : List SessionEvent :=
  .arrive (envelope "revoke") :: List.replicate 64 (.arrive (envelope "full-2")) ++
    List.replicate 64 (.take {}) ++ [.fire {}]

/-- A change that is held back is lost, and the revocation after it refused: revision 1 stays where
one by one gives revision 3. A forged envelope has the same effect on a whole table. And a
revocation drops out of a queue that is full. -/
theorem held_back_is_lost_and_revocation_dropped :
    (installedRevision (Run.exec (Session.step twoInboundsSession) (begin {}) changeHeldBack).state = some 1 ∧
      oneByOne (Run.exec (Session.step twoInboundsSession) (begin {}) changeHeldBack) = some 3) ∧
    (installedRevision (Run.exec (Session.step twoInboundsSession) (begin {}) forgedBehind).state = none ∧
      oneByOne (Run.exec (Session.step twoInboundsSession) (begin {}) forgedBehind) = some 1) ∧
    ((envelope "revoke") ∈ (Run.exec (Session.step twoInboundsSession) (begin {}) queueOverflows).received ∧
      Idle (Run.exec (Session.step twoInboundsSession) (begin {}) queueOverflows) ∧
      (Run.exec (Session.step twoInboundsSession) (begin {}) queueOverflows).applied.map (·.1)
        = [aliceAndBob 2]) := by
  decide +kernel

end Session

end OboardAgent.Users
