import OboardAgent.Lib.GoStrings
import OboardAgent.Lib.Rfc3339
import OboardAgent.Lib.Texts

/-!
# Signed envelopes

The Controller signs four kinds of envelopes with one key: tasks, authorization leases, runtime
users, and requests for an interactive session, the last in two versions. What is signed is a
canonical text: a JSON object for tasks and sessions, lines for the other two.

The agent rebuilds the text from the envelope that it got and compares signatures. So what a
signature binds is what can be read off the text: its kind, since no text is of two kinds, and the
fields that are in it. This is all that the agent acts on, but for the mode of a session asked for
in the first version, which is not in the text.

The keyed hash and the digest are parameters that never collide.
-/

namespace OboardAgent.Security

open GoStrings Texts

/-- The hash functions. The digest is printed in hexadecimal, hence on one line. -/
structure Crypto where
  sha256 : String → String
  hmac : String → List Char → String
  sha256_injective : Function.Injective sha256
  sha256_line : ∀ text, '\n' ∉ (sha256 text).toList
  hmac_injective : ∀ secret, Function.Injective (hmac secret)

structure TaskEnvelope where
  id : Int
  serverId : Int
  type : String
  configVersion : Int
  nonce : String
  payloadJson : String
  deriving DecidableEq, Repr

structure AuthorizationEnvelopeFields where
  serverId : Int
  messageId : String
  revision : Int
  sequence : Int
  issuedAt : String
  expiresAt : String
  leaseJson : String
  deriving DecidableEq, Repr

structure UsersEnvelopeFields where
  serverId : Int
  messageId : String
  revision : Int
  digest : String
  usersJson : String
  deriving DecidableEq, Repr

structure InteractiveEnvelope where
  type : String
  serverId : Int
  sessionId : String
  nonce : String
  issuedAt : String
  expiresAt : String
  kind : String
  origin : String
  cols : Int
  rows : Int
  mode : String
  deriving DecidableEq, Repr

/-- What is signed. -/
inductive Envelope
  | task (e : TaskEnvelope)
  | authorization (f : AuthorizationEnvelopeFields)
  | users (f : UsersEnvelopeFields)
  | interactiveV1 (e : InteractiveEnvelope)
  | interactiveV2 (e : InteractiveEnvelope)
  deriving DecidableEq, Repr

/-! ## Canonical texts -/

def canonicalTaskEnvelope (task : TaskEnvelope) : List Char :=
  marshal [("id", .num task.id), ("server_id", .num task.serverId), ("type", .str task.type),
    ("config_version", .num task.configVersion), ("nonce", .str task.nonce),
      ("payload_json", .str task.payloadJson)]

def authorizationLines (crypto : Crypto) (f : AuthorizationEnvelopeFields) : List (List Char) :=
  ["authz_v1".toList, formatInt f.serverId, f.messageId.toList, formatInt f.revision,
    formatInt f.sequence, f.issuedAt.toList,
    f.expiresAt.toList, (crypto.sha256 f.leaseJson).toList]

def canonicalAuthorizationEnvelope (crypto : Crypto) (f : AuthorizationEnvelopeFields) :
    List Char :=
  lines (authorizationLines crypto f)

def usersLines (crypto : Crypto) (f : UsersEnvelopeFields) : List (List Char) :=
  ["users_v1".toList, formatInt f.serverId, f.messageId.toList, formatInt f.revision,
    f.digest.toList,
    (crypto.sha256 f.usersJson).toList]

def canonicalUsersEnvelope (crypto : Crypto) (f : UsersEnvelopeFields) :
    List Char := lines (usersLines crypto f)

def normalizeInteractiveOrigin (origin : String) :
    String := if trimSpace origin = "mcp" then "mcp" else "human"

def canonicalInteractiveEnvelope (env : InteractiveEnvelope) : List Char :=
  marshal [("type", .str env.type), ("server_id", .num env.serverId),
    ("session_id", .str env.sessionId),
    ("nonce", .str env.nonce), ("issued_at", .str env.issuedAt), ("expires_at", .str env.expiresAt),
      ("kind", .str env.kind),
    ("cols", .num env.cols), ("rows", .num env.rows)]

def canonicalInteractiveEnvelopeV2 (env : InteractiveEnvelope) : List Char :=
  marshal [("type", .str env.type), ("server_id", .num env.serverId),
    ("session_id", .str env.sessionId),
    ("nonce", .str env.nonce), ("issued_at", .str env.issuedAt), ("expires_at", .str env.expiresAt),
      ("kind", .str env.kind),
    ("origin", .str (normalizeInteractiveOrigin env.origin)), ("cols", .num env.cols),
      ("rows", .num env.rows),
    ("mode", .str (trimSpace env.mode))]

/-- The text under a signature. `SignInteractiveEnvelopeV2` normalises the origin before the text is
made, which normalises it again. -/
def Envelope.canonical (crypto : Crypto) : Envelope → List Char
  | .task e => canonicalTaskEnvelope e
  | .authorization f => canonicalAuthorizationEnvelope crypto f
  | .users f => canonicalUsersEnvelope crypto f
  | .interactiveV1 e => canonicalInteractiveEnvelope e
  | .interactiveV2 e => canonicalInteractiveEnvelopeV2
      { e with origin := normalizeInteractiveOrigin e.origin }

def Envelope.sign (crypto : Crypto) (secret : String) (e : Envelope) :
    String := crypto.hmac secret (e.canonical crypto)

def Envelope.verify (crypto : Crypto) (secret : String) (e : Envelope)
    (signature : String) : Bool :=
  secret ≠ "" && signature ≠ "" && e.sign crypto secret = signature

/-! ## What the agent does with an envelope -/

inductive Mode
  | login
  | minimal
  deriving DecidableEq, Repr

def parseMode (value : String) : Option Mode :=
  let word := toLower (trimSpace value)
  if word = "" ∨ word = "login" then some .login else if word
    = "minimal" then some .minimal else none

def interactiveMaxCols : Int := 400
def interactiveMaxRows : Int := 150

structure Terminal where
  type : String
  serverId : Int
  sessionId : String
  nonce : String
  issuedAt : String
  expiresAt : String
  kind : String
  gate : String
  cols : Int
  rows : Int
  mode : Mode
  deriving DecidableEq, Repr

/-- What is done on an accepted envelope. -/
inductive Action
  | task (e : TaskEnvelope)
  | authorization (f : AuthorizationEnvelopeFields)
  | users (f : UsersEnvelopeFields)
  | terminalV1 (t : Terminal)
  | terminalV2 (t : Terminal)
  deriving DecidableEq, Repr

def clampCols (cols : Int) : Int := if cols ≤ 0 ∨ interactiveMaxCols < cols then 120 else cols
def clampRows (rows : Int) : Int := if rows ≤ 0 ∨ interactiveMaxRows < rows then 32 else rows

def InteractiveEnvelope.terminal (env : InteractiveEnvelope) (gate : String) (mode : Mode) :
    Terminal where
  type := env.type
  serverId := env.serverId
  sessionId := env.sessionId
  nonce := env.nonce
  issuedAt := env.issuedAt
  expiresAt := env.expiresAt
  kind := env.kind
  gate := gate
  cols := clampCols env.cols
  rows := clampRows env.rows
  mode := mode

@[simp] theorem terminal_mode (env : InteractiveEnvelope) (mode gate : String) (m : Mode) :
    ({ env with mode := mode }).terminal gate m = env.terminal gate m := rfl

@[simp] theorem terminal_origin (env : InteractiveEnvelope) (origin gate : String) (m : Mode) :
    ({ env with origin := origin }).terminal gate m = env.terminal gate m := rfl

/-- What of a decoded lease the verification reads; `lawful` is the answer of `lease.Validate`. -/
structure LeaseHead where
  revision : Int
  sequence : Int
  issuedAt : String
  expiresAt : String
  lawful : Bool

/-- What of decoded users the verification reads; `lawful` is the answer of the checks on the mode
and the keys. -/
structure UsersHead where
  usersRevision : Int
  usersDigest : String
  lawful : Bool

/-- The agent that gets an envelope: its identity, its local gates, the time in nanoseconds, the
nonces that it remembers, and its JSON decoder. -/
structure Agent where
  secret : String
  serverId : Int
  localGateAllows : String → Bool
  now : Int
  interactiveNonces : List String
  decodeLease : String → Option LeaseHead
  decodeUsers : String → Option UsersHead

/-- An envelope on the wire, of any kind, without its signature. -/
inductive Message
  | task (signatureVersion : Int) (task : TaskEnvelope)
  | authorization (serverId : Int) (messageId leaseJson : String)
  | users (serverId : Int) (messageId usersJson : String)
  | interactive (signatureVersion : Int) (env : InteractiveEnvelope)
  deriving DecidableEq, Repr

variable (crypto : Crypto) (agent : Agent)

def acceptControlTask (signatureVersion : Int) (task : TaskEnvelope) (signature : String) :
    Option Action := do
  guard (signatureVersion = 2)
  guard ((Envelope.task task).verify crypto agent.secret signature)
  guard (0 < agent.serverId ∧ task.serverId = agent.serverId)
  return .task task

def verifyAuthorizationEnvelope (serverId : Int) (messageId leaseJson signature : String) :
    Option Action := do
  guard (¬(0 < agent.serverId ∧ serverId ≠ agent.serverId))
  guard (trimSpace leaseJson ≠ "" ∧ trimSpace signature ≠ "")
  let lease ← agent.decodeLease leaseJson
  let fields : AuthorizationEnvelopeFields :=
      ⟨serverId, messageId, lease.revision, lease.sequence, lease.issuedAt,
      lease.expiresAt, leaseJson⟩
  guard ((Envelope.authorization fields).verify crypto agent.secret signature)
  guard lease.lawful
  return .authorization fields

def verifyUsersEnvelope (serverId : Int) (messageId usersJson signature : String) :
    Option Action := do
  guard (¬(0 < agent.serverId ∧ serverId ≠ agent.serverId))
  guard (trimSpace usersJson ≠ "" ∧ trimSpace signature ≠ "")
  let req ← agent.decodeUsers usersJson
  let fields : UsersEnvelopeFields :=
      ⟨serverId, messageId, req.usersRevision, req.usersDigest, usersJson⟩
  guard ((Envelope.users fields).verify crypto agent.secret signature)
  guard (0 < req.usersRevision ∧ trimSpace req.usersDigest ≠ "" ∧ req.lawful)
  return .users fields

/-- In nanoseconds: a request is good for a minute, and the Controller's clock may be half a minute
ahead. -/
def interactivePrepareTTL : Int := 60000000000
def maxClockSkew : Int := 30000000000

def validateInteractiveTimes (issued expires now : Int) : Bool :=
  issued < expires && expires - issued ≤ interactivePrepareTTL && now < expires && issued
    ≤ now + maxClockSkew

def Agent.rememberInteractiveNonce (nonce : String) : Bool :=
  trimSpace nonce ≠ "" && !(agent.interactiveNonces.contains (trimSpace nonce))

def presentedOrigin (env : InteractiveEnvelope) : String :=
  if trimSpace env.origin = "" then "human" else trimSpace env.origin

def originGate (origin : String) :
    String := if origin = "mcp" then "mcp_enabled" else "remote_terminal"

/-- `handleInteractivePrepare` after the version, the origin's gate, and with the envelope to
verify. -/
def prepareSession (env : InteractiveEnvelope) (gate : String) (presented : Envelope)
    (signature : String) : Option Terminal := do
  guard (env.kind = "terminal")
  guard (agent.localGateAllows gate)
  guard (¬(0 < agent.serverId ∧ env.serverId ≠ agent.serverId))
  let issued ← Rfc3339.parse env.issuedAt
  let expires ← Rfc3339.parse env.expiresAt
  guard (presented.verify crypto agent.secret signature)
  guard (validateInteractiveTimes issued expires agent.now)
  guard (agent.rememberInteractiveNonce env.nonce)
  let mode ← parseMode env.mode
  return env.terminal gate mode

def handleInteractivePrepare (signatureVersion : Int) (env : InteractiveEnvelope)
    (signature : String) : Option Action :=
  if signatureVersion = 2 then
    (prepareSession crypto agent env (originGate (presentedOrigin env))
      (.interactiveV2 { env with origin := presentedOrigin env })
      signature).map .terminalV2
  else if signatureVersion = 1 then
    -- The origin and the mode are not given to the verification.
    (prepareSession crypto agent env "remote_terminal"
      (.interactiveV1 { env with origin := "", mode := "" }) signature).map .terminalV1
  else none

/-- What the agent does on an envelope with a signature: nothing, unless it accepts it. -/
def accept (message : Message) (signature : String) : Option Action :=
  match message with
  | .task version task => acceptControlTask crypto agent version task signature
  | .authorization serverId messageId leaseJson =>
    verifyAuthorizationEnvelope crypto agent serverId messageId leaseJson signature
  | .users serverId messageId usersJson =>
    verifyUsersEnvelope crypto agent serverId messageId usersJson signature
  | .interactive version env => handleInteractivePrepare crypto agent version env signature

/-! ## What was meant -/

/-- What the values that the Controller put into an envelope ask for. A session's mode has to be one
for it to ask for anything. -/
def Envelope.meant : Envelope → Option Action
  | .task e => some (.task e)
  | .authorization f => some (.authorization f)
  | .users f => some (.users f)
  | .interactiveV1 e => (parseMode e.mode).map fun mode =>
    .terminalV1 (e.terminal "remote_terminal" mode)
  | .interactiveV2 e =>
    (parseMode e.mode).map fun mode => .terminalV2
      (e.terminal (originGate (normalizeInteractiveOrigin e.origin)) mode)

/-- The same envelope with another mode, where the mode is not in the signed text. -/
def Envelope.withUnsignedMode (mode : String) : Envelope → Envelope
  | .interactiveV1 e => .interactiveV1 { e with mode := mode }
  | e => e

def Envelope.texts : Envelope → List String
  | .task e => [e.type, e.nonce, e.payloadJson]
  | .authorization f => [f.messageId, f.issuedAt, f.expiresAt, f.leaseJson]
  | .users f => [f.messageId, f.digest, f.usersJson]
  | .interactiveV1 e | .interactiveV2 e =>
    [e.type, e.sessionId, e.nonce, e.issuedAt, e.expiresAt, e.kind, e.origin, e.mode]

/-- What an honest Controller signs. -/
def Envelope.Honest (e : Envelope) : Prop := ∀ s ∈ e.texts, '\n' ∉ s.toList

instance (e : Envelope) : Decidable e.Honest :=
  inferInstanceAs (Decidable (∀ s ∈ e.texts, '\n' ∉ s.toList))

/-! ## No text is of two kinds -/

inductive Kind
  | task
  | authorization
  | users
  | interactiveV1
  | interactiveV2
  deriving DecidableEq, Repr

def Envelope.kind : Envelope → Kind
  | .task _ => .task
  | .authorization _ => .authorization
  | .users _ => .users
  | .interactiveV1 _ => .interactiveV1
  | .interactiveV2 _ => .interactiveV2

section Canonical

variable {crypto}

theorem marshal_ne_lines {fields : List (String × Value)} {x y : List Char}
    {rest : List (List Char)} : marshal fields ≠ lines (x :: y :: rest) := by
  intro h
  exact newline_notMem_marshal fields (h ▸ newline_mem_lines x y rest)

theorem authorization_ne_users {f : AuthorizationEnvelopeFields} {g : UsersEnvelopeFields} :
    canonicalAuthorizationEnvelope crypto f ≠ canonicalUsersEnvelope crypto g := by
  intro h
  have hfirst := congrArg List.head? h
  exact absurd hfirst
    (by simp [canonicalAuthorizationEnvelope, canonicalUsersEnvelope, authorizationLines,
    usersLines, lines])

theorem names_eq {a b : List (String × Value)} (h : marshal a = marshal b) :
    a.map Prod.fst = b.map Prod.fst := by
  rw [marshal_inj h]

/-- **The text tells the kind**, also the version of a session request. -/
theorem kind_eq_of_canonical {e e' : Envelope} (h : e'.canonical crypto = e.canonical crypto) :
    e'.kind = e.kind := by
  cases e' with
  | task t =>
    cases e with
    | task _ => rfl
    | authorization _ => exact absurd h marshal_ne_lines
    | users _ => exact absurd h marshal_ne_lines
    | interactiveV1 _ => exact absurd (names_eq h) (by simp)
    | interactiveV2 _ => exact absurd (names_eq h) (by simp)
  | authorization f =>
    cases e with
    | authorization _ => rfl
    | users _ => exact absurd h authorization_ne_users
    | _ => exact absurd h.symm marshal_ne_lines
  | users f =>
    cases e with
    | users _ => rfl
    | authorization _ => exact absurd h.symm authorization_ne_users
    | _ => exact absurd h.symm marshal_ne_lines
  | interactiveV1 i =>
    cases e with
    | interactiveV1 _ => rfl
    | authorization _ => exact absurd h marshal_ne_lines
    | users _ => exact absurd h marshal_ne_lines
    | task _ => exact absurd (names_eq h) (by simp)
    | interactiveV2 _ => exact absurd (names_eq h) (by simp)
  | interactiveV2 i =>
    cases e with
    | interactiveV2 _ => rfl
    | authorization _ => exact absurd h marshal_ne_lines
    | users _ => exact absurd h marshal_ne_lines
    | task _ => exact absurd (names_eq h) (by simp)
    | interactiveV1 _ => exact absurd (names_eq h) (by simp)

/-! ## What can be read off a text -/

theorem task_eq_of_canonical {t t' : TaskEnvelope}
    (h : canonicalTaskEnvelope t' = canonicalTaskEnvelope t) : t' = t := by
  have hfields := marshal_inj h
  simp only [List.cons.injEq, Prod.mk.injEq, Value.num.injEq, Value.str.injEq, true_and,
    and_true] at hfields
  obtain ⟨hid, hserver, htype, hversion, hnonce, hpayload⟩ := hfields
  cases t; cases t'
  simp_all

theorem newline_notMem_formatInt (n : Int) : '\n' ∉ formatInt n := (Value.num n).newline_notMem

theorem authorization_eq_of_canonical {f f' : AuthorizationEnvelopeFields}
    (hf : (Envelope.authorization f).Honest)
    (h : canonicalAuthorizationEnvelope crypto f' = canonicalAuthorizationEnvelope crypto f) :
    f' = f := by
  have hplain : '\n' ∉ (authorizationLines crypto f).flatten := by
    have hmessage := hf f.messageId (by simp [Envelope.texts])
    have hissued := hf f.issuedAt (by simp [Envelope.texts])
    have hexpires := hf f.expiresAt (by simp [Envelope.texts])
    simp [authorizationLines, newline_notMem_formatInt, hmessage, hissued, hexpires,
      crypto.sha256_line]
  have hlines : authorizationLines crypto f' = authorizationLines crypto f :=
      (lines_inj (by rfl) hplain h.symm).symm
  simp only [authorizationLines, List.cons.injEq, true_and, and_true, String.toList_inj] at hlines
  obtain ⟨hserver, hmessage, hrevision, hsequence, hissued, hexpires, hlease⟩ := hlines
  have := formatInt_inj hserver
  have := formatInt_inj hrevision
  have := formatInt_inj hsequence
  have := crypto.sha256_injective hlease
  cases f; cases f'
  simp_all

theorem users_eq_of_canonical {f f' : UsersEnvelopeFields} (hf : (Envelope.users f).Honest)
    (h : canonicalUsersEnvelope crypto f' = canonicalUsersEnvelope crypto f) : f' = f := by
  have hplain : '\n' ∉ (usersLines crypto f).flatten := by
    have hmessage := hf f.messageId (by simp [Envelope.texts])
    have hdigest := hf f.digest (by simp [Envelope.texts])
    simp [usersLines, newline_notMem_formatInt, hmessage, hdigest, crypto.sha256_line]
  have hlines : usersLines crypto f' = usersLines crypto f :=
      (lines_inj (by rfl) hplain h.symm).symm
  simp only [usersLines, List.cons.injEq, true_and, and_true, String.toList_inj] at hlines
  obtain ⟨hserver, hmessage, hrevision, hdigest, husers⟩ := hlines
  have := formatInt_inj hserver
  have := formatInt_inj hrevision
  have := crypto.sha256_injective husers
  cases f; cases f'
  simp_all

theorem terminal_eq_of_canonical {i i' : InteractiveEnvelope}
    (h : canonicalInteractiveEnvelope i' = canonicalInteractiveEnvelope i)
    (gate : String) (mode : Mode) : i'.terminal gate mode = i.terminal gate mode := by
  have hfields := marshal_inj h
  simp only [List.cons.injEq, Prod.mk.injEq, Value.num.injEq, Value.str.injEq, true_and,
    and_true] at hfields
  obtain ⟨htype, hserver, hsession, hnonce, hissued, hexpires, hkind, hcols, hrows⟩ := hfields
  simp only [InteractiveEnvelope.terminal, htype, hserver, hsession, hnonce, hissued, hexpires,
    hkind, hcols, hrows]

theorem canonicalV2_inj {i i' : InteractiveEnvelope}
    (h : canonicalInteractiveEnvelopeV2 i' = canonicalInteractiveEnvelopeV2 i) :
    canonicalInteractiveEnvelope i' = canonicalInteractiveEnvelope i ∧
      normalizeInteractiveOrigin i'.origin = normalizeInteractiveOrigin i.origin ∧
        trimSpace i'.mode = trimSpace i.mode := by
  have hfields := marshal_inj h
  simp only [List.cons.injEq, Prod.mk.injEq, Value.num.injEq, Value.str.injEq, true_and,
    and_true] at hfields
  obtain ⟨htype, hserver, hsession, hnonce, hissued, hexpires, hkind, horigin, hcols, hrows,
    hmode⟩ := hfields
  refine ⟨?_, horigin, hmode⟩
  simp only [canonicalInteractiveEnvelope, htype, hserver, hsession, hnonce, hissued, hexpires,
    hkind, hcols, hrows]

@[simp] theorem normalizeInteractiveOrigin_idem (origin : String) :
    normalizeInteractiveOrigin (normalizeInteractiveOrigin origin)
      = normalizeInteractiveOrigin origin := by
  unfold normalizeInteractiveOrigin
  by_cases h : trimSpace origin = "mcp"
  · rw [if_pos h]
    rfl
  · rw [if_neg h]
    rfl

theorem parseMode_eq_of_trimSpace {a b : String} (h : trimSpace a = trimSpace b) :
    parseMode a = parseMode b := by
  unfold parseMode
  rw [h]

/-- **What is asked for can be read off the text**, but for a mode that is not in it. -/
theorem meant_eq_of_canonical {e e' : Envelope} (he : e.Honest)
    (h : e'.canonical crypto = e.canonical crypto) (mode : String) :
    (e'.withUnsignedMode mode).meant = (e.withUnsignedMode mode).meant := by
  have hkind := kind_eq_of_canonical h
  cases e with
  | task t =>
    cases e' with
    | task t' => rw [task_eq_of_canonical h]
    | _ => exact absurd hkind (by simp [Envelope.kind])
  | authorization f =>
    cases e' with
    | authorization f' => rw [authorization_eq_of_canonical he h]
    | _ => exact absurd hkind (by simp [Envelope.kind])
  | users f =>
    cases e' with
    | users f' => rw [users_eq_of_canonical he h]
    | _ => exact absurd hkind (by simp [Envelope.kind])
  | interactiveV1 i =>
    cases e' with
    | interactiveV1 i' =>
      simp only [Envelope.withUnsignedMode, Envelope.meant,
        terminal_mode, terminal_eq_of_canonical h]
    | _ => exact absurd hkind (by simp [Envelope.kind])
  | interactiveV2 i =>
    cases e' with
    | interactiveV2 i' =>
      obtain ⟨hsigned, horigin, hmode⟩ := canonicalV2_inj h
      simp only [normalizeInteractiveOrigin_idem] at horigin
      have hterminal := terminal_eq_of_canonical hsigned
      simp only [terminal_origin] at hterminal
      simp only [Envelope.withUnsignedMode, Envelope.meant, horigin,
        parseMode_eq_of_trimSpace hmode, hterminal]
    | _ => exact absurd hkind (by simp [Envelope.kind])

end Canonical

/-! ## What an accepted envelope was verified as -/

section Accepted

variable {crypto agent}

theorem guard_eq_some {p : Prop} [Decidable p] {u : Unit} :
    (guard p : Option Unit) = some u ↔ p := by
  unfold guard
  split_ifs with h
  · simp [h]
  · simp [h]

theorem originGate_presented (env : InteractiveEnvelope) :
    originGate (normalizeInteractiveOrigin (presentedOrigin env))
      = originGate (presentedOrigin env) := by
  unfold normalizeInteractiveOrigin presentedOrigin
  split_ifs with hempty htrim htrim
  · exact absurd htrim (by decide)
  · rfl
  · rw [trimSpace_trimSpace] at htrim
    rw [htrim]
  · rw [trimSpace_trimSpace] at htrim
    simp [originGate, htrim]

theorem prepareSession_some {env : InteractiveEnvelope} {gate : String} {presented : Envelope}
    {signature : String} {t : Terminal}
    (h : prepareSession crypto agent env gate presented signature = some t) :
    presented.verify crypto agent.secret signature = true ∧ ∃ mode, parseMode env.mode = some mode ∧
      t = env.terminal gate mode := by
  simp only [prepareSession, Option.bind_eq_bind, Option.bind_eq_some_iff, guard_eq_some,
    Option.pure_def, Option.some.injEq] at h
  obtain ⟨-, -, -, -, -, -, issued, -, expires, -, -, hverify, -, -, -, -, mode, hmode, rfl⟩ := h
  exact ⟨hverify, mode, hmode, rfl⟩

/-- **The agent acts on the envelope that it verified**, with the mode of the message where that is
not verified. -/
theorem verified_of_accept {message : Message} {signature : String} {a : Action}
    (h : accept crypto agent message signature = some a) :
    ∃ (e : Envelope) (mode : String), e.verify crypto agent.secret signature = true ∧
      (e.withUnsignedMode mode).meant = some a := by
  cases message with
  | task version t =>
    simp only [accept, acceptControlTask, Option.bind_eq_bind, Option.bind_eq_some_iff,
      guard_eq_some, Option.pure_def, Option.some.injEq] at h
    obtain ⟨-, -, -, hverify, -, -, rfl⟩ := h
    exact ⟨.task t, "", hverify, rfl⟩
  | authorization serverId messageId leaseJson =>
    simp only [accept, verifyAuthorizationEnvelope, Option.bind_eq_bind, Option.bind_eq_some_iff,
      guard_eq_some, Option.pure_def,
      Option.some.injEq] at h
    obtain ⟨-, -, -, -, lease, -, -, hverify, -, -, rfl⟩ := h
    exact ⟨.authorization _, "", hverify, rfl⟩
  | users serverId messageId usersJson =>
    simp only [accept, verifyUsersEnvelope, Option.bind_eq_bind, Option.bind_eq_some_iff,
      guard_eq_some, Option.pure_def,
      Option.some.injEq] at h
    obtain ⟨-, -, -, -, req, -, -, hverify, -, -, rfl⟩ := h
    exact ⟨.users _, "", hverify, rfl⟩
  | interactive version env =>
    simp only [accept, handleInteractivePrepare] at h
    split_ifs at h with h2 h1
    · obtain ⟨t, ht, rfl⟩ := Option.map_eq_some_iff.mp h
      obtain ⟨hverify, mode, hmode, rfl⟩ := prepareSession_some ht
      refine ⟨_, "", hverify, ?_⟩
      simp only [Envelope.withUnsignedMode, Envelope.meant, hmode, originGate_presented,
        Option.map_some,
        terminal_origin]
    · obtain ⟨t, ht, rfl⟩ := Option.map_eq_some_iff.mp h
      obtain ⟨hverify, mode, hmode, rfl⟩ := prepareSession_some ht
      refine ⟨_, env.mode, hverify, ?_⟩
      simp only [Envelope.withUnsignedMode, Envelope.meant, hmode, Option.map_some, terminal_origin]

theorem canonical_eq_of_verify {e e' : Envelope}
    (h : e'.verify crypto agent.secret (e.sign crypto agent.secret) = true) :
    e'.canonical crypto = e.canonical crypto := by
  unfold Envelope.verify at h
  simp only [Bool.and_eq_true, decide_eq_true_eq] at h
  exact crypto.hmac_injective _ h.2

end Accepted

/-- **A signed envelope cannot be altered.** What the agent does on an envelope of any kind, with
any fields, under a signature that the Controller made for an envelope `e`, is what `e` asks for:
the kind is the same, and so is every field that is acted on. The one field that can be another is
the mode of a session request of the first version. -/
theorem accepted_as_signed (e : Envelope) (he : e.Honest) (message : Message) (a : Action)
    (h : accept crypto agent message (e.sign crypto agent.secret) = some a) :
    ∃ mode, (e.withUnsignedMode mode).meant = some a := by
  obtain ⟨e', mode, hverify, hmeant⟩ := verified_of_accept h
  refine ⟨mode, ?_⟩
  rw [← meant_eq_of_canonical he (canonical_eq_of_verify hverify) mode]
  exact hmeant

/-! A request of the first version, signed for a login shell and changed on the way. -/

def plainCrypto : Crypto where
  sha256 text := String.ofList (quote text.toList)
  hmac _ text := String.ofList text
  sha256_injective a b h := by
    have hquote := String.ofList_inj.mp h
    exact String.toList_inj.mp (quote_cut (congrArg (· ++ []) hquote)).1
  sha256_line text := by
    rw [String.toList_ofList]
    exact newline_notMem_quote _
  hmac_injective _ := fun _ _ h => String.ofList_inj.mp h

def openAgent : Agent where
  secret := "hash of the token"
  serverId := 7
  localGateAllows _ := true
  now := 1767225600000000000
  interactiveNonces := []
  decodeLease _ := none
  decodeUsers _ := none

def loginRequest : InteractiveEnvelope where
  type := "interactive_prepare"
  serverId := 7
  sessionId := "s1"
  nonce := "n1"
  issuedAt := "2026-01-01T00:00:00Z"
  expiresAt := "2026-01-01T00:01:00Z"
  kind := "terminal"
  origin := ""
  cols := 80
  rows := 24
  mode := "login"

theorem accepted_as_signed_login :
    (Envelope.interactiveV2 loginRequest).Honest ∧
      ∃ mode, ((Envelope.interactiveV2 loginRequest).withUnsignedMode mode).meant =
        some (.terminalV2 (loginRequest.terminal "remote_terminal" .login)) :=
  ⟨by decide +kernel, accepted_as_signed plainCrypto
    openAgent (.interactiveV2 loginRequest) (by decide +kernel)
    (.interactive 2 { loginRequest with origin := " human " }) _ (by decide +kernel)⟩

/-- The mode of a request of the first version is not signed, so the signature for a login shell is
good for a minimal one. -/
theorem unsigned_mode_accepted :
    (Envelope.interactiveV1 loginRequest).Honest ∧
      accept plainCrypto openAgent (.interactive 1 { loginRequest with mode := "minimal" })
          ((Envelope.interactiveV1 loginRequest).sign plainCrypto openAgent.secret) =
        some (.terminalV1 (loginRequest.terminal "remote_terminal" .minimal)) ∧
      (Envelope.interactiveV1 loginRequest).meant
        = some (.terminalV1 (loginRequest.terminal "remote_terminal" .login)) := by
  decide +kernel

end OboardAgent.Security
