import OboardAgent.AgentLink.Backoff

/-!
# The two ways of a callback

`controllerJSON` (`internal/agent/agent.go`) sends a callback over HTTP; with the binary transport
it hands it to `controllerJSONOverTransport` (`agentlink_transport.go`), which sends a request
frame. A frame has a path and a body: the method goes with the path, and the session has the agent's
identity. The rest of a request has no place in it, nor has the Retry-After of an answer.

Both are functions of one answer of the Controller, which is the same by assumption. Encoding and
decoding of JSON are parameters. The random number of the pause stands for its jitter, so an equal
pause is equal up to it.
-/

namespace OboardAgent.Callbacks

open Backoff

structure Callback (β : Type) where
  method : String
  path : String
  headers : List (String × String) := []
  body : Option β := none
  out : Bool := false
  auth : Bool := true

/-- The answer, and what the clock and the generator give when it comes. -/
structure Answer where
  status : Int
  retryAfter : String := ""
  body : String := ""
  now : Int
  clock : Int
  random : Nat := 0

def Answer.refusal (a : Answer) (retryAfter : String) : Refusal :=
  { now := a.now, status := a.status, retryAfter, clock := a.clock, random := a.random }

/-- `controllerAuthBackoff` with its class. -/
structure Pause where
  backoff : ControllerAuthBackoff := {}
  cls : Option Backoff.Class := none

structure Request where
  method : String
  path : String
  headers : List (String × String)
  body : Option String

/-- `RequestFrame`, without its number. -/
structure Frame where
  path : String
  body : Option String
deriving DecidableEq

inductive Failure where
  | marshal
  | paused
  | returned (status : Int)
  | decode
deriving DecidableEq

structure Outcome (σ γ : Type) where
  sent : Option σ
  result : Except Failure (Option γ)
  pause : Pause

section

variable {β γ : Type} (marshal : β → Option String) (unmarshal : String → Option γ)
  (parseTime : String → Option Int) (identity : List (String × String))

/-- `remaining(time.Now()) > 0`. -/
def Pause.holds (p : Pause) (now : Int) : Bool :=
  p.backoff.until_ ≠ GoTime.zero && now < p.backoff.until_

def Pause.arm (p : Pause) (e : Refusal) : Pause :=
  { backoff := armWithResponse parseTime p.backoff e
    cls := (controllerBackoffClass e.status).or p.cls }

def decoded (data : String) : Except Failure (Option γ) :=
  match unmarshal data with
  | some v => .ok (some v)
  | none => .error .decode

def encoded (body : Option β) : Except Failure (Option String) :=
  match body with
  | none => .ok none
  | some b => (marshal b).elim (.error .marshal) (.ok ∘ some)

variable (c : Callback β)

/-- `identity` are the headers of the agent's id and token. -/
def Callback.requestHeaders : List (String × String) :=
  c.headers ++ (if c.body.isSome then [("Content-Type", "application/json")] else []) ++
    if c.auth then identity else []

def controllerJSON (a : Answer) (p : Pause) (now : Int) : Outcome Request γ :=
  match encoded marshal c.body with
  | .error e => ⟨none, .error e, p⟩
  | .ok body =>
    if c.auth && p.holds now then ⟨none, .error .paused, p⟩
    else
      let pause :=
        if !c.auth then p
        else if (controllerBackoffClass a.status).isSome then p.arm parseTime (a.refusal a.retryAfter)
        else if a.status < 300 then {}
        else p
      { sent := some ⟨c.method, c.path, c.requestHeaders identity, body⟩
        result :=
          if 300 ≤ a.status then .error (.returned a.status)
          else if c.out then decoded unmarshal a.body
          else .ok none
        pause }

def controllerJSONOverTransport (a : Answer) (p : Pause) (now : Int) : Outcome Frame γ :=
  if c.auth && p.holds now then ⟨none, .error .paused, p⟩
  else
    match encoded marshal c.body with
    | .error e => ⟨none, .error e, p⟩
    | .ok body =>
      let pause :=
        if !c.auth then p
        else if a.status = 401 ∨ a.status = 403 then p.arm parseTime (a.refusal "")
        else if a.status < 300 then {}
        else p
      -- `Request` gets the `json.RawMessage` as an `any`, and a nil one in it is not nil: it
      -- encodes as null
      { sent := some ⟨c.path, some (body.getD "null")⟩
        result :=
          if 300 ≤ a.status then .error (.returned a.status)
          else if c.out && a.body ≠ "" then decoded unmarshal a.body
          else .ok none
        pause }

/-! ## Where they agree -/

/-- What HTTP adds to the headers of a callback. A session has no need of it. -/
def Callback.ownHeaders : List (String × String) :=
  (if c.body.isSome then [("Content-Type", "application/json")] else []) ++
    if c.auth then identity else []

/-- The answer has something to decode, or nothing is decoded. -/
def Decodes (a : Answer) : Prop := a.body ≠ "" ∨ c.out = false ∨ 300 ≤ a.status

/-- What is sent the two ways, and what comes of it. -/
structure Agrees (c : Callback β) (a : Answer) (http : Outcome Request γ) (r : Request)
    (binary : Outcome Frame γ) (f : Frame) : Prop where
  path : r.method = c.method ∧ r.path = f.path
  body : r.body = f.body ↔ c.body.isSome
  /-- A frame hands over no header. -/
  headers : r.headers = c.ownHeaders identity ↔ c.headers = []
  result : http.result.toOption = binary.result.toOption ↔ Decodes c a
  pause : c.auth = false ∨ a.status ≠ 429 ∧ a.status ≠ 503 → http.pause = binary.pause

variable {marshal unmarshal parseTime identity}

theorem arm_auth (p : Pause) (a : Answer) (r : String) (h : a.status = 401 ∨ a.status = 403) :
    p.arm parseTime (a.refusal r) = p.arm parseTime (a.refusal "") := by
  have hclass : controllerBackoffClass a.status = some .auth := if_pos h
  simp only [Pause.arm, Answer.refusal, armWithResponse, hclass, controllerBackoffDelay]

theorem isSome_class {a : Answer} (h : a.status ≠ 429 ∧ a.status ≠ 503) :
    (controllerBackoffClass a.status).isSome ↔ a.status = 401 ∨ a.status = 403 := by
  unfold controllerBackoffClass
  split <;> simp_all

/-- What is encoded is a body exactly when there is one. -/
theorem isSome_encoded {b : Option β} {body : Option String} (h : encoded marshal b = .ok body) :
    body.isSome = b.isSome := by
  unfold encoded at h
  cases b with
  | none =>
    cases h
    rfl
  | some b =>
    cases hm : marshal b <;> simp only [hm, Option.elim] at h <;> cases h
    rfl

end

end OboardAgent.Callbacks
