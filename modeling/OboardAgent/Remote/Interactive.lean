import OboardAgent.Lib.GoMap
import OboardAgent.Lib.Run
import OboardAgent.Security.Envelopes

/-!
# Interactive sessions

`internal/agent/remote_terminal.go`. A request for a terminal is judged on the Controller's clock,
and its nonce is then remembered for two minutes of the process's own clock. A request is good for a
minute and may come half a minute early, so the memory outlasts the time in which it is good: as
long as the two clocks keep their distance, it starts one terminal.
-/

namespace OboardAgent.Interactive

open Security
open GoStrings (trimSpace)

/-! ## The memory of nonces -/

/-- A request as it arrives, and what is read of the local gates and the clocks: the Controller's if
it is known, the logical clock, and the process's own. -/
structure Prepare where
  signatureVersion : Int
  env : InteractiveEnvelope
  signature : String
  localGateAllows : String → Bool
  controllerReferenceNow : Option Int
  clock : Int
  now : Int
  /-- Whether a request that starts no terminal came as far as its nonce: its mode was not one. -/
  reached : Bool := false

def Prepare.interactiveValidationNow (e : Prepare) : Int := e.controllerReferenceNow.getD e.clock

def Prepare.nonce (e : Prepare) : String := trimSpace e.env.nonce

def nonceRetention : Int := 120000000000

def retained (nonces : GoMap String Int) (now : Int) : GoMap String Int :=
  nonces.filterMap fun _ expiry => if expiry < now then none else some expiry

def rememberInteractiveNonce (nonces : GoMap String Int) (nonce : String) (now : Int) : GoMap String Int :=
  if nonce ∈ retained nonces now then retained nonces now
  else (retained nonces now).insert nonce (now + nonceRetention)

/-- The nonces with their expiry, the requests that started a terminal, and the time of the last
one. -/
structure World where
  nonces : GoMap String Int := ∅
  started : List Prepare := []
  now : Int

namespace World

variable (crypto : Crypto) (identity : Agent) (w : World) (e : Prepare)

def Starts : Prop :=
  (handleInteractivePrepare crypto
    { identity with
      localGateAllows := e.localGateAllows
      now := e.interactiveValidationNow
      interactiveNonces := (retained w.nonces e.now).keys }
    e.signatureVersion e.env e.signature).isSome = true

instance : Decidable (w.Starts crypto identity e) := inferInstanceAs (Decidable (_ = _))

def step (w : World) (e : Prepare) : World where
  nonces :=
    if w.Starts crypto identity e ∨ e.reached = true then rememberInteractiveNonce w.nonces e.nonce e.now
    else w.nonces
  started := if w.Starts crypto identity e then w.started ++ [e] else w.started
  now := e.now

/-- The request comes after the others, and the clock that it is judged on is as far ahead as
ever. -/
def InStep (offset : Int) (w : World) (e : Prepare) : Prop :=
  w.now ≤ e.now ∧ e.interactiveValidationNow = e.now + offset

instance (offset : Int) : Decidable (InStep offset w e) := inferInstanceAs (Decidable (_ ∧ _))

variable {crypto identity w e} {offset : Int} {d : Prepare}

theorem Starts.good (h : w.Starts crypto identity e) (hin : InStep offset w e) :
    e.nonce ∉ retained w.nonces e.now ∧ ∃ issued, Rfc3339.parse e.env.issuedAt = some issued ∧
      e.now + offset < issued + interactivePrepareTTL ∧ issued ≤ e.now + offset + maxClockSkew := by
  simp only [Starts, handleInteractivePrepare, hin.2] at h
  obtain ⟨gate, presented, t, ht⟩ : ∃ gate presented t, prepareSession crypto _ e.env gate presented
      e.signature = some t := by
    split_ifs at h
    · exact ⟨_, _, Option.isSome_iff_exists.mp (Option.isSome_map.symm.trans h)⟩
    · exact ⟨_, _, Option.isSome_iff_exists.mp (Option.isSome_map.symm.trans h)⟩
    · cases h
  simp only [prepareSession, Option.bind_eq_bind, Option.bind_eq_some_iff, guard_eq_some] at ht
  obtain ⟨-, -, -, -, -, -, issued, hissued, expires, -, -, -, -, htimes, -, hnonce, -⟩ := ht
  simp only [validateInteractiveTimes, Bool.and_eq_true, decide_eq_true_eq] at htimes
  refine ⟨fun hmem => ?_, issued, hissued, by omega, htimes.2⟩
  simp only [Agent.rememberInteractiveNonce, Bool.and_eq_true, Bool.not_eq_true'] at hnonce
  exact absurd (List.contains_iff_mem.mpr (AList.mem_keys.mp hmem)) (Bool.eq_false_iff.mp hnonce.2)

theorem lookup_retained {nonces : GoMap String Int} {nonce : String} {now expiry : Int}
    (h : nonces.lookup nonce = some expiry) (hlive : now ≤ expiry) :
    (retained nonces now).lookup nonce = some expiry := by
  simp [retained, h, Int.not_lt.mpr hlive]

structure Remembered (offset : Int) (w : World) (e : Prepare) : Prop where
  issued : ∃ issued, Rfc3339.parse e.env.issuedAt = some issued ∧ issued ≤ e.now + offset + maxClockSkew
  nonce : w.now ≤ e.now + nonceRetention →
    ∃ expiry, w.nonces.lookup e.nonce = some expiry ∧ e.now + nonceRetention ≤ expiry

theorem Remembered.step (h : Remembered offset w d) (hlater : w.now ≤ e.now) :
    Remembered offset (w.step crypto identity e) d := by
  refine ⟨h.issued, fun hin => ?_⟩
  obtain ⟨expiry, hlookup, hexpiry⟩ := h.nonce (Int.le_trans hlater hin)
  have hkept : (retained w.nonces e.now).lookup d.nonce = some expiry :=
    lookup_retained hlookup (Int.le_trans hin hexpiry)
  refine ⟨expiry, ?_, hexpiry⟩
  dsimp only [World.step, rememberInteractiveNonce]
  split_ifs with _ hold
  · exact hkept
  · have hne : d.nonce ≠ e.nonce := fun heq => hold (heq ▸ GoMap.mem_iff_lookup.mpr ⟨expiry, hkept⟩)
    rw [GoMap.lookup_insert_eq, if_neg hne, hkept]
  · exact hlookup

theorem Remembered.new (hin : InStep offset w e) (hstarts : w.Starts crypto identity e) :
    Remembered offset (w.step crypto identity e) e := by
  obtain ⟨hnew, issued, hissued, -, hearly⟩ := hstarts.good hin
  refine ⟨⟨issued, hissued, hearly⟩, fun _ => ⟨e.now + nonceRetention, ?_, Int.le_refl _⟩⟩
  simp [World.step, hstarts, rememberInteractiveNonce, hnew]

/-- If the nonces are the same, the second request was issued more than half a minute after the
first. -/
def Apart (d e : Prepare) : Prop :=
  d.nonce = e.nonce → ∃ issued issued', Rfc3339.parse d.env.issuedAt = some issued ∧
    Rfc3339.parse e.env.issuedAt = some issued' ∧ issued + maxClockSkew < issued'

theorem Remembered.apart (h : Remembered offset w d) (hin : InStep offset w e)
    (hstarts : w.Starts crypto identity e) : Apart d e := by
  intro heq
  obtain ⟨hnew, issued', hissued', hlate, -⟩ := hstarts.good hin
  obtain ⟨issued, hissued, hearly⟩ := h.issued
  refine ⟨issued, issued', hissued, hissued', ?_⟩
  -- the nonce was forgotten, so two minutes are over
  have hover : ¬e.now ≤ d.now + nonceRetention := by
    intro hle
    obtain ⟨expiry, hlookup, hexpiry⟩ := h.nonce (Int.le_trans hin.1 hle)
    exact hnew (heq ▸ GoMap.mem_iff_lookup.mpr ⟨_, lookup_retained hlookup (Int.le_trans hle hexpiry)⟩)
  simp only [maxClockSkew, interactivePrepareTTL, nonceRetention] at hearly hlate hover ⊢
  omega

/-- **A request starts one terminal.** In a run of any requests, judged on a clock that keeps its
distance from the process's, two that start a terminal with the same nonce were issued more than
half a minute apart. So none does it twice. -/
theorem nonce_starts_once (crypto : Crypto) (identity : Agent) (start offset : Int) (es : List Prepare)
    (h : Run.Along (step crypto identity) (InStep offset) { now := start } es) :
    (Run.exec (step crypto identity) { now := start } es).started.Pairwise Apart := by
  refine (Run.invariant (I := fun w => w.started.Pairwise Apart ∧ ∀ d ∈ w.started, Remembered offset w d)
    (fun w e hw hin => ?_) ⟨.nil, by simp⟩ h).1
  have hkept : ∀ d ∈ w.started, Remembered offset (w.step crypto identity e) d :=
    fun d hd => (hw.2 d hd).step hin.1
  by_cases hstarts : w.Starts crypto identity e
  · rw [show (w.step crypto identity e).started = w.started ++ [e] from if_pos hstarts]
    refine ⟨List.pairwise_append.mpr ⟨hw.1, List.pairwise_singleton .., fun d hd => ?_⟩,
      List.forall_mem_append.mpr ⟨hkept, List.forall_mem_singleton.mpr (.new hin hstarts)⟩⟩
    exact List.forall_mem_singleton.mpr ((hw.2 d hd).apart hin hstarts)
  · rw [show (w.step crypto identity e).started = w.started from if_neg hstarts]
    exact ⟨hw.1, hkept⟩

def signed (env : InteractiveEnvelope) (seconds : Int) : Prepare where
  signatureVersion := 2
  env := env
  signature := (Envelope.interactiveV2 env).sign plainCrypto openAgent.secret
  localGateAllows _ := true
  controllerReferenceNow := some (openAgent.now + seconds * 1000000000)
  clock := 0
  now := seconds * 1000000000

/-- Sent early and again at the end of its minute, the request starts one terminal. -/
theorem login_starts_once :
    let es := [signed loginRequest (-20), signed loginRequest 59]
    (∀ e ∈ es, e.interactiveValidationNow = e.now + openAgent.now) ∧
      (Run.exec (step plainCrypto openAgent) { now := -20000000000 } es).started.length = 1 ∧
      (Run.exec (step plainCrypto openAgent) { now := -20000000000 } es).started.Pairwise Apart :=
  ⟨by decide +kernel, by decide +kernel,
    nonce_starts_once plainCrypto openAgent (-20000000000) openAgent.now _ (by decide +kernel)⟩

/-- The nonce of a request comes again in one that is issued three minutes later, and starts a
second terminal. -/
theorem nonce_starts_two :
    let later := { loginRequest with issuedAt := "2026-01-01T00:03:00Z", expiresAt := "2026-01-01T00:04:00Z" }
    (Run.exec (step plainCrypto openAgent) { now := 0 } [signed loginRequest 0, signed later 180]).started.map
      Prepare.nonce = ["n1", "n1"] := by
  decide +kernel

end World

end OboardAgent.Interactive
