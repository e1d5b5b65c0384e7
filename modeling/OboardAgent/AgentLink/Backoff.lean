import OboardAgent.Lib.GoStrings
import OboardAgent.Lib.GoTime
import OboardAgent.Lib.Run

/-!
# The pause after a refusal

`internal/agent/controller_auth_backoff.go`. When the Controller refuses the agent's identity, or
asks it to slow down, the calls to it pause. Each refusal asks for its own delay, and the pause
lasts as long as the one that asks for the longest. The delay after a refused identity doubles; a
throttling answer may name one, in seconds or as a date. Seconds are read as an `int64` and turned
into nanoseconds without a check, so a number that is too large for that becomes a short delay, and
one that is no `int64` at all is not read.

Times are nanoseconds.
-/

namespace OboardAgent.Backoff

open GoStrings (trimSpace int64)

def second : Int := 1000000000

inductive Class where
  | auth
  | throttle
deriving DecidableEq

def controllerBackoffClass (status : Int) : Option Class :=
  if status = 401 ∨ status = 403 then some .auth
  else if status = 429 ∨ status = 503 then some .throttle
  else none

def controllerAuthBackoffBase : Int := 30 * second
def controllerAuthBackoffCap : Int := 300 * second
def controllerThrottleDefault : Int := 30 * second
def controllerThrottleJitterMax : Int := 5 * second
def controllerThrottleMaxDefer : Int := 300 * second

def decimal (raw : String) : Option Int :=
  match raw.toList with
  | '-' :: digits => (unsigned digits).map (- ·)
  | '+' :: digits => unsigned digits
  | digits => unsigned digits
where
  unsigned (digits : List Char) : Option Int :=
    if digits ≠ [] ∧ digits.all Char.isDigit then some (Nat.ofDigitChars 10 digits 0) else none

def atoi (raw : String) : Option Int := (decimal raw).filter fun n => int64 n = n

/-- A refusal: when, with which status and which Retry-After (empty if there is none), and what the
clock reads and the generator gives while the delay is worked out. -/
structure Refusal where
  now : Int
  status : Int
  retryAfter : String := ""
  clock : Int
  random : Nat := 0

section

-- `http.ParseTime`
variable (parseTime : String → Option Int) (e : Refusal)

def parseRetryAfter (fallback : Int) : Int :=
  let raw := trimSpace e.retryAfter
  if raw = "" then fallback
  else
    match atoi raw with
    | some seconds => if seconds < 0 then fallback else int64 (seconds * second)
    | none =>
      match parseTime raw with
      | some date =>
        -- `time.Until` stops at the longest duration there is
        let delay := min (date - e.clock) 9223372036854775807
        if 0 < delay then delay else fallback
      | none => fallback

/-- A power of two is exact in floating point, and one that is infinite is above the cap. -/
def authBase (authStep : Nat) : Int := min (controllerAuthBackoffBase * 2 ^ authStep) controllerAuthBackoffCap

def controllerBackoffDelay (authStep : Nat) : Class → Int
  | .auth =>
    let base := authBase authStep
    let jitterSpan := max (base / 5) second
    base - jitterSpan / 2 + e.random % (jitterSpan + 1)
  | .throttle =>
    let delay := parseRetryAfter parseTime e controllerThrottleDefault
    max (min delay controllerThrottleMaxDefer) second + e.random % (controllerThrottleJitterMax + 1)

/-- `controllerAuthBackoff`, but for what is only logged. -/
structure ControllerAuthBackoff where
  until_ : Int := GoTime.zero
  authStep : Nat := 0

def armWithResponse (b : ControllerAuthBackoff) (e : Refusal) : ControllerAuthBackoff :=
  match controllerBackoffClass e.status with
  | none => b
  | some c =>
    { until_ := max b.until_ (e.now + controllerBackoffDelay parseTime e b.authStep c)
      authStep := if c = .auth then b.authStep + 1 else b.authStep }

/-! ## What was asked for -/

def requested : Int :=
  let raw := trimSpace e.retryAfter
  if raw = "" then 0
  else
    match decimal raw with
    | some seconds => seconds * second
    | none => (parseTime raw).elim 0 (· - e.clock)

/-- The seconds of the header are few enough for a duration. -/
def Refusal.Fits (e : Refusal) : Prop := ∀ n ∈ decimal (trimSpace e.retryAfter), n ≤ 9223372036

instance (e : Refusal) : Decidable e.Fits := inferInstanceAs (Decidable (∀ n ∈ decimal _, _))

def Refusal.isAuth (e : Refusal) : Bool := controllerBackoffClass e.status = some .auth

variable {parseTime e}

theorem int64_of_fits {n : Int} (h0 : 0 ≤ n) (h : n ≤ 9223372036) :
    int64 n = n ∧ int64 (n * second) = n * second := by
  unfold int64 second
  exact ⟨Int.bmod_eq_of_le (by omega) (by omega), Int.bmod_eq_of_le (by omega) (by omega)⟩

theorem requested_le (h : e.Fits) :
    min (requested parseTime e) controllerThrottleMaxDefer ≤
      max (min (parseRetryAfter parseTime e controllerThrottleDefault) controllerThrottleMaxDefer)
        second := by
  simp only [requested, parseRetryAfter, controllerThrottleMaxDefer, controllerThrottleDefault]
  have hsecond : (0 : Int) < second := by decide
  split
  · omega
  cases hn : decimal (trimSpace e.retryAfter) with
  | some n =>
    by_cases h0 : 0 ≤ n
    · obtain ⟨hread, hscaled⟩ := int64_of_fits h0 (h n hn)
      simp only [atoi, hn, Option.filter_some, hread, decide_true, if_true,
        if_neg (Int.not_lt.mpr h0), hscaled]
      exact le_max_left _ _
    · have hneg : n * second < 0 := Int.mul_neg_of_neg_of_pos (Int.not_le.mp h0) hsecond
      dsimp only
      omega
  | none =>
    simp only [atoi, hn, Option.filter_none]
    cases parseTime (trimSpace e.retryAfter) with
    | none =>
      dsimp only [Option.elim_none]
      omega
    | some date =>
      simp only [Option.elim_some]
      unfold second
      split <;> omega

theorem authBase_le (k : Nat) : 9 * authBase k ≤ 10 * controllerBackoffDelay parseTime e k .auth := by
  have hpow : (1 : Int) ≤ 2 ^ k := one_le_pow₀ (by decide)
  simp only [controllerBackoffDelay]
  generalize hbase : authBase k = base
  have hmin : 30 * second ≤ base := by
    rw [← hbase, authBase, controllerAuthBackoffBase, controllerAuthBackoffCap]
    unfold second
    omega
  have hrandom := Int.emod_nonneg (e.random : Int) (b := max (base / 5) second + 1) (by unfold second; omega)
  unfold second at *
  omega

variable (parseTime) in
theorem delay_le (b : ControllerAuthBackoff) {c : Class} (h : controllerBackoffClass e.status = some c) :
    e.now + controllerBackoffDelay parseTime e b.authStep c ≤ (armWithResponse parseTime b e).until_ := by
  simp only [armWithResponse, h]
  exact le_max_right _ _

theorem authStep_exec (es : List Refusal) (b : ControllerAuthBackoff) :
    (Run.exec (armWithResponse parseTime) b es).authStep = b.authStep + es.countP Refusal.isAuth := by
  induction es generalizing b with
  | nil => rfl
  | cons e es ih =>
    rw [Run.exec_cons, ih, List.countP_cons]
    unfold armWithResponse Refusal.isAuth
    cases controllerBackoffClass e.status with
    | none => simp
    | some c => cases c <;> simp; omega

end

/-- **The pause is as long as the Controller wants it.** After any refusals, a refusal never moves
the end of the pause to an earlier time; after a throttling answer whose seconds fit a duration it
is at least the requested delay ahead, or five minutes, and after a refusal of the identity, the `k
+ 1`st, at least nine tenths of thirty seconds times two to the `k`, or of five minutes. -/
theorem pause_honours_controller (parseTime : String → Option Int) (pre : List Refusal)
    (e : Refusal) :
    let b := Run.exec (armWithResponse parseTime) {} pre
    let b' := armWithResponse parseTime b e
    b.until_ ≤ b'.until_ ∧
      (controllerBackoffClass e.status = some .throttle → e.Fits →
        min (requested parseTime e) (300 * second) ≤ b'.until_ - e.now) ∧
      ∀ k, e.isAuth = true → (pre ++ [e]).countP Refusal.isAuth = k + 1 →
        9 * min (30 * second * 2 ^ k) (300 * second) ≤ 10 * (b'.until_ - e.now) := by
  intro b b'
  have hstep : b.authStep = pre.countP Refusal.isAuth := by
    simpa using authStep_exec pre ({} : ControllerAuthBackoff)
  refine ⟨?_, fun hclass hfits => ?_, fun k hauth hk => ?_⟩
  · simp only [b', armWithResponse]
    split
    · exact Int.le_refl _
    · exact le_max_left _ _
  · have hjitter := Int.emod_nonneg (e.random : Int) (b := controllerThrottleJitterMax + 1) (by decide)
    have harmed := delay_le parseTime b hclass
    calc min (requested parseTime e) (300 * second)
        ≤ controllerBackoffDelay parseTime e b.authStep .throttle :=
          Int.le_trans (requested_le hfits) (Int.le_add_of_nonneg_right hjitter)
      _ ≤ b'.until_ - e.now := Int.le_sub_left_of_add_le harmed
  · rw [List.countP_append, List.countP_singleton, if_pos hauth] at hk
    have harmed := delay_le parseTime b (of_decide_eq_true hauth)
    rw [hstep, Nat.succ.inj hk] at harmed
    calc 9 * min (30 * second * 2 ^ k) (300 * second)
        ≤ 10 * controllerBackoffDelay parseTime e k .auth := authBase_le k
      _ ≤ 10 * (b'.until_ - e.now) :=
          Int.mul_le_mul_of_nonneg_left (Int.le_sub_left_of_add_le harmed) (by decide)

def throttled (retryAfter : String) : Refusal := { now := 0, status := 429, retryAfter, clock := 0 }

/-- Two refusals of the identity, and then a minute that the Controller asks for. -/
theorem minute_is_waited :
    let refused : Refusal := { now := 0, status := 401, clock := 0 }
    (throttled "60").Fits ∧ requested (fun _ => none) (throttled "60") = 60 * second ∧
      min (requested (fun _ => none) (throttled "60")) (300 * second) ≤
        (armWithResponse (fun _ => none) (Run.exec (armWithResponse fun _ => none) {} [refused, refused])
          (throttled "60")).until_ - 0 :=
  ⟨by decide, by decide, (pause_honours_controller (fun _ => none) _ _).2.1 (by decide) (by decide)⟩

/-- Asked for about three hundred years the pause is one second, and asked for more than an `int64`
of them it is the usual half minute. -/
theorem centuries_wrap :
    (armWithResponse (fun _ => none) {} (throttled "9223372037")).until_ = second ∧
      (armWithResponse (fun _ => none) {} (throttled "99999999999999999999")).until_ = 30 * second := by
  decide

theorem delay_le_cap (parseTime : String → Option Int) (e : Refusal) (k : Nat) (c : Class) :
    controllerBackoffDelay parseTime e k c ≤ 330 * second := by
  cases c with
  | auth =>
    have hcap : authBase k ≤ 300 * second := min_le_right _ _
    simp only [controllerBackoffDelay]
    generalize authBase k = base at hcap ⊢
    have hrandom := Int.emod_lt_of_pos (e.random : Int) (b := max (base / 5) second + 1)
        (by unfold second; omega)
    unfold second at *
    omega
  | throttle =>
    have hrandom := Int.emod_lt_of_pos (e.random : Int) (b := controllerThrottleJitterMax + 1) (by decide)
    simp only [controllerBackoffDelay]
    unfold controllerThrottleMaxDefer controllerThrottleJitterMax second at *
    omega

/-- **No answer shuts the agent off for long.** After any refusals, with any Retry-After, the pause
is over at most five and a half minutes after the latest of them. -/
theorem pause_is_bounded (parseTime : String → Option Int) (es : List Refusal) (last : Int)
    (h : ∀ e ∈ es, e.now ≤ last) :
    (Run.exec (armWithResponse parseTime) {} es).until_ ≤ max GoTime.zero (last + 330 * second) := by
  refine Run.invariant (I := fun b : ControllerAuthBackoff =>
    b.until_ ≤ max GoTime.zero (last + 330 * second)) ?_ (le_max_left _ _)
    (Run.Along.of_forall h)
  intro b e hb he
  unfold armWithResponse
  split
  · exact hb
  · rename_i c hclass
    have hdelay := delay_le_cap parseTime e b.authStep c
    dsimp only
    omega

theorem pause_is_bounded_after_wrap :
    (Run.exec (armWithResponse fun _ => none) {}
      [throttled "9223372036", throttled "9223372037"]).until_ ≤ 330 * second :=
  Int.le_trans (pause_is_bounded _ _ 0 (by decide)) (by decide)

end OboardAgent.Backoff
