import OboardAgent.Authorization.Session
import OboardAgent.Lib.GoStrings

/-!
# The timer of the reaper

`NextExpiry` of `lease.go` and `nextAuthorizationWait` of `minibox/authorization.go`: how long the
reaper sleeps. The zero time stands for "nothing is scheduled", so an expiry at that very instant is
not seen.
-/

namespace OboardAgent.Authorization

open GoStrings (int64)

namespace Lease

def earliestEnd (now : Int) (next : Int) (raws : List String) : Int :=
  raws.foldl (fun next raw =>
    match Rfc3339.parse raw with
    | none => next
    | some stop => if now < stop ∧ stop < next then stop else next) next

def nextExpiry (l : Lease) (now : Int) : Int :=
  match l.window with
  | .error _ => zeroTime
  | .ok (_, expires) =>
    let next := earliestEnd now expires l.grants.values
    if next ≤ now then zeroTime else next

end Lease

def authorizationReaperMaxWait : Int := 5 * 1000000000

def tenMilliseconds : Int := 10 * 1000000

/-- `t.Sub(u)`: a duration stops at its bounds. -/
def durationBetween (t u : Int) : Int := max (-9223372036854775808) (min 9223372036854775807 (t - u))

/-- `nextAuthorizationWait`, for a tracker that has a store. -/
def nextAuthorizationWait (s : Store) (now : Int) : Int :=
  match s.err, s.lease with
  | none, some l =>
    let next := l.nextExpiry now
    if next = Lease.zeroTime then authorizationReaperMaxWait
    else
      let wait := int64 (durationBetween next now + tenMilliseconds)
      if wait < authorizationReaperMaxWait then max wait tenMilliseconds else authorizationReaperMaxWait
  | _, _ => authorizationReaperMaxWait

namespace Lease

variable {l : Lease} {key : String} {now t : Int}

theorem earliestEnd_spec : ∀ (raws : List String) (next : Int), now < next →
    now < earliestEnd now next raws ∧ earliestEnd now next raws ≤ next ∧
      ∀ raw ∈ raws, ∀ stop, Rfc3339.parse raw = some stop → now < stop →
        earliestEnd now next raws ≤ stop := by
  intro raws
  induction raws with
  | nil => exact fun _ h => ⟨h, le_refl _, by simp⟩
  | cons raw rest ih =>
    intro next h
    cases hp : Rfc3339.parse raw with
    | none =>
      have hstep : earliestEnd now next (raw :: rest) = earliestEnd now next rest := by simp [earliestEnd, hp]
      rw [hstep]
      simpa [hp] using ih next h
    | some stop =>
      have hstep : earliestEnd now next (raw :: rest)
          = earliestEnd now (if now < stop ∧ stop < next then stop else next)
            rest := by simp [earliestEnd, hp]
      rw [hstep]
      obtain ⟨hlt, hle, hall⟩ := ih (if now < stop ∧ stop < next then stop else next) (by split <;> omega)
      refine ⟨hlt, hle.trans (by split <;> omega), ?_⟩
      rintro raw' hmem stop' hp' hnow
      rcases List.mem_cons.mp hmem with rfl | hrest
      · obtain rfl := Option.some.inj (hp.symm.trans hp')
        exact hle.trans (by split <;> omega)
      · exact hall raw' hrest stop' hp' hnow

theorem allows_until (h : l.allows key now = true) :
    ∃ issued expires raw stop, l.window = .ok (issued, expires) ∧ raw ∈ l.grants.values ∧
      Rfc3339.parse raw = some stop ∧ now < stop ∧ stop ≤ expires ∧
      ∀ t, now ≤ t → (l.allows key t = true ↔ t < stop) := by
  obtain ⟨raw, hraw⟩ := allows_granted h
  unfold allows at h ⊢
  split at h
  · cases h
  rename_i hkey
  split at h
  · cases h
  rename_i issued expires hw
  split at h
  · cases h
  rw [hraw, Option.getD_some] at h
  split at h
  · cases h
  rename_i stop hstop
  simp only [Bool.and_eq_true, decide_eq_true_eq] at h
  refine ⟨issued, expires, raw, stop, hw, GoMap.mem_values.mpr ⟨key, hraw⟩, hstop, h.2, h.1, ?_⟩
  intro t ht
  simp only [hkey, if_false, hraw, Option.getD_some, hstop]
  split <;> simp <;> omega

end Lease

/-- **The reaper wakes in time.** Let `x` be the first instant after `now` at which a key that is
admitted now no longer is, and the clock not before the zero time. The wait is over 10 ms after `x`
at the latest, or after the maximum if that is earlier, and from `x` on the store refuses the
key. -/
theorem wakes_in_time (s : Store) (l : Lease) (now x : Int) (herr : s.err = none) (hl : s.lease = some l)
    (hnow : Lease.zeroTime ≤ now)
    (hx : IsLeast {x | now < x ∧ ∃ key, l.allows key now = true ∧ l.allows key x = false} x) :
    nextAuthorizationWait s now ≤ min (x - now + tenMilliseconds) authorizationReaperMaxWait ∧
    ∀ key, l.allows key now = true → l.allows key x = false →
      ∀ t, x ≤ t → s.allowsLoaded key t = false := by
  obtain ⟨⟨hlt, key, hin, hout⟩, -⟩ := hx
  constructor
  · obtain ⟨issued, expires, raw, stop, hw, hmem, hp, hstop, hle, huntil⟩ := Lease.allows_until hin
    have hstopx : stop ≤ x := not_lt.mp fun h => by simp [(huntil x hlt.le).mpr h] at hout
    obtain ⟨hafter, -, hends⟩ := Lease.earliestEnd_spec l.grants.values expires (hstop.trans_le hle)
    have hearly := hends raw hmem stop hp hstop
    -- The window is no longer than the lifetime, so the duration is far from its bounds.
    have hshort : stop - now ≤ MaxLifetime := by
      have hwin := Lease.window_le hw
      have hopen := Lease.allows_window hin
      have hissued : l.issued = issued := by simp [Lease.issued, Lease.windowOrZero, hw]
      omega
    have hnext : l.nextExpiry now = Lease.earliestEnd now expires l.grants.values := by
      simp [Lease.nextExpiry, hw, hafter]
    unfold nextAuthorizationWait
    rw [herr, hl]
    simp only [hnext]
    generalize Lease.earliestEnd now expires l.grants.values = next at *
    have hsub : durationBetween next now = next - now := by
      simp only [durationBetween, MaxLifetime] at *
      omega
    have hint : int64 (next - now + tenMilliseconds) = next - now + tenMilliseconds := by
      simp only [int64, tenMilliseconds, MaxLifetime] at *
      exact Int.bmod_eq_of_le (by omega) (by omega)
    rw [if_neg (by omega), hsub, hint]
    split <;> simp only [authorizationReaperMaxWait, tenMilliseconds] at * <;> omega
  · intro key hin hout t ht
    obtain ⟨-, -, -, stop, -, -, -, -, -, huntil⟩ := Lease.allows_until hin
    have hstopx : stop ≤ x := not_lt.mp fun h => by simp [(huntil x hlt.le).mpr h] at hout
    rw [Bool.eq_false_iff]
    intro hallows
    obtain ⟨-, -, l', hl', h⟩ := Store.allowsLoaded_iff.mp hallows
    obtain rfl := Option.some.inj (hl.symm.trans hl')
    have := (huntil t (by omega)).mp h
    omega

def endsAt (issuedAt stop : String) : Lease :=
  { revision := 1, issuedAt := issuedAt, expiresAt := stop, grants := AList.singleton "k" stop }

theorem isLeast_end {issuedAt text : String} {now e : Int} (he : Rfc3339.parse text = some e)
    (h : (endsAt issuedAt text).allows "k" now = true) :
    IsLeast {x | now < x ∧ ∃ key, (endsAt issuedAt text).allows key now = true ∧
      (endsAt issuedAt text).allows key x = false} e := by
  have hend : ∀ key, (endsAt issuedAt text).allows key now = true →
      now < e ∧ ∀ t, now ≤ t → ((endsAt issuedAt text).allows key t = true ↔ t < e) := by
    intro key hkey
    obtain ⟨-, -, raw, stop, -, hmem, hp, hnow, -, huntil⟩ := Lease.allows_until hkey
    obtain rfl : raw = text := by simpa [endsAt, GoMap.values] using hmem
    obtain rfl := Option.some.inj (hp.symm.trans he)
    exact ⟨hnow, huntil⟩
  refine ⟨⟨(hend "k" h).1, "k", h, ?_⟩, ?_⟩
  · exact Bool.eq_false_iff.mpr fun hlate => lt_irrefl e (((hend "k" h).2 e (hend "k" h).1.le).mp hlate)
  · rintro y ⟨hy, key, hin, hout⟩
    exact not_lt.mp fun hlt => by simp [((hend key hin).2 y hy.le).mpr hlt] at hout

def holding (l : Lease) : Store := { persistent := false, loaded := true, lease := some l }

theorem wakes_in_time_before_an_end :
    nextAuthorizationWait (holding (endsAt "2026-01-01T00:00:00Z" "2026-01-01T00:01:00Z"))
      (1767225658 * 1000000000) ≤
      min (1767225660 * 1000000000 - 1767225658 * 1000000000 + tenMilliseconds) authorizationReaperMaxWait :=
  (wakes_in_time (holding (endsAt "2026-01-01T00:00:00Z" "2026-01-01T00:01:00Z")) _ (1767225658 * 1000000000)
    (1767225660 * 1000000000) rfl rfl (by decide) (isLeast_end (by decide) (by decide))).1

/-- One second before the zero time a key is admitted until then, and the reaper sleeps for five. -/
theorem end_at_zero_time_not_seen :
    let l := endsAt "0000-12-31T23:59:00Z" "0001-01-01T00:00:00Z"
    let now := Lease.zeroTime - 1000000000
    l.validate = .ok () ∧
    IsLeast {x | now < x ∧ ∃ key, l.allows key now = true ∧ l.allows key x = false} Lease.zeroTime ∧
    nextAuthorizationWait (holding l) now = 5 * 1000000000 :=
  ⟨by decide, isLeast_end (by decide) (by decide), by decide⟩

end OboardAgent.Authorization
