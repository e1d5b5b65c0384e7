import OboardAgent.Lib.GoMap
import OboardAgent.Lib.Rfc3339

/-!
# Authorization leases

`internal/authorization/lease.go`, the part that looks at one lease: its validity window, its
validation, what it admits, and the order in which two leases replace each other. The kernel
carries a second copy of the file (`kernel/oboard-sb/internal/authorization/lease.go`) that
differs in comments and one import path only, so this is the model of both.

A lease's timestamps are kept as the text the Controller sent. `reflect.DeepEqual` on the grant
maps compares the *texts*, so two spellings of one instant are different grants there and the
same deadline in `allows`; a model over instants alone would merge them.
-/

namespace OboardAgent.Authorization

def MaxLifetime : Int := 5 * 60 * 1000000000

/-- The bound on the persisted deny watermark. -/
def maxDeniedKeys : Nat := 65536

/-- The authorization snapshot the Controller issues for one server. -/
structure Lease where
  revision : Int
  sequence : Int := 0
  digest : String := ""
  issuedAt : String
  expiresAt : String := ""
  grants : GoMap String String
  denied : List String := []
deriving DecidableEq

inductive LeaseError where
  | timeParse
  | expiryOutside
  | invalidSnapshot
  | invalidGrant
  | invalidDenial
deriving DecidableEq, Repr

/-- The text of the error; the one of `time.Parse` is never shown, `Validate` replaces it. -/
def LeaseError.text : LeaseError → String
  | .timeParse => "parsing time"
  | .expiryOutside => "authorization expiry outside the maximum lifetime"
  | .invalidSnapshot => "invalid authorization snapshot"
  | .invalidGrant => "invalid authorization grant"
  | .invalidDenial => "invalid authorization denial"

namespace Lease

variable (l : Lease)

def window : Except LeaseError (Int × Int) :=
  match Rfc3339.parse l.issuedAt with
  | none => .error .timeParse
  | some issued =>
    if l.expiresAt = "" then .ok (issued, issued + MaxLifetime)
    else
      match Rfc3339.parse l.expiresAt with
      | none => .error .timeParse
      | some parsed =>
        if parsed < issued ∨ issued + MaxLifetime < parsed then .error .expiryOutside
        else .ok (issued, parsed)

/-- A grant entry `Validate` lets pass, in a lease that expires at `expires`. -/
def grantOk (expires : Int) (key raw : String) : Bool :=
  key ≠ "" && key.utf8ByteSize ≤ 256 &&
    match Rfc3339.parse raw with
    | none => false
    | some stop => stop ≤ expires

/-- A key that may be denied or granted: non-empty and at most 256 bytes. -/
def keyOk (key : String) : Bool := key ≠ "" && key.utf8ByteSize ≤ 256

def validate : Except LeaseError Unit :=
  match l.window with
  | .error _ => .error .invalidSnapshot
  | .ok (_, expires) =>
    if l.revision ≤ 0 ∨ l.sequence < 0 ∨ 65536 < l.grants.size ∨ maxDeniedKeys < l.denied.length ∨
        128 < l.digest.utf8ByteSize then .error .invalidSnapshot
    else if !(l.grants.entries.all fun e => grantOk expires e.1 e.2) then .error .invalidGrant
    else if !(l.denied.all keyOk) then .error .invalidDenial
    else .ok ()

/-- Whether the lease itself grants `key` at `now`; the deny watermark is `Store.allows`'. -/
def allows (key : String) (now : Int) : Bool :=
  if key = "" then false
  else
    match l.window with
    | .error _ => false
    | .ok (issued, expires) =>
      if now < issued ∨ expires ≤ now then false
      else
        -- A key without a grant reads the empty text, which is no timestamp.
        match Rfc3339.parse ((l.grants.lookup key).getD "") with
        | none => false
        | some stop => stop ≤ expires && now < stop

/-- The Go zero `time.Time`, which `compare` falls back on when a window does not parse. -/
def zeroTime : Int := -62135596800 * 1000000000

def windowOrZero : Int × Int :=
  match l.window with
  | .ok w => w
  | .error _ => (zeroTime, zeroTime)

def issued : Int := l.windowOrZero.1

def expires : Int := l.windowOrZero.2

end Lease

inductive LeaseOrder where
  | newer
  | older
  | equal
  | conflict
deriving DecidableEq, Repr

/-- `(*Store).compare`: orders `candidate` against the installed lease. -/
def compare (current candidate : Lease) : LeaseOrder :=
  if current.revision < candidate.revision then .newer
  else if candidate.revision < current.revision then
    if current.expires ≤ candidate.issued then .newer else .older
  -- Same revision: the grant set must be identical unless the installed lease has expired.
  else if candidate.digest ≠ "" ∧ current.digest ≠ "" ∧ candidate.digest ≠ current.digest then
    if current.expires ≤ candidate.issued then .newer else .conflict
  else if 0 < candidate.sequence ∧ 0 < current.sequence then
    if current.sequence < candidate.sequence then .newer
    else if candidate.sequence < current.sequence then .older
    else if candidate.issued = current.issued then .equal
    else .conflict
  else if current.issued < candidate.issued then .newer
  else if candidate.issued < current.issued then .older
  else .equal

/-! ## One lemma per function -/

namespace Lease

theorem window_le {l : Lease} {issued expires : Int} (h : l.window = .ok (issued, expires)) :
    issued ≤ expires ∧ expires ≤ issued + MaxLifetime := by
  have hpos : (0 : Int) ≤ MaxLifetime := by decide
  unfold window at h
  split at h
  · cases h
  · split at h
    · simp only [Except.ok.injEq, Prod.mk.injEq] at h
      omega
    · split at h
      · cases h
      · split at h
        · cases h
        · simp only [Except.ok.injEq, Prod.mk.injEq] at h
          omega

theorem allows_window {l : Lease} {key : String} {now : Int} (h : l.allows key now = true) :
    l.issued ≤ now ∧ now < l.issued + MaxLifetime := by
  unfold allows at h
  split at h
  · cases h
  · split at h
    · cases h
    · rename_i issued expires hw
      split at h
      · cases h
      · have hle := window_le hw
        have hi : l.issued = issued := by simp [Lease.issued, windowOrZero, hw]
        omega

theorem allows_granted {l : Lease} {key : String} {now : Int} (h : l.allows key now = true) :
    ∃ raw, l.grants.lookup key = some raw := by
  unfold allows at h
  split at h
  · cases h
  · split at h
    · cases h
    · split at h
      · cases h
      · cases hg : l.grants.lookup key with
        | some raw => exact ⟨raw, rfl⟩
        | none =>
          rw [hg] at h
          have hempty : Rfc3339.parse "" = none := by decide
          simp [hempty] at h

theorem validate_iff {l : Lease} :
    l.validate = .ok () ↔ ∃ w, l.window = .ok w ∧ 0 < l.revision ∧ 0 ≤ l.sequence ∧
      l.grants.size ≤ 65536 ∧ l.denied.length ≤ maxDeniedKeys ∧ l.digest.utf8ByteSize ≤ 128 ∧
      (∀ k raw, l.grants.lookup k = some raw → grantOk w.2 k raw = true) ∧
      ∀ k ∈ l.denied, keyOk k = true := by
  unfold validate
  cases hw : l.window with
  | error e => simp
  | ok w =>
    simp only [Except.ok.injEq, exists_eq_left']
    have hgrants : (l.grants.entries.all fun e => grantOk w.2 e.1 e.2) = true ↔
        ∀ k raw, l.grants.lookup k = some raw → grantOk w.2 k raw = true := by
      rw [List.all_eq_true]
      exact ⟨fun h k raw hk => h ⟨k, raw⟩ (AList.mem_lookup_iff.mp hk),
        fun h e he => h e.1 e.2 (AList.mem_lookup_iff.mpr he)⟩
    simp only [← hgrants, ← List.all_eq_true]
    split_ifs with hbounds hg hd
    · refine iff_of_false nofun ?_
      rintro ⟨hr, hs, hg, hd, hx, -, -⟩
      omega
    · exact iff_of_false nofun fun h => by simp [h.2.2.2.2.2.1] at hg
    · exact iff_of_false nofun fun h => by simp [h.2.2.2.2.2.2] at hd
    · exact iff_of_true rfl ⟨by omega, by omega, by omega, by omega, by omega,
        eq_true_of_ne_false (by simpa using hg),
        by simpa using hd⟩

theorem keyOk_of_granted {l : Lease} {key raw : String} (h : l.validate = .ok ())
    (hg : l.grants.lookup key = some raw) : keyOk key = true := by
  obtain ⟨w, -, -, -, -, -, -, hok, -⟩ := validate_iff.mp h
  have hgrant := hok key raw hg
  simp only [grantOk, Bool.and_eq_true] at hgrant
  simp only [keyOk, Bool.and_eq_true]
  exact hgrant.1

end Lease

end OboardAgent.Authorization
