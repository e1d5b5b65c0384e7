import OboardAgent.Authorization.Revocation

/-!
# The agent's store and the kernel's

`applyAuthorization` installs a lease in two places. The agent updates its own store, then posts
the installed lease together with its whole deny watermark to the kernel, which merges the
denials (`Deny`, under the lease's revision) and then updates (`ApplyAuthorization`). "So the two
stay identical after every apply", says the kernel. The leases do. The watermarks do not: the
merge gives the kernel's entries the newest revision and the time of the push, so the kernel
prunes a key later than the agent.

What does hold after every successful apply is `Agree`: the same lease, and a kernel watermark
that lists at least the agent's keys and beyond those only keys the lease does not grant. Under
that the two stores admit the same keys.
-/

namespace OboardAgent.Authorization

/-! ## `applyAuthorization` -/

inductive KernelConfig where
  | missing
  | unreadable
  | malformed
  | present (hasUsers : Bool)

inductive KernelRuntime where
  | noConfig
  | noUsers
  | unreachable
  | rejected
  | appliedUnverified
  | readbackFailed
  | mismatch
  | verified
deriving DecidableEq, Repr

def KernelRuntime.label : KernelRuntime → String
  | .noConfig => "no_config"
  | .noUsers => "no_users"
  | .unreachable => "unreachable"
  | .rejected => "rejected"
  | .appliedUnverified => "applied_unverified"
  | .readbackFailed => "readback_failed"
  | .mismatch => "mismatch"
  | .verified => "verified"

inductive ApplyError where
  | store (e : StoreError)
  | config
  | kernel (r : KernelRuntime)

structure Surroundings where
  config : KernelConfig := .present true
  controlCapable : Bool := true
  reachable : Bool := true
  statusReadable : Bool := true
  updateAt : Int
  updateWrites : Writes := {}
  kernelDenyAt : Int
  kernelDenyWrites : Writes := {}
  kernelUpdateAt : Int
  kernelUpdateWrites : Writes := {}

structure Pair where
  agent : Session
  kernel : Session

/-- What an apply leaves and returns. -/
structure Applied where
  pair : Pair
  kernelRuntime : Option KernelRuntime := none
  runtimeVerified : Bool := false
  revoked : Nat := 0
  err : Option ApplyError := none

def kernelDeny (k : Session) (e : Surroundings) (deny : List String) (revision : Int) :
    Session × Except StoreError Unit :=
  if deny = [] then (k, .ok ())
  else (k.step ⟨e.kernelDenyAt, .deny deny revision e.kernelDenyWrites⟩,
    (k.store.deny k.disk e.kernelDenyAt e.kernelDenyWrites deny revision).result)

/-- `(*RateLimitTracker).ApplyAuthorization`: the denials first, then the lease. -/
def kernelApply (k : Session) (e : Surroundings) (lease : Lease) (deny : List String) :
    Session × Except StoreError UpdateResult :=
  match kernelDeny k e deny lease.revision with
  | (k₁, .error err) => (k₁, .error err)
  | (k₁, .ok ()) =>
    (k₁.step ⟨e.kernelUpdateAt, .update (some lease) e.kernelUpdateWrites⟩,
      (k₁.store.update k₁.disk e.kernelUpdateAt e.kernelUpdateWrites (some lease)).result)

def identityDiffers (status latest : Lease) : Bool :=
  status.revision ≠ latest.revision || status.sequence ≠ latest.sequence ||
    (status.digest ≠ "" && latest.digest ≠ "" && status.digest ≠ latest.digest)

def pushToKernel (agent kernel : Session) (e : Surroundings) (latest : Lease) (revoked : Nat) :
    Applied :=
  if !e.reachable then
    { pair := ⟨agent, kernel⟩, revoked := revoked, kernelRuntime := some .unreachable
      err := some (.kernel .unreachable) }
  else
    let deny := if e.controlCapable then agent.view.deniedKeys else []
    match kernelApply kernel e latest deny with
    | (k, .error _) =>
      { pair := ⟨agent, k⟩, revoked := revoked, kernelRuntime := some .rejected
        err := some (.kernel .rejected) }
    | (k, .ok _) =>
      if !e.controlCapable then
        { pair := ⟨agent, k⟩, revoked := revoked, kernelRuntime := some .appliedUnverified }
      else if !e.statusReadable then
        { pair := ⟨agent, k⟩, revoked := revoked, kernelRuntime := some .readbackFailed
          err := some (.kernel .readbackFailed) }
      else if k.installed.all fun l => identityDiffers l latest then
        { pair := ⟨agent, k⟩, revoked := revoked, kernelRuntime := some .mismatch
          err := some (.kernel .mismatch) }
      else
        { pair := ⟨agent, k⟩, revoked := revoked, kernelRuntime := some .verified
          runtimeVerified := true }

/-- `(*Runner).applyAuthorization`, without the SSH sessions it closes. -/
def applyAuthorization (p : Pair) (e : Surroundings) (lease : Option Lease) : Applied :=
  let agent := p.agent.step ⟨e.updateAt, .update lease e.updateWrites⟩
  match (p.agent.store.update p.agent.disk e.updateAt e.updateWrites lease).result with
  | .error err => { pair := ⟨agent, p.kernel⟩, err := some (.store err) }
  | .ok r =>
    let revoked := r.revoked.length
    match agent.view.err with
    | some err => { pair := ⟨agent, p.kernel⟩, revoked := revoked, err := some (.store err) }
    | none =>
      match agent.installed with
      | none => { pair := ⟨agent, p.kernel⟩, revoked := revoked, runtimeVerified := true }
      | some latest =>
        match e.config with
        | .missing =>
          { pair := ⟨agent, p.kernel⟩, revoked := revoked, kernelRuntime := some .noConfig
            runtimeVerified := true }
        | .unreadable => { pair := ⟨agent, p.kernel⟩, revoked := revoked, err := some .config }
        | .malformed => { pair := ⟨agent, p.kernel⟩, revoked := revoked, err := some .config }
        | .present false =>
          { pair := ⟨agent, p.kernel⟩, revoked := revoked, kernelRuntime := some .noUsers
            runtimeVerified := true }
        | .present true => pushToKernel agent p.kernel e latest revoked

/-! ## What a successful apply has done -/

def Surroundings.Enforcing (e : Surroundings) : Prop :=
  e.config = .present true ∧ e.controlCapable = true

/-- One apply: what surrounds it, and the lease. -/
abbrev Apply : Type := Surroundings × Option Lease

def Pair.updatedAgent (p : Pair) (ev : Apply) : Session :=
  p.agent.step ⟨ev.1.updateAt, .update ev.2 ev.1.updateWrites⟩

def Surroundings.merged (e : Surroundings) (latest : Lease) (deny : List String) (w : Watermark) :
    Watermark :=
  (Store.denyLoop (Store.entryAt latest.revision e.kernelDenyAt) deny w false).1

variable {e : Surroundings} {r : UpdateResult}

theorem pushToKernel_ok {agent kernel : Session} {latest : Lease} {n : Nat}
    (hcap : e.controlCapable = true) (hok : (pushToKernel agent kernel e latest n).err = none) :
    ∃ k r, kernelApply kernel e latest agent.view.deniedKeys = (k, .ok r) ∧
      (pushToKernel agent kernel e latest n).pair = ⟨agent, k⟩ := by
  unfold pushToKernel at hok ⊢
  simp only [hcap, if_true, Bool.not_true, Bool.false_eq_true, if_false] at hok ⊢
  cases hreach : e.reachable with
  | false => simp [hreach] at hok
  | true =>
    simp only [hreach, Bool.not_true, Bool.false_eq_true, if_false] at hok ⊢
    generalize kernelApply kernel e latest agent.view.deniedKeys = out at hok ⊢
    obtain ⟨k, res⟩ := out
    cases res with
    | error err => simp at hok
    | ok r =>
      refine ⟨k, r, rfl, ?_⟩
      simp only
      split
      · rfl
      · split <;> rfl

theorem applyAuthorization_ok {p : Pair} {lease : Option Lease}
    (henf : e.Enforcing) (hok : (applyAuthorization p e lease).err = none) :
    (∃ r, (p.agent.store.update p.agent.disk e.updateAt e.updateWrites lease).result = .ok r) ∧
    (((p.updatedAgent (e, lease)).installed = none ∧
        (applyAuthorization p e lease).pair = ⟨p.updatedAgent (e, lease), p.kernel⟩) ∨
      ∃ latest k r, (p.updatedAgent (e, lease)).installed = some latest ∧
        kernelApply p.kernel e latest (p.updatedAgent (e, lease)).view.deniedKeys = (k, .ok r) ∧
        (applyAuthorization p e lease).pair = ⟨p.updatedAgent (e, lease), k⟩) := by
  unfold applyAuthorization at hok ⊢
  unfold Pair.updatedAgent
  obtain ⟨hconfig, hcap⟩ := henf
  generalize p.agent.step ⟨e.updateAt, .update lease e.updateWrites⟩ = agent at hok ⊢
  cases hres : (p.agent.store.update p.agent.disk e.updateAt e.updateWrites lease).result with
  | error err => simp [hres] at hok
  | ok r =>
    simp only [hres, hconfig] at hok ⊢
    cases herr : agent.view.err with
    | some err => simp [herr] at hok
    | none =>
      refine ⟨⟨r, rfl⟩, ?_⟩
      simp only [herr] at hok ⊢
      cases hinst : agent.installed with
      | none => exact Or.inl ⟨rfl, rfl⟩
      | some latest =>
        simp only [hinst] at hok ⊢
        obtain ⟨k, r', hk, hpair⟩ := pushToKernel_ok hcap hok
        exact Or.inr ⟨latest, k, r', rfl, hk, hpair⟩

theorem kernelApply_ok {k k' : Session} {latest : Lease} {deny : List String}
    (hok : kernelApply k e latest deny = (k', .ok r)) :
    ∃ k₁ : Session,
      k₁.view = { k.view with denied := e.merged latest deny k.view.denied } ∧
      (k₁.store.update k₁.disk e.kernelUpdateAt e.kernelUpdateWrites (some latest)).result = .ok r ∧
      k' = k₁.step ⟨e.kernelUpdateAt, .update (some latest) e.kernelUpdateWrites⟩ := by
  unfold kernelApply kernelDeny at hok
  by_cases hdeny : deny = []
  · subst hdeny
    simp only [if_true, Prod.mk.injEq] at hok
    exact ⟨k, rfl, hok.2, hok.1.symm⟩
  · simp only [hdeny, if_false] at hok
    cases hres : (k.store.deny k.disk e.kernelDenyAt e.kernelDenyWrites deny latest.revision).result with
    | error err => simp [hres] at hok
    | ok u =>
      simp only [hres, Prod.mk.injEq] at hok
      obtain ⟨-, hview, -⟩ := Session.view_of_denied hres
      exact ⟨_, hview, hok.2, hok.1.symm⟩

/-! ## The kernel follows the agent's verdict -/

theorem judge_stripped {current : Option Lease} {l : Lease} (h : Store.judge current l = .install) :
    Store.judge current (Store.stripped l) ≠ .answer (.ok r) := by
  intro hanswer
  obtain ⟨-, cur, rfl, hcases⟩ := Store.judge_answer hanswer
  -- The comparison reads the identity only, which stripping leaves alone.
  have hcompare : compare cur (Store.stripped l) = compare cur l := rfl
  rw [hcompare] at hcases
  rcases Store.judge_install h with hnewer | ⟨hequal, hdenied⟩
  · simp [hnewer] at hcases
  · rcases hcases with holder | ⟨-, hnil⟩
    · cases hequal.symm.trans holder
    · exact hdenied hnil

/-! ## The leases agree -/

structure SameLease (p : Pair) : Prop where
  agentReadable : p.agent.view.err = none
  kernelReadable : p.kernel.view.err = none
  lease : p.agent.installed = p.kernel.installed
  stripped : ∀ l, p.agent.installed = some l → Store.stripped l = l

theorem kernel_after_push {k k' : Session} {latest : Lease}
    {deny : List String} (herr : k.view.err = none) (hstripped : Store.stripped latest = latest)
    (hverdict : k.installed = some latest ∨
      ∀ r, Store.judge k.installed latest ≠ .answer (.ok r))
    (hok : kernelApply k e latest deny = (k', .ok r)) :
    k'.view.err = none ∧ k'.installed = some latest ∧
      (k'.view.denied = e.merged latest deny k.view.denied ∨
        k'.view.denied = Store.nextDenied (e.merged latest deny k.view.denied) e.kernelUpdateAt latest) := by
  obtain ⟨k₁, hview, hres, rfl⟩ := kernelApply_ok hok
  have hlease : k₁.installed = k.installed := by
    unfold Session.installed
    rw [hview]
  cases hinst : r.installed with
  | false =>
    obtain ⟨hjudge, hsame⟩ := Session.view_of_answered hres hinst
    rw [hlease] at hjudge
    have hcur := hverdict.resolve_right fun h => h r hjudge
    unfold Session.installed
    rw [hsame, hview]
    exact ⟨herr, hcur, Or.inl rfl⟩
  | true =>
    obtain ⟨-, hnew, -⟩ := Session.view_of_installed hres hinst
    unfold Session.installed
    rw [hnew, hview, hstripped]
    exact ⟨herr, rfl, Or.inr rfl⟩

theorem view_of_updated {m : Session} {now : Int} {lease : Option Lease} {io : Writes}
    (hres : (m.store.update m.disk now io lease).result = .ok r) :
    (m.step ⟨now, .update lease io⟩).view = m.view ∨
    ∃ l, lease = some l ∧ m.view.Installs l ∧ (m.step ⟨now, .update lease io⟩).view
        = { m.view with lease := some (Store.stripped l)
                        denied := Store.nextDenied m.view.denied now l } := by
  rcases m.view.updateLoaded_cases now io lease with ⟨hs, -, -⟩ | ⟨l, hl, hins, hc⟩
  · have hstore : (m.store.update m.disk now io lease).store = m.view := hs
    exact Or.inl ((Session.view_after (by rw [hstore]; exact m.view_loaded)).trans hstore)
  · exact Or.inr ⟨l, hl, hins, (@Session.done_of_commit _ m now _ _ _ _ _ hc hres).1⟩

/-! ## The watermarks -/

theorem Store.mem_deniedKeys {s : Store} {key : String} :
    key ∈ s.deniedKeys ↔ (s.denied.lookup key).isSome := by
  unfold Store.deniedKeys
  rw [List.mem_insertionSort, AList.lookup_isSome, AList.mem_keys]

namespace Store

theorem nextDenied_keeps {w : Watermark} {now : Int} {l : Lease} {key : String} {e : DeniedEntry}
    (he : w.lookup key = some e) (hrev : l.revision ≤ e.revision) :
    ((nextDenied w now l).lookup key).isSome := by
  have hrec : ∃ e', (recordDenied (entryAt l.revision now) w l.denied).lookup key = some e' ∧
      l.revision ≤ e'.revision := by
    rcases @lookup_recordDenied (entryAt l.revision now) key l.denied w with hsame | hnew
    · exact ⟨e, hsame.trans he, hrev⟩
    · exact ⟨_, hnew, Int.le_refl _⟩
  obtain ⟨e', he', hrev'⟩ := hrec
  have hred : redundant (stripped l).revision now e' = false := by
    unfold redundant
    split
    · rfl
    · have hlow : ¬ e'.revision < (stripped l).revision := Int.not_lt.mpr hrev'
      simp [hlow]
  unfold nextDenied
  rw [lookup_pruneDenied, he', Option.bind_some, hred]
  split <;> rfl

theorem nextDenied_keeps_granted {w : Watermark} {now : Int} {l : Lease} {key : String}
    (he : (w.lookup key).isSome) (hg : ((stripped l).grants.lookup key).isSome) :
    ((nextDenied w now l).lookup key).isSome := by
  obtain ⟨e, he⟩ := Option.isSome_iff_exists.mp he
  have hrec : ∃ e', (recordDenied (entryAt l.revision now) w l.denied).lookup key = some e' := by
    rcases @lookup_recordDenied (entryAt l.revision now) key l.denied w with hsame | hnew
    · exact ⟨e, hsame.trans he⟩
    · exact ⟨_, hnew⟩
  obtain ⟨e', he'⟩ := hrec
  unfold nextDenied
  rw [lookup_pruneDenied, he', Option.bind_some, if_pos hg]
  rfl

theorem listed_of_nextDenied {w : Watermark} {now : Int} {l : Lease} {key : String}
    (h : ((nextDenied w now l).lookup key).isSome) : (w.lookup key).isSome ∨ key ∈ l.denied := by
  by_cases hk : key ∈ l.denied
  · exact Or.inr hk
  · refine Or.inl ?_
    unfold nextDenied at h
    rw [lookup_pruneDenied, lookup_recordDenied_of_notMem w hk] at h
    cases hw : w.lookup key with
    | some e => rfl
    | none => simp [hw] at h

theorem listed_of_denyLoop {entry : DeniedEntry} {keys : List String} {w : Watermark}
    {changed : Bool} {key : String} (h : ((denyLoop entry keys w changed).1.lookup key).isSome) :
    (w.lookup key).isSome ∨ key ∈ keys := by
  by_cases hk : key ∈ keys
  · exact Or.inr hk
  · rw [lookup_denyLoop_of_notMem hk] at h
    exact Or.inl h

end Store

structure Agree (p : Pair) : Prop extends SameLease p where
  valid : ∀ key, (p.agent.view.denied.lookup key).isSome → Lease.keyOk key = true
  listed : ∀ key, (p.agent.view.denied.lookup key).isSome →
    (p.kernel.view.denied.lookup key).isSome
  ungranted : ∀ l key, p.agent.installed = some l → (p.kernel.view.denied.lookup key).isSome →
    p.agent.view.denied.lookup key = none → l.grants.lookup key = none

theorem Agree.allows_eq {p : Pair} (h : Agree p) (key : String) (now : Int) :
    p.agent.allows key now = p.kernel.allows key now := by
  rw [Bool.eq_iff_iff]
  show p.agent.view.allowsLoaded key now = true ↔ p.kernel.view.allowsLoaded key now = true
  rw [Store.allowsLoaded_iff, Store.allowsLoaded_iff]
  have hlease : p.agent.view.lease = p.kernel.view.lease := h.lease
  constructor
  · rintro ⟨-, hnone, l, hl, hal⟩
    refine ⟨h.kernelReadable, ?_, l, hlease ▸ hl, hal⟩
    obtain ⟨raw, hraw⟩ := Lease.allows_granted hal
    by_contra hsome
    have hg := h.ungranted l key hl (Option.isSome_iff_ne_none.mpr hsome) hnone
    exact absurd (hg.symm.trans hraw) (by simp)
  · rintro ⟨-, hnone, l, hl, hal⟩
    refine ⟨h.agentReadable, ?_, l, hlease ▸ hl, hal⟩
    by_contra hsome
    have hk := h.listed key (Option.isSome_iff_ne_none.mpr hsome)
    rw [hnone] at hk
    cases hk

/-! ## Runs of applies -/

namespace Pair

variable (p : Pair) (ev : Apply)

def step : Pair := (applyAuthorization p ev.1 ev.2).pair

/-- Two stores that were never used. -/
def unused (agentFiles kernelFiles : Bool) (start : Int) : Pair where
  agent := .opened agentFiles { lease := .missing, denied := .missing } start
  kernel := .opened kernelFiles { lease := .missing, denied := .missing } start

def Succeeds : Prop :=
  ev.1.Enforcing ∧ (applyAuthorization p ev.1 ev.2).err = none

/-- A lease the agent is about to install grants no key that only the kernel still lists. -/
def NoStaleGrant : Prop :=
  ∀ l, ev.2 = some l → p.agent.view.Installs l →
    ∀ key, (p.kernel.view.denied.lookup key).isSome → p.agent.view.denied.lookup key = none →
      (Store.stripped l).grants.lookup key = none

/-- The kernel's watermark has room while it merges the agent's. -/
def Roomy : Prop :=
  ∀ latest, (p.updatedAgent ev).installed = some latest →
    p.kernel.peak ⟨ev.1.kernelDenyAt, .deny (p.updatedAgent ev).view.deniedKeys latest.revision
      ev.1.kernelDenyWrites⟩ < maxDeniedKeys

theorem agree_unused (a k : Bool) (start : Int) : Agree (unused a k start) := by
  have hload : ∀ b, Session.view (.opened b { lease := .missing, denied := .missing } start)
      = { persistent := b, loaded := true } := by
    intro b
    cases b <;> rfl
  constructor
  · constructor <;> simp [unused, Session.installed, hload]
  · simp [unused, hload]
  · simp [unused, hload]
  · simp [unused, Session.installed, hload]

theorem step_of_succeeds {p : Pair} {ev : Apply} (hp : SameLease p) (hs : Succeeds p ev) :
    (p.agent.installed = none ∧ (p.updatedAgent ev).view = p.agent.view ∧
      p.step ev = ⟨p.updatedAgent ev, p.kernel⟩) ∨
    ∃ latest k, (p.updatedAgent ev).installed = some latest ∧ Store.stripped latest = latest ∧
      p.step ev = ⟨p.updatedAgent ev, k⟩ ∧ k.view.err = none ∧ k.installed = some latest ∧
      (k.view.denied = ev.1.merged latest (p.updatedAgent ev).view.deniedKeys p.kernel.view.denied ∨
        k.view.denied = Store.nextDenied
          (ev.1.merged latest (p.updatedAgent ev).view.deniedKeys p.kernel.view.denied)
          ev.1.kernelUpdateAt latest) ∧
      (((p.updatedAgent ev).view = p.agent.view ∧ p.kernel.installed = some latest) ∨
        ∃ l, ev.2 = some l ∧ p.agent.view.Installs l ∧ latest = Store.stripped l ∧
          (p.updatedAgent ev).view
            = { p.agent.view with lease := some latest
                                  denied := Store.nextDenied p.agent.view.denied ev.1.updateAt l }) := by
  obtain ⟨⟨r, hres⟩, hpush⟩ := applyAuthorization_ok hs.1 hs.2
  have hview := view_of_updated hres
  rcases hpush with ⟨hnone, hpair⟩ | ⟨latest, k, r', hlatest, hk, hpair⟩
  · refine Or.inl ?_
    rcases hview with hsame | ⟨l, -, -, hnew⟩
    · refine ⟨?_, hsame, hpair⟩
      unfold Session.installed at hnone ⊢
      rw [← hsame]
      exact hnone
    · cases (congrArg Store.lease hnew).symm.trans hnone
  · refine Or.inr ⟨latest, k, hlatest, ?_⟩
    rcases hview with hsame | ⟨l, hl, hins, hnew⟩
    · have hcur : p.agent.installed = some latest := (congrArg Store.lease hsame).symm.trans hlatest
      have hstripped := hp.stripped latest hcur
      rw [hp.lease] at hcur
      obtain ⟨hkerr, hklease, hden⟩ := kernel_after_push hp.kernelReadable hstripped (Or.inl hcur) hk
      exact ⟨hstripped, hpair, hkerr, hklease, hden, Or.inl ⟨hsame, hcur⟩⟩
    · cases (congrArg Store.lease hnew).symm.trans hlatest
      have hno : ∀ r, Store.judge p.kernel.installed (Store.stripped l) ≠ .answer (.ok r) :=
        fun r => hp.lease ▸ judge_stripped hins.2.2
      obtain ⟨hkerr, hklease, hden⟩ := kernel_after_push hp.kernelReadable (by simp) (Or.inr hno) hk
      exact ⟨by simp, hpair, hkerr, hklease, hden, Or.inr ⟨l, hl, hins, rfl, hnew⟩⟩

theorem sameLease_step (hp : SameLease p) (hs : Succeeds p ev) : SameLease (p.step ev) := by
  rcases step_of_succeeds hp hs with
    ⟨hnone, hsame, hpair⟩ | ⟨latest, k, hlatest, hstr, hpair, hkerr, hklease, -, hcase⟩
  · have hinst : (p.updatedAgent ev).installed = p.agent.installed := congrArg Store.lease hsame
    rw [hpair]
    refine ⟨?_, hp.kernelReadable, hinst.trans hp.lease, ?_⟩
    · exact (congrArg Store.err hsame).trans hp.agentReadable
    · intro l hl
      exact absurd ((hinst.trans hnone).symm.trans hl) (by simp)
  · rw [hpair]
    refine ⟨?_, hkerr, hlatest.trans hklease.symm, ?_⟩
    · rcases hcase with ⟨hsame, -⟩ | ⟨l, -, -, -, hnew⟩
      · exact (congrArg Store.err hsame).trans hp.agentReadable
      · exact (congrArg Store.err hnew).trans hp.agentReadable
    · intro l hl
      rw [hlatest, Option.some.injEq] at hl
      exact hl ▸ hstr

theorem merged_watermark {agent kernel k : Session} {e : Surroundings} {latest : Lease}
    (hvalid : ∀ key, (agent.view.denied.lookup key).isSome → Lease.keyOk key = true)
    (herr : kernel.view.err = none)
    (hroom : kernel.peak ⟨e.kernelDenyAt, .deny agent.view.deniedKeys latest.revision
      e.kernelDenyWrites⟩ < maxDeniedKeys)
    (hk : k.view.denied = e.merged latest agent.view.deniedKeys kernel.view.denied ∨
      k.view.denied = Store.nextDenied (e.merged latest agent.view.deniedKeys kernel.view.denied)
        e.kernelUpdateAt latest) (key : String) :
    ((agent.view.denied.lookup key).isSome → (k.view.denied.lookup key).isSome) ∧
    ((k.view.denied.lookup key).isSome → (kernel.view.denied.lookup key).isSome ∨
      (agent.view.denied.lookup key).isSome ∨ key ∈ latest.denied) := by
  constructor
  · intro hlisted
    have hsize : (e.merged latest agent.view.deniedKeys kernel.view.denied).size < maxDeniedKeys := by
      simpa only [Session.peak, if_pos herr, Surroundings.merged] using hroom
    obtain ⟨x, hx, hrev⟩ := Store.lookup_denyLoop_of_mem (hvalid key hlisted)
      (Store.mem_deniedKeys.mpr hlisted) hsize
    -- The merge has left an entry of the lease's revision or a later one.
    have hlate : latest.revision ≤ x.revision := by
      rcases hrev with rfl | ⟨-, hrev⟩
      · exact Int.le_refl _
      · exact hrev
    rcases hk with hk | hk
    · rw [hk, Surroundings.merged, hx]
      rfl
    · rw [hk]
      exact Store.nextDenied_keeps hx hlate
  · intro hlisted
    have hmerged : ((e.merged latest agent.view.deniedKeys kernel.view.denied).lookup key).isSome ∨
        key ∈ latest.denied := by
      rcases hk with hk | hk
      · exact Or.inl (hk ▸ hlisted)
      · exact Store.listed_of_nextDenied (hk ▸ hlisted)
    rcases hmerged with hloop | hdenied
    · rcases Store.listed_of_denyLoop hloop with hold | hnamed
      · exact Or.inl hold
      · exact Or.inr (Or.inl (Store.mem_deniedKeys.mp hnamed))
    · exact Or.inr (Or.inr hdenied)

theorem agree_step (hp : Agree p)
    (hev : Succeeds p ev ∧ NoStaleGrant p ev ∧ Roomy p ev) : Agree (p.step ev) := by
  obtain ⟨hs, hstale, hroom⟩ := hev
  have hone := sameLease_step p ev hp.toSameLease hs
  rcases step_of_succeeds hp.toSameLease hs with
    ⟨hnone, hsame, hpair⟩ | ⟨latest, k, hlatest, hstr, hpair, -, -, hden, hcase⟩
  · -- There is no lease anywhere, and nothing was pushed.
    rw [hpair] at hone ⊢
    refine ⟨hone, ?_, ?_, ?_⟩
    · rw [hsame]
      exact hp.valid
    · rw [hsame]
      exact hp.listed
    · intro l key hl
      have hinst : (p.updatedAgent ev).installed = p.agent.installed := congrArg Store.lease hsame
      exact absurd ((hinst.trans hnone).symm.trans hl) (by simp)
  · have hvalid : ∀ key, ((p.updatedAgent ev).view.denied.lookup key).isSome →
        Lease.keyOk key = true := by
      intro key hkey
      rcases hcase with ⟨hsame, -⟩ | ⟨l, -, hins, -, hnew⟩
      · rw [hsame] at hkey
        exact hp.valid key hkey
      · rw [hnew] at hkey
        rcases Store.listed_of_nextDenied hkey with hold | hdenied
        · exact hp.valid key hold
        · obtain ⟨-, -, -, -, -, -, -, -, hkeys⟩ := Lease.validate_iff.mp hins.2.1
          exact hkeys key hdenied
    have hmerge := merged_watermark hvalid hp.kernelReadable (hroom latest hlatest) hden
    rw [hpair] at hone ⊢
    refine ⟨hone, hvalid, fun key => (hmerge key).1, ?_⟩
    intro l key hl hlisted hunlisted
    have hl' : l = latest := Option.some.inj (hl.symm.trans hlatest)
    subst hl'
    rcases (hmerge key).2 hlisted with hold | hagent | hdenied
    · -- The kernel listed the key before. If the lease granted it, the agent would list it too.
      rcases hcase with ⟨hsame, hcur⟩ | ⟨l', hl', hins, hlat, hnew⟩
      · rw [hsame] at hunlisted
        exact hp.ungranted l key (hp.lease.trans hcur) hold hunlisted
      · by_contra hgranted
        have hsome : ((Store.stripped l').grants.lookup key).isSome :=
          hlat ▸ Option.isSome_iff_ne_none.mpr hgranted
        have hmine : (p.agent.view.denied.lookup key).isSome := by
          rw [Option.isSome_iff_ne_none]
          intro hno
          rw [hstale l' hl' hins key hold hno] at hsome
          cases hsome
        have hkept := @Store.nextDenied_keeps_granted _ ev.1.updateAt _ _ hmine hsome
        rw [hnew] at hunlisted
        rw [hunlisted] at hkept
        cases hkept
    · rw [hunlisted] at hagent
      cases hagent
    · rw [← hstr]
      show (Store.stripGrants l.grants l.denied).lookup key = none
      rw [Store.lookup_stripGrants, if_pos hdenied]

/-- **The leases are the same after every successful apply.** -/
theorem leases_agree {a k : Bool} {start : Int} {evs : List Apply}
    (h : Run.Along step Succeeds (unused a k start) evs) :
    (Run.exec step (unused a k start) evs).agent.installed
      = (Run.exec step (unused a k start) evs).kernel.installed :=
  (Run.invariant sameLease_step (agree_unused a k start).toSameLease h).lease

/-- **The two stores agree**: along every run of successful applies whose leases grant no key
that only the kernel still lists, and that leave the kernel's merge its room, the stores hold the
same lease and give the same answer for every key at every time. -/
theorem stores_agree {a k : Bool} {start : Int} {evs : List Apply}
    (h : Run.Along step (fun p ev => Succeeds p ev ∧ NoStaleGrant p ev ∧ Roomy p ev)
      (unused a k start) evs) :
    (Run.exec step (unused a k start) evs).agent.installed
        = (Run.exec step (unused a k start) evs).kernel.installed ∧
      ∀ key now, (Run.exec step (unused a k start) evs).agent.allows key now
        = (Run.exec step (unused a k start) evs).kernel.allows key now := by
  have hagree := Run.invariant agree_step (agree_unused a k start) h
  exact ⟨hagree.lease, hagree.allows_eq⟩

/-! ### A key that comes back to the agent only -/

def OneClock : Prop :=
  p.agent.clock ≤ ev.1.updateAt ∧ p.kernel.clock ≤ ev.1.updateAt ∧
    ev.1.updateAt ≤ ev.1.kernelDenyAt ∧ ev.1.kernelDenyAt ≤ ev.1.kernelUpdateAt

instance (p : Pair) (ev : Apply) : Decidable (OneClock p ev) :=
  inferInstanceAs (Decidable (_ ∧ _ ∧ _ ∧ _))

def smoothly (after : Int) : Surroundings :=
  { updateAt := Session.midnight + after * Session.minute
    kernelDenyAt := Session.midnight + after * Session.minute
    kernelUpdateAt := Session.midnight + after * Session.minute }

def denyKey : Apply :=
  (smoothly 0, some { revision := 1, issuedAt := "2026-01-01T00:00:00Z", grants := ∅
                      denied := ["k"] })

def nextRevision : Apply :=
  (smoothly 4, some { revision := 2, issuedAt := "2026-01-01T00:04:00Z", grants := ∅ })

def pruneKey : Apply :=
  (smoothly 6, some { revision := 3, issuedAt := "2026-01-01T00:06:00Z", grants := ∅ })

def grantKey : Apply :=
  (smoothly 6, some { revision := 4, issuedAt := "2026-01-01T00:06:00Z"
                      grants := AList.singleton "k" "2026-01-01T00:10:00Z" })

/-- Four successful applies, after which the agent admits a key that the kernel refuses. -/
theorem kernel_refuses_what_agent_admits :
    Run.Along step Succeeds (unused true true Session.midnight)
      [denyKey, nextRevision, pruneKey, grantKey] ∧
    Run.Along step OneClock (unused true true Session.midnight)
      [denyKey, nextRevision, pruneKey, grantKey] ∧
    (Run.exec step (unused true true Session.midnight)
      [denyKey, nextRevision, pruneKey, grantKey]).agent.allows "k"
        (Session.midnight + 7 * Session.minute) = true ∧
    (Run.exec step (unused true true Session.midnight)
      [denyKey, nextRevision, pruneKey, grantKey]).kernel.allows "k"
        (Session.midnight + 7 * Session.minute) = false :=
  ⟨⟨⟨⟨rfl, rfl⟩, rfl⟩, ⟨⟨rfl, rfl⟩, rfl⟩, ⟨⟨rfl, rfl⟩, rfl⟩, ⟨⟨rfl, rfl⟩, rfl⟩, trivial⟩,
    by decide, by decide, by decide⟩

/-- A denial and the next revision, on which the two stores agree. -/
theorem stores_agree_on_denial :
    (Run.exec step (unused true true Session.midnight) [denyKey, nextRevision]).agent.installed
        = (Run.exec step (unused true true Session.midnight)
            [denyKey, nextRevision]).kernel.installed ∧
      ∀ key now, (Run.exec step (unused true true Session.midnight)
          [denyKey, nextRevision]).agent.allows key now
        = (Run.exec step (unused true true Session.midnight)
            [denyKey, nextRevision]).kernel.allows key now := by
  have hungranted : ∀ p : Pair, NoStaleGrant p denyKey ∧ NoStaleGrant p nextRevision := by
    intro p
    constructor <;> rintro l ⟨⟩ _ key _ _ <;> rfl
  apply stores_agree
  refine ⟨⟨⟨⟨rfl, rfl⟩, rfl⟩, (hungranted _).1, ?_⟩, ⟨⟨⟨rfl, rfl⟩, rfl⟩, (hungranted _).2, ?_⟩, trivial⟩
  all_goals
    intro latest hlatest
    obtain rfl := Option.some.inj hlatest
    decide

/-- Also on the run on which the stores come to answer differently. -/
theorem leases_agree_on_grant :
    (Run.exec step (unused true true Session.midnight)
      [denyKey, nextRevision, pruneKey, grantKey]).agent.installed
      = (Run.exec step (unused true true Session.midnight)
          [denyKey, nextRevision, pruneKey, grantKey]).kernel.installed :=
  leases_agree ⟨⟨⟨rfl, rfl⟩, rfl⟩, ⟨⟨rfl, rfl⟩, rfl⟩, ⟨⟨rfl, rfl⟩, rfl⟩, ⟨⟨rfl, rfl⟩, rfl⟩, trivial⟩

end Pair

end OboardAgent.Authorization
