import OboardAgent.Authorization.Session

/-!
# What a denial is worth

`Deny` and `Update` put keys on the watermark, and `Update` prunes the entries that are older
than the longest lease and below the installed revision, "because no lease that could grant them
can still exist". The question is whether that is so: after `k` was denied at time `t`, can a
lease issued at or before `t` ever admit `k` again?

The argument for *no* is one inequality. An entry made at `a` leaves the watermark at some
`now > a + MaxLifetime`; a lease issued at or before `t` admits nobody from `t + MaxLifetime` on.
So all is well as long as the entry under `k` says `a ≥ t - 1`, and every call keeps it so:
`Shielded` is that statement about a watermark and `Guarded` carries it through a run.

It fails where the entry is not as young as the denial it stands for: `Deny` leaves the old time
in place when the key is already listed under the same or a later revision.
-/

namespace OboardAgent.Authorization

/-! ## Entries that outlive the leases they guard against -/

/-- `w` lists `key` under a time not before `t`, up to the nanosecond the strict comparison of
the pruning leaves. -/
def Shielded (t : Int) (key : String) (w : Watermark) : Prop :=
  ∃ e, w.lookup key = some e ∧ ∀ a, Rfc3339.parse e.deniedAt = some a → t ≤ a + 1

theorem shielded_of_entryAt {t now revision : Int} {key : String} {w : Watermark}
    (h : w.lookup key = some (Store.entryAt revision now)) (ht : t ≤ now) : Shielded t key w := by
  refine ⟨_, h, ?_⟩
  intro a ha
  have hnow : a = now := Rfc3339.parse_format ha
  omega

theorem Shielded.denyLoop {t now revision : Int} {key : String} {w : Watermark}
    {keys : List String} {changed : Bool} (h : Shielded t key w) (ht : t ≤ now) :
    Shielded t key (Store.denyLoop (Store.entryAt revision now) keys w changed).1 := by
  rcases Store.lookup_denyLoop w changed with hsame | hnew
  · obtain ⟨e, he, ha⟩ := h
    exact ⟨e, hsame.trans he, ha⟩
  · exact shielded_of_entryAt hnew ht

theorem Shielded.nextDenied {t now : Int} {key : String} {w : Watermark} {l : Lease}
    (h : Shielded t key w) (ht : t ≤ now) :
    t + MaxLifetime ≤ now ∨ Shielded t key (Store.nextDenied w now l) := by
  have hrec : Shielded t key
      (Store.recordDenied (Store.entryAt l.revision now) w l.denied) := by
    rcases @Store.lookup_recordDenied (Store.entryAt l.revision now) key l.denied w with hsame | hnew
    · obtain ⟨e, he, ha⟩ := h
      exact ⟨e, hsame.trans he, ha⟩
    · exact shielded_of_entryAt hnew ht
  obtain ⟨e, he, ha⟩ := hrec
  have hlook := Store.lookup_pruneDenied (Store.stripped l) now
    (Store.recordDenied (Store.entryAt l.revision now) w l.denied) key
  rw [he, Option.bind_some] at hlook
  split at hlook
  · exact Or.inr ⟨e, hlook, ha⟩
  · split at hlook
    · -- The entry was pruned, so it is older than any lease that was alive when it was made.
      rename_i hred
      unfold Store.redundant at hred
      split at hred
      · cases hred
      · rename_i a hparse
        have hage := ha a hparse
        simp only [Bool.and_eq_true, decide_eq_true_eq] at hred
        exact Or.inl (by omega)
    · exact Or.inr ⟨e, hlook, ha⟩

/-! ## The guard, along a run -/

namespace Session

/-- Either the leases issued by `t` are over, or `key` is shielded in memory and on disk. -/
def Guarded (t : Int) (key : String) (m : Session) : Prop :=
  t ≤ m.clock ∧
  (t + MaxLifetime ≤ m.clock ∨
    ((m.view.err = none → Shielded t key m.view.denied) ∧
      (m.view.persistent = true → ∃ w, m.disk.denied = .holds w ∧ Shielded t key w)))

theorem view_persistent (m : Session) : m.view.persistent = m.store.persistent := by
  unfold view Store.load
  split
  · rfl
  · split
    · rfl
    · split
      · simp
      · rfl
      · rfl
      · split
        · rfl
        · simp

variable {key : String}

theorem Commits.guarded {t : Int} {m m' : Session} {lease : Option Lease}
    {w : Watermark} (h : Commits m m' lease w) (hclock : t ≤ m'.clock) (hw : Shielded t key w)
    (hdisk : m.view.persistent = true → ∃ w, m.disk.denied = .holds w ∧ Shielded t key w) :
    Guarded t key m' := by
  refine ⟨hclock, Or.inr ?_⟩
  cases h with
  | done view disk =>
    rw [view]
    exact ⟨fun _ => hw, fun hp => ⟨w, disk hp, hw⟩⟩
  | failed persistent view disk =>
    rw [view]
    refine ⟨nofun, fun _ => ?_⟩
    rcases disk with hold | hnew
    · rw [hold]
      exact hdisk persistent
    · exact ⟨w, hnew, hw⟩

theorem guarded_step {t : Int} (m : Session) (c : Call) (hm : Guarded t key m)
    (hlegal : Legal m c) : Guarded t key (m.step c) := by
  obtain ⟨hclock, hguard⟩ := hm
  have hnow : t ≤ (m.step c).clock := by
    rw [step_clock]
    exact Int.le_trans hclock hlegal.1
  rcases hguard with hover | ⟨hmem, hdisk⟩
  · refine ⟨hnow, Or.inl ?_⟩
    rw [step_clock]
    exact Int.le_trans hover hlegal.1
  obtain ⟨now, op⟩ := c
  have htnow : t ≤ now := by simpa using hnow
  cases op with
  | update incoming io =>
    rcases m.step_update now incoming io with ⟨hv, hd⟩ | ⟨l, -, ⟨herr, -, -⟩, hc⟩
    · refine ⟨hnow, Or.inr ?_⟩
      rw [hv, hd]
      exact ⟨hmem, hdisk⟩
    · rcases (hmem herr).nextDenied (l := l) htnow with hover | hsh
      · exact ⟨hnow, Or.inl (by simpa using hover)⟩
      · exact hc.guarded hnow hsh hdisk
  | deny keys revision io =>
    rcases m.step_deny now keys revision io with ⟨hv, hd⟩ | ⟨herr, hc⟩
    · refine ⟨hnow, Or.inr ?_⟩
      rw [hv, hd]
      exact ⟨hmem, hdisk⟩
    · exact hc.guarded hnow ((hmem herr).denyLoop htnow) hdisk
  | reload =>
    have hp : m.store.persistent = true := hlegal.2 rfl
    have hdisk' := hdisk (by rw [view_persistent, hp])
    refine ⟨hnow, Or.inr ⟨?_, fun _ => hdisk'⟩⟩
    rw [step_reload, hp]
    intro herr
    obtain ⟨w, hw, hsh⟩ := hdisk'
    rcases (Store.loads m.disk).content with ⟨e, he, -⟩ | ⟨-, ⟨hm, -⟩ | ⟨w', hw', hd, -⟩⟩
    · exact absurd (he.symm.trans herr) (by simp)
    · exact absurd (hm.symm.trans hw) (by simp)
    · rw [hw, StateFile.holds.injEq] at hw'
      rw [hd, ← hw']
      exact hsh

/-! ## The denial itself -/

/-- When a `Deny` finds the key listed under the same or a later revision, that entry is not
older than the call (up to the one nanosecond). -/
def Refreshes (m : Session) (c : Call) (key : String) : Prop :=
  match c.op with
  | .deny _ revision _ =>
    ∀ e, m.view.denied.lookup key = some e → revision ≤ e.revision →
      ∀ a, Rfc3339.parse e.deniedAt = some a → c.now ≤ a + 1
  | _ => True

theorem guarded_of_denies {m : Session} {c : Call} (hm : m.view.Sound m.disk)
    (hden : Denies m c key) (hok : Lease.keyOk key = true) (hroom : m.peak c < maxDeniedKeys)
    (hfresh : Refreshes m c key) : Guarded c.now key (m.step c) := by
  have hclock : c.now ≤ (m.step c).clock := by simp
  obtain ⟨now, op⟩ := c
  cases op with
  | reload => exact absurd hden (by simp [Denies])
  | update incoming io =>
    cases incoming with
    | none => exact absurd hden (by simp [Denies])
    | some l =>
      obtain ⟨hkey, r, hres, hinst⟩ := hden
      obtain ⟨hins, hview, hdisk⟩ := view_of_installed hres hinst
      have hlisted : (Store.recordDenied (Store.entryAt l.revision now) m.view.denied
          l.denied).lookup key = some (Store.entryAt l.revision now) := by
        refine Store.lookup_recordDenied_of_mem hkey ?_
        simpa only [peak, if_pos hins] using hroom
      have hsh : Shielded now key (Store.nextDenied m.view.denied now l) := by
        refine @shielded_of_entryAt now now l.revision key _ ?_ (Int.le_refl _)
        unfold Store.nextDenied
        rw [Store.lookup_pruneDenied, hlisted, Option.bind_some]
        -- An entry of the lease's own revision is never redundant.
        have hred : Store.redundant (Store.stripped l).revision now
            (Store.entryAt l.revision now) = false := by
          unfold Store.redundant
          split
          · rfl
          · simp [Store.stripped, Store.entryAt]
        rw [hred]
        split <;> rfl
      refine ⟨hclock, Or.inr ?_⟩
      rw [hview]
      exact ⟨fun _ => hsh, fun hp => ⟨_, hdisk hp, hsh⟩⟩
  | deny keys revision io =>
    obtain ⟨hkey, hres⟩ := hden
    obtain ⟨herr, hview, hdisk⟩ := view_of_denied hres
    have hroom' : (Store.denyLoop (Store.entryAt revision now) keys m.view.denied
        false).1.size < maxDeniedKeys := by simpa only [peak, if_pos herr] using hroom
    obtain ⟨e, he, hage⟩ := Store.lookup_denyLoop_of_mem hok hkey hroom'
    have hsh : Shielded now key
        (Store.denyLoop (Store.entryAt revision now) keys m.view.denied false).1 := by
      rcases hage with hnew | ⟨hold, hrev⟩
      · exact shielded_of_entryAt (hnew ▸ he) (Int.le_refl _)
      · exact ⟨e, he, hfresh e hold hrev⟩
    refine ⟨hclock, Or.inr ?_⟩
    rw [hview]
    refine ⟨fun _ => hsh, fun hp => ?_⟩
    rcases hdisk hm hp with hfile | hempty
    · exact ⟨_, hfile, hsh⟩
    · rw [hempty] at he
      cases he

theorem keyOk_of_allows {m : Session} {now : Int} (hm : m.view.Sound m.disk)
    (h : m.allows key now = true) : Lease.keyOk key = true := by
  obtain ⟨-, -, l, hl, hal⟩ := Store.allowsLoaded_iff.mp h
  obtain ⟨raw, hraw⟩ := Lease.allows_granted hal
  exact Lease.keyOk_of_granted (hm.lease_valid l hl) hraw

theorem Guarded.issued_after {t now : Int} {m : Session} (hm : Guarded t key m)
    (hnow : m.clock ≤ now) (h : m.allows key now = true) :
    ∃ l, m.installed = some l ∧ t < l.issued := by
  obtain ⟨herr, hnone, l, hl, hal⟩ := Store.allowsLoaded_iff.mp h
  refine ⟨l, hl, ?_⟩
  have hwin := Lease.allows_window hal
  rcases hm.2 with hover | ⟨hmem, -⟩
  · omega
  · obtain ⟨e, he, -⟩ := hmem herr
    exact absurd (hnone.symm.trans he) (by simp)

/-- **A denial outlives every lease that was issued when it was made.** For every run of a store
on any files, with a clock that does not go back: after a reported denial of `key` that had room
on the watermark and found no older entry in its way, `key` is admitted by later leases only. -/
theorem admitted_only_by_later_lease {p : Bool} {disk : Disk} {start : Int}
    {earlier later : List Call} {c : Call} {key : String} {now : Int}
    (hlegal : Run.Along step Legal (opened p disk start) (earlier ++ c :: later))
    (hden : Denies (Run.exec step (opened p disk start) earlier) c key)
    (hroom : (Run.exec step (opened p disk start) earlier).peak c < maxDeniedKeys)
    (hfresh : Refreshes (Run.exec step (opened p disk start) earlier) c key)
    (hnow : (Run.exec step (opened p disk start) (earlier ++ c :: later)).clock ≤ now)
    (hallows : (Run.exec step (opened p disk start) (earlier ++ c :: later)).allows key now = true) :
    ∃ l, (Run.exec step (opened p disk start) (earlier ++ c :: later)).installed = some l ∧
      c.now < l.issued := by
  have hok := keyOk_of_allows (sound_exec _) hallows
  have hlater := (Run.Along.append.mp hlegal).2
  rw [Run.exec_append, Run.exec_cons] at hnow hallows ⊢
  have hguard := guarded_of_denies (sound_exec earlier) hden hok hroom hfresh
  have hend := Run.invariant guarded_step hguard hlater.2
  exact hend.issued_after hnow hallows

/-! ### A key denied twice, and one denied once

All times are on 1 January 2026. -/

def midnight : Int := 1767225600 * 1000000000

def minute : Int := 60 * 1000000000

/-- A store that was never used before. -/
def unused : Session := opened true { lease := .missing, denied := .missing } midnight

def denyFirst : Call := ⟨midnight, .deny ["k"] 10 {}⟩

def denyAgain : Call := ⟨midnight + 4 * minute, .deny ["k"] 5 {}⟩

def withoutKey : Call :=
  ⟨midnight + 6 * minute,
    .update (some { revision := 11, issuedAt := "2026-01-01T00:06:00Z", grants := ∅ }) {}⟩

def grantsKey (issuedAt : String) : Call :=
  ⟨midnight + 6 * minute,
    .update (some { revision := 12, issuedAt := issuedAt
                    grants := AList.singleton "k" "2026-01-01T00:08:00Z" }) {}⟩

/-- The second denial reports success and leaves the first one's time in place; two minutes
later the entry is pruned as if nothing had been denied since midnight, and a lease issued by the
time of the second denial admits the key. -/
theorem deny_again_keeps_old_time :
    Run.Along step Legal unused
      [denyFirst, denyAgain, withoutKey, grantsKey "2026-01-01T00:04:00Z"] ∧
    Run.Along step (fun m c => m.peak c < maxDeniedKeys) unused
      [denyFirst, denyAgain, withoutKey, grantsKey "2026-01-01T00:04:00Z"] ∧
    Denies (Run.exec step unused [denyFirst]) denyAgain "k" ∧
    (Run.exec step unused [denyFirst, denyAgain, withoutKey,
      grantsKey "2026-01-01T00:04:00Z"]).allows "k" (midnight + 7 * minute) = true ∧
    (Run.exec step unused [denyFirst, denyAgain, withoutKey,
      grantsKey "2026-01-01T00:04:00Z"]).installed.map Lease.issued = some denyAgain.now :=
  ⟨by decide, by decide, ⟨by decide, rfl⟩, by decide, by decide⟩

/-- After a single denial the entry is pruned too, and the key comes back with a later lease. -/
theorem readmitted_by_later_lease :
    ∃ l, (Run.exec step unused ([] ++ denyFirst ::
      [withoutKey, grantsKey "2026-01-01T00:06:00Z"])).installed = some l ∧
        midnight < l.issued := by
  have hnone : (Run.exec step unused []).view.denied.lookup "k" = none := by decide
  have hfresh : Refreshes (Run.exec step unused []) denyFirst "k" := by
    intro e he
    exact absurd (hnone.symm.trans he) (by simp)
  exact @admitted_only_by_later_lease true _ midnight []
    [withoutKey, grantsKey "2026-01-01T00:06:00Z"] denyFirst "k" (midnight + 7 * minute)
    (by decide) ⟨by decide, rfl⟩ (by decide) hfresh (by decide) (by decide)

end Session

end OboardAgent.Authorization
