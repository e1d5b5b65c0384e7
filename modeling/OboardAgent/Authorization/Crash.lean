import OboardAgent.Authorization.Revocation

/-!
# A crash inside an install

`updateLocked` writes the lease file and then the deny file. Each write is atomic, so a crash
leaves one of three pairs of files: both old, the new lease with the old watermark, or both new.
The next process reads whichever pair it finds, without comparing the two.

What was on the watermark is safe at every point. What the incoming lease *adds* to it is not:
after the first write the lease is in place and its denials are not, and `load` does not enter
them. The lease itself does not grant these keys, but the next one may, and the watermark that
should have refused them does not know them.

The account rests on one invariant (`Faithful`): a store without an error is what its files say,
so the state before the call can be read off the files like the state after the crash.
-/

namespace OboardAgent.Authorization

/-! ## Reading back what was written -/

namespace Store

def halfLoaded (lease : Option Lease) : Store :=
  { persistent := true, loaded := true, lease := lease }

theorem load_cases {d : Disk} (h : ((newStore true).load d).err = none) :
    ∃ lease, ∀ d' : Disk, d'.lease = d.lease →
      (newStore true).load d' = (halfLoaded lease).loadDenied d' := by
  cases hl : d.lease with
  | missing => exact ⟨none, fun d' hd => by simp [load, newStore, halfLoaded, hd]⟩
  | refused => simp [load, newStore, hl] at h
  | garbled => simp [load, newStore, hl] at h
  | holds l =>
    cases hv : l.validate with
    | error e => simp [load, newStore, hl, hv] at h
    | ok u => exact ⟨some l, fun d' hd => by simp [load, newStore, halfLoaded, hd, hv]⟩

theorem loadDenied_halfLoaded (d : Disk) (lease lease' : Option Lease) :
    (halfLoaded lease).loadDenied d = { (halfLoaded lease').loadDenied d with lease := lease } := by
  unfold loadDenied
  split
  · rfl
  · rfl
  · rfl
  · split <;> rfl

theorem load_lease_written {d : Disk} {l : Lease} (hok : ((newStore true).load d).err = none)
    (hl : l.validate = .ok ()) :
    (newStore true).load (d.apply (.lease l)) = { (newStore true).load d with lease := some l } := by
  obtain ⟨lease, hload⟩ := load_cases hok
  have hnew : (newStore true).load (d.apply (.lease l)) = (halfLoaded (some l)).loadDenied d := by
    simp only [load, newStore, Disk.apply, hl]
    rfl
  rw [hnew, hload d rfl]
  exact loadDenied_halfLoaded d (some l) lease

theorem load_denied_written {d : Disk} {w : Watermark}
    (hok : ((newStore true).load d).err = none) (hw : w.size ≤ maxDeniedKeys) :
    (newStore true).load (d.apply (.denied w)) = { (newStore true).load d with denied := w } := by
  obtain ⟨lease, hload⟩ := load_cases hok
  rw [hload d rfl] at hok
  rw [hload (d.apply (.denied w)) rfl, hload d rfl]
  have hread : (halfLoaded lease).loadDenied (d.apply (.denied w))
      = { halfLoaded lease with denied := w } := by
    simp only [loadDenied, Disk.apply, if_neg (Nat.not_lt.mpr hw)]
  rw [hread]
  cases hd : d.denied with
  | missing => simp only [loadDenied, hd]
  | refused => simp [loadDenied, hd] at hok
  | garbled => simp [loadDenied, hd] at hok
  | holds m =>
    by_cases hm : maxDeniedKeys < m.size
    · simp [loadDenied, hd, hm] at hok
    · simp only [loadDenied, hd, if_neg hm]

/-! ## Which denials an install enters -/

/-- There was room when the turn of the key came. -/
def HasRoom (entry : DeniedEntry) (m : Watermark) (keys : List String) (key : String) : Prop :=
  ∃ i, keys[i]? = some key ∧ (recordDenied entry m (keys.take i)).size < maxDeniedKeys

theorem lookup_recordDenied_room {entry : DeniedEntry} {key : String} :
    ∀ {keys : List String} {m : Watermark},
      (HasRoom entry m keys key → (recordDenied entry m keys).lookup key = some entry) ∧
      (¬HasRoom entry m keys key → (recordDenied entry m keys).lookup key = m.lookup key) := by
  intro keys
  induction keys with
  | nil =>
    intro m
    exact ⟨fun ⟨i, hi, _⟩ => absurd hi (by simp), fun _ => rfl⟩
  | cons k rest ih =>
    intro m
    have hstep : recordDenied entry m (k :: rest)
        = recordDenied entry (if m.size < maxDeniedKeys then m.insert k entry else m) rest := rfl
    obtain ⟨hin, hout⟩ := @ih (if m.size < maxDeniedKeys then m.insert k entry else m)
    rw [hstep]
    constructor
    · rintro ⟨i, hi, hroom⟩
      cases i with
      | succ i => exact hin ⟨i, by simpa using hi, hroom⟩
      | zero =>
        have hk : k = key := by simpa using hi
        have hsize : m.size < maxDeniedKeys := hroom
        subst hk
        obtain hsame | hnew := @lookup_recordDenied entry k rest
          (if m.size < maxDeniedKeys then m.insert k entry else m)
        · rw [hsame, if_pos hsize]
          exact AList.lookup_insert m
        · exact hnew
    · intro hno
      rw [hout fun ⟨i, hi, hroom⟩ => hno ⟨i + 1, by simpa using hi, hroom⟩]
      split
      · rename_i hsize
        rw [GoMap.lookup_insert_eq, if_neg]
        intro hk
        exact hno ⟨0, by simp [hk], hsize⟩
      · rfl

theorem redundant_entryAt (revision now : Int) :
    redundant revision now (entryAt revision now) = false := by
  unfold redundant
  split
  · rfl
  · simp [entryAt]

theorem listed_nextDenied {m : Watermark} {now : Int} {l : Lease} {key : String}
    (hkey : key ∈ l.denied) :
    ((nextDenied m now l).lookup key).isSome = true ↔
      HasRoom (entryAt l.revision now) m l.denied key ∨
        ∃ e, m.lookup key = some e ∧ redundant l.revision now e = false := by
  have hgrant : (stripped l).grants.lookup key = none := by
    show (stripGrants l.grants l.denied).lookup key = none
    rw [lookup_stripGrants, if_pos hkey]
  obtain ⟨hin, hout⟩ := @lookup_recordDenied_room (entryAt l.revision now) key l.denied m
  unfold nextDenied
  rw [lookup_pruneDenied, hgrant]
  by_cases hroom : HasRoom (entryAt l.revision now) m l.denied key
  · have hfresh : redundant (stripped l).revision now (entryAt l.revision now) = false :=
      redundant_entryAt l.revision now
    simp [hin hroom, hroom, hfresh]
  · rw [hout hroom]
    have hrev : (stripped l).revision = l.revision := rfl
    cases hm : m.lookup key with
    | none => simp [hroom]
    | some e => cases hr : redundant l.revision now e <;> simp [hroom, hrev, hr]

theorem listed_nextDenied_of_listed {m : Watermark} {now : Int} {l : Lease} {key : String}
    {e : DeniedEntry} (hm : m.lookup key = some e)
    (hkeep : ((stripped l).grants.lookup key).isSome = true ∨ redundant l.revision now e = false) :
    ((nextDenied m now l).lookup key).isSome = true := by
  unfold nextDenied
  rw [lookup_pruneDenied]
  have hrev : (stripped l).revision = l.revision := rfl
  obtain hsame | hnew := @lookup_recordDenied (entryAt l.revision now) key l.denied m
  · rw [hsame, hm, Option.bind_some, hrev]
    cases hg : ((stripped l).grants.lookup key).isSome with
    | true => simp
    | false =>
      rw [hg] at hkeep
      simp [hkeep.resolve_left (by simp)]
  · rw [hnew, Option.bind_some, hrev, redundant_entryAt]
    cases ((stripped l).grants.lookup key).isSome <;> simp

end Store

namespace Session

/-! ## Memory and files -/

variable (m : Session)

def Faithful : Prop :=
  m.view.persistent = true → m.view.err = none → (newStore true).load m.disk = m.view

theorem install_writes (s : Store) (now : Int) (io : Writes) (l : Lease)
    (hp : s.persistent = true) :
    ∃ k, (s.install now io l).writes
        = [FileWrite.lease (Store.stripped l), .denied (Store.nextDenied s.denied now l)].take k ∧
      ((s.install now io l).store.err = none → s.err = none → k = 2) := by
  obtain ⟨persistent, loaded, err, lease, denied⟩ := s
  obtain ⟨writeLease, writeDenied⟩ := io
  subst hp
  cases writeLease with
  | failed => exact ⟨0, rfl, nofun⟩
  | replacedThenFailed => exact ⟨1, rfl, nofun⟩
  | done =>
    cases writeDenied with
    | failed => exact ⟨1, rfl, nofun⟩
    | replacedThenFailed => exact ⟨2, rfl, nofun⟩
    | done => exact ⟨2, rfl, fun _ _ => rfl⟩

/-- What the next process reads when the first `k` writes of an install are done. -/
def readAfter (s : Store) (now : Int) (l : Lease) : Nat → Store
  | 0 => s
  | 1 => { s with lease := some (Store.stripped l) }
  | _ => { s with lease := some (Store.stripped l), denied := Store.nextDenied s.denied now l }

theorem load_writes {m : Session} {now : Int} {l : Lease} (hm : m.Faithful)
    (hp : m.view.persistent = true) (hok : m.view.err = none)
    (hbound : m.view.denied.size ≤ maxDeniedKeys) (hl : l.validate = .ok ()) (k : Nat) :
    (newStore true).load (m.disk.applyAll
      ([FileWrite.lease (Store.stripped l), .denied (Store.nextDenied m.view.denied now l)].take k))
      = readAfter m.view now l k := by
  have hread := hm hp hok
  have hok' : ((newStore true).load m.disk).err = none := by rw [hread]; exact hok
  have hlease := Store.load_lease_written hok' (Store.validate_stripped hl)
  cases k with
  | zero => exact hread
  | succ k =>
    cases k with
    | zero =>
      show (newStore true).load (m.disk.apply (.lease (Store.stripped l))) = _
      rw [hlease, hread]
      rfl
    | succ k =>
      have hok'' : ((newStore true).load (m.disk.apply (.lease (Store.stripped l)))).err = none := by
        rw [hlease]
        exact hok'
      have hall : m.disk.applyAll ([FileWrite.lease (Store.stripped l),
          .denied (Store.nextDenied m.view.denied now l)].take (k + 1 + 1))
          = (m.disk.apply (.lease (Store.stripped l))).apply
              (.denied (Store.nextDenied m.view.denied now l)) := by
        simp [Disk.applyAll]
      rw [hall]
      rw [Store.load_denied_written hok'' (Store.size_nextDenied_le hbound), hlease, hread]
      rfl

theorem deny_writes (s : Store) (now : Int) (io : Writes) (keys : List String) (revision : Int)
    (hp : s.persistent = true) :
    ((s.denyLoaded now io keys revision).store = s ∧
      (s.denyLoaded now io keys revision).writes = []) ∨
    (s.denyLoaded now io keys revision).store.err ≠ none ∨
    ∃ w : Watermark, (s.denyLoaded now io keys revision).store = { s with denied := w } ∧
      (s.denyLoaded now io keys revision).writes = [.denied w] ∧ s.err = none ∧
      (s.denied.size ≤ maxDeniedKeys → w.size ≤ maxDeniedKeys) := by
  obtain ⟨persistent, loaded, err, lease, denied⟩ := s
  obtain ⟨writeLease, writeDenied⟩ := io
  subst hp
  cases err with
  | some e => exact Or.inl ⟨rfl, rfl⟩
  | none =>
    unfold Store.denyLoaded
    cases hc : (Store.denyLoop (Store.entryAt revision now) keys denied false).2 with
    | false => exact Or.inl ⟨by simp [hc, Store.denyLoop_unchanged hc], by simp [hc]⟩
    | true =>
      simp only [hc, Bool.not_true, Bool.false_eq_true, if_false]
      cases writeDenied with
      | failed => exact Or.inr (Or.inl (by simp))
      | replacedThenFailed => exact Or.inr (Or.inl (by simp))
      | done => exact Or.inr (Or.inr ⟨_, rfl, rfl, trivial, Store.size_denyLoop_le⟩)

theorem kept_of_commit {α : Type} {s : Store} {lease : Option Lease} {w : Watermark} {r : α}
    {o : Outcome α} (h : s.Commit lease w r o) :
    o.store.loaded = s.loaded ∧ o.store.persistent = s.persistent := by
  cases h with
  | done result store disk => rw [store]; exact ⟨rfl, rfl⟩
  | failed persistent result store disk => rw [store]; exact ⟨rfl, rfl⟩

theorem deny_kept (s : Store) (now : Int) (io : Writes) (keys : List String) (revision : Int) :
    (s.denyLoaded now io keys revision).store.loaded = s.loaded ∧
      (s.denyLoaded now io keys revision).store.persistent = s.persistent := by
  obtain ⟨e, -, h⟩ | ⟨-, -, h⟩ | ⟨-, hc⟩ := s.denyLoaded_cases now io keys revision
  · rw [h]; exact ⟨rfl, rfl⟩
  · rw [h]; exact ⟨rfl, rfl⟩
  · exact kept_of_commit hc

theorem updateLoaded_of_installs {s : Store} {l : Lease} (h : s.Installs l) (now : Int)
    (io : Writes) : s.updateLoaded now io (some l) = s.install now io l := by
  obtain ⟨he, hv, hj⟩ := h
  simp [Store.updateLoaded, he, hv, hj]

theorem update_kept (s : Store) (now : Int) (io : Writes) (incoming : Option Lease) :
    (s.updateLoaded now io incoming).store.persistent = s.persistent := by
  obtain ⟨hs, -, -⟩ | ⟨l, -, -, hc⟩ := s.updateLoaded_cases now io incoming
  · rw [hs]
  · exact (kept_of_commit hc).2

theorem persistent_step (c : Call) : (m.step c).store.persistent = m.store.persistent := by
  obtain ⟨now, op⟩ := c
  cases op with
  | reload => rfl
  | update incoming io => exact (update_kept m.view now io incoming).trans m.view_persistent
  | deny keys revision io =>
    exact (deny_kept m.view now io keys revision).2.trans m.view_persistent

theorem faithful_step (c : Call) (hm : m.Faithful) (hsound : m.view.Sound m.disk) :
    (m.step c).Faithful := by
  obtain ⟨now, op⟩ := c
  cases op with
  | reload =>
    intro hp _
    rw [view_persistent] at hp
    have hpersistent : m.store.persistent = true := hp
    rw [step_reload, hpersistent]
    rfl
  | update incoming io =>
    obtain ⟨hview, hdisk⟩ | ⟨l, rfl, hinst, hcommit⟩ := m.step_update now incoming io
    · intro hp hok
      rw [hview] at hp hok ⊢
      rw [hdisk]
      exact hm hp hok
    · intro hp hok
      cases hcommit with
      | failed persistent view disk =>
        rw [view] at hok
        cases hok
      | done view disk =>
        have hp' : m.view.persistent = true := by rw [view] at hp; exact hp
        have hstore : (m.view.install now io l).store = (m.step ⟨now, .update (some l) io⟩).view := by
          rw [← updateLoaded_of_installs hinst]
          refine (view_after ?_).symm
          show (m.view.updateLoaded now io (some l)).store.loaded = true
          rw [updateLoaded_of_installs hinst]
          exact (kept_of_commit (Store.install_commit m.view now io l)).1.trans m.view_loaded
        obtain ⟨k, hwrites, hall⟩ := install_writes m.view now io l hp'
        have hk : k = 2 := hall (by rw [hstore]; exact hok) hinst.1
        have hdisk' : (m.step ⟨now, .update (some l) io⟩).disk
            = m.disk.applyAll (m.view.install now io l).writes := by
          show m.disk.applyAll (m.view.updateLoaded now io (some l)).writes = _
          rw [updateLoaded_of_installs hinst]
        rw [hdisk', hwrites, load_writes hm hp' hinst.1 hsound.bounded hinst.2.1 k, hk, view]
        rfl
  | deny keys revision io =>
    intro hp hok
    obtain ⟨hloaded, hpersistent⟩ := deny_kept m.view now io keys revision
    have hview : (m.step ⟨now, .deny keys revision io⟩).view
        = (m.view.denyLoaded now io keys revision).store :=
      view_after (hloaded.trans m.view_loaded)
    have hdisk : (m.step ⟨now, .deny keys revision io⟩).disk
        = m.disk.applyAll (m.view.denyLoaded now io keys revision).writes := rfl
    rw [hview] at hp hok ⊢
    have hp' := hpersistent.symm.trans hp
    rw [hdisk]
    obtain ⟨hstore, hwrites⟩ | herr | ⟨w, hstore, hwrites, he, hsize⟩ :=
      deny_writes m.view now io keys revision hp'
    · rw [hstore, hwrites]
      rw [hstore] at hok
      exact hm hp' hok
    · exact absurd hok herr
    · have hread := hm hp' he
      rw [hstore, hwrites]
      show (newStore true).load (m.disk.apply (.denied w)) = _
      rw [Store.load_denied_written (by rw [hread]; exact he) (hsize hsound.bounded), hread]

/-- A store that has files and is in step with them. -/
structure Steady (m : Session) : Prop where
  persistent : m.view.persistent = true
  faithful : m.Faithful
  sound : m.view.Sound m.disk

theorem steady_step (c : Call) (h : m.Steady) : (m.step c).Steady where
  persistent := by
    rw [view_persistent, persistent_step, ← view_persistent]
    exact h.persistent
  faithful := faithful_step m c h.faithful h.sound
  sound := sound_step m c h.sound

theorem steady_exec (d : Disk) (start : Int) (cs : List Call) :
    (Run.exec step (opened true d start) cs).Steady :=
  Run.invariant_all steady_step
    ⟨view_persistent _, fun _ _ => rfl, Store.sound_load true d⟩

/-! ## The crash -/

/-- The writes of an `Update` that were done when the process ended: the first `n`, if it came to
that many. -/
def doneWrites (now : Int) (io : Writes) (l : Lease) (n : Nat) : List FileWrite :=
  (m.store.update m.disk now io (some l)).writes.take n

def recovered (now : Int) (io : Writes) (l : Lease) (n : Nat) : Store :=
  (newStore true).load (m.disk.applyAll (m.doneWrites now io l n))

def Prunable (l : Lease) (now : Int) (key : String) (e : DeniedEntry) : Prop :=
  (Store.stripped l).grants.lookup key = none ∧ Store.redundant l.revision now e = true

/-- What a crash must not lose. -/
structure CrashSafe (m : Session) (now : Int) (io : Writes) (l : Lease) (n : Nat) : Prop where
  refused : ∀ key e, m.view.denied.lookup key = some e → ¬Prunable l now key e →
    ∀ t, (m.recovered now io l n).allowsLoaded key t = false
  listed : (m.recovered now io l n).lease = some (Store.stripped l) →
    ∀ key ∈ l.denied, ((m.recovered now io l n).denied.lookup key).isSome = true

/-- When it does not, by the number of writes that were done. -/
def KeepsDenials (now : Int) (l : Lease) : Nat → Prop
  | 0 => m.installed = some (Store.stripped l) →
    ∀ key ∈ l.denied, (m.view.denied.lookup key).isSome = true
  | 1 => ∀ key ∈ l.denied, (m.view.denied.lookup key).isSome = true
  | _ => ∀ key ∈ l.denied,
    Store.HasRoom (Store.entryAt l.revision now) m.view.denied l.denied key ∨
      ∃ e, m.view.denied.lookup key = some e ∧ Store.redundant l.revision now e = false

theorem doneWrites_eq (now : Int) (io : Writes) (l : Lease) (n : Nat)
    (hp : m.view.persistent = true) :
    m.doneWrites now io l n = [FileWrite.lease (Store.stripped l),
      .denied (Store.nextDenied m.view.denied now l)].take (m.doneWrites now io l n).length := by
  have hpre : ∃ k, (m.store.update m.disk now io (some l)).writes
      = [FileWrite.lease (Store.stripped l),
          .denied (Store.nextDenied m.view.denied now l)].take k := by
    show ∃ k, (m.view.updateLoaded now io (some l)).writes = _
    by_cases hinst : m.view.Installs l
    · rw [updateLoaded_of_installs hinst]
      obtain ⟨k, hk, -⟩ := install_writes m.view now io l hp
      exact ⟨k, hk⟩
    · obtain ⟨-, hnone, -⟩ | ⟨l', hl, hinst', -⟩ := m.view.updateLoaded_cases now io (some l)
      · exact ⟨0, hnone⟩
      · rw [Option.some.injEq] at hl
        exact absurd (hl ▸ hinst') hinst
  obtain ⟨k, hk⟩ := hpre
  unfold doneWrites
  rw [hk, List.take_take, List.length_take, List.take_eq_take_min]

theorem recovered_eq {m : Session} {now : Int} {io : Writes} {l : Lease} {n : Nat}
    (hm : m.Steady) (hok : m.view.err = none) (hl : l.validate = .ok ()) :
    m.recovered now io l n = readAfter m.view now l (m.doneWrites now io l n).length := by
  have hwrites := congrArg (fun ws => (newStore true).load (m.disk.applyAll ws))
    (doneWrites_eq m now io l n hm.persistent)
  exact hwrites.trans (load_writes hm.faithful hm.persistent hok hm.sound.bounded hl _)

theorem refused_of_listed {s : Store} {key : String} (h : (s.denied.lookup key).isSome = true)
    (t : Int) : s.allowsLoaded key t = false := by
  rw [Bool.eq_false_iff]
  intro hallows
  obtain ⟨-, hnone, -⟩ := Store.allowsLoaded_iff.mp hallows
  rw [hnone] at h
  cases h

theorem listed_readAfter {s : Store} {now : Int} {l : Lease} {key : String} {e : DeniedEntry}
    (he : s.denied.lookup key = some e) (hkeep : ¬Prunable l now key e) (k : Nat) :
    ((readAfter s now l k).denied.lookup key).isSome = true := by
  have hlisted : (s.denied.lookup key).isSome = true := by simp [he]
  unfold readAfter
  split
  · exact hlisted
  · exact hlisted
  · apply Store.listed_nextDenied_of_listed he
    by_cases hg : (Store.stripped l).grants.lookup key = none
    · exact Or.inr (Bool.eq_false_iff.mpr fun hr => hkeep ⟨hg, hr⟩)
    · exact Or.inl (Option.isSome_iff_ne_none.mpr hg)

/-- **What a crash inside an `Update` loses.** From every state a persistent store can reach, for
every valid lease, every clock reading, every way the writes can end and every point of a crash:
what was on the watermark stays refused, and the denials of the lease are on the watermark with
it, exactly when `KeepsDenials` says so for the number of writes that were done. -/
theorem crash_safe_iff (d : Disk) (start : Int) (cs : List Call) (now : Int) (io : Writes)
    (l : Lease) (n : Nat) (hl : l.validate = .ok ())
    (hok : (Run.exec step (opened true d start) cs).view.err = none) :
    CrashSafe (Run.exec step (opened true d start) cs) now io l n ↔
      KeepsDenials (Run.exec step (opened true d start) cs) now l
        ((Run.exec step (opened true d start) cs).doneWrites now io l n).length := by
  have hsteady := steady_exec d start cs
  generalize Run.exec step (opened true d start) cs = m at hok hsteady ⊢
  have hread : m.recovered now io l n = readAfter m.view now l (m.doneWrites now io l n).length :=
    recovered_eq hsteady hok hl
  have hrefused : ∀ key e, m.view.denied.lookup key = some e → ¬Prunable l now key e →
      ∀ t, (m.recovered now io l n).allowsLoaded key t = false := by
    intro key e he hkeep t
    rw [hread]
    exact refused_of_listed (listed_readAfter he hkeep _) t
  rw [show m.CrashSafe now io l n ↔ _ from
    ⟨fun h => h.listed, fun h => ⟨hrefused, h⟩⟩, hread]
  generalize (m.doneWrites now io l n).length = k
  cases k with
  | zero => exact Iff.rfl
  | succ k =>
    cases k with
    | zero => exact ⟨fun h => h rfl, fun h _ => h⟩
    | succ k =>
      constructor
      · intro h key hkey
        exact (Store.listed_nextDenied hkey).mp (h rfl key hkey)
      · intro h _ key hkey
        exact (Store.listed_nextDenied hkey).mpr (h key hkey)

/-! A lease that takes a key back, one minute after it was granted. -/

def granting (revision : Int) (issuedAt : String) : Lease :=
  { revision := revision, issuedAt := issuedAt
    grants := AList.singleton "k" "2026-01-01T00:05:00Z" }

def denying : Lease :=
  { revision := 2, issuedAt := "2026-01-01T00:01:00Z", grants := ∅, denied := ["k"] }

def granted : Session :=
  Run.exec step unused [⟨midnight, .update (some (granting 1 "2026-01-01T00:00:00Z")) {}⟩]

/-- With both writes done the denial is on the watermark. -/
theorem denial_survives_both_writes : CrashSafe granted (midnight + minute) {} denying 2 := by
  refine (crash_safe_iff _ midnight _ (midnight + minute) {} denying 2 (by decide) (by decide)).mpr ?_
  show ∀ key ∈ ["k"], Store.HasRoom (Store.entryAt 2 (midnight + minute)) granted.view.denied ["k"]
    key ∨ _
  intro key hkey
  rw [List.mem_singleton] at hkey
  subst hkey
  exact Or.inl ⟨0, rfl, by decide⟩

/-- The crash comes between the writes: the lease that denies `k` is read back, `k` is not on the
watermark, and the next lease admits it. Without the crash the watermark refuses it there. -/
theorem denial_lost_between_writes :
    granted.view.err = none ∧ denying.validate = .ok () ∧
    (granted.recovered (midnight + minute) {} denying 1).lease = some (Store.stripped denying) ∧
    "k" ∈ denying.denied ∧
    (granted.recovered (midnight + minute) {} denying 1).denied.lookup "k" = none ∧
    (let crashed := { granted with
        store := newStore true
        disk := granted.disk.applyAll (granted.doneWrites (midnight + minute) {} denying 1) }
      let next : Call := ⟨midnight + 2 * minute,
        .update (some (granting 3 "2026-01-01T00:02:00Z")) {}⟩
      (crashed.step next).allows "k" (midnight + 3 * minute) = true ∧
      (Run.exec step granted [⟨midnight + minute, .update (some denying) {}⟩, next]).allows "k"
        (midnight + 3 * minute) = false) :=
  ⟨by decide, by decide, rfl, by decide, by decide, by decide, by decide⟩

/-! ## Restarts -/

/-- A call reads the view and the files only. -/
theorem step_congr {m m' : Session} (hview : m.view = m'.view) (hdisk : m.disk = m'.disk) (c : Call) :
    m.step c = m'.step c := by
  obtain ⟨now, op⟩ := c
  cases op with
  | update incoming io =>
    show m.after now (m.view.updateLoaded now io incoming)
      = m'.after now (m'.view.updateLoaded now io incoming)
    rw [hview]
    unfold after
    rw [hdisk]
  | deny keys revision io =>
    show m.after now (m.view.denyLoaded now io keys revision)
      = m'.after now (m'.view.denyLoaded now io keys revision)
    rw [hview]
    unfold after
    rw [hdisk]
  | reload =>
    have hpersistent := congrArg Store.persistent hview
    rw [view_persistent, view_persistent] at hpersistent
    unfold step
    rw [hpersistent, hdisk]

/-- **A restart goes unnoticed.** From every state that a store with files reaches without an error,
whatever its files held at the start, a run answers the same for every key at every time with a
restart before it and without. -/
theorem restart_goes_unnoticed (d : Disk) (start now : Int) (before later : List Call)
    (hok : (Run.exec step (opened true d start) before).view.err = none) :
    let restarted := Run.exec step (opened true d start) (before ++ ⟨now, .reload⟩ :: later)
    let unbroken := Run.exec step (opened true d start) (before ++ later)
    restarted.installed = unbroken.installed ∧ ∀ key t, restarted.allows key t = unbroken.allows key t := by
  intro restarted unbroken
  have hsteady := steady_exec d start before
  have hreload : ((Run.exec step (opened true d start) before).step ⟨now, .reload⟩).view
      = (Run.exec step (opened true d start) before).view := by
    generalize Run.exec step (opened true d start) before = m at hok hsteady
    show (newStore m.store.persistent).load m.disk = m.view
    rw [← view_persistent, hsteady.persistent]
    exact hsteady.faithful hsteady.persistent hok
  have hview : restarted.view = unbroken.view := by
    simp only [restarted, unbroken, Run.exec_append, Run.exec_cons]
    cases later with
    | nil => exact hreload
    | cons c later => rw [Run.exec_cons, Run.exec_cons, step_congr hreload rfl c]
  exact ⟨congrArg Store.lease hview, fun key t => congrArg (fun s => Store.allowsLoaded s key t) hview⟩

/-- A grant, a restart, and the lease that takes the grant back. -/
theorem restart_goes_unnoticed_after_grant :
    let before : List Call := [⟨midnight, .update (some (granting 1 "2026-01-01T00:00:00Z")) {}⟩]
    let later : List Call := [⟨midnight + minute, .update (some denying) {}⟩]
    (Run.exec step unused (before ++ ⟨midnight, .reload⟩ :: later)).allows "k" midnight
      = (Run.exec step unused (before ++ later)).allows "k" midnight :=
  (restart_goes_unnoticed _ midnight midnight _ _ (by decide)).2 _ _

end Session

end OboardAgent.Authorization
