import OboardAgent.Authorization.Store
import OboardAgent.Lib.Run

/-!
# Runs of a lease store

A `Session` is a store together with its files and the clock it reads. One `Call` is one use of
the store, with everything the environment decides in it: the clock reading, how the writes end,
and, for `reload`, that the process ended and a new one opens the same files.

Every method of the source starts with `load`, so what a method works on is never the store as
it stands but its `view`, the store once the files have been read. All invariants are stated
about the view; a fresh process and a running one then need no separate treatment.
-/

namespace OboardAgent.Authorization

/-- A store, its files, and the latest clock reading. -/
structure Session where
  store : Store
  disk : Disk
  clock : Int

inductive Op where
  | update (incoming : Option Lease) (io : Writes)
  | deny (keys : List String) (revision : Int) (io : Writes)
  | reload

def Op.isReload : Op → Bool
  | .reload => true
  | _ => false

/-- One use, at a clock reading. -/
structure Call where
  now : Int
  op : Op

namespace Session

/-- A store nobody has used yet, on whatever files there are. -/
def opened (persistent : Bool) (disk : Disk) (clock : Int) : Session :=
  { store := newStore persistent, disk := disk, clock := clock }

variable (m : Session)

def view : Store := m.store.load m.disk

def allows (key : String) (now : Int) : Bool := m.store.allows m.disk key now

def installed : Option Lease := m.view.lease

/-- The outcome of a call, without its result. -/
def after {α : Type} (now : Int) (o : Outcome α) : Session :=
  { store := o.store, disk := m.disk.applyAll o.writes, clock := now }

def step (c : Call) : Session :=
  match c.op with
  | .update incoming io => m.after c.now (m.store.update m.disk c.now io incoming)
  | .deny keys revision io => m.after c.now (m.store.deny m.disk c.now io keys revision)
  | .reload => { m with store := newStore m.store.persistent, clock := c.now }

/-- The clock does not go back, and only a store that has files is opened again. -/
def Legal (c : Call) : Prop :=
  m.clock ≤ c.now ∧ (c.op.isReload = true → m.store.persistent = true)

instance (m : Session) (c : Call) : Decidable (Legal m c) :=
  inferInstanceAs (Decidable (_ ∧ _))

/-- The number of keys on the watermark when it is largest during the call. -/
def peak (c : Call) : Nat :=
  match c.op with
  | .update (some l) _ =>
    if m.view.Installs l then
      (Store.recordDenied (Store.entryAt l.revision c.now) m.view.denied l.denied).size
    else m.view.denied.size
  | .deny keys revision _ =>
    if m.view.err = none then
      (Store.denyLoop (Store.entryAt revision c.now) keys m.view.denied false).1.size
    else m.view.denied.size
  | _ => m.view.denied.size

/-- The call denies `key` and says so: a `Deny` that returned nil, or an `Update` that installed. -/
def Denies (c : Call) (key : String) : Prop :=
  match c.op with
  | .update (some l) io =>
    key ∈ l.denied ∧ ∃ r, (m.store.update m.disk c.now io (some l)).result = .ok r ∧
      r.installed = true
  | .deny keys revision io =>
    key ∈ keys ∧ (m.store.deny m.disk c.now io keys revision).result = .ok ()
  | _ => False

end Session

/-! ## Loading -/

namespace Store

theorem load_of_loaded {s : Store} {d : Disk} (h : s.loaded = true) : s.load d = s := by
  simp [load, h]

@[simp] theorem loadDenied_loaded (s : Store) (d : Disk) : (s.loadDenied d).loaded = s.loaded := by
  unfold loadDenied
  split
  · rfl
  · rfl
  · rfl
  · split <;> rfl

@[simp] theorem loadDenied_persistent (s : Store) (d : Disk) :
    (s.loadDenied d).persistent = s.persistent := by
  unfold loadDenied
  split
  · rfl
  · rfl
  · rfl
  · split <;> rfl

@[simp] theorem loadDenied_lease (s : Store) (d : Disk) : (s.loadDenied d).lease = s.lease := by
  unfold loadDenied
  split
  · rfl
  · rfl
  · rfl
  · split <;> rfl

theorem loadDenied_cases {s : Store} (d : Disk) (he : s.err = none) (hd : s.denied = ∅) :
    (∃ e, (s.loadDenied d).err = some e ∧ (s.loadDenied d).denied = ∅) ∨
    ((s.loadDenied d).err = none ∧
      ((d.denied = .missing ∧ (s.loadDenied d).denied = ∅) ∨
        ∃ w, d.denied = .holds w ∧ (s.loadDenied d).denied = w ∧ w.size ≤ maxDeniedKeys)) := by
  unfold loadDenied
  cases hf : d.denied with
  | missing => exact Or.inr ⟨he, Or.inl ⟨rfl, hd⟩⟩
  | refused => exact Or.inl ⟨_, rfl, hd⟩
  | garbled => exact Or.inl ⟨_, rfl, hd⟩
  | holds w =>
    by_cases hw : maxDeniedKeys < w.size
    · simp only [hw, if_true]
      exact Or.inl ⟨_, rfl, hd⟩
    · simp only [hw, if_false]
      exact Or.inr ⟨he, Or.inr ⟨w, rfl, rfl, by omega⟩⟩

structure Loads (d : Disk) (s : Store) : Prop where
  loaded : s.loaded = true
  persistent : s.persistent = true
  lease_valid : ∀ l, s.lease = some l → l.validate = .ok ()
  content : (∃ e, s.err = some e ∧ s.denied = ∅) ∨
    (s.err = none ∧
      ((d.denied = .missing ∧ s.denied = ∅) ∨
        ∃ w, d.denied = .holds w ∧ s.denied = w ∧ w.size ≤ maxDeniedKeys))

theorem loads (d : Disk) : Loads d ((newStore true).load d) := by
  cases hl : d.lease with
  | refused =>
    rw [show (newStore true).load d = { persistent := true, loaded := true, err := some .io } by
      simp [load, newStore, hl]]
    exact ⟨rfl, rfl, by simp, Or.inl ⟨_, rfl, rfl⟩⟩
  | garbled =>
    rw [show (newStore true).load d
        = { persistent := true, loaded := true, err := some .badJSON } by simp [load, newStore, hl]]
    exact ⟨rfl, rfl, by simp, Or.inl ⟨_, rfl, rfl⟩⟩
  | missing =>
    rw [show (newStore true).load d = loadDenied { persistent := true, loaded := true } d by
      simp [load, newStore, hl]]
    exact ⟨by simp, by simp, by simp, loadDenied_cases d rfl rfl⟩
  | holds l =>
    cases hv : l.validate with
    | error e =>
      rw [show (newStore true).load d
          = { persistent := true, loaded := true, err := some (.lease e) } by
        simp [load, newStore, hl, hv]]
      exact ⟨rfl, rfl, by simp, Or.inl ⟨_, rfl, rfl⟩⟩
    | ok u =>
      rw [show (newStore true).load d
          = loadDenied { persistent := true, loaded := true, lease := some l } d by
        simp [load, newStore, hl, hv]]
      exact ⟨by simp, by simp, by simp [hv], loadDenied_cases d rfl rfl⟩

/-! ## What holds of a store between calls -/

/-- The installed lease is valid, the watermark is within its bound, and it is the one on disk. -/
structure Sound (s : Store) (d : Disk) : Prop where
  lease_valid : ∀ l, s.lease = some l → l.validate = .ok ()
  bounded : s.denied.size ≤ maxDeniedKeys
  synced : s.persistent = true → s.err = none →
    d.denied = .holds s.denied ∨ (d.denied = .missing ∧ s.denied = ∅)

theorem sound_load (p : Bool) (d : Disk) : ((newStore p).load d).Sound d := by
  cases p with
  | false => exact ⟨by simp [load, newStore], by simp [load, newStore], by simp [load, newStore]⟩
  | true =>
    have h := loads d
    refine ⟨h.lease_valid, ?_, ?_⟩
    · rcases h.content with ⟨e, -, hd⟩ | ⟨-, ⟨-, hd⟩ | ⟨w, -, hd, hw⟩⟩
      · simp [hd]
      · simp [hd]
      · exact hd ▸ hw
    · intro _ hok
      rcases h.content with ⟨e, he, -⟩ | ⟨-, ⟨hm, hd⟩ | ⟨w, hm, hd, -⟩⟩
      · exact absurd (he.symm.trans hok) (by simp)
      · exact Or.inr ⟨hm, hd⟩
      · exact Or.inl (hd ▸ hm)

end Store

/-! ## What one call does to the view -/

namespace Session

theorem view_loaded (m : Session) : m.view.loaded = true := by
  unfold view Store.load
  split
  · assumption
  · split
    · rfl
    · split
      · simp
      · rfl
      · rfl
      · split
        · rfl
        · simp

variable {m : Session} {now : Int}

theorem view_after {α : Type} {o : Outcome α}
    (h : o.store.loaded = true) : (m.after now o).view = o.store := Store.load_of_loaded h

@[simp] theorem step_clock (m : Session) (c : Call) : (m.step c).clock = c.now := by
  unfold step
  split <;> rfl

inductive Commits (m m' : Session) (lease : Option Lease) (w : Watermark) : Prop
  | done (view : m'.view = { m.view with lease := lease, denied := w })
      (disk : m.view.persistent = true → m'.disk.denied = .holds w)
  | failed (persistent : m.view.persistent = true)
      (view : m'.view = { m.view with denied := w, err := some .io })
      (disk : m'.disk.denied = m.disk.denied ∨ m'.disk.denied = .holds w)

theorem done_of_commit {α : Type} {m : Session} {now : Int} {lease : Option Lease} {w : Watermark}
    {r r' : α} {o : Outcome α} (h : m.view.Commit lease w r o) (hres : o.result = .ok r') :
    (m.after now o).view = { m.view with lease := lease, denied := w } ∧
      (m.view.persistent = true → (m.after now o).disk.denied = .holds w) := by
  cases h with
  | failed persistent result store disk => exact absurd (result.symm.trans hres) (by simp)
  | done result store disk =>
    refine ⟨?_, fun hp => disk hp m.disk⟩
    rw [view_after (by rw [store]; exact m.view_loaded), store]

theorem commits_of_commit {α : Type} {lease : Option Lease} {w : Watermark} {r : α} {o : Outcome α}
    (h : m.view.Commit lease w r o) : Commits m (m.after now o) lease w := by
  cases h with
  | done result store disk =>
    have hview : (m.after now o).view = o.store := view_after (by rw [store]; exact m.view_loaded)
    exact .done (hview.trans store) fun hp => disk hp m.disk
  | failed persistent result store disk =>
    have hview : (m.after now o).view = o.store := view_after (by rw [store]; exact m.view_loaded)
    exact .failed persistent (hview.trans store) (disk m.disk)

theorem step_update (m : Session) (now : Int) (incoming : Option Lease) (io : Writes) :
    ((m.step ⟨now, .update incoming io⟩).view = m.view ∧
      (m.step ⟨now, .update incoming io⟩).disk = m.disk) ∨
    ∃ l, incoming = some l ∧ m.view.Installs l ∧
      Commits m (m.step ⟨now, .update incoming io⟩) (some (Store.stripped l))
        (Store.nextDenied m.view.denied now l) := by
  rcases m.view.updateLoaded_cases now io incoming with ⟨hs, hw, -⟩ | ⟨l, hl, hinst, hc⟩
  · refine Or.inl ⟨?_, ?_⟩
    · have hstore : (m.store.update m.disk now io incoming).store = m.view := hs
      exact (view_after (by rw [hstore]; exact m.view_loaded)).trans hstore
    · show m.disk.applyAll (m.view.updateLoaded now io incoming).writes = m.disk
      rw [hw]
      rfl
  · exact Or.inr ⟨l, hl, hinst, commits_of_commit hc⟩

theorem step_deny (m : Session) (now : Int) (keys : List String) (revision : Int) (io : Writes) :
    ((m.step ⟨now, .deny keys revision io⟩).view = m.view ∧
      (m.step ⟨now, .deny keys revision io⟩).disk = m.disk) ∨
    (m.view.err = none ∧
      Commits m (m.step ⟨now, .deny keys revision io⟩) m.view.lease
        (Store.denyLoop (Store.entryAt revision now) keys m.view.denied false).1) := by
  have hquiet : ∀ r, m.view.denyLoaded now io keys revision = { store := m.view, result := r } →
      (m.step ⟨now, .deny keys revision io⟩).view = m.view ∧
        (m.step ⟨now, .deny keys revision io⟩).disk = m.disk := by
    intro r h
    have hout : m.store.deny m.disk now io keys revision = { store := m.view, result := r } := h
    have hstep : m.step ⟨now, .deny keys revision io⟩
        = m.after now { store := m.view, result := r } := congrArg (m.after now) hout
    rw [hstep]
    exact ⟨view_after m.view_loaded, rfl⟩
  rcases m.view.denyLoaded_cases now io keys revision with ⟨e, -, h⟩ | ⟨-, -, h⟩ | ⟨he, hc⟩
  · exact Or.inl (hquiet _ h)
  · exact Or.inl (hquiet _ h)
  · exact Or.inr ⟨he, commits_of_commit hc⟩

theorem view_of_installed {l : Lease} {io : Writes} {r : UpdateResult}
    (hres : (m.store.update m.disk now io (some l)).result = .ok r) (hinst : r.installed = true) :
    m.view.Installs l ∧ (m.step ⟨now, .update (some l) io⟩).view
      = { m.view with lease := some (Store.stripped l)
                      denied := Store.nextDenied m.view.denied now l } ∧
    (m.view.persistent = true → (m.step ⟨now, .update (some l) io⟩).disk.denied
      = .holds (Store.nextDenied m.view.denied now l)) := by
  rcases m.view.updateLoaded_cases now io (some l) with ⟨-, -, hno⟩ | ⟨l', hl, hins, hc⟩
  · rw [(hno r hres).1] at hinst
    cases hinst
  · rw [Option.some.injEq] at hl
    subst hl
    exact ⟨hins, done_of_commit hc hres⟩

theorem view_of_answered {l : Lease} {io : Writes} {r : UpdateResult}
    (hres : (m.store.update m.disk now io (some l)).result = .ok r) (hinst : r.installed = false) :
    Store.judge m.installed l = .answer (.ok r) ∧
      (m.step ⟨now, .update (some l) io⟩).view = m.view := by
  rcases m.view.updateLoaded_cases now io (some l) with ⟨hs, -, hno⟩ | ⟨l', -, -, hc⟩
  · refine ⟨(hno r hres).2 l rfl, ?_⟩
    have hstore : (m.store.update m.disk now io (some l)).store = m.view := hs
    exact (view_after (by rw [hstore]; exact m.view_loaded)).trans hstore
  · cases hc with
    | done result store disk =>
      have hr := result.symm.trans hres
      rw [Except.ok.injEq] at hr
      rw [← hr] at hinst
      cases hinst
    | failed persistent result store disk => exact absurd (result.symm.trans hres) (by simp)

theorem view_of_denied {revision : Int} {keys : List String} {io : Writes}
    (hres : (m.store.deny m.disk now io keys revision).result = .ok ()) :
    m.view.err = none ∧ (m.step ⟨now, .deny keys revision io⟩).view
      = { m.view with
          denied := (Store.denyLoop (Store.entryAt revision now) keys m.view.denied false).1 } ∧
    (m.view.Sound m.disk → m.view.persistent = true →
      (m.step ⟨now, .deny keys revision io⟩).disk.denied = .holds
        (Store.denyLoop (Store.entryAt revision now) keys m.view.denied false).1 ∨
      (Store.denyLoop (Store.entryAt revision now) keys m.view.denied false).1 = ∅) := by
  rcases m.view.denyLoaded_cases now io keys revision with
    ⟨e, -, h⟩ | ⟨herr, hsame, h⟩ | ⟨herr, hc⟩
  · have herror : (m.view.denyLoaded now io keys revision).result = .ok () := hres
    rw [h] at herror
    cases herror
  · have hstep : m.step ⟨now, .deny keys revision io⟩
        = m.after now { store := m.view, result := .ok () } := congrArg (m.after now) h
    rw [hstep, hsame]
    refine ⟨herr, view_after m.view_loaded, ?_⟩
    -- Nothing was written, so the file is what it was.
    intro hm hp
    rcases hm.synced hp herr with hdisk | ⟨-, hempty⟩
    · exact Or.inl hdisk
    · exact Or.inr hempty
  · obtain ⟨hview, hdisk⟩ := @done_of_commit _ m now _ _ _ _ _ hc hres
    exact ⟨herr, hview, fun _ hp => Or.inl (hdisk hp)⟩

theorem step_reload (m : Session) (now : Int) :
    (m.step ⟨now, .reload⟩).view = (newStore m.store.persistent).load m.disk := rfl

theorem Commits.installed {m' : Session} {lease : Option Lease} {w : Watermark}
    (h : Commits m m' lease w) : m'.installed = lease ∨ m'.installed = m.installed := by
  unfold Session.installed
  cases h with
  | done view disk => rw [view]; exact Or.inl rfl
  | failed persistent view disk => rw [view]; exact Or.inr rfl

theorem installed_step (m : Session) (c : Call) (hc : c.op.isReload = false) :
    (m.step c).installed = m.installed ∨
    ∃ l io, c.op = .update (some l) io ∧ m.view.Installs l ∧
      (m.step c).installed = some (Store.stripped l) := by
  obtain ⟨now, op⟩ := c
  cases op with
  | reload => exact absurd hc (by simp [Op.isReload])
  | update incoming io =>
    rcases m.step_update now incoming io with ⟨hv, -⟩ | ⟨l, hl, hins, hcommit⟩
    · exact Or.inl (congrArg Store.lease hv)
    · rcases hcommit.installed with hnew | hold
      · exact Or.inr ⟨l, io, by rw [hl], hins, hnew⟩
      · exact Or.inl hold
  | deny keys revision io =>
    rcases m.step_deny now keys revision io with ⟨hv, -⟩ | ⟨-, hcommit⟩
    · exact Or.inl (congrArg Store.lease hv)
    · exact Or.inl (hcommit.installed.elim id id)

/-! ## Soundness along a run -/

theorem Commits.sound {m' : Session} {lease : Option Lease} {w : Watermark}
    (h : Commits m m' lease w) (hm : m.view.Sound m.disk)
    (hlease : ∀ l, lease = some l → l.validate = .ok ()) (hw : w.size ≤ maxDeniedKeys) :
    m'.view.Sound m'.disk := by
  cases h with
  | done view disk =>
    refine ⟨?_, ?_, ?_⟩
    · rw [view]; exact hlease
    · rw [view]; exact hw
    · rw [view]
      intro hp _
      exact Or.inl (disk hp)
  | failed persistent view disk =>
    refine ⟨?_, ?_, ?_⟩
    · rw [view]; exact hm.lease_valid
    · rw [view]; exact hw
    · rw [view]
      intro _ he
      cases he

theorem sound_step (m : Session) (c : Call) (hm : m.view.Sound m.disk) :
    (m.step c).view.Sound (m.step c).disk := by
  obtain ⟨now, op⟩ := c
  cases op with
  | update incoming io =>
    rcases m.step_update now incoming io with ⟨hv, hd⟩ | ⟨l, -, ⟨-, hl, -⟩, hc⟩
    · rw [hv, hd]
      exact hm
    · refine hc.sound hm ?_ (Store.size_nextDenied_le hm.bounded)
      intro l' h
      rw [Option.some.injEq] at h
      exact h ▸ Store.validate_stripped hl
  | deny keys revision io =>
    rcases m.step_deny now keys revision io with ⟨hv, hd⟩ | ⟨-, hc⟩
    · rw [hv, hd]
      exact hm
    · exact hc.sound hm hm.lease_valid (Store.size_denyLoop_le hm.bounded)
  | reload => exact Store.sound_load _ _

/-- **Every store that is reached is sound**, whatever the files held at the start. -/
theorem sound_exec {p : Bool} {d : Disk} (cs : List Call) :
    (Run.exec step (opened p d now) cs).view.Sound (Run.exec step (opened p d now) cs).disk :=
  Run.invariant_all (I := fun m : Session => m.view.Sound m.disk) sound_step (Store.sound_load p d)

/-- **The installed lease is valid and the denials are bounded** after any calls, failed writes and
restarts among them, whatever the files held at the start. -/
theorem installed_is_valid (p : Bool) (d : Disk) (calls : List Call) :
    let s := (Run.exec step (opened p d now) calls).view
    (∀ l, s.lease = some l → l.validate = .ok ()) ∧ s.denied.size ≤ maxDeniedKeys :=
  ⟨(sound_exec calls).lease_valid, (sound_exec calls).bounded⟩

end Session

end OboardAgent.Authorization
