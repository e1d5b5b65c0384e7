import OboardAgent.Authorization.Lease
import Mathlib.Data.List.Sort

/-!
# The lease store

`(*Store)` of `lease.go`: the installed lease, the deny watermark, and the two files they are
kept in. Every method starts with `load`, which reads the files once per process, so the model
of a method takes the store and the `Disk` it may still have to read.

A file is what `readState` makes of it: absent, refused by the file system or the decryption,
not JSON, or a value. `encoding/json` gives back the value it was given for these types, so a
written file holds the value. Writing is `writeAtomic`, which can fail without an effect or,
once the rename is done, fail on syncing the directory although the new content is in place;
`WriteOutcome` has both. A method returns the writes that took effect, in order, and the caller
applies them to the disk: a crash between two writes is then a prefix of that list.
-/

namespace OboardAgent.Authorization

structure DeniedEntry where
  revision : Int
  deniedAt : String
deriving DecidableEq, Repr

abbrev Watermark : Type := GoMap String DeniedEntry

inductive StoreError where
  | io
  | badJSON
  | lease (e : LeaseError)
  | watermarkBounds
  | conflict
  | unreadable (cause : StoreError)
deriving DecidableEq, Repr

/-- The text of the error, without what the operating system and the JSON decoder add. -/
def StoreError.text : StoreError → String
  | .io => "input/output error"
  | .badJSON => "invalid character"
  | .lease e => e.text
  | .watermarkBounds => "authorization deny watermark exceeds bounds"
  | .conflict => "authorization snapshot identity reused with different content"
  | .unreadable cause => "authorization state unreadable: " ++ cause.text

inductive StateFile (α : Type) where
  | missing
  | refused
  | garbled
  | holds (content : α)

structure Disk where
  lease : StateFile Lease
  denied : StateFile Watermark

inductive FileWrite where
  | lease (content : Lease)
  | denied (content : Watermark)

def Disk.apply (d : Disk) : FileWrite → Disk
  | .lease l => { d with lease := .holds l }
  | .denied m => { d with denied := .holds m }

def Disk.applyAll (d : Disk) (ws : List FileWrite) : Disk := ws.foldl Disk.apply d

/-- How one `writeAtomic` ends: done, failed before the rename, failed after it. -/
inductive WriteOutcome where
  | done
  | failed
  | replacedThenFailed
deriving DecidableEq, Repr

structure Writes where
  lease : WriteOutcome := .done
  denied : WriteOutcome := .done

/-- The store. `persistent` is `path != ""`. -/
structure Store where
  persistent : Bool
  loaded : Bool := false
  err : Option StoreError := none
  lease : Option Lease := none
  denied : Watermark := ∅

def newStore (persistent : Bool) : Store := { persistent := persistent }

structure UpdateResult where
  installed : Bool := false
  superseded : Bool := false
  unchanged : Bool := false
  revoked : List String := []
deriving DecidableEq, Repr

structure Outcome (α : Type) where
  store : Store
  writes : List FileWrite := []
  result : Except StoreError α
  hook : Bool := false

namespace Store

variable (s : Store)

def loadDenied (d : Disk) : Store :=
  match d.denied with
  | .missing => s
  | .refused => { s with err := some .io }
  | .garbled => { s with err := some .badJSON }
  | .holds m =>
    if maxDeniedKeys < m.size then { s with err := some .watermarkBounds }
    else { s with denied := m }

def load (d : Disk) : Store :=
  if s.loaded then s
  else if !s.persistent then { s with loaded := true }
  else
    match d.lease with
    | .missing => { s with loaded := true }.loadDenied d
    | .refused => { s with loaded := true, err := some .io }
    | .garbled => { s with loaded := true, err := some .badJSON }
    | .holds l =>
      match l.validate with
      | .error e => { s with loaded := true, err := some (.lease e) }
      | .ok () => { s with loaded := true, lease := some l }.loadDenied d

/-- `Allows` on a loaded store: the watermark first, then the installed lease. -/
def allowsLoaded (key : String) (now : Int) : Bool :=
  if key = "" then false
  else if s.err.isSome then false
  else if (s.denied.lookup key).isSome then false
  else
    match s.lease with
    | none => false
    | some l => l.allows key now

def allows (d : Disk) (key : String) (now : Int) : Bool :=
  (s.load d).allowsLoaded key now

def deniedKeys : List String := s.denied.keys.insertionSort (· ≤ ·)

/-! ## `Update` -/

def stripGrants (grants : GoMap String String) (denied : List String) : GoMap String String :=
  denied.foldl (fun g k => g.erase k) grants

def stripped (l : Lease) : Lease := { l with grants := stripGrants l.grants l.denied }

def recordDenied (entry : DeniedEntry) (m : Watermark) (keys : List String) : Watermark :=
  keys.foldl (fun m k => if m.size < maxDeniedKeys then m.insert k entry else m) m

/-- Whether an entry is redundant once a lease of this revision is installed: no lease that
could grant the key can still exist. -/
def redundant (revision now : Int) (entry : DeniedEntry) : Bool :=
  match Rfc3339.parse entry.deniedAt with
  | none => false
  | some t => entry.revision < revision && MaxLifetime < now - t

def pruneDenied (candidate : Lease) (now : Int) (m : Watermark) : Watermark :=
  m.filterMap fun key entry =>
    if (candidate.grants.lookup key).isSome then some entry
    else if redundant candidate.revision now entry then none
    else some entry

def revokedKeys (current : Option Lease) (incoming : Lease) : List String :=
  let dropped := match current with
    | none => []
    | some l => l.grants.keys.filter fun k => (incoming.grants.lookup k).isNone
  (dropped ++ incoming.denied).dedup.insertionSort (· ≤ ·)

def entryAt (revision now : Int) : DeniedEntry :=
  { revision := revision, deniedAt := Rfc3339.format now }

def nextDenied (m : Watermark) (now : Int) (incoming : Lease) : Watermark :=
  pruneDenied (stripped incoming) now
    (recordDenied (entryAt incoming.revision now) m incoming.denied)

variable (now : Int) (io : Writes)

/-- The install itself, from the clock reading on. -/
def install (incoming : Lease) : Outcome UpdateResult :=
  let candidate := stripped incoming
  let denied := nextDenied s.denied now incoming
  let done : UpdateResult := { installed := true, revoked := revokedKeys s.lease incoming }
  if !s.persistent then
    { store := { s with lease := some candidate, denied := denied }, result := .ok done
      hook := true }
  else
    match io.lease with
    | .failed => { store := { s with denied := denied, err := some .io }, result := .error .io }
    | .replacedThenFailed =>
      { store := { s with denied := denied, err := some .io }, writes := [.lease candidate]
        result := .error .io }
    | .done =>
      match io.denied with
      | .failed =>
        { store := { s with denied := denied, err := some .io }, writes := [.lease candidate]
          result := .error .io }
      | .replacedThenFailed =>
        { store := { s with denied := denied, err := some .io }
          writes := [.lease candidate, .denied denied], result := .error .io }
      | .done =>
        { store := { s with lease := some candidate, denied := denied }
          writes := [.lease candidate, .denied denied], result := .ok done, hook := true }

/-- What `updateLocked` decides before anything is changed. -/
inductive Verdict where
  | answer (r : Except StoreError UpdateResult)
  | install
deriving DecidableEq

def judge (current : Option Lease) (incoming : Lease) : Verdict :=
  match current with
  | none => .install
  | some l =>
    match compare l incoming with
    | .newer => .install
    | .older => .answer (.ok { superseded := true })
    | .equal =>
      if !(incoming.grants.deepEqual l.grants) || incoming.digest ≠ l.digest then
        .answer (.error .conflict)
      else if incoming.denied = [] then .answer (.ok { unchanged := true })
      else .install
    | .conflict => .answer (.error .conflict)

def updateLoaded (incoming : Option Lease) : Outcome UpdateResult :=
  match s.err with
  | some e => { store := s, result := .error (.unreadable e) }
  | none =>
    match incoming with
    | none => { store := s, result := .ok { unchanged := true } }
    | some l =>
      match l.validate with
      | .error e => { store := s, result := .error (.lease e) }
      | .ok () =>
        match judge s.lease l with
        | .answer r => { store := s, result := r }
        | .install => s.install now io l

/-- `UpdateWithResult`. -/
def update (d : Disk) (now : Int) (io : Writes) (incoming : Option Lease) : Outcome UpdateResult :=
  (s.load d).updateLoaded now io incoming

/-! ## `Deny` -/

def denyLoop (entry : DeniedEntry) : List String → Watermark → Bool → Watermark × Bool
  | [], m, changed => (m, changed)
  | key :: keys, m, changed =>
    if !(Lease.keyOk key) then denyLoop entry keys m changed
    else if (m.lookup key).any fun existing => entry.revision ≤ existing.revision then
      denyLoop entry keys m changed
    else if maxDeniedKeys ≤ m.size then (m, changed)
    else denyLoop entry keys (m.insert key entry) true

def denyLoaded (keys : List String) (revision : Int) : Outcome Unit :=
  match s.err with
  | some e => { store := s, result := .error (.unreadable e) }
  | none =>
    let r := denyLoop (entryAt revision now) keys s.denied false
    let s' := { s with denied := r.1 }
    if !r.2 then { store := s', result := .ok () }
    else if !s.persistent then { store := s', result := .ok (), hook := true }
    else
      match io.denied with
      | .failed => { store := { s' with err := some .io }, result := .error .io }
      | .replacedThenFailed =>
        { store := { s' with err := some .io }, writes := [.denied r.1], result := .error .io }
      | .done => { store := s', writes := [.denied r.1], result := .ok (), hook := true }

def deny (d : Disk) (now : Int) (io : Writes) (keys : List String) (revision : Int) :
    Outcome Unit :=
  (s.load d).denyLoaded now io keys revision

/-! ## What each loop does to one key -/

theorem lookup_stripGrants (denied : List String) (key : String) :
    ∀ g : GoMap String String,
      (stripGrants g denied).lookup key = if key ∈ denied then none else g.lookup key := by
  induction denied with
  | nil => intro g; simp [stripGrants]
  | cons k rest ih =>
    intro g
    have hstep : stripGrants g (k :: rest) = stripGrants (g.erase k) rest := rfl
    rw [hstep, ih, GoMap.lookup_erase_eq]
    by_cases hr : key ∈ rest
    · simp [hr]
    · by_cases hk : key = k
      · simp [hk]
      · simp [hr, hk]

variable {entry : DeniedEntry} {key : String}

theorem lookup_recordDenied_of_notMem :
    ∀ {keys : List String} (m : Watermark), key ∉ keys →
      (recordDenied entry m keys).lookup key = m.lookup key := by
  intro keys
  induction keys with
  | nil => intro m _; rfl
  | cons k rest ih =>
    intro m hk
    rw [List.mem_cons, not_or] at hk
    have hstep : recordDenied entry m (k :: rest)
        = recordDenied entry (if m.size < maxDeniedKeys then m.insert k entry else m) rest := rfl
    rw [hstep, ih _ hk.2]
    split
    · rw [GoMap.lookup_insert_eq, if_neg hk.1]
    · rfl

theorem lookup_recordDenied {entry : DeniedEntry} {key : String} :
    ∀ {keys : List String} (m : Watermark),
      (recordDenied entry m keys).lookup key = m.lookup key ∨
      (recordDenied entry m keys).lookup key = some entry := by
  intro keys
  induction keys with
  | nil => intro m; exact Or.inl rfl
  | cons k rest ih =>
    intro m
    have hstep : recordDenied entry m (k :: rest)
        = recordDenied entry (if m.size < maxDeniedKeys then m.insert k entry else m) rest := rfl
    rw [hstep]
    rcases ih (if m.size < maxDeniedKeys then m.insert k entry else m) with h | h
    · rw [h]
      split
      · rw [GoMap.lookup_insert_eq]
        split
        · exact Or.inr rfl
        · exact Or.inl rfl
      · exact Or.inl rfl
    · exact Or.inr h

theorem lookup_pruneDenied (candidate : Lease) (now : Int) (m : Watermark) (key : String) :
    (pruneDenied candidate now m).lookup key =
      (m.lookup key).bind fun entry =>
        if (candidate.grants.lookup key).isSome then some entry
        else if redundant candidate.revision now entry then none
        else some entry :=
  GoMap.lookup_filterMap _ _ _

theorem lookup_denyLoop {entry : DeniedEntry} {key : String} {keys : List String} (m : Watermark)
    (changed : Bool) :
    (denyLoop entry keys m changed).1.lookup key = m.lookup key ∨
      (denyLoop entry keys m changed).1.lookup key = some entry := by
  fun_induction denyLoop entry keys m changed with
  | case1 m changed => exact Or.inl rfl
  | case2 k rest m changed hbad ih => exact ih
  | case3 k rest m changed hok hold ih => exact ih
  | case4 k rest m changed hok hnew hfull => exact Or.inl rfl
  | case5 k rest m changed hok hnew hroom ih =>
    rcases ih with h | h
    · rw [h, GoMap.lookup_insert_eq]
      split
      · exact Or.inr rfl
      · exact Or.inl rfl
    · exact Or.inr h

theorem size_le_recordDenied : ∀ (keys : List String) (m : Watermark),
    m.size ≤ (recordDenied entry m keys).size := by
  intro keys
  induction keys with
  | nil => intro m; exact Nat.le_refl _
  | cons k rest ih =>
    intro m
    refine Nat.le_trans ?_ (ih _)
    show m.size ≤ GoMap.size (if m.size < maxDeniedKeys then m.insert k entry else m)
    split
    · exact GoMap.size_le_size_insert m k entry
    · exact Nat.le_refl _

variable {keys : List String} {m : Watermark} {changed : Bool}

theorem lookup_denyLoop_of_notMem (h : key ∉ keys) :
    (denyLoop entry keys m changed).1.lookup key = m.lookup key := by
  fun_induction denyLoop entry keys m changed with
  | case1 m changed => rfl
  | case2 k rest m changed hbad ih => exact ih (List.not_mem_of_not_mem_cons h)
  | case3 k rest m changed hok hold ih => exact ih (List.not_mem_of_not_mem_cons h)
  | case4 k rest m changed hok hnew hfull => rfl
  | case5 k rest m changed hok hnew hroom ih =>
    rw [ih (List.not_mem_of_not_mem_cons h), GoMap.lookup_insert_eq, if_neg (List.ne_of_not_mem_cons h)]

theorem lookup_recordDenied_of_mem :
    ∀ {keys : List String} {m : Watermark}, key ∈ keys →
      (recordDenied entry m keys).size < maxDeniedKeys →
      (recordDenied entry m keys).lookup key = some entry := by
  intro keys
  induction keys with
  | nil => intro m hk; cases hk
  | cons k rest ih =>
    intro m hk hroom
    have hstep : recordDenied entry m (k :: rest)
        = recordDenied entry (if m.size < maxDeniedKeys then m.insert k entry else m) rest := rfl
    rw [hstep] at hroom ⊢
    by_cases hrest : key ∈ rest
    · exact ih hrest hroom
    · have hkey : key = k := (List.mem_cons.mp hk).resolve_right hrest
      have hsmall := Nat.lt_of_le_of_lt (size_le_recordDenied rest _) hroom
      split at hsmall
      · rename_i hm
        rw [if_pos hm, lookup_recordDenied_of_notMem _ hrest, GoMap.lookup_insert_eq, if_pos hkey]
      · exact absurd hsmall (by assumption)

theorem lookup_denyLoop_of_mem (hok : Lease.keyOk key = true)
    (hk : key ∈ keys) (hroom : (denyLoop entry keys m changed).1.size < maxDeniedKeys) :
    ∃ e, (denyLoop entry keys m changed).1.lookup key = some e ∧
      (e = entry ∨ (m.lookup key = some e ∧ entry.revision ≤ e.revision)) := by
  fun_induction denyLoop entry keys m changed with
  | case1 m changed => cases hk
  | case2 k rest m changed hbad ih =>
    refine ih ((List.mem_cons.mp hk).resolve_left ?_) hroom
    rintro rfl
    simp [hok] at hbad
  | case3 k rest m changed _ hold ih =>
    rcases List.mem_cons.mp hk with rfl | hk
    · -- The shortcut: the entry that is there stays, unless a later duplicate replaces it.
      obtain ⟨e, he, hrev⟩ := (Option.any_eq_true _ _).mp hold
      rcases @lookup_denyLoop entry key rest m changed with hsame | hnew
      · exact ⟨e, hsame.trans he, Or.inr ⟨he, of_decide_eq_true hrev⟩⟩
      · exact ⟨entry, hnew, Or.inl rfl⟩
    · exact ih hk hroom
  | case4 k rest m changed _ _ hfull => exact absurd hroom (Nat.not_lt.mpr hfull)
  | case5 k rest m changed _ hnew _ ih =>
    by_cases hkey : key = k
    · rcases @lookup_denyLoop entry key rest (m.insert k entry) true with hsame | hnew
      · refine ⟨entry, ?_, Or.inl rfl⟩
        rw [hsame, GoMap.lookup_insert_eq, if_pos hkey]
      · exact ⟨entry, hnew, Or.inl rfl⟩
    · obtain ⟨e, he, hor⟩ := ih ((List.mem_cons.mp hk).resolve_left hkey) hroom
      rw [GoMap.lookup_insert_eq, if_neg hkey] at hor
      exact ⟨e, he, hor⟩

/-! ## Admission -/

theorem allowsLoaded_iff {s : Store} {now : Int} :
    s.allowsLoaded key now = true ↔
      s.err = none ∧ s.denied.lookup key = none ∧
        ∃ l, s.lease = some l ∧ l.allows key now = true := by
  unfold allowsLoaded
  by_cases hk : key = ""
  · simp [hk, Lease.allows]
  · cases s.err with
    | some e => simp [hk]
    | none =>
      cases s.denied.lookup key with
      | some e => simp [hk]
      | none =>
        cases s.lease with
        | none => simp [hk]
        | some l => simp [hk]

/-! ## The bound on the watermark -/

theorem size_recordDenied_le :
    ∀ {keys : List String} {m : Watermark}, m.size ≤ maxDeniedKeys →
      (recordDenied entry m keys).size ≤ maxDeniedKeys := by
  intro keys
  induction keys with
  | nil => intro m hm; exact hm
  | cons k rest ih =>
    intro m hm
    apply ih
    show GoMap.size (if m.size < maxDeniedKeys then m.insert k entry else m) ≤ maxDeniedKeys
    split
    · exact Nat.le_trans (GoMap.size_insert_le m k entry) (by omega)
    · exact hm

theorem size_nextDenied_le {now : Int} {l : Lease} (hm : m.size ≤ maxDeniedKeys) :
    (nextDenied m now l).size ≤ maxDeniedKeys :=
  Nat.le_trans (GoMap.size_filterMap_le _ _) (size_recordDenied_le hm)

theorem size_denyLoop_le (hm : m.size ≤ maxDeniedKeys) :
    (denyLoop entry keys m changed).1.size ≤ maxDeniedKeys := by
  fun_induction denyLoop entry keys m changed with
  | case1 m changed => exact hm
  | case2 k rest m changed hbad ih => exact ih hm
  | case3 k rest m changed hok hold ih => exact ih hm
  | case4 k rest m changed hok hnew hfull => exact hm
  | case5 k rest m changed hok hnew hroom ih =>
    exact ih (Nat.le_trans (GoMap.size_insert_le m k entry) (by omega))

/-! ## What is installed is valid -/

theorem size_stripGrants_le : ∀ (denied : List String) (g : GoMap String String),
    (stripGrants g denied).size ≤ g.size
  | [], _ => Nat.le_refl _
  | k :: rest, g => Nat.le_trans (size_stripGrants_le rest (g.erase k)) (GoMap.size_erase_le g k)

theorem stripGrants_of_none : ∀ {denied : List String} {g : GoMap String String},
    (∀ k ∈ denied, g.lookup k = none) → stripGrants g denied = g := by
  intro denied
  induction denied with
  | nil => intro g _; rfl
  | cons k rest ih =>
    intro g h
    have hk : k ∉ g := AList.lookup_eq_none.mp (h k (by simp))
    have herase : g.erase k = g := by
      apply AList.ext
      exact List.kerase_of_notMem_keys hk
    have hstep : stripGrants g (k :: rest) = stripGrants (g.erase k) rest := rfl
    rw [hstep, herase]
    exact ih fun x hx => h x (by simp [hx])

@[simp] theorem stripped_stripped (l : Lease) : stripped (stripped l) = stripped l := by
  have hgrants : stripGrants (stripGrants l.grants l.denied) l.denied
      = stripGrants l.grants l.denied := by
    apply stripGrants_of_none
    intro k hk
    rw [lookup_stripGrants, if_pos hk]
  show { stripped l with grants := stripGrants (stripGrants l.grants l.denied) l.denied }
    = stripped l
  rw [hgrants]
  rfl

theorem validate_stripped {l : Lease} (h : l.validate = .ok ()) :
    (stripped l).validate = .ok () := by
  obtain ⟨w, hw, hrev, hseq, hg, hd, hx, hok, hkeys⟩ := Lease.validate_iff.mp h
  refine Lease.validate_iff.mpr ⟨w, hw, hrev, hseq, ?_, hd, hx, ?_, hkeys⟩
  · exact Nat.le_trans (size_stripGrants_le _ _) hg
  · intro k raw hk
    have hkept : (stripGrants l.grants l.denied).lookup k = some raw := hk
    rw [lookup_stripGrants] at hkept
    split at hkept
    · cases hkept
    · exact hok k raw hkept

/-! ## What each call can do

One inversion lemma per call. Everything later reads these and never the definitions. -/

inductive Commit {α : Type} (s : Store) (lease : Option Lease) (w : Watermark) (r : α)
    (o : Outcome α) : Prop
  | done (result : o.result = .ok r) (store : o.store = { s with lease := lease, denied := w })
      (disk : s.persistent = true → ∀ d : Disk, (d.applyAll o.writes).denied = .holds w)
  | failed (persistent : s.persistent = true) (result : o.result = .error .io)
      (store : o.store = { s with denied := w, err := some .io })
      (disk : ∀ d : Disk, (d.applyAll o.writes).denied = d.denied ∨
        (d.applyAll o.writes).denied = .holds w)

theorem install_commit (l : Lease) :
    Commit s (some (stripped l)) (nextDenied s.denied now l)
      { installed := true, revoked := revokedKeys s.lease l } (s.install now io l) := by
  obtain ⟨persistent, loaded, err, lease, denied⟩ := s
  obtain ⟨writeLease, writeDenied⟩ := io
  cases persistent with
  | false => exact .done rfl rfl nofun
  | true =>
    cases writeLease with
    | failed => exact .failed rfl rfl rfl fun _ => Or.inl rfl
    | replacedThenFailed => exact .failed rfl rfl rfl fun _ => Or.inl rfl
    | done =>
      cases writeDenied with
      | failed => exact .failed rfl rfl rfl fun _ => Or.inl rfl
      | replacedThenFailed => exact .failed rfl rfl rfl fun _ => Or.inr rfl
      | done => exact .done rfl rfl fun _ _ => rfl

theorem judge_answer {current : Option Lease} {l : Lease} {r : UpdateResult}
    (h : judge current l = .answer (.ok r)) : r.installed = false ∧ ∃ cur, current = some cur ∧
      (compare cur l = .older ∨ compare cur l = .equal ∧ l.denied = []) := by
  unfold judge at h
  split at h
  · cases h
  · rename_i cur
    split at h
    · cases h
    · cases h
      exact ⟨rfl, cur, rfl, .inl ‹_›⟩
    · split at h
      · cases h
      · split at h
        · cases h
          exact ⟨rfl, cur, rfl, .inr ⟨‹_›, ‹_›⟩⟩
        · cases h
    · cases h

theorem judge_install {cur l : Lease} (h : judge (some cur) l = .install) :
    compare cur l = .newer ∨ compare cur l = .equal ∧ l.denied ≠ [] := by
  simp only [judge] at h
  split at h
  · exact .inl ‹_›
  · cases h
  · split at h
    · cases h
    · split at h
      · cases h
      · exact .inr ⟨‹_›, ‹_›⟩
  · cases h

def Installs (l : Lease) : Prop :=
  s.err = none ∧ l.validate = .ok () ∧ judge s.lease l = .install

instance (s : Store) (l : Lease) : Decidable (Installs s l) :=
  inferInstanceAs (Decidable (_ ∧ _ ∧ _))

theorem updateLoaded_cases (incoming : Option Lease) :
    ((s.updateLoaded now io incoming).store = s ∧ (s.updateLoaded now io incoming).writes = [] ∧
      ∀ r, (s.updateLoaded now io incoming).result = .ok r → r.installed = false ∧
        ∀ l, incoming = some l → judge s.lease l = .answer (.ok r)) ∨
    ∃ l, incoming = some l ∧ s.Installs l ∧
      Commit s (some (stripped l)) (nextDenied s.denied now l)
        { installed := true, revoked := revokedKeys s.lease l }
        (s.updateLoaded now io incoming) := by
  unfold updateLoaded
  cases he : s.err with
  | some e => exact Or.inl ⟨rfl, rfl, by simp⟩
  | none =>
    cases incoming with
    | none => exact Or.inl ⟨rfl, rfl, by simp⟩
    | some l =>
      cases hv : l.validate with
      | error e => simp [hv]
      | ok u =>
        cases hj : judge s.lease l with
        | install =>
          refine Or.inr ⟨l, rfl, ⟨he, hv, hj⟩, ?_⟩
          simp only [hv, hj]
          exact install_commit s now io l
        | answer r =>
          simp only [hv, hj, true_and]
          refine Or.inl ?_
          intro res hres
          subst hres
          refine ⟨(judge_answer hj).1, ?_⟩
          intro l' hl
          rw [Option.some.injEq] at hl
          exact hl ▸ hj

theorem denyLoop_changed (keys : List String) (m : Watermark) : (denyLoop entry keys m true).2 = true := by
  generalize hchanged : true = changed
  fun_induction denyLoop entry keys m changed <;> simp_all

theorem denyLoop_unchanged
    (h : (denyLoop entry keys m changed).2 = false) : (denyLoop entry keys m changed).1 = m := by
  fun_induction denyLoop entry keys m changed with
  | case1 m changed => rfl
  | case2 k rest m changed hbad ih => exact ih h
  | case3 k rest m changed hok hold ih => exact ih h
  | case4 k rest m changed hok hnew hfull => rfl
  | case5 k rest m changed hok hnew hroom ih =>
    -- From here on the flag is set, and nothing clears it.
    cases h.symm.trans (denyLoop_changed rest _)

theorem denyLoaded_cases (keys : List String) (revision : Int) :
    (∃ e, s.err = some e ∧
      s.denyLoaded now io keys revision = { store := s, result := .error (.unreadable e) }) ∨
    (s.err = none ∧ (denyLoop (entryAt revision now) keys s.denied false).1 = s.denied ∧
      s.denyLoaded now io keys revision = { store := s, result := .ok () }) ∨
    (s.err = none ∧
      Commit s s.lease (denyLoop (entryAt revision now) keys s.denied false).1 ()
        (s.denyLoaded now io keys revision)) := by
  obtain ⟨persistent, loaded, err, lease, denied⟩ := s
  cases err with
  | some e => exact Or.inl ⟨e, rfl, rfl⟩
  | none =>
    unfold denyLoaded
    cases hc : (denyLoop (entryAt revision now) keys denied false).2 with
    | false =>
      have hsame := denyLoop_unchanged hc
      exact Or.inr (Or.inl ⟨rfl, hsame, by simp [hc, hsame]⟩)
    | true =>
      refine Or.inr (Or.inr ⟨rfl, ?_⟩)
      simp only [hc, Bool.not_true, Bool.false_eq_true, if_false]
      obtain ⟨writeLease, writeDenied⟩ := io
      cases persistent with
      | false => exact .done rfl rfl nofun
      | true =>
        cases writeDenied with
        | done => exact .done rfl rfl fun _ _ => rfl
        | failed => exact .failed rfl rfl rfl fun _ => Or.inl rfl
        | replacedThenFailed => exact .failed rfl rfl rfl fun _ => Or.inr rfl

end Store

end OboardAgent.Authorization
