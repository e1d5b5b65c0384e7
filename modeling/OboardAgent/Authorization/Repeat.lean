import OboardAgent.Authorization.Crash

/-!
# The same lease twice

A lease can grant a key and deny it. `Update` installs it without that grant, and then compares a
second delivery, grant and all, with what it installed: the identity is the same, the grants are
not, and the delivery is refused as a conflict.
-/

namespace OboardAgent.Authorization

def Lease.Clear (l : Lease) : Prop := ∀ k ∈ l.denied, l.grants.lookup k = none

instance (l : Lease) : Decidable l.Clear := inferInstanceAs (Decidable (∀ k ∈ l.denied, _))

namespace Store

variable {s : Store} {now : Int} {io : Writes} {l : Lease}

theorem compare_stripped (l : Lease) : compare (stripped l) l = .equal := by
  have hissued : (stripped l).issued = l.issued := rfl
  have hkept : (stripped l).revision = l.revision ∧ (stripped l).digest = l.digest ∧
      (stripped l).sequence = l.sequence := ⟨rfl, rfl, rfl⟩
  simp [compare, hissued, hkept]

theorem deepEqual_stripped : l.grants.deepEqual (stripped l).grants = true ↔ l.Clear := by
  constructor
  · intro h k hk
    by_contra hsome
    obtain ⟨hall, -⟩ := Bool.and_eq_true_iff.mp h
    have hkey : k ∈ l.grants.keys :=
        AList.mem_keys.mp (AList.lookup_isSome.mp (Option.isSome_iff_ne_none.mpr hsome))
    have hsame := of_decide_eq_true (List.all_eq_true.mp hall k hkey)
    rw [show (stripped l).grants = stripGrants l.grants l.denied from rfl, lookup_stripGrants,
      if_pos hk] at hsame
    exact hsome hsame
  · intro h
    rw [show (stripped l).grants = l.grants from stripGrants_of_none h]
    simp [GoMap.deepEqual]

theorem judge_stripped (l : Lease) :
    judge (some (stripped l)) l =
      if l.Clear then (if l.denied = [] then .answer (.ok { unchanged := true }) else .install)
      else .answer (.error .conflict) := by
  unfold judge
  simp only [compare_stripped]
  have hdigest : l.digest = (stripped l).digest := rfl
  by_cases h : l.Clear
  · simp [deepEqual_stripped.mpr h, h, hdigest]
  · have hne := mt deepEqual_stripped.mp h
    simp [hne, h]

theorem updateLoaded_valid (he : s.err = none) (hl : l.validate = .ok ()) :
    s.updateLoaded now io (some l) =
      match judge s.lease l with
      | .answer r => { store := s, result := r }
      | .install => s.install now io l := by
  unfold updateLoaded
  rw [he]
  cases hj : judge s.lease l with
  | answer r => simp only [hl, hj]
  | install => simp only [hl, hj]

theorem valid_of_ok {r : UpdateResult} (h : (s.updateLoaded now io (some l)).result = .ok r) :
    s.err = none ∧ l.validate = .ok () := by
  unfold updateLoaded at h
  cases he : s.err with
  | some e => simp [he] at h
  | none =>
    cases hl : l.validate with
    | error e => simp [he, hl] at h
    | ok u => exact ⟨rfl, rfl⟩

theorem install_done (s : Store) (now : Int) (l : Lease) :
    (s.install now {} l).result = .ok { installed := true, revoked := revokedKeys s.lease l } ∧
    (s.install now {} l).store =
      { s with lease := some (stripped l), denied := nextDenied s.denied now l } := by
  unfold install
  cases s.persistent with
  | false => exact ⟨rfl, rfl⟩
  | true => exact ⟨rfl, rfl⟩

theorem lookup_nextDenied_of_granted {w : Watermark} {key : String} (h : l.Clear)
    (hkey : (l.grants.lookup key).isSome = true) : (nextDenied w now l).lookup key = w.lookup key := by
  have hnot : key ∉ l.denied := fun hmem => by simp [h key hmem] at hkey
  have hgrant : ((stripped l).grants.lookup key).isSome = true := by
    rw [show (stripped l).grants = l.grants from stripGrants_of_none h]
    exact hkey
  unfold nextDenied
  rw [lookup_pruneDenied, lookup_recordDenied_of_notMem _ hnot]
  cases w.lookup key with
  | none => rfl
  | some e => simp [hgrant]

def Same (s : Store) (o : Outcome UpdateResult) : Prop :=
  (∃ r, o.result = .ok r) ∧ o.store.loaded = s.loaded ∧ o.store.lease = s.lease ∧
    ∀ key t, o.store.allowsLoaded key t = s.allowsLoaded key t

theorem same_of_clear (he : s.err = none) (hl : l.validate = .ok ())
    (hlease : s.lease = some (stripped l)) (h : l.Clear) : s.Same (s.updateLoaded now {} (some l)) := by
  rw [updateLoaded_valid he hl, hlease, judge_stripped, if_pos h]
  split
  · rename_i hd
    split at hd
    · obtain rfl := (Verdict.answer.injEq _ _).mp hd
      exact ⟨⟨_, rfl⟩, rfl, rfl, fun _ _ => rfl⟩
    · cases hd
  · obtain ⟨hres, hstore⟩ := install_done s now l
    refine ⟨⟨_, hres⟩, by rw [hstore], by rw [hstore, hlease], ?_⟩
    intro key t
    -- Only a granted key can be admitted, and its entry on the watermark has not changed.
    rw [Bool.eq_iff_iff, allowsLoaded_iff, allowsLoaded_iff, hstore, hlease]
    refine and_congr_right fun _ => and_congr_left ?_
    rintro ⟨l', hl', hallows⟩
    obtain rfl := Option.some.inj hl'
    obtain ⟨raw, hraw⟩ := Lease.allows_granted hallows
    rw [show (stripped l).grants = l.grants from stripGrants_of_none h] at hraw
    rw [lookup_nextDenied_of_granted h (by rw [hraw]; rfl)]

end Store

namespace Session

variable {m m' : Session} {l : Lease}

/-- A second `Update` of the lease, in `m'`, succeeds and leaves the lease and the verdicts of
`m`. -/
def Repeats (m m' : Session) (l : Lease) : Prop :=
  ∀ now, m.view.Same (m'.store.update m'.disk now {} (some l))

theorem repeats_iff_view (hview : m'.view = m.view) :
    m.Repeats m' l ↔ ∀ now, m.view.Same (m.view.updateLoaded now {} (some l)) := by
  unfold Repeats
  rw [← hview]
  exact Iff.rfl

/-- The lease denies nothing it grants, or was passed over as older. -/
def Repeatable (m : Session) (l : Lease) : Prop :=
  l.Clear ∨ ∃ cur, m.installed = some cur ∧ compare cur l = .older

theorem repeatable_of_answered {r : UpdateResult} (h : Store.judge m.installed l = .answer (.ok r)) :
    m.Repeatable l := by
  obtain ⟨-, cur, hcur, holder | ⟨-, hnil⟩⟩ := Store.judge_answer h
  · exact Or.inr ⟨cur, hcur, holder⟩
  · exact Or.inl fun k hk => by simp [hnil] at hk

theorem same_again_iff {now : Int} {io : Writes} {r : UpdateResult}
    (hres : (m.store.update m.disk now io (some l)).result = .ok r)
    (hm' : m' = m.step ⟨now, .update (some l) io⟩) :
    m'.view.err = none ∧
      ((∀ now', m'.view.Same (m'.view.updateLoaded now' {} (some l))) ↔ m.Repeatable l) := by
  obtain ⟨he, hl⟩ := Store.valid_of_ok hres
  subst hm'
  cases hinst : r.installed with
  | false =>
    obtain ⟨hjudge, hsame⟩ := view_of_answered hres hinst
    rw [hsame]
    refine ⟨he, fun _ => repeatable_of_answered hjudge, fun _ now' => ?_⟩
    rw [Store.updateLoaded_valid (s := m.view) he hl, show m.view.lease = m.installed from rfl, hjudge]
    exact ⟨⟨r, rfl⟩, rfl, rfl, fun _ _ => rfl⟩
  | true =>
    obtain ⟨⟨-, -, hjudge⟩, hnew, -⟩ := view_of_installed hres hinst
    have he' : (m.step ⟨now, .update (some l) io⟩).view.err = none := by rw [hnew]; exact he
    have hlease : (m.step ⟨now, .update (some l) io⟩).view.lease = some (Store.stripped l) := by rw [hnew]
    refine ⟨he', ?_, ?_⟩
    · intro hrep
      by_contra hno
      obtain ⟨⟨r', hr'⟩, -⟩ := hrep now
      have hclear : ¬l.Clear := fun h => hno (Or.inl h)
      rw [Store.updateLoaded_valid he' hl, hlease, Store.judge_stripped, if_neg hclear] at hr'
      cases hr'
    · rintro (hclear | ⟨cur, hcur, holder⟩)
      · exact fun _ => Store.same_of_clear he' hl hlease hclear
      · have hcur' : m.view.lease = some cur := hcur
        rw [hcur'] at hjudge
        simp [Store.judge, holder] at hjudge

/-- **An accepted lease can be delivered again**, at once or after the files have been read anew,
and nothing changes, exactly if it denies no key that it grants or was passed over the first
time. -/
theorem update_again_iff (p : Bool) (d : Disk) (start : Int) (cs : List Call) (now : Int) (io : Writes)
    (l : Lease) (r : UpdateResult)
    (hres : ((Run.exec step (opened p d start) cs).store.update
      (Run.exec step (opened p d start) cs).disk now io (some l)).result = .ok r) :
    let m := Run.exec step (opened p d start) cs
    let m₁ := m.step ⟨now, .update (some l) io⟩
    (m₁.Repeats m₁ l ∧ (p = true → ∀ t, m₁.Repeats (m₁.step ⟨t, .reload⟩) l)) ↔ m.Repeatable l := by
  intro m m₁
  obtain ⟨herr, hiff⟩ := same_again_iff hres (rfl : m₁ = _)
  refine ⟨fun h => hiff.mp ((repeats_iff_view rfl).mp h.1), fun h =>
    ⟨(repeats_iff_view rfl).mpr (hiff.mpr h), ?_⟩⟩
  rintro rfl t
  have hsteady : m₁.Steady := steady_step m _ (steady_exec d start cs)
  have hreload : (m₁.step ⟨t, .reload⟩).view = m₁.view := by
    rw [step_reload, show m₁.store.persistent = true from m₁.view_persistent ▸ hsteady.persistent]
    exact hsteady.faithful hsteady.persistent herr
  exact (repeats_iff_view hreload).mpr (hiff.mpr h)

def mixed (denied : String) : Lease :=
  { granting 1 "2026-01-01T00:00:00Z" with denied := [denied] }

theorem mixed_again :
    let m₁ := unused.step ⟨midnight, .update (some (mixed "j")) {}⟩
    m₁.Repeats m₁ (mixed "j") ∧ m₁.Repeats (m₁.step ⟨midnight, .reload⟩) (mixed "j") := by
  have h := (update_again_iff true { lease := .missing, denied := .missing } midnight [] midnight
      {} (mixed "j")
    { installed := true, revoked := ["j"] } (by decide)).mpr (Or.inl (by decide))
  exact ⟨h.1, h.2 rfl midnight⟩

/-- With one key granted and denied, the first `Update` succeeds and the second is a conflict. -/
theorem granted_and_denied_conflicts :
    (mixed "k").validate = .ok () ∧
    (unused.store.update unused.disk midnight {} (some (mixed "k"))).result
      = .ok { installed := true, revoked := ["k"] } ∧
    (let m₁ := unused.step ⟨midnight, .update (some (mixed "k")) {}⟩;
      (m₁.store.update m₁.disk midnight {} (some (mixed "k"))).result = .error .conflict) :=
  ⟨by decide, by decide, by decide⟩

end Session

end OboardAgent.Authorization
