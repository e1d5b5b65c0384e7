import OboardAgent.Authorization.Revocation
import Mathlib.Data.Prod.Lex

/-!
# Which lease replaces which

`Update` documents its order as `(revision, sequence, issued_at)`, and the store promises never
to let a replay replace a newer snapshot. If `compare` were that lexicographic order, the promise
would be immediate: what is installed only ever grows in rank, so a lease that was replaced is
below what is installed and stays there.

`compare` departs from the order in four places, and each of them lets a replaced lease return:

* a lower revision is accepted once the installed lease has expired, after which the replaced
  lease is *newer* again by its revision;
* the same exception for two digests under one revision;
* a lease without a sequence number is compared by its issue time with one that has a number, so
  three leases can each be newer than the one before in a circle;
* an equal identity with a non-empty denied list is installed again, also when that list differs.

`Continues` says that a delivery uses none of the four. Along such deliveries an install that
changes the lease raises its rank, and that is the proof.
-/

namespace OboardAgent.Authorization

def Lease.rank (l : Lease) : Int ×ₗ Int ×ₗ Int := toLex (l.revision, toLex (l.sequence, l.issued))

theorem Lease.rank_lt {a b : Lease} :
    a.rank < b.rank ↔ a.revision < b.revision ∨
      (a.revision = b.revision ∧ (a.sequence < b.sequence ∨
        (a.sequence = b.sequence ∧ a.issued < b.issued))) := by
  simp only [Lease.rank, Prod.Lex.toLex_lt_toLex]

/-- The delivery of `l` over the installed `cur` stays within the documented order. -/
structure Continues (cur l : Lease) : Prop where
  noRestore : l.revision < cur.revision → l.issued < cur.expires
  noReissue : l.revision = cur.revision → l.digest ≠ "" → cur.digest ≠ "" →
    l.digest ≠ cur.digest → l.issued < cur.expires
  /-- Leases of one revision all carry a sequence number, or none does. -/
  sequenced : l.revision = cur.revision → (0 < l.sequence ↔ 0 < cur.sequence)
  /-- A redelivery of the installed identity that denies keys is the installed lease. -/
  sameDenials : compare cur l = .equal → l.denied = [] ∨ Store.stripped l = cur

instance (cur l : Lease) : Decidable (Continues cur l) :=
  decidable_of_iff
    ((l.revision < cur.revision → l.issued < cur.expires) ∧
      (l.revision = cur.revision → l.digest ≠ "" → cur.digest ≠ "" → l.digest ≠ cur.digest →
        l.issued < cur.expires) ∧
      (l.revision = cur.revision → (0 < l.sequence ↔ 0 < cur.sequence)) ∧
      (compare cur l = .equal → l.denied = [] ∨ Store.stripped l = cur))
    ⟨fun h => ⟨h.1, h.2.1, h.2.2.1, h.2.2.2⟩, fun h => ⟨h.1, h.2, h.3, h.4⟩⟩

theorem Continues.rank_lt {cur l : Lease} (h : Continues cur l) (hcur : 0 ≤ cur.sequence)
    (hl : 0 ≤ l.sequence) (hnewer : compare cur l = .newer) : cur.rank < l.rank := by
  rw [Lease.rank_lt]
  unfold compare at hnewer
  split_ifs at hnewer with hrev hlow hrestore hdigest hreissue hnumbered hnext _ _ hlater
  · exact Or.inl hrev
  · -- The restore exception, which the condition rules out.
    exact absurd (h.noRestore hlow) (by omega)
  · exact absurd (h.noReissue (by omega) hdigest.1 hdigest.2.1 hdigest.2.2) (by omega)
  · exact Or.inr ⟨by omega, Or.inl hnext⟩
  · have heq : l.revision = cur.revision := by omega
    have hseq := h.sequenced heq
    exact Or.inr ⟨heq.symm, Or.inr ⟨by omega, hlater⟩⟩

theorem Continues.of_installs {s : Store} {cur l : Lease} (h : Continues cur l)
    (hcur : cur.validate = .ok ()) (hs : s.lease = some cur) (hins : s.Installs l) :
    Store.stripped l = cur ∨ cur.rank < (Store.stripped l).rank := by
  obtain ⟨-, hl, hjudge⟩ := hins
  obtain ⟨-, -, -, hcseq, -⟩ := Lease.validate_iff.mp hcur
  obtain ⟨-, -, -, hlseq, -⟩ := Lease.validate_iff.mp hl
  rw [hs] at hjudge
  rcases Store.judge_install hjudge with hnewer | ⟨hequal, hdenied⟩
  · exact Or.inr (h.rank_lt hcseq hlseq hnewer)
  · exact Or.inl ((h.sameDenials hequal).resolve_left hdenied)

/-! ## Along a run -/

namespace Session

/-- The process lives on, and a delivered lease continues the installed one. -/
def InOrder (m : Session) (c : Call) : Prop :=
  match c.op with
  | .update (some l) _ => ∀ cur ∈ m.installed, Continues cur l
  | .reload => False
  | _ => True

instance (m : Session) (c : Call) : Decidable (InOrder m c) :=
  match c with
  | ⟨_, .update (some l) _⟩ => inferInstanceAs (Decidable (∀ cur ∈ m.installed, Continues cur l))
  | ⟨_, .update none _⟩ => .isTrue trivial
  | ⟨_, .deny _ _ _⟩ => .isTrue trivial
  | ⟨_, .reload⟩ => .isFalse id

theorem InOrder.not_reload {m : Session} {c : Call} (h : InOrder m c) : c.op.isReload = false := by
  unfold InOrder at h
  split at h
  · rename_i hop
    rw [hop]
    rfl
  · exact absurd h id
  · rename_i hno
    cases hop : c.op with
    | reload => exact absurd hop hno
    | update incoming io => rfl
    | deny keys revision io => rfl

theorem installed_step_of_inOrder {m : Session} {c : Call} {x : Lease}
    (hm : m.view.Sound m.disk) (hx : m.installed = some x) (hc : InOrder m c) :
    ∃ y, (m.step c).installed = some y ∧ (y = x ∨ x.rank < y.rank) := by
  rcases m.installed_step c hc.not_reload with hsame | ⟨l, io, hop, hins, hnew⟩
  · exact ⟨x, hsame.trans hx, Or.inl rfl⟩
  · have hcont : Continues x l := by
      unfold InOrder at hc
      simp only [hop] at hc
      exact hc x hx
    exact ⟨Store.stripped l, hnew, hcont.of_installs (hm.lease_valid x hx) hx hins⟩

theorem installed_keeps {P : Lease → Prop} (hP : ∀ x y, P x → x.rank < y.rank → P y) (m : Session) (c : Call)
    (hm : m.view.Sound m.disk ∧ ∃ x, m.installed = some x ∧ P x) (hc : InOrder m c) :
    (m.step c).view.Sound (m.step c).disk ∧ ∃ x, (m.step c).installed = some x ∧ P x := by
  obtain ⟨hsound, x, hx, hkept⟩ := hm
  obtain ⟨y, hy, hxy⟩ := installed_step_of_inOrder hsound hx hc
  refine ⟨m.sound_step c hsound, y, hy, ?_⟩
  rcases hxy with rfl | hxy
  · exact hkept
  · exact hP x y hkept hxy

/-- **A replaced lease never returns**, along every run of updates that stays within the
documented order: once `a` was installed and another lease is, no later delivery makes `a` the
installed lease again. -/
theorem replaced_lease_never_returns {p : Bool} {disk : Disk} {start : Int}
    {earlier between later : List Call} {a b : Lease}
    (horder : Run.Along step InOrder (opened p disk start) (earlier ++ (between ++ later)))
    (ha : (Run.exec step (opened p disk start) earlier).installed = some a)
    (hb : (Run.exec step (opened p disk start) (earlier ++ between)).installed = some b)
    (hne : b ≠ a) :
    (Run.exec step (opened p disk start) (earlier ++ (between ++ later))).installed ≠ some a := by
  have hrest := (Run.Along.append.mp horder).2
  obtain ⟨hmid, hlate⟩ := Run.Along.append.mp hrest
  have hatLeast : ∀ x y : Lease, (x = a ∨ a.rank < x.rank) → x.rank < y.rank → y = a ∨ a.rank < y.rank := by
    rintro x y (rfl | hax) hxy
    · exact Or.inr hxy
    · exact Or.inr (hax.trans hxy)
  obtain ⟨hsound, x, hx, hax⟩ := Run.invariant (installed_keeps hatLeast)
    ⟨sound_exec earlier, a, ha, Or.inl rfl⟩ hmid
  rw [← Run.exec_append] at hx
  rw [hb, Option.some.injEq] at hx
  subst hx
  rw [Run.exec_append] at hb
  obtain ⟨-, y, hy, hay⟩ := Run.invariant (installed_keeps (P := (a.rank < ·.rank)) fun _ _ => lt_trans)
    ⟨hsound, b, hb, hax.resolve_left hne⟩ hlate
  rw [Run.exec_append, Run.exec_append, hy]
  intro heq
  rw [Option.some.injEq] at heq
  exact absurd (heq ▸ hay) (lt_irrefl _)

/-! ### Two ways back, and none -/

def bare (revision sequence : Int) (issuedAt : String) : Lease :=
  { revision := revision, sequence := sequence, issuedAt := issuedAt, grants := ∅ }

/-- The delivery of a lease, some minutes after midnight. -/
def deliver (after : Int) (l : Lease) : Call := ⟨midnight + after * minute, .update (some l) {}⟩

/-- Revision 5 is replaced by a restored revision 3 once it has expired, and a replay of revision
5 replaces the restored lease. A lease with sequence 5 is replaced by one without a number, that
one by sequence 3, and a replay of sequence 5 replaces sequence 3. -/
theorem replaced_leases_return :
    ((Run.exec step unused [deliver 0 (bare 5 1 "2026-01-01T00:00:00Z"),
        deliver 6 (bare 3 1 "2026-01-01T00:06:00Z")]).installed
          = some (bare 3 1 "2026-01-01T00:06:00Z") ∧
      (Run.exec step unused [deliver 0 (bare 5 1 "2026-01-01T00:00:00Z"),
        deliver 6 (bare 3 1 "2026-01-01T00:06:00Z"),
        deliver 6 (bare 5 1 "2026-01-01T00:00:00Z")]).installed
          = some (bare 5 1 "2026-01-01T00:00:00Z")) ∧
    ((Run.exec step unused [deliver 0 (bare 1 5 "2026-01-01T00:00:00Z"),
        deliver 1 (bare 1 0 "2026-01-01T00:01:00Z"),
        deliver 2 (bare 1 3 "2026-01-01T00:02:00Z")]).installed
          = some (bare 1 3 "2026-01-01T00:02:00Z") ∧
      (Run.exec step unused [deliver 0 (bare 1 5 "2026-01-01T00:00:00Z"),
        deliver 1 (bare 1 0 "2026-01-01T00:01:00Z"),
        deliver 2 (bare 1 3 "2026-01-01T00:02:00Z"),
        deliver 2 (bare 1 5 "2026-01-01T00:00:00Z")]).installed
          = some (bare 1 5 "2026-01-01T00:00:00Z")) :=
  ⟨⟨rfl, rfl⟩, rfl, rfl⟩

/-- A renewal replaces a lease, and the replay of the replaced one is ignored. -/
theorem renewed_lease_stays :
    (Run.exec step unused ([deliver 0 (bare 1 1 "2026-01-01T00:00:00Z")] ++
      ([deliver 1 (bare 1 2 "2026-01-01T00:01:00Z")] ++
        [deliver 2 (bare 1 1 "2026-01-01T00:00:00Z")]))).installed
          ≠ some (bare 1 1 "2026-01-01T00:00:00Z") :=
  @replaced_lease_never_returns true _ midnight [deliver 0 (bare 1 1 "2026-01-01T00:00:00Z")]
    [deliver 1 (bare 1 2 "2026-01-01T00:01:00Z")] [deliver 2 (bare 1 1 "2026-01-01T00:00:00Z")]
    (bare 1 1 "2026-01-01T00:00:00Z") (bare 1 2 "2026-01-01T00:01:00Z")
    (by decide) rfl rfl (fun h => absurd (congrArg Lease.sequence h) (by decide))

end Session

end OboardAgent.Authorization
