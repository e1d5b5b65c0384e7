import OboardAgent.Authorization.Revocation

/-!
# Denials and the bound on the watermark

The watermark holds `maxDeniedKeys` keys. `Update` does not depend on it for the keys its own
lease denies: their grants are deleted from what is installed. `Deny` has nothing else. When the
watermark is full its loop breaks off, and the call still returns nil; the keys that found no
room keep whatever the installed lease gives them.

Which keys those are can be said without the loop. Of the valid keys of the call that are not
listed yet, each counted once, the first `maxDeniedKeys - |denied|` are recorded and the others
are `lost` (`lookup_denyLoop_isSome`).
-/

namespace OboardAgent.Authorization

namespace Store

/-- The valid keys of a call that are not listed yet, each once, in the order of the call. -/
def fresh (w : Watermark) : List String → List String
  | [] => []
  | k :: ks =>
    if Lease.keyOk k = true ∧ w.lookup k = none then k :: (fresh w ks).filter fun x => x ≠ k
    else fresh w ks

theorem mem_fresh {w : Watermark} {key : String} {keys : List String} :
    key ∈ fresh w keys ↔ key ∈ keys ∧ Lease.keyOk key = true ∧ w.lookup key = none := by
  fun_induction fresh w keys with
  | case1 => simp
  | case2 k ks h ih =>
    by_cases hkey : key = k
    · subst hkey
      simp [h]
    · simp [hkey, ih]
  | case3 k ks h ih =>
    rw [ih, List.mem_cons]
    refine and_congr_left fun hx => (or_iff_right ?_).symm
    rintro rfl
    exact h hx

theorem nodup_fresh (w : Watermark) (keys : List String) : (fresh w keys).Nodup := by
  fun_induction fresh w keys with
  | case1 => exact List.nodup_nil
  | case2 k ks h ih => exact List.nodup_cons.mpr ⟨by simp, ih.filter _⟩
  | case3 k ks h ih => exact ih

theorem fresh_insert (w : Watermark) (k : String) (e : DeniedEntry) : ∀ keys : List String,
    fresh (w.insert k e) keys = (fresh w keys).filter fun x => x ≠ k := by
  intro keys
  induction keys with
  | nil => rfl
  | cons k' ks ih =>
    unfold fresh
    by_cases hk : k' = k
    · subst hk
      rw [GoMap.lookup_insert_eq, if_pos rfl, if_neg (by simp), ih]
      split
      · simp
      · rfl
    · rw [GoMap.lookup_insert_eq, if_neg hk, ih]
      split
      · simp only [List.filter_cons, hk, ne_eq, not_false_eq_true, decide_true, if_true,
          List.filter_filter]
        congr 2
        funext x
        rw [Bool.and_comm]
      · rfl

theorem fresh_cons_of_listed {w : Watermark} {k : String} {ks : List String}
    (h : (w.lookup k).isSome) : fresh w (k :: ks) = fresh w ks := by
  rw [fresh, if_neg]
  rintro ⟨-, hnone⟩
  rw [hnone] at h
  cases h

/-- **What the loop of `Deny` records**: what was listed, and the first fresh keys that fit. -/
theorem lookup_denyLoop_isSome {entry : DeniedEntry} {key : String} {keys : List String} {m : Watermark}
    {changed : Bool} : ((denyLoop entry keys m changed).1.lookup key).isSome ↔
      (m.lookup key).isSome ∨ key ∈ (fresh m keys).take (maxDeniedKeys - m.size) := by
  fun_induction denyLoop entry keys m changed with
  | case1 m changed => simp [fresh]
  | case2 k ks m changed hbad ih =>
    rw [fresh, if_neg (by simp_all)]
    exact ih
  | case3 k ks m changed _ hold ih =>
    obtain ⟨e, he, -⟩ := (Option.any_eq_true _ _).mp hold
    rw [fresh_cons_of_listed (by simp [he])]
    exact ih
  | case4 k ks m changed _ _ hfull => simp [Nat.sub_eq_zero_of_le hfull]
  | case5 k ks m changed hok _ hfull ih =>
    rw [ih, GoMap.lookup_insert_eq, fresh_insert]
    cases h : m.lookup k with
    | some e =>
      -- A listed key only gets a later revision: nothing new is counted.
      have hmem : k ∈ m := GoMap.mem_iff_lookup.mpr ⟨e, h⟩
      have hkeep : ((fresh m ks).filter fun x => x ≠ k) = fresh m ks := by
        rw [List.filter_eq_self]
        intro x hx
        have hnone := (mem_fresh.mp hx).2.2
        exact decide_eq_true fun hxk => by rw [hxk, h] at hnone; cases hnone
      rw [GoMap.size_insert_of_mem hmem, hkeep, fresh_cons_of_listed (by rw [h]; rfl)]
      split
      · rename_i hkey
        rw [hkey, h]
        simp
      · rfl
    | none =>
      have hmem : k ∉ m := by
        intro hm
        obtain ⟨e, he⟩ := GoMap.mem_iff_lookup.mp hm
        exact absurd (h.symm.trans he) (by simp)
      have hroom : maxDeniedKeys - m.size = maxDeniedKeys - (m.size + 1) + 1 := by omega
      rw [GoMap.size_insert_of_notMem hmem, hroom]
      conv_rhs => rw [fresh, if_pos ⟨by simpa using hok, h⟩, List.take_succ_cons, List.mem_cons]
      split <;> simp [*]

end Store

namespace Session

/-- The keys a call is to deny and finds no room for. -/
def lost (m : Session) (c : Call) : List String :=
  match c.op with
  | .deny keys _ _ =>
    (Store.fresh m.view.denied keys).drop (maxDeniedKeys - m.view.denied.size)
  | _ => []

theorem not_allows_of_installed {m : Session} {now : Int} {l : Lease} {io : Writes}
    {r : UpdateResult} {key : String}
    (hres : (m.store.update m.disk now io (some l)).result = .ok r) (hinst : r.installed = true)
    (hkey : key ∈ l.denied) (time : Int) :
    (m.step ⟨now, .update (some l) io⟩).allows key time = false := by
  obtain ⟨-, hview, -⟩ := view_of_installed hres hinst
  rw [← Bool.not_eq_true]
  intro hallows
  obtain ⟨-, -, l', hl', hal⟩ := Store.allowsLoaded_iff.mp hallows
  have hlease : (m.step ⟨now, .update (some l) io⟩).view.lease = some l' := hl'
  rw [hview, Option.some.injEq] at hlease
  obtain ⟨raw, hraw⟩ := Lease.allows_granted hal
  rw [← hlease] at hraw
  have hgone : (Store.stripGrants l.grants l.denied).lookup key = some raw := hraw
  rw [Store.lookup_stripGrants, if_pos hkey] at hgone
  cases hgone

theorem allows_of_denied {m : Session} {now revision : Int} {keys : List String} {io : Writes}
    {key : String} (hres : (m.store.deny m.disk now io keys revision).result = .ok ())
    (hkey : key ∈ keys) (hok : Lease.keyOk key = true) :
    (m.step ⟨now, .deny keys revision io⟩).allows key now = true ↔
      key ∈ m.lost ⟨now, .deny keys revision io⟩ ∧
        ∃ l, m.installed = some l ∧ l.allows key now = true := by
  obtain ⟨herr, hview, -⟩ := view_of_denied hres
  have hlisted := @Store.lookup_denyLoop_isSome (Store.entryAt revision now) key keys
    m.view.denied false
  have hlost : (Store.denyLoop (Store.entryAt revision now) keys m.view.denied false).1.lookup key
      = none ↔ key ∈ m.lost ⟨now, .deny keys revision io⟩ := by
    rw [← Option.not_isSome_iff_eq_none, hlisted]
    have hsplit := List.take_append_drop (maxDeniedKeys - m.view.denied.size)
      (Store.fresh m.view.denied keys)
    have hdisj := List.disjoint_take_drop (Store.nodup_fresh m.view.denied keys)
      (Nat.le_refl (maxDeniedKeys - m.view.denied.size))
    constructor
    · intro h
      rw [not_or, Option.not_isSome_iff_eq_none] at h
      have hmem := Store.mem_fresh.mpr ⟨hkey, hok, h.1⟩
      rw [← hsplit, List.mem_append] at hmem
      exact hmem.resolve_left h.2
    · rintro hdrop (hold | htake)
      · have hnone := (Store.mem_fresh.mp (List.mem_of_mem_drop hdrop)).2.2
        rw [hnone] at hold
        cases hold
      · exact hdisj htake hdrop
  have hallows : (m.step ⟨now, .deny keys revision io⟩).allows key now
      = (m.step ⟨now, .deny keys revision io⟩).view.allowsLoaded key now := rfl
  rw [hallows, hview, Store.allowsLoaded_iff, hlost]
  exact ⟨fun h => h.2, fun h => ⟨herr, h⟩⟩

/-- **When a reported denial takes effect.** For every state of the store and its files and every
call: each valid key the call reports as denied is refused at that instant, if and only if the
installed lease admits none of the keys that found no room on the watermark. -/
theorem denial_takes_effect_iff (m : Session) (c : Call) :
    (∀ key, Denies m c key → Lease.keyOk key = true → (m.step c).allows key c.now = false) ↔
      ∀ key ∈ m.lost c, Denies m c key → ∀ l, m.installed = some l → l.allows key c.now = false := by
  obtain ⟨now, op⟩ := c
  cases op with
  | reload => simp [Denies, lost]
  | update incoming io =>
    cases incoming with
    | none => simp [Denies, lost]
    | some l =>
      refine iff_of_true ?_ (by simp [lost])
      rintro key ⟨hkey, r, hres, hinst⟩ -
      exact not_allows_of_installed hres hinst hkey now
  | deny keys revision io =>
    constructor
    · intro h key hlost hden l hl
      have hok : Lease.keyOk key = true := (Store.mem_fresh.mp (List.mem_of_mem_drop hlost)).2.1
      rw [← Bool.not_eq_true]
      intro hal
      have hin := (allows_of_denied hden.2 hden.1 hok).mpr ⟨hlost, l, hl, hal⟩
      exact absurd ((h key hden hok).symm.trans hin) (by simp)
    · intro h key hden hok
      rw [← Bool.not_eq_true]
      intro hin
      obtain ⟨hlost, l, hl, hal⟩ := (allows_of_denied hden.2 hden.1 hok).mp hin
      exact absurd ((h key hlost hden l hl).symm.trans hal) (by simp)

/-! ### A full watermark -/

def userKey (i : Nat) : String := String.ofList (Rfc3339.digits 5 i)

theorem userKey_inj {i j : Nat} (hi : i < 100000) (hj : j < 100000) (h : userKey i = userKey j) :
    i = j := by
  have hdigits : Rfc3339.digits 5 i = Rfc3339.digits 5 j := String.ofList_injective h
  have hnum := (Rfc3339.number?_digits (w := 5) hi).symm.trans
    ((congrArg Rfc3339.number? hdigits).trans (Rfc3339.number?_digits (w := 5) hj))
  exact Option.some.inj hnum

def fullWatermark : Watermark :=
  ⟨(List.range maxDeniedKeys).map fun i => ⟨userKey i, { revision := 1, deniedAt := "" }⟩, by
    rw [List.nodupKeys_iff_pairwise, List.pairwise_map]
    refine List.Pairwise.imp_of_mem ?_ List.nodup_range
    intro i j hi hj hne heq
    rw [List.mem_range] at hi hj
    exact hne (userKey_inj (Nat.lt_trans hi (by decide)) (Nat.lt_trans hj (by decide)) heq)⟩

theorem size_fullWatermark : fullWatermark.size = maxDeniedKeys := by
  simp [fullWatermark, GoMap.size, AList.keys, List.keys]

theorem lookup_fullWatermark : fullWatermark.lookup (userKey maxDeniedKeys) = none := by
  rw [AList.lookup_eq_none, AList.mem_keys]
  intro hmem
  simp only [fullWatermark, AList.keys, List.keys, List.map_map, List.mem_map, List.mem_range,
    Function.comp_apply] at hmem
  obtain ⟨i, hi, heq⟩ := hmem
  have hi' := userKey_inj (Nat.lt_trans hi (by decide)) (by decide) heq
  omega

def oneMoreLease : Lease :=
  { revision := 1, issuedAt := "2026-01-01T00:00:00Z"
    grants := AList.singleton "65536" "2026-01-01T00:05:00Z" }

def crowded : Session where
  store :=
    { persistent := false, loaded := true, denied := fullWatermark, lease := some oneMoreLease }
  disk := { lease := .missing, denied := .missing }
  clock := midnight

def denyOneMore : Call := ⟨midnight, .deny ["65536"] 2 {}⟩

/-- The denial of one user more returns nil, and the key is still admitted. -/
theorem denial_without_room_is_lost :
    Denies crowded denyOneMore "65536" ∧ Lease.keyOk "65536" = true ∧
    (crowded.step denyOneMore).allows "65536" denyOneMore.now = true := by
  have hok : Lease.keyOk "65536" = true := by decide
  have hnone : fullWatermark.lookup "65536" = none := lookup_fullWatermark
  have hloop : Store.denyLoop (Store.entryAt 2 midnight) ["65536"] fullWatermark false
      = (fullWatermark, false) := by
    simp [Store.denyLoop, hok, hnone, size_fullWatermark]
  have hview : crowded.view = crowded.store := Store.load_of_loaded rfl
  have hres : (crowded.store.deny crowded.disk midnight {} ["65536"] 2).result = .ok () := by
    show (crowded.view.denyLoaded midnight {} ["65536"] 2).result = .ok ()
    rw [hview]
    simp [Store.denyLoaded, crowded, hloop]
  have hlost : "65536" ∈ crowded.lost denyOneMore := by
    show "65536" ∈ (Store.fresh crowded.view.denied ["65536"]).drop
      (maxDeniedKeys - crowded.view.denied.size)
    rw [hview, show crowded.store.denied = fullWatermark from rfl, size_fullWatermark,
      Nat.sub_self, List.drop_zero, Store.mem_fresh]
    exact ⟨by simp, hok, hnone⟩
  have hlease : crowded.installed = some oneMoreLease := by
    show crowded.view.lease = some oneMoreLease
    rw [hview]
    rfl
  refine ⟨⟨by simp, hres⟩, hok, ?_⟩
  exact (allows_of_denied hres (by simp) hok).mpr ⟨hlost, oneMoreLease, hlease, by decide⟩

end Session

end OboardAgent.Authorization
