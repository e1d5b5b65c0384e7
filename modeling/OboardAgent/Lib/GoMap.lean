import Mathlib.Data.List.AList

/-!
# Go maps, as association lists

A Go `map[K]V` is a finite partial function with an unspecified iteration order. Mathlib's
`AList` is a list of pairs whose keys are distinct, so a map *is* one here, and `lookup`,
`insert` and `erase` are the `m[k]`, `m[k] = v` and `delete(m, k)` of the source, together with
Mathlib's lemmas about them.

What `AList` does not have is what Go programs do with `range`: keep some of the entries and
rewrite others (`filterMap`), ask whether some value satisfies a test (`anyVal`), count
(`size`), and compare two maps without regard to order (`deepEqual`, which is
`reflect.DeepEqual`). This file adds those, with lemmas that are always phrased through `lookup`,
so that no proof about a program ever looks at the entry list.
-/

/-- A Go map from `κ` to `α`. -/
abbrev GoMap (κ α : Type) : Type := AList fun _ : κ => α

namespace GoMap

variable {κ α β : Type} [DecidableEq κ]

/-! ## `len` -/

/-- `len(m)`. -/
def size (m : GoMap κ α) : Nat := m.keys.length

omit [DecidableEq κ] in
@[simp] theorem size_empty : size (∅ : GoMap κ α) = 0 := rfl

variable {m : GoMap κ α}

theorem size_insert_of_mem {k : κ} {v : α} (h : k ∈ m) : size (m.insert k v) = size m := by
  have hk : k ∈ m.keys := AList.mem_keys.mp h
  have hpos : 0 < m.keys.length := List.length_pos_of_mem hk
  simp only [size, AList.keys_insert, List.length_cons, List.length_erase_of_mem hk]
  omega

theorem size_insert_of_notMem {k : κ} {v : α} (h : k ∉ m) : size (m.insert k v) = size m + 1 := by
  have hk : k ∉ m.keys := fun hm => h (AList.mem_keys.mpr hm)
  simp [size, AList.keys_insert, List.erase_of_not_mem hk]

theorem size_erase_le (m : GoMap κ α) (k : κ) : size (m.erase k) ≤ size m := by
  simp only [size, AList.keys_erase]
  exact List.length_erase_le

theorem size_le_size_insert (m : GoMap κ α) (k : κ) (v : α) : size m ≤ size (m.insert k v) := by
  by_cases h : k ∈ m
  · rw [size_insert_of_mem h]
  · rw [size_insert_of_notMem h]
    exact Nat.le_succ _

theorem size_insert_le (m : GoMap κ α) (k : κ) (v : α) : size (m.insert k v) ≤ size m + 1 := by
  by_cases h : k ∈ m
  · rw [size_insert_of_mem h]
    exact Nat.le_succ _
  · rw [size_insert_of_notMem h]

/-! ## `range` with `delete` and assignment -/

/-- The entries of one `range` loop that rewrites or deletes the entry it is at. -/
def filterMapEntries (f : κ → α → Option β) : List (Σ _ : κ, α) → List (Σ _ : κ, β)
  | [] => []
  | ⟨k, v⟩ :: rest =>
    match f k v with
    | some w => ⟨k, w⟩ :: filterMapEntries f rest
    | none => filterMapEntries f rest

variable (f : κ → α → Option β)

omit [DecidableEq κ] in
theorem keys_filterMapEntries (l : List (Σ _ : κ, α)) : (filterMapEntries f l).keys.Sublist l.keys := by
  fun_induction filterMapEntries f l with
  | case1 => exact .slnil
  | case2 k v rest w hf ih => exact ih.cons_cons k
  | case3 k v rest hf ih => exact ih.cons k

omit [DecidableEq κ] in
theorem nodupKeys_filterMapEntries {l : List (Σ _ : κ, α)} (h : l.NodupKeys) :
    (filterMapEntries f l).NodupKeys :=
  (keys_filterMapEntries f l).nodup h

theorem dlookup_filterMapEntries (k : κ) {l : List (Σ _ : κ, α)} (h : l.NodupKeys) :
    (filterMapEntries f l).dlookup k = (l.dlookup k).bind (f k) := by
  fun_induction filterMapEntries f l with
  | case1 => rfl
  | case2 k' v rest w hf ih =>
    by_cases hk : k = k'
    · subst hk
      simp [hf]
    · rw [List.dlookup_cons_ne _ _ hk, List.dlookup_cons_ne _ _ hk]
      exact ih (List.nodupKeys_cons.mp h).2
  | case3 k' v rest hf ih =>
    rw [List.nodupKeys_cons] at h
    by_cases hk : k = k'
    · subst hk
      -- The head is the only entry under `k`, so when it is deleted nothing is left to find.
      simp [ih h.2, List.dlookup_eq_none.mpr h.1, hf]
    · rw [List.dlookup_cons_ne _ _ hk]
      exact ih h.2

/-- `for k, v := range m { … }` where the body either rewrites `m[k]` or deletes it. -/
def filterMap (m : GoMap κ α) : GoMap κ β :=
  ⟨filterMapEntries f m.entries, nodupKeys_filterMapEntries f m.nodupKeys⟩

@[simp] theorem lookup_filterMap (m : GoMap κ α) (k : κ) :
    (filterMap f m).lookup k = (m.lookup k).bind (f k) :=
  dlookup_filterMapEntries f k m.nodupKeys

omit [DecidableEq κ] in
theorem size_filterMap_le (m : GoMap κ α) : size (filterMap f m) ≤ size m :=
  (keys_filterMapEntries f m.entries).length_le

/-! ## `range` with `break` -/

def anyVal (p : α → Bool) (m : GoMap κ α) : Bool := m.entries.any fun e => p e.2

theorem anyVal_iff {p : α → Bool} :
    anyVal p m = true ↔ ∃ k v, m.lookup k = some v ∧ p v = true := by
  unfold anyVal
  rw [List.any_eq_true]
  constructor
  · rintro ⟨⟨k, v⟩, hmem, hp⟩
    exact ⟨k, v, AList.mem_lookup_iff.mpr hmem, hp⟩
  · rintro ⟨k, v, hl, hp⟩
    exact ⟨⟨k, v⟩, AList.mem_lookup_iff.mp hl, hp⟩

theorem anyVal_eq_false_iff {p : α → Bool} :
    anyVal p m = false ↔ ∀ k v, m.lookup k = some v → p v = false := by
  rw [← Bool.not_eq_true, anyVal_iff]
  constructor
  · intro h k v hl
    exact Bool.eq_false_iff.mpr fun hp => h ⟨k, v, hl, hp⟩
  · rintro h ⟨k, v, hl, hp⟩
    rw [h k v hl] at hp
    cases hp

def values (m : GoMap κ α) : List α := m.entries.map fun e => e.2

theorem mem_values {v : α} : v ∈ values m ↔ ∃ k, m.lookup k = some v := by
  unfold values
  rw [List.mem_map]
  constructor
  · rintro ⟨⟨k, v⟩, hmem, rfl⟩
    exact ⟨k, AList.mem_lookup_iff.mpr hmem⟩
  · rintro ⟨k, hl⟩
    exact ⟨⟨k, v⟩, AList.mem_lookup_iff.mp hl, rfl⟩

/-! ## `reflect.DeepEqual` -/

/-- Equality of two maps as maps: the same keys with the same values, in whatever order. -/
def deepEqual [DecidableEq α] (m n : GoMap κ α) : Bool :=
  m.keys.all (fun k => m.lookup k = n.lookup k) && n.keys.all (fun k => m.lookup k = n.lookup k)

/-! ## One lookup after one update -/

theorem lookup_insert_eq (m : GoMap κ α) (k k' : κ) (v : α) :
    (m.insert k v).lookup k' = if k' = k then some v else m.lookup k' := by
  by_cases h : k' = k
  · subst h
    rw [if_pos rfl]
    exact AList.lookup_insert m
  · rw [if_neg h]
    exact AList.lookup_insert_ne h

theorem lookup_erase_eq (m : GoMap κ α) (k k' : κ) :
    (m.erase k).lookup k' = if k' = k then none else m.lookup k' := by
  by_cases h : k' = k
  · subst h
    rw [if_pos rfl]
    exact AList.lookup_erase k' m
  · rw [if_neg h]
    exact AList.lookup_erase_ne h

theorem lookup_of_erase {k k' : κ} {v : α} (h : (m.erase k).lookup k' = some v) :
    m.lookup k' = some v := by
  rw [lookup_erase_eq] at h
  split at h
  · cases h
  · exact h

theorem lookup_of_insert {k k' : κ} {v w : α} (h : (m.insert k v).lookup k' = some w) :
    (k' = k ∧ v = w) ∨ m.lookup k' = some w := by
  rw [lookup_insert_eq] at h
  split at h
  · exact Or.inl ⟨‹_›, Option.some.inj h⟩
  · exact Or.inr h

theorem mem_iff_lookup {k : κ} : k ∈ m ↔ ∃ v, m.lookup k = some v := by
  rw [← AList.lookup_isSome, Option.isSome_iff_exists]

end GoMap
