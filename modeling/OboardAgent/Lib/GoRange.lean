import Mathlib.Algebra.BigOperators.Group.List.Basic
import OboardAgent.Lib.GoMap

/-!
# `range` loops with a state, and sums over a map

A `range` loop that rewrites or deletes the entry it is at, and counts or collects something on the
way, is a function of the state it carries and the map (`range`). The state after the loop is a
fold over the entries; what is under a key after it is what the body made of the entry there, in
some state. `sum` adds up a quantity over the values of a map; an assignment changes one summand.
-/

namespace GoMap

variable {κ α β σ : Type} [DecidableEq κ]

/-! ## `range` with variables of the function around it -/

/-- The entries of a `range` loop that also works on a state `σ`. -/
def rangeEntries (f : σ → κ → α → σ × Option β) : σ → List (Σ _ : κ, α) → σ × List (Σ _ : κ, β)
  | s, [] => (s, [])
  | s, ⟨k, v⟩ :: rest =>
    let after := rangeEntries f (f s k v).1 rest
    match (f s k v).2 with
    | some w => (after.1, ⟨k, w⟩ :: after.2)
    | none => after

variable (f : σ → κ → α → σ × Option β)

omit [DecidableEq κ] in
theorem rangeEntries_fst (s : σ) (l : List (Σ _ : κ, α)) :
    (rangeEntries f s l).1 = l.foldl (fun s e => (f s e.1 e.2).1) s := by
  fun_induction rangeEntries f s l with
  | case1 s => rfl
  | case2 s k v rest after w hw ih => exact ih
  | case3 s k v rest after hw ih => exact ih

omit [DecidableEq κ] in
theorem mem_rangeEntries {f : σ → κ → α → σ × Option β} {k : κ} {w : β} {s : σ} {l : List (Σ _ : κ, α)}
    (h : ⟨k, w⟩ ∈ (rangeEntries f s l).2) : ∃ s' v, ⟨k, v⟩ ∈ l ∧ (f s' k v).2 = some w := by
  fun_induction rangeEntries f s l with
  | case1 s => cases h
  | case2 s k' v rest after w' hw' ih =>
    rcases List.mem_cons.mp h with heq | hmem
    · cases heq
      exact ⟨s, v, List.mem_cons_self, hw'⟩
    · obtain ⟨s', v', hv', hf⟩ := ih hmem
      exact ⟨s', v', List.mem_cons_of_mem _ hv', hf⟩
  | case3 s k' v rest after hw' ih =>
    obtain ⟨s', v', hv', hf⟩ := ih h
    exact ⟨s', v', List.mem_cons_of_mem _ hv', hf⟩

omit [DecidableEq κ] in
theorem keys_rangeEntries (s : σ) (l : List (Σ _ : κ, α)) :
    (rangeEntries f s l).2.keys.Sublist l.keys := by
  fun_induction rangeEntries f s l with
  | case1 s => exact .slnil
  | case2 s k v rest after w hw ih => exact ih.cons_cons k
  | case3 s k v rest after hw ih => exact ih.cons k

omit [DecidableEq κ] in
theorem exists_rangeEntries {f : σ → κ → α → σ × Option β} {k : κ} {v : α} {s : σ} {l : List (Σ _ : κ, α)}
    (hf : ∀ s, (f s k v).2.isSome) (h : ⟨k, v⟩ ∈ l) :
    ∃ s' w, ⟨k, w⟩ ∈ (rangeEntries f s l).2 ∧ (f s' k v).2 = some w := by
  fun_induction rangeEntries f s l with
  | case1 s => cases h
  | case2 s k' v' rest after w hw ih =>
    rcases List.mem_cons.mp h with heq | hmem
    · cases heq
      exact ⟨s, w, List.mem_cons_self, hw⟩
    · obtain ⟨s', w', hw', hs'⟩ := ih hmem
      exact ⟨s', w', List.mem_cons_of_mem _ hw', hs'⟩
  | case3 s k' v' rest after hw ih =>
    rcases List.mem_cons.mp h with heq | hmem
    · cases heq
      exact absurd (hf s) (by simp [hw])
    · exact ih hmem

/-- `for k, v := range m { … }` where the body rewrites `m[k]` or deletes it, and works on a state:
the state and the map after the loop. -/
def range (s : σ) (m : GoMap κ α) : σ × GoMap κ β :=
  ((rangeEntries f s m.entries).1,
    ⟨(rangeEntries f s m.entries).2, (keys_rangeEntries f s _).nodup m.nodupKeys⟩)

omit [DecidableEq κ] in
theorem range_fst (s : σ) (m : GoMap κ α) :
    (range f s m).1 = m.entries.foldl (fun s e => (f s e.1 e.2).1) s := rangeEntries_fst f s _

theorem lookup_of_range {f : σ → κ → α → σ × Option β} {s : σ} {m : GoMap κ α} {k : κ} {w : β}
    (h : (range f s m).2.lookup k = some w) : ∃ s' v, m.lookup k = some v ∧ (f s' k v).2 = some w := by
  obtain ⟨s', v, hv, hf⟩ := mem_rangeEntries (AList.mem_lookup_iff.mp h)
  exact ⟨s', v, AList.mem_lookup_iff.mpr hv, hf⟩

theorem lookup_range {f : σ → κ → α → σ × Option β} {s : σ} {m : GoMap κ α} {k : κ} {v : α}
    (h : m.lookup k = some v) (hf : ∀ s, (f s k v).2.isSome) :
    ∃ s' w, (range f s m).2.lookup k = some w ∧ (f s' k v).2 = some w := by
  obtain ⟨s', w, hw, hs'⟩ := exists_rangeEntries hf (AList.mem_lookup_iff.mp h)
  exact ⟨s', w, AList.mem_lookup_iff.mpr hw, hs'⟩

/-! ## Sums over the values -/

section
variable {M : Type} [AddCommMonoid M]

/-- The sum of `f v` over the values of the map. -/
def sum (f : α → M) (m : GoMap κ α) : M := ((values m).map f).sum

theorem sum_entries_kerase (f : α → M) (k : κ) : ∀ l : List (Σ _ : κ, α),
    (l.map fun e => f e.2).sum = ((l.kerase k).map fun e => f e.2).sum + (l.dlookup k).elim 0 f
  | [] => by simp
  | ⟨k', v⟩ :: rest => by
    by_cases hk : k = k'
    · subst hk
      have herase : (⟨k, v⟩ :: rest : List (Σ _ : κ, α)).kerase k = rest := List.kerase_cons_eq rfl
      rw [herase, List.dlookup_cons_eq]
      simp only [List.map_cons, List.sum_cons, Option.elim_some]
      exact add_comm _ _
    · rw [List.kerase_cons_ne hk, List.dlookup_cons_ne _ _ hk]
      simp only [List.map_cons, List.sum_cons, sum_entries_kerase f k rest]
      exact (add_assoc _ _ _).symm

theorem sum_insert (f : α → M) (m : GoMap κ α) (k : κ) (v : α) :
    sum f (m.insert k v) + (m.lookup k).elim 0 f = sum f m + f v := by
  have h := sum_entries_kerase f k m.entries
  simp only [sum, values, List.map_map, AList.entries_insert, List.map_cons,
    List.sum_cons, Function.comp_def, AList.lookup] at h ⊢
  rw [h, add_assoc, add_comm (f v)]

theorem sum_insert_add {N : Type} [AddCancelCommMonoid N] {f : α → N} {m : GoMap κ α} {k : κ} {v : α}
    {d : N} (h : f v = (m.lookup k).elim 0 f + d) : sum f (m.insert k v) = sum f m + d := by
  have hsum := sum_insert f m k v
  rw [h, add_left_comm, add_comm] at hsum
  exact add_left_cancel hsum

theorem sum_eq_zero {f : α → M} {m : GoMap κ α} (h : ∀ k v, m.lookup k = some v → f v = 0) :
    sum f m = 0 := by
  refine List.sum_eq_zero fun x hx => ?_
  obtain ⟨v, hv, rfl⟩ := List.mem_map.mp hx
  obtain ⟨k, hk⟩ := mem_values.mp hv
  exact h k v hk

end

end GoMap
