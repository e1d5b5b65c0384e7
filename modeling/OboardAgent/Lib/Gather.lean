import Mathlib.Algebra.Order.BigOperators.Group.List
import Mathlib.Algebra.Order.Ring.Nat
import Mathlib.Data.List.Forall2

/-!
# Parts that arrive by their number

A list comes in parts, in any order and perhaps more than once. `arrived parts d` is what is there
when the numbers `d` have come. Whatever the order was, the same parts are there; with all of them,
they are the list.
-/

namespace Gather

variable {α : Type} {parts : List α} {d : List Nat} {i : Nat} {p : α}

def arrived (parts : List α) (d : List Nat) :
    List (Option α) := parts.mapIdx fun i p => if i ∈ d then some p else none

@[simp] theorem length_arrived (parts : List α) (d : List Nat) :
    (arrived parts d).length = parts.length := List.length_mapIdx

theorem getElem?_arrived (parts : List α) (d : List Nat) (i : Nat) :
    (arrived parts d)[i]? = parts[i]?.map fun p => if i ∈ d then some p else none := List.getElem?_mapIdx

theorem arrived_nil (parts : List α) : arrived parts [] = List.replicate parts.length none := by
  refine List.ext_getElem? fun i => ?_
  rw [getElem?_arrived, List.getElem?_replicate]
  by_cases hi : i < parts.length
  · rw [if_pos hi, List.getElem?_eq_getElem hi]
    exact congrArg some (if_neg List.not_mem_nil)
  · rw [if_neg hi, List.getElem?_eq_none (Nat.le_of_not_lt hi)]
    rfl

theorem arrived_set (hp : parts[i]? = some p) :
    (arrived parts d).set i (some p) = arrived parts (i :: d) := by
  refine List.ext_getElem? fun j => ?_
  rw [List.getElem?_set, getElem?_arrived, getElem?_arrived]
  by_cases hij : i = j
  · subst hij
    have hi : i < parts.length := (List.getElem?_eq_some_iff.mp hp).1
    rw [if_pos rfl, length_arrived, if_pos hi, hp]
    exact congrArg some (if_pos List.mem_cons_self).symm
  · rw [if_neg hij]
    have hmem : j ∈ i :: d ↔ j ∈ d := by
      rw [List.mem_cons]
      exact or_iff_right (Ne.symm hij)
    simp only [hmem]

theorem all_arrived : (arrived parts d).all Option.isSome = true ↔ ∀ i < parts.length, i ∈ d := by
  rw [List.all_eq_true]
  constructor
  · intro h i hi
    have hget : (arrived parts d)[i]? = some (if i ∈ d then some parts[i] else none) := by
      rw [getElem?_arrived, List.getElem?_eq_getElem hi]
      rfl
    have hsome := h _ (List.mem_of_getElem? hget)
    by_contra hnot
    rw [if_neg hnot] at hsome
    exact nomatch hsome
  · intro h o ho
    obtain ⟨i, hi⟩ := List.mem_iff_getElem?.mp ho
    rw [getElem?_arrived] at hi
    obtain ⟨p, hp, rfl⟩ := Option.map_eq_some_iff.mp hi
    rw [if_pos (h i (List.getElem?_eq_some_iff.mp hp).1)]
    rfl

/-- **With all parts there, they are the list.** -/
theorem arrived_all (h : ∀ i < parts.length, i ∈ d) : (arrived parts d).filterMap id = parts := by
  have hmap : arrived parts d = parts.map some := by
    refine List.ext_getElem? fun i => ?_
    rw [getElem?_arrived, List.getElem?_map]
    cases hp : parts[i]? with
    | none => rfl
    | some p => exact congrArg some (if_pos (h i (List.getElem?_eq_some_iff.mp hp).1))
  rw [hmap, List.filterMap_map]
  exact List.filterMap_some

/-! ## Sums over what is there -/

/-- What is there is some of the list, at its places. -/
def Of (o : Option α) (p : α) : Prop := ∀ q, o = some q → q = p

theorem arrived_of (parts : List α) (d : List Nat) : List.Forall₂ Of (arrived parts d) parts := by
  rw [List.forall₂_iff_get]
  refine ⟨length_arrived parts d, ?_⟩
  intro i h₁ h₂ q hq
  have hget := getElem?_arrived parts d i
  rw [List.getElem?_eq_getElem h₁, List.getElem?_eq_getElem h₂] at hget
  have hval : (arrived parts d)[i] = if i ∈ d then some parts[i] else none := Option.some.inj hget
  change (arrived parts d)[i] = some q at hq
  rw [hval] at hq
  split_ifs at hq
  exact (Option.some.inj hq).symm

theorem filterMap_some_cons (q : α) (l : List (Option α)) :
    (some q :: l).filterMap id = q :: l.filterMap id := rfl

theorem sum_le_of {l : List (Option α)} (f : α → Nat) (h : List.Forall₂ Of l parts) :
    ((l.filterMap id).map f).sum ≤ (parts.map f).sum := by
  induction h with
  | nil => exact Nat.le_refl _
  | @cons o p l parts ho _ ih =>
    cases o with
    | none =>
      rw [List.filterMap_cons_none rfl, List.map_cons, List.sum_cons]
      omega
    | some q =>
      rw [filterMap_some_cons, List.map_cons, List.map_cons, List.sum_cons, List.sum_cons, ho q rfl]
      omega

theorem sum_others_le {l : List (Option α)} (f : α → Nat) (h : List.Forall₂ Of l parts)
    (hp : parts[i]? = some p) :
    f p + (((l.eraseIdx i).filterMap id).map f).sum ≤ (parts.map f).sum := by
  induction h generalizing i with
  | nil => exact nomatch hp
  | @cons o q l parts ho hrest ih =>
    cases i with
    | zero =>
      cases Option.some.inj hp
      have hle := sum_le_of f hrest
      rw [List.eraseIdx_cons_zero, List.map_cons, List.sum_cons]
      omega
    | succ i =>
      have hle := ih hp
      rw [List.eraseIdx_cons_succ, List.map_cons, List.sum_cons]
      cases o with
      | none =>
        rw [List.filterMap_cons_none rfl]
        omega
      | some r =>
        rw [filterMap_some_cons, List.map_cons, List.sum_cons, ho r rfl]
        omega

end Gather
