import Mathlib.Data.List.Count
import Mathlib.Data.List.Induction
import Mathlib.Logic.Function.Basic

/-!
# Counting holders, generation by generation

Holders come and go, each under a key and in a generation; a table counts those of the current
generation by key, and announces an edge when a count leaves zero or comes back to it. `held` is
what the table should say, and the lemmas say how it changes when a holder joins, leaves, or the
generation ends. `Alternates` is what the edges of one key look like if they follow a count.
-/

namespace Tally

variable {κ : Type} [DecidableEq κ]

/-- A holder; one without a key is never counted. -/
structure Holder (κ : Type) where
  key : Option κ
  generation : Nat
  isOpen : Bool := true

/-- The open holders of the generation under the key. -/
def held (hs : List (Holder κ)) (generation : Nat) (k : κ) : Nat :=
  hs.countP fun h => h.isOpen && h.generation = generation && h.key = some k

theorem held_append (hs : List (Holder κ)) (h : Holder κ) (generation : Nat) (k : κ) :
    held (hs ++ [h]) generation k = held hs generation k +
      if h.isOpen = true ∧ h.generation = generation ∧ h.key = some k then 1 else 0 := by
  rw [held, List.countP_append, ← held, List.countP_singleton]
  simp only [Bool.and_eq_true, decide_eq_true_eq, and_assoc]

theorem held_close {hs : List (Holder κ)} {i : Nat} {h : Holder κ} (hi : hs[i]? = some h)
    (hopen : h.isOpen = true) (generation : Nat) (k : κ) :
    held (hs.set i { h with isOpen := false }) generation k = held hs generation k -
      if h.generation = generation ∧ h.key = some k then 1 else 0 := by
  obtain ⟨hlt, hget⟩ := List.getElem?_eq_some_iff.mp hi
  rw [held, List.countP_set hlt, ← held, hget]
  simp [hopen]

theorem held_pos {hs : List (Holder κ)} {i : Nat} {h : Holder κ} (hi : hs[i]? = some h)
    (hopen : h.isOpen = true) {k : κ} (hk : h.key = some k) : 0 < held hs h.generation k :=
  List.countP_pos_iff.mpr ⟨h, List.mem_of_getElem? hi, by simp [hopen, hk]⟩

theorem held_eq_zero {hs : List (Holder κ)} {generation : Nat}
    (h : ∀ x ∈ hs, x.generation < generation) (k : κ) : held hs generation k = 0 := by
  refine List.countP_eq_zero.mpr fun x hx => ?_
  have hne : x.generation ≠ generation := Nat.ne_of_lt (h x hx)
  simp [hne]

/-! ## Edges -/

inductive Edge where
  | up
  | down
deriving DecidableEq, Repr

/-- The edges alternate, beginning with one up; the last is up exactly when the count is high. -/
inductive Alternates : Bool → List Edge → Prop
  | nil : Alternates false []
  | up {l : List Edge} (h : Alternates false l) : Alternates true (l ++ [.up])
  | down {l : List Edge} (h : Alternates true l) : Alternates false (l ++ [.down])

theorem Alternates.concat {high : Bool} {l : List Edge} {e : Edge}
    (h : Alternates high (l ++ [e])) : Alternates (!high) l ∧ (high = true ↔ e = .up) := by
  generalize hm : l ++ [e] = m at h
  cases h with
  | nil => simp at hm
  | up h =>
    obtain ⟨rfl, he⟩ := List.append_inj' hm rfl
    exact ⟨h, by simpa using he⟩
  | down h =>
    obtain ⟨rfl, he⟩ := List.append_inj' hm rfl
    obtain rfl := List.singleton_inj.mp he
    exact ⟨h, by simp⟩

/-- The count was low before every edge up. -/
theorem Alternates.before_up {high : Bool} {l m : List Edge} (h : Alternates high (l ++ .up :: m)) :
    Alternates false l := by
  induction m using List.reverseRecOn generalizing high with
  | nil =>
    obtain ⟨hl, hup⟩ := h.concat
    rw [hup.mpr rfl] at hl
    exact hl
  | append_singleton m e ih =>
    rw [← List.cons_append, ← List.append_assoc] at h
    exact ih h.concat.1

def edgesOf (l : List (κ × Edge)) (k : κ) : List Edge :=
  l.filterMap fun x => if x.1 = k then some x.2 else none

@[simp] theorem edgesOf_append (l m : List (κ × Edge)) (k : κ) :
    edgesOf (l ++ m) k = edgesOf l k ++ edgesOf m k := List.filterMap_append

/-- The edges of every key follow its count. -/
def Follows (count : κ → Nat) (edges : List (κ × Edge)) : Prop :=
  ∀ k, Alternates (decide (0 < count k)) (edgesOf edges k)

theorem follows_nil : Follows (fun _ : κ => 0) [] := fun _ => Alternates.nil

/-- Edges that begin with one up, where there are any, can be taken off again. -/
theorem Follows.take_off {count : κ → Nat} {l m : List (κ × Edge)} (h : Follows count (l ++ m))
    (hm : ∀ k, (edgesOf m k).head? = some .up ∨ edgesOf m k = [] ∧ count k = 0) :
    Follows (fun _ => 0) l := by
  intro k
  have hk := h k
  rw [edgesOf_append] at hk
  rcases hm k with hup | ⟨hnil, hzero⟩
  · obtain ⟨m', hm'⟩ := List.head?_eq_some_iff.mp hup
    exact (hm' ▸ hk).before_up
  · rwa [hnil, hzero, List.append_nil] at hk

theorem edgesOf_singleton_ne {k k' : κ} {e : Edge} (h : k' ≠ k) : edgesOf [(k', e)] k = [] := by
  simp [edgesOf, h]

theorem edgesOf_singleton_self (k : κ) (e : Edge) : edgesOf [(k, e)] k = [e] := by
  simp [edgesOf]

theorem Follows.acquire {count : κ → Nat} {edges : List (κ × Edge)} (h : Follows count edges) (k : κ) :
    Follows (Function.update count k (count k + 1))
      (edges ++ if count k = 0 then [(k, .up)] else []) := by
  intro k'
  have hk' := h k'
  by_cases hk : k' = k
  · subst hk
    rw [Function.update_self, edgesOf_append]
    by_cases hzero : count k' = 0
    · rw [if_pos hzero, edgesOf_singleton_self]
      simp only [hzero] at hk' ⊢
      exact Alternates.up hk'
    · rw [if_neg hzero]
      simpa [edgesOf, Nat.pos_of_ne_zero hzero] using hk'
  · rw [Function.update_of_ne hk, edgesOf_append]
    have hnone : edgesOf (if count k = 0 then [(k, Edge.up)] else []) k' = [] := by
      split
      · exact edgesOf_singleton_ne (Ne.symm hk)
      · rfl
    rw [hnone, List.append_nil]
    exact hk'

theorem Follows.release {count : κ → Nat} {edges : List (κ × Edge)} (h : Follows count edges) {k : κ}
    (hpos : 0 < count k) :
    Follows (Function.update count k (count k - 1))
      (edges ++ if count k = 1 then [(k, .down)] else []) := by
  intro k'
  have hk' := h k'
  by_cases hk : k' = k
  · subst hk
    rw [Function.update_self, edgesOf_append]
    by_cases hone : count k' = 1
    · rw [if_pos hone, edgesOf_singleton_self]
      simp only [hone] at hk' ⊢
      exact Alternates.down hk'
    · have hmore : 0 < count k' - 1 := by omega
      rw [if_neg hone]
      simpa [edgesOf, hpos, hmore] using hk'
  · rw [Function.update_of_ne hk, edgesOf_append]
    have hnone : edgesOf (if count k = 1 then [(k, Edge.down)] else []) k' = [] := by
      split
      · exact edgesOf_singleton_ne (Ne.symm hk)
      · rfl
    rw [hnone, List.append_nil]
    exact hk'

end Tally
