import Mathlib.Algebra.BigOperators.Group.Finset.Basic
import Mathlib.Algebra.BigOperators.Intervals
import Mathlib.Data.List.Count

/-!
# Logs that are acknowledged from the front

A meter that is reported by its total, and acknowledged by a total, is a log: every unit that was
metered is an item, labelled with what it was metered for, and an acknowledgement of `v` covers
the first `v` items. What is still `pending` under a label is then a count over a list, and it is
this count that a program which only keeps totals has to get right.

The totals agree with the log as long as all pending items have one label (`Uniform`): then the
count is the difference of two totals.
-/

structure AckLog (τ : Type) where
  items : List τ := []
  acked : Nat := 0

namespace AckLog

variable {τ : Type}

/-- The items no acknowledgement has covered. -/
def pending (l : AckLog τ) : List τ := l.items.drop l.acked

def push (l : AckLog τ) (n : Nat) (label : τ) : AckLog τ :=
  { l with items := l.items ++ List.replicate n label }

/-- An acknowledgement of the first `v` items; it takes none back. -/
def ack (l : AckLog τ) (v : Nat) : AckLog τ := { l with acked := max l.acked v }

variable {l : AckLog τ}

theorem ack_of_le {v : Nat} (h : v ≤ l.acked) : l.ack v = l := by
  simp [ack, Nat.max_eq_left h]

theorem pending_push (h : l.acked ≤ l.items.length) (n : Nat) (label : τ) :
    (l.push n label).pending = l.pending ++ List.replicate n label :=
  List.drop_append_of_le_length h

theorem mem_pending {x : τ} (h : x ∈ l.pending) : x ∈ l.items :=
  List.mem_of_mem_drop h

theorem pending_ack_subset {v : Nat} : (l.ack v).pending ⊆ l.pending := by
  have hdrop : (l.ack v).pending = l.pending.drop (max l.acked v - l.acked) := by
    simp only [pending, ack, List.drop_drop]
    congr 1
    omega
  rw [hdrop]
  exact List.drop_subset _ _

/-- All pending items have one label. -/
def Uniform (l : AckLog τ) (label : τ) : Prop := ∀ x ∈ l.pending, x = label

theorem Uniform.push {label : τ} (h : l.Uniform label)
    (hle : l.acked ≤ l.items.length) (n : Nat) : (l.push n label).Uniform label := by
  intro x hx
  rw [pending_push hle, List.mem_append] at hx
  cases hx with
  | inl hold => exact h x hold
  | inr hnew => exact List.eq_of_mem_replicate hnew

theorem Uniform.ack {label : τ} (h : l.Uniform label) (v : Nat) : (l.ack v).Uniform label :=
  fun x hx => h x (pending_ack_subset hx)

theorem uniform_of_settled (h : l.items.length ≤ l.acked) (label : τ) : l.Uniform label := by
  intro x hx
  rw [pending, List.drop_eq_nil_of_le h] at hx
  cases hx

variable [BEq τ] [LawfulBEq τ]

theorem Uniform.count_eq {label : τ} (h : l.Uniform label) :
    l.pending.count label = l.items.length - l.acked := by
  rw [List.count_eq_length.mpr fun x hx => (h x hx).symm, pending, List.length_drop]

theorem Uniform.count_other {label other : τ} (h : l.Uniform label)
    (hne : other ≠ label) : l.pending.count other = 0 :=
  List.count_eq_zero.mpr fun hmem => hne (h other hmem)

theorem count_pending_push [DecidableEq τ] (h : l.acked ≤ l.items.length) (n : Nat)
    (label other : τ) : (l.push n label).pending.count other
      = l.pending.count other + if other = label then n else 0 := by
  rw [pending_push h, List.count_append, List.count_replicate]
  by_cases hlabel : other = label
  · simp [hlabel]
  · simp [hlabel, Ne.symm hlabel]

end AckLog

theorem Finset.sum_range_change {f g : Nat → Nat} {n e : Nat} (he : e < n)
    (h : ∀ i, i ≠ e → g i = f i) :
    ((∑ i ∈ range n, g i : Nat) : Int) = (∑ i ∈ range n, f i : Nat) + ((g e : Int) - f e) := by
  have hmem : e ∈ range n := mem_range.mpr he
  have hrest : ∑ i ∈ (range n).erase e, g i = ∑ i ∈ (range n).erase e, f i :=
    sum_congr rfl fun i hi => h i (ne_of_mem_erase hi)
  have hg := add_sum_erase (range n) g hmem
  have hf := add_sum_erase (range n) f hmem
  omega
