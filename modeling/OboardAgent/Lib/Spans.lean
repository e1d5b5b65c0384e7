import Mathlib.Order.Basic
import Mathlib.Data.List.Basic
import Mathlib.Data.Int.Order.Basic

/-!
# Chains of spans

A meter that only grows is accounted in *spans*: from one reading to a later one. A list of spans,
newest first, is a *chain* when every span starts where the one before it ended, the first at the
start of the meter. The end of the newest span is the *tip* of the chain.

Two facts make a chain a correct account: its spans are disjoint (`Chain.pairwise`), and up to the
end of any of its spans nothing is missing (`Chain.covers`). Readings may be vectors, such as two
counters that are read together: the order is a partial one, and coverage is said for each
coordinate, a function into the integers.
-/

/-- From one reading to a later one. -/
@[ext] structure Span (α : Type) where
  lo : α
  hi : α
deriving DecidableEq, Repr

namespace Span

variable {α : Type}

/-- Where a list of spans, newest first, has come to. -/
def tip (start : α) : List (Span α) → α
  | [] => start
  | s :: _ => s.hi

/-- Every span starts where the one before it ended. -/
def Chain [LE α] (start : α) : List (Span α) → Prop
  | [] => True
  | s :: l => s.lo = tip start l ∧ s.lo ≤ s.hi ∧ Chain start l

theorem tip_mem (start : α) (l : List (Span α)) :
    tip start l = start ∨ ∃ s ∈ l, s.hi = tip start l := by
  cases l with
  | nil => exact Or.inl rfl
  | cons s l => exact Or.inr ⟨s, List.mem_cons_self, rfl⟩

section
variable [PartialOrder α] {start : α} {l : List (Span α)}

section

variable (h : Chain start l)
include h

theorem Chain.hi_le_tip : ∀ s ∈ l, s.hi ≤ tip start l := by
  induction l with
  | nil => exact nofun
  | cons t l ih =>
    intro s hs
    cases List.mem_cons.mp hs with
    | inl heq => exact heq ▸ le_refl _
    | inr hmem => exact ((ih h.2.2 s hmem).trans (le_of_eq h.1.symm)).trans h.2.1

/-- A later span starts where an earlier one has ended, or after that. -/
theorem Chain.pairwise : l.Pairwise fun newer older => older.hi ≤ newer.lo := by
  induction l with
  | nil => exact List.Pairwise.nil
  | cons t l ih =>
    refine List.Pairwise.cons ?_ (ih h.2.2)
    intro s hs
    exact (h.2.2.hi_le_tip s hs).trans (le_of_eq h.1.symm)

theorem Chain.lo_cases : ∀ s ∈ l, s.lo = start ∨ ∃ t ∈ l, t.hi = s.lo := by
  induction l with
  | nil => exact nofun
  | cons t l ih =>
    intro s hs
    cases List.mem_cons.mp hs with
    | inl heq =>
      subst heq
      cases tip_mem start l with
      | inl hstart => exact Or.inl (h.1.trans hstart)
      | inr hprev =>
        obtain ⟨u, hu, hhi⟩ := hprev
        exact Or.inr ⟨u, List.mem_cons_of_mem _ hu, hhi.trans h.1.symm⟩
    | inr hmem =>
      refine (ih h.2.2 s hmem).imp id ?_
      rintro ⟨u, hu, hhi⟩
      exact ⟨u, List.mem_cons_of_mem _ hu, hhi⟩

theorem Chain.covers_tip (f : α → Int) {x : Int} (hx : f start ≤ x)
    (hlt : x < f (tip start l)) : ∃ s ∈ l, f s.lo ≤ x ∧ x < f s.hi := by
  induction l with
  | nil => exact absurd hlt (not_lt_of_ge hx)
  | cons t l ih =>
    by_cases hin : f t.lo ≤ x
    · exact ⟨t, List.mem_cons_self, hin, hlt⟩
    · have hbefore : x < f (tip start l) := by
        rw [← h.1]
        exact lt_of_not_ge hin
      obtain ⟨s, hs, hcov⟩ := ih h.2.2 hbefore
      exact ⟨s, List.mem_cons_of_mem _ hs, hcov⟩

theorem Chain.covers (f : α → Int) {s : Span α} (hs : s ∈ l) {x : Int}
    (hx : f start ≤ x) (hlt : x < f s.hi) : ∃ t ∈ l, f t.lo ≤ x ∧ x < f t.hi := by
  induction l with
  | nil => cases hs
  | cons t l ih =>
    cases List.mem_cons.mp hs with
    | inl heq =>
      subst heq
      exact h.covers_tip f hx hlt
    | inr hmem =>
      obtain ⟨u, hu, hcov⟩ := ih h.2.2 hmem
      exact ⟨u, List.mem_cons_of_mem _ hu, hcov⟩

end

end

end Span
