import Mathlib.Data.List.Basic

/-!
# Slices that share their array

A Go slice is a reference: a struct that holds one and is passed by value still points to the
caller's array. So that this shows, a slice here is the address of an array in a memory, and what a
function does to it, it does to the memory. Only slices of a whole array occur.
-/

namespace GoSlice

variable {α : Type}

/-- The arrays, by address. -/
abbrev Memory (α : Type) := List (List α)

structure Slice where
  addr : Nat
deriving DecidableEq, Repr

def Valid (m : Memory α) (s : Slice) : Prop := s.addr < m.length

instance (m : Memory α) (s : Slice) : Decidable (Valid m s) := inferInstanceAs (Decidable (_ < _))

def read (m : Memory α) (s : Slice) : List α := m[s.addr]?.getD []

/-- `for i := range s { s[i] = f(s[i]) }`. -/
def update (f : α → α) (m : Memory α) (s : Slice) : Memory α := m.modify s.addr (List.map f)

def alloc (m : Memory α) (xs : List α) : Memory α × Slice := (m ++ [xs], ⟨m.length⟩)

variable {m : Memory α} {s t : Slice} {xs : List α} {f : α → α}

@[simp] theorem read_update : read (update f m s) s = (read m s).map f := by
  unfold read update
  rw [List.getElem?_modify_eq]
  cases m[s.addr]? <;> rfl

@[simp] theorem valid_update : Valid (update f m t) s ↔ Valid m s := by
  unfold Valid update
  rw [List.length_modify]

theorem read_alloc (h : Valid m s) : read (alloc m xs).1 s = read m s := by
  unfold read alloc
  rw [List.getElem?_append_left h]

theorem read_update_other (h : s ≠ t) : read (update f m t) s = read m s := by
  have hne : t.addr ≠ s.addr := by
    intro heq
    cases s
    cases t
    exact h (congrArg Slice.mk heq.symm)
  unfold read update
  rw [List.getElem?_modify_ne _ _ hne]

end GoSlice
