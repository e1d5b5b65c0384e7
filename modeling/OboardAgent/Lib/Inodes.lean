import Mathlib.Logic.Function.Basic

/-!
# Names of files

A file may have several names (hard links). Renaming one name of a file onto another one of the same
file changes nothing, so a name says which file it is of and not only what is in it.
-/

namespace Inodes

structure File where
  inode : Nat
  data : List UInt8
  deriving DecidableEq, Repr

/-- The files by name, and a number above those of all files. -/
structure Store (P : Type) where
  files : P → Option File
  next : Nat

namespace Store

variable {P : Type} [DecidableEq P] {s t : Store P} {p q old new : P} {f : File}

def WellFormed (s : Store P) : Prop := ∀ p f, s.files p = some f → f.inode < s.next

def set (s : Store P) (p : P) (f : Option File) : Store P := { s with files := Function.update s.files p f }

@[simp] theorem set_self (s : Store P) (p : P) (f : Option File) :
    (s.set p f).files p = f := Function.update_self ..

theorem set_of_ne (h : q ≠ p) (f : Option File) :
    (s.set p f).files q = s.files q := Function.update_of_ne h ..

def create (s : Store P) (p : P) (data : List UInt8) :
    Store P := ⟨Function.update s.files p (some ⟨s.next, data⟩), s.next + 1⟩

@[simp] theorem create_self (s : Store P) (p : P) (data : List UInt8) :
    (s.create p data).files p = some ⟨s.next, data⟩ :=
  Function.update_self ..

theorem create_of_ne (h : q ≠ p) (data : List UInt8) :
    (s.create p data).files q = s.files q := Function.update_of_ne h ..

/-- `os.Remove`. -/
def remove (s : Store P) (p : P) : Store P := s.set p none

@[simp] theorem remove_self (s : Store P) (p : P) : (s.remove p).files p = none := s.set_self p none

theorem remove_of_ne (h : q ≠ p) : (s.remove p).files q = s.files q := set_of_ne h none

/-- `os.Link`. -/
def link (s : Store P) (old new : P) : Option (Store P) :=
  match s.files old with
  | none => none
  | some f => if (s.files new).isSome then none else some (s.set new (some f))

/-- `os.Rename`. -/
def rename (s : Store P) (old new : P) : Option (Store P) :=
  match s.files old with
  | none => none
  | some f =>
    if (s.files new).map File.inode = some f.inode then some s else some ((s.set new (some f)).set old none)

theorem link_some (h : s.link old new = some t) : ∃ f, s.files old = some f ∧ t = s.set new (some f) := by
  unfold link at h
  cases hold : s.files old with
  | none =>
    rw [hold] at h
    exact nomatch h
  | some f =>
    rw [hold] at h
    dsimp only at h
    split at h
    · exact nomatch h
    · exact ⟨f, rfl, (Option.some.inj h).symm⟩

theorem rename_eq (hold : s.files old = some f) (hother : ∀ g, s.files new = some g → g.inode ≠ f.inode) :
    s.rename old new = some ((s.set new (some f)).set old none) := by
  rw [rename, hold]
  dsimp only
  rw [if_neg]
  intro hsame
  obtain ⟨g, hg, hinode⟩ := Option.map_eq_some_iff.mp hsame
  exact hother g hg hinode

/-- What is where after a file was moved to another name. -/
structure Moved (s : Store P) (old new : P) (f : File) (t : Store P) : Prop where
  arrived : t.files new = some f
  gone : t.files old = none
  others : ∀ p, p ≠ old → p ≠ new → t.files p = s.files p

theorem rename_moves (hne : old ≠ new) (hold : s.files old = some f)
    (hother : ∀ g, s.files new = some g → g.inode ≠ f.inode) :
    ∃ t, s.rename old new = some t ∧ Moved s old new f t := by
  refine ⟨_, rename_eq hold hother, ?_, set_self _ _ _, ?_⟩
  · rw [set_of_ne hne.symm, set_self]
  · intro p hp hp'
    rw [set_of_ne hp, set_of_ne hp']

end Store
end Inodes
