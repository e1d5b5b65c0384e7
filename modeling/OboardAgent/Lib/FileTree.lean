import Mathlib.Data.List.Infix
import OboardAgent.Lib.GoMap

/-!
# File trees

A path is the list of its components, so that `filepath.Join` appends and `filepath.Dir` drops the
last one; a directory is above another path exactly when it is a prefix of it. A tree says what is
at a path. `copyAll` is a loop that writes a copy of something in each round, and may skip a round
or fail in it.
-/

namespace Files

abbrev Path := List String

inductive Node where
  | dir
  | file (data : List UInt8)
  | link (target : Path)
  | special
  deriving DecidableEq

abbrev Tree := GoMap Path Node

namespace Tree

variable {t src dst out : Tree} {p q : Path} {n : Node}

/-- `os.RemoveAll`. -/
def removeAll (p : Path) (t : Tree) : Tree := GoMap.filterMap (fun q n => if p <+: q then none else some n) t

theorem lookup_removeAll : (t.removeAll p).lookup q = if p <+: q then none else t.lookup q := by
  unfold removeAll
  rw [GoMap.lookup_filterMap]
  split_ifs
  · exact Option.bind_fun_none _
  · exact Option.bind_fun_some _

/-- `os.Remove`: a directory that is not empty stays. -/
def remove (p : Path) (t : Tree) : Tree :=
  if t.entries.any fun e => decide (p <+: e.1) && decide (e.1 ≠ p) then t else t.erase p

theorem lookup_remove_of_ne (h : q ≠ p) : (t.remove p).lookup q = t.lookup q := by
  unfold remove
  split_ifs
  · rfl
  · exact AList.lookup_erase_ne h

theorem lookup_of_remove (h : (t.remove p).lookup q = some n) : t.lookup q = some n := by
  unfold remove at h
  split_ifs at h
  · exact h
  · exact GoMap.lookup_of_erase h

theorem lookup_remove_self (h : ∀ q n, t.lookup q = some n → p <+: q → q = p) :
    (t.remove p).lookup p = none := by
  unfold remove
  rw [if_neg]
  · exact AList.lookup_erase p t
  · rw [List.any_eq_true]
    rintro ⟨⟨q, n⟩, hmem, hbelow⟩
    rw [Bool.and_eq_true, decide_eq_true_eq, decide_eq_true_eq] at hbelow
    exact hbelow.2 (h q n (AList.mem_lookup_iff.mpr hmem) hbelow.1)

/-- `os.MkdirAll`. -/
def mkdirAll (dir : Path) (t : Tree) : Tree :=
  dir.inits.foldl (fun t p => if (t.lookup p).isSome then t else t.insert p .dir) t

theorem lookup_mkdirAll {dir : Path} (h : ¬q <+: dir) : (t.mkdirAll dir).lookup q = t.lookup q := by
  have hfold : ∀ (l : List Path) (t : Tree), q ∉ l →
      (l.foldl (fun t p => if (t.lookup p).isSome then t else t.insert p .dir) t).lookup q = t.lookup q := by
    intro l
    induction l with
    | nil => exact fun _ _ => rfl
    | cons p rest ih =>
      intro t hq
      obtain ⟨hp, hrest⟩ := not_or.mp (mt List.mem_cons.mpr hq)
      rw [List.foldl_cons, ih _ hrest]
      split_ifs
      · rfl
      · exact AList.lookup_insert_ne hp
  exact hfold _ t fun hmem => h ((List.mem_inits q dir).mp hmem)

/-! ## Loops that copy -/

section Copy

variable {ι : Type} {f : ι → Option (Option (Path × Node))} {l : List ι}

/-- One round of a loop that copies: it fails, or it skips the item, or it writes an entry. -/
def visit (f : ι → Option (Option (Path × Node))) (dst : Tree) (i : ι) : Option Tree :=
  (f i).map fun written =>
    match written with
    | some (q, n) => dst.insert q n
    | none => dst

/-- A loop that copies into `dst`. -/
def copyAll (f : ι → Option (Option (Path × Node))) (l : List ι) (dst : Tree) :
    Option Tree := l.foldlM (visit f) dst

/-- An entry that a loop writes. -/
def Writes (f : ι → Option (Option (Path × Node))) (l : List ι) (q : Path) (n : Node) : Prop :=
  ∃ i ∈ l, f i = some (some (q, n))

theorem visit_eq_some {i : ι} :
    visit f dst i = some out ↔
      (f i = some none ∧ out = dst) ∨ ∃ q n, f i = some (some (q, n)) ∧ out = dst.insert q n := by
  unfold visit
  cases f i with
  | none => simp
  | some written =>
    cases written with
    | none => simp [eq_comm]
    | some w => simp [Prod.ext_iff, eq_comm]

theorem copyAll_exists_iff : (∃ out, copyAll f l dst = some out) ↔ ∀ i ∈ l, (f i).isSome := by
  unfold copyAll
  induction l generalizing dst with
  | nil => simp
  | cons i rest ih =>
    simp only [List.foldlM_cons, Option.bind_eq_bind, List.forall_mem_cons]
    cases hvisit : f i with
    | none => simp [visit, hvisit]
    | some written => simp [visit, hvisit, ih]

/-- **What is at a path after the loop** is what the loop writes there, or what was there before, if
no two items write different entries at one path. -/
theorem lookup_copyAll (h : copyAll f l dst = some out)
    (hfunction : ∀ q n n', Writes f l q n → Writes f l q n' → n = n') :
    out.lookup q = some n ↔ Writes f l q n ∨ ((∀ n', ¬Writes f l q n') ∧ dst.lookup q = some n) := by
  induction l generalizing dst with
  | nil =>
    cases h
    simp [Writes]
  | cons i rest ih =>
    obtain ⟨mid, hhead, hrest⟩ := Option.bind_eq_some_iff.mp h
    have hcons : ∀ {q n}, Writes f (i :: rest) q n ↔ f i = some (some (q, n)) ∨ Writes f rest q n := by
      simp [Writes]
    have hfunctionRest : ∀ q n n', Writes f rest q n → Writes f rest q n' → n = n' :=
      fun q n n' hn hn' => hfunction q n n' (hcons.mpr (Or.inr hn)) (hcons.mpr (Or.inr hn'))
    rw [ih hrest hfunctionRest, hcons]
    simp only [hcons, not_or]
    rcases visit_eq_some.mp hhead with ⟨hskip, rfl⟩ | ⟨q', n', hwrite, rfl⟩
    · simp [hskip]
    · by_cases hq : q = q'
      · subst hq
        -- The item writes at `q`; whatever else writes there writes the same.
        have hsame : ∀ {m}, Writes f rest q m → n' = m :=
          fun hm => hfunction q _ _ (hcons.mpr (Or.inl hwrite)) (hcons.mpr (Or.inr hm))
        rw [GoMap.lookup_insert_eq, if_pos rfl, hwrite]
        constructor
        · rintro (hn | ⟨-, hn⟩)
          · exact Or.inl (Or.inr hn)
          · exact Or.inl (Or.inl (by rw [Option.some.inj hn]))
        · rintro ((hn | hn) | ⟨hnone, -⟩)
          · have hn : n' = n := congrArg Prod.snd (Option.some.inj (Option.some.inj hn))
            by_cases hrest : ∃ m, Writes f rest q m
            · obtain ⟨m, hm⟩ := hrest
              rw [← hn, hsame hm]
              exact Or.inl hm
            · exact Or.inr ⟨not_exists.mp hrest, congrArg some hn⟩
          · exact Or.inl hn
          · exact absurd rfl (hnone n').1
      · have hhere : ∀ m, f i ≠ some (some (q, m)) := by
          intro m hm
          rw [hwrite] at hm
          exact hq (congrArg Prod.fst (Option.some.inj (Option.some.inj hm))).symm
        simp [hq, hhere]

theorem lookup_copyAll_empty (h : copyAll f l ∅ = some out)
    (hfunction : ∀ q n n', Writes f l q n → Writes f l q n' → n = n') :
    out.lookup q = some n ↔ Writes f l q n := by
  rw [lookup_copyAll h hfunction]
  simp

end Copy

end Tree

end Files
