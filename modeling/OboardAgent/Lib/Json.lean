import Mathlib.Data.String.Basic
import OboardAgent.Lib.GoMap

/-!
# JSON values

What `encoding/json` makes of a text: an object is a map, so the order of its members and the white
space around them are gone, and a number keeps its digits (`UseNumber`). Objects are lists sorted by
name, so that equality of values is equality of what was read; `Canonical` says it of a whole value.
`json.Marshal` writes the members in that order, one text for each value.
-/

inductive Json where
  | null
  | bool (b : Bool)
  | num (digits : String)
  | str (s : String)
  | arr (items : List Json)
  | obj (members : List ((_ : String) × Json))

namespace Json

abbrev Members := List ((_ : String) × Json)

/-- The members are sorted by name, and so no name comes twice. -/
def Sorted (m : Members) : Prop := m.Pairwise fun a b => a.1 < b.1

inductive Canonical : Json → Prop
  | null : Canonical .null
  | bool (b : Bool) : Canonical (.bool b)
  | num (digits : String) : Canonical (.num digits)
  | str (s : String) : Canonical (.str s)
  | arr {items : List Json} (h : ∀ item ∈ items, Canonical item) : Canonical (.arr items)
  | obj {m : Members} (hsorted : Sorted m) (h : ∀ e ∈ m, Canonical e.2) : Canonical (.obj m)

/-! ## Reading -/

/-- The member of an object; other values have none. -/
def get (j : Json) (name : String) : Option Json :=
  match j with
  | .obj m => m.dlookup name
  | _ => none

/-- `v.(string)`, or the empty string. -/
def text : Option Json → String
  | some (.str s) => s
  | _ => ""

/-- `v.(map[string]any)`, or the nil map. -/
def members : Option Json → Members
  | some (.obj m) => m
  | _ => []

/-- `v.([]any)`, or the nil slice. -/
def items : Option Json → List Json
  | some (.arr l) => l
  | _ => []

/-! ## Members -/

/-- `m[name] = v`. -/
def insert (name : String) (v : Json) : Members → Members
  | [] => [⟨name, v⟩]
  | ⟨other, w⟩ :: rest =>
    if name < other then ⟨name, v⟩ :: ⟨other, w⟩ :: rest
    else if name = other then ⟨name, v⟩ :: rest
    else ⟨other, w⟩ :: insert name v rest

/-- The members that `f` makes of members. -/
def collect (f : String → Json → Option Json) (m : Members) : Members := GoMap.filterMapEntries f m

/-- The member is changed in place, if there is one. -/
def modify (name : String) (f : Json → Json) (m : Members) : Members :=
  collect (fun k v => some (if k = name then f v else v)) m

/-- An object, and nothing when it would be empty. -/
def object (m : Members) : Option Json := if m.isEmpty then none else some (.obj m)

/-- A member that is written unless it would be an empty object. -/
def putObject (name : String) (inner m : Members) : Members :=
  if inner.isEmpty then m else insert name (.obj inner) m

/-- A member that is an object and was changed in place; it is deleted when it has become empty. -/
def keepObject (name : String) (inner m : Members) : Members :=
  if inner.isEmpty then m.kerase name else modify name (fun _ => .obj inner) m

theorem Sorted.nodupKeys {m : Members} (h : Sorted m) : m.NodupKeys :=
  List.nodupKeys_iff_pairwise.mpr (h.imp ne_of_lt)

/-- **Objects are equal exactly when they have the same members.** -/
theorem Sorted.eq_iff {m n : Members} (hm : Sorted m) (hn : Sorted n) :
    m = n ↔ ∀ name, m.dlookup name = n.dlookup name := by
  refine ⟨fun h name => by rw [h], fun h => ?_⟩
  have hperm : m.Perm n := List.lookup_ext hm.nodupKeys hn.nodupKeys fun name v => by rw [h name]
  exact hperm.eq_of_pairwise (fun a b _ _ hab hba => absurd hab (not_lt.mpr (le_of_lt hba))) hm hn

section Lookup

variable {m : Members} {name other : String} {v : Json}

theorem dlookup_insert : (insert name v m).dlookup other = if other
    = name then some v else m.dlookup other := by
  have hcons : ∀ rest : Members, List.dlookup other (⟨name, v⟩ :: rest) = if other = name
      then some v else rest.dlookup other := by
    intro rest
    split_ifs with h
    · subst h
      exact List.dlookup_cons_eq _ _ _
    · exact List.dlookup_cons_ne _ _ h
  fun_induction insert name v m with
  | case1 => exact hcons []
  | case2 head w rest hlt => exact hcons _
  | case3 w rest hlt =>
    rw [hcons]
    split_ifs with h
    · rfl
    · rw [List.dlookup_cons_ne _ _ h]
  | case4 head w rest hlt hne ih =>
    by_cases hhead : other = head
    · subst hhead
      rw [List.dlookup_cons_eq, List.dlookup_cons_eq, if_neg (Ne.symm hne)]
    · rw [List.dlookup_cons_ne _ _ hhead, List.dlookup_cons_ne _ _ hhead, ih]

theorem mem_insert {a : (_ : String) × Json} (h : a ∈ insert name v m) : a = ⟨name, v⟩ ∨ a ∈ m := by
  fun_induction insert name v m with
  | case1 => exact Or.inl (List.mem_singleton.mp h)
  | case2 head w rest hlt => exact List.mem_cons.mp h
  | case3 w rest hlt => exact (List.mem_cons.mp h).imp_right (List.mem_cons_of_mem _)
  | case4 head w rest hlt hne ih =>
    rcases List.mem_cons.mp h with h | h
    · exact Or.inr (h ▸ List.mem_cons_self)
    · exact (ih h).imp_right (List.mem_cons_of_mem _)

section

variable (h : Sorted m)
include h

theorem Sorted.insert : Sorted (insert name v m) := by
  fun_induction Json.insert name v m with
  | case1 => exact List.pairwise_singleton _ _
  | case2 head w rest hlt =>
    refine List.Pairwise.cons ?_ h
    intro a ha
    rcases List.mem_cons.mp ha with rfl | ha
    · exact hlt
    · exact hlt.trans (List.rel_of_pairwise_cons h ha)
  | case3 w rest hlt => exact List.Pairwise.cons (fun a ha =>
    List.rel_of_pairwise_cons h ha) (List.Pairwise.of_cons h)
  | case4 head w rest hlt hne ih =>
    refine List.Pairwise.cons ?_ (ih (List.Pairwise.of_cons h))
    intro a ha
    rcases mem_insert ha with rfl | ha
    · exact lt_of_le_of_ne (not_lt.mp hlt) (Ne.symm hne)
    · exact List.rel_of_pairwise_cons h ha

theorem Sorted.erase : Sorted (m.kerase name) :=
  List.Pairwise.sublist (List.kerase_sublist name _) h

theorem dlookup_erase :
    (m.kerase name).dlookup other = if other = name then none else m.dlookup other := by
  by_cases hother : other = name
  · subst hother
    rw [if_pos rfl, List.dlookup_kerase _ h.nodupKeys]
  · rw [if_neg hother, List.dlookup_kerase_ne hother]

theorem Sorted.collect {f : String → Json → Option Json} : Sorted (collect f m) :=
  List.pairwise_map.mp ((List.pairwise_map.mpr h).sublist (GoMap.keys_filterMapEntries f m))

theorem dlookup_collect {f : String → Json → Option Json} :
    (collect f m).dlookup name = (m.dlookup name).bind (f name) :=
  GoMap.dlookup_filterMapEntries f name h.nodupKeys

theorem Sorted.modify {f : Json → Json} : Sorted (modify name f m) := h.collect

theorem dlookup_modify {f : Json → Json} :
    (modify name f m).dlookup other = if other = name then (m.dlookup other).map f else m.dlookup other := by
  unfold modify
  rw [dlookup_collect h]
  by_cases hother : other = name
  · simp only [hother, if_true]
    exact (Option.map_eq_bind).symm
  · simp only [hother, if_false]
    exact Option.bind_fun_some _

end

end Lookup

/-! ## Members that are objects -/

section Object

variable {m inner : Members} {name other : String}

theorem object_inj {inner' : Members} : object inner = object inner' ↔ inner = inner' := by
  cases inner <;> cases inner' <;> simp [object]

theorem members_object : members (object inner) = inner := by
  cases inner <;> rfl

theorem dlookup_putObject (h : m.dlookup name = none) :
    (putObject name inner m).dlookup other = if other = name then object inner else m.dlookup other := by
  unfold putObject object
  cases inner with
  | nil =>
    by_cases hother : other = name
    · subst hother
      simp [h]
    · simp [hother]
  | cons e rest => exact dlookup_insert

theorem Sorted.putObject (h : Sorted m) : Sorted (putObject name inner m) := by
  unfold Json.putObject
  split
  · exact h
  · exact h.insert

theorem dlookup_keepObject {v : Json} (hsorted : Sorted m) (h : m.dlookup name = some v) :
    (keepObject name inner m).dlookup other = if other = name then object inner else m.dlookup other := by
  unfold keepObject object
  cases inner with
  | nil => exact dlookup_erase hsorted
  | cons e rest =>
    refine (dlookup_modify hsorted).trans ?_
    by_cases hother : other = name
    · subst hother
      simp [h]
    · simp [hother]

theorem Sorted.keepObject (h : Sorted m) : Sorted (keepObject name inner m) := by
  unfold Json.keepObject
  split
  · exact h.erase
  · exact h.modify

end Object

/-! ## Canonical values -/

theorem canonical_obj_iff {m : Members} :
    (obj m).Canonical ↔ Sorted m ∧ ∀ name j, m.dlookup name = some j → j.Canonical := by
  constructor
  · intro h
    cases h with
    | obj hsorted hmembers => exact ⟨hsorted, fun name j hj => hmembers ⟨name, j⟩ (List.of_mem_dlookup hj)⟩
  · rintro ⟨hsorted, hmembers⟩
    refine .obj hsorted fun e he => ?_
    obtain ⟨name, j⟩ := e
    exact hmembers name j ((List.mem_dlookup_iff hsorted.nodupKeys).mpr he)

theorem canonical_members {v : Option Json} (h : ∀ j, v = some j → j.Canonical) :
    Sorted (members v) ∧ ∀ name j, (members v).dlookup name = some j → j.Canonical := by
  unfold members
  split
  · next m => exact canonical_obj_iff.mp (h (.obj m) rfl)
  · exact ⟨List.Pairwise.nil, fun name j hj => by cases hj⟩

section Update

variable {m inner : Members} {name : String}

section

variable (h : (Json.obj m).Canonical)
include h

theorem Canonical.erase : (Json.obj (m.kerase name)).Canonical := by
  obtain ⟨hsorted, hmembers⟩ := canonical_obj_iff.mp h
  refine canonical_obj_iff.mpr ⟨hsorted.erase, fun other j hj => hmembers other j ?_⟩
  rw [dlookup_erase hsorted] at hj
  split_ifs at hj
  exact hj

theorem Canonical.collect {f : String → Json → Option Json}
    (hf : ∀ k v w, v.Canonical → f k v = some w → w.Canonical) : (Json.obj (Json.collect f m)).Canonical := by
  obtain ⟨hsorted, hmembers⟩ := canonical_obj_iff.mp h
  refine canonical_obj_iff.mpr ⟨hsorted.collect, fun other j hj => ?_⟩
  rw [dlookup_collect hsorted] at hj
  obtain ⟨v, hv, hvj⟩ := Option.bind_eq_some_iff.mp hj
  exact hf other v j (hmembers other v hv) hvj

theorem Canonical.modify {f : Json → Json}
    (hf : ∀ v, v.Canonical → (f v).Canonical) : (Json.obj (Json.modify name f m)).Canonical := by
  refine h.collect fun k v w hv hw => ?_
  cases hw
  split_ifs
  · exact hf v hv
  · exact hv

theorem Canonical.keepObject (hinner : (Json.obj inner).Canonical) :
    (Json.obj (Json.keepObject name inner m)).Canonical := by
  unfold Json.keepObject
  split_ifs
  · exact h.erase
  · exact h.modify fun _ _ => hinner

end

end Update

end Json
