import OboardAgent.Lib.Json

/-!
# The operational digest of a kernel configuration

`normalizeOperationalCoreConfig` of the agent (`internal/agent/core_runtime.go`) and
`NormalizeOperationalConfig` of the kernel (`minibox/operational_digest.go`): the configuration
without the data that is changed at runtime. Both sides hash what is left, and the agent restarts
the kernel when the two differ.

`SameOperational` says, member by member, when two configurations differ in runtime data only. The
theorem compares the two. They come apart over the users of the declared inbounds: the code collects
their names from the configuration itself and drops the rate limits of these, and when there are
none, of all users. So a user who is listed in one configuration only is dropped from one normal
form only.
-/

namespace OboardAgent.Core

open Json (Members Sorted text members items)

/-! ## The normal form -/

def runtimeOnlyCoreMetadataKeys : List String := ["connection_audit", "authorization"]

def runtimeOnlyMetadataKeys : List String := ["connection_audit", "authorization"]

def nonEmptyText (v : Option Json) : Option String := if text v = "" then none else some (text v)

def declaredTags (metadata : Members) : List String :=
  (items ((members (metadata.dlookup "runtime_users")).dlookup "inbounds")).filterMap fun raw =>
    nonEmptyText (some raw)

def isDeclared (tags : List String) (inbound : Json) : Bool := tags.contains (text (inbound.get "tag"))

def isDeclaredSelector (tags : List String) (outbound : Json) : Bool :=
  text (outbound.get "type") = "user-selector" &&
    tags.any fun tag => text (outbound.get "tag") = "userselector-" ++ tag

def deleteUsers (p : Json → Bool) (j : Json) : Json :=
  match j with
  | .obj m => if p (.obj m) then .obj (m.kerase "users") else .obj m
  | j => j

def onItems (f : Json → Json) (j : Json) : Json :=
  match j with
  | .arr l => .arr (l.map f)
  | j => j

def declaredUserNames (tags : List String) (root : Members) : List String :=
  ((items (root.dlookup "inbounds")).filter (isDeclared tags)).flatMap fun inbound =>
    (items (inbound.get "users")).filterMap fun user => nonEmptyText (user.get "name")

def deleteLimits (names : List String) (limits : Json) : Json :=
  match limits with
  | .obj l =>
    match l.dlookup "users" with
    | some (.obj users) =>
      if names.isEmpty then .obj (l.kerase "users")
      else .obj (Json.keepObject "users"
        (Json.collect (fun name v => if name ∈ names then none else some v) users) l)
    | _ => .obj l
  | j => j

def stripRuntimeUserFields (root metadata : Members) : Members × Members :=
  let tags := declaredTags metadata
  if tags.isEmpty then (root, metadata)
  else
    let names := declaredUserNames tags root
    (Json.modify "outbounds" (onItems (deleteUsers (isDeclaredSelector tags)))
        (Json.modify "inbounds" (onItems (deleteUsers (isDeclared tags))) root),
      Json.modify "rate_limits" (deleteLimits names) metadata)

def identityFields : List String :=
  ["user_id", "inbound_id", "path_id", "device_id_hash", "credential_epoch", "credential_status"]

def installedIdentity (entry : Json) (key : String) : Json :=
  .obj (identityFields.foldl (fun out field =>
    match entry.get field with
    | some v => Json.insert field v out
    | none => out) [⟨"authorization_key", .str key⟩])

def installedKeys (entries : Members) : Members :=
  Json.collect (fun _ entry => (nonEmptyText (entry.get "authorization_key")).map
    (installedIdentity entry)) entries

def limitEntries (metadata : Members) (group : String) : Members :=
  members ((members (metadata.dlookup "rate_limits")).dlookup group)

def installedGroups (metadata : Members) : Members :=
  ["users", "inbounds"].foldl (fun out group =>
    Json.putObject group (installedKeys (limitEntries metadata group)) out) []

def retainInstalledKeys (metadata : Members) : Members :=
  Json.putObject "rate_limits" (installedGroups metadata) (metadata.kerase "rate_limits")

def operationalMetadata (runtimeOnly : List String) (root metadata : Members) : Members :=
  runtimeOnly.foldl (fun m key => m.kerase key) (retainInstalledKeys (stripRuntimeUserFields root metadata).2)

def normalizeWith (runtimeOnly : List String) (root : Members) : Members :=
  match root.dlookup "_oboard" with
  | some (.obj metadata) =>
    Json.keepObject "_oboard" (operationalMetadata runtimeOnly root metadata)
      (stripRuntimeUserFields root metadata).1
  | _ => root

def normalizeOperationalCoreConfig : Members → Members := normalizeWith runtimeOnlyCoreMetadataKeys

/-- `NormalizeOperationalConfig` of the kernel. -/
def normalizeOperationalConfig : Members → Members := normalizeWith runtimeOnlyMetadataKeys

/-- A kernel configuration: a JSON object. -/
structure Config where
  root : Members
  canonical : (Json.obj root).Canonical

/-- `operationalCoreConfigDigest`; `hash` is SHA-256 of the JSON. -/
def operationalCoreConfigDigest {α : Type} (hash : Json → α) (c : Config) : α :=
  hash (.obj (normalizeOperationalCoreConfig c.root))

/-- `OperationalConfigDigest` of the kernel. -/
def operationalConfigDigest {α : Type} (hash : Json → α) (c : Config) : α :=
  hash (.obj (normalizeOperationalConfig c.root))

/-! ## Runtime data -/

namespace Config

variable (c d : Config)

def metadata : Members := members (c.root.dlookup "_oboard")

def tags : List String := declaredTags c.metadata

def names : List String := declaredUserNames c.tags c.root

def bindingOf (entry : Json) : Option (String × List (Option Json)) :=
  (nonEmptyText (entry.get "authorization_key")).map fun key => (key, identityFields.map entry.get)

def binding (group name : String) : Option (String × List (Option Json)) :=
  ((limitEntries c.metadata group).dlookup name).bind bindingOf

def SameButUsers (p q : Json → Bool) (i j : Json) : Prop :=
  i = j ∨ (p i = true ∧ q j = true ∧ ∀ name, name ≠ "users" → i.get name = j.get name)

def SameItems (r : Json → Json → Prop) (v w : Option Json) : Prop :=
  v = w ∨ ∃ l l', v = some (.arr l) ∧ w = some (.arr l') ∧ List.Forall₂ r l l'

def Odd : Prop := ∃ v, c.root.dlookup "_oboard" = some v ∧ ∀ m, v ≠ .obj m

/-- The configurations agree in everything but runtime data and the bindings of users. -/
structure SameRest : Prop where
  others : ∀ name, name ≠ "inbounds" → name ≠ "outbounds" → name ≠ "_oboard" →
    c.root.dlookup name = d.root.dlookup name
  inbounds : SameItems (SameButUsers (isDeclared c.tags) (isDeclared d.tags))
    (c.root.dlookup "inbounds") (d.root.dlookup "inbounds")
  outbounds : SameItems (SameButUsers (isDeclaredSelector c.tags) (isDeclaredSelector d.tags))
    (c.root.dlookup "outbounds") (d.root.dlookup "outbounds")
  odd : c.Odd ∨ d.Odd → c.root.dlookup "_oboard" = d.root.dlookup "_oboard"
  metadata : ∀ name, name ≠ "rate_limits" → name ≠ "connection_audit" → name ≠ "authorization" →
    c.metadata.dlookup name = d.metadata.dlookup name
  inboundBindings : ∀ name, c.binding "inbounds" name = d.binding "inbounds" name

/-- The users that neither configuration lists on a declared inbound are bound in the same way. -/
def SameUsers : Prop := ∀ name, name ∉ c.names → name ∉ d.names →
  c.binding "users" name = d.binding "users" name

def SameOperational : Prop := c.SameRest d ∧ c.SameUsers d

/-- It declares an inbound and lists no user of a declared one. -/
def Blind : Prop := c.tags ≠ [] ∧ c.names = []

/-- The user is bound, and the binding is part of the normal form. -/
def Retains (name : String) : Prop :=
  ¬c.Blind ∧ name ∉ c.names ∧ c.binding "users" name ≠ none

/-- The names that the code collects make no difference between the two. -/
structure Harmless : Prop where
  /-- When they bind the same users, the normal forms keep the same bindings. -/
  ignored : c.SameUsers d → ∀ name, c.Retains name ↔ d.Retains name
  /-- When they do not, a normal form that keeps none is compared with one that keeps some. -/
  noticed : ¬c.SameUsers d →
    (c.Blind → ∃ name, d.Retains name) ∧ (d.Blind → ∃ name, c.Retains name)

end Config

/-! ## Users -/

structure Scope (p : Json → Bool) : Prop where
  object : ∀ j, p j = true → ∃ m, j = .obj m
  erase : ∀ m, p (.obj (m.kerase "users")) = p (.obj m)

variable {metadata : Members}

theorem ne_empty_of_mem_declaredTags {tag : String} (h : tag ∈ declaredTags metadata) :
    tag ≠ "" := by
  obtain ⟨raw, -, hraw⟩ := List.mem_filterMap.mp h
  unfold nonEmptyText at hraw
  split_ifs at hraw with hempty
  cases hraw
  exact hempty

theorem get_erase_users {m : Members} {name : String} (h : name ≠ "users") :
    (Json.obj (m.kerase "users")).get name = (Json.obj m).get name := List.dlookup_kerase_ne h

theorem scope_isDeclared {tags : List String} (h : ∀ tag ∈ tags, tag ≠ "") : Scope (isDeclared tags) where
  object j hj := by
    cases j with
    | obj m => exact ⟨m, rfl⟩
    | _ => exact absurd rfl (h "" (List.contains_iff_mem.mp hj))
  erase m := by
    unfold isDeclared
    rw [get_erase_users (by decide)]

theorem scope_isDeclaredSelector (tags : List String) : Scope (isDeclaredSelector tags) where
  object j hj := by
    cases j with
    | obj m => exact ⟨m, rfl⟩
    | _ => cases hj
  erase m := by
    unfold isDeclaredSelector
    rw [get_erase_users (by decide), get_erase_users (by decide)]

theorem deleteUsers_of_not {p : Json → Bool} {j : Json} (h : p j = false) : deleteUsers p j = j := by
  cases j with
  | obj m => exact if_neg (by rw [h]; decide)
  | _ => rfl

theorem deleteUsers_obj {p : Json → Bool} {m : Members} (h : p (.obj m) = true) :
    deleteUsers p (.obj m) = .obj (m.kerase "users") := if_pos h

namespace Scope

variable {p : Json → Bool} (hp : Scope p)

include hp

theorem deleteUsers_iff (j : Json) : p (deleteUsers p j) = p j := by
  rcases Bool.eq_false_or_eq_true (p j) with h | h
  · obtain ⟨m, rfl⟩ := hp.object j h
    rw [deleteUsers_obj h, hp.erase]
  · rw [deleteUsers_of_not h]

theorem deleteUsers_eq_iff {i j : Json} (hi : i.Canonical) (hj : j.Canonical) :
    deleteUsers p i = deleteUsers p j ↔ Config.SameButUsers p p i j := by
  constructor
  · intro h
    have hpicked : p i = p j := by rw [← hp.deleteUsers_iff i, h, hp.deleteUsers_iff j]
    rcases Bool.eq_false_or_eq_true (p i) with hpi | hpi
    · have hpj := hpicked ▸ hpi
      obtain ⟨m, rfl⟩ := hp.object i hpi
      obtain ⟨n, rfl⟩ := hp.object j hpj
      rw [deleteUsers_obj hpi, deleteUsers_obj hpj] at h
      refine Or.inr ⟨hpi, hpj, fun name hname => ?_⟩
      rw [← get_erase_users hname, h, get_erase_users hname]
    · rw [deleteUsers_of_not hpi, deleteUsers_of_not (hpicked ▸ hpi)] at h
      exact Or.inl h
  · rintro (rfl | ⟨hpi, hpj, h⟩)
    · rfl
    · obtain ⟨m, rfl⟩ := hp.object i hpi
      obtain ⟨n, rfl⟩ := hp.object j hpj
      have hm := (Json.canonical_obj_iff.mp hi).1
      have hn := (Json.canonical_obj_iff.mp hj).1
      rw [deleteUsers_obj hpi, deleteUsers_obj hpj]
      refine congrArg Json.obj ((hm.erase.eq_iff hn.erase).mpr fun name => ?_)
      rw [Json.dlookup_erase hm, Json.dlookup_erase hn]
      split_ifs with hname
      · rfl
      · exact h name hname

end Scope

theorem map_onItems_eq_iff {f : Json → Json} {r : Json → Json → Prop}
    (hf : ∀ i j, i.Canonical → j.Canonical → (f i = f j ↔ r i j)) {v w : Option Json}
    (hv : ∀ j, v = some j → j.Canonical) (hw : ∀ j, w = some j → j.Canonical) :
    v.map (onItems f) = w.map (onItems f) ↔ Config.SameItems r v w := by
  have hitems : ∀ l l' : List Json, (∀ i ∈ l, i.Canonical) → (∀ j ∈ l', j.Canonical) →
      (l.map f = l'.map f ↔ List.Forall₂ r l l') := by
    intro l l' hl hl'
    induction l generalizing l' with
    | nil => cases l' <;> simp
    | cons i l ih =>
      cases l' with
      | nil => simp
      | cons j l' =>
        have htail := ih l' (fun a ha => hl a (List.mem_cons_of_mem _ ha)) fun a ha =>
            hl' a (List.mem_cons_of_mem _ ha)
        simp only [List.map_cons, List.cons.injEq, List.forall₂_cons, htail,
          hf i j (hl i List.mem_cons_self) (hl' j List.mem_cons_self)]
  have harr : ∀ {l}, (Json.arr l).Canonical → ∀ i ∈ l, i.Canonical := by
    intro l h
    cases h with
    | arr h => exact h
  constructor
  · intro h
    rcases v with _ | v
    · rcases w with _ | w
      · exact Or.inl rfl
      · cases h
    · rcases w with _ | w
      · cases h
      · have h : onItems f v = onItems f w := Option.some.inj h
        cases v with
        | arr l =>
          cases w with
          | arr l' =>
            refine Or.inr ⟨l, l', rfl, rfl, (hitems l l' (harr (hv _ rfl)) (harr (hw _ rfl))).mp ?_⟩
            exact Json.arr.inj h
          | _ => cases h
        | _ =>
          cases w with
          | arr l' => cases h
          | _ => exact Or.inl (congrArg some h)
  · rintro (rfl | ⟨l, l', rfl, rfl, h⟩)
    · rfl
    · exact congrArg (fun l => some (Json.arr l)) ((hitems l l' (harr (hv _ rfl)) (harr (hw _ rfl))).mpr h)

theorem map_onItems_of_not {p : Json → Bool} (h : ∀ j, p j = false) (v : Option Json) :
    v.map (onItems (deleteUsers p)) = v := by
  have hid : deleteUsers p = id := funext fun j => deleteUsers_of_not (h j)
  rw [hid]
  cases v with
  | none => rfl
  | some j => cases j <;> simp [onItems]

/-! ## Bindings -/

theorem identity_spec (entry : Json) (fields : List String) {base : Members} (h : Sorted base) :
    let out := fields.foldl (fun out field =>
      match entry.get field with
      | some v => Json.insert field v out
      | none => out) base
    Sorted out ∧ ∀ name, out.dlookup name =
      if name ∈ fields then (entry.get name).or (base.dlookup name) else base.dlookup name := by
  induction fields generalizing base with
  | nil => exact ⟨h, fun _ => rfl⟩
  | cons field rest ih =>
    rw [List.foldl_cons]
    cases hentry : entry.get field with
    | none =>
      refine ⟨(ih h).1, fun name => ((ih h).2 name).trans ?_⟩
      by_cases hfield : name = field
      · simp [hfield, hentry]
      · simp [hfield]
    | some v =>
      refine ⟨(ih h.insert).1, fun name => ((ih h.insert).2 name).trans ?_⟩
      by_cases hfield : name = field
      · simp [hfield, hentry, Json.dlookup_insert]
      · simp [hfield, Json.dlookup_insert]

theorem installedIdentity_eq_iff {entry entry' : Json} {key key' : String} :
    installedIdentity entry key = installedIdentity entry' key' ↔
      key = key' ∧ identityFields.map entry.get = identityFields.map entry'.get := by
  have hbase : ∀ key : String, Sorted [⟨"authorization_key", Json.str key⟩] := fun key =>
      List.pairwise_singleton _ _
  have hspec := fun entry key => identity_spec entry identityFields (hbase key)
  have hfields : ∀ field ∈ identityFields, field ≠ "authorization_key" := by decide
  unfold installedIdentity
  rw [Json.obj.injEq]
  constructor
  · intro h
    have hlookup := fun name => congrArg (List.dlookup name) h
    simp only [(hspec _ _).2] at hlookup
    refine ⟨?_, List.map_inj_left.mpr fun field hfield => ?_⟩
    · have hkey := hlookup "authorization_key"
      rw [if_neg (by decide), if_neg (by decide), List.dlookup_cons_eq, List.dlookup_cons_eq] at hkey
      exact Json.str.inj (Option.some.inj hkey)
    · have hvalue := hlookup field
      rw [if_pos hfield, if_pos hfield, List.dlookup_cons_ne _ _ (hfields field hfield),
        List.dlookup_cons_ne _ _ (hfields field hfield)] at hvalue
      simpa using hvalue
  · rintro ⟨rfl, h⟩
    refine ((hspec entry key).1.eq_iff (hspec entry' key).1).mpr fun name => ?_
    rw [(hspec entry key).2, (hspec entry' key).2]
    split_ifs with hname
    · rw [List.map_inj_left.mp h name hname]
    · rfl

theorem sorted_installedKeys {entries : Members} (h : Sorted entries) :
    Sorted (installedKeys entries) := h.collect

theorem dlookup_installedKeys {entries : Members} (h : Sorted entries) (name : String) :
    (installedKeys entries).dlookup name = (entries.dlookup name).bind fun entry =>
      (nonEmptyText (entry.get "authorization_key")).map (installedIdentity entry) := Json.dlookup_collect h

theorem bind_installedIdentity_eq_iff (o o' : Option Json) :
    (o.bind fun entry => (nonEmptyText (entry.get "authorization_key")).map (installedIdentity entry)) =
        (o'.bind fun entry => (nonEmptyText (entry.get "authorization_key")).map (installedIdentity entry)) ↔
      o.bind Config.bindingOf = o'.bind Config.bindingOf := by
  unfold Config.bindingOf
  rcases o with _ | entry <;> rcases o' with _ | entry' <;> simp only [Option.bind_none, Option.bind_some]
  · cases nonEmptyText (entry'.get "authorization_key") <;> simp
  · cases nonEmptyText (entry.get "authorization_key") <;> simp
  · cases nonEmptyText (entry.get "authorization_key") <;>
      cases nonEmptyText (entry'.get "authorization_key") <;> simp [installedIdentity_eq_iff]

theorem installedKeys_eq_iff {entries entries' : Members} (h : Sorted entries) (h' : Sorted entries') :
    installedKeys entries = installedKeys entries' ↔
      ∀ name, (entries.dlookup name).bind Config.bindingOf
        = (entries'.dlookup name).bind Config.bindingOf := by
  rw [(sorted_installedKeys h).eq_iff (sorted_installedKeys h')]
  simp only [dlookup_installedKeys h, dlookup_installedKeys h', bind_installedIdentity_eq_iff]

/-! ## Metadata -/

theorem dlookup_installedGroups (metadata : Members) (name : String) :
    (installedGroups metadata).dlookup name =
      if name = "inbounds" then Json.object (installedKeys (limitEntries metadata "inbounds"))
      else if name = "users" then Json.object (installedKeys (limitEntries metadata "users")) else none := by
  unfold installedGroups
  rw [List.foldl_cons, List.foldl_cons, List.foldl_nil, Json.dlookup_putObject, Json.dlookup_putObject rfl]
  · rfl
  · rw [Json.dlookup_putObject rfl]
    rfl

theorem sorted_installedGroups (metadata : Members) : Sorted (installedGroups metadata) :=
  Sorted.putObject (Sorted.putObject List.Pairwise.nil)

theorem installedGroups_eq_iff {metadata' : Members} :
    installedGroups metadata = installedGroups metadata' ↔
      installedKeys (limitEntries metadata "users") = installedKeys (limitEntries metadata' "users") ∧
        installedKeys (limitEntries metadata "inbounds")
          = installedKeys (limitEntries metadata' "inbounds") := by
  constructor
  · intro h
    have husers := congrArg (List.dlookup "users") h
    have hinbounds := congrArg (List.dlookup "inbounds") h
    simp only [dlookup_installedGroups] at husers hinbounds
    exact ⟨Json.object_inj.mp husers, Json.object_inj.mp hinbounds⟩
  · rintro ⟨husers, hinbounds⟩
    refine ((sorted_installedGroups _).eq_iff (sorted_installedGroups _)).mpr fun name => ?_
    rw [dlookup_installedGroups, dlookup_installedGroups, husers, hinbounds]

theorem dlookup_retainInstalledKeys (h : Sorted metadata) (name : String) :
    (retainInstalledKeys metadata).dlookup name =
      if name = "rate_limits" then Json.object (installedGroups metadata) else metadata.dlookup name := by
  unfold retainInstalledKeys
  rw [Json.dlookup_putObject (by rw [Json.dlookup_erase h, if_pos rfl]), Json.dlookup_erase h]
  split_ifs <;> rfl

theorem sorted_retainInstalledKeys (h : Sorted metadata) :
    Sorted (retainInstalledKeys metadata) := h.erase.putObject

theorem dlookup_deleted {m : Members} (h : Sorted m) (keys : List String) (name : String) :
    (keys.foldl (fun m key => m.kerase key) m).dlookup name
      = if name ∈ keys then none else m.dlookup name := by
  induction keys generalizing m with
  | nil => rfl
  | cons key rest ih =>
    rw [List.foldl_cons, ih h.erase, Json.dlookup_erase h]
    by_cases hkey : name = key <;> simp [hkey]

theorem sorted_deleted {m : Members} (h : Sorted m) (keys : List String) :
    Sorted (keys.foldl (fun m key => m.kerase key) m) := by
  induction keys generalizing m with
  | nil => exact h
  | cons key rest ih => exact ih h.erase

theorem canonical_deleteLimits {names : List String} {limits : Json} (h : limits.Canonical) :
    (deleteLimits names limits).Canonical := by
  unfold deleteLimits
  split
  · next l =>
    split
    · next users husers =>
      split_ifs
      · exact h.erase
      · refine h.keepObject ((((Json.canonical_obj_iff.mp h).2 "users" _ husers)).collect
          fun k v w hv hw => ?_)
        split_ifs at hw
        cases hw
        exact hv
    · exact h
  · exact h

theorem dlookup_deleteLimits {names : List String} {limits : Json} (h : limits.Canonical)
    (group name : String) :
    (members ((deleteLimits names limits).get group)).dlookup name =
      if group = "users" ∧ (names = [] ∨ name ∈ names) then none
      else (members (limits.get group)).dlookup name := by
  cases limits with
  | obj l =>
    obtain ⟨hsorted, hmembers⟩ := Json.canonical_obj_iff.mp h
    unfold deleteLimits
    dsimp only
    split
    · next users husers =>
      have hentries := (Json.canonical_obj_iff.mp (hmembers "users" _ husers)).1
      by_cases hgroup : group = "users"
      · subst hgroup
        cases names with
        | nil => simp [Json.get, Json.dlookup_erase hsorted, members]
        | cons n names =>
          rw [if_neg (by simp)]
          simp only [Json.get, Json.dlookup_keepObject hsorted husers, if_true, Json.members_object,
            Json.dlookup_collect hentries]
          rw [husers]
          by_cases hname : name ∈ n :: names <;> simp [hname, members]
      · simp only [hgroup, false_and, if_false]
        split_ifs
        · simp [Json.get, Json.dlookup_erase hsorted, hgroup]
        · simp [Json.get, Json.dlookup_keepObject hsorted husers, hgroup]
    · next hnone =>
      by_cases hgroup : group = "users"
      · subst hgroup
        have hempty : members (l.dlookup "users") = [] := by
          unfold members
          split
          · next m hm => exact absurd hm (hnone m)
          · rfl
        simp [Json.get, hempty]
      · simp only [hgroup, false_and, if_false]
  | _ => simp [deleteLimits, Json.get, members]

section Strip

variable {root metadata : Members} (h : (Json.obj metadata).Canonical)

include h

theorem canonical_strip : (Json.obj (stripRuntimeUserFields root metadata).2).Canonical := by
  unfold stripRuntimeUserFields
  dsimp only
  split_ifs
  · exact h
  · exact h.modify fun v hv => canonical_deleteLimits hv

theorem dlookup_strip {name : String} (hname : name ≠ "rate_limits") :
    (stripRuntimeUserFields root metadata).2.dlookup name = metadata.dlookup name := by
  unfold stripRuntimeUserFields
  dsimp only
  split_ifs
  · rfl
  · exact (Json.dlookup_modify (Json.canonical_obj_iff.mp h).1).trans (if_neg hname)

theorem dlookup_limitEntries_strip (group name : String) :
    (limitEntries (stripRuntimeUserFields root metadata).2 group).dlookup name =
      if group = "users" ∧ declaredTags metadata ≠ [] ∧
          (declaredUserNames (declaredTags metadata) root = [] ∨
            name ∈ declaredUserNames (declaredTags metadata) root)
        then none
      else (limitEntries metadata group).dlookup name := by
  obtain ⟨hsorted, hmembers⟩ := Json.canonical_obj_iff.mp h
  unfold stripRuntimeUserFields
  by_cases htags : declaredTags metadata = []
  · simp [htags]
  · rw [if_neg (by simpa using htags)]
    simp only [htags, ne_eq, not_false_eq_true, true_and, limitEntries, Json.dlookup_modify hsorted, if_true]
    cases hlimits : metadata.dlookup "rate_limits" with
    | none => simp [members]
    | some limits =>
      have hget : ∀ j : Json, (members (some j)).dlookup group = j.get group := fun j => by cases j <;> rfl
      rw [Option.map_some, hget, hget, dlookup_deleteLimits (hmembers _ _ hlimits)]

omit h in
theorem sorted_limitEntries (h : (Json.obj metadata).Canonical) (group : String) :
    Sorted (limitEntries metadata group) := by
  obtain ⟨-, hmembers⟩ := Json.canonical_obj_iff.mp h
  exact (Json.canonical_members fun j hj => (Json.canonical_members fun j hj => hmembers _ j hj).2 _ j hj).1

theorem dlookup_operationalMetadata (name : String) :
    (operationalMetadata runtimeOnlyCoreMetadataKeys root metadata).dlookup name =
      if name ∈ runtimeOnlyCoreMetadataKeys then none
      else if name = "rate_limits" then
        Json.object (installedGroups (stripRuntimeUserFields root metadata).2)
      else metadata.dlookup name := by
  have hstripped : (Json.obj (stripRuntimeUserFields root metadata).2).Canonical := canonical_strip h
  have hsorted := (Json.canonical_obj_iff.mp hstripped).1
  unfold operationalMetadata
  rw [dlookup_deleted (sorted_retainInstalledKeys hsorted), dlookup_retainInstalledKeys hsorted]
  split_ifs with hruntime hlimits
  · rfl
  · rfl
  · exact dlookup_strip h hlimits

theorem sorted_operationalMetadata :
    Sorted (operationalMetadata runtimeOnlyCoreMetadataKeys root metadata) :=
  sorted_deleted (sorted_retainInstalledKeys (Json.canonical_obj_iff.mp (canonical_strip h)).1) _

end Strip

/-! ## The root -/

def stripMember (tags : List String) (name : String) : Json → Json :=
  if name = "inbounds" then onItems (deleteUsers (isDeclared tags))
  else if name = "outbounds" then onItems (deleteUsers (isDeclaredSelector tags))
  else id

theorem map_stripMember_nil (name : String) (v : Option Json) : v.map (stripMember [] name) = v := by
  unfold stripMember
  split_ifs
  · exact map_onItems_of_not (fun _ => rfl) v
  · exact map_onItems_of_not (fun j => by simp [isDeclaredSelector]) v
  · exact congrFun Option.map_id v

theorem dlookup_strip_root {root : Members} (metadata : Members) (h : Sorted root) (name : String) :
    (stripRuntimeUserFields root metadata).1.dlookup name =
      (root.dlookup name).map (stripMember (declaredTags metadata) name) := by
  unfold stripRuntimeUserFields
  dsimp only
  split_ifs with htags
  · rw [List.isEmpty_iff.mp htags, map_stripMember_nil]
  · rw [Json.dlookup_modify h.modify, Json.dlookup_modify h]
    unfold stripMember
    by_cases hin : name = "inbounds"
    · subst hin
      simp
    · by_cases hout : name = "outbounds"
      · subst hout
        simp
      · simp [hin, hout]

theorem sorted_strip_root {root : Members} (metadata : Members) (h : Sorted root) :
    Sorted (stripRuntimeUserFields root metadata).1 := by
  unfold stripRuntimeUserFields
  dsimp only
  split_ifs
  · exact h
  · exact h.modify.modify

namespace Config

variable (c d : Config)

theorem sorted_root : Sorted c.root := (Json.canonical_obj_iff.mp c.canonical).1

theorem canonical_of_root (name : String) : ∀ j, c.root.dlookup name = some j → j.Canonical :=
  fun j => (Json.canonical_obj_iff.mp c.canonical).2 name j

theorem canonical_metadata : (Json.obj c.metadata).Canonical :=
  Json.canonical_obj_iff.mpr (Json.canonical_members (c.canonical_of_root "_oboard"))

def left : Members := operationalMetadata runtimeOnlyCoreMetadataKeys c.root c.metadata

variable {c d}

theorem left_of_no_metadata (h : c.metadata = []) : c.left = [] := by
  unfold left
  rw [h]
  rfl

theorem tags_of_no_metadata (h : c.metadata = []) : c.tags = [] := by
  unfold tags
  rw [h]
  rfl

variable (c) in
theorem normal_cases :
    (c.Odd ∧ c.metadata = [] ∧ normalizeOperationalCoreConfig c.root = c.root) ∨
    (¬ c.Odd ∧ Sorted (normalizeOperationalCoreConfig c.root) ∧
      ∀ name, (normalizeOperationalCoreConfig c.root).dlookup name =
        if name = "_oboard" then Json.object c.left else (c.root.dlookup name).map
          (stripMember c.tags name)) := by
  by_cases h : ∃ m, c.root.dlookup "_oboard" = some (.obj m)
  · obtain ⟨m, hm⟩ := h
    have hmetadata : c.metadata = m := congrArg members hm
    have hnormal : normalizeOperationalCoreConfig c.root =
        Json.keepObject "_oboard" c.left (stripRuntimeUserFields c.root c.metadata).1 := by
      unfold normalizeOperationalCoreConfig normalizeWith left
      rw [hm, hmetadata]
    have hsorted := sorted_strip_root c.metadata c.sorted_root
    have hroot := dlookup_strip_root c.metadata c.sorted_root
    refine Or.inr ⟨?_, ?_, fun name => ?_⟩
    · rintro ⟨v, hv, hobj⟩
      exact hobj m (Option.some.inj (hv.symm.trans hm))
    · rw [hnormal]
      exact hsorted.keepObject
    · rw [hnormal, Json.dlookup_keepObject hsorted ((hroot _).trans (congrArg _ hm)), hroot]
      rfl
  · obtain ⟨hnormal, hmetadata⟩ : normalizeOperationalCoreConfig c.root = c.root ∧ c.metadata = [] := by
      unfold normalizeOperationalCoreConfig normalizeWith metadata members
      constructor
      all_goals
        split
        · next m hm => exact absurd ⟨m, hm⟩ h
        · rfl
    cases hv : c.root.dlookup "_oboard" with
    | some v => exact Or.inl ⟨⟨v, hv, fun m hobj => h ⟨m, hobj ▸ hv⟩⟩, hmetadata, hnormal⟩
    | none =>
      refine Or.inr ⟨?_, hnormal.symm ▸ c.sorted_root, fun name => ?_⟩
      · rintro ⟨v, hsome, -⟩
        cases hv.symm.trans hsome
      · rw [hnormal, left_of_no_metadata hmetadata, tags_of_no_metadata hmetadata, map_stripMember_nil]
        split_ifs with hname
        · exact hname ▸ hv
        · rfl

theorem sorted_normal : Sorted (normalizeOperationalCoreConfig c.root) := by
  obtain ⟨-, -, hnormal⟩ | ⟨-, hsorted, -⟩ := c.normal_cases
  · exact hnormal.symm ▸ c.sorted_root
  · exact hsorted

variable {name : String}

theorem dlookup_normal (hname : name ≠ "_oboard") :
    (normalizeOperationalCoreConfig c.root).dlookup name = (c.root.dlookup name).map
      (stripMember c.tags name) := by
  obtain ⟨-, hmetadata, hnormal⟩ | ⟨-, -, hlookup⟩ := c.normal_cases
  · rw [hnormal, tags_of_no_metadata hmetadata, map_stripMember_nil]
  · rw [hlookup, if_neg hname]

theorem oboard_eq_iff :
    (normalizeOperationalCoreConfig c.root).dlookup "_oboard" =
        (normalizeOperationalCoreConfig d.root).dlookup "_oboard" ↔
      (c.Odd ∨ d.Odd → c.root.dlookup "_oboard" = d.root.dlookup "_oboard") ∧ c.left = d.left := by
  have hobject : ∀ {e e' : Config}, e.Odd → e.root.dlookup "_oboard" ≠ Json.object e'.left := by
    rintro e e' ⟨v, hv, hobj⟩ heq
    rw [hv] at heq
    unfold Json.object at heq
    split_ifs at heq
    exact hobj _ (Option.some.inj heq)
  have hodd : ∀ {e e' : Config}, e.Odd → e.root.dlookup "_oboard" = e'.root.dlookup "_oboard" → e'.Odd :=
    fun ⟨v, hv, hobj⟩ heq => ⟨v, heq ▸ hv, hobj⟩
  obtain ⟨hc, hcempty, hcnormal⟩ | ⟨hc, -, hclookup⟩ := c.normal_cases <;>
    obtain ⟨hd, hdempty, hdnormal⟩ | ⟨hd, -, hdlookup⟩ := d.normal_cases
  · rw [hcnormal, hdnormal, left_of_no_metadata hcempty, left_of_no_metadata hdempty]
    exact ⟨fun h => ⟨fun _ => h, rfl⟩, fun h => h.1 (Or.inl hc)⟩
  · rw [hcnormal, hdlookup, if_pos rfl]
    exact ⟨fun h => absurd h (hobject hc), fun h => absurd (hodd hc (h.1 (Or.inl hc))) hd⟩
  · rw [hclookup, if_pos rfl, hdnormal]
    exact ⟨fun h => absurd h.symm (hobject hd), fun h => absurd (hodd hd (h.1 (Or.inr hd)).symm) hc⟩
  · rw [hclookup, hdlookup, if_pos rfl, if_pos rfl, Json.object_inj]
    exact ⟨fun h => ⟨fun hor => absurd hor (not_or.mpr ⟨hc, hd⟩), h⟩, And.right⟩

/-! ## Bindings that are kept -/

variable (c d) in
def kept (name : String) : Option (String × List (Option Json)) :=
  ((limitEntries (stripRuntimeUserFields c.root c.metadata).2 "users").dlookup name).bind bindingOf

theorem kept_of_blind (h : c.Blind) : c.kept name = none := by
  unfold kept
  rw [dlookup_limitEntries_strip c.canonical_metadata, if_pos ⟨rfl, h.1, Or.inl h.2⟩]
  rfl

theorem kept_of_not_blind (h : ¬c.Blind) :
    c.kept name = if name ∈ c.names then none else c.binding "users" name := by
  have hnames : c.tags = [] → c.names = [] := by
    intro htags
    unfold names declaredUserNames
    rw [htags]
    simp [isDeclared]
  unfold kept
  rw [dlookup_limitEntries_strip c.canonical_metadata]
  by_cases hname : name ∈ c.names
  · have htags : c.tags ≠ [] := fun htags => by simp [hnames htags] at hname
    rw [if_pos ⟨rfl, htags, Or.inr hname⟩, if_pos hname]
    rfl
  · rw [if_neg hname, if_neg]
    · rfl
    · rintro ⟨-, htags, hblind⟩
      exact hblind.elim (fun hnone => h ⟨htags, hnone⟩) hname

theorem kept_ne_none_iff : c.kept name ≠ none ↔ c.Retains name := by
  by_cases hblind : c.Blind
  · simp [kept_of_blind hblind, Retains, hblind]
  · rw [kept_of_not_blind hblind]
    by_cases hname : name ∈ c.names
    · simp [Retains, hname]
    · simp [Retains, hblind, hname]

theorem Retains.kept_eq (h : c.Retains name) : c.kept name = c.binding "users" name := by
  rw [kept_of_not_blind h.1, if_neg h.2.1]

theorem binding_inbounds_eq (name : String) :
    ((limitEntries (stripRuntimeUserFields c.root c.metadata).2 "inbounds").dlookup name).bind bindingOf =
      c.binding "inbounds" name := by
  rw [dlookup_limitEntries_strip c.canonical_metadata, if_neg fun h => absurd h.1 (by decide)]
  rfl

theorem installedGroups_strip_eq_iff :
    installedGroups (stripRuntimeUserFields c.root c.metadata).2 =
        installedGroups (stripRuntimeUserFields d.root d.metadata).2 ↔
      (∀ name, c.kept name = d.kept name) ∧ ∀ name, c.binding "inbounds" name
        = d.binding "inbounds" name := by
  have hsorted : ∀ (e : Config) (group : String),
      Sorted (limitEntries (stripRuntimeUserFields e.root e.metadata).2 group) :=
    fun e group => sorted_limitEntries (canonical_strip e.canonical_metadata) group
  rw [installedGroups_eq_iff, installedKeys_eq_iff (hsorted c _) (hsorted d _),
    installedKeys_eq_iff (hsorted c _) (hsorted d _)]
  simp only [binding_inbounds_eq]
  rfl

theorem left_eq_iff :
    c.left = d.left ↔
      (∀ name, name ≠ "rate_limits" → name ≠ "connection_audit" → name ≠ "authorization" →
        c.metadata.dlookup name = d.metadata.dlookup name) ∧
      (∀ name, c.binding "inbounds" name = d.binding "inbounds" name) ∧
        ∀ name, c.kept name = d.kept name := by
  have hlookup : ∀ (e : Config) name, e.left.dlookup name = _ :=
    fun e name => dlookup_operationalMetadata e.canonical_metadata name
  have hkey : ∀ {name : String}, name ∈ runtimeOnlyCoreMetadataKeys ↔
      name = "connection_audit" ∨ name = "authorization" := by simp [runtimeOnlyCoreMetadataKeys]
  constructor
  · intro h
    have hinstalled : installedGroups (stripRuntimeUserFields c.root c.metadata).2 =
        installedGroups (stripRuntimeUserFields d.root d.metadata).2 := by
      have hlimits := congrArg (List.dlookup "rate_limits") h
      have hmem : "rate_limits" ∉ runtimeOnlyCoreMetadataKeys := by decide
      rw [hlookup, hlookup, if_neg hmem, if_neg hmem, if_pos rfl, if_pos rfl] at hlimits
      exact Json.object_inj.mp hlimits
    obtain ⟨hkept, hinbounds⟩ := installedGroups_strip_eq_iff.mp hinstalled
    refine ⟨fun name hlimits haudit hauthorization => ?_, hinbounds, hkept⟩
    have hname := congrArg (List.dlookup name) h
    have hmem : name ∉ runtimeOnlyCoreMetadataKeys := fun hmem => (hkey.mp hmem).elim haudit hauthorization
    rwa [hlookup, hlookup, if_neg hmem, if_neg hmem, if_neg hlimits, if_neg hlimits] at hname
  · rintro ⟨hothers, hinbounds, hkept⟩
    refine ((sorted_operationalMetadata c.canonical_metadata).eq_iff
      (sorted_operationalMetadata d.canonical_metadata)).mpr fun name => ?_
    refine (hlookup c name).trans (Eq.trans ?_ (hlookup d name).symm)
    split_ifs with hmem hlimits
    · rfl
    · rw [installedGroups_strip_eq_iff.mpr ⟨hkept, hinbounds⟩]
    · exact hothers name hlimits (fun haudit => hmem (hkey.mpr (Or.inl haudit)))
        fun hauthorization => hmem (hkey.mpr (Or.inr hauthorization))

/-! ## Equal normal forms -/

variable (c) in
theorem scope_inbounds : Scope (isDeclared c.tags) := scope_isDeclared fun _ => ne_empty_of_mem_declaredTags

theorem root_eq_iff (htags : c.tags = d.tags) :
    (∀ name, name ≠ "_oboard" → (normalizeOperationalCoreConfig c.root).dlookup name =
        (normalizeOperationalCoreConfig d.root).dlookup name) ↔
      (∀ name, name ≠ "inbounds" → name ≠ "outbounds" → name ≠ "_oboard" →
        c.root.dlookup name = d.root.dlookup name) ∧
      SameItems (SameButUsers (isDeclared c.tags) (isDeclared d.tags))
        (c.root.dlookup "inbounds") (d.root.dlookup "inbounds") ∧
      SameItems (SameButUsers (isDeclaredSelector c.tags) (isDeclaredSelector d.tags))
        (c.root.dlookup "outbounds") (d.root.dlookup "outbounds") := by
  have hin := map_onItems_eq_iff (fun i j hi hj => c.scope_inbounds.deleteUsers_eq_iff hi hj)
    (c.canonical_of_root "inbounds") (d.canonical_of_root "inbounds")
  have hout := map_onItems_eq_iff (fun i j hi hj =>
      (scope_isDeclaredSelector c.tags).deleteUsers_eq_iff hi hj)
    (c.canonical_of_root "outbounds") (d.canonical_of_root "outbounds")
  have hother : ∀ {name} (v : Option Json), name ≠ "inbounds" → name ≠ "outbounds" →
      v.map (stripMember c.tags name) = v := by
    intro name v hnin hnout
    unfold stripMember
    rw [if_neg hnin, if_neg hnout]
    exact congrFun Option.map_id v
  rw [← htags, ← hin, ← hout]
  constructor
  · intro h
    have h : ∀ name, name ≠ "_oboard" → (c.root.dlookup name).map (stripMember c.tags name) =
        (d.root.dlookup name).map (stripMember c.tags name) := by
      intro name hname
      rw [← dlookup_normal hname, h name hname, dlookup_normal hname, htags]
    refine ⟨fun name hnin hnout hname => ?_, h "inbounds" (by decide), h "outbounds" (by decide)⟩
    rw [← hother (c.root.dlookup name) hnin hnout, h name hname, hother _ hnin hnout]
  · rintro ⟨hothers, hinbounds, houtbounds⟩ name hname
    rw [dlookup_normal hname, dlookup_normal hname, ← htags]
    by_cases hnin : name = "inbounds"
    · subst hnin
      exact hinbounds
    · by_cases hnout : name = "outbounds"
      · subst hnout
        exact houtbounds
      · rw [hothers name hnin hnout hname]

theorem tags_eq_of_metadata (h : c.metadata.dlookup "runtime_users" = d.metadata.dlookup "runtime_users") :
    c.tags = d.tags := by
  unfold tags declaredTags
  rw [h]

/-- **Two configurations have one normal form exactly when they differ in runtime data only, and the
bindings of users that are kept are the same.** -/
theorem normal_eq_iff :
    normalizeOperationalCoreConfig c.root = normalizeOperationalCoreConfig d.root ↔
      c.SameRest d ∧ ∀ name, c.kept name = d.kept name := by
  constructor
  · intro h
    obtain ⟨hodd, hleft⟩ := oboard_eq_iff.mp (congrArg (List.dlookup "_oboard") h)
    obtain ⟨hmetadata, hinboundBindings, hkept⟩ := left_eq_iff.mp hleft
    have htags := tags_eq_of_metadata (hmetadata "runtime_users" (by decide) (by decide) (by decide))
    obtain ⟨hothers, hinbounds, houtbounds⟩ := (root_eq_iff htags).mp fun name _ =>
      congrArg (List.dlookup name) h
    exact ⟨⟨hothers, hinbounds, houtbounds, hodd, hmetadata, hinboundBindings⟩, hkept⟩
  · rintro ⟨hrest, hkept⟩
    have htags := tags_eq_of_metadata (hrest.metadata "runtime_users" (by decide) (by decide) (by decide))
    have hroot := (root_eq_iff htags).mpr ⟨hrest.others, hrest.inbounds, hrest.outbounds⟩
    have hoboard := oboard_eq_iff.mpr ⟨hrest.odd,
        left_eq_iff.mpr ⟨hrest.metadata, hrest.inboundBindings, hkept⟩⟩
    refine (sorted_normal.eq_iff sorted_normal).mpr fun name => ?_
    by_cases hname : name = "_oboard"
    · exact hname ▸ hoboard
    · exact hroot name hname

theorem harmless_iff : c.Harmless d ↔ ((∀ name, c.kept name = d.kept name) ↔ c.SameUsers d) := by
  constructor
  · intro h
    constructor
    · intro hkept
      by_contra hdiffer
      obtain ⟨hc, hd⟩ := h.noticed hdiffer
      have hsighted : ¬c.Blind ∧ ¬d.Blind := by
        constructor
        · intro hblind
          obtain ⟨name, hretains⟩ := hc hblind
          exact kept_ne_none_iff.mpr hretains ((hkept name).symm.trans (kept_of_blind hblind))
        · intro hblind
          obtain ⟨name, hretains⟩ := hd hblind
          exact kept_ne_none_iff.mpr hretains ((hkept name).trans (kept_of_blind hblind))
      refine hdiffer fun name hnc hnd => ?_
      have hname := hkept name
      rwa [kept_of_not_blind hsighted.1, kept_of_not_blind hsighted.2, if_neg hnc, if_neg hnd] at hname
    · intro hsame name
      have hboth := h.ignored hsame name
      by_cases hretains : c.Retains name
      · have hd := hboth.mp hretains
        rw [hretains.kept_eq, hd.kept_eq]
        exact hsame name hretains.2.1 hd.2.1
      · have hc := not_not.mp (mt kept_ne_none_iff.mp hretains)
        have hd := not_not.mp (mt kept_ne_none_iff.mp (mt hboth.mpr hretains))
        rw [hc, hd]
  · intro h
    refine ⟨fun hsame name => ?_, fun hdiffer => ?_⟩
    · rw [← kept_ne_none_iff, ← kept_ne_none_iff, h.mpr hsame name]
    · obtain ⟨name, hname⟩ := not_forall.mp (mt h.mp hdiffer)
      refine ⟨fun hblind => ⟨name, kept_ne_none_iff.mp ?_⟩, fun hblind => ⟨name, kept_ne_none_iff.mp ?_⟩⟩
      · rw [kept_of_blind hblind] at hname
        exact Ne.symm hname
      · rwa [kept_of_blind hblind] at hname

/-! ## The digest -/

/-- The digests ignore runtime data, and nothing else. -/
structure DigestExact {α : Type} (hash : Json → α) (c d : Config) : Prop where
  ignores : c.SameOperational d →
    operationalCoreConfigDigest hash c = operationalCoreConfigDigest hash d ∧
      operationalConfigDigest hash c = operationalCoreConfigDigest hash c ∧
      operationalConfigDigest hash d = operationalCoreConfigDigest hash d
  tells : ¬ c.SameOperational d →
    normalizeOperationalCoreConfig c.root ≠ normalizeOperationalCoreConfig d.root ∧
      normalizeOperationalConfig c.root ≠ normalizeOperationalConfig d.root

/-- **The digest is exact on a pair of configurations exactly when they differ elsewhere, or the
names collected from the lists of users make no difference.** -/
theorem digestExact_iff {α : Type} {hash : Json → α} (hhash : Function.Injective hash) (c d : Config) :
    DigestExact hash c d ↔ (c.SameRest d → c.Harmless d) := by
  have hdigest : operationalCoreConfigDigest hash c = operationalCoreConfigDigest hash d ↔
      normalizeOperationalCoreConfig c.root = normalizeOperationalCoreConfig d.root := by
    unfold operationalCoreConfigDigest
    rw [hhash.eq_iff, Json.obj.injEq]
  have hexact : DigestExact hash c d ↔
      (normalizeOperationalCoreConfig c.root = normalizeOperationalCoreConfig d.root ↔
        c.SameOperational d) := by
    constructor
    · exact fun h => ⟨fun heq => by_contra fun hdiffer => (h.tells hdiffer).1 heq,
        fun hsame => hdigest.mp (h.ignores hsame).1⟩
    · exact fun h => ⟨fun hsame => ⟨hdigest.mpr (h.mpr hsame), rfl, rfl⟩,
        fun hdiffer => ⟨mt h.mp hdiffer, mt h.mp hdiffer⟩⟩
  rw [hexact, normal_eq_iff, harmless_iff, SameOperational, and_congr_right_iff]

def inboundOf (tag : String) (users : List String) : Json :=
  .obj [⟨"tag", .str tag⟩, ⟨"users", .arr (users.map fun name => .obj [⟨"name", .str name⟩])⟩]

/-- The inbound `in-a` is declared; the user of `in-b` has an authorization key. -/
def sharedRoot (users : List String) (key : String) : Members :=
  [⟨"_oboard", .obj [
      ⟨"rate_limits", .obj [⟨"users", .obj [⟨"bob", .obj [⟨"authorization_key", .str key⟩]⟩]⟩]⟩,
      ⟨"runtime_users", .obj [⟨"inbounds", .arr [.str "in-a"]⟩]⟩]⟩,
    ⟨"inbounds", .arr [inboundOf "in-a" users, inboundOf "in-b" ["bob"]]⟩]

theorem get_inboundOf (tag : String) (users : List String) (h : name ≠ "users") :
    (inboundOf tag users).get name = if name = "tag" then some (.str tag) else none := by
  unfold inboundOf Json.get
  by_cases htag : name = "tag"
  · subst htag
    simp
  · simp [htag, h]

theorem canonical_single {v : Json} (h : v.Canonical) : (Json.obj [⟨name, v⟩]).Canonical :=
  .obj (List.pairwise_singleton _ _) (by simpa using h)

theorem canonical_pair {first second : String} {v w : Json} (hlt : first < second) (hv : v.Canonical)
    (hw : w.Canonical) : (Json.obj [⟨first, v⟩, ⟨second, w⟩]).Canonical :=
  .obj (List.pairwise_pair.mpr hlt) (by simpa using ⟨hv, hw⟩)

theorem canonical_inboundOf (tag : String) (users : List String) : (inboundOf tag users).Canonical := by
  refine canonical_pair (by decide) (.str tag) (.arr fun item hitem => ?_)
  obtain ⟨name, -, rfl⟩ := List.mem_map.mp hitem
  exact canonical_single (.str name)

theorem canonical_sharedRoot (users : List String) (key : String) :
    (Json.obj (sharedRoot users key)).Canonical := by
  refine canonical_pair (by decide) (canonical_pair (by decide) ?_ ?_) (.arr ?_)
  · exact canonical_single (canonical_single (canonical_single (.str key)))
  · exact canonical_single (.arr (by simpa using .str "in-a"))
  · simpa using ⟨canonical_inboundOf "in-a" users, canonical_inboundOf "in-b" ["bob"]⟩

def sharedConfig (users : List String) (key : String) :
    Config := ⟨sharedRoot users key, canonical_sharedRoot users key⟩

/-- A user more on the declared inbound, who is bound in neither: the file lists users of it before
and after. -/
theorem digestExact_of_listed_user :
    ¬ (sharedConfig ["alice"] "key").Blind ∧ ¬ (sharedConfig ["alice", "carol"] "key").Blind ∧
      DigestExact id (sharedConfig ["alice"] "key") (sharedConfig ["alice", "carol"] "key") := by
  have hone : ¬ (sharedConfig ["alice"] "key").Blind := fun h => nomatch h.2
  have htwo : ¬ (sharedConfig ["alice", "carol"] "key").Blind := fun h => nomatch h.2
  refine ⟨hone, htwo, (digestExact_iff Function.injective_id _ _).mpr fun _ => ⟨fun _ name => ?_,
    fun _ => ⟨fun h => absurd h hone, fun h => absurd h htwo⟩⟩⟩
  have hlisted : name ∈ (sharedConfig ["alice", "carol"] "key").names ↔
      name ∈ (sharedConfig ["alice"] "key").names ∨ name = "carol" := by
    show name ∈ ["alice", "carol"] ↔ name ∈ ["alice"] ∨ name = "carol"
    simp
  have hcarol : name = "carol" → (sharedConfig ["alice"] "key").binding "users" name = none := by
    rintro rfl
    rfl
  have hsame : (sharedConfig ["alice", "carol"] "key").binding "users" name
      = (sharedConfig ["alice"] "key").binding "users" name := rfl
  unfold Config.Retains
  rw [hsame, hlisted]
  constructor
  · rintro ⟨-, hname, hbound⟩
    exact ⟨htwo, fun hor => hor.elim hname fun heq => hbound (hcarol heq), hbound⟩
  · rintro ⟨-, hname, hbound⟩
    exact ⟨hone, fun hin => hname (Or.inl hin), hbound⟩

/-- No user of the declared inbound is listed: another key for the user of the other inbound goes
unnoticed, and the first user of the declared inbound changes the digest. -/
theorem key_change_unnoticed_and_first_user_noticed :
    (¬ (sharedConfig [] "key").SameOperational (sharedConfig [] "other") ∧
      normalizeOperationalCoreConfig (sharedConfig [] "key").root =
        normalizeOperationalCoreConfig (sharedConfig [] "other").root) ∧
    ((sharedConfig [] "key").SameOperational (sharedConfig ["alice"] "key") ∧
      operationalCoreConfigDigest id (sharedConfig [] "key") ≠
        operationalCoreConfigDigest id (sharedConfig ["alice"] "key")) := by
  refine ⟨⟨fun h => ?_, rfl⟩, ?_, fun h => ?_⟩
  · have hkeys : "key" = "other" := congrArg Prod.fst
      (Option.some.inj (h.2 "bob" List.not_mem_nil List.not_mem_nil))
    exact absurd hkeys (by decide)
  · refine ⟨⟨fun name hin _ hoboard => ?_, ?_, Or.inl rfl, fun _ => rfl, fun _ _ _ _ => rfl, fun _ => rfl⟩,
      fun _ _ _ => rfl⟩
    · exact ((List.dlookup_cons_ne _ _ hoboard).trans (List.dlookup_cons_ne _ _ hin)).trans
        ((List.dlookup_cons_ne _ _ hoboard).trans (List.dlookup_cons_ne _ _ hin)).symm
    · refine Or.inr ⟨_, _, rfl, rfl, .cons (Or.inr ⟨rfl, rfl, fun name hname => ?_⟩)
        (.cons (Or.inl rfl) .nil)⟩
      rw [get_inboundOf _ _ hname, get_inboundOf _ _ hname]
  · have hlimits := congrArg (fun j : Json => ((members (j.get "_oboard")).dlookup "rate_limits").isSome) h
    exact absurd hlimits (by decide)

end Config

end OboardAgent.Core
