import OboardAgent.Lib.Run
import OboardAgent.Users.Store

/-!
# Who is accepted

A user of an inbound is let in by the inbound's table; the user selector of the inbound gives the
route, the tracker the limits, and a Snell inbound asks the tracker's own table as well. An install
rewrites all of them, inbound by inbound, for the scope of its snapshot.

After an install that goes through, the users accepted are those of its snapshot, except where an
inbound outside its scope still has users: nothing takes those away. An update that fails leaves the
inbounds before it with the new users and those after it with the old ones; the flag that is set
then is asked by Snell only. And a name that leaves the Snell table is pruned from the limits, even
when the snapshot has it on another inbound.
-/

namespace OboardAgent.Users

open Quota (UserCredential UserInstallEntry RateLimitTracker)

/-! ## Access -/

structure Access where
  credential : UserCredential
  route : Option String
  authorizationKey : Option String
deriving DecidableEq, Repr

namespace Live

def runtimeKey (l : Live) (tag user : String) : Option String :=
  ((l.tracker.states.lookup ("user:" ++ user)).or (l.tracker.states.lookup ("inbound:" ++ tag))).map
    (·.config.policy.authorizationKey)

def admits (l : Live) (tag user : String) : Bool :=
  !l.usersFailed &&
    match l.runtimeKey tag user, l.snellUsers.lookup (tag, user) with
    | some key, some id => key ≠ "" && id.authorizationKey = key
    | _, _ => false

def access (node : Node) (l : Live) (tag user : String) : Option Access :=
  match ((l.tables.lookup tag).getD []).find? fun spec => spec.name = user with
  | none => none
  | some spec =>
    let route := if node.hasSelector tag then ((l.routes.lookup tag).getD ∅).lookup user else none
    if node.hasSelector tag && route.isNone then none
    else if node.capability tag = some .snellPSK && !l.admits tag user then none
    else some ⟨spec.credential, route, l.runtimeKey tag user⟩

end Live

def granted (node : Node) (entries : List UserInstallEntry) (tag user : String) : Option Access :=
  (entries.find? fun e => e.inboundTag = tag && e.authUser = user).map fun e =>
    ⟨e.credential, if node.hasSelector tag then some e.routeOutbound else none, some e.authorizationKey⟩

def entriesIn (current : Option UserSnapshot) : List UserInstallEntry := current.elim [] (·.entries)

/-- The inbounds accept exactly the users of the current snapshot. -/
def Exactly (node : Node) (r : RuntimeUsers) : Prop :=
  ∀ tag ∈ node.declared, ∀ user, r.live.access node tag user = granted node (entriesIn r.current) tag user

/-- No inbound accepts anyone. -/
def Nobody (node : Node) (r : RuntimeUsers) : Prop :=
  ∀ tag ∈ node.declared, ∀ user, r.live.access node tag user = none

/-! ## What a valid snapshot is -/

/-- What `validateSnapshot` has checked. -/
structure Valid (node : Node) (s : UserSnapshot) : Prop where
  scope : ∀ tag ∈ s.scope, tag ∈ node.declared ∧ node.capability tag ≠ none
  names : (s.entries.map (·.authUser)).Nodup
  entry : ∀ e ∈ s.entries, e.inboundTag ∈ s.scope ∧ e.authorizationKey ≠ "" ∧
    GoStrings.trimSpace e.authUser = e.authUser ∧ e.authUser ≠ "" ∧ e.routeOutbound ≠ "" ∧
    (node.capability e.inboundTag = some .snellPSK → e.credential.psk ≠ "")

theorem psk_of_validateSnell {node : Node} {e : UserInstallEntry} {seen seen' : SnellSeen}
    (h : validateSnell node e seen = .ok seen') : e.credential.psk ≠ "" := by
  intro hempty
  simp only [validateSnell] at h
  rw [if_pos (Or.inl (by rw [hempty]; decide))] at h
  cases h

theorem validateEntries_ok {node : Node} (hunnamed : node.hasOutbound "" = false)
    {t : RateLimitTracker} {scope : List String} :
    ∀ {entries : List UserInstallEntry} {names : List String} {seen : SnellSeen},
      validateEntries node t scope entries names seen = .ok () →
      (entries.map (·.authUser)).Nodup ∧ (∀ e ∈ entries, e.authUser ∉ names) ∧
      ∀ e ∈ entries, e.inboundTag ∈ scope ∧ e.authorizationKey ≠ "" ∧
        GoStrings.trimSpace e.authUser = e.authUser ∧ e.authUser ≠ "" ∧ e.routeOutbound ≠ "" ∧
        (node.capability e.inboundTag = some .snellPSK → e.credential.psk ≠ "")
  | [], _, _, _ => ⟨List.nodup_nil, fun e he => absurd he List.not_mem_nil, fun e he =>
    absurd he List.not_mem_nil⟩
  | e :: rest, names, seen, h => by
    unfold validateEntries at h
    split at h
    · cases h
    · rename_i hgood
      simp only [Bool.or_eq_true, Bool.not_eq_true', decide_eq_true_eq, not_or,
        Bool.not_eq_false, List.contains_iff_mem, not_not] at hgood
      obtain ⟨⟨⟨⟨⟨⟨hscope, hkey⟩, htrim⟩, hname⟩, hnew⟩, -⟩, hout⟩ := hgood
      have hroute : e.routeOutbound ≠ "" := by
        intro hempty
        rw [hempty, hunnamed] at hout
        cases hout
      have hrest : ∃ seen', validateEntries node t scope rest (e.authUser :: names) seen' = .ok () ∧
          (node.capability e.inboundTag = some .snellPSK → e.credential.psk ≠ "") := by
        split at h
        · split at h
          · cases h
          · rename_i seen' hsnell
            exact ⟨seen', h, fun _ => psk_of_validateSnell hsnell⟩
        · rename_i hother
          exact ⟨seen, h, fun hsnell => absurd hsnell hother⟩
      obtain ⟨seen', hrest, hpsk⟩ := hrest
      obtain ⟨hnodup, hnotin, hentries⟩ := validateEntries_ok hunnamed hrest
      refine ⟨?_, ?_, ?_⟩
      · rw [List.map_cons, List.nodup_cons]
        refine ⟨fun hmem => ?_, hnodup⟩
        obtain ⟨e', he', heq⟩ := List.mem_map.mp hmem
        exact hnotin e' he' (heq ▸ List.mem_cons_self)
      · exact List.forall_mem_cons.mpr ⟨hnew, fun e' he' hmem => hnotin e' he' (List.mem_cons_of_mem _ hmem)⟩
      · exact List.forall_mem_cons.mpr ⟨⟨hscope, hkey, htrim, hname, hroute, hpsk⟩, hentries⟩

theorem valid_of_validateSnapshot {node : Node} (hunnamed : node.hasOutbound "" = false)
    {t : RateLimitTracker} {s : UserSnapshot} (h : validateSnapshot node t s = .ok ()) : Valid node s := by
  unfold validateSnapshot at h
  split at h
  · rename_i hscope
    obtain ⟨hnames, -, hentries⟩ := validateEntries_ok hunnamed h
    refine ⟨fun tag htag => ?_, hnames, hentries⟩
    have := List.all_eq_true.mp hscope tag htag
    simp only [Bool.and_eq_true, List.contains_iff_mem, Option.isSome_iff_ne_none] at this
    exact this
  · cases h

theorem Valid.eq_of_name {node : Node} {s : UserSnapshot} (h : Valid node s) {e e' : UserInstallEntry}
    (he : e ∈ s.entries) (he' : e' ∈ s.entries) (hname : e.authUser = e'.authUser) : e = e' :=
  List.inj_on_of_nodup_map h.names he he' hname

theorem userKey_ne {a b : String} (h : a ≠ b) : "user:" ++ a ≠ "user:" ++ b := by
  intro heq
  exact h (by simpa using heq)

/-! ## The limits -/

namespace Live

variable (t : RateLimitTracker)

def limitKey (key : String) : Option String :=
  (t.states.lookup key).map (·.config.policy.authorizationKey)

theorem limitKey_put (key k : String) (x : Quota.RuntimeState × Quota.Heap) :
    limitKey (t.put key x) k
      = if k = key then some x.1.config.policy.authorizationKey else limitKey t k := by
  simp only [limitKey, RateLimitTracker.put, GoMap.lookup_insert_eq]
  split <;> rfl

theorem limitKey_create (key user inbound k : String) (policy : Quota.RuntimeUserLimit) :
    limitKey (t.create key user inbound policy) k
      = if k = key then some policy.authorizationKey else limitKey t k := by
  unfold RateLimitTracker.create
  split
  · exact limitKey_put ..
  · split <;> exact limitKey_put ..

theorem policy_updatePolicy (policy : Quota.RuntimeUserLimit) (s : Quota.RuntimeState)
    (h : Quota.Heap) : (s.updatePolicy policy h).1.config.policy = policy := by
  simp only [Quota.RuntimeState.updatePolicy, Quota.RuntimeState.storePolicyLocked]
  split <;> rfl

variable {e : UserInstallEntry} {s : UserSnapshot} {tag : String} {l : Live}

theorem limitKey_installUser (k : String) (htrim : GoStrings.trimSpace e.authUser = e.authUser)
    (hname : e.authUser ≠ "") (hkey : e.authorizationKey ≠ "") :
    limitKey (t.installUser e) k
      = if k = "user:" ++ e.authUser then some e.authorizationKey else limitKey t k := by
  have hscoped : e.scopedPolicy.authorizationKey = e.authorizationKey := if_pos hkey
  simp only [RateLimitTracker.installUser, htrim, if_neg hname]
  split
  · rw [limitKey_put, policy_updatePolicy]
    simp only [Quota.mergeRuntimeIdentity, hscoped, if_pos hkey]
  · rw [limitKey_create, hscoped]

theorem limitKey_replaceScopedUsers {node : Node} (h : Valid node s)
    (t : RateLimitTracker) (he : e ∈ s.entries) :
    limitKey (t.replaceScopedUsers s.entries) ("user:" ++ e.authUser) = some e.authorizationKey := by
  have hinstall : ∀ f ∈ s.entries, ∀ t, limitKey (t.installUser f) ("user:" ++ e.authUser)
      = if "user:" ++ e.authUser = "user:" ++ f.authUser then some f.authorizationKey
        else limitKey t ("user:" ++ e.authUser) := by
    intro f hf t
    obtain ⟨-, hkey, htrim, hname, -⟩ := h.entry f hf
    exact limitKey_installUser t _ htrim hname hkey
  refine Run.established (I := fun t => limitKey t ("user:" ++ e.authUser) = some e.authorizationKey)
    (fun t => by rw [hinstall e he, if_pos rfl]) (fun f hf hne t ht => ?_) (Or.inl he)
  rw [hinstall f hf, if_neg (userKey_ne fun hname => hne (h.eq_of_name hf he hname.symm))]
  exact ht

/-! ## The tables of the inbounds -/

theorem mem_walk {p : Publication} {scope : List String} : tag ∈ p.walk scope ↔ tag ∈ scope := by
  simp only [Publication.walk, List.mem_append, List.mem_eraseDups, List.mem_filter,
    List.contains_iff_mem, Bool.not_eq_true']
  constructor
  · rintro (⟨-, h⟩ | ⟨h, -⟩) <;> exact h
  · intro h
    by_cases ho : tag ∈ p.order
    · exact Or.inl ⟨ho, h⟩
    · exact Or.inr ⟨h, by simpa using ho⟩

variable {node : Node} {p : Publication} {entries : List UserInstallEntry}

def Stops (node : Node) (p : Publication) (tag : String) : Prop :=
  tag ∉ node.declared ∨ node.capability tag = none ∨ p.inboundFails tag = true ∨ p.selectorFails tag = true

theorem publishInbounds_cons {rest : List String} {l' : Live}
    {err : Option InstallError} (h : publishInbounds node p entries (tag :: rest) l = (l', err)) :
    (err ≠ none ∧ Stops node p tag) ∨ ∃ m : Live,
      m.tables = l.tables.insert tag (specsOf entries tag) ∧
      m.routes = (if node.hasSelector tag then l.routes.insert tag (routesOf entries tag) else l.routes) ∧
      (m.tracker = l.tracker ∧ m.snellUsers = l.snellUsers ∧ m.snellRetired = l.snellRetired) ∧
      publishInbounds node p entries rest m = (l', err) := by
  simp only [publishInbounds] at h
  split_ifs at h with hrefused htable hno hroutes
  · cases h
    refine Or.inl ⟨nofun, ?_⟩
    rcases hrefused with ⟨-, hundeclared⟩ | hnone
    · exact Or.inl hundeclared
    · exact Or.inr (Or.inl hnone)
  · cases h
    exact Or.inl ⟨nofun, Or.inr (Or.inr (Or.inl htable))⟩
  · have hno : node.hasSelector tag = false := by simpa using hno
    refine Or.inr ⟨_, ?_, ?_, ?_, h⟩
    · rfl
    · rw [hno]
      rfl
    · exact ⟨rfl, rfl, rfl⟩
  · cases h
    exact Or.inl ⟨nofun, Or.inr (Or.inr (Or.inr hroutes))⟩
  · have hyes : node.hasSelector tag = true := by simpa using hno
    refine Or.inr ⟨_, ?_, ?_, ?_, h⟩
    · rfl
    · rw [if_pos hyes]
    · exact ⟨rfl, rfl, rfl⟩

structure Updates (node : Node) (entries : List UserInstallEntry) (tags : List String) (l l' : Live) :
    Prop where
  tables : ∀ tag, l'.tables.lookup tag
    = if tag ∈ tags then some (specsOf entries tag) else l.tables.lookup tag
  routes : ∀ tag, node.hasSelector tag = true → l'.routes.lookup tag
    = if tag ∈ tags then some (routesOf entries tag) else l.routes.lookup tag
  rest : l'.tracker = l.tracker ∧ l'.snellUsers = l.snellUsers ∧ l'.snellRetired = l.snellRetired

theorem ite_cons_eq {α : Type} {k : String} {rest : List String} (new : String → α) {old : α} :
    (if k ∈ rest then new k else if k = tag then new tag else old)
      = if k ∈ tag :: rest then new k else old := by
  by_cases hrest : k ∈ rest
  · rw [if_pos hrest, if_pos (List.mem_cons_of_mem _ hrest)]
  · by_cases heq : k = tag
    · rw [if_neg hrest, if_pos heq, if_pos (heq ▸ List.mem_cons_self), heq]
    · rw [if_neg hrest, if_neg heq, if_neg (by simp [heq, hrest])]

theorem publishInbounds_updates :
    ∀ {tags : List String} {l l' : Live}, publishInbounds node p entries tags l = (l', none) →
      Updates node entries tags l l'
  | [], l, l', h => by
    obtain rfl : l = l' := by simpa [publishInbounds] using h
    exact ⟨fun tag => (if_neg List.not_mem_nil).symm, fun tag _ => (if_neg List.not_mem_nil).symm,
      rfl, rfl, rfl⟩
  | tag :: rest, l, l', h => by
    rcases publishInbounds_cons h with ⟨hstop, -⟩ | ⟨m, htables, hroutes, hrest, h⟩
    · exact absurd rfl hstop
    have ih := publishInbounds_updates h
    refine ⟨fun k => ?_, fun k hsel => ?_, ih.rest.1.trans hrest.1, ih.rest.2.1.trans hrest.2.1,
      ih.rest.2.2.trans hrest.2.2⟩
    · rw [ih.tables, htables, GoMap.lookup_insert_eq]
      exact ite_cons_eq fun k => some (specsOf entries k)
    · rw [ih.routes k hsel, hroutes]
      split
      · rw [if_pos (List.mem_cons_of_mem _ ‹_›)]
      · rename_i hnot
        by_cases heq : k = tag
        · subst heq
          rw [if_pos hsel, if_pos List.mem_cons_self]
          exact AList.lookup_insert _
        · have hcons : k ∉ tag :: rest := by simp [heq, hnot]
          rw [if_neg hcons]
          split
          · exact AList.lookup_insert_ne heq
          · rfl

theorem stops_of_publishInbounds {e : InstallError} :
    ∀ {tags : List String} {l l' : Live}, publishInbounds node p entries tags l = (l', some e) →
      ∃ tag ∈ tags, Stops node p tag
  | [], _, _, h => by simp [publishInbounds] at h
  | tag :: rest, l, l', h => by
    rcases publishInbounds_cons h with ⟨-, hstop⟩ | ⟨m, -, -, -, h⟩
    · exact ⟨tag, List.mem_cons_self, hstop⟩
    · obtain ⟨k, hk, hstop⟩ := stops_of_publishInbounds h
      exact ⟨k, List.mem_cons_of_mem _ hk, hstop⟩

/-! ## The Snell table -/

def NeverSnell (l : Live) (user : String) : Prop :=
  "user:" ++ user ∉ l.snellRetired ∧ ∀ k ∈ l.snellUsers.keys, k.2 ≠ user

theorem notMem_retire {user : String} (h : NeverSnell l user) (scope : List String) :
    "user:" ++ user ∉ (l.retire scope).snellRetired := by
  refine List.foldlRecOn (motive := fun m => "user:" ++ user ∉ m) _ _ h.1 ?_
  intro m hm k hk
  have hk : k ∈ l.snellUsers.keys := List.mem_of_mem_filter hk
  rw [AList.mem_insert]
  exact not_or.mpr ⟨userKey_ne (h.2 k hk).symm, hm⟩

theorem notMem_enlist {key : String} (h : key ∉ l.snellRetired) (e : UserInstallEntry) :
    key ∉ (l.enlist e).snellRetired := by
  unfold enlist
  split
  · exact fun hmem => h (AList.mem_erase.mp hmem).2
  · exact h

theorem notMem_publishSnellUsers
    (he : e ∈ s.entries) (hnever : e.credential.psk = "" → NeverSnell l e.authUser) :
    "user:" ++ e.authUser ∉ (l.publishSnellUsers s).snellRetired := by
  by_cases hpsk : e.credential.psk = ""
  · exact List.foldlRecOn (motive := fun m : Live => "user:" ++ e.authUser ∉ m.snellRetired) _ _
      (notMem_retire (hnever hpsk) s.scope) fun m hm f _ => notMem_enlist hm f
  · refine Run.established (I := fun m : Live => "user:" ++ e.authUser ∉ m.snellRetired) (fun m => ?_)
      (fun f _ _ m hm => notMem_enlist hm f) (Or.inl he)
    simp only [enlist, if_pos hpsk, ne_eq]
    exact fun hmem => (AList.mem_erase.mp hmem).1 rfl

theorem lookup_publishSnellUsers (h : Valid node s) (l : Live) (he : e ∈ s.entries)
    (hpsk : e.credential.psk ≠ "") :
    (l.publishSnellUsers s).snellUsers.lookup (keyOf e) = some ⟨e.authorizationKey, e.credential.psk⟩ := by
  refine Run.established (I := fun m : Live => m.snellUsers.lookup (keyOf e)
    = some ⟨e.authorizationKey, e.credential.psk⟩) (fun m => ?_) (fun f hf hne m hm => ?_) (Or.inl he)
  · simp only [enlist, if_pos hpsk]
    exact AList.lookup_insert _
  · unfold enlist
    split
    · rw [← hm]
      refine AList.lookup_insert_ne fun hkey => hne (h.eq_of_name hf he ?_)
      exact (Prod.mk.inj hkey).2.symm
    · exact hm

theorem publishSnellUsers_rest (s : UserSnapshot) (l : Live) :
    (l.publishSnellUsers s).tables = l.tables ∧ (l.publishSnellUsers s).routes = l.routes ∧
    (l.publishSnellUsers s).tracker = l.tracker := by
  refine List.foldlRecOn (motive := fun m : Live => m.tables = l.tables ∧ m.routes = l.routes ∧
    m.tracker = l.tracker) _ _ ⟨rfl, rfl, rfl⟩ ?_
  intro m hm e _
  unfold enlist
  split <;> exact hm

/-! ## Pruning -/

theorem pruneSnellCounters_rest (connected : String → Bool) (l : Live) :
    (l.pruneSnellCounters connected).tables = l.tables ∧
    (l.pruneSnellCounters connected).routes = l.routes ∧
    (l.pruneSnellCounters connected).snellUsers = l.snellUsers ∧
    (l.pruneSnellCounters connected).usersFailed = l.usersFailed ∧
    ∀ key ∉ l.snellRetired,
      (l.pruneSnellCounters connected).tracker.states.lookup key = l.tracker.states.lookup key := by
  refine List.foldlRecOn (motive := fun m : Live => m.tables = l.tables ∧ m.routes = l.routes ∧
    m.snellUsers = l.snellUsers ∧ m.usersFailed = l.usersFailed ∧
    ∀ key ∉ l.snellRetired, m.tracker.states.lookup key = l.tracker.states.lookup key) _ _
    ⟨rfl, rfl, rfl, rfl, fun _ _ => rfl⟩ ?_
  intro m hm key hkey
  unfold pruneKey
  split
  · exact hm
  · split
    · exact hm
    · refine ⟨hm.1, hm.2.1, hm.2.2.1, hm.2.2.2.1, fun k hk => ?_⟩
      rw [← hm.2.2.2.2 k hk]
      exact AList.lookup_erase_ne fun heq => hk (heq ▸ AList.mem_keys.mp hkey)

/-! ## Access after an install -/

theorem find?_specsOf (tag user : String) :
    (specsOf entries tag).find? (fun spec => spec.name = user)
      = (entries.find? fun e => e.inboundTag = tag && e.authUser = user).map
          fun e => ⟨e.authUser, e.credential⟩ := by
  simp only [specsOf, entriesOf, List.find?_map, List.find?_filter]
  congr 2
  funext e
  simp

theorem lookup_routesOf (h : Valid node s) (he : e ∈ s.entries) :
    (routesOf s.entries e.inboundTag).lookup e.authUser = some e.routeOutbound := by
  have hmem : e ∈ entriesOf s.entries e.inboundTag := List.mem_filter.mpr ⟨he, by simp⟩
  have hroute := (h.entry e he).2.2.2.2.1
  refine Run.established (I := fun m : GoMap String String => m.lookup e.authUser = some e.routeOutbound)
    (fun m => ?_) (fun f hf hne m hm => ?_) (Or.inl hmem)
  · rw [if_pos hroute]
    exact AList.lookup_insert _
  · split
    · rw [← hm]
      refine AList.lookup_insert_ne fun hname => hne ?_
      exact h.eq_of_name (List.mem_of_mem_filter hf) he hname.symm
    · exact hm

structure Shows (node : Node) (s : UserSnapshot) (l : Live) : Prop where
  tables : ∀ tag ∈ s.scope, l.tables.lookup tag = some (specsOf s.entries tag)
  others : ∀ tag ∈ node.declared, tag ∉ s.scope → (l.tables.lookup tag).getD [] = []
  routes : ∀ tag ∈ s.scope, node.hasSelector tag = true →
    l.routes.lookup tag = some (routesOf s.entries tag)
  limits : ∀ e ∈ s.entries, limitKey l.tracker ("user:" ++ e.authUser) = some e.authorizationKey
  snell : ∀ e ∈ s.entries, e.credential.psk ≠ "" →
    l.snellUsers.lookup (keyOf e) = some ⟨e.authorizationKey, e.credential.psk⟩
  up : l.usersFailed = false

theorem runtimeKey_of_limitKey (tag : String) {user key : String}
    (h : limitKey l.tracker ("user:" ++ user) = some key) : l.runtimeKey tag user = some key := by
  obtain ⟨s, hs, hkey⟩ := Option.map_eq_some_iff.mp h
  simp only [runtimeKey, hs, Option.some_or, Option.map_some, hkey]

theorem access_of_table_nil {user : String}
    (h : (l.tables.lookup tag).getD [] = []) : l.access node tag user = none := by
  simp only [access, h, List.find?_nil]

theorem access_of_usersFailed {user : String} (hsnell : node.capability tag = some .snellPSK)
    (hfailed : l.usersFailed = true) : l.access node tag user = none := by
  unfold access
  split
  · rfl
  · simp [admits, hsnell, hfailed]

theorem Shows.admits (h : Shows node s l) (hvalid : Valid node s) (he : e ∈ s.entries)
    (hsnell : node.capability e.inboundTag = some .snellPSK) :
    l.admits e.inboundTag e.authUser = true := by
  obtain ⟨-, hkey, -, -, -, hpsk⟩ := hvalid.entry e he
  have hlookup : l.snellUsers.lookup (e.inboundTag, e.authUser) = some _ := h.snell e he (hpsk hsnell)
  simp [Live.admits, h.up, runtimeKey_of_limitKey e.inboundTag (h.limits e he), hlookup, hkey]

theorem Shows.access (h : Shows node s l) (hvalid : Valid node s) (htag : tag ∈ node.declared)
    (user : String) : l.access node tag user = granted node s.entries tag user := by
  cases hfind : s.entries.find? fun e => e.inboundTag = tag && e.authUser = user with
  | none =>
    by_cases hscope : tag ∈ s.scope
    · simp only [Live.access, granted, h.tables tag hscope, Option.getD_some, find?_specsOf, hfind,
        Option.map_none]
    · rw [access_of_table_nil (h.others tag htag hscope), granted, hfind, Option.map_none]
  | some e =>
    have he : e ∈ s.entries := List.mem_of_find?_eq_some hfind
    obtain ⟨rfl, rfl⟩ : e.inboundTag = tag ∧ e.authUser = user := by
      simpa using List.find?_some hfind
    have hscope := (hvalid.entry e he).1
    have hkey := runtimeKey_of_limitKey e.inboundTag (h.limits e he)
    have hadmits : ¬ (node.capability e.inboundTag = some .snellPSK ∧
        l.admits e.inboundTag e.authUser = false) := by
      rintro ⟨hsnell, hno⟩
      exact absurd (h.admits hvalid he hsnell) (by simp [hno])
    cases hsel : node.hasSelector e.inboundTag with
    | false =>
      simp [Live.access, granted, h.tables _ hscope, find?_specsOf, hfind, hsel, hkey, hadmits]
    | true =>
      simp [Live.access, granted, h.tables _ hscope, find?_specsOf, hfind, hsel, hkey, hadmits,
        h.routes _ hscope hsel, lookup_routesOf hvalid he]

theorem shows_of_publish (hvalid : Valid node s) {l' : Live}
    (hpublish : l.publish node p s = (l', none))
    (hscope : ∀ tag ∈ node.declared, (l.tables.lookup tag).getD [] ≠ [] → tag ∈ s.scope)
    (hnever : ∀ e ∈ s.entries, e.credential.psk = "" → NeverSnell l e.authUser)
    (connected : String → Bool) :
    Shows node s (pruneSnellCounters connected { l' with usersFailed := false }) := by
  unfold publish at hpublish
  split at hpublish
  · cases hpublish
  rename_i m hloop
  obtain ⟨rfl, -⟩ := Prod.mk.inj hpublish
  have hup := publishInbounds_updates hloop
  obtain ⟨-, husers, hretired⟩ := hup.rest
  obtain ⟨htables, hroutes, htracker⟩ := publishSnellUsers_rest s
    { m with tracker := m.tracker.replaceScopedUsers s.entries }
  have hkept : ∀ e ∈ s.entries, "user:" ++ e.authUser ∉ (publishSnellUsers s
      { m with tracker := m.tracker.replaceScopedUsers s.entries }).snellRetired := by
    refine fun e he => notMem_publishSnellUsers he fun hpsk => ?_
    simpa only [NeverSnell, husers, hretired] using hnever e he hpsk
  obtain ⟨ptables, proutes, psnell, pfailed, pstates⟩ := pruneSnellCounters_rest connected
    { publishSnellUsers s { m with tracker := m.tracker.replaceScopedUsers s.entries } with
      usersFailed := false }
  constructor
  case tables =>
    intro tag htag
    rw [ptables, htables, hup.tables, if_pos (mem_walk.mpr htag)]
  case others =>
    intro tag htag hnot
    rw [ptables, htables, hup.tables, if_neg (mem_walk.not.mpr hnot)]
    by_contra hne
    exact hnot (hscope tag htag hne)
  case routes =>
    intro tag htag hsel
    rw [proutes, hroutes, hup.routes tag hsel, if_pos (mem_walk.mpr htag)]
  case limits =>
    intro e he
    rw [limitKey, pstates _ (hkept e he), htracker]
    exact limitKey_replaceScopedUsers hvalid _ he
  case snell =>
    intro e he hpsk
    rw [psnell]
    exact lookup_publishSnellUsers hvalid _ he hpsk
  case up => exact pfailed

theorem failed_of_publish (hvalid : Valid node s) {l' : Live} {e : InstallError}
    (hpublish : l.publish node p s = (l', some e)) :
    ∃ tag ∈ s.scope, p.inboundFails tag = true ∨ p.selectorFails tag = true := by
  unfold publish at hpublish
  split at hpublish
  · rename_i hloop
    obtain ⟨tag, htag, hstop⟩ := stops_of_publishInbounds hloop
    have htag := mem_walk.mp htag
    obtain ⟨hdeclared, hcap⟩ := hvalid.scope tag htag
    exact ⟨tag, htag, (hstop.resolve_left (not_not.mpr hdeclared)).resolve_left hcap⟩
  · cases hpublish

end Live

/-! ## One install -/

namespace RuntimeUsers

variable (codec : Codec) (node : Node) (env : InstallEnv) (req : UserInstallRequest) (r : RuntimeUsers)
  (c : Called)

structure Untouched : Prop where
  live : c.users.live = r.live
  current : c.users.current = r.current
  ok : c.outcome = .ok → r.live.usersFailed = false ∧ ∃ s, completes codec req r s ∧
    ∃ cur, r.current = some cur ∧ cur.revision = s.revision ∧ cur.digest = s.digest

structure Broken (s : UserSnapshot) : Prop where
  completes : completes codec req r s
  failed : c.users.live.usersFailed = true
  current : c.users.current = r.current
  outcome : c.outcome = .died ∨ ∃ e, c.outcome = .error e ∧
    (env.commitWrite.ending = some (.error .io) ∨
      ∃ tag ∈ s.scope, env.publication.inboundFails tag = true ∨ env.publication.selectorFails tag = true)

structure Commits (s : UserSnapshot) : Prop where
  completes : completes codec req r s
  valid : Valid node s
  current : c.users.current = some s
  outcome : c.outcome = .ok
  live : ∃ live, r.live.publish node env.publication s = (live, none) ∧
    c.users.live = Live.pruneSnellCounters env.publication.connected { live with usersFailed := false }

variable {codec node env req r}

theorem failed_fail (env : InstallEnv) (r : RuntimeUsers) : (r.fail env).live.usersFailed = true :=
  (Live.pruneSnellCounters_rest env.publication.connected { r.live with usersFailed := true }).2.2.2.1

theorem install_tables (codec : Codec) (env : InstallEnv) (req : UserInstallRequest) (r : RuntimeUsers)
    (hunnamed : node.hasOutbound "" = false) (file : PersistedUsers) :
    Untouched codec req r (r.install codec node env req file) ∨
      ∃ s, Broken codec env req r (r.install codec node env req file) s ∨
        Commits codec node env req r (r.install codec node env req file) s := by
  have h := install_installs codec node env req r file
  generalize r.install codec node env req file = c at h ⊢
  cases h with
  | stays chunks w state outcome hstate hok => exact Or.inl ⟨rfl, rfl, fun h => absurd h hok⟩
  | same chunks s cur hs hcur hrevision hdigest hup =>
    exact Or.inl ⟨rfl, rfl, fun _ => ⟨hup, s, hs, cur, hcur, hrevision, hdigest⟩⟩
  | stops chunks s live e hs hjudge hpublish =>
    have hvalid := valid_of_validateSnapshot hunnamed (admitted_of_judge hjudge).1
    exact Or.inr ⟨s, Or.inl ⟨hs, failed_fail .., rfl,
      Or.inr ⟨e, rfl, Or.inr (Live.failed_of_publish hvalid hpublish)⟩⟩⟩
  | uncommitted chunks s live outcome hs hjudge hpublish hcommit =>
    refine Or.inr ⟨s, Or.inl ⟨hs, failed_fail .., rfl, ?_⟩⟩
    rcases Write.ending_cases hcommit with rfl | rfl
    · exact Or.inr ⟨.io, rfl, Or.inl hcommit⟩
    · exact Or.inl rfl
  | commits chunks s live hs hjudge hpublish hcommit =>
    have hvalid := valid_of_validateSnapshot hunnamed (admitted_of_judge hjudge).1
    exact Or.inr ⟨s, Or.inr ⟨hs, hvalid, rfl, rfl, live, hpublish, rfl⟩⟩

end RuntimeUsers

/-! ## Whole runs -/

structure Serving where
  users : RuntimeUsers
  file : PersistedUsers
  last : Option Outcome := none

namespace Serving

/-- A process that has just started: no inbound has runtime users. -/
def fresh (tracker : RateLimitTracker) (file : PersistedUsers) : Serving :=
  { users := { live := { tracker := tracker } }, file := file }

/-- One install. A process that has ended takes no more. -/
def step (codec : Codec) (node : Node) (w : Serving) (e : InstallEnv × UserInstallRequest) : Serving :=
  if w.last = some .died then w
  else
    let c := w.users.install codec node e.1 e.2 w.file
    ⟨c.users, c.file, some c.outcome⟩

def AllSnell (node : Node) : Prop :=
  ∀ tag ∈ node.declared, node.capability tag = some .snellPSK

/-- The snapshot covers every inbound that has users; no update and no commit fails, unless the flag
for that is one that every inbound asks; and a name without a PSK never was in the Snell table. -/
def Fits (node : Node) (l : Live) (env : InstallEnv) (s : UserSnapshot) : Prop :=
  (∀ tag ∈ node.declared, (l.tables.lookup tag).getD [] ≠ [] → tag ∈ s.scope) ∧
  (AllSnell node ∨ env.commitWrite.ending ≠ some (.error .io) ∧
    ∀ tag ∈ s.scope, env.publication.inboundFails tag = false ∧ env.publication.selectorFails tag = false) ∧
  ∀ e ∈ s.entries, e.credential.psk = "" → l.NeverSnell e.authUser

/-- The snapshot that the install completes, if it does, fits. -/
def Whole (codec : Codec) (node : Node) (w : Serving) (e : InstallEnv × UserInstallRequest) : Prop :=
  match (w.users.prepare codec e.2).2 with
  | .ok (some s) => Fits node w.users.live e.1 s
  | _ => True

variable {codec : Codec} {node : Node} {w : Serving} {e : InstallEnv × UserInstallRequest}

theorem fits_of_whole (h : Whole codec node w e) {s : UserSnapshot}
    (hs : RuntimeUsers.completes codec e.2 w.users s) : Fits node w.users.live e.1 s := by
  unfold Whole at h
  rw [RuntimeUsers.completes] at hs
  rw [hs] at h
  exact h

def Faithful (node : Node) (r : RuntimeUsers) : Prop :=
  (r.live.usersFailed = false ∧ Exactly node r) ∨ (r.live.usersFailed = true ∧ AllSnell node)

theorem Faithful.exactly_or_nobody {r : RuntimeUsers} (h : Faithful node r) :
    Exactly node r ∨ Nobody node r := by
  rcases h with ⟨-, h⟩ | ⟨hfailed, hsnell⟩
  · exact Or.inl h
  · exact Or.inr fun tag htag user => Live.access_of_usersFailed (hsnell tag htag) hfailed

theorem faithful_fresh (node : Node) (tracker : RateLimitTracker) (file : PersistedUsers) :
    Faithful node (fresh tracker file).users :=
  Or.inl ⟨rfl, fun _ _ _ => Live.access_of_table_nil rfl⟩

theorem Faithful.of_eq {r r' : RuntimeUsers} (h : Faithful node r) (hlive : r'.live = r.live)
    (hcurrent : r'.current = r.current) : Faithful node r' := by
  simpa only [Faithful, Exactly, hlive, hcurrent] using h

/-- What one install that fits does: the tables stay faithful, whatever it returns. -/
structure Delivers (codec : Codec) (node : Node) (req : UserInstallRequest) (r : RuntimeUsers)
    (c : Called) : Prop where
  faithful : c.outcome = .died ∨ Faithful node c.users
  ok : c.outcome = .ok → Exactly node c.users ∧ ∃ s, RuntimeUsers.completes codec req r s ∧
    ∃ cur, c.users.current = some cur ∧ cur.revision = s.revision ∧ cur.digest = s.digest
  error : ∀ err, c.outcome = .error err → c.users.current = r.current

theorem delivers_of_whole (hunnamed : node.hasOutbound "" = false) (hfaithful : Faithful node w.users)
    (hwhole : Whole codec node w e) :
    Delivers codec node e.2 w.users (w.users.install codec node e.1 e.2 w.file) := by
  rcases RuntimeUsers.install_tables codec e.1 e.2 w.users hunnamed w.file with h | ⟨s, h | h⟩
  case inl =>
    have hafter := hfaithful.of_eq h.live h.current
    refine ⟨Or.inr hafter, fun hok => ?_, fun _ _ => h.current⟩
    obtain ⟨hup, s, hs, cur, hcur, hsame⟩ := h.ok hok
    refine ⟨?_, s, hs, cur, h.current.trans hcur, hsame⟩
    rcases hafter with ⟨-, hexactly⟩ | ⟨hfailed, -⟩
    · exact hexactly
    · rw [h.live, hup] at hfailed
      cases hfailed
  case inr.inl =>
    obtain ⟨-, hfails, -⟩ := fits_of_whole hwhole h.completes
    have hnot_ok : (w.users.install codec node e.1 e.2 w.file).outcome ≠ .ok := by
      rcases h.outcome with hdied | ⟨err, herr, -⟩
      · rw [hdied]; simp
      · rw [herr]; simp
    refine ⟨?_, fun hok => absurd hok hnot_ok, fun _ _ => h.current⟩
    rcases h.outcome with hdied | ⟨err, -, hcause⟩
    · exact Or.inl hdied
    refine Or.inr (Or.inr ⟨h.failed, ?_⟩)
    rcases hfails with hsnell | ⟨hcommit, hupdates⟩
    · exact hsnell
    · exfalso
      rcases hcause with hio | ⟨tag, htag, hin | hsel⟩
      · exact hcommit hio
      · simp [(hupdates tag htag).1] at hin
      · simp [(hupdates tag htag).2] at hsel
  case inr.inr =>
    obtain ⟨hscope, -, hnever⟩ := fits_of_whole hwhole h.completes
    obtain ⟨live, hpublish, hlive⟩ := h.live
    have hshows := Live.shows_of_publish h.valid hpublish hscope hnever e.1.publication.connected
    rw [← hlive] at hshows
    have hexactly : Exactly node (w.users.install codec node e.1 e.2 w.file).users := by
      intro tag htag user
      rw [hshows.access h.valid htag, h.current]
      rfl
    refine ⟨Or.inr (Or.inl ⟨hshows.up, hexactly⟩), fun _ => ?_, fun err herr => ?_⟩
    · exact ⟨hexactly, s, h.completes, s, h.current, rfl, rfl⟩
    · rw [h.outcome] at herr
      cases herr

theorem step_of_last_ne (h : w.last ≠ some .died) :
    step codec node w e = ⟨(w.users.install codec node e.1 e.2 w.file).users,
      (w.users.install codec node e.1 e.2 w.file).file,
      some (w.users.install codec node e.1 e.2 w.file).outcome⟩ := if_neg h

theorem faithful_step (hunnamed : node.hasOutbound "" = false)
    (h : w.last = some .died ∨ Faithful node w.users) (hwhole : Whole codec node w e) :
    (step codec node w e).last = some .died ∨ Faithful node (step codec node w e).users := by
  by_cases hdied : w.last = some .died
  · rw [step, if_pos hdied]
    exact h
  · rw [step_of_last_ne hdied]
    have hdelivers := delivers_of_whole hunnamed (h.resolve_left hdied) hwhole
    exact hdelivers.faithful.imp_left (congrArg some)

/-- **The users accepted are those of the current snapshot.** In every run of installs from a fresh
process, where each snapshot covers every inbound that has users, no update and no commit fails
unless every inbound is a Snell one, and no name without a PSK has been in the Snell table: after
each install that returns success the inbounds accept exactly the users of its snapshot, and after
each that returns an error exactly those of the snapshot before it, or nobody. -/
theorem accepted_are_current (codec : Codec) (node : Node) (hunnamed : node.hasOutbound "" = false)
    (tracker : RateLimitTracker) (file : PersistedUsers) (es : List (InstallEnv × UserInstallRequest))
    (hwhole : Run.Along (step codec node) (Whole codec node) (fresh tracker file) es)
    (pre : List (InstallEnv × UserInstallRequest)) (e : InstallEnv × UserInstallRequest)
    (hpre : pre ++ [e] <+: es) :
    ((Run.exec (step codec node) (fresh tracker file) (pre ++ [e])).last = some .ok →
      Exactly node (Run.exec (step codec node) (fresh tracker file) (pre ++ [e])).users ∧
      ∃ s, RuntimeUsers.completes codec e.2 (Run.exec (step codec node) (fresh tracker file) pre).users s ∧
        ∃ cur, (Run.exec (step codec node) (fresh tracker file) (pre ++ [e])).users.current = some cur ∧
          cur.revision = s.revision ∧ cur.digest = s.digest) ∧
    (∀ err, (Run.exec (step codec node) (fresh tracker file) (pre ++ [e])).last = some (.error err) →
      (Run.exec (step codec node) (fresh tracker file) (pre ++ [e])).users.current
        = (Run.exec (step codec node) (fresh tracker file) pre).users.current ∧
      (Exactly node (Run.exec (step codec node) (fresh tracker file) (pre ++ [e])).users ∨
        Nobody node (Run.exec (step codec node) (fresh tracker file) (pre ++ [e])).users)) := by
  obtain ⟨post, rfl⟩ := hpre
  obtain ⟨hbefore, hlast⟩ := Run.Along.append.mp hwhole.left
  have hfaithful := Run.invariant (I := fun w => w.last = some .died ∨ Faithful node w.users)
    (fun _ _ hw he => faithful_step hunnamed hw he) (Or.inr (faithful_fresh node tracker file)) hbefore
  rw [Run.exec_append, Run.exec_cons, Run.exec_nil]
  generalize Run.exec (step codec node) (fresh tracker file) pre = w at hlast hfaithful
  by_cases hdied : w.last = some .died
  · rw [step, if_pos hdied, hdied]
    exact ⟨nofun, nofun⟩
  · have hdelivers := delivers_of_whole hunnamed (hfaithful.resolve_left hdied) hlast.1
    rw [step_of_last_ne hdied]
    refine ⟨fun hok => hdelivers.ok (Option.some.inj hok), fun err herr => ?_⟩
    have herr := Option.some.inj herr
    refine ⟨hdelivers.error err herr, ?_⟩
    rcases hdelivers.faithful with hend | hafter
    · exact absurd (hend.symm.trans herr) (by simp)
    · exact hafter.exactly_or_nobody

instance NeverSnell.decidable (l : Live) (user : String) : Decidable (l.NeverSnell user) :=
  inferInstanceAs (Decidable (_ ∧ _))

instance Fits.decidable (node : Node) (l : Live) (env : InstallEnv) (s : UserSnapshot) :
    Decidable (Fits node l env s) :=
  have : Decidable (AllSnell node) := inferInstanceAs (Decidable (∀ tag ∈ node.declared, _))
  inferInstanceAs (Decidable (_ ∧ (_ ∨ _ ∧ _) ∧ _))

instance Whole.decidable (codec : Codec) (node : Node) (w : Serving)
    (e : InstallEnv × UserInstallRequest) : Decidable (Whole codec node w e) :=
  match h : (w.users.prepare codec e.2).2 with
  | .ok (some s) => decidable_of_iff (Fits node w.users.live e.1 s) (by simp only [Whole, h])
  | .ok none => .isTrue (by simp only [Whole, h])
  | .error _ => .isTrue (by simp only [Whole, h])

def aliceLeaves : List (InstallEnv × UserInstallRequest) :=
  [({}, installs 1 ["in-1", "in-2"] [alice, bob]), ({}, installs 2 ["in-1", "in-2"] [bob])]

theorem aliceLeaves_exactly :
    (Run.exec (step showRevision twoInbounds) (fresh {} {}) aliceLeaves).users.live.access
      twoInbounds "in-1" "alice"
      = none ∧
    Exactly twoInbounds (Run.exec (step showRevision twoInbounds) (fresh {} {}) aliceLeaves).users :=
  ⟨by decide +kernel,
    ((accepted_are_current showRevision twoInbounds rfl {} {} aliceLeaves (by decide +kernel)
      [({}, installs 1 ["in-1", "in-2"] [alice, bob])] ({}, installs 2 ["in-1", "in-2"] [bob])
      ⟨[], rfl⟩).1 (by decide +kernel)).1⟩

def scopeShrinks : List (InstallEnv × UserInstallRequest) :=
  [({}, installs 1 ["in-1", "in-2"] [alice, bob]), ({}, installs 2 ["in-1"] [alice])]

def updateFails : List (InstallEnv × UserInstallRequest) :=
  [({}, installs 1 ["in-1", "in-2"] [alice, bob]),
   ({ publication := { inboundFails := fun tag => tag = "in-2" } },
    installs 2 ["in-1", "in-2"]
      [user "in-1" "carol" { uuid := "33333333-3333-3333-3333-333333333333" },
        user "in-2" "dave" { password := "secret" }])]

def acceptedOf (names : List String) (tag : String) (w : Serving) : List String :=
  names.filter fun name => (w.users.live.access twoInbounds tag name).isSome

/-- After an install that succeeds, Bob is accepted though the current snapshot has only Alice; and
after one that fails, Bob is still accepted, and Carol instead of Alice. -/
theorem outside_scope_stays_and_failure_mixes :
    ((Run.exec (step showRevision twoInbounds) (fresh {} {}) scopeShrinks).last = some .ok ∧
      entriesIn (Run.exec (step showRevision twoInbounds) (fresh {} {}) scopeShrinks).users.current
        = [alice] ∧
      acceptedOf ["alice", "bob"] "in-2" (Run.exec (step showRevision twoInbounds) (fresh {} {}) scopeShrinks)
        = ["bob"]) ∧
    ((Run.exec (step showRevision twoInbounds) (fresh {} {}) updateFails).last = some (.error .update) ∧
      entriesIn (Run.exec (step showRevision twoInbounds) (fresh {} {}) updateFails).users.current
        = [alice, bob] ∧
      acceptedOf ["alice", "carol"] "in-1"
        (Run.exec (step showRevision twoInbounds) (fresh {} {}) updateFails)
        = ["carol"] ∧
      acceptedOf ["bob", "dave"] "in-2" (Run.exec (step showRevision twoInbounds) (fresh {} {}) updateFails)
        = ["bob"]) := by
  decide +kernel

end Serving

end OboardAgent.Users
