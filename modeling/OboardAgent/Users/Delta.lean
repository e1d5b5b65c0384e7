import OboardAgent.Users.Store

/-!
# A change, and the full request it stands for

`mergeUserEntries` overlays a change on the current snapshot: what is there keeps its place, what is
new comes at the end, and only the digest puts the entries in order. A snapshot that is built from a
change has the entries and the digest of the one built from all entries.
-/

namespace OboardAgent.Users

open Quota (UserInstallEntry)

variable {base delta l l' : List UserInstallEntry} {e : UserInstallEntry} {scope : List String}

/-! ## Order -/

theorem nodup_eraseDups {α : Type} [BEq α] [LawfulBEq α] : ∀ l : List α, l.eraseDups.Nodup
  | [] => by simp
  | a :: l => by
    rw [List.eraseDups_cons, List.nodup_cons]
    exact ⟨by simp [List.mem_eraseDups], nodup_eraseDups _⟩
termination_by l => l.length
decreasing_by exact Nat.lt_succ_of_le (List.length_filter_le _ _)

theorem uniqueSorted_eq_of_perm {scope' : List String} (h : scope.Perm scope') :
    uniqueSorted scope = uniqueSorted scope' := by
  unfold uniqueSorted
  have hcleaned := (h.map GoStrings.trimSpace).filter (· ≠ "")
  refine List.Perm.eq_of_pairwise' (r := (· ≤ ·)) (List.pairwise_insertionSort _ _)
    (List.pairwise_insertionSort _ _) ?_
  refine ((List.perm_insertionSort _ _).trans ?_).trans (List.perm_insertionSort _ _).symm
  refine (List.perm_ext_iff_of_nodup (nodup_eraseDups _) (nodup_eraseDups _)).mpr fun x => ?_
  rw [List.mem_eraseDups, List.mem_eraseDups, hcleaned.mem_iff]

theorem entryLE_iff {a b : UserInstallEntry} : entryLE a b = true ↔
    a.inboundTag < b.inboundTag ∨ a.inboundTag = b.inboundTag ∧ a.authUser ≤ b.authUser := by
  unfold entryLE
  by_cases h : a.inboundTag = b.inboundTag <;> simp [h]

/-- The entries as the digest takes them. -/
def ordered (l : List UserInstallEntry) : List UserInstallEntry := l.insertionSort (entryLE · ·)

theorem ordered_eq (hkeys : (l.map keyOf).Nodup) (hkeys' : (l'.map keyOf).Nodup) (h : ∀ e, e ∈ l ↔ e ∈ l') :
    ordered l = ordered l' := by
  have : Std.Total fun a b => entryLE a b = true := ⟨fun a b => by grind [entryLE_iff]⟩
  have : IsTrans UserInstallEntry fun a b => entryLE a b = true := ⟨fun a b c => by grind [entryLE_iff]⟩
  have hperm := (List.perm_ext_iff_of_nodup hkeys.of_map hkeys'.of_map).mpr h
  refine (((List.perm_insertionSort _ l).trans hperm).trans
    (List.perm_insertionSort _ l').symm).eq_of_pairwise
    ?_ (List.pairwise_insertionSort _ _) (List.pairwise_insertionSort _ _)
  intro a b ha hb hab hba
  refine List.inj_on_of_nodup_map hkeys ((List.mem_insertionSort _).mp ha)
    ((h b).mpr ((List.mem_insertionSort _).mp hb)) ?_
  grind [entryLE_iff, keyOf]

/-! ## What a change stands for -/

/-- The change leaves the entry as it is, or brings it. -/
def Overlaid (base delta : List UserInstallEntry) (e : UserInstallEntry) : Prop :=
  (e ∈ base ∧ keyOf e ∉ delta.map keyOf) ∨ (e ∈ delta ∧ deletes e = false)

def indexed (base delta : List UserInstallEntry) :
    GoMap (String × String) UserInstallEntry × List (String × String) :=
  delta.foldl mergeEntry (base.foldl (fun m entry => m.insert (keyOf entry) entry) ∅, base.map keyOf)

theorem lookup_index (hbase : (base.map keyOf).Nodup) {k : String × String} :
    (base.foldl (fun m entry => m.insert (keyOf entry) entry)
      (∅ : GoMap (String × String) UserInstallEntry)).lookup k
      = some e ↔ keyOf e = k ∧ e ∈ base := by
  induction base using List.reverseRecOn with
  | nil => simp
  | append_singleton base b ih =>
    rw [List.map_append, List.nodup_append] at hbase
    have hb : ∀ x ∈ base, keyOf x ≠ keyOf b := fun x hx => hbase.2.2 _ (List.mem_map_of_mem hx) _ (by simp)
    rw [List.foldl_append, List.foldl_cons, List.foldl_nil, GoMap.lookup_insert_eq]
    have := ih hbase.1
    grind

theorem indexed_spec (hbase : (base.map keyOf).Nodup) (hdelta : (delta.map keyOf).Nodup)
    (k : String × String) :
    (∀ e, (indexed base delta).1.lookup k = some e ↔ keyOf e = k ∧ Overlaid base delta e) ∧
      (((indexed base delta).1.lookup k).isSome → k ∈ (indexed base delta).2) := by
  induction delta using List.reverseRecOn with
  | nil =>
    refine ⟨fun e => by simpa [indexed, Overlaid] using lookup_index hbase, fun h => ?_⟩
    obtain ⟨e, he⟩ := Option.isSome_iff_exists.mp h
    obtain ⟨rfl, hmem⟩ := (lookup_index hbase).mp he
    exact List.mem_map_of_mem hmem
  | append_singleton delta d ih =>
    rw [List.map_append, List.nodup_append] at hdelta
    have hd : ∀ x ∈ delta, keyOf x ≠ keyOf d := fun x hx => hdelta.2.2 _ (List.mem_map_of_mem hx) _ (by simp)
    have hone : ∀ e, Overlaid base (delta ++ [d]) e ↔
        (Overlaid base delta e ∧ keyOf e ≠ keyOf d) ∨ (e = d ∧ deletes d = false) := by
      simp only [Overlaid, List.map_append, List.mem_append, List.map_singleton, List.mem_singleton]
      grind
    have hstep : indexed base (delta ++ [d]) = mergeEntry (indexed base delta) d := by simp [indexed]
    obtain ⟨hlookup, horder⟩ := ih hdelta.1
    simp only [hstep, mergeEntry, hone]
    split
    · simp only [GoMap.lookup_erase_eq]
      grind
    · simp only [GoMap.lookup_insert_eq]
      grind

theorem mergeUserEntries_spec (hbase : (base.map keyOf).Nodup) (hdelta : (delta.map keyOf).Nodup) :
    ((mergeUserEntries base delta).map keyOf).Nodup ∧
      ∀ e, e ∈ mergeUserEntries base delta ↔ Overlaid base delta e := by
  have hmerge : mergeUserEntries base delta = (indexed base delta).2.eraseDups.filterMap
      (indexed base delta).1.lookup :=
    rfl
  have hspec := indexed_spec hbase hdelta
  rw [hmerge]
  constructor
  · rw [List.map_filterMap]
    refine List.Nodup.filterMap (fun k k' key hk hk' => ?_) (nodup_eraseDups _)
    obtain ⟨e, he, rfl⟩ := Option.map_eq_some_iff.mp hk
    obtain ⟨e', he', heq⟩ := Option.map_eq_some_iff.mp hk'
    exact (((hspec k).1 e).mp he).1.symm.trans (heq.symm.trans (((hspec k').1 e').mp he').1)
  · intro e
    rw [List.mem_filterMap]
    constructor
    · rintro ⟨k, -, hk⟩
      exact (((hspec k).1 e).mp hk).2
    · intro he
      have hk := ((hspec (keyOf e)).1 e).mpr ⟨rfl, he⟩
      exact ⟨keyOf e, List.mem_eraseDups.mpr ((hspec _).2 (by rw [hk]; rfl)), hk⟩

/-! ## Installs -/

/-- A snapshot as it is built: cleaned entries, each legal and with a key of its own. -/
structure UserSnapshot.WellFormed (s : UserSnapshot) : Prop where
  clean : ∀ e ∈ s.entries, cleanEntry e = e
  legal : ∀ e ∈ s.entries, entryLegal .full s.scope e = true
  keys : (s.entries.map keyOf).Nodup

theorem legal_full (h : entryLegal .delta scope e = true) (hkeep : deletes e = false) :
    entryLegal .full scope e = true := by
  unfold entryLegal deletes at *
  grind

def checked (codec : Codec) (revision : Int) (digest : String) (scope : List String)
    (l : List UserInstallEntry) : Except InstallError UserSnapshot :=
  if usersDigest codec revision scope l = digest then .ok ⟨revision, digest, scope, l⟩ else .error .digest

theorem checked_ordered {codec : Codec} {revision : Int} {digest : String} (hkeys : (l.map keyOf).Nodup) :
    (checked codec revision digest scope l).map (fun s => { s with entries := ordered s.entries }) =
      checked codec revision digest scope (ordered l) := by
  have hperm : (ordered l).Perm l := List.perm_insertionSort _ _
  have hagain := ordered_eq ((hperm.map keyOf).nodup_iff.mpr hkeys) hkeys fun e => hperm.mem_iff
  have hsame : usersDigest codec revision scope (ordered l) = usersDigest codec revision scope l :=
    congrArg (fun l => codec.hash ⟨revision, uniqueSorted scope, l⟩) hagain
  unfold checked
  rw [hsame]
  split <;> rfl

theorem build_of_legal (codec : Codec) (req : UserInstallRequest) (current : Option UserSnapshot)
    (hclean : ∀ e ∈ l, cleanEntry e = e)
    (hlegal : ∀ e ∈ l, entryLegal req.mode (uniqueSorted req.scope) e = true)
    (hkeys : (l.map keyOf).Nodup)
    (hmerged : req.mode = .full ∧ l' = ordered l ∨ req.mode = .delta ∧
      ∃ c, current = some c ∧ c.revision = req.baseRevision ∧ l' = mergeUserEntries c.entries (ordered l)) :
    buildSnapshot codec req l current = checked codec req.usersRevision req.usersDigest
      (uniqueSorted req.scope) l' := by
  have hmap : l.map cleanEntry = l := (List.map_congr_left hclean).trans (List.map_id' l)
  unfold buildSnapshot checked
  simp only [hmap, List.all_eq_true.mpr hlegal, hkeys]
  rcases hmerged with ⟨hmode, rfl⟩ | ⟨hmode, c, rfl, hbase, rfl⟩
  · simp only [hmode, ordered]
    grind
  · simp only [hmode, hbase, ordered]
    grind

/-- **A change gives what the full request it stands for gives**: the same snapshot, once its
entries are in order, or the same error. A built snapshot is well formed, and its digest does not
depend on the order of the scope and the entries. -/
theorem delta_eq_full (codec : Codec) (c : UserSnapshot) (hc : c.WellFormed) (req full : UserInstallRequest)
    (current : Option UserSnapshot) (delta entries : List UserInstallEntry)
    (hreq : req.mode = .delta ∧ req.baseRevision = c.revision ∧ uniqueSorted req.scope = c.scope)
    (hfull : full.mode = .full ∧ uniqueSorted full.scope = c.scope ∧
      full.usersRevision = req.usersRevision ∧ full.usersDigest = req.usersDigest)
    (hclean : ∀ e ∈ delta, cleanEntry e = e) (hlegal : ∀ e ∈ delta, entryLegal .delta c.scope e = true)
    (hkeys : (delta.map keyOf).Nodup)
    (hentries : (entries.map keyOf).Nodup ∧ ∀ e, e ∈ entries ↔ Overlaid c.entries delta e) :
    (buildSnapshot codec req delta (some c)).map (fun s => { s with entries := ordered s.entries }) =
      buildSnapshot codec full entries current ∧
    (∀ s, buildSnapshot codec req delta (some c) = .ok s → s.WellFormed) ∧
    ∀ s s' : UserSnapshot, s.WellFormed → s'.revision = s.revision → s'.scope.Perm s.scope →
      s'.entries.Perm s.entries → userSnapshotDigest codec s' = userSnapshotDigest codec s := by
  obtain ⟨hdelta, hbase, hscope⟩ := hreq
  obtain ⟨hf, hscope', hrevision, hdigest⟩ := hfull
  have hsorted : (ordered delta).Perm delta := List.perm_insertionSort _ _
  obtain ⟨hmkeys, hmem⟩ := mergeUserEntries_spec hc.keys ((hsorted.map keyOf).nodup_iff.mpr hkeys)
  have hover : ∀ e, e ∈ mergeUserEntries c.entries (ordered delta) ↔ Overlaid c.entries delta e := by
    intro e
    rw [hmem, Overlaid, Overlaid, (hsorted.map keyOf).mem_iff, hsorted.mem_iff]
  have hall : ∀ e, Overlaid c.entries delta e → cleanEntry e = e ∧ entryLegal .full c.scope e = true := by
    rintro e (⟨he, -⟩ | ⟨he, hkeep⟩)
    · exact ⟨hc.clean e he, hc.legal e he⟩
    · exact ⟨hclean e he, legal_full (hlegal e he) hkeep⟩
  have hdbuild := build_of_legal codec req (some c) hclean (by rwa [hdelta, hscope]) hkeys
    (Or.inr ⟨hdelta, c, rfl, hbase.symm, rfl⟩)
  have hfbuild := build_of_legal codec full current
    (fun e he => (hall e ((hentries.2 e).mp he)).1)
    (by rw [hf, hscope']; exact fun e he => (hall e ((hentries.2 e).mp he)).2) hentries.1 (Or.inl ⟨hf, rfl⟩)
  rw [hscope] at hdbuild
  have horder := ordered_eq hmkeys hentries.1 fun e => (hover e).trans (hentries.2 e).symm
  refine ⟨?_, ?_, ?_⟩
  · rw [hdbuild, hfbuild, hscope', hrevision, hdigest, ← horder]
    exact checked_ordered hmkeys
  · intro s hs
    rw [hdbuild] at hs
    unfold checked at hs
    split at hs
    · cases hs
      exact ⟨fun e he => (hall e ((hover e).mp he)).1, fun e he => (hall e ((hover e).mp he)).2, hmkeys⟩
    · cases hs
  · intro s s' hs hrev hsc hent
    unfold userSnapshotDigest usersDigest
    rw [hrev, uniqueSorted_eq_of_perm hsc]
    exact congrArg (fun l => codec.hash ⟨_, _, l⟩)
      (ordered_eq ((hent.map keyOf).nodup_iff.mpr hs.keys) hs.keys fun e => hent.mem_iff)

def userEntry (name password key : String) : UserInstallEntry :=
  { inboundTag := "in", authUser := name, credential := { password := password }, authorizationKey := key }

def twoUsers : UserSnapshot :=
  { revision := 1, digest := "", scope := ["in"], entries :=
    [userEntry "a" "p" "ka", userEntry "b" "p" "kb"] }

def changes : List UserInstallEntry := [userEntry "c" "p" "kc", userEntry "b" "q" "kb", userEntry "a" "" ""]

def listing : Codec where
  hash c := "".intercalate (c.entries.map fun e => e.authUser ++ e.credential.password)
  chunkHash _ := ""
  chunkBytes _ := 0

def changeRequest (mode : Mode) : UserInstallRequest :=
  { scope := ["in"], usersRevision := 2, usersDigest := "bqcp", mode := mode, baseRevision :=
    1, entries := [] }

theorem changes_eq_full :
    (buildSnapshot listing (changeRequest .delta) changes (some twoUsers)).map
        (fun s => { s with entries := ordered s.entries }) =
      buildSnapshot listing (changeRequest .full) [userEntry "c" "p" "kc", userEntry "b" "q" "kb"] none ∧
    (buildSnapshot listing (changeRequest .full) [userEntry "c" "p" "kc", userEntry "b" "q" "kb"]
      none).isOk := by
  refine ⟨(delta_eq_full listing twoUsers ⟨by decide, by decide, by decide⟩ (changeRequest .delta)
    (changeRequest .full) none changes _ (by decide) (by decide) (by decide) (by decide) (by decide)
    ⟨by decide, fun e => ?_⟩).1, by decide⟩
  simp only [Overlaid, twoUsers, changes, userEntry, keyOf, deletes, List.mem_cons,
    List.not_mem_nil, List.map_cons]
  grind

end OboardAgent.Users
