import Mathlib.Algebra.Order.Ring.Nat
import OboardAgent.Lib.Run
import OboardAgent.Activity.Collector

/-!
# What a complete report carries

Beside the collector runs a list of the records it has accepted. The slot of a minute is the
aggregate of the minute's records for as long as it is the minute's slot (`Filed`): a record that
is taken is never older than its slot, because the slot is never newer than `latest` and `latest`
is less than three minutes ahead.

A `Read` can be two minutes later than that. It reports minutes up to two minutes back without
looking whether the slot is still theirs, so a minute whose slot has been taken over is reported
empty and complete.
-/

namespace OboardAgent.Activity

/-! ## Records and their sums -/

/-- A record that the collector accepted. -/
structure Entry where
  id : Identity
  unix : Int
  upload : Nat
  download : Nat
deriving DecidableEq, Repr

def Entry.bit (e : Entry) : Nat := 1 <<< ((e.unix - minuteOf e.unix) / 5).toNat

/-- What a minute should hold of the records: their sums, and the five-second bits they fall in. -/
def total (l : List Entry) : Counters :=
  { activityBits := l.foldl (fun b e => b ||| e.bit) 0
    uploadBytes := min (l.map Entry.upload).sum maxUint64
    downloadBytes := min (l.map Entry.download).sum maxUint64 }

theorem add_min (s u : Nat) : add (min s maxUint64) u = min (s + u) maxUint64 := by
  unfold add
  split <;> omega

theorem total_concat (l : List Entry) (e : Entry) :
    total (l ++ [e]) = Minute.bump (total l) (e.unix - minuteOf e.unix) e.upload e.download := by
  simp only [total, Minute.bump, List.foldl_append, List.foldl_cons, List.foldl_nil,
    List.map_append, List.map_cons, List.map_nil, List.sum_append, List.sum_cons, List.sum_nil,
    Nat.add_zero, add_min]
  rfl

def recordsOf (accepted : List Entry) (minute : Int) (id : Identity) : List Entry :=
  accepted.filter fun e => minuteOf e.unix = minute ∧ e.id = id

/-- The bucket the records call for; none where there are none. -/
def bucketOf (accepted : List Entry) (minute : Int) (id : Identity) : Option Counters :=
  if recordsOf accepted minute id = [] then none else some (total (recordsOf accepted minute id))

variable {accepted : List Entry} {minute : Int}

theorem recordsOf_concat_self {e : Entry} (h : minuteOf e.unix = minute) :
    recordsOf (accepted ++ [e]) minute e.id = recordsOf accepted minute e.id ++ [e] := by
  simp [recordsOf, h]

theorem bucketOf_concat_other {e : Entry} {id : Identity}
    (h : ¬ (minuteOf e.unix = minute ∧ e.id = id)) :
    bucketOf (accepted ++ [e]) minute id = bucketOf accepted minute id := by
  have hsame : recordsOf (accepted ++ [e]) minute id = recordsOf accepted minute id := by
    rw [recordsOf, List.filter_append, List.filter_singleton, decide_eq_false h]
    exact List.append_nil _
  rw [bucketOf, bucketOf, hsame]

theorem bucketOf_eq_none (h : ∀ e ∈ accepted, minuteOf e.unix ≠ minute)
    (id : Identity) : bucketOf accepted minute id = none :=
  if_pos (List.filter_eq_nil_iff.mpr fun e he hmatch => h e he (of_decide_eq_true hmatch).1)

theorem bucketOf_eq_some {id : Identity} {b : Counters} :
    bucketOf accepted minute id = some b ↔
      recordsOf accepted minute id ≠ [] ∧ total (recordsOf accepted minute id) = b := by
  rw [bucketOf, Option.ite_none_left_eq_some, Option.some.injEq]

/-! ## The collector with its accepted records -/

structure World where
  collector : Collector := {}
  accepted : List Entry := []

namespace World

def step (w : World) (e : Event) : World :=
  { collector := w.collector.step e
    accepted := match e with
      | .record id unix upload download =>
        if w.collector.accepts id unix upload download then w.accepted ++ [⟨id, unix, upload, download⟩]
        else w.accepted
      | .setEnabled false => []
      | _ => w.accepted }

/-- Each slot holds what the records of its minute call for. -/
structure Filed (w : World) : Prop where
  latest_nonneg : 0 ≤ w.collector.latest
  slot : ∀ i, (w.collector.slots i).buckets ≠ none →
    (w.collector.slots i).start % 60 = 0 ∧ slotOf (w.collector.slots i).start = i ∧
      (w.collector.slots i).start ≤ w.collector.latest
  entry : ∀ e ∈ w.accepted, e.id.source.isSome ∧
    (w.collector.slots (slotOf (minuteOf e.unix))).buckets ≠ none ∧
    minuteOf e.unix ≤ (w.collector.slots (slotOf (minuteOf e.unix))).start
  bucket : ∀ i b, (w.collector.slots i).buckets = some b → ∀ id,
    b.lookup id = bucketOf w.accepted (w.collector.slots i).start id

variable {w : World}

theorem Filed.congr (h : Filed w) {c : Collector} (hlatest : c.latest = w.collector.latest)
    (hstart : ∀ i, (c.slots i).start = (w.collector.slots i).start)
    (hbuckets : ∀ i, (c.slots i).buckets = (w.collector.slots i).buckets) :
    Filed { w with collector := c } where
  latest_nonneg := hlatest ▸ h.latest_nonneg
  slot i hi := by
    simp only [hstart, hlatest, hbuckets] at hi ⊢
    exact h.slot i hi
  entry e he := by
    simp only [hstart, hbuckets]
    exact h.entry e he
  bucket i b hb id := by
    simp only [hstart, hbuckets] at hb ⊢
    exact h.bucket i b hb id

theorem Filed.start_le (h : Filed w) (hmod : minute % 60 = 0)
    (hlt : w.collector.latest - minute < retained)
    (hmade : (w.collector.slots (slotOf minute)).buckets ≠ none) :
    (w.collector.slots (slotOf minute)).start ≤ minute := by
  obtain ⟨hstart, hslot, hle⟩ := h.slot _ hmade
  rcases eq_or_apart_of_slotOf hstart hmod hslot with heq | hbefore | hafter
  · exact le_of_eq heq
  · unfold retained at hbefore
    omega
  · omega

/-- A minute within reach finds its slot, with what its records call for. -/
theorem Filed.slotFor (h : Filed w) (hmod : minute % 60 = 0)
    (hlt : w.collector.latest - minute < retained) :
    (w.collector.slotFor minute).start = minute ∧
      ∃ b, (w.collector.slotFor minute).buckets = some b ∧
        ∀ id, b.lookup id = bucketOf w.accepted minute id := by
  unfold Collector.slotFor
  extract_lets s made
  -- Whether the slot is marked dirty does not matter.
  suffices hmade : made.start = minute ∧ ∃ b, made.buckets = some b ∧
      ∀ id, b.lookup id = bucketOf w.accepted minute id by split <;> exact hmade
  simp only [made]
  by_cases hnew : s.buckets = none ∨ s.start ≠ minute
  · rw [if_pos hnew]
    refine ⟨rfl, ∅, rfl, fun id => ?_⟩
    refine (bucketOf_eq_none (fun e he hminute => ?_) id).symm
    obtain ⟨-, hmade, hle⟩ := h.entry e he
    rw [hminute] at hmade hle
    have hge := h.start_le hmod hlt hmade
    cases hnew with
    | inl hnone => exact hmade hnone
    | inr hne => exact hne (le_antisymm hge hle)
  · rw [if_neg hnew]
    rw [not_or, not_not] at hnew
    obtain ⟨b, hb⟩ := Option.ne_none_iff_exists'.mp hnew.1
    exact ⟨hnew.2, b, hb, fun id => hnew.2 ▸ h.bucket _ b hb id⟩

end World

theorem Minute.enter_buckets {s : Minute} {b : GoMap Identity Counters} (hb : s.buckets = some b)
    (id : Identity) (offset : Int) (upload download : Nat) :
    (s.enter id offset upload download).buckets =
      some (if id.source.isSome ∧ s.hasRoom id = true then
        b.insert id (bump ((b.lookup id).getD {}) offset upload download) else b) := by
  unfold Minute.enter
  by_cases hsource : id.source = none
  · rw [if_pos hsource, if_neg (by simp [hsource])]
    exact hb
  · have hsome : id.source.isSome := Option.isSome_iff_ne_none.mpr hsource
    rw [if_neg hsource]
    by_cases hroom : s.hasRoom id = true
    · rw [if_pos hroom, if_pos ⟨hsome, hroom⟩]
      simp only [hb, Option.getD_some]
    · rw [if_neg hroom, if_neg (fun hc => hroom hc.2)]
      exact hb

namespace World

variable {w : World}

theorem lookup_bump {b : GoMap Identity Counters}
    (hb : ∀ id, b.lookup id = bucketOf accepted minute id) {e : Entry}
    (he : minuteOf e.unix = minute) (id : Identity) :
    (b.insert e.id (Minute.bump ((b.lookup e.id).getD {}) (e.unix - minute) e.upload e.download)).lookup id
      = bucketOf (accepted ++ [e]) minute id := by
  rw [GoMap.lookup_insert_eq]
  by_cases hid : id = e.id
  · subst hid
    have htotal : (b.lookup e.id).getD {} = total (recordsOf accepted minute e.id) := by
      rw [hb, bucketOf]
      split
      · rename_i hnil
        rw [hnil]
        rfl
      · rfl
    rw [if_pos rfl, bucketOf, recordsOf_concat_self he, if_neg (by simp), total_concat, htotal, he]
  · rw [if_neg hid, bucketOf_concat_other (fun h => hid h.2.symm)]
    exact hb id

/-- A record goes into the bucket of its minute and identity, and into no other. -/
theorem Filed.record (h : Filed w) (id : Identity) (unix : Int) (upload download : Nat) :
    Filed (w.step (.record id unix upload download)) := by
  by_cases htakes : w.collector.takes id unix upload download = true
  · have htime : 0 ≤ unix ∧ w.collector.latest - minuteOf unix < retained := by
      simp only [Collector.takes, Bool.and_eq_true, decide_eq_true_eq] at htakes
      exact ⟨htakes.1.2, htakes.2⟩
    obtain ⟨hstart, b, hb, hlookup⟩ := h.slotFor (minuteOf_mod unix) htime.2
    have hbuckets := Minute.enter_buckets hb id (unix - minuteOf unix) upload download
    have hentered :=
        (Minute.enter_start (w.collector.slotFor (minuteOf unix)) id (unix - minuteOf unix) upload
      download).trans hstart
    have haccepts : w.collector.accepts id unix upload download = true ↔
        id.source.isSome = true ∧ (w.collector.slotFor (minuteOf unix)).hasRoom id = true := by
      simp only [Collector.accepts, htakes, Bool.true_and, Bool.and_eq_true]
    simp only [step, Collector.step, Collector.record, if_pos htakes]
    generalize (w.collector.slotFor (minuteOf unix)).enter id (unix - minuteOf unix) upload download = entered
      at hbuckets hentered ⊢
    constructor
    · show 0 ≤ (if w.collector.latest < minuteOf unix then minuteOf unix else w.collector.latest)
      have := h.latest_nonneg
      split <;> omega
    · intro i hi
      by_cases hslot : i = slotOf (minuteOf unix)
      · subst hslot
        simp only [Function.update_self, hentered, minuteOf_mod, true_and]
        split <;> omega
      · simp only [Function.update_of_ne hslot] at hi ⊢
        obtain ⟨hmod, hs, hle⟩ := h.slot i hi
        refine ⟨hmod, hs, ?_⟩
        split <;> omega
    · intro e he
      -- An older record of the same slot: the slot only moves on.
      have hold : e ∈ w.accepted → e.id.source.isSome ∧
          (Function.update w.collector.slots (slotOf (minuteOf unix)) entered
            (slotOf (minuteOf e.unix))).buckets ≠ none ∧
          minuteOf e.unix ≤ (Function.update w.collector.slots (slotOf (minuteOf unix)) entered
            (slotOf (minuteOf e.unix))).start := by
        intro hmem
        obtain ⟨hsource, hmade, hle⟩ := h.entry e hmem
        refine ⟨hsource, ?_⟩
        by_cases hslot : slotOf (minuteOf e.unix) = slotOf (minuteOf unix)
        · rw [hslot] at hmade hle ⊢
          simp only [Function.update_self, hbuckets, hentered]
          exact ⟨by simp, le_trans hle (h.start_le (minuteOf_mod unix) htime.2 hmade)⟩
        · simp only [Function.update_of_ne hslot]
          exact ⟨hmade, hle⟩
      dsimp only at he
      split at he
      · rename_i hacc
        cases List.mem_append.mp he with
        | inl hmem => exact hold hmem
        | inr hnew =>
          obtain rfl := List.mem_singleton.mp hnew
          simp only [Function.update_self, hbuckets, hentered]
          exact ⟨(haccepts.mp hacc).1, by simp, le_refl _⟩
      · exact hold he
    · intro i b' hb' id'
      by_cases hslot : i = slotOf (minuteOf unix)
      · subst hslot
        simp only [Function.update_self, hbuckets, hentered, Option.some.injEq] at hb' ⊢
        subst hb'
        by_cases hacc : w.collector.accepts id unix upload download = true
        · rw [if_pos (haccepts.mp hacc), if_pos hacc]
          exact lookup_bump hlookup (e := ⟨id, unix, upload, download⟩) rfl id'
        · rw [if_neg (fun hc => hacc (haccepts.mpr hc)), if_neg hacc]
          exact hlookup id'
      · simp only [Function.update_of_ne hslot] at hb' ⊢
        have hkeep := h.bucket i b' hb' id'
        split
        · -- The new record is of another minute: its slot is another one.
          have hne : minuteOf unix ≠ (w.collector.slots i).start := fun heq =>
            hslot ((h.slot i (by rw [hb']; simp)).2.1.symm.trans (congrArg slotOf heq.symm))
          rw [hkeep, bucketOf_concat_other (fun hc => hne hc.1)]
        · exact hkeep
  · have hacc : w.collector.accepts id unix upload download = false := by
      simp only [Collector.accepts, Bool.eq_false_iff.mpr htakes, Bool.false_and]
    simp only [step, Collector.step, Collector.record, if_neg htakes, hacc]
    split
    · exact h.congr rfl (fun _ => rfl) (fun _ => rfl)
    · exact h

theorem filed_start : Filed {} where
  latest_nonneg := le_refl _
  slot i hi := absurd rfl hi
  entry e he := absurd he List.not_mem_nil
  bucket i b hb := absurd hb (by simp)

theorem Filed.step (h : Filed w) (e : Event) : Filed (w.step e) := by
  cases e with
  | record id unix upload download => exact h.record id unix upload download
  | setEnabled enabled =>
    cases enabled with
    | false => exact filed_start
    | true => exact h.congr rfl (fun _ => rfl) (fun _ => rfl)
  | read now stream rand =>
    have hreading := Collector.reading w.collector now stream rand
    simp only [World.step, Collector.step]
    generalize w.collector.read now stream rand = x at hreading ⊢
    cases hreading with
    | nothing => exact h
    | old hboot _ =>
      rw [Collector.boot_eq hboot]
      exact h.congr rfl (fun _ => rfl) (fun _ => rfl)
    | new _ hboot =>
      rw [Collector.boot_eq hboot]
      exact h.congr rfl (fun i => (Collector.deliver_slots _ _ _ _ i).1)
        (fun i => (Collector.deliver_slots _ _ _ _ i).2)
  | ack boot sequence =>
    refine h.congr ?_ (fun i => ?_) (fun i => ?_)
    all_goals
      simp only [Collector.step, Collector.ack]
      split
      · rfl
      · split <;> rfl
  | alignClock unix aligned =>
    obtain ⟨since, upTo, heq⟩ := Collector.alignClock_eq w.collector unix aligned
    simp only [World.step, Collector.step, heq]
    exact h.congr rfl (fun _ => rfl) (fun _ => rfl)

/-! ## Complete reports -/

/-- The item that carries a bucket unchanged. -/
def exactItem (id : Identity) (b : Counters) : Item :=
  { userID := id.userID, inboundID := id.inboundID, pathID := id.pathID
    sourcePrefix := id.source.getD "", activityBits := b.activityBits
    uploadBytes := b.uploadBytes, downloadBytes := b.downloadBytes }

/-- The report has one item for each identity with records in its minute, with their union and
sums, and no other items; and it counts no losses. -/
structure Exact (r : Report) (accepted : List Entry) : Prop where
  items : ∀ x, x ∈ r.items ↔ ∃ id, recordsOf accepted r.minuteUnix id ≠ [] ∧
    x = exactItem id (total (recordsOf accepted r.minuteUnix id))
  nodup : r.items.Nodup
  losses : r.droppedUpdates = 0 ∧ r.unknownSourceUpdates = 0

theorem add_eq_zero {a b : Nat} (h : add a b = 0) : a = 0 ∧ b = 0 := by
  unfold add maxUint64 at h
  split at h <;> omega

theorem cuts_of_foldl : ∀ {l : List Counters} {n : Nat},
    l.foldl (fun n b => add n (Collector.cuts b)) n = 0 → ∀ b ∈ l, Collector.cuts b = 0
  | [], _, _ => nofun
  | b :: l, n, h => by
    have hfirst : add n (Collector.cuts b) = 0 := by
      -- The sum never falls.
      have hmono : ∀ (l : List Counters) (k : Nat),
          l.foldl (fun n b => add n (Collector.cuts b)) k = 0 → k = 0 := by
        intro l
        induction l with
        | nil => exact fun _ hk => hk
        | cons b l ih => exact fun k hk => (add_eq_zero (ih _ hk)).1
      exact hmono l _ h
    exact List.forall_mem_cons.mpr ⟨(add_eq_zero hfirst).2, cuts_of_foldl (l := l) h⟩

/-- A bucket that nothing is cut from is carried unchanged. -/
theorem item_of_cuts {id : Identity} {b : Counters} (h : Collector.cuts b = 0) :
    Collector.item id b = exactItem id b := by
  have hup : min b.uploadBytes maxInt64 = b.uploadBytes := by
    unfold Collector.cuts at h
    split at h <;> omega
  have hdown : min b.downloadBytes maxInt64 = b.downloadBytes := by
    unfold Collector.cuts at h
    split at h <;> split at h <;> omega
  simp only [Collector.item, exactItem, hup, hdown]

def bucketsAt (c : Collector) (minute : Int) : GoMap Identity Counters :=
  ((c.held minute).bind (·.buckets)).getD ∅

theorem mem_items {c : Collector} {unix finish minute : Int} {boot : Nat} {stream : String} {x : Item} :
    x ∈ (c.freeze unix finish minute boot stream).items ↔
      ∃ id b, (bucketsAt c minute).lookup id = some b ∧ x = Collector.item id b := by
  show x ∈ ((bucketsAt c minute).entries.map fun e => Collector.item e.1 e.2).mergeSort _ ↔ _
  rw [List.mem_mergeSort, List.mem_map]
  constructor
  · rintro ⟨e, he, rfl⟩
    exact ⟨e.1, e.2, AList.mem_lookup_iff.mpr he, rfl⟩
  · rintro ⟨id, b, hb, rfl⟩
    exact ⟨⟨id, b⟩, AList.mem_lookup_iff.mp hb, rfl⟩

theorem exact_of_buckets {c : Collector} {unix finish minute : Int} {boot : Nat} {stream : String}
    (hcomplete : (c.freeze unix finish minute boot stream).complete = true)
    (hb : ∀ id, (bucketsAt c minute).lookup id = bucketOf accepted minute id)
    (hsource : ∀ e ∈ accepted, e.id.source.isSome) :
    Exact (c.freeze unix finish minute boot stream) accepted := by
  obtain ⟨-, -, -, hdropped, hunknown⟩ := of_decide_eq_true hcomplete
  have hcuts : ∀ id b, (bucketsAt c minute).lookup id = some b → Collector.cuts b = 0 :=
    fun id b hid => cuts_of_foldl hdropped b (GoMap.mem_values.mpr ⟨id, hid⟩)
  refine ⟨fun x => ?_, ?_, hdropped, hunknown⟩
  · rw [mem_items]
    constructor
    · rintro ⟨id, b, hid, rfl⟩
      obtain ⟨hne, rfl⟩ := bucketOf_eq_some.mp ((hb id).symm.trans hid)
      exact ⟨id, hne, item_of_cuts (hcuts id _ hid)⟩
    · rintro ⟨id, hne, rfl⟩
      have hbucket := (hb id).trans (bucketOf_eq_some.mpr ⟨hne, rfl⟩)
      exact ⟨id, _, hbucket, (item_of_cuts (hcuts id _ hbucket)).symm⟩
  · -- The items are those of distinct identities, and an item tells its identity.
    have hsome : ∀ e ∈ (bucketsAt c minute).entries, e.1.source.isSome := by
      intro e he
      obtain ⟨hne, -⟩ := bucketOf_eq_some.mp ((hb e.1).symm.trans (AList.mem_lookup_iff.mpr he))
      obtain ⟨y, hy⟩ := List.exists_mem_of_ne_nil _ hne
      obtain ⟨hmem, hmatch⟩ := List.mem_filter.mp hy
      exact (of_decide_eq_true hmatch).2 ▸ hsource y hmem
    show (((bucketsAt c minute).entries.map fun e => Collector.item e.1 e.2).mergeSort _).Nodup
    rw [(List.mergeSort_perm _ _).nodup_iff]
    refine List.Nodup.map_on (fun e he f hf heq => ?_) (bucketsAt c minute).nodupKeys.nodup
    obtain ⟨u, hu⟩ := Option.isSome_iff_exists.mp (hsome e he)
    obtain ⟨v, hv⟩ := Option.isSome_iff_exists.mp (hsome f hf)
    have hid : e.1 = f.1 := by
      simp only [Collector.item, Item.mk.injEq, hu, hv, Option.getD_some] at heq
      obtain ⟨huser, hinbound, hpath, hprefix, -⟩ := heq
      cases he1 : e.1
      cases hf1 : f.1
      simp_all
    have hval : some e.2 = some f.2 := by
      rw [← Option.mem_def.mp (AList.mem_lookup_iff.mpr he),
        ← Option.mem_def.mp (AList.mem_lookup_iff.mpr hf), hid]
    exact Sigma.ext hid (heq_of_eq (Option.some.inj hval))

theorem lookup_bucketsAt_of_start_ne {c : Collector} (h : (c.slots (slotOf minute)).start ≠ minute)
    (id : Identity) : (World.bucketsAt c minute).lookup id = none := by
  simp only [World.bucketsAt, Collector.held, if_neg h, Option.bind_none, Option.getD_none,
    AList.lookup_empty]

theorem recordsOf_since {l : List Entry} {started minute : Int} (h : started ≤ minute) (id : Identity) :
    recordsOf (l.filter fun e => started ≤ e.unix) minute id = recordsOf l minute id := by
  simp only [recordsOf, List.filter_filter]
  refine List.filter_congr fun e _ => ?_
  by_cases hm : minuteOf e.unix = minute
  · have hunix : started ≤ e.unix := le_trans h (hm ▸ minuteOf_le e.unix)
    simp [hunix]
  · simp [hm]

theorem Filed.bucketsAt (h : Filed w)
    (hslot : (w.collector.slots (slotOf minute)).start ≤ minute ∨
      ∀ e ∈ w.accepted, minuteOf e.unix ≠ minute) (id : Identity) :
    (World.bucketsAt w.collector minute).lookup id = bucketOf w.accepted minute id := by
  by_cases hstart : (w.collector.slots (slotOf minute)).start = minute
  · simp only [World.bucketsAt, Collector.held]
    rw [if_pos hstart]
    cases hb : (w.collector.slots (slotOf minute)).buckets with
    | some b =>
      simp only [Option.bind_some, hb, Option.getD_some]
      exact hstart ▸ h.bucket _ b hb id
    | none =>
      simp only [Option.bind_some, hb, Option.getD_none, AList.lookup_empty]
      exact (bucketOf_eq_none (fun e he heq => (heq ▸ (h.entry e he).2.1) hb) id).symm
  · rw [lookup_bucketsAt_of_start_ne hstart]
    refine (bucketOf_eq_none (fun e he heq => ?_) id).symm
    have hle := (h.entry e he).2.2
    rw [heq] at hle
    cases hslot with
    | inl hbefore => omega
    | inr hno => exact hno e he heq

/-- A new report that is marked complete carries exactly the aggregate of the records accepted in
its minute since delivery started, if and only if no later minute has taken over the slot, or
there was nothing to carry. -/
theorem complete_report_exact_iff {es : List Event} {now : Int} {stream : String}
    {rand : Option Nat} {c' : Collector} {r : Report}
    (hread : (Run.exec step {} es).collector.read now stream rand = (c', some r, true))
    (hcomplete : r.complete = true) :
    Exact r ((Run.exec step {} es).accepted.filter fun e => c'.delivery.started ≤ e.unix) ↔
      ((Run.exec step {} es).collector.slots (slotOf r.minuteUnix)).start ≤ r.minuteUnix ∨
        ∀ e ∈ (Run.exec step {} es).accepted, minuteOf e.unix ≠ r.minuteUnix := by
  have hfiled : Filed (Run.exec step {} es) := Run.invariant_all (fun _ e h => h.step e) filed_start
  generalize Run.exec step {} es = w at hread hfiled ⊢
  have hreading := Collector.reading w.collector now stream rand
  rw [hread] at hreading
  obtain - | - | @⟨c₁, finish, _, -, hboot, -, hr⟩ := hreading
  have heq : c₁ = { w.collector with delivery := c₁.delivery } := Collector.boot_eq hboot
  have hstarted : c₁.delivery.started ≤ r.minuteUnix := by
    rw [hr] at hcomplete ⊢
    exact (of_decide_eq_true hcomplete).1
  -- Since its minute began after the delivery did, all its records did.
  have hsince := recordsOf_since (l := w.accepted) hstarted
  have hbuckets : World.bucketsAt c₁ r.minuteUnix = World.bucketsAt w.collector r.minuteUnix := by
    rw [heq]
    rfl
  have hminute : r.minuteUnix = (c₁.pick finish).1 := by rw [hr]; rfl
  constructor
  · intro hexact
    by_contra hcon
    rw [not_or] at hcon
    obtain ⟨hlate, hsome⟩ := hcon
    simp only [not_forall, not_not] at hsome
    obtain ⟨e, he, hm⟩ := hsome
    have hne : recordsOf w.accepted r.minuteUnix e.id ≠ [] :=
      List.ne_nil_of_mem (List.mem_filter.mpr ⟨he, by simp [hm]⟩)
    -- The slot is another minute's, so the report has no items.
    have hmem := (hexact.items _).mpr ⟨e.id, (hsince e.id).symm ▸ hne, rfl⟩
    rw [hr, mem_items, ← hminute, hbuckets] at hmem
    obtain ⟨id, b, hid, -⟩ := hmem
    rw [lookup_bucketsAt_of_start_ne (by omega)] at hid
    cases hid
  · intro hcond
    have hlookup : ∀ id, (World.bucketsAt w.collector r.minuteUnix).lookup id
        = bucketOf (w.accepted.filter fun e => c₁.delivery.started ≤ e.unix) r.minuteUnix id := by
      intro id
      rw [bucketOf, hsince id, ← bucketOf]
      exact hfiled.bucketsAt hcond id
    rw [hr] at hcomplete ⊢
    rw [← hminute] at hcomplete ⊢
    refine exact_of_buckets hcomplete (fun id => hbuckets ▸ hlookup id) fun e he => ?_
    exact (hfiled.entry e (List.mem_filter.mp he).1).1

def upTo540 (after : List Event) : List Event :=
  [.setEnabled true, .read (600 * second) "kernel" (some 0), .ack 0 1, .record someone 600 5 0,
    .read (780 * second) "kernel" none, .ack 0 2] ++ after

def reportAt840 (after : List Event) : Option Report × Bool :=
  ((Run.exec step {} (upTo540 after)).collector.read (840 * second) "kernel" none).2

def fiveBytes : Report :=
  { collectorBootID := 0, collectorStartedAt := 600 * second, streamType := "kernel", sequence := 3
    minuteUnix := 600, clockState := .unknown, complete := true, droppedUpdates := 0
    unknownSourceUpdates := 0, items := [⟨1, 2, 0, "8.8.8.0/24", 1, 5, 0⟩] }

theorem five_bytes_reported :
    fiveBytes.complete = true ∧
      Exact fiveBytes ((Run.exec step {} (upTo540 [])).accepted.filter fun e =>
        ((Run.exec step {} (upTo540 [])).collector.read (840 * second) "kernel" none).1.delivery.started
          ≤ e.unix) := by
  have hread : (Run.exec step {} (upTo540 [])).collector.read (840 * second) "kernel" none
      = (((Run.exec step {} (upTo540 [])).collector.read (840 * second) "kernel" none).1,
        some fiveBytes, true) :=
    Prod.ext rfl (by decide +kernel)
  exact ⟨rfl, (complete_report_exact_iff hread rfl).mpr (Or.inl (by decide +kernel))⟩

/-- A record at 780 s takes over the slot of the minute 600; its report is empty, and marked
complete. -/
theorem overwritten_minute_is_complete :
    reportAt840 [.record someone 780 7 0] = (some { fiveBytes with items := [] }, true) ∧
      (Run.exec step {} (upTo540 [.record someone 780 7 0])).accepted
        = [⟨someone, 600, 5, 0⟩, ⟨someone, 780, 7, 0⟩] := by
  decide +kernel

/-- **An accepted record stays until a later minute takes its slot over**: in every run the slot of
a minute holds, for each identity, the union and the sums of the records accepted in that minute, or
is a later minute's. -/
theorem accepted_is_aggregated {es : List Event} {minute : Int} {id : Identity}
    (h : recordsOf (Run.exec step {} es).accepted minute id ≠ []) :
    let w := Run.exec step {} es
    minute < (w.collector.slots (slotOf minute)).start ∨
      (w.collector.slots (slotOf minute)).buckets.bind (·.lookup id)
        = some (total (recordsOf w.accepted minute id)) := by
  intro w
  have hfiled : Filed w := Run.invariant_all (fun _ e h => h.step e) filed_start
  obtain ⟨e, hmem⟩ := List.exists_mem_of_ne_nil _ h
  obtain ⟨he, hmatch⟩ := List.mem_filter.mp hmem
  obtain ⟨rfl, rfl⟩ := of_decide_eq_true hmatch
  obtain ⟨-, hmade, hle⟩ := hfiled.entry e he
  refine (Int.lt_or_eq_of_le hle).imp_right fun hstart => ?_
  obtain ⟨b, hb⟩ := Option.ne_none_iff_exists'.mp hmade
  rw [hb, Option.bind_some, hfiled.bucket _ b hb, ← hstart]
  exact bucketOf_eq_some.mpr ⟨h, rfl⟩

theorem accepted_is_aggregated_at_600 :
    let w := Run.exec step {} (upTo540 [])
    600 < (w.collector.slots (slotOf 600)).start ∨
      (w.collector.slots (slotOf 600)).buckets.bind (·.lookup someone)
        = some (total (recordsOf w.accepted 600 someone)) :=
  accepted_is_aggregated (by decide +kernel)

end World

end OboardAgent.Activity
