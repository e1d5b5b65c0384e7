import OboardAgent.Lib.GoMap
import Mathlib.Data.Fin.Basic
import Mathlib.Logic.Function.Basic

/-!
# The activity collector

`internal/activity`: payload is recorded by minute in a ring of three slots, and delivered one
minute at a time as numbered reports. A slot belongs to every third minute; a newer minute takes
it over from an older one. `Read` freezes the next minute two minutes after it began to be
recorded, keeps the report pending until it is acknowledged, and goes back for a minute that got
records after it had been passed (a correction).

A network group (`netip.Prefix`) is its canonical text, and none where the source is unavailable.
Unsigned counters are natural numbers, saturating where the source saturates them. The random
boot id is a number that the environment supplies, or does not.
-/

namespace OboardAgent.Activity

def capacity : Nat := 4096
def perAccountCapacity : Nat := 32
def retained : Int := 180

def maxUint64 : Nat := 18446744073709551615
def maxInt64 : Nat := 9223372036854775807

structure Identity where
  userID : Int
  inboundID : Int
  pathID : Int
  source : Option String
deriving DecidableEq, Repr

@[ext] structure Counters where
  activityBits : Nat := 0
  uploadBytes : Nat := 0
  downloadBytes : Nat := 0
deriving DecidableEq, Repr

def add (a b : Nat) : Nat := if maxUint64 - a < b then maxUint64 else a + b

/-- `minute`; its `at` is `start` here, and `buckets` is none for a nil map. -/
structure Minute where
  start : Int := 0
  buckets : Option (GoMap Identity Counters) := none
  accounts : GoMap Int Nat := ∅
  dropped : Nat := 0
  unknown : Nat := 0
  dirty : Bool := false

/-- `auditwire.Item`. -/
structure Item where
  userID : Int
  inboundID : Int
  pathID : Int
  sourcePrefix : String
  activityBits : Nat
  uploadBytes : Nat
  downloadBytes : Nat
deriving DecidableEq, Repr

inductive ClockState where
  | unknown
  | aligned
  | unaligned
deriving DecidableEq, Repr

/-- `auditwire.Report`. -/
structure Report where
  collectorBootID : Nat
  collectorStartedAt : Int
  streamType : String
  sequence : Nat
  minuteUnix : Int
  clockState : ClockState
  complete : Bool
  droppedUpdates : Nat
  unknownSourceUpdates : Nat
  items : List Item
deriving DecidableEq, Repr

structure DeliveryState where
  boot : Option Nat := none
  generation : Int := 0
  sequence : Nat := 0
  next : Int := 0
  pending : Option Report := none
  started : Int := 0
deriving DecidableEq, Repr

structure Collector where
  enabled : Bool := false
  latest : Int := 0
  slots : Fin 3 → Minute := fun _ => {}
  unalignedUntil : Int := 0
  delivery : DeliveryState := {}
  clockSince : Int := 0
  clockUntil : Int := 0

def minuteOf (unix : Int) : Int := unix / 60 * 60

def slotOf (minute : Int) : Fin 3 := ⟨(minute / 60 % 3).toNat, by omega⟩

theorem minuteOf_le (unix : Int) : minuteOf unix ≤ unix := by
  unfold minuteOf
  omega

theorem minuteOf_mod (unix : Int) : minuteOf unix % 60 = 0 := by
  unfold minuteOf
  omega

theorem eq_or_apart_of_slotOf {a b : Int} (ha : a % 60 = 0) (hb : b % 60 = 0)
    (h : slotOf a = slotOf b) : a = b ∨ a + retained ≤ b ∨ b + retained ≤ a := by
  have hval := congrArg Fin.val h
  simp only [slotOf] at hval
  unfold retained
  omega

/-! ## Recording -/

namespace Minute

/-- Bytes in the five-second slice that begins `offset` seconds into the minute. -/
def bump (b : Counters) (offset : Int) (upload download : Nat) : Counters :=
  { activityBits := b.activityBits ||| 1 <<< (offset / 5).toNat
    uploadBytes := add b.uploadBytes upload
    downloadBytes := add b.downloadBytes download }

def hasRoom (s : Minute) (id : Identity) : Bool :=
  ((s.buckets.getD ∅).lookup id).isSome ||
    !(capacity ≤ GoMap.size (s.buckets.getD ∅) ||
      perAccountCapacity ≤ (s.accounts.lookup id.userID).getD 0)

def enter (s : Minute) (id : Identity) (offset : Int) (upload download : Nat) : Minute :=
  if id.source = none then { s with unknown := add s.unknown 1 }
  else if s.hasRoom id then
    let found := (s.buckets.getD ∅).lookup id
    { s with
      buckets := some ((s.buckets.getD ∅).insert id (bump (found.getD {}) offset upload download))
      accounts := if found.isSome then s.accounts
        else s.accounts.insert id.userID ((s.accounts.lookup id.userID).getD 0 + 1) }
  else { s with dropped := add s.dropped 1 }

end Minute

namespace Collector

variable (c : Collector)

def takes (id : Identity) (unix : Int) (upload download : Nat) : Bool :=
  0 < id.userID && !(upload = 0 && download = 0) && c.enabled && 0 ≤ unix &&
    c.latest - minuteOf unix < retained

def slotFor (minute : Int) : Minute :=
  let s := c.slots (slotOf minute)
  let s := if s.buckets = none ∨ s.start ≠ minute then { start := minute, buckets := some ∅ } else s
  if c.delivery.boot.isSome ∧ minute < c.delivery.next then { s with dirty := true } else s

def record (id : Identity) (unix : Int) (upload download : Nat) (c : Collector) : Collector :=
  if c.takes id unix upload download then
    let minute := minuteOf unix
    { c with
      latest := if c.latest < minute then minute else c.latest
      slots := Function.update c.slots (slotOf minute)
        ((c.slotFor minute).enter id (unix - minute) upload download) }
  else if 0 < id.userID ∧ ¬ (upload = 0 ∧ download = 0) ∧ c.enabled = true then
    -- A negative or an old time is not moved into a current bucket.
    { c with unalignedUntil := c.latest + retained }
  else c

def accepts (id : Identity) (unix : Int) (upload download : Nat) : Bool :=
  c.takes id unix upload download && id.source.isSome && (c.slotFor (minuteOf unix)).hasRoom id

def setEnabled (enabled : Bool) (c : Collector) : Collector :=
  if enabled then { c with enabled := true } else {}

/-! ## Delivery -/

/-- The first `Read` of a delivery starts it. -/
def boot (now : Int) (rand : Option Nat) (c : Collector) : Option Collector :=
  let unix := now / 1000000000
  match c.delivery.boot, rand with
  | some _, _ => some c
  | none, none => none
  | none, some id =>
    some
      { c with delivery := { c.delivery with
          boot := some id
          generation := now
          next := minuteOf unix - 120
          started := minuteOf (unix + 59) } }

/-- The minute to report, and whether it is a correction: the oldest dirty minute before the next
one, or the next one. -/
def pick (finish : Int) : Int × Bool :=
  [0, 1, 2].foldl (fun x i =>
    let s := c.slots i
    if s.dirty ∧ s.start ≤ finish ∧ s.start < x.1 then (s.start, true) else x)
    (c.delivery.next, false)

/-- An item of a report, cut to what the wire can carry. -/
def item (id : Identity) (b : Counters) : Item :=
  { userID := id.userID, inboundID := id.inboundID, pathID := id.pathID
    sourcePrefix := id.source.getD ""
    activityBits := b.activityBits
    uploadBytes := min b.uploadBytes maxInt64
    downloadBytes := min b.downloadBytes maxInt64 }

def itemLE (a b : Item) : Bool :=
  if a.userID ≠ b.userID then a.userID < b.userID
  else if a.inboundID ≠ b.inboundID then a.inboundID < b.inboundID
  else if a.pathID ≠ b.pathID then a.pathID < b.pathID
  else a.sourcePrefix ≤ b.sourcePrefix

def cuts (b : Counters) : Nat :=
  (if maxInt64 < b.uploadBytes then 1 else 0) + (if maxInt64 < b.downloadBytes then 1 else 0)

def held (minute : Int) : Option Minute :=
  let s := c.slots (slotOf minute)
  if s.start = minute then some s else none

def freeze (unix finish minute : Int) (boot : Nat) (stream : String) : Report :=
  let held := c.held minute
  let buckets := (held.bind (·.buckets)).getD ∅
  let tooLate := retained ≤ finish - minute
  let unaligned := unix < c.unalignedUntil ∨ minuteOf unix < c.latest
  let dropped := (GoMap.values buckets).foldl (fun n b => add n (cuts b))
    (add (if tooLate then 1 else 0) (held.elim 0 (·.dropped)))
  let unknown := held.elim 0 (·.unknown)
  { collectorBootID := boot
    collectorStartedAt := c.delivery.generation
    streamType := stream
    sequence := c.delivery.sequence + 1
    minuteUnix := minute
    clockState :=
      if unaligned then .unaligned
      else if 0 < c.clockSince ∧ c.clockSince ≤ minute ∧ minute + 60 ≤ c.clockUntil then .aligned
      else .unknown
    complete := c.delivery.started ≤ minute ∧ ¬ unaligned ∧ ¬ tooLate ∧ dropped = 0 ∧ unknown = 0
    droppedUpdates := dropped
    unknownSourceUpdates := unknown
    items := (buckets.entries.map fun e => item e.1 e.2).mergeSort itemLE }

/-- What `Read` leaves behind when it has produced a report. -/
def deliver (finish : Int) (x : Int × Bool) (r : Report) : Collector :=
  { c with
    slots := match c.held x.1 with
      | none => c.slots
      | some s => Function.update c.slots (slotOf x.1) { s with dirty := false }
    delivery := { c.delivery with
      sequence := c.delivery.sequence + 1
      next :=
        if retained ≤ finish - x.1 then finish
        else if x.2 then c.delivery.next else c.delivery.next + 60
      pending := some r } }

def produce (unix : Int) (boot : Nat) (stream : String) (c : Collector) : Option (Collector × Report) :=
  let finish := minuteOf unix - 120
  let x := c.pick finish
  if finish < x.1 then none
  else
    let r := c.freeze unix finish x.1 boot stream
    some (c.deliver finish x r, r)

/-- `Read`: the collector after it, what it returns, and whether that is a new report. -/
def read (now : Int) (stream : String) (rand : Option Nat) (c : Collector) :
    Collector × Option Report × Bool :=
  let unix := now / 1000000000
  if !c.enabled || unix < 120 then (c, none, false)
  else
    match c.boot now rand with
    | none => (c, none, false)
    | some c =>
      match c.delivery.pending with
      | some r => (c, some r, false)
      | none =>
        match c.produce unix (c.delivery.boot.getD 0) stream with
        | none => (c, none, false)
        | some (c', r) => (c', some r, true)

def ack (boot : Nat) (sequence : Nat) (c : Collector) : Collector × Bool :=
  match c.delivery.pending with
  | none => (c, false)
  | some r =>
    if c.delivery.boot = some boot ∧ r.sequence = sequence then
      ({ c with delivery := { c.delivery with pending := none } }, true)
    else (c, false)

def alignClock (unix : Int) (aligned : Bool) (c : Collector) : Collector :=
  if !aligned then { c with clockSince := 0, clockUntil := 0 }
  else
    { c with
      clockSince := if c.clockUntil < unix ∨ c.clockSince = 0 then unix else c.clockSince
      clockUntil := unix + 45 }

end Collector

theorem Minute.enter_start (s : Minute) (id : Identity) (offset : Int) (upload download : Nat) :
    (s.enter id offset upload download).start = s.start := by
  unfold Minute.enter
  split
  · rfl
  · split <;> rfl

theorem Minute.enter_dirty (s : Minute) (id : Identity) (offset : Int) (upload download : Nat) :
    (s.enter id offset upload download).dirty = s.dirty := by
  unfold Minute.enter
  split
  · rfl
  · split <;> rfl

/-! ## What a `Read` does -/

namespace Collector

variable {c c₁ : Collector} {now : Int} {stream : String} {rand : Option Nat}

theorem boot_eq (h : c.boot now rand = some c₁) : c₁ = { c with delivery := c₁.delivery } := by
  simp only [boot] at h
  split at h
  · rw [← Option.some.inj h]
  · cases h
  · rw [← Option.some.inj h]

inductive Reading (c : Collector) (now : Int) (stream : String) (rand : Option Nat) :
    Collector × Option Report × Bool → Prop
  | nothing : Reading c now stream rand (c, none, false)
  | old {c₁ : Collector} {pending : Option Report} (hboot : c.boot now rand = some c₁)
      (hpending : c₁.delivery.pending = pending) : Reading c now stream rand (c₁, pending, false)
  | new {c₁ : Collector} {finish : Int} {r : Report} (henabled : c.enabled = true)
      (hboot : c.boot now rand = some c₁) (hfinish : finish = minuteOf (now / 1000000000) - 120)
      (hr : r = c₁.freeze (now / 1000000000) finish (c₁.pick finish).1 (c₁.delivery.boot.getD 0) stream) :
      Reading c now stream rand (c₁.deliver finish (c₁.pick finish) r, some r, true)

theorem reading (c : Collector) (now : Int) (stream : String) (rand : Option Nat) :
    Reading c now stream rand (c.read now stream rand) := by
  simp only [read]
  split
  · exact .nothing
  rename_i hon
  split
  · exact .nothing
  rename_i c₁ hboot
  split
  · exact .old hboot ‹_›
  split
  · exact .old hboot ‹_›
  · rename_i c₂ r hproduce
    simp only [produce, Option.ite_none_left_eq_some] at hproduce
    cases hproduce.2
    exact .new (by simp_all) hboot rfl rfl

theorem deliver_slots (c : Collector) (finish : Int) (x : Int × Bool) (r : Report) (i : Fin 3) :
    ((c.deliver finish x r).slots i).start = (c.slots i).start ∧
      ((c.deliver finish x r).slots i).buckets = (c.slots i).buckets := by
  simp only [deliver, held]
  by_cases hs : (c.slots (slotOf x.1)).start = x.1
  · simp only [if_pos hs]
    by_cases hi : i = slotOf x.1
    · subst hi
      simp only [Function.update_self, and_self]
    · simp only [Function.update_of_ne hi, and_self]
  · simp only [if_neg hs, and_self]

theorem pick_cases (c : Collector) (finish : Int) :
    c.pick finish = (c.delivery.next, false) ∨
      ∃ i, (c.slots i).dirty = true ∧ (c.slots i).start < c.delivery.next ∧
        c.pick finish = ((c.slots i).start, true) := by
  unfold pick
  refine List.foldlRecOn (motive := fun x => x = (c.delivery.next, false) ∨
    ∃ i, (c.slots i).dirty = true ∧ (c.slots i).start < c.delivery.next ∧
      x = ((c.slots i).start, true)) _ _ (Or.inl rfl) fun x hx i _ => ?_
  dsimp only
  split
  · rename_i hs
    refine Or.inr ⟨i, hs.1, ?_, rfl⟩
    rcases hx with hx | ⟨j, -, hj, hx⟩
    · rw [hx] at hs
      exact hs.2.2
    · rw [hx] at hs
      exact lt_trans hs.2.2 hj
  · exact hx

theorem slotFor_start (c : Collector) (minute : Int) : (c.slotFor minute).start = minute := by
  unfold slotFor
  extract_lets s made
  suffices hmade : made.start = minute by split <;> exact hmade
  simp only [made]
  split
  · rfl
  · rename_i hs
    rw [not_or, not_not] at hs
    exact hs.2

theorem slotFor_dirty {c : Collector} {minute : Int} (h : (c.slotFor minute).dirty = true) :
    (c.delivery.boot.isSome ∧ minute < c.delivery.next) ∨
      ((c.slots (slotOf minute)).dirty = true ∧ (c.slots (slotOf minute)).start = minute) := by
  simp only [slotFor] at h
  split at h
  · exact Or.inl ‹_›
  · split at h
    · cases h
    · rename_i hs
      rw [not_or, not_not] at hs
      exact Or.inr ⟨h, hs.2⟩

/-! ## What the other calls leave alone -/

theorem record_keeps (c : Collector) (id : Identity) (unix : Int) (upload download : Nat) :
    (c.record id unix upload download).enabled = c.enabled ∧
      (c.record id unix upload download).delivery = c.delivery := by
  unfold record
  split_ifs <;> exact ⟨rfl, rfl⟩

theorem alignClock_eq (c : Collector) (unix : Int) (aligned : Bool) :
    ∃ since upTo, c.alignClock unix aligned = { c with clockSince := since, clockUntil := upTo } := by
  unfold alignClock
  split <;> exact ⟨_, _, rfl⟩

end Collector

/-! ## Calls -/

inductive Event where
  | record (id : Identity) (unix : Int) (upload download : Nat)
  | setEnabled (enabled : Bool)
  | read (now : Int) (stream : String) (rand : Option Nat)
  | ack (boot : Nat) (sequence : Nat)
  | alignClock (unix : Int) (aligned : Bool)

namespace Collector

def step (c : Collector) : Event → Collector
  | .record id unix upload download => c.record id unix upload download
  | .setEnabled enabled => c.setEnabled enabled
  | .read now stream rand => (c.read now stream rand).1
  | .ack boot sequence => (c.ack boot sequence).1
  | .alignClock unix aligned => c.alignClock unix aligned

end Collector

def someone : Identity := ⟨1, 2, 0, some "8.8.8.0/24"⟩

def second : Int := 1000000000

end OboardAgent.Activity
