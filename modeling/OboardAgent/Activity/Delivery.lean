import OboardAgent.Lib.Spans
import OboardAgent.Lib.Run
import OboardAgent.Activity.Collector

/-!
# The order of the reports

Delivery has one pointer, the next minute. A report is of the minute it points to, or a
correction: a minute it has passed, that got records after that. The pointer moves past the minute
that is reported, and to the last minute that is due when the reported one is too old for its
slot; the report is incomplete then, and stands for the minutes that were passed over.

All this is right as long as the pointer only moves forward. A correction that is too old moves
it to the last minute due as well, and that minute may be behind the pointer: it is then reported
a second time. A report stays pending until it is acknowledged, and is what every `Read`
returns, unless its clock reads less than two minutes after the epoch: then it returns nothing.
-/

namespace OboardAgent.Activity

structure Produced where
  report : Report
  pointer : Span Int
  correction : Bool
deriving DecidableEq, Repr

structure Delivery where
  collector : Collector
  touched : List Int := []
  produced : List Produced := []

namespace Delivery

def late (c : Collector) (id : Identity) (unix : Int) (upload download : Nat) : Bool :=
  c.takes id unix upload download && c.delivery.boot.isSome && minuteOf unix < c.delivery.next

def step (v : Delivery) : Event → Delivery
  | .record id unix upload download =>
    { v with
      collector := v.collector.record id unix upload download
      touched := if late v.collector id unix upload download then minuteOf unix :: v.touched
        else v.touched }
  | .read now stream rand =>
    match v.collector.boot now rand, v.collector.read now stream rand with
    | some c₁, (c', some r, true) =>
      { collector := c'
        touched := v.touched.filter (· ≠ r.minuteUnix)
        produced := ⟨r, ⟨c₁.delivery.next, c'.delivery.next⟩,
          r.minuteUnix < c₁.delivery.next && r.minuteUnix ∈ v.touched⟩ :: v.produced }
    | _, x => { v with collector := x.1 }
  | e => { v with collector := v.collector.step e }

/-- A new collector, enabled or not. -/
def start (enabled : Bool) : Delivery := { collector := Collector.setEnabled enabled {} }

/-- One of the calls `Record`, `Read`, `Ack` and `AlignClock`. -/
def IsCall : Event → Prop
  | .setEnabled _ => False
  | _ => True

def KeepsPointer (c : Collector) (finish : Int) : Prop :=
  (c.pick finish).2 = true → retained ≤ finish - (c.pick finish).1 → c.delivery.next ≤ finish

instance KeepsPointer.decidable (c : Collector) (finish : Int) : Decidable (KeepsPointer c finish) :=
  inferInstanceAs (Decidable (_ → _ → _))

def Steady (v : Delivery) : Event → Prop
  | .read now _ rand =>
    ∀ c₁ ∈ v.collector.boot now rand, KeepsPointer c₁ (minuteOf (now / 1000000000) - 120)
  | _ => True

instance Steady.decidable (v : Delivery) : ∀ e, Decidable (Steady v e)
  | .read now _ rand => inferInstanceAs (Decidable
      (∀ c₁ ∈ v.collector.boot now rand, KeepsPointer c₁ (minuteOf (now / 1000000000) - 120)))
  | .record .. | .setEnabled _ | .ack .. | .alignClock .. => .isTrue trivial

instance IsCall.decidable : ∀ e, Decidable (IsCall e)
  | .setEnabled _ => .isFalse id
  | .record .. | .read .. | .ack .. | .alignClock .. => .isTrue trivial

/-! ## The order -/

def inTurn (v : Delivery) : List Int :=
  (v.produced.filter fun p => !p.correction).map fun p => p.report.minuteUnix

/-- The reports are numbered from one, the pointer has only moved forward and only with reports,
what is reported in turn is reported once and in order, and minutes are passed over only by
incomplete reports. -/
structure InOrder (v : Delivery) : Prop where
  numbered : v.produced.map (·.report.sequence) = (List.range' 1 v.produced.length).reverse
  pointer : ∃ first, Span.Chain first (v.produced.map (·.pointer)) ∧
    Span.tip first (v.produced.map (·.pointer)) = v.collector.delivery.next
  inTurn : v.inTurn.Pairwise (· > ·)
  passed : ∀ p ∈ v.produced, ∀ m, p.pointer.lo ≤ m → m < p.pointer.hi → m % 60 = 0 →
    m ≠ p.report.minuteUnix → p.report.complete = false

/-- What is true between the calls. -/
structure Sound (v : Delivery) : Prop where
  inOrder : InOrder v
  unbooted : v.collector.delivery.boot = none →
    v.produced = [] ∧ v.collector.delivery.pending = none
  sequence : v.collector.delivery.sequence = v.produced.length
  aligned : v.collector.delivery.next % 60 = 0
  below : ∀ m ∈ v.inTurn, m < v.collector.delivery.next
  dirty : ∀ i, (v.collector.slots i).dirty = true →
    slotOf (v.collector.slots i).start = i ∧ (v.collector.slots i).start ∈ v.touched
  pending : ∀ r, v.collector.delivery.pending = some r →
    v.collector.enabled = true ∧ (v.produced.head?).map (·.report) = some r

theorem sound_start (enabled : Bool) : Sound (start enabled) := by
  cases enabled <;> exact
    { inOrder := ⟨rfl, ⟨0, trivial, rfl⟩, List.Pairwise.nil, by simp [start]⟩
      unbooted := fun _ => ⟨rfl, rfl⟩
      sequence := rfl
      aligned := rfl
      below := nofun
      dirty := by simp [start, Collector.setEnabled]
      pending := by simp [start, Collector.setEnabled] }

variable {v : Delivery}

theorem Sound.of_delivery (h : Sound v) {c : Collector} {touched : List Int}
    (henabled : c.enabled = v.collector.enabled) (hdelivery : c.delivery = v.collector.delivery)
    (hdirty : ∀ i, (c.slots i).dirty = true →
      slotOf (c.slots i).start = i ∧ (c.slots i).start ∈ touched) :
    Sound { v with collector := c, touched := touched } where
  inOrder := { h.inOrder with pointer := hdelivery ▸ h.inOrder.pointer }
  unbooted := hdelivery ▸ h.unbooted
  sequence := hdelivery ▸ h.sequence
  aligned := hdelivery ▸ h.aligned
  below := hdelivery ▸ h.below
  dirty := hdirty
  pending := henabled ▸ hdelivery ▸ h.pending

/-! ## Records -/

theorem Sound.record (h : Sound v) (id : Identity) (unix : Int) (upload download : Nat) :
    Sound (v.step (.record id unix upload download)) := by
  have hkeep : ∀ m, m ∈ v.touched → m ∈ (v.step (.record id unix upload download)).touched := by
    intro m hm
    simp only [step]
    split
    · exact List.mem_cons_of_mem _ hm
    · exact hm
  have hsame := v.collector.record_keeps id unix upload download
  by_cases htakes : v.collector.takes id unix upload download = true
  · refine h.of_delivery hsame.1 hsame.2 fun i hi => ?_
    simp only [Collector.record, if_pos htakes] at hi ⊢
    by_cases hslot : i = slotOf (minuteOf unix)
    · subst hslot
      simp only [Function.update_self, Minute.enter_dirty, Minute.enter_start,
        Collector.slotFor_start] at hi ⊢
      refine ⟨trivial, ?_⟩
      -- A flag is set by a late record, or was there for the same minute.
      rcases Collector.slotFor_dirty hi with hlate | ⟨hdirty, hsame⟩
      · have : late v.collector id unix upload download = true := by
          simp only [late, htakes, hlate.1, hlate.2, decide_true, Bool.and_self]
        rw [if_pos this]
        exact List.mem_cons_self
      · exact hkeep _ (hsame ▸ (h.dirty _ hdirty).2)
    · simp only [Function.update_of_ne hslot] at hi ⊢
      exact ⟨(h.dirty i hi).1, hkeep _ (h.dirty i hi).2⟩
  · have hslots : (v.collector.record id unix upload download).slots = v.collector.slots := by
      simp only [Collector.record, if_neg htakes]
      split <;> rfl
    refine h.of_delivery hsame.1 hsame.2 fun i hi => ?_
    rw [hslots] at hi ⊢
    exact ⟨(h.dirty i hi).1, hkeep _ (h.dirty i hi).2⟩

/-! ## Reads -/

theorem Sound.boot (h : Sound v) {c₁ : Collector} {now : Int} {rand : Option Nat}
    (hboot : v.collector.boot now rand = some c₁) :
    Sound { v with collector := c₁ } ∧ c₁.delivery.boot.isSome := by
  cases hb : v.collector.delivery.boot with
  | some b =>
    simp only [Collector.boot, hb] at hboot
    obtain rfl := Option.some.inj hboot
    exact ⟨h, by simp [hb]⟩
  | none =>
    cases rand with
    | none => exact absurd hboot (by simp [Collector.boot, hb])
    | some id =>
      simp only [Collector.boot, hb] at hboot
      obtain rfl := Option.some.inj hboot
      obtain ⟨hnone, hpending⟩ := h.unbooted hb
      have hturn : v.inTurn = [] := by simp [Delivery.inTurn, hnone]
      refine ⟨?_, rfl⟩
      exact
        { inOrder := { h.inOrder with pointer := ⟨_, by rw [hnone]; trivial, by rw [hnone]; rfl⟩ }
          unbooted := by simp
          sequence := h.sequence
          aligned := by
            have := minuteOf_mod (now / 1000000000)
            show (minuteOf (now / 1000000000) - 120) % 60 = 0
            omega
          below := fun m hm => absurd hm (by
            show m ∉ v.inTurn
            rw [hturn]
            exact List.not_mem_nil)
          dirty := h.dirty
          pending := fun r hr => absurd hr (by simp [hpending]) }

structure Moves (c : Collector) (r : Report) (next : Int) : Prop where
  forward : c.delivery.next ≤ next
  aligned : next % 60 = 0
  past : r.minuteUnix < next
  passed : ∀ m, c.delivery.next ≤ m → m < next → m % 60 = 0 → m ≠ r.minuteUnix → r.complete = false

theorem Sound.pick (h : Sound v) (finish : Int) :
    ((v.collector.pick finish).2 = false ∧
      (v.collector.pick finish).1 = v.collector.delivery.next) ∨
    ((v.collector.pick finish).2 = true ∧
      (v.collector.pick finish).1 < v.collector.delivery.next ∧
      (v.collector.pick finish).1 ∈ v.touched) := by
  rcases Collector.pick_cases v.collector finish with heq | ⟨i, hdirty, hlt, heq⟩
  · exact Or.inl ⟨congrArg Prod.snd heq, congrArg Prod.fst heq⟩
  · rw [heq]
    exact Or.inr ⟨rfl, hlt, (h.dirty i hdirty).2⟩

theorem Sound.moves (h : Sound v) {finish : Int} (hfinish : finish % 60 = 0) {r : Report}
    (hminute : r.minuteUnix = (v.collector.pick finish).1)
    (hcomplete : retained ≤ finish - (v.collector.pick finish).1 → r.complete = false)
    (hsteady : KeepsPointer v.collector finish) :
    Moves v.collector r
      (v.collector.deliver finish (v.collector.pick finish) r).delivery.next := by
  have haligned := h.aligned
  simp only [Collector.deliver]
  unfold KeepsPointer at hsteady
  rw [← hminute] at hcomplete hsteady ⊢
  have hpick := h.pick finish
  rw [← hminute] at hpick
  by_cases hold : retained ≤ finish - r.minuteUnix
  · -- Too old: the pointer goes to the last minute due, and the report is incomplete.
    rw [if_pos hold]
    have hincomplete := hcomplete hold
    unfold retained at hold
    rcases hpick with ⟨-, hnext⟩ | ⟨hflag, hlt, -⟩
    · exact ⟨by omega, hfinish, by omega, fun _ _ _ _ _ => hincomplete⟩
    · have := hsteady hflag (by unfold retained; omega)
      exact ⟨this, hfinish, by omega, fun _ _ _ _ _ => hincomplete⟩
  · rw [if_neg hold]
    rcases hpick with ⟨hflag, hnext⟩ | ⟨hflag, hlt, -⟩
    · rw [hflag]
      simp only [Bool.false_eq_true, if_false]
      exact ⟨by omega, by omega, by omega, fun m _ _ _ _ => by omega⟩
    · rw [if_pos hflag]
      exact ⟨le_rfl, haligned, hlt, fun m _ _ _ _ => by omega⟩

theorem Sound.deliver_dirty (h : Sound v) {finish : Int} {x : Int × Bool} {r : Report} {i : Fin 3}
    (hi : ((v.collector.deliver finish x r).slots i).dirty = true) :
    slotOf ((v.collector.deliver finish x r).slots i).start = i ∧
      ((v.collector.deliver finish x r).slots i).start ∈ v.touched.filter (· ≠ x.1) := by
  have hold : (v.collector.slots i).dirty = true ∧ (v.collector.slots i).start ≠ x.1 := by
    simp only [Collector.deliver, Collector.held] at hi
    by_cases hs : (v.collector.slots (slotOf x.1)).start = x.1
    · simp only [if_pos hs] at hi
      by_cases hslot : i = slotOf x.1
      · subst hslot
        exact absurd hi (by simp)
      · rw [Function.update_of_ne hslot] at hi
        exact ⟨hi, fun heq => hslot (heq ▸ (h.dirty i hi).1.symm)⟩
    · simp only [if_neg hs] at hi
      refine ⟨hi, fun heq => hs ?_⟩
      rw [← heq, (h.dirty i hi).1]
  rw [(Collector.deliver_slots _ _ _ _ i).1]
  refine ⟨(h.dirty i hold.1).1, List.mem_filter.mpr ⟨(h.dirty i hold.1).2, ?_⟩⟩
  exact decide_eq_true hold.2

theorem inTurn_cons (c : Collector) (touched : List Int) (p : Produced) (produced : List Produced) :
    inTurn ⟨c, touched, p :: produced⟩
      = if p.correction then inTurn ⟨c, touched, produced⟩
        else p.report.minuteUnix :: inTurn ⟨c, touched, produced⟩ := by
  unfold inTurn
  cases hp : p.correction <;> simp [hp]

theorem Sound.deliver (h : Sound v) (hboot : v.collector.delivery.boot.isSome)
    (henabled : v.collector.enabled = true) {finish : Int} {r : Report}
    (hsequence : r.sequence = v.collector.delivery.sequence + 1)
    (hminute : r.minuteUnix = (v.collector.pick finish).1)
    (hmoves : Moves v.collector r
      (v.collector.deliver finish (v.collector.pick finish) r).delivery.next) :
    Sound
      { collector := v.collector.deliver finish (v.collector.pick finish) r
        touched := v.touched.filter (· ≠ r.minuteUnix)
        produced := ⟨r, ⟨v.collector.delivery.next,
            (v.collector.deliver finish (v.collector.pick finish) r).delivery.next⟩,
          r.minuteUnix < v.collector.delivery.next && r.minuteUnix ∈ v.touched⟩ :: v.produced } := by
  obtain ⟨first, hchain, htip⟩ := h.inOrder.pointer
  have hbelow : ∀ m ∈ v.inTurn, m < v.collector.delivery.next := h.below
  have hpick := h.pick finish
  rw [← hminute] at hpick
  refine ⟨⟨?_, ?_, ?_, ?_⟩, ?_, ?_, hmoves.aligned, ?_, ?_, ?_⟩
  · -- the numbers
    simp only [List.map_cons, List.length_cons, List.range'_1_concat, List.reverse_append,
      List.reverse_cons, List.reverse_nil, List.nil_append, List.singleton_append, hsequence,
      h.sequence, h.inOrder.numbered, Nat.add_comm]
  · exact ⟨first, ⟨htip.symm, hmoves.forward, hchain⟩, rfl⟩
  · rw [inTurn_cons]
    split
    · exact h.inOrder.inTurn
    · rename_i hturn
      refine List.Pairwise.cons ?_ h.inOrder.inTurn
      rcases hpick with ⟨-, hnext⟩ | ⟨-, hlt, hmem⟩
      · intro m hm
        rw [hnext]
        exact hbelow m hm
      · exact absurd (by simp [hlt, hmem]) hturn
  · exact List.forall_mem_cons.mpr ⟨hmoves.passed, h.inOrder.passed⟩
  · intro hno
    have : v.collector.delivery.boot = none := hno
    rw [this] at hboot
    cases hboot
  · show v.collector.delivery.sequence + 1 = _
    rw [h.sequence]
    rfl
  · intro m hm
    rw [inTurn_cons] at hm
    split at hm
    · exact lt_of_lt_of_le (hbelow m hm) hmoves.forward
    · rcases List.mem_cons.mp hm with rfl | hm
      · exact hmoves.past
      · exact lt_of_lt_of_le (hbelow m hm) hmoves.forward
  · intro i hi
    have := h.deliver_dirty hi
    rw [hminute]
    exact this
  · intro r' hr'
    obtain rfl := Option.some.inj hr'
    exact ⟨henabled, rfl⟩

theorem Sound.read (h : Sound v) (now : Int) (stream : String) (rand : Option Nat)
    (hsteady : Steady v (.read now stream rand)) : Sound (v.step (.read now stream rand)) := by
  have hreading := Collector.reading v.collector now stream rand
  simp only [step]
  generalize v.collector.read now stream rand = x at hreading ⊢
  cases hreading with
  | nothing => cases v.collector.boot now rand <;> exact h
  | @old c₁ pending hboot _ =>
    have hsound := (h.boot hboot).1
    rw [hboot]
    cases pending <;> exact hsound
  | @new c₁ finish r henabled hboot hfinish hr =>
    obtain ⟨hsound, hbooted⟩ := h.boot hboot
    rw [hboot]
    have hmod : finish % 60 = 0 := by
      have := minuteOf_mod (now / 1000000000)
      omega
    have hminute : r.minuteUnix = (c₁.pick finish).1 := by
      rw [hr]
      rfl
    have hcomplete : retained ≤ finish - (c₁.pick finish).1 → r.complete = false := by
      intro hlate
      rw [hr]
      simp [Collector.freeze, hlate]
    have hmoves := hsound.moves hmod hminute hcomplete (hfinish ▸ hsteady c₁ hboot)
    refine hsound.deliver hbooted ?_ ?_ hminute hmoves
    · show c₁.enabled = true
      rw [Collector.boot_eq hboot]
      exact henabled
    · rw [hr]
      rfl

/-! ## Runs -/

theorem Sound.ack (h : Sound v) (boot sequence : Nat) : Sound (v.step (.ack boot sequence)) := by
  simp only [step, Collector.step, Collector.ack]
  split
  · exact h
  · rename_i r hr
    split
    · exact
        { inOrder := { h.inOrder with }
          unbooted := fun hb => ⟨(h.unbooted hb).1, rfl⟩
          sequence := h.sequence
          aligned := h.aligned
          below := h.below
          dirty := h.dirty
          pending := by simp }
    · exact h

theorem Sound.step (h : Sound v) {e : Event} (hcall : IsCall e) (hsteady : Steady v e) :
    Sound (v.step e) := by
  cases e with
  | record id unix upload download => exact h.record id unix upload download
  | setEnabled enabled => exact absurd hcall (by simp [IsCall])
  | read now stream rand => exact h.read now stream rand hsteady
  | ack boot sequence => exact h.ack boot sequence
  | alignClock unix aligned =>
    obtain ⟨since, upTo, heq⟩ := v.collector.alignClock_eq unix aligned
    simp only [Delivery.step, Collector.step, heq]
    exact h.of_delivery rfl rfl h.dirty

structure Waiting (boot : Nat) (r : Report) (v : Delivery) : Prop where
  enabled : v.collector.enabled = true
  boot : v.collector.delivery.boot = some boot
  pending : v.collector.delivery.pending = some r

theorem Waiting.read {boot : Nat} {r : Report} (h : Waiting boot r v) (now : Int) (stream : String)
    (rand : Option Nat) :
    v.collector.read now stream rand
      = (v.collector, if 120 ≤ now / 1000000000 then some r else none, false) := by
  by_cases hearly : now / 1000000000 < 120
  · have : ¬ 120 ≤ now / 1000000000 := by omega
    simp only [Collector.read, h.enabled, hearly, this, decide_true, Bool.not_true, Bool.or_true,
      if_true, if_false]
  · have : 120 ≤ now / 1000000000 := by omega
    simp only [Collector.read, Collector.boot, h.enabled, h.boot, h.pending, hearly, this,
      decide_false, Bool.not_true, Bool.or_self, Bool.false_eq_true, if_true, if_false]

theorem Waiting.step {boot : Nat} {r : Report} (h : Waiting boot r v) {e : Event} (hcall : IsCall e)
    (hother : e ≠ .ack boot r.sequence) : Waiting boot r (v.step e) := by
  cases e with
  | record id unix upload download =>
    have hsame := v.collector.record_keeps id unix upload download
    exact ⟨hsame.1.trans h.enabled, hsame.2 ▸ h.boot, hsame.2 ▸ h.pending⟩
  | setEnabled enabled => exact absurd hcall (by simp [IsCall])
  | read now stream rand =>
    have hstep : v.step (.read now stream rand) = v := by
      simp only [Delivery.step, h.read]
      split
      · rename_i heq
        exact absurd (congrArg (·.2.2) heq) (by simp)
      · rename_i heq
        rfl
    rw [hstep]
    exact h
  | ack boot' sequence =>
    have hack : (v.collector.ack boot' sequence).1 = v.collector := by
      simp only [Collector.ack, h.pending, h.boot]
      rw [if_neg]
      rintro ⟨hboot, hsequence⟩
      obtain rfl := Option.some.inj hboot
      exact hother (by rw [hsequence])
    show Waiting boot r { v with collector := (v.collector.ack boot' sequence).1 }
    rw [hack]
    exact h
  | alignClock unix aligned =>
    obtain ⟨since, upTo, heq⟩ := v.collector.alignClock_eq unix aligned
    simp only [Delivery.step, Collector.step, heq]
    exact ⟨h.enabled, h.boot, h.pending⟩

/-- What a pending report may rely on: only its own identity acknowledges it, and until that is
done it is the report that is pending, and every `Read` by a clock that has passed two minutes
returns it. A `Read` by an earlier clock returns nothing, and neither changes anything. -/
structure Kept (v : Delivery) (r : Report) (b : Nat) : Prop where
  newest : (v.produced.head?).map (·.report) = some r
  boot : v.collector.delivery.boot = some b
  identity : ∀ boot sequence, (v.collector.ack boot sequence).2 = true ↔
    boot = b ∧ sequence = r.sequence
  acknowledged : (v.collector.ack b r.sequence).1.delivery.pending = none
  kept : ∀ es, (∀ e ∈ es, IsCall e ∧ e ≠ .ack b r.sequence) →
    (Run.exec step v es).collector.delivery.pending = some r
  returned : ∀ es, (∀ e ∈ es, IsCall e ∧ e ≠ .ack b r.sequence) →
    ∀ now stream rand, (Run.exec step v es).collector.read now stream rand
      = ((Run.exec step v es).collector, if 120 ≤ now / 1000000000 then some r else none, false)

theorem Sound.kept (h : Sound v) {r : Report} (hr : v.collector.delivery.pending = some r) :
    ∃ boot, Kept v r boot := by
  obtain ⟨henabled, hnewest⟩ := h.pending r hr
  cases hb : v.collector.delivery.boot with
  | none => exact absurd (h.unbooted hb).2 (by simp [hr])
  | some boot =>
    have hruns : ∀ es, (∀ e ∈ es, IsCall e ∧ e ≠ .ack boot r.sequence) →
        Waiting boot r (Run.exec Delivery.step v es) := fun es hes =>
      Run.invariant (fun _ _ hw he => hw.step he.1 he.2) ⟨henabled, hb, hr⟩ (Run.Along.of_forall hes)
    refine ⟨boot, hnewest, hb, ?_, ?_, fun es hes => (hruns es hes).pending, ?_⟩
    · intro boot' sequence
      simp only [Collector.ack, hr, hb]
      split
      · rename_i heq
        exact iff_of_true rfl ⟨(Option.some.inj heq.1).symm, heq.2.symm⟩
      · rename_i hne
        refine iff_of_false (by simp) ?_
        rintro ⟨rfl, rfl⟩
        exact hne ⟨rfl, rfl⟩
    · simp [Collector.ack, hr, hb]
    · exact fun es hes now stream rand => (hruns es hes).read now stream rand

/-- **Delivery is in order.** For every run of calls with any clock readings in which no correction
that is too old finds the pointer ahead of the last minute due, the reports are in order, and a
pending one is kept until its identity is acknowledged. -/
theorem delivery_in_order (enabled : Bool) (es : List Event) (hcalls : ∀ e ∈ es, IsCall e)
    (hsteady : Run.Along step Steady (start enabled) es) :
    InOrder (Run.exec step (start enabled) es) ∧
      ∀ r, (Run.exec step (start enabled) es).collector.delivery.pending = some r →
        ∃ boot, Kept (Run.exec step (start enabled) es) r boot := by
  have hsound : Sound (Run.exec step (start enabled) es) :=
    Run.invariant (fun _ _ hv he => hv.step he.1 he.2) (sound_start enabled)
      ((Run.Along.of_forall hcalls).and hsteady)
  exact ⟨hsound.inOrder, fun r hr => hsound.kept hr⟩

/-- Delivery starts at 600 s with the minute 480; one byte is then recorded in the minute 300, and
there are two `Read`s at `unix`. -/
def lateByte (unix : Int) : List Event :=
  [.read (600 * second) "kernel" (some 0), .ack 0 1, .record someone 300 1 0,
    .read (unix * second) "kernel" none, .ack 0 2, .read (unix * second) "kernel" none]

/-- At 660 s the pointer, at 540, is not ahead of the last minute due. -/
theorem late_byte_in_order :
    InOrder (Run.exec step (start true) (lateByte 660)) ∧
      inTurn (Run.exec step (start true) (lateByte 660)) = [540, 480] :=
  ⟨(delivery_in_order true (lateByte 660) (by decide +kernel) (by decide +kernel)).1,
    by decide +kernel⟩

def pending480 : Collector :=
  (Run.exec step (start true) [.read (600 * second) "kernel" (some 0)]).collector

/-- A `Read` by a clock at 60 s does not return the pending report; and where the clock still is
at 600 s, the correction of the minute 300 takes the pointer back and the minute 480 is reported
twice. -/
theorem pending_not_returned_and_minute_reported_twice :
    pending480.delivery.pending.isSome = true ∧
      (pending480.read (60 * second) "kernel" none).2.1 = none ∧
      inTurn (Run.exec step (start true) (lateByte 600)) = [480, 480] := by
  decide +kernel

end Delivery

end OboardAgent.Activity
