import OboardAgent.Lib.Run
import OboardAgent.Activity.Collector

/-!
# Reports on their way to the Controller

A report of account activity has three owners, one after the other: the collector that made it (one
in the kernel, one for SSH in the agent), the pending file of the agent, and the Controller.
`collectAndReportAccountActivity` (`internal/agent/account_activity.go`) takes it from one to the
next. A report is acknowledged to its collector after it is saved, and removed from the file after
the Controller has answered for it.

One call is many steps here, and between them the collectors record, acknowledgements that were sent
to the kernel arrive or do not, the kernel restarts, and the agent ends and starts again. A save is
atomic: it replaces the file, or fails and leaves it. The histories at the end of the state are for
the statements only.

Everything holds because the reports of a collector are numbered, and it makes the next one only
after the last was acknowledged: what it has pending is never behind what was filed, and is the very
report that was filed under its number.

A file is the list of the reports in it. Reports have the same JSON exactly if they are the same,
since all their fields are written; of the JSON only its length counts, which is a parameter. The
error that the function returns is left out.
-/

namespace OboardAgent.Activity

inductive Source
  | kernel
  | ssh
  deriving DecidableEq, Repr

def Source.stream : Source → String
  | .kernel => "kernel"
  | .ssh => "ssh"

theorem Source.stream_inj {a b : Source} (h : a.stream = b.stream) : a = b := by
  cases a <;> cases b <;> first | rfl | exact absurd h (by decide)

/-- `auditwire.Ack`, in an answer of the Controller. -/
structure Answer where
  sequence : Nat
  accepted : Bool
  terminal : Bool
  reason : String
  deriving DecidableEq, Repr

def maxReportBytes : Nat := 1048576
def maxPendingBytes : Nat := 16777216
def maxPending : Nat := 256

/-- The length of the JSON of a report, and of a list of reports. -/
structure Sizes where
  report : Report → Nat
  file : List Report → Nat

inductive Progress
  | idle
  | reading (source : Source) (pending : List Report)
  | accepting (source : Source) (pending : List Report) (report : Report)
  | acking (source : Source) (pending : List Report) (report : Report)
  | sending (pending : List Report) (sent : Nat)
  | removing (pending : List Report) (sent : Nat)
  deriving DecidableEq, Repr

structure Handover where
  collectors : Source → Collector := fun _ => {}
  file : Option (List Report) := none
  progress : Progress := .idle
  /-- The reports that were acknowledged to the kernel. An acknowledgement may arrive at any time
  later, or never. -/
  acks : List Report := []
  boots : List Nat := []
  filed : List Report := []
  acked : List Report := []
  sent : List Report := []
  answers : List (Report × Answer) := []

inductive HandoverEvent
  | start (readable : Bool)
  | read (now : Int) (rand : Option Nat) (arrives : Bool)
  | unreached
  | save (ok : Bool)
  | ack
  /-- The first report is sent. The Controller answers if it gets it, and the answer may be lost. -/
  | post (answer : Option Answer) (arrives : Bool)
  | finish
  | ackArrives (report : Report)
  | record (source : Source) (id : Identity) (unix : Int) (upload download : Nat)
  | alignClock (source : Source) (unix : Int) (aligned : Bool)
  | enable (source : Source)
  | kernelRestarts
  | agentRestarts
  deriving DecidableEq

def sameIdentity (report p : Report) : Bool :=
  p.collectorBootID = report.collectorBootID && p.streamType = report.streamType && p.sequence
    = report.sequence

def acknowledges (report : Report) (ack : Answer) : Bool :=
  !(ack.sequence ≠ report.sequence || (!ack.accepted && !ack.terminal)) &&
    !(ack.terminal && ack.reason ≠ "expired" && ack.reason ≠ "disabled" && ack.reason
      ≠ "subject_removed")

/-- What follows once a collector is done with. -/
def Source.next (pending : List Report) : Source → Progress
  | .kernel => .reading .ssh pending
  | .ssh => .sending pending 0

def Source.afterRead (source : Source) (pending : List Report) (arrives : Bool) :
    Option Report → Progress
  | some r => if arrives || source = .ssh then .accepting source pending r else source.next pending
  | none => source.next pending

namespace Handover

def pendingFile (w : Handover) : List Report := w.file.getD []

def setCollector (w : Handover) (source : Source) (c : Collector) : Handover :=
  { w with
    collectors := Function.update w.collectors source c
    boots := c.delivery.boot.toList ++ w.boots }

def takeAck (w : Handover) (source : Source) (report : Report) : Handover :=
  let c := w.collectors source
  let x := c.ack report.collectorBootID report.sequence
  { w.setCollector source x.1 with acked :=
    if x.2 then c.delivery.pending.toList ++ w.acked else w.acked }

variable (sizes : Sizes)

def load (w : Handover) : Option (List Report) :=
  match w.file with
  | none => some []
  | some items => if maxPendingBytes < sizes.file items then none else some items

def save (w : Handover) (items : List Report) (ok : Bool) : Option Handover :=
  if maxPending < items.length ∨ maxPendingBytes < sizes.file items then none
  else if ok then some { w with file := some items, filed := items ++ w.filed }
  else none

/-- `accept`, up to the acknowledgement. -/
def accept (w : Handover) (source : Source) (pending : List Report) (report : Report)
    (ok : Bool) : Handover :=
  if maxReportBytes < sizes.report report ∨
    4096 < report.items.length then { w with progress := source.next pending }
  else
    match pending.find? (sameIdentity report) with
    | some p =>
      if p = report then { w with progress := .acking source pending report } else
        { w with progress := source.next pending }
    | none =>
      match w.save sizes (pending ++ [report]) ok with
      | some w' => { w' with progress := .acking source (pending ++ [report]) report }
      | none => { w with progress := source.next pending }

def post (w : Handover) (pending : List Report) (sent : Nat) (answer : Option Answer)
    (arrives : Bool) : Handover :=
  match pending with
  | [] => w
  | p :: _ =>
    { w with
      sent := p :: w.sent
      answers := answer.toList.map (fun a => (p, a)) ++ w.answers
      progress := if arrives && answer.any (acknowledges p) then .removing pending sent else .idle }

/-- One step. An event that cannot happen changes nothing. -/
def step (w : Handover) : HandoverEvent → Handover
  | .start readable =>
    match w.progress, w.load sizes with
    | .idle, some pending => if readable then { w with progress := .reading .kernel pending } else w
    | _, _ => w
  | .read now rand arrives =>
    match w.progress with
    | .reading source pending =>
      let x := (w.collectors source).read now source.stream rand
      { w.setCollector source x.1 with progress := source.afterRead pending arrives x.2.1 }
    | _ => w
  | .unreached =>
    match w.progress with
    | .reading .kernel pending => { w with progress := .reading .ssh pending }
    | .acking .kernel pending _ => { w with progress := .reading .ssh pending }
    | _ => w
  | .save ok =>
    match w.progress with
    | .accepting source pending report => w.accept sizes source pending report ok
    | .removing pending sent =>
      match w.save sizes pending.tail ok with
      | some w' => { w' with progress := .sending pending.tail (sent + 1) }
      | none => { w with progress := .idle }
    | _ => w
  | .ack =>
    match w.progress with
    | .acking .kernel pending report =>
      { w with acks := report :: w.acks, progress := .reading .ssh pending }
    | .acking .ssh pending report => { w.takeAck .ssh report with progress := .sending pending 0 }
    | _ => w
  | .post answer arrives =>
    match w.progress with
    | .sending pending sent => if sent < 8 then w.post pending sent answer arrives else w
    | _ => w
  | .finish =>
    match w.progress with
    | .sending pending sent => if sent < 8 ∧ pending ≠ [] then w else { w with progress := .idle }
    | _ => w
  | .ackArrives report => if report ∈ w.acks then w.takeAck .kernel report else w
  | .record source id unix upload download =>
    w.setCollector source ((w.collectors source).record id unix upload download)
  | .alignClock source unix aligned => w.setCollector source
      ((w.collectors source).alignClock unix aligned)
  | .enable source => w.setCollector source ((w.collectors source).setEnabled true)
  | .kernelRestarts => w.setCollector .kernel {}
  | .agentRestarts => { w.setCollector .ssh {} with progress := .idle }

/-- A collector takes an id that no collector had before. -/
def Fresh (w : Handover) : HandoverEvent → Prop
  | .read _ (some id) _ => id ∉ w.boots
  | _ => True

instance (w : Handover) : ∀ e, Decidable (w.Fresh e)
  | .read _ (some id) _ => inferInstanceAs (Decidable (id ∉ w.boots))
  | .read _ none _ => .isTrue trivial
  | .start _ | .unreached | .save _ | .ack | .post _ _ | .finish | .ackArrives _ | .record
      .. | .alignClock .. | .enable _
  | .kernelRestarts | .agentRestarts => .isTrue trivial

/-- The Controller has accepted the report, or refused it for good, in an answer for its
sequence. -/
def Settled (w : Handover) (r : Report) : Prop :=
  ∃ a, (r, a) ∈ w.answers ∧ a.sequence = r.sequence ∧ (a.accepted = true ∨ a.terminal = true)

end Handover

/-! ## What a collector returns -/

inductive Collector.Reads (c : Collector) (stream : String) (rand : Option Nat) :
    Collector → Option Report → Prop
  | nothing {c' : Collector} (hd : c'.delivery = c.delivery) : Reads c stream rand c' none
  | starts {c' : Collector} {id : Nat} (hrand : rand = some id) (hboot : c.delivery.boot = none)
      (hboot' : c'.delivery.boot = some id)
      (hpending : c'.delivery.pending = c.delivery.pending) : Reads c stream rand c' none
  | again {c' : Collector} {r : Report} (hpending : c'.delivery.pending = some r)
      (hold : c.delivery.pending = some r)
      (hsequence : c'.delivery.sequence = c.delivery.sequence)
      (hboot : c'.delivery.boot = c.delivery.boot ∨ c.delivery.boot = none) :
        Reads c stream rand c' (some r)
  | produces {c' : Collector} {r : Report} {id : Nat}
      (hboot : c.delivery.boot = some id ∨ c.delivery.boot = none ∧ rand = some id)
      (hboot' : c'.delivery.boot = some id)
        (hsequence : c'.delivery.sequence = c.delivery.sequence + 1)
      (hpending : c'.delivery.pending = some r) (hr : r.sequence = c.delivery.sequence + 1)
        (hid : r.collectorBootID = id)
      (hstream : r.streamType = stream) : Reads c stream rand c' (some r)

theorem Collector.boot_cases {c c₁ : Collector} {now : Int} {rand : Option Nat}
    (h : c.boot now rand = some c₁) :
    (c₁ = c ∧ c.delivery.boot.isSome = true) ∨
      ∃ id, c.delivery.boot = none ∧ rand = some id ∧ c₁.delivery.boot = some id ∧
        c₁.delivery.pending = c.delivery.pending ∧
        c₁.delivery.sequence = c.delivery.sequence := by
  simp only [boot] at h
  split at h
  · rename_i hboot
    exact .inl ⟨(Option.some.inj h).symm, by rw [hboot]; rfl⟩
  · cases h
  · rename_i id hboot
    refine .inr ⟨id, hboot, rfl, ?_⟩
    rw [← Option.some.inj h]
    exact ⟨rfl, rfl, rfl⟩

theorem Collector.reads (c : Collector) (now : Int) (stream : String) (rand : Option Nat) :
    c.Reads stream rand (c.read now stream rand).1 (c.read now stream rand).2.1 := by
  have hreading := c.reading now stream rand
  generalize c.read now stream rand = x at hreading ⊢
  cases hreading with
  | nothing => exact .nothing rfl
  | @old c₁ pending hboot hpending =>
    cases pending with
    | some r =>
      rcases boot_cases hboot with ⟨rfl, -⟩ | ⟨id, hnone, -, -, hp, hs⟩
      · exact .again hpending hpending rfl (.inl rfl)
      · exact .again hpending (hp ▸ hpending) hs (.inr hnone)
    | none =>
      rcases boot_cases hboot with ⟨rfl, -⟩ | ⟨id, hnone, hrand, hid, hp, hs⟩
      · exact .nothing rfl
      · exact .starts hrand hnone hid hp
  | new _ hboot _ hr =>
    subst hr
    rcases boot_cases hboot with ⟨rfl, hsome⟩ | ⟨id, hnone, hrand, hid, hp, hs⟩
    · obtain ⟨id, hid⟩ := Option.isSome_iff_exists.mp hsome
      exact .produces (.inl hid) hid rfl rfl rfl (by simp [freeze, hid]) rfl
    · exact .produces (.inr ⟨hnone, hrand⟩) hid (congrArg (· + 1) hs) rfl (congrArg (· + 1) hs)
        (by simp [freeze, hid]) rfl

theorem Collector.Reads.pending {c c' : Collector} {stream : String} {rand : Option Nat}
    {r : Report} (h : c.Reads stream rand c' (some r)) : c'.delivery.pending = some r := by
  cases h with
  | again hpending => exact hpending
  | produces _ _ _ hpending => exact hpending

/-! ## Numbers -/

def Report.Before (r q : Report) : Prop :=
  r.streamType = q.streamType → r.collectorBootID = q.collectorBootID → r.sequence < q.sequence

def Report.AtMost (r q : Report) : Prop :=
  r.streamType = q.streamType → r.collectorBootID = q.collectorBootID →
    r.sequence < q.sequence ∨ r = q

theorem Report.Before.atMost {r q : Report} (h : r.Before q) :
    r.AtMost q := fun hs hb => .inl (h hs hb)

theorem Report.AtMost.refl (r : Report) : r.AtMost r := fun _ _ => .inr rfl

structure Collector.Numbered (c : Collector) (source : Source) (r : Report) : Prop where
  boot : c.delivery.boot = some r.collectorBootID
  stream : r.streamType = source.stream
  sequence : r.sequence = c.delivery.sequence

def Collector.Passed (c : Collector) (source : Source) (r : Report) : Prop :=
  r.streamType = source.stream → c.delivery.boot = some r.collectorBootID →
    r.sequence ≤ c.delivery.sequence ∧ ∀ q, c.delivery.pending = some q →
      r.sequence = q.sequence → r = q

theorem Collector.Passed.atMost {c : Collector} {source : Source} {r q : Report}
    (h : c.Passed source r)
    (hq : c.delivery.pending = some q) (hn : c.Numbered source q) : r.AtMost q := by
  intro hstream hboot
  obtain ⟨hle, heq⟩ := h (hstream.trans hn.stream) (hboot ▸ hn.boot)
  rcases Nat.lt_or_eq_of_le (hn.sequence ▸ hle) with hlt | hsame
  · exact .inl hlt
  · exact .inr (heq q hq hsame)

theorem Collector.Numbered.passed {c : Collector} {source : Source} {q : Report}
    (hn : c.Numbered source q) (hq : c.delivery.pending = some q) : c.Passed source q :=
  fun _ _ => ⟨Nat.le_of_eq hn.sequence, fun _ hq' _ => Option.some.inj (hq ▸ hq')⟩

theorem Collector.Numbered.of_delivery {c c' : Collector} {source : Source} {r : Report}
    (h : c.Numbered source r) (hd : c'.delivery = c.delivery) : c'.Numbered source r :=
  ⟨hd ▸ h.boot, h.stream, hd ▸ h.sequence⟩

theorem Collector.Passed.of_delivery {c c' : Collector} {source : Source} {r : Report}
    (h : c.Passed source r) (hd : c'.delivery = c.delivery) : c'.Passed source r := by
  unfold Collector.Passed
  rw [hd]
  exact h

namespace Handover

/-! ## The invariant -/

structure Known (w : Handover) (r : Report) : Prop where
  booted : r.collectorBootID ∈ w.boots
  passed : ∀ source, (w.collectors source).Passed source r

/-- What the call knows at each point. -/
def Holds (w : Handover) : Progress → Prop
  | .idle => True
  | .reading _ pending => pending = w.pendingFile
  | .accepting source pending report =>
    pending = w.pendingFile ∧ report.streamType = source.stream ∧ w.Known report ∧
      ∀ f ∈ w.filed, f.AtMost report
  | .acking source pending report => pending = w.pendingFile ∧ report.streamType = source.stream ∧
      report ∈ w.filed
  | .sending pending _ => pending = w.pendingFile
  | .removing pending _ => pending = w.pendingFile ∧ ∀ p ∈ pending.head?, w.Settled p

/-- The collectors, and what is known of the reports. -/
structure Orderly (w : Handover) : Prop where
  booted : ∀ source, ∀ id ∈ (w.collectors source).delivery.boot, id ∈ w.boots
  numbered : ∀ source, ∀ r ∈ (w.collectors source).delivery.pending,
    (w.collectors source).Numbered source r
  known : ∀ r ∈ w.filed, w.Known r

structure Accounted (sizes : Sizes) (w : Handover) : Prop where
  filed : ∀ r ∈ w.pendingFile, r ∈ w.filed
  sentFiled : ∀ r ∈ w.sent, r ∈ w.filed
  ackedFiled : ∀ r ∈ w.acked, r ∈ w.filed
  acksFiled : ∀ r ∈ w.acks, r ∈ w.filed ∧ r.streamType = Source.kernel.stream
  kept : ∀ r ∈ w.filed, r ∈ w.pendingFile ∨ w.Settled r
  fileOrder : w.pendingFile.Pairwise Report.Before
  sentBefore : ∀ r ∈ w.sent, ∀ f ∈ w.pendingFile, r.AtMost f
  sentOrder : w.sent.Pairwise fun later earlier => earlier.AtMost later
  limits : ∀ items ∈ w.file, items.length ≤ maxPending ∧ sizes.file items ≤ maxPendingBytes

structure Inv (sizes : Sizes) (w : Handover) : Prop where
  orderly : w.Orderly
  accounted : w.Accounted sizes
  holds : w.Holds w.progress

variable {sizes : Sizes} {w : Handover}

theorem inv_init : Inv sizes {} where
  orderly :=
    { booted := by simp
      numbered := by simp
      known := by simp }
  accounted :=
    { filed := by simp [pendingFile]
      sentFiled := by simp
      ackedFiled := by simp
      acksFiled := by simp
      kept := by simp
      fileOrder := by simp [pendingFile]
      sentBefore := by simp
      sentOrder := List.Pairwise.nil
      limits := by simp }
  holds := trivial

theorem Holds.mono {w' : Handover} {p : Progress} (h : w.Holds p)
    (hfile : w'.pendingFile = w.pendingFile) (hfiled : w'.filed = w.filed)
    (hknown : ∀ r, w.Known r → w'.Known r) (hsettled : ∀ r, w.Settled r → w'.Settled r) :
    w'.Holds p := by
  cases p with
  | idle => exact trivial
  | accepting source pending report =>
    exact ⟨hfile ▸ h.1, h.2.1, hknown _ h.2.2.1, hfiled ▸ h.2.2.2⟩
  | acking source pending report => exact ⟨hfile ▸ h.1, h.2.1, hfiled ▸ h.2.2⟩
  | removing pending sent => exact ⟨hfile ▸ h.1, fun q hq => hsettled q (h.2 q hq)⟩
  | reading source pending => exact Eq.trans h hfile.symm
  | sending pending sent => exact Eq.trans h hfile.symm

/-! ## Collectors change -/

theorem setCollector_self (w : Handover) (source : Source) (c : Collector) :
    (w.setCollector source c).collectors source = c :=
  Function.update_self _ _ _

variable {source : Source} {c : Collector} {pending : List Report}

theorem setCollector_of_ne (w : Handover) {other : Source} (c : Collector) (h : other ≠ source) :
    (w.setCollector source c).collectors other = w.collectors other :=
  Function.update_of_ne h _ _

theorem Known.setCollector {r : Report} (h : w.Known r) (hc : c.Passed source r) :
    (w.setCollector source c).Known r where
  booted := List.mem_append_right _ h.booted
  passed other := by
    by_cases heq : other = source
    · rw [heq, setCollector_self]
      exact hc
    · rw [setCollector_of_ne w c heq]
      exact h.passed other

/-- A collector that has passed all that was known, and has a report of its own pending if any. -/
structure Follows (w : Handover) (source : Source) (c : Collector) : Prop where
  numbered : ∀ r ∈ c.delivery.pending, c.Numbered source r
  passed : ∀ r, w.Known r → c.Passed source r

theorem Orderly.setCollector (h : w.Orderly) (hc : w.Follows source c) :
    (w.setCollector source c).Orderly where
  booted other id hid := by
    by_cases heq : other = source
    · rw [heq, setCollector_self] at hid
      exact List.mem_append_left _ (Option.mem_toList.mpr hid)
    · rw [setCollector_of_ne w c heq] at hid
      exact List.mem_append_right _ (h.booted other id hid)
  numbered other := by
    by_cases heq : other = source
    · rw [heq, setCollector_self]
      exact hc.numbered
    · rw [setCollector_of_ne w c heq]
      exact h.numbered other
  known r hr := (h.known r hr).setCollector (hc.passed r (h.known r hr))

theorem Accounted.setCollector (h : w.Accounted sizes) (source : Source) (c : Collector) :
    (w.setCollector source c).Accounted sizes :=
  { h with }

theorem Inv.setCollector (h : w.Inv sizes) (hc : w.Follows source c) :
    (w.setCollector source c).Inv sizes :=
  ⟨h.orderly.setCollector hc, h.accounted.setCollector source c,
    h.holds.mono rfl rfl (fun r hr => hr.setCollector (hc.passed r hr)) fun _ hr => hr⟩

theorem Orderly.congr {w' : Handover} (h : w.Orderly) (hboots : w'.boots = w.boots)
    (hcollectors : w'.collectors = w.collectors)
    (hknown : ∀ r ∈ w'.filed, w.Known r) : w'.Orderly where
  booted := by
    rw [hboots, hcollectors]
    exact h.booted
  numbered := by
    rw [hcollectors]
    exact h.numbered
  known r hr := ⟨hboots ▸ (hknown r hr).booted, hcollectors ▸ (hknown r hr).passed⟩

theorem Inv.setProgress (h : w.Inv sizes) {p : Progress} (hp : w.Holds p) :
    ({ w with progress := p }).Inv sizes where
  orderly := h.orderly.congr rfl rfl h.orderly.known
  accounted := { h.accounted with }
  holds := hp.mono rfl rfl (fun _ hr => ⟨hr.booted, hr.passed⟩) fun _ hr => hr

theorem follows_of_delivery (h : w.Inv sizes) (source : Source)
    (hd : c.delivery = (w.collectors source).delivery) : w.Follows source c where
  numbered r hr := (h.orderly.numbered source r (hd ▸ hr)).of_delivery hd
  passed _ hr := (hr.passed source).of_delivery hd

theorem follows_new (source : Source) : w.Follows source {} where
  numbered := by simp
  passed _ _ _ hboot := absurd hboot (by simp)

theorem passed_of_fresh {id : Nat} (hfresh : id ∉ w.boots) (hboot : c.delivery.boot = some id)
    {r : Report} (hr : w.Known r) : c.Passed source r := by
  intro _ hr'
  rw [hboot] at hr'
  exact absurd (Option.some.inj hr' ▸ hr.booted) hfresh

theorem follows_reads (h : w.Inv sizes) (source : Source) {rand : Option Nat}
    (hfresh : ∀ id ∈ rand, id ∉ w.boots) {r? : Option Report}
    (hreads : (w.collectors source).Reads source.stream rand c r?) : w.Follows source c := by
  cases hreads with
  | nothing hd => exact follows_of_delivery h source hd
  | starts hrand hboot hboot' hpending =>
    refine ⟨fun r hr => ?_, fun r hr => passed_of_fresh (hfresh _ hrand) hboot' hr⟩
    rw [hpending] at hr
    exact absurd (h.orderly.numbered source r hr).boot (by simp [hboot])
  | @again r hpending hold hsequence hboot =>
    have hn := h.orderly.numbered source r hold
    have hsame : c.delivery.boot = (w.collectors source).delivery.boot := by
      refine hboot.resolve_right fun hnone => ?_
      exact absurd hn.boot (by simp [hnone])
    refine ⟨fun q hq => ?_, fun q hq => ?_⟩
    · obtain rfl := Option.some.inj (hpending.symm.trans hq)
      exact ⟨hsame.trans hn.boot, hn.stream, hn.sequence.trans hsequence.symm⟩
    · unfold Collector.Passed
      rw [hsame, hsequence, hpending, ← hold]
      exact hq.passed source
  | @produces r id hboot hboot' hsequence hpending hr hid hstream =>
    refine ⟨fun q hq => ?_, fun q hq => ?_⟩
    · obtain rfl := Option.some.inj (hpending.symm.trans hq)
      exact ⟨hid ▸ hboot', hstream, hr.trans hsequence.symm⟩
    · rcases hboot with hboot | ⟨-, hrand⟩
      · intro hqs hqb
        obtain ⟨hle, -⟩ := hq.passed source hqs (hboot.trans (hboot'.symm.trans hqb))
        refine ⟨by omega, fun q' hq' heq => ?_⟩
        obtain rfl := Option.some.inj (hpending.symm.trans hq')
        omega
      · exact passed_of_fresh (hfresh _ hrand) hboot' hq

theorem Inv.hand (h : w.Inv sizes) {r : Report}
    (hr : (w.collectors source).delivery.pending = some r) :
    r.streamType = source.stream ∧ w.Known r ∧ ∀ f ∈ w.filed, f.AtMost r := by
  have hn := h.orderly.numbered source r hr
  refine ⟨hn.stream, ⟨h.orderly.booted source _ hn.boot, fun other => ?_⟩, fun f hf => ?_⟩
  · by_cases heq : other = source
    · rw [heq]
      exact hn.passed hr
    · intro hstream
      exact absurd (Source.stream_inj (hstream.symm.trans hn.stream)) heq
  · exact ((h.orderly.known f hf).passed source).atMost hr hn

theorem holds_next (h : pending = w.pendingFile) (source : Source) : w.Holds
    (source.next pending) := by
  cases source <;> exact h

theorem Inv.read (h : w.Inv sizes) (hpending : pending = w.pendingFile)
    {rand : Option Nat} (hfresh : ∀ id ∈ rand, id ∉ w.boots) {r? : Option Report}
    (hreads : (w.collectors source).Reads source.stream rand c r?) (arrives : Bool) :
    ({ w.setCollector source c with progress := source.afterRead pending arrives r? }).Inv
      sizes := by
  have hset := h.setCollector (follows_reads h source hfresh hreads)
  have hpending' : pending = (w.setCollector source c).pendingFile := hpending
  refine hset.setProgress ?_
  cases r? with
  | none => exact holds_next hpending' source
  | some r =>
    unfold Source.afterRead
    split_ifs
    · refine ⟨hpending', hset.hand ?_⟩
      rw [setCollector_self]
      exact hreads.pending
    · exact holds_next hpending' source

/-! ## Acknowledgements to collectors -/

theorem follows_ack (h : w.Inv sizes) (source : Source) (boot sequence : Nat) :
    w.Follows source ((w.collectors source).ack boot sequence).1 := by
  unfold Collector.ack
  split
  · exact follows_of_delivery h source rfl
  · split_ifs
    · exact ⟨by simp, fun r hr hstream hboot => ⟨(hr.passed source hstream hboot).1, by simp⟩⟩
    · exact follows_of_delivery h source rfl

theorem ack_true {r q : Report} (hpassed : c.Passed source r)
    (hstream : r.streamType = source.stream) (hack : (c.ack r.collectorBootID r.sequence).2 = true)
    (hq : c.delivery.pending = some q) : q = r := by
  simp only [Collector.ack, hq] at hack
  split_ifs at hack with hsame
  exact ((hpassed hstream hsame.1).2 q hq hsame.2.symm).symm

theorem Inv.takeAck (h : w.Inv sizes) {r : Report} (hr : r ∈ w.filed)
    (hstream : r.streamType = source.stream) : (w.takeAck source r).Inv sizes := by
  have hset := h.setCollector (follows_ack h source r.collectorBootID r.sequence)
  have hacked : ∀ q ∈ (w.takeAck source r).acked, q ∈ w.filed := by
    intro q hq
    simp only [Handover.takeAck] at hq
    split_ifs at hq with hack
    · refine (List.mem_append.mp hq).elim (fun hq => ?_) (h.accounted.ackedFiled q)
      rw [ack_true ((h.orderly.known r hr).passed source) hstream hack (Option.mem_toList.mp hq)]
      exact hr
    · exact h.accounted.ackedFiled q hq
  have hknown : ∀ q,
      (w.setCollector source ((w.collectors source).ack r.collectorBootID r.sequence).1).Known q →
      (w.takeAck source r).Known q := fun q hq => ⟨hq.booted, hq.passed⟩
  refine ⟨⟨hset.orderly.booted, hset.orderly.numbered, fun q hq =>
    hknown q (hset.orderly.known q hq)⟩, ?_, ?_⟩
  · exact { h.accounted with ackedFiled := hacked }
  · exact hset.holds.mono rfl rfl hknown fun _ hr => hr

/-! ## Saves -/

theorem save_eq_some {items : List Report} {ok : Bool} {w' : Handover}
    (h : w.save sizes items ok = some w') :
    items.length ≤ maxPending ∧ sizes.file items ≤ maxPendingBytes ∧
      w' = { w with file := some items, filed := items ++ w.filed } := by
  unfold save at h
  by_cases hlimits : maxPending < items.length ∨ maxPendingBytes < sizes.file items
  · rw [if_pos hlimits] at h
    cases h
  · rw [if_neg hlimits] at h
    split_ifs at h
    exact ⟨by omega, by omega, (Option.some.inj h).symm⟩

structure Replaces (w : Handover) (items : List Report) : Prop where
  known : ∀ r ∈ items, w.Known r
  kept : ∀ r ∈ w.pendingFile, r ∈ items ∨ w.Settled r
  order : items.Pairwise Report.Before
  sentBefore : ∀ r ∈ w.sent, ∀ f ∈ items, r.AtMost f

theorem Inv.save (h : w.Inv sizes) {items : List Report} {ok : Bool} {w' : Handover}
    (hsave : w.save sizes items ok = some w') (hitems : w.Replaces items) {p : Progress}
    (hp : w'.Holds p) : ({ w' with progress := p }).Inv sizes := by
  obtain ⟨hlen, hsize, rfl⟩ := save_eq_some hsave
  refine ⟨?_, ?_, hp.mono rfl rfl (fun _ hr => ⟨hr.booted, hr.passed⟩) fun _ hr => hr⟩
  · exact h.orderly.congr rfl rfl (List.forall_mem_append.mpr ⟨hitems.known, h.orderly.known⟩)
  · have hold : ∀ r ∈ w.filed, r ∈ items ++ w.filed := fun r hr => List.mem_append_right _ hr
    refine ⟨fun r hr => List.mem_append_left _ hr, fun r hr => hold r (h.accounted.sentFiled r hr),
      fun r hr => hold r (h.accounted.ackedFiled r hr), fun r hr =>
        ⟨hold r (h.accounted.acksFiled r hr).1, (h.accounted.acksFiled r hr).2⟩,
      List.forall_mem_append.mpr ⟨fun r hr => .inl hr, fun r hr => ?_⟩, hitems.order,
        hitems.sentBefore, h.accounted.sentOrder,
      fun items' hitems' => ?_⟩
    · exact (h.accounted.kept r hr).elim (hitems.kept r) .inr
    · cases hitems'
      exact ⟨hlen, hsize⟩

theorem before_of_find? {report f : Report} (hfind : pending.find? (sameIdentity report) = none)
    (hf : f ∈ pending) (h : f.AtMost report) : f.Before report := by
  intro hstream hboot
  rcases h hstream hboot with hlt | heq
  · exact hlt
  · have hdiff := List.find?_eq_none.mp hfind f hf
    exact absurd (by simp [sameIdentity, heq]) hdiff

theorem Inv.replaces_append (h : w.Inv sizes) {report : Report} (hknown : w.Known report)
    (hlast : ∀ f ∈ w.filed, f.AtMost report)
    (hfind : w.pendingFile.find? (sameIdentity report) = none) :
    w.Replaces (w.pendingFile ++ [report]) where
  known := List.forall_mem_append.mpr
    ⟨fun r hr => h.orderly.known r (h.accounted.filed r hr), List.forall_mem_singleton.mpr hknown⟩
  kept r hr := .inl (List.mem_append_left _ hr)
  order := by
    refine List.pairwise_append.mpr ⟨h.accounted.fileOrder,
      List.pairwise_singleton _ _, fun f hf r hr => ?_⟩
    rw [List.mem_singleton.mp hr]
    exact before_of_find? hfind hf (hlast f (h.accounted.filed f hf))
  sentBefore r hr := List.forall_mem_append.mpr
    ⟨h.accounted.sentBefore r hr, List.forall_mem_singleton.mpr
      (hlast r (h.accounted.sentFiled r hr))⟩

theorem Inv.replaces_tail (h : w.Inv sizes) (hhead : ∀ p ∈ w.pendingFile.head?, w.Settled p) :
    w.Replaces w.pendingFile.tail where
  known r hr := h.orderly.known r (h.accounted.filed r (List.mem_of_mem_tail hr))
  kept r hr := by
    cases hfile : w.pendingFile with
    | nil => exact absurd (hfile ▸ hr) List.not_mem_nil
    | cons p rest =>
      rw [hfile] at hr hhead
      rcases List.mem_cons.mp hr with rfl | hr
      · exact .inr (hhead r rfl)
      · exact .inl hr
  order := h.accounted.fileOrder.tail
  sentBefore r hr f hf := h.accounted.sentBefore r hr f (List.mem_of_mem_tail hf)

theorem Inv.accept (h : w.Inv sizes) {report : Report}
    (hp : w.Holds (.accepting source pending report)) (ok : Bool) :
    (w.accept sizes source pending report ok).Inv sizes := by
  obtain ⟨rfl, hstream, hknown, hlast⟩ := hp
  unfold Handover.accept
  split_ifs
  · exact h.setProgress (holds_next rfl source)
  · cases hfind : w.pendingFile.find? (sameIdentity report) with
    | some p =>
      dsimp only
      split_ifs with heq
      · exact h.setProgress ⟨rfl, hstream, h.accounted.filed report
          (heq ▸ List.mem_of_find?_eq_some hfind)⟩
      · exact h.setProgress (holds_next rfl source)
    | none =>
      dsimp only
      cases hsave : w.save sizes (w.pendingFile ++ [report]) ok with
      | none => exact h.setProgress (holds_next rfl source)
      | some w' =>
        refine h.save hsave (h.replaces_append hknown hlast hfind) ?_
        obtain ⟨-, -, rfl⟩ := save_eq_some hsave
        exact ⟨rfl, hstream, by simp⟩

/-! ## Answers of the Controller -/

theorem acknowledges_settles {report : Report} {a : Answer} (h : acknowledges report a = true) :
    a.sequence = report.sequence ∧ (a.accepted = true ∨ a.terminal = true) := by
  simp only [acknowledges, Bool.and_eq_true, Bool.not_eq_true', Bool.or_eq_false_iff,
    decide_eq_false_iff_not, ne_eq, not_not] at h
  refine ⟨h.1.1, ?_⟩
  have hneither := h.1.2
  cases ha : a.accepted
  · cases ht : a.terminal
    · simp [ha, ht] at hneither
    · exact .inr rfl
  · exact .inl rfl

theorem Inv.post (h : w.Inv sizes) (hp : pending = w.pendingFile) (sent : Nat)
    (answer : Option Answer) (arrives : Bool) : (w.post pending sent answer arrives).Inv sizes := by
  unfold Handover.post
  cases hfile : pending with
  | nil => exact h
  | cons p rest =>
    have hpf : w.pendingFile = p :: rest := hp ▸ hfile
    have hmem : p ∈ w.pendingFile := by
      rw [hpf]
      exact List.mem_cons_self
    have hbefore : ∀ f ∈ w.pendingFile, p.AtMost f := by
      rw [hpf, List.forall_mem_cons]
      exact ⟨.refl p, fun f hf =>
        ((List.pairwise_cons.mp (hpf ▸ h.accounted.fileOrder)).1 f hf).atMost⟩
    have hsettled : ∀ r, w.Settled r → ∃ a, (r, a) ∈ answer.toList.map
        (fun a => (p, a)) ++ w.answers ∧ a.sequence = r.sequence ∧
        (a.accepted = true ∨ a.terminal = true) := by
      rintro r ⟨a, ha, hr⟩
      exact ⟨a, List.mem_append_right _ ha, hr⟩
    refine ⟨h.orderly.congr rfl rfl h.orderly.known, ?_, ?_⟩
    · let a := h.accounted
      exact { a with
        sentFiled := List.forall_mem_cons.mpr ⟨a.filed p hmem, a.sentFiled⟩
        kept := fun r hr => (a.kept r hr).imp_right (hsettled r)
        sentBefore := List.forall_mem_cons.mpr ⟨hbefore, a.sentBefore⟩
        sentOrder := List.pairwise_cons.mpr ⟨fun r hr => a.sentBefore r hr p hmem, a.sentOrder⟩ }
    · dsimp only
      split_ifs with hanswer
      · refine ⟨hpf.symm, fun q hq => ?_⟩
        obtain rfl : p = q := Option.some.inj hq
        rw [Bool.and_eq_true, Option.any_eq_true] at hanswer
        obtain ⟨a, ha, hack⟩ := hanswer.2
        exact ⟨a, by simp [ha], acknowledges_settles hack⟩
      · trivial

/-! ## Runs -/

theorem load_eq_some (h : w.load sizes = some pending) : pending = w.pendingFile := by
  unfold load at h
  cases hfile : w.file with
  | none =>
    rw [hfile] at h
    simp [pendingFile, hfile, ← Option.some.inj h]
  | some items =>
    rw [hfile] at h
    dsimp only at h
    split_ifs at h
    simp [pendingFile, hfile, ← Option.some.inj h]

theorem Inv.step (h : w.Inv sizes) (e : HandoverEvent) (hfresh : w.Fresh e) :
    (w.step sizes e).Inv sizes := by
  have hholds := h.holds
  cases e with
  | start readable =>
    simp only [Handover.step]
    split
    · rename_i pending _ hload
      split_ifs
      · exact h.setProgress (load_eq_some hload)
      · exact h
    · exact h
  | read now rand arrives =>
    simp only [Handover.step]
    split
    · rename_i source pending hp
      rw [hp] at hholds
      refine h.read hholds (fun id hid => ?_) (Collector.reads _ now _ rand) arrives
      rw [hid] at hfresh
      exact hfresh
    · exact h
  | unreached =>
    simp only [Handover.step]
    split
    · rename_i pending hp
      rw [hp] at hholds
      exact h.setProgress hholds
    · rename_i pending report hp
      rw [hp] at hholds
      exact h.setProgress hholds.1
    · exact h
  | save ok =>
    simp only [Handover.step]
    split
    · rename_i source pending report hp
      rw [hp] at hholds
      exact h.accept hholds ok
    · rename_i pending sent hp
      rw [hp] at hholds
      obtain ⟨rfl, hhead⟩ := hholds
      cases hsave : w.save sizes w.pendingFile.tail ok with
      | none => exact h.setProgress trivial
      | some w' =>
        refine h.save hsave (h.replaces_tail hhead) ?_
        obtain ⟨-, -, rfl⟩ := save_eq_some hsave
        rfl
    · exact h
  | ack =>
    simp only [Handover.step]
    split
    · rename_i pending report hp
      rw [hp] at hholds
      refine ⟨h.orderly.congr rfl rfl h.orderly.known, { h.accounted with acksFiled :=
        ?_ }, hholds.1⟩
      exact List.forall_mem_cons.mpr ⟨⟨hholds.2.2, hholds.2.1⟩, h.accounted.acksFiled⟩
    · rename_i pending report hp
      rw [hp] at hholds
      exact (h.takeAck hholds.2.2 hholds.2.1).setProgress hholds.1
    · exact h
  | post answer arrives =>
    simp only [Handover.step]
    split
    · rename_i pending sent hp
      rw [hp] at hholds
      split_ifs
      · exact h.post hholds sent answer arrives
      · exact h
    · exact h
  | finish =>
    simp only [Handover.step]
    split
    · split_ifs
      · exact h
      · exact h.setProgress trivial
    · exact h
  | ackArrives report =>
    simp only [Handover.step]
    split_ifs with hreport
    · obtain ⟨hfiled, hstream⟩ := h.accounted.acksFiled report hreport
      exact h.takeAck hfiled hstream
    · exact h
  | record source id unix upload download =>
    exact h.setCollector (follows_of_delivery h source (Collector.record_keeps _ _ _ _ _).2)
  | alignClock source unix aligned =>
    obtain ⟨since, upTo, heq⟩ := (w.collectors source).alignClock_eq unix aligned
    exact h.setCollector (follows_of_delivery h source (by rw [heq]))
  | enable source => exact h.setCollector (follows_of_delivery h source rfl)
  | kernelRestarts => exact h.setCollector (follows_new .kernel)
  | agentRestarts => exact (h.setCollector (follows_new .ssh)).setProgress trivial

/-- In every run: what a collector considers acknowledged is in the file or settled; what left the
file was answered for its sequence; of the reports sent with one boot and one stream, a later one
has the larger number or is the same report; and the file keeps to its limits. -/
theorem reports_handed_over (sizes : Sizes) (es : List HandoverEvent)
    (hfresh : Run.Along (step sizes) Fresh {} es) :
    let w := Run.exec (step sizes) {} es
    (∀ r ∈ w.acked, r ∈ w.pendingFile ∨ w.Settled r) ∧
      (∀ r ∈ w.filed, r ∉ w.pendingFile → ∃ a, (r, a) ∈ w.answers ∧ a.sequence = r.sequence) ∧
      (w.sent.Pairwise fun later earlier => later.streamType = earlier.streamType →
        later.collectorBootID = earlier.collectorBootID → earlier.sequence < later.sequence ∨
          later = earlier) ∧
      w.pendingFile.length ≤ maxPending ∧ ∀ items ∈ w.file, sizes.file items ≤ maxPendingBytes := by
  intro w
  have h : w.Inv sizes := Run.invariant (fun _ e hs he => hs.step e he) inv_init hfresh
  have hkept := h.accounted.kept
  refine ⟨fun r hr => hkept r (h.accounted.ackedFiled r hr), fun r hr hout =>
    ?_, ?_, ?_, fun items hitems => (h.accounted.limits items hitems).2⟩
  · obtain ⟨a, ha, hseq, -⟩ := (hkept r hr).resolve_left hout
    exact ⟨a, ha, hseq⟩
  · refine h.accounted.sentOrder.imp fun hmost hstream hboot => ?_
    exact (hmost hstream.symm hboot.symm).imp_right Eq.symm
  · cases hfile : w.file with
    | none => simp [pendingFile, hfile]
    | some items =>
      simp only [pendingFile, hfile, Option.getD_some]
      exact (h.accounted.limits items hfile).1

def lostAnswer : List HandoverEvent :=
  [.enable .kernel, .enable .ssh, .start true, .read (600 * second) (some 7) true, .save true, .ack,
    .read (600 * second) (some 8) true, .save true, .ack, .post (some ⟨1, true, false, ""⟩) false,
      .agentRestarts,
    .start true, .read (610 * second) none true, .save true, .ack, .read (610 * second) none true,
    .post (some ⟨1, true, false, ""⟩) true, .save true,
      .post (some ⟨1, false, true, "expired"⟩) true, .save true, .finish]

def smallSizes : Sizes where
  report _ := 200
  file items := 200 * items.length

theorem handed_over_after_lost_answer :
    (Run.exec (step smallSizes) {} lostAnswer).acked.length = 1 ∧
      (Run.exec (step smallSizes) {} lostAnswer).sent.length = 3 ∧
      ∀ r ∈ (Run.exec (step smallSizes) {} lostAnswer).acked,
        r ∈ (Run.exec (step smallSizes) {} lostAnswer).pendingFile ∨
          (Run.exec (step smallSizes) {} lostAnswer).Settled r :=
  have hfresh : Run.Along (step smallSizes) Fresh {} lostAnswer := by decide +kernel
  ⟨by decide +kernel, by decide +kernel, (reports_handed_over smallSizes lostAnswer hfresh).1⟩

end Handover

end OboardAgent.Activity
