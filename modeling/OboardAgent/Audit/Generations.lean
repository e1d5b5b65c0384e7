import OboardAgent.Audit.Conservation
import OboardAgent.Lib.Texts

/-!
# The presence of connections in the kernel

The calls of `minibox/connection_audit.go`, with auditing switched off and on between them
(`SetConnectionAuditEnabled`, whose flag and whose tables change apart) and the collection policy
replaced (`SetActivityCollection`). Each call that takes the lock is one event; what it read before
is part of the event.
-/

namespace OboardAgent.Audit

open Tally (Holder Edge held)

/-! ## Keys with a generation -/

def OfGeneration (generation : Nat) (key : String) : Prop :=
  ∃ rest, key = toString generation ++ "\x00" ++ rest

/-- A decimal number has no zero byte, so the generation can be read off the key. -/
theorem OfGeneration.unique {g g' : Nat} {key : String} (h : OfGeneration g key)
    (h' : OfGeneration g' key) : g = g' := by
  obtain ⟨rest, rfl⟩ := h
  obtain ⟨rest', hkey⟩ := h'
  have hlists := congrArg String.toList hkey
  simp only [String.toList_append, Texts.toList_toString, List.append_assoc] at hlists
  have hdigit : ∀ n : Nat, ∀ c ∈ Nat.toDigits 10 n, c.isDigit = true := fun n c hc =>
      Texts.isDigit_of_mem_toDigits hc
  exact Texts.toDigits_inj (Texts.cut (hdigit g) (hdigit g') (by decide) (by decide) hlists).1

theorem OfGeneration.insert {g : Nat} {k : String} (hk : OfGeneration g k)
    {m : GoMap String ConnectionAuditBucket} (h : ∀ k b, m.lookup k = some b → OfGeneration g k)
    (b : ConnectionAuditBucket) (k' : String) (b' : ConnectionAuditBucket)
    (hb' : (m.insert k b).lookup k' = some b') : OfGeneration g k' := by
  rcases GoMap.lookup_of_insert hb' with ⟨rfl, -⟩ | hb'
  · exact hk
  · exact h k' b' hb'

namespace ConnectionAudit

variable (a : ConnectionAudit)

/-! ## Switching -/

/-- The flag of `SetConnectionAuditEnabled`, which is swapped before the lock is taken. -/
def swapEnabled (enabled : Bool) : ConnectionAudit := { a with enabled := enabled }

/-- `SetConnectionAuditEnabled` under the lock, when auditing has been switched on. -/
def openWindow (now : Int) : ConnectionAudit := { a with windowStart := some now, dropped := 0 }

/-- `SetConnectionAuditEnabled` under the lock, when auditing is switched off. -/
def dropTables : ConnectionAudit :=
  { a with
    buckets := ∅, activeByIdentity := ∅, presenceStates := ∅, presenceEvents := []
    presenceDropped := 0
    generation := a.generation + 1
    dropped := 0
    windowStart := none }

/-- `SetConnectionAuditEnabled`, when nothing comes between the flag and the lock. -/
def setConnectionAuditEnabled (enabled : Bool) (now : Int) : ConnectionAudit :=
  if enabled then
    if a.enabled then a.swapEnabled true else (a.swapEnabled true).openWindow now
  else (a.swapEnabled false).dropTables

/-- `SetActivityCollection`, with a policy that is valid, not older and not the one there is. -/
def setActivityCollection (p : CollectionPolicy) : ConnectionAudit :=
  { a with
    collection := some p
    diagnostics := p.mode ≠ .light
    buckets := ∅, activeByIdentity := ∅, presenceStates := ∅, presenceEvents := []
    generation := a.generation + 1 }

/-! ## What the calls do to the tables -/

/-- The key of the state that an event is about. -/
def presenceKeyOf (e : ConnectionPresenceEvent) : String :=
  connectionPresenceKey e.userID e.deviceIDHash e.credentialEpoch e.sourceIP e.network

theorem stable_presenceKeyOf : Stable presenceKeyOf := fun _ _ _ _ _ _ _ _ => rfl

def view (delivered : List ConnectionPresenceEvent) (holders : List (Holder String)) : View :=
  ⟨a.presenceStates, delivered ++ a.presenceEvents, holders, a.generation⟩

variable {a}

theorem shows_view (delivered : List ConnectionPresenceEvent) (holders : List (Holder String))
    {t : Tables} (h : a.tables = t) : Shows delivered t (a.view delivered holders) := by
  subst h
  exact ⟨rfl, rfl⟩

theorem endPresence_eq_self {h : Handle}
    (hnone : h.admitted = true → a.presenceStates.lookup h.presenceKey = none) (later : Int) :
    a.endPresence h later = a := by
  unfold endPresence
  split
  · rename_i s hadmitted hs
    rw [hnone hadmitted] at hs
    cases hs
  · rfl

theorem quiet_drainConnectionPresenceEvents (hkeyed : Keyed presenceKeyOf a.presenceStates) (now : Int)
    (delivered : List ConnectionPresenceEvent) (holders : List (Holder String)) :
    Quiet presenceKeyOf (a.view delivered holders)
      ((a.drainConnectionPresenceEvents now).1.view
        (delivered ++ (a.drainConnectionPresenceEvents now).2.1) holders) := by
  unfold drainConnectionPresenceEvents
  split
  · exact Quiet.of_eq hkeyed rfl (by simp [view])
  · refine Tables.quiet_refresh tables maxConnectionPresenceEvents now stable_presenceKeyOf hkeyed
      (fun a' e => ?_) (shows_view delivered holders rfl) ⟨rfl, rfl⟩
    split
    · exact Or.inr ⟨_, (a'.told_announce ..).tables_eq⟩
    · exact Or.inl rfl

theorem payload_presence (a : ConnectionAudit) (h : Handle) (upload download now later : Int) :
    a.recordConnectionPayload h upload download now later = a ∨
    ∃ b b', a.buckets.lookup h.key = some b ∧ a.recordConnectionPayload h upload download now later
      = ({ a with buckets := a.buckets.insert h.key b' } : ConnectionAudit).payloadPresence h now later := by
  unfold recordConnectionPayload
  split
  · exact Or.inl rfl
  split
  · exact Or.inl rfl
  rename_i b hb
  split
  · exact Or.inl rfl
  · exact Or.inr ⟨b, _, hb, rfl⟩

/-- The bucket of the handle is none of the presence's business. -/
theorem recordConnectionEnd_presence (a : ConnectionAudit) (h : Handle) (now later : Int) :
    ∃ a₀ : ConnectionAudit, a.recordConnectionEnd h now later = a₀.endPresence h later ∧
      a₀.tables = a.tables ∧ a₀.generation = a.generation := by
  refine ⟨_, rfl, ?_⟩
  split <;> exact ⟨rfl, rfl⟩

theorem tables_endPresence {t : Tables} (h : Handle) (later : Int) (ht : a.tables = t) :
    (a.endPresence h later).tables = (if h.admitted then some h.presenceKey else none).elim t
      fun k => t.leave maxConnectionPresenceEvents k a.nextNumber later := by
  rw [(a.told_endPresence h later).tables_eq, ht]
  cases h.admitted <;> rfl

end ConnectionAudit

/-! ## Runs -/

namespace Kernel

open ConnectionAudit (presenceKeyOf stable_presenceKeyOf shows_view)

structure Connection where
  handle : Handle
  generation : Nat
  isOpen : Bool := true

/-- The tracker, the connections, and the presence events handed over. -/
structure World where
  audit : ConnectionAudit
  connections : List Connection := []
  delivered : List ConnectionPresenceEvent := []

inductive Event where
  | start (x : ConnectionAudit.Attempt) (clock : ConnectionAudit.StartClock)
  | payload (connection : Nat) (upload download : Int) (now later : Int)
  | finish (connection : Nat) (now later : Int)
  /-- A drain reads the flag before it takes the lock. -/
  | drain (enabled : Bool) (now : Int)
  | drainPresence (enabled : Bool) (now : Int)
  | swapEnabled (enabled : Bool)
  | openWindow (now : Int)
  | dropTables
  | collect (p : CollectionPolicy)

namespace World

def step (w : World) : Event → World
  | .start x clock =>
    match w.audit.recordConnectionStart x clock with
    | (a, none) => { w with audit := a }
    | (a, some h) =>
      { w with audit := a, connections :=
        w.connections ++ [{ handle := h, generation := w.audit.generation }] }
  | .payload i upload download now later =>
    match w.connections[i]? with
    | none => w
    | some c => { w with audit := w.audit.recordConnectionPayload c.handle upload download now later }
  | .finish i now later =>
    match w.connections[i]? with
    | none => w
    | some c =>
      if c.isOpen then
        { w with
          audit := w.audit.recordConnectionEnd c.handle now later
          connections := w.connections.set i { c with isOpen := false } }
      else w
  | .drain enabled now =>
    let a := ((w.audit.swapEnabled enabled).drainConnectionAuditSnapshot now).1
    { w with audit := a.swapEnabled w.audit.enabled }
  | .drainPresence enabled now =>
    let x := (w.audit.swapEnabled enabled).drainConnectionPresenceEvents now
    { w with audit := x.1.swapEnabled w.audit.enabled, delivered := w.delivered ++ x.2.1 }
  | .swapEnabled enabled => { w with audit := w.audit.swapEnabled enabled }
  | .openWindow now => { w with audit := w.audit.openWindow now }
  | .dropTables => { w with audit := w.audit.dropTables }
  | .collect p => { w with audit := w.audit.setActivityCollection p }

/-- What a drain of presence hands over. -/
def handed (w : World) : Event → List ConnectionPresenceEvent
  | .drainPresence enabled now =>
    ((w.audit.swapEnabled enabled).drainConnectionPresenceEvents now).2.1
  | _ => []

/-- A tracker as it is made: no collection policy yet. -/
def initial (enabled : Bool) (windowStart : Option Int) : World :=
  { audit := { enabled := enabled, diagnostics := false, windowStart := windowStart } }

def holders (w : World) : List (Holder String) :=
  w.connections.map fun c =>
    ⟨if c.handle.admitted then some c.handle.presenceKey else none, c.generation, c.isOpen⟩

def view (w : World) : View := w.audit.view w.delivered w.holders

/-- A connection that ends is of the generation, or there is no state under its key. -/
def EndsCurrent (w : World) : Event → Prop
  | .finish i _ _ => ∀ c ∈ w.connections[i]?, c.isOpen = true → c.handle.admitted = true →
      c.generation ≠ w.audit.generation →
      w.audit.presenceStates.lookup c.handle.presenceKey = none
  | _ => True

instance EndsCurrent.decidable (w : World) (e : Event) : Decidable (w.EndsCurrent e) := by
  cases e <;> unfold EndsCurrent <;> infer_instance

/-- No presence event is lost that the receiver could miss: there is room for one at a start and at
an end, and what is dropped with the tables was not announced yet. -/
def LosesNothing (w : World) : Event → Prop
  | .start _ _ => w.audit.presenceEvents.length < maxConnectionPresenceEvents
  | .finish _ _ _ => w.audit.presenceEvents.length < maxConnectionPresenceEvents
  | .dropTables | .collect _ =>
    Untold presenceKeyOf w.audit.presenceStates w.audit.presenceEvents
  | _ => True

instance LosesNothing.decidable (w : World) (e : Event) : Decidable (w.LosesNothing e) := by
  cases e <;> unfold LosesNothing <;> infer_instance

variable {w : World}

theorem getElem?_holders {i : Nat} {c : Connection} (hi : w.connections[i]? = some c) :
    w.holders[i]? = some
      ⟨if c.handle.admitted then some c.handle.presenceKey else none, c.generation, c.isOpen⟩ := by
  rw [holders, List.getElem?_map, hi]
  rfl

theorem change (w : World) (e : Event) (hkeyed : Keyed presenceKeyOf w.audit.presenceStates) :
    Change presenceKeyOf (w.LosesNothing e) (¬w.EndsCurrent e) w.view (w.step e).view := by
  have hdropped : ∀ l : List ConnectionPresenceEvent, w.delivered ++ [] ++ l = w.delivered ++ l :=
    fun l => by rw [List.append_nil]
  cases e with
  | start x clock =>
    simp only [step]
    rcases w.audit.start_cases x clock with ⟨a, hstart, -, hgeneration, htables⟩ |
      ⟨sourceIP, a₀, b, _, h, hstart, -, hadmitted, hkey, -, hgeneration, htables, -⟩
    · rw [hstart]
      exact .quiet (Tables.quiet_same hkeyed (shows_view w.delivered _ rfl)
        (shows_view _ _ htables)) rfl hgeneration
    · rw [hstart]
      have htold := a₀.told_startPresence x sourceIP h.presenceKey clock.now
      have hshows : Shows w.delivered a₀.tables w.view := shows_view _ _ htables.symm
      cases hx : x.admitted with
      | true =>
        rw [if_pos hx] at htold
        refine .join h.presenceKey ?_ ?_ (htold.generation.trans hgeneration)
        · exact Tables.moves_join (htables ▸ hkeyed) hshows stable_presenceKeyOf
            (shows_view w.delivered _ htold.tables_eq) hkey.symm rfl (htables ▸ id)
        · simp [view, ConnectionAudit.view, holders, hadmitted, hx]
      | false =>
        rw [if_neg (by simp [hx])] at htold
        refine .reject ?_ ?_ (htold.generation.trans hgeneration)
        · exact Tables.quiet_say (htables ▸ hkeyed) hshows
            (shows_view w.delivered _ htold.tables_eq) rfl
        · simp [view, ConnectionAudit.view, holders, hadmitted, hx]
  | payload i upload download now later =>
    simp only [step]
    cases hi : w.connections[i]? with
    | none => exact .unchanged hkeyed
    | some c =>
      dsimp only
      rcases w.audit.payload_presence c.handle upload download now later with h | ⟨b, b', -, h⟩
      · rw [h]
        exact .unchanged hkeyed
      · rw [h]
        have htold := ConnectionAudit.told_payloadPresence
          { w.audit with buckets := w.audit.buckets.insert c.handle.key b' } c.handle now later
        refine .quiet ?_ rfl htold.generation
        have hshows : Shows w.delivered w.audit.tables w.view := shows_view _ _ rfl
        have hshows' := shows_view w.delivered w.holders htold.tables_eq
        split at hshows'
        · exact Tables.quiet_touch hkeyed hshows stable_presenceKeyOf hshows'
        · exact Tables.quiet_same hkeyed hshows hshows'
  | finish i now later =>
    simp only [step]
    cases hi : w.connections[i]? with
    | none => exact .unchanged hkeyed
    | some c =>
      dsimp only
      split
      swap
      · exact .unchanged hkeyed
      rename_i hopen
      obtain ⟨a₀, hend, htables, hgeneration⟩ :=
        w.audit.recordConnectionEnd_presence c.handle now later
      have hholders : ∀ a : ConnectionAudit, ({ w with
            audit := a
            connections := w.connections.set i { c with isOpen := false } } : World).holders
          = w.holders.set i
            ⟨if c.handle.admitted then some c.handle.presenceKey else none, c.generation, false⟩ := by
        intro a
        rw [holders, List.map_set]
        rfl
      have htold := a₀.told_endPresence c.handle later
      have hleft := ConnectionAudit.tables_endPresence c.handle later htables
      rw [hend]
      refine Tables.change_ends hkeyed (shows_view w.delivered _ rfl) stable_presenceKeyOf
        (getElem?_holders hi) hopen (shows_view w.delivered _ hleft) id ?_ (hholders _)
          (htold.generation.trans hgeneration)
      intro k hk hne hsome hcurrent
      simp only [Option.ite_none_right_eq_some, Option.some.injEq] at hk
      obtain ⟨hadmitted, rfl⟩ := hk
      simp only [EndsCurrent, hi] at hcurrent
      exact hsome (hcurrent c rfl hopen hadmitted hne)
  | drain enabled now =>
    refine .quiet (Quiet.of_eq hkeyed ?_ ?_) rfl ?_
    all_goals
      dsimp only [step, view, ConnectionAudit.view]
      unfold ConnectionAudit.drainConnectionAuditSnapshot
      split <;> rfl
  | drainPresence enabled now =>
    refine .quiet ?_ rfl ((w.audit.swapEnabled enabled).drainConnectionPresenceEvents_frame now).2
    exact ConnectionAudit.quiet_drainConnectionPresenceEvents
      (a := w.audit.swapEnabled enabled) hkeyed now w.delivered w.holders
  | swapEnabled enabled => exact .unchanged hkeyed
  | openWindow now => exact .unchanged hkeyed
  | dropTables => exact .reset _ rfl (hdropped _).symm id rfl rfl
  | collect p => exact .reset _ rfl (hdropped _).symm id rfl rfl

/-! ## The buckets are those of the generation -/

/-- The keys of the buckets carry the generation, and a handle that of its connection. -/
structure Fresh (w : World) : Prop where
  bucket : ∀ k b, w.audit.buckets.lookup k = some b → OfGeneration w.audit.generation k
  handle : ∀ c ∈ w.connections, OfGeneration c.generation c.handle.key

theorem Fresh.step (h : Fresh w) (e : Event) : Fresh (w.step e) := by
  cases e with
  | start x clock =>
    simp only [World.step]
    rcases w.audit.start_cases x clock with ⟨a, hstart, hbuckets, hgeneration, -⟩ |
      ⟨sourceIP, a₀, b, peak, hd, hstart, hkey, -, -, hbuckets, hgeneration, -⟩
    · rw [hstart]
      exact ⟨by dsimp only; rw [hgeneration, hbuckets]; exact h.bucket, h.handle⟩
    · have hof : OfGeneration w.audit.generation hd.key :=
        ⟨"\x00".intercalate [x.stateKey, sourceIP, x.networkName], hkey⟩
      rw [hstart]
      refine ⟨?_, List.forall_mem_append.mpr ⟨h.handle, List.forall_mem_singleton.mpr hof⟩⟩
      have htold := a₀.told_startPresence x sourceIP hd.presenceKey clock.now
      dsimp only
      rw [htold.buckets, htold.generation, hbuckets, hgeneration]
      exact hof.insert h.bucket _
  | payload i upload download now later =>
    simp only [World.step]
    cases hi : w.connections[i]? with
    | none => exact h
    | some c =>
      refine ⟨?_, h.handle⟩
      dsimp only
      rcases w.audit.payload_presence c.handle upload download now later with hp | ⟨b, b', hb, hp⟩
      · rw [hp]
        exact h.bucket
      · have htold := ConnectionAudit.told_payloadPresence
          { w.audit with buckets := w.audit.buckets.insert c.handle.key b' } c.handle now later
        rw [hp, htold.buckets, htold.generation]
        exact (h.bucket _ b hb).insert h.bucket _
  | finish i now later =>
    simp only [World.step]
    cases hi : w.connections[i]? with
    | none => exact h
    | some c =>
      dsimp only
      split
      · refine ⟨?_, fun c' hc' => ?_⟩
        · dsimp only
          unfold ConnectionAudit.recordConnectionEnd
          dsimp only
          rw [(ConnectionAudit.told_endPresence ..).buckets, (ConnectionAudit.told_endPresence ..).generation]
          split
          · exact h.bucket
          · rename_i b hb
            exact (h.bucket _ b hb).insert h.bucket _
        · rcases List.mem_or_eq_of_mem_set hc' with hc' | rfl
          · exact h.handle c' hc'
          · exact h.handle c (List.mem_of_getElem? hi)
      · exact h
  | drain enabled now =>
    refine ⟨?_, h.handle⟩
    dsimp only [World.step, ConnectionAudit.swapEnabled]
    intro k b hb
    have hgeneration : (({ w.audit with enabled := enabled } : ConnectionAudit).drainConnectionAuditSnapshot
        now).1.generation = w.audit.generation := by
      unfold ConnectionAudit.drainConnectionAuditSnapshot
      split <;> rfl
    rw [hgeneration]
    cases enabled with
    | false => exact h.bucket k b hb
    | true =>
      obtain ⟨b₀, hb₀, -⟩ := ConnectionAudit.drain_lookup _ rfl hb
      exact h.bucket k b₀ hb₀
  | drainPresence enabled now =>
    refine ⟨?_, h.handle⟩
    obtain ⟨hbuckets, hgeneration⟩ :=
      (w.audit.swapEnabled enabled).drainConnectionPresenceEvents_frame now
    dsimp only [World.step, ConnectionAudit.swapEnabled] at hbuckets hgeneration ⊢
    rw [hbuckets, hgeneration]
    exact h.bucket
  | swapEnabled enabled => exact ⟨h.bucket, h.handle⟩
  | openWindow now => exact ⟨h.bucket, h.handle⟩
  | dropTables => exact ⟨(fun _ _ hb => nomatch hb), h.handle⟩
  | collect p => exact ⟨(fun _ _ hb => nomatch hb), h.handle⟩

theorem Fresh.recordConnectionEnd_eq_self (h : Fresh w) {c : Connection} (hc : c ∈ w.connections)
    (hstale : c.generation ≠ w.audit.generation)
    (hnone : c.handle.admitted = true → w.audit.presenceStates.lookup c.handle.presenceKey = none)
    (now later : Int) : w.audit.recordConnectionEnd c.handle now later = w.audit := by
  unfold ConnectionAudit.recordConnectionEnd
  cases hb : w.audit.buckets.lookup c.handle.key with
  | some b => exact absurd ((h.handle c hc).unique (h.bucket _ b hb)) hstale
  | none => exact ConnectionAudit.endPresence_eq_self hnone later

/-! ## Every run -/

variable {enabled : Bool} {windowStart : Option Int} {es : List Event}

theorem sound_run (enabled : Bool) (windowStart : Option Int) (es : List Event) :
    Sound presenceKeyOf (Run.exec step (initial enabled windowStart) es).view ∧
      Fresh (Run.exec step (initial enabled windowStart) es) := by
  refine Run.invariant_all (I := fun w : World => Sound presenceKeyOf w.view ∧ Fresh w) ?_ ⟨?_, ?_⟩
  · exact fun w e h => ⟨(w.change e h.1.keyed).sound h.1, h.2.step e⟩
  · exact ⟨keyed_empty presenceKeyOf, nofun⟩
  · exact ⟨(fun _ _ hb => nomatch hb), nofun⟩

theorem counted_run (h : Run.Along step EndsCurrent (initial enabled windowStart) es) :
    Counted (Run.exec step (initial enabled windowStart) es).view :=
  Counted.run change (sound_run enabled windowStart []).1 (fun _ => rfl) h

theorem delivered_run : (Run.exec step (initial enabled windowStart) es).delivered
    = Run.outputs step handed (initial enabled windowStart) es := by
  refine Run.log_exec World.delivered fun w e => ?_
  cases e <;> simp only [step, handed, List.append_nil] <;> split <;>
    first | rfl | (split <;> rfl)

theorem followed_run (h : Run.Along step LosesNothing (initial enabled windowStart) es) :
    Followed presenceKeyOf (Run.exec step (initial enabled windowStart) es).view :=
  Followed.run change (sound_run enabled windowStart []).1 Tally.follows_nil h

/-- The open connections of the generation that were let in, under the key. -/
def openConnections (w : World) (k : String) : Nat :=
  w.connections.countP fun c =>
    c.isOpen && c.generation = w.audit.generation && c.handle.admitted && c.handle.presenceKey = k

theorem held_holders (w : World) (k : String) :
    held w.holders w.audit.generation k = w.openConnections k := by
  rw [held, holders, List.countP_map]
  refine List.countP_congr fun c _ => ?_
  cases hadmitted : c.handle.admitted <;> simp [hadmitted]

end World
end Kernel

end OboardAgent.Audit
