import OboardAgent.Audit.SshRecorder

/-!
# Presence over whole runs

The runs of the agent's SSH recorder, after those of the kernel, and what holds in both: as long as
no connection of an earlier generation ends on a state that a later one has made, the presence map
counts the open connections, and the events of a key go up and down in turn.
-/

namespace OboardAgent.Audit

open Tally (Holder held)

namespace Ssh

open ConnectionAuditAccumulator (presenceKeyOf stable_presenceKeyOf shows_view startSession_cases named
  agentConnectionPresenceKey addTraffic_cases told_trafficPresence SameBuckets)

/-- How far a session has come; `finish` takes the lock twice. -/
inductive Phase where
  | running
  | bucketEnded
  | finished
deriving DecidableEq, Repr

/-- A session that is recorded, and the generation it was started in. -/
structure Session where
  session : ConnectionAuditSession
  generation : Nat
  phase : Phase := .running

/-- The recorder, the sessions, and the presence events handed over. -/
structure World where
  audit : ConnectionAuditAccumulator
  sessions : List Session := []
  delivered : List ConnectionPresenceEvent := []

inductive Event where
  | start (loaded : Loaded) (item : ConnectionAuditBucket) (clock : ConnectionAudit.StartClock)
  | traffic (session : Nat) (loaded : Loaded) (upload : Bool) (bytes check now later : Int)
  | endBucket (session : Nat) (now : Int)
  | endPresence (session : Nat) (later : Int)
  | reject (loaded : Loaded) (item : ConnectionAuditBucket) (check now : Int)
  | drain (loaded : Loaded) (now : Int)
  | drainPresence (loaded : Loaded) (now : Int)
  | swapEnabled (enabled : Bool)
  | openWindow (now : Int)
  | dropTables
  | collect (p : CollectionPolicy)

namespace World

def step (w : World) : Event → World
  | .start loaded item clock =>
    match w.audit.startSession loaded item clock with
    | (a, none) => { w with audit := a }
    | (a, some s) =>
      { w with audit := a, sessions := w.sessions ++ [{ session := s, generation := w.audit.generation }] }
  | .traffic i loaded upload bytes check now later =>
    match w.sessions[i]? with
    | none => w
    | some s => { w with audit := w.audit.addTraffic loaded s.session upload bytes check now later }
  | .endBucket i now =>
    match w.sessions[i]? with
    | none => w
    | some s =>
      if s.phase = .running then
        { w with
          audit := w.audit.endBucket s.session.key s.session.started now
          sessions := w.sessions.set i { s with phase := .bucketEnded } }
      else w
  | .endPresence i later =>
    match w.sessions[i]? with
    | none => w
    | some s =>
      if s.phase = .bucketEnded then
        { w with
          audit := w.audit.endPresence s.session.presenceKey later
          sessions := w.sessions.set i { s with phase := .finished } }
      else w
  | .reject loaded item check now =>
    { w with audit := w.audit.recordCredentialRejected loaded item check now }
  | .drain loaded now => { w with audit := (w.audit.drain loaded now).1 }
  | .drainPresence loaded now =>
    let x := w.audit.drainPresenceEvents loaded now
    { w with audit := x.1, delivered := w.delivered ++ x.2.1 }
  | .swapEnabled enabled => { w with audit := w.audit.swapEnabled enabled }
  | .openWindow now => { w with audit := w.audit.openWindow now }
  | .dropTables => { w with audit := w.audit.dropTables }
  | .collect p => { w with audit := w.audit.setCollectionPolicy p }

/-- What a drain of presence hands over. -/
def handed (w : World) : Event → List ConnectionPresenceEvent
  | .drainPresence loaded now => (w.audit.drainPresenceEvents loaded now).2.1
  | _ => []

/-- `newConnectionAuditAccumulator`. -/
def initial (enabled : Bool) (windowStart : Option Int) : World :=
  { audit := { enabled := enabled, windowStart := windowStart } }

def holder (s : Session) : Holder String :=
  ⟨some s.session.presenceKey, s.generation, s.phase ≠ .finished⟩

def holders (w : World) : List (Holder String) := w.sessions.map holder

def view (w : World) : View := w.audit.view w.delivered w.holders

/-- A session that ends is of the generation, or there is no state under its key. -/
def EndsCurrent (w : World) : Event → Prop
  | .endPresence i _ => ∀ s ∈ w.sessions[i]?, s.phase = .bucketEnded →
      s.generation ≠ w.audit.generation →
      w.audit.presenceStates.lookup s.session.presenceKey = none
  | _ => True

instance EndsCurrent.decidable (w : World) (e : Event) : Decidable (w.EndsCurrent e) := by
  cases e <;> unfold EndsCurrent <;> infer_instance

/-- No presence event is lost that the receiver could miss: there is room for one at a start and at
an end, and what is dropped with the tables was not announced yet. -/
def LosesNothing (w : World) : Event → Prop
  | .start _ _ _ => w.audit.presenceEvents.length < maxAgentPresenceEvents
  | .endPresence _ _ => w.audit.presenceEvents.length < maxAgentPresenceEvents
  | .dropTables | .collect _ =>
    Untold presenceKeyOf w.audit.presenceStates w.audit.presenceEvents
  | _ => True

instance LosesNothing.decidable (w : World) (e : Event) : Decidable (w.LosesNothing e) := by
  cases e <;> unfold LosesNothing <;> infer_instance

variable {w : World}

theorem getElem?_holders {i : Nat} {s : Session} (hi : w.sessions[i]? = some s) :
    w.holders[i]? = some (holder s) := by
  rw [holders, List.getElem?_map, hi]
  rfl

theorem change (w : World) (e : Event) (hkeyed : Keyed presenceKeyOf w.audit.presenceStates) :
    Change presenceKeyOf (w.LosesNothing e) (¬w.EndsCurrent e) w.view (w.step e).view := by
  have hdropped : ∀ l : List ConnectionPresenceEvent, w.delivered ++ [] ++ l = w.delivered ++ l :=
    fun l => by rw [List.append_nil]
  cases e with
  | start loaded item clock =>
    simp only [step]
    rcases startSession_cases loaded item clock w.audit with
      ⟨a, hstart, htables, -, hgeneration⟩ | ⟨a₀, b, hstart, htables, hgeneration, -⟩
    · rw [hstart]
      exact .quiet (Tables.quiet_same hkeyed (shows_view w.delivered _ rfl)
        (shows_view _ _ htables)) rfl hgeneration
    · rw [hstart]
      generalize named item = item
      have htold := a₀.told_startPresence item clock.now
      have hbase : presenceKeyOf (ConnectionAuditAccumulator.presenceEvent item .active)
        = agentConnectionPresenceKey item := rfl
      refine .join (agentConnectionPresenceKey item) ?_ ?_
        (htold.sameBuckets.2.trans hgeneration)
      · exact Tables.moves_join (htables ▸ hkeyed)
          (shows_view w.delivered _ htables.symm) stable_presenceKeyOf
          (shows_view w.delivered _ htold.tables_eq) hbase rfl (htables ▸ id)
      · simp [view, ConnectionAuditAccumulator.view, holders, holder]
  | traffic i loaded upload bytes check now later =>
    simp only [step]
    cases hi : w.sessions[i]? with
    | none => exact .unchanged hkeyed
    | some s =>
      dsimp only
      rcases addTraffic_cases loaded s.session upload bytes check now later
        w.audit with h | ⟨buckets, -, h⟩
      · rw [h]
        exact .unchanged hkeyed
      · rw [h]
        have htold := told_trafficPresence
          { w.audit with buckets := buckets } s.session.presenceKey now later
        refine .quiet ?_ rfl htold.sameBuckets.2
        exact Tables.quiet_touch hkeyed
          (shows_view w.delivered _ rfl) stable_presenceKeyOf
          (shows_view w.delivered _ htold.tables_eq)
  | endBucket i now =>
    simp only [step]
    cases hi : w.sessions[i]? with
    | none => exact .unchanged hkeyed
    | some s =>
      dsimp only
      split
      swap
      · exact .unchanged hkeyed
      rename_i hphase
      obtain ⟨htables, hgeneration⟩ := w.audit.endBucket_frame s.session.key s.session.started now
      -- the session is still open: its presence has not ended
      have hsame : holder { s with phase := .bucketEnded } = holder s := by
        simp [holder, hphase]
      have hholders : (w.sessions.set i { s with phase := .bucketEnded }).map holder = w.holders := by
        obtain ⟨hlt, hget⟩ := List.getElem?_eq_some_iff.mp (getElem?_holders hi)
        rw [List.map_set, hsame, ← hget]
        exact List.set_getElem_self hlt
      exact .quiet (Tables.quiet_same hkeyed (shows_view w.delivered _ rfl) (shows_view _ _ htables))
        hholders hgeneration
  | endPresence i later =>
    simp only [step]
    cases hi : w.sessions[i]? with
    | none => exact .unchanged hkeyed
    | some s =>
      dsimp only
      split
      swap
      · exact .unchanged hkeyed
      rename_i hphase
      have hopen : (holder s).isOpen = true := by simp [holder, hphase]
      have hholders : (w.sessions.set i { s with phase := .finished }).map holder
          = w.holders.set i { holder s with isOpen := false } := by
        rw [List.map_set]
        rfl
      have htold := w.audit.told_endPresence s.session.presenceKey later
      refine Tables.change_ends hkeyed (shows_view w.delivered _ rfl) stable_presenceKeyOf
        (getElem?_holders hi) hopen (shows_view w.delivered _ htold.tables_eq) id ?_ hholders
          htold.sameBuckets.2
      intro k hk hne hsome hcurrent
      cases hk
      simp only [EndsCurrent, hi] at hcurrent
      exact hsome (hcurrent s rfl hphase hne)
  | reject loaded item check now =>
    simp only [step]
    rcases w.audit.recordCredentialRejected_cases loaded item check now with h | ⟨s, htold⟩
    · rw [h]
      exact .unchanged hkeyed
    · exact .quiet (Tables.quiet_say hkeyed (shows_view w.delivered _ rfl)
        (shows_view w.delivered _ htold.tables_eq) rfl) rfl htold.sameBuckets.2
  | drain loaded now =>
    refine .quiet (Quiet.of_eq hkeyed ?_ ?_) rfl ?_
    all_goals
      dsimp only [step, view, ConnectionAuditAccumulator.view]
      unfold ConnectionAuditAccumulator.drain
      split <;> rfl
  | drainPresence loaded now =>
    exact .quiet (ConnectionAuditAccumulator.quiet_drainPresenceEvents hkeyed loaded now) rfl
      (w.audit.sameBuckets_drainPresenceEvents loaded now).2
  | swapEnabled enabled => exact .unchanged hkeyed
  | openWindow now => exact .unchanged hkeyed
  | dropTables => exact .reset _ rfl (hdropped _).symm id rfl rfl
  | collect p => exact .reset _ rfl (hdropped _).symm id rfl rfl

/-! ## The buckets are those of the generation -/

/-- The keys of the buckets carry the generation, and a session that of its start. -/
structure Fresh (w : World) : Prop where
  bucket : ∀ k b, w.audit.buckets.lookup k = some b → OfGeneration w.audit.generation k
  session : ∀ s ∈ w.sessions, OfGeneration s.generation s.session.key

theorem Fresh.set (h : Fresh w) {i : Nat} {s : Session} (hi : w.sessions[i]? = some s) (phase : Phase) :
    ∀ s' ∈ w.sessions.set i { s with phase := phase }, OfGeneration s'.generation s'.session.key := by
  intro s' hs'
  rcases List.mem_or_eq_of_mem_set hs' with hs' | rfl
  · exact h.session s' hs'
  · exact h.session s (List.mem_of_getElem? hi)

theorem Fresh.step (h : Fresh w) (e : Event) : Fresh (w.step e) := by
  -- what leaves the buckets and the generation
  have hsame : ∀ a : ConnectionAuditAccumulator, SameBuckets w.audit a →
      ∀ k b, a.buckets.lookup k = some b → OfGeneration a.generation k := by
    intro a ha
    rw [ha.1, ha.2]
    exact h.bucket
  cases e with
  | start loaded item clock =>
    simp only [World.step]
    rcases startSession_cases loaded item clock w.audit with
      ⟨a, hstart, -, hframe⟩ | ⟨a₀, b, hstart, -, hgeneration, hbuckets⟩
    · rw [hstart]
      exact ⟨hsame a hframe, h.session⟩
    · have hof : OfGeneration w.audit.generation
          (w.audit.bucketKey (named item)) := ⟨_, rfl⟩
      obtain ⟨hbuckets', hgeneration'⟩ :=
        (a₀.told_startPresence (named item) clock.now).sameBuckets
      rw [hstart]
      refine ⟨?_, List.forall_mem_append.mpr ⟨h.session, List.forall_mem_singleton.mpr hof⟩⟩
      dsimp only
      rw [hbuckets', hgeneration', hbuckets, hgeneration]
      exact hof.insert h.bucket b
  | traffic i loaded upload bytes check now later =>
    simp only [World.step]
    cases hi : w.sessions[i]? with
    | none => exact h
    | some s =>
      refine ⟨?_, h.session⟩
      dsimp only
      rcases addTraffic_cases loaded s.session upload bytes check now later
        w.audit with ht | ⟨buckets, hkeys, ht⟩
      · rw [ht]
        exact h.bucket
      · obtain ⟨hbuckets, hgeneration⟩ := (told_trafficPresence
          { w.audit with buckets := buckets } s.session.presenceKey now later).sameBuckets
        rw [ht, hbuckets, hgeneration]
        intro k b hb
        obtain ⟨b', hb'⟩ := hkeys k b hb
        exact h.bucket k b' hb'
  | endBucket i now =>
    simp only [World.step]
    cases hi : w.sessions[i]? with
    | none => exact h
    | some s =>
      dsimp only
      split
      · refine ⟨?_, h.set hi .bucketEnded⟩
        dsimp only
        unfold ConnectionAuditAccumulator.endBucket
        split
        · exact h.bucket
        · rename_i b hb
          exact (h.bucket _ b hb).insert h.bucket _
      · exact h
  | endPresence i later =>
    simp only [World.step]
    cases hi : w.sessions[i]? with
    | none => exact h
    | some s =>
      dsimp only
      split
      · exact ⟨hsame _ (w.audit.told_endPresence _ later).sameBuckets, h.set hi .finished⟩
      · exact h
  | reject loaded item check now =>
    refine ⟨hsame _ ?_, h.session⟩
    simp only [World.step]
    rcases w.audit.recordCredentialRejected_cases loaded item check now with hr | ⟨s, htold⟩
    · rw [hr]
      exact ⟨rfl, rfl⟩
    · exact htold.sameBuckets
  | drain loaded now =>
    refine ⟨?_, h.session⟩
    dsimp only [World.step]
    unfold ConnectionAuditAccumulator.drain
    split
    · exact h.bucket
    · intro k b hb
      obtain ⟨_, b₀, hb₀, _⟩ := GoMap.lookup_of_range hb
      exact h.bucket k b₀ hb₀
  | drainPresence loaded now =>
    exact ⟨hsame _ (w.audit.sameBuckets_drainPresenceEvents loaded now), h.session⟩
  | swapEnabled enabled => exact ⟨h.bucket, h.session⟩
  | openWindow now => exact ⟨h.bucket, h.session⟩
  | dropTables => exact ⟨(fun _ _ hb => nomatch hb), h.session⟩
  | collect p => exact ⟨(fun _ _ hb => nomatch hb), h.session⟩

theorem Fresh.endBucket_eq_self (h : Fresh w) {s : Session} (hs : s ∈ w.sessions)
    (hstale : s.generation ≠ w.audit.generation) (now : Int) :
    w.audit.endBucket s.session.key s.session.started now = w.audit := by
  unfold ConnectionAuditAccumulator.endBucket
  cases hb : w.audit.buckets.lookup s.session.key with
  | some b => exact absurd ((h.session s hs).unique (h.bucket _ b hb)) hstale
  | none => rfl

/-! ## Every run -/

variable {enabled : Bool} {windowStart : Option Int} {es : List Event}

theorem sound_run (enabled : Bool) (windowStart : Option Int) (es : List Event) :
    Sound presenceKeyOf (Run.exec step (initial enabled windowStart) es).view ∧
      Fresh (Run.exec step (initial enabled windowStart) es) := by
  refine Run.invariant_all (I := fun w : World => Sound presenceKeyOf w.view ∧ Fresh w) ?_ ⟨?_, ?_⟩
  · exact fun w e h => ⟨(w.change e h.1.keyed).sound h.1, h.2.step e⟩
  · exact ⟨keyed_empty presenceKeyOf, nofun⟩
  · exact ⟨(fun _ _ hb => nomatch hb), nofun⟩

theorem counted_run (h : Run.Along step EndsCurrent (initial enabled windowStart) es) :
    Counted (Run.exec step (initial enabled windowStart) es).view :=
  Counted.run change (sound_run enabled windowStart []).1 (fun _ => rfl) h

theorem delivered_run : (Run.exec step (initial enabled windowStart) es).delivered
    = Run.outputs step handed (initial enabled windowStart) es := by
  refine Run.log_exec World.delivered fun w e => ?_
  cases e <;> simp only [step, handed, List.append_nil] <;> split <;>
    first | rfl | (split <;> rfl)

theorem followed_run (h : Run.Along step LosesNothing (initial enabled windowStart) es) :
    Followed presenceKeyOf (Run.exec step (initial enabled windowStart) es).view :=
  Followed.run change (sound_run enabled windowStart []).1 Tally.follows_nil h

/-- The open sessions of the generation under the key. -/
def openSessions (w : World) (k : String) : Nat :=
  w.sessions.countP fun s =>
    s.phase ≠ .finished && s.generation = w.audit.generation && s.session.presenceKey = k

theorem held_holders (w : World) (k : String) :
    held w.holders w.audit.generation k = w.openSessions k := by
  rw [held, holders, List.countP_map]
  refine List.countP_congr fun s _ => ?_
  simp [holder]

end World
end Ssh

/-! ## Kernel and agent -/

/-- The ups and downs of a key in events. -/
def edges (keyOf : ConnectionPresenceEvent → String) (events : List ConnectionPresenceEvent)
    (k : String) : List Tally.Edge :=
  Tally.edgesOf (events.filterMap (presenceEdge keyOf)) k

/-- **Presence, in the kernel and in the agent.** In a run where no connection of an earlier
generation ends on a state of this one, the count of a key is the number of its open connections,
and the end of a connection of an earlier generation changes nothing. Where no event is lost as
well, the events of a key, all that were handed over and those that wait, alternate, and the last is
up exactly when a connection is open. -/
theorem presence_counts_open_connections (enabled : Bool) (windowStart : Option Int) :
    (∀ (es : List Kernel.Event) (w : Kernel.World),
      w = Run.exec Kernel.World.step (Kernel.World.initial enabled windowStart) es →
      Run.Along Kernel.World.step Kernel.World.EndsCurrent (Kernel.World.initial enabled windowStart) es →
      (∀ k, presenceCount w.audit.presenceStates k = w.openConnections k) ∧
      (∀ i c now later, w.connections[i]? = some c → c.isOpen = true →
        c.generation ≠ w.audit.generation → w.EndsCurrent (.finish i now later) →
        w.audit.recordConnectionEnd c.handle now later = w.audit) ∧
      (Run.Along Kernel.World.step Kernel.World.LosesNothing (Kernel.World.initial enabled windowStart) es →
        ∀ k, Tally.Alternates (decide (0 < w.openConnections k))
          (edges ConnectionAudit.presenceKeyOf
            (Run.outputs Kernel.World.step Kernel.World.handed
              (Kernel.World.initial enabled windowStart) es ++ w.audit.presenceEvents) k))) ∧
    (∀ (es : List Ssh.Event) (w : Ssh.World),
      w = Run.exec Ssh.World.step (Ssh.World.initial enabled windowStart) es →
      Run.Along Ssh.World.step Ssh.World.EndsCurrent (Ssh.World.initial enabled windowStart) es →
      (∀ k, presenceCount w.audit.presenceStates k = w.openSessions k) ∧
      (∀ i s now later, w.sessions[i]? = some s → s.generation ≠ w.audit.generation →
        w.audit.endBucket s.session.key s.session.started now = w.audit ∧
        (s.phase = .bucketEnded → w.EndsCurrent (.endPresence i later) →
          w.audit.endPresence s.session.presenceKey later = w.audit)) ∧
      (Run.Along Ssh.World.step Ssh.World.LosesNothing (Ssh.World.initial enabled windowStart) es →
        ∀ k, Tally.Alternates (decide (0 < w.openSessions k))
          (edges ConnectionAuditAccumulator.presenceKeyOf
            (Run.outputs Ssh.World.step Ssh.World.handed (Ssh.World.initial enabled windowStart) es ++
              w.audit.presenceEvents) k))) := by
  constructor
  · rintro es w rfl hcurrent
    have hcounted := Kernel.World.counted_run hcurrent
    have hcount : ∀ k, presenceCount _ k = _ := fun k =>
      (hcounted k).trans (Kernel.World.held_holders _ k)
    refine ⟨hcount, fun i c now later hi hopen hstale hend => ?_, fun hroom k => ?_⟩
    · refine (Kernel.World.sound_run enabled windowStart es).2.recordConnectionEnd_eq_self
        (List.mem_of_getElem? hi) hstale (fun hadmitted => ?_) now later
      simp only [Kernel.World.EndsCurrent, hi] at hend
      exact hend c rfl hopen hadmitted hstale
    · rw [← hcount k]
      rw [← Kernel.World.delivered_run]
      exact Kernel.World.followed_run hroom k
  · rintro es w rfl hcurrent
    have hcounted := Ssh.World.counted_run hcurrent
    have hcount : ∀ k, presenceCount _ k = _ := fun k =>
      (hcounted k).trans (Ssh.World.held_holders _ k)
    refine ⟨hcount, fun i s now later hi hstale => ⟨?_, fun hphase hend => ?_⟩, fun hroom k => ?_⟩
    · exact (Ssh.World.sound_run enabled windowStart es).2.endBucket_eq_self
        (List.mem_of_getElem? hi) hstale now
    · simp only [Ssh.World.EndsCurrent, hi] at hend
      exact ConnectionAuditAccumulator.endPresence_eq_self (hend s rfl hphase hstale) later
    · rw [← hcount k]
      rw [← Ssh.World.delivered_run]
      exact Ssh.World.followed_run hroom k

def sshItem : ConnectionAuditBucket :=
  { userID := 7, inboundID := 11, pathID := 0, deviceIDHash := "", credentialEpoch := 0
    sourceIP := "198.51.100.10", sourceGeoCode := "", network := "tcp" }

def standard : CollectionPolicy := { mode := .standard }

def reenabled : List Kernel.Event :=
  [.collect standard, .start World.attempt ⟨1, 1, 1⟩, .start World.attempt ⟨1, 1, 1⟩,
    .swapEnabled false, .dropTables, .swapEnabled true, .openWindow 2]

def sshReenabled : List Ssh.Event :=
  [.collect standard, .start ⟨true, some standard⟩ sshItem ⟨1, 1, 1⟩,
    .start ⟨true, some standard⟩ sshItem ⟨1, 1, 1⟩,
    .swapEnabled false, .dropTables, .swapEnabled true, .openWindow 2]

def endedInTime : Kernel.World :=
  Run.exec Kernel.World.step (Kernel.World.initial true (some 0))
    (reenabled ++
      [.finish 0 3 3, .start { World.attempt with source := some "198.51.100.11" } ⟨4, 4, 4⟩])

def sshEndedInTime : Ssh.World :=
  Run.exec Ssh.World.step (Ssh.World.initial true (some 0))
    (sshReenabled ++ [.endBucket 0 3, .endPresence 0 3,
      .start ⟨true, some standard⟩ { sshItem with sourceIP := "198.51.100.11" } ⟨4, 4, 4⟩])

def otherKey : String := connectionPresenceKey 7 "" 0 "198.51.100.11" "tcp"

def sshOtherKey : String :=
  ConnectionAuditAccumulator.agentConnectionPresenceKey { sshItem with sourceIP := "198.51.100.11" }

/-- The new connection is counted and announced, and the end of the other old one will change
nothing. -/
theorem presence_after_reenabling :
    (presenceCount endedInTime.audit.presenceStates otherKey = 1 ∧
      (∀ c ∈ endedInTime.connections[1]?,
        endedInTime.audit.recordConnectionEnd c.handle 5 5 = endedInTime.audit) ∧
      Tally.Alternates true (edges ConnectionAudit.presenceKeyOf
        (endedInTime.delivered ++ endedInTime.audit.presenceEvents) otherKey)) ∧
    (presenceCount sshEndedInTime.audit.presenceStates sshOtherKey = 1 ∧
      (∀ s ∈ sshEndedInTime.sessions[1]?,
        sshEndedInTime.audit.endBucket s.session.key s.session.started 5 = sshEndedInTime.audit) ∧
      Tally.Alternates true (edges ConnectionAuditAccumulator.presenceKeyOf
        (sshEndedInTime.delivered ++ sshEndedInTime.audit.presenceEvents) sshOtherKey)) := by
  obtain ⟨hkernel, hagent⟩ := presence_counts_open_connections true (some 0)
  constructor
  · have hopen : endedInTime.openConnections otherKey = 1 := by decide +kernel
    have hold : ∀ c ∈ endedInTime.connections[1]?,
        c.isOpen = true ∧ c.generation ≠ endedInTime.audit.generation := by decide +kernel
    obtain ⟨hcount, hend, hevents⟩ :=
      hkernel _ endedInTime rfl (by decide +kernel)
    refine ⟨(hcount otherKey).trans hopen, fun c hc => ?_, ?_⟩
    · exact hend 1 c 5 5 hc (hold c hc).1 (hold c hc).2 (by decide +kernel)
    · have halternates := hevents (by decide +kernel) otherKey
      rwa [hopen] at halternates
  · have hopen : sshEndedInTime.openSessions sshOtherKey = 1 := by decide +kernel
    have hold : ∀ s ∈ sshEndedInTime.sessions[1]?,
        s.generation ≠ sshEndedInTime.audit.generation := by decide +kernel
    obtain ⟨hcount, hend, hevents⟩ :=
      hagent _ sshEndedInTime rfl (by decide +kernel)
    refine ⟨(hcount sshOtherKey).trans hopen, fun s hs => ?_, ?_⟩
    · exact (hend 1 s 5 5 hs (hold s hs)).1
    · have halternates := hevents (by decide +kernel) sshOtherKey
      rwa [hopen] at halternates

def announcedTwice : List Kernel.Event :=
  [.collect standard, .start World.attempt ⟨1, 1, 1⟩, .drainPresence true 1, .swapEnabled false,
    .dropTables, .swapEnabled true, .openWindow 2, .start World.attempt ⟨3, 3, 3⟩,
    .drainPresence true 3]

def sshAnnouncedTwice : List Ssh.Event :=
  [.collect standard, .start ⟨true, some standard⟩ sshItem ⟨1, 1, 1⟩,
    .drainPresence ⟨true, some standard⟩ 1, .swapEnabled false, .dropTables, .swapEnabled true,
    .openWindow 2, .start ⟨true, some standard⟩ sshItem ⟨3, 3, 3⟩,
    .drainPresence ⟨true, some standard⟩ 3]

/-- An old connection ends after one has started under the same key: the new one is open and not
counted, and the close of the last one has been announced. And a key that was announced before the
tables were dropped is announced once more. -/
theorem old_end_takes_the_new_count :
    (let w := Run.exec Kernel.World.step (Kernel.World.initial true (some 0))
        (reenabled ++ [.start World.attempt ⟨3, 3, 3⟩, .finish 0 4 4])
      let k := connectionPresenceKey 7 "" 0 "198.51.100.10" "tcp"
      w.openConnections k = 1 ∧ presenceCount w.audit.presenceStates k = 0 ∧
        edges ConnectionAudit.presenceKeyOf w.audit.presenceEvents k = [.up, .down] ∧
        edges ConnectionAudit.presenceKeyOf
          (Run.outputs Kernel.World.step Kernel.World.handed
            (Kernel.World.initial true (some 0)) announcedTwice) k = [.up, .up]) ∧
    (let w := Run.exec Ssh.World.step (Ssh.World.initial true (some 0))
        (sshReenabled ++ [.start ⟨true, some standard⟩ sshItem ⟨3, 3, 3⟩, .endBucket 0 4,
          .endPresence 0 4])
      let k := ConnectionAuditAccumulator.agentConnectionPresenceKey sshItem
      w.openSessions k = 1 ∧ presenceCount w.audit.presenceStates k = 0 ∧
        edges ConnectionAuditAccumulator.presenceKeyOf w.audit.presenceEvents k = [.up, .down] ∧
        edges ConnectionAuditAccumulator.presenceKeyOf
          (Run.outputs Ssh.World.step Ssh.World.handed (Ssh.World.initial true (some 0))
            sshAnnouncedTwice) k = [.up, .up]) := by
  decide +kernel

/-! ## The buckets of connections of an earlier generation -/

/-- **A connection of an earlier generation is in no bucket**, in every run: its bytes change
nothing, and its end leaves the buckets of this generation as they are. -/
theorem old_connections_are_not_counted {enabled : Bool} {windowStart : Option Int}
    {es : List Kernel.Event} {i : Nat} {c : Kernel.Connection} {w : Kernel.World}
    (hw : w = Run.exec Kernel.World.step (.initial enabled windowStart) es)
    (hi : w.connections[i]? = some c) (hstale : c.generation ≠ w.audit.generation)
    (upload download now later : Int) :
    w.step (.payload i upload download now later) = w ∧
      (w.step (.finish i now later)).audit.buckets = w.audit.buckets := by
  have hfresh : w.Fresh := hw ▸ (Kernel.World.sound_run enabled windowStart es).2
  have hnone : w.audit.buckets.lookup c.handle.key = none := by
    by_contra hsome
    obtain ⟨b, hb⟩ := Option.ne_none_iff_exists'.mp hsome
    exact hstale ((hfresh.handle c (List.mem_of_getElem? hi)).unique (hfresh.bucket _ b hb))
  constructor
  · rcases w.audit.payload_presence c.handle upload download now later with hp | ⟨b, -, hb, -⟩
    · simp only [Kernel.World.step, hi, hp]
    · rw [hnone] at hb
      cases hb
  · simp only [Kernel.World.step, hi]
    split
    · rw [ConnectionAudit.buckets_recordConnectionEnd, hnone]
    · rfl

theorem old_connections_are_not_counted_after_reenabling :
    let w := Run.exec Kernel.World.step (.initial true (some 0)) reenabled
    w.step (.payload 0 5 5 3 3) = w := by
  intro w
  have hold : w.connections[0]?.any (·.generation ≠ w.audit.generation) := by decide +kernel
  cases hc : w.connections[0]? with
  | none => simp [hc] at hold
  | some c => exact (old_connections_are_not_counted rfl hc (by simpa [hc] using hold) 5 5 3 3).1

end OboardAgent.Audit
