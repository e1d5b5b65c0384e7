import OboardAgent.Audit.Buckets
import OboardAgent.Lib.Run
import OboardAgent.Lib.Tally

/-!
# Presence

A presence state counts the open connections under its key; it is announced when the count leaves
zero and when it comes back. The kernel and the recorder of the agent keep the same two tables, of
states and of waiting events, and differ in the keys, in the length of the queue and in that the
kernel numbers its events. So the calls are written once, over `Tables`, what a call can do to the
tables is said once, in `Change`, and what follows for the counts and the events is proved from
that.

The tables are dropped, and a new generation begins, when auditing is disabled and when another
collection policy is stored. The key of a bucket carries the generation; the key of a presence state
does not. So the end of a connection of an earlier generation takes the state that a connection of
this one has made under the same key: `Change.leave` is the case that tells a stale end apart.
-/

namespace OboardAgent.Audit

open Tally (Holder Edge held)

/-! ## The tables -/

variable (states : GoMap String ConnectionPresenceState)

/-- The connections that the presence map counts under the key. -/
def presenceCount (k : String) : Nat :=
  (states.lookup k).elim 0 (·.event.activeConnections)

theorem presenceCount_insert (k : String)
    (s : ConnectionPresenceState) : presenceCount (states.insert k s)
      = Function.update (presenceCount states) k s.event.activeConnections := by
  funext k'
  unfold presenceCount
  rw [GoMap.lookup_insert_eq, Function.update_apply]
  split <;> rfl

theorem presenceCount_erase (k : String) :
    presenceCount (states.erase k) = Function.update (presenceCount states) k 0 := by
  funext k'
  unfold presenceCount
  rw [GoMap.lookup_erase_eq, Function.update_apply]
  split <;> rfl

/-- An event appended to the queue, unless `capacity` of them wait. -/
def enqueued (capacity : Nat) (events : List ConnectionPresenceEvent) (item : ConnectionPresenceEvent) :
    List ConnectionPresenceEvent :=
  if capacity ≤ events.length then events else events ++ [item]

section Tables

-- the key of the state that an event is about
variable (keyOf : ConnectionPresenceEvent → String)

/-- The key that an event opens or closes; other events do neither. -/
def presenceEdge (e : ConnectionPresenceEvent) : Option (String × Edge) :=
  match e.event with
  | some .firstAuthenticated => some (keyOf e, .up)
  | some .lastConnectionClosed => some (keyOf e, .down)
  | _ => none

/-- A state is under the key of its event, and counts at least one connection. -/
def Keyed (states : GoMap String ConnectionPresenceState) : Prop :=
  ∀ k s, states.lookup k = some s → keyOf s.event = k ∧ 0 < s.event.activeConnections

theorem keyed_empty : Keyed keyOf ∅ := fun _ _ h => nomatch h

variable {keyOf} {states : GoMap String ConnectionPresenceState}

theorem Keyed.insert (h : Keyed keyOf states) {k : String} {s : ConnectionPresenceState}
    (hkey : keyOf s.event = k) (hpos : 0 < s.event.activeConnections) :
    Keyed keyOf (states.insert k s) := by
  intro k' s' hs'
  rcases GoMap.lookup_of_insert hs' with ⟨rfl, rfl⟩ | hs'
  · exact ⟨hkey, hpos⟩
  · exact h k' s' hs'

theorem Keyed.erase (h : Keyed keyOf states) (k : String) : Keyed keyOf (states.erase k) :=
  fun k' s' hs' => h k' s' (GoMap.lookup_of_erase hs')

theorem Keyed.lookup_eq_none_iff (h : Keyed keyOf states) {k : String} :
    states.lookup k = none ↔ presenceCount states k = 0 := by
  unfold presenceCount
  cases hs : states.lookup k with
  | none => simp
  | some s =>
    have hpos := (h k s hs).2
    simp only [Option.elim_some, reduceCtorEq, false_iff]
    omega

variable (keyOf)

/-- The tables, with all that was ever said and the connections behind the counts. -/
structure View where
  states : GoMap String ConnectionPresenceState
  log : List ConnectionPresenceEvent
  holders : List (Holder String)
  generation : Nat

/-- The counts become `n`, and the events said before the end are joined by `edges`, if there is
room for them. -/
structure Moves (room : Prop) (v v' : View) (n : String → Nat) (edges : List (String × Edge)) : Prop where
  keyed : Keyed keyOf v'.states
  count : presenceCount v'.states = n
  log : room → ∃ new, v'.log = v.log ++ new ∧ new.filterMap (presenceEdge keyOf) = edges

/-- What is open was announced by an event that still waits, and so was what closes with one:
nothing that was handed over is left open if the states and what waits are dropped. -/
def Untold (states : GoMap String ConnectionPresenceState)
    (waiting : List ConnectionPresenceEvent) : Prop :=
  ∀ k ∈ states.keys ++ (waiting.filterMap (presenceEdge keyOf)).map Prod.fst,
    (Tally.edgesOf (waiting.filterMap (presenceEdge keyOf)) k).head? = some .up

instance (states : GoMap String ConnectionPresenceState) (waiting : List ConnectionPresenceEvent) :
    Decidable (Untold keyOf states waiting) :=
  inferInstanceAs (Decidable (∀ _ ∈ _, _ = _))

/-- The counts stay, and no key is opened or closed. -/
def Quiet (v v' : View) : Prop := Moves keyOf True v v' (presenceCount v.states) []

/-- What a step can do to the tables and the connections. `stale` is what must be the case if an end
of an earlier generation finds a state. -/
inductive Change (room stale : Prop) (v v' : View) : Prop
  | quiet (moves : Quiet keyOf v v') (holders : v'.holders = v.holders)
      (generation : v'.generation = v.generation)
  | reject (moves : Quiet keyOf v v') (holders : v'.holders = v.holders ++ [⟨none, v.generation, true⟩])
      (generation : v'.generation = v.generation)
  | join (k : String)
      (moves : Moves keyOf room v v'
        (Function.update (presenceCount v.states) k (presenceCount v.states k + 1))
        (if presenceCount v.states k = 0 then [(k, .up)] else []))
      (holders : v'.holders = v.holders ++ [⟨some k, v.generation, true⟩])
      (generation : v'.generation = v.generation)
  | forget (i : Nat) (h : Holder String) (hi : v.holders[i]? = some h) (hopen : h.isOpen = true)
      (hnone : ∀ k, h.key = some k → presenceCount v.states k = 0) (moves : Quiet keyOf v v')
      (holders : v'.holders = v.holders.set i { h with isOpen := false })
      (generation : v'.generation = v.generation)
  | leave (i : Nat) (h : Holder String) (k : String) (hi : v.holders[i]? = some h)
      (hopen : h.isOpen = true) (hk : h.key = some k) (hpos : 0 < presenceCount v.states k)
      (hstale : h.generation ≠ v.generation → stale)
      (moves : Moves keyOf room v v'
        (Function.update (presenceCount v.states) k (presenceCount v.states k - 1))
        (if presenceCount v.states k = 1 then [(k, .down)] else []))
      (holders : v'.holders = v.holders.set i { h with isOpen := false })
      (generation : v'.generation = v.generation)
  | reset (waiting : List ConnectionPresenceEvent) (states : v'.states = ∅)
      (log : v.log = v'.log ++ waiting) (untold : room → Untold keyOf v.states waiting)
      (holders : v'.holders = v.holders) (generation : v'.generation = v.generation + 1)

/-! ## What follows for the counts and the events -/

/-- What every step keeps. -/
structure Sound (v : View) : Prop where
  keyed : Keyed keyOf v.states
  generation : ∀ h ∈ v.holders, h.generation ≤ v.generation

/-- The stored counts are those of the open connections of this generation. -/
def Counted (v : View) : Prop :=
  ∀ k, presenceCount v.states k = held v.holders v.generation k

/-- What was said opens and closes each key in turn, and ends where the counts are. -/
def Followed (v : View) : Prop :=
  Tally.Follows (presenceCount v.states) (v.log.filterMap (presenceEdge keyOf))

variable {keyOf} {room stale : Prop} {v v' : View}

theorem Change.sound (c : Change keyOf room stale v v') (h : Sound keyOf v) : Sound keyOf v' := by
  have hclosed : ∀ (i : Nat) (x : Holder String), v.holders[i]? = some x →
      v'.holders = v.holders.set i { x with isOpen := false } →
      ∀ y ∈ v'.holders, y.generation ≤ v.generation := by
    intro i x hi hset y hy
    rw [hset] at hy
    rcases List.mem_or_eq_of_mem_set hy with hy | rfl
    · exact h.generation y hy
    · exact h.generation x (List.mem_of_getElem? hi)
  have hnew : ∀ key : Option String, v'.holders = v.holders ++ [⟨key, v.generation, true⟩] →
      ∀ y ∈ v'.holders, y.generation ≤ v.generation := by
    intro key happend y hy
    rw [happend, List.mem_append, List.mem_singleton] at hy
    rcases hy with hy | rfl
    · exact h.generation y hy
    · exact Nat.le_refl _
  cases c with
  | quiet moves holders generation =>
    exact ⟨moves.keyed, by rw [holders, generation]; exact h.generation⟩
  | reject moves holders generation =>
    exact ⟨moves.keyed, by rw [generation]; exact hnew none holders⟩
  | join k moves holders generation =>
    exact ⟨moves.keyed, by rw [generation]; exact hnew (some k) holders⟩
  | forget i x hi _ _ moves holders generation =>
    exact ⟨moves.keyed, by rw [generation]; exact hclosed i x hi holders⟩
  | leave i x k hi _ _ _ _ moves holders generation =>
    exact ⟨moves.keyed, by rw [generation]; exact hclosed i x hi holders⟩
  | reset _ states _ _ holders generation =>
    refine ⟨by rw [states]; exact keyed_empty keyOf, ?_⟩
    rw [holders, generation]
    exact fun y hy => Nat.le_succ_of_le (h.generation y hy)

/-- The counts stay right, unless a stale end finds a state. -/
theorem Change.counted (c : Change keyOf room stale v v') (hs : Sound keyOf v) (hstale : ¬stale)
    (h : Counted v) : Counted v' := by
  intro k'
  cases c with
  | quiet moves holders generation => rw [moves.count, holders, generation, h k']
  | reject moves holders generation =>
    rw [moves.count, holders, generation, Tally.held_append, h k']
    simp
  | join k moves holders generation =>
    rw [moves.count, holders, generation, Tally.held_append]
    by_cases hk : k' = k
    · subst hk
      simp [h k']
    · rw [Function.update_of_ne hk, h k']
      simp [Ne.symm hk]
  | forget i x hi hopen hnone moves holders generation =>
    rw [moves.count, holders, generation, Tally.held_close hi hopen, h k']
    -- a connection of the generation has its state, so this one is of an earlier one
    have hother : ¬(x.generation = v.generation ∧ x.key = some k') := by
      rintro ⟨hgen, hkey⟩
      have hpos := Tally.held_pos hi hopen hkey
      rw [hgen, ← h k', hnone k' hkey] at hpos
      exact Nat.lt_irrefl 0 hpos
    rw [if_neg hother, Nat.sub_zero]
  | leave i x k hi hopen hk hpos hcur moves holders generation =>
    have hgen : x.generation = v.generation := Classical.byContradiction fun hne => hstale (hcur hne)
    rw [moves.count, holders, generation, Tally.held_close hi hopen]
    by_cases hk' : k' = k
    · subst hk'
      rw [Function.update_self, h k', if_pos ⟨hgen, hk⟩]
    · have hother : ¬(x.generation = v.generation ∧ x.key = some k') := by
        rintro ⟨-, hkey⟩
        exact hk' (Option.some.inj (hkey.symm.trans hk))
      rw [Function.update_of_ne hk', h k', if_neg hother, Nat.sub_zero]
  | reset _ states _ _ holders generation =>
    rw [states, holders, generation]
    exact (Tally.held_eq_zero (fun y hy => Nat.lt_succ_of_le (hs.generation y hy)) k').symm

theorem Moves.followed {n : String → Nat} {edges : List (String × Edge)} (m : Moves keyOf room v v' n edges)
    (hroom : room) (h : Tally.Follows n (v.log.filterMap (presenceEdge keyOf) ++ edges)) :
    Followed keyOf v' := by
  obtain ⟨new, hlog, hnew⟩ := m.log hroom
  rwa [Followed, m.count, hlog, List.filterMap_append, hnew]

theorem Quiet.followed (m : Quiet keyOf v v') (h : Followed keyOf v) : Followed keyOf v' :=
  Moves.followed m trivial ((List.append_nil _).symm ▸ h)

/-- What is said follows the counts, as long as nothing is lost. -/
theorem Change.followed (c : Change keyOf room stale v v') (hroom : room) (h : Followed keyOf v) :
    Followed keyOf v' := by
  cases c with
  | quiet moves => exact moves.followed h
  | reject moves => exact moves.followed h
  | forget _ _ _ _ _ moves => exact moves.followed h
  | join k moves => exact moves.followed hroom (Tally.Follows.acquire h k)
  | leave _ _ k _ _ _ hpos _ moves => exact moves.followed hroom (Tally.Follows.release h hpos)
  | reset waiting states log untold =>
    unfold Followed at h ⊢
    rw [log, List.filterMap_append] at h
    rw [states]
    refine h.take_off fun k => ?_
    by_cases hk : k ∈ v.states.keys ++ (waiting.filterMap (presenceEdge keyOf)).map Prod.fst
    · exact Or.inl (untold hroom k hk)
    · rw [List.mem_append, not_or] at hk
      refine Or.inr ⟨List.filterMap_eq_nil_iff.mpr fun x hx => if_neg fun hxk => ?_, ?_⟩
      · exact hk.2 (List.mem_map.mpr ⟨x, hx, hxk⟩)
      · rw [presenceCount, AList.lookup_eq_none.mpr hk.1]
        rfl

/-! ## Updates of the tables -/

variable {capacity : Nat} {delivered events : List ConnectionPresenceEvent}

theorem enqueued_quiet {item : ConnectionPresenceEvent} (hitem : presenceEdge keyOf item = none) :
    ∃ new, delivered ++ enqueued capacity events item = (delivered ++ events) ++ new ∧
      new.filterMap (presenceEdge keyOf) = [] := by
  unfold enqueued
  split
  · exact ⟨[], by rw [List.append_nil], rfl⟩
  · exact ⟨[item], by rw [List.append_assoc], by simp [hitem]⟩

theorem enqueued_edge {item : ConnectionPresenceEvent} {x : String × Edge}
    (hitem : presenceEdge keyOf item = some x) (hroom : events.length < capacity) :
    ∃ new, delivered ++ enqueued capacity events item = (delivered ++ events) ++ new ∧
      new.filterMap (presenceEdge keyOf) = [x] := by
  rw [enqueued, if_neg (Nat.not_le.mpr hroom)]
  exact ⟨[item], by rw [List.append_assoc], by simp [hitem]⟩

theorem Quiet.of_eq (hkeyed : Keyed keyOf v.states) (hstates : v'.states = v.states)
    (hlog : v'.log = v.log) : Quiet keyOf v v' :=
  ⟨hstates ▸ hkeyed, by rw [hstates], fun _ => ⟨[], by rw [hlog, List.append_nil], rfl⟩⟩

theorem Change.unchanged (hkeyed : Keyed keyOf v.states) : Change keyOf room stale v v :=
  .quiet (Quiet.of_eq hkeyed rfl rfl) rfl rfl

theorem Quiet.trans {w : View} (h : Quiet keyOf v v') (h' : Quiet keyOf v' w) : Quiet keyOf v w := by
  obtain ⟨new, hlog, hnew⟩ := h.log trivial
  obtain ⟨new', hlog', hnew'⟩ := h'.log trivial
  refine ⟨h'.keyed, h'.count.trans h.count, fun _ => ⟨new ++ new', ?_, ?_⟩⟩
  · rw [hlog', hlog, List.append_assoc]
  · rw [List.filterMap_append, hnew, hnew']
    rfl

variable {k : String} {s : ConnectionPresenceState} {edges : List (String × Edge)}

theorem Moves.insert (hkeyed : Keyed keyOf v.states) (hstates : v'.states = v.states.insert k s)
    (hkey : keyOf s.event = k) (hpos : 0 < s.event.activeConnections)
    (hlog : room → ∃ new, v'.log = v.log ++ new ∧ new.filterMap (presenceEdge keyOf) = edges) :
    Moves keyOf room v v' (Function.update (presenceCount v.states) k s.event.activeConnections) edges :=
  ⟨hstates ▸ hkeyed.insert hkey hpos, by rw [hstates, presenceCount_insert], hlog⟩

theorem Moves.erase (hkeyed : Keyed keyOf v.states) (hstates : v'.states = v.states.erase k)
    (hlog : room → ∃ new, v'.log = v.log ++ new ∧ new.filterMap (presenceEdge keyOf) = edges) :
    Moves keyOf room v v' (Function.update (presenceCount v.states) k 0) edges :=
  ⟨hstates ▸ hkeyed.erase k, by rw [hstates, presenceCount_erase], hlog⟩

theorem Moves.quiet {n : Nat}
    (h : Moves keyOf True v v' (Function.update (presenceCount v.states) k n) [])
    (hcount : presenceCount v.states k = n) : Quiet keyOf v v' := by
  rwa [← hcount, Function.update_eq_self] at h

end Tables

/-! ## The calls on the tables -/

structure Tables where
  states : GoMap String ConnectionPresenceState
  events : List ConnectionPresenceEvent

def stamped (s : ConnectionPresenceState) (kind : PresenceKind) (time : Int) (number : Nat → Nat) :
    ConnectionPresenceState :=
  { event := { s.event with
      event := some kind, time := some time, sequence := number s.event.sequence }
    lastEmittedAt := some time }

def joined (s : ConnectionPresenceState) : ConnectionPresenceState :=
  { s with event := { s.event with activeConnections := s.event.activeConnections + 1 } }

namespace Tables

variable (capacity : Nat) (k : String) (number : Nat → Nat) (t : Tables)

def say (item : ConnectionPresenceEvent) : Tables :=
  { t with events := enqueued capacity t.events item }

def put (s : ConnectionPresenceState) : Tables := { t with states := t.states.insert k s }

def announce (s : ConnectionPresenceState) : Tables := (t.say capacity s.event).put k s

/-- A connection starts; the first one under the key is announced. -/
def join (base : ConnectionPresenceEvent) (time : Int) : Tables :=
  let s := joined ((t.states.lookup k).getD { event := base })
  if s.event.activeConnections = 1 then
    t.announce capacity k (stamped s .firstAuthenticated time number)
  else t.put k s

/-- Payload; the first of a state is announced. -/
def touch (now later : Int) : Tables :=
  match t.states.lookup k with
  | none => t
  | some s =>
    let s' := { s with event := { s.event with meaningful := true, payloadLastAt := some now } }
    if s.event.meaningful then t.put k s'
    else t.announce capacity k (stamped s' .firstMeaningfulPayload later number)

/-- A connection ends; the last one under the key is announced and its state removed. -/
def leave (later : Int) : Tables :=
  match t.states.lookup k with
  | none => t
  | some s =>
    let s := { s with event := { s.event with activeConnections := s.event.activeConnections - 1 } }
    if s.event.activeConnections = 0 then
      let s := { s with event := { s.event with state := .inactive } }
      { t.say capacity (stamped s .lastConnectionClosed later number).event with
        states := t.states.erase k }
    else t.put k s

end Tables

/-- The view is that of the tables, after what was handed over before. -/
structure Shows (delivered : List ConnectionPresenceEvent) (t : Tables) (v : View) : Prop where
  states : v.states = t.states
  log : v.log = delivered ++ t.events

/-- What the calls change of an event is no part of its key. -/
def Stable (keyOf : ConnectionPresenceEvent → String) : Prop :=
  ∀ (e : ConnectionPresenceEvent) event time sequence activeConnections state meaningful payloadLastAt,
    keyOf { e with
      event := event, time := time, sequence := sequence, activeConnections := activeConnections
      state := state, meaningful := meaningful, payloadLastAt := payloadLastAt } = keyOf e

namespace Tables

variable {keyOf : ConnectionPresenceEvent → String} {room : Prop} {v v' : View} {t t' : Tables}
  {delivered : List ConnectionPresenceEvent} {capacity : Nat} {k : String} {number : Nat → Nat}
  {s : ConnectionPresenceState}

theorem count_eq (hs : t.states.lookup k = some s) :
    presenceCount t.states k = s.event.activeConnections := by
  simp [presenceCount, hs]

section Shown

variable (hkeyed : Keyed keyOf t.states) (hv : Shows delivered t v)
include hkeyed hv

theorem quiet_same (hv' : Shows delivered t v') : Quiet keyOf v v' :=
  Quiet.of_eq (hv.states ▸ hkeyed) (hv'.states.trans hv.states.symm) (hv'.log.trans hv.log.symm)

theorem moves_put (hv' : Shows delivered (t.put k s) v') (hkey : keyOf s.event = k)
    (hpos : 0 < s.event.activeConnections) : Moves keyOf room v v'
      (Function.update (presenceCount v.states) k s.event.activeConnections) [] :=
  Moves.insert (hv.states ▸ hkeyed) (by rw [hv'.states, hv.states]; rfl) hkey hpos
    fun _ => ⟨[], by rw [hv'.log, hv.log, List.append_nil]; rfl, rfl⟩

theorem quiet_say {item : ConnectionPresenceEvent} (hv' : Shows delivered (t.say capacity item) v')
    (hitem : presenceEdge keyOf item = none) : Quiet keyOf v v' := by
  have hstates : v'.states = v.states := hv'.states.trans hv.states.symm
  refine ⟨by rw [hv'.states]; exact hkeyed, congrArg presenceCount hstates, fun _ => ?_⟩
  rw [hv'.log, hv.log]
  exact enqueued_quiet hitem

theorem moves_announce (hv' : Shows delivered (t.announce capacity k s) v')
    (hkey : keyOf s.event = k) (hpos : 0 < s.event.activeConnections) {edges : List (String × Edge)}
    (hlog : room → ∃ new, delivered ++ enqueued capacity t.events s.event
      = (delivered ++ t.events) ++ new ∧ new.filterMap (presenceEdge keyOf) = edges) :
    Moves keyOf room v v' (Function.update (presenceCount v.states) k s.event.activeConnections) edges := by
  refine Moves.insert (hv.states ▸ hkeyed) (by rw [hv'.states, hv.states]; rfl) hkey hpos ?_
  rw [hv'.log, hv.log]
  exact hlog

variable (hstable : Stable keyOf)
include hstable

theorem moves_join {base : ConnectionPresenceEvent} {time : Int}
    (hv' : Shows delivered (t.join capacity k number base time) v') (hbase : keyOf base = k)
    (hzero : base.activeConnections = 0) (hroom : room → t.events.length < capacity) :
    Moves keyOf room v v'
      (Function.update (presenceCount v.states) k (presenceCount v.states k + 1))
      (if presenceCount v.states k = 0 then [(k, .up)] else []) := by
  rw [hv.states]
  generalize hs : (t.states.lookup k).getD { event := base } = s
  have hkey : keyOf s.event = k := by
    subst hs
    cases hlookup : t.states.lookup k with
    | none => exact hbase
    | some s => exact (hkeyed k s hlookup).1
  have hcount : presenceCount t.states k = s.event.activeConnections := by
    subst hs
    unfold presenceCount
    cases t.states.lookup k with
    | none => exact hzero.symm
    | some s => rfl
  have hkey' : ∀ event time sequence, keyOf { (joined s).event with
      event := event, time := time, sequence := sequence } = k :=
    fun event time sequence => (hstable s.event event time sequence _ _ _ _).trans hkey
  rw [hcount, ← hv.states]
  unfold join at hv'
  rw [hs] at hv'
  by_cases hfirst : s.event.activeConnections = 0
  · rw [if_pos (show (joined s).event.activeConnections = 1 by simp [joined, hfirst])] at hv'
    rw [if_pos hfirst]
    refine moves_announce hkeyed hv hv' (hkey' _ _ _) (Nat.succ_pos _) fun h => ?_
    exact enqueued_edge (congrArg (fun k => some (k, Edge.up)) (hkey' _ _ _)) (hroom h)
  · rw [if_neg (show ¬(joined s).event.activeConnections = 1 by simp [joined, hfirst])] at hv'
    rw [if_neg hfirst]
    exact moves_put hkeyed hv hv' (hkey' _ _ _) (Nat.succ_pos _)

theorem quiet_touch {now later : Int}
    (hv' : Shows delivered (t.touch capacity k number now later) v') : Quiet keyOf v v' := by
  unfold touch at hv'
  cases hs : t.states.lookup k with
  | none =>
    rw [hs] at hv'
    exact quiet_same hkeyed hv hv'
  | some s =>
    rw [hs] at hv'
    dsimp only at hv'
    obtain ⟨hkey, hpos⟩ := hkeyed k s hs
    have hcount : presenceCount v.states k = _ := hv.states ▸ count_eq hs
    split at hv'
    · exact (moves_put hkeyed hv hv' ((hstable s.event ..).trans hkey) hpos).quiet hcount
    · exact (moves_announce hkeyed hv hv' ((hstable s.event ..).trans hkey) hpos
        fun _ => enqueued_quiet rfl).quiet hcount

theorem moves_leave {later : Int} (hv' : Shows delivered (t.leave capacity k number later) v')
    (hpos : 0 < presenceCount v.states k) (hroom : room → t.events.length < capacity) :
    Moves keyOf room v v'
      (Function.update (presenceCount v.states) k (presenceCount v.states k - 1))
      (if presenceCount v.states k = 1 then [(k, .down)] else []) := by
  unfold leave at hv'
  cases hs : t.states.lookup k with
  | none => simp [presenceCount, hv.states, hs] at hpos
  | some s =>
    rw [hs] at hv'
    dsimp only at hv'
    have hcount : presenceCount v.states k = s.event.activeConnections := by
      rw [hv.states, count_eq hs]
    obtain ⟨hkey, -⟩ := hkeyed k s hs
    rw [hcount] at hpos ⊢
    by_cases hone : s.event.activeConnections = 1
    · rw [if_pos (by rw [hone])] at hv'
      rw [if_pos hone, hone]
      refine Moves.erase (hv.states ▸ hkeyed) (by rw [hv'.states, hv.states]) fun h => ?_
      rw [hv'.log, hv.log]
      exact enqueued_edge
        (congrArg (fun k => some (k, Edge.down)) ((hstable s.event ..).trans hkey)) (hroom h)
    · have hmore : ¬s.event.activeConnections - 1 = 0 := by omega
      rw [if_neg hmore] at hv'
      rw [if_neg hone]
      exact moves_put hkeyed hv hv' ((hstable s.event ..).trans hkey) (Nat.pos_of_ne_zero hmore)

/-- An end finds a state and takes one off, or finds none and changes nothing. -/
theorem change_ends {stale : Prop} {i : Nat} {x : Holder String} (hi : v.holders[i]? = some x)
    (hopen : x.isOpen = true)
    {later : Int} (hv' : Shows delivered (x.key.elim t fun k => t.leave capacity k number later) v')
    (hroom : room → t.events.length < capacity)
    (hstale : ∀ k, x.key = some k → x.generation ≠ v.generation → t.states.lookup k ≠ none → stale)
    (holders : v'.holders = v.holders.set i { x with isOpen := false })
    (generation : v'.generation = v.generation) : Change keyOf room stale v v' := by
  cases hk : x.key with
  | none =>
    rw [hk] at hv'
    exact .forget i x hi hopen (by simp [hk]) (quiet_same hkeyed hv hv') holders generation
  | some k =>
    rw [hk] at hv'
    cases hs : t.states.lookup k with
    | none =>
      have hv' : Shows delivered (t.leave capacity k number later) v' := hv'
      rw [leave, hs] at hv'
      refine .forget i x hi hopen (fun k' hk' => ?_) (quiet_same hkeyed hv hv') holders generation
      cases hk.symm.trans hk'
      exact hv.states ▸ hkeyed.lookup_eq_none_iff.mp hs
    | some s =>
      have hpos : 0 < presenceCount v.states k := by
        rw [hv.states, count_eq hs]
        exact (hkeyed k s hs).2
      exact .leave i x k hi hopen hk hpos (fun hne => hstale k hk hne (by simp [hs]))
        (moves_leave hkeyed hv hstable hv' hpos hroom) holders generation

end Shown

/-- A drain may refresh every state; that opens and closes nothing. -/
theorem quiet_refresh {σ : Type} (tables : σ → Tables) (capacity : Nat) (now : Int)
    (hstable : Stable keyOf) {a : σ} (hkeyed : Keyed keyOf (tables a).states)
    {body : σ → (Σ _ : String, ConnectionPresenceState) → σ}
    (hbody : ∀ a e, tables (body a e) = tables a ∨ ∃ number, tables (body a e)
      = (tables a).announce capacity e.1 (stamped e.2 .activityRefresh now number))
    (hv : Shows delivered (tables a) v)
    (hv' : Shows (delivered ++ (tables ((tables a).states.entries.foldl body a)).events)
      { tables ((tables a).states.entries.foldl body a) with events := [] } v') : Quiet keyOf v v' := by
  let shown (a : σ) : View := ⟨(tables a).states, delivered ++ (tables a).events, [], 0⟩
  have hshown : ∀ a, Shows delivered (tables a) (shown a) := fun a => ⟨rfl, rfl⟩
  have hquiet : Quiet keyOf v (shown ((tables a).states.entries.foldl body a)) := by
    refine List.foldlRecOn (motive := fun a' => Quiet keyOf v (shown a')) _ _
      (Quiet.of_eq (hv.states ▸ hkeyed) hv.states.symm hv.log.symm) fun a' h e he => h.trans ?_
    have hlookup : (tables a).states.lookup e.1 = some e.2 := AList.mem_lookup_iff.mpr he
    obtain ⟨hkey, hpos⟩ := hkeyed e.1 e.2 hlookup
    have hcount : presenceCount (tables a').states e.1 = e.2.event.activeConnections := by
      rw [← count_eq hlookup, ← hv.states]
      exact congrFun h.count e.1
    rcases hbody a' e with hsame | ⟨number, hsaid⟩
    · exact quiet_same h.keyed (hshown a') (hsame ▸ hshown (body a' e))
    · have hshown' := hshown (body a' e)
      rw [hsaid] at hshown'
      exact (moves_announce h.keyed (hshown a') hshown' ((hstable e.2.event ..).trans hkey) hpos
        fun _ => enqueued_quiet rfl).quiet hcount
  exact hquiet.trans (Quiet.of_eq hquiet.keyed hv'.states (hv'.log.trans (List.append_nil _)))

end Tables

/-! ## Whole runs -/

section Runs

variable {keyOf : ConnectionPresenceEvent → String} {σ ε : Type} {step : σ → ε → σ} {view : σ → View}
  {room current : σ → ε → Prop} {w : σ} {es : List ε}

-- every step is one of the changes
variable (hchange : ∀ w e, Keyed keyOf (view w).states →
  Change keyOf (room w e) (¬current w e) (view w) (view (step w e)))

include hchange

theorem Counted.run (hsound : Sound keyOf (view w)) (hcounted : Counted (view w))
    (h : Run.Along step current w es) : Counted (view (Run.exec step w es)) := by
  refine (Run.invariant (I := fun w => Sound keyOf (view w) ∧ Counted (view w))
    (fun w e hw hcurrent => ?_) ⟨hsound, hcounted⟩ h).2
  have c := hchange w e hw.1.keyed
  exact ⟨c.sound hw.1, c.counted hw.1 (not_not_intro hcurrent) hw.2⟩

theorem Followed.run (hsound : Sound keyOf (view w)) (hfollowed : Followed keyOf (view w))
    (h : Run.Along step room w es) : Followed keyOf (view (Run.exec step w es)) := by
  refine (Run.invariant (I := fun w => Sound keyOf (view w) ∧ Followed keyOf (view w))
    (fun w e hw hroom => ?_) ⟨hsound, hfollowed⟩ h).2
  have c := hchange w e hw.1.keyed
  exact ⟨c.sound hw.1, c.followed hroom hw.2⟩

end Runs

end OboardAgent.Audit
