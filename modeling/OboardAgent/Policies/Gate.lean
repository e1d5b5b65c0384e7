import OboardAgent.Policies.Wire
import OboardAgent.Traffic.Response

/-!
# The revision of the traffic policies

Two ways lead to the stored policies: the response to a traffic report (`reportTrafficLedger`) and
the `apply_traffic_policy` task (`applyTrafficPolicyTask`). Both hold the lock of the traffic state
from the revision check to the end, so a run is a sequence of the two, and both ask
`checkTrafficPolicyRevision`; but the response asks only if it carries a revision. One without a
revision is pushed and stored as it is, with the revision it does not have.

What the environment decides is part of the event: whether requests and writes succeed, the users of
the runtimes, the clock.
-/

namespace OboardAgent.Policies

open Traffic (TrafficLocalState TrafficReportResponse)

/-- Policies by key, as they are stored. -/
abbrev Typed := GoMap String TrafficRuntimePolicy

/-- What the traffic state holds of the policies, beside the ledger. -/
structure PolicyState where
  ledger : TrafficLocalState := {}
  policyRevision : Int := 0
  policies : Typed := ∅

/-- `checkTrafficPolicyRevision`: whether to skip, or an error. `contentID` is the hash of the
JSON. -/
def checkTrafficPolicyRevision (contentID : Typed → String) (applied : Int) (appliedPolicies : Typed)
    (incoming : Int) (incomingPolicies : Typed) : Except String Bool :=
  if incoming ≤ 0 then .error "traffic_policy_revision must be positive"
  else if incoming < applied then .ok true
  else if incoming = applied then
    if contentID appliedPolicies ≠ contentID incomingPolicies then
      .error ("traffic_policy_revision " ++ toString
        incoming ++ " was already applied with different content")
    else .ok true
  else .ok false

theorem newer_of_check {contentID : Typed → String} {applied incoming : Int}
    {appliedPolicies incomingPolicies : Typed}
    (h : checkTrafficPolicyRevision contentID applied appliedPolicies incoming incomingPolicies
      = .ok false) : 0 < incoming ∧ applied < incoming := by
  unfold checkTrafficPolicyRevision at h
  split at h
  · cases h
  split at h
  · cases h
  split at h
  · split at h <;> cases h
  · omega

def trafficPolicyRevisionFromPolicies (policies : Typed) : Int :=
  policies.entries.foldl (fun revision e => max revision e.2.policyRevision) 0

def trafficLeaseStaleAfter : Int := 86400000000000

def staleLease (raw : RawPolicy) : RawPolicy :=
  match raw.decode with
  | none => raw
  | some p => if p.leaseEnforced then .typed { p with leaseBytes := 0 } else raw

/-- `applyStaleLeasePolicies`: the policies, and the ledger with its status. -/
def applyStaleLeasePolicies (policies : Wire) (ledger : TrafficLocalState) (now : Int) :
    Wire × TrafficLocalState :=
  if policies.entries.isEmpty || ledger.sync.lastSuccess = "" then (policies, ledger)
  else
    match Rfc3339.parse ledger.sync.lastSuccess with
    | none => (policies, ledger)
    | some lastSuccess =>
      if now - lastSuccess < trafficLeaseStaleAfter then (policies, ledger)
      else
        (GoMap.filterMap (fun _ raw => some (staleLease raw)) policies,
          if ledger.sync.status = .unset ∨ ledger.sync.status = .healthy then
            { ledger with sync := { ledger.sync with status := .stale } }
          else ledger)

structure Runtimes where
  coreUsers : Option (Int → Bool)
  sshUsers : Int → Bool
  accepted : Bool

def Runtimes.push (r : Runtimes) (policies : Wire) : Bool :=
  (pushTrafficPolicies r.coreUsers r.sshUsers policies r.accepted).ok

/-! ## The response to a report -/

/-- A response, and how the rest of `reportTrafficLedger` fares. -/
structure Report where
  resp : TrafficReportResponse := {}
  policyRevision : Int := 0
  policies : Wire := ∅
  /-- The request and the authorization in the response have gone well. -/
  answered : Bool := true
  checkpointSaved : Bool := true
  policiesSaved : Bool := true
  /-- The stage and the text of the error, if one is returned before the context is done. -/
  failure : Option String := none
  now : Int := 0
  later : Int := 0
  runtimes : Runtimes

namespace Report

/-- The ledger and the policies after the checkpoints were applied. -/
def settled (r : Report) (s : PolicyState) : Wire × TrafficLocalState :=
  applyStaleLeasePolicies r.policies (s.ledger.applyTrafficLedgerResponse r.now r.resp) r.later

/-- The policies of the response, decoded. -/
def typed (r : Report) (s : PolicyState) : Typed := trafficPoliciesFromWire (r.settled s).1

/-- The revision of the response: its own, or else the highest of its policies. -/
def revision (r : Report) (s : PolicyState) : Int :=
  if r.policyRevision = 0 then trafficPolicyRevisionFromPolicies (r.typed s) else r.policyRevision

end Report

namespace PolicyState

/-- Policies are pushed and, if that succeeds, stored. -/
def install (s : PolicyState) (runtimes : Runtimes) (wire : Wire) (revision : Int) (typed : Typed) :
    PolicyState × Bool :=
  if runtimes.push wire then ({ s with policyRevision := revision, policies := typed }, true)
  else (s, false)

/-- What `reportTrafficLedger` does last, when it returns an error. -/
def failed (r : Report) (s : PolicyState) : PolicyState :=
  match r.failure with
  | none => s
  | some text =>
    { s with ledger := { s.ledger with sync := { s.ledger.sync with status := .stale, lastError := text } } }

/-- `reportTrafficLedger` from the push on. -/
def pushReport (r : Report) (s : PolicyState) (wire : Wire) (revision : Int) (typed : Typed) :
    PolicyState × Bool :=
  let x := s.install r.runtimes wire revision typed
  (if x.2 && r.policiesSaved then x.1 else failed r x.1, x.2)

/-- `reportTrafficLedger`: the state, and whether policies were applied. -/
def reportTrafficLedger (contentID : Typed → String) (r : Report) (s : PolicyState) :
    PolicyState × Bool :=
  if !r.answered then (failed r s, false)
  else if !r.checkpointSaved then
    (failed r { s with ledger := s.ledger.applyTrafficLedgerResponse r.now r.resp }, false)
  else
    let s' := { s with ledger := (r.settled s).2 }
    if 0 < r.revision s then
      match checkTrafficPolicyRevision contentID s.policyRevision s.policies (r.revision s)
          (r.typed s) with
      | .error _ => (failed r s', false)
      | .ok true => (s', false)
      | .ok false => s'.pushReport r (r.settled s).1 (r.revision s) (r.typed s)
    else s'.pushReport r (r.settled s).1 (r.revision s) (r.typed s)

end PolicyState

/-! ## The task -/

/-- An `apply_traffic_policy` task, and how it fares. -/
structure Task where
  policyRevision : Int := 0
  /-- The `config_version` of the task, which may carry the revision. -/
  configVersion : Int := 0
  policies : Typed := ∅
  authorization : Bool := false
  authorized : Bool := true
  runtimes : Runtimes

def Task.revision (t : Task) : Int :=
  if t.policyRevision = 0 then t.configVersion else t.policyRevision

namespace PolicyState

/-- `applyTrafficPolicyTask`: the state, and whether policies were applied. -/
def applyTrafficPolicyTask (contentID : Typed → String) (t : Task) (s : PolicyState) :
    PolicyState × Bool :=
  if !t.authorized then (s, false)
  else if t.authorization && t.revision = 0 && t.policies.entries.isEmpty then (s, false)
  else
    match checkTrafficPolicyRevision contentID s.policyRevision s.policies t.revision t.policies with
    | .error _ => (s, false)
    | .ok true => (s, false)
    | .ok false => s.install t.runtimes (trafficPoliciesToWire t.policies) t.revision t.policies

end PolicyState

/-! ## Runs -/

structure GateWorld where
  state : PolicyState
  applied : List (Int × Typed)

inductive GateEvent where
  | report (r : Report)
  | task (t : Task)

namespace GateWorld

def call (contentID : Typed → String) (s : PolicyState) : GateEvent → PolicyState × Bool
  | .report r => s.reportTrafficLedger contentID r
  | .task t => s.applyTrafficPolicyTask contentID t

def step (contentID : Typed → String) (w : GateWorld) (e : GateEvent) : GateWorld :=
  let x := call contentID w.state e
  { state := x.1
    applied := if x.2 then w.applied ++ [(x.1.policyRevision, x.1.policies)] else w.applied }

def start (s : PolicyState) : GateWorld := { state := s, applied := [(s.policyRevision, s.policies)] }

def revision (w : GateWorld) : GateEvent → Int
  | .report r => r.revision w.state
  | .task t => t.revision

/-- If there is a response, it carries a revision, its own or that of its policies. -/
def CarriesRevision (w : GateWorld) : GateEvent → Prop
  | .report r => r.answered → 0 < r.revision w.state
  | .task _ => True

instance (w : GateWorld) (e : GateEvent) : Decidable (w.CarriesRevision e) := by
  cases e <;> unfold CarriesRevision <;> infer_instance

def Unchanged (s t : PolicyState) : Prop :=
  t.policyRevision = s.policyRevision ∧ t.policies = s.policies

variable {contentID : Typed → String}

theorem install_cases (s : PolicyState) (runtimes : Runtimes) (wire : Wire) (revision : Int)
    (typed : Typed) :
    ((s.install runtimes wire revision typed).2 = false ∧
      Unchanged s (s.install runtimes wire revision typed).1) ∨
    ((s.install runtimes wire revision typed).2 = true ∧
      (s.install runtimes wire revision typed).1.policyRevision = revision) := by
  unfold PolicyState.install
  split
  · exact Or.inr ⟨rfl, rfl⟩
  · exact Or.inl ⟨rfl, rfl, rfl⟩

theorem failed_unchanged (r : Report) (s : PolicyState) : Unchanged s (s.failed r) := by
  unfold PolicyState.failed
  split <;> exact ⟨rfl, rfl⟩

theorem pushReport_cases (r : Report) (s : PolicyState) (wire : Wire) (revision : Int)
    (typed : Typed) :
    ((s.pushReport r wire revision typed).2 = false ∧
      Unchanged s (s.pushReport r wire revision typed).1) ∨
    ((s.pushReport r wire revision typed).2 = true ∧
      (s.pushReport r wire revision typed).1.policyRevision = revision) := by
  have hfailed := failed_unchanged r (s.install r.runtimes wire revision typed).1
  unfold PolicyState.pushReport
  rcases install_cases s r.runtimes wire revision typed with ⟨hnot, hsame⟩ | ⟨happlied, hrevision⟩
  · refine Or.inl ⟨hnot, ?_⟩
    dsimp only
    rw [hnot]
    exact ⟨hfailed.1.trans hsame.1, hfailed.2.trans hsame.2⟩
  · refine Or.inr ⟨happlied, ?_⟩
    dsimp only
    split
    · exact hrevision
    · exact hfailed.1.trans hrevision

/-- **What an event can do**: leave revision and policies, or apply a positive and newer revision;
or it is a response without a revision. -/
theorem call_cases (contentID : Typed → String) (w : GateWorld) (e : GateEvent) :
    ((call contentID w.state e).2 = false ∧ Unchanged w.state (call contentID w.state e).1) ∨
    ((call contentID w.state e).2 = true ∧
      (call contentID w.state e).1.policyRevision = w.revision e ∧
      ((0 < w.revision e ∧ w.state.policyRevision < w.revision e) ∨ ¬w.CarriesRevision e)) := by
  cases e with
  | report r =>
    dsimp only [call, revision, CarriesRevision]
    unfold PolicyState.reportTrafficLedger
    split
    · exact Or.inl ⟨rfl, failed_unchanged r w.state⟩
    rename_i hanswered
    split
    · exact Or.inl ⟨rfl, failed_unchanged r _⟩
    dsimp only
    have hpush := pushReport_cases r { w.state with ledger := (r.settled w.state).2 }
      (r.settled w.state).1 (r.revision w.state) (r.typed w.state)
    split
    · split
      · exact Or.inl ⟨rfl, failed_unchanged r _⟩
      · exact Or.inl ⟨rfl, rfl, rfl⟩
      · rename_i hcheck
        exact hpush.imp_right fun h => ⟨h.1, h.2, Or.inl (newer_of_check hcheck)⟩
    · rename_i hnone
      have hanswered : r.answered = true := by simpa using hanswered
      exact hpush.imp_right fun h => ⟨h.1, h.2, Or.inr fun hcarries => hnone (hcarries hanswered)⟩
  | task t =>
    dsimp only [call, revision, CarriesRevision]
    unfold PolicyState.applyTrafficPolicyTask
    split
    · exact Or.inl ⟨rfl, rfl, rfl⟩
    split
    · exact Or.inl ⟨rfl, rfl, rfl⟩
    split
    · exact Or.inl ⟨rfl, rfl, rfl⟩
    · exact Or.inl ⟨rfl, rfl, rfl⟩
    · rename_i hcheck
      exact (install_cases _ _ _ _ _).imp_right fun h => ⟨h.1, h.2, Or.inl (newer_of_check hcheck)⟩

structure Ordered (w : GateWorld) : Prop where
  increasing : w.applied.Pairwise fun x y => x.1 < y.1
  last : ∃ earlier, w.applied = earlier ++ [(w.state.policyRevision, w.state.policies)]

theorem ordered_start (s : PolicyState) : Ordered (start s) := ⟨List.pairwise_singleton _ _, [], rfl⟩

theorem Ordered.le_stored {w : GateWorld} (h : Ordered w) {x : Int × Typed} (hx : x ∈ w.applied) :
    x.1 ≤ w.state.policyRevision := by
  obtain ⟨earlier, hlast⟩ := h.last
  have hpairs := h.increasing
  rw [hlast] at hx hpairs
  rcases List.mem_append.mp hx with hx | hx
  · exact Int.le_of_lt ((List.pairwise_append.mp hpairs).2.2 x hx _ List.mem_cons_self)
  · rw [List.mem_singleton.mp hx]

theorem Ordered.step {w : GateWorld} (h : Ordered w) {e : GateEvent} (hcarries : w.CarriesRevision e) :
    Ordered (w.step contentID e) := by
  rcases call_cases contentID w e with ⟨hnot, hrevision, hpolicies⟩ | ⟨happlied, hrevision, hnewer⟩
  · obtain ⟨earlier, hlast⟩ := h.last
    refine ⟨?_, earlier, ?_⟩
    · simpa only [GateWorld.step, hnot, Bool.false_eq_true, if_false] using h.increasing
    · simpa only [GateWorld.step, hnot, Bool.false_eq_true, if_false, hrevision, hpolicies] using hlast
  · have hlt : w.state.policyRevision < (call contentID w.state e).1.policyRevision :=
      hrevision ▸ (hnewer.resolve_right (not_not_intro hcarries)).2
    refine ⟨?_, w.applied, ?_⟩
    · simp only [GateWorld.step, happlied, if_true]
      refine List.pairwise_append.mpr ⟨h.increasing, List.pairwise_singleton _ _, ?_⟩
      intro x hx y hy
      rw [List.mem_singleton.mp hy]
      exact Int.lt_of_le_of_lt (h.le_stored hx) hlt
    · simp only [GateWorld.step, happlied, if_true]

theorem Ordered.one_content {w : GateWorld} (h : Ordered w) {x y : Int × Typed} (hx : x ∈ w.applied)
    (hy : y ∈ w.applied) (heq : x.1 = y.1) : x.2 = y.2 := by
  -- of two different entries one is older
  have hpairs : w.applied.Pairwise fun x y => x.1 = y.1 → x.2 = y.2 :=
    h.increasing.imp fun hlt heq => absurd heq (Int.ne_of_lt hlt)
  have : Std.Symm fun x y : Int × Typed => x.1 = y.1 → x.2 = y.2 :=
    ⟨fun _ _ hxy heq => (hxy heq.symm).symm⟩
  exact hpairs.forall_of_forall (fun _ _ _ => rfl) hx hy heq

/-- What one event does to the gate: the revision does not go down, and without a newer revision
nothing changes. -/
def Gated (contentID : Typed → String) (w : GateWorld) (e : GateEvent) : Prop :=
  w.state.policyRevision ≤ (w.step contentID e).state.policyRevision ∧
    (w.revision e ≤ 0 ∨ w.revision e ≤ w.state.policyRevision →
      Unchanged w.state (w.step contentID e).state)

theorem gated_of_carries {w : GateWorld} {e : GateEvent} (hcarries : w.CarriesRevision e) :
    Gated contentID w e := by
  rcases call_cases contentID w e with ⟨-, hunchanged⟩ | ⟨-, hrevision, hnewer⟩
  · exact ⟨le_of_eq hunchanged.1.symm, fun _ => hunchanged⟩
  · obtain ⟨hpositive, hlt⟩ := hnewer.resolve_right (not_not_intro hcarries)
    have hstored : (w.step contentID e).state.policyRevision = w.revision e := hrevision
    refine ⟨by omega, fun hold => ?_⟩
    omega

/-- **The revision gate.** In every run in which each response carries a revision, the stored
revision never goes down, an event that carries no newer revision changes nothing, and no revision
is ever applied with two contents. -/
theorem revision_gate_holds (contentID : Typed → String) (s : PolicyState) (es : List GateEvent)
    (h : Run.Along (step contentID) CarriesRevision (start s) es) :
    Run.Along (step contentID) (Gated contentID) (start s) es ∧
      ∀ x ∈ (Run.exec (step contentID) (start s) es).applied,
        ∀ y ∈ (Run.exec (step contentID) (start s) es).applied, x.1 = y.1 → x.2 = y.2 := by
  have hordered : Ordered (Run.exec (step contentID) (start s) es) :=
    Run.invariant (fun _ _ hw hcarries => hw.step hcarries) (ordered_start s) h
  refine ⟨h.mono fun _ _ hcarries => gated_of_carries hcarries, ?_⟩
  exact fun x hx y hy heq => hordered.one_content hx hy heq

def runtimesUp : Runtimes := { coreUsers := some fun _ => true, sshUsers := fun _ => true, accepted := true }

def leaseOf (bytes revision : Int) : TrafficRuntimePolicy :=
  { userID := 7, leaseBytes := bytes, leaseEnforced := true, policyRevision := revision }

def leaseHash (policies : Typed) : String := toString (policies.values.map (·.leaseBytes))

def gatedRun : List GateEvent :=
  [.task { policyRevision := 5, policies := AList.singleton "a" (leaseOf 100 5), runtimes := runtimesUp },
    .report { policies := AList.singleton "a" (.json (leaseOf 200 6)), runtimes := runtimesUp },
    .task { policyRevision := 5, policies := AList.singleton "a" (leaseOf 300 5), runtimes := runtimesUp }]

theorem late_task_changes_nothing :
    (Run.exec (step leaseHash) (start {}) gatedRun).applied.map (·.1) = [0, 5, 6] ∧
      Run.Along (step leaseHash) (Gated leaseHash) (start {}) gatedRun ∧
      ∀ x ∈ (Run.exec (step leaseHash) (start {}) gatedRun).applied,
        ∀ y ∈ (Run.exec (step leaseHash) (start {}) gatedRun).applied, x.1 = y.1 → x.2 = y.2 :=
  ⟨by decide +kernel, revision_gate_holds leaseHash {} gatedRun (by decide +kernel)⟩

def loweredRun : List GateEvent :=
  [.task { policyRevision := 5, policies := AList.singleton "a" (leaseOf 100 5), runtimes := runtimesUp },
    .report { policies := AList.singleton "a" (.json (leaseOf 200 0)), runtimes := runtimesUp },
    .task { policyRevision := 5, policies := AList.singleton "a" (leaseOf 300 5), runtimes := runtimesUp }]

/-- The response lowers the stored revision to zero, and the second task is applied with another
content under the revision of the first. -/
theorem response_without_revision_lowers_gate :
    (Run.exec (step leaseHash) (start {}) (loweredRun.take 1)).state.policyRevision = 5 ∧
      (Run.exec (step leaseHash) (start {}) (loweredRun.take 2)).state.policyRevision = 0 ∧
      (Run.exec (step leaseHash) (start {}) loweredRun).applied.map
        (fun x => (x.1, x.2.values.map (·.leaseBytes))) = [(0, []), (5, [100]), (0, [200]), (5, [300])] := by
  decide +kernel

end GateWorld

end OboardAgent.Policies
