import Mathlib.Data.Option.Basic

/-!
# Code that may fail half way

`Attempt σ α` is code that changes a state and gives a value, or fails; what it changed before it
failed stays changed. `Triple P m Q E` is the statement that, from a state with `P`, a run of `m`
that succeeds ends with `Q` and one that fails ends with `E`. There is a rule for each way to build
an attempt.
-/

def Attempt (σ α : Type) : Type := σ → σ × Option α

namespace Attempt

variable {σ α β : Type}

instance : Monad (Attempt σ) where
  pure a := fun s => (s, some a)
  bind m f := fun s =>
    match m s with
    | (t, some a) => f a t
    | (t, none) => (t, none)

def read : Attempt σ σ := fun s => (s, some s)

def update (f : σ → σ) : Attempt σ Unit := fun s => (f s, some ())

/-- Fail, with nothing changed, unless `ok`. -/
def ensure (ok : Bool) : Attempt σ Unit := fun s => (s, if ok then some () else none)

/-- A deferred function: it runs when `m` has failed, and the failure remains. -/
def onFailure (m : Attempt σ α) (recover : σ → σ) : Attempt σ α := fun s =>
  match m s with
  | (t, some a) => (t, some a)
  | (t, none) => (recover t, none)

/-- From a state with `P`, a success ends with `Q` and a failure ends with `E`. -/
def Triple (P : σ → Prop) (m : Attempt σ α) (Q : α → σ → Prop) (E : σ → Prop) : Prop :=
  ∀ s, P s → (∀ t a, m s = (t, some a) → Q a t) ∧ ∀ t, m s = (t, none) → E t

variable {P R E F : σ → Prop} {Q : α → σ → Prop} {m : Attempt σ α}

theorem ends_some {t : σ} {a : α} (h : Q a t) :
    (∀ u b, (t, some a) = (u, some b) → Q b u) ∧ ∀ u, (t, some a) = (u, none) → E u := by
  refine ⟨?_, nofun⟩
  rintro u b ⟨⟩
  exact h

theorem ends_none {t : σ} (h : E t) :
    (∀ u b, (t, none) = (u, some b) → Q b u) ∧ ∀ u, (t, (none : Option α)) = (u, none) → E u := by
  refine ⟨nofun, ?_⟩
  rintro u ⟨⟩
  exact h

theorem Triple.pure {a : α} (h : ∀ s, P s → Q a s) :
    Triple P (Pure.pure a) Q E := fun s hP => ends_some (h s hP)

theorem Triple.bind {f : α → Attempt σ β} {M : α → σ → Prop} {Q : β → σ → Prop}
    (hm : Triple P m M E) (hf : ∀ a, Triple (M a) (f a) Q E) : Triple P (m >>= f) Q E := by
  intro s hP
  obtain ⟨hsome, hnone⟩ := hm s hP
  change (∀ t a, (match m s with | (t, some a) => f a t | (t, none) => (t, none)) = (t, some a) → Q a t) ∧
    ∀ t, (match m s with | (t, some a) => f a t | (t, none) => (t, none)) = (t, none) → E t
  cases hrun : m s with
  | mk t value =>
    cases value with
    | some a => exact hf a t (hsome t a hrun)
    | none => exact ends_none (hnone _ hrun)

theorem Triple.last {f : α → Attempt σ β} {Q : β → σ → Prop}
    (hf : ∀ a, Triple (fun _ => True) (f a) Q fun _ => True) : Triple P (m >>= f) Q fun _ => True :=
  Triple.bind (M := fun _ _ => True) (fun _ _ => ⟨fun _ _ _ => trivial, fun _ _ => trivial⟩) hf

theorem Triple.read_bind {f : σ → Attempt σ α} (hf : ∀ s, P s → Triple (· = s) (f s) Q E) :
    Triple P (Attempt.read >>= f) Q E := fun s hP => hf s hP s rfl

theorem Triple.update {g : σ → σ} {Q : Unit → σ → Prop} (h : ∀ s, P s → Q () (g s)) :
    Triple P (Attempt.update g) Q E :=
  fun s hP => ends_some (h s hP)

theorem Triple.update_bind {g : σ → σ} {f : Unit → Attempt σ α} (hg : ∀ s, P s → R (g s))
    (hf : Triple R (f ()) Q E) :
    Triple P (Attempt.update g >>= f) Q E := fun s hP => hf (g s) (hg s hP)

theorem Triple.ensure_bind {ok : Bool} {f : Unit → Attempt σ α} (hno : ok = false → ∀ s, P s → E s)
    (hf : ok = true → Triple P (f ()) Q E) : Triple P (Attempt.ensure ok >>= f) Q E := by
  cases ok with
  | true => exact hf rfl
  | false => exact fun s hP => ends_none (hno rfl s hP)

theorem Triple.onFailure {recover : σ → σ} (hm : Triple P m Q F) (hrecover : ∀ s, F s → E (recover s)) :
    Triple P (m.onFailure recover) Q E := by
  intro s hP
  obtain ⟨hsome, hnone⟩ := hm s hP
  unfold Attempt.onFailure
  cases hrun : m s with
  | mk t value =>
    cases value with
    | some a => exact ends_some (hsome _ _ hrun)
    | none => exact ends_none (hrecover _ (hnone _ hrun))

theorem Triple.post {N : α → σ → Prop} (h : Triple P m N F) (hpost : ∀ a s, N a s → Q a s)
    (hfail : ∀ s, F s → E s) : Triple P m Q E := by
  intro s hP
  obtain ⟨hsome, hnone⟩ := h s hP
  exact ⟨fun t a hrun => hpost a t (hsome t a hrun), fun t hrun => hfail t (hnone t hrun)⟩

theorem Triple.pre {M : σ → Prop} (h : Triple M m Q E) (hpre : ∀ s, P s → M s) : Triple P m Q E :=
  fun s hP => h s (hpre s hP)

theorem Triple.state (h : ∀ s, P s → R (m s).1) : Triple P m (fun _ => R) R := by
  intro s hP
  have hend := h s hP
  constructor
  · intro t a hrun
    rwa [hrun] at hend
  · intro t hrun
    rwa [hrun] at hend

theorem Triple.apply (h : Triple P m Q E) {s : σ} (hP : P s) :
    (∃ a, (m s).2 = some a ∧ Q a (m s).1) ∨ ((m s).2 = none ∧ E (m s).1) := by
  obtain ⟨hsome, hnone⟩ := h s hP
  cases hvalue : (m s).2 with
  | some a => exact Or.inl ⟨a, rfl, hsome _ a (Prod.ext rfl hvalue)⟩
  | none => exact Or.inr ⟨rfl, hnone _ (Prod.ext rfl hvalue)⟩

theorem Triple.ends (h : Triple P m (fun _ => R) R) {s : σ} (hP : P s) : R (m s).1 := by
  rcases h.apply hP with ⟨_, -, hend⟩ | ⟨-, hend⟩
  · exact hend
  · exact hend

/-- The code keeps `P`, whether it succeeds or fails. -/
abbrev Keeps (P : σ → Prop) (m : Attempt σ α) : Prop := Triple P m (fun _ => P) P

end Attempt
