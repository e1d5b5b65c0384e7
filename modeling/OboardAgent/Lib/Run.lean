import Mathlib.Data.List.Basic

/-!
# Runs of a machine, one event at a time

A component is a function `step : σ → ε → σ`: its state, and what one event does to it. Every
choice the environment makes (a clock reading, an answer, whether a write succeeded) is part of
the event, so `step` is a function and a run is a list of events.

Two notions carry all the arguments about runs:

* `exec step s es`, the state the run ends in;
* `Along step P s es`, "every step of the run satisfies `P` at the state it is taken from". This
  is how a run is restricted: to an honest peer, to a clock that does not go back, to steps that
  keep clear of some branch.

`invariant` is the rule: what holds at the start and is kept by every step that satisfies `P`
holds at the end of every run along `P`. A statement about *every* state of a run is the
statement about the end of every run, because the prefixes of a run are runs (`Along.left`).
-/

namespace Run

variable {σ ε : Type} (step : σ → ε → σ)

/-- The state a run ends in. -/
def exec (s : σ) (es : List ε) : σ := es.foldl step s

@[simp] theorem exec_nil (s : σ) : exec step s [] = s := rfl

@[simp] theorem exec_cons (s : σ) (e : ε) (es : List ε) :
    exec step s (e :: es) = exec step (step s e) es := rfl

theorem exec_append (s : σ) (es fs : List ε) :
    exec step s (es ++ fs) = exec step (exec step s es) fs := List.foldl_append

/-- Every step of the run satisfies `P` at the state it is taken from. -/
def Along (P : σ → ε → Prop) : σ → List ε → Prop
  | _, [] => True
  | s, e :: es => P s e ∧ Along P (step s e) es

instance Along.decidable (P : σ → ε → Prop) [∀ s e, Decidable (P s e)] :
    ∀ (s : σ) (es : List ε), Decidable (Along step P s es)
  | _, [] => .isTrue trivial
  | s, e :: es =>
    have := Along.decidable P (step s e) es
    inferInstanceAs (Decidable (P s e ∧ Along step P (step s e) es))

/-- What the steps of a run put out, in order. -/
def outputs {β : Type} (out : σ → ε → List β) : σ → List ε → List β
  | _, [] => []
  | s, e :: es => out s e ++ outputs out (step s e) es

variable {step}

theorem Along.append {P : σ → ε → Prop} : ∀ {es fs : List ε} {s : σ},
    Along step P s (es ++ fs) ↔ Along step P s es ∧ Along step P (exec step s es) fs
  | [], _, _ => by simp [Along]
  | e :: es, fs, s => by
    simp only [List.cons_append, Along, exec_cons, @Along.append P es, and_assoc]

variable {P : σ → ε → Prop}

theorem Along.left {es fs : List ε} {s : σ}
    (h : Along step P s (es ++ fs)) : Along step P s es := (Along.append.mp h).1

theorem Along.mono {Q : σ → ε → Prop} (hPQ : ∀ s e, P s e → Q s e) :
    ∀ {es : List ε} {s : σ}, Along step P s es → Along step Q s es
  | [], _, _ => trivial
  | _ :: _, _, h => ⟨hPQ _ _ h.1, Along.mono hPQ h.2⟩

theorem Along.and {Q : σ → ε → Prop} : ∀ {es : List ε} {s : σ},
    Along step P s es → Along step Q s es → Along step (fun s e => P s e ∧ Q s e) s es
  | [], _, _, _ => trivial
  | _ :: _, _, hP, hQ => ⟨⟨hP.1, hQ.1⟩, Along.and hP.2 hQ.2⟩

theorem Along.of_forall {Q : ε → Prop} : ∀ {es : List ε} {s : σ}, (∀ e ∈ es, Q e) →
    Along step (fun _ e => Q e) s es
  | [], _, _ => trivial
  | _ :: _, _, h =>
    ⟨h _ List.mem_cons_self, Along.of_forall fun e he => h e (List.mem_cons_of_mem _ he)⟩

/-- **The invariant rule.** -/
theorem invariant {P : σ → ε → Prop} {I : σ → Prop} (hstep : ∀ s e, I s → P s e → I (step s e)) :
    ∀ {es : List ε} {s : σ}, I s → Along step P s es → I (exec step s es)
  | [], _, hI, _ => hI
  | _ :: es, _, hI, hA => @invariant P I hstep es _ (hstep _ _ hI hA.1) hA.2

/-- The rule for a step that keeps the invariant unconditionally. -/
theorem invariant_all {I : σ → Prop} (hstep : ∀ s e, I s → I (step s e)) :
    ∀ {es : List ε} {s : σ}, I s → I (exec step s es)
  | [], _, hI => hI
  | _ :: es, _, hI => @invariant_all I hstep es _ (hstep _ _ hI)

/-- An invariant may be used at every step of the run it is an invariant of. -/
theorem along_invariant {I : σ → Prop} (hstep : ∀ s e, I s → P s e → I (step s e)) :
    ∀ {es : List ε} {s : σ}, I s → Along step P s es → Along step (fun s e => I s ∧ P s e) s es
  | [], _, _, _ => trivial
  | _ :: _, _, hI, hA => ⟨⟨hI, hA.1⟩, along_invariant hstep (hstep _ _ hI hA.1) hA.2⟩

/-- What one event of a run establishes, and the other events of the run keep, holds at its end. -/
theorem established {I : σ → Prop} {e : ε} (hset : ∀ s, I (step s e)) :
    ∀ {es : List ε} {s : σ}, (∀ f ∈ es, f ≠ e → ∀ s, I s → I (step s f)) → e ∈ es ∨ I s →
      I (exec step s es)
  | [], _, _, h => h.resolve_left List.not_mem_nil
  | f :: es, s, hkeep, h => by
    rw [exec_cons]
    refine established hset (fun g hg => hkeep g (List.mem_cons_of_mem _ hg)) ?_
    by_cases hf : f = e
    · exact Or.inr (hf ▸ hset s)
    · rcases h with h | h
      · exact Or.inl ((List.mem_cons.mp h).resolve_left (Ne.symm hf))
      · exact Or.inr (hkeep f List.mem_cons_self hf s h)

/-- A property that a step keeps exactly under a condition holds in every state of a run exactly
when the run meets the condition at every step. -/
theorem always_iff {V I : σ → Prop} (hV : ∀ s e, V s → V (step s e))
    (hstep : ∀ s e, V s → I s → (I (step s e) ↔ P s e)) :
    ∀ {es : List ε} {s : σ}, V s → I s →
      ((∀ pre, pre <+: es → I (exec step s pre)) ↔ Along step P s es)
  | [], s, _, hI => by
    constructor
    · exact fun _ => trivial
    · intro _ pre hpre
      rw [List.prefix_nil.mp hpre]
      exact hI
  | e :: es, s, hVs, hI => by
    constructor
    · intro h
      have hnext : I (step s e) := h [e] ⟨es, rfl⟩
      refine ⟨(hstep s e hVs hI).mp hnext, (always_iff hV hstep (hV s e hVs) hnext).mp ?_⟩
      exact fun pre hpre => h (e :: pre) (List.cons_prefix_cons.mpr ⟨rfl, hpre⟩)
    · rintro ⟨hP, hA⟩ pre hpre
      have hnext : I (step s e) := (hstep s e hVs hI).mpr hP
      cases pre with
      | nil => exact hI
      | cons f pre =>
        obtain ⟨rfl, hrest⟩ := List.cons_prefix_cons.mp hpre
        exact (always_iff hV hstep (hV s _ hVs) hnext).mpr hA pre hrest

/-- What holds of everything a run puts out is what holds of everything each step puts out. -/
theorem forall_outputs {β : Type} {out : σ → ε → List β} {Q : β → Prop} :
    ∀ {es : List ε} {s : σ}, (∀ b ∈ outputs step out s es, Q b) ↔
      Along step (fun s e => ∀ b ∈ out s e, Q b) s es
  | [], _ => by simp [outputs, Along]
  | e :: es, s => by
    simp only [outputs, Along, List.mem_append, or_imp, forall_and]
    exact and_congr_right fun _ => forall_outputs

/-- A log that every step extends by what it puts out holds what the run has put out. -/
theorem log_exec {β : Type} {out : σ → ε → List β} (log : σ → List β)
    (h : ∀ s e, log (step s e) = log s ++ out s e) :
    ∀ {es : List ε} {s : σ}, log (exec step s es) = log s ++ outputs step out s es
  | [], _ => (List.append_nil _).symm
  | e :: es, s => by
    rw [exec_cons, log_exec log h, h s e, List.append_assoc]
    rfl

end Run
