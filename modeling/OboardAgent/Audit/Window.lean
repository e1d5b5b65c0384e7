import OboardAgent.Audit.Buckets
import OboardAgent.Lib.Rfc3339
import Mathlib.Data.List.ReduceOption

/-!
# The time stamps of an audit item

What `normalizeAuditItemWindow` makes of the texts of an item. `Buckets` has the clamps on the
instants; an item carries RFC 3339 texts, any of which may be missing or malformed, and the
Controller reads what is written. RFC 3339 has four digits for a year: an instant of a later year is
written with five, and no reader takes that text.
-/

namespace OboardAgent.Audit

open Rfc3339 (parse format)

/-! ## The instants -/

/-- The four stamps, in the order that the Controller asks for. -/
def ConnectionAuditBucket.stamps (b : ConnectionAuditBucket) : List (Option Int) :=
  [b.startedAt, b.payloadFirstAt, b.payloadLastAt, b.endedAt]

/-- The stamps that are there are in order, and inside the window. -/
def InOrder (item : ConnectionAuditBucket) (collectionStarted collectionEnded : Int) : Prop :=
  (collectionStarted :: item.stamps.reduceOption ++ [collectionEnded]).Pairwise (· ≤ ·)

/-- What the Controller asks of an item. -/
structure Acceptable (item : ConnectionAuditBucket) (collectionStarted collectionEnded : Int) :
    Prop where
  started : item.startedAt.isSome
  ended : item.endedAt.isSome
  payload : item.payloadFirstAt.isSome = item.payloadLastAt.isSome
  order : InOrder item collectionStarted collectionEnded

section Instants

variable (item : ConnectionAuditBucket) {collectionStarted collectionEnded : Int}

theorem pairwise_cons_cons {a b : Int} {l : List Int} :
    (a :: b :: l).Pairwise (· ≤ ·) ↔ a ≤ b ∧ (b :: l).Pairwise (· ≤ ·) := by
  simp only [← List.isChain_iff_pairwise, List.isChain_cons_cons]

theorem acceptable_normalize (h : collectionStarted ≤ collectionEnded) :
    Acceptable (normalizeAuditItemWindow item collectionStarted collectionEnded)
      collectionStarted collectionEnded := by
  unfold normalizeAuditItemWindow
  cases item.payloadFirstAt <;> cases item.payloadLastAt
  all_goals
    refine ⟨rfl, rfl, rfl, ?_⟩
    simp only [InOrder, ConnectionAuditBucket.stamps, Option.or_some, Option.or_none,
      List.reduceOption_cons_of_some, List.reduceOption_cons_of_none, List.reduceOption_nil,
      List.cons_append, List.nil_append, pairwise_cons_cons, List.pairwise_singleton, and_true]
    omega

theorem normalize_keeps (h : InOrder item collectionStarted collectionEnded) :
    List.Forall₂ (fun before after => before.isSome → after = before) item.stamps
      (normalizeAuditItemWindow item collectionStarted collectionEnded).stamps := by
  unfold normalizeAuditItemWindow
  cases hs : item.startedAt <;> cases hf : item.payloadFirstAt <;>
    cases hl : item.payloadLastAt <;> cases he : item.endedAt
  all_goals
    simp only [InOrder, ConnectionAuditBucket.stamps, hs, hf, hl, he, Option.or_some, Option.or_none,
      List.reduceOption_cons_of_some, List.reduceOption_cons_of_none, List.reduceOption_nil,
      List.cons_append, List.nil_append, pairwise_cons_cons, List.pairwise_singleton, and_true,
      List.forall₂_cons, List.forall₂_nil_left_iff, Option.isSome_some, Option.isSome_none,
      Option.getD_some, Option.getD_none, Option.some.injEq, forall_const, true_and,
      Bool.false_eq_true, IsEmpty.forall_iff] at h ⊢
    try omega

theorem payload_normalize :
    (normalizeAuditItemWindow item collectionStarted collectionEnded).payloadFirstAt.isSome =
      (item.payloadFirstAt.isSome || item.payloadLastAt.isSome) := by
  unfold normalizeAuditItemWindow
  cases item.payloadFirstAt <;> cases item.payloadLastAt <;> rfl

theorem stamps_normalize_normalize (h : collectionStarted ≤ collectionEnded) :
    (normalizeAuditItemWindow (normalizeAuditItemWindow item collectionStarted collectionEnded)
      collectionStarted collectionEnded).stamps =
      (normalizeAuditItemWindow item collectionStarted collectionEnded).stamps := by
  obtain ⟨hstarted, hended, hpayload, horder⟩ := acceptable_normalize item h
  generalize normalizeAuditItemWindow item collectionStarted collectionEnded = once at *
  have hkept := normalize_keeps once horder
  have hpresent := @payload_normalize once collectionStarted collectionEnded
  have hboth := (acceptable_normalize once h).payload
  generalize normalizeAuditItemWindow once collectionStarted collectionEnded = twice at *
  simp only [ConnectionAuditBucket.stamps, List.forall₂_cons] at hkept ⊢
  obtain ⟨hs, hf, hl, he, -⟩ := hkept
  rw [hs hstarted, he hended]
  by_cases hp : once.payloadFirstAt.isSome
  · rw [hf hp, hl (hpayload ▸ hp)]
  · simp_all

end Instants

/-! ## The texts -/

structure Stamps where
  startedAt : String := ""
  payloadFirstAt : String := ""
  payloadLastAt : String := ""
  endedAt : String := ""
deriving DecidableEq, Repr

namespace Stamps

/-- The bucket with the instants of the texts; none stands for a text that does not parse. -/
def read (s : Stamps) (b : ConnectionAuditBucket) : ConnectionAuditBucket :=
  { b with
    startedAt := parse s.startedAt, payloadFirstAt := parse s.payloadFirstAt
    payloadLastAt := parse s.payloadLastAt, endedAt := parse s.endedAt }

/-- The texts after the instants of the bucket were written; one without an instant stays. -/
def write (s : Stamps) (b : ConnectionAuditBucket) : Stamps where
  startedAt := b.startedAt.elim s.startedAt format
  payloadFirstAt := b.payloadFirstAt.elim s.payloadFirstAt format
  payloadLastAt := b.payloadLastAt.elim s.payloadLastAt format
  endedAt := b.endedAt.elim s.endedAt format

/-- `normalizeAuditItemWindow` on the item's texts. -/
def normalize (s : Stamps) (b : ConnectionAuditBucket) (collectionStarted collectionEnded : Int) :
    Stamps :=
  s.write (normalizeAuditItemWindow (s.read b) collectionStarted collectionEnded)

variable (s : Stamps) (b : ConnectionAuditBucket) {collectionStarted collectionEnded : Int}

theorem write_write : (s.write b).write b = s.write b := by
  have helim : ∀ (o : Option Int) (t : String), o.elim (o.elim t format) format = o.elim t format := by
    intro o t
    cases o <;> rfl
  simp only [write, helim]

theorem write_congr {b b' : ConnectionAuditBucket} (h : b.stamps = b'.stamps) :
    s.write b = s.write b' := by
  simp only [ConnectionAuditBucket.stamps, List.cons.injEq] at h
  simp only [write, h]

/-- **Inside the years of RFC 3339 the texts are the instants.** -/
theorem read_normalize (h : collectionStarted ≤ collectionEnded)
    (hlo : Rfc3339.firstInstant ≤ collectionStarted) (hhi : collectionEnded < Rfc3339.lastInstant) :
    (s.normalize b collectionStarted collectionEnded).read b =
      normalizeAuditItemWindow (s.read b) collectionStarted collectionEnded := by
  have hread : ∀ t, collectionStarted ≤ t → t ≤ collectionEnded → parse (format t) = some t :=
    fun t h₁ h₂ => Rfc3339.parse_format_of_mem (hlo.trans h₁) (lt_of_le_of_lt h₂ hhi)
  unfold normalize normalizeAuditItemWindow write read
  cases hf : parse s.payloadFirstAt <;> cases hl : parse s.payloadLastAt
  case none.none =>
    simp only [Option.or_none, Option.elim_some, hf, hl, Option.elim_none]
    rw [hread _ (by omega) (by omega), hread _ (by omega) (by omega)]
  all_goals
    simp only [Option.or_some, Option.or_none, Option.elim_some]
    rw [hread _ (by omega) (by omega), hread _ (by omega) (by omega), hread _ (by omega) (by omega),
      hread _ (by omega) (by omega)]

/-- **An item leaves in order**, for every window in the years of RFC 3339: the stamps are there and
in order, payload stamps where there was one of them, those in order before keep their instants, and
a second pass changes nothing. -/
theorem normalize_accepted (h : collectionStarted ≤ collectionEnded)
    (hlo : Rfc3339.firstInstant ≤ collectionStarted) (hhi : collectionEnded < Rfc3339.lastInstant) :
    let before := s.read b
    let written := s.normalize b collectionStarted collectionEnded
    let after := written.read b
    Acceptable after collectionStarted collectionEnded ∧
      (after.payloadFirstAt.isSome = (before.payloadFirstAt.isSome || before.payloadLastAt.isSome)) ∧
      (InOrder before collectionStarted collectionEnded →
        List.Forall₂ (fun before after => before.isSome → after = before) before.stamps after.stamps) ∧
      written.normalize b collectionStarted collectionEnded = written := by
  intro before written after
  have hafter : after = normalizeAuditItemWindow before collectionStarted collectionEnded :=
    s.read_normalize b h hlo hhi
  refine ⟨?_, ?_, ?_, ?_⟩
  · rw [hafter]
    exact acceptable_normalize before h
  · rw [hafter]
    exact payload_normalize before
  · rw [hafter]
    exact normalize_keeps before
  · calc written.write (normalizeAuditItemWindow after collectionStarted collectionEnded)
      _ = written.write (normalizeAuditItemWindow before collectionStarted collectionEnded) := by
        rw [hafter]
        exact written.write_congr (stamps_normalize_normalize before h)
      _ = written := s.write_write _

def exampleBucket : ConnectionAuditBucket :=
  { userID := 1, inboundID := 2, pathID := 0, deviceIDHash := "", credentialEpoch := 1
    sourceIP := "192.0.2.1", sourceGeoCode := "", network := "tcp" }

/-- A malformed start, a payload stamp before the window and an end after it. -/
theorem early_window_accepted : let s : Stamps :=
      { startedAt := "yesterday", payloadLastAt := "1970-01-01T00:00:00Z"
        endedAt := "1970-01-01T01:00:10+01:00" }
    let written := s.normalize exampleBucket 1000000000 5000000000
    written = ⟨"1970-01-01T00:00:01Z", "1970-01-01T00:00:01Z", "1970-01-01T00:00:01Z",
        "1970-01-01T00:00:05Z"⟩ ∧
      Acceptable (written.read exampleBucket) 1000000000 5000000000 :=
  ⟨by decide +kernel, (normalize_accepted _ _ (by decide) (by decide +kernel) (by decide +kernel)).1⟩

/-- **Past the year 9999** an end inside the window is written as a text that nobody reads, and a
second pass takes it as missing. -/
theorem ended_in_year_10000 : let s : Stamps :=
      { startedAt := "9999-12-31T23:00:00Z", endedAt := "9999-12-31T23:30:00-01:00" }
    let collectionStarted := Rfc3339.lastInstant - 3600000000000
    let collectionEnded := Rfc3339.lastInstant + 3600000000000
    let once := s.normalize exampleBucket collectionStarted collectionEnded
    InOrder (s.read exampleBucket) collectionStarted collectionEnded ∧
      once.endedAt = "10000-01-01T00:30:00Z" ∧
      (once.read exampleBucket).endedAt = none ∧
      (once.normalize exampleBucket collectionStarted collectionEnded).endedAt =
        "9999-12-31T23:00:00Z" := by
  refine ⟨?_, ?_, ?_, ?_⟩
  · unfold InOrder
    decide +kernel
  all_goals decide +kernel

end Stamps

end OboardAgent.Audit
