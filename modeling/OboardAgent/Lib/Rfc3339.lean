import Mathlib.Data.List.DropRight
import Mathlib.Tactic

/-!
# RFC 3339 timestamps, as Go reads and writes them

Timestamps travel through state files and messages as text: `t.UTC().Format(time.RFC3339Nano)`
on the way out, `time.Parse(time.RFC3339Nano, s)` on the way in. This file is both functions
over instants counted in nanoseconds from the Unix epoch, and the one law programs rely on:

> what was formatted is read back as the same instant (`parse_format`).

The reader follows `time.Parse` where it is more liberal than the RFC: the hour may have one
digit, the fraction may start with a comma and have any number of digits (truncated to nine), a
zone offset may say 24 hours or 60 minutes. The writer drops the trailing zeros of the fraction.
A year outside `0 … 9999` is written with a sign or a fifth digit, and the reader refuses it;
so the law needs no hypothesis on the instant.
-/

namespace Rfc3339

/-! ## The calendar

Days are counted from 1 January of year 0 of the proleptic Gregorian calendar. -/

/-- Days in the years before `y`; every fourth is a leap year, every hundredth is not, every
four-hundredth is. -/
def daysBeforeYear (y : Nat) : Nat :=
  365 * y + (y + 3) / 4 - (y + 99) / 100 + (y + 399) / 400

def isLeap (y : Nat) : Bool := y % 4 == 0 && (y % 100 != 0 || y % 400 == 0)

def monthLengths (leap : Bool) : List Nat :=
  [31, if leap then 29 else 28, 31, 30, 31, 30, 31, 31, 30, 31, 30, 31]

/-- The number of the day `y-m-d`, months and days counting from 1. -/
def dayNumber (y m d : Nat) : Nat :=
  daysBeforeYear y + ((monthLengths (isLeap y)).take (m - 1)).sum + (d - 1)

/-- The month and the day within it, of a day counted from the start of the month `m`. -/
def splitMonth : List Nat → Nat → Nat → Nat × Nat
  | [], m, d => (m, d + 1)
  | len :: rest, m, d => if d < len then (m, d + 1) else splitMonth rest (m + 1) (d - len)

/-- The year a day number falls in: the mean year length gives a guess that is off by at most
one. -/
def yearOf (n : Nat) : Nat :=
  let y := n * 400 / 146097
  if n < daysBeforeYear y then y - 1
  else if daysBeforeYear (y + 1) ≤ n then y + 1
  else y

/-- Year, month and day of a day number. -/
def civil (n : Nat) : Nat × Nat × Nat :=
  let y := yearOf n
  let md := splitMonth (monthLengths (isLeap y)) 1 (n - daysBeforeYear y)
  (y, md.1, md.2)

theorem yearOf_spec (n : Nat) :
    daysBeforeYear (yearOf n) ≤ n ∧ n < daysBeforeYear (yearOf n + 1) := by
  unfold yearOf
  simp only
  have hlo : n * 400 / 146097 * 146097 ≤ n * 400 := Nat.div_mul_le_self _ _
  have hhi : n * 400 < (n * 400 / 146097 + 1) * 146097 := by omega
  generalize n * 400 / 146097 = y at *
  split
  · rename_i h
    cases y with
    | zero => simp [daysBeforeYear] at h
    | succ z =>
      simp only [Nat.add_sub_cancel]
      refine ⟨?_, h⟩
      unfold daysBeforeYear
      omega
  · split
    · refine ⟨by assumption, ?_⟩
      unfold daysBeforeYear
      omega
    · constructor <;> omega

theorem ceilDiv_succ (y : Nat) :
    (y + 1 + 3) / 4 = (y + 3) / 4 + (if y % 4 = 0 then 1 else 0) ∧
    (y + 1 + 99) / 100 = (y + 99) / 100 + (if y % 100 = 0 then 1 else 0) ∧
    (y + 1 + 399) / 400 = (y + 399) / 400 + (if y % 400 = 0 then 1 else 0) := by
  refine ⟨?_, ?_, ?_⟩
  · split <;> omega
  · split <;> omega
  · split <;> omega

theorem daysBeforeYear_succ (y : Nat) :
    daysBeforeYear (y + 1) = daysBeforeYear y + (monthLengths (isLeap y)).sum := by
  have hleap : (monthLengths (isLeap y)).sum = if isLeap y then 366 else 365 := by
    cases isLeap y <;> rfl
  have hle : (y + 99) / 100 ≤ 365 * y + (y + 3) / 4 := by omega
  have h400 : y % 400 = 0 → y % 100 = 0 := by omega
  have h100 : y % 100 = 0 → y % 4 = 0 := by omega
  obtain ⟨e4, e100, e400⟩ := ceilDiv_succ y
  rw [hleap, daysBeforeYear, daysBeforeYear, e4, e100, e400]
  generalize (y + 3) / 4 = a, (y + 99) / 100 = b, (y + 399) / 400 = c at hle ⊢
  unfold isLeap
  -- A year is counted by the fourth, the hundredth and the four-hundredth rule independently;
  -- the three agree with `isLeap` because each rule's years are among the previous one's.
  by_cases g4 : y % 4 = 0
  · by_cases g100 : y % 100 = 0
    · by_cases g400 : y % 400 = 0
      · simp [g4, g100, g400]; omega
      · simp [g4, g100, g400]; omega
    · have g400 : ¬ y % 400 = 0 := fun h => g100 (h400 h)
      simp [g4, g100, g400]; omega
  · have g100 : ¬ y % 100 = 0 := fun h => g4 (h100 h)
    have g400 : ¬ y % 400 = 0 := fun h => g100 (h400 h)
    simp [g4, g100, g400]; omega

theorem splitMonth_spec (ls : List Nat) (m d : Nat) (h : d < ls.sum) :
    ∃ i len, ls[i]? = some len ∧ (splitMonth ls m d).1 = m + i ∧
      1 ≤ (splitMonth ls m d).2 ∧ (splitMonth ls m d).2 ≤ len ∧
      (ls.take i).sum + ((splitMonth ls m d).2 - 1) = d := by
  fun_induction splitMonth ls m d with
  | case1 m d => cases h
  | case2 len rest m d hd => exact ⟨0, len, rfl, rfl, by simp, by simpa using hd, by simp⟩
  | case3 len rest m d hd ih =>
    rw [List.sum_cons] at h
    obtain ⟨i, len', hi, hm, h1, h2, hsum⟩ := ih (by omega)
    refine ⟨i + 1, len', by simpa using hi, by omega, h1, h2, ?_⟩
    rw [List.take_succ_cons, List.sum_cons]
    omega

/-- `civil` and `dayNumber` are inverse, and `civil` answers a date the calendar has. -/
theorem civil_spec (n : Nat) {y m d : Nat} (h : civil n = (y, m, d)) :
    dayNumber y m d = n ∧ 1 ≤ m ∧ m ≤ 12 ∧ 1 ≤ d ∧
      ∃ len, (monthLengths (isLeap y))[m - 1]? = some len ∧ d ≤ len := by
  obtain ⟨hlo, hhi⟩ := yearOf_spec n
  unfold civil at h
  simp only [Prod.mk.injEq] at h
  obtain ⟨rfl, rfl, rfl⟩ := h
  have hlt : n - daysBeforeYear (yearOf n) < (monthLengths (isLeap (yearOf n))).sum := by
    rw [daysBeforeYear_succ] at hhi
    omega
  obtain ⟨i, len, hi, hm, h1, h2, hsum⟩ := splitMonth_spec _ 1 _ hlt
  have hi12 : i < 12 := by
    have := (List.getElem?_eq_some_iff.mp hi).1
    simpa [monthLengths] using this
  refine ⟨?_, by omega, by omega, h1, len, ?_, h2⟩
  · unfold dayNumber
    rw [hm, Nat.add_sub_cancel_left]
    omega
  · rw [hm, Nat.add_sub_cancel_left]
    exact hi

/-! ## Digits -/

def isDigit (c : Char) : Bool := '0' ≤ c && c ≤ '9'

def digitVal (c : Char) : Nat := c.toNat - 48

variable (cs : List Char)

def value : Nat := cs.foldl (fun acc c => 10 * acc + digitVal c) 0

/-- A number whose digits must all be there. -/
def number? : Option Nat := if cs.all isDigit then some (value cs) else none

/-- The last `w` decimal digits of `n`. -/
def digits : Nat → Nat → List Char
  | 0, _ => []
  | w + 1, n => digits w (n / 10) ++ [Nat.digitChar (n % 10)]

theorem digitChar_spec {d : Nat} (h : d < 10) :
    isDigit (Nat.digitChar d) = true ∧ digitVal (Nat.digitChar d) = d := by
  have key : ∀ d : Fin 10,
      isDigit (Nat.digitChar d) = true ∧ digitVal (Nat.digitChar d) = d := by decide
  exact key ⟨d, h⟩

theorem value_append_singleton (c : Char) : value (cs ++ [c]) = 10 * value cs + digitVal c := by
  simp [value, List.foldl_append]

theorem value_append_zeros (k : Nat) : value (cs ++ List.replicate k '0') = value cs * 10 ^ k := by
  induction k with
  | zero => simp
  | succ k ih =>
    have hzero : digitVal '0' = 0 := by decide
    rw [List.replicate_succ', ← List.append_assoc, value_append_singleton, ih, hzero, pow_succ]
    ring

@[simp] theorem length_digits (w n : Nat) : (digits w n).length = w := by
  induction w generalizing n with
  | zero => rfl
  | succ w ih => simp [digits, ih]

theorem isDigit_of_mem_digits {w n : Nat} {c : Char} (h : c ∈ digits w n) : isDigit c = true := by
  induction w generalizing n with
  | zero => simp [digits] at h
  | succ w ih =>
    rw [digits, List.mem_append, List.mem_singleton] at h
    rcases h with h | rfl
    · exact ih h
    · exact (digitChar_spec (Nat.mod_lt n (by decide))).1

theorem value_digits {w n : Nat} (h : n < 10 ^ w) : value (digits w n) = n := by
  induction w generalizing n with
  | zero =>
    have : n = 0 := by simpa using h
    simp [digits, value, this]
  | succ w ih =>
    have hdiv : n / 10 < 10 ^ w := by
      rw [pow_succ] at h
      omega
    rw [digits, value_append_singleton, ih hdiv, (digitChar_spec (Nat.mod_lt n (by decide))).2]
    omega

theorem number?_digits {w n : Nat} (h : n < 10 ^ w) : number? (digits w n) = some n := by
  unfold number?
  rw [if_pos (List.all_eq_true.mpr fun c hc => isDigit_of_mem_digits hc), value_digits h]

theorem number?_pair {n : Nat} (h : n < 100) :
    number? [Nat.digitChar (n / 10 % 10), Nat.digitChar (n % 10)] = some n :=
  number?_digits (w := 2) h

/-! ## Reading -/

/-- `getnum(value, false)`: one or two digits. -/
def hourField : List Char → Option (Nat × List Char)
  | a :: b :: rest =>
    if !isDigit a then none
    else if isDigit b then some (value [a, b], rest)
    else some (value [a], b :: rest)
  | [a] => if isDigit a then some (value [a], []) else none
  | [] => none

/-- The nanoseconds of a fraction's digits, truncated after the ninth. -/
def nanos (ds : List Char) : Nat := value (ds.take 9) * 10 ^ (9 - (ds.take 9).length)

/-- The optional fraction of the seconds. -/
def fraction : List Char → Nat × List Char
  | c :: d :: rest =>
    if (c = '.' ∨ c = ',') ∧ isDigit d then
      (nanos ((d :: rest).takeWhile isDigit), (d :: rest).dropWhile isDigit)
    else (0, c :: d :: rest)
  | cs => (0, cs)

/-- The zone, in seconds east of UTC; nothing may follow it. -/
def zone : List Char → Option Int
  | ['Z'] => some 0
  | [sign, h₁, h₂, ':', m₁, m₂] => do
    let hh ← number? [h₁, h₂]
    let mm ← number? [m₁, m₂]
    if 24 < hh ∨ 60 < mm then none
    else if sign = '+' then some (hh * 3600 + mm * 60)
    else if sign = '-' then some (-(hh * 3600 + mm * 60))
    else none
  | _ => none

/-- The clock part, from the hour on: nanoseconds since midnight UTC of the written date. -/
def clock : Option Int := do
  let (hh, rest) ← hourField cs
  match rest with
  | ':' :: m₁ :: m₂ :: ':' :: s₁ :: s₂ :: rest =>
    let mm ← number? [m₁, m₂]
    let ss ← number? [s₁, s₂]
    if 24 ≤ hh ∨ 60 ≤ mm ∨ 60 ≤ ss then none
    else
      let off ← zone (fraction rest).2
      some ((hh * 3600 + mm * 60 + ss - off) * 1000000000 + (fraction rest).1)
  | _ => none

def epochDay : Nat := 719528

def dayNanos : Int := 86400 * 1000000000

def parseChars : List Char → Option Int
  | y₁ :: y₂ :: y₃ :: y₄ :: '-' :: m₁ :: m₂ :: '-' :: d₁ :: d₂ :: 'T' :: rest => do
    let y ← number? [y₁, y₂, y₃, y₄]
    let m ← number? [m₁, m₂]
    let d ← number? [d₁, d₂]
    let len ← if m = 0 then none else (monthLengths (isLeap y))[m - 1]?
    if d = 0 ∨ len < d then none
    else
      let t ← clock rest
      some (((dayNumber y m d : Int) - epochDay) * dayNanos + t)
  | _ => none

/-- `time.Parse(time.RFC3339Nano, s)`, in nanoseconds since the Unix epoch. -/
def parse (s : String) : Option Int := parseChars s.toList

/-! ## Writing -/

/-- The fraction of the seconds, without its trailing zeros. -/
def fractionChars (ns : Nat) : List Char :=
  if ns = 0 then [] else '.' :: (digits 9 ns).rdropWhile (· = '0')

/-- The year: four digits, more when it needs them, a sign when it is negative. -/
def yearChars (y : Int) : List Char :=
  if y < 0 then '-' :: (digits 4 y.natAbs)
  else if y < 10000 then digits 4 y.toNat
  else (toString (y.toNat / 10000)).toList ++ digits 4 (y.toNat % 10000)

/-- Year, month and day of a day that may lie before year 0, by whole 400-year cycles. -/
def civilInt (n : Int) : Int × Nat × Nat :=
  let k := if n < 0 then (-n) / 146097 + 1 else 0
  let c := civil (n + 146097 * k).toNat
  ((c.1 : Int) - 400 * k, c.2.1, c.2.2)

def formatChars (t : Int) : List Char :=
  let c := civilInt (t / dayNanos + epochDay)
  let ns := (t % dayNanos).toNat
  let s := ns / 1000000000
  yearChars c.1 ++ '-' :: digits 2 c.2.1 ++ '-' :: digits 2 c.2.2 ++ 'T' ::
    digits 2 (s / 3600) ++ ':' :: digits 2 (s / 60 % 60) ++ ':' :: digits 2 (s % 60) ++
    fractionChars (ns % 1000000000) ++ ['Z']

/-- `t.UTC().Format(time.RFC3339Nano)`. -/
def format (t : Int) : String := String.ofList (formatChars t)

/-! ## Reading what was written -/

theorem zone_Z : zone ['Z'] = some 0 := rfl

theorem digits_eq_trim_append_zeros (ns : Nat) :
    ∃ k, digits 9 ns = (digits 9 ns).rdropWhile (· = '0') ++ List.replicate k '0' := by
  have hzeros : (digits 9 ns).rtakeWhile (· = '0')
      = List.replicate ((digits 9 ns).rtakeWhile (· = '0')).length '0' := by
    refine List.eq_replicate_of_mem fun c hc => ?_
    simpa using List.mem_rtakeWhile_imp hc
  refine ⟨((digits 9 ns).rtakeWhile (· = '0')).length, ?_⟩
  rw [← hzeros]
  exact (List.rdropWhile_append_rtakeWhile (p := (· = '0')) (l := digits 9 ns)).symm

theorem fraction_fractionChars {ns : Nat} (h : ns < 1000000000) :
    fraction (fractionChars ns ++ ['Z']) = (ns, ['Z']) := by
  unfold fractionChars
  by_cases h0 : ns = 0
  · rw [if_pos h0, h0]
    rfl
  rw [if_neg h0]
  obtain ⟨k, hk⟩ := digits_eq_trim_append_zeros ns
  generalize (digits 9 ns).rdropWhile (· = '0') = kept at hk ⊢
  have hlen : kept.length + k = 9 := by
    have := congrArg List.length hk
    simpa using this.symm
  have hval : value kept * 10 ^ k = ns := by
    rw [← value_append_zeros, ← hk]
    exact value_digits (by simpa using h)
  have hdig : ∀ c ∈ kept, isDigit c = true := fun c hc =>
    isDigit_of_mem_digits (w := 9) (n := ns) (hk ▸ List.mem_append_left _ hc)
  cases kept with
  | nil =>
    -- No digit is kept only when all nine are zero.
    simp [value] at hval
    exact absurd hval.symm h0
  | cons c rest =>
    have hc : isDigit c = true := hdig c List.mem_cons_self
    have hZ : isDigit 'Z' = false := by decide
    have htake : (c :: (rest ++ ['Z'])).takeWhile isDigit = c :: rest := by
      rw [← List.cons_append, List.takeWhile_append_of_pos hdig]
      simp [hZ]
    have hdrop : (c :: (rest ++ ['Z'])).dropWhile isDigit = ['Z'] := by
      rw [← List.cons_append, List.dropWhile_append_of_pos hdig]
      simp [hZ]
    have hnanos : nanos (c :: rest) = ns := by
      have hle : (c :: rest).length ≤ 9 := by omega
      have hk' : 9 - (c :: rest).length = k := by omega
      rw [nanos, List.take_of_length_le hle, hk', hval]
    simp only [List.cons_append, fraction, true_or, hc, and_self, if_true, htake, hdrop, hnanos]

theorem hourField_digits {hh : Nat} (h : hh < 100) (rest : List Char) :
    hourField (digits 2 hh ++ rest) = some (hh, rest) := by
  have h1 := (digitChar_spec (Nat.mod_lt (hh / 10) (by decide : 0 < 10))).1
  have h2 := (digitChar_spec (Nat.mod_lt hh (by decide : 0 < 10))).1
  have hv : value [Nat.digitChar (hh / 10 % 10), Nat.digitChar (hh % 10)] = hh := value_digits (w := 2) h
  simp [digits, hourField, h1, h2, hv]

theorem clock_written {hh mm ss ns : Nat} (h₁ : hh < 24) (h₂ : mm < 60) (h₃ : ss < 60)
    (h₄ : ns < 1000000000) :
    clock (digits 2 hh ++ ':' :: digits 2 mm ++ ':' :: digits 2 ss ++ fractionChars ns ++ ['Z'])
      = some (((hh * 3600 + mm * 60 + ss : Nat) : Int) * 1000000000 + ns) := by
  have hm := number?_pair (n := mm) (by omega)
  have hs := number?_pair (n := ss) (by omega)
  have hf := fraction_fractionChars h₄
  have hrange : ¬ (24 ≤ hh ∨ 60 ≤ mm ∨ 60 ≤ ss) := by omega
  unfold clock
  simp only [List.append_assoc, List.cons_append]
  rw [hourField_digits (by omega)]
  simp [digits, hm, hs, hf, hrange, zone_Z]

theorem parse_written {y m d : Nat} {rest : List Char} {len : Nat} (hy : y < 10000) (hm : 1 ≤ m)
    (hm12 : m ≤ 12) (hd : 1 ≤ d) (hlen : (monthLengths (isLeap y))[m - 1]? = some len)
    (hdl : d ≤ len) :
    parseChars (digits 4 y ++ '-' :: digits 2 m ++ '-' :: digits 2 d ++ 'T' :: rest)
      = (clock rest).map fun t => ((dayNumber y m d : Int) - epochDay) * dayNanos + t := by
  have hl31 : len ≤ 31 := by
    have hmem : len ∈ monthLengths (isLeap y) := List.mem_of_getElem? hlen
    have hall : ∀ leap : Bool, ∀ l ∈ monthLengths leap, l ≤ 31 := by decide
    exact hall _ _ hmem
  have ey : number? [Nat.digitChar (y / 10 / 10 / 10 % 10), Nat.digitChar (y / 10 / 10 % 10),
      Nat.digitChar (y / 10 % 10), Nat.digitChar (y % 10)] = some y := number?_digits (w := 4) hy
  have em := number?_pair (n := m) (by omega)
  have ed := number?_pair (n := d) (by omega)
  have hm0 : m ≠ 0 := by omega
  have hd0 : ¬ (d = 0 ∨ len < d) := by omega
  simp [digits, parseChars, ey, em, ed, hm0, hlen, hd0]
  cases clock rest <;> rfl

theorem parseChars_some {cs : List Char} {u : Int} (h : parseChars cs = some u) :
    ∃ y₁ rest, cs = y₁ :: rest ∧ isDigit y₁ = true ∧ cs[4]? = some '-' := by
  unfold parseChars at h
  split at h
  · rename_i y₁ y₂ y₃ y₄ m₁ m₂ d₁ d₂ rest
    refine ⟨y₁, _, rfl, ?_, rfl⟩
    by_cases hall : [y₁, y₂, y₃, y₄].all isDigit = true
    · exact List.all_eq_true.mp hall y₁ List.mem_cons_self
    · simp [number?, hall] at h
  · cases h

theorem isDigit_of_mem_toString {n : Nat} {c : Char} (h : c ∈ (toString n).toList) :
    isDigit c = true := by
  have hd : c.isDigit = true :=
    Nat.isDigit_of_mem_toDigits (b := 10) (n := n) (by decide) (by decide)
      (by simpa [Nat.repr] using h)
  simpa [isDigit, Char.isDigit, Char.le_def] using hd

theorem parseChars_year_out {y : Int} {rest : List Char} (h : y < 0 ∨ 10000 ≤ y) :
    parseChars (yearChars y ++ rest) = none := by
  cases hp : parseChars (yearChars y ++ rest) with
  | none => rfl
  | some u =>
    obtain ⟨y₁, tail, hcs, hdig, hdash⟩ := parseChars_some hp
    unfold yearChars at hcs hdash
    rcases h with hneg | hbig
    · rw [if_pos hneg, List.cons_append] at hcs
      injection hcs with hy₁ _
      rw [← hy₁] at hdig
      exact absurd hdig (by decide)
    · rw [if_neg (by omega), if_neg (by omega)] at hdash
      -- The first five characters are digits, so the fifth is not the dash.
      have hlen : 4 < ((toString (y.toNat / 10000)).toList ++ digits 4 (y.toNat % 10000)).length := by
        have hne : (toString (y.toNat / 10000)).toList ≠ [] := by
          simp [Nat.repr, Nat.toDigits_ne_nil]
        have := List.length_pos_iff.mpr hne
        simp only [List.length_append, length_digits]
        omega
      rw [List.getElem?_append_left hlen] at hdash
      have hmem := List.mem_of_getElem? hdash
      rcases List.mem_append.mp hmem with hm | hm
      · exact absurd (isDigit_of_mem_toString hm) (by decide)
      · exact absurd (isDigit_of_mem_digits hm) (by decide)

theorem daysBeforeYear_mono : Monotone daysBeforeYear :=
  monotone_nat_of_le_succ fun y => by
    rw [daysBeforeYear_succ]
    exact Nat.le_add_right _ _

theorem yearOf_lt {n y : Nat} (h : n < daysBeforeYear y) : yearOf n < y := by
  by_contra hle
  have hmono := daysBeforeYear_mono (Nat.le_of_not_lt hle)
  have hspec := (yearOf_spec n).1
  omega

theorem civilInt_neg {n : Int} (h : n < 0) : (civilInt n).1 < 0 := by
  unfold civilInt civil
  simp only [h, if_true]
  have hcycle : ∀ k : Nat, daysBeforeYear (400 * k) = 146097 * k := by
    intro k
    unfold daysBeforeYear
    omega
  obtain ⟨k, hk⟩ : ∃ k : Nat, (-n) / 146097 + 1 = k := ⟨_, (Int.toNat_of_nonneg (by omega)).symm⟩
  have hlt : yearOf (n + 146097 * (-n / 146097 + 1)).toNat < 400 * k := by
    refine yearOf_lt ?_
    rw [hcycle]
    omega
  omega

theorem parse_format_of_year {t : Int} (h0 : 0 ≤ (civilInt (t / dayNanos + epochDay)).1)
    (h1 : (civilInt (t / dayNanos + epochDay)).1 < 10000) : parse (format t) = some t := by
  have hn : 0 ≤ t / dayNanos + epochDay := by
    by_contra hneg
    have := civilInt_neg (Int.not_le.mp hneg)
    omega
  have hc : civilInt (t / dayNanos + epochDay) =
      (((civil (t / dayNanos + epochDay).toNat).1 : Int),
        (civil (t / dayNanos + epochDay).toNat).2) := by
    simp [civilInt, Int.not_lt.mpr hn]
  obtain ⟨⟨y, m, d⟩, hymd⟩ : ∃ c, civil (t / dayNanos + epochDay).toNat = c := ⟨_, rfl⟩
  obtain ⟨hday, hm1, hm12, hd1, len, hlen, hdl⟩ := civil_spec _ hymd
  rw [hc, hymd] at h0 h1
  have hy : y < 10000 := by simpa using h1
  have hns : 0 ≤ t % dayNanos ∧ t % dayNanos < dayNanos := by
    unfold dayNanos
    omega
  unfold parse format formatChars
  rw [String.toList_ofList, hc, hymd]
  have hyear : yearChars (y : Int) = digits 4 y := by
    unfold yearChars
    rw [if_neg (by omega), if_pos (by omega), Int.toNat_natCast]
  simp only [hyear]
  generalize hs : (t % dayNanos).toNat = ns at *
  have hlt : ns < 86400 * 1000000000 := by
    unfold dayNanos at hns hs
    omega
  have hclock := @clock_written (ns / 1000000000 / 3600) (ns / 1000000000 / 60 % 60)
    (ns / 1000000000 % 60) (ns % 1000000000) (by omega) (by omega) (by omega) (by omega)
  have hparse := fun rest => @parse_written y m d rest len hy hm1 hm12 hd1 hlen hdl
  simp only [List.append_assoc, List.cons_append] at hclock hparse ⊢
  rw [hparse, hclock, Option.map_some, Option.some.injEq, hday]
  unfold dayNanos epochDay at *
  omega

/-- The first instant of the year 0. -/
def firstInstant : Int := -epochDay * dayNanos

/-- The first instant that has no text: the year 10000. -/
def lastInstant : Int := (daysBeforeYear 10000 - epochDay) * dayNanos

theorem parse_format_of_mem {t : Int} (h₀ : firstInstant ≤ t) (h₁ : t < lastInstant) :
    parse (format t) = some t := by
  unfold firstInstant lastInstant at *
  have hn : 0 ≤ t / dayNanos + epochDay ∧ t / dayNanos + epochDay < daysBeforeYear 10000 := by
    unfold dayNanos at *
    omega
  have hyear : (civilInt (t / dayNanos + epochDay)).1 =
      (yearOf (t / dayNanos + epochDay).toNat : Int) := by
    simp [civilInt, civil, Int.not_lt.mpr hn.1]
  have hlt : yearOf (t / dayNanos + epochDay).toNat < 10000 := yearOf_lt (by omega)
  refine parse_format_of_year ?_ ?_ <;> omega

/-- **What was formatted is read back as the same instant**, or not at all. -/
theorem parse_format {t u : Int} (h : parse (format t) = some u) : u = t := by
  by_cases hy : 0 ≤ (civilInt (t / dayNanos + epochDay)).1 ∧
      (civilInt (t / dayNanos + epochDay)).1 < 10000
  · rw [parse_format_of_year hy.1 hy.2, Option.some.injEq] at h
    exact h.symm
  · unfold parse format at h
    rw [String.toList_ofList] at h
    unfold formatChars at h
    simp only [List.append_assoc] at h
    rw [parseChars_year_out (by omega)] at h
    cases h

end Rfc3339
