import Mathlib.Data.List.Count
import Mathlib.Data.Nat.Digits.Defs

/-!
# Texts that can be read in one way only

What Go programs sign: numbers as `strconv.FormatInt` writes them, strings as `json.Marshal` quotes
them, flat JSON objects, and lines. Each is unambiguous, in the sense that what it was made from can
be told from the text. For what stands in the middle of a longer text this includes where it ends.
-/

namespace Texts

/-! ## Where a part ends -/

variable {r s : List Char} {a : Char}

/-- Two texts of characters that pass a test, each before a character that does not, are the same if
the whole is. -/
theorem cut {p : Char → Bool} {x y : List Char} {c d : Char} (hx : ∀ a ∈ x, p a = true)
    (hy : ∀ a ∈ y, p a = true)
    (hc : p c = false) (hd : p d = false) (h : x ++ c :: r = y ++ d :: s) : x = y ∧ c = d ∧ r = s := by
  have htake : ∀ {x : List Char} {c : Char} {r : List Char}, (∀ a ∈ x, p a = true) → p c = false →
      (x ++ c :: r).takeWhile p = x := by
    intro x c r hx hc
    rw [List.takeWhile_append_of_pos hx]
    simp [hc]
  obtain rfl : x = y := by rw [← htake hx hc, h, htake hy hd]
  exact ⟨rfl, List.cons.inj (List.append_cancel_left h)⟩

/-! ## Numbers -/

/-- `strconv.FormatInt`, to the base 10. -/
def formatInt : Int → List Char
  | .ofNat n => Nat.toDigits 10 n
  | .negSucc n => '-' :: Nat.toDigits 10 (n + 1)

variable (c : Char)

def isNumeric : Bool := c.isDigit || c = '-'

theorem isDigit_of_mem_toDigits {n : Nat} {c : Char} (hc : c ∈ Nat.toDigits 10 n) : c.isDigit = true :=
  Nat.isDigit_of_mem_toDigits (by decide) (by decide) hc

theorem isNumeric_of_mem {n : Int} {c : Char} (hc : c ∈ formatInt n) : isNumeric c = true := by
  unfold isNumeric
  cases n with
  | ofNat n => simp [isDigit_of_mem_toDigits hc]
  | negSucc n =>
    rcases List.mem_cons.mp hc with rfl | hc
    · rfl
    · simp [isDigit_of_mem_toDigits hc]

theorem formatInt_ne_nil (n : Int) : formatInt n ≠ [] := by
  cases n with
  | ofNat n => exact Nat.toDigits_ne_nil
  | negSucc n => exact List.cons_ne_nil _ _

theorem toDigits_inj {m n : Nat} (h : Nat.toDigits 10 m = Nat.toDigits 10 n) : m = n := by
  simpa using congrArg (Nat.ofDigitChars 10 · 0) h

theorem toList_toString (n : Nat) : (toString n).toList = Nat.toDigits 10 n := by
  rw [Nat.toString_eq_repr, Nat.toList_repr]

theorem toString_inj {m n : Nat} (h : toString m = toString n) : m = n :=
  toDigits_inj (by rw [← toList_toString, h, toList_toString])

theorem formatInt_inj {m n : Int} (h : formatInt m = formatInt n) : m = n := by
  have hminus : ∀ (k : Nat) (rest : List Char), Nat.toDigits 10 k ≠ '-' :: rest := by
    intro k rest hk
    have hdigit := isDigit_of_mem_toDigits (hk ▸ List.mem_cons_self : '-' ∈ Nat.toDigits 10 k)
    exact absurd hdigit (by decide)
  cases m with
  | ofNat m =>
    cases n with
    | ofNat n => rw [toDigits_inj h]
    | negSucc n => exact absurd h (hminus _ _)
  | negSucc m =>
    cases n with
    | ofNat n => exact absurd h.symm (hminus _ _)
    | negSucc n =>
      have hdigits := toDigits_inj (List.cons.inj h).2
      rw [Nat.succ.inj hdigits]

/-! ## Strings -/

def hex4 (n : Nat) : List Char :=
  [Nat.digitChar (n / 4096 % 16), Nat.digitChar (n / 256 % 16), Nat.digitChar (n / 16 % 16),
    Nat.digitChar (n % 16)]

/-- The letter after the backslash, for the characters that have one. -/
def shortEscape : Option Char :=
  if c = '"' then some '"'
  else if c = '\\' then some '\\'
  else if c = '\x08' then some 'b'
  else if c = '\x0c' then some 'f'
  else if c = '\n' then some 'n'
  else if c = '\x0d' then some 'r'
  else if c = '\t' then some 't'
  else none

/-- The other characters that are escaped: controls, what matters in HTML, and the two line
separators. -/
def longEscape : Bool :=
  c.toNat < 32 || c = '<' || c = '>' || c = '&' || c.toNat = 0x2028 || c.toNat = 0x2029

/-- One character of a string, as `json.Marshal` writes it. -/
def escape : List Char :=
  match shortEscape c with
  | some letter => ['\\', letter]
  | none => if longEscape c then '\\' :: 'u' :: hex4 c.toNat else [c]

def quote (s : List Char) : List Char := '"' :: (s.flatMap escape ++ ['"'])

theorem digitChar_inj {m n : Nat} (hm : m < 16) (hn : n < 16)
    (h : Nat.digitChar m = Nat.digitChar n) : m = n := by
  have hall : ∀ a b : Fin 16, Nat.digitChar a = Nat.digitChar b → a = b := by decide
  exact congrArg Fin.val (hall ⟨m, hm⟩ ⟨n, hn⟩ h)

theorem hex4_inj {m n : Nat} (hm : m < 65536) (hn : n < 65536) (h : hex4 m = hex4 n) : m = n := by
  simp only [hex4, List.cons.injEq, and_true] at h
  have hdigit : ∀ k, k % 16 < 16 := fun k => Nat.mod_lt k (by decide)
  have h3 := digitChar_inj (hdigit _) (hdigit _) h.1
  have h2 := digitChar_inj (hdigit _) (hdigit _) h.2.1
  have h1 := digitChar_inj (hdigit _) (hdigit _) h.2.2.1
  have h0 := digitChar_inj (hdigit _) (hdigit _) h.2.2.2
  omega

/-- The character that a letter after the backslash stands for. -/
def unescape (letter : Char) : Char :=
  if letter = 'b' then '\x08'
  else if letter = 'f' then '\x0c'
  else if letter = 'n' then '\n'
  else if letter = 'r' then '\x0d'
  else if letter = 't' then '\t'
  else letter

theorem unescape_of_shortEscape {letter : Char} (ha : shortEscape a = some letter) : unescape letter = a := by
  unfold shortEscape at ha
  split_ifs at ha with h h h h h h h <;> cases ha <;> rw [h] <;> rfl

theorem shortEscape_inj {b letter : Char} (ha : shortEscape a = some letter)
    (hb : shortEscape b = some letter) : a = b :=
  (unescape_of_shortEscape ha).symm.trans (unescape_of_shortEscape hb)

theorem shortEscape_ne_u : shortEscape a ≠ some 'u' := by
  unfold shortEscape
  split_ifs <;> decide

theorem shortEscape_ne_newline : shortEscape a ≠ some '\n' := by
  unfold shortEscape
  split_ifs <;> decide

/-- The three ways to write a character. -/
inductive Written (c : Char) : List Char → Prop
  | plain (h : c ≠ '\\') (hquote : c ≠ '"') (hline : c ≠ '\n') : Written c [c]
  | short {letter : Char} (h : shortEscape c = some letter) : Written c ['\\', letter]
  | long (h : c.toNat < 65536) : Written c ('\\' :: 'u' :: hex4 c.toNat)

theorem written_escape : Written c (escape c) := by
  unfold escape
  cases hshort : shortEscape c with
  | some letter => exact .short hshort
  | none =>
    dsimp only
    split_ifs with hlong
    · refine .long ?_
      unfold longEscape at hlong
      simp only [Bool.or_eq_true, decide_eq_true_eq] at hlong
      rcases hlong with ((((h | rfl) | rfl) | rfl) | h) | h
      · omega
      · decide
      · decide
      · decide
      · omega
      · omega
    · refine .plain ?_ ?_ ?_
      all_goals
        rintro rfl
        exact absurd hshort (by decide)

theorem char_eq_of_toNat {b : Char} (h : a.toNat = b.toNat) : a = b := Char.ext (UInt32.toNat_inj.mp h)

theorem Written.cut {b : Char} {x y : List Char} (hx : Written a x) (hy : Written b y) (h : x ++ r = y ++ s) :
    a = b ∧ r = s := by
  cases hx with
  | plain ha _ _ =>
    cases hy with
    | plain hb _ _ => exact List.cons.inj h
    | short hb => exact absurd (List.cons.inj h).1 ha
    | long hb => exact absurd (List.cons.inj h).1 ha
  | short ha =>
    cases hy with
    | plain hb _ _ => exact absurd (List.cons.inj h).1.symm hb
    | short hb =>
      obtain ⟨hletter, hrest⟩ := List.cons.inj (List.cons.inj h).2
      exact ⟨shortEscape_inj (hletter ▸ ha) hb, hrest⟩
    | long hb =>
      obtain ⟨hletter, -⟩ := List.cons.inj (List.cons.inj h).2
      exact absurd (hletter ▸ ha) shortEscape_ne_u
  | long ha =>
    cases hy with
    | plain hb _ _ => exact absurd (List.cons.inj h).1.symm hb
    | short hb =>
      obtain ⟨hletter, -⟩ := List.cons.inj (List.cons.inj h).2
      exact absurd (hletter.symm ▸ hb) shortEscape_ne_u
    | long hb =>
      obtain ⟨hhex, hrest⟩ := List.append_inj (List.cons.inj (List.cons.inj h).2).2 rfl
      exact ⟨char_eq_of_toNat (hex4_inj ha hb hhex), hrest⟩

theorem Written.not_quote {x : List Char} (hx : Written a x) : x ++ r ≠ '"' :: s := by
  intro h
  cases hx with
  | plain _ hquote _ => exact hquote (List.cons.inj h).1
  | short _ => exact absurd (List.cons.inj h).1 (by decide)
  | long _ => exact absurd (List.cons.inj h).1 (by decide)

theorem escaped_cut {a b : List Char}
    (h : a.flatMap escape ++ '"' :: r = b.flatMap escape ++ '"' :: s) : a = b ∧ r = s := by
  induction a generalizing b with
  | nil =>
    cases b with
    | nil => exact ⟨rfl, (List.cons.inj h).2⟩
    | cons y b =>
      rw [List.flatMap_cons, List.append_assoc] at h
      exact absurd h.symm (written_escape y).not_quote
  | cons x a ih =>
    rw [List.flatMap_cons, List.append_assoc] at h
    cases b with
    | nil => exact absurd h (written_escape x).not_quote
    | cons y b =>
      rw [List.flatMap_cons, List.append_assoc] at h
      obtain ⟨rfl, hrest⟩ := (written_escape x).cut (written_escape y) h
      obtain ⟨rfl, hend⟩ := ih hrest
      exact ⟨rfl, hend⟩

/-- **A quoted string can be read in one way.** -/
theorem quote_cut {a b : List Char} (h : quote a ++ r = quote b ++ s) : a = b ∧ r = s := by
  unfold quote at h
  simp only [List.cons_append, List.append_assoc, List.nil_append, List.cons.injEq, true_and] at h
  exact escaped_cut h

theorem digitChar_ne_newline (n : Nat) : Nat.digitChar (n % 16) ≠ '\n' := by
  have hall : ∀ k : Fin 16, Nat.digitChar k ≠ '\n' := by decide
  exact hall ⟨n % 16, Nat.mod_lt n (by decide)⟩

theorem Written.newline_notMem {x : List Char} (hx : Written a x) : '\n' ∉ x := by
  cases hx with
  | plain _ _ hline => simpa using hline.symm
  | @short letter h =>
    have hletter : '\n' ≠ letter := fun heq => shortEscape_ne_newline (heq ▸ h)
    simpa using hletter
  | long _ => simp [hex4, (digitChar_ne_newline _).symm]

theorem newline_notMem_quote (s : List Char) : '\n' ∉ quote s := by
  have hescaped : '\n' ∉ s.flatMap escape := by
    intro h
    obtain ⟨c, -, hc⟩ := List.mem_flatMap.mp h
    exact (written_escape c).newline_notMem hc
  simp [quote, hescaped]

/-! ## Flat objects -/

inductive Value
  | num (n : Int)
  | str (s : String)
  deriving DecidableEq, Repr

def Value.text : Value → List Char
  | .num n => formatInt n
  | .str s => quote s.toList

/-- What may follow a value: another member, or the end of the object. -/
def closes : Prop := c = ',' ∨ c = '}'

theorem closes.not_numeric {c : Char} (hc : closes c) : isNumeric c = false := by
  rcases hc with rfl | rfl <;> rfl

theorem formatInt_ne_quote {n : Int} : formatInt n ++ r ≠ '"' :: s := by
  intro h
  cases hn : formatInt n with
  | nil => exact formatInt_ne_nil n hn
  | cons c rest =>
    rw [hn] at h
    have hc : isNumeric c = true := isNumeric_of_mem (hn ▸ List.mem_cons_self)
    rw [(List.cons.inj h).1] at hc
    exact absurd hc (by decide)

theorem Value.cut {v w : Value} {c d : Char} (hc : closes c) (hd : closes d)
    (h : v.text ++ c :: r = w.text ++ d :: s) : v = w ∧ c = d ∧ r = s := by
  cases v with
  | num m =>
    cases w with
    | num n =>
      obtain ⟨hmn, hend⟩ := Texts.cut (fun _ => isNumeric_of_mem)
        (fun _ => isNumeric_of_mem) hc.not_numeric hd.not_numeric h
      exact ⟨congrArg _ (formatInt_inj hmn), hend⟩
    | str b => exact absurd h formatInt_ne_quote
  | str a =>
    cases w with
    | num n => exact absurd h.symm formatInt_ne_quote
    | str b =>
      obtain ⟨hab, hend⟩ := quote_cut h
      exact ⟨congrArg _ (String.toList_inj.mp hab), List.cons.inj hend⟩

/-- The members of an object, with the brace that closes it. -/
def members : List (String × Value) → List Char
  | [] => ['}']
  | [(k, v)] => quote k.toList ++ ':' :: (v.text ++ ['}'])
  | (k, v) :: m :: rest => quote k.toList ++ ':' :: (v.text ++ ',' :: members (m :: rest))

/-- `json.Marshal` of a structure whose fields are numbers and strings, without those it omits. -/
def marshal (fields : List (String × Value)) : List Char := '{' :: members fields

theorem members_cons (k : String) (v : Value) (rest : List (String × Value)) :
    ∃ c r, closes c ∧ members ((k, v) :: rest) = quote k.toList ++ ':' :: (v.text ++ c :: r) ∧
      ((c = '}' ∧ r = [] ∧ rest = []) ∨ (c = ',' ∧ r = members rest ∧ rest ≠ [])) := by
  cases rest with
  | nil => exact ⟨'}', [], .inr rfl, rfl, .inl ⟨rfl, rfl, rfl⟩⟩
  | cons m rest => exact ⟨',', _, .inl rfl, rfl, .inr ⟨rfl, rfl, List.cons_ne_nil _ _⟩⟩

theorem members_cons_ne {k : String} {v : Value} {rest : List (String × Value)} :
    members ((k, v) :: rest) ≠ members [] := by
  intro h
  obtain ⟨c, r, -, hshape, -⟩ := members_cons k v rest
  rw [hshape] at h
  exact absurd (List.cons.inj h).1 (by decide)

theorem members_inj {a b : List (String × Value)} (h : members a = members b) : a = b := by
  induction a generalizing b with
  | nil =>
    cases b with
    | nil => rfl
    | cons y b => exact absurd h.symm members_cons_ne
  | cons x a ih =>
    cases b with
    | nil => exact absurd h members_cons_ne
    | cons y b =>
      obtain ⟨c, r, hc, hx, hxend⟩ := members_cons x.1 x.2 a
      obtain ⟨d, s, hd, hy, hyend⟩ := members_cons y.1 y.2 b
      rw [show x :: a = (x.1, x.2) :: a from rfl, show y :: b = (y.1, y.2) :: b from rfl, hx, hy] at h
      obtain ⟨hkey, hrest⟩ := quote_cut h
      obtain ⟨hvalue, rfl, rfl⟩ := Value.cut hc hd (List.cons.inj hrest).2
      have hxy : x = y := Prod.ext (String.toList_inj.mp hkey) hvalue
      -- What follows the value says whether there are more members, and which.
      rcases hxend with ⟨rfl, -, rfl⟩ | ⟨rfl, rfl, -⟩
      · rcases hyend with ⟨-, -, rfl⟩ | ⟨hcomma, -, -⟩
        · rw [hxy]
        · exact absurd hcomma (by decide)
      · rcases hyend with ⟨hbrace, -, -⟩ | ⟨-, hmembers, -⟩
        · exact absurd hbrace (by decide)
        · rw [hxy, ih hmembers]

/-- **Different objects have different texts.** -/
theorem marshal_inj {a b : List (String × Value)} (h : marshal a = marshal b) :
    a = b := members_inj (List.cons.inj h).2

theorem Value.newline_notMem (v : Value) : '\n' ∉ v.text := by
  cases v with
  | num n =>
    intro h
    exact absurd (isNumeric_of_mem h) (by decide)
  | str s => exact newline_notMem_quote _

theorem newline_notMem_marshal (fields : List (String × Value)) : '\n' ∉ marshal fields := by
  have hmembers : '\n' ∉ members fields := by
    induction fields with
    | nil => decide
    | cons m rest ih =>
      obtain ⟨c, r, hc, hshape, hend⟩ := members_cons m.1 m.2 rest
      rw [show m :: rest = (m.1, m.2) :: rest from rfl, hshape]
      have hkey := newline_notMem_quote m.1.toList
      have hvalue := m.2.newline_notMem
      rcases hend with ⟨rfl, rfl, -⟩ | ⟨rfl, rfl, -⟩
      · simp [hkey, hvalue]
      · simp [hkey, hvalue, ih]
  simp [marshal, hmembers]

/-! ## Lines -/

/-- `strings.Join(lines, "\n")`. -/
def lines : List (List Char) → List Char
  | [] => []
  | [x] => x
  | x :: y :: rest => x ++ '\n' :: lines (y :: rest)

theorem count_lines (x : List Char) (rest : List (List Char)) :
    (lines (x :: rest)).count '\n' = (x :: rest).flatten.count '\n' + rest.length := by
  induction rest generalizing x with
  | nil => simp [lines]
  | cons y rest ih =>
    have hrest := ih y
    simp only [lines, List.count_append, List.count_cons_self, List.flatten_cons, List.length_cons] at hrest ⊢
    omega

theorem lines_inj_of_plain {a b : List (List Char)} (hlen : a.length = b.length)
    (ha : '\n' ∉ a.flatten) (hb : '\n' ∉ b.flatten) (h : lines a = lines b) : a = b := by
  induction a generalizing b with
  | nil => exact (List.length_eq_zero_iff.mp hlen.symm).symm
  | cons x a ih =>
    cases b with
    | nil => cases hlen
    | cons y b =>
      simp only [List.flatten_cons, List.mem_append, not_or] at ha hb
      cases a with
      | nil =>
        have hb' : b = [] := List.length_eq_zero_iff.mp (by simpa using hlen.symm)
        subst hb'
        rw [show x = y from h]
      | cons x' a =>
        cases b with
        | nil => cases hlen
        | cons y' b =>
          have hnot : ∀ {z : List Char}, '\n' ∉ z → ∀ c ∈ z, (c != '\n') = true := by
            intro z hz c hc
            have hne : c ≠ '\n' := fun heq => hz (heq ▸ hc)
            simp [hne]
          obtain ⟨hxy, -, hrest⟩ := cut (hnot ha.1) (hnot hb.1) (by decide) (by decide) h
          rw [hxy, ih (Nat.succ.inj hlen) ha.2 hb.2 hrest]

/-- **As many lines with the same text are the same lines**, if one side is known to have no line
break in them: the other side's breaks are then all spent between its lines. -/
theorem lines_inj {a b : List (List Char)} (hlen : a.length = b.length) (ha : '\n' ∉ a.flatten)
    (h : lines a = lines b) : a = b := by
  refine lines_inj_of_plain hlen ha ?_ h
  cases a with
  | nil => exact List.length_eq_zero_iff.mp hlen.symm ▸ ha
  | cons x a =>
    cases b with
    | nil => cases hlen
    | cons y b =>
      have hcount := congrArg (List.count '\n') h
      rw [count_lines, count_lines, List.count_eq_zero_of_not_mem ha, Nat.succ.inj hlen] at hcount
      exact List.count_eq_zero.mp (by omega)

theorem newline_mem_lines (x y : List Char) (rest : List (List Char)) : '\n' ∈ lines (x :: y :: rest) := by
  simp [lines]

end Texts
