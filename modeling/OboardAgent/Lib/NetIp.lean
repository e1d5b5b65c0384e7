import Mathlib.Data.List.TakeWhile
import Mathlib.Tactic.IntervalCases

/-!
# IP addresses

The part of Go's `net/netip` that address policies use: addresses with their classes, prefixes, and
the text form with its parser. The main result about the text is that the parser reads back what was
printed.

An IPv6 address is its eight groups. An address that holds an IPv4 address in the IPv6 form is not
that IPv4 address until it is unmapped.
-/

namespace NetIp

/-! The sizes of a byte and of a group, for literals. -/

instance neZero_byte : NeZero 256 := ⟨by decide⟩

instance neZero_group : NeZero 65536 := ⟨by decide⟩

structure V4 where
  a : Fin 256
  b : Fin 256
  c : Fin 256
  d : Fin 256
  deriving DecidableEq, Repr

structure V6 where
  groups : List (Fin 65536)
  length_eq : groups.length = 8
  deriving DecidableEq

/-- `netip.Addr`. No zone is the empty one. -/
inductive Addr
  | invalid
  | v4 (ip : V4)
  | v6 (ip : V6) (zone : String)
  deriving DecidableEq

def V4.toNat (ip : V4) : Nat := ((ip.a * 256 + ip.b) * 256 + ip.c) * 256 + ip.d

variable (ip : V6)

def V6.toNat : Nat := ip.groups.foldl (fun n g => n * 65536 + g.val) 0

def V6.group (i : Nat) : Nat := (ip.groups.getD i 0).val

/-! ## Classes -/

def V6.is4In6 : Bool := ip.groups.take 6 = [0, 0, 0, 0, 0, 65535]

/-- The IPv4 address in the last two groups. -/
def V6.last4 : V4 where
  a := Fin.ofNat 256 (ip.group 6 / 256)
  b := Fin.ofNat 256 (ip.group 6)
  c := Fin.ofNat 256 (ip.group 7 / 256)
  d := Fin.ofNat 256 (ip.group 7)

def Addr.unmap : Addr → Addr
  | .v6 ip zone => if ip.is4In6 then .v4 ip.last4 else .v6 ip zone
  | a => a

@[simp] theorem unmap_unmap (a : Addr) : a.unmap.unmap = a.unmap := by
  cases a with
  | invalid => rfl
  | v4 ip => rfl
  | v6 ip zone =>
    by_cases h : ip.is4In6 = true
    · simp [Addr.unmap, h]
    · simp [Addr.unmap, h]

def unspecified4 : V4 := ⟨0, 0, 0, 0⟩
def broadcast4 : V4 := ⟨255, 255, 255, 255⟩
def unspecified6 : V6 := ⟨[0, 0, 0, 0, 0, 0, 0, 0], rfl⟩

def Addr.isValid : Addr → Bool
  | .invalid => false
  | _ => true

def Addr.is4 : Addr → Bool
  | .v4 _ => true
  | _ => false

/-- The unspecified addresses have no zone. -/
def Addr.isUnspecified (a : Addr) : Bool := a = .v4 unspecified4 || a = .v6 unspecified6 ""

def Addr.isLoopback : Addr → Bool
  | .invalid => false
  | .v4 ip => ip.a = 127
  | .v6 ip _ => ip.groups = [0, 0, 0, 0, 0, 0, 0, 1]

def Addr.isMulticast : Addr → Bool
  | .invalid => false
  | .v4 ip => ip.a.val / 16 = 0xe
  | .v6 ip _ => ip.group 0 / 256 = 0xff

def Addr.isLinkLocalUnicast : Addr → Bool
  | .invalid => false
  | .v4 ip => ip.a = 169 && ip.b = 254
  | .v6 ip _ => ip.group 0 / 64 = 0x3fa

def Addr.isLinkLocalMulticast : Addr → Bool
  | .invalid => false
  | .v4 ip => ip.a = 224 && ip.b = 0 && ip.c = 0
  | .v6 ip _ => ip.group 0 / 256 = 0xff && ip.group 0 % 16 = 2

def Addr.isPrivate : Addr → Bool
  | .invalid => false
  | .v4 ip => ip.a = 10 || (ip.a = 172 && ip.b.val / 16 = 1) || (ip.a = 192 && ip.b = 168)
  | .v6 ip _ => ip.group 0 / 512 = 0x7e

def Addr.isGlobalUnicast (a : Addr) : Bool :=
  a.isValid && a ≠ .v4 unspecified4 && a ≠ .v4 broadcast4 && a
    ≠ .v6 unspecified6 "" && !a.isLoopback && !a.isMulticast &&
    !a.isLinkLocalUnicast

theorem isMulticast_of_linkLocal {a : Addr} (h : a.isLinkLocalMulticast = true) :
    a.isMulticast = true := by
  cases a with
  | invalid => exact h
  | v4 ip =>
    simp only [Addr.isLinkLocalMulticast, Bool.and_eq_true, decide_eq_true_eq] at h
    rw [Addr.isMulticast, h.1.1]
    rfl
  | v6 ip zone =>
    simp only [Addr.isLinkLocalMulticast, Bool.and_eq_true, decide_eq_true_eq] at h
    simp [Addr.isMulticast, h.1]

theorem class_of_globalUnicast {a : Addr} (h : a.isGlobalUnicast = true) :
    a.isUnspecified = false ∧ a.isLinkLocalUnicast = false ∧ a.isLinkLocalMulticast = false ∧
      a.isMulticast = false := by
  simp only [Addr.isGlobalUnicast, Bool.and_eq_true, decide_eq_true_eq, Bool.not_eq_eq_eq_not,
    Bool.not_true] at h
  obtain ⟨⟨⟨⟨⟨⟨-, h4⟩, -⟩, h6⟩, -⟩, hmulticast⟩, hlink⟩ := h
  refine ⟨?_, hlink, ?_, hmulticast⟩
  · simp [Addr.isUnspecified, h4, h6]
  · cases hlocal : a.isLinkLocalMulticast with
    | false => rfl
    | true => rw [isMulticast_of_linkLocal hlocal] at hmulticast; exact hmulticast

/-! ## Prefixes -/

/-- `netip.Prefix`, as an address and the number of its bits that count. -/
structure Net where
  addr : Addr
  bits : Nat
  deriving DecidableEq

/-- `Prefix.Contains`: an address with a zone is in none. -/
def Net.contains (p : Net) (a : Addr) : Bool :=
  match p.addr, a with
  | .v4 base, .v4 ip => ip.toNat / 2 ^ (32 - p.bits) = base.toNat / 2 ^ (32 - p.bits)
  | .v6 base _, .v6 ip zone => zone = "" && ip.toNat / 2 ^ (128 - p.bits)
      = base.toNat / 2 ^ (128 - p.bits)
  | _, _ => false

/-! ## The text of an address -/

/-- `appendDecimal`. -/
def decimal (x : Fin 256) : List Char :=
  (if 100 ≤ x.val then [Nat.digitChar (x / 100)] else []) ++
    (if 10 ≤ x.val then [Nat.digitChar (x / 10 % 10)] else []) ++
    [Nat.digitChar (x % 10)]

/-- `appendHex`: a group has as many digits as it needs. -/
def hexDigits (x : Nat) : List Nat :=
  (if 0x1000 ≤ x then [x / 4096] else []) ++ (if 0x100 ≤ x then [x / 256 % 16] else []) ++
    (if 0x10 ≤ x then [x / 16 % 16] else []) ++ [x % 16]

variable (x : Fin 65536)

def hex : List Char := (hexDigits x.val).map Nat.digitChar

def V4.text (ip : V4) : List Char :=
  ['.'].intercalate [decimal ip.a, decimal ip.b, decimal ip.c, decimal ip.d]

variable (gs : List (Fin 65536))

def hexes : List Char := [':'].intercalate (gs.map hex)

/-- How many groups from an index on are zero. -/
def zerosFrom (i : Nat) : Nat := ((gs.drop i).takeWhile (· = 0)).length

/-- The longest run of at least two zero groups, the first of them if there are several: where it
starts, and its length. -/
def zeroRun : Option (Nat × Nat) :=
  (List.range 8).foldl (fun best i =>
    if 2 ≤ zerosFrom gs i ∧ (best.map Prod.snd).getD 0
      < zerosFrom gs i then some (i, zerosFrom gs i) else best) none

def V6.text : List Char :=
  match zeroRun ip.groups with
  | some (start, len) => hexes (ip.groups.take start) ++ [':', ':'] ++ hexes
      (ip.groups.drop (start + len))
  | none => hexes ip.groups

def zoneText (zone : String) : List Char := if zone = "" then [] else '%' :: zone.toList

/-- `Addr.String`. -/
def Addr.text : Addr → List Char
  | .invalid => "invalid IP".toList
  | .v4 ip => ip.text
  | .v6 ip zone => (if ip.is4In6 then "::ffff:".toList ++ ip.last4.text else ip.text) ++
      zoneText zone

def Addr.zone : Addr → String
  | .v6 _ zone => zone
  | _ => ""

theorem Addr.text_v4 (ip : V4) : (Addr.v4 ip).text = ip.text := rfl

theorem Addr.text_v6 (zone : String) :
    (Addr.v6 ip zone).text = (if ip.is4In6 then "::ffff:".toList ++ ip.last4.text else ip.text) ++
      zoneText zone := rfl

/-! ## Reading it -/

def digitVal (c : Char) : Nat := c.toNat - 48

variable (cs : List Char)

/-- One field of an IPv4 address: no leading zero, at most 255. -/
def octet? : Option (Fin 256) :=
  let value := cs.foldl (fun n c => n * 10 + digitVal c) 0
  if cs ≠ [] ∧ cs.all Char.isDigit ∧ (cs.head? = some '0' → cs.length = 1) ∧
    value ≤ 255 then some (Fin.ofNat 256 value) else none

def parseIPv4Fields : Option V4 :=
  match (cs.splitOn '.').map octet? with
  | [some a, some b, some c, some d] => some ⟨a, b, c, d⟩
  | _ => none

def hexVal? (c : Char) : Option Nat :=
  if c.isDigit then some (c.toNat - 48)
  else if 'a' ≤ c ∧ c ≤ 'f' then some (c.toNat - 87)
  else if 'A' ≤ c ∧ c ≤ 'F' then some (c.toNat - 55)
  else none

def isHex (c : Char) : Bool := (hexVal? c).isSome

def hexValue : Nat := cs.foldl (fun n c => n * 16 + (hexVal? c).getD 0) 0

/-- The groups of an IPv4 address at the end of an IPv6 one. -/
def V4.groups (ip : V4) : List (Fin 65536) :=
  [Fin.ofNat 65536 (ip.a * 256 + ip.b), Fin.ofNat 65536 (ip.c * 256 + ip.d)]

/-- The loop of `parseIPv6`: the groups so far, and how many of them there were at the ellipsis. -/
def groupsLoop : Nat → List (Fin 65536) → Option Nat → List Char →
    Option (List (Fin 65536) × Option Nat × List Char)
  | 0, gs, ellipsis, cs => some (gs, ellipsis, cs)
  | fuel + 1, gs, ellipsis, cs =>
    let digits := cs.takeWhile isHex
    if digits = [] ∨ 4 < digits.length then none
    else
      match cs.dropWhile isHex with
      | [] => some (gs ++ [Fin.ofNat 65536 (hexValue digits)], ellipsis, [])
      | '.' :: _ =>
        if (ellipsis = none ∧ gs.length ≠ 6) ∨ 6 < gs.length then none
        else (parseIPv4Fields cs).map fun ip => (gs ++ ip.groups, ellipsis, [])
      | ':' :: ':' :: rest =>
        if ellipsis.isSome then none
        else if rest = [] then some (gs ++ [Fin.ofNat 65536 (hexValue digits)],
          some (gs.length + 1), [])
        else groupsLoop fuel (gs ++ [Fin.ofNat 65536 (hexValue digits)]) (some (gs.length + 1)) rest
      | ':' :: c :: rest => groupsLoop fuel (gs ++ [Fin.ofNat 65536 (hexValue digits)])
          ellipsis (c :: rest)
      | _ => none

/-- What follows the loop: nothing may be left, and the ellipsis stands for at least one group. -/
def expand : List (Fin 65536) × Option Nat × List Char → Option (List (Fin 65536))
  | (gs, some n, []) => if gs.length < 8
      then some (gs.take n ++ List.replicate (8 - gs.length) 0 ++ gs.drop n) else none
  | (gs, none, []) => some gs
  | _ => none

def parseGroups : Option (List (Fin 65536)) :=
  match cs with
  | [':', ':'] => some (List.replicate 8 0)
  | ':' :: ':' :: rest => (groupsLoop 8 [] (some 0) rest).bind expand
  | _ => (groupsLoop 8 [] none cs).bind expand

def v6? : Option V6 := if h : gs.length = 8 then some ⟨gs, h⟩ else none

def parseIPv6 : Option Addr :=
  let head := cs.takeWhile (· ≠ '%')
  match cs.dropWhile (· ≠ '%') with
  | [] => ((parseGroups head).bind v6?).map (Addr.v6 · "")
  | _ :: zone => if zone = [] then none else ((parseGroups head).bind v6?).map
      (Addr.v6 · (String.ofList zone))

def isSign (c : Char) : Bool := c = '.' || c = ':' || c = '%'

/-- `netip.ParseAddr`: the first dot, colon or percent sign says what to expect. -/
def parseAddr : Option Addr :=
  match cs.find? isSign with
  | some '.' => (parseIPv4Fields cs).map .v4
  | some ':' => parseIPv6 cs
  | _ => none

/-! ## What was printed is read back -/

theorem octet_decimal : ∀ x : Fin 256, octet? (decimal x) = some x := by decide +kernel

theorem dot_notMem_decimal : ∀ x : Fin 256, '.' ∉ decimal x := by decide +kernel

theorem isDigit_decimal : ∀ x : Fin 256, (decimal x).all Char.isDigit = true := by decide +kernel

theorem parseIPv4Fields_text (ip : V4) : parseIPv4Fields ip.text = some ip := by
  have hsplit : ip.text.splitOn '.' = [decimal ip.a, decimal ip.b, decimal ip.c, decimal ip.d] := by
    apply List.splitOn_intercalate
    · intro l hl
      simp only [List.mem_cons, List.not_mem_nil, or_false] at hl
      rcases hl with rfl | rfl | rfl | rfl <;> exact dot_notMem_decimal _
    · exact List.cons_ne_nil _ _
  simp only [parseIPv4Fields, hsplit, List.map_cons, List.map_nil, octet_decimal]

theorem hexVal_digitChar : ∀ n : Fin 16, hexVal? (Nat.digitChar n) = some n.val := by decide

theorem hexVal_digit {n : Nat} (h : n < 16) :
    hexVal? (Nat.digitChar n) = some n := hexVal_digitChar ⟨n, h⟩

theorem isHex_digit {n : Nat} (h : n < 16) : isHex (Nat.digitChar n) = true := by
  simp [isHex, hexVal_digit h]

theorem hexDigits_ne_nil (x : Nat) : hexDigits x ≠ [] := by
  simp [hexDigits]

theorem length_hexDigits_le (x : Nat) : (hexDigits x).length ≤ 4 := by
  unfold hexDigits
  split_ifs <;> simp

theorem lt_of_mem_hexDigits {x d : Nat} (hx : x < 65536) (hd : d ∈ hexDigits x) : d < 16 := by
  unfold hexDigits at hd
  split_ifs at hd <;> simp at hd <;> omega

theorem value_hexDigits {x : Nat} (hx : x < 65536) :
    (hexDigits x).foldl (fun n d => n * 16 + d) 0 = x := by
  unfold hexDigits
  split_ifs <;> simp <;> omega

theorem isHex_of_mem_hex {x : Fin 65536} {c : Char} (hc : c ∈ hex x) : isHex c = true := by
  obtain ⟨d, hd, rfl⟩ := List.mem_map.mp hc
  exact isHex_digit (lt_of_mem_hexDigits x.isLt hd)

theorem hexValue_map {ds : List Nat} (h : ∀ d ∈ ds, d < 16) :
    hexValue (ds.map Nat.digitChar) = ds.foldl (fun n d => n * 16 + d) 0 := by
  have hfrom : ∀ n, (ds.map Nat.digitChar).foldl (fun n c => n * 16 + (hexVal? c).getD 0) n
      = ds.foldl (fun n d => n * 16 + d) n := by
    induction ds with
    | nil => intro n; rfl
    | cons d ds ih =>
      intro n
      simp only [List.map_cons, List.foldl_cons, hexVal_digit (h d List.mem_cons_self),
        Option.getD_some]
      exact ih (fun e he => h e (List.mem_cons_of_mem _ he)) _
  exact hfrom 0

theorem hexValue_hex : Fin.ofNat 65536 (hexValue (hex x)) = x := by
  rw [hex, hexValue_map (fun d => lt_of_mem_hexDigits x.isLt), value_hexDigits x.isLt]
  exact Fin.ofNat_val_eq_self x

section Loop

variable (fuel : Nat) (gs : List (Fin 65536)) (ellipsis : Option Nat) (x : Fin 65536)
  (rest : List Char)

theorem takeWhile_hex (hrest : ∀ c ∈ rest.head?, isHex c = false) :
    (hex x ++ rest).takeWhile isHex = hex x ∧ (hex x ++ rest).dropWhile isHex = rest := by
  have hall : ∀ c ∈ hex x, isHex c = true := fun c => isHex_of_mem_hex
  have hstop : rest.takeWhile isHex = [] ∧ rest.dropWhile isHex = rest := by
    cases rest with
    | nil => exact ⟨rfl, rfl⟩
    | cons c rest => simp [hrest c rfl]
  rw [List.takeWhile_append_of_pos hall, List.dropWhile_append_of_pos hall, hstop.1, hstop.2,
    List.append_nil]
  exact ⟨rfl, rfl⟩

/-! One step of the loop, by what follows the group. -/

theorem hex_length : ¬(hex x = [] ∨ 4 < (hex x).length) := by
  have hle := length_hexDigits_le x.val
  simp [hex, hexDigits_ne_nil]
  omega

theorem groupsLoop_last :
    groupsLoop (fuel + 1) gs ellipsis (hex x) = some (gs ++ [x], ellipsis, []) := by
  obtain ⟨htake, hdrop⟩ := takeWhile_hex x [] (by simp)
  rw [List.append_nil] at htake hdrop
  simp only [groupsLoop, htake, hdrop, hex_length, if_false, hexValue_hex]

theorem takeWhile_hex_colon :
    (hex x ++ ':' :: rest).takeWhile isHex = hex x ∧
      (hex x ++ ':' :: rest).dropWhile isHex = ':' :: rest := by
  apply takeWhile_hex
  simp only [List.head?_cons, Option.mem_def, Option.some.injEq]
  rintro c rfl
  decide

theorem groupsLoop_colon {c : Char} (hc : c ≠ ':') :
    groupsLoop (fuel + 1) gs ellipsis (hex x ++ ':' :: c :: rest)
      = groupsLoop fuel (gs ++ [x]) ellipsis (c :: rest) := by
  obtain ⟨htake, hdrop⟩ := takeWhile_hex_colon x (c :: rest)
  simp only [groupsLoop, htake, hdrop, hex_length, if_false, hexValue_hex]

theorem groupsLoop_ellipsis :
    groupsLoop (fuel + 1) gs none (hex x ++ ':' :: ':' :: rest) =
      if rest = [] then some (gs ++ [x], some (gs.length + 1), [])
      else groupsLoop fuel (gs ++ [x]) (some (gs.length + 1)) rest := by
  obtain ⟨htake, hdrop⟩ := takeWhile_hex_colon x (':' :: rest)
  simp only [groupsLoop, htake, hdrop, hex_length, if_false, hexValue_hex, Option.isSome_none,
    Bool.false_eq_true]

end Loop

/-! The text of several groups. -/

@[simp] theorem hexes_nil : hexes [] = [] := rfl

theorem hexes_singleton : hexes [x] = hex x := by
  simp [hexes, List.intercalate]

theorem hexes_cons_cons (x y : Fin 65536) (gs : List (Fin 65536)) :
    hexes (x :: y :: gs) = hex x ++ ':' :: hexes (y :: gs) := by
  simp [hexes, List.intercalate]

theorem hexes_head (gs : List (Fin 65536)) (rest : List Char) :
    ∃ c r, hexes (x :: gs) ++ rest = c :: r ∧ isHex c = true := by
  have hx : ∃ c r, hex x = c :: r ∧ isHex c = true := by
    cases hhex : hex x with
    | nil => exact absurd (.inl hhex) (hex_length x)
    | cons c r => exact ⟨c, r, rfl, isHex_of_mem_hex (x := x) (hhex ▸ List.mem_cons_self)⟩
  obtain ⟨c, r, hc, hhex⟩ := hx
  cases gs with
  | nil => exact ⟨c, r ++ rest, by rw [hexes_singleton, hc, List.cons_append], hhex⟩
  | cons y gs =>
    exact ⟨c, r ++ ':' :: hexes (y :: gs) ++ rest, by rw [hexes_cons_cons, hc]; simp, hhex⟩

theorem ne_colon_of_isHex {c : Char} (h : isHex c = true) : c ≠ ':' := by
  rintro rfl
  exact absurd h (by decide)

/-- **The loop reads the groups that were printed.** -/
theorem groupsLoop_hexes {x : Fin 65536} {hs : List (Fin 65536)} {fuel : Nat}
    (ellipsis : Option Nat) (hfuel : hs.length < fuel) :
    groupsLoop fuel gs ellipsis (hexes (x :: hs)) = some (gs ++ x :: hs, ellipsis, []) := by
  induction hs generalizing x fuel gs with
  | nil =>
    obtain ⟨fuel, rfl⟩ := Nat.exists_eq_add_one_of_ne_zero (Nat.ne_of_gt hfuel)
    rw [hexes_singleton, groupsLoop_last]
  | cons y hs ih =>
    obtain ⟨fuel, rfl⟩ := Nat.exists_eq_add_one_of_ne_zero (Nat.ne_of_gt (Nat.zero_lt_of_lt hfuel))
    obtain ⟨c, r, hc, hhex⟩ := hexes_head y hs []
    rw [List.append_nil] at hc
    rw [hexes_cons_cons, hc, groupsLoop_colon _ _ _ _ _ (ne_colon_of_isHex hhex), ← hc,
      ih _ (Nat.lt_of_succ_lt_succ hfuel)]
    simp

theorem groupsLoop_hexes_ellipsis {x : Fin 65536} {hs : List (Fin 65536)} {fuel : Nat}
    (rest : List Char) (hfuel : hs.length < fuel) :
    groupsLoop fuel gs none (hexes (x :: hs) ++ ':' :: ':' :: rest) =
      if rest = [] then some (gs ++ x :: hs, some (gs.length + hs.length + 1), [])
      else groupsLoop (fuel - hs.length - 1) (gs ++ x :: hs)
        (some (gs.length + hs.length + 1)) rest := by
  induction hs generalizing x fuel gs with
  | nil =>
    obtain ⟨fuel, rfl⟩ := Nat.exists_eq_add_one_of_ne_zero (Nat.ne_of_gt hfuel)
    rw [hexes_singleton, groupsLoop_ellipsis]
    rfl
  | cons y hs ih =>
    obtain ⟨fuel, rfl⟩ := Nat.exists_eq_add_one_of_ne_zero (Nat.ne_of_gt (Nat.zero_lt_of_lt hfuel))
    obtain ⟨c, r, hc, hhex⟩ := hexes_head y hs (':' :: ':' :: rest)
    rw [hexes_cons_cons, List.append_assoc, List.cons_append, hc,
      groupsLoop_colon _ _ _ _ _ (ne_colon_of_isHex hhex), ← hc,
      ih _ (Nat.lt_of_succ_lt_succ hfuel)]
    have hcount : (gs ++ [x]).length + hs.length + 1
        = gs.length + (y :: hs).length + 1 := by simp; omega
    have hfuels : fuel - hs.length - 1 = fuel + 1 - (y :: hs).length - 1 := by simp
    rw [hcount, hfuels, List.append_assoc, List.singleton_append]

/-! The ellipsis. -/

theorem zeroRun_spec {gs : List (Fin 65536)} {start len : Nat} (h : zeroRun gs = some (start, len))
    : len = zerosFrom gs start ∧ 2 ≤ len := by
  unfold zeroRun at h
  -- What has been found so far is such a run.
  have hbest : ∀ (is : List Nat) (best : Option (Nat × Nat)),
      (∀ r ∈ best, r.2 = zerosFrom gs r.1 ∧ 2 ≤ r.2) →
      ∀ r ∈ is.foldl (fun best i =>
        if 2 ≤ zerosFrom gs i ∧ (best.map Prod.snd).getD 0
          < zerosFrom gs i then some (i, zerosFrom gs i) else best) best,
      r.2 = zerosFrom gs r.1 ∧ 2 ≤ r.2 := by
    intro is
    induction is with
    | nil => exact fun best hb => hb
    | cons i is ih =>
      intro best hb
      refine ih _ ?_
      dsimp only
      split_ifs with hi
      · rintro r ⟨⟩
        exact ⟨rfl, hi.1⟩
      · exact hb
  exact hbest _ none (by simp) (start, len) h

theorem groups_eq_of_zeroRun {gs : List (Fin 65536)} {start len : Nat}
    (h : zeroRun gs = some (start, len)) :
    gs = gs.take start ++ List.replicate len 0 ++ gs.drop (start + len) := by
  obtain ⟨hlen, -⟩ := zeroRun_spec h
  have hzeros : (gs.drop start).takeWhile (· = 0) = List.replicate len 0 := by
    rw [List.eq_replicate_iff]
    exact ⟨hlen.symm, fun g hg => by simpa using List.mem_takeWhile_imp hg⟩
  have hrun : (gs.drop start).take len = List.replicate len 0 := by
    rw [← hzeros, hlen]
    exact (List.prefix_iff_eq_take.mp ( List.takeWhile_prefix _)).symm
  calc gs = gs.take start ++ gs.drop start := (List.take_append_drop _ _).symm
    _ = gs.take start ++ ((gs.drop start).take len ++ (gs.drop start).drop
      len) := by rw [List.take_append_drop len]
    _ = gs.take start ++ List.replicate len 0 ++ gs.drop (start + len) := by
      rw [hrun, List.drop_drop, List.append_assoc]

theorem parseGroups_of_head {c : Char} {rest : List Char} (hc : c ≠ ':') :
    parseGroups (c :: rest) = (groupsLoop 8 [] none (c :: rest)).bind expand := by
  unfold parseGroups
  split
  case h_3 => rfl
  all_goals exact absurd (List.cons.inj ‹_›).1 hc

theorem parseGroups_colons {c : Char} {rest : List Char} :
    parseGroups (':' :: ':' :: c :: rest) = (groupsLoop 8 [] (some 0) (c :: rest)).bind
      expand := rfl

theorem expand_ellipsis {xs ys : List (Fin 65536)} (h : xs.length + ys.length < 8) :
    expand (xs ++ ys, some xs.length, [])
      = some (xs ++ List.replicate (8 - (xs.length + ys.length)) 0 ++ ys) := by
  simp [expand, h]

theorem parseGroups_ellipsis {xs ys : List (Fin 65536)} (h : xs.length + ys.length < 8) :
    parseGroups (hexes xs ++ ':' :: ':' :: hexes ys)
      = some (xs ++ List.replicate (8 - (xs.length + ys.length)) 0 ++ ys) := by
  rw [← expand_ellipsis h]
  cases xs with
  | nil =>
    cases ys with
    | nil => rfl
    | cons y ys =>
      have hfuel : ys.length < 8 := by simp at h; omega
      obtain ⟨c, r, hc, -⟩ := hexes_head y ys []
      rw [List.append_nil] at hc
      rw [hexes_nil, List.nil_append, hc, parseGroups_colons, ← hc,
        groupsLoop_hexes [] (some 0) hfuel]
      rfl
  | cons x xs =>
    have hfuel : xs.length < 8 := by simp at h; omega
    obtain ⟨c, r, hc, hhex⟩ := hexes_head x xs (':' :: ':' :: hexes ys)
    rw [hc, parseGroups_of_head (ne_colon_of_isHex hhex), ← hc,
      groupsLoop_hexes_ellipsis [] _ hfuel]
    cases ys with
    | nil => simp
    | cons y ys =>
      have hne : hexes (y :: ys) ≠ [] := by
        obtain ⟨c, r, hc, -⟩ := hexes_head y ys []
        rw [List.append_nil] at hc
        simp [hc]
      have hfuel' : ys.length < 8 - xs.length - 1 := by simp at h; omega
      rw [if_neg hne, groupsLoop_hexes _ _ hfuel']
      simp

/-- **The groups of an address are read back.** -/
theorem parseGroups_text : parseGroups ip.text = some ip.groups := by
  unfold V6.text
  cases hrun : zeroRun ip.groups with
  | none =>
    obtain ⟨gs, hlen⟩ := ip
    cases gs with
    | nil => exact absurd hlen (by decide)
    | cons x hs =>
      obtain ⟨c, r, hc, hhex⟩ := hexes_head x hs []
      rw [List.append_nil] at hc
      have hfuel : hs.length < 8 := by simp at hlen; omega
      dsimp only
      rw [hc, parseGroups_of_head (ne_colon_of_isHex hhex), ← hc, groupsLoop_hexes [] none hfuel]
      rfl
  | some run =>
    obtain ⟨start, len⟩ := run
    have hgroups := groups_eq_of_zeroRun hrun
    obtain ⟨-, htwo⟩ := zeroRun_spec hrun
    have hlen := congrArg List.length hgroups
    rw [ip.length_eq] at hlen
    simp only [List.length_append, List.length_replicate] at hlen
    dsimp only
    rw [List.append_assoc, List.cons_append, List.singleton_append, parseGroups_ellipsis (by omega)]
    have hzeros : 8 - ((ip.groups.take start).length + (ip.groups.drop (start + len)).length)
        = len := by omega
    rw [hzeros, ← hgroups]

/-! An IPv4 address in the IPv6 form. -/

theorem groups_last4 (g : Fin 65536) :
    Fin.ofNat 65536 ((Fin.ofNat 256 (g.val / 256)).val * 256 + (Fin.ofNat 256 g.val).val) = g := by
  apply Fin.ext
  simp only [Fin.ofNat]
  omega

theorem groups_of_is4In6 {ip : V6} (h : ip.is4In6 = true) :
    ip.groups = List.replicate 5 0 ++ 65535 :: ip.last4.groups := by
  obtain ⟨gs, hlen⟩ := ip
  match gs, hlen with
  | [g0, g1, g2, g3, g4, g5, g6, g7], _ =>
    simp only [V6.is4In6, decide_eq_true_eq, List.take_succ_cons, List.take_zero, List.cons.injEq,
      and_true] at h
    obtain ⟨rfl, rfl, rfl, rfl, rfl, rfl⟩ := h
    simp only [V4.groups, V6.last4, V6.group, List.getD_cons_succ, List.getD_cons_zero,
      groups_last4]
    rfl

theorem isHex_of_mem_decimal {x : Fin 256} {c : Char} (hc : c ∈ decimal x) : isHex c = true := by
  have hdigit := List.all_eq_true.mp (isDigit_decimal x) c hc
  simp [isHex, hexVal?, hdigit]

theorem decimal_length : ∀ x :
    Fin 256, ¬(decimal x = [] ∨ 4 < (decimal x).length) := by decide +kernel

theorem V4.text_eq (ip : V4) :
    ip.text = decimal ip.a ++ '.' :: (decimal
      ip.b ++ '.' :: (decimal ip.c ++ '.' :: decimal ip.d)) := by
  simp [V4.text, List.intercalate]

theorem groupsLoop_v4 (fuel : Nat) (gs : List (Fin 65536)) (n : Nat) (ip : V4) (hgs : gs.length ≤ 6)
    : groupsLoop (fuel + 1) gs (some n) ip.text = some (gs ++ ip.groups, some n, []) := by
  have hall : ∀ c ∈ decimal ip.a, isHex c = true := fun c => isHex_of_mem_decimal
  have htake : ip.text.takeWhile isHex = decimal ip.a := by
    rw [V4.text_eq, List.takeWhile_append_of_pos hall, List.takeWhile_cons_of_neg (by decide),
      List.append_nil]
  have hdrop : ip.text.dropWhile isHex
      = '.' :: (decimal ip.b ++ '.' :: (decimal ip.c ++ '.' :: decimal ip.d)) := by
    rw [V4.text_eq, List.dropWhile_append_of_pos hall, List.dropWhile_cons_of_neg (by decide)]
  have hroom : ¬((some n = none ∧ gs.length ≠ 6) ∨ 6 < gs.length) := by simp; omega
  simp only [groupsLoop, htake, hdrop, decimal_length, if_false, hroom, parseIPv4Fields_text,
    Option.map_some]

theorem V4.text_head (ip : V4) : ∃ c r, ip.text = c :: r ∧ isHex c = true := by
  rw [V4.text_eq]
  cases hd : decimal ip.a with
  | nil => exact absurd (.inl hd) (decimal_length ip.a)
  | cons c r => exact ⟨c, _, rfl, isHex_of_mem_decimal (x := ip.a) (hd ▸ List.mem_cons_self)⟩

theorem parseGroups_mapped {ip : V6} (h : ip.is4In6 = true) :
    parseGroups ("::ffff:".toList ++ ip.last4.text) = some ip.groups := by
  obtain ⟨c, r, hc, hhex⟩ := ip.last4.text_head
  have hffff : "::ffff:".toList ++ ip.last4.text
      = ':' :: ':' :: 'f' :: ('f' :: 'f' :: 'f' :: ':' :: ip.last4.text) := rfl
  have hgroup : 'f' :: ('f' :: 'f' :: 'f' :: ':' :: ip.last4.text)
      = hex 65535 ++ ':' :: c :: r := by rw [hc]; rfl
  rw [hffff, parseGroups_colons, hgroup, groupsLoop_colon _ _ _ _ _ (ne_colon_of_isHex hhex), ← hc,
    groupsLoop_v4 _ _ _ _ (by decide), groups_of_is4In6 h]
  rfl

/-! Zones, and the choice of the form. -/

/-- A character of an address without a zone. -/
def isBare (c : Char) : Bool := isHex c || c = ':' || c = '.'

theorem isBare_v4 (ip : V4) : ∀ c ∈ ip.text, isBare c = true := by
  have hdecimal : ∀ (x : Fin 256) (c : Char), c ∈ decimal x → isBare c = true := fun x c hc => by
    simp [isBare, isHex_of_mem_decimal hc]
  intro c hc
  rw [V4.text_eq] at hc
  simp only [List.mem_append, List.mem_cons] at hc
  rcases hc with hc | rfl | hc | rfl | hc | rfl | hc
  · exact hdecimal _ c hc
  · decide
  · exact hdecimal _ c hc
  · decide
  · exact hdecimal _ c hc
  · decide
  · exact hdecimal _ c hc

theorem isBare_hexes : ∀ c ∈ hexes gs, isBare c = true := by
  have hhex : ∀ (x : Fin 65536) (c : Char), c ∈ hex x → isBare c = true := fun x c hc => by
    simp [isBare, isHex_of_mem_hex hc]
  induction gs with
  | nil => simp
  | cons x gs ih =>
    intro c hc
    cases gs with
    | nil =>
      rw [hexes_singleton] at hc
      exact hhex x c hc
    | cons y gs =>
      rw [hexes_cons_cons, List.mem_append, List.mem_cons] at hc
      rcases hc with hc | rfl | hc
      · exact hhex x c hc
      · decide
      · exact ih c hc

/-- The part of an IPv6 text before the zone: digits up to a colon, and only such characters. -/
structure Bare (cs : List Char) : Prop where
  colon : ∃ hs rest, cs = hs ++ ':' :: rest ∧ ∀ c ∈ hs, isHex c = true
  chars : ∀ c ∈ cs, isBare c = true

theorem bare_mapped : Bare ("::ffff:".toList ++ ip.last4.text) where
  colon := ⟨[], _, rfl, by simp⟩
  chars := by
    exact List.forall_mem_append.mpr
      ⟨List.all_eq_true.mp (by decide : "::ffff:".toList.all isBare = true), isBare_v4 _⟩

theorem bare_hexes (hs : List (Fin 65536)) (rest : List Char)
    (hrest : hs ≠ [] ∨ ∃ r, rest = ':' :: r) :
    ∃ ds r, hexes (x :: hs) ++ rest = ds ++ ':' :: r ∧ ∀ c ∈ ds, isHex c = true := by
  cases hs with
  | nil =>
    obtain ⟨r, rfl⟩ := hrest.resolve_left (by simp)
    exact ⟨hex x, r, by rw [hexes_singleton], fun c => isHex_of_mem_hex⟩
  | cons y hs => exact ⟨hex x, _, by rw [hexes_cons_cons, List.append_assoc, List.cons_append],
      fun c => isHex_of_mem_hex⟩

theorem bare_text : Bare ip.text := by
  unfold V6.text
  cases hrun : zeroRun ip.groups with
  | none =>
    refine ⟨?_, isBare_hexes _⟩
    obtain ⟨gs, hlen⟩ := ip
    match gs, hlen with
    | x :: y :: hs, _ =>
      obtain ⟨ds, r, heq, hds⟩ := bare_hexes x (y :: hs) [] (.inl (by simp))
      exact ⟨ds, r, by rw [← heq, List.append_nil], hds⟩
  | some run =>
    dsimp only
    rw [List.append_assoc, List.cons_append, List.singleton_append]
    refine ⟨?_, ?_⟩
    · cases htake : ip.groups.take run.1 with
      | nil => exact ⟨[], _, rfl, by simp⟩
      | cons x hs => exact bare_hexes x hs _ (.inr ⟨_, rfl⟩)
    · intro c hc
      simp only [List.mem_append, List.mem_cons] at hc
      rcases hc with hc | rfl | rfl | hc
      · exact isBare_hexes _ c hc
      · decide
      · decide
      · exact isBare_hexes _ c hc

theorem parseIPv6_of_bare {cs : List Char} {ip : V6} (hcs : Bare cs)
    (hgroups : parseGroups cs = some ip.groups) (zone : String) :
    parseIPv6 (cs ++ zoneText zone) = some (.v6 ip zone) := by
  have hall : ∀ c ∈ cs, decide (c ≠ '%') = true := by
    intro c hc
    have hne : c ≠ '%' := fun heq => absurd (hcs.chars c hc) (by rw [heq]; decide)
    simp [hne]
  have hv6 : v6? ip.groups = some ip := by simp [v6?, ip.length_eq]
  unfold parseIPv6 zoneText
  split_ifs with hzone
  · subst hzone
    simp only [List.append_nil, List.takeWhile_eq_self_iff.mpr hall,
      List.dropWhile_eq_nil_iff.mpr hall, hgroups, Option.bind_some, hv6,
      Option.map_some]
  · have hne : zone.toList ≠ [] := by simpa using hzone
    rw [List.takeWhile_append_of_pos hall, List.dropWhile_append_of_pos hall,
      List.takeWhile_cons_of_neg (by simp), List.append_nil,
      List.dropWhile_cons_of_neg (by simp)]
    simp only [hne, if_false, hgroups, Option.bind_some, hv6, Option.map_some, String.ofList_toList]

theorem find_isSign {hs : List Char} {d : Char} (hhs : ∀ c ∈ hs, isHex c = true)
    (hd : isSign d = true) (rest : List Char) : (hs ++ d :: rest).find? isSign = some d := by
  have hnone : hs.find? isSign = none := by
    rw [List.find?_eq_none]
    intro c hc hsign
    have hhex := hhs c hc
    simp only [isSign, Bool.or_eq_true, decide_eq_true_eq] at hsign
    rcases hsign with (rfl | rfl) | rfl <;> exact absurd hhex (by decide)
  rw [List.find?_append, hnone, Option.none_or, List.find?_cons_of_pos hd]

theorem parseAddr_of_bare {cs : List Char} {ip : V6} (hcs : Bare cs)
    (hgroups : parseGroups cs = some ip.groups) (zone : String) :
    parseAddr (cs ++ zoneText zone) = some (.v6 ip zone) := by
  have hread := parseIPv6_of_bare hcs hgroups zone
  obtain ⟨hs, rest, heq, hhs⟩ := hcs.colon
  have hfind : (cs ++ zoneText zone).find? isSign = some ':' := by
    rw [heq, List.append_assoc, List.cons_append]
    exact find_isSign hhs (by decide) _
  simp only [parseAddr, hfind, hread]

/-- **`ParseAddr` reads back what `String` printed.** -/
theorem parseAddr_text {a : Addr} (ha : a.isValid = true) : parseAddr a.text = some a := by
  cases a with
  | invalid => simp [Addr.isValid] at ha
  | v4 ip =>
    have hfind : ip.text.find? isSign = some '.' := by
      rw [V4.text_eq]
      exact find_isSign (fun c => isHex_of_mem_decimal) (by decide) _
    rw [Addr.text_v4]
    simp only [parseAddr, hfind, parseIPv4Fields_text, Option.map_some]
  | v6 ip zone =>
    rw [Addr.text_v6]
    split_ifs with hmapped
    · exact parseAddr_of_bare (bare_mapped ip) (parseGroups_mapped hmapped) zone
    · exact parseAddr_of_bare (bare_text ip) (parseGroups_text ip) zone

theorem text_eq_bare {a : Addr} (ha : a.isValid = true) :
    ∃ cs, a.text = cs ++ zoneText a.zone ∧ cs ≠ [] ∧ ∀ c ∈ cs, isBare c = true := by
  have hne : ∀ {cs : List Char}, Bare cs → cs ≠ [] := by
    rintro cs hcs rfl
    obtain ⟨hs, rest, heq, -⟩ := hcs.colon
    exact absurd heq (by simp)
  cases a with
  | invalid => simp [Addr.isValid] at ha
  | v4 ip =>
    obtain ⟨c, r, hc, -⟩ := ip.text_head
    exact ⟨ip.text, by rw [Addr.text_v4]; exact (List.append_nil
      _).symm, by rw [hc]; exact List.cons_ne_nil _ _, isBare_v4 ip⟩
  | v6 ip zone =>
    rw [Addr.text_v6]
    split_ifs with hmapped
    · exact ⟨_, rfl, hne (bare_mapped ip), (bare_mapped ip).chars⟩
    · exact ⟨_, rfl, hne (bare_text ip), (bare_text ip).chars⟩

example : parseAddr "2606:4700::1111%eth0".toList =
    some (.v6 ⟨[0x2606, 0x4700, 0, 0, 0, 0, 0, 0x1111], rfl⟩ "eth0") := by decide +kernel

end NetIp
