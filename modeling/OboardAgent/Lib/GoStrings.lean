import Mathlib.Data.List.DropRight

/-!
# What Go programs do to strings before they look at them

`strings.TrimSpace` and `strings.Fields`, over the characters that `unicode.IsSpace` knows,
`strings.ToLower` as far as ASCII words go, `filepath.Base`, and the wrap-around of the 64-bit
integers that travel next to the strings.
-/

namespace GoStrings

/-- `unicode.IsSpace`: the Latin-1 spaces and the other characters of the White_Space property. -/
def isSpace (c : Char) : Bool :=
  c = ' ' || (0x09 ≤ c.toNat && c.toNat ≤ 0x0d) || c.toNat = 0x85 || c.toNat = 0xa0 ||
    c.toNat = 0x1680 || (0x2000 ≤ c.toNat && c.toNat ≤ 0x200a) || c.toNat = 0x2028 ||
    c.toNat = 0x2029 || c.toNat = 0x202f || c.toNat = 0x205f || c.toNat = 0x3000

theorem isSpace_of_printable {c : Char} (hlow : 33 ≤ c.toNat) (hhigh : c.toNat ≤ 126) :
    isSpace c = false := by
  have hblank : c ≠ ' ' := by
    rintro rfl
    exact absurd hlow (by decide)
  simp only [isSpace, hblank, decide_false, Bool.false_or, Bool.or_eq_false_iff,
    Bool.and_eq_false_iff, decide_eq_false_iff_not]
  omega

/-- `strings.TrimSpace`. -/
def trimSpace (s : String) : String :=
  String.ofList ((s.toList.dropWhile isSpace).rdropWhile isSpace)

theorem trimSpace_trimSpace (s : String) : trimSpace (trimSpace s) = trimSpace s := by
  unfold trimSpace
  rw [String.toList_ofList]
  generalize hl : s.toList.dropWhile isSpace = l
  have hhead : l.dropWhile isSpace = l := by rw [← hl, List.dropWhile_idempotent]
  have hstart : (l.rdropWhile isSpace).dropWhile isSpace = l.rdropWhile isSpace := by
    rw [List.dropWhile_eq_self_iff] at hhead ⊢
    intro hlen
    have hstem := List.rdropWhile_prefix isSpace (l := l)
    have hpos : 0 < l.length := hlen.trans_le hstem.length_le
    rw [hstem.getElem hlen]
    exact hhead hpos
  rw [hstart, List.rdropWhile_idempotent]

/-- `unicode.ToLower` on the letters that become ASCII ones: the ASCII capitals, the dotted capital
I and the Kelvin sign. Other characters stay; no ASCII text can tell the difference. -/
def lowerChar (c : Char) : Char :=
  if c.toNat = 0x130 then 'i' else if c.toNat = 0x212a then 'k' else c.toLower

/-- `strings.ToLower`, for a comparison with an ASCII text. -/
def toLower (s : String) : String := String.ofList (s.toList.map lowerChar)

/-- `unicode.ToUpper` on the letters that become ASCII ones: the ASCII letters, the dotless i and
the long s. -/
def upperChar (c : Char) : Char :=
  if c.toNat = 0x131 then 'I' else if c.toNat = 0x17f then 'S' else c.toUpper

/-- `strings.ToUpper`, for ASCII texts. -/
def toUpper (s : String) : String := String.ofList (s.toList.map upperChar)

/-- `strings.Fields`. -/
def fields (s : List Char) : List String :=
  ((s.splitOnP isSpace).filter (· ≠ [])).map String.ofList

/-- `filepath.Base`, with slashes. -/
def base (path : String) : String :=
  if path = "" then "."
  else
    match path.toList.reverse.dropWhile (· = '/') with
    | [] => "/"
    | rest => String.ofList (rest.takeWhile (· ≠ '/')).reverse

/-- An integer as an `int64` holds it: modulo `2 ^ 64`, around zero. -/
def int64 (x : Int) : Int := x.bmod 18446744073709551616

end GoStrings
