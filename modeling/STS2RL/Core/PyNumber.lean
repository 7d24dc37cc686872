import STS2RL.Core.Json

/-!
# Numbers Read From Texts

A decoded float is carried by its shortest text. Where it is compared with an
integer or cut to one, the number it stands for is needed: the double that is
nearest to the decimal the text spells.

`int` also reads texts: blanks around, a sign, and digits that single
underscores may separate. So does `float`, with a point, an exponent and the
words for what is no number. The digits and the blanks may be those of any
script: a text that is not ASCII is put into ASCII before it is read.

## Main definitions

* `floatValue`: The number a float's text stands for.
* `overflowsFloat`: The integers that are not converted to a float.
* `floatRepr`: The shortest text of the float that a text spells.
* `numberText`: What is read of a text: its digits and blanks in ASCII.
* `intOfText`, `floatOfText`: The integer, or the float, a text spells, if it spells one.

## Theorems

* `pow2_le_nearestDouble`: Rounding does not pass below a power of two.
* `pow2_le_of_double`: A positive double is no smaller than the smallest.
-/

namespace STS2RL

namespace PyNumber

section Digits

/-- The value of an ASCII digit. -/
def digit? (c : Char) : Option Nat :=
  if '0' ≤ c ∧ c ≤ '9' then some (c.toNat - '0'.toNat) else none

/-- The digits at the front: the number read so far, how many they were, and
    what follows. -/
def readDigits : (read count : Nat) → List Char → Nat × Nat × List Char
  | read, count, [] => (read, count, [])
  | read, count, c :: rest =>
      match digit? c with
      | some d => readDigits (10 * read + d) (count + 1) rest
      | none => (read, count, c :: rest)

/-- A sign at the front. -/
def readSign : List Char → Bool × List Char
  | '-' :: rest => (true, rest)
  | '+' :: rest => (false, rest)
  | rest => (false, rest)

/-- A number with its sign. -/
def signed (negative : Bool) (n : Int) : Int := if negative then -n else n

/-- A number is read back from its digits. -/
theorem nat_toString_inj {m n : Nat} (h : toString m = toString n) : m = n := by
  have hread : ∀ k : Nat, Nat.ofDigitChars 10 (toString k).toList 0 = k := by
    intro k
    change Nat.ofDigitChars 10 (Nat.repr k).toList 0 = k
    rw [Nat.toList_repr]
    exact Nat.ofDigitChars_ten_toDigits
  rw [← hread m, h, hread n]

end Digits

section Doubles

/-- A power of two, of any sign. -/
def pow2 (e : Int) : Rat := if 0 ≤ e then (2 ^ e.toNat : Nat) else 1 / (2 ^ (-e).toNat : Nat)

/-- The nearest integer, the even one of two. -/
def roundHalfEven (q : Rat) : Int :=
  let below := q.floor
  let rest := q - below
  if rest < 1 / 2 then below
  else if 1 / 2 < rest then below + 1
  else if below % 2 = 0 then below else below + 1

/-- The place of the first binary digit of a positive number. -/
def binaryPlace (q : Rat) : Int :=
  let guess : Int := (Nat.log2 q.num.toNat : Int) - (Nat.log2 q.den : Int)
  if pow2 guess ≤ q then guess else guess - 1

/-- The last place of a double of this size. The smallest ones have less precision. -/
def lastPlace (q : Rat) : Int := max (binaryPlace q - 52) (-1074)

/-- The double nearest to a number that is not negative. -/
def nearestDouble (q : Rat) : Rat :=
  if q = 0 then 0 else roundHalfEven (q / pow2 (lastPlace q)) * pow2 (lastPlace q)

theorem pow2_eq_zpow (e : Int) : pow2 e = (2 : Rat) ^ e := by
  unfold pow2
  split
  · rename_i h
    rw [Nat.cast_pow, ← zpow_natCast, Int.toNat_of_nonneg h]
    rfl
  · rename_i h
    rw [Nat.cast_pow, ← zpow_natCast, Int.toNat_of_nonneg (by omega), zpow_neg, one_div, inv_inv]
    rfl

theorem pow2_pos (e : Int) : 0 < pow2 e := by
  rw [pow2_eq_zpow]
  exact zpow_pos (by norm_num) e

theorem pow2_le_pow2 {d e : Int} (h : d ≤ e) : pow2 d ≤ pow2 e := by
  rw [pow2_eq_zpow, pow2_eq_zpow]
  exact zpow_le_zpow_right₀ (by norm_num) h

/-- A positive number has its first binary digit where it is said to be. -/
theorem pow2_binaryPlace_le {q : Rat} (hq : 0 < q) : pow2 (binaryPlace q) ≤ q := by
  unfold binaryPlace
  dsimp only
  split
  · assumption
  · have hnum : q.num.toNat ≠ 0 := by
      have := Rat.num_pos.mpr hq
      omega
    have hcast : ((q.num.toNat : Int) : Rat) = q.num := by
      rw [Int.toNat_of_nonneg (Rat.num_pos.mpr hq).le]
    -- The numerator is at least its power of two, the denominator below the next one.
    have hbelow : (2 : Rat) ^ Nat.log2 q.num.toNat ≤ q.num := by
      rw [← hcast]
      exact_mod_cast Nat.log2_self_le hnum
    have habove : (q.den : Rat) ≤ 2 ^ (Nat.log2 q.den + 1) := by
      exact_mod_cast Nat.lt_log2_self.le
    rw [pow2_eq_zpow, sub_sub, zpow_sub₀ (by norm_num), zpow_natCast]
    have hnext : (2 : Rat) ^ ((Nat.log2 q.den : Int) + 1) = 2 ^ (Nat.log2 q.den + 1) := by
      exact_mod_cast zpow_natCast (2 : Rat) (Nat.log2 q.den + 1)
    rw [hnext]
    calc (2 : Rat) ^ Nat.log2 q.num.toNat / 2 ^ (Nat.log2 q.den + 1)
        ≤ q.num / q.den := by
          gcongr
      _ = q := Rat.num_div_den q

theorem le_roundHalfEven {n : Int} {q : Rat} (h : (n : Rat) ≤ q) : n ≤ roundHalfEven q := by
  have hfloor : n ≤ q.floor := Rat.le_floor_iff.mpr h
  unfold roundHalfEven
  dsimp only
  repeat' split
  all_goals omega

/-- Rounding does not pass below a power of two that is a double itself. -/
theorem pow2_le_nearestDouble {k : Int} {q : Rat} (hk : -1074 ≤ k) (h : pow2 k ≤ q) :
    pow2 k ≤ nearestDouble q := by
  have hq : 0 < q := (pow2_pos k).trans_le h
  -- A power of two at or above the last place is a whole number of its units.
  have hunits : ∀ e : Int, lastPlace q ≤ e → pow2 e ≤ q → pow2 e ≤ nearestDouble q := by
    intro e he hle
    have hsplit : pow2 e = ((2 ^ (e - lastPlace q).toNat : Int) : Rat) * pow2 (lastPlace q) := by
      rw [pow2_eq_zpow, pow2_eq_zpow, Int.cast_pow, ← zpow_natCast,
        Int.toNat_of_nonneg (by omega), Int.cast_ofNat, ← zpow_add₀ (by norm_num), sub_add_cancel]
    have hunit := pow2_pos (lastPlace q)
    rw [nearestDouble, if_neg hq.ne', hsplit]
    refine mul_le_mul_of_nonneg_right ?_ hunit.le
    exact_mod_cast le_roundHalfEven ((le_div_iff₀ hunit).mpr (hsplit ▸ hle))
  by_cases hplace : lastPlace q ≤ k
  · exact hunits k hplace h
  · have hfirst : lastPlace q ≤ binaryPlace q := by
      unfold lastPlace at *
      omega
    exact (pow2_le_pow2 (by omega)).trans (hunits _ hfirst (pow2_binaryPlace_le hq))

/-- A positive double is no smaller than the smallest. -/
theorem pow2_le_of_double {q : Rat} (hq : 0 < q) (h : nearestDouble q = q) : pow2 (-1074) ≤ q := by
  have hunit := pow2_pos (lastPlace q)
  rw [nearestDouble, if_neg hq.ne'] at h
  have hunits : 0 < roundHalfEven (q / pow2 (lastPlace q)) := by
    have hpos := h ▸ hq
    exact_mod_cast (mul_pos_iff_of_pos_right hunit).mp hpos
  calc pow2 (-1074) ≤ pow2 (lastPlace q) := pow2_le_pow2 (le_max_right _ _)
    _ ≤ roundHalfEven (q / pow2 (lastPlace q)) * pow2 (lastPlace q) :=
        le_mul_of_one_le_left hunit.le (by exact_mod_cast hunits)
    _ = q := h

/-- The exponent part of a float's text. -/
def readExponent : List Char → Option Int
  | [] => some 0
  | 'e' :: rest =>
      let (negative, rest) := readSign rest
      match readDigits 0 0 rest with
      | (n, _ + 1, []) => some (signed negative n)
      | _ => none
  | _ => none

/-- The number a float's text stands for. An infinity or a text that is no
    number stands for none. -/
def floatValue (text : String) : Option Rat :=
  let (negative, rest) := readSign text.toList
  let (whole, _, rest) := readDigits 0 0 rest
  let (digits, places, rest) :=
    match rest with
    | '.' :: rest => readDigits whole 0 rest
    | rest => (whole, 0, rest)
  (readExponent rest).map fun exponent =>
    let scale : Int := exponent - (places : Int)
    let decimal : Rat := if 0 ≤ scale then (digits * 10 ^ scale.toNat : Nat)
      else mkRat digits (10 ^ (-scale).toNat)
    if negative then - nearestDouble decimal else nearestDouble decimal

/-- Whether an integer is no double any more: it would round to an infinity. -/
def overflowsFloat (z : Int) : Bool := 2 ^ 1024 - 2 ^ 970 ≤ z.natAbs

/-- The integer between a number and nought that is nearest to it. -/
def truncated (q : Rat) : Int := q.num.tdiv q.den

end Doubles

section Shortest

/-- A power of ten, of any sign. -/
def pow10 (e : Int) : Rat := if 0 ≤ e then (10 ^ e.toNat : Nat) else 1 / (10 ^ (-e).toNat : Nat)

/-- The place of the first digit of a positive number. -/
def firstPlace (q : Rat) : Int :=
  let guess : Int := ((toString q.num.toNat).length : Int) - (toString q.den).length
  if pow10 guess ≤ q then guess else guess - 1

/-- The decimal of so many digits that is read as a double, and nearest to it: its
    digits and the place of the last one. -/
def decimalOf (q : Rat) (precision : Nat) : Option (Nat × Int) :=
  let place := firstPlace q - (precision - 1)
  let below := (q / pow10 place).floor.toNat
  let readBack := fun (n : Nat) => nearestDouble (n * pow10 place) = q
  if readBack below ∧ (¬ readBack (below + 1) ∨ q - below * pow10 place ≤
      (below + 1) * pow10 place - q) then some (below, place)
  else if readBack (below + 1) then some (below + 1, place)
  else none

/-- The shortest decimal that is read as a double. Seventeen digits always are. -/
def shortestDecimal (q : Rat) : Nat × Int :=
  ((List.range 17).findSome? fun precision => decimalOf q (precision + 1)).getD (0, 0)

/-- Digits with a point after so many of them, or an exponent where that is far off. -/
def pointed (digits : List Char) (point : Int) : List Char :=
  if 16 < point ∨ point ≤ -4 then
    let exponent := point - 1
    let size := (toString exponent.natAbs).toList
    (match digits with
      | first :: next :: rest => first :: '.' :: next :: rest
      | digits => digits) ++
      'e' :: (if exponent < 0 then '-' else '+') :: (List.replicate (2 - size.length) '0' ++ size)
  else if point ≤ 0 then '0' :: '.' :: (List.replicate (-point).toNat '0' ++ digits)
  else
    let whole := digits.take point.toNat
    let rest := digits.drop point.toNat
    whole ++ List.replicate (point.toNat - digits.length) '0' ++
      '.' :: (if rest.isEmpty then ['0'] else rest)

/-- The shortest text of a double that is not negative. -/
def reprOf (q : Rat) : List Char :=
  if q = 0 then ['0', '.', '0']
  else if (2 ^ 1024 : Nat) ≤ q then "Infinity".toList
  else
    let (n, place) := shortestDecimal q
    let digits := (toString n).toList
    pointed ((digits.reverse.dropWhile (· = '0')).reverse) (digits.length + place)

/-- The shortest text of the float that a text spells. -/
def floatRepr (text : List Char) : String :=
  let lowered := text.map fun c => if c = 'E' then 'e' else c
  let magnitude := (floatValue (String.ofList lowered)).elim 0 fun q => if q < 0 then -q else q
  String.ofList (if (readSign text).1 then '-' :: reprOf magnitude else reprOf magnitude)

end Shortest

section Texts

/-- The noughts of all scripts. The nine code points after each are its other digits. -/
def noughts : List Nat :=
  [0x30, 0x660, 0x6F0, 0x7C0, 0x966, 0x9E6, 0xA66, 0xAE6, 0xB66, 0xBE6, 0xC66, 0xCE6, 0xD66,
    0xDE6, 0xE50, 0xED0, 0xF20, 0x1040, 0x1090, 0x17E0, 0x1810, 0x1946, 0x19D0, 0x1A80, 0x1A90,
    0x1B50, 0x1BB0, 0x1C40, 0x1C50, 0xA620, 0xA8D0, 0xA900, 0xA9D0, 0xA9F0, 0xAA50, 0xABF0,
    0xFF10, 0x104A0, 0x10D30, 0x11066, 0x110F0, 0x11136, 0x111D0, 0x112F0, 0x11450, 0x114D0,
    0x11650, 0x116C0, 0x11730, 0x118E0, 0x11950, 0x11C50, 0x11D50, 0x11DA0, 0x11F50, 0x16A60,
    0x16AC0, 0x16B50, 0x1D7CE, 0x1D7D8, 0x1D7E2, 0x1D7EC, 0x1D7F6, 0x1E140, 0x1E2F0, 0x1E4F0,
    0x1E950, 0x1FBF0]

/-- The value of a decimal digit of any script. -/
def decimalDigit? (code : Nat) : Option Nat :=
  (noughts.find? fun nought => nought ≤ code ∧ code < nought + 10).map (code - ·)

/-- `str.isspace`, beyond ASCII. -/
def isWideBlank (code : Nat) : Bool :=
  code = 0x85 ∨ code = 0xA0 ∨ code = 0x1680 ∨ (0x2000 ≤ code ∧ code ≤ 0x200A) ∨
    code = 0x2028 ∨ code = 0x2029 ∨ code = 0x202F ∨ code = 0x205F ∨ code = 0x3000

/-- The blank or the digit that a code point counts as. -/
def asciiOf (code : Nat) : Option Char :=
  if code < 127 then some (Char.ofNat code)
  else if isWideBlank code then some ' '
  else (decimalDigit? code).map fun d => Char.ofNat ('0'.toNat + d)

/-- What `int` and `float` read of a text. One with a code point beyond ASCII is put
    into ASCII first; nothing is read where that fails, as for a lone surrogate. -/
def numberText (s : PyStr) : Option (List Char) :=
  if s.codes.all (· < 128) then some (s.codes.map Char.ofNat) else s.codes.mapM asciiOf

/-- What is skipped at either end. `str.strip` would also take the separators from
    `\x1c` to `\x1f`. -/
def isBlank (c : Char) : Bool := c = ' ' ∨ ('\t' ≤ c ∧ c ≤ '\r')

/-- The digits at the front, which single underscores may separate: the number read
    so far, how many digits they were, and what follows. -/
def readSeparated : (read count : Nat) → (afterDigit : Bool) → List Char →
    Option (Nat × Nat × List Char)
  | read, count, afterDigit, [] => if afterDigit then some (read, count, []) else none
  | read, count, afterDigit, c :: rest =>
      match digit? c with
      | some d => readSeparated (10 * read + d) (count + 1) true rest
      | none =>
          if ¬ afterDigit then none
          else if c = '_' then readSeparated read count false rest
          else some (read, count, c :: rest)

/-- What `int` makes of a text: an integer, too many digits, or nothing. -/
inductive IntText where
  | int (z : Int)
  | tooLong (digits : Nat)
  | invalid
  deriving DecidableEq

/-- `sys.get_int_max_str_digits()`, where nobody has set it. -/
def maxStrDigits : Nat := 4300

/-- `int(text)`. The digits are counted before what follows them is looked at. -/
def intOfText (s : PyStr) : IntText :=
  match numberText s with
  | none => .invalid
  | some text =>
      let (negative, digits) := readSign (text.dropWhile isBlank)
      match readSeparated 0 0 false digits with
      | none => .invalid
      | some (n, count, rest) =>
          if maxStrDigits < count then .tooLong count
          else if rest.all isBlank then .int (signed negative n)
          else .invalid

example : intOfText (.text " +1_0\n") = .int 10 ∧ intOfText (.text "1\uff13\u3000") = .int 13 ∧
    intOfText (.text "\x1c1") = .invalid := by decide

/-- Digits without the single underscores between them. -/
def withoutSeparators : (afterDigit : Bool) → List Char → Option (List Char)
  | _, [] => some []
  | afterDigit, c :: rest =>
      if c = '_' then
        if afterDigit ∧ (rest.head?.bind digit?).isSome then withoutSeparators false rest else none
      else (withoutSeparators (digit? c).isSome rest).map (c :: ·)

/-- Whether a text spells a decimal: a digit at least, and an exponent that is read. -/
def isDecimal (text : List Char) : Bool :=
  let (_, rest) := readSign text
  let (_, whole, rest) := readDigits 0 0 rest
  let (places, rest) :=
    match rest with
    | '.' :: rest => (readDigits 0 0 rest).2
    | rest => (0, rest)
  0 < whole + places ∧ (readExponent rest).isSome

/-- `float(text)`: the shortest text of the float a text spells, if it spells one. -/
def floatOfText (s : PyStr) : Option String :=
  match numberText s with
  | none => none
  | some text =>
      let stripped := ((text.dropWhile isBlank).reverse.dropWhile isBlank).reverse
      let lowered := stripped.map Char.toLower
      let (negative, word) := readSign lowered
      if word = "inf".toList ∨ word = "infinity".toList then
        some (if negative then "-Infinity" else "Infinity")
      else if word = "nan".toList then some "NaN"
      else
        match withoutSeparators false lowered with
        | some digits => if isDecimal digits then some (floatRepr digits) else none
        | none => none

end Texts

end PyNumber

end STS2RL
