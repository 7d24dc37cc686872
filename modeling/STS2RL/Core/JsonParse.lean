import STS2RL.Core.JsonText
import STS2RL.Core.PyNumber

/-!
# Reading JSON Values

`json.loads`: the value that a text spells, if it spells one. Blanks may stand
between any two parts of a text. A string is read as code units, and two units
that are the halves of one character become that character. A member that is
given twice has the later value, at the place of the first. A number without a
point or an exponent is an integer; any other is a float, and carried by its
shortest text, whatever text spelled it.

A value that was read is read again from the text that is written of it
(`loads_dumps`). This needs of the value only what reading gives: no two halves of
a character in a row, no member twice, and floats with their shortest text.

The recursion is bounded by a fuel, which is never more than twice what is left of
the text: each value and each item costs a character.

## Main definitions

* `readString`, `readNumber`: The parts of a text.
* `readValue`: The value at the front of a text.
* `loads`: The value of a text.
* `isDecoded`: What reading gives.

## Theorems

* `ofCodes_codes`: A text is made of its code points.
* `readString_dumpsStr`: A string is read again.
* `loads_dumps`: A value is read again.
-/

namespace STS2RL

namespace PyStr

/-- The first half of a pair of surrogates. -/
def isHigh (code : Nat) : Bool := 0xD800 ≤ code ∧ code < 0xDC00

/-- The second half of a pair of surrogates. -/
def isLow (code : Nat) : Bool := 0xDC00 ≤ code ∧ code < 0xE000

/-- A text with one more character in front. -/
def cons (c : Char) : PyStr → PyStr
  | text s => text (String.ofList (c :: s.toList))
  | lone before code rest => lone (String.ofList (c :: before.toList)) code rest

/-- The text of code points. -/
def ofCodes : List Nat → PyStr
  | [] => text ""
  | code :: rest =>
      if h : 0xD800 ≤ code ∧ code < 0xE000 then lone "" ⟨code - 0xD800, by omega⟩ (ofCodes rest)
      else (ofCodes rest).cons (Char.ofNat code)

/-- Whether no two code points in a row are the halves of one character. -/
def unpaired : List Nat → Bool
  | high :: low :: rest => ¬ (isHigh high ∧ isLow low) && unpaired (low :: rest)
  | _ => true

/-- Halves of one character in a row, as that character. -/
def joinUnits : List Nat → List Nat
  | high :: low :: rest =>
      if isHigh high ∧ isLow low then
        (0x10000 + (high - 0xD800) * 0x400 + (low - 0xDC00)) :: joinUnits rest
      else high :: joinUnits (low :: rest)
  | units => units

end PyStr

namespace Json

/-!
### Reading a text

The reader, character by character: blanks, texts with their escapes, numbers, words, and
the values that are built from them. It is given fuel, and its length is enough.
-/

section Reading

/-- A blank between the parts of a text. -/
def isSpace (c : Char) : Bool := c = ' ' ∨ c = '\t' ∨ c = '\n' ∨ c = '\r'

/-- What follows the blanks. -/
def skipSpace (text : List Char) : List Char := text.dropWhile isSpace

/-- The value of a hexadecimal digit. -/
def hexValue? (c : Char) : Option Nat :=
  if '0' ≤ c ∧ c ≤ '9' then some (c.toNat - '0'.toNat)
  else if 'a' ≤ c ∧ c ≤ 'f' then some (c.toNat - 'a'.toNat + 10)
  else if 'A' ≤ c ∧ c ≤ 'F' then some (c.toNat - 'A'.toNat + 10)
  else none

/-- The code unit of four digits. -/
def hexUnit? (a b c d : Char) : Option Nat := do
  let a ← hexValue? a
  let b ← hexValue? b
  let c ← hexValue? c
  let d ← hexValue? d
  some (((a * 16 + b) * 16 + c) * 16 + d)

/-- The character of a short escape. -/
def unescape? (letter : Char) : Option Char :=
  match letter with
  | '"' => some '"'
  | '\\' => some '\\'
  | '/' => some '/'
  | 'b' => some '\x08'
  | 'f' => some '\x0c'
  | 'n' => some '\n'
  | 'r' => some '\r'
  | 't' => some '\t'
  | _ => none

/-- The code units up to the quote that ends a string, and what follows it. -/
def readString : List Char → Option (List Nat × List Char)
  | [] => none
  | '"' :: rest => some ([], rest)
  | '\\' :: 'u' :: a :: b :: c :: d :: rest => do
      let unit ← hexUnit? a b c d
      let (units, rest) ← readString rest
      some (unit :: units, rest)
  | '\\' :: letter :: rest => do
      let c ← unescape? letter
      let (units, rest) ← readString rest
      some (c.toNat :: units, rest)
  | c :: rest =>
      if c = '\\' ∨ c.toNat < 0x20 then none
      else do
        let (units, rest) ← readString rest
        some (c.toNat :: units, rest)

/-- The text of a sequence of UTF-16 units, pairs joined. -/
def ofUnits (units : List Nat) : PyStr := PyStr.ofCodes (PyStr.joinUnits units)

/-- A decimal digit of a number. -/
def isDigit (c : Char) : Bool := '0' ≤ c ∧ c ≤ '9'

/-- A character that may belong to a number. -/
def isNumberChar (c : Char) : Bool := isDigit c ∨ c = '-' ∨ c = '+' ∨ c = '.' ∨ c = 'e' ∨ c = 'E'

/-- Whether a text is an exponent, or nothing. -/
def isExponent : List Char → Bool
  | [] => true
  | c :: rest =>
      let digits := match rest with
        | '+' :: digits => digits
        | '-' :: digits => digits
        | digits => digits
      (c = 'e' ∨ c = 'E') && ¬ digits.isEmpty && digits.all isDigit

/-- Whether a text is what may follow the whole part of a number. -/
def isFraction : List Char → Bool
  | '.' :: rest => ¬ (rest.takeWhile isDigit).isEmpty && isExponent (rest.dropWhile isDigit)
  | rest => isExponent rest

/-- The number of a text. Its whole part is written without noughts in front, as an
    integer is. -/
def numberOf (text : List Char) : Option Json :=
  let (negative, digits) := PyNumber.readSign text
  let whole := digits.takeWhile isDigit
  let rest := digits.dropWhile isDigit
  let n := Nat.ofDigitChars 10 whole 0
  if text.head? = some '+' ∨ (toString n).toList ≠ whole then none
  else if rest.isEmpty then some (int (PyNumber.signed negative n))
  else if isFraction rest then some (float (PyNumber.floatRepr text))
  else none

/-- The number at the front of a text. -/
def readNumber (text : List Char) : Option (Json × List Char) :=
  (numberOf (text.takeWhile isNumberChar)).map fun value => (value, text.dropWhile isNumberChar)

/-- The words that are values. -/
def words : List (List Char × Json) :=
  [("null".toList, null), ("true".toList, bool true), ("false".toList, bool false),
    ("NaN".toList, float "NaN"), ("Infinity".toList, float "Infinity"),
    ("-Infinity".toList, float "-Infinity")]

/-- The word or the number at the front of a text. -/
def readScalar (text : List Char) : Option (Json × List Char) :=
  match words.find? fun word => word.1.isPrefixOf text with
  | some (word, value) => some (value, text.drop word.length)
  | none => readNumber text

/-- The members of an object, the later value where a name is given twice. -/
def collect (members : List (PyStr × Json)) : List (PyStr × Json) :=
  members.foldl (fun fields member => Dict.setL member.1 member.2 fields) []

mutual

/-- The value at the front of a text, and what follows it. -/
def readValue : Nat → List Char → Option (Json × List Char)
  | 0, _ => none
  | _ + 1, '"' :: rest => (readString rest).map fun (units, rest) => (str (ofUnits units), rest)
  | fuel + 1, '[' :: rest =>
      match skipSpace rest with
      | ']' :: rest => some (list [], rest)
      | rest => (readItems fuel rest).map fun (items, rest) => (list items, rest)
  | fuel + 1, '{' :: rest =>
      match skipSpace rest with
      | '}' :: rest => some (obj [], rest)
      | rest => (readMembers fuel rest).map fun (members, rest) => (obj (collect members), rest)
  | _ + 1, text => readScalar text

/-- The items of a list, from the first one on. -/
def readItems : Nat → List Char → Option (List Json × List Char)
  | 0, _ => none
  | fuel + 1, text => do
      let (item, rest) ← readValue fuel text
      match skipSpace rest with
      | ']' :: rest => some ([item], rest)
      | ',' :: rest =>
          let (items, rest) ← readItems fuel (skipSpace rest)
          some (item :: items, rest)
      | _ => none

/-- The members of an object, from the first one on. -/
def readMembers : Nat → List Char → Option (List (PyStr × Json) × List Char)
  | 0, _ => none
  | fuel + 1, '"' :: text => do
      let (units, rest) ← readString text
      match skipSpace rest with
      | ':' :: rest =>
          let (value, rest) ← readValue fuel (skipSpace rest)
          match skipSpace rest with
          | '}' :: rest => some ([(ofUnits units, value)], rest)
          | ',' :: rest =>
              let (members, rest) ← readMembers fuel (skipSpace rest)
              some ((ofUnits units, value) :: members, rest)
          | _ => none
      | _ => none
  | _ + 1, _ => none

end

/-- `json.loads`. -/
def loads (text : List Char) : Option Json :=
  match readValue (2 * text.length) (skipSpace text) with
  | some (value, rest) => if (skipSpace rest).isEmpty then some value else none
  | none => none

end Reading

/-!
### Texts

What is written for a text is read as the text, one escape at a time.
-/

section Strings

/-- The code units of code points. -/
def unitsOf (codes : List Nat) : List Nat :=
  codes.flatMap fun code =>
    if code < 0x10000 then [code]
    else [0xD800 + (code - 0x10000) / 0x400, 0xDC00 + (code - 0x10000) % 0x400]

theorem hexValue_hexDigit (n : Nat) : hexValue? (hexDigit n) = some (n % 16) := by
  have hall : ∀ i : Fin 16, hexValue? (Nat.digitChar i) = some i.val := by decide
  exact hall ⟨n % 16, Nat.mod_lt n (by decide)⟩

theorem hexUnit_hexDigits {n : Nat} (h : n < 65536) :
    hexUnit? (hexDigit (n / 4096)) (hexDigit (n / 256)) (hexDigit (n / 16)) (hexDigit n) =
      some n := by
  have hvalue : (((n / 4096 % 16) * 16 + n / 256 % 16) * 16 + n / 16 % 16) * 16 + n % 16 = n := by
    omega
  simp only [hexUnit?, hexValue_hexDigit, Option.bind_eq_bind, Option.bind_some, hvalue]

theorem readString_escapeUnit {n : Nat} (h : n < 65536) {text : List Char} :
    readString (escapeUnit n ++ text) =
      (readString text).map fun read => (n :: read.1, read.2) := by
  simp only [escapeUnit, List.cons_append, List.nil_append, readString, hexUnit_hexDigits h,
    Option.bind_eq_bind, Option.bind_some]
  cases readString text <;> rfl

theorem unescape_of_shortEscape {c letter : Char} (h : shortEscape c = some letter) :
    unescape? letter = some c := by
  unfold shortEscape at h
  split_ifs at h
  all_goals
    cases h
    subst_vars
    rfl

/-- A character is read as its code units. -/
theorem readString_escapeChar (c : Char) (text : List Char) :
    readString (escapeChar c ++ text) =
      (readString text).map fun read => (unitsOf [c.toNat] ++ read.1, read.2) := by
  have hvalid : c.toNat < 0xD800 ∨ 0xDFFF < c.toNat ∧ c.toNat < 0x110000 := c.valid
  unfold escapeChar
  cases hshort : shortEscape c with
  | some letter =>
      -- The letters that stand for a short escape are all of the basic plane.
      have hsmall : c.toNat < 0x10000 := by
        unfold shortEscape at hshort
        split_ifs at hshort <;> (subst_vars; decide)
      have hu : letter ≠ 'u' := fun heq => shortEscape_ne_u c (heq ▸ hshort)
      have hunits : unitsOf [c.toNat] = [c.toNat] := by simp [unitsOf, hsmall]
      rw [hunits]
      simp only [List.cons_append, List.nil_append]
      rw [readString.eq_def]
      split
      · contradiction
      · simp_all
      · simp_all
      · rename_i heq
        rw [List.cons.injEq, List.cons.injEq] at heq
        rcases heq with ⟨-, rfl, rfl⟩
        rw [unescape_of_shortEscape hshort]
        simp only [Option.bind_eq_bind, Option.bind_some]
        cases readString text <;> rfl
      · rename_i hnot heq
        rw [List.cons.injEq] at heq
        rcases heq with ⟨rfl, rfl⟩
        exact (hnot letter text rfl rfl).elim
  | none =>
      dsimp only
      -- What is printable is written as it is, and is neither the quote nor the backslash.
      split
      · rename_i hprintable
        have hquote : c ≠ '"' := by
          rintro rfl
          exact absurd hshort (by decide)
        have hslash : c ≠ '\\' := by
          rintro rfl
          exact absurd hshort (by decide)
        have hunits : unitsOf [c.toNat] = [c.toNat] := by
          have hsmall : c.toNat < 0x10000 := by omega
          simp [unitsOf, hsmall]
        have hcontrol : ¬ (c = '\\' ∨ c.toNat < 0x20) := by
          rintro (h | h)
          · exact hslash h
          · omega
        rw [hunits, List.cons_append, List.nil_append]
        rw [readString.eq_def]
        split
        · contradiction
        · simp_all
        · simp_all
        · simp_all
        · rename_i heq
          rw [List.cons.injEq] at heq
          rcases heq with ⟨rfl, rfl⟩
          rw [if_neg hcontrol]
          simp only [Option.bind_eq_bind]
          cases readString text <;> rfl
      -- All else is written as units of four digits, one for the basic plane and two above it.
      · split
        · rename_i hbasic
          rw [readString_escapeUnit hbasic]
          simp [unitsOf, hbasic]
        · rename_i hastral
          rw [List.append_assoc, readString_escapeUnit (by omega), readString_escapeUnit (by omega)]
          simp [unitsOf, hastral, Function.comp_def]

theorem unitsOf_append (xs ys : List Nat) : unitsOf (xs ++ ys) = unitsOf xs ++ unitsOf ys :=
  List.flatMap_append

theorem readString_escapeText (cs : List Char) (text : List Char) :
    readString (cs.flatMap escapeChar ++ text) =
      (readString text).map fun read => (unitsOf (cs.map Char.toNat) ++ read.1, read.2) := by
  induction cs with
  | nil =>
      rw [List.flatMap_nil, List.nil_append]
      cases readString text <;> simp [unitsOf]
  | cons c cs ih =>
      rw [List.flatMap_cons, List.append_assoc, readString_escapeChar, ih, Option.map_map,
        List.map_cons]
      have hunits : unitsOf (c.toNat :: cs.map Char.toNat) =
          unitsOf [c.toNat] ++ unitsOf (cs.map Char.toNat) := unitsOf_append [c.toNat] _
      simp only [hunits, Function.comp_def, List.append_assoc]

/-- A string is read as its code units. -/
theorem readString_escapeStr (k : PyStr) (text : List Char) :
    readString (escapeStr k ++ text) =
      (readString text).map fun read => (unitsOf k.codes ++ read.1, read.2) := by
  induction k with
  | text s => exact readString_escapeText s.toList text
  | lone before code rest ih =>
      have hunit : 0xD800 + code.val < 65536 := by
        have := code.isLt
        omega
      have hunits : unitsOf (PyStr.lone before code rest).codes =
          unitsOf (before.toList.map Char.toNat) ++
            ((0xD800 + code.val) :: unitsOf rest.codes) := by
        rw [PyStr.codes, unitsOf_append, List.append_cancel_left_eq]
        simp [unitsOf, hunit]
      unfold escapeStr escapeText
      rw [List.append_assoc, List.append_assoc, readString_escapeText, readString_escapeUnit hunit,
        ih, hunits, Option.map_map, Option.map_map]
      simp only [Function.comp_def, List.append_assoc, List.cons_append]

end Strings

end Json

namespace PyStr

theorem ofCodes_chars (cs : List Char) (rest : List Nat) :
    ofCodes (cs.map Char.toNat ++ rest) = cs.foldr PyStr.cons (ofCodes rest) := by
  induction cs with
  | nil => rfl
  | cons c cs ih =>
      have hvalid : c.toNat < 0xD800 ∨ 0xDFFF < c.toNat ∧ c.toNat < 0x110000 := c.valid
      have hscalar : ¬ (0xD800 ≤ c.toNat ∧ c.toNat < 0xE000) := by omega
      rw [List.map_cons, List.cons_append, ofCodes, dif_neg hscalar, ih, List.foldr_cons,
        Char.ofNat_toNat]

theorem foldr_cons_text (cs : List Char) (s : String) :
    cs.foldr PyStr.cons (text s) = text (String.ofList (cs ++ s.toList)) := by
  induction cs with
  | nil => simp
  | cons c cs ih => simp [ih, cons]

theorem foldr_cons_lone (cs : List Char) (before : String) (code : Fin 2048) (rest : PyStr) :
    cs.foldr PyStr.cons (lone before code rest) =
      lone (String.ofList (cs ++ before.toList)) code rest := by
  induction cs with
  | nil => simp
  | cons c cs ih => simp [ih, cons]

/-- A text is made of its code points. -/
theorem ofCodes_codes (s : PyStr) : ofCodes s.codes = s := by
  induction s with
  | text s =>
      have hchars := ofCodes_chars s.toList []
      rw [List.append_nil] at hchars
      rw [codes, hchars, ofCodes, foldr_cons_text]
      simp
  | lone before code rest ih =>
      have hsurrogate : 0xD800 ≤ 0xD800 + code.val ∧ 0xD800 + code.val < 0xE000 := by
        have := code.isLt
        omega
      rw [codes, ofCodes_chars, ofCodes, dif_pos hsurrogate, ih, foldr_cons_lone]
      simp

/-- The codes of a text are below the last code point. -/
theorem codes_lt (s : PyStr) : ∀ code ∈ s.codes, code < 0x110000 := by
  have hchars : ∀ t : String, ∀ code ∈ t.toList.map Char.toNat, code < 0x110000 := by
    intro t code hcode
    rcases List.mem_map.mp hcode with ⟨c, -, rfl⟩
    have hvalid : c.toNat < 0xD800 ∨ 0xDFFF < c.toNat ∧ c.toNat < 0x110000 := c.valid
    omega
  induction s with
  | text s => exact hchars s
  | lone before code rest ih =>
      intro n hn
      rw [codes, List.mem_append, List.mem_cons] at hn
      rcases hn with h | rfl | h
      · exact hchars before n h
      · have := code.isLt
        omega
      · exact ih n h

/-- Code points are made of their units, where no two are halves of one character. -/
theorem joinUnits_unitsOf (codes : List Nat) (hlt : ∀ code ∈ codes, code < 0x110000)
    (h : unpaired codes = true) : joinUnits (Json.unitsOf codes) = codes := by
  induction codes with
  | nil => rfl
  | cons code rest ih =>
      have hrest : unpaired rest = true := by
        cases rest with
        | nil => rfl
        | cons next rest =>
            rw [unpaired, Bool.and_eq_true] at h
            exact h.2
      have ih := ih (fun c hc => hlt c (List.mem_cons_of_mem _ hc)) hrest
      have hcode := hlt code List.mem_cons_self
      have hunits : Json.unitsOf (code :: rest) =
          (if code < 0x10000 then [code]
            else [0xD800 + (code - 0x10000) / 0x400, 0xDC00 + (code - 0x10000) % 0x400]) ++
          Json.unitsOf rest := List.flatMap_cons
      rw [hunits]
      split
      · -- The unit that follows is no second half, whichever code point it is of.
        cases hnext : Json.unitsOf rest with
        | nil =>
            rw [hnext] at ih
            rw [← ih]
            rfl
        | cons unit units =>
            have hpair : ¬ (isHigh code = true ∧ isLow unit = true) := by
              cases rest with
              | nil => cases hnext
              | cons next rest =>
                  rw [unpaired, Bool.and_eq_true, decide_eq_true_iff] at h
                  have hfirst : Json.unitsOf (next :: rest) =
                    (if next < 0x10000 then [next]
                      else [0xD800 + (next - 0x10000) / 0x400,
                        0xDC00 + (next - 0x10000) % 0x400]) ++ Json.unitsOf rest :=
                    List.flatMap_cons
                  rw [hfirst] at hnext
                  split at hnext
                  · cases hnext
                    exact h.1
                  · cases hnext
                    have hnlt := hlt next (by simp)
                    rintro ⟨-, hlow⟩
                    simp only [isLow, decide_eq_true_eq] at hlow
                    omega
            rw [List.singleton_append, joinUnits, if_neg hpair, ← hnext, ih]
      -- Above the basic plane two units are written, and they join again.
      · rename_i hastral
        have hhigh : isHigh (0xD800 + (code - 0x10000) / 0x400) = true := by
          simp only [isHigh, decide_eq_true_eq]
          omega
        have hlow : isLow (0xDC00 + (code - 0x10000) % 0x400) = true := by
          simp only [isLow, decide_eq_true_eq]
          omega
        have hvalue : 0x10000 + (0xD800 + (code - 0x10000) / 0x400 - 0xD800) * 0x400 +
            (0xDC00 + (code - 0x10000) % 0x400 - 0xDC00) = code := by omega
        rw [List.cons_append, List.cons_append, List.nil_append, joinUnits, if_pos ⟨hhigh, hlow⟩,
          ih, hvalue]

end PyStr

namespace Json

/-- A string is read again, whatever follows. -/
theorem readString_dumpsStr {k : PyStr} (h : PyStr.unpaired k.codes = true) (s : List Char) :
    (readString (escapeStr k ++ '"' :: s)).map (fun read => (ofUnits read.1, read.2)) =
      some (k, s) := by
  rw [readString_escapeStr, readString]
  simp only [Option.map_some, List.append_nil, ofUnits,
    PyStr.joinUnits_unitsOf k.codes k.codes_lt h, PyStr.ofCodes_codes]

/-!
### Scalars

A number is read up to where it ends, so what comes after it matters.
-/

section Scalars

variable {text s : List Char}

/-- No number goes on into what follows. -/
def EndsNumber (s : List Char) : Prop := ∀ c rest, s = c :: rest → isNumberChar c = false

theorem takeWhile_append_ends {p : Char → Bool} (htext : ∀ c ∈ text, p c = true)
    (hs : ∀ c rest, s = c :: rest → p c = false) :
    (text ++ s).takeWhile p = text ∧ (text ++ s).dropWhile p = s := by
  rw [List.takeWhile_append_of_pos htext, List.dropWhile_append_of_pos htext]
  cases s with
  | nil => simp
  | cons c rest => simp [hs c rest rfl]

theorem readNumber_append {v : Json} (htext : ∀ c ∈ text, isNumberChar c = true)
    (hv : numberOf text = some v) (hs : EndsNumber s) :
    readNumber (text ++ s) = some (v, s) := by
  rcases takeWhile_append_ends htext hs with ⟨htake, hdrop⟩
  unfold readNumber
  rw [htake, hdrop, hv]
  rfl

/-- No word stands where a number does. -/
theorem words_find_number {v : Json} (htext : ∀ c ∈ text, isNumberChar c = true)
    (hv : numberOf text = some v) :
    (words.find? fun word => word.1.isPrefixOf (text ++ s)) = none := by
  -- A number begins with a digit or a minus, and the only word that begins so is -Infinity.
  have hnil : numberOf [] = none := by decide
  have hsign : numberOf ['-'] = none := by decide
  rcases text with _ | ⟨c, text⟩
  · rw [hnil] at hv
    cases hv
  · have hc := htext c List.mem_cons_self
    have hletters : ∀ d ∈ ['n', 't', 'f', 'N', 'I'], ∀ rest : List Char,
        ¬ ((d :: rest).isPrefixOf (c :: text ++ s)) = true := by
      intro d hd rest hprefix
      rw [List.isPrefixOf_iff_prefix] at hprefix
      rcases hprefix with ⟨_, heq⟩
      have hfirst : d = c := (List.cons.inj heq).1
      have hall : ∀ d ∈ ['n', 't', 'f', 'N', 'I'], isNumberChar d = false := by
        intro d hd
        simp only [List.mem_cons, List.not_mem_nil, or_false] at hd
        rcases hd with rfl | rfl | rfl | rfl | rfl <;> rfl
      rw [← hfirst, hall d hd] at hc
      cases hc
    have hminus : ¬ ("-Infinity".toList.isPrefixOf (c :: text ++ s)) = true := by
      rw [List.isPrefixOf_iff_prefix]
      rintro ⟨rest, heq⟩
      have hfirst : '-' = c := (List.cons.inj heq).1
      subst hfirst
      rcases text with _ | ⟨d, text⟩
      · rw [hsign] at hv
        cases hv
      · have hsecond : 'I' = d := (List.cons.inj (List.cons.inj heq).2).1
        subst hsecond
        exact absurd (htext 'I' (by simp)) (by decide)
    -- Each of the six words in turn.
    rw [List.find?_eq_none]
    intro word hword
    simp only [words, List.mem_cons, List.not_mem_nil, or_false] at hword
    rcases hword with rfl | rfl | rfl | rfl | rfl | rfl
    · exact hletters 'n' (by simp) _
    · exact hletters 't' (by simp) _
    · exact hletters 'f' (by simp) _
    · exact hletters 'N' (by simp) _
    · exact hletters 'I' (by simp) _
    · exact hminus

theorem readScalar_number {v : Json} (htext : ∀ c ∈ text, isNumberChar c = true)
    (hv : numberOf text = some v) (hs : EndsNumber s) :
    readScalar (text ++ s) = some (v, s) := by
  unfold readScalar
  rw [words_find_number htext hv]
  exact readNumber_append htext hv hs

/-- A word is read, whatever follows: no word is the beginning of another. -/
theorem readScalar_word {word : List Char × Json} (hword : word ∈ words) (s : List Char) :
    readScalar (word.1 ++ s) = some (word.2, s) := by
  simp only [words, List.mem_cons, List.not_mem_nil, or_false] at hword
  rcases hword with rfl | rfl | rfl | rfl | rfl | rfl <;> rfl

theorem isDigit_toString (n : Nat) : ∀ c ∈ (toString n).toList, isDigit c = true := by
  intro c hc
  have hmem : c ∈ Nat.toDigits 10 n := by
    simpa [Nat.toString_eq_repr, Nat.repr] using hc
  have hdigit := Nat.isDigit_of_mem_toDigits (by decide) (by decide) hmem
  simp only [Char.isDigit, ge_iff_le, Bool.and_eq_true, decide_eq_true_eq] at hdigit
  exact decide_eq_true ⟨hdigit.1, hdigit.2⟩

theorem ofDigitChars_toString (n : Nat) : Nat.ofDigitChars 10 (toString n).toList 0 = n := by
  change Nat.ofDigitChars 10 (Nat.repr n).toList 0 = n
  rw [Nat.toList_repr]
  exact Nat.ofDigitChars_ten_toDigits

/-- Digits carry no sign. -/
theorem readSign_toString (n : Nat) :
    PyNumber.readSign (toString n).toList = (false, (toString n).toList) := by
  have hdigit := isDigit_toString n
  cases htext : (toString n).toList with
  | nil => rfl
  | cons c rest =>
      rw [htext] at hdigit
      have hc := hdigit c List.mem_cons_self
      have hminus : c ≠ '-' := by
        rintro rfl
        exact absurd hc (by decide)
      have hplus : c ≠ '+' := by
        rintro rfl
        exact absurd hc (by decide)
      unfold PyNumber.readSign
      split <;> simp_all

/-- An integer is read from its text. -/
theorem numberOf_int (z : Int) : numberOf (toString z).toList = some (int z) := by
  -- The digits of a number are read up to its end.
  have hread : ∀ n : Nat, (toString n).toList.takeWhile isDigit = (toString n).toList ∧
      (toString n).toList.dropWhile isDigit = [] := by
    intro n
    have h := @takeWhile_append_ends _ [] isDigit (isDigit_toString n) (fun _ _ h => by cases h)
    rwa [List.append_nil] at h
  have hhead : ∀ n : Nat, (toString n).toList.head? ≠ some '+' := by
    intro n heq
    have hmem := List.mem_of_mem_head? (Option.mem_def.mpr heq)
    exact absurd (isDigit_toString n '+' hmem) (by decide)
  cases z with
  | ofNat n =>
      have htext : (toString (Int.ofNat n)).toList = (toString n).toList := rfl
      -- A sign is read only if it is there, and digits begin with none.
      rw [htext]
      unfold numberOf
      rw [readSign_toString]
      dsimp only
      rw [(hread n).1, (hread n).2, ofDigitChars_toString, if_neg]
      · rfl
      · rintro (h | h)
        · exact hhead n h
        · exact h rfl
  | negSucc n =>
      have htext : (toString (Int.negSucc n)).toList = '-' :: (toString (n + 1)).toList := by
        change ("-" ++ toString (n + 1)).toList = _
        rw [String.toList_append]
        rfl
      rw [htext]
      unfold numberOf
      simp only [PyNumber.readSign]
      rw [(hread (n + 1)).1, (hread (n + 1)).2, ofDigitChars_toString, if_neg]
      · rfl
      · simp

theorem isNumberChar_int (z : Int) : ∀ c ∈ (toString z).toList, isNumberChar c = true := by
  intro c hc
  cases z with
  | ofNat n => simp [isNumberChar, isDigit_toString n c hc]
  | negSucc n =>
      have hc' : c ∈ ("-" ++ toString (n + 1)).toList := hc
      rw [String.toList_append, List.mem_append] at hc'
      rcases hc' with hminus | hrest
      · rw [show "-".toList = ['-'] from rfl, List.mem_singleton] at hminus
        rw [hminus]
        decide
      · simp [isNumberChar, isDigit_toString (n + 1) c hrest]

end Scalars

/-!
### Values

What is written for a value is read as the value, by induction on it together with its
items and its members.
-/

section Values

mutual

/-- What reading gives: no two halves of a character in a row, no member twice, and
    floats with their shortest text. -/
def isDecoded : Json → Bool
  | null | bool _ | int _ => true
  | float text =>
      (words.any fun word => word = (text.toList, float text)) ||
        text.toList.all isNumberChar && numberOf text.toList = some (float text)
  | str s => PyStr.unpaired s.codes
  | list xs => isDecodedItems xs
  | obj fields => (fields.map Prod.fst).Nodup && isDecodedMembers fields

/-- Every item can come from a text. -/
def isDecodedItems : List Json → Bool
  | [] => true
  | x :: xs => x.isDecoded && isDecodedItems xs

/-- Every member can come from a text. -/
def isDecodedMembers : List (PyStr × Json) → Bool
  | [] => true
  | (k, v) :: rest => PyStr.unpaired k.codes && v.isDecoded && isDecodedMembers rest

end

/-- Members without a name twice are collected as they are. -/
theorem collect_of_nodup {fields : List (PyStr × Json)} (h : (fields.map Prod.fst).Nodup) :
    collect fields = fields := by
  have hgo : ∀ front : List (PyStr × Json), ((front ++ fields).map Prod.fst).Nodup →
      fields.foldl (fun fields member => Dict.setL member.1 member.2 fields) front =
        front ++ fields := by
    induction fields with
    | nil =>
        intro front _
        rw [List.append_nil]
        rfl
    | cons m rest ih =>
        intro front hfront
        have hnew : Dict.lookupL m.1 front = none := by
          rw [Dict.lookupL_eq_none]
          intro hmem
          rw [List.map_append, List.nodup_append] at hfront
          exact hfront.2.2 _ hmem m.1 (by simp) rfl
        rw [List.foldl_cons, Dict.setL_of_lookupL_none m.2 hnew,
          ih (List.nodup_cons.mp (by simpa using h)).2 _ (by simpa using hfront)]
        simp
  have hall := hgo [] (by simpa using h)
  simpa [collect] using hall

/-- What the text of a value begins with: no blank, and no closing bracket. -/
def Opens (text : List Char) : Prop :=
  ∃ c rest, text = c :: rest ∧ isSpace c = false ∧ c ≠ ']' ∧ c ≠ '}'

theorem Opens.skipSpace_eq {text : List Char} (h : Opens text) (s : List Char) :
    skipSpace (text ++ s) = text ++ s := by
  rcases h with ⟨c, rest, rfl, hspace, -, -⟩
  simp [skipSpace, hspace]

/-- A number opens with a character no other value opens with. -/
theorem opens_number {text : List Char} {v : Json}
    (htext : ∀ c ∈ text, isNumberChar c = true) (hv : numberOf text = some v) : Opens text := by
  have hnil : numberOf [] = none := by decide
  rcases text with _ | ⟨c, rest⟩
  · rw [hnil] at hv
    cases hv
  · have hc := htext c List.mem_cons_self
    refine ⟨c, rest, rfl, ?_, ?_, ?_⟩
    · by_contra hspace
      simp only [isSpace, decide_eq_true_eq, Bool.not_eq_false] at hspace
      rcases hspace with rfl | rfl | rfl | rfl <;> exact absurd hc (by decide)
    · rintro rfl
      exact absurd hc (by decide)
    · rintro rfl
      exact absurd hc (by decide)

theorem opens_word {word : List Char × Json} (hword : word ∈ words) : Opens word.1 := by
  simp only [words, List.mem_cons, List.not_mem_nil, or_false] at hword
  rcases hword with rfl | rfl | rfl | rfl | rfl | rfl <;>
    exact ⟨_, _, rfl, by decide, by decide, by decide⟩

theorem Opens.fuel_pos {text : List Char} (h : Opens text) {fuel : Nat}
    (hfuel : 2 * text.length ≤ fuel) : 0 < fuel := by
  rcases h with ⟨c, rest, rfl, -⟩
  rw [List.length_cons] at hfuel
  omega

/-- What no scalar begins with. -/
def Plain (text : List Char) : Prop :=
  ∀ c rest, text = c :: rest → c ≠ '"' ∧ c ≠ '[' ∧ c ≠ '{'

theorem plain_number {text : List Char} (htext : ∀ c ∈ text, isNumberChar c = true) :
    Plain text := by
  rintro c rest rfl
  have hc := htext c List.mem_cons_self
  refine ⟨?_, ?_, ?_⟩ <;>
    · rintro rfl
      exact absurd hc (by decide)

theorem plain_word {word : List Char × Json} (hword : word ∈ words) : Plain word.1 := by
  simp only [words, List.mem_cons, List.not_mem_nil, or_false] at hword
  rcases hword with rfl | rfl | rfl | rfl | rfl | rfl <;>
    · rintro c rest ⟨⟩
      decide

theorem float_cases {text : String} (h : (float text).isDecoded = true) :
    (text.toList, float text) ∈ words ∨
      (∀ c ∈ text.toList, isNumberChar c = true) ∧ numberOf text.toList = some (float text) := by
  simp only [isDecoded, Bool.or_eq_true, Bool.and_eq_true, decide_eq_true_eq,
    List.any_eq_true] at h
  rcases h with ⟨word, hmem, heq⟩ | ⟨hchars, hnumber⟩
  · exact .inl (heq ▸ hmem)
  · exact .inr ⟨List.all_eq_true.mp hchars, hnumber⟩

/-- The text of a value begins with the value. -/
theorem opens_dumps {v : Json} (h : v.isDecoded = true) : Opens (dumps v) := by
  have hfixed : ∀ c rest, isSpace c = false → c ≠ ']' → c ≠ '}' → Opens (c :: rest) :=
    fun c rest hspace hlist hobj => ⟨c, rest, rfl, hspace, hlist, hobj⟩
  cases v with
  | null => exact hfixed _ _ (by decide) (by decide) (by decide)
  | bool b => cases b <;> exact hfixed _ _ (by decide) (by decide) (by decide)
  | int z => exact opens_number (isNumberChar_int z) (numberOf_int z)
  | float text =>
      rcases float_cases h with hword | ⟨hchars, hnumber⟩
      · exact opens_word hword
      · exact opens_number hchars hnumber
  | str s => exact hfixed _ _ (by decide) (by decide) (by decide)
  | list xs => cases xs <;> exact hfixed _ _ (by decide) (by decide) (by decide)
  | obj fields => cases fields <;> exact hfixed _ _ (by decide) (by decide) (by decide)

/-- A scalar is read wherever it stands. -/
theorem readValue_scalar {text : List Char} (hopens : Opens text)
    (hplain : Plain text) {v : Json} {s : List Char}
    (hread : readScalar (text ++ s) = some (v, s)) {fuel : Nat} (hfuel : 0 < fuel) :
    readValue fuel (text ++ s) = some (v, s) := by
  rcases hopens with ⟨c, rest, rfl, -, -, -⟩
  rcases hplain c rest rfl with ⟨hquote, hlist, hobj⟩
  obtain ⟨fuel, rfl⟩ : ∃ n, fuel = n + 1 := ⟨fuel - 1, by omega⟩
  rw [List.cons_append, readValue.eq_5]
  · exact hread
  all_goals
    intro _ heq
    rw [List.cons.injEq] at heq
    first
    | exact hquote heq.1
    | exact hlist heq.1
    | exact hobj heq.1

/-- The text of items, from the first one on. -/
def itemsText : List Json → List Char
  | [] => []
  | x :: xs => dumps x ++ dumpsItems xs

/-- The text of members, from the first one on. -/
def membersText : List (PyStr × Json) → List Char
  | [] => []
  | (k, v) :: rest => dumpsStr k ++ ':' :: dumps v ++ dumpsMembers rest

theorem dumps_list (xs : List Json) : dumps (list xs) = '[' :: (itemsText xs ++ [']']) := by
  cases xs <;> simp [dumps, itemsText]

theorem dumps_obj (fields : List (PyStr × Json)) :
    dumps (obj fields) = '{' :: (membersText fields ++ ['}']) := by
  rcases fields with _ | ⟨⟨k, v⟩, rest⟩ <;> simp [dumps, membersText]

theorem dumpsItems_cons (x : Json) (xs : List Json) :
    dumpsItems (x :: xs) = ',' :: itemsText (x :: xs) := by
  simp [dumpsItems, itemsText]

theorem dumpsMembers_cons (m : PyStr × Json) (rest : List (PyStr × Json)) :
    dumpsMembers (m :: rest) = ',' :: membersText (m :: rest) := by
  simp [dumpsMembers, membersText]

theorem endsNumber_cons {c : Char} (h : isNumberChar c = false) (s : List Char) :
    EndsNumber (c :: s) := by
  intro d rest heq
  cases heq
  exact h

theorem skipSpace_cons {c : Char} (h : isSpace c = false) (s : List Char) :
    skipSpace (c :: s) = c :: s := by
  simp [skipSpace, h]

theorem opens_itemsText {x : Json} (h : x.isDecoded = true) (xs : List Json) :
    Opens (itemsText (x :: xs)) := by
  rcases opens_dumps h with ⟨c, rest, heq, hc⟩
  exact ⟨c, rest ++ dumpsItems xs, by rw [itemsText, heq]; rfl, hc⟩

theorem opens_membersText (m : PyStr × Json) (rest : List (PyStr × Json)) :
    Opens (membersText (m :: rest)) :=
  ⟨'"', _, rfl, by decide, by decide, by decide⟩

theorem length_itemsText_cons (x y : Json) (ys : List Json) :
    (itemsText (x :: y :: ys)).length =
      (dumps x).length + 1 + (itemsText (y :: ys)).length := by
  rw [itemsText, List.length_append, dumpsItems_cons, List.length_cons]
  omega

theorem length_membersText_cons (k : PyStr) (v : Json) (m : PyStr × Json)
    (rest : List (PyStr × Json)) :
    (membersText ((k, v) :: m :: rest)).length =
      (dumpsStr k).length + (dumps v).length + 2 + (membersText (m :: rest)).length := by
  rw [membersText, dumpsMembers_cons]
  simp only [List.length_append, List.length_cons]
  omega

theorem isDecoded_obj {fields : List (PyStr × Json)} (h : (obj fields).isDecoded = true) :
    (fields.map Prod.fst).Nodup ∧ isDecodedMembers fields = true := by
  simp only [isDecoded, Bool.and_eq_true, decide_eq_true_eq] at h
  exact h

mutual

-- Structural recursion on the value. Every value and every item has a character
-- for each two steps of the fuel.
/-- A value is read where it stands. -/
theorem readValue_dumps : (v : Json) → v.isDecoded = true → ∀ fuel, 2 * (dumps v).length ≤ fuel →
    ∀ s, EndsNumber s → readValue fuel (dumps v ++ s) = some (v, s)
  | null, h, fuel, hfuel, s, _ =>
      readValue_scalar (opens_dumps h) (by rintro c rest ⟨⟩; decide)
        (readScalar_word (by decide : ("null".toList, null) ∈ words) s)
        ((opens_dumps h).fuel_pos hfuel)
  | bool true, h, fuel, hfuel, s, _ =>
      readValue_scalar (opens_dumps h) (by rintro c rest ⟨⟩; decide)
        (readScalar_word (by decide : ("true".toList, bool true) ∈ words) s)
        ((opens_dumps h).fuel_pos hfuel)
  | bool false, h, fuel, hfuel, s, _ =>
      readValue_scalar (opens_dumps h) (by rintro c rest ⟨⟩; decide)
        (readScalar_word (by decide : ("false".toList, bool false) ∈ words) s)
        ((opens_dumps h).fuel_pos hfuel)
  | int z, h, fuel, hfuel, s, hs =>
      readValue_scalar (opens_dumps h) (plain_number (isNumberChar_int z))
        (readScalar_number (isNumberChar_int z) (numberOf_int z) hs)
        ((opens_dumps h).fuel_pos hfuel)
  -- A float is one of the three words or a number.
  | float text, h, fuel, hfuel, s, hs => by
      rcases float_cases h with hword | ⟨hchars, hnumber⟩
      · exact readValue_scalar (opens_dumps h) (plain_word hword) (readScalar_word hword s)
          ((opens_dumps h).fuel_pos hfuel)
      · exact readValue_scalar (opens_dumps h) (plain_number hchars)
          (readScalar_number hchars hnumber hs) ((opens_dumps h).fuel_pos hfuel)
  | str k, h, fuel, hfuel, s, _ => by
      -- A text ends at its quote, which is never written inside it.
      obtain ⟨fuel, rfl⟩ : ∃ n, fuel = n + 1 := ⟨fuel - 1, by
        simp only [dumps, dumpsStr, List.length_append, List.length_cons] at hfuel
        omega⟩
      have hread := readString_dumpsStr (k := k) (by simpa [isDecoded] using h) s
      have hsome : readValue (fuel + 1) (dumps (str k) ++ s) =
          ((readString (escapeStr k ++ '"' :: s)).map fun read => (ofUnits read.1, read.2)).map
            fun read => (str read.1, read.2) := by
        simp [dumps, dumpsStr, readValue, Function.comp_def]
      rw [hsome, hread]
      rfl
  | list [], _, fuel, hfuel, s, _ => by
      obtain ⟨fuel, rfl⟩ : ∃ n, fuel = n + 1 := ⟨fuel - 1, by
        simp only [dumps, List.length_cons] at hfuel
        omega⟩
      simp [dumps, readValue, skipSpace, isSpace]
  -- A list that is not empty is not closed at once, so its items are read.
  | list (x :: xs), h, fuel, hfuel, s, _ => by
      rw [dumps_list] at hfuel ⊢
      simp only [List.length_append, List.length_cons, List.length_nil] at hfuel
      obtain ⟨fuel, rfl⟩ : ∃ n, fuel = n + 1 := ⟨fuel - 1, by omega⟩
      have hx : x.isDecoded = true := by
        simp only [isDecoded, isDecodedItems, Bool.and_eq_true] at h
        exact h.1
      have hopens := opens_itemsText hx xs
      have hitems := readItems_dumps (x :: xs) (by simp) (by simpa [isDecoded] using h) fuel
        (by omega) s
      have htext : '[' :: (itemsText (x :: xs) ++ [']']) ++ s =
          '[' :: (itemsText (x :: xs) ++ ']' :: s) := by simp
      rw [htext, readValue, hopens.skipSpace_eq]
      rcases hopens with ⟨c, tail, heq, -, hbracket, -⟩
      rw [heq] at hitems ⊢
      split
      · rename_i hclose
        exact absurd (List.cons.inj hclose).1 hbracket
      · rw [hitems]
        rfl
  | obj [], _, fuel, hfuel, s, _ => by
      obtain ⟨fuel, rfl⟩ : ∃ n, fuel = n + 1 := ⟨fuel - 1, by
        simp only [dumps, List.length_cons] at hfuel
        omega⟩
      simp [dumps, readValue, skipSpace, isSpace]
  -- And so are the members of an object; no name of it stands twice, so collecting them changes
  -- nothing.
  | obj (m :: rest), h, fuel, hfuel, s, _ => by
      rw [dumps_obj] at hfuel ⊢
      simp only [List.length_append, List.length_cons, List.length_nil] at hfuel
      obtain ⟨fuel, rfl⟩ : ∃ n, fuel = n + 1 := ⟨fuel - 1, by omega⟩
      have hopens := opens_membersText m rest
      have hmembers := readMembers_dumps (m :: rest) (by simp) (isDecoded_obj h).2 fuel (by omega) s
      have htext : '{' :: (membersText (m :: rest) ++ ['}']) ++ s =
          '{' :: (membersText (m :: rest) ++ '}' :: s) := by simp
      rw [htext, readValue, hopens.skipSpace_eq]
      rcases hopens with ⟨c, tail, heq, -, -, hbrace⟩
      rw [heq] at hmembers ⊢
      split
      · rename_i hclose
        exact absurd (List.cons.inj hclose).1 hbrace
      · rw [hmembers, Option.map_some]
        dsimp only
        rw [collect_of_nodup (isDecoded_obj h).1]

/-- A list of items is read up to its bracket. -/
theorem readItems_dumps : (xs : List Json) → xs ≠ [] → isDecodedItems xs = true →
    ∀ fuel, 2 * (itemsText xs).length + 1 ≤ fuel → ∀ s,
      readItems fuel (itemsText xs ++ ']' :: s) = some (xs, s)
  | [], hne, _, _, _, _ => (hne rfl).elim
  | [x], _, h, fuel, hfuel, s => by
      -- The last item is followed by the bracket.
      obtain ⟨fuel, rfl⟩ : ∃ n, fuel = n + 1 := ⟨fuel - 1, by omega⟩
      have hx : x.isDecoded = true := by simpa [isDecodedItems] using h
      have hlength : (itemsText [x]).length = (dumps x).length := by simp [itemsText, dumpsItems]
      have hread := readValue_dumps x hx fuel (by omega) (']' :: s)
        (endsNumber_cons (by decide) s)
      have htext : itemsText [x] ++ ']' :: s = dumps x ++ ']' :: s := by
        simp [itemsText, dumpsItems]
      rw [htext, readItems, hread]
      simp [skipSpace_cons (by decide : isSpace ']' = false)]
  | x :: y :: ys, _, h, fuel, hfuel, s => by
      -- Any other one is followed by a comma.
      obtain ⟨fuel, rfl⟩ : ∃ n, fuel = n + 1 := ⟨fuel - 1, by omega⟩
      rw [length_itemsText_cons] at hfuel
      rw [isDecodedItems, Bool.and_eq_true] at h
      have hread := readValue_dumps x h.1 fuel (by omega)
        (',' :: (itemsText (y :: ys) ++ ']' :: s)) (endsNumber_cons (by decide) _)
      have hy : y.isDecoded = true := by
        have hys := h.2
        simp only [isDecodedItems, Bool.and_eq_true] at hys
        exact hys.1
      have hopens := (opens_itemsText hy ys).skipSpace_eq (']' :: s)
      have hrest := readItems_dumps (y :: ys) (by simp) h.2 fuel (by omega) s
      have htext : itemsText (x :: y :: ys) ++ ']' :: s =
          dumps x ++ ',' :: (itemsText (y :: ys) ++ ']' :: s) := by
        rw [itemsText, dumpsItems_cons]
        simp
      rw [htext, readItems, hread]
      simp only [Option.bind_eq_bind, Option.bind_some,
        skipSpace_cons (by decide : isSpace ',' = false), hopens, hrest]

/-- The members of an object are read up to its brace. -/
theorem readMembers_dumps : (fields : List (PyStr × Json)) → fields ≠ [] →
    isDecodedMembers fields = true → ∀ fuel, 2 * (membersText fields).length + 1 ≤ fuel → ∀ s,
      readMembers fuel (membersText fields ++ '}' :: s) = some (fields, s)
  | [], hne, _, _, _, _ => (hne rfl).elim
  | [(k, v)], _, h, fuel, hfuel, s => by
      -- The last member is followed by the brace.
      obtain ⟨fuel, rfl⟩ : ∃ n, fuel = n + 1 := ⟨fuel - 1, by omega⟩
      simp only [isDecodedMembers, Bool.and_eq_true, and_true] at h
      have hlength : (membersText [(k, v)]).length =
          (dumpsStr k).length + (dumps v).length + 1 := by
        simp [membersText, dumpsMembers]
        omega
      have hread := readValue_dumps v h.2 fuel (by omega) ('}' :: s)
        (endsNumber_cons (by decide) s)
      have htext : membersText [(k, v)] ++ '}' :: s =
          '"' :: (escapeStr k ++ '"' :: ':' :: (dumps v ++ '}' :: s)) := by
        simp [membersText, dumpsMembers, dumpsStr]
      rcases Option.map_eq_some_iff.mp
        (readString_dumpsStr h.1 (':' :: (dumps v ++ '}' :: s))) with ⟨⟨units, after⟩, hkey, heq⟩
      rw [Prod.mk.injEq] at heq
      rcases heq with ⟨hname, rfl⟩
      rw [htext, readMembers, hkey]
      simp only [Option.bind_eq_bind, Option.bind_some,
        skipSpace_cons (by decide : isSpace ':' = false), (opens_dumps h.2).skipSpace_eq, hread,
        skipSpace_cons (by decide : isSpace '}' = false), hname]
  | (k, v) :: m :: rest, _, h, fuel, hfuel, s => by
      -- Any other one is followed by a comma.
      obtain ⟨fuel, rfl⟩ : ∃ n, fuel = n + 1 := ⟨fuel - 1, by omega⟩
      rw [length_membersText_cons] at hfuel
      rw [isDecodedMembers, Bool.and_eq_true, Bool.and_eq_true] at h
      have hread := readValue_dumps v h.1.2 fuel (by omega)
        (',' :: (membersText (m :: rest) ++ '}' :: s)) (endsNumber_cons (by decide) _)
      have hopens := (opens_membersText m rest).skipSpace_eq ('}' :: s)
      have hrest := readMembers_dumps (m :: rest) (by simp) h.2 fuel (by omega) s
      have htext : membersText ((k, v) :: m :: rest) ++ '}' :: s =
          '"' :: (escapeStr k ++
            '"' :: ':' :: (dumps v ++ ',' :: (membersText (m :: rest) ++ '}' :: s))) := by
        rw [membersText, dumpsMembers_cons]
        simp [dumpsStr]
      rcases Option.map_eq_some_iff.mp (readString_dumpsStr h.1.1
        (':' :: (dumps v ++ ',' :: (membersText (m :: rest) ++ '}' :: s)))) with
        ⟨⟨units, after⟩, hkey, heq⟩
      rw [Prod.mk.injEq] at heq
      rcases heq with ⟨hname, rfl⟩
      rw [htext, readMembers, hkey]
      simp only [Option.bind_eq_bind, Option.bind_some,
        skipSpace_cons (by decide : isSpace ':' = false), (opens_dumps h.1.2).skipSpace_eq, hread,
        skipSpace_cons (by decide : isSpace ',' = false), hopens, hrest, hname]

end

/-- A value is read again from its text. -/
theorem loads_dumps {v : Json} (h : v.isDecoded = true) : loads (dumps v) = some v := by
  have hread := readValue_dumps v h (2 * (dumps v).length) (Nat.le_refl _) []
    (fun _ _ heq => by cases heq)
  have hspace := (opens_dumps h).skipSpace_eq []
  rw [List.append_nil] at hread hspace
  unfold loads
  rw [hspace, hread]
  rfl

end Values

end Json

end STS2RL
