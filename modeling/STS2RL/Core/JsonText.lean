import STS2RL.Core.Json
import Mathlib.Data.List.Infix

/-!
# The Text of JSON Values

`json.dumps` with no space between items and every character outside printable
ASCII escaped. Where such texts are compared, what decides is the first place in
which they differ, and so the first value that differs: a text cannot run past
the end of a value into what follows it. `skip` finds that end, by counting
brackets outside of strings, so a value followed by a delimiter can be read off
in one way only (`dumps_append_inj`).

## Main definitions

* `escapeChar`, `dumpsStr`: The text of a string.
* `dumps`: The text of a value.
* `skip`: What follows the value at the front of a text.

## Theorems

* `dumpsStr_inj`: A string is determined by its text.
* `skip_dumps`: A value is skipped.
* `dumps_append_inj`: A value ends where its text ends.
* `lt_append_iff`: Texts are compared by where they first differ.
* `dumps_obj_lt_iff`: Objects are compared by their first members that differ.
-/

namespace STS2RL

namespace Json

/-!
### The text of a value

Python's `dumps`, with its escapes.
-/

section Text

/-- A digit of an escape. -/
def hexDigit (n : Nat) : Char := Nat.digitChar (n % 16)

/-- The escape of a code unit. -/
def escapeUnit (n : Nat) : List Char :=
  ['\\', 'u', hexDigit (n / 4096), hexDigit (n / 256), hexDigit (n / 16), hexDigit n]

/-- The letter of the characters that have a short escape. -/
def shortEscape (c : Char) : Option Char :=
  if c = '"' then some '"'
  else if c = '\\' then some '\\'
  else if c = '\n' then some 'n'
  else if c = '\r' then some 'r'
  else if c = '\t' then some 't'
  else if c = '\x08' then some 'b'
  else if c = '\x0c' then some 'f'
  else none

/-- The text of a character inside a string. A character outside the basic plane
    is escaped as two units. -/
def escapeChar (c : Char) : List Char :=
  match shortEscape c with
  | some letter => ['\\', letter]
  | none =>
      if 0x20 ≤ c.toNat ∧ c.toNat ≤ 0x7e then [c]
      else if c.toNat < 0x10000 then escapeUnit c.toNat
      else escapeUnit (0xD800 + (c.toNat - 0x10000) / 0x400) ++
        escapeUnit (0xDC00 + (c.toNat - 0x10000) % 0x400)

/-- The characters of a text, escaped. -/
def escapeText (s : String) : List Char := s.toList.flatMap escapeChar

/-- The characters of a string, its lone surrogates as escapes. -/
def escapeStr : PyStr → List Char
  | .text s => escapeText s
  | .lone before code rest => escapeText before ++ escapeUnit (0xD800 + code.val) ++ escapeStr rest

/-- `json.dumps` of a string. -/
def dumpsStr (s : PyStr) : List Char := '"' :: escapeStr s ++ ['"']

mutual

/-- The text of a value, its members in the order they have. -/
def dumps : Json → List Char
  | null => "null".toList
  | bool true => "true".toList
  | bool false => "false".toList
  | int z => (toString z).toList
  | float repr => repr.toList
  | str s => dumpsStr s
  | list [] => ['[', ']']
  | list (x :: xs) => '[' :: dumps x ++ dumpsItems xs ++ [']']
  | obj [] => ['{', '}']
  | obj ((k, v) :: rest) => '{' :: dumpsStr k ++ ':' :: dumps v ++ dumpsMembers rest ++ ['}']

/-- The items after the first. -/
def dumpsItems : List Json → List Char
  | [] => []
  | x :: xs => ',' :: dumps x ++ dumpsItems xs

/-- The members after the first. -/
def dumpsMembers : List (PyStr × Json) → List Char
  | [] => []
  | (k, v) :: rest => ',' :: dumpsStr k ++ ':' :: dumps v ++ dumpsMembers rest

end

/-- A character that neither opens nor closes nor separates anything. -/
def isPlain (c : Char) : Bool :=
  c ≠ '"' ∧ c ≠ '[' ∧ c ≠ ']' ∧ c ≠ '{' ∧ c ≠ '}' ∧ c ≠ ','

mutual

/-- Every float of the value is carried by a text of plain characters. -/
def plainFloats : Json → Bool
  | null | bool _ | int _ | str _ => true
  | float repr => repr.toList.all isPlain
  | list xs => plainFloatsItems xs
  | obj fields => plainFloatsMembers fields

/-- The numbers of each item are plain. -/
def plainFloatsItems : List Json → Bool
  | [] => true
  | x :: xs => x.plainFloats && plainFloatsItems xs

/-- The numbers of each member are plain. -/
def plainFloatsMembers : List (PyStr × Json) → Bool
  | [] => true
  | (_, v) :: rest => v.plainFloats && plainFloatsMembers rest

end

end Text

/-!
### Skipping a value

A value is skipped without being read, by its brackets and its quotes. So where it ends is
told by its text alone.
-/

section Skip

/-- Where a text is being read. -/
inductive Mode where
  | outside
  | inside
  | escaped

/-- What follows the value at the front of the text: the text from the first
    separator or closing bracket that is not inside the value. -/
def skip : Nat → Mode → List Char → List Char
  | _, _, [] => []
  | depth, .inside, c :: cs =>
      if c = '\\' then skip depth .escaped cs
      else if c = '"' then skip depth .outside cs
      else skip depth .inside cs
  | depth, .escaped, _ :: cs => skip depth .inside cs
  | depth, .outside, c :: cs =>
      if c = '"' then skip depth .inside cs
      else if c = '[' ∨ c = '{' then skip (depth + 1) .outside cs
      else if c = ']' ∨ c = '}' then
        match depth with
        | 0 => c :: cs
        | depth + 1 => skip depth .outside cs
      else if c = ',' ∧ depth = 0 then c :: cs
      else skip depth .outside cs

variable (depth : Nat) (s : List Char)

theorem skip_plain {cs : List Char} (h : ∀ c ∈ cs, isPlain c = true) :
    skip depth .outside (cs ++ s) = skip depth .outside s := by
  induction cs with
  | nil => rfl
  | cons c cs ih =>
      have hc := h c List.mem_cons_self
      simp only [isPlain, ne_eq, Bool.decide_and, Bool.and_eq_true, decide_eq_true_eq] at hc
      simp only [List.cons_append, skip, hc, false_and, or_self, if_false]
      exact ih fun c' hmem => h c' (List.mem_cons_of_mem c hmem)

theorem hexDigit_ne (n : Nat) : hexDigit n ≠ '"' ∧ hexDigit n ≠ '\\' := by
  have hdigits : ∀ i : Fin 16, Nat.digitChar i ≠ '"' ∧ Nat.digitChar i ≠ '\\' := by decide
  exact hdigits ⟨n % 16, Nat.mod_lt n (by decide)⟩

theorem skip_escapeUnit (n : Nat) :
    skip depth .inside (escapeUnit n ++ s) = skip depth .inside s := by
  simp only [escapeUnit, List.cons_append, List.nil_append, skip, (hexDigit_ne _).1,
    (hexDigit_ne _).2, if_false, if_true]

/-- An escape inside a text is skipped. -/
theorem skip_escapeChar (c : Char) :
    skip depth .inside (escapeChar c ++ s) = skip depth .inside s := by
  unfold escapeChar
  cases hshort : shortEscape c with
  | some letter => rfl
  | none =>
      -- A quote and a backslash have a short escape.
      have hc : c ≠ '"' ∧ c ≠ '\\' := by
        constructor
        · rintro rfl
          exact absurd hshort (by decide)
        · rintro rfl
          exact absurd hshort (by decide)
      dsimp only
      split
      · simp only [List.singleton_append, skip, hc.1, hc.2, if_false]
      · split
        · exact skip_escapeUnit depth s _
        · rw [List.append_assoc, skip_escapeUnit, skip_escapeUnit]

theorem skip_escapeText (cs : List Char) :
    skip depth .inside (cs.flatMap escapeChar ++ s) = skip depth .inside s := by
  induction cs with
  | nil => rfl
  | cons c cs ih => rw [List.flatMap_cons, List.append_assoc, skip_escapeChar, ih]

theorem skip_escapeStr (k : PyStr) :
    skip depth .inside (escapeStr k ++ s) = skip depth .inside s := by
  induction k with
  | text t => exact skip_escapeText depth s _
  | lone before code rest ih =>
      simp only [escapeStr, escapeText, List.append_assoc, skip_escapeText, skip_escapeUnit, ih]

theorem skip_dumpsStr (k : PyStr) :
    skip depth .outside (dumpsStr k ++ s) = skip depth .outside s := by
  have hinside : skip depth .outside (dumpsStr k ++ s) =
      skip depth .inside (escapeStr k ++ '"' :: s) := by
    simp [dumpsStr, skip]
  rw [hinside, skip_escapeStr]
  simp [skip]

/-- A number has none of the characters that end a value. -/
theorem toString_int_plain (z : Int) : ∀ c ∈ (toString z).toList, isPlain c = true := by
  have hdigit : ∀ c : Char, c.isDigit = true → isPlain c = true := by
    intro c hc
    simp only [isPlain, ne_eq, Bool.decide_and, Bool.and_eq_true, decide_eq_true_eq]
    refine ⟨?_, ?_, ?_, ?_, ?_, ?_⟩ <;>
      · rintro rfl
        exact absurd hc (by decide)
  have hnat : ∀ n : Nat, ∀ c ∈ (toString n).toList, isPlain c = true := by
    intro n c hc
    refine hdigit c ?_
    have hmem : c ∈ Nat.toDigits 10 n := by
      simpa [Nat.toString_eq_repr, Nat.repr] using hc
    exact Nat.isDigit_of_mem_toDigits (by decide) (by decide) hmem
  intro c hc
  cases z with
  | ofNat n => exact hnat n c hc
  | negSucc n =>
      have hc' : c ∈ ("-" ++ toString (n + 1)).toList := hc
      rw [String.toList_append, List.mem_append] at hc'
      rcases hc' with hminus | hrest
      · rw [show "-".toList = ['-'] from rfl, List.mem_singleton] at hminus
        rw [hminus]
        decide
      · exact hnat (n + 1) c hrest

mutual

-- Structural recursion on the value: a bracket raises the depth for what is
-- between it and its partner, where separators are passed over.
/-- A value is skipped. -/
theorem skip_dumps : (v : Json) → v.plainFloats = true → ∀ (depth : Nat) (s : List Char),
    skip depth .outside (dumps v ++ s) = skip depth .outside s
  | null, _, depth, s => skip_plain depth s (by simp [dumps, isPlain])
  | bool true, _, depth, s => skip_plain depth s (by simp [dumps, isPlain])
  | bool false, _, depth, s => skip_plain depth s (by simp [dumps, isPlain])
  | int z, _, depth, s => skip_plain depth s (toString_int_plain z)
  | float repr, h, depth, s => skip_plain depth s (List.all_eq_true.mp h)
  | str k, _, depth, s => skip_dumpsStr depth s k
  | list [], _, depth, s => by simp [dumps, skip]
  | list (x :: xs), h, depth, s => by
      rw [plainFloats, plainFloatsItems, Bool.and_eq_true] at h
      have hopen : skip depth .outside (dumps (list (x :: xs)) ++ s) =
          skip (depth + 1) .outside (dumps x ++ (dumpsItems xs ++ ']' :: s)) := by
        simp [dumps, skip]
      rw [hopen, skip_dumps x h.1, skip_dumpsItems xs h.2]
      simp [skip]
  | obj [], _, depth, s => by simp [dumps, skip]
  | obj ((k, v) :: rest), h, depth, s => by
      rw [plainFloats, plainFloatsMembers, Bool.and_eq_true] at h
      have hopen : skip depth .outside (dumps (obj ((k, v) :: rest)) ++ s) =
          skip (depth + 1) .outside
            (dumpsStr k ++ (':' :: (dumps v ++ (dumpsMembers rest ++ '}' :: s)))) := by
        simp [dumps, skip]
      have hcolon : ∀ t, skip (depth + 1) .outside (':' :: t) = skip (depth + 1) .outside t := by
        intro t
        simp [skip]
      rw [hopen, skip_dumpsStr, hcolon, skip_dumps v h.1, skip_dumpsMembers rest h.2]
      simp [skip]

theorem skip_dumpsItems : (xs : List Json) → plainFloatsItems xs = true →
    ∀ (depth : Nat) (s : List Char),
      skip (depth + 1) .outside (dumpsItems xs ++ s) = skip (depth + 1) .outside s
  | [], _, _, _ => rfl
  | x :: xs, h, depth, s => by
      rw [plainFloatsItems, Bool.and_eq_true] at h
      have hcomma : skip (depth + 1) .outside (dumpsItems (x :: xs) ++ s) =
          skip (depth + 1) .outside (dumps x ++ (dumpsItems xs ++ s)) := by
        simp [dumpsItems, skip]
      rw [hcomma, skip_dumps x h.1, skip_dumpsItems xs h.2]

theorem skip_dumpsMembers : (fields : List (PyStr × Json)) → plainFloatsMembers fields = true →
    ∀ (depth : Nat) (s : List Char),
      skip (depth + 1) .outside (dumpsMembers fields ++ s) = skip (depth + 1) .outside s
  | [], _, _, _ => rfl
  | (k, v) :: rest, h, depth, s => by
      rw [plainFloatsMembers, Bool.and_eq_true] at h
      have hcomma : skip (depth + 1) .outside (dumpsMembers ((k, v) :: rest) ++ s) =
          skip (depth + 1) .outside (dumpsStr k ++
            (':' :: (dumps v ++ (dumpsMembers rest ++ s)))) := by
        simp [dumpsMembers, skip]
      have hcolon : ∀ t, skip (depth + 1) .outside (':' :: t) = skip (depth + 1) .outside t := by
        intro t
        simp [skip]
      rw [hcomma, skip_dumpsStr, hcolon, skip_dumps v h.1, skip_dumpsMembers rest h.2]

end

/-- What may follow a value. -/
def IsDelimited (s : List Char) : Prop := ∃ c rest, s = c :: rest ∧ (c = ',' ∨ c = ']' ∨ c = '}')

theorem skip_delimited {s : List Char} (h : IsDelimited s) : skip 0 .outside s = s := by
  rcases h with ⟨c, rest, rfl, rfl | rfl | rfl⟩
  · simp [skip]
  · simp [skip]
  · simp [skip]

/-- A value ends where its text ends. -/
theorem dumps_append_inj {v w : Json} (hv : v.plainFloats = true) (hw : w.plainFloats = true)
    {s t : List Char} (hs : IsDelimited s) (ht : IsDelimited t)
    (h : dumps v ++ s = dumps w ++ t) : dumps v = dumps w ∧ s = t := by
  have hskip := congrArg (skip 0 .outside) h
  rw [skip_dumps v hv, skip_dumps w hw, skip_delimited hs, skip_delimited ht] at hskip
  rw [hskip] at h
  exact ⟨List.append_cancel_right h, hskip⟩

end Skip

/-!
### Different values, different texts

Two texts that begin alike are of one value.
-/

section Injective

theorem hexDigit_inj {m n : Nat} (h : hexDigit m = hexDigit n) : m % 16 = n % 16 := by
  have hinj : ∀ i j : Fin 16, Nat.digitChar i = Nat.digitChar j → i = j := by decide
  have := hinj ⟨m % 16, Nat.mod_lt m (by decide)⟩ ⟨n % 16, Nat.mod_lt n (by decide)⟩ h
  exact congrArg Fin.val this

theorem escapeUnit_append_inj {m n : Nat} (hm : m < 65536) (hn : n < 65536) {s t : List Char}
    (h : escapeUnit m ++ s = escapeUnit n ++ t) : m = n ∧ s = t := by
  simp only [escapeUnit, List.cons_append, List.nil_append, List.cons.injEq, true_and] at h
  rcases h with ⟨h3, h2, h1, h0, hrest⟩
  have h3' := hexDigit_inj h3
  have h2' := hexDigit_inj h2
  have h1' := hexDigit_inj h1
  have h0' := hexDigit_inj h0
  exact ⟨by omega, hrest⟩

/-- The character a letter is the short escape of. -/
def shortUnescape (letter : Char) : Char :=
  if letter = 'n' then '\n'
  else if letter = 'r' then '\r'
  else if letter = 't' then '\t'
  else if letter = 'b' then '\x08'
  else if letter = 'f' then '\x0c'
  else letter

theorem shortUnescape_of_shortEscape {c letter : Char} (h : shortEscape c = some letter) :
    shortUnescape letter = c := by
  unfold shortEscape at h
  split_ifs at h
  all_goals
    cases h
    subst_vars
    rfl

theorem shortEscape_ne_u (c : Char) : shortEscape c ≠ some 'u' := by
  intro h
  have hu := shortUnescape_of_shortEscape h
  rw [← hu] at h
  exact absurd h (by decide)

/-- The three shapes a character outside of the short escapes has. -/
theorem escapeChar_cases (c : Char) :
    (∃ letter, shortEscape c = some letter ∧ escapeChar c = ['\\', letter]) ∨
    (c ≠ '\\' ∧ escapeChar c = [c]) ∨
    (c.toNat < 0xD800 ∨ 0xDFFF < c.toNat) ∧ c.toNat < 0x10000 ∧
      escapeChar c = escapeUnit c.toNat ∨
    0x10000 ≤ c.toNat ∧ c.toNat < 0x110000 ∧
      escapeChar c = escapeUnit (0xD800 + (c.toNat - 0x10000) / 0x400) ++
        escapeUnit (0xDC00 + (c.toNat - 0x10000) % 0x400) := by
  have hvalid : c.toNat < 0xD800 ∨ 0xDFFF < c.toNat ∧ c.toNat < 0x110000 := c.valid
  cases hshort : shortEscape c with
  | some letter => exact .inl ⟨letter, rfl, by simp only [escapeChar, hshort]⟩
  | none =>
      refine .inr ?_
      by_cases hprintable : 0x20 ≤ c.toNat ∧ c.toNat ≤ 0x7e
      · refine .inl ⟨?_, by simp only [escapeChar, hshort, if_pos hprintable]⟩
        rintro rfl
        exact absurd hshort (by decide)
      · refine .inr ?_
        by_cases hbasic : c.toNat < 0x10000
        · refine .inl ⟨by omega, hbasic, ?_⟩
          simp only [escapeChar, hshort, if_neg hprintable, if_pos hbasic]
        · refine .inr ⟨by omega, by omega, ?_⟩
          simp only [escapeChar, hshort, if_neg hprintable, if_neg hbasic]

theorem escapeUnit_append_ne {n : Nat} {c d letter : Char} {s t : List Char} (hd : d ≠ '\\')
    (hletter : shortEscape c = some letter) :
    escapeUnit n ++ s ≠ ['\\', letter] ++ t ∧ escapeUnit n ++ s ≠ [d] ++ t := by
  constructor
  · intro h
    simp only [escapeUnit, List.cons_append, List.nil_append, List.cons.injEq, true_and] at h
    rw [← h.1] at hletter
    exact shortEscape_ne_u c hletter
  · intro h
    simp only [escapeUnit, List.cons_append, List.nil_append, List.cons.injEq] at h
    exact hd h.1.symm

/-- A character is determined by its text, whatever follows. -/
theorem escapeChar_append_inj {c d : Char} {s t : List Char}
    (h : escapeChar c ++ s = escapeChar d ++ t) : c = d ∧ s = t := by
  have hquote : shortEscape '"' = some '"' := by decide
  rcases escapeChar_cases c with ⟨l, hl, hc⟩ | ⟨hc', hc⟩ | ⟨hc₁, hc₂, hc⟩ | ⟨hc₁, hc₂, hc⟩ <;>
    rcases escapeChar_cases d with ⟨l', hl', hd⟩ | ⟨hd', hd⟩ | ⟨hd₁, hd₂, hd⟩ | ⟨hd₁, hd₂, hd⟩ <;>
    rw [hc, hd] at h
  -- Two short escapes are of the same character, for a letter is short for one character only.
  · simp only [List.cons_append, List.nil_append, List.cons.injEq, true_and] at h
    rw [← h.1] at hl'
    exact ⟨(shortUnescape_of_shortEscape hl).symm.trans (shortUnescape_of_shortEscape hl'), h.2⟩
  · simp only [List.cons_append, List.nil_append, List.cons.injEq] at h
    exact absurd h.1.symm hd'
  · exact absurd h.symm (escapeUnit_append_ne (by decide : 'u' ≠ '\\') hl).1
  · rw [List.append_assoc] at h
    exact absurd h.symm (escapeUnit_append_ne (by decide : 'u' ≠ '\\') hl).1
  -- A short escape begins with a backslash, a printable character does not.
  · simp only [List.cons_append, List.nil_append, List.cons.injEq] at h
    exact absurd h.1 hc'
  · simp only [List.cons_append, List.nil_append, List.cons.injEq] at h
    exact h
  · exact absurd h.symm (escapeUnit_append_ne hc' hquote).2
  · rw [List.append_assoc] at h
    exact absurd h.symm (escapeUnit_append_ne hc' hquote).2
  · exact absurd h (escapeUnit_append_ne (by decide : 'u' ≠ '\\') hl').1
  · exact absurd h (escapeUnit_append_ne hd' hquote).2
  -- Four digits name one unit.
  · rcases escapeUnit_append_inj (by omega) (by omega) h with ⟨hcode, hrest⟩
    exact ⟨Char.toNat_inj.mp hcode, hrest⟩
  · -- A unit of a pair is no character of the basic plane.
    rw [List.append_assoc] at h
    have := (escapeUnit_append_inj (by omega) (by omega) h).1
    omega
  · rw [List.append_assoc] at h
    exact absurd h (escapeUnit_append_ne (by decide : 'u' ≠ '\\') hl').1
  · rw [List.append_assoc] at h
    exact absurd h (escapeUnit_append_ne hd' hquote).2
  · rw [List.append_assoc] at h
    have := (escapeUnit_append_inj (by omega) (by omega) h).1
    omega
  -- Both halves of the two pairs agree, so the characters do.
  · rw [List.append_assoc, List.append_assoc] at h
    rcases escapeUnit_append_inj (by omega) (by omega) h with ⟨hhigh, hrest⟩
    rcases escapeUnit_append_inj (by omega) (by omega) hrest with ⟨hlow, hrest'⟩
    exact ⟨Char.toNat_inj.mp (by omega), hrest'⟩

theorem escapeChar_ne_nil (c : Char) : escapeChar c ≠ [] := by
  rcases escapeChar_cases c with ⟨l, _, hc⟩ | ⟨_, hc⟩ | ⟨_, _, hc⟩ | ⟨_, _, hc⟩ <;>
    rw [hc] <;> simp [escapeUnit]

/-- A string is determined by its text. -/
theorem dumpsStr_inj {s t : String} (h : dumpsStr (.text s) = dumpsStr (.text t)) : s = t := by
  have hlist : ∀ cs ds : List Char, cs.flatMap escapeChar = ds.flatMap escapeChar → cs = ds := by
    intro cs
    induction cs with
    | nil =>
        intro ds hds
        cases ds with
        | nil => rfl
        | cons d ds =>
            rw [List.flatMap_nil, List.flatMap_cons] at hds
            exact absurd (List.append_eq_nil_iff.mp hds.symm).1 (escapeChar_ne_nil d)
    | cons c cs ih =>
        intro ds hds
        cases ds with
        | nil =>
            rw [List.flatMap_nil, List.flatMap_cons] at hds
            exact absurd (List.append_eq_nil_iff.mp hds).1 (escapeChar_ne_nil c)
        | cons d ds =>
            rw [List.flatMap_cons, List.flatMap_cons] at hds
            rcases escapeChar_append_inj hds with ⟨rfl, hrest⟩
            rw [ih ds hrest]
  simp only [dumpsStr, List.cons_append, List.cons.injEq, true_and] at h
  exact String.toList_inj.mp (hlist _ _ (List.append_cancel_right h))

end Injective

/-!
### The order of texts

Two objects with the same first members are ordered by what comes after.
-/

section Order

/-- Texts neither of which goes on with the other are compared by where they
    first differ, whatever follows them. -/
theorem lt_append_iff {p q s t : List Char} (hp : ¬ p <+: q) (hq : ¬ q <+: p) :
    p ++ s < q ++ t ↔ p < q := by
  induction p generalizing q with
  | nil => exact absurd List.nil_prefix hp
  | cons c p ih =>
      cases q with
      | nil => exact absurd List.nil_prefix hq
      | cons d q =>
          rw [List.cons_append, List.cons_append, List.cons_lt_cons_iff, List.cons_lt_cons_iff]
          by_cases hcd : c = d
          · subst hcd
            have hp' : ¬ p <+: q := fun h => hp (List.cons_prefix_cons.mpr ⟨rfl, h⟩)
            have hq' : ¬ q <+: p := fun h => hq (List.cons_prefix_cons.mpr ⟨rfl, h⟩)
            rw [ih hp' hq']
          · simp only [hcd, false_and, or_false]

theorem dumpsMembers_append (front back : List (PyStr × Json)) :
    dumpsMembers (front ++ back) = dumpsMembers front ++ dumpsMembers back := by
  induction front with
  | nil => rfl
  | cons m rest ih =>
      rcases m with ⟨k, v⟩
      simp [dumpsMembers, ih]

/-- Members of the same names whose texts go on alike have the same values. -/
theorem dumpsMembers_append_inj (front front' : List (PyStr × Json))
    (hnames : front.map Prod.fst = front'.map Prod.fst)
    (hplain : plainFloatsMembers front = true) (hplain' : plainFloatsMembers front' = true)
    {s t : List Char} (h : dumpsMembers front ++ ',' :: s = dumpsMembers front' ++ ',' :: t) :
    front.map (fun m => dumps m.2) = front'.map fun m => dumps m.2 := by
  -- Every value is followed by a comma, here or in what comes after the members.
  have hdelimited : ∀ (rest : List (PyStr × Json)) (u : List Char),
      IsDelimited (dumpsMembers rest ++ ',' :: u) := by
    intro rest u
    cases rest with
    | nil => exact ⟨',', u, rfl, .inl rfl⟩
    | cons m rest => exact ⟨',', _, rfl, .inl rfl⟩
  induction front generalizing front' with
  | nil =>
      cases front' with
      | nil => rfl
      | cons m' rest' => cases hnames
  | cons m rest ih =>
      cases front' with
      | nil => cases hnames
      | cons m' rest' =>
          rcases m with ⟨k, v⟩
          rcases m' with ⟨k', v'⟩
          rw [List.map_cons, List.map_cons, List.cons.injEq] at hnames
          rw [plainFloatsMembers, Bool.and_eq_true] at hplain hplain'
          rcases hnames with ⟨rfl, hnames⟩
          -- The first values end at that comma, so they are one text, and so is what follows.
          simp only [dumpsMembers, List.cons_append, List.append_assoc, List.cons.injEq, true_and,
            List.append_cancel_left_eq] at h
          rcases dumps_append_inj hplain.1 hplain'.1 (hdelimited rest s) (hdelimited rest' t) h with
            ⟨hvalue, hrest⟩
          rw [List.map_cons, List.map_cons, hvalue, ih rest' hnames hplain.2 hplain'.2 hrest]

/-- Two objects whose members have the same names, up to some member, and not all
    the same values there, are compared by those members alone. -/
theorem dumps_obj_lt_iff {front front' back back' : List (PyStr × Json)}
    (hnames : front.map Prod.fst = front'.map Prod.fst)
    (hplain : plainFloatsMembers front = true) (hplain' : plainFloatsMembers front' = true)
    (hback : back ≠ []) (hback' : back' ≠ [])
    (hne : front.map (fun m => dumps m.2) ≠ front'.map fun m => dumps m.2) :
    dumps (obj (front ++ back)) < dumps (obj (front' ++ back')) ↔
      dumpsMembers front ++ [','] < dumpsMembers front' ++ [','] := by
  -- The brace opens the text, and the members close it.
  have htext : ∀ {members : List (PyStr × Json)}, members ≠ [] →
      ∃ text, dumps (obj members) = '{' :: text ∧ dumpsMembers members ++ ['}'] = ',' :: text := by
    intro members hmembers
    cases members with
    | nil => exact absurd rfl hmembers
    | cons m rest =>
        rcases m with ⟨k, v⟩
        exact ⟨_, rfl, by simp [dumpsMembers]⟩
  have hcomma : ∀ {members : List (PyStr × Json)}, members ≠ [] →
      ∃ text, dumpsMembers members = ',' :: text := by
    intro members hmembers
    cases members with
    | nil => exact absurd rfl hmembers
    | cons m rest => exact ⟨_, rfl⟩
  rcases htext (List.append_ne_nil_of_right_ne_nil front hback) with ⟨text, hobj, hmembers⟩
  rcases htext (List.append_ne_nil_of_right_ne_nil front' hback') with ⟨text', hobj', hmembers'⟩
  rcases hcomma hback with ⟨tail, htail⟩
  rcases hcomma hback' with ⟨tail', htail'⟩
  -- The two openings are equal, so the order is decided by the members.
  have hlt : dumps (obj (front ++ back)) < dumps (obj (front' ++ back')) ↔
      dumpsMembers (front ++ back) ++ ['}'] < dumpsMembers (front' ++ back') ++ ['}'] := by
    rw [hobj, hobj', hmembers, hmembers', List.cons_lt_cons_iff, List.cons_lt_cons_iff]
    simp
  have hsplit : ∀ (f : List (PyStr × Json)) (text : List Char),
      dumpsMembers f ++ ',' :: text ++ ['}'] = (dumpsMembers f ++ [',']) ++ (text ++ ['}']) := by
    intro f text
    simp
  rw [hlt, dumpsMembers_append, dumpsMembers_append, htail, htail', hsplit, hsplit]
  -- Neither front is a beginning of the other: else their values would be equal.
  refine lt_append_iff ?_ ?_
  · rintro ⟨u, hu⟩
    rw [List.append_assoc] at hu
    exact hne (dumpsMembers_append_inj front front' hnames hplain hplain' hu)
  · rintro ⟨u, hu⟩
    rw [List.append_assoc] at hu
    exact hne (dumpsMembers_append_inj front' front hnames.symm hplain' hplain hu).symm

end Order

end Json

end STS2RL
