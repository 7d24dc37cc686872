import STS2RL.Api.Masking

/-!
# Reading Values That May Be Anything

A board is decoded text, and the code that reads one takes every value for what
it should be. Where it is something else the reading raises, or goes on with what
the value happens to offer: a text is iterated by its characters, a record by the
names of its members.

## Main definitions

* `pyGet`, `pyGetD`: The `get` of a value.
* `orElse`: A value, or another where it counts as nothing.
* `iterate`, `pyLen`: The items of a value, and how many they are.
* `pyEq`: Equality of values.
* `intOrNone`, `pyFloat`: The integer, or the float, of a value, if it has one.

## Theorems

* `iterate_perm`, `pyLen_perm`: A list in another order.
-/

namespace STS2RL

namespace Api

section Members

/-- The error of an attribute that a value does not have. -/
def noAttribute (value : Json) (name : String) : PyException :=
  ⟨"AttributeError", "'" ++ typeName value ++ "' object has no attribute '" ++ name ++ "'"⟩

/-- `value.get(key)`. -/
def pyGet (value : Json) (key : String) : Except PyException Json :=
  match value with
  | .obj fields => .ok (getField fields key)
  | value => .error (noAttribute value "get")

/-- `value.get(key, default)`. -/
def pyGetD (value : Json) (key : String) (default : Json) : Except PyException Json :=
  match value with
  | .obj fields => .ok ((Dict.lookupL (.text key) fields).getD default)
  | value => .error (noAttribute value "get")

/-- `value or default`. -/
def orElse (value default : Json) : Json := if truthy value then value else default

end Members

section Items

theorem surrogate_lt {code : Nat} (h : 0xD800 ≤ code ∧ code < 0xE000) : code - 0xD800 < 2048 := by
  omega

/-- A text of one code point. -/
def charOf (code : Nat) : PyStr :=
  if h : 0xD800 ≤ code ∧ code < 0xE000 then .lone "" ⟨code - 0xD800, surrogate_lt h⟩ (.text "")
  else .text (String.singleton (Char.ofNat code))

/-- `for item in value`. -/
def iterate : Json → Except PyException (List Json)
  | .list xs => .ok xs
  | .str s => .ok (s.codes.map fun code => .str (charOf code))
  | .obj fields => .ok (fields.map fun field => .str field.1)
  | value => .error ⟨"TypeError", "'" ++ typeName value ++ "' object is not iterable"⟩

/-- `len(value)`. -/
def pyLen : Json → Except PyException Nat
  | .list xs => .ok xs.length
  | .str s => .ok s.codes.length
  | .obj fields => .ok fields.length
  | value => .error ⟨"TypeError", "object of type '" ++ typeName value ++ "' has no len()"⟩

variable {xs ys : List Json}

theorem iterate_perm (h : xs.Perm ys) :
    Except.Agree List.Perm (iterate (.list xs)) (iterate (.list ys)) := h

theorem pyLen_perm (h : xs.Perm ys) : pyLen (.list xs) = pyLen (.list ys) := by
  simp only [pyLen, h.length_eq]

theorem truthy_perm (h : xs.Perm ys) : truthy (.list xs) = truthy (.list ys) := by
  have hempty : xs = [] ↔ ys = [] := ⟨fun heq => (heq ▸ h).nil_eq.symm, fun heq => (heq ▸ h).eq_nil⟩
  simp only [truthy, List.isEmpty_iff, hempty]

end Items

section Equality

mutual

/-- `a == b`. Numbers of every type are compared by what they stand for, and what
    is no number does not equal itself. Within a list or a record it does: all of a
    decoded text are one object, and items are compared as objects first. -/
def pyEq : Json → Json → Bool
  | .list xs, .list ys => pyEqItems xs ys
  | .obj fields, .obj fields' => fields.length = fields'.length && pyEqMembers fields fields'
  | .float text, b => text ≠ "NaN" && identityPart (.float text) == identityPart b
  | .list _, _ => false
  | .obj _, _ => false
  | a, b => identityPart a == identityPart b

/-- Lists are equal item by item, and an item is equal to itself. -/
def pyEqItems : List Json → List Json → Bool
  | [], [] => true
  | x :: xs, y :: ys => ((x = .float "NaN" ∧ y = .float "NaN") || pyEq x y) && pyEqItems xs ys
  | _, _ => false

/-- Every member of the first record is one of the second. -/
def pyEqMembers : Fields → Fields → Bool
  | [], _ => true
  | (key, value) :: rest, fields =>
      (match Dict.lookupL key fields with
        | some value' => (value = .float "NaN" ∧ value' = .float "NaN") || pyEq value value'
        | none => false) && pyEqMembers rest fields

end

end Equality

section Numbers

/-- `_int_or_none`: none where `int` finds the type or the value wrong. -/
def intOrNone (value : Json) : Except PyException (Option Int) :=
  if value = .null then .ok none
  else
    match intOf value with
    | .ok z => .ok (some z)
    | .error exc =>
        if exc.typeName = "TypeError" ∨ exc.typeName = "ValueError" then .ok none else .error exc

/-- `float(value)`, as the text it is carried by. -/
def pyFloat : Json → Except PyException String
  | .float text => .ok text
  | .bool b => .ok (if b then "1.0" else "0.0")
  | .int z =>
      if PyNumber.overflowsFloat z then
        .error ⟨"OverflowError", "int too large to convert to float"⟩
      else .ok (PyNumber.floatRepr (toString z).toList)
  | .str s =>
      match PyNumber.floatOfText s with
      | some text => .ok text
      | none => .error (.valueError ("could not convert string to float: " ++ pyRepr s))
  | value => .error ⟨"TypeError", "float() argument must be a string or a real number, not '" ++
      typeName value ++ "'"⟩

end Numbers

end Api

end STS2RL
