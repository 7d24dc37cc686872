import STS2RL.Api.ChoiceCardSemantics
import STS2RL.Core.PyNumber
import STS2RL.Core.Tally
import Mathlib.Data.List.Lex
import Mathlib.Data.String.Basic

/-!
# Masking

What is published of a state. One recursion walks the whole value and looks at
the names of the members: a forbidden name is dropped, a pile becomes the
multiset of its cards, a pending choice is first reduced to what may be said
about it, and diagnostics are emptied.

A normalized pending choice is no part of the choice it comes from, so the
recursion is not structural. What decreases is the number of pending choices
inside, and the size where that number stays.

## Main definitions

* `PublicCard`, `readCard`: What is published of a card in a pile.
* `multisetOf`: A pile without its order.
* `scrub`: The recursion over a value.
* `buildMaskedEmulatorDto`, `maskLegalActions`: What is published.

## Theorems

* `pendingCount_normalizePendingChoice`: Normalizing adds no pending choice.
-/

namespace STS2RL

namespace Api

/-!
### Names

The keys that are left out, told by what they contain, and the keys of diagnostics.
-/

section Names

/-- `_FORBIDDEN_KEY_SUBSTRINGS`. -/
def forbiddenKeySubstrings : List String :=
  ["snapshot", "savestate", "save_state", "replay", "lease", "worker", "pid", "generation",
    "combatsessionid", "combat_session_id", "sessionid", "session_id", "context_id", "contextid",
    "rngstate", "rng_state", "runrng", "run_rng", "seed", "hypothesis", "shuffle", "cursor",
    "eventqueue", "event_queue", "encounterqueue", "encounter_queue", "futureevents",
    "future_events", "upcomingencounters", "upcoming_encounters", "bossqueue", "boss_queue",
    "ancientqueue", "ancient_queue", "unknown_fields"]

/-- The piles whose order is hidden. -/
def multisetPileKeys : List PyStr := ["drawPile", "discardPile", "exhaustPile"]

/-- The keys that are dropped wherever they occur. -/
def deleteKeys : List PyStr := ["playPile", "reward"]

/-- The keys of the records that are filtered by an allowlist. -/
def metricsExtrasInfoKeyNames : List PyStr := ["metrics", "extras", "info"]

/-- A code point in lower case, as far as text in ASCII can tell: the Kelvin sign
    and the dotted capital I are the only ones outside ASCII with ASCII in their
    lower case. -/
def loweredCode (n : Nat) : List Nat :=
  if 65 ≤ n ∧ n ≤ 90 then [n + 32]
  else if n = 0x212A then [107]
  else if n = 0x130 then [105, 0x307]
  else [n]

/-- `key.lower()`, as code points. -/
def loweredCodes (key : PyStr) : List Nat := key.codes.flatMap loweredCode

/-- `pattern in text`. -/
def isInside (pattern : List Nat) : List Nat → Bool
  | [] => pattern.isEmpty
  | n :: rest => pattern.isPrefixOf (n :: rest) || isInside pattern rest

/-- `_is_forbidden_key`. -/
def isForbiddenKey (key : PyStr) : Bool :=
  forbiddenKeySubstrings.any fun pattern => isInside (PyStr.text pattern).codes (loweredCodes key)

/-- `key.lower() in _METRICS_EXTRAS_INFO_KEY_NAMES`. -/
def isMetricsKey (key : PyStr) : Bool :=
  metricsExtrasInfoKeyNames.any fun name => name.codes = loweredCodes key

end Names

/-!
### Cards

What is read of a card, and how often each occurs.
-/

section Cards

/-- Whether a value counts as true. -/
def truthy : Json → Bool
  | .null => false
  | .bool b => b
  | .int z => z ≠ 0
  | .float text => PyNumber.floatValue text ≠ some 0
  | .str s => s ≠ .text ""
  | .list xs => ¬ xs.isEmpty
  | .obj fields => ¬ fields.isEmpty

/-- `int(value)`. An infinity is no wrong value, but too large a one. -/
def intOf : Json → Except PyException Int
  | .bool b => .ok (if b then 1 else 0)
  | .int z => .ok z
  | .float text =>
      match PyNumber.floatValue text with
      | some q => .ok (PyNumber.truncated q)
      | none =>
          if text = "NaN" then .error (.valueError "cannot convert float NaN to integer")
          else .error ⟨"OverflowError", "cannot convert float infinity to integer"⟩
  | .str s =>
      match PyNumber.intOfText s with
      | .int z => .ok z
      | .tooLong digits => .error (.valueError ("Exceeds the limit (" ++
          toString PyNumber.maxStrDigits ++ " digits) for integer string conversion: value has " ++
          toString digits ++ " digits; use sys.set_int_max_str_digits() to increase the limit"))
      | .invalid => .error (.valueError ("invalid literal for int() with base 10: " ++ pyRepr s))
  | value => .error ⟨"TypeError",
      "int() argument must be a string, a bytes-like object or a real " ++
      "number, not '" ++ typeName value ++ "'"⟩

/-- What equality and hashing see of a scalar: numbers of every type are compared
    by what they stand for. -/
inductive IdentityPart where
  | null
  | number (q : Rat)
  | text (s : PyStr)
  | float (text : String)
  deriving DecidableEq

/-- What is hashed of a value, if it can be hashed. -/
def identityPart : Json → Option IdentityPart
  | .null => some .null
  | .bool b => some (.number (if b then 1 else 0))
  | .int z => some (.number z)
  | .float text => some (match PyNumber.floatValue text with
      | some q => .number q
      | none => .float text)
  | .str s => some (.text s)
  | .list _ => none
  | .obj _ => none

/-- What is published of a card, but for the count. -/
structure PublicCard where
  id : Json
  type : Json
  rarity : Json
  cost : Json
  targetType : Json
  upgraded : Bool
  upgradeLevel : Int
  tinkerTimeType : Json
  tinkerTimeRider : Json
  enchantment : Option (Json × Json × Json)
  deriving DecidableEq

namespace PublicCard

variable (card : PublicCard)

/-- `_card_identity_key`. A card without enchantment and one with an enchantment
    of nothing have the same. -/
def identityKey : List Json :=
  let (enchantmentId, amount, status) := card.enchantment.getD (.null, .null, .null)
  [card.id, card.type, card.rarity, card.cost, card.targetType, .bool card.upgraded,
    .int card.upgradeLevel, card.tinkerTimeType, card.tinkerTimeRider, enchantmentId, amount,
    status]

/-- The key, as equality sees it. -/
def identity : List (Option IdentityPart) := card.identityKey.map identityPart

/-- `_sort_key`. -/
def sortKey : List String := card.identityKey.map fun part => typeName part ++ ":" ++ jsonRepr part

/-- `_public_enchantment`. -/
def publicEnchantment : Json :=
  match card.enchantment with
  | none => .null
  | some (enchantmentId, amount, status) =>
      .obj [member "id" enchantmentId, member "amount" amount, member "status" status]

/-- The record of a card, with its count. -/
def record (count : Nat) : Json :=
  .obj [member "id" card.id, member "type" card.type, member "rarity" card.rarity,
    member "cost" card.cost, member "targetType" card.targetType,
    member "upgraded" (.bool card.upgraded), member "upgradeLevel" (.int card.upgradeLevel),
    member "tinkerTimeType" card.tinkerTimeType, member "tinkerTimeRider" card.tinkerTimeRider,
    member "enchantment" card.publicEnchantment, member "count" (.int count)]

end PublicCard

/-- The enchantment of a card: a record, or a value that counts as nothing. -/
def readEnchantment : Json → Except PyException (Option (Json × Json × Json))
  | .obj fields => .ok (some (getField fields "id", getField fields "amount",
      getField fields "status"))
  | value =>
      if truthy value then
        .error ⟨"AttributeError", "'" ++ typeName value ++ "' object has no attribute 'get'"⟩
      else .ok none

/-- `entry.get(key, 0) or 0`, as an integer. -/
def readUpgradeLevel (value : Json) : Except PyException Int :=
  if truthy value then intOf value else .ok 0

/-- A card of a pile. One that cannot be hashed cannot be counted. -/
def readCard (entry : Fields) : Except PyException PublicCard :=
  match readUpgradeLevel (getField entry "upgradeLevel") with
  | .error exc => .error exc
  | .ok upgradeLevel =>
      match readEnchantment (getField entry "enchantment") with
      | .error exc => .error exc
      | .ok enchantment =>
          let card : PublicCard :=
            { id := getField entry "id"
              type := getField entry "type"
              rarity := getField entry "rarity"
              cost := getField entry "cost"
              targetType := getField entry "targetType"
              upgraded := truthy (getField entry "upgraded")
              upgradeLevel
              tinkerTimeType := getField entry "tinkerTimeType"
              tinkerTimeRider := getField entry "tinkerTimeRider"
              enchantment }
          match card.identityKey.find? fun part => (identityPart part).isNone with
          | some part => .error ⟨"TypeError", "unhashable type: '" ++ typeName part ++ "'"⟩
          | none => .ok card

/-- The entries of a pile that are counted. -/
def countedEntry : Json → Option Fields
  | .obj fields => if getField fields "id" = .null then none else some fields
  | _ => none

/-- The cards of a pile. -/
def readPile (pile : List Json) : Except PyException (List PublicCard) :=
  (pile.filterMap countedEntry).mapM readCard

/-- The counts of a pile, in the order of the sort keys. -/
def sortedTally (cards : List PublicCard) : List (PublicCard × Nat) :=
  (Tally.tally PublicCard.identity cards).insertionSort fun a b => a.1.sortKey ≤ b.1.sortKey

/-- `_multiset_of`. -/
def multisetOf : Json → Except PyException Json
  | .list pile => (readPile pile).map fun cards =>
      .list ((sortedTally cards).map fun (card, count) => card.record count)
  | _ => .ok (.list [])

end Cards

/-!
### The walk through a state

The mask goes through the state; a pending choice is put into its normal form first, and
that is walked through as well. What is walked into always has fewer pending choices or is
smaller.
-/

section Scrub

mutual

/-- How many pending choices a value holds. -/
def pendingCount : Json → Nat
  | .obj fields => pendingCountMembers fields
  | .list xs => pendingCountItems xs
  | _ => 0

/-- The pending choices among the items of a list. -/
def pendingCountItems : List Json → Nat
  | [] => 0
  | x :: xs => pendingCount x + pendingCountItems xs

/-- The pending choices among the members of an object. -/
def pendingCountMembers : Fields → Nat
  | [] => 0
  | (key, value) :: rest =>
      (if key = .text "pendingChoice" then 1 else 0) + pendingCount value + pendingCountMembers rest

end

theorem pendingCountMembers_append (xs ys : Fields) :
    pendingCountMembers (xs ++ ys) = pendingCountMembers xs + pendingCountMembers ys := by
  induction xs with
  | nil => simp [pendingCountMembers]
  | cons m rest ih =>
      simp only [List.cons_append, pendingCountMembers, ih]
      omega

theorem pendingCount_le_of_mem {fields : Fields} {key : PyStr} {value : Json}
    (h : (key, value) ∈ fields) : pendingCount value ≤ pendingCountMembers fields := by
  induction fields with
  | nil => cases h
  | cons m rest ih =>
      rcases m with ⟨k, v⟩
      simp only [pendingCountMembers]
      rcases List.mem_cons.mp h with heq | hmem
      · cases heq
        omega
      · have hle := ih hmem
        omega

theorem mem_of_lookupL {fields : Fields} {key : PyStr} {value : Json}
    (h : Dict.lookupL key fields = some value) : (key, value) ∈ fields := by
  induction fields with
  | nil => cases h
  | cons m rest ih =>
      unfold Dict.lookupL at h
      by_cases hkey : m.1 = key
      · rw [if_pos hkey] at h
        cases h
        exact hkey ▸ List.mem_cons_self
      · rw [if_neg hkey] at h
        exact List.mem_cons_of_mem _ (ih h)

theorem pendingCount_getField_le (fields : Fields) (key : String) :
    pendingCount (getField fields key) ≤ pendingCountMembers fields := by
  unfold getField
  cases hlookup : Dict.lookupL (.text key) fields with
  | none => exact Nat.zero_le _
  | some value => exact pendingCount_le_of_mem (mem_of_lookupL hlookup)

theorem pendingCountMembers_filter_le (p : PyStr × Json → Bool) (fields : Fields) :
    pendingCountMembers (fields.filter p) ≤ pendingCountMembers fields := by
  induction fields with
  | nil => exact Nat.le_refl _
  | cons m rest ih =>
      rcases m with ⟨key, value⟩
      rw [List.filter_cons]
      split <;> simp only [pendingCountMembers] <;> omega

/-- Flat members hold no pending choice. -/
theorem FlatMembers.pendingCount {keys : List String} {fields : Fields}
    (hkeys : "pendingChoice" ∉ keys) (h : FlatMembers keys fields) :
    pendingCountMembers fields = 0 := by
  induction fields with
  | nil => rfl
  | cons m rest ih =>
      rcases m with ⟨k, value⟩
      rcases h (k, value) List.mem_cons_self with ⟨⟨key, hkey, heq⟩, hscalar⟩
      have hrest := ih fun m hm => h m (List.mem_cons_of_mem _ hm)
      have hne : k ≠ .text "pendingChoice" := by
        rintro rfl
        cases heq
        exact hkeys hkey
      have hvalue : Api.pendingCount value = 0 := by
        cases value <;> first | rfl | cases hscalar
      simp only [pendingCountMembers, if_neg hne, hvalue, hrest]

/-- The options that are published have no pending choices that were not there. -/
theorem pendingCount_options_le (options : List Json) :
    pendingCountItems ((options.filterMap Json.fields?).map fun option =>
      .obj (publicOption option)) ≤ pendingCountItems options := by
  induction options with
  | nil => exact Nat.le_refl _
  | cons option rest ih =>
      cases option with
      | obj fields =>
          have hoption : pendingCountMembers (publicOption fields) ≤ pendingCountMembers
            fields := by
            unfold publicOption
            split
            · exact Nat.le_refl _
            · exact pendingCountMembers_filter_le _ _
          simp only [List.filterMap_cons, Json.fields?, List.map_cons, pendingCountItems,
            pendingCount]
          omega
      | null | bool _ | int _ | float _ | str _ | list _ =>
          simp only [List.filterMap_cons, Json.fields?, pendingCountItems]
          omega

/-- Normalizing adds no pending choice. -/
theorem pendingCount_normalizePendingChoice (value : Json) :
    pendingCount (normalizePendingChoice value) ≤ pendingCount value := by
  cases value with
  | obj fields =>
      -- No part but the options has a pending choice inside.
      have hscalars := (flatMembers_publicScalars fields).pendingCount (by decide)
      have hsemantics := (flatMembers_publicSemantics fields).pendingCount (by decide)
      have hsource := (flatMembers_publicSourceEffect fields).pendingCount (by decide)
      have hselected : pendingCountMembers (publicSelected fields) = 0 := by
        unfold publicSelected
        cases list? (getField fields "selectedOptionIds") with
        | none => rfl
        | some selected =>
            have hitems : ∀ ids : List String,
                pendingCountItems (ids.map fun s => .str (.text s)) = 0 := by
              intro ids
              induction ids with
              | nil => rfl
              | cons s rest ih => simp only [List.map_cons, pendingCountItems, pendingCount, ih]
            simp [pendingCountMembers, member, pendingCount, hitems]
      -- And an option that is published has none that it did not have.
      have hoptions : pendingCountMembers (publicOptions fields) ≤ pendingCountMembers fields := by
        have hle := pendingCount_getField_le fields "options"
        unfold publicOptions
        cases hlist : getField fields "options" with
        | list options =>
            rw [hlist] at hle
            have hitems := pendingCount_options_le options
            simp only [pendingCount] at hle
            simp [list?, pendingCountMembers, member, pendingCount]
            omega
        | null | bool _ | int _ | float _ | str _ | obj _ => exact Nat.zero_le _
      simp [normalizePendingChoice, pendingCount, publicPendingChoice, pendingCountMembers_append,
        pendingCountMembers, hscalars, hselected, hsource, hsemantics, hoptions, member]
  | null | bool _ | int _ | float _ | str _ | list _ => exact Nat.zero_le _

/-- A measure that does not grow in its first part and falls in its second. -/
theorem lex_of_le {a b c d : Nat} (h : a ≤ c) (h' : b < d) :
    Prod.Lex (· < ·) (· < ·) (a, b) (c, d) := by
  rcases Nat.lt_or_eq_of_le h with hlt | heq
  · exact Prod.Lex.left _ _ hlt
  · exact heq ▸ Prod.Lex.right _ h'

mutual

/-- `_scrub`. -/
def scrub : (node : Json) → Except PyException Json
  | .obj fields => (scrubMembers fields).map .obj
  | .list items => (scrubItems items).map .list
  | node => .ok node
termination_by node => (pendingCount node, sizeOf node)
decreasing_by
  all_goals exact lex_of_le (Nat.le_refl _) (by simp)

/-- `_scrub` of each item. -/
def scrubItems : List Json → Except PyException (List Json)
  | [] => .ok []
  | item :: rest =>
      match scrub item with
      | .error exc => .error exc
      | .ok scrubbed => (scrubItems rest).map (scrubbed :: ·)
termination_by items => (pendingCountItems items, sizeOf items)
decreasing_by
  · exact lex_of_le (by simp [pendingCountItems]) (by simp only [List.cons.sizeOf_spec]; omega)
  · exact lex_of_le (by simp [pendingCountItems]) (by simp only [List.cons.sizeOf_spec]; omega)

/-- `_scrub` of each member, under the treatment its key asks for. -/
def scrubMembers : Fields → Except PyException Fields
  | [] => .ok []
  | (key, value) :: rest =>
      if isForbiddenKey key then scrubMembers rest
      else if key ∈ deleteKeys then scrubMembers rest
      else
        match (if key ∈ multisetPileKeys then multisetOf value
          else if key = .text "pendingChoice" then scrub (normalizePendingChoice value)
          -- No key of these records is on the allowlist.
          else if isMetricsKey key ∧ value.fields?.isSome then .ok (.obj [])
          else scrub value) with
        | .error exc => .error exc
        | .ok scrubbed => (scrubMembers rest).map ((key, scrubbed) :: ·)
termination_by fields => (pendingCountMembers fields, sizeOf fields)
decreasing_by
  · exact lex_of_le (by simp [pendingCountMembers])
      (by simp only [List.cons.sizeOf_spec, Prod.mk.sizeOf_spec]; omega)
  · exact lex_of_le (by simp [pendingCountMembers])
      (by simp only [List.cons.sizeOf_spec, Prod.mk.sizeOf_spec]; omega)
  · rename_i hpending
    have hle := pendingCount_normalizePendingChoice value
    refine Prod.Lex.left _ _ ?_
    simp only [pendingCountMembers, if_pos hpending]
    omega
  · exact lex_of_le (by simp [pendingCountMembers]; omega)
      (by simp only [List.cons.sizeOf_spec, Prod.mk.sizeOf_spec]; omega)
  · exact lex_of_le (by simp [pendingCountMembers])
      (by simp only [List.cons.sizeOf_spec, Prod.mk.sizeOf_spec]; omega)

end

end Scrub

/-!
### What is published

The masked state, stamped, and the masked actions.
-/

section Published

/-- `DTO_VERSION`. -/
def dtoVersion : String := "emulator-fca2f06"

/-- `MASK_VERSION`. -/
def maskVersion : String := "1.2"

/-- `mapping[key] = value`. -/
def setMember (key : String) (value : Json) (fields : Fields) : Fields :=
  Dict.setL (.text key) value fields

/-- `fields.update(extra)`. -/
def updateFields (fields extra : Fields) : Fields :=
  extra.foldl (fun fields (key, value) => Dict.setL key value fields) fields

/-- `fields.get(key) is True`. -/
def isTrueField (fields : Fields) (key : String) : Bool := getField fields key = .bool true

/-- The stamps of a masked state. -/
def stamp (masked : Fields) : Fields :=
  setMember "mask_version" (.str (.text maskVersion))
    (setMember "dto_version" (.str (.text dtoVersion)) masked)

/-- A terminal state has no actions. -/
def closeTerminal (masked : Fields) : Fields :=
  if isTrueField masked "terminal" then setMember "legal_actions" (.list []) masked
  else if isTrueField masked "run_terminal" ∧
      (Dict.lookupL (.text "legal_actions") masked).isSome then
    setMember "legal_actions" (.list []) masked
  else masked

/-- `build_masked_emulator_dto`. -/
def buildMaskedEmulatorDto (rawState : Fields) (extra : Option Fields) :
    Except PyException Fields :=
  match scrubMembers rawState with
  | .error exc => .error exc
  | .ok masked =>
      match scrubMembers (extra.getD []) with
      | .error exc => .error exc
      | .ok maskedExtra =>
          let masked := updateFields masked maskedExtra
          if isTrueField masked "terminal" ∧ isTrueField masked "run_terminal" then
            .error (.runtimeError "masked_emulator_dto cannot be both terminal and run_terminal")
          else .ok (stamp (closeTerminal masked))

/-- `str(value)`. -/
def pyStr : Json → PyStr
  | .str s => s
  | value => .text (jsonRepr value)

/-- One of `mask_legal_actions`. -/
def maskLegalAction (action : Fields) : Except PyException Fields :=
  (scrubMembers action).map fun scrubbed =>
    match Dict.lookupL (.text "action_id") scrubbed with
    | some actionId => setMember "action_id" (.str (pyStr actionId)) scrubbed
    | none => scrubbed

/-- `mask_legal_actions`. -/
def maskLegalActions (legalActions : List Fields) : Except PyException (List Fields) :=
  legalActions.mapM maskLegalAction

end Published

end Api

end STS2RL
