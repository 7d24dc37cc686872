import STS2RL.Api.Validation

/-!
# Public Pending Choices

A pending choice is published through a list of what may be said about it. Each
field is taken over only in the type it is supposed to have; the options are
kept as they are, except for an identity that is no token; and the meaning of
the choice is published only as long as all identities fit together.

## Main definitions

* `normalizeChoiceSemantics`: The meaning of a choice, or that it is unknown.
* `publicPendingChoice`, `normalizePendingChoice`: What is said about a choice.
-/

namespace STS2RL

namespace Api

/-- `fields.get(key)`. -/
def getField (fields : Fields) (key : String) : Json :=
  (Dict.lookupL (.text key) fields).getD .null

/-- A member of a record. -/
def member (key : String) (value : Json) : PyStr × Json := (.text key, value)

section Semantics

/-- `CHOICE_SEMANTICS_VERSION`. -/
def choiceSemanticsVersion : Int := 1

/-- `CHOICE_OPERATIONS`. -/
def choiceOperations : List String :=
  ["gain", "discard", "exhaust", "upgrade", "retrieve", "play", "replay", "remove", "transform",
    "unknown"]

/-- `CHOICE_EFFECTS`. -/
def choiceEffects : List String := ["move", "modify", "play", "replace"]

/-- `CHOICE_ZONES`. -/
def choiceZones : List String :=
  ["hand", "draw", "draw_pile", "discard", "discard_pile", "exhaust", "exhaust_pile", "play",
    "play_pile", "deck", "master_deck", "reward", "generated", "none", "unknown"]

/-- `CHOICE_MODIFIERS`. -/
def choiceModifiers : List String := ["upgrade"]

/-- `_unknown_semantics`. -/
def unknownSemantics : Fields :=
  [member "version" (.int choiceSemanticsVersion), member "operation" (.str "unknown")]

/-- `_enum_or_none`; `none` where it raises. -/
def enumOrNone (value : Json) (allowed : List String) : Option (Option String) :=
  match value with
  | .null => some none
  | .str (.text s) => if s ∈ allowed then some (some s) else none
  | _ => none

/-- A boolean or nothing; `none` where the code raises. -/
def boolOrNone : Json → Option (Option Bool)
  | .null => some none
  | .bool b => some (some b)
  | _ => none

/-- The members of a descriptor that are given. -/
def givenMembers (texts : List (String × Option String)) (flags : List (String × Option Bool)) :
    Fields :=
  (texts.filterMap fun (key, value) => value.map fun s => member key (.str (.text s))) ++
    flags.filterMap fun (key, value) => value.map fun b => member key (.bool b)

/-- `normalize_choice_semantics`. -/
def normalizeChoiceSemantics (rawSemantics : Json) : Fields :=
  match rawSemantics with
  | .obj raw =>
      match getField raw "version", getField raw "operation" with
      | .int version, .str (.text operation) =>
          if version ≠ choiceSemanticsVersion ∨ operation ∉ choiceOperations ∨
              operation = "unknown" then unknownSemantics
          else
            match enumOrNone (getField raw "effect") choiceEffects,
              enumOrNone (getField raw "sourceZone") choiceZones,
              enumOrNone (getField raw "destinationZone") choiceZones,
              enumOrNone (getField raw "modifier") choiceModifiers,
              boolOrNone (getField raw "orderMatters"),
              boolOrNone (getField raw "replacementAllowed") with
            | some effect, some sourceZone, some destinationZone, some modifier, some orderMatters,
              some replacementAllowed =>
                [member "version" (.int choiceSemanticsVersion),
                    member "operation" (.str (.text operation))] ++
                  givenMembers [("effect", effect), ("sourceZone", sourceZone),
                      ("destinationZone", destinationZone), ("modifier", modifier)]
                    [("orderMatters", orderMatters), ("replacementAllowed", replacementAllowed)]
            | _, _, _, _, _, _ => unknownSemantics
      | _, _ => unknownSemantics
  | _ => unknownSemantics

end Semantics

section PendingChoice

/-- What a token of `_OPAQUE_TOKEN_RE` may begin with. -/
def isTokenHead (c : Char) : Bool :=
  ('A' ≤ c ∧ c ≤ 'Z') ∨ ('a' ≤ c ∧ c ≤ 'z') ∨ ('0' ≤ c ∧ c ≤ '9')

/-- What may follow in a token. -/
def isTokenChar (c : Char) : Bool :=
  isTokenHead c ∨ c = '.' ∨ c = '_' ∨ c = ':' ∨ c = '/' ∨ c = '-'

/-- `_valid_token`: the text, if it is a token. -/
def validToken : Json → Option String
  | .str (.text s) =>
      match s.toList with
      | [] => none
      | c :: rest => if isTokenHead c ∧ rest.all isTokenChar ∧
          rest.length ≤ 127 then some s else none
  | _ => none

/-- `_nonnegative_int_or_none`. -/
def nonnegativeIntOrNone : Json → Option Int
  | .int z => if z < 0 then none else some z
  | _ => none

/-- The kinds of source effects whose ids are public. -/
def publicSourceEffectPrefixes : List String := ["card:"]

/-- `_safe_source_effect_id`. -/
def safeSourceEffectId (value : Json) : Option String :=
  (validToken value).filter fun s => publicSourceEffectPrefixes.any fun pre =>
    pre.toList.isPrefixOf s.toList ∧ pre.length < s.length

/-- The items of a list. -/
def list? : Json → Option (List Json)
  | .list xs => some xs
  | _ => none

/-- Neither a list nor an object. -/
def isScalar : Json → Bool
  | .list _ => false
  | .obj _ => false
  | _ => true

/-- `PUBLIC_PENDING_CHOICE_KEYS`. -/
def publicPendingChoiceKeys : List String :=
  ["choiceType", "scope", "scenarioRestorable", "minSelect", "maxSelect", "selectedCount",
    "choiceSemantics", "sourceEffectId", "selectedOptionIds", "options"]

/-- `PUBLIC_CHOICE_SEMANTICS_KEYS`. -/
def publicChoiceSemanticsKeys : List String :=
  ["version", "operation", "effect", "sourceZone", "destinationZone", "modifier", "orderMatters",
    "replacementAllowed"]

/-- Members of the given names with scalar values. -/
def FlatMembers (keys : List String) (fields : Fields) : Prop :=
  ∀ m ∈ fields, (∃ key ∈ keys, m.1 = .text key) ∧ isScalar m.2 = true

/-- An option without an identity that is no token. -/
def publicOption (option : Fields) : Fields :=
  if (validToken (getField option "optionId")).isSome then option
  else option.filter fun m => m.1 ≠ .text "optionId"

/-- The tokens of a list of identities, and how many identities there are. -/
def readTokens (value : Json) : Option (Nat × List String) :=
  (list? value).map fun items => (items.length, items.filterMap validToken)

/-- The tokens of a list of options, and how many options there are. -/
def readOptionTokens (value : Json) : Option (Nat × List String) :=
  (list? value).map fun items =>
    (items.length, (items.filterMap Json.fields?).filterMap fun option =>
      validToken (getField option "optionId"))

/-- The identities of a choice fit together. -/
def identityValid (fields : Fields) : Bool :=
  match readTokens (getField fields "selectedOptionIds"),
    readOptionTokens (getField fields "options") with
  | some (selectedCount, selectedIds), some (optionCount, optionIds) =>
      decide (selectedIds.length = selectedCount ∧ optionIds.length = optionCount ∧
        nonnegativeIntOrNone (getField fields "selectedCount") = some (selectedIds.length : Int) ∧
        selectedIds.Nodup ∧ optionIds.Nodup ∧ ∀ s ∈ selectedIds, s ∉ optionIds)
  | _, _ => false

/-- The semantics that are published: unknown ones where an identity does not fit. -/
def publicSemantics (fields : Fields) : Fields :=
  if identityValid fields then normalizeChoiceSemantics (getField fields "choiceSemantics")
  else unknownSemantics

/-- A text, as it is published. -/
def publicText : Json → Option Json
  | .str s => some (.str s)
  | _ => none

/-- A boolean, as it is published. -/
def publicFlag : Json → Option Json
  | .bool b => some (.bool b)
  | _ => none

/-- A count, as it is published. -/
def publicCount (value : Json) : Option Json := (nonnegativeIntOrNone value).map .int

/-- The texts and numbers of a pending choice. -/
def publicScalars (fields : Fields) : Fields :=
  [("choiceType", publicText), ("scope", publicText), ("scenarioRestorable", publicFlag),
      ("minSelect", publicCount), ("maxSelect", publicCount),
      ("selectedCount", publicCount)].filterMap fun (key, read) =>
    (read (getField fields key)).map (member key)

/-- The identities that were selected. -/
def publicSelected (fields : Fields) : Fields :=
  (list? (getField fields "selectedOptionIds")).toList.map fun selected =>
    member "selectedOptionIds" (.list ((selected.filterMap validToken).map fun s => .str (.text s)))

/-- The options that are left. -/
def publicOptions (fields : Fields) : Fields :=
  (list? (getField fields "options")).toList.map fun options =>
    member "options" (.list ((options.filterMap Json.fields?).map fun option =>
      .obj (publicOption option)))

/-- What caused the choice, unless its meaning is unknown. -/
def publicSourceEffect (fields : Fields) : Fields :=
  if getField (publicSemantics fields) "operation" = .str (.text "unknown") then []
  else (safeSourceEffectId (getField fields "sourceEffectId")).toList.map fun s =>
    member "sourceEffectId" (.str (.text s))

/-- The members of a pending choice that are published. -/
def publicPendingChoice (fields : Fields) : Fields :=
  publicScalars fields ++ publicSelected fields ++ publicOptions fields ++
    [member "choiceSemantics" (.obj (publicSemantics fields))] ++ publicSourceEffect fields

/-- `normalize_pending_choice`. -/
def normalizePendingChoice : Json → Json
  | .obj fields => .obj (publicPendingChoice fields)
  | _ => .obj []

/-- Semantics are flat, and say nothing but what they may. -/
theorem flatMembers_givenMembers {texts : List (String × Option String)}
    {flags : List (String × Option Bool)} {keys : List String}
    (htexts : ∀ text ∈ texts, text.1 ∈ keys) (hflags : ∀ flag ∈ flags, flag.1 ∈ keys) :
    FlatMembers keys (givenMembers texts flags) := by
  intro m hm
  rcases List.mem_append.mp hm with hm | hm
  · rcases List.mem_filterMap.mp hm with ⟨⟨key, value⟩, hmem, hvalue⟩
    rcases Option.map_eq_some_iff.mp hvalue with ⟨s, -, rfl⟩
    exact ⟨⟨key, htexts _ hmem, rfl⟩, rfl⟩
  · rcases List.mem_filterMap.mp hm with ⟨⟨key, value⟩, hmem, hvalue⟩
    rcases Option.map_eq_some_iff.mp hvalue with ⟨b, -, rfl⟩
    exact ⟨⟨key, hflags _ hmem, rfl⟩, rfl⟩

theorem flatMembers_unknownSemantics : FlatMembers publicChoiceSemanticsKeys unknownSemantics := by
  intro m hm
  simp only [unknownSemantics, List.mem_cons, List.not_mem_nil, or_false] at hm
  rcases hm with rfl | rfl
  · exact ⟨⟨"version", by simp [publicChoiceSemanticsKeys], rfl⟩, rfl⟩
  · exact ⟨⟨"operation", by simp [publicChoiceSemanticsKeys], rfl⟩, rfl⟩

theorem flatMembers_normalizeChoiceSemantics (raw : Json) :
    FlatMembers publicChoiceSemanticsKeys (normalizeChoiceSemantics raw) := by
  unfold normalizeChoiceSemantics
  split
  · split
    · split
      · exact flatMembers_unknownSemantics
      · split
        · intro m hm
          rcases List.mem_append.mp hm with hm | hm
          · simp only [List.mem_cons, List.not_mem_nil, or_false] at hm
            rcases hm with rfl | rfl
            · exact ⟨⟨"version", by simp [publicChoiceSemanticsKeys], rfl⟩, rfl⟩
            · exact ⟨⟨"operation", by simp [publicChoiceSemanticsKeys], rfl⟩, rfl⟩
          · exact flatMembers_givenMembers (by simp [publicChoiceSemanticsKeys])
              (by simp [publicChoiceSemanticsKeys]) m hm
        · exact flatMembers_unknownSemantics
    · exact flatMembers_unknownSemantics
  · exact flatMembers_unknownSemantics

theorem flatMembers_publicSemantics (fields : Fields) :
    FlatMembers publicChoiceSemanticsKeys (publicSemantics fields) := by
  unfold publicSemantics
  split
  · exact flatMembers_normalizeChoiceSemantics _
  · exact flatMembers_unknownSemantics

theorem flatMembers_publicScalars (fields : Fields) :
    FlatMembers publicPendingChoiceKeys (publicScalars fields) := by
  have htext : ∀ value scalar, publicText value = some scalar → isScalar scalar = true := by
    intro value scalar h
    cases value <;> cases h
    rfl
  have hflag : ∀ value scalar, publicFlag value = some scalar → isScalar scalar = true := by
    intro value scalar h
    cases value <;> cases h
    rfl
  have hcount : ∀ value scalar, publicCount value = some scalar → isScalar scalar = true := by
    intro value scalar h
    rcases Option.map_eq_some_iff.mp h with ⟨z, -, rfl⟩
    rfl
  intro m hm
  rcases List.mem_filterMap.mp hm with ⟨⟨key, read⟩, hkey, hvalue⟩
  rcases Option.map_eq_some_iff.mp hvalue with ⟨scalar, hread, rfl⟩
  simp only [List.mem_cons, List.not_mem_nil, or_false, Prod.mk.injEq] at hkey
  rcases hkey with ⟨rfl, rfl⟩ | ⟨rfl, rfl⟩ | ⟨rfl, rfl⟩ | ⟨rfl, rfl⟩ | ⟨rfl, rfl⟩ | ⟨rfl, rfl⟩
  · exact ⟨⟨"choiceType", by simp [publicPendingChoiceKeys], rfl⟩, htext _ _ hread⟩
  · exact ⟨⟨"scope", by simp [publicPendingChoiceKeys], rfl⟩, htext _ _ hread⟩
  · exact ⟨⟨"scenarioRestorable", by simp [publicPendingChoiceKeys], rfl⟩, hflag _ _ hread⟩
  · exact ⟨⟨"minSelect", by simp [publicPendingChoiceKeys], rfl⟩, hcount _ _ hread⟩
  · exact ⟨⟨"maxSelect", by simp [publicPendingChoiceKeys], rfl⟩, hcount _ _ hread⟩
  · exact ⟨⟨"selectedCount", by simp [publicPendingChoiceKeys], rfl⟩, hcount _ _ hread⟩

theorem flatMembers_publicSourceEffect (fields : Fields) :
    FlatMembers publicPendingChoiceKeys (publicSourceEffect fields) := by
  intro m hm
  unfold publicSourceEffect at hm
  split at hm
  · cases hm
  · rcases List.mem_map.mp hm with ⟨s, -, rfl⟩
    exact ⟨⟨"sourceEffectId", by simp [publicPendingChoiceKeys], rfl⟩, rfl⟩

end PendingChoice

end Api

end STS2RL
