import STS2RL.Api.ChoiceCardSemantics

/-!
# Normal Pending Choices

What is published of a pending choice is a normal form: publishing it once more
changes nothing, and where its meaning is published its identities fit together.

Every published member is read from the member of the same name, so an object of
published members is a list of names with the values that were given
(`givenEntries`), and reading it back gives these values. Each reading accepts
its own results. The meaning is the one member that depends on the others: it
is taken over only while the identities fit together, and the identities that
are published then are the ones that were there.

## Main definitions

* `givenEntries`: The members of an object that are given.
* `publicEntries`: The members of a published pending choice.
* `Meaning`: A known meaning, with members that say what they may.
* `IdentitiesFit`: The identities of a choice are tokens in one role each.

## Theorems

* `normalizeChoiceSemantics_idem`, `publicPendingChoice_idem`: Publishing twice.
* `identitiesFit_of_identityValid`: A known meaning has fitting identities.
* `pendingChoice_normal`: Published choices are normal.
-/

namespace STS2RL

namespace Api

/-!
### The entries that are given

An object is built from its entries, leaving out those that are null.
-/

section GivenEntries

/-- The members of an object that are given. -/
def givenEntries (entries : List (String × Option Json)) : Fields :=
  entries.filterMap fun (key, value) => value.map (member key)

theorem givenEntries_append (xs ys : List (String × Option Json)) :
    givenEntries (xs ++ ys) = givenEntries xs ++ givenEntries ys := List.filterMap_append

theorem getField_member_self (key : String) (value : Json) (rest : Fields) :
    getField (member key value :: rest) key = value := by
  simp [getField, member]

theorem getField_member_ne {key key' : String} (hne : key' ≠ key) (value : Json) (rest : Fields) :
    getField (member key' value :: rest) key = getField rest key := by
  have hne' : PyStr.text key' ≠ PyStr.text key := fun h => hne (PyStr.text.inj h)
  simp only [getField, member]
  rw [Dict.lookupL_cons_ne hne']

/-- What is not given is not found. -/
theorem getField_givenEntries_of_not_mem {key : String} {entries : List (String × Option Json)}
    (h : key ∉ entries.map Prod.fst) : getField (givenEntries entries) key = .null := by
  induction entries with
  | nil => rfl
  | cons entry rest ih =>
      rcases entry with ⟨key', value⟩
      simp only [List.map_cons, List.mem_cons, not_or] at h
      rcases value with _ | value
      · exact ih h.2
      · rw [← ih h.2]
        exact getField_member_ne (Ne.symm h.1) value _

/-- Reading an entry back. -/
theorem getField_givenEntries {key : String} {value : Option Json}
    {entries : List (String × Option Json)} (hnodup : (entries.map Prod.fst).Nodup)
    (hmem : (key, value) ∈ entries) : getField (givenEntries entries) key = value.getD .null := by
  induction entries with
  | nil => cases hmem
  | cons entry rest ih =>
      rw [List.map_cons, List.nodup_cons] at hnodup
      rcases List.mem_cons.mp hmem with rfl | hrest
      · rcases value with _ | value
        · exact (getField_givenEntries_of_not_mem hnodup.1 : getField (givenEntries rest) key = _)
        · exact getField_member_self key value _
      · rcases entry with ⟨key', value'⟩
        have hne : key' ≠ key := by
          rintro rfl
          exact hnodup.1 (List.mem_map.mpr ⟨_, hrest, rfl⟩)
        rcases value' with _ | value'
        · exact ih hnodup.2 hrest
        · rw [← ih hnodup.2 hrest]
          exact getField_member_ne hne value' _

end GivenEntries

/-!
### The semantics of a choice

What is published of the semantics of a choice has a normal form, and a second
normalisation finds it there.
-/

section Semantics

/-- A text, if it is given. -/
def givenText (text : Option String) : Option Json := text.map fun s => .str (.text s)

theorem givenMembers_eq (texts : List (String × Option String))
    (flags : List (String × Option Bool)) :
    givenMembers texts flags =
      givenEntries (texts.map (fun text => (text.1, givenText text.2)) ++
        flags.map fun flag => (flag.1, flag.2.map .bool)) := by
  simp [givenMembers, givenEntries, givenText, List.filterMap_map, Function.comp_def,
    Option.map_map]

/-- A meaning that is not unknown: every member that is given says what it may. -/
structure Meaning where
  operation : String
  effect : Option String
  sourceZone : Option String
  destinationZone : Option String
  modifier : Option String
  orderMatters : Option Bool
  replacementAllowed : Option Bool
  known : operation ∈ choiceOperations ∧ operation ≠ "unknown"
  effect_allowed : ∀ s ∈ effect, s ∈ choiceEffects
  source_allowed : ∀ s ∈ sourceZone, s ∈ choiceZones
  destination_allowed : ∀ s ∈ destinationZone, s ∈ choiceZones
  modifier_allowed : ∀ s ∈ modifier, s ∈ choiceModifiers

namespace Meaning

/-- The members a meaning is published as, those that are absent without a value. -/
def entries (m : Meaning) : List (String × Option Json) :=
  [("version", some (.int choiceSemanticsVersion)),
    ("operation", some (.str (.text m.operation))),
    ("effect", givenText m.effect),
    ("sourceZone", givenText m.sourceZone),
    ("destinationZone", givenText m.destinationZone),
    ("modifier", givenText m.modifier),
    ("orderMatters", m.orderMatters.map .bool),
    ("replacementAllowed", m.replacementAllowed.map .bool)]

/-- How the meaning is published. -/
def fields (m : Meaning) : Fields := givenEntries m.entries

theorem nodup_entries (m : Meaning) : (m.entries.map Prod.fst).Nodup := by
  simp only [entries, List.map_cons, List.map_nil]
  decide

theorem getField_fields (m : Meaning) {key : String} {value : Option Json}
    (h : (key, value) ∈ m.entries) : getField m.fields key = value.getD .null :=
  getField_givenEntries m.nodup_entries h

theorem operation_fields (m : Meaning) :
    getField m.fields "operation" = .str (.text m.operation) :=
  m.getField_fields (by simp [entries] : ("operation", some (.str (.text m.operation))) ∈ m.entries)

theorem fields_eq (m : Meaning) :
    m.fields =
      [member "version" (.int choiceSemanticsVersion),
          member "operation" (.str (.text m.operation))] ++
        givenMembers [("effect", m.effect), ("sourceZone", m.sourceZone),
            ("destinationZone", m.destinationZone), ("modifier", m.modifier)]
          [("orderMatters", m.orderMatters), ("replacementAllowed", m.replacementAllowed)] := by
  rw [givenMembers_eq]
  rfl

end Meaning

/-- A text that is accepted is an allowed one. -/
theorem mem_of_enumOrNone {value : Json} {allowed : List String} {text : Option String}
    (h : enumOrNone value allowed = some text) : ∀ s ∈ text, s ∈ allowed := by
  unfold enumOrNone at h
  split at h
  · cases h
    exact fun s hs => nomatch hs
  · rename_i s
    by_cases hs : s ∈ allowed
    · rw [if_pos hs] at h
      cases h
      intro t ht
      rw [← Option.mem_some_iff.mp ht]
      exact hs
    · rw [if_neg hs] at h
      cases h
  · cases h

/-- Allowed texts are accepted. -/
theorem enumOrNone_givenText {text : Option String} {allowed : List String}
    (h : ∀ s ∈ text, s ∈ allowed) :
    enumOrNone ((givenText text).getD .null) allowed = some text := by
  rcases text with _ | s
  · rfl
  · exact if_pos (h s rfl)

theorem boolOrNone_given (flag : Option Bool) :
    boolOrNone ((flag.map Json.bool).getD .null) = some flag := by
  rcases flag with _ | _ <;> rfl

/-- A known meaning is published as it is. -/
theorem normalizeChoiceSemantics_fields (m : Meaning) :
    normalizeChoiceSemantics (.obj m.fields) = m.fields := by
  -- Each part is read back as it was written, since it is one of the allowed values.
  have hversion : getField m.fields "version" = .int choiceSemanticsVersion :=
    m.getField_fields (.head _)
  have heffect : enumOrNone (getField m.fields "effect") choiceEffects = some m.effect := by
    rw [m.getField_fields (by simp [Meaning.entries] : ("effect", givenText m.effect) ∈ m.entries)]
    exact enumOrNone_givenText m.effect_allowed
  have hsource : enumOrNone (getField m.fields "sourceZone") choiceZones = some m.sourceZone := by
    rw [m.getField_fields
      (by simp [Meaning.entries] : ("sourceZone", givenText m.sourceZone) ∈ m.entries)]
    exact enumOrNone_givenText m.source_allowed
  have hdestination : enumOrNone (getField m.fields "destinationZone") choiceZones =
      some m.destinationZone := by
    rw [m.getField_fields
      (by simp [Meaning.entries] : ("destinationZone", givenText m.destinationZone) ∈ m.entries)]
    exact enumOrNone_givenText m.destination_allowed
  have hmodifier : enumOrNone (getField m.fields "modifier") choiceModifiers = some m.modifier := by
    rw [m.getField_fields
      (by simp [Meaning.entries] : ("modifier", givenText m.modifier) ∈ m.entries)]
    exact enumOrNone_givenText m.modifier_allowed
  have horder : boolOrNone (getField m.fields "orderMatters") = some m.orderMatters := by
    rw [m.getField_fields
      (by simp [Meaning.entries] : ("orderMatters", m.orderMatters.map Json.bool) ∈ m.entries)]
    exact boolOrNone_given _
  have hreplacement : boolOrNone (getField m.fields "replacementAllowed") =
      some m.replacementAllowed := by
    rw [m.getField_fields (by simp [Meaning.entries] :
      ("replacementAllowed", m.replacementAllowed.map Json.bool) ∈ m.entries)]
    exact boolOrNone_given _
  -- The meaning is a known one, so it is not replaced.
  have hknown : ¬ (choiceSemanticsVersion ≠ choiceSemanticsVersion ∨
      m.operation ∉ choiceOperations ∨ m.operation = "unknown") := by
    simp [m.known.1, m.known.2]
  simp only [normalizeChoiceSemantics, hversion, m.operation_fields, heffect, hsource,
    hdestination, hmodifier, horder, hreplacement]
  rw [if_neg hknown]
  exact m.fields_eq.symm

/-- What is published is unknown or a meaning. -/
theorem normalizeChoiceSemantics_cases (raw : Json) :
    normalizeChoiceSemantics raw = unknownSemantics ∨
      ∃ m : Meaning, normalizeChoiceSemantics raw = m.fields := by
  unfold normalizeChoiceSemantics
  split
  · split
    · split
      · exact .inl rfl
      · rename_i hknown
        simp only [not_or, not_not] at hknown
        split
        · rename_i operation _ _ _ _ _ _ _ _ effect sourceZone destinationZone modifier
            orderMatters replacementAllowed heffect hsource hdestination hmodifier _ _
          refine .inr ⟨⟨operation, effect, sourceZone, destinationZone, modifier, orderMatters,
            replacementAllowed, hknown.2, mem_of_enumOrNone heffect, mem_of_enumOrNone hsource,
            mem_of_enumOrNone hdestination, mem_of_enumOrNone hmodifier⟩, ?_⟩
          rw [Meaning.fields_eq]
        · exact .inl rfl
    · exact .inl rfl
  · exact .inl rfl

theorem normalizeChoiceSemantics_unknown :
    normalizeChoiceSemantics (.obj unknownSemantics) = unknownSemantics := by
  decide +kernel

/-- Publishing a meaning twice. -/
theorem normalizeChoiceSemantics_idem (raw : Json) :
    normalizeChoiceSemantics (.obj (normalizeChoiceSemantics raw)) =
      normalizeChoiceSemantics raw := by
  rcases normalizeChoiceSemantics_cases raw with hunknown | ⟨m, hm⟩
  · rw [hunknown, normalizeChoiceSemantics_unknown]
  · rw [hm, normalizeChoiceSemantics_fields]

end Semantics

/-!
### The entries of a choice

Every entry that is published, in order.
-/

section Entries

variable (fields : Fields)

/-- The tokens of a list of identities, as they are published. -/
def publicTokens (value : Json) : Option Json :=
  (list? value).map fun items => .list ((items.filterMap validToken).map fun s => .str (.text s))

/-- The options, as they are published. -/
def publicOptionList (value : Json) : Option Json :=
  (list? value).map fun items => .list ((items.filterMap Json.fields?).map fun option =>
    .obj (publicOption option))

/-- What caused the choice, as far as it is published. -/
def publicCause : Option Json :=
  if getField (publicSemantics fields) "operation" = .str (.text "unknown") then none
  else givenText (safeSourceEffectId (getField fields "sourceEffectId"))

/-- The members of a published pending choice. -/
def publicEntries : List (String × Option Json) :=
  [("choiceType", publicText (getField fields "choiceType")),
    ("scope", publicText (getField fields "scope")),
    ("scenarioRestorable", publicFlag (getField fields "scenarioRestorable")),
    ("minSelect", publicCount (getField fields "minSelect")),
    ("maxSelect", publicCount (getField fields "maxSelect")),
    ("selectedCount", publicCount (getField fields "selectedCount")),
    ("selectedOptionIds", publicTokens (getField fields "selectedOptionIds")),
    ("options", publicOptionList (getField fields "options")),
    ("choiceSemantics", some (.obj (publicSemantics fields))),
    ("sourceEffectId", publicCause fields)]

theorem nodup_publicEntries : ((publicEntries fields).map Prod.fst).Nodup := by
  simp only [publicEntries, List.map_cons, List.map_nil]
  decide

theorem keys_publicEntries : (publicEntries fields).map Prod.fst ⊆ publicPendingChoiceKeys := by
  simp only [publicEntries, List.map_cons, List.map_nil]
  decide

theorem givenEntries_single (key : String) (value : Option Json) :
    givenEntries [(key, value)] = value.toList.map (member key) := by
  rcases value with _ | value <;> rfl

/-- What is published is exactly these entries. -/
theorem publicPendingChoice_eq : publicPendingChoice fields =
    givenEntries (publicEntries fields) := by
  have hselected : publicSelected fields =
      givenEntries [("selectedOptionIds", publicTokens (getField fields "selectedOptionIds"))] := by
    rw [givenEntries_single]
    simp [publicSelected, publicTokens, Option.toList_map]
  have hoptions : publicOptions fields =
      givenEntries [("options", publicOptionList (getField fields "options"))] := by
    rw [givenEntries_single]
    simp [publicOptions, publicOptionList, Option.toList_map]
  have hcause : publicSourceEffect fields =
    givenEntries [("sourceEffectId", publicCause fields)] := by
    rw [givenEntries_single]
    unfold publicSourceEffect publicCause
    split
    · rfl
    · simp [givenText, Option.toList_map]
  have hscalars : publicScalars fields = givenEntries ((publicEntries fields).take 6) := rfl
  have hsemantics : [member "choiceSemantics" (.obj (publicSemantics fields))] =
      givenEntries [("choiceSemantics", some (.obj (publicSemantics fields)))] := rfl
  unfold publicPendingChoice
  rw [hscalars, hselected, hoptions, hsemantics, hcause]
  simp only [← givenEntries_append]
  rfl

/-- Reading a published member. -/
theorem getField_publicPendingChoice {key : String} {value : Option Json}
    (h : (key, value) ∈ publicEntries fields) :
    getField (publicPendingChoice fields) key = value.getD .null := by
  rw [publicPendingChoice_eq]
  exact getField_givenEntries (nodup_publicEntries fields) h

end Entries

/-!
### Readings of what was published

Each reader, applied to what it has published, reads it again.
-/

section Readings

/-- A reading that accepts its own results. -/
def AcceptsResults (read : Json → Option Json) : Prop :=
  ∀ value, read ((read value).getD .null) = read value

theorem publicText_acceptsResults : AcceptsResults publicText := by
  intro value
  cases value <;> rfl

theorem publicFlag_acceptsResults : AcceptsResults publicFlag := by
  intro value
  cases value <;> rfl

theorem publicCount_acceptsResults : AcceptsResults publicCount := by
  intro value
  rcases value with _ | _ | z | _ | _ | _ | _ <;> try rfl
  by_cases hz : z < 0
  · simp [publicCount, nonnegativeIntOrNone, hz]
  · simp [publicCount, nonnegativeIntOrNone, hz]

/-- A token is its text. -/
theorem eq_of_validToken {value : Json} {s : String} (h : validToken value = some s) :
    value = .str (.text s) := by
  unfold validToken at h
  split at h
  · split at h
    · cases h
    · split at h
      · cases h
        rfl
      · cases h
  · cases h

/-- Tokens are read as they were. -/
theorem filterMap_validToken_tokens (items : List Json) :
    ((items.filterMap validToken).map fun s => Json.str (.text s)).filterMap validToken =
      items.filterMap validToken := by
  rw [List.filterMap_map]
  refine (List.filterMap_congr fun s hs => ?_).trans List.filterMap_some
  rcases List.mem_filterMap.mp hs with ⟨value, -, hvalue⟩
  rw [Function.comp_apply, ← eq_of_validToken hvalue, hvalue]

theorem publicTokens_acceptsResults : AcceptsResults publicTokens := by
  intro value
  rcases hitems : list? value with _ | items
  · have htokens : publicTokens value = none := by
      simp [publicTokens, hitems]
    rw [htokens]
    rfl
  · have htokens : publicTokens value = some (.list ((items.filterMap validToken).map
        fun s => .str (.text s))) := by
      simp [publicTokens, hitems]
    rw [htokens]
    simp only [Option.getD_some, publicTokens, list?, Option.map_some, filterMap_validToken_tokens]

theorem lookupL_without (fields : Fields) (key : String) :
    Dict.lookupL (.text key) (fields.filter fun m => m.1 ≠ .text key) = none := by
  refine Dict.lookupL_eq_none.mpr fun hmem => ?_
  rcases List.mem_map.mp hmem with ⟨m, hm, hkey⟩
  simp [hkey] at hm

theorem getField_without (fields : Fields) (key : String) :
    getField (fields.filter fun m => m.1 ≠ .text key) key = .null := by
  rw [getField, lookupL_without]
  rfl

/-- A published option has the identity of the option, if that is a token. -/
theorem validToken_publicOption (option : Fields) :
    validToken (getField (publicOption option) "optionId") =
      validToken (getField option "optionId") := by
  unfold publicOption
  split
  · rfl
  · rename_i hinvalid
    rw [getField_without, Option.not_isSome_iff_eq_none.mp hinvalid]
    rfl

theorem publicOption_idem (option : Fields) :
    publicOption (publicOption option) = publicOption option := by
  by_cases hvalid : (validToken (getField option "optionId")).isSome = true
  · have hoption : publicOption option = option := if_pos hvalid
    rw [hoption, hoption]
  · have hoption : publicOption option = option.filter fun m => m.1 ≠ .text "optionId" :=
      if_neg hvalid
    have hagain : publicOption (publicOption option) =
        (publicOption option).filter fun m => m.1 ≠ .text "optionId" :=
      if_neg (by rwa [validToken_publicOption])
    rw [hagain, hoption, List.filter_filter]
    simp

theorem filterMap_fields_objects (options : List Fields) :
    (options.map Json.obj).filterMap Json.fields? = options := by
  rw [List.filterMap_map]
  exact List.filterMap_some

/-- Options are read as they were. -/
theorem filterMap_fields_publicOptions (items : List Json) :
    ((items.filterMap Json.fields?).map fun option => Json.obj (publicOption option)).filterMap
        Json.fields? = (items.filterMap Json.fields?).map publicOption := by
  rw [← filterMap_fields_objects ((items.filterMap Json.fields?).map publicOption), List.map_map]
  rfl

theorem publicOptionList_acceptsResults : AcceptsResults publicOptionList := by
  intro value
  rcases hitems : list? value with _ | items
  · have hoptions : publicOptionList value = none := by
      simp [publicOptionList, hitems]
    rw [hoptions]
    rfl
  · have hoptions : publicOptionList value = some (.list ((items.filterMap Json.fields?).map
        fun option => .obj (publicOption option))) := by
      simp [publicOptionList, hitems]
    rw [hoptions]
    simp only [Option.getD_some, publicOptionList, list?, Option.map_some,
      filterMap_fields_publicOptions, List.map_map, Function.comp_def, publicOption_idem]

end Readings

/-!
### Identities

The ids of the options, the selected ones and the ones that are left fit together, before
and after.
-/

section Identities

variable {fields : Fields}

/-- The identities that were selected. -/
def selectedIds (fields : Fields) : List Json :=
  (list? (getField fields "selectedOptionIds")).getD []

/-- The options that are left. -/
def optionsLeft (fields : Fields) : List Json := (list? (getField fields "options")).getD []

/-- The identities of the options that are left. -/
def optionIds (fields : Fields) : List Json :=
  (optionsLeft fields).map fun option => getField (option.fields?.getD []) "optionId"

/-- Selected identities and options left are tokens, each in one role, and counted. -/
structure IdentitiesFit (fields : Fields) : Prop where
  selected_list : getField fields "selectedOptionIds" = .list (selectedIds fields)
  selected_token : ∀ value ∈ selectedIds fields, (validToken value).isSome = true
  selected_distinct : (selectedIds fields).Nodup
  count : getField fields "selectedCount" = .int (selectedIds fields).length
  options_list : getField fields "options" = .list (optionsLeft fields)
  options_object : ∀ option ∈ optionsLeft fields, option.fields?.isSome = true
  option_token : ∀ value ∈ optionIds fields, (validToken value).isSome = true
  options_distinct : (optionIds fields).Nodup
  disjoint : ∀ value ∈ selectedIds fields, value ∉ optionIds fields

/-- Values that are all tokens are the texts that are read. -/
theorem map_text_filterMap_validToken {items : List Json}
    (h : ∀ value ∈ items, (validToken value).isSome = true) :
    (items.filterMap validToken).map (fun s => Json.str (.text s)) = items := by
  rw [List.map_filterMap]
  refine (List.filterMap_congr fun value hmem => ?_).trans List.filterMap_some
  rcases Option.isSome_iff_exists.mp (h value hmem) with ⟨s, hs⟩
  rw [hs, eq_of_validToken hs]
  rfl

theorem text_injective : Function.Injective fun s : String => Json.str (.text s) :=
  fun _ _ h => PyStr.text.inj (Json.str.inj h)

theorem map_obj_filterMap_fields {items : List Json}
    (h : ∀ item ∈ items, item.fields?.isSome = true) :
    (items.filterMap Json.fields?).map Json.obj = items := by
  rw [List.map_filterMap]
  refine (List.filterMap_congr fun item hmem => ?_).trans List.filterMap_some
  rcases Option.isSome_iff_exists.mp (h item hmem) with ⟨fields, hfields⟩
  rcases item with _ | _ | _ | _ | _ | _ | fields' <;> cases hfields
  rfl

theorem eq_list_of_list? {value : Json} {items : List Json} (h : list? value = some items) :
    value = .list items := by
  cases value <;> cases h
  rfl

theorem eq_int_of_nonnegativeIntOrNone {value : Json} {z : Int}
    (h : nonnegativeIntOrNone value = some z) : value = .int z := by
  unfold nonnegativeIntOrNone at h
  split at h
  · split at h <;> cases h
    rfl
  · cases h

/-- Identities that are found valid fit together. -/
theorem identitiesFit_of_identityValid (h : identityValid fields = true) :
    IdentitiesFit fields := by
  unfold identityValid at h
  split at h
  · rename_i hselected hoptions
    rcases Option.map_eq_some_iff.mp hselected with ⟨values, hvalues, hpair⟩
    cases hpair
    rcases Option.map_eq_some_iff.mp hoptions with ⟨options, hlist, hpair⟩
    cases hpair
    rw [decide_eq_true_iff] at h
    rcases h with ⟨hall, halloptions, hcount, hdistinct, hdistinct', hdisjoint⟩
    have hselectedIds : selectedIds fields = values := by
      simp [selectedIds, hvalues]
    have hleft : optionsLeft fields = options := by
      simp [optionsLeft, hlist]
    -- No identity is lost when the tokens are read, so each one is a token.
    have htokens := List.filterMap_length_eq_length.mp hall
    have htexts := map_text_filterMap_validToken htokens
    have hobjects : ∀ option ∈ options, option.fields?.isSome = true :=
      List.filterMap_length_eq_length.mp (Nat.le_antisymm (List.length_filterMap_le _ _)
        (halloptions ▸ List.length_filterMap_le _ _))
    have hids : optionIds fields =
        (options.filterMap Json.fields?).map fun option => getField option "optionId" := by
      unfold optionIds
      rw [hleft, ← map_obj_filterMap_fields hobjects, filterMap_fields_objects, List.map_map]
      rfl
    have hread : (optionIds fields).filterMap validToken =
        (options.filterMap Json.fields?).filterMap fun option =>
          validToken (getField option "optionId") := by
      rw [hids, List.filterMap_map]
      rfl
    have hoptionTokens : ∀ value ∈ optionIds fields, (validToken value).isSome = true := by
      refine List.filterMap_length_eq_length.mp (Nat.le_antisymm (List.length_filterMap_le _ _) ?_)
      rw [hread, halloptions, hids, List.length_map]
      exact List.length_filterMap_le _ _
    have hoptionTexts := map_text_filterMap_validToken hoptionTokens
    rw [hread] at hoptionTexts
    refine ⟨?_, ?_, ?_, ?_, ?_, ?_, hoptionTokens, ?_, ?_⟩
    · rw [hselectedIds]
      exact eq_list_of_list? hvalues
    · rwa [hselectedIds]
    · rw [hselectedIds, ← htexts]
      exact hdistinct.map text_injective
    · rw [hselectedIds, ← hall]
      exact eq_int_of_nonnegativeIntOrNone hcount
    · rw [hleft]
      exact eq_list_of_list? hlist
    · rwa [hleft]
    · rw [← hoptionTexts]
      exact hdistinct'.map text_injective
    · intro value hvalue hoption
      rw [hselectedIds, ← htexts] at hvalue
      rw [← hoptionTexts] at hoption
      rcases List.mem_map.mp hvalue with ⟨s, hs, rfl⟩
      rcases List.mem_map.mp hoption with ⟨t, ht, heq⟩
      rw [text_injective heq] at ht
      exact hdisjoint s hs ht
  · cases h

/-- Identities that fit together are published as they are. -/
theorem IdentitiesFit.getField_public (h : IdentitiesFit fields) {key : String}
    (hkey : key ∈ ["selectedOptionIds", "options", "selectedCount"]) :
    getField (publicPendingChoice fields) key = getField fields key := by
  simp only [List.mem_cons, List.not_mem_nil, or_false] at hkey
  rcases hkey with rfl | rfl | rfl
  · rw [getField_publicPendingChoice fields (by simp [publicEntries] :
      ("selectedOptionIds", publicTokens (getField fields "selectedOptionIds")) ∈
        publicEntries fields),
      h.selected_list]
    simp only [publicTokens, list?, Option.map_some, Option.getD_some,
      map_text_filterMap_validToken h.selected_token]
  · rw [getField_publicPendingChoice fields (by simp [publicEntries] :
      ("options", publicOptionList (getField fields "options")) ∈ publicEntries fields),
      h.options_list]
    -- Every option keeps its identity, so it is kept as it is.
    have hkept : ∀ option ∈ (optionsLeft fields).filterMap Json.fields?,
        Json.obj (publicOption option) = .obj option := by
      intro option hmem
      rcases List.mem_filterMap.mp hmem with ⟨item, hitem, hfields⟩
      have htoken := h.option_token _ (List.mem_map_of_mem hitem)
      rw [hfields] at htoken
      exact congrArg Json.obj (if_pos htoken)
    simp only [publicOptionList, list?, Option.map_some, Option.getD_some,
      List.map_congr_left hkept, map_obj_filterMap_fields h.options_object]
  · rw [getField_publicPendingChoice fields (by simp [publicEntries] :
      ("selectedCount", publicCount (getField fields "selectedCount")) ∈ publicEntries fields),
      h.count]
    have hnonneg : ¬ ((selectedIds fields).length : Int) < 0 := by
      omega
    simp [publicCount, nonnegativeIntOrNone, hnonneg]

/-- The identities that are published fit together as those of the choice did. -/
theorem IdentitiesFit.publicPendingChoice (h : IdentitiesFit fields) :
    IdentitiesFit (publicPendingChoice fields) := by
  have hselected : selectedIds (Api.publicPendingChoice fields) = selectedIds fields := by
    simp only [selectedIds, h.getField_public (.head _)]
  have hleft : optionsLeft (Api.publicPendingChoice fields) = optionsLeft fields := by
    simp only [optionsLeft, h.getField_public (.tail _ (.head _))]
  have hids : optionIds (Api.publicPendingChoice fields) = optionIds fields := by
    simp only [optionIds, hleft]
  refine ⟨?_, ?_, ?_, ?_, ?_, ?_, ?_, ?_, ?_⟩
  · rw [hselected, h.getField_public (.head _)]
    exact h.selected_list
  · rw [hselected]
    exact h.selected_token
  · rw [hselected]
    exact h.selected_distinct
  · rw [hselected, h.getField_public (.tail _ (.tail _ (.head _)))]
    exact h.count
  · rw [hleft, h.getField_public (.tail _ (.head _))]
    exact h.options_list
  · rw [hleft]
    exact h.options_object
  · rw [hids]
    exact h.option_token
  · rw [hids]
    exact h.options_distinct
  · rw [hselected, hids]
    exact h.disjoint

theorem identityValid_publicPendingChoice (h : identityValid fields = true) :
    identityValid (publicPendingChoice fields) = true := by
  have hfit := identitiesFit_of_identityValid h
  unfold identityValid at h ⊢
  rw [hfit.getField_public (.head _), hfit.getField_public (.tail _ (.head _)),
    hfit.getField_public (.tail _ (.tail _ (.head _)))]
  exact h

end Identities

/-!
### The normal form

The parts together.
-/

section Normal

variable (fields : Fields)

/-- The meaning is published again as it was: it is known only where the
    identities fit, and then they still do. -/
theorem publicSemantics_publicPendingChoice :
    publicSemantics (publicPendingChoice fields) = publicSemantics fields := by
  have hsemantics : getField (publicPendingChoice fields) "choiceSemantics" =
      .obj (publicSemantics fields) :=
    getField_publicPendingChoice fields (by simp [publicEntries] :
      ("choiceSemantics", some (.obj (publicSemantics fields))) ∈ publicEntries fields)
  by_cases hvalid : identityValid fields = true
  · have hmeaning : publicSemantics fields =
        normalizeChoiceSemantics (getField fields "choiceSemantics") := if_pos hvalid
    rw [publicSemantics, if_pos (identityValid_publicPendingChoice hvalid), hsemantics, hmeaning,
      normalizeChoiceSemantics_idem]
  · have hmeaning : publicSemantics fields = unknownSemantics := if_neg hvalid
    rw [publicSemantics, hsemantics, hmeaning, normalizeChoiceSemantics_unknown, ite_self]

/-- The cause of a choice is published once and for all. -/
theorem publicCause_publicPendingChoice :
    publicCause (publicPendingChoice fields) = publicCause fields := by
  have hcause : getField (publicPendingChoice fields) "sourceEffectId" =
      (publicCause fields).getD .null :=
    getField_publicPendingChoice fields (by simp [publicEntries])
  unfold publicCause at hcause ⊢
  rw [publicSemantics_publicPendingChoice]
  split
  · rfl
  · rename_i hknown
    rw [if_neg hknown] at hcause
    rw [hcause]
    rcases hsafe : safeSourceEffectId (getField fields "sourceEffectId") with _ | s
    · rfl
    · have hvalue : getField fields "sourceEffectId" = .str (.text s) :=
        eq_of_validToken (Option.filter_eq_some_iff.mp hsafe).1
      rw [hvalue] at hsafe
      exact congrArg givenText hsafe

/-- Publishing a choice twice. -/
theorem publicPendingChoice_idem :
    publicPendingChoice (publicPendingChoice fields) = publicPendingChoice fields := by
  have hread : ∀ key read, AcceptsResults read →
      (key, read (getField fields key)) ∈ publicEntries fields →
      read (getField (publicPendingChoice fields) key) = read (getField fields key) := by
    intro key read haccepts hmem
    rw [getField_publicPendingChoice fields hmem]
    exact haccepts _
  have hentries : publicEntries (publicPendingChoice fields) = publicEntries fields := by
    unfold publicEntries
    rw [hread "choiceType" publicText publicText_acceptsResults (by simp [publicEntries]),
      hread "scope" publicText publicText_acceptsResults (by simp [publicEntries]),
      hread "scenarioRestorable" publicFlag publicFlag_acceptsResults (by simp [publicEntries]),
      hread "minSelect" publicCount publicCount_acceptsResults (by simp [publicEntries]),
      hread "maxSelect" publicCount publicCount_acceptsResults (by simp [publicEntries]),
      hread "selectedCount" publicCount publicCount_acceptsResults (by simp [publicEntries]),
      hread "selectedOptionIds" publicTokens publicTokens_acceptsResults (by simp [publicEntries]),
      hread "options" publicOptionList publicOptionList_acceptsResults (by simp [publicEntries]),
      publicSemantics_publicPendingChoice, publicCause_publicPendingChoice]
  rw [publicPendingChoice_eq, hentries, ← publicPendingChoice_eq]

/-- What is published of a choice is normal: where its meaning is known its
    identities fit together, no member has another name, and publishing it once
    more changes nothing. -/
theorem pendingChoice_normal :
    (getField (publicSemantics fields) "operation" ≠ .str (.text "unknown") →
      IdentitiesFit (publicPendingChoice fields)) ∧
    getField (publicPendingChoice fields) "choiceSemantics" = .obj (publicSemantics fields) ∧
    (∀ m ∈ publicPendingChoice fields, ∃ key ∈ publicPendingChoiceKeys, m.1 = .text key) ∧
    (∀ m ∈ publicSemantics fields, ∃ key ∈ publicChoiceSemanticsKeys, m.1 = .text key) ∧
    normalizePendingChoice (normalizePendingChoice (.obj fields)) =
      normalizePendingChoice (.obj fields) := by
  refine ⟨fun hknown => ?_, getField_publicPendingChoice fields (by simp [publicEntries] :
      ("choiceSemantics", some (.obj (publicSemantics fields))) ∈ publicEntries fields), ?_,
    fun m hm => (flatMembers_publicSemantics fields m hm).1,
    congrArg Json.obj (publicPendingChoice_idem fields)⟩
  · have hvalid : identityValid fields = true := by
      by_contra hinvalid
      rw [publicSemantics, if_neg hinvalid] at hknown
      exact hknown (by decide +kernel)
    exact (identitiesFit_of_identityValid hvalid).publicPendingChoice
  · intro m hm
    rw [publicPendingChoice_eq] at hm
    rcases List.mem_filterMap.mp hm with ⟨⟨key, value⟩, hentry, hvalue⟩
    rcases Option.map_eq_some_iff.mp hvalue with ⟨v, -, rfl⟩
    refine ⟨key, ?_, rfl⟩
    exact keys_publicEntries fields (List.mem_map_of_mem hentry)

/-- A choice that is known: one option was selected and two are left. -/
def survivorChoice : Fields :=
  [member "scope" (.str "ActionContinuation"), member "minSelect" (.int 1),
    member "selectedCount" (.int 1),
    member "choiceSemantics" (.obj [member "version" (.int 1), member "operation" (.str "discard"),
      member "modifier" .null, member "orderMatters" (.bool true),
      member "unapprovedSemanticField" (.str "must-not-leak")]),
    member "sourceEffectId" (.str "card:SURVIVOR"),
    member "selectedOptionIds" (.list [.str "choice-7:0"]),
    member "options" (.list [.obj [member "id" (.str "STRIKE"),
      member "optionId" (.str "choice-7:1")],
      .obj [member "id" (.str "STRIKE"), member "optionId" (.str "choice-7:2")]]),
    member "unapprovedPendingField" (.bool true)]

theorem pendingChoice_normal_survivor : IdentitiesFit (publicPendingChoice survivorChoice) :=
  (pendingChoice_normal survivorChoice).1 (by decide +kernel)

end Normal

end Api

end STS2RL
