import STS2RL.Api.RecordCodec

/-!
# Snapshots on the Wire

A captured state with every record it is made of, as `from_dict` reads it and
`asdict` writes it. A field that is taken as it is holds any value; one that goes
through `int`, `bool`, `str` or `float` holds what comes out. Two of the records
keep the members they have no field for.

A hypothesis is put into a snapshot by way of its flat form: the snapshot is
flattened, the stream that shuffles and the cards of the draw pile are replaced in
the flat form, and that is read as a snapshot again. The codecs of the records say
that nothing else is lost on the way.

## Main definitions

* `CardInstanceSnapshot`, …, `CombatStateSnapshot`: The records.
* `fromDict`, `snapshotPlainDict`: Reading a snapshot, and its flat form.
* `deriveSubstitutedSnapshot`: A hypothesis put into a snapshot.

## Theorems

* `snapshot_round_trip`: The flat form is read as the snapshot it is of.
-/

namespace STS2RL

namespace Combat

namespace Wire

open Api (Fields Codec Schema RecordType member pyItem pyRepr jsonRepr typeName noAttribute
  isNamed lacksName)

/-- Where a record keeps the members it has no field for. -/
abbrev unknownFields : String := "unknown_fields"

/-!
### Checks of a record

Whether the members that are required are there, and the error that names the ones that
are not.
-/

section Checks

/-- A `SnapshotValidationError`. -/
def snapshotValidationError (message : String) : PyException :=
  ⟨"SnapshotValidationError", message⟩

/-- A list of keys, in an error. -/
def reprKeys (keys : List String) : String :=
  jsonRepr (.list (keys.map fun key => .str (.text key)))

/-- `key in value`. -/
def containsKey (value : Json) (key : String) : Except PyException Bool :=
  match value with
  | .obj fields => .ok (Dict.lookupL (.text key) fields).isSome
  | .list xs => .ok (xs.any fun x => x = .str (.text key))
  | .str s => .ok (Api.isInside (PyStr.text key).codes s.codes)
  | value => .error ⟨"TypeError", "argument of type '" ++ typeName value ++ "' is not iterable"⟩

/-- `[k for k in keys if k not in value]`. -/
def missingKeys (value : Json) : List String → Except PyException (List String)
  | [] => .ok []
  | key :: keys => do
      let found ← containsKey value key
      let missing ← missingKeys value keys
      pure (if found then missing else key :: missing)

/-- `_require`. -/
def require (value : Json) (keys : List String) (typeName : String) : Except PyException Unit := do
  let missing ← missingKeys value keys
  if missing.isEmpty then pure ()
  else .error (snapshotValidationError
    (typeName ++ " missing required field(s): " ++ reprKeys missing))

variable {β : Type}

/-- A record that was written has the members it requires. -/
theorem missingKeys_encodeMembers (schema : Schema unknownFields β) (b : β) {keys : List String}
    (h : keys.all (· ∈ schema.keys) = true) :
    missingKeys (.obj (schema.encodeMembers b)) keys = .ok [] := by
  induction keys with
  | nil => rfl
  | cons key keys ih =>
      simp only [List.all_cons, Bool.and_eq_true, decide_eq_true_eq] at h
      have hmem : PyStr.text key ∈ (schema.encodeMembers b).map Prod.fst := by
        rw [schema.keys_encodeMembers]
        exact List.mem_map_of_mem h.1
      have hfound : (Dict.lookupL (PyStr.text key) (schema.encodeMembers b)).isSome = true := by
        rw [Option.isSome_iff_ne_none, ne_eq, Dict.lookupL_eq_none, not_not]
        exact hmem
      rw [missingKeys, ih h.2, containsKey, hfound]
      rfl

theorem require_encodeMembers (schema : Schema unknownFields β) (b : β) {keys : List String}
    (h : keys.all (· ∈ schema.keys) = true) (typeName : String) :
    require (.obj (schema.encodeMembers b)) keys typeName = .ok () := by
  rw [require, missingKeys_encodeMembers schema b h]
  rfl

/-- A record type that only requires some of its members. -/
def recordType {ρ : Type} (typeName : String) (required : List String)
    (schema : Schema unknownFields β) (parts : ρ → β) (build : β → ρ)
    (hwell : schema.WellFormed = true) (hrequired : required.all (· ∈ schema.keys) = true)
    (hbuild : ∀ r, build (parts r) = r) (hparts : ∀ b, parts (build b) = b) :
    RecordType unknownFields ρ where
  Parts := β
  check := fun value => require value required typeName
  schema := schema
  parts := parts
  build := fun b _ => build b
  unknown := none
  check_encode := fun b => require_encodeMembers schema b hrequired typeName
  wellFormed := hwell
  build_parts := fun r _ => hbuild r
  parts_build := fun b _ => hparts b

end Checks

/-!
### Dictionaries

`dict(value)` takes an object, a list of pairs or a text of two letters; what it stores
never has a name that was nowhere in the value.
-/

section Dictionaries

/-- The pair an item of a list makes in `dict(…)`. A pair whose key is no text would
    make a dictionary that is no object, which is left out. -/
def pairOf (index : Nat) (item : Json) : Except PyException (PyStr × Json) :=
  match Api.iterate item with
  | .error _ => .error ⟨"TypeError", "cannot convert dictionary update sequence element #" ++
      toString index ++ " to a sequence"⟩
  | .ok [.str key, value] => .ok (key, value)
  | .ok [key, _] => .error ⟨"TypeError", "unhashable type: '" ++ typeName key ++ "'"⟩
  | .ok parts => .error (.valueError ("dictionary update sequence element #" ++ toString index ++
      " has length " ++ toString parts.length ++ "; 2 is required"))

/-- The entries `dict(value)` stores. -/
def pyDict : Json → Except PyException Fields
  | .obj fields => .ok fields
  | value => do (← Api.iterate value).zipIdx.mapM fun item => pairOf item.2 item.1

theorem isNamed_charOf (code : Nat) : isNamed unknownFields (Api.charOf code) = false := by
  unfold Api.charOf isNamed
  split
  · rfl
  · refine decide_eq_false fun heq => ?_
    have hlength := congrArg String.length (PyStr.text.inj heq)
    rw [String.length_singleton] at hlength
    exact absurd hlength (by decide)

/-- A pair that lacks the name makes an entry that lacks it. -/
theorem lacksName_of_pairOf {index : Nat} {item : Json} {entry : PyStr × Json}
    (h : pairOf index item = .ok entry) (hlacks : lacksName unknownFields item = true) :
    isNamed unknownFields entry.1 = false ∧ lacksName unknownFields entry.2 = true := by
  -- An item that is a pair could be iterated, and has the key and the value for its parts.
  have hitems : ∃ parts, Api.iterate item = .ok parts := by
    unfold pairOf at h
    cases hiterate : Api.iterate item with
    | error exc =>
        rw [hiterate] at h
        cases h
    | ok parts => exact ⟨parts, rfl⟩
  rcases hitems with ⟨parts, hparts⟩
  have hpair : parts = [.str entry.1, entry.2] := by
    rw [pairOf, hparts] at h
    split at h
    · cases h
    · rename_i key value heq
      cases h
      exact Except.ok.inj heq
    · cases h
    · cases h
  subst hpair
  have hmem := fun x => Codec.lacksName_of_mem_iterate (x := x) hparts hlacks
  refine ⟨?_, hmem _ (List.mem_cons_of_mem _ List.mem_cons_self)⟩
  -- What can be iterated is a list, a text or an object. The parts of a text are single
  -- characters, none of which is the name.
  cases item with
  | list xs =>
      cases hparts
      rw [lacksName, Bool.and_eq_true, Bool.not_eq_true'] at hlacks
      exact hlacks.1
  | str s =>
      have hchars := Except.ok.inj hparts
      cases hcodes : s.codes with
      | nil =>
          rw [hcodes] at hchars
          cases hchars
      | cons code codes =>
          rw [hcodes, List.map_cons] at hchars
          rw [← Json.str.inj (List.cons.inj hchars).1]
          exact isNamed_charOf code
  | obj fields =>
      have hkeys := Except.ok.inj hparts
      cases fields with
      | nil => cases hkeys
      | cons field rest =>
          rw [List.map_cons] at hkeys
          rw [← Json.str.inj (List.cons.inj hkeys).1]
          exact ((Api.lacksNameFields_iff _).mp hlacks field List.mem_cons_self).1
  | null | bool _ | int _ | float _ => cases hparts

/-- So do all entries of a dictionary. -/
theorem lacksName_of_pyDict {v : Json} {entries : Fields} (h : pyDict v = .ok entries)
    (hlacks : lacksName unknownFields v = true) :
    ∀ e ∈ entries, isNamed unknownFields e.1 = false ∧ lacksName unknownFields e.2 = true := by
  have hpairs : ∀ items : List Json, Api.iterate v = .ok items →
      items.zipIdx.mapM (fun item => pairOf item.2 item.1) = .ok entries →
      ∀ e ∈ entries, isNamed unknownFields e.1 = false ∧ lacksName unknownFields e.2 = true := by
    intro items hitems hmapM e he
    rcases Except.exists_of_mem_mapM _ _ _ hmapM e he with ⟨item, hitem, hpair⟩
    exact lacksName_of_pairOf hpair (Codec.lacksName_of_mem_iterate hitems hlacks
      (List.fst_mem_of_mem_zipIdx hitem))
  cases v with
  | obj fields =>
      cases h
      exact (Api.lacksNameFields_iff _).mp hlacks
  | null | bool _ | int _ | float _ | str _ | list _ =>
      rcases (Except.bind_eq_ok _ _ _).mp h with ⟨items, hitems, hmapM⟩
      exact hpairs items hitems hmapM

/-- `dict(value)`. -/
def dict : Codec unknownFields (Dict PyStr Json) where
  decode := fun v => (pyDict v).map Dict.empty.setAll
  encode := fun d => .obj d.entries
  asdict := fun d => .obj d.entries
  Known := fun _ => True
  decode_encode := fun d _ => congrArg Except.ok d.setAll_entries
  dropKeys_asdict := fun _ => rfl
  lacks_of_decode := fun v d hread hlacks => by
    rcases (Except.map_eq_ok _ _ _).mp hread with ⟨entries, hentries, rfl⟩
    refine (Json.lacksKeysFields_iff _ _).mpr fun e he => ?_
    rcases Dict.mem_entries_setAll entries Dict.empty e he with hnone | hmem
    · cases hnone
    · have h := lacksName_of_pyDict hentries hlacks e hmem
      exact ⟨h.1, Api.lacksKeys_of_lacksName _ h.2⟩

end Dictionaries

/-!
### Enumerations

Three fields hold one of a few texts, and anything else is refused.
-/

section Enumerations

/-- A text that has to be one of those known. -/
def decodeOneOf {ε : Type} (known : List (String × ε)) (label : String) (value : Json) :
    Except PyException ε :=
  match value with
  | .list _ | .obj _ => .error ⟨"TypeError", "unhashable type: '" ++ typeName value ++ "'"⟩
  | value =>
      match known.find? fun e => value = .str (.text e.1) with
      | some e => .ok e.2
      | none => .error (snapshotValidationError
          (label ++ "=" ++ jsonRepr value ++ " (known: " ++ reprKeys (known.map Prod.fst) ++ ")"))

/-- `KNOWN_SCHEMA_VERSIONS`. -/
inductive SchemaVersion where
  | phase3c8
  deriving DecidableEq

/-- How much of the state a snapshot has. -/
inductive Completeness where
  | complete
  | partialKnownGaps
  | unsupportedState
  | captureFailed
  deriving DecidableEq

/-- At which kind of decision a snapshot was taken. -/
inductive CaptureBoundary where
  | normalPlayerDecision
  | publishedChoice
  | publishedTarget
  | terminal
  deriving DecidableEq

/-- A version's text. -/
def SchemaVersion.text : SchemaVersion → String
  | phase3c8 => "phase3c.8"

/-- A completeness's text. -/
def Completeness.text : Completeness → String
  | complete => "complete"
  | partialKnownGaps => "partial_known_gaps"
  | unsupportedState => "unsupported_state"
  | captureFailed => "capture_failed"

/-- A boundary's text. -/
def CaptureBoundary.text : CaptureBoundary → String
  | normalPlayerDecision => "normal_player_decision"
  | publishedChoice => "published_choice"
  | publishedTarget => "published_target"
  | terminal => "terminal"

/-- `KNOWN_SCHEMA_VERSIONS`, sorted. -/
def knownSchemaVersions : List (String × SchemaVersion) := [("phase3c.8", .phase3c8)]

/-- `COMPLETENESS_VALUES`, sorted. -/
def completenessValues : List (String × Completeness) :=
  [("capture_failed", .captureFailed), ("complete", .complete),
    ("partial_known_gaps", .partialKnownGaps), ("unsupported_state", .unsupportedState)]

/-- `CAPTURE_BOUNDARY_VALUES`, sorted. -/
def captureBoundaryValues : List (String × CaptureBoundary) :=
  [("normal_player_decision", .normalPlayerDecision), ("published_choice", .publishedChoice),
    ("published_target", .publishedTarget), ("terminal", .terminal)]

/-- Reads a version that is known. -/
def decodeSchemaVersion : Json → Except PyException SchemaVersion :=
  decodeOneOf knownSchemaVersions "unknown SnapshotMetadata.SchemaVersion"

/-- Reads a completeness. -/
def decodeCompleteness : Json → Except PyException Completeness :=
  decodeOneOf completenessValues "unrecognized Completeness"

/-- Reads a boundary. -/
def decodeCaptureBoundary : Json → Except PyException CaptureBoundary :=
  decodeOneOf captureBoundaryValues "unrecognized CaptureBoundary"

theorem decodeSchemaVersion_text (version : SchemaVersion) :
    decodeSchemaVersion (.str (.text version.text)) = .ok version := by
  cases version
  decide +kernel

theorem decodeCompleteness_text (completeness : Completeness) :
    decodeCompleteness (.str (.text completeness.text)) = .ok completeness := by
  cases completeness <;> decide +kernel

theorem decodeCaptureBoundary_text (boundary : CaptureBoundary) :
    decodeCaptureBoundary (.str (.text boundary.text)) = .ok boundary := by
  cases boundary <;> decide +kernel

end Enumerations

/-!
### The records

One record for each class of the source, with its fields in the order in which they are
read, each with the coercion the source applies and the default it has. Two of them keep
the members they have no field for.
-/

section Records

/-- A field that could not be captured. -/
structure UnsupportedSnapshotField where
  fieldPath : Json
  status : Json
  reason : Json
  className : Json
  instanceId : Json
  serializerVersion : Json

/-- `UnsupportedSnapshotField.from_dict` and `to_dict`. -/
def UnsupportedSnapshotField.record : RecordType unknownFields UnsupportedSnapshotField :=
  recordType "UnsupportedSnapshotField" ["FieldPath", "Status", "Reason"]
    (.field "FieldPath" .raw none <|
      .field "Status" .raw none <|
      .field "Reason" .raw none <|
      .field "ClassName" .raw (some .null) <|
      .field "InstanceId" .raw (some .null) <|
      .field "SerializerVersion" .raw (some .null) <|
      .nil)
    (fun r => (r.fieldPath, r.status, r.reason, r.className, r.instanceId, r.serializerVersion,
      ()))
    (fun (fieldPath, status, reason, className, instanceId, serializerVersion, _) =>
      ⟨fieldPath, status, reason, className, instanceId, serializerVersion⟩)
    (by decide +kernel) (by decide +kernel) (fun _ => rfl) (fun _ => rfl)

/-- A change of a card's cost. -/
structure LocalCostModifierSnapshot where
  amount : Int
  type : Json
  expiration : Int
  isReduceOnly : Bool

/-- `LocalCostModifierSnapshot.from_dict` and `to_dict`. -/
def LocalCostModifierSnapshot.record : RecordType unknownFields LocalCostModifierSnapshot :=
  recordType "LocalCostModifierSnapshot" ["Amount", "Type", "Expiration", "IsReduceOnly"]
    (.field "Amount" .int none <|
      .field "Type" .raw none <|
      .field "Expiration" .int none <|
      .field "IsReduceOnly" .bool none <|
      .nil)
    (fun r => (r.amount, r.type, r.expiration, r.isReduceOnly, ()))
    (fun (amount, type', expiration, isReduceOnly, _) =>
      ⟨amount, type', expiration, isReduceOnly⟩)
    (by decide +kernel) (by decide +kernel) (fun _ => rfl) (fun _ => rfl)

/-- A star cost for a while. -/
structure TemporaryStarCostSnapshot where
  cost : Int
  clearsWhenTurnEnds : Bool
  clearsWhenCardIsPlayed : Bool

/-- `TemporaryStarCostSnapshot.from_dict` and `to_dict`. -/
def TemporaryStarCostSnapshot.record : RecordType unknownFields TemporaryStarCostSnapshot :=
  recordType "TemporaryStarCostSnapshot" ["Cost", "ClearsWhenTurnEnds",
      "ClearsWhenCardIsPlayed"]
    (.field "Cost" .int none <|
      .field "ClearsWhenTurnEnds" .bool none <|
      .field "ClearsWhenCardIsPlayed" .bool none <|
      .nil)
    (fun r => (r.cost, r.clearsWhenTurnEnds, r.clearsWhenCardIsPlayed, ()))
    (fun (cost, clearsWhenTurnEnds, clearsWhenCardIsPlayed, _) =>
      ⟨cost, clearsWhenTurnEnds, clearsWhenCardIsPlayed⟩)
    (by decide +kernel) (by decide +kernel) (fun _ => rfl) (fun _ => rfl)

/-- A card's enchantment. -/
structure EnchantmentSnapshot where
  id : PyStr
  amount : Int
  props : Json

/-- `EnchantmentSnapshot.from_dict` and `to_dict`. -/
def EnchantmentSnapshot.record : RecordType unknownFields EnchantmentSnapshot :=
  recordType "EnchantmentSnapshot" ["Id", "Amount", "Props"]
    (.field "Id" .text none <|
      .field "Amount" .int none <|
      .field "Props" .raw none <|
      .nil)
    (fun r => (r.id, r.amount, r.props, ()))
    (fun (id, amount, props, _) =>
      ⟨id, amount, props⟩)
    (by decide +kernel) (by decide +kernel) (fun _ => rfl) (fun _ => rfl)

/-- A card's affliction. -/
structure AfflictionSnapshot where
  id : PyStr
  amount : Int
  props : Json

/-- `AfflictionSnapshot.from_dict` and `to_dict`. -/
def AfflictionSnapshot.record : RecordType unknownFields AfflictionSnapshot :=
  recordType "AfflictionSnapshot" ["Id", "Amount", "Props"]
    (.field "Id" .text none <|
      .field "Amount" .int none <|
      .field "Props" .raw none <|
      .nil)
    (fun r => (r.id, r.amount, r.props, ()))
    (fun (id, amount, props, _) =>
      ⟨id, amount, props⟩)
    (by decide +kernel) (by decide +kernel) (fun _ => rfl) (fun _ => rfl)

/-- A card of the player, wherever it lies. -/
structure CardInstanceSnapshot where
  instanceId : Json
  cardId : Json
  type : Json
  rarity : Json
  cost : Int
  targetType : Json
  isUpgraded : Bool
  upgradeLevel : Int
  localKeywords : Option (List Json)
  localCostModifiers : List LocalCostModifierSnapshot
  temporaryStarCosts : List TemporaryStarCostSnapshot
  zone : Json
  pileIndex : Option Int
  hasBeenRemovedFromState : Bool
  enchantment : Option EnchantmentSnapshot
  enchantmentStatus : Json
  tinkerTimeType : Json
  tinkerTimeRider : Json
  dynamicVars : Dict PyStr String
  baseReplayCount : Int
  baseStarCost : Int
  lastStarsSpent : Int
  exhaustOnNextPlay : Bool
  hasSingleTurnRetain : Bool
  hasSingleTurnSly : Bool
  affliction : Option AfflictionSnapshot
  cloneOfInstanceId : Json
  isDupe : Bool
  deckVersionInstanceId : Json
  floorAddedToDeck : Option Int
  savedProperties : Json
  sovereignBladeCurrentDamage : Option String
  sovereignBladeCurrentRepeats : Option String
  sovereignBladeCreatedThroughForge : Option Bool

/-- `CardInstanceSnapshot.from_dict` and `to_dict`. -/
def CardInstanceSnapshot.record : RecordType unknownFields CardInstanceSnapshot :=
  recordType "CardInstanceSnapshot" ["InstanceId", "CardId", "Zone", "PileIndex",
      "HasBeenRemovedFromState", "Type", "Rarity", "Cost", "LocalCostModifiers",
      "TemporaryStarCosts", "TargetType", "IsUpgraded", "UpgradeLevel", "TinkerTimeType",
      "TinkerTimeRider"]
    (.field "InstanceId" .raw none <|
      .field "CardId" .raw none <|
      .field "Type" .raw none <|
      .field "Rarity" .raw none <|
      .field "Cost" .int none <|
      .field "TargetType" .raw none <|
      .field "IsUpgraded" .bool none <|
      .field "UpgradeLevel" .int none <|
      .field "LocalKeywords" (.nullable (.listOf .raw) fun _ h => nomatch h) (some .null) <|
      .field "LocalCostModifiers" (.listOf LocalCostModifierSnapshot.record.codec) none <|
      .field "TemporaryStarCosts" (.listOf TemporaryStarCostSnapshot.record.codec) none <|
      .field "Zone" .raw none <|
      .field "PileIndex" (.nullable .int fun _ h => nomatch h) none <|
      .field "HasBeenRemovedFromState" .bool none <|
      .field "Enchantment" (EnchantmentSnapshot.record.unlessFalsy (List.cons_ne_nil _ _))
        (some .null) <|
      .field "EnchantmentStatus" .raw (some .null) <|
      .field "TinkerTimeType" .raw none <|
      .field "TinkerTimeRider" .raw none <|
      .field "DynamicVars" (.mapOrEmpty .float) (some .null) <|
      .field "BaseReplayCount" .int (some (.int 0)) <|
      .field "BaseStarCost" .int (some (.int 0)) <|
      .field "LastStarsSpent" .int (some (.int 0)) <|
      .field "ExhaustOnNextPlay" .bool (some (.bool false)) <|
      .field "HasSingleTurnRetain" .bool (some (.bool false)) <|
      .field "HasSingleTurnSly" .bool (some (.bool false)) <|
      .field "Affliction" (AfflictionSnapshot.record.unlessFalsy (List.cons_ne_nil _ _))
        (some .null) <|
      .field "CloneOfInstanceId" .raw (some .null) <|
      .field "IsDupe" .bool (some (.bool false)) <|
      .field "DeckVersionInstanceId" .raw (some .null) <|
      .field "FloorAddedToDeck" (.nullable .int fun _ h => nomatch h) (some .null) <|
      .field "SavedProperties" .raw (some .null) <|
      .field "SovereignBladeCurrentDamage" (.nullable .float fun _ h => nomatch h) (some .null) <|
      .field "SovereignBladeCurrentRepeats" (.nullable .float fun _ h => nomatch h) (some .null) <|
      .field "SovereignBladeCreatedThroughForge" (.nullable .bool fun _ h => nomatch h)
        (some .null) <|
      .nil)
    (fun r => (r.instanceId, r.cardId, r.type, r.rarity, r.cost, r.targetType, r.isUpgraded,
      r.upgradeLevel, r.localKeywords, r.localCostModifiers, r.temporaryStarCosts, r.zone,
      r.pileIndex, r.hasBeenRemovedFromState, r.enchantment, r.enchantmentStatus,
      r.tinkerTimeType, r.tinkerTimeRider, r.dynamicVars, r.baseReplayCount, r.baseStarCost,
      r.lastStarsSpent, r.exhaustOnNextPlay, r.hasSingleTurnRetain, r.hasSingleTurnSly,
      r.affliction, r.cloneOfInstanceId, r.isDupe, r.deckVersionInstanceId, r.floorAddedToDeck,
      r.savedProperties, r.sovereignBladeCurrentDamage, r.sovereignBladeCurrentRepeats,
      r.sovereignBladeCreatedThroughForge, ()))
    (fun (instanceId, cardId, type', rarity, cost, targetType, isUpgraded, upgradeLevel,
      localKeywords, localCostModifiers, temporaryStarCosts, zone, pileIndex,
      hasBeenRemovedFromState, enchantment, enchantmentStatus, tinkerTimeType, tinkerTimeRider,
      dynamicVars, baseReplayCount, baseStarCost, lastStarsSpent, exhaustOnNextPlay,
      hasSingleTurnRetain, hasSingleTurnSly, affliction, cloneOfInstanceId, isDupe,
      deckVersionInstanceId, floorAddedToDeck, savedProperties, sovereignBladeCurrentDamage,
      sovereignBladeCurrentRepeats, sovereignBladeCreatedThroughForge, _) =>
      ⟨instanceId, cardId, type', rarity, cost, targetType, isUpgraded, upgradeLevel,
        localKeywords, localCostModifiers, temporaryStarCosts, zone, pileIndex,
        hasBeenRemovedFromState, enchantment, enchantmentStatus, tinkerTimeType,
        tinkerTimeRider, dynamicVars, baseReplayCount, baseStarCost, lastStarsSpent,
        exhaustOnNextPlay, hasSingleTurnRetain, hasSingleTurnSly, affliction,
        cloneOfInstanceId, isDupe, deckVersionInstanceId, floorAddedToDeck, savedProperties,
        sovereignBladeCurrentDamage, sovereignBladeCurrentRepeats,
        sovereignBladeCreatedThroughForge⟩)
    (by decide +kernel) (by decide +kernel) (fun _ => rfl) (fun _ => rfl)

/-- A relic. -/
structure RelicSnapshot where
  instanceId : Json
  relicId : Json
  rarity : Json
  stackCount : Int
  status : Json
  isWax : Bool
  isMelted : Bool
  hasBeenRemovedFromState : Bool
  floorAddedToDeck : Int
  savedProperties : Json
  displayAmount : Json

/-- `RelicSnapshot.from_dict` and `to_dict`. -/
def RelicSnapshot.record : RecordType unknownFields RelicSnapshot :=
  recordType "RelicSnapshot" ["InstanceId", "RelicId", "Rarity", "StackCount", "Status",
      "IsWax", "IsMelted", "HasBeenRemovedFromState", "FloorAddedToDeck", "SavedProperties"]
    (.field "InstanceId" .raw none <|
      .field "RelicId" .raw none <|
      .field "Rarity" .raw none <|
      .field "StackCount" .int none <|
      .field "Status" .raw none <|
      .field "IsWax" .bool none <|
      .field "IsMelted" .bool none <|
      .field "HasBeenRemovedFromState" .bool none <|
      .field "FloorAddedToDeck" .int none <|
      .field "SavedProperties" .raw none <|
      .field "DisplayAmount" .raw (some .null) <|
      .nil)
    (fun r => (r.instanceId, r.relicId, r.rarity, r.stackCount, r.status, r.isWax, r.isMelted,
      r.hasBeenRemovedFromState, r.floorAddedToDeck, r.savedProperties, r.displayAmount, ()))
    (fun (instanceId, relicId, rarity, stackCount, status, isWax, isMelted,
      hasBeenRemovedFromState, floorAddedToDeck, savedProperties, displayAmount, _) =>
      ⟨instanceId, relicId, rarity, stackCount, status, isWax, isMelted,
        hasBeenRemovedFromState, floorAddedToDeck, savedProperties, displayAmount⟩)
    (by decide +kernel) (by decide +kernel) (fun _ => rfl) (fun _ => rfl)

/-- A power, which names its owner and its target. -/
structure PowerSnapshot where
  instanceId : Json
  powerId : Json
  amount : Int
  amountOnTurnStart : Int
  skipNextDurationTick : Bool
  stackType : Json
  ownerInstanceId : Json
  hasUnsupportedInternalData : Bool
  applierInstanceId : Json
  targetInstanceId : Json
  associatedCardInstanceId : Json
  internalData : Json
  internalDataSerializerVersion : Json

/-- `PowerSnapshot.from_dict` and `to_dict`. -/
def PowerSnapshot.record : RecordType unknownFields PowerSnapshot :=
  recordType "PowerSnapshot" ["InstanceId", "PowerId", "Amount", "AmountOnTurnStart",
      "SkipNextDurationTick", "StackType", "OwnerInstanceId", "AssociatedCardInstanceId",
      "HasUnsupportedInternalData"]
    (.field "InstanceId" .raw none <|
      .field "PowerId" .raw none <|
      .field "Amount" .int none <|
      .field "AmountOnTurnStart" .int none <|
      .field "SkipNextDurationTick" .bool none <|
      .field "StackType" .raw none <|
      .field "OwnerInstanceId" .raw none <|
      .field "HasUnsupportedInternalData" .bool none <|
      .field "ApplierInstanceId" .raw (some .null) <|
      .field "TargetInstanceId" .raw (some .null) <|
      .field "AssociatedCardInstanceId" .raw (some .null) <|
      .field "InternalData" .raw (some .null) <|
      .field "InternalDataSerializerVersion" .raw (some .null) <|
      .nil)
    (fun r => (r.instanceId, r.powerId, r.amount, r.amountOnTurnStart, r.skipNextDurationTick,
      r.stackType, r.ownerInstanceId, r.hasUnsupportedInternalData, r.applierInstanceId,
      r.targetInstanceId, r.associatedCardInstanceId, r.internalData,
      r.internalDataSerializerVersion, ()))
    (fun (instanceId, powerId, amount, amountOnTurnStart, skipNextDurationTick, stackType,
      ownerInstanceId, hasUnsupportedInternalData, applierInstanceId, targetInstanceId,
      associatedCardInstanceId, internalData, internalDataSerializerVersion, _) =>
      ⟨instanceId, powerId, amount, amountOnTurnStart, skipNextDurationTick, stackType,
        ownerInstanceId, hasUnsupportedInternalData, applierInstanceId, targetInstanceId,
        associatedCardInstanceId, internalData, internalDataSerializerVersion⟩)
    (by decide +kernel) (by decide +kernel) (fun _ => rfl) (fun _ => rfl)

/-- A potion in its slot. -/
structure PotionSnapshot where
  instanceId : Json
  potionId : Json
  slot : Int
  rarity : Json
  targetType : Json
  isQueued : Bool

/-- `PotionSnapshot.from_dict` and `to_dict`. -/
def PotionSnapshot.record : RecordType unknownFields PotionSnapshot :=
  recordType "PotionSnapshot" ["InstanceId", "PotionId", "Slot", "Rarity", "TargetType",
      "IsQueued"]
    (.field "InstanceId" .raw none <|
      .field "PotionId" .raw none <|
      .field "Slot" .int none <|
      .field "Rarity" .raw none <|
      .field "TargetType" .raw none <|
      .field "IsQueued" .bool none <|
      .nil)
    (fun r => (r.instanceId, r.potionId, r.slot, r.rarity, r.targetType, r.isQueued, ()))
    (fun (instanceId, potionId, slot, rarity, targetType, isQueued, _) =>
      ⟨instanceId, potionId, slot, rarity, targetType, isQueued⟩)
    (by decide +kernel) (by decide +kernel) (fun _ => rfl) (fun _ => rfl)

/-- An orb. -/
structure OrbSnapshot where
  instanceId : Json
  orbId : Json
  index : Int
  basePassiveValue : Json
  baseEvokeValue : Json

/-- `OrbSnapshot.from_dict` and `to_dict`. -/
def OrbSnapshot.record : RecordType unknownFields OrbSnapshot :=
  recordType "OrbSnapshot" ["InstanceId", "OrbId", "Index"]
    (.field "InstanceId" .raw none <|
      .field "OrbId" .raw none <|
      .field "Index" .int none <|
      .field "BasePassiveValue" .raw (some .null) <|
      .field "BaseEvokeValue" .raw (some .null) <|
      .nil)
    (fun r => (r.instanceId, r.orbId, r.index, r.basePassiveValue, r.baseEvokeValue, ()))
    (fun (instanceId, orbId, index, basePassiveValue, baseEvokeValue, _) =>
      ⟨instanceId, orbId, index, basePassiveValue, baseEvokeValue⟩)
    (by decide +kernel) (by decide +kernel) (fun _ => rfl) (fun _ => rfl)

/-- A move that is not in the enemy's table. -/
structure TransientMoveSnapshot where
  kind : PyStr
  followUpStateId : PyStr
  behaviorId : PyStr

/-- `TransientMoveSnapshot.from_dict` and `to_dict`. -/
def TransientMoveSnapshot.record : RecordType unknownFields TransientMoveSnapshot :=
  recordType "TransientMoveSnapshot" ["Kind", "FollowUpStateId", "BehaviorId"]
    (.field "Kind" .text none <|
      .field "FollowUpStateId" .text none <|
      .field "BehaviorId" .text none <|
      .nil)
    (fun r => (r.kind, r.followUpStateId, r.behaviorId, ()))
    (fun (kind, followUpStateId, behaviorId, _) =>
      ⟨kind, followUpStateId, behaviorId⟩)
    (by decide +kernel) (by decide +kernel) (fun _ => rfl) (fun _ => rfl)

/-- An enemy. -/
structure EnemySnapshot where
  instanceId : Json
  index : Int
  name : Json
  hp : Int
  maxHp : Int
  block : Int
  isAlive : Bool
  powers : List PowerSnapshot
  stateLog : List Json
  combatId : Json
  monsterId : Json
  slotName : Json
  intent : Json
  followUpStateId : Json
  transientMove : Option TransientMoveSnapshot

/-- `EnemySnapshot.from_dict` and `to_dict`. -/
def EnemySnapshot.record : RecordType unknownFields EnemySnapshot :=
  recordType "EnemySnapshot" ["InstanceId", "Index", "Name", "Hp", "MaxHp", "Block", "IsAlive",
      "Powers", "StateLog"]
    (.field "InstanceId" .raw none <|
      .field "Index" .int none <|
      .field "Name" .raw none <|
      .field "Hp" .int none <|
      .field "MaxHp" .int none <|
      .field "Block" .int none <|
      .field "IsAlive" .bool none <|
      .field "Powers" (.listOf PowerSnapshot.record.codec) none <|
      .field "StateLog" (.listOf .raw) none <|
      .field "CombatId" .raw (some .null) <|
      .field "MonsterId" .raw (some .null) <|
      .field "SlotName" .raw (some .null) <|
      .field "Intent" .raw (some .null) <|
      .field "FollowUpStateId" .raw (some .null) <|
      .field "TransientMove" TransientMoveSnapshot.record.orNone (some .null) <|
      .nil)
    (fun r => (r.instanceId, r.index, r.name, r.hp, r.maxHp, r.block, r.isAlive, r.powers,
      r.stateLog, r.combatId, r.monsterId, r.slotName, r.intent, r.followUpStateId,
      r.transientMove, ()))
    (fun (instanceId, index, name, hp, maxHp, block, isAlive, powers, stateLog, combatId,
      monsterId, slotName, intent, followUpStateId, transientMove, _) =>
      ⟨instanceId, index, name, hp, maxHp, block, isAlive, powers, stateLog, combatId,
        monsterId, slotName, intent, followUpStateId, transientMove⟩)
    (by decide +kernel) (by decide +kernel) (fun _ => rfl) (fun _ => rfl)

/-- A pet. -/
structure CreatureSnapshot where
  instanceId : Json
  kind : Json
  name : Json
  hp : Int
  maxHp : Int
  block : Int
  isAlive : Bool
  powers : List PowerSnapshot
  stateLog : List Json
  ownerInstanceId : Json
  combatId : Json
  monsterId : Json
  slotName : Json
  intent : Json

/-- `CreatureSnapshot.from_dict` and `to_dict`. -/
def CreatureSnapshot.record : RecordType unknownFields CreatureSnapshot :=
  recordType "CreatureSnapshot" ["InstanceId", "Kind", "Name", "Hp", "MaxHp", "Block",
      "IsAlive", "Powers", "StateLog"]
    (.field "InstanceId" .raw none <|
      .field "Kind" .raw none <|
      .field "Name" .raw none <|
      .field "Hp" .int none <|
      .field "MaxHp" .int none <|
      .field "Block" .int none <|
      .field "IsAlive" .bool none <|
      .field "Powers" (.listOf PowerSnapshot.record.codec) none <|
      .field "StateLog" (.listOf .raw) none <|
      .field "OwnerInstanceId" .raw (some .null) <|
      .field "CombatId" .raw (some .null) <|
      .field "MonsterId" .raw (some .null) <|
      .field "SlotName" .raw (some .null) <|
      .field "Intent" .raw (some .null) <|
      .nil)
    (fun r => (r.instanceId, r.kind, r.name, r.hp, r.maxHp, r.block, r.isAlive, r.powers,
      r.stateLog, r.ownerInstanceId, r.combatId, r.monsterId, r.slotName, r.intent, ()))
    (fun (instanceId, kind, name, hp, maxHp, block, isAlive, powers, stateLog, ownerInstanceId,
      combatId, monsterId, slotName, intent, _) =>
      ⟨instanceId, kind, name, hp, maxHp, block, isAlive, powers, stateLog, ownerInstanceId,
        combatId, monsterId, slotName, intent⟩)
    (by decide +kernel) (by decide +kernel) (fun _ => rfl) (fun _ => rfl)

/-- The player, with everything that is his. -/
structure PlayerSnapshot where
  instanceId : Json
  creatureInstanceId : Json
  netId : Int
  hp : Int
  maxHp : Int
  block : Int
  energy : Int
  maxEnergy : Int
  stars : Int
  gold : Int
  orbSlotCapacity : Int
  cardInstances : List CardInstanceSnapshot
  relics : List RelicSnapshot
  powers : List PowerSnapshot
  potions : List (Option PotionSnapshot)
  orbs : List OrbSnapshot
  pets : List CreatureSnapshot

/-- `PlayerSnapshot.from_dict` and `to_dict`. -/
def PlayerSnapshot.record : RecordType unknownFields PlayerSnapshot :=
  recordType "PlayerSnapshot" ["InstanceId", "CreatureInstanceId", "NetId", "Hp", "MaxHp",
      "Block", "Energy", "MaxEnergy", "Stars", "Gold", "OrbSlotCapacity", "CardInstances",
      "Relics", "Powers", "Potions", "Orbs", "Pets"]
    (.field "InstanceId" .raw none <|
      .field "CreatureInstanceId" .raw none <|
      .field "NetId" .int none <|
      .field "Hp" .int none <|
      .field "MaxHp" .int none <|
      .field "Block" .int none <|
      .field "Energy" .int none <|
      .field "MaxEnergy" .int none <|
      .field "Stars" .int none <|
      .field "Gold" .int none <|
      .field "OrbSlotCapacity" .int none <|
      .field "CardInstances" (.listOf CardInstanceSnapshot.record.codec) none <|
      .field "Relics" (.listOf RelicSnapshot.record.codec) none <|
      .field "Powers" (.listOf PowerSnapshot.record.codec) none <|
      .field "Potions" (.listOf PotionSnapshot.record.orNone) none <|
      .field "Orbs" (.listOf OrbSnapshot.record.codec) none <|
      .field "Pets" (.listOf CreatureSnapshot.record.codec) none <|
      .nil)
    (fun r => (r.instanceId, r.creatureInstanceId, r.netId, r.hp, r.maxHp, r.block, r.energy,
      r.maxEnergy, r.stars, r.gold, r.orbSlotCapacity, r.cardInstances, r.relics, r.powers,
      r.potions, r.orbs, r.pets, ()))
    (fun (instanceId, creatureInstanceId, netId, hp, maxHp, block, energy, maxEnergy, stars,
      gold, orbSlotCapacity, cardInstances, relics, powers, potions, orbs, pets, _) =>
      ⟨instanceId, creatureInstanceId, netId, hp, maxHp, block, energy, maxEnergy, stars,
        gold, orbSlotCapacity, cardInstances, relics, powers, potions, orbs, pets⟩)
    (by decide +kernel) (by decide +kernel) (fun _ => rfl) (fun _ => rfl)

/-- A stream of random numbers. -/
structure SerializableRngSnapshot where
  counter : Int
  state0 : Int
  state1 : Int
  state2 : Int
  state3 : Int

/-- `SerializableRngSnapshot.from_dict` and `to_dict`. -/
def SerializableRngSnapshot.record : RecordType unknownFields SerializableRngSnapshot :=
  recordType "SerializableRngSnapshot" ["Counter", "State0", "State1", "State2", "State3"]
    (.field "Counter" .int none <|
      .field "State0" .int none <|
      .field "State1" .int none <|
      .field "State2" .int none <|
      .field "State3" .int none <|
      .nil)
    (fun r => (r.counter, r.state0, r.state1, r.state2, r.state3, ()))
    (fun (counter, state0, state1, state2, state3, _) =>
      ⟨counter, state0, state1, state2, state3⟩)
    (by decide +kernel) (by decide +kernel) (fun _ => rfl) (fun _ => rfl)

/-- The streams of a player, by their purpose. -/
structure PlayerRngSnapshot where
  ownerInstanceId : Json
  purposes : Dict PyStr SerializableRngSnapshot

/-- `PlayerRngSnapshot.from_dict` and `to_dict`. -/
def PlayerRngSnapshot.record : RecordType unknownFields PlayerRngSnapshot :=
  recordType "PlayerRngSnapshot" ["OwnerInstanceId", "Purposes"]
    (.field "OwnerInstanceId" .raw none <|
      .field "Purposes" (.mapOf SerializableRngSnapshot.record.codec) none <|
      .nil)
    (fun r => (r.ownerInstanceId, r.purposes, ()))
    (fun (ownerInstanceId, purposes, _) =>
      ⟨ownerInstanceId, purposes⟩)
    (by decide +kernel) (by decide +kernel) (fun _ => rfl) (fun _ => rfl)

/-- The stream of a monster. -/
structure MonsterRngSnapshot where
  ownerInstanceId : Json
  rng : SerializableRngSnapshot

/-- `MonsterRngSnapshot.from_dict` and `to_dict`. -/
def MonsterRngSnapshot.record : RecordType unknownFields MonsterRngSnapshot :=
  recordType "MonsterRngSnapshot" ["OwnerInstanceId", "Rng"]
    (.field "OwnerInstanceId" .raw none <|
      .field "Rng" SerializableRngSnapshot.record.codec none <|
      .nil)
    (fun r => (r.ownerInstanceId, r.rng, ()))
    (fun (ownerInstanceId, rng, _) =>
      ⟨ownerInstanceId, rng⟩)
    (by decide +kernel) (by decide +kernel) (fun _ => rfl) (fun _ => rfl)

/-- All streams of a combat. -/
structure RngSnapshotSet where
  runRng : Dict PyStr SerializableRngSnapshot
  playerRng : List PlayerRngSnapshot
  monsterRng : List MonsterRngSnapshot

/-- `RngSnapshotSet.from_dict` and `to_dict`. -/
def RngSnapshotSet.record : RecordType unknownFields RngSnapshotSet :=
  recordType "RngSnapshotSet" ["RunRng", "PlayerRng", "MonsterRng"]
    (.field "RunRng" (.mapOf SerializableRngSnapshot.record.codec) none <|
      .field "PlayerRng" (.listOf PlayerRngSnapshot.record.codec) none <|
      .field "MonsterRng" (.listOf MonsterRngSnapshot.record.codec) none <|
      .nil)
    (fun r => (r.runRng, r.playerRng, r.monsterRng, ()))
    (fun (runRng, playerRng, monsterRng, _) =>
      ⟨runRng, playerRng, monsterRng⟩)
    (by decide +kernel) (by decide +kernel) (fun _ => rfl) (fun _ => rfl)

/-- An event of the combat. -/
structure CombatHistoryEntrySnapshot where
  entryType : Json
  roundNumber : Int
  currentSide : Json
  playerTurnNumbers : Dict PyStr Json
  fields : Json
  actorInstanceId : Json

/-- `CombatHistoryEntrySnapshot.from_dict` and `to_dict`. -/
def CombatHistoryEntrySnapshot.record : RecordType unknownFields CombatHistoryEntrySnapshot :=
  recordType "CombatHistoryEntrySnapshot" ["EntryType", "RoundNumber", "CurrentSide",
      "PlayerTurnNumbers", "Fields"]
    (.field "EntryType" .raw none <|
      .field "RoundNumber" .int none <|
      .field "CurrentSide" .raw none <|
      .field "PlayerTurnNumbers" dict none <|
      .field "Fields" .raw none <|
      .field "ActorInstanceId" .raw (some .null) <|
      .nil)
    (fun r => (r.entryType, r.roundNumber, r.currentSide, r.playerTurnNumbers, r.fields,
      r.actorInstanceId, ()))
    (fun (entryType, roundNumber, currentSide, playerTurnNumbers, fields, actorInstanceId, _)
      =>
      ⟨entryType, roundNumber, currentSide, playerTurnNumbers, fields, actorInstanceId⟩)
    (by decide +kernel) (by decide +kernel) (fun _ => rfl) (fun _ => rfl)

/-- A card that was found missing. -/
structure InferredCardRemovalSnapshot where
  stepIndex : Int
  cardInstanceId : PyStr
  cardId : PyStr
  fromPile : PyStr
  reason : PyStr

/-- `InferredCardRemovalSnapshot.from_dict` and `to_dict`. -/
def InferredCardRemovalSnapshot.record : RecordType unknownFields InferredCardRemovalSnapshot :=
  recordType "InferredCardRemovalSnapshot" ["StepIndex", "CardInstanceId", "CardId", "FromPile",
      "Reason"]
    (.field "StepIndex" .int none <|
      .field "CardInstanceId" .text none <|
      .field "CardId" .text none <|
      .field "FromPile" .text none <|
      .field "Reason" .text none <|
      .nil)
    (fun r => (r.stepIndex, r.cardInstanceId, r.cardId, r.fromPile, r.reason, ()))
    (fun (stepIndex, cardInstanceId, cardId, fromPile, reason, _) =>
      ⟨stepIndex, cardInstanceId, cardId, fromPile, reason⟩)
    (by decide +kernel) (by decide +kernel) (fun _ => rfl) (fun _ => rfl)

/-- The events of the combat. -/
structure CombatHistorySnapshot where
  entries : List CombatHistoryEntrySnapshot
  inferredCardRemovals : List InferredCardRemovalSnapshot

/-- `CombatHistorySnapshot.from_dict` and `to_dict`. -/
def CombatHistorySnapshot.record : RecordType unknownFields CombatHistorySnapshot :=
  recordType "CombatHistorySnapshot" ["Entries"]
    (.field "Entries" (.listOf CombatHistoryEntrySnapshot.record.codec) none <|
      .field "InferredCardRemovals" (.listOf InferredCardRemovalSnapshot.record.codec)
        (some (.list [])) <|
      .nil)
    (fun r => (r.entries, r.inferredCardRemovals, ()))
    (fun (entries, inferredCardRemovals, _) =>
      ⟨entries, inferredCardRemovals⟩)
    (by decide +kernel) (by decide +kernel) (fun _ => rfl) (fun _ => rfl)

/-- What a snapshot says of itself. -/
structure SnapshotMetadata where
  schemaVersion : SchemaVersion
  snapshotId : Json
  stepIndex : Int
  captureBoundary : CaptureBoundary
  completeness : Completeness
  unsupportedFields : List UnsupportedSnapshotField
  capturedAtUtc : Json
  combatSessionId : Json
  continuationStepIndex : Json
  emulatorCommit : Json
  unknownFields : Fields

/-- The enumerations are checked first, in this order. -/
def checkMetadata (value : Json) : Except PyException Unit := do
  require value ["SchemaVersion", "SnapshotId", "StepIndex", "CaptureBoundary", "Completeness",
    "UnsupportedFields", "CapturedAtUtc"] "SnapshotMetadata"
  let _ ← decodeSchemaVersion (← pyItem value "SchemaVersion")
  let _ ← decodeCompleteness (← pyItem value "Completeness")
  let _ ← decodeCaptureBoundary (← pyItem value "CaptureBoundary")
  pure ()

/-- The metadata's fields, in the order in which they are read. -/
def SnapshotMetadata.schema : Schema Wire.unknownFields (SchemaVersion × Json × Int ×
    CaptureBoundary × Completeness × List UnsupportedSnapshotField × Json × Json × Json × Json ×
    Unit) :=
  .field "SchemaVersion" (.scalar decodeSchemaVersion (fun v => .str (.text v.text))
      decodeSchemaVersion_text fun _ => rfl) none <|
    .field "SnapshotId" .raw none <|
    .field "StepIndex" .int none <|
    .field "CaptureBoundary" (.scalar decodeCaptureBoundary (fun v => .str (.text v.text))
      decodeCaptureBoundary_text fun _ => rfl) none <|
    .field "Completeness" (.scalar decodeCompleteness (fun v => .str (.text v.text))
      decodeCompleteness_text fun _ => rfl) none <|
    .field "UnsupportedFields" (.listOf UnsupportedSnapshotField.record.codec) none <|
    .field "CapturedAtUtc" .raw none <|
    .field "CombatSessionId" .raw (some .null) <|
    .field "ContinuationStepIndex" .raw (some .null) <|
    .field "EmulatorCommit" .raw (some .null) <|
    .nil

/-- Metadata that were written pass their check. -/
theorem checkMetadata_encodeMembers (b) :
    checkMetadata (.obj (SnapshotMetadata.schema.encodeMembers b)) = .ok () := by
  rcases b with ⟨version, snapshotId, step, boundary, completeness, rest⟩
  unfold checkMetadata
  rw [require_encodeMembers _ _ (by decide +kernel)]
  change (do
    let _ ← decodeSchemaVersion (.str (.text version.text))
    let _ ← decodeCompleteness (.str (.text completeness.text))
    let _ ← decodeCaptureBoundary (.str (.text boundary.text))
    pure ()) = _
  rw [decodeSchemaVersion_text, decodeCompleteness_text, decodeCaptureBoundary_text]
  rfl

/-- Metadata are checked before any field is read. -/
def SnapshotMetadata.record : RecordType Wire.unknownFields SnapshotMetadata where
  Parts := _
  check := checkMetadata
  schema := SnapshotMetadata.schema
  parts := fun r => (r.schemaVersion, r.snapshotId, r.stepIndex, r.captureBoundary,
    r.completeness, r.unsupportedFields, r.capturedAtUtc, r.combatSessionId,
    r.continuationStepIndex, r.emulatorCommit, ())
  build := fun (schemaVersion, snapshotId, stepIndex, captureBoundary, completeness,
      unsupportedFields, capturedAtUtc, combatSessionId, continuationStepIndex, emulatorCommit, _)
      unknown =>
    ⟨schemaVersion, snapshotId, stepIndex, captureBoundary, completeness, unsupportedFields,
      capturedAtUtc, combatSessionId, continuationStepIndex, emulatorCommit, unknown⟩
  unknown := some SnapshotMetadata.unknownFields
  check_encode := checkMetadata_encodeMembers
  wellFormed := by decide +kernel
  build_parts := fun r h => by rw [← h _ rfl]
  parts_build := fun _ _ => rfl

/-- The state of a combat. -/
structure CombatStateSnapshot where
  metadata : SnapshotMetadata
  player : PlayerSnapshot
  enemies : List EnemySnapshot
  turnNumber : Int
  roundNumber : Int
  currentSide : Json
  phase : Json
  rng : RngSnapshotSet
  combatHistory : CombatHistorySnapshot
  isTerminal : Bool
  outcome : Json
  pendingChoice : Json
  unknownFields : Fields

/-- The snapshot's fields, in the order in which they are read. -/
def CombatStateSnapshot.schema : Schema Wire.unknownFields (SnapshotMetadata × PlayerSnapshot ×
    List EnemySnapshot × Int × Int × Json × Json × RngSnapshotSet × CombatHistorySnapshot × Bool ×
    Json × Json × Unit) :=
  .field "Metadata" SnapshotMetadata.record.codec none <|
    .field "Player" PlayerSnapshot.record.codec none <|
    .field "Enemies" (.listOf EnemySnapshot.record.codec) none <|
    .field "TurnNumber" .int none <|
    .field "RoundNumber" .int none <|
    .field "CurrentSide" .raw none <|
    .field "Phase" .raw none <|
    .field "Rng" RngSnapshotSet.record.codec none <|
    .field "CombatHistory" CombatHistorySnapshot.record.codec none <|
    .field "IsTerminal" .bool none <|
    .field "Outcome" .raw none <|
    .field "PendingChoice" .raw (some .null) <|
    .nil

/-- `CombatStateSnapshot.from_dict` and `to_dict`. -/
def CombatStateSnapshot.record : RecordType Wire.unknownFields CombatStateSnapshot where
  Parts := _
  check := fun value => require value ["Metadata", "Player", "Enemies", "TurnNumber",
    "RoundNumber", "CurrentSide", "Phase", "Rng", "CombatHistory", "IsTerminal", "Outcome"]
    "CombatStateSnapshot"
  schema := CombatStateSnapshot.schema
  parts := fun r => (r.metadata, r.player, r.enemies, r.turnNumber, r.roundNumber, r.currentSide,
    r.phase, r.rng, r.combatHistory, r.isTerminal, r.outcome, r.pendingChoice, ())
  build := fun (metadata, player, enemies, turnNumber, roundNumber, currentSide, phase, rng,
      combatHistory, isTerminal, outcome, pendingChoice, _) unknown =>
    ⟨metadata, player, enemies, turnNumber, roundNumber, currentSide, phase, rng, combatHistory,
      isTerminal, outcome, pendingChoice, unknown⟩
  unknown := some CombatStateSnapshot.unknownFields
  check_encode := fun b => require_encodeMembers _ b (by decide +kernel) _
  wellFormed := by decide +kernel
  build_parts := fun r h => by rw [← h _ rfl]
  parts_build := fun _ _ => rfl

/-- `CombatStateSnapshot.from_dict`. -/
def fromDict (value : Json) : Except PyException CombatStateSnapshot :=
  CombatStateSnapshot.record.codec.decode value

/-- `_snapshot_plain_dict`. -/
def snapshotPlainDict (snapshot : CombatStateSnapshot) : Json :=
  CombatStateSnapshot.record.codec.plain snapshot

end Records

/-!
### Records without unknown members

A snapshot is flattened exactly where no record keeps a member it has no field for, so
each record says what it keeps.
-/

section Known

@[simp]
theorem allKnown_dict : dict.AllKnown := fun _ => trivial

@[simp]
theorem UnsupportedSnapshotField.known : UnsupportedSnapshotField.record.codec.AllKnown :=
  RecordType.allKnown rfl (by simp [UnsupportedSnapshotField.record, recordType])

@[simp]
theorem LocalCostModifierSnapshot.known : LocalCostModifierSnapshot.record.codec.AllKnown :=
  RecordType.allKnown rfl (by simp [LocalCostModifierSnapshot.record, recordType])

@[simp]
theorem TemporaryStarCostSnapshot.known : TemporaryStarCostSnapshot.record.codec.AllKnown :=
  RecordType.allKnown rfl (by simp [TemporaryStarCostSnapshot.record, recordType])

@[simp]
theorem EnchantmentSnapshot.known : EnchantmentSnapshot.record.codec.AllKnown :=
  RecordType.allKnown rfl (by simp [EnchantmentSnapshot.record, recordType])

@[simp]
theorem AfflictionSnapshot.known : AfflictionSnapshot.record.codec.AllKnown :=
  RecordType.allKnown rfl (by simp [AfflictionSnapshot.record, recordType])

@[simp]
theorem CardInstanceSnapshot.known : CardInstanceSnapshot.record.codec.AllKnown :=
  RecordType.allKnown rfl (by
    have henchantment : (EnchantmentSnapshot.record.unlessFalsy (List.cons_ne_nil _ _)).AllKnown :=
      RecordType.allKnown_unlessFalsy EnchantmentSnapshot.known
    have haffliction : (AfflictionSnapshot.record.unlessFalsy (List.cons_ne_nil _ _)).AllKnown :=
      RecordType.allKnown_unlessFalsy AfflictionSnapshot.known
    simp [CardInstanceSnapshot.record, recordType, henchantment, haffliction])

@[simp]
theorem RelicSnapshot.known : RelicSnapshot.record.codec.AllKnown :=
  RecordType.allKnown rfl (by simp [RelicSnapshot.record, recordType])

@[simp]
theorem PowerSnapshot.known : PowerSnapshot.record.codec.AllKnown :=
  RecordType.allKnown rfl (by simp [PowerSnapshot.record, recordType])

@[simp]
theorem PotionSnapshot.known : PotionSnapshot.record.codec.AllKnown :=
  RecordType.allKnown rfl (by simp [PotionSnapshot.record, recordType])

@[simp]
theorem OrbSnapshot.known : OrbSnapshot.record.codec.AllKnown :=
  RecordType.allKnown rfl (by simp [OrbSnapshot.record, recordType])

@[simp]
theorem TransientMoveSnapshot.known : TransientMoveSnapshot.record.codec.AllKnown :=
  RecordType.allKnown rfl (by simp [TransientMoveSnapshot.record, recordType])

@[simp]
theorem EnemySnapshot.known : EnemySnapshot.record.codec.AllKnown :=
  RecordType.allKnown rfl (by simp [EnemySnapshot.record, recordType])

@[simp]
theorem CreatureSnapshot.known : CreatureSnapshot.record.codec.AllKnown :=
  RecordType.allKnown rfl (by simp [CreatureSnapshot.record, recordType])

@[simp]
theorem PlayerSnapshot.known : PlayerSnapshot.record.codec.AllKnown :=
  RecordType.allKnown rfl (by simp [PlayerSnapshot.record, recordType])

@[simp]
theorem SerializableRngSnapshot.known : SerializableRngSnapshot.record.codec.AllKnown :=
  RecordType.allKnown rfl (by simp [SerializableRngSnapshot.record, recordType])

@[simp]
theorem PlayerRngSnapshot.known : PlayerRngSnapshot.record.codec.AllKnown :=
  RecordType.allKnown rfl (by simp [PlayerRngSnapshot.record, recordType])

@[simp]
theorem MonsterRngSnapshot.known : MonsterRngSnapshot.record.codec.AllKnown :=
  RecordType.allKnown rfl (by simp [MonsterRngSnapshot.record, recordType])

@[simp]
theorem RngSnapshotSet.known : RngSnapshotSet.record.codec.AllKnown :=
  RecordType.allKnown rfl (by simp [RngSnapshotSet.record, recordType])

@[simp]
theorem CombatHistoryEntrySnapshot.known : CombatHistoryEntrySnapshot.record.codec.AllKnown :=
  RecordType.allKnown rfl (by simp [CombatHistoryEntrySnapshot.record, recordType])

@[simp]
theorem InferredCardRemovalSnapshot.known : InferredCardRemovalSnapshot.record.codec.AllKnown :=
  RecordType.allKnown rfl (by simp [InferredCardRemovalSnapshot.record, recordType])

@[simp]
theorem CombatHistorySnapshot.known : CombatHistorySnapshot.record.codec.AllKnown :=
  RecordType.allKnown rfl (by simp [CombatHistorySnapshot.record, recordType])

/-- Nothing unknown is kept where the two records that may keep something do not. -/
theorem known_iff (s : CombatStateSnapshot) : CombatStateSnapshot.record.codec.Known s ↔
    s.unknownFields = [] ∧ s.metadata.unknownFields = [] := by
  constructor
  · rintro ⟨hkept, ⟨hmetadata, -⟩, -⟩
    exact ⟨hkept _ rfl, hmetadata _ rfl⟩
  · rintro ⟨hkept, hmetadata⟩
    refine ⟨fun f hf => ?_, ⟨fun f hf => ?_, ?_⟩, ?_⟩
    · cases hf
      exact hkept
    · cases hf
      exact hmetadata
    · exact ⟨trivial, trivial, trivial, trivial, trivial,
        Codec.allKnown_listOf UnsupportedSnapshotField.known _, trivial, trivial, trivial, trivial,
        trivial⟩
    · exact ⟨PlayerSnapshot.known _, Codec.allKnown_listOf EnemySnapshot.known _, trivial, trivial,
        trivial, trivial, RngSnapshotSet.known _, CombatHistorySnapshot.known _, trivial, trivial,
        trivial, trivial⟩

end Known

/-!
### A hypothesis in a snapshot

The function of the source works on the flat form, and leaves out every member with the
name under which unknown members are kept. What it does to a snapshot that nowhere uses
the name is a change of the stream and of the draw pile; the cards are followed one by
one.
-/

section Substitution

/-- `value[key]`, changed in place. -/
def changeItem (key : String) (change : Json → Except PyException Json) (value : Json) :
    Except PyException Json := do
  let v ← pyItem value key
  let w ← change v
  pure (.obj (Dict.setL (.text key) w ((Json.fields? value).getD [])))

/-- `value[key] = item`. -/
def setItem (key : String) (item value : Json) : Json :=
  .obj (Dict.setL (.text key) item ((Json.fields? value).getD []))

/-- `_rng_to_dict`. -/
def rngToDict (rng : SerializableRngSnapshot) : Json :=
  .obj [member "Counter" (.int rng.counter), member "State0" (.int rng.state0),
    member "State1" (.int rng.state1), member "State2" (.int rng.state2),
    member "State3" (.int rng.state3)]

/-- `{**card, "Zone": "draw_pile", "PileIndex": index}`, by the id of the card. -/
def replacementOf (card : Json) (index : Nat) : Except PyException (PyStr × Json) := do
  let instanceId ← pyItem card "InstanceId"
  pure (Api.pyStr instanceId, setItem "PileIndex" (.int index)
    (setItem "Zone" (.str (.text "draw_pile")) card))

/-- A card, or what replaces it. -/
def replaceCard (replacementById : Dict PyStr Json) (card : Json) : Except PyException Json := do
  let instanceId ← pyItem card "InstanceId"
  pure ((replacementById.get? (Api.pyStr instanceId)).getD card)

/-- The cards, those that have a replacement replaced. -/
def replaceCards (replacementById : Dict PyStr Json) (cards : Json) : Except PyException Json := do
  let cards ← (← Api.iterate cards).mapM (replaceCard replacementById)
  pure (.list cards)

/-- `derive_substituted_snapshot`, with what `_draw_pile_instances_for_hypothesis` gives:
    the flat forms of the cards in their order. -/
def deriveSubstitutedSnapshotFrom (rootSnapshot : CombatStateSnapshot)
    (rng : SerializableRngSnapshot) (orderedDrawPile : Except PyException (List Json)) :
    Except PyException CombatStateSnapshot := do
  let payload := snapshotPlainDict rootSnapshot
  let runRng ← pyItem (← pyItem payload "Rng") "RunRng"
  let found ← containsKey runRng "Shuffle"
  if !found then
    .error (.valueError "root_snapshot.Rng.RunRng is missing required \"Shuffle\" stream")
  else do
    let payload ← changeItem "Rng"
      (changeItem "RunRng" fun runRng => .ok (setItem "Shuffle" (rngToDict rng) runRng)) payload
    let orderedDrawPile ← orderedDrawPile
    let replacements ← orderedDrawPile.zipIdx.mapM fun entry => replacementOf entry.1 entry.2
    let payload ← changeItem "Player"
      (changeItem "CardInstances" (replaceCards (Dict.empty.setAll replacements))) payload
    fromDict payload

/-- `derive_substituted_snapshot`, from the cards on that the hypothesis orders. -/
def deriveSubstitutedSnapshot (rootSnapshot : CombatStateSnapshot) (rng : SerializableRngSnapshot)
    (orderedDrawPile : List CardInstanceSnapshot) : Except PyException CombatStateSnapshot :=
  deriveSubstitutedSnapshotFrom rootSnapshot rng
    (.ok (orderedDrawPile.map CardInstanceSnapshot.record.codec.asdict))

/-- The cards of an order, each at its place in the draw pile and under its id. -/
def placedEntries (orderedDrawPile : List CardInstanceSnapshot) (n : Nat) :
    List (PyStr × CardInstanceSnapshot) :=
  (orderedDrawPile.zipIdx n).map fun entry => (Api.pyStr entry.1.instanceId,
    { entry.1 with zone := .str (.text "draw_pile"), pileIndex := some entry.2 })

/-- The draw pile's cards by their id, each at its place. -/
def placedById (orderedDrawPile : List CardInstanceSnapshot) : Dict PyStr CardInstanceSnapshot :=
  Dict.empty.setAll (placedEntries orderedDrawPile 0)

/-- What a snapshot becomes: the stream that shuffles and the cards of the order are
    replaced, and nothing else. -/
def substituted (rootSnapshot : CombatStateSnapshot) (rng : SerializableRngSnapshot)
    (orderedDrawPile : List CardInstanceSnapshot) : CombatStateSnapshot :=
  { rootSnapshot with
    rng := { rootSnapshot.rng with
      runRng := rootSnapshot.rng.runRng.set (.text "Shuffle") rng }
    player := { rootSnapshot.player with
      cardInstances := rootSnapshot.player.cardInstances.map fun card =>
        ((placedById orderedDrawPile).get? (Api.pyStr card.instanceId)).getD card } }

variable {root : CombatStateSnapshot}

theorem changeItem_ok {key : String} (change : Json → Except PyException Json) {value v w : Json}
    (hitem : pyItem value key = .ok v) (hchange : change v = .ok w) :
    changeItem key change value = .ok (setItem key w value) := by
  rw [changeItem, hitem]
  change (do
    let w ← change v
    pure (setItem key w value)) = _
  rw [hchange]
  rfl

/-- The streams of a snapshot with the one that shuffles replaced. -/
theorem setItem_shuffle (runRng : Dict PyStr SerializableRngSnapshot)
    (rng : SerializableRngSnapshot) :
    setItem "Shuffle" (rngToDict rng)
        ((Codec.mapOf SerializableRngSnapshot.record.codec).encode runRng) =
      (Codec.mapOf SerializableRngSnapshot.record.codec).encode
        (runRng.set (.text "Shuffle") rng) :=
  congrArg Json.obj
    (Dict.setL_map SerializableRngSnapshot.record.codec.encode _ rng runRng.entries)

/-- The replacements are the cards of the order, each at its place, by their ids. -/
theorem replacements_ok (orderedDrawPile : List CardInstanceSnapshot) (n : Nat) :
    ((orderedDrawPile.map CardInstanceSnapshot.record.codec.asdict).zipIdx n).mapM
        (fun entry => replacementOf entry.1 entry.2) =
      .ok ((placedEntries orderedDrawPile n).map fun entry =>
        (entry.1, CardInstanceSnapshot.record.codec.encode entry.2)) := by
  induction orderedDrawPile generalizing n with
  | nil => rfl
  | cons card rest ih =>
      have hcard : replacementOf (CardInstanceSnapshot.record.codec.asdict card) n =
          .ok (Api.pyStr card.instanceId, CardInstanceSnapshot.record.codec.encode
            { card with zone := .str (.text "draw_pile"), pileIndex := some n }) := rfl
      rw [List.map_cons, List.zipIdx_cons, List.mapM_cons, hcard, ih]
      rfl

/-- A snapshot with no cards. -/
def withoutCards (root : CombatStateSnapshot) : CombatStateSnapshot :=
  { root with player := { root.player with cardInstances := [] } }

/-- A card without the name in it, or one whose id is a text and in the order. The flat
    form of the second is not what it was, but it is replaced. -/
def Kept (orderedDrawPile : List CardInstanceSnapshot) (card : CardInstanceSnapshot) : Prop :=
  (CardInstanceSnapshot.record.codec.encode card).lacksKeys (isNamed unknownFields) = true ∨
    ∃ text, card.instanceId = .str text ∧
      text ∈ orderedDrawPile.map fun ordered => Api.pyStr ordered.instanceId

/-- A card of the draw pile is replaced by the one at its place, and every other card stays. -/
theorem replaceCard_ok {orderedDrawPile : List CardInstanceSnapshot} {card : CardInstanceSnapshot}
    (hkept : Kept orderedDrawPile card) :
    replaceCard (Dict.empty.setAll ((placedEntries orderedDrawPile 0).map fun entry =>
        (entry.1, CardInstanceSnapshot.record.codec.encode entry.2)))
        ((CardInstanceSnapshot.record.codec.encode card).dropKeys (isNamed unknownFields)) =
      .ok (CardInstanceSnapshot.record.codec.encode (((placedById orderedDrawPile).get?
        (Api.pyStr card.instanceId)).getD card)) := by
  -- The card is looked up by its id, among the encodings of the placed cards.
  have hget := Dict.get?_setAll_map CardInstanceSnapshot.record.codec.encode
    (placedEntries orderedDrawPile 0) (Api.pyStr card.instanceId) Dict.empty Dict.empty
    fun _ => rfl
  -- A card without the name is unchanged by dropping it; any other one is replaced.
  rcases hkept with hlacks | ⟨text, hid, hmem⟩
  · have hitem : pyItem (CardInstanceSnapshot.record.codec.encode card) "InstanceId" =
        .ok card.instanceId := rfl
    rw [Json.dropKeys_of_lacks _ _ hlacks, replaceCard, hitem, Except.ok_bind, hget,
      Option.getD_map]
    rfl
  · have hitem : pyItem ((CardInstanceSnapshot.record.codec.encode card).dropKeys
        (isNamed unknownFields)) "InstanceId" =
        .ok (card.instanceId.dropKeys (isNamed unknownFields)) := rfl
    -- Its id is that of a card of the draw pile, so there is a replacement.
    have hkey : text ∈ (placedEntries orderedDrawPile 0).map Prod.fst := by
      rcases List.mem_map.mp hmem with ⟨ordered, hordered, rfl⟩
      rcases List.mem_iff_getElem?.mp hordered with ⟨index, hindex⟩
      refine List.mem_map.mpr ⟨_, List.mem_map.mpr ⟨(ordered, index), ?_, rfl⟩, rfl⟩
      exact List.mem_zipIdx_iff_getElem?.mpr hindex
    rcases Dict.exists_get?_setAll (placedEntries orderedDrawPile 0) text hkey Dict.empty with
      ⟨placed, hplaced⟩
    rw [replaceCard, hitem, Except.ok_bind]
    rw [hid] at hget ⊢
    rw [show Api.pyStr (Json.str text) = text from rfl] at hget ⊢
    have hfound : (placedById orderedDrawPile).get? text = some placed := hplaced
    rw [show (Json.str text).dropKeys (isNamed unknownFields) = .str text from rfl,
      show Api.pyStr (Json.str text) = text from rfl, hget, hplaced, hfound]
    rfl

/-- The same of a list of cards. -/
theorem replaceCards_ok {orderedDrawPile cards : List CardInstanceSnapshot}
    (hkept : ∀ card ∈ cards, Kept orderedDrawPile card) :
    replaceCards (Dict.empty.setAll ((placedEntries orderedDrawPile 0).map fun entry =>
        (entry.1, CardInstanceSnapshot.record.codec.encode entry.2)))
        (((Codec.listOf CardInstanceSnapshot.record.codec).encode cards).dropKeys
          (isNamed unknownFields)) =
      .ok ((Codec.listOf CardInstanceSnapshot.record.codec).encode (cards.map fun card =>
        ((placedById orderedDrawPile).get? (Api.pyStr card.instanceId)).getD card)) := by
  have hmapM : (Json.dropKeysList (isNamed unknownFields)
        (cards.map CardInstanceSnapshot.record.codec.encode)).mapM
      (replaceCard (Dict.empty.setAll ((placedEntries orderedDrawPile 0).map fun entry =>
        (entry.1, CardInstanceSnapshot.record.codec.encode entry.2)))) =
      .ok ((cards.map fun card => ((placedById orderedDrawPile).get?
        (Api.pyStr card.instanceId)).getD card).map CardInstanceSnapshot.record.codec.encode) := by
    induction cards with
    | nil => rfl
    | cons card rest ih =>
        rw [List.map_cons, Json.dropKeysList, List.mapM_cons,
          replaceCard_ok (hkept card List.mem_cons_self),
          ih fun other hother => hkept other (List.mem_cons_of_mem _ hother)]
        rfl
  unfold replaceCards
  change ((do
    let cards ← (Json.dropKeysList (isNamed unknownFields)
      (cards.map CardInstanceSnapshot.record.codec.encode)).mapM _
    pure (Json.list cards)) : Except PyException Json) = _
  rw [hmapM]
  rfl

/-- A record with an item of its own put in, flattened. -/
theorem dropKeys_setItem {key : String} (hkey : isNamed unknownFields (.text key) = false)
    (item : Json) (fields : Fields) :
    (setItem key item (.obj fields)).dropKeys (isNamed unknownFields) =
      setItem key (item.dropKeys (isNamed unknownFields))
        ((Json.obj fields).dropKeys (isNamed unknownFields)) :=
  congrArg Json.obj (Json.dropKeysFields_setL _ hkey item fields)

/-- Where the name is nowhere but in cards, only the cards are changed in the flat form. -/
theorem snapshotPlainDict_eq
    (hrest : (CombatStateSnapshot.record.codec.encode (withoutCards root)).lacksKeys
      (isNamed unknownFields) = true) :
    snapshotPlainDict root = setItem "Player" (setItem "CardInstances"
        (((Codec.listOf CardInstanceSnapshot.record.codec).encode
          root.player.cardInstances).dropKeys (isNamed unknownFields))
        (PlayerSnapshot.record.codec.encode (withoutCards root).player))
      (CombatStateSnapshot.record.codec.encode (withoutCards root)) := by
  have hplayer : (PlayerSnapshot.record.codec.encode (withoutCards root).player).lacksKeys
      (isNamed unknownFields) = true :=
    ((Json.lacksKeysFields_iff _ _).mp hrest (member "Player"
      (PlayerSnapshot.record.codec.encode (withoutCards root).player))
      (List.mem_cons_of_mem _ List.mem_cons_self)).2
  have hroot : CombatStateSnapshot.record.codec.encode root = setItem "Player"
      (setItem "CardInstances"
        ((Codec.listOf CardInstanceSnapshot.record.codec).encode root.player.cardInstances)
        (PlayerSnapshot.record.codec.encode (withoutCards root).player))
      (CombatStateSnapshot.record.codec.encode (withoutCards root)) := rfl
  refine (CombatStateSnapshot.record.codec.dropKeys_asdict root).trans ?_
  rw [hroot]
  refine (dropKeys_setItem (by decide) _ _).trans ?_
  refine congrArg₂ (setItem "Player") ((dropKeys_setItem (by decide) _ _).trans ?_)
    (Json.dropKeys_of_lacks _ _ hrest)
  exact congrArg (setItem "CardInstances" _) (Json.dropKeys_of_lacks _ _ hplayer)

/-- Where the stream that shuffles is there, a hypothesis replaces it and the cards it
    orders, and loses nothing else; where it is not, that is said. Cards that are replaced
    may use the name. -/
theorem deriveSubstitutedSnapshotFrom_eq (hknown : CombatStateSnapshot.record.codec.Known root)
    (hrest : (CombatStateSnapshot.record.codec.encode (withoutCards root)).lacksKeys
      (isNamed unknownFields) = true)
    (orderedDrawPile : Except PyException (List CardInstanceSnapshot))
    (hkept : ∀ ordered, orderedDrawPile = .ok ordered →
      ∀ card ∈ root.player.cardInstances, Kept ordered card)
    (rng : SerializableRngSnapshot) :
    deriveSubstitutedSnapshotFrom root rng
        (orderedDrawPile.map fun cards => cards.map CardInstanceSnapshot.record.codec.asdict) =
      if (root.rng.runRng.get? (.text "Shuffle")).isSome then
        orderedDrawPile.map (substituted root rng)
      else .error (.valueError
        "root_snapshot.Rng.RunRng is missing required \"Shuffle\" stream") := by
  -- The flat form differs from the written one in the cards only.
  have hplain := snapshotPlainDict_eq hrest
  generalize hflat : ((Codec.listOf CardInstanceSnapshot.record.codec).encode
    root.player.cardInstances).dropKeys (isNamed unknownFields) = flatCards at hplain
  have hrng : pyItem (snapshotPlainDict root) "Rng" =
      .ok (RngSnapshotSet.record.codec.encode root.rng) := by
    rw [hplain]
    rfl
  have hrunRng : pyItem (RngSnapshotSet.record.codec.encode root.rng) "RunRng" =
      .ok ((Codec.mapOf SerializableRngSnapshot.record.codec).encode root.rng.runRng) := rfl
  have hfound : containsKey ((Codec.mapOf SerializableRngSnapshot.record.codec).encode
      root.rng.runRng) "Shuffle" = .ok (root.rng.runRng.get? (.text "Shuffle")).isSome := by
    refine congrArg Except.ok ?_
    change (Dict.lookupL _ (root.rng.runRng.entries.map fun entry =>
      (entry.1, SerializableRngSnapshot.record.codec.encode entry.2))).isSome = _
    rw [Dict.lookupL_map _ fun _ => SerializableRngSnapshot.record.codec.encode, Option.isSome_map]
    rfl
  unfold deriveSubstitutedSnapshotFrom
  dsimp only
  rw [hrng, Except.ok_bind, hrunRng, Except.ok_bind, hfound, Except.ok_bind]
  cases hshuffle : (root.rng.runRng.get? (.text "Shuffle")).isSome with
  | false => rfl
  | true =>
      -- First the stream, then the cards, each in the flat form of what it changes.
      have hset := congrArg (Except.ok : Json → Except PyException Json)
        (setItem_shuffle root.rng.runRng rng)
      have hstream := changeItem_ok _ hrng (changeItem_ok
        (fun runRng => .ok (setItem "Shuffle" (rngToDict rng) runRng)) hrunRng hset)
      rw [if_neg (by simp), hstream, Except.ok_bind]
      cases hordered : orderedDrawPile with
      | error exc => rfl
      | ok ordered =>
          change (((ordered.map CardInstanceSnapshot.record.codec.asdict).zipIdx.mapM
            fun entry => replacementOf entry.1 entry.2) >>= _) =
              Except.ok (substituted root rng ordered)
          rw [replacements_ok, Except.ok_bind, hplain]
          have hcards := replaceCards_ok (hkept ordered hordered)
          rw [hflat] at hcards
          have hplayer : pyItem (setItem "Rng" (setItem "RunRng"
              ((Codec.mapOf SerializableRngSnapshot.record.codec).encode
                (root.rng.runRng.set (.text "Shuffle") rng))
              (RngSnapshotSet.record.codec.encode root.rng)) (setItem "Player"
                (setItem "CardInstances" flatCards
                  (PlayerSnapshot.record.codec.encode (withoutCards root).player))
                (CombatStateSnapshot.record.codec.encode (withoutCards root)))) "Player" =
              .ok (setItem "CardInstances" flatCards
                (PlayerSnapshot.record.codec.encode (withoutCards root).player)) := rfl
          have hinstances : pyItem (setItem "CardInstances" flatCards
              (PlayerSnapshot.record.codec.encode (withoutCards root).player)) "CardInstances" =
              .ok flatCards := rfl
          have hchanged := changeItem_ok _ hplayer (changeItem_ok _ hinstances hcards)
          refine (congrArg (· >>= fromDict) hchanged).trans ?_
          exact CombatStateSnapshot.record.codec.decode_encode (substituted root rng ordered)
            ((known_iff _).mpr ((known_iff root).mp hknown))

/-- A snapshot lacks the name if its cards and the rest do. -/
theorem lacks_withoutCards
    (hfree : (CombatStateSnapshot.record.codec.encode root).lacksKeys
      (isNamed unknownFields) = true) :
    (CombatStateSnapshot.record.codec.encode (withoutCards root)).lacksKeys
        (isNamed unknownFields) = true ∧
      ∀ card ∈ root.player.cardInstances,
        (CardInstanceSnapshot.record.codec.encode card).lacksKeys
          (isNamed unknownFields) = true := by
  have hplayer := Json.lacksKeysFields_setL (isNamed unknownFields) (k := .text "Player")
    (w := PlayerSnapshot.record.codec.encode (withoutCards root).player)
    (show Json.lacksKeysFields (isNamed unknownFields) (Dict.setL (.text "Player")
      (PlayerSnapshot.record.codec.encode root.player)
      (CombatStateSnapshot.record.schema.encodeMembers
        (CombatStateSnapshot.record.parts (withoutCards root)))) = true from hfree)
  have hcards := Json.lacksKeysFields_setL (isNamed unknownFields) (k := .text "CardInstances")
    (w := .list [])
    (show Json.lacksKeysFields (isNamed unknownFields) (Dict.setL (.text "CardInstances")
      ((Codec.listOf CardInstanceSnapshot.record.codec).encode root.player.cardInstances)
      (PlayerSnapshot.record.schema.encodeMembers
        (PlayerSnapshot.record.parts (withoutCards root).player))) = true from hplayer.1)
  refine ⟨hplayer.2 (hcards.2 rfl), fun card hcard => ?_⟩
  exact (Json.lacksKeysList_iff _ _).mp hcards.1 _ (List.mem_map_of_mem hcard)

/-- The same, of a snapshot that nowhere uses the name. -/
theorem deriveSubstitutedSnapshot_eq (hknown : CombatStateSnapshot.record.codec.Known root)
    (hfree : (CombatStateSnapshot.record.codec.encode root).lacksKeys
      (isNamed unknownFields) = true)
    (rng : SerializableRngSnapshot) (orderedDrawPile : List CardInstanceSnapshot) :
    deriveSubstitutedSnapshot root rng orderedDrawPile =
      if (root.rng.runRng.get? (.text "Shuffle")).isSome then
        .ok (substituted root rng orderedDrawPile)
      else .error (.valueError
        "root_snapshot.Rng.RunRng is missing required \"Shuffle\" stream") := by
  rcases lacks_withoutCards hfree with ⟨hrest, hcards⟩
  exact deriveSubstitutedSnapshotFrom_eq hknown hrest (.ok orderedDrawPile)
    (fun _ _ card hcard => .inl (hcards card hcard)) rng

end Substitution

/-!
### Round trips

The flat form is read as the snapshot it is of, since every codec reads what it writes.
-/

section RoundTrip

/-- Nothing unknown is kept, and no free-form dictionary has the name as a key. -/
structure Plain (s : CombatStateSnapshot) : Prop where
  kept : s.unknownFields = []
  metadata : s.metadata.unknownFields = []
  free : (CombatStateSnapshot.record.codec.encode s).lacksKeys (isNamed unknownFields) = true

theorem Plain.known {s : CombatStateSnapshot} (h : Plain s) :
    CombatStateSnapshot.record.codec.Known s := (known_iff s).mpr ⟨h.kept, h.metadata⟩

/-- What is read of a value that nowhere uses the name, with nothing unknown kept. -/
theorem plain_of_fromDict {value : Json} {s : CombatStateSnapshot} (hread : fromDict value = .ok s)
    (hlacks : lacksName unknownFields value = true) (hkept : s.unknownFields = [])
    (hmetadata : s.metadata.unknownFields = []) : Plain s :=
  ⟨hkept, hmetadata, CombatStateSnapshot.record.codec.lacks_of_decode value s hread hlacks⟩

/-- The flat form of a snapshot is read as the snapshot; so reading, flattening and
    reading is reading once; and by way of the flat form a hypothesis replaces the
    stream that shuffles and the cards it orders, and loses no other field. -/
theorem snapshot_round_trip :
    (∀ s, Plain s → fromDict (snapshotPlainDict s) = .ok s) ∧
    (∀ value s, fromDict value = .ok s → lacksName unknownFields value = true →
      s.unknownFields = [] → s.metadata.unknownFields = [] →
      fromDict (snapshotPlainDict s) = fromDict value) ∧
    ∀ s, Plain s → ∀ rng orderedDrawPile,
      deriveSubstitutedSnapshot s rng orderedDrawPile =
        if (s.rng.runRng.get? (.text "Shuffle")).isSome then
          .ok (substituted s rng orderedDrawPile)
        else .error (.valueError
          "root_snapshot.Rng.RunRng is missing required \"Shuffle\" stream") := by
  refine ⟨fun s h => ?_, fun value s hread hlacks hkept hmetadata => ?_,
    fun s h rng orderedDrawPile => ?_⟩
  · exact CombatStateSnapshot.record.codec.decode_plain h.known h.free
  · have hplain := plain_of_fromDict hread hlacks hkept hmetadata
    exact (CombatStateSnapshot.record.codec.decode_plain hplain.known hplain.free).trans hread.symm
  · exact deriveSubstitutedSnapshot_eq h.known h.free rng orderedDrawPile

/-- A card on top of the draw pile. -/
def strikeOnTop : CardInstanceSnapshot :=
  { instanceId := .str (.text "card-000001"), cardId := .str (.text "STRIKE")
    type := .str (.text "Attack"), rarity := .str (.text "Basic"), cost := 1
    targetType := .str (.text "AnyEnemy"), isUpgraded := false, upgradeLevel := 0
    localKeywords := none, localCostModifiers := [⟨-1, .str (.text "Add"), 0, true⟩]
    temporaryStarCosts := [], zone := .str (.text "draw_pile"), pileIndex := some 0
    hasBeenRemovedFromState := false, enchantment := some ⟨.text "SHARP", 2, .null⟩
    enchantmentStatus := .null, tinkerTimeType := .null, tinkerTimeRider := .null
    dynamicVars := Dict.empty.set (.text "Damage") "6.0", baseReplayCount := 0
    baseStarCost := 0, lastStarsSpent := 0, exhaustOnNextPlay := false
    hasSingleTurnRetain := false, hasSingleTurnSly := false, affliction := none
    cloneOfInstanceId := .null, isDupe := false, deckVersionInstanceId := .null
    floorAddedToDeck := some 1, savedProperties := .obj [member "Uses" (.int 3)]
    sovereignBladeCurrentDamage := none, sovereignBladeCurrentRepeats := none
    sovereignBladeCreatedThroughForge := none }

/-- A snapshot with a card and an enemy. -/
def smallSnapshot : CombatStateSnapshot :=
  { metadata := ⟨.phase3c8, .str (.text "snap-1"), 0, .normalPlayerDecision, .complete, [],
      .str (.text "2026-07-26T00:00:00Z"), .null, .null, .null, []⟩
    player := ⟨.str (.text "player-000001"), .str (.text "creature-000001"), 1, 70, 80, 0, 3, 3, 0,
      99, 0, [strikeOnTop], [], [], [none], [], []⟩
    enemies := [⟨.str (.text "enemy-000001"), 0, .str (.text "Louse"), 10, 10, 0, true,
      [], [], .null,
      .null, .null, .null, .null, some ⟨.text "Attack", .text "NEXT", .text "BITE"⟩⟩]
    turnNumber := 1, roundNumber := 1, currentSide := .str (.text "Player")
    phase := .str (.text "Play")
    rng := ⟨Dict.empty.set (.text "Shuffle") ⟨0, 1, 2, 3, 4⟩, [], []⟩
    combatHistory := ⟨[⟨.str (.text "TurnStarted"), 1, .str (.text "Player"),
      Dict.empty.set (.text "1") (.int 1), .obj [], .null⟩], []⟩
    isTerminal := false, outcome := .str (.text "None"), pendingChoice := .null
    unknownFields := [] }

/-- A snapshot with a card, an enemy and a stream goes there and back, and a
    hypothesis is put into it. -/
theorem snapshot_round_trip_small :
    fromDict (snapshotPlainDict smallSnapshot) = .ok smallSnapshot ∧
    fromDict (snapshotPlainDict smallSnapshot) =
      fromDict (CombatStateSnapshot.record.codec.encode smallSnapshot) ∧
    deriveSubstitutedSnapshot smallSnapshot ⟨5, 6, 7, 8, 9⟩ [strikeOnTop] =
      .ok (substituted smallSnapshot ⟨5, 6, 7, 8, 9⟩ [strikeOnTop]) := by
  have hplain : Plain smallSnapshot := ⟨rfl, rfl, by decide +kernel⟩
  rcases snapshot_round_trip with ⟨hround, hagain, hsubstituted⟩
  refine ⟨hround _ hplain, ?_, ?_⟩
  · exact hagain _ _ (CombatStateSnapshot.record.codec.decode_encode _ hplain.known)
      (by decide +kernel) rfl rfl
  · exact (hsubstituted _ hplain ⟨5, 6, 7, 8, 9⟩ [strikeOnTop]).trans (if_pos (by decide +kernel))

end RoundTrip

end Wire

end Combat

end STS2RL
