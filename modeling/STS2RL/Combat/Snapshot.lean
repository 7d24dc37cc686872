import STS2RL.Core.JsonText
import STS2RL.Combat.WorkItem
import Mathlib.Data.List.Sort
import Mathlib.Data.String.Basic

/-!
# Combat Snapshots

The part of a captured state that a hypothesis rewrites: the card instances with
the piles they are in, and the stream that shuffles. Everything else a capture
holds is carried along as it is.

Where card copies have to be told apart, they are ordered by their identity key,
the canonical text of the whole record. Its members are in name order, so the
text names the instance before it names the place in the pile. Cards of different
instances are therefore ordered by what stands up to there
(`identityKey_lt_iff`), and the place in the pile does not matter.

## Main definitions

* `CardInstanceSnapshot`: A card record; its floats are texts of plain characters.
* `identityKey`: The canonical text of a card.
* `CombatStateSnapshot`, `cardsInZone`: A captured state and its piles.
* `observableCardKey`, `replayInternalKey`: What is seen of a card, and what
  decides its behaviour.

## Theorems

* `identityKey_lt_iff`: Different instances are compared without their place.
-/

namespace STS2RL

namespace Combat

/-- A card record. The nested records are carried as JSON. -/
structure CardInstanceSnapshot where
  instanceId : String
  cardId : String
  type : String
  rarity : String
  cost : Int
  targetType : String
  isUpgraded : Bool
  upgradeLevel : Int
  localKeywords : Option (List String) := none
  localCostModifiers : Json := .list []
  temporaryStarCosts : Json := .list []
  zone : Option String := none
  pileIndex : Option Int := none
  hasBeenRemovedFromState : Bool := false
  enchantment : Json := .null
  enchantmentStatus : Option String := none
  tinkerTimeType : Option String := none
  tinkerTimeRider : Option String := none
  dynamicVars : Json := .obj []
  baseReplayCount : Int := 0
  baseStarCost : Int := 0
  lastStarsSpent : Int := 0
  exhaustOnNextPlay : Bool := false
  hasSingleTurnRetain : Bool := false
  hasSingleTurnSly : Bool := false
  affliction : Json := .null
  cloneOfInstanceId : Option String := none
  isDupe : Bool := false
  deckVersionInstanceId : Option String := none
  floorAddedToDeck : Option Int := none
  savedProperties : Json := .null
  sovereignBladeCurrentDamage : Json := .null
  sovereignBladeCurrentRepeats : Json := .null
  sovereignBladeCreatedThroughForge : Option Bool := none
  floats : Json.plainFloatsItems [affliction.sortKeys, dynamicVars.sortKeys, enchantment.sortKeys,
    localCostModifiers.sortKeys, savedProperties.sortKeys, sovereignBladeCurrentDamage.sortKeys,
    sovereignBladeCurrentRepeats.sortKeys, temporaryStarCosts.sortKeys] = true := by decide
  deriving DecidableEq

/-- A stream of random numbers. -/
structure SerializableRngSnapshot where
  counter : Int
  state0 : Int
  state1 : Int
  state2 : Int
  state3 : Int
  deriving DecidableEq

/-- A captured combat. `rest` is what no hypothesis reads or writes. -/
structure CombatStateSnapshot (ρ : Type) where
  cardInstances : List CardInstanceSnapshot
  shuffle : Option SerializableRngSnapshot
  rest : ρ
  deriving DecidableEq

section Identity

/-- A boolean or `None`. -/
def boolOrNull : Option Bool → Json
  | none => .null
  | some b => .bool b

namespace CardInstanceSnapshot

variable (card : CardInstanceSnapshot)

/-- The members of a card up to its place in a pile, in name order. -/
def membersBeforePile : List (PyStr × Json) :=
  [jsonMember "Affliction" card.affliction.sortKeys,
    jsonMember "BaseReplayCount" (.int card.baseReplayCount),
    jsonMember "BaseStarCost" (.int card.baseStarCost),
    jsonMember "CardId" (.str card.cardId),
    jsonMember "CloneOfInstanceId" (textOrNull card.cloneOfInstanceId),
    jsonMember "Cost" (.int card.cost),
    jsonMember "DeckVersionInstanceId" (textOrNull card.deckVersionInstanceId),
    jsonMember "DynamicVars" card.dynamicVars.sortKeys,
    jsonMember "Enchantment" card.enchantment.sortKeys,
    jsonMember "EnchantmentStatus" (textOrNull card.enchantmentStatus),
    jsonMember "ExhaustOnNextPlay" (.bool card.exhaustOnNextPlay),
    jsonMember "FloorAddedToDeck" (intOrNull card.floorAddedToDeck),
    jsonMember "HasBeenRemovedFromState" (.bool card.hasBeenRemovedFromState),
    jsonMember "HasSingleTurnRetain" (.bool card.hasSingleTurnRetain),
    jsonMember "HasSingleTurnSly" (.bool card.hasSingleTurnSly),
    jsonMember "InstanceId" (.str card.instanceId),
    jsonMember "IsDupe" (.bool card.isDupe),
    jsonMember "IsUpgraded" (.bool card.isUpgraded),
    jsonMember "LastStarsSpent" (.int card.lastStarsSpent),
    jsonMember "LocalCostModifiers" card.localCostModifiers.sortKeys,
    jsonMember "LocalKeywords" ((card.localKeywords.map fun words =>
      .list (words.map fun word => .str (.text word))).getD
      .null)]

/-- The members from the place in a pile on. -/
def membersFromPile : List (PyStr × Json) :=
  [jsonMember "PileIndex" (intOrNull card.pileIndex),
    jsonMember "Rarity" (.str card.rarity),
    jsonMember "SavedProperties" card.savedProperties.sortKeys,
    jsonMember "SovereignBladeCreatedThroughForge"
      (boolOrNull card.sovereignBladeCreatedThroughForge),
    jsonMember "SovereignBladeCurrentDamage" card.sovereignBladeCurrentDamage.sortKeys,
    jsonMember "SovereignBladeCurrentRepeats" card.sovereignBladeCurrentRepeats.sortKeys,
    jsonMember "TargetType" (.str card.targetType),
    jsonMember "TemporaryStarCosts" card.temporaryStarCosts.sortKeys,
    jsonMember "TinkerTimeRider" (textOrNull card.tinkerTimeRider),
    jsonMember "TinkerTimeType" (textOrNull card.tinkerTimeType),
    jsonMember "Type" (.str card.type),
    jsonMember "UpgradeLevel" (.int card.upgradeLevel),
    jsonMember "Zone" (textOrNull card.zone)]

/-- `_card_identity_key`: the canonical text of the record. -/
def identityKey : List Char := Json.dumps (.obj (card.membersBeforePile ++ card.membersFromPile))

/-- `snapshot_card_replay_internal_key`. -/
def replayInternalKey : List (PyStr × Json) :=
  (card.membersBeforePile ++ card.membersFromPile).filter fun m =>
    m.1 ≠ .text "InstanceId" ∧ m.1 ≠ .text "Zone"

/-- `observable_card_key_from_snapshot`. -/
def observableCardKey : ObservableCardKey :=
  { cardId := card.cardId
    type := card.type
    rarity := card.rarity
    cost := card.cost
    targetType := card.targetType
    upgraded := card.isUpgraded
    upgradeLevel := card.upgradeLevel
    tinkerTimeType := card.tinkerTimeType
    tinkerTimeRider := card.tinkerTimeRider
    enchantment := none }

/-- The card without its place in a pile. -/
def forgetPile : CardInstanceSnapshot := { card with pileIndex := none }

/-- The text of a card up to its place in a pile. -/
def textBeforePile : List Char := Json.dumpsMembers card.membersBeforePile ++ [',']

@[simp]
theorem forgetPile_instanceId : card.forgetPile.instanceId = card.instanceId := rfl

@[simp]
theorem forgetPile_cardId : card.forgetPile.cardId = card.cardId := rfl

@[simp]
theorem forgetPile_zone : card.forgetPile.zone = card.zone := rfl

@[simp]
theorem forgetPile_textBeforePile : card.forgetPile.textBeforePile = card.textBeforePile := rfl

@[simp]
theorem forgetPile_observableCardKey :
    card.forgetPile.observableCardKey = card.observableCardKey := rfl

theorem membersBeforePile_plain : Json.plainFloatsMembers card.membersBeforePile = true := by
  have hfloats := card.floats
  simp only [Json.plainFloatsItems, Bool.and_eq_true, and_true] at hfloats
  have hstr : ∀ s : Option String, (textOrNull s).plainFloats = true := by
    intro s
    cases s <;> rfl
  have hnum : ∀ z : Option Int, (intOrNull z).plainFloats = true := by
    intro z
    cases z <;> rfl
  have hwords : ∀ words : Option (List String),
      ((words.map fun words => Json.list (words.map fun word => .str (.text word))).getD
        .null).plainFloats = true := by
    intro words
    cases words with
    | none => rfl
    | some words =>
        simp only [Option.map_some, Option.getD_some, Json.plainFloats]
        induction words with
        | nil => rfl
        | cons word words ih => simpa [Json.plainFloatsItems, Json.plainFloats] using ih
  simp only [membersBeforePile, jsonMember, Json.plainFloatsMembers, Json.plainFloats, hstr,
    hnum, hwords, hfloats, Bool.and_self]

variable {card} {other : CardInstanceSnapshot}

/-- Different instances have different members before their place. -/
theorem membersBeforePile_ne (h : card.instanceId ≠ other.instanceId) :
    card.membersBeforePile.map (fun m => Json.dumps m.2) ≠
      other.membersBeforePile.map fun m => Json.dumps m.2 := by
  intro heq
  simp only [membersBeforePile, jsonMember, List.map_cons, List.cons.injEq] at heq
  have hinstance : Json.dumpsStr (.text card.instanceId) = Json.dumpsStr (.text other.instanceId) :=
    heq.2.2.2.2.2.2.2.2.2.2.2.2.2.2.2.1
  exact h (Json.dumpsStr_inj hinstance)

/-- Different instances are compared by what stands before their place. -/
theorem identityKey_lt_iff (h : card.instanceId ≠ other.instanceId) :
    card.identityKey < other.identityKey ↔ card.textBeforePile < other.textBeforePile :=
  Json.dumps_obj_lt_iff rfl card.membersBeforePile_plain other.membersBeforePile_plain
    (List.cons_ne_nil _ _) (List.cons_ne_nil _ _) (membersBeforePile_ne h)

/-- Different instances have different texts before their place. -/
theorem textBeforePile_ne (h : card.instanceId ≠ other.instanceId) :
    card.textBeforePile ≠ other.textBeforePile := fun heq =>
  membersBeforePile_ne h (Json.dumpsMembers_append_inj card.membersBeforePile
    other.membersBeforePile rfl card.membersBeforePile_plain other.membersBeforePile_plain heq)

end CardInstanceSnapshot

end Identity

section Piles

variable {ρ : Type}

/-- `cards_in_zone`: the cards of a pile, in pile order. -/
def CombatStateSnapshot.cardsInZone (snapshot : CombatStateSnapshot ρ) (zone : String) :
    List CardInstanceSnapshot :=
  (snapshot.cardInstances.filter fun card => card.zone = some zone).insertionSort fun a b =>
    a.pileIndex.getD (-1) ≤ b.pileIndex.getD (-1)

/-- The order `sorted` gives cards by their identity key. -/
def identityLe (a b : CardInstanceSnapshot) : Prop := ¬ b.identityKey < a.identityKey

instance : DecidableRel identityLe := fun a b =>
  inferInstanceAs (Decidable (¬ b.identityKey < a.identityKey))

/-- `sorted(…, key=_card_identity_key)`. -/
def sortedByIdentity (cards : List CardInstanceSnapshot) : List CardInstanceSnapshot :=
  cards.insertionSort identityLe

end Piles

end Combat

end STS2RL
