import STS2RL.Api.Masking
import STS2RL.Core.Forall2
import STS2RL.Core.JsonSort

/-!
# Keys of Battle States

A search merges two boards that have the same key, and goes on from either by
rebuilding a scenario from it. The key and the rebuild read the board on their own.

The key holds every card of every pile field by field, so piles that are keyed
alike are alike. The powers of a creature are keyed without their order, which is
taken for incidental; the rebuild keeps it. The step count and the character are no
part of the key: a merge is of boards that were reached along different ways in one
combat. Of a saved property of a relic the key sees the value as equality does, to
which a boolean is a number, and a record the list of its members.

Powers are keyed in the order of their keys, and the keys of two cards that have
something in one place and nothing in the other have no order. A sort compares the
neighbours of its result, so it raises exactly where two keys have no order.

A board is typed as the emulator reports it: what is not always there is optional. Two
values of an enemy that a scenario can be given are never reported, and are left out.

## Main definitions

* `CardState`, `PowerState`, `EnemyState`, `EngineState`: A board, as reported.
* `battleStateKey`: The key of a board.
* `buildScenarioFromState`: The scenario rebuilt from a board.
* `OrderedPowers`: No two powers of a creature have keys without an order.
* `SameScenario`: Equal but for what the key leaves out.

## Theorems

* `battleStateKey_isOk_iff`: When computing the key raises.
* `perm_of_powerTuple`: Powers with one key are a permutation of each other.
* `same_scenario_of_same_key`: Boards with one key are rebuilt alike.
-/

namespace STS2RL

namespace Combat

namespace BattleStateKey

open Api (Fields IdentityPart identityPart pyRepr jsonRepr)

/-!
### The state of a battle

What the key is made of.
-/

section State

/-- An enchantment of a card. -/
structure EnchantmentState where
  id : Option String
  amount : Option Int
  status : Option String
  deriving DecidableEq

/-- A card of a pile. -/
structure CardState where
  id : String
  cost : Option Int
  type : Option String
  targetType : Option String
  upgraded : Option Bool
  upgradeLevel : Option Int
  tinkerTimeType : Option String
  tinkerTimeRider : Option String
  enchantment : Option EnchantmentState
  deriving DecidableEq

/-- A power of a creature. -/
structure PowerState where
  id : String
  amount : Int
  associatedCard : Option CardState
  deriving DecidableEq

/-- A potion. -/
structure PotionState where
  id : String
  rarity : Option String
  targetType : Option String
  deriving DecidableEq

/-- A relic. -/
structure RelicState where
  id : String
  displayAmount : Option Rat
  savedProperties : Option Fields
  deriving DecidableEq

/-- An orb. Its values are decimals, as text. -/
structure OrbState where
  id : String
  basePassiveValue : Option String
  baseEvokeValue : Option String
  deriving DecidableEq

/-- What an enemy is about to do. -/
structure IntentState where
  stateId : Option String
  deriving DecidableEq

/-- An enemy. -/
structure EnemyState where
  id : String
  hp : Int
  maxHp : Option Int
  block : Option Int
  isAlive : Option Bool
  intent : Option IntentState
  powers : List PowerState
  slotName : Option String
  stateLog : List String
  deriving DecidableEq

/-- A card that is offered. -/
structure OptionState where
  optionId : Json
  id : String
  upgraded : Option Bool
  upgradeLevel : Option Int
  tinkerTimeType : Option String
  tinkerTimeRider : Option String
  enchantment : Option EnchantmentState
  deriving DecidableEq

/-- A pending choice. `object` is the object it is, which may be asked for its
    identity. -/
structure PendingChoiceState where
  object : Nat
  choiceType : Option String
  scope : Option String
  scenarioRestorable : Option Bool
  minSelect : Option Int
  maxSelect : Option Int
  selectedCount : Option Int
  choiceSemantics : Json
  sourceEffectId : Json
  choiceInstanceId : Json
  selectedOptionIds : List Json
  options : List OptionState
  deriving DecidableEq

/-- The part of an observed state that is keyed or rebuilt. -/
structure EngineState where
  characterId : String
  hp : Int
  maxHp : Int
  block : Option Int
  energy : Option Int
  stars : Option Int
  stepIndex : Option Int
  seed : Option Int
  potions : List (Option PotionState)
  hand : List CardState
  drawPile : List CardState
  discardPile : List CardState
  exhaustPile : List CardState
  playPile : List CardState
  playerPowers : List PowerState
  orbSlots : Option Int
  orbs : List OrbState
  pendingChoice : Option PendingChoiceState
  enemies : List EnemyState
  relics : List RelicState
  deriving DecidableEq

/-- What a key is made from. -/
structure BoardState where
  engineState : EngineState
  turn : Int
  shuffleRngSeed : Option Int
  deriving DecidableEq

end State

/-!
### An order on powers

Powers are sorted before they are put in the key, by the comparison of tuples that Python
makes: it fails where two parts of different types are compared.
-/

section Compare

/-- Comparing what may be absent. Something and nothing have no order. -/
def compareOption {α : Type} (cmp : α → α → Option Ordering) :
    Option α → Option α → Option Ordering
  | none, none => some .eq
  | some a, some b => cmp a b
  | _, _ => none

/-- Tuples are compared by the first parts that differ. -/
def compareParts : List (Option Ordering) → Option Ordering
  | [] => some .eq
  | some .eq :: rest => compareParts rest
  | part :: _ => part

/-- Values that are always comparable. -/
def compareTotal {α : Type} [Ord α] (a b : α) : Option Ordering := some (compare a b)

/-- Enchantments are compared part by part. -/
def compareEnchantment (a b : EnchantmentState) : Option Ordering :=
  compareParts [compareOption compareTotal a.id b.id, compareOption compareTotal a.amount b.amount,
    compareOption compareTotal a.status b.status]

/-- Cards are compared part by part. -/
def compareCard (a b : CardState) : Option Ordering :=
  compareParts [compareTotal a.id b.id, compareOption compareTotal a.cost b.cost,
    compareOption compareTotal a.type b.type,
    compareOption compareTotal a.targetType b.targetType,
    compareOption compareTotal a.upgraded b.upgraded,
    compareOption compareTotal a.upgradeLevel b.upgradeLevel,
    compareOption compareTotal a.tinkerTimeType b.tinkerTimeType,
    compareOption compareTotal a.tinkerTimeRider b.tinkerTimeRider,
    compareOption compareEnchantment a.enchantment b.enchantment]

/-- Powers are compared part by part. -/
def comparePower (a b : PowerState) : Option Ordering :=
  compareParts [compareTotal a.id b.id, compareTotal a.amount b.amount,
    compareOption compareCard a.associatedCard b.associatedCard]

/-- Whether the keys of any two of the powers have an order. -/
def OrderedPowers (powers : List PowerState) : Prop :=
  ∀ p ∈ powers, ∀ q ∈ powers, (comparePower p q).isSome

instance (powers : List PowerState) : Decidable (OrderedPowers powers) :=
  inferInstanceAs (Decidable (∀ p ∈ powers, ∀ q ∈ powers, (comparePower p q).isSome))

/-- The error of two values without an order. -/
def notOrderable : PyException :=
  ⟨"TypeError", "'<' not supported between instances of these types"⟩

/-- `power_tuple`. The key of a power has its fields and no other. -/
def powerTuple (powers : List PowerState) : Except PyException (List PowerState) :=
  if OrderedPowers powers then
    .ok (powers.insertionSort fun a b => comparePower a b ≠ some .gt)
  else .error notOrderable

end Compare

/-!
### The key of a choice

The key of a value is a tuple of its parts with the type of each, members sorted by name;
two choices with one key have the same parts.
-/

section Choice

/-- A value as an identity, with its type. -/
inductive StateKey where
  | dict (members : List (PyStr × StateKey))
  | sequence (items : List StateKey)
  | none
  | bool (b : Bool)
  | int (z : Int)
  | float (part : Option IdentityPart)
  | str (s : PyStr)

mutual

/-- `_state_key_value` of a value whose members are in order. -/
def stateKeyOfSorted : Json → StateKey
  | .null => .none
  | .bool b => .bool b
  | .int z => .int z
  | .float text => .float (identityPart (.float text))
  | .str s => .str s
  | .list xs => .sequence (stateKeyItems xs)
  | .obj fields => .dict (stateKeyMembers fields)

/-- The keys of the items of a list. -/
def stateKeyItems : List Json → List StateKey
  | [] => []
  | x :: xs => stateKeyOfSorted x :: stateKeyItems xs

/-- The keys of the members of an object. -/
def stateKeyMembers : List (PyStr × Json) → List (PyStr × StateKey)
  | [] => []
  | (k, v) :: rest => (k, stateKeyOfSorted v) :: stateKeyMembers rest

end

/-- `_state_key_value`. -/
def stateKeyValue (value : Json) : StateKey := stateKeyOfSorted value.sortKeys

/-- `repr` of a tuple. -/
def reprTuple : List String → String
  | [x] => "(" ++ x ++ ",)"
  | xs => "(" ++ String.intercalate ", " xs ++ ")"

/-- The `repr` of a tagged value. -/
def taggedRepr (tag : String) (value : String) : String :=
  reprTuple [pyRepr (.text tag), value]

mutual

/-- `repr` of the state key of a value whose members are in order. -/
def stateKeyRepr : Json → String
  | .null => reprTuple [pyRepr "none"]
  | .bool b => taggedRepr "bool" (jsonRepr (.bool b))
  | .int z => taggedRepr "int" (toString z)
  | .float text => taggedRepr "float" text
  | .str s => taggedRepr "str" (pyRepr s)
  | .list xs => taggedRepr "sequence" (reprTuple (stateKeyReprItems xs))
  | .obj fields => taggedRepr "dict" (reprTuple (stateKeyReprMembers fields))

/-- The `repr` of each item's key. -/
def stateKeyReprItems : List Json → List String
  | [] => []
  | x :: xs => stateKeyRepr x :: stateKeyReprItems xs

/-- The `repr` of each member's key. -/
def stateKeyReprMembers : List (PyStr × Json) → List String
  | [] => []
  | (k, v) :: rest => reprTuple [pyRepr k, stateKeyRepr v] :: stateKeyReprMembers rest

end

/-- Which choice the selected options belong to. -/
inductive ChoiceNamespace where
  | producerChoiceInstance (id : StateKey)
  | localPendingChoiceObject (object : Nat)

/-- What is keyed of an option. -/
structure OptionKey where
  optionId : StateKey
  id : String
  upgraded : Option Bool
  upgradeLevel : Option Int
  tinkerTimeType : Option String
  tinkerTimeRider : Option String

/-- The key of a pending choice. -/
structure PendingChoiceKey where
  choiceType : Option String
  scope : Option String
  scenarioRestorable : Option Bool
  minSelect : Option Int
  maxSelect : Option Int
  selectedCount : Option Int
  semanticIdentity : StateKey
  sourceEffectId : StateKey
  selectedChoiceNamespace : Option ChoiceNamespace
  selectedOptionIds : List StateKey
  options : List OptionKey

/-- The key of an option, which leaves the enchantment out. -/
def OptionState.key (option : OptionState) : OptionKey :=
  { optionId := stateKeyValue option.optionId
    id := option.id
    upgraded := option.upgraded
    upgradeLevel := option.upgradeLevel
    tinkerTimeType := option.tinkerTimeType
    tinkerTimeRider := option.tinkerTimeRider }

/-- `choiceSemantics`, or what stands for it where it is no record. -/
def semanticsOf (choiceSemantics : Json) : Json :=
  match choiceSemantics with
  | .obj fields => .obj fields
  | _ => .obj [Api.member "version" .null, Api.member "operation" .null]

/-- Whether the choice says that the order of its options matters. -/
def orderMatters (choiceSemantics : Json) : Json :=
  match choiceSemantics with
  | .obj fields => Api.getField fields "orderMatters"
  | _ => .null

/-- The selected options, in the order of their `repr` where the order says nothing. -/
def selectedOptions (pending : PendingChoiceState) : List Json :=
  if orderMatters pending.choiceSemantics = .bool false then
    pending.selectedOptionIds.insertionSort fun a b =>
      stateKeyRepr a.sortKeys ≤ stateKeyRepr b.sortKeys
  else pending.selectedOptionIds

/-- `pending_choice_state_key`. -/
def pendingChoiceStateKey (pending : PendingChoiceState) : PendingChoiceKey :=
  let selected := selectedOptions pending
  { choiceType := pending.choiceType
    scope := pending.scope
    scenarioRestorable := pending.scenarioRestorable
    minSelect := pending.minSelect
    maxSelect := pending.maxSelect
    selectedCount := pending.selectedCount
    semanticIdentity := stateKeyValue (semanticsOf pending.choiceSemantics)
    sourceEffectId := stateKeyValue pending.sourceEffectId
    selectedChoiceNamespace :=
      if selected.isEmpty then none
      else if pending.choiceInstanceId ≠ .null then
        some (.producerChoiceInstance (stateKeyValue pending.choiceInstanceId))
      else some (.localPendingChoiceObject pending.object)
    selectedOptionIds := selected.map stateKeyValue
    options := pending.options.map OptionState.key }

end Choice

/-!
### The key of a board

The whole key, part by part.
-/

section Key

/-- A saved property as the key sees it. -/
inductive StableValue where
  | scalar (part : Option IdentityPart)
  | tuple (items : List StableValue)

mutual

/-- `stable_saved_property_value` of a value whose members are in order. -/
def stableOfSorted : Json → StableValue
  | .list xs => .tuple (stableItems xs)
  | .obj fields => .tuple (stableMembers fields)
  | value => .scalar (identityPart value)

/-- The stable values of the items of a list. -/
def stableItems : List Json → List StableValue
  | [] => []
  | x :: xs => stableOfSorted x :: stableItems xs

/-- The stable values of the members of an object. -/
def stableMembers : List (PyStr × Json) → List StableValue
  | [] => []
  | (k, v) :: rest =>
      .tuple [.scalar (some (.text k)), stableOfSorted v] :: stableMembers rest

end

/-- The saved properties of a relic, in order and as the key sees them. -/
def stableProperties (properties : Fields) : List StableValue :=
  stableMembers (Json.sortKeysFields properties)

/-- What is keyed of a relic. -/
structure RelicKey where
  id : String
  displayAmount : Option Rat
  savedProperties : List StableValue

/-- The key of a relic. -/
def RelicState.key (relic : RelicState) : RelicKey :=
  ⟨relic.id, relic.displayAmount, stableProperties (relic.savedProperties.getD [])⟩

/-- What is keyed of an enemy. -/
structure EnemyKey where
  id : String
  hp : Int
  maxHp : Option Int
  block : Option Int
  isAlive : Option Bool
  stateId : Option String
  powers : List PowerState
  slotName : Option String
  stateLog : List String

/-- `(e.get("intent") or {}).get("stateId")`. -/
def EnemyState.stateId (enemy : EnemyState) : Option String := enemy.intent.bind IntentState.stateId

/-- The key of an enemy. -/
def EnemyState.key (enemy : EnemyState) : Except PyException EnemyKey := do
  let powers ← powerTuple enemy.powers
  .ok ⟨enemy.id, enemy.hp, enemy.maxHp, enemy.block, enemy.isAlive, enemy.stateId, powers,
    enemy.slotName, enemy.stateLog⟩

/-- The key of a board. -/
structure Key where
  turn : Int
  hp : Int
  maxHp : Int
  block : Option Int
  energy : Option Int
  stars : Option Int
  potions : List (Option PotionState)
  hand : List CardState
  drawPile : List CardState
  discardPile : List CardState
  exhaustPile : List CardState
  playPile : List CardState
  playerPowers : List PowerState
  orbSlots : Option Int
  orbs : List OrbState
  pendingChoice : Option PendingChoiceKey
  enemies : List EnemyKey
  relics : List RelicKey
  seed : Option Int
  shuffleRngSeed : Option Int

/-- `battle_state_key`. -/
def battleStateKey (board : BoardState) : Except PyException Key := do
  let state := board.engineState
  let playerPowers ← powerTuple state.playerPowers
  let enemies ← state.enemies.mapM EnemyState.key
  .ok {
    turn := board.turn
    hp := state.hp
    maxHp := state.maxHp
    block := state.block
    energy := state.energy
    stars := state.stars
    potions := state.potions
    hand := state.hand
    drawPile := state.drawPile
    discardPile := state.discardPile
    exhaustPile := state.exhaustPile
    playPile := state.playPile
    playerPowers
    orbSlots := state.orbSlots
    orbs := state.orbs
    pendingChoice := state.pendingChoice.map pendingChoiceStateKey
    enemies
    relics := state.relics.map RelicState.key
    seed := state.seed
    shuffleRngSeed := board.shuffleRngSeed }

end Key

/-!
### The scenario of a board

The scenario a worker is sent to set the board up, part by part.
-/

section Scenario

/-- `CardInstanceScenario`. -/
structure CardInstance where
  cardId : String
  isUpgraded : Bool
  upgradeLevel : Option Int
  tinkerTimeType : Option String
  tinkerTimeRider : Option String
  enchantmentId : Option String
  enchantmentAmount : Option Int
  enchantmentStatus : Option String
  deriving DecidableEq

/-- A power, in a scenario. -/
structure PowerStack where
  powerId : String
  amount : Int
  associatedCard : Option CardInstance
  deriving DecidableEq

/-- `RelicStack`. A boolean and an integer are saved as such. -/
structure RelicStack where
  relicId : String
  savedProperties : Fields
  deriving DecidableEq

/-- A potion, in a scenario. -/
structure PotionScenario where
  slot : Nat
  potionId : String
  deriving DecidableEq

/-- A pending choice, in a scenario. -/
structure PendingChoiceScenario where
  choiceType : String
  minSelect : Option Int
  maxSelect : Option Int
  options : List CardInstance
  deriving DecidableEq

/-- An enemy, in a scenario. -/
structure EnemyScenario where
  monsterId : String
  hp : Int
  maxHp : Option Int
  block : Option Int
  slotName : Option String
  powers : List PowerStack
  forcedMove : Option String
  stateLog : List String
  deriving DecidableEq

/-- `CombatScenario`, as far as it is rebuilt. -/
structure CombatScenario where
  characterId : String
  playerHp : Int
  playerMaxHp : Int
  handCards : List CardInstance
  drawPileCards : List CardInstance
  discardPileCards : List CardInstance
  exhaustPileCards : List CardInstance
  potions : List PotionScenario
  orbs : List OrbState
  orbSlots : Option Int
  pendingChoice : Option PendingChoiceScenario
  playerPowers : List PowerStack
  energy : Option Int
  stars : Option Int
  stepIndex : Option Int
  playerBlock : Option Int
  relics : List String
  relicStacks : List RelicStack
  shuffleRngSeed : Option Int
  enemies : List EnemyScenario
  seed : Int
  deriving DecidableEq

/-- A text, unless it is empty. -/
def nonEmpty (text : Option String) : Option String := text.filter (· ≠ "")

/-- `_card_instance_from_payload`. -/
def cardInstance (id : String) (upgraded : Option Bool) (upgradeLevel : Option Int)
    (tinkerTimeType tinkerTimeRider : Option String) (enchantment : Option EnchantmentState) :
    Except PyException CardInstance :=
  let plain : CardInstance :=
    { cardId := id
      isUpgraded := upgraded.getD false
      upgradeLevel
      tinkerTimeType := nonEmpty tinkerTimeType
      tinkerTimeRider := nonEmpty tinkerTimeRider
      enchantmentId := none
      enchantmentAmount := none
      enchantmentStatus := none }
  match enchantment with
  | none => .ok plain
  | some enchantment =>
      match nonEmpty enchantment.id with
      | none => .error (.valueError "enchantment.id is required when enchantment is present")
      | some enchantmentId =>
          .ok { plain with
            enchantmentId := some enchantmentId
            enchantmentAmount := enchantment.amount
            enchantmentStatus := enchantment.status }

/-- The card that a scenario has for a card of the state. -/
def CardState.instance (card : CardState) : Except PyException CardInstance :=
  cardInstance card.id card.upgraded card.upgradeLevel card.tinkerTimeType card.tinkerTimeRider
    card.enchantment

/-- The card that a scenario has for an option. -/
def OptionState.instance (option : OptionState) : Except PyException CardInstance :=
  cardInstance option.id option.upgraded option.upgradeLevel option.tinkerTimeType
    option.tinkerTimeRider option.enchantment

/-- A character in upper case, as far as text in ASCII can tell. -/
def upperChar (c : Char) : Char := if c.toNat = 0x131 then 'I' else c.toUpper

/-- One power of `_power_stacks`. -/
def powerStack (power : PowerState) : Except PyException PowerStack :=
  match power.associatedCard with
  | some card => card.instance.map fun card => ⟨power.id, power.amount, some card⟩
  | none =>
      if power.id.toList.map upperChar = "NIGHTMARE_POWER".toList then
        .error (.valueError "missing_associated_card")
      else .ok ⟨power.id, power.amount, none⟩

/-- `_potion_scenarios`, of the slots that hold a potion. -/
def potionScenarios (potions : List (Option PotionState)) : List PotionScenario :=
  potions.zipIdx.filterMap fun (potion, slot) => potion.map fun potion => ⟨slot, potion.id⟩

/-- `_pending_choice_scenario`. -/
def pendingChoiceScenario (pending : Option PendingChoiceState) :
    Except PyException (Option PendingChoiceScenario) :=
  match pending with
  | none => .ok none
  | some pending =>
      if pending.scenarioRestorable = some false ∨ pending.scope = some "ActionContinuation" then
        .ok none
      else
        match nonEmpty pending.choiceType with
        | none => .ok none
        | some choiceType => do
            let options ← pending.options.mapM OptionState.instance
            .ok (some ⟨choiceType, pending.minSelect, pending.maxSelect, options⟩)

/-- `_relic_stacks`: the relics without saved properties, and those with some. -/
def relicStacks (relics : List RelicState) : List String × List RelicStack :=
  (relics.filterMap fun relic =>
      if (relic.savedProperties.getD []).isEmpty then some relic.id else none,
    relics.filterMap fun relic =>
      if (relic.savedProperties.getD []).isEmpty then none
      else some ⟨relic.id, relic.savedProperties.getD []⟩)

/-- One enemy of `build_scenario_from_state`. -/
def enemyScenario (enemy : EnemyState) : Except PyException EnemyScenario := do
  let powers ← enemy.powers.mapM powerStack
  .ok {
    monsterId := enemy.id
    hp := max 1 enemy.hp
    maxHp := enemy.maxHp
    block := enemy.block
    slotName := enemy.slotName
    powers
    forcedMove := nonEmpty enemy.stateId
    stateLog := enemy.stateLog }

/-- An enemy that is not said to be dead lives. -/
def EnemyState.lives (enemy : EnemyState) : Bool := enemy.isAlive.getD true

/-- `build_scenario_from_state`. -/
def buildScenarioFromState (board : BoardState) : Except PyException CombatScenario := do
  let state := board.engineState
  let handCards ← state.hand.mapM CardState.instance
  let drawPileCards ← state.drawPile.mapM CardState.instance
  let discardPileCards ← state.discardPile.mapM CardState.instance
  let exhaustPileCards ← state.exhaustPile.mapM CardState.instance
  let pendingChoice ← pendingChoiceScenario state.pendingChoice
  let playerPowers ← state.playerPowers.mapM powerStack
  let enemies ← (state.enemies.filter EnemyState.lives).mapM enemyScenario
  if enemies.isEmpty then
    .error (.valueError
      "Cannot build a scenario with no living enemies - state should be terminal")
  else
    .ok {
      characterId := state.characterId
      playerHp := max 1 state.hp
      playerMaxHp := state.maxHp
      handCards, drawPileCards, discardPileCards, exhaustPileCards
      potions := potionScenarios state.potions
      orbs := state.orbs
      orbSlots := state.orbSlots
      pendingChoice
      playerPowers
      energy := state.energy
      stars := state.stars
      stepIndex := state.stepIndex
      playerBlock := state.block
      relics := (relicStacks state.relics).1
      relicStacks := (relicStacks state.relics).2
      shuffleRngSeed := board.shuffleRngSeed
      enemies
      seed := state.seed.getD 1 }

end Scenario

/-!
### From keys to scenarios

Part by part: two boards with one key have the same part in their scenarios, up to the
order of the powers.
-/

section Soundness

/-- Enemies with the same powers, in whatever order. -/
structure SameEnemy (e e' : EnemyScenario) : Prop where
  rest : e' = { e with powers := e'.powers }
  powers : e.powers.Perm e'.powers

/-- Relics whose saved properties look alike to a key. -/
structure SameRelicStack (r r' : RelicStack) : Prop where
  id : r.relicId = r'.relicId
  savedProperties : stableProperties r.savedProperties = stableProperties r'.savedProperties

/-- Scenarios that are equal but for the character and the step count, the order of
    powers, and what a key does not see of a saved property. -/
structure SameScenario (sc sc' : CombatScenario) : Prop where
  rest : sc' = { sc with
    characterId := sc'.characterId
    stepIndex := sc'.stepIndex
    playerPowers := sc'.playerPowers
    relicStacks := sc'.relicStacks
    enemies := sc'.enemies }
  playerPowers : sc.playerPowers.Perm sc'.playerPowers
  relicStacks : List.Forall₂ SameRelicStack sc.relicStacks sc'.relicStacks
  enemies : List.Forall₂ SameEnemy sc.enemies sc'.enemies

/-- The enchantments of the cards a choice offers. -/
def optionEnchantments (board : BoardState) : List (Option EnchantmentState) :=
  (board.engineState.pendingChoice.elim [] PendingChoiceState.options).map OptionState.enchantment

/-- The powers of every creature of a board have keys that are in order. -/
def OrderedBoard (board : BoardState) : Prop :=
  OrderedPowers board.engineState.playerPowers ∧
    ∀ enemy ∈ board.engineState.enemies, OrderedPowers enemy.powers

instance (board : BoardState) : Decidable (OrderedBoard board) :=
  inferInstanceAs (Decidable (OrderedPowers board.engineState.playerPowers ∧
    ∀ enemy ∈ board.engineState.enemies, OrderedPowers enemy.powers))

theorem powerTuple_eq_ok {powers key : List PowerState} (h : powerTuple powers = .ok key) :
    OrderedPowers powers ∧ key.Perm powers := by
  unfold powerTuple at h
  split at h
  · rename_i hordered
    cases h
    exact ⟨hordered, List.perm_insertionSort _ powers⟩
  · cases h

/-- Powers with one key are a permutation of each other. -/
theorem perm_of_powerTuple {powers powers' key : List PowerState}
    (h : powerTuple powers = .ok key) (h' : powerTuple powers' = .ok key) :
    powers.Perm powers' :=
  (powerTuple_eq_ok h).2.symm.trans (powerTuple_eq_ok h').2

theorem powerTuple_isOk_iff {powers : List PowerState} :
    (∃ key, powerTuple powers = .ok key) ↔ OrderedPowers powers := by
  constructor
  · rintro ⟨key, h⟩
    exact (powerTuple_eq_ok h).1
  · intro hordered
    exact ⟨_, if_pos hordered⟩

/-- Computing the key raises exactly where the keys of two powers of one creature have
    no order. -/
theorem battleStateKey_isOk_iff {board : BoardState} :
    (∃ key, battleStateKey board = .ok key) ↔ OrderedBoard board := by
  have henemy : ∀ enemy : EnemyState, (∃ key, enemy.key = .ok key) ↔
      OrderedPowers enemy.powers := by
    intro enemy
    rw [← powerTuple_isOk_iff]
    constructor
    · rintro ⟨key, h⟩
      rcases (Except.bind_eq_ok _ _ _).mp h with ⟨powers, hpowers, -⟩
      exact ⟨powers, hpowers⟩
    · rintro ⟨powers, hpowers⟩
      unfold EnemyState.key
      rw [hpowers]
      exact ⟨_, rfl⟩
  constructor
  · rintro ⟨key, h⟩
    rcases (Except.bind_eq_ok _ _ _).mp h with ⟨powers, hpowers, h⟩
    rcases (Except.bind_eq_ok _ _ _).mp h with ⟨enemies, henemies, -⟩
    refine ⟨(powerTuple_eq_ok hpowers).1, fun enemy hmem => ?_⟩
    rcases Except.ok_of_mem_mapM _ _ _ henemies enemy hmem with ⟨key, hkey⟩
    exact (henemy enemy).mp ⟨key, hkey.2⟩
  · rintro ⟨hplayer, henemies⟩
    rcases powerTuple_isOk_iff.mpr hplayer with ⟨powers, hpowers⟩
    rcases Except.mapM_isOk EnemyState.key board.engineState.enemies
      (fun enemy hmem => (henemy enemy).mpr (henemies enemy hmem)) with ⟨keys, hkeys⟩
    exact ⟨_, (Except.bind_eq_ok _ _ _).mpr
      ⟨powers, hpowers, (Except.bind_eq_ok _ _ _).mpr ⟨keys, hkeys, rfl⟩⟩⟩

/-- What the key of a board is. -/
theorem battleStateKey_eq_ok {board : BoardState} {key : Key}
    (h : battleStateKey board = .ok key) :
    powerTuple board.engineState.playerPowers = .ok key.playerPowers ∧
      board.engineState.enemies.mapM EnemyState.key = .ok key.enemies ∧
      key = {
        turn := board.turn
        hp := board.engineState.hp
        maxHp := board.engineState.maxHp
        block := board.engineState.block
        energy := board.engineState.energy
        stars := board.engineState.stars
        potions := board.engineState.potions
        hand := board.engineState.hand
        drawPile := board.engineState.drawPile
        discardPile := board.engineState.discardPile
        exhaustPile := board.engineState.exhaustPile
        playPile := board.engineState.playPile
        playerPowers := key.playerPowers
        orbSlots := board.engineState.orbSlots
        orbs := board.engineState.orbs
        pendingChoice := board.engineState.pendingChoice.map pendingChoiceStateKey
        enemies := key.enemies
        relics := board.engineState.relics.map RelicState.key
        seed := board.engineState.seed
        shuffleRngSeed := board.shuffleRngSeed } := by
  rcases (Except.bind_eq_ok _ _ _).mp h with ⟨powers, hpowers, h⟩
  rcases (Except.bind_eq_ok _ _ _).mp h with ⟨enemies, henemies, h⟩
  cases h
  exact ⟨hpowers, henemies, rfl⟩

/-- Options with one key and one enchantment are one card. -/
theorem mapM_optionInstance_eq {options options' : List OptionState}
    (hkeys : options.map OptionState.key = options'.map OptionState.key)
    (henchantments : options.map OptionState.enchantment = options'.map OptionState.enchantment) :
    options.mapM OptionState.instance = options'.mapM OptionState.instance := by
  have hinstance : ∀ option : OptionState, option.instance =
      (fun seen : OptionKey × Option EnchantmentState => cardInstance seen.1.id seen.1.upgraded
        seen.1.upgradeLevel seen.1.tinkerTimeType seen.1.tinkerTimeRider seen.2)
        (option.key, option.enchantment) := fun _ => rfl
  have hpairs : ∀ xs : List OptionState, xs.mapM OptionState.instance =
      ((xs.map OptionState.key).zip (xs.map OptionState.enchantment)).mapM
        fun seen => cardInstance seen.1.id seen.1.upgraded seen.1.upgradeLevel
          seen.1.tinkerTimeType seen.1.tinkerTimeRider seen.2 := by
    intro xs
    rw [List.zip_map', List.mapM_map]
    rfl
  rw [hpairs options, hpairs options', hkeys, henchantments]

/-- A pending choice is rebuilt from its key and the enchantments it offers. -/
theorem pendingChoiceScenario_eq {pending pending' : Option PendingChoiceState}
    (hkey : pending.map pendingChoiceStateKey = pending'.map pendingChoiceStateKey)
    (henchantments : (pending.elim [] PendingChoiceState.options).map OptionState.enchantment =
      (pending'.elim [] PendingChoiceState.options).map OptionState.enchantment) :
    pendingChoiceScenario pending = pendingChoiceScenario pending' := by
  cases pending with
  | none =>
      cases pending' with
      | none => rfl
      | some pending' => cases hkey
  | some pending =>
      cases pending' with
      | none => cases hkey
      | some pending' =>
          have hkey := Option.some.inj hkey
          have htype : pending.choiceType = pending'.choiceType :=
            congrArg PendingChoiceKey.choiceType hkey
          have hscope : pending.scope = pending'.scope := congrArg PendingChoiceKey.scope hkey
          have hrestorable : pending.scenarioRestorable = pending'.scenarioRestorable :=
            congrArg PendingChoiceKey.scenarioRestorable hkey
          have hmin : pending.minSelect = pending'.minSelect :=
            congrArg PendingChoiceKey.minSelect hkey
          have hmax : pending.maxSelect = pending'.maxSelect :=
            congrArg PendingChoiceKey.maxSelect hkey
          have hoptions : pending.options.map OptionState.key =
              pending'.options.map OptionState.key := congrArg PendingChoiceKey.options hkey
          unfold pendingChoiceScenario
          simp only [htype, hscope, hrestorable, hmin, hmax,
            mapM_optionInstance_eq hoptions henchantments]

theorem length_stableMembers (fields : Fields) : (stableMembers fields).length = fields.length := by
  induction fields with
  | nil => rfl
  | cons m rest ih => rw [stableMembers, List.length_cons, List.length_cons, ih]

/-- Properties that look alike are there together. -/
theorem isEmpty_of_stableProperties {fields fields' : Fields}
    (h : stableProperties fields = stableProperties fields') :
    fields.isEmpty = fields'.isEmpty := by
  have hlength : ∀ f : Fields, (stableProperties f).length = f.length := by
    intro f
    have hperm := (Json.keys_sortKeysFields f).length_eq
    rw [List.length_map, List.length_map] at hperm
    rw [stableProperties, length_stableMembers, hperm]
  have heq : fields.length = fields'.length := by rw [← hlength, h, hlength]
  cases fields <;> cases fields' <;> simp_all

/-- Relics with one key are given alike. -/
theorem relicStacks_same {relics relics' : List RelicState}
    (h : relics.map RelicState.key = relics'.map RelicState.key) :
    (relicStacks relics).1 = (relicStacks relics').1 ∧
      List.Forall₂ SameRelicStack (relicStacks relics).2 (relicStacks relics').2 := by
  induction relics generalizing relics' with
  | nil =>
      cases relics' with
      | nil => exact ⟨rfl, .nil⟩
      | cons r' rest' => cases h
  | cons r rest ih =>
      cases relics' with
      | nil => cases h
      | cons r' rest' =>
          rw [List.map_cons, List.map_cons, List.cons.injEq] at h
          have hid : r.id = r'.id := congrArg RelicKey.id h.1
          have hproperties : stableProperties (r.savedProperties.getD []) =
              stableProperties (r'.savedProperties.getD []) :=
            congrArg RelicKey.savedProperties h.1
          have hempty := isEmpty_of_stableProperties hproperties
          rcases ih h.2 with ⟨hplain, hstacks⟩
          unfold relicStacks at hplain hstacks ⊢
          dsimp only at hplain hstacks ⊢
          rw [List.filterMap_cons, List.filterMap_cons, List.filterMap_cons, List.filterMap_cons,
            ← hempty, ← hid]
          by_cases hnone : (r.savedProperties.getD []).isEmpty = true
          · simp only [if_pos hnone]
            exact ⟨by rw [hplain], hstacks⟩
          · simp only [if_neg hnone]
            exact ⟨hplain, .cons ⟨hid ▸ rfl, hproperties⟩ hstacks⟩

/-- Enemies with one key live together, and are rebuilt alike. -/
theorem enemyScenario_agree {enemy enemy' : EnemyState} {key : EnemyKey}
    (h : enemy.key = .ok key) (h' : enemy'.key = .ok key) :
    enemy.lives = enemy'.lives ∧
      Except.Agree SameEnemy (enemyScenario enemy) (enemyScenario enemy') := by
  rcases (Except.bind_eq_ok _ _ _).mp h with ⟨powers, hpowers, h⟩
  rcases (Except.bind_eq_ok _ _ _).mp h' with ⟨powers', hpowers', h'⟩
  cases h
  injection Except.ok.inj h' with hid hhp hmaxHp hblock halive hstate hkey hslot hlog
  subst hkey
  have hperm := perm_of_powerTuple hpowers hpowers'
  refine ⟨by unfold EnemyState.lives; rw [halive], ?_⟩
  unfold enemyScenario
  refine (Except.Agree.mapM_perm powerStack hperm).bind fun built built' hbuilt => ?_
  refine Except.Agree.pure ⟨?_, hbuilt⟩
  rw [hid, hhp, hmaxHp, hblock, hstate, hslot, hlog]

/-- Boards with one key are rebuilt alike, where their choices offer cards of the same
    enchantments. -/
theorem buildScenarioFromState_agree {board board' : BoardState} {key : Key}
    (h : battleStateKey board = .ok key) (h' : battleStateKey board' = .ok key)
    (henchantments : optionEnchantments board = optionEnchantments board') :
    Except.Agree SameScenario (buildScenarioFromState board) (buildScenarioFromState board') := by
  -- Both boards have a key, so their powers and enemies have one, and the keys agree part by
  -- part.
  rcases battleStateKey_eq_ok h with ⟨hpowers, henemies, hkey⟩
  rcases battleStateKey_eq_ok h' with ⟨hpowers', henemies', hkey'⟩
  have hsame := hkey.symm.trans hkey'
  injection hsame with hturn hhp hmaxHp hblock henergy hstars hpotions hhand hdraw hdiscard hexhaust
    hplay _ horbSlots horbs hpending _ hrelics hseed hshuffle
  -- The key has no enchantments of the options; these agree by assumption.
  have hchoice := pendingChoiceScenario_eq hpending henchantments
  have hplayer := perm_of_powerTuple hpowers hpowers'
  have hall := Except.forall₂_of_mapM_eq henemies henemies'
  have hliving := forall₂_filter (p := EnemyState.lives) hall
    fun e e' ⟨key, he, he'⟩ => (enemyScenario_agree he he').1
  rcases relicStacks_same hrelics with ⟨hplain, hstacks⟩
  unfold buildScenarioFromState
  dsimp only
  -- The piles are read off the key in order, so the two scenarios begin alike.
  rw [← hhand, ← hdraw, ← hdiscard, ← hexhaust, ← hchoice]
  refine .bind_same _ fun handCards => .bind_same _ fun drawPileCards => ?_
  refine .bind_same _ fun discardPileCards => .bind_same _ fun exhaustPileCards => ?_
  refine .bind_same _ fun pendingChoice => ?_
  -- The powers are in another order at most, and so is what is built from them.
  refine (Except.Agree.mapM_perm powerStack hplayer).bind fun built built' hbuilt => ?_
  refine (Except.Agree.mapM_forall₂ hliving fun e e' ⟨key, he, he'⟩ =>
    (enemyScenario_agree he he').2).bind fun enemies enemies' hscenarios => ?_
  -- Both boards have living enemies or neither has.
  have hempty : enemies.isEmpty = enemies'.isEmpty := by
    cases hscenarios <;> rfl
  rw [hempty]
  split
  · trivial
  · refine Except.Agree.pure ⟨?_, hbuilt, hstacks, hscenarios⟩
    rw [hhp, hmaxHp, hpotions, horbs, horbSlots, henergy, hstars, hblock, hplain, hshuffle, hseed]

end Soundness

/-!
### The law

Two boards with one key make the same scenario, and the two things the key leaves out.
-/

section Law

/-- For every two boards with one key, whose choices offer cards of the same
    enchantments: neither can be rebuilt, or both are and the scenarios are equal but for
    the character, the step count, the order of powers, and what a key does not see of a
    saved property. The key of a board is computed wherever the powers of each creature
    have keys that are in order. -/
theorem same_scenario_of_same_key :
    (∀ (board board' : BoardState) (key : Key), battleStateKey board = .ok key →
      battleStateKey board' = .ok key → optionEnchantments board = optionEnchantments board' →
        Except.Agree SameScenario (buildScenarioFromState board) (buildScenarioFromState board')) ∧
    ∀ board, OrderedBoard board → ∃ key, battleStateKey board = .ok key :=
  ⟨fun _ _ _ => buildScenarioFromState_agree, fun _ => battleStateKey_isOk_iff.mpr⟩

/-- A board with one enemy, at a step, with powers. -/
private def oneEnemyBoard (stepIndex : Int) (powers : List PowerState) : BoardState where
  engineState :=
    { characterId := "IRONCLAD", hp := 70, maxHp := 80, block := some 0, energy := some 3
      stars := none, stepIndex := some stepIndex, seed := some 1, potions := [], hand := []
      drawPile := [], discardPile := [], exhaustPile := [], playPile := []
      playerPowers := powers, orbSlots := none, orbs := [], pendingChoice := none
      enemies := [⟨"CULTIST", 40, some 50, some 0, some true, none, [], none, []⟩]
      relics := [] }
  turn := 1
  shuffleRngSeed := none

/-- Two of strength. -/
private def strength : PowerState := ⟨"STRENGTH_POWER", 2, none⟩

/-- One of weakness. -/
private def weak : PowerState := ⟨"WEAK_POWER", 1, none⟩

/-- Both boards of a merge, in the order in which their powers came. -/
theorem same_scenario_of_same_key_powers :
    Except.Agree SameScenario (buildScenarioFromState (oneEnemyBoard 4 [strength, weak]))
      (buildScenarioFromState (oneEnemyBoard 4 [weak, strength])) ∧
    ∃ key, battleStateKey (oneEnemyBoard 4 [strength, weak]) = .ok key := by
  rcases same_scenario_of_same_key with ⟨hsame, hkey⟩
  exact ⟨hsame (oneEnemyBoard 4 [strength, weak]) (oneEnemyBoard 4 [weak, strength]) _ rfl rfl rfl,
    hkey (oneEnemyBoard 4 [strength, weak]) (by decide)⟩

/-- The key sees neither the order of the powers nor the step count, and both are
    rebuilt. -/
theorem same_key_other_scenario :
    (battleStateKey (oneEnemyBoard 4 [strength, weak]) =
        battleStateKey (oneEnemyBoard 4 [weak, strength]) ∧
      (battleStateKey (oneEnemyBoard 4 [strength, weak])).toOption.isSome ∧
      (buildScenarioFromState (oneEnemyBoard 4 [strength, weak])).toOption ≠
        (buildScenarioFromState (oneEnemyBoard 4 [weak, strength])).toOption) ∧
    battleStateKey (oneEnemyBoard 4 [strength]) = battleStateKey (oneEnemyBoard 5 [strength]) ∧
      (battleStateKey (oneEnemyBoard 4 [strength])).toOption.isSome ∧
      (buildScenarioFromState (oneEnemyBoard 4 [strength])).toOption ≠
        (buildScenarioFromState (oneEnemyBoard 5 [strength])).toOption := by
  exact ⟨⟨rfl, rfl, by decide⟩, rfl, rfl, by decide⟩

end Law

end BattleStateKey

end Combat

end STS2RL
