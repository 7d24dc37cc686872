import Mathlib.Data.List.Basic

/-!
# Floor States

The state of the player before each fight of a recorded run, replayed from the
run's log. The log never names a physical card: a removal gives a card id and
the floor the card came in on, an upgrade or a downgrade gives the id alone. The
replay settles every such reference on the first card of the deck that fits.

What could not be settled, or was settled by a guess, is written down as a
warning, and the warnings decide how the encounter is labelled.

## Main definitions

* `ReplayState`: The running state; `start` is that of a new run.
* `ReplayState.addCard`, `removeCard`, `upgradeCard`, `downgradeCard`: What one
  logged reference does.
* `ReplayState.applyPointStats`: What one map point does.
* `reconstructEncountersForRun`: The states before the fights of a run.
* `classifyRestoreStatus`: The label of an encounter.

## Theorems

* `fits_iff`: What a card that fits a reference is like.
* `changeFirst_eq`: The first card that fits is changed where it lies.
* `removalCandidates_id`: A removal only considers cards of its id.
-/

namespace STS2RL

namespace FloorState

/-- `strip_prefix`. -/
def stripPrefix (value pre : String) : String :=
  if pre.toList.isPrefixOf value.toList then String.ofList (value.toList.drop pre.length)
  else value

/-! ### Tinker Time -/

/-- What Tinker Time made of a `MAD_SCIENCE`. -/
structure TinkerTime where
  tinkerTimeType : String
  tinkerTimeRider : String
  deriving DecidableEq, Repr

/-- `TYPE_INT_TO_NAME`. -/
def typeIntToName : Int → Option String
  | 1 => some "Attack"
  | 2 => some "Skill"
  | 3 => some "Power"
  | _ => none

/-- `RIDER_INT_TO_NAME`. -/
def riderIntToName : Int → Option String
  | 1 => some "Sapping"
  | 2 => some "Violence"
  | 3 => some "Choking"
  | 4 => some "Energized"
  | 5 => some "Wisdom"
  | 6 => some "Chaos"
  | 7 => some "Expertise"
  | 8 => some "Curious"
  | 9 => some "Improvement"
  | _ => none

/-- `TYPE_TITLE_TO_NAME`. -/
def typeTitleToName : List (String × String) :=
  [("TINKER_TIME.pages.CHOOSE_CARD_TYPE.options.ATTACK.title", "Attack"),
    ("TINKER_TIME.pages.CHOOSE_CARD_TYPE.options.SKILL.title", "Skill"),
    ("TINKER_TIME.pages.CHOOSE_CARD_TYPE.options.POWER.title", "Power")]

/-- `RIDER_TITLE_TO_NAME`. -/
def riderTitleToName : List (String × String) :=
  [("TINKER_TIME.pages.CHOOSE_RIDER.options.SAPPING.title", "Sapping"),
    ("TINKER_TIME.pages.CHOOSE_RIDER.options.VIOLENCE.title", "Violence"),
    ("TINKER_TIME.pages.CHOOSE_RIDER.options.CHOKING.title", "Choking"),
    ("TINKER_TIME.pages.CHOOSE_RIDER.options.ENERGIZED.title", "Energized"),
    ("TINKER_TIME.pages.CHOOSE_RIDER.options.WISDOM.title", "Wisdom"),
    ("TINKER_TIME.pages.CHOOSE_RIDER.options.CHAOS.title", "Chaos"),
    ("TINKER_TIME.pages.CHOOSE_RIDER.options.EXPERTISE.title", "Expertise"),
    ("TINKER_TIME.pages.CHOOSE_RIDER.options.CURIOUS.title", "Curious"),
    ("TINKER_TIME.pages.CHOOSE_RIDER.options.IMPROVEMENT.title", "Improvement")]

/-- A logged card. `props` are the named integers of its payload. -/
structure CardRef where
  id : String
  floorAddedToDeck : Option Int := none
  currentUpgradeLevel : Option Int := none
  props : List (String × Int) := []
  deriving DecidableEq, Repr

/-- The last integer stored under a name, as a dictionary keeps it. -/
def CardRef.intProp (cardRef : CardRef) (name : String) : Option Int :=
  ((cardRef.props.filter fun entry => entry.1 = name).getLast?).map Prod.snd

/-- `mad_science_state_from_props`. -/
def madScienceStateFromProps (cardRef : CardRef) : Option TinkerTime :=
  match (cardRef.intProp "TinkerTimeType").bind typeIntToName,
      (cardRef.intProp "TinkerTimeRider").bind riderIntToName with
  | some typeName, some riderName => some ⟨typeName, riderName⟩
  | _, _ => none

/-- `mad_science_state_from_event_choices`, over the title keys of the choices. -/
def madScienceStateFromEventChoices (eventChoices : List String) : Option TinkerTime :=
  match eventChoices.findSome? fun key => typeTitleToName.lookup key,
      eventChoices.findSome? fun key => riderTitleToName.lookup key with
  | some typeName, some riderName => some ⟨typeName, riderName⟩
  | _, _ => none

/-- The words a warning starts with. -/
inductive WarningLabel where
  | ambiguous
  | notFound
  | conflict
  | missing
  deriving DecidableEq, Repr

/-- A warning, written as the label, a colon and the message. -/
structure Warning where
  label : WarningLabel
  message : String
  deriving DecidableEq, Repr

/-- How a warning begins. -/
def WarningLabel.text : WarningLabel → String
  | .ambiguous => "AMBIGUOUS"
  | .notFound => "NOTFOUND"
  | .conflict => "CONFLICT"
  | .missing => "MISSING"

/-- A warning, as it is reported. -/
def Warning.text (warning : Warning) : String :=
  warning.label.text ++ ": " ++ warning.message

/-- `reconcile_mad_science_state`: the state, or the label of what went wrong. -/
def reconcileMadScienceState (cardRef : CardRef) (eventChoices : List String) :
    Except WarningLabel TinkerTime :=
  match madScienceStateFromProps cardRef, madScienceStateFromEventChoices eventChoices with
  | some propsState, some eventState =>
      if propsState = eventState then .ok propsState else .error .conflict
  | some propsState, none => .ok propsState
  | none, some eventState => .ok eventState
  | none, none => .error .missing

/-! ### The running state -/

/-- A card of the reconstructed deck. -/
structure Card where
  id : String
  floorAddedToDeck : Option Int
  upgraded : Bool
  tinkerTime : Option TinkerTime := none
  deriving DecidableEq, Repr

/-- Where the hit points of a state come from. -/
inductive HpSource where
  | characterBaseStartingHp
  | unavailableUnknownCharacter
  | mapPointHistory
  | unavailableMissingField
  deriving DecidableEq, Repr

/-- `CHARACTER_STARTING_HP`. -/
def characterStartingHp : List (String × Int) :=
  [("IRONCLAD", 80), ("SILENT", 70), ("DEFECT", 75), ("REGENT", 75), ("NECROBINDER", 66)]

/-- `CHARACTER_STARTING_DECK`. -/
def characterStartingDeck : List (String × List String) :=
  [("IRONCLAD",
      List.replicate 5 "STRIKE_IRONCLAD" ++ List.replicate 4 "DEFEND_IRONCLAD" ++ ["BASH"]),
    ("SILENT",
      List.replicate 5 "STRIKE_SILENT" ++ List.replicate 5 "DEFEND_SILENT" ++
        ["NEUTRALIZE", "SURVIVOR"]),
    ("DEFECT",
      List.replicate 4 "STRIKE_DEFECT" ++ List.replicate 4 "DEFEND_DEFECT" ++
        ["ZAP", "DUALCAST"]),
    ("REGENT",
      List.replicate 4 "STRIKE_REGENT" ++ List.replicate 4 "DEFEND_REGENT" ++
        ["FALLING_STAR", "VENERATE"]),
    ("NECROBINDER",
      List.replicate 4 "STRIKE_NECROBINDER" ++ List.replicate 4 "DEFEND_NECROBINDER" ++
        ["BODYGUARD", "UNLEASH"])]

/-- `CHARACTER_STARTING_RELIC`. -/
def characterStartingRelic : List (String × String) :=
  [("IRONCLAD", "BURNING_BLOOD"), ("SILENT", "RING_OF_THE_SNAKE"), ("DEFECT", "CRACKED_CORE"),
    ("REGENT", "DIVINE_RIGHT"), ("NECROBINDER", "BOUND_PHYLACTERY")]

/-- What the log amounts to up to a floor. -/
structure ReplayState where
  deck : List Card
  relics : List String
  potions : List String
  gold : Int
  currentHp : Option Int
  maxHp : Option Int
  hpSource : HpSource
  warnings : List Warning
  deriving DecidableEq, Repr

namespace ReplayState

/-- A card the player starts with. -/
def startingCard (cardId : String) : Card := ⟨cardId, some 1, false, none⟩

/-- `ReplayState.__init__`. -/
def start (character : String) (ascension : Option Int) : ReplayState :=
  let startingHp := characterStartingHp.lookup character
  { deck := ((characterStartingDeck.lookup character).getD []).map startingCard ++
      -- granted at the start of a run and never logged as gained
      (if ascension.any fun level => 5 ≤ level ∧ level ≤ 10 then [startingCard "ASCENDERS_BANE"]
       else [])
    relics := (characterStartingRelic.lookup character).toList
    potions := []
    gold := 0
    currentHp := startingHp
    maxHp := startingHp
    hpSource := if startingHp.isSome then .characterBaseStartingHp
      else .unavailableUnknownCharacter
    warnings := if (characterStartingDeck.lookup character).isSome then []
      else [⟨.notFound, "unknown character '" ++ character ++
        "' - no starting deck/relic seed available"⟩] }

/-- A warning is added. -/
def warn (state : ReplayState) (label : WarningLabel) (message : String) : ReplayState :=
  { state with warnings := state.warnings ++ [⟨label, message⟩] }

/-- What `_find_card_candidates` asks of a card. -/
def fits (entryId : String) (floor : Option Int) (upgraded : Option Bool) (card : Card) : Bool :=
  card.id = entryId && (floor.all fun f => card.floorAddedToDeck = some f) &&
    (upgraded.all fun u => card.upgraded = u)

/-- `_find_card_candidates`. -/
def findCardCandidates (deck : List Card) (entryId : String) (floor : Option Int)
    (upgraded : Option Bool) : List Card :=
  deck.filter (fits entryId floor upgraded)

theorem fits_iff {entryId : String} {floor : Option Int} {upgraded : Option Bool} {card : Card} :
    fits entryId floor upgraded card = true ↔ card.id = entryId ∧
      (∀ f, floor = some f → card.floorAddedToDeck = some f) ∧
      ∀ u, upgraded = some u → card.upgraded = u := by
  simp [fits, Option.all_eq_true, and_assoc]

/-- The card a reference adds, Tinker Time aside. -/
def cardOf (cardRef : CardRef) : Card :=
  { id := stripPrefix cardRef.id "CARD."
    floorAddedToDeck := cardRef.floorAddedToDeck
    upgraded := cardRef.currentUpgradeLevel.any (· ≠ 0) }

/-- `add_card`. -/
def addCard (state : ReplayState) (cardRef : CardRef) (eventChoices : List String) :
    ReplayState :=
  let card := cardOf cardRef
  if card.id = "MAD_SCIENCE" then
    match reconcileMadScienceState cardRef eventChoices with
    | .ok tinkerTime =>
        { state with deck := state.deck ++ [{ card with tinkerTime := some tinkerTime }] }
    | .error status =>
        let warned := state.warn status
          "MAD_SCIENCE added without reconstructable Tinker Time state"
        { warned with deck := warned.deck ++ [card] }
  else { state with deck := state.deck ++ [card] }

/-- The cards a removal considers: those of the id and the floor, and where
    there are none the floor is dropped. -/
def removalCandidates (deck : List Card) (entryId : String) (floor : Option Int) : List Card :=
  match findCardCandidates deck entryId floor none with
  | [] => if floor.isSome then findCardCandidates deck entryId none none else []
  | candidates => candidates

/-- A candidate for removal is in the deck, under the id. -/
theorem removalCandidates_id {deck : List Card} {entryId : String} {floor : Option Int}
    {card : Card} (h : card ∈ removalCandidates deck entryId floor) :
    card ∈ deck ∧ card.id = entryId := by
  have of_found : ∀ {f : Option Int}, card ∈ findCardCandidates deck entryId f none →
      card ∈ deck ∧ card.id = entryId := by
    intro f hcard
    rw [findCardCandidates, List.mem_filter] at hcard
    exact ⟨hcard.1, (fits_iff.1 hcard.2).1⟩
  rw [removalCandidates] at h
  split at h
  · -- the floor pin is dropped
    split at h
    · exact of_found h
    · simp at h
  · exact of_found h

/-- `remove_card`. -/
def removeCard (state : ReplayState) (cardRef : CardRef) : ReplayState :=
  let entryId := stripPrefix cardRef.id "CARD."
  match removalCandidates state.deck entryId cardRef.floorAddedToDeck with
  | [] => state.warn .notFound ("cards_removed referenced " ++ entryId ++
      " with no matching instance in reconstructed deck")
  | card :: others =>
      -- two values of `upgraded` among the candidates
      let warned := if others.any fun other => other.upgraded ≠ card.upgraded then
          state.warn .ambiguous ("cards_removed referenced " ++ entryId ++ " with " ++
            toString (others.length + 1) ++ " candidate instances of DIFFERING upgraded state" ++
            " - source log doesn't say which was removed, so the resulting" ++
            " upgraded/unupgraded split for this card id may not match the true history;" ++
            " picked the first deterministically")
        else state
      { warned with deck := warned.deck.erase card }

/-- The first card that fits, changed in place. -/
def changeFirst (fit : Card → Bool) (change : Card → Card) : List Card → List Card
  | [] => []
  | card :: rest => if fit card then change card :: rest else card :: changeFirst fit change rest

/-- The first card that fits is changed where it lies. -/
theorem changeFirst_eq {fit : Card → Bool} (change : Card → Card) :
    ∀ {deck : List Card} {card : Card} {others : List Card},
      deck.filter fit = card :: others →
      ∃ before after, deck = before ++ card :: after ∧ fit card = true ∧
        changeFirst fit change deck = before ++ change card :: after
  | [], _, _, h => by simp at h
  | head :: rest, card, others, h => by
    by_cases hfit : fit head = true
    · rw [List.filter_cons_of_pos hfit] at h
      have hhead : head = card := (List.cons.inj h).1
      subst hhead
      exact ⟨[], rest, rfl, hfit, by simp [changeFirst, hfit]⟩
    · rw [List.filter_cons_of_neg hfit] at h
      rcases changeFirst_eq change h with ⟨before, after, hdeck, hcard, hchanged⟩
      exact ⟨head :: before, after, by rw [hdeck, List.cons_append], hcard,
        by simp [changeFirst, hfit, hchanged]⟩

/-- Upgrading and downgrading: the first card of the id in the other state is
    turned over, and `field` and `wanted` are what the warning says otherwise. -/
def turnCard (target : Bool) (field wanted : String) (state : ReplayState)
    (entryIdRaw : String) : ReplayState :=
  let entryId := stripPrefix entryIdRaw "CARD."
  match findCardCandidates state.deck entryId none (some !target) with
  | [] => state.warn .notFound
      (field ++ " referenced " ++ entryId ++ " with no " ++ wanted ++ " instance found")
  | _ :: _ =>
      let turned := changeFirst (fits entryId none (some !target))
        (fun card => { card with upgraded := target }) state.deck
      { state with deck := turned }

/-- `upgrade_card`. -/
def upgradeCard : ReplayState → String → ReplayState :=
  turnCard true "upgraded_cards" "unupgraded"

/-- `downgrade_card`. -/
def downgradeCard : ReplayState → String → ReplayState :=
  turnCard false "downgraded_cards" "upgraded"

/-- A picked relic. One that is held already is not held twice. -/
def pickRelic (state : ReplayState) (choice : String) : ReplayState :=
  let entryId := stripPrefix choice "RELIC."
  if entryId ∈ state.relics then state else { state with relics := state.relics ++ [entryId] }

/-- A relic is lost, if it is held. -/
def removeRelic (state : ReplayState) (relic : String) : ReplayState :=
  let entryId := stripPrefix relic "RELIC."
  if entryId ∈ state.relics then { state with relics := state.relics.erase entryId }
  else state.warn .notFound ("relics_removed referenced " ++ entryId ++ " not currently held")

/-- A potion is gained. -/
def pickPotion (state : ReplayState) (choice : String) : ReplayState :=
  { state with potions := state.potions ++ [stripPrefix choice "POTION."] }

/-- A potion that leaves the belt: used or discarded, as `field` says. -/
def losePotion (field : String) (state : ReplayState) (potion : String) : ReplayState :=
  let entryId := stripPrefix potion "POTION."
  if entryId ∈ state.potions then { state with potions := state.potions.erase entryId }
  else state.warn .notFound (field ++ " referenced " ++ entryId ++ " not currently held")

/-- The gold a map point left the player with, where it is logged. -/
def setGold (state : ReplayState) : Option Int → ReplayState
  | some amount => { state with gold := amount }
  | none => state

/-- The hit points a map point left the player with. -/
def setHp (state : ReplayState) : Option (Int × Int) → ReplayState
  | some (currentHp, maxHp) =>
      { state with currentHp := some currentHp, maxHp := some maxHp
                   hpSource := .mapPointHistory }
  | none =>
      let warned := state.warn .notFound ("player_stats point missing current_hp/max_hp" ++
        " - HP status degrades to unavailable from here on")
      { warned with currentHp := none, maxHp := none, hpSource := .unavailableMissingField }

end ReplayState

/-! ### Map points -/

/-- A choice that was offered, and whether it was taken. -/
structure Offer where
  choice : String
  wasPicked : Bool
  deriving DecidableEq, Repr

/-- The statistics of one map point. -/
structure PointStats where
  eventChoices : List String := []
  cardsGained : List CardRef := []
  cardsRemoved : List CardRef := []
  cardsTransformed : List (CardRef × CardRef) := []
  upgradedCards : List String := []
  downgradedCards : List String := []
  relicChoices : List Offer := []
  relicsRemoved : List String := []
  potionChoices : List Offer := []
  potionUsed : List String := []
  potionDiscarded : List String := []
  currentGold : Option Int := none
  hp : Option (Int × Int) := none
  deriving DecidableEq, Repr

namespace ReplayState

/-- `apply_point_stats`, section by section of the statistics. -/
def applyPointStats (state : ReplayState) (stats : PointStats) : ReplayState :=
  let s := stats.cardsGained.foldl (fun s c => s.addCard c stats.eventChoices) state
  let s := stats.cardsRemoved.foldl removeCard s
  let s := stats.cardsTransformed.foldl
    (fun s t => (s.removeCard t.1).addCard t.2 stats.eventChoices) s
  let s := stats.upgradedCards.foldl upgradeCard s
  let s := stats.downgradedCards.foldl downgradeCard s
  let s := stats.relicChoices.foldl
    (fun s offer => if offer.wasPicked then s.pickRelic offer.choice else s) s
  let s := stats.relicsRemoved.foldl removeRelic s
  let s := stats.potionChoices.foldl
    (fun s offer => if offer.wasPicked then s.pickPotion offer.choice else s) s
  let s := stats.potionUsed.foldl (losePotion "potion_used") s
  let s := stats.potionDiscarded.foldl (losePotion "potion_discarded") s
  (s.setGold stats.currentGold).setHp stats.hp

end ReplayState

/-! ### Runs and their encounters -/

/-- A room, as the log names it. -/
structure Room where
  roomType : String
  modelId : Option String := none
  monsterIds : List String := []
  deriving DecidableEq, Repr

/-- A map point. Without statistics it counts as one with empty statistics. -/
structure MapPoint where
  rooms : List Room
  playerStats : Option PointStats
  deriving DecidableEq, Repr

/-- A recorded run, without what is only copied into the encounters. -/
structure RunLog where
  character : String
  ascension : Option Int
  mapPointHistory : List (List MapPoint)
  deriving DecidableEq, Repr

/-- What is known of the hit points before a combat. -/
inductive HpStatus where
  | exact
  | inconsistent
  | unavailable
  deriving DecidableEq, Repr

/-- The state before a fight. -/
structure Encounter where
  mapPointIndex : Nat
  actIndex : Nat
  floor : Nat
  encounterId : Option String
  monsterIds : List String
  deck : List Card
  relics : List String
  potions : List String
  gold : Int
  playerHp : Option Int
  playerMaxHp : Option Int
  hpRestoreStatus : HpStatus
  hpRestoreSource : HpSource
  warnings : List Warning
  deriving DecidableEq, Repr

/-- `_classify_hp_status`. -/
def classifyHpStatus (state : ReplayState) : HpStatus :=
  match state.currentHp, state.maxHp with
  | some hp, some maxHp =>
      if maxHp < hp ∨ hp < 0 ∨ maxHp ≤ 0 then .inconsistent
      else match state.hpSource with
        | .characterBaseStartingHp | .mapPointHistory => .exact
        | .unavailableUnknownCharacter | .unavailableMissingField => .unavailable
  | _, _ => .unavailable

/-- The rooms in which a combat is fought. -/
def combatRoomTypes : List String := ["monster", "elite", "boss"]

/-- One element of `reconstruct_encounters_for_run`'s result. -/
def encounterAt (state : ReplayState) (mapPointIndex actIndex floorIndex : Nat) (room : Room) :
    Encounter :=
  { mapPointIndex, actIndex, floor := floorIndex + 1
    encounterId := room.modelId
    monsterIds := room.monsterIds.map (stripPrefix · "MONSTER.")
    deck := state.deck, relics := state.relics, potions := state.potions, gold := state.gold
    playerHp := state.currentHp, playerMaxHp := state.maxHp
    hpRestoreStatus := classifyHpStatus state
    hpRestoreSource := state.hpSource
    warnings := state.warnings }

/-- The encounters of the points that are left, with the indices they carry. -/
def encountersFrom (state : ReplayState) (mapPointIndex : Nat) :
    List ((Nat × Nat) × MapPoint) → List Encounter
  | [] => []
  | ((actIndex, floorIndex), point) :: rest =>
      -- the state before the point's own statistics are applied
      ((point.rooms.filter fun room => room.roomType ∈ combatRoomTypes).map
        (encounterAt state mapPointIndex actIndex floorIndex)) ++
        encountersFrom (state.applyPointStats (point.playerStats.getD {})) (mapPointIndex + 1) rest

/-- The points of a run in order, with the index of the act and of the floor. -/
def RunLog.points (run : RunLog) : List ((Nat × Nat) × MapPoint) :=
  run.mapPointHistory.zipIdx.flatMap fun act =>
    act.1.zipIdx.map fun point => ((act.2, point.2), point.1)

/-- The state that a run begins with. -/
def RunLog.start (run : RunLog) : ReplayState :=
  .start (stripPrefix run.character "CHARACTER.") run.ascension

/-- `reconstruct_encounters_for_run`. -/
def reconstructEncountersForRun (run : RunLog) : List Encounter :=
  encountersFrom run.start 0 run.points

/-- The canonical ids of the game's content, normalized. -/
structure CanonicalIds where
  cards : List String
  relics : List String
  potions : List String
  monsters : List String

/-- `_normalize_id`. -/
def normalizeId (entryId : String) : String :=
  String.ofList ((entryId.toList.filter (· ≠ '_')).map Char.toLower)

/-- `find_unsupported_ids`. -/
def findUnsupportedIds (ids : CanonicalIds) (encounter : Encounter) : List String :=
  ((encounter.deck.map Card.id).filter (normalizeId · ∉ ids.cards)).map ("card:" ++ ·) ++
    (encounter.relics.filter (normalizeId · ∉ ids.relics)).map ("relic:" ++ ·) ++
    (encounter.potions.filter (normalizeId · ∉ ids.potions)).map ("potion:" ++ ·) ++
    (encounter.monsterIds.filter (normalizeId · ∉ ids.monsters)).map ("monster:" ++ ·)

/-- How far a state can be trusted. -/
inductive RestoreStatus where
  | historyInconsistent
  | unsupportedId
  | ambiguousUpgrade
  | exact
  deriving DecidableEq, Repr

/-- `classify_restore_status`. -/
def classifyRestoreStatus (ids : CanonicalIds) (encounter : Encounter) :
    RestoreStatus × List String :=
  if encounter.hpRestoreStatus = .inconsistent ∨ encounter.hpRestoreStatus = .unavailable ∨
      ∃ warning ∈ encounter.warnings, warning.label = .notFound then (.historyInconsistent, [])
  else
    match findUnsupportedIds ids encounter with
    | [] =>
        if ∃ warning ∈ encounter.warnings, warning.label = .ambiguous then (.ambiguousUpgrade, [])
        else (.exact, [])
    | unsupported => (.unsupportedId, unsupported)

end FloorState

end STS2RL
