import STS2RL.Combat.Snapshot
import STS2RL.Combat.WorkItem

/-!
# Draw-Order Hypotheses

A branch is never evaluated under the real order of the draw pile. A hypothesis
is an order of card ids, generated from what is public, the multiset of ids, and
shuffled by a seed that the snapshot's shuffle stream and the index of the
hypothesis give. Before a branch is restored, the order is written into a copy
of the snapshot: the concrete copies of each card id are handed out in the order
of their identity keys, and the cards that were already seen are put on top.

The hash and the generator that turn a seed into an order are parameters
(`HypothesisRandom`).

## Main definitions

* `generateBeliefHypotheses`: The orders, from what is public.
* `drawPileInstancesForHypothesis`: The cards that make up an order.
* `deriveSubstitutedSnapshot`: The snapshot with the order written in.
* `applyHypothesisToContext`, `buildSingleHypothesisWorkItem`: The branch of one
  hypothesis.
-/

namespace STS2RL

namespace Combat

variable {ρ β : Type}

/-- The hash of a payload as a seed, and the generator: `randrange seed drawn
    bound` is what it gives after the calls with the bounds `drawn`. -/
structure HypothesisRandom where
  seedOf : Json → Nat
  randrange : (seed : Nat) → (drawn : List Nat) → (bound : Nat) → Nat

/-- `SearchHypothesisId`. -/
structure SearchHypothesisId where
  rng : SerializableRngSnapshot
  orderedDrawPileCardIds : List String
  hypothesisIndex : Nat
  deriving DecidableEq

section Hypotheses

/-- `_rng_to_dict`. -/
def SerializableRngSnapshot.asdict (rng : SerializableRngSnapshot) : Json :=
  .obj [jsonMember "Counter" (.int rng.counter), jsonMember "State0" (.int rng.state0),
    jsonMember "State1" (.int rng.state1), jsonMember "State2" (.int rng.state2),
    jsonMember "State3" (.int rng.state3)]

/-- `to_slot_value`, with the hash of the payload. -/
def SearchHypothesisId.toSlotValue {κ : Type} (digests : Digests κ)
    (hypothesis : SearchHypothesisId) : String :=
  "rng-hyp:v1:" ++ digests.sha256Hex (.obj [jsonMember "version" (.int 1),
    jsonMember "hypothesis_index" (.int hypothesis.hypothesisIndex),
    jsonMember "rng" hypothesis.rng.asdict,
    jsonMember "ordered_draw_pile_card_ids"
      (.list (hypothesis.orderedDrawPileCardIds.map fun cardId => .str (.text cardId)))])

/-- How often each text occurs, in the order of the texts. -/
def sortedCounts (texts : List String) : List (String × Nat) :=
  (texts.dedup.insertionSort (· ≤ ·)).map fun text => (text, texts.count text)

/-- `compute_public_multiset`. -/
def computePublicMultiset (snapshot : CombatStateSnapshot ρ) : List (String × Nat) :=
  sortedCounts ((snapshot.cardsInZone "draw_pile").map (·.cardId))

/-- `_canonical_cards_from_multiset`. -/
def canonicalCardsFromMultiset (publicMultiset : List (String × Nat)) : List String :=
  (publicMultiset.insertionSort fun a b => a.1 ≤ b.1).flatMap fun (cardId, count) =>
    List.replicate count cardId

/-- `ordered[i], ordered[j] = ordered[j], ordered[i]`. -/
def swapAt (ordered : List String) (i j : Nat) : List String :=
  match ordered[i]?, ordered[j]? with
  | some a, some b => (ordered.set i b).set j a
  | _, _ => ordered

/-- The Fisher-Yates loop, from a position down to the second. -/
def fisherYates (random : HypothesisRandom) (seed : Nat) :
    (i : Nat) → (drawn : List Nat) → List String → List String
  | 0, _, ordered => ordered
  | i + 1, drawn, ordered =>
      fisherYates random seed i (drawn ++ [i + 2])
        (swapAt ordered (i + 1) (random.randrange seed drawn (i + 2)))

/-- `_shuffle_seed_from_rng`. -/
def shuffleSeedFromRng (random : HypothesisRandom) (rng : SerializableRngSnapshot)
    (hypothesisIndex : Nat) : Nat :=
  random.seedOf (.obj [jsonMember "rng" rng.asdict,
    jsonMember "hypothesis_index" (.int hypothesisIndex)])

/-- One hypothesis of the sequence. -/
def beliefHypothesis (random : HypothesisRandom) (publicMultiset : List (String × Nat))
    (rng : SerializableRngSnapshot) (index : Nat) : SearchHypothesisId :=
  let canonicalCards := canonicalCardsFromMultiset publicMultiset
  { rng
    orderedDrawPileCardIds := fisherYates random (shuffleSeedFromRng random rng index)
      (canonicalCards.length - 1) [] canonicalCards
    hypothesisIndex := index }

/-- `generate_belief_hypotheses`, with one stream for all of them. -/
def generateBeliefHypotheses (random : HypothesisRandom) (publicMultiset : List (String × Nat))
    (count : Nat) (rng : SerializableRngSnapshot) : List SearchHypothesisId :=
  (List.range count).map (beliefHypothesis random publicMultiset rng)

end Hypotheses

section Pins

/-- The draws a prefix has seen, up to the first step that blocks the evidence. -/
def collectVisibleDraws : List ReplayPrefixEntry → VisibleDrawConstraints
  | [] => []
  | entry :: rest =>
      if entry.visibleDrawTrackingBlocked then entry.visibleDrawConstraints
      else entry.visibleDrawConstraints ++ collectVisibleDraws rest

/-- Whether the offsets count up from nought. -/
def isContiguousPrefix (constraints : VisibleDrawConstraints) : Bool :=
  constraints.map Prod.fst = List.range constraints.length

/-- `_pinned_prefix_visible_draw_constraints`. -/
def pinnedPrefixVisibleDrawConstraints (replayPrefix : List ReplayPrefixEntry) :
    Except PyException VisibleDrawConstraints :=
  let constraints := collectVisibleDraws replayPrefix
  if isContiguousPrefix constraints then .ok constraints
  else .error (.valueError
    "visible draw constraints must form one ordered contiguous prefix from Stable-root offset 0")

/-- The ids that are left when the pinned ones are taken out, one by one. -/
def removePinned : (pinned : Nat) → List String → VisibleDrawConstraints →
    Except PyException (List String)
  | _, remaining, [] => .ok remaining
  | pinned, remaining, (offset, key) :: rest =>
      if offset ≠ pinned then
        .error (.valueError "visible draw constraints must be a contiguous prefix")
      else if key.cardId ∉ remaining then
        .error (.valueError ("visible draw constraint requires CardId '" ++ key.cardId ++
          "' absent from the hypothesis"))
      else removePinned (pinned + 1) (remaining.erase key.cardId) rest

/-- `_reorder_hypothesis_for_visible_draw_constraints`. -/
def reorderHypothesis (hypothesis : SearchHypothesisId) (constraints : VisibleDrawConstraints) :
    Except PyException SearchHypothesisId :=
  (removePinned 0 hypothesis.orderedDrawPileCardIds constraints).map fun remaining =>
    { hypothesis with
      orderedDrawPileCardIds := constraints.map (·.2.cardId) ++ remaining }

end Pins

section Allocation

/-- A count, as an error prints it. -/
def countsText (texts : List String) : String :=
  "\x7b" ++ ", ".intercalate ((sortedCounts texts).map fun (text, count) =>
    "'" ++ text ++ "': " ++ toString count) ++ "\x7d"

/-- The pinned keys name cards of the pile, and each one behaviour only. -/
def checkPinnedKeys (rootCards : List CardInstanceSnapshot) (pinnedKeys : List ObservableCardKey) :
    List ObservableCardKey → Except PyException Unit
  | [] => .ok ()
  | key :: rest =>
      let found := rootCards.filter fun card => card.observableCardKey = key
      if found.length < pinnedKeys.count key then
        .error (.valueError
          "pinned observable card state is absent from the root DrawPile in the required count")
      else if (found.map CardInstanceSnapshot.replayInternalKey).dedup.length ≠ 1 then
        .error (.valueError ("pinned observable card state maps to multiple hidden gameplay " ++
          "states; public evidence is insufficient for safe replay materialization"))
      else checkPinnedKeys rootCards pinnedKeys rest

/-- The concrete cards of the pinned keys. -/
def allocatePinned (rootCards : List CardInstanceSnapshot) (orderedCardIds : List String) :
    (usedInstanceIds : List String) → VisibleDrawConstraints →
      Except PyException (List CardInstanceSnapshot)
  | _, [] => .ok []
  | usedInstanceIds, (offset, key) :: rest =>
      match orderedCardIds[offset]? with
      | none => .error ⟨"IndexError", "tuple index out of range"⟩
      | some expectedCardId =>
          if key.cardId ≠ expectedCardId then
            .error (.valueError ("pinned observable card has CardId='" ++ key.cardId ++
              "', but hypothesis position " ++ toString offset ++ " requires '" ++
              expectedCardId ++ "'"))
          else
            match sortedByIdentity (rootCards.filter fun card =>
              card.instanceId ∉ usedInstanceIds ∧ card.observableCardKey = key) with
            | [] => .error (.valueError
                "pinned observable card state was exhausted during concrete allocation")
            | chosen :: _ =>
                (allocatePinned rootCards orderedCardIds (usedInstanceIds ++ [chosen.instanceId])
                  rest).map (chosen :: ·)

/-- The concrete cards of the other positions: of each card id the copies are
    handed out in their order. -/
def allocateTail : List CardInstanceSnapshot → List String →
    Except PyException (List CardInstanceSnapshot)
  | _, [] => .ok []
  | cards, cardId :: rest =>
      match cards.find? fun card => card.cardId = cardId with
      | none => .error (.valueError ("hypothesis concrete-card allocation exhausted CardId '" ++
          cardId ++ "' after observable-state pinning"))
      | some card =>
          (allocateTail (cards.eraseP fun card => card.cardId = cardId) rest).map (card :: ·)

/-- The concrete cards, the pinned ones first. -/
def allocateCards (rootCards : List CardInstanceSnapshot) (orderedCardIds : List String)
    (pinned : VisibleDrawConstraints) : Except PyException (List CardInstanceSnapshot) :=
  match allocatePinned rootCards orderedCardIds [] pinned with
  | .error exc => .error exc
  | .ok pinnedCards =>
      (allocateTail (sortedByIdentity (rootCards.filter fun card =>
          card.instanceId ∉ pinnedCards.map (·.instanceId)))
        (orderedCardIds.drop pinnedCards.length)).map (pinnedCards ++ ·)

/-- `_draw_pile_instances_for_hypothesis`. -/
def drawPileInstancesForHypothesis (rootSnapshot : CombatStateSnapshot ρ)
    (orderedCardIds : List String) (pinned : VisibleDrawConstraints) :
    Except PyException (List CardInstanceSnapshot) :=
  let rootCards := rootSnapshot.cardsInZone "draw_pile"
  let available := rootCards.map (·.cardId)
  if ¬ orderedCardIds.Perm available then
    .error (.valueError ("hypothesis DrawPile multiset does not match root snapshot " ++
      "Player.CardInstances(draw_pile) multiset: requested=" ++ countsText orderedCardIds ++
      ", available=" ++ countsText available))
  else if ¬ isContiguousPrefix pinned then
    .error (.valueError "pinned draw constraints must be an ordered contiguous prefix")
  else
    match checkPinnedKeys rootCards (pinned.map (·.2)) (pinned.map (·.2)).eraseDups with
    | .error exc => .error exc
    | .ok () => allocateCards rootCards orderedCardIds pinned

end Allocation

section Substitution

/-- The records that replace cards, by instance id. A later one replaces an
    earlier one of the same id. -/
def replacementFor (orderedDrawPile : List CardInstanceSnapshot) (instanceId : String) :
    Option CardInstanceSnapshot :=
  ((orderedDrawPile.zipIdx.map fun (card, index) =>
      { card with zone := some "draw_pile", pileIndex := some (index : Int) }).reverse.find?
    fun card => card.instanceId = instanceId)

/-- `derive_substituted_snapshot`. -/
def deriveSubstitutedSnapshot (rootSnapshot : CombatStateSnapshot ρ)
    (hypothesis : SearchHypothesisId) (pinned : VisibleDrawConstraints) :
    Except PyException (CombatStateSnapshot ρ) :=
  match rootSnapshot.shuffle with
  | none => .error (.valueError
      "root_snapshot.Rng.RunRng is missing required \"Shuffle\" stream")
  | some _ =>
      (drawPileInstancesForHypothesis rootSnapshot hypothesis.orderedDrawPileCardIds pinned).map
        fun orderedDrawPile =>
          { rootSnapshot with
            cardInstances := rootSnapshot.cardInstances.map fun card =>
              (replacementFor orderedDrawPile card.instanceId).getD card
            shuffle := some hypothesis.rng }

/-- `with_search_hypothesis`. -/
def withSearchHypothesis (digests : Digests (CombatStateSnapshot ρ))
    (context : DecisionContext (CombatStateSnapshot ρ) β) (hypothesis : SearchHypothesisId) :
    DecisionContext (CombatStateSnapshot ρ) β :=
  { context with searchHypothesisId := some (hypothesis.toSlotValue digests) }

/-- `apply_hypothesis_to_context`. -/
def applyHypothesisToContext (digests : Digests (CombatStateSnapshot ρ))
    (context : DecisionContext (CombatStateSnapshot ρ) β) (hypothesis : SearchHypothesisId) :
    Except PyException (DecisionContext (CombatStateSnapshot ρ) β) :=
  match context.rootSnapshot with
  | .combatStart _ =>
      .error ⟨"TypeError", "Genesis hypotheses must use derive_combat_start_replay_roots()"⟩
  | .roomEntry _ => .error ⟨"KeyError", "'Rng'"⟩
  | .snapshot rootSnapshot =>
      match pinnedPrefixVisibleDrawConstraints context.replayPrefix with
      | .error exc => .error exc
      | .ok constraints =>
          match (if constraints = [] then .ok hypothesis
            else reorderHypothesis hypothesis constraints) with
          | .error exc => .error exc
          | .ok effective =>
              (deriveSubstitutedSnapshot rootSnapshot effective constraints).map fun derived =>
                withSearchHypothesis digests { context with rootSnapshot := .snapshot derived }
                  effective

end Substitution

section Single

/-- The seed of a scenario. -/
def scenarioSeed (scenarioSpec : Json) : Except PyException Int :=
  match (scenarioSpec.fields?.getD []).find? fun m => m.1 = .text "seed" with
  | none => .ok 1
  | some (_, .int seed) => .ok seed
  | some _ => .error ⟨"TypeError", "scenario seed must be an integer"⟩

/-- The scenario under another seed. -/
def withSeed (scenarioSpec : Json) (seed : Int) : Json :=
  let fields := scenarioSpec.fields?.getD []
  if fields.any fun m => m.1 = .text "seed" then
    .obj (fields.map fun m => if m.1 = .text "seed" then jsonMember "seed" (.int seed) else m)
  else .obj (fields ++ [jsonMember "seed" (.int seed)])

/-- `_combat_start_seed_from_root`. -/
def combatStartSeedFromRoot (random : HypothesisRandom) (rootSeed : Int) (hypothesisIndex : Nat) :
    Int :=
  (random.seedOf (.obj [jsonMember "root_seed" (.int rootSeed),
    jsonMember "hypothesis_index" (.int hypothesisIndex)]) % 2 ^ 31 : Nat)

/-- One of `derive_combat_start_replay_roots`. -/
def deriveCombatStartReplayRoot (random : HypothesisRandom) (root : CombatStartReplayRoot)
    (index : Nat) : Except PyException (CombatStartReplayRoot × SearchHypothesisId) :=
  (scenarioSeed root.scenarioSpec).map fun rootSeed =>
    let seed := combatStartSeedFromRoot random rootSeed index
    (⟨withSeed root.scenarioSpec seed⟩,
      { rng := ⟨seed, 0, 0, 0, 0⟩, orderedDrawPileCardIds := [], hypothesisIndex := index })

/-- `build_single_hypothesis_work_item`. -/
def buildSingleHypothesisWorkItem (digests : Digests (CombatStateSnapshot ρ))
    (random : HypothesisRandom) (context : DecisionContext (CombatStateSnapshot ρ) β)
    (candidate : PipelineCandidateRef) (hypothesisIndex : Nat) (workKind : WorkKind) :
    Except PyException (WorkItem (CombatStateSnapshot ρ) β) :=
  match context.rootSnapshot with
  | .roomEntry _ =>
      if hypothesisIndex ≠ 0 then
        .error (.valueError ("root RoomEntryReplayRoot supports only the observed line; " ++
          "hypothesis_index=" ++ toString hypothesisIndex ++ " has no meaning for it"))
      else WorkItem.fromCandidateRef digests context candidate workKind none
  | .combatStart root =>
      match deriveCombatStartReplayRoot random root hypothesisIndex with
      | .error exc => .error exc
      | .ok (derived, hypothesis) =>
          WorkItem.fromCandidateRef digests
            { context with
              rootSnapshot := .combatStart derived
              searchHypothesisId := some (hypothesis.toSlotValue digests) }
            candidate workKind none
  | .snapshot rootSnapshot =>
      match rootSnapshot.shuffle with
      | none => .error ⟨"KeyError", "'Shuffle'"⟩
      | some shuffleRng =>
          match (generateBeliefHypotheses random (computePublicMultiset rootSnapshot)
            (hypothesisIndex + 1) shuffleRng)[hypothesisIndex]? with
          | none => .error ⟨"IndexError", "list index out of range"⟩
          | some hypothesis =>
              match applyHypothesisToContext digests context hypothesis with
              | .error exc => .error exc
              | .ok context => WorkItem.fromCandidateRef digests context candidate workKind none

end Single

end Combat

end STS2RL
