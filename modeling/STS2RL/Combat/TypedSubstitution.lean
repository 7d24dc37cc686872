import STS2RL.Core.Forall2
import STS2RL.Combat.SnapshotWire
import STS2RL.Combat.Substitution

/-!
# A Substitution by Way of the Flat Form

The laws of a substitution are told of a snapshot that shows its cards and its stream.
The source works on the whole record: it flattens the snapshot, drops every member
named `unknown_fields` at any depth, puts the stream and the cards into what is left,
and reads that as a snapshot again. Here it is done so, on a snapshot with every record
it is made of, whose cards are typed (`TypedSnapshot`).

`view` is what the laws see of such a snapshot. The rest is the whole snapshot without
the cards and with the stream blotted out, so a rest that is the same is a snapshot in
which nothing else has changed. `deriveSubstitutedSnapshot_view` says that what is
derived here is seen as what is derived there, wherever the name is used in cards of the
draw pile only. Those are written whole; anything else that uses the name loses it
(`reserved_name_lost`).

## Main definitions

* `TypedSnapshot`, `TypedSnapshot.view`: A whole snapshot, and what the laws see of it.
* `TypedSnapshot.deriveSubstitutedSnapshot`: The substitution on it.
* `PlainOutsidePile`: Nothing outside the draw pile uses the reserved name.

## Theorems

* `deriveSubstitutedSnapshot_view`: The two substitutions agree.
* `substitution_correct`: What a substitution writes and leaves, and how it can fail.
-/

namespace STS2RL

namespace Combat

open Api (Codec isNamed)

/-!
### The flat form of a typed snapshot

A snapshot of the model of the search, and one with all its records, are of the same
state.
-/

section Flat

/-- `dataclasses.asdict`. -/
def CardInstanceSnapshot.asdict (card : CardInstanceSnapshot) : Json :=
  .obj [jsonMember "InstanceId" (.str card.instanceId),
    jsonMember "CardId" (.str card.cardId),
    jsonMember "Type" (.str card.type),
    jsonMember "Rarity" (.str card.rarity),
    jsonMember "Cost" (.int card.cost),
    jsonMember "TargetType" (.str card.targetType),
    jsonMember "IsUpgraded" (.bool card.isUpgraded),
    jsonMember "UpgradeLevel" (.int card.upgradeLevel),
    jsonMember "LocalKeywords" ((card.localKeywords.map fun words =>
      .list (words.map fun word => .str (.text word))).getD .null),
    jsonMember "LocalCostModifiers" card.localCostModifiers,
    jsonMember "TemporaryStarCosts" card.temporaryStarCosts,
    jsonMember "Zone" (textOrNull card.zone),
    jsonMember "PileIndex" (intOrNull card.pileIndex),
    jsonMember "HasBeenRemovedFromState" (.bool card.hasBeenRemovedFromState),
    jsonMember "Enchantment" card.enchantment,
    jsonMember "EnchantmentStatus" (textOrNull card.enchantmentStatus),
    jsonMember "TinkerTimeType" (textOrNull card.tinkerTimeType),
    jsonMember "TinkerTimeRider" (textOrNull card.tinkerTimeRider),
    jsonMember "DynamicVars" card.dynamicVars,
    jsonMember "BaseReplayCount" (.int card.baseReplayCount),
    jsonMember "BaseStarCost" (.int card.baseStarCost),
    jsonMember "LastStarsSpent" (.int card.lastStarsSpent),
    jsonMember "ExhaustOnNextPlay" (.bool card.exhaustOnNextPlay),
    jsonMember "HasSingleTurnRetain" (.bool card.hasSingleTurnRetain),
    jsonMember "HasSingleTurnSly" (.bool card.hasSingleTurnSly),
    jsonMember "Affliction" card.affliction,
    jsonMember "CloneOfInstanceId" (textOrNull card.cloneOfInstanceId),
    jsonMember "IsDupe" (.bool card.isDupe),
    jsonMember "DeckVersionInstanceId" (textOrNull card.deckVersionInstanceId),
    jsonMember "FloorAddedToDeck" (intOrNull card.floorAddedToDeck),
    jsonMember "SavedProperties" card.savedProperties,
    jsonMember "SovereignBladeCurrentDamage" card.sovereignBladeCurrentDamage,
    jsonMember "SovereignBladeCurrentRepeats" card.sovereignBladeCurrentRepeats,
    jsonMember "SovereignBladeCreatedThroughForge"
      (boolOrNull card.sovereignBladeCreatedThroughForge)]

/-- A card of the whole record is this typed card. -/
def IsRecordOf (record : Wire.CardInstanceSnapshot) (card : CardInstanceSnapshot) : Prop :=
  Wire.CardInstanceSnapshot.record.codec.asdict record = card.asdict

/-- A stream, as a snapshot has it. -/
def SerializableRngSnapshot.onWire (rng : SerializableRngSnapshot) : Wire.SerializableRngSnapshot :=
  ⟨rng.counter, rng.state0, rng.state1, rng.state2, rng.state3⟩

/-- A stream of a snapshot, as the search has it. -/
def Wire.SerializableRngSnapshot.stream (rng : Wire.SerializableRngSnapshot) :
    Combat.SerializableRngSnapshot :=
  ⟨rng.counter, rng.state0, rng.state1, rng.state2, rng.state3⟩

/-- The snapshot without its cards, the stream that shuffles blotted out. -/
def Wire.withoutDraws (root : Wire.CombatStateSnapshot) : Wire.CombatStateSnapshot :=
  { Wire.withoutCards root with
    rng := { root.rng with runRng := root.rng.runRng.set (.text "Shuffle") ⟨0, 0, 0, 0, 0⟩ } }

/-- A snapshot whose cards are typed: the ids are texts, and so on. -/
structure TypedSnapshot where
  wire : Wire.CombatStateSnapshot
  cards : List CardInstanceSnapshot
  typed : List.Forall₂ IsRecordOf wire.player.cardInstances cards

namespace TypedSnapshot

/-- What a hypothesis reads and writes, and all the rest. -/
def view (root : TypedSnapshot) : CombatStateSnapshot Wire.CombatStateSnapshot where
  cardInstances := root.cards
  shuffle := (root.wire.rng.runRng.get? (.text "Shuffle")).map (·.stream)
  rest := Wire.withoutDraws root.wire

/-- `derive_substituted_snapshot`. -/
def deriveSubstitutedSnapshot (root : TypedSnapshot) (hypothesis : SearchHypothesisId)
    (pinned : VisibleDrawConstraints) : Except PyException Wire.CombatStateSnapshot :=
  Wire.deriveSubstitutedSnapshotFrom root.wire hypothesis.rng.onWire
    ((drawPileInstancesForHypothesis root.view hypothesis.orderedDrawPileCardIds pinned).map
      fun orderedDrawPile => orderedDrawPile.map CardInstanceSnapshot.asdict)

end TypedSnapshot

/-- The snapshot without the cards of the draw pile. -/
def Wire.outsidePile (root : Wire.CombatStateSnapshot) : Wire.CombatStateSnapshot :=
  { root with
    player := { root.player with
      cardInstances := root.player.cardInstances.filter fun card =>
        card.zone ≠ .str (.text "draw_pile") } }

/-- Nothing unknown is kept, and outside the draw pile no free-form dictionary has the
    name as a key. -/
structure PlainOutsidePile (root : Wire.CombatStateSnapshot) : Prop where
  kept : root.unknownFields = []
  metadata : root.metadata.unknownFields = []
  free : (Wire.CombatStateSnapshot.record.codec.encode (Wire.outsidePile root)).lacksKeys
    (isNamed Wire.unknownFields) = true

end Flat

/-!
### Records of cards

The records of the cards, through each stage of the substitution.
-/

section Records

variable {record : Wire.CardInstanceSnapshot} {card : CardInstanceSnapshot}

theorem IsRecordOf.instanceId (h : IsRecordOf record card) :
    record.instanceId = .str (.text card.instanceId) := by
  have hhead := congrArg (fun flat => (Json.fields? flat).bind (·.head?)) h
  exact (Prod.mk.inj (Option.some.inj hhead)).2

theorem IsRecordOf.zone (h : IsRecordOf record card) : record.zone = textOrNull card.zone := by
  have hmember := congrArg (fun flat => (Json.fields? flat).bind (·[11]?)) h
  exact (Prod.mk.inj (Option.some.inj hmember)).2

/-- A card put in its place is the record put there. -/
theorem IsRecordOf.placed (h : IsRecordOf record card) (index : Nat) :
    IsRecordOf { record with zone := .str (.text "draw_pile"), pileIndex := some index }
      (placedAt index card) :=
  congrArg (fun flat => Wire.setItem "PileIndex" (.int index)
    (Wire.setItem "Zone" (.str (.text "draw_pile")) flat)) h

/-- Cards that are in a snapshot have records in it. -/
theorem exists_records {records : List Wire.CardInstanceSnapshot}
    {cards : List CardInstanceSnapshot}
    (htyped : List.Forall₂ IsRecordOf records cards) {ordered : List CardInstanceSnapshot}
    (h : ∀ card ∈ ordered, card ∈ cards) : ∃ found, List.Forall₂ IsRecordOf found ordered := by
  induction ordered with
  | nil => exact ⟨[], .nil⟩
  | cons card rest ih =>
      rcases ih fun other hother => h other (List.mem_cons_of_mem _ hother) with ⟨found, hfound⟩
      rcases forall₂_exists_left htyped (h card List.mem_cons_self) with ⟨record, -, hrecord⟩
      exact ⟨record :: found, .cons hrecord hfound⟩

/-- An entry of the table of replacements is a card of the order at its place. -/
def IsEntryOf (entry : PyStr × Wire.CardInstanceSnapshot) (card : CardInstanceSnapshot) : Prop :=
  entry.1 = .text card.instanceId ∧ IsRecordOf entry.2 card

theorem placedEntries_placed {found : List Wire.CardInstanceSnapshot}
    {ordered : List CardInstanceSnapshot} (h : List.Forall₂ IsRecordOf found ordered) :
    List.Forall₂ IsEntryOf (Wire.placedEntries found 0) (placed ordered) := by
  have hfrom : ∀ n, List.Forall₂ IsEntryOf (Wire.placedEntries found n)
      ((ordered.zipIdx n).map fun cell => placedAt cell.2 cell.1) := by
    induction h with
    | nil => exact fun _ => .nil
    | @cons record card _ _ hhead _ ih =>
        refine fun n => .cons ⟨?_, hhead.placed n⟩ (ih (n + 1))
        change Api.pyStr record.instanceId = .text card.instanceId
        rw [hhead.instanceId]
        rfl
  exact hfrom 0

/-- The same replacement is found for a card and for its record. -/
theorem placedById_rel {found : List Wire.CardInstanceSnapshot}
    {ordered : List CardInstanceSnapshot} (h : List.Forall₂ IsRecordOf found ordered)
    (instanceId : String) :
    Option.Rel IsRecordOf ((Wire.placedById found).get? (.text instanceId))
      (replacementFor ordered instanceId) := by
  have hrel := forall₂_find? (List.forall₂_reverse_iff.mpr (placedEntries_placed h))
    (p := fun entry => entry.1 = .text instanceId) (q := fun card => card.instanceId = instanceId)
    fun entry card hentry => by rw [hentry.1]; simp
  rw [Wire.placedById, Dict.get?_setAll_empty, replacementFor_eq]
  generalize (Wire.placedEntries found 0).reverse.find? _ = a at hrel ⊢
  generalize (placed ordered).reverse.find? _ = b at hrel ⊢
  cases hrel with
  | none => exact .none
  | some hentry => exact .some hentry.2

/-- A card or what replaces it, in both. -/
theorem replaced_isRecordOf {found : List Wire.CardInstanceSnapshot}
    {ordered : List CardInstanceSnapshot} (h : List.Forall₂ IsRecordOf found ordered)
    (hrecord : IsRecordOf record card) :
    IsRecordOf (((Wire.placedById found).get? (Api.pyStr record.instanceId)).getD record)
      ((replacementFor ordered card.instanceId).getD card) := by
  rw [hrecord.instanceId]
  change IsRecordOf (((Wire.placedById found).get? (.text card.instanceId)).getD record) _
  have hrel := placedById_rel h card.instanceId
  generalize (Wire.placedById found).get? (.text card.instanceId) = a at hrel ⊢
  generalize replacementFor ordered card.instanceId = b at hrel ⊢
  cases hrel with
  | none => exact hrecord
  | some hentry => exact hentry

end Records

/-!
### The two substitutions agree

Substituting in the records and reading them comes to substituting in what was read.
-/

section Agreement

variable {root : TypedSnapshot} {hypothesis : SearchHypothesisId} {pinned : VisibleDrawConstraints}

/-- Only cards of the order use the name, and those are replaced. -/
theorem kept_of_plainOutsidePile (hplain : PlainOutsidePile root.wire)
    {found : List Wire.CardInstanceSnapshot} {ordered : List CardInstanceSnapshot}
    (hfound : List.Forall₂ IsRecordOf found ordered)
    (hall : ∀ card ∈ root.cards, card.zone = some "draw_pile" → card ∈ ordered) :
    ∀ record ∈ root.wire.player.cardInstances, Wire.Kept found record := by
  intro record hrecord
  by_cases hzone : record.zone = .str (.text "draw_pile")
  · rcases forall₂_exists_right root.typed hrecord with ⟨card, hcard, htyped⟩
    refine .inr ⟨_, htyped.instanceId, ?_⟩
    have hpile : card.zone = some "draw_pile" := by
      rw [htyped.zone] at hzone
      cases hcases : card.zone with
      | none =>
          rw [hcases] at hzone
          cases hzone
      | some zone =>
          rw [hcases] at hzone
          cases hzone
          rfl
    rcases forall₂_exists_left hfound (hall card hcard hpile) with ⟨other, hother, hrecordOf⟩
    refine List.mem_map.mpr ⟨other, hother, ?_⟩
    rw [hrecordOf.instanceId]
    rfl
  · exact .inl ((Wire.lacks_withoutCards hplain.free).2 record
      (List.mem_filter.mpr ⟨hrecord, decide_eq_true hzone⟩))

/-- What a snapshot becomes, with its cards. -/
def TypedSnapshot.substituted (root : TypedSnapshot) (rng : SerializableRngSnapshot)
    {found : List Wire.CardInstanceSnapshot} {ordered : List CardInstanceSnapshot}
    (h : List.Forall₂ IsRecordOf found ordered) : TypedSnapshot where
  wire := Wire.substituted root.wire rng.onWire found
  cards := root.cards.map fun card => (replacementFor ordered card.instanceId).getD card
  typed := by
    refine List.forall₂_map_left_iff.mpr (List.forall₂_map_right_iff.mpr ?_)
    exact root.typed.imp fun _ _ hrecord => replaced_isRecordOf h hrecord

/-- It is seen as the snapshot with the order put in. -/
theorem substituted_view (rng : SerializableRngSnapshot) {found : List Wire.CardInstanceSnapshot}
    {ordered : List CardInstanceSnapshot} (h : List.Forall₂ IsRecordOf found ordered) :
    (root.substituted rng h).view = withDrawPile root.view ordered rng := by
  have hstream : ((root.wire.rng.runRng.set (.text "Shuffle") rng.onWire).get?
      (.text "Shuffle")).map (·.stream) = some rng := by
    rw [Dict.get?_set_self]
    rfl
  have hrest : Wire.withoutDraws (Wire.substituted root.wire rng.onWire found) =
      Wire.withoutDraws root.wire := by
    unfold Wire.withoutDraws Wire.substituted Wire.withoutCards
    rw [Dict.set_set]
  unfold TypedSnapshot.view withDrawPile
  rw [show (root.substituted rng h).wire =
    Wire.substituted root.wire rng.onWire found from rfl, hrest]
  exact congrArg (fun shuffle => CombatStateSnapshot.mk (root.substituted rng h).cards shuffle
    (Wire.withoutDraws root.wire)) hstream

/-- The snapshot that is derived is seen as the one that is derived of what is seen, and a
    refusal is the same. -/
theorem deriveSubstitutedSnapshot_view (hypothesis : SearchHypothesisId)
    (pinned : VisibleDrawConstraints) (hunique : (root.cards.map (·.instanceId)).Nodup)
    (hplain : PlainOutsidePile root.wire) :
    (∀ exc, deriveSubstitutedSnapshot root.view hypothesis pinned = .error exc →
      root.deriveSubstitutedSnapshot hypothesis pinned = .error exc) ∧
    ∀ derived, deriveSubstitutedSnapshot root.view hypothesis pinned = .ok derived →
      ∃ result : TypedSnapshot, root.deriveSubstitutedSnapshot hypothesis pinned = .ok result.wire ∧
        result.view = derived := by
  have hrest := (Wire.lacks_withoutCards hplain.free).1
  have hknown := (Wire.known_iff root.wire).mpr ⟨hplain.kept, hplain.metadata⟩
  have hview : root.view.shuffle = (root.wire.rng.runRng.get? (.text "Shuffle")).map
    (·.stream) := rfl
  unfold deriveSubstitutedSnapshot TypedSnapshot.deriveSubstitutedSnapshot
  rw [hview]
  cases hordered : drawPileInstancesForHypothesis root.view hypothesis.orderedDrawPileCardIds
    pinned with
  | error exc =>
      have heq := Wire.deriveSubstitutedSnapshotFrom_eq hknown hrest (.error exc)
        (fun _ hok => by cases hok) hypothesis.rng.onWire
      simp only [Except.map] at heq ⊢
      rw [heq]
      cases root.wire.rng.runRng.get? (.text "Shuffle") with
      | none => exact ⟨fun _ h => (by cases h; rfl), fun _ h => (by cases h)⟩
      | some _ => exact ⟨fun _ h => (by cases h; rfl), fun _ h => (by cases h)⟩
  | ok ordered =>
      have hperm := (drawPileInstances_spec hunique hordered).2.2.2.1
      have hmem : ∀ card, card ∈ ordered ↔ card ∈ root.cards ∧ card.zone = some "draw_pile" :=
        fun card => hperm.mem_iff.trans mem_cardsInZone
      -- The order is one of cards of the snapshot, so there is a record for each.
      rcases exists_records root.typed fun card hcard =>
        ((hmem card).mp hcard).1 with ⟨found, hfound⟩
      have hflat : ordered.map CardInstanceSnapshot.asdict =
          found.map Wire.CardInstanceSnapshot.record.codec.asdict := by
        have hsame : List.Forall₂ (· = ·) (found.map Wire.CardInstanceSnapshot.record.codec.asdict)
            (ordered.map CardInstanceSnapshot.asdict) :=
          List.forall₂_map_left_iff.mpr (List.forall₂_map_right_iff.mpr hfound)
        rw [List.forall₂_eq_eq_eq] at hsame
        exact hsame.symm
      have heq := Wire.deriveSubstitutedSnapshotFrom_eq hknown hrest (.ok found)
        (fun _ hok => by
          cases hok
          exact kept_of_plainOutsidePile hplain hfound fun card hcard hzone =>
            (hmem card).mpr ⟨hcard, hzone⟩) hypothesis.rng.onWire
      simp only [Except.map] at heq ⊢
      rw [hflat, heq]
      cases root.wire.rng.runRng.get? (.text "Shuffle") with
      | none => exact ⟨fun _ h => (by cases h; rfl), fun _ h => (by cases h)⟩
      | some _ =>
          refine ⟨fun _ h => (by cases h), fun derived h => ?_⟩
          cases h
          exact ⟨root.substituted hypothesis.rng hfound, rfl,
            substituted_view hypothesis.rng hfound⟩

end Agreement

/-!
### The law

What the substitution of the source leaves as it was, and what it places.
-/

section Law

/-- The law of a substitution. One that succeeds writes the order of the hypothesis and
    leaves everything else as it is, where nothing outside the draw pile uses the reserved
    name. Once the multiset, the offsets and the ambiguity of the pins are checked the cards
    are handed out, unless the id of a pin is not the one its place asks for: no pool of
    copies runs dry. -/
theorem substitution_correct (root : TypedSnapshot)
    (hunique : (root.cards.map (·.instanceId)).Nodup) (hypothesis : SearchHypothesisId)
    (pinned : VisibleDrawConstraints) :
    (PlainOutsidePile root.wire → ∀ derived,
      root.deriveSubstitutedSnapshot hypothesis pinned = .ok derived →
      ∃ result : TypedSnapshot, result.wire = derived ∧
        Substituted root.view hypothesis pinned result.view) ∧
    (PinsChecked root.view hypothesis.orderedDrawPileCardIds pinned →
      (∃ orderedDrawPile, drawPileInstancesForHypothesis root.view
        hypothesis.orderedDrawPileCardIds pinned = .ok orderedDrawPile) ∨
      ∃ offset key expectedCardId, (offset, key) ∈ pinned ∧
        hypothesis.orderedDrawPileCardIds[offset]? = some expectedCardId ∧
        key.cardId ≠ expectedCardId ∧ drawPileInstancesForHypothesis root.view
          hypothesis.orderedDrawPileCardIds pinned =
            .error (pinnedCardIdMismatch offset key expectedCardId)) ∧
    (PlainOutsidePile root.wire → root.view.shuffle.isSome →
      PinsChecked root.view hypothesis.orderedDrawPileCardIds pinned →
      (∃ derived, root.deriveSubstitutedSnapshot hypothesis pinned = .ok derived) ∨
      ∃ offset key expectedCardId, (offset, key) ∈ pinned ∧
        hypothesis.orderedDrawPileCardIds[offset]? = some expectedCardId ∧
        key.cardId ≠ expectedCardId ∧ root.deriveSubstitutedSnapshot hypothesis pinned =
          .error (pinnedCardIdMismatch offset key expectedCardId)) := by
  refine ⟨fun hplain derived hok => ?_, fun hchecked => ?_, fun hplain hshuffle hchecked => ?_⟩
  · -- What is seen of the derived snapshot is what is derived of what is seen.
    have hview := deriveSubstitutedSnapshot_view hypothesis pinned hunique hplain
    cases hderived : deriveSubstitutedSnapshot root.view hypothesis pinned with
    | error exc =>
        rw [hview.1 exc hderived] at hok
        cases hok
    | ok seen =>
        rcases hview.2 seen hderived with ⟨result, hresult, hseen⟩
        rw [hresult] at hok
        cases hok
        exact ⟨result, rfl, hseen ▸ substituted_of_ok hunique hderived⟩
  -- Whether the draw pile can be ordered does not depend on how the snapshot is written.
  · rw [drawPileInstances_of_checked hchecked]
    exact allocateCards_outcome (nodup_cardsInZone hunique _) hchecked.multiset
      hchecked.contiguous hchecked.unambiguous
  -- Deriving fails on the record exactly where it fails on what is seen of it.
  · have hview := deriveSubstitutedSnapshot_view hypothesis pinned hunique hplain
    rcases deriveSubstitutedSnapshot_of_checked hunique hshuffle hchecked with
      ⟨seen, hderived⟩ | ⟨offset, key, expectedCardId, hin, hat, hne, herror⟩
    · rcases hview.2 seen hderived with ⟨result, hresult, -⟩
      exact .inl ⟨result.wire, hresult⟩
    · exact .inr ⟨offset, key, expectedCardId, hin, hat, hne, hview.1 _ herror⟩

end Law

/-!
### A card with the reserved name

A member under the name that is left out is lost.
-/

section Marked

/-- Saved properties of which one has the reserved name. -/
def markedProperties : Json :=
  .obj [jsonMember "unknown_fields" (.int 1), jsonMember "Uses" (.int 3)]

/-- A card of the search whose properties may have the marked key. -/
def markedCard (instanceId cardId zone : String) (index : Int) (marked : Bool) :
    CardInstanceSnapshot :=
  { drawPileCard instanceId cardId index with
    zone := some zone
    savedProperties := if marked then markedProperties else .null
    floats := by cases marked <;> rfl }

/-- The same card, as a snapshot has it. -/
def markedRecord (instanceId cardId zone : String) (index : Int) (marked : Bool) :
    Wire.CardInstanceSnapshot :=
  { Wire.strikeOnTop with
    instanceId := .str (.text instanceId)
    cardId := .str (.text cardId)
    localCostModifiers := []
    zone := .str (.text zone)
    pileIndex := some index
    enchantment := none
    dynamicVars := Dict.empty
    floorAddedToDeck := none
    savedProperties := if marked then markedProperties else .null }

theorem markedRecord_isRecordOf (instanceId cardId zone : String) (index : Int) (marked : Bool) :
    IsRecordOf (markedRecord instanceId cardId zone index marked)
      (markedCard instanceId cardId zone index marked) := rfl

/-- A strike and a defend to draw and a card in the hand. The strike or the card in the
    hand is marked. -/
def markedSnapshot (strike hand : Bool) : TypedSnapshot where
  wire := { Wire.smallSnapshot with
    player := { Wire.smallSnapshot.player with
      cardInstances := [markedRecord "c1" "STRIKE" "draw_pile" 0 strike,
        markedRecord "c2" "DEFEND" "draw_pile" 1 false, markedRecord "c3" "BASH" "hand" 0 hand] } }
  cards := [markedCard "c1" "STRIKE" "draw_pile" 0 strike,
    markedCard "c2" "DEFEND" "draw_pile" 1 false, markedCard "c3" "BASH" "hand" 0 hand]
  typed := .cons (markedRecord_isRecordOf _ _ _ _ _) (.cons (markedRecord_isRecordOf _ _ _ _ _)
    (.cons (markedRecord_isRecordOf _ _ _ _ _) .nil))

/-- The defend is on top. -/
def defendFirst : SearchHypothesisId := ⟨⟨5, 6, 7, 8, 9⟩, ["DEFEND", "STRIKE"], 0⟩

/-- The defend has been seen. -/
def defendSeen : VisibleDrawConstraints := [(0, (drawPileCard "c2" "DEFEND" 1).observableCardKey)]

/-- A card of the draw pile keeps its mark. -/
theorem substitution_marked_strike : ∃ result : TypedSnapshot,
    (markedSnapshot true false).deriveSubstitutedSnapshot defendFirst defendSeen =
      .ok result.wire ∧
    Substituted (markedSnapshot true false).view defendFirst defendSeen result.view := by
  have hlaw := substitution_correct (markedSnapshot true false) (by decide) defendFirst defendSeen
  have hplain : PlainOutsidePile (markedSnapshot true false).wire := ⟨rfl, rfl, by decide +kernel⟩
  have hchecked : PinsChecked (markedSnapshot true false).view defendFirst.orderedDrawPileCardIds
      defendSeen := ⟨by decide, by decide, by decide +kernel⟩
  rcases hlaw.2.2 hplain rfl hchecked with ⟨derived, hok⟩ | ⟨offset, key, cardId, hpin, hat, hne, -⟩
  · rcases hlaw.1 hplain derived hok with ⟨result, rfl, hsubstituted⟩
    exact ⟨result, hok, hsubstituted⟩
  · cases List.mem_singleton.mp hpin
    cases hat
    exact absurd rfl hne

theorem IsRecordOf.savedProperties {record : Wire.CardInstanceSnapshot}
    {card : CardInstanceSnapshot} (h : IsRecordOf record card) :
    record.savedProperties = card.savedProperties := by
  have hmember := congrArg (fun flat => (Json.fields? flat).bind (·[30]?)) h
  exact (Prod.mk.inj (Option.some.inj hmember)).2

/-- The card in the hand loses its mark, though nothing unknown is kept. -/
theorem reserved_name_lost :
    ¬ ∀ root : TypedSnapshot, (root.cards.map (·.instanceId)).Nodup →
      root.wire.unknownFields = [] → root.wire.metadata.unknownFields = [] →
      ∀ hypothesis pinned derived,
        root.deriveSubstitutedSnapshot hypothesis pinned = .ok derived →
        ∃ result : TypedSnapshot, result.wire = derived ∧
          Substituted root.view hypothesis pinned result.view := by
  intro hclaim
  -- The code keeps one of the two members of the card's properties.
  have hsaved : ((markedSnapshot false true).deriveSubstitutedSnapshot defendFirst defendSeen).map
      (fun derived => derived.player.cardInstances.map (·.savedProperties)) =
        .ok [.null, .null, .obj [jsonMember "Uses" (.int 3)]] := by decide +kernel
  rcases (Except.map_eq_ok _ _ _).mp hsaved with ⟨derived, hok, hproperties⟩
  rcases hclaim (markedSnapshot false true) (by decide) rfl rfl _ _ derived hok with
    ⟨result, rfl, hsubstituted⟩
  -- What is read back has the cards' properties as the record has them.
  have htyped : result.wire.player.cardInstances.map (·.savedProperties) =
      result.cards.map (·.savedProperties) := by
    have hsame := List.forall₂_map_left_iff.mpr (List.forall₂_map_right_iff.mpr
      (result.typed.imp fun _ _ hrecord => hrecord.savedProperties))
    rwa [List.forall₂_eq_eq_eq] at hsame
  -- A substitution would have kept them as they were.
  have hkept : result.cards.map (·.savedProperties) =
      (markedSnapshot false true).cards.map (·.savedProperties) := by
    have hhidden : ∀ card : CardInstanceSnapshot,
        card.hideDrawOrder.savedProperties = card.savedProperties := by
      intro card
      unfold CardInstanceSnapshot.hideDrawOrder
      split <;> rfl
    have hall := congrArg (List.map (·.savedProperties)) hsubstituted.instances
    simp only [List.map_map, Function.comp_def, hhidden] at hall
    exact hall
  rw [htyped, hkept] at hproperties
  exact absurd hproperties (by decide)

end Marked

end Combat

end STS2RL
