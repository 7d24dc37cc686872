import STS2RL.Combat.HypothesisBlindness
import Mathlib.Data.List.Perm.Subperm

/-!
# What a Substitution Writes

A substitution that succeeds gives the draw pile the order of the hypothesis: the
same cards, numbered from nought, with a card of the pinned key at each pinned
place. Nothing else of the snapshot changes but the stream that shuffles.

The copies are taken from pools: those of a key for the pinned places, those of an
id for the others. No pool runs dry. As many cards of a key were counted as are
pinned, and each pinned place takes one; what is asked for behind the pinned places
is the multiset of ids less the ids that were pinned, and so is what is left.

The snapshot is taken as what a hypothesis sees of it. That writing it out and reading it
back changes nothing else is told where the whole record is (`TypedSubstitution`).

## Main definitions

* `placedAt`, `placed`: A card at its place, and an order of cards.
* `Substituted`: What a substitution writes, and what it leaves.
* `PinsChecked`: The checks before the cards are handed out.

## Theorems

* `withDrawPile_drawPile`: The draw pile is read back in the order it was written.
* `allocatePinned_outcome`: A pinned place is filled, or its id is the wrong one.
* `allocateTail_isOk`: The other places are filled.
* `substituted_of_ok`, `deriveSubstitutedSnapshot_of_checked`: What is written, and when.
-/

namespace STS2RL

namespace Combat

variable {ρ β : Type}

/-!
### Placing the cards

The cards of an order, each at its place in the draw pile, and what replaces a card.
-/

section Placing

/-- A card at its place in the draw pile. -/
def placedAt (index : Nat) (card : CardInstanceSnapshot) : CardInstanceSnapshot :=
  { card with zone := some "draw_pile", pileIndex := some (index : Int) }

/-- The cards of an order, at their places. -/
def placed (orderedDrawPile : List CardInstanceSnapshot) : List CardInstanceSnapshot :=
  orderedDrawPile.zipIdx.map fun (card, index) => placedAt index card

variable {orderedDrawPile : List CardInstanceSnapshot}

theorem placed_getElem? (index : Nat) :
    (placed orderedDrawPile)[index]? = orderedDrawPile[index]?.map (placedAt index) := by
  rw [placed, List.getElem?_map, List.getElem?_zipIdx, Option.map_map, Nat.zero_add]
  rfl

theorem placed_instanceIds :
    (placed orderedDrawPile).map (·.instanceId) = orderedDrawPile.map (·.instanceId) := by
  refine List.ext_getElem? fun index => ?_
  rw [List.getElem?_map, List.getElem?_map, placed_getElem?, Option.map_map]
  rfl

theorem placed_cardIds :
    (placed orderedDrawPile).map (·.cardId) = orderedDrawPile.map (·.cardId) := by
  refine List.ext_getElem? fun index => ?_
  rw [List.getElem?_map, List.getElem?_map, placed_getElem?, Option.map_map]
  rfl

/-- The places count up from nought. -/
theorem placed_pileIndex : (placed orderedDrawPile).map (·.pileIndex) =
    (List.range orderedDrawPile.length).map fun index : Nat => some (index : Int) := by
  refine List.ext_getElem? fun index => ?_
  rw [List.getElem?_map, placed_getElem?, Option.map_map, List.getElem?_map]
  by_cases hindex : index < orderedDrawPile.length
  · rw [List.getElem?_eq_getElem hindex, List.getElem?_range hindex]
    rfl
  · rw [List.getElem?_eq_none (by omega), List.getElem?_eq_none (by rw [List.length_range]; omega)]
    rfl

theorem pileIndex_of_placed {index : Nat} {card : CardInstanceSnapshot}
    (h : (placed orderedDrawPile)[index]? = some card) : card.pileIndex = some (index : Int) := by
  rw [placed_getElem?, Option.map_eq_some_iff] at h
  rcases h with ⟨source, -, rfl⟩
  rfl

/-- A card of the draw pile, at another place, is the same but for its place. -/
theorem placedAt_forgetPile {card : CardInstanceSnapshot} (hzone : card.zone = some "draw_pile")
    (index : Nat) : (placedAt index card).forgetPile = card.forgetPile := by
  unfold placedAt CardInstanceSnapshot.forgetPile
  rw [← hzone]

theorem replacementFor_eq (instanceId : String) : replacementFor orderedDrawPile instanceId =
    (placed orderedDrawPile).reverse.find? fun card => card.instanceId = instanceId := rfl

/-- A card of the order is replaced by itself at its place. -/
theorem replacementFor_of_getElem? (hunique : (orderedDrawPile.map (·.instanceId)).Nodup)
    {index : Nat} {card : CardInstanceSnapshot} (h : orderedDrawPile[index]? = some card) :
    replacementFor orderedDrawPile card.instanceId = some (placedAt index card) := by
  have hplaced : (placed orderedDrawPile)[index]? = some (placedAt index card) := by
    rw [placed_getElem?, h]
    rfl
  rcases Option.isSome_iff_exists.mp (replacementFor_isSome (List.mem_of_getElem? h)) with
    ⟨replacement, hfound⟩
  rw [hfound]
  rw [replacementFor_eq] at hfound
  have hid := List.find?_some hfound
  rw [decide_eq_true_eq] at hid
  have hmem : replacement ∈ placed orderedDrawPile :=
    List.mem_reverse.mp (List.mem_of_find?_eq_some hfound)
  rw [← placed_instanceIds] at hunique
  rw [eq_of_instanceId_eq hunique hmem (List.mem_of_getElem? hplaced) hid]

theorem replacementFor_of_not_mem {instanceId : String}
    (h : instanceId ∉ orderedDrawPile.map (·.instanceId)) :
    replacementFor orderedDrawPile instanceId = none := by
  rw [replacementFor_eq, List.find?_eq_none]
  intro card hcard hid
  rw [← placed_instanceIds] at h
  exact h (List.mem_map.mpr ⟨card, List.mem_reverse.mp hcard, of_decide_eq_true hid⟩)

end Placing

/-!
### Reading the snapshot back

What the cards of a snapshot are once those of the draw pile were replaced.
-/

section Reading

variable {root : CombatStateSnapshot ρ} {orderedDrawPile : List CardInstanceSnapshot}

/-- The snapshot with the cards of an order put in. -/
def withDrawPile (root : CombatStateSnapshot ρ) (orderedDrawPile : List CardInstanceSnapshot)
    (rng : SerializableRngSnapshot) : CombatStateSnapshot ρ :=
  { root with
    cardInstances := root.cardInstances.map fun card =>
      (replacementFor orderedDrawPile card.instanceId).getD card
    shuffle := some rng }

/-- What a card of the snapshot becomes. -/
theorem replaced_card (hunique : (root.cardInstances.map (·.instanceId)).Nodup)
    (hperm : orderedDrawPile.Perm (root.cardsInZone "draw_pile"))
    {card : CardInstanceSnapshot} (hcard : card ∈ root.cardInstances) :
    (card.zone ≠ some "draw_pile" ∧
        (replacementFor orderedDrawPile card.instanceId).getD card = card) ∨
      (card.zone = some "draw_pile" ∧ ∃ index, orderedDrawPile[index]? = some card ∧
        (replacementFor orderedDrawPile card.instanceId).getD card = placedAt index card) := by
  by_cases hzone : card.zone = some "draw_pile"
  · have hmem := hperm.mem_iff.mpr (mem_cardsInZone.mpr ⟨hcard, hzone⟩)
    rcases List.mem_iff_getElem?.mp hmem with ⟨index, hindex⟩
    have hids : (orderedDrawPile.map (·.instanceId)).Nodup :=
      (hperm.map _).nodup_iff.mpr (nodup_cardsInZone hunique _)
    exact .inr ⟨hzone, index, hindex, by rw [replacementFor_of_getElem? hids hindex]; rfl⟩
  · refine .inl ⟨hzone, ?_⟩
    rw [replacementFor_of_not_mem]
    · rfl
    · -- A card of the order with this id is this card, which is not in the pile.
      intro hmem
      rcases List.mem_map.mp hmem with ⟨other, hother, hid⟩
      have hpile := mem_cardsInZone.mp (hperm.mem_iff.mp hother)
      rw [eq_of_instanceId_eq hunique hpile.1 hcard hid] at hpile
      exact hzone hpile.2

/-- Every card stays as it is, but for the places of the draw pile. -/
theorem withDrawPile_hide (hunique : (root.cardInstances.map (·.instanceId)).Nodup)
    (hperm : orderedDrawPile.Perm (root.cardsInZone "draw_pile")) (rng : SerializableRngSnapshot) :
    (withDrawPile root orderedDrawPile rng).cardInstances.map CardInstanceSnapshot.hideDrawOrder =
      root.cardInstances.map CardInstanceSnapshot.hideDrawOrder := by
  rw [withDrawPile, List.map_map]
  refine List.map_congr_left fun card hcard => ?_
  rw [Function.comp_apply]
  rcases replaced_card hunique hperm hcard with ⟨-, hsame⟩ | ⟨hzone, index, -, hplaced⟩
  · rw [hsame]
  · rw [hplaced, CardInstanceSnapshot.hideDrawOrder, CardInstanceSnapshot.hideDrawOrder,
      if_pos (show (placedAt index card).zone = some "draw_pile" from rfl), if_pos hzone,
      placedAt_forgetPile hzone]

/-- No card goes to another pile. -/
theorem filter_withDrawPile (hunique : (root.cardInstances.map (·.instanceId)).Nodup)
    (hperm : orderedDrawPile.Perm (root.cardsInZone "draw_pile")) (rng : SerializableRngSnapshot)
    (zone : String) :
    ((withDrawPile root orderedDrawPile rng).cardInstances.filter fun card =>
        card.zone = some zone) =
      (root.cardInstances.filter fun card => card.zone = some zone).map fun card =>
        (replacementFor orderedDrawPile card.instanceId).getD card := by
  rw [withDrawPile, List.filter_map]
  congr 1
  refine List.filter_congr fun card hcard => ?_
  rw [Function.comp_apply]
  rcases replaced_card hunique hperm hcard with ⟨-, hsame⟩ | ⟨hdraw, index, -, hplaced⟩
  · rw [hsame]
  · rw [hplaced, hdraw]
    rfl

/-- The other piles are as they were. -/
theorem withDrawPile_zone (hunique : (root.cardInstances.map (·.instanceId)).Nodup)
    (hperm : orderedDrawPile.Perm (root.cardsInZone "draw_pile")) (rng : SerializableRngSnapshot)
    {zone : String} (hzone : zone ≠ "draw_pile") :
    (withDrawPile root orderedDrawPile rng).cardsInZone zone = root.cardsInZone zone := by
  unfold CombatStateSnapshot.cardsInZone
  rw [filter_withDrawPile hunique hperm]
  congr 1
  refine (List.map_congr_left fun card hcard => ?_).trans (List.map_id _)
  rcases List.mem_filter.mp hcard with ⟨hmem, hcardZone⟩
  rcases replaced_card hunique hperm hmem with ⟨-, hsame⟩ | ⟨hdraw, -⟩
  · exact hsame
  · have hother := of_decide_eq_true hcardZone
    rw [hdraw] at hother
    exact absurd (Option.some.inj hother).symm hzone

/-- The draw pile is read back in the order it was written. -/
theorem withDrawPile_drawPile (hunique : (root.cardInstances.map (·.instanceId)).Nodup)
    (hperm : orderedDrawPile.Perm (root.cardsInZone "draw_pile")) (rng : SerializableRngSnapshot) :
    (withDrawPile root orderedDrawPile rng).cardsInZone "draw_pile" = placed orderedDrawPile := by
  have hids : (orderedDrawPile.map (·.instanceId)).Nodup :=
    (hperm.map _).nodup_iff.mpr (nodup_cardsInZone hunique _)
  have hplaced : orderedDrawPile.map (fun card =>
      (replacementFor orderedDrawPile card.instanceId).getD card) = placed orderedDrawPile := by
    refine List.ext_getElem? fun index => ?_
    rw [List.getElem?_map, placed_getElem?]
    rcases hindex : orderedDrawPile[index]? with _ | card
    · rfl
    · rw [Option.map_some, Option.map_some, replacementFor_of_getElem? hids hindex]
      rfl
  -- The cards of the pile are the placed ones, in whatever order.
  have hcards : ((withDrawPile root orderedDrawPile rng).cardInstances.filter fun card =>
      card.zone = some "draw_pile").Perm (placed orderedDrawPile) := by
    rw [filter_withDrawPile hunique hperm, ← hplaced]
    exact ((hperm.trans (cardsInZone_perm root "draw_pile")).map _).symm
  -- They are in order already, and no two have one place.
  have hsorted : (placed orderedDrawPile).Pairwise fun a b =>
      a.pileIndex.getD (-1) ≤ b.pileIndex.getD (-1) := by
    rw [List.pairwise_iff_getElem]
    intro i j hi hj hij
    rw [pileIndex_of_placed (List.getElem?_eq_getElem hi),
      pileIndex_of_placed (List.getElem?_eq_getElem hj)]
    exact Int.ofNat_le.mpr (Nat.le_of_lt hij)
  have hplace : ∀ a ∈ placed orderedDrawPile, ∀ b ∈ placed orderedDrawPile,
      a.pileIndex.getD (-1) = b.pileIndex.getD (-1) → a = b := by
    intro a ha b hb hsame
    rcases List.mem_iff_getElem?.mp ha with ⟨i, hi⟩
    rcases List.mem_iff_getElem?.mp hb with ⟨j, hj⟩
    rw [pileIndex_of_placed hi, pileIndex_of_placed hj] at hsame
    have hij : i = j := Int.ofNat_inj.mp hsame
    rw [hij, hj] at hi
    exact (Option.some.inj hi).symm
  have : Std.Total fun a b : CardInstanceSnapshot =>
      a.pileIndex.getD (-1) ≤ b.pileIndex.getD (-1) := ⟨fun a b => le_total _ _⟩
  have : IsTrans CardInstanceSnapshot fun a b =>
      a.pileIndex.getD (-1) ≤ b.pileIndex.getD (-1) := ⟨fun _ _ _ => le_trans⟩
  refine List.Perm.eq_of_pairwise (fun a b ha hb hab hba => ?_) (List.pairwise_insertionSort _ _)
    hsorted ((List.perm_insertionSort _ _).trans hcards)
  have ha' := hcards.mem_iff.mp ((List.mem_insertionSort _).mp ha)
  exact hplace a ha' b hb (le_antisymm hab hba)

end Reading

/-!
### The pools

The cards are allocated from pools of one card id each, the pinned ones first. It fails
where a pin has another card id than the hypothesis, and else succeeds.
-/

section Pools

variable {xs : List CardInstanceSnapshot}

/-- The id of a pinned card is not the one its place asks for. -/
def pinnedCardIdMismatch (offset : Nat) (key : ObservableCardKey) (expectedCardId : String) :
    PyException :=
  .valueError ("pinned observable card has CardId='" ++ key.cardId ++
    "', but hypothesis position " ++ toString offset ++ " requires '" ++ expectedCardId ++ "'")

/-- The cards of a key that are not taken yet. -/
def poolOf (xs : List CardInstanceSnapshot) (usedInstanceIds : List String)
    (key : ObservableCardKey) : List CardInstanceSnapshot :=
  xs.filter fun card => card.instanceId ∉ usedInstanceIds ∧ card.observableCardKey = key

/-- Taking a card takes at most one from the pool of its key, and none from the others. -/
theorem length_poolOf_le (hunique : (xs.map (·.instanceId)).Nodup) (usedInstanceIds : List String)
    {chosen : CardInstanceSnapshot} (hchosen : chosen ∈ xs) (key : ObservableCardKey) :
    (poolOf xs usedInstanceIds key).length ≤
      (poolOf xs (usedInstanceIds ++ [chosen.instanceId]) key).length +
        if chosen.observableCardKey = key then 1 else 0 := by
  -- The pool after the choice is the pool before without the cards of that id.
  have hrest : poolOf xs (usedInstanceIds ++ [chosen.instanceId]) key =
      (poolOf xs usedInstanceIds key).filter fun card =>
        !decide (card.instanceId = chosen.instanceId) := by
    rw [poolOf, poolOf, List.filter_filter]
    refine List.filter_congr fun card _ => ?_
    simp only [List.mem_append, List.mem_singleton, not_or]
    by_cases hid : card.instanceId = chosen.instanceId
    · simp [hid]
    · simp [hid]
  have hsplit := List.length_eq_length_filter_add (l := poolOf xs usedInstanceIds key)
    fun card => decide (card.instanceId = chosen.instanceId)
  rw [← hrest] at hsplit
  by_cases hkey : chosen.observableCardKey = key
  · -- Of the cards with the id of the chosen one there is one.
    have hone : ((poolOf xs usedInstanceIds key).filter fun card =>
        card.instanceId = chosen.instanceId).length ≤ 1 := by
      have hcount := List.nodup_iff_count_le_one.mp
        (nodup_filter hunique fun card =>
          card.instanceId ∉ usedInstanceIds ∧ card.observableCardKey = key) chosen.instanceId
      rw [List.count, List.countP_map, List.countP_eq_length_filter] at hcount
      exact hcount
    rw [if_pos hkey]
    omega
  · -- The chosen card is in another pool.
    have hnone : (poolOf xs usedInstanceIds key).filter (fun card =>
        decide (card.instanceId = chosen.instanceId)) = [] := by
      rw [List.filter_eq_nil_iff]
      intro card hcard hid
      rw [poolOf, List.mem_filter, decide_eq_true_eq] at hcard
      rw [eq_of_instanceId_eq hunique hcard.1 hchosen (of_decide_eq_true hid)] at hcard
      exact hkey hcard.2.2
    rw [hnone, List.length_nil] at hsplit
    omega

/-- With enough cards of every pinned key, each pinned place is filled, up to the first
    whose id is the wrong one. -/
theorem allocatePinned_outcome (hunique : (xs.map (·.instanceId)).Nodup)
    (orderedCardIds : List String) (pinned : VisibleDrawConstraints) :
    ∀ usedInstanceIds : List String,
      (∀ key, (pinned.map Prod.snd).count key ≤ (poolOf xs usedInstanceIds key).length) →
      (∀ constraint ∈ pinned, constraint.1 < orderedCardIds.length) →
      (∃ cards, allocatePinned xs orderedCardIds usedInstanceIds pinned = .ok cards) ∨
        ∃ offset key expectedCardId, (offset, key) ∈ pinned ∧
          orderedCardIds[offset]? = some expectedCardId ∧ key.cardId ≠ expectedCardId ∧
          allocatePinned xs orderedCardIds usedInstanceIds pinned =
            .error (pinnedCardIdMismatch offset key expectedCardId) := by
  induction pinned with
  | nil => exact fun _ _ _ => .inl ⟨[], rfl⟩
  | cons constraint rest ih =>
      intro usedInstanceIds hcount hlength
      rcases constraint with ⟨offset, key⟩
      have hlt := hlength _ List.mem_cons_self
      have hexpected := List.getElem?_eq_getElem hlt
      generalize orderedCardIds[offset] = expectedCardId at hexpected
      by_cases hkey : key.cardId ≠ expectedCardId
      · refine .inr ⟨offset, key, expectedCardId, List.mem_cons_self, hexpected, hkey, ?_⟩
        rw [allocatePinned, hexpected]
        dsimp only
        rw [if_pos hkey, pinnedCardIdMismatch]
      · -- The pool of the key has a card.
        have hpos : 0 < (poolOf xs usedInstanceIds key).length := by
          have h := hcount key
          rw [List.map_cons, List.count_cons_self] at h
          omega
        rcases hfound : sortedByIdentity (poolOf xs usedInstanceIds key) with _ | ⟨chosen, others⟩
        · have hempty := (List.perm_insertionSort identityLe
            (poolOf xs usedInstanceIds key)).length_eq
          change (sortedByIdentity (poolOf xs usedInstanceIds key)).length = _ at hempty
          rw [hfound, List.length_nil] at hempty
          omega
        · have hmem : chosen ∈ poolOf xs usedInstanceIds key := by
            refine (List.mem_insertionSort identityLe).mp ?_
            change chosen ∈ sortedByIdentity _
            rw [hfound]
            exact List.mem_cons_self
          rw [poolOf, List.mem_filter, decide_eq_true_eq] at hmem
          have hstep : allocatePinned xs orderedCardIds usedInstanceIds ((offset, key) :: rest) =
              (allocatePinned xs orderedCardIds (usedInstanceIds ++ [chosen.instanceId]) rest).map
                (chosen :: ·) := by
            rw [allocatePinned, hexpected]
            dsimp only
            rw [if_neg hkey]
            rw [poolOf] at hfound
            rw [hfound]
          -- The pool has lost the card that was taken, and the key is counted once less.
          have hcount' : ∀ other, (rest.map Prod.snd).count other ≤
              (poolOf xs (usedInstanceIds ++ [chosen.instanceId]) other).length := by
            intro other
            have hbefore := hcount other
            have htaken := length_poolOf_le hunique usedInstanceIds hmem.1 other
            rw [hmem.2.2] at htaken
            rw [List.map_cons, List.count_cons] at hbefore
            simp only [beq_iff_eq] at hbefore
            by_cases heq : key = other
            · rw [if_pos heq] at hbefore htaken
              omega
            · rw [if_neg heq] at hbefore htaken
              omega
          rcases ih (usedInstanceIds ++ [chosen.instanceId]) hcount'
            (fun constraint hin => hlength constraint (List.mem_cons_of_mem _ hin)) with
            hok | herror
          · rcases hok with ⟨cards, hcards⟩
            exact .inl ⟨chosen :: cards, by rw [hstep, hcards]; rfl⟩
          · rcases herror with ⟨offset', key', expectedCardId', hin, hat, hne, herror⟩
            refine .inr ⟨offset', key', expectedCardId', List.mem_cons_of_mem _ hin, hat, hne, ?_⟩
            rw [hstep, herror]
            rfl

/-- Where no more copies of an id are asked for than there are, there are enough. -/
theorem allocateTail_isOk (cardIds : List String) : ∀ xs : List CardInstanceSnapshot,
    cardIds.Subperm (xs.map (·.cardId)) → ∃ cards, allocateTail xs cardIds = .ok cards := by
  induction cardIds with
  | nil => exact fun _ _ => ⟨[], rfl⟩
  | cons cardId rest ih =>
      intro xs hsub
      rcases List.mem_map.mp (hsub.subset List.mem_cons_self) with ⟨copy, hcopy, hid⟩
      rcases hfound : xs.find? fun card => card.cardId = cardId with _ | card
      · rw [List.find?_eq_none] at hfound
        exact absurd (decide_eq_true hid) (hfound copy hcopy)
      · have hcard : card.cardId = cardId := by
          simpa using List.find?_some hfound
        have hperm := (cons_eraseP_perm hfound).map (·.cardId)
        rw [List.map_cons, hcard] at hperm
        have hrest : rest.Subperm ((xs.eraseP fun card => card.cardId = cardId).map (·.cardId)) :=
          (List.subperm_cons cardId).mp (hsub.trans hperm.symm.subperm)
        rcases ih _ hrest with ⟨cards, hcards⟩
        refine ⟨card :: cards, ?_⟩
        rw [allocateTail, hfound]
        dsimp only
        rw [hcards]
        rfl

/-- The check of the pinned keys: there are enough cards of each, of one behaviour. -/
theorem checkPinnedKeys_eq_ok {pinnedKeys keys : List ObservableCardKey} :
    checkPinnedKeys xs pinnedKeys keys = .ok () ↔ ∀ key ∈ keys,
      pinnedKeys.count key ≤ (xs.filter fun card => card.observableCardKey = key).length ∧
        ((xs.filter fun card => card.observableCardKey = key).map
          CardInstanceSnapshot.replayInternalKey).dedup.length = 1 := by
  induction keys with
  | nil => exact ⟨fun _ _ hmem => (by cases hmem), fun _ => rfl⟩
  | cons key rest ih =>
      rw [List.forall_mem_cons, ← ih, checkPinnedKeys]
      split
      · rename_i hfew
        exact ⟨fun h => (by cases h), fun h => absurd h.1.1 (by omega)⟩
      · rename_i henough
        split
        · rename_i hmany
          exact ⟨fun h => (by cases h), fun h => absurd h.1.2 hmany⟩
        · rename_i hone
          exact ⟨fun h => ⟨⟨by omega, not_not.mp hone⟩, h⟩, fun h => h.2⟩

/-- Once the keys are checked, all places are filled, unless an id is the wrong one. -/
theorem allocateCards_outcome (hunique : (xs.map (·.instanceId)).Nodup)
    {orderedCardIds : List String} (hperm : orderedCardIds.Perm (xs.map (·.cardId)))
    {pinned : VisibleDrawConstraints} (hcontiguous : isContiguousPrefix pinned = true)
    (hchecked : checkPinnedKeys xs (pinned.map (·.2)) (pinned.map (·.2)).eraseDups = .ok ()) :
    (∃ cards, allocateCards xs orderedCardIds pinned = .ok cards) ∨
      ∃ offset key expectedCardId, (offset, key) ∈ pinned ∧
        orderedCardIds[offset]? = some expectedCardId ∧ key.cardId ≠ expectedCardId ∧
        allocateCards xs orderedCardIds pinned =
          .error (pinnedCardIdMismatch offset key expectedCardId) := by
  have hcount : ∀ key, (pinned.map Prod.snd).count key ≤ (poolOf xs [] key).length := by
    intro key
    by_cases hkey : key ∈ pinned.map Prod.snd
    · have h := (checkPinnedKeys_eq_ok.mp hchecked key (List.mem_eraseDups.mpr hkey)).1
      simpa [poolOf] using h
    · rw [List.count_eq_zero_of_not_mem hkey]
      exact Nat.zero_le _
  -- No more cards are pinned than there are.
  have hsub : (pinned.map Prod.snd).Subperm (xs.map CardInstanceSnapshot.observableCardKey) := by
    rw [List.subperm_ext_iff]
    intro key _
    refine (hcount key).trans (le_of_eq ?_)
    rw [List.count, List.countP_map, List.countP_eq_length_filter, poolOf]
    congr 1
    refine List.filter_congr fun card _ => ?_
    simp [beq_eq_decide]
  have hlength : ∀ constraint ∈ pinned, constraint.1 < orderedCardIds.length := by
    intro constraint hmem
    have hoffset : constraint.1 ∈ List.range' 0 pinned.length := by
      rw [← offsets_of_contiguous hcontiguous]
      exact List.mem_map_of_mem hmem
    have hpins := hsub.length_le
    have hcards := hperm.length_eq
    rw [List.length_map, List.length_map] at hpins
    rw [List.length_map] at hcards
    rw [List.mem_range'_1] at hoffset
    omega
  unfold allocateCards
  rcases allocatePinned_outcome hunique orderedCardIds pinned [] hcount hlength with hok | herror
  · left
    rcases hok with ⟨pinnedCards, hpinned⟩
    rcases allocatePinned_spec orderedCardIds pinned 0 [] pinnedCards
      (offsets_of_contiguous hcontiguous) hpinned with ⟨hnumber, hids, hmem, hnodup, -⟩
    rw [hpinned]
    dsimp only
    -- What is asked for and what is left are the ids without the pinned ones.
    have hleft : (orderedCardIds.drop pinnedCards.length).Perm
        ((sortedByIdentity (xs.filter fun card =>
          card.instanceId ∉ pinnedCards.map (·.instanceId))).map (·.cardId)) := by
      have hall := (perm_of_pinned hunique (fun card hcard => (hmem card hcard).1) hnodup).map
        (·.cardId)
      rw [List.map_append, hids, List.drop_zero, ← hnumber] at hall
      refine (List.perm_append_left_iff (orderedCardIds.take pinnedCards.length)).mp ?_
      rw [List.take_append_drop]
      exact hperm.trans hall.symm
    rcases allocateTail_isOk _ _ hleft.subperm with ⟨others, hothers⟩
    exact ⟨_, by rw [hothers]; rfl⟩
  · right
    rcases herror with ⟨offset, key, expectedCardId, hin, hat, hne, herror⟩
    refine ⟨offset, key, expectedCardId, hin, hat, hne, ?_⟩
    rw [herror]

end Pools

/-!
### The law

What a snapshot becomes under a hypothesis, and when it does.
-/

section Law

/-- What a substitution writes: the cards of the draw pile in the order of the hypothesis,
    at places that count up from nought, the pinned ones where they are pinned, and the
    stream. It leaves the rest. -/
structure Substituted (root : CombatStateSnapshot ρ) (hypothesis : SearchHypothesisId)
    (pinned : VisibleDrawConstraints) (derived : CombatStateSnapshot ρ) : Prop where
  cards : ((derived.cardsInZone "draw_pile").map CardInstanceSnapshot.forgetPile).Perm
    ((root.cardsInZone "draw_pile").map CardInstanceSnapshot.forgetPile)
  cardIds : (derived.cardsInZone "draw_pile").map (·.cardId) = hypothesis.orderedDrawPileCardIds
  places : (derived.cardsInZone "draw_pile").map (·.pileIndex) =
    (List.range (root.cardsInZone "draw_pile").length).map fun index : Nat => some (index : Int)
  pins : ∀ offset key, (offset, key) ∈ pinned → ∃ card,
    (derived.cardsInZone "draw_pile")[offset]? = some card ∧ card.observableCardKey = key
  instances : derived.cardInstances.map CardInstanceSnapshot.hideDrawOrder =
    root.cardInstances.map CardInstanceSnapshot.hideDrawOrder
  piles : ∀ zone, zone ≠ "draw_pile" → derived.cardsInZone zone = root.cardsInZone zone
  shuffle : derived.shuffle = some hypothesis.rng
  rest : derived.rest = root.rest

/-- The checks that come before the cards are handed out. -/
structure PinsChecked (root : CombatStateSnapshot ρ) (orderedCardIds : List String)
    (pinned : VisibleDrawConstraints) : Prop where
  multiset : orderedCardIds.Perm ((root.cardsInZone "draw_pile").map (·.cardId))
  contiguous : isContiguousPrefix pinned = true
  unambiguous : checkPinnedKeys (root.cardsInZone "draw_pile") (pinned.map (·.2))
    (pinned.map (·.2)).eraseDups = .ok ()

variable {root : CombatStateSnapshot ρ} {hypothesis : SearchHypothesisId}
  {pinned : VisibleDrawConstraints}

theorem drawPileInstances_of_checked
    (h : PinsChecked root hypothesis.orderedDrawPileCardIds pinned) :
    drawPileInstancesForHypothesis root hypothesis.orderedDrawPileCardIds pinned =
      allocateCards (root.cardsInZone "draw_pile") hypothesis.orderedDrawPileCardIds pinned := by
  unfold drawPileInstancesForHypothesis
  dsimp only
  rw [if_neg (not_not.mpr h.multiset), if_neg (not_not.mpr h.contiguous), h.unambiguous]

/-- A substitution that succeeds has passed the checks. -/
theorem checked_of_ok {derived : CombatStateSnapshot ρ}
    (h : deriveSubstitutedSnapshot root hypothesis pinned = .ok derived) :
    root.shuffle.isSome ∧ PinsChecked root hypothesis.orderedDrawPileCardIds pinned := by
  unfold deriveSubstitutedSnapshot at h
  split at h
  · cases h
  · rename_i shuffle hshuffle
    rcases (Except.map_eq_ok _ _ _).mp h with ⟨orderedDrawPile, hordered, -⟩
    unfold drawPileInstancesForHypothesis at hordered
    dsimp only at hordered
    split at hordered
    · cases hordered
    · rename_i hperm
      split at hordered
      · cases hordered
      · rename_i hcontiguous
        split at hordered
        · cases hordered
        · rename_i hkeys
          exact ⟨by rw [hshuffle]; rfl, not_not.mp hperm, not_not.mp hcontiguous, hkeys⟩

/-- A substitution that succeeds has written an order of the draw pile. -/
theorem deriveSubstitutedSnapshot_eq_ok {derived : CombatStateSnapshot ρ}
    (h : deriveSubstitutedSnapshot root hypothesis pinned = .ok derived) :
    ∃ orderedDrawPile, drawPileInstancesForHypothesis root hypothesis.orderedDrawPileCardIds
        pinned = .ok orderedDrawPile ∧
      derived = withDrawPile root orderedDrawPile hypothesis.rng := by
  unfold deriveSubstitutedSnapshot at h
  split at h
  · cases h
  · rcases (Except.map_eq_ok _ _ _).mp h with ⟨orderedDrawPile, hordered, rfl⟩
    exact ⟨orderedDrawPile, hordered, rfl⟩

/-- A pin stands where its offset says. -/
theorem getElem?_of_contiguous (hcontiguous : isContiguousPrefix pinned = true) {offset : Nat}
    {key : ObservableCardKey} (hmem : (offset, key) ∈ pinned) :
    pinned[offset]? = some (offset, key) := by
  rcases List.mem_iff_getElem?.mp hmem with ⟨index, hindex⟩
  have hoffsets : (pinned.map Prod.fst)[index]? = some offset := by
    rw [List.getElem?_map, hindex]
    rfl
  rw [offsets_of_contiguous hcontiguous, ← List.range_eq_range',
    List.getElem?_range (List.getElem?_eq_some_iff.mp hindex).1] at hoffsets
  rwa [Option.some.inj hoffsets] at hindex

/-- A substitution that succeeds is the one the hypothesis asks for. -/
theorem substituted_of_ok (hunique : (root.cardInstances.map (·.instanceId)).Nodup)
    {derived : CombatStateSnapshot ρ}
    (h : deriveSubstitutedSnapshot root hypothesis pinned = .ok derived) :
    Substituted root hypothesis pinned derived := by
  rcases deriveSubstitutedSnapshot_eq_ok h with ⟨orderedDrawPile, hordered, rfl⟩
  -- The ordered draw pile is the draw pile in another order, with the pinned cards in front.
  rcases drawPileInstances_spec hunique hordered with ⟨-, hcontiguous, hids, hperm, hkeys⟩
  -- So the derived snapshot's draw pile is that order with new places.
  have hpile := withDrawPile_drawPile hunique hperm hypothesis.rng
  have hsame : (placed orderedDrawPile).map CardInstanceSnapshot.forgetPile =
      orderedDrawPile.map CardInstanceSnapshot.forgetPile := by
    refine List.ext_getElem? fun index => ?_
    rw [List.getElem?_map, List.getElem?_map, placed_getElem?]
    rcases hcard : orderedDrawPile[index]? with _ | card
    · rfl
    · have hmem := mem_cardsInZone.mp (hperm.mem_iff.mp (List.mem_of_getElem? hcard))
      rw [Option.map_some, Option.map_some, Option.map_some, placedAt_forgetPile hmem.2]
  exact
    { cards := by
        rw [hpile, hsame]
        exact hperm.map _
      cardIds := by rw [hpile, placed_cardIds, hids]
      places := by rw [hpile, placed_pileIndex, hperm.length_eq]
      pins := by
        -- A pin at an offset is the key of the card that was put there.
        intro offset key hpin
        have hkey : (pinned.map Prod.snd)[offset]? = some key := by
          rw [List.getElem?_map, getElem?_of_contiguous hcontiguous hpin]
          rfl
        have hoffset : offset < pinned.length := by
          have hlt := (List.getElem?_eq_some_iff.mp hkey).1
          rwa [List.length_map] at hlt
        rw [← hkeys, List.getElem?_map, List.getElem?_take_of_lt hoffset,
          Option.map_eq_some_iff] at hkey
        rcases hkey with ⟨card, hcard, hseen⟩
        exact ⟨placedAt offset card, by rw [hpile, placed_getElem?, hcard]; rfl, hseen⟩
      instances := withDrawPile_hide hunique hperm _
      piles := fun zone hzone => withDrawPile_zone hunique hperm _ hzone
      shuffle := rfl
      rest := rfl }

/-- Once the pins are checked the cards are handed out, unless an id is the wrong one. -/
theorem deriveSubstitutedSnapshot_of_checked
    (hunique : (root.cardInstances.map (·.instanceId)).Nodup) (hshuffle : root.shuffle.isSome)
    (hchecked : PinsChecked root hypothesis.orderedDrawPileCardIds pinned) :
    (∃ derived, deriveSubstitutedSnapshot root hypothesis pinned = .ok derived) ∨
      ∃ offset key expectedCardId, (offset, key) ∈ pinned ∧
        hypothesis.orderedDrawPileCardIds[offset]? = some expectedCardId ∧
        key.cardId ≠ expectedCardId ∧ deriveSubstitutedSnapshot root hypothesis pinned =
          .error (pinnedCardIdMismatch offset key expectedCardId) := by
  rcases Option.isSome_iff_exists.mp hshuffle with ⟨shuffle, hshuffle⟩
  unfold deriveSubstitutedSnapshot
  rw [hshuffle, drawPileInstances_of_checked hchecked]
  rcases allocateCards_outcome (nodup_cardsInZone hunique _) hchecked.multiset hchecked.contiguous
    hchecked.unambiguous with hok | herror
  · rcases hok with ⟨cards, hcards⟩
    exact .inl ⟨_, by rw [hcards]; rfl⟩
  · rcases herror with ⟨offset, key, expectedCardId, hin, hat, hne, herror⟩
    exact .inr ⟨offset, key, expectedCardId, hin, hat, hne, by rw [herror]; rfl⟩

end Law

end Combat

end STS2RL
