import STS2RL.Combat.RngHypothesis
import Mathlib.Data.List.Dedup

/-!
# Hypotheses Do Not See the Draw Order

Two snapshots that differ only in the places of their draw-pile cards give the
same branch under every hypothesis, as long as no draw has been seen. What a
hypothesis reads of the draw pile is the multiset of its card ids, which has no
order; and the copies it hands out are ordered by records in which the instance
stands before the place. After the substitution every draw-pile card has a new
place, so nothing of the old one is left.

The comparison runs on cards that have forgotten their places: each function
below gives the same of two piles whose forgotten cards are permutations of each
other.

## Main definitions

* `SameButDrawOrder`: Two snapshots that differ only in the draw order.

## Theorems

* `sortedByIdentity_forget`: Piles of the same cards are sorted alike.
* `allocateCards_forget`, `allocateCards_perm`: The same copies are handed out.
* `drawPileInstances_spec`: An allocation that succeeds uses every card.
* `deriveSubstitutedSnapshot_blind`: The same snapshot is derived.
* `hypothesis_blind`: The same branch is built.
-/

namespace STS2RL

namespace Combat

variable {ρ β : Type}

/-!
### Sorting by identity

Cards are sorted by their ids before anything is allocated, so the order they were in is
forgotten.
-/

section Sorting

/-- Sorting what is in some order by a total order does not depend on that order. -/
theorem insertionSort_perm {α : Type} {r : α → α → Prop} [DecidableRel r] [Std.Total r]
    [IsTrans α r] {xs ys : List α}
    (hantisymm : ∀ a ∈ xs, ∀ b ∈ xs, r a b → r b a → a = b) (h : xs.Perm ys) :
    xs.insertionSort r = ys.insertionSort r := by
  refine List.Perm.eq_of_pairwise (fun a b ha hb => ?_) (List.pairwise_insertionSort r xs)
    (List.pairwise_insertionSort r ys)
    ((List.perm_insertionSort r xs).trans (h.trans (List.perm_insertionSort r ys).symm))
  have ha' := (List.mem_insertionSort r).mp ha
  have hb' := h.mem_iff.mpr ((List.mem_insertionSort r).mp hb)
  exact hantisymm a ha' b hb'

/-- A multiset does not depend on the order it is read in. -/
theorem sortedCounts_perm {texts texts' : List String} (h : texts.Perm texts') :
    sortedCounts texts = sortedCounts texts' := by
  unfold sortedCounts
  rw [insertionSort_perm (fun a _ b _ hab hba => le_antisymm hab hba) h.dedup]
  refine List.map_congr_left fun text _ => ?_
  rw [h.count_eq]

theorem identityLe_iff_le (a b : CardInstanceSnapshot) :
    identityLe a b ↔ a.identityKey ≤ b.identityKey := by
  unfold identityLe
  exact not_lt

instance : Std.Total identityLe := by
  refine ⟨fun a b => ?_⟩
  rw [identityLe_iff_le, identityLe_iff_le]
  exact le_total a.identityKey b.identityKey

instance : IsTrans CardInstanceSnapshot identityLe := by
  refine ⟨fun a b c hab hbc => ?_⟩
  rw [identityLe_iff_le] at hab hbc ⊢
  exact le_trans hab hbc

variable {xs ys : List CardInstanceSnapshot}

theorem eq_of_instanceId_eq (hunique : (xs.map (·.instanceId)).Nodup) {a b : CardInstanceSnapshot}
    (ha : a ∈ xs) (hb : b ∈ xs) (h : a.instanceId = b.instanceId) : a = b :=
  List.inj_on_of_nodup_map hunique ha hb h

/-- Different instances are ordered by what stands before their places. -/
theorem identityLe_iff {a b : CardInstanceSnapshot} (h : a.instanceId ≠ b.instanceId) :
    identityLe a b ↔ a.textBeforePile ≤ b.textBeforePile := by
  unfold identityLe
  rw [CardInstanceSnapshot.identityKey_lt_iff h.symm, not_lt]

/-- The sorted cards of a pile do not depend on the order of the pile. -/
theorem sortedByIdentity_perm (hunique : (xs.map (·.instanceId)).Nodup) (h : xs.Perm ys) :
    sortedByIdentity xs = sortedByIdentity ys := by
  refine insertionSort_perm (fun a ha b hb hab hba => ?_) h
  by_cases hinstance : a.instanceId = b.instanceId
  · exact eq_of_instanceId_eq hunique ha hb hinstance
  · rw [identityLe_iff hinstance] at hab
    rw [identityLe_iff (Ne.symm hinstance)] at hba
    exact absurd (le_antisymm hab hba) (CardInstanceSnapshot.textBeforePile_ne hinstance)

/-- Cards that forget their places are sorted as they were. -/
theorem sortedByIdentity_forget (hunique : (xs.map (·.instanceId)).Nodup) :
    (sortedByIdentity xs).map CardInstanceSnapshot.forgetPile =
      sortedByIdentity (xs.map CardInstanceSnapshot.forgetPile) := by
  refine List.map_insertionSort identityLe identityLe _ xs fun a ha b hb => ?_
  by_cases hinstance : a.instanceId = b.instanceId
  · rw [eq_of_instanceId_eq hunique ha hb hinstance]
    exact ⟨fun _ => lt_irrefl _, fun _ => lt_irrefl _⟩
  · have hforget : a.forgetPile.instanceId ≠ b.forgetPile.instanceId := hinstance
    rw [identityLe_iff hinstance, identityLe_iff hforget]
    rfl

theorem filter_forget (p : CardInstanceSnapshot → Bool) (hp : ∀ card, p card.forgetPile = p card) :
    (xs.filter p).map CardInstanceSnapshot.forgetPile =
      (xs.map CardInstanceSnapshot.forgetPile).filter p := by
  rw [List.filter_map]
  congr 1
  refine List.filter_congr fun card _ => ?_
  exact (hp card).symm

theorem nodup_filter (hunique : (xs.map (·.instanceId)).Nodup) (p : CardInstanceSnapshot → Bool) :
    ((xs.filter p).map (·.instanceId)).Nodup :=
  hunique.sublist (List.filter_sublist.map _)

end Sorting

/-!
### Allocation

Pinned cards are allocated first and the others after them, by the card ids of the
hypothesis. The places in the draw pile are not looked at.
-/

section Allocation

variable {xs ys : List CardInstanceSnapshot}

/-- The cards that may be pinned next. -/
theorem pinned_found_forget (hunique : (xs.map (·.instanceId)).Nodup)
    (usedInstanceIds : List String) (key : ObservableCardKey) :
    (sortedByIdentity (xs.filter fun card =>
        card.instanceId ∉ usedInstanceIds ∧ card.observableCardKey = key)).map
          CardInstanceSnapshot.forgetPile =
      sortedByIdentity ((xs.map CardInstanceSnapshot.forgetPile).filter fun card =>
        card.instanceId ∉ usedInstanceIds ∧ card.observableCardKey = key) := by
  rw [sortedByIdentity_forget (nodup_filter hunique _), filter_forget _ fun _ => rfl]

-- Each function of the allocation commutes with forgetting the places.
/-- The pinned cards are the same without their places. -/
theorem allocatePinned_forget (hunique : (xs.map (·.instanceId)).Nodup)
    (orderedCardIds : List String) (pinned : VisibleDrawConstraints) : ∀ usedInstanceIds,
    (allocatePinned xs orderedCardIds usedInstanceIds pinned).map
        (List.map CardInstanceSnapshot.forgetPile) =
      allocatePinned (xs.map CardInstanceSnapshot.forgetPile) orderedCardIds usedInstanceIds
        pinned := by
  induction pinned with
  | nil => exact fun _ => rfl
  | cons constraint rest ih =>
      intro usedInstanceIds
      rcases constraint with ⟨offset, key⟩
      unfold allocatePinned
      rw [← pinned_found_forget hunique usedInstanceIds key]
      cases orderedCardIds[offset]? with
      | none => rfl
      | some expectedCardId =>
          dsimp only
          by_cases hkey : key.cardId ≠ expectedCardId
          · rw [if_pos hkey, if_pos hkey]
            rfl
          · rw [if_neg hkey, if_neg hkey]
            cases sortedByIdentity (xs.filter fun card =>
              card.instanceId ∉ usedInstanceIds ∧ card.observableCardKey = key) with
            | nil => rfl
            | cons chosen others =>
                rw [List.map_cons]
                dsimp only
                rw [CardInstanceSnapshot.forgetPile_instanceId, ← ih, Except.map_map,
                  Except.map_map]
                rfl

/-- And so are the others. -/
theorem allocateTail_forget (orderedCardIds : List String) :
    ∀ xs : List CardInstanceSnapshot, (allocateTail xs orderedCardIds).map
        (List.map CardInstanceSnapshot.forgetPile) =
      allocateTail (xs.map CardInstanceSnapshot.forgetPile) orderedCardIds := by
  induction orderedCardIds with
  | nil => exact fun _ => rfl
  | cons cardId rest ih =>
      intro xs
      unfold allocateTail
      rw [List.find?_map, List.eraseP_map]
      have hcardId : ((fun card : CardInstanceSnapshot => decide (card.cardId = cardId)) ∘
          CardInstanceSnapshot.forgetPile) = fun card => decide (card.cardId = cardId) := rfl
      rw [hcardId]
      cases xs.find? fun card => card.cardId = cardId with
      | none => rfl
      | some card =>
          dsimp only [Option.map_some]
          rw [← ih, Except.map_map, Except.map_map]
          rfl

/-- So the allocation does not depend on where the cards were. -/
theorem allocateCards_forget (hunique : (xs.map (·.instanceId)).Nodup)
    (orderedCardIds : List String) (pinned : VisibleDrawConstraints) :
    (allocateCards xs orderedCardIds pinned).map (List.map CardInstanceSnapshot.forgetPile) =
      allocateCards (xs.map CardInstanceSnapshot.forgetPile) orderedCardIds pinned := by
  unfold allocateCards
  rw [← allocatePinned_forget hunique]
  cases allocatePinned xs orderedCardIds [] pinned with
  | error exc => rfl
  | ok pinnedCards =>
      have hids : (pinnedCards.map CardInstanceSnapshot.forgetPile).map (·.instanceId) =
          pinnedCards.map (·.instanceId) := by
        rw [List.map_map]
        rfl
      have hsorted : (sortedByIdentity (xs.filter fun card =>
            card.instanceId ∉ pinnedCards.map (·.instanceId))).map CardInstanceSnapshot.forgetPile =
          sortedByIdentity ((xs.map CardInstanceSnapshot.forgetPile).filter fun card =>
            card.instanceId ∉ pinnedCards.map (·.instanceId)) := by
        rw [sortedByIdentity_forget (nodup_filter hunique _), filter_forget _ fun _ => rfl]
      simp only [Except.map, List.length_map, hids, ← hsorted]
      rw [← allocateTail_forget]
      cases allocateTail (sortedByIdentity (xs.filter fun card =>
          card.instanceId ∉ pinnedCards.map (·.instanceId)))
        (orderedCardIds.drop pinnedCards.length) with
      | error exc => rfl
      | ok cards => simp [Except.map]

theorem allocatePinned_perm (hunique : (xs.map (·.instanceId)).Nodup) (h : xs.Perm ys)
    (orderedCardIds : List String) (pinned : VisibleDrawConstraints) : ∀ usedInstanceIds,
    allocatePinned xs orderedCardIds usedInstanceIds pinned =
      allocatePinned ys orderedCardIds usedInstanceIds pinned := by
  induction pinned with
  | nil => exact fun _ => rfl
  | cons constraint rest ih =>
      intro usedInstanceIds
      unfold allocatePinned
      rw [sortedByIdentity_perm (nodup_filter hunique _) (h.filter _)]
      simp only [ih]

/-- The same cards are handed out whatever order the pile is in. -/
theorem allocateCards_perm (hunique : (xs.map (·.instanceId)).Nodup) (h : xs.Perm ys)
    (orderedCardIds : List String) (pinned : VisibleDrawConstraints) :
    allocateCards xs orderedCardIds pinned = allocateCards ys orderedCardIds pinned := by
  unfold allocateCards
  rw [allocatePinned_perm hunique h]
  cases allocatePinned ys orderedCardIds [] pinned with
  | error exc => rfl
  | ok pinnedCards =>
      dsimp only
      rw [sortedByIdentity_perm (nodup_filter hunique _) (h.filter _)]

/-- The pinned cards are distinct cards of the pile, with the ids of their positions and
    the pinned keys. -/
theorem allocatePinned_spec (orderedCardIds : List String) (pinned : VisibleDrawConstraints) :
    ∀ (start : Nat) (usedInstanceIds : List String) (cards : List CardInstanceSnapshot),
      pinned.map Prod.fst = List.range' start pinned.length →
      allocatePinned xs orderedCardIds usedInstanceIds pinned = .ok cards →
      cards.length = pinned.length ∧
        cards.map (·.cardId) = (orderedCardIds.drop start).take pinned.length ∧
        (∀ card ∈ cards, card ∈ xs ∧ card.instanceId ∉ usedInstanceIds) ∧
        (cards.map (·.instanceId)).Nodup ∧
        cards.map CardInstanceSnapshot.observableCardKey = pinned.map Prod.snd := by
  -- The induction is on the pins, which name successive offsets. What was taken before may not
  -- be taken again.
  induction pinned with
  | nil =>
      intro start usedInstanceIds cards _ h
      cases h
      exact ⟨rfl, by simp, fun card hmem => (by cases hmem), List.nodup_nil, rfl⟩
  | cons constraint rest ih =>
      intro start usedInstanceIds cards hoffsets h
      rcases constraint with ⟨offset, key⟩
      rw [List.map_cons, List.length_cons, List.range'_succ, List.cons.injEq] at hoffsets
      rcases hoffsets with ⟨rfl, hoffsets⟩
      unfold allocatePinned at h
      split at h
      · cases h
      · rename_i expectedCardId hexpected
        split at h
        · cases h
        · rename_i hkey
          -- The chosen card is in the pool of the pin: unused, and alike in what can be
          -- observed.
          split at h
          · cases h
          · rename_i chosen others hfound
            rcases (Except.map_eq_ok _ _ _).mp h with ⟨later, hlater, rfl⟩
            rcases ih (offset + 1) _ later hoffsets hlater with
              ⟨hlength, hids, hmem, hnodup, hkeys⟩
            have hchosen : chosen ∈ xs.filter fun card =>
                card.instanceId ∉ usedInstanceIds ∧ card.observableCardKey = key := by
              refine (List.mem_insertionSort identityLe).mp ?_
              change chosen ∈ sortedByIdentity _
              rw [hfound]
              exact List.mem_cons_self
            rw [List.mem_filter, decide_eq_true_eq] at hchosen
            rcases hchosen with ⟨hin, hunused, hobservable⟩
            -- Its id is the one that the hypothesis has at the offset.
            have hcardId : chosen.cardId = expectedCardId := by
              rw [← not_not.mp hkey, ← hobservable]
              rfl
            rcases List.getElem?_eq_some_iff.mp hexpected with ⟨hlt, hget⟩
            refine ⟨by simp [hlength], ?_, ?_, ?_, by
              rw [List.map_cons, List.map_cons, hkeys, hobservable]⟩
            · rw [List.drop_eq_getElem_cons hlt, List.map_cons, List.length_cons,
                List.take_succ_cons,
                hids, hcardId, hget]
            · intro card hcard
              rcases List.mem_cons.mp hcard with rfl | hcard
              · exact ⟨hin, hunused⟩
              · exact ⟨(hmem card hcard).1, fun hused =>
                  (hmem card hcard).2 (List.mem_append_left _ hused)⟩
            -- The later cards are not it, since its id is among those used when they were taken.
            · refine List.nodup_cons.mpr ⟨fun hsame => ?_, hnodup⟩
              rcases List.mem_map.mp hsame with ⟨card, hcard, heq⟩
              refine (hmem card hcard).2 (List.mem_append_right _ ?_)
              rw [heq]
              exact List.mem_singleton_self _

theorem cons_eraseP_perm {p : CardInstanceSnapshot → Bool} {card : CardInstanceSnapshot}
    (h : xs.find? p = some card) : (card :: xs.eraseP p).Perm xs := by
  induction xs with
  | nil => cases h
  | cons head rest ih =>
      by_cases hp : p head = true
      · rw [List.find?_cons_of_pos hp] at h
        cases h
        rw [List.eraseP_cons_of_pos hp]
      · rw [List.find?_cons_of_neg hp] at h
        rw [List.eraseP_cons_of_neg hp]
        exact (List.Perm.swap head card _).trans ((ih h).cons head)

/-- The other positions have the ids that were asked for, each from a card of its own. -/
theorem allocateTail_spec (cardIds : List String) :
    ∀ (xs cards : List CardInstanceSnapshot), allocateTail xs cardIds = .ok cards →
      cards.map (·.cardId) = cardIds ∧ ∃ rest, (cards ++ rest).Perm xs := by
  induction cardIds with
  | nil =>
      intro xs cards h
      cases h
      exact ⟨rfl, xs, .refl _⟩
  | cons cardId rest ih =>
      intro xs cards h
      unfold allocateTail at h
      split at h
      · cases h
      · rename_i card hfound
        rcases (Except.map_eq_ok _ _ _).mp h with ⟨later, hlater, rfl⟩
        rcases ih _ later hlater with ⟨hids, unused, hperm⟩
        have hpicked := List.find?_some hfound
        have hcardId : card.cardId = cardId := of_decide_eq_true hpicked
        refine ⟨by rw [List.map_cons, hids, hcardId], unused, ?_⟩
        exact (hperm.cons card).trans (cons_eraseP_perm hfound)

/-- Distinct cards of the pile, and those that have none of their ids, are the pile. -/
theorem perm_of_pinned (hunique : (xs.map (·.instanceId)).Nodup)
    {pinnedCards : List CardInstanceSnapshot} (hmem : ∀ card ∈ pinnedCards, card ∈ xs)
    (hnodup : (pinnedCards.map (·.instanceId)).Nodup) :
    (pinnedCards ++ sortedByIdentity (xs.filter fun card =>
      card.instanceId ∉ pinnedCards.map (·.instanceId))).Perm xs := by
  have hpart : pinnedCards.Perm (xs.filter fun card =>
      card.instanceId ∈ pinnedCards.map (·.instanceId)) := by
    refine (List.perm_ext_iff_of_nodup (List.Nodup.of_map _ hnodup)
      (List.Nodup.of_map _ (nodup_filter hunique _))).mpr fun card => ?_
    rw [List.mem_filter, decide_eq_true_eq]
    constructor
    · intro hcard
      exact ⟨hmem card hcard, List.mem_map_of_mem hcard⟩
    · rintro ⟨hcard, hsame⟩
      rcases List.mem_map.mp hsame with ⟨other, hother, heq⟩
      rw [eq_of_instanceId_eq hunique hcard (hmem other hother) heq.symm]
      exact hother
  have hrest : (sortedByIdentity (xs.filter fun card =>
      card.instanceId ∉ pinnedCards.map (·.instanceId))).Perm (xs.filter fun card =>
        !decide (card.instanceId ∈ pinnedCards.map (·.instanceId))) := by
    refine (List.perm_insertionSort identityLe _).trans ?_
    exact List.Perm.of_eq (List.filter_congr fun card _ => decide_not)
  exact (hpart.append hrest).trans (List.filter_append_perm _ xs)

theorem offsets_of_contiguous {pinned : VisibleDrawConstraints}
    (hcontiguous : isContiguousPrefix pinned = true) :
    pinned.map Prod.fst = List.range' 0 pinned.length := by
  rw [← List.range_eq_range']
  exact of_decide_eq_true hcontiguous

/-- An allocation that succeeds uses every card of the pile, in the order that
    was asked for, with the pinned ones first. -/
theorem allocateCards_spec (hunique : (xs.map (·.instanceId)).Nodup) {orderedCardIds : List String}
    (hperm : orderedCardIds.Perm (xs.map (·.cardId))) {pinned : VisibleDrawConstraints}
    (hcontiguous : isContiguousPrefix pinned = true) {cards : List CardInstanceSnapshot}
    (h : allocateCards xs orderedCardIds pinned = .ok cards) :
    cards.map (·.cardId) = orderedCardIds ∧ cards.Perm xs ∧
      (cards.take pinned.length).map CardInstanceSnapshot.observableCardKey =
        pinned.map Prod.snd := by
  unfold allocateCards at h
  split at h
  · cases h
  · rename_i pinnedCards hpinned
    rcases (Except.map_eq_ok _ _ _).mp h with ⟨others, hothers, rfl⟩
    rcases allocatePinned_spec orderedCardIds pinned 0 [] pinnedCards
      (offsets_of_contiguous hcontiguous) hpinned with
      ⟨hlength, hpinnedIds, hpinnedMem, hpinnedNodup, hpinnedKeys⟩
    rcases allocateTail_spec _ _ others hothers with ⟨hothersIds, unused, hothersPerm⟩
    have hids : (pinnedCards ++ others).map (·.cardId) = orderedCardIds := by
      rw [List.map_append, hpinnedIds, hothersIds, List.drop_zero, hlength]
      exact List.take_append_drop pinned.length orderedCardIds
    -- The pinned cards are the part of the pile that the others are not taken from.
    have hall : (pinnedCards ++ others ++ unused).Perm xs := by
      rw [List.append_assoc]
      exact (hothersPerm.append_left pinnedCards).trans
        (perm_of_pinned hunique (fun card hcard => (hpinnedMem card hcard).1) hpinnedNodup)
    -- As many ids were asked for as there are cards.
    have hunused : unused = [] := by
      have hcards := hall.length_eq
      have hasked := congrArg List.length hids
      have havailable := hperm.length_eq
      simp only [List.length_append, List.length_map] at hcards hasked havailable
      exact List.eq_nil_of_length_eq_zero (by omega)
    rw [hunused, List.append_nil] at hall
    refine ⟨hids, hall, ?_⟩
    rw [← hlength, List.take_left, hpinnedKeys]

end Allocation

/-!
### Substitution

Two roots that differ in the places of their draw piles only have the same cards.
-/

section Substitution

variable {a b : CombatStateSnapshot ρ}

/-- A card that, in the draw pile, has no place. -/
def CardInstanceSnapshot.hideDrawOrder (card : CardInstanceSnapshot) : CardInstanceSnapshot :=
  if card.zone = some "draw_pile" then card.forgetPile else card

/-- Two snapshots that differ only in the places of their draw-pile cards. -/
structure SameButDrawOrder (a b : CombatStateSnapshot ρ) : Prop where
  cardInstances : a.cardInstances.map CardInstanceSnapshot.hideDrawOrder =
    b.cardInstances.map CardInstanceSnapshot.hideDrawOrder
  shuffle : a.shuffle = b.shuffle
  rest : a.rest = b.rest

@[simp]
theorem CardInstanceSnapshot.hideDrawOrder_instanceId (card : CardInstanceSnapshot) :
    card.hideDrawOrder.instanceId = card.instanceId := by
  unfold hideDrawOrder
  split <;> rfl

@[simp]
theorem CardInstanceSnapshot.hideDrawOrder_zone (card : CardInstanceSnapshot) :
    card.hideDrawOrder.zone = card.zone := by
  unfold hideDrawOrder
  split <;> rfl

/-- A card outside the draw pile keeps its place. -/
theorem CardInstanceSnapshot.eq_of_hideDrawOrder_eq {card other : CardInstanceSnapshot}
    (hzone : card.zone ≠ some "draw_pile") (h : card.hideDrawOrder = other.hideDrawOrder) :
    card = other := by
  have hother : other.zone = card.zone := by
    rw [← other.hideDrawOrder_zone, ← h, card.hideDrawOrder_zone]
  unfold hideDrawOrder at h
  rw [if_neg hzone, if_neg (hother ▸ hzone)] at h
  exact h

theorem cardsInZone_perm (snapshot : CombatStateSnapshot ρ) (zone : String) :
    (snapshot.cardsInZone zone).Perm
      (snapshot.cardInstances.filter fun card => card.zone = some zone) :=
  List.perm_insertionSort _ _

theorem mem_cardsInZone {snapshot : CombatStateSnapshot ρ} {zone : String}
    {card : CardInstanceSnapshot} :
    card ∈ snapshot.cardsInZone zone ↔ card ∈ snapshot.cardInstances ∧ card.zone = some zone := by
  rw [(cardsInZone_perm snapshot zone).mem_iff, List.mem_filter, decide_eq_true_eq]

theorem nodup_cardsInZone (hunique : (a.cardInstances.map (·.instanceId)).Nodup) (zone : String) :
    ((a.cardsInZone zone).map (·.instanceId)).Nodup :=
  ((cardsInZone_perm a zone).map _).nodup_iff.mpr (nodup_filter hunique _)

namespace SameButDrawOrder

theorem instanceIds (hsame : SameButDrawOrder a b) :
    a.cardInstances.map (·.instanceId) = b.cardInstances.map (·.instanceId) := by
  have h := congrArg (List.map (·.instanceId)) hsame.cardInstances
  rw [List.map_map, List.map_map] at h
  simpa [Function.comp_def] using h

/-- The draw piles have the same cards, up to their places. -/
theorem drawPile_perm (hsame : SameButDrawOrder a b) :
    ((a.cardsInZone "draw_pile").map CardInstanceSnapshot.forgetPile).Perm
      ((b.cardsInZone "draw_pile").map CardInstanceSnapshot.forgetPile) := by
  have hdraw : ∀ cards : List CardInstanceSnapshot,
      (cards.filter fun card => card.zone = some "draw_pile").map CardInstanceSnapshot.forgetPile =
        (cards.map CardInstanceSnapshot.hideDrawOrder).filter fun card =>
          card.zone = some "draw_pile" := by
    intro cards
    rw [List.filter_map]
    have hzone : ((fun card : CardInstanceSnapshot => decide (card.zone = some "draw_pile")) ∘
        CardInstanceSnapshot.hideDrawOrder) =
          fun card => decide (card.zone = some "draw_pile") := by
      funext card
      simp
    rw [hzone]
    refine List.map_congr_left fun card hcard => ?_
    exact (if_pos (of_decide_eq_true (List.mem_filter.mp hcard).2)).symm
  have ha := (cardsInZone_perm a "draw_pile").map CardInstanceSnapshot.forgetPile
  have hb := (cardsInZone_perm b "draw_pile").map CardInstanceSnapshot.forgetPile
  rw [hdraw, hsame.cardInstances, ← hdraw] at ha
  exact ha.trans hb.symm

theorem cardIds_perm (hsame : SameButDrawOrder a b) :
    ((a.cardsInZone "draw_pile").map (·.cardId)).Perm
      ((b.cardsInZone "draw_pile").map (·.cardId)) := by
  have h := hsame.drawPile_perm.map (·.cardId)
  rw [List.map_map, List.map_map] at h
  exact h

/-- What is public of the draw pile is the same. -/
theorem computePublicMultiset_eq (hsame : SameButDrawOrder a b) :
    computePublicMultiset a = computePublicMultiset b :=
  sortedCounts_perm hsame.cardIds_perm

/-- The same copies are handed out, up to their old places. -/
theorem allocateCards_eq (hsame : SameButDrawOrder a b)
    (hunique : (a.cardInstances.map (·.instanceId)).Nodup) (orderedCardIds : List String)
    (pinned : VisibleDrawConstraints) :
    (allocateCards (a.cardsInZone "draw_pile") orderedCardIds pinned).map
        (List.map CardInstanceSnapshot.forgetPile) =
      (allocateCards (b.cardsInZone "draw_pile") orderedCardIds pinned).map
        (List.map CardInstanceSnapshot.forgetPile) := by
  have huniqueB : (b.cardInstances.map (·.instanceId)).Nodup := hsame.instanceIds ▸ hunique
  have hforget : (((a.cardsInZone "draw_pile").map CardInstanceSnapshot.forgetPile).map
      (·.instanceId)).Nodup := by
    rw [List.map_map]
    exact nodup_cardsInZone hunique "draw_pile"
  rw [allocateCards_forget (nodup_cardsInZone hunique _),
    allocateCards_forget (nodup_cardsInZone huniqueB _)]
  exact allocateCards_perm hforget hsame.drawPile_perm _ _

end SameButDrawOrder

/-- A substituted card has a new place, and nothing is left of its old one. -/
theorem replacementFor_forget (orderedDrawPile : List CardInstanceSnapshot) :
    replacementFor (orderedDrawPile.map CardInstanceSnapshot.forgetPile) =
      replacementFor orderedDrawPile := by
  funext instanceId
  unfold replacementFor
  rw [List.zipIdx_map, List.map_map]
  rfl

/-- Every card that is handed out is replaced. -/
theorem replacementFor_isSome {orderedDrawPile : List CardInstanceSnapshot}
    {card : CardInstanceSnapshot} (h : card ∈ orderedDrawPile) :
    (replacementFor orderedDrawPile card.instanceId).isSome := by
  rcases List.mem_iff_getElem?.mp h with ⟨index, hindex⟩
  unfold replacementFor
  rw [List.find?_isSome]
  refine ⟨{ card with zone := some "draw_pile", pileIndex := some (index : Int) }, ?_,
    decide_eq_true rfl⟩
  rw [List.mem_reverse, List.mem_map]
  exact ⟨(card, index), List.mem_zipIdx_iff_getElem?.mpr hindex, rfl⟩

/-- An order of the draw pile that is handed out uses every card. -/
theorem drawPileInstances_spec (hunique : (a.cardInstances.map (·.instanceId)).Nodup)
    {orderedCardIds : List String} {pinned : VisibleDrawConstraints}
    {orderedDrawPile : List CardInstanceSnapshot}
    (h : drawPileInstancesForHypothesis a orderedCardIds pinned = .ok orderedDrawPile) :
    allocateCards (a.cardsInZone "draw_pile") orderedCardIds pinned = .ok orderedDrawPile ∧
      isContiguousPrefix pinned = true ∧
      orderedDrawPile.map (·.cardId) = orderedCardIds ∧
      orderedDrawPile.Perm (a.cardsInZone "draw_pile") ∧
      (orderedDrawPile.take pinned.length).map CardInstanceSnapshot.observableCardKey =
        pinned.map Prod.snd := by
  unfold drawPileInstancesForHypothesis at h
  dsimp only at h
  split at h
  · cases h
  · rename_i hperm
    split at h
    · cases h
    · rename_i hcontiguous
      split at h
      · cases h
      · exact ⟨h, not_not.mp hcontiguous, allocateCards_spec (nodup_cardsInZone hunique _)
          (not_not.mp hperm) (not_not.mp hcontiguous) h⟩

theorem map_eq_of_hide_eq {α γ δ : Type} {hide : α → γ} {f g : α → δ} :
    ∀ {xs ys : List α}, xs.map hide = ys.map hide →
      (∀ x ∈ xs, ∀ y ∈ ys, hide x = hide y → f x = g y) → xs.map f = ys.map g
  | [], [], _, _ => rfl
  | x :: xs, y :: ys, h, hfg => by
      rw [List.map_cons, List.map_cons, List.cons.injEq] at h
      rw [List.map_cons, List.map_cons, hfg x List.mem_cons_self y List.mem_cons_self h.1,
        map_eq_of_hide_eq h.2 fun x hx y hy =>
          hfg x (List.mem_cons_of_mem _ hx) y (List.mem_cons_of_mem _ hy)]

/-- The cards that an order is written into are the same, whatever the old order was. -/
theorem substituted_cards_eq (hsame : SameButDrawOrder a b)
    {drawPileA drawPileB : List CardInstanceSnapshot}
    (hallA : drawPileA.Perm (a.cardsInZone "draw_pile"))
    (hforget : drawPileA.map CardInstanceSnapshot.forgetPile =
      drawPileB.map CardInstanceSnapshot.forgetPile) :
    a.cardInstances.map (fun card => (replacementFor drawPileA card.instanceId).getD card) =
      b.cardInstances.map fun card => (replacementFor drawPileB card.instanceId).getD card := by
  have hreplacement : replacementFor drawPileA = replacementFor drawPileB := by
    rw [← replacementFor_forget drawPileA, hforget, replacementFor_forget drawPileB]
  rw [← hreplacement]
  refine map_eq_of_hide_eq hsame.cardInstances fun card hcard other _ heq => ?_
  have hinstance : card.instanceId = other.instanceId := by
    rw [← card.hideDrawOrder_instanceId, heq, other.hideDrawOrder_instanceId]
  rw [← hinstance]
  by_cases hzone : card.zone = some "draw_pile"
  · -- A card of the draw pile is replaced, whatever place it had.
    have hreplaced := replacementFor_isSome (hallA.mem_iff.mpr (mem_cardsInZone.mpr ⟨hcard, hzone⟩))
    rcases Option.isSome_iff_exists.mp hreplaced with ⟨replacement, hfound⟩
    rw [hfound]
    rfl
  · rw [CardInstanceSnapshot.eq_of_hideDrawOrder_eq hzone heq]

/-- With no draw seen, the draw pile is handed out the same, up to the old places. -/
theorem drawPileInstances_blind (hsame : SameButDrawOrder a b)
    (hunique : (a.cardInstances.map (·.instanceId)).Nodup) (orderedCardIds : List String) :
    (drawPileInstancesForHypothesis a orderedCardIds []).map
        (List.map CardInstanceSnapshot.forgetPile) =
      (drawPileInstancesForHypothesis b orderedCardIds []).map
        (List.map CardInstanceSnapshot.forgetPile) := by
  have hcounts : countsText ((a.cardsInZone "draw_pile").map (·.cardId)) =
      countsText ((b.cardsInZone "draw_pile").map (·.cardId)) := by
    unfold countsText
    rw [sortedCounts_perm hsame.cardIds_perm]
  unfold drawPileInstancesForHypothesis
  dsimp only
  rw [hcounts]
  by_cases hperm : orderedCardIds.Perm ((a.cardsInZone "draw_pile").map (·.cardId))
  · rw [if_neg (not_not.mpr hperm), if_neg (not_not.mpr (hperm.trans hsame.cardIds_perm))]
    exact hsame.allocateCards_eq hunique orderedCardIds []
  · rw [if_pos hperm, if_pos fun h => hperm (h.trans hsame.cardIds_perm.symm)]

/-- The same snapshot is derived, or the same error is raised. -/
theorem deriveSubstitutedSnapshot_blind (hsame : SameButDrawOrder a b)
    (hunique : (a.cardInstances.map (·.instanceId)).Nodup) (hypothesis : SearchHypothesisId) :
    deriveSubstitutedSnapshot a hypothesis [] = deriveSubstitutedSnapshot b hypothesis [] := by
  unfold deriveSubstitutedSnapshot
  rw [← hsame.shuffle]
  cases a.shuffle with
  | none => rfl
  | some shuffle =>
      refine Except.map_eq_map_of
        (drawPileInstances_blind hsame hunique hypothesis.orderedDrawPileCardIds)
        fun drawPileA drawPileB hdrawA _ hforget => ?_
      rcases drawPileInstances_spec hunique hdrawA with ⟨-, -, -, hallA, -⟩
      rw [substituted_cards_eq hsame hallA hforget, hsame.rest]

end Substitution

/-!
### Branches

What a branch is sent with is the same for both roots.
-/

section Branches

variable (digests : Digests (CombatStateSnapshot ρ)) (random : HypothesisRandom)
  (context : DecisionContext (CombatStateSnapshot ρ) β)

/-- The context over another captured root. -/
def DecisionContext.overSnapshot (snapshot : CombatStateSnapshot ρ) :
    DecisionContext (CombatStateSnapshot ρ) β :=
  { context with rootSnapshot := .snapshot snapshot }

variable {context} {a b : CombatStateSnapshot ρ}

/-- The same context is restored under a hypothesis. -/
theorem applyHypothesisToContext_blind
    (hpins : pinnedPrefixVisibleDrawConstraints context.replayPrefix = .ok [])
    (hunique : (a.cardInstances.map (·.instanceId)).Nodup) (hsame : SameButDrawOrder a b)
    (hypothesis : SearchHypothesisId) :
    applyHypothesisToContext digests (context.overSnapshot a) hypothesis =
      applyHypothesisToContext digests (context.overSnapshot b) hypothesis := by
  have hderived := deriveSubstitutedSnapshot_blind hsame hunique hypothesis
  unfold applyHypothesisToContext DecisionContext.overSnapshot
  dsimp only
  rw [hpins]
  simp only [if_true, hderived]

/-- The same branch is built at every index. -/
theorem buildSingleHypothesisWorkItem_blind
    (hpins : pinnedPrefixVisibleDrawConstraints context.replayPrefix = .ok [])
    (hunique : (a.cardInstances.map (·.instanceId)).Nodup) (hsame : SameButDrawOrder a b)
    (candidate : PipelineCandidateRef) (hypothesisIndex : Nat) (workKind : WorkKind) :
    buildSingleHypothesisWorkItem digests random (context.overSnapshot a) candidate hypothesisIndex
        workKind =
      buildSingleHypothesisWorkItem digests random (context.overSnapshot b) candidate
        hypothesisIndex workKind := by
  have happlied := applyHypothesisToContext_blind digests hpins hunique hsame
  have hshuffle := hsame.shuffle
  have hpublic := hsame.computePublicMultiset_eq
  unfold DecisionContext.overSnapshot at happlied ⊢
  unfold buildSingleHypothesisWorkItem
  dsimp only
  rw [hshuffle, hpublic]
  cases b.shuffle with
  | none => rfl
  | some shuffleRng =>
      dsimp only
      cases (generateBeliefHypotheses random (computePublicMultiset b) (hypothesisIndex + 1)
        shuffleRng)[hypothesisIndex]? with
      | none => rfl
      | some hypothesis =>
          dsimp only
          rw [happlied hypothesis]

/-- While no draw has been seen, the order of the draw pile cannot be told from
    any snapshot, context or branch that a hypothesis gives. -/
theorem hypothesis_blind
    (hpins : pinnedPrefixVisibleDrawConstraints context.replayPrefix = .ok [])
    (hunique : (a.cardInstances.map (·.instanceId)).Nodup) (hsame : SameButDrawOrder a b) :
    (∀ candidate hypothesisIndex workKind,
      buildSingleHypothesisWorkItem digests random (context.overSnapshot a) candidate
          hypothesisIndex workKind =
        buildSingleHypothesisWorkItem digests random (context.overSnapshot b) candidate
          hypothesisIndex workKind) ∧
    (∀ hypothesis, applyHypothesisToContext digests (context.overSnapshot a) hypothesis =
      applyHypothesisToContext digests (context.overSnapshot b) hypothesis) ∧
    ∀ hypothesis, deriveSubstitutedSnapshot a hypothesis [] =
      deriveSubstitutedSnapshot b hypothesis [] :=
  ⟨buildSingleHypothesisWorkItem_blind digests random hpins hunique hsame,
    applyHypothesisToContext_blind digests hpins hunique hsame,
    deriveSubstitutedSnapshot_blind hsame hunique⟩

end Branches

/-!
### Two cards

A draw pile of two cards, in both orders.
-/

section TwoCards

/-- A card of the draw pile, at a place. -/
def drawPileCard (instanceId cardId : String) (index : Int) : CardInstanceSnapshot :=
  { instanceId, cardId, type := "Attack", rarity := "Basic", cost := 1, targetType := "AnyEnemy"
    isUpgraded := false, upgradeLevel := 0, zone := some "draw_pile", pileIndex := some index }

/-- A strike and a defend, at the given places. -/
def twoCardSnapshot (strikeIndex defendIndex : Int) : CombatStateSnapshot Unit :=
  { cardInstances :=
      [drawPileCard "c1" "STRIKE" strikeIndex, drawPileCard "c2" "DEFEND" defendIndex]
    shuffle := some ⟨0, 1, 2, 3, 4⟩
    rest := () }

/-- Nothing has been played yet, and the turn can be ended. -/
def twoCardContext : DecisionContext (CombatStateSnapshot Unit) Unit :=
  DecisionContext.fromRoot (.snapshot (twoCardSnapshot 0 1))
    { board := ()
      isTerminal := false
      pendingChoice := none
      cachedLegalActions := none
      decisionFrame := some ⟨some "combat", 0, none⟩ }
    { combatSessionId := some "combat"
      stepIndex := 0
      continuationStepIndex := none
      semanticAction := ⟨"system", "end_turn"⟩
      resolvedActionId := 0
      resolvedSemanticKey := "end_turn"
      resolvedTargetIndex := none
      resolvedTargetSlotIndex := none
      boundary := .stable
      pendingOnly := stable_pendingOnly }

/-- A digest that is the same for everything. -/
def constantDigests : Digests (CombatStateSnapshot Unit) where
  canonicalSnapshot _ := .null
  sha256Hex _ := "0123456789abcdef0123456789abcdef"

/-- The seed is the index, and the first draw is its last bit. -/
def parityRandom : HypothesisRandom where
  seedOf
    | .obj [_, (_, .int index)] => index.toNat
    | _ => 0
  randrange seed _ bound := seed % bound

/-- Whether the strike or the defend is on top cannot be told. -/
theorem hypothesis_blind_two_cards :
    (∀ candidate hypothesisIndex workKind,
      buildSingleHypothesisWorkItem constantDigests parityRandom
          (twoCardContext.overSnapshot (twoCardSnapshot 0 1)) candidate hypothesisIndex workKind =
        buildSingleHypothesisWorkItem constantDigests parityRandom
          (twoCardContext.overSnapshot (twoCardSnapshot 1 0)) candidate hypothesisIndex workKind) ∧
    (∀ hypothesis, applyHypothesisToContext constantDigests
        (twoCardContext.overSnapshot (twoCardSnapshot 0 1)) hypothesis =
      applyHypothesisToContext constantDigests
        (twoCardContext.overSnapshot (twoCardSnapshot 1 0)) hypothesis) ∧
    ∀ hypothesis, deriveSubstitutedSnapshot (twoCardSnapshot 0 1) hypothesis [] =
      deriveSubstitutedSnapshot (twoCardSnapshot 1 0) hypothesis [] :=
  hypothesis_blind constantDigests parityRandom rfl (by decide) ⟨rfl, rfl, rfl⟩

end TwoCards

end Combat

end STS2RL
