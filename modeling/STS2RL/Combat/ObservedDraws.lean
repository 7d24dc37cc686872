import STS2RL.Combat.Substitution
import STS2RL.Combat.DrawEvidence

/-!
# Materializing Observed Draws

The cards that were seen to be drawn are put on top of every order that a branch is
tried with. A card is known by three projections of its record: the key of what is
public of it, the key that is read from the snapshot, and the key of what decides its
behaviour, by which copies are told apart.

The three do not agree. The key read from the snapshot has no enchantment, although the
record has one. And the copies of a pile are told apart by where they lie in it: the
behaviour key leaves out the instance and the zone, but not the index. So a card that
was seen enchanted is not found, and a card that lies in the pile twice is rejected as
ambiguous, however alike its copies are.

## Main definitions

* `observableCardKeyFromPublic`: The key of what is public of a card.
* `publicRecord`: What is public of a card of a snapshot.
* `Ambiguous`: Copies that look alike and are not.
* `Materialized`: The observed cards are where they were seen.
* `ToldApart`: The observed cards that the code finds.

## Theorems

* `observableCardKey_of_observed`: The public key and the key read from the snapshot.
* `reorderHypothesis_of_subperm`: The observed ids go to the front.
* `materializes_iff`: When observed draws are materialized as they should.
-/

namespace STS2RL

namespace Combat

variable {σ ρ β : Type}

/-!
### Two keys of a card

What is public of a card has a key, and a snapshot has one of the card. They are the same
card's if it has no enchantment.
-/

section PublicKey

/-- A text of a decoded value. -/
def jsonText? : Json → Option String
  | .str (.text text) => some text
  | _ => none

/-- A text, or nothing. -/
def jsonTextOrNull? : Json → Option (Option String)
  | .null => some none
  | value => (jsonText? value).map some

/-- `d.get(key)`. -/
def jsonGet (fields : List (PyStr × Json)) (key : String) : Json :=
  (Dict.lookupL (.text key) fields).getD .null

/-- `_enchantment_key`, if the enchantment has one. -/
def enchantmentKey : Json → Option (Option (String × Int × String))
  | .null => some none
  | .obj fields =>
      if (fields.map Prod.fst).Perm [.text "id", .text "amount", .text "status"] then
        match jsonText? (jsonGet fields "id"), jsonGet fields "amount",
          jsonText? (jsonGet fields "status") with
        | some enchantmentId, .int amount, some status =>
            if enchantmentId = "" ∨ status = "" then none
            else some (some (enchantmentId, amount, status))
        | _, _, _ => none
      else none
  | _ => none

/-- `observable_card_key_from_public`. -/
def observableCardKeyFromPublic : Json → Option ObservableCardKey
  | .obj fields =>
      match jsonText? (jsonGet fields "id"), jsonText? (jsonGet fields "type"),
        jsonText? (jsonGet fields "rarity"), jsonGet fields "cost",
        jsonText? (jsonGet fields "targetType"), jsonGet fields "upgraded",
        jsonGet fields "upgradeLevel", jsonTextOrNull? (jsonGet fields "tinkerTimeType"),
        jsonTextOrNull? (jsonGet fields "tinkerTimeRider"),
        enchantmentKey (jsonGet fields "enchantment") with
      | some cardId, some type, some rarity, .int cost, some targetType, .bool upgraded,
        .int upgradeLevel, some tinkerTimeType, some tinkerTimeRider, some enchantment =>
          if cardId = "" then none
          else some { cardId, type, rarity, cost, targetType, upgraded, upgradeLevel,
                      tinkerTimeType, tinkerTimeRider, enchantment }
      | _, _, _, _, _, _, _, _, _, _ => none
  | _ => none

/-- What is public of the enchantment of a card. -/
def CardInstanceSnapshot.publicEnchantment (card : CardInstanceSnapshot) : Json :=
  match card.enchantment with
  | .obj fields => .obj [jsonMember "id" (jsonGet fields "Id"),
      jsonMember "amount" (jsonGet fields "Amount"),
      jsonMember "status" (textOrNull card.enchantmentStatus)]
  | _ => .null

/-- What is public of a card. -/
def CardInstanceSnapshot.publicRecord (card : CardInstanceSnapshot) : Json :=
  .obj [jsonMember "id" (.str card.cardId), jsonMember "type" (.str card.type),
    jsonMember "rarity" (.str card.rarity), jsonMember "cost" (.int card.cost),
    jsonMember "targetType" (.str card.targetType), jsonMember "upgraded" (.bool card.isUpgraded),
    jsonMember "upgradeLevel" (.int card.upgradeLevel),
    jsonMember "tinkerTimeType" (textOrNull card.tinkerTimeType),
    jsonMember "tinkerTimeRider" (textOrNull card.tinkerTimeRider),
    jsonMember "enchantment" card.publicEnchantment]

/-- The key under which a card of a snapshot is observed. -/
def CardInstanceSnapshot.observedKey (card : CardInstanceSnapshot) : Option ObservableCardKey :=
  observableCardKeyFromPublic card.publicRecord

theorem jsonTextOrNull_textOrNull (text : Option String) :
    jsonTextOrNull? (textOrNull text) = some text := by
  cases text <;> rfl

/-- An observed card has the key that is read from the snapshot, with its enchantment. -/
theorem observedKey_eq (card : CardInstanceSnapshot) :
    card.observedKey = if card.cardId = "" then none else
      (enchantmentKey card.publicEnchantment).map fun enchantment =>
        { card.observableCardKey with enchantment } := by
  simp only [CardInstanceSnapshot.observedKey, CardInstanceSnapshot.publicRecord,
    observableCardKeyFromPublic, jsonGet, jsonMember, Dict.lookupL, jsonText?]
  simp only [PyStr.text.injEq, String.reduceEq, if_false, if_true, Option.getD_some,
    jsonTextOrNull_textOrNull]
  rcases enchantmentKey card.publicEnchantment with _ | enchantment
  · simp
  · rfl

end PublicKey

/-!
### Cards with one key

Cards that agree on all that the replay looks at agree on their enchantment.
-/

section Keys

variable {card other : CardInstanceSnapshot} {key : ObservableCardKey}

/-- A key is read of nothing only where there is nothing. -/
theorem enchantmentKey_eq_none {value : Json} (h : enchantmentKey value = some none) :
    value = .null := by
  cases value with
  | null => rfl
  | obj fields =>
      unfold enchantmentKey at h
      dsimp only at h
      split at h
      · split at h
        · split at h
          · cases h
          · cases h
        · cases h
      · cases h
  | _ => cases h

/-- A card that is observed without an enchantment has none, and its key is the one that
    is read from the snapshot. -/
theorem observedKey_plain (hobserved : card.observedKey = some key)
    (hplain : key.enchantment = none) :
    key = card.observableCardKey ∧ card.publicEnchantment = .null := by
  rw [observedKey_eq] at hobserved
  by_cases hid : card.cardId = ""
  · rw [if_pos hid] at hobserved
    cases hobserved
  · rw [if_neg hid, Option.map_eq_some_iff] at hobserved
    rcases hobserved with ⟨enchantment, hseen, rfl⟩
    have hnone : enchantment = none := hplain
    rw [hnone] at hseen ⊢
    exact ⟨rfl, enchantmentKey_eq_none hseen⟩

/-- A card whose key was read from the snapshot is observed under it, with its
    enchantment. -/
theorem observableCardKey_of_observed (hobserved : card.observedKey = some key) :
    { key with enchantment := none } = card.observableCardKey := by
  rw [observedKey_eq] at hobserved
  by_cases hid : card.cardId = ""
  · rw [if_pos hid] at hobserved
    cases hobserved
  · rw [if_neg hid, Option.map_eq_some_iff] at hobserved
    rcases hobserved with ⟨enchantment, -, rfl⟩
    rfl

theorem publicEnchantment_eq_null :
    card.publicEnchantment = .null ↔ ∀ fields, card.enchantment ≠ .obj fields := by
  unfold CardInstanceSnapshot.publicEnchantment
  cases card.enchantment <;> simp

/-- Cards of one behaviour key are enchanted alike. -/
theorem enchantment_of_replayInternalKey (h : card.replayInternalKey = other.replayInternalKey) :
    card.enchantment.sortKeys = other.enchantment.sortKeys := by
  have hmember : ∀ c : CardInstanceSnapshot,
      Dict.lookupL (.text "Enchantment") c.replayInternalKey = some c.enchantment.sortKeys :=
    fun _ => rfl
  have hsame := hmember card
  rw [h, hmember other] at hsame
  exact (Option.some.inj hsame).symm

/-- Copies with the key of a card without an enchantment, and with its behaviour, are
    observed as it is. -/
theorem observedKey_of_copy (hobserved : card.observedKey = some key)
    (hplain : key.enchantment = none) (hkey : other.observableCardKey = card.observableCardKey)
    (hinternal : other.replayInternalKey = card.replayInternalKey) :
    other.observedKey = some key := by
  have hnull := (observedKey_plain hobserved hplain).2
  have hother : other.publicEnchantment = .null := by
    rw [publicEnchantment_eq_null] at hnull ⊢
    intro fields henchanted
    have hsorted := enchantment_of_replayInternalKey hinternal
    rw [henchanted] at hsorted
    cases hcard : card.enchantment with
    | obj fields' => exact hnull fields' hcard
    | _ =>
        rw [hcard] at hsorted
        cases hsorted
  rw [observedKey_eq] at hobserved ⊢
  have hid : other.cardId = card.cardId := congrArg ObservableCardKey.cardId hkey
  rw [hother, hid, hkey, ← hnull]
  exact hobserved

end Keys

/-!
### The hypothesis is reordered

The ids that were observed go to the front of the order.
-/

section Reordering

/-- The observed ids can be taken out one by one, and the others stay. -/
theorem removePinned_of_subperm (keys : List ObservableCardKey) :
    ∀ (start : Nat) (remaining : List String), (keys.map (·.cardId)).Subperm remaining →
      ∃ rest, removePinned start remaining
          ((keys.zipIdx start).map fun (key, offset) => (offset, key)) = .ok rest ∧
        (keys.map (·.cardId) ++ rest).Perm remaining := by
  induction keys with
  | nil => exact fun _ remaining _ => ⟨remaining, rfl, .refl _⟩
  | cons key keys ih =>
      intro start remaining hsub
      have hmem : key.cardId ∈ remaining := hsub.subset List.mem_cons_self
      have hperm := List.perm_cons_erase hmem
      have hrest : (keys.map (·.cardId)).Subperm (remaining.erase key.cardId) :=
        (List.subperm_cons key.cardId).mp (hsub.trans hperm.subperm)
      rcases ih (start + 1) _ hrest with ⟨rest, hremoved, hall⟩
      refine ⟨rest, ?_, (hall.cons key.cardId).trans hperm.symm⟩
      rw [List.zipIdx_cons, List.map_cons, removePinned, if_neg (not_not.mpr rfl),
        if_neg (not_not.mpr hmem)]
      exact hremoved

/-- The observed ids go to the front. -/
theorem reorderHypothesis_of_subperm (hypothesis : SearchHypothesisId)
    {keys : List ObservableCardKey}
    (hsub : (keys.map (·.cardId)).Subperm hypothesis.orderedDrawPileCardIds) :
    ∃ effective : SearchHypothesisId,
      reorderHypothesis hypothesis (rootDraws keys) = .ok effective ∧
      effective.orderedDrawPileCardIds.Perm hypothesis.orderedDrawPileCardIds ∧
      ∀ (offset : Nat) (key : ObservableCardKey), keys[offset]? = some key →
        effective.orderedDrawPileCardIds[offset]? = some key.cardId := by
  rcases removePinned_of_subperm keys 0 _ hsub with ⟨rest, hremoved, hall⟩
  have hids : (rootDraws keys).map (·.2.cardId) = keys.map (·.cardId) := by
    rw [rootDraws, List.map_map]
    refine List.ext_getElem? fun offset => ?_
    rw [List.getElem?_map, List.getElem?_map, List.getElem?_zipIdx, Option.map_map]
    rfl
  refine ⟨{ hypothesis with orderedDrawPileCardIds := keys.map (·.cardId) ++ rest }, ?_, hall, ?_⟩
  · rw [reorderHypothesis, hids, rootDraws, hremoved]
    rfl
  · intro offset key hkey
    have hlt : offset < keys.length := (List.getElem?_eq_some_iff.mp hkey).1
    dsimp only
    rw [List.getElem?_append_left (by rwa [List.length_map]), List.getElem?_map, hkey]
    rfl

/-- A hypothesis is applied in the order with the observed ids at the front. -/
theorem applyHypothesisToContext_observed (digests : Digests (CombatStateSnapshot ρ))
    {context : DecisionContext (CombatStateSnapshot ρ) β} {snapshot : CombatStateSnapshot ρ}
    (hroot : context.rootSnapshot = .snapshot snapshot) {keys : List ObservableCardKey}
    (hpins : pinnedPrefixVisibleDrawConstraints context.replayPrefix = .ok (rootDraws keys))
    (hypothesis : SearchHypothesisId)
    (hsub : (keys.map (·.cardId)).Subperm hypothesis.orderedDrawPileCardIds) :
    ∃ effective : SearchHypothesisId,
      effective.orderedDrawPileCardIds.Perm hypothesis.orderedDrawPileCardIds ∧
      (∀ (offset : Nat) (key : ObservableCardKey), keys[offset]? = some key →
        effective.orderedDrawPileCardIds[offset]? = some key.cardId) ∧
      applyHypothesisToContext digests context hypothesis =
        (deriveSubstitutedSnapshot snapshot effective (rootDraws keys)).map fun derived =>
          withSearchHypothesis digests { context with rootSnapshot := .snapshot derived }
            effective := by
  rcases reorderHypothesis_of_subperm hypothesis hsub with
    ⟨effective, hreordered, hperm, hfront⟩
  refine ⟨effective, hperm, hfront, ?_⟩
  -- What was observed is put in front of the hypothesis, which stays a reordering of it.
  have heffective : (if rootDraws keys = [] then .ok hypothesis
      else reorderHypothesis hypothesis (rootDraws keys)) =
        (.ok effective : Except PyException SearchHypothesisId) := by
    by_cases hempty : rootDraws keys = []
    · -- With nothing observed the hypothesis is as it was.
      rw [if_pos hempty, ← hreordered, hempty]
      rfl
    · rw [if_neg hempty, hreordered]
  rw [applyHypothesisToContext, hroot]
  dsimp only
  rw [hpins]
  dsimp only
  rw [heffective]

end Reordering

section Statement

/-- What decides the behaviour of a card, wherever it lies: all members but the instance,
    the zone and the index. -/
def CardInstanceSnapshot.behaviourKey (card : CardInstanceSnapshot) : List (PyStr × Json) :=
  card.replayInternalKey.filter fun m => m.1 ≠ .text "PileIndex"

/-- Two cards of the pile are observed alike and do not behave alike. -/
def Ambiguous (key : CardInstanceSnapshot → ObservableCardKey)
    (pile : List CardInstanceSnapshot) :
    Prop :=
  ∃ a ∈ pile, ∃ b ∈ pile, key a = key b ∧ a.behaviourKey ≠ b.behaviourKey

/-- The rejection of a pin for its ambiguity. -/
def ambiguousPin : PyException :=
  .valueError ("pinned observable card state maps to multiple hidden gameplay " ++
    "states; public evidence is insufficient for safe replay materialization")

variable (digests : Digests (CombatStateSnapshot ρ))
  (context : DecisionContext (CombatStateSnapshot ρ) β) (hypothesis : SearchHypothesisId)

/-- The hypothesis is applied, and cards that are observed as the drawn ones were lie where
    those were drawn from. -/
def Materialized (observed : List ObservableCardKey) : Prop :=
  ∃ derived restored, applyHypothesisToContext digests context hypothesis = .ok restored ∧
    restored.rootSnapshot = .snapshot derived ∧
    ∀ (offset : Nat) (key : ObservableCardKey), observed[offset]? = some key → ∃ card,
      (derived.cardsInZone "draw_pile")[offset]? = some card ∧ card.observedKey = some key

/-- Observed draws are materialized unless the pile is ambiguous, and only an ambiguous pile
    is rejected as such. -/
structure Materializes (key : CardInstanceSnapshot → ObservableCardKey)
    (pile drawn : List CardInstanceSnapshot) : Prop where
  materialized : ¬ Ambiguous key pile → Materialized digests context hypothesis (drawn.map key)
  rejected : applyHypothesisToContext digests context hypothesis = .error ambiguousPin →
    Ambiguous key pile

/-- No drawn card was enchanted, and what looks like it in the snapshot is also alike in
    everything but the instance and the zone, its place in the pile included. -/
def ToldApart (key : CardInstanceSnapshot → ObservableCardKey)
    (pile drawn : List CardInstanceSnapshot) : Prop :=
  ∀ card ∈ drawn, (key card).enchantment = none ∧
    ∀ other ∈ pile, other.observableCardKey = card.observableCardKey →
      other.replayInternalKey = card.replayInternalKey

end Statement

/-!
### The law

The observed draws are where they were seen exactly where no two copies that look alike
differ.
-/

section Law

variable {digests : Digests (CombatStateSnapshot ρ)}
  {context : DecisionContext (CombatStateSnapshot ρ) β} {hypothesis : SearchHypothesisId}
  {snapshot : CombatStateSnapshot ρ} {key : CardInstanceSnapshot → ObservableCardKey}
  {root drawn : List CardInstanceSnapshot}

/-- The drawn cards as the pins name them. -/
theorem rootDraws_keys (keys : List ObservableCardKey) : (rootDraws keys).map (·.2) = keys := by
  rw [rootDraws, List.map_map]
  refine List.ext_getElem? fun offset => ?_
  rw [List.getElem?_map, List.getElem?_zipIdx, Option.map_map]
  rcases keys[offset]? with _ | key
  · rfl
  · rfl

theorem mem_rootDraws {keys : List ObservableCardKey} {offset : Nat} {key : ObservableCardKey} :
    (offset, key) ∈ rootDraws keys ↔ keys[offset]? = some key := by
  rw [rootDraws, List.mem_map]
  constructor
  · rintro ⟨⟨key', offset'⟩, hmem, heq⟩
    cases heq
    exact List.mem_zipIdx_iff_getElem?.mp hmem
  · exact fun h => ⟨(key, offset), List.mem_zipIdx_iff_getElem?.mpr h, rfl⟩

/-- The ids of the drawn cards are among those of the pile. -/
theorem drawnIds_subperm
    (hkeys : ∀ card ∈ drawn, card.observedKey = some (key card))
    {pile : List CardInstanceSnapshot} (hsub : drawn.Subperm pile) :
    ((drawn.map key).map (·.cardId)).Subperm (pile.map (·.cardId)) := by
  have hids : (drawn.map key).map (·.cardId) = drawn.map (·.cardId) := by
    rw [List.map_map]
    refine List.map_congr_left fun card hcard => ?_
    exact congrArg ObservableCardKey.cardId (observableCardKey_of_observed (hkeys card hcard))
  rcases hsub with ⟨kept, hperm, hsublist⟩
  rw [hids]
  exact ⟨kept.map (·.cardId), hperm.map _, hsublist.map _⟩

/-- With the drawn cards told apart, the check of the pins passes. -/
theorem checkPinnedKeys_of_toldApart {pile : List CardInstanceSnapshot}
    (hkeys : ∀ card ∈ drawn, card.observedKey = some (key card)) (hsub : drawn.Subperm pile)
    (hapart : ToldApart key pile drawn) :
    checkPinnedKeys pile (drawn.map key) (drawn.map key).eraseDups = .ok () := by
  rw [checkPinnedKeys_eq_ok]
  intro seen hseen
  rcases List.mem_map.mp (List.mem_eraseDups.mp hseen) with ⟨card, hcard, rfl⟩
  rcases hapart card hcard with ⟨hplain, hcopies⟩
  have hkey := (observedKey_plain (hkeys card hcard) hplain).1
  constructor
  · -- What was drawn with the key has it in the snapshot.
    rw [List.count, List.countP_map, ← List.countP_eq_length_filter]
    refine le_trans ?_ (hsub.countP_le _)
    refine List.countP_mono_left fun other hother hsame => ?_
    have hsame : key other = key card := by simpa using hsame
    have hother' := observedKey_plain (hkeys other hother) (by rw [hsame]; exact hplain)
    simp [← hother'.1, hsame]
  · -- All of them have the behaviour key of the drawn card.
    have hall : ∀ found ∈ (pile.filter fun other => other.observableCardKey = key card).map
        CardInstanceSnapshot.replayInternalKey, found = card.replayInternalKey := by
      intro found hfound
      rcases List.mem_map.mp hfound with ⟨other, hother, rfl⟩
      rcases List.mem_filter.mp hother with ⟨hin, hsame⟩
      exact hcopies other hin ((of_decide_eq_true hsame).trans hkey)
    have hmem : card.replayInternalKey ∈ (pile.filter fun other =>
        other.observableCardKey = key card).map CardInstanceSnapshot.replayInternalKey :=
      List.mem_map_of_mem (List.mem_filter.mpr
        ⟨hsub.subset hcard, decide_eq_true hkey.symm⟩)
    have hone : ((pile.filter fun other => other.observableCardKey = key card).map
        CardInstanceSnapshot.replayInternalKey).dedup.Perm [card.replayInternalKey] := by
      refine (List.perm_ext_iff_of_nodup (List.nodup_dedup _) (List.nodup_singleton _)).mpr
        fun found => ?_
      rw [List.mem_dedup, List.mem_singleton]
      exact ⟨hall found, fun h => h ▸ hmem⟩
    exact hone.length_eq

/-- Where the check of the pins passes, the drawn cards are told apart. -/
theorem toldApart_of_checked {pile : List CardInstanceSnapshot}
    (hkeys : ∀ card ∈ drawn, card.observedKey = some (key card)) (hsub : drawn.Subperm pile)
    (hchecked : checkPinnedKeys pile (drawn.map key) (drawn.map key).eraseDups = .ok ()) :
    ToldApart key pile drawn := by
  intro card hcard
  have hmem : key card ∈ drawn.map key := List.mem_map_of_mem hcard
  rcases checkPinnedKeys_eq_ok.mp hchecked (key card) (List.mem_eraseDups.mpr hmem) with
    ⟨hcount, hone⟩
  -- Some card of the pile has the observed key in the snapshot, where no key is enchanted.
  have hpos := List.count_pos_iff.mpr hmem
  rcases List.exists_mem_of_length_pos (lt_of_lt_of_le hpos hcount) with ⟨found, hfound⟩
  have hseen : found.observableCardKey = key card :=
    of_decide_eq_true (List.mem_filter.mp hfound).2
  have hplain : (key card).enchantment = none := by
    rw [← hseen]
    rfl
  have hkey := (observedKey_plain (hkeys card hcard) hplain).1
  refine ⟨hplain, fun other hother hsame => ?_⟩
  rcases List.length_eq_one_iff.mp hone with ⟨behaviour, honly⟩
  have hbehaviour : ∀ c ∈ pile, c.observableCardKey = key card →
      c.replayInternalKey = behaviour := by
    intro c hc hckey
    have hin : c.replayInternalKey ∈ ((pile.filter fun other =>
        other.observableCardKey = key card).map CardInstanceSnapshot.replayInternalKey).dedup :=
      List.mem_dedup.mpr (List.mem_map_of_mem (List.mem_filter.mpr ⟨hc, decide_eq_true hckey⟩))
    rw [honly] at hin
    exact List.mem_singleton.mp hin
  rw [hbehaviour other hother (hsame.trans hkey.symm),
    hbehaviour card (hsub.subset hcard) hkey.symm]

/-- A card that was put at the offset of a drawn one is observed as that was. -/
theorem observed_of_placed (hkeys : ∀ card ∈ drawn, card.observedKey = some (key card))
    (hapart : ToldApart key (snapshot.cardsInZone "draw_pile") drawn)
    {derived : CombatStateSnapshot ρ} {effective : SearchHypothesisId}
    (hsubstituted : Substituted snapshot effective (rootDraws (drawn.map key)) derived)
    {offset : Nat} {seen : ObservableCardKey} (hseen : (drawn.map key)[offset]? = some seen) :
    ∃ card, (derived.cardsInZone "draw_pile")[offset]? = some card ∧
      card.observedKey = some seen := by
  rcases hsubstituted.pins offset seen (mem_rootDraws.mpr hseen) with ⟨card, hcard, hkey⟩
  refine ⟨card, hcard, ?_⟩
  rw [List.getElem?_map, Option.map_eq_some_iff] at hseen
  rcases hseen with ⟨observed, hobserved, rfl⟩
  have hdrawn := List.mem_of_getElem? hobserved
  rcases hapart observed hdrawn with ⟨hplain, hcopies⟩
  have hread := (observedKey_plain (hkeys observed hdrawn) hplain).1
  -- The card is a card of the pile at another place.
  have hforgot : card.forgetPile ∈ (snapshot.cardsInZone "draw_pile").map
      CardInstanceSnapshot.forgetPile :=
    hsubstituted.cards.mem_iff.mp (List.mem_map_of_mem (List.mem_of_getElem? hcard))
  rcases List.mem_map.mp hforgot with ⟨source, hsource, hsame⟩
  have hsourceKey : source.observableCardKey = observed.observableCardKey := by
    rw [← source.forgetPile_observableCardKey, hsame, card.forgetPile_observableCardKey, hkey,
      hread]
  have hsourceSeen := observedKey_of_copy (hkeys observed hdrawn) hplain hsourceKey
    (hcopies source hsource hsourceKey)
  change card.forgetPile.observedKey = _
  rw [← hsame]
  exact hsourceSeen

/-- Where the drawn cards are told apart, they are materialized, and nowhere else. -/
theorem materialized_iff (hunique : (snapshot.cardInstances.map (·.instanceId)).Nodup)
    (hroot : context.rootSnapshot = .snapshot snapshot)
    (hpins : pinnedPrefixVisibleDrawConstraints context.replayPrefix =
      .ok (rootDraws (drawn.map key)))
    (hkeys : ∀ card ∈ drawn, card.observedKey = some (key card))
    (hsub : drawn.Subperm (snapshot.cardsInZone "draw_pile"))
    (hperm : hypothesis.orderedDrawPileCardIds.Perm
      ((snapshot.cardsInZone "draw_pile").map (·.cardId))) :
    Materialized digests context hypothesis (drawn.map key) ↔
      snapshot.shuffle.isSome ∧ ToldApart key (snapshot.cardsInZone "draw_pile") drawn := by
  rcases applyHypothesisToContext_observed digests hroot hpins hypothesis
    ((drawnIds_subperm hkeys hsub).trans hperm.symm.subperm) with
    ⟨effective, heffective, hfront, happly⟩
  constructor
  -- What was materialized was derived from the snapshot, so the checks passed.
  · rintro ⟨-, restored, hok, -⟩
    rw [happly] at hok
    rcases (Except.map_eq_ok _ _ _).mp hok with ⟨derived, hderived, -⟩
    rcases checked_of_ok hderived with ⟨hshuffle, hchecked⟩
    have hunambiguous := hchecked.unambiguous
    rw [rootDraws_keys] at hunambiguous
    exact ⟨hshuffle, toldApart_of_checked hkeys hsub hunambiguous⟩
  -- With the checks passed, deriving can fail only at an id that is not the card's.
  · rintro ⟨hshuffle, hapart⟩
    have hchecked : PinsChecked snapshot effective.orderedDrawPileCardIds
        (rootDraws (drawn.map key)) :=
      { multiset := heffective.trans hperm
        contiguous := isContiguousPrefix_rootDraws _
        unambiguous := by
          rw [rootDraws_keys]
          exact checkPinnedKeys_of_toldApart hkeys hsub hapart }
    rcases deriveSubstitutedSnapshot_of_checked hunique hshuffle hchecked with
      ⟨derived, hderived⟩ | ⟨offset, seen, cardId, hpin, hat, hne, -⟩
    · refine ⟨derived, _, by rw [happly, hderived]; rfl, rfl, fun offset seen hseen => ?_⟩
      exact observed_of_placed hkeys hapart (substituted_of_ok hunique hderived) hseen
    · -- The ids in front are those of the drawn cards.
      rw [hfront offset seen (mem_rootDraws.mp hpin)] at hat
      exact absurd (Option.some.inj hat) hne

/-- What a run of drawing steps pins. -/
theorem pinned_of_drawRun {κ γ : Type} {session : CombatSession σ κ β}
    {publicPiles : β → PublicPiles} {key : γ → ObservableCardKey}
    {phase : CombatPhase σ κ β}
    {root : List γ} {count : Nat} {piles : Piles γ}
    (hrun : DrawRun session publicPiles key phase root count piles)
    (hroot : phase.replayRoot.isSome) :
    pinnedPrefixVisibleDrawConstraints phase.replayPrefix =
      .ok (rootDraws ((root.take count).map key)) := by
  rcases evidence_of_drawRun hrun with ⟨-, -, -, hevidence⟩
  rcases hevidence hroot with ⟨hfree, hall⟩
  simp only [pinnedPrefixVisibleDrawConstraints, collectVisibleDraws_eq hfree, hall,
    isContiguousPrefix_rootDraws, if_true]

/-- The draws of a committed run are materialized as they should if and only if the pile
    is ambiguous, and then nothing is promised, or each drawn card was seen without an
    enchantment and is told apart in the snapshot from every other card of the pile. -/
theorem materializes_iff (session : CombatSession σ (CombatStateSnapshot ρ) β)
    (publicPiles : β → PublicPiles) (key : CardInstanceSnapshot → ObservableCardKey)
    (phase : CombatPhase σ (CombatStateSnapshot ρ) β) (root : List CardInstanceSnapshot)
    (count : Nat) (piles : Piles CardInstanceSnapshot)
    (hrun : DrawRun session publicPiles key phase root count piles)
    (snapshot : CombatStateSnapshot ρ) (hroot : phase.replayRoot = some (.snapshot snapshot))
    (hunique : (snapshot.cardInstances.map (·.instanceId)).Nodup)
    (hpile : root.Perm (snapshot.cardsInZone "draw_pile"))
    (hkeys : ∀ card ∈ root, card.observedKey = some (key card))
    (digests : Digests (CombatStateSnapshot ρ))
    (context : DecisionContext (CombatStateSnapshot ρ) β)
    (hcontext : context.rootSnapshot = .snapshot snapshot ∧
      context.replayPrefix = phase.replayPrefix)
    (hypothesis : SearchHypothesisId) (hperm : hypothesis.orderedDrawPileCardIds.Perm
      ((snapshot.cardsInZone "draw_pile").map (·.cardId))) :
    Materializes digests context hypothesis key root (root.take count) ↔
      Ambiguous key root ∨ (snapshot.shuffle.isSome ∧ ToldApart key root (root.take count)) := by
  -- The prefix of the phase pins exactly the cards that were drawn.
  have hpins : pinnedPrefixVisibleDrawConstraints context.replayPrefix =
      .ok (rootDraws ((root.take count).map key)) := by
    rw [hcontext.2]
    exact pinned_of_drawRun hrun (by rw [hroot]; rfl)
  have hmaterialized : Materialized digests context hypothesis ((root.take count).map key) ↔
      snapshot.shuffle.isSome ∧
        ToldApart key (snapshot.cardsInZone "draw_pile") (root.take count) :=
    materialized_iff hunique hcontext.1 hpins
      (fun card hcard => hkeys card (List.mem_of_mem_take hcard))
      ((List.take_sublist count root).subperm.trans hpile.subperm) hperm
  -- The pile of the snapshot has the same cards in another order, which `ToldApart` does not
  -- see.
  have hapart : ToldApart key (snapshot.cardsInZone "draw_pile") (root.take count) ↔
      ToldApart key root (root.take count) := by
    unfold ToldApart
    simp only [hpile.mem_iff]
  rw [hapart] at hmaterialized
  constructor
  -- An ambiguous pile is refused, and with it the whole hypothesis.
  · intro h
    by_cases hambiguous : Ambiguous key root
    · exact .inl hambiguous
    · exact .inr (hmaterialized.mp (h.materialized hambiguous))
  · rintro (hambiguous | htold)
    · exact ⟨fun hnot => absurd hambiguous hnot, fun _ => hambiguous⟩
    · have hdone := hmaterialized.mpr htold
      refine ⟨fun _ => hdone, fun herror => ?_⟩
      rcases hdone with ⟨derived, restored, hok, -⟩
      rw [herror] at hok
      cases hok

end Law

section Twins

/-- Two strikes that are alike in all but instance and place. -/
def twinPile : List CardInstanceSnapshot :=
  [drawPileCard "c1" "STRIKE" 0, drawPileCard "c2" "STRIKE" 1]

/-- A snapshot with two cards of one name in the draw pile. -/
def twinSnapshot : CombatStateSnapshot Unit :=
  { cardInstances := twinPile, shuffle := some ⟨0, 1, 2, 3, 4⟩, rest := () }

/-- What can be seen of those cards. -/
def strikeKey : ObservableCardKey := (drawPileCard "c1" "STRIKE" 0).observableCardKey

/-- A defend is played, and a strike is drawn. -/
def twinState (time : Nat) : BattleState PublicPiles where
  board :=
    if time = 0 then
      ⟨some [strikeKey, strikeKey], some [(drawPileCard "c3" "DEFEND" 0).observableCardKey]⟩
    else ⟨some [strikeKey], some [strikeKey]⟩
  isTerminal := false
  pendingChoice := if time = 0 then none else some { choiceType := some "choose" }
  cachedLegalActions := some [{ actionId := 9, actionType := "card" }]
  decisionFrame := some ⟨some "combat", time, none⟩

/-- A session in which one of them is drawn. -/
def twinSession : CombatSession Nat (CombatStateSnapshot Unit) PublicPiles where
  bootstrap _ time := (time, .ok (twinState time))
  step _ _ _ _ time := (time + 1, .ok (twinState (time + 1)))
  getLegalActions time := .ok (twinState time).legalActions
  captureSnapshot _ := .ok twinSnapshot
  captureBoundary _ := none

/-- The phase before the draw. -/
def twinStart : CombatPhase Nat (CombatStateSnapshot Unit) PublicPiles :=
  { session := 0, rootState := twinState 0, adoptedIntoRun := false
    heldStableSnapshot := some twinSnapshot }

/-- The phase after the draw. -/
def twinPhase : CombatPhase Nat (CombatStateSnapshot Unit) PublicPiles :=
  (twinStart.commitRootAction twinSession id { actionId := 9, actionType := "card" }).1

/-- The piles after the draw. -/
def twinPiles : Piles CardInstanceSnapshot :=
  ⟨[drawPileCard "c2" "STRIKE" 1], [drawPileCard "c1" "STRIKE" 0]⟩

theorem twinPhase_draws : DrawRun twinSession id CardInstanceSnapshot.observableCardKey twinPhase
    twinPile 1 twinPiles := by
  have hshows : Shows CardInstanceSnapshot.observableCardKey (twinState 0).board
      ⟨twinPile, [drawPileCard "c3" "DEFEND" 0]⟩ := ⟨⟨_, rfl, .refl _⟩, rfl⟩
  have hcommit : CombatPhase.Commits twinSession id twinStart twinPhase :=
    ⟨_, _, _, { actionId := 9, actionType := "card" }, rfl, List.mem_singleton_self _, rfl⟩
  have hdraws : Draws ⟨twinPile, [drawPileCard "c3" "DEFEND" 0]⟩ [drawPileCard "c1" "STRIKE" 0]
      twinPiles := ⟨⟨[], _, [], rfl, rfl⟩, rfl⟩
  have hafter : Shows CardInstanceSnapshot.observableCardKey (twinState 1).board twinPiles :=
    ⟨⟨_, rfl, .refl _⟩, rfl⟩
  exact .pending (.root rfl hshows) hcommit rfl hdraws hafter

/-- One strike was drawn, and the evidence names it first. -/
theorem visible_draw_evidence_twin :
    1 ≤ twinPile.length ∧ pinnedPrefixVisibleDrawConstraints twinPhase.replayPrefix =
      .ok (rootDraws [strikeKey]) :=
  (visible_draw_evidence twinSession id CardInstanceSnapshot.observableCardKey).1 twinPhase twinPile
    1 twinPiles twinPhase_draws rfl

/-- The decision after the draw. -/
def twinContext : DecisionContext (CombatStateSnapshot Unit) PublicPiles :=
  { DecisionContext.fromRoot (.snapshot twinSnapshot) (twinState 1)
      (DecisionSignature.fromBattleState (twinState 1) ⟨"card", ""⟩
        { actionId := 9, actionType := "card" } none none) with
    replayPrefix := twinPhase.replayPrefix }

/-- A hypothesis on the two cards. -/
def twinHypothesis : SearchHypothesisId := ⟨⟨5, 6, 7, 8, 9⟩, ["STRIKE", "STRIKE"], 0⟩

theorem twinPile_observed :
    ∀ card ∈ twinPile, card.observedKey = some card.observableCardKey := by
  decide

theorem materializes_twins :
    Materializes constantDigests twinContext twinHypothesis CardInstanceSnapshot.observableCardKey
        twinPile (twinPile.take 1) ↔
      Ambiguous CardInstanceSnapshot.observableCardKey twinPile ∨ (twinSnapshot.shuffle.isSome ∧
        ToldApart CardInstanceSnapshot.observableCardKey twinPile (twinPile.take 1)) :=
  materializes_iff twinSession id CardInstanceSnapshot.observableCardKey twinPhase twinPile 1
    twinPiles twinPhase_draws twinSnapshot rfl (by decide) (by decide) twinPile_observed
    constantDigests twinContext ⟨rfl, rfl⟩ twinHypothesis (by decide)

/-- The two strikes behave alike, and the one that was drawn is rejected as ambiguous. -/
theorem twins_rejected :
    DrawRun twinSession id CardInstanceSnapshot.observableCardKey twinPhase twinPile 1 twinPiles ∧
    (∀ card ∈ twinPile, card.observedKey = some card.observableCardKey) ∧
    ¬ Ambiguous CardInstanceSnapshot.observableCardKey twinPile ∧
    applyHypothesisToContext constantDigests twinContext twinHypothesis = .error ambiguousPin ∧
    ¬ Materializes constantDigests twinContext twinHypothesis
      CardInstanceSnapshot.observableCardKey twinPile (twinPile.take 1) := by
  have hnot : ¬ Ambiguous CardInstanceSnapshot.observableCardKey twinPile := by
    unfold Ambiguous
    decide +kernel
  have hrejected : applyHypothesisToContext constantDigests twinContext twinHypothesis =
      .error ambiguousPin := rfl
  exact ⟨twinPhase_draws, twinPile_observed, hnot, hrejected,
    fun h => hnot (h.rejected hrejected)⟩

end Twins

end Combat

end STS2RL
