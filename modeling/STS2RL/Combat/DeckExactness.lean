import Mathlib.Data.Multiset.AddSub
import STS2RL.Combat.FloorState
import STS2RL.Core.History

/-!
# Exactness of Reconstructed Decks

Which physical card a logged event touched is not in the log. A *resolution* of
a log makes the choice for every event: any card the replay would have taken
into consideration there may have been the one. The replay itself is the
resolution that always takes the first card.

A deck is known exactly when all resolutions agree on its multiset of ids and
upgraded states. Upgrading one of several plain copies gives the same multiset
whichever copy it was, but it also decides which floor the upgraded copy came in
on, and a later removal does name the floor. So the warning of a removal, which
looks at the copies of the reconstructed deck only, can stay away although other
resolutions have an upgraded copy where the replay has a plain one.

Exactness therefore holds as long as every removal that goes through without a
warning takes a card of the same upgraded state in every resolution, and fails
at the first one that does not.

## Main definitions

* `LogEvent`, `PointStats.events`: What a map point logs, in the order of the
  replay.
* `ReplayState.apply`, `ReplayState.replay`: The replay, an event at a time.
* `ReplayState.Clean`: No `AMBIGUOUS` and no `NOTFOUND` warning so far.
* `Touches`, `Resolves`: The ways one event and a log may have gone.
* `faces`: The multiset of card ids and upgraded states of a deck.
* `Exact`: At every clean point all resolutions have the replay's faces.
* `Settled`: Clean removals take cards of one upgraded state.

## Theorems

* `applyPointStats_eq`: A map point is its logged events, one after the other.
* `resolves_replay`: The replay is one of the resolutions.
* `faces_turned`, `faces_removed`: What an event does to the faces.
* `exact_iff`: When the reconstruction is exact.
* `settled_of_uniform`: A condition that looks at the replay's own decks only.
-/

namespace STS2RL

namespace FloorState

open History

/-! ### The log, event by event -/

/-- One logged reference, or one absolute value. -/
inductive LogEvent where
  | gained (cardRef : CardRef) (eventChoices : List String)
  | removed (cardRef : CardRef)
  | upgraded (entryId : String)
  | downgraded (entryId : String)
  | relicPicked (choice : String)
  | relicRemoved (relic : String)
  | potionPicked (choice : String)
  | potionLost (field potion : String)
  | gold (amount : Option Int)
  | hp (values : Option (Int × Int))
  deriving DecidableEq, Repr

namespace ReplayState

/-- The replay of one event. -/
def apply (state : ReplayState) : LogEvent → ReplayState
  | .gained cardRef eventChoices => state.addCard cardRef eventChoices
  | .removed cardRef => state.removeCard cardRef
  | .upgraded entryId => state.upgradeCard entryId
  | .downgraded entryId => state.downgradeCard entryId
  | .relicPicked choice => state.pickRelic choice
  | .relicRemoved relic => state.removeRelic relic
  | .potionPicked choice => state.pickPotion choice
  | .potionLost field potion => state.losePotion field potion
  | .gold amount => state.setGold amount
  | .hp values => state.setHp values

/-- The replay of a log. -/
def replay (state : ReplayState) (log : List LogEvent) : ReplayState := log.foldl apply state

theorem replay_concat (state : ReplayState) (log : List LogEvent) (event : LogEvent) :
    state.replay (log ++ [event]) = (state.replay log).apply event := by
  simp [replay]

end ReplayState

/-- The cards that were taken among those on offer. -/
def picked (offers : List Offer) : List String := (offers.filter Offer.wasPicked).map Offer.choice

/-- The events of a map point in the order the replay takes them. -/
def PointStats.events (stats : PointStats) : List LogEvent :=
  stats.cardsGained.map (LogEvent.gained · stats.eventChoices) ++
    stats.cardsRemoved.map .removed ++
    (stats.cardsTransformed.flatMap fun t => [.removed t.1, .gained t.2 stats.eventChoices]) ++
    stats.upgradedCards.map .upgraded ++
    stats.downgradedCards.map .downgraded ++
    (picked stats.relicChoices).map .relicPicked ++
    stats.relicsRemoved.map .relicRemoved ++
    (picked stats.potionChoices).map .potionPicked ++
    stats.potionUsed.map (.potionLost "potion_used") ++
    stats.potionDiscarded.map (.potionLost "potion_discarded") ++
    [.gold stats.currentGold, .hp stats.hp]

theorem foldl_picked (act : ReplayState → String → ReplayState) (offers : List Offer)
    (state : ReplayState) :
    offers.foldl (fun s offer => if offer.wasPicked then act s offer.choice else s) state =
      (picked offers).foldl act state := by
  induction offers generalizing state with
  | nil => rfl
  | cons offer rest ih =>
      by_cases hpicked : offer.wasPicked = true
      · simp [picked, hpicked, ih]
      · simp [picked, hpicked, ih]

/-- A map point is its logged events, one after the other. -/
theorem applyPointStats_eq (state : ReplayState) (stats : PointStats) :
    state.applyPointStats stats = state.replay stats.events := by
  simp only [ReplayState.applyPointStats, ReplayState.replay, PointStats.events, List.foldl_append,
    List.foldl_map, List.foldl_flatMap, List.foldl_cons, List.foldl_nil, foldl_picked,
    ReplayState.apply]

/-! ### Warnings -/

namespace ReplayState

/-- No `AMBIGUOUS` and no `NOTFOUND` warning so far. -/
def Clean (state : ReplayState) : Prop :=
  ∀ warning ∈ state.warnings, warning.label ≠ .ambiguous ∧ warning.label ≠ .notFound

instance (state : ReplayState) : Decidable state.Clean := by
  unfold Clean
  infer_instance

@[simp]
theorem warn_deck (state : ReplayState) (label : WarningLabel) (message : String) :
    (state.warn label message).deck = state.deck := rfl

theorem warn_warnings (state : ReplayState) (label : WarningLabel) (message : String) :
    (state.warn label message).warnings = state.warnings ++ [⟨label, message⟩] := rfl

theorem not_clean_warn (state : ReplayState) {label : WarningLabel} (message : String)
    (h : label = .ambiguous ∨ label = .notFound) : ¬ (state.warn label message).Clean := by
  intro hclean
  have hlast := hclean ⟨label, message⟩ (by simp [warn_warnings])
  rcases h with h | h
  · exact hlast.1 h
  · exact hlast.2 h

end ReplayState

/-! ### Ways a log may have gone -/

section Resolutions

/-- The card a gain adds. -/
def addedCard (cardRef : CardRef) (eventChoices : List String) : Card :=
  if (ReplayState.cardOf cardRef).id = "MAD_SCIENCE" then
    match reconcileMadScienceState cardRef eventChoices with
    | .ok tinkerTime => { ReplayState.cardOf cardRef with tinkerTime := some tinkerTime }
    | .error _ => ReplayState.cardOf cardRef
  else ReplayState.cardOf cardRef

/-- The cards of a deck a removal may be about. -/
def removable (deck : List Card) (cardRef : CardRef) : List Card :=
  ReplayState.removalCandidates deck (stripPrefix cardRef.id "CARD.") cardRef.floorAddedToDeck

/-- A card of a bare id that is not yet as the event leaves it. -/
def Turnable (target : Bool) (entryId : String) (card : Card) : Prop :=
  card.id = stripPrefix entryId "CARD." ∧ card.upgraded = !target

/-- Whether the event is about the deck at all. -/
def LogEvent.namesCard : LogEvent → Bool
  | .gained .. | .removed .. | .upgraded .. | .downgraded .. => true
  | _ => false

/-- The ways one event may have gone: which card it touched is left open. -/
inductive Touches : List Card → LogEvent → List Card → Prop where
  | gained (deck : List Card) (cardRef : CardRef) (eventChoices : List String) :
      Touches deck (.gained cardRef eventChoices) (deck ++ [addedCard cardRef eventChoices])
  | removed (before : List Card) (card : Card) (after : List Card) {cardRef : CardRef}
      (h : card ∈ removable (before ++ card :: after) cardRef) :
      Touches (before ++ card :: after) (.removed cardRef) (before ++ after)
  | upgraded (before : List Card) (card : Card) (after : List Card) {entryId : String}
      (h : Turnable true entryId card) :
      Touches (before ++ card :: after) (.upgraded entryId)
        (before ++ { card with upgraded := true } :: after)
  | downgraded (before : List Card) (card : Card) (after : List Card) {entryId : String}
      (h : Turnable false entryId card) :
      Touches (before ++ card :: after) (.downgraded entryId)
        (before ++ { card with upgraded := false } :: after)
  | other (deck : List Card) {event : LogEvent} (h : event.namesCard = false) :
      Touches deck event deck

/-- The ways a log may have gone. -/
inductive Resolves (deck : List Card) : List LogEvent → List Card → Prop where
  | nil : Resolves deck [] deck
  | concat {log : List LogEvent} {mid last : List Card} {event : LogEvent}
      (hlog : Resolves deck log mid) (hevent : Touches mid event last) :
      Resolves deck (log ++ [event]) last

theorem resolves_nil {deck last : List Card} (h : Resolves deck [] last) : last = deck := by
  generalize hlog : ([] : List LogEvent) = log at h
  cases h with
  | nil => rfl
  | concat hlog' hevent => simp at hlog

theorem resolves_concat {deck last : List Card} {log : List LogEvent} {event : LogEvent}
    (h : Resolves deck (log ++ [event]) last) :
    ∃ mid, Resolves deck log mid ∧ Touches mid event last := by
  generalize hwhole : log ++ [event] = whole at h
  cases h with
  | nil => simp at hwhole
  | concat hlog hevent =>
      rcases List.append_inj' hwhole rfl with ⟨rfl, heq⟩
      cases heq
      exact ⟨_, hlog, hevent⟩

theorem resolves_cons {deck mid last : List Card} {log : List LogEvent} {event : LogEvent}
    (hevent : Touches deck event mid) (hlog : Resolves mid log last) :
    Resolves deck (event :: log) last := by
  induction hlog with
  | nil => exact .concat .nil hevent
  | concat hbefore hlast ih => exact .concat ih hlast

end Resolutions

/-! ### The replay is one of them -/

namespace ReplayState

theorem addCard_deck (state : ReplayState) (cardRef : CardRef) (eventChoices : List String) :
    (state.addCard cardRef eventChoices).deck = state.deck ++ [addedCard cardRef eventChoices] := by
  by_cases hscience : (cardOf cardRef).id = "MAD_SCIENCE"
  · cases hreconciled : reconcileMadScienceState cardRef eventChoices with
    | ok tinkerTime => simp [addCard, addedCard, hscience, hreconciled]
    | error status => simp [addCard, addedCard, hscience, hreconciled]
  · simp [addCard, addedCard, hscience]

theorem warnings_turnCard (target : Bool) (field wanted : String) (state : ReplayState)
    (entryId : String) :
    state.warnings <+: (turnCard target field wanted state entryId).warnings := by
  rw [turnCard]
  dsimp only
  split
  · exact List.prefix_append _ _
  · exact List.prefix_rfl

/-- No event takes a warning back. -/
theorem warnings_apply (state : ReplayState) (event : LogEvent) :
    state.warnings <+: (state.apply event).warnings := by
  -- A warning is added at the end, so it is enough that each branch adds some or none.
  have hwarn : ∀ label message, state.warnings <+: (state.warn label message).warnings :=
    fun label message => List.prefix_append _ _
  -- One case for each kind of event.
  cases event with
  | gained cardRef eventChoices =>
      simp only [apply, addCard]
      split
      · split
        · exact List.prefix_rfl
        · exact hwarn _ _
      · exact List.prefix_rfl
  | removed cardRef =>
      simp only [apply, removeCard]
      split
      · exact hwarn _ _
      · split
        · exact hwarn _ _
        · exact List.prefix_rfl
  | upgraded entryId => exact warnings_turnCard ..
  | downgraded entryId => exact warnings_turnCard ..
  | relicPicked choice =>
      simp only [apply, pickRelic]
      split
      · exact List.prefix_rfl
      · exact List.prefix_rfl
  | relicRemoved relic =>
      simp only [apply, removeRelic]
      split
      · exact List.prefix_rfl
      · exact hwarn _ _
  | potionPicked choice => exact List.prefix_rfl
  | potionLost field potion =>
      simp only [apply, losePotion]
      split
      · exact List.prefix_rfl
      · exact hwarn _ _
  | gold amount =>
      cases amount with
      | none => exact List.prefix_rfl
      | some amount => exact List.prefix_rfl
  | hp values =>
      cases values with
      | none => exact hwarn _ _
      | some values => exact List.prefix_rfl

theorem clean_of_apply {state : ReplayState} {event : LogEvent} (h : (state.apply event).Clean) :
    state.Clean :=
  fun warning hwarning => h warning ((warnings_apply state event).subset hwarning)

/-- A removal that raises no new doubt takes the first candidate, and the other
    candidates are in the same state. -/
theorem removeCard_of_clean {state : ReplayState} {cardRef : CardRef}
    (h : (state.removeCard cardRef).Clean) :
    ∃ card others, removable state.deck cardRef = card :: others ∧
      (state.removeCard cardRef).deck = state.deck.erase card ∧
      ∀ other ∈ others, other.upgraded = card.upgraded := by
  rw [removeCard] at h ⊢
  cases hfound : removalCandidates state.deck (stripPrefix cardRef.id "CARD.")
      cardRef.floorAddedToDeck with
  | nil =>
      simp only [hfound] at h
      exact absurd h (not_clean_warn state _ (.inr rfl))
  | cons card others =>
      simp only [hfound] at h
      refine ⟨card, others, hfound, ?_, ?_⟩
      · -- the warning leaves the deck alone
        dsimp only
        split
        · rfl
        · rfl
      · by_cases hdiffer : others.any fun other => other.upgraded ≠ card.upgraded
        · simp only [hdiffer, if_true] at h
          exact absurd h (not_clean_warn state _ (.inl rfl))
        · intro other hother
          simp only [List.any_eq_true, not_exists, not_and, decide_eq_true_eq, not_not] at hdiffer
          exact hdiffer other hother

/-- Turning a card over without a warning turns one of the id in the other
    state, where it lies. -/
theorem turnCard_of_clean {state : ReplayState} {target : Bool} {field wanted entryId : String}
    (h : (turnCard target field wanted state entryId).Clean) :
    ∃ before card after, state.deck = before ++ card :: after ∧ Turnable target entryId card ∧
      (turnCard target field wanted state entryId).deck =
        before ++ { card with upgraded := target } :: after := by
  rw [turnCard] at h ⊢
  cases hfound : findCardCandidates state.deck (stripPrefix entryId "CARD.") none
      (some !target) with
  | nil =>
      simp only [hfound] at h
      exact absurd h (not_clean_warn state _ (.inr rfl))
  | cons card others =>
      rcases changeFirst_eq (fun card => { card with upgraded := target }) hfound with
        ⟨before, after, hdeck, hfit, hchanged⟩
      rcases fits_iff.1 hfit with ⟨hid, -, hupgraded⟩
      exact ⟨before, card, after, hdeck, ⟨hid, hupgraded _ rfl⟩, hchanged⟩

theorem apply_deck_of_not_namesCard (state : ReplayState) {event : LogEvent}
    (h : event.namesCard = false) : (state.apply event).deck = state.deck := by
  cases event with
  | gained cardRef eventChoices => simp [LogEvent.namesCard] at h
  | removed cardRef => simp [LogEvent.namesCard] at h
  | upgraded entryId => simp [LogEvent.namesCard] at h
  | downgraded entryId => simp [LogEvent.namesCard] at h
  | relicPicked choice => simp only [apply, pickRelic]; split <;> rfl
  | relicRemoved relic => simp only [apply, removeRelic]; split <;> rfl
  | potionPicked choice => rfl
  | potionLost field potion => simp only [apply, losePotion]; split <;> rfl
  | gold amount => cases amount <;> rfl
  | hp values => cases values <;> rfl

/-- An event that is replayed without a warning went one of the ways it may
    have gone. -/
theorem touches_apply {state : ReplayState} {event : LogEvent} (h : (state.apply event).Clean) :
    Touches state.deck event (state.apply event).deck := by
  by_cases hother : event.namesCard = false
  · rw [apply_deck_of_not_namesCard state hother]
    exact .other _ hother
  cases event with
  | gained cardRef eventChoices =>
      have hgain := Touches.gained state.deck cardRef eventChoices
      rwa [← addCard_deck] at hgain
  | removed cardRef =>
      rcases removeCard_of_clean h with ⟨card, others, hfound, hdeck, -⟩
      have hmem : card ∈ removable state.deck cardRef := by
        rw [hfound]
        exact List.mem_cons_self
      rcases List.exists_erase_eq (removalCandidates_id hmem).1 with
        ⟨before, after, -, hwhole, herase⟩
      rw [hwhole] at hmem
      rw [apply, hdeck, herase, hwhole]
      exact .removed before card after hmem
  | upgraded entryId =>
      rcases turnCard_of_clean h with ⟨before, card, after, hdeck, hturn, hturned⟩
      have hturn' := Touches.upgraded before card after hturn
      rwa [← hdeck, ← hturned] at hturn'
  | downgraded entryId =>
      rcases turnCard_of_clean h with ⟨before, card, after, hdeck, hturn, hturned⟩
      have hturn' := Touches.downgraded before card after hturn
      rwa [← hdeck, ← hturned] at hturn'
  | _ => exact absurd rfl hother

end ReplayState

/-! ### Faces -/

section Faces

/-- What is compared of a card. -/
def Card.face (card : Card) : String × Bool := (card.id, card.upgraded)

/-- The multiset of card ids and upgraded states of a deck. -/
def faces (deck : List Card) : Multiset (String × Bool) := deck.map Card.face

theorem faces_middle (before : List Card) (card : Card) (after : List Card) :
    faces (before ++ card :: after) = card.face ::ₘ faces (before ++ after) := by
  rw [faces, faces, Multiset.cons_coe, Multiset.coe_eq_coe, ← List.map_cons]
  exact List.perm_middle.map Card.face

theorem faces_concat (deck : List Card) (card : Card) :
    faces (deck ++ [card]) = card.face ::ₘ faces deck := by
  rw [faces_middle, List.append_nil]

/-- Whichever of two cards is turned over, equal faces stay equal. -/
theorem faces_turned {target : Bool} {entryId : String} {before after before' after' : List Card}
    {card card' : Card} (h : Turnable target entryId card) (h' : Turnable target entryId card')
    (heq : faces (before ++ card :: after) = faces (before' ++ card' :: after')) :
    faces (before ++ { card with upgraded := target } :: after) =
      faces (before' ++ { card' with upgraded := target } :: after') := by
  have hface : card.face = card'.face := by
    simp only [Card.face, h.1, h'.1, h.2, h'.2]
  rw [faces_middle, faces_middle, hface, Multiset.cons_inj_right] at heq
  rw [faces_middle, faces_middle, heq]
  simp only [Card.face, h.1, h'.1]

/-- An event other than a removal keeps equal faces equal, whichever cards it
    touches on the two sides. -/
theorem faces_touches {deck deck' last last' : List Card} {event : LogEvent}
    (hremoved : ∀ cardRef, event ≠ .removed cardRef) (h : Touches deck event last)
    (h' : Touches deck' event last') (heq : faces deck = faces deck') :
    faces last = faces last' := by
  cases h with
  | gained deck cardRef eventChoices =>
      cases h' with
      | gained =>
          rw [faces_concat, faces_concat, heq]
      | other deck' hother => simp [LogEvent.namesCard] at hother
  | removed before card after hmem => exact absurd rfl (hremoved _)
  | upgraded before card after hturn =>
      cases h' with
      | upgraded before' card' after' hturn' => exact faces_turned hturn hturn' heq
      | other deck' hother => simp [LogEvent.namesCard] at hother
  | downgraded before card after hturn =>
      cases h' with
      | downgraded before' card' after' hturn' => exact faces_turned hturn hturn' heq
      | other deck' hother => simp [LogEvent.namesCard] at hother
  | other deck hother =>
      cases h' with
      | other => exact heq
      | gained => simp [LogEvent.namesCard] at hother
      | removed => simp [LogEvent.namesCard] at hother
      | upgraded => simp [LogEvent.namesCard] at hother
      | downgraded => simp [LogEvent.namesCard] at hother

/-- A removal takes the face of one of the cards it may be about. -/
theorem faces_removed {deck last : List Card} {cardRef : CardRef}
    (h : Touches deck (.removed cardRef) last) :
    ∃ card ∈ removable deck cardRef, faces deck = card.face ::ₘ faces last := by
  cases h with
  | removed before card after hmem => exact ⟨card, hmem, faces_middle before card after⟩
  | other deck hother => simp [LogEvent.namesCard] at hother

/-- Each of the cards a removal may be about can be the one. -/
theorem touches_of_removable {deck : List Card} {cardRef : CardRef} {card : Card}
    (h : card ∈ removable deck cardRef) :
    ∃ last, Touches deck (.removed cardRef) last ∧ faces deck = card.face ::ₘ faces last := by
  rcases List.append_of_mem (ReplayState.removalCandidates_id h).1 with ⟨before, after, hdeck⟩
  subst hdeck
  exact ⟨before ++ after, .removed before card after h, faces_middle before card after⟩

theorem face_of_removable {deck : List Card} {cardRef : CardRef} {card : Card}
    (h : card ∈ removable deck cardRef) :
    card.face = (stripPrefix cardRef.id "CARD.", card.upgraded) := by
  rw [Card.face, (ReplayState.removalCandidates_id h).2]

end Faces

/-! ### When the reconstruction is exact -/

section Exactness

variable (start : ReplayState)

/-- As long as nothing was flagged, every resolution of the log so far has the
    faces of the replay. -/
def Exact (log : List LogEvent) : Prop :=
  ∀ before after, log = before ++ after → (start.replay before).Clean →
    ∀ deck, Resolves start.deck before deck → faces deck = faces (start.replay before).deck

/-- When the event is a removal that is replayed without a warning, every card
    it may be about, in every resolution of the log before it, has the upgraded
    state of the card the replay takes. -/
def SettledAt (before : List LogEvent) (event : LogEvent) : Prop :=
  ∀ cardRef, event = .removed cardRef → (start.replay (before ++ [event])).Clean →
    ∀ deck, Resolves start.deck before deck → ∀ card ∈ removable deck cardRef,
      ∀ taken ∈ (removable (start.replay before).deck cardRef).head?,
        card.upgraded = taken.upgraded

/-- Every removal of the log is settled by what was logged before it. -/
def Settled (log : List LogEvent) : Prop := Justified (SettledAt start) log

variable {start}

theorem exact_nil : Exact start [] := by
  intro before after hlog _ deck hdeck
  have hbefore : before = [] := (List.append_eq_nil_iff.1 hlog.symm).1
  subst hbefore
  rw [resolves_nil hdeck]
  rfl

theorem Exact.of_append {log later : List LogEvent} (h : Exact start (log ++ later)) :
    Exact start log := by
  intro before after hlog
  exact h before (after ++ later) (by rw [hlog, List.append_assoc])

/-- One more event: exactness at the point behind it is all there is to add. -/
theorem exact_concat {log : List LogEvent} {event : LogEvent} :
    Exact start (log ++ [event]) ↔ Exact start log ∧
      ((start.replay (log ++ [event])).Clean → ∀ deck, Resolves start.deck (log ++ [event]) deck →
        faces deck = faces (start.replay (log ++ [event])).deck) := by
  constructor
  · intro h
    exact ⟨h.of_append, h (log ++ [event]) [] (by rw [List.append_nil])⟩
  · rintro ⟨hlog, hlast⟩ before after hsplit
    by_cases hafter : after = []
    · rw [hafter, List.append_nil] at hsplit
      rwa [← hsplit]
    · refine hlog before after.dropLast ?_
      have hdrop := congrArg List.dropLast hsplit
      rwa [List.dropLast_concat, List.dropLast_append_of_ne_nil hafter] at hdrop

/-- A removal keeps the faces in step exactly when it takes cards of one
    upgraded state. -/
theorem removed_iff {log : List LogEvent} {cardRef : CardRef}
    (hlog : ∀ deck, Resolves start.deck log deck → faces deck = faces (start.replay log).deck)
    (hclean : (start.replay (log ++ [.removed cardRef])).Clean) :
    (∀ deck, Resolves start.deck (log ++ [.removed cardRef]) deck →
        faces deck = faces (start.replay (log ++ [.removed cardRef])).deck) ↔
      ∀ deck, Resolves start.deck log deck → ∀ card ∈ removable deck cardRef,
        ∀ taken ∈ (removable (start.replay log).deck cardRef).head?,
          card.upgraded = taken.upgraded := by
  rw [ReplayState.replay_concat] at hclean ⊢
  rcases ReplayState.removeCard_of_clean hclean with ⟨taken, others, hfound, hdeck, -⟩
  have htaken : taken ∈ removable (start.replay log).deck cardRef := by
    rw [hfound]
    exact List.mem_cons_self
  have hreplay : faces (start.replay log).deck =
      taken.face ::ₘ faces ((start.replay log).apply (.removed cardRef)).deck := by
    rcases List.exists_erase_eq (ReplayState.removalCandidates_id htaken).1 with
      ⟨before, after, -, hwhole, herase⟩
    rw [ReplayState.apply, hdeck, herase, hwhole]
    exact faces_middle before taken after
  constructor
  · intro hexact deck hresolves card hcard taken' htaken'
    rw [hfound, List.head?_cons, Option.mem_some_iff] at htaken'
    subst htaken'
    -- let the resolution remove that very card
    rcases touches_of_removable hcard with ⟨last, htouches, hfaces⟩
    have hsame := hexact last (.concat hresolves htouches)
    have heq := hlog deck hresolves
    rw [hfaces, hreplay, hsame, Multiset.cons_inj_left, face_of_removable hcard,
      face_of_removable htaken] at heq
    exact congrArg Prod.snd heq
  · intro hsettled deck hresolves
    rcases resolves_concat hresolves with ⟨mid, hmid, htouches⟩
    rcases faces_removed htouches with ⟨card, hcard, hfaces⟩
    have hupgraded := hsettled mid hmid card hcard taken (by rw [hfound]; rfl)
    have heq := hlog mid hmid
    rwa [hfaces, hreplay, face_of_removable hcard, face_of_removable htaken, hupgraded,
      Multiset.cons_inj_right] at heq

/-- The reconstruction is exact at every point of a log exactly when every
    removal is settled by what was logged before it. -/
theorem exact_iff (log : List LogEvent) : Exact start log ↔ Settled start log := by
  -- The induction is from the end of the log. By it the log before the event is settled, and
  -- only the event is left to compare.
  induction log using List.reverseRecOn with
  | nil => exact iff_of_true exact_nil justified_nil
  | append_singleton log event ih =>
      rw [exact_concat, Settled, justified_concat, ← Settled, ih]
      refine and_congr_right fun hsettled => ?_
      -- Where the replay is clean, the faces of every resolution are those of the replayed deck.
      have hlog : (start.replay (log ++ [event])).Clean → ∀ deck, Resolves start.deck log deck →
          faces deck = faces (start.replay log).deck := by
        intro hclean deck hdeck
        rw [ReplayState.replay_concat] at hclean
        exact ih.2 hsettled log [] (by rw [List.append_nil])
          (ReplayState.clean_of_apply hclean) deck hdeck
      by_cases hremoved : ∃ cardRef, event = .removed cardRef
      · rcases hremoved with ⟨cardRef, rfl⟩
        constructor
        · intro hexact cardRef' heq hclean
          cases heq
          exact (removed_iff (hlog hclean) hclean).1 (hexact hclean)
        · intro hat hclean
          exact (removed_iff (hlog hclean) hclean).2 (hat cardRef rfl hclean)
      · -- nothing but a removal can go apart
        refine iff_of_true ?_ fun cardRef heq => absurd ⟨cardRef, heq⟩ hremoved
        intro hclean deck hresolves
        rcases resolves_concat hresolves with ⟨mid, hmid, htouches⟩
        have hreplay : Touches (start.replay log).deck event
            (start.replay (log ++ [event])).deck := by
          rw [ReplayState.replay_concat] at hclean ⊢
          exact ReplayState.touches_apply hclean
        exact faces_touches (fun cardRef heq => hremoved ⟨cardRef, heq⟩) htouches hreplay
          (hlog hclean mid hmid)

/-- The replay is one of the resolutions, as long as nothing was flagged. -/
theorem resolves_replay (log : List LogEvent) (h : (start.replay log).Clean) :
    Resolves start.deck log (start.replay log).deck := by
  induction log using List.reverseRecOn with
  | nil => exact .nil
  | append_singleton log event ih =>
      rw [ReplayState.replay_concat] at h ⊢
      exact .concat (ih (ReplayState.clean_of_apply h)) (ReplayState.touches_apply h)

/-- It is enough that at every removal that is replayed without a warning the
    replayed deck has all copies of the card in one upgraded state, on whichever
    floors they came in. -/
theorem settled_of_uniform (log : List LogEvent)
    (h : Justified (fun before event => ∀ cardRef, event = .removed cardRef →
      (start.replay (before ++ [event])).Clean →
      ∀ card ∈ (start.replay before).deck, ∀ other ∈ (start.replay before).deck,
        card.id = stripPrefix cardRef.id "CARD." → other.id = card.id →
        other.upgraded = card.upgraded) log) :
    Settled start log := by
  induction log using List.reverseRecOn with
  | nil => exact justified_nil
  | append_singleton log event ih =>
      rcases justified_concat.1 h with ⟨hlog, hevent⟩
      have hsettled := ih hlog
      refine justified_concat.2 ⟨hsettled, ?_⟩
      intro cardRef heq hclean deck hresolves card hcard taken htaken
      have hbefore : (start.replay log).Clean := by
        rw [ReplayState.replay_concat] at hclean
        exact ReplayState.clean_of_apply hclean
      have hfaces : faces deck = faces (start.replay log).deck :=
        (exact_iff log).2 hsettled log [] (by rw [List.append_nil]) hbefore deck hresolves
      -- the replayed deck has a card with the same face
      have hmem : card.face ∈ faces (start.replay log).deck := by
        rw [← hfaces]
        exact Multiset.mem_coe.2 (List.mem_map_of_mem (ReplayState.removalCandidates_id hcard).1)
      rcases List.mem_map.1 (Multiset.mem_coe.1 hmem) with ⟨twin, htwin, hface⟩
      have htaken' := ReplayState.removalCandidates_id (List.mem_of_mem_head? htaken)
      have hid : twin.id = taken.id := by
        have hsame := congrArg Prod.fst hface
        rw [htaken'.2, ← (ReplayState.removalCandidates_id hcard).2]
        exact hsame
      have hupgraded := hevent cardRef heq hclean taken htaken'.1 twin htwin htaken'.2 hid
      rw [← hupgraded]
      exact (congrArg Prod.snd hface).symm

end Exactness

/-! ### Runs -/

section Runs

/-- The events of a run, in order. -/
def eventsOf (points : List ((Nat × Nat) × MapPoint)) : List LogEvent :=
  points.flatMap fun point => (point.2.playerStats.getD {}).events

/-- Everything a run logs. -/
def RunLog.events (run : RunLog) : List LogEvent := eventsOf run.points

/-- What a run logs before its map point of that index. -/
def RunLog.eventsBefore (run : RunLog) (mapPointIndex : Nat) : List LogEvent :=
  eventsOf (run.points.take mapPointIndex)

theorem RunLog.events_eq (run : RunLog) (mapPointIndex : Nat) :
    run.events = run.eventsBefore mapPointIndex ++ eventsOf (run.points.drop mapPointIndex) := by
  rw [RunLog.events, RunLog.eventsBefore, eventsOf, eventsOf, eventsOf, ← List.flatMap_append,
    List.take_append_drop]

/-- An encounter shows the state replayed from the points before its own. -/
theorem encountersFrom_spec (points : List ((Nat × Nat) × MapPoint)) (state : ReplayState)
    (index : Nat) :
    ∀ encounter ∈ encountersFrom state index points, ∃ before,
      encounter.mapPointIndex = index + before ∧
        encounter.deck = (state.replay (eventsOf (points.take before))).deck ∧
        encounter.warnings = (state.replay (eventsOf (points.take before))).warnings := by
  induction points generalizing state index with
  | nil => simp [encountersFrom]
  | cons point rest ih =>
      intro encounter hmem
      rw [encountersFrom, List.mem_append] at hmem
      rcases hmem with hmem | hmem
      · rcases List.mem_map.1 hmem with ⟨room, -, rfl⟩
        exact ⟨0, rfl, rfl, rfl⟩
      · rcases ih _ _ encounter hmem with ⟨before, hindex, hdeck, hwarnings⟩
        refine ⟨before + 1, by omega, ?_, ?_⟩
        · rw [hdeck, applyPointStats_eq, List.take_succ_cons]
          simp only [eventsOf, List.flatMap_cons, ReplayState.replay, List.foldl_append]
        · rw [hwarnings, applyPointStats_eq, List.take_succ_cons]
          simp only [eventsOf, List.flatMap_cons, ReplayState.replay, List.foldl_append]

/-- What is labelled exact has not been flagged. -/
theorem clean_of_exact {ids : CanonicalIds} {encounter : Encounter}
    (h : (classifyRestoreStatus ids encounter).1 = .exact) :
    ∀ warning ∈ encounter.warnings, warning.label ≠ .ambiguous ∧ warning.label ≠ .notFound := by
  rw [classifyRestoreStatus] at h
  split at h
  · exact absurd h (by simp)
  · rename_i hconsistent
    split at h
    · split at h
      · exact absurd h (by simp)
      · rename_i hambiguous
        intro warning hwarning
        exact ⟨fun hlabel => hambiguous ⟨warning, hwarning, hlabel⟩,
          fun hlabel => hconsistent (.inr (.inr ⟨warning, hwarning, hlabel⟩))⟩
    · exact absurd h (by simp)

/-- The replayed deck is the only one consistent with the log, at every point up
    to which nothing was flagged, exactly when every removal is settled by what
    was logged before it; and then this holds of every encounter that is
    labelled exact. -/
theorem reconstruction_exact_iff (run : RunLog) :
    (Exact run.start run.events ↔ Settled run.start run.events) ∧
      (Settled run.start run.events → ∀ (ids : CanonicalIds),
        ∀ encounter ∈ reconstructEncountersForRun run,
          (classifyRestoreStatus ids encounter).1 = .exact →
          ∀ deck, Resolves run.start.deck (run.eventsBefore encounter.mapPointIndex) deck →
            faces deck = faces encounter.deck) := by
  refine ⟨exact_iff run.events, ?_⟩
  intro hsettled ids encounter hencounter hlabel deck hresolves
  rcases encountersFrom_spec run.points run.start 0 encounter hencounter with
    ⟨before, hindex, hdeck, hwarnings⟩
  rw [Nat.zero_add] at hindex
  have hclean : (run.start.replay (run.eventsBefore encounter.mapPointIndex)).Clean := by
    intro warning hwarning
    rw [hindex, RunLog.eventsBefore, ← hwarnings] at hwarning
    exact clean_of_exact hlabel warning hwarning
  rw [hdeck, ← hindex]
  exact (exact_iff run.events).2 hsettled _ _ (run.events_eq encounter.mapPointIndex) hclean deck
    hresolves

/-- An Ironclad gains a Strike on floor 3, upgrades a Strike and gives the
    Strike of floor 3 away, and then there is a fight. -/
def strikeRun : RunLog :=
  { character := "CHARACTER.IRONCLAD"
    ascension := none
    mapPointHistory :=
      [[⟨[], some { cardsGained := [{ id := "CARD.STRIKE_IRONCLAD", floorAddedToDeck := some 3 }]
                    hp := some (80, 80) }⟩,
        ⟨[], some { upgradedCards := ["CARD.STRIKE_IRONCLAD"], hp := some (80, 80) }⟩,
        ⟨[], some { cardsRemoved := [{ id := "CARD.STRIKE_IRONCLAD", floorAddedToDeck := some 3 }]
                    hp := some (80, 80) }⟩,
        ⟨[⟨"monster", none, []⟩], none⟩]] }

/-- The cards of a small game. -/
def strikeIds : CanonicalIds :=
  { cards := ["strikeironclad", "defendironclad", "bash"], relics := ["burningblood"]
    potions := [], monsters := [] }

/-- A starting deck without its strikes. -/
def plainDefends : List Card :=
  List.replicate 4 (ReplayState.startingCard "DEFEND_IRONCLAD") ++
    [ReplayState.startingCard "BASH"]

/-- The fight is labelled exact with one upgraded Strike in the deck, and the log
    would be the same had the upgraded Strike been the one that was given away. -/
theorem strike_deck_not_forced :
    ∃ encounter ∈ reconstructEncountersForRun strikeRun,
      (classifyRestoreStatus strikeIds encounter).1 = .exact ∧
      ∃ deck, Resolves strikeRun.start.deck (strikeRun.eventsBefore encounter.mapPointIndex) deck ∧
        faces deck ≠ faces encounter.deck := by
  let strike := ReplayState.startingCard "STRIKE_IRONCLAD"
  let late : Card := ⟨"STRIKE_IRONCLAD", some 3, false, none⟩
  let deck := List.replicate 5 strike ++ plainDefends
  refine ⟨_, @List.mem_of_getElem? _ _ 0 _ rfl, by decide, deck, ?_, by decide⟩
  have hgained := Touches.gained deck
    { id := "CARD.STRIKE_IRONCLAD", floorAddedToDeck := some 3 } []
  have hupgraded : Touches (deck ++ [late]) (.upgraded "CARD.STRIKE_IRONCLAD")
      (deck ++ [{ late with upgraded := true }]) := .upgraded deck late [] ⟨by decide, rfl⟩
  have hremoved : Touches (deck ++ [{ late with upgraded := true }])
      (.removed { id := "CARD.STRIKE_IRONCLAD", floorAddedToDeck := some 3 }) (deck ++ []) :=
    .removed deck _ [] (by decide)
  exact resolves_cons hgained (resolves_cons (.other _ rfl) (resolves_cons (.other _ rfl)
    (resolves_cons hupgraded (resolves_cons (.other _ rfl) (resolves_cons (.other _ rfl)
      (resolves_cons hremoved (resolves_cons (.other _ rfl) (resolves_cons (.other _ rfl)
        .nil))))))))

end Runs

end FloorState

end STS2RL
