import STS2RL.Combat.DecisionContext
import Mathlib.Data.List.Perm.Basic

/-!
# Visible Draws

What a committed step shows of the root's draw pile. A step that consumes one
card of the hand and appends cards that left the draw pile shows which cards lay
on top, in order; the draw pile itself is compared as a multiset only. A step
that changes the draw pile in any other way blocks the evidence of all later ones.

## Main definitions

* `PublicPiles`: The cards a board shows in the draw pile and in the hand.
* `visibleHandDrawSequence`: The drawn cards, when the step has the shape.
* `visibleDrawTransitionEvidence`: What a step adds to the evidence of a prefix.
-/

namespace STS2RL

namespace Combat

/-- The observable keys of the two piles. There are none where a card lacks a
    field the key needs. -/
structure PublicPiles where
  drawPile : Option (List ObservableCardKey)
  hand : Option (List ObservableCardKey)

/-- What a step shows of the cards that were drawn. -/
structure VisibleDrawTransitionEvidence where
  constraints : VisibleDrawConstraints := []
  blocksLaterPinning : Bool := false
  trackingError : Option String := none
  deriving DecidableEq

/-- `_counter_subset`. -/
def counterSubset (left right : List ObservableCardKey) : Bool :=
  left.all fun key => left.count key ≤ right.count key

/-- `_draw_multiset_changed`. -/
def drawMultisetChanged (pre post : PublicPiles) : Bool :=
  match pre.drawPile, post.drawPile with
  | some preKeys, some postKeys => !decide (preKeys.Perm postKeys)
  | _, _ => true

/-- `_matches_one_card_consumed`. -/
def matchesOneCardConsumed (preHand survivingPrefix : List ObservableCardKey) : Bool :=
  preHand.length = survivingPrefix.length + 1 ∧
    (List.range preHand.length).any fun index => preHand.eraseIdx index = survivingPrefix

/-- `_visible_hand_draw_sequence`. -/
def visibleHandDrawSequence (pre post : PublicPiles) : Option (List ObservableCardKey) :=
  match pre.drawPile, post.drawPile, pre.hand, post.hand with
  | some preDraw, some postDraw, some preHand, some postHand =>
      if ¬ counterSubset postDraw preDraw then none
      else
        let removed := preDraw.diff postDraw
        if removed = [] then some []
        else if postHand.length < removed.length then none
        else
          let survivingPrefix := postHand.take (postHand.length - removed.length)
          let drawnSuffix := postHand.drop (postHand.length - removed.length)
          if ¬ drawnSuffix.Perm removed then none
          else if ¬ matchesOneCardConsumed preHand survivingPrefix then none
          else some drawnSuffix
  | _, _, _, _ => none

/-- `visible_draw_transition_evidence_from_committed_transition`. -/
def visibleDrawTransitionEvidence (post : PublicPiles) (replayPrefix : List ReplayPrefixEntry)
    (pre : PublicPiles) : VisibleDrawTransitionEvidence :=
  if replayPrefix.any (·.visibleDrawTrackingBlocked) then
    { blocksLaterPinning := true
      trackingError := some
        "draw tracking was already blocked by an earlier Replay Prefix transition" }
  else
    match visibleHandDrawSequence pre post with
    | none =>
        let changed := drawMultisetChanged pre post
        { blocksLaterPinning := changed
          trackingError :=
            if changed then
              some ("observed DrawPile mutation was not explained by one-card Hand consumption " ++
                "followed by appending exactly the removed observable cards")
            else none }
    | some drawn =>
        let cursor := (replayPrefix.map (·.visibleDrawConstraints.length)).sum
        { constraints := drawn.zipIdx.map fun (key, offset) => (cursor + offset, key) }

end Combat

end STS2RL
