import STS2RL.Combat.CombatPhase
import STS2RL.Combat.MainLoopReplay
import STS2RL.Combat.RngHypothesis
import STS2RL.Core.Run

/-!
# The Evidence of Visible Draws

What a prefix says about the root's draw pile. Each entry that tracks draws
numbers them from the number of draws its prefix already holds, so the entries
together count up from nought, whatever the boards showed; an entry that blocks
holds no draws, and neither does one behind it.

Where every step plays one card of the hand and draws from the top of the draw
pile, the entries are recognized as such, copies with equal keys included: the
cards that left the draw pile are, as a multiset, the ones appended to the hand,
and the hand shows their order.

## Main definitions

* `Evidenced`: Prefixes whose entries took their evidence from the boards, or
  from nowhere.
* `rootDraws`: The evidence that names the first cards of the root's draw pile.
* `Draws`: A step that plays one card and draws from the top.
* `DrawRun`: The committed runs that are made of such steps.

## Theorems

* `Evidenced.collected`: What is collected from a prefix counts up from nought.
* `visibleHandDrawSequence_of_draws`: A drawing step is recognized.
* `evidence_of_drawRun`: What a run of drawing steps has collected.
* `visible_draw_evidence`: Both, for the combat phase and the main loop.
-/

namespace STS2RL

namespace Combat

variable {σ κ β γ : Type}

/-! ### What a prefix collects -/

/-!
### What is collected

The draws of a prefix are collected until a step is blocked, and their offsets are
contiguous from the top.
-/

section Collected

/-- The evidence that the root's draw pile starts with these cards. -/
def rootDraws (keys : List ObservableCardKey) : VisibleDrawConstraints :=
  keys.zipIdx.map fun (key, offset) => (offset, key)

/-- The entry holds no draws and blocks none. -/
def ReplayPrefixEntry.Untracked (entry : ReplayPrefixEntry) : Prop :=
  entry.visibleDrawConstraints = [] ∧ entry.visibleDrawTrackingBlocked = false

/-- The entry has the evidence of a step between two boards. -/
def ReplayPrefixEntry.Tracks (entry : ReplayPrefixEntry) (replayPrefix : List ReplayPrefixEntry)
    (pre post : PublicPiles) : Prop :=
  entry.visibleDrawConstraints =
      (visibleDrawTransitionEvidence post replayPrefix pre).constraints ∧
    entry.visibleDrawTrackingBlocked =
      (visibleDrawTransitionEvidence post replayPrefix pre).blocksLaterPinning

/-- The prefixes the code builds, as far as their evidence goes. -/
inductive Evidenced : List ReplayPrefixEntry → Prop where
  | nil : Evidenced []
  | untracked {replayPrefix : List ReplayPrefixEntry} (h : Evidenced replayPrefix)
      {entry : ReplayPrefixEntry} (hentry : entry.Untracked) : Evidenced (replayPrefix ++ [entry])
  | tracked {replayPrefix : List ReplayPrefixEntry} (h : Evidenced replayPrefix)
      {entry : ReplayPrefixEntry} (pre post : PublicPiles)
      (hentry : entry.Tracks replayPrefix pre post) : Evidenced (replayPrefix ++ [entry])

/-- All draws a prefix holds. -/
def allDraws (replayPrefix : List ReplayPrefixEntry) : VisibleDrawConstraints :=
  replayPrefix.flatMap (·.visibleDrawConstraints)

/-- A step of the prefix drew what could not be tracked. -/
def isBlocked (replayPrefix : List ReplayPrefixEntry) : Bool :=
  replayPrefix.any (·.visibleDrawTrackingBlocked)

theorem rootDraws_length (keys : List ObservableCardKey) :
    (rootDraws keys).length = keys.length := by
  simp [rootDraws]

/-- Evidence goes on at the offset it has come to. -/
theorem rootDraws_append (keys more : List ObservableCardKey) :
    rootDraws (keys ++ more) =
      rootDraws keys ++ more.zipIdx.map fun (key, offset) => (keys.length + offset, key) := by
  simp only [rootDraws, List.zipIdx_append, List.map_append, Nat.zero_add]
  rw [List.append_cancel_left_eq]
  apply List.ext_getElem
  · simp
  · intro i hleft hright
    simp

theorem isContiguousPrefix_rootDraws (keys : List ObservableCardKey) :
    isContiguousPrefix (rootDraws keys) = true := by
  have hoffsets : (rootDraws keys).map Prod.fst = List.range keys.length := by
    rw [rootDraws, List.map_map, List.range_eq_range', ← List.zipIdx_map_snd]
    rfl
  rw [isContiguousPrefix, decide_eq_true_eq, hoffsets, rootDraws_length]

/-- Behind an entry that blocks nothing is collected. -/
theorem collectVisibleDraws_of_blocked {replayPrefix : List ReplayPrefixEntry}
    (h : isBlocked replayPrefix = true) (rest : List ReplayPrefixEntry) :
    collectVisibleDraws (replayPrefix ++ rest) = collectVisibleDraws replayPrefix := by
  induction replayPrefix with
  | nil => simp [isBlocked] at h
  | cons entry others ih =>
      by_cases hentry : entry.visibleDrawTrackingBlocked = true
      · simp [collectVisibleDraws, hentry]
      · have hothers : isBlocked others = true := by
          simpa [isBlocked, hentry] using h
        simp [collectVisibleDraws, hentry, ih hothers]

theorem collectVisibleDraws_of_unblocked {replayPrefix : List ReplayPrefixEntry}
    (h : isBlocked replayPrefix = false) (rest : List ReplayPrefixEntry) :
    collectVisibleDraws (replayPrefix ++ rest) =
      allDraws replayPrefix ++ collectVisibleDraws rest := by
  induction replayPrefix with
  | nil => rfl
  | cons entry others ih =>
      have hentry : entry.visibleDrawTrackingBlocked = false ∧ isBlocked others = false := by
        simpa [isBlocked] using h
      simp [collectVisibleDraws, allDraws, hentry.1, ih hentry.2]

theorem collectVisibleDraws_singleton (entry : ReplayPrefixEntry) :
    collectVisibleDraws [entry] = entry.visibleDrawConstraints := by
  simp [collectVisibleDraws]

theorem collectVisibleDraws_eq {replayPrefix : List ReplayPrefixEntry}
    (h : isBlocked replayPrefix = false) :
    collectVisibleDraws replayPrefix = allDraws replayPrefix := by
  have hcollect := collectVisibleDraws_of_unblocked h []
  rwa [List.append_nil, collectVisibleDraws, List.append_nil] at hcollect

theorem allDraws_concat (replayPrefix : List ReplayPrefixEntry) (entry : ReplayPrefixEntry) :
    allDraws (replayPrefix ++ [entry]) = allDraws replayPrefix ++ entry.visibleDrawConstraints := by
  simp [allDraws]

theorem isBlocked_concat (replayPrefix : List ReplayPrefixEntry) (entry : ReplayPrefixEntry) :
    isBlocked (replayPrefix ++ [entry]) =
      (isBlocked replayPrefix || entry.visibleDrawTrackingBlocked) := by
  simp [isBlocked]

theorem sum_lengths_eq (replayPrefix : List ReplayPrefixEntry) :
    (replayPrefix.map (·.visibleDrawConstraints.length)).sum = (allDraws replayPrefix).length := by
  rw [allDraws, List.length_flatMap]

/-- A recognized draw is numbered from the draws its prefix holds. -/
theorem evidence_of_some {replayPrefix : List ReplayPrefixEntry} {pre post : PublicPiles}
    {drawn : List ObservableCardKey} (hfree : isBlocked replayPrefix = false)
    (h : visibleHandDrawSequence pre post = some drawn) :
    visibleDrawTransitionEvidence post replayPrefix pre =
      { constraints := drawn.zipIdx.map fun (key, offset) =>
          ((allDraws replayPrefix).length + offset, key) } := by
  rw [isBlocked] at hfree
  simp only [visibleDrawTransitionEvidence, hfree, Bool.false_eq_true, if_false, h, sum_lengths_eq]

theorem evidence_of_none {replayPrefix : List ReplayPrefixEntry} {pre post : PublicPiles}
    (h : visibleHandDrawSequence pre post = none) :
    (visibleDrawTransitionEvidence post replayPrefix pre).constraints = [] := by
  rw [visibleDrawTransitionEvidence]
  split
  · rfl
  · rw [h]

/-- What a prefix holds before it is blocked names the first cards of some pile,
    in order. -/
theorem Evidenced.allDraws_eq {replayPrefix : List ReplayPrefixEntry}
    (h : Evidenced replayPrefix) (hfree : isBlocked replayPrefix = false) :
    ∃ keys, allDraws replayPrefix = rootDraws keys := by
  induction h with
  | nil => exact ⟨[], rfl⟩
  | untracked h hentry ih =>
      rw [isBlocked_concat, Bool.or_eq_false_iff] at hfree
      rcases ih hfree.1 with ⟨keys, hkeys⟩
      refine ⟨keys, ?_⟩
      rw [allDraws_concat, hentry.1, List.append_nil, hkeys]
  | @tracked replayPrefix h entry pre post hentry ih =>
      rw [isBlocked_concat, Bool.or_eq_false_iff] at hfree
      rcases ih hfree.1 with ⟨keys, hkeys⟩
      cases hseen : visibleHandDrawSequence pre post with
      | none =>
          refine ⟨keys, ?_⟩
          rw [allDraws_concat, hentry.1, evidence_of_none hseen, List.append_nil, hkeys]
      | some drawn =>
          refine ⟨keys ++ drawn, ?_⟩
          rw [allDraws_concat, hentry.1, evidence_of_some hfree.1 hseen, hkeys, rootDraws_append,
            rootDraws_length]

/-- What is collected from a prefix names the first cards of some pile, in
    order: the entry that blocks adds nothing of its own. -/
theorem Evidenced.collected {replayPrefix : List ReplayPrefixEntry} (h : Evidenced replayPrefix) :
    ∃ keys, collectVisibleDraws replayPrefix = rootDraws keys := by
  induction h with
  | nil => exact ⟨[], rfl⟩
  | @untracked replayPrefix h entry hentry ih =>
      by_cases hblocked : isBlocked replayPrefix = true
      · rwa [collectVisibleDraws_of_blocked hblocked]
      · have hfree := Bool.eq_false_iff.2 hblocked
        rwa [collectVisibleDraws_of_unblocked hfree, collectVisibleDraws_singleton, hentry.1,
          List.append_nil, ← collectVisibleDraws_eq hfree]
  | @tracked replayPrefix h entry pre post hentry ih =>
      by_cases hblocked : isBlocked replayPrefix = true
      · rwa [collectVisibleDraws_of_blocked hblocked]
      · have hfree := Bool.eq_false_iff.2 hblocked
        rcases h.allDraws_eq hfree with ⟨keys, hkeys⟩
        rw [collectVisibleDraws_of_unblocked hfree, collectVisibleDraws_singleton, hentry.1]
        cases hseen : visibleHandDrawSequence pre post with
        | none =>
            refine ⟨keys, ?_⟩
            rw [evidence_of_none hseen, List.append_nil, hkeys]
        | some drawn =>
            refine ⟨keys ++ drawn, ?_⟩
            rw [evidence_of_some hfree hseen, hkeys, rootDraws_append, rootDraws_length]

/-- The check of the pins accepts what the code has collected. -/
theorem Evidenced.pinned {replayPrefix : List ReplayPrefixEntry} (h : Evidenced replayPrefix) :
    ∃ constraints, pinnedPrefixVisibleDrawConstraints replayPrefix = .ok constraints ∧
      constraints.map Prod.fst = List.range constraints.length := by
  rcases h.collected with ⟨keys, hkeys⟩
  have hcontiguous := isContiguousPrefix_rootDraws keys
  refine ⟨rootDraws keys, ?_, ?_⟩
  · simp only [pinnedPrefixVisibleDrawConstraints, hkeys, hcontiguous, if_true]
  · rwa [isContiguousPrefix, decide_eq_true_eq] at hcontiguous

theorem Evidenced.append {replayPrefix : List ReplayPrefixEntry} (h : Evidenced replayPrefix)
    (rest : List ReplayPrefixEntry) (hrest : ∀ entry ∈ rest, entry.Untracked) :
    Evidenced (replayPrefix ++ rest) := by
  induction rest using List.reverseRecOn with
  | nil => rwa [List.append_nil]
  | append_singleton rest entry ih =>
      rw [← List.append_assoc]
      exact .untracked (ih fun other hother => hrest other (List.mem_append_left _ hother))
        (hrest entry List.mem_concat_self)

end Collected

/-! ### Steps that draw from the top -/

section Draws

/-- The true draw pile, top first, and the hand. -/
structure Piles (γ : Type) where
  drawPile : List γ
  hand : List γ

variable (key : γ → ObservableCardKey)

/-- The board shows the hand as it is and the draw pile in whatever order. -/
def Shows (shown : PublicPiles) (piles : Piles γ) : Prop :=
  (∃ keys, shown.drawPile = some keys ∧ keys.Perm (piles.drawPile.map key)) ∧
    shown.hand = some (piles.hand.map key)

/-- One card of the hand is consumed, and `drawn` goes from the top of the draw
    pile to the end of the hand. -/
structure Draws (before : Piles γ) (drawn : List γ) (after : Piles γ) : Prop where
  consumed : ∃ front card back, before.hand = front ++ card :: back ∧
    after.hand = front ++ back ++ drawn
  taken : before.drawPile = drawn ++ after.drawPile

/-- What leaves a pile is what was on top of it, as a multiset. -/
theorem perm_diff_of_append {α : Type} [DecidableEq α] {whole rest top below : List α}
    (hwhole : whole.Perm (top ++ below)) (hrest : rest.Perm below) :
    (whole.diff rest).Perm top := by
  have hdiff : (whole.diff rest).Perm ((below ++ top).diff below) :=
    (hwhole.trans List.perm_append_comm).diff hrest
  have hcancel : ∀ xs ys : List α, (xs ++ ys).diff xs = ys := by
    intro xs ys
    induction xs with
    | nil => rfl
    | cons x xs ih => rw [List.cons_append, List.diff_cons, List.erase_cons_head, ih]
  rwa [hcancel] at hdiff

theorem counterSubset_of_append {whole rest top below : List ObservableCardKey}
    (hwhole : whole.Perm (top ++ below)) (hrest : rest.Perm below) :
    counterSubset rest whole = true := by
  rw [counterSubset, List.all_eq_true]
  intro key _
  rw [decide_eq_true_eq, hrest.count_eq, hwhole.count_eq, List.count_append]
  omega

theorem matchesOneCardConsumed_of_split (front : List ObservableCardKey) (card : ObservableCardKey)
    (back : List ObservableCardKey) :
    matchesOneCardConsumed (front ++ card :: back) (front ++ back) = true := by
  rw [matchesOneCardConsumed, decide_eq_true_eq, List.any_eq_true]
  refine ⟨by simp; omega, front.length, ?_, ?_⟩
  · rw [List.mem_range, List.length_append, List.length_cons]
    omega
  · rw [List.eraseIdx_append_of_length_le (Nat.le_refl _)]
    simp

/-- A drawing step is recognized, with the drawn cards in order. Copies with
    equal keys make no difference: the cards are told by where they lie in the
    hand. -/
theorem visibleHandDrawSequence_of_draws {pre post : PublicPiles} {before after : Piles γ}
    {drawn : List γ} (hpre : Shows key pre before) (hpost : Shows key post after)
    (h : Draws before drawn after) : visibleHandDrawSequence pre post = some (drawn.map key) := by
  rcases hpre with ⟨⟨whole, hwholeShown, hwhole⟩, hpreHand⟩
  rcases hpost with ⟨⟨rest, hrestShown, hrest⟩, hpostHand⟩
  rcases h.consumed with ⟨front, card, back, hbefore, hafter⟩
  -- What went from the draw pile is what is missing from it, whatever the order it is shown in.
  rw [h.taken, List.map_append] at hwhole
  have hremoved : (whole.diff rest).Perm (drawn.map key) := perm_diff_of_append hwhole hrest
  have hlength : (whole.diff rest).length = (drawn.map key).length := hremoved.length_eq
  -- What was drawn stands at the end of the hand.
  have hhand : post.hand = some ((front ++ back).map key ++ drawn.map key) := by
    rw [hpostHand, hafter, List.map_append]
  simp only [visibleHandDrawSequence, hwholeShown, hrestShown, hpreHand, hhand,
    counterSubset_of_append hwhole hrest, not_true_eq_false, if_false]
  -- Nothing missing means nothing drawn.
  by_cases hnone : drawn = []
  · have hnil : whole.diff rest = [] := by
      rw [hnone] at hremoved
      exact hremoved.eq_nil
    rw [if_pos hnil, hnone]
    rfl
  · have hsome : whole.diff rest ≠ [] := by
      intro hnil
      rw [hnil] at hremoved
      exact hnone (List.map_eq_nil_iff.1 hremoved.symm.eq_nil)
    -- The rest of the hand is what stands before the drawn cards.
    have hkept : ((front ++ back).map key ++ drawn.map key).length - (whole.diff rest).length =
        ((front ++ back).map key).length := by
      rw [hlength, List.length_append]
      omega
    have henough : ¬ ((front ++ back).map key ++ drawn.map key).length <
        (whole.diff rest).length := by
      rw [hlength, List.length_append]
      omega
    -- And it is the old hand without the card that was played.
    have hconsumed : matchesOneCardConsumed (before.hand.map key) ((front ++ back).map key) =
        true := by
      rw [hbefore, List.map_append, List.map_append, List.map_cons]
      exact matchesOneCardConsumed_of_split _ _ _
    rw [if_neg hsome, if_neg henough, hkept, List.take_left, List.drop_left,
      if_neg (not_not.2 hremoved.symm), if_neg (not_not.2 hconsumed)]

end Draws

/-! ### Committed runs -/

section Runs

variable (session : CombatSession σ κ β) (publicPiles : β → PublicPiles)

open CombatPhase

variable (key : γ → ObservableCardKey)

/-- The committed runs of drawing steps, with the draw pile at the root, the
    number of cards drawn since, and the piles as they are. A stable decision is
    a root of its own; a step that ends the combat changes more than the piles. -/
inductive DrawRun : CombatPhase σ κ β → (root : List γ) → (drawn : Nat) → Piles γ → Prop where
  | root {phase : CombatPhase σ κ β} {piles : Piles γ} (hempty : phase.replayPrefix = [])
      (hshows : Shows key (publicPiles phase.rootState.board) piles) :
      DrawRun phase piles.drawPile 0 piles
  | pending {phase next : CombatPhase σ κ β} {root : List γ} {count : Nat} {before after : Piles γ}
      {drawn : List γ} (h : DrawRun phase root count before)
      (hcommit : Commits session publicPiles phase next)
      (hpending : boundaryOfBattleState next.rootState = .pending)
      (hdraws : Draws before drawn after)
      (hshows : Shows key (publicPiles next.rootState.board) after) :
      DrawRun next root (count + drawn.length) after
  | stable {phase next : CombatPhase σ κ β} {root : List γ} {count : Nat} {before after : Piles γ}
      {drawn : List γ} (h : DrawRun phase root count before)
      (hcommit : Commits session publicPiles phase next)
      (hstable : boundaryOfBattleState next.rootState = .stable)
      (hdraws : Draws before drawn after)
      (hshows : Shows key (publicPiles next.rootState.board) after) :
      DrawRun next after.drawPile 0 after

variable {session publicPiles} {key}

theorem replayRoot_isSome_iff (phase : CombatPhase σ κ β) :
    phase.replayRoot.isSome ↔ phase.heldStableSnapshot.isSome ∨ phase.heldRoomEntryRoot.isSome := by
  unfold replayRoot
  cases phase.heldStableSnapshot with
  | some snapshot => simp
  | none =>
      cases phase.heldRoomEntryRoot with
      | some room => simp
      | none => simp

/-- A commit leaves the state of the root. -/
theorem rootState_of_recordCommit {phase next : CombatPhase σ κ β} {pre post : BattleState β}
    {chosen : LegalAction}
    (h : phase.recordCommit session publicPiles pre post chosen = .ok next) :
    next.rootState = phase.rootState := by
  unfold recordCommit at h
  split at h
  · rcases establishStableAnchor_eq_ok h with ⟨snapshot, -, rfl⟩
    rfl
  · split at h
    · cases h
      rfl
    · cases h
      rfl
  · cases h
    rfl
  · cases h
    rfl

/-- A commit is recorded in the phase the live session has advanced to. -/
theorem recordCommit_of_commits {phase next : CombatPhase σ κ β}
    (h : Commits session publicPiles phase next) :
    ∃ (chosen : LegalAction) (advanced : CombatPhase σ κ β),
      advanced.replayPrefix = phase.replayPrefix ∧
      advanced.heldStableSnapshot = phase.heldStableSnapshot ∧
      advanced.heldRoomEntryRoot = phase.heldRoomEntryRoot ∧
      advanced.recordCommit session publicPiles phase.rootState next.rootState chosen =
        .ok next := by
  rcases h with ⟨legal, context, boundary, chosen, -, -, hcommit⟩
  unfold commitRootAction at hcommit
  split at hcommit
  · cases hcommit
  · rename_i s state hstep
    dsimp only at hcommit
    split at hcommit
    · cases hcommit
    · rename_i recorded hrecorded
      cases hcommit
      have hroot : next.rootState = state := rootState_of_recordCommit hrecorded
      rw [← hroot] at hrecorded
      refine ⟨chosen, _, ?_, ?_, ?_, hrecorded⟩
      · rfl
      · rfl
      · rfl

/-- A commit that arrives at a pending decision records one entry, where there is
    a root to replay from. -/
theorem commits_pending {phase next : CombatPhase σ κ β}
    (h : Commits session publicPiles phase next)
    (hpending : boundaryOfBattleState next.rootState = .pending) :
    next.replayRoot = phase.replayRoot ∧ (phase.replayRoot.isSome → ∃ chosen,
      next.replayPrefix = phase.replayPrefix ++
        [committedEntry publicPiles phase.rootState next.rootState chosen phase.replayPrefix]) := by
  rcases recordCommit_of_commits h with ⟨chosen, advanced, hreplayed, hsnapshot, hroom, hrecorded⟩
  have hroot : advanced.replayRoot = phase.replayRoot := by
    rw [replayRoot, replayRoot, hsnapshot, hroom]
  simp only [recordCommit, hpending] at hrecorded
  split at hrecorded
  · have hnext := Except.ok.inj hrecorded
    have hrecord := congrArg CombatPhase.replayPrefix hnext
    refine ⟨by rw [← hroot, ← hnext]; rfl, fun _ => ⟨chosen, ?_⟩⟩
    rw [← hrecord, ← hreplayed]
  · rename_i hunanchored
    cases hrecorded
    refine ⟨hroot, fun hsome => absurd ?_ hunanchored⟩
    rwa [← replayRoot_isSome_iff, hroot]

theorem commits_stable {phase next : CombatPhase σ κ β}
    (h : Commits session publicPiles phase next)
    (hstable : boundaryOfBattleState next.rootState = .stable) : next.replayPrefix = [] := by
  rcases recordCommit_of_commits h with ⟨chosen, advanced, -, -, -, hrecorded⟩
  simp only [recordCommit, hstable] at hrecorded
  rcases establishStableAnchor_eq_ok hrecorded with ⟨snapshot, -, hnext⟩
  rw [hnext]

/-- What a run of drawing steps has collected: the first cards of the root's
    draw pile, as many as were drawn, and the pile is what is left of the root's. -/
theorem evidence_of_drawRun {phase : CombatPhase σ κ β} {root : List γ} {count : Nat}
    {piles : Piles γ} (h : DrawRun session publicPiles key phase root count piles) :
    count ≤ root.length ∧ piles.drawPile = root.drop count ∧
      Shows key (publicPiles phase.rootState.board) piles ∧
      (phase.replayRoot.isSome → isBlocked phase.replayPrefix = false ∧
        allDraws phase.replayPrefix = rootDraws ((root.take count).map key)) := by
  -- The induction is on the run. At a choice the drawn cards are added to those that were drawn
  -- before, at a stable board everything begins anew.
  induction h with
  | root hempty hshows =>
      refine ⟨Nat.zero_le _, rfl, hshows, fun _ => ?_⟩
      rw [hempty]
      exact ⟨rfl, rfl⟩
  | @pending phase next root count before after drawn h hcommit hpending hdraws hshows ih =>
      rcases ih with ⟨hcount, hpile, hbefore, hevidence⟩
      -- What is drawn now and what is left are what was left before.
      have htaken : drawn ++ after.drawPile = root.drop count := by rw [← hdraws.taken, hpile]
      have hlength : drawn.length + after.drawPile.length = root.length - count := by
        rw [← List.length_append, htaken, List.length_drop]
      refine ⟨by omega, ?_, hshows, fun hroot => ?_⟩
      · rw [← List.drop_drop, ← htaken, List.drop_left]
      · rcases commits_pending hcommit hpending with ⟨hsame, hrecorded⟩
        rw [hsame] at hroot
        rcases hevidence hroot with ⟨hfree, hall⟩
        rcases hrecorded hroot with ⟨chosen, hreplayed⟩
        -- The step's own evidence is the cards drawn in it, since the prefix before it is not
        -- blocked.
        have hseen := evidence_of_some hfree
          (visibleHandDrawSequence_of_draws key hbefore hshows hdraws)
        -- Together they are the cards that lay on top, with the offsets from the root.
        have htop : root.take (count + drawn.length) = root.take count ++ drawn := by
          rw [List.take_add, ← htaken, List.take_left]
        have hnumber : ((root.take count).map key).length = count := by
          rw [List.length_map, List.length_take, Nat.min_eq_left hcount]
        rw [hreplayed, isBlocked_concat, allDraws_concat]
        simp only [committedEntry, hseen, hfree, Bool.or_self, true_and]
        rw [hall, rootDraws_length, htop, List.map_append, rootDraws_append]
  | @stable phase next root count before after drawn h hcommit hstable hdraws hshows ih =>
      refine ⟨Nat.zero_le _, rfl, hshows, fun _ => ?_⟩
      rw [commits_stable hcommit hstable]
      exact ⟨rfl, rfl⟩

/-- A commit, whether it succeeds or fails, leaves a prefix the code has built. -/
theorem evidenced_commitRootAction (phase : CombatPhase σ κ β) (chosen : LegalAction)
    (h : Evidenced phase.replayPrefix) :
    Evidenced (phase.commitRootAction session publicPiles chosen).1.replayPrefix := by
  unfold commitRootAction
  split
  · exact h
  · rename_i s state hstep
    dsimp only
    split
    · exact h
    · rename_i recorded hrecorded
      unfold recordCommit at hrecorded
      split at hrecorded
      · rcases establishStableAnchor_eq_ok hrecorded with ⟨snapshot, -, rfl⟩
        exact .nil
      · split at hrecorded
        · cases hrecorded
          exact .tracked h _ _ ⟨rfl, rfl⟩
        · cases hrecorded
          exact h
      · cases hrecorded
        exact h
      · cases hrecorded
        exact h

/-- A run that has just begun has no draws. -/
theorem evidenced_of_start {s : σ} {rootState : BattleState β} {mapSnapshot : Option String}
    {roomId : Option Int} {adoptedIntoRun : Bool} {start : CombatPhase σ κ β}
    (h : initializeLiveCombat session s rootState mapSnapshot roomId adoptedIntoRun = .ok start) :
    Evidenced start.replayPrefix := by
  unfold initializeLiveCombat at h
  dsimp only at h
  split at h
  · rcases establishStableAnchor_eq_ok h with ⟨snapshot, -, rfl⟩
    exact .nil
  · split at h
    · cases h
      exact .nil
    · cases h
      exact .nil

/-- A move of the main loop does, too. -/
theorem evidenced_move {loop next : MainLoop σ κ β} (h : Evidenced loop.replayPrefix)
    (hmove : Move session publicPiles loop next) : Evidenced next.replayPrefix := by
  cases hmove with
  | captured => exact .nil
  | searched => exact h
  | planned => exact h
  | unresolved => exact h
  | stepped planned rest resolved s state hplan hresolved hstep =>
      by_cases hheld : loop.heldStableSnapshot.isSome
      · refine .tracked h (publicPiles loop.currentResult.board) (publicPiles state.board) ?_
        simp only [ReplayPrefixEntry.Tracks, MainLoop.transitionRecord, hheld, if_true, and_self]
      · refine .untracked h ?_
        simp [ReplayPrefixEntry.Untracked, MainLoop.transitionRecord, hheld]

/-- The loop and the searches it has started have prefixes the code has built. -/
def EvidencedLoop (loop : MainLoop σ κ β) : Prop :=
  Evidenced loop.replayPrefix ∧ ∀ context current s,
    .searched context current s ∈ loop.log → Evidenced context.replayPrefix

/-- Every move of the loop keeps the evidence. -/
theorem evidencedLoop_of_move {loop next : MainLoop σ κ β} (h : EvidencedLoop loop)
    (hmove : Move session publicPiles loop next) : EvidencedLoop next := by
  refine ⟨evidenced_move h.1 hmove, ?_⟩
  intro context current s hmem
  cases hmove with
  | searched root found hidle hroot hcontext =>
      rcases List.mem_append.1 hmem with hmem | hmem
      · exact h.2 context current s hmem
      · cases List.mem_singleton.1 hmem
        rw [(buildDecisionContext_spec hcontext).2.1]
        exact h.1
  | captured snapshot =>
      refine h.2 context current s ?_
      simpa [MainLoop.hold] using hmem
  | planned plan =>
      refine h.2 context current s ?_
      simpa [MainLoop.adopt] using hmem
  | unresolved planned =>
      refine h.2 context current s ?_
      simpa [MainLoop.discard] using hmem
  | stepped planned rest resolved s' state =>
      refine h.2 context current s ?_
      simpa [MainLoop.commit] using hmem

theorem evidencedLoop_of_moves {loop next : MainLoop σ κ β} (h : EvidencedLoop loop)
    (hmoves : Relation.ReflTransGen (Move session publicPiles) loop next) : EvidencedLoop next := by
  induction hmoves with
  | refl => exact h
  | tail _ hmove ih => exact evidencedLoop_of_move ih hmove

theorem evidencedLoop_of_follows {loop final : MainLoop σ κ β} {goesOn : Prop}
    (h : EvidencedLoop loop) (hfollows : Follows session publicPiles loop final goesOn) :
    EvidencedLoop final := by
  rcases hfollows with hmoves | ⟨-, last, hmoves, planned, rest, exc, -, hlog, hreplayed, -⟩
  · exact evidencedLoop_of_moves h hmoves
  · -- a step that fails is logged, and nothing else
    rcases evidencedLoop_of_moves h hmoves with ⟨hlast, hsearched⟩
    refine ⟨by rwa [hreplayed], fun context current s hmem => ?_⟩
    rw [hlog] at hmem
    refine hsearched context current s ?_
    simpa using hmem

/-- What is collected from the prefix, and from the prefix with the entries that
    a search puts behind it, counts up from nought and passes the check. -/
def Pins (replayPrefix : List ReplayPrefixEntry) : Prop :=
  ∀ rest : List ReplayPrefixEntry, (∀ entry ∈ rest, entry.Untracked) → ∃ constraints,
    pinnedPrefixVisibleDrawConstraints (replayPrefix ++ rest) = .ok constraints ∧
      constraints.map Prod.fst = List.range constraints.length

theorem Evidenced.pins {replayPrefix : List ReplayPrefixEntry} (h : Evidenced replayPrefix) :
    Pins replayPrefix :=
  fun rest hrest => (h.append rest hrest).pinned

/-- In a run of drawing steps the evidence is the first cards of the root's draw
    pile, as many as were drawn. In any run, of a combat phase with commits that
    succeed or fail, or of the main loop, the evidence up to the first entry that
    blocks counts up from nought. -/
theorem visible_draw_evidence (session : CombatSession σ κ β) (publicPiles : β → PublicPiles)
    (key : γ → ObservableCardKey) :
    (∀ phase root count piles, DrawRun session publicPiles key phase root count piles →
      phase.replayRoot.isSome → count ≤ root.length ∧
        pinnedPrefixVisibleDrawConstraints phase.replayPrefix =
          .ok (rootDraws ((root.take count).map key))) ∧
    (∀ s rootState mapSnapshot roomId adoptedIntoRun start,
      initializeLiveCombat session s rootState mapSnapshot roomId adoptedIntoRun = .ok start →
      ∀ actions : List LegalAction, Pins (Run.final
        (fun phase chosen => phase.commitRootAction session publicPiles chosen) start
        actions).replayPrefix) ∧
    ∀ (env : MainLoopEnv κ β) maxIterations s initial combatStart context current r,
      .searched context current r ∈
        (mainLoopRun session publicPiles env maxIterations s initial combatStart).log →
      Pins context.replayPrefix := by
  refine ⟨?_, ?_, ?_⟩
  -- The three parts: what the evidence of a drawing run is, and that every phase and every
  -- search of the main loop has evidence of that form.
  · intro phase root count piles hrun hroot
    rcases evidence_of_drawRun hrun with ⟨hcount, -, -, hevidence⟩
    rcases hevidence hroot with ⟨hfree, hall⟩
    refine ⟨hcount, ?_⟩
    simp only [pinnedPrefixVisibleDrawConstraints, collectVisibleDraws_eq hfree, hall,
      isContiguousPrefix_rootDraws, if_true]
  · intro s rootState mapSnapshot roomId adoptedIntoRun start hstart actions
    have hevidenced : Evidenced (Run.final
        (fun phase chosen => phase.commitRootAction session publicPiles chosen) start
        actions).replayPrefix :=
      @Run.invariant _ _ _ _ (fun phase => Evidenced phase.replayPrefix)
        (fun phase chosen => evidenced_commitRootAction phase chosen) start actions
        (evidenced_of_start hstart)
    exact hevidenced.pins
  · intro env maxIterations s initial combatStart context current r hmem
    -- The loop's log is followed move by move, and a search is given a prefix the loop holds.
    have hfollows : Follows session publicPiles (initializeMainLoopState s initial combatStart)
        (mainLoopRun session publicPiles env maxIterations s initial combatStart) False :=
      runUntilTerminalOrFault_follows maxIterations _
    have hloop := evidencedLoop_of_follows ⟨.nil, fun _ _ _ h => by cases h⟩ hfollows
    exact (hloop.2 context current r hmem).pins

end Runs

end Combat

end STS2RL
