import STS2RL.Combat.FaithfulSession
import STS2RL.Combat.VisibleDraw
import Mathlib.Logic.Relation

/-!
# The Combat Phase

The anchor a live combat keeps while it is played. At a stable decision the
phase captures a snapshot and starts a new prefix; a pending decision extends
the prefix; a combat that was entered pending is anchored in the room it was
entered from. Every decision that can branch has a context of its own, built
from the anchor and the prefix.

At the end of a combat nothing is recorded. No action is offered there, so no
branch starts from it.

## Main definitions

* `CombatPhase`, `commitRootAction`: The anchor, and what a commit does to it.
* `CommittedRun`: The offered actions that were committed, one after another.
* `AnchoredPhase`: The prefix leads from the anchor to the live decision.

## Theorems

* `anchoredPhase_of_committedRun`: Commits keep the anchor.
* `replay_complete_and_sound`: The contexts of a run replay to the live board,
  and what a replay that succeeds has checked.
-/

namespace STS2RL

namespace Combat

variable {σ κ β W : Type}

/-- A live combat with its anchor. -/
structure CombatPhase (σ κ β : Type) where
  session : σ
  rootState : BattleState β
  adoptedIntoRun : Bool
  heldStableSnapshot : Option κ := none
  heldRoomEntryRoot : Option RoomEntryReplayRoot := none
  replayPrefix : List ReplayPrefixEntry := []
  rootCommitAdvanced : Bool := false

namespace CombatPhase

variable (session : CombatSession σ κ β) (publicPiles : β → PublicPiles)

/-- `_establish_stable_anchor`. -/
def establishStableAnchor (phase : CombatPhase σ κ β) :
    Except PyException (CombatPhase σ κ β) :=
  match session.captureSnapshot phase.session with
  | .error exc => .error exc
  | .ok snapshot =>
      .ok { phase with
        heldStableSnapshot := some snapshot
        heldRoomEntryRoot := none
        replayPrefix := [] }

/-- `_initialize_live_combat`. -/
def initializeLiveCombat (s : σ) (rootState : BattleState β) (mapSnapshot : Option String)
    (roomId : Option Int) (adoptedIntoRun : Bool) : Except PyException (CombatPhase σ κ β) :=
  let phase : CombatPhase σ κ β := { session := s, rootState, adoptedIntoRun }
  if boundaryOfBattleState rootState = .stable then phase.establishStableAnchor session
  else
    match mapSnapshot, roomId with
    | some mapSnapshot, some roomId =>
        .ok { phase with heldRoomEntryRoot := some ⟨mapSnapshot, roomId⟩ }
    | _, _ => .ok phase

/-- What the decisions of the phase are replayed from. -/
def replayRoot (phase : CombatPhase σ κ β) : Option (SearchRoot κ) :=
  match phase.heldStableSnapshot, phase.heldRoomEntryRoot with
  | some snapshot, _ => some (.snapshot snapshot)
  | none, some room => some (.roomEntry room)
  | none, none => none

/-- `root_decision`: the actions that are offered, and the context they are
    branched from when there is an anchor. -/
def rootDecision (phase : CombatPhase σ κ β) :
    Except PyException (List LegalAction × Option (DecisionContext κ β) × Boundary) :=
  let boundary := boundaryOfBattleState phase.rootState
  if ¬ phase.rootState.isTerminal ∧ phase.rootState.legalActions = [] then
    .error (.runtimeError "non-terminal combat state has no cached legal actions")
  else
    let legal := if phase.rootState.isTerminal then [] else phase.rootState.legalActions
    match phase.heldStableSnapshot, phase.heldRoomEntryRoot with
    | some snapshot, _ =>
        (buildDecisionContextFromHeldStable snapshot phase.replayPrefix phase.rootState).map
          fun context => (legal, some context, boundary)
    | none, some room =>
        (buildDecisionContextFromRoomEntry room phase.replayPrefix phase.rootState).map
          fun context => (legal, some context, boundary)
    | none, none => .ok (legal, none, boundary)

/-- The entry that records a committed action. -/
def committedEntry (pre post : BattleState β) (chosen : LegalAction)
    (replayPrefix : List ReplayPrefixEntry) : ReplayPrefixEntry :=
  let evidence := visibleDrawTransitionEvidence (publicPiles post.board) replayPrefix
    (publicPiles pre.board)
  { semanticAction := chosen.semanticAction
    expectedSignature := DecisionSignature.fromBattleState post chosen.semanticAction chosen
      chosen.targetIndex chosen.enemyIndex
    targetIndex := chosen.targetIndex
    targetEnemyIndex := chosen.enemyIndex
    visibleDrawConstraints := evidence.constraints
    visibleDrawTrackingBlocked := evidence.blocksLaterPinning
    visibleDrawTrackingError := evidence.trackingError }

/-- The anchor after the live session has advanced. -/
def recordCommit (pre post : BattleState β) (chosen : LegalAction) (phase : CombatPhase σ κ β) :
    Except PyException (CombatPhase σ κ β) :=
  match boundaryOfBattleState post with
  | .stable => phase.establishStableAnchor session
  | .pending =>
      if phase.heldStableSnapshot.isSome ∨ phase.heldRoomEntryRoot.isSome then
        .ok { phase with
          replayPrefix := phase.replayPrefix ++
            [committedEntry publicPiles pre post chosen phase.replayPrefix] }
      else .ok phase
  | .terminal => .ok phase
  | .fault => .ok phase

/-- `commit_root_action`. What fails after the step leaves the phase advanced,
    with the anchor it had. -/
def commitRootAction (chosen : LegalAction) (phase : CombatPhase σ κ β) :
    CombatPhase σ κ β × Except PyException Unit :=
  match session.step phase.rootState chosen chosen.targetIndex chosen.enemyIndex phase.session with
  | (s, .error exc) => ({ phase with session := s, rootCommitAdvanced := false }, .error exc)
  | (s, .ok next) =>
      let advanced := { phase with session := s, rootState := next, rootCommitAdvanced := true }
      match advanced.recordCommit session publicPiles phase.rootState next chosen with
      | .error exc => (advanced, .error exc)
      | .ok recorded => (recorded, .ok ())

/-- One offered action is committed. -/
def Commits (phase next : CombatPhase σ κ β) : Prop :=
  ∃ legal context boundary chosen, phase.rootDecision = .ok (legal, context, boundary) ∧
    chosen ∈ legal ∧ phase.commitRootAction session publicPiles chosen = (next, .ok ())

/-- The offered actions that were committed, one after another. -/
abbrev CommittedRun : CombatPhase σ κ β → CombatPhase σ κ β → Prop :=
  Relation.ReflTransGen (Commits session publicPiles)

end CombatPhase

section Anchor

open CombatPhase

variable {session : CombatSession σ κ β} {publicPiles : β → PublicPiles}
  (faithful : FaithfulSession session W)

/-- The phase stands in some world, and its prefix leads from its anchor to the
    live decision, unless the combat is over. -/
structure AnchoredPhase (phase : CombatPhase σ κ β) : Prop where
  stands : ∃ w, faithful.At phase.session phase.rootState w
  leads : boundaryOfBattleState phase.rootState ≠ .terminal → ∀ root,
    phase.replayRoot = some root →
      LeadsTo faithful root phase.replayPrefix phase.rootState phase.session

variable {faithful}

theorem establishStableAnchor_eq_ok {phase next : CombatPhase σ κ β}
    (h : phase.establishStableAnchor session = .ok next) :
    ∃ snapshot, session.captureSnapshot phase.session = .ok snapshot ∧ next = { phase with
      heldStableSnapshot := some snapshot
      heldRoomEntryRoot := none
      replayPrefix := [] } := by
  unfold establishStableAnchor at h
  split at h
  · cases h
  · rename_i snapshot hcapture
    cases h
    exact ⟨snapshot, hcapture, rfl⟩

/-- A snapshot that is captured at a stable decision anchors it. -/
theorem anchoredPhase_of_establishStableAnchor {phase next : CombatPhase σ κ β} {w : W}
    (hstands : faithful.At phase.session phase.rootState w)
    (hstable : boundaryOfBattleState phase.rootState = .stable)
    (h : phase.establishStableAnchor session = .ok next) : AnchoredPhase faithful next := by
  rcases establishStableAnchor_eq_ok h with ⟨snapshot, hcapture, rfl⟩
  refine ⟨⟨w, hstands⟩, fun _ root hreplayRoot => ?_⟩
  cases hreplayRoot
  exact leadsTo_of_captured hstands hstable hcapture

/-- A combat is anchored from its start, where the room it was entered from
    leads back to it. -/
theorem anchoredPhase_of_start {s : σ} {rootState : BattleState β} {w : W}
    {mapSnapshot : Option String} {roomId : Option Int} {adoptedIntoRun : Bool}
    {phase : CombatPhase σ κ β} (hstands : faithful.At s rootState w)
    (hroom : ∀ map room, mapSnapshot = some map → roomId = some room →
      faithful.root (.roomEntry ⟨map, room⟩) = some w)
    (h : initializeLiveCombat session s rootState mapSnapshot roomId adoptedIntoRun = .ok phase) :
    AnchoredPhase faithful phase := by
  unfold initializeLiveCombat at h
  dsimp only at h
  split at h
  · rename_i hstable
    exact anchoredPhase_of_establishStableAnchor hstands hstable h
  · split at h
    · rename_i map room
      cases h
      refine ⟨⟨w, hstands⟩, fun hboundary root hreplayRoot => ?_⟩
      cases hreplayRoot
      exact ⟨w, rootState, s, hroom map room rfl rfl, rfl, hstands, fun _ _ => hboundary,
        .nil _ _⟩
    · cases h
      exact ⟨⟨w, hstands⟩, fun _ root hreplayRoot => by cases hreplayRoot⟩

/-- The actions that are offered, where there are any, are those of the live
    decision. -/
theorem rootDecision_legal {phase : CombatPhase σ κ β} {legal : List LegalAction}
    {context : Option (DecisionContext κ β)} {boundary : Boundary}
    (h : phase.rootDecision = .ok (legal, context, boundary)) :
    legal = if phase.rootState.isTerminal then [] else phase.rootState.legalActions := by
  unfold rootDecision at h
  dsimp only at h
  split at h
  · cases h
  · split at h
    · rcases (Except.map_eq_ok _ _ _).mp h with ⟨_, _, heq⟩
      cases heq
      rfl
    · rcases (Except.map_eq_ok _ _ _).mp h with ⟨_, _, heq⟩
      cases heq
      rfl
    · cases h
      rfl

/-- The context of a decision has the replay root of the phase. -/
theorem rootDecision_context {phase : CombatPhase σ κ β} {legal : List LegalAction}
    {context : DecisionContext κ β} {boundary : Boundary}
    (h : phase.rootDecision = .ok (legal, some context, boundary)) :
    ∃ root, phase.replayRoot = some root ∧
      buildDecisionContext root phase.replayPrefix phase.rootState = .ok context := by
  unfold rootDecision at h
  unfold replayRoot
  dsimp only at h
  split at h
  · cases h
  · split at h
    · rcases (Except.map_eq_ok _ _ _).mp h with ⟨built, hbuilt, heq⟩
      cases heq
      exact ⟨_, rfl, hbuilt⟩
    · rcases (Except.map_eq_ok _ _ _).mp h with ⟨built, hbuilt, heq⟩
      cases heq
      exact ⟨_, rfl, hbuilt⟩
    · cases h

theorem boundaryOfBattleState_ne_fault (state : BattleState β) :
    boundaryOfBattleState state ≠ .fault := by
  unfold boundaryOfBattleState
  split
  · decide
  · split <;> decide

/-- The anchor after a step that a prefix which led to the decision before it
    still leads from. -/
theorem anchoredPhase_of_recordCommit {pre post : BattleState β} {s s' : σ} {w : W}
    {chosen : LegalAction} (phase : CombatPhase σ κ β) {next : CombatPhase σ κ β}
    (hanchored : AnchoredPhase faithful { phase with session := s, rootState := pre })
    (hpre : boundaryOfBattleState pre ≠ .terminal) (hchosen : chosen ∈ pre.legalActions)
    (hstep : session.step pre chosen chosen.targetIndex chosen.enemyIndex s = (s', .ok post))
    (hstands : faithful.At s' post w) (hphase : phase.session = s' ∧ phase.rootState = post)
    (h : phase.recordCommit session publicPiles pre post chosen = .ok next) :
    AnchoredPhase faithful next := by
  rcases hphase with ⟨hsession, hrootState⟩
  have hstands' : faithful.At phase.session phase.rootState w := by
    rw [hsession, hrootState]
    exact hstands
  -- Which anchor the phase has next depends on where the action led.
  unfold recordCommit at h
  split at h
  -- At a stable board the anchor is new, and nothing has to be replayed from it.
  · rename_i hstable
    rw [← hrootState] at hstable
    exact anchoredPhase_of_establishStableAnchor hstands' hstable h
  -- At a choice the step is added to what is replayed from the old anchor.
  · split at h
    · cases h
      refine ⟨⟨w, hstands'⟩, fun _ root hreplayRoot => ?_⟩
      have hleads := hanchored.leads hpre root hreplayRoot
      dsimp only at hleads ⊢
      rw [hsession, hrootState]
      exact hleads.snoc chosen hchosen hstep rfl rfl
    · -- Nothing is held, so there is nothing to replay from.
      rename_i hheld
      cases h
      refine ⟨⟨w, hstands'⟩, fun _ root hreplayRoot => ?_⟩
      simp only [not_or, Bool.not_eq_true, Option.isSome_eq_false_iff, Option.isNone_iff_eq_none]
        at hheld
      unfold replayRoot at hreplayRoot
      rw [hheld.1, hheld.2] at hreplayRoot
      cases hreplayRoot
  -- At the end of the combat nothing is claimed, and a fault is not a boundary.
  · rename_i hterminal
    cases h
    refine ⟨⟨w, hstands'⟩, fun hboundary => absurd hterminal ?_⟩
    rw [← hrootState]
    exact hboundary
  · rename_i hfault
    exact absurd hfault (boundaryOfBattleState_ne_fault post)

/-- One commit keeps the anchor. -/
theorem anchoredPhase_of_commits {phase next : CombatPhase σ κ β}
    (hanchored : AnchoredPhase faithful phase)
    (h : Commits session publicPiles phase next) : AnchoredPhase faithful next := by
  rcases h with ⟨legal, context, boundary, chosen, hdecision, hmem, hcommit⟩
  rw [rootDecision_legal hdecision] at hmem
  split at hmem
  · cases hmem
  · rename_i hterminal
    have hpre : boundaryOfBattleState phase.rootState ≠ .terminal := by
      unfold boundaryOfBattleState
      rw [if_neg hterminal]
      split <;> decide
    unfold commitRootAction at hcommit
    split at hcommit
    · cases hcommit
    · rename_i s' post hstep
      dsimp only at hcommit
      split at hcommit
      · cases hcommit
      · rename_i recorded hrecord
        cases hcommit
        rcases hanchored.stands with ⟨w, hstands⟩
        rcases faithful.committed hstands hmem hstep with ⟨w', _, hstands'⟩
        exact anchoredPhase_of_recordCommit { phase with
            session := s', rootState := post, rootCommitAdvanced := true }
          ⟨hanchored.stands, hanchored.leads⟩ hpre hmem hstep hstands' ⟨rfl, rfl⟩ hrecord

/-- Commits keep the anchor. -/
theorem anchoredPhase_of_committedRun {phase next : CombatPhase σ κ β}
    (hanchored : AnchoredPhase faithful phase) (h : CommittedRun session publicPiles phase next) :
    AnchoredPhase faithful next := by
  induction h with
  | refl => exact hanchored
  | tail _ hcommits ih => exact anchoredPhase_of_commits ih hcommits

end Anchor

section Replay

open CombatPhase

/-- Where a session can be replayed, the contexts of a run replay to the live
    board: of a phase, at every decision that can branch, unless something was
    committed in a room whose entry is the anchor; and of a combat from its
    start, after any commits. And whatever a session does, a replay that
    succeeds has compared every arrival with its entry, the last arrival with
    the context, and a root nothing was replayed from with the context's
    boundary, or its whole signature in a room that was entered. -/
theorem replay_complete_and_sound (session : CombatSession σ κ β)
    (publicPiles : β → PublicPiles) :
    (∀ (W : Type) (faithful : FaithfulSession session W) (s : σ) (rootState : BattleState β)
      (w : W) (mapSnapshot : Option String) (roomId : Option Int) (adoptedIntoRun : Bool)
      (start phase : CombatPhase σ κ β) (legal : List LegalAction) (context : DecisionContext κ β)
      (boundary : Boundary), faithful.At s rootState w →
      (∀ map room, mapSnapshot = some map → roomId = some room →
        faithful.root (.roomEntry ⟨map, room⟩) = some w) →
      initializeLiveCombat session s rootState mapSnapshot roomId adoptedIntoRun = .ok start →
      CommittedRun session publicPiles start phase →
      phase.rootDecision = .ok (legal, some context, boundary) →
      boundaryOfBattleState phase.rootState ≠ .terminal →
      (phase.heldRoomEntryRoot.isSome → phase.replayPrefix = []) →
      ReplaysTo faithful context phase.rootState phase.session) ∧
    (∀ (W : Type) (faithful : FaithfulSession session W) (s s' : σ) (start live : BattleState β)
      (w : W) (root : CombatStartReplayRoot) (entries : List ReplayPrefixEntry)
      (context : DecisionContext κ β), faithful.root (.combatStart root) = some w →
      faithful.At s start w → Committed session start s entries live s' →
      buildCombatStartDecisionContext root entries live = .ok context →
      ReplaysTo faithful context live s') ∧
    ∀ (context : DecisionContext κ β) (s s' : σ) (final : BattleState β),
      replayDecisionContext session context s = (s', .ok (.success final)) →
      ∃ s₁ root, session.bootstrap context.rootSnapshot s = (s₁, .ok root) ∧
        Replays session root s₁ context.replayPrefix final s' ∧
        (∀ entry, context.replayPrefix.getLast? = some entry → ∃ signature,
          ArrivedBy final entry signature ∧
            signature.matchesForReplay context.currentContextSignature = true) ∧
        (context.replayPrefix = [] →
          boundaryOfBattleState root = context.currentContextSignature.boundary) ∧
        (context.replayPrefix = [] → ∀ room, context.rootSnapshot = .roomEntry room →
          ∃ rootAction, (DecisionSignature.fromBattleState root
            context.currentContextSignature.semanticAction rootAction none
            none).matchesForReplay context.currentContextSignature = true) := by
  refine ⟨?_, ?_, ?_⟩
  · intro W faithful s rootState w mapSnapshot roomId adoptedIntoRun start phase legal context
      boundary hstands hroom hstart hrun hdecision hboundary hreplayed
    have hanchored := anchoredPhase_of_committedRun
      (anchoredPhase_of_start hstands hroom hstart) hrun
    rcases rootDecision_context hdecision with ⟨root, hreplayRoot, hcontext⟩
    refine (hanchored.leads hboundary root hreplayRoot).replaysTo (fun room heq => hreplayed ?_)
      hcontext
    -- Only a phase that holds a room is replayed from one.
    rw [heq] at hreplayRoot
    unfold replayRoot at hreplayRoot
    split at hreplayRoot
    · cases hreplayRoot
    · rename_i hheld
      rw [hheld]
      rfl
    · cases hreplayRoot
  · intro W faithful s s' start live w root entries context hroot hstands hcommitted hcontext
    exact replayDecisionContext_of_committed faithful hroot rfl hstands hcommitted
      (fun room heq => by cases heq) hcontext
  · intro context s s' final h
    rcases replayDecisionContext_success session context s s' final h with
      ⟨s₁, root, hbootstrap, hreplays, hlast, hboundary, hroom⟩
    exact ⟨s₁, root, hbootstrap, hreplays, hlast, hboundary, fun _ => hroom⟩

/-- Piles without cards. -/
def countingPiles (_ : Nat) : PublicPiles := ⟨none, none⟩

/-- The action of a count. -/
def countingAction (count : Nat) : LegalAction :=
  { actionId := count, actionType := "card", semanticKey := "Strike" }

/-- A combat that was entered pending, after one commit. -/
def countingAnchor : CombatPhase Nat Nat Nat :=
  { session := 2
    rootState := countingState 2
    adoptedIntoRun := true
    heldStableSnapshot := some 2
    rootCommitAdvanced := true }

/-- The same combat after one more. -/
def countingPhase : CombatPhase Nat Nat Nat :=
  { session := 3
    rootState := countingState 3
    adoptedIntoRun := true
    heldStableSnapshot := some 2
    replayPrefix := [committedEntry countingPiles (countingState 2) (countingState 3)
      (countingAction 2) []]
    rootCommitAdvanced := true }

/-- The decision of that combat replays to its board, and so does the first
    decision of a combat that is started. -/
theorem replay_complete_counting :
    (∃ context : DecisionContext Nat Nat, countingPhase.rootDecision =
        .ok ((countingState 3).legalActions, some context, .pending) ∧
      ReplaysTo countingFaithful context countingPhase.rootState countingPhase.session) ∧
    ∃ context : DecisionContext Nat Nat,
      buildCombatStartDecisionContext ⟨.null⟩ [] (countingState 1) = .ok context ∧
        ReplaysTo countingFaithful context (countingState 1) 1 := by
  refine ⟨⟨_, rfl, ?_⟩, _, rfl, (replay_complete_and_sound countingSession countingPiles).2.1 Nat
    countingFaithful 1 1 (countingState 1) (countingState 1) 1 ⟨.null⟩ [] _ rfl ⟨rfl, rfl⟩
    (.nil _ _) rfl⟩
  have hfirst : Commits countingSession countingPiles
      { session := 1, rootState := countingState 1, adoptedIntoRun := true,
        heldRoomEntryRoot := some ⟨"map", 0⟩ } countingAnchor :=
    ⟨_, _, _, countingAction 1, rfl, List.mem_cons_self, rfl⟩
  have hsecond : Commits countingSession countingPiles countingAnchor countingPhase :=
    ⟨_, _, _, countingAction 2, rfl, List.mem_cons_self, rfl⟩
  exact (replay_complete_and_sound countingSession countingPiles).1 Nat countingFaithful 1
    (countingState 1) 1 (some "map") (some 0) true _ countingPhase _ _ _ ⟨rfl, rfl⟩
    (fun map room hmap hroom => by cases hmap; cases hroom; rfl) rfl
    ((Relation.ReflTransGen.single hfirst).tail hsecond) rfl (by decide) (fun h => by cases h)

/-- A restored root may have another step index than its context recorded. -/
theorem replay_root_unobserved : ∃ (context : DecisionContext Nat Nat) (s' : Nat)
    (final root : BattleState Nat),
    replayDecisionContext countingSession context 0 = (s', .ok (.success final)) ∧
      countingSession.bootstrap context.rootSnapshot 0 = (s', .ok root) ∧
      ∀ rootAction, (DecisionSignature.fromBattleState root
        context.currentContextSignature.semanticAction rootAction none none).matchesForReplay
          context.currentContextSignature = false := by
  refine ⟨DecisionContext.fromRoot (.snapshot 4) (countingState 2)
    (DecisionSignature.fromBattleState (countingState 2) ⟨"card", "Strike"⟩
      { actionId := 2, actionType := "card", semanticKey := "Strike" } none none), 4,
    countingState 4, countingState 4, rfl, rfl, fun rootAction => ?_⟩
  rw [Bool.eq_false_iff, ne_eq, DecisionSignature.matchesForReplay_iff]
  intro hmatches
  have hstep : (4 : Int) = 2 := hmatches.1
  omega

end Replay

end Combat

end STS2RL
