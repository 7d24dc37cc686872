import STS2RL.Combat.VisibleDraw
import STS2RL.Combat.WorkItem

/-!
# Replaying a Decision Context

`replay_decision_context`: bootstrap the root of a context, repeat the actions of
its replay prefix, and check every arrival against what was recorded.

The combat session is a parameter with a state of its own. Its calls may do
anything, so what holds of a replay here holds of every session.

Where nothing was replayed there is no action to compare an arrival by. A root
that is restored or started is then compared by its boundary only; a room that
is entered is compared by the whole signature.

## Main definitions

* `CombatSession`: The calls of a session that a replay makes.
* `replayDecisionContext`: The replay.
* `buildDecisionContextFromHeldStable` and its siblings: The contexts of the main
  process.
* `Replays`: The steps of a replay whose arrivals all matched.

## Theorems

* `replayDecisionContext_success`: What a successful replay has observed.
-/

namespace STS2RL

namespace Combat

variable {σ κ β : Type}

/-- The calls of a live combat session. `bootstrap` is that of the root's own
    adapter: a restore, a start, or entering a room. -/
structure CombatSession (σ κ β : Type) where
  bootstrap : SearchRoot κ → σ → σ × Except PyException (BattleState β)
  step : BattleState β → LegalAction → (targetIndex targetEnemyIndex : Option Int) → σ →
    σ × Except PyException (BattleState β)
  getLegalActions : σ → Except PyException (List LegalAction)
  captureSnapshot : σ → Except PyException κ
  captureBoundary : κ → Option String

/-- What a replay comes to. -/
inductive ReplayOutcome (β : Type) where
  | success (finalState : BattleState β)
  | mismatch (stepIndex : Option Nat) (stage detail : String) (divergedFields : List String)

/-- The semantic action of a legal action. -/
def LegalAction.semanticAction (legal : LegalAction) : SemanticAction :=
  ⟨legal.actionType, legal.semanticKey⟩

/-- The error of an action that is not on offer. -/
def SemanticAction.unresolved (action : SemanticAction) (legalActions : List LegalAction) :
    String :=
  "SemanticAction(action_type='" ++ action.actionType ++ "', semantic_key='" ++
    action.semanticKey ++ "') did not resolve against any of " ++ toString legalActions.length ++
    " legal action(s)"

section Replay

/-- `ROOM_ENTRY_REPLAY_MAX_STEPS`. -/
def roomEntryReplayMaxSteps : Nat := 400

/-- `RESTORE_ELIGIBLE_CAPTURE_BOUNDARY_VALUES`. -/
def captureBoundaryIsRestoreEligible (captureBoundary : String) : Bool :=
  captureBoundary = "normal_player_decision"

variable (session : CombatSession σ κ β)

/-- `_raise_if_root_snapshot_not_restore_eligible`. -/
def requireRestoreEligible : SearchRoot κ → Except PyException Unit
  | .combatStart _ => .ok ()
  | .roomEntry _ => .ok ()
  | .snapshot captured =>
      match session.captureBoundary captured with
      | none => .ok ()
      | some boundary =>
          if captureBoundaryIsRestoreEligible boundary then .ok ()
          else .error ⟨"PendingSnapshotRestoreViolationError",
            "DecisionContext root_snapshot has capture_boundary='" ++ boundary ++
              "', which is not Restore-eligible. This is a design violation of NOTE_NO_REGEN: " ++
              "Pending must be reached by Restoring the prior Stable root snapshot and replaying "
              ++ "the semantic action prefix, never by Restoring a Pending snapshot directly."⟩

/-- `state._cached_legal_actions or session.get_legal_actions()`. -/
def offeredActions (state : BattleState β) (s : σ) : Except PyException (List LegalAction) :=
  if state.legalActions ≠ [] then .ok state.legalActions else session.getLegalActions s

/-- The check of a room that was entered, against the context's own signature. -/
def verifyRoomEntry (context : DecisionContext κ β) (state : BattleState β) (s : σ) :
    Except PyException (Option (ReplayOutcome β)) :=
  let expectedRoot := context.currentContextSignature
  match offeredActions session state s with
  | .error exc => .error exc
  | .ok legalActions =>
      match expectedRoot.semanticAction.resolve legalActions with
      | none => .ok (some (.mismatch none "context_signature"
          ("room-entry root action was not resolvable: " ++
            expectedRoot.semanticAction.unresolved legalActions) []))
      | some rootAction =>
          let observedRoot := DecisionSignature.fromBattleState state expectedRoot.semanticAction
            rootAction none none
          if ¬ observedRoot.matchesForReplay expectedRoot then
            .ok (some (.mismatch none "context_signature"
              "room-entry bootstrap diverged from root DecisionSignature"
              (observedRoot.diffForReplay expectedRoot)))
          else if roomEntryReplayMaxSteps < context.replayPrefix.length then
            .ok (some (.mismatch (some roomEntryReplayMaxSteps) "replay_bound"
              ("room-entry replay prefix exceeded the maximum of " ++
                toString roomEntryReplayMaxSteps ++ " steps") []))
          else .ok none

/-- What is checked of a root before anything is replayed. -/
def verifyRoot (context : DecisionContext κ β) (state : BattleState β) (s : σ) :
    Except PyException (Option (ReplayOutcome β)) :=
  match context.rootSnapshot with
  | .snapshot _ => .ok none
  | .combatStart _ => .ok none
  | .roomEntry _ => verifyRoomEntry session context state s

/-- The loop over the prefix: where it gives up, or where it arrives with the
    last observed signature. -/
def replayEntries : Nat → BattleState β → Option DecisionSignature → List ReplayPrefixEntry → σ →
    σ × Except PyException (ReplayOutcome β ⊕ (BattleState β × Option DecisionSignature))
  | _, state, lastObserved, [], s => (s, .ok (.inr (state, lastObserved)))
  | index, state, _, entry :: rest, s =>
      match offeredActions session state s with
      | .error exc => (s, .error exc)
      | .ok legalActions =>
          match entry.semanticAction.resolve legalActions with
          | none => (s, .ok (.inl (.mismatch (some index) "resolve"
              (entry.semanticAction.unresolved legalActions) [])))
          | some resolvedAction =>
              match session.step state resolvedAction entry.targetIndex
                entry.targetEnemyIndex s with
              | (s, .error exc) => (s, .error exc)
              | (s, .ok state) =>
                  let observed := DecisionSignature.fromBattleState state entry.semanticAction
                    resolvedAction entry.targetIndex entry.targetEnemyIndex
                  if ¬ observed.matchesForReplay entry.expectedSignature then
                    (s, .ok (.inl (.mismatch (some index) "signature"
                      ("observed post-step signature diverged from replay prefix entry " ++
                        toString index)
                      (observed.diffForReplay entry.expectedSignature))))
                  else replayEntries (index + 1) state (some observed) rest s

/-- The arrival check. -/
def verifyArrival (context : DecisionContext κ β) (state : BattleState β)
    (lastObserved : Option DecisionSignature) : ReplayOutcome β :=
  let expected := context.currentContextSignature
  match lastObserved with
  | some observed =>
      if ¬ observed.matchesForReplay expected then
        .mismatch none "context_signature"
          "arrival state's signature diverged from Current Context Signature"
          (observed.diffForReplay expected)
      else .success state
  | none =>
      if boundaryOfBattleState state ≠ expected.boundary then
        .mismatch none "context_signature"
          ("restored root's Boundary ('" ++ (boundaryOfBattleState state).text ++
            "') diverged from Current Context Signature's recorded Boundary ('" ++
            expected.boundary.text ++ "')") ["boundary"]
      else .success state

/-- `replay_decision_context`. -/
def replayDecisionContext (context : DecisionContext κ β) (s : σ) :
    σ × Except PyException (ReplayOutcome β) :=
  match requireRestoreEligible session context.rootSnapshot with
  | .error exc => (s, .error exc)
  | .ok () =>
      match session.bootstrap context.rootSnapshot s with
      | (s, .error exc) => (s, .error exc)
      | (s, .ok state) =>
          match verifyRoot session context state s with
          | .error exc => (s, .error exc)
          | .ok (some outcome) => (s, .ok outcome)
          | .ok none =>
              match replayEntries session 0 state none context.replayPrefix s with
              | (s, .error exc) => (s, .error exc)
              | (s, .ok (.inl outcome)) => (s, .ok outcome)
              | (s, .ok (.inr (state, lastObserved))) =>
                  (s, .ok (verifyArrival context state lastObserved))

end Replay

section Builders

/-- `_representative_signature_for_empty_prefix`. -/
def representativeSignature (current : BattleState β) : Except PyException DecisionSignature :=
  match current.legalActions with
  | action :: _ =>
      .ok (DecisionSignature.fromBattleState current action.semanticAction action none none)
  | [] =>
      if current.isTerminal then
        .ok (DecisionSignature.fromBattleState current ⟨"system", ""⟩
          { actionId := -1, actionType := "system" } none none)
      else .error (.runtimeError
        "cannot build a Decision Context signature: Current Decision Result reports no candidates")

/-- What the builders share: the last recorded arrival, or a representative one,
    is the signature of the context. -/
def buildDecisionContext (root : SearchRoot κ) (replayPrefix : List ReplayPrefixEntry)
    (current : BattleState β) : Except PyException (DecisionContext κ β) := do
  let signature ←
    match replayPrefix.getLast? with
    | some entry => pure entry.expectedSignature
    | none => representativeSignature current
  pure { DecisionContext.fromRoot root current signature with replayPrefix }

/-- `build_decision_context_from_held_stable`. -/
def buildDecisionContextFromHeldStable (heldStableSnapshot : κ) :
    List ReplayPrefixEntry → BattleState β → Except PyException (DecisionContext κ β) :=
  buildDecisionContext (.snapshot heldStableSnapshot)

/-- `build_decision_context_from_room_entry`. -/
def buildDecisionContextFromRoomEntry (roomEntryRoot : RoomEntryReplayRoot) :
    List ReplayPrefixEntry → BattleState β → Except PyException (DecisionContext κ β) :=
  buildDecisionContext (.roomEntry roomEntryRoot)

/-- `build_combat_start_decision_context`, where there is a root and no snapshot is held. -/
def buildCombatStartDecisionContext (combatStartReplayRoot : CombatStartReplayRoot) :
    List ReplayPrefixEntry → BattleState β → Except PyException (DecisionContext κ β) :=
  buildDecisionContext (.combatStart combatStartReplayRoot)

end Builders

section Soundness

variable (session : CombatSession σ κ β)

/-- The steps of a replay whose arrivals all matched what was recorded. -/
inductive Replays : BattleState β → σ → List ReplayPrefixEntry → BattleState β → σ → Prop where
  | nil (state : BattleState β) (s : σ) : Replays state s [] state s
  | cons {state next final : BattleState β} {s s' s'' : σ} {entry : ReplayPrefixEntry}
      {rest : List ReplayPrefixEntry} (legalActions : List LegalAction)
      (resolvedAction : LegalAction)
      (hlegal : offeredActions session state s = .ok legalActions)
      (hresolved : entry.semanticAction.resolve legalActions = some resolvedAction)
      (hstep : session.step state resolvedAction entry.targetIndex entry.targetEnemyIndex s =
        (s', .ok next))
      (hobserved : (DecisionSignature.fromBattleState next entry.semanticAction resolvedAction
        entry.targetIndex entry.targetEnemyIndex).matchesForReplay entry.expectedSignature = true)
      (hrest : Replays next s' rest final s'') : Replays state s (entry :: rest) final s''

/-- The signature that was observed on the arrival by the last entry. -/
def ArrivedBy (final : BattleState β) (entry : ReplayPrefixEntry)
    (observed : DecisionSignature) : Prop :=
  ∃ resolvedAction, observed = DecisionSignature.fromBattleState final entry.semanticAction
    resolvedAction entry.targetIndex entry.targetEnemyIndex

/-- The loop gets through exactly by matching every arrival. -/
theorem replayEntries_eq_inr (entries : List ReplayPrefixEntry) :
    ∀ (index : Nat) (state final : BattleState β) (lastObserved observed : Option DecisionSignature)
      (s s' : σ), replayEntries session index state lastObserved entries s =
        (s', .ok (.inr (final, observed))) →
      Replays session state s entries final s' ∧
        (entries = [] → observed = lastObserved) ∧
        ∀ entry, entries.getLast? = some entry →
          ∃ signature, observed = some signature ∧ ArrivedBy final entry signature := by
  -- The induction is on the entries that are left. Where the replay goes on, the step matched.
  induction entries with
  | nil =>
      intro index state final lastObserved observed s s' h
      cases h
      exact ⟨.nil state s, fun _ => rfl, fun entry hlast => by cases hlast⟩
  | cons entry rest ih =>
      intro index state final lastObserved observed s s' h
      unfold replayEntries at h
      split at h
      · cases h
      · rename_i legalActions hlegal
        split at h
        · cases h
        · rename_i resolvedAction hresolved
          split at h
          · cases h
          · rename_i s₁ next hstep
            dsimp only at h
            split at h
            · cases h
            · rename_i hmatches
              -- The step is a step of the replay, and the rest is one by the induction
              -- hypothesis.
              have hmatches' := not_not.mp hmatches
              rcases ih _ next final _ observed s₁ s' h with ⟨hreplays, hnone, hlast⟩
              refine ⟨.cons legalActions resolvedAction hlegal hresolved hstep hmatches' hreplays,
                fun hnil => (List.cons_ne_nil _ _ hnil).elim, fun last hgetLast => ?_⟩
              -- What was observed last is of the last entry, which is this one if none is left.
              cases rest with
              | nil =>
                  cases hgetLast
                  cases hreplays
                  exact ⟨_, hnone rfl, resolvedAction, rfl⟩
              | cons second rest => exact hlast last hgetLast

/-- The loop gives up with a mismatch. -/
theorem replayEntries_eq_inl (entries : List ReplayPrefixEntry) :
    ∀ (index : Nat) (state final : BattleState β) (lastObserved : Option DecisionSignature)
      (s s' : σ), replayEntries session index state lastObserved entries s ≠
        (s', .ok (.inl (.success final))) := by
  induction entries with
  | nil =>
      intro index state final lastObserved s s' h
      cases h
  | cons entry rest ih =>
      intro index state final lastObserved s s' h
      unfold replayEntries at h
      split at h
      · cases h
      · split at h
        · cases h
        · split at h
          · cases h
          · dsimp only at h
            split at h
            · cases h
            · exact ih _ _ _ _ _ _ h

/-- A root that passes its check: a room that was entered has the context's
    signature. -/
theorem verifyRoot_spec (context : DecisionContext κ β) (state : BattleState β) (s : σ)
    (outcome : Option (ReplayOutcome β)) (h : verifyRoot session context state s = .ok outcome) :
    (∀ final, outcome ≠ some (.success final)) ∧
      (outcome = none → ∀ room, context.rootSnapshot = .roomEntry room → ∃ rootAction,
        (DecisionSignature.fromBattleState state context.currentContextSignature.semanticAction
          rootAction none none).matchesForReplay context.currentContextSignature = true) := by
  -- Only a room that is entered again is compared with the representative of its signature.
  unfold verifyRoot at h
  split at h
  · rename_i hroot
    cases h
    refine ⟨fun final heq => (by cases heq), fun _ room hroom => ?_⟩
    rw [hroot] at hroom
    cases hroom
  · rename_i hroot
    cases h
    refine ⟨fun final heq => (by cases heq), fun _ room hroom => ?_⟩
    rw [hroot] at hroom
    cases hroom
  · unfold verifyRoomEntry at h
    dsimp only at h
    split at h
    · cases h
    · split at h
      · cases h
        exact ⟨fun final heq => (by cases heq), fun heq => by cases heq⟩
      · rename_i rootAction _
        split at h
        · cases h
          exact ⟨fun final heq => (by cases heq), fun heq => by cases heq⟩
        · rename_i hmatches
          split at h
          · cases h
            exact ⟨fun final heq => (by cases heq), fun heq => by cases heq⟩
          · cases h
            exact ⟨fun final heq => (by cases heq),
              fun _ room _ => ⟨rootAction, not_not.mp hmatches⟩⟩

/-- What a replay that succeeds has observed: the root was bootstrapped; every
    recorded entry had the signature of its arrival; the last arrival has the
    context's own signature; a room that was entered has it too; and a root from
    which nothing was replayed has its boundary. -/
theorem replayDecisionContext_success (context : DecisionContext κ β) (s s' : σ)
    (final : BattleState β)
    (h : replayDecisionContext session context s = (s', .ok (.success final))) :
    ∃ s₁ root, session.bootstrap context.rootSnapshot s = (s₁, .ok root) ∧
      Replays session root s₁ context.replayPrefix final s' ∧
      (∀ entry, context.replayPrefix.getLast? = some entry → ∃ signature,
        ArrivedBy final entry signature ∧
          signature.matchesForReplay context.currentContextSignature = true) ∧
      (context.replayPrefix = [] →
        boundaryOfBattleState root = context.currentContextSignature.boundary) ∧
      (∀ room, context.rootSnapshot = .roomEntry room → ∃ rootAction,
        (DecisionSignature.fromBattleState root context.currentContextSignature.semanticAction
          rootAction none none).matchesForReplay context.currentContextSignature = true) := by
  -- The checks in the order in which the code makes them; the replay succeeds when all pass.
  unfold replayDecisionContext at h
  split at h
  · cases h
  · split at h
    · cases h
    · rename_i s₁ root hbootstrap
      split at h
      · cases h
      · rename_i outcome hverify
        cases h
        exact absurd rfl ((verifyRoot_spec session context root _ _ hverify).1 final)
      · rename_i hverify
        have hroom := (verifyRoot_spec session context root _ _ hverify).2 rfl
        split at h
        · cases h
        · rename_i hentries
          cases h
          exact absurd hentries (replayEntries_eq_inl session _ _ _ _ _ _ _)
        · rename_i s₂ state lastObserved hentries
          rcases replayEntries_eq_inr session _ _ _ _ _ _ _ _ hentries with ⟨hreplays, hnone, hlast⟩
          rw [Prod.mk.injEq, Except.ok.injEq] at h
          rcases h with ⟨rfl, hfinal⟩
          -- At the end the last signature is checked if there was a step, and the boundary if
          -- not.
          unfold verifyArrival at hfinal
          dsimp only at hfinal
          split at hfinal
          · rename_i observed
            split at hfinal
            · cases hfinal
            · rename_i hmatches
              cases hfinal
              refine ⟨s₁, root, hbootstrap, hreplays, fun entry hgetLast => ?_,
                fun hnil => ?_, hroom⟩
              · rcases hlast entry hgetLast with ⟨signature, heq, harrived⟩
                cases heq
                exact ⟨observed, harrived, not_not.mp hmatches⟩
              · cases hnone hnil
          · split at hfinal
            · cases hfinal
            · rename_i hboundary
              cases hfinal
              refine ⟨s₁, root, hbootstrap, hreplays, fun entry hgetLast => ?_,
                fun hnil => ?_, hroom⟩
              · rcases hlast entry hgetLast with ⟨_, heq, _⟩
                cases heq
              · rw [hnil] at hreplays
                cases hreplays
                exact not_not.mp hboundary

end Soundness

end Combat

end STS2RL
