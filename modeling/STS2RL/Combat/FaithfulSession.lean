import STS2RL.Combat.Replay

/-!
# Faithful Sessions

A session that can be replayed. Behind what a session returns stands a world,
and playing an action moves the world on; the world decides everything that is
returned of it, the session id and the action ids apart. A root is restored to
one world, whatever the session did before, and a snapshot that is captured at a
stable decision is a root of the world it was captured in.

Replaying what was committed from a world then leads, from any other session at
the same world, to the world where the commits led.

## Main definitions

* `SameDecision`: Two returned states that no replay tells apart.
* `FaithfulSession`: Determinism, as laws between a session and its worlds.
* `ReplaysTo`: A context replays to the live decision.
* `Committed`: Steps that were carried out and recorded, in order.
* `LeadsTo`: Recorded steps lead from a root to the live decision.

## Theorems

* `SameDecision.matchesForReplay`: Arrivals at one decision match.
* `replayEntries_of_committed`: What was committed is replayed.
* `replayDecisionContext_of_committed`: A context built from it replays to where
  the commits led.
-/

namespace STS2RL

namespace Combat

variable {σ κ β W : Type}

/-- Two returned states that differ at most in the session id and the action ids. -/
structure SameDecision (a b : BattleState β) : Prop where
  board : a.board = b.board
  isTerminal : a.isTerminal = b.isTerminal
  pendingChoice : a.pendingChoice = b.pendingChoice
  legalActions : a.legalActions.map LegalAction.semanticAction =
    b.legalActions.map LegalAction.semanticAction
  stepIndex : a.decisionFrame.map (·.stepIndex) = b.decisionFrame.map (·.stepIndex)
  continuationStepIndex : a.decisionFrame.bind (·.continuationStepIndex) =
    b.decisionFrame.bind (·.continuationStepIndex)

namespace SameDecision

variable {a b : BattleState β}

theorem boundary (h : SameDecision a b) : boundaryOfBattleState a = boundaryOfBattleState b := by
  unfold boundaryOfBattleState
  rw [h.isTerminal, h.pendingChoice]

theorem candidateMultiset (h : SameDecision a b) :
    candidateMultiset a.legalActions = candidateMultiset b.legalActions := by
  have hkeys : ∀ legalActions : List LegalAction,
      legalActions.map (fun legal => (legal.actionType, legal.semanticKey)) =
        (legalActions.map LegalAction.semanticAction).map
          fun action => (action.actionType, action.semanticKey) := by
    intro legalActions
    rw [List.map_map]
    rfl
  unfold Combat.candidateMultiset
  rw [hkeys a.legalActions, hkeys b.legalActions, h.legalActions]

/-- Arrivals at one decision match. -/
theorem matchesForReplay (h : SameDecision a b) (action : SemanticAction)
    {resolved resolved' : LegalAction} (hkey : resolved.semanticKey = resolved'.semanticKey)
    (targetIndex targetEnemyIndex : Option Int) :
    (DecisionSignature.fromBattleState a action resolved targetIndex
      targetEnemyIndex).matchesForReplay
        (DecisionSignature.fromBattleState b action resolved' targetIndex targetEnemyIndex) =
      true := by
  rw [DecisionSignature.matchesForReplay_iff]
  unfold DecisionSignature.fromBattleState
  dsimp only
  rw [h.stepIndex, h.continuationStepIndex, h.boundary, h.pendingChoice, h.candidateMultiset]
  refine ⟨rfl, rfl, rfl, hkey, rfl, rfl, rfl, rfl, ?_, rfl⟩
  simp [DecisionSignature.choiceKindDiffers]

end SameDecision

section Resolve

theorem SemanticAction.resolve_eq_some {action : SemanticAction} {legalActions : List LegalAction}
    {legal : LegalAction} (h : action.resolve legalActions = some legal) :
    legal ∈ legalActions ∧ legal.semanticAction = action := by
  unfold SemanticAction.resolve at h
  have hfound := List.find?_some h
  rw [decide_eq_true_eq] at hfound
  refine ⟨List.mem_of_find?_eq_some h, ?_⟩
  unfold LegalAction.semanticAction
  rw [hfound.1, hfound.2]

/-- An action that is offered resolves. -/
theorem SemanticAction.resolve_of_mem {action : SemanticAction} {legalActions : List LegalAction}
    (h : action ∈ legalActions.map LegalAction.semanticAction) :
    ∃ legal, action.resolve legalActions = some legal := by
  rcases List.mem_map.mp h with ⟨legal, hmem, rfl⟩
  rw [← Option.isSome_iff_exists]
  unfold SemanticAction.resolve
  rw [List.find?_isSome]
  exact ⟨legal, hmem, by simp [LegalAction.semanticAction]⟩

/-- Where an action is resolved at one of two alike decisions, it is at the other. -/
theorem SameDecision.resolve {a b : BattleState β} (h : SameDecision a b) {legal : LegalAction}
    (hlegal : legal ∈ a.legalActions) :
    ∃ legal', legal.semanticAction.resolve b.legalActions = some legal' ∧
      legal' ∈ b.legalActions ∧ legal'.semanticAction = legal.semanticAction := by
  have hmem : legal.semanticAction ∈ b.legalActions.map LegalAction.semanticAction := by
    rw [← h.legalActions]
    exact List.mem_map_of_mem hlegal
  rcases SemanticAction.resolve_of_mem hmem with ⟨legal', hresolved⟩
  exact ⟨legal', hresolved, SemanticAction.resolve_eq_some hresolved⟩

end Resolve

/-- A session that can be replayed, with the worlds that stand behind it. -/
structure FaithfulSession (session : CombatSession σ κ β) (W : Type) where
  /-- The session has returned this state, and stands in this world. -/
  At : σ → BattleState β → W → Prop
  root : SearchRoot κ → Option W
  play : W → SemanticAction → (targetIndex targetEnemyIndex : Option Int) → Option W
  same : ∀ {s s' state state' w}, At s state w → At s' state' w → SameDecision state state'
  bootstrap : ∀ {searchRoot w}, root searchRoot = some w → ∀ s, ∃ s' state,
    session.bootstrap searchRoot s = (s', .ok state) ∧ At s' state w
  step : ∀ {s state w w' legal targetIndex targetEnemyIndex}, At s state w →
    legal ∈ state.legalActions →
    play w legal.semanticAction targetIndex targetEnemyIndex = some w' → ∃ s' state',
      session.step state legal targetIndex targetEnemyIndex s = (s', .ok state') ∧ At s' state' w'
  committed : ∀ {s s' state state' w legal targetIndex targetEnemyIndex}, At s state w →
    legal ∈ state.legalActions →
    session.step state legal targetIndex targetEnemyIndex s = (s', .ok state') → ∃ w',
      play w legal.semanticAction targetIndex targetEnemyIndex = some w' ∧ At s' state' w'
  captured : ∀ {s state w snapshot}, At s state w → boundaryOfBattleState state = .stable →
    session.captureSnapshot s = .ok snapshot → root (.snapshot snapshot) = some w ∧
      ∀ boundary, session.captureBoundary snapshot = some boundary →
        captureBoundaryIsRestoreEligible boundary = true

/-- Whatever a session did before, it replays the context to the live decision:
    it ends in the live world, with the live board. -/
def ReplaysTo {session : CombatSession σ κ β} (faithful : FaithfulSession session W)
    (context : DecisionContext κ β) (live : BattleState β) (s : σ) : Prop :=
  ∀ r, ∃ r' state w, replayDecisionContext session context r = (r', .ok (.success state)) ∧
    faithful.At r' state w ∧ faithful.At s live w ∧ state.board = live.board

/-- Steps that were carried out, each with the entry that records it. -/
inductive Committed (session : CombatSession σ κ β) :
    BattleState β → σ → List ReplayPrefixEntry → BattleState β → σ → Prop where
  | nil (state : BattleState β) (s : σ) : Committed session state s [] state s
  | cons {state next final : BattleState β} {s s' s'' : σ} {entry : ReplayPrefixEntry}
      {rest : List ReplayPrefixEntry} (legal : LegalAction) (hlegal : legal ∈ state.legalActions)
      (hstep : session.step state legal entry.targetIndex entry.targetEnemyIndex s =
        (s', .ok next))
      (haction : entry.semanticAction = legal.semanticAction)
      (hsignature : entry.expectedSignature = DecisionSignature.fromBattleState next
        legal.semanticAction legal entry.targetIndex entry.targetEnemyIndex)
      (hrest : Committed session next s' rest final s'') :
      Committed session state s (entry :: rest) final s''

theorem Committed.append {session : CombatSession σ κ β} {state next final : BattleState β}
    {s s' s'' : σ} {entries rest : List ReplayPrefixEntry}
    (h : Committed session state s entries next s')
    (hrest : Committed session next s' rest final s'') :
    Committed session state s (entries ++ rest) final s'' := by
  induction h with
  | nil _ _ => exact hrest
  | cons legal hlegal hstep haction hsignature _ ih =>
      exact .cons legal hlegal hstep haction hsignature (ih hrest)

/-- One more step is recorded at the end. -/
theorem Committed.snoc {session : CombatSession σ κ β} {state next final : BattleState β}
    {s s' s'' : σ} {entries : List ReplayPrefixEntry} {entry : ReplayPrefixEntry}
    (h : Committed session state s entries next s') (legal : LegalAction)
    (hlegal : legal ∈ next.legalActions)
    (hstep : session.step next legal entry.targetIndex entry.targetEnemyIndex s' =
      (s'', .ok final))
    (haction : entry.semanticAction = legal.semanticAction)
    (hsignature : entry.expectedSignature = DecisionSignature.fromBattleState final
      legal.semanticAction legal entry.targetIndex entry.targetEnemyIndex) :
    Committed session state s (entries ++ [entry]) final s'' :=
  h.append (.cons legal hlegal hstep haction hsignature (.nil final s''))

section Completeness

variable {session : CombatSession σ κ β} (faithful : FaithfulSession session W)

/-- Commits lead from world to world. -/
theorem Committed.at {state final : BattleState β} {s s' : σ} {entries : List ReplayPrefixEntry}
    (h : Committed session state s entries final s') {w : W} (hat : faithful.At s state w) :
    ∃ w', faithful.At s' final w' := by
  induction h generalizing w with
  | nil _ _ => exact ⟨w, hat⟩
  | cons legal hlegal hstep _ _ _ ih =>
      rcases faithful.committed hat hlegal hstep with ⟨w', _, hat'⟩
      exact ih hat'

theorem offeredActions_of_mem {state : BattleState β} {legal : LegalAction}
    (hlegal : legal ∈ state.legalActions) (s : σ) :
    offeredActions session state s = .ok state.legalActions :=
  if_pos (List.ne_nil_of_mem hlegal)

-- Induction on the commits: the replaying session follows in the same world.
/-- What was committed from a world is replayed by every session that stands in
    it, entry by entry, and leads to the same world. -/
theorem replayEntries_of_committed {live final : BattleState β} {s s' : σ}
    {entries : List ReplayPrefixEntry} (h : Committed session live s entries final s') :
    ∀ (w : W), faithful.At s live w → ∀ (index : Nat) (state : BattleState β)
      (lastObserved : Option DecisionSignature) (r : σ), faithful.At r state w →
      ∃ r' state' observed w', replayEntries session index state lastObserved entries r =
          (r', .ok (.inr (state', observed))) ∧
        faithful.At r' state' w' ∧ faithful.At s' final w' ∧
        (entries = [] → observed = lastObserved) ∧
        ∀ entry, entries.getLast? = some entry → ∃ signature,
          observed = some signature ∧ signature.matchesForReplay
            entry.expectedSignature = true := by
  -- The induction is on the entries. The replay stands in the state of the world in which the
  -- committed step was made, and both go on together.
  induction h with
  | nil live s =>
      intro w hlive index state lastObserved r hat
      exact ⟨r, state, lastObserved, w, rfl, hat, hlive, fun _ => rfl, fun entry hlast => by
        cases hlast⟩
  | @cons live next final s s₁ s' entry rest legal hlegal hstep haction hsignature _ ih =>
      intro w hlive index state lastObserved r hat
      -- What was committed is a move of the world, and the action is on offer in the replay as
      -- well.
      rcases faithful.committed hlive hlegal hstep with ⟨w₁, hplay, hnext⟩
      rcases (faithful.same hlive hat).resolve hlegal with ⟨legal', hresolved, hlegal', hsame⟩
      rw [← hsame] at hplay
      rcases faithful.step hat hlegal' hplay with ⟨r₁, state₁, hstep₁, hat₁⟩
      have hkey : legal'.semanticKey = legal.semanticKey :=
        congrArg SemanticAction.semanticKey hsame
      -- The boards agree in what a signature shows, so the step matches the one that was
      -- recorded.
      have hmatches : (DecisionSignature.fromBattleState state₁ entry.semanticAction legal'
          entry.targetIndex entry.targetEnemyIndex).matchesForReplay entry.expectedSignature =
          true := by
        rw [hsignature, haction]
        exact (faithful.same hat₁ hnext).matchesForReplay _ hkey _ _
      rcases ih w₁ hnext (index + 1) state₁ (some (DecisionSignature.fromBattleState state₁
        entry.semanticAction legal' entry.targetIndex entry.targetEnemyIndex)) r₁ hat₁ with
        ⟨r', state', observed, w', hreplay, hat', hfinal, hnone, hlast⟩
      refine ⟨r', state', observed, w', ?_, hat', hfinal, fun hnil =>
        (List.cons_ne_nil _ _ hnil).elim,
        ?_⟩
      · rw [← haction] at hresolved
        unfold replayEntries
        simp only [offeredActions_of_mem hlegal' r, hresolved, hstep₁, hmatches, not_true_eq_false,
          if_false]
        exact hreplay
      -- The last entry is this one or the last of the rest.
      · intro last hgetLast
        cases rest with
        | nil =>
            cases hgetLast
            exact ⟨_, hnone rfl, hmatches⟩
        | cons second rest => exact hlast last hgetLast

/-- The signature of a context that is built with nothing to replay describes the
    decision it was built at. -/
theorem representativeSignature_spec {current : BattleState β} {signature : DecisionSignature}
    (h : representativeSignature current = .ok signature) :
    signature.boundary = boundaryOfBattleState current ∧
      (boundaryOfBattleState current ≠ .terminal → ∃ legal ∈ current.legalActions,
        signature = DecisionSignature.fromBattleState current legal.semanticAction legal none
          none) := by
  unfold representativeSignature at h
  split at h
  · rename_i legal rest hlegal
    cases h
    exact ⟨rfl, fun _ => ⟨legal, by rw [hlegal]; exact List.mem_cons_self, rfl⟩⟩
  · split at h
    · rename_i hterminal
      cases h
      exact ⟨rfl, fun hboundary => absurd (if_pos hterminal) hboundary⟩
    · cases h

/-- What a builder puts into a context. -/
theorem buildDecisionContext_spec {root : SearchRoot κ} {entries : List ReplayPrefixEntry}
    {current : BattleState β} {context : DecisionContext κ β}
    (h : buildDecisionContext root entries current = .ok context) :
    context.rootSnapshot = root ∧ context.replayPrefix = entries ∧
      (∀ entry, entries.getLast? = some entry →
        context.currentContextSignature = entry.expectedSignature) ∧
      (entries = [] → representativeSignature current = .ok context.currentContextSignature) := by
  unfold buildDecisionContext at h
  cases hlast : entries.getLast? with
  | some entry =>
      rw [hlast] at h
      cases h
      refine ⟨rfl, rfl, fun entry hentry => ?_, fun hnil => ?_⟩
      · cases hentry
        rfl
      · rw [hnil] at hlast
        cases hlast
  | none =>
      rw [hlast] at h
      rcases (Except.bind_eq_ok _ _ _).mp h with ⟨signature, hsignature, hcontext⟩
      cases hcontext
      exact ⟨rfl, rfl, fun entry hentry => (by cases hentry), fun _ => hsignature⟩

/-- A room that was entered and in which nothing was committed has the signature
    of its context. -/
theorem verifyRoomEntry_of_representative {context : DecisionContext κ β}
    {live state : BattleState β}
    (hsame : SameDecision live state) (hboundary : boundaryOfBattleState live ≠ .terminal)
    (hsignature : representativeSignature live = .ok context.currentContextSignature)
    (hreplayed : context.replayPrefix = []) (r : σ) :
    verifyRoomEntry session context state r = .ok none := by
  rcases (representativeSignature_spec hsignature).2 hboundary with ⟨legal, hlegal, heq⟩
  rcases hsame.resolve hlegal with ⟨legal', hresolved, hlegal', hsemantic⟩
  have hmatches : (DecisionSignature.fromBattleState state legal.semanticAction legal' none
      none).matchesForReplay context.currentContextSignature = true := by
    rw [heq, DecisionSignature.matchesForReplay_comm]
    exact hsame.matchesForReplay _ (congrArg SemanticAction.semanticKey hsemantic).symm _ _
  have haction : context.currentContextSignature.semanticAction = legal.semanticAction := by
    rw [heq]
    rfl
  unfold verifyRoomEntry
  simp only [haction, offeredActions_of_mem hlegal' r, hresolved, hmatches, hreplayed,
    List.length_nil, not_true_eq_false, if_false, Nat.not_lt_zero]

/-- A context that is built from what was committed replays to where the commits
    led. Of a room that was entered this holds while nothing was committed in it. -/
theorem replayDecisionContext_of_committed {root : SearchRoot κ} {w : W}
    {live final : BattleState β} {s s' : σ} {entries : List ReplayPrefixEntry}
    {context : DecisionContext κ β} (hroot : faithful.root root = some w)
    (heligible : requireRestoreEligible session root = .ok ()) (hlive : faithful.At s live w)
    (hcommitted : Committed session live s entries final s')
    (hroom : ∀ room, root = .roomEntry room →
      entries = [] ∧ boundaryOfBattleState live ≠ .terminal)
    (hcontext : buildDecisionContext root entries final = .ok context) :
    ReplaysTo faithful context final s' := by
  intro r
  rcases buildDecisionContext_spec hcontext with ⟨hrootSnapshot, hreplayed, hsignature, hempty⟩
  rcases faithful.bootstrap hroot r with ⟨r₁, state, hbootstrap, hat⟩
  rcases replayEntries_of_committed faithful hcommitted w hlive 0 state none r₁ hat with
    ⟨r', state', observed, w', hreplay, hat', hfinal, hnone, hlast⟩
  -- A room that was just entered shows what the representative of its signature shows.
  have hverify : verifyRoot session context state r₁ = .ok none := by
    unfold verifyRoot
    rw [hrootSnapshot]
    cases root with
    | snapshot captured => rfl
    | combatStart start => rfl
    | roomEntry room =>
        rcases hroom room rfl with ⟨hnil, hboundary⟩
        subst hnil
        cases hcommitted
        exact verifyRoomEntry_of_representative (faithful.same hlive hat) hboundary (hempty rfl)
          hreplayed r₁
  -- After a step its own signature is checked, and after none the boundary.
  have harrival : verifyArrival context state' observed = .success state' := by
    unfold verifyArrival
    cases hentries : entries.getLast? with
    | some entry =>
        rcases hlast entry hentries with ⟨signature, hobserved, hmatches⟩
        simp only [hobserved, hsignature entry hentries, hmatches, not_true_eq_false, if_false]
    | none =>
        have hnil := List.getLast?_eq_none_iff.mp hentries
        have hboundary := (representativeSignature_spec (hempty hnil)).1
        rw [(faithful.same hfinal hat').boundary] at hboundary
        simp only [hnone hnil, hboundary, ne_eq, not_true_eq_false, if_false]
  refine ⟨r', state', w', ?_, hat', hfinal, (faithful.same hat' hfinal).board⟩
  unfold replayDecisionContext
  simp only [hrootSnapshot, heligible, hbootstrap, hverify, hreplayed, hreplay, harrival]

/-- The entries lead from the root to the live decision. -/
def LeadsTo (root : SearchRoot κ) (entries : List ReplayPrefixEntry) (live : BattleState β)
    (s : σ) : Prop :=
  ∃ w start s₀, faithful.root root = some w ∧ requireRestoreEligible session root = .ok () ∧
    faithful.At s₀ start w ∧
    (∀ room, root = .roomEntry room → boundaryOfBattleState start ≠ .terminal) ∧
    Committed session start s₀ entries live s

variable {faithful}

/-- A snapshot that is captured at a stable decision leads to it. -/
theorem leadsTo_of_captured {live : BattleState β} {s : σ} {w : W} {snapshot : κ}
    (hat : faithful.At s live w) (hstable : boundaryOfBattleState live = .stable)
    (hcapture : session.captureSnapshot s = .ok snapshot) :
    LeadsTo faithful (.snapshot snapshot) [] live s := by
  rcases faithful.captured hat hstable hcapture with ⟨hroot, heligible⟩
  refine ⟨w, live, s, hroot, ?_, hat, fun room hroom => (by cases hroom), .nil live s⟩
  cases hboundary : session.captureBoundary snapshot with
  | none => simp only [requireRestoreEligible, hboundary]
  | some boundary =>
      simp only [requireRestoreEligible, hboundary, heligible boundary hboundary, if_true]

theorem LeadsTo.snoc {root : SearchRoot κ} {entries : List ReplayPrefixEntry}
    {live next : BattleState β} {s s' : σ} {entry : ReplayPrefixEntry}
    (h : LeadsTo faithful root entries live s) (legal : LegalAction)
    (hlegal : legal ∈ live.legalActions)
    (hstep : session.step live legal entry.targetIndex entry.targetEnemyIndex s = (s', .ok next))
    (haction : entry.semanticAction = legal.semanticAction)
    (hsignature : entry.expectedSignature = DecisionSignature.fromBattleState next
      legal.semanticAction legal entry.targetIndex entry.targetEnemyIndex) :
    LeadsTo faithful root (entries ++ [entry]) next s' := by
  rcases h with ⟨w, start, s₀, hroot, heligible, hat, hroom, hcommitted⟩
  exact ⟨w, start, s₀, hroot, heligible, hat, hroom,
    hcommitted.snoc legal hlegal hstep haction hsignature⟩

/-- A context that is built where its entries lead to replays to there. -/
theorem LeadsTo.replaysTo {root : SearchRoot κ} {entries : List ReplayPrefixEntry}
    {live : BattleState β} {s : σ} {context : DecisionContext κ β}
    (h : LeadsTo faithful root entries live s)
    (hroom : ∀ room, root = .roomEntry room → entries = [])
    (hcontext : buildDecisionContext root entries live = .ok context) :
    ReplaysTo faithful context live s := by
  rcases h with ⟨w, start, s₀, hroot, heligible, hat, hstart, hcommitted⟩
  exact replayDecisionContext_of_committed faithful hroot heligible hat hcommitted
    (fun room heq => ⟨hroom room heq, hstart room heq⟩) hcontext

end Completeness

section Counting

variable (pending : Nat → Bool)

/-- A decision of a session that counts its steps, and that is pending after some of them. -/
def countedState (count : Nat) : BattleState Nat :=
  { board := count
    isTerminal := false
    pendingChoice := if pending count then some { choiceType := some "Card" } else none
    cachedLegalActions :=
      some [{ actionId := count, actionType := "card", semanticKey := "Strike" }]
    decisionFrame := some { combatSessionId := none, stepIndex := count } }

/-- The count that a root stands for. -/
def countingRoot : SearchRoot Nat → Nat
  | .snapshot count => count
  | .combatStart _ => 1
  | .roomEntry _ => 1

/-- A session that counts what was played, with a choice at the counts in `pending`. -/
def countedSession : CombatSession Nat Nat Nat where
  bootstrap root _ := (countingRoot root, .ok (countedState pending (countingRoot root)))
  step _ _ _ _ count := (count + 1, .ok (countedState pending (count + 1)))
  getLegalActions count := .ok (countedState pending count).legalActions
  captureSnapshot count := .ok count
  captureBoundary _ := some "normal_player_decision"

/-- Its counts are the states of a world. -/
def countedFaithful : FaithfulSession (countedSession pending) Nat where
  At count state w := count = w ∧ state = countedState pending w
  root searchRoot := some (countingRoot searchRoot)
  play w _ _ _ := some (w + 1)
  same := by
    rintro _ _ _ _ w ⟨-, rfl⟩ ⟨-, rfl⟩
    exact ⟨rfl, rfl, rfl, rfl, rfl, rfl⟩
  bootstrap := by
    intro searchRoot w hroot s
    cases hroot
    exact ⟨_, _, rfl, rfl, rfl⟩
  step := by
    rintro _ _ w w' legal _ _ ⟨rfl, rfl⟩ _ hplay
    cases hplay
    exact ⟨_, _, rfl, rfl, rfl⟩
  committed := by
    rintro _ s' _ state' w legal _ _ ⟨rfl, rfl⟩ _ hstep
    cases hstep
    exact ⟨_, rfl, rfl, rfl⟩
  captured := by
    rintro _ _ w snapshot ⟨rfl, rfl⟩ _ hcapture
    cases hcapture
    refine ⟨rfl, fun boundary hboundary => ?_⟩
    cases hboundary
    rfl

/-- Every other decision is pending. -/
def countingState (count : Nat) : BattleState Nat := countedState (· % 2 = 1) count

/-- A session with a choice at every other count. -/
def countingSession : CombatSession Nat Nat Nat := countedSession (· % 2 = 1)

/-- The counts as the states of its world. -/
def countingFaithful : FaithfulSession countingSession Nat := countedFaithful (· % 2 = 1)

end Counting

end Combat

end STS2RL
