import STS2RL.Combat.LiveSession

/-!
# The Combat Environment

One episode: a combat that is started or adopted, and the actions played in it. The
environment plays every action from the state it was handed last, so a session of its own
never finds that an action was chosen in another state, whatever the game answers and
whoever else uses it between two actions.

A fault ends an episode. The environment does not know of it: it keeps the state from
before the action, and every further action of the episode is refused by the session,
until another episode is begun.

## Main definitions

* `CombatEnv`: The session, and the state an action is played from.
* `reset`, `adoptState`, `step`: The methods of the environment.
* `episodeSteps`: How many actions the last episode in some replies has come to.
* `InStep`: What the environment and its session agree on.
* `Dead`: An episode that a fault has ended.

## Theorems

* `told_perform`: Every call keeps the two agreed.
* `dead_perform`, `step_of_dead`: What becomes of an episode that a fault has ended.
* `env_in_step`: No action is taken for one of another state, and steps are counted.
* `env_fault_is_final`: A fault ends an episode.
-/

namespace STS2RL

namespace Combat

namespace Live

open WholeRun (GameAccess)
open Api (PyError)

variable {γ ς κ π β ρ : Type}

/-- `CombatEnv`. -/
structure CombatEnv (γ ς κ π β : Type) where
  session : LiveSession γ ς κ β
  state : Option (BattleState β) := none
  scenarioSpec : Option π := none
  stepIndex : Nat := 0

namespace CombatEnv

/-- `_observation`. The seed, the character and the ascension are in the state. -/
structure Observation (β : Type) where
  stepIndex : Nat
  turn : Int
  isTerminal : Bool
  outcome : String
  state : EngineState β

/-- What `step` returns. -/
structure Transition (β ρ : Type) where
  actionId : Int
  reward : ρ
  done : Bool
  observation : Observation β
  legalActions : List LegalAction
  stepIndex : Nat
  outcome : String

/-- A program of the environment. -/
abbrev EnvMethod (γ ς κ π β α : Type) := Act SessionError (CombatEnv γ ς κ π β) α

/-- A method of the session. -/
def onSession {α : Type} (method : Method γ ς κ β α) : EnvMethod γ ς κ π β α :=
  Act.zoom (·.session) (fun session env => { env with session }) method

/-- What a state shows to an agent. -/
def observe (state : BattleState β) (stepIndex : Nat) : Observation β :=
  ⟨stepIndex, state.turn, state.isTerminal, state.outcome, state.engineState⟩

/-- `default_reward_fn`. -/
def defaultRewardFn (prevState : Option (BattleState β)) (_action : LegalAction)
    (nextState : BattleState β) (done : Bool) : Int :=
  let lost := match prevState with
    | some prev => -max 0 (prev.engineState.hp.getD 0 - nextState.engineState.hp.getD 0)
    | none => 0
  let won :=
    if done then
      if nextState.outcome.toLower = "victory" then 100
      else if nextState.outcome.toLower = "defeat" then -100
      else 0
    else 0
  lost + won

variable (env : SessionEnv γ ς κ π β)

/-- An episode is begun in a state. -/
def beginEpisode (state : BattleState β) : EnvMethod γ ς κ π β (Observation β) := do
  Act.modify fun s => { s with state := some state, stepIndex := 0 }
  pure (observe state 0)

/-- `reset`. -/
def reset (scenarioSpec : π) : EnvMethod γ ς κ π β (Observation β) := do
  Act.modify fun s => { s with scenarioSpec := some scenarioSpec }
  let state ← onSession (startCombat env scenarioSpec)
  beginEpisode state

/-- `adopt_state`. -/
def adoptState (battleState : BattleState β) (scenarioSpec : π) :
    EnvMethod γ ς κ π β (Observation β) := do
  Act.modify fun s => { s with scenarioSpec := some scenarioSpec }
  let state ← onSession (resumeFrom env battleState)
  beginEpisode state

/-- The error of an environment that was never reset. -/
def notReset : SessionError := .python (.raised "RuntimeError"
  "CombatEnv.reset(scenario_spec) must be called before get_legal_actions()/step()")

/-- The legal actions of a state. -/
def offered (state : BattleState β) : List LegalAction :=
  if state.isTerminal then [] else state.cachedLegalActions.getD []

/-- `get_legal_actions`. -/
def legalActions : EnvMethod γ ς κ π β (List LegalAction) := do
  let s ← Act.get
  match s.state with
  | none => Act.raise notReset
  | some state => pure (offered state)

/-- `step`. The reward function is taken to return: the state and the index are set before
    it is called, so one that raised would leave a step counted for which no transition is
    handed out. -/
def step (rewardFn : Option (BattleState β) → LegalAction → BattleState β → Bool → ρ)
    (action : LegalAction) (targetEnemyIndex targetIndex : Option Int)
    (continuationResolver : Option (Resolver γ β)) : EnvMethod γ ς κ π β (Transition β ρ) := do
  let s ← Act.get
  match s.state with
  | none => Act.raise notReset
  | some prevState => do
      let nextState ← onSession (Live.step env prevState action targetIndex targetEnemyIndex
        continuationResolver false)
      Act.modify fun s => { s with state := some nextState, stepIndex := s.stepIndex + 1 }
      pure {
        actionId := action.actionId
        reward := rewardFn (some prevState) action nextState nextState.isTerminal
        done := nextState.isTerminal
        observation := observe nextState (s.stepIndex + 1)
        legalActions := offered nextState
        stepIndex := s.stepIndex + 1
        outcome := nextState.outcome }

/-- A call of the environment, or a use of the game by somebody else. -/
inductive EnvCall (γ π β : Type) where
  | reset (scenarioSpec : π)
  | adoptState (battleState : BattleState β) (scenarioSpec : π)
  | legalActions
  | step (action : LegalAction) (targetEnemyIndex targetIndex : Option Int)
      (continuationResolver : Option (Resolver γ β))
  | others (game : γ) (access : GameAccess)

/-- What an environment answers. -/
inductive EnvReply (β ρ : Type) where
  | begun (observation : Observation β)
  | transition (transition : Transition β ρ)
  | legalActions (legalActions : List LegalAction)
  | done
  | error (error : SessionError)

/-- The outcome as a reply. -/
def answered {α : Type} (reply : α → EnvReply β ρ) (method : EnvMethod γ ς κ π β α)
    (s : CombatEnv γ ς κ π β) : CombatEnv γ ς κ π β × EnvReply β ρ :=
  match method s with
  | (.ok value, s) => (s, reply value)
  | (.error error, s) => (s, .error error)

variable (rewardFn : Option (BattleState β) → LegalAction → BattleState β → Bool → ρ)

/-- One call. -/
def perform (s : CombatEnv γ ς κ π β) :
    EnvCall γ π β → CombatEnv γ ς κ π β × EnvReply β ρ
  | .reset spec => answered .begun (reset env spec) s
  | .adoptState state spec => answered .begun (adoptState env state spec) s
  | .legalActions => answered .legalActions legalActions s
  | .step action targetEnemyIndex targetIndex resolver =>
      answered .transition (step env rewardFn action targetEnemyIndex targetIndex resolver) s
  | .others game access => ({ s with session := { s.session with game, access } }, .done)

/-- `__init__`. -/
def new (game : γ) (access : GameAccess) (leaseHolder : Nat) : CombatEnv γ ς κ π β :=
  { session := .new game access leaseHolder }

/-- How many actions have been played, after a reply. -/
def EnvReply.stepsAfter (steps : Nat) : EnvReply β ρ → Nat
  | begun _ => 0
  | transition _ => steps + 1
  | _ => steps

/-- How many actions the last episode in some replies has come to. -/
def episodeSteps (replies : List (EnvReply β ρ)) : Nat := replies.foldl EnvReply.stepsAfter 0

/-- The session compares with the state of the environment. -/
def InStep (s : CombatEnv γ ς κ π β) : Prop :=
  s.session.currentFrame = s.state.bind (·.decisionFrame)

/-- What one call leaves and answers. -/
structure Told (before : CombatEnv γ ς κ π β) (after : CombatEnv γ ς κ π β × EnvReply β ρ) :
    Prop where
  inStep : InStep after.1
  counted : after.1.stepIndex = after.2.stepsAfter before.stepIndex
  matched : ∀ error, after.2 = .error error → error.isMismatch = false
  shown : ∀ transition, after.2 = .transition transition →
    transition.stepIndex = before.stepIndex + 1

/-!
### One call

What a call replies, and what it leaves of the episode.
-/

section Steps

open Act

variable {env rewardFn}

theorem onSession_apply {α : Type} (method : Method γ ς κ β α) (s : CombatEnv γ ς κ π β) :
    (onSession method : EnvMethod γ ς κ π β α) s =
      ((method s.session).1, { s with session := (method s.session).2 }) := rfl

/-- A method of the session that hands a state out, from a session that is in step. -/
theorem onSession_handed {presented : Option DecisionFrame → Prop}
    {method : Method γ ς κ β (BattleState β)} (h : Handed presented method)
    (s : CombatEnv γ ς κ π β) (hs : InStep s) :
    ∃ outcome session, (onSession method : EnvMethod γ ς κ π β _) s =
        (outcome, { s with session }) ∧ method s.session = (outcome, session) ∧
      (∀ state, outcome = .ok state → session.currentFrame = state.decisionFrame) ∧
      ∀ error, outcome = .error error →
        Refused presented (s.state.bind (·.decisionFrame)) error session := by
  have hends := h _ s.session hs
  rw [onSession_apply]
  generalize method s.session = ended at hends ⊢
  rcases ended with ⟨error | state, session⟩
  · refine ⟨_, session, rfl, rfl, fun _ h => (by cases h), fun e h => ?_⟩
    cases h
    exact hends
  · refine ⟨_, session, rfl, rfl, fun _ h => ?_, fun _ h => by cases h⟩
    cases h
    exact hends

/-- An episode is begun, or nothing but the scenario is put down. -/
theorem told_begun {method : Method γ ς κ β (BattleState β)}
    (h : Handed (fun _ => True) method) (spec : π) {s : CombatEnv γ ς κ π β} (hs : InStep s) :
    Told s (answered (ρ := ρ) .begun (do
      Act.modify fun s => { s with scenarioSpec := some spec }
      let state ← onSession method
      beginEpisode state : EnvMethod γ ς κ π β (Observation β)) s) := by
  unfold answered
  rw [modify_bind]
  rcases onSession_handed h { s with scenarioSpec := some spec } hs with
    ⟨outcome, session, heq, -, hok, herror⟩
  rcases outcome with error | state
  · rw [bind_of_error _ heq]
    refine ⟨(herror error rfl).kept, rfl, fun e h => ?_, fun _ h => by cases h⟩
    cases h
    exact (herror error rfl).matched trivial
  · rw [bind_of_ok _ heq]
    exact ⟨hok state rfl, rfl, fun _ h => (by cases h), fun _ h => by cases h⟩

/-- An action is played from the state that the session compares with. -/
theorem told_step (action : LegalAction) (targetEnemyIndex targetIndex : Option Int)
    (resolver : Option (Resolver γ β)) {s : CombatEnv γ ς κ π β} (hs : InStep s) :
    Told s (answered .transition
      (step env rewardFn action targetEnemyIndex targetIndex resolver) s) := by
  unfold answered step
  rw [get_bind]
  rcases hstate : s.state with _ | prevState
  · exact ⟨hs, rfl, fun _ h => (by cases h; rfl), fun _ h => by cases h⟩
  dsimp only
  rcases onSession_handed (handed_step env prevState action targetIndex targetEnemyIndex resolver
    false) s hs with ⟨outcome, session, heq, -, hok, herror⟩
  rcases outcome with error | state
  · rw [bind_of_error _ heq]
    refine ⟨(herror error rfl).kept, rfl, fun e h => ?_, fun _ h => by cases h⟩
    cases h
    exact (herror error rfl).matched (by rw [hstate]; rfl)
  · rw [bind_of_ok _ heq]
    exact ⟨hok state rfl, rfl, fun _ h => (by cases h), fun _ h => by cases h; rfl⟩

/-- Every call keeps the environment and its session in step. -/
theorem told_perform {s : CombatEnv γ ς κ π β} (hs : InStep s) (call : EnvCall γ π β) :
    Told s (perform env rewardFn s call) := by
  cases call with
  | reset spec => exact told_begun (handed_startCombat env spec) spec hs
  | adoptState state spec => exact told_begun (handed_resumeFrom env state) spec hs
  | legalActions =>
      refine show Told s (answered .legalActions legalActions s) from ?_
      unfold answered legalActions
      rw [get_bind]
      rcases s.state with _ | state
      · exact ⟨hs, rfl, fun _ h => (by cases h; rfl), fun _ h => by cases h⟩
      · exact ⟨hs, rfl, fun _ h => (by cases h), fun _ h => by cases h⟩
  | step action targetEnemyIndex targetIndex resolver =>
      exact told_step action targetEnemyIndex targetIndex resolver hs
  | others game access => exact ⟨hs, rfl, fun _ h => (by cases h), fun _ h => by cases h⟩

end Steps

/-!
### Runs

The number of the next step is that of the steps replied since the last reset.
-/

section Runs

variable (game : γ) (access : GameAccess) (holder : Nat)

theorem inStep_final (run : List (EnvCall γ π β)) :
    InStep (Run.final (perform env rewardFn) (new game access holder) run) :=
  Run.invariant (perform env rewardFn) (I := InStep)
    (fun _ call hs => (told_perform hs call).inStep) _ run rfl

theorem stepIndex_final (run : List (EnvCall γ π β)) :
    (Run.final (perform env rewardFn) (new game access holder) run).stepIndex =
      episodeSteps (Run.outputs (perform env rewardFn) (new game access holder) run) := by
  induction run using List.reverseRecOn with
  | nil => rfl
  | append_singleton run call ih =>
      rw [Run.final_concat, Run.outputs_concat,
        (told_perform (inStep_final env rewardFn game access holder run) call).counted, ih]
      unfold episodeSteps
      rw [List.foldl_append]
      rfl

/-- In every run of an environment, whatever the game answers and whoever else uses it: no
    call is refused because of an action of another state, and a transition says how many
    actions its episode has come to. -/
theorem env_in_step (past : List (EnvCall γ π β)) (call : EnvCall γ π β) :
    let start : CombatEnv γ ς κ π β := new game access holder
    let reply := (perform env rewardFn (Run.final (perform env rewardFn) start past) call).2
    (∀ submitted current, reply ≠ .error (.decisionFrameMismatch submitted current)) ∧
      ∀ transition, reply = .transition transition → transition.stepIndex =
        episodeSteps (Run.outputs (perform env rewardFn) start (past ++ [call])) := by
  intro start reply
  have htold : Told (Run.final (perform env rewardFn) start past)
      (perform env rewardFn (Run.final (perform env rewardFn) start past) call) :=
    told_perform (inStep_final env rewardFn game access holder past) call
  refine ⟨fun submitted current hreply => ?_, fun transition hreply => ?_⟩
  · have hmatched := htold.matched _ hreply
    cases hmatched
  · have hcounted := stepIndex_final env rewardFn game access holder (past ++ [call])
    rw [Run.final_concat] at hcounted
    rw [htold.shown transition hreply, ← hcounted, htold.counted]
    refine Eq.symm (show EnvReply.stepsAfter _ reply = _ from ?_)
    rw [hreply]
    rfl

end Runs

/-!
### Faults

A session that has faulted plays nothing, until a combat is set up in the game again.
-/

section Faults

open Act

variable {env rewardFn}

/-- The mark of a fault. -/
def Marked (s : LiveSession γ ς κ β) : Prop := s.sessionFaulted = true

theorem marked_ask {α : Type} (act : Act ClrException γ α)
    (note : Bool → Except ClrException α → GameCall ς κ β) : Keeps Marked (ask act note) :=
  triple_ask (fun _ _ _ h => h) fun _ _ _ h => h

theorem marked_mutatingGame : Keeps Marked (mutatingGame : Method γ ς κ β Unit) :=
  (triple_mutatingGame fun _ _ _ h => h).conseq (fun _ h => h) (fun _ _ h => h.1) fun _ _ h => h

/-- Only a combat that is set up clears it. -/
def ClearsLast (method : Method γ ς κ β (BattleState β)) : Prop :=
  Triple Marked method (fun _ _ => True) fun _ => Marked

theorem clearsLast_startCombat (spec : π) : ClearsLast (startCombat env spec) :=
  Triple.bind (keeps_python _) fun _ => Triple.bind marked_mutatingGame fun _ =>
    Triple.bind ((marked_ask _ _).onError fun e => keeps_quiescentRaised e) fun _ =>
      fun _ _ => trivial

theorem clearsLast_resumeFrom (state : BattleState β) : ClearsLast (resumeFrom env state) :=
  Triple.bind marked_mutatingGame fun _ => Triple.bind (keeps_python _) fun _ =>
    Triple.bind ((marked_ask _ _).onError fun e => keeps_quiescentRaised e) fun _ =>
      Triple.bind (marked_ask _ _) fun _ => Triple.bind (marked_ask _ _) fun _ =>
        fun _ _ => trivial

/-- An episode that a fault has ended. -/
structure Dead (s : CombatEnv γ ς κ π β) : Prop where
  inStep : InStep s
  faulted : s.session.sessionFaulted = true
  state : ∃ state, s.state = some state ∧ state.decisionFrame ≠ none

/-- No action is played in it, and the game is not called. -/
theorem step_of_dead {s : CombatEnv γ ς κ π β} (h : Dead s) (action : LegalAction)
    (targetEnemyIndex targetIndex : Option Int) (resolver : Option (Resolver γ β)) :
    ∃ combatSessionId, perform env rewardFn s (.step action targetEnemyIndex targetIndex resolver) =
      (s, .error (.faultedCombatSession combatSessionId)) := by
  rcases h.state with ⟨state, hstate, hframe⟩
  have hcurrent : s.session.currentFrame = state.decisionFrame := by
    rw [h.inStep, hstate]
    rfl
  have hstep : Live.step env state action targetIndex targetEnemyIndex resolver false s.session =
      (.error (.faultedCombatSession (s.session.currentFrame.bind (·.combatSessionId))),
        s.session) := by
    rcases hsome : s.session.currentFrame with _ | frame
    · exact absurd (hcurrent.symm.trans hsome) hframe
    unfold Live.step
    rw [get_bind, hsome]
    dsimp only
    rw [bind_of_error _ (ensureSessionNotFaulted_of_faulted h.faulted), hsome]
  refine ⟨s.session.currentFrame.bind (·.combatSessionId), ?_⟩
  refine show answered .transition (step env rewardFn action targetEnemyIndex targetIndex
    resolver) s = _ from ?_
  unfold answered step
  rw [get_bind, hstate]
  dsimp only
  have hmethod := onSession_apply (Live.step env state action targetIndex targetEnemyIndex resolver
    false) s
  rw [hstep] at hmethod
  rw [bind_of_error _ hmethod]

/-- A reset or an adoption that hands no state out leaves the environment dead. -/
theorem dead_begun {method : Method γ ς κ β (BattleState β)}
    (h : Handed (fun _ => True) method) (hlast : ClearsLast method) (spec : π)
    {s : CombatEnv γ ς κ π β} (hs : Dead s) {after : CombatEnv γ ς κ π β × EnvReply β ρ}
    (hafter : answered .begun (do
      Act.modify fun s => { s with scenarioSpec := some spec }
      let state ← onSession method
      beginEpisode state : EnvMethod γ ς κ π β (Observation β)) s = after)
    (hreply : ∀ observation, after.2 ≠ .begun observation) : Dead after.1 := by
  have hmarked := hlast s.session hs.faulted
  unfold answered at hafter
  rw [modify_bind] at hafter
  rcases onSession_handed h { s with scenarioSpec := some spec } hs.inStep with
    ⟨outcome, session, heq, hsession, -, herror⟩
  rw [show method s.session = (outcome, session) from hsession] at hmarked
  rcases outcome with error | state
  · rw [bind_of_error _ heq] at hafter
    subst hafter
    exact ⟨(herror error rfl).kept, hmarked, hs.state⟩
  · rw [bind_of_ok _ heq] at hafter
    subst hafter
    exact absurd rfl (hreply _)

/-- Only beginning another episode brings it back. -/
theorem dead_perform {s : CombatEnv γ ς κ π β} (h : Dead s) (call : EnvCall γ π β)
    (hreply : ∀ observation, (perform env rewardFn s call).2 ≠ .begun observation) :
    Dead (perform env rewardFn s call).1 := by
  cases call with
  | reset spec =>
      exact dead_begun (handed_startCombat env spec) (clearsLast_startCombat spec) spec h rfl hreply
  | adoptState state spec =>
      exact dead_begun (handed_resumeFrom env state) (clearsLast_resumeFrom state) spec h rfl hreply
  | legalActions =>
      rcases h.state with ⟨state, hstate, hframe⟩
      refine show Dead (answered .legalActions legalActions s).1 from ?_
      unfold answered legalActions
      rw [get_bind, hstate]
      exact h
  | step action targetEnemyIndex targetIndex resolver =>
      have hrefused : ∃ combatSessionId, perform env rewardFn s
          (.step action targetEnemyIndex targetIndex resolver) =
            (s, .error (.faultedCombatSession combatSessionId)) :=
        step_of_dead h action targetEnemyIndex targetIndex resolver
      rcases hrefused with ⟨combatSessionId, heq⟩
      rw [heq]
      exact h
  | others game access => exact ⟨h.inStep, h.faulted, h.state⟩

/-- A step that reports a fault ends its episode. -/
theorem dead_of_fault {s : CombatEnv γ ς κ π β} (hs : InStep s) (action : LegalAction)
    (targetEnemyIndex targetIndex : Option Int) (resolver : Option (Resolver γ β))
    {error : SessionError} (hfault : error.isFault = true)
    {after : CombatEnv γ ς κ π β × EnvReply β ρ}
    (hafter : perform env rewardFn s (.step action targetEnemyIndex targetIndex resolver) = after)
    (hreply : after.2 = .error error) : Dead after.1 := by
  have hperform : answered .transition (step env rewardFn action targetEnemyIndex targetIndex
      resolver) s = after := hafter
  unfold answered step at hperform
  rw [get_bind] at hperform
  rcases hstate : s.state with _ | prevState
  · rw [hstate] at hperform
    subst hperform
    cases hreply
    cases hfault
  rw [hstate] at hperform
  dsimp only at hperform
  rcases onSession_handed (handed_step env prevState action targetIndex targetEnemyIndex resolver
    false) s hs with ⟨outcome, session, heq, hsession, -, herror⟩
  rcases outcome with e | state
  · rw [bind_of_error _ heq] at hperform
    subst hperform
    cases hreply
    have hrefused := herror error rfl
    refine ⟨hrefused.kept, hrefused.marked hfault, prevState, hstate, fun hnone => ?_⟩
    -- Without a frame the session has not been started, and says so.
    have hcurrent : s.session.currentFrame = none := by
      rw [hs, hstate]
      exact hnone
    unfold Live.step at hsession
    rw [get_bind, hcurrent] at hsession
    cases hsession
    cases hfault
  · rw [bind_of_ok _ heq] at hperform
    subst hperform
    cases hreply

theorem dead_final {s : CombatEnv γ ς κ π β} (h : Dead s) (run : List (EnvCall γ π β))
    (hrun : ∀ reply ∈ Run.outputs (perform env rewardFn) s run, ∀ observation,
      reply ≠ .begun observation) : Dead (Run.final (perform env rewardFn) s run) := by
  induction run generalizing s with
  | nil => exact h
  | cons call run ih =>
      refine ih (dead_perform h call (hrun _ List.mem_cons_self)) fun reply hreply => ?_
      exact hrun reply (List.mem_cons_of_mem _ hreply)

/-- In every run: after an action that faults, and until another episode is begun, every
    action is refused, and neither the game nor the environment notices it. -/
theorem env_fault_is_final (env : SessionEnv γ ς κ π β)
    (rewardFn : Option (BattleState β) → LegalAction → BattleState β → Bool → ρ) (game : γ)
    (access : GameAccess) (holder : Nat) (past : List (EnvCall γ π β)) (action : LegalAction)
    (targetEnemyIndex targetIndex : Option Int) (resolver : Option (Resolver γ β))
    (context : ActionFaultContext)
    (hfault : (perform env rewardFn (Run.final (perform env rewardFn)
      (new game access holder : CombatEnv γ ς κ π β) past)
        (.step action targetEnemyIndex targetIndex resolver)).2 = .error (.actionExecution context))
    (run : List (EnvCall γ π β))
    (hrun : ∀ reply ∈ Run.outputs (perform env rewardFn) (Run.final (perform env rewardFn)
      (new game access holder : CombatEnv γ ς κ π β)
        (past ++ [.step action targetEnemyIndex targetIndex resolver])) run,
          ∀ observation, reply ≠ .begun observation)
    (nextAction : LegalAction) (nextEnemyIndex nextIndex : Option Int)
    (nextResolver : Option (Resolver γ β)) :
    let s := Run.final (perform env rewardFn) (new game access holder : CombatEnv γ ς κ π β)
      (past ++ .step action targetEnemyIndex targetIndex resolver :: run)
    ∃ combatSessionId, perform env rewardFn s
        (.step nextAction nextEnemyIndex nextIndex nextResolver) =
      (s, .error (.faultedCombatSession combatSessionId)) := by
  intro s
  have hisFault : (SessionError.actionExecution context).isFault = true := rfl
  have hdead := dead_of_fault (inStep_final env rewardFn game access holder past) action
    targetEnemyIndex targetIndex resolver hisFault rfl hfault
  rw [← Run.final_concat] at hdead
  have hfinal := dead_final hdead run hrun
  rw [← Run.final_append, List.append_assoc] at hfinal
  exact step_of_dead hfinal nextAction nextEnemyIndex nextIndex nextResolver

/-- The game that counts, but faults in every action. -/
def faultingEnv : SessionEnv Nat Unit Unit Unit Unit :=
  { countingEnv with step := fun _ count => (.error (.actionFaulted "boom"), count) }

/-- After a fault the legal actions are read, and another action is tried. -/
theorem env_fault_is_final_small : ∃ combatSessionId,
    let s := Run.final (perform faultingEnv defaultRewardFn) (new 0 {} 1)
      [.reset (), .step countingStrike none none none, .legalActions]
    perform faultingEnv defaultRewardFn s (.step countingStrike none none none) =
      (s, .error (.faultedCombatSession combatSessionId)) := by
  refine env_fault_is_final faultingEnv defaultRewardFn 0 {} 1 [.reset ()] countingStrike none none
    none ⟨some ⟨some "session", 0, none⟩, countingStrike, none, none, "boom"⟩ rfl [.legalActions]
    (fun reply hreply observation => ?_) countingStrike none none none
  have hlisted : reply ∈ [EnvReply.legalActions [countingStrike]] := hreply
  rw [List.mem_singleton.mp hlisted]
  exact fun h => by cases h

end Faults

end CombatEnv

end Live

end Combat

end STS2RL
