import STS2RL.Combat.LiveSession
import STS2RL.Combat.MainLoop

/-!
# Replays and the Main Loop on the Live Session

Replays and the main loop are written against a session that starts a combat, plays an
action, offers actions and captures a snapshot. The live session is one, so what it
promises of every call holds of the calls that they make: an action is sent with the
lease, in a game that has not faulted, where it was chosen. Neither ever plays in
another state than the last it was handed, so no step of theirs is refused as stale.

A room is entered by a map session, which is not part of the live one; what enters it
is a parameter.

## Main definitions

* `BattleState.seen`: A state that was handed out, as replays look at it.
* `asCombatSession`: The live session as one of theirs.
* `InPlace`: The state is the last one handed out, by a session that is safe.

## Theorems

* `step_inPlace`: A step leads from a state in place to one in place, or is refused for
  another reason than a stale frame.
* `replayDecisionContext_inPlace`: A replay plays in place.
* `moves_inPlace`: So does the main loop.
-/

namespace STS2RL

namespace Combat

namespace Live

open Act LiveSession

variable {γ ς κ β : Type}

/-- A state that was handed out. It stands itself for what replays do not look into. -/
def BattleState.seen (state : BattleState β) : Combat.BattleState (BattleState β) where
  board := state
  isTerminal := state.isTerminal
  pendingChoice := state.engineState.pendingChoice
  cachedLegalActions := state.cachedLegalActions
  decisionFrame := state.decisionFrame

section Interface

variable (env : SessionEnv γ ς κ Json β)
  (enterRoom : RoomEntryReplayRoot → Method γ ς κ β (BattleState β))
  (captureBoundary : κ → Option String) (describe : SessionError → PyException)

/-- What a method comes to, as the caller sees it. -/
def outcome (method : Method γ ς κ β (BattleState β)) (s : LiveSession γ ς κ β) :
    LiveSession γ ς κ β × Except PyException (Combat.BattleState (BattleState β)) :=
  ((method s).2, ((method s).1.map BattleState.seen).mapError describe)

/-- `bootstrap` of a root. -/
def bootstrap : SearchRoot κ → Method γ ς κ β (BattleState β)
  | .combatStart root => startCombat env root.scenarioSpec
  | .snapshot captured => restoreSnapshot env captured
  | .roomEntry root => enterRoom root

/-- The live session as one that is replayed on. Continuations are left open. What is
    only read leaves the game as it is. -/
def asCombatSession : CombatSession (LiveSession γ ς κ β) κ (BattleState β) where
  bootstrap root := outcome describe (bootstrap env enterRoom root)
  step state action targetIndex targetEnemyIndex :=
    outcome describe (step env state.board action targetIndex targetEnemyIndex none true)
  getLegalActions s := (getLegalActions env s).1.mapError describe
  captureSnapshot s := (captureSnapshot env s).1.mapError describe
  captureBoundary := captureBoundary

end Interface

section InPlace

variable (env : SessionEnv γ ς κ Json β)
  {enterRoom : RoomEntryReplayRoot → Method γ ς κ β (BattleState β)}
  (captureBoundary : κ → Option String) (describe : SessionError → PyException)

/-- The state is the last one that was handed out, and the session is safe. -/
structure InPlace (state : Combat.BattleState (BattleState β)) (s : LiveSession γ ς κ β) :
    Prop where
  seen : state.board.seen = state
  safe : s.Safe env
  current : s.currentFrame = state.decisionFrame

/-- A method that hands out states, and keeps the session safe. -/
structure HandsOut (presented : Option DecisionFrame → Prop)
    (method : Method γ ς κ β (BattleState β)) : Prop where
  safe : Keeps (fun s => s.Safe env) method
  handed : Handed presented method

variable {env}

/-- What is handed out is in place. -/
theorem HandsOut.inPlace {presented : Option DecisionFrame → Prop}
    {method : Method γ ς κ β (BattleState β)} (h : HandsOut env presented method)
    {s : LiveSession γ ς κ β} (hs : s.Safe env) :
    (outcome describe method s).1.Safe env ∧
      ∀ state s', outcome describe method s = (s', .ok state) → InPlace env state s' := by
  refine ⟨h.safe.after hs, fun state s' heq => ?_⟩
  have hafter := h.safe.after hs
  have hframe := h.handed s.currentFrame s rfl
  unfold outcome at heq
  generalize method s = ended at hafter hframe heq
  rcases ended with ⟨_ | handed, s''⟩
  · cases heq
  · cases heq
    exact ⟨rfl, hafter, hframe⟩

theorem handsOut_bootstrap (hroom : ∀ room, HandsOut env (fun _ => True) (enterRoom room))
    (root : SearchRoot κ) : HandsOut env (fun _ => True) (bootstrap env enterRoom root) := by
  cases root with
  | combatStart root => exact ⟨keeps_startCombat env _, handed_startCombat env _⟩
  | snapshot captured => exact ⟨keeps_restoreSnapshot env _, handed_restoreSnapshot env _⟩
  | roomEntry root => exact hroom root

/-- A step from the state that was handed out last hands out the next one, or is refused
    for another reason than a stale frame. -/
theorem step_inPlace {state : Combat.BattleState (BattleState β)} {s : LiveSession γ ς κ β}
    (h : InPlace env state s) (action : LegalAction) (targetIndex targetEnemyIndex : Option Int) :
    (outcome describe (step env state.board action targetIndex targetEnemyIndex none true)
      s).1.Safe env ∧
    (∀ next s', outcome describe (step env state.board action targetIndex targetEnemyIndex none
      true) s = (s', .ok next) → InPlace env next s') ∧
    ∀ e s', step env state.board action targetIndex targetEnemyIndex none true s = (.error e, s') →
      e.isMismatch = false := by
  have hhanded := handed_step env state.board action targetIndex targetEnemyIndex none true
  have hsafe := keeps_step env state.board action targetIndex targetEnemyIndex none true
  have hout : HandsOut env _ _ := ⟨hsafe, hhanded⟩
  refine ⟨(hout.inPlace describe h.safe).1, (hout.inPlace describe h.safe).2, fun e s' heq => ?_⟩
  have hrefused := hhanded s.currentFrame s rfl
  rw [heq] at hrefused
  have hframe : state.board.decisionFrame = s.currentFrame := by
    rw [h.current, ← h.seen]
    rfl
  exact hrefused.matched hframe

/-- The loop over a prefix starts and ends in place. -/
theorem replayEntries_inPlace (enterRoom : RoomEntryReplayRoot → Method γ ς κ β (BattleState β))
    (captureBoundary : κ → Option String) (describe : SessionError → PyException)
    (entries : List ReplayPrefixEntry) :
    ∀ (index : Nat) (state : Combat.BattleState (BattleState β))
      (lastObserved : Option DecisionSignature) (s : LiveSession γ ς κ β), InPlace env state s →
      (replayEntries (asCombatSession env enterRoom captureBoundary describe) index state
        lastObserved entries s).1.Safe env ∧
      ∀ final observed s', replayEntries (asCombatSession env enterRoom captureBoundary describe)
        index state lastObserved entries s = (s', .ok (.inr (final, observed))) →
        InPlace env final s' := by
  -- The induction is on the entries that are left; each is played where the one before ended.
  induction entries with
  | nil =>
      intro index state lastObserved s h
      refine ⟨h.safe, fun final observed s' heq => ?_⟩
      cases heq
      exact h
  | cons entry rest ih =>
      intro index state lastObserved s h
      unfold replayEntries
      split
      · exact ⟨h.safe, fun final observed s' heq => by cases heq⟩
      · split
        · exact ⟨h.safe, fun final observed s' heq => by cases heq⟩
        · rename_i legal hresolved
          -- A step is played in place, whether it fails, goes astray or matches.
          have hstep := step_inPlace describe h legal entry.targetIndex entry.targetEnemyIndex
          split
          · rename_i s' exc hended
            have hended' : outcome describe _ s = _ := hended
            rw [hended'] at hstep
            exact ⟨hstep.1, fun final observed s'' heq => by cases heq⟩
          · rename_i s' next hended
            have hnext := hstep.2.1 next s' hended
            dsimp only
            split
            · exact ⟨hnext.safe, fun final observed s'' heq => by cases heq⟩
            · exact ih _ _ _ _ hnext

/-- A replay on a safe session plays in place, and ends in the last state it was handed. -/
theorem replayDecisionContext_inPlace
    (hroom : ∀ room, HandsOut env (fun _ => True) (enterRoom room))
    (context : DecisionContext κ (BattleState β)) {s : LiveSession γ ς κ β} (hs : s.Safe env) :
    (replayDecisionContext (asCombatSession env enterRoom captureBoundary describe) context
      s).1.Safe env ∧
    ∀ state s', replayDecisionContext (asCombatSession env enterRoom captureBoundary describe)
      context s = (s', .ok (.success state)) → InPlace env state s' := by
  -- The bootstrap hands out the state it leaves the session in.
  have hbootstrap := (handsOut_bootstrap hroom context.rootSnapshot).inPlace describe hs
  unfold replayDecisionContext
  split
  · exact ⟨hs, fun state s' heq => by cases heq⟩
  split
  · rename_i s' exc hended
    have hended' : outcome describe _ s = _ := hended
    rw [hended'] at hbootstrap
    exact ⟨hbootstrap.1, fun state s'' heq => by cases heq⟩
  rename_i s' state hended
  have hstate := hbootstrap.2 state s' hended
  -- A root that is not verified ends the replay there.
  split
  · exact ⟨hstate.safe, fun final s'' heq => by cases heq⟩
  · rename_i failed hverified
    refine ⟨hstate.safe, fun final s'' heq => ?_⟩
    cases heq
    exact absurd rfl ((verifyRoot_spec _ context state s' _ hverified).1 final)
  -- So does an entry, wherever the replay of the entries stops.
  have hreplayed := replayEntries_inPlace enterRoom captureBoundary describe context.replayPrefix 0
    state none s' hstate
  split
  · rename_i s'' exc hentries
    rw [hentries] at hreplayed
    exact ⟨hreplayed.1, fun final t' heq => by cases heq⟩
  · rename_i s'' failed hentries
    rw [hentries] at hreplayed
    refine ⟨hreplayed.1, fun final t' heq => ?_⟩
    cases heq
    exact absurd hentries (replayEntries_eq_inl _ _ _ _ _ _ _ _)
  · rename_i s'' final observed hentries
    have hfinal := hreplayed.2 final observed s'' hentries
    refine ⟨hfinal.safe, fun final' t' heq => ?_⟩
    have harrived : verifyArrival context final observed = .success final' :=
      Except.ok.inj (congrArg Prod.snd heq)
    have hsession : s'' = t' := congrArg Prod.fst heq
    rw [← hsession]
    -- Arriving changes nothing, so the session is where the last entry left it.
    unfold verifyArrival at harrived
    dsimp only at harrived
    split at harrived
    · split at harrived
      · cases harrived
      · cases harrived
        exact hfinal
    · split at harrived
      · cases harrived
      · cases harrived
        exact hfinal

/-- The main loop plays in place, from the state it begins with. -/
theorem moves_inPlace (publicPiles : BattleState β → PublicPiles)
    {loop final : MainLoop (LiveSession γ ς κ β) κ (BattleState β)}
    (h : Relation.ReflTransGen
      (Move (asCombatSession env enterRoom captureBoundary describe) publicPiles) loop final)
    (hloop : InPlace env loop.currentResult loop.session) :
    InPlace env final.currentResult final.session := by
  induction h with
  | refl => exact hloop
  | tail _ hmove ih =>
      cases hmove with
      | captured snapshot hstable hcapture => exact ih
      | searched root context hidle hroot hcontext => exact ih
      | planned plan hidle => exact ih
      | unresolved planned rest hplan => exact ih
      | stepped planned rest resolved s next hplan hresolved hstep =>
          exact (step_inPlace describe ih resolved planned.targetIndex
            planned.targetEnemyIndex).2.1 next s
            hstep

end InPlace

end Live

end Combat

end STS2RL
