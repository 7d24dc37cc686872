import STS2RL.Combat.MainLoop

/-!
# What the Main Loop Replays

The log of a run, read back. What was committed since the last capture is a
function of the log, and so is what is left of the plan. Every entry of the log
was allowed by those: a search is given the commits since the last capture and
the root that was captured, a step is the next one of the plan, and nothing
follows a step that failed.

## Main definitions

* `committedSince`, `heldAfter`, `remainingPlan`: What a log amounts to.
* `attempts`: The steps of plans that were tried, and whether the plan went on.
* `AllowedEvent`: What may happen after what has happened.

## Theorems

* `running_of_move`, `replayable_of_move`: What each move keeps.
* `plan_consumed`: A plan is tried from its front, up to the first mismatch.
* `main_loop_replay_invariant`: What holds at every search of every run.
-/

namespace STS2RL

namespace Combat

variable {σ κ β W : Type}

/-!
### The log of a run

What the events of a run say of the loop: what was committed since the root, what is held,
and what is left of the plan.
-/

section Log

/-- What a replay compares of an entry. -/
def ReplayPrefixEntry.transition (entry : ReplayPrefixEntry) :
    SemanticAction × Option Int × Option Int × DecisionSignature :=
  (entry.semanticAction, entry.targetIndex, entry.targetEnemyIndex, entry.expectedSignature)

/-- What a replay compares of a step. -/
def CommittedStep.transition (step : CommittedStep β) :
    SemanticAction × Option Int × Option Int × DecisionSignature :=
  (step.planned.semanticAction, step.planned.targetIndex, step.planned.targetEnemyIndex,
    step.observed)

/-- The steps that were committed since the last capture, or since the start. -/
def committedSince (log : List (MainLoopEvent σ κ β)) : List (CommittedStep β) :=
  log.foldl (fun steps event =>
    match event with
    | .captured _ => []
    | .stepped step => steps ++ [step]
    | .searched _ _ _ => steps
    | .planned _ => steps
    | .unresolved _ => steps
    | .stepFailed _ _ => steps) []

/-- The snapshot that was captured last. -/
def heldAfter (log : List (MainLoopEvent σ κ β)) : Option κ :=
  log.foldl (fun held event =>
    match event with
    | .captured snapshot => some snapshot
    | .searched _ _ _ => held
    | .planned _ => held
    | .unresolved _ => held
    | .stepped _ => held
    | .stepFailed _ _ => held) none

/-- A step of a plan that was tried, and whether the plan goes on with the next. -/
def MainLoopEvent.attempt : MainLoopEvent σ κ β → Option (PlannedStep × Bool)
  | captured _ => none
  | searched _ _ _ => none
  | planned _ => none
  | unresolved step => some (step, false)
  | stepped step => some (step.planned, step.matchesPlan)
  | stepFailed step _ => some (step, false)

/-- The steps of plans that were tried, and whether the plan went on. -/
def attempts (log : List (MainLoopEvent σ κ β)) : List (PlannedStep × Bool) :=
  log.filterMap MainLoopEvent.attempt

/-- What an event leaves of a plan. -/
def planAfter (plan : List PlannedStep) (event : MainLoopEvent σ κ β) : List PlannedStep :=
  match event with
  | .planned adopted => adopted
  | .captured _ => plan
  | .searched _ _ _ => plan
  | .unresolved _ => []
  | .stepped step => if step.matchesPlan then plan.tail else []
  | .stepFailed _ _ => []

/-- What is left of the plan that was adopted last. -/
def remainingPlan (log : List (MainLoopEvent σ κ β)) : List PlannedStep :=
  log.foldl planAfter []

/-- What a decision is replayed from after the log. -/
def rootAfter (combatStart : Option CombatStartReplayRoot) (log : List (MainLoopEvent σ κ β)) :
    Option (SearchRoot κ) :=
  match heldAfter log with
  | some snapshot => some (.snapshot snapshot)
  | none => combatStart.map .combatStart

variable (log : List (MainLoopEvent σ κ β)) (event : MainLoopEvent σ κ β)

theorem remainingPlan_concat : remainingPlan (log ++ [event]) =
    planAfter (remainingPlan log) event := by
  simp [remainingPlan]

@[simp]
theorem committedSince_captured (snapshot : κ) :
    committedSince (log ++ [.captured snapshot]) = [] := by
  simp [committedSince]

@[simp]
theorem committedSince_stepped (step : CommittedStep β) :
    committedSince (log ++ [.stepped step]) = committedSince log ++ [step] := by
  simp [committedSince]

@[simp]
theorem committedSince_searched (context : DecisionContext κ β) (current : BattleState β) (s : σ) :
    committedSince (log ++ [.searched context current s]) = committedSince log := by
  simp [committedSince]

@[simp]
theorem committedSince_planned (plan : List PlannedStep) :
    committedSince (log ++ [.planned plan]) = committedSince log := by
  simp [committedSince]

@[simp]
theorem committedSince_unresolved (step : PlannedStep) :
    committedSince (log ++ [.unresolved step]) = committedSince log := by
  simp [committedSince]

@[simp]
theorem committedSince_stepFailed (step : PlannedStep) (exc : PyException) :
    committedSince (log ++ [.stepFailed step exc]) = committedSince log := by
  simp [committedSince]

theorem heldAfter_captured (snapshot : κ) : heldAfter (log ++ [.captured snapshot]) =
    some snapshot := by
  simp [heldAfter]

theorem heldAfter_concat (hevent : ∀ snapshot, event ≠ .captured snapshot) :
    heldAfter (log ++ [event]) = heldAfter log := by
  cases event with
  | captured snapshot => exact absurd rfl (hevent snapshot)
  | searched context current s => simp [heldAfter]
  | planned plan => simp [heldAfter]
  | unresolved step => simp [heldAfter]
  | stepped step => simp [heldAfter]
  | stepFailed step exc => simp [heldAfter]

/-- What may happen after what has happened. -/
def AllowedEvent (combatStart : Option CombatStartReplayRoot)
    (before : List (MainLoopEvent σ κ β)) (event : MainLoopEvent σ κ β) : Prop :=
  (∀ step exc, .stepFailed step exc ∉ before) ∧
    (∀ attempt, event.attempt = some attempt →
      (remainingPlan before).head? = some attempt.1) ∧
    ∀ context current s, event = .searched context current s →
      context.replayPrefix.map ReplayPrefixEntry.transition =
          (committedSince before).map CommittedStep.transition ∧
        some context.rootSnapshot = rootAfter combatStart before

end Log

/-!
### The plan

Every attempt plays the next step of the plan, and the plan is gone when it ends.
-/

section Plan

variable {combatStart : Option CombatStartReplayRoot}

theorem planAfter_attempt {event : MainLoopEvent σ κ β} {attempt : PlannedStep × Bool}
    (h : event.attempt = some attempt) (plan : List PlannedStep) :
    planAfter plan event = if attempt.2 then plan.tail else [] := by
  cases event <;> cases h <;> rfl

theorem planAfter_no_attempt {event : MainLoopEvent σ κ β} (h : event.attempt = none)
    (hplanned : ∀ plan, event ≠ .planned plan) (plan : List PlannedStep) :
    planAfter plan event = plan := by
  cases event with
  | planned adopted => exact absurd rfl (hplanned adopted)
  | captured snapshot => rfl
  | searched context current s => rfl
  | unresolved step => cases h
  | stepped step => cases h
  | stepFailed step exc => cases h

-- Induction on what followed the plan, from its end: what is left of the plan
-- is what was not tried, or nothing once a try failed.
/-- A plan is tried from its front, up to the first mismatch. -/
theorem plan_consumed {before : List (MainLoopEvent σ κ β)} {plan : List PlannedStep}
    (during : List (MainLoopEvent σ κ β)) (hplanned : ∀ plan', .planned plan' ∉ during)
    (h : History.Justified (AllowedEvent combatStart) (before ++ [.planned plan] ++ during)) :
    ∃ rest, (attempts during).map Prod.fst ++ rest = plan ∧
      (remainingPlan (before ++ [.planned plan] ++ during) = rest ∧
          (∀ attempt ∈ attempts during, attempt.2 = true) ∨
        remainingPlan (before ++ [.planned plan] ++ during) = [] ∧
          ∃ front last, attempts during = front ++ [last] ∧
            ∀ attempt ∈ front, attempt.2 = true) := by
  -- The induction is from the end of what happened since the plan was made.
  induction during using List.reverseRecOn with
  | nil =>
      refine ⟨plan, rfl, .inl ⟨?_, fun attempt hmem => by cases hmem⟩⟩
      rw [List.append_nil, remainingPlan_concat]
      rfl
  | append_singleton during event ih =>
      rw [← List.append_assoc] at h ⊢
      rcases History.justified_concat.mp h with ⟨hbefore, hallowed⟩
      rcases ih (fun plan' hmem => hplanned plan' (List.mem_append_left _ hmem)) hbefore with
        ⟨rest, hplan, hrest⟩
      rw [remainingPlan_concat]
      unfold attempts at hplan hrest ⊢
      rw [List.filterMap_append]
      -- An event that tries no step leaves what is left of the plan, since no other plan is
      -- made.
      cases hattempt : event.attempt with
      | none =>
          have hevent : ∀ plan', event ≠ .planned plan' := fun plan' heq =>
            hplanned plan' (by rw [heq]; exact List.mem_concat_self)
          rw [planAfter_no_attempt hattempt hevent, List.filterMap_cons_none hattempt,
            List.filterMap_nil, List.append_nil]
          exact ⟨rest, hplan, hrest⟩
      -- A step that is tried is the next of the plan.
      | some attempt =>
          have hhead := hallowed.2.1 attempt hattempt
          rw [planAfter_attempt hattempt, List.filterMap_cons_some hattempt, List.filterMap_nil]
          rcases hrest with ⟨hrest, hmatched⟩ | ⟨hrest, _⟩
          · rw [hrest] at hhead ⊢
            rcases List.head?_eq_some_iff.mp hhead with ⟨rest', rfl⟩
            refine ⟨rest', ?_, ?_⟩
            · simpa using hplan
            -- It went as planned and the rest is left, or it did not and nothing is.
            · by_cases hgoes : attempt.2 = true
              · refine .inl ⟨if_pos hgoes, fun tried hmem => ?_⟩
                rcases List.mem_append.mp hmem with hmem | hmem
                · exact hmatched tried hmem
                · rw [List.mem_singleton.mp hmem]
                  exact hgoes
              · exact .inr ⟨if_neg hgoes, _, attempt, rfl, hmatched⟩
          -- After a step that did not go as planned there is no next step.
          · rw [hrest] at hhead
            cases hhead

end Plan

/-!
### The invariants

The state of the loop is what its log says.
-/

section Invariants

variable {session : CombatSession σ κ β} {publicPiles : β → PublicPiles}
  (combatStart : Option CombatStartReplayRoot)

/-- What the log says of the loop. -/
structure Recorded (loop : MainLoop σ κ β) : Prop where
  justified : History.Justified (AllowedEvent combatStart) loop.log
  transitions : loop.replayPrefix.map ReplayPrefixEntry.transition =
    (committedSince loop.log).map CommittedStep.transition

/-- The same of a loop that goes on. -/
structure Running (loop : MainLoop σ κ β) : Prop extends Recorded combatStart loop where
  held : heldAfter loop.log = loop.heldStableSnapshot
  root : loop.combatStartReplayRoot = combatStart
  plan : remainingPlan loop.log = loop.plannedSequence
  unfailed : ∀ step exc, .stepFailed step exc ∉ loop.log

variable {combatStart}

theorem Running.searchRoot {loop : MainLoop σ κ β} (h : Running combatStart loop) :
    loop.searchRoot = rootAfter combatStart loop.log := by
  unfold MainLoop.searchRoot rootAfter
  rewrite [h.held, h.root]
  cases loop.heldStableSnapshot <;> rfl

theorem Running.unfailed_concat {loop : MainLoop σ κ β} (h : Running combatStart loop)
    {event : MainLoopEvent σ κ β} (hevent : ∀ step exc, event ≠ .stepFailed step exc) :
    ∀ step exc, .stepFailed step exc ∉ loop.log ++ [event] := by
  intro step exc hmem
  rcases List.mem_append.mp hmem with hmem | hmem
  · exact h.unfailed step exc hmem
  · exact hevent step exc (List.mem_singleton.mp hmem).symm

theorem running_of_start (s : σ) (initial : BattleState β) :
    Running combatStart (initializeMainLoopState s initial combatStart : MainLoop σ κ β) :=
  { justified := History.justified_nil
    transitions := rfl
    held := rfl
    root := rfl
    plan := rfl
    unfailed := fun step exc hmem => by cases hmem }

/-- Every move keeps what the log says. -/
theorem running_of_move {loop next : MainLoop σ κ β} (h : Running combatStart loop)
    (hmove : Move session publicPiles loop next) : Running combatStart next := by
  -- Each move appends one event. What the log amounts to is compared with what the loop holds
  -- after it, and the event with what was allowed before it.
  cases hmove with
  | captured snapshot _ _ =>
      refine { justified := History.justified_concat.mpr ⟨h.justified, h.unfailed, ?_, ?_⟩
               transitions := by simp [MainLoop.hold]
               held := heldAfter_captured loop.log snapshot
               root := h.root
               plan := (remainingPlan_concat _ _).trans h.plan
               unfailed := h.unfailed_concat fun _ _ heq => by cases heq }
      · intro attempt hattempt
        cases hattempt
      · intro context current s heq
        cases heq
  | searched root context hidle hroot hcontext =>
      refine { justified := History.justified_concat.mpr ⟨h.justified, h.unfailed, ?_, ?_⟩
               transitions := h.transitions.trans (congrArg _ (committedSince_searched ..).symm)
               held := (heldAfter_concat _ _ fun _ heq => by cases heq).trans h.held
               root := h.root
               plan := (remainingPlan_concat _ _).trans h.plan
               unfailed := h.unfailed_concat fun _ _ heq => by cases heq }
      · intro attempt hattempt
        cases hattempt
      · intro context' current s heq
        cases heq
        -- A search is given a context that was built from the root and the prefix that the loop
        -- holds.
        rcases buildDecisionContext_spec hcontext with ⟨hrootSnapshot, hreplayed, _⟩
        rw [hreplayed, hrootSnapshot, ← h.searchRoot]
        exact ⟨h.transitions, hroot.symm⟩
  | planned plan hidle =>
      refine { justified := History.justified_concat.mpr ⟨h.justified, h.unfailed, ?_, ?_⟩
               transitions := h.transitions.trans (congrArg _ (committedSince_planned ..).symm)
               held := (heldAfter_concat _ _ fun _ heq => by cases heq).trans h.held
               root := h.root
               plan := remainingPlan_concat _ _
               unfailed := h.unfailed_concat fun _ _ heq => by cases heq }
      · intro attempt hattempt
        cases hattempt
      · intro context current s heq
        cases heq
  | unresolved planned rest hplan =>
      refine { justified := History.justified_concat.mpr ⟨h.justified, h.unfailed, ?_, ?_⟩
               transitions := h.transitions.trans (congrArg _ (committedSince_unresolved ..).symm)
               held := (heldAfter_concat _ _ fun _ heq => by cases heq).trans h.held
               root := h.root
               plan := remainingPlan_concat _ _
               unfailed := h.unfailed_concat fun _ _ heq => by cases heq }
      · intro attempt hattempt
        cases hattempt
        rw [h.plan, hplan]
        rfl
      · intro context current s heq
        cases heq
  | stepped planned rest resolved s' step hplan _ _ =>
      refine { justified := History.justified_concat.mpr ⟨h.justified, h.unfailed, ?_, ?_⟩
               transitions := ?_
               held := (heldAfter_concat _ _ fun _ heq => by cases heq).trans h.held
               root := h.root
               plan := ?_
               unfailed := h.unfailed_concat fun _ _ heq => by cases heq }
      · intro attempt hattempt
        cases hattempt
        rw [h.plan, hplan]
        rfl
      · intro context current s heq
        cases heq
      · -- The entry that is appended is the record of the step.
        have hentry : (loop.transitionRecord publicPiles ⟨planned, resolved, step⟩).transition =
            CommittedStep.transition ⟨planned, resolved, step⟩ := rfl
        simp only [MainLoop.commit, committedSince_stepped, List.map_append, List.map_cons,
          List.map_nil, h.transitions, hentry]
      · refine (remainingPlan_concat _ _).trans ?_
        rw [h.plan, hplan]
        rfl

/-- A step that fails is logged, and nothing is recorded. -/
theorem recorded_of_fails {loop final : MainLoop σ κ β} (h : Running combatStart loop)
    (hfails : Fails loop final) : Recorded combatStart final := by
  rcases hfails with ⟨planned, rest, exc, hplan, hlog, hreplayed, _⟩
  refine ⟨?_, ?_⟩
  · rw [hlog]
    refine History.justified_concat.mpr ⟨h.justified, h.unfailed, ?_, ?_⟩
    · intro attempt hattempt
      cases hattempt
      rw [h.plan, hplan]
      rfl
    · intro context current s heq
      cases heq
  · rw [hlog, hreplayed, committedSince_stepFailed]
    exact h.transitions

theorem running_of_moves {loop next : MainLoop σ κ β} (h : Running combatStart loop)
    (hmoves : Relation.ReflTransGen (Move session publicPiles) loop next) :
    Running combatStart next := by
  induction hmoves with
  | refl => exact h
  | tail _ hmove ih => exact running_of_move ih hmove

theorem recorded_of_follows {loop final : MainLoop σ κ β} {goesOn : Prop}
    (h : Running combatStart loop) (hfollows : Follows session publicPiles loop final goesOn) :
    Recorded combatStart final := by
  rcases hfollows with hmoves | ⟨_, last, hmoves, hfails⟩
  · exact (running_of_moves h hmoves).toRecorded
  · exact recorded_of_fails (running_of_moves h hmoves) hfails

end Invariants

/-!
### Faithful sessions

In a faithful session a search starts from a root that replays to where the loop is.
-/

section Faithful

variable {session : CombatSession σ κ β} {publicPiles : β → PublicPiles}
  (faithful : FaithfulSession session W)

/-- Every search of the log was given a context that replays to its decision. -/
def SearchesReplay (log : List (MainLoopEvent σ κ β)) : Prop :=
  ∀ context current s, .searched context current s ∈ log → ReplaysTo faithful context current s

/-- The loop stands in some world, its prefix leads to the current decision, and
    so did the prefix of every search. -/
structure Replayable (loop : MainLoop σ κ β) : Prop where
  stands : ∃ w, faithful.At loop.session loop.currentResult w
  leads : ∀ root, loop.searchRoot = some root →
    LeadsTo faithful root loop.replayPrefix loop.currentResult loop.session
  searches : SearchesReplay faithful loop.log

variable {faithful}

theorem searchesReplay_concat {log : List (MainLoopEvent σ κ β)} {event : MainLoopEvent σ κ β}
    (h : SearchesReplay faithful log)
    (hevent : ∀ context current s, event = .searched context current s →
      ReplaysTo faithful context current s) : SearchesReplay faithful (log ++ [event]) := by
  intro context current s hmem
  rcases List.mem_append.mp hmem with hmem | hmem
  · exact h context current s hmem
  · exact hevent context current s (List.mem_singleton.mp hmem).symm

theorem searchRoot_ne_roomEntry (loop : MainLoop σ κ β) (room : RoomEntryReplayRoot) :
    loop.searchRoot ≠ some (.roomEntry room) := by
  unfold MainLoop.searchRoot
  split
  · simp
  · simp

/-- Every move keeps the prefix leading to the current decision. -/
theorem replayable_of_move {loop next : MainLoop σ κ β} (h : Replayable faithful loop)
    (hmove : Move session publicPiles loop next) : Replayable faithful next := by
  rcases h.stands with ⟨w, hstands⟩
  cases hmove with
  | captured snapshot hstable hcapture =>
      refine ⟨⟨w, hstands⟩, fun root hroot => ?_,
        searchesReplay_concat h.searches fun _ _ _ heq => ?_⟩
      · cases hroot
        exact leadsTo_of_captured hstands hstable hcapture
      · cases heq
  | searched root context _ hroot hcontext =>
      refine ⟨⟨w, hstands⟩, h.leads, searchesReplay_concat h.searches fun _ _ _ heq => ?_⟩
      cases heq
      refine (h.leads root hroot).replaysTo (fun room heq => ?_) hcontext
      rw [heq] at hroot
      exact absurd hroot (searchRoot_ne_roomEntry loop room)
  | planned plan _ =>
      refine ⟨⟨w, hstands⟩, h.leads, searchesReplay_concat h.searches fun _ _ _ heq => ?_⟩
      cases heq
  | unresolved planned rest _ =>
      refine ⟨⟨w, hstands⟩, h.leads, searchesReplay_concat h.searches fun _ _ _ heq => ?_⟩
      cases heq
  | stepped planned rest resolved s step _ hresolved hstep =>
      rcases SemanticAction.resolve_eq_some hresolved with ⟨hmem, hsemantic⟩
      rcases faithful.committed hstands hmem hstep with ⟨w', _, hstands'⟩
      refine ⟨⟨w', hstands'⟩, fun root hroot => ?_,
        searchesReplay_concat h.searches fun _ _ _ heq => ?_⟩
      · refine (h.leads root hroot).snoc resolved hmem hstep hsemantic.symm ?_
        rw [hsemantic]
        rfl
      · cases heq

theorem searchesReplay_of_follows {loop final : MainLoop σ κ β} {goesOn : Prop}
    (h : Replayable faithful loop) (hfollows : Follows session publicPiles loop final goesOn) :
    SearchesReplay faithful final.log := by
  have hmoves : ∀ {next}, Relation.ReflTransGen (Move session publicPiles) loop next →
      Replayable faithful next := by
    intro next hmoves
    induction hmoves with
    | refl => exact h
    | tail _ hmove ih => exact replayable_of_move ih hmove
  rcases hfollows with hfinal | ⟨_, last, hlast, _, _, _, _, hlog, _⟩
  · exact (hmoves hfinal).searches
  · rw [hlog]
    exact searchesReplay_concat (hmoves hlast).searches fun _ _ _ heq => by cases heq

/-- A combat is replayable from its start. -/
theorem replayable_of_start {s : σ} {initial : BattleState β} {w : W}
    {combatStart : Option CombatStartReplayRoot} (hstands : faithful.At s initial w)
    (hroot : ∀ root, combatStart = some root → faithful.root (.combatStart root) = some w) :
    Replayable faithful (initializeMainLoopState s initial combatStart : MainLoop σ κ β) := by
  refine ⟨⟨w, hstands⟩, fun root hsearchRoot => ?_, fun _ _ _ hmem => by cases hmem⟩
  rcases Option.map_eq_some_iff.mp hsearchRoot with ⟨start, hstart, rfl⟩
  exact ⟨w, initial, s, hroot start hstart, rfl, hstands, fun room heq => (by cases heq),
    .nil initial s⟩

end Faithful

/-!
### Runs

The law of every run, and a session in which a choice stays open.
-/

section Run

/-- The state in which a run leaves the loop. -/
def mainLoopRun (session : CombatSession σ κ β) (publicPiles : β → PublicPiles)
    (env : MainLoopEnv κ β) (maxIterations : Nat) (s : σ) (initial : BattleState β)
    (combatStart : Option CombatStartReplayRoot) : MainLoop σ κ β :=
  (runUntilTerminalOrFault session publicPiles env maxIterations
    (initializeMainLoopState s initial combatStart)).1

/-- Of every run, whatever is decided and whatever the session does: a search is
    given what was committed since the last capture, in order, with the root that
    was captured; where the session can be replayed, replaying it gives the
    current decision. A plan is tried from its front, and nothing of it is tried
    after a mismatch. A step that fails is the last event, and is not recorded. -/
theorem main_loop_replay_invariant (session : CombatSession σ κ β)
    (publicPiles : β → PublicPiles) (env : MainLoopEnv κ β) (maxIterations : Nat) (s : σ)
    (initial : BattleState β) (combatStart : Option CombatStartReplayRoot) :
    let final := mainLoopRun session publicPiles env maxIterations s initial combatStart
    (∀ before context current r after,
      final.log = before ++ .searched context current r :: after →
      context.replayPrefix.map ReplayPrefixEntry.transition =
          (committedSince before).map CommittedStep.transition ∧
        some context.rootSnapshot = rootAfter combatStart before ∧
        ∀ (W : Type) (faithful : FaithfulSession session W) (w : W), faithful.At s initial w →
          (∀ root, combatStart = some root → faithful.root (.combatStart root) = some w) →
          ReplaysTo faithful context current r) ∧
    (∀ before plan during after, final.log = before ++ .planned plan :: (during ++ after) →
      (∀ plan', .planned plan' ∉ during) →
      (attempts during).map Prod.fst <+: plan ∧
        ∀ front attempt back, attempts during = front ++ attempt :: back → attempt.2 = false →
          back = []) ∧
    ∀ before step exc after, final.log = before ++ .stepFailed step exc :: after →
      after = [] ∧ final.replayPrefix.map ReplayPrefixEntry.transition =
        (committedSince before).map CommittedStep.transition := by
  intro final
  have hfollows : Follows session publicPiles (initializeMainLoopState s initial combatStart) final
      False := runUntilTerminalOrFault_follows maxIterations _
  -- The log of a run records what the loop holds, in every state.
  have hrecorded := recorded_of_follows (running_of_start s initial) hfollows
  refine ⟨?_, ?_, ?_⟩
  -- Every search was allowed where it stands, which says what it was given.
  · intro before context current r after hlog
    have hallowed := (hrecorded.justified before _ after hlog).2.2 context current r rfl
    refine ⟨hallowed.1, hallowed.2, fun W faithful w hstands hroot => ?_⟩
    refine searchesReplay_of_follows (replayable_of_start hstands hroot) hfollows context current
      r ?_
    rw [hlog]
    exact List.mem_append_right _ List.mem_cons_self
  -- What follows a plan is the log up to its last event before the next plan.
  · intro before plan during after hlog hplanned
    have hjustified : History.Justified (AllowedEvent combatStart)
        (before ++ [.planned plan] ++ during) := by
      refine @History.justified_append_left _ _ _ after ?_
      have hsplit : before ++ [.planned plan] ++ during ++ after = final.log := by
        rw [hlog]
        simp
      rw [hsplit]
      exact hrecorded.justified
    rcases plan_consumed during hplanned hjustified with ⟨rest, hplan, hrest⟩
    refine ⟨⟨rest, hplan⟩, fun front attempt back hattempts hmismatch => ?_⟩
    -- Either every step matched, or the last one did not.
    rcases hrest with ⟨_, hmatched⟩ | ⟨_, front', last, hlast, hmatched⟩
    · have := hmatched attempt (by rw [hattempts]; simp)
      rw [hmismatch] at this
      cases this
    · by_contra hback
      rw [hattempts] at hlast
      have hmem : attempt ∈ front' := by
        have hdrop := congrArg List.dropLast hlast
        rw [List.dropLast_concat, List.dropLast_append_of_ne_nil (List.cons_ne_nil _ _),
          List.dropLast_cons_of_ne_nil hback] at hdrop
        rw [← hdrop]
        simp
      have := hmatched attempt hmem
      rw [hmismatch] at this
      cases this
  -- Nothing follows a step that failed, so the loop holds what it held there.
  · intro before step exc after hlog
    have hafter : after = [] := by
      by_contra hafter
      rcases List.exists_cons_of_ne_nil hafter with ⟨event, rest, rfl⟩
      have hunfailed := (hrecorded.justified (before ++ [.stepFailed step exc]) event rest
        (by rw [hlog]; simp)).1 step exc
      exact hunfailed List.mem_concat_self
    refine ⟨hafter, ?_⟩
    rw [hrecorded.transitions, hlog, hafter, committedSince_stepFailed]

/-- Search at every decision, for one step of the counting session. -/
def countingEnv : MainLoopEnv Nat Nat where
  directSelector _ _ := .error (.runtimeError "not selected")
  searchStrategy := some fun _ _ => .ok (.success [⟨⟨"card", "Strike"⟩, none, none, none⟩])
  routingPolicy _ _ := .ok .search
  pendingSelector _ _ := .error (.runtimeError "not selected")

/-- A combat that starts with one choice after another. -/
def choicesRun : MainLoop Nat Nat Nat :=
  mainLoopRun (countedSession fun _ => true) (fun _ => ⟨none, none⟩) countingEnv 3 1
    (countedState (fun _ => true) 1) (some ⟨.null⟩)

/-- The third search is given the two steps since the start, and replaying them from there
    gives the decision. The first plan was tried once. -/
theorem main_loop_replay_counting :
    (∃ before context current r after,
      choicesRun.log = before ++ .searched context current r :: after ∧
      (committedSince before).length = 2 ∧
      context.replayPrefix.map ReplayPrefixEntry.transition =
        (committedSince before).map CommittedStep.transition ∧
      context.rootSnapshot = .combatStart ⟨.null⟩ ∧
      ReplaysTo (countedFaithful fun _ => true) context current r) ∧
    ∃ before plan during after, choicesRun.log = before ++ .planned plan :: (during ++ after) ∧
      plan.length = 1 ∧ (attempts during).map Prod.fst = plan := by
  -- The run begins with a choice, commits two steps and searches again, so that the prefix of
  -- the second search has both.
  have hlaw := main_loop_replay_invariant (countedSession fun _ => true) (fun _ => ⟨none, none⟩)
    countingEnv 3 1 (countedState (fun _ => true) 1) (some ⟨.null⟩)
  have hsearched : ∃ context current r, choicesRun.log.drop 6 =
      .searched context current r :: choicesRun.log.drop 7 := ⟨_, _, _, rfl⟩
  have hplanned : ∃ plan, choicesRun.log.drop 1 = .planned plan :: choicesRun.log.drop 2 ∧
      plan.length = 1 ∧ (attempts ((choicesRun.log.drop 2).take 1)).length = 1 :=
    ⟨_, rfl, rfl, rfl⟩
  have hnone : ∀ plan', .planned plan' ∉ (choicesRun.log.drop 2).take 1 := by
    intro plan' hmem
    cases List.mem_singleton.mp hmem
  rcases hsearched with ⟨context, current, r, hsearched⟩
  rcases hplanned with ⟨plan, hplanned, hone, htried⟩
  have hlog : choicesRun.log = choicesRun.log.take 6 ++
      .searched context current r :: choicesRun.log.drop 7 := by
    rw [← hsearched, List.take_append_drop]
  have hlog' : choicesRun.log = choicesRun.log.take 1 ++
      .planned plan :: ((choicesRun.log.drop 2).take 1 ++ (choicesRun.log.drop 2).drop 1) := by
    rw [List.take_append_drop, ← hplanned, List.take_append_drop]
  rcases hlaw.1 _ _ _ _ _ hlog with ⟨hreplayed, hroot, hreplays⟩
  refine ⟨⟨_, context, current, r, _, hlog, rfl, hreplayed, Option.some.inj hroot,
    hreplays Nat (countedFaithful fun _ => true) 1 ⟨rfl, rfl⟩ fun _ _ => rfl⟩,
    _, plan, _, _, hlog', hone, ?_⟩
  exact (hlaw.2.1 _ _ _ _ hlog' hnone).1.eq_of_length (by rw [List.length_map, htried, hone])

end Run

end Combat

end STS2RL
