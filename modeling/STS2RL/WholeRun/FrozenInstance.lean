import STS2RL.Core.Run
import STS2RL.WholeRun.BatchInvariants

/-!
# A Faulted Instance

Once an instance has been poisoned, it has no combat phase, and every operation
but one looks whether it is faulted before it changes a record. The one is the
batch operation of the facade for beam search: an event batch that can be
prepared is committed to the records.

## Main definitions

* `Folded`: A faulted instance has no combat phase.
* `SameRecords`: The records are as they were.
* `PreparesEventBatch`: The event batches that get past the checks.
* `smallRun`, `eventRun`: Runs that are short enough to be gone through.

## Theorems

* `folded_step`: Every request leaves a faulted instance without a phase.
* `frozen_step`: Every other request leaves the records of a faulted instance.
* `faulted_frozen`: In a run without such a batch, a faulted instance is frozen.
-/

namespace STS2RL

namespace WholeRun

open Api (PyError Fields EmulateItem BranchIdRegistry)
open Combat (BattleState)

variable {W Φ κ β α : Type}

namespace Instance

/-- A faulted instance has no combat phase. -/
def Folded (inst : Instance W Φ κ β) : Prop := inst.faulted = true → inst.combatPhase = none

/-!
### Folding

A poisoned instance has no phase.
-/

section Folding

variable (env : RunEnv W Φ κ β)

/-- What leaves the phase and the mark keeps this. -/
theorem folded_unrecorded : Unrecorded (Folded : Instance W Φ κ β → Prop) where
  session _ _ h := h
  rootHistory _ _ h := h
  position _ _ _ _ h := h
  rootBranchLog _ _ _ h := h
  completion _ _ h := h
  nextHolder _ _ h := h
  closed _ _ h := h
  records _ _ _ _ _ _ h := h
  phase inst _ phase _ hphase h := by
    intro hfault
    have hnone := h hfault
    rw [hphase] at hnone
    cases hnone
  install inst _ hfault _ := by
    intro hfault'
    rw [show inst.faulted = true from hfault'] at hfault
    cases hfault
  leave _ _ := fun _ => rfl

/-- Poisoning leaves an instance without a phase. -/
theorem folded_poisonCombatTransaction (phase : Option (Phase Φ κ β)) :
    Act.Triple (fun _ => True) (poisonCombatTransaction env phase) (fun _ => Folded)
      fun _ => Folded := by
  have hI := (folded_unrecorded : Unrecorded (Folded : Instance W Φ κ β → Prop)).steady
  refine .bind (Q := fun _ _ => True) (.modify fun _ _ => trivial) fun _ => ?_
  refine .bind (Q := fun _ _ => True) (.get fun _ _ => trivial) fun inst => ?_
  refine .bind (Q := fun _ _ => True) ?_ fun _ => ?_
  · -- What the end of the branches raises is dropped.
    unfold Act.onlyIf
    split
    · exact .catching (E := fun _ _ => True) (.anywhere _) fun _ => .pure fun _ _ => trivial
    · exact .pure fun _ _ => trivial
  refine .bind (Q := fun _ _ => True) (.get fun _ _ => trivial) fun inst => ?_
  refine .bind (Q := fun _ => Folded) (.modify fun _ _ _ => rfl) fun _ => ?_
  refine Act.Keeps.bind ?_ fun _ => (hI.framed.onSession _).catching fun _ => .pure _
  unfold closeQuietly
  split
  · exact .pure _
  · exact (hI.framed.closeGiven env _).catching fun _ => .pure _

theorem keeps_folded_poison (phase : Option (Phase Φ κ β)) :
    Act.Keeps Folded (poisonCombatTransaction env phase) :=
  (folded_poisonCombatTransaction env phase).conseq (fun _ _ => trivial) (fun _ _ h => h)
    fun _ _ h => h

/-- Every request leaves a faulted instance without a phase. -/
theorem folded_step (facade : Facade) (inst : Instance W Φ κ β) (request : Request)
    (h : Folded inst) : Folded (step env facade inst request).1 :=
  folded_unrecorded.step env (keeps_folded_poison env) facade inst request h

theorem folded_of_constructs {config : Fields} {world : W} {access : GameAccess}
    {inst : Instance W Φ κ β} (h : Constructs env config world access inst) : Folded inst := by
  have hblank : Folded (blank world access : Instance W Φ κ β) := fun hfault => by cases hfault
  have hafter := (folded_unrecorded.steady.framed.construct env config).after hblank
  rw [h] at hafter
  exact hafter

end Folding

/-- The records of an instance are those of another. -/
structure SameRecords (inst inst' : Instance W Φ κ β) : Prop where
  bookkeeping : inst'.bookkeeping = inst.bookkeeping
  branchIds : inst'.branchIds = inst.branchIds
  decisionPoints : inst'.decisionPoints = inst.decisionPoints
  reservations : inst'.combatBranchReservations = inst.combatBranchReservations
  eventRngRegistry : inst'.eventRngRegistry = inst.eventRngRegistry

/-- An event batch that the facade for beam search prepares: its options, its size
    and its ids are in order, the views of its parents can be read, and its items
    pass the checks. -/
def PreparesEventBatch (env : RunEnv W Φ κ β) (inst : Instance W Φ κ β)
    (items : List EmulateItem) (simulationOptions : Option Fields) : Prop :=
  validateStopCondition simulationOptions = .ok () ∧
  items ≠ [] ∧ items.length ≤ env.maxBranches ∧
  Beam.checkBatchIds items = .ok () ∧
  ∃ views read, Beam.parentViews env items [] inst = (.ok views, read) ∧
    ∃ prepared, Beam.prepareBatch env read views items = .ok prepared

/-- The batch requests to the facade for beam search. -/
def Request.IsBeamBatch (facade : Facade) (request : Request) (items : List EmulateItem)
    (simulationOptions : Option Fields) : Prop :=
  facade = .beam ∧ request = .call (.emulateActions items simulationOptions)

theorem sameRecords_ignoresView (inst : Instance W Φ κ β) : IgnoresView (SameRecords inst) where
  session _ _ h := ⟨h.1, h.2, h.3, h.4, h.5⟩
  rootHistory _ _ h := ⟨h.1, h.2, h.3, h.4, h.5⟩

/-- An event batch that cannot be prepared is refused when its parents have been
    read. -/
theorem beamEmulateActions_unprepared (env : RunEnv W Φ κ β) {inst : Instance W Φ κ β}
    {items : List EmulateItem} {simulationOptions : Option Fields}
    (hphase : inst.combatPhase = none)
    (hbatch : ¬ PreparesEventBatch env inst items simulationOptions) :
    ∃ error after, Beam.emulateActions env items simulationOptions inst = (.error error, after) ∧
      ∀ I : Instance W Φ κ β → Prop, IgnoresView I → I inst → I after := by
  unfold Beam.emulateActions
  -- Each of the checks raises before anything is read.
  rcases hstop : validateStopCondition simulationOptions with error | ⟨⟩
  · exact ⟨_, _, rfl, fun _ _ h => h⟩
  rw [show Act.ofExcept (Except.ok () : Except PyError Unit) = (pure () : Op W Φ κ β Unit) from rfl,
    Act.pure_bind_apply]
  by_cases hempty : items = []
  · unfold checkBatchSize Act.raiseIf
    rw [if_pos hempty]
    exact ⟨_, _, rfl, fun _ _ h => h⟩
  by_cases hsize : env.maxBranches < items.length
  · unfold checkBatchSize Act.raiseIf
    rw [if_neg hempty, if_pos hsize]
    exact ⟨_, _, rfl, fun _ _ h => h⟩
  have hchecked : checkBatchSize env items inst = (.ok (), inst) := by
    unfold checkBatchSize Act.raiseIf
    rw [if_neg hempty, if_neg hsize]
    rfl
  rw [Act.bind_of_ok _ hchecked]
  rcases hids : Beam.checkBatchIds items with error | ⟨⟩
  · exact ⟨_, _, rfl, fun _ _ h => h⟩
  rw [show Act.ofExcept (Except.ok () : Except PyError Unit) = (pure () : Op W Φ κ β Unit) from rfl,
    Act.pure_bind_apply, Act.get_bind, if_neg (by simp [hphase])]
  -- The parents are read next, which caches views only.
  unfold Beam.emulateEventBatch
  rcases hviews : Beam.parentViews env items [] inst with ⟨views | views, read⟩
  · rw [Act.bind_of_error _ hviews]
    refine ⟨_, _, rfl, fun I hI h => ?_⟩
    have hread := (hI.parentViews env items []).after h
    rwa [hviews] at hread
  -- They were read: the batch fails while its items are prepared, or it is prepared.
  · rw [Act.bind_of_ok _ hviews, Act.get_bind]
    rcases hprepared : Beam.prepareBatch env read views items with error | prepared
    · refine ⟨_, _, rfl, fun I hI h => ?_⟩
      have hread := (hI.parentViews env items []).after h
      rwa [hviews] at hread
    · exact absurd ⟨hstop, hempty, Nat.not_lt.mp hsize, hids, views, read, hviews, prepared,
        hprepared⟩ hbatch

/-!
### Frozen states

What a request leaves of a faulted instance.
-/

section Frozen

variable (env : RunEnv W Φ κ β) {inst : Instance W Φ κ β}

/-- A faulted instance with the records of another, and no phase. -/
def FrozenAs (inst s : Instance W Φ κ β) : Prop :=
  s.faulted = true ∧ s.combatPhase = none ∧ SameRecords inst s

theorem frozenAs_ignoresView : IgnoresView (FrozenAs inst) where
  session s session h := ⟨h.1, h.2.1, (sameRecords_ignoresView inst).session s session h.2.2⟩
  rootHistory s history h :=
    ⟨h.1, h.2.1, (sameRecords_ignoresView inst).rootHistory s history h.2.2⟩

/-- A check that raises on what is frozen. -/
theorem keeps_frozen_of_error {m : Op W Φ κ β α}
    (h : ∀ s : Instance W Φ κ β, s.faulted = true → s.combatPhase = none →
      ∃ error, m s = (.error error, s)) : Act.Keeps (FrozenAs inst) m := by
  refine .of_after fun s hs => ?_
  rcases h s hs.1 hs.2.1 with ⟨error, heq⟩
  rw [heq]
  exact hs

theorem ensureMutable_of_faulted {s : Instance W Φ κ β} (hfault : s.faulted = true)
    (f : Unit → Op W Φ κ β α) : ∃ error, (ensureMutable >>= f) s = (.error error, s) := by
  have hraises : ∃ error, (ensureMutable : Op W Φ κ β Unit) s = (.error error, s) := by
    unfold ensureMutable Act.raiseIf
    rw [Act.get_bind, if_pos hfault]
    exact ⟨_, rfl⟩
  rcases hraises with ⟨error, herror⟩
  exact ⟨error, Act.bind_of_error s herror⟩

theorem keeps_frozen_emulateAction (item : EmulateItem) (simulationOptions : Option Fields) :
    Act.Keeps (FrozenAs inst) (emulateAction env item simulationOptions) := by
  refine keeps_frozen_of_error fun s hfault hphase => ?_
  unfold emulateAction
  rw [Act.get_bind, if_neg (by simp [hphase])]
  exact ensureMutable_of_faulted hfault _

theorem keeps_frozen_beamEmulateAction (item : EmulateItem) (simulationOptions : Option Fields) :
    Act.Keeps (FrozenAs inst) (Beam.emulateAction env item simulationOptions) := by
  have hcombat : ∀ s : Instance W Φ κ β, FrozenAs inst s → s.combatPhase.isSome ≠ true := by
    intro s hs
    rw [hs.2.1]
    exact Bool.false_ne_true
  refine .of_after fun s hs => ?_
  unfold Beam.emulateAction
  rw [Act.get_bind, if_neg (hcombat s hs)]
  refine Act.Keeps.after (.bind (.ite (fun _ =>
    (frozenAs_ignoresView.onSession _).bind fun _ => .pure _)
    fun _ => Act.Keeps.get.bind fun s => ?_) fun atEvent => .ite
    (fun _ => keeps_frozen_emulateAction env item simulationOptions) fun _ => .raise _) hs
  split <;> exact .pure _

/-- Asking for the status of branches only reads. -/
theorem keeps_frozen_getBranchStatus (branchIds : List PyStr) :
    Act.Keeps (FrozenAs inst) (getBranchStatus env branchIds) := by
  refine .bind (.collect (fun branchId => ?_) _) fun _ => .pure _
  refine .of_after fun s hs => ?_
  unfold readBranchStatus
  refine Act.Keeps.after (I := FrozenAs inst) (.bind (.raiseIf _ _) fun _ => .of_after
    fun s hs => ?_) hs
  rw [Act.get_bind]
  cases hbook : s.bookkeeping.get? branchId with
  | none => exact hs
  | some book =>
      dsimp only
      cases book.internalId with
      | none => exact hs
      | some internalId =>
          dsimp only
          by_cases hreleased : book.status = .released
          · rw [if_pos hreleased]
            exact hs
          · -- There is no phase, so the branch cannot be asked for.
            rw [if_neg hreleased, hs.2.1]
            exact hs

/-- An event batch that cannot be prepared leaves the records. -/
theorem frozen_beamEmulateActions {items : List EmulateItem} {simulationOptions : Option Fields}
    (hfrozen : FrozenAs inst inst)
    (hbatch : ¬ PreparesEventBatch env inst items simulationOptions) :
    FrozenAs inst (Beam.emulateActions env items simulationOptions inst).2 := by
  rcases beamEmulateActions_unprepared env hfrozen.2.1 hbatch with ⟨error, after, hends, hkeeps⟩
  rw [hends]
  exact hkeeps _ frozenAs_ignoresView hfrozen

/-- Every other request leaves the records of a faulted instance. -/
theorem frozen_step (facade : Facade) (request : Request) (hfault : inst.faulted = true)
    (hfolded : Folded inst) (hclose : request ≠ .close)
    (hbatch : ∀ items simulationOptions, request.IsBeamBatch facade items simulationOptions →
      ¬ PreparesEventBatch env inst items simulationOptions) :
    SameRecords inst (step env facade inst request).1 := by
  -- Faulted stays faulted, and the records stay what they are.
  have hfrozen : FrozenAs inst inst := ⟨hfault, hfolded hfault, ⟨rfl, rfl, rfl, rfl, rfl⟩⟩
  refine And.right (a := (step env facade inst request).1.combatPhase = none)
    (And.right (a := (step env facade inst request).1.faulted = true) ?_)
  -- Whatever asks first whether the instance can change is refused.
  have hmutable : ∀ {γ : Type} (f : Unit → Op W Φ κ β γ),
      Act.Keeps (FrozenAs inst) (ensureMutable >>= f) :=
    fun f => keeps_frozen_of_error fun s hs _ => ensureMutable_of_faulted hs f
  cases request with
  | start instanceId =>
      have hstart : startInstanceResponse env instanceId inst =
          (.ok [("status", .str "faulted"), ("instance_id", .str instanceId)], inst) := by
        unfold startInstanceResponse
        rw [Act.get_bind, if_pos hfault]
        rfl
      cases facade with
      | base =>
          refine show FrozenAs inst (startInstanceResponse env instanceId inst).2 from ?_
          rw [hstart]
          exact hfrozen
      | beam =>
          refine show FrozenAs inst (Beam.startInstanceResponse env instanceId inst).2 from ?_
          unfold Beam.startInstanceResponse
          rw [Act.bind_of_ok _ hstart]
          exact hfrozen
  | close => exact absurd rfl hclose
  | call request =>
      refine show FrozenAs inst (Instance.call env facade request inst).2 from ?_
      cases request with
      -- Reading a decision of a faulted instance gives the fault.
      | getDecision branchId =>
          refine Act.Keeps.after (.map (.of_after fun s hs => ?_) _) hfrozen
          unfold getDecision
          rw [Act.get_bind, if_pos hs.1]
          exact hs
      | commitAction decisionPointId actionId => exact ((hmutable _).map _).after hfrozen
      | emulateAction item simulationOptions =>
          cases facade with
          | base => exact (keeps_frozen_emulateAction env item simulationOptions).after hfrozen
          | beam => exact (keeps_frozen_beamEmulateAction env item simulationOptions).after hfrozen
      | emulateActions items simulationOptions =>
          -- A batch is refused, for there is no phase any more.
          cases facade with
          | base =>
              refine (keeps_frozen_of_error fun s _ hphase => ?_ :
                Act.Keeps (FrozenAs inst)
                  (emulateActions env items simulationOptions)).after hfrozen
              refine ⟨combatBranchingUnavailable, ?_⟩
              unfold emulateActions Act.raiseIf
              rw [Act.get_bind, if_pos (by simp [hphase])]
              rfl
          -- On the beam facade it is refused because it cannot be prepared.
          | beam =>
              exact frozen_beamEmulateActions env hfrozen
                (hbatch items simulationOptions ⟨rfl, rfl⟩)
      | cancelBranches branchIds => exact ((hmutable _).map _).after hfrozen
      | releaseBranches branchIds => exact ((hmutable _).map _).after hfrozen
      | getBranchStatus branchIds =>
          exact ((keeps_frozen_getBranchStatus env branchIds).map _).after hfrozen

/-- In a run that asks a faulted instance for no event batch that can be prepared,
    an instance that was poisoned is frozen until it is closed. -/
theorem faulted_frozen (facade : Facade) {config : Fields} {world : W} {access : GameAccess}
    (hconstruct : Constructs env config world access inst) (requests : List Request)
    (hbatch : Run.Along (step env facade) (fun inst request => inst.faulted = true →
      ∀ items simulationOptions, request.IsBeamBatch facade items simulationOptions →
        ¬ PreparesEventBatch env inst items simulationOptions) inst requests) :
    Run.Along (step env facade) (fun inst request => inst.faulted = true → request ≠ .close →
      SameRecords inst (step env facade inst request).1) inst requests :=
  Run.along_imp (step env facade) (I := Folded)
    (fun _ request hfolded hrefused hfault hclose =>
      frozen_step env facade request hfault hfolded hclose (hrefused hfault))
    (fun inst request h => folded_step env facade inst request h) inst requests
    (folded_of_constructs env hconstruct) hbatch

end Frozen

section SmallRun

/-- A short run: a map, a combat, and an event that goes on after it. -/
def smallBoundary (time : Nat) : RunBoundary :=
  if time = 0 then .mapSelect else if time < 4 then .stable else .eventChoice

/-- An action that is on offer, under a number. -/
def smallAction (actionId : Int) : RunAction where
  actionId := actionId
  actionType := "choice"
  isAvailable := true
  fields := [("action_id", .int actionId), ("action_type", .str "choice"),
    ("label", .str "choice"), ("is_available", .bool true), ("parameters", .obj [])]

/-- A stream of random numbers. -/
def smallStream : RngStream := ⟨0, 1, 2, 3, 4⟩

/-- The world is the time. The room of the combat cannot be read when it is read
    again, and neither can the board when the combat is over. -/
def smallEmulator : Emulator Nat where
  getObservation time :=
    if time = 4 then (.error (.raised "EmulatorError" "no observation"), 5)
    else (.ok ⟨smallBoundary time, "", []⟩, time)
  getLegalActions := pure [smallAction 9]
  getMapRooms := pure [⟨7, 0, 1, "Monster"⟩]
  getRoomContext time :=
    if time = 1 then (.ok ⟨true, some "CombatRoom", some 0, some 1, []⟩, 2)
    else if time = 2 then (.error (.raised "EmulatorError" "no room"), 3)
    else (.ok ⟨true, none, some 0, some 1, []⟩, time)
  getEventRngState := pure ⟨"event", smallStream, smallStream, smallStream, smallStream⟩
  saveState := pure "map"
  chooseRoom _ time := (.ok (), time + 1)
  step _ time := (.ok (), time + 1)
  enableGodMode := pure ()
  startRun _ _ _ := pure ()

/-- A combat of one decision. -/
def smallBattle (time : Nat) : BattleState Unit where
  board := ()
  isTerminal := 4 ≤ time
  pendingChoice := none
  cachedLegalActions := some [{ actionId := 9, actionType := "choice" }]
  decisionFrame := none

/-- A combat that plays on with time, and whose branches report nothing. -/
def smallPhases : PhaseEnv Nat Unit Unit Unit where
  branches :=
    { submitMany := fun items => pure (items.map fun _ => "0")
      poll := fun _ _ => pure []
      branchStatus := fun _ => pure .completed
      activeBranchCount := fun _ => 0
      cancel := fun _ => pure ()
      release := fun _ => pure ()
      closeAll := pure ()
      closePool := pure () }
  live :=
    { bootstrap := fun _ time => (time, .ok (smallBattle time))
      step := fun _ _ _ _ time => (time + 1, .ok (smallBattle (time + 1)))
      getLegalActions := fun time => .ok (smallBattle time).legalActions
      captureSnapshot := fun _ => .ok ()
      captureBoundary := fun _ => none }
  publicPiles _ := ⟨none, none⟩
  engineState _ := []
  describe _ := smallAction 9
  singleHypothesisWorkItem _ _ _ := .error (.runtimeError "no branching")

/-- A run that is short enough to be gone through. The workers of the run are gone. -/
def smallRun : RunEnv Nat Unit Unit Unit where
  emulator := smallEmulator
  phases := smallPhases
  adoptCurrentCombat time := (.ok (smallBattle time), time)
  makeBranches := pure ()
  combatCompletion state := if state.isTerminal then some .null else none
  strikes _ := pure ()
  deriveContextId _ := ""
  sha256 _ := []
  dispatchChoiceWorkItems _ := Act.raise (.raised "WorkerPoolClosedError" "the pool is closed")
  closePool := pure ()
  maxBranches := 4

/-- The instance of the short run. -/
def smallInstance : Instance Nat Unit Unit Unit := (construct smallRun [] (blank 0 {})).2

theorem smallInstance_constructs : Constructs smallRun [] 0 {} smallInstance := rfl

/-- The room of the map is an event. It cannot be read once, when the decision of
    the event is first asked for. -/
def eventEmulator : Emulator Nat :=
  { smallEmulator with
    getObservation := fun time =>
      (.ok ⟨if time = 0 then .mapSelect else .eventChoice, "", []⟩, time)
    getRoomContext := fun time =>
      if time = 2 then (.error (.raised "EmulatorError" "no room"), 3)
      else (.ok ⟨true, some "EventRoom", some 0, some 1, []⟩, if time = 1 then 2 else time) }

/-- The workers report a fault for each branch. -/
def eventRun : RunEnv Nat Unit Unit Unit :=
  { smallRun with
    emulator := eventEmulator
    dispatchChoiceWorkItems := fun items =>
      pure (items.map fun _ => ⟨false, none, some "no progress", some "emulator_error"⟩) }

/-- An instance before the event is entered. -/
def eventInstance : Instance Nat Unit Unit Unit := (construct eventRun [] (blank 0 {})).2

/-- A combat is entered and fought to its end, which cannot be left. Then a branch
    is asked for at the event. -/
def eventBatchAfterFault : List Request :=
  [.call (.commitAction "d-root-000001" "7"), .call (.commitAction "d-root-000002" "9"),
    .call (.emulateActions [⟨"root", "b1", "d-root-000002", "9", 1⟩] none)]

/-- The batch is committed to the records of a faulted instance. -/
theorem faulted_not_frozen : Constructs smallRun [] 0 {} smallInstance ∧
    ¬ Run.Along (step smallRun .beam) (fun inst request => inst.faulted = true →
      request ≠ .close → SameRecords inst (step smallRun .beam inst request).1)
      smallInstance eventBatchAfterFault := by
  refine ⟨smallInstance_constructs, ?_⟩
  rintro ⟨-, -, hbatch, -⟩
  have hknown := congrArg BranchIdRegistry.everUsed
    (hbatch (by decide +kernel) (by simp)).branchIds
  revert hknown
  decide +kernel

/-- What a faulted instance is asked for when nothing is batched. -/
def statusAfterFault : List Request :=
  [.call (.commitAction "d-root-000001" "7"), .call (.commitAction "d-root-000002" "9"),
    .call (.getDecision "root"), .call (.cancelBranches ["b1"])]

theorem faulted_frozen_small : Constructs smallRun [] 0 {} smallInstance ∧
    Run.Along (step smallRun .beam) (fun inst request => inst.faulted = true →
      request ≠ .close → SameRecords inst (step smallRun .beam inst request).1)
      smallInstance statusAfterFault :=
  ⟨smallInstance_constructs,
    faulted_frozen smallRun .beam smallInstance_constructs statusAfterFault
      (by simp [statusAfterFault, Run.Along, Request.IsBeamBatch])⟩

end SmallRun

end Instance

end WholeRun

end STS2RL
