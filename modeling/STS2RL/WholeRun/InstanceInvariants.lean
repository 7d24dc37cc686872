import STS2RL.WholeRun.EventBatch

/-!
# Invariants of an Instance

An operation on an instance is put together from a few kinds of changes. An
invariant that each kind of change keeps is kept by every operation, so the
operations are gone through once, here, and an invariant is afterwards judged by
the changes alone.

`Steady` lists the changes of the operations on the root and on the records of
branches. Poisoning is not among them: it goes through states that an invariant
about the fault need not hold in, so it is a hypothesis of its own, and so is
what a batch does.

Some invariants tie several parts of the state together and do not hold between
the changes of one operation: a branch that ends lets go of its hypothesis only
after its record says so. For them `Stable` takes each operation on the records
as a whole, and `Framed` has the changes beside these.

## Main definitions

* `Calm`, `Steady`: An invariant that the changes keep.
* `IgnoresView`: An invariant that reading the root keeps.
* `Framed`, `Stable`: An invariant that the operations on the records keep.

## Theorems

* `IgnoresView.viewFor`, `Framed.getDecision`: Reading a decision.
* `Steady.of_forall`: An invariant that is kept from wherever it is looked at.
* `Calm.stable`: What the changes keep, the operations keep.
* `Stable.commitAction`, `Stable.step`: What the operations and the batches keep
  is kept by every request.
-/

namespace STS2RL

namespace WholeRun

open Api (PyError Fields EmulateItem)

variable {W Φ κ β α : Type}

namespace Instance

/-!
### Records

The ways in which an operation may change the records, and the bundles an invariant is
given by.
-/

section Records

variable (branchId : PyStr) (change : Book κ β → Book κ β) (inst : Instance W Φ κ β)

@[simp]
theorem modifyBook_faulted : (modifyBook branchId change inst).faulted = inst.faulted := by
  unfold modifyBook
  split <;> rfl

@[simp]
theorem modifyBook_combatPhase :
    (modifyBook branchId change inst).combatPhase = inst.combatPhase := by
  unfold modifyBook
  split <;> rfl

@[simp]
theorem releaseEventRngReference_faulted :
    (releaseEventRngReference branchId inst).faulted = inst.faulted := by
  unfold releaseEventRngReference
  split <;> simp

@[simp]
theorem releaseEventRngReference_combatPhase :
    (releaseEventRngReference branchId inst).combatPhase = inst.combatPhase := by
  unfold releaseEventRngReference
  split <;> simp

end Records

/-- A change of a record that gives the branch no new decision of the run, and leaves
    where it comes from. -/
structure Lessens (change : Book κ β → Book κ β) : Prop where
  plan : ∀ book, (change book).eventRngPlan = book.eventRngPlan
  rngId : ∀ book, (change book).rngId = book.rngId
  view : ∀ book view, (change book).view = some (.run view) → book.view = some (.run view)
  parent : ∀ book, (change book).parentPublicId = book.parentPublicId
  branchLog : ∀ book, (change book).branchLog = book.branchLog

/-- The log of the root after a commit. -/
def recorded (decisionPointId actionId : PyStr) (inst : Instance W Φ κ β) : Instance W Φ κ β :=
  { inst with
    rootBranchLog := inst.rootBranchLog ++
      [⟨inst.rootBranchLog.length, decisionPointId, actionId, Api.rootRngId⟩] }

/-- An invariant that each change of an operation keeps, but for the decision that is
    put back when a combat is not entered. -/
structure Calm (I : Instance W Φ κ β → Prop) : Prop where
  session : ∀ inst session, I inst → I { inst with session }
  rootHistory : ∀ inst roomContext, I inst → I (observeRoot roomContext inst)
  position : ∀ inst mapSnapshot roomId actionPrefix, I inst →
    I { inst with mapSnapshot, roomId, actionPrefix }
  rootBranchLog : ∀ (inst : Instance W Φ κ β) decisionPointId actionId, I inst →
    I (recorded decisionPointId actionId inst)
  completion : ∀ inst lastCombatCompletion, I inst → I { inst with lastCombatCompletion }
  nextHolder : ∀ inst nextHolder, I inst → I { inst with nextHolder }
  closed : ∀ inst closed, I inst → I { inst with closed }
  issue : ∀ inst : Instance W Φ κ β, I inst →
    I { inst with decisionPoints := inst.decisionPoints.issue root }
  book : ∀ inst branchId change, Lessens change → I inst → I (modifyBook branchId change inst)
  reference : ∀ inst branchId, I inst → I (releaseEventRngReference branchId inst)
  retire : ∀ inst, I inst → I (retireBooks inst)
  reservation : ∀ (inst : Instance W Φ κ β) branchId, I inst →
    I { inst with combatBranchReservations := inst.combatBranchReservations.erase branchId }
  registry : ∀ inst : Instance W Φ κ β, I inst →
    I { inst with eventRngRegistry := inst.eventRngRegistry.releaseAll }
  phase : ∀ (inst : Instance W Φ κ β) session phase phase', inst.combatPhase = some phase →
    I inst → I { inst with session, combatPhase := some phase' }
  install : ∀ (inst : Instance W Φ κ β) phase, inst.faulted = false →
    I inst → I { inst with combatPhase := some phase }
  leave : ∀ inst, I inst → I { inst with combatPhase := none }

/-- An invariant that each change of an operation keeps. -/
structure Steady (I : Instance W Φ κ β → Prop) : Prop extends Calm I where
  restore : ∀ (inst : Instance W Φ κ β) prior, I inst →
    I { inst with decisionPoints := inst.decisionPoints.restoreCurrent root prior }

/-- A branch that ends has no decision. -/
theorem lessens_ending {status : BookStatus} :
    Lessens fun book : Book κ β => { book with status, view := none } :=
  ⟨fun _ => rfl, fun _ => rfl, fun _ _ h => (nomatch h), fun _ => rfl, fun _ => rfl⟩

/-- A predicate that looks neither at the session nor at the history of the root. -/
structure IgnoresView (I : Instance W Φ κ β → Prop) : Prop where
  session : ∀ inst session, I inst → I { inst with session }
  rootHistory : ∀ inst roomContext, I inst → I (observeRoot roomContext inst)

/-- An invariant that the changes keep which an operation makes beside the records of
    branches and the phase of a combat. -/
structure Framed (I : Instance W Φ κ β → Prop) : Prop extends IgnoresView I where
  position : ∀ inst mapSnapshot roomId actionPrefix, I inst →
    I { inst with mapSnapshot, roomId, actionPrefix }
  nextHolder : ∀ inst nextHolder, I inst → I { inst with nextHolder }
  issue : ∀ inst : Instance W Φ κ β, I inst →
    I { inst with decisionPoints := inst.decisionPoints.issue root }
  observe : ∀ inst branchId roomContext, I inst →
    I (modifyBook branchId (fun book =>
      { book with history := book.history.observeRoomContext roomContext }) inst)

/-- An invariant that each operation on the records of branches keeps as a whole, and
    the changes beside them. -/
structure Stable (env : RunEnv W Φ κ β) (I : Instance W Φ κ β → Prop) : Prop extends Framed I where
  rootBranchLog : ∀ (inst : Instance W Φ κ β) decisionPointId actionId, I inst →
    I (recorded decisionPointId actionId inst)
  completion : ∀ inst lastCombatCompletion, I inst → I { inst with lastCombatCompletion }
  phase : ∀ (inst : Instance W Φ κ β) session phase phase', inst.combatPhase = some phase →
    I inst → I { inst with session, combatPhase := some phase' }
  install : ∀ (inst : Instance W Φ κ β) phase, inst.faulted = false →
    I inst → I { inst with combatPhase := some phase }
  leave : ∀ inst, I inst → I { inst with combatPhase := none }
  cancelBranch : ∀ branchId, Act.Keeps I (cancelBranch env branchId)
  releaseBranch : ∀ branchId, Act.Keeps I (releaseBranch env branchId)
  readBranchStatus : ∀ branchId, Act.Keeps I (readBranchStatus env branchId)
  retire : Act.Keeps I (cancelAndReleaseAllBranches env)

/-!
### Checks

What only checks keeps everything.
-/

section Checks

variable {I : Instance W Φ κ β → Prop}

theorem keeps_ensureMutable : Act.Keeps I (ensureMutable : Op W Φ κ β Unit) :=
  Act.Keeps.get.bind fun _ => .raiseIf _ _

theorem keeps_rejectIfRoot (branchId : PyStr) :
    Act.Keeps I (rejectIfRoot branchId : Op W Φ κ β Unit) :=
  .raiseIf _ _

theorem keeps_checkBatchSize (env : RunEnv W Φ κ β) (items : List EmulateItem) :
    Act.Keeps I (checkBatchSize env items) :=
  (Act.Keeps.raiseIf _ _).bind fun _ => .raiseIf _ _

theorem keeps_rootDecisionReply (view : View) :
    Act.Keeps I (rootDecisionReply view : Op W Φ κ β Fields) :=
  Act.Keeps.get.bind fun _ => (Act.Keeps.ofExcept _).bind fun _ => .pure _

theorem keeps_onPhase (hphase : ∀ (inst : Instance W Φ κ β) session phase phase',
      inst.combatPhase = some phase → I inst → I { inst with session, combatPhase := some phase' })
    (call : Act PyError (Session W × Phase Φ κ β) α) : Act.Keeps I (onPhase call) := by
  refine .of_after fun inst h => ?_
  unfold onPhase
  cases heq : inst.combatPhase with
  | none => exact h
  | some phase => exact hphase inst _ phase _ heq h

theorem keeps_releaseBranches {env : RunEnv W Φ κ β}
    (hrelease : ∀ branchId, Act.Keeps I (releaseBranch env branchId)) (branchIds : List PyStr) :
    Act.Keeps I (releaseBranches env branchIds) :=
  keeps_ensureMutable.bind fun _ => (Act.Keeps.forEach hrelease _).bind fun _ => .pure _

end Checks

/-!
### What only caches a view

Reading a decision caches the view that was read.
-/

namespace IgnoresView

variable {I : Instance W Φ κ β → Prop} (hI : IgnoresView I) (env : RunEnv W Φ κ β)
include hI

theorem onSession (call : Act PyError (Session W) α) : Act.Keeps I (onSession call) :=
  .zoom _ hI.session

theorem rootActions (boundary : RunBoundary) : Act.Keeps I (rootActions env boundary) :=
  .ite (fun _ => (hI.onSession _).bind fun _ => .pure _) fun _ => hI.onSession _

theorem rootRngState (boundary : RunBoundary) : Act.Keeps I (rootRngState env boundary) :=
  .ite (fun _ => (hI.onSession _).bind fun _ => .pure _) fun _ => .pure _

theorem rootView : Act.Keeps I (rootView env) :=
  (hI.onSession _).bind fun _ => (hI.rootActions env _).bind fun _ =>
    (hI.onSession _).bind fun _ =>
    (Act.Keeps.modify fun inst h => hI.rootHistory inst _ h).bind fun _ =>
    (hI.rootRngState env _).bind fun _ => Act.Keeps.get.bind fun _ => .pure _

theorem viewFor (branchId : PyStr) : Act.Keeps I (viewFor env branchId) :=
  .ite (fun _ => hI.rootView env) fun _ => Act.Keeps.get.bind fun _ => .ofExcept _

theorem parentViews (items : List EmulateItem) (views : List (PyStr × View)) :
    Act.Keeps I (Beam.parentViews env items views) := by
  induction items generalizing views with
  | nil => exact .pure _
  | cons item rest ih =>
      exact .ite (fun _ => ih views) fun _ => (hI.viewFor env _).bind fun _ => ih _

end IgnoresView

namespace Framed

variable {I : Instance W Φ κ β → Prop} (hI : Framed I) (env : RunEnv W Φ κ β)
include hI

theorem closeGiven (phase : Phase Φ κ β) : Act.Keeps I (closeGiven env phase) :=
  .of_after fun inst h => hI.session inst _ h

theorem strike (step : HandOverStep) : Act.Keeps I (strike env step) := hI.onSession _

theorem maybeCaptureMapSnapshot : Act.Keeps I (maybeCaptureMapSnapshot env) :=
  (hI.onSession _).bind fun _ => .onlyIf fun _ =>
    (hI.onSession _).bind fun _ => .modify fun inst h => hI.position inst _ _ _ h

theorem phaseDecisionResponseFields (branchId : PyStr) (view : PhaseView κ β) :
    Act.Keeps I (phaseDecisionResponseFields env branchId view) := by
  refine (hI.onSession _).bind fun _ => .bind (.modify fun inst h => hI.observe inst _ _ h)
    fun _ => Act.Keeps.get.bind fun inst => ?_
  split
  · exact .raise _
  · exact (Act.Keeps.ofExcept _).bind fun _ => (Act.Keeps.ofExcept _).bind fun _ => .pure _

theorem branchDecision (branchId : PyStr) (book : Book κ β) :
    Act.Keeps I (branchDecision env branchId book) := by
  refine Act.Keeps.get.bind fun inst => .ite (fun _ => .pure _) fun _ =>
    .ite (fun _ => .ofExcept _) fun _ => ?_
  split
  · exact .raise _
  · exact (hI.phaseDecisionResponseFields env _ _).bind fun _ => .pure _
  · exact (Act.Keeps.ofExcept _).bind fun _ => .pure _

theorem getDecision (branchId : PyStr) : Act.Keeps I (getDecision env branchId) := by
  refine Act.Keeps.get.bind fun inst => .ite (fun _ => .pure _) fun _ =>
    .ite (fun _ => (hI.rootView env).bind fun _ => keeps_rootDecisionReply _) fun _ =>
    .ite (fun _ => ?_) fun _ => .raise _
  split
  · exact .raise _
  · exact hI.branchDecision env _ _

theorem startInstanceResponse (instanceId : PyStr) :
    Act.Keeps I (startInstanceResponse env instanceId) :=
  Act.Keeps.get.bind fun _ => .ite (fun _ => .pure _) fun _ =>
    (hI.rootView env).bind fun _ => (keeps_rootDecisionReply _).bind fun _ => .pure _

theorem beamStartInstanceResponse (instanceId : PyStr) :
    Act.Keeps I (Beam.startInstanceResponse env instanceId) :=
  (hI.startInstanceResponse env instanceId).bind fun _ => .pure _

theorem parentAtEvent (branchId : PyStr) : Act.Keeps I (Beam.parentAtEvent env branchId) := by
  refine .ite (fun _ => (hI.onSession _).bind fun _ => .pure _) fun _ =>
    Act.Keeps.get.bind fun inst => ?_
  split <;> exact .pure _

/-- The construction, on what it starts from. -/
theorem construct (config : Fields) : Act.Keeps I (construct env config) := by
  refine .bind ?_ fun _ => (hI.onSession _).bind fun _ => (hI.onSession _).bind fun _ =>
    (Act.Keeps.modify fun inst h => hI.position inst _ _ _ h).bind fun _ =>
    (hI.maybeCaptureMapSnapshot env).bind fun _ => .modify fun inst h => hI.issue inst h
  unfold enterGodMode
  split
  · exact .onlyIf fun _ => hI.onSession _
  · exact .raise _

theorem adoptPhase : Act.Keeps I (adoptPhase env) :=
  Act.Keeps.get.bind fun _ => (Act.Keeps.modify fun inst h => hI.nextHolder inst _ h).bind fun _ =>
    (hI.onSession _).bind fun _ => Act.Keeps.get.bind fun _ => (Act.Keeps.ofExcept _).bind fun _ =>
    (hI.onSession _).bind fun _ => .pure _

theorem publishPhase (transfer : GameLease) (phase : Phase Φ κ β) :
    Act.Keeps I (publishPhase env transfer phase) :=
  (hI.strike env _).bind fun _ => (Act.Keeps.modify hI.issue).bind fun _ =>
    (hI.strike env _).bind fun _ => hI.onSession _

theorem rollBack (transfer : GameLease) (prior : Option PyStr)
    (hrestore : ∀ inst : Instance W Φ κ β, I inst →
      I { inst with decisionPoints := inst.decisionPoints.restoreCurrent root prior }) :
    Act.Keeps I (rollBack env transfer prior) :=
  (hI.strike env _).bind fun _ => (Act.Keeps.modify hrestore).bind
    fun _ => (hI.strike env _).bind fun _ => hI.onSession _

end Framed

/-- What is kept from wherever it is looked at is kept. -/
theorem Steady.of_forall {ι : Type} {J : ι → Instance W Φ κ β → Prop}
    {I : Instance W Φ κ β → Prop} (hJ : ∀ i, Steady (J i))
    (hI : ∀ inst, I inst → ∃ i, J i inst ∧ ∀ inst', J i inst' → I inst') : Steady I := by
  have hmap : ∀ inst inst', (∀ i, J i inst → J i inst') → I inst → I inst' := by
    intro inst inst' hchange h
    rcases hI inst h with ⟨i, hbefore, hafter⟩
    exact hafter inst' (hchange i hbefore)
  exact {
    session := fun inst session => hmap inst _ fun i => (hJ i).session inst session
    rootHistory := fun inst history => hmap inst _ fun i => (hJ i).rootHistory inst history
    position := fun inst snapshot room actions =>
      hmap inst _ fun i => (hJ i).position inst snapshot room actions
    rootBranchLog := fun inst decisionPointId actionId =>
      hmap inst _ fun i => (hJ i).rootBranchLog inst decisionPointId actionId
    completion := fun inst completion => hmap inst _ fun i => (hJ i).completion inst completion
    nextHolder := fun inst holder => hmap inst _ fun i => (hJ i).nextHolder inst holder
    closed := fun inst closed => hmap inst _ fun i => (hJ i).closed inst closed
    issue := fun inst => hmap inst _ fun i => (hJ i).issue inst
    restore := fun inst prior => hmap inst _ fun i => (hJ i).restore inst prior
    book := fun inst branchId change hchange =>
      hmap inst _ fun i => (hJ i).book inst branchId change hchange
    reference := fun inst branchId => hmap inst _ fun i => (hJ i).reference inst branchId
    retire := fun inst => hmap inst _ fun i => (hJ i).retire inst
    reservation := fun inst branchId => hmap inst _ fun i => (hJ i).reservation inst branchId
    registry := fun inst => hmap inst _ fun i => (hJ i).registry inst
    phase := fun inst session phase phase' hphase =>
      hmap inst _ fun i => (hJ i).phase inst session phase phase' hphase
    install := fun inst phase hfault => hmap inst _ fun i => (hJ i).install inst phase hfault
    leave := fun inst => hmap inst _ fun i => (hJ i).leave inst }

/-!
### What only ends branches

The operations that end branches or read their status.
-/

namespace Calm

variable {I : Instance W Φ κ β → Prop} (hI : Calm I) (env : RunEnv W Φ κ β)
include hI

/-- Two invariants are one. -/
theorem and {J : Instance W Φ κ β → Prop} (hJ : Calm J) : Calm fun inst => I inst ∧ J inst where
  session inst session h := ⟨hI.session inst session h.1, hJ.session inst session h.2⟩
  rootHistory inst history h :=
    ⟨hI.rootHistory inst history h.1, hJ.rootHistory inst history h.2⟩
  position inst snapshot room actions h :=
    ⟨hI.position inst snapshot room actions h.1, hJ.position inst snapshot room actions h.2⟩
  rootBranchLog inst decisionPointId actionId h :=
    ⟨hI.rootBranchLog inst decisionPointId actionId h.1,
      hJ.rootBranchLog inst decisionPointId actionId h.2⟩
  completion inst completion h :=
    ⟨hI.completion inst completion h.1, hJ.completion inst completion h.2⟩
  nextHolder inst holder h := ⟨hI.nextHolder inst holder h.1, hJ.nextHolder inst holder h.2⟩
  closed inst closed h := ⟨hI.closed inst closed h.1, hJ.closed inst closed h.2⟩
  issue inst h := ⟨hI.issue inst h.1, hJ.issue inst h.2⟩
  book inst branchId change hchange h :=
    ⟨hI.book inst branchId change hchange h.1, hJ.book inst branchId change hchange h.2⟩
  reference inst branchId h := ⟨hI.reference inst branchId h.1, hJ.reference inst branchId h.2⟩
  retire inst h := ⟨hI.retire inst h.1, hJ.retire inst h.2⟩
  reservation inst branchId h :=
    ⟨hI.reservation inst branchId h.1, hJ.reservation inst branchId h.2⟩
  registry inst h := ⟨hI.registry inst h.1, hJ.registry inst h.2⟩
  phase inst session phase phase' hphase h :=
    ⟨hI.phase inst session phase phase' hphase h.1, hJ.phase inst session phase phase' hphase h.2⟩
  install inst phase hfault h := ⟨hI.install inst phase hfault h.1,
    hJ.install inst phase hfault h.2⟩
  leave inst h := ⟨hI.leave inst h.1, hJ.leave inst h.2⟩

theorem framed : Framed I where
  session := hI.session
  rootHistory := hI.rootHistory
  position := hI.position
  nextHolder := hI.nextHolder
  issue := hI.issue
  observe inst branchId _ h :=
    hI.book inst branchId _ ⟨fun _ => rfl, fun _ => rfl, fun _ _ h => h, fun _ => rfl,
      fun _ => rfl⟩ h

theorem onPhase (call : Act PyError (Session W × Phase Φ κ β) α) : Act.Keeps I (onPhase call) :=
  keeps_onPhase hI.phase call

theorem modifyBook (branchId : PyStr) {change : Book κ β → Book κ β}
    (hchange : Lessens change) :
    Act.Keeps I (Act.modify (modifyBook branchId change) : Op W Φ κ β Unit) :=
  .modify fun inst h => hI.book inst branchId change hchange h

theorem cancelAndReleaseAllBranches : Act.Keeps I (cancelAndReleaseAllBranches env) :=
  Act.Keeps.get.bind fun _ =>
    (Act.Keeps.onlyIf fun _ => (Act.Keeps.raiseIf _ _).bind fun _ => hI.onPhase _).bind fun _ =>
    .modify hI.retire

theorem cancelInternal (internalId : Option String) :
    Act.Keeps I (cancelInternal env internalId) := by
  cases internalId with
  | none => exact .pure _
  | some internalId =>
      exact Act.Keeps.get.bind fun _ => (Act.Keeps.raiseIf _ _).bind fun _ => hI.onPhase _

theorem releaseInternal (branchId : PyStr) (internalId : Option String) :
    Act.Keeps I (releaseInternal env branchId internalId) := by
  cases internalId with
  | none => exact .pure _
  | some internalId =>
      exact Act.Keeps.get.bind fun _ => (Act.Keeps.raiseIf _ _).bind fun _ =>
        (hI.onPhase _).bind fun _ => .modify fun inst h => hI.reservation inst _ h

theorem cancelBranch (branchId : PyStr) : Act.Keeps I (cancelBranch env branchId) := by
  refine (keeps_rejectIfRoot branchId).bind fun _ => Act.Keeps.get.bind fun inst => ?_
  split
  · exact .raise _
  · exact .onlyIf fun _ => (hI.cancelInternal env _).bind fun _ =>
      .modify fun inst h => hI.reference _ _ (hI.book inst _ _ lessens_ending h)

theorem releaseBranch (branchId : PyStr) : Act.Keeps I (releaseBranch env branchId) := by
  refine (keeps_rejectIfRoot branchId).bind fun _ => Act.Keeps.get.bind fun inst => ?_
  split
  · exact .raise _
  · exact .onlyIf fun _ => (hI.releaseInternal env _ _).bind fun _ =>
      .modify fun inst h => hI.reference _ _ (hI.book inst _ _ lessens_ending h)

theorem readBranchStatus (branchId : PyStr) : Act.Keeps I (readBranchStatus env branchId) := by
  refine (keeps_rejectIfRoot branchId).bind fun _ => Act.Keeps.get.bind fun inst => ?_
  split
  · exact .raise _
  · split
    · exact .ite (fun _ => .pure _) fun _ => (Act.Keeps.raiseIf _ _).bind fun _ =>
        (hI.onPhase _).bind fun _ =>
        .bind (hI.modifyBook branchId ⟨fun _ => rfl, fun _ => rfl, fun _ _ h => h, fun _ => rfl,
          fun _ => rfl⟩)
          fun _ => .pure _
    · exact .pure _

/-- What the changes keep, the operations keep. -/
theorem stable : Stable env I where
  toFramed := hI.framed
  rootBranchLog := hI.rootBranchLog
  completion := hI.completion
  phase := hI.phase
  install := hI.install
  leave := hI.leave
  cancelBranch := hI.cancelBranch env
  releaseBranch := hI.releaseBranch env
  readBranchStatus := hI.readBranchStatus env
  retire := hI.cancelAndReleaseAllBranches env

theorem close : Act.Keeps I (close env) :=
  Act.Keeps.get.bind fun _ => .onlyIf fun _ =>
    (Act.Keeps.modify fun inst h => hI.closed inst _ h).bind fun _ =>
    (Act.Keeps.onlyIf fun _ => (hI.cancelAndReleaseAllBranches env).ensuring
      ((hI.onPhase _).bind fun _ => .modify hI.leave)).ensuring
    ((Act.Keeps.modify hI.registry).ensuring ((hI.framed.onSession _).ensuring
      (.modify fun inst h => hI.session inst _ h)))

end Calm

namespace Steady

variable {I : Instance W Φ κ β → Prop} (hI : Steady I)
include hI

/-- Two invariants are one. -/
theorem and {J : Instance W Φ κ β → Prop} (hJ : Steady J) : Steady fun inst => I inst ∧ J inst :=
  { hI.toCalm.and hJ.toCalm with
    restore := fun inst prior h => ⟨hI.restore inst prior h.1, hJ.restore inst prior h.2⟩ }

end Steady

namespace Stable

variable {I : Instance W Φ κ β → Prop} (env : RunEnv W Φ κ β) (hI : Stable env I)
include hI

theorem cancelBranches (branchIds : List PyStr) : Act.Keeps I (cancelBranches env branchIds) :=
  keeps_ensureMutable.bind fun _ => (Act.Keeps.forEach hI.cancelBranch _).bind fun _ => .pure _

theorem getBranchStatus (branchIds : List PyStr) : Act.Keeps I (getBranchStatus env branchIds) :=
  (Act.Keeps.collect hI.readBranchStatus _).bind fun _ => .pure _

/-- Two invariants are one. -/
theorem and {J : Instance W Φ κ β → Prop} (hJ : Stable env J) :
    Stable env fun inst => I inst ∧ J inst where
  session inst session h := ⟨hI.session inst session h.1, hJ.session inst session h.2⟩
  rootHistory inst history h :=
    ⟨hI.rootHistory inst history h.1, hJ.rootHistory inst history h.2⟩
  position inst snapshot room actions h :=
    ⟨hI.position inst snapshot room actions h.1, hJ.position inst snapshot room actions h.2⟩
  nextHolder inst holder h := ⟨hI.nextHolder inst holder h.1, hJ.nextHolder inst holder h.2⟩
  issue inst h := ⟨hI.issue inst h.1, hJ.issue inst h.2⟩
  observe inst branchId context h :=
    ⟨hI.observe inst branchId context h.1, hJ.observe inst branchId context h.2⟩
  rootBranchLog inst decisionPointId actionId h :=
    ⟨hI.rootBranchLog inst decisionPointId actionId h.1,
      hJ.rootBranchLog inst decisionPointId actionId h.2⟩
  completion inst completion h :=
    ⟨hI.completion inst completion h.1, hJ.completion inst completion h.2⟩
  phase inst session phase phase' hphase h :=
    ⟨hI.phase inst session phase phase' hphase h.1, hJ.phase inst session phase phase' hphase h.2⟩
  install inst phase hfault h := ⟨hI.install inst phase hfault h.1,
    hJ.install inst phase hfault h.2⟩
  leave inst h := ⟨hI.leave inst h.1, hJ.leave inst h.2⟩
  cancelBranch branchId := (hI.cancelBranch branchId).and (hJ.cancelBranch branchId)
  releaseBranch branchId := (hI.releaseBranch branchId).and (hJ.releaseBranch branchId)
  readBranchStatus branchId := (hI.readBranchStatus branchId).and (hJ.readBranchStatus branchId)
  retire := hI.retire.and hJ.retire

/-!
### The combat

Going into a combat and out of it keeps what the bundles keep, and what a rollback and a
poisoning keep.
-/

section HandOver

theorem onPhase (call : Act PyError (Session W × Phase Φ κ β) α) : Act.Keeps I (onPhase call) :=
  keeps_onPhase hI.phase call

/-- No change but poisoning faults an instance. -/
theorem unfaulted : Framed fun inst => I inst ∧ inst.faulted = false where
  session inst session h := ⟨hI.session inst session h.1, h.2⟩
  rootHistory inst history h := ⟨hI.rootHistory inst history h.1, h.2⟩
  position inst snapshot room actions h := ⟨hI.position inst snapshot room actions h.1, h.2⟩
  nextHolder inst holder h := ⟨hI.nextHolder inst holder h.1, h.2⟩
  issue inst h := ⟨hI.issue inst h.1, h.2⟩
  observe inst branchId context h :=
    ⟨hI.observe inst branchId context h.1, (modifyBook_faulted _ _ _).trans h.2⟩

/-- A phase is installed only where there is no fault. -/
theorem installPhase (phase : Phase Φ κ β) (lease : GameLease) :
    Act.Keeps (fun inst => I inst ∧ inst.faulted = false) (installPhase env phase lease) := by
  refine (hI.unfaulted.strike env _).bind fun _ => Act.Keeps.get.bind fun _ =>
    (Act.Keeps.ofExcept _).bind fun _ => ?_
  exact .modify fun inst h => ⟨hI.install inst _ h.2 h.1, h.2⟩

theorem foldPhase (completion : Json) : Act.Keeps I (foldPhase env completion) :=
  (Act.Keeps.modify fun inst h => hI.completion inst _ h).bind fun _ =>
    hI.retire.bind fun _ => hI.onPhase env _

theorem resumeRun (transfer : GameLease) : Act.Keeps I (resumeRun env transfer) :=
  (Act.Keeps.modify hI.leave).bind fun _ => (hI.strike env _).bind fun _ =>
    (hI.onSession _).bind fun _ => (hI.strike env _).bind fun _ => (hI.onSession _).bind fun _ =>
    (hI.onSession _).bind fun _ =>
    (Act.Keeps.modify fun inst h => hI.position inst _ _ _ h).bind fun _ =>
    hI.maybeCaptureMapSnapshot env

/-- Poisoning, where an invariant does not look at the fault. -/
theorem poisonCombatTransaction (hfault : ∀ inst faulted, I inst → I { inst with faulted })
    (phase : Option (Phase Φ κ β)) : Act.Keeps I (poisonCombatTransaction env phase) := by
  refine .bind (.modify fun inst h => hfault inst true h) fun _ => Act.Keeps.get.bind fun _ =>
    .bind (.onlyIf fun _ => hI.retire.catching fun _ => .pure _)
    fun _ => Act.Keeps.get.bind fun _ =>
    .bind (.modify fun inst h => hI.session _ _ (hI.leave inst h)) fun _ => .bind ?_ fun _ =>
    (hI.onSession _).catching fun _ => .pure _
  unfold closeQuietly
  split
  · exact .pure _
  · exact (hI.closeGiven env _).catching fun _ => .pure _

variable (hpoison : ∀ phase, Act.Keeps I (Instance.poisonCombatTransaction env phase))
include hpoison

/-- Entering a combat: the phase is installed, or the way in is rolled back. -/
theorem enterCombatPhase (hrestore : ∀ (inst : Instance W Φ κ β) prior, I inst →
      I { inst with decisionPoints := inst.decisionPoints.restoreCurrent root prior }) :
    Act.Keeps I (enterCombatPhase env) := by
  have hmutable : Act.Triple I (Instance.ensureMutable : Op W Φ κ β Unit)
      (fun _ inst => I inst ∧ inst.faulted = false) fun _ => I := by
    intro inst h
    unfold Instance.ensureMutable Act.raiseIf
    by_cases hfault : inst.faulted = true
    · simpa [hfault, Act.Ends] using h
    · simpa [hfault, Act.Ends] using h
  -- Up to the end of the hand-over there is no fault.
  have hkeeps : ∀ {γ : Type} {m : Op W Φ κ β γ},
      Act.Keeps (fun inst => I inst ∧ inst.faulted = false) m →
      Act.Triple (fun inst => I inst ∧ inst.faulted = false) m
        (fun _ inst => I inst ∧ inst.faulted = false) fun _ => I :=
    fun hm => Act.Triple.conseq hm (fun _ h => h) (fun _ _ h => h) fun _ _ h => h.1
  have hU := hI.unfaulted
  have hback : ∀ transfer prior, Act.Keeps (fun inst => I inst ∧ inst.faulted = false)
      (rollBack env transfer prior) := fun transfer prior =>
    hU.rollBack env transfer prior fun inst h => ⟨hrestore inst prior h.1, h.2⟩
  refine Act.Triple.bind hmutable fun _ => ?_
  refine Act.Triple.bind (hkeeps .get) fun inst => ?_
  refine Act.Triple.bind (hkeeps (.raiseIf _ _)) fun _ => ?_
  refine Act.Triple.bind (hkeeps (hU.strike env _)) fun _ => ?_
  refine Act.Triple.bind (hkeeps (hU.onSession _)) fun transfer => ?_
  refine Act.Triple.bind (hkeeps .get) fun inst => ?_
  refine Act.Triple.bind (hkeeps ((hU.adoptPhase env).onError fun _ => hback _ _))
    fun phase => ?_
  refine Act.Triple.bind (hkeeps ((hU.publishPhase env _ _).onError fun _ =>
    (hU.closeGiven env _).bind fun _ => hback _ _)) fun lease => ?_
  refine Act.Triple.conseq (Act.Triple.onError (hI.installPhase env phase lease) fun _ =>
    Act.Triple.conseq (hpoison (some phase)) (fun _ h => h.1) (fun _ _ h => h) fun _ _ h => h)
    (fun _ h => h) (fun _ _ h => h.1) fun _ _ h => h

theorem leaveCombatPhase (completion : Json) : Act.Keeps I (leaveCombatPhase env completion) :=
  keeps_ensureMutable.bind fun _ => Act.Keeps.get.bind fun _ =>
    (Act.Keeps.raiseIf _ _).bind fun _ =>
    (hI.strike env _).bind fun _ => (hI.onPhase env _).bind fun _ =>
    ((hI.foldPhase env _).onError fun _ => Act.Keeps.get.bind fun _ => hpoison _).bind fun _ =>
    (hI.resumeRun env _).onError fun _ => hpoison _

end HandOver

/-!
### Commits

A commit puts the action on the record and leads to the next decision.
-/

section Commit

theorem recordRootCommit (decisionPointId actionId : PyStr) (releaseBranches issueDecision : Bool) :
    Act.Keeps I (recordRootCommit env decisionPointId actionId releaseBranches issueDecision) :=
  (Act.Keeps.modify fun inst h => hI.rootBranchLog inst _ _ h).bind fun _ =>
    (Act.Keeps.onlyIf fun _ => hI.retire).bind fun _ =>
    (hI.maybeCaptureMapSnapshot env).bind fun _ =>
    (Act.Keeps.onlyIf fun _ => .modify hI.issue).bind fun _ =>
    (hI.rootView env).bind fun _ => keeps_rootDecisionReply _

section Run

variable (henter : Act.Keeps I (Instance.enterCombatPhase env))
include henter

/-- A move on the map, with the combat it may enter. -/
theorem advanceRun (view : View) (chosen : RunAction) :
    Act.Keeps I (advanceRun env view chosen) := by
  have hmove : ∀ f : Instance W Φ κ β → Option String × Option Int × List Int,
      Act.Keeps I (Act.modify fun inst => { inst with
        mapSnapshot := (f inst).1, roomId := (f inst).2.1, actionPrefix := (f inst).2.2 }
        : Op W Φ κ β Unit) :=
    fun f => .modify fun inst h => hI.position inst _ _ _ h
  refine .ite (fun _ => (hI.onSession _).bind fun _ =>
    (hmove fun inst => (inst.mapSnapshot, _, inst.actionPrefix)).bind fun _ =>
    (hI.onSession _).bind fun _ => ?_) fun _ => ?_
  · exact .ite (fun _ => (hmove fun inst => (inst.mapSnapshot, inst.roomId, [])).bind fun _ =>
      henter.bind fun _ => .pure _)
      fun _ => (hI.onSession _).bind fun auto =>
      (hmove fun inst => (inst.mapSnapshot, inst.roomId, auto)).bind fun _ => .pure _
  · exact (hI.onSession _).bind fun _ =>
      (hmove fun inst => (inst.mapSnapshot, inst.roomId, _)).bind fun _ =>
      (hI.onSession _).bind fun auto =>
      (hmove fun inst => (inst.mapSnapshot, inst.roomId, _)).bind fun _ => .pure _

theorem commitRunAction (decisionPointId actionId : PyStr) (view : View) (chosen : RunAction) :
    Act.Keeps I (commitRunAction env decisionPointId actionId view chosen) := by
  refine (((hI.advanceRun env henter view chosen).bind fun _ => Act.Keeps.pure _).catching
    fun _ => .pure _).bind fun advanced => ?_
  split
  · exact .pure _
  · exact hI.recordRootCommit env _ _ _ _

end Run

variable (hpoison : ∀ phase, Act.Keeps I (Instance.poisonCombatTransaction env phase))
include hpoison

omit hI in
theorem poisonIfAdvanced : Act.Keeps I (poisonIfAdvanced env) := by
  refine Act.Keeps.get.bind fun inst => ?_
  split
  · exact .pure _
  · exact .onlyIf fun _ => hpoison _

theorem stepCombat (chosen : RunAction) : Act.Keeps I (stepCombat env chosen) :=
  ((hI.onPhase env _).bind fun _ => Act.Keeps.pure _).catching fun _ =>
    (poisonIfAdvanced env hpoison).bind fun _ => .pure _

theorem settleCombat (decisionPointId actionId : PyStr) :
    Act.Keeps I (settleCombat env decisionPointId actionId) := by
  refine Act.Keeps.get.bind fun inst => ?_
  split
  · exact (hI.leaveCombatPhase env hpoison _).bind fun _ => hI.recordRootCommit env _ _ _ _
  · exact hI.recordRootCommit env _ _ _ _

theorem commitCombatAction (decisionPointId actionId : PyStr) (chosen : RunAction) :
    Act.Keeps I (commitCombatAction env decisionPointId actionId chosen) := by
  refine (hI.stepCombat env hpoison chosen).bind fun failed => ?_
  split
  · exact .pure _
  · exact (hI.settleCombat env hpoison _ _).catching fun _ => Act.Keeps.get.bind fun _ =>
      (Act.Keeps.onlyIf fun _ => hpoison _).bind fun _ => .pure _

theorem commitAction (henter : Act.Keeps I (Instance.enterCombatPhase env))
    (decisionPointId actionId : PyStr) :
    Act.Keeps I (commitAction env decisionPointId actionId) :=
  keeps_ensureMutable.bind fun _ => Act.Keeps.get.bind fun _ => (Act.Keeps.ofExcept _).bind fun _ =>
    (hI.rootView env).bind fun _ => (Act.Keeps.raiseIf _ _).bind fun _ =>
    (Act.Keeps.ofExcept _).bind fun _ => Act.Keeps.get.bind fun _ =>
    .ite (fun _ => hI.commitCombatAction env hpoison _ _ _)
      fun _ => hI.commitRunAction env henter _ _ _ _

end Commit

/-!
### Requests

From the operations to every request.
-/

section Requests

variable (hpoison : ∀ phase, Act.Keeps I (Instance.poisonCombatTransaction env phase))
  (henter : Act.Keeps I (Instance.enterCombatPhase env))
  (hcombat : ∀ items simulationOptions,
    Act.Keeps I (emulateCombatPhaseActions env items simulationOptions))
  (hevent : ∀ item simulationOptions, Act.Keeps I (emulateEventAction env item simulationOptions))
  (hbatch : ∀ items, Act.Keeps I (Beam.emulateEventBatch env items))
include hpoison henter hcombat hevent hbatch

/-- What the batches keep too is kept by every request. -/
theorem call (facade : Facade) (request : Api.Call) :
    Act.Keeps I (Instance.call env facade request) := by
  -- A combat action is one item of a batch; at an event the branch is played by the instance.
  have hcombatAction : ∀ item simulationOptions,
      Act.Keeps I (emulateCombatAction env item simulationOptions) :=
    fun _ _ => (hcombat _ _).bind fun _ => .ofExcept _
  have haction : ∀ item simulationOptions,
      Act.Keeps I (emulateAction env item simulationOptions) :=
    fun _ _ => Act.Keeps.get.bind fun _ => .ite (fun _ => hcombatAction _ _) fun _ => hevent _ _
  cases request with
  | getDecision branchId => exact (hI.getDecision env branchId).map _
  | commitAction decisionPointId actionId =>
      exact (hI.commitAction env hpoison henter decisionPointId actionId).map _
  | emulateAction item simulationOptions =>
      cases facade with
      | base => exact haction item simulationOptions
      | beam =>
          -- The beam facade asks where the parent is first.
          exact Act.Keeps.get.bind fun _ => .ite (fun _ => hcombatAction _ _) fun _ =>
            (hI.parentAtEvent env _).bind fun _ => .ite (fun _ => haction _ _) fun _ => .raise _
  | emulateActions items simulationOptions =>
      cases facade with
      | base =>
          exact Act.Keeps.get.bind fun _ => (Act.Keeps.raiseIf _ _).bind fun _ =>
            (hcombat _ _).bind fun _ => .pure _
      | beam =>
          -- And checks the batch before it asks whether there is a phase.
          exact (Act.Keeps.ofExcept _).bind fun _ => (keeps_checkBatchSize env _).bind fun _ =>
            (Act.Keeps.ofExcept _).bind fun _ => Act.Keeps.get.bind fun _ => .ite
            (fun _ => (hcombat _ _).bind fun _ => .pure _) fun _ => hbatch _
  | cancelBranches branchIds => exact (hI.cancelBranches env branchIds).map _
  | releaseBranches branchIds => exact (keeps_releaseBranches hI.releaseBranch branchIds).map _
  | getBranchStatus branchIds => exact (hI.getBranchStatus env branchIds).map _

/-- What the batches keep too is kept by every request, and by closing if that keeps
    it. -/
theorem step (facade : Facade) (inst : Instance W Φ κ β) (request : Request)
    (hclose : request = .close → Act.Keeps I (close env)) (h : I inst) :
    I (Instance.step env facade inst request).1 := by
  cases request with
  | start instanceId =>
      cases facade with
      | base => exact (hI.startInstanceResponse env instanceId).after h
      | beam => exact (hI.beamStartInstanceResponse env instanceId).after h
  | call request => exact (hI.call env hpoison henter hcombat hevent hbatch facade request).after h
  | close => exact (hclose rfl).after h

end Requests

end Stable

/-- What the changes and the batches keep is kept by every request. -/
theorem Steady.step {I : Instance W Φ κ β → Prop} (hI : Steady I) (env : RunEnv W Φ κ β)
    (hpoison : ∀ phase, Act.Keeps I (Instance.poisonCombatTransaction env phase))
    (hcombat : ∀ items simulationOptions,
      Act.Keeps I (emulateCombatPhaseActions env items simulationOptions))
    (hevent : ∀ item simulationOptions,
      Act.Keeps I (emulateEventAction env item simulationOptions))
    (hbatch : ∀ items, Act.Keeps I (Beam.emulateEventBatch env items)) (facade : Facade)
    (inst : Instance W Φ κ β) (request : Request) (h : I inst) :
    I (Instance.step env facade inst request).1 :=
  (hI.stable env).step env hpoison ((hI.stable env).enterCombatPhase env hpoison hI.restore)
    hcombat hevent hbatch facade inst request
    (fun _ => hI.close env) h

end Instance

end WholeRun

end STS2RL
