import STS2RL.Api.CombatInstance

/-!
# One Branch, Alone and as a Batch

A branch can be asked for alone and as a batch of one. The two go through the same
steps in different orders. Alone, the id of the branch is used up before its action
is looked up, and nobody counts the active branches. In a batch the id comes first,
then the parent, the action and the count, and it is used up once the branch is
submitted.

So they agree on what is refused before the id is used up, and on a branch that is
submitted and comes to a result. In between they part: what fails there leaves the
id used up when it was asked for alone, and known to nobody in a batch.

## Main definitions

* `Managed`: What a branch manager's calls are relied on for.
* `batchReply`, `SameOutcome`, `Agree`: That the two agree.
* `checked`, `Dispatched`, `AgreesWhen`: When they do.

## Theorems

* `emulateAction_of_new`, `emulateActions_of_new`: What is left after the checks.
* `launchOne_of_dispatched`, `launchAdmitted_of_dispatched`: A submitted branch comes
  to the same record.
* `settleBatch_of_answered`: It is answered alike.
* `agree_iff`: The law of the two requests.
-/

namespace STS2RL

namespace Api

namespace CombatInstance

open WholeRun (RunAction LogEntry HistoryBuilder BookStatus Phase PhaseView PhaseEnv Session
  BranchOps)

variable {W Φ κ β α : Type}

/-- What is relied on of the manager: a status is only read, and what it raises is
    never the rejection of a request. -/
structure Managed (ops : BranchOps Φ κ β) : Prop where
  reads : ∀ internalId branches, (ops.branchStatus internalId branches).2 = branches
  status_raises : ∀ internalId branches rejection,
    (ops.branchStatus internalId branches).1 ≠ .error (.rejected rejection)
  poll_raises : ∀ timeout internalIds branches rejection,
    (ops.poll timeout internalIds branches).1 ≠ .error (.rejected rejection)

/-!
### What it means to agree

The request alone and the batch of one answer alike, if the one reply is put into the form
of the other. The names of the two requests occur in the texts of clean-ups that failed,
so these are compared up to the name.
-/

section Statement

variable (env : CombatEnv W Φ κ β)

/-- The reply to a batch of one. -/
def batchReply (branchId : PyStr) (fields : Fields) : Fields :=
  [("status", .str "completed"), ("branch_results", .obj [(branchId, .obj fields)])]

/-- A clean-up that failed, by the name of the request. -/
def cleanupFailed (operation : String) : PyError :=
  .raised "RuntimeError" (operation ++
    " cleanup failed; combat instance was closed to prevent ghost Branch execution")

/-- The outcome of the request alone, and of the batch of one. -/
inductive SameOutcome (branchId : PyStr) : Except PyError Fields →
    Except PyError Fields → Prop where
  | replies (fields : Fields) :
      SameOutcome branchId (.ok fields) (.ok (batchReply branchId fields))
  | raises (error : PyError) : SameOutcome branchId (.error error) (.error error)
  | closes : SameOutcome branchId (.error (cleanupFailed "emulate_action"))
      (.error (cleanupFailed "emulate_actions"))

/-- The two requests agree, and change nothing when they are rejected. -/
structure Agree (inst : CombatInstance W Φ κ β) (item : EmulateItem)
    (simulationOptions : Option Fields) : Prop where
  outcome : SameOutcome item.branchId (emulateAction env item simulationOptions inst).1
    (emulateActions env [item] simulationOptions inst).1
  state : (emulateAction env item simulationOptions inst).2 =
    (emulateActions env [item] simulationOptions inst).2
  single_rejected : ∀ rejection,
    (emulateAction env item simulationOptions inst).1 = .error (.rejected rejection) →
      (emulateAction env item simulationOptions inst).2 = inst
  batch_rejected : ∀ rejection,
    (emulateActions env [item] simulationOptions inst).1 = .error (.rejected rejection) →
      (emulateActions env [item] simulationOptions inst).2 = inst

/-- The checks of the parent and of its decision point. -/
def checked (inst : CombatInstance W Φ κ β) (item : EmulateItem) : Except PyError Unit :=
  (checkParent env item.parentBranchId item.rngId inst).1.bind fun _ =>
    inst.decisionPoints.validate item.parentBranchId item.decisionPointId

/-- The action is there, a branch more is not too many, the parent has a history, and
    the branch is submitted and does not come back from its poll without a result. -/
structure Dispatched (inst : CombatInstance W Φ κ β) (item : EmulateItem)
    (simulationOptions : Option Fields) (admitted : AdmittedItem κ β) (internalId : String)
    (submitted : CombatInstance W Φ κ β) : Prop where
  resolved : inst.resolveItem env item = .ok admitted
  fits : env.phases.branches.activeBranchCount inst.phase.branches + 1 ≤ env.maxBranches
  forked : ∃ history, inst.forkedHistory item.parentBranchId = .ok history
  submits : submitOne env admitted inst = (.ok internalId, submitted)
  answered : ∀ timeout results branches,
    WholeRun.Instance.pollTimeout simulationOptions = .ok timeout →
    env.phases.branches.poll timeout [internalId] submitted.phase.branches =
        (.ok results, branches) →
      Dict.lookupL internalId results ≠ none

/-- When the two agree: they are refused at once, or the id is known and only the id is
    wrong, or the id is new and the parent is refused or the branch is dispatched. -/
def AgreesWhen (inst : CombatInstance W Φ κ β) (item : EmulateItem)
    (simulationOptions : Option Fields) : Prop :=
  inst.closed = true ∨ (∃ error, validateStopCondition simulationOptions = .error error) ∨
  0 < env.maxBranches ∧
    (inst.branchIds.isKnown item.branchId = true → checked env inst item = .ok ()) ∧
    (inst.branchIds.isKnown item.branchId = false → checked env inst item = .ok () →
      ∃ admitted internalId submitted,
        Dispatched env inst item simulationOptions admitted internalId submitted)

end Statement

/-!
### The checks before anything is used up

Both requests check the parent and its decision point, and what the checks refuse is told
from everything a batch begins with by the text of the rejection.
-/

section Checks

variable {env : CombatEnv W Φ κ β} {inst : CombatInstance W Φ κ β} {item : EmulateItem}
  {simulationOptions : Option Fields}

/-- A call on the phase changes nothing else. -/
theorem onPhase_apply (call : Act PyError (Session W × Phase Φ κ β) α)
    (inst : CombatInstance W Φ κ β) :
    onPhase call inst = ((call (inst.session, inst.phase)).1,
      { inst with
        session := (call (inst.session, inst.phase)).2.1
        phase := (call (inst.session, inst.phase)).2.2 }) := rfl

theorem onBranches_apply (call : Act PyError Φ α) (inst : CombatInstance W Φ κ β) :
    onBranches call inst = ((call inst.phase.branches).1,
      { inst with phase := { inst.phase with branches := (call inst.phase.branches).2 } }) := rfl

variable (inst) in
/-- Checking the parent changes nothing. -/
theorem checkParent_reads (hmanaged : Managed env.phases.branches) (parentId : PyStr)
    (rngId : Int) :
    (checkParent env parentId rngId inst).2 = inst := by
  have hkeeps : Act.Keeps (· = inst) (checkParent env parentId rngId) := by
    unfold checkParent
    refine .bind .get fun read => .ite (fun _ => .pure _) fun _ => ?_
    cases read.bookkeeping.get? parentId with
    | none => exact .raise _
    | some book =>
        refine .bind (.raiseIf _ _) fun _ => .bind ?_ fun _ => .bind (.raiseIf _ _) fun _ =>
          .raiseIf _ _
        refine Act.Keeps.of_after fun after hafter => ?_
        subst hafter
        rw [onBranches_apply, hmanaged.reads]
  exact hkeeps.after rfl

/-- The two checks, as the requests make them. -/
theorem checkParent_then (hmanaged : Managed env.phases.branches)
    (f : CombatInstance W Φ κ β → Op W Φ κ β α) :
    (do
      checkParent env item.parentBranchId item.rngId
      let inst ← Act.get
      Act.ofExcept (inst.decisionPoints.validate item.parentBranchId item.decisionPointId)
      f inst : Op W Φ κ β α) inst =
    match checked env inst item with
    | .error error => (.error error, inst)
    | .ok () => f inst inst := by
  have hreads := checkParent_reads inst hmanaged item.parentBranchId item.rngId
  unfold checked
  rcases hparent : checkParent env item.parentBranchId item.rngId inst with ⟨error | _, after⟩
  · rw [hparent] at hreads
    rw [Act.bind_of_error _ hparent, show after = inst from hreads]
    rfl
  · rw [hparent] at hreads
    rw [Act.bind_of_ok _ hparent, show after = inst from hreads, Act.get_bind]
    dsimp only [Except.bind]
    rcases inst.decisionPoints.validate item.parentBranchId item.decisionPointId with error | _
    · rfl
    · rfl

theorem validateStopCondition_then (hstop : validateStopCondition simulationOptions = .ok ())
    (f : Unit → Op W Φ κ β α) :
    (Act.ofExcept (validateStopCondition simulationOptions) >>= f) inst = f () inst := by
  rw [hstop]
  rfl

/-- The rejection of a batch that is too large. -/
def tooLarge (size most : Nat) : PyError :=
  .rejected (reject ("emulate_actions batch size " ++ toString size ++
    " exceeds max batch size " ++ toString most ++
    "; chunk the frontier into multiple requests"))

/-- An error of the checks, which is none of those that a batch begins with. -/
def Refusal (error : PyError) : Prop :=
  (∀ branchId, error ≠ BranchIdRegistry.alreadyUsed branchId) ∧
    ∀ size most, error ≠ tooLarge size most

theorem refusal_of_not_rejected {error : PyError}
    (h : ∀ rejection, error ≠ .rejected rejection) : Refusal error :=
  ⟨fun _ => h _, fun _ _ => h _⟩

/-- A rejection is told by how its text begins. -/
theorem refusal_of_head {text : String} {first : Char}
    (htext : ∃ rest, text.toList = first :: rest) (hfirst : first ≠ 'b' ∧ first ≠ 'e') :
    Refusal (.rejected (reject text)) := by
  rcases htext with ⟨rest, htext⟩
  constructor
  · intro branchId heq
    have hlist := congrArg String.toList (congrArg Rejection.error (PyError.rejected.inj heq))
    simp only [reject, htext, String.toList_append] at hlist
    exact hfirst.1 (List.cons.inj hlist).1
  · intro size most heq
    have hlist := congrArg String.toList (congrArg Rejection.error (PyError.rejected.inj heq))
    simp only [reject, htext, String.toList_append] at hlist
    exact hfirst.2 (List.cons.inj hlist).1

/-- What the registry of decision points refuses. -/
theorem refusal_validate {branchId given : PyStr} {error : PyError}
    {decisionPoints : DecisionPointRegistry}
    (h : decisionPoints.validate branchId given = .error error) : Refusal error := by
  unfold DecisionPointRegistry.validate at h
  cases hcurrent : decisionPoints.current? branchId with
  | none =>
      rw [hcurrent] at h
      cases h
      constructor
      · -- The two rejections begin alike, and end differently.
        intro other heq
        have hlast := congrArg (fun text : String => text.toList.getLast?)
          (congrArg Rejection.error (PyError.rejected.inj heq))
        simp only [reject, String.toList_append, List.getLast?_append] at hlast
        cases hlast
      · intro size most heq
        have hlist := congrArg String.toList (congrArg Rejection.error (PyError.rejected.inj heq))
        simp [reject, String.toList_append] at hlist
  | some current =>
      rw [hcurrent] at h
      dsimp only at h
      by_cases hstale : current ≠ given
      · rw [if_pos hstale] at h
        cases h
        refine refusal_of_head ?_ (by decide : 's' ≠ 'b' ∧ 's' ≠ 'e')
        simp only [String.toList_append]
        exact ⟨_, rfl⟩
      · rw [if_neg hstale] at h
        cases h

/-- What the check of the parent refuses. -/
theorem refusal_checkParent (hmanaged : Managed env.phases.branches) (parentId : PyStr)
    (rngId : Int) {error : PyError} (h : (checkParent env parentId rngId inst).1 = .error error) :
    Refusal error := by
  -- The refusals of a parent begin with a word of their own, which no other refusal begins with.
  have hparent : ∀ text : String,
      Refusal (.rejected (reject ("parent_branch_id " ++ pyRepr parentId ++ text))) := by
    intro text
    refine refusal_of_head ?_ (by decide : 'p' ≠ 'b' ∧ 'p' ≠ 'e')
    simp only [String.toList_append]
    exact ⟨_, rfl⟩
  -- The parent is the root, or a record is looked up and its status asked for.
  have hspec : Act.Triple (fun _ => True) (checkParent env parentId rngId) (fun _ _ => True)
      fun error _ => Refusal error := by
    unfold checkParent
    refine .bind (Q := fun _ _ => True) (.get fun _ _ => trivial) fun read => ?_
    by_cases hroot : parentId = WholeRun.root
    · rw [if_pos hroot]
      exact .pure fun _ _ => trivial
    · rw [if_neg hroot]
      cases read.bookkeeping.get? parentId with
      | none => exact .raise fun _ _ => hparent _
      | some book =>
          refine .bind (Q := fun _ _ => True)
            (.raiseIf (fun _ _ _ => trivial) fun _ _ _ => hparent _) fun _ =>
            .bind (Q := fun _ _ => True) ?_ fun status =>
            .bind (Q := fun _ _ => True) (.raiseIf (fun _ _ _ => trivial) fun _ _ _ => ?_) fun _ =>
            .raiseIf (fun _ _ _ => trivial) fun _ _ _ => ?_
          -- Only the manager can raise here, and it raises no rejection.
          · intro read _
            rw [onBranches_apply]
            have hraises := hmanaged.status_raises book.internalId read.phase.branches
            cases hstatus : (env.phases.branches.branchStatus book.internalId
                read.phase.branches).1 with
            | ok status => trivial
            | error error =>
                exact refusal_of_not_rejected fun rejection heq =>
                  hraises rejection (heq ▸ hstatus)
          · unfold WholeRun.Instance.cannotBeExtended
            rw [String.append_assoc, String.append_assoc, String.append_assoc]
            exact hparent _
          · refine refusal_of_head ?_ (by decide : 'n' ≠ 'b' ∧ 'n' ≠ 'e')
            simp only [String.toList_append]
            exact ⟨_, rfl⟩
  have hends := hspec inst trivial
  rcases hrun : checkParent env parentId rngId inst with ⟨outcome, after⟩
  rw [hrun] at hends h
  subst h
  exact hends

/-- What the checks refuse, a batch does not begin with. -/
theorem refusal_checked (hmanaged : Managed env.phases.branches) {error : PyError}
    (h : checked env inst item = .error error) : Refusal error := by
  unfold checked at h
  cases hparent : (checkParent env item.parentBranchId item.rngId inst).1 with
  | error refused =>
      rw [hparent] at h
      cases h
      exact refusal_checkParent hmanaged _ _ hparent
  | ok _ =>
      rw [hparent] at h
      exact refusal_validate h

end Checks

/-!
### After the checks

The request alone uses the id up and looks the action up next; the batch checks the id,
the parent, the action and the count.
-/

section Launch

variable (env : CombatEnv W Φ κ β)

/-- A request for one branch, after its checks and once its id is used up. -/
def launchOne (item : EmulateItem) (simulationOptions : Option Fields) : Op W Φ κ β Fields := do
  let inst ← Act.get
  let admitted ← Act.ofExcept (inst.resolveItem env item)
  let marker := inst.phase.rngTable.snapshot
  let internalId ← (submitOne env admitted).onError fun _ =>
    unwind env "emulate_action" [item.branchId] marker []
  (runOne env simulationOptions item internalId).onError fun _ =>
    unwind env "emulate_action" [item.branchId] marker [internalId]

/-- A batch of one that was admitted. -/
def launchAdmitted (simulationOptions : Option Fields) (admitted : AdmittedItem κ β) :
    Op W Φ κ β Fields := do
  let inst ← Act.get
  let active := env.phases.branches.activeBranchCount inst.phase.branches
  Act.raiseIf (env.maxBranches < active + 1)
    (.rejected (reject ("submitting " ++ toString 1 ++
      " Branch(es) would exceed max_branches=" ++ toString env.maxBranches ++ " (currently " ++
      toString active ++ " active)")))
  let marker := inst.phase.rngTable.snapshot
  let (prepared, internalIds) ← (submitItems env [admitted]).onError fun _ =>
    unwind env "emulate_actions" [admitted.item.branchId] marker []
  (runItems env simulationOptions prepared internalIds).onError fun _ =>
    unwind env "emulate_actions" [admitted.item.branchId] marker internalIds

/-- The id of the item is used up. -/
def registered (inst : CombatInstance W Φ κ β) (item : EmulateItem) : CombatInstance W Φ κ β :=
  { inst with branchIds := ⟨insert item.branchId inst.branchIds.everUsed⟩ }

variable {env} {inst : CombatInstance W Φ κ β} {item : EmulateItem}
  {simulationOptions : Option Fields}

theorem emulateAction_of_refused (hmanaged : Managed env.phases.branches)
    (hopen : inst.closed = false) (hstop : validateStopCondition simulationOptions = .ok ())
    {error : PyError} (hchecked : checked env inst item = .error error) :
    emulateAction env item simulationOptions inst = (.error error, inst) := by
  unfold emulateAction
  rw [ensureOpen_of_open hopen, validateStopCondition_then hstop, checkParent_then hmanaged,
    hchecked]

theorem emulateAction_of_known (hmanaged : Managed env.phases.branches)
    (hopen : inst.closed = false) (hstop : validateStopCondition simulationOptions = .ok ())
    (hchecked : checked env inst item = .ok ())
    (hknown : inst.branchIds.isKnown item.branchId = true) :
    emulateAction env item simulationOptions inst =
      (.error (BranchIdRegistry.alreadyUsed item.branchId), inst) := by
  unfold emulateAction
  rw [ensureOpen_of_open hopen, validateStopCondition_then hstop, checkParent_then hmanaged,
    hchecked]
  dsimp only [BranchIdRegistry.register]
  rw [if_pos hknown]
  rfl

/-- Alone, a new id is used up once the parent is checked. -/
theorem emulateAction_of_new (hmanaged : Managed env.phases.branches)
    (hopen : inst.closed = false) (hstop : validateStopCondition simulationOptions = .ok ())
    (hchecked : checked env inst item = .ok ())
    (hnew : inst.branchIds.isKnown item.branchId = false) :
    emulateAction env item simulationOptions inst =
      launchOne env item simulationOptions (registered inst item) := by
  unfold emulateAction
  rw [ensureOpen_of_open hopen, validateStopCondition_then hstop, checkParent_then hmanaged,
    hchecked]
  dsimp only [BranchIdRegistry.register]
  rw [if_neg (by simp [hnew])]
  rfl

variable (item) in
theorem emulateActions_of_small (hopen : inst.closed = false)
    (hstop : validateStopCondition simulationOptions = .ok ()) (hsmall : env.maxBranches = 0) :
    emulateActions env [item] simulationOptions inst = (.error (tooLarge 1 0), inst) := by
  unfold emulateActions
  rw [ensureOpen_of_open hopen, validateStopCondition_then hstop, hsmall]
  rfl

/-- A batch of one, after the checks of its size. -/
theorem emulateActions_of_open (hopen : inst.closed = false)
    (hstop : validateStopCondition simulationOptions = .ok ()) (hlarge : 0 < env.maxBranches) :
    emulateActions env [item] simulationOptions inst =
      (validateItem env [] item >>= launchAdmitted env simulationOptions) inst := by
  unfold emulateActions
  rw [ensureOpen_of_open hopen, validateStopCondition_then hstop]
  unfold Act.raiseIf
  have hsize : ¬ env.maxBranches < [item].length := Nat.not_lt.mpr hlarge
  rw [if_neg (List.cons_ne_nil item []), if_neg hsize, Act.pure_bind_apply,
    Act.pure_bind_apply, Act.bind_apply, Act.bind_apply]
  unfold validateItems validateItems
  rw [Act.bind_apply]
  rcases validateItem env [] item inst with ⟨error | admitted, after⟩
  · rfl
  · rfl

theorem emulateActions_of_known (hopen : inst.closed = false)
    (hstop : validateStopCondition simulationOptions = .ok ()) (hlarge : 0 < env.maxBranches)
    (hknown : inst.branchIds.isKnown item.branchId = true) :
    emulateActions env [item] simulationOptions inst =
      (.error (BranchIdRegistry.alreadyUsed item.branchId), inst) := by
  rw [emulateActions_of_open hopen hstop hlarge]
  unfold validateItem Act.raiseIf
  rw [if_neg (List.not_mem_nil), Act.bind_apply, Act.pure_bind_apply, Act.get_bind,
    if_pos hknown]
  rfl

/-- A new id of a batch is followed by the same checks. -/
theorem emulateActions_of_new (hmanaged : Managed env.phases.branches)
    (hopen : inst.closed = false) (hstop : validateStopCondition simulationOptions = .ok ())
    (hlarge : 0 < env.maxBranches) (hnew : inst.branchIds.isKnown item.branchId = false) :
    emulateActions env [item] simulationOptions inst =
      match checked env inst item with
      | .error error => (.error error, inst)
      | .ok () =>
          match inst.resolveItem env item with
          | .error error => (.error error, inst)
          | .ok admitted => launchAdmitted env simulationOptions admitted inst := by
  rw [emulateActions_of_open hopen hstop hlarge]
  unfold validateItem Act.raiseIf
  rw [if_neg (List.not_mem_nil), Act.bind_apply, Act.pure_bind_apply, Act.get_bind,
    if_neg (by simp [hnew]), Act.pure_bind_apply, checkParent_then hmanaged
      fun inst => Act.ofExcept (inst.resolveItem env item)]
  rcases checked env inst item with error | _
  · rfl
  · dsimp only
    rcases inst.resolveItem env item with error | admitted
    · rfl
    · rfl

end Launch

/-!
### Submitting one item

Submitting a list of one is submitting the item, with the error raised at another place.
-/

section Submit

variable (env : CombatEnv W Φ κ β)

/-- The work of an item, and its branches. -/
def dispatch (admitted : AdmittedItem κ β) : Op W Φ κ β (Combat.WorkItem κ β × List String) := do
  let workItem ← buildWorkItem env admitted
  let inst ← Act.get
  let internalIds ← onBranches (env.phases.branches.submitMany
    [(workItem, inst.parentInternalId admitted.item.parentBranchId)])
  pure (workItem, internalIds)

/-- The item as a batch prepares it. -/
def preparedItem (inst : CombatInstance W Φ κ β) (admitted : AdmittedItem κ β)
    (history : HistoryBuilder) (workItem : Combat.WorkItem κ β) : PreparedItem κ β where
  admitted
  workItem
  parentInternalId := inst.parentInternalId admitted.item.parentBranchId
  branchLog := inst.branchLogFor admitted.item
  history

variable {env} {inst : CombatInstance W Φ κ β} {admitted : AdmittedItem κ β}

/-- The phase is all that a submission changes, and all it looks at beside the
    records. -/
theorem dispatch_registered (item : EmulateItem) :
    dispatch env admitted (registered inst item) =
      ((dispatch env admitted inst).1, registered (dispatch env admitted inst).2 item) := by
  unfold dispatch buildWorkItem
  rw [Act.bind_apply, Act.bind_apply, onPhase_apply, onPhase_apply]
  dsimp only [registered]
  rcases Phase.buildWorkItem env.phases admitted.context admitted.candidate
    (admitted.item.parentBranchId, admitted.item.decisionPointId, admitted.item.rngId)
    (inst.session, inst.phase) with ⟨error | workItem, session, phase⟩
  · rfl
  · dsimp only
    rw [Act.get_bind, Act.get_bind, Act.bind_apply, Act.bind_apply, onBranches_apply,
      onBranches_apply]
    dsimp only [parentInternalId]
    rcases env.phases.branches.submitMany _ phase.branches with ⟨error | internalIds, branches⟩
    · rfl
    · rfl

theorem dispatch_frame : ∃ session phase,
    (dispatch env admitted inst).2 = { inst with session, phase } := by
  unfold dispatch buildWorkItem
  rw [Act.bind_apply, onPhase_apply]
  rcases Phase.buildWorkItem env.phases admitted.context admitted.candidate
    (admitted.item.parentBranchId, admitted.item.decisionPointId, admitted.item.rngId)
    (inst.session, inst.phase) with ⟨error | workItem, session, phase⟩
  · exact ⟨_, _, rfl⟩
  · dsimp only
    rw [Act.get_bind, Act.bind_apply, onBranches_apply]
    rcases env.phases.branches.submitMany _ phase.branches with ⟨error | internalIds, branches⟩
    · exact ⟨_, _, rfl⟩
    · exact ⟨_, _, rfl⟩

/-- A single submission is a dispatch whose one id is taken. -/
theorem submitOne_eq :
    submitOne env admitted inst =
      (((dispatch env admitted inst).1.bind fun sent => onlyId sent.2),
        (dispatch env admitted inst).2) := by
  unfold submitOne dispatch
  rw [Act.bind_apply, Act.bind_apply]
  rcases buildWorkItem env admitted inst with ⟨error | workItem, after⟩
  · rfl
  · dsimp only
    rw [Act.get_bind, Act.get_bind, Act.bind_apply, Act.bind_apply]
    rcases onBranches (env.phases.branches.submitMany
      [(workItem, after.parentInternalId admitted.item.parentBranchId)]) after with
        ⟨error | internalIds, after⟩
    · rfl
    · rfl

variable (env) in
/-- A batch of one submits the same, where its parent has a history. -/
theorem submitItems_of_forked {history : HistoryBuilder}
    (hforked : inst.forkedHistory admitted.item.parentBranchId = .ok history) :
    submitItems env [admitted] inst =
      ((dispatch env admitted inst).1.map fun sent =>
          ([inst.preparedItem admitted history sent.1], sent.2),
        (dispatch env admitted inst).2) := by
  unfold submitItems dispatch
  -- Both build the same work item, and then send it as one.
  rw [Act.bind_apply, Act.bind_apply]
  unfold Act.collect prepareItem buildWorkItem
  rw [Act.bind_apply, Act.bind_apply, onPhase_apply]
  rcases Phase.buildWorkItem env.phases admitted.context admitted.candidate
    (admitted.item.parentBranchId, admitted.item.decisionPointId, admitted.item.rngId)
    (inst.session, inst.phase) with ⟨error | workItem, session, phase⟩
  · rfl
  -- Building the item changes the session and the phase only, so the history is forked from what
  -- it was.
  · dsimp only
    rw [Act.get_bind, Act.get_bind]
    have hforked' : ({ inst with session, phase } : CombatInstance W Φ κ β).forkedHistory
        admitted.item.parentBranchId = .ok history := hforked
    rw [hforked']
    change ((onBranches (env.phases.branches.submitMany
        [(workItem, inst.parentInternalId admitted.item.parentBranchId)]) >>= fun internalIds =>
      pure ([inst.preparedItem admitted history workItem], internalIds) :
        Op W Φ κ β (List (PreparedItem κ β) × List String)) { inst with session, phase }) = _
    rw [Act.bind_apply, Act.bind_apply]
    rcases hsent : onBranches (env.phases.branches.submitMany
        [(workItem, inst.parentInternalId admitted.item.parentBranchId)])
        ({ inst with session, phase } : CombatInstance W Φ κ β) with ⟨error | internalIds, after⟩
    · rw [show onBranches (env.phases.branches.submitMany [(workItem,
        ({ inst with session, phase } : CombatInstance W Φ κ β).parentInternalId
          admitted.item.parentBranchId)]) _ = _ from hsent]
      rfl
    · rw [show onBranches (env.phases.branches.submitMany [(workItem,
        ({ inst with session, phase } : CombatInstance W Φ κ β).parentInternalId
          admitted.item.parentBranchId)]) _ = _ from hsent]
      rfl

/-- Without a history of the parent nothing is submitted. -/
theorem submitItems_of_not_forked {error : PyError}
    (hforked : inst.forkedHistory admitted.item.parentBranchId = .error error) :
    ∃ error, (submitItems env [admitted] inst).1 = .error error := by
  unfold submitItems
  rw [Act.bind_apply]
  unfold Act.collect prepareItem buildWorkItem
  rw [Act.bind_apply, Act.bind_apply, onPhase_apply]
  rcases Phase.buildWorkItem env.phases admitted.context admitted.candidate
    (admitted.item.parentBranchId, admitted.item.decisionPointId, admitted.item.rngId)
    (inst.session, inst.phase) with ⟨error | workItem, session, phase⟩
  · exact ⟨_, rfl⟩
  · dsimp only
    have hforked' : ({ inst with session, phase } : CombatInstance W Φ κ β).forkedHistory
        admitted.item.parentBranchId = .error error := hforked
    rw [Act.get_bind, hforked']
    exact ⟨_, rfl⟩

end Submit

/-!
### Settling one result

A result is settled in both requests by the same function, and a batch of one that fails
is taken back by what the request alone does.
-/

section Run

variable (env : CombatEnv W Φ κ β)

/-- The instance once the branch of an item has its record. -/
def recorded (submitted : CombatInstance W Φ κ β) (item : EmulateItem) (internalId : String)
    (branchLog : List LogEntry) (history : HistoryBuilder) : CombatInstance W Φ κ β :=
  { registered submitted item with
    bookkeeping := submitted.bookkeeping.set item.branchId
      { internalId
        parentPublicId := item.parentBranchId
        branchLog
        history := some history
        rngId := item.rngId } }

/-- The poll of one branch and the reply. -/
def settleOne (simulationOptions : Option Fields) (item : EmulateItem) (internalId : String)
    (branchLog : List LogEntry) : Op W Φ κ β Fields := do
  let timeout ← Act.ofExcept (WholeRun.Instance.pollTimeout simulationOptions)
  let results ← onBranches (env.phases.branches.poll timeout [internalId])
  match Dict.lookupL internalId results with
  | none => pure (("status", .str (.text BookStatus.running.text)) ::
      ("branch_id", .str item.branchId) :: originFields item)
  | some result => finalizeBranchResult env item branchLog result

/-- The same in a batch. -/
def settleBatch (simulationOptions : Option Fields) (entry : PreparedItem κ β × String) :
    Op W Φ κ β Fields := do
  let timeout ← Act.ofExcept (WholeRun.Instance.pollTimeout simulationOptions)
  let results ← onBranches (env.phases.branches.poll timeout [entry.2])
  let replies ← Act.collect (settleItem env results) [entry]
  pure [("status", .str "completed"), ("branch_results", .obj replies)]

variable {env} {inst submitted : CombatInstance W Φ κ β} {admitted : AdmittedItem κ β}
  {simulationOptions : Option Fields} {history : HistoryBuilder} {internalId : String}

variable (env simulationOptions internalId) in
theorem runOne_eq
    (hforked : submitted.forkedHistory admitted.item.parentBranchId = .ok history) :
    runOne env simulationOptions admitted.item internalId (registered submitted admitted.item) =
      settleOne env simulationOptions admitted.item internalId
        (submitted.branchLogFor admitted.item)
        (recorded submitted admitted.item internalId
          (submitted.branchLogFor admitted.item) history) := by
  unfold runOne
  have hforked' : (registered submitted admitted.item).forkedHistory
      admitted.item.parentBranchId = .ok history := hforked
  rw [Act.get_bind, hforked']
  rfl

variable (env simulationOptions history internalId) in
/-- The id of a batch is used up now, and the record is the same. -/
theorem runItems_eq (hnew : submitted.branchIds.isKnown admitted.item.branchId = false)
    (workItem : Combat.WorkItem κ β) :
    runItems env simulationOptions [submitted.preparedItem admitted history workItem]
        [internalId] submitted =
      settleBatch env simulationOptions
        (submitted.preparedItem admitted history workItem, internalId)
        (recorded submitted admitted.item internalId
          (submitted.branchLogFor admitted.item) history) := by
  unfold runItems Act.raiseIf
  rw [if_neg (by simp), Act.pure_bind_apply]
  have hregister : Act.forEach registerId
      ([submitted.preparedItem admitted history workItem].zip [internalId]) submitted =
      (.ok (), registered submitted admitted.item) := by
    have hregister : submitted.branchIds.register admitted.item.branchId =
        .ok ⟨insert admitted.item.branchId submitted.branchIds.everUsed⟩ :=
      if_neg (by simp [hnew])
    have hone : registerId (submitted.preparedItem admitted history workItem, internalId)
        submitted = (.ok (), registered submitted admitted.item) := by
      unfold registerId
      rw [Act.get_bind]
      dsimp only [preparedItem]
      rw [hregister]
      rfl
    exact Act.bind_of_ok submitted hone
  rw [Act.bind_of_ok _ hregister]
  rfl

variable (history) in
/-- Where the poll has a result, both replies are made of it in the same way. -/
theorem settleBatch_of_answered (workItem : Combat.WorkItem κ β) {branchLog : List LogEntry}
    (state : CombatInstance W Φ κ β)
    (hlog : (inst.preparedItem admitted history workItem).branchLog = branchLog)
    (hanswered : ∀ timeout results branches,
      WholeRun.Instance.pollTimeout simulationOptions = .ok timeout →
      env.phases.branches.poll timeout [internalId] state.phase.branches =
          (.ok results, branches) → Dict.lookupL internalId results ≠ none) :
    settleBatch env simulationOptions (inst.preparedItem admitted history workItem, internalId)
        state =
      ((settleOne env simulationOptions admitted.item internalId branchLog state).1.map
          (batchReply admitted.item.branchId),
        (settleOne env simulationOptions admitted.item internalId branchLog state).2) := by
  subst hlog
  unfold settleBatch settleOne
  -- The time to wait is read first, in both.
  rcases htimeout : WholeRun.Instance.pollTimeout simulationOptions with error | timeout
  · rfl
  · have hok : ∀ f : ℚ → Op W Φ κ β Fields,
        (Act.ofExcept (.ok timeout) >>= f) state = f timeout state := fun _ => rfl
    -- Both poll for the one branch.
    have hpolled := onBranches_apply (env.phases.branches.poll timeout [internalId]) state
    rw [hok, hok]
    rcases hresults : env.phases.branches.poll timeout [internalId] state.phase.branches with
      ⟨error | results, branches⟩
    · rw [hresults] at hpolled
      rw [Act.bind_of_error _ hpolled, Act.bind_of_error _ hpolled]
      rfl
    · rw [hresults] at hpolled
      rw [Act.bind_of_ok _ hpolled, Act.bind_of_ok _ hpolled]
      -- The poll answers for it, and from there on both finalize the same result.
      rcases Option.ne_none_iff_exists'.mp (hanswered timeout results branches htimeout hresults)
        with ⟨result, hresult⟩
      unfold Act.collect Act.collect settleItem
      dsimp only
      rw [hresult]
      dsimp only [preparedItem]
      rw [Act.bind_apply, Act.bind_apply, Act.bind_apply]
      rcases finalizeBranchResult env admitted.item _ result _ with ⟨error | fields, after⟩
      · rfl
      · rfl

/-- Where the poll has no result, the branch is said to run, and the batch raises. -/
theorem settle_of_unanswered (entry : PreparedItem κ β × String) {branchLog : List LogEntry}
    {item : EmulateItem} (state : CombatInstance W Φ κ β) {timeout : ℚ}
    {results : List (String × Combat.BranchResult κ β)} {branches : Φ}
    (htimeout : WholeRun.Instance.pollTimeout simulationOptions = .ok timeout)
    (hresults : env.phases.branches.poll timeout [entry.2] state.phase.branches =
      (.ok results, branches))
    (hnone : Dict.lookupL entry.2 results = none) :
    (∃ fields, (settleOne env simulationOptions item entry.2 branchLog state).1 = .ok fields) ∧
      ∃ error, (settleBatch env simulationOptions entry state).1 = .error error := by
  have hpolled := onBranches_apply (env.phases.branches.poll timeout [entry.2]) state
  rw [hresults] at hpolled
  unfold settleOne settleBatch
  rw [htimeout]
  have hok : ∀ f : ℚ → Op W Φ κ β Fields,
      (Act.ofExcept (.ok timeout) >>= f) state = f timeout state := fun _ => rfl
  rw [hok, hok, Act.bind_of_ok _ hpolled, Act.bind_of_ok _ hpolled]
  unfold Act.collect Act.collect settleItem
  dsimp only
  rw [hnone]
  exact ⟨⟨_, rfl⟩, ⟨_, rfl⟩⟩

end Run

/-!
### What leaves the ids alone

Everything after the id is used up leaves the set of ids as it is, and raises nothing a
batch begins with. This tells a failure before from a failure after.
-/

section Quiet

/-- An error that is no rejection of a request. -/
def NotRejected (error : PyError) : Prop := ∀ rejection, error ≠ .rejected rejection

theorem notRejected_raised (typeName message : String) : NotRejected (.raised typeName message) :=
  fun _ h => nomatch h

/-- The used ids stay, and what is raised is no rejection. -/
def Quiet (ids : BranchIdRegistry) (m : Op W Φ κ β α) : Prop :=
  Act.Triple (fun inst => inst.branchIds = ids) m (fun _ inst => inst.branchIds = ids)
    fun error inst => inst.branchIds = ids ∧ NotRejected error

variable {ids : BranchIdRegistry} {env : CombatEnv W Φ κ β}

theorem Quiet.keeps {m : Op W Φ κ β α} (h : Quiet ids m) :
    Act.Keeps (fun inst => inst.branchIds = ids) m :=
  h.conseq (fun _ h => h) (fun _ _ h => h) fun _ _ h => h.1

theorem Quiet.ofExcept {x : Except PyError α} (h : ∀ error, x = .error error → NotRejected error) :
    Quiet ids (Act.ofExcept x : Op W Φ κ β α) :=
  Act.Triple.ofExcept (fun _ _ hids _ => hids) fun _ error hids herror => ⟨hids, h error herror⟩

theorem Quiet.modify {f : CombatInstance W Φ κ β → CombatInstance W Φ κ β}
    (h : ∀ inst, (f inst).branchIds = inst.branchIds) : Quiet ids (Act.modify f) :=
  Act.Triple.modify fun inst hids => (h inst).trans hids

theorem Quiet.pure (a : α) : Quiet ids (pure a : Op W Φ κ β α) :=
  Act.Triple.pure fun _ hids => hids

theorem Quiet.get : Quiet ids (Act.get : Op W Φ κ β (CombatInstance W Φ κ β)) :=
  Act.Triple.get fun _ hids => hids

theorem Quiet.bind {γ : Type} {m : Op W Φ κ β α} {f : α → Op W Φ κ β γ} (hm : Quiet ids m)
    (hf : ∀ a, Quiet ids (f a)) : Quiet ids (m >>= f) :=
  Act.Triple.bind hm hf

theorem Quiet.onError {m : Op W Φ κ β α} {handler : PyError → Op W Φ κ β Unit} (hm : Quiet ids m)
    (hh : ∀ error, Quiet ids (handler error)) : Quiet ids (m.onError handler) := by
  refine Act.Triple.onError hm fun error inst hinst => ?_
  have hends := hh error inst hinst.1
  rcases hrun : handler error inst with ⟨error' | _, after⟩
  · rw [hrun] at hends
    exact hends
  · rw [hrun] at hends
    exact ⟨hends, hinst.2⟩

/-- A step of a clean-up raises nothing. -/
theorem quiet_failing {call : Op W Φ κ β Unit}
    (h : Act.Keeps (fun inst => inst.branchIds = ids) call) : Quiet ids (failing call) :=
  Act.Triple.catching (h.bind fun _ => Act.Keeps.pure _) fun _ => Quiet.pure true

theorem keepsIds_onPhase (call : Act PyError (Session W × Phase Φ κ β) α) :
    Act.Keeps (fun inst : CombatInstance W Φ κ β => inst.branchIds = ids) (onPhase call) :=
  Act.Keeps.of_after fun _ h => h

theorem keepsIds_close :
    Act.Keeps (fun inst : CombatInstance W Φ κ β => inst.branchIds = ids) (close env) :=
  Act.Keeps.get.bind fun _ => .onlyIf fun _ => .bind (.modify fun _ h => h) fun _ =>
    keepsIds_onPhase _

theorem modifyBook_branchIds (branchId : PyStr) (change : CombatBook κ β → CombatBook κ β)
    (inst : CombatInstance W Φ κ β) : (modifyBook branchId change inst).branchIds =
      inst.branchIds := by
  unfold modifyBook
  cases inst.bookkeeping.get? branchId <;> rfl

theorem foldl_forget_branchIds (branchIds : List PyStr) : ∀ inst : CombatInstance W Φ κ β,
    (branchIds.foldl (fun inst branchId => forget branchId inst) inst).branchIds =
      inst.branchIds := by
  induction branchIds with
  | nil => exact fun _ => rfl
  | cons branchId rest ih => exact fun inst => ih (forget branchId inst)

variable (env) in
/-- Taking branches back leaves the ids. -/
theorem quiet_unwind (operation : String) (branchIds : List PyStr) (marker : Nat)
    (internalIds : List String) : Quiet ids
    (unwind env operation branchIds marker internalIds) := by
  unfold unwind retireInternal
  -- Every part of the unwinding is quiet: what the branches raise while they are retired is not
  -- raised, and what is raised at the end is no rejection.
  refine .bind ?_ fun failed => .bind (.modify (foldl_forget_branchIds branchIds)) fun _ =>
    .bind ?_ fun _ => ?_
  · by_cases hnone : internalIds = []
    · rw [if_pos hnone]
      exact .pure _
    · rw [if_neg hnone]
      exact .bind (quiet_failing (keepsIds_onPhase _)) fun _ =>
        .bind (quiet_failing (keepsIds_onPhase _)) fun _ => .pure _
  · -- The marker was set before, but all that counts here is what is raised.
    intro inst hids
    rw [onPhase_apply]
    unfold Phase.restoreRngHypotheses
    rw [Act.get_bind]
    dsimp only
    cases hrestore : inst.phase.rngTable.restore marker with
    | ok rngTable => exact hids
    | error error =>
        refine ⟨hids, ?_⟩
        unfold RngHypothesisTable.restore at hrestore
        split at hrestore
        · cases hrestore
          exact notRejected_raised _ _
        · cases hrestore
  · unfold Act.onlyIf
    by_cases hfailed : failed = true
    · rw [if_pos hfailed]
      exact .bind (quiet_failing keepsIds_close) fun _ =>
        Act.Triple.raise fun _ hids => ⟨hids, notRejected_raised _ _⟩
    · rw [if_neg hfailed]
      exact .pure _

theorem notRejected_requireTerminalOutcome {value : Option String} {context : String}
    {valid : List String} {error : PyError}
    (h : WholeRun.requireTerminalOutcome value context valid = .error error) :
    NotRejected error := by
  unfold WholeRun.requireTerminalOutcome at h
  split at h
  · split at h
    · cases h
    · cases h
      exact notRejected_raised _ _
  · cases h
    exact notRejected_raised _ _

theorem notRejected_ofPyException {x : Except PyException α} {error : PyError}
    (h : x.mapError WholeRun.ofPyException = .error error) : NotRejected error := by
  cases x with
  | ok a => cases h
  | error exc =>
      cases h
      exact notRejected_raised _ _

theorem notRejected_phaseViewFromResult {phases : PhaseEnv W Φ κ β}
    {result : Combat.BranchResult κ β} {error : PyError}
    (h : WholeRun.phaseViewFromResult phases result = .error error) : NotRejected error := by
  unfold WholeRun.phaseViewFromResult at h
  repeat' split at h
  all_goals cases h
  all_goals exact notRejected_raised _ _

theorem quiet_decisionResponseFields (branchId : PyStr) (view : PhaseView κ β)
    (branchLog : List LogEntry) :
    Quiet ids (decisionResponseFields env branchId view branchLog) := by
  unfold decisionResponseFields
  refine .bind .get fun _ => .bind (.ofExcept fun error h => ?_) fun _ =>
    .bind (.ofExcept fun error h => ?_) fun _ =>
    .bind (.ofExcept fun error h => notRejected_ofPyException h) fun _ => .pure _
  · unfold WholeRun.Instance.maskedActions at h
    exact notRejected_ofPyException (Except.eq_error_of_map h)
  · unfold terminalExtra at h
    split at h
    · exact notRejected_requireTerminalOutcome (Except.eq_error_of_map h)
    · cases h

/-- Putting a result on the record leaves the ids. -/
theorem quiet_finalizeBranchResult (item : EmulateItem) (branchLog : List LogEntry)
    (result : Combat.BranchResult κ β) :
    Quiet ids (finalizeBranchResult env item branchLog result) := by
  unfold finalizeBranchResult
  by_cases hfaulted : result.status ≠ .success
  · rw [if_pos hfaulted]
    exact .pure _
  · rw [if_neg hfaulted]
    refine .bind (.ofExcept fun error h => notRejected_phaseViewFromResult h) fun nextView => ?_
    cases nextView with
    | none =>
        refine .bind (.ofExcept fun error h => notRejected_requireTerminalOutcome h) fun outcome =>
          .bind (.modify (modifyBook_branchIds _ _)) fun _ =>
          .bind (.modify fun _ => rfl) fun _ => .bind .get fun _ =>
          .bind (.ofExcept fun error h => ?_) fun _ => .pure _
        unfold terminalDto at h
        cases houtcome : WholeRun.requireTerminalOutcome (some outcome)
            ("combat branch " ++ pyRepr item.branchId) WholeRun.validCombatTerminalOutcomes with
        | error refused =>
            rw [houtcome] at h
            cases h
            exact notRejected_requireTerminalOutcome houtcome
        | ok outcome =>
            rw [houtcome] at h
            exact notRejected_ofPyException h
    | some view =>
        exact .bind (.modify (modifyBook_branchIds _ _)) fun _ =>
          .bind (.modify fun _ => rfl) fun _ =>
          .bind (quiet_decisionResponseFields _ _ _) fun _ => .pure _

/-- Settling one result leaves the ids. -/
theorem quiet_settleOne (hmanaged : Managed env.phases.branches)
    (simulationOptions : Option Fields) (item : EmulateItem) (internalId : String)
    (branchLog : List LogEntry) :
    Quiet ids (settleOne env simulationOptions item internalId branchLog) := by
  unfold settleOne
  refine .bind (.ofExcept fun error h => ?_) fun timeout => .bind ?_ fun results => ?_
  · unfold WholeRun.Instance.pollTimeout at h
    repeat' split at h
    all_goals cases h
    all_goals exact notRejected_raised _ _
  · intro inst hids
    rw [onBranches_apply]
    have hraises := hmanaged.poll_raises timeout [internalId] inst.phase.branches
    rcases hpoll : env.phases.branches.poll timeout [internalId] inst.phase.branches with
      ⟨error | results, branches⟩
    · rw [hpoll] at hraises
      exact ⟨hids, fun rejection heq => hraises rejection (congrArg Except.error heq)⟩
    · exact hids
  · cases Dict.lookupL internalId results with
    | none => exact .pure _
    | some result => exact quiet_finalizeBranchResult _ _ _

theorem keepsIds_submitOne (admitted : AdmittedItem κ β) :
    Act.Keeps (fun inst => inst.branchIds = ids) (submitOne env admitted) :=
  (keepsIds_onPhase _).bind fun _ => Act.Keeps.get.bind fun _ =>
    (keepsIds_onPhase _).bind fun _ => .ofExcept _

variable (env) in
theorem keepsIds_submitItems (admitted : List (AdmittedItem κ β)) :
    Act.Keeps (fun inst => inst.branchIds = ids) (submitItems env admitted) :=
  (Act.Keeps.collect (fun _ => (keepsIds_onPhase _).bind fun _ => Act.Keeps.get.bind fun _ =>
    (Act.Keeps.ofExcept _).bind fun _ => .pure _) _).bind fun _ =>
    (keepsIds_onPhase _).bind fun _ => .pure _

theorem keepsIds_runOne (simulationOptions : Option Fields) (item : EmulateItem)
    (internalId : String) :
    Act.Keeps (fun inst => inst.branchIds = ids)
      (runOne env simulationOptions item internalId) := by
  refine Act.Keeps.get.bind fun _ => (Act.Keeps.ofExcept _).bind fun _ =>
    .bind (.modify fun _ h => h) fun _ => (Act.Keeps.ofExcept _).bind fun _ =>
    (keepsIds_onPhase _).bind fun results => ?_
  cases Dict.lookupL internalId results with
  | none => exact .pure _
  | some result => exact (quiet_finalizeBranchResult _ _ _).keeps

variable (env) in
/-- Whatever becomes of a branch that was asked for alone, no id is given back. -/
theorem keepsIds_launchOne (simulationOptions : Option Fields) (item : EmulateItem) :
    Act.Keeps (fun inst => inst.branchIds = ids) (launchOne env item simulationOptions) :=
  Act.Keeps.get.bind fun _ => (Act.Keeps.ofExcept _).bind fun _ =>
    ((keepsIds_submitOne _).onError fun _ => (quiet_unwind _ _ _ _ _).keeps).bind fun _ =>
    (keepsIds_runOne _ _ _).onError fun _ => (quiet_unwind _ _ _ _ _).keeps

end Quiet

/-!
### The law

From left to right, a failure after the id was used up leaves it used up in the one
request and unused in the other. From right to left, both come to the same submission.
-/

section Law

variable {env : CombatEnv W Φ κ β} {inst : CombatInstance W Φ κ β} {item : EmulateItem}
  {simulationOptions : Option Fields}

/-- The two clean-ups differ in the name they give when they fail. -/
theorem unwind_operation (branchIds : List PyStr) (marker : Nat) (internalIds : List String)
    (state : CombatInstance W Φ κ β) :
    (unwind env "emulate_actions" branchIds marker internalIds state).2 =
        (unwind env "emulate_action" branchIds marker internalIds state).2 ∧
      ((unwind env "emulate_actions" branchIds marker internalIds state).1 =
          (unwind env "emulate_action" branchIds marker internalIds state).1 ∨
        (unwind env "emulate_action" branchIds marker internalIds state).1 =
            .error (cleanupFailed "emulate_action") ∧
          (unwind env "emulate_actions" branchIds marker internalIds state).1 =
            .error (cleanupFailed "emulate_actions")) := by
  -- The name of the operation is used only in the error at the end.
  unfold unwind
  rcases hretired : retireInternal env internalIds state with ⟨error | failed, retired⟩
  · rw [Act.bind_of_error _ hretired, Act.bind_of_error _ hretired]
    exact ⟨rfl, .inl rfl⟩
  · rw [Act.bind_of_ok _ hretired, Act.bind_of_ok _ hretired, Act.modify_bind, Act.modify_bind]
    generalize branchIds.foldl (fun inst branchId => forget branchId inst) retired = forgotten
    rcases hrestored : onPhase (Phase.restoreRngHypotheses marker) forgotten with
      ⟨error | _, restored⟩
    · rw [Act.bind_of_error _ hrestored, Act.bind_of_error _ hrestored]
      exact ⟨rfl, .inl rfl⟩
    · rw [Act.bind_of_ok _ hrestored, Act.bind_of_ok _ hrestored]
      -- That error is raised if retiring failed and closing did not raise another one.
      unfold Act.onlyIf
      by_cases hfailed : failed = true
      · rw [if_pos hfailed, if_pos hfailed]
        rcases hclosed : failing (close env) restored with ⟨error | _, closed⟩
        · rw [Act.bind_of_error _ hclosed, Act.bind_of_error _ hclosed]
          exact ⟨rfl, .inl rfl⟩
        · rw [Act.bind_of_ok _ hclosed, Act.bind_of_ok _ hclosed]
          exact ⟨rfl, .inr ⟨rfl, rfl⟩⟩
      · rw [if_neg hfailed, if_neg hfailed]
        exact ⟨rfl, .inl rfl⟩

variable (env) in
/-- What ends alike is cleaned up alike. -/
theorem sameOutcome_onError {m m' : Op W Φ κ β Fields} {state state' : CombatInstance W Φ κ β}
    {branchId : PyStr} (branchIds : List PyStr) (marker : Nat) (internalIds : List String)
    (h : m' state' = ((m state).1.map (batchReply branchId), (m state).2)) :
    SameOutcome branchId
      ((m.onError fun _ => unwind env "emulate_action" branchIds marker internalIds) state).1
      ((m'.onError fun _ => unwind env "emulate_actions" branchIds marker internalIds) state').1 ∧
    ((m.onError fun _ => unwind env "emulate_action" branchIds marker internalIds) state).2 =
      ((m'.onError fun _ => unwind env "emulate_actions" branchIds marker internalIds)
        state').2 := by
  unfold Act.onError
  rw [h]
  -- What failed is unwound in both, with the same outcome up to the name of the operation.
  rcases m state with ⟨error | fields, after⟩
  · dsimp only [Except.map]
    rcases unwind_operation branchIds marker internalIds after with
      ⟨hstate, houtcome⟩
    rcases hone : unwind env "emulate_action" branchIds marker internalIds after with
      ⟨failure | _, unwound⟩
    all_goals
      rcases hmany : unwind env "emulate_actions" branchIds marker internalIds after with
        ⟨failure' | _, unwound'⟩
    all_goals
      rw [hone, hmany] at hstate houtcome
      dsimp only at hstate houtcome ⊢
      subst hstate
    -- Both raise: the same error, or each its own.
    · refine ⟨?_, rfl⟩
      rcases houtcome with hsame | ⟨hone', hmany'⟩
      · rw [Except.error.inj hsame]
        exact .raises failure
      · rw [Except.error.inj hone', Except.error.inj hmany']
        exact .closes
    · rcases houtcome with hsame | ⟨-, hmany'⟩
      · cases hsame
      · cases hmany'
    · rcases houtcome with hsame | ⟨hone', -⟩
      · cases hsame
      · cases hone'
    -- Both are unwound, and raise what failed.
    · exact ⟨.raises error, rfl⟩
  · exact ⟨.replies fields, rfl⟩

theorem resolveItem_item {admitted : AdmittedItem κ β}
    (h : inst.resolveItem env item = .ok admitted) : admitted.item = item := by
  unfold resolveItem at h
  split at h
  · cases h
  · split at h
    · cases h
    · rcases (Except.map_eq_ok _ _ _).mp h with ⟨candidate, -, rfl⟩
      rfl

/-- A submission that gives one branch. -/
theorem dispatch_of_submits {admitted : AdmittedItem κ β} {internalId : String}
    {submitted : CombatInstance W Φ κ β}
    (h : submitOne env admitted inst = (.ok internalId, submitted)) :
    ∃ workItem, dispatch env admitted inst = (.ok (workItem, [internalId]), submitted) := by
  rw [submitOne_eq] at h
  rcases hsent : dispatch env admitted inst with ⟨error | ⟨workItem, internalIds⟩, after⟩
  · rw [hsent] at h
    cases h
  · rw [hsent] at h
    rcases Prod.mk.inj h with ⟨honly, rfl⟩
    refine ⟨workItem, ?_⟩
    match internalIds, honly with
    | [_], honly =>
        cases honly
        rfl

variable (simulationOptions) in
/-- Alone, a branch that is submitted comes to its record. -/
theorem launchOne_of_dispatched {admitted : AdmittedItem κ β} {internalId : String}
    {submitted : CombatInstance W Φ κ β} {history : HistoryBuilder}
    (hresolved : inst.resolveItem env item = .ok admitted)
    (hforked : inst.forkedHistory item.parentBranchId = .ok history)
    (hsubmits : submitOne env admitted inst = (.ok internalId, submitted)) :
    launchOne env item simulationOptions (registered inst item) =
      ((settleOne env simulationOptions item internalId (inst.branchLogFor item)).onError
        fun _ => unwind env "emulate_action" [item.branchId] inst.phase.rngTable.snapshot
          [internalId])
        (recorded submitted item internalId (inst.branchLogFor item) history) := by
  rcases dispatch_of_submits hsubmits with ⟨workItem, hsent⟩
  have hsubmits' : submitOne env admitted (registered inst item) =
      (.ok internalId, registered submitted item) := by
    rw [submitOne_eq, dispatch_registered, hsent]
    rfl
  have hitem := resolveItem_item hresolved
  have hresolved' : (registered inst item).resolveItem env item = .ok admitted := hresolved
  unfold launchOne
  rw [Act.get_bind, hresolved']
  have hpasses : ((submitOne env admitted).onError fun _ => unwind env "emulate_action"
      [item.branchId] (registered inst item).phase.rngTable.snapshot []) (registered inst item) =
      (.ok internalId, registered submitted item) := by
    unfold Act.onError
    rw [hsubmits']
  change (((submitOne env admitted).onError fun _ => unwind env "emulate_action"
      [item.branchId] (registered inst item).phase.rngTable.snapshot []) >>= fun internalId =>
      (runOne env simulationOptions item internalId).onError fun _ => unwind env "emulate_action"
        [item.branchId] (registered inst item).phase.rngTable.snapshot [internalId])
      (registered inst item) = _
  rw [Act.bind_of_ok _ hpasses]
  -- The submission left the records alone.
  rcases dispatch_frame with ⟨session, phase, hframe⟩
  rw [hsent] at hframe
  dsimp only at hframe
  subst hframe
  have hforked' : ({ inst with session, phase } : CombatInstance W Φ κ β).forkedHistory
      admitted.item.parentBranchId = .ok history := by
    rw [hitem]
    exact hforked
  have hrun := runOne_eq env simulationOptions internalId hforked'
  rw [hitem] at hrun
  unfold Act.onError
  rw [hrun]
  rfl

variable (simulationOptions) in
/-- In a batch it comes to the same record. -/
theorem launchAdmitted_of_dispatched {admitted : AdmittedItem κ β} {internalId : String}
    {submitted : CombatInstance W Φ κ β} {history : HistoryBuilder}
    (hresolved : inst.resolveItem env item = .ok admitted)
    (hfits : env.phases.branches.activeBranchCount inst.phase.branches + 1 ≤ env.maxBranches)
    (hnew : inst.branchIds.isKnown item.branchId = false)
    (hforked : inst.forkedHistory item.parentBranchId = .ok history)
    (hsubmits : submitOne env admitted inst = (.ok internalId, submitted)) :
    ∃ workItem,
      launchAdmitted env simulationOptions admitted inst =
        ((settleBatch env simulationOptions
            (inst.preparedItem admitted history workItem, internalId)).onError
          fun _ => unwind env "emulate_actions" [item.branchId] inst.phase.rngTable.snapshot
            [internalId])
          (recorded submitted item internalId (inst.branchLogFor item) history) := by
  rcases dispatch_of_submits hsubmits with ⟨workItem, hsent⟩
  have hitem := resolveItem_item hresolved
  subst hitem
  refine ⟨workItem, ?_⟩
  have hitems := submitItems_of_forked env hforked
  rw [hsent] at hitems
  have hpasses : ((submitItems env [admitted]).onError fun _ => unwind env "emulate_actions"
      [admitted.item.branchId] inst.phase.rngTable.snapshot []) inst =
      (.ok ([inst.preparedItem admitted history workItem], [internalId]), submitted) := by
    unfold Act.onError
    rw [hitems]
    rfl
  unfold launchAdmitted Act.raiseIf
  rw [Act.get_bind]
  dsimp only
  rw [if_neg (Nat.not_lt.mpr hfits), Act.pure_bind_apply, Act.bind_of_ok _ hpasses]
  -- The submission left the records and the used ids alone.
  rcases dispatch_frame with ⟨session, phase, hframe⟩
  rw [hsent] at hframe
  dsimp only at hframe
  subst hframe
  have hnew' : ({ inst with session, phase } : CombatInstance W Φ κ β).branchIds.isKnown
      admitted.item.branchId = false := hnew
  have hrun := runItems_eq env simulationOptions history internalId hnew' workItem
  have hsame : ({ inst with session, phase } : CombatInstance W Φ κ β).preparedItem admitted
      history workItem = inst.preparedItem admitted history workItem := rfl
  rw [hsame] at hrun
  unfold Act.onError
  dsimp only
  rw [hrun]
  rfl

/-- A branch that is dispatched and answered is the same, alone and in a batch. -/
theorem agree_of_dispatched (hmanaged : Managed env.phases.branches)
    (hopen : inst.closed = false) (hstop : validateStopCondition simulationOptions = .ok ())
    (hnew : inst.branchIds.isKnown item.branchId = false)
    (hchecked : checked env inst item = .ok ()) {admitted : AdmittedItem κ β}
    {internalId : String} {submitted : CombatInstance W Φ κ β}
    (h : Dispatched env inst item simulationOptions admitted internalId submitted) :
    Agree env inst item simulationOptions := by
  have hlarge : 0 < env.maxBranches := Nat.lt_of_lt_of_le (Nat.succ_pos _) h.fits
  rcases h.forked with ⟨history, hforked⟩
  rcases launchAdmitted_of_dispatched simulationOptions h.resolved h.fits
    hnew hforked h.submits with ⟨workItem, hbatch⟩
  have hone := launchOne_of_dispatched simulationOptions h.resolved
    hforked h.submits
  have hitem := resolveItem_item h.resolved
  have hsingle : emulateAction env item simulationOptions inst = _ :=
    (emulateAction_of_new hmanaged hopen hstop hchecked hnew).trans hone
  have hbatch' : emulateActions env [item] simulationOptions inst =
      launchAdmitted env simulationOptions admitted inst := by
    rw [emulateActions_of_new hmanaged hopen hstop hlarge hnew, hchecked]
    dsimp only
    rw [h.resolved]
  rw [hbatch] at hbatch'
  have hsettled := settleBatch_of_answered history workItem
    (recorded submitted item internalId (inst.branchLogFor item) history)
    (congrArg inst.branchLogFor hitem) h.answered
  rw [hitem] at hsettled
  have hsame := sameOutcome_onError env [item.branchId] inst.phase.rngTable.snapshot
    [internalId] hsettled
  rw [← hsingle, ← hbatch'] at hsame
  -- What is raised after the submission is no rejection.
  have hquiet : ∀ rejection,
      (emulateAction env item simulationOptions inst).1 ≠ .error (.rejected rejection) := by
    intro rejection heq
    have hends := Quiet.onError (quiet_settleOne hmanaged simulationOptions item internalId
      (inst.branchLogFor item)) (fun _ => quiet_unwind env "emulate_action" [item.branchId]
        inst.phase.rngTable.snapshot [internalId])
      (recorded submitted item internalId (inst.branchLogFor item) history) rfl
    rw [← hsingle] at hends
    rcases hrun : emulateAction env item simulationOptions inst with ⟨error | fields, after⟩
    · rw [hrun] at hends heq
      exact hends.2 rejection (Except.error.inj heq)
    · rw [hrun] at heq
      cases heq
  refine ⟨hsame.1, hsame.2, fun rejection heq => absurd heq (hquiet rejection),
    fun rejection heq => ?_⟩
  have houtcome := hsame.1
  rw [heq] at houtcome
  generalize hfirst : (emulateAction env item simulationOptions inst).1 = first at houtcome
  cases houtcome with
  | raises => exact absurd hfirst (hquiet rejection)

/-- What raises is cleaned up, which leaves the used ids alone. -/
theorem onError_unwind {m : Op W Φ κ β α} {error : PyError} {state after : CombatInstance W Φ κ β}
    (hraises : m state = (.error error, after)) (operation : String) (branchIds : List PyStr)
    (marker : Nat) (internalIds : List String) :
    ∃ error' unwound,
      (m.onError fun _ => unwind env operation branchIds marker internalIds) state =
        (.error error', unwound) ∧ unwound.branchIds = after.branchIds := by
  have hunwound := (quiet_unwind env operation branchIds marker internalIds).keeps.after
    (s := after) rfl
  unfold Act.onError
  rw [hraises]
  rcases hrun : unwind env operation branchIds marker internalIds after with
    ⟨failure | _, unwound⟩
  · rw [hrun] at hunwound
    exact ⟨failure, unwound, by dsimp only; rw [hrun], hunwound⟩
  · rw [hrun] at hunwound
    exact ⟨error, unwound, by dsimp only; rw [hrun], hunwound⟩

/-- The items of a batch of one that is prepared are one. -/
theorem submitItems_length {admitted : AdmittedItem κ β} {prepared : List (PreparedItem κ β)}
    {internalIds : List String}
    (h : (submitItems env [admitted] inst).1 = .ok (prepared, internalIds)) :
    prepared.length = 1 := by
  rcases hforked : inst.forkedHistory admitted.item.parentBranchId with error | history
  · rcases submitItems_of_not_forked hforked with ⟨error, herror⟩
    rw [herror] at h
    cases h
  · rw [submitItems_of_forked env hforked] at h
    rcases (Except.map_eq_ok _ _ _).mp h with ⟨sent, -, hsent⟩
    rw [← (Prod.mk.inj hsent).1]
    rfl

/-- A batch that does not come to one branch gives no id away. -/
theorem launchAdmitted_branchIds {admitted : AdmittedItem κ β}
    (h : env.phases.branches.activeBranchCount inst.phase.branches + 1 ≤ env.maxBranches →
      ∀ prepared internalId,
        (submitItems env [admitted] inst).1 ≠ .ok (prepared, [internalId])) :
    (launchAdmitted env simulationOptions admitted inst).2.branchIds = inst.branchIds := by
  unfold launchAdmitted Act.raiseIf
  rw [Act.get_bind]
  dsimp only
  by_cases hfull : env.maxBranches <
      env.phases.branches.activeBranchCount inst.phase.branches + 1
  · rw [if_pos hfull]
    rfl
  rw [if_neg hfull, Act.pure_bind_apply]
  have hkeeps := (keepsIds_submitItems env [admitted]).after
    (s := inst) rfl
  rcases hitems : submitItems env [admitted] inst with ⟨error | ⟨prepared, internalIds⟩, after⟩
  · rcases onError_unwind hitems "emulate_actions" [admitted.item.branchId]
      inst.phase.rngTable.snapshot [] with ⟨error', unwound, hunwound, hids⟩
    rw [Act.bind_of_error _ hunwound]
    rw [hitems] at hkeeps
    exact hids.trans hkeeps
  · have hpasses : ((submitItems env [admitted]).onError fun _ => unwind env "emulate_actions"
        [admitted.item.branchId] inst.phase.rngTable.snapshot []) inst =
        (.ok (prepared, internalIds), after) := by
      unfold Act.onError
      rw [hitems]
    -- There is not one branch for the one item.
    have hmany : prepared.length ≠ internalIds.length := by
      intro heq
      rw [submitItems_length (congrArg Prod.fst hitems)] at heq
      rcases List.length_eq_one_iff.mp heq.symm with ⟨internalId, rfl⟩
      exact h (Nat.not_lt.mp hfull) prepared internalId (congrArg Prod.fst hitems)
    have hraises : runItems env simulationOptions prepared internalIds after =
        (.error (WholeRun.Instance.lengthMismatch (decide (prepared.length < internalIds.length))),
          after) := by
      unfold runItems Act.raiseIf
      rw [if_pos hmany]
      rfl
    rcases onError_unwind hraises "emulate_actions" [admitted.item.branchId]
      inst.phase.rngTable.snapshot internalIds with ⟨error', unwound, hunwound, hids⟩
    rw [Act.bind_of_ok _ hpasses]
    dsimp only
    rw [hunwound]
    rw [hitems] at hkeeps
    exact hids.trans hkeeps

/-- Alone, an id that passed the checks is used up for good. -/
theorem not_agree_of_branchIds (hmanaged : Managed env.phases.branches)
    (hopen : inst.closed = false) (hstop : validateStopCondition simulationOptions = .ok ())
    (hnew : inst.branchIds.isKnown item.branchId = false)
    (hchecked : checked env inst item = .ok ())
    (hbatch : (emulateActions env [item] simulationOptions inst).2.branchIds = inst.branchIds) :
    ¬ Agree env inst item simulationOptions := by
  intro h
  have hids := congrArg CombatInstance.branchIds h.state
  have hkeeps := (keepsIds_launchOne env simulationOptions item).after
    (s := registered inst item) rfl
  rw [emulateAction_of_new hmanaged hopen hstop hchecked hnew, hbatch, hkeeps] at hids
  have hmem : item.branchId ∈ (registered inst item).branchIds.everUsed :=
    Finset.mem_insert_self _ _
  rw [hids] at hmem
  rw [BranchIdRegistry.isKnown, decide_eq_false_iff_not] at hnew
  exact hnew hmem

/-- An item that is refused, and only that, is refused alike. -/
theorem agree_of_error {error : PyError}
    (hsingle : emulateAction env item simulationOptions inst = (.error error, inst))
    (hbatch : emulateActions env [item] simulationOptions inst = (.error error, inst)) :
    Agree env inst item simulationOptions := by
  refine ⟨?_, ?_, fun _ _ => ?_, fun _ _ => ?_⟩
  · rw [hsingle, hbatch]
    exact .raises error
  · rw [hsingle, hbatch]
  · rw [hsingle]
  · rw [hbatch]

/-- Where the two raise, they raise the same, but for the name of a failed clean-up. -/
theorem error_eq_of_agree {error error' : PyError} {after after' : CombatInstance W Φ κ β}
    (h : Agree env inst item simulationOptions)
    (hsingle : emulateAction env item simulationOptions inst = (.error error, after))
    (hbatch : emulateActions env [item] simulationOptions inst = (.error error', after'))
    (hrejected : ∃ rejection, error' = .rejected rejection) : error = error' := by
  have houtcome := h.outcome
  rw [hsingle, hbatch] at houtcome
  cases houtcome with
  | raises => rfl
  | closes =>
      rcases hrejected with ⟨rejection, heq⟩
      cases heq

/-- A branch that is submitted, and is not answered, runs on alone and fails a batch. -/
theorem answered_of_agree (hmanaged : Managed env.phases.branches)
    (hopen : inst.closed = false) (hstop : validateStopCondition simulationOptions = .ok ())
    (hlarge : 0 < env.maxBranches) (hnew : inst.branchIds.isKnown item.branchId = false)
    (hchecked : checked env inst item = .ok ()) {admitted : AdmittedItem κ β}
    {internalId : String} {submitted : CombatInstance W Φ κ β} {history : HistoryBuilder}
    (hresolved : inst.resolveItem env item = .ok admitted)
    (hfits : env.phases.branches.activeBranchCount inst.phase.branches + 1 ≤ env.maxBranches)
    (hforked : inst.forkedHistory item.parentBranchId = .ok history)
    (hsubmits : submitOne env admitted inst = (.ok internalId, submitted))
    (hagree : Agree env inst item simulationOptions) {timeout : ℚ}
    {results : List (String × Combat.BranchResult κ β)} {branches : Φ}
    (htimeout : WholeRun.Instance.pollTimeout simulationOptions = .ok timeout)
    (hresults : env.phases.branches.poll timeout [internalId] submitted.phase.branches =
      (.ok results, branches)) : Dict.lookupL internalId results ≠ none := by
  -- Without an answer the single request replies that it is queued, while the batch raises.
  intro hnone
  rcases launchAdmitted_of_dispatched simulationOptions hresolved hfits hnew
    hforked hsubmits with ⟨workItem, hbatch⟩
  rcases settle_of_unanswered (inst.preparedItem admitted history workItem, internalId)
    (recorded submitted item internalId (inst.branchLogFor item) history) htimeout hresults hnone
    with ⟨⟨fields, hfields⟩, error, herror⟩
  have hsingle := (emulateAction_of_new hmanaged hopen hstop hchecked hnew).trans
    (launchOne_of_dispatched simulationOptions hresolved hforked hsubmits)
  have hbatch' := emulateActions_of_new hmanaged hopen hstop hlarge hnew
  rw [hchecked] at hbatch'
  dsimp only at hbatch'
  rw [hresolved] at hbatch'
  dsimp only at hbatch'
  rw [hbatch] at hbatch'
  -- The batch is unwound and raises in any case.
  rcases onError_unwind (Prod.ext herror rfl) "emulate_actions" [item.branchId]
    inst.phase.rngTable.snapshot [internalId] with ⟨error', unwound, hunwound, -⟩
  rw [hunwound] at hbatch'
  -- The single request replies.
  unfold Act.onError at hsingle
  rcases hrun : settleOne env simulationOptions item internalId (inst.branchLogFor item)
    (recorded submitted item internalId (inst.branchLogFor item) history) with ⟨outcome, after⟩
  rw [hrun] at hfields hsingle
  dsimp only at hfields
  rw [hfields] at hsingle
  -- The two outcomes are no agreement.
  have houtcome := hagree.outcome
  rw [hsingle, hbatch'] at houtcome
  cases houtcome

/-- A new id whose parent passes the checks is dispatched where the two agree. -/
theorem dispatched_of_agree (hmanaged : Managed env.phases.branches)
    (hopen : inst.closed = false) (hstop : validateStopCondition simulationOptions = .ok ())
    (hlarge : 0 < env.maxBranches) (hnew : inst.branchIds.isKnown item.branchId = false)
    (hchecked : checked env inst item = .ok ())
    (hagree : Agree env inst item simulationOptions) :
    ∃ admitted internalId submitted,
      Dispatched env inst item simulationOptions admitted internalId submitted := by
  have hbatch := emulateActions_of_new hmanaged hopen
    hstop hlarge hnew
  rw [hchecked] at hbatch
  dsimp only at hbatch
  -- An item that never got an internal id is told apart by the error's list of branch ids.
  have hused := fun hids =>
    not_agree_of_branchIds hmanaged hopen hstop hnew hchecked hids hagree
  rcases hresolved : inst.resolveItem env item with error | admitted
  · rw [hresolved] at hbatch
    exact (hused (by rw [hbatch])).elim
  rw [hresolved] at hbatch
  dsimp only at hbatch
  have hitem := resolveItem_item hresolved
  -- The item was sent in the batch, and so in the single request.
  by_cases hsent : env.phases.branches.activeBranchCount inst.phase.branches + 1 ≤
      env.maxBranches ∧
      ∃ prepared internalId, (submitItems env [admitted] inst).1 = .ok (prepared, [internalId])
  · rcases hsent with ⟨hfits, prepared, internalId, hok⟩
    rcases hforked : inst.forkedHistory admitted.item.parentBranchId with error | history
    · rcases submitItems_of_not_forked hforked with ⟨error, herror⟩
      rw [herror] at hok
      cases hok
    rw [submitItems_of_forked env hforked] at hok
    rcases (Except.map_eq_ok _ _ _).mp hok with ⟨sent, hdispatch, hids⟩
    have hsubmits : submitOne env admitted inst =
        (.ok internalId, (dispatch env admitted inst).2) := by
      rw [submitOne_eq, hdispatch]
      dsimp only [Except.bind]
      rw [(Prod.mk.inj hids).2]
      rfl
    rw [hitem] at hforked
    exact ⟨admitted, internalId, _, hresolved, hfits, ⟨history, hforked⟩, hsubmits,
      fun timeout results branches htimeout hresults => answered_of_agree hmanaged hopen hstop
        hlarge hnew hchecked hresolved hfits hforked hsubmits hagree htimeout hresults⟩
  -- Otherwise the batch raises with the list, and the single request without.
  · refine (hused ?_).elim
    rw [hbatch]
    exact launchAdmitted_branchIds fun hfits prepared internalId hok =>
      hsent ⟨hfits, prepared, internalId, hok⟩

theorem alreadyUsed_ne_tooLarge (branchId : PyStr) (size most : Nat) :
    BranchIdRegistry.alreadyUsed branchId ≠ tooLarge size most := by
  intro heq
  have hlist := congrArg String.toList (congrArg Rejection.error (PyError.rejected.inj heq))
  simp [reject, String.toList_append] at hlist

/-- A closed instance refuses everything. -/
theorem ensureOpen_closed (hclosed : inst.closed = true) (f : Unit → Op W Φ κ β α) :
    (ensureOpen >>= f) inst = (.error (.rejected (reject
      "combat instance is closed after an unrecoverable cleanup failure")), inst) := by
  unfold ensureOpen Act.raiseIf
  rw [Act.bind_apply, Act.get_bind, if_pos hclosed]
  rfl

/-- The law of the two requests. They agree exactly on what is refused before an id is
    used up, and on what is submitted and answered. -/
theorem agree_iff (env : CombatEnv W Φ κ β) (hmanaged : Managed env.phases.branches)
    (inst : CombatInstance W Φ κ β) (item : EmulateItem) (simulationOptions : Option Fields) :
    Agree env inst item simulationOptions ↔ AgreesWhen env inst item simulationOptions := by
  -- A closed instance refuses both alike, and so does a stop condition that is none.
  by_cases hclosed : inst.closed = true
  · exact ⟨fun _ => .inl hclosed, fun _ => agree_of_error (ensureOpen_closed hclosed _)
      (ensureOpen_closed hclosed _)⟩
  have hopen : inst.closed = false := Bool.eq_false_iff.mpr hclosed
  rcases hstop : validateStopCondition simulationOptions with error | _
  · have hsingle : emulateAction env item simulationOptions inst = (.error error, inst) := by
      unfold emulateAction
      rw [ensureOpen_of_open hopen, hstop]
      rfl
    have hbatch : emulateActions env [item] simulationOptions inst = (.error error, inst) := by
      unfold emulateActions
      rw [ensureOpen_of_open hopen, hstop]
      rfl
    exact ⟨fun _ => .inr (.inl ⟨error, hstop⟩), fun _ => agree_of_error hsingle hbatch⟩
  constructor
  -- Agreement forces each part of the condition, as each one that fails gives two errors that
  -- differ.
  · intro hagree
    -- A limit of no branches refuses the batch for its size, and the single request for
    -- something else.
    have hlarge : 0 < env.maxBranches := by
      by_contra hsmall
      have hbatch := emulateActions_of_small item hopen hstop
        (Nat.eq_zero_of_not_pos hsmall)
      rcases hchecked : checked env inst item with error | _
      · have heq := error_eq_of_agree hagree
          (emulateAction_of_refused hmanaged hopen hstop hchecked) hbatch ⟨_, rfl⟩
        exact (refusal_checked hmanaged hchecked).2 1 0 heq
      · cases hknown : inst.branchIds.isKnown item.branchId with
        | true =>
            exact alreadyUsed_ne_tooLarge _ _ _ (error_eq_of_agree hagree
              (emulateAction_of_known hmanaged hopen hstop hchecked hknown) hbatch ⟨_, rfl⟩)
        | false =>
            exact not_agree_of_branchIds hmanaged hopen hstop hknown hchecked
              (by rw [hbatch]) hagree
    refine .inr (.inr ⟨hlarge, fun hknown => ?_, fun hnew hchecked =>
      dispatched_of_agree hmanaged hopen hstop hlarge hnew hchecked hagree⟩)
    -- A known branch id is refused by both only if the item passes the other checks.
    rcases hchecked : checked env inst item with error | _
    · have heq := error_eq_of_agree hagree
        (emulateAction_of_refused hmanaged hopen hstop hchecked)
        (emulateActions_of_known hopen hstop hlarge hknown) ⟨_, rfl⟩
      exact absurd heq ((refusal_checked hmanaged hchecked).1 _)
    · rfl
  -- Conversely, each part of the condition gives one outcome for both.
  · rintro (hclosed' | ⟨error, herror⟩ | ⟨hlarge, hknown, hnew⟩)
    · exact absurd hclosed' hclosed
    · rw [hstop] at herror
      cases herror
    · cases hid : inst.branchIds.isKnown item.branchId with
      | true =>
          exact agree_of_error (emulateAction_of_known hmanaged hopen hstop (hknown hid) hid)
            (emulateActions_of_known hopen hstop hlarge hid)
      | false =>
          rcases hchecked : checked env inst item with error | _
          · refine agree_of_error (emulateAction_of_refused hmanaged hopen hstop hchecked) ?_
            rw [emulateActions_of_new hmanaged hopen hstop hlarge hid, hchecked]
          · rcases hnew hid hchecked with ⟨admitted, internalId, submitted, hdispatched⟩
            exact agree_of_dispatched hmanaged hopen hstop hid hchecked hdispatched

end Law

section SmallItem

/-- A request for an action that is not offered. -/
def unofferedItem : EmulateItem := ⟨WholeRun.root, "b1", "d-root-000001", "nope", 0⟩

theorem smallCombat_managed : Managed smallCombat.phases.branches :=
  ⟨fun _ _ => rfl, fun _ _ _ => (nomatch ·), fun _ _ _ _ => (nomatch ·)⟩

theorem agree_small :
    Agree smallCombat smallCombatInstance unofferedItem none ↔
      AgreesWhen smallCombat smallCombatInstance unofferedItem none :=
  agree_iff smallCombat smallCombat_managed smallCombatInstance unofferedItem none

/-- The action is rejected, and the id that was asked for is used up. -/
theorem unoffered_disagrees : ¬ Agree smallCombat smallCombatInstance unofferedItem none := by
  intro h
  have hrejected : (emulateAction smallCombat unofferedItem none smallCombatInstance).1 =
      .error (.rejected (reject "action_id 'nope' is not among current legal actions")) := by
    decide +kernel
  have hids := congrArg CombatInstance.branchIds (h.single_rejected _ hrejected)
  exact absurd hids (by decide +kernel)

end SmallItem

end CombatInstance

end Api

end STS2RL
