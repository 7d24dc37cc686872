import STS2RL.WholeRun.ChoiceWorker
import STS2RL.WholeRun.EventAtomicity
import STS2RL.WholeRun.PreparedBranches
import STS2RL.WholeRun.RejectedRequests

/-!
# Chains of Event Branches

A branch of an event is grown from the root or from a branch that a worker has
played. Its item is built from the record of its parent: the parent's map and room,
the actions of the parent with the rewards that the worker reported, and the plan
that the first branch of the chain was given.

The worker plays an item from the map on, with no memory of its parent. That it comes
to the parent's board all the same is an invariant of the records: a decision that is
kept for a branch leads to where the worker was when it reported it. The calls for a
child are those for its parent, the rewards, and the new action, so the override of
the first branch stays where it was and is made once.

The workers and their emulator are parameters. `Played` holds the items that were
played with what was reported of them.

## Main definitions

* `EventChain`: An item, with the branches that it was grown through.
* `chainOperations`: The calls for the last branch of a chain.
* `PlayedBy`: What the workers report.
* `Instance.Chained`: The decisions of branches lead to where they were reported.
* `Instance.Admits`: The branches that a request comes to.
* `chainRun`, `descendantItem`: A run with a branch of a branch.

## Theorems

* `EventChain.operations_eq`: The calls for the last branch of a chain.
* `chained_step`: The invariant holds in every run.
* `chain_replay`: A branch is played as its parent was, and then its action.
-/

namespace STS2RL

namespace WholeRun

open Api (PyError Fields EmulateItem)

variable {V W Φ κ β α : Type}

/-!
### A chain of operations

What a worker is asked to play of an event: the actions of the ancestors in order, each
with the choices that were resolved automatically after it, and the action of the branch
itself.
-/

section Chain

variable {Played : EventWorkItem → ChoiceStepResult → Prop}

/-- An item that is grown from the root through branches that were played. -/
inductive EventChain (Played : EventWorkItem → ChoiceStepResult → Prop) :
    List (EventWorkItem × ChoiceStepResult) → EventWorkItem → Prop
  | first {item : EventWorkItem} {plan : EventRngReplayPlan} (hplan : item.eventRngPlan = some plan)
      (hindex : plan.applyBeforeActionIndex = item.actionPrefix.length)
      (hchoice : item.choiceType ≠ "map") (htarget : item.targetBoundary = .eventChoice) :
      EventChain Played [] item
  | next {links : List (EventWorkItem × ChoiceStepResult)} {parent child : EventWorkItem}
      {step : ChoiceStepResult} (hparent : EventChain Played links parent)
      (hplayed : Played parent step) (hevent : step.settledObservation.boundary = .eventChoice)
      (hchild : Extends parent step.autoActionIds child)
      (htarget : child.targetBoundary = .eventChoice) :
      EventChain Played (links ++ [(parent, step)]) child

/-- The action of a branch, and the rewards after it. -/
def linkOperations (link : EventWorkItem × ChoiceStepResult) : List Operation :=
  .step link.1.resolveActionId :: link.2.autoActionIds.map .step

/-- The first item of a chain. -/
def firstItem (links : List (EventWorkItem × ChoiceStepResult)) (item : EventWorkItem) :
    EventWorkItem :=
  (links.head?.map Prod.fst).getD item

/-- The calls for the last branch of a chain: the map and the room, what led to the
    decision of the root, the override before the action of the first branch, the
    branches with their rewards, and the new action. -/
def chainOperations (links : List (EventWorkItem × ChoiceStepResult)) (item : EventWorkItem)
    (overrideState : EventRngState) : List Operation :=
  .loadState (firstItem links item).mapSnapshot :: .chooseRoom (firstItem links item).roomId ::
    ((firstItem links item).actionPrefix.map .step ++ .setEventRngState overrideState ::
      (links.flatMap linkOperations ++ [.step item.resolveActionId]))

theorem firstItem_concat (links : List (EventWorkItem × ChoiceStepResult))
    (parent child : EventWorkItem) (step : ChoiceStepResult) :
    firstItem (links ++ [(parent, step)]) child = firstItem links parent := by
  cases links <;> rfl

namespace EventChain

theorem choiceType {links : List (EventWorkItem × ChoiceStepResult)} {item : EventWorkItem}
    (h : EventChain Played links item) : item.choiceType ≠ "map" := by
  cases h with
  | first _ _ hchoice => exact hchoice
  | next _ _ _ hchild => exact hchild.choiceTypes.2

/-- Every branch is one of an event. -/
theorem targetBoundary {links : List (EventWorkItem × ChoiceStepResult)} {item : EventWorkItem}
    (h : EventChain Played links item) : item.targetBoundary = .eventChoice := by
  cases h with
  | first _ _ _ htarget => exact htarget
  | next _ _ _ _ htarget => exact htarget

/-- The plan names an action of the prefix, or the next one. -/
theorem plan {links : List (EventWorkItem × ChoiceStepResult)} {item : EventWorkItem}
    (h : EventChain Played links item) : ∃ plan, item.eventRngPlan = some plan ∧
      plan.applyBeforeActionIndex ≤ item.actionPrefix.length := by
  cases h with
  | first hplan hindex => exact ⟨_, hplan, hindex.le⟩
  | next _ _ _ hchild =>
      rcases hchild.plan with ⟨plan, -, hplan, hindex⟩
      refine ⟨plan, hplan, hindex.trans ?_⟩
      rw [hchild.actionPrefix, List.append_assoc, List.length_append]
      exact Nat.le_add_right _ _

/-- The calls for the last branch of a chain. -/
theorem operations_eq {links : List (EventWorkItem × ChoiceStepResult)} {item : EventWorkItem}
    (h : EventChain Played links item) : ∃ plan, item.eventRngPlan = some plan ∧
      operations item = chainOperations links item plan.overrideState := by
  induction h with
  | @first item plan hplan hindex hchoice htarget =>
      refine ⟨plan, hplan, ?_⟩
      have hreplay : replayOperations (some plan) 0 item.actionPrefix =
          item.actionPrefix.map .step := replayOperations_eq_map _ (.inr (by omega))
      unfold operations reachOperations resolveOperation chainOperations overrideOperations
      rw [hplan, hreplay, if_neg hchoice, if_neg hchoice]
      dsimp only
      rw [if_pos hindex]
      simp [firstItem]
  | @next links parent child step hparent hplayed hevent hchild htarget ih =>
      rcases ih with ⟨plan, hplan, hcalls⟩
      rcases hchild.plan with ⟨plan', hparent', hplan', -⟩
      rw [hplan] at hparent'
      cases hparent'
      refine ⟨plan, hplan', ?_⟩
      rw [operations_child hchild, hcalls]
      unfold chainOperations
      rw [firstItem_concat, List.flatMap_append]
      simp [linkOperations]

/-- The last branch of a chain extends the one before it. -/
theorem last {links : List (EventWorkItem × ChoiceStepResult)} {item parent : EventWorkItem}
    {step : ChoiceStepResult} (h : EventChain Played links item)
    (hlast : links.getLast? = some (parent, step)) :
    Played parent step ∧ step.settledObservation.boundary = .eventChoice ∧
      Extends parent step.autoActionIds item := by
  cases h with
  | first => cases hlast
  | next _ hplayed hevent hchild =>
      rw [List.getLast?_concat] at hlast
      cases hlast
      exact ⟨hplayed, hevent, hchild⟩

end EventChain

end Chain

/-!
### What a worker played

A step that a worker reported is tied to the operations of its item. This is all that is
asked of a worker here; that the worker of the source does it is shown where it is
modelled.
-/

section Workers

/-- What the workers report: each result for an item is of a worker that has executed it. -/
structure PlayedBy (env : RunEnv W Φ κ β) (worker : WorkerEmulator V)
    (Played : EventWorkItem → ChoiceStepResult → Prop) : Prop where
  reported : ∀ items world results after,
    env.dispatchChoiceWorkItems items world = (.ok results, after) →
    ∀ entry ∈ items.zip results, ∀ step, entry.2.success = true → entry.2.step = some step →
      Played entry.1 step
  executed : ∀ item step, Played item step → ∃ session after result,
    Worker.Usable session ∧ Worker.execute worker item session = (.ok result, after) ∧
      result.success = true ∧ result.step = some step

end Workers

namespace Instance

/-!
### The invariant

What every record of an event branch says of the operations that lead to it.
-/

section Invariant

variable (Played : EventWorkItem → ChoiceStepResult → Prop)

/-- The decision of a branch leads to where a worker has reported it, for the item
    that the branch was played with. -/
def Grown (branchId : PyStr) (book : Book κ β) : Prop :=
  ∀ view, book.view = some (.run view) → ∃ links parent step,
    EventChain Played links parent ∧ Played parent step ∧
    parent.workId = branchId.append ("-" ++ toString book.rngId) ∧
    view.mapSnapshot = parent.mapSnapshot ∧ view.roomId = parent.roomId ∧
    view.actionPrefix = parent.actionPrefix ++ [parent.resolveActionId] ++ step.autoActionIds ∧
    view.choiceType = choiceTypeFromBoundary view.boundary ∧
    view.boundary = step.settledObservation.boundary ∧
    (book.eventRngPlan = none ∨ book.eventRngPlan = parent.eventRngPlan)

/-- The record of an entry of a batch has its plan, or none any more. -/
def Holding (entries : List (PreparedEvent κ β)) (inst : Instance W Φ κ β) : Prop :=
  ∀ entry ∈ entries, ∀ book, inst.bookkeeping.get? entry.spec.item.branchId = some book →
    (book.eventRngPlan = none ∨ book.eventRngPlan = entry.book.eventRngPlan) ∧
      book.rngId = entry.spec.item.rngId

/-- The decisions of branches lead to where they were reported. -/
structure Chained (entries : List (PreparedEvent κ β)) (inst : Instance W Φ κ β) : Prop where
  grown : ∀ branchId book, inst.bookkeeping.get? branchId = some book → Grown Played branchId book
  holding : Holding entries inst

variable {Played} {entries : List (PreparedEvent κ β)} {inst : Instance W Φ κ β}

theorem Grown.lessen {branchId : PyStr} {book : Book κ β} {change : Book κ β → Book κ β}
    (hchange : Lessens change) (h : Grown Played branchId book) :
    Grown Played branchId (change book) := by
  intro view hview
  rw [hchange.rngId, hchange.plan]
  exact h view (hchange.view book view hview)

/-- What is not looked at may change. -/
theorem Chained.congr {inst' : Instance W Φ κ β} (h : Chained Played entries inst)
    (hbooks : inst'.bookkeeping = inst.bookkeeping) : Chained Played entries inst' := by
  refine ⟨fun branchId book hbook => h.grown branchId book (hbooks ▸ hbook), ?_⟩
  unfold Holding
  rw [hbooks]
  exact h.holding

/-- A record is changed. -/
theorem Chained.modifyBook (h : Chained Played entries inst) (branchId : PyStr)
    {change : Book κ β → Book κ β}
    (hgrown : ∀ book, inst.bookkeeping.get? branchId = some book →
      Grown Played branchId (change book))
    (hplan : ∀ book, (change book).eventRngPlan = none ∨
      (change book).eventRngPlan = book.eventRngPlan)
    (hrng : ∀ book, (change book).rngId = book.rngId) :
    Chained Played entries (modifyBook branchId change inst) := by
  refine ⟨fun other book hbook => ?_, fun entry hentry book hbook => ?_⟩
  · rw [get?_modifyBook] at hbook
    split at hbook
    · rename_i hother
      rcases Option.map_eq_some_iff.mp hbook with ⟨old, hold, rfl⟩
      exact hother ▸ hgrown old (hother ▸ hold)
    · exact h.grown other book hbook
  · rw [get?_modifyBook] at hbook
    split at hbook
    · rcases Option.map_eq_some_iff.mp hbook with ⟨old, hold, rfl⟩
      rcases h.holding entry hentry old hold with ⟨hplan', hrng'⟩
      refine ⟨?_, (hrng old).trans hrng'⟩
      rcases hplan old with hnone | hsame
      · exact .inl hnone
      · exact hsame ▸ hplan'
    · exact h.holding entry hentry book hbook

theorem Chained.lessen (h : Chained Played entries inst) (branchId : PyStr)
    {change : Book κ β → Book κ β} (hchange : Lessens change) :
    Chained Played entries (Instance.modifyBook branchId change inst) :=
  h.modifyBook branchId (fun book hbook => (h.grown branchId book hbook).lessen hchange)
    (fun book => .inr (hchange.plan book)) hchange.rngId

/-- Letting go of a hypothesis changes no log. -/
theorem Chained.releaseEventRngReference (h : Chained Played entries inst) (branchId : PyStr) :
    Chained Played entries (releaseEventRngReference branchId inst) := by
  unfold Instance.releaseEventRngReference
  split
  · exact h
  · rename_i plan _
    have hreleased : Chained Played entries { inst with
        eventRngRegistry := inst.eventRngRegistry.releaseBranch plan.hypothesisKey branchId } :=
      h.congr rfl
    refine hreleased.modifyBook branchId (fun book hbook view hview => ?_) (fun _ => .inl rfl)
      fun _ => rfl
    rcases h.grown branchId book hbook view hview with ⟨links, parent, step, hchain, hplayed, hid,
      hsnapshot, hroom, hprefix, hchoice, hboard, -⟩
    exact ⟨links, parent, step, hchain, hplayed, hid, hsnapshot, hroom, hprefix, hchoice, hboard,
      .inl rfl⟩

theorem Chained.faultEventBranch (h : Chained Played entries inst) (branchId : PyStr) :
    Chained Played entries (faultEventBranch branchId inst) := by
  have hchange : Lessens fun book : Book κ β => { book with status := .faulted } :=
    ⟨fun _ => rfl, fun _ => rfl, fun _ _ h => h, fun _ => rfl, fun _ => rfl⟩
  exact (h.lessen branchId hchange).releaseEventRngReference _

/-- The changes of the operations on the root and on the records. -/
theorem steady_chained (entries : List (PreparedEvent κ β)) :
    Steady (Chained Played entries : Instance W Φ κ β → Prop) where
  session _ _ h := h.congr rfl
  rootHistory _ _ h := h.congr rfl
  position _ _ _ _ h := h.congr rfl
  rootBranchLog _ _ _ h := h.congr rfl
  completion _ _ h := h.congr rfl
  nextHolder _ _ h := h.congr rfl
  closed _ _ h := h.congr rfl
  issue _ h := h.congr rfl
  restore _ _ h := h.congr rfl
  book _ branchId _ hchange h := h.lessen branchId hchange
  reference _ branchId h := h.releaseEventRngReference branchId
  retire inst h := by
    have hget : ∀ branchId, (retireBooks inst).bookkeeping.get? branchId =
        (inst.bookkeeping.get? branchId).map retiredBook := fun branchId =>
      Dict.get?_mapVals _ _ _
    refine ⟨fun branchId book hbook view hview => ?_, fun entry hentry book hbook => ?_⟩
    · rw [hget] at hbook
      rcases Option.map_eq_some_iff.mp hbook with ⟨old, -, rfl⟩
      cases hview
    · rw [hget] at hbook
      rcases Option.map_eq_some_iff.mp hbook with ⟨old, hold, rfl⟩
      exact h.holding entry hentry old hold
  reservation _ _ h := h.congr rfl
  registry _ h := h.congr rfl
  phase _ _ _ _ _ h := h.congr rfl
  install _ _ _ h := h.congr rfl
  leave _ h := h.congr rfl

end Invariant

/-!
### Combats

The branches of a combat are no branches of an event.
-/

section Combat

variable {Played : EventWorkItem → ChoiceStepResult → Prop} (env : RunEnv W Φ κ β)

/-- A branch of a combat has no decision of the run. -/
theorem combatBatched_chained :
    CombatBatched (fun _ => Chained Played [] : Finset PyStr → Instance W Φ κ β → Prop)
      fun _ => True where
  framed _ := (steady_chained []).framed
  mono _ h := h
  phase _ := (steady_chained []).phase
  reserve _ _ _ h := h.congr rfl
  register _ prepared internalId inst _ h := by
    refine ⟨fun branchId book hbook => ?_, fun entry hentry => by cases hentry⟩
    unfold registeredAs at hbook
    dsimp only at hbook
    rw [Dict.get?_set] at hbook
    split at hbook
    · cases hbook
      intro view hview
      cases hview
    · exact h.grown branchId book hbook
  unregister inst branchId _ h := by
    refine ⟨fun other book hbook => h.grown other book ?_, fun entry hentry => by cases hentry⟩
    -- What is left of the records was there before.
    unfold unregister at hbook
    by_cases hother : other = branchId
    · rw [hother, Dict.get?_erase_self] at hbook
      cases hbook
    · rwa [Dict.get?_erase_ne _ hother] at hbook
  issue _ _ _ _ h := h.congr rfl
  settle _ branchId change _ _ hchange h := by
    refine h.lessen branchId ?_
    cases hchange with
    | fault => exact ⟨fun _ => rfl, fun _ => rfl, fun _ _ h => h, fun _ => rfl, fun _ => rfl⟩
    | terminal => exact ⟨fun _ => rfl, fun _ => rfl, fun _ _ h => h, fun _ => rfl, fun _ => rfl⟩
    | outcome outcome => exact ⟨fun _ => rfl, fun _ => rfl, fun _ _ h => h, fun _ => rfl,
        fun _ => rfl⟩
    | view view => exact ⟨fun _ => rfl, fun _ => rfl, fun _ _ h => (by cases h), fun _ => rfl,
        fun _ => rfl⟩

theorem emulateCombatPhaseActions_chained (items : List EmulateItem)
    (simulationOptions : Option Fields) :
    Act.Keeps (Chained Played []) (emulateCombatPhaseActions env items simulationOptions) :=
  fun inst h => combatBatched_chained.emulateCombatPhaseActions env items simulationOptions
    (fun _ _ => trivial) inst ⟨rfl, h⟩

end Combat

/-!
### Events

A prepared branch has the log of its parent with its own action behind it, and a result
that succeeds adds the choices that followed.
-/

section Event

variable {Played : EventWorkItem → ChoiceStepResult → Prop} (env : RunEnv W Φ κ β)

/-- The item of an entry is the last of a chain, and was built from its spec. -/
structure Linked (Played : EventWorkItem → ChoiceStepResult → Prop) (prepared : PreparedEvent κ β) :
    Prop where
  chain : ∃ links, EventChain Played links prepared.workItem ∧
    (links = [] ↔ prepared.spec.item.parentBranchId = root) ∧
    ∀ parent step, links.getLast? = some (parent, step) → parent.workId =
      prepared.spec.item.parentBranchId.append ("-" ++ toString prepared.spec.item.rngId)
  workId : prepared.workItem.workId =
    prepared.spec.item.branchId.append ("-" ++ toString prepared.spec.item.rngId)
  mapSnapshot : prepared.workItem.mapSnapshot = prepared.spec.parentView.mapSnapshot
  roomId : prepared.workItem.roomId = prepared.spec.parentView.roomId
  actionPrefix : prepared.workItem.actionPrefix = prepared.spec.parentView.actionPrefix
  choiceType : prepared.workItem.choiceType = prepared.spec.parentView.choiceType
  resolveActionId : prepared.workItem.resolveActionId = prepared.spec.chosenActionId
  plan : prepared.book.eventRngPlan = prepared.workItem.eventRngPlan
  rngId : prepared.book.rngId = prepared.spec.item.rngId
  view : prepared.book.view = none

/-- A branch that is prepared is the last of a chain. -/
theorem linked_of_prepared {inst : Instance W Φ κ β} (h : Chained Played [] inst)
    {prepared : PreparedEvent κ β} (hfrom : PreparedFrom env inst prepared) :
    Linked Played prepared := by
  rcases validated_of_ok hfrom.validated with ⟨-, -, hboundary, hlineage⟩
  have hview := hfrom.viewed
  rcases (Except.map_eq_ok _ _ _).mp hfrom.built with ⟨plan, hplan, heq⟩
  rw [← heq] at hview hboundary hlineage ⊢
  dsimp only at hview hboundary hlineage
  generalize prepared.spec = spec at hplan hview hboundary hlineage ⊢
  refine ⟨?_, rfl, rfl, rfl, rfl, rfl, rfl, rfl, rfl, rfl⟩
  have hevent : ∀ {choiceType}, choiceType = choiceTypeFromBoundary spec.parentView.boundary →
      choiceType ≠ "map" := by
    intro choiceType hchoice
    rw [hchoice, hboundary]
    decide
  unfold eventRngPlanFor at hplan
  unfold Viewed at hview
  by_cases hroot : spec.item.parentBranchId = root
  · rw [if_pos hroot] at hview hplan
    rcases hstate : spec.parentView.eventRngState with _ | state
    · rw [hstate] at hplan
      cases hplan
    · rw [hstate] at hplan
      rcases (Except.map_eq_ok _ _ _).mp hplan with ⟨overrideState, -, rfl⟩
      exact ⟨[], .first rfl rfl (hevent hview) hboundary, ⟨fun _ => hroot, fun _ => rfl⟩,
        fun _ _ hlast => nomatch hlast⟩
  · rw [if_neg hroot] at hview hplan
    -- The parent has a record, and its plan.
    rcases book_of_bookViewFor hview with ⟨book, hbook, hrun, -⟩
    rw [hbook] at hplan
    unfold checkLineage at hlineage
    rw [if_neg hroot, hbook] at hlineage
    dsimp only at hlineage
    rcases h.grown _ book hbook _ hrun with ⟨links, parent, step, hchain, hplayed, hid, hsnapshot,
      hroom, hprefix, hchoice, hboard, hparentPlan⟩
    rcases hbookPlan : book.eventRngPlan with _ | plan'
    · rw [Option.bind_some, hbookPlan] at hplan
      cases hplan
    · rw [Option.bind_some, hbookPlan] at hplan
      cases hplan
      have hsame : parent.eventRngPlan = some plan := by
        rcases hparentPlan with hnone | hsame
        · rw [hbookPlan] at hnone
          cases hnone
        · rw [← hsame, hbookPlan]
      rcases hchain.plan with ⟨plan', hplan', hindex⟩
      rw [hsame] at hplan'
      cases hplan'
      refine ⟨links ++ [(parent, step)], hchain.next hplayed (hboard.symm.trans hboundary)
        ⟨⟨hchain.choiceType, hevent hchoice⟩, hsnapshot, hroom, hprefix, plan, hsame, rfl, hindex⟩
        hboundary, by simp [hroot], fun other reported hlast => ?_⟩
      rw [List.getLast?_concat] at hlast
      cases hlast
      split at hlineage
      · cases hlineage
      · rename_i hrng
        rw [hid, not_not.mp hrng]

/-- The decision that a branch comes to leads to where the worker reported it. -/
theorem finalizeEventBranch_chained {entries : List (PreparedEvent κ β)}
    {entry : PreparedEvent κ β} (hentry : entry ∈ entries) (hlinked : Linked Played entry)
    (result : ChoiceResult) (hplayed : ∀ step, result.success = true → result.step = some step →
      Played entry.workItem step) :
    Act.Keeps (Chained Played entries)
      (finalizeEventBranch entry.spec result : Op W Φ κ β Fields) := by
  have hI : Steady (Chained Played entries : Instance W Φ κ β → Prop) := steady_chained entries
  have hissue : Act.Keeps (Chained Played entries) (Act.modify fun inst => { inst with
      decisionPoints := inst.decisionPoints.issue entry.spec.item.branchId } : Op W Φ κ β Unit) :=
    .modify fun _ h => h.congr rfl
  have hfault : Act.Keeps (Chained Played entries)
      (Act.modify (faultEventBranch entry.spec.item.branchId) : Op W Φ κ β Unit) :=
    .modify fun _ h => h.faultEventBranch _
  have hhistory : ∀ roomContext, Lessens fun book : Book κ β =>
      { book with history := book.history.observeRoomContext roomContext } :=
    fun _ => ⟨fun _ => rfl, fun _ => rfl, fun _ _ h => h, fun _ => rfl, fun _ => rfl⟩
  have hterminal : ∀ outcome, Lessens fun book : Book κ β =>
      { book with outcome := some outcome, terminal := true } :=
    fun _ => ⟨fun _ => rfl, fun _ => rfl, fun _ _ h => h, fun _ => rfl, fun _ => rfl⟩
  unfold finalizeEventBranch
  refine .ite (fun _ => hfault.bind fun _ => .pure _) fun hsuccess => ?_
  rcases hstep : result.step with _ | step
  · exact hfault.bind fun _ => .raise _
  refine (hI.modifyBook _ (hhistory _)).bind fun _ => .ite (fun _ => ?_) fun _ => ?_
  · unfold finalizeRunTerminal
    split
    · exact hfault.bind fun _ => .raise _
    · exact (hI.modifyBook _ (hterminal _)).bind fun _ => hissue.bind fun _ =>
        Act.Keeps.get.bind fun _ => (Act.Keeps.ofExcept _).bind fun _ => .pure _
  · refine .bind (.modify fun inst h => ?_) fun _ => hissue.bind fun _ =>
      Act.Keeps.get.bind fun inst => ?_
    · refine h.modifyBook _ (fun book hbook view hview => ?_) (fun _ => .inr rfl) fun _ => rfl
      -- The item was played, and the record still has its plan or none.
      rcases hlinked.chain with ⟨links, hchain, -, -⟩
      rcases h.holding entry hentry book hbook with ⟨hplan, hrng⟩
      have hmap : entry.spec.parentView.choiceType ≠ "map" :=
        hlinked.choiceType ▸ hchain.choiceType
      have hreported : Played entry.workItem step :=
        hplayed step (by simpa using hsuccess) hstep
      cases hview
      refine ⟨links, entry.workItem, step, hchain, hreported, ?_, hlinked.mapSnapshot.symm, ?_, ?_,
        rfl, rfl, hlinked.plan ▸ hplan⟩
      · rw [hlinked.workId]
        dsimp only
        rw [hrng]
      · rw [hlinked.roomId]
        exact if_neg hmap
      · rw [hlinked.actionPrefix, hlinked.resolveActionId]
        exact if_neg hmap
    · split
      · exact .raise _
      · exact (Act.Keeps.ofExcept _).bind fun _ => .pure _

/-- The branches that are committed have the records they were prepared with. -/
theorem CommittedChain.chained {inst after : Instance W Φ κ β}
    {committed : List (PreparedEvent κ β)} (hchain : CommittedChain inst committed after)
    (hlinked : ∀ entry ∈ committed, Linked Played entry) {entries : List (PreparedEvent κ β)}
    (hknown : ∀ entry ∈ entries, entry.spec.item.branchId ∈ inst.branchIds.everUsed)
    (h : Chained Played entries inst) : Chained Played (entries ++ committed) after := by
  induction hchain generalizing entries with
  | nil => rwa [List.append_nil]
  | @cons inst after prepared rest registry hnew hholds hrest ih =>
      have hprepared := hlinked prepared List.mem_cons_self
      have hget : ∀ branchId, (committedAs prepared registry inst).bookkeeping.get? branchId =
          if branchId = prepared.spec.item.branchId then some prepared.book
          else inst.bookkeeping.get? branchId := fun branchId => Dict.get?_set _ _ _ _
      -- The branch committed now holds its log, and no other book is touched.
      have hnext : Chained Played (entries ++ [prepared]) (committedAs prepared registry inst) := by
        refine ⟨fun branchId book hbook => ?_, fun entry hentry book hbook => ?_⟩
        · rw [hget] at hbook
          split at hbook
          · cases hbook
            intro view hview
            rw [hprepared.view] at hview
            cases hview
          · exact h.grown branchId book hbook
        · rw [hget] at hbook
          rcases List.mem_append.mp hentry with hold | hlast
          -- The new id was not in use, so the entry is of another branch.
          · have hne : entry.spec.item.branchId ≠ prepared.spec.item.branchId :=
              fun heq => hnew (heq ▸ hknown entry hold)
            rw [if_neg hne] at hbook
            exact h.holding entry hold book hbook
          · rw [List.mem_singleton.mp hlast, if_pos rfl] at hbook
            cases hbook
            rw [List.mem_singleton.mp hlast]
            exact ⟨.inr rfl, hprepared.rngId⟩
      -- The rest is committed after it.
      have hall := ih (fun entry hentry => hlinked entry (List.mem_cons_of_mem _ hentry)) ?_ hnext
      · rwa [List.append_assoc] at hall
      · intro entry hentry
        rcases List.mem_append.mp hentry with hold | hlast
        · exact Finset.mem_insert_of_mem (hknown entry hold)
        · rw [List.mem_singleton.mp hlast]
          exact Finset.mem_insert_self _ _

/-- With fewer entries less is asked. -/
theorem Chained.forget {entries : List (PreparedEvent κ β)} {inst : Instance W Φ κ β}
    (h : Chained Played entries inst) : Chained Played [] inst :=
  ⟨h.grown, fun _ hentry => nomatch hentry⟩

/-!
### Dispatch

The item that is sent is that of the branch, so the result that comes back may be put on
its record.
-/

section Dispatch

variable {env} {worker : WorkerEmulator V} (hplayed : PlayedBy env worker Played)
include hplayed

/-- What is dispatched comes back as it was played. -/
theorem dispatch_chained (entries : List (PreparedEvent κ β)) (items : List EventWorkItem) :
    Act.Triple (Chained Played entries)
      (onSession (Session.inWorld (env.dispatchChoiceWorkItems items)) : Op W Φ κ β _)
      (fun results inst => Chained Played entries inst ∧ ∀ entry ∈ items.zip results, ∀ step,
        entry.2.success = true → entry.2.step = some step → Played entry.1 step)
      fun _ => Chained Played entries := by
  intro inst h
  have hends : onSession (Session.inWorld (env.dispatchChoiceWorkItems items)) inst =
      ((env.dispatchChoiceWorkItems items inst.session.world).1, { inst with
        session := { inst.session with
          world := (env.dispatchChoiceWorkItems items inst.session.world).2 } }) :=
    rfl
  rw [hends]
  rcases hdispatch : env.dispatchChoiceWorkItems items inst.session.world with
    ⟨error | results, after⟩
  · exact h.congr rfl
  · exact ⟨h.congr rfl, hplayed.reported items _ results after hdispatch⟩

/-- Dispatching one branch. -/
theorem dispatchOne_chained {prepared : PreparedEvent κ β} (hlinked : Linked Played prepared) :
    Act.Keeps (Chained Played [prepared]) (dispatchOne env prepared) := by
  refine Act.Triple.bind (Q := fun outcome inst => Chained Played [prepared] inst ∧
    ∀ results, outcome = .ok results → ∀ entry ∈ [prepared.workItem].zip results, ∀ step,
      entry.2.success = true → entry.2.step = some step → Played entry.1 step) ?_ fun outcome => ?_
  · refine Act.Triple.catching (E := fun _ => Chained Played [prepared])
      ((dispatch_chained hplayed [prepared] [prepared.workItem]).bind fun results =>
        .pure fun inst h => ⟨h.1, fun _ heq => by cases heq; exact h.2⟩) fun error => ?_
    refine .bind (Q := fun _ => Chained Played [prepared])
      (.modify fun inst h => h.faultEventBranch _) fun _ => ?_
    split
    · exact .pure fun inst h => ⟨h, fun _ heq => nomatch heq⟩
    · exact .raise fun inst h => h
  · split
    · exact fun inst h => h.1
    · exact fun inst h => h.1
    · rename_i result rest
      intro inst h
      have hresult : ∀ step, result.success = true → result.step = some step →
          Played prepared.workItem step :=
        h.2 _ rfl (prepared.workItem, result) List.mem_cons_self
      exact ((finalizeEventBranch_chained List.mem_cons_self hlinked result hresult).bind
        fun _ => .pure _) inst h.1

/-- Dispatching a batch. -/
theorem dispatchPreparedBatch_chained {prepared : List (PreparedEvent κ β)}
    (hlinked : ∀ entry ∈ prepared, Linked Played entry) :
    Act.Keeps (Chained Played prepared) (Beam.dispatchPreparedBatch env prepared) := by
  have hI : Steady (Chained Played prepared : Instance W Φ κ β → Prop) := steady_chained prepared
  have hrelease : Act.Keeps (Chained Played prepared)
      (Beam.bestEffortReleasePrepared env prepared) :=
    -- Releasing the branches that were prepared keeps the chain, whatever it comes to.
    .ite (fun _ => .pure _) fun _ =>
      ((keeps_releaseBranches (hI.releaseBranch env) _).bind fun _ => Act.Keeps.pure _).catching
        fun _ => .pure _
  refine Act.Triple.bind (Q := fun outcome inst => Chained Played prepared inst ∧
    ∀ results, outcome = .ok results → ∀ entry ∈ (prepared.map PreparedEvent.workItem).zip results,
      ∀ step, entry.2.success = true → entry.2.step = some step → Played entry.1 step) ?_
    fun outcome => ?_
  -- Every step that came back was played by the item it answers.
  · exact Act.Triple.catching (E := fun _ => Chained Played prepared)
      ((dispatch_chained hplayed prepared _).bind fun results =>
        .pure fun inst h => ⟨h.1, fun _ heq => by cases heq; exact h.2⟩) fun error =>
      .pure fun inst h => ⟨h, fun _ heq => nomatch heq⟩
  -- The dispatch failed: the branches are faulted or released, and both keep the chain.
  · split
    · refine Act.Triple.conseq (P := Chained Played prepared)
        (Q := fun _ => Chained Played prepared)
        (E := fun _ => Chained Played prepared) ?_ (fun _ h => h.1) (fun _ _ h => h) fun _ _ h => h
      split
      · refine .bind (.modify fun inst h => ?_) fun _ => .pure fun _ h => h
        exact List.foldlRecOn _ _ h fun inst h entry _ => h.faultEventBranch _
      · exact hrelease.bind fun _ => .raise _
    -- It returned: each branch gets the step played for it.
    · rename_i results
      intro inst h
      have hkeeps : Act.Keeps (Chained Played prepared)
          (Beam.finalizeAll (prepared.zip results) : Op W Φ κ β _) := by
        refine .collect_of_mem _ fun entry hentry => ?_
        refine (finalizeEventBranch_chained (List.of_mem_zip hentry).1
          (hlinked _ (List.of_mem_zip hentry).1) entry.2 fun step hsuccess hstep => ?_).bind
          fun _ => .pure _
        refine h.2 results rfl (entry.1.workItem, entry.2) ?_ step hsuccess hstep
        rw [List.zip_map_left]
        exact List.mem_map_of_mem hentry
      exact (Act.Keeps.ite (fun _ => hrelease.bind fun _ => .raise _) fun _ =>
        (hkeeps.onError fun _ => hrelease).bind fun _ => .pure _) inst h.1

end Dispatch

section Requests

variable {env} {worker : WorkerEmulator V} (hplayed : PlayedBy env worker Played)

theorem ignoresView_chained :
    IgnoresView fun inst : Instance W Φ κ β => Known inst ∧ Chained Played [] inst where
  session inst session h := ⟨steady_known.session inst session h.1, h.2.congr rfl⟩
  rootHistory inst history h := ⟨steady_known.rootHistory inst history h.1, h.2.congr rfl⟩

include hplayed

/-- One branch at an event. -/
theorem emulateEventAction_chained (item : EmulateItem) (simulationOptions : Option Fields) :
    Act.Triple (fun inst => Known inst ∧ Chained Played [] inst)
      (emulateEventAction env item simulationOptions) (fun _ => Chained Played [])
      fun _ => Chained Played [] := by
  refine emulateEventAction_triple env ignoresView_chained (fun _ h => h.2)
    (J := fun prepared inst => Linked Played prepared ∧ Chained Played [prepared] inst)
    ?_ (fun prepared => ?_) item simulationOptions
  · rintro _ prepared h hfrom - s rfl
    have hlinked : Linked Played prepared := linked_of_prepared env h.2 hfrom
    rcases commitPreparedBranch_after h.1.root prepared with ⟨error, hraises⟩ |
      ⟨registry, hnew, hholds, hok⟩
    · rw [hraises]
      exact h.2
    · rw [hok]
      have hchained : Chained Played ([] ++ [prepared]) (committedAs prepared registry s) :=
        (CommittedChain.cons hnew hholds (.nil _)).chained
          (fun entry hentry => List.mem_singleton.mp hentry ▸ hlinked)
          (fun _ hentry => nomatch hentry) h.2
      exact ⟨hlinked, hchained⟩
  · rintro inst ⟨hlinked, h⟩
    exact (dispatchOne_chained hplayed hlinked).conseq (fun _ h => h) (fun _ _ h => h.forget)
      (fun _ _ h => h.forget) inst h

/-- A batch at an event. -/
theorem beamEmulateEventBatch_chained (items : List EmulateItem) :
    Act.Triple (fun inst => Known inst ∧ Chained Played [] inst)
      (Beam.emulateEventBatch env items) (fun _ => Chained Played [])
      fun _ => Chained Played [] := by
  refine emulateEventBatch_triple env ignoresView_chained (fun _ h => h.2)
    (J := fun batch inst => (∀ prepared ∈ batch, Linked Played prepared) ∧
      Chained Played batch inst) ?_ (fun batch => ?_) items
  · rintro inst batch h hfrom - - _ rfl
    have hlinked : ∀ prepared ∈ batch, Linked Played prepared :=
      fun prepared hprepared => linked_of_prepared env h.2 (hfrom prepared hprepared)
    rcases commitBatch_after h.1 batch with ⟨error, hraises⟩ | ⟨after, hok, hchain⟩
    · rw [hraises]
      exact h.2
    · rw [hok]
      have hafter : Chained Played ([] ++ batch) after :=
        hchain.chained hlinked (fun _ hentry => nomatch hentry) h.2
      rw [List.nil_append] at hafter
      exact ⟨hlinked, hafter⟩
  · rintro inst ⟨hlinked, h⟩
    exact (dispatchPreparedBatch_chained hplayed hlinked).conseq (fun _ h => h)
      (fun _ _ h => h.forget) (fun _ _ h => h.forget) inst h

end Requests

/-!
### Requests

Every request keeps the invariant.
-/

section Runs

variable {env} {worker : WorkerEmulator V} (hplayed : PlayedBy env worker Played)

theorem chained_of_constructs {config : Fields} {world : W} {access : GameAccess}
    {inst : Instance W Φ κ β} (h : Constructs env config world access inst) :
    Chained Played [] inst := by
  have hblank : Chained Played [] (blank world access : Instance W Φ κ β) :=
    ⟨fun _ _ hbook => (nomatch hbook), fun _ hentry => nomatch hentry⟩
  have hafter := ((steady_chained []).framed.construct env config).after hblank
  rw [h] at hafter
  exact hafter

include hplayed

/-- The decisions of branches lead to where they were reported, after every request. -/
theorem chained_step (facade : Facade) (inst : Instance W Φ κ β) (request : Request)
    (h : Known inst ∧ Chained Played [] inst) :
    Known (step env facade inst request).1 ∧
      Chained Played [] (step env facade inst request).1 := by
  have hI : Steady fun inst : Instance W Φ κ β => Known inst ∧ Chained Played [] inst :=
    steady_known.and (steady_chained [])
  refine hI.step env ((hI.stable env).poisonCombatTransaction env fun inst faulted h =>
    ⟨?_, h.2.congr rfl⟩)
    (fun items simulationOptions => (emulateCombatPhaseActions_known env items
      simulationOptions).and
      (emulateCombatPhaseActions_chained env items simulationOptions))
    (fun item simulationOptions => ?_) (fun items => ?_) facade inst request h
  · exact ⟨h.1.root, h.1.known, h.1.registered, h.1.books, h.1.points, h.1.registry⟩
  · exact ((emulateEventAction_known env item simulationOptions).and
      (emulateEventAction_chained hplayed item simulationOptions)).conseq (fun _ h => ⟨h.1, h⟩)
      (fun _ _ h => h) fun _ _ h => h
  · exact ((beamEmulateEventBatch_known env items).and
      (beamEmulateEventBatch_chained hplayed items)).conseq (fun _ h => ⟨h.1, h⟩)
      (fun _ _ h => h) fun _ _ h => h

end Runs

/-!
### The branch that is sent

The item a request sends, at the state in which it is sent.
-/

section Branches

variable {env}

/-- The branch for an item, built from the decision of its parent. -/
def preparedAt (env : RunEnv W Φ κ β) (inst : Instance W Φ κ β) (item : EmulateItem) :
    Except PyError (PreparedEvent κ β) :=
  match viewFor env item.parentBranchId inst with
  | (.error error, _) => .error error
  | (.ok view, viewed) =>
      match validateEventBranch viewed item view with
      | .error error => .error error
      | .ok spec => prepareEventBranch env viewed spec

/-- The branches that a request comes to at an instance: that of one item, which the
    facade for beam search looks at first, and those of a batch. -/
inductive Admits (env : RunEnv W Φ κ β) : Instance W Φ κ β → PreparedEvent κ β → Prop
  | single {inst : Instance W Φ κ β} {item : EmulateItem} {prepared : PreparedEvent κ β}
      (hprepared : preparedAt env inst item = .ok prepared) : Admits env inst prepared
  | looked {inst looked : Instance W Φ κ β} {parentBranchId : PyStr} {prepared : PreparedEvent κ β}
      (hlooked : Beam.parentAtEvent env parentBranchId inst = (.ok true, looked))
      (hadmits : Admits env looked prepared) : Admits env inst prepared
  | batch {inst viewed : Instance W Φ κ β} {items : List EmulateItem} {views : List (PyStr × View)}
      {batch : List (PreparedEvent κ β)} {prepared : PreparedEvent κ β}
      (hviews : Beam.parentViews env items [] inst = (.ok views, viewed))
      (hbatch : Beam.prepareBatch env viewed views items = .ok batch) (hmem : prepared ∈ batch) :
      Admits env inst prepared

/-- A branch that is answered was admitted, and given to the workers. -/
theorem admits_of_emulateEventAction {item : EmulateItem} {simulationOptions : Option Fields}
    {inst after : Instance W Φ κ β} {reply : Json}
    (h : emulateEventAction env item simulationOptions inst = (.ok reply, after)) :
    ∃ prepared committed, Admits env inst prepared ∧
      dispatchOne env prepared committed = (.ok reply, after) := by
  rcases Act.of_bind_ok h with ⟨_, _, hmutable, hstopping⟩
  rcases Act.of_bind_ok hstopping with ⟨_, _, hstop, hknowing⟩
  rcases Act.of_bind_ok hknowing with ⟨_, _, ⟨⟩, hfresh⟩
  rcases Act.of_bind_ok hfresh with ⟨_, _, hraise, hviewing⟩
  rcases Act.of_bind_ok hviewing with ⟨view, viewed, hview, hreading⟩
  rcases Act.of_bind_ok hreading with ⟨_, _, ⟨⟩, hchecking⟩
  rcases Act.of_bind_ok hchecking with ⟨spec, _, hspec, hcapacity⟩
  rcases Act.of_bind_ok hcapacity with ⟨_, _, hroom, hpreparing⟩
  rcases Act.of_bind_ok hpreparing with ⟨prepared, _, hprepared, hcommitting⟩
  rcases Act.of_bind_ok hcommitting with ⟨_, committed, -, hdispatch⟩
  refine ⟨prepared, committed, ?_, hdispatch⟩
  -- The checks before the decision leave the instance as it is.
  rw [(Act.of_raiseIf_ok hmutable).2] at hstop
  rw [(Act.of_raiseIf_ok hraise).2, (Act.of_ofExcept_ok hstop).2] at hview
  have hends : preparedAt env inst item = .ok prepared := by
    unfold preparedAt
    rw [hview]
    dsimp only
    rw [(Act.of_ofExcept_ok hspec).1]
    exact (Act.of_ofExcept_ok hprepared).1
  exact .single hends

/-- The branches of a batch that is answered were admitted, and given to the workers. -/
theorem admits_of_beamEmulateEventBatch {items : List EmulateItem}
    {inst after : Instance W Φ κ β} {reply : Json}
    (h : Beam.emulateEventBatch env items inst = (.ok reply, after)) :
    ∃ batch committed, (∀ prepared ∈ batch, Admits env inst prepared) ∧
      Beam.dispatchPreparedBatch env batch committed = (.ok reply, after) := by
  rcases Act.of_bind_ok h with ⟨views, viewed, hviews, hreading⟩
  rcases Act.of_bind_ok hreading with ⟨_, _, ⟨⟩, hpreparing⟩
  rcases Act.of_bind_ok hpreparing with ⟨batch, _, hbatch, hcommitting⟩
  rcases Act.of_bind_ok hcommitting with ⟨_, committed, -, hdispatch⟩
  exact ⟨batch, committed,
    fun _ hmem => .batch hviews (Act.of_ofExcept_ok hbatch).1 hmem, hdispatch⟩

/-- What is sent there is linked to the branches before. -/
theorem linked_of_admits {inst : Instance W Φ κ β} {prepared : PreparedEvent κ β}
    (hadmits : Admits env inst prepared) (h : Known inst ∧ Chained Played [] inst) :
    Linked Played prepared := by
  induction hadmits with
  | @single inst item prepared hprepared =>
      have hviewed := viewFor_viewed env ignoresView_chained item.parentBranchId inst h
      unfold preparedAt at hprepared
      rcases hview : viewFor env item.parentBranchId inst with ⟨error | view, viewed⟩
      · rw [hview] at hprepared
        cases hprepared
      rw [hview] at hviewed hprepared
      dsimp only at hprepared
      rcases hspec : validateEventBranch viewed item view with error | spec
      · rw [hspec] at hprepared
        cases hprepared
      rw [hspec] at hprepared
      exact linked_of_prepared env hviewed.1.2 (preparedFrom_of_ok env hviewed.2 hspec hprepared)
  | @looked inst looked parentBranchId prepared hlooked _ ih =>
      have hI : Steady fun inst : Instance W Φ κ β => Known inst ∧ Chained Played [] inst :=
        steady_known.and (steady_chained [])
      exact ih ((hI.framed.parentAtEvent env parentBranchId).at_ok h hlooked)
  | @batch inst viewed items views batch prepared hviews hbatch hmem =>
      have hviewed := parentViews_viewed env ignoresView_chained items [] inst
        ⟨h, fun _ hentry => nomatch hentry⟩
      rw [hviews] at hviewed
      exact linked_of_prepared env hviewed.1.2
        ((preparedFrom_of_batch env hbatch hviewed.2).2.1 prepared hmem)

end Branches

/-!
### Runs

The law of a run: what the worker is sent leads from the root to the branch.
-/

section Runs

variable {env} {worker : WorkerEmulator V} (hplayed : PlayedBy env worker Played)
  (hdet : worker.Deterministic)
include hplayed hdet

/-- In every run, a branch at an event is the last of a chain from the root. The calls
    for it are those for the chain, with the override made once, before the action of
    the first branch. A worker that reports a step has made them, and a worker whose calls
    are all answered, and which finds an event on the way, makes them and reports the board
    it came to. They leave the game as it is when the parent is played and then the action
    of the branch; on the way to a branch of a branch a worker always finds the event. -/
theorem chain_replay (facade : Facade) {config : Fields} {world : W} {access : GameAccess}
    {start : Instance W Φ κ β} (hconstruct : Constructs env config world access start)
    (requests : List Request) {prepared : PreparedEvent κ β}
    (hadmits : Admits env (Run.final (step env facade) start requests) prepared) :
    ∃ links plan, EventChain Played links prepared.workItem ∧
      (links = [] ↔ prepared.spec.item.parentBranchId = root) ∧
      prepared.workItem.eventRngPlan = some plan ∧
      operations prepared.workItem = chainOperations links prepared.workItem plan.overrideState ∧
      (∀ session result after,
        Worker.execute worker prepared.workItem session = (.ok result, after) →
        result.success = true → ∃ step, result.step = some step ∧
          Worker.play worker (operations prepared.workItem) session =
            (.ok step.autoActionIds, after) ∧
          (worker.getObservation after.world).1 = .ok step.settledObservation) ∧
      (∀ session reached after observation settled autoActionIds,
        Worker.performAll worker (reachOperations prepared.workItem) session =
          (.ok (), reached) →
        worker.Answers reached.world observation → observation.boundary = .eventChoice →
        Worker.play worker (operations prepared.workItem) session =
          (.ok autoActionIds, after) →
        worker.Answers after.world settled → ∃ step,
          Worker.execute worker prepared.workItem session = (.ok
            { success := true, step := some step, message := none, faultKind := none }, after) ∧
          step.autoActionIds = autoActionIds ∧ step.settledObservation = settled) ∧
      ∀ parent reported, links.getLast? = some (parent, reported) →
        parent.workId =
          prepared.spec.item.parentBranchId.append ("-" ++ toString prepared.spec.item.rngId) ∧
        ∀ session other, Worker.Usable session → Worker.Usable other → ∃ reached,
          Worker.play worker (operations parent) other = (.ok reported.autoActionIds, reached) ∧
          (Worker.play worker (operations prepared.workItem) session).1 =
            (Worker.play worker [.step prepared.workItem.resolveActionId] reached).1 ∧
          Worker.SameGame (Worker.play worker (operations prepared.workItem) session).2
            (Worker.play worker [.step prepared.workItem.resolveActionId] reached).2 ∧
          ∀ after observation settled autoActionIds, worker.Answers reached.world observation →
            Worker.play worker [.step prepared.workItem.resolveActionId] reached =
              (.ok autoActionIds, after) →
            worker.Answers after.world settled → ∃ step final,
              Worker.execute worker prepared.workItem session = (.ok
                { success := true, step := some step, message := none, faultKind := none },
                final) ∧
              step.autoActionIds = autoActionIds ∧ step.settledObservation = settled ∧
              Worker.SameGame final after := by
  have hinvariant := Run.invariant (step env facade) (chained_step hplayed facade) start requests
    ⟨known_of_constructs env hconstruct, chained_of_constructs hconstruct⟩
  have hlinked : Linked Played prepared := linked_of_admits hadmits hinvariant
  rcases hlinked.chain with ⟨links, hchain, hroot, hlast⟩
  rcases hchain.operations_eq with ⟨plan, hplan, hcalls⟩
  refine ⟨links, plan, hchain, hroot, hplan, hcalls, fun session result after hexecute hsuccess =>
    Worker.play_of_execute hdet hexecute hsuccess, ?_, fun parent reported hparent => ?_⟩
  · intro session reached after observation settled autoActionIds hreach hread hevent hplay hsettled
    exact Worker.execute_of_play hdet hchain.choiceType hchain.targetBoundary hreach hread hevent
      hplay hsettled
  refine ⟨hlast parent reported hparent, fun session other hsession hother => ?_⟩
  -- The parent was played by a worker, and so it can be played again.
  rcases hchain.last hparent with ⟨hreported, hevent, hchild⟩
  rcases hplayed.executed parent reported hreported with
    ⟨before, after, result, hbefore, hexecute, hsuccess, hstep⟩
  rcases Worker.play_of_execute hdet hexecute hsuccess with ⟨step, hsame, hparentPlayed, hboard⟩
  rw [hstep] at hsame
  cases hsame
  rcases Worker.play_child hdet hchild hbefore hparentPlayed hsession hother with
    ⟨reached, hreached, hends, hgame⟩
  refine ⟨reached, hreached, hends, hgame, ?_⟩
  intro after observation settled autoActionIds hread hplay hsettled
  exact Worker.execute_child hdet hchild hchain.targetBoundary hbefore hparentPlayed hboard hevent
    hsession hother hreached hread hplay hsettled

end Runs

/-!
### A run with a descendant

An event whose choice is resolved automatically, a branch and a branch under it.
-/

section ChainRun

/-- The reward that leaves no choice. -/
def potionTake : RunAction := { smallAction 5 with actionType := "choice_reward_potion_take" }

/-- The action of the event leads to a reward, and the reward back to the event. -/
def chainBoard (calls : List Operation) : Observation :=
  ⟨if calls.getLast? = some (.step 9) then .rewardSelect else .eventChoice, "", []⟩

/-- A worker whose game is the calls since the map. -/
def chainWorker : WorkerEmulator (List Operation) where
  getObservation calls := (.ok (chainBoard calls), calls)
  getLegalActions calls :=
    (.ok [if calls.getLast? = some (.step 9) then potionTake else smallAction 9], calls)
  getMapRooms := pure []
  getRoomContext := pure ⟨true, some "EventRoom", some 0, some 1, []⟩
  getEventRngState := pure ⟨"event", smallStream, smallStream, smallStream, smallStream⟩
  saveState := pure "map"
  chooseRoom roomId calls := (.ok (), calls ++ [.chooseRoom (some roomId)])
  step actionId calls := (.ok (), calls ++ [.step actionId])
  enableGodMode := pure ()
  startRun _ _ _ := pure ()
  loadState snapshot _ := (.ok (), [.loadState (some snapshot)])
  setEventRngState overrides calls := (.ok (), calls ++ [.setEventRngState overrides])
  getRunState := pure []

theorem chainWorker_deterministic : chainWorker.Deterministic where
  getObservation _ := rfl
  getLegalActions _ := rfl
  getMapRooms _ := rfl
  getRoomContext _ := rfl
  getEventRngState _ := rfl
  getRunState _ := rfl
  loadState _ _ _ := rfl

/-- What the worker makes of an item. -/
def chainResult (item : EventWorkItem) : ChoiceResult :=
  (Worker.execute chainWorker item ⟨[], {}, none⟩).1.toOption.getD Worker.replayMismatch

/-- The event of a short run, with branches that are played. -/
def chainRun : RunEnv Nat Unit Unit Unit :=
  { eventRun with dispatchChoiceWorkItems := fun items => pure (items.map chainResult) }

/-- An instance before the event is entered. -/
def chainInstance : Instance Nat Unit Unit Unit := (construct chainRun [] (blank 0 {})).2

/-- What the worker reports. -/
def ChainPlayed (item : EventWorkItem) (step : ChoiceStepResult) : Prop :=
  ∃ session after result, Worker.Usable session ∧
    Worker.execute chainWorker item session = (.ok result, after) ∧ result.success = true ∧
    result.step = some step

theorem chainRun_playedBy : PlayedBy chainRun chainWorker ChainPlayed where
  reported items world results after hdispatch entry hentry step hsuccess hstep := by
    cases hdispatch
    rw [← List.map_prod_left_eq_zip] at hentry
    rcases List.mem_map.mp hentry with ⟨item, -, rfl⟩
    unfold chainResult at hsuccess hstep
    rcases hexecute : Worker.execute chainWorker item ⟨[], {}, none⟩ with ⟨_ | result, after⟩
    · rw [hexecute] at hsuccess
      cases hsuccess
    · rw [hexecute] at hsuccess hstep
      have husable : Worker.Usable (⟨[], {}, none⟩ : Session (List Operation)) := Or.inl rfl
      exact ⟨_, after, result, husable, hexecute, hsuccess, hstep⟩
  executed _ _ h := h

/-- An event is entered. -/
def enterEvent : List Request := [.call (.commitAction "d-root-000001" "7")]

/-- A branch of the event is played. -/
def playFirst : List Request :=
  [.call (.emulateAction ⟨"root", "b1", "d-root-000002", "9", 1⟩ none)]

/-- The branch is recorded with what the worker reported of it. -/
def growFirst : Op Nat Unit Unit Unit View := do
  let parentView ← viewFor chainRun root
  let inst ← Act.get
  let spec ← Act.ofExcept
    (validateEventBranch inst ⟨"root", "b1", "d-root-000002", "9", 1⟩ parentView)
  let prepared ← Act.ofExcept (prepareEventBranch chainRun inst spec)
  commitPreparedBranch prepared
  match (chainResult prepared.workItem).step with
  | none => pure parentView
  | some step => do
      Act.modify (modifyBook "b1" fun book =>
        { book with history := book.history.observeRoomContext step.settledRoomContext })
      let view := buildChildView parentView spec.chosenActionId step
      Act.modify (modifyBook "b1" fun book => { book with view := some (.run view) })
      Act.modify fun inst => { inst with decisionPoints := inst.decisionPoints.issue "b1" }
      pure view

/-- The instance once the event has a branch. -/
def firstGrown : Instance Nat Unit Unit Unit :=
  (growFirst (Run.final (step chainRun .base) chainInstance enterEvent)).2

/-- The reply to a branch that has come to a decision. -/
def branchReply (item : EmulateItem) (view : View) : Op Nat Unit Unit Unit Json := do
  let fields ← (do
    let inst ← Act.get
    match inst.bookkeeping.get? item.branchId with
    | none => Act.raise (.raised "KeyError" (Api.pyRepr item.branchId))
    | some book => do
        let fields ← Act.ofExcept
          (decisionResponseFields inst item.branchId view book.branchLog book.history)
        pure (completedReply (fields ++ originFields item)))
  pure (.obj fields)

theorem playFirst_reply : ∃ view, emulateAction chainRun
    ⟨"root", "b1", "d-root-000002", "9", 1⟩ none
      (Run.final (step chainRun .base) chainInstance enterEvent) =
    branchReply ⟨"root", "b1", "d-root-000002", "9", 1⟩ view firstGrown := by
  have hview : ∃ view, (growFirst (Run.final (step chainRun .base) chainInstance enterEvent)).1 =
      .ok view := ⟨_, rfl⟩
  rcases hview with ⟨view, hview⟩
  cases hview
  exact ⟨_, rfl⟩

/-- The first branch is played, and its record has grown. -/
theorem final_playFirst :
    Run.final (step chainRun .base) chainInstance (enterEvent ++ playFirst) = firstGrown := by
  rcases playFirst_reply with ⟨view, hreply⟩
  have hkept : ∀ item inst, (branchReply item view inst).2 = inst := by
    intro item inst
    refine Act.Keeps.after (I := (· = inst)) (.bind (Act.Keeps.get.bind fun _ => ?_) fun _ =>
      .pure _) rfl
    split
    · exact .raise _
    · exact (Act.Keeps.ofExcept _).bind fun _ => .pure _
  rw [Run.final_append]
  change (emulateAction chainRun ⟨"root", "b1", "d-root-000002", "9", 1⟩ none
    (Run.final (step chainRun .base) chainInstance enterEvent)).2 = firstGrown
  rw [hreply, hkept]

/-- The plan that the first branch was given. -/
def firstPlan : Option EventRngReplayPlan :=
  (preparedAt chainRun (Run.final (step chainRun .base) chainInstance enterEvent)
    ⟨"root", "b1", "d-root-000002", "9", 1⟩).toOption.bind fun prepared =>
      prepared.workItem.eventRngPlan

/-- The item of a branch of the branch. It inherits the plan, and the reward that was taken
    is an action of its prefix. -/
def descendantItem : EventWorkItem where
  workId := "b2-1"
  contextId := ""
  choiceType := "event_choice"
  mapSnapshot := some "map"
  roomId := some 7
  actionPrefix := [9, 5]
  targetBoundary := .eventChoice
  resolveActionId := 9
  eventRngPlan := firstPlan

theorem descendant_admits : ∃ prepared : PreparedEvent Unit Unit,
    Admits chainRun (Run.final (step chainRun .base) chainInstance (enterEvent ++ playFirst))
      prepared ∧
    prepared.workItem = descendantItem ∧ prepared.spec.item.parentBranchId = "b1" ∧
      prepared.spec.item.rngId = 1 := by
  have hprepared : (preparedAt chainRun firstGrown ⟨"b1", "b2", "d-b1-000003", "9", 1⟩).map
      (fun prepared => (prepared.workItem, prepared.spec.item.parentBranchId,
        prepared.spec.item.rngId)) = .ok (descendantItem, "b1", 1) := by decide +kernel
  rcases (Except.map_eq_ok _ _ _).mp hprepared with ⟨prepared, hok, heq⟩
  simp only [Prod.mk.injEq] at heq
  rw [final_playFirst]
  exact ⟨prepared, .single hok, heq⟩

/-- What is read of a game of the worker. -/
theorem chainWorker_answers (calls : List Operation) :
    chainWorker.Answers calls (chainBoard calls) where
  getObservation := rfl
  getLegalActions := ⟨_, rfl⟩
  getMapRooms _ := ⟨_, rfl⟩
  getEventRngState _ := ⟨_, rfl⟩
  getRoomContext := ⟨_, rfl⟩
  getRunState := ⟨_, rfl⟩

/-- The streams are set once, before the action of the first branch. -/
theorem operations_descendant {plan : EventRngReplayPlan}
    (hplan : descendantItem.eventRngPlan = some plan) :
    reachOperations descendantItem = [.loadState (some "map"), .chooseRoom (some 7),
        .setEventRngState plan.overrideState, .step 9, .step 5] ∧
      operations descendantItem = [.loadState (some "map"), .chooseRoom (some 7),
        .setEventRngState plan.overrideState, .step 9, .step 5, .step 9] := by
  have hindex : plan.applyBeforeActionIndex = 0 := by
    cases hplan
    rfl
  have hreach : reachOperations descendantItem = [.loadState (some "map"), .chooseRoom (some 7),
      .setEventRngState plan.overrideState, .step 9, .step 5] := by
    unfold reachOperations
    rw [hplan]
    simp [replayOperations, overrideOperations, hindex, descendantItem]
  refine ⟨hreach, ?_⟩
  unfold operations
  rw [hreach, hplan]
  simp [overrideOperations, hindex, descendantItem, resolveOperation]

/-- A worker with a game, and the lease of it. -/
def workerAt (calls : List Operation) : Session (List Operation) :=
  ⟨calls, { state := .run, holder := some runHolder, generation := 1 },
    some ⟨runHolder, .run, 1⟩⟩

/-- The worker starts from a game of its own. The branch is reached through the action of its
    parent and the reward after it, and ends with a reward too. -/
theorem chain_replay_small : ∃ (links : List (EventWorkItem × ChoiceStepResult))
    (plan : EventRngReplayPlan) (parent : EventWorkItem) (reported : ChoiceStepResult),
    EventChain ChainPlayed links descendantItem ∧
    links.getLast? = some (parent, reported) ∧ parent.workId = "b1-1" ∧
    operations descendantItem = chainOperations links descendantItem plan.overrideState ∧
    operations descendantItem = [.loadState (some "map"), .chooseRoom (some 7),
      .setEventRngState plan.overrideState, .step 9, .step 5, .step 9] ∧
    (∃ step, Worker.execute chainWorker descendantItem ⟨[], {}, none⟩ = (.ok
        { success := true, step := some step, message := none, faultKind := none },
        workerAt (operations descendantItem ++ [.step 5])) ∧ step.autoActionIds = [5]) ∧
    ∃ reached, Worker.play chainWorker (operations parent) ⟨[], {}, none⟩ =
        (.ok reported.autoActionIds, reached) ∧
      Worker.SameGame
        (Worker.play chainWorker (operations descendantItem) ⟨[], {}, none⟩).2
        (Worker.play chainWorker [.step 9] reached).2 := by
  rcases descendant_admits with ⟨prepared, hadmits, hitem, hparent, hrng⟩
  rcases chain_replay chainRun_playedBy chainWorker_deterministic .base
    (rfl : Constructs chainRun [] 0 {} chainInstance) (enterEvent ++ playFirst) hadmits with
    ⟨links, plan, hchain, hroot, hplan, hcalls, -, hexecutes, hlast⟩
  rw [hitem] at hchain hplan hcalls hexecutes hlast
  rcases operations_descendant hplan with ⟨hreach, hlist⟩
  have hne : links ≠ [] := fun hnil => by
    rw [hroot, hparent] at hnil
    exact absurd hnil (by decide)
  rcases hlink : links.getLast? with _ | ⟨parent, reported⟩
  · exact absurd (List.getLast?_eq_none_iff.mp hlink) hne
  rcases hlast parent reported hlink with ⟨hid, hplayed⟩
  rw [hparent, hrng] at hid
  have husable : Worker.Usable (⟨[], {}, none⟩ : Session (List Operation)) := Or.inl rfl
  rcases hplayed _ _ husable husable with ⟨reached, hreached, -, hsame, -⟩
  -- The calls up to the decision, and all of them.
  have hway : Worker.performAll chainWorker (reachOperations descendantItem) ⟨[], {}, none⟩ =
      (.ok (), workerAt (reachOperations descendantItem)) := by
    rw [hreach]
    rfl
  have hall : Worker.play chainWorker (operations descendantItem) ⟨[], {}, none⟩ =
      (.ok [5], workerAt (operations descendantItem ++ [.step 5])) := by
    rw [hlist]
    rfl
  have hevent : (chainBoard (reachOperations descendantItem)).boundary = .eventChoice := by
    rw [hreach]
    rfl
  rcases hexecutes _ _ _ _ _ _ hway (chainWorker_answers _) hevent hall
    (chainWorker_answers _) with ⟨step, hexecute, hautos, -⟩
  exact ⟨links, plan, parent, reported, hchain, hlink, hid.trans (by decide +kernel), hcalls,
    hlist, ⟨step, hexecute, hautos⟩, reached, hreached, hsame⟩

end ChainRun

end Event

end Instance

end WholeRun

end STS2RL
