import STS2RL.WholeRun.InstanceInvariants

/-!
# Invariants of a Batch

What a batch does to an instance, change by change. A batch of a combat gives its
branches their records, settles them one by one, and takes the records away again
when it fails. A branch of an event gets its record and is settled by what the
workers answer.

Some invariants speak of the branches of the batch while it is carried out, so
the invariant of a combat batch is a family: its index is the set of the branches
that have their records by now.

## Main definitions

* `CombatPlayed`: An invariant that the changes of a combat batch keep.
* `CombatBatched`: One that keeps to no reservation and to no preparation.
* `EventSettled`: One that settling a branch of an event keeps.
* `Unrecorded`: One that does not look at the records of branches.

## Theorems

* `CombatPlayed.emulateCombatPhaseActions`: The combat batch.
* `EventSettled.dispatchOne`, `keeps_dispatchPreparedBatch`: The event branches.
* `Unrecorded.steady`, `Unrecorded.step`: It is kept by every request.
-/

namespace STS2RL

namespace WholeRun

open Api (PyError Fields EmulateItem BranchIdRegistry)

variable {W Φ κ β α : Type}

namespace Instance

/-- An instance with one branch of a combat more. -/
def registeredAs (prepared : PreparedCombat κ β) (internalId : String)
    (inst : Instance W Φ κ β) : Instance W Φ κ β :=
  { inst with
    branchIds := ⟨insert prepared.item.branchId inst.branchIds.everUsed⟩
    bookkeeping := inst.bookkeeping.set prepared.item.branchId
      { parentPublicId := prepared.item.parentBranchId
        branchLog := prepared.branchLog
        history := prepared.history
        rngId := prepared.item.rngId
        internalId := some internalId } }

/-- What a result of a combat changes in a record. -/
inductive Settling : (Book κ β → Book κ β) → Prop where
  | fault : Settling fun book => { book with status := .faulted }
  | terminal : Settling fun book => { book with terminal := true }
  | outcome (outcome : String) : Settling fun book => { book with outcome := some outcome }
  | view (view : PhaseView κ β) : Settling fun book => { book with view := some (.combat view) }

/-- The ids of the items. -/
def itemIds (prepared : List (PreparedCombat κ β)) : Finset PyStr :=
  (prepared.map fun entry => entry.item.branchId).toFinset

/-- What passes the checks of a batch has an id that is not known. -/
theorem admitItems_fresh (env : RunEnv W Φ κ β) {inst : Instance W Φ κ β} {phase : Phase Φ κ β}
    (seen : List PyStr)
    (items : List EmulateItem) {admitted : List (Admitted κ β)}
    (h : admitItems env inst phase seen items = .ok admitted) :
    ∀ entry ∈ admitted, entry.item.branchId ∉ inst.branchIds.everUsed := by
  induction items generalizing seen admitted with
  | nil =>
      cases h
      intro entry hentry
      cases hentry
  | cons item rest ih =>
      unfold admitItems at h
      rcases hone : admitItem env inst phase seen item with error | one
      · rw [hone] at h
        cases h
      · rw [hone] at h
        rcases (Except.map_eq_ok _ _ _).mp h with ⟨others, hothers, rfl⟩
        intro entry hentry
        rcases List.mem_cons.mp hentry with rfl | hentry
        -- An item is admitted only if its id was never used.
        · unfold admitItem at hone
          split at hone
          · cases hone
          split at hone
          · cases hone
          rename_i hknown
          have hitem : entry.item = item := by
            repeat' split at hone
            all_goals first
              | cases hone
              | (rcases (Except.map_eq_ok _ _ _).mp hone with ⟨_, _, rfl⟩; rfl)
          rw [hitem]
          simpa [BranchIdRegistry.isKnown] using hknown
        · exact ih _ hothers entry hentry

/-- An invariant that the changes of a combat batch keep, where those in `later` have
    their records, what gets a record is `Ready`, and what is taken away again was
    `Fresh`. -/
structure CombatPlayed (maxBranches : Nat) (I : Finset PyStr → Instance W Φ κ β → Prop)
    (Fresh : PyStr → Prop) (Ready : PreparedCombat κ β → Prop) : Prop where
  framed : ∀ later, Framed (I later)
  mono : ∀ {later later' inst}, later' ⊆ later → I later inst → I later' inst
  phase : ∀ later (inst : Instance W Φ κ β) session phase phase', inst.combatPhase = some phase →
    I later inst → I later { inst with session, combatPhase := some phase' }
  reserve : ∀ (inst : Instance W Φ κ β) (branchIds : List PyStr),
    inst.combatBranchReservations.card + branchIds.length ≤ maxBranches → I ∅ inst →
      I ∅ { inst with
        combatBranchReservations := inst.combatBranchReservations ∪ branchIds.toFinset }
  unreserve : ∀ (inst : Instance W Φ κ β) (branchIds : Finset PyStr), I ∅ inst →
    I ∅ { inst with combatBranchReservations := inst.combatBranchReservations \ branchIds }
  register : ∀ later (prepared : PreparedCombat κ β) internalId (inst : Instance W Φ κ β),
    Ready prepared → prepared.item.branchId ∉ inst.branchIds.everUsed → I later inst →
      I (insert prepared.item.branchId later) (registeredAs prepared internalId inst)
  unregister : ∀ inst branchId, Fresh branchId → I ∅ inst → I ∅ (unregister branchId inst)
  issue : ∀ later branchId (inst : Instance W Φ κ β), branchId ∈ later → I later inst →
    I later { inst with decisionPoints := inst.decisionPoints.issue branchId }
  settle : ∀ later branchId change inst, branchId ∈ later → Settling change → I later inst →
    I later (modifyBook branchId change inst)

namespace CombatPlayed

variable {maxBranches : Nat} {I : Finset PyStr → Instance W Φ κ β → Prop} {Fresh : PyStr → Prop}
  {Ready : PreparedCombat κ β → Prop} (hI : CombatPlayed maxBranches I Fresh Ready)
  (env : RunEnv W Φ κ β) {later : Finset PyStr}
include hI

theorem onPhase (call : Act PyError (Session W × Phase Φ κ β) α) :
    Act.Keeps (I later) (onPhase call) :=
  keeps_onPhase (hI.phase later) call

/-- A branch that gets its record has it from then on. -/
theorem registerOne {prepared : PreparedCombat κ β} (hready : Ready prepared)
    (internalId : String) :
    Act.Triple (I later) (registerOne prepared internalId : Op W Φ κ β Unit)
      (fun _ => I (insert prepared.item.branchId later)) fun _ => I later := by
  intro inst h
  unfold Instance.registerOne
  rw [Act.get_bind, Act.bind_apply, Act.ofExcept_apply]
  rcases hregister : inst.branchIds.register prepared.item.branchId with error | registered
  · exact h
  · rcases BranchIdRegistry.register_eq_ok _ hregister with ⟨hnew, rfl⟩
    exact hI.register later prepared internalId inst hready hnew h

/-- The branches of a batch are registered one after the other. -/
theorem registerAll {prepared : List (PreparedCombat κ β)}
    (hready : ∀ entry ∈ prepared, Ready entry) (internalIds : List String) :
    Act.Triple (I later) (registerAll prepared internalIds : Op W Φ κ β Unit)
      (fun _ => I (later ∪ itemIds prepared)) fun _ => I ∅ := by
  have hraise : ∀ error : PyError, Act.Triple (I later)
      (Act.raise error : Op W Φ κ β Unit) (fun _ => I (later ∪ itemIds prepared)) fun _ => I ∅ :=
    fun _ => .raise fun _ h => hI.mono (Finset.empty_subset _) h
  induction prepared generalizing internalIds later with
  | nil =>
      cases internalIds with
      | nil => exact .pure fun _ h => hI.mono (by simp [itemIds]) h
      | cons _ _ => exact hraise _
  | cons entry rest ih =>
      cases internalIds with
      | nil => exact hraise _
      | cons internalId internalIds =>
          refine .bind (Q := fun _ => I (insert entry.item.branchId later))
            ((hI.registerOne (hready entry List.mem_cons_self) internalId).conseq (fun _ h => h)
              (fun _ _ h => h) fun _ _ h => hI.mono (Finset.empty_subset _) h) fun _ => ?_
          refine (ih (fun other hother => hready other (List.mem_cons_of_mem _ hother)) internalIds
            fun _ => .raise fun _ h => hI.mono (Finset.empty_subset _) h).conseq (fun _ h => h)
            (fun _ _ h => hI.mono ?_ h) fun _ _ h => h
          intro branchId hbranch
          simp only [itemIds, List.map_cons, List.toFinset_cons, Finset.mem_union,
            Finset.mem_insert] at hbranch ⊢
          tauto

/-- A result is settled on its own record. -/
theorem settleResult (results : List (String × Combat.BranchResult κ β))
    {prepared : PreparedCombat κ β} (hprepared : prepared.item.branchId ∈ later)
    (internalId : String) :
    Act.Keeps (I later) (settleResult env results prepared internalId) := by
  have hbook : ∀ {change : Book κ β → Book κ β}, Settling change → Act.Keeps (I later)
      (Act.modify (modifyBook prepared.item.branchId change) : Op W Φ κ β Unit) :=
    fun hchange => .modify fun inst h => hI.settle later _ _ inst hprepared hchange h
  have hissue : Act.Keeps (I later) (Act.modify fun inst => { inst with
      decisionPoints := inst.decisionPoints.issue prepared.item.branchId } : Op W Φ κ β Unit) :=
    .modify fun inst h => hI.issue later _ inst hprepared h
  unfold Instance.settleResult
  split
  · exact .raise _
  · refine .ite (fun _ => (hbook .fault).bind fun _ => .pure _) fun _ =>
      (Act.Keeps.ofExcept _).bind fun _ => hissue.bind fun _ => ?_
    split
    · exact (hbook .terminal).bind fun _ => (Act.Keeps.ofExcept _).bind fun _ =>
        (hbook (.outcome _)).bind fun _ => Act.Keeps.get.bind fun _ =>
        (Act.Keeps.ofExcept _).bind fun _ => .pure _
    · exact (hbook (.view _)).bind fun _ =>
        ((hI.framed later).phaseDecisionResponseFields env _ _).bind fun _ => .pure _

/-- So are all results. -/
theorem settleAll (results : List (String × Combat.BranchResult κ β))
    (prepared : List (PreparedCombat κ β)) (hprepared : itemIds prepared ⊆ later)
    (internalIds : List String) :
    Act.Keeps (I later) (settleAll env results prepared internalIds) := by
  induction prepared generalizing internalIds with
  | nil => cases internalIds <;> first | exact .pure _ | exact .raise _
  | cons entry rest ih =>
      cases internalIds with
      | nil => exact .raise _
      | cons internalId internalIds =>
          have hentry : entry.item.branchId ∈ later := hprepared (by simp [itemIds])
          have hrest : itemIds rest ⊆ later := by
            intro branchId hbranch
            refine hprepared ?_
            simp only [itemIds, List.map_cons, List.toFinset_cons, Finset.mem_insert] at hbranch ⊢
            exact .inr hbranch
          exact (hI.settleResult env results hentry internalId).bind fun _ =>
            (ih hrest internalIds).bind fun _ => .pure _

theorem unwind {branchIds : List PyStr} (hfresh : ∀ branchId ∈ branchIds, Fresh branchId)
    (marker : Nat) (internalIds : List String) :
    Act.Keeps (I ∅) (unwind env branchIds marker internalIds) := by
  refine (Act.Keeps.onlyIf fun _ => (hI.onPhase _).ensuring (hI.onPhase _)).bind
    fun _ => Act.Keeps.get.bind fun inst => .bind (.modify ?_) fun _ =>
    (hI.onPhase _).bind fun _ => .modify fun inst h => hI.unreserve inst _ h
  exact fun s h => List.foldlRecOn _ _ h fun s h branchId hbranch =>
    hI.unregister s branchId (hfresh branchId (List.mem_of_mem_filter hbranch)) h

/-- The work of an item, where nothing has to be ready. -/
theorem prepareItem (entry : Admitted κ β) : Act.Keeps (I ∅) (prepareItem env entry) :=
  (hI.onPhase _).bind fun _ => Act.Keeps.get.bind fun _ => .pure _

/-- A batch is prepared, submitted, registered and settled, or taken back. -/
theorem executeBatch (simulationOptions : Option Fields) (phase : Phase Φ κ β)
    {admitted : List (Admitted κ β)} (hfresh : ∀ entry ∈ admitted, Fresh entry.item.branchId)
    (hready : ∀ entry ∈ admitted, Act.Triple (I ∅) (Instance.prepareItem env entry)
      (fun prepared inst => I ∅ inst ∧ Ready prepared) fun _ => I ∅) :
    Act.Triple
      (fun inst => I ∅ inst ∧ inst.combatBranchReservations.card + admitted.length ≤ maxBranches)
      (executeBatch env simulationOptions phase admitted) (fun _ => I ∅) fun _ => I ∅ := by
  have hids : ∀ branchId ∈ admitted.map fun entry => entry.item.branchId, Fresh branchId := by
    intro branchId hbranch
    rcases List.mem_map.mp hbranch with ⟨entry, hentry, rfl⟩
    exact hfresh entry hentry
  have hsubmit : Act.Triple (I ∅) (submitBatch env admitted)
      (fun batch inst => I ∅ inst ∧ ∀ prepared ∈ batch.1, Ready prepared) fun _ => I ∅ := by
    unfold Instance.submitBatch
    refine .bind (Act.Triple.collect_of_mem admitted hready) fun prepared => ?_
    have hboth : Act.Keeps (fun inst => I ∅ inst ∧ ∀ entry ∈ prepared, Ready entry)
        (Instance.onPhase (Phase.onBranches (env.phases.branches.submitMany
          (prepared.map fun entry => (entry.workItem, entry.parentInternalId))))) :=
      keeps_onPhase (fun inst session phase phase' hphase h =>
        ⟨hI.phase ∅ inst session phase phase' hphase h.1, h.2⟩) _
    exact .bind (hboth.conseq (fun _ h => h) (fun _ _ h => h) fun _ _ h => h.1)
      fun _ => .pure fun _ h => h
  refine .bind (Q := fun _ => I ∅) (.modify fun inst h => hI.reserve inst _ ?_ h.1) fun _ =>
    .bind (hsubmit.onError fun _ => hI.unwind env hids _ _) fun (prepared, internalIds) => ?_
  · rw [List.length_map]
    exact h.2
  · rintro inst ⟨h, hprepared⟩
    -- Once the branches have their records, these may be settled.
    refine Act.Triple.onError (E := fun _ => I ∅) ?_ (fun _ => hI.unwind env hids _ _) inst h
    refine Act.Triple.bind (hI.registerAll hprepared internalIds) fun _ => ?_
    refine Act.Triple.conseq (((Act.Keeps.ofExcept _).bind fun _ => (hI.onPhase _).bind fun _ =>
      (hI.settleAll env _ prepared Finset.subset_union_right internalIds).bind fun _ =>
        .pure _) : Act.Keeps (I (∅ ∪ itemIds prepared)) _)
      (fun _ h => h) (fun _ _ h => hI.mono (Finset.empty_subset _) h)
      fun _ _ h => hI.mono (Finset.empty_subset _) h

/-- A combat batch, where what is not used is fresh and what is admitted gets ready. -/
theorem emulateCombatPhaseActions (hmax : maxBranches = env.maxBranches)
    (items : List EmulateItem) (simulationOptions : Option Fields) {used : Instance W Φ κ β}
    (hfresh : ∀ branchId, branchId ∉ used.branchIds.everUsed → Fresh branchId)
    (hready : ∀ phase admitted, admitItems env used phase [] items = .ok admitted →
      ∀ entry ∈ admitted, Act.Triple (I ∅) (Instance.prepareItem env entry)
        (fun prepared inst => I ∅ inst ∧ Ready prepared) fun _ => I ∅)
    (h : I ∅ used) : Act.Ends (fun _ => I ∅) (fun _ => I ∅)
      (emulateCombatPhaseActions env items simulationOptions used) := by
  -- The checks before the batch change nothing.
  let J : Instance W Φ κ β → Prop := fun inst => inst = used
  have hchecks : ∀ {γ : Type} {m : Op W Φ κ β γ}, Act.Keeps J m →
      Act.Triple J m (fun _ => J) fun _ => I ∅ :=
    fun hm => Act.Triple.conseq hm (fun _ h => h) (fun _ _ h => h) fun _ _ heq => heq ▸ h
  refine Act.Triple.bind (P := J) (Q := fun _ => J) (R := fun _ => I ∅)
    (hchecks keeps_ensureMutable) (fun _ => .bind (hchecks (.ofExcept _)) fun _ =>
    .bind (hchecks (keeps_checkBatchSize env items)) fun _ => ?_) used rfl
  intro inst hinst
  rw [show inst = used from hinst, Act.get_bind]
  -- They passed: there is a phase, the items are admitted and there is room.
  cases used.combatPhase with
  | none => exact h
  | some phase =>
      dsimp only
      rw [Act.bind_apply, Act.ofExcept_apply]
      rcases hpassed : admitItems env used phase [] items with error | admitted
      · exact h
      · refine Act.Triple.bind (P := fun s => s = used) (Q := fun _ s => I ∅ s ∧
            s.combatBranchReservations.card + admitted.length ≤ maxBranches)
          (.raiseIf (fun s hs hroom => ?_) fun s hs _ => hs ▸ h)
          (fun _ => hI.executeBatch env _ phase ?_ (hready phase admitted hpassed)) used rfl
        · rw [hs]
          exact ⟨h, by omega⟩
        · exact fun entry hentry => hfresh _ (admitItems_fresh env [] items hpassed entry hentry)

end CombatPlayed

/-- An invariant that the changes of a combat batch keep, whatever gets a record and
    whatever is reserved. -/
structure CombatBatched (I : Finset PyStr → Instance W Φ κ β → Prop) (Fresh : PyStr → Prop) :
    Prop where
  framed : ∀ later, Framed (I later)
  mono : ∀ {later later' inst}, later' ⊆ later → I later inst → I later' inst
  phase : ∀ later (inst : Instance W Φ κ β) session phase phase', inst.combatPhase = some phase →
    I later inst → I later { inst with session, combatPhase := some phase' }
  reserve : ∀ later inst combatBranchReservations, I later inst →
    I later { inst with combatBranchReservations }
  register : ∀ later (prepared : PreparedCombat κ β) internalId (inst : Instance W Φ κ β),
    prepared.item.branchId ∉ inst.branchIds.everUsed → I later inst →
      I (insert prepared.item.branchId later) (registeredAs prepared internalId inst)
  unregister : ∀ inst branchId, Fresh branchId → I ∅ inst → I ∅ (unregister branchId inst)
  issue : ∀ later branchId (inst : Instance W Φ κ β), branchId ∈ later → I later inst →
    I later { inst with decisionPoints := inst.decisionPoints.issue branchId }
  settle : ∀ later branchId change inst, branchId ∈ later → Settling change → I later inst →
    I later (modifyBook branchId change inst)

namespace CombatBatched

variable {I : Finset PyStr → Instance W Φ κ β → Prop} {Fresh : PyStr → Prop}
  (hI : CombatBatched I Fresh) (env : RunEnv W Φ κ β)
include hI

theorem played (maxBranches : Nat) : CombatPlayed maxBranches I Fresh fun _ => True where
  framed := hI.framed
  mono := hI.mono
  phase := hI.phase
  reserve inst _ _ h := hI.reserve ∅ inst _ h
  unreserve inst _ h := hI.reserve ∅ inst _ h
  register later prepared internalId inst _ := hI.register later prepared internalId inst
  unregister := hI.unregister
  issue := hI.issue
  settle := hI.settle

/-- A combat batch, where what is not used is fresh. -/
theorem emulateCombatPhaseActions (items : List EmulateItem) (simulationOptions : Option Fields)
    {used : Finset PyStr} (hfresh : ∀ branchId, branchId ∉ used → Fresh branchId) :
    Act.Triple (fun inst => inst.branchIds.everUsed = used ∧ I ∅ inst)
      (emulateCombatPhaseActions env items simulationOptions) (fun _ => I ∅) fun _ => I ∅ := by
  rintro inst ⟨rfl, h⟩
  have hplayed := hI.played env.maxBranches
  exact hplayed.emulateCombatPhaseActions env rfl items simulationOptions hfresh
    (fun _ _ _ entry _ => (hplayed.prepareItem env entry).conseq (fun _ h => h)
      (fun _ _ h => ⟨h, trivial⟩) fun _ _ h => h) h

end CombatBatched

/-- An invariant that settling a branch of an event keeps. -/
structure EventSettled (I : Instance W Φ κ β → Prop) (branchId : PyStr) : Prop where
  fault : ∀ inst, I inst → I (faultEventBranch branchId inst)
  terminal : ∀ inst outcome, I inst → I (modifyBook branchId (fun book =>
    { book with outcome := some outcome, terminal := true }) inst)
  issue : ∀ inst : Instance W Φ κ β, I inst →
    I { inst with decisionPoints := inst.decisionPoints.issue branchId }
  view : ∀ inst view, I inst → I (modifyBook branchId (fun book =>
    { book with view := some (.run view) }) inst)

/-!
### Events

What settling a result at an event changes is its record.
-/

section Events

variable {I : Instance W Φ κ β → Prop} (env : RunEnv W Φ κ β) (hframed : Framed I)
include hframed

/-- A result at an event is put on its record. -/
theorem EventSettled.finalizeEventBranch {spec : BranchSpec}
    (hI : EventSettled I spec.item.branchId) (result : ChoiceResult) :
    Act.Keeps I (finalizeEventBranch spec result : Op W Φ κ β Fields) := by
  have hfault : Act.Keeps I
      (Act.modify (faultEventBranch spec.item.branchId) : Op W Φ κ β Unit) := .modify hI.fault
  refine .ite (fun _ => hfault.bind fun _ => .pure _) fun _ => ?_
  split
  · exact hfault.bind fun _ => .raise _
  · refine .bind (.modify fun inst h => hframed.observe inst _ _ h) fun _ =>
      .ite (fun _ => ?_) fun _ => ?_
    · unfold finalizeRunTerminal
      split
      · exact hfault.bind fun _ => .raise _
      · exact .bind (.modify fun inst h => hI.terminal inst _ h) fun _ =>
          .bind (.modify hI.issue) fun _ => Act.Keeps.get.bind fun _ =>
          (Act.Keeps.ofExcept _).bind fun _ => .pure _
    · refine .bind (.modify fun inst h => hI.view inst _ h) fun _ => .bind (.modify hI.issue)
        fun _ => Act.Keeps.get.bind fun inst => ?_
      split
      · exact .raise _
      · exact (Act.Keeps.ofExcept _).bind fun _ => .pure _

theorem EventSettled.dispatchOne {prepared : PreparedEvent κ β}
    (hI : EventSettled I prepared.spec.item.branchId) : Act.Keeps I (dispatchOne env prepared) := by
  refine .bind (((hframed.onSession _).bind fun _ => Act.Keeps.pure _).catching fun error =>
    .bind (.modify hI.fault) fun _ => ?_) fun results => ?_
  · split
    · exact .pure _
    · exact .raise _
  · split
    · exact .pure _
    · exact .raise _
    · exact (hI.finalizeEventBranch hframed _).bind fun _ => .pure _

/-- A batch that was dispatched is settled, or given up. -/
theorem keeps_dispatchPreparedBatch {prepared : List (PreparedEvent κ β)}
    (hrelease : ∀ branchId, Act.Keeps I (releaseBranch env branchId))
    (hI : ∀ entry ∈ prepared, EventSettled I entry.spec.item.branchId) :
    Act.Keeps I (Beam.dispatchPreparedBatch env prepared) := by
  have hrelease : Act.Keeps I (Beam.bestEffortReleasePrepared env prepared) :=
    .ite (fun _ => .pure _) fun _ =>
      ((keeps_releaseBranches hrelease _).bind fun _ => Act.Keeps.pure _).catching fun _ => .pure _
  refine .bind (((hframed.onSession _).bind fun _ => Act.Keeps.pure _).catching
    fun _ => .pure _) fun outcome => ?_
  split
  · split
    · refine .bind (.modify fun inst h => ?_) fun _ => .pure _
      exact List.foldlRecOn _ _ h fun inst h entry hentry => (hI entry hentry).fault inst h
    · exact hrelease.bind fun _ => .raise _
  · rename_i results
    refine .ite (fun _ => hrelease.bind fun _ => .raise _) fun _ => .bind (.onError ?_ fun _ =>
      hrelease) fun _ => .pure _
    refine .collect_of_mem _ fun entry hentry => ?_
    exact ((hI entry.1 (List.of_mem_zip hentry).1).finalizeEventBranch hframed _).bind
      fun _ => .pure _

end Events

/-- An invariant that does not look at the records of branches. -/
structure Unrecorded (I : Instance W Φ κ β → Prop) : Prop where
  session : ∀ inst session, I inst → I { inst with session }
  rootHistory : ∀ inst roomContext, I inst → I (observeRoot roomContext inst)
  position : ∀ inst mapSnapshot roomId actionPrefix, I inst →
    I { inst with mapSnapshot, roomId, actionPrefix }
  rootBranchLog : ∀ (inst : Instance W Φ κ β) decisionPointId actionId, I inst →
    I (recorded decisionPointId actionId inst)
  completion : ∀ inst lastCombatCompletion, I inst → I { inst with lastCombatCompletion }
  nextHolder : ∀ inst nextHolder, I inst → I { inst with nextHolder }
  closed : ∀ inst closed, I inst → I { inst with closed }
  records : ∀ inst branchIds decisionPoints eventRngRegistry bookkeeping combatBranchReservations,
    I inst → I { inst with
      branchIds, decisionPoints, eventRngRegistry, bookkeeping, combatBranchReservations }
  phase : ∀ (inst : Instance W Φ κ β) session phase phase', inst.combatPhase = some phase →
    I inst → I { inst with session, combatPhase := some phase' }
  install : ∀ (inst : Instance W Φ κ β) phase, inst.faulted = false →
    I inst → I { inst with combatPhase := some phase }
  leave : ∀ inst, I inst → I { inst with combatPhase := none }

namespace Unrecorded

variable {I : Instance W Φ κ β → Prop} (hI : Unrecorded I) (env : RunEnv W Φ κ β)
include hI

theorem modifyBook (inst : Instance W Φ κ β) (branchId : PyStr) (change : Book κ β → Book κ β)
    (h : I inst) : I (modifyBook branchId change inst) := by
  unfold Instance.modifyBook
  split
  · exact h
  · exact hI.records inst _ _ _ _ _ h

theorem releaseEventRngReference (inst : Instance W Φ κ β) (branchId : PyStr) (h : I inst) :
    I (releaseEventRngReference branchId inst) := by
  unfold Instance.releaseEventRngReference
  split
  · exact h
  · exact hI.modifyBook _ _ _ (hI.records inst _ _ _ _ _ h)

/-- What leaves the record of the rooms leaves all that looks at nothing else. -/
theorem steady : Steady I where
  session := hI.session
  rootHistory := hI.rootHistory
  position := hI.position
  rootBranchLog := hI.rootBranchLog
  completion := hI.completion
  nextHolder := hI.nextHolder
  closed := hI.closed
  issue inst h := hI.records inst _ _ _ _ _ h
  restore inst _ h := hI.records inst _ _ _ _ _ h
  book inst branchId change _ h := hI.modifyBook inst branchId change h
  reference inst branchId h := hI.releaseEventRngReference inst branchId h
  retire inst h := hI.records inst _ _ _ _ _ h
  reservation inst _ h := hI.records inst _ _ _ _ _ h
  registry inst h := hI.records inst _ _ _ _ _ h
  phase := hI.phase
  install := hI.install
  leave := hI.leave

theorem combatBatched : CombatBatched (fun _ => I) fun _ => True where
  framed _ := hI.steady.framed
  mono _ h := h
  phase _ := hI.phase
  reserve _ inst _ h := hI.records inst _ _ _ _ _ h
  register _ _ _ inst _ h := hI.records inst _ _ _ _ _ h
  unregister inst _ _ h := hI.records inst _ _ _ _ _ h
  issue _ _ inst _ h := hI.records inst _ _ _ _ _ h
  settle _ _ _ inst _ _ h := hI.modifyBook inst _ _ h

theorem emulateCombatPhaseActions (items : List EmulateItem) (simulationOptions : Option Fields) :
    Act.Keeps I (emulateCombatPhaseActions env items simulationOptions) :=
  fun inst h => hI.combatBatched.emulateCombatPhaseActions env items simulationOptions
    (fun _ _ => trivial) inst ⟨rfl, h⟩

/-!
### Commits at an event

A commit changes the id, the hypothesis and the record.
-/

section Event

/-- One commit. -/
theorem commitPreparedBranch (prepared : PreparedEvent κ β) :
    Act.Keeps I (commitPreparedBranch prepared : Op W Φ κ β Unit) := by
  have hhypothesis : ∀ plan,
      Act.Keeps I (commitHypothesis prepared.spec.item.branchId plan : Op W Φ κ β Unit) := by
    intro plan
    cases plan with
    | none => exact .pure _
    | some plan =>
        exact Act.Keeps.get.bind fun _ => (Act.Keeps.ofExcept _).bind fun _ =>
          .modify fun inst h => hI.records inst _ _ _ _ _ h
  exact Act.Keeps.get.bind fun _ => (Act.Keeps.ofExcept _).bind fun _ =>
    .bind (.modify fun inst h => hI.records inst _ _ _ _ _ h) fun _ =>
    .bind ((hhypothesis _).onError fun _ => .modify fun inst h => hI.records inst _ _ _ _ _ h)
    fun _ => .modify fun inst h => hI.records inst _ _ _ _ _ h

theorem commitPrefix (prepared : List (PreparedEvent κ β)) :
    Act.Keeps I (commitPrefix prepared : Op W Φ κ β _) := by
  induction prepared with
  | nil => exact .pure _
  | cons entry rest ih =>
      refine .bind (((hI.commitPreparedBranch entry).bind fun _ => Act.Keeps.pure _).catching
        fun _ => .pure _) fun failure => ?_
      cases failure with
      | some error => exact .pure _
      | none => exact ih.bind fun _ => .pure _

theorem commitBatch (prepared : List (PreparedEvent κ β)) :
    Act.Keeps I (commitBatch prepared : Op W Φ κ β Unit) := by
  refine Act.Keeps.get.bind fun inst => (hI.commitPrefix prepared).bind fun (_, failure) => ?_
  cases failure with
  | none => exact .pure _
  | some error =>
      refine .bind (.modify ?_) fun _ =>
        .bind (.zoom _ fun inst _ h => hI.records inst _ _ _ _ _ h) fun _ => .raise _
      exact fun inst h => List.foldlRecOn _ _ h fun inst h _ _ => hI.records inst _ _ _ _ _ h

theorem faultEventBranch (branchId : PyStr) (inst : Instance W Φ κ β) (h : I inst) :
    I (faultEventBranch branchId inst) :=
  hI.releaseEventRngReference _ _ (hI.modifyBook _ _ _ h)

theorem eventSettled (branchId : PyStr) : EventSettled I branchId where
  fault := hI.faultEventBranch branchId
  terminal inst _ h := hI.modifyBook inst _ _ h
  issue inst h := hI.records inst _ _ _ _ _ h
  view inst _ h := hI.modifyBook inst _ _ h

theorem emulateEventAction (item : EmulateItem) (simulationOptions : Option Fields) :
    Act.Keeps I (emulateEventAction env item simulationOptions) :=
  keeps_ensureMutable.bind fun _ => (Act.Keeps.ofExcept _).bind fun _ => Act.Keeps.get.bind
    fun _ => (Act.Keeps.raiseIf _ _).bind fun _ => (hI.steady.framed.viewFor env _).bind fun _ =>
    Act.Keeps.get.bind fun _ => (Act.Keeps.ofExcept _).bind fun _ =>
    (Act.Keeps.raiseIf _ _).bind fun _ => (Act.Keeps.ofExcept _).bind fun _ =>
    (hI.commitPreparedBranch _).bind fun _ =>
    (hI.eventSettled _).dispatchOne env hI.steady.framed

theorem beamEmulateEventBatch (items : List EmulateItem) :
    Act.Keeps I (Beam.emulateEventBatch env items) :=
  (hI.steady.framed.parentViews env _ _).bind fun _ => Act.Keeps.get.bind fun _ =>
    (Act.Keeps.ofExcept _).bind fun _ => (hI.commitBatch _).bind fun _ =>
    keeps_dispatchPreparedBatch env hI.steady.framed (hI.steady.releaseBranch env)
      fun _ _ => hI.eventSettled _

end Event

/-- Every request keeps the invariant. -/
theorem step (hpoison : ∀ phase, Act.Keeps I (poisonCombatTransaction env phase))
    (facade : Facade) (inst : Instance W Φ κ β) (request : Request) (h : I inst) :
    I (Instance.step env facade inst request).1 :=
  hI.steady.step env hpoison (hI.emulateCombatPhaseActions env) (hI.emulateEventAction env)
    (hI.beamEmulateEventBatch env) facade inst request h

end Unrecorded

end Instance

end WholeRun

end STS2RL
