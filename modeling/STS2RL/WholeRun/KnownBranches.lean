import STS2RL.WholeRun.BatchInvariants

/-!
# The Branches that are Known

The records of an instance speak of known branches only: a branch with a record,
with a current decision point or with a hypothesis of an event has a branch id
that was used.

The hypotheses are special. A batch of a combat that fails takes its branch ids
back, and so they must not be held by a hypothesis: those belong to ids that were
used before the batch. `KnownSince` keeps that set of ids apart.

## Main definitions

* `KnownSince`, `Known`: The records speak of known branches.

## Theorems

* `known_of_constructs`, `known_step`: So it is in every run.
-/

namespace STS2RL

namespace WholeRun

open Api (PyError Fields EmulateItem RngKey BranchIdRegistry DecisionPointRegistry)

variable {W Φ κ β α : Type}

namespace Instance

/-- The records speak of known branches, and the hypotheses of those in `used`.
    Those in `later` are known by now. -/
structure KnownSince (used later : Finset PyStr) (inst : Instance W Φ κ β) : Prop where
  root : root ∈ used
  known : used ⊆ inst.branchIds.everUsed
  registered : later ⊆ inst.branchIds.everUsed
  books : ∀ branchId book, inst.bookkeeping.get? branchId = some book →
    branchId ∈ inst.branchIds.everUsed
  points : ∀ branchId point, inst.decisionPoints.current? branchId = some point →
    branchId ∈ inst.branchIds.everUsed
  registry : inst.eventRngRegistry.Owned used

/-- The records speak of known branches. -/
def Known (inst : Instance W Φ κ β) : Prop := KnownSince inst.branchIds.everUsed ∅ inst

theorem KnownSince.toKnown {used later : Finset PyStr} {inst : Instance W Φ κ β}
    (h : KnownSince used later inst) : Known inst where
  root := h.known h.root
  known := subset_rfl
  registered := Finset.empty_subset _
  books := h.books
  points := h.points
  registry := h.registry.mono h.known

section Points

variable {points : DecisionPointRegistry} {used : Finset PyStr}

theorem points_issue (h : ∀ branchId point, points.current? branchId = some point → branchId ∈ used)
    {branchId : PyStr} (hbranch : branchId ∈ used) :
    ∀ other point, (points.issue branchId).current? other = some point → other ∈ used := by
  intro other point hpoint
  unfold DecisionPointRegistry.current? DecisionPointRegistry.issue at hpoint
  rw [Dict.get?_set] at hpoint
  by_cases hother : other = branchId
  · exact hother ▸ hbranch
  · rw [if_neg hother] at hpoint
    exact h other point hpoint

theorem current?_clear (points : DecisionPointRegistry) (branchId other : PyStr) :
    (points.clear branchId).current? other =
      if other = branchId then none else points.current? other := by
  unfold DecisionPointRegistry.current? DecisionPointRegistry.clear
  by_cases hother : other = branchId
  · rw [if_pos hother, hother]
    exact Dict.get?_erase_self _ _
  · rw [if_neg hother]
    exact Dict.get?_erase_ne _ hother

theorem points_clear (h : ∀ branchId point, points.current? branchId = some point → branchId ∈ used)
    (branchId : PyStr) :
    ∀ other point, (points.clear branchId).current? other = some point → other ∈ used := by
  intro other point hpoint
  rw [current?_clear] at hpoint
  by_cases hother : other = branchId
  · rw [if_pos hother] at hpoint
    cases hpoint
  · rw [if_neg hother] at hpoint
    exact h other point hpoint

theorem points_restore (h : ∀ branchId point, points.current? branchId = some point →
    branchId ∈ used)
    {branchId : PyStr} (hbranch : branchId ∈ used) (prior : Option PyStr) :
    ∀ other point, (points.restoreCurrent branchId prior).current? other = some point →
      other ∈ used := by
  cases prior with
  | none => exact points_clear h branchId
  | some prior =>
      intro other point hpoint
      unfold DecisionPointRegistry.current? DecisionPointRegistry.restoreCurrent at hpoint
      rw [Dict.get?_set] at hpoint
      by_cases hother : other = branchId
      · exact hother ▸ hbranch
      · rw [if_neg hother] at hpoint
        exact h other point hpoint

end Points

section Books

variable {used later : Finset PyStr} {inst : Instance W Φ κ β}

theorem get?_modifyBook (branchId other : PyStr) (change : Book κ β → Book κ β)
    (inst : Instance W Φ κ β) :
    (modifyBook branchId change inst).bookkeeping.get? other =
      if other = branchId then (inst.bookkeeping.get? other).map change
      else inst.bookkeeping.get? other := by
  unfold modifyBook
  by_cases hother : other = branchId
  · rw [if_pos hother, hother]
    cases hbook : inst.bookkeeping.get? branchId with
    | none => exact hbook
    | some book => exact Dict.get?_set_self _ _ _
  · rw [if_neg hother]
    cases hbook : inst.bookkeeping.get? branchId with
    | none => rfl
    | some book => exact Dict.get?_set_ne _ _ hother

/-- A change of a record changes nothing but records. -/
theorem modifyBook_eq (branchId : PyStr) (change : Book κ β → Book κ β) (inst : Instance W Φ κ β) :
    ∃ bookkeeping, modifyBook branchId change inst = { inst with bookkeeping } := by
  unfold modifyBook
  split
  · exact ⟨inst.bookkeeping, rfl⟩
  · exact ⟨_, rfl⟩

theorem KnownSince.modifyBook (h : KnownSince used later inst) (branchId : PyStr)
    (change : Book κ β → Book κ β) : KnownSince used later (modifyBook branchId change inst) := by
  have hget := fun other => get?_modifyBook branchId other change inst
  rcases modifyBook_eq branchId change inst with ⟨bookkeeping, heq⟩
  rw [heq] at hget ⊢
  refine ⟨h.root, h.known, h.registered, fun other book hbook => ?_, h.points, h.registry⟩
  rw [hget other] at hbook
  by_cases hother : other = branchId
  · rw [if_pos hother] at hbook
    rcases Option.map_eq_some_iff.mp hbook with ⟨book', hbook', -⟩
    exact h.books other book' hbook'
  · rw [if_neg hother] at hbook
    exact h.books other book hbook

theorem KnownSince.releaseEventRngReference (h : KnownSince used later inst) (branchId : PyStr) :
    KnownSince used later (releaseEventRngReference branchId inst) := by
  unfold Instance.releaseEventRngReference
  split
  · exact h
  · rename_i plan _
    have hreleased : KnownSince used later { inst with
        eventRngRegistry := inst.eventRngRegistry.releaseBranch plan.hypothesisKey branchId } :=
      ⟨h.root, h.known, h.registered, h.books, h.points, h.registry.releaseBranch _ _⟩
    exact hreleased.modifyBook _ _

theorem KnownSince.faultEventBranch (h : KnownSince used later inst) (branchId : PyStr) :
    KnownSince used later (faultEventBranch branchId inst) :=
  (h.modifyBook _ _).releaseEventRngReference _

end Books

/-- The changes of the operations on the root and on the records. -/
theorem steady_knownSince (used later : Finset PyStr) :
    Steady (KnownSince used later : Instance W Φ κ β → Prop) where
  session _ _ h := ⟨h.root, h.known, h.registered, h.books, h.points, h.registry⟩
  rootHistory _ _ h := ⟨h.root, h.known, h.registered, h.books, h.points, h.registry⟩
  position _ _ _ _ h := ⟨h.root, h.known, h.registered, h.books, h.points, h.registry⟩
  rootBranchLog _ _ _ h := ⟨h.root, h.known, h.registered, h.books, h.points, h.registry⟩
  completion _ _ h := ⟨h.root, h.known, h.registered, h.books, h.points, h.registry⟩
  nextHolder _ _ h := ⟨h.root, h.known, h.registered, h.books, h.points, h.registry⟩
  closed _ _ h := ⟨h.root, h.known, h.registered, h.books, h.points, h.registry⟩
  issue _ h := ⟨h.root, h.known, h.registered, h.books,
    points_issue h.points (h.known h.root), h.registry⟩
  restore _ prior h :=
    ⟨h.root, h.known, h.registered, h.books,
      points_restore h.points (h.known h.root) prior, h.registry⟩
  book _ branchId change _ h := h.modifyBook branchId change
  reference _ branchId h := h.releaseEventRngReference branchId
  retire inst h := by
    refine ⟨h.root, h.known, h.registered, fun branchId book hbook => ?_, ?_, h.registry.releaseAll⟩
    · unfold retireBooks at hbook
      rw [Dict.get?_mapVals] at hbook
      rcases Option.map_eq_some_iff.mp hbook with ⟨book', hbook', -⟩
      exact h.books branchId book' hbook'
    · refine List.foldlRecOn (motive := fun points : DecisionPointRegistry =>
        ∀ branchId point, points.current? branchId = some point →
          branchId ∈ inst.branchIds.everUsed) _ _ h.points fun _ hpoints branchId _ =>
        points_clear hpoints branchId
  reservation _ _ h := ⟨h.root, h.known, h.registered, h.books, h.points, h.registry⟩
  registry _ h := ⟨h.root, h.known, h.registered, h.books, h.points, h.registry.releaseAll⟩
  phase _ _ _ _ _ h := ⟨h.root, h.known, h.registered, h.books, h.points, h.registry⟩
  install _ _ _ h := ⟨h.root, h.known, h.registered, h.books, h.points, h.registry⟩
  leave _ h := ⟨h.root, h.known, h.registered, h.books, h.points, h.registry⟩

theorem steady_known : Steady (Known : Instance W Φ κ β → Prop) :=
  .of_forall (fun used => steady_knownSince used ∅) fun _ h => ⟨_, h, fun _ h => h.toKnown⟩

theorem poison_known (env : RunEnv W Φ κ β) (phase : Option (Phase Φ κ β)) :
    Act.Keeps Known (poisonCombatTransaction env phase) :=
  (steady_known.stable env).poisonCombatTransaction env
    (fun _ _ h => ⟨h.root, h.known, h.registered, h.books, h.points, h.registry⟩) phase

section Combat

variable {used later : Finset PyStr} {inst : Instance W Φ κ β}

theorem KnownSince.mono {later' : Finset PyStr} (h : KnownSince used later inst)
    (hsub : later' ⊆ later) : KnownSince used later' inst :=
  { h with registered := hsub.trans h.registered }

/-- A branch that gets its record is known from then on. -/
theorem KnownSince.registeredAs (h : KnownSince used later inst) (prepared : PreparedCombat κ β)
    (internalId : String) : KnownSince used (insert prepared.item.branchId later)
      (registeredAs prepared internalId inst) := by
  have hsub : inst.branchIds.everUsed ⊆ insert prepared.item.branchId inst.branchIds.everUsed :=
    Finset.subset_insert _ _
  refine ⟨h.root, h.known.trans hsub, Finset.insert_subset_insert _ h.registered,
    fun branchId book hbook => ?_, fun branchId point hpoint =>
      hsub (h.points branchId point hpoint), h.registry⟩
  unfold Instance.registeredAs at hbook ⊢
  dsimp only at hbook ⊢
  rw [Dict.get?_set] at hbook
  by_cases hbranch : branchId = prepared.item.branchId
  · rw [hbranch]
    exact Finset.mem_insert_self _ _
  · rw [if_neg hbranch] at hbook
    exact hsub (h.books branchId book hbook)

theorem unregister_knownSince (h : KnownSince used ∅ inst)
    {branchId : PyStr} (hnew : branchId ∉ used) :
    KnownSince used ∅ (unregister branchId inst) := by
  have hroot : branchId ≠ .text Api.rootBranchId := fun heq => hnew (heq ▸ h.root)
  have hids : (inst.branchIds.rollbackRegistration branchId).everUsed =
      inst.branchIds.everUsed.erase branchId := by
    unfold BranchIdRegistry.rollbackRegistration
    rw [if_neg hroot]
  refine ⟨h.root, ?_, Finset.empty_subset _, fun other book hbook => ?_,
    fun other point hpoint => ?_,
    h.registry⟩
  · intro other hother
    refine hids ▸ Finset.mem_erase.mpr ⟨fun heq => hnew (heq ▸ hother), h.known hother⟩
  · have hne : other ≠ branchId := by
      rintro rfl
      unfold unregister at hbook
      rw [Dict.get?_erase_self] at hbook
      cases hbook
    unfold unregister at hbook
    rw [Dict.get?_erase_ne _ hne] at hbook
    exact hids ▸ Finset.mem_erase.mpr ⟨hne, h.books other book hbook⟩
  · have hpoint' : (inst.decisionPoints.clear branchId).current? other = some point := hpoint
    rw [current?_clear] at hpoint'
    by_cases hne : other = branchId
    · rw [if_pos hne] at hpoint'
      cases hpoint'
    · rw [if_neg hne] at hpoint'
      exact hids ▸ Finset.mem_erase.mpr ⟨hne, h.points other point hpoint'⟩

theorem combatBatched_knownSince (used : Finset PyStr) :
    CombatBatched (KnownSince used : Finset PyStr → Instance W Φ κ β → Prop) (· ∉ used) where
  framed later := (steady_knownSince used later).framed
  mono hsub h := h.mono hsub
  phase later := (steady_knownSince used later).phase
  reserve _ _ _ h := ⟨h.root, h.known, h.registered, h.books, h.points, h.registry⟩
  register _ prepared internalId _ _ h := h.registeredAs prepared internalId
  unregister _ _ hnew h := unregister_knownSince h hnew
  issue _ _ _ hbranch h := ⟨h.root, h.known, h.registered, h.books,
    points_issue h.points (h.registered hbranch), h.registry⟩
  settle _ branchId change _ _ _ h := h.modifyBook branchId change

/-- A batch of a combat keeps what is known. -/
theorem emulateCombatPhaseActions_known (env : RunEnv W Φ κ β) (items : List EmulateItem)
    (simulationOptions : Option Fields) :
    Act.Keeps Known (emulateCombatPhaseActions env items simulationOptions) :=
  fun inst h => ((combatBatched_knownSince _).emulateCombatPhaseActions env items simulationOptions
    fun _ hnew => hnew).conseq (fun _ h => h) (fun _ _ h => h.toKnown)
    (fun _ _ h => h.toKnown) inst ⟨rfl, h⟩

end Combat

end Instance

end WholeRun

end STS2RL
