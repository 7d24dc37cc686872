import STS2RL.WholeRun.EventChain

/-!
# The Forest of Branches

A branch is played from the root or from another branch, and the instance keeps for
each the record of where it comes from: its parent, its rng id, and the log of the
actions that lead to it. The records make a forest under the root.

A record is read together with the record of its parent, and both have to be there. A
batch that fails takes records away again, but only those it made itself, and the
parents of a batch were there before it. So a record stays once a request has left it,
and with it what was played from it.

Within a request the invariant is stated from a state of the past: the parents are
branches that were used by then, and what the records of then said of their origin
still holds.

## Main definitions

* `SameOrigin`, `Grows`: What is kept of a record, and of all records.
* `Sprouts`: The log of a branch goes on from that of its parent.
* `Forested`, `ForestFrom`: The records make a forest.
* `Ancestry`: The branches from a branch up to the root.

## Theorems

* `steady_forested`, `combatPlayed_forested`, `CommittedChain.forested`: The changes.
* `forest_step`: Every request keeps the forest.
* `inForest_of_forest`: A branch has its place in it.
* `branch_forest`: So it is in every run.
-/

namespace STS2RL

namespace WholeRun

open Api (PyError Fields EmulateItem)

variable {W Φ κ β α : Type}

namespace Instance

/-- Where a branch comes from is the same. -/
structure SameOrigin (book book' : Book κ β) : Prop where
  parent : book'.parentPublicId = book.parentPublicId
  branchLog : book'.branchLog = book.branchLog
  rngId : book'.rngId = book.rngId

theorem SameOrigin.refl (book : Book κ β) : SameOrigin book book := ⟨rfl, rfl, rfl⟩

theorem SameOrigin.trans {book book' book'' : Book κ β} (h : SameOrigin book book')
    (h' : SameOrigin book' book'') : SameOrigin book book'' :=
  ⟨h'.parent.trans h.parent, h'.branchLog.trans h.branchLog, h'.rngId.trans h.rngId⟩

/-- The records of then are there, and the log of the root has grown. -/
structure Grows (past inst : Instance W Φ κ β) : Prop where
  rootLog : past.rootBranchLog <+: inst.rootBranchLog
  records : ∀ branchId book, past.bookkeeping.get? branchId = some book →
    ∃ book', inst.bookkeeping.get? branchId = some book' ∧ SameOrigin book book'

theorem Grows.refl (inst : Instance W Φ κ β) : Grows inst inst :=
  ⟨List.prefix_refl _, fun _ book hbook => ⟨book, hbook, .refl book⟩⟩

theorem Grows.trans {a b c : Instance W Φ κ β} (h : Grows a b) (h' : Grows b c) : Grows a c := by
  refine ⟨h.rootLog.trans h'.rootLog, fun branchId book hbook => ?_⟩
  rcases h.records branchId book hbook with ⟨book', hbook', hsame⟩
  rcases h'.records branchId book' hbook' with ⟨book'', hbook'', hsame'⟩
  exact ⟨book'', hbook'', hsame.trans hsame'⟩

/-- The log of the parent: of the root at some time, or of a record with the rng id. -/
def ParentLog (inst : Instance W Φ κ β) (parentId : PyStr) (rngId : Int)
    (log : List LogEntry) : Prop :=
  if parentId = root then log <+: inst.rootBranchLog
  else ∃ parent, inst.bookkeeping.get? parentId = some parent ∧ parent.rngId = rngId ∧
    parent.branchLog = log

/-- A log goes on from that of the parent by one entry. -/
def Sprouts (inst : Instance W Φ κ β) (parentId : PyStr) (rngId : Int)
    (branchLog : List LogEntry) : Prop :=
  ∃ log decisionPointId actionId, ParentLog inst parentId rngId log ∧
    branchLog = log ++ [⟨log.length, decisionPointId, actionId, rngId⟩]

theorem Sprouts.grow {past inst : Instance W Φ κ β} {parentId : PyStr} {rngId : Int}
    {branchLog : List LogEntry} (h : Sprouts past parentId rngId branchLog)
    (hgrows : Grows past inst) : Sprouts inst parentId rngId branchLog := by
  rcases h with ⟨log, decisionPointId, actionId, hparent, hlog⟩
  refine ⟨log, decisionPointId, actionId, ?_, hlog⟩
  unfold ParentLog at hparent ⊢
  by_cases hroot : parentId = root
  · rw [if_pos hroot] at hparent ⊢
    exact hparent.trans hgrows.rootLog
  · rw [if_neg hroot] at hparent ⊢
    rcases hparent with ⟨parent, hbook, hrng, hparentLog⟩
    rcases hgrows.records parentId parent hbook with ⟨parent', hbook', hsame⟩
    exact ⟨parent', hbook', hsame.rngId.trans hrng, hsame.branchLog.trans hparentLog⟩

/-- The records make a forest: they are read from `past`, the parents are in `used`, and
    those in `later` are known by now. -/
structure Forested (used : Finset PyStr) (past : Instance W Φ κ β) (later : Finset PyStr)
    (inst : Instance W Φ κ β) : Prop where
  known : KnownSince used later inst
  rootless : inst.bookkeeping.get? root = none
  numbered : ∀ k (entry : LogEntry), inst.rootBranchLog[k]? = some entry →
    entry.depth = k ∧ entry.rngId = Api.rootRngId
  planted : ∀ branchId book, inst.bookkeeping.get? branchId = some book →
    Sprouts inst book.parentPublicId book.rngId book.branchLog ∧
      (book.parentPublicId = root ∨ book.parentPublicId ∈ used)
  grows : Grows past inst
  past : ∀ branchId book, past.bookkeeping.get? branchId = some book → branchId ∈ used

/-- The records make a forest. -/
def Forest (inst : Instance W Φ κ β) : Prop := Forested inst.branchIds.everUsed inst ∅ inst

/-- The records make a forest, that of then among it. -/
def ForestFrom (past inst : Instance W Φ κ β) : Prop := Grows past inst ∧ Forest inst

/-!
### Changes that plant nothing

Most changes leave every parent and every log as they are.
-/

section Changes

variable {used later : Finset PyStr} {past inst inst' : Instance W Φ κ β}

theorem Forested.toForest (h : Forested used past later inst) : Forest inst where
  known := h.known.toKnown
  rootless := h.rootless
  numbered := h.numbered
  planted branchId book hbook := by
    rcases h.planted branchId book hbook with ⟨hsprouts, hparent⟩
    exact ⟨hsprouts, hparent.imp id fun hmem => h.known.known hmem⟩
  grows := .refl inst
  past := h.known.books

theorem Forested.from (h : Forested used past later inst) : ForestFrom past inst :=
  ⟨h.grows, h.toForest⟩

/-- What leaves the records and the log of the root leaves the forest. -/
theorem Forested.congr {later' : Finset PyStr} (h : Forested used past later inst)
    (hknown : KnownSince used later' inst') (hbooks : inst'.bookkeeping = inst.bookkeeping)
    (hlog : inst'.rootBranchLog = inst.rootBranchLog) : Forested used past later' inst' := by
  have hgrows : Grows inst inst' :=
    ⟨hlog ▸ List.prefix_refl _, fun _ book hbook => ⟨book, hbooks ▸ hbook, .refl book⟩⟩
  refine ⟨hknown, hbooks ▸ h.rootless, hlog ▸ h.numbered, fun branchId book hbook => ?_,
    h.grows.trans hgrows, h.past⟩
  rw [hbooks] at hbook
  rcases h.planted branchId book hbook with ⟨hsprouts, hparent⟩
  exact ⟨hsprouts.grow hgrows, hparent⟩

/-- Records that are changed, each without its origin. -/
theorem Forested.replant (h : Forested used past later inst) (hknown : KnownSince used later inst')
    (hlog : inst'.rootBranchLog = inst.rootBranchLog) (change : PyStr → Book κ β → Book κ β)
    (hchange : ∀ branchId book, SameOrigin book (change branchId book))
    (hget : ∀ branchId, inst'.bookkeeping.get? branchId =
      (inst.bookkeeping.get? branchId).map (change branchId)) :
    Forested used past later inst' := by
  have hgrows : Grows inst inst' := by
    refine ⟨hlog ▸ List.prefix_refl _, fun branchId book hbook => ?_⟩
    exact ⟨change branchId book, by rw [hget, hbook]; rfl, hchange branchId book⟩
  refine ⟨hknown, by rw [hget, h.rootless]; rfl, hlog ▸ h.numbered, fun branchId book hbook => ?_,
    h.grows.trans hgrows, h.past⟩
  rw [hget] at hbook
  rcases Option.map_eq_some_iff.mp hbook with ⟨old, hold, rfl⟩
  rcases h.planted branchId old hold with ⟨hsprouts, hparent⟩
  have hsame := hchange branchId old
  rw [hsame.parent, hsame.rngId, hsame.branchLog]
  exact ⟨hsprouts.grow hgrows, hparent⟩

theorem modifyBook_rootBranchLog (branchId : PyStr) (change : Book κ β → Book κ β)
    (inst : Instance W Φ κ β) :
    (modifyBook branchId change inst).rootBranchLog = inst.rootBranchLog := by
  rcases modifyBook_eq branchId change inst with ⟨bookkeeping, heq⟩
  rw [heq]

/-- A record that keeps its origin stands where it stood. -/
theorem Forested.modifyBook (h : Forested used past later inst) (branchId : PyStr)
    {change : Book κ β → Book κ β} (hchange : ∀ book, SameOrigin book (change book)) :
    Forested used past later (modifyBook branchId change inst) := by
  refine h.replant (h.known.modifyBook _ _) (modifyBook_rootBranchLog _ _ _)
    (fun other => if other = branchId then change else id) (fun other book => ?_) fun other => ?_
  · by_cases hother : other = branchId
    · rw [if_pos hother]
      exact hchange book
    · rw [if_neg hother]
      exact .refl book
  · rw [get?_modifyBook]
    by_cases hother : other = branchId
    · rw [if_pos hother, if_pos hother]
    · rw [if_neg hother, if_neg hother, Option.map_id]
      rfl

theorem Forested.releaseEventRngReference (h : Forested used past later inst) (branchId : PyStr) :
    Forested used past later (releaseEventRngReference branchId inst) := by
  have hknown := h.known.releaseEventRngReference branchId
  unfold Instance.releaseEventRngReference at hknown ⊢
  split
  · exact h
  · rename_i plan _
    have hreleased : Forested used past later { inst with
        eventRngRegistry := inst.eventRngRegistry.releaseBranch plan.hypothesisKey branchId } :=
      h.congr ⟨h.known.root, h.known.known, h.known.registered, h.known.books, h.known.points,
        h.known.registry.releaseBranch _ _⟩ rfl rfl
    exact hreleased.modifyBook _ fun _ => ⟨rfl, rfl, rfl⟩

/-- The log of the root after a commit. -/
theorem Forested.recorded (h : Forested used past later inst) (decisionPointId actionId : PyStr) :
    Forested used past later (recorded decisionPointId actionId inst) := by
  have hgrows : Grows inst (Instance.recorded decisionPointId actionId inst) :=
    ⟨List.prefix_append _ _, fun _ book hbook => ⟨book, hbook, .refl book⟩⟩
  refine ⟨(steady_knownSince used later).rootBranchLog inst _ _ h.known, h.rootless,
    fun k entry hentry => ?_, fun branchId book hbook => ?_, h.grows.trans hgrows, h.past⟩
  · have hentry : (inst.rootBranchLog ++ [⟨inst.rootBranchLog.length, decisionPointId, actionId,
        Api.rootRngId⟩])[k]? = some entry := hentry
    rw [List.getElem?_append] at hentry
    by_cases hk : k < inst.rootBranchLog.length
    · rw [if_pos hk] at hentry
      exact h.numbered k entry hentry
    · rw [if_neg hk] at hentry
      rcases List.getElem?_eq_some_iff.mp hentry with ⟨hlast, rfl⟩
      rw [List.length_singleton] at hlast
      have hzero : k - inst.rootBranchLog.length = 0 := by omega
      simp only [hzero, List.getElem_cons_zero]
      exact ⟨by omega, trivial⟩
  · rcases h.planted branchId book hbook with ⟨hsprouts, hparent⟩
    exact ⟨hsprouts.grow hgrows, hparent⟩

/-- The changes of the operations on the root and on the records. -/
theorem steady_forested (used : Finset PyStr) (past : Instance W Φ κ β) (later : Finset PyStr) :
    Steady (Forested used past later) where
  session inst session h := h.congr ((steady_knownSince _ _).session inst session h.known) rfl rfl
  rootHistory inst history h :=
    h.congr ((steady_knownSince _ _).rootHistory inst history h.known) rfl rfl
  position inst snapshot room actions h :=
    h.congr ((steady_knownSince _ _).position inst snapshot room actions h.known) rfl rfl
  rootBranchLog _ decisionPointId actionId h := h.recorded decisionPointId actionId
  completion inst completion h :=
    h.congr ((steady_knownSince _ _).completion inst completion h.known) rfl rfl
  nextHolder inst holder h :=
    h.congr ((steady_knownSince _ _).nextHolder inst holder h.known) rfl rfl
  closed inst closed h := h.congr ((steady_knownSince _ _).closed inst closed h.known) rfl rfl
  issue inst h := h.congr ((steady_knownSince _ _).issue inst h.known) rfl rfl
  restore inst prior h := h.congr ((steady_knownSince _ _).restore inst prior h.known) rfl rfl
  book _ branchId _ hchange h := h.modifyBook branchId fun book =>
    ⟨hchange.parent book, hchange.branchLog book, hchange.rngId book⟩
  reference _ branchId h := h.releaseEventRngReference branchId
  retire inst h := h.replant ((steady_knownSince _ _).retire inst h.known) rfl
    (fun _ => retiredBook) (fun _ _ => ⟨rfl, rfl, rfl⟩) fun _ => Dict.get?_mapVals _ _ _
  reservation inst branchId h :=
    h.congr ((steady_knownSince _ _).reservation inst branchId h.known) rfl rfl
  registry inst h := h.congr ((steady_knownSince _ _).registry inst h.known) rfl rfl
  phase inst session phase phase' hphase h :=
    h.congr ((steady_knownSince _ _).phase inst session phase phase' hphase h.known) rfl rfl
  install inst phase hfault h :=
    h.congr ((steady_knownSince _ _).install inst phase hfault h.known) rfl rfl
  leave inst h := h.congr ((steady_knownSince _ _).leave inst h.known) rfl rfl

theorem steady_forestFrom (past : Instance W Φ κ β) : Steady (ForestFrom past) :=
  .of_forall (J := fun base : { base : Instance W Φ κ β // Grows past base } =>
      Forested base.1.branchIds.everUsed base.1 ∅) (fun _ => steady_forested _ _ ∅)
    fun inst h => ⟨⟨inst, h.1⟩, h.2, fun _ hafter => ⟨h.1.trans hafter.grows, hafter.toForest⟩⟩

end Changes

/-!
### Combats

A branch of a combat is planted under a parent that is there.
-/

section Combat

variable {used later : Finset PyStr} {past inst : Instance W Φ κ β}

/-- A new record, with its place under the records of the past. -/
theorem Forested.plant {used' later' : Finset PyStr} {branchId : PyStr} {book : Book κ β}
    {inst' : Instance W Φ κ β} (h : Forested used past later inst)
    (hknown : KnownSince used' later' inst') (hused : used ⊆ used')
    (hnew : branchId ∉ inst.branchIds.everUsed)
    (hbooks : inst'.bookkeeping = inst.bookkeeping.set branchId book)
    (hlog : inst'.rootBranchLog = inst.rootBranchLog)
    (hsprouts : Sprouts past book.parentPublicId book.rngId book.branchLog) :
    Forested used' past later' inst' := by
  have hgrows : Grows inst inst' := by
    refine ⟨hlog ▸ List.prefix_refl _, fun other old hold => ⟨old, ?_, .refl old⟩⟩
    have hother : other ≠ branchId := fun heq => hnew (heq ▸ h.known.books other old hold)
    rw [hbooks, Dict.get?_set_ne _ _ hother]
    exact hold
  have hroot : root ≠ branchId := fun heq => hnew (heq ▸ h.known.known h.known.root)
  refine ⟨hknown, ?_, hlog ▸ h.numbered, fun other book' hbook' => ?_, h.grows.trans hgrows,
    fun other old hold => hused (h.past other old hold)⟩
  · rw [hbooks, Dict.get?_set_ne _ _ hroot]
    exact h.rootless
  · rw [hbooks, Dict.get?_set] at hbook'
    by_cases hother : other = branchId
    · rw [if_pos hother] at hbook'
      cases hbook'
      refine ⟨hsprouts.grow (h.grows.trans hgrows), ?_⟩
      -- The parent was there in the past.
      rcases hsprouts with ⟨log, -, -, hparent, -⟩
      unfold ParentLog at hparent
      by_cases hparentRoot : book.parentPublicId = root
      · exact .inl hparentRoot
      · rw [if_neg hparentRoot] at hparent
        rcases hparent with ⟨parent, hget, -⟩
        exact .inr (hused (h.past _ parent hget))
    · rw [if_neg hother] at hbook'
      rcases h.planted other book' hbook' with ⟨hother, hparent⟩
      exact ⟨hother.grow hgrows, hparent.imp id fun hmem => hused hmem⟩

/-- A record that is taken away was no parent, and none of the past. -/
theorem Forested.unregister (h : Forested used past ∅ inst) {branchId : PyStr}
    (hnew : branchId ∉ used) : Forested used past ∅ (unregister branchId inst) := by
  -- No branch that is in use is touched.
  have hget : ∀ other, other ∈ used → (Instance.unregister branchId inst).bookkeeping.get? other =
      inst.bookkeeping.get? other := by
    intro other hmem
    exact Dict.get?_erase_ne _ fun heq => hnew (heq ▸ hmem)
  have hold : ∀ other book, (Instance.unregister branchId inst).bookkeeping.get? other = some book →
      inst.bookkeeping.get? other = some book := by
    intro other book hbook
    unfold Instance.unregister at hbook
    by_cases hother : other = branchId
    · rw [hother, Dict.get?_erase_self] at hbook
      cases hbook
    · rwa [Dict.get?_erase_ne _ hother] at hbook
  refine ⟨unregister_knownSince h.known hnew, ?_, h.numbered, fun other book hbook => ?_,
    ⟨h.grows.rootLog, fun other book hbook => ?_⟩, h.past⟩
  · rw [hget root h.known.root]
    exact h.rootless
  -- A parent in use has the log it had.
  · rcases h.planted other book (hold other book hbook) with ⟨hsprouts, hparent⟩
    refine ⟨?_, hparent⟩
    rcases hsprouts with ⟨log, decisionPointId, actionId, hlog, hbranchLog⟩
    refine ⟨log, decisionPointId, actionId, ?_, hbranchLog⟩
    unfold ParentLog at hlog ⊢
    by_cases hroot : book.parentPublicId = root
    · rw [if_pos hroot] at hlog ⊢
      exact hlog
    · rw [if_neg hroot] at hlog ⊢
      rw [hget _ (hparent.resolve_left hroot)]
      exact hlog
  · rw [hget other (h.past other book hbook)]
    exact h.grows.records other book hbook

/-- The forest while a batch of a combat is carried out: no commit comes between. -/
def ForestedBatch (past : Instance W Φ κ β) (later : Finset PyStr) (inst : Instance W Φ κ β) :
    Prop :=
  Forested past.branchIds.everUsed past later inst ∧ inst.rootBranchLog = past.rootBranchLog

/-- A batch of a combat plants its branches. -/
theorem combatPlayed_forested (maxBranches : Nat) (past : Instance W Φ κ β) :
    CombatPlayed maxBranches (ForestedBatch past) (· ∉ past.branchIds.everUsed)
      fun prepared => Sprouts past prepared.item.parentBranchId prepared.item.rngId
        prepared.branchLog where
  framed later :=
    have hI := (steady_forested past.branchIds.everUsed past later).framed
    { session := fun inst session h => ⟨hI.session inst session h.1, h.2⟩
      rootHistory := fun inst history h => ⟨hI.rootHistory inst history h.1, h.2⟩
      position := fun inst snapshot room actions h =>
        ⟨hI.position inst snapshot room actions h.1, h.2⟩
      nextHolder := fun inst holder h => ⟨hI.nextHolder inst holder h.1, h.2⟩
      issue := fun inst h => ⟨hI.issue inst h.1, h.2⟩
      observe := fun inst branchId context h =>
        ⟨hI.observe inst branchId context h.1, (modifyBook_rootBranchLog _ _ _).trans h.2⟩ }
  mono hsub h := ⟨h.1.congr (h.1.known.mono hsub) rfl rfl, h.2⟩
  phase later inst session phase phase' hphase h :=
    ⟨(steady_forested _ _ later).phase inst session phase phase' hphase h.1, h.2⟩
  reserve inst branchIds _ h := ⟨h.1.congr
    ((combatBatched_knownSince _).reserve ∅ inst _ h.1.known) rfl rfl, h.2⟩
  unreserve inst branchIds h := ⟨h.1.congr
    ((combatBatched_knownSince _).reserve ∅ inst _ h.1.known) rfl rfl, h.2⟩
  register later prepared internalId inst hready hnew h := ⟨h.1.plant
    (h.1.known.registeredAs prepared internalId) subset_rfl hnew rfl rfl hready, h.2⟩
  unregister _ _ hnew h := ⟨h.1.unregister hnew, h.2⟩
  issue later branchId inst hbranch h := ⟨h.1.congr
    ((combatBatched_knownSince _).issue later branchId inst hbranch h.1.known) rfl rfl, h.2⟩
  settle _ branchId change inst _ hchange h := by
    refine ⟨h.1.modifyBook branchId fun book => ?_, (modifyBook_rootBranchLog _ _ _).trans h.2⟩
    cases hchange <;> exact ⟨rfl, rfl, rfl⟩

/-- A parent with the lineage is the root, or has a record with the rng id. -/
theorem parent_of_checkLineage {parentId : PyStr} {rngId : Int}
    (h : checkLineage past parentId rngId = .ok ()) : parentId = root ∨ ∃ parent,
      past.bookkeeping.get? parentId = some parent ∧ parent.rngId = rngId := by
  by_cases hroot : parentId = root
  · exact .inl hroot
  · unfold checkLineage at h
    rw [if_neg hroot] at h
    rcases hparent : past.bookkeeping.get? parentId with _ | parent
    · rw [hparent] at h
      cases h
    rw [hparent] at h
    dsimp only at h
    split at h
    · cases h
    · rename_i hrng
      exact .inr ⟨parent, rfl, (not_not.mp hrng).symm⟩

/-- An item that passes the checks has the lineage of its parent. -/
theorem checkLineage_of_admitItem (env : RunEnv W Φ κ β) {phase : Phase Φ κ β} {seen : List PyStr}
    {item : EmulateItem} {entry : Admitted κ β}
    (h : admitItem env past phase seen item = .ok entry) :
    checkLineage past entry.item.parentBranchId entry.item.rngId = .ok () := by
  unfold admitItem at h
  split at h
  · cases h
  split at h
  · cases h
  split at h
  · cases h
  split at h
  · cases h
  split at h
  · cases h
  rcases hlineage : checkLineage past item.parentBranchId item.rngId with error | _
  · rw [hlineage] at h
    cases h
  rw [hlineage] at h
  dsimp only at h
  split at h
  · cases h
  · rcases (Except.map_eq_ok _ _ _).mp h with ⟨_, -, rfl⟩
    exact hlineage

/-- The parent of an item that passes the checks is the root, or has a record with the
    rng id. -/
theorem parent_of_admitItems (env : RunEnv W Φ κ β) {phase : Phase Φ κ β} {seen : List PyStr}
    {items : List EmulateItem} {admitted : List (Admitted κ β)}
    (h : admitItems env past phase seen items = .ok admitted) :
    ∀ entry ∈ admitted, entry.item.parentBranchId = root ∨ ∃ parent,
      past.bookkeeping.get? entry.item.parentBranchId = some parent ∧
        parent.rngId = entry.item.rngId := by
  induction items generalizing seen admitted with
  | nil =>
      cases h
      intro entry hentry
      cases hentry
  | cons item rest ih =>
      unfold admitItems at h
      rcases hone : admitItem env past phase seen item with error | one
      · rw [hone] at h
        cases h
      rw [hone] at h
      rcases (Except.map_eq_ok _ _ _).mp h with ⟨others, hothers, rfl⟩
      intro entry hentry
      rcases List.mem_cons.mp hentry with rfl | hentry
      · exact parent_of_checkLineage (checkLineage_of_admitItem env hone)
      · exact ih hothers entry hentry

/-- The log that a branch gets. -/
theorem sprouts_branchLogFor {item : EmulateItem} (hgrows : Grows past inst)
    (hlog : inst.rootBranchLog = past.rootBranchLog)
    (hparent : item.parentBranchId = root ∨ ∃ parent,
      past.bookkeeping.get? item.parentBranchId = some parent ∧ parent.rngId = item.rngId) :
    Sprouts past item.parentBranchId item.rngId (inst.branchLogFor item) := by
  refine ⟨inst.parentLog item.parentBranchId, item.decisionPointId, item.actionId, ?_, rfl⟩
  unfold ParentLog parentLog
  by_cases hroot : item.parentBranchId = root
  · rw [if_pos hroot, if_pos hroot, hlog]
  · rw [if_neg hroot, if_neg hroot]
    rcases hparent.resolve_left hroot with ⟨parent, hget, hrng⟩
    rcases hgrows.records _ parent hget with ⟨parent', hget', hsame⟩
    refine ⟨parent, hget, hrng, ?_⟩
    rw [hget']
    exact hsame.branchLog.symm

/-- The request for such a batch. -/
theorem emulateCombatPhaseActions_forest (env : RunEnv W Φ κ β) (items : List EmulateItem)
    (simulationOptions : Option Fields) :
    Act.Keeps (ForestFrom past) (emulateCombatPhaseActions env items simulationOptions) := by
  rintro inst ⟨hgrows, hforest⟩
  have hplayed := combatPlayed_forested env.maxBranches inst
  have hends := hplayed.emulateCombatPhaseActions env rfl items simulationOptions
    (fun _ hnew => hnew) (fun phase admitted hpassed entry hentry => ?_) ⟨hforest, rfl⟩
  · generalize emulateCombatPhaseActions env items simulationOptions inst = ended at hends ⊢
    rcases ended with ⟨outcome, inst'⟩
    cases outcome <;> exact ⟨hgrows.trans hends.1.grows, hends.1.toForest⟩
  · have hparent := parent_of_admitItems env hpassed entry hentry
    unfold prepareItem
    refine .bind (hplayed.onPhase _) fun _ s h => ?_
    exact ⟨h, sprouts_branchLogFor h.1.grows h.2 hparent⟩

end Combat

/-!
### Events

A branch at an event is planted in the same way, when it is committed.
-/

section Event

variable (env : RunEnv W Φ κ β) {used later : Finset PyStr} {past inst : Instance W Φ κ β}

/-- A branch of an event is prepared with its place under the records. -/
theorem sprouts_of_prepared {prepared : PreparedEvent κ β} (h : PreparedFrom env inst prepared) :
    Sprouts inst prepared.book.parentPublicId prepared.book.rngId prepared.book.branchLog := by
  rcases validated_of_ok h.validated with ⟨-, -, -, hlineage⟩
  rcases (Except.map_eq_ok _ _ _).mp h.built with ⟨plan, -, heq⟩
  rw [← heq]
  exact sprouts_branchLogFor (.refl inst) rfl (parent_of_checkLineage hlineage)

theorem Forested.committedAs (h : Forested used past later inst) {prepared : PreparedEvent κ β}
    {registry : EventRngHypothesisRegistry}
    (hnew : prepared.spec.item.branchId ∉ inst.branchIds.everUsed)
    (hholds : Holds prepared inst registry)
    (hsprouts : Sprouts past prepared.book.parentPublicId prepared.book.rngId
      prepared.book.branchLog) :
    Forested (insert prepared.spec.item.branchId used) past later
      (committedAs prepared registry inst) :=
  h.plant (h.known.committedAs hholds) (Finset.subset_insert _ _) hnew rfl rfl hsprouts

/-- Branches that are committed one after another. -/
theorem CommittedChain.forested {after : Instance W Φ κ β} {batch : List (PreparedEvent κ β)}
    (hchain : CommittedChain inst batch after) (h : Forested used past later inst)
    (hsprouts : ∀ prepared ∈ batch, Sprouts past prepared.book.parentPublicId prepared.book.rngId
      prepared.book.branchLog) : ∃ used', Forested used' past later after := by
  induction hchain generalizing used with
  | nil => exact ⟨used, h⟩
  | cons hnew hholds _ ih =>
      exact ih (h.committedAs hnew hholds (hsprouts _ List.mem_cons_self))
        fun entry hentry => hsprouts entry (List.mem_cons_of_mem _ hentry)

theorem eventSettled_forested {branchId : PyStr} (hbranch : branchId ∈ later) :
    EventSettled (Forested used past later) branchId where
  fault inst h := by
    have hfaulted : Forested used past later
        (modifyBook branchId (fun book => { book with status := .faulted }) inst) :=
      h.modifyBook branchId fun _ => ⟨rfl, rfl, rfl⟩
    exact hfaulted.releaseEventRngReference branchId
  terminal _ _ h := h.modifyBook branchId fun _ => ⟨rfl, rfl, rfl⟩
  issue _ h := h.congr ⟨h.known.root, h.known.known, h.known.registered, h.known.books,
    points_issue h.known.points (h.known.registered hbranch), h.known.registry⟩ rfl rfl
  view _ _ h := h.modifyBook branchId fun _ => ⟨rfl, rfl, rfl⟩

/-- What follows once branches have their records. -/
theorem forest_of_forested {m : Op W Φ κ β α}
    (hm : ∀ base : Instance W Φ κ β, Act.Keeps (Forested base.branchIds.everUsed base later) m) :
    Act.Triple (fun inst => ForestFrom past inst ∧ later ⊆ inst.branchIds.everUsed) m
      (fun _ => ForestFrom past) fun _ => ForestFrom past := by
  rintro inst ⟨⟨hgrows, h⟩, hlater⟩
  have hafter := (hm inst).after (h.congr { h.known with registered := hlater } rfl rfl)
  generalize m inst = ended at hafter ⊢
  rcases ended with ⟨outcome, inst'⟩
  cases outcome <;> exact ⟨hgrows.trans hafter.grows, hafter.toForest⟩

/-- The request for one branch. -/
theorem emulateEventAction_forest (item : EmulateItem) (simulationOptions : Option Fields) :
    Act.Keeps (ForestFrom past) (emulateEventAction env item simulationOptions) := by
  refine emulateEventAction_triple env (steady_forestFrom past).framed.toIgnoresView
    (fun _ h => h) (J := fun prepared inst => ForestFrom past inst ∧
      ({prepared.spec.item.branchId} : Finset PyStr) ⊆ inst.branchIds.everUsed) ?_
    (fun prepared => forest_of_forested fun base => ?_) item simulationOptions
  · rintro inst prepared ⟨hgrows, h⟩ hfrom - _ rfl
    rcases commitPreparedBranch_after h.known.root prepared with ⟨error, hraises⟩ |
      ⟨registry, hnew, hholds, hok⟩
    · rw [hraises]
      exact ⟨hgrows, h⟩
    · rw [hok]
      have hafter := h.committedAs hnew hholds (sprouts_of_prepared env hfrom)
      exact ⟨⟨hgrows.trans hafter.grows, hafter.toForest⟩,
        Finset.singleton_subset_iff.mpr (Finset.mem_insert_self _ _)⟩
  · exact (eventSettled_forested (Finset.mem_singleton_self _)).dispatchOne env
      (steady_forested _ base _).framed

/-- The request for a batch. -/
theorem beamEmulateEventBatch_forest (items : List EmulateItem) :
    Act.Keeps (ForestFrom past) (Beam.emulateEventBatch env items) := by
  refine emulateEventBatch_triple env (steady_forestFrom past).framed.toIgnoresView
    (fun _ h => h) (J := fun batch inst => ForestFrom past inst ∧
      (batch.map fun entry => entry.spec.item.branchId).toFinset ⊆ inst.branchIds.everUsed) ?_
    (fun batch => forest_of_forested fun base => ?_) items
  · rintro inst batch ⟨hgrows, h⟩ hfrom - - _ rfl
    rcases commitBatch_after h.known batch with ⟨error, hraises⟩ | ⟨after, hok, hchain⟩
    · rw [hraises]
      exact ⟨hgrows, h⟩
    · rw [hok]
      rcases hchain.forested h fun prepared hprepared =>
        sprouts_of_prepared env (hfrom prepared hprepared) with ⟨used, hafter⟩
      refine ⟨⟨hgrows.trans hafter.grows, hafter.toForest⟩, fun branchId hbranch => ?_⟩
      rcases List.mem_map.mp (List.mem_toFinset.mp hbranch) with ⟨entry, hentry, rfl⟩
      exact hchain.committed_known entry hentry
  · exact keeps_dispatchPreparedBatch env (steady_forested _ base _).framed
      ((steady_forested _ base _).releaseBranch env) fun _ hentry => eventSettled_forested
        (List.mem_toFinset.mpr (List.mem_map_of_mem hentry))

end Event

/-!
### Requests

Every request leaves a forest, and lets the one from before grow.
-/

section Requests

variable (env : RunEnv W Φ κ β) {past inst : Instance W Φ κ β}

theorem poison_forest (phase : Option (Phase Φ κ β)) :
    Act.Keeps (ForestFrom past) (poisonCombatTransaction env phase) :=
  ((steady_forestFrom past).stable env).poisonCombatTransaction env
    (fun _ _ h => ⟨⟨h.1.rootLog, h.1.records⟩, ⟨h.2.known.root, h.2.known.known,
      h.2.known.registered, h.2.known.books, h.2.known.points, h.2.known.registry⟩,
      h.2.rootless, h.2.numbered, h.2.planted, .refl _, h.2.past⟩) phase

/-- The records make a forest after every request, that of before among it. -/
theorem forest_step (facade : Facade) (request : Request) (h : ForestFrom past inst) :
    ForestFrom past (step env facade inst request).1 :=
  (steady_forestFrom past).step env (poison_forest env) (emulateCombatPhaseActions_forest env)
    (emulateEventAction_forest env) (beamEmulateEventBatch_forest env) facade inst request h

/-- An instance begins with the root alone. -/
theorem forest_of_constructs {config : Fields} {world : W} {access : GameAccess}
    (h : Constructs env config world access inst) : Forest inst := by
  let start : Instance W Φ κ β := blank world access
  have hstart : Forest start := by
    refine ⟨⟨Finset.mem_singleton_self _, subset_rfl, Finset.empty_subset _, ?_, ?_,
      EventRngHypothesisRegistry.owned_new⟩, rfl, ?_, ?_, .refl _, ?_⟩
    · exact fun _ _ hbook => nomatch hbook
    · exact fun _ _ hpoint => nomatch hpoint
    · exact fun _ _ hentry => nomatch hentry
    · exact fun _ _ hbook => nomatch hbook
    · exact fun _ _ hbook => nomatch hbook
  have hafter := ((steady_forestFrom start).framed.construct env config).after ⟨.refl start, hstart⟩
  rw [h] at hafter
  exact hafter.2

end Requests

/-!
### Runs

The law of the forest, and a branch with a child.
-/

section Runs

variable (env : RunEnv W Φ κ β) {inst : Instance W Φ κ β}

/-- The branches from a branch up to the root, which is not among them. -/
inductive Ancestry (inst : Instance W Φ κ β) : PyStr → List PyStr → Prop
  | root : Ancestry inst root []
  | branch {branchId : PyStr} {book : Book κ β} {line : List PyStr}
      (hbook : inst.bookkeeping.get? branchId = some book)
      (hline : Ancestry inst book.parentPublicId line) : Ancestry inst branchId (branchId :: line)

/-- A branch has its place: its ancestors are a line of different branches with its rng
    id up to the root, and its log is that of the root up to a `fork`, and from there one
    entry for each of the line. -/
def InForest (inst : Instance W Φ κ β) (branchId : PyStr) (book : Book κ β) : Prop :=
  ∃ line fork, Ancestry inst branchId line ∧ root ∉ line ∧ line.Nodup ∧
    (∀ ancestor ∈ line, ∃ other, inst.bookkeeping.get? ancestor = some other ∧
      other.rngId = book.rngId ∧ other.branchLog <+: book.branchLog) ∧
    fork <+: inst.rootBranchLog ∧ fork <+: book.branchLog ∧
    book.branchLog.length = fork.length + line.length ∧
    ∀ k (entry : LogEntry), book.branchLog[k]? = some entry → entry.depth = k ∧
      entry.rngId = if k < fork.length then Api.rootRngId else book.rngId

/-- A branch has its place in the forest, by induction on its log. -/
theorem inForest_of_forest (h : Forest inst) (branchId : PyStr) (book : Book κ β)
    (hbook : inst.bookkeeping.get? branchId = some book) : InForest inst branchId book := by
  induction hlength : book.branchLog.length using Nat.strong_induction_on
    generalizing branchId book with
  | _ n ih =>
      rcases (h.planted branchId book hbook).1 with ⟨log, decisionPointId, actionId, hparent, hlog⟩
      have hlogLength : book.branchLog.length = log.length + 1 := by rw [hlog]; simp
      have hbranch : root ≠ branchId := by
        rintro rfl
        rw [h.rootless] at hbook
        cases hbook
      -- The last entry is that of the branch itself.
      have hentries : ∀ k (entry : LogEntry), book.branchLog[k]? = some entry →
          log[k]? = some entry ∨ k = log.length ∧ entry.depth = k ∧ entry.rngId = book.rngId := by
        intro k entry hentry
        rw [hlog, List.getElem?_append] at hentry
        by_cases hk : k < log.length
        · rw [if_pos hk] at hentry
          exact .inl hentry
        · rw [if_neg hk] at hentry
          rcases List.getElem?_eq_some_iff.mp hentry with ⟨hlast, rfl⟩
          rw [List.length_singleton] at hlast
          have hzero : k - log.length = 0 := by omega
          simp only [hzero, List.getElem_cons_zero]
          exact .inr ⟨by omega, by omega, trivial⟩
      unfold ParentLog at hparent
      by_cases hroot : book.parentPublicId = root
      · rw [if_pos hroot] at hparent
        refine ⟨[branchId], log, .branch hbook (hroot ▸ .root), by simpa using hbranch,
          List.nodup_singleton _, ?_, hparent, hlog ▸ List.prefix_append _ _, hlogLength, ?_⟩
        · intro ancestor hmem
          rw [List.mem_singleton.mp hmem]
          exact ⟨book, hbook, rfl, List.prefix_refl _⟩
        · intro k entry hentry
          rcases hentries k entry hentry with hold | ⟨rfl, hdepth, hrng⟩
          · rcases List.getElem?_eq_some_iff.mp hold with ⟨hk, rfl⟩
            rw [if_pos hk]
            exact h.numbered k _ (List.prefix_iff_getElem?.mp hparent k hk)
          · rw [if_neg (Nat.lt_irrefl _)]
            exact ⟨hdepth, hrng⟩
      · rw [if_neg hroot] at hparent
        rcases hparent with ⟨parent, hget, hrng, rfl⟩
        rcases ih parent.branchLog.length (by omega) _ parent hget rfl with
          ⟨line, fork, hancestry, hnotRoot, hnodup, hall, hfork, hparentFork, hsum, hnumbered⟩
        have hsprout : parent.branchLog <+: book.branchLog := hlog ▸ List.prefix_append _ _
        refine ⟨branchId :: line, fork, .branch hbook hancestry, ?_, ?_, ?_, hfork,
          hparentFork.trans hsprout, by rw [List.length_cons]; omega, ?_⟩
        · exact fun hmem => (List.mem_cons.mp hmem).elim hbranch hnotRoot
        · refine List.nodup_cons.mpr ⟨fun hmem => ?_, hnodup⟩
          -- The log of an ancestor is shorter.
          rcases hall branchId hmem with ⟨other, hother, -, hprefix⟩
          rw [hbook] at hother
          cases hother
          have hle := hprefix.length_le
          omega
        · intro ancestor hmem
          rcases List.mem_cons.mp hmem with rfl | hmem
          · exact ⟨book, hbook, rfl, List.prefix_refl _⟩
          · rcases hall ancestor hmem with ⟨other, hother, hotherRng, hprefix⟩
            exact ⟨other, hother, hotherRng.trans hrng, hprefix.trans hsprout⟩
        · intro k entry hentry
          rcases hentries k entry hentry with hold | ⟨rfl, hdepth, hentryRng⟩
          · rw [← hrng]
            exact hnumbered k entry hold
          · have hle := hparentFork.length_le
            rw [if_neg (by omega)]
            exact ⟨hdepth, hentryRng⟩

/-- In every state of every run each branch has its place in the forest of branches, and
    what the records and the log of the root say of the past is never changed. -/
theorem branch_forest (facade : Facade) {config : Fields} {world : W} {access : GameAccess}
    {start : Instance W Φ κ β} (hconstruct : Constructs env config world access start)
    (requests more : List Request) :
    (∀ branchId book,
      (Run.final (step env facade) start requests).bookkeeping.get? branchId = some book →
        InForest (Run.final (step env facade) start requests) branchId book) ∧
    Grows (Run.final (step env facade) start requests)
      (Run.final (step env facade) start (requests ++ more)) := by
  have hrun : ∀ (inst : Instance W Φ κ β) requests, Forest inst →
      ForestFrom inst (Run.final (step env facade) inst requests) := fun inst requests h =>
    Run.invariant _ (I := ForestFrom inst) (fun _ request => forest_step env facade request) inst
      requests ⟨.refl inst, h⟩
  have hforest := (hrun start requests (forest_of_constructs env hconstruct)).2
  refine ⟨inForest_of_forest hforest, ?_⟩
  rw [Run.final_append]
  exact (hrun _ more hforest).1

/-- Two branches are played at an event, the second from the first. -/
def playTwo : List Request :=
  [.call (.emulateAction ⟨"root", "b1", "d-root-000002", "9", 1⟩ none),
    .call (.emulateAction ⟨"b1", "b2", "d-b1-000003", "9", 1⟩ none)]

theorem branch_forest_small :
    (∀ branchId book, (Run.final (step chainRun .base) chainInstance
        (enterEvent ++ playTwo)).bookkeeping.get? branchId = some book →
      InForest (Run.final (step chainRun .base) chainInstance (enterEvent ++ playTwo))
        branchId book) ∧
    Grows (Run.final (step chainRun .base) chainInstance enterEvent)
      (Run.final (step chainRun .base) chainInstance (enterEvent ++ playTwo)) := by
  have hstart : Constructs chainRun [] 0 {} chainInstance := rfl
  exact ⟨(branch_forest chainRun .base hstart (enterEvent ++ playTwo) []).1,
    (branch_forest chainRun .base hstart enterEvent playTwo).2⟩

end Runs

end Instance

end WholeRun

end STS2RL
