import STS2RL.WholeRun.EventChain

/-!
# Shared Event Hypotheses

A hypothesis of an event is kept for as long as a branch is played under it. The
registry counts the branches that hold on to it, and a record says which one its
branch holds on to. The two are written by different operations, and agree
between any two requests: a branch holds on to a hypothesis exactly when it is an
event branch that is neither faulted, cancelled nor released.

A branch from the root takes the state of the hypothesis that is live, and
derives it if none is. A branch from another one takes over the plan of its
parent. So the state in a plan is always the one in the registry, and committing
a branch never finds another.

Ending a branch writes its record first and lets go of the hypothesis after, so
the agreement is an invariant of the operations and not of their single changes.
Closing an instance empties the registry and leaves the records.

## Main definitions

* `Book.Live`, `Book.decisionPointId`: Whether a branch lives, and where it began.
* `References`: A live branch is played under a hypothesis.
* `Book.Placed`: What a record says of the hypothesis of its branch.
* `SharedSince`, `Agreed`: The registry and the records agree.
* `Grounded`, `Consistent`: Prepared branches have the state of their hypothesis.
* `ExactRegistry`: The registry is that of the live branches of events.
* `Commits`: The commits that a request comes to.

## Theorems

* `SharedSince.endBranch`, `SharedSince.committedAs`: A branch that ends, and one
  that begins.
* `grounded_of_prepared`, `consistent_of_prepared`: What is prepared is grounded.
* `commitPrefix_grounded`: A grounded batch is committed.
* `agreed_step`, `agreed_run`: The agreement holds in every run.
* `event_registry_exact`: The law of the registry.
-/

namespace STS2RL

namespace WholeRun

open Api (PyError Fields EmulateItem RngKey BranchIdRegistry DecisionPointRegistry)

variable {W Φ κ β α : Type}

namespace Book

/-- Neither faulted, cancelled nor released. -/
def Live (book : Book κ β) : Prop :=
  book.status ≠ .faulted ∧ book.status ≠ .cancelled ∧ book.status ≠ .released

/-- The decision a branch was created under. -/
def decisionPointId (book : Book κ β) : Option PyStr :=
  book.branchLog.getLast?.map LogEntry.decisionPointId

/-- What a record says of the hypothesis of its branch: a branch of an event has one
    while it lives, a branch of a combat has none, and under the root it is named by
    the decision and the rng id. It is the one that the branch `carried` from the
    start, and the parent too. -/
structure Placed (used : Finset PyStr) (carried : PyStr → Option EventRngReplayPlan)
    (branchId : PyStr) (book : Book κ β) : Prop where
  held : book.internalId = none → book.Live → book.eventRngPlan.isSome
  combat : book.internalId.isSome → book.eventRngPlan = none
  rooted : book.parentPublicId = root → ∀ plan, book.eventRngPlan = some plan →
    ∃ decisionPointId, book.decisionPointId = some decisionPointId ∧
      plan.hypothesisKey = (root, decisionPointId, book.rngId)
  used : book.internalId = none → branchId ∈ used ∧ book.parentPublicId ∈ used
  plan : ∀ plan, book.eventRngPlan = some plan → carried branchId = some plan
  inherited : book.internalId = none → book.parentPublicId ≠ root →
    carried branchId = carried book.parentPublicId

/-- A change that leaves what a record says of its origin, and makes no branch of an
    event live or change its hypothesis while it lives. -/
structure Follows (book book' : Book κ β) : Prop where
  parent : book'.parentPublicId = book.parentPublicId
  log : book'.branchLog = book.branchLog
  rngId : book'.rngId = book.rngId
  internalId : book'.internalId = book.internalId
  plan : book'.eventRngPlan = none ∨ book'.eventRngPlan = book.eventRngPlan
  live : book.internalId = none → book'.Live →
    book.Live ∧ book'.eventRngPlan = book.eventRngPlan

theorem Follows.refl (book : Book κ β) : book.Follows book :=
  ⟨rfl, rfl, rfl, rfl, .inr rfl, fun _ hlive => ⟨hlive, rfl⟩⟩

theorem Follows.plan_eq {book book' : Book κ β} (h : book.Follows book')
    {plan : EventRngReplayPlan} (hplan : book'.eventRngPlan = some plan) :
    book.eventRngPlan = some plan := by
  rcases h.plan with hnone | hsame
  · rw [hplan] at hnone
    cases hnone
  · exact hsame ▸ hplan

variable {used : Finset PyStr} {carried : PyStr → Option EventRngReplayPlan} {branchId : PyStr}

/-- A change that leaves the origin and ends no branch leaves the record placed. -/
theorem Placed.follow {book book' : Book κ β} (h : book.Placed used carried branchId)
    (hfollows : book.Follows book') : book'.Placed used carried branchId where
  held hinternal hlive := by
    rw [hfollows.internalId] at hinternal
    rcases hfollows.live hinternal hlive with ⟨hlive, hplan⟩
    exact hplan ▸ h.held hinternal hlive
  combat hinternal := by
    rw [hfollows.internalId] at hinternal
    rcases hfollows.plan with hnone | hsame
    · exact hnone
    · exact hsame.trans (h.combat hinternal)
  rooted hparent plan hplan := by
    unfold Book.decisionPointId
    rw [hfollows.log, hfollows.rngId]
    exact h.rooted (hfollows.parent ▸ hparent) plan (hfollows.plan_eq hplan)
  used hinternal := by
    rw [hfollows.parent]
    exact h.used (hfollows.internalId ▸ hinternal)
  plan plan hplan := h.plan plan (hfollows.plan_eq hplan)
  inherited hinternal hparent := by
    rw [hfollows.parent] at hparent ⊢
    exact h.inherited (hfollows.internalId ▸ hinternal) hparent

/-- Only a branch of an event has a hypothesis. -/
theorem Placed.internalId_none {book : Book κ β} (h : book.Placed used carried branchId)
    {plan : EventRngReplayPlan} (hplan : book.eventRngPlan = some plan) :
    book.internalId = none := by
  by_contra hinternal
  have hnone := h.combat (Option.isSome_iff_ne_none.mpr hinternal)
  rw [hplan] at hnone
  cases hnone

/-- What branches carried matters for those that were used. -/
theorem Placed.mono {book : Book κ β} (h : book.Placed used carried branchId)
    {used' : Finset PyStr} {carried' : PyStr → Option EventRngReplayPlan} (hused : used ⊆ used')
    (hcarried : ∀ branchId ∈ used, carried' branchId = carried branchId) :
    book.Placed used' carried' branchId where
  held := h.held
  combat := h.combat
  rooted := h.rooted
  used hinternal := ⟨hused (h.used hinternal).1, hused (h.used hinternal).2⟩
  plan plan hplan := by
    rw [hcarried _ (h.used (h.internalId_none hplan)).1]
    exact h.plan plan hplan
  inherited hinternal hparent := by
    rw [hcarried _ (h.used hinternal).1, hcarried _ (h.used hinternal).2]
    exact h.inherited hinternal hparent

end Book

namespace Instance

/-- A branch that lives is played under the hypothesis. -/
def References (inst : Instance W Φ κ β) (branchId : PyStr) (key : RngKey) : Prop :=
  ∃ book plan, inst.bookkeeping.get? branchId = some book ∧ book.Live ∧
    book.eventRngPlan = some plan ∧ plan.hypothesisKey = key

/-- The registry and the records agree. Only branches in `used` are of an event, and
    those carried a hypothesis. -/
structure SharedSince (used : Finset PyStr) (carried : PyStr → Option EventRngReplayPlan)
    (inst : Instance W Φ κ β) : Prop where
  placed : ∀ branchId book, inst.bookkeeping.get? branchId = some book →
    book.Placed used carried branchId
  refs : ∀ key branchId, branchId ∈ inst.eventRngRegistry.refsOf key ↔ inst.References branchId key
  states : ∀ branchId book plan, inst.bookkeeping.get? branchId = some book → book.Live →
    book.eventRngPlan = some plan → ∃ generation,
      inst.eventRngRegistry.entries.get? plan.hypothesisKey = some ⟨plan.overrideState, generation⟩

/-!
### Changes of the records

Each operation of the instance is a change of the registry and of a record. The agreement
is followed through the changes that do both.
-/

section Changes

variable {used : Finset PyStr} {carried : PyStr → Option EventRngReplayPlan}
  {inst : Instance W Φ κ β}

/-- The registry and the records are all that matters. -/
theorem SharedSince.congr (h : SharedSince used carried inst) {inst' : Instance W Φ κ β}
    (hbooks : inst'.bookkeeping = inst.bookkeeping)
    (hregistry : inst'.eventRngRegistry = inst.eventRngRegistry) :
    SharedSince used carried inst' := by
  constructor
  · rw [hbooks]
    exact h.placed
  · unfold References
    rw [hbooks, hregistry]
    exact h.refs
  · rw [hbooks, hregistry]
    exact h.states

theorem SharedSince.mono (h : SharedSince used carried inst) {used' : Finset PyStr}
    {carried' : PyStr → Option EventRngReplayPlan} (hused : used ⊆ used')
    (hcarried : ∀ branchId ∈ used, carried' branchId = carried branchId) :
    SharedSince used' carried' inst :=
  ⟨fun branchId book hbook => (h.placed branchId book hbook).mono hused hcarried, h.refs, h.states⟩

/-- A change of a record that leaves what it says of the hypothesis, and keeps a branch
    of an event alive or dead. -/
theorem SharedSince.modifyBook (h : SharedSince used carried inst) (branchId : PyStr)
    {change : Book κ β → Book κ β}
    (hchange : ∀ book, inst.bookkeeping.get? branchId = some book → book.Follows (change book))
    (hsame : ∀ book : Book κ β, (change book).eventRngPlan = book.eventRngPlan)
    (hlive : ∀ book, inst.bookkeeping.get? branchId = some book → book.internalId = none →
      book.Live → (change book).Live) :
    SharedSince used carried (modifyBook branchId change inst) := by
  have hget := fun other => get?_modifyBook branchId other change inst
  rcases modifyBook_eq branchId change inst with ⟨bookkeeping, heq⟩
  rw [heq] at hget ⊢
  dsimp only at hget
  have hbooks : ∀ other book', bookkeeping.get? other = some book' → ∃ book,
      inst.bookkeeping.get? other = some book ∧ book.Follows book' ∧
        book'.eventRngPlan = book.eventRngPlan := by
    intro other book' hbook'
    rw [hget other] at hbook'
    by_cases hother : other = branchId
    · rw [if_pos hother] at hbook'
      rcases Option.map_eq_some_iff.mp hbook' with ⟨book, hbook, rfl⟩
      exact ⟨book, hbook, hchange book (hother ▸ hbook), hsame book⟩
    · rw [if_neg hother] at hbook'
      exact ⟨book', hbook', .refl book', rfl⟩
  -- A live branch that holds a hypothesis held it before, alive.
  have hheld : ∀ {other book' plan}, bookkeeping.get? other = some book' → book'.Live →
      book'.eventRngPlan = some plan → ∃ book, inst.bookkeeping.get? other = some book ∧
        book.Live ∧ book.eventRngPlan = some plan := by
    intro other book' plan hbook' hlive' hplan
    rcases hbooks other book' hbook' with ⟨book, hbook, hfollows, hplan'⟩
    rw [hplan] at hplan'
    have hinternal := (h.placed other book hbook).internalId_none hplan'.symm
    exact ⟨book, hbook, (hfollows.live hinternal hlive').1, hplan'.symm⟩
  refine ⟨fun other book' hbook' => ?_, fun key other => ?_, fun other book' plan hbook' hlive'
    hplan => ?_⟩
  · rcases hbooks other book' hbook' with ⟨book, hbook, hfollows, -⟩
    exact (h.placed other book hbook).follow hfollows
  · rw [h.refs key other]
    constructor
    · rintro ⟨book, plan, hbook, hlive', hplan, hkey⟩
      by_cases hother : other = branchId
      · subst hother
        have hinternal := (h.placed other book hbook).internalId_none hplan
        refine ⟨change book, plan, ?_, hlive book hbook hinternal hlive', (hsame book).trans hplan,
          hkey⟩
        rw [hget other, if_pos rfl, hbook, Option.map_some]
      · exact ⟨book, plan, by rw [hget other, if_neg hother]; exact hbook, hlive', hplan, hkey⟩
    · rintro ⟨book', plan, hbook', hlive', hplan, hkey⟩
      rcases hheld hbook' hlive' hplan with ⟨book, hbook, hlive', hplan⟩
      exact ⟨book, plan, hbook, hlive', hplan, hkey⟩
  · rcases hheld hbook' hlive' hplan with ⟨book, hbook, hlive', hplan⟩
    exact h.states other book plan hbook hlive' hplan

/-- The records after a branch has ended. -/
theorem get?_endBranch (branchId other : PyStr) (change : Book κ β → Book κ β) :
    (releaseEventRngReference branchId (modifyBook branchId change inst)).bookkeeping.get? other =
      if other = branchId then (inst.bookkeeping.get? other).map fun book =>
        { change book with eventRngPlan := none }
      else inst.bookkeeping.get? other := by
  have hget := fun other => get?_modifyBook branchId other change inst
  rcases modifyBook_eq branchId change inst with ⟨bookkeeping, heq⟩
  rw [heq] at hget ⊢
  dsimp only at hget
  unfold releaseEventRngReference
  dsimp only
  cases hplan : (bookkeeping.get? branchId).bind Book.eventRngPlan with
  | none =>
      dsimp only
      rw [hget other]
      by_cases hother : other = branchId
      · rw [if_pos hother, if_pos hother]
        subst hother
        rw [hget other, if_pos rfl] at hplan
        -- Without a plan there is nothing to take out of the record.
        refine Option.map_congr fun book hbook => ?_
        rw [hbook, Option.map_some, Option.bind_some] at hplan
        exact (congrArg (fun plan => { change book with eventRngPlan := plan })
          hplan.symm).symm ▸ rfl
      · rw [if_neg hother, if_neg hother]
  | some plan =>
      dsimp only
      rw [get?_modifyBook]
      dsimp only
      rw [hget other]
      by_cases hother : other = branchId
      · rw [if_pos hother, if_pos hother, if_pos hother, Option.map_map]
        rfl
      · rw [if_neg hother, if_neg hother, if_neg hother]

/-- The registry after a branch has ended. -/
theorem registry_endBranch (branchId : PyStr) {change : Book κ β → Book κ β}
    (hchange : ∀ book : Book κ β, (change book).eventRngPlan = book.eventRngPlan) :
    (releaseEventRngReference branchId (modifyBook branchId change inst)).eventRngRegistry =
      match (inst.bookkeeping.get? branchId).bind Book.eventRngPlan with
      | none => inst.eventRngRegistry
      | some plan => inst.eventRngRegistry.releaseBranch plan.hypothesisKey branchId := by
  have hget := get?_modifyBook branchId branchId change inst
  rcases modifyBook_eq branchId change inst with ⟨bookkeeping, heq⟩
  rw [heq] at hget ⊢
  rw [if_pos rfl] at hget
  dsimp only at hget
  -- The change of the book leaves its plan, so the reference released is the one it had.
  have hplan : (bookkeeping.get? branchId).bind Book.eventRngPlan =
      (inst.bookkeeping.get? branchId).bind Book.eventRngPlan := by
    rw [hget]
    cases inst.bookkeeping.get? branchId with
    | none => rfl
    | some book => exact hchange book
  unfold releaseEventRngReference
  dsimp only
  rw [hplan]
  cases (inst.bookkeeping.get? branchId).bind Book.eventRngPlan with
  | none => rfl
  -- Taking the plan out of the book changes no registry.
  | some plan =>
      rcases modifyBook_eq branchId (fun book : Book κ β => { book with eventRngPlan := none })
        { inst with
          bookkeeping
          eventRngRegistry := inst.eventRngRegistry.releaseBranch plan.hypothesisKey branchId } with
        ⟨bookkeeping', heq'⟩
      dsimp only
      rw [heq']

/-- A change that ends a branch. -/
structure EndsBranch (change : Book κ β → Book κ β) : Prop where
  parent : ∀ book, (change book).parentPublicId = book.parentPublicId
  log : ∀ book, (change book).branchLog = book.branchLog
  rngId : ∀ book, (change book).rngId = book.rngId
  internalId : ∀ book, (change book).internalId = book.internalId
  plan : ∀ book, (change book).eventRngPlan = book.eventRngPlan
  dead : ∀ book, ¬ (change book).Live

/-- A branch that ends lets go of its hypothesis. -/
theorem SharedSince.endBranch (h : SharedSince used carried inst) {others : Finset PyStr}
    (howned : inst.eventRngRegistry.Owned others) (branchId : PyStr)
    {change : Book κ β → Book κ β} (hchange : EndsBranch change) :
    SharedSince used carried (releaseEventRngReference branchId
      (Instance.modifyBook branchId change inst)) := by
  have hget : ∀ other, (releaseEventRngReference branchId
      (inst.modifyBook branchId change)).bookkeeping.get? other = _ :=
    fun other => get?_endBranch branchId other change
  have hregistry : (releaseEventRngReference branchId
      (inst.modifyBook branchId change)).eventRngRegistry = _ :=
    registry_endBranch branchId hchange.plan
  generalize releaseEventRngReference branchId (Instance.modifyBook branchId change inst) = ended
    at hget hregistry ⊢
  -- The other branches hold on to what they held on to.
  have hholds : ∀ key other, other ∈ ended.eventRngRegistry.refsOf key ↔
      other ≠ branchId ∧ other ∈ inst.eventRngRegistry.refsOf key := by
    intro key other
    have hnot : other = branchId → other ∈ inst.eventRngRegistry.refsOf key → ∃ plan,
        (inst.bookkeeping.get? branchId).bind Book.eventRngPlan = some plan ∧
          plan.hypothesisKey = key := by
      rintro rfl hmem
      rcases (h.refs key other).mp hmem with ⟨book, plan, hbook, -, hplan, hkey⟩
      exact ⟨plan, by rw [hbook, Option.bind_some, hplan], hkey⟩
    rw [hregistry]
    cases hplan : (inst.bookkeeping.get? branchId).bind Book.eventRngPlan with
    | none =>
        refine ⟨fun hmem => ⟨fun heq => ?_, hmem⟩, fun hmem => hmem.2⟩
        rcases hnot heq hmem with ⟨plan, hsome, -⟩
        rw [hplan] at hsome
        cases hsome
    | some plan =>
        dsimp only
        rw [EventRngHypothesisRegistry.refsOf_releaseBranch]
        by_cases hkey : key = plan.hypothesisKey
        · rw [if_pos hkey, Finset.mem_erase, hkey]
        · rw [if_neg hkey]
          refine ⟨fun hmem => ⟨fun heq => ?_, hmem⟩, fun hmem => hmem.2⟩
          rcases hnot heq hmem with ⟨plan', hsome, hkey'⟩
          rw [hplan] at hsome
          cases hsome
          exact hkey hkey'.symm
  have hrefs : ∀ key other, other ∈ ended.eventRngRegistry.refsOf key ↔
      ended.References other key := by
    intro key other
    rw [hholds key other, h.refs key other]
    unfold References
    rw [hget other]
    by_cases hother : other = branchId
    · rw [if_pos hother]
      refine ⟨fun hmem => absurd hother hmem.1, ?_⟩
      rintro ⟨book, plan, hbook, -, hplan, -⟩
      rcases Option.map_eq_some_iff.mp hbook with ⟨old, -, rfl⟩
      cases hplan
    · rw [if_neg hother]
      exact ⟨fun hmem => hmem.2, fun hrefs => ⟨hother, hrefs⟩⟩
  refine ⟨fun other book' hbook' => ?_, hrefs, fun other book plan hbook hlive hplan => ?_⟩
  · rw [hget other] at hbook'
    by_cases hother : other = branchId
    · rw [if_pos hother] at hbook'
      rcases Option.map_eq_some_iff.mp hbook' with ⟨book, hbook, rfl⟩
      exact (h.placed other book hbook).follow ⟨hchange.parent book, hchange.log book,
        hchange.rngId book, hchange.internalId book, .inl rfl,
        fun _ hlive => absurd hlive (hchange.dead book)⟩
    · rw [if_neg hother] at hbook'
      exact h.placed other book' hbook'
  · have hheld : ∃ holder, holder ∈ ended.eventRngRegistry.refsOf plan.hypothesisKey :=
      ⟨other, (hrefs _ other).mpr ⟨book, plan, hbook, hlive, hplan, rfl⟩⟩
    have hother : other ≠ branchId := by
      rintro rfl
      rw [hget other, if_pos rfl] at hbook
      rcases Option.map_eq_some_iff.mp hbook with ⟨old, -, rfl⟩
      cases hplan
    rw [hget other, if_neg hother] at hbook
    rcases h.states other book plan hbook hlive hplan with ⟨generation, hentry⟩
    refine ⟨generation, ?_⟩
    rw [hregistry] at hheld ⊢
    cases hending : (inst.bookkeeping.get? branchId).bind Book.eventRngPlan with
    | none => exact hentry
    | some ending =>
        rw [hending] at hheld
        dsimp only at hheld ⊢
        rw [EventRngHypothesisRegistry.get?_releaseBranch howned hheld]
        exact hentry

/-- All branches end, and the registry is emptied. -/
theorem SharedSince.retire (h : SharedSince used carried inst) :
    SharedSince used carried (retireBooks inst) := by
  have hget : ∀ branchId, (retireBooks inst).bookkeeping.get? branchId =
      (inst.bookkeeping.get? branchId).map retiredBook := fun branchId =>
    Dict.get?_mapVals _ _ _
  have hdead : ∀ book : Book κ β, ¬ (retiredBook book).Live := by
    intro book hlive
    unfold retiredBook Book.Live at hlive
    by_cases hends : book.status = .cancelled ∨ book.status = .released
    · rcases hends with hstatus | hstatus <;> simp [hstatus] at hlive
    · simp [hends] at hlive
  have hnone : ∀ branchId book, (retireBooks inst).bookkeeping.get? branchId = some book →
      ¬ book.Live := by
    intro branchId book hbook
    rw [hget] at hbook
    rcases Option.map_eq_some_iff.mp hbook with ⟨old, -, rfl⟩
    exact hdead old
  refine ⟨fun branchId book' hbook' => ?_, fun key branchId => ?_,
    fun branchId book plan hbook hlive => absurd hlive (hnone branchId book hbook)⟩
  · rw [hget] at hbook'
    rcases Option.map_eq_some_iff.mp hbook' with ⟨book, hbook, rfl⟩
    exact (h.placed branchId book hbook).follow ⟨rfl, rfl, rfl, rfl, .inr rfl,
      fun _ hlive => absurd hlive (hdead book)⟩
  · refine ⟨fun hmem => (Finset.notMem_empty _ hmem).elim, ?_⟩
    rintro ⟨book, plan, hbook, hlive, -⟩
    exact absurd hlive (hnone branchId book hbook)

/-- A record that goes away, of a branch that is of no event. -/
theorem SharedSince.unregister (h : SharedSince used carried inst) {branchId : PyStr}
    (hnew : branchId ∉ used) : SharedSince used carried (unregister branchId inst) := by
  have hget : ∀ other, (Instance.unregister branchId inst).bookkeeping.get? other =
      if other = branchId then none else inst.bookkeeping.get? other := by
    intro other
    unfold Instance.unregister
    by_cases hother : other = branchId
    · rw [if_pos hother, hother]
      exact Dict.get?_erase_self _ _
    · rw [if_neg hother]
      exact Dict.get?_erase_ne _ hother
  have hold : ∀ {other book}, (Instance.unregister branchId inst).bookkeeping.get?
    other = some book →
      inst.bookkeeping.get? other = some book := by
    intro other book hbook
    rw [hget] at hbook
    split at hbook
    · cases hbook
    · exact hbook
  refine ⟨fun other book hbook => h.placed other book (hold hbook), fun key other => ?_,
    fun other book plan hbook hlive hplan => h.states other book plan (hold hbook) hlive hplan⟩
  refine (h.refs key other).trans ⟨?_, ?_⟩
  · rintro ⟨book, plan, hbook, hlive, hplan, hkey⟩
    have hother : other ≠ branchId := by
      rintro rfl
      have hplaced := h.placed other book hbook
      exact hnew (hplaced.used (hplaced.internalId_none hplan)).1
    exact ⟨book, plan, by rw [hget, if_neg hother]; exact hbook, hlive, hplan, hkey⟩
  · rintro ⟨book, plan, hbook, hlive, hplan, hkey⟩
    exact ⟨book, plan, hold hbook, hlive, hplan, hkey⟩

/-- A branch of a combat gets its record. -/
theorem SharedSince.registeredAs (h : SharedSince used carried inst)
    (prepared : PreparedCombat κ β) (internalId : String)
    (hnew : inst.bookkeeping.get? prepared.item.branchId = none) :
    SharedSince used carried (registeredAs prepared internalId inst) := by
  have hget : ∀ other, (Instance.registeredAs prepared internalId inst).bookkeeping.get? other =
      if other = prepared.item.branchId then some _ else inst.bookkeeping.get? other :=
    fun other => Dict.get?_set _ _ _ _
  -- A branch of a combat has no plan, so a book with one was there before.
  have hplan : ∀ {other book plan}, (Instance.registeredAs prepared internalId
    inst).bookkeeping.get?
      other = some book → book.eventRngPlan = some plan → inst.bookkeeping.get? other =
        some book := by
    intro other book plan hbook hplan
    rw [hget] at hbook
    split at hbook
    · cases hbook
      cases hplan
    · exact hbook
  refine ⟨fun other book hbook => ?_, fun key other => ?_, fun other book plan hbook hlive hsome =>
    h.states other book plan (hplan hbook hsome) hlive hsome⟩
  · rw [hget] at hbook
    split at hbook
    · cases hbook
      exact ⟨fun hinternal => (by cases hinternal), fun _ => rfl, fun _ _ hplan => (by cases hplan),
        fun hinternal => (by cases hinternal), fun _ hplan => (by cases hplan),
        fun hinternal => by cases hinternal⟩
    · exact h.placed other book hbook
  -- The references are the ones there were.
  · refine (h.refs key other).trans ⟨?_, ?_⟩
    · rintro ⟨book, plan, hbook, hlive, hsome, hkey⟩
      have hother : other ≠ prepared.item.branchId := by
        rintro rfl
        rw [hbook] at hnew
        cases hnew
      exact ⟨book, plan, by rw [hget, if_neg hother]; exact hbook, hlive, hsome, hkey⟩
    · rintro ⟨book, plan, hbook, hlive, hsome, hkey⟩
      exact ⟨book, plan, hplan hbook hsome, hlive, hsome, hkey⟩

end Changes

/-!
### What is prepared

A prepared branch has a plan whose state is the registry's, because it took it from there
or from its parent, or because there was none and it derived it.
-/

section Prepare

variable {env : RunEnv W Φ κ β} {used later : Finset PyStr}
  {carried : PyStr → Option EventRngReplayPlan} {inst : Instance W Φ κ β}

/-- The state in the plan of a branch is that of its hypothesis, and its parent carried
    the same plan. -/
structure Grounded (used : Finset PyStr) (carried : PyStr → Option EventRngReplayPlan)
    (inst : Instance W Φ κ β) (prepared : PreparedEvent κ β) (plan : EventRngReplayPlan) :
    Prop where
  held : prepared.book.eventRngPlan = some plan
  event : prepared.book.internalId = none
  live : prepared.book.Live
  rooted : prepared.book.parentPublicId = root → ∃ decisionPointId,
    prepared.book.decisionPointId = some decisionPointId ∧
      plan.hypothesisKey = (root, decisionPointId, prepared.book.rngId)
  known : prepared.book.parentPublicId ∈ used
  inherited : prepared.book.parentPublicId ≠ root →
    carried prepared.book.parentPublicId = some plan
  state : ∀ entry, inst.eventRngRegistry.entries.get? plan.hypothesisKey = some entry →
    entry.state = plan.overrideState

/-- The record of a prepared branch, with its plan. -/
theorem book_of_prepared {spec : BranchSpec} {prepared : PreparedEvent κ β}
    (h : prepareEventBranch env inst spec = .ok prepared) :
    ∃ plan, eventRngPlanFor env inst spec = .ok plan ∧ prepared.book =
      { parentPublicId := spec.item.parentBranchId
        branchLog := inst.branchLogFor spec.item
        history := inst.parentHistory spec.item.parentBranchId
        rngId := spec.item.rngId
        eventRngPlan := some plan } := by
  rcases (Except.map_eq_ok _ _ _).mp h with ⟨plan, hplan, rfl⟩
  exact ⟨plan, hplan, rfl⟩

/-- Under the root a plan is that of the hypothesis, or a new one. -/
theorem plan_of_root {spec : BranchSpec} (hroot : spec.item.parentBranchId = root)
    {plan : EventRngReplayPlan} (h : eventRngPlanFor env inst spec = .ok plan) :
    plan.hypothesisKey = (root, spec.item.decisionPointId, spec.item.rngId) ∧
      ∃ base, spec.parentView.eventRngState = some base ∧
        inst.eventRngRegistry.prepareState env.sha256 plan.hypothesisKey base spec.item.rngId =
          .ok plan.overrideState := by
  unfold eventRngPlanFor at h
  rw [if_pos hroot, hroot] at h
  rcases hbase : spec.parentView.eventRngState with _ | base
  · rw [hbase] at h
    cases h
  · rw [hbase] at h
    rcases (Except.map_eq_ok _ _ _).mp h with ⟨state, hstate, rfl⟩
    exact ⟨rfl, base, rfl, hstate⟩

/-- Elsewhere it is that of the parent, which lives. -/
theorem plan_of_parent {spec : BranchSpec} (hroot : spec.item.parentBranchId ≠ root)
    (hviewed : Viewed inst spec.item.parentBranchId spec.parentView) {plan : EventRngReplayPlan}
    (h : eventRngPlanFor env inst spec = .ok plan) :
    ∃ book, inst.bookkeeping.get? spec.item.parentBranchId = some book ∧ book.Live ∧
      book.eventRngPlan = some plan := by
  unfold Viewed at hviewed
  unfold eventRngPlanFor at h
  rw [if_neg hroot] at hviewed h
  rcases book_of_bookViewFor hviewed with ⟨book, hbook, -, hlive⟩
  rw [hbook, Option.bind_some] at h
  rcases hplan : book.eventRngPlan with _ | plan'
  · rw [hplan] at h
    cases h
  · rw [hplan] at h
    cases h
    exact ⟨book, hbook, ⟨fun hstatus => hlive (.inr (.inr hstatus)),
      fun hstatus => hlive (.inl hstatus), fun hstatus => hlive (.inr (.inl hstatus))⟩, hplan⟩

/-- What is prepared is grounded. -/
theorem grounded_of_prepared (hknown : KnownSince used later inst)
    (h : SharedSince used carried inst) {prepared : PreparedEvent κ β}
    (hfrom : PreparedFrom env inst prepared) :
    ∃ plan, Grounded used carried inst prepared plan := by
  rcases book_of_prepared hfrom.built with ⟨plan, hplan, hbook⟩
  have hlive : prepared.book.Live := by
    rw [hbook]
    exact ⟨nofun, nofun, nofun⟩
  have hdecision : prepared.book.decisionPointId = some prepared.spec.item.decisionPointId := by
    rw [hbook]
    unfold Book.decisionPointId branchLogFor
    simp
  -- Under the root the key is the one of the decision, and the state is the entry's if there is
  -- one.
  by_cases hroot : prepared.spec.item.parentBranchId = root
  · rcases plan_of_root hroot hplan with ⟨hkey, base, -, hstate⟩
    refine ⟨plan, by rw [hbook], by rw [hbook], hlive, fun _ => ⟨_, hdecision, ?_⟩, ?_, ?_, ?_⟩
    · rw [hkey, hbook]
    · rw [hbook]
      exact hroot ▸ hknown.root
    · rw [hbook]
      exact fun hne => absurd hroot hne
    · intro entry hentry
      unfold EventRngHypothesisRegistry.prepareState at hstate
      rw [hentry] at hstate
      exact Except.ok.inj hstate
  -- Under a branch the plan is the parent's, and the parent is live, so its entry is there.
  · rcases plan_of_parent hroot hfrom.viewed hplan with ⟨parent, hparent, hparentLive, hheld⟩
    have hplaced := h.placed _ parent hparent
    rcases h.states _ parent plan hparent hparentLive hheld with ⟨generation, hentry⟩
    refine ⟨plan, by rw [hbook], by rw [hbook], hlive, ?_, ?_, ?_, ?_⟩
    · rw [hbook]
      exact fun heq => absurd heq hroot
    · rw [hbook]
      exact (hplaced.used (hplaced.internalId_none hheld)).1
    · rw [hbook]
      exact fun _ => hplaced.plan plan hheld
    · intro entry hentry'
      rw [hentry] at hentry'
      cases hentry'
      rfl

/-- Branches of one batch with one hypothesis have one state. -/
def Consistent (batch : List (PreparedEvent κ β)) : Prop :=
  ∀ prepared ∈ batch, ∀ prepared' ∈ batch, ∀ plan plan',
    prepared.book.eventRngPlan = some plan → prepared'.book.eventRngPlan = some plan' →
      plan.hypothesisKey = plan'.hypothesisKey → plan.overrideState = plan'.overrideState

/-- The root has one view, so what is derived from it is the same. -/
theorem consistent_of_prepared (hknown : KnownSince used later inst)
    (h : SharedSince used carried inst) {batch : List (PreparedEvent κ β)}
    (hfrom : ∀ prepared ∈ batch, PreparedFrom env inst prepared) (hone : OneView batch) :
    Consistent batch := by
  intro prepared hprepared prepared' hprepared' plan plan' hheld hheld' hkey
  rcases grounded_of_prepared hknown h (hfrom prepared hprepared) with ⟨plan₁, hground⟩
  rcases grounded_of_prepared hknown h (hfrom prepared' hprepared') with ⟨plan₂, hground'⟩
  obtain rfl : plan₁ = plan := Option.some.inj (hground.held.symm.trans hheld)
  obtain rfl : plan₂ = plan' := Option.some.inj (hground'.held.symm.trans hheld')
  cases hentry : inst.eventRngRegistry.entries.get? plan₁.hypothesisKey with
  | some entry =>
      exact (hground.state entry hentry).symm.trans (hground'.state entry (hkey ▸ hentry))
  | none =>
      -- There is no hypothesis yet, so both are under the root.
      have hroots : ∀ {entry : PreparedEvent κ β} {plan}, PreparedFrom env inst entry →
          entry.book.eventRngPlan = some plan →
          inst.eventRngRegistry.entries.get? plan.hypothesisKey = none →
          entry.spec.item.parentBranchId = root ∧
            plan.hypothesisKey = (root, entry.spec.item.decisionPointId, entry.spec.item.rngId) ∧
            ∃ base, entry.spec.parentView.eventRngState = some base ∧
              deriveEventRngHypothesis env.sha256 base entry.spec.item.rngId =
                .ok plan.overrideState := by
        intro entry plan hfrom hplan hnone
        rcases book_of_prepared hfrom.built with ⟨plan', hplan', hbook⟩
        rw [hbook] at hplan
        cases hplan
        by_cases hroot : entry.spec.item.parentBranchId = root
        · rcases plan_of_root hroot hplan' with ⟨hkey, base, hbase, hstate⟩
          unfold EventRngHypothesisRegistry.prepareState at hstate
          rw [hnone] at hstate
          exact ⟨hroot, hkey, base, hbase, hstate⟩
        · rcases plan_of_parent hroot hfrom.viewed hplan' with ⟨parent, hparent, hlive, hheld⟩
          rcases h.states _ parent plan hparent hlive hheld with ⟨generation, hsome⟩
          rw [hnone] at hsome
          cases hsome
      rcases hroots (hfrom _ hprepared) hheld hentry with ⟨hroot, hkey₁, base, hbase, hderive⟩
      rcases hroots (hfrom _ hprepared') hheld' (hkey ▸ hentry) with
        ⟨hroot', hkey₂, base', hbase', hderive'⟩
      have hrng : prepared.spec.item.rngId = prepared'.spec.item.rngId := by
        rw [hkey₁, hkey₂] at hkey
        exact congrArg (fun key : RngKey => key.2.2) hkey
      rw [hone _ hprepared _ hprepared' (hroot.trans hroot'.symm), hbase'] at hbase
      cases hbase
      rw [hrng, hderive'] at hderive
      exact (Except.ok.inj hderive).symm

end Prepare

/-!
### What is committed

A batch is committed one branch after the other, and the ones that are still to come have
to stay grounded: they may share a hypothesis with one that was committed before.
-/

section Commit

variable {used later : Finset PyStr} {carried : PyStr → Option EventRngReplayPlan}
  {inst : Instance W Φ κ β}

/-- The records and the registry agree, where those in `later` have their records from a
    batch of a combat. -/
structure Agreed (used : Finset PyStr) (carried : PyStr → Option EventRngReplayPlan)
    (later : Finset PyStr) (inst : Instance W Φ κ β) : Prop where
  known : KnownSince used later inst
  shared : SharedSince used carried inst
  fresh : Disjoint later used

/-- The plans that branches carried, with one branch more. -/
def carriedAs (carried : PyStr → Option EventRngReplayPlan) (prepared : PreparedEvent κ β)
    (branchId : PyStr) : Option EventRngReplayPlan :=
  if branchId = prepared.spec.item.branchId then prepared.book.eventRngPlan else carried branchId

theorem carriedAs_of_used {prepared : PreparedEvent κ β}
    (hnew : prepared.spec.item.branchId ∉ used) :
    ∀ branchId ∈ used, carriedAs carried prepared branchId = carried branchId :=
  fun _ hbranch => if_neg (ne_of_mem_of_not_mem hbranch hnew)

variable {prepared : PreparedEvent κ β} {plan : EventRngReplayPlan}
  {registry : EventRngHypothesisRegistry}

/-- A branch begins, and holds on to its hypothesis. -/
theorem SharedSince.committedAs (h : SharedSince used carried inst)
    (howned : inst.eventRngRegistry.Owned used) (hnew : prepared.spec.item.branchId ∉ used)
    (hground : Grounded used carried inst prepared plan) (hholds : Holds prepared inst registry) :
    SharedSince (insert prepared.spec.item.branchId used) (carriedAs carried prepared)
      (committedAs prepared registry inst) := by
  -- The one new book is the branch's own.
  have hget : ∀ other, (Instance.committedAs prepared registry inst).bookkeeping.get? other =
      if other = prepared.spec.item.branchId then some prepared.book
      else inst.bookkeeping.get? other := fun other => Dict.get?_set _ _ _ _
  have hcommit : inst.eventRngRegistry.commitBranch plan.hypothesisKey plan.overrideState
      prepared.spec.item.branchId = .ok registry := by
    unfold Holds at hholds
    rwa [hground.held] at hholds
  rcases EventRngHypothesisRegistry.get?_commitBranch hcommit with ⟨hentry, hothers⟩
  have hrefs := EventRngHypothesisRegistry.refsOf_commitBranch hcommit
  have hplaced := fun other book hbook => (h.placed other book hbook).mono
    (Finset.subset_insert prepared.spec.item.branchId used) (carriedAs_of_used hnew)
  refine ⟨fun other book hbook => ?_, fun key other => ?_,
    fun other book plan' hbook hlive hplan => ?_⟩
  -- It is placed as it was grounded.
  · rw [hget] at hbook
    split at hbook
    · rename_i hother
      cases hbook
      have hparent : prepared.book.parentPublicId ≠ prepared.spec.item.branchId :=
        fun heq => hnew (heq ▸ hground.known)
      have hcarried : carriedAs carried prepared other = some plan :=
        (if_pos hother).trans hground.held
      refine ⟨fun _ _ => by rw [hground.held]; rfl, fun hinternal => ?_,
        fun hroot plan' hplan' => ?_,
        fun _ => ⟨hother ▸ Finset.mem_insert_self _ _, Finset.mem_insert_of_mem hground.known⟩,
        fun plan' hplan' => ?_, fun _ hroot => ?_⟩
      · rw [hground.event] at hinternal
        cases hinternal
      · rw [hground.held] at hplan'
        cases hplan'
        exact hground.rooted hroot
      · rw [hcarried, ← hground.held, hplan']
      · rw [hcarried]
        exact ((if_neg hparent).trans (hground.inherited hroot)).symm
    · exact hplaced other book hbook
  -- Its reference is the one that was added.
  · refine show other ∈ registry.refsOf key ↔ _ from ?_
    have hbranch : prepared.spec.item.branchId ∉ inst.eventRngRegistry.refsOf key :=
      fun hmem => hnew (howned.refsOf_subset key hmem)
    have hmem : other ∈ registry.refsOf key ↔ (other = prepared.spec.item.branchId ∧
        key = plan.hypothesisKey) ∨ other ∈ inst.eventRngRegistry.refsOf key := by
      rw [hrefs]
      by_cases hkey : key = plan.hypothesisKey
      · rw [if_pos hkey, Finset.mem_insert, hkey]
        simp
      · rw [if_neg hkey]
        simp [hkey]
    rw [hmem, h.refs key other]
    unfold References
    rw [hget]
    by_cases hother : other = prepared.spec.item.branchId
    · rw [if_pos hother]
      constructor
      · rintro (⟨-, hkey⟩ | hrefs)
        · exact ⟨prepared.book, plan, rfl, hground.live, hground.held, hkey.symm⟩
        · exact absurd ((h.refs key other).mpr hrefs) (hother ▸ hbranch)
      · rintro ⟨book, plan', hbook, -, hplan', hkey⟩
        cases hbook
        rw [hground.held] at hplan'
        cases hplan'
        exact .inl ⟨hother, hkey.symm⟩
    · rw [if_neg hother]
      simp [hother]
  -- Every live plan has its entry, the new one included.
  · refine show ∃ generation, registry.entries.get? plan'.hypothesisKey =
      some ⟨plan'.overrideState, generation⟩ from ?_
    rw [hget] at hbook
    split at hbook
    · cases hbook
      rw [hground.held] at hplan
      cases hplan
      exact hentry
    · rcases h.states other book plan' hbook hlive hplan with ⟨generation, hlive⟩
      exact ⟨generation, (hothers _ (.inr (by rw [hlive]; rfl))).trans hlive⟩

theorem Agreed.committedAs (h : Agreed used carried ∅ inst)
    (hnew : prepared.spec.item.branchId ∉ inst.branchIds.everUsed)
    (hground : Grounded used carried inst prepared plan) (hholds : Holds prepared inst registry) :
    Agreed (insert prepared.spec.item.branchId used) (carriedAs carried prepared) ∅
      (committedAs prepared registry inst) :=
  ⟨h.known.committedAs hholds, h.shared.committedAs h.known.registry
    (fun hmem => hnew (h.known.known hmem)) hground hholds, Finset.disjoint_empty_left _⟩

/-- The branches that are still to come stay grounded. -/
theorem Grounded.committedAs {prepared' : PreparedEvent κ β} {plan' : EventRngReplayPlan}
    (h : Grounded used carried inst prepared' plan')
    (hground : Grounded used carried inst prepared plan) (hnew : prepared.spec.item.branchId ∉ used)
    (hholds : Holds prepared inst registry)
    (hstate : plan.hypothesisKey = plan'.hypothesisKey →
      plan.overrideState = plan'.overrideState) :
    Grounded (insert prepared.spec.item.branchId used) (carriedAs carried prepared)
      (committedAs prepared registry inst) prepared' plan' where
  held := h.held
  event := h.event
  live := h.live
  rooted := h.rooted
  known := Finset.mem_insert_of_mem h.known
  inherited hroot := (carriedAs_of_used hnew _ h.known).trans (h.inherited hroot)
  state entry hentry := by
    have hentry : registry.entries.get? plan'.hypothesisKey = some entry := hentry
    unfold Holds at hholds
    rw [hground.held] at hholds
    rcases EventRngHypothesisRegistry.get?_commitBranch hholds with ⟨⟨generation, hkey⟩, hothers⟩
    by_cases hsame : plan'.hypothesisKey = plan.hypothesisKey
    · rw [hsame, hkey] at hentry
      cases hentry
      exact hstate hsame.symm
    · rw [hothers _ (.inl hsame)] at hentry
      exact h.state entry hentry

theorem Consistent.tail {rest : List (PreparedEvent κ β)} (h : Consistent (prepared :: rest)) :
    Consistent rest :=
  fun entry hentry entry' hentry' =>
    h entry (List.mem_cons_of_mem _ hentry) entry' (List.mem_cons_of_mem _ hentry')

theorem grounded_tail {rest : List (PreparedEvent κ β)}
    (hground : ∀ entry ∈ prepared :: rest, ∃ plan, Grounded used carried inst entry plan)
    (hconsistent : Consistent (prepared :: rest)) (hnew : prepared.spec.item.branchId ∉ used)
    (hholds : Holds prepared inst registry) :
    ∀ entry ∈ rest, ∃ plan, Grounded (insert prepared.spec.item.branchId used)
      (carriedAs carried prepared) (committedAs prepared registry inst) entry plan := by
  intro entry hentry
  rcases hground prepared List.mem_cons_self with ⟨plan, hfirst⟩
  rcases hground entry (List.mem_cons_of_mem _ hentry) with ⟨plan', hentry'⟩
  exact ⟨plan', hentry'.committedAs hfirst hnew hholds (hconsistent _ List.mem_cons_self _
    (List.mem_cons_of_mem _ hentry) plan plan' hfirst.held hentry'.held)⟩

/-- More branches were used, and what the others carried is the same. -/
def AgreedAfter (used : Finset PyStr) (carried : PyStr → Option EventRngReplayPlan)
    (branchIds : Finset PyStr) (inst : Instance W Φ κ β) : Prop :=
  ∃ used' carried', used ⊆ used' ∧ (∀ branchId ∈ used, carried' branchId = carried branchId) ∧
    branchIds ⊆ used' ∧ Agreed used' carried' ∅ inst

theorem Agreed.after (h : Agreed used carried ∅ inst) : AgreedAfter used carried ∅ inst :=
  ⟨used, carried, subset_rfl, fun _ _ => rfl, Finset.empty_subset _, h⟩

/-- Branches that are committed one after another. -/
theorem CommittedChain.agreed {after : Instance W Φ κ β} {batch : List (PreparedEvent κ β)}
    (hchain : CommittedChain inst batch after) (h : Agreed used carried ∅ inst)
    (hground : ∀ prepared ∈ batch, ∃ plan, Grounded used carried inst prepared plan)
    (hconsistent : Consistent batch) :
    AgreedAfter used carried (batch.map fun entry => entry.spec.item.branchId).toFinset after := by
  induction hchain generalizing used carried with
  | nil => exact h.after
  | @cons inst after prepared rest registry hnew hholds hrest ih =>
      rcases hground prepared List.mem_cons_self with ⟨plan, hfirst⟩
      have hunused : prepared.spec.item.branchId ∉ used := fun hmem => hnew (h.known.known hmem)
      rcases ih (h.committedAs hnew hfirst hholds)
        (grounded_tail hground hconsistent hunused hholds)
        hconsistent.tail with ⟨used', carried', hsub, hsame, hids, hagreed⟩
      refine ⟨used', carried', (Finset.subset_insert _ _).trans hsub,
        fun branchId hbranch => ?_, ?_,
        hagreed⟩
      · exact (hsame branchId (Finset.mem_insert_of_mem hbranch)).trans
          (carriedAs_of_used hunused branchId hbranch)
      · rw [List.map_cons, List.toFinset_cons]
        exact Finset.insert_subset (hsub (Finset.mem_insert_self _ _)) hids

/-- A grounded branch is committed. -/
theorem commitPreparedBranch_grounded
    (hnew : prepared.spec.item.branchId ∉ inst.branchIds.everUsed)
    (hground : Grounded used carried inst prepared plan) : ∃ registry,
      Holds prepared inst registry ∧
        commitPreparedBranch prepared inst = (.ok (), committedAs prepared registry inst) := by
  rcases EventRngHypothesisRegistry.commitBranch_isOk prepared.spec.item.branchId hground.state with
    ⟨registry, hregistry⟩
  have hregister : inst.branchIds.register prepared.spec.item.branchId =
      .ok ⟨insert prepared.spec.item.branchId inst.branchIds.everUsed⟩ := by
    unfold BranchIdRegistry.register BranchIdRegistry.isKnown
    rw [if_neg (by simpa using hnew)]
  refine ⟨registry, by unfold Holds; rw [hground.held]; exact hregistry, ?_⟩
  unfold commitPreparedBranch
  rw [Act.get_bind, hregister, Act.bind_apply, Act.ofExcept_apply]
  dsimp only
  rw [Act.modify_bind, hground.held]
  have hhypothesis : (commitHypothesis prepared.spec.item.branchId (some plan)).onError
      (fun _ => Act.modify fun inst => { inst with
        branchIds := inst.branchIds.rollbackRegistration prepared.spec.item.branchId })
      { inst with branchIds := ⟨insert prepared.spec.item.branchId inst.branchIds.everUsed⟩ } =
      (.ok (), { inst with
        branchIds := ⟨insert prepared.spec.item.branchId inst.branchIds.everUsed⟩
        eventRngRegistry := registry }) := by
    unfold Act.onError commitHypothesis
    dsimp only
    rw [Act.get_bind, Act.bind_apply, Act.ofExcept_apply, hregistry]
    rfl
  rw [Act.bind_of_ok _ hhypothesis]
  rfl

/-- A grounded batch is committed. -/
theorem commitPrefix_grounded {batch : List (PreparedEvent κ β)} (h : Agreed used carried ∅ inst)
    (hnew : ∀ prepared ∈ batch, prepared.spec.item.branchId ∉ inst.branchIds.everUsed)
    (hids : (batch.map fun entry => entry.spec.item.branchId).Nodup)
    (hground : ∀ prepared ∈ batch, ∃ plan, Grounded used carried inst prepared plan)
    (hconsistent : Consistent batch) :
    ∃ after, commitPrefix batch inst = (.ok (batch, none), after) := by
  induction batch generalizing used carried inst with
  | nil => exact ⟨inst, rfl⟩
  | cons prepared rest ih =>
      -- The first is grounded, so its commit succeeds.
      rcases hground prepared List.mem_cons_self with ⟨plan, hfirst⟩
      rcases commitPreparedBranch_grounded (hnew prepared List.mem_cons_self) hfirst with
        ⟨registry, hholds, hcommit⟩
      have hunused : prepared.spec.item.branchId ∉ used :=
        fun hmem => hnew prepared List.mem_cons_self (h.known.known hmem)
      rw [List.map_cons, List.nodup_cons] at hids
      -- The ids of the rest are still new after it.
      have hnews : ∀ entry ∈ rest, entry.spec.item.branchId ∉
          (committedAs prepared registry inst).branchIds.everUsed := by
        intro entry hentry hmem
        rcases Finset.mem_insert.mp hmem with heq | hmem
        · exact hids.1 (heq ▸ List.mem_map_of_mem hentry)
        · exact hnew entry (List.mem_cons_of_mem _ hentry) hmem
      -- And the rest is still grounded, for the batch is consistent.
      rcases ih (h.committedAs (hnew prepared List.mem_cons_self) hfirst hholds) hnews hids.2
        (grounded_tail hground hconsistent hunused hholds) hconsistent.tail with ⟨after, hrest⟩
      refine ⟨after, ?_⟩
      unfold commitPrefix
      -- A commit that succeeds reports no failure to the loop.
      have hcatch : Act.catching (do
          commitPreparedBranch prepared
          pure none) (fun error => pure (some error)) inst =
          (.ok none, committedAs prepared registry inst) := by
        unfold Act.catching
        rw [Act.bind_of_ok _ hcommit]
        rfl
      rw [Act.bind_of_ok _ hcatch]
      dsimp only
      rw [Act.bind_of_ok _ hrest]
      rfl

end Commit

/-!
### The operations

The bundles of the operations, one for each way in which a request changes the instance.
-/

section Operations

variable (env : RunEnv W Φ κ β) (used : Finset PyStr) (carried : PyStr → Option EventRngReplayPlan)

/-- What leaves the registry and the records leaves the agreement. -/
theorem Agreed.congr {used : Finset PyStr} {carried : PyStr → Option EventRngReplayPlan}
    {later : Finset PyStr} {inst inst' : Instance W Φ κ β} (h : Agreed used carried later inst)
    (hknown : KnownSince used later inst') (hbooks : inst'.bookkeeping = inst.bookkeeping)
    (hregistry : inst'.eventRngRegistry = inst.eventRngRegistry) :
    Agreed used carried later inst' :=
  ⟨hknown, h.shared.congr hbooks hregistry, h.fresh⟩

/-- A change of a record that leaves its origin, its hypothesis and its status. -/
theorem Agreed.modifyBook {used : Finset PyStr} {carried : PyStr → Option EventRngReplayPlan}
    {later : Finset PyStr} {inst : Instance W Φ κ β} (h : Agreed used carried later inst)
    (branchId : PyStr) {change : Book κ β → Book κ β}
    (hchange : ∀ book : Book κ β, book.Follows (change book))
    (hplan : ∀ book : Book κ β, (change book).eventRngPlan = book.eventRngPlan)
    (hlive : ∀ book : Book κ β, book.Live → (change book).Live) :
    Agreed used carried later (modifyBook branchId change inst) :=
  ⟨h.known.modifyBook _ _, h.shared.modifyBook branchId (fun book _ => hchange book) hplan
    fun book _ _ => hlive book, h.fresh⟩

/-- The record of a branch of a combat is changed. -/
theorem Agreed.modifyCombat {used : Finset PyStr} {carried : PyStr → Option EventRngReplayPlan}
    {later : Finset PyStr} {inst : Instance W Φ κ β} (h : Agreed used carried later inst)
    (branchId : PyStr)
    (hcombat : ∀ book, inst.bookkeeping.get? branchId = some book → book.internalId ≠ none)
    {change : Book κ β → Book κ β}
    (hparent : ∀ book : Book κ β, (change book).parentPublicId = book.parentPublicId)
    (hlog : ∀ book : Book κ β, (change book).branchLog = book.branchLog)
    (hrng : ∀ book : Book κ β, (change book).rngId = book.rngId)
    (hinternal : ∀ book : Book κ β, (change book).internalId = book.internalId)
    (hplan : ∀ book : Book κ β, (change book).eventRngPlan = book.eventRngPlan) :
    Agreed used carried later (Instance.modifyBook branchId change inst) :=
  ⟨h.known.modifyBook _ _, h.shared.modifyBook branchId (fun book hbook =>
    ⟨hparent book, hlog book, hrng book, hinternal book, .inr (hplan book),
      fun hnone => absurd hnone (hcombat book hbook)⟩) hplan
    fun book hbook hnone => absurd hnone (hcombat book hbook), h.fresh⟩

theorem Agreed.endBranch {used : Finset PyStr} {carried : PyStr → Option EventRngReplayPlan}
    {later : Finset PyStr} {inst : Instance W Φ κ β} (h : Agreed used carried later inst)
    (branchId : PyStr) {change : Book κ β → Book κ β} (hchange : EndsBranch change) :
    Agreed used carried later
      (releaseEventRngReference branchId (Instance.modifyBook branchId change inst)) :=
  ⟨(h.known.modifyBook _ _).releaseEventRngReference _,
    h.shared.endBranch h.known.registry branchId hchange, h.fresh⟩

theorem endsBranch_ending {status : BookStatus}
    (hstatus : status = .faulted ∨ status = .cancelled ∨ status = .released) :
    EndsBranch fun book : Book κ β => { book with status, view := none } :=
  ⟨fun _ => rfl, fun _ => rfl, fun _ => rfl, fun _ => rfl, fun _ => rfl, fun _ hlive => by
    rcases hstatus with rfl | rfl | rfl
    · exact hlive.1 rfl
    · exact hlive.2.1 rfl
    · exact hlive.2.2 rfl⟩

theorem framed_agreed (later : Finset PyStr) :
    Framed (Agreed used carried later : Instance W Φ κ β → Prop) where
  session inst session h := h.congr ((steady_knownSince _ _).session inst session h.known) rfl rfl
  rootHistory inst history h :=
    h.congr ((steady_knownSince _ _).rootHistory inst history h.known) rfl rfl
  position inst snapshot room actions h :=
    h.congr ((steady_knownSince _ _).position inst snapshot room actions h.known) rfl rfl
  nextHolder inst holder h :=
    h.congr ((steady_knownSince _ _).nextHolder inst holder h.known) rfl rfl
  issue inst h := h.congr ((steady_knownSince _ _).issue inst h.known) rfl rfl
  observe _ branchId _ h := h.modifyBook branchId
    (fun _ => ⟨rfl, rfl, rfl, rfl, .inr rfl, fun _ hlive => ⟨hlive, rfl⟩⟩) (fun _ => rfl)
    fun _ hlive => hlive

theorem phase_agreed (later : Finset PyStr) (inst : Instance W Φ κ β) (session : Session W)
    (phase phase' : Phase Φ κ β) (hphase : inst.combatPhase = some phase)
    (h : Agreed used carried later inst) :
    Agreed used carried later { inst with session, combatPhase := some phase' } :=
  h.congr ((steady_knownSince _ _).phase inst session phase phase' hphase h.known) rfl rfl

/-- The operations on the records. -/
theorem stable_agreed : Stable env (Agreed used carried ∅ : Instance W Φ κ β → Prop) where
  toFramed := framed_agreed used carried ∅
  rootBranchLog inst _ _ h :=
    h.congr ((steady_knownSince _ _).rootBranchLog inst _ _ h.known) rfl rfl
  completion inst completion h :=
    h.congr ((steady_knownSince _ _).completion inst completion h.known) rfl rfl
  phase := phase_agreed used carried ∅
  install inst phase hfault h :=
    h.congr ((steady_knownSince _ _).install inst phase hfault h.known) rfl rfl
  leave inst h := h.congr ((steady_knownSince _ _).leave inst h.known) rfl rfl
  cancelBranch branchId := by
    have hinternal : ∀ internalId, Act.Keeps (Agreed used carried ∅)
        (cancelInternal env internalId : Op W Φ κ β Unit) := by
      intro internalId
      cases internalId with
      | none => exact .pure _
      | some internalId =>
          exact Act.Keeps.get.bind fun _ => (Act.Keeps.raiseIf _ _).bind fun _ =>
            keeps_onPhase (phase_agreed used carried ∅) _
    refine (keeps_rejectIfRoot branchId).bind fun _ => Act.Keeps.get.bind fun inst => ?_
    split
    · exact .raise _
    · exact .onlyIf fun _ => (hinternal _).bind fun _ =>
        .modify fun inst h => h.endBranch branchId (endsBranch_ending (.inr (.inl rfl)))
  releaseBranch branchId := by
    have hinternal : ∀ internalId, Act.Keeps (Agreed used carried ∅)
        (releaseInternal env branchId internalId : Op W Φ κ β Unit) := by
      intro internalId
      cases internalId with
      | none => exact .pure _
      | some internalId =>
          exact Act.Keeps.get.bind fun _ => (Act.Keeps.raiseIf _ _).bind fun _ =>
            (keeps_onPhase (phase_agreed used carried ∅) _).bind fun _ => .modify fun inst h =>
              h.congr ((steady_knownSince _ _).reservation inst branchId h.known) rfl rfl
    refine (keeps_rejectIfRoot branchId).bind fun _ => Act.Keeps.get.bind fun inst => ?_
    split
    · exact .raise _
    · exact .onlyIf fun _ => (hinternal _).bind fun _ =>
        .modify fun inst h => h.endBranch branchId (endsBranch_ending (.inr (.inr rfl)))
  readBranchStatus branchId := by
    -- A status is written for a branch of a combat only.
    refine (keeps_rejectIfRoot branchId).bind fun _ => fun inst h => ?_
    rw [Act.get_bind]
    cases hbook : inst.bookkeeping.get? branchId with
    | none => exact h
    | some book =>
        dsimp only
        cases hinternal : book.internalId with
        | none => exact h
        | some internalId =>
            dsimp only
            by_cases hstatus : book.status = .released
            · rw [if_pos hstatus]
              exact h
            rw [if_neg hstatus]
            let I : Instance W Φ κ β → Prop := fun inst => Agreed used carried ∅ inst ∧
              inst.bookkeeping.get? branchId = some book
            have hI : ∀ (inst : Instance W Φ κ β) session phase phase',
                inst.combatPhase = some phase → I inst →
                  I { inst with session, combatPhase := some phase' } :=
              fun inst session phase phase' hphase h =>
                ⟨phase_agreed used carried ∅ inst session phase phase' hphase h.1, h.2⟩
            have hcall : Act.Keeps I (onPhase
                (Phase.onBranches (env.phases.branches.branchStatus internalId)) : Op W Φ κ β _) :=
              keeps_onPhase hI _
            have hraise : Act.Keeps I
                (Act.raiseIf inst.combatPhase.isNone outlivedPhase : Op W Φ κ β Unit) :=
                  .raiseIf _ _
            refine Act.Triple.bind (Q := fun _ => I) (R := fun _ => Agreed used carried ∅)
              (E := fun _ => Agreed used carried ∅)
              (hraise.conseq (fun _ h => h) (fun _ _ h => h) fun _ _ h => h.1)
              (fun _ => .bind (Q := fun _ => I) (hcall.conseq (fun _ h => h) (fun _ _ h => h)
                fun _ _ h => h.1) fun status => .bind (Q := fun _ => Agreed used carried ∅)
                (.modify fun inst h => ?_) fun _ => .pure fun _ h => h) inst ⟨h, hbook⟩
            refine h.1.modifyCombat branchId (fun book' hbook' => ?_) (fun _ => rfl) (fun _ => rfl)
              (fun _ => rfl) (fun _ => rfl) fun _ => rfl
            rw [h.2] at hbook'
            cases hbook'
            rw [hinternal]
            exact nofun
  retire := by
    refine Act.Keeps.get.bind fun _ => .bind (.onlyIf fun _ => (Act.Keeps.raiseIf _ _).bind fun _ =>
      keeps_onPhase (phase_agreed used carried ∅) _) fun _ => .modify fun inst h => ?_
    exact ⟨(steady_knownSince _ _).retire inst h.known, h.shared.retire, h.fresh⟩

/-- A batch of a combat. -/
theorem combatBatched_agreed :
    CombatBatched (Agreed used carried : Finset PyStr → Instance W Φ κ β → Prop) (· ∉ used) where
  framed later := framed_agreed used carried later
  mono hsub h := ⟨h.known.mono hsub, h.shared, h.fresh.mono_left hsub⟩
  phase later := phase_agreed used carried later
  reserve later inst reservations h :=
    h.congr ((combatBatched_knownSince used).reserve later inst reservations h.known) rfl rfl
  register later prepared internalId inst hnew h := by
    refine ⟨h.known.registeredAs prepared internalId, h.shared.registeredAs prepared internalId ?_,
      Finset.disjoint_insert_left.mpr ⟨fun hmem => hnew (h.known.known hmem), h.fresh⟩⟩
    -- The id is new, so it has no book.
    cases hbook : inst.bookkeeping.get? prepared.item.branchId with
    | none => rfl
    | some book => exact absurd (h.known.books _ book hbook) hnew
  unregister _ _ hnew h :=
    ⟨unregister_knownSince h.known hnew, h.shared.unregister hnew, h.fresh⟩
  issue later branchId inst hbranch h :=
    h.congr ((combatBatched_knownSince used).issue later branchId inst hbranch h.known) rfl rfl
  settle later branchId change inst hbranch hchange h := by
    -- Every branch of the batch is one of a combat, hence none with a plan.
    have hcombat : ∀ book, inst.bookkeeping.get? branchId = some book → book.internalId ≠ none :=
      fun book hbook hnone => Finset.disjoint_left.mp h.fresh hbranch
        ((h.shared.placed branchId book hbook).used hnone).1
    cases hchange with
    | fault =>
        exact h.modifyCombat branchId hcombat (fun _ => rfl) (fun _ => rfl) (fun _ => rfl)
          (fun _ => rfl) fun _ => rfl
    | terminal =>
        exact h.modifyCombat branchId hcombat (fun _ => rfl) (fun _ => rfl) (fun _ => rfl)
          (fun _ => rfl) fun _ => rfl
    | outcome outcome =>
        exact h.modifyCombat branchId hcombat (fun _ => rfl) (fun _ => rfl) (fun _ => rfl)
          (fun _ => rfl) fun _ => rfl
    | view view =>
        exact h.modifyCombat branchId hcombat (fun _ => rfl) (fun _ => rfl) (fun _ => rfl)
          (fun _ => rfl) fun _ => rfl

theorem eventSettled_agreed {branchId : PyStr} (hbranch : branchId ∈ used) :
    EventSettled (Agreed used carried ∅ : Instance W Φ κ β → Prop) branchId where
  fault _ h := h.endBranch branchId ⟨fun _ => rfl, fun _ => rfl, fun _ => rfl, fun _ => rfl,
    fun _ => rfl, fun _ hlive => hlive.1 rfl⟩
  terminal _ _ h := h.modifyBook branchId
    (fun _ => ⟨rfl, rfl, rfl, rfl, .inr rfl, fun _ hlive => ⟨hlive, rfl⟩⟩) (fun _ => rfl)
    fun _ hlive => hlive
  issue _ h := h.congr ⟨h.known.root, h.known.known, h.known.registered, h.known.books,
    points_issue h.known.points (h.known.known hbranch), h.known.registry⟩ rfl rfl
  view _ _ h := h.modifyBook branchId
    (fun _ => ⟨rfl, rfl, rfl, rfl, .inr rfl, fun _ hlive => ⟨hlive, rfl⟩⟩) (fun _ => rfl)
    fun _ hlive => hlive

end Operations

/-!
### The requests

A request may use more branches than were used before, so along a run the agreement is one
about more branches.
-/

section Requests

variable (env : RunEnv W Φ κ β) {used branchIds : Finset PyStr}
  {carried : PyStr → Option EventRngReplayPlan} {inst : Instance W Φ κ β}

theorem AgreedAfter.map {inst' : Instance W Φ κ β} (h : AgreedAfter used carried branchIds inst)
    (hmap : ∀ used carried, Agreed used carried ∅ inst → Agreed used carried ∅ inst') :
    AgreedAfter used carried branchIds inst' := by
  rcases h with ⟨used', carried', hsub, hsame, hids, hagreed⟩
  exact ⟨used', carried', hsub, hsame, hids, hmap used' carried' hagreed⟩

theorem AgreedAfter.forget (h : AgreedAfter used carried branchIds inst) :
    AgreedAfter used carried ∅ inst := by
  rcases h with ⟨used', carried', hsub, hsame, -, hagreed⟩
  exact ⟨used', carried', hsub, hsame, Finset.empty_subset _, hagreed⟩

theorem AgreedAfter.trans {used' : Finset PyStr} {carried' : PyStr → Option EventRngReplayPlan}
    (hsub : used ⊆ used') (hsame : ∀ branchId ∈ used, carried' branchId = carried branchId)
    (h : AgreedAfter used' carried' branchIds inst) : AgreedAfter used carried branchIds inst := by
  rcases h with ⟨used₂, carried₂, hsub₂, hsame₂, hids, hagreed⟩
  exact ⟨used₂, carried₂, hsub.trans hsub₂, fun branchId hbranch =>
    (hsame₂ branchId (hsub hbranch)).trans (hsame branchId hbranch), hids, hagreed⟩

/-- What keeps the agreement, whatever branches were used, keeps it. -/
theorem keeps_agreedAfter {m : Op W Φ κ β α}
    (hm : ∀ used' carried', branchIds ⊆ used' → Act.Keeps (Agreed used' carried' ∅) m) :
    Act.Keeps (AgreedAfter used carried branchIds) m := by
  refine .of_after fun inst h => ?_
  rcases h with ⟨used', carried', hsub, hsame, hids, hagreed⟩
  exact ⟨used', carried', hsub, hsame, hids, (hm used' carried' hids).after hagreed⟩

/-- The operations that every request is made of. -/
theorem stable_agreedAfter (used : Finset PyStr) (carried : PyStr → Option EventRngReplayPlan) :
    Stable env (AgreedAfter used carried ∅ : Instance W Φ κ β → Prop) where
  session inst session h :=
    h.map fun used carried => (stable_agreed env used carried).session inst session
  rootHistory inst history h :=
    h.map fun used carried => (stable_agreed env used carried).rootHistory inst history
  position inst snapshot room actions h :=
    h.map fun used carried => (stable_agreed env used carried).position inst snapshot room actions
  rootBranchLog inst decisionPointId actionId h := h.map fun used carried =>
    (stable_agreed env used carried).rootBranchLog inst decisionPointId actionId
  nextHolder inst holder h :=
    h.map fun used carried => (stable_agreed env used carried).nextHolder inst holder
  issue inst h := h.map fun used carried => (stable_agreed env used carried).issue inst
  observe inst branchId roomContext h :=
    h.map fun used carried => (stable_agreed env used carried).observe inst branchId roomContext
  completion inst completion h :=
    h.map fun used carried => (stable_agreed env used carried).completion inst completion
  phase inst session phase phase' hphase h :=
    h.map fun used carried => (stable_agreed env used carried).phase inst session phase
      phase' hphase
  install inst phase hfault h :=
    h.map fun used carried => (stable_agreed env used carried).install inst phase hfault
  leave inst h := h.map fun used carried => (stable_agreed env used carried).leave inst
  cancelBranch branchId :=
    keeps_agreedAfter fun used carried _ => (stable_agreed env used carried).cancelBranch branchId
  releaseBranch branchId :=
    keeps_agreedAfter fun used carried _ => (stable_agreed env used carried).releaseBranch branchId
  readBranchStatus branchId :=
    keeps_agreedAfter fun used carried _ =>
      (stable_agreed env used carried).readBranchStatus branchId
  retire := keeps_agreedAfter fun used carried _ => (stable_agreed env used carried).retire

theorem poison_agreedAfter (phase : Option (Phase Φ κ β)) :
    Act.Keeps (AgreedAfter used carried ∅) (poisonCombatTransaction env phase) :=
  (stable_agreedAfter env used carried).poisonCombatTransaction env (fun _ _ h =>
    h.map fun _ _ h => h.congr ⟨h.known.root, h.known.known, h.known.registered, h.known.books,
      h.known.points, h.known.registry⟩ rfl rfl) phase

theorem emulateCombatPhaseActions_agreedAfter (items : List EmulateItem)
    (simulationOptions : Option Fields) :
    Act.Keeps (AgreedAfter used carried ∅)
      (emulateCombatPhaseActions env items simulationOptions) := by
  refine keeps_agreedAfter fun used carried _ => fun inst h => ?_
  have hfresh : ∀ branchId, branchId ∉ inst.branchIds.everUsed → branchId ∉ used :=
    fun _ hnew hmem => hnew (h.known.known hmem)
  exact (combatBatched_agreed used carried).emulateCombatPhaseActions env items simulationOptions
    hfresh inst ⟨rfl, h⟩

/-- What passes the checks has an id that was not used. -/
theorem new_of_prepared {prepared : PreparedEvent κ β} (hfrom : PreparedFrom env inst prepared) :
    prepared.spec.item.branchId ∉ inst.branchIds.everUsed := by
  have hvalid := hfrom.validated
  unfold validateEventBranch at hvalid
  split at hvalid
  · cases hvalid
  · rename_i hknown
    simpa [BranchIdRegistry.isKnown] using hknown

/-- One branch at an event is prepared, committed and dispatched. -/
theorem emulateEventAction_agreedAfter (item : EmulateItem) (simulationOptions : Option Fields) :
    Act.Keeps (AgreedAfter used carried ∅) (emulateEventAction env item simulationOptions) := by
  refine emulateEventAction_triple env (stable_agreedAfter env used carried).toIgnoresView
    (fun _ h => h) (J := fun prepared => AgreedAfter used carried {prepared.spec.item.branchId}) ?_
    (fun prepared => ?_) item simulationOptions
  · rintro inst prepared ⟨used', carried', hsub, hsame, hids, h⟩ hfrom - _ rfl
    rcases grounded_of_prepared h.known h.shared hfrom with ⟨plan, hground⟩
    rcases commitPreparedBranch_grounded (new_of_prepared env hfrom) hground with
      ⟨registry, hholds, hcommit⟩
    rw [hcommit]
    exact ⟨_, _, hsub.trans (Finset.subset_insert _ _), fun branchId hbranch =>
      (carriedAs_of_used (fun hmem => new_of_prepared env hfrom (h.known.known hmem)) branchId
        (hsub hbranch)).trans (hsame branchId hbranch),
      Finset.singleton_subset_iff.mpr (Finset.mem_insert_self _ _),
      h.committedAs (new_of_prepared env hfrom) hground hholds⟩
  · refine (keeps_agreedAfter fun used carried hids => ?_).conseq (fun _ h => h)
      (fun _ _ h => h.forget) fun _ _ h => h.forget
    exact (eventSettled_agreed used carried (Finset.singleton_subset_iff.mp hids)).dispatchOne env
      (framed_agreed used carried ∅)

/-- A batch at an event is prepared as a whole, and committed as a whole. -/
theorem beamEmulateEventBatch_agreedAfter (items : List EmulateItem) :
    Act.Keeps (AgreedAfter used carried ∅) (Beam.emulateEventBatch env items) := by
  refine emulateEventBatch_triple env (stable_agreedAfter env used carried).toIgnoresView
    (fun _ h => h) (J := fun batch => AgreedAfter used carried
      (batch.map fun entry => entry.spec.item.branchId).toFinset) ?_ (fun batch => ?_) items
  · rintro inst batch ⟨used', carried', hsub, hsame, hids, h⟩ hfrom hone - _ rfl
    rcases commitBatch_after h.known.toKnown batch with ⟨error, hraises⟩ | ⟨after, hok, hchain⟩
    · rw [hraises]
      exact ⟨used', carried', hsub, hsame, hids, h⟩
    · rw [hok]
      exact .trans hsub hsame (hchain.agreed h
        (fun prepared hprepared => grounded_of_prepared h.known h.shared (hfrom prepared hprepared))
        (consistent_of_prepared h.known h.shared hfrom hone))
  · refine (keeps_agreedAfter fun used carried hids => ?_).conseq (fun _ h => h)
      (fun _ _ h => h.forget) fun _ _ h => h.forget
    exact keeps_dispatchPreparedBatch env (framed_agreed used carried ∅)
      (stable_agreed env used carried).releaseBranch fun _ hentry =>
        eventSettled_agreed used carried
        (hids (List.mem_toFinset.mpr (List.mem_map_of_mem hentry)))

/-- The agreement holds after every request but closing. -/
theorem agreed_step (facade : Facade) (request : Request) (hclose : request ≠ .close)
    (h : AgreedAfter used carried ∅ inst) :
    AgreedAfter used carried ∅ (step env facade inst request).1 := by
  have hI := stable_agreedAfter env used carried
  have hrestore : ∀ (inst : Instance W Φ κ β) prior, AgreedAfter used carried ∅ inst →
      AgreedAfter used carried ∅ { inst with
        decisionPoints := inst.decisionPoints.restoreCurrent root prior } :=
    fun inst prior h => h.map fun used carried h =>
      h.congr ((steady_knownSince _ _).restore inst prior h.known) rfl rfl
  exact hI.step env (poison_agreedAfter env)
    (hI.enterCombatPhase env (poison_agreedAfter env) hrestore)
    (emulateCombatPhaseActions_agreedAfter env) (emulateEventAction_agreedAfter env)
    (beamEmulateEventBatch_agreedAfter env) facade inst request (fun heq => absurd heq hclose) h

end Requests

/-!
### Runs

The agreement at the beginning and after every request, and what it says of the registry.
-/

section Runs

variable (env : RunEnv W Φ κ β)

/-- A branch of an event that is neither faulted, cancelled nor released, with its
    record. -/
def LiveEvent (inst : Instance W Φ κ β) (branchId : PyStr) (book : Book κ β) : Prop :=
  inst.bookkeeping.get? branchId = some book ∧ book.internalId = none ∧ book.Live

/-- The registry is that of the live branches of events. A branch holds what it
    `carried` from the start: what its siblings hold, and what its parent carried. -/
structure ExactRegistry (carried : PyStr → Option EventRngReplayPlan) (inst : Instance W Φ κ β) :
    Prop where
  present : ∀ key, (inst.eventRngRegistry.entries.get? key).isSome ↔ ∃ branchId book plan,
    LiveEvent inst branchId book ∧ book.eventRngPlan = some plan ∧ plan.hypothesisKey = key
  held : ∀ branchId book, LiveEvent inst branchId book → ∃ plan generation,
    book.eventRngPlan = some plan ∧
      inst.eventRngRegistry.entries.get? plan.hypothesisKey = some ⟨plan.overrideState, generation⟩
  shared : ∀ branchId book branchId' book' plan plan', LiveEvent inst branchId book →
    LiveEvent inst branchId' book' → book.parentPublicId = book'.parentPublicId →
    book.decisionPointId = book'.decisionPointId → book.rngId = book'.rngId →
    book.eventRngPlan = some plan → book'.eventRngPlan = some plan' →
      plan.overrideState = plan'.overrideState
  carries : ∀ branchId book plan, inst.bookkeeping.get? branchId = some book →
    book.eventRngPlan = some plan → carried branchId = some plan
  inherited : ∀ branchId book, inst.bookkeeping.get? branchId = some book →
    book.internalId = none → book.parentPublicId ≠ root →
      carried branchId = carried book.parentPublicId

/-- The commits that a request comes to: that of one branch, which the facade for beam
    search looks at first, and those of a batch. -/
inductive Commits (env : RunEnv W Φ κ β) :
    Instance W Φ κ β → Op W Φ κ β Unit → Instance W Φ κ β → Prop
  | single {inst viewed : Instance W Φ κ β} {item : EmulateItem} {view : View} {spec : BranchSpec}
      {prepared : PreparedEvent κ β}
      (hview : viewFor env item.parentBranchId inst = (.ok view, viewed))
      (hspec : validateEventBranch viewed item view = .ok spec)
      (hprepared : prepareEventBranch env viewed spec = .ok prepared) :
      Commits env inst (commitPreparedBranch prepared) viewed
  | looked {inst looked viewed : Instance W Φ κ β} {parentBranchId : PyStr}
      {commit : Op W Φ κ β Unit}
      (hlooked : Beam.parentAtEvent env parentBranchId inst = (.ok true, looked))
      (hcommits : Commits env looked commit viewed) : Commits env inst commit viewed
  | batch {inst viewed : Instance W Φ κ β} {items : List EmulateItem} {views : List (PyStr × View)}
      {batch : List (PreparedEvent κ β)} (hids : Beam.checkBatchIds items = .ok ())
      (hviews : Beam.parentViews env items [] inst = (.ok views, viewed))
      (hbatch : Beam.prepareBatch env viewed views items = .ok batch) :
      Commits env inst (commitBatch batch) viewed

variable {env} {used : Finset PyStr} {carried : PyStr → Option EventRngReplayPlan}
  {inst : Instance W Φ κ β}

/-- The agreement says what the registry is. -/
theorem Agreed.exact (h : Agreed used carried ∅ inst) : ExactRegistry carried inst where
  present key := by
    rw [h.known.registry.isSome_iff key]
    -- An entry is there exactly where a live branch refers to it.
    constructor
    · rintro ⟨branchId, hmem⟩
      rcases (h.shared.refs key branchId).mp hmem with ⟨book, plan, hbook, hlive, hplan, hkey⟩
      exact ⟨branchId, book, plan,
        ⟨hbook, (h.shared.placed branchId book hbook).internalId_none hplan, hlive⟩, hplan, hkey⟩
    · rintro ⟨branchId, book, plan, ⟨hbook, -, hlive⟩, hplan, hkey⟩
      exact ⟨branchId, (h.shared.refs key branchId).mpr ⟨book, plan, hbook, hlive, hplan, hkey⟩⟩
  held branchId book hevent := by
    -- A live event branch has a plan, and the plan its entry.
    rcases hevent with ⟨hbook, hinternal, hlive⟩
    rcases Option.isSome_iff_exists.mp
      ((h.shared.placed branchId book hbook).held hinternal hlive) with ⟨plan, hplan⟩
    rcases h.shared.states branchId book plan hbook hlive hplan with ⟨generation, hentry⟩
    exact ⟨plan, generation, hplan, hentry⟩
  shared branchId book branchId' book' plan plan' hevent hevent' hparent hdecision hrng hplan
      hplan' := by
    rcases hevent with ⟨hbook, hinternal, hlive⟩
    rcases hevent' with ⟨hbook', hinternal', hlive'⟩
    have hplaced := h.shared.placed branchId book hbook
    have hplaced' := h.shared.placed branchId' book' hbook'
    by_cases hroot : book.parentPublicId = root
    · -- Under the root both have the one entry of their key.
      rcases hplaced.rooted hroot plan hplan with ⟨decision, hdecides, hkey⟩
      rcases hplaced'.rooted (hparent ▸ hroot) plan' hplan' with ⟨decision', hdecides', hkey'⟩
      rw [hdecides, hdecides'] at hdecision
      cases hdecision
      rcases h.shared.states branchId book plan hbook hlive hplan with ⟨generation, hentry⟩
      rcases h.shared.states branchId' book' plan' hbook' hlive' hplan' with
        ⟨generation', hentry'⟩
      rw [hkey, hrng, ← hkey', hentry'] at hentry
      exact (congrArg HypothesisEntry.state (Option.some.inj hentry)).symm
    -- Under a branch both carry what the parent carries.
    · have hsame : carried branchId = carried branchId' :=
        (hplaced.inherited hinternal hroot).trans
          ((congrArg carried hparent).trans (hplaced'.inherited hinternal' (hparent ▸ hroot)).symm)
      rw [hplaced.plan plan hplan, hplaced'.plan plan' hplan'] at hsame
      cases hsame
      rfl
  carries branchId book plan hbook hplan := (h.shared.placed branchId book hbook).plan plan hplan
  inherited branchId book hbook hinternal hroot :=
    (h.shared.placed branchId book hbook).inherited hinternal hroot

/-- Ids that pass the check come once. -/
theorem nodup_of_checkDuplicates {seen : List PyStr} {items : List EmulateItem}
    (h : Beam.checkDuplicates seen items = .ok ()) :
    (items.map EmulateItem.branchId).Nodup ∧ ∀ item ∈ items, item.branchId ∉ seen := by
  induction items generalizing seen with
  | nil => exact ⟨List.nodup_nil, fun _ hitem => nomatch hitem⟩
  | cons item rest ih =>
      unfold Beam.checkDuplicates at h
      split at h
      · cases h
      · rename_i hseen
        rcases ih h with ⟨hnodup, hothers⟩
        rw [List.map_cons, List.nodup_cons]
        refine ⟨⟨fun hmem => ?_, hnodup⟩, fun other hother => ?_⟩
        · rcases List.mem_map.mp hmem with ⟨other, hother, heq⟩
          exact hothers other hother (heq ▸ List.mem_cons_self)
        · rcases List.mem_cons.mp hother with rfl | hother
          · exact hseen
          · exact fun hmem => hothers other hother (List.mem_cons_of_mem _ hmem)

theorem nodup_of_checkBatchIds {items : List EmulateItem}
    (h : Beam.checkBatchIds items = .ok ()) : (items.map EmulateItem.branchId).Nodup := by
  unfold Beam.checkBatchIds at h
  rcases hchecked : Beam.checkDuplicates [] items with error | _
  · rw [hchecked] at h
    cases h
  · exact (nodup_of_checkDuplicates hchecked).1

/-- A commit that a request comes to does not raise. -/
theorem commits_ok {commit : Op W Φ κ β Unit} {viewed : Instance W Φ κ β}
    (hcommits : Commits env inst commit viewed) (h : AgreedAfter used carried ∅ inst) :
    ∃ after, commit viewed = (.ok (), after) := by
  have hI : Framed (AgreedAfter used carried ∅ : Instance W Φ κ β → Prop) :=
    (stable_agreedAfter env used carried).toFramed
  induction hcommits with
  -- One item: the commit of the branch it prepares.
  | @single inst viewed item view spec prepared hview hspec hprepared =>
      have hviewed := viewFor_viewed env hI.toIgnoresView item.parentBranchId inst h
      rw [hview] at hviewed
      rcases hviewed.1 with ⟨used', carried', -, -, -, hagreed⟩
      have hfrom := preparedFrom_of_ok env hviewed.2 hspec hprepared
      rcases grounded_of_prepared hagreed.known hagreed.shared hfrom with ⟨plan, hground⟩
      rcases commitPreparedBranch_grounded (new_of_prepared env hfrom) hground with
        ⟨registry, -, hcommit⟩
      exact ⟨_, hcommit⟩
  -- The parent was looked at first.
  | @looked inst looked viewed parentBranchId commit hlooked _ ih =>
      exact ih ((hI.parentAtEvent env parentBranchId).at_ok h hlooked)
  -- A batch: every branch of it is grounded, and they agree with each other.
  | @batch inst viewed items views batch hids hviews hbatch =>
      have hviewed := parentViews_viewed env hI.toIgnoresView items [] inst
        ⟨h, fun _ hentry => nomatch hentry⟩
      rw [hviews] at hviewed
      rcases hviewed.1 with ⟨used', carried', -, -, -, hagreed⟩
      rcases preparedFrom_of_batch env hbatch hviewed.2 with ⟨hitems, hfrom, hone⟩
      -- The ids of a batch are checked to be distinct.
      have hnodup : (batch.map fun entry => entry.spec.item.branchId).Nodup := by
        have hnodup := nodup_of_checkBatchIds hids
        rwa [← hitems, List.map_map] at hnodup
      rcases commitPrefix_grounded hagreed
        (fun prepared hprepared => new_of_prepared env (hfrom prepared hprepared)) hnodup
        (fun prepared hprepared =>
          grounded_of_prepared hagreed.known hagreed.shared (hfrom prepared hprepared))
        (consistent_of_prepared hagreed.known hagreed.shared hfrom hone) with ⟨after, hprefix⟩
      refine ⟨after, ?_⟩
      unfold commitBatch
      rw [Act.get_bind, Act.bind_of_ok _ hprefix]
      rfl

/-- An instance begins with the root, without a hypothesis. -/
theorem agreed_of_constructs {config : Fields} {world : W} {access : GameAccess}
    (h : Constructs env config world access inst) :
    AgreedAfter {root} (fun _ => none) ∅ inst := by
  have hblank : AgreedAfter {root} (fun _ => none) ∅ (blank world access : Instance W Φ κ β) := by
    refine Agreed.after ⟨⟨Finset.mem_singleton_self _, subset_rfl, Finset.empty_subset _,
      fun _ _ hbook => (nomatch hbook), fun _ _ hpoint => (nomatch hpoint),
      EventRngHypothesisRegistry.owned_new⟩,
        ⟨fun _ _ hbook => (nomatch hbook), fun key branchId => ?_,
      fun _ _ _ hbook => (nomatch hbook)⟩, Finset.disjoint_empty_left _⟩
    refine ⟨fun hmem => (Finset.notMem_empty _ hmem).elim, ?_⟩
    rintro ⟨book, plan, hbook, -⟩
    cases hbook
  have hafter := ((stable_agreedAfter env _ _).construct env config).after hblank
  rw [h] at hafter
  exact hafter

/-- Along a run, the branches carry what they were given. -/
theorem agreed_run (facade : Facade) (h : Agreed used carried ∅ inst) (requests : List Request)
    (hclose : ∀ request ∈ requests, request ≠ .close) : ∃ used' carried',
      Agreed used' carried' ∅ (Run.final (step env facade) inst requests) ∧
      ∀ k, ∃ used₀, used₀ ⊆ used' ∧
        Agreed used₀ carried' ∅ (Run.final (step env facade) inst (requests.take k)) := by
  induction requests using List.reverseRecOn with
  | nil => exact ⟨used, carried, h, fun k => ⟨used, subset_rfl, by rwa [List.take_nil]⟩⟩
  | append_singleton requests request ih =>
      rcases ih fun request hrequest => hclose request (List.mem_append_left _ hrequest) with
        ⟨used', carried', hend, hall⟩
      rcases agreed_step env facade request (hclose request (by simp)) hend.after with
        ⟨used₂, carried₂, hsub, hsame, -, hnext⟩
      rw [← Run.final_concat] at hnext
      refine ⟨used₂, carried₂, hnext, fun k => ?_⟩
      by_cases hk : k ≤ requests.length
      · -- What was carried before is carried still.
        rcases hall k with ⟨used₀, hsub₀, hagreed⟩
        rw [List.take_append_of_le_length hk]
        exact ⟨used₀, hsub₀.trans hsub, hagreed.known, hagreed.shared.mono subset_rfl
          fun branchId hbranch => hsame branchId (hsub₀ hbranch), hagreed.fresh⟩
      · rw [List.take_of_length_le (by simp; omega)]
        exact ⟨used₂, subset_rfl, hnext⟩

/-- In every state of a run without closing, a hypothesis is there exactly when a live
    branch of an event is played under it. Branches of one parent, decision and rng id
    have one override, a branch carries that of its parent for the whole run, and no
    commit finds another state than that of its plan. -/
theorem event_registry_exact (facade : Facade) {config : Fields} {world : W} {access : GameAccess}
    {start : Instance W Φ κ β} (hconstruct : Constructs env config world access start)
    (requests : List Request) (hclose : ∀ request ∈ requests, request ≠ .close) :
    (∃ carried, ∀ k,
      ExactRegistry carried (Run.final (step env facade) start (requests.take k))) ∧
    ∀ k commit viewed,
      Commits env (Run.final (step env facade) start (requests.take k)) commit viewed →
        ∃ after, commit viewed = (.ok (), after) := by
  rcases agreed_of_constructs hconstruct with ⟨used, carried, -, -, -, hstart⟩
  rcases agreed_run facade hstart requests hclose with ⟨used', carried', -, hall⟩
  refine ⟨⟨carried', fun k => ?_⟩, fun k commit viewed hcommits => ?_⟩
  · rcases hall k with ⟨used₀, -, hagreed⟩
    exact hagreed.exact
  · rcases hall k with ⟨used₀, -, hagreed⟩
    exact commits_ok hcommits hagreed.after

/-- An event is entered, and a branch is played at it. -/
def branchEvent : List Request :=
  enterEvent ++ [.call (.emulateAction ⟨"root", "b1", "d-root-000002", "9", 1⟩ none)]

theorem event_registry_exact_small :
    (∃ carried, ∀ k,
      ExactRegistry carried (Run.final (step chainRun .base) chainInstance (branchEvent.take k))) ∧
    ∀ k commit viewed, Commits chainRun
      (Run.final (step chainRun .base) chainInstance (branchEvent.take k)) commit viewed →
        ∃ after, commit viewed = (.ok (), after) := by
  refine event_registry_exact .base (rfl : Constructs chainRun [] 0 {} chainInstance) branchEvent ?_
  intro request hrequest
  simp only [branchEvent, enterEvent, List.cons_append, List.nil_append, List.mem_cons,
    List.not_mem_nil, or_false] at hrequest
  rcases hrequest with rfl | rfl <;> exact nofun

end Runs

end Instance

end WholeRun

end STS2RL
