import STS2RL.Combat.Poll

/-!
# Runs of a Branch Manager

A manager with its workers, as one machine: the calls of its owner, the worker
processes, and the answers of `result_queue.get` while a poll runs. A worker
takes the requests of its inbox whenever it likes, between calls too; what it
answers lies on the result queue until a poll takes it.

What a call does to the workers comes down to three things. A poll sends
requests to workers that have none outstanding (`DispatchMove`), it takes a row
off its table when the request is answered or expires, and everything that gives
branches up only withdraws: it replaces workers and removes leases
(`Withdraws`). A poll that raises withdraws the worker of every branch it was
waiting for.

## Main definitions

* `ManagerRun`, `ManagerCall`, `ManagerRun.step`: The machine.
* `Withdraws`: Workers are replaced and leases removed, and nothing else.
* `DispatchMove`: One branch is sent, or taken off the waiting list.
* `PollOutcome`: Where a poll stands after it has dispatched what it can.

## Theorems

* `withdraws_cancelBranches`, `withdraws_releaseBranches`: Giving branches up.
* `quarantine_replaces`: A poll that raises replaces the workers it waited for.
* `advance_outcome`: What follows an answer.
-/

namespace STS2RL

namespace Combat

variable {κ β : Type}

namespace BranchWorkerPool

/-- Some workers are replaced, some leases are removed, and that is all. -/
structure Withdraws (pool pool' : BranchWorkerPool κ β) : Prop where
  workerCount : pool'.workerCount = pool.workerCount
  nextRequestId : pool'.nextRequestId = pool.nextRequestId
  resultQueue : pool'.resultQueue = pool.resultQueue
  batch : pool'.batch = pool.batch
  leases : ∀ key lease, pool'.registry.get? key = some lease → pool.registry.get? key = some lease
  workers : ∀ workerId, pool'.workers workerId = pool.workers workerId ∨
    ((pool.workers workerId).workerGeneration < (pool'.workers workerId).workerGeneration ∧
      (pool'.workers workerId).inQueue = [])

/-- The worker has been replaced. -/
def Replaced (pool pool' : BranchWorkerPool κ β) (workerId : Nat) : Prop :=
  (pool.workers workerId).workerGeneration < (pool'.workers workerId).workerGeneration ∧
    (pool'.workers workerId).inQueue = []

namespace Withdraws

theorem refl (pool : BranchWorkerPool κ β) : Withdraws pool pool :=
  ⟨rfl, rfl, rfl, rfl, fun _ _ h => h, fun _ => .inl rfl⟩

/-- Two changes that only withdraw, one after the other. -/
theorem trans {pool pool' pool'' : BranchWorkerPool κ β} (h : Withdraws pool pool')
    (h' : Withdraws pool' pool'') : Withdraws pool pool'' := by
  refine ⟨h'.workerCount.trans h.workerCount, h'.nextRequestId.trans h.nextRequestId,
    h'.resultQueue.trans h.resultQueue, h'.batch.trans h.batch,
    fun key lease hget => h.leases key lease (h'.leases key lease hget), fun workerId => ?_⟩
  rcases h.workers workerId with hsame | ⟨hlt, hempty⟩
  · rcases h'.workers workerId with hsame' | hnew
    · exact .inl (hsame'.trans hsame)
    · rw [hsame] at hnew
      exact .inr hnew
  · rcases h'.workers workerId with hsame' | ⟨hlt', hempty'⟩
    · rw [hsame']
      exact .inr ⟨hlt, hempty⟩
    · exact .inr ⟨hlt.trans hlt', hempty'⟩

theorem generation_le {pool pool' : BranchWorkerPool κ β} (h : Withdraws pool pool')
    (workerId : Nat) :
    (pool.workers workerId).workerGeneration ≤ (pool'.workers workerId).workerGeneration := by
  rcases h.workers workerId with hsame | ⟨hlt, -⟩
  · rw [hsame]
  · exact Nat.le_of_lt hlt

/-- A worker that has been replaced stays so. -/
theorem replaced {pool pool' pool'' : BranchWorkerPool κ β} {workerId : Nat}
    (h : Replaced pool pool' workerId) (h' : Withdraws pool' pool'') :
    Replaced pool pool'' workerId := by
  rcases h'.workers workerId with hsame | ⟨hlt, hempty⟩
  · rw [Replaced, hsame]
    exact h
  · exact ⟨h.1.trans hlt, hempty⟩

theorem replaced_after {pool pool' pool'' : BranchWorkerPool κ β} {workerId : Nat}
    (h : Withdraws pool pool') (h' : Replaced pool' pool'' workerId) :
    Replaced pool pool'' workerId :=
  ⟨Nat.lt_of_le_of_lt (h.generation_le workerId) h'.1, h'.2⟩

theorem of_registry (pool : BranchWorkerPool κ β) (registry : LeaseRegistry)
    (h : ∀ key lease, registry.get? key = some lease → pool.registry.get? key = some lease) :
    Withdraws pool { pool with registry } :=
  ⟨rfl, rfl, rfl, rfl, h, fun _ => .inl rfl⟩

end Withdraws

/-- A respawn withdraws what the worker had, and replaces it. -/
theorem withdraws_respawnWorker (pool : BranchWorkerPool κ β) (workerId : Nat) :
    Withdraws pool (pool.respawnWorker workerId) ∧
      Replaced pool (pool.respawnWorker workerId) workerId := by
  have hworkers : ∀ other, (pool.respawnWorker workerId).workers other =
      if other = workerId then
        { workerGeneration := (pool.workers workerId).workerGeneration + 1 }
      else pool.workers other := fun other => Function.update_apply pool.workers workerId _ other
  refine ⟨⟨rfl, rfl, rfl, rfl, fun key lease hget => ?_, fun other => ?_⟩, ?_⟩
  · exact (LeaseRegistry.get?_invalidateWorker_some hget).1
  · rw [hworkers]
    by_cases hother : other = workerId
    · rw [if_pos hother, hother]
      exact .inr ⟨Nat.lt_succ_self _, rfl⟩
    · exact .inl (if_neg hother)
  · rw [Replaced, hworkers, if_pos rfl]
    exact ⟨Nat.lt_succ_self _, rfl⟩

theorem withdraws_invalidateLease (pool : BranchWorkerPool κ β) (lease : Lease) :
    Withdraws pool { pool with registry := pool.registry.invalidateLease lease } :=
  .of_registry pool _ fun _ _ => LeaseRegistry.get?_invalidateLease_some

end BranchWorkerPool

open BranchWorkerPool

namespace BranchManager

/-!
### What a manager gives up

Cancelling, releasing and quarantining withdraw requests from the pool, and replace the
workers that were running a branch they end.
-/

section GivingUp

/-- Cancelling a branch in the pool withdraws its requests. -/
theorem withdraws_cancelPool (pool : BranchWorkerPool κ β) (record : BranchRecord κ β) :
    Withdraws pool (cancelPool pool record) := by
  unfold cancelPool
  cases record.result.bind (·.establishedLease) with
  | none =>
      cases record.state with
      | running =>
          cases record.workerId with
          | none => exact .refl pool
          | some workerId => exact (withdraws_respawnWorker pool workerId).1
      | _ => exact .refl pool
  | some lease =>
      cases record.state with
      | running =>
          cases record.workerId with
          | none => exact .refl pool
          | some workerId => exact (withdraws_respawnWorker pool workerId).1
      | cancelled | released | queued => exact .refl pool
      | completed | partialResult | faulted => exact withdraws_invalidateLease pool lease

theorem withdraws_cancelOne (manager : BranchManager κ β) (branchId : String) :
    Withdraws manager.pool (manager.cancelOne branchId).pool := by
  unfold cancelOne
  cases manager.records.get? branchId with
  | none => exact .refl _
  | some record => exact withdraws_cancelPool manager.pool record

theorem withdraws_foldl_cancelOne (visited : List String) :
    ∀ manager : BranchManager κ β,
      Withdraws manager.pool (visited.foldl cancelOne manager).pool := by
  induction visited with
  | nil => exact fun manager => .refl _
  | cons branchId rest ih =>
      exact fun manager => (manager.withdraws_cancelOne branchId).trans (ih _)

theorem withdraws_cancelBranches (manager : BranchManager κ β) (branchIds : List String) :
    Withdraws manager.pool (manager.cancelBranches branchIds).1.pool :=
  withdraws_foldl_cancelOne _ manager

/-- Links are all that pruning changes. -/
theorem pruneReleasedLeaf_pool (fuel : Nat) :
    ∀ (manager : BranchManager κ β) (branchId : String),
      (pruneReleasedLeaf fuel manager branchId).pool = manager.pool := by
  induction fuel with
  | zero => exact fun _ _ => rfl
  | succ fuel ih =>
      intro manager branchId
      unfold pruneReleasedLeaf
      split
      · rfl
      · split
        · rfl
        · split
          · dsimp only
            split
            · rfl
            · exact ih _ _
          · rfl

theorem compactReleased_pool (manager : BranchManager κ β) (branchId : String) :
    (manager.compactReleased branchId).pool = manager.pool := by
  unfold compactReleased
  split
  · rfl
  · exact pruneReleasedLeaf_pool _ _ _

/-- What a release does to the pool: what a cancel does to a branch that is
    active, and the lease of a finished one goes. -/
theorem releaseState_pool (manager : BranchManager κ β) (branchId : String)
    (record : BranchRecord κ β) :
    Withdraws manager.pool (manager.releaseState branchId record).pool ∧
      (record.state.isActive = true → (manager.releaseState branchId record).pool =
        (manager.cancelOne branchId).pool) := by
  unfold releaseState
  split
  · rename_i hreleased
    refine ⟨.refl _, fun hactive => ?_⟩
    rw [hreleased] at hactive
    cases hactive
  · dsimp only
    by_cases hactive : record.state.isActive = true
    · rw [if_pos hactive]
      split
      · exact ⟨manager.withdraws_cancelOne branchId, fun _ => rfl⟩
      · exact ⟨manager.withdraws_cancelOne branchId, fun _ => rfl⟩
    · rw [if_neg hactive]
      refine ⟨?_, fun h => absurd h hactive⟩
      cases record.result.bind (·.establishedLease) with
      | none => split <;> exact .refl _
      | some lease => split <;> exact withdraws_invalidateLease manager.pool lease

theorem withdraws_releaseOne (manager : BranchManager κ β) (branchId : String) :
    Withdraws manager.pool (manager.releaseOne branchId).1.pool := by
  unfold releaseOne
  split
  · exact .refl _
  · rename_i record hget
    dsimp only
    rw [compactReleased_pool]
    exact (manager.releaseState_pool branchId record).1

theorem withdraws_releaseBranches (branchIds : List String) :
    ∀ manager : BranchManager κ β,
      Withdraws manager.pool (manager.releaseBranches branchIds).1.pool := by
  induction branchIds with
  | nil => exact fun manager => .refl _
  | cons branchId rest ih =>
      intro manager
      have hone := manager.withdraws_releaseOne branchId
      unfold releaseBranches
      generalize manager.releaseOne branchId = released at hone ⊢
      rcases released with ⟨next, outcome | outcome⟩
      · exact hone
      · exact hone.trans (ih next)

theorem withdraws_quarantine (manager : BranchManager κ β) (branchIds : List String) :
    Withdraws manager.pool (manager.quarantine branchIds).pool :=
  (manager.withdraws_cancelBranches _).trans (withdraws_releaseBranches _ _)

/-- The branch is on the worker. -/
def RunsOn (manager : BranchManager κ β) (branchId : String) (workerId : Nat) : Prop :=
  ∃ record, manager.records.get? branchId = some record ∧ record.state = .running ∧
    record.workerId = some workerId

theorem cancelOne_replaces {manager : BranchManager κ β} {branchId : String} {workerId : Nat}
    (h : manager.RunsOn branchId workerId) :
    Replaced manager.pool (manager.cancelOne branchId).pool workerId := by
  rcases h with ⟨record, hget, hstate, hworker⟩
  have hpool : (manager.cancelOne branchId).pool = manager.pool.respawnWorker workerId := by
    unfold cancelOne
    rw [hget]
    dsimp only
    unfold cancelPool
    rw [hstate, hworker]
  rw [hpool]
  exact (withdraws_respawnWorker manager.pool workerId).2

/-- A branch that is not cancelled is on its worker still. -/
theorem runsOn_cancelOne {manager : BranchManager κ β} {branchId other : String} {workerId : Nat}
    (h : manager.RunsOn branchId workerId) (hne : branchId ≠ other) :
    (manager.cancelOne other).RunsOn branchId workerId := by
  rcases h with ⟨record, hget, hrunning⟩
  refine ⟨record, ?_, hrunning⟩
  rw [cancelOne_records, if_neg hne, hget]

/-- A running branch is cancelled, or it is on its worker still. -/
theorem foldl_cancelOne_replaces {branchId : String} {workerId : Nat} (visited : List String) :
    ∀ manager : BranchManager κ β, manager.RunsOn branchId workerId →
      Replaced manager.pool (visited.foldl cancelOne manager).pool workerId ∨
        (visited.foldl cancelOne manager).RunsOn branchId workerId := by
  induction visited with
  | nil => exact fun manager h => .inr h
  | cons other rest ih =>
      intro manager h
      by_cases hsame : branchId = other
      · subst hsame
        exact .inl (Withdraws.replaced (cancelOne_replaces h) (withdraws_foldl_cancelOne rest _))
      · rcases ih _ (runsOn_cancelOne h hsame) with hreplaced | hstill
        · exact .inl ((manager.withdraws_cancelOne other).replaced_after hreplaced)
        · exact .inr hstill

/-- Releasing a branch leaves the others where they run. -/
theorem runsOn_releaseOne {manager : BranchManager κ β} {branchId other : String} {workerId : Nat}
    (h : manager.RunsOn branchId workerId) (hne : branchId ≠ other) :
    (manager.releaseOne other).1.RunsOn branchId workerId := by
  rcases h with ⟨record, hget, hstate, hworker⟩
  have hunlinked := manager.releaseOne_records other branchId hne
  rw [hget] at hunlinked
  cases hafter : (manager.releaseOne other).1.records.get? branchId with
  | none =>
      rw [hafter] at hunlinked
      cases hunlinked
  | some record' =>
      rw [hafter] at hunlinked
      have hsame := Option.some.inj hunlinked
      unfold BranchRecord.unlinked at hsame
      rw [BranchRecord.mk.injEq] at hsame
      exact ⟨record', hafter, hsame.2.1.trans hstate, hsame.2.2.2.2.1.trans hworker⟩

/-- A running branch that is released has its worker replaced. -/
theorem releaseBranches_replaces {branchId : String} {workerId : Nat} (branchIds : List String) :
    ∀ manager : BranchManager κ β,
      (∀ other ∈ branchIds, (manager.records.get? other).isSome = true) →
      branchId ∈ branchIds → manager.RunsOn branchId workerId →
      Replaced manager.pool (manager.releaseBranches branchIds).1.pool workerId := by
  -- The induction is on the branches to release. Once the worker is replaced, what comes after
  -- can only replace workers again.
  induction branchIds with
  | nil => exact fun manager _ hmem => absurd hmem List.not_mem_nil
  | cons other rest ih =>
      intro manager hknown hmem h
      rcases Option.isSome_iff_exists.1 (hknown other List.mem_cons_self) with ⟨record, hget⟩
      have hok := (manager.releaseOne_known other record hget).1
      have hunfold : (manager.releaseBranches (other :: rest)).1 =
          ((manager.releaseOne other).1.releaseBranches rest).1 := by
        conv_lhs => unfold releaseBranches
        generalize manager.releaseOne other = released at hok ⊢
        rcases released with ⟨next, outcome⟩
        cases hok
        rfl
      rw [hunfold]
      -- The branch itself is active, so releasing it cancels it, which replaces its worker.
      by_cases hsame : branchId = other
      · subst hsame
        refine Withdraws.replaced ?_ (withdraws_releaseBranches rest _)
        have hactive : record.state.isActive = true := by
          rcases h with ⟨record', hget', hstate, -⟩
          rw [hget, Option.some.injEq] at hget'
          rw [hget', hstate]
          rfl
        have hpool : (manager.releaseOne branchId).1.pool = (manager.cancelOne branchId).pool := by
          unfold releaseOne
          rw [hget]
          dsimp only
          rw [compactReleased_pool, (manager.releaseState_pool branchId record).2 hactive]
        rw [hpool]
        exact cancelOne_replaces h
      -- Another branch is released first; the worker still runs this one, or was replaced on the
      -- way.
      · have hrest : branchId ∈ rest := (List.mem_cons.1 hmem).resolve_left hsame
        refine (manager.withdraws_releaseOne other).replaced_after
          (ih _ (fun third hthird => ?_) hrest (runsOn_releaseOne h hsame))
        -- The rest of the list is known after the first branch was released.
        by_cases hthird' : third = other
        · have hstate := (manager.releaseOne_known other record hget).2
          rw [hthird']
          cases hafter : (manager.releaseOne other).1.records.get? other with
          | none =>
              rw [hafter] at hstate
              cases hstate
          | some record' => rfl
        · have hunlinked := manager.releaseOne_records other third hthird'
          have hthirdKnown := hknown third (List.mem_cons_of_mem _ hthird)
          rw [← Option.isSome_map, ← hunlinked, Option.isSome_map] at hthirdKnown
          exact hthirdKnown

/-- A poll that raises has the workers of its running branches replaced: by the
    cancel, or where that stops early by the release behind it. -/
theorem quarantine_replaces {manager : BranchManager κ β} {branchIds : List String}
    {branchId : String} {workerId : Nat} (hmem : branchId ∈ branchIds)
    (h : manager.RunsOn branchId workerId) :
    Replaced manager.pool (manager.quarantine branchIds).pool workerId := by
  unfold quarantine
  dsimp only
  generalize hknown : branchIds.filter
    (fun branchId => (manager.records.get? branchId).isSome) = known
  have hin : branchId ∈ known := by
    rcases h with ⟨record, hget, -⟩
    rw [← hknown, List.mem_filter, hget]
    exact ⟨hmem, rfl⟩
  have hsome : ∀ other ∈ known,
      ((manager.cancelBranches known).1.records.get? other).isSome = true := by
    intro other hother
    have hold : (manager.records.get? other).isSome = true := by
      rw [← hknown, List.mem_filter] at hother
      exact hother.2
    unfold cancelBranches
    dsimp only
    rw [foldl_cancelOne_records]
    split
    · rwa [Option.isSome_map]
    · exact hold
  rcases foldl_cancelOne_replaces _ manager h with hreplaced | hstill
  · exact Withdraws.replaced hreplaced (withdraws_releaseBranches known _)
  · exact (manager.withdraws_cancelBranches known).replaced_after
      (releaseBranches_replaces known _ hsome hin hstill)

end GivingUp

/-!
### Dispatching

The dispatch of a poll is a list of moves, each of which sends one branch to a free worker
or gives one up.
-/

section Dispatch

variable (digests : Digests κ) (schedule : PollSchedule)

/-- A waiting branch that leaves the list, or that is sent to a free worker. -/
inductive DispatchMove : PollState κ β → PollState κ β → Prop where
  | skip (st : PollState κ β) (waiting : List String) (hsub : waiting.Sublist st.waiting) :
      DispatchMove st { st with waiting }
  | launch (st : PollState κ β) (branchId : String) (record : BranchRecord κ β)
      (item : WorkItem κ β) (hget : st.manager.records.get? branchId = some record)
      (hqueued : record.state = .queued) (hitem : record.workItem = some item)
      (hwaits : branchId ∈ st.waiting)
      (hfree : (routeWorkItem digests item st.manager.pool.registry (freeWorkers st)
        st.manager.pool.workerGenerations st.manager.nextBootstrapIndex).workerId ∈
          freeWorkers st) :
      DispatchMove st (launch schedule st branchId record
        (routeWorkItem digests item st.manager.pool.registry (freeWorkers st)
          st.manager.pool.workerGenerations st.manager.nextBootstrapIndex))

/-- Any number of steps of a dispatch. -/
abbrev DispatchMoves : PollState κ β → PollState κ β → Prop :=
  Relation.ReflTransGen (DispatchMove digests schedule)

/-- The first branch that can be sent is sent. -/
theorem dispatchFirst_moves (branchIds : List String) :
    ∀ (st : PollState κ β), branchIds.Sublist st.waiting →
      DispatchMoves digests schedule st
        (dispatchFirst digests schedule (freeWorkers st) st branchIds).1 := by
  -- The induction is on the waiting branches that are looked at, from the front.
  induction branchIds with
  | nil => exact fun st _ => .refl
  | cons branchId rest ih =>
      intro st hsub
      have hwaits : branchId ∈ st.waiting := hsub.subset List.mem_cons_self
      have hrest : rest.Sublist st.waiting := (List.sublist_cons_self branchId rest).trans hsub
      unfold dispatchFirst
      cases hget : st.manager.records.get? branchId with
      | none => exact .refl
      | some record =>
          dsimp only
          -- A branch that is still queued is sent, if a worker can be found for it.
          by_cases hqueued : record.state = .queued
          · rw [if_neg (not_not.2 hqueued)]
            cases hitem : record.workItem with
            | none => exact .refl
            | some item =>
                dsimp only
                -- Without a worker for it the next branch is looked at.
                split
                · exact ih st hrest
                · unfold dispatchBranch
                  dsimp only
                  split
                  · exact .refl
                  · rename_i hfree
                    -- The process may refuse the request, and then nothing is sent.
                    cases hraises : schedule.dispatchRaises (st.manager.pool.nextRequestId + 1) with
                    | some exc => exact .refl
                    | none =>
                        exact .single (.launch st branchId record item hget hqueued hitem hwaits
                          (not_not.1 hfree))
          -- A branch that is not queued any more leaves the line.
          · rw [if_pos hqueued]
            have herase : rest.Sublist (st.waiting.erase branchId) := by
              have hsublist := hsub.erase branchId
              rwa [List.erase_cons_head] at hsublist
            exact .head (.skip st (st.waiting.erase branchId) List.erase_sublist)
              (ih { st with waiting := st.waiting.erase branchId } herase)

/-- Rounds of dispatching are such moves. -/
theorem dispatchRounds_moves (fuel : Nat) :
    ∀ st : PollState κ β,
      DispatchMoves digests schedule st (dispatchRounds digests schedule fuel st).1 := by
  induction fuel with
  | zero => exact fun st => .refl
  | succ fuel ih =>
      intro st
      have hfirst := dispatchFirst_moves digests schedule st.waiting st
        (List.Sublist.refl _)
      unfold dispatchRounds
      split
      · exact .refl
      · generalize dispatchFirst digests schedule (freeWorkers st) st st.waiting = first at hfirst ⊢
        rcases first with ⟨next, exc | sent⟩
        · exact hfirst
        · cases sent with
          | false => exact hfirst
          | true => exact hfirst.trans (ih next)

theorem dispatchAvailable_moves (st : PollState κ β) :
    DispatchMoves digests schedule st (dispatchAvailable digests schedule st).1 :=
  dispatchRounds_moves digests schedule _ st

end Dispatch

end BranchManager

open BranchManager

/-! ### The machine -/

/-- A manager between two calls, or in a poll. -/
inductive ManagerRun (κ β : Type) where
  | idle (manager : BranchManager κ β)
  | polling (schedule : PollSchedule) (admitted : List String) (st : PollState κ β)

/-- What happens next: a call, a worker that runs, or an answer to a poll. -/
inductive ManagerCall (κ β : Type) where
  | submit (entries : List (WorkItem κ β × Option String))
  | poll (schedule : PollSchedule) (branchIds : Option (List String))
  | cancel (branchIds : List String)
  | release (branchIds : List String)
  | respawn (workerId : Nat)
  | run (workerId : Nat) (execution : Execution κ β)
  | receive
  | empty (now : ℚ)
  | raise (exc : PyException)

namespace ManagerRun

/-- The manager, in a poll or between two. -/
def manager : ManagerRun κ β → BranchManager κ β
  | idle manager => manager
  | polling _ _ st => st.manager

/-- The pool of the manager. -/
def pool (run : ManagerRun κ β) : BranchWorkerPool κ β := run.manager.pool

/-- The requests that are outstanding. -/
def rows : ManagerRun κ β → List Outstanding
  | idle _ => []
  | polling _ _ st => st.running

/-- The run with another pool. -/
def withPool : ManagerRun κ β → BranchWorkerPool κ β → ManagerRun κ β
  | idle manager, pool => idle { manager with pool }
  | polling schedule admitted st, pool =>
      polling schedule admitted { st with manager := { st.manager with pool } }

@[simp]
theorem withPool_pool (run : ManagerRun κ β) (pool : BranchWorkerPool κ β) :
    (run.withPool pool).pool = pool := by
  cases run with
  | idle manager => rfl
  | polling schedule admitted st => rfl

@[simp]
theorem withPool_rows (run : ManagerRun κ β) (pool : BranchWorkerPool κ β) :
    (run.withPool pool).rows = run.rows := by
  cases run with
  | idle manager => rfl
  | polling schedule admitted st => rfl

/-- The run after a step of a poll. -/
def ofPhase (schedule : PollSchedule) (admitted : List String) : PollPhase κ β → ManagerRun κ β
  | .polling st => polling schedule admitted st
  | .returned st => idle st.manager
  | .raised st _ => idle st.manager

variable (digests : Digests κ)

/-- `BranchManager.poll`, up to its first wait. -/
def startPoll (manager : BranchManager κ β) (schedule : PollSchedule)
    (branchIds : Option (List String)) : ManagerRun κ β :=
  match manager.admitPolled schedule.timeout branchIds with
  | .error _ => idle manager
  | .ok admitted => ofPhase schedule admitted (pollStart digests schedule admitted manager)

/-- What a poll does with the answer of `result_queue.get`. -/
def onAnswer (schedule : PollSchedule) (admitted : List String) (st : PollState κ β)
    (event : PollEvent κ β) : ManagerRun κ β :=
  ofPhase schedule admitted (pollStep digests schedule admitted (.polling st) event).1

/-- The poll takes the next message. -/
def receive (schedule : PollSchedule) (admitted : List String) (st : PollState κ β) :
    ManagerRun κ β :=
  match st.manager.pool.resultQueue with
  | [] => polling schedule admitted st
  | (requestId, result) :: rest =>
      let pool := { st.manager.pool with resultQueue := rest }
      onAnswer digests schedule admitted { st with manager := { st.manager with pool } }
        (.result requestId result)

/-- One step. A step that is not possible changes nothing. -/
def step (run : ManagerRun κ β) (call : ManagerCall κ β) : ManagerRun κ β × Unit :=
  match call, run with
  | .run workerId execution, run =>
      (run.withPool (run.pool.runWorker digests workerId execution), ())
  | .submit entries, idle manager => (idle (manager.submitMany entries).1, ())
  | .poll schedule branchIds, idle manager => (startPoll digests manager schedule branchIds, ())
  | .cancel branchIds, idle manager => (idle (manager.cancelBranches branchIds).1, ())
  | .release branchIds, idle manager => (idle (manager.releaseBranches branchIds).1, ())
  | .respawn workerId, idle manager =>
      (idle { manager with pool := manager.pool.respawnWorker workerId }, ())
  | .receive, polling schedule admitted st => (receive digests schedule admitted st, ())
  | .empty now, polling schedule admitted st =>
      (onAnswer digests schedule admitted st (.empty now), ())
  | .raise exc, polling schedule admitted st =>
      (onAnswer digests schedule admitted st (.raised exc), ())
  | _, run => (run, ())

end ManagerRun

/-! ### What follows an answer -/

section Outcome

variable (digests : Digests κ) (schedule : PollSchedule) (admitted : List String)

/-- Where a poll stands after it has dispatched what it can: it goes on, or it
    has returned with nothing outstanding, or it has raised and given up what it
    admitted. -/
inductive PollOutcome (st : PollState κ β) : ManagerRun κ β → Prop where
  | goesOn : PollOutcome st (.polling schedule admitted st)
  | returned (hidle : st.running = []) : PollOutcome st (.idle st.manager)
  | raised : PollOutcome st (.idle (st.manager.quarantine admitted))

/-- The head of the loop dispatches, and then waits or ends. -/
theorem loopHead_outcome (st : PollState κ β) :
    ∃ st', DispatchMoves digests schedule st st' ∧ PollOutcome schedule admitted st'
      (ManagerRun.ofPhase schedule admitted (loopHead digests schedule admitted st)) := by
  unfold loopHead
  split
  · rename_i hdone
    exact ⟨st, .refl, .returned hdone.2⟩
  · split
    · have hmoves := dispatchAvailable_moves digests schedule st
      generalize dispatchAvailable digests schedule st = dispatched at hmoves ⊢
      rcases dispatched with ⟨next, exc | done⟩
      · exact ⟨next, hmoves, .raised⟩
      · dsimp only
        split
        · exact ⟨next, hmoves, .raised⟩
        · exact ⟨next, hmoves, .goesOn⟩
    · exact ⟨st, .refl, .goesOn⟩

/-- What follows an answer, whether it raised or not. -/
theorem advance_outcome (outcome : PollState κ β × Except PyException Unit) :
    ∃ st', DispatchMoves digests schedule outcome.1 st' ∧ PollOutcome schedule admitted st'
      (ManagerRun.ofPhase schedule admitted (advance digests schedule admitted outcome)) := by
  rcases outcome with ⟨st, exc | done⟩
  · exact ⟨st, .refl, .raised⟩
  · exact loopHead_outcome digests schedule admitted st

theorem thenDispatch_moves (outcome : PollState κ β × Except PyException Unit) :
    DispatchMoves digests schedule outcome.1 (thenDispatch digests schedule outcome).1 := by
  rcases outcome with ⟨st, exc | done⟩
  · exact .refl
  · exact dispatchAvailable_moves digests schedule st

/-- What an answer itself does to a poll, before anything is dispatched. -/
def handled (st : PollState κ β) : PollEvent κ β → PollState κ β
  | .raised _ => st
  | .result requestId result =>
      match st.running.find? (·.requestId = requestId) with
      | none => st
      | some slot => (complete st slot result).1
  | .empty now => (expireAll st (st.running.filter (·.deadline ≤ now))).1

theorem onEvent_moves (st : PollState κ β) (event : PollEvent κ β) :
    DispatchMoves digests schedule (handled st event) (onEvent digests schedule st event).1 := by
  cases event with
  | raised exc => exact .refl
  | result requestId result =>
      unfold handled onEvent
      dsimp only
      cases st.running.find? (·.requestId = requestId) with
      | none => exact .refl
      | some slot => exact thenDispatch_moves digests schedule _
  | empty now => exact thenDispatch_moves digests schedule _

/-- An answer is taken care of, then the poll dispatches what it can. -/
theorem onAnswer_outcome (st : PollState κ β) (event : PollEvent κ β) :
    ∃ st', DispatchMoves digests schedule (handled st event) st' ∧
      PollOutcome schedule admitted st'
        (ManagerRun.onAnswer digests schedule admitted st event) := by
  rcases advance_outcome digests schedule admitted
    (onEvent digests schedule st event) with ⟨st', hmoves, houtcome⟩
  exact ⟨st', (onEvent_moves digests schedule st event).trans hmoves, houtcome⟩

/-- A poll that is admitted dispatches what it can. -/
theorem startPoll_outcome (manager : BranchManager κ β) (branchIds : Option (List String)) :
    ManagerRun.startPoll digests manager schedule branchIds = .idle manager ∨
      ∃ admitted st', DispatchMoves digests schedule { manager, waiting := admitted } st' ∧
        PollOutcome schedule admitted st'
          (ManagerRun.startPoll digests manager schedule branchIds) := by
  unfold ManagerRun.startPoll
  cases manager.admitPolled schedule.timeout branchIds with
  | error exc => exact .inl rfl
  | ok admitted =>
      refine .inr ⟨admitted, ?_⟩
      rcases advance_outcome digests schedule admitted
        (dispatchAvailable digests schedule { manager, waiting := admitted }) with
        ⟨st', hmoves, houtcome⟩
      exact ⟨st', (dispatchAvailable_moves digests schedule _).trans hmoves, houtcome⟩

end Outcome

end Combat

end STS2RL
