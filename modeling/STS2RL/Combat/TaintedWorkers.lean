import STS2RL.Combat.PoolUse

/-!
# Tainted Workers

A fault of the host process may leave it in a state that no later request should
meet. `execute` and `dispatch_work_items` look at every fault that they wait for
and replace the worker when its process may be tainted. The poll of a branch
manager only removes the leases of the worker, and the next branch may go to the
same process.

A worker generation has returned such a fault when one of the three loops takes
it from the queue. What is sent afterwards is told by its worker and the
generation the worker then has; a poll may take an answer and send requests in
one step, in that order.

As long as no poll takes a tainting fault that it waits for, every marked
generation is of the past, as the answers that nobody waits for are of workers
that have been replaced already.

## Main definitions

* `TaintRun`: A pool in use, and the generations that have returned a taint.
* `sends`: What a step sends, and to which generation.
* `answered`: The answer a step takes, and the pool once it is handled.
* `PollClear`: The condition.
* `StepSound`: What is asked of a step.

## Theorems

* `stepSound_iff`: A step is sound exactly under the condition.
* `tainted_not_reused_iff`: So is a run.
-/

namespace STS2RL

namespace Combat

variable {κ β : Type}

open BranchWorkerPool BranchManager

/-- A pool in use, and the worker generations that have returned a taint. -/
structure TaintRun (κ β : Type) where
  use : PoolUse κ β
  tainted : List (Nat × Nat) := []

namespace PollPhase

/-- The requests outstanding when a poll waits, or when it ended. -/
def rows : PollPhase κ β → List Outstanding
  | .polling st => st.running
  | .returned st => st.running
  | .raised st _ => st.running

end PollPhase

namespace PoolUse

variable (digests : Digests κ)

/-- The answer that a step takes from the queue. -/
def taken (use : PoolUse κ β) : PoolCall κ β → Option (Nat × BranchResult κ β)
  | .manager .receive =>
      match use.run with
      | .idle _ => none
      | .polling _ _ st => st.manager.pool.resultQueue.head?
  | .pool .receive =>
      match use.run, use.executing, use.pool.batch with
      | .idle manager, none, some batch =>
          if batch.remaining = [] then none else manager.pool.resultQueue.head?
      | _, _, _ => none
  | .executeReceive =>
      match use.executing with
      | none => none
      | some _ => use.pool.resultQueue.head?
  | _ => none

/-- The answer to a request that is waited for, when the step takes one, and the
    pool when it has been handled and nothing has been sent yet. -/
def answered (use : PoolUse κ β) (call : PoolCall κ β) :
    Option (BranchResult κ β × BranchWorkerPool κ β) :=
  match call, use.taken call with
  | .manager .receive, some (requestId, result) =>
      match use.run with
      | .idle _ => none
      | .polling _ _ st =>
          (st.running.find? fun slot => slot.requestId = requestId).map fun slot =>
            let rest := st.manager.pool.resultQueue.tail
            (result, (complete (RowsSound.takeMessage st rest) slot result).1.manager.pool)
  | .pool .receive, some (requestId, result) =>
      (outstanding use.pool.current requestId).map fun _ =>
        (result, use.pool.receiveResult use.pool.current)
  | .executeReceive, some (requestId, result) =>
      use.executing.bind fun executing =>
        if requestId = executing.requestId then
          some (result, BranchWorkerPool.executeAnswer
            { use.pool with resultQueue := use.pool.resultQueue.tail } result
            executing.withRegistry)
        else none
  | _, _ => none

/-- The rows of a poll that are new, with the generation that each was sent to. -/
def newRows (before : BranchWorkerPool κ β) (phase : PollPhase κ β) : List (Nat × Nat) :=
  (phase.rows.filter fun slot => before.nextRequestId < slot.requestId).map fun slot =>
    (slot.workerId, (before.workers slot.workerId).workerGeneration)

/-- What a step of a poll sends once it has handled an answer. -/
def sendsAfter (schedule : PollSchedule) (admitted : List String) (st : PollState κ β)
    (event : PollEvent κ β) : List (Nat × Nat) :=
  newRows (handled st event).manager.pool
    (pollStep digests schedule admitted (.polling st) event).1

/-- What a step sends: the worker of each request, and its generation then. -/
def sends (use : PoolUse κ β) : PoolCall κ β → List (Nat × Nat)
  | .execute workerId _ _ =>
      match use.run with
      | .idle manager =>
          if use.Free then [(workerId, (manager.pool.workers workerId).workerGeneration)] else []
      | .polling _ _ _ => []
  | .pool (.dispatch items) =>
      match use.run with
      | .idle manager =>
          if use.Free then
            (manager.pool.sendBatch digests items).current.pending.map fun request =>
              (request.workerId, (manager.pool.workers request.workerId).workerGeneration)
          else []
      | .polling _ _ _ => []
  | .manager (.poll schedule branchIds) =>
      match use.run with
      | .idle manager =>
          if use.Free then
            match manager.admitPolled schedule.timeout branchIds with
            | .error _ => []
            | .ok admitted =>
                newRows manager.pool (pollStart digests schedule admitted manager)
          else []
      | .polling _ _ _ => []
  | .manager .receive =>
      match use.run with
      | .idle _ => []
      | .polling schedule admitted st =>
          match st.manager.pool.resultQueue with
          | [] => []
          | (requestId, result) :: rest =>
              sendsAfter digests schedule admitted (RowsSound.takeMessage st rest)
                (.result requestId result)
  | .manager (.empty now) =>
      match use.run with
      | .idle _ => []
      | .polling schedule admitted st => sendsAfter digests schedule admitted st (.empty now)
  | _ => []

end PoolUse

/-- The generation that an answer taints. -/
def taintMark (result : BranchResult κ β) : Option (Nat × Nat) :=
  match taintedWorker result, result.workerGeneration with
  | some workerId, some generation => some (workerId, generation)
  | _, _ => none

namespace TaintRun

variable (digests : Digests κ)

/-- The generation tainted by the answer that a step takes. -/
def mark (run : TaintRun κ β) (call : PoolCall κ β) : Option (Nat × Nat) :=
  (run.use.taken call).bind fun message => taintMark message.2

/-- A call on the pool, and the worker it leaves tainted. -/
def step (run : TaintRun κ β) (call : PoolCall κ β) : TaintRun κ β × Unit :=
  ({ use := run.use.act digests call
     tainted := run.tainted ++ (run.mark call).toList }, ())

/-- A pool that has just been started. -/
def start (workerCount : Nat) (workerCount_pos : 0 < workerCount) : TaintRun κ β :=
  { use :=
      { run := .idle
          { pool := .start workerCount workerCount_pos
            maxBranches_pos := maxBranches_default_pos } } }

/-- What is asked of a step: nothing is sent to a generation that has returned a
    taint, and an answer that is waited for has a worker replaced exactly when
    it taints it, whichever loop takes it. -/
structure StepSound (run : TaintRun κ β) (call : PoolCall κ β) : Prop where
  unsent : ∀ target ∈ run.use.sends digests call,
    target ∉ run.tainted ++ (run.mark call).toList
  agrees : ∀ result pool', run.use.answered call = some (result, pool') → ∀ workerId,
    (pool'.workers workerId).workerGeneration =
      (run.use.pool.workers workerId).workerGeneration +
        if taintedWorker result = some workerId then 1 else 0

/-- A poll takes no tainting fault of a request that it waits for. -/
def PollClear (run : TaintRun κ β) : PoolCall κ β → Prop
  | .manager .receive => ∀ schedule admitted st, run.use.run = .polling schedule admitted st →
      ∀ requestId result, st.manager.pool.resultQueue.head? = some (requestId, result) →
        (∃ slot ∈ st.running, slot.requestId = requestId) → taintedWorker result = none
  | _ => True

/-- The invariant: every tainted generation is of the past. -/
structure Inv (run : TaintRun κ β) : Prop where
  sound : run.use.Sound
  past : ∀ mark ∈ run.tainted,
    mark.2 < (run.use.pool.workers mark.1).workerGeneration

end TaintRun

/-! ### Generations -/

namespace BranchWorkerPool

/-- No worker is of an earlier generation. -/
def Ages (pool pool' : BranchWorkerPool κ β) : Prop :=
  ∀ workerId, (pool.workers workerId).workerGeneration ≤ (pool'.workers workerId).workerGeneration

theorem Withdraws.ages {pool pool' : BranchWorkerPool κ β} (h : Withdraws pool pool') :
    Ages pool pool' := h.generation_le

theorem Ages.trans {pool pool' pool'' : BranchWorkerPool κ β} (h : Ages pool pool')
    (h' : Ages pool' pool'') : Ages pool pool'' :=
  fun workerId => (h workerId).trans (h' workerId)

/-- Running a request leaves the generations. -/
theorem runWorker_generation (pool : BranchWorkerPool κ β) (digests : Digests κ)
    (workerId : Nat) (execution : Execution κ β) (other : Nat) :
    ((pool.runWorker digests workerId execution).workers other).workerGeneration =
      (pool.workers other).workerGeneration := by
  cases hqueue : (pool.workers workerId).inQueue with
  | nil => rw [runWorker_of_nil digests execution hqueue]
  | cons entry rest =>
      rw [runWorker_of_cons digests execution hqueue]
      dsimp only
      rw [setWorker_workers]
      split
      · rename_i heq
        rw [heq]
      · rfl

theorem enqueue_generation (pool : BranchWorkerPool κ β) (workerId : Nat)
    (request : WorkerExecutionRequest κ β) (other : Nat) :
    ((pool.enqueue workerId request).workers other).workerGeneration =
      (pool.workers other).workerGeneration := by
  unfold enqueue
  dsimp only
  rw [setWorker_workers]
  split
  · rename_i heq
    rw [heq]
  · rfl

theorem sendItems_generation (digests : Digests κ) (items : List (WorkItem κ β)) (other : Nat) :
    ∀ pool : BranchWorkerPool κ β,
      ((items.foldl (sendItem digests) pool).workers other).workerGeneration =
        (pool.workers other).workerGeneration := by
  induction items with
  | nil => exact fun pool => rfl
  | cons item rest ih => exact fun pool => (ih _).trans (enqueue_generation pool _ _ other)

/-- A replaced worker is one generation further, and no other. -/
theorem respawn_generation (pool : BranchWorkerPool κ β) (workerId : Nat) (withRegistry : Bool)
    (other : Nat) :
    ((pool.respawn workerId withRegistry).workers other).workerGeneration =
      (pool.workers other).workerGeneration + if some workerId = some other then 1 else 0 := by
  have hworkers : (pool.respawn workerId withRegistry).workers other =
      if other = workerId then { workerGeneration := (pool.workers workerId).workerGeneration + 1 }
      else pool.workers other := by
    cases withRegistry with
    | true => exact replaceWorker_workers pool workerId _ other
    | false => exact replaceWorker_workers pool workerId _ other
  rw [hworkers]
  by_cases hsame : other = workerId
  · rw [if_pos hsame, hsame, if_pos rfl]
  · rw [if_neg hsame, if_neg fun heq => hsame (Option.some.inj heq).symm, Nat.add_zero]

/-- `execute` replaces the worker that the answer taints, and no other. -/
theorem executeAnswer_generation (pool : BranchWorkerPool κ β) (result : BranchResult κ β)
    (withRegistry : Bool) (other : Nat) :
    ((pool.executeAnswer result withRegistry).workers other).workerGeneration =
      (pool.workers other).workerGeneration +
        if taintedWorker result = some other then 1 else 0 := by
  unfold executeAnswer
  cases taintedWorker result with
  | none => rfl
  | some workerId => exact respawn_generation pool workerId withRegistry other

/-- So does a batch. -/
theorem receiveResult_generation {pool : BranchWorkerPool κ β} {batch : Batch κ β}
    {requestId : Nat} {result : BranchResult κ β} {rest : List (Nat × BranchResult κ β)}
    {request : PendingRequest κ β} (hqueue : pool.resultQueue = (requestId, result) :: rest)
    (hwaits : outstanding batch requestId = some request) (other : Nat) :
    ((pool.receiveResult batch).workers other).workerGeneration =
      (pool.workers other).workerGeneration +
        if taintedWorker result = some other then 1 else 0 := by
  have hanswer : pool.receiveResult batch = executeAnswer
      { pool with resultQueue := rest, batch := some (record batch request result) } result
      true := by
    unfold receiveResult executeAnswer taintedWorker
    rw [hqueue]
    dsimp only
    rw [hwaits]
    dsimp only
    cases result.status with
    | success => rfl
    | fault =>
        cases result.workerId with
        | none => rfl
        | some workerId =>
            dsimp only
            split
            · rfl
            · rfl
  rw [hanswer]
  exact executeAnswer_generation _ result true other

/-- An answer that is received ages no worker but one that was replaced. -/
theorem receiveResult_ages (pool : BranchWorkerPool κ β) (batch : Batch κ β) :
    Ages pool (pool.receiveResult batch) := by
  intro other
  rcases hqueue : pool.resultQueue with _ | ⟨⟨requestId, result⟩, rest⟩
  · unfold receiveResult
    rw [hqueue]
  · cases hwaits : outstanding batch requestId with
    | none =>
        unfold receiveResult
        rw [hqueue]
        dsimp only
        rw [hwaits]
    | some request =>
        rw [receiveResult_generation hqueue hwaits]
        omega

/-- Every step of the pool only lets workers age. -/
theorem step_ages (digests : Digests κ) (pool : BranchWorkerPool κ β) (event : PoolEvent κ β) :
    Ages pool (pool.step digests event).1 := by
  -- One case for each event of a pool; only a worker that is started again changes generation.
  cases event with
  | run workerId execution =>
      exact fun other => le_of_eq (pool.runWorker_generation digests workerId execution other).symm
  | dispatch items =>
      cases hbatch : pool.batch with
      | some batch =>
          simp only [step, hbatch]
          exact fun other => Nat.le_refl _
      | none =>
          simp only [step, hbatch]
          exact fun other => le_of_eq (sendItems_generation digests items other
            { pool with batch := some { nextBootstrapIndex := pool.nextBootstrapIndex } }).symm
  | respawn workerId withRegistry =>
      cases hbatch : pool.batch with
      | some batch =>
          simp only [step, hbatch]
          exact fun other => Nat.le_refl _
      | none =>
          simp only [step, hbatch]
          exact (PoolUse.withdraws_respawn pool workerId withRegistry).1.ages
  | receive =>
      cases hbatch : pool.batch with
      | none =>
          simp only [step, hbatch]
          exact fun other => Nat.le_refl _
      | some batch =>
          simp only [step, hbatch]
          split
          · exact fun other => Nat.le_refl _
          · exact receiveResult_ages pool batch
  | timeOut =>
      cases hbatch : pool.batch with
      | none =>
          simp only [step, hbatch]
          exact fun other => Nat.le_refl _
      | some batch =>
          simp only [step, hbatch]
          split
          · exact fun other => Nat.le_refl _
          · exact (BatchSound.withdraws_respawnWorkers _ pool).1.ages
  | settle =>
      cases hbatch : pool.batch with
      | none =>
          simp only [step, hbatch]
          exact fun other => Nat.le_refl _
      | some batch =>
          simp only [step, hbatch]
          split
          · exact fun other => Nat.le_refl _
          · exact fun other => Nat.le_refl _

end BranchWorkerPool

namespace PoolUse

variable {digests : Digests κ}

/-- And so does every call on the manager. -/
theorem manager_ages (run : ManagerRun κ β) (call : ManagerCall κ β) (hsound : run.Sound) :
    Ages run.pool (run.step digests call).1.pool := by
  refine ManagerRun.step_induction (P := fun manager _ => Ages run.pool manager.pool) digests
    ?_ ?_ ?_ ?_ ?_ ?_ ?_ run call hsound fun other => Nat.le_refl _
  · exact fun manager manager' hages hpool => hages.trans hpool.ages
  · intro admitted st workerId execution hrows hages other
    exact (hages other).trans_eq
      (st.manager.pool.runWorker_generation digests workerId execution other).symm
  · intro schedule admitted st st' hrows hages hmove
    cases hmove with
    | skip waiting hsub => exact hages
    | launch => exact fun other => (hages other).trans_eq (enqueue_generation _ _ _ other).symm
  · exact fun admitted st slot hrows hages hslot =>
      hages.trans (hrows.expire_withdraws hslot).1.ages
  · exact fun st message rest hages _ => hages
  · intro admitted st slot result rest hrows hages hslot hqueue
    rcases hrows.complete_eq hslot rest result with ⟨record, item, -, -, -, heq⟩
    rw [heq]
    exact hages
  · exact fun admitted st hrows hages =>
      hages.trans (withdraws_quarantine st.manager admitted).ages

theorem executeReceive_ages (use : PoolUse κ β) (executing : Executing) :
    Ages use.pool (use.executeReceive executing).pool := by
  intro other
  rcases hqueue : use.pool.resultQueue with _ | ⟨⟨requestId, result⟩, rest⟩
  · rw [executeReceive_of_nil use executing hqueue]
  · rw [executeReceive_of_cons use executing hqueue]
    split
    · simp only [pool, ManagerRun.withPool_pool]
      have hanswer := executeAnswer_generation { use.run.pool with resultQueue := rest } result
        executing.withRegistry other
      exact (Nat.le_add_right _ _).trans_eq hanswer.symm
    · simp only [pool, ManagerRun.withPool_pool]
      exact Nat.le_refl _

/-- No step takes a worker to an earlier generation. -/
theorem act_ages (digests : Digests κ) (use : PoolUse κ β) (call : PoolCall κ β)
    (h : use.Sound) :
    Ages use.pool (use.act digests call).pool := by
  have hrefl : Ages use.pool use.pool := fun other => Nat.le_refl _
  -- In each case the use of the pool decides whether the call is possible, and a call that is
  -- not changes nothing.
  cases call with
  | run workerId execution =>
      intro other
      simp only [act, pool, ManagerRun.withPool_pool]
      rw [runWorker_generation]
  | handOver manager registry =>
      cases h with
      | free run hbatch hsound haged =>
          cases run with
          | idle old =>
              have hfree : PoolUse.Free { run := ManagerRun.idle old } := ⟨rfl, hbatch⟩
              simp only [act, if_pos hfree]
              exact hrefl
          | polling schedule admitted st => exact hrefl
      | batch old batch hbatch hsound =>
          simp only [act, if_neg (not_free_of_batch hbatch)]
          exact hrefl
      | executing old executing hbatch haccounts haged => exact hrefl
  | manager call =>
      cases h with
      | free run hbatch hsound haged =>
          have hfree : PoolUse.Free { run } := ⟨rfl, hbatch⟩
          simp only [act, if_pos hfree]
          exact manager_ages run call hsound
      | batch old batch hbatch hsound =>
          simp only [act, if_neg (not_free_of_batch hbatch)]
          exact hrefl
      | executing old executing hbatch haccounts haged => exact hrefl
  | pool event =>
      cases h with
      | free run hbatch hsound haged =>
          cases run with
          | idle manager => exact step_ages digests manager.pool event
          | polling schedule admitted st => exact hrefl
      | batch manager batch hbatch hsound => exact step_ages digests manager.pool event
      | executing manager executing hbatch haccounts haged => exact hrefl
  | execute workerId request withRegistry =>
      cases h with
      | free run hbatch hsound haged =>
          cases run with
          | idle manager =>
              have hfree : PoolUse.Free { run := ManagerRun.idle manager } := ⟨rfl, hbatch⟩
              simp only [act, if_pos hfree]
              exact fun other =>
                le_of_eq (manager.pool.enqueue_generation workerId request other).symm
          | polling schedule admitted st => exact hrefl
      | batch manager batch hbatch hsound =>
          simp only [act, if_neg (not_free_of_batch hbatch)]
          exact hrefl
      | executing manager executing hbatch haccounts haged => exact hrefl
  | executeReceive =>
      cases h with
      | free run hbatch hsound haged => exact hrefl
      | batch manager batch hbatch hsound => exact hrefl
      | executing manager executing hbatch haccounts haged =>
          exact executeReceive_ages _ executing
  | executeTimeOut =>
      cases h with
      | free run hbatch hsound haged => exact hrefl
      | batch manager batch hbatch hsound => exact hrefl
      | executing manager executing hbatch haccounts haged =>
          exact (withdraws_respawn manager.pool executing.workerId executing.withRegistry).1.ages

end PoolUse

/-! ### Sound steps -/

/-- A mark names the worker and the generation of the result. -/
theorem taintMark_eq_some {result : BranchResult κ β} {mark : Nat × Nat}
    (h : taintMark result = some mark) :
    taintedWorker result = some mark.1 ∧ result.workerId = some mark.1 ∧
      result.workerGeneration = some mark.2 := by
  unfold taintMark at h
  cases htainted : taintedWorker result with
  | none =>
      rw [htainted] at h
      cases h
  | some workerId =>
      rw [htainted] at h
      cases hgeneration : result.workerGeneration with
      | none =>
          rw [hgeneration] at h
          cases h
      | some generation =>
          rw [hgeneration] at h
          cases h
          refine ⟨rfl, ?_, rfl⟩
          unfold taintedWorker at htainted
          split at htainted
          · rename_i workerId' _ hworker
            split at htainted
            · rw [hworker, htainted]
            · cases htainted
          · cases htainted

namespace TaintRun

variable {digests : Digests κ}

/-- A mark is the mark of the answer that was taken. -/
theorem mark_eq_some {run : TaintRun κ β} {call : PoolCall κ β} {mark : Nat × Nat}
    (h : run.mark call = some mark) :
    ∃ requestId result, run.use.taken call = some (requestId, result) ∧
      taintMark result = some mark := by
  unfold TaintRun.mark at h
  rcases Option.bind_eq_some_iff.1 h with ⟨⟨requestId, result⟩, htaken, hmark⟩
  exact ⟨requestId, result, htaken, hmark⟩

/-- An answer that nobody waits for is marked too late to matter. -/
theorem stray_past {pool : BranchWorkerPool κ β} {rows : List (Nat × Nat)} (haged : Aged pool rows)
    {requestId : Nat} {result : BranchResult κ β} {mark : Nat × Nat}
    (hhead : pool.resultQueue.head? = some (requestId, result))
    (hmark : taintMark result = some mark) :
    mark.2 ≤ (pool.workers mark.1).workerGeneration ∧
      (requestId ∉ rows.map Prod.fst → mark.2 < (pool.workers mark.1).workerGeneration) := by
  rcases taintMark_eq_some hmark with ⟨-, hworker, hgeneration⟩
  exact haged _ (List.mem_of_mem_head? hhead) mark.1 mark.2 hworker hgeneration

/-- What a clear poll marks is of the past. -/
theorem poll_mark_past {schedule : PollSchedule} {admitted : List String} {st : PollState κ β}
    {run : TaintRun κ β} (hpoll : run.use.run = .polling schedule admitted st)
    (haged : Aged st.manager.pool (st.running.map Outstanding.row))
    (hclear : run.PollClear (.manager .receive)) {mark : Nat × Nat}
    (hmark : run.mark (.manager .receive) = some mark) :
    mark.2 < (st.manager.pool.workers mark.1).workerGeneration := by
  rcases mark_eq_some hmark with ⟨requestId, result, htaken, hmarked⟩
  unfold PoolUse.taken at htaken
  rw [hpoll] at htaken
  refine (stray_past haged htaken hmarked).2 fun hrow => ?_
  rcases List.mem_map.1 hrow with ⟨row, hmem, hid⟩
  rcases List.mem_map.1 hmem with ⟨slot, hslot, rfl⟩
  have huntainted := hclear schedule admitted st hpoll requestId result htaken ⟨slot, hslot, hid⟩
  rw [(taintMark_eq_some hmarked).1] at huntainted
  cases huntainted

/-- An answer under an id that no request of the batch waits for has no row. -/
theorem not_mem_batchRows {batch : Batch κ β} {requestId : Nat}
    (h : outstanding batch requestId = none) : requestId ∉ (batchRows batch).map Prod.fst := by
  intro hrow
  rcases List.mem_map.1 hrow with ⟨row, hmem, hid⟩
  rcases List.mem_map.1 hmem with ⟨request, hrequest, rfl⟩
  rcases List.mem_filter.1 hrequest with ⟨hpending, hwaits⟩
  unfold outstanding at h
  rw [List.find?_eq_none] at h
  rw [decide_eq_true_eq] at hwaits
  have hid' : request.requestId = requestId := hid
  refine h request hpending ?_
  rw [decide_eq_true_eq]
  exact ⟨hid', hid' ▸ hwaits⟩

/-- What a clear step marks is of the past when the step is over. A batch and a
    single request replace the worker of an answer that they wait for. -/
theorem mark_past {use : PoolUse κ β} {tainted : List (Nat × Nat)} (hsound : use.Sound)
    {call : PoolCall κ β} (hclear : PollClear ⟨use, tainted⟩ call) {mark : Nat × Nat}
    (hmark : TaintRun.mark ⟨use, tainted⟩ call = some mark) :
    mark.2 < ((use.act digests call).pool.workers mark.1).workerGeneration := by
  -- Generations only grow, so it is enough that the taint is past once the call is made.
  have hages := use.act_ages digests call hsound
  rcases mark_eq_some hmark with ⟨requestId, result, htaken, hmarked⟩
  have htainted := (taintMark_eq_some hmarked).1
  -- Who took the message decides who starts the worker again.
  cases hsound with
  | free run hbatch hrun haged =>
      cases run with
      -- Between two polls a message is taken by no one.
      | idle manager =>
          unfold PoolUse.taken at htaken
          split at htaken
          · cases htaken
          · have hnone : manager.pool.batch = none := hbatch
            simp only [PoolUse.pool, ManagerRun.pool, ManagerRun.manager, hnone] at htaken
            cases htaken
          · cases htaken
          · cases htaken
      | polling schedule admitted st =>
          unfold PoolUse.taken at htaken
          split at htaken
          · exact Nat.lt_of_lt_of_le (poll_mark_past rfl haged hclear hmark) (hages mark.1)
          · cases htaken
          · cases htaken
          · cases htaken
  -- A batch collects: an answer to one of its requests starts the worker again, and an answer
  -- that strayed is of a generation that is gone.
  | batch manager batch hbatch hcollect =>
      unfold PoolUse.taken at htaken
      split at htaken
      · cases htaken
      · simp only [PoolUse.pool, ManagerRun.pool, ManagerRun.manager, hbatch] at htaken
        split at htaken
        · cases htaken
        · rename_i hremaining
          have hstep : (manager.pool.step digests .receive).1 =
            manager.pool.receiveResult batch := by
            simp only [BranchWorkerPool.step, hbatch, if_neg hremaining]
          rcases stray_past hcollect.aged htaken hmarked with ⟨hle, hstray⟩
          rcases List.head?_eq_some_iff.1 htaken with ⟨rest, hqueue⟩
          change mark.2 < ((manager.pool.step digests .receive).1.workers mark.1).workerGeneration
          rw [hstep]
          cases hwaits : outstanding batch requestId with
          | none =>
              exact Nat.lt_of_lt_of_le (hstray (not_mem_batchRows hwaits))
                (receiveResult_ages manager.pool batch mark.1)
          | some request =>
              rw [receiveResult_generation hqueue hwaits, if_pos htainted]
              omega
      · cases htaken
      · cases htaken
  -- A single request is waited for, in the same two cases.
  | executing manager executing hbatch haccounts haged =>
      unfold PoolUse.taken at htaken
      split at htaken
      · cases htaken
      · cases htaken
      · change manager.pool.resultQueue.head? = _ at htaken
        rcases stray_past haged htaken hmarked with ⟨hle, hstray⟩
        rcases List.head?_eq_some_iff.1 htaken with ⟨rest, hqueue⟩
        by_cases hid : requestId = executing.requestId
        · let use : PoolUse κ β := { run := .idle manager, executing := some executing }
          have hreceive := PoolUse.executeReceive_of_cons use executing hqueue
          rw [if_pos hid] at hreceive
          change mark.2 < ((use.executeReceive executing).pool.workers mark.1).workerGeneration
          rw [hreceive]
          simp only [PoolUse.pool, ManagerRun.withPool_pool]
          rw [executeAnswer_generation, if_pos htainted]
          exact Nat.lt_succ_of_le hle
        · refine Nat.lt_of_lt_of_le (hstray fun hrow => hid ?_) (hages mark.1)
          rw [List.map_singleton, List.mem_singleton] at hrow
          exact hrow
      · cases htaken

/-- Every step that is clear leaves the tainted generations in the past. -/
theorem Inv.step {run : TaintRun κ β} (h : run.Inv) (call : PoolCall κ β)
    (hclear : run.PollClear call) : (run.step digests call).1.Inv := by
  have hages := run.use.act_ages digests call h.sound
  refine ⟨PoolUse.sound_act run.use call h.sound, fun mark hmem => ?_⟩
  rcases List.mem_append.1 hmem with hold | hnew
  · exact Nat.lt_of_lt_of_le (h.past mark hold) (hages mark.1)
  · rw [Option.mem_toList] at hnew
    exact mark_past h.sound hclear hnew

/-- Handling an answer takes no worker to an earlier generation. -/
theorem handled_ages {admitted : List String} {st : PollState κ β} (hrows : RowsSound admitted st) :
    (∀ now, Ages st.manager.pool (handled st (.empty now)).manager.pool) ∧
      ∀ requestId result rest, st.manager.pool.resultQueue = (requestId, result) :: rest →
        Ages st.manager.pool
          (handled (RowsSound.takeMessage st rest) (.result requestId result)).manager.pool := by
  constructor
  · intro now
    exact (RowsSound.expireAll_induction (P := fun st' => Ages st.manager.pool st'.manager.pool)
      (fun st' slot hrows' hslot hages => hages.trans (hrows'.expire_withdraws hslot).1.ages) _
      (hrows.slots_nodup.filter _) st hrows (fun slot hslot => List.mem_of_mem_filter hslot)
      fun other => Nat.le_refl _).2
  · intro requestId result rest hqueue
    rcases ManagerRun.handled_result hqueue with hdropped | ⟨slot, hslot, -, hcompleted⟩
    · rw [hdropped]
      exact fun other => Nat.le_refl _
    · rcases hrows.complete_eq hslot rest result with ⟨record, item, -, -, -, heq⟩
      rw [hcompleted, heq]
      exact fun other => Nat.le_refl _

theorem newRows_generation {before : BranchWorkerPool κ β} {phase : PollPhase κ β}
    {target : Nat × Nat} (h : target ∈ PoolUse.newRows before phase) :
    target.2 = (before.workers target.1).workerGeneration := by
  rcases List.mem_map.1 h with ⟨slot, -, rfl⟩
  rfl

/-- What a step sends goes to a generation that is current in the step. -/
theorem sends_generation {use : PoolUse κ β} (hsound : use.Sound) (call : PoolCall κ β)
    {target : Nat × Nat} (h : target ∈ use.sends digests call) :
    (use.pool.workers target.1).workerGeneration ≤ target.2 := by
  -- What is idle has the pool of its manager.
  have hidle : ∀ manager : BranchManager κ β, use.run = .idle manager → use.pool =
    manager.pool := by
    intro manager hrun
    rw [PoolUse.pool, hrun]
    rfl
  unfold PoolUse.sends at h
  split at h
  · split at h
    · rename_i manager hrun
      split at h
      · rw [List.mem_singleton.1 h, hidle manager hrun]
      · cases h
    · cases h
  · split at h
    · rename_i manager hrun
      split at h
      · rcases List.mem_map.1 h with ⟨request, -, rfl⟩
        rw [hidle manager hrun]
      · cases h
    · cases h
  · split at h
    · rename_i manager hrun
      split at h
      · split at h
        · cases h
        · rw [newRows_generation h, hidle manager hrun]
      · cases h
    · cases h
  -- In a poll the rows that are new were sent to workers as they are after the call.
  · cases hsound with
    | free run hbatch hrun haged =>
        cases run with
        | idle manager => cases h
        | polling schedule admitted st =>
            have hrows : RowsSound admitted st := hrun
            dsimp only at h
            split at h
            · cases h
            · rename_i requestId result rest hqueue
              rw [newRows_generation h]
              exact (handled_ages hrows).2 requestId result rest hqueue target.1
    | batch manager batch hbatch hcollect => cases h
    | executing manager executing hbatch haccounts haged => cases h
  · cases hsound with
    | free run hbatch hrun haged =>
        cases run with
        | idle manager => cases h
        | polling schedule admitted st =>
            have hrows : RowsSound admitted st := hrun
            rw [newRows_generation h]
            exact (handled_ages hrows).1 _ target.1
    | batch manager batch hbatch hcollect => cases h
    | executing manager executing hbatch haccounts haged => cases h
  · cases h

/-- A step that both takes an answer and sends something is one of a poll. -/
theorem poll_of_sends {use : PoolUse κ β} {call : PoolCall κ β} {target : Nat × Nat}
    {message : Nat × BranchResult κ β} (hsends : target ∈ use.sends digests call)
    (htaken : use.taken call = some message) :
    call = .manager .receive ∧ ∃ schedule admitted st,
      use.run = .polling schedule admitted st := by
  unfold PoolUse.taken at htaken
  split at htaken
  · split at htaken
    · cases htaken
    · rename_i schedule admitted st hrun
      exact ⟨rfl, schedule, admitted, st, hrun⟩
  · cases hsends
  · cases hsends
  · cases htaken

/-- A poll leaves the worker of an answer alone, tainted or not. -/
theorem complete_generation {admitted : List String} {st : PollState κ β}
    (hrows : RowsSound admitted st) {slot : Outstanding} (hslot : slot ∈ st.running)
    (rest : List (Nat × BranchResult κ β)) (result : BranchResult κ β) :
    (complete (RowsSound.takeMessage st rest) slot result).1.manager.pool.workers =
      st.manager.pool.workers := by
  rcases hrows.complete_eq hslot rest result with ⟨record, item, -, -, -, heq⟩
  rw [heq]
  rfl

theorem sound_polling {use : PoolUse κ β} (hsound : use.Sound) {schedule : PollSchedule}
    {admitted : List String} {st : PollState κ β}
    (hpoll : use.run = .polling schedule admitted st) :
    RowsSound admitted st ∧ Aged st.manager.pool (st.running.map Outstanding.row) := by
  cases hsound with
  | free run hbatch hrun haged =>
      have hrun' : run = .polling schedule admitted st := hpoll
      subst hrun'
      exact ⟨hrun, haged⟩
  | batch manager batch hbatch hcollect => cases hpoll
  | executing manager executing hbatch haccounts haged => cases hpoll

/-- The answer that a poll takes, when it waits for it. -/
theorem answered_poll {use : PoolUse κ β} {schedule : PollSchedule} {admitted : List String}
    {st : PollState κ β} (hpoll : use.run = .polling schedule admitted st) {requestId : Nat}
    {result : BranchResult κ β} {rest : List (Nat × BranchResult κ β)}
    (hqueue : st.manager.pool.resultQueue = (requestId, result) :: rest) :
    use.answered (.manager .receive) =
      (st.running.find? fun slot => slot.requestId = requestId).map fun slot =>
        (result, (complete (RowsSound.takeMessage st rest) slot result).1.manager.pool) := by
  unfold PoolUse.answered PoolUse.taken
  dsimp only
  rw [hpoll]
  dsimp only
  rw [hqueue]
  rfl

/-- A poll that is clear agrees with the other loops, as it takes no taint. -/
theorem poll_agrees {use : PoolUse κ β} (hsound : use.Sound) {schedule : PollSchedule}
    {admitted : List String} {st : PollState κ β}
    (hpoll : use.run = .polling schedule admitted st) {requestId : Nat} {result : BranchResult κ β}
    (rest : List (Nat × BranchResult κ β)) {slot : Outstanding}
    (hfind : (st.running.find? fun slot => slot.requestId = requestId) = some slot) :
    (∀ workerId, ((complete (RowsSound.takeMessage st rest) slot result).1.manager.pool.workers
        workerId).workerGeneration = (use.pool.workers workerId).workerGeneration +
          if taintedWorker result = some workerId then 1 else 0) ↔
      taintedWorker result = none := by
  have hrows := (sound_polling hsound hpoll).1
  have hslot := List.mem_of_find?_eq_some hfind
  have hpool : use.pool.workers = st.manager.pool.workers := by
    rw [PoolUse.pool, hpoll]
    rfl
  rw [complete_generation hrows hslot, hpool]
  constructor
  · intro hagrees
    rw [Option.eq_none_iff_forall_ne_some]
    intro workerId htainted
    have hworker := hagrees workerId
    rw [if_pos htainted] at hworker
    omega
  · intro hnone workerId
    rw [hnone, if_neg (by simp), Nat.add_zero]

/-- What a step takes is the next answer on the queue. -/
theorem taken_head {use : PoolUse κ β} {call : PoolCall κ β} {message : Nat × BranchResult κ β}
    (h : use.taken call = some message) : use.pool.resultQueue.head? = some message := by
  unfold PoolUse.taken at h
  split at h
  · split at h
    · cases h
    · rename_i schedule admitted st hrun
      rw [PoolUse.pool, hrun]
      exact h
  · split at h
    · rename_i manager batch hrun hexecuting hbatch
      rw [PoolUse.pool, hrun]
      split at h
      · cases h
      · exact h
    · cases h
  · split at h
    · cases h
    · exact h
  · cases h

/-- The other loops agree on every answer. -/
theorem agrees_of_not_poll {use : PoolUse κ β} {call : PoolCall κ β}
    (hcall : call ≠ .manager .receive) {result : BranchResult κ β} {pool' : BranchWorkerPool κ β}
    (hanswered : use.answered call = some (result, pool')) (workerId : Nat) :
    (pool'.workers workerId).workerGeneration = (use.pool.workers workerId).workerGeneration +
      if taintedWorker result = some workerId then 1 else 0 := by
  unfold PoolUse.answered at hanswered
  split at hanswered
  · exact absurd rfl hcall
  · rename_i requestId result' htaken
    rcases Option.map_eq_some_iff.1 hanswered with ⟨request, hwaits, heq⟩
    cases heq
    have hhead := taken_head htaken
    rcases List.head?_eq_some_iff.1 hhead with ⟨rest, hqueue⟩
    exact receiveResult_generation hqueue hwaits workerId
  · rename_i requestId result' htaken
    rcases Option.bind_eq_some_iff.1 hanswered with ⟨executing, hexecuting, hown⟩
    split at hown
    · cases hown
      exact executeAnswer_generation _ result executing.withRegistry workerId
    · cases hown
  · cases hanswered

/-- A step is sound exactly when it is clear. -/
theorem stepSound_iff {run : TaintRun κ β} (h : run.Inv) (call : PoolCall κ β) :
    run.PollClear call ↔ run.StepSound digests call := by
  -- A step that never meets a taint sends nothing to one and agrees on the generation.
  constructor
  · intro hclear
    -- A request to a tainted worker would be to a generation that is past.
    refine ⟨fun target hsends hmarked => ?_, fun result pool' hanswered workerId => ?_⟩
    · have hcurrent := sends_generation h.sound call hsends
      rcases List.mem_append.1 hmarked with hold | hnew
      · have hpast := h.past target hold
        omega
      · rw [Option.mem_toList] at hnew
        rcases mark_eq_some hnew with ⟨requestId, result, htaken, -⟩
        rcases poll_of_sends hsends htaken with ⟨hcall, schedule, admitted, st, hpoll⟩
        rw [hcall] at hclear hnew
        have hpast := poll_mark_past hpoll (sound_polling h.sound hpoll).2 hclear hnew
        rw [PoolUse.pool, hpoll] at hcurrent
        exact absurd (Nat.lt_of_lt_of_le hpast hcurrent) (Nat.lt_irrefl _)
    -- Only an answer taken in a poll can leave a worker as it is.
    · by_cases hcall : call = .manager .receive
      · subst hcall
        rcases hrun : run.use.run with manager | ⟨schedule, admitted, st⟩
        · unfold PoolUse.answered PoolUse.taken at hanswered
          rw [hrun] at hanswered
          cases hanswered
        · rcases hqueue : st.manager.pool.resultQueue with _ | ⟨⟨requestId, taken⟩, rest⟩
          · unfold PoolUse.answered PoolUse.taken at hanswered
            rw [hrun] at hanswered
            dsimp only at hanswered
            rw [hqueue] at hanswered
            cases hanswered
          · rw [answered_poll hrun hqueue] at hanswered
            rcases Option.map_eq_some_iff.1 hanswered with ⟨slot, hfind, heq⟩
            cases heq
            refine (poll_agrees h.sound hrun rest hfind).2 ?_ workerId
            have hid := List.find?_some hfind
            rw [decide_eq_true_eq] at hid
            refine hclear schedule admitted st hrun requestId result ?_
              ⟨slot, List.mem_of_find?_eq_some hfind, hid⟩
            rw [hqueue]
            rfl
      · exact agrees_of_not_poll hcall hanswered workerId
  -- Conversely, the answer of a poll is one that both sides agree on.
  · intro hsound
    unfold PollClear
    split
    · intro schedule admitted st hrun requestId result hhead hwaits
      rcases List.head?_eq_some_iff.1 hhead with ⟨rest, hqueue⟩
      rcases hfind : st.running.find? fun slot => slot.requestId = requestId with _ | slot
      · rcases hwaits with ⟨slot, hslot, hid⟩
        rw [List.find?_eq_none] at hfind
        exact absurd (decide_eq_true hid) (hfind slot hslot)
      · refine (poll_agrees h.sound hrun rest hfind).1 (hsound.agrees result _ ?_)
        rw [answered_poll hrun hqueue, hfind]
        rfl
    · trivial

theorem inv_start (workerCount : Nat) (workerCount_pos : 0 < workerCount) :
    (start workerCount workerCount_pos : TaintRun κ β).Inv := by
  refine ⟨.of_idle rfl ⟨?_, List.nodup_nil, ?_, fun _ => List.nodup_nil, ?_, List.nodup_nil, ?_,
    ?_⟩ ?_, fun mark hmem => absurd hmem List.not_mem_nil⟩
  · exact fun row hrow => absurd hrow List.not_mem_nil
  · exact fun workerId entry hmem => absurd hmem List.not_mem_nil
  · exact fun message hmem => absurd hmem List.not_mem_nil
  · exact fun workerId entry hmem => absurd hmem List.not_mem_nil
  · exact fun message hmem => absurd hmem List.not_mem_nil
  · exact fun message hmem => absurd hmem List.not_mem_nil

/-- The steps of a run are sound exactly when no poll takes a taint that it waits
    for. -/
theorem tainted_not_reused_iff (digests : Digests κ) (workerCount : Nat)
    (workerCount_pos : 0 < workerCount) (calls : List (PoolCall κ β)) :
    Run.Along (step digests) (StepSound digests) (start workerCount workerCount_pos) calls ↔
      Run.Along (step digests) PollClear (start workerCount workerCount_pos) calls :=
  (Run.along_congr (step digests) (I := Inv) (fun _ call h => stepSound_iff h call)
    (fun _ call h hclear => h.step call hclear) _ calls
    (inv_start workerCount workerCount_pos)).symm

/-- A replay in which the host process fails as combat ends. -/
def taintedExecution : Execution Unit Unit :=
  { choiceExecution "STRIKE" with
    replay := .raised
      { typeName := "NullReferenceException", message := "at CombatManager.CheckWinCondition" } }

/-- Two branches on one worker, whose process is tainted by the first. -/
def taintedPollRun : List (PoolCall Unit Unit) :=
  [.manager (.submit [(cardItem "STRIKE", none), (cardItem "DEFEND", none)]),
    .manager (.poll ⟨1, fun _ => 0, fun _ => none⟩ none),
    .run 0 taintedExecution,
    .manager .receive]

/-- The poll sends the second branch to the tainted process. -/
theorem tainted_worker_reused :
    ¬ Run.Along (step lastActionDigests) (StepSound lastActionDigests) (start 1 Nat.one_pos)
      taintedPollRun := by
  rintro ⟨-, -, -, hreceive, -⟩
  refine hreceive.unsent (0, 1) ?_ ?_
  · decide +kernel
  · decide +kernel

/-- Sent one by one, the second request meets a new process. -/
theorem tainted_worker_replaced :
    Run.Along (step lastActionDigests) (StepSound lastActionDigests) (start 1 Nat.one_pos)
      [.execute 0 ⟨cardItem "STRIKE", .bootstrapStep, none⟩ false,
        .run 0 taintedExecution,
        .executeReceive,
        .execute 0 ⟨cardItem "DEFEND", .bootstrapStep, none⟩ false] :=
  (tainted_not_reused_iff lastActionDigests 1 Nat.one_pos _).2
    ⟨trivial, trivial, trivial, trivial, trivial⟩

end TaintRun

end Combat

end STS2RL
