import STS2RL.Combat.ManagerLeases

/-!
# A Pool and All That Send to It

Three loops send requests to the workers of a pool and take their answers from
its one result queue: `execute` for a single request, `dispatch_work_items` for a
batch, and the poll of a branch manager. They do not run at the same time, and
whichever has the queue waits for the requests that it has sent.

Every loop drops an answer that it does not wait for. Such an answer is of the
past: whoever gave up waiting for it has replaced the worker. So the answers on
the queue are of two kinds, told apart by the rows of whoever waits, and the
answers without a row name a generation that is gone.

## Main definitions

* `PoolUse`, `PoolCall`, `PoolUse.act`: The machine.
* `batchRows`: The rows of a batch.
* `Aged`: Answers without a row are of a generation that is gone.
* `PoolUse.Sound`: The accounts of whoever waits fit, and the answers are aged.

## Theorems

* `Aged.withdraw`, `Aged.run`, `Aged.enqueue`, `Aged.take`: What each step keeps.
* `BatchSound.sendItem`, `BatchSound.receiveResult`, `BatchSound.timeOutRequests`:
  The accounts of a batch.
* `PoolUse.sound_act`: Every step keeps both.
-/

namespace STS2RL

namespace Combat

variable {κ β : Type}

namespace BranchWorkerPool

/-- An answer is of no later generation than its worker, and of an earlier one
    when nobody waits for it. -/
def Aged (pool : BranchWorkerPool κ β) (rows : List (Nat × Nat)) : Prop :=
  ∀ message ∈ pool.resultQueue, ∀ workerId generation, message.2.workerId = some workerId →
    message.2.workerGeneration = some generation →
      generation ≤ (pool.workers workerId).workerGeneration ∧
        (message.1 ∉ rows.map Prod.fst → generation < (pool.workers workerId).workerGeneration)

namespace Aged

variable {pool pool' : BranchWorkerPool κ β} {rows rows' : List (Nat × Nat)}

/-- Workers are replaced, and only their rows are closed. -/
theorem withdraw (h : Aged pool rows) (haccounts : Accounts pool rows)
    (hpool : Withdraws pool pool')
    (hclosed : ∀ row ∈ rows, row ∈ rows' ∨ Replaced pool pool' row.2) : Aged pool' rows' := by
  intro message hmem workerId generation hworker hgeneration
  rw [hpool.resultQueue] at hmem
  rcases h message hmem workerId generation hworker hgeneration with ⟨hle, hpast⟩
  have hgrows := hpool.generation_le workerId
  refine ⟨by omega, fun hnone => ?_⟩
  by_cases hrow : message.1 ∈ rows.map Prod.fst
  · rcases List.mem_map.1 hrow with ⟨row, hmemRow, hid⟩
    rcases hclosed row hmemRow with hkept | ⟨hlt, -⟩
    · exact absurd (List.mem_map.2 ⟨row, hkept, hid⟩) hnone
    · -- The answer to a row is its worker's.
      have hnamed := haccounts.named message hmem row.2 (hid ▸ hmemRow)
      rw [hworker, Option.some.injEq] at hnamed
      rw [← hnamed] at hlt
      omega
  · have hlt := hpast hrow
    omega

/-- A worker that runs a request answers its oldest one. -/
theorem run (h : Aged pool rows) (haccounts : Accounts pool rows) (digests : Digests κ)
    (workerId : Nat) (execution : Execution κ β) :
    Aged (pool.runWorker digests workerId execution) rows := by
  cases hqueue : (pool.workers workerId).inQueue with
  | nil =>
      rw [runWorker_of_nil digests execution hqueue]
      exact h
  -- The oldest request is answered, by a worker whose generation does not change.
  | cons entry rest =>
      rcases entry with ⟨requestId, request⟩
      rw [runWorker_of_cons digests execution hqueue]
      dsimp only
      -- The answer says which worker made it and of which generation, whatever came of the
      -- request.
      have hworker := ((pool.workers workerId).runtime.execute_spec digests workerId
        (pool.workers workerId).workerGeneration request execution).1
      have hgeneration := (pool.workers workerId).runtime.execute_workerGeneration digests workerId
        (pool.workers workerId).workerGeneration request execution
      generalize (pool.workers workerId).runtime.execute digests workerId
        (pool.workers workerId).workerGeneration request execution = executed
        at hworker hgeneration ⊢
      have hrow : (requestId, workerId) ∈ rows := by
        refine haccounts.inbox workerId (requestId, request) ?_
        rw [hqueue]
        exact List.mem_cons_self
      intro message hmem other generation hother hsame
      -- Every worker is of the generation it was of.
      have hkept : ((pool.setWorker workerId { pool.workers workerId with
            runtime := executed.1, inQueue := rest }).workers other).workerGeneration =
          (pool.workers other).workerGeneration := by
        rw [setWorker_workers]
        split
        · rename_i heq
          rw [heq]
        · rfl
      change generation ≤ ((pool.setWorker workerId _).workers other).workerGeneration ∧
        (_ → generation < ((pool.setWorker workerId _).workers other).workerGeneration)
      rw [hkept]
      -- The new message is of the current generation, and its request is one of the rows.
      rcases List.mem_append.1 hmem with hold | hnew
      · exact h message hold other generation hother hsame
      · rw [List.mem_singleton.1 hnew] at hother hsame ⊢
        dsimp only at hother hsame
        rw [hworker, Option.some.injEq] at hother
        rw [hgeneration, Option.some.injEq] at hsame
        rw [← hother, ← hsame]
        exact ⟨Nat.le_refl _, fun hnone => absurd (List.mem_map_of_mem hrow) hnone⟩

/-- A request that is sent is younger than all before it. -/
theorem enqueue (h : Aged pool rows) (workerId : Nat) (request : WorkerExecutionRequest κ β)
    (registry : LeaseRegistry) :
    Aged { pool.enqueue workerId request with registry }
      (rows ++ [(pool.nextRequestId + 1, workerId)]) := by
  intro message hmem other generation hother hgeneration
  have hkept : ((pool.enqueue workerId request).workers other).workerGeneration =
      (pool.workers other).workerGeneration := by
    unfold BranchWorkerPool.enqueue
    dsimp only
    rw [setWorker_workers]
    split
    · rename_i heq
      rw [heq]
    · rfl
  change generation ≤ ((pool.enqueue workerId request).workers other).workerGeneration ∧
    (_ → generation < ((pool.enqueue workerId request).workers other).workerGeneration)
  rw [hkept]
  rcases h message hmem other generation hother hgeneration with ⟨hle, hpast⟩
  refine ⟨hle, fun hnone => hpast fun hrow => hnone ?_⟩
  rw [List.map_append]
  exact List.mem_append_left _ hrow

/-- The next answer is taken, and its row is closed if it has one. -/
theorem take (h : Aged pool rows) (haccounts : Accounts pool rows)
    {message : Nat × BranchResult κ β} {rest : List (Nat × BranchResult κ β)}
    (hqueue : pool.resultQueue = message :: rest)
    (hrest : ∀ row ∈ rows, row.1 ≠ message.1 → row ∈ rows') :
    Aged { pool with resultQueue := rest } rows' := by
  intro other hmem workerId generation hworker hgeneration
  have hold : other ∈ pool.resultQueue := by
    rw [hqueue]
    exact List.mem_cons_of_mem _ hmem
  rcases h other hold workerId generation hworker hgeneration with ⟨hle, hpast⟩
  refine ⟨hle, fun hnone => hpast fun hrow => hnone ?_⟩
  rcases List.mem_map.1 hrow with ⟨row, hmemRow, hid⟩
  refine List.mem_map.2 ⟨row, hrest row hmemRow fun hsame => ?_, hid⟩
  -- The taken answer is the only one under its id.
  have honce := haccounts.answeredOnce
  rw [hqueue, List.map_cons, List.nodup_cons] at honce
  exact honce.1 (List.mem_map.2 ⟨other, hmem, hid.symm.trans hsame⟩)

theorem with_registry (h : Aged pool rows) (registry : LeaseRegistry) :
    Aged { pool with registry } rows := h

end Aged

end BranchWorkerPool

open BranchWorkerPool BranchManager

namespace ManagerRun

theorem Sound.accounts {run : ManagerRun κ β} (h : run.Sound) :
    Accounts run.pool (run.rows.map Outstanding.row) := by
  cases run with
  | idle manager => exact h
  | polling schedule admitted st =>
      have hrows : RowsSound admitted st := h
      exact hrows.accounts

/-- The answers a manager finds on the queue are aged. -/
theorem aged_step (digests : Digests κ) (run : ManagerRun κ β) (call : ManagerCall κ β)
    (hsound : run.Sound) (h : Aged run.pool (run.rows.map Outstanding.row)) :
    Aged (run.step digests call).1.pool ((run.step digests call).1.rows.map Outstanding.row) := by
  -- The accounts are carried along, since a message that is older than its worker is told from
  -- the others by them. One bullet for each kind of step.
  refine (step_induction (P := fun manager slots => Accounts manager.pool
    (slots.map Outstanding.row) ∧ Aged manager.pool (slots.map Outstanding.row)) digests
    ?_ ?_ ?_ ?_ ?_ ?_ ?_ run call hsound ⟨hsound.accounts, h⟩).2
  · rintro manager manager' ⟨haccounts, haged⟩ hpool
    exact ⟨haccounts.withdraw hpool,
      haged.withdraw haccounts hpool fun row hrow => absurd hrow List.not_mem_nil⟩
  · rintro admitted st workerId execution hrows ⟨haccounts, haged⟩
    exact ⟨haccounts.run digests workerId execution,
      haged.run haccounts digests workerId execution⟩
  · rintro schedule admitted st st' hrows ⟨haccounts, haged⟩ hmove
    refine ⟨(hrows.launch hmove).accounts, ?_⟩
    cases hmove with
    -- A launch adds a row and a request; giving up a line that cannot be served changes neither.
    | skip waiting hsub => exact haged
    | launch branchId record item hget hqueued hitem hwaits hfree =>
        generalize routeWorkItem digests item st.manager.pool.registry (freeWorkers st)
          st.manager.pool.workerGenerations st.manager.nextBootstrapIndex = routing
        have henqueued := haged.enqueue routing.workerId routing.request routing.registry
        simpa [BranchManager.launch, Outstanding.row] using henqueued
  · rintro admitted st slot hrows ⟨haccounts, haged⟩ hslot
    rcases hrows.expire_withdraws hslot with ⟨hwithdraws, hreplaced, -⟩
    refine ⟨(hrows.expire hslot).accounts, haged.withdraw haccounts hwithdraws fun row hrow => ?_⟩
    rcases List.mem_map.1 hrow with ⟨slot', hslot', rfl⟩
    -- The row that was late goes, and with it the generation its answers would be of.
    by_cases hsame : slot' = slot
    · rw [hsame]
      exact .inr hreplaced
    · exact .inl (List.mem_map_of_mem ((hrows.mem_running_expire hslot).2 ⟨hslot', hsame⟩))
  · rintro st message rest ⟨haccounts, haged⟩ hqueue
    exact ⟨haccounts.take hqueue (List.Sublist.refl _) fun _ hrow _ => hrow,
      haged.take haccounts hqueue fun _ hrow _ => hrow⟩
  · rintro admitted st slot result rest hrows ⟨haccounts, haged⟩ hslot hqueue
    refine ⟨(hrows.complete hslot hqueue).accounts, ?_⟩
    -- The row that was answered goes, and its message with it; the others keep theirs.
    rcases hrows.complete_eq hslot rest result with ⟨record, item, -, -, -, heq⟩
    rw [heq]
    refine haged.take haccounts hqueue fun row hrow hid => ?_
    rcases List.mem_map.1 hrow with ⟨slot', hslot', rfl⟩
    exact List.mem_map_of_mem (List.mem_filter.2 ⟨hslot', decide_eq_true hid⟩)
  · rintro admitted st hrows ⟨haccounts, haged⟩
    -- Abandoning a poll starts every worker again that was waited for.
    have hreplaced : ∀ slot ∈ st.running, Replaced st.manager.pool
        (st.manager.quarantine admitted).pool slot.workerId := fun slot hslot =>
      quarantine_replaces (hrows.running slot hslot).1 (hrows.running slot hslot).2.runsOn
    refine ⟨hrows.idle_of_replaced (withdraws_quarantine st.manager admitted) hreplaced,
      haged.withdraw haccounts (withdraws_quarantine st.manager admitted) fun row hrow => ?_⟩
    rcases List.mem_map.1 hrow with ⟨slot, hslot, rfl⟩
    exact .inr (hreplaced slot hslot)

end ManagerRun

/-! ### The rows of a batch -/

namespace BranchWorkerPool

/-- The requests of a batch that have not been answered, as rows. -/
def batchRows (batch : Batch κ β) : List (Nat × Nat) :=
  (hungRequests batch).map fun request => (request.requestId, request.workerId)

/-- The accounts are about the workers and the queue. -/
theorem Accounts.congr {pool pool' : BranchWorkerPool κ β} {rows : List (Nat × Nat)}
    (h : Accounts pool rows) (hnext : pool'.nextRequestId = pool.nextRequestId)
    (hqueue : pool'.resultQueue = pool.resultQueue) (hworkers : pool'.workers = pool.workers) :
    Accounts pool' rows :=
  ⟨hnext ▸ h.numbered, h.distinct, hworkers ▸ h.inbox, hworkers ▸ h.inboxOnce,
    hqueue ▸ hnext ▸ h.queued, hqueue ▸ h.answeredOnce, hqueue ▸ hworkers ▸ h.unanswered,
    hqueue ▸ h.named⟩

/-- The accounts of a pool that collects a batch. -/
structure BatchSound (pool : BranchWorkerPool κ β) (batch : Batch κ β) : Prop where
  accounts : Accounts pool (batchRows batch)
  aged : Aged pool (batchRows batch)
  numbered : ∀ request ∈ batch.pending, request.requestId ≤ pool.nextRequestId

namespace BatchSound

variable {pool : BranchWorkerPool κ β}

/-- Sending an item of a batch adds a row for it. -/
theorem sendItem (h : BatchSound pool pool.current) (digests : Digests κ) (item : WorkItem κ β) :
    BatchSound (pool.sendItem digests item) (pool.sendItem digests item).current := by
  unfold BranchWorkerPool.sendItem
  generalize routeWorkItem digests item pool.registry pool.workerIds pool.workerGenerations
    pool.current.nextBootstrapIndex = routing
  -- The rows are those of before and the one of the new request.
  have hrows : batchRows (pool.submit item routing).current =
      batchRows pool.current ++ [(pool.nextRequestId + 1, routing.workerId)] := by
    change List.map _ (List.filter _ (pool.current.pending ++ [_])) = _
    rw [List.filter_append, List.map_append]
    refine congr_arg₂ _ (congrArg _ (List.filter_congr fun request hrequest => ?_)) ?_
    · have hnumber := h.numbered request hrequest
      rw [decide_eq_decide]
      change request.requestId ∈ pool.current.remaining ++ [pool.nextRequestId + 1] ↔ _
      rw [List.mem_append, List.mem_singleton]
      -- An older request has a smaller number, so the new one does not bring it back.
      constructor
      · rintro (hmem | heq)
        · exact hmem
        · omega
      · exact .inl
    · rw [List.filter_cons_of_pos]
      · rfl
      · rw [decide_eq_true_eq]
        exact List.mem_append_right _ List.mem_cons_self
  -- The new row is as good as the old ones, and its number is the largest.
  refine ⟨?_, ?_, ?_⟩
  · rw [hrows]
    exact (h.accounts.enqueue routing.workerId routing.request routing.registry).congr rfl rfl rfl
  · rw [hrows]
    exact h.aged.enqueue routing.workerId routing.request routing.registry
  · intro request hrequest
    change request.requestId ≤ pool.nextRequestId + 1
    rcases List.mem_append.1 hrequest with hold | hnew
    · exact Nat.le_succ_of_le (h.numbered request hold)
    · rw [List.mem_singleton.1 hnew]

theorem sendItems (digests : Digests κ) (items : List (WorkItem κ β)) :
    ∀ pool : BranchWorkerPool κ β, BatchSound pool pool.current →
      BatchSound (items.foldl (BranchWorkerPool.sendItem digests) pool)
        (items.foldl (BranchWorkerPool.sendItem digests) pool).current := by
  induction items with
  | nil => exact fun pool h => h
  | cons item rest ih => exact fun pool h => ih _ (h.sendItem digests item)

/-- What is taken from the queue is one answer, and then a worker may be
    replaced. -/
theorem receiveResult {batch : Batch κ β} (h : BatchSound pool batch)
    (hbatch : pool.batch = some batch) :
    ∃ batch', (pool.receiveResult batch).batch = some batch' ∧
      BatchSound (pool.receiveResult batch) batch' := by
  unfold BranchWorkerPool.receiveResult
  cases hqueue : pool.resultQueue with
  | nil => exact ⟨batch, hbatch, h⟩
  -- A message with no row strayed, and is dropped.
  | cons message rest =>
      rcases message with ⟨requestId, result⟩
      dsimp only
      cases hfind : outstanding batch requestId with
      | none =>
          exact ⟨batch, hbatch,
            h.accounts.take hqueue (List.Sublist.refl _) fun _ hrow _ => hrow,
            h.aged.take h.accounts hqueue fun _ hrow _ => hrow, h.numbered⟩
      | some request =>
          dsimp only
          have hid := (outstanding_eq_some batch requestId request hfind).2
          -- Any other closes its row.
          let recorded := record batch request result
          have hsub : (batchRows recorded).Sublist (batchRows batch) := by
            refine List.Sublist.map _ (List.monotone_filter_right _ fun other hmem => ?_)
            rw [decide_eq_true_eq] at hmem ⊢
            exact List.mem_of_mem_filter hmem
          have hrest : ∀ row ∈ batchRows batch, row.1 ≠ requestId → row ∈ batchRows recorded := by
            intro row hrow hne
            rcases List.mem_map.1 hrow with ⟨other, hother, rfl⟩
            rcases List.mem_filter.1 hother with ⟨hmem, hremaining⟩
            refine List.mem_map_of_mem (List.mem_filter.2 ⟨hmem, ?_⟩)
            rw [decide_eq_true_eq] at hremaining ⊢
            exact List.mem_filter.2 ⟨hremaining, decide_eq_true (hid ▸ hne)⟩
          -- That is sound before anything is done about the worker.
          have hanswered : BatchSound { pool with resultQueue := rest, batch := some recorded }
              recorded :=
            ⟨(h.accounts.take hqueue hsub hrest).congr rfl rfl rfl,
              h.aged.take h.accounts hqueue hrest, h.numbered⟩
          -- Starting a worker again keeps it sound, whichever worker it is.
          have hreplaced : ∀ workerId, BatchSound (BranchWorkerPool.respawnWorker
              { pool with resultQueue := rest, batch := some recorded } workerId) recorded := by
            intro workerId
            have hwithdraws := (withdraws_respawnWorker
              { pool with resultQueue := rest, batch := some recorded } workerId).1
            exact ⟨hanswered.accounts.withdraw hwithdraws,
              hanswered.aged.withdraw hanswered.accounts hwithdraws fun row hrow => .inl hrow,
              hanswered.numbered⟩
          refine ⟨recorded, ?_⟩
          -- Which of the two was done depends on the answer and on what the fault says.
          split
          · split
            · exact ⟨rfl, hreplaced _⟩
            · exact ⟨rfl, hanswered⟩
          · exact ⟨rfl, hanswered⟩

/-- Workers are replaced one after the other. -/
theorem withdraws_respawnWorkers (workerIds : List Nat) :
    ∀ pool : BranchWorkerPool κ β,
      Withdraws pool (workerIds.foldl BranchWorkerPool.respawnWorker pool) ∧
        ∀ workerId ∈ workerIds,
          Replaced pool (workerIds.foldl BranchWorkerPool.respawnWorker pool) workerId := by
  induction workerIds with
  | nil => exact fun pool => ⟨.refl pool, fun workerId hmem => absurd hmem List.not_mem_nil⟩
  | cons first rest ih =>
      intro pool
      rcases withdraws_respawnWorker pool first with ⟨hwithdraws, hreplaced⟩
      rcases ih (pool.respawnWorker first) with ⟨hrest, hothers⟩
      refine ⟨hwithdraws.trans hrest, fun workerId hmem => ?_⟩
      rcases List.mem_cons.1 hmem with rfl | hother
      · exact Withdraws.replaced hreplaced hrest
      · exact hwithdraws.replaced_after (hothers workerId hother)

/-- Recording an answer for each of some requests leaves none of them waiting. -/
theorem foldl_record (fault : PendingRequest κ β → BranchResult κ β)
    (requests : List (PendingRequest κ β)) :
    ∀ batch : Batch κ β,
      let after := requests.foldl (fun batch request => record batch request (fault request)) batch
      after.pending = batch.pending ∧ ∀ requestId ∈ after.remaining,
        requestId ∈ batch.remaining ∧ ∀ request ∈ requests, request.requestId ≠ requestId := by
  induction requests with
  | nil => exact fun batch => ⟨rfl, fun requestId hmem =>
      ⟨hmem, fun request hrequest => absurd hrequest List.not_mem_nil⟩⟩
  | cons first rest ih =>
      intro batch
      rcases ih (record batch first (fault first)) with ⟨hpending, hremaining⟩
      refine ⟨hpending, fun requestId hmem => ?_⟩
      rcases hremaining requestId hmem with ⟨hkept, hne⟩
      rcases List.mem_filter.1 hkept with ⟨hold, hfirst⟩
      refine ⟨hold, fun request hrequest => ?_⟩
      rcases List.mem_cons.1 hrequest with rfl | hother
      · rw [decide_eq_true_eq] at hfirst
        exact fun heq => hfirst heq.symm
      · exact hne request hother

/-- The wait of a batch ran out: every worker with a row is replaced. -/
theorem timeOutRequests {batch : Batch κ β} (h : BatchSound pool batch) :
    ∃ batch', (pool.timeOutRequests batch).batch = some batch' ∧
      BatchSound (pool.timeOutRequests batch) batch' := by
  have hrecorded := foldl_record (fun request =>
    timeoutFault request (pool.workers request.workerId).workerGeneration)
      (hungRequests batch) batch
  unfold BranchWorkerPool.timeOutRequests
  dsimp only at hrecorded ⊢
  generalize List.foldl (fun batch request => record batch request
    (timeoutFault request (pool.workers request.workerId).workerGeneration)) batch
    (hungRequests batch) = faulted at hrecorded ⊢
  rcases hrecorded with ⟨hpending, hremaining⟩
  -- Every request that was waited for is recorded as timed out, so that no row is left.
  have hrows : batchRows faulted = [] := by
    unfold batchRows hungRequests
    rw [List.map_eq_nil_iff, List.filter_eq_nil_iff, hpending]
    intro request hmem hwaits
    rw [decide_eq_true_eq] at hwaits
    rcases hremaining request.requestId hwaits with ⟨hold, hne⟩
    exact hne request (List.mem_filter.2 ⟨hmem, decide_eq_true hold⟩) rfl
  -- The workers of these requests are replaced, each once.
  rcases withdraws_respawnWorkers ((hungRequests batch).map (·.workerId)).dedup pool with
    ⟨hwithdraws, hreplaced⟩
  have hclosed : ∀ row ∈ batchRows batch, Replaced pool
      (((hungRequests batch).map (·.workerId)).dedup.foldl BranchWorkerPool.respawnWorker pool)
      row.2 := by
    intro row hrow
    rcases List.mem_map.1 hrow with ⟨request, hmem, rfl⟩
    exact hreplaced _ (List.mem_dedup.2 (List.mem_map_of_mem hmem))
  have haccounts := (h.accounts.withdraw hwithdraws).close (List.nil_sublist _)
    fun row hrow hbusy => absurd (hclosed row hrow).2 hbusy
  refine ⟨faulted, rfl, ?_, ?_, ?_⟩
  · rw [hrows]
    exact haccounts.congr rfl rfl rfl
  · rw [hrows]
    have haged : Aged (((hungRequests batch).map (·.workerId)).dedup.foldl
        BranchWorkerPool.respawnWorker pool) [] :=
      h.aged.withdraw h.accounts hwithdraws fun row hrow => .inr (hclosed row hrow)
    exact haged
  · intro request hmem
    rw [hpending] at hmem
    exact (h.numbered request hmem).trans_eq hwithdraws.nextRequestId.symm

end BatchSound

end BranchWorkerPool

/-! ### The machine -/

/-- A single request that `execute` waits for, and whether a registry was passed. -/
structure Executing where
  requestId : Nat
  workerId : Nat
  withRegistry : Bool

/-- A pool, and whoever uses it: a manager between calls or in a poll, a batch
    when the pool has one, or a single request. -/
structure PoolUse (κ β : Type) where
  run : ManagerRun κ β
  executing : Option Executing := none

/-- What happens next. `handOver` is another manager, or the caller of the next
    batch, with a registry of its own. -/
inductive PoolCall (κ β : Type) where
  | handOver (manager : BranchManager κ β) (registry : LeaseRegistry)
  | manager (call : ManagerCall κ β)
  | pool (event : PoolEvent κ β)
  | execute (workerId : Nat) (request : WorkerExecutionRequest κ β) (withRegistry : Bool)
  | executeReceive
  | executeTimeOut
  | run (workerId : Nat) (execution : Execution κ β)

namespace BranchWorkerPool

/-- The worker whose process a result may have tainted. -/
def taintedWorker (result : BranchResult κ β) : Option Nat :=
  match result.status, result.workerId with
  | .fault, some workerId =>
      if isProcessTaintingFault result.diagnostics then some workerId else none
  | _, _ => none

/-- `respawn_worker`, with a registry or without one. -/
def respawn (pool : BranchWorkerPool κ β) (workerId : Nat) (withRegistry : Bool) :
    BranchWorkerPool κ β :=
  if withRegistry then pool.respawnWorker workerId else pool.replaceWorker workerId pool.registry

/-- What `execute` does with the answer it waits for, off the queue. -/
def executeAnswer (pool : BranchWorkerPool κ β) (result : BranchResult κ β)
    (withRegistry : Bool) : BranchWorkerPool κ β :=
  match taintedWorker result with
  | none => pool
  | some workerId => pool.respawn workerId withRegistry

end BranchWorkerPool

namespace PoolUse

/-- The pool in use. -/
def pool (use : PoolUse κ β) : BranchWorkerPool κ β := use.run.pool

/-- Nobody waits for an answer. -/
def Free (use : PoolUse κ β) : Prop := use.executing = none ∧ use.pool.batch = none

instance (use : PoolUse κ β) : Decidable use.Free :=
  inferInstanceAs (Decidable (use.executing = none ∧ _))

variable (digests : Digests κ)

/-- `execute` takes the next answer: its own, or one that it drops. -/
def executeReceive (use : PoolUse κ β) (executing : Executing) : PoolUse κ β :=
  match use.pool.resultQueue with
  | [] => use
  | (requestId, result) :: rest =>
      let taken := { use.pool with resultQueue := rest }
      if requestId = executing.requestId then
        { run := use.run.withPool (taken.executeAnswer result executing.withRegistry) }
      else { use with run := use.run.withPool taken }

/-- One step. A step that is not possible changes nothing. -/
def act (use : PoolUse κ β) : PoolCall κ β → PoolUse κ β
  | .run workerId execution =>
      { use with run := use.run.withPool (use.pool.runWorker digests workerId execution) }
  | .handOver manager registry =>
      match use.run with
      | .idle _ =>
          if use.Free then { run := .idle { manager with pool := { use.pool with registry } } }
          else use
      | .polling _ _ _ => use
  | .manager call => if use.Free then { use with run := (use.run.step digests call).1 } else use
  | .pool event =>
      match use.run, use.executing with
      | .idle manager, none =>
          { use with run := .idle { manager with pool := (manager.pool.step digests event).1 } }
      | _, _ => use
  | .execute workerId request withRegistry =>
      match use.run with
      | .idle manager =>
          if use.Free then
            { run := .idle { manager with pool := manager.pool.enqueue workerId request }
              executing := some ⟨manager.pool.nextRequestId + 1, workerId, withRegistry⟩ }
          else use
      | .polling _ _ _ => use
  | .executeReceive =>
      match use.executing with
      | none => use
      | some executing => use.executeReceive executing
  | .executeTimeOut =>
      match use.executing with
      | none => use
      | some executing =>
          { run := use.run.withPool (use.pool.respawn executing.workerId executing.withRegistry) }

/-- The accounts of whoever waits fit, and the answers are aged. -/
inductive Sound : PoolUse κ β → Prop where
  | free (run : ManagerRun κ β) (hbatch : run.pool.batch = none) (hsound : run.Sound)
      (haged : Aged run.pool (run.rows.map Outstanding.row)) : Sound { run }
  | batch (manager : BranchManager κ β) (batch : Batch κ β)
      (hbatch : manager.pool.batch = some batch) (hsound : BatchSound manager.pool batch) :
      Sound { run := .idle manager }
  | executing (manager : BranchManager κ β) (executing : Executing)
      (hbatch : manager.pool.batch = none)
      (haccounts : Accounts manager.pool [(executing.requestId, executing.workerId)])
      (haged : Aged manager.pool [(executing.requestId, executing.workerId)]) :
      Sound { run := .idle manager, executing := some executing }

/-!
### Steps

A batch, a poll and a single execution use the pool one at a time.
-/

section Steps

variable {digests}

/-- A manager between calls, whose pool nobody waits for. -/
theorem Sound.of_idle {manager : BranchManager κ β} (hbatch : manager.pool.batch = none)
    (haccounts : Accounts manager.pool []) (haged : Aged manager.pool []) :
    Sound { run := .idle manager } := .free (.idle manager) hbatch haccounts haged

/-- No step of a manager begins a batch. -/
theorem step_batch (run : ManagerRun κ β) (call : ManagerCall κ β) (hsound : run.Sound)
    (hbatch : run.pool.batch = none) : (run.step digests call).1.pool.batch = none := by
  refine ManagerRun.step_induction (P := fun manager _ => manager.pool.batch = none) digests
    ?_ ?_ ?_ ?_ ?_ ?_ ?_ run call hsound hbatch
  · exact fun manager manager' hnone hpool => hpool.batch.trans hnone
  · intro admitted st workerId execution hrows hnone
    cases hqueue : (st.manager.pool.workers workerId).inQueue with
    | nil =>
        rw [runWorker_of_nil digests execution hqueue]
        exact hnone
    | cons entry rest =>
        rw [runWorker_of_cons digests execution hqueue]
        exact hnone
  · intro schedule admitted st st' hrows hnone hmove
    cases hmove with
    | skip waiting hsub => exact hnone
    | launch => exact hnone
  · exact fun admitted st slot hrows hnone hslot =>
      (hrows.expire_withdraws hslot).1.batch.trans hnone
  · exact fun st message rest hnone _ => hnone
  · intro admitted st slot result rest hrows hnone hslot hqueue
    rcases hrows.complete_eq hslot rest result with ⟨record, item, -, -, -, heq⟩
    rw [heq]
    exact hnone
  · exact fun admitted st hrows hnone =>
      (withdraws_quarantine st.manager admitted).batch.trans hnone

/-- Replacing a worker withdraws its requests and no others. -/
theorem withdraws_respawn (pool : BranchWorkerPool κ β) (workerId : Nat) (withRegistry : Bool) :
    Withdraws pool (pool.respawn workerId withRegistry) ∧
      Replaced pool (pool.respawn workerId withRegistry) workerId := by
  cases withRegistry with
  | true => exact withdraws_respawnWorker pool workerId
  | false =>
      have hworkers := replaceWorker_workers pool workerId pool.registry
      refine ⟨⟨rfl, rfl, rfl, rfl, fun key lease hget => hget, fun other => ?_⟩, ?_⟩
      · change (pool.replaceWorker workerId pool.registry).workers other = _ ∨ _
        by_cases hother : other = workerId
        · refine .inr ?_
          change _ < ((pool.replaceWorker workerId pool.registry).workers other).workerGeneration ∧
            ((pool.replaceWorker workerId pool.registry).workers other).inQueue = []
          rw [hworkers, if_pos hother, hother]
          exact ⟨Nat.lt_succ_self _, rfl⟩
        · rw [hworkers, if_neg hother]
          exact .inl rfl
      · change _ < ((pool.replaceWorker workerId pool.registry).workers workerId).workerGeneration ∧
          ((pool.replaceWorker workerId pool.registry).workers workerId).inQueue = []
        rw [hworkers, if_pos rfl]
        exact ⟨Nat.lt_succ_self _, rfl⟩

/-- A worker may run whenever it has a request. -/
theorem Sound.runWorker {use : PoolUse κ β} (h : use.Sound) (workerId : Nat)
    (execution : Execution κ β) : (use.act digests (.run workerId execution)).Sound := by
  -- A worker changes neither the batch nor the numbers.
  have hkeeps : ∀ pool : BranchWorkerPool κ β,
      (pool.runWorker digests workerId execution).batch = pool.batch ∧
        (pool.runWorker digests workerId execution).nextRequestId = pool.nextRequestId := by
    intro pool
    cases hqueue : (pool.workers workerId).inQueue with
    | nil =>
        rw [runWorker_of_nil digests execution hqueue]
        exact ⟨rfl, rfl⟩
    | cons entry rest =>
        rw [runWorker_of_cons digests execution hqueue]
        exact ⟨rfl, rfl⟩
  -- Whoever uses the pool waits for the same requests as before.
  cases h with
  | free run hbatch hsound haged =>
      have hnone := (hkeeps run.pool).1.trans hbatch
      have hran := run.aged_step digests (.run workerId execution) hsound haged
      have hrun := ManagerRun.sound_step digests run (.run workerId execution) hsound
      cases run with
      | idle manager => exact .free _ hnone hrun hran
      | polling schedule admitted st => exact .free _ hnone hrun hran
  | batch manager batch hbatch hsound =>
      refine .batch _ batch ((hkeeps manager.pool).1.trans hbatch)
        ⟨hsound.accounts.run digests workerId execution,
          hsound.aged.run hsound.accounts digests workerId execution, ?_⟩
      intro request hmem
      exact (hsound.numbered request hmem).trans_eq (hkeeps manager.pool).2.symm
  | executing manager executing hbatch haccounts haged =>
      exact .executing _ executing ((hkeeps manager.pool).1.trans hbatch)
        (haccounts.run digests workerId execution) (haged.run haccounts digests workerId execution)

theorem executeReceive_of_nil (use : PoolUse κ β) (executing : Executing)
    (hqueue : use.pool.resultQueue = []) : use.executeReceive executing = use := by
  unfold PoolUse.executeReceive
  rw [hqueue]

theorem executeReceive_of_cons (use : PoolUse κ β) (executing : Executing) {requestId : Nat}
    {result : BranchResult κ β} {rest : List (Nat × BranchResult κ β)}
    (hqueue : use.pool.resultQueue = (requestId, result) :: rest) :
    use.executeReceive executing =
      if requestId = executing.requestId then
        { run := use.run.withPool (BranchWorkerPool.executeAnswer
            { use.pool with resultQueue := rest } result executing.withRegistry) }
      else { use with run := use.run.withPool { use.pool with resultQueue := rest } } := by
  unfold PoolUse.executeReceive
  rw [hqueue]

theorem withdraws_executeAnswer (pool : BranchWorkerPool κ β) (result : BranchResult κ β)
    (withRegistry : Bool) : Withdraws pool (pool.executeAnswer result withRegistry) := by
  unfold executeAnswer
  cases taintedWorker result with
  | none => exact .refl pool
  | some workerId => exact (withdraws_respawn pool workerId withRegistry).1

/-- A single execution waits for its answer, and replaces its worker if none comes. -/
theorem Sound.executeReceive {manager : BranchManager κ β} {executing : Executing}
    (hbatch : manager.pool.batch = none)
    (haccounts : Accounts manager.pool [(executing.requestId, executing.workerId)])
    (haged : Aged manager.pool [(executing.requestId, executing.workerId)]) :
    (PoolUse.executeReceive { run := .idle manager, executing := some executing }
      executing).Sound := by
  rcases hqueue : manager.pool.resultQueue with _ | ⟨⟨requestId, result⟩, rest⟩
  · rw [executeReceive_of_nil { run := .idle manager, executing := some executing }
      executing hqueue]
    exact .executing manager executing hbatch haccounts haged
  · rw [executeReceive_of_cons { run := .idle manager, executing := some executing }
      executing hqueue]
    split
    · rename_i hid
      have hrest : ∀ row ∈ [(executing.requestId, executing.workerId)], row.1 ≠ requestId →
          row ∈ ([] : List (Nat × Nat)) := by
        intro row hrow hne
        rw [List.mem_singleton.1 hrow] at hne
        exact absurd hid.symm hne
      have htaken := haccounts.take hqueue (List.nil_sublist _) hrest
      have hwithdraws := withdraws_executeAnswer { manager.pool with resultQueue := rest } result
        executing.withRegistry
      refine .of_idle (hwithdraws.batch.trans hbatch) (htaken.withdraw hwithdraws) ?_
      exact (haged.take haccounts hqueue hrest).withdraw htaken hwithdraws fun row hrow => .inl hrow
    · exact .executing _ executing hbatch
        (haccounts.take hqueue (List.Sublist.refl _) fun _ hrow _ => hrow)
        (haged.take haccounts hqueue fun _ hrow _ => hrow)

/-- A batch that is collected, or that goes on. -/
theorem Sound.batchStep {manager : BranchManager κ β} {batch : Batch κ β}
    (hbatch : manager.pool.batch = some batch) (hsound : BatchSound manager.pool batch)
    (event : PoolEvent κ β) (hrun : ∀ workerId execution, event ≠ .run workerId execution) :
    Sound { run := .idle { manager with pool := (manager.pool.step digests event).1 } } := by
  -- A step that is not possible leaves the pool, and `hsame` says that it is sound as it is.
  have hsame : Sound { run := .idle manager } := .batch manager batch hbatch hsound
  have hafter : ∀ pool' : BranchWorkerPool κ β,
      (∃ batch', pool'.batch = some batch' ∧ BatchSound pool' batch') →
      Sound { run := .idle { manager with pool := pool' } } := by
    rintro pool' ⟨batch', hbatch', hkept⟩
    exact .batch _ batch' hbatch' hkept
  cases event with
  | run workerId execution => exact absurd rfl (hrun workerId execution)
  | dispatch items =>
      simp only [BranchWorkerPool.step, hbatch]
      exact hsame
  | respawn workerId withRegistry =>
      simp only [BranchWorkerPool.step, hbatch]
      exact hsame
  | receive =>
      simp only [BranchWorkerPool.step, hbatch]
      split
      · exact hsame
      · exact hafter _ (hsound.receiveResult hbatch)
  | timeOut =>
      simp only [BranchWorkerPool.step, hbatch]
      split
      · exact hsame
      · exact hafter _ hsound.timeOutRequests
  | settle =>
      simp only [BranchWorkerPool.step, hbatch]
      split
      -- The batch is collected, so that no row is left when it closes.
      · rename_i hremaining
        have hrows : batchRows batch = [] := by
          unfold batchRows hungRequests
          rw [hremaining]
          simp
        have haccounts := hsound.accounts
        have haged := hsound.aged
        rw [hrows] at haccounts haged
        exact .of_idle rfl (haccounts.congr rfl rfl rfl) haged
      · exact hsame

/-- A pool that collects a batch is not free. -/
theorem not_free_of_batch {manager : BranchManager κ β} {batch : Batch κ β}
    (hbatch : manager.pool.batch = some batch) :
    ¬ PoolUse.Free { run := ManagerRun.idle manager } := by
  rintro ⟨-, hnone⟩
  rw [PoolUse.pool, ManagerRun.pool, ManagerRun.manager, hbatch] at hnone
  cases hnone

/-- A pool without a batch begins one, or has a worker replaced. -/
theorem Sound.idleStep {manager : BranchManager κ β} (hbatch : manager.pool.batch = none)
    (haccounts : Accounts manager.pool []) (haged : Aged manager.pool [])
    (event : PoolEvent κ β) (hrun : ∀ workerId execution, event ≠ .run workerId execution) :
    Sound { run := .idle { manager with pool := (manager.pool.step digests event).1 } } := by
  have hsame : Sound { run := .idle manager } := .of_idle hbatch haccounts haged
  cases event with
  | run workerId execution => exact absurd rfl (hrun workerId execution)
  | dispatch items =>
      simp only [BranchWorkerPool.step, hbatch]
      let opened : BranchWorkerPool κ β :=
        { manager.pool with
          batch := some { nextBootstrapIndex := manager.pool.nextBootstrapIndex } }
      -- An opened batch without items has no rows.
      have hopened : BatchSound opened opened.current :=
        ⟨haccounts.congr rfl rfl rfl, haged, fun request hmem => absurd hmem List.not_mem_nil⟩
      have hsent := hopened.sendItems digests items
      -- Sending items leaves the batch open.
      have hsome : ∀ (items : List (WorkItem κ β)) (pool : BranchWorkerPool κ β),
          pool.batch.isSome = true →
          (items.foldl (BranchWorkerPool.sendItem digests) pool).batch.isSome = true := by
        intro items
        induction items with
        | nil => exact fun pool hopen => hopen
        | cons item rest ih => exact fun pool hopen => ih _ rfl
      rcases Option.isSome_iff_exists.1 (hsome items opened rfl) with ⟨batch, hbatch'⟩
      have hcurrent : (items.foldl (BranchWorkerPool.sendItem digests) opened).current = batch := by
        unfold current
        rw [hbatch']
        rfl
      rw [hcurrent] at hsent
      exact .batch _ batch hbatch' hsent
  | respawn workerId withRegistry =>
      simp only [BranchWorkerPool.step, hbatch]
      -- Between batches nobody waits for the worker that is replaced.
      have hwithdraws := (withdraws_respawn manager.pool workerId withRegistry).1
      exact .of_idle (hwithdraws.batch.trans hbatch) (haccounts.withdraw hwithdraws)
        (haged.withdraw haccounts hwithdraws fun row hrow => absurd hrow List.not_mem_nil)
  | receive =>
      simp only [BranchWorkerPool.step, hbatch]
      exact hsame
  | timeOut =>
      simp only [BranchWorkerPool.step, hbatch]
      exact hsame
  | settle =>
      simp only [BranchWorkerPool.step, hbatch]
      exact hsame

/-- Every step keeps the accounts, and the answers aged. -/
theorem sound_act (use : PoolUse κ β) (call : PoolCall κ β) (h : use.Sound) :
    (use.act digests call).Sound := by
  -- One case for each call, and in each one for who uses the pool at the moment. A call that is
  -- not possible then changes nothing.
  cases call with
  | run workerId execution => exact h.runWorker workerId execution
  | handOver manager registry =>
      cases h with
      | free run hbatch hsound haged =>
          cases run with
          | idle old =>
              have hfree : PoolUse.Free { run := ManagerRun.idle old } := ⟨rfl, hbatch⟩
              have haccounts : Accounts old.pool [] := hsound
              simp only [act, if_pos hfree]
              exact .of_idle hbatch (haccounts.congr rfl rfl rfl) haged
          | polling schedule admitted st => exact .free _ hbatch hsound haged
      | batch old batch hbatch hsound =>
          simp only [act, if_neg (not_free_of_batch hbatch)]
          exact .batch old batch hbatch hsound
      | executing old executing hbatch haccounts haged =>
          exact .executing old executing hbatch haccounts haged
  | manager call =>
      cases h with
      | free run hbatch hsound haged =>
          have hfree : PoolUse.Free { run } := ⟨rfl, hbatch⟩
          simp only [act, if_pos hfree]
          exact .free _ (step_batch run call hsound hbatch)
            (ManagerRun.sound_step digests run call hsound)
            (ManagerRun.aged_step digests run call hsound haged)
      | batch old batch hbatch hsound =>
          simp only [act, if_neg (not_free_of_batch hbatch)]
          exact .batch old batch hbatch hsound
      | executing old executing hbatch haccounts haged =>
          exact .executing old executing hbatch haccounts haged
  | pool event =>
      -- A worker's turn is always possible, and every other event of the pool only outside of
      -- polls and single requests.
      by_cases hrun : ∃ workerId execution, event = .run workerId execution
      · rcases hrun with ⟨workerId, execution, rfl⟩
        have hran : (use.act digests (.run workerId execution)).Sound :=
          h.runWorker workerId execution
        cases h with
        | free run hbatch hsound haged =>
            cases run with
            | idle manager => exact hran
            | polling schedule admitted st => exact .free _ hbatch hsound haged
        | batch manager batch hbatch hsound => exact hran
        | executing manager executing hbatch haccounts haged =>
            exact .executing manager executing hbatch haccounts haged
      · have hother : ∀ workerId execution, event ≠ .run workerId execution :=
          fun workerId execution heq => hrun ⟨workerId, execution, heq⟩
        cases h with
        | free run hbatch hsound haged =>
            cases run with
            | idle manager => exact .idleStep hbatch hsound haged event hother
            | polling schedule admitted st => exact .free _ hbatch hsound haged
        | batch manager batch hbatch hsound => exact .batchStep hbatch hsound event hother
        | executing manager executing hbatch haccounts haged =>
            exact .executing manager executing hbatch haccounts haged
  | execute workerId request withRegistry =>
      cases h with
      | free run hbatch hsound haged =>
          cases run with
          | idle manager =>
              have hfree : PoolUse.Free { run := ManagerRun.idle manager } := ⟨rfl, hbatch⟩
              have haccounts : Accounts manager.pool [] := hsound
              have hidle : Aged manager.pool [] := haged
              -- A single request opens a row of its own.
              simp only [act, if_pos hfree]
              exact .executing _ _ hbatch
                ((haccounts.enqueue workerId request manager.pool.registry).congr rfl rfl rfl)
                (hidle.enqueue workerId request manager.pool.registry)
          | polling schedule admitted st => exact .free _ hbatch hsound haged
      | batch manager batch hbatch hsound =>
          simp only [act, if_neg (not_free_of_batch hbatch)]
          exact .batch manager batch hbatch hsound
      | executing manager executing hbatch haccounts haged =>
          exact .executing manager executing hbatch haccounts haged
  | executeReceive =>
      cases h with
      | free run hbatch hsound haged => exact .free run hbatch hsound haged
      | batch manager batch hbatch hsound => exact .batch manager batch hbatch hsound
      | executing manager executing hbatch haccounts haged =>
          exact .executeReceive hbatch haccounts haged
  | executeTimeOut =>
      cases h with
      | free run hbatch hsound haged => exact .free run hbatch hsound haged
      | batch manager batch hbatch hsound => exact .batch manager batch hbatch hsound
      | executing manager executing hbatch haccounts haged =>
          -- A request that timed out closes with its worker.
          rcases withdraws_respawn manager.pool executing.workerId executing.withRegistry with
            ⟨hwithdraws, hreplaced⟩
          have hclosed : ∀ row ∈ [(executing.requestId, executing.workerId)],
              Replaced manager.pool
                (manager.pool.respawn executing.workerId executing.withRegistry) row.2 := by
            intro row hrow
            rw [List.mem_singleton.1 hrow]
            exact hreplaced
          exact .of_idle (hwithdraws.batch.trans hbatch)
            ((haccounts.withdraw hwithdraws).close (List.nil_sublist _) fun row hrow hbusy =>
              absurd (hclosed row hrow).2 hbusy)
            (haged.withdraw haccounts hwithdraws fun row hrow => .inr (hclosed row hrow))

end Steps

end PoolUse

end Combat

end STS2RL
