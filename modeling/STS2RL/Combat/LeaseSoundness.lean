import STS2RL.Combat.RetryLaw
import STS2RL.Combat.WorkerPool
import STS2RL.Core.Distinct

/-!
# Leases and Retained Decisions

The coordinator grants leases from the results of a whole batch, a worker
retains one pending decision, and nothing but the lease ties the two together.

They stay together as long as no batch sends two continuations on one lease, and
no worker runs another request of the batch over a pending decision that it has
just reported, unless a later item of the batch ends in a fault of that worker,
which removes its leases again. Both can happen when a batch has more items than
there are workers without a lease: then two items share a worker, and the first
one's lease outlives what it names.

The invariant follows every request of the batch in progress. A request in a
worker's inbox is outstanding, and the requests of one worker stand in the order
in which they were sent. An answered request lies before everything in its
worker's inbox, so the answer to the last request of a worker says what the
worker retains for as long as it is not replaced. A lease from before the batch
is either on a worker the batch did not use, or it is the one a continuation of
the batch was sent on, and settling the batch removes it.

## Main definitions

* `Live`: A lease on a worker of the lease's generation.
* `LeaseSound`: Continuations find what their lease names, and live leases name
  different workers.
* `BatchClear`, `StepClear`: The condition on a batch, and on a step.
* `PoolInv`: The invariant.
* `Runs`, `Sends`, `SendsItem`: What answering a request and sending one change.
* `Routed`: Where an item may go.

## Theorems

* `runs_runWorker`, `sendsItem_submit`, `routed_routeWorkItem`: The steps are such changes.
* `PoolInv.sendItem`, `PoolInv.runWorker`, `PoolInv.record`, `PoolInv.replace`,
  `PoolInv.settleBatch`: What each step keeps.
* `PoolInv.batchClear_of_nodup`: A worker for each item is enough.
* `leases_sound`: The run lemma.
-/

namespace STS2RL

namespace Combat

variable {κ β : Type}

namespace BranchWorkerPool

/-- The worker is of the lease's generation. -/
def SameGeneration (pool : BranchWorkerPool κ β) (lease : Lease) : Prop :=
  (pool.workers lease.workerId).workerGeneration = lease.workerGeneration

/-- The lease is registered, on a worker of its generation. -/
def Live (pool : BranchWorkerPool κ β) (lease : Lease) : Prop :=
  (∃ key, pool.registry.get? key = some lease) ∧ pool.SameGeneration lease

/-- The worker is of the lease's generation and holds what the lease names. -/
def Names (pool : BranchWorkerPool κ β) (lease : Lease) : Prop :=
  pool.SameGeneration lease ∧ (pool.workers lease.workerId).runtime.Holds lease

/-- A request that was sent as the continuation of a lease finds the lease's
    worker in its generation, holding what it names, and is not refused. -/
def Finds (pool : BranchWorkerPool κ β) (workerId : Nat)
    (request : WorkerExecutionRequest κ β) : Prop :=
  ∃ lease, request.expectedLease = some lease ∧ lease.workerId = workerId ∧
    lease.key = request.workItem.leaseKey ∧ pool.Names lease ∧
    ∃ state, (pool.workers workerId).runtime.holderState request = .ok state

/-- What is asked of the leases at every moment. -/
structure LeaseSound (pool : BranchWorkerPool κ β) : Prop where
  continuation : ∀ workerId requestId request rest,
    (pool.workers workerId).inQueue = (requestId, request) :: rest →
    request.executionMode = .holderStep → pool.Finds workerId request
  exclusive : ∀ lease lease', pool.Live lease → pool.Live lease' →
    lease.workerId = lease'.workerId → lease = lease'

/-- The workers to which a batch sent continuations. -/
def holderWorkers (batch : Batch κ β) : List Nat :=
  (batch.pending.filter (·.executionMode = .holderStep)).map (·.workerId)

/-- The answers of a collected batch leave no lease behind that its worker has
    gone on from: an item whose answer grants a live lease was answered by the
    last request its worker got, or a later item ends in a fault of that
    worker. -/
def BatchClear (pool : BranchWorkerPool κ β) (batch : Batch κ β) : Prop :=
  ∀ before item after, batch.workItems = before ++ item :: after →
    ∀ requestId result lease, batch.results.get? item.workId = some (requestId, result) →
      result.status = .success → result.establishedLease = some lease →
      pool.SameGeneration lease →
      (∀ request ∈ batch.pending, request.workerId = lease.workerId →
        request.requestId ≤ requestId) ∨
      ∃ later ∈ after, ∃ requestId' result',
        batch.results.get? later.workId = some (requestId', result') ∧
        result'.status = .fault ∧ result'.workerId = some lease.workerId

/-- The condition on a step: no batch is sent with two continuations on one
    worker, and none is settled that is not clear. -/
def StepClear (digests : Digests κ) (pool : BranchWorkerPool κ β) : PoolEvent κ β → Prop
  | .dispatch items => pool.batch = none →
      (holderWorkers (pool.sendBatch digests items).current).Nodup
  | .settle => ∀ batch, pool.batch = some batch → batch.remaining = [] → pool.BatchClear batch
  | .run _ _ => True
  | .receive => True
  | .timeOut => True
  | .respawn _ _ => True

/-- What an answer to a request of the batch says of its worker. -/
structure Answered (pool : BranchWorkerPool κ β) (request : PendingRequest κ β)
    (result : BranchResult κ β) : Prop where
  before : ∀ entry ∈ (pool.workers request.workerId).inQueue, request.requestId < entry.1
  granted : ∀ lease, result.establishedLease = some lease →
    lease.workerId = request.workerId ∧
      lease.workerGeneration ≤ (pool.workers request.workerId).workerGeneration
  held : (∀ other ∈ pool.current.pending, other.workerId = request.workerId →
      other.requestId ≤ request.requestId) →
    ∀ lease, result.establishedLease = some lease → pool.SameGeneration lease → pool.Names lease

/-- The first request of an inbox may be a continuation, and then it finds what
    it names. Nothing behind it is one. -/
def InboxSound (pool : BranchWorkerPool κ β) (workerId : Nat) :
    List (Nat × WorkerExecutionRequest κ β) → Prop
  | [] => True
  | entry :: rest =>
      (entry.2.executionMode = .holderStep → pool.Finds workerId entry.2) ∧
      ∀ other ∈ rest, other.2.executionMode = .bootstrapStep

/-- The invariant of a run. -/
structure PoolInv (pool : BranchWorkerPool κ β) : Prop where
  keyed : ∀ key lease, pool.registry.get? key = some lease → lease.key = key
  issued : ∀ key lease, pool.registry.get? key = some lease →
    lease.workerGeneration ≤ (pool.workers lease.workerId).workerGeneration
  numbered : ∀ request ∈ pool.current.pending, request.requestId ≤ pool.nextRequestId
  distinct : (pool.current.pending.map (·.requestId)).Nodup
  placed : ∀ workerId, ∀ entry ∈ (pool.workers workerId).inQueue,
    entry.1 ∈ pool.current.remaining ∧
      ∃ request ∈ pool.current.pending, request.requestId = entry.1 ∧ request.workerId = workerId
  fifo : ∀ workerId, (pool.workers workerId).inQueue.Pairwise fun entry later => entry.1 < later.1
  inbox : ∀ workerId, pool.InboxSound workerId (pool.workers workerId).inQueue
  queued : ∀ message ∈ pool.resultQueue, message.1 ≤ pool.nextRequestId ∧
    ∀ request ∈ pool.current.pending, request.requestId = message.1 →
      pool.Answered request message.2
  recorded : ∀ workId message, pool.current.results.get? workId = some message →
    ∃ request ∈ pool.current.pending, request.requestId = message.1 ∧
      pool.Answered request message.2
  leased : ∀ lease, pool.Live lease →
    (pool.Names lease ∧ ∀ request ∈ pool.current.pending, request.workerId ≠ lease.workerId) ∨
      ∃ request ∈ pool.current.pending, request.workerId = lease.workerId ∧
        request.executionMode = .holderStep ∧ request.workItem.leaseKey = lease.key
  exclusive : ∀ lease lease', pool.Live lease → pool.Live lease' →
    lease.workerId = lease'.workerId → lease = lease'
  outstanding : ∀ requestId ∈ pool.current.remaining,
    ∃ request ∈ pool.current.pending, request.requestId = requestId
  complete : ∀ request ∈ pool.current.pending, request.requestId ∈ pool.current.remaining ∨
    ∃ message, pool.current.results.get? request.workItem.workId = some message
  sent : ∀ item, item ∈ pool.current.workItems ↔
    ∃ request ∈ pool.current.pending, request.workItem = item

theorem PoolInv.leaseSound {pool : BranchWorkerPool κ β} (hinv : pool.PoolInv) :
    pool.LeaseSound := by
  refine ⟨fun workerId requestId request rest hqueue hmode => ?_, hinv.exclusive⟩
  have hinbox := hinv.inbox workerId
  rw [hqueue] at hinbox
  exact hinbox.1 hmode

/-- Requests of one batch with one id are one request. -/
theorem PoolInv.request_eq {pool : BranchWorkerPool κ β} (hinv : pool.PoolInv)
    {request request' : PendingRequest κ β} (hmem : request ∈ pool.current.pending)
    (hmem' : request' ∈ pool.current.pending) (hid : request.requestId = request'.requestId) :
    request = request' :=
  List.inj_on_of_nodup_map hinv.distinct hmem hmem' hid

@[simp]
theorem setWorker_workers (pool : BranchWorkerPool κ β) (workerId : Nat)
    (handle : WorkerHandle κ β) (other : Nat) :
    (pool.setWorker workerId handle).workers other =
      if other = workerId then handle else pool.workers other :=
  Function.update_apply pool.workers workerId handle other

/-!
### Frames

What a lease names depends on its worker alone, so a step that leaves the worker as it is
leaves what its leases name as it is.
-/

section Frame

variable {pool pool' : BranchWorkerPool κ β}

/-- What a lease names is about its worker only. -/
theorem names_congr (lease : Lease)
    (hgeneration : (pool'.workers lease.workerId).workerGeneration =
      (pool.workers lease.workerId).workerGeneration)
    (hruntime : (pool'.workers lease.workerId).runtime = (pool.workers lease.workerId).runtime) :
    pool'.Names lease ↔ pool.Names lease := by
  unfold Names SameGeneration
  rw [hgeneration, hruntime]

/-- Two leases that name what one worker holds are under one key. -/
theorem Names.key_eq {lease lease' : Lease} (hnames : pool.Names lease)
    (hnames' : pool.Names lease') (hworker : lease.workerId = lease'.workerId) :
    lease.key = lease'.key := by
  rcases hnames with ⟨-, held, hheld, hcontext, hhypothesis, -⟩
  rcases hnames' with ⟨-, held', hheld', hcontext', hhypothesis', -⟩
  rw [← hworker, hheld, Option.some.injEq] at hheld'
  rw [← hheld'] at hcontext' hhypothesis'
  exact Prod.ext (hcontext.symm.trans hcontext') (hhypothesis.symm.trans hhypothesis')

theorem finds_of_finds (workerId : Nat) (request : WorkerExecutionRequest κ β)
    (hgeneration : (pool'.workers workerId).workerGeneration =
      (pool.workers workerId).workerGeneration)
    (hruntime : (pool'.workers workerId).runtime = (pool.workers workerId).runtime)
    (h : pool.Finds workerId request) : pool'.Finds workerId request := by
  rcases h with ⟨lease, hexpected, hworker, hkey, hnames, hstate⟩
  rw [← hworker] at hgeneration hruntime
  refine ⟨lease, hexpected, hworker, hkey, (names_congr lease hgeneration hruntime).mpr hnames, ?_⟩
  rw [← hworker, hruntime, hworker]
  exact hstate

theorem inboxSound_of_inboxSound (workerId : Nat)
    (inQueue : List (Nat × WorkerExecutionRequest κ β))
    (hgeneration : (pool'.workers workerId).workerGeneration =
      (pool.workers workerId).workerGeneration)
    (hruntime : (pool'.workers workerId).runtime = (pool.workers workerId).runtime)
    (h : pool.InboxSound workerId inQueue) : pool'.InboxSound workerId inQueue := by
  cases inQueue with
  | nil => trivial
  | cons entry rest =>
      exact ⟨fun hmode => finds_of_finds workerId entry.2 hgeneration hruntime (h.1 hmode), h.2⟩

end Frame

@[simp]
theorem replaceWorker_workers (pool : BranchWorkerPool κ β) (workerId : Nat)
    (registry : LeaseRegistry) (other : Nat) :
    (pool.replaceWorker workerId registry).workers other =
      if other = workerId then
        { workerGeneration := (pool.workers workerId).workerGeneration + 1 }
      else pool.workers other :=
  setWorker_workers pool workerId _ other

/-!
### Replacing a worker

A new generation has no lease: those of the old one are no longer live, though they may
still be registered.
-/

section Replace

variable {pool : BranchWorkerPool κ β}

/-- A worker in its next generation: its leases are of the past. -/
theorem PoolInv.replace (hinv : pool.PoolInv) (workerId : Nat) (registry : LeaseRegistry)
    (hsub : ∀ key lease, registry.get? key = some lease →
      pool.registry.get? key = some lease) :
    PoolInv (pool.replaceWorker workerId registry) := by
  have hgeneration : ∀ other, (pool.workers other).workerGeneration ≤
      ((pool.replaceWorker workerId registry).workers other).workerGeneration := by
    intro other
    rw [replaceWorker_workers]
    split
    · rename_i heq
      rw [heq]
      exact Nat.le_succ _
    · exact le_refl _
  have hother : ∀ other, other ≠ workerId → (pool.replaceWorker workerId registry).workers other =
        pool.workers other := fun other hne => by rw [replaceWorker_workers, if_neg hne]
  -- No lease has been issued on the new generation yet.
  have hlive : ∀ lease, lease.workerGeneration ≤ (pool.workers lease.workerId).workerGeneration →
      SameGeneration (pool.replaceWorker workerId registry) lease → lease.workerId ≠ workerId := by
    intro lease hissued hsame heq
    unfold SameGeneration at hsame
    change ((pool.replaceWorker workerId registry).workers _).workerGeneration = _ at hsame
    rw [replaceWorker_workers, if_pos heq] at hsame
    change (pool.workers workerId).workerGeneration + 1 = _ at hsame
    rw [heq] at hissued
    omega
  have hnames : ∀ lease, lease.workerId ≠ workerId →
      (Names (pool.replaceWorker workerId registry) lease ↔ pool.Names lease) := by
    intro lease hne
    have hworker := hother lease.workerId hne
    exact names_congr lease (congrArg _ hworker) (congrArg _ hworker)
  have hanswered : ∀ request result, pool.Answered request result →
      Answered (pool.replaceWorker workerId registry) request result := by
    intro request result hanswer
    refine ⟨?_, fun lease hlease => ?_, fun hlast lease hlease hsame => ?_⟩
    · rw [replaceWorker_workers]
      split
      · intro entry hmem
        cases hmem
      · exact hanswer.before
    · have hgranted := hanswer.granted lease hlease
      exact ⟨hgranted.1, hgranted.2.trans (hgeneration request.workerId)⟩
    · have hgranted := hanswer.granted lease hlease
      have hne := hlive lease (hgranted.1 ▸ hgranted.2) hsame
      have hsame' : pool.SameGeneration lease := by
        have hworker := hother lease.workerId hne
        change ((pool.replaceWorker workerId registry).workers _).workerGeneration = _ at hsame
        rw [hworker] at hsame
        exact hsame
      exact (hnames lease hne).mpr (hanswer.held hlast lease hlease hsame')
  have hliveOld : ∀ lease, Live (pool.replaceWorker workerId registry) lease →
      lease.workerId ≠ workerId ∧ pool.Live lease := by
    rintro lease ⟨⟨key, hget⟩, hsame⟩
    have hold := hsub key lease hget
    have hne := hlive lease (hinv.issued key lease hold) hsame
    refine ⟨hne, ⟨key, hold⟩, ?_⟩
    change ((pool.replaceWorker workerId registry).workers _).workerGeneration = _ at hsame
    rw [hother lease.workerId hne] at hsame
    exact hsame
  refine
    { keyed := fun key lease hget => hinv.keyed key lease (hsub key lease hget)
      issued := fun key lease hget =>
        (hinv.issued key lease (hsub key lease hget)).trans (hgeneration lease.workerId)
      numbered := hinv.numbered
      distinct := hinv.distinct
      placed := ?_
      fifo := ?_
      inbox := ?_
      queued := fun message hmem => ⟨(hinv.queued message hmem).1, fun request hrequest hid =>
        hanswered request message.2 ((hinv.queued message hmem).2 request hrequest hid)⟩
      recorded := fun workId message hget => ?_
      leased := ?_
      exclusive := fun lease lease' hlease hlease' =>
        hinv.exclusive lease lease' (hliveOld lease hlease).2 (hliveOld lease' hlease').2
      outstanding := hinv.outstanding
      complete := hinv.complete
      sent := hinv.sent }
  · intro other
    rw [replaceWorker_workers]
    split
    · intro entry hmem
      cases hmem
    · exact hinv.placed other
  · intro other
    rw [replaceWorker_workers]
    split
    · exact List.Pairwise.nil
    · exact hinv.fifo other
  · intro other
    by_cases hne : other = workerId
    · rw [replaceWorker_workers, if_pos hne]
      trivial
    · have hworker := hother other hne
      rw [hworker]
      exact inboxSound_of_inboxSound other _ (congrArg _ hworker) (congrArg _ hworker)
        (hinv.inbox other)
  · rcases hinv.recorded workId message hget with ⟨request, hrequest, hid, hanswer⟩
    exact ⟨request, hrequest, hid, hanswered request message.2 hanswer⟩
  · intro lease hlease
    rcases hliveOld lease hlease with ⟨hne, hold⟩
    rcases hinv.leased lease hold with ⟨hname, hunused⟩ | hsent
    · exact .inl ⟨(hnames lease hne).mpr hname, hunused⟩
    · exact .inr hsent

theorem PoolInv.respawnWorker (hinv : pool.PoolInv) (workerId : Nat) :
    (pool.respawnWorker workerId).PoolInv :=
  hinv.replace workerId _ fun _ _ hget => (LeaseRegistry.get?_invalidateWorker_some hget).1

end Replace

/-!
### Running a request

What a worker does with a request is said once, by `Runs`. The invariant needs three
things of it: the inbox lost its head, the answer is new, and nobody else was touched.
-/

section Run

variable {pool : BranchWorkerPool κ β}

/-- The request at the head of an inbox and the rest of it. -/
theorem PoolInv.head (hinv : pool.PoolInv) {workerId requestId : Nat}
    {request : WorkerExecutionRequest κ β} {rest : List (Nat × WorkerExecutionRequest κ β)}
    (hqueue : (pool.workers workerId).inQueue = (requestId, request) :: rest) :
    ∃ sent ∈ pool.current.pending, sent.requestId = requestId ∧ sent.workerId = workerId ∧
      requestId ≤ pool.nextRequestId ∧ ∀ entry ∈ rest, requestId < entry.1 := by
  have hmem : (requestId, request) ∈ (pool.workers workerId).inQueue := by
    rw [hqueue]
    exact List.mem_cons_self
  rcases (hinv.placed workerId _ hmem).2 with ⟨sent, hsent, hid, hworker⟩
  have hfifo := hinv.fifo workerId
  rw [hqueue, List.pairwise_cons] at hfifo
  have hnumber : requestId ≤ pool.nextRequestId :=
    le_of_eq_of_le hid.symm (hinv.numbered sent hsent)
  exact ⟨sent, hsent, hid, hworker, hnumber, hfifo.1⟩

/-- What a worker changes by answering the request at the head of its inbox. -/
structure Runs (pool pool' : BranchWorkerPool κ β) (workerId requestId : Nat)
    (rest : List (Nat × WorkerExecutionRequest κ β)) (result : BranchResult κ β) : Prop where
  generation : ∀ other,
    (pool'.workers other).workerGeneration = (pool.workers other).workerGeneration
  inbox : (pool'.workers workerId).inQueue = rest
  others : ∀ other, other ≠ workerId → pool'.workers other = pool.workers other
  granted : ∀ lease, result.establishedLease = some lease →
    lease.workerId = workerId ∧
      lease.workerGeneration = (pool.workers workerId).workerGeneration ∧
      (pool'.workers workerId).runtime.Holds lease
  current : pool'.current = pool.current
  registry : pool'.registry = pool.registry
  resultQueue : pool'.resultQueue = pool.resultQueue ++ [(requestId, result)]
  nextRequestId : pool'.nextRequestId = pool.nextRequestId

/-- Running the request at the head of an inbox is such a change. -/
theorem runs_runWorker (pool : BranchWorkerPool κ β) (digests : Digests κ)
    (execution : Execution κ β) {workerId requestId : Nat}
    {request : WorkerExecutionRequest κ β} {rest : List (Nat × WorkerExecutionRequest κ β)}
    (hqueue : (pool.workers workerId).inQueue = (requestId, request) :: rest) :
    ∃ result,
      pool.Runs (pool.runWorker digests workerId execution) workerId requestId rest result := by
  -- What the worker does to itself is `execute_spec`; the rest is bookkeeping around it.
  have hspec := WorkerRuntime.execute_spec digests workerId
    (pool.workers workerId).workerGeneration (pool.workers workerId).runtime request execution
  unfold BranchWorkerPool.runWorker
  dsimp only
  rw [hqueue]
  dsimp only
  generalize (pool.workers workerId).runtime.execute digests workerId
    (pool.workers workerId).workerGeneration request execution = outcome at hspec ⊢
  rcases outcome with ⟨runtime, result⟩
  dsimp only at hspec ⊢
  have hworkers : ∀ other, (pool.setWorker workerId
      { pool.workers workerId with runtime, inQueue := rest }).workers other =
        if other = workerId then { pool.workers workerId with runtime, inQueue := rest }
        else pool.workers other := setWorker_workers pool workerId _
  -- Only this worker's record is written, so its generation and the others are as before.
  refine ⟨result,
    { generation := fun other => ?_
      inbox := ?_
      others := fun other hne => (hworkers other).trans (if_neg hne)
      granted := fun lease hlease => ?_
      current := rfl
      registry := rfl
      resultQueue := rfl
      nextRequestId := rfl }⟩
  · change ((pool.setWorker workerId _).workers other).workerGeneration = _
    rw [hworkers]
    split
    · rename_i heq
      rw [heq]
    · rfl
  · change ((pool.setWorker workerId _).workers workerId).inQueue = rest
    rw [hworkers, if_pos rfl]
  -- A granted lease is held by the runtime that the worker is left with.
  · have hgranted := hspec.2 lease hlease
    refine ⟨hgranted.1, hgranted.2.1, ?_⟩
    change ((pool.setWorker workerId _).workers workerId).runtime.Holds lease
    rw [hworkers, if_pos rfl]
    exact hgranted.2.2

namespace Runs

variable {pool' : BranchWorkerPool κ β} {workerId requestId : Nat}
  {request : WorkerExecutionRequest κ β} {rest : List (Nat × WorkerExecutionRequest κ β)}
  {result : BranchResult κ β}

theorem inbox_sublist (hrun : pool.Runs pool' workerId requestId rest result)
    (hqueue : (pool.workers workerId).inQueue = (requestId, request) :: rest) (other : Nat) :
    (pool'.workers other).inQueue.Sublist (pool.workers other).inQueue := by
  by_cases heq : other = workerId
  · rw [heq, hrun.inbox, hqueue]
    exact List.sublist_cons_self _ rest
  · rw [hrun.others other heq]

theorem sameGeneration_iff (hrun : pool.Runs pool' workerId requestId rest result)
    (lease : Lease) : pool'.SameGeneration lease ↔ pool.SameGeneration lease := by
  unfold SameGeneration
  rw [hrun.generation]

theorem live_iff (hrun : pool.Runs pool' workerId requestId rest result) (lease : Lease) :
    pool'.Live lease ↔ pool.Live lease := by
  unfold Live
  rw [hrun.registry, hrun.sameGeneration_iff]

theorem names_iff (hrun : pool.Runs pool' workerId requestId rest result) {lease : Lease}
    (hne : lease.workerId ≠ workerId) : pool'.Names lease ↔ pool.Names lease :=
  names_congr lease (hrun.generation _) (congrArg _ (hrun.others _ hne))

/-- What was answered before stays answered: the worker had not answered its last request
    yet, so none of its earlier answers says what it holds. -/
theorem answered (hrun : pool.Runs pool' workerId requestId rest result)
    (hqueue : (pool.workers workerId).inQueue = (requestId, request) :: rest)
    {sent : PendingRequest κ β} (hsent : sent ∈ pool.current.pending)
    (hid : sent.requestId = requestId) (hworker : sent.workerId = workerId)
    (old : PendingRequest κ β) (oldResult : BranchResult κ β)
    (hanswer : pool.Answered old oldResult) : pool'.Answered old oldResult := by
  refine ⟨fun entry hmem => ?_, ?_, ?_⟩
  · exact hanswer.before entry ((hrun.inbox_sublist hqueue _).subset hmem)
  · rw [hrun.generation]
    exact hanswer.granted
  · rw [hrun.current]
    intro hlast lease hlease hsame
    have hne : lease.workerId ≠ workerId := by
      intro heq
      rw [(hanswer.granted lease hlease).1] at heq
      have hle := hlast sent hsent (hworker.trans heq.symm)
      have hlt := hanswer.before (requestId, request) (by
        rw [heq, hqueue]
        exact List.mem_cons_self)
      rw [hid] at hle
      exact absurd hlt (Nat.not_lt.mpr hle)
    exact (hrun.names_iff hne).mpr
      (hanswer.held hlast lease hlease ((hrun.sameGeneration_iff lease).mp hsame))

/-- The new answer says what the worker holds now. -/
theorem answered_new (hrun : pool.Runs pool' workerId requestId rest result)
    (hlater : ∀ entry ∈ rest, requestId < entry.1) {sent : PendingRequest κ β}
    (hid : sent.requestId = requestId) (hworker : sent.workerId = workerId) :
    pool'.Answered sent result := by
  refine ⟨?_, fun lease hlease => ?_, fun _ lease hlease hsame => ?_⟩
  · rw [hworker, hrun.inbox, hid]
    exact hlater
  · rw [hworker, hrun.generation]
    have hgranted := hrun.granted lease hlease
    exact ⟨hgranted.1, le_of_eq hgranted.2.1⟩
  · have hgranted := hrun.granted lease hlease
    refine ⟨hsame, ?_⟩
    rw [hgranted.1]
    exact hgranted.2.2

/-- What is left of an inbox has no continuation in it. -/
theorem inboxSound (hrun : pool.Runs pool' workerId requestId rest result)
    (hinv : pool.PoolInv)
    (hqueue : (pool.workers workerId).inQueue = (requestId, request) :: rest) (other : Nat) :
    pool'.InboxSound other (pool'.workers other).inQueue := by
  by_cases heq : other = workerId
  · have hrest : ∀ entry ∈ rest, entry.2.executionMode = .bootstrapStep := by
      have hsound := hinv.inbox workerId
      rw [hqueue] at hsound
      exact hsound.2
    rw [heq, hrun.inbox]
    cases rest with
    | nil => trivial
    | cons entry more =>
        refine ⟨fun hmode => ?_, fun later hlater => hrest later (List.mem_cons_of_mem _ hlater)⟩
        rw [hrest entry List.mem_cons_self] at hmode
        cases hmode
  · rw [hrun.others other heq]
    exact inboxSound_of_inboxSound other _ (hrun.generation other)
      (congrArg _ (hrun.others other heq)) (hinv.inbox other)

end Runs

/-- A worker that runs a request ends at what its answer says. -/
theorem PoolInv.runWorker (hinv : pool.PoolInv) (digests : Digests κ) (workerId : Nat)
    (execution : Execution κ β) : (pool.runWorker digests workerId execution).PoolInv := by
  -- A worker with nothing in its inbox changes nothing.
  rcases hqueue : (pool.workers workerId).inQueue with _ | ⟨⟨requestId, request⟩, rest⟩
  · unfold BranchWorkerPool.runWorker
    dsimp only
    rw [hqueue]
    exact hinv
  · rcases hinv.head hqueue with ⟨sent, hsent, hid, hworker, hnumber, hlater⟩
    -- Otherwise it answers the oldest request, which the batch has not collected yet.
    rcases pool.runs_runWorker digests execution hqueue with ⟨result, hrun⟩
    generalize pool.runWorker digests workerId execution = pool' at hrun ⊢
    have hanswered := hrun.answered hqueue hsent hid hworker
    exact
      { keyed := hrun.registry ▸ hinv.keyed
        issued := fun key lease hget => by
          rw [hrun.registry] at hget
          rw [hrun.generation]
          exact hinv.issued key lease hget
        numbered := by
          rw [hrun.current, hrun.nextRequestId]
          exact hinv.numbered
        distinct := hrun.current ▸ hinv.distinct
        placed := fun other entry hmem => by
          rw [hrun.current]
          exact hinv.placed other entry ((hrun.inbox_sublist hqueue other).subset hmem)
        fifo := fun other => (hinv.fifo other).sublist (hrun.inbox_sublist hqueue other)
        inbox := hrun.inboxSound hinv hqueue
        -- A message is an older one, or the answer that was just put on the queue.
        queued := fun message hmem => by
          rw [hrun.resultQueue] at hmem
          rw [hrun.current, hrun.nextRequestId]
          rcases List.mem_append.mp hmem with hold | hnewest
          · have hqueued := hinv.queued message hold
            exact ⟨hqueued.1, fun old hmem hid' =>
              hanswered old message.2 (hqueued.2 old hmem hid')⟩
          · rw [List.mem_singleton.mp hnewest]
            refine ⟨hnumber, fun old hmem hid' => ?_⟩
            rw [hinv.request_eq hmem hsent (hid'.trans hid.symm)]
            exact hrun.answered_new hlater hid hworker
        -- A recorded answer was to an earlier request of the batch, and stays true of it.
        recorded := fun workId message hget => by
          rw [hrun.current] at hget ⊢
          rcases hinv.recorded workId message hget with ⟨old, hold, hid', hanswer⟩
          exact ⟨old, hold, hid', hanswered old message.2 hanswer⟩
        leased := fun lease hlease => by
          rw [hrun.current]
          rcases hinv.leased lease ((hrun.live_iff lease).mp hlease) with
            ⟨hname, hunused⟩ | hholder
          · -- The worker has been sent this request, so the lease is on another one.
            have hne : lease.workerId ≠ workerId :=
              fun heq => hunused sent hsent (hworker.trans heq.symm)
            exact .inl ⟨(hrun.names_iff hne).mpr hname, hunused⟩
          · exact .inr hholder
        -- No lease changes hands: the registry and the generations are as before.
        exclusive := fun lease lease' hlease hlease' =>
          hinv.exclusive lease lease' ((hrun.live_iff lease).mp hlease)
            ((hrun.live_iff lease').mp hlease')
        outstanding := hrun.current ▸ hinv.outstanding
        complete := hrun.current ▸ hinv.complete
        sent := hrun.current ▸ hinv.sent }

end Run

/-!
### Collecting the answers

The coordinator takes answers off the queue, or gives up on the workers that do not answer
and replaces them.
-/

section Collect

variable {pool : BranchWorkerPool κ β}

/-- An answer may be taken from the queue. -/
theorem PoolInv.dequeue (hinv : pool.PoolInv) (resultQueue : List (Nat × BranchResult κ β))
    (hsub : ∀ message ∈ resultQueue, message ∈ pool.resultQueue) :
    PoolInv { pool with resultQueue } :=
  { hinv with
    inbox := fun workerId => inboxSound_of_inboxSound workerId _ rfl rfl (hinv.inbox workerId)
    queued := fun message hmem =>
      ⟨(hinv.queued message (hsub message hmem)).1, fun request hrequest hid =>
        have hanswer := (hinv.queued message (hsub message hmem)).2 request hrequest hid
        ⟨hanswer.before, hanswer.granted, hanswer.held⟩⟩
    recorded := fun workId message hget => by
      rcases hinv.recorded workId message hget with ⟨request, hrequest, hid, hanswer⟩
      exact ⟨request, hrequest, hid, hanswer.before, hanswer.granted, hanswer.held⟩ }

/-- An answered request is recorded. Nothing of its worker's inbox is lost, as the
    request is not in it any more. -/
theorem PoolInv.record (hinv : pool.PoolInv) (request : PendingRequest κ β)
    (hrequest : request ∈ pool.current.pending) (result : BranchResult κ β)
    (hanswer : pool.Answered request result) :
    PoolInv { pool with batch := some (BranchWorkerPool.record pool.current request result) } := by
  have hanswered : ∀ other otherResult, pool.Answered other otherResult →
      Answered { pool with batch := some (BranchWorkerPool.record pool.current request result) }
        other otherResult :=
    fun other otherResult h => ⟨h.before, h.granted, h.held⟩
  refine
    { keyed := hinv.keyed
      issued := hinv.issued
      numbered := hinv.numbered
      distinct := hinv.distinct
      -- A request that is still in an inbox is another one, so it remains outstanding.
      placed := fun workerId entry hmem => ?_
      fifo := hinv.fifo
      inbox := fun workerId => inboxSound_of_inboxSound workerId _ rfl rfl (hinv.inbox workerId)
      queued := fun message hmem => ⟨(hinv.queued message hmem).1, fun other hother hid =>
        hanswered other message.2 ((hinv.queued message hmem).2 other hother hid)⟩
      recorded := fun workId message hget => ?_
      leased := hinv.leased
      exclusive := hinv.exclusive
      outstanding := fun requestId hmem => hinv.outstanding requestId (List.mem_filter.mp hmem).1
      complete := fun other hother => ?_
      sent := hinv.sent }
  · rcases hinv.placed workerId entry hmem with ⟨hremaining, sent, hsent, hid, hworker⟩
    refine ⟨List.mem_filter.mpr ⟨hremaining, ?_⟩, sent, hsent, hid, hworker⟩
    -- Had the recorded request still been in the inbox, its answer would be after itself.
    by_contra hsame
    have heq : entry.1 = request.requestId := by simpa using hsame
    have hsame' : sent = request := hinv.request_eq hsent hrequest (hid.trans heq)
    rw [← hworker, hsame'] at hmem
    have hlt := hanswer.before entry hmem
    omega
  · change (pool.current.results.set request.workItem.workId _).get? workId = _ at hget
    rw [Dict.get?_set] at hget
    split at hget
    · cases hget
      exact ⟨request, hrequest, rfl, hanswered request result hanswer⟩
    · rcases hinv.recorded workId message hget with ⟨other, hother, hid, hotherAnswer⟩
      exact ⟨other, hother, hid, hanswered other message.2 hotherAnswer⟩
  · change _ ∈ pool.current.remaining.filter _ ∨
      ∃ message, (pool.current.results.set request.workItem.workId _).get? _ = some message
    rw [Dict.get?_set]
    -- Either the item is the one that was recorded, or its answer is where it was.
    by_cases hwork : other.workItem.workId = request.workItem.workId
    · rw [if_pos hwork]
      exact .inr ⟨_, rfl⟩
    · rw [if_neg hwork]
      rcases hinv.complete other hother with hremaining | hrecorded
      · refine .inl (List.mem_filter.mpr ⟨hremaining, ?_⟩)
        have hne : other.requestId ≠ request.requestId := fun hid =>
          hwork (congrArg (·.workItem.workId) (hinv.request_eq hother hrequest hid))
        simpa using hne
      · exact .inr hrecorded

theorem outstanding_eq_some (batch : Batch κ β) (requestId : Nat) (request : PendingRequest κ β)
    (h : BranchWorkerPool.outstanding batch requestId = some request) :
    request ∈ batch.pending ∧ request.requestId = requestId := by
  unfold BranchWorkerPool.outstanding at h
  have hfound := List.find?_some h
  simp only [Bool.decide_and, Bool.and_eq_true, decide_eq_true_eq] at hfound
  exact ⟨List.mem_of_find?_eq_some h, hfound.1⟩

/-- Receiving an answer records it, if its request is still waited for. -/
theorem PoolInv.receiveResult (hinv : pool.PoolInv) (batch : Batch κ β)
    (hbatch : pool.batch = some batch) : (pool.receiveResult batch).PoolInv := by
  have hcurrent : pool.current = batch := by
    unfold current
    rw [hbatch]
    rfl
  unfold BranchWorkerPool.receiveResult
  split
  -- Nothing on the queue, so nothing is received.
  · exact hinv
  · rename_i requestId result rest hqueue
    have hhead : (requestId, result) ∈ pool.resultQueue := by
      rw [hqueue]
      exact List.mem_cons_self
    have hrest : ∀ message ∈ rest, message ∈ pool.resultQueue := by
      intro message hmem
      rw [hqueue]
      exact List.mem_cons_of_mem _ hmem
    -- Taking the first message off the queue is sound by itself.
    have hdequeued := hinv.dequeue rest hrest
    -- An answer to a request that nobody waits for any more is dropped.
    split
    · exact hdequeued
    · rename_i request hfound
      rcases outstanding_eq_some batch requestId request hfound with ⟨hmem, hid⟩
      rw [← hcurrent] at hmem
      -- Any other is recorded, and its worker started again if the answer is a fault that asks
      -- for it.
      have hanswer := (hinv.queued _ hhead).2 request hmem hid
      have hrecorded := hdequeued.record request hmem result
        ⟨hanswer.before, hanswer.granted, hanswer.held⟩
      change PoolInv { pool with
        resultQueue := rest
        batch := some (BranchWorkerPool.record pool.current request result) } at hrecorded
      rw [hcurrent] at hrecorded
      dsimp only
      split
      · split
        · exact hrecorded.respawnWorker _
        · exact hrecorded
      · exact hrecorded

/-- Replaced one after the other, the workers have empty inboxes, and all else
    that a batch is made of is as it was. -/
theorem PoolInv.respawnWorkers (workerIds : List Nat) :
    ∀ {pool : BranchWorkerPool κ β}, pool.PoolInv →
      (workerIds.foldl BranchWorkerPool.respawnWorker pool).PoolInv ∧
      (workerIds.foldl BranchWorkerPool.respawnWorker pool).current = pool.current ∧
      ∀ workerId, (workerId ∈ workerIds ∨ (pool.workers workerId).inQueue = []) →
        ((workerIds.foldl BranchWorkerPool.respawnWorker pool).workers workerId).inQueue = [] := by
  induction workerIds with
  | nil =>
      intro pool hinv
      refine ⟨hinv, rfl, fun workerId h => ?_⟩
      rcases h with hmem | hempty
      · cases hmem
      · exact hempty
  | cons first rest ih =>
      intro pool hinv
      rcases ih (hinv.respawnWorker first) with ⟨hfinal, hcurrent, hqueues⟩
      refine ⟨hfinal, hcurrent, fun workerId h => hqueues workerId ?_⟩
      unfold BranchWorkerPool.respawnWorker
      rw [replaceWorker_workers]
      by_cases hfirst : workerId = first
      · rw [if_pos hfirst]
        exact .inr rfl
      · rw [if_neg hfirst]
        rcases h with hmem | hempty
        · exact .inl ((List.mem_cons.mp hmem).resolve_left hfirst)
        · exact .inr hempty

/-- Faults of requests whose workers have nothing left to run. -/
theorem PoolInv.recordFaults (fault : PendingRequest κ β → BranchResult κ β)
    (hfault : ∀ request, (fault request).establishedLease = none)
    (requests : List (PendingRequest κ β)) :
    ∀ {pool : BranchWorkerPool κ β}, pool.PoolInv →
      (∀ request ∈ requests, request ∈ pool.current.pending ∧
        (pool.workers request.workerId).inQueue = []) →
      PoolInv { pool with batch := some (requests.foldl
        (fun batch request => BranchWorkerPool.record batch request (fault request))
        pool.current) } := by
  induction requests with
  -- A fault grants nothing, and the worker of each faulted request has an empty inbox, so that
  -- the answer holds trivially of it. The induction is on the requests that timed out.
  | nil =>
      intro pool hinv _
      exact
        { hinv with
          inbox := fun workerId => inboxSound_of_inboxSound workerId _ rfl rfl (hinv.inbox workerId)
          queued := fun message hmem => ⟨(hinv.queued message hmem).1, fun request hrequest hid =>
            have hanswer := (hinv.queued message hmem).2 request hrequest hid
            ⟨hanswer.before, hanswer.granted, hanswer.held⟩⟩
          recorded := fun workId message hget => by
            rcases hinv.recorded workId message hget with ⟨request, hrequest, hid, hanswer⟩
            exact ⟨request, hrequest, hid, hanswer.before, hanswer.granted, hanswer.held⟩ }
  | cons request rest ih =>
      intro pool hinv hrequests
      have hhead := hrequests request List.mem_cons_self
      -- The fault answers the request: nothing lies before it, and it grants no lease.
      have hanswer : pool.Answered request (fault request) := by
        refine ⟨fun entry hmem => ?_, fun lease hlease => ?_, fun _ lease hlease => ?_⟩
        · rw [hhead.2] at hmem
          cases hmem
        · rw [hfault] at hlease
          cases hlease
        · rw [hfault] at hlease
          cases hlease
      have hrecorded := hinv.record request hhead.1 (fault request) hanswer
      exact ih hrecorded fun other hother => hrequests other (List.mem_cons_of_mem _ hother)

/-- The requests that time out are recorded as faults, after their workers were replaced. -/
theorem PoolInv.timeOutRequests (hinv : pool.PoolInv) (batch : Batch κ β)
    (hbatch : pool.batch = some batch) : (pool.timeOutRequests batch).PoolInv := by
  have hcurrent : pool.current = batch := by
    unfold current
    rw [hbatch]
    rfl
  rcases PoolInv.respawnWorkers ((hungRequests batch).map (·.workerId)).dedup hinv with
    ⟨hrespawned, hsame, hqueues⟩
  have hfaulted := hrespawned.recordFaults
    (fun request => timeoutFault request (pool.workers request.workerId).workerGeneration)
    (fun _ => rfl) (hungRequests batch) ?_
  · rw [hsame, hcurrent] at hfaulted
    exact hfaulted
  · intro request hmem
    refine ⟨?_, hqueues request.workerId (.inl (List.mem_dedup.mpr (List.mem_map_of_mem hmem)))⟩
    rw [hsame, hcurrent]
    exact (List.mem_filter.mp hmem).1

end Collect

/-!
### Sending the items

An item goes to the worker of the lease it continues, or to the next one in turn. Here the
condition on a batch is used: a second continuation to one worker would find what the
first one left.
-/

section Send

variable {pool : BranchWorkerPool κ β}

/-- A lease from before the batch on a worker that may still be continued: no
    request was sent to that worker yet, so its inbox is empty. -/
theorem PoolInv.inbox_nil (hinv : pool.PoolInv) (workerId : Nat)
    (hunused : ∀ request ∈ pool.current.pending, request.workerId ≠ workerId) :
    (pool.workers workerId).inQueue = [] := by
  apply List.eq_nil_iff_forall_not_mem.mpr
  intro entry hmem
  rcases (hinv.placed workerId entry hmem).2 with ⟨request, hrequest, -, hworker⟩
  exact hunused request hrequest hworker

/-- The request that is noted for a routed item. -/
def sentRequest (pool : BranchWorkerPool κ β) (item : WorkItem κ β) (routing : Routing κ β) :
    PendingRequest κ β :=
  ⟨pool.nextRequestId + 1, item, routing.workerId, routing.request.executionMode⟩

/-- What sending a routed request changes. -/
structure Sends (pool pool' : BranchWorkerPool κ β) (routing : Routing κ β) : Prop where
  generation : ∀ other,
    (pool'.workers other).workerGeneration = (pool.workers other).workerGeneration
  runtime : ∀ other, (pool'.workers other).runtime = (pool.workers other).runtime
  inbox : ∀ other, (pool'.workers other).inQueue =
    if other = routing.workerId then
      (pool.workers other).inQueue ++ [(pool.nextRequestId + 1, routing.request)]
    else (pool.workers other).inQueue
  registry : pool'.registry = routing.registry
  resultQueue : pool'.resultQueue = pool.resultQueue
  nextRequestId : pool'.nextRequestId = pool.nextRequestId + 1

/-- What sending an item of a batch changes. -/
structure SendsItem (pool pool' : BranchWorkerPool κ β) (item : WorkItem κ β)
    (routing : Routing κ β) : Prop extends Sends pool pool' routing where
  pending : pool'.current.pending = pool.current.pending ++ [pool.sentRequest item routing]
  remaining : pool'.current.remaining = pool.current.remaining ++ [pool.nextRequestId + 1]
  results : pool'.current.results = pool.current.results
  workItems : pool'.current.workItems = pool.current.workItems ++ [item]

/-- Putting a routed request into an inbox is such a change. -/
theorem sends_enqueue (pool : BranchWorkerPool κ β) (routing : Routing κ β) :
    pool.Sends { pool.enqueue routing.workerId routing.request with registry := routing.registry }
      routing := by
  have hworkers : ∀ other, (pool.enqueue routing.workerId routing.request).workers other =
      if other = routing.workerId then
        { pool.workers routing.workerId with
          inQueue := (pool.workers routing.workerId).inQueue ++
            [(pool.nextRequestId + 1, routing.request)] }
      else pool.workers other := fun other => setWorker_workers pool routing.workerId _ other
  refine
    { generation := fun other => ?_
      runtime := fun other => ?_
      inbox := fun other => ?_
      registry := rfl
      resultQueue := rfl
      nextRequestId := rfl }
  all_goals
    rw [hworkers]
    split
    · rename_i heq
      rw [heq]
    · rfl

theorem sendsItem_submit (pool : BranchWorkerPool κ β) (item : WorkItem κ β)
    (routing : Routing κ β) : pool.SendsItem (pool.submit item routing) item routing :=
  { pool.sends_enqueue routing with
    pending := rfl
    remaining := rfl
    results := rfl
    workItems := rfl }

/-- Where an item may go: to the worker of the live lease it continues, or to one whose
    leases are gone afterwards. -/
inductive Routed (pool : BranchWorkerPool κ β) (item : WorkItem κ β) (routing : Routing κ β) :
    Prop
  | continued (lease : Lease) (live : pool.Live lease) (key : lease.key = item.leaseKey)
      (mode : routing.request.executionMode = .holderStep)
      (expected : routing.request.expectedLease = some lease)
      (worker : routing.workerId = lease.workerId) (registry : routing.registry = pool.registry)
  | bootstrapped (mode : routing.request.executionMode = .bootstrapStep)
      (leases : ∀ key lease, routing.registry.get? key = some lease →
        pool.registry.get? key = some lease ∧ lease.workerId ≠ routing.workerId)

/-- Where the routing sends an item: to its lease, if it is live and on the worker, and else
in turn. -/
theorem routed_routeWorkItem (pool : BranchWorkerPool κ β) (digests : Digests κ)
    (item : WorkItem κ β) (workerIds : List Nat) (nextBootstrapIndex : Nat) :
    let routing := routeWorkItem digests item pool.registry workerIds pool.workerGenerations
      nextBootstrapIndex
    routing.request.workItem = item ∧ pool.Routed item routing := by
  rcases routeWorkItem_cases digests item pool.registry workerIds pool.workerGenerations
    nextBootstrapIndex with
    ⟨hitem, ⟨lease, hcovering, hmode, hexpected, hworker, hregistry⟩ | ⟨hmode, hleases⟩⟩
  · rcases coveringLease_eq_some _ _ _ _ _ hcovering with ⟨hget, hkey, hgen⟩
    have hsame : pool.SameGeneration lease := by
      unfold workerGenerations at hgen
      split at hgen
      · exact Option.some.inj hgen
      · cases hgen
    exact ⟨hitem, .continued lease ⟨⟨_, hget⟩, hsame⟩ hkey hmode hexpected hworker hregistry⟩
  · exact ⟨hitem, .bootstrapped hmode hleases⟩

variable {pool' : BranchWorkerPool κ β} {item : WorkItem κ β} {routing : Routing κ β}

namespace Sends

theorem mem_inbox (hsend : pool.Sends pool' routing) (other : Nat)
    (entry : Nat × WorkerExecutionRequest κ β) (hmem : entry ∈ (pool'.workers other).inQueue) :
    entry ∈ (pool.workers other).inQueue ∨
      (other = routing.workerId ∧ entry = (pool.nextRequestId + 1, routing.request)) := by
  rw [hsend.inbox] at hmem
  split at hmem
  · rename_i heq
    rcases List.mem_append.mp hmem with hold | hnew
    · exact .inl hold
    · exact .inr ⟨heq, List.mem_singleton.mp hnew⟩
  · exact .inl hmem

theorem sameGeneration_iff (hsend : pool.Sends pool' routing) (lease : Lease) :
    pool'.SameGeneration lease ↔ pool.SameGeneration lease := by
  unfold SameGeneration
  rw [hsend.generation]

theorem names_iff (hsend : pool.Sends pool' routing) (lease : Lease) :
    pool'.Names lease ↔ pool.Names lease :=
  names_congr lease (hsend.generation _) (hsend.runtime _)

/-- Sending registers no lease. -/
theorem registered (hsend : pool.Sends pool' routing) (hroute : pool.Routed item routing)
    (key : String × Option String) (lease : Lease)
    (hget : pool'.registry.get? key = some lease) : pool.registry.get? key = some lease := by
  rw [hsend.registry] at hget
  cases hroute with
  | continued _ _ _ _ _ _ hsame => exact hsame ▸ hget
  | bootstrapped _ hleases => exact (hleases key lease hget).1

theorem live (hsend : pool.Sends pool' routing) (hroute : pool.Routed item routing)
    (lease : Lease) (hlive : pool'.Live lease) : pool.Live lease := by
  rcases hlive with ⟨⟨key, hget⟩, hsame⟩
  exact ⟨⟨key, hsend.registered hroute key lease hget⟩, (hsend.sameGeneration_iff lease).mp hsame⟩

end Sends

namespace SendsItem

theorem mem_pending (hsend : pool.SendsItem pool' item routing) (request : PendingRequest κ β) :
    request ∈ pool'.current.pending ↔
      request ∈ pool.current.pending ∨ request = pool.sentRequest item routing := by
  rw [hsend.pending, List.mem_append, List.mem_singleton]

/-- The new request is behind everything that was answered. -/
theorem answered (hsend : pool.SendsItem pool' item routing) (hinv : pool.PoolInv)
    {request : PendingRequest κ β} (hrequest : request ∈ pool.current.pending)
    {result : BranchResult κ β} (hanswer : pool.Answered request result) :
    pool'.Answered request result := by
  refine ⟨fun entry hmem => ?_, ?_, fun hlast lease hlease hsame => ?_⟩
  · rcases hsend.mem_inbox request.workerId entry hmem with hold | ⟨-, rfl⟩
    · exact hanswer.before entry hold
    · exact Nat.lt_succ_of_le (hinv.numbered request hrequest)
  · rw [hsend.generation]
    exact hanswer.granted
  · refine (hsend.names_iff lease).mpr (hanswer.held (fun other hother => ?_) lease hlease
      ((hsend.sameGeneration_iff lease).mp hsame))
    exact hlast other ((hsend.mem_pending other).mpr (.inl hother))

/-- A live lease is sent on once: its worker holds what it names, and nothing of the batch
    went to that worker before. -/
theorem untouched (hsend : pool.SendsItem pool' item routing) (hinv : pool.PoolInv)
    (hclear : (holderWorkers pool'.current).Nodup) {lease : Lease} (hlive : pool.Live lease)
    (hworker : routing.workerId = lease.workerId)
    (hmode : routing.request.executionMode = .holderStep) :
    pool.Names lease ∧ ∀ request ∈ pool.current.pending, request.workerId ≠ lease.workerId := by
  rcases hinv.leased lease hlive with hname | ⟨request, hrequest, hused, hholder, -⟩
  · exact hname
  · -- Otherwise two continuations of the batch would be on one worker.
    unfold holderWorkers at hclear
    rw [hsend.pending, List.filter_append, List.map_append] at hclear
    have hdisjoint := (List.nodup_append.mp hclear).2.2
    refine absurd rfl (hdisjoint lease.workerId ?_ lease.workerId ?_)
    · exact List.mem_map.mpr
        ⟨request, List.mem_filter.mpr ⟨hrequest, decide_eq_true hholder⟩, hused⟩
    · exact List.mem_map.mpr ⟨pool.sentRequest item routing,
        List.mem_filter.mpr ⟨List.mem_singleton.mpr rfl, decide_eq_true hmode⟩, hworker⟩

/-- A continuation comes first in an empty inbox, and a bootstrap behind what is there. -/
theorem inboxSound (hsend : pool.SendsItem pool' item routing) (hinv : pool.PoolInv)
    (hitem : routing.request.workItem = item) (hroute : pool.Routed item routing)
    (hclear : (holderWorkers pool'.current).Nodup) (other : Nat) :
    pool'.InboxSound other (pool'.workers other).inQueue := by
  have hold := inboxSound_of_inboxSound other _ (hsend.generation other) (hsend.runtime other)
    (hinv.inbox other)
  rw [hsend.inbox]
  split
  · rename_i hother
    -- Which of the two happens is read off the route: a continuation meets an empty inbox and
    -- finds its lease held, a bootstrap may stand behind another request.
    cases hroute with
    | continued lease hlive hkey hmode hexpected hworker _ =>
        have hname := hsend.untouched hinv hclear hlive hworker hmode
        rw [hother, hworker, hinv.inbox_nil lease.workerId hname.2]
        refine ⟨fun _ => ⟨lease, hexpected, rfl, hitem ▸ hkey,
          (hsend.names_iff lease).mpr hname.1, ?_⟩, fun other hmem => by cases hmem⟩
        rw [hsend.runtime]
        exact WorkerRuntime.holderState_of_holds _ _ lease hexpected (hitem ▸ hkey) hname.1.2
    | bootstrapped hmode _ =>
        cases hempty : (pool.workers other).inQueue with
        | nil =>
            refine ⟨fun hholder => ?_, fun later hmem => by cases hmem⟩
            cases hmode.symm.trans hholder
        | cons entry rest =>
            -- The new request goes behind those that wait, and a bootstrap asks nothing of the
            -- worker.
            rw [hempty] at hold
            refine ⟨hold.1, fun later hmem => ?_⟩
            rcases List.mem_append.mp hmem with hlater | hnew
            · exact hold.2 later hlater
            · rw [List.mem_singleton.mp hnew]
              exact hmode
  · exact hold

/-- The one lease that is live on the worker of a continuation is the lease it continues. -/
theorem leased (hsend : pool.SendsItem pool' item routing) (hinv : pool.PoolInv)
    (hroute : pool.Routed item routing) (lease : Lease) (hlease : pool'.Live lease) :
    (pool'.Names lease ∧
        ∀ request ∈ pool'.current.pending, request.workerId ≠ lease.workerId) ∨
      ∃ request ∈ pool'.current.pending, request.workerId = lease.workerId ∧
        request.executionMode = .holderStep ∧ request.workItem.leaseKey = lease.key := by
  have hliveOld := hsend.live hroute lease hlease
  rcases hinv.leased lease hliveOld with ⟨hname, hunused⟩ | ⟨request, hrequest, hholder⟩
  · by_cases hworker : lease.workerId = routing.workerId
    · cases hroute with
      | continued continued hlive hkey hmode _ hcontinued _ =>
          have heq := hinv.exclusive lease continued hliveOld hlive (hworker.trans hcontinued)
          exact .inr ⟨_, (hsend.mem_pending _).mpr (.inr rfl), hworker.symm, hmode,
            (heq ▸ hkey).symm⟩
      | bootstrapped _ hleases =>
          rcases hlease with ⟨⟨key, hget⟩, -⟩
          rw [hsend.registry] at hget
          exact absurd hworker (hleases key lease hget).2
    · refine .inl ⟨(hsend.names_iff lease).mpr hname, fun request hrequest => ?_⟩
      rcases (hsend.mem_pending request).mp hrequest with hold | rfl
      · exact hunused request hold
      · exact fun heq => hworker heq.symm
  · exact .inr ⟨request, (hsend.mem_pending request).mpr (.inl hrequest), hholder⟩

/-- Every request in an inbox is open, and is noted for its worker. -/
theorem placed (hsend : pool.SendsItem pool' item routing) (hinv : pool.PoolInv) (other : Nat)
    (entry : Nat × WorkerExecutionRequest κ β) (hmem : entry ∈ (pool'.workers other).inQueue) :
    entry.1 ∈ pool'.current.remaining ∧
      ∃ request ∈ pool'.current.pending, request.requestId = entry.1 ∧
        request.workerId = other := by
  rw [hsend.remaining]
  rcases hsend.mem_inbox other entry hmem with hold | ⟨hworker, rfl⟩
  · rcases hinv.placed other entry hold with ⟨hremains, request, hrequest, hid⟩
    exact ⟨List.mem_append_left _ hremains, request,
      (hsend.mem_pending request).mpr (.inl hrequest), hid⟩
  · exact ⟨List.mem_append_right _ (List.mem_singleton.mpr rfl), _,
      (hsend.mem_pending _).mpr (.inr rfl), rfl, hworker.symm⟩

/-- The new number is above every number in an inbox. -/
theorem fifo (hsend : pool.SendsItem pool' item routing) (hinv : pool.PoolInv) (other : Nat) :
    (pool'.workers other).inQueue.Pairwise fun entry later => entry.1 < later.1 := by
  rw [hsend.inbox]
  split
  · refine List.pairwise_append.mpr ⟨hinv.fifo other, List.pairwise_singleton _ _, ?_⟩
    intro entry hold new hnew
    rw [List.mem_singleton.mp hnew]
    rcases (hinv.placed other entry hold).2 with ⟨request, hrequest, hid, -⟩
    exact Nat.lt_succ_of_le (hid ▸ hinv.numbered request hrequest)
  · exact hinv.fifo other

end SendsItem

/-- An item is sent, unless as a second continuation to one worker. -/
theorem PoolInv.sendItem (hinv : pool.PoolInv) (digests : Digests κ) (item : WorkItem κ β)
    (hclear : (holderWorkers (pool.sendItem digests item).current).Nodup) :
    (pool.sendItem digests item).PoolInv := by
  -- The item is routed, and then one request is added behind the worker's others.
  have hsend := sendsItem_submit pool item (routeWorkItem digests item pool.registry pool.workerIds
    pool.workerGenerations pool.current.nextBootstrapIndex)
  rcases pool.routed_routeWorkItem digests item pool.workerIds
    pool.current.nextBootstrapIndex with ⟨hitem, hroute⟩
  unfold BranchWorkerPool.sendItem at hclear ⊢
  generalize routeWorkItem digests item pool.registry pool.workerIds pool.workerGenerations
    pool.current.nextBootstrapIndex = routing at hitem hroute hsend hclear ⊢
  generalize pool.submit item routing = pool' at hsend hclear ⊢
  exact
    { keyed := fun key lease hget => hinv.keyed key lease (hsend.registered hroute key lease hget)
      issued := fun key lease hget => by
        rw [hsend.generation]
        exact hinv.issued key lease (hsend.registered hroute key lease hget)
      numbered := fun request hmem => by
        rw [hsend.nextRequestId]
        rcases (hsend.mem_pending request).mp hmem with hold | rfl
        · exact Nat.le_succ_of_le (hinv.numbered request hold)
        · exact le_refl _
      -- Numbers only grow, so the new request has a number of its own.
      distinct := by
        rw [hsend.pending, nodup_map_append_one]
        refine ⟨fun hmem => ?_, hinv.distinct⟩
        rcases List.mem_map.mp hmem with ⟨request, hrequest, hid⟩
        exact absurd (hinv.numbered request hrequest) (by rw [hid]; exact Nat.not_succ_le_self _)
      placed := hsend.placed hinv
      fifo := hsend.fifo hinv
      inbox := hsend.inboxSound hinv hitem hroute hclear
      queued := fun message hmem => by
        rw [hsend.resultQueue] at hmem
        rw [hsend.nextRequestId]
        have hqueued := hinv.queued message hmem
        refine ⟨Nat.le_succ_of_le hqueued.1, fun request hrequest hid => ?_⟩
        rcases (hsend.mem_pending request).mp hrequest with hold | rfl
        · exact hsend.answered hinv hold (hqueued.2 request hold hid)
        · -- No answer in the queue can be to the request that is sent only now.
          exact absurd hqueued.1 (by rw [← hid]; exact Nat.not_succ_le_self _)
      recorded := fun workId message hget => by
        rw [hsend.results] at hget
        rcases hinv.recorded workId message hget with ⟨request, hrequest, hid, hanswer⟩
        exact ⟨request, (hsend.mem_pending request).mpr (.inl hrequest), hid,
          hsend.answered hinv hrequest hanswer⟩
      leased := hsend.leased hinv hroute
      exclusive := fun lease lease' hlease hlease' =>
        hinv.exclusive lease lease' (hsend.live hroute lease hlease)
          (hsend.live hroute lease' hlease')
      outstanding := fun requestId hmem => by
        rw [hsend.remaining] at hmem
        rcases List.mem_append.mp hmem with hold | hnew
        · rcases hinv.outstanding requestId hold with ⟨request, hrequest, hid⟩
          exact ⟨request, (hsend.mem_pending request).mpr (.inl hrequest), hid⟩
        · exact ⟨_, (hsend.mem_pending _).mpr (.inr rfl), (List.mem_singleton.mp hnew).symm⟩
      -- The new request is outstanding, and the older ones are as they were.
      complete := fun request hmem => by
        rw [hsend.remaining, hsend.results]
        rcases (hsend.mem_pending request).mp hmem with hold | rfl
        · exact (hinv.complete request hold).imp_left (List.mem_append_left _)
        · exact .inl (List.mem_append_right _ (List.mem_singleton.mpr rfl))
      sent := fun other => by
        rw [hsend.workItems, List.mem_append, List.mem_singleton, hinv.sent]
        simp only [hsend.mem_pending, or_and_right, exists_or, exists_eq_left]
        exact or_congr_right eq_comm }

end Send

theorem nothing_sent (item : WorkItem κ β) : item ∈ ([] : List (WorkItem κ β)) ↔
    ∃ request ∈ ([] : List (PendingRequest κ β)), request.workItem = item := by
  simp

/-!
### Settling a batch

A result that asks for a choice registers a lease, a continuation that was answered gives
its own up, and a fault removes every lease of its worker. The order of the items decides
what is left.
-/

section Settle

variable {pool : BranchWorkerPool κ β}

/-- A lease after an item is settled was there under another key, on a worker
    without a fault, or it is the one the item's result establishes. -/
theorem settleLease_some (registry : LeaseRegistry) (item : WorkItem κ β)
    (result : BranchResult κ β) (key : String × Option String) (lease : Lease)
    (h : (settleLease registry item result).get? key = some lease) :
    (registry.get? key = some lease ∧ item.leaseKey ≠ key ∧
      (result.status = .fault → result.workerId ≠ some lease.workerId)) ∨
    (result.status = .success ∧ result.establishedLease = some lease ∧ lease.key = key) := by
  -- Settling drops the item's own lease first, and on a fault every lease of the worker.
  unfold settleLease at h
  cases hstatus : result.status with
  | success =>
      rw [hstatus] at h
      cases hestablished : result.establishedLease with
      | none =>
          rw [hestablished] at h
          have hold := LeaseRegistry.get?_invalidate_some h
          exact .inl ⟨hold.1, hold.2.symm, fun hfault => by cases hfault⟩
      -- A success with a lease writes it, under the key that the lease names.
      | some granted =>
          rw [hestablished] at h
          dsimp only at h
          rw [LeaseRegistry.get?_set] at h
          split at h
          · rename_i hkey
            cases h
            exact .inr ⟨rfl, rfl, hkey.symm⟩
          · have hold := LeaseRegistry.get?_invalidate_some h
            exact .inl ⟨hold.1, hold.2.symm, fun hfault => by cases hfault⟩
  | fault =>
      rw [hstatus] at h
      cases hworker : result.workerId with
      | none =>
          rw [hworker] at h
          have hold := LeaseRegistry.get?_invalidate_some h
          exact .inl ⟨hold.1, hold.2.symm, fun _ => by simp⟩
      -- A fault of a worker that is known takes the worker's leases with it.
      | some workerId =>
          rw [hworker] at h
          have hkept := LeaseRegistry.get?_invalidateWorker_some h
          have hold := LeaseRegistry.get?_invalidate_some hkept.1
          exact .inl ⟨hold.1, hold.2.symm, fun _ heq => hkept.2 (Option.some.inj heq).symm⟩

/-- Where a lease after the settling of a batch comes from. -/
theorem settleResults_some (results : Dict String (Nat × BranchResult κ β))
    (items : List (WorkItem κ β))
    (hall : ∀ item ∈ items, ∃ message, results.get? item.workId = some message) :
    ∀ (registry : LeaseRegistry) (key : String × Option String) (lease : Lease),
      (settleResults results registry items).1.get? key = some lease →
      (registry.get? key = some lease ∧ ∀ item ∈ items, item.leaseKey ≠ key ∧
        ∀ requestId result, results.get? item.workId = some (requestId, result) →
          result.status = .fault → result.workerId ≠ some lease.workerId) ∨
      ∃ before item after requestId result, items = before ++ item :: after ∧
        results.get? item.workId = some (requestId, result) ∧ result.status = .success ∧
        result.establishedLease = some lease ∧ lease.key = key ∧
        ∀ later ∈ after, ∀ requestId' result',
          results.get? later.workId = some (requestId', result') →
          result'.status = .fault → result'.workerId ≠ some lease.workerId := by
  -- The induction is on the items. A lease that is there at the end was there before and
  -- untouched by all of them, or was written by the last item that touches its key.
  induction items with
  | nil => exact fun registry key lease h => .inl ⟨h, fun item hmem => by cases hmem⟩
  | cons item rest ih =>
      intro registry key lease h
      rcases hall item List.mem_cons_self with ⟨⟨requestId, result⟩, hresult⟩
      unfold settleResults at h
      rw [hresult] at h
      rcases ih (fun other hmem => hall other (List.mem_cons_of_mem item hmem)) _ key lease h with
        ⟨hget, hrest⟩ | ⟨before, granting, after, requestId', result', heq, hgranting⟩
      -- What the rest leaves of the registry is compared with what this item did to it.
      · rcases settleLease_some registry item result key lease hget with
          ⟨hold, hkey, hfault⟩ | ⟨hstatus, hestablished, hkey⟩
        · refine .inl ⟨hold, fun other hmem => ?_⟩
          rcases List.mem_cons.mp hmem with rfl | hmem
          · refine ⟨hkey, fun requestId' result' hresult' => ?_⟩
            rw [hresult] at hresult'
            cases hresult'
            exact hfault
          · exact hrest other hmem
        -- The item itself wrote the lease, and nothing after it faults on that worker.
        · exact .inr ⟨[], item, rest, requestId, result, rfl, hresult, hstatus, hestablished, hkey,
            fun later hmem => (hrest later hmem).2⟩
      -- A later item wrote it.
      · exact .inr ⟨item :: before, granting, after, requestId', result', by rw [heq]; rfl,
          hgranting⟩

/-- Every item of a collected batch has its answer. -/
theorem PoolInv.collected (hinv : pool.PoolInv) (hremaining : pool.current.remaining = []) :
    ∀ item ∈ pool.current.workItems, ∃ message,
      pool.current.results.get? item.workId = some message := by
  intro item hmem
  rcases (hinv.sent item).mp hmem with ⟨request, hrequest, rfl⟩
  rcases hinv.complete request hrequest with hremains | hrecorded
  · rw [hremaining] at hremains
    cases hremains
  · exact hrecorded

/-- A collected batch has nothing left in an inbox. -/
theorem PoolInv.inbox_of_collected (hinv : pool.PoolInv)
    (hremaining : pool.current.remaining = []) (workerId : Nat) :
    (pool.workers workerId).inQueue = [] := by
  apply List.eq_nil_iff_forall_not_mem.mpr
  intro entry hmem
  have hplaced := (hinv.placed workerId entry hmem).1
  rw [hremaining] at hplaced
  cases hplaced

/-- After a clear batch, a lease of its worker's generation names what the worker holds. -/
theorem PoolInv.settled_names (hinv : pool.PoolInv) (hremaining : pool.current.remaining = [])
    (hclear : pool.BatchClear pool.current) {key : String × Option String} {lease : Lease}
    (hget : (settleResults pool.current.results pool.registry
      pool.current.workItems).1.get? key = some lease) (hsame : pool.SameGeneration lease) :
    pool.Names lease := by
  rcases settleResults_some pool.current.results pool.current.workItems
    (hinv.collected hremaining) pool.registry key lease hget with
    ⟨hold, hkeys⟩ | ⟨before, item, after, requestId, result, hitems, hresult, hstatus, hlease, -,
      hlater⟩
  · -- From before the batch: its worker was not used, or the batch took it up.
    rcases hinv.leased lease ⟨⟨key, hold⟩, hsame⟩ with ⟨hname, -⟩ | ⟨request, hrequest, -, -, hkey⟩
    · exact hname
    · have hmem := (hinv.sent _).mpr ⟨request, hrequest, rfl⟩
      exact absurd (hkey.trans (hinv.keyed key lease hold)) (hkeys _ hmem).1
  · -- Granted by the batch: the answer is the last of its worker.
    rcases hinv.recorded item.workId (requestId, result) hresult with ⟨request, -, hid, hanswer⟩
    have hid' : request.requestId = requestId := hid
    rcases hclear before item after hitems requestId result lease hresult hstatus hlease hsame with
      hlast | ⟨later, hmem, requestId', result', hresult', hfault, hworker⟩
    · refine hanswer.held ?_ lease hlease hsame
      rw [hid', ← (hanswer.granted lease hlease).1]
      exact hlast
    · exact absurd hworker (hlater later hmem requestId' result' hresult' hfault)

/-- A lease that is registered after a batch is under its key, and of no later generation
    than its worker. -/
theorem PoolInv.settled_keyed (hinv : pool.PoolInv) (hremaining : pool.current.remaining = [])
    {key : String × Option String} {lease : Lease}
    (hget : (settleResults pool.current.results pool.registry
      pool.current.workItems).1.get? key = some lease) :
    lease.key = key ∧
      lease.workerGeneration ≤ (pool.workers lease.workerId).workerGeneration := by
  rcases settleResults_some pool.current.results pool.current.workItems
    (hinv.collected hremaining) pool.registry key lease hget with
    ⟨hold, -⟩ | ⟨_, item, _, requestId, result, -, hresult, -, hlease, hkey, -⟩
  · exact ⟨hinv.keyed key lease hold, hinv.issued key lease hold⟩
  · rcases hinv.recorded item.workId (requestId, result) hresult with ⟨request, -, -, hanswer⟩
    have hgranted := hanswer.granted lease hlease
    rw [← hgranted.1] at hgranted
    exact ⟨hkey, hgranted.2⟩

/-- A clear batch that is collected leaves live leases to what their workers
    hold. -/
theorem PoolInv.settleBatch (hinv : pool.PoolInv) (batch : Batch κ β)
    (hbatch : pool.batch = some batch) (hremaining : batch.remaining = [])
    (hclear : pool.BatchClear batch) : (pool.settleBatch batch).1.PoolInv := by
  have hcurrent : pool.current = batch := by
    unfold current
    rw [hbatch]
    rfl
  subst hcurrent
  -- The batch is collected, so every inbox is empty.
  have hnil := hinv.inbox_of_collected hremaining
  -- A lease that is live after settling names what its worker holds. This is the condition's
  -- place: without it a lease could outlive the decision it was granted for.
  have hlive : ∀ lease, (pool.settleBatch pool.current).1.Live lease →
      (settleResults pool.current.results pool.registry pool.current.workItems).1.get? lease.key =
          some lease ∧ pool.Names lease := by
    rintro lease ⟨⟨key, hget⟩, hsame⟩
    refine ⟨?_, hinv.settled_names hremaining hclear hget hsame⟩
    rw [(hinv.settled_keyed hremaining hget).1]
    exact hget
  refine
    { keyed := fun key lease hget => (hinv.settled_keyed hremaining hget).1
      issued := fun key lease hget => (hinv.settled_keyed hremaining hget).2
      numbered := fun request hmem => by cases hmem
      distinct := List.nodup_nil
      placed := fun workerId entry hmem => ?_
      fifo := hinv.fifo
      inbox := fun workerId => ?_
      queued := fun message hmem =>
        ⟨(hinv.queued message hmem).1, fun request hrequest => by cases hrequest⟩
      recorded := fun workId message hget => by cases hget
      leased := fun lease hlease => .inl ⟨(hlive lease hlease).2, fun request hmem => by cases hmem⟩
      exclusive := fun lease lease' hlease hlease' hworker => ?_
      outstanding := fun requestId hmem => by cases hmem
      complete := fun request hmem => by cases hmem
      sent := nothing_sent }
  · change entry ∈ (pool.workers workerId).inQueue at hmem
    rw [hnil] at hmem
    cases hmem
  · change InboxSound _ workerId (pool.workers workerId).inQueue
    rw [hnil]
    trivial
  -- Two live leases on one worker would name one decision, and the registry has one lease for
  -- it.
  · rcases hlive lease hlease with ⟨hget, hname⟩
    rcases hlive lease' hlease' with ⟨hget', hname'⟩
    rw [hname.key_eq hname' hworker, hget', Option.some.injEq] at hget
    exact hget.symm

end Settle

/-!
### Steps and runs

The invariant is kept by every step that meets the condition, and so by every run.
-/

section Steps

variable {pool : BranchWorkerPool κ β} (digests : Digests κ)

/-- Sending more requests keeps the continuations that were sent. -/
theorem holderWorkers_sendItem (pool : BranchWorkerPool κ β) (item : WorkItem κ β) :
    ∃ more, holderWorkers (pool.sendItem digests item).current =
      holderWorkers pool.current ++ more := by
  let routing := routeWorkItem digests item pool.registry pool.workerIds pool.workerGenerations
    pool.current.nextBootstrapIndex
  let sent : PendingRequest κ β :=
    ⟨pool.nextRequestId + 1, item, routing.workerId, routing.request.executionMode⟩
  refine ⟨([sent].filter (·.executionMode = .holderStep)).map (·.workerId), ?_⟩
  change ((pool.current.pending ++ [_]).filter _).map _ = _
  rw [List.filter_append, List.map_append]
  rfl

/-- Sending a list of items keeps the continuations sent before it. -/
theorem holderWorkers_foldl (items : List (WorkItem κ β)) :
    ∀ pool : BranchWorkerPool κ β, ∃ more,
      holderWorkers (items.foldl (BranchWorkerPool.sendItem digests) pool).current =
        holderWorkers pool.current ++ more := by
  induction items with
  | nil => exact fun pool => ⟨[], (List.append_nil _).symm⟩
  | cons item rest ih =>
      intro pool
      rcases holderWorkers_sendItem digests pool item with ⟨first, hfirst⟩
      rcases ih (pool.sendItem digests item) with ⟨more, hmore⟩
      refine ⟨first ++ more, ?_⟩
      rw [List.foldl_cons, hmore, hfirst, List.append_assoc]

/-- A list of items keeps the invariant while no worker gets two continuations. -/
theorem PoolInv.sendItems (items : List (WorkItem κ β)) :
    ∀ {pool : BranchWorkerPool κ β}, pool.PoolInv →
      (holderWorkers (items.foldl (BranchWorkerPool.sendItem digests) pool).current).Nodup →
      (items.foldl (BranchWorkerPool.sendItem digests) pool).PoolInv := by
  induction items with
  | nil => exact fun hinv _ => hinv
  | cons item rest ih =>
      intro pool hinv hclear
      refine ih (hinv.sendItem digests item ?_) hclear
      rcases holderWorkers_foldl digests rest (pool.sendItem digests item) with ⟨more, hmore⟩
      rw [List.foldl_cons, hmore] at hclear
      exact (List.nodup_append.mp hclear).1

/-- A batch is sent to an idle pool: nothing is outstanding yet. -/
theorem PoolInv.sendBatch (hinv : pool.PoolInv) (hidle : pool.batch = none)
    (items : List (WorkItem κ β))
    (hclear : (holderWorkers (pool.sendBatch digests items).current).Nodup) :
    (pool.sendBatch digests items).PoolInv := by
  refine PoolInv.sendItems digests items ?_ hclear
  have hcurrent : pool.current = {} := by
    unfold current
    rw [hidle]
    rfl
  -- Between batches nothing is pending, and hence no worker has a request.
  have hnone : ∀ request, request ∉ pool.current.pending := by
    intro request hmem
    rw [hcurrent] at hmem
    cases hmem
  have hnil : ∀ workerId, (pool.workers workerId).inQueue = [] :=
    fun workerId => hinv.inbox_nil workerId fun request hmem => absurd hmem (hnone request)
  exact
    { keyed := hinv.keyed
      issued := hinv.issued
      numbered := fun request hmem => by cases hmem
      distinct := List.nodup_nil
      placed := fun workerId entry hmem => by
        change entry ∈ (pool.workers workerId).inQueue at hmem
        rw [hnil] at hmem
        cases hmem
      fifo := hinv.fifo
      inbox := fun workerId => by
        change InboxSound _ workerId (pool.workers workerId).inQueue
        rw [hnil]
        trivial
      queued := fun message hmem =>
        ⟨(hinv.queued message hmem).1, fun request hrequest => by cases hrequest⟩
      recorded := fun workId message hget => by cases hget
      -- Every live lease is sound before the first item is sent, since no batch is under way.
      leased := fun lease hlease => by
        rcases hinv.leased lease hlease with ⟨hname, -⟩ | ⟨request, hmem, -⟩
        · exact .inl ⟨hname, fun request hmem => by cases hmem⟩
        · exact absurd hmem (hnone request)
      exclusive := hinv.exclusive
      outstanding := fun requestId hmem => by cases hmem
      complete := fun request hmem => by cases hmem
      sent := nothing_sent }

/-- Every step that meets the condition keeps the invariant. -/
theorem PoolInv.step (hinv : pool.PoolInv) (event : PoolEvent κ β)
    (hclear : StepClear digests pool event) : (pool.step digests event).1.PoolInv := by
  -- One case for each event; the batch under way decides whether the event is possible at all.
  cases event with
  | run workerId execution => exact hinv.runWorker digests workerId execution
  | dispatch items =>
      cases hbatch : pool.batch with
      | some batch =>
          simp only [BranchWorkerPool.step, hbatch]
          exact hinv
      | none =>
          simp only [BranchWorkerPool.step, hbatch]
          exact hinv.sendBatch digests hbatch items (hclear hbatch)
  | respawn workerId withRegistry =>
      cases hbatch : pool.batch with
      | some batch =>
          simp only [BranchWorkerPool.step, hbatch]
          exact hinv
      | none =>
          simp only [BranchWorkerPool.step, hbatch]
          cases withRegistry with
          | true => exact hinv.respawnWorker workerId
          -- Without the registry a worker is replaced and its leases stay, one generation
          -- behind.
          | false => exact hinv.replace workerId pool.registry fun _ _ h => h
  | receive =>
      cases hbatch : pool.batch with
      | none =>
          simp only [BranchWorkerPool.step, hbatch]
          exact hinv
      | some batch =>
          simp only [BranchWorkerPool.step, hbatch]
          split
          · exact hinv
          · exact hinv.receiveResult batch hbatch
  | timeOut =>
      cases hbatch : pool.batch with
      | none =>
          simp only [BranchWorkerPool.step, hbatch]
          exact hinv
      | some batch =>
          simp only [BranchWorkerPool.step, hbatch]
          split
          · exact hinv
          · exact hinv.timeOutRequests batch hbatch
  | settle =>
      cases hbatch : pool.batch with
      | none =>
          simp only [BranchWorkerPool.step, hbatch]
          exact hinv
      | some batch =>
          simp only [BranchWorkerPool.step, hbatch]
          split
          -- Only a batch that is collected is settled, and there the condition is asked for.
          · rename_i hremaining
            exact hinv.settleBatch batch hbatch hremaining (hclear batch hbatch hremaining)
          · exact hinv

/-- Before the first batch there is no lease and no request. -/
theorem PoolInv.start (workerCount : Nat) (workerCount_pos : 0 < workerCount) :
    (start workerCount workerCount_pos : BranchWorkerPool κ β).PoolInv :=
  { keyed := fun key lease hget => by cases hget
    issued := fun key lease hget => by cases hget
    numbered := fun request hmem => by cases hmem
    distinct := List.nodup_nil
    placed := fun workerId entry hmem => by cases hmem
    fifo := fun workerId => List.Pairwise.nil
    inbox := fun workerId => trivial
    queued := fun message hmem => by cases hmem
    recorded := fun workId message hget => by cases hget
    leased := fun lease ⟨⟨key, hget⟩, _⟩ => by cases hget
    exclusive := fun lease lease' ⟨⟨key, hget⟩, _⟩ => by cases hget
    outstanding := fun requestId hmem => by cases hmem
    complete := fun request hmem => by cases hmem
    sent := nothing_sent }

/-- A batch that has a worker for each of its items is clear. -/
theorem PoolInv.batchClear_of_nodup (hinv : pool.PoolInv) (batch : Batch κ β)
    (hbatch : pool.batch = some batch) (hnodup : (batch.pending.map (·.workerId)).Nodup) :
    pool.BatchClear batch ∧ (holderWorkers batch).Nodup := by
  have hcurrent : pool.current = batch := by
    unfold current
    rw [hbatch]
    rfl
  refine ⟨?_, (List.filter_sublist.map _).nodup hnodup⟩
  intro before item after _ requestId result lease hresult _ hlease _
  rw [← hcurrent] at hresult
  rcases hinv.recorded item.workId _ hresult with ⟨request, hrequest, hid, hanswer⟩
  rw [hcurrent] at hrequest
  refine .inl fun other hother hworker => ?_
  have hsame := hworker.trans (hanswer.granted lease hlease).1
  have hid' : request.requestId = requestId := hid
  rw [List.inj_on_of_nodup_map hnodup hother hrequest hsame, hid']

/-- In a run whose batches send no two continuations to one worker and are clear
    when they are settled, leases are sound in every state. -/
theorem leases_sound (workerCount : Nat) (workerCount_pos : 0 < workerCount)
    (events : List (PoolEvent κ β))
    (hclear : Run.Along (BranchWorkerPool.step digests) (StepClear digests)
      (BranchWorkerPool.start workerCount workerCount_pos) events) :
    LeaseSound (Run.final (BranchWorkerPool.step digests)
      (BranchWorkerPool.start workerCount workerCount_pos) events) :=
  (Run.invariant_along (BranchWorkerPool.step digests) (I := PoolInv) (P := StepClear digests)
    (fun _ event hinv hstep => hinv.step digests event hstep) _ events
    (PoolInv.start workerCount workerCount_pos) hclear).leaseSound

end Steps

/-!
### A worker for two cards

Two cards that ask for a choice share the only worker. The lease of the first outlives
what it names, so the condition on a batch cannot be left out.
-/

section SharedWorker

/-- A digest that tells contexts apart by the last action of their prefix. -/
def lastActionDigests : Digests Unit where
  canonicalSnapshot := fun _ => .null
  sha256Hex
    | .obj [_, (_, .list entries), _] =>
        match entries.getLast? with
        | some (.obj ((_, .obj [_, (_, .str (.text key))]) :: _)) => key
        | _ => "root"
    | _ => "other"

/-- A sub-branch of the decision on the player's turn that plays one card. -/
def cardItem (key : String) : WorkItem Unit Unit where
  workId := key
  decisionContext := strikeContext
  candidate := { currentContextSignature := strikeSignature, semanticAction := ⟨"card", key⟩ }
  contextId := "root"
  workKind := .subBranch
  arrival := rfl

/-- The choice a card asks for. -/
def choiceState : BattleState Unit where
  board := ()
  isTerminal := false
  pendingChoice := some { choiceType := some "Discard" }
  cachedLegalActions := none
  decisionFrame := some ⟨some "combat", 1, none⟩

/-- The signature of a choice. -/
def choiceSignature : DecisionSignature :=
  DecisionSignature.fromBattleState choiceState ⟨"card", "SURVIVOR"⟩
    { actionId := 0, actionType := "card", semanticKey := "SURVIVOR" } none none

/-- A session under which every card asks for a choice. -/
def choiceExecution (key : String) : Execution Unit Unit where
  replay := .success strikeContext.currentDecisionResult
  legalActions := .ok [{ actionId := 0, actionType := "card", semanticKey := key }]
  step := .ok choiceState
  capture := .ok ()
  outcome := ""
  pipeline := .ok ()

/-- The continuation of the choice that the first card asks for. -/
def choiceItem : WorkItem Unit Unit where
  workId := "choice"
  decisionContext := pendingContext (cardItem "SURVIVOR") choiceState choiceSignature
  candidate :=
    { currentContextSignature := choiceSignature, semanticAction := ⟨"choice_card", "card:SLICE"⟩ }
  contextId := "SURVIVOR"
  workKind := .continuation
  arrival := choiceSignature.matchesForReplay_refl

/-- Two cards that ask for a choice, evaluated in one batch on one worker, and then
    the continuation of the first. -/
def sharedWorkerRun : List (PoolEvent Unit Unit) :=
  [.dispatch [cardItem "SURVIVOR", cardItem "ACROBATICS"],
    .run 0 (choiceExecution "SURVIVOR"),
    .run 0 (choiceExecution "ACROBATICS"),
    .receive,
    .receive,
    .settle,
    .dispatch [choiceItem]]

/-- The continuation is sent to a worker that holds the other choice. -/
theorem not_leaseSound_sharedWorkerRun :
    ¬ LeaseSound (Run.final (BranchWorkerPool.step lastActionDigests)
      (BranchWorkerPool.start 1 Nat.one_pos) sharedWorkerRun) := by
  intro hsound
  let lease := establishedLease lastActionDigests 0 1 1 (cardItem "SURVIVOR") choiceState
    choiceSignature
  rcases hsound.continuation 0 3 ⟨choiceItem, .holderStep, some lease⟩ [] rfl rfl with
    ⟨lease, hlease, -, -, -, state, hstate⟩
  cases hstate

/-- With one card to a batch the continuation finds its choice. -/
theorem leases_sound_one_card :
    LeaseSound (Run.final (BranchWorkerPool.step lastActionDigests)
      (BranchWorkerPool.start 1 Nat.one_pos)
      [.dispatch [cardItem "SURVIVOR"], .run 0 (choiceExecution "SURVIVOR"), .receive, .settle,
        .dispatch [choiceItem]]) := by
  refine leases_sound lastActionDigests 1 Nat.one_pos _
    ⟨fun _ => by decide, trivial, trivial, ?_, fun _ => by decide, trivial⟩
  intro batch hbatch _ before item after hitems requestId result lease hresult _ _ _
  cases hbatch
  refine .inl fun request hrequest _ => ?_
  have hitems' : [cardItem "SURVIVOR"] = before ++ item :: after := hitems
  have hmem : item ∈ [cardItem "SURVIVOR"] := by
    rw [hitems']
    exact List.mem_append_right before List.mem_cons_self
  rw [List.mem_singleton.mp hmem] at hresult
  cases hresult
  rw [List.mem_singleton.mp hrequest]

end SharedWorker

end BranchWorkerPool

end Combat

end STS2RL
