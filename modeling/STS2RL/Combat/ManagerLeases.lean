import STS2RL.Combat.LeaseSoundness
import STS2RL.Combat.RequestAccounts

/-!
# Leases of a Branch Manager

A manager has at most one request outstanding on a worker. That is what a batch
lacks, and it is enough for leases to stay sound over every run: the lease that
a request uses up and the decision that its worker goes on from change hands
while nothing else can come between them.

While a request is outstanding on a worker, its leases are about to end: a
bootstrap has removed them when it was sent, and a holder step was sent on the
only one there was, which its answer removes. An answer that lies on the queue
says what the worker holds, because the worker has nothing else to run. So when
the answer is taken, the lease that it grants names what the worker retains.

A worker that is replaced loses what it held, and every lease on it is of an
older generation from then on, whether the registry still has it or not.

## Main definitions

* `SentOn`: An outstanding request, as the continuation of a lease.
* `LeasesSound`: The invariant.
* `ManagerRun.LeasesHold`: What is asked of the leases of a manager.

## Theorems

* `LeasesSound.withdraw`, `LeasesSound.launch`, `LeasesSound.complete`,
  `LeasesSound.run`: What each step keeps.
* `LeasesSound.exclusive`: Live leases on one worker are one lease.
* `manager_leases_sound`: The run lemma.
-/

namespace STS2RL

namespace Combat

variable {κ β : Type}

open BranchWorkerPool BranchManager

namespace RowsSound

variable {admitted : List String} {st : PollState κ β}

/-- A request in an inbox has its row, and is the only one of its worker. -/
theorem slot_of_inbox (h : RowsSound admitted st) {workerId requestId : Nat}
    {request : WorkerExecutionRequest κ β} {rest : List (Nat × WorkerExecutionRequest κ β)}
    (hqueue : (st.manager.pool.workers workerId).inQueue = (requestId, request) :: rest) :
    ∃ slot ∈ st.running, slot.requestId = requestId ∧ slot.workerId = workerId ∧ rest = [] := by
  have hslot : ∀ entry ∈ (st.manager.pool.workers workerId).inQueue,
      ∃ slot ∈ st.running, slot.requestId = entry.1 ∧ slot.workerId = workerId := by
    intro entry hmem
    rcases List.mem_map.1 (h.accounts.inbox workerId entry hmem) with ⟨slot, hslot, hrow⟩
    exact ⟨slot, hslot, congrArg Prod.fst hrow, congrArg Prod.snd hrow⟩
  have honce := h.accounts.inboxOnce workerId
  rw [hqueue] at hslot honce
  rcases hslot _ List.mem_cons_self with ⟨slot, hmem, hid, hworker⟩
  refine ⟨slot, hmem, hid, hworker, List.eq_nil_iff_forall_not_mem.2 fun entry hentry => ?_⟩
  rcases hslot entry (List.mem_cons_of_mem _ hentry) with ⟨slot', hmem', hid', hworker'⟩
  have hsame := List.inj_on_of_nodup_map h.workers hmem' hmem (hworker'.trans hworker.symm)
  rw [List.map_cons, List.nodup_cons] at honce
  refine honce.1 (List.mem_map.2 ⟨entry, hentry, ?_⟩)
  rw [← hid', hsame, hid]

/-- A queued branch has no row. -/
theorem branch_ne_queued (h : RowsSound admitted st) {branchId : String}
    {record : BranchRecord κ β} (hget : st.manager.records.get? branchId = some record)
    (hqueued : record.state = .queued) : ∀ slot ∈ st.running, slot.branchId ≠ branchId := by
  intro slot hslot heq
  rcases h.running slot hslot with ⟨-, record', -, hget', hstate, -⟩
  rw [heq, hget, Option.some.injEq] at hget'
  rw [← hget', hqueued] at hstate
  cases hstate

/-- An expiry replaces the row's worker, and the other rows keep theirs. -/
theorem expire_withdraws (h : RowsSound admitted st) {slot : Outstanding}
    (hslot : slot ∈ st.running) :
    let after := (BranchManager.expire st slot).1.manager
    Withdraws st.manager.pool after.pool ∧
      Replaced st.manager.pool after.pool slot.workerId ∧
      ∀ slot' ∈ st.running, slot' ≠ slot →
        after.pool.workers slot'.workerId = st.manager.pool.workers slot'.workerId ∧
          after.records.get? slot'.branchId = st.manager.records.get? slot'.branchId := by
  rcases h.expire_eq hslot with ⟨record, item, fault, -, -, -, hfault, -, heq⟩
  rw [heq]
  rcases withdraws_respawnWorker st.manager.pool slot.workerId with ⟨hwithdraws, hreplaced⟩
  have hsettled : Withdraws (st.manager.pool.respawnWorker slot.workerId)
      { st.manager.pool.respawnWorker slot.workerId with
        registry := settleLease (st.manager.pool.respawnWorker slot.workerId).registry item
          fault } := by
    refine .of_registry _ _ fun key lease hlease => ?_
    rcases settleLease_some _ _ _ _ _ hlease with ⟨hold, -⟩ | ⟨hsuccess, -⟩
    · exact hold
    · rw [hfault] at hsuccess
      cases hsuccess
  refine ⟨hwithdraws.trans hsettled, Withdraws.replaced hreplaced hsettled,
    fun slot' hrow hne => ⟨?_, ?_⟩⟩
  · change (st.manager.pool.respawnWorker slot.workerId).workers slot'.workerId = _
    unfold BranchWorkerPool.respawnWorker
    rw [replaceWorker_workers, if_neg (h.worker_ne hslot hrow hne)]
  · change (st.manager.setRecord slot.branchId _).records.get? slot'.branchId = _
    rw [setRecord_records, if_neg (h.branch_ne hslot hrow hne)]

end RowsSound

/-- The row's request was sent as a continuation under the key. -/
def BranchManager.SentOn (manager : BranchManager κ β) (slot : Outstanding)
    (key : String × Option String) : Prop :=
  ∃ record item, manager.records.get? slot.branchId = some record ∧
    record.executionMode = some .holderStep ∧ record.workItem = some item ∧ item.leaseKey = key

/-- The leases of a manager with these requests outstanding. -/
structure LeasesSound (manager : BranchManager κ β) (slots : List Outstanding) : Prop where
  keyed : ∀ key lease, manager.pool.registry.get? key = some lease → lease.key = key
  issued : ∀ key lease, manager.pool.registry.get? key = some lease →
    lease.workerGeneration ≤ (manager.pool.workers lease.workerId).workerGeneration
  named : ∀ lease, manager.pool.Live lease →
    (∀ slot ∈ slots, slot.workerId ≠ lease.workerId) → manager.pool.Names lease
  consumed : ∀ lease, manager.pool.Live lease → ∀ slot ∈ slots,
    slot.workerId = lease.workerId → manager.SentOn slot lease.key
  found : ∀ workerId requestId request rest,
    (manager.pool.workers workerId).inQueue = (requestId, request) :: rest →
    request.executionMode = .holderStep → manager.pool.Finds workerId request
  answered : ∀ slot ∈ slots, ∀ result, (slot.requestId, result) ∈ manager.pool.resultQueue →
    ∀ lease, result.establishedLease = some lease →
      lease.workerId = slot.workerId ∧ manager.pool.Names lease

namespace LeasesSound

variable {manager : BranchManager κ β} {slots : List Outstanding}

/-- Live leases under one key are one lease. -/
theorem lease_eq (h : LeasesSound manager slots) {lease lease' : Lease}
    (hlive : manager.pool.Live lease) (hlive' : manager.pool.Live lease')
    (hkey : lease.key = lease'.key) : lease = lease' := by
  rcases hlive with ⟨⟨key, hget⟩, -⟩
  rcases hlive' with ⟨⟨key', hget'⟩, -⟩
  rw [← h.keyed key lease hget] at hget
  rw [← h.keyed key' lease' hget', ← hkey, hget, Option.some.injEq] at hget'
  exact hget'

/-- Live leases on one worker are one lease. -/
theorem exclusive (h : LeasesSound manager slots) (lease lease' : Lease)
    (hlive : manager.pool.Live lease) (hlive' : manager.pool.Live lease')
    (hworker : lease.workerId = lease'.workerId) : lease = lease' := by
  refine h.lease_eq hlive hlive' ?_
  by_cases hbusy : ∃ slot ∈ slots, slot.workerId = lease.workerId
  · -- Both are the lease that the worker's request was sent on.
    rcases hbusy with ⟨slot, hslot, hsame⟩
    rcases h.consumed lease hlive slot hslot hsame with ⟨record, item, hget, -, hitem, hkey⟩
    rcases h.consumed lease' hlive' slot hslot (hsame.trans hworker) with
      ⟨record', item', hget', -, hitem', hkey'⟩
    rw [hget, Option.some.injEq] at hget'
    rw [← hget', hitem, Option.some.injEq] at hitem'
    rw [← hkey, ← hkey', hitem']
  · have hfree : ∀ slot ∈ slots, slot.workerId ≠ lease.workerId :=
      fun slot hslot heq => hbusy ⟨slot, hslot, heq⟩
    exact (h.named lease hlive hfree).key_eq (h.named lease' hlive' (hworker ▸ hfree)) hworker

/-- Workers are replaced and leases removed; the rows of the replaced workers are
    closed. -/
theorem withdraw (h : LeasesSound manager slots) {manager' : BranchManager κ β}
    {slots' : List Outstanding} (hpool : Withdraws manager.pool manager'.pool)
    (hkept : ∀ slot ∈ slots', slot ∈ slots ∧
      manager'.pool.workers slot.workerId = manager.pool.workers slot.workerId ∧
      manager'.records.get? slot.branchId = manager.records.get? slot.branchId)
    (hclosed : ∀ slot ∈ slots, slot ∈ slots' ∨
      Replaced manager.pool manager'.pool slot.workerId) : LeasesSound manager' slots' := by
  have hissued : ∀ key lease, manager'.pool.registry.get? key = some lease →
      lease.workerGeneration ≤ (manager.pool.workers lease.workerId).workerGeneration :=
    fun key lease hget => h.issued key lease (hpool.leases key lease hget)
  -- A lease that is live still is on a worker that was not replaced.
  have hlive : ∀ lease, manager'.pool.Live lease → manager.pool.Live lease ∧
      manager'.pool.workers lease.workerId = manager.pool.workers lease.workerId := by
    rintro lease ⟨⟨key, hget⟩, hsame⟩
    rcases hpool.workers lease.workerId with hworker | ⟨hlt, -⟩
    · refine ⟨⟨⟨key, hpool.leases key lease hget⟩, ?_⟩, hworker⟩
      unfold SameGeneration at hsame ⊢
      rwa [hworker] at hsame
    · have hle := hissued key lease hget
      unfold SameGeneration at hsame
      omega
  have hnames : ∀ lease, manager'.pool.workers lease.workerId =
      manager.pool.workers lease.workerId → manager.pool.Names lease →
      manager'.pool.Names lease := fun lease hworker hnames =>
    (names_congr lease (congrArg _ hworker) (congrArg _ hworker)).2 hnames
  refine ⟨fun key lease hget => h.keyed key lease (hpool.leases key lease hget),
    fun key lease hget => (hissued key lease hget).trans (hpool.generation_le _), ?_, ?_, ?_, ?_⟩
  · intro lease hlease hfree
    rcases hlive lease hlease with ⟨hold, hworker⟩
    refine hnames lease hworker (h.named lease hold fun slot hslot hsame => ?_)
    rcases hclosed slot hslot with hstill | ⟨hlt, -⟩
    · exact hfree slot hstill hsame
    · rw [hsame, hworker] at hlt
      exact absurd hlt (Nat.lt_irrefl _)
  · intro lease hlease slot hslot hsame
    rcases hkept slot hslot with ⟨hold, -, hrecord⟩
    rcases h.consumed lease (hlive lease hlease).1 slot hold hsame with ⟨record, item, hget, hrest⟩
    exact ⟨record, item, hrecord.trans hget, hrest⟩
  · intro workerId requestId request rest hqueue hmode
    rcases hpool.workers workerId with hworker | ⟨-, hempty⟩
    · rw [hworker] at hqueue
      exact finds_of_finds workerId request (congrArg _ hworker) (congrArg _ hworker)
        (h.found workerId requestId request rest hqueue hmode)
    · rw [hempty] at hqueue
      cases hqueue
  · intro slot hslot result hmem lease hlease
    rcases hkept slot hslot with ⟨hold, hworker, -⟩
    rw [hpool.resultQueue] at hmem
    rcases h.answered slot hold result hmem lease hlease with ⟨hsame, hname⟩
    exact ⟨hsame, hnames lease (hsame ▸ hworker) hname⟩

/-- The worker of an answered request is not the one that answers now. -/
theorem worker_ne_of_answered {admitted : List String} {st : PollState κ β}
    (hrows : RowsSound admitted st) {workerId requestId : Nat}
    {request : WorkerExecutionRequest κ β} {rest : List (Nat × WorkerExecutionRequest κ β)}
    (hqueue : (st.manager.pool.workers workerId).inQueue = (requestId, request) :: rest)
    {slot slot' : Outstanding} (hslot : slot ∈ st.running) (hid : slot.requestId = requestId)
    (hworker : slot.workerId = workerId) (hslot' : slot' ∈ st.running)
    {result : BranchResult κ β}
    (hanswer : (slot'.requestId, result) ∈ st.manager.pool.resultQueue) :
    slot'.workerId ≠ workerId := by
  intro heq
  have hsame := List.inj_on_of_nodup_map hrows.workers hslot' hslot (heq.trans hworker.symm)
  refine hrows.accounts.unanswered workerId (requestId, request) ?_ ?_
  · rw [hqueue]
    exact List.mem_cons_self
  · rw [hsame, hid] at hanswer
    exact List.mem_map_of_mem hanswer

/-- A worker answers what it was sent, and then has nothing to run. -/
theorem run {admitted : List String} {st : PollState κ β} (hrows : RowsSound admitted st)
    (h : LeasesSound st.manager st.running) (digests : Digests κ) (workerId : Nat)
    (execution : Execution κ β) :
    LeasesSound { st.manager with pool := st.manager.pool.runWorker digests workerId execution }
      st.running := by
  cases hqueue : (st.manager.pool.workers workerId).inQueue with
  | nil =>
      rw [runWorker_of_nil digests execution hqueue]
      exact h
  -- The request that is answered belongs to a row, and is the only one of its worker.
  | cons entry rest =>
      rcases entry with ⟨requestId, request⟩
      rcases hrows.slot_of_inbox hqueue with ⟨slot, hslot, hid, hworker, hrest⟩
      rcases st.manager.pool.runs_runWorker digests execution hqueue with ⟨answer, hrun⟩
      generalize st.manager.pool.runWorker digests workerId execution = pool' at hrun ⊢
      -- A lease on this worker cannot be free of rows, and those on others are not touched.
      refine
        { keyed := hrun.registry ▸ h.keyed
          issued := fun key lease hget => ?_
          named := fun lease hlease hfree => ?_
          consumed := fun lease hlease => h.consumed lease ((hrun.live_iff lease).1 hlease)
          found := fun other requestId' request' rest' hqueue' hmode => ?_
          answered := fun slot' hslot' result hmem lease hlease => ?_ }
      · change pool'.registry.get? key = some lease at hget
        rw [hrun.registry] at hget
        exact (h.issued key lease hget).trans_eq (hrun.generation _).symm
      · have hne : lease.workerId ≠ workerId := fun heq => hfree slot hslot (hworker.trans heq.symm)
        exact (hrun.names_iff hne).2 (h.named lease ((hrun.live_iff lease).1 hlease) hfree)
      -- This worker's inbox is empty now; every other one finds what it found.
      · change (pool'.workers other).inQueue = _ at hqueue'
        by_cases hsame : other = workerId
        · rw [hsame, hrun.inbox, hrest] at hqueue'
          cases hqueue'
        · rw [hrun.others other hsame] at hqueue'
          exact finds_of_finds other request' (hrun.generation other)
            (congrArg _ (hrun.others other hsame))
            (h.found other requestId' request' rest' hqueue' hmode)
      · change _ ∈ pool'.resultQueue at hmem
        rw [hrun.resultQueue] at hmem
        rcases List.mem_append.1 hmem with hold | hnew
        · rcases h.answered slot' hslot' result hold lease hlease with ⟨hsame, hname⟩
          have hne := worker_ne_of_answered hrows hqueue hslot hid hworker hslot' hold
          exact ⟨hsame, (hrun.names_iff (hsame ▸ hne)).2 hname⟩
        · -- The new answer is to the worker's own row, and says what the worker holds now.
          have hpair := Prod.mk.inj (List.mem_singleton.1 hnew)
          have hslots := hrows.slot_eq hslot' hslot (hpair.1.trans hid.symm)
          rw [hpair.2] at hlease
          rcases hrun.granted lease hlease with ⟨hlocated, hgranted, hholds⟩
          refine ⟨by rw [hlocated, hslots, hworker], ?_, ?_⟩
          · unfold SameGeneration
            change (pool'.workers lease.workerId).workerGeneration = _
            rw [hrun.generation, hlocated, hgranted]
          · change (pool'.workers lease.workerId).runtime.Holds lease
            rw [hlocated]
            exact hholds

/-!
### Launching a branch

A branch goes to a free worker, so to one whose lease nobody uses; the lease it continues
is consumed.
-/

section Launch

variable {admitted : List String} {st : PollState κ β} {branchId : String}
  {record : BranchRecord κ β} {item : WorkItem κ β} {routing : Routing κ β}

/-- A worker without a row has a live lease on it only for what it holds. -/
theorem names_of_free (h : LeasesSound st.manager st.running)
    (hunused : ∀ slot ∈ st.running, slot.workerId ≠ routing.workerId) {lease : Lease}
    (hlive : st.manager.pool.Live lease) (hworker : routing.workerId = lease.workerId) :
    st.manager.pool.Names lease := h.named lease hlive (hworker ▸ hunused)

/-- The leases that are left on a worker are the one its request was sent on. -/
theorem consumed_launched (schedule : PollSchedule) (h : LeasesSound st.manager st.running)
    (hroute : st.manager.pool.Routed item routing) (hitem : record.workItem = some item)
    (hrow : ∀ slot ∈ st.running, slot.branchId ≠ branchId) {lease : Lease}
    (hlease : (BranchManager.launch schedule st branchId record routing).manager.pool.Live lease)
    {slot : Outstanding}
    (hslot : slot ∈ (BranchManager.launch schedule st branchId record routing).running)
    (hsame : slot.workerId = lease.workerId) :
    (BranchManager.launch schedule st branchId record routing).manager.SentOn slot lease.key := by
  have hsend := st.manager.pool.sends_enqueue routing
  have hlive := hsend.live hroute lease hlease
  rcases List.mem_append.1 hslot with hold | hnew
  · rcases h.consumed lease hlive slot hold hsame with ⟨record', item', hget', hrest⟩
    refine ⟨record', item', ?_, hrest⟩
    rw [BranchManager.launch_other _ _ _ _ _ (hrow slot hold), hget']
  · rw [List.mem_singleton.1 hnew] at hsame ⊢
    cases hroute with
    | continued holder hholderLive hkey hmode _ hworker _ =>
        have heq := h.exclusive lease holder hlive hholderLive (hsame.symm.trans hworker)
        exact ⟨_, item, BranchManager.launch_self schedule st branchId record routing,
          congrArg some hmode, hitem, by rw [heq, hkey]⟩
    | bootstrapped _ hremoved =>
        rcases hlease with ⟨⟨key, hlease⟩, -⟩
        exact absurd hsame.symm (hremoved key lease hlease).2

/-- A continuation finds what the lease names. A bootstrap names nothing. -/
theorem finds_launched {pool' : BranchWorkerPool κ β} (h : LeasesSound st.manager st.running)
    (hsend : st.manager.pool.Sends pool' routing) (hrouted : routing.request.workItem = item)
    (hroute : st.manager.pool.Routed item routing)
    (hunused : ∀ slot ∈ st.running, slot.workerId ≠ routing.workerId)
    (hmode : routing.request.executionMode = .holderStep) :
    pool'.Finds routing.workerId routing.request := by
  cases hroute with
  | continued lease hlive hkey _ hexpected hworker _ =>
      have hname := names_of_free h hunused hlive hworker
      rw [← hrouted] at hkey
      refine ⟨lease, hexpected, hworker.symm, hkey, (hsend.names_iff lease).2 hname, ?_⟩
      rw [hworker, hsend.runtime]
      exact WorkerRuntime.holderState_of_holds _ routing.request lease hexpected hkey hname.2
  | bootstrapped hbootstrap _ =>
      rw [hbootstrap] at hmode
      cases hmode

/-- A branch is sent to a free worker. As a continuation it finds what the lease
    names, and as a bootstrap it leaves no lease on the worker. -/
theorem launch {st' : PollState κ β} (hrows : RowsSound admitted st)
    (h : LeasesSound st.manager st.running) {digests : Digests κ} {schedule : PollSchedule}
    (hmove : DispatchMove digests schedule st st') : LeasesSound st'.manager st'.running := by
  cases hmove with
  | skip waiting hsub => exact h
  | launch branchId record item hget hqueued hitem hwaits hfree =>
      rcases st.manager.pool.routed_routeWorkItem digests item (freeWorkers st)
        st.manager.nextBootstrapIndex with ⟨hrouted, hroute⟩
      generalize routeWorkItem digests item st.manager.pool.registry (freeWorkers st)
        st.manager.pool.workerGenerations st.manager.nextBootstrapIndex = routing
        at hrouted hroute hfree ⊢
      -- The worker that is sent to runs nothing, so that its inbox is empty and no row is on it.
      have hunused : ∀ slot ∈ st.running, slot.workerId ≠ routing.workerId := by
        intro slot hslot heq
        unfold freeWorkers at hfree
        rw [List.mem_filter, decide_eq_true_eq] at hfree
        exact hfree.2 (List.mem_map.2 ⟨slot, hslot, heq⟩)
      have hempty : (st.manager.pool.workers routing.workerId).inQueue = [] :=
        hrows.accounts.inbox_nil _ fun row hrow => by
          rcases List.mem_map.1 hrow with ⟨slot, hslot, rfl⟩
          exact hunused slot hslot
      -- Sending writes one inbox, and the registry may lose leases but gains none.
      have hsend : st.manager.pool.Sends
          (BranchManager.launch schedule st branchId record routing).manager.pool routing :=
        st.manager.pool.sends_enqueue routing
      have hrow := hrows.branch_ne_queued hget hqueued
      refine
        { keyed := fun key lease hlease =>
            h.keyed key lease (hsend.registered hroute key lease hlease)
          issued := fun key lease hlease => ?_
          named := fun lease hlease hnone => ?_
          consumed := fun lease hlease slot hslot =>
            consumed_launched schedule h hroute hitem hrow hlease hslot
          found := fun workerId requestId request rest hinbox hmode => ?_
          answered := fun slot hslot result hmem lease hlease => ?_ }
      · rw [hsend.generation]
        exact h.issued key lease (hsend.registered hroute key lease hlease)
      · exact (hsend.names_iff lease).2 (h.named lease (hsend.live hroute lease hlease)
          fun slot hslot => hnone slot (List.mem_append_left _ hslot))
      -- The request that was just sent finds its lease held, and the older ones what they found.
      · rw [hsend.inbox] at hinbox
        split at hinbox
        · rename_i hworker
          rw [hworker, hempty] at hinbox
          have hrequest : routing.request = request :=
            congrArg Prod.snd (List.cons.inj hinbox).1
          rw [← hrequest] at hmode ⊢
          rw [hworker]
          exact finds_launched h hsend hrouted hroute hunused hmode
        · exact finds_of_finds workerId request (hsend.generation workerId)
            (hsend.runtime workerId) (h.found workerId requestId request rest hinbox hmode)
      · rw [hsend.resultQueue] at hmem
        rcases List.mem_append.1 hslot with hold | hnew
        · rcases h.answered slot hold result hmem lease hlease with ⟨hsame, hname⟩
          exact ⟨hsame, (hsend.names_iff lease).2 hname⟩
        · -- No answer has the number of the new request.
          have hnumber := hrows.accounts.queued _ hmem
          rw [List.mem_singleton.1 hnew] at hnumber
          dsimp only at hnumber
          omega

end Launch

/-- An answer that no row waits for is taken. -/
theorem stray {st : PollState κ β} (h : LeasesSound st.manager st.running)
    {message : Nat × BranchResult κ β} {rest : List (Nat × BranchResult κ β)}
    (hqueue : st.manager.pool.resultQueue = message :: rest) :
    LeasesSound (RowsSound.takeMessage st rest).manager st.running := by
  refine ⟨h.keyed, h.issued, h.named, h.consumed, h.found, fun slot hslot result hmem => ?_⟩
  refine h.answered slot hslot result ?_
  rw [hqueue]
  exact List.mem_cons_of_mem _ hmem

/-- The answer to a row's request is taken: the lease the request was sent on
    goes, and the one that the answer grants names what the worker holds. -/
theorem complete {admitted : List String} {st : PollState κ β} (hrows : RowsSound admitted st)
    (h : LeasesSound st.manager st.running) {slot : Outstanding} (hslot : slot ∈ st.running)
    {result : BranchResult κ β} {rest : List (Nat × BranchResult κ β)}
    (hqueue : st.manager.pool.resultQueue = (slot.requestId, result) :: rest) :
    LeasesSound (BranchManager.complete (RowsSound.takeMessage st rest) slot result).1.manager
      (BranchManager.complete (RowsSound.takeMessage st rest) slot result).1.running := by
  rcases hrows.complete_eq hslot rest result with ⟨record, item, hget, -, hitem, heq⟩
  rw [heq]
  generalize hafter : (BranchManager.forget (RowsSound.takeMessage st rest) slot).manager.finish
    slot.branchId record item result = after
  have hworkers : after.pool.workers = st.manager.pool.workers := by
    rw [← hafter]
    rfl
  have hregistry : after.pool.registry =
      settleLease st.manager.pool.registry item result := by
    rw [← hafter]
    rfl
  have hqueue' : after.pool.resultQueue = rest := by
    rw [← hafter]
    rfl
  have hrecords : ∀ other, other ≠ slot.branchId →
      after.records.get? other = st.manager.records.get? other := by
    intro other hne
    have hset := setRecord_records st.manager slot.branchId
      { record with
        result := some result
        state := if result.status = .success then .completed else .faulted } other
    rw [if_neg hne] at hset
    rw [← hafter]
    exact hset
  have hnames : ∀ lease, after.pool.Names lease ↔ st.manager.pool.Names lease :=
    fun lease => names_congr lease (by rw [hworkers]) (by rw [hworkers])
  have hsame : ∀ lease, after.pool.SameGeneration lease ↔
      st.manager.pool.SameGeneration lease := by
    intro lease
    unfold SameGeneration
    rw [hworkers]
  have hanswered : ∀ lease, result.establishedLease = some lease →
      lease.workerId = slot.workerId ∧ st.manager.pool.Names lease := by
    refine h.answered slot hslot result ?_
    rw [hqueue]
    exact List.mem_cons_self
  have hrest : ∀ slot', slot' ∈ st.running.filter (·.requestId ≠ slot.requestId) →
      slot' ∈ st.running ∧ slot' ≠ slot := fun slot' hslot' => (hrows.mem_filter_iff hslot).1 hslot'
  -- A lease is there from before, on another worker than the row's, or is the one granted.
  have hlive : ∀ lease, after.pool.Live lease →
      (st.manager.pool.Live lease ∧ lease.workerId ≠ slot.workerId) ∨
        (lease.workerId = slot.workerId ∧ st.manager.pool.Names lease) := by
    rintro lease ⟨⟨key, hlease⟩, hgeneration⟩
    rw [hregistry] at hlease
    rcases settleLease_some _ _ _ _ _ hlease with ⟨hold, hkey, -⟩ | ⟨-, hestablished, -⟩
    · have hlive : st.manager.pool.Live lease := ⟨⟨key, hold⟩, (hsame lease).1 hgeneration⟩
      refine .inl ⟨hlive, fun hworker => ?_⟩
      rcases h.consumed lease hlive slot hslot hworker.symm with ⟨record', item', hget', -, hitem',
        hkey'⟩
      rw [hget, Option.some.injEq] at hget'
      rw [← hget', hitem, Option.some.injEq] at hitem'
      rw [hitem', hkey', h.keyed key lease hold] at hkey
      exact hkey rfl
    · exact .inr (hanswered lease hestablished)
  refine ⟨?_, ?_, ?_, ?_, ?_, ?_⟩
  · intro key lease hlease
    rw [hregistry] at hlease
    rcases settleLease_some _ _ _ _ _ hlease with ⟨hold, -⟩ | ⟨-, -, hkey⟩
    · exact h.keyed key lease hold
    · exact hkey
  · intro key lease hlease
    rw [hregistry] at hlease
    rw [hworkers]
    rcases settleLease_some _ _ _ _ _ hlease with ⟨hold, -⟩ | ⟨-, hestablished, -⟩
    · exact h.issued key lease hold
    · exact le_of_eq (hanswered lease hestablished).2.1.symm
  · intro lease hlease hfree
    rcases hlive lease hlease with ⟨hold, hworker⟩ | ⟨-, hname⟩
    · refine (hnames lease).2 (h.named lease hold fun slot' hslot' heq' => ?_)
      by_cases hslots : slot' = slot
      · exact hworker (by rw [← heq', hslots])
      · exact hfree slot' ((hrows.mem_filter_iff hslot).2 ⟨hslot', hslots⟩) heq'
    · exact (hnames lease).2 hname
  · intro lease hlease slot' hslot' hworker'
    rcases hrest slot' hslot' with ⟨hrow, hne⟩
    rcases hlive lease hlease with ⟨hold, -⟩ | ⟨hworker, -⟩
    · rcases h.consumed lease hold slot' hrow hworker' with ⟨record', item', hget', hsent⟩
      exact ⟨record', item', (hrecords _ (hrows.branch_ne hslot hrow hne)).trans hget', hsent⟩
    · exact absurd (hworker'.trans hworker) (hrows.worker_ne hslot hrow hne)
  · intro workerId requestId request more hinbox hmode
    rw [hworkers] at hinbox
    exact finds_of_finds workerId request (by rw [hworkers]) (by rw [hworkers])
      (h.found workerId requestId request more hinbox hmode)
  · intro slot' hslot' other hmem lease hlease
    rw [hqueue'] at hmem
    have hold : (slot'.requestId, other) ∈ st.manager.pool.resultQueue := by
      rw [hqueue]
      exact List.mem_cons_of_mem _ hmem
    rcases h.answered slot' (hrest slot' hslot').1 other hold lease hlease with ⟨hworker, hname⟩
    exact ⟨hworker, (hnames lease).2 hname⟩

/-- A row whose deadline passed: its worker is replaced. -/
theorem expire {admitted : List String} {st : PollState κ β} (hrows : RowsSound admitted st)
    (h : LeasesSound st.manager st.running) {slot : Outstanding} (hslot : slot ∈ st.running) :
    LeasesSound (BranchManager.expire st slot).1.manager
      (BranchManager.expire st slot).1.running := by
  rcases hrows.expire_withdraws hslot with ⟨hwithdraws, hreplaced, hother⟩
  refine h.withdraw hwithdraws ?_ ?_
  · intro slot' hslot'
    rcases (hrows.mem_running_expire hslot).1 hslot' with ⟨hrow, hne⟩
    exact ⟨hrow, hother slot' hrow hne⟩
  · intro slot' hslot'
    by_cases hsame : slot' = slot
    · rw [hsame]
      exact .inr hreplaced
    · exact .inl ((hrows.mem_running_expire hslot).2 ⟨hslot', hsame⟩)

end LeasesSound

namespace ManagerRun

/-- A manager over workers that have just been started. -/
def start (workerCount : Nat) (workerCount_pos : 0 < workerCount) (maxBranches : Nat)
    (maxBranches_pos : 0 < maxBranches) : ManagerRun κ β :=
  .idle { pool := .start workerCount workerCount_pos, maxBranches, maxBranches_pos }

/-- What is asked of the leases of a manager. Between two calls there are no
    rows, so that every live lease names what its worker retains. -/
structure LeasesHold (run : ManagerRun κ β) : Prop where
  exclusive : ∀ lease lease', run.pool.Live lease → run.pool.Live lease' →
    lease.workerId = lease'.workerId → lease = lease'
  named : ∀ lease, run.pool.Live lease → (∀ slot ∈ run.rows, slot.workerId ≠ lease.workerId) →
    run.pool.Names lease
  consumed : ∀ lease, run.pool.Live lease → ∀ slot ∈ run.rows,
    slot.workerId = lease.workerId → run.manager.SentOn slot lease.key
  continuation : ∀ workerId, ∀ entry ∈ (run.pool.workers workerId).inQueue,
    entry.2.executionMode = .holderStep → run.pool.Finds workerId entry.2

/-- The invariant of a run. -/
def LeasesInv (run : ManagerRun κ β) : Prop :=
  run.Sound ∧ LeasesSound run.manager run.rows

/-- The invariant says what is promised of the leases. -/
theorem LeasesInv.leasesHold {run : ManagerRun κ β} (h : run.LeasesInv) : run.LeasesHold := by
  refine ⟨h.2.exclusive, h.2.named, h.2.consumed, fun workerId entry hmem hmode => ?_⟩
  rcases hqueue : (run.pool.workers workerId).inQueue with _ | ⟨⟨requestId, request⟩, rest⟩
  · rw [hqueue] at hmem
    cases hmem
  · -- A worker has one request at most, so the entry is the first one.
    have hrest : rest = [] := by
      cases run with
      | idle manager =>
          have hidle : Accounts manager.pool [] := h.1
          have hnil := hidle.inbox_nil workerId fun row hrow => by cases hrow
          change (manager.pool.workers workerId).inQueue = _ at hqueue
          rw [hnil] at hqueue
          cases hqueue
      | polling schedule admitted st =>
          rcases RowsSound.slot_of_inbox h.1 hqueue with ⟨_, _, _, _, hrest⟩
          exact hrest
    rw [hqueue, hrest, List.mem_singleton] at hmem
    rw [hmem] at hmode ⊢
    exact h.2.found workerId requestId request rest hqueue hmode

/-- Every step keeps the leases sound. -/
theorem leasesInv_step (digests : Digests κ) (run : ManagerRun κ β) (call : ManagerCall κ β)
    (h : run.LeasesInv) : (run.step digests call).1.LeasesInv := by
  refine ⟨sound_step digests run call h.1, step_induction digests ?_ ?_ ?_ ?_ ?_ ?_ ?_ run call
    h.1 h.2⟩
  · intro manager manager' hkept hpool
    exact hkept.withdraw hpool (fun slot hslot => absurd hslot List.not_mem_nil)
      fun slot hslot => absurd hslot List.not_mem_nil
  · intro admitted st workerId execution hrows hkept
    exact hkept.run hrows digests workerId execution
  · intro schedule admitted st st' hrows hkept hmove
    exact hkept.launch hrows hmove
  · intro admitted st slot hrows hkept hslot
    exact hkept.expire hrows hslot
  · intro st message rest hkept hqueue
    exact hkept.stray hqueue
  · intro admitted st slot result rest hrows hkept hslot hqueue
    exact hkept.complete hrows hslot hqueue
  · intro admitted st hrows hkept
    refine hkept.withdraw (withdraws_quarantine st.manager admitted)
      (fun slot hslot => absurd hslot List.not_mem_nil) fun slot hslot => .inr ?_
    exact quarantine_replaces (hrows.running slot hslot).1 (hrows.running slot hslot).2.runsOn

/-- A new manager has no leases. -/
theorem leasesInv_start (workerCount : Nat) (workerCount_pos : 0 < workerCount)
    (maxBranches : Nat) (maxBranches_pos : 0 < maxBranches) :
    LeasesInv (start workerCount workerCount_pos maxBranches maxBranches_pos :
      ManagerRun κ β) := by
  refine ⟨⟨?_, List.nodup_nil, ?_, fun _ => List.nodup_nil, ?_, List.nodup_nil, ?_, ?_⟩,
    ⟨?_, ?_, ?_, ?_, ?_, ?_⟩⟩
  · exact fun row hrow => absurd hrow List.not_mem_nil
  · exact fun workerId entry hmem => absurd hmem List.not_mem_nil
  · exact fun message hmem => absurd hmem List.not_mem_nil
  · exact fun workerId entry hmem => absurd hmem List.not_mem_nil
  · exact fun message hmem => absurd hmem List.not_mem_nil
  · exact fun key lease hget => by cases hget
  · exact fun key lease hget => by cases hget
  · exact fun lease ⟨⟨key, hget⟩, _⟩ => by cases hget
  · exact fun lease ⟨⟨key, hget⟩, _⟩ => by cases hget
  · exact fun workerId requestId request rest hqueue => by cases hqueue
  · exact fun slot hslot => absurd hslot List.not_mem_nil

/-- The leases of a manager are sound in every state of every run. -/
theorem manager_leases_sound (digests : Digests κ) (workerCount : Nat)
    (workerCount_pos : 0 < workerCount) (maxBranches : Nat) (maxBranches_pos : 0 < maxBranches)
    (calls : List (ManagerCall κ β)) :
    LeasesHold (Run.final (step digests)
      (start workerCount workerCount_pos maxBranches maxBranches_pos) calls) :=
  (Run.invariant (step digests) (I := LeasesInv)
    (fun run call => leasesInv_step digests run call) _ calls
    (leasesInv_start workerCount workerCount_pos maxBranches maxBranches_pos)).leasesHold

/-- Twenty seconds to answer, and every request goes out. -/
def twentySeconds : PollSchedule := ⟨20, fun _ => 0, fun _ => none⟩

/-- A card that asks for a choice, and the choice as its continuation, on one
    worker. -/
theorem manager_leases_sound_choice :
    LeasesHold (Run.final (step lastActionDigests)
      (start 1 Nat.one_pos 1 Nat.one_pos)
      [.submit [(cardItem "SURVIVOR", none)], .poll twentySeconds none,
        .run 0 (choiceExecution "SURVIVOR"), .receive,
        .submit [(choiceItem, some "branch-1")], .poll twentySeconds none]) :=
  manager_leases_sound lastActionDigests 1 Nat.one_pos 1 Nat.one_pos _

end ManagerRun

end Combat

end STS2RL
