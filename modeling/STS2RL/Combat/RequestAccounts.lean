import STS2RL.Combat.ManagerRun
import STS2RL.Combat.PollExactlyOnce

/-!
# Accounts of Outstanding Requests

Which request is where. A coordinator keeps a row for every request that it
waits for: the request's id and the worker it was sent to. A request in an inbox
has a row, and has not been answered; an answer under a row's id comes from the
row's worker; and no id is answered twice.

The rows of a poll say more: no worker and no branch has two, and the branch of
each is on its worker. So a poll that raises replaces every worker with a row,
and nothing is left in an inbox that nobody waits for.

## Main definitions

* `Accounts`: Inboxes and answers fit the rows.
* `RowsSound`: The rows of a poll fit its records, too.
* `ManagerRun.Sound`: Both, for a manager between calls and in a poll.

## Theorems

* `Accounts.withdraw`, `Accounts.run`, `Accounts.enqueue`, `Accounts.take`,
  `Accounts.close`: What each step keeps.
* `RowsSound.launch`, `RowsSound.complete`, `RowsSound.expire`: The same of a poll.
* `sound_step`: Every step keeps the accounts.
-/

namespace STS2RL

namespace Combat

variable {κ β : Type}

namespace BranchWorkerPool

theorem runWorker_of_nil {pool : BranchWorkerPool κ β} (digests : Digests κ) {workerId : Nat}
    (execution : Execution κ β) (h : (pool.workers workerId).inQueue = []) :
    pool.runWorker digests workerId execution = pool := by
  unfold runWorker
  dsimp only
  rw [h]

theorem runWorker_of_cons {pool : BranchWorkerPool κ β} (digests : Digests κ) {workerId : Nat}
    (execution : Execution κ β) {requestId : Nat} {request : WorkerExecutionRequest κ β}
    {rest : List (Nat × WorkerExecutionRequest κ β)}
    (h : (pool.workers workerId).inQueue = (requestId, request) :: rest) :
    pool.runWorker digests workerId execution =
      let executed := (pool.workers workerId).runtime.execute digests workerId
        (pool.workers workerId).workerGeneration request execution
      { pool.setWorker workerId
          { pool.workers workerId with runtime := executed.1, inQueue := rest } with
        resultQueue := pool.resultQueue ++ [(requestId, executed.2)] } := by
  unfold runWorker
  dsimp only
  rw [h]

/-- Inboxes and answers fit the rows: a request's id and its worker. -/
structure Accounts (pool : BranchWorkerPool κ β) (rows : List (Nat × Nat)) : Prop where
  numbered : ∀ row ∈ rows, row.1 ≤ pool.nextRequestId
  distinct : (rows.map Prod.fst).Nodup
  inbox : ∀ workerId, ∀ entry ∈ (pool.workers workerId).inQueue, (entry.1, workerId) ∈ rows
  inboxOnce : ∀ workerId, ((pool.workers workerId).inQueue.map Prod.fst).Nodup
  queued : ∀ message ∈ pool.resultQueue, message.1 ≤ pool.nextRequestId
  answeredOnce : (pool.resultQueue.map Prod.fst).Nodup
  unanswered : ∀ workerId, ∀ entry ∈ (pool.workers workerId).inQueue,
    entry.1 ∉ pool.resultQueue.map Prod.fst
  named : ∀ message ∈ pool.resultQueue, ∀ workerId, (message.1, workerId) ∈ rows →
    message.2.workerId = some workerId

namespace Accounts

variable {pool pool' : BranchWorkerPool κ β} {rows : List (Nat × Nat)}

theorem row_eq (h : Accounts pool rows) {row row' : Nat × Nat} (hrow : row ∈ rows)
    (hrow' : row' ∈ rows) (hid : row.1 = row'.1) : row = row' :=
  List.inj_on_of_nodup_map h.distinct hrow hrow' hid

/-- Withdrawing the requests of a worker takes its rows away. -/
theorem withdraw (h : Accounts pool rows) (hpool : Withdraws pool pool') : Accounts pool' rows := by
  have hinbox : ∀ workerId, ∀ entry ∈ (pool'.workers workerId).inQueue,
      entry ∈ (pool.workers workerId).inQueue := by
    intro workerId entry hmem
    rcases hpool.workers workerId with hsame | ⟨-, hempty⟩
    · rwa [hsame] at hmem
    · rw [hempty] at hmem
      cases hmem
  refine ⟨?_, h.distinct, fun workerId entry hmem => h.inbox workerId entry (hinbox _ _ hmem), ?_,
    ?_, ?_, ?_, ?_⟩
  · rw [hpool.nextRequestId]
    exact h.numbered
  · intro workerId
    rcases hpool.workers workerId with hsame | ⟨-, hempty⟩
    · rw [hsame]
      exact h.inboxOnce workerId
    · rw [hempty]
      exact List.nodup_nil
  · rw [hpool.resultQueue, hpool.nextRequestId]
    exact h.queued
  · rw [hpool.resultQueue]
    exact h.answeredOnce
  · rw [hpool.resultQueue]
    exact fun workerId entry hmem => h.unanswered workerId entry (hinbox _ _ hmem)
  · rw [hpool.resultQueue]
    exact h.named

/-- A worker answers the first request of its inbox. -/
theorem run (h : Accounts pool rows) (digests : Digests κ) (workerId : Nat)
    (execution : Execution κ β) : Accounts (pool.runWorker digests workerId execution) rows := by
  cases hqueue : (pool.workers workerId).inQueue with
  | nil =>
      rw [runWorker_of_nil digests execution hqueue]
      exact h
  | cons entry rest =>
      rcases entry with ⟨requestId, request⟩
      rw [runWorker_of_cons digests execution hqueue]
      dsimp only
      -- The answer names the worker it is from.
      have hnamed := ((pool.workers workerId).runtime.execute_spec digests workerId
        (pool.workers workerId).workerGeneration request execution).1
      generalize (pool.workers workerId).runtime.execute digests workerId
        (pool.workers workerId).workerGeneration request execution = executed at hnamed ⊢
      have hhead : (requestId, request) ∈ (pool.workers workerId).inQueue := by
        rw [hqueue]
        exact List.mem_cons_self
      -- The request that is answered is the first of the inbox, and a row of the accounts.
      have hrow : (requestId, workerId) ∈ rows := h.inbox workerId _ hhead
      have honce := h.inboxOnce workerId
      rw [hqueue, List.map_cons, List.nodup_cons] at honce
      have hworkers : ∀ other, (pool.setWorker workerId
            { pool.workers workerId with runtime := executed.1, inQueue := rest }).workers other =
          if other = workerId then
            { pool.workers workerId with runtime := executed.1, inQueue := rest }
          else pool.workers other := fun other =>
            Function.update_apply pool.workers workerId _ other
      -- What the inboxes still hold is not that request: in its own inbox it occurs once, and no
      -- other inbox has a request of another worker's row.
      have hinbox : ∀ other, ∀ entry ∈ ((pool.setWorker workerId
            { pool.workers workerId with runtime := executed.1, inQueue := rest }).workers
              other).inQueue,
          entry ∈ (pool.workers other).inQueue ∧ entry.1 ≠ requestId := by
        intro other entry hmem
        rw [hworkers] at hmem
        by_cases hother : other = workerId
        · rw [if_pos hother] at hmem
          rw [hother, hqueue]
          refine ⟨List.mem_cons_of_mem _ hmem, fun heq => honce.1 ?_⟩
          rw [← heq]
          exact List.mem_map.2 ⟨entry, hmem, rfl⟩
        · rw [if_neg hother] at hmem
          refine ⟨hmem, fun heq => hother ?_⟩
          have hsame := h.row_eq (h.inbox other entry hmem) hrow heq
          exact congrArg Prod.snd hsame
      refine ⟨h.numbered, h.distinct, fun other entry hmem => h.inbox other entry
        (hinbox other entry hmem).1, ?_, ?_, ?_, ?_, ?_⟩
      -- An inbox without its first request has no request twice.
      · intro other
        change (((pool.setWorker workerId _).workers other).inQueue.map Prod.fst).Nodup
        rw [hworkers]
        split
        · exact honce.2
        · exact h.inboxOnce other
      · intro message hmem
        rcases List.mem_append.1 hmem with hold | hnew
        · exact h.queued message hold
        · rw [List.mem_singleton.1 hnew]
          exact h.numbered _ hrow
      -- No answer to the request was on the queue, so each request is answered once.
      · change ((pool.resultQueue ++ [(requestId, executed.2)]).map Prod.fst).Nodup
        rw [List.map_append, List.map_singleton, ← List.concat_eq_append, List.nodup_concat]
        exact ⟨h.unanswered workerId _ hhead, h.answeredOnce⟩
      -- What is still in an inbox was not answered before, nor by the new message.
      · intro other entry hmem
        rcases hinbox other entry hmem with ⟨hold, hne⟩
        change entry.1 ∉ (pool.resultQueue ++ [(requestId, executed.2)]).map Prod.fst
        rw [List.map_append, List.mem_append, List.map_singleton, List.mem_singleton]
        rintro (hanswered | heq)
        · exact h.unanswered other entry hold hanswered
        · exact hne heq
      -- The new message is from the worker of its row.
      · intro message hmem other hother
        rcases List.mem_append.1 hmem with hold | hnew
        · exact h.named message hold other hother
        · rw [List.mem_singleton.1 hnew] at hother ⊢
          have hsame : other = workerId := congrArg Prod.snd (h.row_eq hother hrow rfl)
          rw [hsame]
          exact hnamed

/-- A request goes into an inbox, and gets a row. -/
theorem enqueue (h : Accounts pool rows) (workerId : Nat) (request : WorkerExecutionRequest κ β)
    (registry : LeaseRegistry) :
    Accounts { pool.enqueue workerId request with registry }
      (rows ++ [(pool.nextRequestId + 1, workerId)]) := by
  -- The number of the new request is that of no row.
  have hfresh : ∀ row ∈ rows, row.1 ≠ pool.nextRequestId + 1 := by
    intro row hrow
    have hnumber := h.numbered row hrow
    omega
  have hworkers : ∀ other, (pool.enqueue workerId request).workers other =
      if other = workerId then
        { pool.workers workerId with
          inQueue := (pool.workers workerId).inQueue ++ [(pool.nextRequestId + 1, request)] }
      else pool.workers other := fun other => Function.update_apply pool.workers workerId _ other
  -- What an inbox holds was in it, or is the new request.
  have hinbox : ∀ other, ∀ entry ∈ ((pool.enqueue workerId request).workers other).inQueue,
      entry ∈ (pool.workers other).inQueue ∨
        (other = workerId ∧ entry.1 = pool.nextRequestId + 1) := by
    intro other entry hmem
    rw [hworkers] at hmem
    by_cases hother : other = workerId
    · rw [if_pos hother] at hmem
      rcases List.mem_append.1 hmem with hold | hnew
      · rw [hother]
        exact .inl hold
      · rw [List.mem_singleton.1 hnew]
        exact .inr ⟨hother, rfl⟩
    · rw [if_neg hother] at hmem
      exact .inl hmem
  refine ⟨?_, ?_, ?_, ?_, ?_, h.answeredOnce, ?_, ?_⟩
  -- Numbers are given out in order.
  · intro row hrow
    change row.1 ≤ pool.nextRequestId + 1
    rcases List.mem_append.1 hrow with hold | hnew
    · exact Nat.le_succ_of_le (h.numbered row hold)
    · rw [List.mem_singleton.1 hnew]
  -- The new row is another than all before.
  · rw [List.map_append, List.map_singleton, ← List.concat_eq_append, List.nodup_concat]
    refine ⟨fun hmem => ?_, h.distinct⟩
    rcases List.mem_map.1 hmem with ⟨row, hrow, hid⟩
    exact hfresh row hrow hid
  · intro other entry hmem
    rcases hinbox other entry hmem with hold | ⟨hworker, hid⟩
    · exact List.mem_append_left _ (h.inbox other entry hold)
    · rw [hworker, hid]
      exact List.mem_append_right _ List.mem_cons_self
  -- The new request is behind the others of its worker, and not among them.
  · intro other
    change (((pool.enqueue workerId request).workers other).inQueue.map Prod.fst).Nodup
    rw [hworkers]
    split
    · change (((pool.workers workerId).inQueue ++ [(pool.nextRequestId + 1, request)]).map
        Prod.fst).Nodup
      rw [List.map_append, List.map_singleton, ← List.concat_eq_append, List.nodup_concat]
      refine ⟨fun hmem => ?_, h.inboxOnce workerId⟩
      rcases List.mem_map.1 hmem with ⟨entry, hentry, hid⟩
      exact hfresh _ (h.inbox workerId entry hentry) hid
    · exact h.inboxOnce other
  · exact fun message hmem => Nat.le_succ_of_le (h.queued message hmem)
  -- No message has the new number, so the request is not answered.
  · intro other entry hmem hanswered
    rcases hinbox other entry hmem with hold | ⟨-, hid⟩
    · exact h.unanswered other entry hold hanswered
    · rcases List.mem_map.1 hanswered with ⟨message, hmessage, hsame⟩
      have hnumber := h.queued message hmessage
      omega
  · intro message hmem other hother
    rcases List.mem_append.1 hother with hold | hnew
    · exact h.named message hmem other hold
    · have hid := congrArg Prod.fst (List.mem_singleton.1 hnew)
      have hnumber := h.queued message hmem
      dsimp only at hid
      omega

/-- The next answer is taken, and its row is closed if it has one. -/
theorem take (h : Accounts pool rows) {message : Nat × BranchResult κ β}
    {rest : List (Nat × BranchResult κ β)} (hqueue : pool.resultQueue = message :: rest)
    {rows' : List (Nat × Nat)} (hsub : rows'.Sublist rows)
    (hrest : ∀ row ∈ rows, row.1 ≠ message.1 → row ∈ rows') :
    Accounts { pool with resultQueue := rest } rows' := by
  have hmessage : message ∈ pool.resultQueue := by
    rw [hqueue]
    exact List.mem_cons_self
  have hkept : ∀ other ∈ rest, other ∈ pool.resultQueue := by
    intro other hmem
    rw [hqueue]
    exact List.mem_cons_of_mem _ hmem
  have honce := h.answeredOnce
  rw [hqueue, List.map_cons, List.nodup_cons] at honce
  refine ⟨fun row hrow => h.numbered row (hsub.subset hrow), (hsub.map _).nodup h.distinct, ?_,
    h.inboxOnce, fun other hmem => h.queued other (hkept other hmem), honce.2, ?_, ?_⟩
  · intro workerId entry hmem
    refine hrest _ (h.inbox workerId entry hmem) fun heq => ?_
    exact h.unanswered workerId entry hmem (heq ▸ List.mem_map_of_mem hmessage)
  · intro workerId entry hmem hanswered
    refine h.unanswered workerId entry hmem ?_
    rcases List.mem_map.1 hanswered with ⟨other, hother, hid⟩
    exact List.mem_map.2 ⟨other, hkept other hother, hid⟩
  · exact fun other hmem workerId hrow =>
      h.named other (hkept other hmem) workerId (hsub.subset hrow)

/-- Rows are closed whose workers have nothing in their inboxes. -/
theorem close (h : Accounts pool rows) {rows' : List (Nat × Nat)} (hsub : rows'.Sublist rows)
    (hrest : ∀ row ∈ rows, (pool.workers row.2).inQueue ≠ [] → row ∈ rows') :
    Accounts pool rows' := by
  refine ⟨fun row hrow => h.numbered row (hsub.subset hrow), (hsub.map _).nodup h.distinct, ?_,
    h.inboxOnce, h.queued, h.answeredOnce, h.unanswered,
    fun message hmem workerId hrow => h.named message hmem workerId (hsub.subset hrow)⟩
  intro workerId entry hmem
  exact hrest _ (h.inbox workerId entry hmem) (List.ne_nil_of_mem hmem)

theorem inbox_nil (h : Accounts pool rows) (workerId : Nat)
    (hfree : ∀ row ∈ rows, row.2 ≠ workerId) : (pool.workers workerId).inQueue = [] := by
  rw [List.eq_nil_iff_forall_not_mem]
  intro entry hmem
  exact hfree _ (h.inbox workerId entry hmem) rfl

end Accounts

/-- The registry is no part of the accounts. -/
theorem Accounts.with_registry {pool : BranchWorkerPool κ β} {rows : List (Nat × Nat)}
    (h : Accounts pool rows) (registry : LeaseRegistry) : Accounts { pool with registry } rows :=
  ⟨h.numbered, h.distinct, h.inbox, h.inboxOnce, h.queued, h.answeredOnce, h.unanswered, h.named⟩

end BranchWorkerPool

open BranchWorkerPool BranchManager

/-! ### The rows of a poll -/

/-- A row of a poll, as the accounts have it. -/
def Outstanding.row (slot : Outstanding) : Nat × Nat := (slot.requestId, slot.workerId)

/-- The branch is on the worker, with the item that it runs. -/
def BranchManager.RunsItem (manager : BranchManager κ β) (branchId : String) (workerId : Nat) :
    Prop :=
  ∃ record item, manager.records.get? branchId = some record ∧ record.state = .running ∧
    record.workerId = some workerId ∧ record.workItem = some item

theorem BranchManager.RunsItem.runsOn {manager : BranchManager κ β} {branchId : String}
    {workerId : Nat} (h : manager.RunsItem branchId workerId) :
    manager.RunsOn branchId workerId := by
  rcases h with ⟨record, -, hget, hstate, hworker, -⟩
  exact ⟨record, hget, hstate, hworker⟩

/-- The rows of a poll fit the pool and the records. -/
structure RowsSound (admitted : List String) (st : PollState κ β) : Prop where
  accounts : Accounts st.manager.pool (st.running.map Outstanding.row)
  workers : (st.running.map (·.workerId)).Nodup
  branches : (st.running.map (·.branchId)).Nodup
  running : ∀ slot ∈ st.running, slot.branchId ∈ admitted ∧
    st.manager.RunsItem slot.branchId slot.workerId
  waiting : ∀ branchId ∈ st.waiting, branchId ∈ admitted

namespace RowsSound

variable {admitted : List String} {st : PollState κ β}

/-- One row for one request id. -/
theorem slot_eq (h : RowsSound admitted st) {slot slot' : Outstanding} (hslot : slot ∈ st.running)
    (hslot' : slot' ∈ st.running) (hid : slot.requestId = slot'.requestId) : slot = slot' := by
  have hdistinct : (st.running.map (·.requestId)).Nodup := by
    have hrows := h.accounts.distinct
    rwa [List.map_map] at hrows
  exact List.inj_on_of_nodup_map hdistinct hslot hslot' hid

/-- The rows that are left when one is closed. -/
theorem mem_filter_iff (h : RowsSound admitted st) {slot : Outstanding}
    (hslot : slot ∈ st.running) {slot' : Outstanding} :
    slot' ∈ st.running.filter (·.requestId ≠ slot.requestId) ↔
      slot' ∈ st.running ∧ slot' ≠ slot := by
  rw [List.mem_filter, decide_eq_true_eq]
  refine and_congr_right fun hslot' => ?_
  exact ⟨fun hne heq => hne (congrArg _ heq), fun hne hid => hne (h.slot_eq hslot' hslot hid)⟩

theorem branch_ne (h : RowsSound admitted st) {slot slot' : Outstanding}
    (hslot : slot ∈ st.running) (hslot' : slot' ∈ st.running) (hne : slot' ≠ slot) :
    slot'.branchId ≠ slot.branchId :=
  fun heq => hne (List.inj_on_of_nodup_map h.branches hslot' hslot heq)

theorem worker_ne (h : RowsSound admitted st) {slot slot' : Outstanding}
    (hslot : slot ∈ st.running) (hslot' : slot' ∈ st.running) (hne : slot' ≠ slot) :
    slot'.workerId ≠ slot.workerId :=
  fun heq => hne (List.inj_on_of_nodup_map h.workers hslot' hslot heq)

/-- A row is closed and its branch finished, by a manager that may have replaced
    a worker meanwhile. -/
theorem finish (h : RowsSound admitted st) {slot : Outstanding} (hslot : slot ∈ st.running)
    (record : BranchRecord κ β) (item : WorkItem κ β) (result : BranchResult κ β)
    {manager : BranchManager κ β} (hrecords : manager.records = st.manager.records)
    (results : Dict String (BranchResult κ β))
    (haccounts : Accounts manager.pool
      ((st.running.filter (·.requestId ≠ slot.requestId)).map Outstanding.row)) :
    RowsSound admitted { BranchManager.forget st slot with
      manager := manager.finish slot.branchId record item result, results } := by
  have hsub : (st.running.filter (·.requestId ≠ slot.requestId)).Sublist st.running :=
    List.filter_sublist
  refine ⟨haccounts.with_registry _, (hsub.map _).nodup h.workers, (hsub.map _).nodup h.branches,
    ?_, h.waiting⟩
  intro slot' hslot'
  rcases (h.mem_filter_iff hslot).1 hslot' with ⟨hrow, hne⟩
  rcases h.running slot' hrow with ⟨hadmitted, record', item', hget, hrest⟩
  refine ⟨hadmitted, record', item', ?_, hrest⟩
  change (manager.setRecord slot.branchId _).records.get? slot'.branchId = _
  rw [setRecord_records, if_neg (h.branch_ne hslot hrow hne), hrecords, hget]

/-- The rows that are left are rows still. -/
theorem rows_sublist (st : PollState κ β) (slot : Outstanding) :
    ((st.running.filter (·.requestId ≠ slot.requestId)).map Outstanding.row).Sublist
      (st.running.map Outstanding.row) :=
  List.filter_sublist.map _

/-- A branch that is sent to a free worker gets a row. -/
theorem launch (h : RowsSound admitted st) {digests : Digests κ} {schedule : PollSchedule}
    {st' : PollState κ β} (hmove : DispatchMove digests schedule st st') :
    RowsSound admitted st' := by
  cases hmove with
  | skip waiting hsub =>
      exact ⟨h.accounts, h.workers, h.branches, h.running,
        fun branchId hmem => h.waiting branchId (hsub.subset hmem)⟩
  | launch branchId record item hget hqueued hitem hwaits hfree =>
      -- The row of the new request is for a branch that waited, and so for none that runs.
      generalize routeWorkItem digests item st.manager.pool.registry (freeWorkers st)
        st.manager.pool.workerGenerations st.manager.nextBootstrapIndex = routing at *
      have hunused : routing.workerId ∉ st.running.map (·.workerId) := by
        unfold freeWorkers at hfree
        rw [List.mem_filter, decide_eq_true_eq] at hfree
        exact hfree.2
      have hbranch : ∀ slot ∈ st.running, slot.branchId ≠ branchId := by
        intro slot hslot heq
        rcases h.running slot hslot with ⟨-, record', -, hget', hstate, -⟩
        rw [heq, hget, Option.some.injEq] at hget'
        rw [← hget', hqueued] at hstate
        cases hstate
      refine ⟨?_, nodup_map_append_one.mpr ⟨hunused, h.workers⟩,
        nodup_map_append_one.mpr ⟨fun hmem => ?_, h.branches⟩, fun slot hslot => ?_,
        fun other hmem => h.waiting other (List.mem_of_mem_erase hmem)⟩
      · have haccounts := h.accounts.enqueue routing.workerId routing.request routing.registry
        simpa [BranchManager.launch, Outstanding.row] using haccounts
      · rcases List.mem_map.1 hmem with ⟨slot, hslot, heq⟩
        exact hbranch slot hslot heq
      -- The rows that were there keep their records, and the new one has just got its own.
      · rcases List.mem_append.1 hslot with hold | hnew
        · rcases h.running slot hold with ⟨hadmitted, record', item', hget', hrest⟩
          refine ⟨hadmitted, record', item', ?_, hrest⟩
          rw [BranchManager.launch_other _ _ _ _ _ (hbranch slot hold), hget']
        · rw [List.mem_singleton.1 hnew]
          exact ⟨h.waiting branchId hwaits, _, item,
            BranchManager.launch_self schedule st branchId record routing, rfl, rfl, hitem⟩

theorem moves (h : RowsSound admitted st) {digests : Digests κ} {schedule : PollSchedule}
    {st' : PollState κ β} (hmoves : DispatchMoves digests schedule st st') :
    RowsSound admitted st' := by
  induction hmoves with
  | refl => exact h
  | tail _ hmove ih => exact ih.launch hmove

/-- The state of a poll whose next message has been taken. -/
def takeMessage (st : PollState κ β) (rest : List (Nat × BranchResult κ β)) : PollState κ β :=
  { st with manager := { st.manager with pool := { st.manager.pool with resultQueue := rest } } }

/-- A message that no row waits for changes nothing. -/
theorem stray (h : RowsSound admitted st) {message : Nat × BranchResult κ β}
    {rest : List (Nat × BranchResult κ β)}
    (hqueue : st.manager.pool.resultQueue = message :: rest) :
    RowsSound admitted (takeMessage st rest) :=
  ⟨h.accounts.take hqueue (List.Sublist.refl _) fun _ hrow _ => hrow, h.workers, h.branches,
    h.running, h.waiting⟩

/-- The answer to a row's request finishes its branch. -/
theorem complete_eq (h : RowsSound admitted st) {slot : Outstanding} (hslot : slot ∈ st.running)
    (rest : List (Nat × BranchResult κ β)) (result : BranchResult κ β) :
    ∃ record item, st.manager.records.get? slot.branchId = some record ∧
      record.state = .running ∧ record.workItem = some item ∧
      BranchManager.complete (takeMessage st rest) slot result =
        ({ BranchManager.forget (takeMessage st rest) slot with
           manager := (BranchManager.forget (takeMessage st rest) slot).manager.finish slot.branchId
             record item result
           results := st.results.set slot.branchId result }, .ok ()) := by
  rcases (h.running slot hslot).2 with ⟨record, item, hget, hstate, -, hitem⟩
  have hget' : (BranchManager.forget (takeMessage st rest) slot).manager.records.get?
      slot.branchId = some record := hget
  refine ⟨record, item, hget, hstate, hitem, ?_⟩
  unfold BranchManager.complete
  dsimp only
  rw [hget']
  dsimp only
  rw [if_neg (Bool.eq_false_iff.1 (running_not_discarded record hstate)), hitem]
  rfl

theorem complete (h : RowsSound admitted st) {slot : Outstanding} (hslot : slot ∈ st.running)
    {result : BranchResult κ β} {rest : List (Nat × BranchResult κ β)}
    (hqueue : st.manager.pool.resultQueue = (slot.requestId, result) :: rest) :
    RowsSound admitted (BranchManager.complete (takeMessage st rest) slot result).1 := by
  rcases h.complete_eq hslot rest result with ⟨record, item, -, -, -, heq⟩
  rw [heq]
  refine (h.stray hqueue).finish hslot record item result ?_ _ ?_
  · rfl
  · refine h.accounts.take hqueue (rows_sublist st slot) fun row hrow hid => ?_
    rcases List.mem_map.1 hrow with ⟨slot', hslot', rfl⟩
    exact List.mem_map_of_mem (List.mem_filter.2 ⟨hslot', decide_eq_true hid⟩)

/-- The deadline of a row replaces its worker and finishes its branch. -/
theorem expire_eq (h : RowsSound admitted st) {slot : Outstanding} (hslot : slot ∈ st.running) :
    ∃ record item fault, st.manager.records.get? slot.branchId = some record ∧
      record.state = .running ∧ record.workItem = some item ∧ fault.status = .fault ∧
      fault.workerId = some slot.workerId ∧
      BranchManager.expire st slot =
        ({ BranchManager.forget st slot with
           manager := BranchManager.finish
             { (BranchManager.forget st slot).manager with
               pool := st.manager.pool.respawnWorker slot.workerId } slot.branchId record item fault
           results := st.results.set slot.branchId fault }, .ok ()) := by
  rcases (h.running slot hslot).2 with ⟨record, item, hget, hstate, -, hitem⟩
  have hget' : (BranchManager.forget st slot).manager.records.get? slot.branchId = some record :=
    hget
  refine ⟨record, item, branchTimeout slot.branchId (record.executionMode.getD .bootstrapStep)
    slot.workerId (st.manager.pool.workerGenerations slot.workerId), hget, hstate, hitem, rfl, rfl,
    ?_⟩
  unfold BranchManager.expire
  dsimp only
  rw [hget']
  dsimp only
  rw [if_neg (Bool.eq_false_iff.1 (running_not_discarded record hstate)), hitem]
  rfl

theorem expire (h : RowsSound admitted st) {slot : Outstanding} (hslot : slot ∈ st.running) :
    RowsSound admitted (BranchManager.expire st slot).1 := by
  rcases h.expire_eq hslot with ⟨record, item, fault, -, -, -, -, -, heq⟩
  rw [heq]
  rcases withdraws_respawnWorker st.manager.pool slot.workerId with ⟨hwithdraws, -, hempty⟩
  refine h.finish hslot record item fault ?_ _ ?_
  · rfl
  · refine (h.accounts.withdraw hwithdraws).close (rows_sublist st slot) fun row hrow hbusy => ?_
    rcases List.mem_map.1 hrow with ⟨slot', hslot', rfl⟩
    refine List.mem_map_of_mem ((h.mem_filter_iff hslot).2 ⟨hslot', fun heq => hbusy ?_⟩)
    rw [heq]
    exact hempty

/-- The rows an expiry leaves are those of the other slots. -/
theorem mem_running_expire (h : RowsSound admitted st) {slot : Outstanding}
    (hslot : slot ∈ st.running) {slot' : Outstanding} :
    slot' ∈ (BranchManager.expire st slot).1.running ↔ slot' ∈ st.running ∧ slot' ≠ slot := by
  rcases h.expire_eq hslot with ⟨record, item, fault, -, -, -, -, -, heq⟩
  rw [heq]
  exact h.mem_filter_iff hslot

/-- A property that every expiry of a row keeps is kept by all of them. -/
theorem expireAll_induction {P : PollState κ β → Prop}
    (hexpire : ∀ st slot, RowsSound admitted st → slot ∈ st.running → P st →
      P (BranchManager.expire st slot).1) (slots : List Outstanding) (hnodup : slots.Nodup) :
    ∀ st, RowsSound admitted st → (∀ slot ∈ slots, slot ∈ st.running) → P st →
      RowsSound admitted (BranchManager.expireAll st slots).1 ∧
        P (BranchManager.expireAll st slots).1 := by
  induction slots with
  | nil => exact fun st h _ hP => ⟨h, hP⟩
  | cons slot rest ih =>
      intro st h hslots hP
      have hslot := hslots slot List.mem_cons_self
      have hstep := hexpire st slot h hslot hP
      have hsound := h.expire hslot
      have hrows : ∀ slot', slot' ∈ (BranchManager.expire st slot).1.running ↔
          slot' ∈ st.running ∧ slot' ≠ slot := fun slot' => h.mem_running_expire hslot
      rcases h.expire_eq hslot with ⟨record, item, fault, -, -, -, -, -, heq⟩
      unfold BranchManager.expireAll
      rw [heq] at hstep hsound hrows ⊢
      refine ih (List.nodup_cons.1 hnodup).2 _ hsound (fun slot' hslot' => ?_) hstep
      refine (hrows slot').2 ⟨hslots slot' (List.mem_cons_of_mem _ hslot'), fun hsame => ?_⟩
      rw [hsame] at hslot'
      exact (List.nodup_cons.1 hnodup).1 hslot'

theorem slots_nodup (h : RowsSound admitted st) : st.running.Nodup :=
  List.Nodup.of_map _ h.workers

/-- A poll that has returned or given up leaves nothing in an inbox. -/
theorem idle_of_replaced (h : RowsSound admitted st) {manager : BranchManager κ β}
    (hwithdraws : Withdraws st.manager.pool manager.pool)
    (hreplaced : ∀ slot ∈ st.running, Replaced st.manager.pool manager.pool slot.workerId) :
    Accounts manager.pool [] := by
  refine (h.accounts.withdraw hwithdraws).close (List.nil_sublist _) fun row hrow hbusy => ?_
  rcases List.mem_map.1 hrow with ⟨slot, hslot, rfl⟩
  exact absurd (hreplaced slot hslot).2 hbusy

end RowsSound

namespace ManagerRun

/-- A submission leaves the pool alone. -/
theorem submitMany_pool (manager : BranchManager κ β)
    (entries : List (WorkItem κ β × Option String)) :
    (manager.submitMany entries).1.pool = manager.pool := by
  have hadd : ∀ (manager : BranchManager κ β) entry, (manager.addBranch entry).pool =
      manager.pool := by
    intro manager entry
    unfold BranchManager.addBranch
    dsimp only
    split
    · rfl
    · split
      · rfl
      · rfl
  have hfold : ∀ (entries : List (WorkItem κ β × Option String)) (manager : BranchManager κ β),
      (entries.foldl BranchManager.addBranch manager).pool = manager.pool := by
    intro entries
    induction entries with
    | nil => exact fun _ => rfl
    | cons entry rest ih => exact fun manager => (ih _).trans (hadd manager entry)
  unfold BranchManager.submitMany
  split
  · rfl
  · split
    · rfl
    · exact hfold entries manager

/-- The accounts of a manager: nothing is outstanding between calls, and in a
    poll the rows fit. -/
def Sound : ManagerRun κ β → Prop
  | idle manager => Accounts manager.pool []
  | polling _ admitted st => RowsSound admitted st

theorem sound_of_outcome {schedule : PollSchedule} {admitted : List String} {st : PollState κ β}
    {run : ManagerRun κ β} (h : RowsSound admitted st)
    (houtcome : PollOutcome schedule admitted st run) : run.Sound := by
  cases houtcome with
  | goesOn => exact h
  | returned hidle =>
      have haccounts := h.accounts
      rwa [hidle] at haccounts
  | raised =>
      exact h.idle_of_replaced (withdraws_quarantine st.manager admitted) fun slot hslot =>
        quarantine_replaces (h.running slot hslot).1 (h.running slot hslot).2.runsOn

/-- What a poll does with a message: it drops it, or it completes the row that
    the message answers. -/
theorem handled_result {st : PollState κ β} {requestId : Nat} {result : BranchResult κ β}
    {rest : List (Nat × BranchResult κ β)}
    (hqueue : st.manager.pool.resultQueue = (requestId, result) :: rest) :
    handled (RowsSound.takeMessage st rest) (.result requestId result) =
        RowsSound.takeMessage st rest ∨
      ∃ slot ∈ st.running, st.manager.pool.resultQueue = (slot.requestId, result) :: rest ∧
        handled (RowsSound.takeMessage st rest) (.result requestId result) =
          (BranchManager.complete (RowsSound.takeMessage st rest) slot result).1 := by
  unfold handled
  dsimp only
  cases hfind : (RowsSound.takeMessage st rest).running.find?
      fun slot => slot.requestId = requestId with
  | none => exact .inl rfl
  | some slot =>
      have hid : slot.requestId = requestId := by
        have hfound := List.find?_some hfind
        rwa [decide_eq_true_eq] at hfound
      exact .inr ⟨slot, List.mem_of_find?_eq_some hfind, hid ▸ hqueue, rfl⟩

/-- What an answer itself does keeps the rows. -/
theorem rowsSound_handled {admitted : List String} {st : PollState κ β}
    (h : RowsSound admitted st) : (∀ now, RowsSound admitted (handled st (.empty now))) ∧
      ∀ requestId result rest, st.manager.pool.resultQueue = (requestId, result) :: rest →
        RowsSound admitted
          (handled (RowsSound.takeMessage st rest) (.result requestId result)) := by
  constructor
  · intro now
    refine (RowsSound.expireAll_induction (P := fun _ => True) (fun _ _ _ _ _ => trivial) _
      (h.slots_nodup.filter _) st h (fun slot hslot => List.mem_of_mem_filter hslot) trivial).1
  · intro requestId result rest hqueue
    rcases handled_result hqueue with hdropped | ⟨slot, hslot, hqueue', hcompleted⟩
    · rw [hdropped]
      exact h.stray hqueue
    · rw [hcompleted]
      exact h.complete hslot hqueue'

/-- Every step keeps the accounts. -/
theorem sound_step (digests : Digests κ) (run : ManagerRun κ β) (call : ManagerCall κ β)
    (h : run.Sound) : (run.step digests call).1.Sound := by
  cases run with
  | idle manager =>
      -- Whatever ends requests only withdraws them.
      have hwithdraw : ∀ manager' : BranchManager κ β, Withdraws manager.pool manager'.pool →
          (idle manager').Sound := fun manager' hpool => Accounts.withdraw h hpool
      cases call with
      | submit entries =>
          refine hwithdraw _ ?_
          rw [submitMany_pool]
          exact .refl _
      | poll schedule branchIds =>
          rcases startPoll_outcome digests schedule manager branchIds with
            hidle | ⟨admitted, st', hmoves, houtcome⟩
          · change (startPoll digests manager schedule branchIds).Sound
            rw [hidle]
            exact h
          -- A poll begins with the pool as it is, and with no rows.
          · have hstart : RowsSound admitted { manager, waiting := admitted } :=
              ⟨h, List.nodup_nil, List.nodup_nil, fun _ hslot => absurd hslot List.not_mem_nil,
                fun _ hmem => hmem⟩
            exact sound_of_outcome (hstart.moves hmoves) houtcome
      | cancel branchIds => exact hwithdraw _ (manager.withdraws_cancelBranches branchIds)
      | release branchIds => exact hwithdraw _ (manager.withdraws_releaseBranches branchIds)
      | respawn workerId => exact hwithdraw _ (withdraws_respawnWorker manager.pool workerId).1
      | run workerId execution => exact Accounts.run h digests workerId execution
      | receive => exact h
      | empty now => exact h
      | raise exc => exact h
  | polling schedule admitted st =>
      -- In a poll an event is handled, requests are moved, and the outcome is sound.
      have hanswer : ∀ (st : PollState κ β) event, RowsSound admitted (handled st event) →
          (onAnswer digests schedule admitted st event).Sound := by
        intro st event hhandled
        rcases onAnswer_outcome digests schedule admitted st event with ⟨st', hmoves, houtcome⟩
        exact sound_of_outcome (hhandled.moves hmoves) houtcome
      cases call with
      | submit entries => exact h
      | poll schedule' branchIds => exact h
      | cancel branchIds => exact h
      | release branchIds => exact h
      | respawn workerId => exact h
      | run workerId execution =>
          exact ⟨h.accounts.run digests workerId execution, h.workers, h.branches, h.running,
            h.waiting⟩
      | receive =>
          change (ManagerRun.receive digests schedule admitted st).Sound
          unfold ManagerRun.receive
          cases hqueue : st.manager.pool.resultQueue with
          | nil => exact h
          | cons message rest =>
              exact hanswer _ _ ((rowsSound_handled h).2 message.1 message.2 rest hqueue)
      | empty now => exact hanswer st _ ((rowsSound_handled h).1 now)
      | raise exc => exact hanswer st (.raised exc) h

/-!
### The induction rule

What holds at the start and is kept by every call of a sound manager holds in every run.
-/

section Induction

variable {P : BranchManager κ β → List Outstanding → Prop} (digests : Digests κ)

/-- What the steps of a poll keep, a step of the machine keeps. Between two calls
    nothing is outstanding, so a call before the next poll only withdraws, and
    a worker has nothing to run. -/
theorem step_induction
    (hwithdraw : ∀ manager manager', P manager [] → Withdraws manager.pool manager'.pool →
      P manager' [])
    (hrun : ∀ admitted st workerId execution, RowsSound admitted st → P st.manager st.running →
      P { st.manager with pool := st.manager.pool.runWorker digests workerId execution }
        st.running)
    (hmove : ∀ schedule admitted st st', RowsSound admitted st → P st.manager st.running →
      DispatchMove digests schedule st st' → P st'.manager st'.running)
    (hexpire : ∀ admitted st slot, RowsSound admitted st → P st.manager st.running →
      slot ∈ st.running →
      P (BranchManager.expire st slot).1.manager (BranchManager.expire st slot).1.running)
    (hstray : ∀ (st : PollState κ β) message rest, P st.manager st.running →
      st.manager.pool.resultQueue = message :: rest →
      P (RowsSound.takeMessage st rest).manager st.running)
    (hcomplete : ∀ admitted st slot result rest, RowsSound admitted st →
      P st.manager st.running → slot ∈ st.running →
      st.manager.pool.resultQueue = (slot.requestId, result) :: rest →
      P (BranchManager.complete (RowsSound.takeMessage st rest) slot result).1.manager
        (BranchManager.complete (RowsSound.takeMessage st rest) slot result).1.running)
    (hquarantine : ∀ admitted st, RowsSound admitted st → P st.manager st.running →
      P (st.manager.quarantine admitted) [])
    (run : ManagerRun κ β) (call : ManagerCall κ β) (hsound : run.Sound)
    (h : P run.manager run.rows) :
    P (run.step digests call).1.manager (run.step digests call).1.rows := by
  -- A poll's move is iterated, and the rows stay sound on the way.
  have hmoves : ∀ schedule admitted st st', RowsSound admitted st → P st.manager st.running →
      DispatchMoves digests schedule st st' → P st'.manager st'.running := by
    intro schedule admitted st st' hrows hkept hmoves
    induction hmoves with
    | refl => exact hkept
    | tail hbefore hlast ih => exact hmove _ _ _ _ (hrows.moves hbefore) ih hlast
  -- An outcome is one of three: the poll goes on, returns with nothing in flight, or raises and
  -- quarantines what was.
  have houtcome : ∀ schedule admitted st run, RowsSound admitted st → P st.manager st.running →
      PollOutcome schedule admitted st run → P run.manager run.rows := by
    intro schedule admitted st run hrows hkept houtcome
    cases houtcome with
    | goesOn => exact hkept
    | returned hidle =>
        rw [hidle] at hkept
        exact hkept
    | raised => exact hquarantine admitted st hrows hkept
  -- The call decides which of the assumptions is used.
  cases run with
  | idle manager =>
      have hidle : Accounts manager.pool [] := hsound
      cases call with
      | submit entries =>
          refine hwithdraw manager (manager.submitMany entries).1 h ?_
          rw [submitMany_pool]
          exact .refl _
      | poll schedule branchIds =>
          change P (startPoll digests manager schedule branchIds).manager
            (startPoll digests manager schedule branchIds).rows
          rcases startPoll_outcome digests schedule manager branchIds with
            hrefused | ⟨admitted, st', hsent, hended⟩
          · rw [hrefused]
            exact h
          · have hstart : RowsSound admitted { manager, waiting := admitted } :=
              ⟨hidle, List.nodup_nil, List.nodup_nil, fun _ hslot => absurd hslot List.not_mem_nil,
                fun _ hmem => hmem⟩
            exact houtcome _ _ _ _ (hstart.moves hsent) (hmoves _ _ _ _ hstart h hsent) hended
      | cancel branchIds => exact hwithdraw _ _ h (manager.withdraws_cancelBranches branchIds)
      | release branchIds => exact hwithdraw _ _ h (manager.withdraws_releaseBranches branchIds)
      | respawn workerId => exact hwithdraw _ _ h (withdraws_respawnWorker manager.pool workerId).1
      | run workerId execution =>
          -- Between two polls a worker has nothing in its inbox, so its turn changes nothing.
          have hnil := hidle.inbox_nil workerId fun row hrow => by cases hrow
          change P { manager with pool := manager.pool.runWorker digests workerId execution } []
          rw [runWorker_of_nil digests execution hnil]
          exact h
      | receive => exact h
      | empty now => exact h
      | raise exc => exact h
  | polling schedule admitted st =>
      have hrows : RowsSound admitted st := hsound
      -- What is left after an event is handled is moved on like a fresh poll.
      have hanswer : ∀ (st : PollState κ β) event, RowsSound admitted (handled st event) →
          P (handled st event).manager (handled st event).running →
          P (onAnswer digests schedule admitted st event).manager
            (onAnswer digests schedule admitted st event).rows := by
        intro st event hhandled hkept
        rcases onAnswer_outcome digests schedule admitted st event with ⟨st', hsent, hended⟩
        exact houtcome _ _ _ _ (hhandled.moves hsent) (hmoves _ _ _ _ hhandled hkept hsent) hended
      cases call with
      | submit entries => exact h
      | poll schedule' branchIds => exact h
      | cancel branchIds => exact h
      | release branchIds => exact h
      | respawn workerId => exact h
      | run workerId execution => exact hrun admitted st workerId execution hrows h
      | receive =>
          change P (ManagerRun.receive digests schedule admitted st).manager
            (ManagerRun.receive digests schedule admitted st).rows
          unfold ManagerRun.receive
          cases hqueue : st.manager.pool.resultQueue with
          | nil => exact h
          | cons message rest =>
              rcases message with ⟨requestId, result⟩
              refine hanswer (RowsSound.takeMessage st rest) (.result requestId result)
                ((rowsSound_handled hrows).2 requestId result rest hqueue) ?_
              -- A message strayed, or ends the row of its request.
              rcases handled_result hqueue with hdropped | ⟨slot, hslot, hqueue', hcompleted⟩
              · rw [hdropped]
                exact hstray st _ rest h hqueue
              · rw [hcompleted]
                exact hcomplete admitted st slot result rest hrows h hslot hqueue'
      | empty now =>
          refine hanswer st _ ((rowsSound_handled hrows).1 now) ?_
          exact (RowsSound.expireAll_induction (P := fun st => P st.manager st.running)
            (fun st slot hrows hslot h => hexpire admitted st slot hrows h hslot) _
            (hrows.slots_nodup.filter _) st hrows (fun slot hslot => List.mem_of_mem_filter hslot)
            h).2
      | raise exc => exact hanswer st (.raised exc) hrows h

end Induction

end ManagerRun

end Combat

end STS2RL
