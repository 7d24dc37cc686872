import STS2RL.Combat.Poll
import STS2RL.Combat.RetryLaw
import STS2RL.Core.Distinct

/-!
# A Poll Runs Each Branch Once

Every branch that a poll admits is in one of three places: it waits, a request
for it is outstanding, or it has the result of the one request that was sent for
it. A dispatch moves a branch from the first place to the second, an answer or a
deadline from the second to the third, and nothing moves back. So a request is
sent once for each branch, what is recorded is what was answered under its id or
the fault of its own deadline, and an answer that no row waits for changes
nothing.

A poll that raises gives its branches up: they are released. The cancel before
that goes on to their registered descendants, and those are the only other
branches a poll may change.

A poll ends because the rows and the waiting branches together get fewer with
every request that ends, and while branches wait some request is outstanding.

## Main definitions

* `Explained`: Where a result comes from.
* `PollInv`: The invariant between two answers.
* `PollSound`: What holds of a poll that goes on, has returned, or has raised.
* `PollFair`: Every request ends in a result or in its deadline passing.

## Theorems

* `PollInv.launch`, `PollInv.settle`: A branch moves on.
* `pollSound`: The run lemma.
* `poll_exactly_once`: Soundness and termination.
-/

namespace STS2RL

namespace Combat

variable {κ β : Type}

namespace BranchManager

/-!
### The invariant

What holds of a poll between any two events: which branches were sent, what was answered,
and what is still waiting.
-/

section Invariant

variable (before : BranchManager κ β) (admitted : List String) (schedule : PollSchedule)

/-- The result was answered under the request's id, or is the fault of the
    branch's own deadline. -/
def Explained (events : List (PollEvent κ β)) (requestId : Nat) (branchId : String)
    (result : BranchResult κ β) : Prop :=
  PollEvent.result requestId result ∈ events ∨
    ∃ now executionMode workerId staleGeneration, PollEvent.empty now ∈ events ∧
      schedule.submittedAt requestId + schedule.timeout ≤ now ∧
      result = branchTimeout branchId executionMode workerId staleGeneration

/-- The branch has the result of its request. -/
def Settled (events : List (PollEvent κ β)) (st : PollState κ β) (branchId : String) : Prop :=
  ∃ requestId result record, (requestId, branchId) ∈ st.sent ∧
    st.manager.records.get? branchId = some record ∧ record.result = some result ∧
    record.state = (if result.status = .success then .completed else .faulted) ∧
    st.results.get? branchId = some result ∧
    Explained schedule events requestId branchId result

/-- What holds also where a poll raises: the branches it left out and all
    links are as they were, and no branch was sent twice. -/
structure PollFrame (st : PollState κ β) : Prop where
  others : ∀ branchId, branchId ∉ admitted →
    st.manager.records.get? branchId = before.records.get? branchId
  links : ∀ branchId, (st.manager.records.get? branchId).map BranchRecord.childBranchIds =
    (before.records.get? branchId).map BranchRecord.childBranchIds
  once : (st.sent.map (·.2)).Nodup

/-- Where the admitted branches are between two answers. -/
structure PollInv (events : List (PollEvent κ β)) (st : PollState κ β) : Prop where
  frame : PollFrame before admitted st
  waiting_nodup : st.waiting.Nodup
  waiting : ∀ branchId ∈ st.waiting, branchId ∈ admitted ∧ branchId ∉ st.sent.map (·.2) ∧
    ∃ record, st.manager.records.get? branchId = some record ∧ record.state = .queued
  workers : (st.running.map (·.workerId)).Nodup
  requests : (st.running.map (·.requestId)).Nodup
  running : ∀ slot ∈ st.running, (slot.requestId, slot.branchId) ∈ st.sent ∧
    slot.deadline = schedule.submittedAt slot.requestId + schedule.timeout ∧
    ∃ record, st.manager.records.get? slot.branchId = some record ∧ record.state = .running
  numbered : ∀ pair ∈ st.sent, pair.1 ≤ st.manager.pool.nextRequestId ∧ pair.2 ∈ admitted
  sent_requests : (st.sent.map (·.1)).Nodup
  accounted : ∀ branchId ∈ admitted, branchId ∈ st.waiting ∨
    (∃ slot ∈ st.running, slot.branchId = branchId) ∨ Settled schedule events st branchId

end Invariant

variable {before : BranchManager κ β} {admitted : List String} {schedule : PollSchedule}
  {events : List (PollEvent κ β)} {st : PollState κ β}

theorem Explained.mono {events' : List (PollEvent κ β)} {requestId : Nat} {branchId : String}
    {result : BranchResult κ β} (h : Explained schedule events requestId branchId result)
    (hsub : ∀ event ∈ events, event ∈ events') :
    Explained schedule events' requestId branchId result := by
  rcases h with hresult | ⟨now, mode, workerId, stale, hempty, hdeadline, heq⟩
  · exact .inl (hsub _ hresult)
  · exact .inr ⟨now, mode, workerId, stale, hsub _ hempty, hdeadline, heq⟩

theorem PollInv.mono {events' : List (PollEvent κ β)}
    (hinv : PollInv before admitted schedule events st)
    (hsub : ∀ event ∈ events, event ∈ events') :
    PollInv before admitted schedule events' st := by
  refine { hinv with accounted := fun branchId hmem => ?_ }
  rcases hinv.accounted branchId hmem with hwaiting | hrunning |
    ⟨requestId, result, record, hsent, hget, hresult, hstate, hresults, hexplained⟩
  · exact .inl hwaiting
  · exact .inr (.inl hrunning)
  · exact .inr (.inr ⟨requestId, result, record, hsent, hget, hresult, hstate, hresults,
      hexplained.mono hsub⟩)

/-- One request is sent for one branch. -/
theorem PollInv.sent_inj (hinv : PollInv before admitted schedule events st)
    {requestId requestId' : Nat} {branchId : String} (h : (requestId, branchId) ∈ st.sent)
    (h' : (requestId', branchId) ∈ st.sent) : requestId = requestId' :=
  congrArg Prod.fst (List.inj_on_of_nodup_map hinv.frame.once h h' rfl)

/-- One row is outstanding for one branch. -/
theorem PollInv.slot_eq (hinv : PollInv before admitted schedule events st)
    {slot slot' : Outstanding} (h : slot ∈ st.running) (h' : slot' ∈ st.running)
    (hbranch : slot.branchId = slot'.branchId) : slot = slot' := by
  have hsent := (hinv.running slot h).1
  have hsent' := (hinv.running slot' h').1
  rw [hbranch] at hsent
  exact List.inj_on_of_nodup_map hinv.requests h h' (hinv.sent_inj hsent hsent')

/-!
### Launching a branch

A branch that is launched was waiting and was not sent before.
-/

section Launch

variable (schedule : PollSchedule) (st : PollState κ β) (branchId : String)
  (record : BranchRecord κ β) (routing : Routing κ β)

/-- The record of a branch that is sent to a worker. -/
def launchedRecord : BranchRecord κ β :=
  { record with
    state := .running
    workerId := some routing.workerId
    workerGeneration := some (st.manager.pool.workers routing.workerId).workerGeneration
    requestId := some (st.manager.pool.nextRequestId + 1)
    executionMode := some routing.request.executionMode }

/-- The row of its request. -/
def launchedRow : Outstanding :=
  ⟨st.manager.pool.nextRequestId + 1, branchId, routing.workerId,
    schedule.submittedAt (st.manager.pool.nextRequestId + 1) + schedule.timeout⟩

theorem launch_running : (launch schedule st branchId record routing).running =
    st.running ++ [launchedRow schedule st branchId routing] := rfl

theorem launch_sent : (launch schedule st branchId record routing).sent =
    st.sent ++ [(st.manager.pool.nextRequestId + 1, branchId)] := rfl

theorem launch_records (other : String) :
    (launch schedule st branchId record routing).manager.records.get? other =
      if other = branchId then some (launchedRecord st record routing)
      else st.manager.records.get? other :=
  setRecord_records st.manager branchId _ other

theorem launch_self :
    (launch schedule st branchId record routing).manager.records.get? branchId =
      some (launchedRecord st record routing) := by
  rw [launch_records, if_pos rfl]

theorem launch_other {other : String} (hne : other ≠ branchId) :
    (launch schedule st branchId record routing).manager.records.get? other =
      st.manager.records.get? other := by
  rw [launch_records, if_neg hne]

end Launch

/-- A branch that was never sent has no row and no result. -/
theorem PollInv.branch_ne (hinv : PollInv before admitted schedule events st) {branchId : String}
    (hunsent : branchId ∉ st.sent.map (·.2)) :
    (∀ slot ∈ st.running, slot.branchId ≠ branchId) ∧
      ∀ other, Settled schedule events st other → other ≠ branchId := by
  refine ⟨fun slot hslot heq => ?_, fun other hsettled heq => ?_⟩
  · exact hunsent (List.mem_map.mpr ⟨_, (hinv.running slot hslot).1, heq⟩)
  · rcases hsettled with ⟨requestId, _, _, hpair, -⟩
    exact hunsent (List.mem_map.mpr ⟨_, hpair, heq⟩)

/-- The next request has a number of its own. -/
theorem PollInv.fresh (hinv : PollInv before admitted schedule events st) :
    st.manager.pool.nextRequestId + 1 ∉ st.sent.map (·.1) := by
  intro hmem
  rcases List.mem_map.mp hmem with ⟨pair, hpair, heq⟩
  have hnumber := (hinv.numbered pair hpair).1
  omega

/-- A launch changes no record but the branch's. -/
theorem PollInv.launch_frame (hinv : PollInv before admitted schedule events st)
    {branchId : String} (hadmitted : branchId ∈ admitted)
    (hunsent : branchId ∉ st.sent.map (·.2)) {record : BranchRecord κ β}
    (hget : st.manager.records.get? branchId = some record) (routing : Routing κ β) :
    PollFrame before admitted (BranchManager.launch schedule st branchId record routing) := by
  refine ⟨fun other hout => ?_, fun other => ?_, ?_⟩
  · have hne : other ≠ branchId := fun heq => hout (heq ▸ hadmitted)
    rw [launch_other _ _ _ _ _ hne]
    exact hinv.frame.others other hout
  · rw [← hinv.frame.links other]
    by_cases heq : other = branchId
    · rw [heq, launch_self, hget]
      rfl
    · rw [launch_other _ _ _ _ _ heq]
  · rw [launch_sent, nodup_map_append_one]
    exact ⟨hunsent, hinv.frame.once⟩

/-- A waiting branch goes to a free worker. -/
theorem PollInv.launch (hinv : PollInv before admitted schedule events st) (branchId : String)
    (hwaiting : branchId ∈ st.waiting) (record : BranchRecord κ β)
    (hget : st.manager.records.get? branchId = some record) (routing : Routing κ β)
    (hfree : routing.workerId ∉ st.running.map (·.workerId)) :
    PollInv before admitted schedule events
      (BranchManager.launch schedule st branchId record routing) := by
  -- The branch waited, so it was not sent before and no other request is for it.
  have hadmitted := (hinv.waiting branchId hwaiting).1
  have hunsent := (hinv.waiting branchId hwaiting).2.1
  rcases hinv.branch_ne hunsent with ⟨hrunningNe, hsettledNe⟩
  refine
    { frame := hinv.launch_frame hadmitted hunsent hget routing
      waiting_nodup := hinv.waiting_nodup.erase branchId
      waiting := fun other hmem => ?_
      workers := nodup_map_append_one.mpr ⟨hfree, hinv.workers⟩
      requests := nodup_map_append_one.mpr ⟨fun hmem => ?_, hinv.requests⟩
      running := fun slot hmem => ?_
      numbered := fun pair hmem => ?_
      sent_requests := nodup_map_append_one.mpr ⟨hinv.fresh, hinv.sent_requests⟩
      accounted := fun other hin => ?_ }
  -- The others still wait: the branch that left the line is the one that was sent.
  · rw [launch_sent, List.map_append, List.mem_append]
    rcases (hinv.waiting_nodup.mem_erase_iff).mp hmem with ⟨hne, hold⟩
    rcases hinv.waiting other hold with ⟨hin, hnot, hqueued⟩
    refine ⟨hin, fun hsent => ?_, ?_⟩
    · exact hsent.elim hnot fun hnew => hne (List.mem_singleton.mp hnew)
    · rw [launch_other _ _ _ _ _ hne]
      exact hqueued
  · -- An outstanding request was sent, and the number is that of no sent one.
    rcases List.mem_map.mp hmem with ⟨slot, hslot, heq⟩
    exact hinv.fresh (List.mem_map.mpr ⟨_, (hinv.running slot hslot).1, heq⟩)
  -- The rows in flight are the old ones and the new one, whose record was just written.
  · rw [launch_running] at hmem
    rw [launch_sent]
    rcases List.mem_append.mp hmem with hold | hnew
    · rcases hinv.running slot hold with ⟨hpair, hdeadline, hrunning⟩
      refine ⟨List.mem_append_left _ hpair, hdeadline, ?_⟩
      rw [launch_other _ _ _ _ _ (hrunningNe slot hold)]
      exact hrunning
    · rw [List.mem_singleton.mp hnew]
      exact ⟨List.mem_append_right _ (List.mem_singleton.mpr rfl), rfl, _,
        launch_self schedule st branchId record routing, rfl⟩
  -- Numbers up to now, and the new number, which is the last.
  · rw [launch_sent] at hmem
    rcases List.mem_append.mp hmem with hold | hnew
    · exact ⟨Nat.le_succ_of_le (hinv.numbered pair hold).1, (hinv.numbered pair hold).2⟩
    · rw [List.mem_singleton.mp hnew]
      exact ⟨le_refl _, hadmitted⟩
  · -- The branch goes from the first of the three places to the second. The others stay.
    by_cases heq : other = branchId
    · exact .inr (.inl ⟨_, List.mem_append_right _ (List.mem_singleton.mpr rfl), heq.symm⟩)
    · rcases hinv.accounted other hin with hold | ⟨slot, hslot, hbranch⟩ | hsettled
      · exact .inl ((List.mem_erase_of_ne heq).mpr hold)
      · exact .inr (.inl ⟨slot, List.mem_append_left _ hslot, hbranch⟩)
      · rcases hsettled with ⟨requestId, result, kept, hpair, hkept, hresult⟩
        refine .inr (.inr ⟨requestId, result, kept, List.mem_append_left _ hpair, ?_, hresult⟩)
        rw [launch_other _ _ _ _ _ heq]
        exact hkept

/-- The branch of an outstanding request gets its result. The manager that
    finishes it may have replaced a worker meanwhile. -/
theorem PollInv.settle (hinv : PollInv before admitted schedule events st) (slot : Outstanding)
    (hslot : slot ∈ st.running) (record : BranchRecord κ β)
    (hget : st.manager.records.get? slot.branchId = some record) (item : WorkItem κ β)
    (result : BranchResult κ β)
    (hexplained : Explained schedule events slot.requestId slot.branchId result)
    (manager : BranchManager κ β) (hrecords : manager.records = st.manager.records)
    (hnext : manager.pool.nextRequestId = st.manager.pool.nextRequestId) :
    PollInv before admitted schedule events
      { forget st slot with
        manager := manager.finish slot.branchId record item result
        results := st.results.set slot.branchId result } := by
  -- The row's request was sent for an admitted branch.
  rcases hinv.running slot hslot with ⟨hpair, -, -⟩
  have hadmitted := (hinv.numbered _ hpair).2
  -- Only the record of the row's branch is written.
  have hother : ∀ other, other ≠ slot.branchId →
      (manager.finish slot.branchId record item result).records.get? other =
        st.manager.records.get? other := by
    intro other hne
    change (manager.setRecord slot.branchId _).records.get? other = _
    rw [setRecord_records, if_neg hne, hrecords]
  have hself : (manager.finish slot.branchId record item result).records.get? slot.branchId =
      some { record with
        result := some result
        state := if result.status = .success then .completed else .faulted } := by
    change (manager.setRecord slot.branchId _).records.get? slot.branchId = _
    rw [setRecord_records, if_pos rfl]
  -- The rows that stay are those of other branches.
  have hrest : ∀ row ∈ st.running.filter (·.requestId ≠ slot.requestId),
      row ∈ st.running ∧ row.branchId ≠ slot.branchId := by
    intro row hmem
    rw [List.mem_filter, decide_eq_true_eq] at hmem
    refine ⟨hmem.1, fun heq => hmem.2 ?_⟩
    rw [hinv.slot_eq hmem.1 hslot heq]
  refine
    { frame := ⟨fun other hout => ?_, fun other => ?_, hinv.frame.once⟩
      waiting_nodup := hinv.waiting_nodup
      waiting := fun other hmem => ?_
      workers := (List.filter_sublist.map _).nodup hinv.workers
      requests := (List.filter_sublist.map _).nodup hinv.requests
      running := fun row hmem => ?_
      numbered := fun pair hmem => ?_
      sent_requests := hinv.sent_requests
      accounted := fun other hin => ?_ }
  · rw [hother other (fun heq => hout (heq ▸ hadmitted))]
    exact hinv.frame.others other hout
  -- The tree of branches does not change, since a record keeps its parent and its children.
  · by_cases heq : other = slot.branchId
    · rw [heq, hself, ← hinv.frame.links, hget]
      rfl
    · rw [hother other heq]
      exact hinv.frame.links other
  -- Whoever waits was not sent, so it is not the branch that ended.
  · rcases hinv.waiting other hmem with ⟨hin, hunsent, hqueued⟩
    refine ⟨hin, hunsent, ?_⟩
    have hne : other ≠ slot.branchId := by
      intro heq
      rw [heq] at hunsent
      exact hunsent (List.mem_map.mpr ⟨_, hpair, rfl⟩)
    rw [hother other hne]
    exact hqueued
  · rcases hrest row hmem with ⟨hrow, hne⟩
    rcases hinv.running row hrow with ⟨hpair', hdeadline, hrunning⟩
    refine ⟨hpair', hdeadline, ?_⟩
    rw [hother _ hne]
    exact hrunning
  · rw [show (manager.finish slot.branchId record item result).pool.nextRequestId =
      st.manager.pool.nextRequestId from hnext]
    exact hinv.numbered pair hmem
  -- The branch goes from the second place to the third, and the others stay where they are.
  · by_cases heq : other = slot.branchId
    · rw [heq]
      refine .inr (.inr ⟨slot.requestId, result, _, hpair, hself, rfl, rfl, ?_, hexplained⟩)
      exact Dict.get?_set_self _ _ _
    · rcases hinv.accounted other hin with hwaiting | ⟨row, hrow, hbranch⟩ | hsettled
      · exact .inl hwaiting
      · refine .inr (.inl ⟨row, List.mem_filter.mpr ⟨hrow, decide_eq_true ?_⟩, hbranch⟩)
        intro hid
        apply heq
        rw [← hbranch, List.inj_on_of_nodup_map hinv.requests hrow hslot hid]
      · rcases hsettled with ⟨requestId, old, kept, hsent, hkept, hresult, hstate, hresults, hwhy⟩
        refine .inr (.inr ⟨requestId, old, kept, hsent, ?_, hresult, hstate, ?_, hwhy⟩)
        · rw [hother other heq]
          exact hkept
        · change (st.results.set slot.branchId result).get? other = _
          rw [Dict.get?_set_ne _ _ heq]
          exact hresults

/-!
### Dispatching

As long as there is a free worker the next waiting branch is dispatched. The measure goes
down with each, so the rounds end.
-/

section Dispatch

variable (digests : Digests κ)

/-- What is left to do: the branches that wait and the requests that are
    outstanding. -/
def pollMeasure (st : PollState κ β) : Nat := st.waiting.length + st.running.length

/-- A dispatch that goes on from one state to another: it keeps the invariant,
    leaves no less done, and ends no request. -/
structure Dispatches (before : BranchManager κ β) (admitted : List String)
    (schedule : PollSchedule) (events : List (PollEvent κ β)) (st st' : PollState κ β) :
    Prop where
  inv : PollInv before admitted schedule events st'
  measure : pollMeasure st' ≤ pollMeasure st
  kept : ∀ slot ∈ st.running, slot ∈ st'.running

theorem Dispatches.trans {st₁ st₂ st₃ : PollState κ β}
    (h : Dispatches before admitted schedule events st₁ st₂)
    (h' : Dispatches before admitted schedule events st₂ st₃) :
    Dispatches before admitted schedule events st₁ st₃ :=
  ⟨h'.inv, h'.measure.trans h.measure, fun slot hmem => h'.kept slot (h.kept slot hmem)⟩

theorem PollInv.dispatches_self (hinv : PollInv before admitted schedule events st) :
    Dispatches before admitted schedule events st st :=
  ⟨hinv, le_refl _, fun _ hmem => hmem⟩

/-- The first branch that is waiting is sent, or the dispatch of it raises. -/
theorem PollInv.dispatchBranch (hinv : PollInv before admitted schedule events st)
    (branchId : String) (hwaiting : branchId ∈ st.waiting) (record : BranchRecord κ β)
    (hget : st.manager.records.get? branchId = some record) (item : WorkItem κ β) :
    Dispatches before admitted schedule events st
      (BranchManager.dispatchBranch digests schedule st (freeWorkers st) branchId record item).1 ∧
    ((BranchManager.dispatchBranch digests schedule st (freeWorkers st) branchId record item).2 =
        .ok () →
      (BranchManager.dispatchBranch digests schedule st (freeWorkers st) branchId record
        item).1.running ≠ []) := by
  unfold BranchManager.dispatchBranch
  dsimp only
  split
  -- The worker that was named is not free, which ends the poll with nothing changed.
  · exact ⟨hinv.dispatches_self, fun h => by cases h⟩
  · rename_i hfree
    split
    · exact ⟨hinv.dispatches_self, fun h => by cases h⟩
    -- The worker is free, so no row is on it, and the launch keeps the invariant.
    · have hidle : (routeWorkItem digests item st.manager.pool.registry (freeWorkers st)
          st.manager.pool.workerGenerations st.manager.nextBootstrapIndex).workerId ∉
            st.running.map (·.workerId) := by
        have hmem := not_not.mp hfree
        unfold freeWorkers at hmem
        exact of_decide_eq_true (List.mem_filter.mp hmem).2
      refine ⟨⟨hinv.launch branchId hwaiting record hget _ hidle, ?_, ?_⟩, fun _ => ?_⟩
      -- One branch less waits and one row more is in flight: the measure does not grow.
      · unfold pollMeasure
        change (st.waiting.erase branchId).length + (st.running ++ [_]).length ≤ _
        rw [List.length_erase_of_mem hwaiting, List.length_append, List.length_singleton]
        have hpos := List.length_pos_of_mem hwaiting
        omega
      · exact fun slot hmem => List.mem_append_left _ hmem
      · exact List.append_ne_nil_of_right_ne_nil _ (List.cons_ne_nil _ _)

/-- The waiting branches are queued, so none of them is passed over for good. -/
theorem PollInv.dispatchFirst (hinv : PollInv before admitted schedule events st)
    (branchIds : List String) (hsub : ∀ branchId ∈ branchIds, branchId ∈ st.waiting) :
    Dispatches before admitted schedule events st
      (BranchManager.dispatchFirst digests schedule (freeWorkers st) st branchIds).1 ∧
    ((BranchManager.dispatchFirst digests schedule (freeWorkers st) st branchIds).2 = .ok true →
      (BranchManager.dispatchFirst digests schedule (freeWorkers st) st branchIds).1.running ≠
        []) := by
  induction branchIds with
  | nil => exact ⟨hinv.dispatches_self, fun h => by cases h⟩
  | cons branchId rest ih =>
      have hwaiting := hsub branchId List.mem_cons_self
      rcases (hinv.waiting branchId hwaiting).2.2 with ⟨record, hget, hqueued⟩
      unfold BranchManager.dispatchFirst
      rw [hget]
      dsimp only
      rw [if_neg (not_not.mpr hqueued)]
      split
      · exact ⟨hinv.dispatches_self, fun h => by cases h⟩
      · rename_i item _
        split
        · exact ih fun id hmem => hsub id (List.mem_cons_of_mem _ hmem)
        · have hbranch := hinv.dispatchBranch digests branchId hwaiting record hget item
          refine ⟨hbranch.1, fun htrue => hbranch.2 ?_⟩
          cases hok : (BranchManager.dispatchBranch digests schedule st (freeWorkers st) branchId
              record item).2 with
          | error exc =>
              rw [hok] at htrue
              cases htrue
          | ok _ => rfl

/-- The rounds keep the invariant, whatever they come to. -/
theorem PollInv.dispatchRounds (fuel : Nat) :
    ∀ {st : PollState κ β}, PollInv before admitted schedule events st →
      Dispatches before admitted schedule events st
        (BranchManager.dispatchRounds digests schedule fuel st).1 := by
  induction fuel with
  | zero => exact fun hinv => hinv.dispatches_self
  | succ fuel ih =>
      intro st hinv
      unfold BranchManager.dispatchRounds
      split
      · exact hinv.dispatches_self
      · have hfirst := hinv.dispatchFirst digests st.waiting fun _ h => h
        generalize BranchManager.dispatchFirst digests schedule (freeWorkers st) st st.waiting =
          outcome at hfirst
        rcases outcome with ⟨next, exc | dispatched⟩
        · exact hfirst.1
        · cases dispatched with
          | false => exact hfirst.1
          | true => exact hfirst.1.trans (ih hfirst.1.inv)

theorem PollInv.dispatchAvailable (hinv : PollInv before admitted schedule events st) :
    Dispatches before admitted schedule events st
      (BranchManager.dispatchAvailable digests schedule st).1 :=
  PollInv.dispatchRounds digests _ hinv

end Dispatch

/-!
### Answers

An answer or a deadline ends one slot, and the row of the branch is written once.
-/

section Answers

variable (digests : Digests κ)

/-- What an answer, or a deadline, does to the rows: it ends one. -/
structure Ends (before : BranchManager κ β) (admitted : List String) (schedule : PollSchedule)
    (events : List (PollEvent κ β)) (st st' : PollState κ β) (slots : List Outstanding) :
    Prop where
  inv : PollInv before admitted schedule events st'
  waiting : st'.waiting = st.waiting
  running : st'.running = st.running.filter fun row => row.requestId ∉ slots.map (·.requestId)

theorem running_not_discarded (record : BranchRecord κ β) (h : record.state = .running) :
    record.state.isDiscarded = false := by
  rw [h]
  rfl

/-- A row ends, or the branch has lost its work item and the poll is given up. -/
theorem PollInv.complete (hinv : PollInv before admitted schedule events st) (slot : Outstanding)
    (hslot : slot ∈ st.running) (result : BranchResult κ β)
    (hevent : PollEvent.result slot.requestId result ∈ events) :
    (∃ exc, (BranchManager.complete st slot result).2 = .error exc ∧
      PollFrame before admitted (BranchManager.complete st slot result).1) ∨
    ((BranchManager.complete st slot result).2 = .ok () ∧
      Ends before admitted schedule events st
        (BranchManager.complete st slot result).1 [slot]) := by
  rcases (hinv.running slot hslot).2.2 with ⟨record, hget, hrunning⟩
  unfold BranchManager.complete
  dsimp only
  rw [show (forget st slot).manager.records.get? slot.branchId = some record from hget]
  dsimp only
  rw [running_not_discarded record hrunning, if_neg (by simp)]
  split
  · exact .inl ⟨_, rfl, hinv.frame.others, hinv.frame.links, hinv.frame.once⟩
  · rename_i item _
    refine .inr ⟨rfl, hinv.settle slot hslot record hget item result
      (.inl hevent) _ rfl rfl, rfl, ?_⟩
    change st.running.filter _ = _
    simp

/-- A slot that expires ends with a fault, and its worker is replaced. -/
theorem PollInv.expire (hinv : PollInv before admitted schedule events st) (slot : Outstanding)
    (hslot : slot ∈ st.running) (now : ℚ) (hdeadline : slot.deadline ≤ now)
    (hevent : PollEvent.empty now ∈ events) :
    (∃ exc, (BranchManager.expire st slot).2 = .error exc ∧
      PollFrame before admitted (BranchManager.expire st slot).1) ∨
    ((BranchManager.expire st slot).2 = .ok () ∧
      Ends before admitted schedule events st (BranchManager.expire st slot).1 [slot]) := by
  rcases (hinv.running slot hslot).2 with ⟨hlimit, record, hget, hrunning⟩
  unfold BranchManager.expire
  dsimp only
  rw [show (forget st slot).manager.records.get? slot.branchId = some record from hget]
  dsimp only
  rw [running_not_discarded record hrunning, if_neg (by simp)]
  split
  · exact .inl ⟨_, rfl, hinv.frame.others, hinv.frame.links, hinv.frame.once⟩
  · rename_i item _
    refine .inr ⟨rfl, hinv.settle slot hslot record hget item _
      (.inr ⟨now, _, _, _, hevent, hlimit ▸ hdeadline, rfl⟩) _ rfl rfl, rfl, ?_⟩
    change st.running.filter _ = _
    simp

/-- The rows whose deadline passed end, one after the other. -/
theorem PollInv.expireAll (now : ℚ) (slots : List Outstanding)
    (hnodup : (slots.map (·.requestId)).Nodup) (hevent : PollEvent.empty now ∈ events) :
    ∀ {st : PollState κ β}, PollInv before admitted schedule events st →
      (∀ slot ∈ slots, slot ∈ st.running ∧ slot.deadline ≤ now) →
      (∃ exc, (BranchManager.expireAll st slots).2 = .error exc ∧
        PollFrame before admitted (BranchManager.expireAll st slots).1) ∨
      ((BranchManager.expireAll st slots).2 = .ok () ∧
        Ends before admitted schedule events st (BranchManager.expireAll st slots).1 slots) := by
  -- The induction is on the rows that are late; the rows after the first are still in flight
  -- when the first has ended, because their requests are others.
  induction slots with
  | nil =>
      intro st hinv _
      refine .inr ⟨rfl, hinv, rfl, ?_⟩
      exact (List.filter_eq_self.mpr (by simp)).symm
  | cons slot rest ih =>
      intro st hinv hslots
      rw [List.map_cons, List.nodup_cons] at hnodup
      have hhead := hslots slot List.mem_cons_self
      unfold BranchManager.expireAll
      have hfirst := hinv.expire slot hhead.1 now hhead.2 hevent
      generalize BranchManager.expire st slot = outcome at hfirst
      rcases outcome with ⟨next, outcome⟩
      -- The first row cannot be ended, and the poll with it, or it ends as timed out.
      rcases hfirst with ⟨exc, herror, hframe⟩ | ⟨hok, hends⟩
      · dsimp only at herror hframe
        rw [herror]
        exact .inl ⟨exc, rfl, hframe⟩
      · dsimp only at hok hends
        rw [hok]
        dsimp only
        have hrest : ∀ other ∈ rest, other ∈ next.running ∧ other.deadline ≤ now := by
          intro other hmem
          have hother := hslots other (List.mem_cons_of_mem _ hmem)
          refine ⟨?_, hother.2⟩
          rw [hends.running, List.mem_filter]
          refine ⟨hother.1, decide_eq_true ?_⟩
          rw [List.map_singleton, List.mem_singleton]
          exact fun heq => hnodup.1 (heq ▸ List.mem_map_of_mem hmem)
        rcases ih hnodup.2 hends.inv hrest with ⟨exc, herror, hframe⟩ | ⟨hdone, hall⟩
        · exact .inl ⟨exc, herror, hframe⟩
        · refine .inr ⟨hdone, hall.inv, hall.waiting.trans hends.waiting, ?_⟩
          -- What is left is without the first row and without the rest, in either order.
          rw [hall.running, hends.running, List.filter_filter]
          refine List.filter_congr fun row _ => ?_
          simp only [List.map_cons, List.map_nil, List.mem_cons, List.not_mem_nil, or_false,
            not_or, Bool.decide_and, Bool.and_comm]

end Answers

/-!
### Phases

A poll waits, dispatches and answers, until nothing is left or something raises.
-/

section Phases

variable (digests : Digests κ)

/-- What holds of a poll. While it goes on, the invariant; where it returned,
    every admitted branch was sent once and has the result of its request, and no
    other branch has changed; where it raised, every admitted branch is released,
    and another branch is as it was unless it was cancelled with an ancestor that
    was admitted. -/
def PollSound (before : BranchManager κ β) (admitted : List String) (schedule : PollSchedule)
    (events : List (PollEvent κ β)) : PollPhase κ β → Prop
  | .polling st => PollInv before admitted schedule events st ∧ st.running ≠ []
  | .returned st =>
      (∀ branchId ∈ admitted, (st.sent.map (·.2)).count branchId = 1 ∧
        Settled schedule events st branchId) ∧
      ∀ branchId, branchId ∉ admitted →
        st.manager.records.get? branchId = before.records.get? branchId
  | .raised st _ => (st.sent.map (·.2)).Nodup ∧
      ∀ branchId record, before.records.get? branchId = some record →
        ∃ record', st.manager.records.get? branchId = some record' ∧
          (branchId ∈ admitted → record'.state = .released) ∧
          (branchId ∉ admitted →
            (record'.state = record.state ∧ record'.result = record.result) ∨
            (record'.state = .cancelled ∧
              ∃ source ∈ admitted, Descends before.records source branchId))

/-- Descendants are read off the links. -/
theorem PollFrame.descends (hframe : PollFrame before admitted st) {source branchId : String}
    (h : Descends st.manager.records source branchId) :
    Descends before.records source branchId := by
  refine Relation.ReflTransGen.mono ?_ _ _ h
  rintro parent child ⟨record, hget, hchild⟩
  have hlinks := hframe.links parent
  rw [hget] at hlinks
  cases hbefore : before.records.get? parent with
  | none =>
      rw [hbefore] at hlinks
      cases hlinks
  | some old =>
      rw [hbefore] at hlinks
      have hsame : record.childBranchIds = old.childBranchIds := Option.some.inj hlinks
      exact ⟨old, hbefore, hsame ▸ hchild⟩

/-- A poll that gives up releases its branches. -/
theorem PollFrame.abandon (hframe : PollFrame before admitted st) (exc : PyException) :
    PollSound before admitted schedule events (BranchManager.abandon admitted st exc) := by
  refine ⟨hframe.once, fun branchId record hbefore => ?_⟩
  have hknown : ∃ current, st.manager.records.get? branchId = some current := by
    have hlinks := hframe.links branchId
    rw [hbefore] at hlinks
    cases hget : st.manager.records.get? branchId with
    | none =>
        rw [hget] at hlinks
        cases hlinks
    | some current => exact ⟨current, rfl⟩
  rcases hknown with ⟨current, hget⟩
  rcases quarantine_records st.manager admitted branchId current hget with
    ⟨record', hget', hreleased, hother⟩
  refine ⟨record', hget', hreleased, fun hout => ?_⟩
  have hsame := hframe.others branchId hout
  rw [hget, hbefore, Option.some.injEq] at hsame
  rw [← hsame]
  rcases hother hout with hkept | ⟨hcancelled, source, hsource, hdescends⟩
  · exact .inl hkept
  · exact .inr ⟨hcancelled, source, hsource, hframe.descends hdescends⟩

/-- What is left to do of a phase. -/
def phaseMeasure : PollPhase κ β → Nat
  | .polling st => pollMeasure st
  | .returned _ => 0
  | .raised _ _ => 0

/-- The request of the row is outstanding. -/
def Awaits : PollPhase κ β → Outstanding → Prop
  | .polling st, slot => slot ∈ st.running
  | .returned _, _ => False
  | .raised _ _, _ => False

/-- The head of the loop dispatches what it can, and ends the poll when nothing is left. -/
theorem PollInv.loopHead (hinv : PollInv before admitted schedule events st) :
    PollSound before admitted schedule events
        (BranchManager.loopHead digests schedule admitted st) ∧
      (¬ (BranchManager.loopHead digests schedule admitted st).Ended →
        phaseMeasure (BranchManager.loopHead digests schedule admitted st) ≤ pollMeasure st ∧
        ∀ slot ∈ st.running,
          Awaits (BranchManager.loopHead digests schedule admitted st) slot) := by
  unfold BranchManager.loopHead
  split
  -- Nothing waits and nothing runs, so every admitted branch is in the third place.
  · rename_i hempty
    refine ⟨⟨fun branchId hmem => ?_, hinv.frame.others⟩, fun h => absurd trivial h⟩
    rcases hinv.accounted branchId hmem with hwaiting | ⟨slot, hslot, -⟩ | hsettled
    · rw [hempty.1] at hwaiting
      cases hwaiting
    · rw [hempty.2] at hslot
      cases hslot
    · refine ⟨?_, hsettled⟩
      rcases hsettled with ⟨requestId, _, _, hsent, -⟩
      exact List.count_eq_one_of_mem hinv.frame.once (List.mem_map.mpr ⟨_, hsent, rfl⟩)
  · split
    -- Something waits and nothing runs: as many as can be are sent.
    · rename_i hidle
      have hdispatch := hinv.dispatchAvailable digests
      generalize BranchManager.dispatchAvailable digests schedule st = outcome at hdispatch
      rcases outcome with ⟨next, exc | filled⟩
      · exact ⟨hdispatch.inv.frame.abandon exc, fun h => absurd trivial h⟩
      · dsimp only
        -- Sending was tried and nothing runs, which the code takes for an error.
        split
        · exact ⟨hdispatch.inv.frame.abandon _, fun h => absurd trivial h⟩
        · rename_i hrunning
          exact ⟨⟨hdispatch.inv, hrunning⟩, fun _ => ⟨hdispatch.measure, hdispatch.kept⟩⟩
    -- Something runs, and the poll goes on to wait for it.
    · rename_i hrunning
      exact ⟨⟨hinv, hrunning⟩, fun _ => ⟨le_refl _, fun _ h => h⟩⟩

/-- The event ends the row's request. -/
def EndsRow (slot : Outstanding) : PollEvent κ β → Prop
  | .result requestId _ => requestId = slot.requestId
  | .empty now => slot.deadline ≤ now
  | .raised _ => False

/-- What an answer comes to: an exception, or a state in which the rows it ends are
    gone and no other is. -/
theorem PollInv.onEvent (hinv : PollInv before admitted schedule events st)
    (event : PollEvent κ β) (hevent : event ∈ events) :
    (∃ exc, (BranchManager.onEvent digests schedule st event).2 = .error exc ∧
      PollFrame before admitted (BranchManager.onEvent digests schedule st event).1) ∨
    ((BranchManager.onEvent digests schedule st event).2 = .ok () ∧
      PollInv before admitted schedule events
        (BranchManager.onEvent digests schedule st event).1 ∧
      (pollMeasure (BranchManager.onEvent digests schedule st event).1 < pollMeasure st ∨
        (pollMeasure (BranchManager.onEvent digests schedule st event).1 ≤ pollMeasure st ∧
          ∀ slot ∈ st.running, ¬ EndsRow slot event ∧
            slot ∈ (BranchManager.onEvent digests schedule st event).1.running))) := by
  -- After rows have ended, the free workers are filled.
  have hthen : ∀ (outcome : PollState κ β × Except PyException Unit) (slots : List Outstanding),
      ((∃ exc, outcome.2 = .error exc ∧ PollFrame before admitted outcome.1) ∨
        (outcome.2 = .ok () ∧ Ends before admitted schedule events st outcome.1 slots)) →
      (∀ slot ∈ slots, slot ∈ st.running) →
      (slots = [] → ∀ slot ∈ st.running, ¬ EndsRow slot event) →
      (∃ exc, (thenDispatch digests schedule outcome).2 = .error exc ∧
        PollFrame before admitted (thenDispatch digests schedule outcome).1) ∨
      ((thenDispatch digests schedule outcome).2 = .ok () ∧
        PollInv before admitted schedule events (thenDispatch digests schedule outcome).1 ∧
        (pollMeasure (thenDispatch digests schedule outcome).1 < pollMeasure st ∨
          (pollMeasure (thenDispatch digests schedule outcome).1 ≤ pollMeasure st ∧
            ∀ slot ∈ st.running, ¬ EndsRow slot event ∧
              slot ∈ (thenDispatch digests schedule outcome).1.running))) := by
    rintro ⟨next, outcome⟩ slots hends hslots hnone
    rcases hends with ⟨exc, herror, hframe⟩ | ⟨hok, hends⟩
    · dsimp only at herror hframe
      rw [herror]
      exact .inl ⟨exc, rfl, hframe⟩
    · dsimp only at hok hends
      rw [hok]
      have hdispatch := hends.inv.dispatchAvailable digests
      unfold thenDispatch
      dsimp only
      generalize BranchManager.dispatchAvailable digests schedule next = final at hdispatch
      rcases final with ⟨final, exc | filled⟩
      · exact .inl ⟨exc, rfl, hdispatch.inv.frame⟩
      · refine .inr ⟨rfl, hdispatch.inv, ?_⟩
        have hle := hdispatch.measure
        unfold pollMeasure at hle ⊢
        rw [hends.waiting, hends.running] at hle
        cases slots with
        | nil =>
            have hsame : st.running.filter
                (fun row => row.requestId ∉ ([] : List Outstanding).map (·.requestId)) =
                  st.running := List.filter_eq_self.mpr (by simp)
            rw [hsame] at hle
            refine .inr ⟨hle, fun slot hmem => ⟨hnone rfl slot hmem, hdispatch.kept slot ?_⟩⟩
            rw [hends.running, hsame]
            exact hmem
        | cons slot rest =>
            -- The first of the rows that ended is gone.
            have hless : (st.running.filter
                fun row => row.requestId ∉ (slot :: rest).map (·.requestId)).length <
                  st.running.length := by
              apply List.length_filter_lt_length_iff_exists.mpr
              exact ⟨slot, hslots slot List.mem_cons_self, by simp⟩
            dsimp only at hle ⊢
            exact .inl (by omega)
  cases event with
  | raised exc => exact .inl ⟨exc, rfl, hinv.frame⟩
  | result requestId result =>
      unfold BranchManager.onEvent
      dsimp only
      split
      · rename_i hfind
        refine .inr ⟨rfl, hinv, .inr ⟨le_refl _, fun slot hmem => ⟨fun heq => ?_, hmem⟩⟩⟩
        have hnone := List.find?_eq_none.mp hfind slot hmem
        exact hnone (decide_eq_true heq.symm)
      · rename_i slot hfind
        have hslot := List.mem_of_find?_eq_some hfind
        have hfound := List.find?_some hfind
        have hid : slot.requestId = requestId := of_decide_eq_true hfound
        refine hthen _ [slot] (hinv.complete slot hslot result (hid ▸ hevent)) ?_ ?_
        · intro other hmem
          rw [List.mem_singleton.mp hmem]
          exact hslot
        · intro hnil
          cases hnil
  | empty now =>
      refine hthen _ (st.running.filter (·.deadline ≤ now)) ?_ ?_ ?_
      · refine PollInv.expireAll now _ ((List.filter_sublist.map _).nodup hinv.requests) hevent hinv
          fun slot hmem => ?_
        exact ⟨(List.mem_filter.mp hmem).1, of_decide_eq_true (List.mem_filter.mp hmem).2⟩
      · exact fun slot hmem => (List.mem_filter.mp hmem).1
      · intro hnil slot hmem hdeadline
        exact List.filter_eq_nil_iff.mp hnil slot hmem (decide_eq_true hdeadline)

/-- One step of a sound poll. -/
theorem PollSound.step {phase : PollPhase κ β}
    (hsound : PollSound before admitted schedule events phase) (event : PollEvent κ β) :
    PollSound before admitted schedule (events ++ [event])
        (pollStep digests schedule admitted phase event).1 ∧
      ∀ slot, Awaits phase slot → ¬ (pollStep digests schedule admitted phase event).1.Ended →
        phaseMeasure (pollStep digests schedule admitted phase event).1 < phaseMeasure phase ∨
        (phaseMeasure (pollStep digests schedule admitted phase event).1 ≤ phaseMeasure phase ∧
          Awaits (pollStep digests schedule admitted phase event).1 slot ∧
          ¬ EndsRow slot event) := by
  have hold : ∀ other ∈ events, other ∈ events ++ [event] :=
    fun other hmem => List.mem_append_left _ hmem
  cases phase with
  | returned st =>
      -- What was explained by the events so far is explained by one more.
      refine ⟨⟨fun branchId hmem => ?_, hsound.2⟩, fun slot h => by cases h⟩
      rcases hsound.1 branchId hmem with ⟨hcount, requestId, result, record, hsent, hget, hresult,
        hstate, hresults, hexplained⟩
      exact ⟨hcount, requestId, result, record, hsent, hget, hresult, hstate, hresults,
        hexplained.mono hold⟩
  | raised st exc => exact ⟨hsound, fun slot h => by cases h⟩
  | polling st =>
      have hinv := hsound.1.mono hold
      -- The event is handled first; it raises, or leaves the invariant.
      have hevent := hinv.onEvent digests event
        (List.mem_append_right _ (List.mem_singleton.mpr rfl))
      unfold pollStep
      dsimp only
      generalize BranchManager.onEvent digests schedule st event = outcome at hevent
      rcases outcome with ⟨next, outcome⟩
      rcases hevent with ⟨exc, herror, hframe⟩ | ⟨hok, hnext, hprogress⟩
      · dsimp only at herror hframe
        rw [herror]
        exact ⟨hframe.abandon exc, fun slot _ hended => absurd trivial hended⟩
      · dsimp only at hok hnext hprogress
        rw [hok]
        -- Then the loop goes round once more, which does not make the measure larger.
        rcases hnext.loopHead digests with ⟨hhead, hgoes⟩
        refine ⟨hhead, fun slot hslot hended => ?_⟩
        rcases hgoes hended with ⟨hle, hkept⟩
        -- Either the measure fell, or the row still waits and the event was not the one that
        -- ends it.
        rcases hprogress with hless | ⟨hle', hrows⟩
        · exact .inl (lt_of_le_of_lt hle hless)
        · exact .inr ⟨hle.trans hle', hkept slot (hrows slot hslot).2, (hrows slot hslot).1⟩

end Phases

/-!
### Admission

The branches that a poll is for are those of the request that are queued, each once.
-/

section Admitted

/-- What a poll admits is queued, each branch once. -/
theorem admitSelected_eq_ok (branchIds : List String) :
    ∀ pollBranchIds admitted : List String,
      before.admitSelected pollBranchIds branchIds = .ok admitted →
      pollBranchIds.Nodup →
      (∀ branchId ∈ pollBranchIds, ∃ record, before.records.get? branchId = some record ∧
        record.state = .queued) →
      admitted.Nodup ∧ ∀ branchId ∈ admitted, ∃ record,
        before.records.get? branchId = some record ∧ record.state = .queued := by
  -- The induction is on the branches that were asked for; what is admitted so far is
  -- `pollBranchIds`.
  induction branchIds with
  | nil =>
      intro pollBranchIds admitted h hnodup hqueued
      cases h
      exact ⟨hnodup, hqueued⟩
  | cons branchId rest ih =>
      intro pollBranchIds admitted h hnodup hqueued
      unfold admitSelected at h
      split at h
      · exact ih pollBranchIds admitted h hnodup hqueued
      · rename_i hnew
        split at h
        · cases h
        · rename_i record hget
          split at h
          · cases h
          · rename_i hstate
            refine ih _ admitted h ?_ ?_
            · exact nodup_append_one.mpr ⟨hnew, hnodup⟩
            -- A branch is admitted only in the state in which it waits.
            · intro id hmem
              rcases List.mem_append.mp hmem with hold | hlast
              · exact hqueued id hold
              · rw [List.mem_singleton.mp hlast]
                exact ⟨record, hget, not_not.mp hstate⟩

/-- An admitted branch is queued. -/
theorem admit_eq_ok (timeout : ℚ) (branchIds : Option (List String))
    (h : before.admitPolled timeout branchIds = .ok admitted) :
    admitted.Nodup ∧ ∀ branchId ∈ admitted, ∃ record,
      before.records.get? branchId = some record ∧ record.state = .queued := by
  unfold admitPolled at h
  split at h
  · cases h
  · cases branchIds with
    | some branchIds =>
        exact admitSelected_eq_ok branchIds [] admitted h List.nodup_nil
          fun id hmem => by cases hmem
    | none =>
        cases h
        refine ⟨(List.filter_sublist.map _).nodup before.records.nodup, fun branchId hmem => ?_⟩
        rcases List.mem_map.mp hmem with ⟨⟨id, record⟩, hentry, rfl⟩
        rcases List.mem_filter.mp hentry with ⟨hin, hstate⟩
        exact ⟨record, (Dict.mem_entries_iff _ id record).mp hin, of_decide_eq_true hstate⟩

variable (schedule) in
theorem pollInv_start (hnodup : admitted.Nodup) (hqueued : ∀ branchId ∈ admitted, ∃ record,
    before.records.get? branchId = some record ∧ record.state = .queued) :
    PollInv before admitted schedule [] { manager := before, waiting := admitted } :=
  { frame := ⟨fun _ _ => rfl, fun _ => rfl, List.nodup_nil⟩
    waiting_nodup := hnodup
    waiting := fun branchId hmem => ⟨hmem, List.not_mem_nil, hqueued branchId hmem⟩
    workers := List.nodup_nil
    requests := List.nodup_nil
    running := fun slot hmem => by cases hmem
    numbered := fun pair hmem => by cases hmem
    sent_requests := List.nodup_nil
    accounted := fun branchId hmem => .inl hmem }

end Admitted

/-!
### Runs

The invariant is kept by every event, and a fair schedule ends the poll.
-/

section Runs

variable (digests : Digests κ)

theorem pollSound_start (hinv : PollInv before admitted schedule []
    { manager := before, waiting := admitted }) :
    PollSound before admitted schedule [] (pollStart digests schedule admitted before) := by
  have hdispatch := hinv.dispatchAvailable digests
  unfold pollStart
  generalize BranchManager.dispatchAvailable digests schedule
    { manager := before, waiting := admitted } =
    outcome at hdispatch
  rcases outcome with ⟨next, exc | filled⟩
  · exact hdispatch.inv.frame.abandon exc
  · exact (hdispatch.inv.loopHead digests).1

/-- A poll is sound after any answers. -/
theorem pollSound (hinv : PollInv before admitted schedule []
    { manager := before, waiting := admitted }) (events : List (PollEvent κ β)) :
    PollSound before admitted schedule events
      (Run.final (pollStep digests schedule admitted) (pollStart digests schedule admitted before)
        events) := by
  induction events using List.reverseRecOn with
  | nil => exact pollSound_start digests hinv
  | append_singleton events event ih =>
      rw [Run.final_concat]
      exact (ih.step digests event).1

/-- Every outstanding request ends in a result or in its deadline passing. -/
def PollFair (schedule : PollSchedule) (admitted : List String) (before : BranchManager κ β)
    (stream : Nat → PollEvent κ β) : Prop :=
  ∀ n slot, Awaits (Run.after (pollStep digests schedule admitted)
    (pollStart digests schedule admitted before) stream n) slot →
      ∃ m, n ≤ m ∧ EndsRow slot (stream m)

/-- A poll is sound after any answers, and ends when every request does. -/
theorem poll_exactly_once (before : BranchManager κ β) (schedule : PollSchedule)
    (branchIds : Option (List String)) (admitted : List String)
    (hadmits : before.admitPolled schedule.timeout branchIds = .ok admitted) :
    (∀ events, PollSound before admitted schedule events
      (Run.final (pollStep digests schedule admitted) (pollStart digests schedule admitted before)
        events)) ∧
    ∀ stream, PollFair digests schedule admitted before stream → ∃ n,
      (Run.after (pollStep digests schedule admitted) (pollStart digests schedule admitted before)
        stream n).Ended := by
  rcases admit_eq_ok schedule.timeout branchIds hadmits with ⟨hnodup, hqueued⟩
  have hinv := pollInv_start schedule hnodup hqueued
  refine ⟨pollSound digests hinv, fun stream hfair => ?_⟩
  refine Run.eventually_of_fair (pollStep digests schedule admitted) PollPhase.Ended
    (fun phase => ∃ events, PollSound before admitted schedule events phase) phaseMeasure Awaits
    EndsRow ?_ ?_ ?_ _ ⟨[], pollSound_start digests hinv⟩ stream hfair
  · rintro phase ⟨events, hsound⟩ hgoes
    cases phase with
    | polling st =>
        rcases List.exists_mem_of_ne_nil st.running hsound.2 with ⟨slot, hslot⟩
        exact ⟨slot, hslot⟩
    | returned st => exact absurd trivial hgoes
    | raised st exc => exact absurd trivial hgoes
  · rintro phase event ⟨events, hsound⟩
    exact ⟨events ++ [event], (hsound.step digests event).1⟩
  · rintro phase event slot ⟨events, hsound⟩ hawaits hgoes
    exact (hsound.step digests event).2 slot hawaits hgoes

end Runs

section QueuedChild

/-- A digest that is the same for everything. -/
def kindOnlyDigests : Digests Unit where
  canonicalSnapshot := fun _ => .null
  sha256Hex := fun _ => ""

/-- Ending the turn. -/
def endTurnItem : WorkItem Unit Unit where
  workId := "end_turn"
  decisionContext := strikeContext
  candidate :=
    { currentContextSignature := strikeSignature, semanticAction := ⟨"system", "end_turn"⟩ }
  contextId := "root"
  workKind := .subBranch
  arrival := rfl

/-- A branch and its registered child, both queued. -/
def parentAndChild : BranchManager Unit Unit :=
  ((({ pool := BranchWorkerPool.start 1 Nat.one_pos } : BranchManager Unit Unit).submitMany
    [(endTurnItem, none)]).1.submitMany [(endTurnItem, some "branch-1")]).1

/-- A schedule under which no request can be sent. -/
def brokenPipe : PollSchedule where
  timeout := 120
  submittedAt := fun _ => 0
  dispatchRaises := fun _ => some (.runtimeError "broken pipe")

/-- A schedule under which every request is sent. -/
def promptSchedule : PollSchedule where
  timeout := 120
  submittedAt := fun _ => 0
  dispatchRaises := fun _ => none

theorem poll_exactly_once_parent :
    (∀ events, PollSound parentAndChild ["branch-1"] promptSchedule events
      (Run.final (pollStep kindOnlyDigests promptSchedule ["branch-1"])
        (pollStart kindOnlyDigests promptSchedule ["branch-1"] parentAndChild) events)) ∧
    ∀ stream, PollFair kindOnlyDigests promptSchedule ["branch-1"] parentAndChild stream → ∃ n,
      (Run.after (pollStep kindOnlyDigests promptSchedule ["branch-1"])
        (pollStart kindOnlyDigests promptSchedule ["branch-1"] parentAndChild) stream n).Ended :=
  poll_exactly_once kindOnlyDigests parentAndChild promptSchedule (some ["branch-1"]) ["branch-1"]
    (by rfl)

/-- A poll of the parent alone that raises cancels the child. -/
theorem poll_cancels_child :
    ∃ st exc record record', parentAndChild.admitPolled brokenPipe.timeout (some ["branch-1"]) =
        .ok ["branch-1"] ∧
      pollStart kindOnlyDigests brokenPipe ["branch-1"] parentAndChild = .raised st exc ∧
      parentAndChild.records.get? "branch-2" = some record ∧
      st.manager.records.get? "branch-2" = some record' ∧
      record.state = .queued ∧ record'.state = .cancelled :=
  ⟨_, _, _, _, rfl, rfl, rfl, rfl, rfl, rfl⟩

end QueuedChild

end BranchManager

end Combat

end STS2RL
