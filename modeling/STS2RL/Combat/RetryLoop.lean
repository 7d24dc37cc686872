import STS2RL.Combat.BranchResult

/-!
# The Retry Loop

`_dispatch_work_items_until_final`: dispatch a batch, and dispatch again what
failed and may be retried, until every item is final.

The loop keeps its accounts in tables keyed by work id (attempts, results,
states) and its work in lists of items. As long as the ids of a batch are
distinct the two agree. The dispatcher is a parameter, a function of the round
and the pending list; `Schedule` is the one that answers from a fixed table of
results, in any order of arrival. The number of rounds is bounded by the source
itself, so the recursion is on the rounds left.

`LoopState.executed` records what was dispatched and how it ended. No decision
reads it.

## Main definitions

* `LoopState`: The tables of the loop.
* `settleItem`, `settleBatch`: One result, and the results of one dispatch.
* `dispatchUntilFinal`: The loop.
* `Schedule`: Which result every request gets, and in which order they arrive.

## Theorems

* `Schedule.dispatch_eq`: With distinct ids every item gets its own result.
-/

namespace STS2RL

namespace Combat

variable {κ β : Type}

/-- One item of the output: the item, its last result, and its final state. -/
structure FinalEntry (κ β : Type) where
  item : WorkItem κ β
  result : BranchResult κ β
  state : WorkItemState

/-- The tables of the loop, and the executions so far. -/
structure LoopState (κ β : Type) where
  attempts : Dict String WorkItemAttempt
  finalResults : Dict String (BranchResult κ β)
  finalStates : Dict String WorkItemState
  executed : List (String × BranchResult κ β)

/-- The attempt after a success. -/
def WorkItemAttempt.succeeded (attempt : WorkItemAttempt) (result : BranchResult κ β) :
    WorkItemAttempt :=
  match result.workerGeneration with
  | some (generation + 1) =>
      { attempt with
        state := .finalSuccess
        workerGeneration := generation + 1
        workerGeneration_pos := Nat.le_add_left 1 generation }
  | some 0 => { attempt with state := .finalSuccess }
  | none => { attempt with state := .finalSuccess }

/-- The attempt after a fault that was decided. -/
def WorkItemAttempt.decided (attempt : WorkItemAttempt) (retry : RetryDecision) :
    WorkItemAttempt :=
  { attempt with
    attemptCount := retry.attemptCount
    state := retry.nextState
    workerGeneration := retry.workerGeneration
    workerGeneration_pos := retry.workerGeneration_pos }

/-- An item has ended. -/
def LoopState.finish (st : LoopState κ β) (workId : String) (result : BranchResult κ β)
    (state : WorkItemState) : LoopState κ β :=
  { st with
    finalResults := st.finalResults.set workId result
    finalStates := st.finalStates.set workId state }

/-- Account for one result. The flag says whether the item is to be retried. -/
def settleItem (maxRetries : Int) (st : LoopState κ β) (item : WorkItem κ β)
    (result : BranchResult κ β) : Except PyException (LoopState κ β × Bool) :=
  match st.attempts.get? item.workId with
  | none => .error ⟨"KeyError", item.workId⟩
  | some attempt =>
      match result.status with
      | .success =>
          .ok (LoopState.finish
            { st with attempts := st.attempts.set item.workId (attempt.succeeded result) }
            item.workId result .finalSuccess, false)
      | .fault => do
          let kind ← classifyFault result.diagnostics
          let retry ← decideRetry attempt kind maxRetries
          let st := { st with attempts := st.attempts.set item.workId (attempt.decided retry) }
          if retry.shouldRetry then pure (st, true)
          else pure (st.finish item.workId result .finalFault, false)

/-- Account for the results of one dispatch, in order; the items to retry are
    looked up by id. -/
def settleBatch (byWorkId : Dict String (WorkItem κ β)) (maxRetries : Int) :
    LoopState κ β → List (WorkItem κ β × BranchResult κ β) →
      Except PyException (LoopState κ β × List (WorkItem κ β))
  | st, [] => pure (st, [])
  | st, (item, result) :: rest => do
      let (st, again) ← settleItem maxRetries st item result
      let (st, retryNextRound) ← settleBatch byWorkId maxRetries st rest
      pure (st, if again then (byWorkId.get? item.workId).toList ++ retryNextRound
        else retryNextRound)

/-- What executes a pending list in a round. -/
abbrev Dispatch (κ β : Type) :=
  Nat → List (WorkItem κ β) → Except PyException (List (BranchResult κ β))

/-- A round of attempts was made. -/
def LoopState.record (st : LoopState κ β) (pending : List (WorkItem κ β))
    (results : List (BranchResult κ β)) : LoopState κ β :=
  { st with
    executed := st.executed ++ (pending.zip results).map fun pair => (pair.1.workId, pair.2) }

/-- The loop with `fuel` rounds left. -/
def retryRounds (dispatch : Dispatch κ β) (byWorkId : Dict String (WorkItem κ β))
    (maxRetries : Int) : Nat → Nat → LoopState κ β → List (WorkItem κ β) →
      Except PyException (LoopState κ β)
  | _, _, st, [] => pure st
  | 0, _, _, _ :: _ =>
      .error (.runtimeError "SearchCoordinator retry loop exceeded defensive round cap")
  | fuel + 1, round, st, item :: rest => do
      let pending := item :: rest
      let results ← dispatch round pending
      if results.length ≠ pending.length then
        .error (.runtimeError "dispatch_work_items returned the wrong number of results")
      else
        let (st, retryNextRound) ← settleBatch byWorkId maxRetries (st.record pending results)
          (pending.zip results)
        retryRounds dispatch byWorkId maxRetries fuel (round + 1) st retryNextRound

/-- The tables before the first round. -/
def LoopState.initial (items : List (WorkItem κ β)) : LoopState κ β :=
  { attempts := Dict.empty.setAll
      (items.map fun item => (item.workId, { workId := item.workId }))
    finalResults := Dict.empty
    finalStates := Dict.empty
    executed := [] }

/-- The items by work id; of two with one id the later stays. -/
def itemsById (items : List (WorkItem κ β)) : Dict String (WorkItem κ β) :=
  Dict.empty.setAll (items.map fun item => (item.workId, item))

/-- The output, read from the tables. -/
def finalEntries (st : LoopState κ β) (items : List (WorkItem κ β)) :
    Except PyException (List (FinalEntry κ β)) :=
  items.mapM fun item =>
    match st.finalResults.get? item.workId, st.finalStates.get? item.workId with
    | some result, some state => .ok ⟨item, result, state⟩
    | _, _ => .error ⟨"KeyError", item.workId⟩

/-- The output has an entry for each item, with what the tables hold of its id. -/
theorem finalEntries_eq_ok (st : LoopState κ β) (items : List (WorkItem κ β))
    (entries : List (FinalEntry κ β)) (h : finalEntries st items = .ok entries) :
    entries.map (·.item) = items ∧
      ∀ entry ∈ entries, st.finalResults.get? entry.item.workId = some entry.result ∧
        st.finalStates.get? entry.item.workId = some entry.state := by
  have hitem : ∀ item entry, (match st.finalResults.get? item.workId,
      st.finalStates.get? item.workId with
      | some result, some state => (.ok ⟨item, result, state⟩ : Except PyException (FinalEntry κ β))
      | _, _ => .error ⟨"KeyError", item.workId⟩) = .ok entry →
      entry.item = item ∧ st.finalResults.get? item.workId = some entry.result ∧
        st.finalStates.get? item.workId = some entry.state := by
    intro item entry hentry
    split at hentry
    · rename_i result state hresult hstate
      cases hentry
      exact ⟨rfl, hresult, hstate⟩
    · cases hentry
  refine ⟨?_, ?_⟩
  · rw [Except.mapM_map_eq _ (·.item) id items entries h fun item entry hentry =>
      (hitem item entry hentry).1, List.map_id]
  · intro entry hentry
    rcases Except.exists_of_mem_mapM _ _ _ h entry hentry with ⟨item, -, heq⟩
    rcases hitem item entry heq with ⟨hsame, hresult, hstate⟩
    rw [hsame]
    exact ⟨hresult, hstate⟩

/-- `_dispatch_work_items_until_final`, with what it executed. -/
def dispatchUntilFinal (dispatch : Dispatch κ β) (maxRetries : Int)
    (items : List (WorkItem κ β)) :
    Except PyException (List (FinalEntry κ β) × List (String × BranchResult κ β)) := do
  let st ← retryRounds dispatch (itemsById items) maxRetries (maxRetries + 2).toNat 0
    (LoopState.initial items) items
  let entries ← finalEntries st items
  pure (entries, st.executed)

/-- Which result every request of every round gets, and in which order the
    results of a round arrive. Every fault is one the taxonomy knows. -/
structure Schedule (κ β : Type) where
  result : (round request : Nat) → BranchResult κ β
  arrival : (round size : Nat) → List Nat
  arrival_perm : ∀ round size, (arrival round size).Perm (List.range size)
  classified : ∀ round request, (result round request).status = .fault →
    ∃ kind, classifyFault (result round request).diagnostics = .ok kind

namespace Schedule

/-- The results by work id: a later arrival replaces an earlier one. -/
def resultsById (schedule : Schedule κ β) (round : Nat) (pending : List (WorkItem κ β)) :
    Dict String (BranchResult κ β) :=
  Dict.empty.setAll <| (schedule.arrival round pending.length).filterMap fun request =>
    pending[request]?.map fun item => (item.workId, schedule.result round request)

/-- `dispatch_work_items` under the schedule. -/
def dispatch (schedule : Schedule κ β) : Dispatch κ β := fun round pending =>
  pending.mapM fun item =>
    match (schedule.resultsById round pending).get? item.workId with
    | some result => .ok result
    | none => .error ⟨"KeyError", item.workId⟩

/-- With distinct ids every item gets the result of its own request. -/
theorem dispatch_eq (schedule : Schedule κ β) (round : Nat) (pending : List (WorkItem κ β))
    (hnodup : (pending.map (·.workId)).Nodup) :
    schedule.dispatch round pending =
      .ok ((List.range pending.length).map (schedule.result round)) := by
  refine Except.mapM_eq_ok_range _ pending _ fun i item hitem => ?_
  have hlt : i < pending.length := (List.getElem?_eq_some_iff.mp hitem).1
  have hlookup : (schedule.resultsById round pending).get? item.workId =
      some (schedule.result round i) := by
    refine Dict.get?_setAll_of_mem _ _ _ ?_ ?_ _
    · refine List.mem_filterMap.mpr ⟨i, ?_, by rw [hitem]; rfl⟩
      exact (schedule.arrival_perm round pending.length).mem_iff.mpr (List.mem_range.mpr hlt)
    · intro result hresult
      obtain ⟨j, -, hj⟩ := List.mem_filterMap.mp hresult
      cases hother : pending[j]? with
      | none => simp [hother] at hj
      | some other =>
          simp only [hother, Option.map_some, Option.some.injEq, Prod.mk.injEq] at hj
          -- The two requests are for one work id, so they are one request.
          have hji : j = i := by
            have hltj : j < (pending.map (·.workId)).length := by
              rw [List.length_map]
              exact (List.getElem?_eq_some_iff.mp hother).1
            refine (List.getElem?_inj hltj hnodup).mp ?_
            rw [List.getElem?_map, List.getElem?_map, hother, hitem, Option.map_some,
              Option.map_some, hj.1]
          rw [← hj.2, hji]
  rw [hlookup]

end Schedule

end Combat

end STS2RL
