import STS2RL.Combat.RetryLoop
import Mathlib.Data.List.Sublists

/-!
# The Law of the Retry Loop

What the retry loop owes its caller: it ends without raising, gives one final
entry for each item, executes no item more than once beyond its retries, and
reports success exactly for the items whose last execution succeeded.

The loop keeps this law for every schedule of results as long as the ids of the
batch are distinct. An id that occurs twice is decided twice in a round, so its
attempt count runs ahead of its executions; once its record is final a copy that
is still pending is decided again, and that raises.

`Progress` is the invariant of the first half: after `round` rounds every
pending item has failed `round` times, and every other item is final. `Doomed`
is the invariant of the second: as long as a repeated id fails, either it is
undecided and pending twice, or it is final and still pending.

## Main definitions

* `RetryLaw`: What the loop owes its caller.
* `Progress`: The invariant of a batch with distinct ids.
* `Doomed`: The invariant of a repeated id that keeps failing.

## Theorems

* `settleBatch_ok`: One round over distinct open items.
* `progress_step`: A round keeps `Progress`.
* `doomed_raises`: A repeated id that keeps failing makes the loop raise.
* `retryLaw_iff`: Exactly when the loop keeps its law under every schedule.
-/

namespace STS2RL

namespace Combat

variable {κ β : Type}

/-- The results of the executions of an id, in order. -/
def executions (executed : List (String × BranchResult κ β)) (workId : String) :
    List (BranchResult κ β) :=
  (executed.filter fun execution => execution.1 = workId).map (·.2)

/-- What the loop owes its caller. An id that several items share may be
    executed once for each of them in every attempt. -/
def RetryLaw (maxRetries : Int) (items : List (WorkItem κ β))
    (outcome : Except PyException (List (FinalEntry κ β) × List (String × BranchResult κ β))) :
    Prop :=
  ∃ entries executed, outcome = .ok (entries, executed) ∧
    entries.map (·.item) = items ∧
    (∀ item ∈ items, ((executions executed item.workId).length : Int) ≤
      (maxRetries + 1) * (items.map (·.workId)).count item.workId) ∧
    ∀ entry ∈ entries, entry.state.isFinal = true ∧
      (executions executed entry.item.workId).getLast? = some entry.result ∧
      (entry.state = .finalSuccess ↔ entry.result.status = .success)

/-!
### Settling a round

Each item of a round ends with a result or is retried, and nothing is recorded twice.
-/

section Settle

/-- The item has failed `round` times and may be executed again. -/
def Open (st : LoopState κ β) (round : Nat) (item : WorkItem κ β) : Prop :=
  ∃ attempt, st.attempts.get? item.workId = some attempt ∧ attempt.state.isFinal = false ∧
    attempt.attemptCount = round

/-- The item is final with this result. -/
def Settled (st : LoopState κ β) (workId : String) (result : BranchResult κ β) : Prop :=
  st.finalResults.get? workId = some result ∧
    ∃ state, st.finalStates.get? workId = some state ∧ state.isFinal = true ∧
      (state = .finalSuccess ↔ result.status = .success)

/-- The two states have the same records under an id. -/
def SameRecords (st st' : LoopState κ β) (workId : String) : Prop :=
  st'.attempts.get? workId = st.attempts.get? workId ∧
    st'.finalResults.get? workId = st.finalResults.get? workId ∧
    st'.finalStates.get? workId = st.finalStates.get? workId

theorem SameRecords.open {st st' : LoopState κ β} {round : Nat} {item : WorkItem κ β}
    (h : SameRecords st st' item.workId) (hopen : Open st round item) : Open st' round item := by
  unfold Open
  rw [h.1]
  exact hopen

theorem SameRecords.settled {st st' : LoopState κ β} {workId : String}
    {result : BranchResult κ β} (h : SameRecords st st' workId)
    (hsettled : Settled st workId result) : Settled st' workId result := by
  unfold Settled
  rw [h.2.1, h.2.2]
  exact hsettled

theorem SameRecords.trans {st st' st'' : LoopState κ β} {workId : String}
    (h : SameRecords st st' workId) (h' : SameRecords st' st'' workId) :
    SameRecords st st'' workId :=
  ⟨h'.1.trans h.1, h'.2.1.trans h.2.1, h'.2.2.trans h.2.2⟩

/-- Whether a result of the round after `round` failures is retried. -/
def retried (maxRetries : Int) (round : Nat) (result : BranchResult κ β) : Bool :=
  result.status = .fault ∧ ((round + 1 : Nat) : Int) ≤ maxRetries

/-- A fault is one the taxonomy knows. -/
def Classified (result : BranchResult κ β) : Prop :=
  result.status = .fault → ∃ kind, classifyFault result.diagnostics = .ok kind

/-- One result of an open item. -/
theorem settleItem_ok (maxRetries : Int) (round : Nat) (st : LoopState κ β)
    (item : WorkItem κ β) (result : BranchResult κ β) (hbudget : 0 ≤ maxRetries)
    (hopen : Open st round item) (hclass : Classified result) :
    ∃ st', settleItem maxRetries st item result = .ok (st', retried maxRetries round result) ∧
      st'.executed = st.executed ∧
      (∀ workId, workId ≠ item.workId → SameRecords st st' workId) ∧
      (retried maxRetries round result = true → Open st' (round + 1) item) ∧
      (retried maxRetries round result = false → Settled st' item.workId result) := by
  obtain ⟨attempt, hget, hstate, hcount⟩ := hopen
  unfold settleItem
  rw [hget]
  dsimp only
  -- A success settles the item. A fault settles it or not, as the budget says.
  cases hstatus : result.status with
  | success =>
      have hret : retried maxRetries round result = false := by
        simp [retried, hstatus]
      rw [hret]
      refine ⟨_, rfl, rfl, fun workId hne => ?_, (fun h => by cases h), fun _ => ?_⟩
      · exact ⟨Dict.get?_set_ne _ _ hne, Dict.get?_set_ne _ _ hne, Dict.get?_set_ne _ _ hne⟩
      · refine ⟨Dict.get?_set_self _ _ _, .finalSuccess, Dict.get?_set_self _ _ _, rfl, ?_⟩
        simp [hstatus]
  | fault =>
      -- The fault has a kind, and its kind does not matter to whether it is retried.
      obtain ⟨kind, hkind⟩ := hclass hstatus
      have hdecide := decideRetry_eq_ok attempt kind maxRetries hbudget hstate
      have hshould : (retryDecision attempt kind maxRetries).shouldRetry =
          retried maxRetries round result := by
        simp [retryDecision, retried, hstatus, hcount]
      rw [hkind]
      dsimp only [bind, Except.bind]
      rw [hdecide]
      dsimp only
      rw [hshould]
      cases hret : retried maxRetries round result with
      -- It is tried again: the attempt is counted, and nothing is recorded.
      | true =>
          refine ⟨_, rfl, rfl, fun workId hne => ⟨Dict.get?_set_ne _ _ hne, rfl, rfl⟩,
            fun _ => ?_, (fun h => by cases h)⟩
          refine ⟨_, Dict.get?_set_self _ _ _, ?_, ?_⟩
          · rw [← hshould] at hret
            simp only [WorkItemAttempt.decided, retryDecision] at hret ⊢
            rw [if_pos hret]
            rfl
          · simp [WorkItemAttempt.decided, retryDecision, hcount]
      -- The budget is used up: the fault is the result.
      | false =>
          refine ⟨_, rfl, rfl, fun workId hne => ?_, (fun h => by cases h), fun _ => ?_⟩
          · exact ⟨Dict.get?_set_ne _ _ hne, Dict.get?_set_ne _ _ hne, Dict.get?_set_ne _ _ hne⟩
          · refine ⟨Dict.get?_set_self _ _ _, .finalFault, Dict.get?_set_self _ _ _, rfl, ?_⟩
            simp [hstatus]

/-- One round over distinct open items: each is retried or settled by its own
    result, and nothing else changes. -/
theorem settleBatch_ok (byWorkId : Dict String (WorkItem κ β)) (maxRetries : Int) (round : Nat)
    (hbudget : 0 ≤ maxRetries) (pairs : List (WorkItem κ β × BranchResult κ β)) :
    ∀ (st : LoopState κ β), (pairs.map (·.1.workId)).Nodup →
      (∀ pair ∈ pairs, Open st round pair.1) → (∀ pair ∈ pairs, Classified pair.2) →
      (∀ pair ∈ pairs, byWorkId.get? pair.1.workId = some pair.1) →
      ∃ st', settleBatch byWorkId maxRetries st pairs =
          .ok (st', (pairs.filter fun pair => retried maxRetries round pair.2).map (·.1)) ∧
        st'.executed = st.executed ∧
        (∀ workId, workId ∉ pairs.map (·.1.workId) → SameRecords st st' workId) ∧
        (∀ pair ∈ pairs, retried maxRetries round pair.2 = true → Open st' (round + 1) pair.1) ∧
        (∀ pair ∈ pairs, retried maxRetries round pair.2 = false →
          Settled st' pair.1.workId pair.2) := by
  induction pairs with
  | nil =>
      intro st _ _ _ _
      refine ⟨st, rfl, rfl, fun _ _ => ⟨rfl, rfl, rfl⟩, ?_, ?_⟩ <;> intro pair hmem <;> cases hmem
  | cons pair rest ih =>
      intro st hnodup hopen hclass hby
      rw [List.map_cons, List.nodup_cons] at hnodup
      obtain ⟨st₁, hitem, hexec₁, hsame₁, hretry₁, hsettle₁⟩ :=
        settleItem_ok maxRetries round st pair.1 pair.2 hbudget
          (hopen pair List.mem_cons_self) (hclass pair List.mem_cons_self)
      -- The later items have other ids, so they are still open.
      have hne : ∀ other ∈ rest, other.1.workId ≠ pair.1.workId := by
        intro other hother heq
        exact hnodup.1 (List.mem_map.mpr ⟨other, hother, heq⟩)
      obtain ⟨st₂, hbatch, hexec₂, hsame₂, hretry₂, hsettle₂⟩ := ih st₁ hnodup.2
        (fun other hother => (hsame₁ _ (hne other hother)).open
          (hopen other (List.mem_cons_of_mem pair hother)))
        (fun other hother => hclass other (List.mem_cons_of_mem pair hother))
        (fun other hother => hby other (List.mem_cons_of_mem pair hother))
      have hhead : SameRecords st₁ st₂ pair.1.workId := hsame₂ _ hnodup.1
      refine ⟨st₂, ?_, hexec₂.trans hexec₁, ?_, ?_, ?_⟩
      · unfold settleBatch
        rw [hitem]
        dsimp only [bind, Except.bind]
        rw [hbatch]
        dsimp only
        rw [hby pair List.mem_cons_self, List.filter_cons]
        cases retried maxRetries round pair.2 <;> rfl
      · intro workId hnot
        rw [List.map_cons, List.mem_cons, not_or] at hnot
        exact (hsame₁ workId hnot.1).trans (hsame₂ workId hnot.2)
      · intro other hother hret
        rcases List.mem_cons.mp hother with rfl | hrest
        · exact hhead.open (hretry₁ hret)
        · exact hretry₂ other hrest hret
      · intro other hother hret
        rcases List.mem_cons.mp hother with rfl | hrest
        · exact hhead.settled (hsettle₁ hret)
        · exact hsettle₂ other hrest hret

end Settle

/-!
### Progress

What the rounds so far have executed of each item, and how many retries it has left.
-/

section Progress

theorem executions_append (xs ys : List (String × BranchResult κ β)) (workId : String) :
    executions (xs ++ ys) workId = executions xs workId ++ executions ys workId := by
  simp [executions]

/-- What one dispatch adds to the executions. -/
def recorded (pairs : List (WorkItem κ β × BranchResult κ β)) :
    List (String × BranchResult κ β) :=
  pairs.map fun pair => (pair.1.workId, pair.2)

theorem executions_recorded_of_not_mem (pairs : List (WorkItem κ β × BranchResult κ β))
    (workId : String) (hnot : workId ∉ pairs.map (·.1.workId)) :
    executions (recorded pairs) workId = [] := by
  unfold executions recorded
  rw [List.map_eq_nil_iff, List.filter_eq_nil_iff]
  intro execution hmem
  obtain ⟨pair, hpair, rfl⟩ := List.mem_map.mp hmem
  intro heq
  exact hnot (List.mem_map.mpr ⟨pair, hpair, of_decide_eq_true heq⟩)

/-- Where the ids are distinct, one dispatch executes each of them once. -/
theorem executions_recorded_of_mem (pairs : List (WorkItem κ β × BranchResult κ β))
    (hnodup : (pairs.map (·.1.workId)).Nodup) (pair : WorkItem κ β × BranchResult κ β)
    (hmem : pair ∈ pairs) : executions (recorded pairs) pair.1.workId = [pair.2] := by
  induction pairs with
  | nil => cases hmem
  | cons head rest ih =>
      rw [List.map_cons, List.nodup_cons] at hnodup
      have hsplit : executions (recorded (head :: rest)) pair.1.workId =
          executions (recorded [head]) pair.1.workId ++
            executions (recorded rest) pair.1.workId :=
        executions_append (recorded [head]) (recorded rest) pair.1.workId
      rw [hsplit]
      rcases List.mem_cons.mp hmem with rfl | hrest
      · rw [executions_recorded_of_not_mem rest _ hnodup.1]
        simp [executions, recorded]
      · have hne : head.1.workId ≠ pair.1.workId := fun heq =>
          hnodup.1 (heq ▸ List.mem_map_of_mem hrest)
        rw [ih hnodup.2 hrest]
        simp [executions, recorded, hne]

/-- After `round` rounds every pending item has failed `round` times and may be
    executed again, and every other item is final with its last result. -/
structure Progress (items : List (WorkItem κ β)) (maxRetries : Int) (round : Nat)
    (st : LoopState κ β) (pending : List (WorkItem κ β)) : Prop where
  sublist : pending.Sublist items
  cap : (round : Int) ≤ maxRetries + 1
  budget : pending ≠ [] → (round : Int) ≤ maxRetries
  isOpen : ∀ item ∈ pending, Open st round item
  settled : ∀ item ∈ items, item.workId ∉ pending.map (·.workId) → ∃ result,
    Settled st item.workId result ∧
      (executions st.executed item.workId).getLast? = some result
  executed_le : ∀ workId, (executions st.executed workId).length ≤ round

theorem itemsById_get? (items : List (WorkItem κ β)) (hnodup : (items.map (·.workId)).Nodup)
    (item : WorkItem κ β) (hmem : item ∈ items) :
    (itemsById items).get? item.workId = some item := by
  apply Dict.get?_setAll_of_mem
  · exact List.mem_map.mpr ⟨item, hmem, rfl⟩
  · intro other hother
    obtain ⟨other', hmem', heq⟩ := List.mem_map.mp hother
    rw [Prod.mk.injEq] at heq
    rw [← heq.2]
    exact List.inj_on_of_nodup_map hnodup hmem' hmem heq.1

/-- Before the first round nothing was executed. -/
theorem progress_initial (items : List (WorkItem κ β)) (maxRetries : Int)
    (hbudget : 0 ≤ maxRetries) : Progress items maxRetries 0 (LoopState.initial items) items where
  sublist := List.Sublist.refl items
  cap := by omega
  budget := fun _ => by omega
  isOpen := by
    intro item hmem
    refine ⟨{ workId := item.workId }, ?_, rfl, rfl⟩
    apply Dict.get?_setAll_of_mem
    · exact List.mem_map.mpr ⟨item, hmem, rfl⟩
    · intro attempt hattempt
      obtain ⟨other, -, heq⟩ := List.mem_map.mp hattempt
      rw [Prod.mk.injEq] at heq
      rw [← heq.2]
      simp only [heq.1]
  settled := fun item hmem hnot => absurd (List.mem_map_of_mem hmem) hnot
  executed_le := fun workId => by simp [LoopState.initial, executions]

/-- A round keeps `Progress`. -/
theorem progress_step (items : List (WorkItem κ β)) (maxRetries : Int) (round : Nat)
    (st : LoopState κ β) (pending : List (WorkItem κ β)) (results : List (BranchResult κ β))
    (hnodup : (items.map (·.workId)).Nodup) (hprogress : Progress items maxRetries round st pending)
    (hne : pending ≠ []) (hlength : results.length = pending.length)
    (hclass : ∀ result ∈ results, Classified result) :
    ∃ st' next, settleBatch (itemsById items) maxRetries (st.record pending results)
        (pending.zip results) = .ok (st', next) ∧
      Progress items maxRetries (round + 1) st' next := by
  have hround := hprogress.budget hne
  have hfst : (pending.zip results).map (·.1) = pending :=
    List.map_fst_zip (by omega)
  have hids : (pending.zip results).map (·.1.workId) = pending.map (·.workId) := by
    rw [← hfst, List.map_map, hfst]
    rfl
  have hpnodup : (pending.map (·.workId)).Nodup := (hprogress.sublist.map _).nodup hnodup
  have hmem : ∀ pair ∈ pending.zip results, pair.1 ∈ pending := fun pair hpair =>
    (List.of_mem_zip hpair).1
  obtain ⟨st', hbatch, hexec, hsame, hretry, hsettle⟩ :=
    settleBatch_ok (itemsById items) maxRetries round (by omega) (pending.zip results)
      (st.record pending results) (hids ▸ hpnodup)
      (fun pair hpair => hprogress.isOpen pair.1 (hmem pair hpair))
      (fun pair hpair => hclass pair.2 (List.of_mem_zip hpair).2)
      (fun pair hpair => itemsById_get? items hnodup pair.1
        (hprogress.sublist.subset (hmem pair hpair)))
  -- A round adds one execution for each item that was pending.
  have hrecord : st'.executed = st.executed ++ recorded (pending.zip results) := hexec
  -- So to each item at most one is added.
  have hcount : ∀ workId, (executions (recorded (pending.zip results)) workId).length ≤ 1 := by
    intro workId
    by_cases hin : workId ∈ (pending.zip results).map (·.1.workId)
    · obtain ⟨pair, hpair, rfl⟩ := List.mem_map.mp hin
      rw [executions_recorded_of_mem _ (hids ▸ hpnodup) pair hpair, List.length_singleton]
    · rw [executions_recorded_of_not_mem _ workId hin]
      exact Nat.zero_le 1
  -- What is pending next is a sublist of what was, and everything else follows from that.
  refine ⟨st', _, hbatch, ?_, ?_, ?_, ?_, ?_, ?_⟩
  · have hsub : ((pending.zip results).filter fun pair =>
        retried maxRetries round pair.2).map (·.1) |>.Sublist pending := by
      conv_rhs => rw [← hfst]
      exact List.filter_sublist.map _
    exact hsub.trans hprogress.sublist
  · push_cast
    omega
  · intro hnext
    obtain ⟨item, hitem⟩ := List.exists_mem_of_ne_nil _ hnext
    obtain ⟨pair, hpair, -⟩ := List.mem_map.mp hitem
    have hret := (List.mem_filter.mp hpair).2
    simp only [retried, decide_eq_true_eq, Bool.decide_and, Bool.and_eq_true] at hret
    exact hret.2
  · intro item hitem
    obtain ⟨pair, hpair, rfl⟩ := List.mem_map.mp hitem
    exact hretry pair (List.mem_filter.mp hpair).1 (List.mem_filter.mp hpair).2
  · intro item hitem hnot
    -- An item that is not pending next was settled now or earlier.
    by_cases hpending : item.workId ∈ pending.map (·.workId)
    · -- The item was pending in this round and is not any more.
      rw [← hids] at hpending
      obtain ⟨pair, hpair, heq⟩ := List.mem_map.mp hpending
      have hfinal : retried maxRetries round pair.2 = false := by
        cases hret : retried maxRetries round pair.2 with
        | false => rfl
        | true =>
            refine absurd ?_ hnot
            rw [← heq]
            exact List.mem_map_of_mem (List.mem_map_of_mem (List.mem_filter.mpr ⟨hpair, hret⟩))
      refine ⟨pair.2, heq ▸ hsettle pair hpair hfinal, ?_⟩
      rw [hrecord, executions_append, ← heq,
        executions_recorded_of_mem _ (hids ▸ hpnodup) pair hpair]
      exact List.getLast?_concat
    · obtain ⟨result, hsettled, hlast⟩ := hprogress.settled item hitem hpending
      rw [← hids] at hpending
      refine ⟨result, (hsame _ hpending).settled hsettled, ?_⟩
      rw [hrecord, executions_append, executions_recorded_of_not_mem _ _ hpending,
        List.append_nil]
      exact hlast
  -- Each item has been executed at most as often as there were rounds.
  · intro workId
    have hbefore := hprogress.executed_le workId
    have hadded := hcount workId
    rw [hrecord, executions_append, List.length_append]
    omega

/-- The dispatcher answers every request, and reports no fault the taxonomy does
    not know. -/
def Answers (dispatch : Dispatch κ β) : Prop :=
  ∀ round pending, (pending.map (·.workId)).Nodup → ∃ results,
    dispatch round pending = .ok results ∧ results.length = pending.length ∧
      ∀ result ∈ results, Classified result

theorem Schedule.answers (schedule : Schedule κ β) : Answers schedule.dispatch := by
  intro round pending hnodup
  refine ⟨_, schedule.dispatch_eq round pending hnodup, by simp, ?_⟩
  intro result hresult
  obtain ⟨request, -, rfl⟩ := List.mem_map.mp hresult
  exact schedule.classified round request

/-- With enough rounds left the loop ends with nothing pending. -/
theorem retryRounds_ok (dispatch : Dispatch κ β) (items : List (WorkItem κ β))
    (maxRetries : Int) (hnodup : (items.map (·.workId)).Nodup) (hanswers : Answers dispatch) :
    ∀ (fuel round : Nat) (st : LoopState κ β) (pending : List (WorkItem κ β)),
      Progress items maxRetries round st pending → maxRetries + 1 ≤ fuel + round →
      ∃ st' last, retryRounds dispatch (itemsById items) maxRetries fuel round st pending =
        .ok st' ∧ Progress items maxRetries last st' [] := by
  intro fuel
  -- The induction is on the fuel. A pending item has budget left, so fuel and round together
  -- bound the rounds.
  induction fuel with
  | zero =>
      intro round st pending hprogress hfuel
      cases pending with
      | nil => exact ⟨st, round, by simp [retryRounds, pure, Except.pure], hprogress⟩
      -- Without fuel the budget is used up, and nothing can be pending.
      | cons item rest =>
          have hround := hprogress.budget (List.cons_ne_nil item rest)
          exfalso
          omega
  | succ fuel ih =>
      intro round st pending hprogress hfuel
      cases pending with
      | nil => exact ⟨st, round, by simp [retryRounds, pure, Except.pure], hprogress⟩
      | cons item rest =>
          have hpnodup : ((item :: rest).map (·.workId)).Nodup :=
            (hprogress.sublist.map _).nodup hnodup
          -- The batch is answered in full, as the dispatch promises.
          obtain ⟨results, hdispatch, hlength, hclass⟩ := hanswers round (item :: rest) hpnodup
          -- One round makes progress, and the rest of the rounds do the rest.
          obtain ⟨st', next, hbatch, hnext⟩ := progress_step items maxRetries round st
            (item :: rest) results hnodup hprogress (List.cons_ne_nil item rest) hlength hclass
          obtain ⟨st'', last, hrest, hlast⟩ := ih (round + 1) st' next hnext (by
            push_cast at hfuel ⊢
            omega)
          refine ⟨st'', last, ?_, hlast⟩
          unfold retryRounds
          dsimp only [bind, Except.bind]
          rw [hdispatch]
          dsimp only
          rw [if_neg (not_not.mpr hlength), hbatch]
          exact hrest

/-- The loop keeps its law over distinct ids. -/
theorem retryLaw_of_nodup (dispatch : Dispatch κ β) (items : List (WorkItem κ β))
    (maxRetries : Int) (hnodup : (items.map (·.workId)).Nodup) (hanswers : Answers dispatch)
    (hbudget : 0 ≤ maxRetries) :
    RetryLaw maxRetries items (dispatchUntilFinal dispatch maxRetries items) := by
  -- The fuel is larger than the number of rounds that the budget allows.
  obtain ⟨st, last, hrounds, hlast⟩ := retryRounds_ok dispatch items maxRetries hnodup hanswers
    (maxRetries + 2).toNat 0 (LoopState.initial items) items
    (progress_initial items maxRetries hbudget) (by omega)
  -- In the end every item is settled, by the answer to its last execution.
  have hsettled : ∀ item ∈ items, ∃ result, Settled st item.workId result ∧
      (executions st.executed item.workId).getLast? = some result :=
    fun item hitem => hlast.settled item hitem (by simp)
  obtain ⟨entries, hentries⟩ : ∃ entries, finalEntries st items = .ok entries := by
    refine Except.mapM_isOk _ _ fun item hitem => ?_
    obtain ⟨result, ⟨hresult, state, hstate, -⟩, -⟩ := hsettled item hitem
    rw [hresult, hstate]
    exact ⟨_, rfl⟩
  refine ⟨entries, st.executed, ?_, ?_, ?_, ?_⟩
  · unfold dispatchUntilFinal
    rw [hrounds]
    dsimp only [bind, Except.bind]
    rw [hentries]
    rfl
  · exact (finalEntries_eq_ok st items entries hentries).1
  -- An item whose id is its own is counted once, so the bound is that on its executions.
  · intro item hitem
    have hcount : (items.map (·.workId)).count item.workId = 1 :=
      List.count_eq_one_of_mem hnodup (List.mem_map_of_mem hitem)
    have hexec := hlast.executed_le item.workId
    have hcap := hlast.cap
    rw [hcount]
    omega
  -- An entry's result and state are the ones in the tables.
  · intro entry hentry
    rcases finalEntries_eq_ok st items entries hentries with ⟨hitems, htables⟩
    rcases htables entry hentry with ⟨hresult, hstate⟩
    have hitem : entry.item ∈ items := hitems ▸ List.mem_map_of_mem hentry
    rcases hsettled entry.item hitem with
      ⟨result, ⟨hresult', state, hstate', hfinal, hiff⟩, hlastResult⟩
    rw [hresult, Option.some.injEq] at hresult'
    rw [hstate, Option.some.injEq] at hstate'
    rw [hresult', hstate']
    exact ⟨hfinal, hlastResult, hiff⟩

end Progress

/-!
### Items that cannot be told apart

Two items with one id in a batch: a schedule of faults under which the loop raises.
-/

section Doomed

/-- How many of the items have the id. -/
def copies (items : List (WorkItem κ β)) (workId : String) : Nat :=
  (items.map (·.workId)).count workId

/-- The id is undecided and still to be handled twice, or final and still to be
    handled: `left` counts what is left of it. -/
def Doomed (maxRetries : Int) (workId : String) (st : LoopState κ β) (left : Nat) : Prop :=
  ∃ attempt, st.attempts.get? workId = some attempt ∧
    ((attempt.state.isFinal = false ∧ (attempt.attemptCount : Int) ≤ maxRetries ∧ 2 ≤ left) ∨
      (attempt.state.isFinal = true ∧ 1 ≤ left))

/-- The fault every request of `alwaysFaults` ends in. -/
def mismatchFault : BranchResult κ β :=
  faultResult .bootstrapStep none none { faultKind := some FaultKind.replayMismatch.name }

/-- The schedule under which nothing succeeds. -/
def alwaysFaults : Schedule κ β where
  result := fun _ _ => mismatchFault
  arrival := fun _ size => List.range size
  arrival_perm := fun _ _ => List.Perm.refl _
  classified := fun _ _ _ => ⟨.replayMismatch, rfl⟩

/-- The schedule gives a fault to every item. -/
theorem alwaysFaults_dispatch (round : Nat) (pending : List (WorkItem κ β)) :
    alwaysFaults.dispatch round pending =
      .ok ((List.range pending.length).map fun _ => mismatchFault) := by
  refine Except.mapM_eq_ok_range _ pending _ fun i item hitem => ?_
  have hlt : i < pending.length := (List.getElem?_eq_some_iff.mp hitem).1
  have hlookup : (alwaysFaults.resultsById round pending).get? item.workId =
      some mismatchFault := by
    apply Dict.get?_setAll_of_mem
    · exact List.mem_filterMap.mpr ⟨i, List.mem_range.mpr hlt, by rw [hitem]; rfl⟩
    · intro result hresult
      rcases List.mem_filterMap.mp hresult with ⟨j, -, hj⟩
      rcases Option.map_eq_some_iff.mp hj with ⟨other, -, heq⟩
      exact (Prod.mk.injEq _ _ _ _ ▸ heq).2.symm
  rw [hlookup]

/-- A fault of an id moves it on, or raises; no other id is touched. -/
theorem settleItem_fault (maxRetries : Int) (st : LoopState κ β) (item : WorkItem κ β) :
    (∃ e, settleItem maxRetries st item mismatchFault = .error e) ∨
    ∃ attempt st' again, st.attempts.get? item.workId = some attempt ∧
      attempt.state.isFinal = false ∧ 0 ≤ maxRetries ∧
      settleItem maxRetries st item mismatchFault = .ok (st', again) ∧
      (∀ workId, workId ≠ item.workId →
        st'.attempts.get? workId = st.attempts.get? workId) ∧
      ∃ attempt', st'.attempts.get? item.workId = some attempt' ∧
        attempt'.state.isFinal = !again ∧
        (again = true → (attempt'.attemptCount : Int) ≤ maxRetries) := by
  -- Without an attempt the table is asked for something that it does not have.
  cases hget : st.attempts.get? item.workId with
  | none =>
      left
      unfold settleItem
      rw [hget]
      exact ⟨_, rfl⟩
  | some attempt =>
      -- The fault of these workers is a replay mismatch, whichever item it is about.
      have hclass : classifyFault (mismatchFault : BranchResult κ β).diagnostics =
          .ok .replayMismatch := rfl
      have hunfold : settleItem maxRetries st item mismatchFault =
          (do
            let retry ← decideRetry attempt .replayMismatch maxRetries
            let st := { st with attempts := st.attempts.set item.workId (attempt.decided retry) }
            if retry.shouldRetry then pure (st, true)
            else pure (st.finish item.workId mismatchFault .finalFault, false)) := by
        unfold settleItem
        rw [hget]
        dsimp only [mismatchFault, faultResult] at hclass ⊢
        rw [hclass]
        rfl
      rw [hunfold]
      -- Retrying what has ended is refused, and so is a negative budget.
      by_cases hfinal : attempt.state.isFinal = true
      · rcases decideRetry_final attempt .replayMismatch maxRetries hfinal with ⟨e, he⟩
        exact .inl ⟨e, by rw [he]; rfl⟩
      · by_cases hbudget : maxRetries < 0
        · rcases decideRetry_negative attempt .replayMismatch maxRetries hbudget with ⟨e, he⟩
          exact .inl ⟨e, by rw [he]; rfl⟩
        · right
          have hstate : attempt.state.isFinal = false := by
            cases hc : attempt.state.isFinal with
            | false => rfl
            | true => exact absurd hc hfinal
          rw [decideRetry_eq_ok attempt .replayMismatch maxRetries (by omega) hstate]
          let attempt' := attempt.decided (retryDecision attempt .replayMismatch maxRetries)
          let st' := { st with attempts := st.attempts.set item.workId attempt' }
          -- Otherwise the attempt is counted, and tried again exactly if the count is within the
          -- budget.
          by_cases hagain : ((attempt.attemptCount + 1 : Nat) : Int) ≤ maxRetries
          · refine ⟨attempt, st', true, rfl, hstate, by omega, ?_, ?_, attempt', ?_, ?_, ?_⟩
            · dsimp only [bind, Except.bind, retryDecision]
              rw [if_pos (decide_eq_true hagain)]
              rfl
            · exact fun workId hne => Dict.get?_set_ne _ _ hne
            · exact Dict.get?_set_self _ _ _
            · simp only [attempt', WorkItemAttempt.decided, retryDecision, decide_eq_true hagain]
              rfl
            · exact fun _ => hagain
          · refine ⟨attempt, st'.finish item.workId mismatchFault .finalFault, false, rfl, hstate,
              by omega, ?_, ?_, attempt', ?_, ?_, ?_⟩
            · dsimp only [bind, Except.bind, retryDecision]
              rw [if_neg (by simpa using hagain)]
              rfl
            · exact fun workId hne => Dict.get?_set_ne _ _ hne
            · exact Dict.get?_set_self _ _ _
            · simp only [attempt', WorkItemAttempt.decided, retryDecision, decide_eq_false hagain]
              rfl
            · exact fun h => by cases h

/-- The table of items answers an id with an item of that id. -/
theorem itemsById_workId (items : List (WorkItem κ β)) (workId : String)
    (item : WorkItem κ β) (h : (itemsById items).get? workId = some item) :
    item.workId = workId := by
  rcases Dict.mem_of_get?_setAll _ _ _ _ h with hmem | hnone
  · rcases List.mem_map.mp hmem with ⟨other, -, heq⟩
    cases heq
    rfl
  · cases hnone

theorem itemsById_isSome (items : List (WorkItem κ β)) (workId : String)
    (hmem : workId ∈ items.map (·.workId)) :
    ∃ item, (itemsById items).get? workId = some item := by
  apply Dict.exists_get?_setAll
  rw [List.map_map]
  exact hmem

theorem copies_cons (item : WorkItem κ β) (rest : List (WorkItem κ β)) (workId : String) :
    copies (item :: rest) workId = copies rest workId + if item.workId = workId then 1 else 0 := by
  unfold copies
  rw [List.map_cons, List.count_cons]
  simp only [beq_iff_eq]

/-- A batch in which everything fails raises, or leaves a doomed id doomed. What
    is left of it are its copies still to come and those already queued. -/
theorem settleBatch_doomed (items : List (WorkItem κ β)) (maxRetries : Int) (workId : String)
    (hmem : workId ∈ items.map (·.workId)) (batch : List (WorkItem κ β)) :
    ∀ (st : LoopState κ β) (queued : Nat),
      Doomed maxRetries workId st (copies batch workId + queued) →
      (∃ e, settleBatch (itemsById items) maxRetries st
        (batch.map fun item => (item, mismatchFault)) = .error e) ∨
      ∃ st' next, settleBatch (itemsById items) maxRetries st
          (batch.map fun item => (item, mismatchFault)) = .ok (st', next) ∧
        Doomed maxRetries workId st' (copies next workId + queued) := by
  induction batch with
  | nil =>
      intro st queued hdoomed
      exact .inr ⟨st, [], rfl, hdoomed⟩
  | cons item rest ih =>
      intro st queued hdoomed
      rw [List.map_cons]
      unfold settleBatch
      rcases settleItem_fault maxRetries st item with
        ⟨e, he⟩ | ⟨attempt, st₁, again, hget, hopen, -, hitem, hframe, attempt₁, hget₁,
          hfinal₁, hcount₁⟩
      · left
        rw [he]
        exact ⟨e, rfl⟩
      · rw [hitem]
        dsimp only [bind, Except.bind]
        -- What the item adds to the next round, and what is left after it.
        have hstep : ∃ added, (∀ tail, copies (if again = true then
              ((itemsById items).get? item.workId).toList ++ tail else tail) workId =
              copies tail workId + added) ∧
            Doomed maxRetries workId st₁ (copies rest workId + (added + queued)) := by
          rcases hdoomed with ⟨old, hold, hcases⟩
          rw [copies_cons] at hcases
          by_cases hid : item.workId = workId
          · rw [if_pos hid] at hcases
            rw [hid] at hget hget₁
            rw [hget, Option.some.injEq] at hold
            rw [← hold, hopen] at hcases
            rcases hcases with ⟨-, -, hleft⟩ | ⟨hclosed, -⟩
            · cases again with
              | true =>
                  rcases itemsById_isSome items workId hmem with ⟨found, hfound⟩
                  refine ⟨1, fun tail => ?_, attempt₁, hget₁, .inl ⟨hfinal₁, hcount₁ rfl, ?_⟩⟩
                  · rw [hid, hfound, if_pos rfl]
                    exact (copies_cons found tail workId).trans
                      (by rw [if_pos (itemsById_workId items workId found hfound)])
                  · omega
              | false =>
                  exact ⟨0, fun tail => rfl, attempt₁, hget₁, .inr ⟨hfinal₁, by omega⟩⟩
            · cases hclosed
          · rw [if_neg hid, Nat.add_zero] at hcases
            rw [← hframe workId (Ne.symm hid)] at hold
            refine ⟨0, fun tail => ?_, old, hold, by rw [Nat.zero_add]; exact hcases⟩
            cases again with
            | false => rfl
            | true =>
                rw [if_pos rfl]
                cases hfound : (itemsById items).get? item.workId with
                | none => rfl
                | some found =>
                    refine (copies_cons found tail workId).trans ?_
                    rw [itemsById_workId items item.workId found hfound, if_neg hid]
        rcases hstep with ⟨added, hadded, hdoomed₁⟩
        rcases ih st₁ (added + queued) hdoomed₁ with ⟨e, he⟩ | ⟨st₂, next, hrest, hdoomed₂⟩
        · left
          rw [he]
          exact ⟨e, rfl⟩
        · right
          rw [hrest]
          refine ⟨st₂, _, rfl, ?_⟩
          rw [hadded, Nat.add_assoc]
          exact hdoomed₂

theorem zip_faults (pending : List (WorkItem κ β)) :
    pending.zip ((List.range pending.length).map fun _ => (mismatchFault : BranchResult κ β)) =
      pending.map fun item => (item, mismatchFault) := by
  rw [List.map_const', List.length_range]
  induction pending with
  | nil => rfl
  | cons item rest ih => simp [List.replicate_succ, ih]

/-- A repeated id that keeps failing makes the loop raise. -/
theorem doomed_raises (items : List (WorkItem κ β)) (maxRetries : Int) (workId : String)
    (hmem : workId ∈ items.map (·.workId)) :
    ∀ (fuel round : Nat) (st : LoopState κ β) (pending : List (WorkItem κ β)),
      Doomed maxRetries workId st (copies pending workId) →
      ∃ e, retryRounds alwaysFaults.dispatch (itemsById items) maxRetries fuel round st
        pending = .error e := by
  intro fuel
  -- The induction is on the fuel: the rounds run out of it, or one of them raises.
  induction fuel with
  | zero =>
      intro round st pending hdoomed
      cases pending with
      | nil =>
          rcases hdoomed with ⟨attempt, -, ⟨-, -, hleft⟩ | ⟨-, hleft⟩⟩ <;>
            exact absurd hleft (by simp [copies])
      | cons item rest => exact ⟨_, rfl⟩
  | succ fuel ih =>
      intro round st pending hdoomed
      -- The item is doomed as long as it has a copy pending, so that something always is.
      cases pending with
      | nil =>
          rcases hdoomed with ⟨attempt, -, ⟨-, -, hleft⟩ | ⟨-, hleft⟩⟩ <;>
            exact absurd hleft (by simp [copies])
      | cons item rest =>
          unfold retryRounds
          dsimp only [bind, Except.bind]
          rw [alwaysFaults_dispatch]
          dsimp only
          rw [if_neg (by simp), zip_faults]
          -- A round raises, or leaves the item doomed.
          rcases settleBatch_doomed items maxRetries workId hmem (item :: rest)
            (st.record (item :: rest) _) 0 hdoomed with ⟨e, he⟩ | ⟨st', next, hbatch, hnext⟩
          · rw [he]
            exact ⟨e, rfl⟩
          · rw [hbatch]
            exact ih (round + 1) st' next hnext

theorem not_retryLaw_of_raises (dispatch : Dispatch κ β) (maxRetries : Int)
    (items : List (WorkItem κ β))
    (h : ∃ e, retryRounds dispatch (itemsById items) maxRetries (maxRetries + 2).toNat 0
      (LoopState.initial items) items = .error e) :
    ¬ RetryLaw maxRetries items (dispatchUntilFinal dispatch maxRetries items) := by
  rcases h with ⟨e, he⟩
  intro ⟨entries, executed, hok, _⟩
  unfold dispatchUntilFinal at hok
  rw [he] at hok
  cases hok

/-- A batch in which an id is repeated breaks the law when everything fails. -/
theorem not_retryLaw_of_duplicate (maxRetries : Int) (items : List (WorkItem κ β))
    (hbudget : 0 ≤ maxRetries) (hdup : ¬ (items.map (·.workId)).Nodup) :
    ¬ RetryLaw maxRetries items (dispatchUntilFinal alwaysFaults.dispatch maxRetries items) := by
  refine not_retryLaw_of_raises _ maxRetries items ?_
  rw [List.nodup_iff_count_le_one] at hdup
  push Not at hdup
  rcases hdup with ⟨workId, hcount⟩
  have hmem : workId ∈ items.map (·.workId) := List.count_pos_iff.mp (by omega)
  refine doomed_raises items maxRetries workId hmem _ 0 _ items ?_
  rcases List.mem_map.mp hmem with ⟨item, hitem, hid⟩
  refine ⟨{ workId := workId }, ?_, .inl ⟨rfl, hbudget, hcount⟩⟩
  apply Dict.get?_setAll_of_mem
  · exact List.mem_map.mpr ⟨item, hitem, by rw [hid]⟩
  · intro attempt hattempt
    rcases List.mem_map.mp hattempt with ⟨other, -, heq⟩
    rw [Prod.mk.injEq] at heq
    rw [← heq.2]
    simp only [heq.1]

/-- Under a negative budget every fault raises. -/
theorem not_retryLaw_of_negative (maxRetries : Int) (items : List (WorkItem κ β))
    (hbudget : maxRetries < 0) (hne : items ≠ []) :
    ¬ RetryLaw maxRetries items (dispatchUntilFinal alwaysFaults.dispatch maxRetries items) := by
  refine not_retryLaw_of_raises _ maxRetries items ?_
  cases items with
  | nil => exact absurd rfl hne
  | cons item rest =>
      cases (maxRetries + 2).toNat with
      | zero => exact ⟨_, rfl⟩
      | succ fuel =>
          unfold retryRounds
          dsimp only [bind, Except.bind]
          rw [alwaysFaults_dispatch]
          dsimp only
          rw [if_neg (by simp), zip_faults, List.map_cons]
          unfold settleBatch
          rcases settleItem_fault maxRetries
            ((LoopState.initial (item :: rest)).record (item :: rest) _) item with
            ⟨e, he⟩ | ⟨_, _, _, _, _, hnonneg, _⟩
          · rw [he]
            exact ⟨e, rfl⟩
          · omega

end Doomed

theorem retryLaw_nil (dispatch : Dispatch κ β) (maxRetries : Int) :
    RetryLaw maxRetries [] (dispatchUntilFinal dispatch maxRetries []) := by
  refine ⟨[], [], ?_, rfl, ?_, ?_⟩
  · unfold dispatchUntilFinal
    have hrounds : retryRounds dispatch (itemsById []) maxRetries (maxRetries + 2).toNat 0
        (LoopState.initial []) [] = .ok (LoopState.initial []) := by
      cases (maxRetries + 2).toNat <;> simp [retryRounds, pure, Except.pure]
    rw [hrounds]
    rfl
  · intro item hitem
    cases hitem
  · intro entry hentry
    cases hentry

/-- The loop keeps its law under every schedule exactly when the ids of the
    batch are distinct and the retry budget is not negative. -/
theorem retryLaw_iff (maxRetries : Int) (items : List (WorkItem κ β)) :
    (∀ schedule : Schedule κ β,
      RetryLaw maxRetries items (dispatchUntilFinal schedule.dispatch maxRetries items)) ↔
    (items.map (·.workId)).Nodup ∧ (items = [] ∨ 0 ≤ maxRetries) := by
  constructor
  · intro hlaw
    by_cases hne : items = []
    · rw [hne]
      exact ⟨List.nodup_nil, .inl rfl⟩
    · by_cases hbudget : maxRetries < 0
      · exact absurd (hlaw alwaysFaults) (not_retryLaw_of_negative maxRetries items hbudget hne)
      · by_cases hnodup : (items.map (·.workId)).Nodup
        · exact ⟨hnodup, .inr (by omega)⟩
        · exact absurd (hlaw alwaysFaults)
            (not_retryLaw_of_duplicate maxRetries items (by omega) hnodup)
  · intro ⟨hnodup, hbudget⟩ schedule
    rcases hbudget with hnil | hbudget
    · rw [hnil]
      exact retryLaw_nil schedule.dispatch maxRetries
    · exact retryLaw_of_nodup schedule.dispatch items maxRetries hnodup schedule.answers hbudget

/-!
### Two strikes

Two candidates with one digest are two items with one id.
-/

section TwoStrikes

/-- A decision on the player's turn, first seen. -/
def strikeSignature : DecisionSignature where
  combatSessionId := some "combat"
  stepIndex := 0
  continuationStepIndex := none
  semanticAction := ⟨"system", "end_turn"⟩
  resolvedActionId := 0
  resolvedSemanticKey := "end_turn"
  resolvedTargetIndex := none
  resolvedTargetSlotIndex := none
  boundary := .stable
  pendingOnly := stable_pendingOnly

/-- A context at a board with one card to play. -/
def strikeContext : DecisionContext Unit Unit :=
  DecisionContext.fromRoot (.snapshot ())
    { board := ()
      isTerminal := false
      pendingChoice := none
      cachedLegalActions := none
      decisionFrame := some ⟨some "combat", 0, none⟩ }
    strikeSignature

/-- Ending the turn, and two copies of one card at one enemy. -/
def twoStrikes : List PipelineCandidateRef :=
  [{ currentContextSignature := strikeSignature
     semanticAction := ⟨"system", "end_turn"⟩ },
    { currentContextSignature := strikeSignature
      semanticAction := ⟨"card", "card:STRIKE"⟩
      targetEnemyIndex := some 0 },
    { currentContextSignature := strikeSignature
      semanticAction := ⟨"card", "card:STRIKE"⟩
      targetEnemyIndex := some 0 }]

/-- A hash that tells the contents apart that occur here: the context, the
    continuation, and the sub-branches. -/
def kindDigests : Digests Unit where
  canonicalSnapshot := fun _ => .null
  sha256Hex
    | .obj (_ :: (_, .str (.text kind)) :: _) => kind
    | _ => "context"

/-- Two copies of one card among the candidates break the law. -/
theorem not_retryLaw_two_strikes :
    ¬ ∀ items, plainWorkItems kindDigests strikeContext twoStrikes = .ok items →
      RetryLaw 1 items (dispatchUntilFinal alwaysFaults.dispatch 1 items) := by
  intro hlaw
  have hok : ∃ items, plainWorkItems kindDigests strikeContext twoStrikes = .ok items :=
    ⟨_, rfl⟩
  rcases hok with ⟨items, hitems⟩
  have hids := plainWorkItems_workIds kindDigests strikeContext twoStrikes items hitems
  refine not_retryLaw_of_duplicate 1 items (by decide) ?_ (hlaw items hitems)
  rw [hids]
  decide

end TwoStrikes

end Combat

end STS2RL
