import STS2RL.Core.Distinct
import STS2RL.Core.Forall2
import STS2RL.WholeRun.WorkerPool

/-!
# Message Accounting

What a call of `dispatch_choice_work_items` makes of the messages on the queue.

A call that only ever collects answers is well behaved: whatever order they come
in, each is stored for the item whose request it answers, and an answer that no
open request waits for is dropped. Everything that goes wrong goes wrong because
the two readers share one queue. A process that comes up, or fails to, while the
loop collects is read as an answer; an answer that arrives while a respawn waits
for its process is read as `__ready__`; and both end the call.

So a call accounts for its messages exactly when the queue is orderly: answers
until every request has one, or answers, one wait that runs out, and then nothing
but the new processes coming up, in the order in which they are started.

The invariant relates where the call stands to the messages it was given so far.
Where the call has raised it says that no orderly queue begins that way, so the
same induction gives both directions.

## Main definitions

* `QueueSchedule`: What comes out of the queue, all of it written by workers.
* `OrderlyHistory`, `Orderly`: The messages that a call can deal with.
* `MessagesAccounted`: One outcome for each item, of its own request, and no
  message read wrongly or lost.
* `DispatchInv`: The invariant.

## Theorems

* `routeChoiceWorkItem_ok_iff`: When an item can be routed.
* `submitBatch_ok_iff`, `submitBatch_spec`: When a batch is submitted, and how.
* `DispatchInv.step`: The step lemma.
* `messages_accounted_iff`: When a call accounts for its messages.
-/

namespace STS2RL

namespace WholeRun

variable {ρ τ ε : Type}

/-!
### Submitting

A batch is submitted item by item, and the first that cannot be routed raises. What was
submitted is numbered in the order of the items.
-/

section Submission

/-- An item can be routed unless it is a continuation without a holder. -/
theorem routeChoiceWorkItem_ok_iff (item : ChoiceWorkItem ρ) (registry : LeaseRegistry)
    (branchSlots : List WorkerSlot) (workerGenerations : WorkerSlot → Option Nat)
    (nextBootstrapIndex : Nat) (holderSlot : Option WorkerSlot) :
    (∃ routed, (routeChoiceWorkItem item registry branchSlots workerGenerations
      nextBootstrapIndex holderSlot).2 = .ok routed) ↔
    (item.workKind = .continuation →
      ∃ holder, holderOf item registry workerGenerations holderSlot = some holder) := by
  unfold routeChoiceWorkItem
  by_cases hkind : item.workKind = .continuation
  · rw [if_pos hkind]
    cases hholder : holderOf item registry workerGenerations holderSlot with
    | none => simp [hkind]
    | some holder => simp [hkind]
  · rw [if_neg hkind]
    simp [hkind]

theorem routeChoiceWorkItem_workItem (item : ChoiceWorkItem ρ) (registry next : LeaseRegistry)
    (branchSlots : List WorkerSlot) (workerGenerations : WorkerSlot → Option Nat)
    (nextBootstrapIndex : Nat) (holderSlot : Option WorkerSlot)
    (request : WorkerExecutionRequest ρ) (rest : WorkerSlot × Nat)
    (h : routeChoiceWorkItem item registry branchSlots workerGenerations nextBootstrapIndex
      holderSlot = (next, .ok (request, rest))) : request.workItem = item := by
  unfold routeChoiceWorkItem at h
  split at h
  · split at h <;> cases h
    rfl
  · cases h
    rfl

/-- Every item of the batch can be routed when its turn comes. -/
def Routable (branchSlots : List WorkerSlot) (workerGenerations : WorkerSlot → Option Nat)
    (holderSlots : String → Option WorkerSlot) :
    LeaseRegistry → Nat → List (ChoiceWorkItem ρ) → Prop
  | _, _, [] => True
  | registry, nextBootstrapIndex, item :: rest =>
      ∃ next request slot nextIndex,
        routeChoiceWorkItem item registry branchSlots workerGenerations nextBootstrapIndex
          (holderSlots item.workId) = (next, .ok (request, slot, nextIndex)) ∧
        Routable branchSlots workerGenerations holderSlots next nextIndex rest

/-- What submitting a batch keeps: the requests are numbered on from where the
    pool stood, and all of them are open. -/
structure Submitted (pool : WholeRunWorkerPool) (items : List (ChoiceWorkItem ρ))
    (call : DispatchCall ρ τ ε) : Prop where
  slots : call.pool.workerSlots = pool.workerSlots
  items : call.submissions.map (·.request.workItem) = items
  remaining : call.remaining = call.submissions.map (·.requestId)
  numbered : ∀ id ∈ call.remaining, pool.nextRequestId < id ∧ id ≤ call.pool.nextRequestId
  nodup : call.remaining.Nodup
  le : pool.nextRequestId ≤ call.pool.nextRequestId
  results : call.results = Dict.empty
  reads : call.reads = []

/-- A batch is submitted when its items can be routed and the pool takes them. -/
theorem submitBatch_ok_iff (holderSlots : String → Option WorkerSlot)
    (items : List (ChoiceWorkItem ρ)) (call : DispatchCall ρ τ ε) :
    (submitBatch holderSlots call items).2 = .ok () ↔
      (items = [] ∨ call.pool.closed = false) ∧
        Routable call.pool.branchWorkerSlots call.pool.workerGenerations holderSlots
          call.registry call.nextBootstrapIndex items := by
  induction items generalizing call with
  | nil => simp [submitBatch, Routable]
  | cons item rest ih =>
      unfold submitBatch submitItem Routable
      generalize routeChoiceWorkItem item call.registry call.pool.branchWorkerSlots
        call.pool.workerGenerations call.nextBootstrapIndex (holderSlots item.workId) = routed
      rcases routed with ⟨next, exc | ⟨request, slot, nextIndex⟩⟩
      · simp
      · dsimp only
        by_cases hclosed : call.pool.closed = true
        · simp [hclosed]
        · rw [if_neg hclosed]
          dsimp only
          rw [ih]
          -- A submission counts a request and changes nothing else of the pool.
          change (rest = [] ∨ call.pool.closed = false) ∧ Routable call.pool.branchWorkerSlots
            call.pool.workerGenerations holderSlots next nextIndex rest ↔ _
          simp [hclosed]

/-- One more item is submitted under the next number. -/
theorem Submitted.submitItem {pool : WholeRunWorkerPool} {items : List (ChoiceWorkItem ρ)}
    {call : DispatchCall ρ τ ε} (h : Submitted pool items call)
    (holderSlots : String → Option WorkerSlot) (item : ChoiceWorkItem ρ)
    (hok : (submitItem holderSlots call item).2 = .ok ()) :
    Submitted pool (items ++ [item]) (submitItem holderSlots call item).1 := by
  unfold WholeRun.submitItem at hok ⊢
  -- The item is routed first, and raises there if at all.
  cases hrouted : routeChoiceWorkItem item call.registry call.pool.branchWorkerSlots
    call.pool.workerGenerations call.nextBootstrapIndex (holderSlots item.workId) with
  | mk next outcome =>
      rw [hrouted] at hok
      rcases outcome with exc | ⟨request, slot, nextIndex⟩
      · cases hok
      · dsimp only at hok ⊢
        split at hok
        · cases hok
        -- The pool is open, so the request gets the next number.
        · rename_i hopen
          rw [if_neg hopen]
          have hitem := routeChoiceWorkItem_workItem _ _ _ _ _ _ _ _ _ hrouted
          refine
            { slots := h.slots
              items := ?_
              remaining := ?_
              numbered := ?_
              nodup := ?_
              le := Nat.le_succ_of_le h.le
              results := h.results
              reads := h.reads }
          · rw [List.map_append, h.items, List.map_singleton, hitem]
          · rw [List.map_append, h.remaining, List.map_singleton]
          -- The numbers given before are not above the counter.
          · intro id hmem
            change pool.nextRequestId < id ∧ id ≤ call.pool.nextRequestId + 1
            rcases List.mem_append.mp hmem with hold | hnew
            · have hbound := h.numbered id hold
              omega
            · have hle := h.le
              rw [List.mem_singleton] at hnew
              omega
          -- So the new one is none of them.
          · refine nodup_append_one.mpr ⟨fun hmem => ?_, h.nodup⟩
            have hbound := h.numbered _ hmem
            omega

/-- What a submitted batch looks like. -/
theorem submitBatch_spec {pool : WholeRunWorkerPool} (holderSlots : String → Option WorkerSlot)
    (items : List (ChoiceWorkItem ρ)) :
    ∀ (before : List (ChoiceWorkItem ρ)) (call : DispatchCall ρ τ ε),
      Submitted pool before call → (submitBatch holderSlots call items).2 = .ok () →
      Submitted pool (before ++ items) (submitBatch holderSlots call items).1 := by
  induction items with
  | nil =>
      intro before call h _
      rw [List.append_nil]
      exact h
  | cons item rest ih =>
      intro before call h hok
      unfold submitBatch at hok ⊢
      have hitem := h.submitItem holderSlots item
      generalize WholeRun.submitItem holderSlots call item = submitted at hok hitem ⊢
      rcases submitted with ⟨next, exc | submitted⟩
      · cases hok
      · have hrest := ih (before ++ [item]) next (hitem rfl) hok
        rw [List.append_assoc, List.singleton_append] at hrest
        exact hrest

end Submission

/-!
### Histories of the queue

The queue of a call that goes well holds answers, or answers, an empty read and the
processes that come up.
-/

section Histories

/-- The event is the answer to the request. -/
def answers (requestId : Nat) : QueueEvent ρ τ ε → Bool
  | .message (.answer id _) => id = requestId
  | .message (.ready _ _ _) => false
  | .message (.startupFault _ _ _ _) => false
  | .empty => false

/-- The event is a worker's answer to a request. -/
def IsAnswer : QueueEvent ρ τ ε → Prop
  | .message (.answer _ _) => True
  | .message (.ready _ _ _) => False
  | .message (.startupFault _ _ _ _) => False
  | .empty => False

/-- The requests of the batch that the history does not answer. -/
def unanswered (submissions : List (Submission ρ)) (history : List (QueueEvent ρ τ ε)) :
    List Nat :=
  (submissions.map (·.requestId)).filter fun requestId => !history.any (answers requestId)

/-- A `__ready__` of a slot, in a generation, by a process. -/
def readyEvent (ready : WorkerSlot × Nat × Nat) : QueueEvent ρ τ ε :=
  .message (.ready ready.1 ready.2.1 ready.2.2)

/-- What a call needs of the queue to the end: answers until every request has
    one; or answers, a wait that runs out, and the processes that come up at the
    slots of the open requests, in the order in which these are respawned. -/
inductive OrderlyHistory (setOrder : SetOrder) (pool : WholeRunWorkerPool)
    (submissions : List (Submission ρ)) : List (QueueEvent ρ τ ε) → Prop where
  | answered (history : List (QueueEvent ρ τ ε)) (hanswers : ∀ event ∈ history, IsAnswer event)
      (hall : unanswered submissions history = []) :
      OrderlyHistory setOrder pool submissions history
  | respawned (history : List (QueueEvent ρ τ ε)) (readies : List (WorkerSlot × Nat × Nat))
      (hanswers : ∀ event ∈ history, IsAnswer event)
      (hslots : ∀ ready ∈ readies, ready.1 ∈ pool.workerSlots)
      (hready : (setOrder.order (hungSlots submissions (unanswered submissions history))).Sublist
        (readies.map (·.1))) :
      OrderlyHistory setOrder pool submissions (history ++ .empty :: readies.map readyEvent)

/-- The queue gives a call what it needs. -/
def Orderly (setOrder : SetOrder) (pool : WholeRunWorkerPool) (submissions : List (Submission ρ))
    (event : Nat → QueueEvent ρ τ ε) : Prop :=
  ∃ n, OrderlyHistory setOrder pool submissions ((List.range n).map event)

theorem unanswered_answer (submissions : List (Submission ρ)) (history : List (QueueEvent ρ τ ε))
    (requestId : Nat) (answer : Answer ρ τ ε) :
    unanswered submissions (history ++ [.message (.answer requestId answer)]) =
      (unanswered submissions history).filter (· ≠ requestId) := by
  unfold unanswered
  rw [List.filter_filter]
  refine List.filter_congr fun id _ => ?_
  rw [List.any_append, List.any_cons, List.any_nil]
  simp [answers, Bool.and_comm, eq_comm]

/-- Where two lists first leave a property by the same element, they do so at the
    same place. -/
theorem prefix_split {α : Type} {P : α → Prop} {x : α} (hx : ¬ P x) {init rest : List α}
    (hinit : ∀ a ∈ init, P a) :
    ∀ {init' rest' : List α}, (∀ a ∈ init', P a) → init ++ x :: rest <+: init' ++ x :: rest' →
      init = init' ∧ rest <+: rest' := by
  induction init with
  | nil =>
      intro init' rest' hinit' h
      cases init' with
      | nil => exact ⟨rfl, (List.cons_prefix_cons.mp h).2⟩
      | cons a _ =>
          have heq : x = a := (List.cons_prefix_cons.mp h).1
          exact absurd (hinit' a List.mem_cons_self) (heq ▸ hx)
  | cons b init ih =>
      intro init' rest' hinit' h
      cases init' with
      | nil =>
          have heq : b = x := (List.cons_prefix_cons.mp h).1
          exact absurd (hinit b List.mem_cons_self) (heq ▸ hx)
      | cons a init' =>
          rcases List.cons_prefix_cons.mp h with ⟨heq, htail⟩
          rcases ih (fun c hc => hinit c (List.mem_cons_of_mem _ hc))
            (fun c hc => hinit' c (List.mem_cons_of_mem _ hc)) htail with ⟨hsame, hrest⟩
          exact ⟨by rw [heq, hsame], hrest⟩

theorem not_isAnswer_empty : ¬ IsAnswer (.empty : QueueEvent ρ τ ε) := fun h => h

variable {setOrder : SetOrder} {pool : WholeRunWorkerPool} {submissions : List (Submission ρ)}
  {orderly history : List (QueueEvent ρ τ ε)}

/-- While an orderly queue has only given answers, an answer or a wait that runs
    out comes next. -/
theorem OrderlyHistory.next_of_answers
    (h : OrderlyHistory setOrder pool submissions orderly) (event : QueueEvent ρ τ ε)
    (hanswers : ∀ other ∈ history, IsAnswer other) (hprefixed : history ++ [event] <+: orderly) :
    IsAnswer event ∨ event = .empty := by
  -- Only an answer may follow answers, or the one empty read before the respawns.
  by_cases hevent : IsAnswer event
  · exact .inl hevent
  · refine .inr ?_
    cases h with
    | answered _ hall _ =>
        exact absurd (hall event (hprefixed.subset (List.mem_append_right _ List.mem_cons_self)))
          hevent
    -- The empty read stands right after the answers.
    | respawned init readies hinit _ _ =>
        rcases hprefixed with ⟨tail, heq⟩
        rw [List.append_assoc, List.singleton_append] at heq
        rcases List.append_eq_append_iff.mp heq with ⟨mid, hmid, hrest⟩ | ⟨mid, hmid, hrest⟩
        -- No answer stands after it, so the event is no answer only if it is the empty read.
        · cases mid with
          | nil =>
              rw [List.nil_append] at hrest
              exact (List.cons.inj hrest).1.symm ▸ rfl
          | cons first mid =>
              have hfirst := (List.cons.inj hrest).1
              refine absurd (hinit event ?_) hevent
              rw [hmid, hfirst]
              exact List.mem_append_right _ List.mem_cons_self
        · cases mid with
          | nil =>
              rw [List.nil_append] at hrest
              exact (List.cons.inj hrest).1.symm
          | cons first mid =>
              have hfirst := (List.cons.inj hrest).1
              refine absurd (hanswers .empty ?_) not_isAnswer_empty
              rw [hmid, hfirst]
              exact List.mem_append_right _ List.mem_cons_self

/-- After the wait that ran out, a process of the pool comes up next. -/
theorem OrderlyHistory.next_of_empty
    (h : OrderlyHistory setOrder pool submissions orderly) (event : QueueEvent ρ τ ε)
    (readies : List (WorkerSlot × Nat × Nat)) (hanswers : ∀ other ∈ history, IsAnswer other)
    (hprefixed : history ++ .empty :: readies.map readyEvent ++ [event] <+: orderly) :
    ∃ ready, event = readyEvent ready ∧ ready.1 ∈ pool.workerSlots := by
  rw [List.append_assoc, List.cons_append] at hprefixed
  cases h with
  | answered _ hall _ =>
      refine absurd (hall .empty (hprefixed.subset ?_)) not_isAnswer_empty
      exact List.mem_append_right _ List.mem_cons_self
  | respawned init readies' hinit hslots _ =>
      have hrest := (prefix_split not_isAnswer_empty hanswers hinit hprefixed).2
      have hmem := hrest.subset (List.mem_append_right _ (List.mem_singleton.mpr rfl))
      rcases List.mem_map.mp hmem with ⟨ready, hready, heq⟩
      exact ⟨ready, heq.symm, hslots ready hready⟩

theorem map_readyEvent_inj {readies readies' : List (WorkerSlot × Nat × Nat)}
    (h : readies.map readyEvent = readies'.map (readyEvent : _ → QueueEvent ρ τ ε)) :
    readies = readies' := by
  refine List.map_injective_iff.mpr ?_ h
  rintro ⟨slot, generation, pid⟩ ⟨slot', generation', pid'⟩ heq
  unfold readyEvent at heq
  simpa using heq

/-- An orderly history with a wait that ran out names every hung slot in turn. -/
theorem OrderlyHistory.hung_sublist {readies : List (WorkerSlot × Nat × Nat)}
    (h : OrderlyHistory setOrder pool submissions
      (history ++ .empty :: readies.map (readyEvent : _ → QueueEvent ρ τ ε)))
    (hanswers : ∀ other ∈ history, IsAnswer other) :
    (setOrder.order (hungSlots submissions (unanswered submissions history))).Sublist
      (readies.map (·.1)) := by
  generalize hwhole : history ++ .empty :: readies.map readyEvent = whole at h
  cases h with
  | answered _ hall _ =>
      refine absurd (hall .empty ?_) not_isAnswer_empty
      rw [← hwhole]
      exact List.mem_append_right _ List.mem_cons_self
  | respawned init readies' hinit _ hready =>
      have hprefixed : history ++ .empty :: readies.map readyEvent <+:
          init ++ .empty :: readies'.map readyEvent := hwhole ▸ List.prefix_refl _
      have hprefixed' : init ++ .empty :: readies'.map readyEvent <+:
          history ++ .empty :: readies.map readyEvent := hwhole ▸ List.prefix_refl _
      rcases prefix_split not_isAnswer_empty hanswers hinit hprefixed with ⟨hsame, hle⟩
      have hge := (prefix_split not_isAnswer_empty hinit hanswers hprefixed').2
      have heq := hle.eq_of_length (Nat.le_antisymm hle.length_le hge.length_le)
      rw [hsame, map_readyEvent_inj heq]
      exact hready

end Histories

/-!
### What was collected

Results are kept by work id, and every open request is one of the batch.
-/

section Collected

variable {pool : WholeRunWorkerPool} {submissions : List (Submission ρ)}
  {history : List (QueueEvent ρ τ ε)}

/-- The work id of what was submitted. -/
def Submission.workId (submission : Submission ρ) : String := submission.request.workItem.workId

/-- The outcome is of the item's own request: its answer, or its own timeout. -/
def Own (history : List (QueueEvent ρ τ ε)) (submission : Submission ρ)
    (outcome : Nat × BranchResult ρ τ) : Prop :=
  outcome.1 = submission.requestId ∧ outcome.2.workItem = submission.request.workItem ∧
    (.message (.answer submission.requestId (.choice outcome.2)) ∈ history ∨
      ∃ staleGeneration, outcome.2 = requestTimeout submission staleGeneration)

theorem Own.mono {history' : List (QueueEvent ρ τ ε)} {submission : Submission ρ}
    {outcome : Nat × BranchResult ρ τ} (h : Own history submission outcome)
    (hsub : ∀ event ∈ history, event ∈ history') : Own history' submission outcome :=
  ⟨h.1, h.2.1, h.2.2.imp_left (hsub _)⟩

/-- Each reader was given a message of the shape it unpacks. -/
def Read.Understood (read : Read ρ τ ε) : Prop :=
  match read.reader, read.message with
  | .collecting, .answer _ _ => True
  | .collecting, .ready _ _ _ => False
  | .collecting, .startupFault _ _ _ _ => False
  | .awaiting _, .answer _ _ => False
  | .awaiting _, .ready _ _ _ => True
  | .awaiting _, .startupFault _ _ _ _ => True

/-- The variables of a call that has not raised. An item that is not open has a
    result, and every result is some request's own. Where no two items share an
    id, an answer that was read for an open request is still there. -/
structure Collected (pool : WholeRunWorkerPool) (submissions : List (Submission ρ))
    (history : List (QueueEvent ρ τ ε)) (call : DispatchCall ρ τ ε) : Prop where
  slots : call.pool.workerSlots = pool.workerSlots
  batch : call.submissions = submissions
  ids : (submissions.map (·.requestId)).Nodup
  nodup : call.remaining.Nodup
  known : ∀ id ∈ call.remaining, id ∈ submissions.map (·.requestId)
  complete : ∀ submission ∈ submissions, submission.requestId ∉ call.remaining →
    (call.results.get? submission.workId).isSome
  recorded : ∀ workId requestId answer, call.results.get? workId = some (requestId, answer) →
    requestId ∉ call.remaining ∧ ∃ submission ∈ submissions, submission.workId = workId ∧
      ∃ result, answer = .choice result ∧ Own history submission (requestId, result)
  understood : ∀ read ∈ call.reads, read.Understood
  kept : (submissions.map Submission.workId).Nodup → ∀ read ∈ call.reads,
    ∀ requestId answer, read.message = .answer requestId answer →
      requestId ∈ read.outstanding → ∃ submission ∈ submissions,
        call.results.get? submission.workId = some (requestId, answer)

theorem Collected.mono {call : DispatchCall ρ τ ε} {history' : List (QueueEvent ρ τ ε)}
    (h : Collected pool submissions history call)
    (hsub : ∀ event ∈ history, event ∈ history') :
    Collected pool submissions history' call :=
  { h with
    recorded := fun workId requestId answer hget => by
      rcases h.recorded workId requestId answer hget with
        ⟨hclosed, submission, hmem, hid, result, hanswer, hown⟩
      exact ⟨hclosed, submission, hmem, hid, result, hanswer, hown.mono hsub⟩ }

/-- An open request gets its outcome. -/
theorem Collected.record {call : DispatchCall ρ τ ε}
    (h : Collected pool submissions history call) (submission : Submission ρ)
    (hmem : submission ∈ submissions) (hopen : submission.requestId ∈ call.remaining)
    (result : BranchResult ρ τ) (hown : Own history submission (submission.requestId, result)) :
    Collected pool submissions history
      { call with
        results := call.results.set submission.request.workItem.workId
          (submission.requestId, .choice result)
        remaining := call.remaining.erase submission.requestId } := by
  have hgone : ∀ id, id ∉ call.remaining → id ∉ call.remaining.erase submission.requestId :=
    fun id hid hin => hid (List.mem_of_mem_erase hin)
  have hget : ∀ workId, (call.results.set submission.request.workItem.workId
      (submission.requestId, Answer.choice (ε := ε) result)).get? workId =
      if workId = submission.workId then some (submission.requestId, Answer.choice result)
      else call.results.get? workId :=
    fun workId => Dict.get?_set call.results _ workId _
  refine
    { slots := h.slots
      batch := h.batch
      ids := h.ids
      nodup := h.nodup.erase _
      known := fun id hid => h.known id (List.mem_of_mem_erase hid)
      complete := fun other hother hclosed => ?_
      recorded := fun workId requestId answer hstored => ?_
      understood := h.understood
      kept := fun hdistinct read hread requestId answer hmessage houtstanding => ?_ }
  · rw [hget]
    split
    · rfl
    · rename_i hne
      refine h.complete other hother fun hin => hclosed ?_
      rw [h.nodup.mem_erase_iff]
      refine ⟨fun heq => hne ?_, hin⟩
      rw [List.inj_on_of_nodup_map h.ids hother hmem heq]
  · rw [hget] at hstored
    split at hstored
    · rename_i hid
      cases hstored
      exact ⟨h.nodup.not_mem_erase, submission, hmem, hid.symm, result, rfl, hown⟩
    · rcases h.recorded workId requestId answer hstored with ⟨hclosed, hrest⟩
      exact ⟨hgone _ hclosed, hrest⟩
  · rcases h.kept hdistinct read hread requestId answer hmessage houtstanding with
      ⟨other, hother, hstored⟩
    refine ⟨other, hother, ?_⟩
    rw [hget]
    split
    · rename_i hid
      -- The open request is another one, and no two items share an id.
      have hsame := List.inj_on_of_nodup_map hdistinct hother hmem hid
      rcases h.recorded _ _ _ hstored with ⟨hclosed, owner, howner, hownerId, _, _, hownerOwn⟩
      have howner' := List.inj_on_of_nodup_map hdistinct howner hother hownerId
      have hrequest : requestId = owner.requestId := hownerOwn.1
      rw [howner', hsame] at hrequest
      exact absurd (hrequest ▸ hopen) hclosed
    · exact hstored

/-- A message of the right shape was read; an answer to an open request is stored. -/
theorem Collected.addRead {call : DispatchCall ρ τ ε}
    (h : Collected pool submissions history call) (read : Read ρ τ ε)
    (hunderstood : read.Understood)
    (hkept : (submissions.map Submission.workId).Nodup → ∀ requestId answer,
      read.message = .answer requestId answer → requestId ∈ read.outstanding →
        ∃ submission ∈ submissions,
          call.results.get? submission.workId = some (requestId, answer)) :
    Collected pool submissions history { call with reads := call.reads ++ [read] } :=
  { h with
    understood := fun other hmem => by
      rcases List.mem_append.mp hmem with hold | hnew
      · exact h.understood other hold
      · rw [List.mem_singleton.mp hnew]
        exact hunderstood
    kept := fun hdistinct other hmem => by
      rcases List.mem_append.mp hmem with hold | hnew
      · exact h.kept hdistinct other hold
      · rw [List.mem_singleton.mp hnew]
        exact hkept hdistinct }

/-- The open requests of a slot time out, one after the other. -/
theorem Collected.foldl_timeOut (staleGeneration : Nat) (expired : List (Submission ρ))
    (hids : (expired.map (·.requestId)).Nodup) :
    ∀ {call : DispatchCall ρ τ ε}, Collected pool submissions history call →
      (∀ submission ∈ expired, submission ∈ submissions ∧
        submission.requestId ∈ call.remaining) →
      Collected pool submissions history (expired.foldl (timeOut staleGeneration) call) ∧
        ∀ id, id ∈ (expired.foldl (timeOut staleGeneration) call).remaining ↔
          id ∈ call.remaining ∧ id ∉ expired.map (·.requestId) := by
  induction expired with
  | nil =>
      intro call h _
      exact ⟨h, fun id => by simp⟩
  | cons submission rest ih =>
      intro call h hexpired
      -- The first that expired is recorded as timed out, and its number is taken off.
      rw [List.map_cons, List.nodup_cons] at hids
      rcases hexpired submission List.mem_cons_self with ⟨hmem, hopen⟩
      have hfirst := h.record submission hmem hopen (requestTimeout submission staleGeneration)
        ⟨rfl, rfl, .inr ⟨staleGeneration, rfl⟩⟩
      -- The others are still open, for their numbers are different ones.
      have hrest : ∀ other ∈ rest, other ∈ submissions ∧
          other.requestId ∈ (timeOut staleGeneration call submission).remaining := by
        intro other hother
        rcases hexpired other (List.mem_cons_of_mem _ hother) with ⟨hmem', hopen'⟩
        refine ⟨hmem', (h.nodup.mem_erase_iff).mpr ⟨fun heq => hids.1 ?_, hopen'⟩⟩
        exact heq ▸ List.mem_map_of_mem hother
      rcases ih hids.2 hfirst hrest with ⟨hcollected, hremaining⟩
      refine ⟨hcollected, fun id => ?_⟩
      refine (hremaining id).trans ?_
      change id ∈ call.remaining.erase submission.requestId ∧ _ ↔ _
      rw [h.nodup.mem_erase_iff, List.map_cons, List.mem_cons, not_or]
      exact ⟨fun ⟨⟨hne, hin⟩, hout⟩ => ⟨hin, hne, hout⟩, fun ⟨hin, hne, hout⟩ => ⟨⟨hne, hin⟩, hout⟩⟩

theorem Collected.mem_openAt {call : DispatchCall ρ τ ε}
    (h : Collected pool submissions history call) (slot : WorkerSlot) (submission : Submission ρ) :
    submission ∈ openAt call slot ↔ submission ∈ submissions ∧
      submission.requestId ∈ call.remaining ∧ submission.slot = slot := by
  unfold openAt
  rw [List.mem_filter, h.batch, decide_eq_true_eq]

/-- All open requests of a slot time out, and no other request does. -/
theorem Collected.timeOutOpen {call : DispatchCall ρ τ ε}
    (h : Collected pool submissions history call) (slot : WorkerSlot) (staleGeneration : Nat) :
    Collected pool submissions history ((openAt call slot).foldl (timeOut staleGeneration) call) ∧
      ∀ submission ∈ submissions,
        submission.requestId ∈
            ((openAt call slot).foldl (timeOut staleGeneration) call).remaining ↔
          submission.requestId ∈ call.remaining ∧ submission.slot ≠ slot := by
  have hids : ((openAt call slot).map (·.requestId)).Nodup := by
    unfold openAt
    rw [h.batch]
    exact (List.filter_sublist.map _).nodup h.ids
  rcases Collected.foldl_timeOut staleGeneration (openAt call slot) hids h (fun submission hmem =>
    have hopen := (h.mem_openAt slot submission).mp hmem
    ⟨hopen.1, hopen.2.1⟩) with ⟨hcollected, hremaining⟩
  refine ⟨hcollected, fun submission hmem => ?_⟩
  rw [hremaining]
  refine and_congr_right fun hopen => not_congr ⟨fun hin => ?_, fun hslot => ?_⟩
  · -- Requests of one id are one request, so the one that ended is this one.
    rcases List.mem_map.mp hin with ⟨other, hother, heq⟩
    have hother' := (h.mem_openAt slot other).mp hother
    rw [← List.inj_on_of_nodup_map h.ids hother'.1 hmem heq]
    exact hother'.2.2
  · exact List.mem_map.mpr ⟨submission, (h.mem_openAt slot submission).mpr ⟨hmem, hopen, hslot⟩,
      rfl⟩

/-- The results are gathered in the order of the items. -/
theorem gatherResults_spec (results : Dict String (Nat × Answer ρ τ ε))
    (submissions : List (Submission ρ))
    (h : ∀ submission ∈ submissions, ∃ requestId result,
      results.get? submission.workId = some (requestId, .choice result)) :
    ∀ registry, ∃ next outcomes,
      gatherResults results registry (submissions.map (·.request.workItem)) =
        (next, .ok outcomes) ∧
      List.Forall₂ (fun submission outcome =>
        results.get? submission.workId = some (outcome.1, .choice outcome.2))
        submissions outcomes := by
  induction submissions with
  | nil => exact fun registry => ⟨registry, [], rfl, .nil⟩
  | cons submission rest ih =>
      intro registry
      rcases h submission List.mem_cons_self with ⟨requestId, result, hget⟩
      rcases ih (fun other hother => h other (List.mem_cons_of_mem _ hother))
        (settleLease registry submission.request.workItem result) with
        ⟨next, outcomes, hgather, hall⟩
      refine ⟨next, (requestId, result) :: outcomes, ?_, .cons hget hall⟩
      rw [List.map_cons]
      unfold gatherResults
      rw [show results.get? submission.request.workItem.workId = _ from hget]
      dsimp only
      rw [hgather]
      rfl

/-- When no request is open, the results can be gathered. -/
theorem Collected.gather {call : DispatchCall ρ τ ε}
    (h : Collected pool submissions history call) (hnone : call.remaining = []) :
    ∃ next outcomes, gatherResults call.results call.registry
        (submissions.map (·.request.workItem)) = (next, .ok outcomes) ∧
      List.Forall₂ (fun submission outcome =>
        call.results.get? submission.workId = some (outcome.1, .choice outcome.2))
        submissions outcomes := by
  refine gatherResults_spec call.results submissions (fun submission hmem => ?_) call.registry
  have hsome := h.complete submission hmem (by rw [hnone]; exact List.not_mem_nil)
  rcases Option.isSome_iff_exists.mp hsome with ⟨⟨requestId, answer⟩, hget⟩
  rcases h.recorded _ _ _ hget with ⟨-, -, -, -, result, rfl, -⟩
  exact ⟨requestId, result, hget⟩

end Collected

/-!
### The invariant

What the messages read so far say of where the call stands, in each of its phases. A call
that raised says that the queue was not orderly.
-/

section Invariant

variable (setOrder : SetOrder) (pool : WholeRunWorkerPool) (submissions : List (Submission ρ))

/-- Where a call stands, and what it was given so far. -/
inductive DispatchInv (history : List (QueueEvent ρ τ ε)) : DispatchPhase ρ τ ε → Prop where
  | collecting (call : DispatchCall ρ τ ε) (h : Collected pool submissions history call)
      (hanswers : ∀ event ∈ history, IsAnswer event)
      (hremaining : call.remaining = unanswered submissions history)
      (hopen : call.remaining ≠ []) : DispatchInv history (.collecting call)
  | respawning (call : DispatchCall ρ τ ε) (slot : WorkerSlot) (staleGeneration : Nat)
      (rest : List WorkerSlot) (h : Collected pool submissions history call)
      (init : List (QueueEvent ρ τ ε)) (readies : List (WorkerSlot × Nat × Nat))
      (done : List WorkerSlot) (hhistory : history = init ++ .empty :: readies.map readyEvent)
      (hanswers : ∀ event ∈ init, IsAnswer event)
      (hslots : ∀ ready ∈ readies, ready.1 ∈ pool.workerSlots)
      (horder : setOrder.order (hungSlots submissions (unanswered submissions init)) =
        done ++ slot :: rest)
      (hdone : done.Sublist (readies.map (·.1)))
      (hnext : ¬ (done ++ [slot]).Sublist (readies.map (·.1)))
      (hopen : ∀ submission ∈ submissions, submission.requestId ∈ call.remaining ↔
        submission.requestId ∈ unanswered submissions init ∧ submission.slot ∉ done) :
      DispatchInv history (.respawning call slot staleGeneration rest)
  | returned (call : DispatchCall ρ τ ε) (outcomes : List (Nat × BranchResult ρ τ))
      (results : Dict String (Nat × Answer ρ τ ε))
      (h : Collected pool submissions history { call with results })
      (hnone : call.remaining = [])
      (hgathered : List.Forall₂ (fun submission outcome =>
        results.get? submission.workId = some (outcome.1, .choice outcome.2))
        submissions outcomes)
      (horderly : ∃ init, init <+: history ∧ OrderlyHistory setOrder pool submissions init) :
      DispatchInv history (.returned call outcomes)
  | raised (call : DispatchCall ρ τ ε) (exc : PyException)
      (hdisorder : ∀ orderly, history <+: orderly →
        ¬ OrderlyHistory setOrder pool submissions orderly) :
      DispatchInv history (.raised call exc)

variable {setOrder pool submissions} {history : List (QueueEvent ρ τ ε)}
  {call : DispatchCall ρ τ ε}

theorem Collected.finish (h : Collected pool submissions history call)
    (hnone : call.remaining = [])
    (horderly : OrderlyHistory setOrder pool submissions history) :
    DispatchInv setOrder pool submissions history (finishDispatch call) := by
  rcases h.gather hnone with ⟨next, outcomes, hgather, hgathered⟩
  have hgather' : gatherResults call.results call.registry
      (call.submissions.map (·.request.workItem)) = (next, .ok outcomes) := h.batch ▸ hgather
  unfold finishDispatch
  rw [hgather']
  refine .returned _ outcomes call.results ?_ hnone hgathered
    ⟨history, List.prefix_refl _, horderly⟩
  exact { h with }

/-- The head of the loop, while only answers were read. -/
theorem Collected.loopHead (h : Collected pool submissions history call)
    (hanswers : ∀ event ∈ history, IsAnswer event)
    (hremaining : call.remaining = unanswered submissions history) :
    DispatchInv setOrder pool submissions history (loopHead call) := by
  unfold WholeRun.loopHead
  split
  · rename_i hnone
    exact h.finish hnone (.answered history hanswers (hremaining ▸ hnone))
  · rename_i hopen
    exact .collecting call h hanswers hremaining hopen

/-- Every open request is at a hung slot. -/
theorem mem_order_of_open (init : List (QueueEvent ρ τ ε)) (submission : Submission ρ)
    (hmem : submission ∈ submissions)
    (hopen : submission.requestId ∈ unanswered submissions init) :
    submission.slot ∈ setOrder.order (hungSlots submissions (unanswered submissions init)) := by
  rw [(setOrder.perm _).mem_iff]
  unfold hungSlots
  rw [List.mem_dedup]
  exact List.mem_map.mpr ⟨submission, List.mem_filter.mpr ⟨hmem, decide_eq_true hopen⟩, rfl⟩

/-- The next respawn, or the end when there is none. -/
theorem Collected.respawnNext (h : Collected pool submissions history call)
    (init : List (QueueEvent ρ τ ε)) (readies : List (WorkerSlot × Nat × Nat))
    (done rest : List WorkerSlot)
    (hhistory : history = init ++ .empty :: readies.map readyEvent)
    (hanswers : ∀ event ∈ init, IsAnswer event)
    (hslots : ∀ ready ∈ readies, ready.1 ∈ pool.workerSlots)
    (horder : setOrder.order (hungSlots submissions (unanswered submissions init)) = done ++ rest)
    (hdone : done.Sublist (readies.map (·.1)))
    (hnext : ∀ slot : WorkerSlot, ¬ (done ++ [slot]).Sublist (readies.map (·.1)))
    (hopen : ∀ submission ∈ submissions, submission.requestId ∈ call.remaining ↔
      submission.requestId ∈ unanswered submissions init ∧ submission.slot ∉ done) :
    DispatchInv setOrder pool submissions history (respawnNext call rest) := by
  -- There is a slot left to respawn, or the batch is done.
  cases rest with
  | cons slot rest =>
      have hspawned : Collected pool submissions history
          { call with pool := call.pool.spawnNext slot } := { h with slots := h.slots }
      exact .respawning _ slot _ rest hspawned init readies done hhistory hanswers hslots horder
        hdone (hnext slot) hopen
  | nil =>
      rw [List.append_nil] at horder
      -- All hung slots were respawned, and every request that was open was on one of them.
      have hnone : call.remaining = [] := by
        refine List.eq_nil_iff_forall_not_mem.mpr fun id hid => ?_
        rcases List.mem_map.mp (h.known id hid) with ⟨submission, hmem, rfl⟩
        rcases (hopen submission hmem).mp hid with ⟨hunanswered, hout⟩
        exact hout (horder ▸ mem_order_of_open init submission hmem hunanswered)
      unfold WholeRun.respawnNext WholeRun.loopHead
      rw [if_pos hnone]
      refine h.finish hnone ?_
      rw [hhistory]
      exact .respawned init readies hanswers hslots (horder ▸ hdone)

/-- An answer that no open request waits for is dropped. -/
theorem Collected.dropped (h : Collected pool submissions history call)
    (hanswers : ∀ event ∈ history, IsAnswer event)
    (hremaining : call.remaining = unanswered submissions history) (hopen : call.remaining ≠ [])
    (requestId : Nat) (answer : Answer ρ τ ε) (hclosed : requestId ∉ call.remaining) :
    DispatchInv setOrder pool submissions (history ++ [.message (.answer requestId answer)])
      (.collecting (call.noteRead .collecting (.answer requestId answer))) := by
  refine .collecting _ ?_ ?_ ?_ hopen
  · refine (h.mono fun event hmem => List.mem_append_left _ hmem).addRead _ trivial ?_
    rintro _ id answer' hmessage hin
    cases hmessage
    exact absurd hin hclosed
  · intro event hmem
    rcases List.mem_append.mp hmem with hold | hnew
    · exact hanswers event hold
    · rw [List.mem_singleton.mp hnew]
      trivial
  · rw [unanswered_answer, ← hremaining]
    symm
    refine List.filter_eq_self.mpr fun id hid => decide_eq_true fun heq => hclosed (heq ▸ hid)

/-- The collecting loop reads a message. -/
theorem Collected.collectMessage (h : Collected pool submissions history call)
    (hanswers : ∀ event ∈ history, IsAnswer event)
    (hremaining : call.remaining = unanswered submissions history) (hopen : call.remaining ≠ [])
    (message : QueueMessage ρ τ ε)
    (hown : ∀ submission ∈ submissions, ∀ answer, message = .answer submission.requestId answer →
      ∃ result, answer = .choice result ∧ result.workItem = submission.request.workItem) :
    DispatchInv setOrder pool submissions (history ++ [.message message])
      (collectMessage call message) := by
  -- A process that comes up, or fails to, is not what comes next in order.
  have hdisorder : ∀ event : QueueEvent ρ τ ε, ¬ IsAnswer event → event ≠ .empty →
      ∀ orderly, history ++ [event] <+: orderly →
        ¬ OrderlyHistory setOrder pool submissions orderly := by
    intro event hanswer hempty orderly hprefixed horderly
    rcases horderly.next_of_answers event hanswers hprefixed with h' | h'
    · exact hanswer h'
    · exact hempty h'
  cases message with
  | ready slot generation pid =>
      exact .raised _ _ (hdisorder _ (fun h' => h') fun h' => by cases h')
  | startupFault slot generation exceptionType message =>
      exact .raised _ _ (hdisorder _ (fun h' => h') fun h' => by cases h')
  | answer requestId answer =>
      unfold WholeRun.collectMessage
      dsimp only
      split
      · rename_i hfind
        refine h.dropped hanswers hremaining hopen requestId answer fun hid => ?_
        rcases List.mem_map.mp (h.known requestId hid) with ⟨submission, hmem, heq⟩
        have hnone := List.find?_eq_none.mp hfind submission (h.batch ▸ hmem)
        exact hnone (decide_eq_true heq)
      · rename_i submission hfind
        have hmem : submission ∈ submissions := h.batch ▸ List.mem_of_find?_eq_some hfind
        have hfound := List.find?_some hfind
        have hid : submission.requestId = requestId := of_decide_eq_true hfound
        split
        · rename_i hin
          have hin' : requestId ∈ call.remaining := hin
          rcases hown submission hmem answer (by rw [hid]) with ⟨result, rfl, hitem⟩
          have hlater : ∀ event ∈ history,
              event ∈ history ++ [.message (.answer requestId (.choice result))] :=
            fun event hmem => List.mem_append_left _ hmem
          have hlast : .message (.answer submission.requestId (.choice result)) ∈
              history ++ [.message (.answer requestId (Answer.choice (ε := ε) result))] := by
            rw [hid]
            exact List.mem_append_right _ (List.mem_singleton.mpr rfl)
          have hrecorded := (h.mono hlater).record submission hmem (hid ▸ hin') result
            ⟨rfl, hitem, .inl hlast⟩
          rw [hid] at hrecorded
          refine Collected.loopHead ?_ ?_ ?_
          · refine hrecorded.addRead
              ⟨.collecting, .answer requestId (.choice result), call.remaining⟩ trivial ?_
            rintro _ id answer' hmessage _
            cases hmessage
            exact ⟨submission, hmem, Dict.get?_set_self _ _ _⟩
          · intro event hmem
            rcases List.mem_append.mp hmem with hold | hnew
            · exact hanswers event hold
            · rw [List.mem_singleton.mp hnew]
              trivial
          · rw [unanswered_answer, ← hremaining]
            change call.remaining.erase requestId = _
            rw [h.nodup.erase_eq_filter]
            exact List.filter_congr fun id _ => Bool.eq_iff_iff.mpr (by simp)
        · rename_i hout
          exact h.dropped hanswers hremaining hopen requestId answer hout

/-- While workers are respawned, anything but a process of the pool that comes up is out of
    order. -/
theorem disorder_of_respawn {init : List (QueueEvent ρ τ ε)}
    {readies : List (WorkerSlot × Nat × Nat)}
    (hhistory : history = init ++ .empty :: readies.map readyEvent)
    (hanswers : ∀ event ∈ init, IsAnswer event) (message : QueueMessage ρ τ ε)
    (hnot : ∀ ready : WorkerSlot × Nat × Nat, message = .ready ready.1 ready.2.1 ready.2.2 →
      ready.1 ∉ pool.workerSlots) (orderly : List (QueueEvent ρ τ ε))
    (hprefixed : history ++ [.message message] <+: orderly) :
    ¬ OrderlyHistory setOrder pool submissions orderly := by
  intro horderly
  rw [hhistory] at hprefixed
  rcases horderly.next_of_empty _ readies hanswers hprefixed with ⟨ready, heq, hslot⟩
  unfold readyEvent at heq
  cases heq
  exact hnot ready rfl hslot

/-- The process that is waited for is up: its open requests end, and the next respawn
    starts. -/
theorem Collected.respawned {slot : WorkerSlot} (staleGeneration : Nat) {rest : List WorkerSlot}
    {init : List (QueueEvent ρ τ ε)} {readies : List (WorkerSlot × Nat × Nat)}
    {done : List WorkerSlot} {generation pid : Nat}
    (hready : Collected pool submissions history call)
    (hhistory : history =
      init ++ .empty :: (readies ++ [(slot, generation, pid)]).map readyEvent)
    (hanswers : ∀ event ∈ init, IsAnswer event)
    (hslots : ∀ ready ∈ readies ++ [(slot, generation, pid)], ready.1 ∈ pool.workerSlots)
    (horder : setOrder.order (hungSlots submissions (unanswered submissions init)) =
      done ++ slot :: rest)
    (hdone : done.Sublist (readies.map (·.1)))
    (hnext : ¬ (done ++ [slot]).Sublist (readies.map (·.1)))
    (hopen : ∀ submission ∈ submissions, submission.requestId ∈ call.remaining ↔
      submission.requestId ∈ unanswered submissions init ∧ submission.slot ∉ done) :
    DispatchInv setOrder pool submissions history
      (WholeRun.respawnNext ((openAt call slot).foldl (timeOut staleGeneration) call) rest) := by
  -- The requests of the slot are timed out, and the wait goes on to the next slot.
  rcases hready.timeOutOpen slot staleGeneration with ⟨hcollected, hremaining⟩
  have hmap : (readies ++ [(slot, generation, pid)]).map (·.1) = readies.map (·.1) ++ [slot] :=
    List.map_append
  refine hcollected.respawnNext init _ (done ++ [slot]) rest hhistory hanswers hslots ?_ ?_ ?_ ?_
  · rw [horder, List.append_assoc]
    rfl
  -- The slots done are respawned in the order of the ready messages.
  · rw [hmap]
    exact hdone.append (List.Sublist.refl _)
  · intro next hsub
    rw [hmap] at hsub
    rcases concat_sublist_concat hsub with hsub' | ⟨-, hsub'⟩
    · exact hnext ((List.sublist_append_left _ _).trans hsub')
    · exact hnext hsub'
  -- What is open now was open before and is on no slot that is done.
  · intro submission hmem
    rw [hremaining submission hmem, hopen submission hmem, and_assoc, List.mem_append,
      List.mem_singleton, not_or]

/-- A respawn reads a message. -/
theorem Collected.awaitMessage (h : Collected pool submissions history call)
    (slot : WorkerSlot) (staleGeneration : Nat) (rest : List WorkerSlot)
    (init : List (QueueEvent ρ τ ε)) (readies : List (WorkerSlot × Nat × Nat))
    (done : List WorkerSlot) (hhistory : history = init ++ .empty :: readies.map readyEvent)
    (hanswers : ∀ event ∈ init, IsAnswer event)
    (hslots : ∀ ready ∈ readies, ready.1 ∈ pool.workerSlots)
    (horder : setOrder.order (hungSlots submissions (unanswered submissions init)) =
      done ++ slot :: rest)
    (hdone : done.Sublist (readies.map (·.1)))
    (hnext : ¬ (done ++ [slot]).Sublist (readies.map (·.1)))
    (hopen : ∀ submission ∈ submissions, submission.requestId ∈ call.remaining ↔
      submission.requestId ∈ unanswered submissions init ∧ submission.slot ∉ done)
    (message : QueueMessage ρ τ ε) :
    DispatchInv setOrder pool submissions (history ++ [.message message])
      (awaitMessage call slot staleGeneration rest message) := by
  -- Nothing but a ready message of a slot of the pool may come while a respawn is awaited.
  have hdisorder : (∀ ready : WorkerSlot × Nat × Nat,
      message = .ready ready.1 ready.2.1 ready.2.2 → ready.1 ∉ pool.workerSlots) →
      ∀ orderly, history ++ [.message message] <+: orderly →
        ¬ OrderlyHistory setOrder pool submissions orderly :=
    disorder_of_respawn hhistory hanswers message
  cases message with
  | answer requestId answer => exact .raised _ _ (hdisorder fun _ heq => by cases heq)
  | startupFault faulty generation exceptionType message =>
      exact .raised _ _ (hdisorder fun _ heq => by cases heq)
  -- A ready message is noted, whichever slot it is of.
  | ready readySlot generation pid =>
      have hread := (h.mono fun event hmem => List.mem_append_left
        [.message (.ready readySlot generation pid)] hmem).addRead
          ⟨.awaiting slot, .ready readySlot generation pid, call.remaining⟩ trivial
          (fun _ _ _ hmessage => by cases hmessage)
      have hhistory' : history ++ [.message (.ready readySlot generation pid)] =
          init ++ .empty :: (readies ++ [(readySlot, generation, pid)]).map readyEvent := by
        rw [hhistory, List.map_append, List.append_assoc]
        rfl
      unfold WholeRun.awaitMessage
      dsimp only
      split
      · rename_i hknown
        have hslots' : ∀ ready ∈ readies ++ [(readySlot, generation, pid)],
            ready.1 ∈ pool.workerSlots := by
          intro ready hmem
          rcases List.mem_append.mp hmem with hold | hnew
          · exact hslots ready hold
          · rw [List.mem_singleton.mp hnew]
            exact h.slots ▸ hknown
        split
        -- The slot that is awaited came up.
        · rename_i heq
          subst heq
          have hready : Collected pool submissions
              (history ++ [.message (.ready readySlot generation pid)])
              { call.noteRead (.awaiting readySlot) (.ready readySlot generation pid) with
                pool := call.pool.setPid readySlot pid
                registry := call.registry.invalidateWorkerGeneration readySlot staleGeneration } :=
            { hread with slots := h.slots }
          exact hready.respawned staleGeneration hhistory' hanswers hslots' horder hdone hnext hopen
        · -- A process of another slot came up first. The wait goes on.
          rename_i hne
          have hmap : (readies ++ [(readySlot, generation, pid)]).map (·.1) =
              readies.map (·.1) ++ [readySlot] := List.map_append
          refine .respawning _ slot _ rest { hread with slots := h.slots } init _ done hhistory'
            hanswers hslots' horder ?_ ?_ hopen
          · rw [hmap]
            exact hdone.trans (List.sublist_append_left _ _)
          · intro hsub
            rw [hmap] at hsub
            rcases concat_sublist_concat hsub with hsub' | ⟨heq, -⟩
            · exact hnext hsub'
            · exact hne heq.symm
      -- A slot that the pool does not have raises.
      · rename_i hunknown
        refine .raised _ _ (hdisorder fun ready heq => ?_)
        cases heq
        exact h.slots ▸ hunknown

/-- One step keeps the invariant. -/
theorem DispatchInv.step {phase : DispatchPhase ρ τ ε}
    (hinv : DispatchInv setOrder pool submissions history phase) (event : QueueEvent ρ τ ε)
    (hown : ∀ submission ∈ submissions, ∀ answer,
      event = .message (.answer submission.requestId answer) →
        ∃ result, answer = .choice result ∧ result.workItem = submission.request.workItem) :
    DispatchInv setOrder pool submissions (history ++ [event])
      (dispatchStep setOrder phase event).1 := by
  have hlater : ∀ other ∈ history, other ∈ history ++ [event] :=
    fun other hmem => List.mem_append_left _ hmem
  cases hinv with
  -- A dispatch that is over stays what it is, whatever comes after.
  | returned call outcomes results h hnone hgathered horderly =>
      rcases horderly with ⟨init, hprefixed, horderly⟩
      exact .returned call outcomes results (h.mono hlater) hnone hgathered
        ⟨init, hprefixed.trans (List.prefix_append _ _), horderly⟩
  | raised call exc hdisorder =>
      refine .raised call exc fun orderly hprefixed => hdisorder orderly ?_
      exact (List.prefix_append _ _).trans hprefixed
  -- While collecting: a message is sorted in, an empty read starts the respawns.
  | collecting call h hanswers hremaining hopen =>
      cases event with
      | message message =>
          exact h.collectMessage hanswers hremaining hopen message
            fun submission hmem answer heq => hown submission hmem answer (by rw [heq])
      | empty =>
          refine (h.mono hlater).respawnNext history [] [] _ rfl hanswers
            (fun ready hmem => by cases hmem) ?_ (List.nil_sublist _) ?_ ?_
          · rw [h.batch, hremaining]
            rfl
          · intro slot hsub
            cases hsub
          · intro submission _
            rw [hremaining]
            simp
  -- While respawning: a message may be the ready one, an empty read raises.
  | respawning call slot staleGeneration rest h init readies done hhistory hanswers hslots horder
      hdone hnext hopen =>
      cases event with
      | message message =>
          exact h.awaitMessage slot staleGeneration rest init readies done hhistory hanswers hslots
            horder hdone hnext hopen message
      | empty =>
          refine .raised _ _ fun orderly hprefixed horderly => ?_
          rw [hhistory] at hprefixed
          rcases horderly.next_of_empty _ readies hanswers hprefixed with ⟨ready, heq, -⟩
          cases heq

end Invariant

/-!
### Calls

A call reads until it returns or raises; the schedule says what it reads.
-/

section Calls

variable (setOrder : SetOrder) (pool : WholeRunWorkerPool) (registry : LeaseRegistry)
  (holderSlots : String → Option WorkerSlot) (items : List (ChoiceWorkItem ρ))

/-- The call when its batch is submitted. -/
def submitted (τ ε : Type) (pool : WholeRunWorkerPool) (registry : LeaseRegistry)
    (holderSlots : String → Option WorkerSlot) (items : List (ChoiceWorkItem ρ)) :
    DispatchCall ρ τ ε × Except PyException Unit :=
  submitBatch holderSlots { pool, registry, nextBootstrapIndex := pool.nextBootstrapIndex } items

/-- What comes out of the queue during a call. Every message was written by a
    worker: when it came up, or in answer to a request of the batch or an earlier
    one. -/
structure QueueSchedule (ρ τ ε : Type) (pool : WholeRunWorkerPool)
    (submissions : List (Submission ρ)) where
  event : Nat → QueueEvent ρ τ ε
  earlier : List (Nat × PoolRequest ρ)
  earlier_le : ∀ sent ∈ earlier, sent.1 ≤ pool.nextRequestId
  fromWorkers : ∀ n message, event n = .message message → FromWorkers
    (earlier ++ submissions.map fun submission =>
      (submission.requestId, PoolRequest.choice submission.request)) message

/-- The call returns one outcome for each item, of the item's own request; each
    message that it reads has the shape its reader unpacks; and an answer that
    was read while its request was open is the outcome of that request. -/
def MessagesAccounted (event : Nat → QueueEvent ρ τ ε) : Prop :=
  ∃ n call outcomes, Run.after (dispatchStep setOrder)
      (startDispatch pool registry holderSlots items) event n = .returned call outcomes ∧
    call.submissions.map (·.request.workItem) = items ∧
    List.Forall₂ (Own ((List.range n).map event)) call.submissions outcomes ∧
    (∀ read ∈ call.reads, read.Understood) ∧
    ∀ read ∈ call.reads, ∀ requestId answer, read.message = .answer requestId answer →
      requestId ∈ read.outstanding →
        ∃ result, answer = .choice result ∧ (requestId, result) ∈ outcomes

variable {setOrder pool registry holderSlots items}

/-- The answer to a request of the batch is a result for its item. -/
theorem QueueSchedule.answer_own {submissions : List (Submission ρ)}
    (schedule : QueueSchedule ρ τ ε pool submissions)
    (hids : (submissions.map (·.requestId)).Nodup)
    (hnumbered : ∀ submission ∈ submissions, pool.nextRequestId < submission.requestId) (n : Nat)
    (submission : Submission ρ) (hmem : submission ∈ submissions) (answer : Answer ρ τ ε)
    (hevent : schedule.event n = .message (.answer submission.requestId answer)) :
    ∃ result, answer = .choice result ∧ result.workItem = submission.request.workItem := by
  have hworkers := schedule.fromWorkers n _ hevent
  -- What was sent under the id is the request of the submission.
  have hsent : ∀ request, (submission.requestId, request) ∈ (schedule.earlier ++
      submissions.map fun submission =>
        (submission.requestId, PoolRequest.choice submission.request)) →
      request = .choice submission.request := by
    intro request hin
    rcases List.mem_append.mp hin with hearlier | hbatch
    · have hle := schedule.earlier_le _ hearlier
      have hlt := hnumbered submission hmem
      dsimp only at hle
      omega
    · rcases List.mem_map.mp hbatch with ⟨other, hother, heq⟩
      rw [Prod.mk.injEq] at heq
      rw [← heq.2, List.inj_on_of_nodup_map hids hother hmem heq.1]
  generalize hmessage : QueueMessage.answer submission.requestId answer = message at hworkers
  cases hworkers with
  | startup slot generation outcome => cases outcome <;> cases hmessage
  | choice slot generation pid requestId request outcome hin hitem =>
      cases outcome with
      | ok result =>
          cases hmessage
          have hrequest := hsent _ hin
          cases hrequest
          exact ⟨result, rfl, hitem result rfl⟩
      | error exc =>
          cases hmessage
          have hrequest := hsent _ hin
          cases hrequest
          exact ⟨_, rfl, rfl⟩
  | explore requestId outcome hin =>
      have hid : submission.requestId = requestId := by
        cases outcome <;> cases hmessage <;> rfl
      have hrequest := hsent _ (hid ▸ hin)
      cases hrequest

theorem submitted_spec (hok : (submitted τ ε pool registry holderSlots items).2 = .ok ()) :
    Submitted pool items (submitted τ ε pool registry holderSlots items).1 := by
  have hempty : Submitted pool ([] : List (ChoiceWorkItem ρ))
      ({ pool, registry, nextBootstrapIndex := pool.nextBootstrapIndex } : DispatchCall ρ τ ε) :=
    { slots := rfl
      items := rfl
      remaining := rfl
      numbered := fun id hid => by cases hid
      nodup := List.nodup_nil
      le := Nat.le_refl _
      results := rfl
      reads := rfl }
  exact submitBatch_spec holderSlots items [] _ hempty hok

/-- A batch that was submitted starts to collect. -/
theorem Submitted.start {call : DispatchCall ρ τ ε} (h : Submitted pool items call) :
    DispatchInv setOrder pool call.submissions [] (loopHead call) := by
  have hcollected : Collected pool call.submissions ([] : List (QueueEvent ρ τ ε)) call :=
    { slots := h.slots
      batch := rfl
      ids := h.remaining ▸ h.nodup
      nodup := h.nodup
      known := fun id hid => h.remaining ▸ hid
      complete := fun submission hmem hclosed => by
        rw [h.remaining] at hclosed
        exact absurd (List.mem_map_of_mem hmem) hclosed
      recorded := fun workId requestId answer hget => by
        rw [h.results] at hget
        cases hget
      understood := fun read hread => by
        rw [h.reads] at hread
        cases hread
      kept := fun _ read hread => by
        rw [h.reads] at hread
        cases hread }
  refine hcollected.loopHead (fun event hmem => by cases hmem) ?_
  rw [h.remaining]
  exact (List.filter_eq_self.mpr fun id _ => rfl).symm

variable (setOrder) in
/-- The invariant holds after any number of events. -/
theorem dispatchInv_after
    (schedule : QueueSchedule ρ τ ε pool (submitted τ ε pool registry
      holderSlots items).1.submissions)
    (hok : (submitted τ ε pool registry holderSlots items).2 = .ok ()) (n : Nat) :
    DispatchInv setOrder pool (submitted τ ε pool registry holderSlots items).1.submissions
      ((List.range n).map schedule.event)
      (Run.after (dispatchStep setOrder) (startDispatch pool registry holderSlots items)
        schedule.event n) := by
  have hsubmitted := submitted_spec hok
  induction n with
  -- Before any event: the submitted batch, with nothing read.
  | zero =>
      have hstart : startDispatch pool registry holderSlots items =
          loopHead (submitted τ ε pool registry holderSlots items).1 := by
        unfold startDispatch
        unfold submitted at hok ⊢
        generalize submitBatch holderSlots _ items = outcome at hok ⊢
        rcases outcome with ⟨call, exc | filled⟩
        · cases hok
        · rfl
      change DispatchInv _ _ _ _ (startDispatch pool registry holderSlots items)
      rw [hstart]
      exact hsubmitted.start
  -- An answer that comes belongs to the request that has its number.
  | succ n ih =>
      rw [List.range_succ, List.map_append, List.map_singleton]
      refine ih.step _ fun submission hmem answer hevent => ?_
      refine schedule.answer_own (hsubmitted.remaining ▸ hsubmitted.nodup) ?_ n submission hmem
        answer hevent
      intro other hother
      refine (hsubmitted.numbered _ ?_).1
      rw [hsubmitted.remaining]
      exact List.mem_map_of_mem hother

/-- A call that raised before it read stays so. -/
theorem after_raised (event : Nat → QueueEvent ρ τ ε) (call : DispatchCall ρ τ ε)
    (exc : PyException) (n : Nat) :
    Run.after (dispatchStep setOrder) (.raised call exc) event n = .raised call exc := by
  induction n with
  | zero => rfl
  | succ n ih =>
      unfold Run.after
      rw [ih]
      rfl

theorem startDispatch_error (exc : PyException)
    (herror : (submitted τ ε pool registry holderSlots items).2 = .error exc) :
    startDispatch pool registry holderSlots items =
      .raised (submitted τ ε pool registry holderSlots items).1 exc := by
  unfold startDispatch
  unfold submitted at herror ⊢
  generalize submitBatch holderSlots _ items = outcome at herror ⊢
  rcases outcome with ⟨call, exc' | filled⟩
  · cases herror
    rfl
  · cases herror

/-- An outcome that is stored under an item's id is the item's own, if no other
    item has that id. -/
theorem Collected.own {submissions : List (Submission ρ)} {history : List (QueueEvent ρ τ ε)}
    {call : DispatchCall ρ τ ε} (h : Collected pool submissions history call)
    (hdistinct : (submissions.map Submission.workId).Nodup) (submission : Submission ρ)
    (hmem : submission ∈ submissions) (outcome : Nat × BranchResult ρ τ)
    (hget : call.results.get? submission.workId = some (outcome.1, .choice outcome.2)) :
    Own history submission outcome := by
  rcases h.recorded _ _ _ hget with ⟨-, owner, howner, hid, result, hresult, hown⟩
  cases hresult
  rw [← List.inj_on_of_nodup_map hdistinct howner hmem hid]
  exact hown

/-- A call accounts for its messages exactly when its items can be routed on an
    open pool, no two of them share a work id, and the queue is orderly. -/
theorem messages_accounted_iff (setOrder : SetOrder) (pool : WholeRunWorkerPool)
    (registry : LeaseRegistry) (holderSlots : String → Option WorkerSlot)
    (items : List (ChoiceWorkItem ρ))
    (schedule : QueueSchedule ρ τ ε pool
      (submitted τ ε pool registry holderSlots items).1.submissions) :
    MessagesAccounted setOrder pool registry holderSlots items schedule.event ↔
      (items = [] ∨ pool.closed = false) ∧
      Routable pool.branchWorkerSlots pool.workerGenerations holderSlots registry
        pool.nextBootstrapIndex items ∧
      (items.map (·.workId)).Nodup ∧
      Orderly setOrder pool (submitted τ ε pool registry holderSlots items).1.submissions
        schedule.event := by
  have hsubmit : (submitted τ ε pool registry holderSlots items).2 = .ok () ↔
      (items = [] ∨ pool.closed = false) ∧ Routable pool.branchWorkerSlots pool.workerGenerations
        holderSlots registry pool.nextBootstrapIndex items :=
    submitBatch_ok_iff holderSlots items _
  -- A submission that raised has no call to return.
  cases houtcome : (submitted τ ε pool registry holderSlots items).2 with
  | error exc =>
      rw [houtcome] at hsubmit
      -- Neither side holds.
      constructor
      · rintro ⟨n, call, outcomes, hafter, -⟩
        rw [startDispatch_error exc houtcome, after_raised] at hafter
        cases hafter
      · rintro ⟨hopen, hroutable, -⟩
        cases hsubmit.mpr ⟨hopen, hroutable⟩
  | ok filled =>
      -- The batch was submitted, so the invariant holds after every event of the schedule.
      have hspec := submitted_spec houtcome
      have hinv := dispatchInv_after setOrder schedule houtcome
      have hids : (items.map (·.workId)) = (submitted τ ε pool registry holderSlots
          items).1.submissions.map Submission.workId := by
        rw [← congrArg (List.map ChoiceWorkItem.workId) hspec.items, List.map_map]
        rfl
      rcases hsubmit.mp houtcome with ⟨hopen, hroutable⟩
      rw [hids]
      generalize (submitted τ ε pool registry holderSlots items).1 = call at *
      -- The call returned: its history was orderly and its ids are distinct.
      constructor
      · rintro ⟨n, final, outcomes, hafter, -, hown, -, -⟩
        have hn := hinv n
        rw [hafter] at hn
        cases hn with
        | returned _ _ results h hnone hgathered horderly =>
            refine ⟨hopen, hroutable, ?_, ?_⟩
            · -- Two items with one id would both have the outcome that was stored last.
              rw [show final.submissions = call.submissions from h.batch] at hown
              have hboth := forall₂_and hgathered hown
              rw [List.nodup_map_iff_inj_on (List.Nodup.of_map _ h.ids)]
              intro submission hmem other hother heq
              rcases forall₂_exists_right hboth hmem with ⟨outcome, -, hget, hown⟩
              rcases forall₂_exists_right hboth hother with ⟨outcome', -, hget', hown'⟩
              rw [heq, hget', Option.some.injEq, Prod.mk.injEq] at hget
              apply List.inj_on_of_nodup_map h.ids hmem hother
              rw [← hown.1, ← hown'.1]
              exact hget.1.symm
            · rcases horderly with ⟨init, hprefixed, horderly⟩
              refine ⟨init.length, ?_⟩
              have hinit := List.prefix_iff_eq_take.mp hprefixed
              have hle := hprefixed.length_le
              rw [List.length_map, List.length_range] at hle
              rw [← List.map_take, List.take_range, Nat.min_eq_left hle] at hinit
              rw [← hinit]
              exact horderly
      -- The history was orderly: no other phase than the returned one is left after it.
      · rintro ⟨-, -, hdistinct, n, horderly⟩
        have hn := hinv n
        generalize hphase : Run.after (dispatchStep setOrder) (startDispatch pool registry
          holderSlots items) schedule.event n = phase at hn
        cases hn with
        | raised _ _ hdisorder => exact absurd horderly (hdisorder _ (List.prefix_refl _))
        -- Still respawning, though every hung slot has come up.
        | respawning final slot staleGeneration rest h init readies done hhistory hanswers _ horder
            _ hnext _ =>
            rw [hhistory] at horderly
            have hsub := horderly.hung_sublist hanswers
            rw [horder] at hsub
            refine absurd (List.Sublist.trans ?_ hsub) hnext
            exact (List.Sublist.refl done).append (List.singleton_sublist.mpr List.mem_cons_self)
        -- Still collecting, though every request was answered.
        | collecting final h hanswers hremaining hne =>
            generalize (List.range n).map schedule.event = history at *
            cases horderly with
            | answered _ _ hall => exact absurd (hremaining.trans hall) hne
            | respawned init readies _ _ _ =>
                refine absurd (hanswers .empty ?_) not_isAnswer_empty
                exact List.mem_append_right _ List.mem_cons_self
        | returned final outcomes results h hnone hgathered _ =>
            have hbatch : final.submissions = call.submissions := h.batch
            refine ⟨n, final, outcomes, hphase, ?_, ?_, h.understood, ?_⟩
            · rw [hbatch]
              exact hspec.items
            · rw [hbatch]
              have hmembers : List.Forall₂ (fun submission outcome =>
                  submission ∈ call.submissions ∧
                    results.get? submission.workId = some (outcome.1, .choice outcome.2))
                  call.submissions outcomes :=
                (List.forall₂_and_left _ _).mpr ⟨fun _ hmem => hmem, hgathered⟩
              exact hmembers.imp fun submission outcome hboth =>
                h.own hdistinct submission hboth.1 outcome hboth.2
            · intro read hread requestId answer hmessage hin
              rcases h.kept hdistinct read hread requestId answer hmessage hin with
                ⟨submission, hmem, hget⟩
              rcases forall₂_exists_right hgathered hmem with ⟨outcome, houtcome', hget'⟩
              change results.get? _ = _ at hget
              rw [hget', Option.some.injEq, Prod.mk.injEq] at hget
              refine ⟨outcome.2, hget.2.symm, ?_⟩
              rw [← hget.1]
              exact houtcome'

end Calls

/-!
### A slow worker

Two workers of which one is slow: the answer of the other arrives while the slow one is
replaced.
-/

section SlowWorker

/-- Sets are walked through in ascending order. -/
def ascending : SetOrder where
  order := id
  perm := List.Perm.refl

/-- An item that is bootstrapped. -/
def roomItem (workId : String) : ChoiceWorkItem Unit where
  workId
  contextId := workId
  workKind := .subBranch
  replay := ()

/-- A pool of two workers besides the main one. -/
def twoWorkers : WholeRunWorkerPool where
  includeMainWorker := false
  branchWorkerCount := 2
  branchWorkerCount_pos := Nat.two_pos

/-- A batch of two rooms. -/
def twoRooms : List (ChoiceWorkItem Unit) := [roomItem "shop", roomItem "rest"]

/-- What the second worker reports. -/
def restResult : BranchResult Unit Unit where
  status := .success
  workItem := roomItem "rest"
  executionMode := .bootstrapStep
  workerSlot := some (.branch 1)
  workerGeneration := some 1
  pid := some 101

/-- Both workers are slow. While the first is respawned, the second answers. -/
def slowSchedule : QueueSchedule Unit Unit Unit twoWorkers
    (submitted Unit Unit twoWorkers {} (fun _ => none) twoRooms).1.submissions where
  event
    | 0 => .empty
    | 1 => .message (.answer 2 (.choice restResult))
    | 2 => .message (.ready (.branch 0) 2 102)
    | _ => .empty
  earlier := []
  earlier_le := fun _ hmem => by cases hmem
  fromWorkers := by
    rintro (_ | _ | _ | n) message heq <;> cases heq
    · exact .choice (.branch 1) 1 101 2 ⟨roomItem "rest", .bootstrapStep, none⟩ (.ok restResult)
        (List.mem_cons_of_mem _ List.mem_cons_self) (fun result h => by cases h; rfl)
    · exact .startup (.branch 0) 2 (.ok 102)

/-- The answer is read as the new process's `__ready__`, and the call raises. -/
theorem not_messages_accounted_slow :
    ¬ MessagesAccounted ascending twoWorkers {} (fun _ => none) twoRooms slowSchedule.event := by
  rintro ⟨n, call, outcomes, hafter, -⟩
  have hraised : ∀ n, ∃ call exc, Run.after (dispatchStep ascending)
      (startDispatch twoWorkers {} (fun _ => none) twoRooms) slowSchedule.event (n + 2) =
        .raised call exc := by
    intro n
    induction n with
    | zero => exact ⟨_, _, rfl⟩
    | succ n ih =>
        rcases ih with ⟨call, exc, h⟩
        refine ⟨call, exc, ?_⟩
        change (dispatchStep ascending (Run.after _ _ _ (n + 2)) _).1 = _
        rw [h]
        rfl
  rcases n with _ | _ | n
  · cases hafter
  · cases hafter
  · rcases hraised n with ⟨_, _, h⟩
    rw [h] at hafter
    cases hafter

end SlowWorker

end WholeRun

end STS2RL
