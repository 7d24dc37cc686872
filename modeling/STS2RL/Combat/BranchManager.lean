import STS2RL.Combat.WorkerPool
import Mathlib.Logic.Relation

/-!
# The Branch Manager

`BranchManager`: a state machine for every branch over one worker pool. Branches
are submitted as queued; a poll runs them; a branch may be cancelled, which
cascades to its registered descendants, and released, after which only its id
and its state are known.

Which branches a cancel visits depends only on the links between records, and
cancelling one changes no link. So the visit is a function of its own
(`cascade`), and the cancel goes over what it gives.

## Main definitions

* `BranchRecord`, `BranchManager`: One branch, and the manager.
* `cascade`, `cancelBranches`: A cancel and whom it reaches.
* `releaseBranches`: A release.
* `finish`: A branch gets its result.

## Theorems

* `cancelOne_records`, `quarantine_records`, `releaseOne_records`: Which records change.
* `cascade_descends`: A visit stays among descendants.
-/

namespace STS2RL

namespace Combat

variable {κ β : Type}

/-- `BranchState`. -/
inductive BranchState where
  | queued
  | running
  | completed
  | partialResult
  | cancelled
  | faulted
  | released
  deriving DecidableEq, Repr

namespace BranchState

/-- `_ACTIVE_STATES`. -/
def isActive : BranchState → Bool
  | queued => true
  | running => true
  | _ => false

/-- A state's value. -/
def text : BranchState → String
  | queued => "queued"
  | running => "running"
  | completed => "completed"
  | partialResult => "partial"
  | cancelled => "cancelled"
  | faulted => "faulted"
  | released => "released"

/-- What a cancel leaves alone. -/
def isDiscarded : BranchState → Bool
  | cancelled => true
  | released => true
  | _ => false

end BranchState

/-- One branch. It is stored under its id. -/
structure BranchRecord (κ β : Type) where
  workItem : Option (WorkItem κ β)
  state : BranchState
  parentBranchId : Option String := none
  childBranchIds : List String := []
  workerId : Option Nat := none
  workerGeneration : Option Nat := none
  requestId : Option Nat := none
  executionMode : Option ExecutionMode := none
  result : Option (BranchResult κ β) := none

namespace BranchRecord

/-- What a cancel makes of a record. -/
def cancelled (record : BranchRecord κ β) : BranchRecord κ β :=
  match record.state with
  | .cancelled => record
  | .released => record
  | .queued => { record with state := .cancelled }
  | .running => { record with state := .cancelled }
  | .completed => { record with state := .cancelled, result := none }
  | .partialResult => { record with state := .cancelled, result := none }
  | .faulted => { record with state := .cancelled, result := none }

/-- The record without its links. -/
def unlinked (record : BranchRecord κ β) : BranchRecord κ β :=
  { record with parentBranchId := none, childBranchIds := [] }

theorem unlinked_inj {record record' : BranchRecord κ β} (h : record.unlinked = record'.unlinked) :
    record.state = record'.state ∧ record.result = record'.result := by
  unfold unlinked at h
  rw [BranchRecord.mk.injEq] at h
  exact ⟨h.2.1, h.2.2.2.2.2.2.2.2⟩

theorem cancelled_cancelled (record : BranchRecord κ β) :
    record.cancelled.cancelled = record.cancelled := by
  unfold cancelled
  cases hstate : record.state <;> simp [hstate]

/-- A cancel that leaves the state alone leaves the record alone. -/
theorem cancelled_eq_self (record : BranchRecord κ β) (h : record.cancelled.state ≠ .cancelled) :
    record.cancelled = record := by
  unfold cancelled at h ⊢
  cases hstate : record.state <;> simp [hstate] at h ⊢

end BranchRecord

/-- The records, by branch id. -/
abbrev BranchRecords (κ β : Type) := Dict String (BranchRecord κ β)

/-- The manager. The pool's registry is the manager's `_lease_registry`. -/
structure BranchManager (κ β : Type) where
  pool : BranchWorkerPool κ β
  records : BranchRecords κ β := Dict.empty
  requestIdToBranchId : Dict Nat String := Dict.empty
  nextSerial : Nat := 0
  nextBootstrapIndex : Nat := 0
  maxBranches : Nat := 256
  maxBranches_pos : 0 < maxBranches := by decide

theorem maxBranches_default_pos : 0 < 256 := by decide

/-- An `UnknownBranchError`. -/
def unknownBranch (branchId : String) : PyException := ⟨"UnknownBranchError", branchId⟩

namespace BranchManager

/-- Change the record of a known branch. -/
def setRecord (manager : BranchManager κ β) (branchId : String) (record : BranchRecord κ β) :
    BranchManager κ β :=
  { manager with records := manager.records.set branchId record }

@[simp]
theorem setRecord_records (manager : BranchManager κ β) (branchId : String)
    (record : BranchRecord κ β) (other : String) :
    (manager.setRecord branchId record).records.get? other =
      if other = branchId then some record else manager.records.get? other :=
  Dict.get?_set manager.records branchId other record

/-- `active_branch_count`. -/
def activeBranchCount (manager : BranchManager κ β) : Nat :=
  (manager.records.entries.filter fun entry => entry.2.state.isActive).length

/-!
### Submitting

A branch is put on record, queued, under the parent it names.
-/

section Submit

/-- `_new_branch_id`. -/
def branchIdOf (serial : Nat) : String := "branch-" ++ toString serial

/-- A new queued branch, linked to its parent. -/
def addBranch (manager : BranchManager κ β) (entry : WorkItem κ β × Option String) :
    BranchManager κ β :=
  let branchId := branchIdOf (manager.nextSerial + 1)
  let added := { manager.setRecord branchId
      { workItem := some entry.1, state := .queued, parentBranchId := entry.2 } with
    nextSerial := manager.nextSerial + 1 }
  match entry.2 with
  | none => added
  | some parentId =>
      match added.records.get? parentId with
      | none => added
      | some parent => added.setRecord parentId
          { parent with childBranchIds := parent.childBranchIds ++ [branchId] }

/-- `submit_many`. -/
def submitMany (manager : BranchManager κ β) (entries : List (WorkItem κ β × Option String)) :
    BranchManager κ β × Except PyException (List String) :=
  match (entries.filterMap (·.2)).find? fun parentId => (manager.records.get? parentId).isNone with
  | some parentId => (manager, .error (unknownBranch parentId))
  | none =>
      if manager.maxBranches < manager.activeBranchCount + entries.length then
        (manager, .error ⟨"BranchLimitExceededError", "submitting " ++ toString entries.length ++
          " Branch(es) would exceed max_branches=" ++ toString manager.maxBranches ++
          " (currently " ++ toString manager.activeBranchCount ++ " active)"⟩)
      else
        (entries.foldl addBranch manager, .ok ((List.range entries.length).map fun i =>
          branchIdOf (manager.nextSerial + 1 + i)))

end Submit

/-!
### Cancelling

A cancel follows the links to every descendant, with as much fuel as there are links.
-/

section Cancel

/-- The visit of `cancel_branches`: the stack of ids to visit, and those visited,
    in order. It stops at an id that is not known. Every visit takes one id off
    the stack, and no branch puts its children on it twice. -/
def cascade (records : BranchRecords κ β) :
    Nat → List String → List String → List String × Option String
  | 0, _, visited => (visited, none)
  | _ + 1, [], visited => (visited, none)
  | fuel + 1, branchId :: toVisit, visited =>
      if branchId ∈ visited then cascade records fuel toVisit visited
      else
        match records.get? branchId with
        | none => (visited, some branchId)
        | some record =>
            cascade records fuel (record.childBranchIds.reverse ++ toVisit) (visited ++ [branchId])

/-- More than any visit can take. -/
def cascadeFuel (records : BranchRecords κ β) (branchIds : List String) : Nat :=
  branchIds.length + (records.entries.map fun entry => entry.2.childBranchIds.length).sum + 1

/-- What a cancel of a branch does to the pool: the worker of a running branch is
    replaced, and the lease of a finished one goes. -/
def cancelPool (pool : BranchWorkerPool κ β) (record : BranchRecord κ β) :
    BranchWorkerPool κ β :=
  let invalidated : BranchWorkerPool κ β :=
    match record.result.bind (·.establishedLease) with
    | none => pool
    | some lease => { pool with registry := pool.registry.invalidateLease lease }
  match record.state with
  | .cancelled => pool
  | .released => pool
  | .queued => pool
  | .running =>
      match record.workerId with
      | none => pool
      | some workerId => pool.respawnWorker workerId
  | .completed => invalidated
  | .partialResult => invalidated
  | .faulted => invalidated

/-- `_cancel_one`, of a known branch. -/
def cancelOne (manager : BranchManager κ β) (branchId : String) : BranchManager κ β :=
  match manager.records.get? branchId with
  | none => manager
  | some record =>
      { manager.setRecord branchId record.cancelled with
        pool := cancelPool manager.pool record
        requestIdToBranchId :=
          match record.state, record.requestId with
          | .running, some requestId => manager.requestIdToBranchId.erase requestId
          | _, _ => manager.requestIdToBranchId }

/-- `cancel_branches`. -/
def cancelBranches (manager : BranchManager κ β) (branchIds : List String) :
    BranchManager κ β × Except PyException Unit :=
  let (visited, unknown) := cascade manager.records (cascadeFuel manager.records branchIds)
    branchIds.reverse []
  (visited.foldl cancelOne manager,
    match unknown with
    | none => .ok ()
    | some branchId => .error (unknownBranch branchId))

end Cancel

/-!
### Releasing

A released leaf is pruned, and a released branch with children stays as a link until they
are gone.
-/

section Release

/-- `_prune_released_leaf_from_parent`: released leaves leave the graph, upwards. -/
def pruneReleasedLeaf : Nat → BranchManager κ β → String → BranchManager κ β
  | 0, manager, _ => manager
  | fuel + 1, manager, branchId =>
      match manager.records.get? branchId with
      | none => manager
      | some current =>
          match current.parentBranchId with
          | none => manager
          | some parentId =>
              if current.state = .released ∧ current.childBranchIds = [] then
                let detached := manager.setRecord branchId { current with parentBranchId := none }
                match detached.records.get? parentId with
                | none => detached
                | some parent =>
                    pruneReleasedLeaf fuel (detached.setRecord parentId
                      { parent with childBranchIds := parent.childBranchIds.erase branchId })
                      parentId
              else manager

/-- Whether a link to a child still leads to a branch that is not released. -/
def retainsChild (records : BranchRecords κ β) (childId : String) : Bool :=
  match records.get? childId with
  | none => false
  | some child => child.state ≠ .released ∨ child.childBranchIds ≠ []

/-- `_compact_released_record`. -/
def compactReleased (manager : BranchManager κ β) (branchId : String) : BranchManager κ β :=
  match manager.records.get? branchId with
  | none => manager
  | some record =>
      let compacted := manager.setRecord branchId
        { record with
          workItem := none
          result := none
          workerId := none
          workerGeneration := none
          requestId := none
          executionMode := none
          childBranchIds := record.childBranchIds.filter (retainsChild manager.records) }
      pruneReleasedLeaf compacted.records.size compacted branchId

/-- The state of a released branch, before its record is compacted. -/
def releaseState (manager : BranchManager κ β) (branchId : String) (record : BranchRecord κ β) :
    BranchManager κ β :=
  if record.state = .released then manager
  else
    let cancelled : BranchManager κ β :=
      if record.state.isActive then manager.cancelOne branchId
      else
        match record.result.bind (·.establishedLease) with
        | none => manager
        | some lease => { manager with
            pool := { manager.pool with registry := manager.pool.registry.invalidateLease lease } }
    match cancelled.records.get? branchId with
    | none => cancelled
    | some record => cancelled.setRecord branchId { record with state := .released }

/-- One step of `release_branches`. -/
def releaseOne (manager : BranchManager κ β) (branchId : String) :
    BranchManager κ β × Except PyException Unit :=
  match manager.records.get? branchId with
  | none => (manager, .error (unknownBranch branchId))
  | some record => ((manager.releaseState branchId record).compactReleased branchId, .ok ())

/-- `release_branches`. -/
def releaseBranches (manager : BranchManager κ β) :
    List String → BranchManager κ β × Except PyException Unit
  | [] => (manager, .ok ())
  | branchId :: rest =>
      match manager.releaseOne branchId with
      | (manager, .error e) => (manager, .error e)
      | (manager, .ok ()) => manager.releaseBranches rest

end Release

/-- `_finish`, of a branch whose work item is there. -/
def finish (manager : BranchManager κ β) (branchId : String) (record : BranchRecord κ β)
    (item : WorkItem κ β) (result : BranchResult κ β) : BranchManager κ β :=
  { manager.setRecord branchId
      { record with
        result := some result
        state := if result.status = .success then .completed else .faulted } with
    pool := { manager.pool with
      registry := BranchWorkerPool.settleLease manager.pool.registry item result } }

/-- `_quarantine_poll_branches`: the branches a poll admitted are cancelled, and
    released whatever the cancel does. -/
def quarantine (manager : BranchManager κ β) (branchIds : List String) : BranchManager κ β :=
  let known := branchIds.filter fun branchId => (manager.records.get? branchId).isSome
  ((manager.cancelBranches known).1.releaseBranches known).1

/-!
### What happens to a record

For each operation, what it does to the record of each branch.
-/

section Records

variable (manager : BranchManager κ β)

/-- A cancel changes the record of the one branch. -/
theorem cancelOne_records (branchId other : String) :
    (manager.cancelOne branchId).records.get? other =
      if other = branchId then (manager.records.get? other).map BranchRecord.cancelled
      else manager.records.get? other := by
  unfold cancelOne
  cases hget : manager.records.get? branchId with
  | none =>
      by_cases hother : other = branchId
      · rw [if_pos hother, hother, hget]
        rfl
      · rw [if_neg hother]
  | some record =>
      change (manager.setRecord branchId record.cancelled).records.get? other = _
      rw [setRecord_records]
      by_cases hother : other = branchId
      · rw [if_pos hother, if_pos hother, hother, hget]
        rfl
      · rw [if_neg hother, if_neg hother]

/-- A cancel changes the visited branches and no others. -/
theorem foldl_cancelOne_records (visited : List String) (other : String) :
    ∀ manager : BranchManager κ β, (visited.foldl cancelOne manager).records.get? other =
      if other ∈ visited then (manager.records.get? other).map BranchRecord.cancelled
      else manager.records.get? other := by
  induction visited with
  | nil => exact fun manager => (if_neg List.not_mem_nil).symm
  | cons branchId rest ih =>
      intro manager
      rw [List.foldl_cons, ih, cancelOne_records]
      by_cases hother : other = branchId
      · by_cases hrest : other ∈ rest
        · -- Cancelled twice, which is cancelled once.
          have htwice : BranchRecord.cancelled ∘ BranchRecord.cancelled =
              (BranchRecord.cancelled : BranchRecord κ β → BranchRecord κ β) :=
            funext BranchRecord.cancelled_cancelled
          rw [if_pos hrest, if_pos hother, if_pos (List.mem_cons_of_mem _ hrest), Option.map_map,
            htwice]
        · rw [if_neg hrest, if_pos hother, if_pos (List.mem_cons.mpr (.inl hother))]
      · rw [if_neg hother]
        by_cases hrest : other ∈ rest
        · rw [if_pos hrest, if_pos (List.mem_cons_of_mem _ hrest)]
        · rw [if_neg hrest, if_neg]
          rw [List.mem_cons]
          exact fun h => h.elim hother hrest

/-- Pruning changes links only. -/
theorem pruneReleasedLeaf_records (fuel : Nat) (other : String) :
    ∀ (manager : BranchManager κ β) (branchId : String),
      ((pruneReleasedLeaf fuel manager branchId).records.get? other).map BranchRecord.unlinked =
        (manager.records.get? other).map BranchRecord.unlinked := by
  induction fuel with
  | zero => exact fun _ _ => rfl
  | succ fuel ih =>
      intro manager branchId
      unfold pruneReleasedLeaf
      -- A record stored with other links is the same without them.
      have hset : ∀ (manager : BranchManager κ β) (id : String) (record record' : BranchRecord κ β),
          manager.records.get? id = some record → record'.unlinked = record.unlinked →
          ((manager.setRecord id record').records.get? other).map BranchRecord.unlinked =
            (manager.records.get? other).map BranchRecord.unlinked := by
        intro manager id record record' hget hlinks
        rw [setRecord_records]
        by_cases hother : other = id
        · rw [if_pos hother, hother, hget]
          exact congrArg some hlinks
        · rw [if_neg hother]
      cases hget : manager.records.get? branchId with
      | none => rfl
      | some current =>
          dsimp only
          split
          · rfl
          · rename_i parentId _
            split
            · have hdetached := hset manager branchId current
                { current with parentBranchId := none } hget rfl
              split
              · exact hdetached
              · rename_i parent hparent
                have hparent' := hset _ parentId parent
                  { parent with childBranchIds := parent.childBranchIds.erase branchId } hparent rfl
                exact (ih _ parentId).trans (hparent'.trans hdetached)
            · rfl

theorem compactReleased_records (branchId other : String) (hother : other ≠ branchId) :
    ((manager.compactReleased branchId).records.get? other).map BranchRecord.unlinked =
      (manager.records.get? other).map BranchRecord.unlinked := by
  unfold compactReleased
  cases hget : manager.records.get? branchId with
  | none => rfl
  | some record =>
      dsimp only
      rw [pruneReleasedLeaf_records, setRecord_records, if_neg hother]

/-- The state of a compacted record is as it was. -/
theorem compactReleased_state (branchId : String) :
    ((manager.compactReleased branchId).records.get? branchId).map (·.state) =
      (manager.records.get? branchId).map (·.state) := by
  have hstate : ∀ record : Option (BranchRecord κ β), record.map (·.state) =
      (record.map BranchRecord.unlinked).map (·.state) := by
    intro record
    cases record <;> rfl
  unfold compactReleased
  cases hget : manager.records.get? branchId with
  | none =>
      rw [hget]
  | some record =>
      dsimp only
      rw [hstate, pruneReleasedLeaf_records, setRecord_records, if_pos rfl]
      rfl

/-- A release leaves the other records. -/
theorem releaseState_records (branchId other : String) (record : BranchRecord κ β)
    (hother : other ≠ branchId) :
    (manager.releaseState branchId record).records.get? other = manager.records.get? other := by
  unfold releaseState
  have hcancelled : (manager.cancelOne branchId).records.get? other =
      manager.records.get? other := by
    rw [cancelOne_records, if_neg hother]
  split
  · rfl
  · dsimp only
    have hsame : ∀ cancelled : BranchManager κ β,
        cancelled.records.get? other = manager.records.get? other →
        (match cancelled.records.get? branchId with
          | none => cancelled
          | some record => cancelled.setRecord branchId
              { record with state := .released }).records.get? other =
          manager.records.get? other := by
      intro cancelled h
      split
      · exact h
      · rw [setRecord_records, if_neg hother, h]
    apply hsame
    split
    · exact hcancelled
    · split <;> rfl

/-- A released branch is released, or gone. -/
theorem releaseState_state (branchId : String) (record : BranchRecord κ β)
    (hget : manager.records.get? branchId = some record) :
    ((manager.releaseState branchId record).records.get? branchId).map BranchRecord.state =
      some .released := by
  unfold releaseState
  split
  -- What is released already stays so.
  · rename_i hreleased
    rw [hget]
    exact congrArg some hreleased
  · dsimp only
    -- Whatever was done before, the state is written last, to the record that is there then.
    have hset : ∀ cancelled : BranchManager κ β,
        (∃ kept, cancelled.records.get? branchId = some kept) →
        ((match cancelled.records.get? branchId with
          | none => cancelled
          | some record => cancelled.setRecord branchId
              { record with state := .released }).records.get? branchId).map BranchRecord.state =
          some .released := by
      rintro cancelled ⟨kept, hkept⟩
      rw [hkept]
      dsimp only
      rw [setRecord_records, if_pos rfl]
      rfl
    apply hset
    split
    -- An active branch was cancelled and has a record; an ended one has the one it had.
    · refine ⟨record.cancelled, ?_⟩
      rw [cancelOne_records, if_pos rfl, hget]
      rfl
    · split
      · exact ⟨record, hget⟩
      · exact ⟨record, hget⟩

/-- A release leaves other branches as they are, up to their links. -/
theorem releaseOne_records (branchId other : String) (hother : other ≠ branchId) :
    ((manager.releaseOne branchId).1.records.get? other).map BranchRecord.unlinked =
      (manager.records.get? other).map BranchRecord.unlinked := by
  unfold releaseOne
  split
  · rfl
  · dsimp only
    rw [compactReleased_records _ branchId other hother, releaseState_records _ _ _ _ hother]

theorem releaseOne_known (branchId : String) (record : BranchRecord κ β)
    (hget : manager.records.get? branchId = some record) :
    (manager.releaseOne branchId).2 = .ok () ∧
      ((manager.releaseOne branchId).1.records.get? branchId).map (·.state) = some .released := by
  unfold releaseOne
  rw [hget]
  refine ⟨rfl, ?_⟩
  dsimp only
  rw [compactReleased_state, releaseState_state _ _ _ hget]

/-- Releasing known branches releases them and leaves the others as they are, up
    to their links. -/
theorem releaseBranches_records (branchIds : List String) :
    ∀ manager : BranchManager κ β,
      (∀ branchId ∈ branchIds, (manager.records.get? branchId).isSome = true) →
      ∀ other, (other ∈ branchIds →
        ((manager.releaseBranches branchIds).1.records.get? other).map (·.state) =
          some .released) ∧
        (other ∉ branchIds →
          ((manager.releaseBranches branchIds).1.records.get? other).map BranchRecord.unlinked =
            (manager.records.get? other).map BranchRecord.unlinked) := by
  -- Two records that agree but for their children agree in their state.
  have hsome : ∀ record record' : Option (BranchRecord κ β),
      record.map BranchRecord.unlinked = record'.map BranchRecord.unlinked →
      record.isSome = record'.isSome ∧ record.map (·.state) = record'.map (·.state) := by
    intro record record' h
    cases record <;> cases record' <;> simp_all [BranchRecord.unlinked]
  induction branchIds with
  | nil => exact fun manager _ other => ⟨fun hmem => (by cases hmem), fun _ => rfl⟩
  | cons branchId rest ih =>
      intro manager hknown other
      rcases Option.isSome_iff_exists.mp (hknown branchId List.mem_cons_self) with ⟨record, hget⟩
      -- The first branch is known, so it is released and no other one is touched but for its
      -- children.
      rcases manager.releaseOne_known branchId record hget with ⟨hok, hreleased⟩
      have hothers := fun other hne => manager.releaseOne_records branchId other hne
      generalize hstep : manager.releaseOne branchId = released at hok hreleased hothers
      rcases released with ⟨next, outcome⟩
      dsimp only at hok hreleased hothers
      unfold releaseBranches
      rw [hstep, hok]
      dsimp only
      -- The rest of the list is known still: the first branch has a record, and so have the
      -- others.
      have hrest := ih next (fun id hmem => by
        by_cases hid : id = branchId
        · rw [hid, Option.isSome_iff_exists]
          cases hnext : next.records.get? branchId with
          | none =>
              rw [hnext] at hreleased
              cases hreleased
          | some record => exact ⟨record, rfl⟩
        · rw [(hsome _ _ (hothers id hid)).1]
          exact hknown id (List.mem_cons_of_mem _ hmem)) other
      -- A branch is released by the rest of the list, or by its first branch, or by neither.
      by_cases hmem : other ∈ rest
      · exact ⟨fun _ => hrest.1 hmem, fun h => absurd (List.mem_cons_of_mem _ hmem) h⟩
      · refine ⟨fun h => ?_, fun h => ?_⟩
        · have hid := (List.mem_cons.mp h).resolve_right hmem
          rw [(hsome _ _ (hrest.2 hmem)).2, hid]
          exact hreleased
        · have hid : other ≠ branchId := fun heq => h (List.mem_cons.mpr (.inl heq))
          rw [hrest.2 hmem, hothers other hid]

end Records

/-!
### What a cascade reaches

A cascade reaches descendants only.
-/

section Cascade

/-- One branch is a registered child of another. -/
def Child (records : BranchRecords κ β) (branchId childId : String) : Prop :=
  ∃ record, records.get? branchId = some record ∧ childId ∈ record.childBranchIds

/-- One branch is the other or a registered descendant of it. -/
def Descends (records : BranchRecords κ β) : String → String → Prop :=
  Relation.ReflTransGen (Child records)

/-- A visit stays among the descendants of where it starts. -/
theorem cascade_descends (records : BranchRecords κ β) (sources : List String) (fuel : Nat) :
    ∀ toVisit visited : List String,
      (∀ id ∈ toVisit, ∃ source ∈ sources, Descends records source id) →
      (∀ id ∈ visited, ∃ source ∈ sources, Descends records source id) →
      ∀ id ∈ (cascade records fuel toVisit visited).1,
        ∃ source ∈ sources, Descends records source id := by
  -- The induction is on the fuel; what is to visit and what was visited descend from the
  -- sources.
  induction fuel with
  | zero => exact fun _ _ _ hvisited => hvisited
  | succ fuel ih =>
      intro toVisit visited htoVisit hvisited
      cases toVisit with
      | nil => exact hvisited
      | cons branchId rest =>
          have hrest : ∀ id ∈ rest, ∃ source ∈ sources, Descends records source id :=
            fun id hmem => htoVisit id (List.mem_cons_of_mem _ hmem)
          unfold cascade
          split
          · exact ih rest visited hrest hvisited
          -- A branch that is not known ends the cascade where it stands.
          · split
            · exact hvisited
            · rename_i record hget
              rcases htoVisit branchId List.mem_cons_self with ⟨source, hsource, hdescends⟩
              apply ih
              -- The children of a branch that descends from a source descend from it.
              · intro id hmem
                rcases List.mem_append.mp hmem with hchild | hold
                · exact ⟨source, hsource,
                    hdescends.tail ⟨record, hget, List.mem_reverse.mp hchild⟩⟩
                · exact hrest id hold
              · intro id hmem
                rcases List.mem_append.mp hmem with hold | hnew
                · exact hvisited id hold
                · rw [List.mem_singleton.mp hnew]
                  exact ⟨source, hsource, hdescends⟩

/-- What a quarantine does to a branch: it is released if it was admitted; else it
    keeps its state and its result, unless it descends from an admitted branch
    and is cancelled with it. -/
theorem quarantine_records (manager : BranchManager κ β) (branchIds : List String)
    (branchId : String) (record : BranchRecord κ β)
    (hget : manager.records.get? branchId = some record) :
    ∃ record', (manager.quarantine branchIds).records.get? branchId = some record' ∧
      (branchId ∈ branchIds → record'.state = .released) ∧
      (branchId ∉ branchIds →
        (record'.state = record.state ∧ record'.result = record.result) ∨
        (record'.state = .cancelled ∧
          ∃ source ∈ branchIds, Descends manager.records source branchId)) := by
  -- Only the branches that are known are cancelled and released.
  generalize hknown : branchIds.filter
    (fun branchId => (manager.records.get? branchId).isSome) = known
  have hmemKnown : ∀ id, id ∈ known ↔ id ∈ branchIds ∧ (manager.records.get? id).isSome := by
    intro id
    rw [← hknown, List.mem_filter]
  generalize hvisit : cascade manager.records (cascadeFuel manager.records known) known.reverse []
    = visit
  -- What the cascade visits descends from one of them.
  have hvisited : ∀ id ∈ visit.1, ∃ source ∈ known, Descends manager.records source id := by
    rw [← hvisit]
    refine cascade_descends manager.records known _ _ _ ?_ (fun id hmem => by cases hmem)
    exact fun id hmem => ⟨id, List.mem_reverse.mp hmem, .refl⟩
  have hcancelled : (manager.cancelBranches known).1 = visit.1.foldl cancelOne manager := by
    unfold cancelBranches
    rw [hvisit]
  have hrecords := fun other => foldl_cancelOne_records visit.1 other manager
  -- Cancelling them leaves their records.
  have hsome : ∀ id ∈ known,
      ((visit.1.foldl cancelOne manager).records.get? id).isSome = true := by
    intro id hmem
    rw [hrecords]
    split
    · rw [Option.isSome_map]
      exact ((hmemKnown id).mp hmem).2
    · exact ((hmemKnown id).mp hmem).2
  have hrelease := releaseBranches_records known _ hsome branchId
  unfold quarantine
  dsimp only
  rw [hknown, hcancelled]
  generalize ((visit.1.foldl cancelOne manager).releaseBranches known).1.records.get? branchId =
    final at hrelease ⊢
  rw [hrecords, hget] at hrelease
  -- A branch of the list ends as released.
  by_cases hmem : branchId ∈ branchIds
  · have hin : branchId ∈ known := (hmemKnown branchId).mpr ⟨hmem, by rw [hget]; rfl⟩
    have hstate := hrelease.1 hin
    cases final with
    | none => cases hstate
    | some record' => exact ⟨record', rfl, fun _ => Option.some.inj hstate, fun h => absurd hmem h⟩
  · have hout : branchId ∉ known := fun h => hmem ((hmemKnown branchId).mp h).1
    have hunlinked := hrelease.2 hout
    cases final with
    | none =>
        split at hunlinked <;> cases hunlinked
    | some record' =>
        refine ⟨record', rfl, fun h => absurd h hmem, fun _ => ?_⟩
        -- Another one was visited by the cascade, and then cancelled if it was active, or was
        -- not.
        split at hunlinked
        · rename_i hin
          have hsame := Option.some.inj hunlinked
          rcases BranchRecord.unlinked_inj hsame with ⟨hstate, hresult⟩
          by_cases hcancel : record.cancelled.state = .cancelled
          · rcases hvisited branchId hin with ⟨source, hsource, hdescends⟩
            exact .inr ⟨hstate.trans hcancel, source, ((hmemKnown source).mp hsource).1, hdescends⟩
          · rw [record.cancelled_eq_self hcancel] at hstate hresult
            exact .inl ⟨hstate, hresult⟩
        · have hsame := Option.some.inj hunlinked
          exact .inl (BranchRecord.unlinked_inj hsame)

end Cascade

end BranchManager

end Combat

end STS2RL
